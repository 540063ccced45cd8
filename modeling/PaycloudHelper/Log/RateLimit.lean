import Mathlib
import PaycloudHelper.Library.Transcripts

/-!
# The window rate limiter

Calls take the entry of their key one after another, in any order of the clock readings
they made before. Readings and windows are in nanoseconds; the counter is an `i64` that
wraps.
-/

namespace PaycloudHelper.Log

open Transcripts

structure RateLimitEntry where
  lastEmit : Option ℕ
  suppressed : ℤ
deriving DecidableEq, Repr

def RateLimitEntry.new : RateLimitEntry := ⟨none, 0⟩

def durationSince (now last : ℕ) : ℕ := now - last

/-- What `check` does under the lock of the entry. -/
def RateLimitEntry.check (entry : RateLimitEntry) (window now : ℕ) :
    (Bool × ℤ) × RateLimitEntry :=
  let emit := ((true, entry.suppressed), { entry with suppressed := 0, lastEmit := some now })
  match entry.lastEmit with
  | some last =>
    if durationSince now last < window then
      ((false, 0), { entry with suppressed := Int.bmod (entry.suppressed + 1) (2 ^ 64) })
    else emit
  | none => emit

structure RateLimiter where
  entries : String → Option RateLimitEntry

def RateLimiter.new : RateLimiter := ⟨fun _ => none⟩

def RateLimiter.entry (limiter : RateLimiter) (key : String) : RateLimitEntry :=
  (limiter.entries key).getD .new

def RateLimiter.check (limiter : RateLimiter) (key : String) (window now : ℕ) :
    (Bool × ℤ) × RateLimiter :=
  if window = 0 then ((true, 0), limiter)
  else
    let (answer, entry) := (limiter.entry key).check window now
    (answer, ⟨Function.update limiter.entries key (some entry)⟩)

def sampleWindow : Bool × ℤ → Option ℤ
  | (true, suppressed) => some suppressed
  | (false, _) => none

/-! ## Runs of calls -/

structure Call where
  key : String
  window : ℕ
  now : ℕ
  positive : 0 < window
deriving DecidableEq

def step (limiter : RateLimiter) (call : Call) : (Bool × ℤ) × RateLimiter :=
  limiter.check call.key call.window call.now

abbrev Line := Call × (Bool × ℤ)

def history (calls : List Call) (key : String) : List Line :=
  (transcript step .new calls).filter fun line => line.1.key == key

def pending (calls : List Call) (key : String) : ℤ :=
  ((final step .new calls).entry key).suppressed

def isAllowed (line : Line) : Bool := line.2.1

def allowed (lines : List Line) : ℕ := lines.countP isAllowed

def reported (lines : List Line) : ℤ := (lines.filterMap fun line => sampleWindow line.2).sum

def streak (lines : List Line) : ℕ := (lines.rtakeWhile fun line => !isAllowed line).length

def Conserved (calls : List Call) (key : String) : Prop :=
  (history calls key).length =
    allowed (history calls key) + reported (history calls key) + pending calls key

/-! ## One entry -/

def entryStep (entry : RateLimitEntry) (call : Call) : (Bool × ℤ) × RateLimitEntry :=
  entry.check call.window call.now

theorem entry_step_self (limiter : RateLimiter) (call : Call) :
    (step limiter call).1 = (entryStep (limiter.entry call.key) call).1 ∧
      (step limiter call).2.entry call.key = (entryStep (limiter.entry call.key) call).2 := by
  simp [step, RateLimiter.check, call.positive.ne', entryStep, RateLimiter.entry]

theorem entry_step_other (limiter : RateLimiter) {call : Call} {key : String}
    (h : call.key ≠ key) : (step limiter call).2.entry key = limiter.entry key := by
  simp [step, RateLimiter.check, call.positive.ne', RateLimiter.entry, Function.update_of_ne h.symm]

theorem history_eq (calls : List Call) (key : String) :
    history calls key = transcript entryStep .new (calls.filter fun call => call.key == key) ∧
      (final step .new calls).entry key =
        final entryStep .new (calls.filter fun call => call.key == key) := by
  refine @transcript_projection _ _ _ _ step entryStep (fun limiter => limiter.entry key)
    (fun call => call.key == key) ?_ ?_ .new calls
  · intro limiter call hkey
    obtain rfl : call.key = key := by simpa using hkey
    exact entry_step_self limiter call
  · intro limiter call hkey
    exact entry_step_other limiter (by simpa using hkey)

/-! ## What one entry accounts for -/

variable {entry : RateLimitEntry} {call : Call} {lines : List Line}

theorem entryStep_cases (entry : RateLimitEntry) (call : Call) :
    (∃ last, entry.lastEmit = some last ∧ entryStep entry call =
        ((false, 0), ⟨some last, Int.bmod (entry.suppressed + 1) (2 ^ 64)⟩)) ∨
      ((∀ last ∈ entry.lastEmit, last + call.window ≤ call.now) ∧
        entryStep entry call = ((true, entry.suppressed), ⟨some call.now, 0⟩)) := by
  have hpositive := call.positive
  obtain ⟨lastEmit, suppressed⟩ := entry
  cases lastEmit with
  | none => exact Or.inr ⟨by simp, rfl⟩
  | some last =>
    by_cases hwindow : durationSince call.now last < call.window
    · exact Or.inl ⟨last, rfl, by simp [entryStep, RateLimitEntry.check, hwindow]⟩
    · refine Or.inr ⟨?_, by simp [entryStep, RateLimitEntry.check, hwindow]⟩
      unfold durationSince at hwindow
      simp only [Option.mem_def, Option.some.injEq, forall_eq']
      omega

def Apart (earlier later : Call) : Prop := earlier.now + later.window ≤ later.now

def allowedCalls (lines : List Line) : List Call := (lines.filter isAllowed).map Prod.fst

/-- No streak of suppressed calls is longer than the counter can count. -/
def Countable (lines : List Line) : Prop := ∀ pre, pre <+: lines → streak pre < 2 ^ 63

structure Accounted (lines : List Line) (entry : RateLimitEntry) : Prop where
  wrapped : (lines.length : ℤ) ≡ allowed lines + reported lines + entry.suppressed [ZMOD 2 ^ 64]
  exact : Countable lines → (lines.length : ℤ) = allowed lines + reported lines + streak lines ∧
    entry.suppressed = streak lines
  last : (allowedCalls lines).getLast?.map Call.now = entry.lastEmit
  apart : (allowedCalls lines).IsChain Apart

theorem Accounted.new : Accounted [] .new where
  wrapped := by simp [allowed, reported, RateLimitEntry.new]
  exact := by simp [allowed, reported, streak, RateLimitEntry.new]
  last := rfl
  apart := List.isChain_nil

theorem bmod_succ_of_lt {n : ℕ} (h : n + 1 < 2 ^ 63) : Int.bmod ((n : ℤ) + 1) (2 ^ 64) = n + 1 := by
  apply Int.bmod_eq_of_le <;> omega

theorem Countable.of_append {more : List Line} (h : Countable (lines ++ more)) : Countable lines :=
  fun pre hpre => h pre (hpre.trans (List.prefix_append _ _))

/-! One more line. -/

theorem length_concat (lines : List Line) (line : Line) :
    ((lines ++ [line]).length : ℤ) = lines.length + 1 := by simp

theorem allowed_concat (lines : List Line) (line : Line) :
    (allowed (lines ++ [line]) : ℤ) = allowed lines + if isAllowed line then 1 else 0 := by
  simp [allowed, List.countP_append, List.countP_singleton]

theorem reported_concat (lines : List Line) (call : Call) (answer : Bool × ℤ) :
    reported (lines ++ [(call, answer)]) = reported lines + (sampleWindow answer).getD 0 := by
  cases h : sampleWindow answer <;> simp [reported, h]

theorem streak_concat (lines : List Line) (line : Line) :
    streak (lines ++ [line]) = if isAllowed line then 0 else streak lines + 1 := by
  cases h : isAllowed line <;> simp [streak, h]

theorem allowedCalls_concat (lines : List Line) (line : Line) :
    allowedCalls (lines ++ [line]) =
      allowedCalls lines ++ if isAllowed line then [line.1] else [] := by
  cases h : isAllowed line <;> simp [allowedCalls, h]

theorem Accounted.suppress (h : Accounted lines entry) {last : ℕ}
    (hlast : entry.lastEmit = some last) (call : Call) :
    Accounted (lines ++ [(call, (false, 0))])
      ⟨some last, Int.bmod (entry.suppressed + 1) (2 ^ 64)⟩ := by
  have hallowed : (allowed (lines ++ [(call, (false, 0))]) : ℤ) = allowed lines :=
    (allowed_concat ..).trans (add_zero _)
  have hreported : reported (lines ++ [(call, (false, 0))]) = reported lines :=
    (reported_concat ..).trans (add_zero _)
  have hstreak : streak (lines ++ [(call, (false, 0))]) = streak lines + 1 := streak_concat ..
  have hcalls : allowedCalls (lines ++ [(call, (false, 0))]) = allowedCalls lines :=
    (allowedCalls_concat ..).trans (List.append_nil _)
  constructor
  · have hmod : Int.bmod (entry.suppressed + 1) (2 ^ 64) ≡ entry.suppressed + 1 [ZMOD 2 ^ 64] :=
      Int.bmod_emod ..
    rw [length_concat, hallowed, hreported]
    calc (lines.length : ℤ) + 1
        ≡ allowed lines + reported lines + entry.suppressed + 1 [ZMOD 2 ^ 64] :=
          h.wrapped.add_right 1
      _ = allowed lines + reported lines + (entry.suppressed + 1) := add_assoc ..
      _ ≡ allowed lines + reported lines + Int.bmod (entry.suppressed + 1) (2 ^ 64)
          [ZMOD 2 ^ 64] := hmod.symm.add_left _
  · intro hcountable
    obtain ⟨htotal, hsuppressed⟩ := h.exact hcountable.of_append
    have hlt : streak lines + 1 < 2 ^ 63 := by
      rw [← hstreak]
      exact hcountable _ List.prefix_rfl
    rw [length_concat, hallowed, hreported, hstreak, htotal, hsuppressed, bmod_succ_of_lt hlt]
    exact ⟨by push_cast; ring, by push_cast; rfl⟩
  · rw [hcalls, h.last, hlast]
  · rw [hcalls]
    exact h.apart

theorem Accounted.emit (h : Accounted lines entry) {call : Call}
    (hopen : ∀ last ∈ entry.lastEmit, last + call.window ≤ call.now) :
    Accounted (lines ++ [(call, (true, entry.suppressed))]) ⟨some call.now, 0⟩ := by
  have hallowed : (allowed (lines ++ [(call, (true, entry.suppressed))]) : ℤ) =
      allowed lines + 1 := allowed_concat ..
  have hreported : reported (lines ++ [(call, (true, entry.suppressed))]) =
      reported lines + entry.suppressed := reported_concat ..
  have hstreak : streak (lines ++ [(call, (true, entry.suppressed))]) = 0 := streak_concat ..
  have hcalls : allowedCalls (lines ++ [(call, (true, entry.suppressed))]) =
      allowedCalls lines ++ [call] := allowedCalls_concat ..
  constructor
  · rw [length_concat, hallowed, hreported]
    have hnext := h.wrapped.add_right 1
    have hsum : (allowed lines : ℤ) + 1 + (reported lines + entry.suppressed) + 0 =
        allowed lines + reported lines + entry.suppressed + 1 := by ring
    rwa [hsum]
  · intro hcountable
    obtain ⟨htotal, hsuppressed⟩ := h.exact hcountable.of_append
    rw [length_concat, hallowed, hreported, hstreak, htotal, hsuppressed]
    exact ⟨by push_cast; ring, rfl⟩
  · rw [hcalls, List.getLast?_concat]
    rfl
  · rw [hcalls, List.isChain_append]
    refine ⟨h.apart, List.isChain_singleton _, ?_⟩
    intro earlier hearlier later hlater
    obtain rfl : call = later := by simpa using hlater
    have hemit : entry.lastEmit = some earlier.now := by
      rw [← h.last, Option.mem_def.mp hearlier]
      rfl
    exact hopen _ hemit

theorem accounted_transcript (calls : List Call) :
    Accounted (transcript entryStep .new calls) (final entryStep .new calls) := by
  induction calls using List.reverseRecOn with
  | nil => exact Accounted.new
  | append_singleton calls call ih =>
    rw [transcript_concat, final_concat]
    rcases entryStep_cases (final entryStep .new calls) call with ⟨last, hlast, heq⟩ | ⟨hopen, heq⟩
    · rw [heq]
      exact ih.suppress hlast call
    · rw [heq]
      exact ih.emit hopen

theorem accounted_history (calls : List Call) (key : String) :
    Accounted (history calls key) ((final step .new calls).entry key) := by
  obtain ⟨hhistory, hentry⟩ := history_eq calls key
  rw [hhistory, hentry]
  exact accounted_transcript _

/-- Every call of a key is allowed, reported or pending, as far as the counter can count;
the allowed ones are a window apart; and the calls of other keys change none of it. -/
theorem lines_accounted (calls : List Call) (key : String) :
    (Countable (history calls key) → Conserved calls key) ∧
      ((history calls key).length : ℤ) ≡
        allowed (history calls key) + reported (history calls key) + pending calls key
          [ZMOD 2 ^ 64] ∧
      (allowedCalls (history calls key)).IsChain Apart ∧
      history calls key = history (calls.filter fun call => call.key == key) key ∧
      pending calls key = pending (calls.filter fun call => call.key == key) key := by
  have haccounted : Accounted (history calls key) ((final step .new calls).entry key) :=
    accounted_history calls key
  obtain ⟨hhistory, hentry⟩ := history_eq calls key
  obtain ⟨hhistory', hentry'⟩ := history_eq (calls.filter fun call => call.key == key) key
  rw [List.filter_filter] at hhistory' hentry'
  simp only [Bool.and_self] at hhistory' hentry'
  refine ⟨fun hcountable => ?_, haccounted.wrapped, haccounted.apart,
    hhistory.trans hhistory'.symm, ?_⟩
  · obtain ⟨htotal, hsuppressed⟩ := haccounted.exact hcountable
    unfold Conserved pending
    rw [hsuppressed, htotal]
  · unfold pending
    rw [hentry, hentry']

theorem Countable.of_length (h : lines.length < 2 ^ 63) : Countable lines := by
  intro pre hpre
  have hstreak : streak pre ≤ pre.length := (List.rtakeWhile_suffix _ _).length_le
  exact (hstreak.trans hpre.length_le).trans_lt h

def retries : List Call :=
  [⟨"retry", 10, 0, by decide⟩, ⟨"retry", 10, 4, by decide⟩, ⟨"other", 10, 5, by decide⟩,
    ⟨"retry", 10, 8, by decide⟩, ⟨"retry", 10, 12, by decide⟩, ⟨"retry", 5, 14, by decide⟩]

theorem lines_accounted_retries :
    (allowed (history retries "retry") = 2 ∧ reported (history retries "retry") = 2 ∧
        pending retries "retry" = 1) ∧
      Countable (history retries "retry") ∧ Conserved retries "retry" ∧
      (allowedCalls (history retries "retry")).IsChain Apart := by
  have hcountable : Countable (history retries "retry") := .of_length (by decide)
  obtain ⟨hconserved, -, hapart, -⟩ := lines_accounted retries "retry"
  exact ⟨⟨by decide, by decide, by decide⟩, hcountable, hconserved hcountable, hapart⟩

/-! ## A streak that is too long -/

def storm : Call := ⟨"retry storm", 1, 0, by decide⟩

theorem storm_suppressed (n : ℕ) (m : ℤ) :
    transcript entryStep ⟨some 0, Int.bmod m (2 ^ 64)⟩ (List.replicate n storm) =
        List.replicate n (storm, (false, 0)) ∧
      final entryStep ⟨some 0, Int.bmod m (2 ^ 64)⟩ (List.replicate n storm) =
        ⟨some 0, Int.bmod (m + n) (2 ^ 64)⟩ := by
  induction n generalizing m with
  | zero => exact ⟨rfl, by simp⟩
  | succ n ih =>
    have hstep : entryStep ⟨some 0, Int.bmod m (2 ^ 64)⟩ storm =
        ((false, 0), ⟨some 0, Int.bmod (m + 1) (2 ^ 64)⟩) := by
      simp [entryStep, RateLimitEntry.check, storm, durationSince, Int.bmod_add_bmod]
    obtain ⟨htranscript, hfinal⟩ := ih (m + 1)
    have hsum : m + 1 + (n : ℤ) = m + (n + 1 : ℕ) := by push_cast; ring
    rw [List.replicate_succ, transcript_cons, final_cons, hstep, htranscript, hfinal, hsum]
    exact ⟨rfl, rfl⟩

theorem storm_not_conserved {n : ℕ} (h : Int.bmod n (2 ^ 64) ≠ n) :
    ¬ Conserved (storm :: List.replicate n storm) "retry storm" := by
  have hfilter : (storm :: List.replicate n storm).filter (fun call => call.key == "retry storm") =
      storm :: List.replicate n storm := by
    rw [List.filter_eq_self]
    intro call hcall
    obtain rfl : call = storm :=
      (List.mem_cons.mp hcall).elim id fun hcall => List.eq_of_mem_replicate hcall
    rfl
  have hfirst : entryStep .new storm = ((true, 0), ⟨some 0, Int.bmod 0 (2 ^ 64)⟩) := rfl
  obtain ⟨htranscript, hfinal⟩ := storm_suppressed n 0
  obtain ⟨hhistory, hentry⟩ := history_eq (storm :: List.replicate n storm) "retry storm"
  have hlines : history (storm :: List.replicate n storm) "retry storm" =
      (storm, (true, 0)) :: List.replicate n (storm, (false, 0)) := by
    rw [hhistory, hfilter, transcript_cons, hfirst, htranscript]
  have hpending : pending (storm :: List.replicate n storm) "retry storm" =
      Int.bmod n (2 ^ 64) := by
    have hrest : final entryStep .new (storm :: List.replicate n storm) =
        ⟨some 0, Int.bmod (0 + n) (2 ^ 64)⟩ := by
      rw [final_cons, hfirst]
      exact hfinal
    unfold pending
    rw [hentry, hfilter, hrest, zero_add]
  have hallowed : allowed ((storm, (true, 0)) :: List.replicate n (storm, (false, 0))) = 1 := by
    have hrest : ∀ line ∈ List.replicate n (storm, (false, (0 : ℤ))), ¬ isAllowed line = true := by
      intro line hline
      rw [List.eq_of_mem_replicate hline]
      simp [isAllowed]
    rw [allowed, List.countP_cons_of_pos (by rfl), List.countP_eq_zero.mpr hrest]
  have hreported : reported ((storm, (true, 0)) :: List.replicate n (storm, (false, 0))) = 0 := by
    simp [reported, sampleWindow]
  intro hconserved
  rw [Conserved, hlines, hpending, hallowed, hreported, List.length_cons, List.length_replicate,
    Nat.cast_succ, Nat.cast_one] at hconserved
  exact h (by linarith only [hconserved])

/-- After one allowed call, 2^63 are suppressed; the counter then says -2^63. -/
theorem storm_uncounted :
    ¬ Conserved (storm :: List.replicate (2 ^ 63) storm) "retry storm" :=
  storm_not_conserved (by decide)

end PaycloudHelper.Log
