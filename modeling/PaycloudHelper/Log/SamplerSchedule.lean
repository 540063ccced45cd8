import Mathlib
import PaycloudHelper.Log.Sampler

/-!
# The schedule of the log sampler

The calls of a key fall into windows by their readings alone. What a window allows is known
from the place of each call in it, as far as the counter counts without wrapping.
-/

namespace PaycloudHelper.LogSampler

open Log (durationSince)
open Transcripts

/-! ## Windows -/

/-- A window starts at the first reading, and at the first that is a period or more later. -/
def windows (period : ℕ) : List ℕ → List (List ℕ)
  | [] => []
  | start :: rest =>
    (start :: rest.takeWhile fun now => decide (now < start + period)) ::
      windows period (rest.dropWhile fun now => decide (now < start + period))
termination_by readings => readings.length
decreasing_by
  exact Nat.lt_succ_of_le (List.dropWhile_sublist _).length_le

def readings (calls : List Call) (key : String) : List ℕ :=
  (calls.filter fun call => call.key == key).map Call.now

def Scheduled (cfg : SamplerConfig) (k : ℕ) : Prop :=
  k ≤ cfg.initial.toNat ∨
    0 < cfg.thereafter.toNat ∧ cfg.thereafter.toNat ∣ k - cfg.initial.toNat

instance (cfg : SamplerConfig) (k : ℕ) : Decidable (Scheduled cfg k) :=
  inferInstanceAs (Decidable (_ ∨ _))

def emitted (cfg : SamplerConfig) (n : ℕ) : ℕ :=
  min n cfg.initial.toNat +
    if 0 < cfg.thereafter.toNat then (n - cfg.initial.toNat) / cfg.thereafter.toNat else 0

structure OnSchedule (cfg : SamplerConfig) (window : List ℕ) (block : List (Bool × ℤ)) : Prop where
  length : block.length = window.length
  scheduled : ∀ k < 2 ^ 63, 0 < k → ∀ line ∈ block[k - 1]?, line.1 = true ↔ Scheduled cfg k
  lines : window.length < 2 ^ 63 → allowed block = emitted cfg window.length

variable {cfg : SamplerConfig} {calls : List Call} {key : String}

/-! ## The calls of one window -/

def counter (k : ℕ) : ℤ := Int.bmod k (2 ^ 64)

theorem counter_succ (k : ℕ) : Int.bmod (counter k + 1) (2 ^ 64) = counter (k + 1) := by
  unfold counter
  rw [Int.bmod_add_bmod]
  push_cast
  rfl

theorem counter_of_lt {k : ℕ} (h : k < 2 ^ 63) : counter k = k := by
  apply Int.bmod_eq_of_le <;> omega

theorem answer_fst_iff {k : ℕ} : (cfg.answer k).1 = true ↔ Scheduled cfg k := by
  unfold SamplerConfig.answer Scheduled
  dsimp only
  split_ifs with hle hzero hmod
  · exact iff_of_true rfl (Or.inl (by omega))
  · have hnone : ¬ 0 < cfg.thereafter.toNat := by simp [hzero]
    have hlt : ¬ k ≤ cfg.initial.toNat := by omega
    simp [hnone, hlt]
  · have hpos : 0 < cfg.thereafter.toNat := by
      have := thereafter_pos hzero
      omega
    have hdvd : (cfg.thereafter.toNat : ℤ) ∣ (k - cfg.initial.toNat : ℕ) := by
      rw [Nat.cast_sub (by omega)]
      exact Int.dvd_of_emod_eq_zero hmod
    exact iff_of_true rfl (Or.inr ⟨hpos, Int.natCast_dvd_natCast.mp hdvd⟩)
  · refine iff_of_false (by simp) ?_
    rintro (hburst | ⟨-, hdvd⟩)
    · exact hle (by omega)
    · have hcast : ((k - cfg.initial.toNat : ℕ) : ℤ) = k - cfg.initial.toNat :=
        Nat.cast_sub (by omega)
      refine hmod (Int.emod_eq_zero_of_dvd ?_)
      rw [← hcast]
      exact Int.natCast_dvd_natCast.mpr hdvd

theorem scheduled_of_le {k : ℕ} (h : k ≤ cfg.initial.toNat) : Scheduled cfg k := Or.inl h

theorem scheduled_iff_of_lt {k : ℕ} (h : cfg.initial.toNat < k) : Scheduled cfg k ↔
    0 < cfg.thereafter.toNat ∧ cfg.thereafter.toNat ∣ k - cfg.initial.toNat :=
  or_iff_right (not_le.mpr h)

theorem emitted_succ (cfg : SamplerConfig) (n : ℕ) :
    emitted cfg (n + 1) = emitted cfg n + if Scheduled cfg (n + 1) then 1 else 0 := by
  rcases lt_or_ge n cfg.initial.toNat with hburst | hburst
  · have hsub : n + 1 - cfg.initial.toNat = n - cfg.initial.toNat := by omega
    rw [if_pos (scheduled_of_le hburst), emitted, emitted, hsub]
    omega
  · have hsub : n + 1 - cfg.initial.toNat = n - cfg.initial.toNat + 1 := by omega
    rw [emitted, emitted, min_eq_right hburst, min_eq_right (by omega), hsub, Nat.succ_div]
    simp only [scheduled_iff_of_lt (Nat.lt_succ_of_le hburst), hsub]
    by_cases hpos : 0 < cfg.thereafter.toNat
    · simp only [hpos, if_true, true_and, add_assoc]
    · simp only [hpos, if_false, false_and, add_zero]

def block (answer : ℕ → Bool × ℤ) (k n : ℕ) : List (Bool × ℤ) :=
  (List.range n).map fun i => answer (k + i + 1)

theorem block_succ (answer : ℕ → Bool × ℤ) (k n : ℕ) :
    block answer k (n + 1) = answer (k + 1) :: block answer (k + 1) n := by
  simp only [block, List.range_succ_eq_map, List.map_cons, List.map_map, add_zero]
  refine congrArg _ (List.map_congr_left fun i _ => ?_)
  have hindex : k + (i + 1) + 1 = k + 1 + i + 1 := by ring
  simp [hindex]

theorem block_concat (answer : ℕ → Bool × ℤ) (n : ℕ) :
    block answer 0 (n + 1) = block answer 0 n ++ [answer (n + 1)] := by
  simp [block, List.range_succ]

theorem getElem?_block {answer : ℕ → Bool × ℤ} {n i : ℕ} {line : Bool × ℤ}
    (h : (block answer 0 n)[i]? = some line) : line = answer (i + 1) := by
  unfold block at h
  rw [List.getElem?_map, Option.map_eq_some_iff] at h
  obtain ⟨j, hj, rfl⟩ := h
  obtain ⟨-, rfl⟩ := List.getElem?_eq_some_iff.mp hj
  simp

def answerAt (cfg : SamplerConfig) (k : ℕ) : Bool × ℤ := cfg.answer (counter k)

theorem answerAt_fst_iff {k : ℕ} (h : k < 2 ^ 63) :
    (answerAt cfg k).1 = true ↔ Scheduled cfg k := by
  rw [answerAt, counter_of_lt h]
  exact answer_fst_iff

theorem allowed_block {n : ℕ} (h : n < 2 ^ 63) :
    allowed (block (answerAt cfg) 0 n) = emitted cfg n := by
  induction n with
  | zero => simp [block, allowed, emitted]
  | succ n ih =>
    have hcount : allowed [answerAt cfg (n + 1)] = if Scheduled cfg (n + 1) then 1 else 0 := by
      simp only [allowed, List.countP_singleton, answerAt_fst_iff h]
    rw [block_concat, allowed, List.countP_append, ← allowed, ← allowed, ih (by omega), hcount,
      emitted_succ]

theorem onSchedule_block (cfg : SamplerConfig) (window : List ℕ) :
    OnSchedule cfg window (block (answerAt cfg) 0 window.length) where
  length := by simp [block]
  scheduled := by
    intro k hk hpos line hline
    have hindex : k - 1 + 1 = k := by omega
    rw [getElem?_block hline, hindex]
    exact answerAt_fst_iff hk
  lines := allowed_block

/-! ## From window to window -/

theorem entryStep_start (hinitial : 0 < cfg.initial) (hperiod : 0 < cfg.period)
    {entry : Option SamplerEntry} {call : Call}
    (h : ∀ e ∈ entry, e.reset + cfg.period ≤ call.now) :
    entryStep cfg entry call = (answerAt cfg 1, some ⟨counter 1, call.now⟩) := by
  have hone : counter 1 = 1 := counter_of_lt (by norm_num)
  cases entry with
  | none =>
    have hnot : ¬ cfg.period ≤ durationSince call.now call.now := by
      unfold durationSince
      omega
    have hzero : Int.bmod (0 + 1) (2 ^ 64) = counter 1 := by decide
    simp only [entryStep, SamplerEntry.check, Option.getD_none, hnot, if_false, hzero, answerAt]
  | some e =>
    have hlater : cfg.period ≤ durationSince call.now e.reset := by
      have hreset : e.reset + cfg.period ≤ call.now := h e rfl
      unfold durationSince
      omega
    have hburst : (1 : ℤ) ≤ cfg.initial.toNat := by
      have hpos : 0 < cfg.initial.toNat := UInt32.lt_iff_toNat_lt.mp hinitial
      omega
    simp only [entryStep, SamplerEntry.check, Option.getD_some, hlater, if_true, answerAt, hone,
      answer_of_le hburst]

theorem entryStep_within (hperiod : 0 < cfg.period) {start : ℕ} {call : Call}
    (h : call.now < start + cfg.period) (k : ℕ) :
    entryStep cfg (some ⟨counter k, start⟩) call =
      (answerAt cfg (k + 1), some ⟨counter (k + 1), start⟩) := by
  have hnot : ¬ cfg.period ≤ durationSince call.now start := by
    unfold durationSince
    omega
  simp only [entryStep, SamplerEntry.check, Option.getD_some, hnot, if_false, counter_succ,
    answerAt]

theorem transcript_within (hperiod : 0 < cfg.period) {start : ℕ} {within : List Call}
    (h : ∀ call ∈ within, call.now < start + cfg.period) (k : ℕ) :
    (transcript (entryStep cfg) (some ⟨counter k, start⟩) within).map Prod.snd =
        block (answerAt cfg) k within.length ∧
      ∃ n, final (entryStep cfg) (some ⟨counter k, start⟩) within = some ⟨n, start⟩ := by
  induction within generalizing k with
  | nil => exact ⟨rfl, _, rfl⟩
  | cons call within ih =>
    have hstep := entryStep_within hperiod (h call List.mem_cons_self) k
    obtain ⟨hanswers, hfinal⟩ := ih (fun c hc => h c (List.mem_cons_of_mem _ hc)) (k + 1)
    rw [transcript_cons, final_cons, hstep, List.map_cons, hanswers, List.length_cons, block_succ]
    dsimp only
    exact ⟨rfl, hfinal⟩

theorem transcript_windows (hinitial : 0 < cfg.initial) (hperiod : 0 < cfg.period)
    (calls : List Call) {entry : Option SamplerEntry}
    (h : ∀ e ∈ entry, ∀ call ∈ calls.head?, e.reset + cfg.period ≤ call.now) :
    ∃ blocks, (transcript (entryStep cfg) entry calls).map Prod.snd = blocks.flatten ∧
      List.Forall₂ (OnSchedule cfg) (windows cfg.period (calls.map Call.now)) blocks := by
  induction hn : calls.length using Nat.strong_induction_on generalizing calls entry with
  | _ n ih =>
    cases calls with
    | nil => exact ⟨[], rfl, by simp [windows]⟩
    | cons call rest =>
      let inWindow : Call → Bool := fun c => decide (c.now < call.now + cfg.period)
      have hlt : (rest.dropWhile inWindow).length < n := by
        rw [← hn]
        exact Nat.lt_succ_of_le (List.dropWhile_sublist _).length_le
      have hwithin : ∀ c ∈ rest.takeWhile inWindow, c.now < call.now + cfg.period :=
        fun c hc => of_decide_eq_true (p := c.now < _) (List.mem_takeWhile_imp (p := inWindow) hc)
      have hlater : ∀ c ∈ (rest.dropWhile inWindow).head?, call.now + cfg.period ≤ c.now := by
        intro c hc
        have hnot := List.head?_dropWhile_not inWindow rest
        rw [hc] at hnot
        exact not_lt.mp (of_decide_eq_false hnot)
      obtain ⟨hanswers, count, hfinal⟩ := transcript_within hperiod hwithin 1
      obtain ⟨blocks, hblocks, hschedule⟩ :=
        @ih _ hlt (rest.dropWhile inWindow) (some ⟨count, call.now⟩)
          (by
            rintro e he c hc
            obtain rfl := Option.some.inj he
            exact hlater c hc) rfl
      have hstart : entryStep cfg entry call = (answerAt cfg 1, some ⟨counter 1, call.now⟩) :=
        entryStep_start hinitial hperiod fun e he => h e he call rfl
      have hsplit : rest = rest.takeWhile inWindow ++ rest.dropWhile inWindow :=
        List.takeWhile_append_dropWhile.symm
      refine ⟨(answerAt cfg 1 :: block (answerAt cfg) 1 (rest.takeWhile inWindow).length) :: blocks,
        ?_, ?_⟩
      · rw [List.flatten_cons, ← hblocks, ← hanswers, ← hfinal, List.cons_append, ← List.map_append,
          ← transcript_append, ← hsplit, transcript_cons, hstart, List.map_cons]
      · rw [List.map_cons, windows, List.takeWhile_map, List.dropWhile_map]
        refine List.Forall₂.cons ?_ hschedule
        rw [← block_succ]
        have hlength : (call.now :: (rest.takeWhile inWindow).map Call.now).length =
            (rest.takeWhile inWindow).length + 1 := by simp
        rw [← hlength]
        exact onSchedule_block cfg _

/-! ## The runs of all keys -/

theorem answers_eq (hinitial : 0 < cfg.initial) (calls : List Call) (key : String) :
    answers cfg calls key =
      (transcript (entryStep cfg) none (calls.filter fun call => call.key == key)).map
        Prod.snd := by
  have hproject := @transcript_projection _ _ _ _ (step cfg) (entryStep cfg)
    (fun entries => entries key) (fun call => call.key == key) ?_ ?_
    (Sampler.new (some cfg)).entries calls
  · rw [answers, hproject.1]
    rfl
  · intro entries call hkey
    obtain rfl : call.key = key := by simpa using hkey
    exact step_self hinitial entries call
  · intro entries call hkey
    exact step_other hinitial entries (by simpa using hkey)

/-- The calls of a key, split into windows by their readings, are answered as scheduled, and
the calls of other keys change nothing. -/
theorem emission_schedule (hinitial : 0 < cfg.initial) (hperiod : 0 < cfg.period)
    (calls : List Call) (key : String) :
    (∃ blocks, answers cfg calls key = blocks.flatten ∧
        List.Forall₂ (OnSchedule cfg) (windows cfg.period (readings calls key)) blocks) ∧
      answers cfg calls key = answers cfg (calls.filter fun call => call.key == key) key := by
  constructor
  · rw [answers_eq hinitial]
    exact transcript_windows hinitial hperiod _ (by simp)
  · rw [answers_eq hinitial, answers_eq hinitial, List.filter_filter]
    simp only [Bool.and_self]

theorem emission_schedule_boundary :
    (∃ blocks, answers onePerSecond overTheBoundary "retry" = blocks.flatten ∧
        List.Forall₂ (OnSchedule onePerSecond)
          (windows 1000000000 (readings overTheBoundary "retry")) blocks) ∧
      answers onePerSecond overTheBoundary "retry" =
        answers onePerSecond (overTheBoundary.filter fun call => call.key == "retry") "retry" :=
  emission_schedule (by decide) (by decide) overTheBoundary "retry"

/-! ## A window that is too long -/

def instant : Call := ⟨"retry", 0⟩

theorem windows_replicate (hperiod : 0 < cfg.period) (n : ℕ) :
    windows cfg.period (List.replicate (n + 1) 0) = [List.replicate (n + 1) 0] := by
  have hall : ∀ now ∈ List.replicate n 0, decide (now < 0 + cfg.period) = true := by
    intro now hnow
    obtain rfl := List.eq_of_mem_replicate hnow
    simpa using hperiod
  rw [List.replicate_succ, windows, List.takeWhile_eq_self_iff.mpr hall,
    List.dropWhile_eq_nil_iff.mpr hall, windows]

theorem filter_instant (n : ℕ) :
    (List.replicate n instant).filter (fun call => call.key == "retry") =
      List.replicate n instant := by
  rw [List.filter_eq_self]
  intro call hcall
  obtain rfl := List.eq_of_mem_replicate hcall
  rfl

theorem answers_replicate (n : ℕ) :
    answers onePerSecond (List.replicate (n + 1) instant) "retry" =
      block (answerAt onePerSecond) 0 (n + 1) := by
  have hwithin : ∀ call ∈ List.replicate n instant, call.now < 0 + onePerSecond.period := by
    intro call hcall
    obtain rfl := List.eq_of_mem_replicate hcall
    decide
  obtain ⟨hrest, -⟩ := transcript_within (by decide) hwithin 1
  have hstart : entryStep onePerSecond none instant =
      (answerAt onePerSecond 1, some ⟨counter 1, 0⟩) :=
    entryStep_start (by decide) (by decide) (by simp)
  rw [answers_eq (by decide), filter_instant, List.replicate_succ, transcript_cons, hstart,
    List.map_cons, hrest, List.length_replicate, block_succ]

/-- Of 2^63 calls at one time, one is to be allowed, and two are. -/
theorem late_call_allowed :
    windows onePerSecond.period (readings (List.replicate (2 ^ 63) instant) "retry") =
        [List.replicate (2 ^ 63) 0] ∧
      (answers onePerSecond (List.replicate (2 ^ 63) instant) "retry")[2 ^ 63 - 1]? =
        some (true, 0) ∧
      ¬ Scheduled onePerSecond (2 ^ 63) := by
  obtain ⟨n, hn⟩ : ∃ n, n + 1 = 2 ^ 63 := ⟨2 ^ 63 - 1, by norm_num⟩
  have hreadings : readings (List.replicate (n + 1) instant) "retry" =
      List.replicate (n + 1) 0 := by
    rw [readings, filter_instant, List.map_replicate]
    rfl
  have hlast : answerAt onePerSecond (n + 1) = (true, 0) := by
    rw [hn]
    decide
  refine ⟨?_, ?_, by decide⟩
  · rw [← hn, hreadings, windows_replicate (by decide)]
  · rw [← hn, answers_replicate, Nat.add_sub_cancel, block_concat, List.getElem?_append_right] <;>
      simp [block, hlast]

end PaycloudHelper.LogSampler
