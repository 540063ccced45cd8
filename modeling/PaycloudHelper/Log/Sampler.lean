import Mathlib
import PaycloudHelper.Library.Transcripts
import PaycloudHelper.Log.RateLimit

/-!
# The log sampler

Each key has a counter and the start of its window. Readings and periods are in
nanoseconds; the counter is an `i64` that wraps.
-/

namespace PaycloudHelper.LogSampler

open Log (durationSince)
open Transcripts

structure SamplerConfig where
  initial : UInt32
  thereafter : UInt32
  period : ℕ
deriving DecidableEq, Repr

inductive AppEnv
  | production
  | staging
  | develop
deriving DecidableEq, Repr

def samplerConfigForEnv : Option AppEnv → Option SamplerConfig
  | some .production => some ⟨5, 50, 1000000000⟩
  | some .staging => some ⟨10, 10, 1000000000⟩
  | some .develop => some ⟨20, 20, 1000000000⟩
  | none => none

theorem samplerConfigForEnv_pos {env : Option AppEnv} {c : SamplerConfig}
    (h : samplerConfigForEnv env = some c) : 0 < c.initial ∧ 0 < c.period := by
  cases env with
  | none => cases h
  | some env =>
    cases env <;> cases h <;> decide

structure SamplerEntry where
  count : ℤ
  reset : ℕ
deriving DecidableEq, Repr

structure Sampler where
  config : Option SamplerConfig
  entries : String → Option SamplerEntry

def Sampler.new (config : Option SamplerConfig) : Sampler := ⟨config, fun _ => none⟩

def initializeSampler (config : Option SamplerConfig) : Sampler :=
  .new (config.map fun c =>
    if c.period = 0 ∧ 0 < c.initial then { c with period := 1000000000 } else c)

theorem initializeSampler_period {config : Option SamplerConfig} {c : SamplerConfig}
    (h : (initializeSampler config).config = some c) (hinitial : 0 < c.initial) :
    0 < c.period := by
  obtain ⟨cfg, -, rfl⟩ := Option.map_eq_some_iff.mp h
  split_ifs at hinitial ⊢ with hzero
  · exact Nat.one_pos.trans_le (by norm_num)
  · exact Nat.pos_of_ne_zero fun hperiod => hzero ⟨hperiod, hinitial⟩

/-- The answer to the call that the counter has as its `n`-th. -/
def SamplerConfig.answer (cfg : SamplerConfig) (n : ℤ) : Bool × ℤ :=
  if n ≤ cfg.initial.toNat then (true, 0)
  else if cfg.thereafter = 0 then (false, 0)
  else
    -- positive, so the remainder is that of the source
    let overInitial := n - cfg.initial.toNat
    if overInitial % cfg.thereafter.toNat = 0 then (true, cfg.thereafter.toNat - 1)
    else (false, 0)

def SamplerEntry.check (entry : SamplerEntry) (cfg : SamplerConfig) (now : ℕ) :
    (Bool × ℤ) × SamplerEntry :=
  if cfg.period ≤ durationSince now entry.reset then ((true, 0), ⟨1, now⟩)
  else
    let n := Int.bmod (entry.count + 1) (2 ^ 64)
    (cfg.answer n, { entry with count := n })

def Sampler.check (sampler : Sampler) (key : String) (now : ℕ) : (Bool × ℤ) × Sampler :=
  match sampler.config with
  | some cfg =>
    if 0 < cfg.initial then
      let (answer, entry) := ((sampler.entries key).getD ⟨0, now⟩).check cfg now
      (answer, { sampler with entries := Function.update sampler.entries key (some entry) })
    else ((true, 0), sampler)
  | none => ((true, 0), sampler)

/-! ## Runs of calls -/

structure Call where
  key : String
  now : ℕ
deriving DecidableEq

abbrev Entries := String → Option SamplerEntry

def step (cfg : SamplerConfig) (entries : Entries) (call : Call) : (Bool × ℤ) × Entries :=
  let (answer, sampler) := Sampler.check ⟨some cfg, entries⟩ call.key call.now
  (answer, sampler.entries)

def after (cfg : SamplerConfig) (calls : List Call) : Entries :=
  final (step cfg) (Sampler.new (some cfg)).entries calls

def answers (cfg : SamplerConfig) (calls : List Call) (key : String) : List (Bool × ℤ) :=
  ((transcript (step cfg) (Sampler.new (some cfg)).entries calls).filter
    fun line => line.1.key == key).map Prod.snd

variable {cfg : SamplerConfig} {calls : List Call} {key : String}

def entryStep (cfg : SamplerConfig) (entry : Option SamplerEntry) (call : Call) :
    (Bool × ℤ) × Option SamplerEntry :=
  let (answer, entry) := (entry.getD ⟨0, call.now⟩).check cfg call.now
  (answer, some entry)

theorem step_self (hinitial : 0 < cfg.initial) (entries : Entries) (call : Call) :
    (step cfg entries call).1 = (entryStep cfg (entries call.key) call).1 ∧
      (step cfg entries call).2 call.key = (entryStep cfg (entries call.key) call).2 := by
  simp [step, Sampler.check, hinitial, entryStep]

theorem step_other (hinitial : 0 < cfg.initial) (entries : Entries) {call : Call}
    (h : call.key ≠ key) : (step cfg entries call).2 key = entries key := by
  simp [step, Sampler.check, hinitial, Function.update_of_ne h.symm]

theorem after_concat (call : Call) :
    after cfg (calls ++ [call]) = (step cfg (after cfg calls) call).2 := final_concat ..

theorem answers_concat_self (call : Call) :
    answers cfg (calls ++ [call]) call.key =
      answers cfg calls call.key ++ [(step cfg (after cfg calls) call).1] := by
  simp [answers, transcript_concat, after]

theorem answers_concat_other {call : Call} (h : call.key ≠ key) :
    answers cfg (calls ++ [call]) key = answers cfg calls key := by
  simp [answers, transcript_concat, h]

/-! ## Drops and their reports -/

def refused (lines : List (Bool × ℤ)) : ℕ := (lines.rtakeWhile fun line => !line.1).length

def allowed (lines : List (Bool × ℤ)) : ℕ := lines.countP Prod.fst

def reported (lines : List (Bool × ℤ)) : ℤ := (lines.map Prod.snd).sum

/-- Every allowed call reports the calls refused since the one before. -/
def ReportsExactly (lines : List (Bool × ℤ)) : Prop :=
  ∀ pre (s : ℤ), pre ++ [(true, s)] <+: lines → s = refused pre

/-- Up to an allowed call, all are allowed or reported. -/
def ReportsAll (lines : List (Bool × ℤ)) : Prop :=
  ∀ pre (s : ℤ), pre ++ [(true, s)] <+: lines →
    ((pre ++ [(true, s)]).length : ℤ) = allowed (pre ++ [(true, s)]) + reported (pre ++ [(true, s)])

/-- What the counter says of the calls refused since the last allowed one. -/
def SamplerEntry.refused (entry : SamplerEntry) (cfg : SamplerConfig) : ℤ :=
  if entry.count ≤ cfg.initial.toNat then 0
  else if cfg.thereafter = 0 then entry.count - cfg.initial.toNat
  else (entry.count - cfg.initial.toNat) % cfg.thereafter.toNat

/-- The call starts a new window, or makes the counter wrap. -/
def SamplerEntry.StartsAnew (entry : SamplerEntry) (cfg : SamplerConfig) (now : ℕ) : Prop :=
  cfg.period ≤ durationSince now entry.reset ∨ entry.count = 2 ^ 63 - 1

instance (entry : SamplerEntry) (cfg : SamplerConfig) (now : ℕ) :
    Decidable (entry.StartsAnew cfg now) :=
  inferInstanceAs (Decidable (cfg.period ≤ durationSince now entry.reset ∨ entry.count = 2 ^ 63 - 1))

def StartsClean (cfg : SamplerConfig) (entries : Entries) (call : Call) : Prop :=
  ∀ entry ∈ entries call.key, entry.StartsAnew cfg call.now → entry.refused cfg = 0

instance (cfg : SamplerConfig) (entries : Entries) (call : Call) :
    Decidable (StartsClean cfg entries call) :=
  inferInstanceAs (Decidable (∀ entry ∈ entries call.key,
    entry.StartsAnew cfg call.now → entry.refused cfg = 0))

/-! ## One entry -/

variable {entry : SamplerEntry} {now : ℕ}

def SamplerEntry.InRange (entry : SamplerEntry) : Prop :=
  -2 ^ 63 ≤ entry.count ∧ entry.count < 2 ^ 63

theorem bmod_succ_of_ne (h : entry.InRange) (hne : entry.count ≠ 2 ^ 63 - 1) :
    Int.bmod (entry.count + 1) (2 ^ 64) = entry.count + 1 := by
  obtain ⟨hlo, hhi⟩ := h
  apply Int.bmod_eq_of_le <;> omega

theorem bmod_wraps : Int.bmod (2 ^ 63 - 1 + 1) (2 ^ 64) = -2 ^ 63 := by decide

theorem bmod_inRange (n : ℤ) : -2 ^ 63 ≤ Int.bmod n (2 ^ 64) ∧ Int.bmod n (2 ^ 64) < 2 ^ 63 :=
  ⟨Int.le_bmod (by decide), Int.bmod_lt (by decide)⟩

theorem succ_emod {x t : ℤ} (ht : 0 < t) :
    (x + 1) % t = if x % t = t - 1 then 0 else x % t + 1 := by
  have hlo : 0 ≤ x % t := Int.emod_nonneg x ht.ne'
  have hhi : x % t < t := Int.emod_lt_of_pos x ht
  have hsucc : (x + 1) % t = (x % t + 1) % t := (Int.emod_add_emod x t 1).symm
  rw [hsucc]
  split_ifs with hlast
  · rw [hlast, sub_add_cancel, Int.emod_self]
  · exact Int.emod_eq_of_lt (by omega) (by omega)

theorem answer_of_le {n : ℤ} (h : n ≤ cfg.initial.toNat) : cfg.answer n = (true, 0) := if_pos h

theorem thereafter_pos (h : cfg.thereafter ≠ 0) : (0 : ℤ) < cfg.thereafter.toNat := by
  have hne : cfg.thereafter.toNat ≠ 0 := fun hzero => h (UInt32.toNat_inj.mp hzero)
  omega

theorem refused_of_count_le (h : entry.count ≤ cfg.initial.toNat) : entry.refused cfg = 0 :=
  if_pos h

theorem refused_of_le_count (h : cfg.initial.toNat ≤ entry.count) : entry.refused cfg =
    if cfg.thereafter = 0 then entry.count - cfg.initial.toNat
    else (entry.count - cfg.initial.toNat) % cfg.thereafter.toNat := by
  unfold SamplerEntry.refused
  split_ifs with hle hzero
  · omega
  · rw [le_antisymm hle h, sub_self, Int.zero_emod]
  · rfl
  · rfl

theorem answer_succ_of_le (h : cfg.initial.toNat ≤ entry.count) :
    (cfg.answer (entry.count + 1) = (true, entry.refused cfg) ∧
        ({ entry with count := entry.count + 1 } : SamplerEntry).refused cfg = 0) ∨
      (cfg.answer (entry.count + 1) = (false, 0) ∧
        ({ entry with count := entry.count + 1 } : SamplerEntry).refused cfg =
          entry.refused cfg + 1) := by
  have hlt : ¬ entry.count + 1 ≤ cfg.initial.toNat := by omega
  have hnext : cfg.initial.toNat ≤ entry.count + 1 := by omega
  have hsub : entry.count + 1 - cfg.initial.toNat = entry.count - cfg.initial.toNat + 1 := by ring
  rw [refused_of_le_count h, refused_of_le_count hnext, SamplerConfig.answer, if_neg hlt, hsub]
  by_cases hzero : cfg.thereafter = 0
  · simp only [hzero, if_true]
    exact Or.inr ⟨trivial, trivial⟩
  · simp only [hzero, if_false, succ_emod (thereafter_pos hzero)]
    by_cases hlast : (entry.count - cfg.initial.toNat) % cfg.thereafter.toNat =
        cfg.thereafter.toNat - 1
    · rw [if_pos hlast, if_pos rfl, hlast]
      exact Or.inl ⟨rfl, rfl⟩
    · have hnonneg : 0 ≤ (entry.count - cfg.initial.toNat) % cfg.thereafter.toNat :=
        Int.emod_nonneg _ (thereafter_pos hzero).ne'
      rw [if_neg hlast, if_neg (by omega)]
      exact Or.inr ⟨rfl, rfl⟩

theorem check_of_startsAnew (hinitial : 0 < cfg.initial) (h : entry.StartsAnew cfg now) :
    (entry.check cfg now).1 = (true, 0) ∧ (entry.check cfg now).2.refused cfg = 0 := by
  have hone : (1 : ℤ) ≤ cfg.initial.toNat := by
    have hpos : 0 < cfg.initial.toNat := UInt32.lt_iff_toNat_lt.mp hinitial
    omega
  unfold SamplerEntry.check
  by_cases hperiod : cfg.period ≤ durationSince now entry.reset
  · rw [if_pos hperiod]
    exact ⟨rfl, refused_of_count_le hone⟩
  · have hle : (-2 ^ 63 : ℤ) ≤ cfg.initial.toNat := by omega
    rw [if_neg hperiod, h.resolve_left hperiod, bmod_wraps]
    exact ⟨answer_of_le hle, refused_of_count_le hle⟩

theorem check_of_not_startsAnew (hrange : entry.InRange) (h : ¬ entry.StartsAnew cfg now) :
    ((entry.check cfg now).1 = (true, entry.refused cfg) ∧
        (entry.check cfg now).2.refused cfg = 0) ∨
      ((entry.check cfg now).1 = (false, 0) ∧
        (entry.check cfg now).2.refused cfg = entry.refused cfg + 1) := by
  obtain ⟨hperiod, hlast⟩ := not_or.mp h
  unfold SamplerEntry.check
  rw [if_neg hperiod, bmod_succ_of_ne hrange hlast]
  dsimp only
  rcases lt_or_ge entry.count cfg.initial.toNat with hburst | hburst
  · have hle : entry.count + 1 ≤ cfg.initial.toNat := by omega
    rw [answer_of_le hle, refused_of_count_le hburst.le]
    exact Or.inl ⟨rfl, refused_of_count_le hle⟩
  · exact answer_succ_of_le hburst

/-- An allowed call leaves nothing to report, and reports all there was unless it hides some
by starting anew. -/
theorem check_cases (hinitial : 0 < cfg.initial) (hrange : entry.InRange) (now : ℕ) :
    (∃ s, (entry.check cfg now).1 = (true, s) ∧ (entry.check cfg now).2.refused cfg = 0 ∧
        (s = entry.refused cfg ↔ (entry.StartsAnew cfg now → entry.refused cfg = 0))) ∨
      ((entry.check cfg now).1 = (false, 0) ∧
        (entry.check cfg now).2.refused cfg = entry.refused cfg + 1 ∧
        ¬ entry.StartsAnew cfg now) := by
  by_cases hanew : entry.StartsAnew cfg now
  · obtain ⟨hanswer, hrefused⟩ := check_of_startsAnew hinitial hanew
    exact Or.inl ⟨0, hanswer, hrefused, by simp [hanew, eq_comm]⟩
  · rcases check_of_not_startsAnew hrange hanew with ⟨hanswer, hrefused⟩ | ⟨hanswer, hrefused⟩
    · exact Or.inl ⟨entry.refused cfg, hanswer, hrefused, by simp [hanew]⟩
    · exact Or.inr ⟨hanswer, hrefused, hanew⟩

theorem check_inRange (entry : SamplerEntry) (now : ℕ) : (entry.check cfg now).2.InRange := by
  unfold SamplerEntry.check
  split_ifs
  · constructor <;> norm_num
  · exact bmod_inRange _

/-! ## What the answers say -/

variable {lines : List (Bool × ℤ)} {s : ℤ}

theorem refused_concat_true : refused (lines ++ [(true, s)]) = 0 := by simp [refused]

theorem refused_concat_false : refused (lines ++ [(false, s)]) = refused lines + 1 := by
  simp [refused]

theorem reportsExactly_concat_false :
    ReportsExactly (lines ++ [(false, s)]) ↔ ReportsExactly lines := by
  refine forall₂_congr fun pre t => imp_congr_left ?_
  rw [List.prefix_concat_iff]
  refine or_iff_right fun h => ?_
  simpa using (List.append_inj' h rfl).2

theorem reportsExactly_concat_true :
    ReportsExactly (lines ++ [(true, s)]) ↔ ReportsExactly lines ∧ s = refused lines := by
  simp only [ReportsExactly, List.prefix_concat_iff]
  constructor
  · exact fun h => ⟨fun pre t hpre => h pre t (Or.inr hpre), h lines s (Or.inl rfl)⟩
  · rintro ⟨h, hlast⟩ pre t (heq | hpre)
    · obtain ⟨rfl, hline⟩ := List.append_inj' heq rfl
      obtain rfl : t = s := by simpa using hline
      exact hlast
    · exact h pre t hpre

theorem ReportsExactly.length_eq (h : ReportsExactly lines)
    (hsilent : ∀ line ∈ lines, line.1 = false → line.2 = 0) :
    (lines.length : ℤ) = allowed lines + reported lines + refused lines := by
  induction lines using List.reverseRecOn with
  | nil => rfl
  | append_singleton lines line ih =>
    have hsilent' : ∀ line ∈ lines, line.1 = false → line.2 = 0 :=
      fun line hline => hsilent line (List.mem_append_left _ hline)
    obtain ⟨b, s⟩ := line
    cases b with
    | true =>
      obtain ⟨hbefore, hlast⟩ := reportsExactly_concat_true.mp h
      rw [refused_concat_true]
      simp only [List.length_append, allowed, List.countP_append, reported, List.map_append,
        List.sum_append] at ih ⊢
      have hbefore := ih hbefore hsilent'
      simp
      omega
    | false =>
      have hzero : s = 0 := hsilent (false, s) (by simp) rfl
      have hbefore := ih (reportsExactly_concat_false.mp h) hsilent'
      rw [refused_concat_false]
      simp only [List.length_append, allowed, List.countP_append, reported, List.map_append,
        List.sum_append] at hbefore ⊢
      simp [hzero]
      omega

theorem ReportsExactly.reportsAll (h : ReportsExactly lines)
    (hsilent : ∀ line ∈ lines, line.1 = false → line.2 = 0) : ReportsAll lines := by
  intro pre s hpre
  have hexact : ReportsExactly (pre ++ [(true, s)]) := fun pre' t h' => h pre' t (h'.trans hpre)
  have htotal := hexact.length_eq fun line hline => hsilent line (hpre.subset hline)
  rwa [refused_concat_true, Nat.cast_zero, add_zero] at htotal

/-! ## Whole runs -/

def current (entries : Entries) (call : Call) : SamplerEntry :=
  (entries call.key).getD ⟨0, call.now⟩

structure Recorded (cfg : SamplerConfig) (calls : List Call) (key : String) : Prop where
  silent : ∀ line ∈ answers cfg calls key, line.1 = false → line.2 = 0
  first : after cfg calls key = none → refused (answers cfg calls key) = 0
  entry : ∀ entry ∈ after cfg calls key, entry.InRange ∧
    (refused (answers cfg calls key) : ℤ) = entry.refused cfg

theorem Recorded.current (h : Recorded cfg calls key) {call : Call} (hkey : call.key = key) :
    (current (after cfg calls) call).InRange ∧
      (refused (answers cfg calls key) : ℤ) = (current (after cfg calls) call).refused cfg := by
  unfold LogSampler.current
  rw [hkey]
  cases hentry : after cfg calls key with
  | none =>
    rw [h.first hentry]
    exact ⟨⟨by norm_num, by norm_num⟩, (refused_of_count_le (by simp)).symm⟩
  | some entry => exact h.entry entry hentry

theorem step_eq (hinitial : 0 < cfg.initial) (entries : Entries) (call : Call) :
    (step cfg entries call).1 = ((current entries call).check cfg call.now).1 ∧
      (step cfg entries call).2 call.key =
        some ((current entries call).check cfg call.now).2 :=
  step_self hinitial entries call

theorem run_concat (hinitial : 0 < cfg.initial) (calls : List Call) (call : Call) :
    answers cfg (calls ++ [call]) call.key = answers cfg calls call.key ++
        [((current (after cfg calls) call).check cfg call.now).1] ∧
      after cfg (calls ++ [call]) call.key =
        some ((current (after cfg calls) call).check cfg call.now).2 := by
  obtain ⟨hanswer, hnext⟩ := step_eq hinitial (after cfg calls) call
  rw [answers_concat_self, after_concat, hanswer]
  exact ⟨rfl, hnext⟩

theorem Recorded.of_after {entry : SamplerEntry} (hafter : after cfg calls key = some entry)
    (hsilent : ∀ line ∈ answers cfg calls key, line.1 = false → line.2 = 0)
    (hrange : entry.InRange) (hrefused : (refused (answers cfg calls key) : ℤ) = entry.refused cfg) :
    Recorded cfg calls key := by
  refine ⟨hsilent, fun hnone => ?_, fun found hfound => ?_⟩
  · rw [hafter] at hnone
    cases hnone
  · rw [hafter] at hfound
    obtain rfl := Option.some.inj hfound
    exact ⟨hrange, hrefused⟩

theorem Recorded.concat_self (hinitial : 0 < cfg.initial) {call : Call}
    (h : Recorded cfg calls call.key) : Recorded cfg (calls ++ [call]) call.key := by
  obtain ⟨hrange, hrefused⟩ := h.current rfl
  obtain ⟨hanswers, hafter⟩ := run_concat hinitial calls call
  rcases check_cases hinitial hrange call.now with
    ⟨s, hanswer, hrefused', -⟩ | ⟨hanswer, hrefused', -⟩
  · rw [hanswer] at hanswers
    refine .of_after hafter ?_ (check_inRange _ _) ?_
    · rw [hanswers]
      simpa [or_imp, forall_and] using h.silent
    · rw [hanswers, refused_concat_true]
      exact hrefused'.symm
  · rw [hanswer] at hanswers
    refine .of_after hafter ?_ (check_inRange _ _) ?_
    · rw [hanswers]
      simpa [or_imp, forall_and] using h.silent
    · rw [hanswers, refused_concat_false, hrefused', Nat.cast_succ, hrefused]

theorem after_concat_other (hinitial : 0 < cfg.initial) {call : Call} (hkey : call.key ≠ key) :
    after cfg (calls ++ [call]) key = after cfg calls key := by
  rw [after_concat]
  exact step_other hinitial _ hkey

theorem recorded_run (hinitial : 0 < cfg.initial) (calls : List Call) (key : String) :
    Recorded cfg calls key := by
  induction calls using List.reverseRecOn with
  | nil => exact ⟨by simp [answers], fun _ => rfl, by simp [after, Sampler.new]⟩
  | append_singleton calls call ih =>
    by_cases hkey : call.key = key
    · subst hkey
      exact ih.concat_self hinitial
    · have hanswers := @answers_concat_other cfg calls key call hkey
      have hafter := @after_concat_other cfg calls key hinitial call hkey
      refine ⟨?_, ?_, ?_⟩
      · rw [hanswers]
        exact ih.silent
      · rw [hanswers, hafter]
        exact ih.first
      · rw [hanswers, hafter]
        exact ih.entry

def NeverHides (cfg : SamplerConfig) (calls : List Call) (key : String) : Prop :=
  ∀ pre call, pre ++ [call] <+: calls → call.key = key → StartsClean cfg (after cfg pre) call

theorem neverHides_concat {call : Call} : NeverHides cfg (calls ++ [call]) key ↔
    NeverHides cfg calls key ∧ (call.key = key → StartsClean cfg (after cfg calls) call) := by
  simp only [NeverHides, List.prefix_concat_iff]
  constructor
  · exact fun h => ⟨fun pre c hpre => h pre c (Or.inr hpre), h calls call (Or.inl rfl)⟩
  · rintro ⟨h, hlast⟩ pre c (heq | hpre)
    · obtain ⟨rfl, hcall⟩ := List.append_inj' heq rfl
      obtain rfl : c = call := by simpa using hcall
      exact hlast
    · exact h pre c hpre

theorem startsClean_iff (call : Call) : StartsClean cfg (after cfg calls) call ↔
    ((current (after cfg calls) call).StartsAnew cfg call.now →
      (current (after cfg calls) call).refused cfg = 0) := by
  unfold StartsClean LogSampler.current
  cases after cfg calls call.key with
  | none => simp [refused_of_count_le]
  | some entry => simp

theorem reportsExactly_iff (hinitial : 0 < cfg.initial) (calls : List Call) (key : String) :
    ReportsExactly (answers cfg calls key) ↔ NeverHides cfg calls key := by
  induction calls using List.reverseRecOn with
  | nil =>
    refine iff_of_true (fun pre s hpre => ?_) fun pre call hpre => ?_
    · simp [answers] at hpre
    · simp at hpre
  | append_singleton calls call ih =>
    rw [neverHides_concat]
    by_cases hkey : call.key = key
    · subst hkey
      obtain ⟨hrange, hrefused⟩ := (recorded_run hinitial calls call.key).current rfl
      obtain ⟨hanswers, -⟩ := run_concat hinitial calls call
      rw [hanswers, startsClean_iff, ← ih]
      rcases check_cases hinitial hrange call.now with
        ⟨s, hanswer, -, hexact⟩ | ⟨hanswer, -, hanew⟩
      · rw [hanswer, reportsExactly_concat_true, hrefused, hexact]
        simp
      · rw [hanswer, reportsExactly_concat_false]
        simp [hanew]
    · rw [answers_concat_other hkey, ih]
      simp [hkey]

/-- Every allowed call of a key reports the calls refused since the one before, so that all
calls up to it are allowed or reported, if and only if none starts anew after a refused one. -/
theorem reports_drops_iff (hinitial : 0 < cfg.initial) (calls : List Call) (key : String) :
    (ReportsExactly (answers cfg calls key) ∧ ReportsAll (answers cfg calls key)) ↔
      NeverHides cfg calls key := by
  rw [← reportsExactly_iff hinitial]
  refine and_iff_left_of_imp fun hexact => ?_
  exact hexact.reportsAll (recorded_run hinitial calls key).silent

def onePerSecond : SamplerConfig := ⟨1, 0, 1000000000⟩

/-- The last call of a window is refused, and the first of the next reports nothing. -/
def overTheBoundary : List Call :=
  [⟨"retry", 0⟩, ⟨"retry", 1⟩, ⟨"retry", 1000000000⟩]

def everyThird : SamplerConfig := ⟨1, 3, 1000000000⟩

def burst : List Call := [⟨"retry", 0⟩, ⟨"retry", 1⟩, ⟨"retry", 2⟩, ⟨"retry", 3⟩]

theorem reports_drops_iff_burst :
    answers everyThird burst "retry" = [(true, 0), (false, 0), (false, 0), (true, 2)] ∧
      ReportsExactly (answers everyThird burst "retry") ∧
      ReportsAll (answers everyThird burst "retry") := by
  have hnone : NeverHides everyThird [] "retry" := by
    intro pre call hpre
    simp at hpre
  have hnever : NeverHides everyThird burst "retry" :=
    neverHides_concat.mpr ⟨neverHides_concat.mpr ⟨neverHides_concat.mpr
      ⟨neverHides_concat.mpr ⟨hnone, fun _ => by decide⟩, fun _ => by decide⟩,
      fun _ => by decide⟩, fun _ => by decide⟩
  exact ⟨by decide, (reports_drops_iff (by decide) burst "retry").mpr hnever⟩

theorem boundary_hides_drop : ¬ ReportsExactly (answers onePerSecond overTheBoundary "retry") := by
  intro h
  have hline : [(true, 0), (false, 0)] ++ [(true, 0)] <+:
      answers onePerSecond overTheBoundary "retry" := by decide
  exact absurd (h _ _ hline) (by decide)

end PaycloudHelper.LogSampler
