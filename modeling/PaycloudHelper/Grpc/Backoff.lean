import Mathlib
import PaycloudHelper.Library.Words
import PaycloudHelper.Grpc.Connect

/-!
# Waiting between attempts

The loop of `prewarm` and `initial_lookup` with the pauses in it. Durations are in nanoseconds.
-/

namespace PaycloudHelper.Discovery

open Words (durationMax u32Max)

def backoffCurve (initial maxBackoff attempt : ℕ) : ℕ :=
  min (min (initial * min (attempt * attempt) u32Max) durationMax) maxBackoff

def DialConfig.backoffFor (config : DialConfig) (attempt : ℕ) : ℕ :=
  backoffCurve config.initialBackoff config.maxBackoff attempt

/-- With the time slept. -/
def timedAttempts {α : Type} (exhausted : String) (run : ℕ → Except Error α) (pause : ℕ → ℕ)
    (total : ℕ) : (left attempt : ℕ) → (last : Error) → Except Error α × ℕ
  | 0, _, last => (.error (exhausted :: last), 0)
  | left + 1, attempt, _ =>
    match run attempt with
    | .ok a => (.ok a, 0)
    | .error err =>
      let rest := timedAttempts exhausted run pause total left (attempt + 1) err
      (rest.1, (if attempt < total then pause attempt else 0) + rest.2)

/-- How many of the next attempts fail before one succeeds. -/
def failures {α : Type} (run : ℕ → Except Error α) : (left attempt : ℕ) → ℕ
  | 0, _ => 0
  | left + 1, attempt =>
    match run attempt with
    | .ok _ => 0
    | .error _ => failures run left (attempt + 1) + 1

def DialConfig.timedPrewarm (config : DialConfig) (connect : ℕ → Except String Unit) :
    Except Error Unit × ℕ :=
  let attempts := max config.maxRetries 1
  timedAttempts "gRPC prewarm exhausted retries" (fun attempt => (connect attempt).mapError ([·]))
    config.backoffFor attempts attempts 1 ["prewarm failed"]

def DialConfig.timedInitialLookup {A : Type} [DecidableEq A] (config : DialConfig)
    (lookup : ℕ → Except String (Finset A)) (host : String) : Except Error (Finset A) × ℕ :=
  let attempts := max config.maxRetries 1
  timedAttempts "gRPC discovery: initial resolution exhausted retries"
    (fun attempt =>
      match lookup attempt with
      | .ok addrs => if addrs ≠ ∅ then .ok addrs else .error [s!"`{host}` resolved to no addresses"]
      | .error err => .error [s!"resolve `{host}`", err])
    config.backoffFor attempts attempts 1 [s!"no addresses for `{host}`"]

/-! ## What is slept -/

section
variable {α : Type} {exhausted : String} {run : ℕ → Except Error α} {pause : ℕ → ℕ}

theorem timedAttempts_fst (total left attempt : ℕ) (last : Error) :
    (timedAttempts exhausted run pause total left attempt last).1 =
      attempts exhausted run left attempt last := by
  induction left generalizing attempt last with
  | zero => rfl
  | succ left ih =>
    unfold timedAttempts attempts
    cases run attempt with
    | ok a => rfl
    | error err => exact ih (attempt + 1) err

theorem attempts_isOk (left attempt : ℕ) (last : Error) :
    (attempts exhausted run left attempt last).isOk ↔ failures run left attempt < left := by
  induction left generalizing attempt last with
  | zero => simp [attempts, failures, Except.isOk, Except.toBool]
  | succ left ih =>
    unfold attempts failures
    cases run attempt with
    | ok a => simp [Except.isOk, Except.toBool]
    | error err => simpa using ih (attempt + 1) err

theorem timedAttempts_snd {total left attempt : ℕ} (h : attempt + left = total + 1) (last : Error) :
    (timedAttempts exhausted run pause total left attempt last).2 =
      ∑ j ∈ Finset.range (min (failures run left attempt) (left - 1)), pause (attempt + j) := by
  induction left generalizing attempt last with
  | zero => simp [timedAttempts]
  | succ left ih =>
    unfold timedAttempts failures
    cases run attempt with
    | ok a => simp
    | error err =>
      dsimp only
      rw [ih (by omega)]
      cases left with
      | zero =>
        have hlast : ¬ attempt < total := by omega
        simp [hlast]
      | succ left =>
        have hmore : attempt < total := by omega
        have hcount : min (failures run (left + 1) (attempt + 1) + 1) (left + 1 + 1 - 1) =
            min (failures run (left + 1) (attempt + 1)) (left + 1 - 1) + 1 := by omega
        rw [if_pos hmore, hcount, Finset.sum_range_succ', Nat.add_zero, Nat.add_comm (pause attempt)]
        congr 1
        refine Finset.sum_congr rfl fun j _ => congrArg pause ?_
        omega

end

theorem timedPrewarm_fst (config : DialConfig) (connect : ℕ → Except String Unit) :
    (config.timedPrewarm connect).1 = config.prewarm connect :=
  timedAttempts_fst _ _ _ _

theorem timedInitialLookup_fst {A : Type} [DecidableEq A] (config : DialConfig)
    (lookup : ℕ → Except String (Finset A)) (host : String) :
    (config.timedInitialLookup lookup host).1 = config.initialLookup lookup host :=
  timedAttempts_fst _ _ _ _

theorem backoffCurve_mono (initial maxBackoff : ℕ) : Monotone (backoffCurve initial maxBackoff) := by
  intro m n h
  unfold backoffCurve
  gcongr

theorem backoffCurve_le (initial maxBackoff attempt : ℕ) :
    backoffCurve initial maxBackoff attempt ≤ maxBackoff := min_le_right _ _

theorem backoffCurve_eq {initial maxBackoff : ℕ} (hlongest : maxBackoff ≤ durationMax)
    (attempt : ℕ) : backoffCurve initial maxBackoff attempt =
      min (initial * min (attempt ^ 2) u32Max) maxBackoff := by
  rw [backoffCurve, min_assoc, min_eq_right hlongest, sq]

/-- The pauses change no result. They are the first of the curve, one for each failure but that
of the last attempt, and grow with the square of the attempt up to the ceiling. The square is
one of 32 bits, which sticks at the largest of them. -/
theorem waits_on_curve (α : Type) (config : DialConfig) (exhausted : String)
    (run : ℕ → Except Error α) (last : Error) (hlongest : config.maxBackoff ≤ durationMax) :
    let n := max config.maxRetries 1
    let curve := config.backoffFor
    let timed := timedAttempts exhausted run curve n n 1 last
    let failed := failures run n 1
    timed.1 = attempts exhausted run n 1 last ∧ (timed.1.isOk ↔ failed < n) ∧
      timed.2 = ∑ j ∈ Finset.range (min failed (n - 1)), curve (j + 1) ∧
      timed.2 ≤ (n - 1) * config.maxBackoff ∧ Monotone curve ∧
      ∀ j, curve j = min (config.initialBackoff * min (j ^ 2) u32Max) config.maxBackoff := by
  intro n curve timed failed
  have hfst : timed.1 = attempts exhausted run n 1 last := timedAttempts_fst n n 1 last
  have hsum : timed.2 = ∑ j ∈ Finset.range (min failed (n - 1)), curve (j + 1) := by
    refine (timedAttempts_snd (Nat.add_comm 1 n) last).trans ?_
    exact Finset.sum_congr rfl fun j _ => congrArg curve (Nat.add_comm 1 j)
  have hbound : timed.2 ≤ (n - 1) * config.maxBackoff := by
    calc timed.2 = ∑ j ∈ Finset.range (min failed (n - 1)), curve (j + 1) := hsum
      _ ≤ ∑ _j ∈ Finset.range (min failed (n - 1)), config.maxBackoff :=
          Finset.sum_le_sum fun j _ => backoffCurve_le _ _ (j + 1)
      _ = min failed (n - 1) * config.maxBackoff := by
          rw [Finset.sum_const, Finset.card_range, smul_eq_mul]
      _ ≤ (n - 1) * config.maxBackoff := Nat.mul_le_mul_right _ (min_le_right _ _)
  refine ⟨hfst, ?_, hsum, hbound, backoffCurve_mono _ _, backoffCurve_eq hlongest⟩
  rw [hfst]
  exact attempts_isOk n 1 last

theorem waits_on_curve_three :
    (timedAttempts "exhausted" (fun _ => (.error ["refused"] : Except Error Unit))
      DialConfig.defaults.backoffFor 3 3 1 []).2 = 500000000 := by
  have hsum := (waits_on_curve Unit .defaults "exhausted" (fun _ => .error ["refused"]) []
    (by decide)).2.2.1
  refine hsum.trans ?_
  decide

end PaycloudHelper.Discovery
