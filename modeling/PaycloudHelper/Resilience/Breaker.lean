import Mathlib
import PaycloudHelper.Library.Transcripts
import PaycloudHelper.Library.Words

/-!
# The consecutive-failure circuit breaker

`Inner` is the content of the mutex; every method takes the lock once, so a method
is one step. `Instant`s and `Duration`s are nanoseconds, and a method that reads
the clock takes its readings as arguments: `try_acquire` reads it once for the elapsed
time and once more to date the probe it admits. `elapsed` saturates at zero, as
subtraction on `ℕ` does. The counter is a `u32` and wraps, as in a release build.
-/

namespace PaycloudHelper.Breaker

open Transcripts Words

inductive State
  | closed
  | open
  | halfOpen
deriving DecidableEq, Repr

structure Inner where
  state : State
  consecutiveFailures : ℕ
  openedAt : Option ℕ
  probeStartedAt : Option ℕ
deriving DecidableEq, Repr

structure CircuitBreaker where
  threshold : ℕ
  cooldown : ℕ
  one_le_threshold : 1 ≤ threshold
  threshold_lt : threshold < 2 ^ 32

theorem CircuitBreaker.threshold_pos (cb : CircuitBreaker) : 0 < cb.threshold :=
  cb.one_le_threshold

def defaultThreshold : UInt32 := 10

def defaultCooldown : ℕ := 30 * 10 ^ 9

def CircuitBreaker.new (threshold : UInt32) (cooldown : ℕ) : CircuitBreaker where
  threshold := max threshold.toNat 1
  cooldown := cooldown
  one_le_threshold := le_max_right _ _
  threshold_lt := max_lt threshold.toNat_lt (by decide)

def Inner.new : Inner := ⟨.closed, 0, none, none⟩

def CircuitBreaker.default : CircuitBreaker := .new defaultThreshold defaultCooldown

variable (cb : CircuitBreaker)

def tryAcquire (g : Inner) (now started : ℕ) : Bool × Inner :=
  match g.state with
  | .closed => (true, g)
  | .open =>
    if g.openedAt.all (fun t => cb.cooldown ≤ now - t) then
      (true, { g with state := .halfOpen, probeStartedAt := some started })
    else
      (false, g)
  | .halfOpen =>
    if g.probeStartedAt.all (fun t => cb.cooldown ≤ now - t) then
      (true, { g with probeStartedAt := some started })
    else
      (false, g)

def recordSuccess (_ : Inner) : Inner :=
  { state := .closed, consecutiveFailures := 0, openedAt := none, probeStartedAt := none }

def recordFailure (g : Inner) (now : ℕ) : Inner :=
  let failures := wrap 32 (g.consecutiveFailures + 1)
  if g.state = .halfOpen ∨ cb.threshold ≤ failures then
    { state := .open, consecutiveFailures := failures, openedAt := some now,
      probeStartedAt := none }
  else
    { g with consecutiveFailures := failures }

def recordCancel (g : Inner) : Inner := g

inductive Op
  | tryAcquire (now started : ℕ)
  | recordSuccess
  | recordFailure (now : ℕ)
  | recordCancel
deriving DecidableEq, Repr

def Op.reads : Op → List ℕ
  | .tryAcquire now started => [now, started]
  | .recordFailure now => [now]
  | .recordSuccess | .recordCancel => []

@[simp] theorem Op.reads_tryAcquire (now started : ℕ) :
    (Op.tryAcquire now started).reads = [now, started] := rfl

@[simp] theorem Op.reads_recordFailure (now : ℕ) : (Op.recordFailure now).reads = [now] := rfl

def step (g : Inner) : Op → Option Bool × Inner
  | .tryAcquire now started =>
    let (admitted, g) := tryAcquire cb g now started
    (some admitted, g)
  | .recordSuccess => (none, recordSuccess g)
  | .recordFailure now => (none, recordFailure cb g now)
  | .recordCancel => (none, recordCancel g)

/-! ## `call`

`call` suspends once, between its `try_acquire` and the report of its outcome, so
two of its steps show: `ask` and `settle`. A dropped call never settles. -/

inductive Outcome
  | ok
  | cancelled
  | failed
deriving DecidableEq, Repr

inductive CallEvent
  | ask (call now started : ℕ)
  | settle (call : ℕ) (outcome : Outcome) (now : ℕ)
deriving DecidableEq, Repr

def CallEvent.call : CallEvent → ℕ
  | .ask call _ _ | .settle call _ _ => call

def CallEvent.op : CallEvent → Op
  | .ask _ now started => .tryAcquire now started
  | .settle _ .ok _ => .recordSuccess
  | .settle _ .cancelled _ => .recordCancel
  | .settle _ .failed now => .recordFailure now

def CallEvent.reads (e : CallEvent) : List ℕ := e.op.reads

@[simp] theorem CallEvent.call_ask (call now started : ℕ) :
    (CallEvent.ask call now started).call = call := rfl

@[simp] theorem CallEvent.call_settle (call : ℕ) (outcome : Outcome) (now : ℕ) :
    (CallEvent.settle call outcome now).call = call := rfl

@[simp] theorem CallEvent.reads_ask (call now started : ℕ) :
    (CallEvent.ask call now started).reads = [now, started] := rfl

@[simp] theorem CallEvent.reads_failed (call now : ℕ) :
    (CallEvent.settle call .failed now).reads = [now] := rfl

def callStep (g : Inner) (e : CallEvent) : Option Bool × Inner := step cb g e.op

structure Calls where
  started : List ℕ
  inFlight : List ℕ

/-- Every call asks once, and settles at most once and only when it was admitted. -/
def WellFormed : Inner → Calls → List CallEvent → Prop
  | _, _, [] => True
  | g, c, .ask call now started :: es =>
    call ∉ c.started ∧
      WellFormed (tryAcquire cb g now started).2
        ⟨call :: c.started,
          if (tryAcquire cb g now started).1 then call :: c.inFlight else c.inFlight⟩ es
  | g, c, .settle call outcome now :: es =>
    call ∈ c.inFlight ∧
      WellFormed (callStep cb g (.settle call outcome now)).2
        ⟨c.started, c.inFlight.filter (· ≠ call)⟩ es

def CallRun (es : List CallEvent) : Prop := WellFormed cb Inner.new ⟨[], []⟩ es

instance WellFormed.decidable : ∀ (g : Inner) (c : Calls) (es : List CallEvent),
    Decidable (WellFormed cb g c es)
  | _, _, [] => isTrue trivial
  | _, _, .ask _ _ _ :: es => @instDecidableAnd _ _ _ (WellFormed.decidable _ _ es)
  | _, _, .settle _ _ _ :: es => @instDecidableAnd _ _ _ (WellFormed.decidable _ _ es)

instance (es : List CallEvent) : Decidable (CallRun cb es) := WellFormed.decidable cb _ _ es

/-! ## What each step does -/

/-- The breaker refuses: the cooldown of the trip or of the probe is not over. -/
def Waits (g : Inner) (now : ℕ) : Prop :=
  (g.state = .open ∧ ∃ t, g.openedAt = some t ∧ now - t < cb.cooldown) ∨
    (g.state = .halfOpen ∧ ∃ t, g.probeStartedAt = some t ∧ now - t < cb.cooldown)

def admitted (g : Inner) (started : ℕ) : Inner :=
  if g.state = .closed then g else { g with state := .halfOpen, probeStartedAt := some started }

variable {cb}

theorem tryAcquire_of_waits {g : Inner} {now started : ℕ} (h : Waits cb g now) :
    tryAcquire cb g now started = (false, g) := by
  rcases h with ⟨hs, t, ht, hlt⟩ | ⟨hs, t, ht, hlt⟩ <;>
    simp [tryAcquire, hs, ht, hlt]

theorem tryAcquire_of_not_waits {g : Inner} {now started : ℕ} (h : ¬ Waits cb g now) :
    tryAcquire cb g now started = (true, admitted g started) := by
  cases hs : g.state with
  | closed => simp [tryAcquire, admitted, hs]
  | «open» =>
    have hall : g.openedAt.all (fun t => cb.cooldown ≤ now - t) = true := by
      cases ht : g.openedAt with
      | none => rfl
      | some t => simpa [Waits, hs, ht] using h
    simp [tryAcquire, admitted, hs, hall]
  | halfOpen =>
    have hall : g.probeStartedAt.all (fun t => cb.cooldown ≤ now - t) = true := by
      cases ht : g.probeStartedAt with
      | none => rfl
      | some t => simpa [Waits, hs, ht] using h
    simp [tryAcquire, admitted, hs, hall]

theorem tryAcquire_iff {g : Inner} {now started : ℕ} :
    (tryAcquire cb g now started).1 = true ↔ ¬ Waits cb g now := by
  by_cases h : Waits cb g now
  · simp [tryAcquire_of_waits h, h]
  · simp [tryAcquire_of_not_waits h, h]

theorem waits_open {g : Inner} {now t : ℕ} (hs : g.state = .open) (ht : g.openedAt = some t) :
    Waits cb g now ↔ now - t < cb.cooldown := by
  simp [Waits, hs, ht]

theorem waits_halfOpen {g : Inner} {now t : ℕ} (hs : g.state = .halfOpen)
    (ht : g.probeStartedAt = some t) : Waits cb g now ↔ now - t < cb.cooldown := by
  simp [Waits, hs, ht]

theorem not_waits_closed {g : Inner} {now : ℕ} (hs : g.state = .closed) : ¬ Waits cb g now := by
  simp [Waits, hs]

@[simp] theorem admitted_failures (g : Inner) (started : ℕ) :
    (admitted g started).consecutiveFailures = g.consecutiveFailures := by
  unfold admitted; split <;> rfl

theorem admitted_closed {g : Inner} (hs : g.state = .closed) (started : ℕ) :
    admitted g started = g := if_pos hs

theorem admitted_state {g : Inner} (hs : g.state ≠ .closed) (started : ℕ) :
    (admitted g started).state = .halfOpen := by
  simp [admitted, hs]

theorem admitted_probe {g : Inner} (hs : g.state ≠ .closed) (started : ℕ) :
    (admitted g started).probeStartedAt = some started := by
  simp [admitted, hs]

theorem recordFailure_trips {g : Inner} {now : ℕ}
    (h : g.state = .halfOpen ∨ cb.threshold ≤ wrap 32 (g.consecutiveFailures + 1)) :
    recordFailure cb g now =
      ⟨.open, wrap 32 (g.consecutiveFailures + 1), some now, none⟩ := if_pos h

theorem recordFailure_counts {g : Inner} {now : ℕ}
    (h : ¬ (g.state = .halfOpen ∨ cb.threshold ≤ wrap 32 (g.consecutiveFailures + 1))) :
    recordFailure cb g now =
      { g with consecutiveFailures := wrap 32 (g.consecutiveFailures + 1) } := if_neg h

theorem recordFailure_failures (g : Inner) (now : ℕ) :
    (recordFailure cb g now).consecutiveFailures = wrap 32 (g.consecutiveFailures + 1) := by
  unfold recordFailure; dsimp only; split <;> rfl

@[simp] theorem step_tryAcquire (g : Inner) (now started : ℕ) :
    step cb g (.tryAcquire now started) =
      (some (tryAcquire cb g now started).1, (tryAcquire cb g now started).2) := rfl

@[simp] theorem step_recordSuccess (g : Inner) :
    step cb g .recordSuccess = (none, Inner.new) := rfl

@[simp] theorem step_recordFailure (g : Inner) (now : ℕ) :
    step cb g (.recordFailure now) = (none, recordFailure cb g now) := rfl

@[simp] theorem step_recordCancel (g : Inner) : step cb g .recordCancel = (none, g) := rfl

end PaycloudHelper.Breaker
