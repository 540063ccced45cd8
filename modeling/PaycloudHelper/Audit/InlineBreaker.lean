import Mathlib
import PaycloudHelper.Resilience.BreakerHistory

/-!
# The inline breaker of the audit workers

`AuditPublisher` keeps its breaker in two atomics: a failure counter that the end of a
cooldown does not reset, and the time in milliseconds until which messages are
discarded. On histories of calls that do not overlap it is the same breaker as
`CircuitBreaker`: the stale counter is what makes a failed probe trip it again.
-/

namespace PaycloudHelper.Audit

open Transcripts Words Breaker

structure InlineBreaker where
  failures : ℕ
  openUntilMs : ℕ
deriving DecidableEq, Repr

def InlineBreaker.new : InlineBreaker := ⟨0, 0⟩

def cooldownMillis (cooldown : ℕ) : ℕ := saturate 64 (cooldown / 10 ^ 6)

def InlineBreaker.circuitOpen (b : InlineBreaker) (now : ℕ) : Bool := now < b.openUntilMs

def InlineBreaker.publishOk (b : InlineBreaker) : InlineBreaker := { b with failures := 0 }

def InlineBreaker.recordFailure (b : InlineBreaker) (threshold cooldown now : ℕ) :
    InlineBreaker :=
  let count := wrap 64 (b.failures + 1)
  if threshold ≤ count then
    ⟨count, saturate 64 (now + cooldownMillis cooldown)⟩
  else
    { b with failures := count }

/-- A call that ends before the next one starts, on a clock of milliseconds: when it
asks, when its probe is dated, whether it succeeds and when it reports. -/
structure SequentialCall where
  askedAt : ℕ
  startedAt : ℕ
  ok : Bool
  reportedAt : ℕ
deriving DecidableEq, Repr

def SequentialCall.reads (c : SequentialCall) : List ℕ := [c.askedAt, c.startedAt, c.reportedAt]

def nanos (ms : ℕ) : ℕ := ms * 10 ^ 6

def breakerCall (cb : CircuitBreaker) (g : Inner) (c : SequentialCall) : (Bool × ℕ) × Inner :=
  let (admitted, g) := tryAcquire cb g (nanos c.askedAt) (nanos c.startedAt)
  let g :=
    if admitted then
      if c.ok then recordSuccess g else recordFailure cb g (nanos c.reportedAt)
    else g
  ((admitted, g.consecutiveFailures), g)

/-- The same call through a worker; a client that is not ready is a failure too. -/
def workerCall (threshold cooldown : ℕ) (b : InlineBreaker) (c : SequentialCall) :
    (Bool × ℕ) × InlineBreaker :=
  let threshold := max threshold 1
  if b.circuitOpen c.askedAt then
    ((false, b.failures), b)
  else
    let b := if c.ok then b.publishOk else b.recordFailure threshold cooldown c.reportedAt
    ((true, b.failures), b)

def recordedFailures (cb : CircuitBreaker) (g : Inner) (calls : List SequentialCall) : ℕ :=
  (transcript (breakerCall cb) g calls).countP fun p => p.2.1 && !p.1.ok

variable {cb : CircuitBreaker}

theorem breakerCall_refused {g : Inner} {c : SequentialCall} (hw : Waits cb g (nanos c.askedAt)) :
    breakerCall cb g c = ((false, g.consecutiveFailures), g) := by
  simp [breakerCall, tryAcquire_of_waits hw]

theorem breakerCall_ok {g : Inner} {c : SequentialCall} (hw : ¬ Waits cb g (nanos c.askedAt))
    (hok : c.ok = true) : breakerCall cb g c = ((true, 0), Inner.new) := by
  simp [breakerCall, tryAcquire_of_not_waits hw, hok, recordSuccess, Inner.new]

theorem breakerCall_failed {g : Inner} {c : SequentialCall} (hw : ¬ Waits cb g (nanos c.askedAt))
    (hok : c.ok = false) :
    breakerCall cb g c = ((true, wrap 32 (g.consecutiveFailures + 1)),
      recordFailure cb (admitted g (nanos c.startedAt)) (nanos c.reportedAt)) := by
  simp [breakerCall, tryAcquire_of_not_waits hw, hok, recordFailure_failures]

theorem recordFailure_open {b : InlineBreaker} {threshold cooldown now : ℕ}
    (h : threshold ≤ wrap 64 (b.failures + 1)) :
    b.recordFailure threshold (nanos cooldown) now =
      ⟨wrap 64 (b.failures + 1), saturate 64 (now + saturate 64 cooldown)⟩ := by
  have hms : cooldownMillis (nanos cooldown) = saturate 64 cooldown := by
    rw [cooldownMillis, nanos, Nat.mul_div_cancel _ (by decide)]
  simp only [InlineBreaker.recordFailure, if_pos h, hms]

structure Agree (cb : CircuitBreaker) (cooldown now : ℕ) (g : Inner) (b : InlineBreaker) : Prop where
  failures : b.failures = g.consecutiveFailures
  state : (g.state = .closed ∧ g.consecutiveFailures < cb.threshold ∧ b.openUntilMs ≤ now) ∨
    (g.state = .open ∧ cb.threshold ≤ g.consecutiveFailures ∧
      ∃ t ≤ now, g.openedAt = some (nanos t) ∧ b.openUntilMs = t + cooldown)

theorem Agree.mono {cooldown now u : ℕ} {g : Inner} {b : InlineBreaker}
    (h : Agree cb cooldown now g b) (hle : now ≤ u) : Agree cb cooldown u g b := by
  refine ⟨h.failures, h.state.imp ?_ ?_⟩
  · exact fun ⟨hs, hlt, hopen⟩ => ⟨hs, hlt, hopen.trans hle⟩
  · exact fun ⟨hs, hge, t, ht, hopen⟩ => ⟨hs, hge, t, ht.trans hle, hopen⟩

theorem Agree.waits_iff {cooldown now : ℕ} {g : Inner} {b : InlineBreaker}
    (h : Agree cb cooldown now g b) (hcool : cb.cooldown = nanos cooldown) :
    Waits cb g (nanos now) ↔ now < b.openUntilMs := by
  rcases h.state with ⟨hs, -, hopen⟩ | ⟨hs, -, t, ht, hsome, hopen⟩
  · exact iff_of_false (not_waits_closed hs) (by omega)
  · rw [waits_open hs hsome, hcool, hopen]
    simp only [nanos]
    omega

theorem Agree.publishOk {cooldown now u : ℕ} {b : InlineBreaker}
    (h : b.openUntilMs ≤ now) (hle : now ≤ u) : Agree cb cooldown u Inner.new b.publishOk :=
  ⟨rfl, Or.inl ⟨rfl, cb.threshold_pos, h.trans hle⟩⟩

theorem Agree.recordFailure {cooldown now started u : ℕ} {g : Inner} {b : InlineBreaker}
    (h : Agree cb cooldown now g b) (hopen : b.openUntilMs ≤ now) (hle : now ≤ u)
    (hfit : u + cooldown < 2 ^ 64) (hcount : g.consecutiveFailures + 1 < 2 ^ 32) :
    Agree cb cooldown u
      (Breaker.recordFailure cb (admitted g started) (nanos u))
      (b.recordFailure cb.threshold (nanos cooldown) u) := by
  have hmod : wrap 32 ((admitted g started).consecutiveFailures + 1) =
      g.consecutiveFailures + 1 := by
    rw [admitted_failures, wrap_of_lt hcount]
  have hmod' : wrap 64 (b.failures + 1) = g.consecutiveFailures + 1 := by
    rw [h.failures, wrap_of_lt (by omega)]
  by_cases hthr : cb.threshold ≤ g.consecutiveFailures + 1
  · rw [recordFailure_trips (Or.inr (hmod ▸ hthr)), recordFailure_open (hmod' ▸ hthr), hmod, hmod']
    have huntil : saturate 64 (u + saturate 64 cooldown) = u + cooldown := by
      rw [saturate_of_lt (w := 64) (n := cooldown) (by omega), saturate_of_lt hfit]
    exact ⟨rfl, Or.inr ⟨rfl, hthr, u, le_rfl, rfl, huntil⟩⟩
  · -- below the threshold the breaker is closed, and stays so
    have hs : g.state = .closed := by
      rcases h.state with ⟨hs, -, -⟩ | ⟨-, hge, -⟩
      · exact hs
      · omega
    rw [admitted_closed hs] at hmod ⊢
    rw [recordFailure_counts (by simp only [hs, hmod]; simpa using hthr), hmod]
    have hb : b.recordFailure cb.threshold (nanos cooldown) u =
        { b with failures := g.consecutiveFailures + 1 } := by
      simp only [InlineBreaker.recordFailure, hmod', if_neg hthr]
    rw [hb]
    exact ⟨rfl, Or.inl ⟨hs, by simpa using hthr, hopen.trans hle⟩⟩

theorem Agree.call {threshold cooldown now : ℕ} {g : Inner} {b : InlineBreaker}
    {c : SequentialCall} (h : Agree cb cooldown now g b) (hcool : cb.cooldown = nanos cooldown)
    (hthr : cb.threshold = max threshold 1) (hnow : now ≤ c.askedAt)
    (hle : c.askedAt ≤ c.reportedAt) (hfit : c.reportedAt + cooldown < 2 ^ 64)
    (hcount : ¬ Waits cb g (nanos c.askedAt) → c.ok = false →
      g.consecutiveFailures + 1 < 2 ^ 32) :
    (breakerCall cb g c).1 = (workerCall threshold (nanos cooldown) b c).1 ∧
      Agree cb cooldown c.reportedAt (breakerCall cb g c).2
        (workerCall threshold (nanos cooldown) b c).2 := by
  have hasked := h.mono hnow
  have hiff := hasked.waits_iff hcool
  by_cases hw : Waits cb g (nanos c.askedAt)
  · have hopen : b.circuitOpen c.askedAt = true := by
      simpa [InlineBreaker.circuitOpen] using hiff.mp hw
    simp only [breakerCall_refused hw, workerCall, hopen, if_true, h.failures]
    exact ⟨trivial, hasked.mono hle⟩
  · have hpast : b.openUntilMs ≤ c.askedAt := Nat.le_of_not_lt (mt hiff.mpr hw)
    have hopen : b.circuitOpen c.askedAt = false := by
      simpa [InlineBreaker.circuitOpen] using hpast
    cases hok : c.ok with
    | true =>
      simp only [breakerCall_ok hw hok, workerCall, hopen, hok, if_true, Bool.false_eq_true,
        if_false]
      exact ⟨rfl, Agree.publishOk hpast hle⟩
    | false =>
      have hagree : Agree cb cooldown c.reportedAt
          (Breaker.recordFailure cb (admitted g (nanos c.startedAt)) (nanos c.reportedAt))
          (b.recordFailure cb.threshold (nanos cooldown) c.reportedAt) :=
        hasked.recordFailure hpast hle hfit (hcount hw hok)
      simp only [breakerCall_failed hw hok, workerCall, hopen, hok, Bool.false_eq_true, if_false,
        ← hthr]
      refine ⟨?_, hagree⟩
      rw [hagree.failures, recordFailure_failures, admitted_failures]

theorem recordedFailures_cons (g : Inner) (c : SequentialCall) (calls : List SequentialCall) :
    recordedFailures cb g (c :: calls) = recordedFailures cb (breakerCall cb g c).2 calls +
      if (breakerCall cb g c).1.1 && !c.ok then 1 else 0 := by
  simp only [recordedFailures, transcript_cons, List.countP_cons]

theorem breakerCall_failures_le (cb : CircuitBreaker) (g : Inner) (c : SequentialCall) :
    (breakerCall cb g c).2.consecutiveFailures ≤
      g.consecutiveFailures + if (breakerCall cb g c).1.1 && !c.ok then 1 else 0 := by
  by_cases hw : Waits cb g (nanos c.askedAt)
  · simp [breakerCall_refused hw]
  · cases hok : c.ok with
    | true => simp [breakerCall_ok hw hok, Inner.new]
    | false =>
      simp only [breakerCall_failed hw hok, recordFailure_failures, admitted_failures]
      exact wrap_le _ _

def Lockstep (cb : CircuitBreaker) (cooldown : ℕ) (calls : List SequentialCall) (g : Inner)
    (b : InlineBreaker) : Prop :=
  ∃ now, Agree cb cooldown now g b ∧ Ascending SequentialCall.reads calls ∧
    (∀ c ∈ calls, now ≤ c.askedAt) ∧ (∀ c ∈ calls, c.reportedAt + cooldown < 2 ^ 64) ∧
    g.consecutiveFailures + recordedFailures cb g calls < 2 ^ 32

theorem Lockstep.call {threshold cooldown : ℕ} (hcool : cb.cooldown = nanos cooldown)
    (hthr : cb.threshold = max threshold 1) (c : SequentialCall) (calls : List SequentialCall)
    (g : Inner) (b : InlineBreaker) (h : Lockstep cb cooldown (c :: calls) g b) :
    (breakerCall cb g c).1 = (workerCall threshold (nanos cooldown) b c).1 ∧
      Lockstep cb cooldown calls (breakerCall cb g c).2
        (workerCall threshold (nanos cooldown) b c).2 := by
  obtain ⟨now, hagree, hclock, hnow, hfit, hcount⟩ := h
  obtain ⟨hreads, htail, hlater⟩ := ascending_cons.mp hclock
  have hle : c.askedAt ≤ c.reportedAt := by
    simp only [SequentialCall.reads, List.pairwise_cons] at hreads
    exact hreads.1 _ (by simp)
  rw [recordedFailures_cons] at hcount
  have hone : ¬ Waits cb g (nanos c.askedAt) → c.ok = false →
      g.consecutiveFailures + 1 < 2 ^ 32 := by
    intro hw hok
    rw [breakerCall_failed hw hok] at hcount
    simp only [hok, Bool.not_false, Bool.and_true, if_true] at hcount
    omega
  obtain ⟨hans, hnext⟩ := hagree.call hcool hthr (hnow c List.mem_cons_self) hle
    (hfit c List.mem_cons_self) hone
  have hasked : ∀ c' ∈ calls, c.reportedAt ≤ c'.askedAt := by
    intro c' hc'
    exact hlater _ (by simp [SequentialCall.reads]) c' hc' _ (by simp [SequentialCall.reads])
  have hgrow := breakerCall_failures_le cb g c
  exact ⟨hans, c.reportedAt, hnext, htail, hasked,
    fun c' hc' => hfit c' (List.mem_cons_of_mem c hc'), by omega⟩

/-- On a sequential history both breakers admit the same calls and hold the same count
after each of them. -/
theorem breakers_agree (threshold : UInt32) (cooldown : ℕ) (calls : List SequentialCall)
    (hclock : Ascending SequentialCall.reads calls)
    (hfit : ∀ c ∈ calls, c.reportedAt + cooldown < 2 ^ 64)
    (hcount : recordedFailures (.new threshold (nanos cooldown)) Inner.new calls < 2 ^ 32) :
    transcript (breakerCall (.new threshold (nanos cooldown))) Inner.new calls =
      transcript (workerCall threshold.toNat (nanos cooldown)) .new calls := by
  have hstart : Agree (.new threshold (nanos cooldown)) cooldown 0 Inner.new .new :=
    ⟨rfl, Or.inl ⟨rfl, CircuitBreaker.threshold_pos _, le_rfl⟩⟩
  apply transcript_simulation (R := Lockstep (.new threshold (nanos cooldown)) cooldown)
  · exact Lockstep.call rfl rfl
  · exact ⟨0, hstart, hclock, fun _ _ => Nat.zero_le _, hfit, by simpa [Inner.new] using hcount⟩

theorem breakers_agree_probes :
    transcript (breakerCall (.new 2 (nanos 10))) Inner.new
        [⟨0, 0, false, 1⟩, ⟨2, 2, false, 3⟩, ⟨12, 12, true, 12⟩, ⟨13, 13, false, 14⟩,
          ⟨23, 23, true, 23⟩, ⟨24, 25, true, 26⟩] =
      transcript (workerCall 2 (nanos 10)) .new
        [⟨0, 0, false, 1⟩, ⟨2, 2, false, 3⟩, ⟨12, 12, true, 12⟩, ⟨13, 13, false, 14⟩,
          ⟨23, 23, true, 23⟩, ⟨24, 25, true, 26⟩] :=
  breakers_agree 2 10 _ (by decide) (by decide) (by decide)

end PaycloudHelper.Audit
