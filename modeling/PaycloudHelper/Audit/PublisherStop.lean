import Mathlib
import PaycloudHelper.Audit.PublisherAccounting

/-!
# Stopping the publisher

Once `stop` has been called, every step brings its end nearer, and there is a step to take
until it returns, or a publish call to wait for: no worker waits for a lock that nobody
gives back.
-/

namespace PaycloudHelper.Audit

open Runs Slots

variable {P : Type} {cfg : AuditPublisherConfig P} {p p' : AuditPublisher P} {e : Event P}

/-! ## How far it is to the end -/

/-- The steps that a worker may still take on what it has; 8 more for each message taken. -/
def Phase.left : Phase P → ℕ
  | .exited => 0
  | .receiving => 1
  | .idle => 2
  | .acknowledged | .tripping => 3
  | .failing => 4
  | .publishing .. => 5
  | .ready _ => 6
  | .admitted _ => 7
  | .dequeued _ => 8

def StopPhase.left (workers : ℕ) : StopPhase → ℕ
  | .running => workers + 2
  | .flagged => workers + 1
  | .joining n => workers - n

def AuditPublisher.workLeft (p : AuditPublisher P) : ℕ :=
  8 * p.queue.length + (p.workers.map Phase.left).sum

def AuditPublisher.left (p : AuditPublisher P) : ℕ :=
  p.workLeft + p.stop.left p.workers.length

structure Moved (p p' : AuditPublisher P) (w : ℕ) (old new : Phase P) : Prop where
  worker : p.workers[w]? = some old
  workers : p'.workers = p.workers.set w new
  stop : p'.stop = p.stop
  submits : p'.submits = p.submits
  left : 8 * p'.queue.length + new.left < 8 * p.queue.length + old.left
  lock : (p'.lock = p.lock ∧ old ≠ .receiving) ∨ p'.lock = none ∨
    (p'.lock = some w ∧ new = .receiving)

theorem Moved.within {w : ℕ} {old new : Phase P} (hw : p.workers[w]? = some old)
    (hold : old ≠ .receiving) (hleft : new.left < old.left) (breaker : InlineBreaker)
    (log : List Entry) :
    Moved p { p with breaker := breaker, workers := p.workers.set w new, log := log }
      w old new where
  worker := hw
  workers := rfl
  stop := rfl
  submits := rfl
  left := Nat.add_lt_add_left hleft _
  lock := Or.inl ⟨rfl, hold⟩

theorem moved_of_workerStep (h : workerStep cfg p e = some p') :
    ∃ w old new, Moved p p' w old new := by
  unfold workerStep at h
  split at h
  · split at h
    · rename_i hw hlock
      obtain rfl := Option.some.inj h
      exact ⟨_, _, .receiving, hw, rfl, rfl, rfl, Nat.lt_succ_self _, Or.inr (Or.inr ⟨rfl, rfl⟩)⟩
    · cases h
  · split at h
    · rename_i m rest hw hqueue
      obtain rfl := Option.some.inj h
      refine ⟨_, _, .dequeued m, hw, rfl, rfl, rfl, ?_, Or.inr (Or.inl rfl)⟩
      rw [hqueue, List.length_cons]
      exact Nat.lt_succ_self _
    · rename_i hw hqueue
      split_ifs at h
      obtain rfl := Option.some.inj h
      exact ⟨_, _, .exited, hw, rfl, rfl, rfl, Nat.lt_succ_self _, Or.inr (Or.inl rfl)⟩
    · cases h
  · split at h
    · rename_i hw
      split_ifs at h <;> obtain rfl := Option.some.inj h
      · exact ⟨_, _, _, .within hw nofun (by simp [Phase.left]) _ _⟩
      · exact ⟨_, _, _, .within hw nofun (by simp [Phase.left]) _ _⟩
    · cases h
  · split at h
    · rename_i hw
      split_ifs at h <;> obtain rfl := Option.some.inj h
      · exact ⟨_, _, _, .within hw nofun (by simp [Phase.left]) _ _⟩
      · exact ⟨_, _, _, .within hw nofun (by simp [Phase.left]) _ _⟩
    · cases h
  · split at h
    · rename_i hw
      split at h <;> obtain rfl := Option.some.inj h
      · exact ⟨_, _, _, .within hw nofun (by simp [Phase.left]) _ _⟩
      · exact ⟨_, _, _, .within hw nofun (by simp [Phase.left]) _ _⟩
    · cases h
  · split at h
    · rename_i hw
      split_ifs at h <;> obtain rfl := Option.some.inj h
      · exact ⟨_, _, _, .within hw nofun (by simp [Phase.left]) _ _⟩
      · exact ⟨_, _, _, .within hw nofun (by simp [Phase.left]) _ _⟩
    · cases h
  · split at h
    · rename_i hw
      obtain rfl := Option.some.inj h
      exact ⟨_, _, _, .within hw nofun (by simp [Phase.left]) _ _⟩
    · cases h
  · split at h
    · rename_i hw
      obtain rfl := Option.some.inj h
      refine ⟨_, _, _, .within hw nofun ?_ _ _⟩
      split_ifs <;> simp [Phase.left]
    · cases h
  · split at h
    · rename_i hw
      obtain rfl := Option.some.inj h
      exact ⟨_, _, _, .within hw nofun (by simp [Phase.left]) _ _⟩
    · cases h
  · cases h

/-! ## What holds while it stops -/

def Locked (p : AuditPublisher P) : Prop := ∀ w, p.lock = some w → p.workers[w]? = some .receiving

structure Draining (p : AuditPublisher P) : Prop where
  stopping : Stopping p
  locked : Locked p
  started : p.stop ≠ .running

theorem Moved.locked {w : ℕ} {old new : Phase P} (h : Moved p p' w old new) (hp : Locked p) :
    Locked p' := by
  intro v hv
  have hlt : w < p.workers.length := (List.getElem?_eq_some_iff.mp h.worker).1
  rcases h.lock with ⟨hlock, hold⟩ | hlock | ⟨hlock, rfl⟩
  · have hreceiving : p.workers[v]? = some .receiving := hp v (hlock ▸ hv)
    have hne : w ≠ v := by
      rintro rfl
      exact hold (Option.some.inj (h.worker.symm.trans hreceiving))
    rw [h.workers, List.getElem?_set_ne hne, hreceiving]
  · rw [hlock] at hv
    cases hv
  · obtain rfl : w = v := Option.some.inj (hlock.symm.trans hv)
    rw [h.workers, List.getElem?_set_self hlt]

theorem Moved.left_lt {w : ℕ} {old new : Phase P} (h : Moved p p' w old new) :
    p'.left < p.left := by
  have hsum := @sum_map_set _ p.workers w old new Phase.left h.worker
  have hleft := h.left
  simp only [AuditPublisher.left, AuditPublisher.workLeft, h.workers, h.stop, List.length_set]
  omega

theorem under_of_submitStep (h : submitStep cfg p e = some p') :
    (p.stop = .running ∨ ∃ s ∈ p.submits, s.over = false) ∧ p'.lock = p.lock ∧
      p'.workers = p.workers := by
  unfold submitStep at h
  split at h
  · split_ifs at h with hstop
    obtain rfl := Option.some.inj h
    exact ⟨Or.inl hstop, rfl, rfl⟩
  · split at h
    · rename_i hi
      obtain rfl := Option.some.inj h
      exact ⟨Or.inr ⟨_, List.mem_of_getElem? hi, rfl⟩, rfl, rfl⟩
    · cases h
  · split at h
    · rename_i hi
      obtain rfl := Option.some.inj h
      exact ⟨Or.inr ⟨_, List.mem_of_getElem? hi, rfl⟩, rfl, rfl⟩
    · cases h
  · split at h
    · rename_i hi
      split_ifs at h <;> obtain rfl := Option.some.inj h
      · exact ⟨Or.inr ⟨_, List.mem_of_getElem? hi, rfl⟩, rfl, rfl⟩
      · exact ⟨Or.inr ⟨_, List.mem_of_getElem? hi, rfl⟩, rfl, rfl⟩
    · cases h
  · cases h

theorem stepped_of_stopStep (h : stopStep p e = some p') :
    p'.lock = p.lock ∧ p'.workers = p.workers ∧ p'.submits = p.submits ∧ p'.stop ≠ .running ∧
      p'.left < p.left := by
  unfold stopStep at h
  split at h
  · split_ifs at h with hstop
    obtain rfl := Option.some.inj h
    refine ⟨rfl, rfl, rfl, nofun, ?_⟩
    simp [AuditPublisher.left, AuditPublisher.workLeft, hstop.1, StopPhase.left]
  · split_ifs at h with hstop
    obtain rfl := Option.some.inj h
    refine ⟨rfl, rfl, rfl, nofun, ?_⟩
    simp [AuditPublisher.left, AuditPublisher.workLeft, hstop, StopPhase.left]
  · split at h
    · rename_i n hstop
      split at h
      · rename_i hn
        obtain rfl := Option.some.inj h
        have hlt : n < p.workers.length := (List.getElem?_eq_some_iff.mp hn).1
        refine ⟨rfl, rfl, rfl, nofun, ?_⟩
        simp only [AuditPublisher.left, AuditPublisher.workLeft, hstop, StopPhase.left]
        omega
      · cases h
    · cases h
    · cases h
  · cases h

theorem Locked.step (hp : Locked p) (h : step cfg p e = some p') : Locked p' := by
  rcases step_kinds h with h | h | h
  · obtain ⟨-, hlock, hworkers⟩ := under_of_submitStep h
    rwa [Locked, hlock, hworkers]
  · obtain ⟨hlock, hworkers, -⟩ := stepped_of_stopStep h
    rwa [Locked, hlock, hworkers]
  · obtain ⟨w, old, new, hmoved⟩ := moved_of_workerStep h
    exact hmoved.locked hp

theorem Draining.step (hp : Draining p) (h : Audit.step cfg p e = some p') :
    Draining p' ∧ p'.submits = p.submits ∧ p'.left < p.left := by
  have hstopping : Stopping p' := hp.stopping.effect (effect_of_step h)
  have hlocked : Locked p' := hp.locked.step h
  rcases step_kinds h with h | h | h
  · rcases (under_of_submitStep h).1 with hrunning | ⟨s, hs, hunder⟩
    · exact absurd hrunning hp.started
    · rw [hp.stopping.settled hp.started s hs] at hunder
      cases hunder
  · obtain ⟨-, -, hsubmits, hstop, hleft⟩ := stepped_of_stopStep h
    exact ⟨⟨hstopping, hlocked, hstop⟩, hsubmits, hleft⟩
  · obtain ⟨w, old, new, hmoved⟩ := moved_of_workerStep h
    exact ⟨⟨hstopping, hlocked, hmoved.stop ▸ hp.started⟩, hmoved.submits, hmoved.left_lt⟩

/-! ## There is a step to take, or a publish call to wait for -/

def Event.answersPublish : Event P → Bool
  | .publish .. => true
  | _ => false

/-- Nothing can happen but that a publish call returns. -/
def Halted (cfg : AuditPublisherConfig P) (p : AuditPublisher P) : Prop :=
  ∀ e : Event P, e.answersPublish = false → step cfg p e = none

def PublishesReturned (p : AuditPublisher P) : Prop :=
  ∀ (w : ℕ) (m : Message P) (bytes : List UInt8), p.workers[w]? ≠ some (.publishing m bytes)

theorem recv_enabled {w : ℕ} (hw : p.workers[w]? = some .receiving) (hclosed : p.closed = true) :
    (step cfg p (.recv w)).isSome = true := by
  cases hqueue : p.queue with
  | nil => simp [step, workerStep, hw, hqueue, hclosed]
  | cons m rest => simp [step, workerStep, hw, hqueue]

theorem worker_enabled (hlocked : Locked p) (hclosed : p.closed = true) {w : ℕ} {phase : Phase P}
    (hw : p.workers[w]? = some phase) (hphase : phase ≠ .exited)
    (hpublishing : ∀ m bytes, phase ≠ .publishing m bytes) :
    ∃ e : Event P, e.answersPublish = false ∧ (step cfg p e).isSome = true := by
  cases phase with
  | idle =>
    cases hlock : p.lock with
    | none => exact ⟨.lock w, rfl, by simp [step, workerStep, hw, hlock]⟩
    | some v => exact ⟨.recv v, rfl, recv_enabled (hlocked v hlock) hclosed⟩
  | receiving => exact ⟨.recv w, rfl, recv_enabled hw hclosed⟩
  | dequeued m =>
    refine ⟨.loadOpenUntil w 0, rfl, ?_⟩
    by_cases hopen : p.breaker.circuitOpen 0 = true <;> simp [step, workerStep, hw, hopen]
  | admitted m => exact ⟨.ready w true, rfl, by simp [step, workerStep, hw]⟩
  | ready m =>
    refine ⟨.marshal w, rfl, ?_⟩
    cases hbytes : cfg.marshalAudit m.payload <;> simp [step, workerStep, hw, hbytes]
  | publishing m bytes => exact absurd rfl (hpublishing m bytes)
  | acknowledged => exact ⟨.storeZero w, rfl, by simp [step, workerStep, hw]⟩
  | failing => exact ⟨.fetchAdd w, rfl, by simp [step, workerStep, hw]⟩
  | tripping => exact ⟨.storeUntil w 0, rfl, by simp [step, workerStep, hw]⟩
  | exited => exact absurd rfl hphase

theorem Draining.enabled (hp : Draining p) (hreturned : PublishesReturned p) :
    p.stopCompleted ∨ ∃ e : Event P, e.answersPublish = false ∧
      (Audit.step cfg p e).isSome = true := by
  cases hstop : p.stop with
  | running => exact absurd hstop hp.started
  | flagged => exact Or.inr ⟨.dropSender, rfl, by simp [Audit.step, stopStep, hstop]⟩
  | joining n =>
    have hclosed : p.closed = true := by simp [AuditPublisher.closed, hstop]
    cases hn : p.workers[n]? with
    | none =>
      have hge : p.workers.length ≤ n := List.getElem?_eq_none_iff.mp hn
      have hle : n ≤ p.workers.length := by
        by_contra hgt
        have hexited := hp.stopping.joined n hstop p.workers.length (by omega)
        simp at hexited
      exact Or.inl (by rw [AuditPublisher.stopCompleted, hstop, le_antisymm hle hge])
    | some phase =>
      by_cases hphase : phase = .exited
      · subst hphase
        exact Or.inr ⟨.join, rfl, by simp [Audit.step, stopStep, hstop, hn]⟩
      · have hpublishing : ∀ m bytes, phase ≠ .publishing m bytes := by
          rintro m bytes rfl
          exact hreturned n m bytes hn
        exact Or.inr (worker_enabled hp.locked hclosed hn hphase hpublishing)

theorem Draining.enabled_or_answered (hp : Draining p) :
    p.stopCompleted ∨ ∃ e : Event P, (Audit.step cfg p e).isSome = true := by
  by_cases hreturned : PublishesReturned p
  · exact (hp.enabled hreturned).imp_right fun ⟨e, _, he⟩ => ⟨e, he⟩
  · simp only [PublishesReturned, not_forall, not_not] at hreturned
    obtain ⟨w, m, bytes, hw⟩ := hreturned
    exact Or.inr ⟨.publish w true, by simp [Audit.step, workerStep, hw]⟩

/-! ## Runs -/

theorem sum_left_le (phases : List (Phase P)) :
    (phases.map Phase.left).sum ≤ 8 * phases.length := by
  induction phases with
  | nil => simp
  | cons phase phases ih =>
    have hphase : phase.left ≤ 8 := by cases phase <;> simp [Phase.left]
    simp only [List.map_cons, List.sum_cons, List.length_cons]
    omega

theorem Draining.left_le (hp : Draining p) :
    p.left ≤ 8 * p.queue.length + 9 * p.workers.length + 1 := by
  have hsum := sum_left_le p.workers
  have hstop : p.stop.left p.workers.length ≤ p.workers.length + 1 := by
    cases hstop : p.stop with
    | running => exact absurd hstop hp.started
    | flagged => simp [StopPhase.left]
    | joining n =>
      simp only [StopPhase.left]
      omega
  simp only [AuditPublisher.left, AuditPublisher.workLeft]
  omega

theorem locked_new (cfg : AuditPublisherConfig P) : Locked (AuditPublisher.new cfg) := nofun

/-- From the call of `stop` on, what can still happen is bounded by the queue and the
workers, and nothing more is accepted. Where the publish calls that the workers make return,
nothing but the return of `stop` ends it; there is no timeout on such a call. -/
theorem stop_returns_if_publishes_do {es : List (Event P)}
    (hrun : run (step cfg) (AuditPublisher.new cfg) es = some p) (hstop : p.stop ≠ .running) :
    (∀ fs q, run (step cfg) p fs = some q →
        fs.length ≤ 8 * p.queue.length + 9 * p.workers.length + 1 ∧ q.submits = p.submits ∧
          (Halted cfg q → PublishesReturned q → q.stopCompleted)) ∧
      ∃ fs q, run (step cfg) p fs = some q ∧ q.stopCompleted := by
  have hreached : ∀ (q : AuditPublisher P) e q', Stopping q ∧ Locked q → step cfg q e = some q' →
      Stopping q' ∧ Locked q' := fun q e q' hq h => ⟨hq.1.effect (effect_of_step h), hq.2.step h⟩
  obtain ⟨hstopping, hlocked⟩ := run_invariant hreached ⟨Stopping.new cfg, locked_new cfg⟩ hrun
  have hp : Draining p := ⟨hstopping, hlocked, hstop⟩
  have hstep : ∀ (q : AuditPublisher P) e q', Draining q → step cfg q e = some q' →
      Draining q' ∧ q'.left < q.left := fun q e q' hq h => ⟨(hq.step h).1, (hq.step h).2.2⟩
  refine ⟨fun fs q hq => ?_, exists_run_of_enabled hstep (fun q hq => hq.enabled_or_answered) hp⟩
  have hlength := run_length_le hstep hp hq
  have hleft := hp.left_le
  have hkept : ∀ (r : AuditPublisher P) e r', Draining r ∧ r.submits = p.submits →
      step cfg r e = some r' → Draining r' ∧ r'.submits = p.submits :=
    fun r e r' hr h => ⟨(hr.1.step h).1, (hr.1.step h).2.1.trans hr.2⟩
  obtain ⟨hdraining, hsubmits⟩ := run_invariant hkept ⟨hp, rfl⟩ hq
  refine ⟨by omega, hsubmits, fun hhalted hreturned => ?_⟩
  rcases @Draining.enabled _ cfg q hdraining hreturned with hdone | ⟨e, hanswers, h⟩
  · exact hdone
  · rw [hhalted e hanswers] at h
    cases h

def stoppedEarly : List (Event (List UInt8)) :=
  [.submit [1], .loadStopped 0, .circuitOpen 0 5, .trySend 0, .lock 0, .recv 0, .submit [2],
    .loadStopped 1, .circuitOpen 1 5, .trySend 1, .stop]

theorem stop_returns_if_publishes_do_stoppedEarly :
    ∃ p, run (step oneWorker) (.new oneWorker) stoppedEarly = some p ∧ p.queue = [⟨1, [2]⟩] ∧
      (∀ fs q, run (step oneWorker) p fs = some q →
        fs.length ≤ 8 * p.queue.length + 9 * p.workers.length + 1 ∧ q.submits = p.submits ∧
          (Halted oneWorker q → PublishesReturned q → q.stopCompleted)) ∧
      ∃ fs q, run (step oneWorker) p fs = some q ∧ q.stopCompleted := by
  have hrun : run (step oneWorker) (.new oneWorker) stoppedEarly = some _ := rfl
  exact ⟨_, hrun, rfl, stop_returns_if_publishes_do hrun nofun⟩

end PaycloudHelper.Audit
