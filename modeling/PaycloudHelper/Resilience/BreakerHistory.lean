import PaycloudHelper.Resilience.Breaker

/-!
# The breaker's state is a function of its failure history

`History cb n g` says what a breaker with `n` failures since the last success looks
like, in all four fields at once. Every operation keeps it, in whichever state it
arrives, as long as the `u32` counter does not wrap.
-/

namespace PaycloudHelper.Breaker

open Transcripts Words

def failuresSinceSuccess (ops : List Op) : ℕ :=
  ops.foldl (fun n op => match op with
    | .recordSuccess => 0
    | .recordFailure _ => n + 1
    | .tryAcquire _ _ | .recordCancel => n) 0

@[simp] theorem failuresSinceSuccess_tryAcquire (ops : List Op) (now started : ℕ) :
    failuresSinceSuccess (ops ++ [.tryAcquire now started]) = failuresSinceSuccess ops := by
  simp [failuresSinceSuccess]

@[simp] theorem failuresSinceSuccess_recordSuccess (ops : List Op) :
    failuresSinceSuccess (ops ++ [.recordSuccess]) = 0 := by
  simp [failuresSinceSuccess]

@[simp] theorem failuresSinceSuccess_recordFailure (ops : List Op) (now : ℕ) :
    failuresSinceSuccess (ops ++ [.recordFailure now]) = failuresSinceSuccess ops + 1 := by
  simp [failuresSinceSuccess]

@[simp] theorem failuresSinceSuccess_recordCancel (ops : List Op) :
    failuresSinceSuccess (ops ++ [.recordCancel]) = failuresSinceSuccess ops := by
  simp [failuresSinceSuccess]

structure History (cb : CircuitBreaker) (n : ℕ) (g : Inner) : Prop where
  failures : g.consecutiveFailures = n
  closed_iff : g.state = .closed ↔ n < cb.threshold
  openedAt_iff : g.openedAt.isSome ↔ g.state ≠ .closed
  probeStartedAt_iff : g.probeStartedAt.isSome ↔ g.state = .halfOpen

variable {cb : CircuitBreaker}

theorem History.new : History cb 0 Inner.new where
  failures := rfl
  closed_iff := iff_of_true rfl cb.one_le_threshold
  openedAt_iff := by simp [Inner.new]
  probeStartedAt_iff := by simp [Inner.new]

theorem History.tryAcquire {n : ℕ} {g : Inner} (h : History cb n g) (now started : ℕ) :
    History cb n (tryAcquire cb g now started).2 := by
  by_cases hw : Waits cb g now
  · rwa [tryAcquire_of_waits hw]
  rw [tryAcquire_of_not_waits hw]
  by_cases hs : g.state = .closed
  · rwa [admitted_closed hs]
  have hopened : g.openedAt.isSome := h.openedAt_iff.mpr hs
  have hn : ¬ n < cb.threshold := fun hn => hs (h.closed_iff.mpr hn)
  exact {
    failures := by simpa using h.failures
    closed_iff := by simp [admitted, hs, hn]
    openedAt_iff := by simpa [admitted, hs] using hopened
    probeStartedAt_iff := by simp [admitted, hs] }

theorem History.recordFailure {n : ℕ} {g : Inner} (h : History cb n g) (hn : n + 1 < 2 ^ 32)
    (now : ℕ) : History cb (n + 1) (recordFailure cb g now) := by
  have hmod : wrap 32 (g.consecutiveFailures + 1) = n + 1 := by
    rw [h.failures, wrap_of_lt hn]
  -- in `halfOpen` the count is at the threshold already, so both tests of the code agree
  by_cases hlt : n + 1 < cb.threshold
  · have hs : g.state = .closed := h.closed_iff.mpr (by omega)
    rw [recordFailure_counts (by simp [hs, hmod, hlt]), hmod]
    exact {
      failures := rfl
      closed_iff := iff_of_true hs hlt
      openedAt_iff := h.openedAt_iff
      probeStartedAt_iff := h.probeStartedAt_iff }
  · rw [recordFailure_trips (Or.inr (by omega)), hmod]
    exact {
      failures := rfl
      closed_iff := iff_of_false (by simp) hlt
      openedAt_iff := by simp
      probeStartedAt_iff := by simp }

theorem history_run {ops : List Op} (h : failuresSinceSuccess ops < 2 ^ 32) :
    History cb (failuresSinceSuccess ops) (final (step cb) Inner.new ops) := by
  -- a success forgets all before it, so only the failures since the last one must fit
  refine final_history
    (P := fun pre g => failuresSinceSuccess pre < 2 ^ 32 → History cb (failuresSinceSuccess pre) g)
    (fun _ => .new) ?_ h
  intro pre g op _ ih hpre
  cases op with
  | tryAcquire now started =>
    rw [failuresSinceSuccess_tryAcquire] at hpre ⊢
    exact (ih hpre).tryAcquire now started
  | recordSuccess => simpa using (History.new : History cb 0 Inner.new)
  | recordFailure now =>
    rw [failuresSinceSuccess_recordFailure] at hpre ⊢
    exact (ih (by omega)).recordFailure hpre now
  | recordCancel =>
    rw [failuresSinceSuccess_recordCancel] at hpre ⊢
    exact ih hpre

/-- In every state reached from `new`, the counter, the state and both timestamps are
given by the failures since the last success, and no timestamp that `try_acquire`
looks at is missing. -/
theorem state_of_history (threshold : UInt32) (cooldown : ℕ) (ops : List Op)
    (h : failuresSinceSuccess ops < 2 ^ 32) :
    let g := final (step (.new threshold cooldown)) Inner.new ops
    g.consecutiveFailures = failuresSinceSuccess ops ∧
      (g.state = .closed ↔ failuresSinceSuccess ops < max threshold.toNat 1) ∧
      (g.openedAt.isSome ↔ g.state ≠ .closed) ∧
      (g.probeStartedAt.isSome ↔ g.state = .halfOpen) ∧
      (g.state = .open → g.openedAt ≠ none) ∧
      (g.state = .halfOpen → g.probeStartedAt ≠ none) := by
  have hist : History (.new threshold cooldown) _ _ := history_run h
  refine ⟨hist.failures, hist.closed_iff, hist.openedAt_iff, hist.probeStartedAt_iff, ?_, ?_⟩
  · intro hs
    exact Option.isSome_iff_ne_none.mp (hist.openedAt_iff.mpr (by simp [hs]))
  · intro hs
    exact Option.isSome_iff_ne_none.mp (hist.probeStartedAt_iff.mpr hs)

theorem state_of_history_reopened :
    let g := final (step (.new 2 10)) Inner.new
      [.recordFailure 0, .recordFailure 1, .tryAcquire 11 12, .recordFailure 13]
    g.consecutiveFailures = 3 ∧ g.state = .open ∧ g.openedAt.isSome := by
  have h := state_of_history 2 10
    [.recordFailure 0, .recordFailure 1, .tryAcquire 11 12, .recordFailure 13] (by decide)
  exact ⟨h.1, by decide, h.2.2.1.mpr (by decide)⟩

end PaycloudHelper.Breaker
