import Mathlib
import PaycloudHelper.Resilience.BreakerHistory

/-!
# What the breaker admits, and when

Two laws about runs of any number of overlapping callers under a clock that never
goes back. Probes are spaced by the cooldown. A tripped breaker stays shut for its
cooldown exactly as long as no late success closes it: `record_success` closes the
breaker in every state, so a call admitted before the trip can reopen it.
-/

namespace PaycloudHelper.Breaker

open Transcripts Words

variable {cb : CircuitBreaker}

/-! ## Probes -/

def Held (p : ℕ) (g : Inner) : Prop :=
  (g.state = .halfOpen ∧ ∃ t, p ≤ t ∧ g.probeStartedAt = some t) ∨
    (g.state = .open ∧ ∃ t, p ≤ t ∧ g.openedAt = some t)

theorem held_admitted {g : Inner} (hs : g.state ≠ .closed) {p started : ℕ} (hp : p ≤ started) :
    Held p (admitted g started) :=
  Or.inl ⟨admitted_state hs started, started, hp, admitted_probe hs started⟩

theorem Held.not_closed {p : ℕ} {g : Inner} (h : Held p g) : g.state ≠ .closed := by
  rcases h with ⟨hs, -⟩ | ⟨hs, -⟩ <;> simp [hs]

theorem Held.tryAcquire {p now started : ℕ} {g : Inner} (h : Held p g) (hp : p ≤ started) :
    Held p (tryAcquire cb g now started).2 := by
  by_cases hw : Waits cb g now
  · rwa [tryAcquire_of_waits hw]
  · rw [tryAcquire_of_not_waits hw]
    exact held_admitted h.not_closed hp

theorem Held.recordFailure {p now : ℕ} {g : Inner} (h : Held p g) (hp : p ≤ now) :
    Held p (recordFailure cb g now) := by
  by_cases ht : g.state = .halfOpen ∨ cb.threshold ≤ wrap 32 (g.consecutiveFailures + 1)
  · rw [recordFailure_trips ht]
    exact Or.inr ⟨rfl, now, hp, rfl⟩
  · rw [recordFailure_counts ht]
    exact h

theorem Held.le_of_not_waits {p now : ℕ} {g : Inner} (h : Held p g) (hp : p ≤ now)
    (hw : ¬ Waits cb g now) : p + cb.cooldown ≤ now := by
  rcases h with ⟨hs, t, ht, hsome⟩ | ⟨hs, t, ht, hsome⟩
  · rw [waits_halfOpen hs hsome] at hw
    omega
  · rw [waits_open hs hsome] at hw
    omega

theorem held_run {p : ℕ} {g : Inner} {ops : List Op} (h : Held p g)
    (hsucc : .recordSuccess ∉ ops) (hp : ∀ op ∈ ops, ∀ a ∈ op.reads, p ≤ a) :
    Held p (final (step cb) g ops) := by
  refine final_invariant (P := Held p) (fun g op hop ih => ?_) h
  cases op with
  | tryAcquire now started => exact ih.tryAcquire (hp _ hop started (by simp))
  | recordSuccess => exact absurd hop hsucc
  | recordFailure now => exact ih.recordFailure (hp _ hop now (by simp))
  | recordCancel => exact ih

/-- Two admissions of a breaker that is not closed, with no success between them, are
at least the cooldown apart, even from the later reading of the first. -/
theorem probes_spaced_by_cooldown (cb : CircuitBreaker) (pre mid : List Op)
    (now₁ started₁ now₂ started₂ : ℕ)
    (hclock : Ascending Op.reads
      (pre ++ .tryAcquire now₁ started₁ :: (mid ++ [.tryAcquire now₂ started₂])))
    (hsucc : .recordSuccess ∉ mid) :
    let g₁ := final (step cb) Inner.new pre
    let g₂ := final (step cb) Inner.new (pre ++ .tryAcquire now₁ started₁ :: mid)
    g₁.state ≠ .closed → (tryAcquire cb g₁ now₁ started₁).1 = true →
      g₂.state ≠ .closed → (tryAcquire cb g₂ now₂ started₂).1 = true →
      cb.cooldown ≤ now₂ - now₁ ∧ started₁ + cb.cooldown ≤ now₂ := by
  intro g₁ g₂ hs₁ hadm₁ _ hadm₂
  obtain ⟨hafter, -, hends⟩ := hclock.between
  have hfirst : now₁ ≤ started₁ := by
    have hpair := (ascending_cons.mp (ascending_append.mp hclock).2.1).1
    simpa using hpair
  have hlast : started₁ ≤ now₂ := hends started₁ (by simp) now₂ (by simp)
  have hg₂ : g₂ = final (step cb) (admitted g₁ started₁) mid := by
    simp only [g₂, final_append, final_cons, step_tryAcquire]
    rw [tryAcquire_of_not_waits (tryAcquire_iff.mp hadm₁)]
  have hheld : Held started₁ g₂ := by
    rw [hg₂]
    refine held_run (held_admitted hs₁ le_rfl) hsucc fun op hop a ha => ?_
    exact hafter started₁ (by simp) op hop a ha
  have hgap := hheld.le_of_not_waits hlast (tryAcquire_iff.mp hadm₂)
  omega

theorem probes_spaced_by_cooldown_failed :
    (CircuitBreaker.new 1 10).cooldown ≤ 21 - 10 ∧
      10 + (CircuitBreaker.new 1 10).cooldown ≤ 21 :=
  probes_spaced_by_cooldown (.new 1 10) [.recordFailure 0] [.recordFailure 11] 10 10 21 21
    (by decide) (by decide) (by decide) (by decide) (by decide) (by decide)

/-! ## Trips -/

def Trips (cb : CircuitBreaker) (g : Inner) (t : ℕ) : Prop :=
  g.state ≠ .open ∧ (recordFailure cb g t).state = .open

instance (g : Inner) (t : ℕ) : Decidable (Trips cb g t) := inferInstanceAs (Decidable (_ ∧ _))

theorem Trips.openedAt {g : Inner} {t : ℕ} (h : Trips cb g t) :
    (recordFailure cb g t).openedAt = some t := by
  obtain ⟨hs, hopen⟩ := h
  by_cases ht : g.state = .halfOpen ∨ cb.threshold ≤ wrap 32 (g.consecutiveFailures + 1)
  · rw [recordFailure_trips ht]
  · rw [recordFailure_counts ht] at hopen
    exact absurd hopen hs

def StaysShut (cb : CircuitBreaker) (ops : List Op) : Prop :=
  ∀ pre t mid now started post,
    ops = pre ++ .recordFailure t :: (mid ++ .tryAcquire now started :: post) →
    Trips cb (final (step cb) Inner.new pre) t → now < t + cb.cooldown →
    (tryAcquire cb (final (step cb) Inner.new (pre ++ .recordFailure t :: mid))
      now started).1 = false

/-- Whenever somebody asks within the cooldown of a trip, no success has been reported
since the trip, or `threshold` failures have been reported since the last success. -/
def NoLateSuccess (cb : CircuitBreaker) (ops : List Op) : Prop :=
  ∀ pre t mid now started post,
    ops = pre ++ .recordFailure t :: (mid ++ .tryAcquire now started :: post) →
    Trips cb (final (step cb) Inner.new pre) t → now < t + cb.cooldown →
    .recordSuccess ∉ mid ∨ cb.threshold ≤ failuresSinceSuccess mid

def Tripped (cb : CircuitBreaker) (t : ℕ) (ops : List Op) (g : Inner) : Prop :=
  (g.state = .open ∧ (∃ s, t ≤ s ∧ g.openedAt = some s) ∧
      (.recordSuccess ∉ ops ∨ cb.threshold ≤ failuresSinceSuccess ops)) ∨
    (g.state = .closed ∧ .recordSuccess ∈ ops ∧
      g.consecutiveFailures = failuresSinceSuccess ops ∧ failuresSinceSuccess ops < cb.threshold)

theorem Tripped.tryAcquire {t now started : ℕ} {ops : List Op} {g : Inner}
    (h : Tripped cb t ops g) (hnow : now < t + cb.cooldown) (hle : t ≤ now) :
    Tripped cb t (ops ++ [.tryAcquire now started]) (tryAcquire cb g now started).2 := by
  rcases h with ⟨hs, ⟨s, hts, hsome⟩, hops⟩ | ⟨hs, hsucc, hcount, hlt⟩
  · have hw : Waits cb g now := (waits_open hs hsome).mpr (by omega)
    rw [tryAcquire_of_waits hw]
    exact Or.inl ⟨hs, ⟨s, hts, hsome⟩, by simpa using hops⟩
  · rw [tryAcquire_of_not_waits (not_waits_closed hs), admitted_closed hs]
    exact Or.inr ⟨hs, by simp [hsucc], by simpa using hcount, by simpa using hlt⟩

theorem Tripped.recordFailure {t now : ℕ} {ops : List Op} {g : Inner} (h : Tripped cb t ops g)
    (hle : t ≤ now) : Tripped cb t (ops ++ [.recordFailure now]) (recordFailure cb g now) := by
  have hthr := cb.threshold_lt
  -- open: it stays open; closed by a success: it counts from there and may trip again
  rcases h with ⟨hs, ⟨s, hts, hsome⟩, hops⟩ | ⟨hs, hsucc, hcount, hlt⟩
  · have hops' : Op.recordSuccess ∉ ops ++ [Op.recordFailure now] ∨
        cb.threshold ≤ failuresSinceSuccess (ops ++ [Op.recordFailure now]) := by
      rw [failuresSinceSuccess_recordFailure]
      rcases hops with hno | hge
      · exact Or.inl (by simpa using hno)
      · exact Or.inr (by omega)
    by_cases ht : g.state = .halfOpen ∨ cb.threshold ≤ wrap 32 (g.consecutiveFailures + 1)
    · rw [recordFailure_trips ht]
      exact Or.inl ⟨rfl, ⟨now, hle, rfl⟩, hops'⟩
    · rw [recordFailure_counts ht]
      exact Or.inl ⟨hs, ⟨s, hts, hsome⟩, hops'⟩
  · have hmod : wrap 32 (g.consecutiveFailures + 1) = failuresSinceSuccess ops + 1 := by
      rw [hcount, wrap_of_lt (by omega)]
    by_cases hreach : cb.threshold ≤ failuresSinceSuccess ops + 1
    · rw [recordFailure_trips (Or.inr (by omega))]
      exact Or.inl ⟨rfl, ⟨now, hle, rfl⟩, Or.inr (by simpa using hreach)⟩
    · rw [recordFailure_counts (by simp [hs, hmod]; omega)]
      exact Or.inr ⟨hs, by simp [hsucc], by simpa using hmod, by simpa using hreach⟩

theorem tripped_run {t u : ℕ} {g : Inner} {ops : List Op} (hs : g.state = .open)
    (hopened : g.openedAt = some t) (hlo : ∀ op ∈ ops, ∀ a ∈ op.reads, t ≤ a)
    (hhi : ∀ op ∈ ops, ∀ a ∈ op.reads, a ≤ u) (hu : u < t + cb.cooldown) :
    Tripped cb t ops (final (step cb) g ops) := by
  refine final_history (P := Tripped cb t)
    (Or.inl ⟨hs, ⟨t, le_rfl, hopened⟩, Or.inl (by simp)⟩) fun pre g op hop ih => ?_
  cases op with
  | tryAcquire now started =>
    have hnow : now ≤ u := hhi _ hop now (by simp)
    exact ih.tryAcquire (by omega) (hlo _ hop now (by simp))
  | recordSuccess =>
    exact Or.inr ⟨rfl, by simp, by simp [Inner.new], by simpa using cb.threshold_pos⟩
  | recordFailure now => exact ih.recordFailure (hlo _ hop now (by simp))
  | recordCancel => simpa [Tripped] using ih

theorem Tripped.refuses_iff {t now started : ℕ} {ops : List Op} {g : Inner}
    (h : Tripped cb t ops g) (hnow : now < t + cb.cooldown) (hle : t ≤ now) :
    (Breaker.tryAcquire cb g now started).1 = false ↔
      .recordSuccess ∉ ops ∨ cb.threshold ≤ failuresSinceSuccess ops := by
  rcases h with ⟨hs, ⟨s, hts, hsome⟩, hops⟩ | ⟨hs, hsucc, -, hlt⟩
  · have hw : Waits cb g now := (waits_open hs hsome).mpr (by omega)
    exact iff_of_true (by rw [tryAcquire_of_waits hw]) hops
  · refine iff_of_false ?_ (by push Not; exact ⟨hsucc, hlt⟩)
    rw [tryAcquire_of_not_waits (not_waits_closed hs)]
    simp

/-- The breaker stays shut for its cooldown exactly when no late success reopens it.
The runs of overlapping `call`s are among these runs. -/
theorem stays_shut_iff (cb : CircuitBreaker) (ops : List Op) (hclock : Ascending Op.reads ops) :
    StaysShut cb ops ↔ NoLateSuccess cb ops := by
  refine forall_congr' fun pre => forall_congr' fun t => forall_congr' fun mid =>
    forall_congr' fun now => forall_congr' fun started => forall_congr' fun post => ?_
  refine imp_congr_right fun hops => imp_congr_right fun htrip => imp_congr_right fun hnow => ?_
  rw [hops] at hclock
  obtain ⟨hlo, hhi, hends⟩ := hclock.between
  have hle : t ≤ now := hends t (by simp) now (by simp)
  have htripped := tripped_run htrip.2 htrip.openedAt
    (fun op hop => hlo t (by simp) op hop)
    (fun op hop a ha => hhi op hop a ha now (by simp)) hnow
  rw [final_append, final_cons]
  exact htripped.refuses_iff hnow hle

theorem stays_shut_iff_single_call :
    StaysShut (.new 1 10) [.tryAcquire 0 0, .recordFailure 1, .tryAcquire 5 5] ↔
      NoLateSuccess (.new 1 10) [.tryAcquire 0 0, .recordFailure 1, .tryAcquire 5 5] :=
  stays_shut_iff (.new 1 10) _ (by decide)

theorem late_success_reopens :
    CallRun (.new 1 10) [.ask 1 0 0, .ask 2 0 0, .settle 1 .failed 1, .settle 2 .ok 2,
        .ask 3 3 3] ∧
      Ascending CallEvent.reads [.ask 1 0 0, .ask 2 0 0, .settle 1 .failed 1,
        .settle 2 .ok 2, .ask 3 3 3] ∧
      ¬ StaysShut (.new 1 10) ([.ask 1 0 0, .ask 2 0 0, .settle 1 .failed 1,
        .settle 2 .ok 2, .ask 3 3 3].map CallEvent.op) := by
  refine ⟨by decide, by decide, ?_⟩
  -- call 1 trips the breaker at 1, call 2 was admitted before that and succeeds at 2
  intro h
  have hshut := h [.tryAcquire 0 0, .tryAcquire 0 0] 1 [.recordSuccess] 3 3 [] rfl
    (by decide) (by decide)
  exact absurd hshut (by decide)

end PaycloudHelper.Breaker
