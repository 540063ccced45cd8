import Mathlib

/-!
# Runs of partial step functions

A system is a partial step function: an event that is not enabled in a state has no
next state there. A run is a list of events each enabled when its turn comes, so a
statement about all runs is about every order in which the events can happen.
-/

namespace Runs

variable {σ ε : Type*}

def run (step : σ → ε → Option σ) : σ → List ε → Option σ
  | s, [] => some s
  | s, e :: es => (step s e).bind fun t => run step t es

/-- `P` holds of every event of the run, in the state in which it happens. -/
def AllSteps (step : σ → ε → Option σ) (P : σ → ε → Prop) : σ → List ε → Prop
  | _, [] => True
  | s, e :: es => P s e ∧ ∀ t ∈ step s e, AllSteps step P t es

variable {step : σ → ε → Option σ}

instance decidableAllSteps {P : σ → ε → Prop} [∀ s e, Decidable (P s e)] :
    (s : σ) → (es : List ε) → Decidable (AllSteps step P s es)
  | _, [] => isTrue trivial
  | s, e :: es =>
    have : Decidable (∀ t ∈ step s e, AllSteps step P t es) :=
      match hs : step s e with
      | none => isTrue (by simp)
      | some t =>
        have := decidableAllSteps (P := P) t es
        decidable_of_iff (AllSteps step P t es) (by simp)
    inferInstanceAs (Decidable (P s e ∧ ∀ t ∈ step s e, AllSteps step P t es))

@[simp] theorem run_nil (s : σ) : run step s [] = some s := rfl

theorem run_cons (s : σ) (e : ε) (es : List ε) :
    run step s (e :: es) = (step s e).bind fun t => run step t es := rfl

theorem run_cons_of_step {s t : σ} {e : ε} (h : step s e = some t) (es : List ε) :
    run step s (e :: es) = run step t es := by
  rw [run_cons, h, Option.bind_some]

theorem run_cons_iff {s u : σ} {e : ε} {es : List ε} :
    run step s (e :: es) = some u ↔ ∃ t, step s e = some t ∧ run step t es = some u := by
  rw [run_cons, Option.bind_eq_some_iff]

theorem run_append (s : σ) (es fs : List ε) :
    run step s (es ++ fs) = (run step s es).bind fun t => run step t fs := by
  induction es generalizing s with
  | nil => rfl
  | cons e es ih =>
    simp only [List.cons_append, run_cons, Option.bind_assoc]
    congr 1
    funext t
    exact ih t

theorem run_append_of_run {s t : σ} {es : List ε} (h : run step s es = some t) (fs : List ε) :
    run step s (es ++ fs) = run step t fs := by
  rw [run_append, h, Option.bind_some]

/-- The rule for invariants of the runs whose steps all meet a condition. -/
theorem run_invariant_of {P : σ → ε → Prop} {I : σ → Prop}
    (hstep : ∀ s e t, I s → P s e → step s e = some t → I t)
    {s u : σ} {es : List ε} (hs : I s) (hP : AllSteps step P s es) (hrun : run step s es = some u) :
    I u := by
  induction es generalizing s with
  | nil =>
    obtain rfl : s = u := by simpa using hrun
    exact hs
  | cons e es ih =>
    obtain ⟨t, ht, hrun⟩ := run_cons_iff.mp hrun
    exact ih (hstep s e t hs hP.1 ht) (hP.2 t ht) hrun

theorem run_invariant {I : σ → Prop} (hstep : ∀ s e t, I s → step s e = some t → I t)
    {s u : σ} {es : List ε} (hs : I s) (hrun : run step s es = some u) : I u := by
  induction es generalizing s with
  | nil =>
    obtain rfl : s = u := by simpa using hrun
    exact hs
  | cons e es ih =>
    obtain ⟨t, ht, hrun⟩ := run_cons_iff.mp hrun
    exact ih (hstep s e t hs ht) hrun

theorem allSteps_of_invariant {P Q R : σ → ε → Prop} {I : σ → Prop}
    (hstep : ∀ s e t, I s → P s e → step s e = some t → I t)
    (himp : ∀ s e, I s → Q s e → R s e) {s : σ} {es : List ε} (hs : I s)
    (hP : AllSteps step P s es) (hQ : AllSteps step Q s es) : AllSteps step R s es := by
  induction es generalizing s with
  | nil => trivial
  | cons e es ih =>
    refine ⟨himp s e hs hQ.1, fun t ht => ?_⟩
    exact ih (hstep s e t hs hP.1 ht) (hP.2 t ht) (hQ.2 t ht)

theorem allSteps_true (s : σ) (es : List ε) : AllSteps step (fun _ _ => True) s es := by
  induction es generalizing s with
  | nil => trivial
  | cons e es ih => exact ⟨trivial, fun t _ => ih t⟩

theorem allSteps_of_forall {P : σ → ε → Prop} {es : List ε} (h : ∀ e ∈ es, ∀ s, P s e) (s : σ) :
    AllSteps step P s es := by
  induction es generalizing s with
  | nil => trivial
  | cons e es ih => exact ⟨h e (by simp) s, fun t _ => ih (fun f hf => h f (by simp [hf])) t⟩

theorem AllSteps.and {P Q : σ → ε → Prop} {s : σ} {es : List ε} (hP : AllSteps step P s es)
    (hQ : AllSteps step Q s es) : AllSteps step (fun s e => P s e ∧ Q s e) s es := by
  induction es generalizing s with
  | nil => trivial
  | cons e es ih => exact ⟨⟨hP.1, hQ.1⟩, fun t ht => ih (hP.2 t ht) (hQ.2 t ht)⟩

theorem allSteps_forall {ι : Type*} {Q : ι → Prop} {P : ι → σ → ε → Prop} {s : σ} {es : List ε}
    (h : ∀ i, Q i → AllSteps step (P i) s es) :
    AllSteps step (fun s e => ∀ i, Q i → P i s e) s es := by
  induction es generalizing s with
  | nil => trivial
  | cons e es ih => exact ⟨fun i hi => (h i hi).1, fun t ht => ih fun i hi => (h i hi).2 t ht⟩

/-- What every step does to a pair of states, a whole run does. -/
theorem run_rel {R : σ → σ → Prop} (hrefl : ∀ s, R s s) (htrans : ∀ s t u, R s t → R t u → R s u)
    (hstep : ∀ s e t, step s e = some t → R s t) {s u : σ} {es : List ε}
    (hrun : run step s es = some u) : R s u := by
  induction es generalizing s with
  | nil =>
    obtain rfl : s = u := by simpa using hrun
    exact hrefl s
  | cons e es ih =>
    obtain ⟨t, ht, hrun⟩ := run_cons_iff.mp hrun
    exact htrans s t u (hstep s e t ht) (ih hrun)

/-- Where a step adds at most one entry to a log, every entry has the step that added it. -/
theorem run_logged {α : Type*} {log : σ → List α} {R : σ → ε → α → Prop}
    (hstep : ∀ s e t, step s e = some t → log t = log s ∨ ∃ a, log t = log s ++ [a] ∧ R s e a)
    {s u : σ} {es : List ε} (hrun : run step s es = some u) :
    ∀ a ∈ log u, a ∈ log s ∨
      ∃ es₁ e es₂ t, es = es₁ ++ e :: es₂ ∧ run step s es₁ = some t ∧ R t e a := by
  induction es generalizing s with
  | nil =>
    obtain rfl : s = u := by simpa using hrun
    exact fun a ha => Or.inl ha
  | cons e es ih =>
    obtain ⟨t, ht, hrun⟩ := run_cons_iff.mp hrun
    intro a ha
    rcases ih hrun a ha with ha | ⟨es₁, e', es₂, t', rfl, hrun', ha⟩
    · rcases hstep s e t ht with hsame | ⟨b, hadded, hb⟩
      · exact Or.inl (hsame ▸ ha)
      · rcases List.mem_append.mp (hadded ▸ ha) with ha | ha
        · exact Or.inl ha
        · rw [List.mem_singleton.mp ha]
          exact Or.inr ⟨[], e, es, s, rfl, rfl, hb⟩
    · exact Or.inr ⟨e :: es₁, e', es₂, t', rfl, by rw [run_cons_of_step ht, hrun'], ha⟩

theorem run_measure_le {P : σ → ε → Prop} {I : σ → Prop} {μ : σ → ℕ}
    (hstep : ∀ s e t, I s → P s e → step s e = some t → I t ∧ μ t ≤ μ s - 1)
    {s u : σ} {es : List ε} (hs : I s) (hP : AllSteps step P s es) (hrun : run step s es = some u) :
    μ u ≤ μ s - es.length := by
  induction es generalizing s with
  | nil =>
    obtain rfl : s = u := by simpa using hrun
    exact le_rfl
  | cons e es ih =>
    obtain ⟨t, ht, hrun⟩ := run_cons_iff.mp hrun
    obtain ⟨hI, hle⟩ := hstep s e t hs hP.1 ht
    have hrest : μ u ≤ μ t - es.length := ih hI (hP.2 t ht) hrun
    rw [List.length_cons]
    omega

/-! ## Runs that come to an end -/

section
variable {I : σ → Prop} {μ : σ → ℕ}

theorem run_length_le (hstep : ∀ s e t, I s → step s e = some t → I t ∧ μ t < μ s)
    {s u : σ} {es : List ε} (hs : I s) (hrun : run step s es = some u) :
    es.length + μ u ≤ μ s := by
  induction es generalizing s with
  | nil =>
    obtain rfl : s = u := by simpa using hrun
    simp
  | cons e es ih =>
    obtain ⟨t, ht, hrun⟩ := run_cons_iff.mp hrun
    obtain ⟨hI, hlt⟩ := hstep s e t hs ht
    have hrest : es.length + μ u ≤ μ t := ih hI hrun
    rw [List.length_cons]
    omega

/-- Where something is enabled until all is done, some run gets there. -/
theorem exists_run_of_enabled {Done : σ → Prop}
    (hstep : ∀ s e t, I s → step s e = some t → I t ∧ μ t < μ s)
    (henabled : ∀ s, I s → Done s ∨ ∃ e, (step s e).isSome = true) {s : σ} (hs : I s) :
    ∃ es u, run step s es = some u ∧ Done u := by
  induction hn : μ s using Nat.strong_induction_on generalizing s with
  | _ n ih =>
    rcases henabled s hs with hdone | ⟨e, he⟩
    · exact ⟨[], s, rfl, hdone⟩
    · obtain ⟨t, ht⟩ := Option.isSome_iff_exists.mp he
      obtain ⟨hI, hlt⟩ := hstep s e t hs ht
      obtain ⟨es, u, hrun, hdone⟩ := ih (μ t) (hn ▸ hlt) hI rfl
      exact ⟨e :: es, u, by rw [run_cons_of_step ht, hrun], hdone⟩

end

/-! ## What a run costs -/

section
variable {M : Type*} [AddMonoid M] {cost : σ → ε → M}

def total (step : σ → ε → Option σ) (cost : σ → ε → M) : σ → List ε → M
  | _, [] => 0
  | s, e :: es => cost s e + (step s e).elim 0 fun t => total step cost t es

theorem total_cons_of_step {s t : σ} {e : ε} (h : step s e = some t) (es : List ε) :
    total step cost s (e :: es) = cost s e + total step cost t es := by
  rw [total, h, Option.elim_some]

theorem run_total {D : M → σ → Prop}
    (hstep : ∀ m s e t, D m s → step s e = some t → D (m + cost s e) t) {m : M} {s u : σ}
    {es : List ε} (hs : D m s) (hrun : run step s es = some u) :
    D (m + total step cost s es) u := by
  induction es generalizing s m with
  | nil =>
    obtain rfl : s = u := by simpa using hrun
    rwa [total, add_zero]
  | cons e es ih =>
    obtain ⟨t, ht, hrun⟩ := run_cons_iff.mp hrun
    rw [total_cons_of_step ht, ← add_assoc]
    exact ih (hstep m s e t hs ht) hrun

end

/-! ## Simulation

`f` maps the states of one system to those of another, `g` its events; `I` is an
invariant of the first that the simulation may use. -/

section
variable {τ δ : Type*} {step' : τ → δ → Option τ} {f : σ → τ} {g : ε → δ} {I : σ → Prop}

theorem run_simulation
    (hstep : ∀ s e t, I s → step s e = some t → I t ∧ step' (f s) (g e) = some (f t))
    {s u : σ} {es : List ε} (hs : I s) (hrun : run step s es = some u) :
    run step' (f s) (es.map g) = some (f u) := by
  induction es generalizing s with
  | nil =>
    obtain rfl : s = u := by simpa using hrun
    rfl
  | cons e es ih =>
    obtain ⟨t, ht, hrun⟩ := run_cons_iff.mp hrun
    obtain ⟨hI, ht'⟩ := hstep s e t hs ht
    rw [List.map_cons, run_cons_of_step ht']
    exact ih hI hrun

theorem allSteps_simulation {P : σ → ε → Prop} {P' : τ → δ → Prop}
    (hstep : ∀ s e t, I s → step s e = some t → I t ∧ step' (f s) (g e) = some (f t))
    (hP : ∀ s e, P s e ↔ P' (f s) (g e))
    {s u : σ} {es : List ε} (hs : I s) (hrun : run step s es = some u) :
    AllSteps step P s es ↔ AllSteps step' P' (f s) (es.map g) := by
  induction es generalizing s with
  | nil => exact Iff.rfl
  | cons e es ih =>
    obtain ⟨t, ht, hrun⟩ := run_cons_iff.mp hrun
    obtain ⟨hI, ht'⟩ := hstep s e t hs ht
    simp only [AllSteps, List.map_cons, ht, ht', Option.mem_def, Option.some.injEq,
      forall_eq', hP s e, ih hI hrun]

end

end Runs
