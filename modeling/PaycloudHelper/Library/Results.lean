import Mathlib

/-!
# Results of fallible code

A computation that can fail succeeds exactly if each of its steps does.
-/

namespace Results

variable {ε α β : Type}

theorem bind_eq_ok {e : Except ε α} {k : α → Except ε β} {y : β} :
    e >>= k = .ok y ↔ ∃ x, e = .ok x ∧ k x = .ok y := by
  cases e with
  | ok x => simp [bind, Except.bind]
  | error _ => simp [bind, Except.bind]

theorem map_eq_ok {f : α → β} {e : Except ε α} {y : β} :
    e.map f = .ok y ↔ ∃ x, e = .ok x ∧ f x = y := by
  cases e <;> simp [Except.map]

theorem eq_ok_iff {e : Except ε α} {x y : α} :
    e = .ok y ↔ (∃ z, e = .ok z) ∧ e.toOption.getD x = y := by
  cases e with
  | ok z => simp [Except.toOption]
  | error _ => simp

theorem mem_of_mapM_eq_ok {f : α → Except ε β} {xs : List α} {ys : List β}
    (h : xs.mapM f = .ok ys) {y : β} (hy : y ∈ ys) : ∃ x ∈ xs, f x = .ok y := by
  induction xs generalizing ys with
  | nil =>
    obtain rfl := Except.ok.inj h
    cases hy
  | cons x xs ih =>
    rw [List.mapM_cons] at h
    obtain ⟨z, hz, h⟩ := bind_eq_ok.mp h
    obtain ⟨zs, hzs, h⟩ := bind_eq_ok.mp h
    obtain rfl := Except.ok.inj h
    rcases List.mem_cons.mp hy with rfl | hy
    · exact ⟨x, List.mem_cons_self, hz⟩
    · obtain ⟨w, hw, hwy⟩ := ih hzs hy
      exact ⟨w, List.mem_cons_of_mem x hw, hwy⟩

end Results
