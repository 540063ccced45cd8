import Mathlib

/-!
# Rounding to a natural number

To the nearest one, with ties to even.
-/

namespace Rounding

section
variable {α : Type*} [Field α] [LinearOrder α] [IsStrictOrderedRing α] [FloorSemiring α]

def roundTiesEven (q : α) : ℕ :=
  let n := ⌊q⌋₊
  if q < n + 1 / 2 ∨ (q = n + 1 / 2 ∧ Even n) then n else n + 1

omit [IsStrictOrderedRing α] in
theorem roundTiesEven_mem (q : α) :
    ⌊q⌋₊ ≤ roundTiesEven q ∧ roundTiesEven q ≤ ⌊q⌋₊ + 1 := by
  unfold roundTiesEven
  dsimp only
  split_ifs
  · exact ⟨le_refl _, Nat.le_succ _⟩
  · exact ⟨Nat.le_succ _, le_refl _⟩

theorem roundTiesEven_le {q : α} {m : ℕ} (h : q ≤ m) : roundTiesEven q ≤ m := by
  have hfloor : ⌊q⌋₊ ≤ m := Nat.floor_le_of_le h
  rcases hfloor.lt_or_eq with hlt | heq
  · exact (roundTiesEven_mem q).2.trans hlt
  · have hhalf : q < (⌊q⌋₊ : α) + 1 / 2 := by
      rw [heq]
      exact h.trans_lt (lt_add_of_pos_right _ one_half_pos)
    unfold roundTiesEven
    rw [if_pos (Or.inl hhalf)]
    exact hfloor

theorem roundTiesEven_le_iff {q : α} (hq : 0 ≤ q) {m : ℕ} (hodd : Odd m) :
    roundTiesEven q ≤ m ↔ q < m + 1 / 2 := by
  obtain ⟨hlo, hhi⟩ := roundTiesEven_mem q
  rcases lt_trichotomy ⌊q⌋₊ m with hlt | heq | hgt
  · have hq : q < m := (Nat.floor_lt hq).mp hlt
    exact iff_of_true (hhi.trans hlt) (hq.trans (lt_add_of_pos_right _ one_half_pos))
  · have hnot : ¬ Even m := Nat.not_even_iff_odd.mpr hodd
    unfold roundTiesEven
    dsimp only
    rw [heq]
    split_ifs with hdown
    · exact iff_of_true le_rfl (hdown.resolve_right fun h => hnot h.2)
    · exact iff_of_false (Nat.not_succ_le_self m) fun h => hdown (Or.inl h)
  · have hnext : (m : α) + 1 ≤ q := by
      have hle := (Nat.le_floor_iff hq).mp (Nat.succ_le_of_lt hgt)
      push_cast at hle
      exact hle
    have hhalf : (m : α) + 1 / 2 ≤ q := (by linarith [one_half_lt_one (α := α)])
    exact iff_of_false (not_le.mpr (hgt.trans_le hlo)) (not_lt.mpr hhalf)

end

end Rounding
