import Mathlib

/-!
# Tables of numbered slots

A list whose entries are named by their position, updated one slot at a time. What
is counted over the table changes by what the slot contributes.
-/

namespace Slots

variable {α : Type*} {l : List α} {i : ℕ} {a b : α}

theorem forall_mem_set {P : α → Prop} (hl : ∀ x ∈ l, P x) (hb : P b) : ∀ x ∈ l.set i b, P x := by
  intro x hx
  rcases List.mem_or_eq_of_mem_set hx with hx | rfl
  · exact hl x hx
  · exact hb

theorem forall_mem_concat {P : α → Prop} (hl : ∀ x ∈ l, P x) (hb : P b) : ∀ x ∈ l ++ [b], P x := by
  intro x hx
  rcases List.mem_append.mp hx with hx | hx
  · exact hl x hx
  · rwa [List.mem_singleton.mp hx]

theorem getElem?_set_cases {j : ℕ} {x : α} (h : (l.set i b)[j]? = some x) :
    (j = i ∧ x = b) ∨ (j ≠ i ∧ l[j]? = some x) := by
  by_cases hij : i = j
  · subst hij
    have hlt : i < (l.set i b).length := (List.getElem?_eq_some_iff.mp h).1
    rw [List.getElem?_set_self (by simpa using hlt)] at h
    exact Or.inl ⟨rfl, (Option.some.inj h).symm⟩
  · rw [List.getElem?_set_ne hij] at h
    exact Or.inr ⟨Ne.symm hij, h⟩

theorem getElem?_concat_cases {j : ℕ} {x : α} (h : (l ++ [b])[j]? = some x) :
    l[j]? = some x ∨ (j = l.length ∧ x = b) := by
  rcases lt_or_ge j l.length with hlt | hge
  · rw [List.getElem?_append_left hlt] at h
    exact Or.inl h
  · rw [List.getElem?_append_right hge, List.getElem?_singleton] at h
    split_ifs at h with hj
    exact Or.inr ⟨by omega, (Option.some.inj h).symm⟩

theorem getElem?_of_prefix {l' : List α} (h : l <+: l') (hi : l[i]? = some a) : l'[i]? = some a := by
  obtain ⟨hlt, rfl⟩ := List.getElem?_eq_some_iff.mp hi
  exact List.prefix_iff_getElem?.mp h i hlt

theorem countP_set {p : α → Bool} (h : l[i]? = some a) :
    (l.set i b).countP p + (if p a = true then 1 else 0) =
      l.countP p + (if p b = true then 1 else 0) := by
  obtain ⟨hi, rfl⟩ := List.getElem?_eq_some_iff.mp h
  have hle : (if p l[i] = true then 1 else 0) ≤ l.countP p := by
    split_ifs with hpa
    · exact List.countP_pos_iff.mpr ⟨l[i], List.getElem_mem hi, hpa⟩
    · exact Nat.zero_le _
  rw [List.countP_set hi]
  omega

theorem countP_set_same {p : α → Bool} (h : l[i]? = some a) (hp : p b = p a) :
    (l.set i b).countP p = l.countP p := by
  have hcount := countP_set (b := b) (p := p) h
  rw [hp] at hcount
  exact Nat.add_right_cancel hcount

theorem countP_set_false {p : α → Bool} (h : l[i]? = some a) (ha : p a = true) (hb : p b = false) :
    (l.set i b).countP p + 1 = l.countP p := by
  simpa [ha, hb] using countP_set (b := b) (p := p) h

theorem countP_set_true {p : α → Bool} (h : l[i]? = some a) (ha : p a = false) (hb : p b = true) :
    (l.set i b).countP p = l.countP p + 1 := by
  simpa [ha, hb] using countP_set (b := b) (p := p) h

theorem countP_set_pos {p : α → Bool} {j : ℕ} (hij : i ≠ j) (hj : l[j]? = some a)
    (ha : p a = true) : 0 < (l.set i b).countP p := by
  apply List.countP_pos_iff.mpr
  refine ⟨a, List.mem_of_getElem? (i := j) ?_, ha⟩
  rwa [List.getElem?_set_ne hij]

theorem sum_map_set {f : α → ℕ} (h : l[i]? = some a) :
    ((l.set i b).map f).sum + f a = (l.map f).sum + f b := by
  induction l generalizing i with
  | nil => simp at h
  | cons x l ih =>
    cases i with
    | zero =>
      obtain rfl : x = a := by simpa using h
      simp only [List.set_cons_zero, List.map_cons, List.sum_cons]
      omega
    | succ i =>
      have hrest := ih (by simpa using h)
      simp only [List.set_cons_succ, List.map_cons, List.sum_cons]
      omega

end Slots
