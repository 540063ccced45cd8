import Mathlib

/-!
# Splitting at a separator

The first and the last occurrence of a separator, and what the parts between separators
start with. The parts themselves are `List.splitOn`.
-/

namespace Splitting

variable {α : Type} {sep l x y w : List α} {d : α}

theorem prefix_append_cons_iff (hd : d ∉ w) : w <+: x ++ d :: y ↔ w <+: x := by
  constructor
  · intro h
    rcases List.prefix_or_prefix_of_prefix h (List.prefix_append x (d :: y)) with h' | ⟨rest, rfl⟩
    · exact h'
    · cases rest with
      | nil => simp
      | cons e rest =>
        obtain ⟨rfl, -⟩ := List.cons_prefix_cons.mp ((List.prefix_append_right_inj x).mp h)
        simp at hd
  · exact fun h => h.trans (List.prefix_append x _)

theorem append_cons_prefix_iff (hx : d ∉ x) :
    (∃ z, z ++ d :: w <+: x ++ d :: y) ↔ w <+: y ∨ ∃ z, z ++ d :: w <+: y := by
  constructor
  · rintro ⟨z, t, h⟩
    rw [List.append_assoc, List.append_eq_append_iff] at h
    rcases h with ⟨a, rfl, h⟩ | ⟨a, rfl, h⟩
    · cases a with
      | nil => exact Or.inl ⟨t, (List.cons.inj h).2⟩
      | cons e a =>
        obtain ⟨rfl, -⟩ := List.cons.inj h
        simp at hx
    · cases a with
      | nil => exact Or.inl ⟨t, (List.cons.inj h).2.symm⟩
      | cons e a =>
        obtain ⟨-, htail⟩ := List.cons.inj h
        exact Or.inr ⟨a, t, (List.append_assoc ..).trans htail.symm⟩
  · rintro (h | ⟨z, h⟩)
    · exact ⟨x, (List.prefix_append_right_inj x).mpr (List.cons_prefix_cons.mpr ⟨rfl, h⟩)⟩
    · refine ⟨x ++ d :: z, ?_⟩
      rw [List.append_assoc]
      exact (List.prefix_append_right_inj x).mpr (List.cons_prefix_cons.mpr ⟨rfl, h⟩)

variable [DecidableEq α]

def splitOnce (sep : List α) : List α → Option (List α × List α)
  | [] => if sep = [] then some ([], []) else none
  | a :: l =>
    if sep.isPrefixOf (a :: l) then some ([], (a :: l).drop sep.length)
    else (splitOnce sep l).map fun (x, y) => (a :: x, y)

def rsplitOnce (d : α) : List α → Option (List α × List α)
  | [] => none
  | a :: l =>
    match rsplitOnce d l with
    | some (x, y) => some (a :: x, y)
    | none => if a = d then some ([], l) else none

theorem eq_of_splitOnce (h : splitOnce sep l = some (x, y)) : l = x ++ sep ++ y := by
  induction l generalizing x with
  | nil =>
    unfold splitOnce at h
    split_ifs at h with hsep
    obtain ⟨rfl, rfl⟩ := Prod.mk.inj (Option.some.inj h)
    simp [hsep]
  | cons a l ih =>
    unfold splitOnce at h
    split_ifs at h with hprefix
    · obtain ⟨rfl, rfl⟩ := Prod.mk.inj (Option.some.inj h)
      exact (List.prefix_iff_eq_append.mp (List.isPrefixOf_iff_prefix.mp hprefix)).symm
    · obtain ⟨⟨x', y'⟩, hrest, heq⟩ := Option.map_eq_some_iff.mp h
      obtain ⟨rfl, rfl⟩ := Prod.mk.inj heq
      rw [ih hrest]
      rfl

theorem splitOnce_singleton_of_append (hx : d ∉ x) : splitOnce [d] (x ++ d :: y) = some (x, y) := by
  induction x with
  | nil => simp [splitOnce]
  | cons a x ih =>
    obtain ⟨hda, hx⟩ := not_or.mp (List.mem_cons.not.mp hx)
    simp [splitOnce, hda, ih hx]

theorem splitOnce_singleton_of_notMem (hl : d ∉ l) : splitOnce [d] l = none := by
  induction l with
  | nil => simp [splitOnce]
  | cons a l ih =>
    obtain ⟨hda, hl⟩ := not_or.mp (List.mem_cons.not.mp hl)
    simp [splitOnce, hda, ih hl]

theorem rsplitOnce_eq_none : rsplitOnce d l = none ↔ d ∉ l := by
  induction l with
  | nil => simp [rsplitOnce]
  | cons a l ih =>
    unfold rsplitOnce
    cases hrest : rsplitOnce d l with
    | none => simp [ih.mp hrest, eq_comm]
    | some parts =>
      have hmem : d ∈ l := by
        by_contra hnone
        rw [ih.mpr hnone] at hrest
        cases hrest
      simp [hmem]

theorem rsplitOnce_of_append (hy : d ∉ y) : rsplitOnce d (x ++ d :: y) = some (x, y) := by
  induction x with
  | nil => simp [rsplitOnce, rsplitOnce_eq_none.mpr hy]
  | cons a x ih => simp [rsplitOnce, ih]

theorem eq_of_rsplitOnce (h : rsplitOnce d l = some (x, y)) : l = x ++ d :: y ∧ d ∉ y := by
  induction l generalizing x with
  | nil => cases h
  | cons a l ih =>
    unfold rsplitOnce at h
    cases hrest : rsplitOnce d l with
    | none =>
      rw [hrest] at h
      dsimp only at h
      split_ifs at h with had
      obtain ⟨rfl, rfl⟩ := Prod.mk.inj (Option.some.inj h)
      exact ⟨by simp [had], rsplitOnce_eq_none.mp hrest⟩
    | some parts =>
      rw [hrest] at h
      obtain ⟨rfl, rfl⟩ := Prod.mk.inj (Option.some.inj h)
      obtain ⟨hl, hy⟩ := ih hrest
      exact ⟨by rw [hl]; rfl, hy⟩

theorem rsplitOnce_append (h : rsplitOnce d l = some (x, y)) (w : List α) :
    rsplitOnce d (w ++ l) = some (w ++ x, y) := by
  obtain ⟨rfl, hy⟩ := eq_of_rsplitOnce h
  rw [← List.append_assoc]
  exact rsplitOnce_of_append hy

/-! ## What the parts start with -/

/-- A part starts with a word where the word is at the start or after a separator. -/
theorem exists_splitOn_prefix_iff (hd : d ∉ w) :
    (∃ v ∈ l.splitOn d, w <+: v) ↔ w <+: l ∨ ∃ z, z ++ d :: w <+: l := by
  induction hn : l.length using Nat.strong_induction_on generalizing l with
  | _ n ih =>
    by_cases hmem : d ∈ l
    · obtain ⟨x, y, rfl, hx⟩ := List.eq_append_cons_of_mem hmem
      have hlt : y.length < n := by
        rw [← hn, List.length_append, List.length_cons]
        omega
      rw [List.splitOn_append_cons_self_of_not_mem hx]
      simp only [List.mem_cons, exists_eq_or_imp, ih _ hlt rfl, prefix_append_cons_iff hd,
        append_cons_prefix_iff hx]
    · rw [List.splitOn_eq_singleton hmem]
      simp only [List.mem_singleton, exists_eq_left]
      refine (or_iff_left ?_).symm
      rintro ⟨z, hz⟩
      exact hmem (hz.subset (by simp))

/-! ## Lines -/

theorem splitOn_ended {ls : List (List α)} (h : ∀ l ∈ ls, d ∉ l) :
    (ls.flatMap (· ++ [d])).splitOn d = ls ++ [[]] := by
  induction ls with
  | nil => simp
  | cons l ls ih =>
    obtain ⟨hl, hls⟩ := List.forall_mem_cons.mp h
    rw [List.flatMap_cons, List.append_assoc, List.singleton_append,
      List.splitOn_append_cons_self_of_not_mem hl, ih hls, List.cons_append]

theorem notMem_of_mem_splitOn {v : List α} (h : v ∈ l.splitOn d) : d ∉ v := by
  induction hn : l.length using Nat.strong_induction_on generalizing l with
  | _ n ih =>
    by_cases hmem : d ∈ l
    · obtain ⟨x, y, rfl, hx⟩ := List.eq_append_cons_of_mem hmem
      rw [List.splitOn_append_cons_self_of_not_mem hx] at h
      rcases List.mem_cons.mp h with rfl | h
      · exact hx
      · refine ih y.length ?_ h rfl
        rw [← hn, List.length_append, List.length_cons]
        omega
    · rw [List.splitOn_eq_singleton hmem, List.mem_singleton] at h
      rwa [h]

end Splitting
