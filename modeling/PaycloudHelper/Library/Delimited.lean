import Mathlib

/-!
# Fields joined by a delimiter

A text of fields, each followed by one delimiter, and a last part. The fields may hold
the delimiter themselves, so two records can have one text; they differ then in how many
delimiters a field holds.
-/

namespace Delimited

variable {α : Type}

def joined (d : α) (fields : List (List α)) (last : List α) : List α :=
  fields.foldr (fun field rest => field ++ d :: rest) last

@[simp] theorem joined_nil (d : α) (last : List α) : joined d [] last = last := rfl

@[simp] theorem joined_cons (d : α) (field : List α) (fields : List (List α)) (last : List α) :
    joined d (field :: fields) last = field ++ d :: joined d fields last := rfl

variable [DecidableEq α]

theorem append_cons_inj {d : α} {f g x y : List α} (h : f ++ d :: x = g ++ d :: y)
    (hcount : f.count d = g.count d) : f = g ∧ x = y := by
  induction f generalizing g with
  | nil =>
    cases g with
    | nil => exact ⟨rfl, List.tail_eq_of_cons_eq h⟩
    | cons a g =>
      obtain rfl : d = a := List.head_eq_of_cons_eq h
      simp at hcount
  | cons a f ih =>
    cases g with
    | nil =>
      obtain rfl : a = d := List.head_eq_of_cons_eq h
      simp at hcount
    | cons b g =>
      obtain ⟨rfl, hrest⟩ := List.cons.inj h
      obtain ⟨rfl, hxy⟩ := ih hrest (by simpa [List.count_cons] using hcount)
      exact ⟨rfl, hxy⟩

theorem joined_inj {d : α} {fs gs : List (List α)} {x y : List α}
    (h : joined d fs x = joined d gs y) (hcount : fs.map (·.count d) = gs.map (·.count d)) :
    fs = gs ∧ x = y := by
  induction fs generalizing gs with
  | nil =>
    obtain rfl : gs = [] := List.map_eq_nil_iff.mp hcount.symm
    exact ⟨rfl, h⟩
  | cons f fs ih =>
    cases gs with
    | nil => cases hcount
    | cons g gs =>
      obtain ⟨hf, hfs⟩ := List.cons.inj hcount
      obtain ⟨rfl, hrest⟩ := append_cons_inj h hf
      obtain ⟨rfl, hxy⟩ := ih hrest hfs
      exact ⟨rfl, hxy⟩

end Delimited
