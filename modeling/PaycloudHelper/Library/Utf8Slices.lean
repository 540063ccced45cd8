import Mathlib

/-!
# Slices of UTF-8 text

A slice is cut at a number of bytes. There is none past the end of the text or inside a
character.
-/

namespace Utf8Slices

open String (utf8Len)

/-- `&text[..n]` -/
def sliceTo : ℕ → List Char → Option (List Char)
  | 0, _ => some []
  | _ + 1, [] => none
  | n + 1, c :: cs =>
    if c.utf8Size ≤ n + 1 then (sliceTo (n + 1 - c.utf8Size) cs).map (c :: ·) else none

/-- `&text[n..]` -/
def sliceFrom : ℕ → List Char → Option (List Char)
  | 0, text => some text
  | _ + 1, [] => none
  | n + 1, c :: cs => if c.utf8Size ≤ n + 1 then sliceFrom (n + 1 - c.utf8Size) cs else none

variable {x y : List Char}

theorem sliceTo_append : sliceTo (utf8Len x) (x ++ y) = some x := by
  induction x with
  | nil => cases y <;> rfl
  | cons c x ih =>
    obtain ⟨n, hn⟩ : ∃ n, utf8Len x + c.utf8Size = n + 1 :=
      Nat.exists_eq_succ_of_ne_zero (Nat.add_pos_right _ c.utf8Size_pos).ne'
    have hrest : n + 1 - c.utf8Size = utf8Len x := by omega
    rw [String.utf8Len_cons, hn, List.cons_append, sliceTo, if_pos (by omega), hrest, ih]
    rfl

theorem sliceFrom_append : sliceFrom (utf8Len x) (x ++ y) = some y := by
  induction x with
  | nil => cases y <;> rfl
  | cons c x ih =>
    obtain ⟨n, hn⟩ : ∃ n, utf8Len x + c.utf8Size = n + 1 :=
      Nat.exists_eq_succ_of_ne_zero (Nat.add_pos_right _ c.utf8Size_pos).ne'
    have hrest : n + 1 - c.utf8Size = utf8Len x := by omega
    rw [String.utf8Len_cons, hn, List.cons_append, sliceFrom, if_pos (by omega), hrest, ih]

end Utf8Slices
