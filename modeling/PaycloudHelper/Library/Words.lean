import Mathlib

/-!
# Machine words

An unsigned word of `w` bits is a natural number below `2 ^ w`; `wrap` is what wrapping
arithmetic keeps of a result and `saturate` what saturating arithmetic keeps of it. A
duration is a natural number of nanoseconds.
-/

namespace Words

def wrap (w n : ℕ) : ℕ := n % 2 ^ w

def saturate (w n : ℕ) : ℕ := min n (2 ^ w - 1)

def i64Max : ℤ := 2 ^ 63 - 1

def u32Max : ℕ := 2 ^ 32 - 1

def u64Max : ℕ := 2 ^ 64 - 1

def durationMax : ℕ := u64Max * 10 ^ 9 + 999999999

theorem wrap_of_lt {w n : ℕ} (h : n < 2 ^ w) : wrap w n = n := Nat.mod_eq_of_lt h

theorem wrap_le (w n : ℕ) : wrap w n ≤ n := Nat.mod_le n _

theorem wrap_succ (w n : ℕ) : wrap w (wrap w n + 1) = wrap w (n + 1) := Nat.mod_add_mod n _ 1

theorem saturate_of_lt {w n : ℕ} (h : n < 2 ^ w) : saturate w n = n :=
  min_eq_left (Nat.le_sub_one_of_lt h)

end Words
