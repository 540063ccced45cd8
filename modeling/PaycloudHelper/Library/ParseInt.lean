import Mathlib
import PaycloudHelper.Library.Results

/-!
# Integers read from decimal text

How the standard library reads an integer of `bits` bits: an optional sign, then digits
until one is wrong or the value no longer fits.
-/

namespace ParseInt

open Results

inductive ParseIntError
  | empty
  | invalidDigit
  | posOverflow
  | negOverflow
deriving DecidableEq, Repr

def ParseIntError.text : ParseIntError → String
  | .empty => "cannot parse integer from empty string"
  | .invalidDigit => "invalid digit found in string"
  | .posOverflow => "number too large to fit in target type"
  | .negOverflow => "number too small to fit in target type"

def toDigit (c : Char) : Option ℕ :=
  if '0' ≤ c ∧ c ≤ '9' then some (c.toNat - '0'.toNat) else none

def digits (limit : ℕ) (overflow : ParseIntError) : ℕ → List Char → Except ParseIntError ℕ
  | n, [] => .ok n
  | n, c :: cs =>
    match toDigit c with
    | none => .error .invalidDigit
    | some d => if limit < n * 10 + d then .error overflow else digits limit overflow (n * 10 + d) cs

def parseUnsigned (bits : ℕ) (text : List Char) : Except ParseIntError ℕ :=
  match text with
  | [] => .error .empty
  | ['+'] | ['-'] => .error .invalidDigit
  | '+' :: cs => digits (2 ^ bits - 1) .posOverflow 0 cs
  | cs => digits (2 ^ bits - 1) .posOverflow 0 cs

def parseSigned (bits : ℕ) (text : List Char) : Except ParseIntError ℤ :=
  match text with
  | [] => .error .empty
  | ['+'] | ['-'] => .error .invalidDigit
  | '-' :: cs => (digits (2 ^ (bits - 1)) .negOverflow 0 cs).map fun n => -(n : ℤ)
  | '+' :: cs => (digits (2 ^ (bits - 1) - 1) .posOverflow 0 cs).map (↑)
  | cs => (digits (2 ^ (bits - 1) - 1) .posOverflow 0 cs).map (↑)

theorem digits_le {limit : ℕ} {overflow : ParseIntError} {n m : ℕ} {text : List Char}
    (hn : n ≤ limit) (h : digits limit overflow n text = .ok m) : m ≤ limit := by
  induction text generalizing n with
  | nil =>
    obtain rfl := Except.ok.inj h
    exact hn
  | cons c cs ih =>
    unfold digits at h
    split at h
    · cases h
    · split_ifs at h with hfits
      exact ih (not_lt.mp hfits) h

/-! ## The texts of a number -/

theorem toDigit_eq_some {c : Char} {d : ℕ} :
    toDigit c = some d ↔ c.isDigit = true ∧ c.toNat - '0'.toNat = d := by
  have hdigit : ('0' ≤ c ∧ c ≤ '9') ↔ c.isDigit = true := by
    simp [Char.isDigit, Char.le_def, UInt32.le_iff_toNat_le]
  simp only [toDigit, hdigit]
  split_ifs with h <;> simp [h]

theorem le_ofDigitChars (n : ℕ) (text : List Char) : n ≤ Nat.ofDigitChars 10 text n := by
  rw [Nat.ofDigitChars_eq_ofDigitChars_zero]
  exact (Nat.le_mul_of_pos_left n (by positivity)).trans (Nat.le_add_right _ _)

theorem digits_eq_ok {limit : ℕ} {overflow : ParseIntError} {n m : ℕ} {text : List Char}
    (hn : n ≤ limit) :
    digits limit overflow n text = .ok m ↔
      (∀ c ∈ text, c.isDigit = true) ∧ Nat.ofDigitChars 10 text n = m ∧ m ≤ limit := by
  induction text generalizing n with
  | nil =>
    simp only [digits, Except.ok.injEq, Nat.ofDigitChars_nil]
    exact ⟨fun h => ⟨by simp, h, h ▸ hn⟩, fun h => h.2.1⟩
  | cons c cs ih =>
    rw [digits, List.forall_mem_cons, Nat.ofDigitChars_cons]
    cases hd : toDigit c with
    | none =>
      have hnot : ¬ c.isDigit = true := fun h => by
        rw [toDigit_eq_some.mpr ⟨h, rfl⟩] at hd
        cases hd
      simp [hnot]
    | some d =>
      obtain ⟨hdigit, rfl⟩ := toDigit_eq_some.mp hd
      rw [Nat.mul_comm 10 n]
      dsimp only
      split_ifs with hfits
      · refine iff_of_false (by simp) ?_
        rintro ⟨-, rfl, hle⟩
        exact absurd ((le_ofDigitChars _ cs).trans hle) (not_le.mpr hfits)
      · simp only [ih (not_lt.mp hfits), hdigit, true_and]

/-- The texts of a number: its digits, with as many zeros in front, and maybe a sign. -/
theorem parseUnsigned_eq_ok {bits m : ℕ} {text : List Char} :
    parseUnsigned bits text = .ok m ↔
      ∃ ds, (text = ds ∨ text = '+' :: ds) ∧ ds ≠ [] ∧ (∀ c ∈ ds, c.isDigit = true) ∧
        Nat.ofDigitChars 10 ds 0 = m ∧ m ≤ 2 ^ bits - 1 := by
  have hplus : ¬ ('+' : Char).isDigit = true := by decide
  have hminus : ¬ ('-' : Char).isDigit = true := by decide
  unfold parseUnsigned
  split
  · simp
  · refine iff_of_false (by simp) ?_
    rintro ⟨ds, rfl | hds, hne, hdigits, -⟩
    · exact hplus (hdigits _ (by simp))
    · exact hne (List.cons.inj hds).2.symm
  · refine iff_of_false (by simp) ?_
    rintro ⟨ds, rfl | hds, hne, hdigits, -⟩
    · exact hminus (hdigits _ (by simp))
    · exact absurd (List.cons.inj hds).1 (by decide)
  · rename_i _ cs hcs
    rw [digits_eq_ok (Nat.zero_le _)]
    constructor
    · exact fun h => ⟨cs, Or.inr rfl, fun hnil => hcs (by rw [hnil]), h⟩
    · rintro ⟨ds, rfl | hds, hne, hdigits, h⟩
      · exact absurd (hdigits '+' (by simp)) hplus
      · obtain rfl := (List.cons.inj hds).2
        exact ⟨hdigits, h⟩
  · rename_i hempty hsign _ hcs
    rw [digits_eq_ok (Nat.zero_le _)]
    constructor
    · exact fun h => ⟨text, Or.inl rfl, hempty, h⟩
    · rintro ⟨ds, rfl | hds, hne, hdigits, h⟩
      · exact ⟨hdigits, h⟩
      · exact absurd hds (hcs ds)

theorem parseUnsigned_toString {bits n : ℕ} (hn : n < 2 ^ bits) :
    parseUnsigned bits (toString n).toList = .ok n := by
  rw [parseUnsigned_eq_ok]
  refine ⟨Nat.toDigits 10 n, Or.inl (by simp), Nat.toDigits_ne_nil, fun c hc => ?_,
    Nat.ofDigitChars_ten_toDigits, by omega⟩
  exact Nat.isDigit_of_mem_toDigits (by norm_num) (by norm_num) hc

theorem parseSigned_range {bits : ℕ} {text : List Char} {value : ℤ}
    (h : parseSigned bits text = .ok value) :
    -2 ^ (bits - 1) ≤ value ∧ value < 2 ^ (bits - 1) := by
  have hpos : 0 < 2 ^ (bits - 1) := Nat.two_pow_pos _
  have hcast : ((2 ^ (bits - 1) : ℕ) : ℤ) = 2 ^ (bits - 1) := by push_cast; rfl
  unfold parseSigned at h
  split at h
  · cases h
  · cases h
  · cases h
  · obtain ⟨n, hn, rfl⟩ := map_eq_ok.mp h
    obtain ⟨m, hm, hn⟩ := bind_eq_ok.mp hn
    obtain rfl := Except.ok.inj hn
    have hle : m ≤ 2 ^ (bits - 1) := digits_le (Nat.zero_le _) hm
    omega
  · obtain ⟨n, hn, rfl⟩ := map_eq_ok.mp h
    have hle : n ≤ 2 ^ (bits - 1) - 1 := digits_le (Nat.zero_le _) hn
    omega
  · obtain ⟨n, hn, rfl⟩ := map_eq_ok.mp h
    have hle : n ≤ 2 ^ (bits - 1) - 1 := digits_le (Nat.zero_le _) hn
    omega

end ParseInt
