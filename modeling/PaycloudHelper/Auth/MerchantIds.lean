import Mathlib
import PaycloudHelper.Auth.Revocation

/-!
# Integer merchant ids

An integer that fits no `i64` is tried again as a double. The doubles next to 2^63 are 2048
apart above it, and the range test lets 2^63 itself pass.
-/

namespace PaycloudHelper.Auth

open ParseInt Redis
open JsonValues (Json Number)
open Words (i64Max)

theorem roundToEven_range {n : ℕ} (hlo : 2 ^ 63 ≤ n) (hhi : n < 2 ^ 64) :
    2 ^ 63 ≤ roundToEven 53 n ∧ (roundToEven 53 n ≤ 2 ^ 63 ↔ n ≤ 2 ^ 63 + 1024) := by
  have hlog : n.log2 = 63 := (Nat.log2_eq_iff (by omega)).mpr ⟨hlo, hhi⟩
  unfold roundToEven
  rw [hlog]
  norm_num
  split_ifs <;> omega

theorem F64.ofInt_natCast {n : ℕ} (hpos : 0 < n) :
    F64.ofInt n = .finite (roundToEven 53 n : ℕ) := by
  have hsign : ((n : ℤ).sign : ℚ) = 1 := by
    rw [Int.sign_eq_one_of_pos (by omega)]
    norm_num
  rw [F64.ofInt, hsign, one_mul, Int.natAbs_natCast]

theorem f64ToI64_natCast (m : ℕ) :
    f64ToI64 (.finite (m : ℚ)) = if m ≤ 2 ^ 63 then some (min (m : ℤ) i64Max) else none := by
  have hle : (m : ℚ) ≤ 2 ^ 63 ↔ m ≤ 2 ^ 63 := by exact_mod_cast Iff.rfl
  have hge : (-2 ^ 63 : ℚ) ≤ m := (by norm_num : (-2 ^ 63 : ℚ) ≤ 0).trans (Nat.cast_nonneg m)
  simp [f64ToI64, hle, hge]

theorem f64ToI64_ofInt {n : ℕ} (hlo : 2 ^ 63 ≤ n) (hhi : n < 2 ^ 64) :
    f64ToI64 (.ofInt n) = if n ≤ 2 ^ 63 + 1024 then some i64Max else none := by
  obtain ⟨hge, hle⟩ := roundToEven_range hlo hhi
  have hmin : min (roundToEven 53 n : ℤ) i64Max = i64Max := min_eq_right (by unfold i64Max; omega)
  rw [F64.ofInt_natCast (by omega), f64ToI64_natCast, hmin]
  simp only [hle]

/-- Halfway from 2^63 to the next double; it is rounded down. -/
def halfway : ℤ := 2 ^ 63 + 1024

structure JsonInteger where
  value : ℤ
  lo : -2 ^ 63 ≤ value
  hi : value < 2 ^ 64

def JsonInteger.json (n : JsonInteger) : Json F64 := .number (.int n.value n.lo n.hi)

def JsonInteger.claims (n : JsonInteger) (rest : List (String × Json F64)) :
    List (String × Json F64) :=
  ("MerchantId", n.json) :: rest

def JsonInteger.keyRead (n : JsonInteger) (rest : List (String × Json F64)) : Option String :=
  (merchantId (n.claims rest)).map revokeTokenKey

theorem merchantId_integer (n : JsonInteger) (rest : List (String × Json F64)) :
    merchantId (n.claims rest) =
      if n.value ≤ i64Max then some n.value
      else if n.value ≤ halfway then some i64Max else none := by
  have hlookup : (n.claims rest).lookup "MerchantId" = some n.json := by
    simp [JsonInteger.claims]
  unfold merchantId
  rw [hlookup]
  by_cases hfits : n.value ≤ i64Max
  · simp [JsonInteger.json, asI64, hfits]
  · have hlo : 2 ^ 63 ≤ n.value.toNat := by
      unfold i64Max at hfits
      omega
    have hhi : n.value.toNat < 2 ^ 64 := by
      have hi := n.hi
      omega
    have hcast : (n.value.toNat : ℤ) = n.value := by omega
    have hdouble := f64ToI64_ofInt hlo hhi
    rw [hcast] at hdouble
    have htry : i64TryFrom n.value.toNat = none := by
      unfold i64TryFrom
      rw [hcast, if_neg hfits]
    have hpos : 0 ≤ n.value := by omega
    have hnear : n.value.toNat ≤ 2 ^ 63 + 1024 ↔ n.value ≤ halfway := by
      unfold halfway
      omega
    simp only [hnear] at hdouble
    simp [JsonInteger.json, asI64, asU64, asF64, asStr, hfits, hpos, htry, hdouble]

theorem revokeTokenKey_inj {a b : ℤ} : revokeTokenKey a = revokeTokenKey b ↔ a = b := by
  simp [revokeTokenKey]

def ReadExactly (n : JsonInteger) (rest : List (String × Json F64)) : Prop :=
  merchantId (n.claims rest) = if n.value ≤ i64Max then some n.value else none

def ShareKey (n m : JsonInteger) (rest rest' : List (String × Json F64)) : Prop :=
  ∃ key, n.keyRead rest = some key ∧ m.keyRead rest' = some key

/-- The integers above `i64::MAX` that are nearest to 2^63 among the doubles. -/
def TakenForMax (n : JsonInteger) : Prop := i64Max < n.value ∧ n.value ≤ halfway

theorem readExactly_iff (n : JsonInteger) (rest : List (String × Json F64)) :
    ReadExactly n rest ↔ ¬ TakenForMax n := by
  unfold ReadExactly TakenForMax
  rw [merchantId_integer]
  split_ifs with hfits hnear
  · simp [hfits]
  · simp [not_le.mp hfits, hnear]
  · simp [hnear]

theorem keyRead_eq_some {n : JsonInteger} {rest : List (String × Json F64)} {key : String} :
    n.keyRead rest = some key ↔
      key = revokeTokenKey (min n.value i64Max) ∧ n.value ≤ halfway := by
  unfold JsonInteger.keyRead
  rw [merchantId_integer]
  split_ifs with hfits hnear
  · have hle : n.value ≤ halfway := hfits.trans (by decide)
    simp [min_eq_left hfits, hle, eq_comm]
  · simp [min_eq_right (not_le.mp hfits).le, hnear, eq_comm]
  · simp [hnear]

theorem shareKey_iff (n m : JsonInteger) (rest rest' : List (String × Json F64)) :
    ShareKey n m rest rest' ↔ min n.value i64Max = min m.value i64Max ∧
      n.value ≤ halfway ∧ m.value ≤ halfway := by
  simp only [ShareKey, keyRead_eq_some]
  constructor
  · rintro ⟨key, ⟨rfl, hn⟩, hkey, hm⟩
    exact ⟨revokeTokenKey_inj.mp hkey, hn, hm⟩
  · rintro ⟨heq, hn, hm⟩
    exact ⟨_, ⟨rfl, hn⟩, by rw [heq], hm⟩

/-- An integer is read exactly if and only if it is not taken for `i64::MAX`, and two
integers have their own entries if and only if not both are `i64::MAX` or taken for it. -/
theorem merchant_ids_distinct_iff (n m : JsonInteger) (rest rest' : List (String × Json F64)) :
    (ReadExactly n rest ↔ ¬ TakenForMax n) ∧
      ((ShareKey n m rest rest' → n.value = m.value) ↔
        (n.value = i64Max ∨ TakenForMax n → m.value = i64Max ∨ TakenForMax m →
          n.value = m.value)) := by
  refine ⟨readExactly_iff n rest, ?_⟩
  rw [shareKey_iff]
  unfold TakenForMax i64Max halfway
  omega

/-- The token of merchant 2^63 reads the entry of merchant 2^63 - 1. -/
theorem next_merchant_shares :
    ¬ (ShareKey ⟨2 ^ 63, by decide, by decide⟩ ⟨2 ^ 63 - 1, by decide, by decide⟩ [] [] →
      (2 ^ 63 : ℤ) = 2 ^ 63 - 1) := by
  rw [shareKey_iff]
  decide

end PaycloudHelper.Auth
