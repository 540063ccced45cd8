import Mathlib
import PaycloudHelper.Core.JsonMinify
import PaycloudHelper.Http.Response
import PaycloudHelper.Library.Delimited

/-!
# SNAP-BI signatures

The strings that are signed and the symmetric signatures over them. SHA-256,
HMAC-SHA512, base64 and the JSON validity pass are parameters.
-/

namespace PaycloudHelper.SnapBi

open Json Http Delimited
open JsonText (IsText concat)

structure Crypto where
  sha256 : List UInt8 → List UInt8
  hmacSha512 : List UInt8 → List UInt8 → List UInt8
  b64Encode : List UInt8 → String
  b64Decode : String → Option (List UInt8)
  ignoredAny : List UInt8 → Except String Unit

structure Request where
  method : String
  url : String
  token : String
  body : List UInt8
  ts : String
deriving DecidableEq, Repr

def utf8 (s : String) : List UInt8 := s.toByteArray.data.toList

section Strings
variable (c : Crypto)

/-- A body that does not minify is hashed as the empty one. -/
def minified (body : List UInt8) : List UInt8 := (jsonMinify c.ignoredAny body).toOption.getD []

def bodyDigest (body : List UInt8) : List UInt8 := c.sha256 (minified c body)

def stringToSign (d : Char) (r : Request) : String :=
  let blc := hexEncode (bodyDigest c r.body)
  s!"{r.method}{d}{r.url}{d}{r.token}{d}{blc}{d}{r.ts}"

def symmetricStringToSign (r : Request) : String := stringToSign c ':' r

def symmetricStringToSignV2 (r : Request) : String := stringToSign c '|' r

def asymmetricStringToSign (clientKey ts : String) : String := s!"{clientKey}|{ts}"

/-! ## Signing and verifying -/

def sign (sts : Request → String) (secret : List UInt8) (r : Request) : String :=
  c.b64Encode (c.hmacSha512 secret (utf8 (sts r)))

def verify (sts : Request → String) (secret : List UInt8) (r : Request) (sigB64 : String) : Bool :=
  let expected := c.hmacSha512 secret (utf8 (sts r))
  match c.b64Decode sigB64 with
  | none => false
  | some provided => expected == provided

def symmetricSign (secret : List UInt8) (r : Request) : String :=
  sign c (symmetricStringToSign c) secret r

def symmetricSignV2 (secret : List UInt8) (r : Request) : String :=
  sign c (symmetricStringToSignV2 c) secret r

def symmetricVerify (secret : List UInt8) (r : Request) (sigB64 : String) : Bool :=
  verify c (symmetricStringToSign c) secret r sigB64

def symmetricVerifyV2 (secret : List UInt8) (r : Request) (sigB64 : String) : Bool :=
  verify c (symmetricStringToSignV2 c) secret r sigB64

end Strings

/-! ## Hexadecimal digests -/

theorem hexDigit_injective : ∀ m < 16, ∀ n < 16, hexDigit m = hexDigit n → m = n := by decide

theorem hexDigit_no_delimiter : ∀ n < 16, hexDigit n ≠ ':' ∧ hexDigit n ≠ '|' := by decide

theorem hexEncode_injective : Function.Injective hexEncode := by
  intro bs cs h
  have hlist := String.ofList_injective h
  clear h
  induction bs generalizing cs with
  | nil =>
    cases cs with
    | nil => rfl
    | cons c cs => simp at hlist
  | cons b bs ih =>
    cases cs with
    | nil => simp at hlist
    | cons c cs =>
      simp only [List.flatMap_cons, List.cons_append, List.nil_append, List.cons.injEq] at hlist
      obtain ⟨hhigh, hlow, hrest⟩ := hlist
      have hb := b.toNat_lt
      have hc := c.toNat_lt
      have hdiv := hexDigit_injective _ (by omega) _ (by omega) hhigh
      have hmod := hexDigit_injective _ (Nat.mod_lt _ (by decide)) _ (Nat.mod_lt _ (by decide)) hlow
      obtain rfl : b = c := UInt8.toNat_inj.mp (by omega)
      rw [ih hrest]

theorem hexEncode_count {d : Char} (hd : d = ':' ∨ d = '|') (bs : List UInt8) :
    (hexEncode bs).toList.count d = 0 := by
  rw [List.count_eq_zero]
  intro hmem
  simp only [hexEncode, String.toList_ofList, List.mem_flatMap, List.mem_cons, List.not_mem_nil,
    or_false] at hmem
  obtain ⟨b, -, hb⟩ := hmem
  have hlt := b.toNat_lt
  have hhigh := hexDigit_no_delimiter (b.toNat / 16) (by omega)
  have hlow := hexDigit_no_delimiter (b.toNat % 16) (Nat.mod_lt _ (by decide))
  rcases hd with rfl | rfl <;> rcases hb with hb | hb
  · exact hhigh.1 hb.symm
  · exact hlow.1 hb.symm
  · exact hhigh.2 hb.symm
  · exact hlow.2 hb.symm

/-! ## What a string to sign determines -/

section Layout
variable {c : Crypto}

theorem toList_stringToSign (d : Char) (r : Request) :
    (stringToSign c d r).toList =
      joined d [r.method.toList, r.url.toList, r.token.toList,
        (hexEncode (bodyDigest c r.body)).toList] r.ts.toList := by
  simp [stringToSign, toString]

/-- The method, url and token hold as many delimiters in one request as in the other. -/
def SameCounts (d : Char) (r s : Request) : Prop :=
  r.method.toList.count d = s.method.toList.count d ∧
    r.url.toList.count d = s.url.toList.count d ∧ r.token.toList.count d = s.token.toList.count d

/-- The same request up to bodies of one digest. -/
def SameFields (c : Crypto) (r s : Request) : Prop :=
  r.method = s.method ∧ r.url = s.url ∧ r.token = s.token ∧
    bodyDigest c r.body = bodyDigest c s.body ∧ r.ts = s.ts

theorem stringToSign_eq_iff {d : Char} (hd : d = ':' ∨ d = '|') {r s : Request}
    (h : stringToSign c d r = stringToSign c d s) : SameFields c r s ↔ SameCounts d r s := by
  constructor
  · rintro ⟨hmethod, hurl, htoken, -, -⟩
    exact ⟨by rw [hmethod], by rw [hurl], by rw [htoken]⟩
  · rintro ⟨hmethod, hurl, htoken⟩
    have hjoined := congrArg String.toList h
    rw [toList_stringToSign, toList_stringToSign] at hjoined
    have hcounts := joined_inj hjoined (by
      simp only [List.map_cons, List.map_nil, hmethod, hurl, htoken, hexEncode_count hd])
    simp only [List.cons.injEq, String.toList_inj, and_true] at hcounts
    obtain ⟨⟨hmethod, hurl, htoken, hblc⟩, hts⟩ := hcounts
    exact ⟨hmethod, hurl, htoken, hexEncode_injective hblc, hts⟩

end Layout

end PaycloudHelper.SnapBi
