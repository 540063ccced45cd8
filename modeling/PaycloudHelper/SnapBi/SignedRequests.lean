import Mathlib
import PaycloudHelper.SnapBi.Signature

/-!
# What a signature binds

A signature is accepted for exactly the requests with the signed string. The string
fixes the body up to whitespace between tokens, except that all malformed bodies are
one. It fixes the other fields only together with the number of delimiters in each.
-/

namespace PaycloudHelper.SnapBi

open Json Http Delimited
open JsonText (IsText concat)

section Accepting
variable {c : Crypto}

theorem utf8_injective : Function.Injective utf8 := by
  intro s t h
  apply String.toByteArray_inj.mp
  exact ByteArray.ext (Array.toList_inj.mp h)

theorem verify_sign (hmac : ∀ secret, Function.Injective (c.hmacSha512 secret))
    (hb64 : ∀ bs, c.b64Decode (c.b64Encode bs) = some bs) (sts : Request → String)
    (secret : List UInt8) (r s : Request) :
    verify c sts secret s (sign c sts secret r) = true ↔ sts s = sts r := by
  simp only [verify, sign, hb64, beq_iff_eq]
  exact ⟨fun h => utf8_injective (hmac secret h), fun h => by rw [h]⟩

/-! ## Bodies -/

def WellFormed (c : Crypto) (body : List UInt8) : Prop := c.ignoredAny body = .ok ()

theorem jsonMinify_wellFormed {body : List UInt8} (h : WellFormed c body) :
    jsonMinify c.ignoredAny body = .ok (compactBytes body) := by
  unfold WellFormed at h
  simp [jsonMinify, h]

theorem minified_wellFormed {body : List UInt8} (h : WellFormed c body) :
    minified c body = compactBytes body := by
  unfold minified
  rw [jsonMinify_wellFormed h]
  rfl

theorem minified_malformed {body : List UInt8} (h : ¬ WellFormed c body) :
    minified c body = [] := by
  unfold WellFormed at h
  unfold minified jsonMinify
  split
  · rfl
  · contradiction

theorem minified_ne_nil (hvalid : ∀ raw, c.ignoredAny raw = .ok () → ∃ ts, IsText ts raw)
    {body : List UInt8} (h : WellFormed c body) : minified c body ≠ [] := by
  obtain ⟨ts, htext⟩ := hvalid body h
  rw [minified_wellFormed h, compactBytes_spaced htext.spaced]
  exact htext.value.concat_ne_nil

theorem bodyDigest_eq_iff (hsha : Function.Injective c.sha256)
    (hvalid : ∀ raw, c.ignoredAny raw = .ok () → ∃ ts, IsText ts raw) (b b2 : List UInt8) :
    bodyDigest c b = bodyDigest c b2 ↔
      (WellFormed c b ∧ WellFormed c b2 ∧
        jsonMinify c.ignoredAny b = jsonMinify c.ignoredAny b2) ∨
      (¬ WellFormed c b ∧ ¬ WellFormed c b2) := by
  refine hsha.eq_iff.trans ?_
  by_cases hb : WellFormed c b <;> by_cases hb2 : WellFormed c b2
  · simp [hb, hb2, minified_wellFormed, jsonMinify_wellFormed]
  · simp [hb, hb2, minified_malformed hb2, minified_ne_nil hvalid hb]
  · simp [hb, hb2, minified_malformed hb, (minified_ne_nil hvalid hb2).symm]
  · simp [hb, hb2, minified_malformed]

theorem stringToSign_body (d : Char) (r : Request) (hd : d = ':' ∨ d = '|') (b2 : List UInt8) :
    stringToSign c d { r with body := b2 } = stringToSign c d r ↔
      bodyDigest c b2 = bodyDigest c r.body := by
  constructor
  · intro h
    have hfields := (stringToSign_eq_iff hd h).mpr ⟨rfl, rfl, rfl⟩
    exact hfields.2.2.2.1
  · intro h
    simp only [stringToSign, h]

end Accepting

/-! ## The suite on a sample request

The digests, codes and signatures of the requests used below are the real ones. -/

def emptyDigest : List UInt8 :=
  [0xE3, 0xB0, 0xC4, 0x42, 0x98, 0xFC, 0x1C, 0x14, 0x9A, 0xFB, 0xF4, 0xC8, 0x99, 0x6F, 0xB9, 0x24,
    0x27, 0xAE, 0x41, 0xE4, 0x64, 0x9B, 0x93, 0x4C, 0xA4, 0x95, 0x99, 0x1B, 0x78, 0x52, 0xB8, 0x55]

def emptyMac : List UInt8 :=
  [0x2F, 0xF9, 0x08, 0xED, 0xEC, 0x13, 0x0A, 0xFD, 0x22, 0xB1, 0x67, 0x8F, 0xA0, 0xD9, 0xFD, 0x1A,
    0xC6, 0x71, 0x62, 0xE5, 0xC4, 0xEC, 0xE3, 0xC8, 0x62, 0xD7, 0xD3, 0x3C, 0x32, 0x82, 0x4E, 0x7B,
    0xD7, 0x7E, 0x5E, 0xB9, 0x16, 0x8F, 0xA3, 0x6C, 0x81, 0xC0, 0x45, 0x5A, 0xA2, 0x0D, 0x9B, 0x11,
    0x70, 0xF0, 0xCF, 0x90, 0xC0, 0x3E, 0x9F, 0x09, 0x61, 0xCA, 0x4A, 0x5E, 0x63, 0x37, 0xAF, 0x12]

def emptySignature : String :=
  "L/kI7ewTCv0isWePoNn9GsZxYuXE7OPIYtfTPDKCTnvXfl65Fo+jbIHARVqiDZsRcPDPkMA+nwlhykpeYzevEg=="

def memberDigest : List UInt8 :=
  [0x01, 0x5A, 0xBD, 0x7F, 0x5C, 0xC5, 0x7A, 0x2D, 0xD9, 0x4B, 0x75, 0x90, 0xF0, 0x4A, 0xD8, 0x08,
    0x42, 0x73, 0x90, 0x5E, 0xE3, 0x3E, 0xC5, 0xCE, 0xBE, 0xAE, 0x62, 0x27, 0x6A, 0x97, 0xF8, 0x62]

def memberMac : List UInt8 :=
  [0xB9, 0xCF, 0x6F, 0x81, 0x8E, 0x6F, 0xD5, 0xFD, 0x7D, 0x00, 0xA3, 0xB7, 0x0C, 0x49, 0xA2, 0x1A,
    0x9D, 0xCE, 0xD2, 0x31, 0x2F, 0xE1, 0xF4, 0xC2, 0x75, 0x38, 0x92, 0x03, 0xFB, 0x8A, 0x4B, 0xB0,
    0x02, 0xBB, 0x5F, 0x02, 0xA2, 0xAC, 0xA0, 0xA5, 0xC7, 0xFF, 0x79, 0xF0, 0x98, 0x84, 0x23, 0x5C,
    0x66, 0x4C, 0x32, 0x72, 0x60, 0x92, 0x27, 0xCC, 0x98, 0x1C, 0x03, 0xE4, 0x81, 0x56, 0x85, 0xD7]

def memberSignature : String :=
  "uc9vgY5v1f19AKO3DEmiGp3O0jEv4fTCdTiSA/uKS7ACu18Coqygpcf/efCYhCNcZkwycmCSJ8yYHAPkgVaF1w=="

def sampleRequest (body : List UInt8) : Request :=
  ⟨"POST", "/v1.0/qr", "T", body, "2024-01-01T00:00:00Z"⟩

def emptyString : String :=
  "POST:/v1.0/qr:T:e3b0c44298fc1c149afbf4c8996fb92427ae41e4649b934ca495991b7852b855:2024-01-01T00:00:00Z"

def memberString : String :=
  "POST:/v1.0/qr:T:015abd7f5cc57a2dd94b7590f04ad8084273905ee33ec5cebeae62276a97f862:2024-01-01T00:00:00Z"

def secretBytes : List UInt8 := [0x73, 0x65, 0x63, 0x72, 0x65, 0x74]

def patched (a a' b b' bs : List UInt8) : List UInt8 :=
  if bs = a then a' else if bs = b then b' else 0 :: bs

theorem patched_injective {a a' b b' : List UInt8} (hne : a' ≠ b') (ha : a'.head? ≠ some 0)
    (hb : b'.head? ≠ some 0) : Function.Injective (patched a a' b b') := by
  intro x y h
  have hafter : ∀ {cs : List UInt8}, cs.head? ≠ some 0 → ∀ z, cs ≠ 0 :: z := by
    rintro cs hcs z rfl
    exact hcs rfl
  unfold patched at h
  split_ifs at h with hxa hya hyb hxb hya hyb hya hyb
  · rw [hxa, hya]
  · exact absurd h hne
  · exact absurd h (hafter ha y)
  · exact absurd h.symm hne
  · rw [hxb, hyb]
  · exact absurd h (hafter hb y)
  · exact absurd h.symm (hafter ha x)
  · exact absurd h.symm (hafter hb x)
  · exact List.tail_eq_of_cons_eq h

def sampleEncode (bs : List UInt8) : String :=
  if bs = emptyMac then emptySignature
  else if bs = memberMac then memberSignature
  else String.ofList ('=' :: bs.map fun b => Char.ofNat b.toNat)

def sampleDecode (s : String) : Option (List UInt8) :=
  if s = emptySignature then some emptyMac
  else if s = memberSignature then some memberMac
  else match s.toList with
    | '=' :: cs => some (cs.map fun c => UInt8.ofNat c.toNat)
    | _ => none

theorem sampleDecode_encode (bs : List UInt8) : sampleDecode (sampleEncode bs) = some bs := by
  have hne : ∀ {s : String}, s.toList.head? ≠ some '=' → ∀ cs, String.ofList ('=' :: cs) ≠ s := by
    rintro s hs cs rfl
    simp at hs
  unfold sampleEncode
  split_ifs with hempty hmember
  · rw [hempty]
    exact if_pos rfl
  · rw [hmember]
    exact (if_neg (by decide)).trans (if_pos rfl)
  · unfold sampleDecode
    rw [if_neg (hne (by decide) _), if_neg (hne (by decide) _)]
    have hbyte : ∀ b : UInt8, UInt8.ofNat (Char.ofNat b.toNat).toNat = b := by
      intro b
      have hlt := b.toNat_lt
      rw [Char.toNat_ofNat, if_pos (Or.inl (by omega)), UInt8.ofNat_toNat]
    simp [Function.comp_def, hbyte]

/-- `{"a":1}` and, as in the text of another layout, spaces around its tokens. -/
def sampleAccepts (raw : List UInt8) : Except String Unit :=
  if raw = concat member ∨ raw = spacedMember then .ok ()
  else if raw = [] then .error "EOF while parsing a value at line 1 column 0"
  else .error "EOF while parsing an object at line 1 column 1"

def sampleCrypto : Crypto where
  sha256 := patched [] emptyDigest (concat member) memberDigest
  hmacSha512 _ := patched (utf8 emptyString) emptyMac (utf8 memberString) memberMac
  b64Encode := sampleEncode
  b64Decode := sampleDecode
  ignoredAny := sampleAccepts

theorem sample_sha256 : Function.Injective sampleCrypto.sha256 :=
  patched_injective (by decide) (by decide) (by decide)

theorem sample_hmac (secret : List UInt8) : Function.Injective (sampleCrypto.hmacSha512 secret) :=
  patched_injective (by decide) (by decide) (by decide)

theorem sample_texts (raw : List UInt8) (h : sampleCrypto.ignoredAny raw = .ok ()) :
    ∃ ts, IsText ts raw := by
  unfold sampleCrypto sampleAccepts at h
  dsimp only at h
  split_ifs at h with hraw
  rcases hraw with rfl | rfl
  · exact ⟨member, spacedMember_text.value, JsonText.spaced_concat member⟩
  · exact ⟨member, spacedMember_text⟩

/-! ## The signed body -/

/-- With all other arguments equal, the signature for one body is accepted for another
exactly if they are equal, minify to the same bytes, or are both malformed. -/
theorem symmetricVerify_binds_body {c : Crypto} (hsha : Function.Injective c.sha256)
    (hmac : ∀ secret, Function.Injective (c.hmacSha512 secret))
    (hb64 : ∀ bs, c.b64Decode (c.b64Encode bs) = some bs)
    (hvalid : ∀ raw, c.ignoredAny raw = .ok () → ∃ ts, IsText ts raw)
    (secret : List UInt8) (method url token ts : String) (b b2 : List UInt8) :
    symmetricVerify c secret ⟨method, url, token, b2, ts⟩
        (symmetricSign c secret ⟨method, url, token, b, ts⟩) = true ↔
      b = b2 ∨
      (WellFormed c b ∧ WellFormed c b2 ∧
        jsonMinify c.ignoredAny b = jsonMinify c.ignoredAny b2) ∨
      (¬ WellFormed c b ∧ ¬ WellFormed c b2) := by
  have hstring := stringToSign_body (c := c) ':' ⟨method, url, token, b, ts⟩ (Or.inl rfl) b2
  refine (verify_sign hmac hb64 _ _ _ _).trans (hstring.trans (eq_comm.trans ?_))
  rw [bodyDigest_eq_iff hsha hvalid]
  refine ⟨Or.inr, fun h => h.elim ?_ id⟩
  rintro rfl
  by_cases hb : WellFormed c b
  · exact Or.inl ⟨hb, hb, rfl⟩
  · exact Or.inr ⟨hb, hb⟩

theorem symmetricVerify_binds_body_member :
    symmetricVerify sampleCrypto secretBytes (sampleRequest spacedMember)
        (symmetricSign sampleCrypto secretBytes (sampleRequest (concat member))) = true ∧
      ¬ symmetricVerify sampleCrypto secretBytes (sampleRequest [0x7B])
        (symmetricSign sampleCrypto secretBytes (sampleRequest (concat member))) = true := by
  have h := fun b2 => symmetricVerify_binds_body sample_sha256 sample_hmac sampleDecode_encode
    sample_texts secretBytes "POST" "/v1.0/qr" "T" "2024-01-01T00:00:00Z" (concat member) b2
  have hbrace : ¬ WellFormed sampleCrypto [0x7B] := nofun
  constructor
  · exact (h spacedMember).mpr (Or.inr (Or.inl ⟨rfl, rfl, rfl⟩))
  · intro haccepted
    rcases (h [0x7B]).mp haccepted with heq | ⟨-, hformed, -⟩ | ⟨hformed, -⟩
    · exact absurd heq (by decide)
    · exact hbrace hformed
    · exact hformed rfl

/-- The signature over no body at all is accepted for an unclosed object. -/
theorem signature_without_body_accepted :
    Function.Injective sampleCrypto.sha256 ∧
      (∀ secret, Function.Injective (sampleCrypto.hmacSha512 secret)) ∧
      symmetricVerify sampleCrypto secretBytes (sampleRequest [0x7B])
        (symmetricSign sampleCrypto secretBytes (sampleRequest [])) = true ∧
      ¬ ([] = [0x7B] ∨
        (WellFormed sampleCrypto [] ∧ WellFormed sampleCrypto [0x7B] ∧
          jsonMinify sampleCrypto.ignoredAny [] = jsonMinify sampleCrypto.ignoredAny [0x7B])) := by
  refine ⟨sample_sha256, sample_hmac, by decide, ?_⟩
  rintro (heq | ⟨hformed, -, -⟩)
  · exact absurd heq (by decide)
  · cases hformed

/-! ## Fields -/

theorem asymmetricStringToSign_eq_iff {key ts key' ts' : String}
    (h : asymmetricStringToSign key ts = asymmetricStringToSign key' ts') :
    (key = key' ∧ ts = ts') ↔ key.toList.count '|' = key'.toList.count '|' := by
  constructor
  · rintro ⟨rfl, -⟩
    rfl
  · intro hcount
    have hlist := congrArg String.toList h
    simp only [asymmetricStringToSign, toString, String.toList_append, String.append_assoc] at hlist
    obtain ⟨hkey, hts⟩ := append_cons_inj hlist hcount
    exact ⟨String.toList_inj.mp hkey, String.toList_inj.mp hts⟩

/-- Of two requests with equal strings, the fields are equal exactly if each of method,
url and token holds as many delimiters in one as in the other; so too for the client
key. Signatures are then accepted for no other split. -/
theorem stringToSign_splits (c : Crypto) :
    (∀ r s, symmetricStringToSign c r = symmetricStringToSign c s →
        (SameFields c r s ↔ SameCounts ':' r s)) ∧
      (∀ r s, symmetricStringToSignV2 c r = symmetricStringToSignV2 c s →
        (SameFields c r s ↔ SameCounts '|' r s)) ∧
      (∀ key ts key' ts', asymmetricStringToSign key ts = asymmetricStringToSign key' ts' →
        ((key = key' ∧ ts = ts') ↔ key.toList.count '|' = key'.toList.count '|')) ∧
      ((∀ secret, Function.Injective (c.hmacSha512 secret)) →
        (∀ bs, c.b64Decode (c.b64Encode bs) = some bs) → ∀ secret r s,
          (symmetricVerify c secret s (symmetricSign c secret r) = true →
            (SameFields c s r ↔ SameCounts ':' s r)) ∧
          (symmetricVerifyV2 c secret s (symmetricSignV2 c secret r) = true →
            (SameFields c s r ↔ SameCounts '|' s r))) := by
  have hsymmetric : ∀ r s, symmetricStringToSign c r = symmetricStringToSign c s →
      (SameFields c r s ↔ SameCounts ':' r s) := fun r s => stringToSign_eq_iff (Or.inl rfl)
  have hv2 : ∀ r s, symmetricStringToSignV2 c r = symmetricStringToSignV2 c s →
      (SameFields c r s ↔ SameCounts '|' r s) := fun r s => stringToSign_eq_iff (Or.inr rfl)
  refine ⟨hsymmetric, hv2, fun key ts key' ts' => asymmetricStringToSign_eq_iff, ?_⟩
  intro hmac hb64 secret r s
  constructor
  · intro h
    exact hsymmetric s r ((verify_sign hmac hb64 _ secret r s).mp h)
  · intro h
    exact hv2 s r ((verify_sign hmac hb64 _ secret r s).mp h)

def colonInUrl : Request := ⟨"GET", "/v1:qr", "T", [], "2024-01-01T00:00:00Z"⟩

def colonInToken : Request := ⟨"GET", "/v1", "qr:T", [], "2024-01-01T00:00:00Z"⟩

theorem stringToSign_splits_colon :
    ¬ SameFields sampleCrypto colonInUrl colonInToken ∧
      SameFields sampleCrypto (sampleRequest [0x7B]) (sampleRequest []) := by
  have h := stringToSign_splits sampleCrypto
  have hsplit := h.1 colonInUrl colonInToken (by decide)
  have hsigned := h.2.2.2 sample_hmac sampleDecode_encode secretBytes (sampleRequest [])
    (sampleRequest [0x7B])
  exact ⟨fun hfields => absurd (hsplit.mp hfields).2.1 (by decide),
    (hsigned.1 (by decide)).mpr ⟨rfl, rfl, rfl⟩⟩

theorem colon_moved_between_fields :
    symmetricStringToSign sampleCrypto colonInUrl =
        symmetricStringToSign sampleCrypto colonInToken ∧
      colonInUrl.url ≠ colonInToken.url ∧ colonInUrl.token ≠ colonInToken.token ∧
      asymmetricStringToSign "app|1" "2" = asymmetricStringToSign "app" "1|2" := by
  decide

end PaycloudHelper.SnapBi
