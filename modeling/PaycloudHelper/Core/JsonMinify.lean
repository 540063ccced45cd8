import Mathlib
import PaycloudHelper.Core.Json
import PaycloudHelper.Library.JsonText

/-!
# What compacting keeps of a JSON text

The scanner knows two things about where it stands: whether it is in a string, and
whether the last byte was an escaping backslash. On a JSON text that is enough. Outside
strings it copies tokens and drops what lies between them, so the result is the tokens
one after another.
-/

namespace PaycloudHelper.Json

open JsonText (Token Punct Literal StringBody Derives Spaced IsText concat)

theorem compactFrom_space {space : List UInt8} (h : ∀ b ∈ space, JsonText.whitespace b = true)
    (raw : List UInt8) :
    compactFrom ⟨false, false⟩ (space ++ raw) = compactFrom ⟨false, false⟩ raw := by
  induction space with
  | nil => rfl
  | cons b space ih =>
    obtain ⟨hb, hspace⟩ := List.forall_mem_cons.mp h
    have hquote : (b == quote) = false := by
      rw [beq_eq_false_iff_ne]
      rintro rfl
      exact absurd hb (by decide)
    have hdrop : whitespace b = true := hb
    simp [compactFrom, Scan.keeps, Scan.next, hdrop, hquote, ih hspace]

def copied (b : UInt8) : Bool := b != quote && !whitespace b

theorem compactFrom_copied {bs : List UInt8} (h : ∀ b ∈ bs, copied b = true) (raw : List UInt8) :
    compactFrom ⟨false, false⟩ (bs ++ raw) = bs ++ compactFrom ⟨false, false⟩ raw := by
  induction bs with
  | nil => rfl
  | cons b bs ih =>
    obtain ⟨hb, hbs⟩ := List.forall_mem_cons.mp h
    simp only [copied, Bool.and_eq_true, bne_iff_ne, ne_eq, Bool.not_eq_true'] at hb
    simp [compactFrom, Scan.keeps, Scan.next, hb, ih hbs]

theorem compactFrom_plain {bs : List UInt8} (h : ∀ b ∈ bs, b ≠ quote ∧ b ≠ backslash)
    (raw : List UInt8) :
    compactFrom ⟨true, false⟩ (bs ++ raw) = bs ++ compactFrom ⟨true, false⟩ raw := by
  induction bs with
  | nil => rfl
  | cons b bs ih =>
    obtain ⟨hb, hbs⟩ := List.forall_mem_cons.mp h
    simp [compactFrom, Scan.keeps, Scan.next, hb, ih hbs]

theorem compactFrom_escape (b : UInt8) (raw : List UInt8) :
    compactFrom ⟨true, false⟩ (backslash :: b :: raw) =
      backslash :: b :: compactFrom ⟨true, false⟩ raw := rfl

theorem compactFrom_body {body : List UInt8} (h : StringBody body) (raw : List UInt8) :
    compactFrom ⟨true, false⟩ (body ++ raw) = body ++ compactFrom ⟨true, false⟩ raw := by
  induction h with
  | nil => rfl
  | plain hc _ ih =>
    rw [List.append_assoc, compactFrom_plain (JsonText.utf8_plain hc), ih, List.append_assoc]
  | escape _ _ ih =>
    rw [List.cons_append, List.cons_append]
    refine (compactFrom_escape _ _).trans ?_
    rw [ih]
    rfl
  | @unicode a b c d bs ha hb hc hd _ ih =>
    have hdigits : ∀ x ∈ [a, b, c, d], x ≠ quote ∧ x ≠ backslash := by
      intro x hx
      simp only [List.mem_cons, List.not_mem_nil, or_false] at hx
      rcases hx with rfl | rfl | rfl | rfl <;>
        exact JsonText.hexDigit_plain (by assumption)
    have hrest := compactFrom_plain hdigits (bs ++ raw)
    simp only [List.cons_append, List.nil_append] at hrest ⊢
    refine (compactFrom_escape _ _).trans ?_
    rw [hrest, ih]
    rfl

theorem copied_of_word {b : UInt8} (h : JsonText.wordByte b = true) : copied b = true := by
  simp only [copied, Bool.and_eq_true, bne_iff_ne, ne_eq, Bool.not_eq_true']
  constructor
  · rintro rfl
    exact absurd h (by decide)
  · simp only [whitespace, Bool.or_eq_false_iff, beq_eq_false_iff_ne]
    refine ⟨⟨⟨?_, ?_⟩, ?_⟩, ?_⟩ <;> rintro rfl <;> exact absurd h (by decide)

theorem compactFrom_token (t : Token) (raw : List UInt8) :
    compactFrom ⟨false, false⟩ (t.bytes ++ raw) =
      t.bytes ++ compactFrom ⟨false, false⟩ raw := by
  cases t with
  | punct p =>
    apply compactFrom_copied
    simp only [Token.bytes, List.mem_singleton, forall_eq]
    cases p <;> decide
  | string body h =>
    have hopen : ∀ bs, compactFrom ⟨false, false⟩ (quote :: bs) =
      quote :: compactFrom ⟨true, false⟩ bs := fun _ => rfl
    have hclose : ∀ bs, compactFrom ⟨true, false⟩ (quote :: bs) =
      quote :: compactFrom ⟨false, false⟩ bs := fun _ => rfl
    have hbytes : ∀ bs, (Token.string body h).bytes ++ bs = quote :: (body ++ quote :: bs) := by
      simp [Token.bytes, JsonText.quote, quote]
    rw [hbytes, hopen, compactFrom_body h, hclose, hbytes]
  | number text h => exact compactFrom_copied (fun b hb => copied_of_word (h.word b hb)) raw
  | literal l => exact compactFrom_copied (fun b hb => copied_of_word (l.word b hb)) raw

theorem compactBytes_spaced {ts : List Token} {raw : List UInt8} (h : Spaced ts raw) :
    compactBytes raw = concat ts := by
  unfold compactBytes
  induction h with
  | nil hspace => simpa [compactFrom, concat] using compactFrom_space hspace []
  | cons hspace _ ih =>
    rw [compactFrom_space hspace, compactFrom_token, ih]
    rfl

theorem jsonMinify_text {valid : List UInt8 → Except String Unit} {ts : List Token}
    {raw : List UInt8} (hvalid : valid raw = .ok ()) (h : Spaced ts raw) :
    jsonMinify valid raw = .ok (concat ts) := by
  simp [jsonMinify, hvalid, compactBytes_spaced h]

/-- On JSON texts `json_minify` is the concatenation of the tokens, which is a text of
the same tokens and of no others, and tells texts apart exactly by their tokens. -/
theorem minify_concat {valid : List UInt8 → Except String Unit}
    (hvalid : ∀ ts raw, IsText ts raw → valid raw = .ok ()) :
    (∀ ts raw, IsText ts raw → jsonMinify valid raw = .ok (concat ts) ∧ IsText ts (concat ts) ∧
        ∀ us, IsText us (concat ts) → us = ts) ∧
      ∀ ts raw us raw', IsText ts raw → IsText us raw' →
        (jsonMinify valid raw = jsonMinify valid raw' ↔ ts = us) := by
  have hmin : ∀ ts raw, IsText ts raw → jsonMinify valid raw = .ok (concat ts) :=
    fun ts raw h => jsonMinify_text (hvalid ts raw h) h.spaced
  constructor
  · intro ts raw h
    have hconcat : IsText ts (concat ts) := ⟨h.value, JsonText.spaced_concat ts⟩
    refine ⟨hmin ts raw h, hconcat, fun us hus => ?_⟩
    apply (hus.value.concat_inj h.value).mp
    rw [← compactBytes_spaced hus.spaced, compactBytes_spaced hconcat.spaced]
  · intro ts raw us raw' h h'
    rw [hmin ts raw h, hmin us raw' h', Except.ok.injEq]
    exact h.value.concat_inj h'.value

/-! ## A spaced object -/

theorem nameA : StringBody [0x61] := @StringBody.plain 'a' [] rfl .nil

theorem numberOne : JsonText.IsNumber [0x31] :=
  @JsonText.IsNumber.mk [] [0x31] [] [] (Or.inl rfl)
    (@JsonText.IntPart.nonzero 0x31 [] rfl (by decide) (fun _ h => nomatch h)) .none .none

def member : List Token :=
  [.punct .beginObject, .string [0x61] nameA, .punct .nameSeparator, .number [0x31] numberOne,
    .punct .endObject]

def spacedMember : List UInt8 := [0x20, 0x7B, 0x22, 0x61, 0x22, 0x20, 0x3A, 0x0A, 0x31, 0x7D, 0x09]

theorem spacedMember_text : IsText member spacedMember := by
  constructor
  · exact Derives.object (.member nameA (.number numberOne))
  · have hone : ∀ b, JsonText.whitespace b = true → ∀ x ∈ [b], JsonText.whitespace x = true :=
      fun b hb => List.forall_mem_singleton.mpr hb
    have hend := @Spaced.cons [] _ (.punct .endObject) [] (by simp) (.nil (hone 0x09 rfl))
    have hvalue := @Spaced.cons [0x0A] _ (.number [0x31] numberOne) _ (hone 0x0A rfl) hend
    have hcolon := @Spaced.cons [0x20] _ (.punct .nameSeparator) _ (hone 0x20 rfl) hvalue
    have hname := @Spaced.cons [] _ (.string [0x61] nameA) _ (by simp) hcolon
    exact @Spaced.cons [0x20] _ (.punct .beginObject) _ (hone 0x20 rfl) hname

theorem minify_concat_member : jsonMinify (fun _ => .ok ()) spacedMember =
    .ok [0x7B, 0x22, 0x61, 0x22, 0x3A, 0x31, 0x7D] := by
  have hmember := @minify_concat (fun _ => .ok ()) fun _ _ _ => rfl
  exact (hmember.1 member spacedMember spacedMember_text).1

end PaycloudHelper.Json
