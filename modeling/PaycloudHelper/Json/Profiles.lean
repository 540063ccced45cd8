import Mathlib
import PaycloudHelper.Core.JsonMinify
import PaycloudHelper.Library.JsonValues

/-!
# The JSON profiles

Three ways to write a value: compact, compact with the trailing newline that audit
messages carry, and indented by two spaces. They differ in whitespace outside strings
only, so compacting takes all three to the first.
-/

namespace PaycloudHelper.JsonProfiles

open JsonText (IsText Spaced concat)
open JsonValues (FloatPrinter compactFormatter prettyFormatter print tokens)

section Profiles
variable {F : Type} (floats : FloatPrinter F)

def toVec (v : JsonValues.Json F) : Except String (List UInt8) :=
  .ok (print floats compactFormatter 0 v)

def toVecPretty (v : JsonValues.Json F) : Except String (List UInt8) :=
  .ok (print floats prettyFormatter 0 v)

def marshal (v : JsonValues.Json F) : Except String (List UInt8) := toVec floats v

def marshalAudit (v : JsonValues.Json F) : Except String (List UInt8) := do
  let buf ← toVec floats v
  return buf ++ [0x0A]

def marshalIndent (v : JsonValues.Json F) : Except String (List UInt8) := toVecPretty floats v

variable (v : JsonValues.Json F)

theorem marshal_eq : marshal floats v = .ok (concat (tokens floats v)) :=
  congrArg Except.ok (JsonValues.print_compact floats 0 v)

theorem marshalAudit_eq : marshalAudit floats v = .ok (concat (tokens floats v) ++ [0x0A]) :=
  congrArg (fun bs => Except.ok (bs ++ [0x0A])) (JsonValues.print_compact floats 0 v)

theorem marshalAudit_text : IsText (tokens floats v) (concat (tokens floats v) ++ [0x0A]) := by
  have hnewline : Spaced [] [0x0A] := .nil (List.forall_mem_singleton.mpr rfl)
  refine ⟨JsonValues.derives_tokens floats v, ?_⟩
  simpa using (JsonText.spaced_concat (tokens floats v)).append hnewline

theorem marshal_text : IsText (tokens floats v) (concat (tokens floats v)) :=
  ⟨JsonValues.derives_tokens floats v, JsonText.spaced_concat _⟩

end Profiles

/-- Whatever the profile, the minified bytes are those that `marshal` writes. -/
theorem profiles_minify {F : Type} (floats : FloatPrinter F)
    {valid : List UInt8 → Except String Unit} (hvalid : ∀ ts raw, IsText ts raw → valid raw = .ok ())
    (v : JsonValues.Json F) :
    (∃ bytes, marshal floats v = .ok bytes) ∧
      marshal floats v >>= Json.jsonMinify valid = marshal floats v ∧
      marshalAudit floats v >>= Json.jsonMinify valid = marshal floats v ∧
      marshalIndent floats v >>= Json.jsonMinify valid = marshal floats v := by
  have hminify : ∀ raw, IsText (tokens floats v) raw →
      Json.jsonMinify valid raw = .ok (concat (tokens floats v)) :=
    fun raw h => Json.jsonMinify_text (hvalid _ raw h) h.spaced
  have hpretty := JsonValues.isText_print floats prettyFormatter 0 v
  rw [marshal_eq, marshalAudit_eq]
  refine ⟨⟨_, rfl⟩, ?_, ?_, ?_⟩
  · exact hminify _ (marshal_text floats v)
  · exact hminify _ (marshalAudit_text floats v)
  · exact hminify _ hpretty

/-! ## A document with quotes and control characters -/

theorem fiveIsDigits : JsonText.Digits [0x35] :=
  ⟨List.cons_ne_nil _ _, List.forall_mem_singleton.mpr rfl⟩

def halves : FloatPrinter Unit where
  bytes _ := [0x30, 0x2E, 0x35]
  isNumber _ := @JsonText.IsNumber.mk [] [0x30] [0x2E, 0x35] [] (Or.inl rfl) .zero
    (.some fiveIsDigits) .none

/-- `{"a b":["\"\n",0.5,-3],"c":{}}` -/
def document : JsonValues.Json Unit :=
  .object [("a b", .array [.string "\"\n", .number (.float ()), .number (.int (-3) (by decide) (by decide))]),
    ("c", .object [])]

theorem profiles_minify_document :
    marshalIndent halves document >>= Json.jsonMinify (fun _ => .ok ()) =
      .ok [0x7B, 0x22, 0x61, 0x20, 0x62, 0x22, 0x3A, 0x5B, 0x22, 0x5C, 0x22, 0x5C, 0x6E, 0x22,
        0x2C, 0x30, 0x2E, 0x35, 0x2C, 0x2D, 0x33, 0x5D, 0x2C, 0x22, 0x63, 0x22, 0x3A, 0x7B, 0x7D,
        0x7D] := by
  have h := @profiles_minify Unit halves (fun _ => .ok ()) (fun _ _ _ => rfl) document
  exact h.2.2.2

end PaycloudHelper.JsonProfiles
