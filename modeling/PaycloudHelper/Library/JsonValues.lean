import Mathlib
import PaycloudHelper.Library.JsonText

/-!
# JSON values and their printers

A value tree and the serializer that writes it, with the layout left to a formatter: a
formatter chooses the whitespace before the items of an array or object and after a
name. Floating-point numbers are an arbitrary type that comes with its own printer.
Whatever the formatter, the text has the same tokens.
-/

namespace JsonValues

open JsonText

variable {F : Type}

/-- Integers that fit 64 bits, signed or not, and floats. -/
inductive Number (F : Type)
  | int (value : ℤ) (lo : -2 ^ 63 ≤ value) (hi : value < 2 ^ 64)
  | float (value : F)
deriving DecidableEq

inductive Json (F : Type)
  | null
  | bool (value : Bool)
  | number (value : Number F)
  | string (value : String)
  | array (items : List (Json F))
  | object (fields : List (String × Json F))

/-! ## Scalars -/

def hexByte (n : ℕ) : UInt8 := if n < 10 then UInt8.ofNat (0x30 + n) else UInt8.ofNat (0x57 + n)

def escapeChar (c : Char) : List UInt8 :=
  if c.toNat = 0x22 then [backslash, 0x22]
  else if c.toNat = 0x5C then [backslash, 0x5C]
  else if c.toNat = 0x08 then [backslash, 0x62]
  else if c.toNat = 0x09 then [backslash, 0x74]
  else if c.toNat = 0x0A then [backslash, 0x6E]
  else if c.toNat = 0x0C then [backslash, 0x66]
  else if c.toNat = 0x0D then [backslash, 0x72]
  else if c.toNat < 0x20 then
    [backslash, 0x75, 0x30, 0x30, hexByte (c.toNat / 16), hexByte (c.toNat % 16)]
  else String.utf8EncodeChar c

def escaped (s : String) : List UInt8 := s.toList.flatMap escapeChar

def decimal (n : ℕ) : List UInt8 :=
  if n = 0 then [0x30] else (Nat.digits 10 n).reverse.map fun d => UInt8.ofNat (0x30 + d)

structure FloatPrinter (F : Type) where
  bytes : F → List UInt8
  isNumber : ∀ x, IsNumber (bytes x)

def Number.bytes (floats : FloatPrinter F) : Number F → List UInt8
  | .int (.ofNat n) _ _ => decimal n
  | .int (.negSucc n) _ _ => 0x2D :: decimal (n + 1)
  | .float x => floats.bytes x

theorem hexByte_hexDigit {n : ℕ} (h : n < 16) : hexDigit (hexByte n) = true := by
  interval_cases n <;> rfl

theorem escapeChar_body (c : Char) {bs : List UInt8} (hbs : StringBody bs) :
    StringBody (escapeChar c ++ bs) := by
  unfold escapeChar
  split_ifs with hquote hback hb ht hn hf hr hcontrol
  all_goals try exact .escape (by decide) hbs
  · exact .unicode rfl rfl (hexByte_hexDigit (by omega)) (hexByte_hexDigit (by omega)) hbs
  · refine .plain ?_ hbs
    simp only [plain, Bool.and_eq_true, decide_eq_true_eq, bne_iff_ne]
    exact ⟨⟨not_lt.mp hcontrol, hquote⟩, hback⟩

theorem escaped_body (s : String) : StringBody (escaped s) := by
  unfold escaped
  induction s.toList with
  | nil => exact .nil
  | cons c cs ih => exact escapeChar_body c ih

theorem digit_ofNat {d : ℕ} (h : d < 10) : digit (UInt8.ofNat (0x30 + d)) = true := by
  interval_cases d <;> rfl

theorem decimal_intPart (n : ℕ) : IntPart (decimal n) := by
  unfold decimal
  split_ifs with hn
  · exact .zero
  · have hne : Nat.digits 10 n ≠ [] := Nat.digits_ne_nil_iff_ne_zero.mpr hn
    have hdigits : ∀ d ∈ Nat.digits 10 n, d < 10 := fun d hd => Nat.digits_lt_base (by decide) hd
    have hlast : (Nat.digits 10 n).getLast hne ≠ 0 := Nat.getLast_digit_ne_zero 10 hn
    rw [← List.dropLast_append_getLast hne, List.reverse_append, List.reverse_singleton,
      List.singleton_append, List.map_cons]
    have hlt := hdigits _ (List.getLast_mem hne)
    refine .nonzero (digit_ofNat hlt) ?_ fun b hb => ?_
    · generalize (Nat.digits 10 n).getLast hne = d at hlast hlt
      interval_cases d
      · exact absurd rfl hlast
      all_goals decide
    · obtain ⟨d, hd, rfl⟩ := List.mem_map.mp hb
      exact digit_ofNat (hdigits d (List.mem_of_mem_dropLast (List.mem_reverse.mp hd)))

theorem isNumber_of_int {minus int : List UInt8} (hminus : minus = [] ∨ minus = [0x2D])
    (hint : IntPart int) : IsNumber (minus ++ int) := by
  have h : IsNumber (minus ++ int ++ [] ++ []) := .mk hminus hint .none .none
  rwa [List.append_nil, List.append_nil] at h

theorem Number.isNumber (floats : FloatPrinter F) (n : Number F) : IsNumber (n.bytes floats) := by
  match n with
  | .int (.ofNat n) _ _ => exact isNumber_of_int (Or.inl rfl) (decimal_intPart n)
  | .int (.negSucc n) _ _ => exact isNumber_of_int (Or.inr rfl) (decimal_intPart (n + 1))
  | .float x => exact floats.isNumber x

/-! ## The serializer -/

structure Formatter where
  newline : ℕ → List UInt8
  afterName : List UInt8
  newline_space : ∀ indent, ∀ b ∈ newline indent, whitespace b = true
  afterName_space : ∀ b ∈ afterName, whitespace b = true

def compactFormatter : Formatter where
  newline _ := []
  afterName := []
  newline_space := by simp
  afterName_space := by simp

def prettyFormatter : Formatter where
  newline indent := 0x0A :: List.replicate (2 * indent) 0x20
  afterName := [0x20]
  newline_space := by
    intro indent b hb
    rcases List.mem_cons.mp hb with rfl | hb
    · rfl
    · rw [List.eq_of_mem_replicate hb]
      rfl
  afterName_space := List.forall_mem_singleton.mpr rfl

def comma (first : Bool) : List UInt8 := if first then [] else [0x2C]

def quoted (s : String) : List UInt8 := quote :: (escaped s ++ [quote])

section Printer
variable (floats : FloatPrinter F) (fmt : Formatter)

def closing (indent : ℕ) (empty : Bool) : List UInt8 := if empty then [] else fmt.newline indent

mutual

def print (indent : ℕ) : Json F → List UInt8
  | .null => Literal.nullName.bytes
  | .bool true => Literal.trueName.bytes
  | .bool false => Literal.falseName.bytes
  | .number n => n.bytes floats
  | .string s => quoted s
  | .array items =>
    0x5B :: (printItems (indent + 1) true items ++ (closing fmt indent items.isEmpty ++ [0x5D]))
  | .object fields =>
    0x7B :: (printFields (indent + 1) true fields ++ (closing fmt indent fields.isEmpty ++ [0x7D]))

def printItems (indent : ℕ) (first : Bool) : List (Json F) → List UInt8
  | [] => []
  | v :: vs => comma first ++ (fmt.newline indent ++ (print indent v ++ printItems indent false vs))

def printFields (indent : ℕ) (first : Bool) : List (String × Json F) → List UInt8
  | [] => []
  | (name, v) :: fields =>
    comma first ++ (fmt.newline indent ++ (quoted name ++ (0x3A :: (fmt.afterName ++
      (print indent v ++ printFields indent false fields)))))

end

def stringToken (s : String) : Token := .string (escaped s) (escaped_body s)

def commaToken (first : Bool) : List Token := if first then [] else [.punct .valueSeparator]

mutual

def tokens : Json F → List Token
  | .null => [.literal .nullName]
  | .bool true => [.literal .trueName]
  | .bool false => [.literal .falseName]
  | .number n => [.number (n.bytes floats) (n.isNumber floats)]
  | .string s => [stringToken s]
  | .array items => .punct .beginArray :: (itemTokens true items ++ [.punct .endArray])
  | .object fields => .punct .beginObject :: (fieldTokens true fields ++ [.punct .endObject])

def itemTokens (first : Bool) : List (Json F) → List Token
  | [] => []
  | v :: vs => commaToken first ++ (tokens v ++ itemTokens false vs)

def fieldTokens (first : Bool) : List (String × Json F) → List Token
  | [] => []
  | (name, v) :: fields =>
    commaToken first ++
      (stringToken name :: .punct .nameSeparator :: (tokens v ++ fieldTokens false fields))

end

/-! ## The tokens of a value make it up -/

theorem spaced_token (t : Token) : Spaced [t] t.bytes := by
  simpa [concat] using spaced_concat [t]

theorem spaced_space {ts : List Token} {space raw : List UInt8}
    (hspace : ∀ b ∈ space, whitespace b = true) (h : Spaced ts raw) : Spaced ts (space ++ raw) :=
  (Spaced.nil hspace).append h

theorem spaced_comma (first : Bool) : Spaced (commaToken first) (comma first) := by
  cases first with
  | true => exact spaced_concat []
  | false => exact spaced_token (.punct .valueSeparator)

theorem closing_space (indent : ℕ) (empty : Bool) :
    ∀ b ∈ closing fmt indent empty, whitespace b = true := by
  cases empty with
  | true => simp [closing]
  | false => exact fmt.newline_space indent

mutual

theorem spaced_print (indent : ℕ) : ∀ v : Json F, Spaced (tokens floats v) (print floats fmt indent v)
  | .null => spaced_token (.literal .nullName)
  | .bool true => spaced_token (.literal .trueName)
  | .bool false => spaced_token (.literal .falseName)
  | .number n => spaced_token (.number (n.bytes floats) (n.isNumber floats))
  | .string s => spaced_token (stringToken s)
  | .array items => by
    have hitems := spaced_printItems (indent + 1) true items
    have hclose := spaced_space (closing_space fmt indent items.isEmpty)
      (spaced_token (.punct .endArray))
    exact (spaced_token (.punct .beginArray)).append (hitems.append hclose)
  | .object fields => by
    have hfields := spaced_printFields (indent + 1) true fields
    have hclose := spaced_space (closing_space fmt indent fields.isEmpty)
      (spaced_token (.punct .endObject))
    exact (spaced_token (.punct .beginObject)).append (hfields.append hclose)

theorem spaced_printItems (indent : ℕ) (first : Bool) : ∀ vs : List (Json F),
    Spaced (itemTokens floats first vs) (printItems floats fmt indent first vs)
  | [] => spaced_concat []
  | v :: vs => by
    have hrest := (spaced_print indent v).append (spaced_printItems indent false vs)
    exact (spaced_comma first).append (spaced_space (fmt.newline_space indent) hrest)

theorem spaced_printFields (indent : ℕ) (first : Bool) : ∀ fields : List (String × Json F),
    Spaced (fieldTokens floats first fields) (printFields floats fmt indent first fields)
  | [] => spaced_concat []
  | (name, v) :: fields => by
    have hrest := (spaced_print indent v).append (spaced_printFields indent false fields)
    have hvalue := (spaced_token (.punct .nameSeparator)).append
      (spaced_space fmt.afterName_space hrest)
    have hname := (spaced_token (stringToken name)).append hvalue
    exact (spaced_comma first).append (spaced_space (fmt.newline_space indent) hname)

end

mutual

theorem derives_tokens : ∀ v : Json F, Derives .value (tokens floats v)
  | .null => .literal .nullName
  | .bool true => .literal .trueName
  | .bool false => .literal .falseName
  | .number n => .number (n.isNumber floats)
  | .string s => .string (escaped_body s)
  | .array [] => .emptyArray
  | .array (v :: vs) => .array (derives_itemTokens (v :: vs) (List.cons_ne_nil v vs))
  | .object [] => .emptyObject
  | .object (field :: fields) =>
    .object (derives_fieldTokens (field :: fields) (List.cons_ne_nil field fields))

theorem derives_itemTokens : ∀ vs : List (Json F), vs ≠ [] →
    Derives .elements (itemTokens floats true vs)
  | [], h => absurd rfl h
  | [v], _ => by
    have hv : Derives .elements (tokens floats v) := .element (derives_tokens v)
    simpa [itemTokens, commaToken] using hv
  | v :: w :: vs, _ => by
    have hrest := derives_itemTokens (w :: vs) (List.cons_ne_nil w vs)
    exact .elements (derives_tokens v) hrest

theorem derives_fieldTokens : ∀ fields : List (String × Json F), fields ≠ [] →
    Derives .members (fieldTokens floats true fields)
  | [], h => absurd rfl h
  | [(name, v)], _ => by
    have hv := Derives.member (escaped_body name) (derives_tokens v)
    simpa [fieldTokens, commaToken, stringToken] using hv
  | (name, v) :: field :: fields, _ => by
    have hrest := derives_fieldTokens (field :: fields) (List.cons_ne_nil field fields)
    exact .members (escaped_body name) (derives_tokens v) hrest

end

theorem isText_print (indent : ℕ) (v : Json F) :
    IsText (tokens floats v) (print floats fmt indent v) :=
  ⟨derives_tokens floats v, spaced_print floats fmt indent v⟩

end Printer

/-! ## Compact texts -/

section Compact
variable (floats : FloatPrinter F)

theorem closing_compact (indent : ℕ) (empty : Bool) :
    closing compactFormatter indent empty = [] := by
  cases empty <;> rfl

theorem concat_commaToken (first : Bool) : concat (commaToken first) = comma first := by
  cases first <;> rfl

theorem stringToken_bytes (s : String) : (stringToken s).bytes = quoted s := rfl

@[simp] theorem punct_bytes (p : Punct) : (Token.punct p).bytes = [p.byte] := rfl

@[simp] theorem newline_compact (indent : ℕ) : compactFormatter.newline indent = [] := rfl

@[simp] theorem afterName_compact : compactFormatter.afterName = [] := rfl

theorem concat_singleton (t : Token) : concat [t] = t.bytes := by
  simp

mutual

theorem print_compact (indent : ℕ) : ∀ v : Json F,
    print floats compactFormatter indent v = concat (tokens floats v)
  | .null => (concat_singleton (.literal .nullName)).symm
  | .bool true => (concat_singleton (.literal .trueName)).symm
  | .bool false => (concat_singleton (.literal .falseName)).symm
  | .number n => (concat_singleton (.number (n.bytes floats) (n.isNumber floats))).symm
  | .string s => (concat_singleton (stringToken s)).symm
  | .array items => by
    have hitems := print_compactItems (indent + 1) true items
    simp [print, tokens, Punct.byte, closing_compact, hitems]
  | .object fields => by
    have hfields := print_compactFields (indent + 1) true fields
    simp [print, tokens, Punct.byte, closing_compact, hfields]

theorem print_compactItems (indent : ℕ) (first : Bool) : ∀ vs : List (Json F),
    printItems floats compactFormatter indent first vs = concat (itemTokens floats first vs)
  | [] => rfl
  | v :: vs => by
    have hv := print_compact indent v
    have hvs := print_compactItems indent false vs
    simp [printItems, itemTokens, concat_commaToken, hv, hvs]

theorem print_compactFields (indent : ℕ) (first : Bool) : ∀ fields : List (String × Json F),
    printFields floats compactFormatter indent first fields =
      concat (fieldTokens floats first fields)
  | [] => rfl
  | (name, v) :: fields => by
    have hv := print_compact indent v
    have hfields := print_compactFields indent false fields
    simp [printFields, fieldTokens, concat_commaToken, stringToken_bytes, Punct.byte, hv, hfields]

end

end Compact

end JsonValues
