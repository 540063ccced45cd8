import Mathlib

/-!
# JSON texts

The grammar of JSON over bytes: the tokens, the token sequences that are values, and the
whitespace that may stand around tokens. Two adjacent tokens are never both words (a
number or a literal), so a text can be read back from its tokens written one after
another.
-/

namespace JsonText

/-! ## Tokens -/

def whitespace (b : UInt8) : Bool := b == 0x20 || b == 0x09 || b == 0x0A || b == 0x0D

def quote : UInt8 := 0x22

def backslash : UInt8 := 0x5C

def plain (c : Char) : Bool := 0x20 ≤ c.toNat && c.toNat != 0x22 && c.toNat != 0x5C

def escapes : List UInt8 := [0x22, 0x5C, 0x2F, 0x62, 0x66, 0x6E, 0x72, 0x74]

def digit (b : UInt8) : Bool := 0x30 ≤ b && b ≤ 0x39

def hexDigit (b : UInt8) : Bool := digit b || (0x41 ≤ b && b ≤ 0x46) || (0x61 ≤ b && b ≤ 0x66)

inductive StringBody : List UInt8 → Prop
  | nil : StringBody []
  | plain {c : Char} {bs : List UInt8} (hc : plain c = true) (hbs : StringBody bs) :
      StringBody (String.utf8EncodeChar c ++ bs)
  | escape {b : UInt8} {bs : List UInt8} (hb : b ∈ escapes) (hbs : StringBody bs) :
      StringBody (backslash :: b :: bs)
  | unicode {a b c d : UInt8} {bs : List UInt8} (ha : hexDigit a = true) (hb : hexDigit b = true)
      (hc : hexDigit c = true) (hd : hexDigit d = true) (hbs : StringBody bs) :
      StringBody (backslash :: 0x75 :: a :: b :: c :: d :: bs)

def Digits (bs : List UInt8) : Prop := bs ≠ [] ∧ ∀ b ∈ bs, digit b = true

inductive IntPart : List UInt8 → Prop
  | zero : IntPart [0x30]
  | nonzero {b : UInt8} {bs : List UInt8} (hb : digit b = true) (hne : b ≠ 0x30)
      (hbs : ∀ d ∈ bs, digit d = true) : IntPart (b :: bs)

inductive Fraction : List UInt8 → Prop
  | none : Fraction []
  | some {bs : List UInt8} (hbs : Digits bs) : Fraction (0x2E :: bs)

inductive Exponent : List UInt8 → Prop
  | none : Exponent []
  | some {e : UInt8} {sign bs : List UInt8} (he : e = 0x65 ∨ e = 0x45)
      (hsign : sign = [] ∨ sign = [0x2B] ∨ sign = [0x2D]) (hbs : Digits bs) :
      Exponent (e :: (sign ++ bs))

inductive IsNumber : List UInt8 → Prop
  | mk {minus int frac exp : List UInt8} (hminus : minus = [] ∨ minus = [0x2D]) (hint : IntPart int)
      (hfrac : Fraction frac) (hexp : Exponent exp) : IsNumber (minus ++ int ++ frac ++ exp)

inductive Punct
  | beginArray
  | endArray
  | beginObject
  | endObject
  | nameSeparator
  | valueSeparator
deriving DecidableEq, Repr

def Punct.byte : Punct → UInt8
  | .beginArray => 0x5B
  | .endArray => 0x5D
  | .beginObject => 0x7B
  | .endObject => 0x7D
  | .nameSeparator => 0x3A
  | .valueSeparator => 0x2C

inductive Literal
  | trueName
  | falseName
  | nullName
deriving DecidableEq, Repr

def Literal.bytes : Literal → List UInt8
  | .trueName => [0x74, 0x72, 0x75, 0x65]
  | .falseName => [0x66, 0x61, 0x6C, 0x73, 0x65]
  | .nullName => [0x6E, 0x75, 0x6C, 0x6C]

inductive Token
  | punct (p : Punct)
  | string (body : List UInt8) (h : StringBody body)
  | number (text : List UInt8) (h : IsNumber text)
  | literal (l : Literal)

def Token.bytes : Token → List UInt8
  | .punct p => [p.byte]
  | .string body _ => quote :: (body ++ [quote])
  | .number text _ => text
  | .literal l => l.bytes

def concat (ts : List Token) : List UInt8 := ts.flatMap Token.bytes

@[simp] theorem concat_nil : concat [] = [] := rfl

@[simp] theorem concat_cons (t : Token) (ts : List Token) :
    concat (t :: ts) = t.bytes ++ concat ts := rfl

@[simp] theorem concat_append (ts us : List Token) : concat (ts ++ us) = concat ts ++ concat us :=
  List.flatMap_append

/-! ## Texts -/

inductive Nonterminal
  | value
  | elements
  | members

inductive Derives : Nonterminal → List Token → Prop
  | literal (l : Literal) : Derives .value [.literal l]
  | number {text : List UInt8} (h : IsNumber text) : Derives .value [.number text h]
  | string {body : List UInt8} (h : StringBody body) : Derives .value [.string body h]
  | emptyArray : Derives .value [.punct .beginArray, .punct .endArray]
  | array {ts : List Token} (h : Derives .elements ts) :
      Derives .value (.punct .beginArray :: (ts ++ [.punct .endArray]))
  | emptyObject : Derives .value [.punct .beginObject, .punct .endObject]
  | object {ts : List Token} (h : Derives .members ts) :
      Derives .value (.punct .beginObject :: (ts ++ [.punct .endObject]))
  | element {ts : List Token} (h : Derives .value ts) : Derives .elements ts
  | elements {ts us : List Token} (h : Derives .value ts) (hs : Derives .elements us) :
      Derives .elements (ts ++ .punct .valueSeparator :: us)
  | member {body : List UInt8} {ts : List Token} (hbody : StringBody body) (h : Derives .value ts) :
      Derives .members (.string body hbody :: .punct .nameSeparator :: ts)
  | members {body : List UInt8} {ts us : List Token} (hbody : StringBody body)
      (h : Derives .value ts) (hs : Derives .members us) :
      Derives .members
        (.string body hbody :: .punct .nameSeparator :: (ts ++ .punct .valueSeparator :: us))

/-- The tokens with whitespace before, between and after them. -/
inductive Spaced : List Token → List UInt8 → Prop
  | nil {space : List UInt8} (hspace : ∀ b ∈ space, whitespace b = true) : Spaced [] space
  | cons {space raw : List UInt8} {t : Token} {ts : List Token}
      (hspace : ∀ b ∈ space, whitespace b = true) (h : Spaced ts raw) :
      Spaced (t :: ts) (space ++ (t.bytes ++ raw))

structure IsText (ts : List Token) (raw : List UInt8) : Prop where
  value : Derives .value ts
  spaced : Spaced ts raw

theorem spaced_concat (ts : List Token) : Spaced ts (concat ts) := by
  have hnone : ∀ b ∈ ([] : List UInt8), whitespace b = true := by simp
  induction ts with
  | nil => exact .nil hnone
  | cons t ts ih => exact .cons hnone ih

theorem Spaced.append {ts us : List Token} {a b : List UInt8} (ha : Spaced ts a)
    (hb : Spaced us b) : Spaced (ts ++ us) (a ++ b) := by
  induction ha with
  | nil hspace =>
    cases hb with
    | nil hspace' => exact .nil fun x hx => (List.mem_append.mp hx).elim (hspace x) (hspace' x)
    | cons hspace' h =>
      rw [← List.append_assoc]
      exact .cons (fun x hx => (List.mem_append.mp hx).elim (hspace x) (hspace' x)) h
  | cons hspace _ ih =>
    rw [List.append_assoc, List.append_assoc]
    exact .cons hspace ih

/-! ## Reading tokens back

The first byte of a token tells its kind. A string ends at its closing quote, a word
where the next byte is not one of a word. -/

inductive Kind
  | punct
  | string
  | word
deriving DecidableEq, Repr

def Token.kind : Token → Kind
  | .punct _ => .punct
  | .string _ _ => .string
  | .number _ _ | .literal _ => .word

def wordByte (b : UInt8) : Bool :=
  digit b || (0x61 ≤ b && b ≤ 0x7A) || b == 0x45 || b == 0x2B || b == 0x2D || b == 0x2E

def kindOf (b : UInt8) : Kind :=
  if b = quote then .string else if wordByte b then .word else .punct

theorem wordByte_of_digit {b : UInt8} (h : digit b = true) : wordByte b = true := by
  simp [wordByte, h]

theorem IntPart.word {bs : List UInt8} (h : IntPart bs) : ∀ b ∈ bs, wordByte b = true := by
  cases h with
  | zero => exact List.forall_mem_singleton.mpr (by decide)
  | nonzero hb _ hbs =>
    exact List.forall_mem_cons.mpr
      ⟨wordByte_of_digit hb, fun b hmem => wordByte_of_digit (hbs b hmem)⟩

theorem Fraction.word {bs : List UInt8} (h : Fraction bs) : ∀ b ∈ bs, wordByte b = true := by
  cases h with
  | none => simp
  | some hbs =>
    exact List.forall_mem_cons.mpr ⟨by decide, fun b hmem => wordByte_of_digit (hbs.2 b hmem)⟩

theorem Exponent.word {bs : List UInt8} (h : Exponent bs) : ∀ b ∈ bs, wordByte b = true := by
  cases h with
  | none => simp
  | some he hsign hbs =>
    refine List.forall_mem_cons.mpr ⟨?_, ?_⟩
    · rcases he with rfl | rfl <;> decide
    · intro b hmem
      rcases List.mem_append.mp hmem with hmem | hmem
      · rcases hsign with rfl | rfl | rfl
        · cases hmem
        · rw [List.mem_singleton.mp hmem]
          decide
        · rw [List.mem_singleton.mp hmem]
          decide
      · exact wordByte_of_digit (hbs.2 b hmem)

theorem IsNumber.word {bs : List UInt8} (h : IsNumber bs) : ∀ b ∈ bs, wordByte b = true := by
  obtain ⟨hminus, hint, hfrac, hexp⟩ := h
  intro b hb
  simp only [List.mem_append] at hb
  rcases hb with ((hb | hb) | hb) | hb
  · rcases hminus with rfl | rfl
    · cases hb
    · rw [List.mem_singleton.mp hb]
      decide
  · exact hint.word b hb
  · exact hfrac.word b hb
  · exact hexp.word b hb

theorem Literal.word (l : Literal) : ∀ b ∈ l.bytes, wordByte b = true := by
  have hall : l.bytes.all wordByte = true := by cases l <;> rfl
  exact List.all_eq_true.mp hall

theorem IsNumber.head {bs : List UInt8} (h : IsNumber bs) :
    ∃ b rest, bs = b :: rest ∧ (digit b = true ∨ b = 0x2D) := by
  obtain ⟨hminus, hint, hfrac, hexp⟩ := h
  rcases hminus with rfl | rfl
  · cases hint with
    | zero => exact ⟨_, _, rfl, Or.inl (by decide)⟩
    | nonzero hb => exact ⟨_, _, rfl, Or.inl hb⟩
  · exact ⟨_, _, rfl, Or.inr rfl⟩

theorem Literal.bytes_not_number (l : Literal) : ¬ IsNumber l.bytes := by
  intro h
  obtain ⟨b, rest, hbytes, hb⟩ := h.head
  cases l <;> obtain ⟨rfl, -⟩ := List.cons.inj hbytes <;> exact absurd hb (by decide)

theorem Literal.bytes_injective : Function.Injective Literal.bytes := by
  intro l m h
  cases l <;> cases m <;> first | rfl | cases h

theorem Token.head_kind (t : Token) : ∃ b rest, t.bytes = b :: rest ∧ kindOf b = t.kind := by
  cases t with
  | punct p => exact ⟨p.byte, [], rfl, by cases p <;> rfl⟩
  | string body => exact ⟨quote, _, rfl, rfl⟩
  | number text h =>
    obtain ⟨b, rest, htext, -⟩ := h.head
    have hword : wordByte b = true := h.word b (by simp [htext])
    have hquote : b ≠ quote := by
      rintro rfl
      exact absurd hword (by decide)
    exact ⟨b, rest, htext, by simp [kindOf, hword, hquote, Token.kind]⟩
  | literal l => cases l <;> exact ⟨_, _, rfl, rfl⟩

/-! ### Strings -/

def afterString : List UInt8 → List UInt8
  | [] | [_] => []
  | b :: c :: bs =>
    if b = quote then c :: bs else if b = backslash then afterString bs else afterString (c :: bs)

theorem afterString_quote (bs : List UInt8) : afterString (quote :: bs) = bs := by
  cases bs <;> rfl

theorem afterString_escape (b : UInt8) (bs : List UInt8) :
    afterString (backslash :: b :: bs) = afterString bs := rfl

theorem afterString_plain {b : UInt8} (h : b ≠ quote ∧ b ≠ backslash) (bs : List UInt8) :
    afterString (b :: bs) = afterString bs := by
  cases bs with
  | nil => rfl
  | cons c bs => simp [afterString, h]

theorem afterString_append {pre : List UInt8} (h : ∀ b ∈ pre, b ≠ quote ∧ b ≠ backslash)
    (bs : List UInt8) : afterString (pre ++ bs) = afterString bs := by
  induction pre with
  | nil => rfl
  | cons b pre ih =>
    obtain ⟨hb, hpre⟩ := List.forall_mem_cons.mp h
    rw [List.cons_append, afterString_plain hb, ih hpre]

theorem utf8_low {c : Char} (h : c.toNat ≤ 0x7F) :
    String.utf8EncodeChar c = [UInt8.ofNat c.toNat] := by
  unfold String.utf8EncodeChar
  exact if_pos h

theorem utf8_high {c : Char} (h : 0x7F < c.toNat) :
    ∀ b ∈ String.utf8EncodeChar c, 0x80 ≤ b.toNat := by
  have hv : ¬ c.val.toNat ≤ 0x7F := Nat.not_le.mpr h
  have hbyte : ∀ n, n < 256 → (UInt8.ofNat n).toNat = n := fun n hn => by simp [hn]
  unfold String.utf8EncodeChar
  dsimp only
  rw [if_neg hv]
  intro b hb
  split_ifs at hb <;> simp only [List.mem_cons, List.not_mem_nil, or_false] at hb
  · rcases hb with rfl | rfl <;> rw [hbyte _ (by omega)] <;> omega
  · rcases hb with rfl | rfl | rfl <;> rw [hbyte _ (by omega)] <;> omega
  · rcases hb with rfl | rfl | rfl | rfl <;> rw [hbyte _ (by omega)] <;> omega

theorem utf8_plain {c : Char} (hc : plain c = true) :
    ∀ b ∈ String.utf8EncodeChar c, b ≠ quote ∧ b ≠ backslash := by
  intro b hb
  rcases Nat.lt_or_ge 0x7F c.toNat with hhigh | hlow
  · have h80 := utf8_high hhigh b hb
    constructor <;> rintro rfl <;> exact absurd h80 (by decide)
  · rw [utf8_low hlow, List.mem_singleton] at hb
    have hcode : b.toNat = c.toNat := by
      rw [hb, UInt8.toNat_ofNat']
      exact Nat.mod_eq_of_lt (by omega)
    simp only [plain, Bool.and_eq_true, decide_eq_true_eq, bne_iff_ne] at hc
    constructor
    · rintro rfl
      exact hc.1.2 hcode.symm
    · rintro rfl
      exact hc.2 hcode.symm

theorem hexDigit_plain {b : UInt8} (h : hexDigit b = true) : b ≠ quote ∧ b ≠ backslash := by
  constructor <;> rintro rfl <;> exact absurd h (by decide)

theorem StringBody.after {body : List UInt8} (h : StringBody body) (bs : List UInt8) :
    afterString (body ++ quote :: bs) = bs := by
  induction h with
  | nil => exact afterString_quote bs
  | plain hc _ ih => rw [List.append_assoc, afterString_append (utf8_plain hc), ih]
  | escape _ _ ih => exact ih
  | unicode ha hb hc hd _ ih =>
    simp only [List.cons_append, afterString_escape]
    rw [afterString_plain (hexDigit_plain ha), afterString_plain (hexDigit_plain hb),
      afterString_plain (hexDigit_plain hc), afterString_plain (hexDigit_plain hd), ih]

/-! ### Words -/

def Breaks (bs : List UInt8) : Prop := ∀ b ∈ bs.head?, wordByte b = false

theorem takeWhile_word {word bs : List UInt8} (h : ∀ b ∈ word, wordByte b = true)
    (hbs : Breaks bs) : (word ++ bs).takeWhile wordByte = word := by
  rw [List.takeWhile_append_of_pos h]
  cases bs with
  | nil => simp
  | cons b bs => simp [hbs b rfl]

/-- Not both are words, so that they may touch. -/
def Apart (t u : Token) : Prop := t.kind = .word → u.kind ≠ .word

theorem Token.word {t : Token} (h : t.kind = .word) : ∀ b ∈ t.bytes, wordByte b = true := by
  cases t with
  | punct | string => cases h
  | number text hnumber => exact hnumber.word
  | literal l => exact l.word

theorem breaks_concat {t : Token} {ts : List Token} (h : (t :: ts).IsChain Apart)
    (ht : t.kind = .word) : Breaks (concat ts) := by
  cases ts with
  | nil => simp [Breaks, concat]
  | cons u ts =>
    have hu : u.kind ≠ .word := (List.isChain_cons_cons.mp h).1 ht
    obtain ⟨b, rest, hbytes, hkind⟩ := u.head_kind
    intro x hx
    obtain rfl : b = x := by simpa [concat, hbytes] using hx
    rw [← hkind] at hu
    unfold kindOf at hu
    split_ifs at hu with hquote hword
    · rw [hquote]
      decide
    · exact absurd rfl hu
    · simpa using hword

theorem token_eq {t u : Token} {a b : List UInt8} (h : t.bytes ++ a = u.bytes ++ b)
    (ha : t.kind = .word → Breaks a) (hb : u.kind = .word → Breaks b) : t = u := by
  have hkind : t.kind = u.kind := by
    obtain ⟨x, xs, hx, hxk⟩ := t.head_kind
    obtain ⟨y, ys, hy, hyk⟩ := u.head_kind
    rw [hx, hy] at h
    obtain ⟨rfl, -⟩ := List.cons.inj h
    exact hxk.symm.trans hyk
  have hword : t.kind = .word → t.bytes = u.bytes := by
    intro ht
    have hu : u.kind = .word := hkind ▸ ht
    rw [← takeWhile_word (Token.word ht) (ha ht), h, takeWhile_word (Token.word hu) (hb hu)]
  cases t with
  | punct p =>
    cases u with
    | punct q =>
      obtain ⟨hbyte, -⟩ := List.cons.inj h
      cases p <;> cases q <;> first | rfl | exact absurd hbyte (by decide)
    | string | number | literal => cases hkind
  | string body hbody =>
    cases u with
    | string body' hbody' =>
      have hrest : body ++ quote :: a = body' ++ quote :: b := by simpa [Token.bytes] using h
      have hab : a = b := by rw [← hbody.after a, hrest, hbody'.after]
      subst hab
      obtain rfl : body = body' := List.append_cancel_right hrest
      rfl
    | punct | number | literal => cases hkind
  | number text htext =>
    cases u with
    | number text' htext' =>
      obtain rfl : text = text' := hword rfl
      rfl
    | literal l =>
      have hbytes : text = l.bytes := hword rfl
      exact absurd (hbytes ▸ htext) l.bytes_not_number
    | punct | string => cases hkind
  | literal l =>
    cases u with
    | literal m =>
      obtain rfl : l = m := Literal.bytes_injective (hword rfl)
      rfl
    | number text htext =>
      have hbytes : l.bytes = text := hword rfl
      exact absurd (hbytes ▸ htext) l.bytes_not_number
    | punct | string => cases hkind

theorem concat_injective {ts us : List Token} (hts : ts.IsChain Apart) (hus : us.IsChain Apart)
    (h : concat ts = concat us) : ts = us := by
  induction ts generalizing us with
  | nil =>
    cases us with
    | nil => rfl
    | cons u us =>
      obtain ⟨b, rest, hbytes, -⟩ := u.head_kind
      simp [concat, hbytes] at h
  | cons t ts ih =>
    cases us with
    | nil =>
      obtain ⟨b, rest, hbytes, -⟩ := t.head_kind
      simp [concat, hbytes] at h
    | cons u us =>
      have hsplit : t.bytes ++ concat ts = u.bytes ++ concat us := h
      obtain rfl : t = u := token_eq hsplit (breaks_concat hts) (breaks_concat hus)
      have hrest : ts = us := ih hts.tail hus.tail (List.append_cancel_left hsplit)
      rw [hrest]

theorem apart_punct_left (p : Punct) (t : Token) : Apart (.punct p) t := by
  intro h
  cases h

theorem apart_punct_right (t : Token) (p : Punct) : Apart t (.punct p) := by
  intro _ h
  cases h

theorem apart_string_left {body : List UInt8} (h : StringBody body) (t : Token) :
    Apart (.string body h) t := by
  intro h
  cases h

theorem isChain_bracket {ts : List Token} (h : ts.IsChain Apart) (p q : Punct) :
    (Token.punct p :: (ts ++ [.punct q])).IsChain Apart := by
  refine List.isChain_cons.mpr ⟨fun t _ => apart_punct_left p t, List.isChain_append.mpr ?_⟩
  refine ⟨h, List.isChain_singleton _, fun t _ u hu => ?_⟩
  obtain rfl : Token.punct q = u := by simpa using hu
  exact apart_punct_right t q

theorem isChain_separated {ts us : List Token} (hts : ts.IsChain Apart) (hus : us.IsChain Apart)
    (p : Punct) : (ts ++ .punct p :: us).IsChain Apart := by
  refine List.isChain_append.mpr ⟨hts, List.isChain_cons.mpr ⟨fun u _ => apart_punct_left p u, hus⟩, ?_⟩
  intro t _ u hu
  obtain rfl : Token.punct p = u := by simpa using hu
  exact apart_punct_right t p

theorem isChain_named {body : List UInt8} (hbody : StringBody body) {ts : List Token}
    (h : ts.IsChain Apart) (p : Punct) : (Token.string body hbody :: .punct p :: ts).IsChain Apart :=
  List.isChain_cons_cons.mpr ⟨apart_string_left hbody _,
    List.isChain_cons.mpr ⟨fun t _ => apart_punct_left p t, h⟩⟩

theorem Derives.isChain {n : Nonterminal} {ts : List Token} (h : Derives n ts) :
    ts.IsChain Apart := by
  induction h with
  | literal | number | string => exact List.isChain_singleton _
  | emptyArray | emptyObject => exact isChain_bracket List.isChain_nil _ _
  | array _ ih | object _ ih => exact isChain_bracket ih _ _
  | element _ ih => exact ih
  | elements _ _ ih ihs => exact isChain_separated ih ihs _
  | member hbody _ ih => exact isChain_named hbody ih _
  | members hbody _ _ ih ihs => exact isChain_named hbody (isChain_separated ih ihs _) _

theorem Derives.ne_nil {n : Nonterminal} {ts : List Token} (h : Derives n ts) : ts ≠ [] := by
  induction h with
  | element _ ih => exact ih
  | elements | _ => simp

/-- A text is the tokens it is made of. -/
theorem Derives.concat_inj {m n : Nonterminal} {ts us : List Token} (hts : Derives m ts)
    (hus : Derives n us) : concat ts = concat us ↔ ts = us :=
  ⟨concat_injective hts.isChain hus.isChain, congrArg concat⟩

theorem Derives.concat_ne_nil {n : Nonterminal} {ts : List Token} (h : Derives n ts) :
    concat ts ≠ [] := by
  obtain ⟨t, ts, rfl⟩ := List.exists_cons_of_ne_nil h.ne_nil
  obtain ⟨b, rest, hbytes, -⟩ := t.head_kind
  simp [concat, hbytes]

end JsonText
