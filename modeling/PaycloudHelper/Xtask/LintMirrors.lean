import Mathlib
import PaycloudHelper.Library.Whitespace

/-!
# The mirrors lint

A source is read line by line, with a brace counter and the depth at which a
`#[cfg(test)]` line was met. The counter is an `i32` that wraps. The alphanumerics outside
ASCII are given.
-/

namespace PaycloudHelper.LintMirrors

open Whitespace

abbrev Text := List Char

def stripReturn (line : Text) : Text :=
  if line.getLast? = some '\r' then line.dropLast else line

def linesOf (source : Text) : List Text :=
  let pieces := source.splitOn '\n'
  let ended := pieces.dropLast.map stripReturn
  match pieces.getLast? with
  | none | some [] => ended
  | some last => ended ++ [last]

def lineAt (lines : List Text) (i : ℕ) : Text := lines.getD i []

def startsWith (text pre : Text) : Bool := pre.isPrefixOf text

def stripPrefix (text pre : Text) : Option Text :=
  if startsWith text pre then some (text.drop pre.length) else none

/-! ## Annotations -/

def annotations : List Text := ["mirrors:".toList, "no-go-equivalent:".toList]

def annotated (line : Text) : Bool := annotations.any fun a => decide (a <:+: line)

def comment (line : Text) : Bool :=
  startsWith line "///".toList || startsWith line "//!".toList || startsWith line "//".toList

def passed (lines : List Text) (i : ℕ) : Bool :=
  let line := trimChars (lineAt lines i)
  startsWith line ['#'] ||
    (line.isEmpty && decide (0 < i) && startsWith (trimChars (lineAt lines (i - 1))) "//".toList)

/-- Walks up from the line before `index`. -/
def hasAnnotation (lines : List Text) : ℕ → Bool
  | 0 => false
  | i + 1 =>
    let line := trimChars (lineAt lines i)
    if comment line then if annotated line then true else hasAnnotation lines i
    else if passed lines i then hasAnnotation lines i
    else false

/-! ## Exported items -/

def keywords : List Text :=
  ["fn ".toList, "struct ".toList, "enum ".toList, "trait ".toList, "type ".toList,
    "const ".toList, "static ".toList, "union ".toList]

section
variable (unicode : Char → Bool)

def isAlphanumeric (c : Char) : Bool := c.isAlphanum || (128 ≤ c.toNat && unicode c)

def nameChar (c : Char) : Bool := isAlphanumeric unicode c || c == '_'

def unqualified (rest : Text) : Text :=
  ((stripPrefix rest "async ".toList).or (stripPrefix rest "unsafe ".toList)).getD rest

def exportedItem (line : Text) : Option Text :=
  if startsWith line "pub(crate)".toList || startsWith line "pub(super)".toList then none
  else do
    let rest ← stripPrefix line "pub ".toList
    if startsWith rest "use ".toList || startsWith rest "mod ".toList then none
    else
      let tail ← keywords.findSome? (stripPrefix (unqualified rest))
      let name := tail.takeWhile (nameChar unicode)
      if name.isEmpty then none else some name

/-! ## The scan -/

structure Export where
  key : Text
deriving DecidableEq, Repr

def Export.new (relPath : Text) (index : ℕ) (item : Text) : Export :=
  ⟨relPath ++ ':' :: (toString (index + 1)).toList ++ ':' :: item⟩

def i32TryFrom (n : ℕ) : Option ℤ := if n < 2 ^ 31 then some n else none

def wrapI32 (n : ℤ) : ℤ := Int.bmod n (2 ^ 32)

def gateText : Text := "#[cfg(test)]".toList

def gate (line : Text) : Bool := line == gateText || startsWith line gateText

structure Scan where
  testDepth : Option ℤ
  depth : ℤ
  out : List Export

def Scan.start : Scan := ⟨none, 0, []⟩

/-- `test_depth` once the line has been looked at. -/
def Scan.entered (s : Scan) (line : Text) : Option ℤ :=
  if s.testDepth.isNone && gate line then some s.depth else s.testDepth

def found (relPath : Text) (lines : List Text) (depthBefore : ℤ) (line : Text) (index : ℕ) :
    List Export :=
  match exportedItem unicode line with
  | none => []
  | some item =>
    if 0 < depthBefore ∧ startsWith line "pub".toList = false then []
    else if hasAnnotation lines index then []
    else [.new relPath index item]

def Scan.next (relPath : Text) (lines : List Text) (s : Scan) : Text × ℕ → Scan
  | (raw, index) =>
    let line := trimChars raw
    let testDepth := s.entered line
    let opens := (i32TryFrom (raw.count '{')).getD 0
    let closes := (i32TryFrom (raw.count '}')).getD 0
    let depth := wrapI32 (s.depth + wrapI32 (opens - closes))
    match testDepth with
    | some entry => ⟨if depth ≤ entry ∧ 0 < closes then none else some entry, depth, s.out⟩
    | none => ⟨none, depth, s.out ++ found unicode relPath lines s.depth line index⟩

def scan (source relPath : Text) : List Export :=
  let lines := linesOf source
  (lines.zipIdx.foldl (Scan.next unicode relPath lines) .start).out

/-! ## What a line reads as -/

theorem stripPrefix_eq_some {text pre rest : Text} :
    stripPrefix text pre = some rest ↔ text = pre ++ rest := by
  unfold stripPrefix startsWith
  constructor
  · intro h
    split_ifs at h with hpre
    obtain ⟨tail, rfl⟩ := List.isPrefixOf_iff_prefix.mp hpre
    rw [List.drop_left, Option.some.injEq] at h
    rw [h]
  · rintro rfl
    have hpre : pre.isPrefixOf (pre ++ rest) = true :=
      List.isPrefixOf_iff_prefix.mpr (List.prefix_append pre rest)
    rw [if_pos hpre, List.drop_left]

def qualifiers : List Text := [[], "async ".toList, "unsafe ".toList]

/-- How a line is spelled that the lint reads as the item of that name. -/
def Plain (line name : Text) : Prop :=
  ∃ qualifier ∈ qualifiers, ∃ keyword ∈ keywords, ∃ rest,
    line = "pub ".toList ++ (qualifier ++ (keyword ++ (name ++ rest))) ∧ name ≠ [] ∧
      (∀ c ∈ name, nameChar unicode c = true) ∧ ∀ c ∈ rest.head?, nameChar unicode c = false

theorem startsWith_qualified {qualifier keyword : Text} (hq : qualifier ∈ qualifiers)
    (hk : keyword ∈ keywords) (tail : Text) :
    startsWith (qualifier ++ (keyword ++ tail)) "use ".toList = false ∧
      startsWith (qualifier ++ (keyword ++ tail)) "mod ".toList = false := by
  unfold qualifiers at hq
  unfold keywords at hk
  fin_cases hq
  · fin_cases hk <;> exact ⟨rfl, rfl⟩
  · exact ⟨rfl, rfl⟩
  · exact ⟨rfl, rfl⟩

theorem unqualified_qualified {qualifier keyword : Text} (hq : qualifier ∈ qualifiers)
    (hk : keyword ∈ keywords) (tail : Text) :
    unqualified (qualifier ++ (keyword ++ tail)) = keyword ++ tail := by
  unfold qualifiers at hq
  unfold keywords at hk
  fin_cases hq
  · fin_cases hk <;> rfl
  · rfl
  · rfl

theorem exists_qualifier (rest : Text) : ∃ q ∈ qualifiers, rest = q ++ unqualified rest := by
  unfold unqualified
  cases hasync : stripPrefix rest "async ".toList with
  | some tail => exact ⟨"async ".toList, by simp [qualifiers], stripPrefix_eq_some.mp hasync⟩
  | none =>
    cases hunsafe : stripPrefix rest "unsafe ".toList with
    | some tail => exact ⟨"unsafe ".toList, by simp [qualifiers], stripPrefix_eq_some.mp hunsafe⟩
    | none => exact ⟨[], by simp [qualifiers], rfl⟩

theorem findSome_keyword {keyword : Text} (h : keyword ∈ keywords) (tail : Text) :
    keywords.findSome? (stripPrefix (keyword ++ tail)) = some tail := by
  unfold keywords at h ⊢
  fin_cases h <;> rfl

theorem takeWhile_name {name rest : Text} (hname : ∀ c ∈ name, nameChar unicode c = true)
    (hrest : ∀ c ∈ rest.head?, nameChar unicode c = false) :
    (name ++ rest).takeWhile (nameChar unicode) = name := by
  rw [List.takeWhile_append_of_pos hname]
  cases rest with
  | nil => simp
  | cons c rest => simp [hrest c rfl]

theorem exportedItem_eq_some {line name : Text} :
    exportedItem unicode line = some name ↔ Plain unicode line name := by
  constructor
  · intro h
    unfold exportedItem at h
    split_ifs at h
    obtain ⟨rest, hpub, h⟩ := Option.bind_eq_some_iff.mp h
    split_ifs at h
    obtain ⟨tail, htail, h⟩ := Option.bind_eq_some_iff.mp h
    obtain ⟨keyword, hkeyword, hstrip⟩ := List.exists_of_findSome?_eq_some htail
    obtain ⟨qualifier, hqualifier, hrest⟩ := exists_qualifier rest
    dsimp only at h
    split_ifs at h with hempty
    obtain rfl := Option.some.inj h
    refine ⟨qualifier, hqualifier, keyword, hkeyword, tail.dropWhile (nameChar unicode),
      ?_, ?_, ?_, ?_⟩
    · rw [List.takeWhile_append_dropWhile, ← stripPrefix_eq_some.mp hstrip, ← hrest]
      exact stripPrefix_eq_some.mp hpub
    · simpa using hempty
    · exact fun c hc => List.mem_takeWhile_imp hc
    · intro c hc
      have hhead := List.head?_dropWhile_not (nameChar unicode) tail
      rw [Option.mem_def.mp hc] at hhead
      exact hhead
  · rintro ⟨qualifier, hqualifier, keyword, hkeyword, rest, rfl, hne, hname, hrest⟩
    obtain ⟨huse, hmod⟩ := startsWith_qualified hqualifier hkeyword (name ++ rest)
    have hpub : stripPrefix ("pub ".toList ++ (qualifier ++ (keyword ++ (name ++ rest))))
        "pub ".toList = some (qualifier ++ (keyword ++ (name ++ rest))) :=
      stripPrefix_eq_some.mpr rfl
    have hscope : (startsWith ("pub ".toList ++ (qualifier ++ (keyword ++ (name ++ rest))))
          "pub(crate)".toList ||
        startsWith ("pub ".toList ++ (qualifier ++ (keyword ++ (name ++ rest))))
          "pub(super)".toList) = false := rfl
    unfold exportedItem
    rw [hscope, if_neg Bool.false_ne_true, hpub, Option.bind_eq_bind, Option.bind_some, huse, hmod,
      Bool.or_self, if_neg Bool.false_ne_true, unqualified_qualified hqualifier hkeyword,
      findSome_keyword hkeyword, Option.bind_some]
    dsimp only
    rw [takeWhile_name unicode hname hrest, if_neg (by simpa using hne)]

variable {unicode} in
theorem Plain.unique {line item name : Text} (h : Plain unicode line item)
    (h' : Plain unicode line name) : item = name := by
  rw [← exportedItem_eq_some] at h h'
  exact Option.some.inj (h.symm.trans h')

end

/-! ## What the walk finds -/

def Between (lines : List Text) (m : ℕ) : Prop :=
  comment (trimChars (lineAt lines m)) = true ∨ passed lines m = true

/-- Some comment line above `i` has an annotation, and the walk gets to it. -/
def Reached (lines : List Text) (i : ℕ) : Prop :=
  ∃ k < i, comment (trimChars (lineAt lines k)) = true ∧
    annotated (trimChars (lineAt lines k)) = true ∧ ∀ m, k < m → m < i → Between lines m

theorem reached_succ (lines : List Text) (i : ℕ) : Reached lines (i + 1) ↔
    (comment (trimChars (lineAt lines i)) = true ∧
      annotated (trimChars (lineAt lines i)) = true) ∨ Between lines i ∧ Reached lines i := by
  constructor
  · rintro ⟨k, hk, hcomment, hannotated, hbetween⟩
    rcases Nat.lt_succ_iff_lt_or_eq.mp hk with hlt | rfl
    · exact Or.inr ⟨hbetween i hlt (Nat.lt_succ_self i), k, hlt, hcomment, hannotated,
        fun m hkm hmi => hbetween m hkm (hmi.trans (Nat.lt_succ_self i))⟩
    · exact Or.inl ⟨hcomment, hannotated⟩
  · rintro (⟨hcomment, hannotated⟩ | ⟨hi, k, hk, hcomment, hannotated, hbetween⟩)
    · exact ⟨i, Nat.lt_succ_self i, hcomment, hannotated, fun m him hmi => by omega⟩
    · refine ⟨k, hk.trans (Nat.lt_succ_self i), hcomment, hannotated, fun m hkm hmi => ?_⟩
      rcases Nat.lt_succ_iff_lt_or_eq.mp hmi with hlt | rfl
      · exact hbetween m hkm hlt
      · exact hi

theorem hasAnnotation_iff (lines : List Text) (i : ℕ) :
    hasAnnotation lines i = true ↔ Reached lines i := by
  induction i with
  | zero => simp [Reached, hasAnnotation]
  | succ i ih =>
    rw [reached_succ, ← ih, hasAnnotation, Between]
    cases hcomment : comment (trimChars (lineAt lines i)) with
    | true => cases hannotated : annotated (trimChars (lineAt lines i)) <;> simp
    | false => cases hpassed : passed lines i <;> simp

end PaycloudHelper.LintMirrors
