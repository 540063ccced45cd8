import Mathlib

/-!
# Blank text

White space as Unicode has it, which is what the standard library's `char` and `str`
methods test for.
-/

namespace Whitespace

def isWhitespace (c : Char) : Bool :=
  let n := c.toNat
  (0x09 ≤ n && n ≤ 0x0D) || n == 0x20 || n == 0x85 || n == 0xA0 || n == 0x1680 ||
    (0x2000 ≤ n && n ≤ 0x200A) || n == 0x2028 || n == 0x2029 || n == 0x202F || n == 0x205F ||
    n == 0x3000

/-- `text.trim().is_empty()` -/
def blank (text : String) : Bool := text.toList.all isWhitespace

/-- `text.split_whitespace()` -/
def words (text : String) : List (List Char) :=
  (text.toList.splitOnP isWhitespace).filter fun word => !word.isEmpty

/-! ## Trimming -/

def trim (text : String) : List Char :=
  (text.toList.dropWhile isWhitespace).rdropWhile isWhitespace

theorem trim_spec (text : String) :
    ∃ pre post, text.toList = pre ++ trim text ++ post ∧ (∀ c ∈ pre, isWhitespace c = true) ∧
      ∀ c ∈ post, isWhitespace c = true := by
  refine ⟨text.toList.takeWhile isWhitespace,
    (text.toList.dropWhile isWhitespace).rtakeWhile isWhitespace, ?_, ?_, ?_⟩
  · rw [trim, List.append_assoc, List.rdropWhile_append_rtakeWhile, List.takeWhile_append_dropWhile]
  · exact fun c hc => List.mem_takeWhile_imp hc
  · exact fun c hc => List.mem_rtakeWhile_imp hc

def trimChars (text : List Char) : List Char :=
  (text.dropWhile isWhitespace).rdropWhile isWhitespace

theorem trimChars_eq_self {text : List Char} (hhead : ∀ c ∈ text.head?, isWhitespace c = false)
    (hlast : ∀ c ∈ text.getLast?, isWhitespace c = false) : trimChars text = text := by
  have hleft : text.dropWhile isWhitespace = text := by
    cases text with
    | nil => rfl
    | cons c text => simp [hhead c rfl]
  rw [trimChars, hleft, List.rdropWhile_eq_self_iff]
  intro hne
  simp [hlast _ (List.getLast?_eq_some_getLast hne)]

theorem mem_of_mem_trimChars {text : List Char} {c : Char} (h : c ∈ trimChars text) : c ∈ text :=
  (List.dropWhile_sublist isWhitespace).mem ((List.rdropWhile_prefix isWhitespace _).subset h)

def trimEnd (text : List Char) : List Char := text.rdropWhile isWhitespace

theorem trimEnd_append_cons {c : Char} (hc : isWhitespace c = false) (before after : List Char) :
    trimEnd (before ++ c :: after) = before ++ c :: trimEnd after := by
  induction after using List.reverseRecOn with
  | nil =>
    rw [trimEnd, List.rdropWhile_concat_neg _ _ _ (by simp [hc]), trimEnd, List.rdropWhile_nil]
  | append_singleton after d ih =>
    have hshape : before ++ c :: (after ++ [d]) = (before ++ c :: after) ++ [d] := by simp
    by_cases hd : isWhitespace d = true
    · rw [hshape, trimEnd, List.rdropWhile_concat_pos _ _ _ hd, ← trimEnd, ih, trimEnd, trimEnd,
        List.rdropWhile_concat_pos _ _ _ hd]
    · rw [hshape, trimEnd, List.rdropWhile_concat_neg _ _ _ hd, trimEnd,
        List.rdropWhile_concat_neg _ _ _ hd, ← hshape]

theorem trimChars_eq (text : List Char) : trimChars text = trimEnd (text.dropWhile isWhitespace) :=
  rfl

theorem isWhitespace_of_dropWhile {text rest : List Char} {c : Char}
    (h : text.dropWhile isWhitespace = c :: rest) : isWhitespace c = false := by
  have hhead := List.head?_dropWhile_not isWhitespace text
  rw [h] at hhead
  simpa using hhead

theorem trimChars_trimEnd (text : List Char) : trimChars (trimEnd text) = trimChars text := by
  by_cases hblank : ∀ c ∈ text, isWhitespace c = true
  · have hnone : trimEnd text = [] := List.rdropWhile_eq_nil_iff.mpr hblank
    rw [hnone, trimChars, trimChars, List.dropWhile_eq_nil_iff.mpr hblank]
    rfl
  · cases hrest : text.dropWhile isWhitespace with
    | nil => exact absurd (List.dropWhile_eq_nil_iff.mp hrest) hblank
    | cons c rest =>
      have hc : isWhitespace c = false := isWhitespace_of_dropWhile hrest
      have htext : text = text.takeWhile isWhitespace ++ c :: rest := by
        rw [← hrest, List.takeWhile_append_dropWhile]
      have hleft : (trimEnd text).dropWhile isWhitespace = c :: trimEnd rest := by
        rw [htext, trimEnd_append_cons hc,
          List.dropWhile_append_of_pos fun d hd => List.mem_takeWhile_imp hd]
        simp [hc]
      rw [trimChars_eq, trimChars_eq, hleft, hrest]
      rw [← List.nil_append (c :: trimEnd rest), ← List.nil_append (c :: rest),
        trimEnd_append_cons hc, trimEnd_append_cons hc, trimEnd, trimEnd,
        List.rdropWhile_idempotent]

theorem dropWhile_of_none {p : Char → Bool} {word : List Char} (h : ∀ c ∈ word, p c = false) :
    word.dropWhile p = word := by
  cases word with
  | nil => rfl
  | cons c word => simp [h c List.mem_cons_self]

theorem trim_eq_of_append {text : String} {pre word post : List Char}
    (htext : text.toList = pre ++ word ++ post) (hpre : ∀ c ∈ pre, isWhitespace c = true)
    (hpost : ∀ c ∈ post, isWhitespace c = true) (hword : ∀ c ∈ word, isWhitespace c = false) :
    trim text = word := by
  have hleft : text.toList.dropWhile isWhitespace = (word ++ post).dropWhile isWhitespace := by
    rw [htext, List.append_assoc, List.dropWhile_append_of_pos hpre]
  cases word with
  | nil =>
    have hnone : post.dropWhile isWhitespace = [] := List.dropWhile_eq_nil_iff.mpr hpost
    rw [trim, hleft, List.nil_append, hnone, List.rdropWhile_nil]
  | cons c word =>
    have hc : isWhitespace c = false := hword c List.mem_cons_self
    have hkept : (c :: word ++ post).dropWhile isWhitespace = c :: word ++ post := by simp [hc]
    have hreverse : ∀ d ∈ (c :: word).reverse, isWhitespace d = false :=
      fun d hd => hword d (List.mem_reverse.mp hd)
    rw [trim, hleft, hkept, List.rdropWhile, List.reverse_append,
      List.dropWhile_append_of_pos fun d hd => hpost d (List.mem_reverse.mp hd),
      dropWhile_of_none hreverse, List.reverse_reverse]

theorem toLower_of_isWhitespace {c : Char} (h : isWhitespace c = true) : c.toLower = c := by
  have hnot : ¬ (c.val ≥ 'A'.val ∧ c.val ≤ 'Z'.val) := by
    rintro ⟨hlo, hhi⟩
    have hlo : 65 ≤ c.toNat := hlo
    have hhi : c.toNat ≤ 90 := hhi
    simp only [isWhitespace, Bool.or_eq_true, Bool.and_eq_true, decide_eq_true_eq, beq_iff_eq] at h
    omega
  exact dif_neg hnot

end Whitespace
