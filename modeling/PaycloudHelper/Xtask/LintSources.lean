import Mathlib
import PaycloudHelper.Library.Delimited
import PaycloudHelper.Xtask.LintMirrors

/-!
# What the mirrors lint reports

A source as the compiler reads it, with one declaration per line, and the items that the
lint has to report of it.
-/

namespace PaycloudHelper.LintMirrors

open Whitespace

section
variable {lines : List Text}

/-! ## Brace depth -/

def braces (c : Char) (lines : List Text) (i : ℕ) : ℕ := (lines.take i).flatten.count c

def depthAt (lines : List Text) (i : ℕ) : ℤ := braces '{' lines i - braces '}' lines i

theorem braces_succ {i : ℕ} (hi : i < lines.length) (c : Char) :
    braces c lines (i + 1) = braces c lines i + (lineAt lines i).count c := by
  have hline : lines[i]? = some (lineAt lines i) := by
    simp [lineAt, hi]
  rw [braces, List.take_add_one, hline]
  simp [braces]

theorem braces_le (c : Char) (lines : List Text) (i : ℕ) :
    braces c lines i ≤ lines.flatten.count c := by
  have hpre : (lines.take i).flatten <+: lines.flatten := by
    refine ⟨(lines.drop i).flatten, ?_⟩
    rw [← List.flatten_append, List.take_append_drop]
  exact hpre.count_le c

theorem depthAt_succ {i : ℕ} (hi : i < lines.length) :
    depthAt lines (i + 1) =
      depthAt lines i + ((lineAt lines i).count '{' - (lineAt lines i).count '}') := by
  unfold depthAt
  rw [braces_succ hi, braces_succ hi]
  push_cast
  ring

theorem count_add_count_le {α : Type} [DecidableEq α] {a b : α} (hab : a ≠ b) (l : List α) :
    l.count a + l.count b ≤ l.length := by
  induction l with
  | nil => simp
  | cons c l ih =>
    by_cases ha : c = a
    · have hb : c ≠ b := fun hb => hab (ha.symm.trans hb)
      simp only [List.count_cons, List.length_cons, beq_iff_eq, ha, if_true]
      rw [ha] at hb
      simp only [hb, if_false]
      omega
    · simp only [List.count_cons, List.length_cons, beq_iff_eq, ha, if_false]
      split_ifs <;> omega

/-- Braces are balanced, and the compiler takes the file (it takes none of 4 GiB). -/
structure Measured (lines : List Text) : Prop where
  nested : ∀ i ≤ lines.length, 0 ≤ depthAt lines i
  balanced : depthAt lines lines.length = 0
  size : lines.flatten.length < 2 ^ 32

theorem Measured.braces_lt (h : Measured lines) {c : Char} (hc : c = '{' ∨ c = '}') (i : ℕ) :
    braces c lines i < 2 ^ 31 := by
  have hbalanced := h.balanced
  have hsize := h.size
  unfold depthAt braces at hbalanced
  rw [List.take_length] at hbalanced
  have htwo := count_add_count_le (by decide : '{' ≠ '}') lines.flatten
  have hle := braces_le c lines i
  rcases hc with rfl | rfl <;> omega

/-! ## Zones -/

def Closes (lines : List Text) (entry : ℤ) (m : ℕ) : Prop :=
  0 < (lineAt lines m).count '}' ∧ depthAt lines (m + 1) ≤ entry

def Gate (lines : List Text) (g : ℕ) : Prop := gateText <+: trimChars (lineAt lines g)

/-- No line from `g` on, before `i`, closes a brace and gets back to the depth of `g`. -/
def OpenTo (lines : List Text) (g i : ℕ) : Prop :=
  Gate lines g ∧ ∀ m, g ≤ m → m < i → ¬ Closes lines (depthAt lines g) m

def InZone (lines : List Text) (i : ℕ) : Prop := ∃ g ≤ i, OpenTo lines g i

theorem openTo_succ {g i : ℕ} (hgi : g ≤ i) :
    OpenTo lines g (i + 1) ↔ OpenTo lines g i ∧ ¬ Closes lines (depthAt lines g) i := by
  constructor
  · rintro ⟨hgate, hopen⟩
    exact ⟨⟨hgate, fun m hgm hmi => hopen m hgm (hmi.trans (Nat.lt_succ_self i))⟩,
      hopen i hgi (Nat.lt_succ_self i)⟩
  · rintro ⟨⟨hgate, hopen⟩, hlast⟩
    refine ⟨hgate, fun m hgm hmi => ?_⟩
    rcases Nat.lt_succ_iff_lt_or_eq.mp hmi with hlt | rfl
    · exact hopen m hgm hlt
    · exact hlast

def Outermost (lines : List Text) (gates : ℕ → Prop) (i : ℕ) : Option ℤ → Prop
  | none => ∀ g, gates g → ¬ OpenTo lines g i
  | some entry => (∃ g, gates g ∧ OpenTo lines g i ∧ depthAt lines g = entry) ∧
      (∀ g, gates g → OpenTo lines g i → entry ≤ depthAt lines g) ∧ entry ≤ depthAt lines i

theorem gate_iff (i : ℕ) : gate (trimChars (lineAt lines i)) = true ↔ Gate lines i := by
  have hprefix : startsWith (trimChars (lineAt lines i)) gateText = true ↔ Gate lines i :=
    List.isPrefixOf_iff_prefix
  rw [gate, Bool.or_eq_true, hprefix, beq_iff_eq, or_iff_right_iff_imp]
  intro h
  rw [Gate, h]

theorem openTo_self {i : ℕ} : OpenTo lines i i ↔ Gate lines i :=
  ⟨fun h => h.1, fun h => ⟨h, fun _ him hmi => absurd hmi (not_lt.mpr him)⟩⟩

theorem outermost_entered {i : ℕ} {s : Scan} (h : Outermost lines (· < i) i s.testDepth)
    (hdepth : s.depth = depthAt lines i) :
    Outermost lines (· ≤ i) i (s.entered (trimChars (lineAt lines i))) := by
  unfold Scan.entered
  cases htest : s.testDepth with
  | some entry =>
    rw [htest] at h
    obtain ⟨⟨g, hg, hopen, hentry⟩, hleast, hdeep⟩ := h
    refine ⟨⟨g, le_of_lt hg, hopen, hentry⟩, fun g' hg' hopen' => ?_, hdeep⟩
    rcases lt_or_eq_of_le hg' with hlt | rfl
    · exact hleast g' hlt hopen'
    · exact hdeep
  | none =>
    rw [htest] at h
    cases hgate : gate (trimChars (lineAt lines i)) with
    | false =>
      intro g hg hopen
      rcases lt_or_eq_of_le hg with hlt | rfl
      · exact h g hlt hopen
      · rw [Bool.eq_false_iff, ne_eq, gate_iff] at hgate
        exact hgate hopen.1
    | true =>
      have hself : OpenTo lines i i := openTo_self.mpr ((gate_iff i).mp hgate)
      refine ⟨⟨i, le_rfl, hself, hdepth.symm⟩, fun g hg hopen => ?_, hdepth.le⟩
      rcases lt_or_eq_of_le hg with hlt | rfl
      · exact absurd hopen (h g hlt)
      · exact hdepth.le

def left (lines : List Text) (i : ℕ) (entry : ℤ) : Option ℤ :=
  if depthAt lines (i + 1) ≤ entry ∧ 0 < ((lineAt lines i).count '}' : ℤ) then none
  else some entry

theorem outermost_left {i : ℕ} (hi : i < lines.length) {testDepth : Option ℤ}
    (h : Outermost lines (· ≤ i) i testDepth) :
    Outermost lines (· < i + 1) (i + 1) (testDepth.bind (left lines i)) := by
  cases testDepth with
  | none =>
    intro g hg hopen
    exact h g (Nat.lt_succ_iff.mp hg) ((openTo_succ (Nat.lt_succ_iff.mp hg)).mp hopen).1
  | some entry =>
    obtain ⟨⟨g, hg, hopen, hentry⟩, hleast, hdeep⟩ := h
    rw [Option.bind_some, left]
    split_ifs with hcloses
    · intro g' hg' hopen'
      have hg' := Nat.lt_succ_iff.mp hg'
      obtain ⟨hbefore, hnot⟩ := (openTo_succ hg').mp hopen'
      exact hnot ⟨by exact_mod_cast hcloses.2, hcloses.1.trans (hleast g' hg' hbefore)⟩
    · have hstays : ¬ Closes lines entry i := fun hc =>
        hcloses ⟨hc.2, by exact_mod_cast hc.1⟩
      refine ⟨⟨g, Nat.lt_succ_of_le hg, (openTo_succ hg).mpr ⟨hopen, hentry ▸ hstays⟩, hentry⟩,
        fun g' hg' hopen' => ?_, ?_⟩
      · have hg' := Nat.lt_succ_iff.mp hg'
        exact hleast g' hg' ((openTo_succ hg').mp hopen').1
      · rw [depthAt_succ hi] at hcloses ⊢
        omega

/-! ## The run -/

variable (unicode : Char → Bool) (relPath : Text)

def runTo (lines : List Text) (i : ℕ) : Scan :=
  (lines.zipIdx.take i).foldl (Scan.next unicode relPath lines) .start

theorem runTo_succ {i : ℕ} (hi : i < lines.length) :
    runTo unicode relPath lines (i + 1) =
      (runTo unicode relPath lines i).next unicode relPath lines (lineAt lines i, i) := by
  have hline : lines.zipIdx[i]? = some (lineAt lines i, i) := by
    simp [lineAt, hi]
  rw [runTo, List.take_add_one, hline, List.foldl_append]
  rfl

/-- The line reads as the item, no open gate is before it, and no annotation is reached. -/
def Reports (lines : List Text) (i : ℕ) (item : Text) : Prop :=
  ¬ InZone lines i ∧ Plain unicode (trimChars (lineAt lines i)) item ∧ ¬ Reached lines i

theorem mem_found {depthBefore : ℤ} {i : ℕ} {e : Export} :
    e ∈ found unicode relPath lines depthBefore (trimChars (lineAt lines i)) i ↔
      ∃ item, Plain unicode (trimChars (lineAt lines i)) item ∧ ¬ Reached lines i ∧
        e = .new relPath i item := by
  unfold found
  cases hitem : exportedItem unicode (trimChars (lineAt lines i)) with
  | none =>
    simp only [List.not_mem_nil, false_iff]
    rintro ⟨item, hplain, -⟩
    rw [(exportedItem_eq_some unicode).mpr hplain] at hitem
    cases hitem
  | some item =>
    have hplain := (exportedItem_eq_some unicode).mp hitem
    have hpub : startsWith (trimChars (lineAt lines i)) "pub".toList = true := by
      obtain ⟨qualifier, -, keyword, -, rest, hline, -⟩ := hplain
      rw [hline]
      rfl
    simp only [hpub, Bool.true_eq_false, and_false, if_false]
    rw [← hasAnnotation_iff]
    cases hasAnnotation lines i with
    | true => simp
    | false =>
      simp only [Bool.false_eq_true, if_false, List.mem_singleton, not_false_eq_true, true_and]
      constructor
      · rintro rfl
        exact ⟨item, hplain, rfl⟩
      · rintro ⟨name, h, rfl⟩
        rw [h.unique hplain]

theorem Measured.i32TryFrom_count (h : Measured lines) {i : ℕ} (hi : i < lines.length) {c : Char}
    (hc : c = '{' ∨ c = '}') :
    (i32TryFrom ((lineAt lines i).count c)).getD 0 = ((lineAt lines i).count c : ℤ) := by
  have hlt := h.braces_lt hc (i + 1)
  rw [braces_succ hi] at hlt
  rw [i32TryFrom, if_pos (by omega), Option.getD_some]

theorem wrapI32_of_lt {n : ℤ} (hlo : -2 ^ 31 ≤ n) (hhi : n < 2 ^ 31) : wrapI32 n = n := by
  unfold wrapI32
  apply Int.bmod_eq_of_le <;> omega

theorem next_eq (h : Measured lines) {i : ℕ} (hi : i < lines.length) {s : Scan}
    (hdepth : s.depth = depthAt lines i) :
    s.next unicode relPath lines (lineAt lines i, i) =
      ⟨(s.entered (trimChars (lineAt lines i))).bind (left lines i), depthAt lines (i + 1),
        s.out ++ if (s.entered (trimChars (lineAt lines i))).isSome then []
          else found unicode relPath lines s.depth (trimChars (lineAt lines i)) i⟩ := by
  have hopens := h.i32TryFrom_count hi (Or.inl rfl)
  have hcloses := h.i32TryFrom_count hi (Or.inr rfl)
  have hopenLt := h.braces_lt (Or.inl rfl) (i + 1)
  have hcloseLt := h.braces_lt (Or.inr rfl) (i + 1)
  have hwrap : wrapI32 (s.depth + wrapI32 ((lineAt lines i).count '{' - (lineAt lines i).count '}'))
      = depthAt lines (i + 1) := by
    rw [braces_succ hi] at hopenLt hcloseLt
    rw [wrapI32_of_lt (n := (_ : ℤ) - _) (by omega) (by omega), hdepth, ← depthAt_succ hi]
    unfold depthAt
    rw [braces_succ hi, braces_succ hi]
    exact wrapI32_of_lt (by omega) (by omega)
  unfold Scan.next
  simp only [hopens, hcloses, hwrap]
  cases s.entered (trimChars (lineAt lines i)) with
  | none => rfl
  | some entry => simp [left]

theorem outermost_isSome {i : ℕ} {testDepth : Option ℤ}
    (h : Outermost lines (· ≤ i) i testDepth) : testDepth.isSome = true ↔ InZone lines i := by
  cases testDepth with
  | none =>
    refine iff_of_false (by simp) ?_
    rintro ⟨g, hg, hopen⟩
    exact h g hg hopen
  | some entry =>
    obtain ⟨⟨g, hg, hopen, -⟩, -⟩ := h
    exact iff_of_true rfl ⟨g, hg, hopen⟩

theorem toString_noColon (n : ℕ) : ':' ∉ (toString n).toList := by
  intro h
  rw [Nat.toString_eq_repr, Nat.repr_eq_ofList_toDigits, String.toList_ofList] at h
  exact absurd (Nat.isDigit_of_mem_toDigits (by norm_num) (by norm_num) h) (by decide)

theorem Export.new_inj {i j : ℕ} {item name : Text} :
    Export.new relPath i item = .new relPath j name ↔ i = j ∧ item = name := by
  constructor
  · intro h
    simp only [Export.new, Export.mk.injEq, List.append_assoc, List.cons_append,
      List.append_cancel_left_eq, List.cons.injEq, true_and] at h
    have hcount : (toString (i + 1)).toList.count ':' = (toString (j + 1)).toList.count ':' := by
      rw [List.count_eq_zero_of_not_mem (toString_noColon _),
        List.count_eq_zero_of_not_mem (toString_noColon _)]
    obtain ⟨hline, hitem⟩ := Delimited.append_cons_inj h hcount
    have hsucc : i + 1 = j + 1 := Nat.repr_inj.mp (String.toList_injective hline)
    exact ⟨Nat.succ.inj hsucc, hitem⟩
  · rintro ⟨rfl, rfl⟩
    rfl

theorem found_nodup (depthBefore : ℤ) (line : Text) (i : ℕ) :
    (found unicode relPath lines depthBefore line i).Nodup := by
  unfold found
  split
  · exact List.nodup_nil
  · split_ifs
    · exact List.nodup_nil
    · exact List.nodup_nil
    · exact List.nodup_singleton _

structure Follows (lines : List Text) (i : ℕ) (s : Scan) : Prop where
  depth : s.depth = depthAt lines i
  test : Outermost lines (· < i) i s.testDepth
  mem : ∀ e, e ∈ s.out ↔ ∃ j < i, ∃ item, Reports unicode lines j item ∧ e = .new relPath j item
  nodup : s.out.Nodup

theorem Follows.next (h : Measured lines) {i : ℕ} (hi : i < lines.length) {s : Scan}
    (hs : Follows unicode relPath lines i s) :
    Follows unicode relPath lines (i + 1) (s.next unicode relPath lines (lineAt lines i, i)) := by
  have hentered := outermost_entered hs.test hs.depth
  have hzone := outermost_isSome hentered
  have hnew : ∀ e, (e ∈ if (s.entered (trimChars (lineAt lines i))).isSome then []
      else found unicode relPath lines s.depth (trimChars (lineAt lines i)) i) ↔
        ∃ item, Reports unicode lines i item ∧ e = .new relPath i item := by
    intro e
    split_ifs with hsome
    · simp [Reports, hzone.mp hsome]
    · simp [Reports, mem_found, mt hzone.mpr hsome, and_assoc]
  rw [next_eq unicode relPath h hi hs.depth]
  refine ⟨rfl, outermost_left hi hentered, fun e => ?_, ?_⟩
  · rw [List.mem_append, hs.mem, hnew]
    constructor
    · rintro (⟨j, hj, hrest⟩ | hrest)
      · exact ⟨j, hj.trans (Nat.lt_succ_self i), hrest⟩
      · exact ⟨i, Nat.lt_succ_self i, hrest⟩
    · rintro ⟨j, hj, hrest⟩
      rcases Nat.lt_succ_iff_lt_or_eq.mp hj with hlt | rfl
      · exact Or.inl ⟨j, hlt, hrest⟩
      · exact Or.inr hrest
  · refine List.nodup_append.mpr ⟨hs.nodup, ?_, fun e he e' he' hsame => ?_⟩
    · split_ifs
      · exact List.nodup_nil
      · exact found_nodup ..
    · obtain ⟨j, hj, item, -, rfl⟩ := (hs.mem e).mp he
      obtain ⟨name, -, rfl⟩ := (hnew e').mp he'
      exact hj.ne ((Export.new_inj relPath).mp hsame).1

theorem follows_runTo (h : Measured lines) {i : ℕ} (hi : i ≤ lines.length) :
    Follows unicode relPath lines i (runTo unicode relPath lines i) := by
  induction i with
  | zero =>
    refine ⟨?_, ?_, ?_, ?_⟩
    · simp [runTo, Scan.start, depthAt, braces]
    · simp [runTo, Scan.start, Outermost]
    · simp [runTo, Scan.start]
    · simp [runTo, Scan.start]
  | succ i ih =>
    rw [runTo_succ unicode relPath hi]
    exact (ih (Nat.le_of_succ_le hi)).next unicode relPath h hi

end

/-! ## Sources -/

inductive Visibility
  | pub
  | restricted
  | inherited
deriving DecidableEq, Repr

/-- `fn` is also for `unsafe` and `extern` functions, `other` for the items that need no
annotation: modules, uses, impls, macros. -/
inductive Kind
  | fn
  | constFn
  | asyncFn
  | struct
  | enum
  | trait
  | type
  | const
  | static
  | union
  | other
deriving DecidableEq, Repr

def Kind.keyword : Kind → Text
  | .fn | .constFn | .asyncFn => "fn".toList
  | .struct => "struct".toList
  | .enum => "enum".toList
  | .trait => "trait".toList
  | .type => "type".toList
  | .const => "const".toList
  | .static => "static".toList
  | .union => "union".toList
  | .other => []

/-- `gated` is for `#[cfg(test)]` among the attributes, `last` for the line that ends the
item. -/
structure Decl where
  vis : Visibility
  kind : Kind
  name : Text
  gated : Bool
  last : ℕ
deriving DecidableEq, Repr

/-- What the compiler takes a line for; a line that goes on with an attribute, a comment or
a string is no other thing than what it goes on with. -/
inductive Role
  | blank
  | comment
  | attribute
  | code (decl : Option Decl)
deriving DecidableEq, Repr

structure RustSource where
  text : Text
  role : ℕ → Role
  measured : Measured (linesOf text)
  blank : ∀ i, role i = .blank → trimChars (lineAt (linesOf text) i) = []
  named : ∀ i d, role i = .code (some d) → d.name <:+: trimChars (lineAt (linesOf text) i)
  spelled : ∀ i d, role i = .code (some d) → d.vis = .pub → d.kind ≠ .other →
    ∃ lead mid gap rest, trimChars (lineAt (linesOf text) i) =
      lead ++ "pub".toList ++ mid ++ d.kind.keyword ++ gap ++ d.name ++ rest
  ends : ∀ i d, role i = .code (some d) → i ≤ d.last ∧ d.last < (linesOf text).length
  gates : ∀ i d, role i = .code (some d) → d.gated = true →
    ∃ k ≤ i, gateText <:+: lineAt (linesOf text) k ∧
      ∀ m, k < m → m < i → ∀ decl, role m ≠ .code decl

section
variable (src : RustSource)

def RustSource.lines : List Text := linesOf src.text

def RustSource.line (i : ℕ) : Text := trimChars (lineAt src.lines i)

def InsideGated (i : ℕ) : Prop :=
  ∃ j d, src.role j = .code (some d) ∧ d.gated = true ∧ j ≤ i ∧ i ≤ d.last

def Attaches (m : ℕ) : Prop :=
  src.role m = .comment ∨ src.role m = .attribute ∨
    (src.role m = .blank ∧ 0 < m ∧ src.role (m - 1) = .comment)

def Annotated (i : ℕ) : Prop :=
  ∃ k < i, (src.role k = .comment ∨ src.role k = .attribute) ∧ annotated (src.line k) = true ∧
    ∀ m, k < m → m < i → Attaches src m

def Exported (i : ℕ) (d : Decl) : Prop :=
  src.role i = .code (some d) ∧ d.vis = .pub ∧ d.kind ≠ .other

def Expected (i : ℕ) (d : Decl) : Prop :=
  Exported src i d ∧ ¬ InsideGated src i ∧ ¬ Annotated src i

variable (unicode : Char → Bool) (relPath : Text)

/-- Each item that has to be reported is, once and by its name, and nothing else is. -/
def Exact : Prop :=
  (scan unicode src.text relPath).Nodup ∧
    ∀ e, e ∈ scan unicode src.text relPath ↔
      ∃ i d, Expected src i d ∧ e = .new relPath i d.name

def Quiet (i : ℕ) : Prop := InZone src.lines i ∨ Reached src.lines i

/-- What has to be so of a source for the lint to be exact. -/
structure Legible : Prop where
  closed : ∀ i d, Expected src i d → ¬ InZone src.lines i
  unannotated : ∀ i d, Expected src i d → ¬ Reached src.lines i
  plain : ∀ i d, Expected src i d → Plain unicode (src.line i) d.name
  gated : ∀ i item, Plain unicode (src.line i) item → InsideGated src i → Quiet src i
  annotated : ∀ i item, Plain unicode (src.line i) item → Annotated src i → Quiet src i
  undeclared : ∀ i item, Plain unicode (src.line i) item → (∀ d, ¬ Exported src i d) → Quiet src i

variable {src unicode} in
theorem Legible.quiet (h : Legible src unicode) {i : ℕ} {item : Text}
    (hplain : Plain unicode (src.line i) item) (hnone : ∀ d, ¬ Expected src i d) : Quiet src i := by
  by_cases hexported : ∃ d, Exported src i d
  · obtain ⟨d, hd⟩ := hexported
    by_cases hgated : InsideGated src i
    · exact h.gated i item hplain hgated
    · by_cases hannotated : Annotated src i
      · exact h.annotated i item hplain hannotated
      · exact absurd ⟨hd, hgated, hannotated⟩ (hnone d)
  · exact h.undeclared i item hplain (not_exists.mp hexported)

theorem Plain.lt_length {unicode : Char → Bool} {lines : List Text} {i : ℕ} {item : Text}
    (h : Plain unicode (trimChars (lineAt lines i)) item) : i < lines.length := by
  by_contra hge
  obtain ⟨qualifier, -, keyword, -, rest, hline, -⟩ := h
  have hnil : lineAt lines i = [] := by simp [lineAt, not_lt.mp hge]
  rw [hnil] at hline
  cases hline

theorem scan_eq : scan unicode src.text relPath =
    (runTo unicode relPath src.lines src.lines.length).out := by
  rw [runTo, List.take_of_length_le (by simp)]
  rfl

theorem mem_scan (e : Export) :
    e ∈ scan unicode src.text relPath ↔
      ∃ i item, Reports unicode src.lines i item ∧ e = .new relPath i item := by
  have hfollows := follows_runTo unicode relPath src.measured (le_refl _)
  rw [scan_eq]
  refine (hfollows.mem e).trans ⟨fun ⟨i, _, h⟩ => ⟨i, h⟩, ?_⟩
  rintro ⟨i, item, hreports, rfl⟩
  exact ⟨i, hreports.2.1.lt_length, item, hreports, rfl⟩

theorem exact_iff_reports : Exact src unicode relPath ↔
    ∀ i item, Reports unicode src.lines i item ↔ ∃ d, Expected src i d ∧ item = d.name := by
  constructor
  · rintro ⟨-, hmem⟩ i item
    have hline := hmem (.new relPath i item)
    rw [mem_scan] at hline
    constructor
    · intro h
      obtain ⟨j, d, hd, hsame⟩ := hline.mp ⟨i, item, h, rfl⟩
      obtain ⟨rfl, rfl⟩ := (Export.new_inj relPath).mp hsame
      exact ⟨d, hd, rfl⟩
    · rintro ⟨d, hd, rfl⟩
      obtain ⟨j, name, h, hsame⟩ := hline.mpr ⟨i, d, hd, rfl⟩
      obtain ⟨rfl, rfl⟩ := (Export.new_inj relPath).mp hsame
      exact h
  · intro h
    refine ⟨?_, fun e => ?_⟩
    · rw [scan_eq]
      exact (follows_runTo unicode relPath src.measured (le_refl _)).nodup
    · rw [mem_scan]
      constructor
      · rintro ⟨i, item, hreports, rfl⟩
        obtain ⟨d, hd, rfl⟩ := (h i item).mp hreports
        exact ⟨i, d, hd, rfl⟩
      · rintro ⟨i, d, hd, rfl⟩
        exact ⟨i, d.name, (h i d.name).mpr ⟨d, hd, rfl⟩, rfl⟩

/-- The lint reports exactly what it has to if and only if the source is legible to it. -/
theorem scan_exact_iff : Exact src unicode relPath ↔ Legible src unicode := by
  rw [exact_iff_reports]
  constructor
  · intro h
    have hreports : ∀ i d, Expected src i d → Reports unicode src.lines i d.name :=
      fun i d hd => (h i d.name).mpr ⟨d, hd, rfl⟩
    have hquiet : ∀ i item, Plain unicode (src.line i) item → (∀ d, ¬ Expected src i d) →
        Quiet src i := by
      intro i item hplain hnone
      by_contra hnot
      obtain ⟨hzone, hreached⟩ := not_or.mp hnot
      obtain ⟨d, hd, -⟩ := (h i item).mp ⟨hzone, hplain, hreached⟩
      exact hnone d hd
    exact
      { closed := fun i d hd => (hreports i d hd).1
        unannotated := fun i d hd => (hreports i d hd).2.2
        plain := fun i d hd => (hreports i d hd).2.1
        gated := fun i item hplain hgated =>
          hquiet i item hplain fun d hd => hd.2.1 hgated
        annotated := fun i item hplain hannotated =>
          hquiet i item hplain fun d hd => hd.2.2 hannotated
        undeclared := fun i item hplain hnone =>
          hquiet i item hplain fun d hd => hnone d hd.1 }
  · intro h i item
    constructor
    · rintro ⟨hzone, hplain, hreached⟩
      by_contra hnot
      have hnone : ∀ d, ¬ Expected src i d := fun d hd =>
        hnot ⟨d, hd, hplain.unique (h.plain i d hd)⟩
      rcases h.quiet hplain hnone with hin | hfound
      · exact hzone hin
      · exact hreached hfound
    · rintro ⟨d, hd, rfl⟩
      exact ⟨h.closed i d hd, h.plain i d hd, h.unannotated i d hd⟩

end

def bodyless : RustSource where
  text := "#[cfg(test)]\nmod tests;\npub fn missed() {}\n".toList
  role
    | 0 => .attribute
    | 1 => .code (some ⟨.inherited, .other, "tests".toList, true, 1⟩)
    | 2 => .code (some ⟨.pub, .fn, "missed".toList, false, 2⟩)
    | _ => .code none
  measured := ⟨by decide, by decide, by decide⟩
  blank := by
    rintro (_ | _ | _ | i) h <;> cases h
  named := by
    rintro (_ | _ | _ | i) d h <;> cases h <;> decide
  spelled := by
    rintro (_ | _ | _ | i) d h hvis hkind
    · cases h
    · cases h
      cases hvis
    · cases h
      exact ⟨[], [' '], [' '], "() {}".toList, by decide⟩
    · cases h
  ends := by
    rintro (_ | _ | _ | i) d h <;> cases h <;> decide
  gates := by
    rintro (_ | _ | _ | i) d h hgated
    · cases h
    · refine ⟨0, by decide, by decide, fun m _ hm decl hrole => ?_⟩
      obtain rfl : m = 0 := by omega
      cases hrole
    · cases h
      cases hgated
    · cases h

theorem missed_expected : Expected bodyless 2 ⟨.pub, .fn, "missed".toList, false, 2⟩ := by
  refine ⟨⟨rfl, rfl, by decide⟩, ?_, ?_⟩
  · rintro ⟨_ | _ | _ | j, d, hrole, hgated, hj, hlast⟩
    · cases hrole
    · cases hrole
      exact absurd hlast (by decide)
    · cases hrole
      cases hgated
    · omega
  · rintro ⟨_ | _ | k, hk, hrole, hannotated, -⟩
    · revert hannotated
      decide
    · rcases hrole with h | h <;> cases h
    · omega

/-- The gate of the module stays open, and the item is skipped. -/
theorem bodyless_module_hides :
    scan (fun _ => false) bodyless.text "x.rs".toList = [] ∧
      Expected bodyless 2 ⟨.pub, .fn, "missed".toList, false, 2⟩ ∧
      ¬ Exact bodyless (fun _ => false) "x.rs".toList := by
  have hscan : scan (fun _ => false) bodyless.text "x.rs".toList = [] := by decide
  refine ⟨hscan, missed_expected, fun h => ?_⟩
  have hmem := (h.2 _).mpr ⟨2, _, missed_expected, rfl⟩
  rw [hscan] at hmem
  cases hmem

end PaycloudHelper.LintMirrors
