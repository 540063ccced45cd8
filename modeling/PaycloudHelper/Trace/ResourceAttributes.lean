import Mathlib
import PaycloudHelper.Library.BTreeMap
import PaycloudHelper.Library.Splitting
import PaycloudHelper.Library.Whitespace

/-!
# Resource attributes

`OTEL_RESOURCE_ATTRIBUTES`, a list of `key=value` pieces between commas. Nothing in it is
escaped, so not every map can be written.
-/

namespace PaycloudHelper.Trace

open BTreeMaps Splitting Whitespace

def insertAttr (out : BTreeMap String String) (kv : List Char) : BTreeMap String String :=
  match splitOnce ['='] (trimChars kv) with
  | some (k, v) =>
    let k := trimChars k
    if k.isEmpty then out else out.insert (String.ofList k) (String.ofList (trimChars v))
  | none => out

def parseResourceAttrs (raw : String) : BTreeMap String String :=
  if blank raw then .empty else (raw.toList.splitOn ',').foldl insertAttr .empty

/-! ## What a piece says -/

/-- Spaces around the key and around the value do not count, and the first `=` ends the key. -/
def Assigns (piece : List Char) (key value : String) : Prop :=
  ∃ x y, piece = x ++ '=' :: y ∧ '=' ∉ x ∧ trimChars x = key.toList ∧ trimChars y = value.toList ∧
    key ≠ ""

def attrOf (kv : List Char) : Option (String × String) :=
  match splitOnce ['='] (trimChars kv) with
  | some (k, v) =>
    if (trimChars k).isEmpty then none
    else some (String.ofList (trimChars k), String.ofList (trimChars v))
  | none => none

theorem insertAttr_eq (out : BTreeMap String String) (kv : List Char) :
    insertAttr out kv = (attrOf kv).elim out fun e => out.insert e.1 e.2 := by
  unfold insertAttr attrOf
  cases splitOnce ['='] (trimChars kv) with
  | none => rfl
  | some parts =>
    dsimp only
    split_ifs <;> rfl

theorem trimChars_dropWhile (text : List Char) :
    trimChars (text.dropWhile isWhitespace) = trimChars text := by
  rw [trimChars, List.dropWhile_idempotent, trimChars]

theorem trimChars_piece (x y : List Char) :
    trimChars (x ++ '=' :: y) = x.dropWhile isWhitespace ++ '=' :: trimEnd y := by
  have hleft : (x ++ '=' :: y).dropWhile isWhitespace = x.dropWhile isWhitespace ++ '=' :: y := by
    rw [List.dropWhile_append]
    cases x.dropWhile isWhitespace with
    | nil => rfl
    | cons c rest => rfl
  rw [trimChars_eq, hleft, trimEnd_append_cons (by decide)]

theorem attrOf_append {x : List Char} (hx : '=' ∉ x) (y : List Char) :
    attrOf (x ++ '=' :: y) =
      if (trimChars x).isEmpty then none
      else some (String.ofList (trimChars x), String.ofList (trimChars y)) := by
  have hkey : '=' ∉ x.dropWhile isWhitespace := fun h =>
    hx ((List.dropWhile_sublist isWhitespace).mem h)
  unfold attrOf
  rw [trimChars_piece, splitOnce_singleton_of_append hkey]
  dsimp only
  rw [trimChars_dropWhile, trimChars_trimEnd]

theorem attrOf_eq_some {piece : List Char} {key value : String} :
    attrOf piece = some (key, value) ↔ Assigns piece key value := by
  constructor
  · intro h
    by_cases hmem : '=' ∈ piece
    · obtain ⟨x, y, rfl, hx⟩ := List.eq_append_cons_of_mem hmem
      rw [attrOf_append hx] at h
      split_ifs at h with hempty
      obtain ⟨rfl, rfl⟩ := Prod.mk.inj (Option.some.inj h)
      refine ⟨x, y, rfl, hx, String.toList_ofList.symm, String.toList_ofList.symm, ?_⟩
      simpa using hempty
    · have hnone : splitOnce ['='] (trimChars piece) = none :=
        splitOnce_singleton_of_notMem fun h => hmem (mem_of_mem_trimChars h)
      rw [attrOf, hnone] at h
      cases h
  · rintro ⟨x, y, rfl, hx, hkey, hvalue, hne⟩
    rw [attrOf_append hx, hkey, hvalue, String.ofList_toList, String.ofList_toList, if_neg]
    simpa using hne

theorem parseResourceAttrs_eq (raw : String) :
    parseResourceAttrs raw = (raw.toList.splitOn ',').foldl
      (fun m w => (attrOf w).elim m fun e => m.insert e.1 e.2) .empty := by
  unfold parseResourceAttrs
  split_ifs with hblank
  · have hwhite : ∀ c ∈ raw.toList, isWhitespace c = true := List.all_eq_true.mp hblank
    have hcomma : ',' ∉ raw.toList := fun h => absurd (hwhite _ h) (by decide)
    have hnone : attrOf raw.toList = none := by
      have htrim : trimChars raw.toList = [] := by
        rw [trimChars, List.dropWhile_eq_nil_iff.mpr hwhite, List.rdropWhile_nil]
      rw [attrOf, htrim]
      rfl
    rw [List.splitOn_eq_singleton hcomma, List.foldl_cons, hnone]
    rfl
  · congr 1
    funext m w
    exact insertAttr_eq m w

theorem mem_parseResourceAttrs {raw key value : String} :
    (key, value) ∈ (parseResourceAttrs raw).entries ↔
      ∃ before piece after, raw.toList.splitOn ',' = before ++ piece :: after ∧
        Assigns piece key value ∧ ∀ later ∈ after, ∀ w, ¬ Assigns later key w := by
  rw [parseResourceAttrs_eq, mem_foldl_insert]
  simp only [attrOf_eq_some]
  have hlater : ∀ after : List (List Char),
      (∀ later ∈ after, ∀ e', attrOf later = some e' → e'.1 ≠ key) ↔
        ∀ later ∈ after, ∀ w, ¬ Assigns later key w := by
    intro after
    refine forall₂_congr fun later _ => ⟨fun h w hw => h _ (attrOf_eq_some.mpr hw) rfl, ?_⟩
    rintro h ⟨k, w⟩ hw rfl
    exact h w (attrOf_eq_some.mp hw)
  simp only [hlater]

/-! ## What can be written -/

structure Writable (e : String × String) : Prop where
  key_ne : e.1 ≠ ""
  key_trimmed : trimChars e.1.toList = e.1.toList
  value_trimmed : trimChars e.2.toList = e.2.toList
  key_no_equals : '=' ∉ e.1.toList
  key_no_comma : ',' ∉ e.1.toList
  value_no_comma : ',' ∉ e.2.toList

def renderAttr (e : String × String) : List Char := e.1.toList ++ '=' :: e.2.toList

def renderAttrs (m : BTreeMap String String) : String :=
  String.ofList ([','].intercalate (m.entries.map renderAttr))

theorem trimChars_trimChars (text : List Char) : trimChars (trimChars text) = trimChars text := by
  conv_lhs => rw [trimChars_eq text, trimChars_trimEnd, trimChars_dropWhile]

theorem Assigns.writable {piece : List Char} {key value : String} (h : Assigns piece key value)
    (hpiece : ',' ∉ piece) : Writable (key, value) := by
  obtain ⟨x, y, rfl, hx, hkey, hvalue, hne⟩ := h
  have hcomma : ∀ c ∈ key.toList, c ∈ x := fun c hc => mem_of_mem_trimChars (hkey ▸ hc)
  have hcomma' : ∀ c ∈ value.toList, c ∈ y := fun c hc => mem_of_mem_trimChars (hvalue ▸ hc)
  exact {
    key_ne := hne
    key_trimmed := by rw [← hkey, trimChars_trimChars]
    value_trimmed := by rw [← hvalue, trimChars_trimChars]
    key_no_equals := fun hc => hx (hcomma _ hc)
    key_no_comma := fun hc => hpiece (by simp [hcomma _ hc])
    value_no_comma := fun hc => hpiece (by simp [hcomma' _ hc]) }

theorem Writable.assigns {e : String × String} (h : Writable e) {key value : String} :
    Assigns (renderAttr e) key value ↔ (key, value) = e := by
  rw [← attrOf_eq_some, renderAttr, attrOf_append h.key_no_equals, h.key_trimmed,
    h.value_trimmed, String.ofList_toList, String.ofList_toList, if_neg, Option.some.injEq, eq_comm]
  simpa using h.key_ne

theorem writable_of_mem {raw : String} {e : String × String}
    (h : e ∈ (parseResourceAttrs raw).entries) : Writable e := by
  obtain ⟨before, piece, after, hpieces, hassigns, -⟩ := mem_parseResourceAttrs.mp h
  have hmem : piece ∈ raw.toList.splitOn ',' := by simp [hpieces]
  exact hassigns.writable (notMem_of_mem_splitOn hmem)

theorem parse_renderAttrs {m : BTreeMap String String} (h : ∀ e ∈ m.entries, Writable e) :
    parseResourceAttrs (renderAttrs m) = m := by
  by_cases hempty : m.entries = []
  · have hm : m = .empty := BTreeMap.ext hempty
    rw [hm]
    rfl
  · have hpieces : (renderAttrs m).toList.splitOn ',' = m.entries.map renderAttr := by
      rw [renderAttrs, String.toList_ofList]
      refine List.splitOn_intercalate ',' ?_ (by simpa using hempty)
      intro piece hpiece
      obtain ⟨e, he, rfl⟩ := List.mem_map.mp hpiece
      simp [renderAttr, (h e he).key_no_comma, (h e he).value_no_comma]
    refine BTreeMap.ext_mem fun e => ?_
    obtain ⟨key, value⟩ := e
    rw [mem_parseResourceAttrs, hpieces]
    constructor
    · rintro ⟨before, piece, after, hsplit, hassigns, -⟩
      have hpiece : piece ∈ m.entries.map renderAttr := by simp [hsplit]
      obtain ⟨e, he, rfl⟩ := List.mem_map.mp hpiece
      exact (h e he).assigns.mp hassigns ▸ he
    · intro he
      obtain ⟨before, after, hsplit⟩ := List.append_of_mem he
      refine ⟨before.map renderAttr, renderAttr (key, value), after.map renderAttr,
        by simp [hsplit], (h _ he).assigns.mpr rfl, fun later hlater w hw => ?_⟩
      obtain ⟨e, he', rfl⟩ := List.mem_map.mp hlater
      obtain rfl := (h e (by simp [hsplit, he'])).assigns.mp hw
      have hsorted := hsplit ▸ m.sorted
      have hlt := (List.pairwise_cons.mp (List.pairwise_append.mp hsorted).2.1).1 _ he'
      exact lt_irrefl _ hlt

/-- Of several pieces for a key the last one counts. The maps that some text is read as are
those whose keys and values have no spaces around them and none of the characters in them
that would end them, and such a map is read back. -/
theorem resource_attributes_read :
    (∀ raw key value, (key, value) ∈ (parseResourceAttrs raw).entries ↔
      ∃ before piece after, raw.toList.splitOn ',' = before ++ piece :: after ∧
        Assigns piece key value ∧ ∀ later ∈ after, ∀ w, ¬ Assigns later key w) ∧
    (∀ m, (∃ raw, parseResourceAttrs raw = m) ↔ ∀ e ∈ m.entries, Writable e) ∧
    ∀ m, parseResourceAttrs (renderAttrs m) = m ↔ ∀ e ∈ m.entries, Writable e := by
  have hread : ∀ raw m, parseResourceAttrs raw = m → ∀ e ∈ m.entries, Writable e := by
    rintro raw m rfl e he
    exact writable_of_mem he
  refine ⟨fun raw key value => mem_parseResourceAttrs, fun m => ⟨?_, ?_⟩, fun m => ⟨?_, ?_⟩⟩
  · rintro ⟨raw, hraw⟩
    exact hread raw m hraw
  · exact fun h => ⟨renderAttrs m, parse_renderAttrs h⟩
  · exact hread _ m
  · exact parse_renderAttrs

example : (parseResourceAttrs "a=1, b = two ,,a=").entries = [("a", ""), ("b", "two")] := by decide

end PaycloudHelper.Trace
