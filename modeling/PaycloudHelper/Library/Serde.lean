import Mathlib
import PaycloudHelper.Library.BTreeMap
import PaycloudHelper.Library.JsonValues
import PaycloudHelper.Library.Results

/-!
# Derived serialization

What derived serializers and deserializers of structs do on JSON value trees, driven by the
attributes of the fields: a name, a skip rule, a default. A struct is described once, field
by field, and the description is both its serializer and its deserializer. A struct comes
back from what it writes exactly if each of its fields does.
-/

namespace Serde

open BTreeMaps Results
open JsonValues (Json Number)

variable {F α β S : Type}

inductive DeError
  | invalidType (expected : String)
  | invalidValue (expected : String)
  | invalidLength (length : ℕ) (expected : String)
  | missingField (name : String)
  | duplicateField (name : String)
deriving DecidableEq, Repr

/-- `missing` is what an absent field of the type is read as without a default. -/
structure Codec (F α : Type) where
  serialize : α → Json F
  deserialize : Json F → Except DeError α
  missing : Option α

def Codec.trip (c : Codec F α) (x : α) : Except DeError α := c.deserialize (c.serialize x)

/-! ## Types -/

def string : Codec F String where
  serialize s := .string s
  deserialize
    | .string s => .ok s
    | _ => .error (.invalidType "a string")
  missing := none

abbrev Ranged (lo hi : ℤ) := { value : ℤ // lo ≤ value ∧ value < hi }

def integer (name : String) (lo hi : ℤ) (hlo : -2 ^ 63 ≤ lo) (hhi : hi ≤ 2 ^ 64) :
    Codec F (Ranged lo hi) where
  serialize n := .number (.int n (hlo.trans n.2.1) (n.2.2.trans_le hhi))
  deserialize
    | .number (.int value _ _) =>
      if h : lo ≤ value ∧ value < hi then .ok ⟨value, h⟩ else .error (.invalidValue name)
    | _ => .error (.invalidType name)
  missing := none

abbrev I32 := Ranged (-2 ^ 31) (2 ^ 31)
abbrev I64 := Ranged (-2 ^ 63) (2 ^ 63)
abbrev U8 := Ranged 0 (2 ^ 8)
abbrev U16 := Ranged 0 (2 ^ 16)
abbrev U64 := Ranged 0 (2 ^ 64)

abbrev i32 : Codec F I32 := integer "i32" _ _ (by norm_num) (by norm_num)
abbrev i64 : Codec F I64 := integer "i64" _ _ (by norm_num) (by norm_num)
abbrev u8 : Codec F U8 := integer "u8" _ _ (by norm_num) (by norm_num)
abbrev u16 : Codec F U16 := integer "u16" _ _ (by norm_num) (by norm_num)
abbrev u64 : Codec F U64 := integer "u64" _ _ (by norm_num) (by norm_num)

def value : Codec F (Json F) where
  serialize v := v
  deserialize v := .ok v
  missing := none

def option (c : Codec F α) : Codec F (Option α) where
  serialize
    | none => .null
    | some x => c.serialize x
  deserialize
    | .null => .ok none
    | v => some <$> c.deserialize v
  missing := some none

def vec (c : Codec F α) : Codec F (List α) where
  serialize xs := .array (xs.map c.serialize)
  deserialize
    | .array items => items.mapM c.deserialize
    | _ => .error (.invalidType "a sequence")
  missing := none

def map (c : Codec F α) : Codec F (BTreeMap String α) where
  serialize m := .object (m.entries.map fun e => (e.1, c.serialize e.2))
  deserialize
    | .object fields =>
      fields.foldlM (fun m e => do return m.insert e.1 (← c.deserialize e.2)) .empty
    | _ => .error (.invalidType "a map")
  missing := none

section Missing
variable (c : Codec F α)

@[simp] theorem string_missing : (string : Codec F String).missing = none := by simp [string]

@[simp] theorem integer_missing (name : String) (lo hi : ℤ) (hlo : -2 ^ 63 ≤ lo)
    (hhi : hi ≤ 2 ^ 64) : (integer name lo hi hlo hhi : Codec F (Ranged lo hi)).missing = none := by
  simp [integer]

@[simp] theorem map_missing : (map c).missing = none := by simp [map]

@[simp] theorem vec_serialize_ne_null (xs : List α) : (vec c).serialize xs ≠ .null := nofun

end Missing

/-! ## Attributes -/

/-- `skip_serializing_if` and `default`. -/
structure Field (F α : Type) where
  name : String
  codec : Codec F α
  skip : α → Bool
  default : Option α

def plain (name : String) (c : Codec F α) : Field F α := ⟨name, c, fun _ => false, none⟩

def skipIf (skip : α → Bool) (name : String) (c : Codec F α) : Field F α := ⟨name, c, skip, none⟩

def defaulted (default : α) (name : String) (c : Codec F α) : Field F α :=
  ⟨name, c, fun _ => false, some default⟩

def Field.rename (rule : String → String) (f : Field F α) : Field F α :=
  { f with name := rule f.name }

def Field.write (f : Field F α) (x : α) : Option (Json F) :=
  if f.skip x then none else some (f.codec.serialize x)

def Field.absent (f : Field F α) : Except DeError α :=
  match f.default <|> f.codec.missing with
  | some x => .ok x
  | none => .error (.missingField f.name)

def Field.readMap (f : Field F α) (fields : List (String × Json F)) : Except DeError α :=
  match fields.filter fun m => m.1 = f.name with
  | [] => f.absent
  | [m] => f.codec.deserialize m.2
  | _ => .error (.duplicateField f.name)

def Field.readSeq (f : Field F α) (items : List (Json F)) (index : ℕ) (expected : String) :
    Except DeError α :=
  match items[index]?, f.default with
  | some v, _ => f.codec.deserialize v
  | none, some x => .ok x
  | none, none => .error (.invalidLength index expected)

/-! ## Structs -/

/-- Capitals at the start and after underscores, which are left out. -/
def pascal : Bool → List Char → List Char
  | _, [] => []
  | capitalize, c :: cs =>
    if c = '_' then pascal true cs
    else (if capitalize then c.toUpper else c) :: pascal false cs

def pascalCase (field : String) : String := String.ofList (pascal true field.toList)

def camelCase (field : String) : String :=
  match pascal true field.toList with
  | [] => ""
  | c :: cs => String.ofList (c.toLower :: cs)

inductive Record (F S : Type) : Type → Type 1
  | make {α : Type} (value : α) : Record F S α
  | field {α β : Type} (init : Record F S (α → β)) (get : S → α) (f : Field F α) : Record F S β

def Record.rename (rule : String → String) : {α : Type} → Record F S α → Record F S α
  | _, .make v => .make v
  | _, .field init get f => .field (init.rename rule) get (f.rename rule)

def Record.names : {α : Type} → Record F S α → List String
  | _, .make _ => []
  | _, .field init _ f => init.names ++ [f.name]

theorem Record.names_rename (rule : String → String) (r : Record F S α) :
    (r.rename rule).names = r.names.map rule := by
  induction r with
  | make _ => rfl
  | field init get f ih => rw [rename, names, names, ih, List.map_append]; rfl

def Record.entries (x : S) : {α : Type} → Record F S α → List (String × Option (Json F))
  | _, .make _ => []
  | _, .field init get f => init.entries x ++ [(f.name, f.write (get x))]

def Record.readMap (fields : List (String × Json F)) :
    {α : Type} → Record F S α → Except DeError α
  | _, .make v => .ok v
  | _, .field init _ f => do
    let make ← init.readMap fields
    let x ← f.readMap fields
    return make x

def Record.readSeq (items : List (Json F)) (expected : String) :
    {α : Type} → Record F S α → Except DeError α
  | _, .make v => .ok v
  | _, .field init _ f => do
    let make ← init.readSeq items expected
    let x ← f.readSeq items init.names.length expected
    return make x

def written (entries : List (String × Option (Json F))) : List (String × Json F) :=
  entries.filterMap fun e => e.2.map fun v => (e.1, v)

structure Struct (F S : Type) where
  name : String
  fields : Record F S S
  nodup : fields.names.Nodup

def Struct.expected (s : Struct F S) : String :=
  s!"struct {s.name} with {s.fields.names.length} elements"

def Struct.codec (s : Struct F S) : Codec F S where
  serialize x := .object (written (s.fields.entries x))
  deserialize
    | .object fields => s.fields.readMap fields
    | .array items => do
      let x ← s.fields.readSeq items s.expected
      if items.length ≤ s.fields.names.length then return x
      else .error (.invalidLength items.length "fewer elements in array")
    | _ => .error (.invalidType s!"struct {s.name}")
  missing := none

/-! ## What comes back -/

def Codec.Kept (c : Codec F α) (x : α) : Prop := ∃ y, c.trip x = .ok y

def Codec.back (c : Codec F α) (x : α) : α := (c.trip x).toOption.getD x

/-- What the field is read as, if it has been written or left out. -/
def Field.trip (f : Field F α) (x : α) : Except DeError α :=
  match f.write x with
  | some v => f.codec.deserialize v
  | none => f.absent

def Field.Kept (f : Field F α) (x : α) : Prop := ∃ y, f.trip x = .ok y

def Field.back (f : Field F α) (x : α) : α := (f.trip x).toOption.getD x

def Record.trip (x : S) : {α : Type} → Record F S α → Except DeError α
  | _, .make v => .ok v
  | _, .field init get f => do
    let make ← init.trip x
    let y ← f.trip (get x)
    return make y

def Record.Kept (x : S) : {α : Type} → Record F S α → Prop
  | _, .make _ => True
  | _, .field init get f => init.Kept x ∧ f.Kept (get x)

def Record.back (x : S) : {α : Type} → Record F S α → α
  | _, .make v => v
  | _, .field init get f => init.back x (f.back (get x))

theorem Codec.trip_eq_ok {c : Codec F α} {x y : α} :
    c.trip x = .ok y ↔ c.Kept x ∧ c.back x = y :=
  eq_ok_iff

theorem Field.trip_eq_ok {f : Field F α} {x y : α} :
    f.trip x = .ok y ↔ f.Kept x ∧ f.back x = y :=
  eq_ok_iff

theorem Field.back_of_not_kept {f : Field F α} {x : α} (h : ¬ f.Kept x) : f.back x = x := by
  cases htrip : f.trip x with
  | ok y => exact absurd ⟨y, htrip⟩ h
  | error _ => rw [back, htrip]; rfl

theorem Codec.kept_of_trip {c : Codec F α} {x y : α} (h : c.trip x = .ok y) : c.Kept x := ⟨y, h⟩

theorem Codec.back_of_trip {c : Codec F α} {x y : α} (h : c.trip x = .ok y) : c.back x = y :=
  (trip_eq_ok.mp h).2

theorem Codec.back_eq_self {c : Codec F α} (h : ∀ x y, c.trip x = .ok y → y = x) (x : α) :
    c.back x = x := by
  cases htrip : c.trip x with
  | ok y => rw [Codec.back_of_trip htrip, h x y htrip]
  | error _ => rw [Codec.back, htrip]; rfl

theorem Codec.spec_of_trip {c : Codec F α} {filled : α → Prop} {normal : α → α}
    (h : ∀ x y, c.trip x = .ok y ↔ filled x ∧ normal x = y) (x : α) :
    (c.Kept x ↔ filled x) ∧ (filled x → c.back x = normal x) :=
  ⟨⟨fun ⟨y, hy⟩ => ((h x y).mp hy).1, fun hx => ⟨_, (h x _).mpr ⟨hx, rfl⟩⟩⟩,
    fun hx => back_of_trip ((h x _).mpr ⟨hx, rfl⟩)⟩

theorem Record.trip_eq_ok {r : Record F S α} {x : S} {y : α} :
    r.trip x = .ok y ↔ r.Kept x ∧ r.back x = y := by
  induction r with
  | make v => simp [trip, Kept, back]
  | field init get f ih =>
    constructor
    · intro h
      obtain ⟨make, hinit, h⟩ := bind_eq_ok.mp h
      obtain ⟨z, hf, h⟩ := bind_eq_ok.mp h
      obtain ⟨hkept, rfl⟩ := ih.mp hinit
      obtain ⟨hkept', rfl⟩ := Field.trip_eq_ok.mp hf
      exact ⟨⟨hkept, hkept'⟩, Except.ok.inj h⟩
    · rintro ⟨⟨hkept, hkept'⟩, rfl⟩
      have hinit : init.trip x = .ok (init.back x) := ih.mpr ⟨hkept, rfl⟩
      have hf : f.trip (get x) = .ok (f.back (get x)) := Field.trip_eq_ok.mpr ⟨hkept', rfl⟩
      exact bind_eq_ok.mpr ⟨_, hinit, bind_eq_ok.mpr ⟨_, hf, rfl⟩⟩

/-! ## Names -/

theorem Field.trip_rename (rule : String → String) (f : Field F α) {x y : α} :
    (f.rename rule).trip x = .ok y ↔ f.trip x = .ok y := by
  have hwrite : (f.rename rule).write x = f.write x := rfl
  simp only [trip, hwrite]
  cases f.write x with
  | some v => rfl
  | none =>
    simp only [absent, rename]
    cases f.default <|> f.codec.missing <;> simp

theorem Field.kept_rename (rule : String → String) (f : Field F α) (x : α) :
    (f.rename rule).Kept x ↔ f.Kept x :=
  exists_congr fun _ => f.trip_rename rule

theorem Field.back_rename (rule : String → String) (f : Field F α) (x : α) :
    (f.rename rule).back x = f.back x := by
  by_cases hkept : f.Kept x
  · have hrename : (f.rename rule).trip x = .ok (f.back x) :=
      (f.trip_rename rule).mpr (trip_eq_ok.mpr ⟨hkept, rfl⟩)
    exact (trip_eq_ok.mp hrename).2
  · rw [back_of_not_kept hkept, back_of_not_kept fun h => hkept ((f.kept_rename rule x).mp h)]

@[simp] theorem Record.kept_rename (rule : String → String) (r : Record F S α) (x : S) :
    (r.rename rule).Kept x ↔ r.Kept x := by
  induction r with
  | make _ => rfl
  | field init get f ih => exact and_congr ih (f.kept_rename rule (get x))

@[simp] theorem Record.back_rename (rule : String → String) (r : Record F S α) (x : S) :
    (r.rename rule).back x = r.back x := by
  induction r with
  | make _ => rfl
  | field init get f ih => rw [rename, back, back, ih, f.back_rename rule]

/-! ## Fields -/

theorem written_filter {entries : List (String × Option (Json F))}
    (hnodup : (entries.map Prod.fst).Nodup) {name : String} {v : Option (Json F)}
    (hmem : (name, v) ∈ entries) :
    (written entries).filter (fun m => m.1 = name) = (v.map fun v => (name, v)).toList := by
  have hwritten : ∀ (es : List (String × Option (Json F))), name ∉ es.map Prod.fst →
      (written es).filter (fun m => m.1 = name) = [] := by
    intro es hes
    refine List.filter_eq_nil_iff.mpr fun m hm => ?_
    obtain ⟨e, he, hem⟩ := List.mem_filterMap.mp hm
    obtain ⟨v', -, rfl⟩ := Option.map_eq_some_iff.mp hem
    simp only [decide_eq_true_eq]
    exact fun h => hes (h ▸ List.mem_map_of_mem he)
  induction entries with
  | nil => cases hmem
  | cons e es ih =>
    rw [List.map_cons, List.nodup_cons] at hnodup
    rcases List.mem_cons.mp hmem with rfl | hmem
    · have hrest := hwritten es hnodup.1
      cases v with
      | none => exact hrest
      | some v =>
        have hcons : written ((name, some v) :: es) = (name, v) :: written es := rfl
        rw [hcons, List.filter_cons_of_pos (by simp), hrest]
        rfl
    · have hne : e.1 ≠ name := by
        rintro rfl
        exact hnodup.1 (List.mem_map.mpr ⟨_, hmem, rfl⟩)
      have hcons : written (e :: es) = (e.2.map fun v => (e.1, v)).toList ++ written es := by
        obtain ⟨n, _ | v⟩ := e <;> rfl
      rw [hcons, List.filter_append, ih hnodup.2 hmem, List.filter_eq_nil_iff.mpr, List.nil_append]
      intro m hm
      obtain ⟨v', -, rfl⟩ := Option.map_eq_some_iff.mp (Option.mem_toList.mp hm)
      simpa using hne

theorem Field.readMap_written (f : Field F α) {entries : List (String × Option (Json F))}
    (hnodup : (entries.map Prod.fst).Nodup) {x : α} (hmem : (f.name, f.write x) ∈ entries) :
    f.readMap (written entries) = f.trip x := by
  rw [readMap, written_filter hnodup hmem, trip]
  cases f.write x <;> rfl

theorem Record.map_entries (x : S) (r : Record F S α) : (r.entries x).map Prod.fst = r.names := by
  induction r with
  | make _ => rfl
  | field init get f ih => rw [entries, names, List.map_append, ih]; rfl

theorem Record.readMap_written (x : S) (r : Record F S α)
    {entries : List (String × Option (Json F))} (hnodup : (entries.map Prod.fst).Nodup)
    (hsub : r.entries x ⊆ entries) : r.readMap (written entries) = r.trip x := by
  induction r with
  | make _ => rfl
  | field init get f ih =>
    rw [readMap, trip, ih fun e he => hsub (List.mem_append_left _ he),
      f.readMap_written hnodup (hsub (List.mem_append_right _ (List.mem_singleton_self _)))]

theorem Struct.trip_eq (s : Struct F S) (x : S) : s.codec.trip x = s.fields.trip x := by
  refine s.fields.readMap_written x ?_ (List.Subset.refl _)
  rw [Record.map_entries]
  exact s.nodup

/-- A struct is read back, field by field, exactly if every field is. -/
theorem Struct.trip_eq_ok {s : Struct F S} {x y : S} :
    s.codec.trip x = .ok y ↔ s.fields.Kept x ∧ s.fields.back x = y := by
  rw [s.trip_eq, Record.trip_eq_ok]

theorem Struct.spec {s : Struct F S} {filled : S → Prop} {normal : S → S}
    (hkept : ∀ x, s.fields.Kept x ↔ filled x)
    (hback : ∀ x, filled x → s.fields.back x = normal x) (x y : S) :
    s.codec.trip x = .ok y ↔ filled x ∧ normal x = y := by
  rw [trip_eq_ok, hkept]
  refine and_congr_right fun hfilled => ?_
  rw [hback x hfilled]

@[simp] theorem Struct.kept_iff {s : Struct F S} {x : S} : s.codec.Kept x ↔ s.fields.Kept x :=
  ⟨fun ⟨_, h⟩ => (trip_eq_ok.mp h).1, fun h => ⟨_, trip_eq_ok.mpr ⟨h, rfl⟩⟩⟩

@[simp] theorem Struct.serialize_ne_null (s : Struct F S) (x : S) : s.codec.serialize x ≠ .null :=
  nofun

section Fields
variable (name : String) (c : Codec F α) (x : α)

@[simp] theorem plain_kept : (plain name c).Kept x ↔ c.Kept x := Iff.rfl

@[simp] theorem plain_back : (plain name c).back x = c.back x := rfl

@[simp] theorem defaulted_kept (default : α) : (defaulted default name c).Kept x ↔ c.Kept x :=
  Iff.rfl

@[simp] theorem defaulted_back (default : α) : (defaulted default name c).back x = c.back x := rfl

variable {name c x} {skip : α → Bool}

theorem skipIf_trip_of_skip (hmissing : c.missing = none) (h : skip x = true) :
    (skipIf skip name c).trip x = .error (.missingField name) := by
  simp [Field.trip, Field.write, Field.absent, skipIf, h, hmissing]

theorem skipIf_trip_of_not_skip (h : skip x = false) : (skipIf skip name c).trip x = c.trip x := by
  simp [Field.trip, Field.write, skipIf, h, Codec.trip]

@[simp] theorem skipIf_kept (hmissing : c.missing = none) :
    (skipIf skip name c).Kept x ↔ skip x = false ∧ c.Kept x := by
  cases hskip : skip x with
  | true => simp [Field.Kept, skipIf_trip_of_skip hmissing hskip]
  | false => simp [Field.Kept, skipIf_trip_of_not_skip hskip, Codec.Kept]

@[simp] theorem skipIf_back (hmissing : c.missing = none) (hback : c.back x = x) :
    (skipIf skip name c).back x = x := by
  cases hskip : skip x with
  | true =>
    rw [Field.back, skipIf_trip_of_skip hmissing hskip]
    rfl
  | false =>
    rw [Field.back, skipIf_trip_of_not_skip hskip]
    exact hback

theorem skipIf_option_trip (p : Option α) :
    (skipIf Option.isNone name (option c)).trip p = (option c).trip p := by
  cases p with
  | none => rfl
  | some x => exact skipIf_trip_of_not_skip rfl

@[simp] theorem skipIf_option_kept (p : Option α) :
    (skipIf Option.isNone name (option c)).Kept p ↔ (option c).Kept p := by
  rw [Field.Kept, skipIf_option_trip]
  rfl

@[simp] theorem skipIf_option_back (p : Option α) :
    (skipIf Option.isNone name (option c)).back p = (option c).back p := by
  rw [Field.back, skipIf_option_trip]
  rfl

end Fields

/-! ## Types that come back unchanged -/

def Codec.Exact (c : Codec F α) : Prop := ∀ x, c.trip x = .ok x

@[simp] theorem Codec.Exact.kept {c : Codec F α} (hc : c.Exact) (x : α) : c.Kept x := ⟨x, hc x⟩

@[simp] theorem Codec.Exact.back {c : Codec F α} (hc : c.Exact) (x : α) : c.back x = x :=
  Codec.back_of_trip (hc x)

@[simp] theorem string_exact : (string : Codec F String).Exact := fun _ => rfl

@[simp] theorem integer_exact (name : String) (lo hi : ℤ) (hlo : -2 ^ 63 ≤ lo) (hhi : hi ≤ 2 ^ 64) :
    (integer name lo hi hlo hhi : Codec F (Ranged lo hi)).Exact :=
  fun n => dif_pos n.2

@[simp] theorem value_exact : (value : Codec F (Json F)).Exact := fun _ => rfl

@[simp] theorem map_exact {c : Codec F α} (hc : c.Exact) : (map c).Exact := foldlM_insert hc

theorem vec_trip {c : Codec F α} {xs ys : List α} :
    (vec c).trip xs = .ok ys ↔ (∀ x ∈ xs, c.Kept x) ∧ xs.map c.back = ys := by
  change (xs.map c.serialize).mapM c.deserialize = .ok ys ↔ _
  induction xs generalizing ys with
  | nil =>
    rw [and_iff_right (List.forall_mem_nil _)]
    exact ⟨Except.ok.inj, congrArg Except.ok⟩
  | cons x xs ih =>
    rw [List.map_cons, List.mapM_cons, List.forall_mem_cons]
    constructor
    · intro h
      obtain ⟨y, hy, h⟩ := bind_eq_ok.mp h
      obtain ⟨ys', hys, h⟩ := bind_eq_ok.mp h
      obtain ⟨hkept, rfl⟩ := Codec.trip_eq_ok.mp hy
      obtain ⟨hkepts, rfl⟩ := ih.mp hys
      exact ⟨⟨hkept, hkepts⟩, Except.ok.inj h⟩
    · rintro ⟨⟨hkept, hkepts⟩, rfl⟩
      have hx : c.trip x = .ok (c.back x) := Codec.trip_eq_ok.mpr ⟨hkept, rfl⟩
      exact bind_eq_ok.mpr ⟨_, hx, bind_eq_ok.mpr ⟨_, ih.mpr ⟨hkepts, rfl⟩, rfl⟩⟩

@[simp] theorem vec_kept {c : Codec F α} (xs : List α) : (vec c).Kept xs ↔ ∀ x ∈ xs, c.Kept x :=
  ⟨fun ⟨_, h⟩ => (vec_trip.mp h).1, fun h => ⟨_, vec_trip.mpr ⟨h, rfl⟩⟩⟩

@[simp] theorem vec_back {c : Codec F α} (hback : ∀ x, c.back x = x) (xs : List α) :
    (vec c).back xs = xs := by
  refine Codec.back_eq_self (fun xs ys h => ?_) xs
  rw [← (vec_trip.mp h).2, List.map_congr_left fun x _ => hback x, List.map_id']

theorem vec_exact {c : Codec F α} (hc : c.Exact) : (vec c).Exact := fun xs =>
  Codec.trip_eq_ok.mpr ⟨(vec_kept xs).mpr fun x _ => hc.kept x, vec_back hc.back xs⟩

theorem option_trip_some {c : Codec F α} {x : α} (h : c.serialize x ≠ .null) :
    (option c).trip (some x) = some <$> c.trip x := by
  have hnull : (option c).trip (some x) = (option c).deserialize (c.serialize x) := rfl
  rw [hnull, Codec.trip]
  generalize c.serialize x = v at h
  cases v with
  | null => exact absurd rfl h
  | _ => rfl

def readNull : Option (Json F) → Option (Json F)
  | some .null => none
  | p => p

theorem option_value_trip (p : Option (Json F)) : (option value).trip p = .ok (readNull p) := by
  cases p with
  | none => rfl
  | some v => cases v <;> rfl

@[simp] theorem option_value_kept (p : Option (Json F)) : (option value).Kept p :=
  Codec.kept_of_trip (option_value_trip p)

@[simp] theorem option_value_back (p : Option (Json F)) : (option value).back p = readNull p :=
  Codec.back_of_trip (option_value_trip p)

section Options
variable {c : Codec F α}

@[simp] theorem option_kept (hnull : ∀ x, c.serialize x ≠ .null) (p : Option α) :
    (option c).Kept p ↔ ∀ x ∈ p, c.Kept x := by
  cases p with
  | none => exact iff_of_true ⟨none, rfl⟩ (by simp)
  | some x =>
    rw [Codec.Kept, option_trip_some (hnull x)]
    cases htrip : c.trip x <;> simp [Codec.Kept, htrip, Functor.map, Except.map]

@[simp] theorem option_back (hnull : ∀ x, c.serialize x ≠ .null) (hback : ∀ x, c.back x = x)
    (p : Option α) : (option c).back p = p := by
  refine Codec.back_eq_self (fun p q h => ?_) p
  cases p with
  | none => exact (Except.ok.inj h).symm
  | some x =>
    rw [option_trip_some (hnull x)] at h
    obtain ⟨y, hy, h⟩ := bind_eq_ok.mp h
    obtain rfl := Except.ok.inj h
    rw [← hback x, Codec.back_of_trip hy]

theorem option_exact (hnull : ∀ x, c.serialize x ≠ .null) (hc : c.Exact) : (option c).Exact :=
  fun p => Codec.trip_eq_ok.mpr
    ⟨(option_kept hnull p).mpr fun x _ => hc.kept x, option_back hnull hc.back p⟩

end Options

theorem Struct.exact {s : Struct F S} (hkept : ∀ x, s.fields.Kept x)
    (hback : ∀ x, s.fields.back x = x) : s.codec.Exact :=
  fun x => trip_eq_ok.mpr ⟨hkept x, hback x⟩

end Serde
