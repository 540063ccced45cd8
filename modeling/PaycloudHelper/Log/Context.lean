import Mathlib
import PaycloudHelper.Library.Utf8Slices

/-!
# Log contexts

A context is the text of its fields. A slice that panics gives `none`.
-/

namespace PaycloudHelper.Log

open String (utf8Len)
open Utf8Slices

abbrev Text := List Char

abbrev Fields := List (Text × Text)

structure LogContext where
  text : Text
deriving DecidableEq, Repr

def LogContext.default : LogContext := ⟨[]⟩

def pushField (out : Text) : (Text × Text) × ℕ → Text
  | ((k, v), i) => (if 0 < i then out ++ [' '] else out) ++ k ++ ['='] ++ v

def buildPrefix (fields : Fields) : Text :=
  if fields.isEmpty then [] else fields.zipIdx.foldl pushField ['['] ++ [']', ' ']

def LogContext.new (fields : Fields) : LogContext := ⟨buildPrefix fields⟩

def LogContext.with (context : LogContext) (fields : Fields) : Option LogContext :=
  if fields.isEmpty then some context
  else
    let extra := buildPrefix fields
    if context.text.isEmpty then some ⟨extra⟩
    else if utf8Len context.text < 2 then none
    else do
      let parent ← sliceTo (utf8Len context.text - 2) context.text
      let rest ← sliceFrom 1 extra
      some ⟨parent ++ [' '] ++ rest⟩

inductive Obtained : LogContext → Prop
  | default : Obtained .default
  | new (fields : Fields) : Obtained (.new fields)
  | with {context child : LogContext} (fields : Fields) (parent : Obtained context)
      (h : context.with fields = some child) : Obtained child

/-! ## The shape of a prefix -/

def pair (field : Text × Text) : Text := field.1 ++ '=' :: field.2

def inner : Fields → Text
  | [] => []
  | field :: fields => pair field ++ fields.flatMap fun next => ' ' :: pair next

theorem inner_append {a b : Fields} (ha : a ≠ []) (hb : b ≠ []) :
    inner (a ++ b) = inner a ++ ' ' :: inner b := by
  obtain ⟨f, fs, rfl⟩ := List.exists_cons_of_ne_nil ha
  obtain ⟨g, gs, rfl⟩ := List.exists_cons_of_ne_nil hb
  simp [inner, List.flatMap_append]

theorem foldl_pushField (fields : Fields) (out : Text) {i : ℕ} (hi : 0 < i) :
    (fields.zipIdx i).foldl pushField out = out ++ fields.flatMap fun next => ' ' :: pair next := by
  induction fields generalizing out i with
  | nil => simp
  | cons field fields ih =>
    rw [List.zipIdx_cons, List.foldl_cons, ih _ (Nat.succ_pos i)]
    simp [pushField, hi, pair]

theorem buildPrefix_eq {fields : Fields} (h : fields ≠ []) :
    buildPrefix fields = '[' :: inner fields ++ [']', ' '] := by
  obtain ⟨f, fs, rfl⟩ := List.exists_cons_of_ne_nil h
  rw [buildPrefix, List.isEmpty_cons, if_neg Bool.false_ne_true, List.zipIdx_cons,
    List.foldl_cons, foldl_pushField fs _ (Nat.succ_pos 0)]
  simp [pushField, inner, pair]

/-- The slices cut off the brackets that `build_prefix` has put there. -/
theorem new_with (a b : Fields) : (LogContext.new a).with b = some (.new (a ++ b)) := by
  by_cases hb : b = []
  · simp [LogContext.with, hb]
  by_cases ha : a = []
  · simp [LogContext.with, LogContext.new, buildPrefix, ha, hb]
  have hab : a ++ b ≠ [] := List.append_ne_nil_of_left_ne_nil ha b
  have hparent : sliceTo (utf8Len (buildPrefix a) - 2) (buildPrefix a) = some ('[' :: inner a) := by
    have hlen : utf8Len (buildPrefix a) - 2 = utf8Len ('[' :: inner a) := by
      rw [buildPrefix_eq ha, String.utf8Len_append]
      rfl
    rw [hlen, buildPrefix_eq ha]
    exact sliceTo_append
  have hrest : sliceFrom 1 (buildPrefix b) = some (inner b ++ [']', ' ']) := by
    rw [buildPrefix_eq hb]
    exact sliceFrom_append (x := ['['])
  have hlong : ¬ utf8Len (buildPrefix a) < 2 := by
    rw [buildPrefix_eq ha, String.utf8Len_append]
    exact not_lt.mpr (Nat.le_add_left 2 _)
  have hsome : (buildPrefix a).isEmpty = false := by simp [buildPrefix_eq ha]
  have hfields : b.isEmpty = false := by simp [hb]
  unfold LogContext.with LogContext.new
  simp only [hfields, hsome, hlong, hparent, hrest, Bool.false_eq_true, if_false,
    Option.bind_eq_bind, Option.bind_some]
  rw [buildPrefix_eq hab, inner_append ha hb]
  simp

theorem Obtained.exists_fields {context : LogContext} (h : Obtained context) :
    ∃ fields, context = .new fields := by
  induction h with
  | default => exact ⟨[], rfl⟩
  | new fields => exact ⟨fields, rfl⟩
  | «with» fields parent h ih =>
    obtain ⟨before, rfl⟩ := ih
    rw [new_with] at h
    exact ⟨before ++ fields, (Option.some.inj h).symm⟩

theorem new_text (fields : Fields) : (LogContext.new fields).text =
    if fields = [] then [] else '[' :: inner fields ++ [']', ' '] := by
  by_cases h : fields = []
  · simp [LogContext.new, buildPrefix, h]
  · rw [LogContext.new, buildPrefix_eq h, if_neg h]

/-- Adding fields twice is adding them at once, and never panics; every context is the text of
its fields. -/
theorem with_action {context : LogContext} (h : Obtained context) (a b : Fields) :
    (LogContext.new a).with b = some (.new (a ++ b)) ∧
      (∃ middle child, context.with a = some middle ∧ middle.with b = some child ∧
        context.with (a ++ b) = some child) ∧
      ∃ fields, context = .new fields ∧
        context.text = if fields = [] then [] else '[' :: inner fields ++ [']', ' '] := by
  obtain ⟨fields, rfl⟩ := h.exists_fields
  refine ⟨new_with a b, ?_, fields, rfl, new_text fields⟩
  refine ⟨.new (fields ++ a), .new (fields ++ a ++ b), new_with .., new_with .., ?_⟩
  rw [new_with, List.append_assoc]

theorem with_action_merge :
    (LogContext.new [("step".toList, "1".toList)]).with [("detail".toList, "é]".toList)] =
        some (.new [("step".toList, "1".toList), ("detail".toList, "é]".toList)]) ∧
      (∃ middle child,
        (LogContext.new [([], "[ ".toList)]).with [("step".toList, "1".toList)] = some middle ∧
        middle.with [("detail".toList, "é]".toList)] = some child ∧
        (LogContext.new [([], "[ ".toList)]).with
          ([("step".toList, "1".toList)] ++ [("detail".toList, "é]".toList)]) = some child) ∧
      ∃ fields, LogContext.new [([], "[ ".toList)] = .new fields ∧
        (LogContext.new [([], "[ ".toList)]).text =
          if fields = [] then [] else '[' :: inner fields ++ [']', ' '] :=
  with_action (.new _) _ _

end PaycloudHelper.Log
