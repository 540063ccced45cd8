import Mathlib

/-!
# Maps whose entries expire

A map with a clock. An entry is permanent or has a deadline, from which on nobody sees it;
whether its place is then cleared makes no difference.
-/

namespace ExpiringMaps

structure Entry (V : Type*) where
  value : V
  deadline : Option ℕ

variable {S K V : Type*}

def Entry.live (e : Entry V) (now : ℕ) : Bool := e.deadline.all fun d => decide (now < d)

@[simp] theorem live_permanent (v : V) (now : ℕ) : (⟨v, none⟩ : Entry V).live now = true := rfl

@[simp] theorem live_until (v : V) (d now : ℕ) :
    (⟨v, some d⟩ : Entry V).live now = true ↔ now < d := by
  simp [Entry.live]

theorem live_iff {e : Entry V} {now : ℕ} : e.live now = true ↔ ∀ d ∈ e.deadline, now < d := by
  obtain ⟨value, deadline⟩ := e
  cases deadline <;> simp

theorem live_of_le {e : Entry V} {now now' : ℕ} (hle : now ≤ now') (h : e.live now' = true) :
    e.live now = true :=
  live_iff.mpr fun d hd => hle.trans_lt (live_iff.mp h d hd)

/-! ## What is seen of a map -/

structure View (S K V : Type*) where
  now : S → ℕ
  entry : S → K → Option (Entry V)
  live : ∀ s k, ∀ e ∈ entry s k, e.live (now s) = true

namespace View

def read (view : View S K V) (s : S) (k : K) : Option V := (view.entry s k).map Entry.value

/-- How long the key is still there, `none` inside if forever. -/
def remaining (view : View S K V) (s : S) (k : K) : Option (Option ℕ) :=
  (view.entry s k).map fun e => e.deadline.map (· - view.now s)

def left (view : View S K V) (s : S) (k : K) (now : ℕ) : Option (Entry V) :=
  (view.entry s k).filter fun e => e.live now

/-- From `s` to `s'` the key is only touched by time. -/
structure Keeps (view : View S K V) (k : K) (s s' : S) : Prop where
  now : view.now s ≤ view.now s'
  entry : view.entry s' k = view.left s k (view.now s')

/-- The key is there until `d`, maybe longer. -/
def Lasts (view : View S K V) (s : S) (k : K) (d : ℕ) : Prop :=
  view.now s < d → ∃ e, view.entry s k = some e ∧ ∀ d' ∈ e.deadline, d ≤ d'

variable {view : View S K V} {s s' s'' : S} {k : K} {e : Entry V} {d : ℕ}

@[simp] theorem left_now (s : S) (k : K) : view.left s k (view.now s) = view.entry s k := by
  unfold left
  cases he : view.entry s k with
  | none => rfl
  | some e => exact Option.filter_some_pos (view.live s k e he)

theorem read_of_entry (h : view.entry s k = some e) : view.read s k = some e.value := by
  rw [read, h, Option.map_some]

theorem read_eq_some {v : V} :
    view.read s k = some v ↔ ∃ e, view.entry s k = some e ∧ e.value = v :=
  Option.map_eq_some_iff

theorem Keeps.refl (s : S) : view.Keeps k s s := ⟨le_rfl, (left_now s k).symm⟩

theorem Keeps.of_eq (hnow : view.now s' = view.now s) (hentry : view.entry s' k = view.entry s k) :
    view.Keeps k s s' :=
  ⟨hnow.ge, by rw [hnow, hentry, left_now]⟩

theorem Keeps.trans (h : view.Keeps k s s') (h' : view.Keeps k s' s'') : view.Keeps k s s'' where
  now := h.now.trans h'.now
  entry := by
    rw [h'.entry, left, h.entry, left, Option.filter_filter, left]
    congr 1
    funext e
    have hlive := @live_of_le _ e _ _ h'.now
    cases hlater : e.live (view.now s'') with
    | false => simp
    | true => simp [hlive hlater]

theorem Keeps.entry_of_live (h : view.Keeps k s s') (he : view.entry s k = some e)
    (hlive : e.live (view.now s') = true) : view.entry s' k = some e := by
  rw [h.entry, left, he]
  exact Option.filter_some_pos hlive

theorem Keeps.entry_eq_none (h : view.Keeps k s s') (hnone : view.entry s k = none) :
    view.entry s' k = none := by
  rw [h.entry, left, hnone, Option.filter_none]

theorem Lasts.keeps (hd : view.Lasts s k d) (h : view.Keeps k s s') : view.Lasts s' k d := by
  intro hlt
  obtain ⟨e, he, hdeadline⟩ := hd (h.now.trans_lt hlt)
  have hlive : e.live (view.now s') = true :=
    live_iff.mpr fun d' hd' => hlt.trans_le (hdeadline d' hd')
  exact ⟨e, h.entry_of_live he hlive, hdeadline⟩

theorem Lasts.of_entry {v : V} {d' : ℕ} (h : view.entry s k = some ⟨v, some d'⟩) (hle : d ≤ d') :
    view.Lasts s k d := by
  refine fun _ => ⟨_, h, ?_⟩
  rintro _ ⟨⟩
  exact hle

theorem Lasts.of_le (h : d ≤ view.now s) : view.Lasts s k d :=
  fun hlt => absurd hlt (not_lt.mpr h)

theorem Lasts.read_isSome (hd : view.Lasts s k d) (hlt : view.now s < d) :
    (view.read s k).isSome = true := by
  obtain ⟨e, he, -⟩ := hd hlt
  rw [read_of_entry he]
  rfl

theorem Lasts.le_of_read (hd : view.Lasts s k d) (h : view.read s k = none) : d ≤ view.now s := by
  by_contra hlt
  have hsome := hd.read_isSome (not_le.mp hlt)
  rw [h] at hsome
  cases hsome

end View

/-! ## A map -/

structure Store (K V : Type*) where
  now : ℕ
  entries : K → Option (Entry V)

namespace Store

def empty : Store K V := ⟨0, fun _ => none⟩

def entry (s : Store K V) (k : K) : Option (Entry V) := (s.entries k).filter fun e => e.live s.now

def view : View (Store K V) K V where
  now := now
  entry := entry
  live _ _ _ he := (Option.filter_eq_some_iff.mp he).2

def advance (s : Store K V) (n : ℕ) : Store K V := { s with now := s.now + n }

theorem entry_advance (s : Store K V) (n : ℕ) (k : K) :
    (s.advance n).entry k = view.left s k (s.now + n) := by
  change _ = ((s.entries k).filter fun e => e.live s.now).filter fun e => e.live (s.now + n)
  rw [Option.filter_filter]
  refine congrArg (Option.filter · (s.entries k)) (funext fun e => ?_)
  have hlive := @live_of_le _ e _ _ (Nat.le_add_right s.now n)
  cases hlater : e.live (s.now + n) with
  | false => simpa [advance] using hlater
  | true => simpa [advance, hlive hlater] using hlater

variable [DecidableEq K]

def write (s : Store K V) (k : K) (v : V) (lifetime : Option ℕ) : Store K V :=
  { s with entries := Function.update s.entries k (some ⟨v, lifetime.map (s.now + ·)⟩) }

def erase (s : Store K V) (k : K) : Store K V :=
  { s with entries := Function.update s.entries k none }

variable {s : Store K V} {k k' : K}

theorem entry_write_self {lifetime : Option ℕ} (h : ∀ ms ∈ lifetime, 0 < ms) (v : V) :
    (s.write k v lifetime).entry k = some ⟨v, lifetime.map (s.now + ·)⟩ := by
  change (Function.update s.entries k _ k).filter (fun e => e.live s.now) = _
  rw [Function.update_self]
  cases lifetime with
  | none => rfl
  | some ms => simp [h ms rfl]

theorem entry_write_of_ne (h : k' ≠ k) (v : V) (lifetime : Option ℕ) :
    (s.write k v lifetime).entry k' = s.entry k' := by
  change (Function.update s.entries k _ k').filter (fun e => e.live s.now) = _
  rw [Function.update_of_ne h]
  rfl

theorem entry_erase_self : (s.erase k).entry k = none := by
  change (Function.update s.entries k none k).filter (fun e => e.live s.now) = none
  rw [Function.update_self, Option.filter_none]

theorem entry_erase_of_ne (h : k' ≠ k) : (s.erase k).entry k' = s.entry k' := by
  change (Function.update s.entries k none k').filter (fun e => e.live s.now) = _
  rw [Function.update_of_ne h]
  rfl

end Store

end ExpiringMaps
