import Mathlib
import PaycloudHelper.Library.Runs
import PaycloudHelper.Library.Words

/-!
# In-flight call de-duplication

The steps of any number of `do_call` callers on one `Singleflight`. A caller takes
the shard lock twice, to register or join a flight and in the drop of its guard;
each of the two is one step, and between them it awaits the shared future.

Shared futures are numbered in the order of their registration, callers in the order
of their arrival. A shared future is driven by the callers that poll it, its output
goes to every clone, and once it has panicked every poll of it panics. `next_id` is a
`u64` and wraps. `waiters` counts guards that are alive at once, fewer than a `usize`
holds, and is a natural number here.
-/

namespace PaycloudHelper.InFlight

open Runs Words

variable {K T : Type*}

structure Flight where
  id : ℕ
  future : ℕ
  waiters : ℕ
deriving DecidableEq, Repr

structure Singleflight (K : Type*) where
  calls : K → Option Flight
  nextId : ℕ

def Singleflight.new : Singleflight K := ⟨fun _ => none, 0⟩

structure FlightGuard (K : Type*) where
  key : K
  id : ℕ
  finished : Bool
deriving DecidableEq, Repr

/-- Register or join: the flight's id and future. `own` is the caller's own future, used
only when no flight is registered for the key. -/
def Singleflight.enter [DecidableEq K] (sf : Singleflight K) (key : K) (own : ℕ) :
    Singleflight K × ℕ × ℕ :=
  match sf.calls key with
  | some flight =>
    let joined := { flight with waiters := flight.waiters + 1 }
    ({ sf with calls := Function.update sf.calls key (some joined) }, flight.id, flight.future)
  | none =>
    let id := sf.nextId
    ({ calls := Function.update sf.calls key (some { id := id, future := own, waiters := 1 })
       nextId := wrap 64 (sf.nextId + 1) }, id, own)

/-- The closure given to `remove_if_mut`: the entry that is left, if any. -/
def FlightGuard.leave (guard : FlightGuard K) (flight : Flight) : Option Flight :=
  if flight.id ≠ guard.id then
    some flight
  else
    let waiters := flight.waiters - 1
    if guard.finished || waiters == 0 then none else some { flight with waiters := waiters }

def FlightGuard.drop [DecidableEq K] (guard : FlightGuard K) (sf : Singleflight K) :
    Singleflight K :=
  { sf with calls := Function.update sf.calls guard.key ((sf.calls guard.key).bind guard.leave) }

inductive Work (T : Type*)
  | running
  | done (value : T)
  | panicked
deriving DecidableEq, Repr

/-- Where a caller is in `do_call`; its guard is alive in the first four phases. -/
inductive Phase (T : Type*)
  | awaiting
  | finished (value : T)
  | unwinding
  | dropping
  | returned (value : T)
  | panicked
  | cancelled
deriving DecidableEq, Repr

def Phase.live : Phase T → Bool
  | .awaiting | .finished _ | .unwinding | .dropping => true
  | .returned _ | .panicked | .cancelled => false

def Phase.leaving : Phase T → Bool
  | .finished _ | .unwinding | .dropping => true
  | .awaiting | .returned _ | .panicked | .cancelled => false

def Phase.after : Phase T → Phase T
  | .finished value => .returned value
  | .unwinding => .panicked
  | .dropping => .cancelled
  | phase => phase

structure Caller (K T : Type*) where
  guard : FlightGuard K
  future : ℕ
  phase : Phase T
deriving DecidableEq, Repr

structure World (K T : Type*) where
  sf : Singleflight K
  works : List (Work T)
  callers : List (Caller K T)

def World.new : World K T := ⟨.new, [], []⟩

inductive Event (K T : Type*)
  | arrive (key : K)
  | complete (caller : ℕ) (value : T)
  | panic (caller : ℕ)
  | poll (caller : ℕ)
  | cancel (caller : ℕ)
  | leave (caller : ℕ)
deriving DecidableEq, Repr

def Caller.finish (c : Caller K T) (value : T) : Caller K T :=
  { c with guard := { c.guard with finished := true }, phase := .finished value }

def World.set (w : World K T) (i : ℕ) (c : Caller K T) : World K T :=
  { w with callers := w.callers.set i c }

variable [DecidableEq K]

def World.arrive (w : World K T) (key : K) : World K T :=
  let (sf, id, future) := w.sf.enter key w.works.length
  { sf := sf
    works := if (w.sf.calls key).isNone then w.works ++ [.running] else w.works
    callers := w.callers ++
      [{ guard := { key := key, id := id, finished := false }, future := future,
         phase := .awaiting }] }

/-- A caller that awaits a running future drives it when polled: the future completes,
panics, or stays pending. A caller that awaits a settled future gets its output or its
panic. An awaiting caller can be dropped at any time. -/
def step (w : World K T) : Event K T → Option (World K T)
  | .arrive key => some (w.arrive key)
  | .complete i value => do
    let c ← w.callers[i]?
    match c.phase, w.works[c.future]? with
    | .awaiting, some .running =>
      some ({ w with works := w.works.set c.future (.done value) }.set i (c.finish value))
    | _, _ => none
  | .panic i => do
    let c ← w.callers[i]?
    match c.phase, w.works[c.future]? with
    | .awaiting, some .running =>
      some ({ w with works := w.works.set c.future .panicked }.set i { c with phase := .unwinding })
    | _, _ => none
  | .poll i => do
    let c ← w.callers[i]?
    match c.phase, w.works[c.future]? with
    | .awaiting, some .running => some w
    | .awaiting, some (.done value) => some (w.set i (c.finish value))
    | .awaiting, some .panicked => some (w.set i { c with phase := .unwinding })
    | _, _ => none
  | .cancel i => do
    let c ← w.callers[i]?
    match c.phase with
    | .awaiting => some (w.set i { c with phase := .dropping })
    | _ => none
  | .leave i => do
    let c ← w.callers[i]?
    if c.phase.leaving then
      some ({ w with sf := c.guard.drop w.sf }.set i { c with phase := c.phase.after })
    else none

/-! ## What each step does -/

inductive Moved (w : World K T) (c : Caller K T) : List (Work T) → Caller K T → Prop
  | complete (value : T) : w.works[c.future]? = some .running →
      Moved w c (w.works.set c.future (.done value)) (c.finish value)
  | panic : w.works[c.future]? = some .running →
      Moved w c (w.works.set c.future .panicked) { c with phase := .unwinding }
  | result (value : T) : w.works[c.future]? = some (.done value) →
      Moved w c w.works (c.finish value)
  | poisoned : w.works[c.future]? = some .panicked → Moved w c w.works { c with phase := .unwinding }
  | cancel : Moved w c w.works { c with phase := .dropping }

theorem step_cases {w w' : World K T} {e : Event K T} (h : step w e = some w') :
    (∃ key, e = .arrive key ∧ w' = w.arrive key) ∨ w' = w ∨
      (∃ i c works c', w.callers[i]? = some c ∧ c.phase = .awaiting ∧ Moved w c works c' ∧
        w' = ⟨w.sf, works, w.callers.set i c'⟩) ∨
      (∃ i c, e = .leave i ∧ w.callers[i]? = some c ∧ c.phase.leaving = true ∧
        w' = ⟨c.guard.drop w.sf, w.works, w.callers.set i { c with phase := c.phase.after }⟩) := by
  cases e with
  | arrive key =>
    left
    exact ⟨key, rfl, (Option.some.inj h).symm⟩
  | complete i value =>
    obtain ⟨c, hc, h⟩ := Option.bind_eq_some_iff.mp h
    split at h
    · rename_i hp hw
      obtain rfl := Option.some.inj h
      exact Or.inr (Or.inr (Or.inl ⟨i, c, _, _, hc, hp, .complete value hw, rfl⟩))
    · exact absurd h (by simp)
  | panic i =>
    obtain ⟨c, hc, h⟩ := Option.bind_eq_some_iff.mp h
    split at h
    · rename_i hp hw
      obtain rfl := Option.some.inj h
      exact Or.inr (Or.inr (Or.inl ⟨i, c, _, _, hc, hp, .panic hw, rfl⟩))
    · exact absurd h (by simp)
  | poll i =>
    obtain ⟨c, hc, h⟩ := Option.bind_eq_some_iff.mp h
    split at h
    · exact Or.inr (Or.inl (Option.some.inj h).symm)
    · rename_i value hp hw
      obtain rfl := Option.some.inj h
      exact Or.inr (Or.inr (Or.inl ⟨i, c, _, _, hc, hp, .result value hw, rfl⟩))
    · rename_i hp hw
      obtain rfl := Option.some.inj h
      exact Or.inr (Or.inr (Or.inl ⟨i, c, _, _, hc, hp, .poisoned hw, rfl⟩))
    · exact absurd h (by simp)
  | cancel i =>
    obtain ⟨c, hc, h⟩ := Option.bind_eq_some_iff.mp h
    split at h
    · rename_i hp
      obtain rfl := Option.some.inj h
      exact Or.inr (Or.inr (Or.inl ⟨i, c, _, _, hc, hp, .cancel, rfl⟩))
    · exact absurd h (by simp)
  | leave i =>
    obtain ⟨c, hc, h⟩ := Option.bind_eq_some_iff.mp h
    split_ifs at h with hp
    obtain rfl := Option.some.inj h
    exact Or.inr (Or.inr (Or.inr ⟨i, c, rfl, hc, hp, rfl⟩))

theorem Phase.live_of_leaving {phase : Phase T} (h : phase.leaving = true) :
    phase.live = true := by
  cases phase <;> simp_all [Phase.leaving, Phase.live]

theorem Phase.live_after {phase : Phase T} (h : phase.leaving = true) :
    phase.after.live = false := by
  cases phase <;> simp_all [Phase.leaving, Phase.live, Phase.after]

theorem arrive_join {w : World K T} {key : K} {f : Flight} (h : w.sf.calls key = some f) :
    w.arrive key =
      ⟨⟨Function.update w.sf.calls key (some { f with waiters := f.waiters + 1 }), w.sf.nextId⟩,
        w.works, w.callers ++ [⟨⟨key, f.id, false⟩, f.future, .awaiting⟩]⟩ := by
  simp [World.arrive, Singleflight.enter, h]

theorem arrive_register {w : World K T} {key : K} (h : w.sf.calls key = none) :
    w.arrive key =
      ⟨⟨Function.update w.sf.calls key (some ⟨w.sf.nextId, w.works.length, 1⟩),
          wrap 64 (w.sf.nextId + 1)⟩, w.works ++ [.running],
        w.callers ++ [⟨⟨key, w.sf.nextId, false⟩, w.works.length, .awaiting⟩]⟩ := by
  simp [World.arrive, Singleflight.enter, h]

theorem drop_calls_of_ne {guard : FlightGuard K} {k : K} (h : k ≠ guard.key)
    (sf : Singleflight K) : (guard.drop sf).calls k = sf.calls k := by
  simp [FlightGuard.drop, h]

theorem drop_calls_key (guard : FlightGuard K) (sf : Singleflight K) :
    (guard.drop sf).calls guard.key = (sf.calls guard.key).bind guard.leave := by
  simp [FlightGuard.drop]

omit [DecidableEq K] in
theorem leave_of_ne {guard : FlightGuard K} {f : Flight} (h : f.id ≠ guard.id) :
    guard.leave f = some f := if_pos h

omit [DecidableEq K] in
theorem leave_eq_none {guard : FlightGuard K} {f : Flight} (h : f.id = guard.id)
    (hlast : guard.finished = true ∨ f.waiters - 1 = 0) : guard.leave f = none := by
  rcases hlast with hfin | hlast
  · simp [FlightGuard.leave, h, hfin]
  · simp [FlightGuard.leave, h, hlast]

omit [DecidableEq K] in
theorem leave_eq_some {guard : FlightGuard K} {f : Flight} (h : f.id = guard.id)
    (hfin : guard.finished = false) (hmore : f.waiters - 1 ≠ 0) :
    guard.leave f = some { f with waiters := f.waiters - 1 } := by
  simp [FlightGuard.leave, h, hfin, hmore]

omit [DecidableEq K] in
theorem leave_same {guard : FlightGuard K} {f f' : Flight} (h : guard.leave f = some f') :
    f'.id = f.id ∧ f'.future = f.future := by
  unfold FlightGuard.leave at h
  dsimp only at h
  split_ifs at h <;> obtain rfl := Option.some.inj h <;> exact ⟨rfl, rfl⟩

theorem drop_calls_cases {guard : FlightGuard K} {sf : Singleflight K} {k : K} {f f' : Flight}
    (hf : sf.calls k = some f) (h : (guard.drop sf).calls k = some f') :
    (k = guard.key ∧ f.id = guard.id ∧ f.waiters - 1 ≠ 0 ∧
        f' = { f with waiters := f.waiters - 1 }) ∨
      ((k = guard.key → f.id ≠ guard.id) ∧ f' = f) := by
  by_cases hk : k = guard.key
  · subst hk
    rw [drop_calls_key, hf, Option.bind_some] at h
    by_cases hid : f.id = guard.id
    · by_cases hlast : guard.finished = true ∨ f.waiters - 1 = 0
      · rw [leave_eq_none hid hlast] at h
        cases h
      · push Not at hlast
        rw [leave_eq_some hid (by simpa using hlast.1) hlast.2] at h
        exact Or.inl ⟨rfl, hid, hlast.2, (Option.some.inj h).symm⟩
    · rw [leave_of_ne hid] at h
      exact Or.inr ⟨fun _ => hid, (Option.some.inj h).symm⟩
  · rw [drop_calls_of_ne hk, hf] at h
    exact Or.inr ⟨fun h => absurd h hk, (Option.some.inj h).symm⟩

theorem drop_calls_some {guard : FlightGuard K} {sf : Singleflight K} {k : K} {f' : Flight}
    (h : (guard.drop sf).calls k = some f') :
    ∃ f, sf.calls k = some f ∧ f'.id = f.id ∧ f'.future = f.future := by
  by_cases hk : k = guard.key
  · rw [hk, drop_calls_key] at h
    obtain ⟨f, hf, hleave⟩ := Option.bind_eq_some_iff.mp h
    exact ⟨f, hk ▸ hf, leave_same hleave⟩
  · rw [drop_calls_of_ne hk] at h
    exact ⟨f', h, rfl, rfl⟩

section Moved
omit [DecidableEq K]

variable {w : World K T} {c c' : Caller K T} {works : List (Work T)}

theorem Moved.guard (h : Moved w c works c') :
    c'.guard.key = c.guard.key ∧ c'.guard.id = c.guard.id ∧ c'.future = c.future := by
  cases h <;> exact ⟨rfl, rfl, rfl⟩

theorem Moved.live (h : Moved w c works c') : c'.phase.live = true := by
  cases h <;> rfl

theorem Moved.length (h : Moved w c works c') : works.length = w.works.length := by
  cases h <;> simp

theorem Moved.done (h : Moved w c works c') {n : ℕ} {value : T}
    (hn : w.works[n]? = some (.done value)) : works[n]? = some (.done value) := by
  cases h with
  | complete value' hrun =>
    have hne : c.future ≠ n := by rintro rfl; simp [hrun] at hn
    rwa [List.getElem?_set_ne hne]
  | panic hrun =>
    have hne : c.future ≠ n := by rintro rfl; simp [hrun] at hn
    rwa [List.getElem?_set_ne hne]
  | result | poisoned | cancel => exact hn

theorem Moved.result_of_finished (h : Moved w c works c') {value : T}
    (hp : c'.phase = .finished value) : works[c.future]? = some (.done value) := by
  cases h with
  | complete value' hrun =>
    obtain rfl : value' = value := by simpa [Caller.finish] using hp
    obtain ⟨hlt, -⟩ := List.getElem?_eq_some_iff.mp hrun
    simp [hlt]
  | result value' hdone =>
    obtain rfl : value' = value := by simpa [Caller.finish] using hp
    exact hdone
  | panic | poisoned | cancel => simp at hp

end Moved

end PaycloudHelper.InFlight
