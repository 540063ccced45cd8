import Mathlib
import PaycloudHelper.Library.Runs
import PaycloudHelper.Library.Slots

/-!
# Reconnecting

Clones of one client share the state slot and the mutex of `reconnect`. A step is what a
task does between two awaits; connections are lost at any time, and tasks are dropped
at any await. Broker states are named by their position.
-/

namespace PaycloudHelper.AmqpClient

open Runs Slots

def pushMaxRetries : ℕ := 3

/-- `other` is every caller of `ensure_state` but `push`; these never write to the slot. -/
inductive Kind
  | push
  | other
deriving DecidableEq, Repr

/-- The state an attempt publishes on, with the number of states stored by then. -/
structure Used where
  state : ℕ
  installs : ℕ
deriving DecidableEq, Repr

inductive Phase
  | ensuring (attempt : ℕ)
  | locking (attempt : ℕ)
  | rechecking (attempt : ℕ)
  | connecting (attempt : ℕ)
  | publishing (attempt : ℕ) (used : Used)
  | clearing (attempt : ℕ) (used : Option Used)
  | sleeping (attempt : ℕ)
  | finished (ok : Bool)
deriving DecidableEq, Repr

def Phase.used : Phase → Option Used
  | .publishing _ used => some used
  | .clearing _ used => used
  | _ => none

def Phase.guarded : Phase → Bool
  | .rechecking _ | .connecting _ => true
  | _ => false

structure Task where
  kind : Kind
  phase : Phase
deriving DecidableEq, Repr

structure World where
  slot : Option ℕ
  states : List Bool
  reconnect : Option ℕ
  tasks : List Task
  installs : ℕ
deriving DecidableEq, Repr

def World.new : World := ⟨some 0, [true], none, [], 0⟩

inductive Event
  | call (kind : Kind)
  | ensureState (t : ℕ)
  | lock (t : ℕ)
  | recheck (t : ℕ)
  | connected (t : ℕ) (ready : Bool)
  | connectFailed (t : ℕ)
  | published (t : ℕ) (ok : Bool)
  | clear (t : ℕ)
  | wake (t : ℕ)
  | cancel (t : ℕ)
  | lose (state : ℕ)
deriving DecidableEq, Repr

def World.ready (w : World) (s : ℕ) : Bool := w.states[s]? = some true

def World.readyState (w : World) : Option ℕ := w.slot.filter w.ready

def World.set (w : World) (t : ℕ) (task : Task) (phase : Phase) : World :=
  { w with tasks := w.tasks.set t { task with phase := phase } }

def Kind.took (attempt : ℕ) (used : Used) : Kind → Phase
  | .push => .publishing attempt used
  | .other => .finished true

def Kind.failed (attempt : ℕ) : Kind → Phase
  | .push => .clearing attempt none
  | .other => .finished false

def World.took (w : World) (t : ℕ) (task : Task) (attempt s : ℕ) : World :=
  w.set t task (task.kind.took attempt ⟨s, w.installs⟩)

def World.unlock (w : World) : World := { w with reconnect := none }

def World.install (w : World) (ready : Bool) : World :=
  { w with states := w.states ++ [ready], slot := some w.states.length, installs := w.installs + 1 }

def step (w : World) : Event → Option World
  | .call kind => some { w with tasks := w.tasks ++ [⟨kind, .ensuring 0⟩] }
  | .ensureState t => do
    let task ← w.tasks[t]?
    match task.phase, w.readyState with
    | .ensuring n, some s => some (w.took t task n s)
    | .ensuring n, none => some (w.set t task (.locking n))
    | _, _ => none
  | .lock t => do
    let task ← w.tasks[t]?
    match task.phase, w.reconnect with
    | .locking n, none => some ({ w with reconnect := some t }.set t task (.rechecking n))
    | _, _ => none
  | .recheck t => do
    let task ← w.tasks[t]?
    match task.phase, w.readyState with
    | .rechecking n, some s => some (w.unlock.took t task n s)
    | .rechecking n, none => some (w.set t task (.connecting n))
    | _, _ => none
  | .connected t ready => do
    let task ← w.tasks[t]?
    match task.phase with
    | .connecting n => some ((w.install ready).unlock.took t task n w.states.length)
    | _ => none
  | .connectFailed t => do
    let task ← w.tasks[t]?
    match task.phase with
    | .connecting n => some (w.unlock.set t task (task.kind.failed n))
    | _ => none
  | .published t ok => do
    let task ← w.tasks[t]?
    match task.phase with
    | .publishing n used =>
      some (w.set t task (if ok then .finished true else .clearing n (some used)))
    | _ => none
  | .clear t => do
    let task ← w.tasks[t]?
    match task.phase with
    | .clearing n _ =>
      some ({ w with slot := none }.set t task
        (if n + 1 < pushMaxRetries then .sleeping n else .finished false))
    | _ => none
  | .wake t => do
    let task ← w.tasks[t]?
    match task.phase with
    | .sleeping n => some (w.set t task (.ensuring (n + 1)))
    | _ => none
  | .cancel t => do
    let task ← w.tasks[t]?
    match task.phase with
    | .finished _ => none
    | phase => some ((if phase.guarded then w.unlock else w).set t task (.finished false))
  | .lose s => some { w with states := w.states.set s false }

/-! ## What the tasks know of the slot -/

def World.Fits (w : World) (u : Used) : Prop :=
  u.state < w.states.length ∧ u.installs ≤ w.installs ∧
    (w.slot = none ∨ (w.slot = some u.state ↔ u.installs = w.installs))

structure Sound (w : World) : Prop where
  stored : ∀ s, w.slot = some s → s < w.states.length
  used : ∀ task ∈ w.tasks, ∀ u, task.phase.used = some u → w.Fits u
  guarded : ∀ (t : ℕ) task, w.tasks[t]? = some task → task.phase.guarded = true →
    w.reconnect = some t
  missing : ∀ task ∈ w.tasks, ∀ n, task.phase = .connecting n → w.readyState = none

theorem Sound.new : Sound World.new where
  stored := by simp [World.new]
  used := by simp [World.new]
  guarded := by simp [World.new]
  missing := by simp [World.new]

variable {w w' : World}

theorem readyState_eq_some {s : ℕ} (h : w.readyState = some s) :
    w.slot = some s ∧ w.ready s = true := by
  simpa [World.readyState, Option.filter_eq_some_iff] using h

theorem readyState_of_slot_none (h : w.slot = none) : w.readyState = none := by
  simp [World.readyState, h]

theorem Sound.fits_of_slot (hw : Sound w) {s : ℕ} (h : w.slot = some s) :
    w.Fits ⟨s, w.installs⟩ :=
  ⟨hw.stored s h, le_rfl, Or.inr (iff_of_true h rfl)⟩

theorem Fits.install {u : Used} (hu : w.Fits u) (ready : Bool) : (w.install ready).Fits u := by
  obtain ⟨hlt, hle, -⟩ := hu
  refine ⟨?_, hle.trans (Nat.le_succ _), Or.inr (iff_of_false ?_ ?_)⟩
  · rw [World.install, List.length_append]
    exact hlt.trans_le (Nat.le_add_right _ _)
  · exact fun h => hlt.ne (Option.some.inj h).symm
  · exact (Nat.lt_succ_of_le hle).ne

@[simp] theorem Kind.took_guarded (kind : Kind) (n : ℕ) (u : Used) :
    (kind.took n u).guarded = false := by
  cases kind <;> rfl

@[simp] theorem Kind.failed_guarded (kind : Kind) (n : ℕ) : (kind.failed n).guarded = false := by
  cases kind <;> rfl

@[simp] theorem Kind.failed_used (kind : Kind) (n : ℕ) : (kind.failed n).used = none := by
  cases kind <;> rfl

theorem Kind.took_used {kind : Kind} {n : ℕ} {u u' : Used} (h : (kind.took n u).used = some u') :
    u' = u := by
  cases kind with
  | push => exact (Option.some.inj h).symm
  | other => cases h

theorem Sound.moved (hw : Sound w) {v : World} {t : ℕ} {task : Task} {phase : Phase}
    (htasks : v.tasks = w.tasks) (hstored : ∀ s, v.slot = some s → s < v.states.length)
    (hfits : ∀ u, w.Fits u → v.Fits u)
    (hother : ∀ i, i ≠ t → w.reconnect = some i →
      v.reconnect = some i ∧ (w.readyState = none → v.readyState = none))
    (hused : ∀ u, phase.used = some u → v.Fits u)
    (hguarded : phase.guarded = true → v.reconnect = some t)
    (hmissing : ∀ n, phase = .connecting n → v.readyState = none) :
    Sound (v.set t task phase) where
  stored := hstored
  used := by
    rw [World.set, htasks]
    exact forall_mem_set (fun x hx u hu => hfits u (hw.used x hx u hu)) hused
  guarded := by
    rw [World.set, htasks]
    intro i x hi hx
    rcases getElem?_set_cases hi with ⟨rfl, rfl⟩ | ⟨hne, hi⟩
    · exact hguarded hx
    · exact (hother i hne (hw.guarded i x hi hx)).1
  missing := by
    rw [World.set, htasks]
    intro x hx n hn
    obtain ⟨i, hi⟩ := List.mem_iff_getElem?.mp hx
    rcases getElem?_set_cases hi with ⟨rfl, rfl⟩ | ⟨hne, hi⟩
    · exact hmissing n hn
    · have hlocked := hw.guarded i x hi (by rw [hn]; rfl)
      exact (hother i hne hlocked).2 (hw.missing x (List.mem_of_getElem? hi) n hn)

theorem Sound.fits_of_took (hw : Sound w) {kind : Kind} {n s : ℕ} (hready : w.readyState = some s) :
    ∀ u, (kind.took n ⟨s, w.installs⟩).used = some u → w.Fits u := by
  intro u hu
  rw [Kind.took_used hu]
  exact hw.fits_of_slot (readyState_eq_some hready).1

theorem not_connecting {phase : Phase} (h : phase.guarded = false) {n : ℕ} :
    phase ≠ .connecting n := by
  rintro rfl
  cases h

theorem Sound.set (hw : Sound w) {t : ℕ} {task : Task} {phase : Phase}
    (hguarded : phase.guarded = false) (hused : ∀ u, phase.used = some u → w.Fits u) :
    Sound (w.set t task phase) :=
  hw.moved rfl hw.stored (fun _ => id) (fun _ _ h => ⟨h, id⟩) hused (by simp [hguarded])
    (fun _ h => absurd h (not_connecting hguarded))

theorem Sound.release (hw : Sound w) {v : World} {t : ℕ} {task : Task} {phase : Phase}
    (hlocked : w.reconnect = some t) (htasks : v.tasks = w.tasks)
    (hstored : ∀ s, v.slot = some s → s < v.states.length) (hfits : ∀ u, w.Fits u → v.Fits u)
    (hguarded : phase.guarded = false) (hused : ∀ u, phase.used = some u → v.Fits u) :
    Sound (v.unlock.set t task phase) := by
  refine hw.moved htasks hstored hfits ?_ hused (by simp [hguarded])
    (fun _ h => absurd h (not_connecting hguarded))
  intro i hi hlocked'
  exact absurd (Option.some.inj (hlocked'.symm.trans hlocked)) hi

theorem Sound.install_stored (ready : Bool) (s : ℕ) (h : (w.install ready).slot = some s) :
    s < (w.install ready).states.length := by
  obtain rfl := Option.some.inj h
  simp [World.install]

theorem Sound.clear (hw : Sound w) {t : ℕ} {task : Task} {phase : Phase}
    (hguarded : phase.guarded = false) (hused : phase.used = none) :
    Sound ({ w with slot := none }.set t task phase) := by
  refine hw.moved rfl (by simp) ?_ ?_ (by simp [hused]) (by simp [hguarded])
    (fun _ h => absurd h (not_connecting hguarded))
  · exact fun u hu => ⟨hu.1, hu.2.1, Or.inl rfl⟩
  · exact fun _ _ h => ⟨h, fun _ => readyState_of_slot_none rfl⟩

theorem Sound.lose (hw : Sound w) (s : ℕ) : Sound { w with states := w.states.set s false } where
  stored := by simpa using hw.stored
  used := by
    intro task htask u hu
    obtain ⟨hlt, hfit⟩ := hw.used task htask u hu
    exact ⟨by simpa using hlt, hfit⟩
  guarded := hw.guarded
  missing := by
    intro task htask n hn
    have hmissing := hw.missing task htask n hn
    rw [World.readyState, Option.filter_eq_none_iff] at hmissing ⊢
    intro s' hs' hready
    refine hmissing s' hs' ?_
    simp only [World.ready, decide_eq_true_eq] at hready ⊢
    rcases getElem?_set_cases hready with ⟨-, h⟩ | ⟨-, h⟩
    · cases h
    · exact h

theorem Sound.stepCall (hw : Sound w) {kind : Kind} (h : AmqpClient.step w (.call kind) = some w') :
    Sound w' := by
  obtain rfl := Option.some.inj h
  exact {
    stored := hw.stored
    used := forall_mem_concat hw.used (by simp [Phase.used])
    guarded := by
      intro t task ht hguarded
      rcases getElem?_concat_cases ht with ht | ⟨-, rfl⟩
      · exact hw.guarded t task ht hguarded
      · cases hguarded
    missing := forall_mem_concat hw.missing (by simp) }

theorem Sound.stepEnsureState (hw : Sound w) {t : ℕ}
    (h : AmqpClient.step w (.ensureState t) = some w') : Sound w' := by
  obtain ⟨task, ht, h⟩ := Option.bind_eq_some_iff.mp h
  split at h
  · rename_i n s hphase hready
    obtain rfl := Option.some.inj h
    exact hw.set (by simp) (hw.fits_of_took hready)
  · obtain rfl := Option.some.inj h
    exact hw.set rfl (by simp [Phase.used])
  · cases h

theorem Sound.stepLock (hw : Sound w) {t : ℕ} (h : AmqpClient.step w (.lock t) = some w') :
    Sound w' := by
  obtain ⟨task, ht, h⟩ := Option.bind_eq_some_iff.mp h
  split at h
  · rename_i n hphase hfree
    obtain rfl := Option.some.inj h
    refine hw.moved rfl hw.stored (fun _ => id) ?_ (by simp [Phase.used]) (fun _ => rfl) (by simp)
    intro i _ hlocked
    rw [hfree] at hlocked
    cases hlocked
  · cases h

theorem Sound.stepRecheck (hw : Sound w) {t : ℕ} (h : AmqpClient.step w (.recheck t) = some w') :
    Sound w' := by
  obtain ⟨task, ht, h⟩ := Option.bind_eq_some_iff.mp h
  split at h
  · rename_i n s hphase hready
    obtain rfl := Option.some.inj h
    have hlocked := hw.guarded t task ht (by rw [hphase]; rfl)
    exact hw.release hlocked rfl hw.stored (fun _ => id) (by simp) (hw.fits_of_took hready)
  · rename_i n hphase hnone
    obtain rfl := Option.some.inj h
    have hlocked := hw.guarded t task ht (by rw [hphase]; rfl)
    exact hw.moved rfl hw.stored (fun _ => id) (fun _ _ h => ⟨h, id⟩) (by simp [Phase.used])
      (fun _ => hlocked) (fun _ _ => hnone)
  · cases h

theorem Sound.stepConnected (hw : Sound w) {t : ℕ} {ready : Bool}
    (h : AmqpClient.step w (.connected t ready) = some w') : Sound w' := by
  obtain ⟨task, ht, h⟩ := Option.bind_eq_some_iff.mp h
  split at h
  · rename_i n hphase
    obtain rfl := Option.some.inj h
    have hlocked := hw.guarded t task ht (by rw [hphase]; rfl)
    refine hw.release hlocked rfl (Sound.install_stored ready) (fun _ hu => Fits.install hu ready)
      (by simp) fun u hu => ?_
    rw [Kind.took_used hu]
    exact ⟨Sound.install_stored ready _ rfl, le_rfl, Or.inr (iff_of_true rfl rfl)⟩
  · cases h

theorem Sound.stepConnectFailed (hw : Sound w) {t : ℕ}
    (h : AmqpClient.step w (.connectFailed t) = some w') : Sound w' := by
  obtain ⟨task, ht, h⟩ := Option.bind_eq_some_iff.mp h
  split at h
  · rename_i n hphase
    obtain rfl := Option.some.inj h
    have hlocked := hw.guarded t task ht (by rw [hphase]; rfl)
    exact hw.release hlocked rfl hw.stored (fun _ => id) (by simp) (by simp)
  · cases h

theorem Sound.stepPublished (hw : Sound w) {t : ℕ} {ok : Bool}
    (h : AmqpClient.step w (.published t ok) = some w') : Sound w' := by
  obtain ⟨task, ht, h⟩ := Option.bind_eq_some_iff.mp h
  split at h
  · rename_i n used hphase
    obtain rfl := Option.some.inj h
    have hfits := hw.used task (List.mem_of_getElem? ht) used (by rw [hphase]; rfl)
    cases ok with
    | true => exact hw.set rfl (by simp [Phase.used])
    | false =>
      refine hw.set rfl fun u hu => ?_
      obtain rfl := Option.some.inj hu
      exact hfits
  · cases h

theorem Sound.stepClear (hw : Sound w) {t : ℕ} (h : AmqpClient.step w (.clear t) = some w') :
    Sound w' := by
  obtain ⟨task, ht, h⟩ := Option.bind_eq_some_iff.mp h
  split at h
  · obtain rfl := Option.some.inj h
    split_ifs
    · exact hw.clear rfl rfl
    · exact hw.clear rfl rfl
  · cases h

theorem Sound.stepWake (hw : Sound w) {t : ℕ} (h : AmqpClient.step w (.wake t) = some w') :
    Sound w' := by
  obtain ⟨task, ht, h⟩ := Option.bind_eq_some_iff.mp h
  split at h
  · obtain rfl := Option.some.inj h
    exact hw.set rfl (by simp [Phase.used])
  · cases h

theorem Sound.stepCancel (hw : Sound w) {t : ℕ} (h : AmqpClient.step w (.cancel t) = some w') :
    Sound w' := by
  obtain ⟨task, ht, h⟩ := Option.bind_eq_some_iff.mp h
  split at h
  · cases h
  · obtain rfl := Option.some.inj h
    split_ifs with hguarded
    · exact hw.release (hw.guarded t task ht hguarded) rfl hw.stored (fun _ => id) rfl
        (by simp [Phase.used])
    · exact hw.set rfl (by simp [Phase.used])

theorem Sound.step {e : Event} (hw : Sound w) (h : AmqpClient.step w e = some w') :
    Sound w' := by
  cases e with
  | call kind => exact hw.stepCall h
  | ensureState t => exact hw.stepEnsureState h
  | lock t => exact hw.stepLock h
  | recheck t => exact hw.stepRecheck h
  | connected t ready => exact hw.stepConnected h
  | connectFailed t => exact hw.stepConnectFailed h
  | published t ok => exact hw.stepPublished h
  | clear t => exact hw.stepClear h
  | wake t => exact hw.stepWake h
  | cancel t => exact hw.stepCancel h
  | lose s =>
    obtain rfl := Option.some.inj h
    exact hw.lose s

/-! ## Who discards a newer state -/

/-- An attempt that fails on a state clears the slot only if it holds that state. -/
def Spares (w : World) : Event → Prop
  | .clear t => ∀ task ∈ w.tasks[t]?, ∀ u ∈ task.phase.used,
      w.slot = none ∨ w.slot = some u.state
  | _ => True

/-- `reconnect` has stored no state since the attempt got its own, unless the slot has
been emptied again. -/
def Undisturbed (w : World) : Event → Prop
  | .clear t => ∀ task ∈ w.tasks[t]?, ∀ u ∈ task.phase.used,
      w.slot = none ∨ u.installs = w.installs
  | _ => True

theorem Sound.spares_iff (hw : Sound w) (e : Event) : Spares w e ↔ Undisturbed w e := by
  cases e with
  | clear t =>
    refine forall₂_congr fun task ht => forall₂_congr fun u hu => ?_
    obtain ⟨-, -, hempty | hsame⟩ := hw.used task (List.mem_of_getElem? ht) u hu
    · simp [hempty]
    · exact or_congr Iff.rfl hsame
  | _ => exact Iff.rfl

theorem connected_replaces_unready {es : List Event} (hrun : run step .new es = some w) {t : ℕ}
    {ready : Bool} {w' : World} (h : step w (.connected t ready) = some w') :
    w.readyState = none := by
  have hw : Sound w := run_invariant (fun _ _ _ hw h => hw.step h) Sound.new hrun
  obtain ⟨task, ht, h⟩ := Option.bind_eq_some_iff.mp h
  split at h
  · rename_i n hphase
    exact hw.missing task (List.mem_of_getElem? ht) n hphase
  · cases h

/-- In a run no failed attempt discards another state than its own if and only if none
clears the slot after `reconnect` has stored one. -/
theorem spares_iff_undisturbed (es : List Event) :
    AllSteps step Spares .new es ↔ AllSteps step Undisturbed .new es := by
  have hstep : ∀ (w : World) e w', Sound w → True → step w e = some w' → Sound w' :=
    fun _ _ _ hw _ h => hw.step h
  constructor <;> intro hall
  · exact allSteps_of_invariant hstep (fun _ e hw => (hw.spares_iff e).mp) Sound.new
      (allSteps_true _ _) hall
  · exact allSteps_of_invariant hstep (fun _ e hw => (hw.spares_iff e).mpr) Sound.new
      (allSteps_true _ _) hall

instance (w : World) : (e : Event) → Decidable (Spares w e)
  | .clear t => inferInstanceAs (Decidable (∀ task ∈ w.tasks[t]?, ∀ u ∈ task.phase.used,
      w.slot = none ∨ w.slot = some u.state))
  | .call _ | .ensureState _ | .lock _ | .recheck _ | .connected .. | .connectFailed _
  | .published .. | .wake _ | .cancel _ | .lose _ => isTrue trivial

def lateFailure : List Event :=
  [.call .push, .call .push, .ensureState 0, .ensureState 1, .lose 0, .published 0 false,
    .published 1 false, .clear 0, .wake 0, .ensureState 0, .lock 0, .recheck 0,
    .connected 0 true, .clear 1]

/-- The connection that `connected 0` has stored is ready, and thrown away. -/
theorem late_failure_discards : ¬ AllSteps step Spares .new lateFailure ∧
    (run step .new lateFailure.dropLast).map World.readyState = some (some 1) ∧
      (run step .new lateFailure).map World.slot = some none := by
  decide

end PaycloudHelper.AmqpClient
