import Mathlib
import PaycloudHelper.Library.Runs
import PaycloudHelper.Library.Slots

/-!
# Check, then act

Parties share a flag. Each looks at it, and if it is down raises it and acts; if it is
up the party is turned away. Looking and raising are two steps, so two parties can both
find the flag down. They cannot when nobody looks while another is between the two.
-/

namespace CheckThenAct

open Runs Slots

inductive Stage
  | looking
  | raising
  | acting
  | acted
  | refused
deriving DecidableEq, Repr

structure State where
  raised : Bool
  stages : List Stage
deriving DecidableEq, Repr

def step (s : State) (i : ℕ) : Option State :=
  match s.stages[i]? with
  | some .looking =>
    some { s with stages := s.stages.set i (if s.raised then .refused else .raising) }
  | some .raising => some ⟨true, s.stages.set i .acting⟩
  | some .acting => some { s with stages := s.stages.set i .acted }
  | _ => none

/-- Nobody is between looking and raising when the step is a look. -/
def Undisturbed (s : State) (i : ℕ) : Prop :=
  s.stages[i]? = some .looking → .raising ∉ s.stages

/-- The party found the flag down. -/
def Stage.committed : Stage → Bool
  | .raising | .acting | .acted => true
  | .looking | .refused => false

def Stage.past : Stage → Bool
  | .acting | .acted => true
  | .looking | .raising | .refused => false

def State.committed (s : State) : ℕ := s.stages.countP Stage.committed

def State.acted (s : State) : ℕ := s.stages.countP (· == .acted)

theorem step_looking {s : State} {i : ℕ} (h : s.stages[i]? = some .looking) :
    step s i =
      some ⟨s.raised, s.stages.set i (if s.raised = true then .refused else .raising)⟩ := by
  simp [step, h]

theorem step_raising {s : State} {i : ℕ} (h : s.stages[i]? = some .raising) :
    step s i = some ⟨true, s.stages.set i .acting⟩ := by
  simp [step, h]

theorem step_acting {s : State} {i : ℕ} (h : s.stages[i]? = some .acting) :
    step s i = some ⟨s.raised, s.stages.set i .acted⟩ := by
  simp [step, h]

theorem step_cases {s s' : State} {i : ℕ} (h : step s i = some s') :
    (s.stages[i]? = some .looking ∧ s.raised = true ∧ s' = ⟨true, s.stages.set i .refused⟩) ∨
      (s.stages[i]? = some .looking ∧ s.raised = false ∧
        s' = ⟨false, s.stages.set i .raising⟩) ∨
      (s.stages[i]? = some .raising ∧ s' = ⟨true, s.stages.set i .acting⟩) ∨
      (s.stages[i]? = some .acting ∧ s' = ⟨s.raised, s.stages.set i .acted⟩) := by
  obtain ⟨raised, stages⟩ := s
  unfold step at h
  dsimp only at h ⊢
  split at h
  · cases raised with
    | true => exact Or.inl ⟨‹_›, rfl, (Option.some.inj h).symm⟩
    | false => exact Or.inr (Or.inl ⟨‹_›, rfl, (Option.some.inj h).symm⟩)
  · exact Or.inr (Or.inr (Or.inl ⟨‹_›, (Option.some.inj h).symm⟩))
  · exact Or.inr (Or.inr (Or.inr ⟨‹_›, (Option.some.inj h).symm⟩))
  · cases h

theorem committed_of_step {s s' : State} {i : ℕ} (h : step s i = some s') :
    s'.committed = s.committed ∨
      (s.stages[i]? = some .looking ∧ s.raised = false ∧ s'.committed = s.committed + 1) := by
  rcases step_cases h with ⟨hl, -, rfl⟩ | ⟨hl, hr, rfl⟩ | ⟨hl, rfl⟩ | ⟨hl, rfl⟩
  · exact Or.inl (countP_set_same (p := Stage.committed) (b := Stage.refused) hl rfl)
  · exact Or.inr ⟨hl, hr, countP_set_true (p := Stage.committed) (b := Stage.raising) hl rfl rfl⟩
  · exact Or.inl (countP_set_same (p := Stage.committed) (b := Stage.acting) hl rfl)
  · exact Or.inl (countP_set_same (p := Stage.committed) (b := Stage.acted) hl rfl)

theorem committed_le_of_run {s u : State} {is : List ℕ} (h : run step s is = some u) :
    s.committed ≤ u.committed := by
  apply run_rel (R := fun s u : State => s.committed ≤ u.committed) (fun _ => le_rfl)
    (fun _ _ _ => le_trans) _ h
  intro s i t hstep
  rcases committed_of_step hstep with h | ⟨-, -, h⟩ <;> omega

theorem acted_le_committed (s : State) : s.acted ≤ s.committed := by
  apply List.countP_mono_left
  intro stage _ h
  rw [beq_iff_eq.mp h]
  rfl

theorem committed_eq_zero {s : State} (hraising : .raising ∉ s.stages)
    (hpast : ∀ stage ∈ s.stages, stage.past = false) : s.committed = 0 := by
  apply List.countP_eq_zero.mpr
  intro stage hstage hcommitted
  have hnot := hpast stage hstage
  cases stage with
  | raising => exact hraising hstage
  | acting | acted => exact absurd hnot (by simp [Stage.past])
  | looking | refused => exact absurd hcommitted (by simp [Stage.committed])

/-! ## At most one acts -/

structure Once (s : State) : Prop where
  one : s.committed ≤ 1
  down : s.raised = false → ∀ stage ∈ s.stages, stage.past = false

theorem Once.of_looking {s : State} (hs : ∀ stage ∈ s.stages, stage = .looking) : Once s := by
  have hpast : ∀ stage ∈ s.stages, stage.past = false := by
    intro stage hstage
    rw [hs stage hstage]
    rfl
  constructor
  · rw [committed_eq_zero (fun h => by simpa using hs _ h) hpast]
    exact Nat.zero_le 1
  · exact fun _ => hpast

theorem Once.step {s s' : State} {i : ℕ} (hs : Once s) (hi : Undisturbed s i)
    (h : CheckThenAct.step s i = some s') : Once s' := by
  constructor
  · rcases committed_of_step h with hsame | ⟨hl, hr, hmore⟩
    · exact hsame.trans_le hs.one
    · -- The flag is down, so nobody is past it, and nobody is raising it either.
      rw [hmore, committed_eq_zero (hi hl) (hs.down hr)]
  · intro hd
    rcases step_cases h with ⟨-, -, rfl⟩ | ⟨-, hr, rfl⟩ | ⟨-, rfl⟩ | ⟨hl, rfl⟩
    · exact absurd hd (by simp)
    · exact forall_mem_set (hs.down hr) rfl
    · exact absurd hd (by simp)
    · have hpast := hs.down hd .acting (List.mem_of_getElem? hl)
      exact absurd hpast (by simp [Stage.past])

theorem at_most_one_acts {s u : State} {is : List ℕ} (hs : ∀ stage ∈ s.stages, stage = .looking)
    (halone : AllSteps step Undisturbed s is) (hrun : run step s is = some u) : u.acted ≤ 1 := by
  have hu : Once u := run_invariant_of (fun _ _ _ h hi hstep => h.step hi hstep)
    (Once.of_looking hs) halone hrun
  exact (acted_le_committed u).trans hu.one

/-! ## Two looks at a lowered flag -/

def RaisedByOther (s : State) : Prop :=
  .raising ∈ s.stages → s.raised = true →
    ∃ (j : ℕ) (stage : Stage), s.stages[j]? = some stage ∧ stage.past = true

theorem RaisedByOther.step {s s' : State} {i : ℕ} (hs : RaisedByOther s)
    (h : CheckThenAct.step s i = some s') : RaisedByOther s' := by
  rcases step_cases h with ⟨hl, hr, rfl⟩ | ⟨-, -, rfl⟩ | ⟨hl, rfl⟩ | ⟨hl, rfl⟩
  · intro hraising _
    have hbefore : .raising ∈ s.stages := by
      rcases List.mem_or_eq_of_mem_set hraising with hmem | hmem
      · exact hmem
      · cases hmem
    obtain ⟨j, stage, hj, hpast⟩ := hs hbefore hr
    have hij : i ≠ j := by
      rintro rfl
      obtain rfl : Stage.looking = stage := Option.some.inj (hl.symm.trans hj)
      cases hpast
    exact ⟨j, stage, (List.getElem?_set_ne hij).trans hj, hpast⟩
  · exact fun _ hr => absurd hr (by simp)
  · have hlt : i < s.stages.length := (List.getElem?_eq_some_iff.mp hl).1
    exact fun _ _ => ⟨i, .acting, List.getElem?_set_self hlt, rfl⟩
  · have hlt : i < s.stages.length := (List.getElem?_eq_some_iff.mp hl).1
    exact fun _ _ => ⟨i, .acted, List.getElem?_set_self hlt, rfl⟩

theorem two_committed {s : State} {i j : ℕ} {a b : Stage} (hij : i ≠ j)
    (hi : s.stages[i]? = some a) (hj : s.stages[j]? = some b) (ha : a.committed = true)
    (hb : b.committed = true) : 2 ≤ s.committed := by
  have hless := countP_set_false (b := Stage.looking) hi ha rfl
  have hpos : 0 < (s.stages.set i .looking).countP Stage.committed := countP_set_pos hij hj hb
  unfold State.committed
  omega

theorem Undisturbed.of_committed {s s' : State} {i : ℕ} (hs : RaisedByOther s)
    (h : step s i = some s') (hone : s'.committed ≤ 1) : Undisturbed s i := by
  intro hl hraising
  have hle : s.committed ≤ s'.committed := committed_le_of_run (run_cons_of_step h [])
  obtain ⟨j, hj⟩ := List.mem_iff_getElem?.mp hraising
  cases hr : s.raised with
  | true =>
    obtain ⟨k, stage, hk, hpast⟩ := hs hraising hr
    have hjk : j ≠ k := by
      rintro rfl
      obtain rfl : Stage.raising = stage := Option.some.inj (hj.symm.trans hk)
      cases hpast
    have hcommitted : stage.committed = true := by
      cases stage <;> simp_all [Stage.past, Stage.committed]
    have htwo := two_committed hjk hj hk rfl hcommitted
    omega
  | false =>
    have hpos : 0 < s.committed := List.countP_pos_iff.mpr ⟨.raising, hraising, rfl⟩
    have hmore : s'.committed = s.committed + 1 := by
      rcases step_cases h with ⟨-, hup, -⟩ | ⟨-, -, rfl⟩ | ⟨hother, -⟩ | ⟨hother, -⟩
      · exact absurd hup (by simp [hr])
      · exact countP_set_true (p := Stage.committed) (b := Stage.raising) hl rfl rfl
      · exact absurd (hl.symm.trans hother) (by simp)
      · exact absurd (hl.symm.trans hother) (by simp)
    omega

theorem undisturbed_of_once {s u : State} {is : List ℕ}
    (hs : ∀ stage ∈ s.stages, stage = .looking) (hrun : run step s is = some u)
    (hdone : ∀ stage ∈ u.stages, stage = .acted ∨ stage = .refused) (hone : u.acted ≤ 1) :
    AllSteps step Undisturbed s is := by
  have hcommitted : u.committed ≤ 1 := by
    apply le_trans _ hone
    apply List.countP_mono_left
    intro stage hstage hc
    rcases hdone stage hstage with rfl | rfl
    · rfl
    · cases hc
  have hraised : RaisedByOther s := by
    intro hraising
    cases hs _ hraising
  clear hs hdone hone
  induction is generalizing s with
  | nil => trivial
  | cons i is ih =>
    obtain ⟨t, ht, hrun⟩ := run_cons_iff.mp hrun
    have hle : t.committed ≤ 1 := (committed_le_of_run hrun).trans hcommitted
    constructor
    · exact Undisturbed.of_committed hraised ht hle
    · intro t' ht'
      obtain rfl : t = t' := Option.some.inj (ht.symm.trans ht')
      exact ih hrun (hraised.step ht)

end CheckThenAct
