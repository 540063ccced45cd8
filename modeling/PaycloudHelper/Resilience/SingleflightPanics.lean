import Mathlib
import PaycloudHelper.Resilience.SingleflightFlights

/-!
# Panicked flights

A caller that leaves by a panic leaves its guard unfinished, so the entry stays until
the last waiter is gone, and an arrival before that joins the panicked flight. That is
the only way to be served one: an entry always has a live caller of its flight behind it.
-/

namespace PaycloudHelper.InFlight

open Runs Words Slots

variable {K T : Type*}

def awaits (future : ℕ) (c : Caller K T) : Bool := c.phase.live && decide (c.future = future)

theorem awaits_iff {future : ℕ} {c : Caller K T} :
    awaits future c = true ↔ c.phase.live = true ∧ c.future = future := by
  simp [awaits]

/-- Ids may have come round: an entry has waiters, and no more than live callers. -/
structure Manned (w : World K T) : Prop where
  waiters : ∀ k f, w.sf.calls k = some f →
    1 ≤ f.waiters ∧ f.waiters ≤ w.callers.countP (awaits f.future)
  panicked : ∀ c ∈ w.callers, c.phase = .unwinding ∨ c.phase = .panicked →
    w.works[c.future]? = some .panicked

theorem Manned.new : Manned (World.new : World K T) where
  waiters := by simp [World.new, Singleflight.new]
  panicked := by simp [World.new]

theorem Moved.awaits_eq {w : World K T} {c c' : Caller K T} {works : List (Work T)}
    (hm : Moved w c works c') (hp : c.phase = .awaiting) (n : ℕ) : awaits n c' = awaits n c := by
  have hlive : c.phase.live = true := by rw [hp]; rfl
  simp [awaits, hm.live, hlive, hm.guard.2.2]

theorem Moved.poison {w : World K T} {c c' : Caller K T} {works : List (Work T)}
    (hm : Moved w c works c') {n : ℕ} (hn : w.works[n]? = some .panicked) :
    works[n]? = some .panicked := by
  cases hm with
  | complete value hrun =>
    have hne : c.future ≠ n := by rintro rfl; simp [hrun] at hn
    rwa [List.getElem?_set_ne hne]
  | panic hrun =>
    have hne : c.future ≠ n := by rintro rfl; simp [hrun] at hn
    rwa [List.getElem?_set_ne hne]
  | result | poisoned | cancel => exact hn

theorem Moved.panicked_of_unwinding {w : World K T} {c c' : Caller K T} {works : List (Work T)}
    (hm : Moved w c works c') (hp : c'.phase = .unwinding ∨ c'.phase = .panicked) :
    works[c.future]? = some .panicked := by
  cases hm with
  | complete | result => simp [Caller.finish] at hp
  | panic hrun =>
    obtain ⟨hlt, -⟩ := List.getElem?_eq_some_iff.mp hrun
    simp [hlt]
  | poisoned hpoisoned => exact hpoisoned
  | cancel => simp at hp

theorem Manned.moved {w : World K T} (hw : Manned w) {i : ℕ} {c c' : Caller K T}
    {works : List (Work T)} (hc : w.callers[i]? = some c) (hp : c.phase = .awaiting)
    (hm : Moved w c works c') : Manned ⟨w.sf, works, w.callers.set i c'⟩ where
  waiters := by
    intro k f hf
    dsimp only
    rw [countP_set_same hc (hm.awaits_eq hp f.future)]
    exact hw.waiters k f hf
  panicked := by
    apply forall_mem_set
    · intro x hx hphase
      exact hm.poison (hw.panicked x hx hphase)
    · intro hphase
      rw [hm.guard.2.2]
      exact hm.panicked_of_unwinding hphase

variable [DecidableEq K]

theorem Manned.joined {w : World K T} (hw : Manned w) {key : K} {f : Flight}
    (hf : w.sf.calls key = some f) : Manned (w.arrive key) := by
  rw [arrive_join hf]
  exact {
    waiters := by
      intro k f' hf'
      dsimp only at hf' ⊢
      rw [List.countP_append, List.countP_singleton]
      by_cases hk : k = key
      · subst hk
        obtain rfl : _ = f' := by simpa using hf'
        have hold := hw.waiters k f hf
        have hnew : awaits f.future (⟨⟨k, f.id, false⟩, f.future, .awaiting⟩ : Caller K T) = true :=
          awaits_iff.mpr ⟨rfl, rfl⟩
        dsimp only
        rw [if_pos hnew]
        omega
      · rw [Function.update_of_ne hk] at hf'
        have hold := hw.waiters k f' hf'
        omega
    panicked := forall_mem_concat hw.panicked (by simp) }

theorem Manned.registered {w : World K T} (hw : Manned w) {key : K}
    (hnone : w.sf.calls key = none) : Manned (w.arrive key) := by
  rw [arrive_register hnone]
  exact {
    waiters := by
      intro k f' hf'
      dsimp only
      rw [List.countP_append, List.countP_singleton]
      rcases registered_calls hf' with ⟨-, rfl⟩ | ⟨-, hf⟩
      · simp [awaits, Phase.live]
      · have hold := hw.waiters k f' hf
        omega
    panicked := by
      apply forall_mem_concat
      · intro c hc hphase
        have hpanic := hw.panicked c hc hphase
        rwa [List.getElem?_append_left (List.getElem?_eq_some_iff.mp hpanic).1]
      · simp }

theorem Manned.left {w : World K T} (hw : Manned w) (hb : Booked w) {i : ℕ} {c : Caller K T}
    (hc : w.callers[i]? = some c) (hp : c.phase.leaving = true) :
    Manned ⟨c.guard.drop w.sf, w.works, w.callers.set i { c with phase := c.phase.after }⟩ := by
  have hmem : c ∈ w.callers := List.mem_of_getElem? hc
  have hdead : ∀ n, awaits n { c with phase := c.phase.after } = false := by
    intro n
    simp [awaits, Phase.live_after hp]
  exact {
    waiters := by
      intro k f' hf'
      dsimp only at hf' ⊢
      obtain ⟨f, hf, -, hfut⟩ := drop_calls_some hf'
      obtain ⟨hpos, hle⟩ := hw.waiters k f hf
      rw [hfut]
      rcases drop_calls_cases hf hf' with ⟨-, -, hmore, rfl⟩ | ⟨hne, rfl⟩
      · cases hown : awaits f.future c with
        | true =>
          have hless := countP_set_false hc hown (hdead f.future)
          dsimp only
          omega
        | false =>
          rw [countP_set_same hc ((hdead f.future).trans hown.symm)]
          dsimp only
          omega
      · -- A caller of the flight has the id of its entry.
        have hoff : awaits f'.future c = false := by
          rw [← Bool.not_eq_true, awaits_iff]
          rintro ⟨-, hown⟩
          apply hne (hb.owner k f' hf c hmem hown).symm
          rw [(hb.entry k f' hf).2, (hb.caller c hmem).2, hown]
        rw [countP_set_same hc ((hdead f'.future).trans hoff.symm)]
        exact ⟨hpos, hle⟩
    panicked := by
      apply forall_mem_set hw.panicked
      intro hphase
      apply hw.panicked c hmem
      cases hbefore : c.phase <;> simp_all [Phase.after, Phase.leaving] }

theorem Manned.step {w w' : World K T} {e : Event K T} (hw : Manned w) (hb : Booked w)
    (h : InFlight.step w e = some w') : Manned w' := by
  rcases step_cases h with ⟨key, rfl, rfl⟩ | rfl | ⟨i, c, works, c', hc, hp, hm, rfl⟩ |
    ⟨i, c, rfl, hc, hp, rfl⟩
  · cases hcalls : w.sf.calls key with
    | none => exact hw.registered hcalls
    | some f => exact hw.joined hcalls
  · exact hw
  · exact hw.moved hc hp hm
  · exact hw.left hb hc hp

/-! ## Who is served a panicked flight -/

/-- An arrival joins no flight that a caller has left because it panicked. -/
def Spared (w : World K T) : Event K T → Prop
  | .arrive key => ∀ c ∈ w.callers, c.phase = .panicked → w.joins key ≠ c.future
  | _ => True

/-- Nobody arrives for a key while a panicked flight of it, which a caller has left
already, still has callers that have not left. -/
def Deserted (w : World K T) : Event K T → Prop
  | .arrive key => ∀ c ∈ w.callers, c.guard.key = key → c.phase = .panicked →
      ∀ c' ∈ w.callers, c'.phase.live = true → c'.future ≠ c.future
  | _ => True

theorem joins_entry {w : World K T} {key : K} {f : Flight} (h : w.sf.calls key = some f) :
    w.joins key = f.future := by
  simp [World.joins, Singleflight.enter, h]

theorem joins_own {w : World K T} {key : K} (h : w.sf.calls key = none) :
    w.joins key = w.works.length := by
  simp [World.joins, Singleflight.enter, h]

theorem spared_of_deserted {w : World K T} (hb : Booked w) (hw : Manned w) {e : Event K T}
    (h : Deserted w e) : Spared w e := by
  cases e with
  | arrive key =>
    intro c hc hp hjoin
    cases hcalls : w.sf.calls key with
    | none =>
      rw [joins_own hcalls] at hjoin
      exact (hb.caller c hc).1.ne hjoin.symm
    | some f =>
      rw [joins_entry hcalls] at hjoin
      obtain ⟨hpos, hle⟩ := hw.waiters key f hcalls
      obtain ⟨c', hc', hawaits⟩ := List.countP_pos_iff.mp (hpos.trans hle)
      obtain ⟨hlive, hfut⟩ := awaits_iff.mp hawaits
      have hkey : c.guard.key = key := hb.owner key f hcalls c hc hjoin.symm
      exact h c hc hkey hp c' hc' hlive (hfut.trans hjoin)
  | _ => trivial

theorem deserted_of_spared {w : World K T} (hb : Booked w) (hw : Manned w) (he : Exact w)
    {e : Event K T} (h : Spared w e) : Deserted w e := by
  cases e with
  | arrive key =>
    intro c hc hkey hp c' hc' hlive hsame
    have hun : Unsettled w c'.future := by
      intro value hdone
      rw [hsame, hw.panicked c hc (Or.inr hp)] at hdone
      cases hdone
    obtain ⟨f, hf, hfut⟩ := he.kept c' hc' hlive hun
    have hown : c.guard.key = c'.guard.key := hb.owner _ f hf c hc (hfut.trans hsame).symm
    rw [← hown, hkey] at hf
    exact h c hc hp ((joins_entry hf).trans (hfut.trans hsame))
  | _ => trivial

/-- In a run in which nobody arrives at a panicked flight that is still held, nobody is
served one; with fewer than 2^64 flights in those runs only. -/
theorem spared_iff_deserted {es : List (Event K T)} {w : World K T}
    (hrun : run step .new es = some w) :
    (AllSteps step Deserted .new es → AllSteps step Spared .new es) ∧
      (w.works.length < 2 ^ 64 →
        (AllSteps step Spared .new es ↔ AllSteps step Deserted .new es)) := by
  have hforward : AllSteps step Deserted .new es → AllSteps step Spared .new es := by
    intro hdeserted
    have hstep : ∀ (w : World K T) e w', Booked w ∧ Manned w → True → step w e = some w' →
        Booked w' ∧ Manned w' := fun w e w' hw _ h => ⟨hw.1.step h, hw.2.step hw.1 h⟩
    have himp : ∀ (w : World K T) e, Booked w ∧ Manned w → Deserted w e → Spared w e :=
      fun w e hw h => spared_of_deserted hw.1 hw.2 h
    exact allSteps_of_invariant hstep himp ⟨Booked.new, Manned.new⟩ (allSteps_true _ _) hdeserted
  refine ⟨hforward, fun hfew => ⟨fun hspared => ?_, hforward⟩⟩
  have hfresh : AllSteps step Fresh .new es := fresh_of_few Booked.new hrun hfew
  have hstep : ∀ (w : World K T) e w', (Booked w ∧ Manned w) ∧ Exact w → Fresh w e →
      step w e = some w' → (Booked w' ∧ Manned w') ∧ Exact w' := by
    rintro w e w' ⟨⟨hb, hm⟩, he⟩ hfresh h
    exact ⟨⟨hb.step h, hm.step hb h⟩, he.step hb hfresh h⟩
  have himp : ∀ (w : World K T) e, (Booked w ∧ Manned w) ∧ Exact w → Spared w e →
      Deserted w e := fun w e hw h => deserted_of_spared hw.1.1 hw.1.2 hw.2 h
  exact allSteps_of_invariant hstep himp ⟨⟨Booked.new, Manned.new⟩, Exact.new⟩ hfresh hspared

def panickedAlone : List (Event Bool ℕ) :=
  [.arrive true, .arrive true, .panic 0, .leave 0, .poll 1, .leave 1, .arrive true]

def panickedHeld : List (Event Bool ℕ) :=
  [.arrive true, .arrive true, .panic 0, .leave 0, .arrive true, .poll 2]

instance [DecidableEq T] (w : World K T) : (e : Event K T) → Decidable (Deserted w e)
  | .arrive key => inferInstanceAs (Decidable (∀ c ∈ w.callers, c.guard.key = key →
      c.phase = .panicked → ∀ c' ∈ w.callers, c'.phase.live = true → c'.future ≠ c.future))
  | .complete .. | .panic _ | .poll _ | .cancel _ | .leave _ => isTrue trivial

instance [DecidableEq T] (w : World K T) : (e : Event K T) → Decidable (Spared w e)
  | .arrive key => inferInstanceAs (Decidable (∀ c ∈ w.callers, c.phase = .panicked →
      w.joins key ≠ c.future))
  | .complete .. | .panic _ | .poll _ | .cancel _ | .leave _ => isTrue trivial

theorem spared_iff_deserted_alone : AllSteps step Spared .new panickedAlone := by
  have hrun : run step .new panickedAlone = some _ := rfl
  exact (spared_iff_deserted hrun).1 (by decide)

/-- Caller 2 arrives after caller 0 has left by the panic, and gets the panic too. -/
theorem served_panicked_flight : ∃ w : World Bool ℕ,
    run step .new panickedHeld = some w ∧ ¬ AllSteps step Spared .new panickedHeld ∧
      w.callers[2]?.map Caller.phase = some .unwinding ∧ w.works = [.panicked] := by
  have hrun : run step .new panickedHeld = some _ := rfl
  exact ⟨_, hrun, by decide, rfl, rfl⟩

end PaycloudHelper.InFlight
