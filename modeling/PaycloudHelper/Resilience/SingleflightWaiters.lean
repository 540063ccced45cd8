import Mathlib
import PaycloudHelper.Resilience.SingleflightInvariant

/-!
# The waiter count of a flight

`Exact` is what the ids are for: an entry counts the live guards that carry its key
and its id. It needs that an id is not handed out again while a guard that carries it
for the same key is alive, which `Fresh` asks of every registration. Ids repeat after
2^64 registrations, so shorter runs are fresh.
-/

namespace PaycloudHelper.InFlight

open Runs Words Slots

variable {K T : Type*} [DecidableEq K]

def holds (key : K) (id : ℕ) (c : Caller K T) : Bool :=
  c.phase.live && decide (c.guard.key = key) && decide (c.guard.id = id)

theorem holds_iff {key : K} {id : ℕ} {c : Caller K T} :
    holds key id c = true ↔ c.phase.live = true ∧ c.guard.key = key ∧ c.guard.id = id := by
  simp [holds, and_assoc]

theorem holds_of_dead {key : K} {id : ℕ} {c : Caller K T} (h : c.phase.live = false) :
    holds key id c = false := by
  simp [holds, h]

theorem holds_of_key_ne {key : K} {id : ℕ} {c : Caller K T} (h : c.guard.key ≠ key) :
    holds key id c = false := by
  simp [holds, h]

def Unsettled (w : World K T) (future : ℕ) : Prop :=
  ∀ value, w.works[future]? ≠ some (.done value)

structure Exact (w : World K T) : Prop where
  same : ∀ k f, w.sf.calls k = some f → ∀ c ∈ w.callers, holds k f.id c = true →
    c.future = f.future
  count : ∀ k f, w.sf.calls k = some f →
    f.waiters = w.callers.countP (holds k f.id) ∧ 1 ≤ f.waiters
  kept : ∀ c ∈ w.callers, c.phase.live = true → Unsettled w c.future →
    ∃ f, w.sf.calls c.guard.key = some f ∧ f.future = c.future

/-- A registration does not reuse an id that a live guard of the key still carries. -/
def Fresh (w : World K T) : Event K T → Prop
  | .arrive key => w.sf.calls key = none →
      ∀ c ∈ w.callers, holds key w.sf.nextId c = false
  | _ => True

theorem Exact.new : Exact (World.new : World K T) where
  same := by simp [World.new, Singleflight.new]
  count := by simp [World.new, Singleflight.new]
  kept := by simp [World.new]

theorem Moved.holds_eq {w : World K T} {c c' : Caller K T} {works : List (Work T)}
    (hm : Moved w c works c') (hp : c.phase = .awaiting) (k : K) (id : ℕ) :
    holds k id c' = holds k id c := by
  obtain ⟨hkey, hid, -⟩ := hm.guard
  have hlive : c.phase.live = true := by rw [hp]; rfl
  simp [holds, hm.live, hlive, hkey, hid]

theorem Exact.moved {w : World K T} (hw : Exact w) {i : ℕ} {c c' : Caller K T}
    {works : List (Work T)} (hc : w.callers[i]? = some c) (hp : c.phase = .awaiting)
    (hm : Moved w c works c') : Exact ⟨w.sf, works, w.callers.set i c'⟩ := by
  have hmem : c ∈ w.callers := List.mem_of_getElem? hc
  obtain ⟨hkey, hid, hfut⟩ := hm.guard
  have hback : ∀ n, Unsettled ⟨w.sf, works, w.callers.set i c'⟩ n → Unsettled w n := by
    intro n hn value hdone
    exact hn value (hm.done hdone)
  exact {
    same := by
      intro k f hf
      apply forall_mem_set (hw.same k f hf)
      rw [hm.holds_eq hp, hfut]
      exact hw.same k f hf c hmem
    count := by
      intro k f hf
      dsimp only
      rw [countP_set_same hc (hm.holds_eq hp k f.id)]
      exact hw.count k f hf
    kept := by
      apply forall_mem_set
      · intro x hx hlive hun
        exact hw.kept x hx hlive (hback _ hun)
      · intro _ hun
        rw [hkey, hfut]
        apply hw.kept c hmem
        · rw [hp]
          rfl
        · exact hback _ (hfut ▸ hun) }

theorem Exact.joined {w : World K T} (hw : Exact w) {key : K} {f : Flight}
    (hf : w.sf.calls key = some f) : Exact (w.arrive key) := by
  rw [arrive_join hf]
  exact {
    same := by
      intro k f' hf'
      obtain ⟨f₀, hf₀, hid, hfut⟩ := joined_calls hf hf'
      rw [hid, hfut]
      apply forall_mem_concat (hw.same k f₀ hf₀)
      intro hnew
      obtain rfl : key = k := (holds_iff.mp hnew).2.1
      obtain rfl : f = f₀ := Option.some.inj (hf.symm.trans hf₀)
      rfl
    count := by
      intro k f' hf'
      dsimp only at hf' ⊢
      rw [List.countP_append, List.countP_singleton]
      by_cases hk : k = key
      · subst hk
        obtain rfl : _ = f' := by simpa using hf'
        obtain ⟨hcount, -⟩ := hw.count k f hf
        simp [holds, Phase.live, hcount]
      · rw [Function.update_of_ne hk] at hf'
        rw [holds_of_key_ne (Ne.symm hk), if_neg Bool.false_ne_true, Nat.add_zero]
        exact hw.count k f' hf'
    kept := by
      have hentry : ∀ k g, w.sf.calls k = some g → ∃ g',
          Function.update w.sf.calls key (some { f with waiters := f.waiters + 1 }) k = some g' ∧
            g'.future = g.future := by
        intro k g hg
        by_cases hk : k = key
        · subst hk
          obtain rfl : f = g := Option.some.inj (hf.symm.trans hg)
          exact ⟨_, Function.update_self .., rfl⟩
        · exact ⟨g, by rwa [Function.update_of_ne hk], rfl⟩
      apply forall_mem_concat
      · intro x hx hlive hun
        obtain ⟨g, hg, hgx⟩ := hw.kept x hx hlive hun
        obtain ⟨g', hg', hsame⟩ := hentry _ g hg
        exact ⟨g', hg', hsame.trans hgx⟩
      · intro _ _
        exact hentry key f hf }

theorem Exact.registered {w : World K T} (hw : Exact w) (hb : Booked w) {key : K}
    (hnone : w.sf.calls key = none)
    (hfresh : ∀ c ∈ w.callers, holds key w.sf.nextId c = false) : Exact (w.arrive key) := by
  rw [arrive_register hnone]
  exact {
    same := by
      intro k f' hf'
      rcases registered_calls hf' with ⟨rfl, rfl⟩ | ⟨hk, hf⟩
      · apply forall_mem_concat
        · intro c hc hold
          rw [hfresh c hc] at hold
          exact absurd hold Bool.false_ne_true
        · exact fun _ => rfl
      · apply forall_mem_concat (hw.same k f' hf)
        intro hnew
        exact absurd (holds_iff.mp hnew).2.1.symm hk
    count := by
      intro k f' hf'
      dsimp only
      rw [List.countP_append, List.countP_singleton]
      rcases registered_calls hf' with ⟨rfl, rfl⟩ | ⟨hk, hf⟩
      · have hzero : w.callers.countP (holds k w.sf.nextId) = 0 := by
          rw [List.countP_eq_zero]
          intro c hc
          simp [hfresh c hc]
        simp [hzero, holds, Phase.live]
      · rw [holds_of_key_ne (Ne.symm hk), if_neg Bool.false_ne_true, Nat.add_zero]
        exact hw.count k f' hf
    kept := by
      apply forall_mem_concat
      · intro x hx hlive hun
        have hun' : Unsettled w x.future := by
          intro value hdone
          apply hun value
          rw [List.getElem?_append_left (hb.caller x hx).1]
          exact hdone
        obtain ⟨f, hf, hsame⟩ := hw.kept x hx hlive hun'
        have hne : x.guard.key ≠ key := by
          intro hk
          rw [hk, hnone] at hf
          exact absurd hf (by simp)
        exact ⟨f, (Function.update_of_ne hne ..).trans hf, hsame⟩
      · intro _ _
        exact ⟨_, Function.update_self .., rfl⟩ }

theorem Exact.drop_other {w : World K T} (hw : Exact w) {c : Caller K T} (hc : c ∈ w.callers)
    (hlive : c.phase.live = true) {k : K} {f : Flight} (hf : w.sf.calls k = some f)
    (hother : f.future ≠ c.future) : (c.guard.drop w.sf).calls k = some f := by
  by_cases hk : k = c.guard.key
  · subst hk
    have hid : f.id ≠ c.guard.id := by
      intro hid
      exact hother (hw.same _ f hf c hc (holds_iff.mpr ⟨hlive, rfl, hid.symm⟩)).symm
    rw [drop_calls_key, hf, Option.bind_some, leave_of_ne hid]
  · rw [drop_calls_of_ne hk, hf]

theorem Exact.left {w : World K T} (hw : Exact w) (hb : Booked w) {i : ℕ} {c : Caller K T}
    (hc : w.callers[i]? = some c) (hp : c.phase.leaving = true) :
    Exact ⟨c.guard.drop w.sf, w.works, w.callers.set i { c with phase := c.phase.after }⟩ := by
  have hmem : c ∈ w.callers := List.mem_of_getElem? hc
  have hlive : c.phase.live = true := Phase.live_of_leaving hp
  have hdead : ∀ k id, holds k id { c with phase := c.phase.after } = false :=
    fun k id => holds_of_dead (Phase.live_after hp)
  exact {
    same := by
      intro k f' hf'
      obtain ⟨f, hf, hid, hfut⟩ := drop_calls_some hf'
      rw [hid, hfut]
      apply forall_mem_set (hw.same k f hf)
      rw [hdead]
      exact fun h => absurd h Bool.false_ne_true
    count := by
      intro k f' hf'
      dsimp only at hf' ⊢
      obtain ⟨f, hf, -, -⟩ := drop_calls_some hf'
      obtain ⟨hcount, hpos⟩ := hw.count k f hf
      rcases drop_calls_cases hf hf' with ⟨rfl, hidc, hmore, rfl⟩ | ⟨hne, rfl⟩
      · have hown := holds_iff.mpr ⟨hlive, rfl, hidc.symm⟩
        have hless := countP_set_false hc hown (hdead c.guard.key f.id)
        dsimp only
        omega
      · have hoff : holds k f'.id c = false := by
          rw [← Bool.not_eq_true, holds_iff]
          exact fun h => hne h.2.1.symm h.2.2.symm
        rw [countP_set_same hc ((hdead k f'.id).trans hoff.symm)]
        exact ⟨hcount, hpos⟩
    kept := by
      intro x hx hxlive hun
      obtain ⟨j, hget⟩ := List.mem_iff_getElem?.mp hx
      rcases getElem?_set_cases hget with ⟨-, rfl⟩ | ⟨hji, hj⟩
      · rw [Phase.live_after hp] at hxlive
        exact absurd hxlive Bool.false_ne_true
      obtain ⟨f, hf, hsame⟩ := hw.kept x (List.mem_of_getElem? hj) hxlive hun
      by_cases hother : f.future = c.future
      · -- Another live guard of a flight that is not done: the flight stays.
        have hcx : c.future = x.future := hother.symm.trans hsame
        have hkey : c.guard.key = x.guard.key := hb.owner _ f hf c hmem hother.symm
        have hidc : c.guard.id = f.id := by
          rw [(hb.caller c hmem).2, (hb.entry _ f hf).2, hother]
        have hidx : x.guard.id = f.id := by
          rw [(hb.caller x (List.mem_of_getElem? hj)).2, (hb.entry _ f hf).2, hsame]
        have hfin : c.guard.finished = false := by
          rw [← Bool.not_eq_true, hb.finished c hmem]
          rintro ⟨value, hv⟩
          exact hun value (hcx ▸ hb.result c hmem value hv)
        have hmore : f.waiters - 1 ≠ 0 := by
          have hless := countP_set_false hc (holds_iff.mpr ⟨hlive, hkey, hidc⟩)
            (hdead x.guard.key f.id)
          have hpos : 0 < (w.callers.set i { c with phase := c.phase.after }).countP
              (holds x.guard.key f.id) :=
            countP_set_pos hji.symm hj (holds_iff.mpr ⟨hxlive, rfl, hidx⟩)
          have hcount := (hw.count _ f hf).1
          omega
        refine ⟨{ f with waiters := f.waiters - 1 }, ?_, hsame⟩
        dsimp only
        rw [← hkey, drop_calls_key, hkey, hf, Option.bind_some, leave_eq_some hidc.symm hfin hmore]
      · exact ⟨f, hw.drop_other hmem hlive hf hother, hsame⟩ }

theorem Exact.step {w w' : World K T} {e : Event K T} (hw : Exact w) (hb : Booked w)
    (hfresh : Fresh w e) (h : InFlight.step w e = some w') : Exact w' := by
  rcases step_cases h with ⟨key, rfl, rfl⟩ | rfl | ⟨i, c, works, c', hc, hp, hm, rfl⟩ |
    ⟨i, c, rfl, hc, hp, rfl⟩
  · cases hcalls : w.sf.calls key with
    | none => exact hw.registered hb hcalls (hfresh hcalls)
    | some f => exact hw.joined hcalls
  · exact hw
  · exact hw.moved hc hp hm
  · exact hw.left hb hc hp

end PaycloudHelper.InFlight
