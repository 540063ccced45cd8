import PaycloudHelper.Library.Slots
import PaycloudHelper.Resilience.Singleflight

/-!
# What holds of every run of a singleflight group

`Booked` holds of every reachable world, however many flights there have been: ids
are numbers of futures up to wrapping, an entry and the callers of its flight agree on
the key, a result in hand is the output of the caller's own flight, and a flight that
has returned to somebody is in no entry.
-/

namespace PaycloudHelper.InFlight

open Runs Words Slots

variable {K T : Type*}

def Caller.settled (c : Caller K T) (value : T) : Prop :=
  c.phase = .finished value ∨ c.phase = .returned value

structure Booked (w : World K T) : Prop where
  nextId : w.sf.nextId = wrap 64 w.works.length
  caller : ∀ c ∈ w.callers, c.future < w.works.length ∧ c.guard.id = wrap 64 c.future
  entry : ∀ k f, w.sf.calls k = some f → f.future < w.works.length ∧ f.id = wrap 64 f.future
  distinct : ∀ k f k' f', w.sf.calls k = some f → w.sf.calls k' = some f' →
    f.future = f'.future → k = k'
  owner : ∀ k f, w.sf.calls k = some f → ∀ c ∈ w.callers, c.future = f.future → c.guard.key = k
  result : ∀ c ∈ w.callers, ∀ value, c.settled value → w.works[c.future]? = some (.done value)
  finished : ∀ c ∈ w.callers, c.guard.finished = true ↔ ∃ value, c.settled value
  gone : ∀ c ∈ w.callers, ∀ value, c.phase = .returned value →
    ∀ k f, w.sf.calls k = some f → f.future ≠ c.future

theorem Booked.new : Booked (World.new : World K T) where
  nextId := rfl
  caller := by simp [World.new]
  entry := by simp [World.new, Singleflight.new]
  distinct := by simp [World.new, Singleflight.new]
  owner := by simp [World.new]
  result := by simp [World.new]
  finished := by simp [World.new]
  gone := by simp [World.new]

theorem awaiting_not_settled {c : Caller K T} (h : c.phase = .awaiting) (value : T) :
    ¬ c.settled value := by
  simp [Caller.settled, h]

theorem Moved.settled_iff {w : World K T} {c c' : Caller K T} {works : List (Work T)}
    (h : Moved w c works c') (hfin : c.guard.finished = false) :
    c'.guard.finished = true ↔ ∃ value, c'.settled value := by
  cases h <;> simp [Caller.finish, Caller.settled, hfin]

theorem Booked.moved {w : World K T} (hw : Booked w) {i : ℕ} {c c' : Caller K T}
    {works : List (Work T)} (hc : w.callers[i]? = some c) (hp : c.phase = .awaiting)
    (hm : Moved w c works c') : Booked ⟨w.sf, works, w.callers.set i c'⟩ := by
  have hmem : c ∈ w.callers := List.mem_of_getElem? hc
  obtain ⟨hkey, hid, hfut⟩ := hm.guard
  have hfin : c.guard.finished = false := by
    rw [← Bool.not_eq_true, hw.finished c hmem]
    rintro ⟨value, hv⟩
    exact awaiting_not_settled hp value hv
  exact {
    nextId := by rw [hm.length, hw.nextId]
    caller := by
      rw [hm.length]
      apply forall_mem_set hw.caller
      rw [hfut, hid]
      exact hw.caller c hmem
    entry := by
      rw [hm.length]
      exact hw.entry
    distinct := hw.distinct
    owner := by
      intro k f hf
      apply forall_mem_set (hw.owner k f hf)
      rw [hfut, hkey]
      exact hw.owner k f hf c hmem
    result := by
      apply forall_mem_set
      · intro x hx value hv
        exact hm.done (hw.result x hx value hv)
      · intro value hv
        rw [hfut]
        apply hm.result_of_finished
        rcases hv with hv | hv
        · exact hv
        · cases hm <;> simp [Caller.finish] at hv
    finished := forall_mem_set hw.finished (hm.settled_iff hfin)
    gone := by
      apply forall_mem_set hw.gone
      intro value hv
      have hlive := hm.live
      rw [hv] at hlive
      exact absurd hlive (by simp [Phase.live]) }

variable [DecidableEq K]

theorem Booked.left {w : World K T} (hw : Booked w) {i : ℕ} {c : Caller K T}
    (hc : w.callers[i]? = some c) (hp : c.phase.leaving = true) :
    Booked ⟨c.guard.drop w.sf, w.works, w.callers.set i { c with phase := c.phase.after }⟩ := by
  have hmem : c ∈ w.callers := List.mem_of_getElem? hc
  have hsettled : ∀ value, Caller.settled { c with phase := c.phase.after } value ↔
      c.settled value := by
    intro value
    cases hphase : c.phase <;> simp_all [Caller.settled, Phase.after, Phase.leaving]
  exact {
    nextId := hw.nextId
    caller := forall_mem_set hw.caller (hw.caller c hmem)
    entry := by
      intro k f' hf'
      obtain ⟨f, hf, hid, hfut⟩ := drop_calls_some hf'
      rw [hid, hfut]
      exact hw.entry k f hf
    distinct := by
      intro k f' k' g' hf' hg' hsame
      obtain ⟨f, hf, -, hfut⟩ := drop_calls_some hf'
      obtain ⟨g, hg, -, hfut'⟩ := drop_calls_some hg'
      exact hw.distinct k f k' g hf hg (hfut ▸ hfut' ▸ hsame)
    owner := by
      intro k f' hf'
      obtain ⟨f, hf, -, hfut⟩ := drop_calls_some hf'
      rw [hfut]
      exact forall_mem_set (hw.owner k f hf) (hw.owner k f hf c hmem)
    result := by
      apply forall_mem_set hw.result
      intro value hv
      exact hw.result c hmem value ((hsettled value).mp hv)
    finished := by
      apply forall_mem_set hw.finished
      simp only [hsettled]
      exact hw.finished c hmem
    gone := by
      apply forall_mem_set
      · intro x hx value hv k f' hf'
        obtain ⟨f, hf, -, hfut⟩ := drop_calls_some hf'
        rw [hfut]
        exact hw.gone x hx value hv k f hf
      · intro value hv k f' hf' hown
        -- It finished the flight, so its guard removes whatever entry the flight has.
        have hfin : c.guard.finished = true :=
          (hw.finished c hmem).mpr ⟨value, (hsettled value).mp (Or.inr hv)⟩
        obtain ⟨f, hf, -, hfut⟩ := drop_calls_some hf'
        have hcf : c.future = f.future := hown.symm.trans hfut
        obtain rfl : c.guard.key = k := hw.owner k f hf c hmem hcf
        have hid : f.id = c.guard.id := by
          rw [(hw.entry _ f hf).2, (hw.caller c hmem).2, hcf]
        dsimp only at hf'
        rw [drop_calls_key, hf, Option.bind_some, leave_eq_none hid (Or.inl hfin)] at hf'
        exact absurd hf' (by simp) }

theorem joined_calls {sf : Singleflight K} {key k : K} {f f' : Flight} {n : ℕ}
    (hf : sf.calls key = some f)
    (hf' : Function.update sf.calls key (some { f with waiters := n }) k = some f') :
    ∃ f₀, sf.calls k = some f₀ ∧ f'.id = f₀.id ∧ f'.future = f₀.future := by
  by_cases hk : k = key
  · subst hk
    obtain rfl : _ = f' := by simpa using hf'
    exact ⟨f, hf, rfl, rfl⟩
  · rw [Function.update_of_ne hk] at hf'
    exact ⟨f', hf', rfl, rfl⟩

theorem Booked.joined {w : World K T} (hw : Booked w) {key : K} {f : Flight}
    (hf : w.sf.calls key = some f) : Booked (w.arrive key) := by
  rw [arrive_join hf]
  exact {
    nextId := hw.nextId
    caller := forall_mem_concat hw.caller (hw.entry key f hf)
    entry := by
      intro k f' hf'
      obtain ⟨f₀, hf₀, hid, hfut⟩ := joined_calls hf hf'
      rw [hid, hfut]
      exact hw.entry k f₀ hf₀
    distinct := by
      intro k f' k' g' hf' hg' hsame
      obtain ⟨f₀, hf₀, -, hfut⟩ := joined_calls hf hf'
      obtain ⟨g₀, hg₀, -, hfut'⟩ := joined_calls hf hg'
      exact hw.distinct k f₀ k' g₀ hf₀ hg₀ (hfut ▸ hfut' ▸ hsame)
    owner := by
      intro k f' hf'
      obtain ⟨f₀, hf₀, -, hfut⟩ := joined_calls hf hf'
      rw [hfut]
      exact forall_mem_concat (hw.owner k f₀ hf₀) (hw.distinct key f k f₀ hf hf₀)
    result := by
      apply forall_mem_concat hw.result
      intro value hv
      exact absurd hv (awaiting_not_settled rfl value)
    finished := by
      apply forall_mem_concat hw.finished
      simp [Caller.settled]
    gone := by
      apply forall_mem_concat
      · intro x hx value hv k f' hf'
        obtain ⟨f₀, hf₀, -, hfut⟩ := joined_calls hf hf'
        rw [hfut]
        exact hw.gone x hx value hv k f₀ hf₀
      · intro value hv
        exact absurd hv (by simp) }

theorem registered_calls {sf : Singleflight K} {key k : K} {f f' : Flight}
    (hf' : Function.update sf.calls key (some f) k = some f') :
    (k = key ∧ f' = f) ∨ (k ≠ key ∧ sf.calls k = some f') := by
  by_cases hk : k = key
  · subst hk
    obtain rfl : f = f' := by simpa using hf'
    exact Or.inl ⟨rfl, rfl⟩
  · rw [Function.update_of_ne hk] at hf'
    exact Or.inr ⟨hk, hf'⟩

theorem Booked.registered {w : World K T} (hw : Booked w) {key : K}
    (hnone : w.sf.calls key = none) : Booked (w.arrive key) := by
  rw [arrive_register hnone]
  have hlen : (w.works ++ [Work.running]).length = w.works.length + 1 := by simp
  exact {
    nextId := by
      rw [hlen, hw.nextId]
      exact wrap_succ 64 w.works.length
    caller := by
      rw [hlen]
      apply forall_mem_concat
      · intro c hc
        have h := hw.caller c hc
        exact ⟨by omega, h.2⟩
      · exact ⟨Nat.lt_succ_self _, hw.nextId⟩
    entry := by
      rw [hlen]
      intro k f' hf'
      rcases registered_calls hf' with ⟨-, rfl⟩ | ⟨-, hf⟩
      · exact ⟨Nat.lt_succ_self _, hw.nextId⟩
      · have h := hw.entry k f' hf
        exact ⟨by omega, h.2⟩
    distinct := by
      intro k f' k' g' hf' hg' hsame
      rcases registered_calls hf' with ⟨rfl, rfl⟩ | ⟨-, hf⟩ <;>
        rcases registered_calls hg' with ⟨rfl, rfl⟩ | ⟨-, hg⟩
      · rfl
      · have h := (hw.entry k' g' hg).1
        exact absurd hsame (by dsimp only; omega)
      · have h := (hw.entry k f' hf).1
        exact absurd hsame (by dsimp only; omega)
      · exact hw.distinct k f' k' g' hf hg hsame
    owner := by
      intro k f' hf'
      rcases registered_calls hf' with ⟨rfl, rfl⟩ | ⟨-, hf⟩
      · apply forall_mem_concat
        · intro c hc hsame
          have h := (hw.caller c hc).1
          exact absurd hsame (by dsimp only; omega)
        · exact fun _ => rfl
      · apply forall_mem_concat (hw.owner k f' hf)
        intro hsame
        have h := (hw.entry k f' hf).1
        exact absurd hsame (by dsimp only; omega)
    result := by
      apply forall_mem_concat
      · intro c hc value hv
        rw [List.getElem?_append_left (hw.caller c hc).1]
        exact hw.result c hc value hv
      · intro value hv
        exact absurd hv (awaiting_not_settled rfl value)
    finished := by
      apply forall_mem_concat hw.finished
      simp [Caller.settled]
    gone := by
      apply forall_mem_concat
      · intro x hx value hv k f' hf'
        rcases registered_calls hf' with ⟨-, rfl⟩ | ⟨-, hf⟩
        · exact (hw.caller x hx).1.ne'
        · exact hw.gone x hx value hv k f' hf
      · intro value hv
        exact absurd hv (by simp) }

theorem Booked.step {w w' : World K T} {e : Event K T} (hw : Booked w)
    (h : InFlight.step w e = some w') : Booked w' := by
  rcases step_cases h with ⟨key, rfl, rfl⟩ | rfl | ⟨i, c, works, c', hc, hp, hm, rfl⟩ |
    ⟨i, c, rfl, hc, hp, rfl⟩
  · cases hcalls : w.sf.calls key with
    | none => exact hw.registered hcalls
    | some f => exact hw.joined hcalls
  · exact hw
  · exact hw.moved hc hp hm
  · exact hw.left hc hp

end PaycloudHelper.InFlight
