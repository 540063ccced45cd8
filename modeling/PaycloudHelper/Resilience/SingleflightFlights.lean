import Mathlib
import PaycloudHelper.Resilience.SingleflightWaiters

/-!
# Results are shared in flight and never stored

The run theorems of the group: the waiter counts are exact and nothing leaks, a caller
gets the output of the flight it joined or registered on arrival, and a flight that has
returned to somebody takes no new callers. Only the first needs fresh ids, as does
that a key has one unfinished execution at a time; the last part shows what happens to
it when ids come round.
-/

namespace PaycloudHelper.InFlight

open Runs Words Slots

variable {K T : Type*} [DecidableEq K]

theorem booked_of_run {es : List (Event K T)} {w : World K T} (hrun : run step .new es = some w) :
    Booked w :=
  run_invariant (fun _ _ _ hw h => hw.step h) Booked.new hrun

theorem exact_of_run {es : List (Event K T)} {w : World K T} (hrun : run step .new es = some w)
    (hfresh : AllSteps step Fresh .new es) : Exact w := by
  have hstep : ∀ (w : World K T) e w', Booked w ∧ Exact w → Fresh w e → step w e = some w' →
      Booked w' ∧ Exact w' := by
    intro w e w' hw he h
    exact ⟨hw.1.step h, hw.2.step hw.1 he h⟩
  exact (run_invariant_of hstep ⟨Booked.new, Exact.new⟩ hfresh hrun).2

theorem works_le_of_step {w w' : World K T} {e : Event K T} (h : step w e = some w') :
    w.works.length ≤ w'.works.length := by
  rcases step_cases h with ⟨key, -, rfl⟩ | rfl | ⟨i, c, works, c', -, -, hm, rfl⟩ |
    ⟨i, c, -, -, -, rfl⟩
  · cases hcalls : w.sf.calls key with
    | none => simp [arrive_register hcalls]
    | some f => simp [arrive_join hcalls]
  · exact le_rfl
  · exact hm.length.ge
  · exact le_rfl

theorem works_le_of_run {w w' : World K T} {es : List (Event K T)} (h : run step w es = some w') :
    w.works.length ≤ w'.works.length :=
  run_rel (R := fun w w' : World K T => w.works.length ≤ w'.works.length) (fun _ => le_rfl)
    (fun _ _ _ => le_trans) (fun _ _ _ => works_le_of_step) h

theorem fresh_of_few {es : List (Event K T)} {w w' : World K T} (hw : Booked w)
    (hrun : run step w es = some w') (hfew : w'.works.length < 2 ^ 64) :
    AllSteps step Fresh w es := by
  induction es generalizing w with
  | nil => trivial
  | cons e es ih =>
    obtain ⟨v, hv, hrun⟩ := run_cons_iff.mp hrun
    have hle : v.works.length ≤ w'.works.length := works_le_of_run hrun
    constructor
    · cases e with
      | arrive key =>
        intro hnone c hc
        -- The ids in use are the futures themselves, and the next one is new.
        have hlen : v.works.length = w.works.length + 1 := by
          rw [← Option.some.inj hv, arrive_register hnone]
          simp
        have hcaller := hw.caller c hc
        have hid : c.guard.id ≠ w.sf.nextId := by
          rw [hcaller.2, hw.nextId, wrap_of_lt (by omega), wrap_of_lt (by omega)]
          exact hcaller.1.ne
        simp [holds, hid]
      | _ => trivial
    · intro u hu
      obtain rfl := Option.some.inj (hv.symm.trans hu)
      exact ih (hw.step hv) hrun

theorem waiters_exact {es : List (Event K T)} {w : World K T}
    (hrun : run step .new es = some w) (hfew : w.works.length < 2 ^ 64) :
    (∀ k f, w.sf.calls k = some f → f.waiters = w.callers.countP (holds k f.id) ∧ 1 ≤ f.waiters) ∧
      (∀ c ∈ w.callers, c.phase.live = true → ∀ f, w.sf.calls c.guard.key = some f →
        f.id = c.guard.id → f.future = c.future ∧ f.waiters - 1 + 1 = f.waiters) ∧
      (∀ c ∈ w.callers, c.phase.live = true → ∀ k f, w.sf.calls k = some f →
        f.future ≠ c.future → (c.guard.drop w.sf).calls k = some f) ∧
      ((∀ c ∈ w.callers, c.phase.live = false) → ∀ k, w.sf.calls k = none) := by
  have hw : Exact w := exact_of_run hrun (fresh_of_few Booked.new hrun hfew)
  refine ⟨hw.count, ?_, ?_, ?_⟩
  · intro c hc hlive f hf hid
    constructor
    · exact (hw.same _ f hf c hc (holds_iff.mpr ⟨hlive, rfl, hid.symm⟩)).symm
    · exact Nat.sub_add_cancel (hw.count _ f hf).2
  · intro c hc hlive k f hf hother
    exact hw.drop_other hc hlive hf hother
  · intro hdead k
    cases hcalls : w.sf.calls k with
    | none => rfl
    | some f =>
      obtain ⟨hcount, hpos⟩ := hw.count k f hcalls
      rw [hcount, Nat.one_le_iff_ne_zero, ← Nat.pos_iff_ne_zero, List.countP_pos_iff] at hpos
      obtain ⟨c, hc, hold⟩ := hpos
      rw [holds_of_dead (hdead c hc)] at hold
      exact absurd hold Bool.false_ne_true

def handedOver : List (Event Bool ℕ) :=
  [.arrive true, .arrive true, .cancel 0, .leave 0, .complete 1 7]

theorem waiters_exact_handedOver :
    ∃ w : World Bool ℕ, run step .new handedOver = some w ∧ w.works.length < 2 ^ 64 ∧
      ∀ k f, w.sf.calls k = some f →
        f.waiters = w.callers.countP (holds k f.id) ∧ 1 ≤ f.waiters := by
  have hrun : run step .new handedOver = some _ := rfl
  exact ⟨_, hrun, by decide, (waiters_exact hrun (by decide)).1⟩

/-! ## What a caller gets -/

def World.joins (w : World K T) (key : K) : ℕ := (w.sf.enter key w.works.length).2.2

theorem future_of_step {w w' : World K T} {e : Event K T} (h : step w e = some w') {i : ℕ}
    {c : Caller K T} (hc : w.callers[i]? = some c) :
    ∃ c', w'.callers[i]? = some c' ∧ c'.future = c.future := by
  have hset : ∀ j c₀ c₁, w.callers[j]? = some c₀ → Caller.future c₁ = Caller.future c₀ →
      ∃ c', (w.callers.set j c₁)[i]? = some c' ∧ c'.future = c.future := by
    intro j c₀ c₁ hj hfut
    by_cases hji : j = i
    · subst hji
      obtain rfl : c = c₀ := Option.some.inj (hc.symm.trans hj)
      have hlt : j < w.callers.length := (List.getElem?_eq_some_iff.mp hc).1
      exact ⟨c₁, List.getElem?_set_self hlt, hfut⟩
    · exact ⟨c, by rwa [List.getElem?_set_ne hji], rfl⟩
  rcases step_cases h with ⟨key, -, rfl⟩ | rfl | ⟨j, c₀, works, c₁, hj, -, hm, rfl⟩ |
    ⟨j, c₀, -, hj, -, rfl⟩
  · have hlt : i < w.callers.length := (List.getElem?_eq_some_iff.mp hc).1
    exact ⟨c, by simpa only [World.arrive, List.getElem?_append_left hlt] using hc, rfl⟩
  · exact ⟨c, hc, rfl⟩
  · exact hset j c₀ c₁ hj hm.guard.2.2
  · exact hset j c₀ _ hj rfl

theorem future_of_run {w w' : World K T} {es : List (Event K T)} (h : run step w es = some w')
    {i : ℕ} {c : Caller K T} (hc : w.callers[i]? = some c) :
    ∃ c', w'.callers[i]? = some c' ∧ c'.future = c.future := by
  have hrel := run_rel (R := fun w w' : World K T => ∀ i c, w.callers[i]? = some c →
      ∃ c', w'.callers[i]? = some c' ∧ c'.future = c.future)
    (fun _ _ c hc => ⟨c, hc, rfl⟩)
    (fun _ _ _ h₁ h₂ i c hc => by
      obtain ⟨c₁, hc₁, hfut₁⟩ := h₁ i c hc
      obtain ⟨c₂, hc₂, hfut₂⟩ := h₂ i c₁ hc₁
      exact ⟨c₂, hc₂, hfut₂.trans hfut₁⟩)
    (fun _ _ _ hstep _ _ hc => future_of_step hstep hc) h
  exact hrel i c hc

theorem returns_own_flight {w w' : World K T} {key : K} {es : List (Event K T)} (hw : Booked w)
    (hrun : run step (w.arrive key) es = some w') {c : Caller K T} {value : T}
    (hc : w'.callers[w.callers.length]? = some c) (hp : c.phase = .returned value) :
    w'.works[w.joins key]? = some (.done value) := by
  have hstep : step w (.arrive key) = some (w.arrive key) := rfl
  have hw' : Booked w' := run_invariant (fun _ _ _ hv h => hv.step h) (hw.step hstep) hrun
  obtain ⟨c', hc', hfut⟩ := future_of_run hrun (List.getElem?_concat_length ..)
  obtain rfl : c = c' := Option.some.inj (hc.symm.trans hc')
  have hdone := hw'.result c (List.mem_of_getElem? hc) value (Or.inr hp)
  rwa [hfut] at hdone

/-- The flight `n` takes no callers from the `m`-th on. -/
structure Left (n m : ℕ) (w : World K T) : Prop where
  flight : n < w.works.length
  entry : ∀ k f, w.sf.calls k = some f → f.future ≠ n
  late : ∀ j c, m ≤ j → w.callers[j]? = some c → c.future ≠ n

theorem Left.step {n m : ℕ} {w w' : World K T} {e : Event K T} (hw : Left n m w)
    (h : InFlight.step w e = some w') : Left n m w' := by
  have hset : ∀ i c₀ c₁, w.callers[i]? = some c₀ → Caller.future c₁ = Caller.future c₀ →
      ∀ j c, m ≤ j → (w.callers.set i c₁)[j]? = some c → c.future ≠ n := by
    intro i c₀ c₁ hi hfut j c hj hc
    rcases getElem?_set_cases hc with ⟨rfl, rfl⟩ | ⟨-, hc⟩
    · rw [hfut]
      exact hw.late j c₀ hj hi
    · exact hw.late j c hj hc
  have hlen : n < w'.works.length := hw.flight.trans_le (works_le_of_step h)
  rcases step_cases h with ⟨key, -, rfl⟩ | rfl | ⟨i, c, works, c', hc, -, hm, rfl⟩ |
    ⟨i, c, -, hc, -, rfl⟩
  · cases hcalls : w.sf.calls key with
    | some f =>
      rw [arrive_join hcalls] at hlen ⊢
      constructor
      · exact hlen
      · intro k f' hf'
        obtain ⟨f₀, hf₀, -, hfut⟩ := joined_calls hcalls hf'
        rw [hfut]
        exact hw.entry k f₀ hf₀
      · intro j c hj hc
        rcases getElem?_concat_cases hc with hc | ⟨-, rfl⟩
        · exact hw.late j c hj hc
        · exact hw.entry key f hcalls
    | none =>
      rw [arrive_register hcalls] at hlen ⊢
      constructor
      · exact hlen
      · intro k f' hf'
        rcases registered_calls hf' with ⟨-, rfl⟩ | ⟨-, hf⟩
        · exact hw.flight.ne'
        · exact hw.entry k f' hf
      · intro j c hj hc
        rcases getElem?_concat_cases hc with hc | ⟨-, rfl⟩
        · exact hw.late j c hj hc
        · exact hw.flight.ne'
  · exact hw
  · exact ⟨hlen, hw.entry, hset i c c' hc hm.guard.2.2⟩
  · refine ⟨hlen, ?_, hset i c _ hc rfl⟩
    intro k f' hf'
    obtain ⟨f, hf, -, hfut⟩ := drop_calls_some hf'
    rw [hfut]
    exact hw.entry k f hf

theorem later_arrivals_run_anew {w w' : World K T} {es : List (Event K T)} (hw : Booked w)
    {c : Caller K T} (hc : c ∈ w.callers) {value : T} (hp : c.phase = .returned value)
    (hrun : run step w es = some w') {j : ℕ} {c' : Caller K T} (hj : w.callers.length ≤ j)
    (hc' : w'.callers[j]? = some c') : c'.future ≠ c.future := by
  have hleft : Left c.future w.callers.length w := by
    constructor
    · exact (hw.caller c hc).1
    · exact hw.gone c hc value hp
    · intro i x hi hx
      rw [List.getElem?_eq_none hi] at hx
      exact absurd hx (by simp)
  exact (run_invariant (fun _ _ _ hv h => hv.step h) hleft hrun).late j c' hj hc'

theorem one_unsettled_flight {w : World K T} (hw : Exact w) {c c' : Caller K T}
    (hc : c ∈ w.callers) (hc' : c' ∈ w.callers) (hlive : c.phase.live = true)
    (hlive' : c'.phase.live = true) (hkey : c.guard.key = c'.guard.key)
    (hun : Unsettled w c.future) (hun' : Unsettled w c'.future) : c.future = c'.future := by
  obtain ⟨f, hf, hfut⟩ := hw.kept c hc hlive hun
  obtain ⟨f', hf', hfut'⟩ := hw.kept c' hc' hlive' hun'
  rw [hkey, hf'] at hf
  rw [← hfut, ← hfut', Option.some.inj hf]

/-- Not a result cache: a caller gets the output of the flight it joined or registered
on arrival; while no id is reused under a live guard, a key has one execution that is
not completed; and a flight that has returned to a caller takes no later arrivals. -/
theorem shared_in_flight_only {es : List (Event K T)} {w : World K T}
    (hrun : run step .new es = some w) :
    (∀ key es' w', run step (w.arrive key) es' = some w' → ∀ c value,
        w'.callers[w.callers.length]? = some c → c.phase = .returned value →
          w'.works[w.joins key]? = some (.done value)) ∧
      (AllSteps step Fresh .new es → ∀ c ∈ w.callers, ∀ c' ∈ w.callers,
        c.phase.live = true → c'.phase.live = true → c.guard.key = c'.guard.key →
          Unsettled w c.future → Unsettled w c'.future → c.future = c'.future) ∧
      (∀ c ∈ w.callers, ∀ value, c.phase = .returned value →
        ∀ es' w', run step w es' = some w' → ∀ j c', w.callers.length ≤ j →
          w'.callers[j]? = some c' → c'.future ≠ c.future) := by
  have hw : Booked w := booked_of_run hrun
  refine ⟨?_, ?_, ?_⟩
  · intro key es' w' hrun' c value hc hp
    exact returns_own_flight hw hrun' hc hp
  · intro hfresh c hc c' hc' hlive hlive' hkey hun hun'
    exact one_unsettled_flight (exact_of_run hrun hfresh) hc hc' hlive hlive' hkey hun hun'
  · intro c hc value hp es' w' hrun' j c' hj hc'
    exact later_arrivals_run_anew hw hc hp hrun' hj hc'

theorem shared_in_flight_only_handedOver :
    ∃ w : World Bool ℕ, run step .new handedOver = some w ∧
      ∀ key es' w', run step (w.arrive key) es' = some w' → ∀ c value,
        w'.callers[w.callers.length]? = some c → c.phase = .returned value →
          w'.works[w.joins key]? = some (.done value) := by
  have hrun : run step .new handedOver = some _ := rfl
  exact ⟨_, hrun, (shared_in_flight_only hrun).1⟩

/-! ## Ids come round

Caller 1 is slow to take the result of flight 0. Meanwhile another key has so many
flights that the next registration for the key of caller 1 gets the id 0 again; when
caller 1 leaves, it removes that flight, which still runs. -/

theorem solo_flight {w : World K T} {key : K} (hnone : w.sf.calls key = none) (value : T) :
    run step w [.arrive key, .complete w.callers.length value, .leave w.callers.length] =
      some ⟨⟨w.sf.calls, wrap 64 (w.sf.nextId + 1)⟩, w.works ++ [.done value],
        w.callers ++ [⟨⟨key, w.sf.nextId, true⟩, w.works.length, .returned value⟩]⟩ := by
  have hclear : Function.update w.sf.calls key none = w.sf.calls := by
    rw [← hnone, Function.update_eq_self]
  have harrive : step w (.arrive key) = some (w.arrive key) := rfl
  rw [run_cons_of_step harrive, arrive_register hnone]
  simp [run_cons, step, World.set, Caller.finish, Phase.leaving, Phase.after, FlightGuard.drop,
    FlightGuard.leave, hclear]

theorem late_leave {w : World K T} {i : ℕ} {c : Caller K T} {f : Flight} {value : T}
    (hc : w.callers[i]? = some c) (hp : c.phase = .awaiting)
    (hdone : w.works[c.future]? = some (.done value)) (hf : w.sf.calls c.guard.key = some f)
    (hid : f.id = c.guard.id) :
    run step w [.poll i, .leave i] =
      some ⟨⟨Function.update w.sf.calls c.guard.key none, w.sf.nextId⟩, w.works,
        w.callers.set i ⟨{ c.guard with finished := true }, c.future, .returned value⟩⟩ := by
  have hlt : i < w.callers.length := (List.getElem?_eq_some_iff.mp hc).1
  have hpoll : step w (.poll i) = some (w.set i (c.finish value)) := by
    simp [step, hc, hp, hdone]
  rw [run_cons_of_step hpoll]
  simp [run_cons, step, World.set, Caller.finish, hlt, Phase.leaving, Phase.after,
    FlightGuard.drop, FlightGuard.leave, hf, hid]

def lap (n : ℕ) : List (Event Bool Unit) := [.arrive false, .complete n (), .leave n]

def laps : ℕ → List (Event Bool Unit)
  | 0 => []
  | m + 1 => laps m ++ lap (m + 2)

def slowWaiter (m : ℕ) : List (Event Bool Unit) :=
  [.arrive true, .arrive true, .complete 0 (), .leave 0] ++ (laps m ++
    [.arrive true, .poll 1, .leave 1, .arrive true])

structure Lapped (m : ℕ) (w : World Bool Unit) : Prop where
  calls : ∀ k, w.sf.calls k = none
  nextId : w.sf.nextId = wrap 64 (m + 1)
  works : w.works.length = m + 1
  callers : w.callers.length = m + 2
  slow : w.callers[1]? = some ⟨⟨true, 0, false⟩, 0, .awaiting⟩
  done : w.works[0]? = some (.done ())

theorem Lapped.lap {m : ℕ} {w : World Bool Unit} (hw : Lapped m w) :
    ∃ w', run step w (lap (m + 2)) = some w' ∧ Lapped (m + 1) w' := by
  have hrun := solo_flight (hw.calls false) ()
  rw [hw.callers] at hrun
  refine ⟨_, hrun, ?_⟩
  exact {
    calls := hw.calls
    nextId := by rw [hw.nextId, wrap_succ]
    works := by simp [hw.works]
    callers := by simp [hw.callers]
    slow := by rw [List.getElem?_append_left (by simp [hw.callers]), hw.slow]
    done := by rw [List.getElem?_append_left (by simp [hw.works]), hw.done] }

theorem Lapped.laps {w : World Bool Unit} (hw : Lapped 0 w) (m : ℕ) :
    ∃ w', run step w (laps m) = some w' ∧ Lapped m w' := by
  induction m with
  | zero => exact ⟨w, rfl, hw⟩
  | succ m ih =>
    obtain ⟨v, hrun, hv⟩ := ih
    obtain ⟨w', hrun', hw'⟩ := hv.lap
    exact ⟨w', (run_append_of_run hrun _).trans hrun', hw'⟩

theorem lapped_start : ∃ w : World Bool Unit,
    run step .new [.arrive true, .arrive true, .complete 0 (), .leave 0] = some w ∧
      Lapped 0 w := by
  refine ⟨_, rfl, ?_⟩
  exact {
    calls := by decide
    nextId := rfl
    works := rfl
    callers := rfl
    slow := rfl
    done := rfl }

structure Reused (m : ℕ) (w : World Bool Unit) : Prop where
  entry : w.sf.calls true = some ⟨0, m + 1, 1⟩
  nextId : w.sf.nextId = 1
  works : w.works.length = m + 2
  callers : w.callers.length = m + 3
  slow : w.callers[1]? = some ⟨⟨true, 0, false⟩, 0, .awaiting⟩
  done : w.works[0]? = some (.done ())
  last : w.callers[m + 2]? = some ⟨⟨true, 0, false⟩, m + 1, .awaiting⟩
  running : w.works[m + 1]? = some .running

theorem Lapped.reused {m : ℕ} {w : World Bool Unit} (hw : Lapped m w)
    (hwrap : wrap 64 (m + 1) = 0) : Reused m (w.arrive true) := by
  rw [arrive_register (hw.calls true)]
  exact {
    entry := by simp [hw.nextId, hwrap, hw.works]
    nextId := by
      rw [hw.nextId, hwrap]
      rfl
    works := by simp [hw.works]
    callers := by simp [hw.callers]
    slow := by rw [List.getElem?_append_left (by simp [hw.callers]), hw.slow]
    done := by rw [List.getElem?_append_left (by simp [hw.works]), hw.done]
    last := by rw [← hw.callers, List.getElem?_concat_length, hw.nextId, hwrap, hw.works]
    running := by rw [← hw.works, List.getElem?_concat_length] }

theorem Reused.removed {m : ℕ} {w : World Bool Unit} (hw : Reused m w) :
    ∃ w', run step w [.poll 1, .leave 1, .arrive true] = some w' ∧
      w'.callers[m + 2]? = some ⟨⟨true, 0, false⟩, m + 1, .awaiting⟩ ∧
      w'.callers[m + 3]? = some ⟨⟨true, 1, false⟩, m + 2, .awaiting⟩ ∧
      w'.works[m + 1]? = some .running ∧ w'.works[m + 2]? = some .running := by
  have hlate := late_leave hw.slow rfl hw.done hw.entry rfl
  refine ⟨_, (run_append_of_run hlate [.arrive true]).trans (run_cons_of_step rfl []), ?_⟩
  rw [arrive_register (by simp)]
  refine ⟨?_, ?_, ?_, ?_⟩
  · rw [List.getElem?_append_left (by simp [hw.callers]), List.getElem?_set_ne (by omega), hw.last]
  · rw [List.getElem?_append_right (by simp [hw.callers])]
    simp [hw.callers, hw.works, hw.nextId]
  · rw [List.getElem?_append_left (by simp [hw.works]), hw.running]
  · rw [← hw.works, List.getElem?_concat_length]

theorem two_executions_at_once : ∃ w : World Bool Unit,
    run step .new (slowWaiter (2 ^ 64 - 1)) = some w ∧
      ∃ c ∈ w.callers, ∃ c' ∈ w.callers, c.phase = .awaiting ∧ c'.phase = .awaiting ∧
        c.guard.key = c'.guard.key ∧ w.works[c.future]? = some .running ∧
          w.works[c'.future]? = some .running ∧ c.future ≠ c'.future := by
  have hwrap : wrap 64 (2 ^ 64 - 1 + 1) = 0 := by decide
  generalize 2 ^ 64 - 1 = m at hwrap ⊢
  obtain ⟨w₀, hrun₀, hw₀⟩ := lapped_start
  obtain ⟨w₁, hrun₁, hw₁⟩ := hw₀.laps m
  obtain ⟨w, hrun, hc, hc', hwork, hwork'⟩ := (hw₁.reused hwrap).removed
  refine ⟨w, ?_, _, List.mem_of_getElem? hc, _, List.mem_of_getElem? hc', rfl, rfl, rfl, hwork,
    hwork', (Nat.lt_succ_self _).ne⟩
  rw [slowWaiter, run_append_of_run hrun₀, run_append_of_run hrun₁, run_cons_of_step rfl, hrun]

end PaycloudHelper.InFlight
