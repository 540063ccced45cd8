import Mathlib
import PaycloudHelper.Audit.Publisher

/-!
# Where every message goes

An accepted message is in the queue, in the hands of one worker, or has finished in one
of five ways, and the log of what happened to it says which. A stopped publisher has an
empty queue and idle hands, so every accepted message has finished.
-/

namespace PaycloudHelper.Audit

open Runs Slots

variable {P : Type} {cfg : AuditPublisherConfig P} {p p' : AuditPublisher P}

def AuditPublisher.accepted (p : AuditPublisher P) (n : ℕ) (payload : P) : Prop :=
  p.submits[n]? = some ⟨payload, .returned true⟩

def entriesOf (log : List Entry) (n : ℕ) : List Entry := log.filter fun e => e.number = n

def AuditPublisher.history (p : AuditPublisher P) (n : ℕ) : List Entry := entriesOf p.log n

def Placed (cfg : AuditPublisherConfig P) (p : AuditPublisher P) (n : ℕ) (payload : P) : Prop :=
  ⟨n, payload⟩ ∈ p.queue ∨
    (∃ (w : ℕ) (phase : Phase P) (hs : List Happening),
      p.workers[w]? = some phase ∧ phase.holds cfg = some (⟨n, payload⟩, hs)) ∨
    ∃ w hs, Finished cfg payload hs ∧ p.history n = hs.map (Entry.mk n w)

structure Tracked (cfg : AuditPublisherConfig P) (p : AuditPublisher P) : Prop where
  unknown : ∀ n, (∀ payload, ¬ p.accepted n payload) → p.history n = []
  queued : ∀ m ∈ p.queue, p.accepted m.number m.payload ∧ p.history m.number = []
  nodup : (p.queue.map Message.number).Nodup
  held : ∀ (w : ℕ) (phase : Phase P) m hs, p.workers[w]? = some phase →
    phase.holds cfg = some (m, hs) →
      p.accepted m.number m.payload ∧ p.history m.number = hs.map (Entry.mk m.number w)
  sound : ∀ phase ∈ p.workers, phase.Sound cfg
  placed : ∀ n payload, p.accepted n payload → Placed cfg p n payload

theorem AuditPublisher.accepted_unique {n : ℕ} {a b : P} (ha : p.accepted n a)
    (hb : p.accepted n b) : a = b := by
  have h := Option.some.inj (ha.symm.trans hb)
  exact (Submit.mk.inj h).1

theorem holds_ne_nil {phase : Phase P} {m : Message P} {hs : List Happening}
    (h : phase.holds cfg = some (m, hs)) : hs ≠ [] := by
  cases phase <;> simp [Phase.holds] at h <;> simp [← h.2]

theorem entriesOf_concat_self (log : List Entry) (e : Entry) :
    entriesOf (log ++ [e]) e.number = entriesOf log e.number ++ [e] := by
  simp [entriesOf, List.filter_append]

theorem entriesOf_concat_ne (log : List Entry) {e : Entry} {n : ℕ} (h : n ≠ e.number) :
    entriesOf (log ++ [e]) n = entriesOf log n := by
  simp [entriesOf, List.filter_append, h.symm]

theorem AuditPublisher.history_concat {n w : ℕ} {hs : List Happening}
    (h : p.history n = hs.map (Entry.mk n w)) (what : Happening) :
    entriesOf (p.log ++ [Entry.mk n w what]) n = (hs ++ [what]).map (Entry.mk n w) := by
  rw [List.map_append, ← h]
  exact entriesOf_concat_self p.log ⟨n, w, what⟩

theorem Tracked.queued_ne_held (hp : Tracked cfg p) {m m' : Message P} (hm : m ∈ p.queue) {w : ℕ}
    {phase : Phase P} {hs : List Happening} (hw : p.workers[w]? = some phase)
    (hphase : phase.holds cfg = some (m', hs)) : m.number ≠ m'.number := by
  intro h
  have hhist := (hp.held w phase m' hs hw hphase).2
  rw [← h, (hp.queued m hm).2] at hhist
  exact holds_ne_nil hphase (List.map_eq_nil_iff.mp hhist.symm)

/-! ## What an entry is due to -/

/-- The event, and what the worker saw of the breaker. -/
def Entry.CausedBy (entry : Entry) (p : AuditPublisher P) (e : Event P) : Prop :=
  match entry.what with
  | .taken => e = .recv entry.worker
  | .publishCalled .. | .ended .marshalFailed => e = .marshal entry.worker
  | .ended .breakerOpen =>
    ∃ now, e = .loadOpenUntil entry.worker now ∧ p.breaker.circuitOpen now = true
  | .ended .notReady => e = .ready entry.worker false
  | .ended .published => e = .publish entry.worker true
  | .ended .publishFailed => e = .publish entry.worker false

def Entry.WrittenAt (cfg : AuditPublisherConfig P) (p : AuditPublisher P) (e : Event P)
    (entry : Entry) : Prop :=
  entry.CausedBy p e ∧ ∃ p', step cfg p e = some p' ∧ p'.log = p.log ++ [entry]

theorem log_of_submitStep {e : Event P} (h : submitStep cfg p e = some p') : p'.log = p.log := by
  unfold submitStep at h
  split at h
  · split_ifs at h
    obtain rfl := Option.some.inj h
    rfl
  · split at h
    · obtain rfl := Option.some.inj h
      rfl
    · cases h
  · split at h
    · obtain rfl := Option.some.inj h
      rfl
    · cases h
  · split at h
    · split_ifs at h <;> obtain rfl := Option.some.inj h <;> rfl
    · cases h
  · cases h

theorem log_of_stopStep {e : Event P} (h : stopStep p e = some p') : p'.log = p.log := by
  unfold stopStep at h
  split at h
  · split_ifs at h
    obtain rfl := Option.some.inj h
    rfl
  · split_ifs at h
    obtain rfl := Option.some.inj h
    rfl
  · split at h
    · split at h
      · obtain rfl := Option.some.inj h
        rfl
      · cases h
    · cases h
    · cases h
  · cases h

theorem log_of_workerStep {e : Event P} (h : workerStep cfg p e = some p') :
    p'.log = p.log ∨ ∃ entry, p'.log = p.log ++ [entry] ∧ entry.CausedBy p e := by
  unfold workerStep at h
  split at h
  · split at h
    · obtain rfl := Option.some.inj h
      exact Or.inl rfl
    · cases h
  · split at h
    · obtain rfl := Option.some.inj h
      exact Or.inr ⟨_, rfl, rfl⟩
    · split_ifs at h
      obtain rfl := Option.some.inj h
      exact Or.inl rfl
    · cases h
  · split at h
    · split_ifs at h with hopen <;> obtain rfl := Option.some.inj h
      · exact Or.inr ⟨_, rfl, _, rfl, hopen⟩
      · exact Or.inl rfl
    · cases h
  · split at h
    · split_ifs at h with hanswer <;> obtain rfl := Option.some.inj h
      · exact Or.inl rfl
      · exact Or.inr ⟨_, rfl, by simp [Entry.CausedBy, hanswer]⟩
    · cases h
  · split at h
    · split at h <;> obtain rfl := Option.some.inj h
      · exact Or.inr ⟨_, rfl, rfl⟩
      · exact Or.inr ⟨_, rfl, rfl⟩
    · cases h
  · split at h
    · split_ifs at h with hok <;> obtain rfl := Option.some.inj h
      · exact Or.inr ⟨_, rfl, by simp [Entry.CausedBy, hok]⟩
      · exact Or.inr ⟨_, rfl, by simp [Entry.CausedBy, hok]⟩
    · cases h
  · split at h
    · obtain rfl := Option.some.inj h
      exact Or.inl rfl
    · cases h
  · split at h
    · obtain rfl := Option.some.inj h
      exact Or.inl rfl
    · cases h
  · split at h
    · obtain rfl := Option.some.inj h
      exact Or.inl rfl
    · cases h
  · cases h

theorem step_kinds {e : Event P} (h : step cfg p e = some p') :
    submitStep cfg p e = some p' ∨ stopStep p e = some p' ∨ workerStep cfg p e = some p' := by
  unfold step at h
  split at h
  · exact Or.inl h
  · exact Or.inl h
  · exact Or.inl h
  · exact Or.inl h
  · exact Or.inr (Or.inl h)
  · exact Or.inr (Or.inl h)
  · exact Or.inr (Or.inl h)
  · exact Or.inr (Or.inr h)

theorem log_of_step {e : Event P} (h : step cfg p e = some p') :
    p'.log = p.log ∨ ∃ entry, p'.log = p.log ++ [entry] ∧ entry.WrittenAt cfg p e := by
  rcases step_kinds h with hsubmit | hstop | hworker
  · exact Or.inl (log_of_submitStep hsubmit)
  · exact Or.inl (log_of_stopStep hstop)
  · rcases log_of_workerStep hworker with hsame | ⟨entry, hlog, hcause⟩
    · exact Or.inl hsame
    · exact Or.inr ⟨entry, hlog, hcause, p', h, hlog⟩

/-! ## The steps -/

theorem Tracked.of_accepted (hp : Tracked cfg p) (hacc : ∀ n payload, p'.accepted n payload ↔
    p.accepted n payload) (hqueue : p'.queue = p.queue) (hworkers : p'.workers = p.workers)
    (hlog : p'.log = p.log) : Tracked cfg p' := by
  have hhist : ∀ n, p'.history n = p.history n := by
    intro n
    rw [AuditPublisher.history, AuditPublisher.history, hlog]
  exact {
    unknown := by
      intro n hn
      rw [hhist]
      exact hp.unknown n fun payload h => hn payload ((hacc n payload).mpr h)
    queued := by
      rw [hqueue]
      intro m hm
      rw [hacc, hhist]
      exact hp.queued m hm
    nodup := by
      rw [hqueue]
      exact hp.nodup
    held := by
      rw [hworkers]
      intro w phase m hs hw hphase
      rw [hacc, hhist]
      exact hp.held w phase m hs hw hphase
    sound := by
      rw [hworkers]
      exact hp.sound
    placed := by
      intro n payload h
      rw [Placed, hqueue, hworkers, hhist]
      exact hp.placed n payload ((hacc n payload).mp h) }

theorem Tracked.entered (hp : Tracked cfg p) (payload : P) :
    Tracked cfg { p with submits := p.submits ++ [⟨payload, .entered⟩] } := by
  refine hp.of_accepted ?_ rfl rfl rfl
  intro n q
  constructor
  · intro h
    rcases getElem?_concat_cases h with h | ⟨-, h⟩
    · exact h
    · cases h
  · intro h
    have hlt : n < p.submits.length := (List.getElem?_eq_some_iff.mp h).1
    exact (List.getElem?_append_left hlt).trans h

theorem Tracked.checked (hp : Tracked cfg p) {i : ℕ} {payload : P} {old new : SubmitPhase}
    (hi : p.submits[i]? = some ⟨payload, old⟩) (hold : ∀ b, old ≠ .returned b)
    (hnew : new ≠ .returned true) : Tracked cfg (p.setSubmit i ⟨payload, new⟩) := by
  refine hp.of_accepted ?_ rfl rfl rfl
  intro n q
  constructor
  · intro h
    rcases getElem?_set_cases h with ⟨-, h⟩ | ⟨-, h⟩
    · exact absurd (Submit.mk.inj h).2.symm hnew
    · exact h
  · intro h
    have hne : i ≠ n := by
      rintro rfl
      exact hold true (Submit.mk.inj (Option.some.inj (hi.symm.trans h))).2
    exact (List.getElem?_set_ne hne).trans h

theorem Tracked.enqueued (hp : Tracked cfg p) {i : ℕ} {payload : P}
    (hi : p.submits[i]? = some ⟨payload, .admitted⟩) :
    Tracked cfg { p with
      queue := p.queue ++ [⟨i, payload⟩], submits := p.submits.set i ⟨payload, .returned true⟩ } := by
  have hlt : i < p.submits.length := (List.getElem?_eq_some_iff.mp hi).1
  have hfresh : ∀ q, ¬ p.accepted i q := by
    intro q h
    cases hi.symm.trans h
  have hne : ∀ {n q}, p.accepted n q → i ≠ n := by
    rintro n q h rfl
    exact hfresh q h
  have hkeep : ∀ n q, p.accepted n q →
      (p.submits.set i ⟨payload, .returned true⟩)[n]? = some ⟨q, .returned true⟩ :=
    fun n q h => (List.getElem?_set_ne (hne h)).trans h
  exact {
    unknown := by
      intro n hn
      exact hp.unknown n fun q h => hn q (hkeep n q h)
    queued := by
      apply forall_mem_concat
      · intro m hm
        exact ⟨hkeep _ _ (hp.queued m hm).1, (hp.queued m hm).2⟩
      · exact ⟨List.getElem?_set_self hlt, hp.unknown i hfresh⟩
    nodup := by
      dsimp only
      rw [List.map_append, List.map_singleton, List.nodup_append]
      refine ⟨hp.nodup, List.nodup_singleton i, ?_⟩
      intro n hn k hk
      obtain ⟨m, hm, rfl⟩ := List.mem_map.mp hn
      rw [List.mem_singleton.mp hk]
      exact (hne (hp.queued m hm).1).symm
    held := by
      intro w phase m hs hw hphase
      have hold := hp.held w phase m hs hw hphase
      exact ⟨hkeep _ _ hold.1, hold.2⟩
    sound := hp.sound
    placed := by
      intro n q h
      rcases getElem?_set_cases h with ⟨rfl, hq⟩ | ⟨-, h⟩
      · obtain ⟨rfl, -⟩ := Submit.mk.inj hq
        exact Or.inl (List.mem_append_right _ (List.mem_singleton_self _))
      · exact (hp.placed n q h).imp (List.mem_append_left _) id }

theorem Tracked.one_holder (hp : Tracked cfg p) {w w' : ℕ} {phase phase' : Phase P}
    {m m' : Message P} {hs hs' : List Happening} (hw : p.workers[w]? = some phase)
    (hphase : phase.holds cfg = some (m, hs)) (hw' : p.workers[w']? = some phase')
    (hphase' : phase'.holds cfg = some (m', hs')) (h : m.number = m'.number) : w = w' := by
  have hhist := (hp.held w phase m hs hw hphase).2
  have hhist' := (hp.held w' phase' m' hs' hw' hphase').2
  rw [h, hhist'] at hhist
  obtain ⟨x, xs, rfl⟩ := List.exists_cons_of_ne_nil (holds_ne_nil hphase)
  obtain ⟨y, ys, rfl⟩ := List.exists_cons_of_ne_nil (holds_ne_nil hphase')
  exact (Entry.mk.inj (List.cons.inj hhist).1).2.1.symm

theorem holds_set {w : ℕ} {old new : Phase P} (hw : p.workers[w]? = some old) {v : ℕ}
    {phase : Phase P} (hv : p.workers[v]? = some phase) :
    (v = w ∧ phase = old ∧ (p.workers.set w new)[v]? = some new) ∨
      (v ≠ w ∧ (p.workers.set w new)[v]? = some phase) := by
  by_cases h : w = v
  · subst h
    have hlt : w < p.workers.length := (List.getElem?_eq_some_iff.mp hw).1
    exact Or.inl ⟨rfl, Option.some.inj (hv.symm.trans hw), List.getElem?_set_self hlt⟩
  · exact Or.inr ⟨Ne.symm h, (List.getElem?_set_ne h).trans hv⟩

theorem Tracked.noted (hp : Tracked cfg p) {w : ℕ} {old new : Phase P} {m : Message P}
    {hs : List Happening} {what : Happening} (breaker : InlineBreaker) (lock : Option ℕ)
    (hw : p.workers[w]? = some old) (hold : old.holds cfg = some (m, hs))
    (hsound : new.Sound cfg)
    (hnew : new.holds cfg = some (m, hs ++ [what]) ∨
      new.holds cfg = none ∧ Finished cfg m.payload (hs ++ [what])) :
    Tracked cfg { p with
      breaker := breaker, lock := lock, workers := p.workers.set w new,
      log := p.log ++ [⟨m.number, w, what⟩] } := by
  obtain ⟨hacc, hhist⟩ := hp.held w old m hs hw hold
  have hwlt : w < p.workers.length := (List.getElem?_eq_some_iff.mp hw).1
  have hother : ∀ n, n ≠ m.number →
      entriesOf (p.log ++ [Entry.mk m.number w what]) n = p.history n :=
    fun n hn => entriesOf_concat_ne p.log hn
  have hself := AuditPublisher.history_concat hhist what
  exact {
    unknown := by
      intro n hn
      have hne : n ≠ m.number := by
        rintro rfl
        exact hn m.payload hacc
      exact (hother n hne).trans (hp.unknown n hn)
    queued := by
      intro m' hm'
      obtain ⟨hacc', hhist'⟩ := hp.queued m' hm'
      exact ⟨hacc', (hother _ (hp.queued_ne_held hm' hw hold)).trans hhist'⟩
    nodup := hp.nodup
    held := by
      intro v phase m' hs' hv hphase
      rcases getElem?_set_cases hv with ⟨rfl, rfl⟩ | ⟨hne, hv⟩
      · rcases hnew with hnew | ⟨hnew, -⟩
        · obtain ⟨rfl, rfl⟩ := Prod.mk.inj (Option.some.inj (hphase.symm.trans hnew))
          exact ⟨hacc, hself⟩
        · cases hphase.symm.trans hnew
      · obtain ⟨hacc', hhist'⟩ := hp.held v phase m' hs' hv hphase
        have hnum : m'.number ≠ m.number := fun h => hne (hp.one_holder hv hphase hw hold h)
        exact ⟨hacc', (hother _ hnum).trans hhist'⟩
    sound := forall_mem_set hp.sound hsound
    placed := by
      intro n payload h
      by_cases hn : n = m.number
      · subst hn
        obtain rfl := p.accepted_unique h hacc
        rcases hnew with hnew | ⟨-, hfin⟩
        · exact Or.inr (Or.inl ⟨w, new, _, List.getElem?_set_self hwlt, hnew⟩)
        · exact Or.inr (Or.inr ⟨w, _, hfin, hself⟩)
      · rcases hp.placed n payload h with hq | ⟨v, phase, hs', hv, hphase⟩ | ⟨v, hs', hfin, hdone⟩
        · exact Or.inl hq
        · rcases holds_set hw hv with ⟨rfl, rfl, -⟩ | ⟨-, hv'⟩
          · rw [hold] at hphase
            exact absurd (congrArg (fun x => x.1.number) (Option.some.inj hphase)).symm hn
          · exact Or.inr (Or.inl ⟨v, phase, hs', hv', hphase⟩)
        · exact Or.inr (Or.inr ⟨v, hs', hfin, (hother n hn).trans hdone⟩) }

theorem Tracked.quiet (hp : Tracked cfg p) {w : ℕ} {old new : Phase P} (breaker : InlineBreaker)
    (lock : Option ℕ) (hw : p.workers[w]? = some old) (hsound : new.Sound cfg)
    (hsame : new.holds cfg = old.holds cfg) :
    Tracked cfg { p with
      breaker := breaker, lock := lock, workers := p.workers.set w new } where
  unknown := hp.unknown
  queued := hp.queued
  nodup := hp.nodup
  held := by
    intro v phase m hs hv hphase
    rcases getElem?_set_cases hv with ⟨rfl, rfl⟩ | ⟨-, hv⟩
    · exact hp.held v old m hs hw (hsame ▸ hphase)
    · exact hp.held v phase m hs hv hphase
  sound := forall_mem_set hp.sound hsound
  placed := by
    intro n payload h
    rcases hp.placed n payload h with hq | ⟨v, phase, hs, hv, hphase⟩ | hdone
    · exact Or.inl hq
    · rcases @holds_set P p w old new hw v phase hv with ⟨rfl, rfl, hv'⟩ | ⟨-, hv'⟩
      · exact Or.inr (Or.inl ⟨v, new, hs, hv', hsame.trans hphase⟩)
      · exact Or.inr (Or.inl ⟨v, phase, hs, hv', hphase⟩)
    · exact Or.inr (Or.inr hdone)

theorem Tracked.taken (hp : Tracked cfg p) {w : ℕ} {m : Message P} {rest : List (Message P)}
    (hw : p.workers[w]? = some .receiving) (hqueue : p.queue = m :: rest) :
    Tracked cfg { p with
      queue := rest, lock := none, workers := p.workers.set w (.dequeued m),
      log := p.log ++ [⟨m.number, w, .taken⟩] } := by
  have hm : m ∈ p.queue := by simp [hqueue]
  obtain ⟨hacc, hhist⟩ := hp.queued m hm
  have hwlt : w < p.workers.length := (List.getElem?_eq_some_iff.mp hw).1
  have hnodup := hp.nodup
  rw [hqueue, List.map_cons, List.nodup_cons] at hnodup
  have hother : ∀ n, n ≠ m.number →
      entriesOf (p.log ++ [Entry.mk m.number w .taken]) n = p.history n :=
    fun n hn => entriesOf_concat_ne p.log hn
  have hself := @AuditPublisher.history_concat P p m.number w [] hhist .taken
  exact {
    unknown := by
      intro n hn
      have hne : n ≠ m.number := by
        rintro rfl
        exact hn m.payload hacc
      exact (hother n hne).trans (hp.unknown n hn)
    queued := by
      intro m' hm'
      obtain ⟨hacc', hhist'⟩ := hp.queued m' (by simp [hqueue, hm'])
      have hne : m'.number ≠ m.number := by
        intro h
        exact hnodup.1 (h ▸ List.mem_map_of_mem hm')
      exact ⟨hacc', (hother _ hne).trans hhist'⟩
    nodup := hnodup.2
    held := by
      intro v phase m' hs hv hphase
      rcases getElem?_set_cases hv with ⟨rfl, rfl⟩ | ⟨-, hv⟩
      · obtain ⟨rfl, rfl⟩ := Prod.mk.inj (Option.some.inj hphase)
        exact ⟨hacc, hself⟩
      · obtain ⟨hacc', hhist'⟩ := hp.held v phase m' hs hv hphase
        exact ⟨hacc', (hother _ (hp.queued_ne_held hm hv hphase).symm).trans hhist'⟩
    sound := forall_mem_set hp.sound trivial
    placed := by
      intro n payload h
      by_cases hn : n = m.number
      · subst hn
        obtain rfl := p.accepted_unique h hacc
        exact Or.inr (Or.inl ⟨w, .dequeued m, [.taken], List.getElem?_set_self hwlt, rfl⟩)
      · rcases hp.placed n payload h with hq | ⟨v, phase, hs, hv, hphase⟩ | ⟨v, hs, hfin, hdone⟩
        · rw [hqueue] at hq
          rcases List.mem_cons.mp hq with heq | hq
          · exact absurd (congrArg Message.number heq) hn
          · exact Or.inl hq
        · rcases @holds_set P p w .receiving (.dequeued m) hw v phase hv with ⟨-, rfl, -⟩ | ⟨-, hv'⟩
          · cases hphase
          · exact Or.inr (Or.inl ⟨v, phase, hs, hv', hphase⟩)
        · exact Or.inr (Or.inr ⟨v, hs, hfin, (hother n hn).trans hdone⟩) }

theorem Tracked.effect (hp : Tracked cfg p) (h : Effect cfg p p') : Tracked cfg p' := by
  cases h with
  | entered payload => exact hp.entered payload
  | checked hi hold hnew => exact hp.checked hi hold hnew
  | accepted hi => exact hp.enqueued hi
  | @worked w old new es breaker lock hw h hsound =>
    have hold : old.Sound cfg := hp.sound old (List.mem_of_getElem? hw)
    cases h with
    | same hsame => simpa using hp.quiet breaker lock hw (hsound hold) hsame
    | noted hm hnew => exact hp.noted breaker lock hw hm (hsound hold) (Or.inl hnew)
    | ended hm hnew hfin =>
      exact hp.noted breaker lock hw hm (hsound hold) (Or.inr ⟨hnew, hfin hold⟩)
  | taken hw hqueue => exact hp.taken hw hqueue
  | exited hw => exact hp.quiet p.breaker none hw trivial rfl
  | stopped | senderDropped | joined => exact hp.of_accepted (fun _ _ => Iff.rfl) rfl rfl rfl

/-! ## Stopping -/

structure Stopping (p : AuditPublisher P) : Prop where
  settled : p.stop ≠ .running → ∀ s ∈ p.submits, s.over = true
  exited : .exited ∈ p.workers → p.queue = [] ∧ p.closed = true
  joined : ∀ n, p.stop = .joining n → ∀ w < n, p.workers[w]? = some .exited
  workers : p.workers ≠ []

theorem Stopping.new (cfg : AuditPublisherConfig P) : Stopping (AuditPublisher.new cfg) where
  settled := by simp [AuditPublisher.new]
  exited := by simp [AuditPublisher.new, List.mem_replicate]
  joined := by simp [AuditPublisher.new]
  workers := by simp [AuditPublisher.new]

theorem not_closed_of_running (h : p.stop = .running) : p.closed = false := by
  simp [AuditPublisher.closed, h]

theorem not_closed_of_flagged (h : p.stop = .flagged) : p.closed = false := by
  simp [AuditPublisher.closed, h]

theorem Stopping.none_exited (hp : Stopping p) (h : p.closed = false) : .exited ∉ p.workers := by
  intro hexited
  rw [(hp.exited hexited).2] at h
  cases h

theorem Stopping.running (hp : Stopping p) {i : ℕ} {s : Submit P} (hi : p.submits[i]? = some s)
    (hs : s.over = false) : p.stop = .running := by
  by_contra hstop
  rw [hp.settled hstop s (List.mem_of_getElem? hi)] at hs
  cases hs

theorem Stopping.working (hp : Stopping p) {w : ℕ} {old new : Phase P}
    (hw : p.workers[w]? = some old) (hold : old ≠ .exited) (hnew : new ≠ .exited)
    (hqueue : .exited ∈ p.workers → p'.queue = []) (hworkers : p'.workers = p.workers.set w new)
    (hsubmits : p'.submits = p.submits) (hstop : p'.stop = p.stop) : Stopping p' where
  settled := by
    rw [hstop, hsubmits]
    exact hp.settled
  exited := by
    rw [hworkers]
    intro h
    rcases List.mem_or_eq_of_mem_set h with h | h
    · refine ⟨hqueue h, ?_⟩
      rw [AuditPublisher.closed, hstop]
      exact (hp.exited h).2
    · exact absurd h.symm hnew
  joined := by
    rw [hstop, hworkers]
    intro n hn v hv
    have hexited := hp.joined n hn v hv
    have hne : w ≠ v := by
      rintro rfl
      exact hold (Option.some.inj (hw.symm.trans hexited))
    rw [List.getElem?_set_ne hne, hexited]
  workers := by
    rw [hworkers]
    simpa using hp.workers

theorem Stopping.effect (hp : Stopping p) (h : Effect cfg p p') : Stopping p' := by
  cases h with
  | entered payload hstop =>
    exact {
      settled := fun h => absurd hstop h
      exited := hp.exited
      joined := hp.joined
      workers := hp.workers }
  | @checked i payload old new hi hold hnew =>
    have hunder : Submit.over (⟨payload, old⟩ : Submit P) = false := by
      cases old <;> simp_all [Submit.over]
    exact {
      settled := fun h => absurd (hp.running hi hunder) h
      exited := hp.exited
      joined := hp.joined
      workers := hp.workers }
  | accepted hi =>
    have hstop := hp.running hi rfl
    exact {
      settled := fun h => absurd hstop h
      exited := fun h => absurd h (hp.none_exited (not_closed_of_running hstop))
      joined := hp.joined
      workers := hp.workers }
  | worked breaker lock hw h hsound hold hnew =>
    exact hp.working hw hold hnew (fun h => (hp.exited h).1) rfl rfl rfl
  | taken hw hqueue =>
    refine hp.working hw (by simp) (by simp) (fun h => ?_) rfl rfl rfl
    have hempty := (hp.exited h).1
    rw [hqueue] at hempty
    cases hempty
  | @exited w hw hqueue hclosed =>
    have hwlt : w < p.workers.length := (List.getElem?_eq_some_iff.mp hw).1
    exact {
      settled := hp.settled
      exited := fun _ => ⟨hqueue, hclosed⟩
      joined := by
        intro n hn v hv
        by_cases h : w = v
        · subst h
          exact List.getElem?_set_self hwlt
        · exact (List.getElem?_set_ne h).trans (hp.joined n hn v hv)
      workers := by simpa using hp.workers }
  | stopped hstop hover =>
    exact {
      settled := fun _ => List.all_eq_true.mp hover
      exited := fun h => absurd h (hp.none_exited (not_closed_of_running hstop))
      joined := by simp
      workers := hp.workers }
  | senderDropped hstop =>
    exact {
      settled := fun _ => hp.settled (by simp [hstop])
      exited := fun h => absurd h (hp.none_exited (not_closed_of_flagged hstop))
      joined := by
        intro n hn w hw
        obtain rfl : 0 = n := StopPhase.joining.inj hn
        exact absurd hw (Nat.not_lt_zero w)
      workers := hp.workers }
  | @joined n hstop hn =>
    have hclosed : p.closed = true := by simp [AuditPublisher.closed, hstop]
    exact {
      settled := fun _ => hp.settled (by simp [hstop])
      exited := fun h => ⟨(hp.exited h).1, rfl⟩
      joined := by
        intro k hk w hw
        obtain rfl : n + 1 = k := StopPhase.joining.inj hk
        rcases Nat.lt_succ_iff_lt_or_eq.mp hw with hw | rfl
        · exact hp.joined n hstop w hw
        · exact hn
      workers := hp.workers }

/-! ## Runs -/

theorem Tracked.new (cfg : AuditPublisherConfig P) : Tracked cfg (AuditPublisher.new cfg) where
  unknown := fun _ _ => rfl
  queued := by simp [AuditPublisher.new]
  nodup := List.nodup_nil
  held := by
    intro w phase m hs hw hphase
    obtain rfl := List.eq_of_mem_replicate (List.mem_of_getElem? hw)
    cases hphase
  sound := by
    intro phase h
    obtain rfl := List.eq_of_mem_replicate h
    trivial
  placed := by
    intro n payload h
    simp [AuditPublisher.accepted, AuditPublisher.new] at h

def AuditPublisher.stopCompleted (p : AuditPublisher P) : Prop := p.stop = .joining p.workers.length

theorem Stopping.all_exited (hp : Stopping p) (h : p.stopCompleted) {w : ℕ} {phase : Phase P}
    (hw : p.workers[w]? = some phase) : phase = .exited := by
  have hwlt : w < p.workers.length := (List.getElem?_eq_some_iff.mp hw).1
  exact Option.some.inj (hw.symm.trans (hp.joined _ h w hwlt))

theorem Stopping.queue_empty (hp : Stopping p) (h : p.stopCompleted) : p.queue = [] := by
  obtain ⟨phase, rest, hworkers⟩ := List.exists_cons_of_ne_nil hp.workers
  have hfirst : p.workers[0]? = some phase := by simp [hworkers]
  obtain rfl := hp.all_exited h hfirst
  exact (hp.exited (List.mem_of_getElem? hfirst)).1

/-- When `stop` completes the queue is empty and the log of every accepted message is one
of the five ways to finish, by one worker; of a refused message there is none, ever. What
the log says is what happened when it was written. -/
theorem every_message_accounted {es : List (Event P)}
    (hrun : run (step cfg) (AuditPublisher.new cfg) es = some p) :
    (p.stopCompleted → p.queue = [] ∧ ∀ n payload, p.accepted n payload →
        ∃ w hs, Finished cfg payload hs ∧ p.history n = hs.map (Entry.mk n w)) ∧
      (∀ n payload, p.submits[n]? = some ⟨payload, .returned false⟩ → p.history n = []) ∧
      ∀ entry ∈ p.log, ∃ es₁ e es₂ q, es = es₁ ++ e :: es₂ ∧
        run (step cfg) (AuditPublisher.new cfg) es₁ = some q ∧ entry.WrittenAt cfg q e := by
  have hstep : ∀ p e (p' : AuditPublisher P), Tracked cfg p ∧ Stopping p →
      step cfg p e = some p' → Tracked cfg p' ∧ Stopping p' :=
    fun p e p' hp h => ⟨hp.1.effect (effect_of_step h), hp.2.effect (effect_of_step h)⟩
  obtain ⟨htracked, hstopping⟩ :=
    run_invariant hstep ⟨Tracked.new cfg, Stopping.new cfg⟩ hrun
  refine ⟨?_, ?_, fun entry hentry => ?_⟩
  · intro hstop
    have hqueue := hstopping.queue_empty hstop
    refine ⟨hqueue, fun n payload h => ?_⟩
    rcases htracked.placed n payload h with hq | ⟨w, phase, hs, hw, hphase⟩ | hdone
    · rw [hqueue] at hq
      cases hq
    · obtain rfl := hstopping.all_exited hstop hw
      cases hphase
    · exact hdone
  · intro n payload h
    apply htracked.unknown n
    intro q hq
    cases h.symm.trans hq
  · exact (run_logged (fun _ _ _ h => log_of_step h) hrun entry hentry).resolve_left nofun

def oneWorker : AuditPublisherConfig (List UInt8) where
  workerCount := 0
  bufferSize := 1
  messageTtl := "60000"
  circuitBreakerThreshold := 1
  circuitBreakerCooldown := 10 ^ 9
  marshalAudit bytes := .ok (bytes ++ [0x0A])

/-- The first message fails to be published, the second finds the queue full and the third
the breaker open, both when it is submitted and when it is taken. -/
def fullQueue : List (Event (List UInt8)) :=
  [.submit [1], .submit [2], .submit [3], .loadStopped 0, .circuitOpen 0 5, .trySend 0,
    .loadStopped 1, .circuitOpen 1 5, .trySend 1, .lock 0, .recv 0, .loadOpenUntil 0 6,
    .ready 0 true, .marshal 0, .loadStopped 2, .circuitOpen 2 6, .trySend 2, .publish 0 false,
    .fetchAdd 0, .storeUntil 0 7, .lock 0, .recv 0, .loadOpenUntil 0 8, .stop, .dropSender,
    .lock 0, .recv 0, .join]

theorem every_message_accounted_fullQueue :
    ∃ p, run (step oneWorker) (.new oneWorker) fullQueue = some p ∧ p.stopCompleted ∧
      p.queue = [] ∧ (∃ w hs, Finished oneWorker [3] hs ∧ p.history 2 = hs.map (Entry.mk 2 w)) ∧
      ∃ es₁ e es₂ q, fullQueue = es₁ ++ e :: es₂ ∧
        run (step oneWorker) (.new oneWorker) es₁ = some q ∧
          (Entry.mk 2 0 (.ended .breakerOpen)).WrittenAt oneWorker q e := by
  have hrun : run (step oneWorker) (.new oneWorker) fullQueue = some _ := rfl
  obtain ⟨hfinished, -, hwritten⟩ := every_message_accounted hrun
  obtain ⟨hqueue, hfinished⟩ := hfinished rfl
  exact ⟨_, hrun, rfl, hqueue, hfinished 2 [3] rfl, hwritten _ (by decide)⟩

end PaycloudHelper.Audit
