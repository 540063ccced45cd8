import PaycloudHelper.Resilience.BreakerHistory

/-!
# Cancelled calls

A cancelled call reports nothing, but it asked first, and asking can take the probe
slot: callers then wait for a probe that is gone. Erasing the cancelled calls of a run
changes no other answer exactly when nobody was made to wait by such a probe.
-/

namespace PaycloudHelper.Breaker

open Transcripts Words

variable {cb : CircuitBreaker}

def cancelledCalls (es : List CallEvent) : List ℕ :=
  es.filterMap fun
    | .settle call .cancelled _ => some call
    | _ => none

def kept (gone : List ℕ) (e : CallEvent) : Bool := e.call ∉ gone

def CancellationsErasable (cb : CircuitBreaker) (es : List CallEvent) : Prop :=
  (transcript (callStep cb) Inner.new es).filter (fun p => kept (cancelledCalls es) p.1) =
      transcript (callStep cb) Inner.new (es.filter (kept (cancelledCalls es))) ∧
    (final (callStep cb) Inner.new es).consecutiveFailures =
      (final (callStep cb) Inner.new (es.filter (kept (cancelledCalls es)))).consecutiveFailures

/-- The call whose probe the breaker waits for: the last one admitted while it was not
closed, until a success, or a failure that leaves the count at the threshold. -/
def leaseStep (cb : CircuitBreaker) (g : Inner) (lease : Option ℕ) : CallEvent → Option ℕ
  | .ask call now started =>
    if g.state ≠ .closed ∧ (tryAcquire cb g now started).1 then some call else lease
  | .settle _ .ok _ => none
  | .settle _ .cancelled _ => lease
  | .settle _ .failed _ =>
    if cb.threshold ≤ wrap 32 (g.consecutiveFailures + 1) then none else lease

/-- No call outside `gone` asks while the breaker waits for a probe of one in `gone`. -/
def NobodyWaits (cb : CircuitBreaker) (gone : List ℕ) :
    Inner → Option ℕ → List CallEvent → Prop
  | _, _, [] => True
  | g, lease, e :: es =>
    (∀ call now started, e = .ask call now started → call ∉ gone → Waits cb g now →
      ∀ c ∈ lease, c ∉ gone) ∧
    NobodyWaits cb gone (callStep cb g e).2 (leaseStep cb g lease e) es

def failureCount (es : List CallEvent) : ℕ :=
  es.countP fun
    | .settle _ .failed _ => true
    | _ => false

/-! ## A call settles once -/

theorem WellFormed.not_settled {g : Inner} {c : Calls} {es : List CallEvent}
    (h : WellFormed cb g c es) {call : ℕ} (hstart : call ∈ c.started)
    (hflight : call ∉ c.inFlight) (o : Outcome) (t : ℕ) : .settle call o t ∉ es := by
  induction es generalizing g c with
  | nil => simp
  | cons e es ih =>
    cases e with
    | ask other now started =>
      obtain ⟨hnew, htail⟩ := h
      have hne : call ≠ other := fun he => hnew (he ▸ hstart)
      have hrest := ih htail (List.mem_cons_of_mem _ hstart) (by
        dsimp only
        split_ifs <;> simp [hne, hflight])
      simpa using hrest
    | settle other outcome now =>
      obtain ⟨hmem, htail⟩ := h
      have hne : call ≠ other := fun he => hflight (he ▸ hmem)
      have hrest := ih htail hstart (by simp [hflight])
      simpa [hne] using hrest

theorem WellFormed.settle_unique {g : Inner} {c : Calls} {es : List CallEvent}
    (h : WellFormed cb g c es) (hsub : c.inFlight ⊆ c.started) {call : ℕ} {o o' : Outcome}
    {t t' : ℕ} (hmem : .settle call o t ∈ es) (hmem' : .settle call o' t' ∈ es) : o = o' := by
  induction es generalizing g c with
  | nil => simp at hmem
  | cons e es ih =>
    cases e with
    | ask other now started =>
      obtain ⟨-, htail⟩ := h
      refine ih htail ?_ (by simpa using hmem) (by simpa using hmem')
      dsimp only
      split_ifs
      · exact List.cons_subset_cons other hsub
      · exact List.Subset.trans hsub (List.subset_cons_self other _)
    | settle other outcome now =>
      obtain ⟨hin, htail⟩ := h
      have hafter := fun o t => htail.not_settled (hsub hin) (by simp) o t
      rcases List.mem_cons.mp hmem with he | hold
      · rcases List.mem_cons.mp hmem' with he' | hold'
        · cases he; cases he'; rfl
        · cases he; exact absurd hold' (hafter o' t')
      · rcases List.mem_cons.mp hmem' with he' | hold'
        · cases he'; exact absurd hold (hafter o t)
        · exact ih htail (fun x hx => hsub (List.mem_filter.mp hx).1) hold hold'

def OnlyCancelled (gone : List ℕ) (es : List CallEvent) : Prop :=
  ∀ call o t, .settle call o t ∈ es → call ∈ gone → o = .cancelled

theorem CallRun.onlyCancelled {es : List CallEvent} (h : CallRun cb es) :
    OnlyCancelled (cancelledCalls es) es := by
  intro call o t hmem hgone
  obtain ⟨e, he, hcall⟩ := List.mem_filterMap.mp hgone
  have hsettle : ∃ t', e = .settle call .cancelled t' := by
    rcases e with _ | ⟨other, _ | _ | _, t'⟩ <;> simp_all
  obtain ⟨t', rfl⟩ := hsettle
  exact WellFormed.settle_unique h (by simp) hmem he

/-! ## The two runs side by side

`g` is the breaker of the full run and `d` that of the run without the erased calls. -/

structure InStep (g d : Inner) : Prop where
  state : g.state = d.state
  failures : g.consecutiveFailures = d.consecutiveFailures
  openedAt : g.state = .open → g.openedAt = d.openedAt
  probeStartedAt : g.state = .halfOpen → g.probeStartedAt = d.probeStartedAt

/-- The full run waits for something while the other one would admit from `now` on. -/
structure Ahead (cb : CircuitBreaker) (now : ℕ) (g d : Inner) : Prop where
  waiting : g.state ≠ .closed
  tripped : d.state ≠ .closed
  failures : g.consecutiveFailures = d.consecutiveFailures
  free : ∀ u, now ≤ u → ¬ Waits cb d u
  probing : d.state = .halfOpen → g.state = .halfOpen

theorem InStep.refl (g : Inner) : InStep g g := ⟨rfl, rfl, fun _ => rfl, fun _ => rfl⟩

theorem InStep.waits_iff {g d : Inner} (h : InStep g d) (now : ℕ) :
    Waits cb g now ↔ Waits cb d now := by
  cases hs : g.state with
  | closed => simp [Waits, hs, ← h.state]
  | «open» => simp [Waits, hs, ← h.state, ← h.openedAt hs]
  | halfOpen => simp [Waits, hs, ← h.state, ← h.probeStartedAt hs]

theorem Waits.anti {g : Inner} {now u : ℕ} (hle : now ≤ u) (h : Waits cb g u) :
    Waits cb g now := by
  rcases h with ⟨hs, t, ht, hlt⟩ | ⟨hs, t, ht, hlt⟩
  · exact Or.inl ⟨hs, t, ht, by omega⟩
  · exact Or.inr ⟨hs, t, ht, by omega⟩

theorem inStep_admitted {g d : Inner} (hg : g.state ≠ .closed) (hd : d.state ≠ .closed)
    (hf : g.consecutiveFailures = d.consecutiveFailures) (started : ℕ) :
    InStep (admitted g started) (admitted d started) where
  state := by rw [admitted_state hg, admitted_state hd]
  failures := by simpa using hf
  openedAt := by simp [admitted_state hg]
  probeStartedAt := by simp [admitted_probe hg, admitted_probe hd]

theorem InStep.admitted {g d : Inner} (h : InStep g d) (started : ℕ) :
    InStep (admitted g started) (admitted d started) := by
  by_cases hs : g.state = .closed
  · rwa [admitted_closed hs, admitted_closed (h.state ▸ hs)]
  · exact inStep_admitted hs (h.state ▸ hs) h.failures started

theorem InStep.tryAcquire {g d : Inner} (h : InStep g d) (cb : CircuitBreaker)
    (now started : ℕ) :
    (tryAcquire cb g now started).1 = (tryAcquire cb d now started).1 ∧
      InStep (tryAcquire cb g now started).2 (tryAcquire cb d now started).2 := by
  by_cases hw : Waits cb g now
  · rw [tryAcquire_of_waits hw, tryAcquire_of_waits ((h.waits_iff now).mp hw)]
    exact ⟨rfl, h⟩
  · rw [tryAcquire_of_not_waits hw, tryAcquire_of_not_waits (mt (h.waits_iff now).mpr hw)]
    exact ⟨rfl, h.admitted started⟩

theorem InStep.recordFailure {g d : Inner} (h : InStep g d) (now : ℕ) :
    InStep (recordFailure cb g now) (recordFailure cb d now) := by
  have hf := h.failures
  by_cases ht : g.state = .halfOpen ∨ cb.threshold ≤ wrap 32 (g.consecutiveFailures + 1)
  · rw [recordFailure_trips ht, recordFailure_trips (by rwa [← h.state, ← hf]), hf]
    exact .refl _
  · rw [recordFailure_counts ht, recordFailure_counts (by rwa [← h.state, ← hf])]
    push Not at ht
    exact ⟨h.state, by simp [hf], h.openedAt, fun hs => absurd hs ht.1⟩

theorem Ahead.mono {now u : ℕ} {g d : Inner} (h : Ahead cb now g d) (hle : now ≤ u) :
    Ahead cb u g d :=
  { h with free := fun v hv => h.free v (hle.trans hv) }

theorem InStep.ahead {now started : ℕ} {g d : Inner} (h : InStep g d)
    (hs : g.state ≠ .closed) (hw : ¬ Waits cb g now) :
    Ahead cb now (Breaker.admitted g started) d where
  waiting := by simp [admitted_state hs]
  tripped := h.state ▸ hs
  failures := by simpa using h.failures
  free := fun _ hle hwait => hw ((h.waits_iff now).mpr (hwait.anti hle))
  probing := fun _ => admitted_state hs started

theorem Ahead.stay {now u started : ℕ} {g d : Inner} (h : Ahead cb now g d) (hle : now ≤ u) :
    Ahead cb u (Breaker.admitted g started) d :=
  { h.mono hle with
    waiting := by simp [admitted_state h.waiting]
    failures := by simpa using h.failures
    probing := fun _ => admitted_state h.waiting started }

theorem Ahead.recordFailure {now t : ℕ} {g d : Inner} (h : Ahead cb now g d)
    (ht : cb.threshold ≤ wrap 32 (g.consecutiveFailures + 1)) :
    InStep (recordFailure cb g t) (recordFailure cb d t) := by
  rw [recordFailure_trips (Or.inr ht), recordFailure_trips (Or.inr (h.failures ▸ ht)), h.failures]
  exact .refl _

theorem Ahead.recordFailure_wrapped {now t : ℕ} {g d : Inner} (h : Ahead cb now g d)
    (hle : now ≤ t) (ht : ¬ cb.threshold ≤ wrap 32 (g.consecutiveFailures + 1)) :
    InStep (Breaker.recordFailure cb g t) (Breaker.recordFailure cb d t) ∨
      Ahead cb t (Breaker.recordFailure cb g t) (Breaker.recordFailure cb d t) := by
  have ht' : ¬ cb.threshold ≤ wrap 32 (d.consecutiveFailures + 1) := h.failures ▸ ht
  by_cases hd : d.state = .halfOpen
  · left
    rw [recordFailure_trips (Or.inl (h.probing hd)), recordFailure_trips (Or.inl hd), h.failures]
    exact .refl _
  · right
    rw [recordFailure_counts (g := d) (not_or.mpr ⟨hd, ht'⟩)]
    have hfree : ∀ u, t ≤ u → ¬ Waits cb
        { d with consecutiveFailures := wrap 32 (d.consecutiveFailures + 1) } u :=
      fun u hu => h.free u (hle.trans hu)
    refine ⟨?_, h.tripped, ?_, hfree, fun hs => absurd hs hd⟩
    · by_cases hg : g.state = .halfOpen
      · simp [recordFailure_trips (Or.inl hg)]
      · rw [recordFailure_counts (not_or.mpr ⟨hg, ht⟩)]
        exact h.waiting
    · rw [recordFailure_failures, h.failures]

/-- How the two runs lie when the full one waits for `lease`. With `exact`, a lease of an
erased call is there only while the full run is ahead. -/
def Beside (cb : CircuitBreaker) (gone : List ℕ) (exact : Prop) (lease : Option ℕ) (now : ℕ)
    (g d : Inner) : Prop :=
  (InStep g d ∧ (exact → ∀ c ∈ lease, c ∉ gone)) ∨ (Ahead cb now g d ∧ ∃ c ∈ lease, c ∈ gone)

variable {gone : List ℕ} {exact : Prop} {lease : Option ℕ} {now : ℕ} {g d : Inner}

theorem Beside.failures (h : Beside cb gone exact lease now g d) :
    g.consecutiveFailures = d.consecutiveFailures := by
  rcases h with ⟨h, -⟩ | ⟨h, -⟩
  · exact h.failures
  · exact h.failures

theorem Beside.erased {e : CallEvent} (h : Beside cb gone exact lease now g d)
    (hgone : e.call ∈ gone) (honly : OnlyCancelled gone [e]) (hle : ∀ a ∈ e.reads, now ≤ a) :
    ∃ u ∈ now :: e.reads,
      Beside cb gone exact (leaseStep cb g lease e) u (callStep cb g e).2 d := by
  cases e with
  | settle call outcome t =>
    obtain rfl : outcome = .cancelled := honly call outcome t (by simp) hgone
    exact ⟨now, List.mem_cons_self, h⟩
  | ask call u started =>
    refine ⟨u, by simp, ?_⟩
    have hu : now ≤ u := hle u (by simp)
    simp only [callStep, CallEvent.op, step_tryAcquire, leaseStep]
    by_cases hw : Waits cb g u
    · simp only [tryAcquire_of_waits hw, Bool.false_eq_true, and_false, if_false]
      rcases h with hin | ⟨ha, hl⟩
      · exact Or.inl hin
      · exact Or.inr ⟨ha.mono hu, hl⟩
    · simp only [tryAcquire_of_not_waits hw, and_true]
      by_cases hs : g.state = .closed
      · simp only [hs, ne_eq, not_true_eq_false, if_false, admitted_closed hs]
        rcases h with hin | ⟨ha, -⟩
        · exact Or.inl hin
        · exact absurd hs ha.waiting
      · simp only [ne_eq, hs, not_false_eq_true, if_true]
        right
        refine ⟨?_, call, rfl, hgone⟩
        rcases h with ⟨hin, -⟩ | ⟨ha, -⟩
        · exact hin.ahead hs hw
        · exact ha.stay hu

theorem Beside.kept {e : CallEvent} (h : Beside cb gone exact lease now g d)
    (hkept : e.call ∉ gone) (hle : ∀ a ∈ e.reads, now ≤ a)
    (hwait : ∀ call u started, e = .ask call u started → Waits cb g u → ∀ c ∈ lease, c ∉ gone)
    (hexact : exact → ∀ call t, e = .settle call .failed t → g.state ≠ .closed →
      cb.threshold ≤ wrap 32 (g.consecutiveFailures + 1)) :
    (callStep cb g e).1 = (callStep cb d e).1 ∧ ∃ u ∈ now :: e.reads,
      Beside cb gone exact (leaseStep cb g lease e) u (callStep cb g e).2 (callStep cb d e).2 := by
  cases e with
  | ask call u started =>
    have hu : now ≤ u := hle u (by simp)
    simp only [callStep, CallEvent.op, step_tryAcquire, leaseStep, Option.some.injEq]
    rcases h with ⟨hin, hl⟩ | ⟨ha, c, hc, hcg⟩
    · obtain ⟨hans, hnext⟩ := hin.tryAcquire cb u started
      refine ⟨hans, now, List.mem_cons_self, Or.inl ⟨hnext, fun hex => ?_⟩⟩
      split_ifs
      · simpa using hkept
      · exact hl hex
    · -- the full run does not wait, so both runs take the same probe
      have hw : ¬ Waits cb g u := fun hw => hwait call u started rfl hw c hc hcg
      rw [tryAcquire_of_not_waits hw, tryAcquire_of_not_waits (ha.free u hu)]
      refine ⟨rfl, now, List.mem_cons_self, Or.inl
        ⟨inStep_admitted ha.waiting ha.tripped ha.failures started, fun _ => ?_⟩⟩
      simpa [ha.waiting] using hkept
  | settle call outcome t =>
    refine ⟨by cases outcome <;> rfl, ?_⟩
    cases outcome with
    | ok => exact ⟨now, List.mem_cons_self, Or.inl ⟨.refl _, by simp [leaseStep]⟩⟩
    | cancelled => exact ⟨now, List.mem_cons_self, h⟩
    | failed =>
      have ht : now ≤ t := hle t (by simp)
      refine ⟨t, by simp, ?_⟩
      simp only [callStep, CallEvent.op, step_recordFailure, leaseStep]
      rcases h with ⟨hin, hl⟩ | ⟨ha, hl⟩
      · refine Or.inl ⟨hin.recordFailure t, fun hex => ?_⟩
        split_ifs
        · simp
        · exact hl hex
      · by_cases hthr : cb.threshold ≤ wrap 32 (g.consecutiveFailures + 1)
        · exact Or.inl ⟨ha.recordFailure hthr, by simp [hthr]⟩
        · rw [if_neg hthr]
          have hnot : ¬ exact := fun hex => hthr (hexact hex call t rfl ha.waiting)
          rcases ha.recordFailure_wrapped ht hthr with hin | ha'
          · exact Or.inl ⟨hin, fun hex => absurd hex hnot⟩
          · exact Or.inr ⟨ha', hl⟩

/-! ## The two runs -/

def From (now : ℕ) (es : List CallEvent) : Prop :=
  Ascending CallEvent.reads es ∧ ∀ e ∈ es, ∀ a ∈ e.reads, now ≤ a

theorem From.tail {e : CallEvent} {es : List CallEvent} (h : From now (e :: es)) {u : ℕ}
    (hu : u ∈ now :: e.reads) : From u es := by
  obtain ⟨-, hes, hlt⟩ := ascending_cons.mp h.1
  refine ⟨hes, fun e' he' a ha => ?_⟩
  rcases List.mem_cons.mp hu with rfl | hu
  · exact h.2 e' (List.mem_cons_of_mem _ he') a ha
  · exact hlt u hu e' he' a ha

theorem OnlyCancelled.of_mem {e : CallEvent} {es : List CallEvent} (h : OnlyCancelled gone es)
    (he : e ∈ es) : OnlyCancelled gone [e] := by
  intro call o t hmem hgone
  obtain rfl := List.mem_singleton.mp hmem
  exact h call o t he hgone

theorem OnlyCancelled.tail {e : CallEvent} {es : List CallEvent}
    (h : OnlyCancelled gone (e :: es)) : OnlyCancelled gone es :=
  fun call o t hmem => h call o t (List.mem_cons_of_mem _ hmem)

def Erasable (cb : CircuitBreaker) (gone : List ℕ) (es : List CallEvent) (g d : Inner) : Prop :=
  OnlyCancelled gone es ∧ ∃ lease now, From now es ∧ NobodyWaits cb gone g lease es ∧
    Beside cb gone False lease now g d

theorem Erasable.kept (e : CallEvent) (es : List CallEvent) (g d : Inner)
    (hk : kept gone e = true) (h : Erasable cb gone (e :: es) g d) :
    (callStep cb g e).1 = (callStep cb d e).1 ∧
      Erasable cb gone es (callStep cb g e).2 (callStep cb d e).2 := by
  obtain ⟨honly, lease, now, hfrom, ⟨hhead, htail⟩, h⟩ := h
  have hkept : e.call ∉ gone := by simpa [Breaker.kept] using hk
  have hwait : ∀ call u started, e = .ask call u started → Waits cb g u →
      ∀ c ∈ lease, c ∉ gone := by
    intro call u started he
    exact hhead call u started he (by simpa [he] using hkept)
  obtain ⟨hans, u, hu, hnext⟩ := h.kept hkept (hfrom.2 e List.mem_cons_self) hwait False.elim
  exact ⟨hans, honly.tail, _, u, hfrom.tail hu, htail, hnext⟩

theorem Erasable.erased (e : CallEvent) (es : List CallEvent) (g d : Inner)
    (hk : Breaker.kept gone e = false) (h : Erasable cb gone (e :: es) g d) :
    Erasable cb gone es (callStep cb g e).2 d := by
  obtain ⟨honly, lease, now, hfrom, ⟨-, htail⟩, h⟩ := h
  have hgone : e.call ∈ gone := by simpa [Breaker.kept] using hk
  obtain ⟨u, hu, hnext⟩ := h.erased hgone (honly.of_mem List.mem_cons_self)
    (hfrom.2 e List.mem_cons_self)
  exact ⟨honly.tail, _, u, hfrom.tail hu, htail, hnext⟩

theorem Erasable.transcript {es : List CallEvent} (h : Erasable cb gone es g d) :
    (transcript (callStep cb) g es).filter (fun p => Breaker.kept gone p.1) =
        transcript (callStep cb) d (es.filter (Breaker.kept gone)) ∧
      (final (callStep cb) g es).consecutiveFailures =
        (final (callStep cb) d (es.filter (Breaker.kept gone))).consecutiveFailures := by
  obtain ⟨htr, -, lease, now, -, -, hend⟩ :=
    transcript_erasure (R := Erasable cb gone) Erasable.kept Erasable.erased h
  exact ⟨htr, hend.failures⟩

theorem History.callStep {n : ℕ} (h : History cb n g) {e : CallEvent} {es : List CallEvent}
    (hn : n + failureCount (e :: es) < 2 ^ 32) :
    ∃ m, History cb m (callStep cb g e).2 ∧ m + failureCount es < 2 ^ 32 := by
  cases e with
  | ask call now started =>
    exact ⟨n, h.tryAcquire now started, by simpa [failureCount] using hn⟩
  | settle call outcome now =>
    cases outcome with
    | ok => exact ⟨0, .new, by simp only [failureCount, List.countP_cons] at hn ⊢; omega⟩
    | cancelled => exact ⟨n, h, by simpa [failureCount] using hn⟩
    | failed =>
      simp only [failureCount, List.countP_cons, if_true] at hn
      exact ⟨n + 1, h.recordFailure (by omega) now, by simp only [failureCount]; omega⟩

theorem nobodyWaits_of_transcript {n : ℕ} {es : List CallEvent} (honly : OnlyCancelled gone es)
    (hfrom : From now es) (hist : History cb n g) (hn : n + failureCount es < 2 ^ 32)
    (h : Beside cb gone True lease now g d)
    (htr : (transcript (callStep cb) g es).filter (fun p => kept gone p.1) =
      transcript (callStep cb) d (es.filter (kept gone))) :
    NobodyWaits cb gone g lease es := by
  induction es generalizing g d lease now n with
  | nil => trivial
  | cons e es ih =>
    obtain ⟨m, hist', hm⟩ := hist.callStep hn
    by_cases hgone : e.call ∈ gone
    · obtain ⟨u, hu, hnext⟩ := h.erased hgone (honly.of_mem List.mem_cons_self)
        (hfrom.2 e List.mem_cons_self)
      refine ⟨?_, ih honly.tail (hfrom.tail hu) hist' hm hnext (by simpa [kept, hgone] using htr)⟩
      rintro call t started rfl hcall
      exact absurd hgone hcall
    · have hhead : (callStep cb g e).1 = (callStep cb d e).1 ∧
          (transcript (callStep cb) (callStep cb g e).2 es).filter (fun p => kept gone p.1) =
            transcript (callStep cb) (callStep cb d e).2 (es.filter (kept gone)) := by
        simpa [kept, hgone] using htr
      have hwait : ∀ call u started, e = .ask call u started → Waits cb g u →
          ∀ c ∈ lease, c ∉ gone := by
        rintro call u started rfl hw c hc hcg
        rcases h with ⟨-, hl⟩ | ⟨ha, -⟩
        · exact hl trivial c hc hcg
        · have hu : now ≤ u := hfrom.2 _ List.mem_cons_self u
            (by simp)
          have hans := hhead.1
          simp [callStep, CallEvent.op, tryAcquire_of_waits hw,
            tryAcquire_of_not_waits (ha.free u hu)] at hans
      have hexact : True → ∀ call t, e = .settle call .failed t → g.state ≠ .closed →
          cb.threshold ≤ wrap 32 (g.consecutiveFailures + 1) := by
        rintro - call t rfl hs
        have hge := mt hist.closed_iff.mpr hs
        simp only [failureCount, List.countP_cons, if_true] at hn
        rw [hist.failures, wrap_of_lt (by omega)]
        omega
      obtain ⟨-, u, hu, hnext⟩ := h.kept hgone (hfrom.2 e List.mem_cons_self) hwait hexact
      exact ⟨fun call t started he _ => hwait call t started he,
        ih honly.tail (hfrom.tail hu) hist' hm hnext hhead.2⟩

/-- Erasing the cancelled calls of a run changes nothing when nobody is made to wait by
the probe of a cancelled call; and, short of 2^32 failures, only then. -/
theorem cancellations_erasable_iff (cb : CircuitBreaker) (es : List CallEvent)
    (hrun : CallRun cb es) (hclock : Ascending CallEvent.reads es) :
    (NobodyWaits cb (cancelledCalls es) Inner.new none es → CancellationsErasable cb es) ∧
      (failureCount es < 2 ^ 32 → CancellationsErasable cb es →
        NobodyWaits cb (cancelledCalls es) Inner.new none es) := by
  have hfrom : From 0 es := ⟨hclock, fun _ _ a _ => Nat.zero_le a⟩
  constructor
  · intro hwait
    exact Erasable.transcript
      ⟨hrun.onlyCancelled, none, 0, hfrom, hwait, Or.inl ⟨.refl _, False.elim⟩⟩
  · intro hn herase
    exact nobodyWaits_of_transcript hrun.onlyCancelled hfrom .new (by simpa using hn)
      (Or.inl ⟨.refl _, by simp⟩) herase.1

theorem cancellations_erasable_iff_closed :
    CancellationsErasable (.new 2 10) [.ask 1 0 0, .ask 2 1 1, .settle 1 .cancelled 2,
      .settle 2 .failed 3, .ask 3 4 4] := by
  refine (cancellations_erasable_iff (.new 2 10) _ (by decide) (by decide)).1 ?_
  simp [NobodyWaits, leaseStep, callStep, CallEvent.op, tryAcquire, Inner.new]

theorem cancelled_probe_blocks :
    CallRun (.new 1 10) [.ask 1 0 0, .settle 1 .failed 0, .ask 2 10 10,
        .settle 2 .cancelled 11, .ask 3 12 12] ∧
      Ascending CallEvent.reads [.ask 1 0 0, .settle 1 .failed 0, .ask 2 10 10,
        .settle 2 .cancelled 11, .ask 3 12 12] ∧
      ¬ CancellationsErasable (.new 1 10) [.ask 1 0 0, .settle 1 .failed 0, .ask 2 10 10,
        .settle 2 .cancelled 11, .ask 3 12 12] :=
  ⟨by decide, by decide, fun h => absurd h.1 (by decide)⟩

end PaycloudHelper.Breaker
