import Mathlib
import PaycloudHelper.Audit.InlineBreaker
import PaycloudHelper.Library.Runs
import PaycloudHelper.Library.Slots

/-!
# The audit publisher

The steps of any number of `submit` calls, of the workers behind the queue and of
`stop`. Submissions are numbered in the order in which they start. The client's answers
and the clock are part of the events. `stop` takes the publisher by value, so it starts
when no `submit` is under way and none starts after it. The log is for the statements.
-/

namespace PaycloudHelper.Audit

open Runs Words

variable {P : Type}

structure AuditPublisherConfig (P : Type) where
  workerCount : ℕ
  bufferSize : ℕ
  messageTtl : String
  circuitBreakerThreshold : ℕ
  circuitBreakerCooldown : ℕ
  marshalAudit : P → Except String (List UInt8)

structure Message (P : Type) where
  number : ℕ
  payload : P
deriving DecidableEq, Repr

inductive SubmitPhase
  | entered
  | running
  | admitted
  | returned (accepted : Bool)
deriving DecidableEq, Repr

structure Submit (P : Type) where
  payload : P
  phase : SubmitPhase
deriving DecidableEq, Repr

inductive Phase (P : Type)
  | idle
  | receiving
  | dequeued (m : Message P)
  | admitted (m : Message P)
  | ready (m : Message P)
  | publishing (m : Message P) (bytes : List UInt8)
  | acknowledged
  | failing
  | tripping
  | exited
deriving DecidableEq, Repr

inductive Ending
  | published
  | publishFailed
  | breakerOpen
  | notReady
  | marshalFailed
deriving DecidableEq, Repr

inductive Happening
  | taken
  | publishCalled (bytes : List UInt8) (ttl : String)
  | ended (ending : Ending)
deriving DecidableEq, Repr

structure Entry where
  number : ℕ
  worker : ℕ
  what : Happening
deriving DecidableEq, Repr

inductive StopPhase
  | running
  | flagged
  | joining (joined : ℕ)
deriving DecidableEq, Repr

structure AuditPublisher (P : Type) where
  breaker : InlineBreaker
  stopped : Bool
  queue : List (Message P)
  lock : Option ℕ
  workers : List (Phase P)
  submits : List (Submit P)
  stop : StopPhase
  log : List Entry

def AuditPublisher.new (cfg : AuditPublisherConfig P) : AuditPublisher P where
  breaker := .new
  stopped := false
  queue := []
  lock := none
  workers := List.replicate (max cfg.workerCount 1) .idle
  submits := []
  stop := .running
  log := []

inductive Event (P : Type)
  | submit (payload : P)
  | loadStopped (i : ℕ)
  | circuitOpen (i now : ℕ)
  | trySend (i : ℕ)
  | lock (w : ℕ)
  | recv (w : ℕ)
  | loadOpenUntil (w now : ℕ)
  | ready (w : ℕ) (answer : Bool)
  | marshal (w : ℕ)
  | publish (w : ℕ) (ok : Bool)
  | storeZero (w : ℕ)
  | fetchAdd (w : ℕ)
  | storeUntil (w now : ℕ)
  | stop
  | dropSender
  | join
deriving DecidableEq, Repr

def AuditPublisher.setSubmit (p : AuditPublisher P) (i : ℕ) (s : Submit P) : AuditPublisher P :=
  { p with submits := p.submits.set i s }

def AuditPublisher.setWorker (p : AuditPublisher P) (w : ℕ) (phase : Phase P) : AuditPublisher P :=
  { p with workers := p.workers.set w phase }

def AuditPublisher.note (p : AuditPublisher P) (w : ℕ) (m : Message P) (what : Happening) :
    AuditPublisher P :=
  { p with log := p.log ++ [⟨m.number, w, what⟩] }

def AuditPublisher.closed (p : AuditPublisher P) : Bool :=
  match p.stop with
  | .joining _ => true
  | .running | .flagged => false

def Submit.over (s : Submit P) : Bool :=
  match s.phase with
  | .returned _ => true
  | .entered | .running | .admitted => false

def submitStep (cfg : AuditPublisherConfig P) (p : AuditPublisher P) :
    Event P → Option (AuditPublisher P)
  | .submit payload =>
    if p.stop = .running then some { p with submits := p.submits ++ [⟨payload, .entered⟩] } else none
  | .loadStopped i =>
    match p.submits[i]? with
    | some ⟨payload, .entered⟩ =>
      some (p.setSubmit i ⟨payload, if p.stopped then .returned false else .running⟩)
    | _ => none
  | .circuitOpen i now =>
    match p.submits[i]? with
    | some ⟨payload, .running⟩ =>
      some (p.setSubmit i
        ⟨payload, if p.breaker.circuitOpen now then .returned false else .admitted⟩)
    | _ => none
  | .trySend i =>
    match p.submits[i]? with
    | some ⟨payload, .admitted⟩ =>
      if p.queue.length < max cfg.bufferSize 1 then
        some ({ p with queue := p.queue ++ [Message.mk i payload] }.setSubmit i ⟨payload, .returned true⟩)
      else some (p.setSubmit i ⟨payload, .returned false⟩)
    | _ => none
  | _ => none

/-- One worker, from its phase. It holds the receiver's lock while it waits for a message. -/
def workerStep (cfg : AuditPublisherConfig P) (p : AuditPublisher P) :
    Event P → Option (AuditPublisher P)
  | .lock w =>
    match p.workers[w]?, p.lock with
    | some .idle, none => some ({ p with lock := some w }.setWorker w .receiving)
    | _, _ => none
  | .recv w =>
    match p.workers[w]?, p.queue with
    | some .receiving, m :: rest =>
      some (({ p with queue := rest, lock := none }.setWorker w (.dequeued m)).note w m .taken)
    | some .receiving, [] =>
      if p.closed then some ({ p with lock := none }.setWorker w .exited) else none
    | _, _ => none
  | .loadOpenUntil w now =>
    match p.workers[w]? with
    | some (.dequeued m) =>
      if p.breaker.circuitOpen now then some ((p.setWorker w .idle).note w m (.ended .breakerOpen))
      else some (p.setWorker w (.admitted m))
    | _ => none
  | .ready w answer =>
    match p.workers[w]? with
    | some (.admitted m) =>
      if answer then some (p.setWorker w (.ready m))
      else some ((p.setWorker w .failing).note w m (.ended .notReady))
    | _ => none
  | .marshal w =>
    match p.workers[w]? with
    | some (.ready m) =>
      match cfg.marshalAudit m.payload with
      | .ok bytes =>
        some ((p.setWorker w (.publishing m bytes)).note w m (.publishCalled bytes cfg.messageTtl))
      | .error _ => some ((p.setWorker w .idle).note w m (.ended .marshalFailed))
    | _ => none
  | .publish w ok =>
    match p.workers[w]? with
    | some (.publishing m _) =>
      if ok then some ((p.setWorker w .acknowledged).note w m (.ended .published))
      else some ((p.setWorker w .failing).note w m (.ended .publishFailed))
    | _ => none
  | .storeZero w =>
    match p.workers[w]? with
    | some .acknowledged => some ({ p with breaker := p.breaker.publishOk }.setWorker w .idle)
    | _ => none
  | .fetchAdd w =>
    match p.workers[w]? with
    | some .failing =>
      let count := wrap 64 (p.breaker.failures + 1)
      some ({ p with breaker := { p.breaker with failures := count } }.setWorker w
        (if max cfg.circuitBreakerThreshold 1 ≤ count then .tripping else .idle))
    | _ => none
  | .storeUntil w now =>
    match p.workers[w]? with
    | some .tripping =>
      let untilMs := saturate 64 (now + cooldownMillis cfg.circuitBreakerCooldown)
      some ({ p with breaker := { p.breaker with openUntilMs := untilMs } }.setWorker w .idle)
    | _ => none
  | _ => none

def stopStep (p : AuditPublisher P) : Event P → Option (AuditPublisher P)
  | .stop =>
    if p.stop = .running ∧ p.submits.all Submit.over = true then
      some { p with stopped := true, stop := .flagged }
    else none
  | .dropSender => if p.stop = .flagged then some { p with stop := .joining 0 } else none
  | .join =>
    match p.stop with
    | .joining n =>
      match p.workers[n]? with
      | some .exited => some { p with stop := .joining (n + 1) }
      | _ => none
    | .running | .flagged => none
  | _ => none

def step (cfg : AuditPublisherConfig P) (p : AuditPublisher P) (e : Event P) :
    Option (AuditPublisher P) :=
  match e with
  | .submit _ | .loadStopped _ | .circuitOpen .. | .trySend _ => submitStep cfg p e
  | .stop | .dropSender | .join => stopStep p e
  | _ => workerStep cfg p e

/-! ## What each step does -/

def Phase.holds (cfg : AuditPublisherConfig P) : Phase P → Option (Message P × List Happening)
  | .dequeued m | .admitted m | .ready m => some (m, [.taken])
  | .publishing m bytes => some (m, [.taken, .publishCalled bytes cfg.messageTtl])
  | .idle | .receiving | .acknowledged | .failing | .tripping | .exited => none

/-- The five ways a message can go, once it has been taken. -/
inductive Finished (cfg : AuditPublisherConfig P) (payload : P) : List Happening → Prop
  | published {bytes : List UInt8} (h : cfg.marshalAudit payload = .ok bytes) :
      Finished cfg payload [.taken, .publishCalled bytes cfg.messageTtl, .ended .published]
  | publishFailed {bytes : List UInt8} (h : cfg.marshalAudit payload = .ok bytes) :
      Finished cfg payload [.taken, .publishCalled bytes cfg.messageTtl, .ended .publishFailed]
  | breakerOpen : Finished cfg payload [.taken, .ended .breakerOpen]
  | notReady : Finished cfg payload [.taken, .ended .notReady]
  | marshalFailed {err : String} (h : cfg.marshalAudit payload = .error err) :
      Finished cfg payload [.taken, .ended .marshalFailed]

def Phase.Sound (cfg : AuditPublisherConfig P) : Phase P → Prop
  | .publishing m bytes => cfg.marshalAudit m.payload = .ok bytes
  | _ => True

inductive Worked (cfg : AuditPublisherConfig P) (old new : Phase P) : List (ℕ × Happening) → Prop
  | same (h : new.holds cfg = old.holds cfg) : Worked cfg old new []
  | noted {m : Message P} {hs : List Happening} {what : Happening}
      (hold : old.holds cfg = some (m, hs)) (hnew : new.holds cfg = some (m, hs ++ [what])) :
      Worked cfg old new [(m.number, what)]
  | ended {m : Message P} {hs : List Happening} {what : Happening}
      (hold : old.holds cfg = some (m, hs)) (hnew : new.holds cfg = none)
      (hfin : old.Sound cfg → Finished cfg m.payload (hs ++ [what])) : Worked cfg old new [(m.number, what)]

inductive Effect (cfg : AuditPublisherConfig P) (p : AuditPublisher P) : AuditPublisher P → Prop
  | entered (payload : P) (hstop : p.stop = .running) :
      Effect cfg p { p with submits := p.submits ++ [⟨payload, .entered⟩] }
  | checked {i : ℕ} {payload : P} {old new : SubmitPhase}
      (hi : p.submits[i]? = some ⟨payload, old⟩) (hold : ∀ b, old ≠ .returned b)
      (hnew : new ≠ .returned true) : Effect cfg p (p.setSubmit i ⟨payload, new⟩)
  | accepted {i : ℕ} {payload : P} (hi : p.submits[i]? = some ⟨payload, .admitted⟩) :
      Effect cfg p { p with
        queue := p.queue ++ [⟨i, payload⟩], submits := p.submits.set i ⟨payload, .returned true⟩ }
  | worked {w : ℕ} {old new : Phase P} {es : List (ℕ × Happening)} (breaker : InlineBreaker)
      (lock : Option ℕ) (hw : p.workers[w]? = some old) (h : Worked cfg old new es)
      (hsound : old.Sound cfg → new.Sound cfg) (hold : old ≠ .exited) (hnew : new ≠ .exited) :
      Effect cfg p { p with
        breaker := breaker, lock := lock, workers := p.workers.set w new,
        log := p.log ++ es.map fun e => ⟨e.1, w, e.2⟩ }
  | taken {w : ℕ} {m : Message P} {rest : List (Message P)}
      (hw : p.workers[w]? = some .receiving) (hqueue : p.queue = m :: rest) :
      Effect cfg p { p with
        queue := rest, lock := none, workers := p.workers.set w (.dequeued m),
        log := p.log ++ [⟨m.number, w, .taken⟩] }
  | exited {w : ℕ} (hw : p.workers[w]? = some .receiving) (hqueue : p.queue = [])
      (hclosed : p.closed = true) :
      Effect cfg p { p with lock := none, workers := p.workers.set w .exited }
  | stopped (hstop : p.stop = .running) (hover : p.submits.all Submit.over = true) :
      Effect cfg p { p with stopped := true, stop := .flagged }
  | senderDropped (hstop : p.stop = .flagged) : Effect cfg p { p with stop := .joining 0 }
  | joined {n : ℕ} (hstop : p.stop = .joining n) (hn : p.workers[n]? = some .exited) :
      Effect cfg p { p with stop := .joining (n + 1) }

variable {cfg : AuditPublisherConfig P} {p p' : AuditPublisher P} {e : Event P}

theorem effect_of_submitStep (h : submitStep cfg p e = some p') : Effect cfg p p' := by
  unfold submitStep at h
  split at h
  · split_ifs at h with hstop
    obtain rfl := Option.some.inj h
    exact .entered _ hstop
  · split at h
    · rename_i payload hi
      obtain rfl := Option.some.inj h
      exact .checked hi nofun (by split_ifs <;> simp)
    · cases h
  · split at h
    · rename_i payload hi
      obtain rfl := Option.some.inj h
      exact .checked hi nofun (by split_ifs <;> simp)
    · cases h
  · split at h
    · rename_i payload hi
      split_ifs at h <;> obtain rfl := Option.some.inj h
      · exact .accepted hi
      · exact .checked hi nofun (by simp)
    · cases h
  · cases h

theorem effect_of_stopStep (h : stopStep p e = some p') : Effect cfg p p' := by
  unfold stopStep at h
  split at h
  · split_ifs at h with hstop
    obtain rfl := Option.some.inj h
    exact .stopped hstop.1 hstop.2
  · split_ifs at h with hstop
    obtain rfl := Option.some.inj h
    exact .senderDropped hstop
  · split at h
    · rename_i n hstop
      split at h
      · rename_i hn
        obtain rfl := Option.some.inj h
        exact .joined hstop hn
      · cases h
    · cases h
    · cases h
  · cases h

theorem Effect.quiet {w : ℕ} {old new : Phase P} (breaker : InlineBreaker) (lock : Option ℕ)
    (hw : p.workers[w]? = some old) (h : new.holds cfg = old.holds cfg)
    (hsound : old.Sound cfg → new.Sound cfg) (hold : old ≠ .exited) (hnew : new ≠ .exited) :
    Effect cfg p { p with breaker := breaker, lock := lock, workers := p.workers.set w new } := by
  simpa using Effect.worked breaker lock hw (.same h) hsound hold hnew

theorem effect_of_workerStep (h : workerStep cfg p e = some p') : Effect cfg p p' := by
  unfold workerStep at h
  split at h
  · split at h
    · rename_i hw hlock
      obtain rfl := Option.some.inj h
      exact .quiet p.breaker _ hw rfl id (by simp) (by simp)
    · cases h
  · split at h
    · rename_i m rest hw hqueue
      obtain rfl := Option.some.inj h
      exact .taken hw hqueue
    · rename_i hw hqueue
      split_ifs at h with hclosed
      obtain rfl := Option.some.inj h
      exact .exited hw hqueue hclosed
    · cases h
  · split at h
    · rename_i m hw
      split_ifs at h <;> obtain rfl := Option.some.inj h
      · exact .worked p.breaker p.lock hw (.ended rfl rfl fun _ => .breakerOpen) id (by simp) (by simp)
      · exact .quiet p.breaker p.lock hw rfl id (by simp) (by simp)
    · cases h
  · split at h
    · rename_i m hw
      split_ifs at h <;> obtain rfl := Option.some.inj h
      · exact .quiet p.breaker p.lock hw rfl id (by simp) (by simp)
      · exact .worked p.breaker p.lock hw (.ended rfl rfl fun _ => .notReady) id (by simp) (by simp)
    · cases h
  · split at h
    · rename_i m hw
      split at h <;> rename_i hmarshal <;> obtain rfl := Option.some.inj h
      · exact .worked p.breaker p.lock hw (.noted rfl rfl) (fun _ => hmarshal) (by simp) (by simp)
      · exact .worked p.breaker p.lock hw (.ended rfl rfl fun _ => .marshalFailed hmarshal) id
          (by simp) (by simp)
    · cases h
  · split at h
    · rename_i m bytes hw
      split_ifs at h <;> obtain rfl := Option.some.inj h
      · exact .worked p.breaker p.lock hw (.ended rfl rfl .published) (fun _ => trivial) (by simp)
          (by simp)
      · exact .worked p.breaker p.lock hw (.ended rfl rfl .publishFailed) (fun _ => trivial)
          (by simp) (by simp)
    · cases h
  · split at h
    · rename_i hw
      obtain rfl := Option.some.inj h
      exact .quiet p.breaker.publishOk p.lock hw rfl id (by simp) (by simp)
    · cases h
  · split at h
    · rename_i hw
      obtain rfl := Option.some.inj h
      dsimp only
      split_ifs
      · exact .quiet _ p.lock hw rfl id (by simp) (by simp)
      · exact .quiet _ p.lock hw rfl id (by simp) (by simp)
    · cases h
  · split at h
    · rename_i hw
      obtain rfl := Option.some.inj h
      exact .quiet _ p.lock hw rfl id (by simp) (by simp)
    · cases h
  · cases h

theorem effect_of_step (h : step cfg p e = some p') : Effect cfg p p' := by
  unfold step at h
  split at h
  · exact effect_of_submitStep h
  · exact effect_of_submitStep h
  · exact effect_of_submitStep h
  · exact effect_of_submitStep h
  · exact effect_of_stopStep h
  · exact effect_of_stopStep h
  · exact effect_of_stopStep h
  · exact effect_of_workerStep h

end PaycloudHelper.Audit
