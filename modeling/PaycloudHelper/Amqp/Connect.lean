import Mathlib
import PaycloudHelper.Library.Programs
import PaycloudHelper.Library.Runs
import PaycloudHelper.Library.Slots
import PaycloudHelper.Library.Whitespace
import PaycloudHelper.Amqp.Addresses

/-!
# Attaching to a queue

Any number of clients connect to one broker, whose other users declare and delete queues
as they please. Requests fail in transit, done or not, and connections are lost. A channel
is named by its position among those of its connection.
-/

namespace PaycloudHelper.AmqpConnect

open Programs Runs
open AmqpAddress (Addr withHeartbeat redactAmqpUri)
open Slots (getElem?_set_cases getElem?_concat_cases)

/-! ## What the client asks for -/

inductive Refusal
  | notFound
  | preconditionFailed
  | resourceLocked
  | channelClosed
  | transport (text : String)
deriving DecidableEq, Repr

structure QueueDeclareOptions where
  passive : Bool := false
  durable : Bool := false
  exclusive : Bool := false
  autoDelete : Bool := false
  nowait : Bool := false
deriving DecidableEq, Repr

abbrev FieldTable := List (String × String)

inductive Query
  | connect (addr : Addr) (connectionName : String)
  | createChannel
  | confirmSelect (channel : ℕ)
  | queueDeclare (channel : ℕ) (queue : String) (options : QueueDeclareOptions)
      (arguments : FieldTable)

def Query.Reply : Query → Type
  | .createChannel => Except Refusal ℕ
  | .connect .. | .confirmSelect _ | .queueDeclare .. => Except Refusal Unit

inductive Error
  | message (text : String)
  | refused (context : Option String) (cause : Refusal)
deriving DecidableEq, Repr

abbrev Future := Prog Query Query.Reply (Except Error ℕ)

def passiveProbeOptions : QueueDeclareOptions := { passive := true, durable := true }

def declareOptions : QueueDeclareOptions := { durable := true }

def selectOn (channel : ℕ) (next : Future) : Future :=
  .ask (.confirmSelect channel) fun
    | .error cause => .done (.error (.refused none cause))
    | .ok () => next

def openChannel (next : ℕ → Future) : Future :=
  .ask .createChannel fun
    | .error cause => .done (.error (.refused none cause))
    | .ok channel => selectOn channel (next channel)

def declareOn (queue : String) (channel : ℕ) : Future :=
  .ask (.queueDeclare channel queue declareOptions []) fun
    | .error cause => .done (.error (.refused none cause))
    | .ok () => .done (.ok channel)

def probeOn (queue : String) (channel : ℕ) : Future :=
  .ask (.queueDeclare channel queue passiveProbeOptions []) fun
    -- a failed passive declare has closed the channel
    | .error _ => openChannel (declareOn queue)
    | .ok () => .done (.ok channel)

/-- `reconnect` once it has its lock and has found no ready state. -/
def reconnect (queue addr connectionName : String) : Future :=
  let addr := withHeartbeat addr.toList
  .ask (.connect addr connectionName) fun
    | .error cause =>
      .done (.error (.refused
        (some ("connect AMQP " ++ String.ofList (redactAmqpUri addr))) cause))
    | .ok () => openChannel (probeOn queue)

def withConnectionName (queue addr connectionName : String) : Future :=
  if Whitespace.blank queue then
    .done (.error (.message "AMQP queue name must not be empty"))
  else if Whitespace.blank addr then
    .done (.error (.message "AMQP address must not be empty"))
  else reconnect queue addr connectionName

def new (app queue addr : String) : Future :=
  withConnectionName queue addr (if app.isEmpty then "amqp-" else "amqp-" ++ app)

/-! ## What the broker does -/

structure Queue where
  durable : Bool
  exclusive : Bool
  autoDelete : Bool
  arguments : FieldTable
deriving DecidableEq, Repr

structure Channel where
  isOpen : Bool
  confirms : Bool
deriving DecidableEq, Repr

abbrev Queues := String → Option Queue

def QueueDeclareOptions.declared (options : QueueDeclareOptions) (arguments : FieldTable) : Queue :=
  ⟨options.durable, options.exclusive, options.autoDelete, arguments⟩

structure Connection where
  channels : List Channel
  isOpen : Bool
deriving DecidableEq, Repr

/-- What a declaration may come to. An exclusive queue is another connection's. -/
inductive Declared (queues : Queues) (name : String) (options : QueueDeclareOptions)
    (arguments : FieldTable) : Except Refusal Queues → Prop
  | seen (hpassive : options.passive = true) : Declared queues name options arguments (.ok queues)
  | unseen (refusal : Refusal) (hpassive : options.passive = true)
      (hexclusive : ∀ queue ∈ queues name, queue.exclusive = true) :
      Declared queues name options arguments (.error refusal)
  | there (hpassive : options.passive = false) : Declared queues name options arguments (.ok queues)
  | created (hpassive : options.passive = false) (hname : queues name = none) :
      Declared queues name options arguments
        (.ok (Function.update queues name (some (options.declared arguments))))
  | locked (hpassive : options.passive = false) :
      Declared queues name options arguments (.error .resourceLocked)
  | differs (queue : Queue) (hpassive : options.passive = false) (hname : queues name = some queue)
      (hexclusive : queue.exclusive = false) (hdiffers : queue ≠ options.declared arguments) :
      Declared queues name options arguments (.error .preconditionFailed)

/-- The broker closes the channel on which it refuses a declaration. -/
def declareAnswer (queues : Queues) (connection : Connection) (c : ℕ) (confirms : Bool) :
    Except Refusal Queues → Except Refusal Unit × Queues × Connection
  | .ok queues => (.ok (), queues, connection)
  | .error refusal =>
    (.error refusal, queues,
      { connection with channels := connection.channels.set c ⟨false, confirms⟩ })

/-- What is documented of a broker, for requests on open connections and channels. -/
structure Broker where
  serve : Queues → Connection → (q : Query) → q.Reply × Queues × Connection
  connect : ∀ queues connection addr name,
    serve queues connection (.connect addr name) = (.ok (), queues, ⟨[], true⟩)
  createChannel : ∀ queues connection, connection.isOpen = true →
    serve queues connection .createChannel = (.ok connection.channels.length, queues,
      { connection with channels := connection.channels ++ [⟨true, false⟩] })
  confirmSelect : ∀ queues connection c confirms,
    connection.channels[c]? = some ⟨true, confirms⟩ →
    serve queues connection (.confirmSelect c) =
      (.ok (), queues, { connection with channels := connection.channels.set c ⟨true, true⟩ })
  queueDeclare : ∀ queues connection c confirms name options arguments,
    connection.channels[c]? = some ⟨true, confirms⟩ →
    ∃ result, Declared queues name options arguments result ∧
      serve queues connection (.queueDeclare c name options arguments) =
        declareAnswer queues connection c confirms result

/-! ## The clients and the broker -/

def Query.refusal (refusal : Refusal) : (q : Query) → q.Reply
  | .connect .. | .createChannel | .confirmSelect _ | .queueDeclare .. => .error refusal

def Query.dials : Query → Bool
  | .connect .. => true
  | .createChannel | .confirmSelect _ | .queueDeclare .. => false

def Query.probes : Query → Bool
  | .queueDeclare _ _ options _ => options.passive
  | .connect .. | .createChannel | .confirmSelect _ => false

def Query.failed : (q : Query) → q.Reply → Bool
  | .connect .., reply | .confirmSelect _, reply | .queueDeclare .., reply => !reply.toBool
  | .createChannel, reply => !reply.toBool

/-- `fellBack` is whether the probe has failed. -/
structure Party where
  queue : String
  connection : Connection
  future : Future
  fellBack : Bool

def Party.new (queue addr connectionName : String) : Party :=
  ⟨queue, ⟨[], false⟩, withConnectionName queue addr connectionName, false⟩

def Party.answered (p : Party) (connection : Connection) (q : Query) (resume : q.Reply → Future)
    (reply : q.Reply) : Party :=
  ⟨p.queue, connection, resume reply, (q.probes && q.failed reply) || p.fellBack⟩

def Party.serve (broker : Broker) (p : Party) (queues : Queues) : Option (Queues × Party) :=
  match p.future with
  | .done _ => none
  | .ask q resume =>
    if p.connection.isOpen || q.dials then
      match broker.serve queues p.connection q with
      | (reply, queues, connection) => some (queues, p.answered connection q resume reply)
    else none

/-- There is no answer; the broker has done what was asked where `reached` says so. -/
def Party.fail (broker : Broker) (p : Party) (queues : Queues) (text : String) (reached : Bool) :
    Option (Queues × Party) :=
  match p.future with
  | .done _ => none
  | .ask q resume =>
    let reply := q.refusal (.transport text)
    if reached && (p.connection.isOpen || q.dials) then
      match broker.serve queues p.connection q with
      | (_, queues, connection) => some (queues, p.answered connection q resume reply)
    else some (queues, p.answered p.connection q resume reply)

def Connection.lost (connection : Connection) : Connection :=
  ⟨connection.channels.map fun channel => ⟨false, channel.confirms⟩, false⟩

structure World where
  queues : Queues
  parties : List Party

inductive Event
  | owner (name : String) (queue : Option Queue)
  | arrive (queue addr connectionName : String)
  | serve (party : ℕ)
  | fail (party : ℕ) (text : String) (reached : Bool)
  | lose (party : ℕ)
deriving DecidableEq, Repr

def step (broker : Broker) (w : World) : Event → Option World
  | .owner name queue => some { w with queues := Function.update w.queues name queue }
  | .arrive queue addr connectionName =>
    some { w with parties := w.parties ++ [.new queue addr connectionName] }
  | .serve i => do
    let p ← w.parties[i]?
    let (queues, p') ← p.serve broker w.queues
    some ⟨queues, w.parties.set i p'⟩
  | .fail i text reached => do
    let p ← w.parties[i]?
    let (queues, p') ← p.fail broker w.queues text reached
    some ⟨queues, w.parties.set i p'⟩
  | .lose i => do
    let p ← w.parties[i]?
    some { w with parties := w.parties.set i { p with connection := p.connection.lost } }

/-! ## What becomes of the queues -/

def plain : Queue := declareOptions.declared []

def Extends (name : String) (queues queues' : Queues) : Prop :=
  queues' = queues ∨ (queues name = none ∧ queues' = Function.update queues name (some plain))

def Yields (queues : Queues) (name : String) : Prop :=
  ∀ queue ∈ queues name, queue = plain ∨ queue.exclusive = true

section Queues
variable {queues queues' : Queues} {name : String}

theorem Extends.cases (h : Extends name queues queues') (other : String) :
    queues' other = queues other ∨
      (other = name ∧ queues other = none ∧ queues' other = some plain) := by
  rcases h with rfl | ⟨hnone, rfl⟩
  · exact Or.inl rfl
  · by_cases hother : other = name
    · subst hother
      exact Or.inr ⟨rfl, hnone, Function.update_self _ _ _⟩
    · exact Or.inl (Function.update_of_ne hother _ _)

theorem Extends.yields (h : Extends name queues queues') {other : String}
    (hyields : Yields queues other) : Yields queues' other := by
  rcases h.cases other with hsame | ⟨-, -, hplain⟩
  · rwa [Yields, hsame]
  · simp [Yields, hplain]

end Queues

/-! ## What is known of a client -/

def onwards (queue : String) : Bool → ℕ → Future
  | false => probeOn queue
  | true => declareOn queue

def Error.Explained (Q : Prop) (fellBack : Bool) : Error → Prop
  | .message _ | .refused _ (.transport _) => True
  | .refused _ .resourceLocked => fellBack = true
  | .refused _ .preconditionFailed => fellBack = true ∧ ¬ Q
  | .refused _ .notFound | .refused _ .channelClosed => False

inductive Sound (queues : Queues) (Q : Prop) : Party → Prop
  | dialing (queue addr name : String) (connection : Connection) :
      Sound queues Q ⟨queue, connection, reconnect queue addr name, false⟩
  | opening (queue : String) (connection : Connection) (fellBack : Bool)
      (hyields : Q → fellBack = true → Yields queues queue) :
      Sound queues Q ⟨queue, connection, openChannel (onwards queue fellBack), fellBack⟩
  | selecting (queue : String) (connection : Connection) (fellBack : Bool) (channel : ℕ)
      (hchannel : connection.channels[channel]? = some ⟨connection.isOpen, false⟩)
      (hyields : Q → fellBack = true → Yields queues queue) :
      Sound queues Q
        ⟨queue, connection, selectOn channel (onwards queue fellBack channel), fellBack⟩
  | declaring (queue : String) (connection : Connection) (fellBack : Bool) (channel : ℕ)
      (hchannel : connection.channels[channel]? = some ⟨connection.isOpen, true⟩)
      (hyields : Q → fellBack = true → Yields queues queue) :
      Sound queues Q ⟨queue, connection, onwards queue fellBack channel, fellBack⟩
  | refused (queue : String) (connection : Connection) (fellBack : Bool) (error : Error)
      (herror : error.Explained Q fellBack) :
      Sound queues Q ⟨queue, connection, .done (.error error), fellBack⟩
  | ready (queue : String) (connection : Connection) (fellBack : Bool) (channel : ℕ)
      (hchannel : connection.channels[channel]? = some ⟨connection.isOpen, true⟩) :
      Sound queues Q ⟨queue, connection, .done (.ok channel), fellBack⟩

def Party.creating (p : Party) : Bool :=
  match p.future with
  | .done _ => false
  | .ask .. => p.fellBack

def Party.probing (p : Party) : Bool :=
  match p.future with
  | .done _ => false
  | .ask q _ => q.probes

section Party
variable {queues queues' : Queues} {Q : Prop} {p p' : Party}

theorem Sound.new (queue addr name : String) : Sound queues Q (.new queue addr name) := by
  unfold Party.new withConnectionName
  split_ifs
  · exact .refused _ _ _ _ trivial
  · exact .refused _ _ _ _ trivial
  · exact .dialing _ _ _ _

theorem Sound.frame (hp : Sound queues Q p)
    (h : Q → p.creating = true → Yields queues p.queue → Yields queues' p.queue) :
    Sound queues' Q p := by
  cases hp with
  | dialing => exact .dialing _ _ _ _
  | opening queue connection fellBack hyields =>
    exact .opening _ _ _ fun hQ hfell => h hQ hfell (hyields hQ hfell)
  | selecting queue connection fellBack channel hchannel hyields =>
    exact .selecting _ _ _ _ hchannel fun hQ hfell => h hQ hfell (hyields hQ hfell)
  | declaring queue connection fellBack channel hchannel hyields =>
    refine .declaring _ _ _ _ hchannel fun hQ hfell => ?_
    subst hfell
    exact h hQ rfl (hyields hQ rfl)
  | refused queue connection fellBack error herror => exact .refused _ _ _ _ herror
  | ready queue connection fellBack channel hchannel => exact .ready _ _ _ _ hchannel

theorem Connection.lost_channel {connection : Connection} {channel : ℕ} {confirms : Bool}
    (h : connection.channels[channel]? = some ⟨connection.isOpen, confirms⟩) :
    connection.lost.channels[channel]? = some ⟨connection.lost.isOpen, confirms⟩ := by
  simp [Connection.lost, h]

theorem Sound.lose (hp : Sound queues Q p) :
    Sound queues Q { p with connection := p.connection.lost } := by
  cases hp with
  | dialing => exact .dialing _ _ _ _
  | opening _ _ _ hyields => exact .opening _ _ _ hyields
  | selecting _ _ _ _ hchannel hyields =>
    exact .selecting _ _ _ _ (Connection.lost_channel hchannel) hyields
  | declaring _ _ _ _ hchannel hyields =>
    exact .declaring _ _ _ _ (Connection.lost_channel hchannel) hyields
  | refused _ _ _ _ herror => exact .refused _ _ _ _ herror
  | ready _ _ _ _ hchannel => exact .ready _ _ _ _ (Connection.lost_channel hchannel)

/-! ## The steps of one client -/

variable {broker : Broker} {q : Query} {resume : q.Reply → Future} {connection : Connection}
  {c : ℕ} {confirms : Bool} {name text : String} {options : QueueDeclareOptions}

theorem Broker.probe (hchannel : connection.channels[c]? = some ⟨true, confirms⟩) :
    broker.serve queues connection (.queueDeclare c name passiveProbeOptions []) =
        (.ok (), queues, connection) ∨
      ∃ refusal, broker.serve queues connection (.queueDeclare c name passiveProbeOptions []) =
          declareAnswer queues connection c confirms (.error refusal) ∧ Yields queues name := by
  obtain ⟨result, hdeclared, hserve⟩ :=
    broker.queueDeclare queues connection c confirms name passiveProbeOptions [] hchannel
  rw [hserve]
  cases hdeclared with
  | seen => exact Or.inl rfl
  | unseen refusal _ hexclusive =>
    exact Or.inr ⟨refusal, rfl, fun queue h => Or.inr (hexclusive queue h)⟩
  | there hpassive | created hpassive | locked hpassive | differs _ hpassive => cases hpassive

theorem Broker.create (hchannel : connection.channels[c]? = some ⟨true, confirms⟩) :
    (∃ queues', broker.serve queues connection (.queueDeclare c name declareOptions []) =
        (.ok (), queues', connection) ∧ Extends name queues queues') ∨
      broker.serve queues connection (.queueDeclare c name declareOptions []) =
        declareAnswer queues connection c confirms (.error .resourceLocked) ∨
      (broker.serve queues connection (.queueDeclare c name declareOptions []) =
          declareAnswer queues connection c confirms (.error .preconditionFailed) ∧
        ¬ Yields queues name) := by
  obtain ⟨result, hdeclared, hserve⟩ :=
    broker.queueDeclare queues connection c confirms name declareOptions [] hchannel
  rw [hserve]
  cases hdeclared with
  | seen hpassive | unseen _ hpassive => cases hpassive
  | there => exact Or.inl ⟨queues, rfl, Or.inl rfl⟩
  | created _ hname => exact Or.inl ⟨_, rfl, Or.inr ⟨hname, rfl⟩⟩
  | locked => exact Or.inr (Or.inl rfl)
  | differs queue _ hname hexclusive hdiffers =>
    refine Or.inr (Or.inr ⟨rfl, fun hyields => ?_⟩)
    rcases hyields queue hname with hplain | hlocked
    · exact hdiffers hplain
    · simp [hexclusive] at hlocked

theorem serve_eq (hfuture : p.future = .ask q resume)
    (h : p.serve broker queues = some (queues', p')) :
    (p.connection.isOpen = true ∨ q.dials = true) ∧
      queues' = (broker.serve queues p.connection q).2.1 ∧
      p' = p.answered (broker.serve queues p.connection q).2.2 q resume
        (broker.serve queues p.connection q).1 := by
  simp only [Party.serve, hfuture] at h
  split_ifs at h with hopen
  obtain ⟨rfl, rfl⟩ := Prod.mk.inj (Option.some.inj h)
  exact ⟨by simpa using hopen, rfl, rfl⟩

theorem Sound.extends (hp : Sound queues Q p) (hfuture : p.future = .ask q resume)
    (hopen : p.connection.isOpen = true ∨ q.dials = true) :
    Extends p.queue queues (broker.serve queues p.connection q).2.1 := by
  cases hp with
  | dialing queue addr name connection =>
    cases hfuture
    rw [broker.connect]
    exact Or.inl rfl
  | opening queue connection =>
    cases hfuture
    have hopen : connection.isOpen = true := by simpa [Query.dials] using hopen
    rw [broker.createChannel _ _ hopen]
    exact Or.inl rfl
  | selecting queue connection fellBack c hchannel hyields =>
    cases hfuture
    have hopen : connection.isOpen = true := by simpa [Query.dials] using hopen
    rw [broker.confirmSelect _ _ _ _ (hopen ▸ hchannel)]
    exact Or.inl rfl
  | declaring queue connection fellBack c hchannel hyields =>
    cases fellBack with
    | false =>
      cases hfuture
      have hopen : connection.isOpen = true := by simpa [Query.dials] using hopen
      rcases broker.probe (hopen ▸ hchannel) with hok | ⟨refusal, herror, -⟩
      · rw [hok]
        exact Or.inl rfl
      · rw [herror]
        exact Or.inl rfl
    | true =>
      cases hfuture
      have hopen : connection.isOpen = true := by simpa [Query.dials] using hopen
      rcases broker.create (hopen ▸ hchannel) with ⟨queues', hok, hextends⟩ | herror | ⟨herror, -⟩
      · rw [hok]
        exact hextends
      · rw [herror]
        exact Or.inl rfl
      · rw [herror]
        exact Or.inl rfl
  | refused | ready => cases hfuture

theorem Sound.serve (hp : Sound queues Q p) (h : p.serve broker queues = some (queues', p')) :
    Sound queues' Q p' := by
  cases hp with
  | dialing queue addr name connection =>
    obtain ⟨-, hqueues, hp'⟩ := serve_eq rfl h
    rw [broker.connect] at hqueues hp'
    subst hqueues hp'
    exact .opening _ _ false nofun
  | opening queue connection fellBack hyields =>
    obtain ⟨hopen, hqueues, hp'⟩ := serve_eq rfl h
    have hopen : connection.isOpen = true := by simpa [Query.dials] using hopen
    rw [broker.createChannel _ _ hopen] at hqueues hp'
    subst hqueues hp'
    exact .selecting _ _ _ _ (by simp [hopen]) hyields
  | selecting queue connection fellBack c hchannel hyields =>
    obtain ⟨hopen, hqueues, hp'⟩ := serve_eq rfl h
    have hopen : connection.isOpen = true := by simpa [Query.dials] using hopen
    rw [hopen] at hchannel
    have hlt : c < connection.channels.length := (List.getElem?_eq_some_iff.mp hchannel).1
    rw [broker.confirmSelect _ _ _ _ hchannel] at hqueues hp'
    subst hqueues hp'
    exact .declaring _ _ _ _ (by rw [List.getElem?_set_self hlt, hopen]) hyields
  | declaring queue connection fellBack c hchannel hyields =>
    cases fellBack with
    | false =>
      obtain ⟨hopen, hqueues, hp'⟩ := serve_eq rfl h
      have hopen : connection.isOpen = true := by simpa [Query.dials] using hopen
      rcases broker.probe (hopen ▸ hchannel) with hok | ⟨refusal, herror, hyields⟩
      · rw [hok] at hqueues hp'
        subst hqueues hp'
        exact .ready _ _ _ _ hchannel
      · rw [herror] at hqueues hp'
        subst hqueues hp'
        exact .opening _ _ true fun _ _ => hyields
    | true =>
      obtain ⟨hopen, hqueues, hp'⟩ := serve_eq rfl h
      have hopen : connection.isOpen = true := by simpa [Query.dials] using hopen
      rcases broker.create (hopen ▸ hchannel) with ⟨created, hok, -⟩ | herror | ⟨herror, hrefused⟩
      · rw [hok] at hqueues hp'
        subst hqueues hp'
        exact .ready _ _ _ _ hchannel
      · rw [herror] at hqueues hp'
        subst hqueues hp'
        exact .refused _ _ _ _ rfl
      · rw [herror] at hqueues hp'
        subst hqueues hp'
        exact .refused _ _ _ _ ⟨rfl, fun hQ => hrefused (hyields hQ rfl)⟩
  | refused => simp [Party.serve] at h
  | ready => simp [Party.serve] at h

theorem Sound.unanswered (hp : Sound queues Q p) (hfuture : p.future = .ask q resume)
    (hquiet : Q → p.probing = false) (connection : Connection) :
    Sound queues' Q (p.answered connection q resume (q.refusal (.transport text))) := by
  cases hp with
  | dialing | opening | selecting =>
    cases hfuture
    exact .refused _ _ _ _ trivial
  | declaring queue _ fellBack c hchannel hyields =>
    cases fellBack with
    | false =>
      cases hfuture
      refine .opening _ _ true fun hQ _ => ?_
      exact absurd (hquiet hQ) (by simp [Party.probing, onwards, probeOn, Query.probes,
        passiveProbeOptions])
    | true =>
      cases hfuture
      exact .refused _ _ _ _ trivial
  | refused | ready => cases hfuture

theorem fail_eq {reached : Bool} (hfuture : p.future = .ask q resume)
    (h : p.fail broker queues text reached = some (queues', p')) :
    (∃ connection, p' = p.answered connection q resume (q.refusal (.transport text))) ∧
      (queues' = queues ∨ ((p.connection.isOpen = true ∨ q.dials = true) ∧
        queues' = (broker.serve queues p.connection q).2.1)) := by
  simp only [Party.fail, hfuture] at h
  split_ifs at h with hreached
  · obtain ⟨rfl, rfl⟩ := Prod.mk.inj (Option.some.inj h)
    simp only [Bool.and_eq_true, Bool.or_eq_true] at hreached
    exact ⟨⟨_, rfl⟩, Or.inr ⟨hreached.2, rfl⟩⟩
  · obtain ⟨rfl, rfl⟩ := Prod.mk.inj (Option.some.inj h)
    exact ⟨⟨_, rfl⟩, Or.inl rfl⟩

theorem Sound.served (hp : Sound queues Q p) (h : p.serve broker queues = some (queues', p')) :
    p'.queue = p.queue ∧ Extends p.queue queues queues' ∧ Sound queues' Q p' := by
  cases hfuture : p.future with
  | done result => simp [Party.serve, hfuture] at h
  | ask q resume =>
    obtain ⟨hopen, hqueues, hp'⟩ := serve_eq hfuture h
    refine ⟨by rw [hp']; rfl, ?_, hp.serve h⟩
    rw [hqueues]
    exact hp.extends hfuture hopen

theorem Sound.failed {reached : Bool} (hp : Sound queues Q p) (hquiet : Q → p.probing = false)
    (h : p.fail broker queues text reached = some (queues', p')) :
    p'.queue = p.queue ∧ Extends p.queue queues queues' ∧ Sound queues' Q p' := by
  cases hfuture : p.future with
  | done result => simp [Party.fail, hfuture] at h
  | ask q resume =>
    obtain ⟨⟨connection, rfl⟩, hqueues⟩ := fail_eq hfuture h
    refine ⟨rfl, ?_, hp.unanswered hfuture hquiet connection⟩
    rcases hqueues with rfl | ⟨hopen, rfl⟩
    · exact Or.inl rfl
    · exact hp.extends hfuture hopen

end Party

/-! ## What holds in every run -/

/-- The client's own probe is answered, and the owner of its queue leaves the queue alone while
the client, its probe failed, is about to declare it. -/
def Undisturbed (i : ℕ) (w : World) : Event → Prop
  | .owner name _ => ∀ p ∈ w.parties[i]?, p.creating = true → p.queue ≠ name
  | .fail j _ _ => i = j → ∀ p ∈ w.parties[i]?, p.probing = false
  | .arrive .. | .serve _ | .lose _ => True

def Good (Q : ℕ → Prop) (w : World) : Prop :=
  ∀ i p, w.parties[i]? = some p → Sound w.queues (Q i) p

def Kept (queues : Queues) (name : String) (w : World) : Prop :=
  w.queues name = queues name ∨
    (queues name = none ∧ w.queues name = some plain ∧ ∃ p ∈ w.parties, p.queue = name)

section World
variable {broker : Broker} {queues queues' : Queues} {Q : ℕ → Prop} {w w' : World} {p p' : Party}
  {i : ℕ} {name : String} {e : Event}

theorem Good.set (hw : Good Q w) (hextends : Extends p.queue w.queues queues')
    (hp' : Sound queues' (Q i) p') : Good Q ⟨queues', w.parties.set i p'⟩ := by
  intro j x hx
  rcases getElem?_set_cases hx with ⟨rfl, rfl⟩ | ⟨-, hx⟩
  · exact hp'
  · exact (hw j x hx).frame fun _ _ => hextends.yields

theorem Kept.set (hw : Kept queues name w) (hp : w.parties[i]? = some p)
    (hqueue : p'.queue = p.queue) (hextends : Extends p.queue w.queues queues') :
    Kept queues name ⟨queues', w.parties.set i p'⟩ := by
  have hmem : p' ∈ w.parties.set i p' :=
    List.mem_set (List.getElem?_eq_some_iff.mp hp).1 p'
  rcases hextends.cases name with hsame | ⟨rfl, hnone, hplain⟩
  · rcases hw with hkept | ⟨hnone, hplain, x, hx, hname⟩
    · exact Or.inl (hsame.trans hkept)
    · refine Or.inr ⟨hnone, hsame.trans hplain, ?_⟩
      obtain ⟨j, hj⟩ := List.mem_iff_getElem?.mp hx
      by_cases hij : i = j
      · subst hij
        obtain rfl := Option.some.inj (hp.symm.trans hj)
        exact ⟨p', hmem, hqueue.trans hname⟩
      · exact ⟨x, List.mem_of_getElem? (by rwa [List.getElem?_set_ne hij]), hname⟩
  · rcases hw with hkept | ⟨-, hplain', -⟩
    · exact Or.inr ⟨hkept ▸ hnone, hplain, p', hmem, hqueue⟩
    · rw [hnone] at hplain'
      cases hplain'

theorem Good.step (hw : Good Q w) (hquiet : ∀ i, Q i → Undisturbed i w e)
    (h : AmqpConnect.step broker w e = some w') : Good Q w' := by
  cases e with
  | owner name queue =>
    obtain rfl := Option.some.inj h
    refine fun i p hp => (hw i p hp).frame fun hQ hcreating hyields => ?_
    have hne : p.queue ≠ name := hquiet i hQ p hp hcreating
    simpa only [Yields, Function.update_of_ne hne] using hyields
  | arrive queue addr name =>
    obtain rfl := Option.some.inj h
    intro i p hp
    rcases getElem?_concat_cases hp with hp | ⟨-, rfl⟩
    · exact hw i p hp
    · exact .new queue addr name
  | serve i =>
    obtain ⟨p, hp, h⟩ := Option.bind_eq_some_iff.mp h
    obtain ⟨⟨queues', p'⟩, hserve, h⟩ := Option.bind_eq_some_iff.mp h
    obtain rfl := Option.some.inj h
    obtain ⟨-, hextends, hp'⟩ := (hw i p hp).served hserve
    exact hw.set hextends hp'
  | fail i text reached =>
    obtain ⟨p, hp, h⟩ := Option.bind_eq_some_iff.mp h
    obtain ⟨⟨queues', p'⟩, hfail, h⟩ := Option.bind_eq_some_iff.mp h
    obtain rfl := Option.some.inj h
    obtain ⟨-, hextends, hp'⟩ := (hw i p hp).failed (fun hQ => hquiet i hQ rfl p hp) hfail
    exact hw.set hextends hp'
  | lose i =>
    obtain ⟨p, hp, h⟩ := Option.bind_eq_some_iff.mp h
    obtain rfl := Option.some.inj h
    exact hw.set (.inl rfl : Extends p.queue _ _) (hw i p hp).lose

theorem Kept.step (hgood : Good (fun _ => False) w) (hw : Kept queues name w)
    (howner : ∀ queue, e ≠ .owner name queue) (h : AmqpConnect.step broker w e = some w') :
    Kept queues name w' := by
  cases e with
  | owner other queue =>
    obtain rfl := Option.some.inj h
    have hne : name ≠ other := fun heq => howner queue (by rw [heq])
    simpa only [Kept, Function.update_of_ne hne] using hw
  | arrive queue addr connectionName =>
    obtain rfl := Option.some.inj h
    refine hw.imp_right fun ⟨hnone, hplain, p, hp, hname⟩ => ⟨hnone, hplain, p, ?_, hname⟩
    exact List.mem_append_left _ hp
  | serve i =>
    obtain ⟨p, hp, h⟩ := Option.bind_eq_some_iff.mp h
    obtain ⟨⟨queues', p'⟩, hserve, h⟩ := Option.bind_eq_some_iff.mp h
    obtain rfl := Option.some.inj h
    obtain ⟨hqueue, hextends, -⟩ := (hgood i p hp).served hserve
    exact hw.set hp hqueue hextends
  | fail i text reached =>
    obtain ⟨p, hp, h⟩ := Option.bind_eq_some_iff.mp h
    obtain ⟨⟨queues', p'⟩, hfail, h⟩ := Option.bind_eq_some_iff.mp h
    obtain rfl := Option.some.inj h
    obtain ⟨hqueue, hextends, -⟩ := (hgood i p hp).failed nofun hfail
    exact hw.set hp hqueue hextends
  | lose i =>
    obtain ⟨p, hp, h⟩ := Option.bind_eq_some_iff.mp h
    obtain rfl := Option.some.inj h
    exact hw.set hp rfl (Or.inl rfl)

end World

def Query.channel : Query → Option ℕ
  | .connect .. | .createChannel => none
  | .confirmSelect channel | .queueDeclare channel .. => some channel

theorem Sound.asks {queues : Queues} {Q : Prop} {p : Party} (hp : Sound queues Q p) {q : Query}
    {resume : q.Reply → Future} (hfuture : p.future = .ask q resume) :
    ∀ c ∈ q.channel,
      ∃ confirms, p.connection.channels[c]? = some ⟨p.connection.isOpen, confirms⟩ := by
  cases hp with
  | dialing | opening =>
    cases hfuture
    exact nofun
  | selecting queue connection fellBack channel hchannel hyields =>
    cases hfuture
    rintro c ⟨⟩
    exact ⟨false, hchannel⟩
  | declaring queue connection fellBack channel hchannel hyields =>
    cases fellBack <;> cases hfuture <;> rintro c ⟨⟩ <;> exact ⟨true, hchannel⟩
  | refused | ready => cases hfuture

def Party.attached (p : Party) : Option ℕ :=
  match p.future with
  | .done (.ok channel) => some channel
  | .done (.error _) | .ask .. => none

theorem Sound.channel {queues : Queues} {Q : Prop} {p : Party} (hp : Sound queues Q p) {c : ℕ}
    (hc : c ∈ p.attached) : p.connection.channels[c]? = some ⟨p.connection.isOpen, true⟩ := by
  cases hp with
  | ready queue connection fellBack channel hchannel =>
    obtain rfl := Option.some.inj hc
    exact hchannel
  | declaring _ _ fellBack => cases fellBack <;> cases hc
  | dialing | opening | selecting | refused => cases hc

theorem Sound.explained {queues : Queues} {Q : Prop} {p : Party} (hp : Sound queues Q p)
    {error : Error} (hfuture : p.future = .done (.error error)) : error.Explained Q p.fellBack := by
  cases hp with
  | refused queue connection fellBack error herror =>
    cases hfuture
    exact herror
  | declaring _ _ fellBack => cases fellBack <;> cases hfuture
  | dialing | opening | selecting | ready => cases hfuture

section Run
variable {broker : Broker} {queues : Queues} {es : List Event} {w : World}

theorem good_of_run {Q : ℕ → Prop} (hrun : run (step broker) ⟨queues, []⟩ es = some w)
    (hquiet : ∀ i, Q i → AllSteps (step broker) (Undisturbed i) ⟨queues, []⟩ es) : Good Q w := by
  refine run_invariant_of (fun _ _ _ hw hq h => hw.step hq h) ?_ (allSteps_forall hquiet) hrun
  simp [Good]

theorem kept_of_run {name : String} (hrun : run (step broker) ⟨queues, []⟩ es = some w)
    (howner : ∀ e ∈ es, ∀ queue, e ≠ .owner name queue) : Kept queues name w := by
  have hstart : Good (fun _ => False) ⟨queues, []⟩ ∧ Kept queues name ⟨queues, []⟩ :=
    ⟨by simp [Good], Or.inl rfl⟩
  refine (run_invariant_of (I := fun w => Good (fun _ => False) w ∧ Kept queues name w)
    (P := fun _ e => ∀ queue, e ≠ .owner name queue) ?_ hstart
    (allSteps_of_forall (fun e he _ => howner e he) _) hrun).2
  exact fun w e w' ⟨hgood, hkept⟩ hne h => ⟨hgood.step nofun h, hkept.step hgood hne h⟩

end Run

/-- Clients ask on open channels only, never change a queue that is there, and are refused
for a queue's arguments only where the probe said nothing of the queue they declare. -/
theorem clients_respect_owners (broker : Broker) (queues : Queues) (es : List Event) (w : World)
    (hrun : run (step broker) ⟨queues, []⟩ es = some w) :
    (∀ p ∈ w.parties, ∀ q resume, p.future = .ask q resume → ∀ c ∈ q.channel,
        ∃ confirms, p.connection.channels[c]? = some ⟨p.connection.isOpen, confirms⟩) ∧
      (∀ p ∈ w.parties, ∀ c ∈ p.attached,
        p.connection.channels[c]? = some ⟨p.connection.isOpen, true⟩) ∧
      (∀ i p, w.parties[i]? = some p →
        ∀ context cause, p.future = .done (.error (.refused context cause)) →
          cause ≠ .notFound ∧ cause ≠ .channelClosed ∧
            (AllSteps (step broker) (Undisturbed i) ⟨queues, []⟩ es →
              cause ≠ .preconditionFailed)) ∧
      ∀ name, (∀ e ∈ es, ∀ queue, e ≠ .owner name queue) →
        w.queues name = queues name ∨
          (queues name = none ∧ w.queues name = some plain ∧ ∃ p ∈ w.parties, p.queue = name) := by
  have hgood : Good (fun i => AllSteps (step broker) (Undisturbed i) ⟨queues, []⟩ es) w :=
    good_of_run hrun fun _ h => h
  refine ⟨fun p hp q resume hfuture => ?_, fun p hp c hc => ?_, ?_, fun name => kept_of_run hrun⟩
  · obtain ⟨i, hi⟩ := List.mem_iff_getElem?.mp hp
    exact (hgood i p hi).asks hfuture
  · obtain ⟨i, hi⟩ := List.mem_iff_getElem?.mp hp
    exact (hgood i p hi).channel hc
  intro i p hp context cause hfuture
  have hexplained := (hgood i p hp).explained hfuture
  refine ⟨?_, ?_, fun hquiet => ?_⟩
  · rintro rfl
    exact hexplained
  · rintro rfl
    exact hexplained
  · rintro rfl
    exact hexplained.2 hquiet

/-! ## A broker -/

def declare (queues : Queues) (name : String) (options : QueueDeclareOptions)
    (arguments : FieldTable) : Except Refusal Queues :=
  match queues name with
  | none =>
    if options.passive then .error .notFound
    else .ok (Function.update queues name (some (options.declared arguments)))
  | some queue =>
    if queue.exclusive then .error .resourceLocked
    else if options.passive || queue = options.declared arguments then .ok queues
    else .error .preconditionFailed

theorem declared_declare (queues : Queues) (name : String) (options : QueueDeclareOptions)
    (arguments : FieldTable) :
    Declared queues name options arguments (declare queues name options arguments) := by
  unfold declare
  cases hpassive : options.passive with
  | true =>
    cases hname : queues name with
    | none => exact .unseen _ hpassive (by simp [hname])
    | some queue =>
      by_cases hexclusive : queue.exclusive = true
      · simpa [hexclusive] using .unseen _ hpassive (by simp [hname, hexclusive])
      · simpa [hexclusive] using .seen hpassive
  | false =>
    cases hname : queues name with
    | none => simpa using .created hpassive hname
    | some queue =>
      by_cases hexclusive : queue.exclusive = true
      · simpa [hexclusive] using .locked hpassive
      · by_cases hsame : queue = options.declared arguments
        · subst hsame
          simpa [hexclusive] using .there hpassive
        · simpa [hexclusive, hsame] using
            .differs queue hpassive hname (by simpa using hexclusive) hsame

def serveQuery (queues : Queues) (connection : Connection) :
    (q : Query) → q.Reply × Queues × Connection
  | .connect .. => (.ok (), queues, ⟨[], true⟩)
  | .createChannel =>
    (.ok connection.channels.length, queues,
      { connection with channels := connection.channels ++ [⟨true, false⟩] })
  | .confirmSelect c =>
    match connection.channels[c]? with
    | some ⟨true, _⟩ =>
      (.ok (), queues, { connection with channels := connection.channels.set c ⟨true, true⟩ })
    | _ => (.error .channelClosed, queues, connection)
  | .queueDeclare c queue options arguments =>
    match connection.channels[c]? with
    | some ⟨true, confirms⟩ =>
      declareAnswer queues connection c confirms (declare queues queue options arguments)
    | _ => (.error .channelClosed, queues, connection)

/-- On a closed channel it refuses what it is asked. -/
def Broker.strict : Broker where
  serve := serveQuery
  connect _ _ _ _ := rfl
  createChannel _ _ _ := rfl
  confirmSelect _ _ _ _ h := by simp [serveQuery, h]
  queueDeclare queues _ _ _ name options arguments h :=
    ⟨_, declared_declare queues name options arguments, by simp only [serveQuery, h]; rfl⟩

/-- A queue with a dead-letter exchange is attached to; one that is missing is created by two
clients at a time; one that its owner creates after the probe is refused. -/
def attaching : List Event :=
  [.owner "audit" (some ⟨true, false, false, [("x-dead-letter-exchange", "dlq")]⟩),
    .arrive "audit" "amqp://rabbit" "amqp-app", .serve 0, .serve 0, .serve 0, .serve 0,
    .arrive "jobs" "amqp://rabbit" "amqp-app", .arrive "jobs" "amqp://rabbit" "amqp-app",
    .serve 1, .serve 1, .serve 1, .serve 1, .serve 2, .serve 2, .serve 2, .serve 2,
    .serve 1, .serve 1, .serve 1, .serve 2, .serve 2, .serve 2,
    .arrive "mail" "amqp://rabbit" "amqp-app", .serve 3, .serve 3, .serve 3, .serve 3,
    .owner "mail" (some ⟨false, false, false, []⟩), .serve 3, .serve 3, .serve 3]

instance (i : ℕ) (w : World) : (e : Event) → Decidable (Undisturbed i w e)
  | .owner name _ =>
    inferInstanceAs (Decidable (∀ p ∈ w.parties[i]?, p.creating = true → p.queue ≠ name))
  | .fail j _ _ =>
    inferInstanceAs (Decidable (i = j → ∀ p ∈ w.parties[i]?, p.probing = false))
  | .arrive .. | .serve _ | .lose _ => isTrue trivial

theorem clients_respect_owners_attaching :
    ∃ w, run (step .strict) ⟨fun _ => none, []⟩ attaching = some w ∧
      (w.queues "jobs" = some plain ∧
        w.parties.map Party.attached = [some 0, some 1, some 1, none] ∧
        (∀ i < 3, AllSteps (step .strict) (Undisturbed i) ⟨fun _ => none, []⟩ attaching)) ∧
      (∀ p ∈ w.parties, ∀ q resume, p.future = .ask q resume → ∀ c ∈ q.channel,
        ∃ confirms, p.connection.channels[c]? = some ⟨p.connection.isOpen, confirms⟩) ∧
      (∀ p ∈ w.parties, ∀ c ∈ p.attached,
        p.connection.channels[c]? = some ⟨p.connection.isOpen, true⟩) ∧
      (∀ i p, w.parties[i]? = some p →
        ∀ context cause, p.future = .done (.error (.refused context cause)) →
          cause ≠ .notFound ∧ cause ≠ .channelClosed ∧
            (AllSteps (step .strict) (Undisturbed i) ⟨fun _ => none, []⟩ attaching →
              cause ≠ .preconditionFailed)) ∧
      ∀ name, (∀ e ∈ attaching, ∀ queue, e ≠ .owner name queue) →
        w.queues name = none ∨
          ((fun _ => none : Queues) name = none ∧ w.queues name = some plain ∧
            ∃ p ∈ w.parties, p.queue = name) := by
  have hends : (run (step .strict) ⟨fun _ => none, []⟩ attaching).map
      (fun w => (w.queues "jobs", w.parties.map Party.attached)) =
        some (some plain, [some 0, some 1, some 1, none]) := by decide +kernel
  have hquiet : ∀ i < 3, AllSteps (step .strict) (Undisturbed i) ⟨fun _ => none, []⟩ attaching := by
    decide +kernel
  obtain ⟨w, hrun, hends⟩ := Option.map_eq_some_iff.mp hends
  obtain ⟨hjobs, hattached⟩ := Prod.mk.inj hends
  exact ⟨w, hrun, ⟨hjobs, hattached, hquiet⟩, clients_respect_owners .strict _ attaching w hrun⟩

end PaycloudHelper.AmqpConnect
