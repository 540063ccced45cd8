import Mathlib
import PaycloudHelper.Library.Runs
import PaycloudHelper.Library.Slots
import PaycloudHelper.Library.Whitespace

/-!
# Request and reply

Any number of `send_wait` callers and of responders around one broker. The broker keeps
what it is sent and may hand any message to a consumer of its queue at any time, again
or never, which covers every order, redelivery and loss; properties arrive as they were
sent. Queues the broker names are new, and so are UUIDs.
-/

namespace PaycloudHelper.Amqp

open Runs Slots Whitespace

structure BasicProperties where
  contentType : Option String
  expiration : Option String
  replyTo : Option String
  correlationId : Option String
deriving DecidableEq, Repr

def BasicProperties.default : BasicProperties := ⟨none, none, none, none⟩

structure Message where
  routingKey : String
  data : List UInt8
  properties : BasicProperties
deriving DecidableEq, Repr

def replyMessageTtl : String := "180000"

def publishOnce (routingKey : String) (data : List UInt8) (ttlMs : Option String)
    (extra : BasicProperties) : Message :=
  let props := { extra with contentType := some "application/json" }
  match ttlMs.filter fun ttl => ttl ≠ "" with
  | some ttl => ⟨routingKey, data, { props with expiration := some ttl }⟩
  | none => ⟨routingKey, data, props⟩

def replyTarget (request : BasicProperties) : Except String (String × BasicProperties) :=
  match request.replyTo.filter fun queue => !blank queue with
  | none => .error "[AMQP] delivery carries no reply_to queue"
  | some replyTo =>
    let props := { BasicProperties.default with expiration := some replyMessageTtl }
    match request.correlationId with
    | some correlation => .ok (replyTo, { props with correlationId := some correlation })
    | none => .ok (replyTo, props)

def reply (delivery : BasicProperties) (data : List UInt8) : Except String Message := do
  let (replyTo, props) ← replyTarget delivery
  return publishOnce replyTo data none props

def request (queue : String) (data : List UInt8) (replyQueue correlation : String) : Message :=
  publishOnce queue data none { BasicProperties.default with
    replyTo := some replyQueue, correlationId := some correlation,
    expiration := some replyMessageTtl }

/-! ## The parties -/

inductive Phase
  | connecting
  | declared (replyQueue : String)
  | subscribed (replyQueue correlation : String)
  | waiting (replyQueue correlation : String)
  | returned (replyQueue correlation : String) (data : List UInt8)
  | failed
deriving DecidableEq, Repr

def Phase.replyQueue : Phase → Option String
  | .declared q | .subscribed q _ | .waiting q _ | .returned q _ _ => some q
  | .connecting | .failed => none

def Phase.pair : Phase → Option (String × String)
  | .subscribed q c | .waiting q c | .returned q c _ => some (q, c)
  | .connecting | .declared _ | .failed => none

structure Caller where
  queue : String
  data : List UInt8
  phase : Phase
deriving DecidableEq, Repr

/-- Who published a message; for the statements. -/
inductive Origin
  | request (caller : ℕ)
  | reply (delivery : ℕ)
  | stray
deriving DecidableEq, Repr

structure Published where
  message : Message
  origin : Origin
deriving DecidableEq, Repr

structure World where
  callers : List Caller
  sent : List Published
  deliveries : List ℕ
  replies : List (ℕ × List UInt8)

def World.new : World := ⟨[], [], [], []⟩

inductive Event
  | sendWait (queue : String) (data : List UInt8)
  | declare (k : ℕ) (name : String)
  | subscribe (k : ℕ) (uuid : String)
  | publish (k : ℕ) (arrives ok : Bool)
  | receive (k message : ℕ) (acked : Bool)
  | giveUp (k : ℕ)
  | deliver (message : ℕ)
  | reply (delivery : ℕ) (data : List UInt8) (arrives : Bool)
  | stray (message : Message)
deriving DecidableEq, Repr

def World.set (w : World) (k : ℕ) (c : Caller) (phase : Phase) : World :=
  { w with callers := w.callers.set k { c with phase := phase } }

def World.nameFree (w : World) (name : String) : Bool :=
  w.callers.all fun c => c.queue ≠ name && c.phase.replyQueue ≠ some name

def World.uuidFree (w : World) (uuid : String) : Bool :=
  w.callers.all (fun c => c.phase.pair.all fun pair => pair.2 ≠ uuid) &&
    w.sent.all fun p => p.message.properties.correlationId ≠ some uuid

/-- The message carries the caller's UUID to or about its reply queue. -/
def Message.forges (m : Message) (pair : String × String) : Bool :=
  m.properties.correlationId = some pair.2 &&
    (m.routingKey = pair.1 || m.properties.replyTo = some pair.1)

/-- Nobody else writes a caller's UUID on its reply queue. -/
def World.foreign (w : World) (m : Message) : Bool :=
  w.callers.all fun c => c.phase.pair.all fun pair => !m.forges pair

def World.send (w : World) (arrives : Bool) (m : Message) (origin : Origin) : World :=
  if arrives then { w with sent := w.sent ++ [⟨m, origin⟩] } else w

def step (w : World) : Event → Option World
  | .sendWait queue data => some { w with callers := w.callers ++ [⟨queue, data, .connecting⟩] }
  | .declare k name => do
    let c ← w.callers[k]?
    match c.phase with
    | .connecting => if w.nameFree name then some (w.set k c (.declared name)) else none
    | _ => none
  | .subscribe k uuid => do
    let c ← w.callers[k]?
    match c.phase with
    | .declared q => if w.uuidFree uuid then some (w.set k c (.subscribed q uuid)) else none
    | _ => none
  | .publish k arrives ok => do
    let c ← w.callers[k]?
    match c.phase with
    | .subscribed q correlation =>
      let w := w.set k c (if ok then .waiting q correlation else .failed)
      some (w.send arrives (Amqp.request c.queue c.data q correlation) (.request k))
    | _ => none
  | .receive k j acked => do
    let c ← w.callers[k]?
    let p ← w.sent[j]?
    match c.phase with
    | .waiting q correlation =>
      if p.message.routingKey = q then
        if acked = false then some (w.set k c .failed)
        else if p.message.properties.correlationId = some correlation then
          some (w.set k c (.returned q correlation p.message.data))
        else some w
      else none
    | _ => none
  | .giveUp k => do
    let c ← w.callers[k]?
    match c.phase with
    | .returned .. => none
    | _ => some (w.set k c .failed)
  | .deliver j =>
    if j < w.sent.length then some { w with deliveries := w.deliveries ++ [j] } else none
  | .reply i data arrives => do
    let j ← w.deliveries[i]?
    let p ← w.sent[j]?
    let w := { w with replies := w.replies ++ [(i, data)] }
    match Amqp.reply p.message.properties data with
    | .error _ => some w
    | .ok m => some (w.send arrives m (.reply i))
  | .stray m => if w.foreign m then some (w.send true m .stray) else none

/-! ## What a message with a caller's UUID can be -/

/-- A responder passed the data to `reply` for a delivery of the caller's request. -/
def World.Answers (w : World) (k : ℕ) (data : List UInt8) : Prop :=
  ∃ i j m, w.deliveries[i]? = some j ∧ w.sent[j]? = some ⟨m, .request k⟩ ∧ (i, data) ∈ w.replies

def World.Claimed (w : World) (m : Message) (origin : Origin) : Prop :=
  ∀ (k : ℕ) c q u, w.callers[k]? = some c → c.phase.pair = some (q, u) →
    m.properties.correlationId = some u →
      (m.properties.replyTo = some q → origin = .request k) ∧
        (m.routingKey = q → w.Answers k m.data)

structure Sound (w : World) : Prop where
  own : ∀ c ∈ w.callers, c.phase.replyQueue ≠ some c.queue
  distinct : ∀ (k k' : ℕ) c c' q q' u, w.callers[k]? = some c → w.callers[k']? = some c' →
    c.phase.pair = some (q, u) → c'.phase.pair = some (q', u) → k = k'
  claimed : ∀ p ∈ w.sent, w.Claimed p.message p.origin
  returned : ∀ (k : ℕ) c q u data, w.callers[k]? = some c → c.phase = .returned q u data →
    w.Answers k data

theorem Sound.new : Sound World.new where
  own := by simp [World.new]
  distinct := by simp [World.new]
  claimed := by simp [World.new]
  returned := by simp [World.new]

variable {w w' : World}

/-! ## The steps of callers -/

theorem Sound.joined (hw : Sound w) (queue : String) (data : List UInt8) :
    Sound { w with callers := w.callers ++ [⟨queue, data, .connecting⟩] } where
  own := forall_mem_concat hw.own (by simp [Phase.replyQueue])
  distinct := by
    intro k k' c c' q q' u hk hk' hpair hpair'
    rcases getElem?_concat_cases hk with hk | ⟨-, rfl⟩
    · rcases getElem?_concat_cases hk' with hk' | ⟨-, rfl⟩
      · exact hw.distinct k k' c c' q q' u hk hk' hpair hpair'
      · cases hpair'
    · cases hpair
  claimed := by
    intro p hp k c q u hk hpair
    rcases getElem?_concat_cases hk with hk | ⟨-, rfl⟩
    · exact hw.claimed p hp k c q u hk hpair
    · cases hpair
  returned := by
    intro k c q u d hk hphase
    rcases getElem?_concat_cases hk with hk | ⟨-, rfl⟩
    · exact hw.returned k c q u d hk hphase
    · cases hphase

theorem Sound.moved (hw : Sound w) {k : ℕ} {c : Caller} {phase : Phase}
    (hk : w.callers[k]? = some c) (hown : phase.replyQueue ≠ some c.queue)
    (hpair : ∀ pair, phase.pair = some pair → c.phase.pair = some pair)
    (hreturned : ∀ q u data, phase = .returned q u data → w.Answers k data) :
    Sound (w.set k c phase) := by
  have hback : ∀ (i : ℕ) c' pair, (w.set k c phase).callers[i]? = some c' →
      c'.phase.pair = some pair → ∃ c₀, w.callers[i]? = some c₀ ∧ c₀.phase.pair = some pair := by
    intro i c' pair hi hp
    rcases getElem?_set_cases hi with ⟨rfl, rfl⟩ | ⟨-, hi⟩
    · exact ⟨c, hk, hpair pair hp⟩
    · exact ⟨c', hi, hp⟩
  exact {
    own := forall_mem_set hw.own hown
    distinct := by
      intro i i' c₁ c₂ q q' u hi hi' hp hp'
      obtain ⟨d₁, hd₁, hpd₁⟩ := hback i c₁ _ hi hp
      obtain ⟨d₂, hd₂, hpd₂⟩ := hback i' c₂ _ hi' hp'
      exact hw.distinct i i' d₁ d₂ q q' u hd₁ hd₂ hpd₁ hpd₂
    claimed := by
      intro p hp i c' q u hi hpc
      obtain ⟨d, hd, hpd⟩ := hback i c' _ hi hpc
      exact hw.claimed p hp i d q u hd hpd
    returned := by
      intro i c' q u data hi hphase
      rcases getElem?_set_cases hi with ⟨rfl, rfl⟩ | ⟨-, hi⟩
      · exact hreturned q u data hphase
      · exact hw.returned i c' q u data hi hphase }

theorem uuidFree_spec {uuid : String} (h : w.uuidFree uuid = true) :
    (∀ c ∈ w.callers, ∀ q u, c.phase.pair = some (q, u) → u ≠ uuid) ∧
      ∀ p ∈ w.sent, p.message.properties.correlationId ≠ some uuid := by
  simp only [World.uuidFree, Bool.and_eq_true, List.all_eq_true, decide_eq_true_eq] at h
  refine ⟨fun c hc q u hpair => ?_, h.2⟩
  have hfree := h.1 c hc
  rw [hpair] at hfree
  simpa using hfree

theorem Sound.subscribed (hw : Sound w) {k : ℕ} {c : Caller} {q uuid : String}
    (hk : w.callers[k]? = some c) (hphase : c.phase = .declared q)
    (hfree : w.uuidFree uuid = true) : Sound (w.set k c (.subscribed q uuid)) := by
  obtain ⟨hcallers, hsent⟩ := uuidFree_spec hfree
  have hnew : ∀ (i : ℕ) c' q' u, (w.set k c (.subscribed q uuid)).callers[i]? = some c' →
      c'.phase.pair = some (q', u) →
      (i = k ∧ u = uuid) ∨ (i ≠ k ∧ w.callers[i]? = some c' ∧ u ≠ uuid) := by
    intro i c' q' u hi hpair
    rcases getElem?_set_cases hi with ⟨rfl, rfl⟩ | ⟨hne, hi⟩
    · exact Or.inl ⟨rfl, (Prod.mk.inj (Option.some.inj hpair)).2.symm⟩
    · exact Or.inr ⟨hne, hi, hcallers c' (List.mem_of_getElem? hi) q' u hpair⟩
  exact {
    own := by
      apply forall_mem_set hw.own
      have hown := hw.own c (List.mem_of_getElem? hk)
      rw [hphase] at hown
      exact hown
    distinct := by
      intro i i' c₁ c₂ q₁ q₂ u hi hi' hp hp'
      rcases hnew i c₁ q₁ u hi hp with ⟨rfl, rfl⟩ | ⟨-, hi, hu⟩ <;>
        rcases hnew i' c₂ q₂ u hi' hp' with ⟨rfl, hu'⟩ | ⟨-, hi', hu'⟩
      · rfl
      · exact absurd rfl hu'
      · exact absurd hu' hu
      · exact hw.distinct i i' c₁ c₂ q₁ q₂ u hi hi' hp hp'
    claimed := by
      intro p hp i c' q' u hi hpair hcorr
      rcases hnew i c' q' u hi hpair with ⟨-, rfl⟩ | ⟨-, hi, -⟩
      · exact absurd hcorr (hsent p hp)
      · exact hw.claimed p hp i c' q' u hi hpair hcorr
    returned := by
      intro i c' q' u data hi hphase'
      rcases getElem?_set_cases hi with ⟨-, rfl⟩ | ⟨-, hi⟩
      · cases hphase'
      · exact hw.returned i c' q' u data hi hphase' }

/-! ## The steps of the broker and of responders -/

theorem Sound.grow (hw : Sound w) (hcallers : w'.callers = w.callers)
    (hdeliveries : w.deliveries <+: w'.deliveries) (hsent : w.sent <+: w'.sent)
    (hreplies : w.replies ⊆ w'.replies)
    (hnew : ∀ p ∈ w'.sent, p ∈ w.sent ∨ w.Claimed p.message p.origin) : Sound w' := by
  have hanswers : ∀ k data, w.Answers k data → w'.Answers k data := by
    rintro k data ⟨i, j, m, hi, hj, hmem⟩
    exact ⟨i, j, m, getElem?_of_prefix hdeliveries hi, getElem?_of_prefix hsent hj, hreplies hmem⟩
  have hclaimed : ∀ m o, w.Claimed m o → w'.Claimed m o := by
    intro m o hm k c q u hk hpair hcorr
    rw [hcallers] at hk
    obtain ⟨horigin, hroute⟩ := hm k c q u hk hpair hcorr
    exact ⟨horigin, fun h => hanswers k m.data (hroute h)⟩
  exact {
    own := by
      rw [hcallers]
      exact hw.own
    distinct := by
      rw [hcallers]
      exact hw.distinct
    claimed := by
      intro p hp
      exact hclaimed _ _ ((hnew p hp).elim (hw.claimed p) id)
    returned := by
      rw [hcallers]
      intro k c q u data hk hphase
      exact hanswers k data (hw.returned k c q u data hk hphase) }

theorem Sound.send (hw : Sound w) (arrives : Bool) {m : Message} {origin : Origin}
    (hm : w.Claimed m origin) : Sound (w.send arrives m origin) := by
  cases arrives with
  | false => exact hw
  | true =>
    refine hw.grow rfl List.prefix_rfl (List.prefix_append _ _) (List.Subset.refl _) ?_
    intro p hp
    rcases List.mem_append.mp hp with hp | hp
    · exact Or.inl hp
    · rw [List.mem_singleton.mp hp]
      exact Or.inr hm

theorem Sound.request_claimed (hw : Sound w) {k : ℕ} {c : Caller} {q u : String}
    (hk : w.callers[k]? = some c) (hphase : c.phase = .subscribed q u) :
    w.Claimed (request c.queue c.data q u) (.request k) := by
  intro k' c' q' u' hk' hpair hcorr
  obtain rfl : u = u' := Option.some.inj hcorr
  have hpair₀ : c.phase.pair = some (q, u) := by rw [hphase]; rfl
  obtain rfl := hw.distinct k k' c c' q q' u hk hk' hpair₀ hpair
  obtain rfl := Option.some.inj (hk.symm.trans hk')
  obtain ⟨rfl, -⟩ := Prod.mk.inj (Option.some.inj (hpair₀.symm.trans hpair))
  refine ⟨fun _ => rfl, fun hroute => ?_⟩
  have hown := hw.own c (List.mem_of_getElem? hk)
  rw [hphase] at hown
  exact absurd (congrArg some hroute.symm) hown

theorem reply_spec {properties : BasicProperties} {data : List UInt8} {m : Message}
    (h : reply properties data = .ok m) :
    properties.replyTo = some m.routingKey ∧ m.data = data ∧ m.properties.replyTo = none ∧
      m.properties.correlationId = properties.correlationId := by
  unfold reply replyTarget at h
  cases hreply : properties.replyTo.filter fun queue => !blank queue with
  | none =>
    rw [hreply] at h
    cases h
  | some queue =>
    rw [hreply] at h
    have hqueue : properties.replyTo = some queue := (Option.filter_eq_some_iff.mp hreply).1
    cases hcorr : properties.correlationId with
    | none =>
      rw [hcorr] at h
      obtain rfl := Except.ok.inj h
      exact ⟨hqueue, rfl, rfl, rfl⟩
    | some correlation =>
      rw [hcorr] at h
      obtain rfl := Except.ok.inj h
      exact ⟨hqueue, rfl, rfl, rfl⟩

theorem Sound.reply_claimed (hw : Sound w) {i j : ℕ} {p : Published} {data : List UInt8}
    {m : Message} (hi : w.deliveries[i]? = some j) (hj : w.sent[j]? = some p)
    (hmem : (i, data) ∈ w.replies) (h : reply p.message.properties data = .ok m) :
    w.Claimed m (.reply i) := by
  obtain ⟨hto, hdata, hnone, hinherit⟩ := reply_spec h
  intro k c q u hk hpair hcorr
  rw [hinherit] at hcorr
  obtain ⟨horigin, -⟩ := hw.claimed p (List.mem_of_getElem? hj) k c q u hk hpair hcorr
  constructor
  · intro hreply
    rw [hnone] at hreply
    cases hreply
  · rintro rfl
    obtain ⟨message, origin⟩ := p
    obtain rfl := horigin hto
    exact ⟨i, j, message, hi, hj, hdata.symm ▸ hmem⟩

theorem foreign_claimed {m : Message} (h : w.foreign m = true) : w.Claimed m .stray := by
  intro k c q u hk hpair hcorr
  have hforges := List.all_eq_true.mp h c (List.mem_of_getElem? hk)
  rw [hpair] at hforges
  simp [Message.forges, hcorr] at hforges
  exact ⟨fun hreply => absurd hreply hforges.2, fun hroute => absurd hroute hforges.1⟩

theorem Sound.stepDeclare (hw : Sound w) {k : ℕ} {name : String}
    (h : Amqp.step w (.declare k name) = some w') : Sound w' := by
  obtain ⟨c, hk, h⟩ := Option.bind_eq_some_iff.mp h
  split at h
  · split_ifs at h with hfree
    obtain rfl := Option.some.inj h
    have hname := List.all_eq_true.mp hfree c (List.mem_of_getElem? hk)
    refine hw.moved hk ?_ (by simp [Phase.pair]) (by simp)
    simp only [Bool.and_eq_true, decide_eq_true_eq] at hname
    exact fun heq => hname.1 (Option.some.inj heq).symm
  · cases h

theorem Sound.stepSubscribe (hw : Sound w) {k : ℕ} {uuid : String}
    (h : Amqp.step w (.subscribe k uuid) = some w') : Sound w' := by
  obtain ⟨c, hk, h⟩ := Option.bind_eq_some_iff.mp h
  split at h
  · rename_i q hphase
    split_ifs at h with hfree
    obtain rfl := Option.some.inj h
    exact hw.subscribed hk hphase hfree
  · cases h

theorem Sound.stepPublish (hw : Sound w) {k : ℕ} {arrives ok : Bool}
    (h : Amqp.step w (.publish k arrives ok) = some w') : Sound w' := by
  obtain ⟨c, hk, h⟩ := Option.bind_eq_some_iff.mp h
  split at h
  · rename_i q u hphase
    obtain rfl := Option.some.inj h
    have hown := hw.own c (List.mem_of_getElem? hk)
    rw [hphase] at hown
    have hswap : ∀ phase m o,
        (w.set k c phase).send arrives m o = (w.send arrives m o).set k c phase := by
      intro phase m o
      cases arrives <;> rfl
    rw [hswap]
    have hk' : ∀ m o, (w.send arrives m o).callers[k]? = some c := by
      intro m o
      cases arrives <;> exact hk
    refine (hw.send arrives (hw.request_claimed hk hphase)).moved (hk' _ _) ?_ ?_ ?_ <;>
      cases ok
    · simp [Phase.replyQueue]
    · exact hown
    · simp [Phase.pair]
    · simp [hphase, Phase.pair]
    · simp
    · simp
  · cases h

theorem Sound.stepReceive (hw : Sound w) {k j : ℕ} {acked : Bool}
    (h : Amqp.step w (.receive k j acked) = some w') : Sound w' := by
  obtain ⟨c, hk, h⟩ := Option.bind_eq_some_iff.mp h
  obtain ⟨p, hj, h⟩ := Option.bind_eq_some_iff.mp h
  split at h
  · rename_i q u hphase
    have hown := hw.own c (List.mem_of_getElem? hk)
    have hpair : c.phase.pair = some (q, u) := by rw [hphase]; rfl
    rw [hphase] at hown
    split_ifs at h with hroute hacked hcorr <;> obtain rfl := Option.some.inj h
    · exact hw.moved hk (by simp [Phase.replyQueue]) (by simp [Phase.pair]) (by simp)
    · refine hw.moved hk hown (fun _ h => hpair.trans h) ?_
      intro q' u' data hreturned
      obtain ⟨-, -, rfl⟩ := Phase.returned.inj hreturned
      exact (hw.claimed p (List.mem_of_getElem? hj) k c q u hk hpair hcorr).2 hroute
    · exact hw
  · cases h

theorem Sound.stepGiveUp (hw : Sound w) {k : ℕ} (h : Amqp.step w (.giveUp k) = some w') :
    Sound w' := by
  obtain ⟨c, hk, h⟩ := Option.bind_eq_some_iff.mp h
  split at h
  · cases h
  · obtain rfl := Option.some.inj h
    exact hw.moved hk (by simp [Phase.replyQueue]) (by simp [Phase.pair]) (by simp)

theorem Sound.stepDeliver (hw : Sound w) {j : ℕ} (h : Amqp.step w (.deliver j) = some w') :
    Sound w' := by
  change (if j < w.sent.length then _ else _) = _ at h
  split_ifs at h
  obtain rfl := Option.some.inj h
  exact hw.grow rfl (List.prefix_append _ _) List.prefix_rfl (List.Subset.refl _) fun _ => Or.inl

theorem Sound.stepReply (hw : Sound w) {i : ℕ} {data : List UInt8} {arrives : Bool}
    (h : Amqp.step w (.reply i data arrives) = some w') : Sound w' := by
  obtain ⟨j, hi, hp⟩ := Option.bind_eq_some_iff.mp h
  obtain ⟨p, hj, hreply⟩ := Option.bind_eq_some_iff.mp hp
  have hw' : Sound { w with replies := w.replies ++ [(i, data)] } :=
    hw.grow rfl List.prefix_rfl List.prefix_rfl (List.subset_append_left _ _) fun _ => Or.inl
  dsimp only at hreply
  split at hreply <;> obtain rfl := Option.some.inj hreply
  · exact hw'
  · rename_i m hm
    exact hw'.send arrives (hw'.reply_claimed hi hj (by simp) hm)

theorem Sound.stepStray (hw : Sound w) {m : Message} (h : Amqp.step w (.stray m) = some w') :
    Sound w' := by
  change (if w.foreign m = true then _ else _) = _ at h
  split_ifs at h with hforeign
  obtain rfl := Option.some.inj h
  exact hw.send true (foreign_claimed hforeign)

theorem Sound.step {e : Event} (hw : Sound w) (h : Amqp.step w e = some w') :
    Sound w' := by
  cases e with
  | sendWait queue data =>
    obtain rfl := Option.some.inj h
    exact hw.joined queue data
  | declare k name => exact hw.stepDeclare h
  | subscribe k uuid => exact hw.stepSubscribe h
  | publish k arrives ok => exact hw.stepPublish h
  | receive k j acked => exact hw.stepReceive h
  | giveUp k => exact hw.stepGiveUp h
  | deliver j => exact hw.stepDeliver h
  | reply i data arrives => exact hw.stepReply h
  | stray m => exact hw.stepStray h

/-- What `send_wait` returns was passed to `reply` for a delivery of its own request. -/
theorem answers_never_cross {es : List Event} (hrun : run step .new es = some w) {k : ℕ}
    {c : Caller} {q u : String} {data : List UInt8} (hk : w.callers[k]? = some c)
    (hphase : c.phase = .returned q u data) :
    ∃ i j m, w.deliveries[i]? = some j ∧ w.sent[j]? = some ⟨m, .request k⟩ ∧
      (i, data) ∈ w.replies :=
  (run_invariant (fun _ _ _ hw h => hw.step h) Sound.new hrun).returned k c q u data hk hphase

/-- Two callers of one service; the requests are answered in the other order, the first of
them twice, and a message without correlation comes first on a reply queue. -/
def crossed : List Event :=
  [.sendWait "jobs" [1], .sendWait "jobs" [2], .declare 0 "amq.gen-a", .declare 1 "amq.gen-b",
    .subscribe 1 "u1", .subscribe 0 "u0", .publish 0 true true, .publish 1 true true,
    .stray ⟨"amq.gen-b", [9], .default⟩, .deliver 1, .deliver 0, .deliver 0, .reply 0 [12] true,
    .reply 1 [11] true, .reply 2 [13] true, .receive 1 2 true, .receive 1 3 true,
    .receive 0 4 true]

theorem answers_never_cross_crossed : ∃ w, run step .new crossed = some w ∧
    (∃ c, w.callers[1]? = some c ∧ c.phase = .returned "amq.gen-b" "u1" [12]) ∧
      ∃ i j m, w.deliveries[i]? = some j ∧ w.sent[j]? = some ⟨m, .request 1⟩ ∧
        (i, [12]) ∈ w.replies := by
  have hrun : run step .new crossed = some _ := rfl
  exact ⟨_, hrun, ⟨_, rfl, rfl⟩, answers_never_cross hrun rfl rfl⟩

end PaycloudHelper.Amqp
