import Mathlib
import PaycloudHelper.Library.Transcripts
import PaycloudHelper.Audit.Entities

/-!
# Audit envelopes

What the four builders make of a body, called from any number of threads. A builder takes
the id of its envelope from a counter they all share, in one atomic step, so an order of
those steps is a run. The counter is an `i64` that wraps; identity and clock are arguments,
read when the body is filled and again when the envelope is.
-/

namespace PaycloudHelper.Audit

open Serde Transcripts
open JsonValues (Json)

variable {F : Type}

/-! ## Envelopes -/

structure MessagePayloadAudit (F : Type) where
  id : I64
  command : String
  time : String
  moduleId : String
  data : Json F

def messagePayloadAudit (F : Type) : Struct F (MessagePayloadAudit F) where
  name := "MessagePayloadAudit"
  fields := (Record.make MessagePayloadAudit.mk
    |>.field MessagePayloadAudit.id (plain "id" i64)
    |>.field MessagePayloadAudit.command (plain "command" string)
    |>.field MessagePayloadAudit.time (plain "time" string)
    |>.field MessagePayloadAudit.moduleId (plain "module_id" string)
    |>.field MessagePayloadAudit.data (plain "data" value)).rename pascalCase
  nodup := by
    simp only [Record.names_rename, Record.names, plain]
    decide

theorem messagePayloadAudit_exact : (messagePayloadAudit F).codec.Exact :=
  Struct.exact (by simp [messagePayloadAudit, Record.Kept])
    (by simp [messagePayloadAudit, Record.back])

def cmdProcess : String := "audit-trail-process"
def cmdData : String := "audit-trail-data"
def cmdTrx : String := "audit-trail-trx"
def cmdTrace : String := "transaction-trace"

def traceKindHop : String := "hop"

theorem bmod_range (n : ℤ) : -2 ^ 63 ≤ n.bmod (2 ^ 64) ∧ n.bmod (2 ^ 64) < 2 ^ 63 := by
  have hlo := Int.le_bmod (x := n) (m := 2 ^ 64) (by norm_num)
  have hhi := Int.bmod_lt (x := n) (m := 2 ^ 64) (by norm_num)
  norm_num at hlo hhi ⊢
  exact ⟨hlo, hhi⟩

def wrapI64 (n : ℤ) : I64 := ⟨n.bmod (2 ^ 64), bmod_range n⟩

def nextAuditId (last : I64) : I64 := wrapI64 (last.val + 1)

/-- What a builder reads of its surroundings: the identity, and the clock in two formats. -/
structure Reading where
  pcCoreName : String
  datetimeNow : String
  rfc3339Now : String

def MessagePayloadAudit.new (now : Reading) (command : String) (data : Json F) (last : I64) :
    MessagePayloadAudit F × I64 :=
  let id := nextAuditId last
  (⟨id, command, now.datetimeNow, now.pcCoreName, data⟩, id)

/-! ## Builders -/

def processPayload (here now : Reading) (function description info : String)
    (keys : Option (List String)) (last : I64) : Option (MessagePayloadAudit F) × I64 :=
  if function.isEmpty || description.isEmpty then (none, last)
  else
    let body : AuditTrailProcess :=
      ⟨here.pcCoreName, function, description, keys, ⟨here.datetimeNow, info⟩⟩
    (MessagePayloadAudit.new now cmdProcess ((auditTrailProcess F).codec.serialize body) last).map
      some id

def dataPayload (here now : Reading) (function description source communicationType : String)
    (keys : Option (List String)) (data : RequestAndResponse F) (last : I64) :
    Option (MessagePayloadAudit F) × I64 :=
  if function.isEmpty || data.response.detail.statusCode.val = 0 then (none, last)
  else
    let body : AuditTrailData F :=
      ⟨here.pcCoreName, function, description, keys, source, communicationType, data⟩
    (MessagePayloadAudit.new now cmdData ((auditTrailData F).codec.serialize body) last).map some id

def orElse (text default : String) : String := if text.isEmpty then default else text

def trxPayload (here now : Reading) (data : AuditTrailTrx F) (last : I64) :
    Option (MessagePayloadAudit F) × I64 :=
  if data.reffNo.isEmpty && data.orderNo.isEmpty then (none, last)
  else
    let data := { data with service := orElse data.service here.pcCoreName }
    let data := { data with eventTime := orElse data.eventTime here.rfc3339Now }
    (MessagePayloadAudit.new now cmdTrx ((auditTrailTrx F).codec.serialize data) last).map some id

def hasAnyTraceKey (t : TransactionTrace F) : Bool :=
  t.trxId.val ≠ 0 || !t.trxNo.isEmpty || !t.trxReferenceNo.isEmpty || !t.trxPayCode1.isEmpty ||
    !t.ticketId.isEmpty || !t.merchantCode.isEmpty || t.mId.val ≠ 0

def tracePayload (here now : Reading) (t : TransactionTrace F) (last : I64) :
    Option (MessagePayloadAudit F) × I64 :=
  if t.event.isEmpty || !hasAnyTraceKey t then (none, last)
  else
    let t := { t with v := if t.v.val = 0 then ⟨1, by norm_num⟩ else t.v }
    let t := { t with kind := orElse t.kind traceKindHop }
    let t := { t with service := orElse t.service here.pcCoreName }
    let t := { t with eventTime := orElse t.eventTime here.rfc3339Now }
    (MessagePayloadAudit.new now cmdTrace ((transactionTrace F).codec.serialize t) last).map some id

inductive Call (F : Type)
  | process (function description info : String) (keys : Option (List String))
  | data (function description source communicationType : String) (keys : Option (List String))
      (data : RequestAndResponse F)
  | trx (data : AuditTrailTrx F)
  | trace (t : TransactionTrace F)

structure Built (F : Type) where
  call : Call F
  here : Reading
  now : Reading

def build (last : I64) (b : Built F) : Option (MessagePayloadAudit F) × I64 :=
  match b.call with
  | .process function description info keys =>
    processPayload b.here b.now function description info keys last
  | .data function description source communicationType keys data =>
    dataPayload b.here b.now function description source communicationType keys data last
  | .trx data => trxPayload b.here b.now data last
  | .trace t => tracePayload b.here b.now t last

/-! ## What an envelope carries -/

def Call.skipped : Call F → Bool
  | .process function description _ _ => function = "" ∨ description = ""
  | .data function _ _ _ _ body => function = "" ∨ body.response.detail.statusCode.val = 0
  | .trx x => x.reffNo = "" ∧ x.orderNo = ""
  | .trace t => t.event = "" ∨ (t.trxId.val = 0 ∧ t.trxNo = "" ∧ t.trxReferenceNo = "" ∧
      t.trxPayCode1 = "" ∧ t.ticketId = "" ∧ t.merchantCode = "" ∧ t.mId.val = 0)

def AuditTrailTrx.completed (here : Reading) (x : AuditTrailTrx F) : AuditTrailTrx F :=
  { x with
    service := orElse x.service here.pcCoreName
    eventTime := orElse x.eventTime here.rfc3339Now }

def TransactionTrace.completed (here : Reading) (t : TransactionTrace F) : TransactionTrace F :=
  { t with
    v := if t.v.val = 0 then ⟨1, by norm_num⟩ else t.v
    kind := orElse t.kind traceKindHop
    service := orElse t.service here.pcCoreName
    eventTime := orElse t.eventTime here.rfc3339Now }

/-- The command of the call, and a body that is read back, as it was built, if the caller
filled the fields that are left out when they are empty. -/
def Carries (b : Built F) (e : MessagePayloadAudit F) : Prop :=
  match b.call with
  | .process function description info keys =>
    e.command = cmdProcess ∧ ∀ y, (auditTrailProcess F).codec.deserialize e.data = .ok y ↔
      b.here.pcCoreName ≠ "" ∧
        y = ⟨b.here.pcCoreName, function, description, keys, ⟨b.here.datetimeNow, info⟩⟩
  | .data function description source communicationType keys data =>
    e.command = cmdData ∧ ∀ y, (auditTrailData F).codec.deserialize e.data = .ok y ↔
      (b.here.pcCoreName ≠ "" ∧ description ≠ "" ∧ data.request.Filled) ∧
        y = ⟨b.here.pcCoreName, function, description, keys, source, communicationType, data.normal⟩
  | .trx data =>
    e.command = cmdTrx ∧ ∀ y, (auditTrailTrx F).codec.deserialize e.data = .ok y ↔
      data.Filled ∧ y = (data.completed b.here).normal
  | .trace t =>
    e.command = cmdTrace ∧ ∀ y, (transactionTrace F).codec.deserialize e.data = .ok y ↔
      t.Filled ∧ y = (t.completed b.here).normal

theorem nextAuditId_val {last : I64} (h : last.val + 1 < 2 ^ 63) :
    (nextAuditId last).val = last.val + 1 := by
  have hlo := last.2.1
  unfold nextAuditId wrapI64
  apply Int.bmod_eq_of_le
  · norm_num at hlo ⊢
    omega
  · norm_num at h ⊢
    omega

def Built.content (b : Built F) : String × Json F :=
  match b.call with
  | .process function description info keys =>
    (cmdProcess, (auditTrailProcess F).codec.serialize
      ⟨b.here.pcCoreName, function, description, keys, ⟨b.here.datetimeNow, info⟩⟩)
  | .data function description source communicationType keys data =>
    (cmdData, (auditTrailData F).codec.serialize
      ⟨b.here.pcCoreName, function, description, keys, source, communicationType, data⟩)
  | .trx data => (cmdTrx, (auditTrailTrx F).codec.serialize (data.completed b.here))
  | .trace t => (cmdTrace, (transactionTrace F).codec.serialize (t.completed b.here))

def Built.envelope (b : Built F) (id : I64) : MessagePayloadAudit F :=
  ⟨id, b.content.1, b.now.datetimeNow, b.now.pcCoreName, b.content.2⟩

theorem build_eq (last : I64) (b : Built F) :
    build last b =
      if b.call.skipped then (none, last)
      else (some (b.envelope (nextAuditId last)), nextAuditId last) := by
  obtain ⟨call, here, now⟩ := b
  cases call with
  | process function description info keys => exact if_congr (by simp [Call.skipped]) rfl rfl
  | data function description source communicationType keys data =>
    exact if_congr (by simp [Call.skipped]) rfl rfl
  | trx data => exact if_congr (by simp [Call.skipped]) rfl rfl
  | trace t => exact if_congr (by simp [Call.skipped, hasAnyTraceKey, and_assoc]) rfl rfl

theorem carries_envelope {b : Built F} (h : b.call.skipped = false) (id : I64) :
    Carries b (b.envelope id) := by
  obtain ⟨call, here, now⟩ := b
  cases call with
  | process function description info keys =>
    obtain ⟨hfunction, hdescription⟩ : function ≠ "" ∧ description ≠ "" := by
      simpa [Call.skipped] using h
    refine ⟨rfl, fun y => (auditTrailProcess_trip _ y).trans (and_congr ?_ eq_comm)⟩
    simp [AuditTrailProcess.Filled, hfunction, hdescription]
  | data function description source communicationType keys data =>
    obtain ⟨hfunction, -⟩ : function ≠ "" ∧ data.response.detail.statusCode.val ≠ 0 := by
      simpa [Call.skipped] using h
    refine ⟨rfl, fun y => (auditTrailData_trip _ y).trans (and_congr ?_ eq_comm)⟩
    simp [AuditTrailData.Filled, hfunction]
  | trx data =>
    exact ⟨rfl, fun y => (auditTrailTrx_trip _ y).trans (and_congr Iff.rfl eq_comm)⟩
  | trace t =>
    exact ⟨rfl, fun y => (transactionTrace_trip _ y).trans (and_congr Iff.rfl eq_comm)⟩

/-! ## All envelopes -/

def envelopes (last : I64) (builds : List (Built F)) : List (MessagePayloadAudit F) :=
  (transcript build last builds).filterMap (·.2)

theorem envelopes_cons (last : I64) (b : Built F) (builds : List (Built F)) :
    envelopes last (b :: builds) =
      if b.call.skipped then envelopes last builds
      else b.envelope (nextAuditId last) :: envelopes (nextAuditId last) builds := by
  unfold envelopes
  rw [transcript_cons, build_eq]
  split_ifs <;> rfl

theorem envelopes_ids {last : I64} {builds : List (Built F)}
    (hfew : last.val + builds.length < 2 ^ 63) :
    (envelopes last builds).map (·.id.val) =
      (List.range (envelopes last builds).length).map fun k : ℕ => last.val + 1 + k := by
  induction builds generalizing last with
  | nil => rfl
  | cons b builds ih =>
    rw [List.length_cons] at hfew
    push_cast at hfew
    rw [envelopes_cons]
    split_ifs with hskip
    · exact ih (by omega)
    · have hnext : (nextAuditId last).val = last.val + 1 := nextAuditId_val (by omega)
      rw [List.map_cons, ih (by omega), List.length_cons, List.range_succ_eq_map, List.map_cons,
        List.map_map, hnext]
      congr 1
      · simpa [Built.envelope] using hnext
      · apply List.map_congr_left
        intro k _
        simp only [Function.comp_apply, Nat.cast_succ]
        omega

theorem envelopes_carry (last : I64) (builds : List (Built F)) :
    List.Forall₂ Carries (builds.filter fun b => !b.call.skipped) (envelopes last builds) := by
  induction builds generalizing last with
  | nil => exact .nil
  | cons b builds ih =>
    rw [envelopes_cons, List.filter_cons]
    cases hskip : b.call.skipped with
    | true => exact ih last
    | false => exact .cons (carries_envelope hskip _) (ih _)

/-- Whatever threads build in whatever order, each call that says enough has one envelope that
carries it, and the ids of the envelopes are 1, 2, 3 and so on; the envelope itself is read
back as it was written. -/
theorem envelopes_carry_calls (builds : List (Built F)) (hfew : builds.length < 2 ^ 63) :
    let sent := envelopes ⟨0, by norm_num⟩ builds
    sent.map (·.id.val) = (List.range sent.length).map (fun k : ℕ => (k : ℤ) + 1) ∧
      List.Forall₂ Carries (builds.filter fun b => !b.call.skipped) sent ∧
        ∀ e ∈ sent, (messagePayloadAudit F).codec.trip e = .ok e := by
  refine ⟨?_, envelopes_carry _ builds, fun e _ => messagePayloadAudit_exact e⟩
  rw [envelopes_ids (by push_cast; omega)]
  apply List.map_congr_left
  intro k _
  dsimp only
  omega

def newYear : Reading := ⟨"svc", "2026-01-01 00:00:00", "2026-01-01T00:00:00Z"⟩

def threeCalls : List (Built Unit) :=
  [⟨.process "Pay" "start" "ok" none, newYear, newYear⟩, ⟨.process "" "" "" none, newYear, newYear⟩,
    ⟨.process "Pay" "end" "ok" none, newYear, newYear⟩]

theorem envelopes_carry_calls_three :
    (envelopes ⟨0, by norm_num⟩ threeCalls).map (·.id.val) = [1, 2] := by
  obtain ⟨hids, hcarry, -⟩ := envelopes_carry_calls threeCalls (by decide)
  have hlength : (envelopes ⟨0, by norm_num⟩ threeCalls).length = 2 :=
    hcarry.length_eq.symm.trans (by decide)
  rw [hids, hlength]
  rfl

end PaycloudHelper.Audit
