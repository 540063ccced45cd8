import Mathlib
import PaycloudHelper.Library.Serde

/-!
# Audit entities

The bodies of audit messages with their serde attributes, and for each the values that
it reads back as it wrote them.
-/

namespace PaycloudHelper.Audit

open Serde BTreeMaps
open JsonValues (Json)

variable {F : Type}

/-! ## Skip rules -/

def isZero {lo hi : ℤ} (value : Ranged lo hi) : Bool := value.val = 0

def isZeroI64 (value : I64) : Bool := isZero value
def isZeroI32 (value : I32) : Bool := isZero value
def isZeroU16 (value : U16) : Bool := isZero value

def zeroTime : String := "0001-01-01T00:00:00Z"

def createdAt : Codec F String where
  serialize value := .string (if value.isEmpty then zeroTime else value)
  deserialize := (string : Codec F String).deserialize
  missing := none

/-! ## Process audits -/

structure DataAuditTrailProcess where
  time : String
  info : String
deriving DecidableEq, Repr

def dataAuditTrailProcess (F : Type) : Struct F DataAuditTrailProcess where
  name := "DataAuditTrailProcess"
  fields := (Record.make DataAuditTrailProcess.mk
    |>.field DataAuditTrailProcess.time (plain "time" string)
    |>.field DataAuditTrailProcess.info (plain "info" string)).rename pascalCase
  nodup := by
    simp only [Record.names_rename, Record.names, plain]
    decide

@[simp] theorem dataAuditTrailProcess_exact : (dataAuditTrailProcess F).codec.Exact :=
  Struct.exact (by simp [dataAuditTrailProcess, Record.Kept])
    (by simp [dataAuditTrailProcess, Record.back])

@[simp] theorem keys_exact : (option (vec string) : Codec F (Option (List String))).Exact :=
  option_exact (by simp) (vec_exact string_exact)

structure AuditTrailProcess where
  subject : String
  function : String
  description : String
  key : Option (List String)
  data : DataAuditTrailProcess
deriving DecidableEq, Repr

def auditTrailProcess (F : Type) : Struct F AuditTrailProcess where
  name := "AuditTrailProcess"
  fields := (Record.make AuditTrailProcess.mk
    |>.field AuditTrailProcess.subject (skipIf String.isEmpty "subject" string)
    |>.field AuditTrailProcess.function (skipIf String.isEmpty "function" string)
    |>.field AuditTrailProcess.description (skipIf String.isEmpty "description" string)
    |>.field AuditTrailProcess.key (plain "key" (option (vec string)))
    |>.field AuditTrailProcess.data (plain "data" (dataAuditTrailProcess F).codec)).rename
      pascalCase
  nodup := by
    simp only [Record.names_rename, Record.names, plain, skipIf]
    decide

/-- No field of it is left out. -/
def AuditTrailProcess.Filled (x : AuditTrailProcess) : Prop :=
  x.subject ≠ "" ∧ x.function ≠ "" ∧ x.description ≠ ""

/-! ## Request and response audits -/

structure Detail (F : Type) where
  statusCode : I32
  message : String
  data : Option (Json F)

def detail (F : Type) : Struct F (Detail F) where
  name := "Detail"
  fields := (Record.make Detail.mk
    |>.field Detail.statusCode (plain "status_code" i32)
    |>.field Detail.message (plain "message" string)
    |>.field Detail.data (skipIf Option.isNone "data" (option value))).rename pascalCase
  nodup := by
    simp only [Record.names_rename, Record.names, plain, skipIf]
    decide

structure ResponseAudit (F : Type) where
  time : String
  detail : Detail F

def responseAudit (F : Type) : Struct F (ResponseAudit F) where
  name := "ResponseAudit"
  fields := (Record.make ResponseAudit.mk
    |>.field ResponseAudit.time (plain "time" string)
    |>.field ResponseAudit.detail (plain "detail" (detail F).codec)).rename pascalCase
  nodup := by
    simp only [Record.names_rename, Record.names, plain]
    decide

structure RequestAudit (F : Type) where
  time : String
  path : String
  queryString : Option (Json F)
  header : Option (Json F)
  param : Option (Json F)
  body : Option (Json F)
  ipAddress : String
  browserId : I64
  latitude : String
  longitude : String

def requestAudit (F : Type) : Struct F (RequestAudit F) where
  name := "RequestAudit"
  fields := (Record.make RequestAudit.mk
    |>.field RequestAudit.time (plain "time" string)
    |>.field RequestAudit.path (skipIf String.isEmpty "path" string)
    |>.field RequestAudit.queryString (skipIf Option.isNone "query_string" (option value))
    |>.field RequestAudit.header (skipIf Option.isNone "header" (option value))
    |>.field RequestAudit.param (skipIf Option.isNone "param" (option value))
    |>.field RequestAudit.body (skipIf Option.isNone "body" (option value))
    |>.field RequestAudit.ipAddress (skipIf String.isEmpty "ip_address" string)
    |>.field RequestAudit.browserId (skipIf isZeroI64 "browser_id" i64)
    |>.field RequestAudit.latitude (skipIf String.isEmpty "latitude" string)
    |>.field RequestAudit.longitude (skipIf String.isEmpty "longitude" string)).rename pascalCase
  nodup := by
    simp only [Record.names_rename, Record.names, plain, skipIf]
    decide

structure RequestAndResponse (F : Type) where
  request : RequestAudit F
  response : ResponseAudit F

def requestAndResponse (F : Type) : Struct F (RequestAndResponse F) where
  name := "RequestAndResponse"
  fields := (Record.make RequestAndResponse.mk
    |>.field RequestAndResponse.request (plain "request" (requestAudit F).codec)
    |>.field RequestAndResponse.response (plain "response" (responseAudit F).codec)).rename pascalCase
  nodup := by
    simp only [Record.names_rename, Record.names, plain]
    decide

structure AuditTrailData (F : Type) where
  subject : String
  function : String
  description : String
  key : Option (List String)
  source : String
  communicationType : String
  data : RequestAndResponse F

def auditTrailData (F : Type) : Struct F (AuditTrailData F) where
  name := "AuditTrailData"
  fields := (Record.make AuditTrailData.mk
    |>.field AuditTrailData.subject (skipIf String.isEmpty "subject" string)
    |>.field AuditTrailData.function (skipIf String.isEmpty "function" string)
    |>.field AuditTrailData.description (skipIf String.isEmpty "description" string)
    |>.field AuditTrailData.key (plain "key" (option (vec string)))
    |>.field AuditTrailData.source (plain "source" string)
    |>.field AuditTrailData.communicationType (plain "communication_type" string)
    |>.field AuditTrailData.data (plain "data" (requestAndResponse F).codec)).rename pascalCase
  nodup := by
    simp only [Record.names_rename, Record.names, plain, skipIf]
    decide

def RequestAudit.Filled (x : RequestAudit F) : Prop :=
  x.path ≠ "" ∧ x.ipAddress ≠ "" ∧ x.browserId.val ≠ 0 ∧ x.latitude ≠ "" ∧ x.longitude ≠ ""

def AuditTrailData.Filled (x : AuditTrailData F) : Prop :=
  x.subject ≠ "" ∧ x.function ≠ "" ∧ x.description ≠ "" ∧ x.data.request.Filled

/-! ## Transactions and traces -/

structure AuditTrailTrx (F : Type) where
  reffNo : String
  orderNo : String
  ticketId : String
  status : String
  state : String
  message : String
  service : String
  function : String
  description : String
  communicationType : String
  eventTime : String
  durationMs : I64
  amount : String
  currency : String
  merchantNo : String
  paymentCode : String
  qrValue : String
  rrn : String
  errorCode : String
  vendorName : String
  request : Option (Json F)
  response : Option (Json F)
  metadata : BTreeMap String (Json F)
  createdAt : String

def auditTrailTrx (F : Type) : Struct F (AuditTrailTrx F) where
  name := "AuditTrailTrx"
  fields := (Record.make AuditTrailTrx.mk
    |>.field AuditTrailTrx.reffNo (plain "reff_no" string)
    |>.field AuditTrailTrx.orderNo (plain "order_no" string)
    |>.field AuditTrailTrx.ticketId (skipIf String.isEmpty "ticket_id" string)
    |>.field AuditTrailTrx.status (plain "status" string)
    |>.field AuditTrailTrx.state (plain "state" string)
    |>.field AuditTrailTrx.message (plain "message" string)
    |>.field AuditTrailTrx.service (plain "service" string)
    |>.field AuditTrailTrx.function (plain "function" string)
    |>.field AuditTrailTrx.description (plain "description" string)
    |>.field AuditTrailTrx.communicationType (plain "communication_type" string)
    |>.field AuditTrailTrx.eventTime (plain "event_time" string)
    |>.field AuditTrailTrx.durationMs (skipIf isZeroI64 "duration_ms" i64)
    |>.field AuditTrailTrx.amount (skipIf String.isEmpty "amount" string)
    |>.field AuditTrailTrx.currency (skipIf String.isEmpty "currency" string)
    |>.field AuditTrailTrx.merchantNo (skipIf String.isEmpty "merchant_no" string)
    |>.field AuditTrailTrx.paymentCode (skipIf String.isEmpty "payment_code" string)
    |>.field AuditTrailTrx.qrValue (skipIf String.isEmpty "qr_value" string)
    |>.field AuditTrailTrx.rrn (skipIf String.isEmpty "rrn" string)
    |>.field AuditTrailTrx.errorCode (skipIf String.isEmpty "error_code" string)
    |>.field AuditTrailTrx.vendorName (skipIf String.isEmpty "vendor_name" string)
    |>.field AuditTrailTrx.request (skipIf Option.isNone "request" (option value))
    |>.field AuditTrailTrx.response (skipIf Option.isNone "response" (option value))
    |>.field AuditTrailTrx.metadata (skipIf BTreeMap.isEmpty "metadata" (map value))
    |>.field AuditTrailTrx.createdAt (defaulted "" "created_at" createdAt)).rename camelCase
  nodup := by
    simp only [Record.names_rename, Record.names, plain, skipIf, defaulted]
    decide

def AuditTrailTrx.Filled (x : AuditTrailTrx F) : Prop :=
  x.ticketId ≠ "" ∧ x.durationMs.val ≠ 0 ∧ x.amount ≠ "" ∧ x.currency ≠ "" ∧
    x.merchantNo ≠ "" ∧ x.paymentCode ≠ "" ∧ x.qrValue ≠ "" ∧ x.rrn ≠ "" ∧ x.errorCode ≠ "" ∧
    x.vendorName ≠ "" ∧ x.metadata.entries ≠ []

structure TraceHttp where
  method : String
  url : String
  status : U16
deriving DecidableEq, Repr

def traceHttp (F : Type) : Struct F TraceHttp where
  name := "TraceHttp"
  fields := (Record.make TraceHttp.mk
    |>.field TraceHttp.method (skipIf String.isEmpty "method" string)
    |>.field TraceHttp.url (skipIf String.isEmpty "url" string)
    |>.field TraceHttp.status (skipIf isZeroU16 "status" u16)).rename camelCase
  nodup := by
    simp only [Record.names_rename, Record.names, skipIf]
    decide

def TraceHttp.Filled (x : TraceHttp) : Prop :=
  x.method ≠ "" ∧ x.url ≠ "" ∧ x.status.val ≠ 0

structure TransactionTrace (F : Type) where
  v : U8
  event : String
  kind : String
  leg : String
  direction : String
  service : String
  function : String
  peer : String
  transport : String
  status : String
  mId : I64
  merchantCode : String
  trxId : I64
  trxNo : String
  trxReferenceNo : String
  trxPayCode1 : String
  trxPcId : I32
  ticketId : String
  externalId : String
  requestId : String
  traceparent : String
  callbackDirection : String
  attemptId : String
  cycle : I32
  attempt : I32
  http : Option TraceHttp
  request : Option (Json F)
  response : Option (Json F)
  message : String
  errorCode : String
  durationMs : I64
  eventTime : String

def transactionTrace (F : Type) : Struct F (TransactionTrace F) where
  name := "TransactionTrace"
  fields := (Record.make TransactionTrace.mk
    |>.field TransactionTrace.v (plain "v" u8)
    |>.field TransactionTrace.event (plain "event" string)
    |>.field TransactionTrace.kind (plain "kind" string)
    |>.field TransactionTrace.leg (plain "leg" string)
    |>.field TransactionTrace.direction (plain "direction" string)
    |>.field TransactionTrace.service (plain "service" string)
    |>.field TransactionTrace.function (plain "function" string)
    |>.field TransactionTrace.peer (skipIf String.isEmpty "peer" string)
    |>.field TransactionTrace.transport (plain "transport" string)
    |>.field TransactionTrace.status (plain "status" string)
    |>.field TransactionTrace.mId (skipIf isZeroI64 "m_id" i64)
    |>.field TransactionTrace.merchantCode (skipIf String.isEmpty "merchant_code" string)
    |>.field TransactionTrace.trxId (skipIf isZeroI64 "trx_id" i64)
    |>.field TransactionTrace.trxNo (skipIf String.isEmpty "trx_no" string)
    |>.field TransactionTrace.trxReferenceNo (skipIf String.isEmpty "trx_reference_no" string)
    |>.field TransactionTrace.trxPayCode1 (skipIf String.isEmpty "trx_pay_code1" string)
    |>.field TransactionTrace.trxPcId (skipIf isZeroI32 "trx_pc_id" i32)
    |>.field TransactionTrace.ticketId (skipIf String.isEmpty "ticket_id" string)
    |>.field TransactionTrace.externalId (skipIf String.isEmpty "external_id" string)
    |>.field TransactionTrace.requestId (skipIf String.isEmpty "request_id" string)
    |>.field TransactionTrace.traceparent (skipIf String.isEmpty "traceparent" string)
    |>.field TransactionTrace.callbackDirection (skipIf String.isEmpty "callback_direction" string)
    |>.field TransactionTrace.attemptId (skipIf String.isEmpty "attempt_id" string)
    |>.field TransactionTrace.cycle (skipIf isZeroI32 "cycle" i32)
    |>.field TransactionTrace.attempt (skipIf isZeroI32 "attempt" i32)
    |>.field TransactionTrace.http (skipIf Option.isNone "http" (option (traceHttp F).codec))
    |>.field TransactionTrace.request (skipIf Option.isNone "request" (option value))
    |>.field TransactionTrace.response (skipIf Option.isNone "response" (option value))
    |>.field TransactionTrace.message (skipIf String.isEmpty "message" string)
    |>.field TransactionTrace.errorCode (skipIf String.isEmpty "error_code" string)
    |>.field TransactionTrace.durationMs (skipIf isZeroI64 "duration_ms" i64)
    |>.field TransactionTrace.eventTime (plain "event_time" string)).rename camelCase
  nodup := by
    simp only [Record.names_rename, Record.names, plain, skipIf]
    decide

def TransactionTrace.Filled (x : TransactionTrace F) : Prop :=
  x.peer ≠ "" ∧ x.mId.val ≠ 0 ∧ x.merchantCode ≠ "" ∧ x.trxId.val ≠ 0 ∧ x.trxNo ≠ "" ∧
    x.trxReferenceNo ≠ "" ∧ x.trxPayCode1 ≠ "" ∧ x.trxPcId.val ≠ 0 ∧ x.ticketId ≠ "" ∧
    x.externalId ≠ "" ∧ x.requestId ≠ "" ∧ x.traceparent ≠ "" ∧ x.callbackDirection ≠ "" ∧
    x.attemptId ≠ "" ∧ x.cycle.val ≠ 0 ∧ x.attempt.val ≠ 0 ∧ (∀ http ∈ x.http, http.Filled) ∧
    x.message ≠ "" ∧ x.errorCode ≠ "" ∧ x.durationMs.val ≠ 0

/-! ## What is read back -/

def Detail.normal (x : Detail F) : Detail F := { x with data := readNull x.data }

def ResponseAudit.normal (x : ResponseAudit F) : ResponseAudit F :=
  { x with detail := x.detail.normal }

def RequestAudit.normal (x : RequestAudit F) : RequestAudit F :=
  { x with
    queryString := readNull x.queryString, header := readNull x.header, param := readNull x.param,
    body := readNull x.body }

def RequestAndResponse.normal (x : RequestAndResponse F) : RequestAndResponse F :=
  ⟨x.request.normal, x.response.normal⟩

def AuditTrailData.normal (x : AuditTrailData F) : AuditTrailData F :=
  { x with data := x.data.normal }

def AuditTrailTrx.normal (x : AuditTrailTrx F) : AuditTrailTrx F :=
  { x with
    request := readNull x.request, response := readNull x.response,
    createdAt := if x.createdAt.isEmpty then zeroTime else x.createdAt }

def TransactionTrace.normal (x : TransactionTrace F) : TransactionTrace F :=
  { x with request := readNull x.request, response := readNull x.response }

@[simp] theorem isZero_eq_false {lo hi : ℤ} (value : Ranged lo hi) :
    isZero value = false ↔ value.val ≠ 0 := by
  simp [isZero]

@[simp] theorem isEmpty_eq_false {V : Type} (m : BTreeMap String V) :
    m.isEmpty = false ↔ m.entries ≠ [] := by
  simp [BTreeMap.isEmpty]

theorem createdAt_trip (value : String) :
    (createdAt : Codec F String).trip value = .ok (if value.isEmpty then zeroTime else value) :=
  rfl

@[simp] theorem createdAt_kept (value : String) : (createdAt : Codec F String).Kept value :=
  Codec.kept_of_trip (createdAt_trip value)

@[simp] theorem createdAt_back (value : String) :
    (createdAt : Codec F String).back value = if value.isEmpty then zeroTime else value :=
  Codec.back_of_trip (createdAt_trip value)

@[simp] theorem metadata_exact : (map value : Codec F (BTreeMap String (Json F))).Exact :=
  map_exact value_exact

theorem auditTrailProcess_trip (x y : AuditTrailProcess) :
    (auditTrailProcess F).codec.trip x = .ok y ↔ x.Filled ∧ x = y := by
  rw [Struct.trip_eq_ok]
  simp [auditTrailProcess, Record.Kept, Record.back, AuditTrailProcess.Filled, and_assoc]

theorem detail_trip (x : Detail F) : (detail F).codec.trip x = .ok x.normal := by
  rw [Struct.trip_eq_ok]
  simp [detail, Record.Kept, Record.back, Detail.normal]

theorem responseAudit_trip (x : ResponseAudit F) :
    (responseAudit F).codec.trip x = .ok x.normal := by
  have hdetail := detail_trip x.detail
  rw [Struct.trip_eq_ok]
  simp [responseAudit, Record.Kept, Record.back, ResponseAudit.normal, -Struct.kept_iff,
    Codec.kept_of_trip hdetail, Codec.back_of_trip hdetail]

theorem requestAudit_trip (x y : RequestAudit F) :
    (requestAudit F).codec.trip x = .ok y ↔ x.Filled ∧ x.normal = y := by
  rw [Struct.trip_eq_ok]
  simp [requestAudit, Record.Kept, Record.back, RequestAudit.Filled, RequestAudit.normal,
    isZeroI64, and_assoc]

theorem requestAndResponse_trip (x y : RequestAndResponse F) :
    (requestAndResponse F).codec.trip x = .ok y ↔ x.request.Filled ∧ x.normal = y := by
  have hkept : ∀ x : RequestAndResponse F,
      (requestAndResponse F).fields.Kept x ↔ x.request.Filled := by
    intro x
    simp [requestAndResponse, Record.Kept, -Struct.kept_iff,
      (Codec.spec_of_trip requestAudit_trip x.request).1,
      Codec.kept_of_trip (responseAudit_trip x.response)]
  have hback : ∀ x : RequestAndResponse F, x.request.Filled →
      (requestAndResponse F).fields.back x = x.normal := by
    intro x hfilled
    simp [requestAndResponse, Record.back, RequestAndResponse.normal,
      (Codec.spec_of_trip requestAudit_trip x.request).2 hfilled,
      Codec.back_of_trip (responseAudit_trip x.response)]
  exact Struct.spec hkept hback x y

theorem auditTrailData_trip (x y : AuditTrailData F) :
    (auditTrailData F).codec.trip x = .ok y ↔ x.Filled ∧ x.normal = y := by
  have hdata := fun x : AuditTrailData F => Codec.spec_of_trip requestAndResponse_trip x.data
  have hkept : ∀ x : AuditTrailData F, (auditTrailData F).fields.Kept x ↔ x.Filled := by
    intro x
    simp [auditTrailData, Record.Kept, AuditTrailData.Filled, -Struct.kept_iff, (hdata x).1,
      and_assoc]
  have hback : ∀ x : AuditTrailData F, x.Filled → (auditTrailData F).fields.back x = x.normal := by
    intro x hfilled
    simp [auditTrailData, Record.back, AuditTrailData.normal, (hdata x).2 hfilled.2.2.2]
  exact Struct.spec hkept hback x y

theorem auditTrailTrx_trip (x y : AuditTrailTrx F) :
    (auditTrailTrx F).codec.trip x = .ok y ↔ x.Filled ∧ x.normal = y := by
  rw [Struct.trip_eq_ok]
  simp [auditTrailTrx, Record.Kept, Record.back, AuditTrailTrx.Filled, AuditTrailTrx.normal,
    isZeroI64, and_assoc]

theorem traceHttp_trip (x y : TraceHttp) :
    (traceHttp F).codec.trip x = .ok y ↔ x.Filled ∧ x = y := by
  rw [Struct.trip_eq_ok]
  simp [traceHttp, Record.Kept, Record.back, TraceHttp.Filled, isZeroU16, and_assoc]

theorem transactionTrace_trip (x y : TransactionTrace F) :
    (transactionTrace F).codec.trip x = .ok y ↔ x.Filled ∧ x.normal = y := by
  have hkept : ∀ http, (traceHttp F).codec.Kept http ↔ http.Filled :=
    fun http => (Codec.spec_of_trip traceHttp_trip http).1
  have hback : ∀ http, (traceHttp F).codec.back http = http :=
    Codec.back_eq_self fun http y h => ((traceHttp_trip http y).mp h).2.symm
  rw [Struct.trip_eq_ok]
  simp [transactionTrace, Record.Kept, Record.back, TransactionTrace.Filled, -Struct.kept_iff,
    TransactionTrace.normal, isZeroI64, isZeroI32, hkept, hback, and_assoc]

end PaycloudHelper.Audit
