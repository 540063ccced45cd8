import Mathlib
import PaycloudHelper.Core.Json
import PaycloudHelper.Http.Response
import PaycloudHelper.Redis.Pool

/-!
# The idempotency middleware

`verify_idempotency` as a program over Redis commands and the inner handler. The JSON
parser and serializer and MD5 are parameters; what the request id generator draws is an
argument.
-/

namespace PaycloudHelper.Auth

open Programs ParseInt Http Redis

structure Externals (V : Type) where
  fromSlice : List UInt8 → Except String V
  ignoredAny : List UInt8 → Except String Unit
  fromText : String → Except String V
  toText : V → String
  string : String → V
  md5 : List UInt8 → List UInt8

inductive Query
  | redis (command : Command)
  | next (request : Request)

def Query.Answer (V : Type) : Query → Type
  | .redis command => command.Answer
  | .next _ => Response V

abbrev Middleware (V α : Type) := Prog Query (Query.Answer V) α

variable {V : Type}

def onRedis {α : Type} (p : Prog Command Command.Answer α) : Middleware V α :=
  p.translate Query.redis fun _ reply => reply

/-! ## Validation rules -/

def keyChar (c : Char) : Bool := c == '-' || c.isAlphanum || c == '_'

def charLibs (value : String) : Bool := value == "" || value.toList.all keyChar

def numericNullLibs (value : String) : Bool :=
  match value.toList with
  | [] => true
  | '-' :: cs => !cs.isEmpty && cs.all Char.isDigit
  | cs => cs.all Char.isDigit

/-! ## Headers -/

def header (request : Request) (name : String) : String :=
  ((request.headers.get name).bind toStr).getD ""

def requestIdHeader : String := "x-request-id"

def ensureRequestId (random : List UInt8) (request : Request) : String × Request :=
  let id := getOrGenerateRequestId ((request.headers.get requestIdHeader).bind toStr) random
  match fromStr id with
  | some value => (id, { request with headers := request.headers.insert requestIdHeader value })
  | none => (id, request)

def withRequestId (response : Response V) (requestId : String) : Response V :=
  match fromStr requestId with
  | some value => { response with headers := response.headers.insert requestIdHeader value }
  | none => response

@[simp] theorem withRequestId_status (response : Response V) (requestId : String) :
    (withRequestId response requestId).status = response.status := by
  unfold withRequestId
  split <;> rfl

theorem header_ensureRequestId (random : List UInt8) (request : Request) {name : String}
    (h : name ≠ requestIdHeader) :
    header (ensureRequestId random request).2 name = header request name := by
  unfold ensureRequestId header
  dsimp only
  split
  · rw [HeaderMap.get_insert_of_ne _ h]
  · rfl

theorem body_ensureRequestId (random : List UInt8) (request : Request) :
    (ensureRequestId random request).2.body = request.body := by
  unfold ensureRequestId
  dsimp only
  split <;> rfl

/-! ## The checks -/

def idempotencyKey (ext : Externals V) (body : List UInt8) : Except String String :=
  (Json.jsonMinify ext.ignoredAny body).map fun minified => hexEncode (ext.md5 minified)

def verifyIdempotencyKey (ext : Externals V) (submitted : String) (body : List UInt8) :
    Except String Bool :=
  (idempotencyKey ext body).map fun key => submitted == key

def invalidSession : ResponseApi V :=
  badRequest "invalid session header format" "IDEM_INVALID_SESSION"

def sessionSecs (raw : String) : Except (ResponseApi V) ℕ :=
  if raw ≠ "" ∧ (60 < raw.utf8ByteSize ∨ numericNullLibs raw = false) then .error invalidSession
  else if raw = "" ∨ raw = "0" then .ok 9
  else
    match parseSigned 64 raw.toList with
    | .error _ => .error invalidSession
    | .ok value =>
      let session := if 4 ≤ value then value.toNat else 9
      .ok (if session < 4 then 9 else session)

structure Accepted (V : Type) where
  key : String
  session : ℕ
  bytes : List UInt8
  value : V

/-- Everything that is checked before Redis is asked. -/
def accept (ext : Externals V) (request : Request) : Except (ResponseApi V) (Accepted V) :=
  let key := header request "idempotency-key"
  if key = "" ∨ 50 < key.utf8ByteSize ∨ charLibs key = false then
    .error (badRequest "invalid idempotency key format" "IDEM_INVALID_FORMAT")
  else
    match sessionSecs (header request "session") with
    | .error api => .error api
    | .ok session =>
      if "application/json".toList.isPrefixOf (header request "content-type").toList = false then
        .error (badRequest "idempotency requires application/json" "IDEM_INVALID_BODY")
      else
        match toBytes request.body (2 * 1024 * 1024) with
        | .error err => .error (internalError err)
        | .ok bytes =>
          match ext.fromSlice bytes with
          | .error err => .error (badRequest err "IDEM_INVALID_BODY")
          | .ok value =>
            match verifyIdempotencyKey ext key bytes with
            | .ok true => .ok ⟨key, session, bytes, value⟩
            | .ok false =>
              .error (badRequest "idempotency key does not match request body" "IDEM_KEY_MISMATCH")
            | .error err => .error (badRequest err "IDEM_INVALID_BODY")

theorem accept_ensureRequestId (ext : Externals V) (random : List UInt8) (request : Request) :
    accept ext (ensureRequestId random request).2 = accept ext request := by
  unfold accept
  rw [header_ensureRequestId _ _ (by decide), header_ensureRequestId _ _ (by decide),
    header_ensureRequestId _ _ (by decide), body_ensureRequestId]

/-! ## The middleware -/

def inProcess (ext : Externals V) (cached : String) : ResponseApi V :=
  let data :=
    match ext.fromText cached with
    | .ok value => value
    | .error _ => ext.string cached
  ⟨202, "accepted", "your request in process", "", some data⟩

def runNext (requestId : String) (request : Request) : Middleware V (Response V) :=
  .ask (.next request) fun response => .done (withRequestId response requestId)

def storeAndRun (ext : Externals V) (pool : RedisPool) (requestId : String) (request : Request)
    (a : Accepted V) : Middleware V (Response V) := do
  match ← onRedis (pool.store a.key (.ok (ext.toText a.value)) (a.session * 1000000000)) with
  | .error err => return withRequestId (internalError err).intoResponse requestId
  | .ok () => runNext requestId { request with body := .ok a.bytes }

def lookUp (ext : Externals V) (pool : RedisPool) (requestId : String) (request : Request)
    (a : Accepted V) : Middleware V (Response V) := do
  match ← onRedis (pool.get a.key) with
  | .ok (some cached) => return withRequestId (inProcess ext cached).intoResponse requestId
  | .ok none => storeAndRun ext pool requestId request a
  | .error err => return withRequestId (internalError err).intoResponse requestId

def verifyIdempotency (ext : Externals V) (pool : RedisPool) (random : List UInt8)
    (request : Request) : Middleware V (Response V) :=
  let (requestId, request) := ensureRequestId random request
  match accept ext request with
  | .error api => .done (withRequestId api.intoResponse requestId)
  | .ok a => lookUp ext pool requestId request a

section
variable {ext : Externals V} {pool : RedisPool}

theorem lookUp_eq (requestId : String) (request : Request) (a : Accepted V) :
    lookUp ext pool requestId request a = .ask (.redis (.get a.key)) fun reply =>
      match pool.finish "GET" reply with
      | .ok (some cached) => .done (withRequestId (inProcess ext cached).intoResponse requestId)
      | .ok none => storeAndRun ext pool requestId request a
      | .error err => .done (withRequestId (internalError err).intoResponse requestId) := rfl

def stored (pool : RedisPool) (requestId : String) (request : Request) (a : Accepted V)
    (reply : Reply Unit) : Middleware V (Response V) :=
  match pool.finish "SET" reply with
  | .error err => .done (withRequestId (internalError err).intoResponse requestId)
  | .ok () => runNext requestId { request with body := .ok a.bytes }

theorem storeAndRun_cases (requestId : String) (request : Request) (a : Accepted V) :
    storeAndRun ext pool requestId request a =
        .ask (.redis (.set a.key (ext.toText a.value))) (stored pool requestId request a) ∨
      ∃ ms, storeAndRun ext pool requestId request a =
        .ask (.redis (.psetEx a.key (ext.toText a.value) ms)) (stored pool requestId request a) := by
  unfold storeAndRun RedisPool.store
  dsimp only
  split_ifs
  · exact Or.inl rfl
  · exact Or.inr ⟨_, rfl⟩

end

end PaycloudHelper.Auth
