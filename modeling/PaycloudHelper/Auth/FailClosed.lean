import Mathlib
import PaycloudHelper.Auth.Revocation

/-!
# The middlewares fail closed

Whatever Redis answers and however far a request gets, the inner handler is asked at
most once and only behind all checks, and everything that leaves carries the request id
that the handler sees.
-/

namespace PaycloudHelper.Auth

open Programs Http Redis

variable {V : Type}

abbrev Exchanges (V : Type) := List (Exchange Query (Query.Answer V))

def Query.isNext : Query → Bool
  | .redis _ => false
  | .next _ => true

def handlerRuns (es : Exchanges V) : ℕ := es.countP fun e => e.query.isNext

/-! ## Request ids -/

theorem visible_hexDigit : ∀ n < 16, visible (hexDigit n).toNat = true := by decide

theorem fromStr_hexEncode (bytes : List UInt8) : ∃ value, fromStr (hexEncode bytes) = some value := by
  refine ⟨_, if_pos ?_⟩
  rw [List.all_eq_true]
  intro c hc
  simp only [hexEncode, String.toList_ofList, List.mem_flatMap, List.mem_cons, List.not_mem_nil,
    or_false] at hc
  obtain ⟨b, -, rfl | rfl⟩ := hc
  · have hlt := b.toNat_lt
    exact visible_hexDigit _ (by omega)
  · exact visible_hexDigit _ (Nat.mod_lt _ (by decide))

theorem fromStr_toStr {value : List UInt8} {text : String} (h : toStr value = some text) :
    ∃ value', fromStr text = some value' := by
  unfold toStr at h
  split_ifs at h with hvisible
  obtain rfl := Option.some.inj h
  refine ⟨_, if_pos ?_⟩
  rw [List.all_eq_true] at hvisible ⊢
  intro c hc
  simp only [String.toList_ofList, List.mem_map] at hc
  obtain ⟨b, hb, rfl⟩ := hc
  have hlt := b.toNat_lt
  rw [Char.toNat_ofNat, if_pos (Or.inl (by omega))]
  exact hvisible b hb

theorem fromStr_requestId (headers : HeaderMap) (random : List UInt8) :
    ∃ value, fromStr (getOrGenerateRequestId ((headers.get requestIdHeader).bind toStr) random) =
      some value := by
  cases hid : (headers.get requestIdHeader).bind toStr with
  | none => exact fromStr_hexEncode random
  | some text =>
    obtain ⟨value, -, htext⟩ := Option.bind_eq_some_iff.mp hid
    simp only [getOrGenerateRequestId]
    split_ifs
    · exact fromStr_toStr htext
    · exact fromStr_hexEncode random

theorem get_insert_self (headers : HeaderMap) (name : String) (value : List UInt8) :
    (headers.insert name value).get name = some value := by
  simp [HeaderMap.get, HeaderMap.insert]

theorem ensureRequestId_fst (random : List UInt8) (request : Request) :
    (ensureRequestId random request).1 =
      getOrGenerateRequestId ((request.headers.get requestIdHeader).bind toStr) random := by
  unfold ensureRequestId
  dsimp only
  split <;> rfl

theorem ensureRequestId_spec (random : List UInt8) (request : Request) :
    ∃ value, fromStr (ensureRequestId random request).1 = some value ∧
      (ensureRequestId random request).2.headers.get requestIdHeader = some value := by
  obtain ⟨value, hvalue⟩ := fromStr_requestId request.headers random
  refine ⟨value, (congrArg fromStr (ensureRequestId_fst random request)).trans hvalue, ?_⟩
  simp only [ensureRequestId, hvalue, get_insert_self]

theorem withRequestId_get {requestId : String} {value : List UInt8}
    (h : fromStr requestId = some value) (response : Response V) :
    (withRequestId response requestId).headers.get requestIdHeader = some value := by
  simp only [withRequestId, h, get_insert_self]

/-! ## Failing closed -/

/-- The handler is asked at most once, for a request that carries the id and only where
`Allowed` holds of what was exchanged before; every response carries the id too. -/
structure FailsClosed (p : Middleware V (Response V)) (id : List UInt8)
    (Allowed : Exchanges V → Request → Prop) : Prop where
  once : ∀ es p', p.Follows es p' → handlerRuns es ≤ 1
  only : ∀ es request resume, p.Follows es (.ask (.next request) resume) →
    handlerRuns es = 0 ∧ Allowed es request ∧ request.headers.get requestIdHeader = some id
  answered : ∀ es response, p.Follows es (.done response) →
    response.headers.get requestIdHeader = some id

section Rules
variable (id : List UInt8) (Allowed : Exchanges V → Request → Prop)

def Asked (es : Exchanges V) : Query → Prop
  | .redis _ => handlerRuns es = 0
  | .next request =>
    handlerRuns es = 0 ∧ Allowed es request ∧ request.headers.get requestIdHeader = some id

def Ended (es : Exchanges V) (response : Response V) : Prop :=
  handlerRuns es ≤ 1 ∧ response.headers.get requestIdHeader = some id

variable {id Allowed}

theorem Asked.runs {es : Exchanges V} {q : Query} (h : Asked id Allowed es q) :
    handlerRuns es = 0 := by
  cases q with
  | redis command => exact h
  | next request => exact h.1

theorem failsClosed_of_always {p : Middleware V (Response V)}
    (h : p.Always (Asked id Allowed) (Ended id) []) : FailsClosed p id Allowed where
  once := by
    intro es p' hp
    have hp' := h.follows hp
    cases p' with
    | done response => exact hp'.1
    | ask q resume => exact hp'.1.runs.le.trans (Nat.zero_le 1)
  only := by
    intro es request resume hp
    exact (h.follows hp).1
  answered := by
    intro es response hp
    exact (h.follows hp).2

variable {requestId : String} {es : Exchanges V}

theorem always_respond (hid : fromStr requestId = some id) (hes : handlerRuns es = 0)
    (response : Response V) :
    Prog.Always (Asked id Allowed) (Ended id) es (.done (withRequestId response requestId)) :=
  ⟨hes.le.trans (Nat.zero_le 1), withRequestId_get hid response⟩

theorem always_runNext (hid : fromStr requestId = some id) (hes : handlerRuns es = 0)
    {request : Request} (hallowed : Allowed es request)
    (hrequest : request.headers.get requestIdHeader = some id) :
    Prog.Always (Asked id Allowed) (Ended id) es (runNext requestId request) := by
  refine ⟨⟨hes, hallowed, hrequest⟩, fun response => ⟨?_, withRequestId_get hid response⟩⟩
  have hone : handlerRuns [(⟨.next request, response⟩ : Exchange Query (Query.Answer V))] = 1 := rfl
  simp only [handlerRuns] at hes hone ⊢
  rw [List.countP_append, hes, hone]

end Rules

/-! ## The three middlewares -/

def requestIdOf (random : List UInt8) (request : Request) : List UInt8 :=
  ((ensureRequestId random request).2.headers.get requestIdHeader).getD []

theorem requestIdOf_spec (random : List UInt8) (request : Request) :
    fromStr (ensureRequestId random request).1 = some (requestIdOf random request) ∧
      (ensureRequestId random request).2.headers.get requestIdHeader =
        some (requestIdOf random request) := by
  obtain ⟨value, hid, hget⟩ := ensureRequestId_spec random request
  rw [requestIdOf, hget]
  exact ⟨hid, rfl⟩

def CsrfAllowed (random : List UInt8) (request : Request) (es : Exchanges V) (seen : Request) :
    Prop :=
  let token := header request "x-xsrf-token"
  token ≠ "" ∧ token.utf8ByteSize ≤ 50 ∧ (∀ c ∈ token.toList, keyChar c = true) ∧
    (∃ value, es = [⟨.redis (.get (csrfKey token)), .ok (some value)⟩]) ∧
    seen = (ensureRequestId random request).2

theorem keyChar_of_charLibs {value : String} (hne : value ≠ "") (h : charLibs value = true) :
    ∀ c ∈ value.toList, keyChar c = true := by
  simpa [charLibs, hne] using h

theorem finish_ok {α : Type} {pool : RedisPool} {name : String} {reply : Reply α} {value : α}
    (h : pool.finish name reply = .ok value) : reply = .ok value := by
  cases reply with
  | ok v =>
    obtain rfl : v = value := Except.ok.inj h
    rfl
  | failed | timedOut => cases h

theorem verifyCsrf_failsClosed (pool : RedisPool) (random : List UInt8) (request : Request) :
    FailsClosed (verifyCsrf (V := V) pool random request) (requestIdOf random request)
      (CsrfAllowed random request) := by
  obtain ⟨hid, hget⟩ := requestIdOf_spec random request
  have htoken := header_ensureRequestId random request
    (show "x-xsrf-token" ≠ requestIdHeader by decide)
  apply failsClosed_of_always
  unfold verifyCsrf
  dsimp only
  rw [htoken]
  split_ifs with hbad
  · exact always_respond hid rfl _
  · push Not at hbad
    refine ⟨rfl, fun reply => ?_⟩
    dsimp only
    cases hreply : pool.finish "GET" reply with
    | error err => exact always_respond hid rfl _
    | ok found =>
      cases found with
      | none => exact always_respond hid rfl _
      | some value =>
        obtain rfl := finish_ok hreply
        have hchars := keyChar_of_charLibs hbad.1 (by simpa using hbad.2.2)
        exact always_runNext hid rfl ⟨hbad.1, hbad.2.1, hchars, ⟨value, rfl⟩, rfl⟩ hget

section Revocation
variable {Key : Type} {ext : TokenExternals Key}

theorem stripPrefix_spec {text start rest : String} (h : stripPrefix text start = some rest) :
    text = start ++ rest := by
  unfold stripPrefix at h
  split_ifs at h with hprefix
  obtain rfl := Option.some.inj h
  apply String.toList_inj.mp
  rw [String.toList_append, String.toList_ofList]
  exact (List.prefix_iff_eq_append.mp (List.isPrefixOf_iff_prefix.mp hprefix)).symm

def TokenAccepted (ext : TokenExternals Key) (publicKeyPem : String) (now : ℤ) (request : Request)
    (id : ℤ) : Prop :=
  ∃ token claims expired, header request "authorization" = "Bearer " ++ token ∧
    verifyJwtRs256 ext publicKeyPem token = .ok claims ∧
    ext.parseDateTime claims.expired = some expired ∧ now ≤ expired ∧
    merchantId claims.extra = some id

theorem checkToken_ok {publicKeyPem : String} {now : ℤ} {request : Request} {id : ℤ}
    (h : checkToken (V := V) ext publicKeyPem now request = .ok id) :
    TokenAccepted ext publicKeyPem now request id := by
  unfold checkToken at h
  dsimp only at h
  split at h
  · cases h
  · rename_i token htoken
    split at h
    · cases h
    · rename_i claims hclaims
      split at h
      · cases h
      · rename_i expired hexpired
        split_ifs at h with hnow
        split at h
        · cases h
        · rename_i merchant hmerchant
          obtain rfl := Except.ok.inj h
          exact ⟨token, claims, expired, stripPrefix_spec htoken, hclaims, hexpired,
            not_lt.mp hnow, hmerchant⟩

theorem checkToken_ensureRequestId (publicKeyPem : String) (now : ℤ) (random : List UInt8)
    (request : Request) :
    checkToken (V := V) ext publicKeyPem now (ensureRequestId random request).2 =
      checkToken ext publicKeyPem now request := by
  unfold checkToken
  rw [header_ensureRequestId _ _ (by decide)]

/-- The token is accepted and Redis has no record under the merchant's key, or one that
decodes to a status that is not revoked. -/
def RevokeAllowed (ext : TokenExternals Key) (publicKeyPem : String) (now : ℤ)
    (random : List UInt8) (request : Request) (es : Exchanges V) (seen : Request) : Prop :=
  ∃ id answer, TokenAccepted ext publicKeyPem now request id ∧
    es = [⟨.redis (.get (revokeTokenKey id)), .ok answer⟩] ∧
    (∀ raw, answer = some raw → ∃ revoke, ext.revokeToken raw = .ok revoke ∧
      revoke.status ∉ revokedStatuses) ∧
    seen = (ensureRequestId random request).2

theorem always_checkRevoked {pool : RedisPool} {publicKeyPem requestId : String} {now : ℤ}
    {random : List UInt8} {request : Request} {id : ℤ} {value : List UInt8}
    (haccepted : TokenAccepted ext publicKeyPem now request id)
    (hid : fromStr requestId = some value)
    (hget : (ensureRequestId random request).2.headers.get requestIdHeader = some value) :
    Prog.Always (Asked value (RevokeAllowed (V := V) ext publicKeyPem now random request))
      (Ended value) [] (checkRevoked ext pool requestId (ensureRequestId random request).2 id) := by
  rw [checkRevoked_eq]
  refine ⟨rfl, fun reply => ?_⟩
  dsimp only
  cases hreply : pool.finish "GET" reply with
  | error err => exact always_respond hid rfl _
  | ok found =>
    obtain rfl := finish_ok hreply
    cases found with
    | none => exact always_runNext hid rfl ⟨id, none, haccepted, rfl, nofun, rfl⟩ hget
    | some raw =>
      dsimp only
      split
      · rename_i revoke hrevoke
        split_ifs with hstatus
        · exact always_respond hid rfl _
        · refine always_runNext hid rfl ⟨id, some raw, haccepted, rfl, ?_, rfl⟩ hget
          rintro _ ⟨⟩
          exact ⟨revoke, hrevoke, hstatus⟩
      · exact always_respond hid rfl _

theorem revokeToken_failsClosed (pool : RedisPool) (publicKeyPem : String) (now : ℤ)
    (random : List UInt8) (request : Request) :
    FailsClosed (revokeToken (V := V) ext pool publicKeyPem now random request)
      (requestIdOf random request) (RevokeAllowed ext publicKeyPem now random request) := by
  obtain ⟨hid, hget⟩ := requestIdOf_spec random request
  apply failsClosed_of_always
  unfold revokeToken
  dsimp only
  rw [checkToken_ensureRequestId]
  cases hcheck : checkToken ext publicKeyPem now request with
  | error api => exact always_respond hid rfl _
  | ok id => exact always_checkRevoked (checkToken_ok hcheck) hid hget

end Revocation

section Idempotency
variable {ext : Externals V}

/-- The key is the digest of the body, it was not found, and the body was stored under it
before the handler gets the same bytes. -/
def IdempotencyAllowed (ext : Externals V) (random : List UInt8) (request : Request)
    (es : Exchanges V) (seen : Request) : Prop :=
  let key := header request "idempotency-key"
  ∃ bytes minified value session, request.body = .ok bytes ∧
    Json.jsonMinify ext.ignoredAny bytes = .ok minified ∧ key = hexEncode (ext.md5 minified) ∧
    ext.fromSlice bytes = .ok value ∧
    sessionSecs (V := V) (header request "session") = .ok session ∧
    (es = [⟨.redis (.get key), .ok none⟩, ⟨.redis (.set key (ext.toText value)), .ok ()⟩] ∨
      ∃ ms, es = [⟨.redis (.get key), .ok none⟩,
        ⟨.redis (.psetEx key (ext.toText value) ms), .ok ()⟩]) ∧
    seen = { (ensureRequestId random request).2 with body := .ok bytes }

theorem toBytes_ok {body : Body} {limit : ℕ} {bytes : List UInt8}
    (h : toBytes body limit = .ok bytes) : body = .ok bytes := by
  unfold toBytes at h
  split at h
  · cases h
  · split_ifs at h
    rw [Except.ok.inj h]

theorem verifyIdempotencyKey_true {key : String} {bytes : List UInt8}
    (h : verifyIdempotencyKey ext key bytes = .ok true) :
    ∃ minified, Json.jsonMinify ext.ignoredAny bytes = .ok minified ∧
      key = hexEncode (ext.md5 minified) := by
  unfold verifyIdempotencyKey idempotencyKey at h
  cases hminify : Json.jsonMinify ext.ignoredAny bytes with
  | error err =>
    rw [hminify] at h
    cases h
  | ok minified =>
    rw [hminify] at h
    exact ⟨minified, rfl, by simpa [Except.map] using h⟩

theorem accept_ok {request : Request} {a : Accepted V} (h : accept ext request = .ok a) :
    a.key = header request "idempotency-key" ∧ request.body = .ok a.bytes ∧
      (∃ minified, Json.jsonMinify ext.ignoredAny a.bytes = .ok minified ∧
        a.key = hexEncode (ext.md5 minified)) ∧
      ext.fromSlice a.bytes = .ok a.value ∧
      sessionSecs (V := V) (header request "session") = .ok a.session := by
  unfold accept at h
  dsimp only at h
  split at h
  · cases h
  · split at h
    · cases h
    · rename_i session hsession
      split at h
      · cases h
      · split at h
        · cases h
        · rename_i bytes hbytes
          split at h
          · cases h
          · rename_i value hvalue
            split at h
            · rename_i hkey
              obtain rfl := Except.ok.inj h
              exact ⟨rfl, toBytes_ok hbytes, verifyIdempotencyKey_true hkey, hvalue, hsession⟩
            · cases h
            · cases h

theorem idempotencyAllowed_of_accept {random : List UInt8} {request : Request} {a : Accepted V}
    {es : Exchanges V} (ha : accept ext request = .ok a)
    (hes : es = [⟨.redis (.get a.key), .ok none⟩,
        ⟨.redis (.set a.key (ext.toText a.value)), .ok ()⟩] ∨
      ∃ ms, es = [⟨.redis (.get a.key), .ok none⟩,
        ⟨.redis (.psetEx a.key (ext.toText a.value) ms), .ok ()⟩]) :
    IdempotencyAllowed ext random request es
      { (ensureRequestId random request).2 with body := .ok a.bytes } := by
  obtain ⟨hkey, hbody, ⟨minified, hminify, hdigest⟩, hvalue, hsession⟩ := accept_ok ha
  rw [hkey] at hdigest hes
  exact ⟨a.bytes, minified, a.value, a.session, hbody, hminify, hdigest, hvalue, hsession, hes, rfl⟩

variable {pool : RedisPool} {requestId : String} {random : List UInt8} {request : Request}
  {a : Accepted V} {value : List UInt8}

theorem always_stored {es : Exchanges V} {reply : Reply Unit} (hid : fromStr requestId = some value)
    (hget : (ensureRequestId random request).2.headers.get requestIdHeader = some value)
    (hruns : handlerRuns es = 0)
    (hallowed : reply = .ok () → IdempotencyAllowed ext random request es
      { (ensureRequestId random request).2 with body := .ok a.bytes }) :
    Prog.Always (Asked value (IdempotencyAllowed ext random request)) (Ended value) es
      (stored pool requestId (ensureRequestId random request).2 a reply) := by
  unfold stored
  cases hreply : pool.finish "SET" reply with
  | error err => exact always_respond hid hruns _
  | ok _ => exact always_runNext hid hruns (hallowed (finish_ok hreply)) hget

theorem always_storeAndRun (ha : accept ext request = .ok a) (hid : fromStr requestId = some value)
    (hget : (ensureRequestId random request).2.headers.get requestIdHeader = some value) :
    Prog.Always (Asked value (IdempotencyAllowed ext random request)) (Ended value)
      [⟨.redis (.get a.key), .ok none⟩]
      (storeAndRun ext pool requestId (ensureRequestId random request).2 a) := by
  rcases @storeAndRun_cases V ext pool requestId (ensureRequestId random request).2 a
    with hprog | ⟨ms, hprog⟩
  · rw [hprog]
    refine ⟨rfl, fun reply => always_stored hid hget rfl ?_⟩
    rintro rfl
    exact idempotencyAllowed_of_accept ha (Or.inl rfl)
  · rw [hprog]
    refine ⟨rfl, fun reply => always_stored hid hget rfl ?_⟩
    rintro rfl
    exact idempotencyAllowed_of_accept ha (Or.inr ⟨ms, rfl⟩)

theorem verifyIdempotency_failsClosed (pool : RedisPool) (random : List UInt8)
    (request : Request) :
    FailsClosed (verifyIdempotency ext pool random request) (requestIdOf random request)
      (IdempotencyAllowed ext random request) := by
  obtain ⟨hid, hget⟩ := requestIdOf_spec random request
  apply failsClosed_of_always
  unfold verifyIdempotency
  dsimp only
  rw [accept_ensureRequestId]
  cases ha : accept ext request with
  | error api => exact always_respond hid rfl _
  | ok a =>
    dsimp only
    rw [lookUp_eq]
    refine ⟨rfl, fun reply => ?_⟩
    dsimp only
    cases hreply : pool.finish "GET" reply with
    | error err => exact always_respond hid rfl _
    | ok found =>
      obtain rfl := finish_ok hreply
      cases found with
      | some cached => exact always_respond hid rfl _
      | none => exact always_storeAndRun ha hid hget

end Idempotency

/-- All three middlewares, whatever the request and whatever Redis answers. -/
theorem middlewares_fail_closed {Key : Type} (tokens : TokenExternals Key) (ext : Externals V)
    (pool : RedisPool) (publicKeyPem : String) (now : ℤ) (random : List UInt8)
    (request : Request) :
    FailsClosed (verifyCsrf (V := V) pool random request) (requestIdOf random request)
        (CsrfAllowed random request) ∧
      FailsClosed (revokeToken (V := V) tokens pool publicKeyPem now random request)
        (requestIdOf random request) (RevokeAllowed tokens publicKeyPem now random request) ∧
      FailsClosed (verifyIdempotency ext pool random request) (requestIdOf random request)
        (IdempotencyAllowed ext random request) :=
  ⟨verifyCsrf_failsClosed pool random request,
    revokeToken_failsClosed pool publicKeyPem now random request,
    verifyIdempotency_failsClosed pool random request⟩

end PaycloudHelper.Auth
