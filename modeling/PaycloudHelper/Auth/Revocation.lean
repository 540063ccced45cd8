import Mathlib
import PaycloudHelper.Auth.Idempotency
import PaycloudHelper.Library.JsonValues
import PaycloudHelper.Library.Whitespace

/-!
# The token middlewares

`verify_csrf` and `revoke_token` as programs over Redis commands and the inner handler.
The JWT library, the date parser and the JSON decoder are parameters; the clock and what
the request id generator draws are arguments.
-/

namespace PaycloudHelper.Auth

open Programs ParseInt Http Redis
open JsonValues (Json Number)
open Words (i64Max)

variable {V : Type}

def verifyCsrf (pool : RedisPool) (random : List UInt8) (request : Request) :
    Middleware V (Response V) :=
  let (requestId, request) := ensureRequestId random request
  let token := header request "x-xsrf-token"
  if token = "" ∨ 50 < token.utf8ByteSize ∨ charLibs token = false then
    .done (withRequestId (badRequest "invalid validation" "").intoResponse requestId)
  else do
    match ← onRedis (pool.get (csrfKey token)) with
    | .ok (some _) => runNext requestId request
    | .ok none => return withRequestId (unauthorized "token invalid").intoResponse requestId
    | .error err => return withRequestId (internalError err).intoResponse requestId

/-! ## Merchant ids -/

inductive F64
  | finite (value : ℚ)
  | infinite (negative : Bool)
  | nan
deriving DecidableEq

/-- The nearest number of at most `bits` significant bits, the even one of two. -/
def roundToEven (bits n : ℕ) : ℕ :=
  let unit := 2 ^ (n.log2 + 1 - bits)
  let q := n / unit
  let r := n % unit
  if unit < 2 * r ∨ (unit = 2 * r ∧ q % 2 = 1) then (q + 1) * unit else q * unit

def F64.ofInt (n : ℤ) : F64 := .finite (n.sign * roundToEven 53 n.natAbs)

/-- The cast saturates; `i64::MAX as f64` is 2^63. -/
def f64ToI64 : F64 → Option ℤ
  | .finite value =>
    if value.den = 1 ∧ -2 ^ 63 ≤ value ∧ value ≤ 2 ^ 63 then some (min value.num i64Max) else none
  | .infinite _ | .nan => none

def asI64 : Json F64 → Option ℤ
  | .number (.int value _ _) => if value ≤ i64Max then some value else none
  | _ => none

def asU64 : Json F64 → Option ℕ
  | .number (.int value _ _) => if 0 ≤ value then some value.toNat else none
  | _ => none

def asF64 : Json F64 → Option F64
  | .number (.int value _ _) => some (.ofInt value)
  | .number (.float value) => some value
  | _ => none

def asStr : Json F64 → Option String
  | .string value => some value
  | _ => none

def i64TryFrom (value : ℕ) : Option ℤ := if (value : ℤ) ≤ i64Max then some value else none

def merchantId (extra : List (String × Json F64)) : Option ℤ := do
  let value ← extra.lookup "MerchantId"
  asI64 value
    <|> (asU64 value).bind i64TryFrom
    <|> (asF64 value).bind f64ToI64
    <|> (asStr value).bind fun v => (parseSigned 64 v.toList).toOption

/-! ## Tokens -/

structure Claims where
  expired : String
  extra : List (String × Json F64)

structure Validation where
  algorithm : String
  validateExp : Bool
  validateAud : Bool
  requiredSpecClaims : List String
deriving DecidableEq, Repr

structure RevokeToken where
  status : ℤ
deriving DecidableEq, Repr

/-- Instants are in nanoseconds since the epoch. -/
structure TokenExternals (Key : Type) where
  fromRsaPem : String → Except String Key
  decode : String → Key → Validation → Except String Claims
  parseDateTime : String → Option ℤ
  revokeToken : String → Except String RevokeToken

section Revocation
variable {Key : Type} (ext : TokenExternals Key)

/-- `exp` is checked where a token has one, and no token needs one. -/
def rs256 : Validation := ⟨"RS256", true, false, []⟩

def verifyJwtRs256 (pubPem token : String) : Except String Claims :=
  match ext.fromRsaPem pubPem with
  | .error _ => .error "failed to build RS256 decoding key from PEM"
  | .ok key =>
    match ext.decode token key rs256 with
    | .error _ => .error "JWT verification failed (signature or non-RS256 alg)"
    | .ok claims => .ok claims

def revokedStatuses : List ℤ := [3, 4, 7]

def stripPrefix (text start : String) : Option String :=
  if start.toList.isPrefixOf text.toList then
    some (String.ofList (text.toList.drop start.toList.length))
  else none

def checkToken (publicKeyPem : String) (now : ℤ) (request : Request) :
    Except (ResponseApi V) ℤ :=
  let auth := header request "authorization"
  match stripPrefix auth "Bearer " with
  | none =>
    .error (unauthorized
      (if (Whitespace.words auth).length = 2 then "authorization token type does not match"
      else "invalid authorization token"))
  | some token =>
    match verifyJwtRs256 ext publicKeyPem token with
    | .error _ => .error (unauthorized "authorization token credentials do not match")
    | .ok claims =>
      match ext.parseDateTime claims.expired with
      | none => .error (unauthorized "invalid authorization token credentials")
      | some expired =>
        if expired < now then .error (unauthorized "authorization token has expired")
        else
          match merchantId claims.extra with
          | none => .error (unauthorized "invalid authorization token merchant")
          | some id => .ok id

def revoked (revoke : RevokeToken) : ResponseApi V :=
  .plain 401 "unauthorized" "revoke jwt token" (toString revoke.status)

def checkRevoked (pool : RedisPool) (requestId : String) (request : Request) (id : ℤ) :
    Middleware V (Response V) := do
  match ← onRedis (pool.get (revokeTokenKey id)) with
  | .ok none => runNext requestId request
  | .ok (some raw) =>
    match ext.revokeToken raw with
    | .ok revoke =>
      if revoke.status ∈ revokedStatuses then
        return withRequestId (revoked revoke).intoResponse requestId
      else runNext requestId request
    | .error err => return withRequestId (internalError err).intoResponse requestId
  | .error err => return withRequestId (internalError err).intoResponse requestId

def revokeToken (pool : RedisPool) (publicKeyPem : String) (now : ℤ) (random : List UInt8)
    (request : Request) : Middleware V (Response V) :=
  let (requestId, request) := ensureRequestId random request
  match checkToken ext publicKeyPem now request with
  | .error api => .done (withRequestId api.intoResponse requestId)
  | .ok id => checkRevoked ext pool requestId request id

theorem checkRevoked_eq (pool : RedisPool) (requestId : String) (request : Request) (id : ℤ) :
    checkRevoked (V := V) ext pool requestId request id =
      .ask (.redis (.get (revokeTokenKey id))) fun reply =>
        match pool.finish "GET" reply with
        | .ok none => runNext requestId request
        | .ok (some raw) =>
          match ext.revokeToken raw with
          | .ok revoke =>
            if revoke.status ∈ revokedStatuses then
              .done (withRequestId (revoked revoke).intoResponse requestId)
            else runNext requestId request
          | .error err => .done (withRequestId (internalError err).intoResponse requestId)
        | .error err => .done (withRequestId (internalError err).intoResponse requestId) := rfl

end Revocation

end PaycloudHelper.Auth
