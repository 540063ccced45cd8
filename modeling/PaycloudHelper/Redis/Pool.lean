import Mathlib
import PaycloudHelper.Library.ParseInt
import PaycloudHelper.Library.Programs
import PaycloudHelper.Library.Words

/-!
# The Redis pool

Storing and fetching one key. A call sends one command; what comes back is a reply, an
error, or nothing within `op_timeout`. Durations are in nanoseconds, `i64` values are
integers, and the environment is a function of the variable's name.
-/

namespace PaycloudHelper.Redis

open Programs ParseInt
open Words (i64Max)

inductive Command
  | get (key : String)
  | set (key json : String)
  | psetEx (key json : String) (ms : ℕ)
deriving DecidableEq, Repr

inductive Reply (α : Type)
  | ok (value : α)
  | failed (error : String)
  | timedOut
deriving DecidableEq, Repr

def Command.Answer : Command → Type
  | .get _ => Reply (Option String)
  | .set _ _ | .psetEx _ _ _ => Reply Unit

structure RedisPool where
  env : String → Option String

def RedisPool.envI64 (pool : RedisPool) (name : String) : Option ℤ :=
  (pool.env name).bind fun text => (parseSigned 64 text.toList).toOption

def defaultMaxTtlMinutes : ℤ := 30 * 24 * 60

def RedisPool.maxTtlMinutes (pool : RedisPool) : ℤ :=
  match pool.envI64 "REDIS_MAX_TTL_MINUTES" with
  | some n => if 0 < n then n else defaultMaxTtlMinutes
  | none => defaultMaxTtlMinutes

def saturatingMul (a b : ℤ) : ℤ := max (-2 ^ 63) (min (a * b) i64Max)

def clampTtlWithMax (ttlMs maxMinutes : ℤ) : ℤ :=
  if ttlMs < 0 then 0
  else
    let maxMs := saturatingMul maxMinutes 60000
    if maxMs < ttlMs then maxMs else ttlMs

/-- The clamped duration, in milliseconds. -/
def RedisPool.clampTtl (pool : RedisPool) (d : ℕ) : ℕ :=
  let ms := min ((d / 1000000 : ℕ) : ℤ) i64Max
  (clampTtlWithMax ms pool.maxTtlMinutes).toNat

/-! ## Deadlines -/

def defaultOpTimeoutMs : ℤ := 1000

def opTimeoutMsFrom : Option ℤ → ℤ
  | some v => if 0 < v then v else defaultOpTimeoutMs
  | none => defaultOpTimeoutMs

def RedisPool.opTimeout (pool : RedisPool) : ℕ :=
  (opTimeoutMsFrom (pool.envI64 "REDIS_OP_TIMEOUT_MS")).toNat

def debugMillis (ms : ℕ) : String :=
  let rest := ms % 1000
  if ms < 1000 then toString ms ++ "ms"
  else if rest = 0 then toString (ms / 1000) ++ "s"
  else
    let digits := [rest / 100, rest / 10 % 10, rest % 10]
    let kept := (digits.reverse.dropWhile (· == 0)).reverse
    toString (ms / 1000) ++ "." ++ String.join (kept.map toString) ++ "s"

def RedisPool.finish {α : Type} (pool : RedisPool) (name : String) : Reply α → Except String α
  | .ok value => .ok value
  | .failed err => .error err
  | .timedOut => .error s!"[Redis] {name} timeout after {debugMillis pool.opTimeout}"

/-! ## The calls -/

/-- `json` is the value as the caller's serializer writes it. -/
def RedisPool.store (pool : RedisPool) (key : String) (json : Except String String) (ttl : ℕ) :
    Prog Command Command.Answer (Except String Unit) :=
  match json with
  | .error err => .done (.error err)
  | .ok json =>
    let ms := pool.clampTtl ttl
    if ms = 0 then .ask (.set key json) fun reply => .done (pool.finish "SET" reply)
    else .ask (.psetEx key json ms) fun reply => .done (pool.finish "SET" reply)

def RedisPool.get (pool : RedisPool) (key : String) :
    Prog Command Command.Answer (Except String (Option String)) :=
  .ask (.get key) fun reply => .done (pool.finish "GET" reply)

/-! ## Keys -/

def csrfKey (token : String) : String := s!"csrf-{token}"

def revokeTokenKey (merchantId : ℤ) : String := s!"revoke_token_{merchantId}"

def lockKeyPrefix (appName : String) : String := s!"redis_lock:{appName}:"

def lockKey (appName name : String) : String := s!"{lockKeyPrefix appName}{name}"

end PaycloudHelper.Redis
