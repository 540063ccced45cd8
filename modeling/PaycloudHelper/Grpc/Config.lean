import Mathlib
import PaycloudHelper.Core.Environment
import PaycloudHelper.Library.ParseInt
import PaycloudHelper.Library.Whitespace

/-!
# The gRPC settings

All of them are read at once. Durations are in nanoseconds, integers are those of a 64-bit
target, and the reader of a double is given. With overflow checks a product that does not
fit panics, which gives `none`; without them it wraps.
-/

namespace PaycloudHelper.Discovery

/-- What the start-up of a channel reads of the settings. -/
structure DialConfig where
  transactionMaxPool : ℕ
  merchantMaxPool : ℕ
  configMaxPool : ℕ
  maxRetries : ℕ
  initialBackoff : ℕ
  maxBackoff : ℕ
deriving DecidableEq, Repr

def defaultMaxPool : ℕ := 2

def DialConfig.defaults : DialConfig where
  transactionMaxPool := defaultMaxPool
  merchantMaxPool := defaultMaxPool
  configMaxPool := defaultMaxPool
  maxRetries := 3
  initialBackoff := 100000000
  maxBackoff := 30000000000

end PaycloudHelper.Discovery

namespace PaycloudHelper.Grpc

open ParseInt Whitespace
open Discovery (DialConfig defaultMaxPool)

/-! ## Reading one setting -/

def envParsed {α : Type} (parse : List Char → Option α) (env : Environment) (key : String)
    (default : α) : α :=
  match env key with
  | some v => if blank v then default else (parse (trim v)).getD default
  | none => default

def envString (env : Environment) (key default : String) : String :=
  match env key with
  | some v => if v.isEmpty then default else v
  | none => default

def envBool (env : Environment) (key : String) (default : Bool) : Bool :=
  match env key with
  | some v => (parseBoolGo (.ofList (trim v))).getD default
  | none => default

def u64 (text : List Char) : Option ℕ := (parseUnsigned 64 text).toOption

def u32 (text : List Char) : Option ℕ := (parseUnsigned 32 text).toOption

def usize (text : List Char) : Option ℕ := (parseUnsigned 64 text).toOption

def mulU64 (checks : Bool) (a b : ℕ) : Option ℕ :=
  if a * b < 2 ^ 64 then some (a * b)
  else if checks then none
  else some (a * b % 2 ^ 64)

def fromMillis (n : ℕ) : ℕ := n * 10 ^ 6

def fromSecs (n : ℕ) : ℕ := n * 10 ^ 9

/-! ## All settings -/

inductive TlsMode
  | insecure
  | tls
deriving DecidableEq, Repr

structure GrpcConfig (F : Type) extends DialConfig where
  healthcheckIntervalSecs : ℕ
  healthcheckEnabled : Bool
  grpcPort : String
  tlsMode : TlsMode
  clientCaFile : Option String
  keepAliveTime : ℕ
  keepAliveTimeout : ℕ
  permitWithoutStream : Bool
  backoffMultiplier : F
  maxIdle : ℕ
  maxLife : ℕ

def defaultHealthcheckIntervalSecs : ℕ := 120
def defaultHealthcheckEnabled : Bool := true
def defaultMaxIdleMinutes : ℕ := 30
def defaultMaxLifeHours : ℕ := 24

section
variable {F : Type} (f64 : List Char → Option F) (defaultBackoffMultiplier : F)

def GrpcConfig.parseEnv (checks : Bool) (env : Environment) : Option (GrpcConfig F) := do
  let maxIdle ← mulU64 checks (envParsed u64 env "GRPC_MAX_IDLE" defaultMaxIdleMinutes) 60
  let maxLife ← mulU64 checks (envParsed u64 env "GRPC_MAX_LIFE" defaultMaxLifeHours) 3600
  some
    { transactionMaxPool := envParsed usize env "GRPC_TRANSACTION_MAX_POOL" defaultMaxPool
      merchantMaxPool := envParsed usize env "GRPC_MERCHANT_MAX_POOL" defaultMaxPool
      configMaxPool := envParsed usize env "GRPC_CONFIG_MAX_POOL" defaultMaxPool
      healthcheckIntervalSecs :=
        envParsed u64 env "GRPC_HEALTHCHECK_INTERVAL" defaultHealthcheckIntervalSecs
      healthcheckEnabled := envBool env "GRPC_HEALTHCHECK" defaultHealthcheckEnabled
      grpcPort := envString env "GRPC_PORT" "9333"
      tlsMode := if envString env "GRPC_TLS_MODE" "" = "tls" then .tls else .insecure
      clientCaFile :=
        let s := envString env "GRPC_CLIENT_CA_FILE" ""
        if s.isEmpty then none else some s
      keepAliveTime := fromSecs (envParsed u64 env "GRPC_KEEP_ALIVE_TIME" 30)
      keepAliveTimeout := fromSecs (envParsed u64 env "GRPC_KEEP_ALIVE_TIMEOUT" 10)
      permitWithoutStream := envBool env "GRPC_PERMIT_WITHOUT_STREAM" true
      maxRetries := envParsed u32 env "GRPC_MAX_RETRIES" 3
      initialBackoff := fromMillis (envParsed u64 env "GRPC_INITIAL_BACKOFF" 100)
      maxBackoff := fromSecs (envParsed u64 env "GRPC_MAX_BACKOFF" 30)
      backoffMultiplier := envParsed f64 env "GRPC_BACKOFF_MULTIPLIER" defaultBackoffMultiplier
      maxIdle := fromSecs maxIdle
      maxLife := fromSecs maxLife }

/-! ## What the settings mean -/

/-- The integer that the variable holds, if it is set and its text is one. -/
def held (env : Environment) (key : String) : Option ℕ :=
  (env key).bind fun v => (parseUnsigned 64 (trim v)).toOption

def setting (env : Environment) (key : String) (default : ℕ) : ℕ := (held env key).getD default

def millisecond : ℕ := 10 ^ 6
def second : ℕ := 1000 * millisecond
def minute : ℕ := 60 * second
def hour : ℕ := 60 * minute

/-- No overflow, and every duration is its setting in the unit of the setting. -/
def Exact (checks : Bool) (env : Environment) : Prop :=
  ∃ config, GrpcConfig.parseEnv f64 defaultBackoffMultiplier checks env = some config ∧
    config.keepAliveTime = setting env "GRPC_KEEP_ALIVE_TIME" 30 * second ∧
    config.keepAliveTimeout = setting env "GRPC_KEEP_ALIVE_TIMEOUT" 10 * second ∧
    config.initialBackoff = setting env "GRPC_INITIAL_BACKOFF" 100 * millisecond ∧
    config.maxBackoff = setting env "GRPC_MAX_BACKOFF" 30 * second ∧
    config.maxIdle = setting env "GRPC_MAX_IDLE" 30 * minute ∧
    config.maxLife = setting env "GRPC_MAX_LIFE" 24 * hour

theorem trim_of_blank {v : String} (h : blank v = true) : trim v = [] := by
  have hall : ∀ c ∈ v.toList, isWhitespace c = true := List.all_eq_true.mp h
  rw [trim, List.dropWhile_eq_nil_iff.mpr hall, List.rdropWhile_nil]

theorem envParsed_u64 (env : Environment) (key : String) (default : ℕ) :
    envParsed u64 env key default = setting env key default := by
  unfold envParsed setting held
  cases env key with
  | none => rfl
  | some v =>
    by_cases hblank : blank v = true
    · simp [hblank, trim_of_blank hblank, parseUnsigned, Except.toOption]
    · simp [hblank, u64]

theorem mulU64_exact_iff {checks : Bool} {a b : ℕ} :
    mulU64 checks a b = some (a * b) ↔ a * b < 2 ^ 64 := by
  unfold mulU64
  split_ifs with hfits hchecks
  · exact iff_of_true rfl hfits
  · exact iff_of_false nofun hfits
  · refine iff_of_false (fun h => hfits ?_) hfits
    rw [← Option.some.inj h]
    exact Nat.mod_lt _ (by norm_num)

theorem parseEnv_eq_some {checks : Bool} {env : Environment} {config : GrpcConfig F}
    (h : GrpcConfig.parseEnv f64 defaultBackoffMultiplier checks env = some config) :
    ∃ maxIdle maxLife,
      mulU64 checks (setting env "GRPC_MAX_IDLE" 30) 60 = some maxIdle ∧
      mulU64 checks (setting env "GRPC_MAX_LIFE" 24) 3600 = some maxLife ∧
      config.maxIdle = fromSecs maxIdle ∧ config.maxLife = fromSecs maxLife := by
  obtain ⟨maxIdle, hidle, h⟩ := Option.bind_eq_some_iff.mp h
  obtain ⟨maxLife, hlife, h⟩ := Option.bind_eq_some_iff.mp h
  obtain rfl := Option.some.inj h
  rw [envParsed_u64] at hidle hlife
  exact ⟨maxIdle, maxLife, hidle, hlife, rfl, rfl⟩

theorem Exact.fits {checks : Bool} {env : Environment}
    (h : Exact f64 defaultBackoffMultiplier checks env) :
    setting env "GRPC_MAX_IDLE" 30 * 60 < 2 ^ 64 ∧
      setting env "GRPC_MAX_LIFE" 24 * 3600 < 2 ^ 64 := by
  obtain ⟨config, hparse, -, -, -, -, hidle, hlife⟩ := h
  obtain ⟨maxIdle, maxLife, hmulIdle, hmulLife, hidle', hlife'⟩ := parseEnv_eq_some _ _ hparse
  have hIdle : maxIdle = setting env "GRPC_MAX_IDLE" 30 * 60 := by
    rw [hidle'] at hidle
    unfold fromSecs minute second millisecond at hidle
    omega
  have hLife : maxLife = setting env "GRPC_MAX_LIFE" 24 * 3600 := by
    rw [hlife'] at hlife
    unfold fromSecs hour minute second millisecond at hlife
    omega
  rw [hIdle] at hmulIdle
  rw [hLife] at hmulLife
  exact ⟨mulU64_exact_iff.mp hmulIdle, mulU64_exact_iff.mp hmulLife⟩

/-- Only the minutes and the hours are scaled before they are a duration. -/
theorem config_exact_iff (checks : Bool) (env : Environment) :
    Exact f64 defaultBackoffMultiplier checks env ↔
      setting env "GRPC_MAX_IDLE" 30 ≤ 307445734561825860 ∧
        setting env "GRPC_MAX_LIFE" 24 ≤ 5124095576030431 := by
  constructor
  · intro h
    have hfits := h.fits
    omega
  · rintro ⟨hidle, hlife⟩
    have hmulIdle : mulU64 checks (setting env "GRPC_MAX_IDLE" 30) 60 =
        some (setting env "GRPC_MAX_IDLE" 30 * 60) := mulU64_exact_iff.mpr (by omega)
    have hmulLife : mulU64 checks (setting env "GRPC_MAX_LIFE" 24) 3600 =
        some (setting env "GRPC_MAX_LIFE" 24 * 3600) := mulU64_exact_iff.mpr (by omega)
    unfold Exact GrpcConfig.parseEnv
    simp only [envParsed_u64, defaultMaxIdleMinutes, defaultMaxLifeHours, hmulIdle, hmulLife,
      Option.bind_eq_bind, Option.bind_some]
    refine ⟨_, rfl, rfl, rfl, rfl, rfl, ?_, ?_⟩
    · dsimp only
      unfold fromSecs minute second millisecond
      omega
    · dsimp only
      unfold fromSecs hour minute second millisecond
      omega

end

/-- As many minutes as are 44 seconds more than 2^64 seconds. -/
theorem long_idle_wraps :
    let env : Environment := fun key =>
      if key = "GRPC_MAX_IDLE" then some "307445734561825861" else none
    (GrpcConfig.parseEnv (fun _ => none) 2 false env).map GrpcConfig.maxIdle = some (44 * second) ∧
      (GrpcConfig.parseEnv (fun _ => none) 2 true env).isNone = true ∧
      ¬ Exact (fun _ => none) 2 false env ∧ ¬ Exact (fun _ => none) 2 true env := by
  intro env
  have hsetting : setting env "GRPC_MAX_IDLE" 30 = 307445734561825861 := by decide
  have hnot : ∀ checks, ¬ Exact (fun _ => none) 2 checks env := by
    intro checks h
    have hfits := h.fits
    omega
  exact ⟨by decide, by decide, hnot false, hnot true⟩

end PaycloudHelper.Grpc
