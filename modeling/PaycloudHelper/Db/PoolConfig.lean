import Mathlib
import PaycloudHelper.Core.Environment
import PaycloudHelper.Library.ParseInt
import PaycloudHelper.Library.Rounding
import PaycloudHelper.Library.Words

/-!
# Database pools

The knobs of a pool as the environment sets them, and the pool options built from them.
Durations are in nanoseconds; `mul_f64` is exact up to its last rounding. A duration that
overflows panics, which gives `none`.
-/

namespace PaycloudHelper.Db

open ParseInt Rounding Words

def second : ℕ := 10 ^ 9

/-! ## Durations -/

def checkedDuration (ns : ℕ) : Option ℕ := if ns ≤ durationMax then some ns else none

def mulF64 (d : ℕ) (factor : ℚ) : Option ℕ := checkedDuration (roundTiesEven (d * factor))

def durationMinutes (d : ℕ) : ℤ := min ((d / second / 60 : ℕ) : ℤ) i64Max

def minutes (n : ℤ) : ℕ := min ((max n 0).toNat * 60) u64Max * second

def clamp (fraction : ℚ) : ℚ := max 0 (min fraction 1)

def applyLifetimeJitter (base : ℕ) (randFraction : ℚ) : Option ℕ :=
  if base = 0 then some base
  else do
    let extra ← mulF64 base (1 / 10 * clamp randFraction)
    checkedDuration (base + extra)

/-! ## Configurations -/

inductive DbError
  | unboundedMaxOpen (n : ℤ)
  | negativeMaxIdle (n : ℤ)
  | maxOpenOverflow (n : ℤ)
deriving DecidableEq, Repr

def DbError.text : DbError → String
  | .unboundedMaxOpen n => s!"phdb: MaxOpenConns must be > 0 (0 means unlimited); got {n}"
  | .negativeMaxIdle n => s!"phdb: MaxIdleConns must be >= 0; got {n}"
  | .maxOpenOverflow n => s!"phdb: MaxOpenConns {n} exceeds the u32 range accepted by sqlx"

structure PoolConfig where
  maxOpenConns : ℤ
  maxIdleConns : ℤ
  connMaxLifetime : ℕ
  connMaxIdleTime : ℕ
  dsn : Option String
deriving DecidableEq, Repr

def PoolConfig.default : PoolConfig := ⟨15, 15, 30 * 60 * second, 5 * 60 * second, none⟩

def envIntPositive (env : Environment) (key : String) (default : ℤ) : ℤ :=
  match env key with
  | some v =>
    match parseSigned 64 v.toList with
    | .ok n => if 0 < n then n else default
    | .error _ => default
  | none => default

def PoolConfig.fromEnv (env : Environment) (pre : String) : PoolConfig :=
  let d := PoolConfig.default
  let lifetimeMin :=
    envIntPositive env (pre ++ "_CONN_MAX_LIFETIME") (durationMinutes d.connMaxLifetime)
  let idleMin :=
    envIntPositive env (pre ++ "_CONN_MAX_IDLE_TIME") (durationMinutes d.connMaxIdleTime)
  { maxOpenConns := envIntPositive env (pre ++ "_MAX_OPEN_CONN") d.maxOpenConns
    maxIdleConns := envIntPositive env (pre ++ "_MAX_IDLE_CONN") d.maxIdleConns
    connMaxLifetime := minutes lifetimeMin
    connMaxIdleTime := minutes idleMin
    dsn := (env (pre ++ "_DSN")).filter fun s => !s.isEmpty }

def PoolConfig.validate (cfg : PoolConfig) : Except DbError Unit :=
  if cfg.maxOpenConns ≤ 0 then .error (.unboundedMaxOpen cfg.maxOpenConns)
  else if cfg.maxIdleConns < 0 then .error (.negativeMaxIdle cfg.maxIdleConns)
  else .ok ()

/-! ## Pool options -/

inductive Database
  | postgres
  | mySql
deriving DecidableEq, Repr

structure PoolOptions (db : Database) where
  maxConnections : ℕ
  maxLifetime : Option ℕ
  idleTimeout : Option ℕ
deriving DecidableEq, Repr

def u32TryFrom (n : ℤ) : Option ℕ := if 0 ≤ n ∧ n < 2 ^ 32 then some n.toNat else none

def nonzero (d : ℕ) : Option ℕ := if d = 0 then none else some d

def poolOptions (db : Database) (cfg : PoolConfig) (effectiveLifetime : ℕ) :
    Except DbError (PoolOptions db) := do
  cfg.validate
  match u32TryFrom cfg.maxOpenConns with
  | none => .error (.maxOpenOverflow cfg.maxOpenConns)
  | some maxOpen => .ok ⟨maxOpen, nonzero effectiveLifetime, nonzero cfg.connMaxIdleTime⟩

/-- The lifetime is computed before the configuration is looked at. -/
def PoolConfig.pgPoolOptions (cfg : PoolConfig) (fraction : ℚ) :
    Option (Except DbError (PoolOptions .postgres)) :=
  (applyLifetimeJitter cfg.connMaxLifetime fraction).map (poolOptions .postgres cfg)

def PoolConfig.mysqlPoolOptions (cfg : PoolConfig) (fraction : ℚ) :
    Option (Except DbError (PoolOptions .mySql)) :=
  (applyLifetimeJitter cfg.connMaxLifetime fraction).map (poolOptions .mySql cfg)

/-! ## What a positive setting gives -/

def positive (env : Environment) (key : String) : Option ℤ :=
  ((env key).bind fun v => (parseSigned 64 v.toList).toOption).filter (0 < ·)

theorem envIntPositive_eq (env : Environment) (key : String) (default : ℤ) :
    envIntPositive env key default = (positive env key).getD default := by
  unfold envIntPositive positive
  cases env key with
  | none => rfl
  | some v =>
    cases hparse : parseSigned 64 v.toList with
    | error err => simp [hparse, Except.toOption]
    | ok n => by_cases hn : 0 < n <;> simp [hparse, Except.toOption, Option.filter, hn]

theorem positive_mem {env : Environment} {key : String} {n : ℤ} (h : n ∈ positive env key) :
    0 < n := by
  simpa using (Option.filter_eq_some_iff.mp h).2

theorem getD_positive_pos {default : ℤ} (hdefault : 0 < default) (env : Environment)
    (key : String) : 0 < (positive env key).getD default := by
  cases h : positive env key with
  | none => exact hdefault
  | some n => exact positive_mem h

theorem envIntPositive_pos {default : ℤ} (hdefault : 0 < default) (env : Environment)
    (key : String) : 0 < envIntPositive env key default := by
  rw [envIntPositive_eq]
  exact getD_positive_pos hdefault env key

theorem fromEnv_validate (env : Environment) (pre : String) :
    (PoolConfig.fromEnv env pre).validate = .ok () := by
  have hopen : ¬ (PoolConfig.fromEnv env pre).maxOpenConns ≤ 0 :=
    not_le.mpr (envIntPositive_pos (by decide) env _)
  have hidle : ¬ (PoolConfig.fromEnv env pre).maxIdleConns < 0 :=
    not_lt.mpr (envIntPositive_pos (by decide) env _).le
  rw [PoolConfig.validate, if_neg hopen, if_neg hidle]

def lifetimeMinutes (env : Environment) (pre : String) : ℕ :=
  ((positive env (pre ++ "_CONN_MAX_LIFETIME")).getD 30).toNat

def lifetimeSeconds (env : Environment) (pre : String) : ℕ :=
  min (lifetimeMinutes env pre * 60) u64Max

theorem fromEnv_connMaxLifetime (env : Environment) (pre : String) :
    (PoolConfig.fromEnv env pre).connMaxLifetime = lifetimeSeconds env pre * second := by
  have hdefault : durationMinutes PoolConfig.default.connMaxLifetime = 30 := by decide
  have hpos := getD_positive_pos (by decide : (0 : ℤ) < 30) env (pre ++ "_CONN_MAX_LIFETIME")
  simp only [PoolConfig.fromEnv, minutes, lifetimeSeconds, lifetimeMinutes, hdefault,
    envIntPositive_eq, max_eq_left hpos.le]

theorem lifetimeSeconds_bounds (env : Environment) (pre : String) :
    0 < lifetimeSeconds env pre ∧ lifetimeSeconds env pre ≤ u64Max := by
  have hpos := getD_positive_pos (by decide : (0 : ℤ) < 30) env (pre ++ "_CONN_MAX_LIFETIME")
  have hmax : 0 < u64Max := by decide
  unfold lifetimeSeconds lifetimeMinutes
  omega

/-! ## Jitter -/

theorem clamp_mem (fraction : ℚ) : 0 ≤ clamp fraction ∧ clamp fraction ≤ 1 :=
  ⟨le_max_left _ _, max_le zero_le_one (min_le_right _ _)⟩

def jitter (base : ℕ) (fraction : ℚ) : ℕ := roundTiesEven (base * (1 / 10 * clamp fraction))

theorem jitter_le (secs : ℕ) (fraction : ℚ) :
    jitter (secs * second) fraction ≤ secs * second / 10 := by
  have htenth : secs * second / 10 = secs * 10 ^ 8 := by unfold second; omega
  obtain ⟨-, hone⟩ := clamp_mem fraction
  rw [jitter, htenth]
  apply roundTiesEven_le
  have hsecs : (0 : ℚ) ≤ secs := Nat.cast_nonneg secs
  calc ((secs * second : ℕ) : ℚ) * (1 / 10 * clamp fraction)
      = (secs * 10 ^ 8) * clamp fraction := by push_cast [second]; ring
    _ ≤ (secs * 10 ^ 8) * 1 := mul_le_mul_of_nonneg_left hone (by positivity)
    _ = ((secs * 10 ^ 8 : ℕ) : ℚ) := by push_cast; ring

theorem applyLifetimeJitter_eq {secs : ℕ} (hpos : 0 < secs) (hmax : secs ≤ u64Max)
    (fraction : ℚ) :
    applyLifetimeJitter (secs * second) fraction =
      checkedDuration (secs * second + jitter (secs * second) fraction) := by
  have hne : secs * second ≠ 0 := Nat.mul_ne_zero hpos.ne' (by decide)
  have hjitter : jitter (secs * second) fraction ≤ durationMax := by
    have hbase : secs * second ≤ durationMax :=
      (Nat.mul_le_mul_right second hmax).trans (Nat.le_add_right _ _)
    exact ((jitter_le secs fraction).trans (Nat.div_le_self _ _)).trans hbase
  have hmul : mulF64 (secs * second) (1 / 10 * clamp fraction) =
      some (jitter (secs * second) fraction) := by
    unfold mulF64 checkedDuration
    exact if_pos hjitter
  rw [applyLifetimeJitter, if_neg hne, hmul, Option.bind_eq_bind, Option.bind_some]

theorem durationMax_eq : durationMax = 18446744073709551615999999999 := rfl

theorem second_even : Even second := ⟨5 * 10 ^ 8, by norm_num [second]⟩

/-- The stretched lifetime, before rounding, is less than `Duration::MAX` and a half. -/
def Fits (secs : ℕ) (fraction : ℚ) : Prop :=
  (secs : ℚ) * 10 ^ 9 * (1 + clamp fraction / 10) < 2 ^ 64 * 10 ^ 9 - 1 / 2

instance (secs : ℕ) (fraction : ℚ) : Decidable (Fits secs fraction) :=
  inferInstanceAs (Decidable (_ < _))

theorem jitter_fits_iff {secs : ℕ} (hmax : secs ≤ u64Max) (fraction : ℚ) :
    secs * second + jitter (secs * second) fraction ≤ durationMax ↔ Fits secs fraction := by
  have hbase : secs * second ≤ u64Max * second := Nat.mul_le_mul_right _ hmax
  have hle : secs * second ≤ durationMax := hbase.trans (Nat.le_add_right _ _)
  have hodd : Odd (durationMax - secs * second) := by
    have heven : Even (secs * second) := second_even.mul_left secs
    have hodd : Odd durationMax := by
      rw [durationMax_eq]
      decide
    exact Nat.Odd.sub_even hle hodd heven
  have hnonneg : (0 : ℚ) ≤ ((secs * second : ℕ) : ℚ) * (1 / 10 * clamp fraction) :=
    mul_nonneg (Nat.cast_nonneg _) (mul_nonneg (by norm_num) (clamp_mem fraction).1)
  rw [add_comm, ← Nat.le_sub_iff_add_le hle, jitter, roundTiesEven_le_iff hnonneg hodd,
    Nat.cast_sub hle]
  unfold Fits
  have hdurationMax : (durationMax : ℚ) = 2 ^ 64 * 10 ^ 9 - 1 := by
    rw [durationMax_eq]
    norm_num
  rw [hdurationMax]
  push_cast [second]
  constructor <;> intro h <;> linarith

/-! ## Pools from the environment -/

/-- Either options whose lifetime is stretched by a tenth at most, or `MaxOpenOverflow`. -/
def Within {db : Database} (cfg : PoolConfig) (result : Option (Except DbError (PoolOptions db))) :
    Prop :=
  result = some (.error (.maxOpenOverflow cfg.maxOpenConns)) ∨
    ∃ opts lifetime, result = some (.ok opts) ∧
      1 ≤ opts.maxConnections ∧ opts.maxConnections ≤ 4294967295 ∧
      opts.maxLifetime = some lifetime ∧
      cfg.connMaxLifetime ≤ lifetime ∧ lifetime ≤ cfg.connMaxLifetime + cfg.connMaxLifetime / 10

def Bounded (env : Environment) (pre : String) (fraction : ℚ) : Prop :=
  let cfg := PoolConfig.fromEnv env pre
  cfg.validate = .ok () ∧ Within cfg (cfg.pgPoolOptions fraction) ∧
    Within cfg (cfg.mysqlPoolOptions fraction)

theorem poolOptions_within {db : Database} {cfg : PoolConfig} {lifetime : ℕ}
    (hvalid : cfg.validate = .ok ()) (hpos : 0 < cfg.maxOpenConns) (hne : 0 < lifetime)
    (hlo : cfg.connMaxLifetime ≤ lifetime)
    (hhi : lifetime ≤ cfg.connMaxLifetime + cfg.connMaxLifetime / 10) :
    Within cfg (some (poolOptions db cfg lifetime)) := by
  unfold poolOptions
  rw [hvalid]
  by_cases hfits : cfg.maxOpenConns < 2 ^ 32
  · right
    have hconv : u32TryFrom cfg.maxOpenConns = some cfg.maxOpenConns.toNat :=
      if_pos ⟨hpos.le, hfits⟩
    refine ⟨⟨cfg.maxOpenConns.toNat, nonzero lifetime, nonzero cfg.connMaxIdleTime⟩, lifetime,
      ?_, ?_, ?_, if_neg hne.ne', hlo, hhi⟩
    · rw [hconv]
      rfl
    · exact Int.pos_iff_toNat_pos.mp hpos
    · exact Int.toNat_le.mpr (Int.lt_add_one_iff.mp hfits)
  · left
    have hconv : u32TryFrom cfg.maxOpenConns = none := if_neg fun h => hfits h.2
    rw [hconv]
    rfl

theorem fromEnv_jitter (env : Environment) (pre : String) (fraction : ℚ) :
    applyLifetimeJitter (PoolConfig.fromEnv env pre).connMaxLifetime fraction =
      if Fits (lifetimeSeconds env pre) fraction then
        some (lifetimeSeconds env pre * second + jitter (lifetimeSeconds env pre * second) fraction)
      else none := by
  obtain ⟨hpos, hmax⟩ := lifetimeSeconds_bounds env pre
  rw [fromEnv_connMaxLifetime, applyLifetimeJitter_eq hpos hmax, checkedDuration]
  simp only [jitter_fits_iff hmax]

theorem fromEnv_within_iff {db : Database} (env : Environment) (pre : String) (fraction : ℚ) :
    let cfg := PoolConfig.fromEnv env pre
    Within cfg ((applyLifetimeJitter cfg.connMaxLifetime fraction).map (poolOptions db cfg)) ↔
      Fits (lifetimeSeconds env pre) fraction := by
  have hjitter := fromEnv_jitter env pre fraction
  by_cases hfits : Fits (lifetimeSeconds env pre) fraction
  · rw [if_pos hfits] at hjitter
    have hbase := fromEnv_connMaxLifetime env pre
    have hpos : 0 < lifetimeSeconds env pre * second :=
      Nat.mul_pos (lifetimeSeconds_bounds env pre).1 (by decide)
    have hopen : 0 < (PoolConfig.fromEnv env pre).maxOpenConns :=
      envIntPositive_pos (by decide) env _
    refine iff_of_true ?_ hfits
    rw [hjitter, Option.map_some]
    apply poolOptions_within (fromEnv_validate env pre) hopen (Nat.add_pos_left hpos _)
    · rw [hbase]
      exact Nat.le_add_right _ _
    · rw [hbase]
      exact Nat.add_le_add_left (jitter_le _ fraction) _
  · rw [if_neg hfits] at hjitter
    refine iff_of_false ?_ hfits
    rw [hjitter]
    rintro (h | ⟨opts, lifetime, h, -⟩)
    · cases h
    · cases h

theorem bounded_iff (env : Environment) (pre : String) (fraction : ℚ) :
    Bounded env pre fraction ↔ Fits (lifetimeSeconds env pre) fraction := by
  have hpg := @fromEnv_within_iff .postgres env pre fraction
  have hmysql := @fromEnv_within_iff .mySql env pre fraction
  constructor
  · rintro ⟨-, h, -⟩
    exact hpg.mp h
  · intro h
    exact ⟨fromEnv_validate env pre, hpg.mpr h, hmysql.mpr h⟩

theorem fits_one_iff (secs : ℕ) : Fits secs 1 ↔ secs * 11 < 2 ^ 64 * 10 := by
  have hclamp : clamp 1 = 1 := by norm_num [clamp]
  have hcast : Fits secs 1 ↔
      ((secs * 11 * 10 ^ 8 * 2 + 1 : ℕ) : ℚ) < ((2 ^ 64 * 10 ^ 9 * 2 : ℕ) : ℚ) := by
    unfold Fits
    rw [hclamp]
    push_cast
    constructor <;> intro h <;> linarith
  rw [hcast, Nat.cast_lt]
  omega

theorem forall_fits_iff (secs : ℕ) :
    (∀ fraction, Fits secs fraction) ↔ secs * 11 < 2 ^ 64 * 10 := by
  rw [← fits_one_iff]
  refine ⟨fun h => h 1, fun h fraction => lt_of_le_of_lt ?_ h⟩
  have hclamp : clamp fraction / 10 ≤ clamp 1 / 10 := by
    have hone : clamp 1 = 1 := by norm_num [clamp]
    rw [hone]
    linarith [(clamp_mem fraction).2]
  exact mul_le_mul_of_nonneg_left (add_le_add_right hclamp 1) (by positivity)

/-- A pool from the environment is bounded if and only if its lifetime leaves room for the
jitter. -/
theorem pools_bounded_iff (env : Environment) (pre : String) :
    (∀ fraction, Bounded env pre fraction ↔ Fits (lifetimeSeconds env pre) fraction) ∧
      ((∀ fraction, Bounded env pre fraction) ↔
        lifetimeMinutes env pre ≤ 279496122328932600) := by
  refine ⟨bounded_iff env pre, ?_⟩
  simp only [bounded_iff]
  rw [forall_fits_iff]
  unfold lifetimeSeconds u64Max
  omega

/-- The lifetime saturates, and half of the jitter is too much for it. -/
theorem long_lifetime_panics :
    let env : Environment := fun key =>
      if key = "DB_CONN_MAX_LIFETIME" then some "9223372036854775807" else none
    (PoolConfig.fromEnv env "DB").pgPoolOptions (1 / 2) = none ∧ ¬ Bounded env "DB" (1 / 2) := by
  intro env
  have hsecs : lifetimeSeconds env "DB" = u64Max := by decide
  have hfits : ¬ Fits (lifetimeSeconds env "DB") (1 / 2) := by
    rw [hsecs]
    norm_num [Fits, u64Max, clamp]
  constructor
  · rw [PoolConfig.pgPoolOptions, fromEnv_jitter, if_neg hfits]
    rfl
  · exact fun h => hfits ((bounded_iff env "DB" _).mp h)

end PaycloudHelper.Db
