import Mathlib
import PaycloudHelper.Library.Serde

/-!
# Health checks

The health envelope with its serde attributes, and the envelopes that are read back.
-/

namespace PaycloudHelper.Health

open Serde

variable {F : Type}

def HEALTHY : String := "healthy"
def UNHEALTHY : String := "unhealthy"

structure HealthStatus where
  component : String
  status : String
  message : String
  latencyMs : Option U64
deriving DecidableEq, Repr

def healthStatus (F : Type) : Struct F HealthStatus where
  name := "HealthStatus"
  fields := Record.make HealthStatus.mk
    |>.field HealthStatus.component (plain "component" string)
    |>.field HealthStatus.status (plain "status" string)
    |>.field HealthStatus.message (skipIf String.isEmpty "message" string)
    |>.field HealthStatus.latencyMs (skipIf Option.isNone "latency_ms" (option u64))
  nodup := by
    simp only [Record.names, plain, skipIf]
    decide

structure HealthCheck where
  appName : String
  appEnv : String
  timestamp : String
  overallStatus : String
  checks : List HealthStatus
deriving DecidableEq, Repr

def healthCheck (F : Type) : Struct F HealthCheck where
  name := "HealthCheck"
  fields := Record.make HealthCheck.mk
    |>.field HealthCheck.appName (plain "app_name" string)
    |>.field HealthCheck.appEnv (plain "app_env" string)
    |>.field HealthCheck.timestamp (plain "timestamp" string)
    |>.field HealthCheck.overallStatus (plain "overall_status" string)
    |>.field HealthCheck.checks (plain "checks" (vec (healthStatus F).codec))
  nodup := by
    simp only [Record.names, plain]
    decide

def healthy (component : String) : HealthStatus := ⟨component, HEALTHY, "", none⟩

def unhealthy (component message : String) : HealthStatus := ⟨component, UNHEALTHY, message, none⟩

/-- With whether Sentry is enabled. -/
def checkSentry (enabled : Bool) : HealthStatus :=
  if enabled then healthy "sentry" else unhealthy "sentry" "sentry client not initialized"

/-! ## What is read back -/

def HealthStatus.Filled (x : HealthStatus) : Prop := x.message ≠ ""

def HealthCheck.Filled (x : HealthCheck) : Prop := ∀ check ∈ x.checks, check.Filled

@[simp] theorem latency_exact : (option u64 : Codec F (Option U64)).Exact :=
  option_exact (fun _ => nofun) (integer_exact _ _ _ _ _)

theorem healthStatus_trip (x y : HealthStatus) :
    (healthStatus F).codec.trip x = .ok y ↔ x.Filled ∧ x = y := by
  rw [Struct.trip_eq_ok]
  simp [healthStatus, Record.Kept, Record.back, HealthStatus.Filled]

theorem healthCheck_trip (x y : HealthCheck) :
    (healthCheck F).codec.trip x = .ok y ↔ x.Filled ∧ x = y := by
  have hkept : ∀ check, (healthStatus F).codec.Kept check ↔ check.Filled :=
    fun check => (Codec.spec_of_trip healthStatus_trip check).1
  have hback : ∀ check, (healthStatus F).codec.back check = check :=
    Codec.back_eq_self fun check y h => ((healthStatus_trip check y).mp h).2.symm
  rw [Struct.trip_eq_ok]
  simp [healthCheck, Record.Kept, Record.back, HealthCheck.Filled, -Struct.kept_iff, hkept, hback]

end PaycloudHelper.Health
