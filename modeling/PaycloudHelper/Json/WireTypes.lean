import Mathlib
import PaycloudHelper.Audit.Entities
import PaycloudHelper.Health.HealthCheck

/-!
# Wire types

The types that go over the wire as JSON, and when what they write is read back.
-/

namespace PaycloudHelper.WireTypes

open Serde Audit Health

/-- A value is read back, up to the normal form, exactly if no field is left out that has
no default and is no option. -/
theorem wire_types_read_back (F : Type) :
    (∀ x, (auditTrailProcess F).codec.trip x = .ok x ↔ x.Filled) ∧
      (∀ x, (auditTrailData F).codec.trip x = .ok x.normal ↔ x.Filled) ∧
      (∀ x, (auditTrailTrx F).codec.trip x = .ok x.normal ↔ x.Filled) ∧
      (∀ x, (transactionTrace F).codec.trip x = .ok x.normal ↔ x.Filled) ∧
      ∀ x, (healthCheck F).codec.trip x = .ok x ↔ x.Filled := by
  refine ⟨fun x => ?_, fun x => ?_, fun x => ?_, fun x => ?_, fun x => ?_⟩
  · rw [auditTrailProcess_trip, and_iff_left rfl]
  · rw [auditTrailData_trip, and_iff_left rfl]
  · rw [auditTrailTrx_trip, and_iff_left rfl]
  · rw [transactionTrace_trip, and_iff_left rfl]
  · rw [healthCheck_trip, and_iff_left rfl]

/-- What `check_health` writes about an enabled Sentry cannot be read. -/
theorem healthy_check_unreadable :
    (healthCheck Unit).codec.trip ⟨"svc", "production", "2026-01-01T00:00:00Z", HEALTHY,
      [checkSentry true]⟩ = .error (.missingField "message") := by
  rfl

end PaycloudHelper.WireTypes
