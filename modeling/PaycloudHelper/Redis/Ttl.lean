import Mathlib
import PaycloudHelper.Redis.Pool

/-!
# The expiry that is written

What becomes of a duration in nanoseconds on its way to the milliseconds of `PSETEX`.
-/

namespace PaycloudHelper.Redis

open Programs
open Words (i64Max)

variable {pool : RedisPool}

theorem maxTtlMinutes_pos (pool : RedisPool) : 0 < pool.maxTtlMinutes := by
  unfold RedisPool.maxTtlMinutes
  split
  · split_ifs with hpos
    · exact hpos
    · decide
  · decide

def RedisPool.ceilingMs (pool : RedisPool) : ℕ := (min (pool.maxTtlMinutes * 60000) i64Max).toNat

theorem ceilingMs_le (pool : RedisPool) : (pool.ceilingMs : ℤ) ≤ pool.maxTtlMinutes * 60000 := by
  have hpos := maxTtlMinutes_pos pool
  unfold RedisPool.ceilingMs i64Max
  omega

theorem ceilingMs_le_i64Max (pool : RedisPool) : (pool.ceilingMs : ℤ) ≤ i64Max := by
  unfold RedisPool.ceilingMs i64Max
  omega

theorem minute_le_ceilingMs (pool : RedisPool) : 60000 ≤ pool.ceilingMs := by
  have hpos := maxTtlMinutes_pos pool
  unfold RedisPool.ceilingMs i64Max
  omega

theorem clampTtlWithMax_eq {ttlMs maxMinutes : ℤ} (hms : 0 ≤ ttlMs) (hmax : 0 < maxMinutes) :
    clampTtlWithMax ttlMs maxMinutes = min ttlMs (min (maxMinutes * 60000) i64Max) := by
  have hmul : saturatingMul maxMinutes 60000 = min (maxMinutes * 60000) i64Max := by
    unfold saturatingMul i64Max
    omega
  unfold clampTtlWithMax
  rw [if_neg (not_lt.mpr hms), hmul]
  dsimp only
  split_ifs with hlt
  · exact (min_eq_right hlt.le).symm
  · exact (min_eq_left (not_lt.mp hlt)).symm

theorem clampTtl_eq (pool : RedisPool) (d : ℕ) :
    pool.clampTtl d = min (d / 1000000) pool.ceilingMs := by
  have hms : 0 ≤ min ((d / 1000000 : ℕ) : ℤ) i64Max :=
    le_min (Int.natCast_nonneg _) (by decide)
  have hpos := maxTtlMinutes_pos pool
  unfold RedisPool.clampTtl RedisPool.ceilingMs
  dsimp only
  rw [clampTtlWithMax_eq hms hpos]
  omega

theorem clampTtl_pos_iff {d : ℕ} : 0 < pool.clampTtl d ↔ 1000000 ≤ d := by
  have hceiling := minute_le_ceilingMs pool
  rw [clampTtl_eq]
  omega

theorem clampTtl_mono {d d' : ℕ} (h : d ≤ d') : pool.clampTtl d ≤ pool.clampTtl d' := by
  rw [clampTtl_eq, clampTtl_eq]
  exact min_le_min_right _ (Nat.div_le_div_right h)

def sends {α : Type} : Prog Command Command.Answer α → Option Command
  | .done _ => none
  | .ask command _ => some command

theorem sends_store (pool : RedisPool) (key json : String) (ttl : ℕ) :
    sends (pool.store key (.ok json) ttl) =
      if pool.clampTtl ttl = 0 then some (.set key json)
      else some (.psetEx key json (pool.clampTtl ttl)) := by
  unfold RedisPool.store
  dsimp only
  split_ifs <;> rfl

theorem store_sends_psetEx_iff {key json : String} {ttl ms : ℕ} :
    sends (pool.store key (.ok json) ttl) = some (.psetEx key json ms) ↔
      0 < ms ∧ ms = pool.clampTtl ttl := by
  rw [sends_store]
  split_ifs with hzero
  · simp only [Option.some.injEq, reduceCtorEq, hzero, false_iff]
    omega
  · simp only [Option.some.injEq, Command.psetEx.injEq, true_and]
    omega

/-- A duration is written with an expiry, of at most the ceiling and no longer than that of
any longer duration, if and only if it is a millisecond or more. -/
theorem store_expires_iff (pool : RedisPool) (key json : String) (ttl : ℕ) :
    (∃ ms, sends (pool.store key (.ok json) ttl) = some (.psetEx key json ms) ∧ 0 < ms ∧
        (ms : ℤ) ≤ pool.maxTtlMinutes * 60000 ∧
        ∀ ttl' ≥ ttl, ∃ ms', sends (pool.store key (.ok json) ttl') = some (.psetEx key json ms') ∧
          ms ≤ ms') ↔
      1000000 ≤ ttl := by
  simp only [store_sends_psetEx_iff]
  constructor
  · rintro ⟨ms, ⟨hpos, rfl⟩, -⟩
    exact clampTtl_pos_iff.mp hpos
  · intro httl
    have hpos : 0 < pool.clampTtl ttl := clampTtl_pos_iff.mpr httl
    have hceiling : pool.clampTtl ttl ≤ pool.ceilingMs := by
      rw [clampTtl_eq]
      exact min_le_right _ _
    refine ⟨_, ⟨hpos, rfl⟩, hpos, ?_, fun ttl' hle => ?_⟩
    · exact (Int.ofNat_le.mpr hceiling).trans (ceilingMs_le pool)
    · have hmono : pool.clampTtl ttl ≤ pool.clampTtl ttl' := clampTtl_mono hle
      exact ⟨_, ⟨hpos.trans_le hmono, rfl⟩, hmono⟩

theorem store_submillisecond :
    sends (RedisPool.store ⟨fun _ => none⟩ "session" (.ok "{}") 999999) =
      some (.set "session" "{}") := rfl

end PaycloudHelper.Redis
