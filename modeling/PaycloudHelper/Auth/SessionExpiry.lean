import Mathlib
import PaycloudHelper.Auth.FailClosed
import PaycloudHelper.Auth.IdempotencyRace
import PaycloudHelper.Redis.Ttl

/-!
# How long an idempotency entry is kept

From the text of the `session` header to the milliseconds that Redis is sent.
-/

namespace PaycloudHelper.Auth

open Programs ParseInt Http Redis
open Words (i64Max)

variable {V : Type}

theorem sessionSecs_range {raw : String} {secs : ℕ} (h : sessionSecs (V := V) raw = .ok secs) :
    4 ≤ secs ∧ (secs : ℤ) ≤ i64Max := by
  unfold sessionSecs at h
  split_ifs at h with hformat hdefault
  · obtain rfl := Except.ok.inj h
    decide
  · split at h
    · cases h
    · rename_i value hvalue
      have hrange : -2 ^ 63 ≤ value ∧ value < 2 ^ 63 := parseSigned_range hvalue
      obtain rfl := Except.ok.inj h
      unfold i64Max
      split_ifs <;> omega

/-- What a session of `secs` goes through. Nothing is lost on the way but to the ceiling: the
seconds fit a `u64`, their milliseconds a `u128`, and what is sent fits an `i64`. -/
structure Converts (pool : RedisPool) (secs : ℕ) : Prop where
  seconds : 4 ≤ secs ∧ secs < 2 ^ 64
  millis : 4000 ≤ secs * 1000000000 / 1000000 ∧ secs * 1000000000 / 1000000 < 2 ^ 128
  sent : 4000 ≤ pool.clampTtl (secs * 1000000000) ∧
    (pool.clampTtl (secs * 1000000000) : ℤ) ≤ i64Max
  ceiling : (pool.clampTtl (secs * 1000000000) : ℤ) ≤ pool.maxTtlMinutes * 60000

theorem Converts.of_range (pool : RedisPool) {secs : ℕ} (hmin : 4 ≤ secs)
    (hmax : (secs : ℤ) ≤ i64Max) : Converts pool secs := by
  have hminute := minute_le_ceilingMs pool
  have hle : pool.clampTtl (secs * 1000000000) ≤ pool.ceilingMs := by
    rw [clampTtl_eq]
    exact min_le_right _ _
  have hmillis : secs * 1000000000 / 1000000 = secs * 1000 := by omega
  unfold i64Max at hmax
  refine ⟨by omega, by omega, ⟨?_, ?_⟩, ?_⟩
  · rw [clampTtl_eq, hmillis]
    exact le_min (by omega) (by omega)
  · exact (Int.ofNat_le.mpr hle).trans (ceilingMs_le_i64Max pool)
  · exact (Int.ofNat_le.mpr hle).trans (ceilingMs_le pool)

variable {ext : Externals V} {pool : RedisPool} {request : Request} {a : Accepted V}

theorem converts_of_accept (pool : RedisPool) (ha : accept ext request = .ok a) :
    Converts pool a.session := by
  obtain ⟨hmin, hmax⟩ := sessionSecs_range (accept_ok ha).2.2.2.2
  exact Converts.of_range pool hmin hmax

theorem storeAndRun_of_converts (h : Converts pool a.session) (requestId : String)
    (request : Request) :
    storeAndRun ext pool requestId request a =
      .ask (.redis (.psetEx a.key (ext.toText a.value) (pool.clampTtl (a.session * 1000000000))))
        (stored pool requestId request a) := by
  have hne : pool.clampTtl (a.session * 1000000000) ≠ 0 := by
    have hsent := h.sent.1
    omega
  unfold storeAndRun RedisPool.store
  dsimp only
  rw [if_neg hne]
  rfl

theorem looksUp_of_accept (pool : RedisPool) (random : List UInt8)
    (ha : accept ext request = .ok a) :
    ∃ resume, verifyIdempotency ext pool random request = .ask (.redis (.get a.key)) resume ∧
      ∀ reply : Reply (Option String), pool.finish "GET" reply = .ok none →
        resume reply = storeAndRun ext pool (ensureRequestId random request).1
          (ensureRequestId random request).2 a := by
  unfold verifyIdempotency
  dsimp only
  rw [accept_ensureRequestId, ha]
  refine ⟨_, lookUp_eq _ _ a, fun reply hnone => ?_⟩
  rw [hnone]

def Expires (pool : RedisPool) : Query → Prop
  | .redis (.set _ _) => False
  | .redis (.psetEx _ _ ms) => 4000 ≤ ms ∧ (ms : ℤ) ≤ pool.maxTtlMinutes * 60000
  | .redis (.get _) | .next _ => True

theorem expires_stored (requestId : String) (request : Request) (a : Accepted V)
    (es : List (Exchange Query (Query.Answer V))) (reply : Reply Unit) :
    Prog.Always (fun _ query => Expires pool query) (fun _ _ => True) es
      (stored pool requestId request a reply) := by
  unfold stored
  cases pool.finish "SET" reply with
  | error err => trivial
  | ok _ => exact ⟨trivial, fun _ => trivial⟩

/-- Whatever the request and whatever Redis answers, all that the middleware writes expires;
an accepted request is written where its key is not found. -/
theorem idempotency_entries_expire (ext : Externals V) (pool : RedisPool) (random : List UInt8)
    (request : Request) :
    Prog.Always (fun _ query => Expires pool query) (fun _ _ => True) []
        (verifyIdempotency ext pool random request) ∧
      ∀ a, accept ext request = .ok a → Converts pool a.session ∧
        (∀ requestId request', storeAndRun ext pool requestId request' a =
          .ask (.redis (.psetEx a.key (ext.toText a.value)
            (pool.clampTtl (a.session * 1000000000)))) (stored pool requestId request' a)) ∧
        ∃ resume, verifyIdempotency ext pool random request = .ask (.redis (.get a.key)) resume ∧
          ∀ reply : Reply (Option String), pool.finish "GET" reply = .ok none →
            resume reply = storeAndRun ext pool (ensureRequestId random request).1
              (ensureRequestId random request).2 a := by
  refine ⟨?_, fun a ha => ⟨converts_of_accept pool ha,
    storeAndRun_of_converts (converts_of_accept pool ha), looksUp_of_accept pool random ha⟩⟩
  unfold verifyIdempotency
  dsimp only
  rw [accept_ensureRequestId]
  cases ha : accept ext request with
  | error api => trivial
  | ok a =>
    have hconverts : Converts pool a.session := converts_of_accept pool ha
    dsimp only
    rw [lookUp_eq]
    refine ⟨trivial, fun reply => ?_⟩
    dsimp only
    cases pool.finish "GET" reply with
    | error err => trivial
    | ok found =>
      cases found with
      | some cached => trivial
      | none =>
        dsimp only
        rw [storeAndRun_of_converts hconverts]
        exact ⟨⟨hconverts.sent.1, hconverts.ceiling⟩, fun reply => expires_stored _ _ _ _ reply⟩

def twoMinutes : Request :=
  { emptyObject with headers := ("session", ascii "000120") :: emptyObject.headers }

theorem idempotency_entries_expire_twoMinutes :
    ∃ a resume next, accept texts twoMinutes = .ok a ∧ Converts ⟨noEntries⟩ 120 ∧
      verifyIdempotency texts ⟨noEntries⟩ (List.replicate 16 0) twoMinutes =
        .ask (.redis (.get a.key)) resume ∧
      resume (.ok none) = .ask (.redis (.psetEx a.key "\x7b\x7d" 120000)) next := by
  obtain ⟨a, haccept, hsession, hvalue⟩ : ∃ a, accept texts twoMinutes = .ok a ∧
      a.session = 120 ∧ a.value = "\x7b\x7d" := ⟨_, rfl, rfl, rfl⟩
  have hms : RedisPool.clampTtl ⟨noEntries⟩ (120 * 1000000000) = 120000 := by decide
  obtain ⟨-, hexpire⟩ :=
    idempotency_entries_expire texts ⟨noEntries⟩ (List.replicate 16 0) twoMinutes
  obtain ⟨hconverts, hstores, resume, hasks, hmissed⟩ := hexpire a haccept
  have hstored := (hmissed (.ok none) rfl).trans (hstores _ _)
  rw [hsession, hvalue, hms] at hstored
  exact ⟨a, resume, _, haccept, hsession ▸ hconverts, hasks, hstored⟩

end PaycloudHelper.Auth
