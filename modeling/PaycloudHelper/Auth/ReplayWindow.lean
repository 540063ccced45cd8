import Mathlib
import PaycloudHelper.Auth.IdempotencyRace
import PaycloudHelper.Auth.SessionExpiry
import PaycloudHelper.Redis.Server

/-!
# How long a request is protected against replay

Requests with any keys arrive at any time, over one Redis, any that does what is documented.
A command may fail or time out, and then be served late or never. What is shown is how far
apart two requests with one key can get to the handler.
-/

namespace PaycloudHelper.Auth.ReplayWindow

open Programs Http Redis Runs
open CheckThenAct (Stage)
open ExpiringMaps (View)
open Slots (forall_mem_set forall_mem_concat getElem?_set_cases getElem?_concat_cases)

variable {S V : Type}

/-- `admitted` is when the store of the key was served and answered. -/
structure Visit (V : Type) extends Task V where
  request : Request
  admitted : Option ℕ

def Visit.key (t : Visit V) : String := header t.request "idempotency-key"

structure World (S V : Type) where
  server : S
  visits : List (Visit V)
  late : List Command

inductive Event (V : Type)
  | tick (ms : ℕ)
  | others (command : AnyCommand)
  | arrive (random : List UInt8) (request : Request)
  | redis (visit : ℕ)
  | fail (visit : ℕ) (error : Option String) (sent : Bool)
  | land (command : ℕ)
  | handler (visit : ℕ) (response : Response V)

def noReply {α : Type} : Option String → Reply α
  | some error => .failed error
  | none => .timedOut

def refusal (error : Option String) : (command : Command) → command.Answer
  | .get _ | .set _ _ | .psetEx _ _ _ => noReply error

def isStore : Command → Bool
  | .get _ => false
  | .set _ _ | .psetEx _ _ _ => true

def Visit.new (ext : Externals V) (pool : RedisPool) (random : List UInt8) (request : Request) :
    Visit V :=
  ⟨⟨verifyIdempotency ext pool random request, 0⟩, request, none⟩

def step (redis : Server S) (ext : Externals V) (pool : RedisPool) (w : World S V) :
    Event V → Option (World S V)
  | .tick ms => some { w with server := redis.advance w.server ms }
  | .others command =>
    if ∀ t ∈ w.visits, t.key ≠ command.key then
      some { w with server := (redis.serve w.server command).2 }
    else none
  | .arrive random request =>
    some { w with visits := w.visits ++ [.new ext pool random request] }
  | .redis i =>
    match w.visits[i]? with
    | some ⟨⟨.ask (.redis command) resume, runs⟩, request, admitted⟩ =>
      let (reply, server) := redis.serve w.server (.string command)
      let admitted := if isStore command then some (redis.now w.server) else admitted
      some { w with server, visits := w.visits.set i ⟨⟨resume reply, runs⟩, request, admitted⟩ }
    | _ => none
  | .fail i error sent =>
    match w.visits[i]? with
    | some ⟨⟨.ask (.redis command) resume, runs⟩, request, admitted⟩ =>
      some { w with
        visits := w.visits.set i ⟨⟨resume (refusal error command), runs⟩, request, admitted⟩
        late := if sent then w.late ++ [command] else w.late }
    | _ => none
  | .land j =>
    w.late[j]?.map fun command =>
      { w with server := (redis.serve w.server (.string command)).2, late := w.late.eraseIdx j }
  | .handler i response =>
    match w.visits[i]? with
    | some ⟨⟨.ask (.next _) resume, runs⟩, request, admitted⟩ =>
      some { w with visits := w.visits.set i ⟨⟨resume response, runs + 1⟩, request, admitted⟩ }
    | _ => none

/-- No request looks its key up while another one has missed it and not yet stored it. -/
def Alone (w : World S V) : Event V → Prop
  | .redis i =>
    ∀ t ∈ w.visits[i]?, t.stage = .looking → ∀ u ∈ w.visits, u.stage = .raising → u.key ≠ t.key
  | _ => True

instance (w : World S V) : (e : Event V) → Decidable (Alone w e)
  | .redis i =>
    inferInstanceAs (Decidable (∀ t ∈ w.visits[i]?, t.stage = .looking →
      ∀ u ∈ w.visits, u.stage = .raising → u.key ≠ t.key))
  | .tick _ | .others _ | .arrive _ _ | .fail _ _ _ | .land _ | .handler _ _ =>
    isTrue trivial

/-- The milliseconds for which an accepted request has its key stored. -/
def window (ext : Externals V) (pool : RedisPool) (request : Request) : ℕ :=
  match accept ext request with
  | .ok a => pool.clampTtl (a.session * 1000000000)
  | .error _ => 0

/-! ## One visit -/

inductive Along (ext : Externals V) (pool : RedisPool) : Visit V → Prop
  | looking (requestId : String) (seen : Request) {request : Request} {a : Accepted V}
      (ha : accept ext request = .ok a) :
      Along ext pool ⟨⟨lookUp ext pool requestId seen a, 0⟩, request, none⟩
  | storing (requestId : String) (seen : Request) {request : Request} {a : Accepted V}
      (ha : accept ext request = .ok a) :
      Along ext pool ⟨⟨storeAndRun ext pool requestId seen a, 0⟩, request, none⟩
  | running (requestId : String) (seen request : Request) (t : ℕ) :
      Along ext pool ⟨⟨runNext requestId seen, 0⟩, request, some t⟩
  | ran (response : Response V) (request : Request) (t : ℕ) :
      Along ext pool ⟨⟨.done response, 1⟩, request, some t⟩
  | refused (response : Response V) (request : Request) :
      Along ext pool ⟨⟨.done response, 0⟩, request, none⟩

section
variable {redis : Server S} {ext : Externals V} {pool : RedisPool} {w : World S V} {i : ℕ}
  {requestId : String}
  {seen request : Request} {a : Accepted V}

theorem Along.new (random : List UInt8) (request : Request) :
    Along ext pool (.new ext pool random request) := by
  unfold Visit.new verifyIdempotency
  dsimp only
  rw [accept_ensureRequestId]
  cases ha : accept ext request with
  | error api => exact .refused _ _
  | ok a => exact .looking _ _ ha

theorem new_stage (random : List UInt8) (request : Request) :
    (Visit.new ext pool random request).stage ≠ .raising := by
  unfold Visit.new verifyIdempotency
  dsimp only
  cases accept ext (ensureRequestId random request).2 with
  | error api => simp [Task.stage]
  | ok a => simp [Task.stage, lookUp_eq]

theorem Along.runs {t : Visit V} (h : Along ext pool t) :
    t.runs ≤ 1 ∧ (t.runs = 1 → t.admitted.isSome = true) := by
  cases h <;> simp

theorem window_eq (ha : accept ext request = .ok a) :
    window ext pool request = pool.clampTtl (a.session * 1000000000) := by
  simp [window, ha]

theorem window_ge (ha : accept ext request = .ok a) : 4000 ≤ window ext pool request := by
  rw [window_eq ha]
  exact (converts_of_accept pool ha).sent.1

theorem store_eq (ha : accept ext request = .ok a) (requestId : String) (seen : Request) :
    storeAndRun ext pool requestId seen a =
      .ask (.redis (.psetEx a.key (ext.toText a.value) (window ext pool request)))
        (stored pool requestId seen a) := by
  rw [window_eq ha]
  exact storeAndRun_of_converts (converts_of_accept pool ha) requestId seen

theorem store_expires (pool : RedisPool) (ha : accept ext request = .ok a) (key json : String) :
    Expires pool (.redis (.psetEx key json (window ext pool request))) := by
  have hconverts := converts_of_accept pool ha
  rw [window_eq ha]
  exact ⟨hconverts.sent.1, hconverts.ceiling⟩

/-! ## Steps -/

theorem step_lookUp_some {cached : String}
    (h : w.visits[i]? = some ⟨⟨lookUp ext pool requestId seen a, 0⟩, request, none⟩)
    (hread : redis.read w.server a.key = some cached) :
    step redis ext pool w (.redis i) = some { w with
      visits := w.visits.set i
        ⟨⟨.done (withRequestId (inProcess ext cached).intoResponse requestId), 0⟩, request,
          none⟩ } := by
  rw [lookUp_eq] at h
  simp only [step, h, redis.get, isStore, hread]
  rfl

theorem step_lookUp_none
    (h : w.visits[i]? = some ⟨⟨lookUp ext pool requestId seen a, 0⟩, request, none⟩)
    (hread : redis.read w.server a.key = none) :
    step redis ext pool w (.redis i) = some { w with
      visits := w.visits.set i ⟨⟨storeAndRun ext pool requestId seen a, 0⟩, request, none⟩ } := by
  rw [lookUp_eq] at h
  simp only [step, h, redis.get, isStore, hread]
  rfl

theorem step_store (ha : accept ext request = .ok a)
    (h : w.visits[i]? = some ⟨⟨storeAndRun ext pool requestId seen a, 0⟩, request, none⟩) :
    ∃ server, redis.serve w.server
          (.string (.psetEx a.key (ext.toText a.value) (window ext pool request))) =
        (.ok (), server) ∧
      redis.entry server a.key =
        some ⟨ext.toText a.value, some (redis.now w.server + window ext pool request)⟩ ∧
      step redis ext pool w (.redis i) = some { w with
        server
        visits := w.visits.set i
          ⟨⟨runNext requestId { seen with body := .ok a.bytes }, 0⟩, request,
            some (redis.now w.server)⟩ } := by
  obtain ⟨server, hserve, hentry⟩ := redis.psetEx w.server a.key (ext.toText a.value) _
    (lt_of_lt_of_le (by decide) (window_ge ha))
  refine ⟨server, hserve, hentry, ?_⟩
  rw [store_eq ha] at h
  simp only [step, h, hserve, isStore]
  rfl

theorem finish_noReply {α : Type} (pool : RedisPool) (name : String) (error : Option String) :
    ∃ text, pool.finish name (noReply (α := α) error) = .error text := by
  cases error <;> exact ⟨_, rfl⟩

theorem step_fail_lookUp (error : Option String) (sent : Bool)
    (h : w.visits[i]? = some ⟨⟨lookUp ext pool requestId seen a, 0⟩, request, none⟩) :
    ∃ response, step redis ext pool w (.fail i error sent) = some { w with
      visits := w.visits.set i ⟨⟨.done response, 0⟩, request, none⟩
      late := if sent then w.late ++ [.get a.key] else w.late } := by
  obtain ⟨text, htext⟩ := finish_noReply (α := Option String) pool "GET" error
  rw [lookUp_eq] at h
  simp only [step, h, refusal, htext]
  exact ⟨_, rfl⟩

theorem step_fail_store (error : Option String) (sent : Bool) (ha : accept ext request = .ok a)
    (h : w.visits[i]? = some ⟨⟨storeAndRun ext pool requestId seen a, 0⟩, request, none⟩) :
    ∃ response, step redis ext pool w (.fail i error sent) = some { w with
      visits := w.visits.set i ⟨⟨.done response, 0⟩, request, none⟩
      late := if sent then
          w.late ++ [.psetEx a.key (ext.toText a.value) (window ext pool request)]
        else w.late } := by
  obtain ⟨text, htext⟩ := finish_noReply (α := Unit) pool "SET" error
  rw [store_eq ha] at h
  simp only [step, h, refusal, stored, htext]
  exact ⟨_, rfl⟩

theorem step_runNext {t : ℕ}
    (h : w.visits[i]? = some ⟨⟨runNext requestId seen, 0⟩, request, some t⟩)
    (response : Response V) :
    step redis ext pool w (.handler i response) = some { w with
      visits := w.visits.set i
        ⟨⟨.done (withRequestId response requestId), 1⟩, request, some t⟩ } := by
  simp only [step, h, runNext]

end

/-! ## All visits -/

/-- `W` is how long the key of an admitted request stays, whatever is stored meanwhile. -/
structure Sound (redis : Server S) (ext : Externals V) (pool : RedisPool) (W : Request → ℕ)
    (w : World S V) : Prop where
  along : ∀ t ∈ w.visits, Along ext pool t
  late : ∀ command ∈ w.late, Expires pool (.redis command)
  past : ∀ t ∈ w.visits, ∀ a ∈ t.admitted, a ≤ redis.now w.server
  held : ∀ t ∈ w.visits, ∀ a ∈ t.admitted, redis.Lasts w.server t.key (a + W t.request)
  once : ∀ (i j : ℕ) (t u : Visit V), w.visits[i]? = some t → w.visits[j]? = some u →
    t.stage = .raising → u.stage = .raising → t.key = u.key → i = j
  missed : ∀ t ∈ w.visits, t.stage = .raising → ∀ u ∈ w.visits, u.key = t.key →
    ∀ a ∈ u.admitted, a + W u.request ≤ redis.now w.server
  apart : ∀ (i j : ℕ) (t u : Visit V), i ≠ j → w.visits[i]? = some t → w.visits[j]? = some u →
    t.key = u.key → ∀ a ∈ t.admitted, ∀ b ∈ u.admitted,
      a + W t.request ≤ b ∨ b + W u.request ≤ a

def Keeps (redis : Server S) (W : Request → ℕ) (w : World S V) : Event V → Prop
  | .land j => ∀ key json ms, w.late[j]? = some (.psetEx key json ms) →
      ∀ t ∈ w.visits, t.key = key → ∀ a ∈ t.admitted,
        a + W t.request ≤ redis.now w.server + ms
  | _ => True

def Prompt (w : World S V) : Event V → Prop
  | .land j => ∀ command ∈ w.late[j]?, isStore command = false
  | _ => True

instance (w : World S V) : (e : Event V) → Decidable (Prompt w e)
  | .land j => inferInstanceAs (Decidable (∀ command ∈ w.late[j]?, isStore command = false))
  | .tick _ | .others _ | .arrive _ _ | .redis _ | .fail _ _ _ | .handler _ _ => isTrue trivial

section
variable {redis : Server S} {ext : Externals V} {pool : RedisPool} {W : Request → ℕ}
  {w w' : World S V}

theorem Prompt.keeps {e : Event V} (h : Prompt w e) : Keeps redis W w e := by
  cases e with
  | land j =>
    intro key json ms hj
    cases h _ hj
  | tick | others | arrive | redis | fail | handler => trivial

theorem Sound.start (server : S) : Sound redis ext pool W ⟨server, [], []⟩ := by
  constructor <;> simp

theorem Sound.visits (hw : Sound redis ext pool W w) {visits : List (Visit V)} {late : List Command}
    (halong : ∀ t ∈ visits, Along ext pool t) (hlate : ∀ c ∈ late, Expires pool (.redis c))
    (hsame : ∀ (j : ℕ) (t : Visit V), visits[j]? = some t → t.admitted = none ∨
      ∃ u, w.visits[j]? = some u ∧ u.request = t.request ∧ u.admitted = t.admitted)
    (honce : ∀ (i j : ℕ) (t u : Visit V), visits[i]? = some t → visits[j]? = some u →
      t.stage = .raising → u.stage = .raising → t.key = u.key → i = j)
    (hmissed : ∀ t ∈ visits, t.stage = .raising → ∀ u ∈ w.visits, u.key = t.key →
      ∀ a ∈ u.admitted, a + W u.request ≤ redis.now w.server) :
    Sound redis ext pool W { w with visits, late } := by
  -- an admitted visit was there before
  have hold : ∀ {j : ℕ} {t : Visit V}, visits[j]? = some t → ∀ a ∈ t.admitted,
      ∃ u, w.visits[j]? = some u ∧ u.request = t.request ∧ a ∈ u.admitted := by
    intro j t ht a ha
    rcases hsame j t ht with hnone | ⟨u, hu, hrequest, hadmitted⟩
    · simp [hnone] at ha
    · exact ⟨u, hu, hrequest, hadmitted ▸ ha⟩
  refine ⟨halong, hlate, ?_, ?_, honce, ?_, ?_⟩
  · intro t ht a ha
    obtain ⟨j, hj⟩ := List.mem_iff_getElem?.mp ht
    obtain ⟨u, hu, -, hua⟩ := hold hj a ha
    exact hw.past u (List.mem_of_getElem? hu) a hua
  · intro t ht a ha
    obtain ⟨j, hj⟩ := List.mem_iff_getElem?.mp ht
    obtain ⟨u, hu, hrequest, hua⟩ := hold hj a ha
    have hheld := hw.held u (List.mem_of_getElem? hu) a hua
    simpa only [Visit.key, hrequest] using hheld
  · intro t ht hraising u hu hkey a ha
    obtain ⟨j, hj⟩ := List.mem_iff_getElem?.mp hu
    obtain ⟨v, hv, hrequest, hva⟩ := hold hj a ha
    have hvkey : v.key = t.key := by rw [← hkey, Visit.key, Visit.key, hrequest]
    have hle := hmissed t ht hraising v (List.mem_of_getElem? hv) hvkey a hva
    rwa [hrequest] at hle
  · intro i j t u hne ht hu hkey a ha b hb
    obtain ⟨t', ht', htrequest, hta⟩ := hold ht a ha
    obtain ⟨u', hu', hurequest, hub⟩ := hold hu b hb
    have hkey' : t'.key = u'.key := by
      rw [Visit.key, Visit.key, htrequest, hurequest]
      exact hkey
    have hapart := hw.apart i j t' u' hne ht' hu' hkey' a hta b hub
    rwa [htrequest, hurequest] at hapart

theorem Sound.settle (hw : Sound redis ext pool W w) {i : ℕ} {t t' : Visit V} {late : List Command}
    (ht : w.visits[i]? = some t) (halong : Along ext pool t') (hrequest : t'.request = t.request)
    (hadmitted : t'.admitted = t.admitted) (hstage : t'.stage ≠ .raising)
    (hlate : ∀ c ∈ late, Expires pool (.redis c)) :
    Sound redis ext pool W { w with visits := w.visits.set i t', late } := by
  -- who is about to store was so before
  have hraising : ∀ {j : ℕ} {u : Visit V}, (w.visits.set i t')[j]? = some u →
      u.stage = .raising → w.visits[j]? = some u := by
    intro j u hu hstage'
    rcases getElem?_set_cases hu with ⟨-, rfl⟩ | ⟨-, hu⟩
    · exact absurd hstage' hstage
    · exact hu
  refine hw.visits (forall_mem_set hw.along halong) hlate ?_ ?_ ?_
  · intro j u hu
    rcases getElem?_set_cases hu with ⟨rfl, rfl⟩ | ⟨-, hu⟩
    · exact Or.inr ⟨t, ht, hrequest.symm, hadmitted.symm⟩
    · exact Or.inr ⟨u, hu, rfl, rfl⟩
  · intro j k u v hu hv hustage hvstage hkey
    exact hw.once j k u v (hraising hu hustage) (hraising hv hvstage) hustage hvstage hkey
  · intro u hu hustage
    obtain ⟨j, hj⟩ := List.mem_iff_getElem?.mp hu
    exact hw.missed u (List.mem_of_getElem? (hraising hj hustage)) hustage

theorem Sound.miss (hw : Sound redis ext pool W w) {i : ℕ} {t : Visit V} {key : String}
    (halong : Along ext pool t) (hadmitted : t.admitted = none) (hkey : t.key = key)
    (hread : redis.read w.server key = none)
    (halone : ∀ u ∈ w.visits, u.stage = .raising → u.key ≠ key) :
    Sound redis ext pool W { w with visits := w.visits.set i t } := by
  subst hkey
  refine hw.visits (forall_mem_set hw.along halong) hw.late ?_ ?_ ?_
  · intro j u hu
    rcases getElem?_set_cases hu with ⟨rfl, rfl⟩ | ⟨-, hu⟩
    · exact Or.inl hadmitted
    · exact Or.inr ⟨u, hu, rfl, rfl⟩
  · intro j k u v hu hv hustage hvstage hsame
    rcases getElem?_set_cases hu with ⟨rfl, rfl⟩ | ⟨-, hold⟩ <;>
      rcases getElem?_set_cases hv with ⟨rfl, rfl⟩ | ⟨-, hold'⟩
    · rfl
    · exact absurd hsame.symm (halone v (List.mem_of_getElem? hold') hvstage)
    · exact absurd hsame (halone u (List.mem_of_getElem? hold) hustage)
    · exact hw.once j k u v hold hold' hustage hvstage hsame
  · intro u hu hustage v hv hsame b hb
    rcases List.mem_or_eq_of_mem_set hu with hu | rfl
    · exact hw.missed u hu hustage v hv hsame b hb
    · -- the entry of `v` was not read, so it has expired
      have hlasts := hw.held v hv b hb
      rw [hsame] at hlasts
      exact hlasts.le_of_read hread

theorem Sound.admit (hw : Sound redis ext pool W w) {i : ℕ} {t t' : Visit V} {json : String}
    {ms : ℕ} {server : S} (ht : w.visits[i]? = some t) (hstage : t.stage = .raising)
    (hserve : redis.serve w.server (.string (.psetEx t.key json ms)) = (.ok (), server))
    (hentry : redis.entry server t.key = some ⟨json, some (redis.now w.server + ms)⟩)
    (hms : W t.request ≤ ms) (halong : Along ext pool t') (hrequest : t'.request = t.request)
    (hadmitted : t'.admitted = some (redis.now w.server)) (hstage' : t'.stage ≠ .raising) :
    Sound redis ext pool W { w with server, visits := w.visits.set i t' } := by
  have hkey : t'.key = t.key := by rw [Visit.key, Visit.key, hrequest]
  -- who had the key before is past its time
  have hmissed : ∀ u ∈ w.visits, u.key = t.key → ∀ b ∈ u.admitted,
      b + W u.request ≤ redis.now w.server :=
    hw.missed t (List.mem_of_getElem? ht) hstage
  have hnow : ∀ b ∈ t'.admitted, b = redis.now w.server := by
    intro b hb
    exact Option.some.inj (hb.symm.trans hadmitted)
  have hserver : redis.now server = redis.now w.server := by
    have hkept := redis.now_serve w.server (.string (.psetEx t.key json ms))
    rwa [hserve] at hkept
  constructor
  · exact forall_mem_set hw.along halong
  · exact hw.late
  · rw [hserver]
    exact forall_mem_set hw.past fun b hb => (hnow b hb).le
  · intro u hu b hb
    rcases List.mem_or_eq_of_mem_set hu with hu | rfl
    · by_cases hsame : u.key = t.key
      · refine .of_le ?_
        rw [hserver]
        exact hmissed u hu hsame b hb
      · have hkeeps : redis.Keeps u.key w.server server := by
          have hkept := @serve_keeps _ redis u.key w.server (.string (.psetEx t.key json ms)) hsame
          rwa [hserve] at hkept
        exact (hw.held u hu b hb).keeps hkeeps
    · rw [hkey, hnow b hb, hrequest]
      exact .of_entry hentry (Nat.add_le_add_left hms _)
  · intro j k u v hu hv hustage hvstage hsame
    rcases getElem?_set_cases hu with ⟨rfl, rfl⟩ | ⟨-, hold⟩
    · exact absurd hustage hstage'
    · rcases getElem?_set_cases hv with ⟨rfl, rfl⟩ | ⟨-, hold'⟩
      · exact absurd hvstage hstage'
      · exact hw.once j k u v hold hold' hustage hvstage hsame
  · intro u hu hustage v hv hsame b hb
    obtain ⟨j, hj⟩ := List.mem_iff_getElem?.mp hu
    rcases getElem?_set_cases hj with ⟨rfl, rfl⟩ | ⟨hne, hold⟩
    · exact absurd hustage hstage'
    · rcases List.mem_or_eq_of_mem_set hv with hv | rfl
      · rw [hserver]
        exact hw.missed u (List.mem_of_getElem? hold) hustage v hv hsame b hb
      · exact absurd (hw.once j i u t hold ht hustage hstage (hsame.symm.trans hkey)) hne
  · intro j k u v hne hu hv hsame b hb c hc
    rcases getElem?_set_cases hu with ⟨rfl, rfl⟩ | ⟨-, hold⟩ <;>
      rcases getElem?_set_cases hv with ⟨rfl, rfl⟩ | ⟨-, hold'⟩
    · exact absurd rfl hne
    · rw [hnow b hb]
      exact Or.inr (hmissed v (List.mem_of_getElem? hold') (hsame.symm.trans hkey) c hc)
    · rw [hnow c hc]
      exact Or.inl (hmissed u (List.mem_of_getElem? hold) (hsame.trans hkey) b hb)
    · exact hw.apart j k u v hne hold hold' hsame b hb c hc

theorem Sound.server (hw : Sound redis ext pool W w) {server : S} {late : List Command}
    (hnow : redis.now w.server ≤ redis.now server) (hlate : ∀ c ∈ late, Expires pool (.redis c))
    (hheld : ∀ t ∈ w.visits, ∀ a ∈ t.admitted, redis.Lasts server t.key (a + W t.request)) :
    Sound redis ext pool W { w with server, late } where
  along := hw.along
  late := hlate
  past t ht a ha := (hw.past t ht a ha).trans hnow
  held := hheld
  once := hw.once
  missed t ht hstage u hu hkey a ha := (hw.missed t ht hstage u hu hkey a ha).trans hnow
  apart := hw.apart

theorem Sound.land (hw : Sound redis ext pool W w) {j : ℕ} {command : Command}
    (hj : w.late[j]? = some command) (hkeeps : Keeps redis W w (.land j)) :
    Sound redis ext pool W { w with
      server := (redis.serve w.server (.string command)).2, late := w.late.eraseIdx j } := by
  have hlate : ∀ c ∈ w.late.eraseIdx j, Expires pool (.redis c) :=
    fun c hc => hw.late c (List.mem_of_mem_eraseIdx hc)
  have hexpires := hw.late command (List.mem_of_getElem? hj)
  refine hw.server (redis.now_serve ..).ge hlate fun t ht a ha => ?_
  cases command with
  | get key =>
    rw [redis.get]
    exact hw.held t ht a ha
  | set key json => exact hexpires.elim
  | psetEx key json ms =>
    by_cases hsame : t.key = key
    · subst hsame
      have hpos : 0 < ms := lt_of_lt_of_le (by decide) hexpires.1
      obtain ⟨server, hserve, hentry⟩ := redis.psetEx w.server t.key json ms hpos
      rw [hserve]
      exact .of_entry hentry (hkeeps _ _ _ hj t ht rfl a ha)
    · exact (hw.held t ht a ha).keeps (serve_keeps w.server hsame)

theorem Sound.arrive (hw : Sound redis ext pool W w) (random : List UInt8) (request : Request) :
    Sound redis ext pool W { w with visits := w.visits ++ [.new ext pool random request] } := by
  -- who is about to store was so before
  have hraising : ∀ {j : ℕ} {u : Visit V},
      (w.visits ++ [.new ext pool random request])[j]? = some u → u.stage = .raising →
      w.visits[j]? = some u := by
    intro j u hu hstage
    rcases getElem?_concat_cases hu with hu | ⟨-, rfl⟩
    · exact hu
    · exact absurd hstage (new_stage random request)
  refine hw.visits (forall_mem_concat hw.along (.new random request)) hw.late ?_ ?_ ?_
  · intro j u hu
    rcases getElem?_concat_cases hu with hu | ⟨-, rfl⟩
    · exact Or.inr ⟨u, hu, rfl, rfl⟩
    · exact Or.inl rfl
  · intro j k u v hu hv hustage hvstage hsame
    exact hw.once j k u v (hraising hu hustage) (hraising hv hvstage) hustage hvstage hsame
  · intro u hu hustage
    obtain ⟨j, hj⟩ := List.mem_iff_getElem?.mp hu
    exact hw.missed u (List.mem_of_getElem? (hraising hj hustage)) hustage

theorem Sound.answer (hw : Sound redis ext pool W w)
    (hW : ∀ request a, accept ext request = .ok a → W request ≤ window ext pool request)
    {i : ℕ} (halone : Alone w (.redis i)) (h : step redis ext pool w (.redis i) = some w') :
    Sound redis ext pool W w' := by
  cases ht : w.visits[i]? with
  | none => simp [ReplayWindow.step, ht] at h
  | some t =>
    cases hw.along t (List.mem_of_getElem? ht) with
    | @looking requestId seen request a ha =>
      have hkey : a.key = header request "idempotency-key" := (accept_ok ha).1
      cases hread : redis.read w.server a.key with
      | some cached =>
        rw [step_lookUp_some ht hread] at h
        obtain rfl := Option.some.inj h
        exact hw.settle ht (.refused _ _) rfl rfl (by simp [Task.stage]) hw.late
      | none =>
        rw [step_lookUp_none ht hread] at h
        obtain rfl := Option.some.inj h
        rw [hkey] at hread
        have hothers : ∀ u ∈ w.visits, u.stage = .raising →
            u.key ≠ header request "idempotency-key" :=
          halone _ ht (lookUp_stage ..)
        exact hw.miss (.storing _ _ ha) rfl rfl hread hothers
    | @storing requestId seen request a ha =>
      have hkey : a.key = header request "idempotency-key" := (accept_ok ha).1
      obtain ⟨server, hserve, hentry, hstep⟩ := step_store ha ht
      obtain rfl := Option.some.inj (hstep.symm.trans h)
      rw [hkey] at hserve hentry
      exact hw.admit ht (storeAndRun_stage ..) hserve hentry (hW request a ha) (.running _ _ _ _)
        rfl rfl (by simp [Task.stage, runNext])
    | running | ran | refused => simp [ReplayWindow.step, ht, runNext] at h

theorem Sound.fail (hw : Sound redis ext pool W w) {i : ℕ} {error : Option String} {sent : Bool}
    (h : step redis ext pool w (.fail i error sent) = some w') : Sound redis ext pool W w' := by
  have hlate : ∀ {command : Command}, Expires pool (.redis command) →
      ∀ c ∈ (if sent then w.late ++ [command] else w.late), Expires pool (.redis c) := by
    intro command hcommand
    cases sent with
    | true => exact forall_mem_concat hw.late hcommand
    | false => exact hw.late
  cases ht : w.visits[i]? with
  | none => simp [ReplayWindow.step, ht] at h
  | some t =>
    cases hw.along t (List.mem_of_getElem? ht) with
    | looking requestId seen ha =>
      obtain ⟨response, hstep⟩ := step_fail_lookUp error sent ht
      obtain rfl := Option.some.inj (hstep.symm.trans h)
      exact hw.settle ht (.refused _ _) rfl rfl (by simp [Task.stage]) (hlate trivial)
    | storing requestId seen ha =>
      obtain ⟨response, hstep⟩ := step_fail_store error sent ha ht
      obtain rfl := Option.some.inj (hstep.symm.trans h)
      exact hw.settle ht (.refused _ _) rfl rfl (by simp [Task.stage])
        (hlate (store_expires pool ha _ _))
    | running | ran | refused => simp [ReplayWindow.step, ht, runNext] at h

theorem Sound.handler (hw : Sound redis ext pool W w) {i : ℕ} {response : Response V}
    (h : step redis ext pool w (.handler i response) = some w') : Sound redis ext pool W w' := by
  cases ht : w.visits[i]? with
  | none => simp [ReplayWindow.step, ht] at h
  | some t =>
    cases hw.along t (List.mem_of_getElem? ht) with
    | running requestId seen request admitted =>
      rw [step_runNext ht] at h
      obtain rfl := Option.some.inj h
      exact hw.settle ht (.ran _ _ _) rfl rfl (by simp [Task.stage]) hw.late
    | looking requestId seen ha => simp [ReplayWindow.step, ht, lookUp_eq] at h
    | storing requestId seen ha => simp [ReplayWindow.step, ht, store_eq ha] at h
    | ran | refused => simp [ReplayWindow.step, ht] at h

theorem Sound.step (hw : Sound redis ext pool W w)
    (hW : ∀ request a, accept ext request = .ok a → W request ≤ window ext pool request)
    {e : Event V} (halone : Alone w e) (hkeeps : Keeps redis W w e)
    (h : ReplayWindow.step redis ext pool w e = some w') : Sound redis ext pool W w' := by
  cases e with
  | tick ms =>
    obtain rfl := Option.some.inj h
    exact hw.server (le_now_advance ..) hw.late fun t ht a ha =>
      (hw.held t ht a ha).keeps (advance_keeps w.server ms)
  | others command =>
    simp only [ReplayWindow.step] at h
    split_ifs at h with hfree
    obtain rfl := Option.some.inj h
    exact hw.server (redis.now_serve ..).ge hw.late fun t ht a ha =>
      (hw.held t ht a ha).keeps (serve_keeps w.server (hfree t ht))
  | arrive random request =>
    obtain rfl := Option.some.inj h
    exact hw.arrive random request
  | redis i => exact hw.answer hW halone h
  | fail i error sent => exact hw.fail h
  | land j =>
    obtain ⟨command, hj, rfl⟩ := Option.map_eq_some_iff.mp h
    exact hw.land hj hkeeps
  | handler i response => exact hw.handler h

/-! ## How far apart requests are admitted -/

theorem Sound.keeps (hw : Sound redis ext pool (fun _ => 4000) w) (e : Event V) :
    Keeps redis (fun _ => 4000) w e := by
  cases e with
  | land j =>
    intro key json ms hj t ht hkey a ha
    have hexpires : Expires pool (.redis (.psetEx key json ms)) :=
      hw.late _ (List.mem_of_getElem? hj)
    exact Nat.add_le_add (hw.past t ht a ha) hexpires.1
  | tick | others | arrive | redis | fail | handler => trivial

/-- In every run in which no lookup falls between the lookup and the store of another request
with that key: no request gets to the handler twice or without having been admitted; the key
of an admitted request is found for 4 seconds, and two requests with one key are admitted at
least 4 seconds apart. Where no store is served late, they are as far apart as the whole
lifetime with which the earlier one had its key stored. -/
theorem replay_window (redis : Server S) (ext : Externals V) (pool : RedisPool) (server : S)
    (es : List (Event V)) (w : World S V)
    (hrun : run (step redis ext pool) ⟨server, [], []⟩ es = some w)
    (halone : AllSteps (step redis ext pool) Alone ⟨server, [], []⟩ es) :
    (∀ t ∈ w.visits, t.runs ≤ 1 ∧ (t.runs = 1 → t.admitted.isSome = true) ∧
        ∀ a ∈ t.admitted, redis.now w.server < a + 4000 →
          (redis.read w.server t.key).isSome = true) ∧
      (∀ (i j : ℕ) (t u : Visit V), i ≠ j → w.visits[i]? = some t → w.visits[j]? = some u →
        t.key = u.key → ∀ a ∈ t.admitted, ∀ b ∈ u.admitted, a + 4000 ≤ b ∨ b + 4000 ≤ a) ∧
      (AllSteps (step redis ext pool) Prompt ⟨server, [], []⟩ es →
        ∀ (i j : ℕ) (t u : Visit V), i ≠ j → w.visits[i]? = some t → w.visits[j]? = some u →
          t.key = u.key → ∀ a ∈ t.admitted, ∀ b ∈ u.admitted,
            a + window ext pool t.request ≤ b ∨ b + window ext pool u.request ≤ a) := by
  have hsound : Sound redis ext pool (fun _ => 4000) w :=
    run_invariant_of (fun _ e _ hw halone h => hw.step (fun _ _ => window_ge) halone (hw.keeps e) h)
      (.start server) halone hrun
  refine ⟨fun t ht => ?_, hsound.apart, fun hprompt => ?_⟩
  · obtain ⟨honce, hadmitted⟩ := (hsound.along t ht).runs
    exact ⟨honce, hadmitted, fun a ha => (hsound.held t ht a ha).read_isSome⟩
  · have hkeeps : AllSteps (step redis ext pool) (Keeps redis (window ext pool))
        ⟨server, [], []⟩ es :=
      allSteps_of_invariant (P := fun _ _ => True) (I := fun _ => True)
        (fun _ _ _ _ _ _ => trivial) (fun _ _ _ => Prompt.keeps) trivial (allSteps_true _ _) hprompt
    exact (run_invariant_of
      (fun _ _ _ hw hstep h => hw.step (fun _ _ _ => le_rfl) hstep.1 hstep.2 h)
      (Sound.start server) (halone.and hkeeps) hrun).apart

end

/-- The second request comes when the key of the first one has just expired; the lookup of a
third is served after the request has given up. -/
def twice : List (Event String) :=
  [.arrive (List.replicate 16 0) emptyObject, .redis 0, .redis 0, .handler 0 handled, .tick 9000,
    .arrive (List.replicate 16 1) emptyObject, .redis 1, .redis 1, .handler 1 handled,
    .arrive (List.replicate 16 2) emptyObject, .fail 2 none true, .land 0]

theorem replay_window_twice :
    ∃ w, run (step inMemory texts ⟨noEntries⟩) ⟨.empty, [], []⟩ twice = some w ∧
      (w.visits.map Visit.admitted = [some 0, some 9000, none] ∧
        AllSteps (step inMemory texts ⟨noEntries⟩) Prompt ⟨.empty, [], []⟩ twice) ∧
      (∀ t ∈ w.visits, t.runs ≤ 1 ∧ (t.runs = 1 → t.admitted.isSome = true) ∧
        ∀ a ∈ t.admitted, inMemory.now w.server < a + 4000 →
          (inMemory.read w.server t.key).isSome = true) ∧
      (∀ (i j : ℕ) (t u : Visit String), i ≠ j → w.visits[i]? = some t → w.visits[j]? = some u →
        t.key = u.key → ∀ a ∈ t.admitted, ∀ b ∈ u.admitted, a + 4000 ≤ b ∨ b + 4000 ≤ a) ∧
      (AllSteps (step inMemory texts ⟨noEntries⟩) Prompt ⟨.empty, [], []⟩ twice →
        ∀ (i j : ℕ) (t u : Visit String), i ≠ j → w.visits[i]? = some t → w.visits[j]? = some u →
          t.key = u.key → ∀ a ∈ t.admitted, ∀ b ∈ u.admitted,
            a + window texts ⟨noEntries⟩ t.request ≤ b ∨
              b + window texts ⟨noEntries⟩ u.request ≤ a) := by
  have hadmitted : (run (step inMemory texts ⟨noEntries⟩) ⟨.empty, [], []⟩ twice).map
      (fun w => w.visits.map Visit.admitted) = some [some 0, some 9000, none] := by decide +kernel
  have hprompt : AllSteps (step inMemory texts ⟨noEntries⟩) Prompt ⟨.empty, [], []⟩ twice := by
    decide +kernel
  obtain ⟨w, hrun, htimes⟩ := Option.map_eq_some_iff.mp hadmitted
  exact ⟨w, hrun, ⟨htimes, hprompt⟩,
    replay_window inMemory texts ⟨noEntries⟩ .empty twice w hrun (by decide +kernel)⟩

end PaycloudHelper.Auth.ReplayWindow
