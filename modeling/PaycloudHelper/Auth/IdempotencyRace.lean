import Mathlib
import PaycloudHelper.Library.CheckThenAct
import PaycloudHelper.Auth.Idempotency

/-!
# Requests with one idempotency key

Any number of requests in the middleware at once, over one Redis. Each Redis command is
one step and succeeds, and nothing expires. Looking the key up and storing it are two
commands, so the middleware is the check-then-act protocol, with the key's presence as
the flag.
-/

namespace PaycloudHelper.Auth

open Programs Http Redis Runs
open CheckThenAct (Stage State)
open Slots (forall_mem_set)

structure Task (V : Type) where
  prog : Middleware V (Response V)
  runs : ℕ

structure World (V : Type) where
  redis : String → Option String
  tasks : List (Task V)

inductive Event (V : Type)
  | redis (request : ℕ)
  | handler (request : ℕ) (response : Response V)

variable {V : Type}

def Event.request : Event V → ℕ
  | .redis i | .handler i _ => i

def World.start (ext : Externals V) (pool : RedisPool) (redis : String → Option String)
    (requests : List (List UInt8 × Request)) : World V :=
  ⟨redis, requests.map fun r => ⟨verifyIdempotency ext pool r.1 r.2, 0⟩⟩

def answer (redis : String → Option String) : (command : Command) →
    command.Answer × (String → Option String)
  | .get key => (.ok (redis key), redis)
  | .set key json | .psetEx key json _ => (.ok (), Function.update redis key (some json))

def step (w : World V) : Event V → Option (World V)
  | .redis i =>
    match w.tasks[i]? with
    | some ⟨.ask (.redis command) resume, runs⟩ =>
      let (reply, redis) := answer w.redis command
      some ⟨redis, w.tasks.set i ⟨resume reply, runs⟩⟩
    | _ => none
  | .handler i response =>
    match w.tasks[i]? with
    | some ⟨.ask (.next _) resume, runs⟩ =>
      some { w with tasks := w.tasks.set i ⟨resume response, runs + 1⟩ }
    | _ => none

def World.handlerRuns (w : World V) : ℕ := (w.tasks.map Task.runs).sum

def Task.finished (t : Task V) : Prop := ∃ response, t.prog = .done response

def AtMostOnce (w : World V) : Prop :=
  w.handlerRuns ≤ 1 ∧
    ∀ t ∈ w.tasks, t.runs = 0 → ∀ response, t.prog = .done response → response.status = 202

/-! ## The protocol behind it -/

def Task.stage (t : Task V) : Stage :=
  match t.prog with
  | .ask (.redis (.get _)) _ => .looking
  | .ask (.redis (.set _ _)) _ | .ask (.redis (.psetEx _ _ _)) _ => .raising
  | .ask (.next _) _ => .acting
  | .done _ => if t.runs = 0 then .refused else .acted

def World.protocol (w : World V) (key : String) : State :=
  ⟨(w.redis key).isSome, w.tasks.map Task.stage⟩

/-- No request looks its key up while another one has missed it and not yet stored it. -/
def Alone (w : World V) (e : Event V) : Prop :=
  (∃ t, w.tasks[e.request]? = some t ∧ t.stage = .looking) → ∀ t ∈ w.tasks, t.stage ≠ .raising

inductive Along (ext : Externals V) (pool : RedisPool) (key : String) : Task V → Prop
  | looking (requestId : String) (request : Request) {a : Accepted V} (ha : a.key = key) :
      Along ext pool key ⟨lookUp ext pool requestId request a, 0⟩
  | storing (requestId : String) (request : Request) {a : Accepted V} (ha : a.key = key) :
      Along ext pool key ⟨storeAndRun ext pool requestId request a, 0⟩
  | running (requestId : String) (request : Request) :
      Along ext pool key ⟨runNext requestId request, 0⟩
  | ran (response : Response V) : Along ext pool key ⟨.done response, 1⟩
  | duplicate {response : Response V} (h : response.status = 202) :
      Along ext pool key ⟨.done response, 0⟩

variable {ext : Externals V} {pool : RedisPool} {key : String}

theorem lookUp_stage (requestId : String) (request : Request) (a : Accepted V) (runs : ℕ) :
    (⟨lookUp ext pool requestId request a, runs⟩ : Task V).stage = .looking := rfl

theorem storeAndRun_eq (ext : Externals V) (pool : RedisPool) (requestId : String)
    (request : Request) (a : Accepted V) :
    ∃ (command : Command) (resume : command.Answer → Middleware V (Response V)),
      storeAndRun ext pool requestId request a = .ask (.redis command) resume ∧
        (∀ key, command ≠ .get key) ∧
        ∀ redis, (resume (answer redis command).1, (answer redis command).2) =
          (runNext requestId { request with body := .ok a.bytes },
            Function.update redis a.key (some (ext.toText a.value))) := by
  unfold storeAndRun RedisPool.store
  dsimp only
  split_ifs
  · exact ⟨_, _, rfl, by simp, fun _ => rfl⟩
  · exact ⟨_, _, rfl, by simp, fun _ => rfl⟩

theorem storeAndRun_stage (requestId : String) (request : Request) (a : Accepted V) (runs : ℕ) :
    (⟨storeAndRun ext pool requestId request a, runs⟩ : Task V).stage = .raising := by
  obtain ⟨command, resume, heq, hget, -⟩ := storeAndRun_eq ext pool requestId request a
  rw [heq]
  cases command with
  | get key => exact absurd rfl (hget key)
  | set | psetEx => rfl

section
variable {w : World V} {i : ℕ} {requestId : String} {request : Request} {a : Accepted V}

theorem step_lookUp_some {cached : String}
    (h : w.tasks[i]? = some ⟨lookUp ext pool requestId request a, 0⟩)
    (hcached : w.redis a.key = some cached) :
    step w (.redis i) = some ⟨w.redis, w.tasks.set i
      ⟨.done (withRequestId (inProcess ext cached).intoResponse requestId), 0⟩⟩ := by
  rw [lookUp_eq] at h
  simp only [step, h, answer, hcached]
  rfl

theorem step_lookUp_none (h : w.tasks[i]? = some ⟨lookUp ext pool requestId request a, 0⟩)
    (hnone : w.redis a.key = none) :
    step w (.redis i) = some ⟨w.redis, w.tasks.set i
      ⟨storeAndRun ext pool requestId request a, 0⟩⟩ := by
  rw [lookUp_eq] at h
  simp only [step, h, answer, hnone]
  rfl

theorem step_storeAndRun (h : w.tasks[i]? = some ⟨storeAndRun ext pool requestId request a, 0⟩) :
    step w (.redis i) =
      some ⟨Function.update w.redis a.key (some (ext.toText a.value)), w.tasks.set i
        ⟨runNext requestId { request with body := .ok a.bytes }, 0⟩⟩ := by
  obtain ⟨command, resume, heq, -, hanswer⟩ := storeAndRun_eq ext pool requestId request a
  rw [heq] at h
  obtain ⟨hresume, hredis⟩ := Prod.mk.inj (hanswer w.redis)
  simp only [step, h, hresume, hredis]

theorem step_runNext (h : w.tasks[i]? = some ⟨runNext requestId request, 0⟩)
    (response : Response V) :
    step w (.handler i response) =
      some { w with tasks := w.tasks.set i ⟨.done (withRequestId response requestId), 1⟩ } := by
  simp only [step, h, runNext]

theorem protocol_stage {t : Task V} (h : w.tasks[i]? = some t) (key : String) :
    (w.protocol key).stages[i]? = some t.stage := by
  simp [World.protocol, h]

theorem protocol_set (redis : String → Option String) (t : Task V) (key : String) :
    (⟨redis, w.tasks.set i t⟩ : World V).protocol key =
      ⟨(redis key).isSome, (w.protocol key).stages.set i t.stage⟩ := by
  simp [World.protocol, List.map_set]

theorem Along.step {w' : World V} {e : Event V} (hall : ∀ t ∈ w.tasks, Along ext pool key t)
    (h : Auth.step w e = some w') :
    (∀ t ∈ w'.tasks, Along ext pool key t) ∧
      CheckThenAct.step (w.protocol key) e.request = some (w'.protocol key) := by
  cases e with
  | redis i =>
    cases ht : w.tasks[i]? with
    | none => simp [Auth.step, ht] at h
    | some t =>
      have hstage := protocol_stage ht key
      cases hall t (List.mem_of_getElem? ht) with
      | @looking requestId request a ha =>
        rw [lookUp_stage] at hstage
        subst ha
        cases hr : w.redis a.key with
        | none =>
          rw [step_lookUp_none ht hr] at h
          obtain rfl := Option.some.inj h
          refine ⟨forall_mem_set hall (.storing _ _ rfl), ?_⟩
          rw [Event.request, CheckThenAct.step_looking hstage, protocol_set, storeAndRun_stage]
          simp [World.protocol, hr]
        | some cached =>
          rw [step_lookUp_some ht hr] at h
          obtain rfl := Option.some.inj h
          refine ⟨forall_mem_set hall (.duplicate (by rw [withRequestId_status]; rfl)), ?_⟩
          rw [Event.request, CheckThenAct.step_looking hstage, protocol_set]
          simp [World.protocol, hr, Task.stage]
      | storing requestId request ha =>
        rw [storeAndRun_stage] at hstage
        rw [step_storeAndRun ht] at h
        obtain rfl := Option.some.inj h
        refine ⟨forall_mem_set hall (.running _ _), ?_⟩
        rw [Event.request, CheckThenAct.step_raising hstage, protocol_set]
        simp [ha, Task.stage, runNext]
      | running | ran | duplicate => simp [Auth.step, ht, runNext] at h
  | handler i response =>
    cases ht : w.tasks[i]? with
    | none => simp [Auth.step, ht] at h
    | some t =>
      have hstage := protocol_stage ht key
      cases hall t (List.mem_of_getElem? ht) with
      | looking requestId request ha => simp [Auth.step, ht, lookUp_eq] at h
      | @storing requestId request a ha =>
        obtain ⟨command, resume, heq, -⟩ := storeAndRun_eq ext pool requestId request a
        simp [Auth.step, ht, heq] at h
      | running requestId request =>
        rw [step_runNext ht] at h
        obtain rfl := Option.some.inj h
        refine ⟨forall_mem_set hall (.ran _), ?_⟩
        rw [Event.request, CheckThenAct.step_acting hstage, protocol_set]
        simp [World.protocol, Task.stage]
      | ran | duplicate => simp [Auth.step, ht] at h

end

/-! ## At most once -/

section
variable {w : World V} {t : Task V}

theorem Along.runs (h : Along ext pool key t) : t.runs = if t.stage == .acted then 1 else 0 := by
  cases h with
  | looking | running | ran | duplicate => rfl
  | storing requestId request =>
    rw [storeAndRun_stage]
    rfl

theorem Along.answered (h : Along ext pool key t) (hruns : t.runs = 0) {response : Response V}
    (hdone : t.prog = .done response) : response.status = 202 := by
  cases h with
  | looking requestId request => cases hdone
  | @storing requestId request a =>
    obtain ⟨command, resume, heq, -⟩ := storeAndRun_eq ext pool requestId request a
    rw [heq] at hdone
    cases hdone
  | running => cases hdone
  | ran => cases hruns
  | duplicate hstatus =>
    cases hdone
    exact hstatus

theorem Task.finished.stage (h : t.finished) : t.stage = .acted ∨ t.stage = .refused := by
  obtain ⟨response, hdone⟩ := h
  unfold Task.stage
  rw [hdone]
  dsimp only
  split_ifs
  · exact Or.inr rfl
  · exact Or.inl rfl

theorem handlerRuns_eq (hall : ∀ t ∈ w.tasks, Along ext pool key t) :
    w.handlerRuns = (w.protocol key).acted := by
  have hcount : ∀ tasks : List (Task V), (∀ t ∈ tasks, Along ext pool key t) →
      (tasks.map Task.runs).sum = (tasks.map Task.stage).countP (· == .acted) := by
    intro tasks
    induction tasks with
    | nil => exact fun _ => rfl
    | cons t tasks ih =>
      intro hall
      obtain ⟨ht, hall⟩ := List.forall_mem_cons.mp hall
      rw [List.map_cons, List.map_cons, List.sum_cons, List.countP_cons, ih hall, ht.runs]
      exact Nat.add_comm _ _
  exact hcount w.tasks hall

theorem Along.atMostOnce (hall : ∀ t ∈ w.tasks, Along ext pool key t) :
    AtMostOnce w ↔ (w.protocol key).acted ≤ 1 := by
  unfold AtMostOnce
  rw [handlerRuns_eq hall]
  exact and_iff_left fun t ht hruns response hdone => (hall t ht).answered hruns hdone

end

theorem start_along {redis : String → Option String} {requests : List (List UInt8 × Request)}
    (hpass : ∀ r ∈ requests, ∃ a, accept ext r.2 = .ok a ∧ a.key = key) :
    ∀ t ∈ (World.start ext pool redis requests).tasks,
      Along ext pool key t ∧ t.stage = .looking := by
  intro t ht
  obtain ⟨r, hr, rfl⟩ := List.mem_map.mp ht
  obtain ⟨a, ha, hkey⟩ := hpass r hr
  have hverify : verifyIdempotency ext pool r.1 r.2 =
      lookUp ext pool (ensureRequestId r.1 r.2).1 (ensureRequestId r.1 r.2).2 a := by
    simp only [verifyIdempotency, accept_ensureRequestId, ha]
  rw [hverify]
  exact ⟨.looking _ _ hkey, lookUp_stage ..⟩

section
variable {redis : String → Option String} {requests : List (List UInt8 × Request)}
variable {es : List (Event V)} {w : World V}

theorem alone_iff (w : World V) (e : Event V) :
    Alone w e ↔ CheckThenAct.Undisturbed (w.protocol key) e.request := by
  simp [Alone, CheckThenAct.Undisturbed, World.protocol]

theorem along_of_run (hpass : ∀ r ∈ requests, ∃ a, accept ext r.2 = .ok a ∧ a.key = key)
    (hrun : run step (World.start ext pool redis requests) es = some w) :
    ∀ t ∈ w.tasks, Along ext pool key t :=
  run_invariant (fun _ _ _ hall h => (Along.step hall h).1)
    (fun t ht => (start_along hpass t ht).1) hrun

theorem protocol_run (hpass : ∀ r ∈ requests, ∃ a, accept ext r.2 = .ok a ∧ a.key = key)
    (hrun : run step (World.start ext pool redis requests) es = some w) :
    run CheckThenAct.step ((World.start ext pool redis requests).protocol key)
      (es.map Event.request) = some (w.protocol key) :=
  run_simulation (fun _ _ _ hall h => Along.step hall h)
    (fun t ht => (start_along hpass t ht).1) hrun

theorem allSteps_alone (hpass : ∀ r ∈ requests, ∃ a, accept ext r.2 = .ok a ∧ a.key = key)
    (hrun : run step (World.start ext pool redis requests) es = some w) :
    AllSteps step Alone (World.start ext pool redis requests) es ↔
      AllSteps CheckThenAct.step CheckThenAct.Undisturbed
        ((World.start ext pool redis requests).protocol key) (es.map Event.request) :=
  allSteps_simulation (fun _ _ _ hall h => Along.step hall h) alone_iff
    (fun t ht => (start_along hpass t ht).1) hrun

/-- The handler runs at most once, and every other request is answered 202, in the runs
in which no lookup falls between the lookup and the store of another request; and in no
other run in which every request is answered. -/
theorem handler_at_most_once_iff
    (hpass : ∀ r ∈ requests, ∃ a, accept ext r.2 = .ok a ∧ a.key = key)
    (hrun : run step (World.start ext pool redis requests) es = some w) :
    (AllSteps step Alone (World.start ext pool redis requests) es → AtMostOnce w) ∧
      ((∀ t ∈ w.tasks, t.finished) → AtMostOnce w →
        AllSteps step Alone (World.start ext pool redis requests) es) := by
  have hlooking : ∀ stage ∈ ((World.start ext pool redis requests).protocol key).stages,
      stage = .looking := by
    intro stage hstage
    obtain ⟨t, ht, rfl⟩ := List.mem_map.mp hstage
    exact (start_along hpass t ht).2
  rw [allSteps_alone hpass hrun, Along.atMostOnce (along_of_run hpass hrun)]
  constructor
  · exact fun hquiet => CheckThenAct.at_most_one_acts hlooking hquiet (protocol_run hpass hrun)
  · intro hdone hone
    apply CheckThenAct.undisturbed_of_once hlooking (protocol_run hpass hrun) _ hone
    intro stage hstage
    obtain ⟨t, ht, rfl⟩ := List.mem_map.mp hstage
    exact (hdone t ht).stage

end

/-! ## Two requests with an empty object -/

def texts : Externals String where
  fromSlice _ := .ok "\x7b\x7d"
  ignoredAny _ := .ok ()
  fromText := .ok
  toText := id
  string := id
  md5 _ := [0x99, 0x91, 0x4b, 0x93, 0x2b, 0xd3, 0x7a, 0x50,
    0xb9, 0x83, 0xc5, 0xe7, 0xc9, 0x0a, 0xe9, 0x3b]

def emptyObject : Request where
  headers :=
    [("idempotency-key", ascii "99914b932bd37a50b983c5e7c90ae93b"),
      ("content-type", ascii "application/json")]
  body := .ok [0x7b, 0x7d]

def requests : List (List UInt8 × Request) :=
  [(List.replicate 16 0, emptyObject), (List.replicate 16 1, emptyObject)]

def noEntries : String → Option String := fun _ => none

def twice : World String := World.start texts ⟨noEntries⟩ noEntries requests

theorem requests_accepted :
    ∀ r ∈ requests, ∃ a, accept texts r.2 = .ok a ∧ a.key = "99914b932bd37a50b983c5e7c90ae93b" :=
  List.forall_mem_cons.mpr ⟨⟨_, rfl, rfl⟩, List.forall_mem_cons.mpr ⟨⟨_, rfl, rfl⟩, by simp⟩⟩

def handled : Response String := ⟨200, [], .bytes []⟩

def inTurn : List (Event String) := [.redis 0, .redis 0, .handler 0 handled, .redis 1]

def overlapping : List (Event String) :=
  [.redis 0, .redis 1, .redis 0, .redis 1, .handler 0 handled, .handler 1 handled]

theorem handler_at_most_once_iff_inTurn : ∃ w, run step twice inTurn = some w ∧
    AllSteps step Alone twice inTurn ∧ AtMostOnce w := by
  have hrun : run step twice inTurn = some _ := rfl
  have halone : AllSteps step Alone twice inTurn := by
    refine (allSteps_alone requests_accepted hrun).mpr ?_
    have hstart : twice.protocol "99914b932bd37a50b983c5e7c90ae93b" =
      ⟨false, [.looking, .looking]⟩ := rfl
    rw [← twice, hstart]
    simp [AllSteps, CheckThenAct.step, CheckThenAct.Undisturbed, inTurn, Event.request]
  exact ⟨_, hrun, halone, (handler_at_most_once_iff requests_accepted hrun).1 halone⟩

/-- Both requests miss the key before either stores it. -/
theorem handler_runs_twice :
    (∀ r ∈ requests, ∃ a, accept texts r.2 = .ok a ∧
        a.key = "99914b932bd37a50b983c5e7c90ae93b") ∧
      ∃ w, run step twice overlapping = some w ∧ w.handlerRuns = 2 :=
  ⟨requests_accepted, _, rfl, rfl⟩

end PaycloudHelper.Auth
