import Mathlib
import PaycloudHelper.Auth.FailClosed

/-!
# Middlewares behind one another

Any number of the middlewares in any order around one handler: what a middleware passes on
goes to the next one, and the last one asks the handler.
-/

namespace PaycloudHelper.Auth

open Programs Http Redis

variable {V Key : Type}

/-- The program where the requests that it passes on are served by `inner`. -/
def nest (inner : Request → Middleware V (Response V)) :
    Middleware V (Response V) → Middleware V (Response V)
  | .done response => .done response
  | .ask (.redis command) resume => .ask (.redis command) fun reply => nest inner (resume reply)
  | .ask (.next request) resume => (inner request).bind fun response => nest inner (resume response)

abbrev RandomBytes := {bytes : List UInt8 // bytes.length = 16}

inductive Layer (V Key : Type)
  | verifyCsrf (random : RandomBytes) (pool : RedisPool)
  | revokeToken (random : RandomBytes) (ext : TokenExternals Key) (pool : RedisPool)
      (publicKeyPem : String) (now : ℤ)
  | verifyIdempotency (random : RandomBytes) (ext : Externals V) (pool : RedisPool)

namespace Layer

def random : Layer V Key → RandomBytes
  | .verifyCsrf random _ | .revokeToken random _ _ _ _ | .verifyIdempotency random _ _ => random

def run : Layer V Key → Request → Middleware V (Response V)
  | .verifyCsrf random pool, request => Auth.verifyCsrf pool random request
  | .revokeToken random ext pool publicKeyPem now, request =>
    Auth.revokeToken ext pool publicKeyPem now random request
  | .verifyIdempotency random ext pool, request => Auth.verifyIdempotency ext pool random request

def Allowed : Layer V Key → Request → Exchanges V → Request → Prop
  | .verifyCsrf random _, request => CsrfAllowed random request
  | .revokeToken random ext _ publicKeyPem now, request =>
    RevokeAllowed ext publicKeyPem now random request
  | .verifyIdempotency random ext _, request => IdempotencyAllowed ext random request

theorem failsClosed (l : Layer V Key) (request : Request) :
    FailsClosed (l.run request) (requestIdOf l.random request) (l.Allowed request) := by
  cases l with
  | verifyCsrf random pool => exact verifyCsrf_failsClosed pool random request
  | revokeToken random ext pool publicKeyPem now =>
    exact revokeToken_failsClosed pool publicKeyPem now random request
  | verifyIdempotency random ext pool => exact verifyIdempotency_failsClosed pool random request

end Layer

def stack : List (Layer V Key) → Request → Middleware V (Response V)
  | [], request => .ask (.next request) .done
  | l :: ls, request => nest (stack ls) (l.run request)

def Through (Outer : Exchanges V → Request → Prop) (Inner : Request → Exchanges V → Request → Prop)
    (es : Exchanges V) (seen : Request) : Prop :=
  ∃ es₁ passed es₂, es = es₁ ++ es₂ ∧ Outer es₁ passed ∧ Inner passed es₂ seen

def StackAllowed : List (Layer V Key) → Request → Exchanges V → Request → Prop
  | [], request => fun es seen => es = [] ∧ seen = request
  | l :: ls, request => Through (l.Allowed request) (StackAllowed ls)

/-! ## Request ids on the way in -/

theorem visible_lt {n : ℕ} (h : visible n = true) : n < 256 := by
  simp only [visible, Bool.or_eq_true, Bool.and_eq_true, decide_eq_true_eq, beq_iff_eq] at h
  omega

theorem toStr_fromStr {text : String} {value : List UInt8} (h : fromStr text = some value) :
    toStr value = some text := by
  unfold fromStr at h
  split_ifs at h with hvisible
  obtain rfl := Option.some.inj h
  rw [List.all_eq_true] at hvisible
  have hbyte : ∀ c ∈ text.toList, (UInt8.ofNat c.toNat).toNat = c.toNat :=
    fun c hc => UInt8.toNat_ofNat_of_lt' (visible_lt (hvisible c hc))
  have hall : (ascii text).all (fun b => visible b.toNat) = true := by
    rw [List.all_eq_true]
    intro b hb
    obtain ⟨c, hc, rfl⟩ := List.mem_map.mp hb
    rw [hbyte c hc]
    exact hvisible c hc
  have hchars : (ascii text).map (fun b => Char.ofNat b.toNat) = text.toList := by
    rw [ascii, List.map_map]
    refine (List.map_congr_left fun c hc => ?_).trans (List.map_id _)
    simp only [Function.comp_apply, hbyte c hc, Char.ofNat_toNat, id]
  rw [toStr, if_pos hall, hchars, String.ofList_toList]

theorem fromStr_of_toStr {value : List UInt8} {text : String} (h : toStr value = some text) :
    fromStr text = some value := by
  obtain ⟨value', hvalue'⟩ := fromStr_toStr h
  unfold toStr at h
  split_ifs at h with hvisible
  obtain rfl := Option.some.inj h
  rw [List.all_eq_true] at hvisible
  rw [fromStr] at hvalue' ⊢
  split_ifs at hvalue' ⊢
  refine congrArg some ?_
  rw [ascii, String.toList_ofList, List.map_map]
  refine (List.map_congr_left fun b hb => ?_).trans (List.map_id _)
  have hlt := b.toNat_lt
  rw [Function.comp_apply, Char.toNat_ofNat, if_pos (Or.inl (by omega)), UInt8.ofNat_toNat, id]

def Readable (id : List UInt8) : Prop := ∃ text, toStr id = some text ∧ text ≠ ""

theorem hexEncode_ne {bytes : List UInt8} (h : bytes ≠ []) : hexEncode bytes ≠ "" := by
  cases bytes with
  | nil => exact absurd rfl h
  | cons b bs =>
    intro hempty
    have hlist := congrArg String.toList hempty
    simp [hexEncode] at hlist

theorem requestIdOf_readable (random : RandomBytes) (request : Request) :
    Readable (requestIdOf random request) := by
  obtain ⟨hid, -⟩ := requestIdOf_spec random.val request
  refine ⟨_, toStr_fromStr hid, ?_⟩
  have hrandom : random.val ≠ [] := List.ne_nil_of_length_pos (by simp [random.property])
  rw [ensureRequestId_fst]
  unfold getOrGenerateRequestId
  split
  · split_ifs with hne
    · exact hne
    · exact hexEncode_ne hrandom
  · exact hexEncode_ne hrandom

theorem requestIdOf_kept {request : Request} {id : List UInt8} (hreadable : Readable id)
    (hget : request.headers.get requestIdHeader = some id) (random : List UInt8) :
    requestIdOf random request = id := by
  obtain ⟨text, htext, hne⟩ := hreadable
  obtain ⟨hid, -⟩ := requestIdOf_spec random request
  rw [ensureRequestId_fst, hget, Option.bind_some, htext, getOrGenerateRequestId, if_pos hne,
    fromStr_of_toStr htext] at hid
  exact (Option.some.inj hid).symm

/-! ## Nesting -/

section
variable (id : List UInt8) (Allowed : Exchanges V → Request → Prop)

def Passes (es : Exchanges V) : Query → Prop
  | .redis _ => handlerRuns es ≤ 1
  | .next request =>
    handlerRuns es = 0 ∧ Allowed es request ∧ request.headers.get requestIdHeader = some id

variable {id Allowed}

theorem handlerRuns_append (es fs : Exchanges V) :
    handlerRuns (es ++ fs) = handlerRuns es + handlerRuns fs :=
  List.countP_append

theorem FailsClosed.always {p : Middleware V (Response V)} (h : FailsClosed p id Allowed) :
    p.Always (Passes id Allowed) (Ended id) [] := by
  refine Prog.always_of_follows (fun es q resume hp => ?_) fun es response hp => ?_
  · cases q with
    | redis command => exact h.once es _ hp
    | next request => exact h.only es request resume hp
  · exact ⟨h.once es _ hp, h.answered es response hp⟩

theorem failsClosed_of_passes {p : Middleware V (Response V)}
    (h : p.Always (Passes id Allowed) (Ended id) []) : FailsClosed p id Allowed where
  once := by
    intro es p' hp
    have hp' := h.follows hp
    cases p' with
    | done response => exact hp'.1
    | ask q resume =>
      cases q with
      | redis command => exact hp'.1
      | next request => exact hp'.1.1.le.trans (Nat.zero_le 1)
  only := fun es request resume hp => (h.follows hp).1
  answered := fun es response hp => (h.follows hp).2

theorem always_nest_passed {C : Exchanges V → Request → Prop}
    (inner : Request → Middleware V (Response V)) {p : Middleware V (Response V)}
    {es fs : Exchanges V} (h : p.Always (Passes id Allowed) (Ended id) es)
    (hes : handlerRuns es = 1) (hfs : handlerRuns fs ≤ 1) :
    (nest inner p).Always (Passes id C) (Ended id) fs := by
  induction p generalizing es fs with
  | done response => exact ⟨hfs, h.2⟩
  | ask q resume ih =>
    cases q with
    | redis command =>
      refine ⟨hfs, fun reply => ih reply (h.2 reply) ?_ ?_⟩
      · rw [handlerRuns_append, hes]
        rfl
      · rw [handlerRuns_append]
        exact hfs
    | next request => exact absurd (hes.symm.trans h.1.1) one_ne_zero

theorem always_nest {Inner : Request → Exchanges V → Request → Prop}
    {inner : Request → Middleware V (Response V)}
    (hinner : ∀ request, request.headers.get requestIdHeader = some id →
      (inner request).Always (Passes id (Inner request)) (fun es _ => handlerRuns es ≤ 1) [])
    {p : Middleware V (Response V)} {es : Exchanges V}
    (h : p.Always (Passes id Allowed) (Ended id) es) (hes : handlerRuns es = 0) :
    (nest inner p).Always (Passes id (Through Allowed Inner)) (Ended id) es := by
  induction p generalizing es with
  | done response => exact ⟨hes.le.trans (Nat.zero_le 1), h.2⟩
  | ask q resume ih =>
    cases q with
    | redis command =>
      refine ⟨hes.le.trans (Nat.zero_le 1), fun reply => ih reply (h.2 reply) ?_⟩
      rw [handlerRuns_append, hes]
      rfl
    | next request =>
      obtain ⟨⟨-, hallowed, hget⟩, hrest⟩ := h
      have hruns : ∀ fs : Exchanges V, handlerRuns (es ++ fs) = handlerRuns fs := fun fs => by
        rw [handlerRuns_append, hes, Nat.zero_add]
      have hserved : (inner request).Always (Passes id (Through Allowed Inner))
          (fun fs _ => handlerRuns fs ≤ 1) (es ++ []) := by
        refine (hinner request hget).after (fun fs q hq => ?_) fun fs _ hfs => (hruns fs).trans_le hfs
        cases q with
        | redis command => exact (hruns fs).trans_le hq
        | next seen => exact ⟨(hruns fs).trans hq.1, ⟨es, request, fs, rfl, hallowed, hq.2.1⟩, hq.2.2⟩
      rw [List.append_nil] at hserved
      refine hserved.bind fun fs response hfs => always_nest_passed inner (hrest response) ?_ hfs
      rw [hruns]
      rfl

end

/-! ## Stacks -/

theorem stack_always {id : List UInt8} (hreadable : Readable id) (ls : List (Layer V Key))
    (request : Request) (hget : request.headers.get requestIdHeader = some id) :
    (stack ls request).Always (Passes id (StackAllowed ls request))
      (fun es _ => handlerRuns es ≤ 1) [] := by
  induction ls generalizing request with
  | nil => exact ⟨⟨rfl, ⟨rfl, rfl⟩, hget⟩, fun response => le_rfl⟩
  | cons l ls ih =>
    have hclosed := (l.failsClosed request).always
    rw [requestIdOf_kept hreadable hget] at hclosed
    exact (always_nest ih hclosed rfl).mono (fun _ _ h => h) fun _ _ h => h.1

/-- Whatever the middlewares, their order, the request and the answers of Redis: the handler
is asked at most once, behind the checks of all of them, and it and the client get the id
that the outermost one took from the request or drew. -/
theorem stack_fails_closed (l : Layer V Key) (ls : List (Layer V Key)) (request : Request) :
    FailsClosed (stack (l :: ls) request) (requestIdOf l.random request)
      (StackAllowed (l :: ls) request) := by
  have hreadable := requestIdOf_readable l.random request
  exact failsClosed_of_passes
    (always_nest (stack_always hreadable ls) (l.failsClosed request).always rfl)

end PaycloudHelper.Auth
