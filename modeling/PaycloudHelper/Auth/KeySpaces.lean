import Mathlib
import PaycloudHelper.Auth.ReplayWindow
import PaycloudHelper.Auth.Stacks

/-!
# Whose keys the middlewares touch

The key of an idempotency entry comes from a header, and shares one Redis with the CSRF
tokens, the revocation records and the locks. Requests to any stacks of the middlewares run
at once, and their commands may fail and be served late.
-/

namespace PaycloudHelper.Auth.KeySpaces

open Programs Http Redis Runs
open ExpiringMaps (Store View)
open ReplayWindow (refusal)
open Slots (forall_mem_set forall_mem_concat)

/-! ## Owners -/

inductive Owner
  | csrf
  | revocation
  | idempotency
  | locks
deriving DecidableEq, Repr

def isHex (c : Char) : Bool := c.isDigit || ('a' ≤ c && c ≤ 'f')

def Owner.Owns : Owner → String → Prop
  | .csrf, key => ∃ token, key = csrfKey token
  | .revocation, key => ∃ merchantId, key = revokeTokenKey merchantId
  | .idempotency, key => key ≠ "" ∧ ∀ c ∈ key.toList, isHex c = true
  | .locks, key => ∃ appName name, key = lockKey appName name

def Owner.start : Owner → Option (List Char)
  | .csrf => some ['c', 's', 'r']
  | .revocation => some ['r', 'e', 'v']
  | .idempotency => none
  | .locks => some ['r', 'e', 'd']

theorem take_append {text : String} {n : ℕ} (h : n ≤ text.toList.length) (rest : String) :
    (text ++ rest).toList.take n = text.toList.take n := by
  rw [String.toList_append, List.take_append_of_le_length h]

theorem Owner.Owns.take {o : Owner} {key : String} (h : o.Owns key) {start : List Char}
    (hstart : o.start = some start) : key.toList.take 3 = start := by
  cases o with
  | csrf =>
    obtain ⟨token, rfl⟩ := h
    obtain rfl := Option.some.inj hstart
    exact take_append (by decide) token
  | revocation =>
    obtain ⟨merchantId, rfl⟩ := h
    obtain rfl := Option.some.inj hstart
    exact take_append (by decide) (toString merchantId)
  | idempotency => cases hstart
  | locks =>
    obtain ⟨appName, name, rfl⟩ := h
    obtain rfl := Option.some.inj hstart
    have hlength : 3 ≤ ("redis_lock:" ++ appName ++ ":").toList.length := by
      simp only [String.toList_append, List.length_append]
      have hlit : "redis_lock:".toList.length = 11 := rfl
      omega
    rw [lockKey, lockKeyPrefix]
    refine (take_append hlength name).trans ?_
    simp only [String.toList_append, List.append_assoc]
    rfl

theorem Owner.Owns.hex {key : String} (h : Owner.idempotency.Owns key) :
    ∀ c ∈ key.toList.take 3, isHex c = true :=
  fun c hc => h.2 c (List.mem_of_mem_take hc)

theorem Owner.start_not_hex {o : Owner} {start : List Char} (h : o.start = some start) :
    ∃ c ∈ start, isHex c = false := by
  cases o with
  | csrf =>
    obtain rfl := Option.some.inj h
    exact ⟨'s', by decide, by decide⟩
  | revocation | locks =>
    obtain rfl := Option.some.inj h
    exact ⟨'r', by decide, by decide⟩
  | idempotency => cases h

theorem not_idempotency {o : Owner} {key : String} (h : o.Owns key) {start : List Char}
    (hstart : o.start = some start) : ¬Owner.idempotency.Owns key := by
  intro hidempotency
  obtain ⟨c, hc, hnot⟩ := o.start_not_hex hstart
  rw [← h.take hstart] at hc
  simp [hidempotency.hex c hc] at hnot

theorem Owner.start_injective : ∀ {o o' : Owner}, o.start = o'.start → o = o' := by
  intro o o' h
  cases o <;> cases o' <;> first | rfl | exact absurd h (by decide)

theorem owner_unique {o o' : Owner} {key : String} (h : o.Owns key) (h' : o'.Owns key) : o = o' := by
  cases hstart : o.start with
  | none =>
    obtain rfl : o = .idempotency := Owner.start_injective hstart
    cases hstart' : o'.start with
    | none => exact Owner.start_injective (hstart.trans hstart'.symm)
    | some start' => exact absurd h (not_idempotency h' hstart')
  | some start =>
    cases hstart' : o'.start with
    | none =>
      obtain rfl : o' = .idempotency := Owner.start_injective hstart'
      exact absurd h' (not_idempotency h hstart)
    | some start' =>
      have heq : start = start' := (h.take hstart).symm.trans (h'.take hstart')
      exact Owner.start_injective (by rw [hstart, hstart', heq])

/-! ## What a middleware may ask -/

/-- Only the idempotency middleware writes, and each stays with its own keys. -/
def Owner.Permits (o : Owner) : Query → Prop
  | .redis (.get key) => o.Owns key
  | .redis (.set key _) | .redis (.psetEx key _ _) => o = .idempotency ∧ o.Owns key
  | .next _ => True

variable {V Key : Type}

def owner : Layer V Key → Owner
  | .verifyCsrf _ _ => .csrf
  | .revokeToken _ _ _ _ _ => .revocation
  | .verifyIdempotency _ _ _ => .idempotency

theorem isHex_hexDigit : ∀ n < 16, isHex (hexDigit n) = true := by decide

theorem isHex_hexEncode (bytes : List UInt8) : ∀ c ∈ (hexEncode bytes).toList, isHex c = true := by
  intro c hc
  simp only [hexEncode, String.toList_ofList, List.mem_flatMap, List.mem_cons, List.not_mem_nil,
    or_false] at hc
  obtain ⟨b, -, rfl | rfl⟩ := hc
  · have hlt := b.toNat_lt
    exact isHex_hexDigit _ (by omega)
  · exact isHex_hexDigit _ (Nat.mod_lt _ (by decide))

section
variable {ext : Externals V} {request : Request} {a : Accepted V}

theorem accept_key_ne (ha : accept ext request = .ok a) : a.key ≠ "" := by
  rw [(accept_ok ha).1]
  intro hempty
  unfold accept at ha
  dsimp only at ha
  rw [if_pos (Or.inl hempty)] at ha
  cases ha

theorem accept_owns (ha : accept ext request = .ok a) : Owner.idempotency.Owns a.key := by
  obtain ⟨minified, -, hkey⟩ := (accept_ok ha).2.2.1
  refine ⟨accept_key_ne ha, ?_⟩
  rw [hkey]
  exact isHex_hexEncode _

end

abbrev Only (P : Query → Prop) (es : Exchanges V) (p : Middleware V (Response V)) : Prop :=
  p.Always (fun _ q => P q) (fun _ _ => True) es

theorem only_runNext {P : Query → Prop} (h : ∀ request, P (.next request)) (requestId : String)
    (request : Request) (es : Exchanges V) : Only P es (runNext requestId request) :=
  ⟨h request, fun _ => trivial⟩

theorem permits_next (o : Owner) (request : Request) : o.Permits (.next request) := trivial

theorem verifyCsrf_permits (pool : RedisPool) (random : List UInt8) (request : Request) :
    Only (V := V) Owner.csrf.Permits [] (verifyCsrf pool random request) := by
  unfold verifyCsrf
  dsimp only
  split_ifs
  · trivial
  · refine ⟨⟨_, rfl⟩, fun reply => ?_⟩
    dsimp only
    cases pool.finish "GET" reply with
    | error err => trivial
    | ok found =>
      cases found with
      | none => trivial
      | some value => exact only_runNext (permits_next _) _ _ _

theorem revokeToken_permits (ext : TokenExternals Key) (pool : RedisPool) (publicKeyPem : String)
    (now : ℤ) (random : List UInt8) (request : Request) :
    Only (V := V) Owner.revocation.Permits []
      (revokeToken ext pool publicKeyPem now random request) := by
  unfold revokeToken
  dsimp only
  cases checkToken ext publicKeyPem now (ensureRequestId random request).2 with
  | error api => trivial
  | ok id =>
    dsimp only
    rw [checkRevoked_eq]
    refine ⟨⟨id, rfl⟩, fun reply => ?_⟩
    dsimp only
    cases pool.finish "GET" reply with
    | error err => trivial
    | ok found =>
      cases found with
      | none => exact only_runNext (permits_next _) _ _ _
      | some raw =>
        dsimp only
        split
        · split_ifs
          · trivial
          · exact only_runNext (permits_next _) _ _ _
        · trivial

theorem storeAndRun_permits {ext : Externals V} {a : Accepted V} (pool : RedisPool)
    (howns : Owner.idempotency.Owns a.key) (requestId : String) (request : Request)
    (es : Exchanges V) :
    Only Owner.idempotency.Permits es (storeAndRun ext pool requestId request a) := by
  have hstored : ∀ reply es, Only Owner.idempotency.Permits es
      (stored pool requestId request a reply) := by
    intro reply es
    unfold stored
    cases pool.finish "SET" reply with
    | error err => trivial
    | ok _ => exact only_runNext (permits_next _) _ _ _
  rcases @storeAndRun_cases _ ext pool requestId request a
    with hprog | ⟨ms, hprog⟩
  all_goals
    rw [hprog]
    exact ⟨⟨rfl, howns⟩, fun reply => hstored reply _⟩

theorem verifyIdempotency_permits (ext : Externals V) (pool : RedisPool) (random : List UInt8)
    (request : Request) :
    Only Owner.idempotency.Permits [] (verifyIdempotency ext pool random request) := by
  unfold verifyIdempotency
  dsimp only
  cases ha : accept ext (ensureRequestId random request).2 with
  | error api => trivial
  | ok a =>
    have howns := accept_owns ha
    dsimp only
    rw [lookUp_eq]
    refine ⟨howns, fun reply => ?_⟩
    dsimp only
    cases pool.finish "GET" reply with
    | error err => trivial
    | ok found =>
      cases found with
      | some cached => trivial
      | none => exact storeAndRun_permits pool howns _ _ _

theorem layer_permits (l : Layer V Key) (request : Request) :
    Only (owner l).Permits [] (l.run request) := by
  cases l with
  | verifyCsrf random pool => exact verifyCsrf_permits pool random request
  | revokeToken random ext pool publicKeyPem now =>
    exact revokeToken_permits ext pool publicKeyPem now random request
  | verifyIdempotency random ext pool => exact verifyIdempotency_permits ext pool random request

/-! ## Requests at once -/

def Harmless : Query → Prop
  | .redis (.set key _) | .redis (.psetEx key _ _) => Owner.idempotency.Owns key
  | .redis (.get _) | .next _ => True

theorem Owner.Permits.harmless {o : Owner} {q : Query} (h : o.Permits q) : Harmless q := by
  cases q with
  | next request => trivial
  | redis command =>
    cases command with
    | get key => trivial
    | set | psetEx =>
      obtain ⟨rfl, howns⟩ := h
      exact howns

theorem Only.nest {P : Query → Prop} {inner : Request → Middleware V (Response V)}
    (hinner : ∀ request, Only P [] (inner request)) {p : Middleware V (Response V)}
    {es fs : Exchanges V} (h : Only P es p) : Only P fs (nest inner p) := by
  induction p generalizing es fs with
  | done response => trivial
  | ask q resume ih =>
    cases q with
    | redis command => exact ⟨h.1, fun reply => ih reply (h.2 reply)⟩
    | next request =>
      have hserved : Only P (fs ++ []) (inner request) :=
        (hinner request).after (fun _ _ hq => hq) fun _ _ _ => trivial
      rw [List.append_nil] at hserved
      exact hserved.bind fun gs response _ => ih response (h.2 response)

theorem stack_harmless (ls : List (Layer V Key)) (request : Request) :
    Only Harmless [] (stack ls request) := by
  induction ls generalizing request with
  | nil => exact ⟨trivial, fun _ => trivial⟩
  | cons l ls ih =>
    have hlayer : Only Harmless [] (l.run request) :=
      (layer_permits l request).mono (fun _ _ h => h.harmless) fun _ _ h => h
    exact Only.nest ih hlayer

structure World (S V : Type) where
  server : S
  requests : List (Middleware V (Response V))
  late : List Command

inductive Event (V Key : Type)
  | tick (ms : ℕ)
  | arrive (layers : List (Layer V Key)) (request : Request)
  | serve (request : ℕ)
  | fail (request : ℕ) (error : Option String) (sent : Bool)
  | land (command : ℕ)
  | handler (request : ℕ) (response : Response V)

variable {S : Type}

def step (redis : Server S) (w : World S V) : Event V Key → Option (World S V)
  | .tick ms => some { w with server := redis.advance w.server ms }
  | .arrive layers request => some { w with requests := w.requests ++ [stack layers request] }
  | .serve i =>
    match w.requests[i]? with
    | some (.ask (.redis command) resume) =>
      let (reply, server) := redis.serve w.server (.string command)
      some { w with server, requests := w.requests.set i (resume reply) }
    | _ => none
  | .fail i error sent =>
    match w.requests[i]? with
    | some (.ask (.redis command) resume) =>
      some { w with
        requests := w.requests.set i (resume (refusal error command))
        late := if sent then w.late ++ [command] else w.late }
    | _ => none
  | .land j =>
    w.late[j]?.map fun command =>
      { w with server := (redis.serve w.server (.string command)).2, late := w.late.eraseIdx j }
  | .handler i response =>
    match w.requests[i]? with
    | some (.ask (.next _) resume) =>
      some { w with requests := w.requests.set i (resume response) }
    | _ => none

structure Kept (redis : Server S) (server : S) (w : World S V) : Prop where
  requests : ∀ p ∈ w.requests, ∃ es, Only Harmless es p
  late : ∀ command ∈ w.late, Harmless (.redis command)
  keeps : ∀ key, ¬Owner.idempotency.Owns key → redis.Keeps key server w.server

theorem serve_harmless (redis : Server S) (server : S) {command : Command}
    (h : Harmless (.redis command)) {key : String} (hkey : ¬Owner.idempotency.Owns key) :
    redis.Keeps key server (redis.serve server (.string command)).2 := by
  cases command with
  | get key' =>
    rw [redis.get]
    exact .refl server
  | set key' json | psetEx key' json ms =>
    have hne : key ≠ key' := by
      rintro rfl
      exact hkey h
    exact serve_keeps server hne

theorem Kept.step {redis : Server S} {server : S} {w w' : World S V} (hw : Kept redis server w)
    {e : Event V Key} (h : KeySpaces.step redis w e = some w') : Kept redis server w' := by
  cases e with
  | tick ms =>
    obtain rfl := Option.some.inj h
    refine ⟨hw.requests, hw.late, fun key hkey => ?_⟩
    exact (hw.keeps key hkey).trans (advance_keeps w.server ms)
  | arrive layers request =>
    obtain rfl := Option.some.inj h
    exact ⟨forall_mem_concat hw.requests ⟨[], stack_harmless layers request⟩, hw.late, hw.keeps⟩
  | serve i =>
    simp only [KeySpaces.step] at h
    split at h
    · rename_i command resume hi
      obtain rfl := Option.some.inj h
      obtain ⟨es, hharmless, hrest⟩ := hw.requests _ (List.mem_of_getElem? hi)
      refine ⟨forall_mem_set hw.requests ⟨_, hrest _⟩, hw.late, fun key hkey => ?_⟩
      exact (hw.keeps key hkey).trans (serve_harmless redis w.server hharmless hkey)
    · cases h
  | fail i error sent =>
    simp only [KeySpaces.step] at h
    split at h
    · rename_i command resume hi
      obtain rfl := Option.some.inj h
      obtain ⟨es, hharmless, hrest⟩ := hw.requests _ (List.mem_of_getElem? hi)
      refine ⟨forall_mem_set hw.requests ⟨_, hrest _⟩, ?_, hw.keeps⟩
      cases sent with
      | true => exact forall_mem_concat hw.late hharmless
      | false => exact hw.late
    · cases h
  | land j =>
    obtain ⟨command, hj, rfl⟩ := Option.map_eq_some_iff.mp h
    refine ⟨hw.requests, fun c hc => hw.late c (List.mem_of_mem_eraseIdx hc), fun key hkey => ?_⟩
    exact (hw.keeps key hkey).trans
      (serve_harmless redis w.server (hw.late command (List.mem_of_getElem? hj)) hkey)
  | handler i response =>
    simp only [KeySpaces.step] at h
    split at h
    · rename_i request resume hi
      obtain rfl := Option.some.inj h
      obtain ⟨es, -, hrest⟩ := hw.requests _ (List.mem_of_getElem? hi)
      exact ⟨forall_mem_set hw.requests ⟨_, hrest _⟩, hw.late, hw.keeps⟩
    · cases h

/-- No key has two owners, and each middleware asks for its own keys only. So in every run of
requests to any stacks, with any answers, what is stored under a key that is no idempotency
key, a CSRF token, a revocation record, a lock or anybody else's, is not touched: it is there
as at the start until its time is over. -/
theorem middlewares_keep_apart (redis : Server S) (server : S) (es : List (Event V Key))
    (w : World S V) (hrun : run (step redis) ⟨server, [], []⟩ es = some w) :
    (∀ (o o' : Owner) (key : String), o.Owns key → o'.Owns key → o = o') ∧
      (∀ (l : Layer V Key) (request : Request), Only (owner l).Permits [] (l.run request)) ∧
      (∀ key, ¬Owner.idempotency.Owns key →
        redis.entry w.server key = redis.left server key (redis.now w.server)) ∧
      ∀ (o : Owner) (key : String), o ≠ .idempotency → o.Owns key →
        redis.entry w.server key = redis.left server key (redis.now w.server) := by
  have hstart : Kept redis server (⟨server, [], []⟩ : World S V) :=
    ⟨by simp, by simp, fun _ _ => .refl server⟩
  have hkept : Kept redis server w := run_invariant (fun _ _ _ hw h => hw.step h) hstart hrun
  have hothers : ∀ key, ¬Owner.idempotency.Owns key →
      redis.entry w.server key = redis.left server key (redis.now w.server) :=
    fun key hkey => (hkept.keeps key hkey).entry
  refine ⟨fun _ _ _ => owner_unique, layer_permits, hothers, fun o key hne howns => ?_⟩
  exact hothers key fun hidempotency => hne (owner_unique howns hidempotency)

/-- A request that gets to the handler, and one whose store is served late. -/
def twoRequests : List (Event String Unit) :=
  let layers := [.verifyIdempotency ⟨List.replicate 16 0, rfl⟩ texts ⟨noEntries⟩]
  [.arrive layers emptyObject, .serve 0, .serve 0, .handler 0 handled, .tick 9000,
    .arrive layers emptyObject, .serve 1, .fail 1 none true, .tick 5, .land 0]

def tokenStored : Store String String := Store.empty.write (csrfKey "t") "1" none

theorem middlewares_keep_apart_twoRequests :
    ∃ w, run (step inMemory) ⟨tokenStored, [], []⟩ twoRequests = some w ∧
      inMemory.read w.server (csrfKey "t") = some "1" ∧
      inMemory.entry w.server "Session" = none := by
  have hruns : (run (step inMemory) ⟨tokenStored, [], []⟩ twoRequests).isSome = true := by
    decide +kernel
  obtain ⟨w, hrun⟩ := Option.isSome_iff_exists.mp hruns
  obtain ⟨-, -, hothers, howned⟩ := middlewares_keep_apart inMemory tokenStored twoRequests w hrun
  have hstored : inMemory.entry tokenStored (csrfKey "t") = some ⟨"1", none⟩ :=
    @Store.entry_write_self _ _ _ .empty (csrfKey "t") none (by simp) "1"
  have hsession : inMemory.entry tokenStored "Session" = none :=
    @Store.entry_write_of_ne _ _ _ .empty (csrfKey "t") "Session" (by decide) "1" none
  refine ⟨w, hrun, ?_, ?_⟩
  · have hkept : inMemory.entry w.server (csrfKey "t") = some ⟨"1", none⟩ := by
      rw [howned .csrf _ nofun ⟨"t", rfl⟩, View.left, hstored]
      rfl
    exact View.read_of_entry hkept
  · refine (hothers "Session" fun h => absurd (h.2 'S' (by decide)) (by decide)).trans ?_
    rw [View.left, hsession, Option.filter_none]

end PaycloudHelper.Auth.KeySpaces
