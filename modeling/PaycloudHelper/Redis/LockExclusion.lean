import Mathlib
import PaycloudHelper.Library.Slots
import PaycloudHelper.Redis.Locks
import PaycloudHelper.Redis.Server

/-!
# Who holds a lock

Any number of calls acquire and release locks on one server with a clock. Their commands
travel on their own and may get lost, deadlines fire anywhere, locks expire at the server,
and other programs send commands on the keys that no call is about. The lock library and the
server are parameters.
-/

namespace PaycloudHelper.Redis.LockExclusion

open Programs Runs
open ExpiringMaps (View)
open Slots (getElem?_set_cases getElem?_concat_cases)

/-! ## What the library promises -/

def sets (command : LockCommand) (reply : Bool) : Bool :=
  match command with
  | .setNx _ => reply
  | .compareAndDelete _ => false

/-- Only the call's own token is sent, and the lock is reported only where the last command
was a `SET` that was answered yes. -/
def Grants (key token : String) : Bool → LockFuture → Prop
  | held, .done outcome => ∀ lock, outcome = .ok lock → held = true ∧ lock = ⟨key, token⟩
  | _, .ask (.redis command) resume =>
    command.token = token ∧ ∀ reply, Grants key token (sets command reply) (resume reply)
  | held, .ask (.sleep _) resume => ∀ answer, Grants key token held (resume answer)

/-! ## The calls and the server -/

/-- `ttl` is in milliseconds, as the server's clock. `wire` is a command on its way to the
server with its key, `reply` a reply on its way back, `grantedAt` when the last `SET` that
was answered yes was served. -/
structure Party where
  key : String
  token : String
  ttl : ℕ
  startedAt : ℕ
  call : Call
  wire : Option (String × LockCommand)
  reply : Option Bool
  grantedAt : Option ℕ
  released : Bool

inductive Move
  | send
  | wake
  | lose
  | receive
  | finish
  | deadline
  | release
deriving DecidableEq, Repr

def Party.move (p : Party) : Move → Option Party
  | .send =>
    match p.call with
    | .polled (.ask (.redis command) resume) =>
      some { p with call := .awaiting resume, wire := some (p.key, command), reply := none }
    | _ => none
  | .wake =>
    match p.call with
    | .polled (.ask (.sleep _) resume) => some { p with call := .polled (resume ()) }
    | _ => none
  | .lose => p.wire.map fun _ => { p with wire := none }
  | .receive =>
    match p.call, p.reply with
    | .awaiting resume, some reply => some { p with call := .polled (resume reply), reply := none }
    | _, _ => none
  | .finish =>
    match p.call with
    | .polled (.done outcome) => some { p with call := .returned (lockBounded (some outcome)) }
    | _ => none
  | .deadline => if p.call.waits then some { p with call := .returned (lockBounded none) } else none
  | .release =>
    match p.call, p.released with
    | .returned (some lock), false =>
      some { p with wire := some (lock.key, .compareAndDelete lock.token), released := true }
    | _, _ => none

structure World (S : Type) where
  server : S
  parties : List Party

inductive Event
  | tick (ms : ℕ)
  | others (command : AnyCommand)
  | arrive (key token : String) (ttl : ℕ) (call : LockCall)
  | move (party : ℕ) (what : Move)
  | serve (party : ℕ)

section
variable {S : Type} (redis : Server S) (rslock : Rslock) (locks : LockManager)

def Party.new (key token : String) (ttl now : ℕ) (call : LockCall) : Party :=
  ⟨key, token, ttl, now, .polled (call.future rslock locks key token ttl), none, none, none, false⟩

/-- Every call draws a token of its own. -/
def step (w : World S) : Event → Option (World S)
  | .tick ms => some { w with server := redis.advance w.server ms }
  | .others command =>
    if ∀ p ∈ w.parties, p.key ≠ command.key then
      some { w with server := (redis.serve w.server command).2 }
    else none
  | .arrive key token ttl call =>
    if ∀ p ∈ w.parties, p.token ≠ token then
      some { w with
        parties := w.parties ++ [.new rslock locks key token ttl (redis.now w.server) call] }
    else none
  | .move i what => do
    let p ← w.parties[i]?
    let p' ← p.move what
    some { w with parties := w.parties.set i p' }
  | .serve i => do
    let p ← w.parties[i]?
    let (key, command) ← p.wire
    let (reply, server) := redis.serve w.server (.lock key p.ttl command)
    let grantedAt := if sets command reply then some (redis.now w.server) else p.grantedAt
    some ⟨server, w.parties.set i { p with wire := none, reply := some reply, grantedAt }⟩

end

/-- The lock was returned and not given back, and its time at the server is not over. -/
def Party.Holds (p : Party) (now : ℕ) : Prop :=
  (∃ lock, p.call = .returned (some lock)) ∧ p.released = false ∧
    ∀ t ∈ p.grantedAt, now < t + p.ttl

/-! ## What is known of a call -/

section
variable {S : Type} (redis : Server S)

def Party.Owns (p : Party) (server : S) (t : ℕ) : Prop :=
  redis.now server < t + p.ttl → redis.entry server p.key = some ⟨p.token, some (t + p.ttl)⟩

def Party.Granted (p : Party) (server : S) : Prop :=
  ∃ t, p.grantedAt = some t ∧ p.startedAt ≤ t ∧ t ≤ redis.now server ∧ p.Owns redis server t

inductive Sound (server : S) : Party → Prop
  | polled {p : Party} {future : LockFuture} (held : Bool) (hcall : p.call = .polled future)
      (hwire : p.wire = none) (hstart : p.startedAt ≤ redis.now server)
      (hgrants : Grants p.key p.token held future)
      (hheld : held = true → p.Granted redis server) : Sound server p
  | sent {p : Party} {command : LockCommand} {resume : Bool → LockFuture}
      (hcall : p.call = .awaiting resume) (hwire : p.wire = some (p.key, command))
      (hreply : p.reply = none) (hstart : p.startedAt ≤ redis.now server)
      (hgrants : ∀ held, Grants p.key p.token held (.ask (.redis command) resume)) : Sound server p
  | served {p : Party} {resume : Bool → LockFuture} (reply held : Bool)
      (hcall : p.call = .awaiting resume) (hwire : p.wire = none) (hreply : p.reply = some reply)
      (hstart : p.startedAt ≤ redis.now server)
      (hgrants : Grants p.key p.token held (resume reply))
      (hheld : held = true → p.Granted redis server) : Sound server p
  | lost {p : Party} {resume : Bool → LockFuture} (hcall : p.call = .awaiting resume)
      (hwire : p.wire = none) (hreply : p.reply = none)
      (hstart : p.startedAt ≤ redis.now server) : Sound server p
  | holding {p : Party} {lock : Lock} (hcall : p.call = .returned (some lock))
      (hlock : lock = ⟨p.key, p.token⟩) (hwire : p.wire = none)
      (hstart : p.startedAt ≤ redis.now server) (hgranted : p.Granted redis server) :
      Sound server p
  | ended {p : Party} {result : Option Lock} (hcall : p.call = .returned result)
      (hended : result = none ∨ p.released = true)
      (hwire : ∀ key command, p.wire = some (key, command) → key = p.key ∧ command.token = p.token)
      (hstart : p.startedAt ≤ redis.now server) :
      Sound server p

end

section Party
variable {S : Type} {redis : Server S} {server server' : S} {p p' : Party} {t : ℕ}

theorem Sound.started (h : Sound redis server p) : p.startedAt ≤ redis.now server := by
  cases h <;> assumption

theorem Sound.wire (h : Sound redis server p) {key : String} {command : LockCommand}
    (hwire : p.wire = some (key, command)) : key = p.key ∧ command.token = p.token := by
  cases h with
  | sent hcall hsent hreply hstart hgrants =>
    obtain ⟨rfl, rfl⟩ := Prod.mk.inj (Option.some.inj (hsent.symm.trans hwire))
    exact ⟨rfl, (hgrants true).1⟩
  | ended hcall hended hsent hstart => exact hsent key command hwire
  | polled held hcall hnone => simp [hnone] at hwire
  | served reply held hcall hnone => simp [hnone] at hwire
  | lost hcall hnone => simp [hnone] at hwire
  | holding hcall hlock hnone => simp [hnone] at hwire

theorem Sound.frame (h : Sound redis server p) (hnow : redis.now server ≤ redis.now server')
    (howns : ∀ t, p.Owns redis server t → p.Owns redis server' t) : Sound redis server' p := by
  have hstart : p.startedAt ≤ redis.now server' := h.started.trans hnow
  have hgranted : p.Granted redis server → p.Granted redis server' := by
    rintro ⟨t, ht, hle, hpast, hown⟩
    exact ⟨t, ht, hle, hpast.trans hnow, howns t hown⟩
  cases h with
  | polled held hcall hwire _ hgrants hheld =>
    exact .polled held hcall hwire hstart hgrants fun h => hgranted (hheld h)
  | sent hcall hwire hreply _ hgrants => exact .sent hcall hwire hreply hstart hgrants
  | served reply held hcall hwire hreply _ hgrants hheld =>
    exact .served reply held hcall hwire hreply hstart hgrants fun h => hgranted (hheld h)
  | lost hcall hwire hreply _ => exact .lost hcall hwire hreply hstart
  | holding hcall hlock hwire _ hg => exact .holding hcall hlock hwire hstart (hgranted hg)
  | ended hcall hended hwire _ => exact .ended hcall hended hwire hstart

theorem Party.Owns.keeps (h : p.Owns redis server t) (hkeeps : redis.Keeps p.key server server') :
    p.Owns redis server' t := by
  intro hlive
  exact hkeeps.entry_of_live (h (hkeeps.now.trans_lt hlive)) (by simpa using hlive)

theorem Party.Owns.read (h : p.Owns redis server t) (hlive : redis.now server < t + p.ttl) :
    redis.read server p.key = some p.token :=
  View.read_of_entry (h hlive)

theorem serve_lock_other {key token : String} (hread : redis.read server key = some token)
    {command : LockCommand} (hother : command.token ≠ token) (ttl : ℕ) :
    redis.serve server (.lock key ttl command) = (false, server) := by
  cases command with
  | setNx other =>
    obtain ⟨e, he, -⟩ := View.read_eq_some.mp hread
    exact redis.setNx_taken server key ttl other (by simp [he])
  | compareAndDelete other =>
    refine redis.compareAndDelete_other server key ttl other ?_
    rw [hread]
    exact fun heq => hother (Option.some.inj heq).symm

theorem Party.Owns.serve (h : p.Owns redis server t) {key : String} {ttl : ℕ}
    {command : LockCommand} (htoken : command.token ≠ p.token) :
    p.Owns redis (redis.serve server (.lock key ttl command)).2 t := by
  by_cases hkey : p.key = key
  · subst hkey
    intro hlive
    rw [redis.now_serve] at hlive
    rw [serve_lock_other (h.read hlive) htoken]
    exact h hlive
  · exact h.keeps (serve_keeps server hkey)

/-- A `SET` that is answered yes stores the token for the whole time. -/
theorem owns_of_sets (server : S) (p : Party) {command : LockCommand}
    (htoken : command.token = p.token)
    (hsets : sets command (redis.serve server (.lock p.key p.ttl command)).1 = true) :
    p.Owns redis (redis.serve server (.lock p.key p.ttl command)).2 (redis.now server) := by
  intro hlive
  rw [redis.now_serve] at hlive
  cases command with
  | setNx token =>
    obtain rfl : token = p.token := htoken
    by_cases hfree : redis.entry server p.key = none
    · obtain ⟨s', hserve, hentry⟩ :=
        redis.setNx_free server p.key p.ttl p.token hfree (by omega)
      rw [hserve]
      exact hentry
    · rw [redis.setNx_taken server p.key p.ttl p.token hfree] at hsets
      cases hsets
  | compareAndDelete token => cases hsets

/-! ## The moves of one call -/

theorem move_fixed {what : Move} (h : p.move what = some p') :
    p'.key = p.key ∧ p'.token = p.token ∧ p'.ttl = p.ttl := by
  cases what with
  | lose =>
    obtain ⟨_, -, rfl⟩ := Option.map_eq_some_iff.mp h
    exact ⟨rfl, rfl, rfl⟩
  | deadline =>
    simp only [Party.move] at h
    split_ifs at h
    obtain rfl := Option.some.inj h
    exact ⟨rfl, rfl, rfl⟩
  | send | wake | receive | finish | release =>
    simp only [Party.move] at h
    split at h
    · obtain rfl := Option.some.inj h
      exact ⟨rfl, rfl, rfl⟩
    · cases h

theorem Sound.send (hp : Sound redis server p) (h : p.move .send = some p') :
    Sound redis server p' := by
  simp only [Party.move] at h
  split at h
  · rename_i command resume hpolled
    obtain rfl := Option.some.inj h
    cases hp with
    | polled held hcall hwire hstart hgrants hheld =>
      obtain rfl := Call.polled.inj (hpolled.symm.trans hcall)
      exact .sent rfl rfl rfl hstart fun _ => hgrants
    | sent hcall | served _ _ hcall | lost hcall | holding hcall | ended hcall =>
      simp [hcall] at hpolled
  · cases h

theorem Sound.wake (hp : Sound redis server p) (h : p.move .wake = some p') :
    Sound redis server p' := by
  simp only [Party.move] at h
  split at h
  · rename_i ms resume hpolled
    obtain rfl := Option.some.inj h
    cases hp with
    | polled held hcall hwire hstart hgrants hheld =>
      obtain rfl := Call.polled.inj (hpolled.symm.trans hcall)
      exact .polled held rfl hwire hstart (hgrants ()) hheld
    | sent hcall | served _ _ hcall | lost hcall | holding hcall | ended hcall =>
      simp [hcall] at hpolled
  · cases h

theorem Sound.lose (hp : Sound redis server p) (h : p.move .lose = some p') :
    Sound redis server p' := by
  obtain ⟨⟨key, command⟩, hsome, rfl⟩ := Option.map_eq_some_iff.mp h
  cases hp with
  | sent hcall hwire hreply hstart hgrants => exact .lost hcall rfl hreply hstart
  | ended hcall hended hwire hstart => exact .ended hcall hended (by simp) hstart
  | polled _ _ hwire | served _ _ _ hwire | lost _ hwire | holding _ _ hwire =>
    simp [hwire] at hsome

theorem Sound.receive (hp : Sound redis server p) (h : p.move .receive = some p') :
    Sound redis server p' := by
  simp only [Party.move] at h
  split at h
  · rename_i resume reply hawaiting hsome
    obtain rfl := Option.some.inj h
    cases hp with
    | served reply' held hcall hwire hreply hstart hgrants hheld =>
      obtain rfl := Call.awaiting.inj (hawaiting.symm.trans hcall)
      obtain rfl := Option.some.inj (hsome.symm.trans hreply)
      exact .polled held rfl hwire hstart hgrants hheld
    | sent _ _ hreply | lost _ _ hreply => simp [hreply] at hsome
    | polled _ hcall | holding hcall | ended hcall => simp [hcall] at hawaiting
  · cases h

theorem Sound.finish (hp : Sound redis server p) (h : p.move .finish = some p') :
    Sound redis server p' := by
  simp only [Party.move] at h
  split at h
  · rename_i outcome hpolled
    obtain rfl := Option.some.inj h
    cases hp with
    | polled held hcall hwire hstart hgrants hheld =>
      obtain rfl := Call.polled.inj (hpolled.symm.trans hcall)
      match outcome with
      | .ok lock =>
        obtain ⟨hset, hlock⟩ := hgrants lock rfl
        exact .holding rfl hlock hwire hstart (hheld hset)
      | .error .unavailable | .error (.other _) =>
        exact .ended rfl (Or.inl rfl) (by simp [hwire]) hstart
    | sent hcall | served _ _ hcall | lost hcall | holding hcall | ended hcall =>
      simp [hcall] at hpolled
  · cases h

theorem Sound.deadline (hp : Sound redis server p) (h : p.move .deadline = some p') :
    Sound redis server p' := by
  simp only [Party.move] at h
  split_ifs at h
  obtain rfl := Option.some.inj h
  exact .ended rfl (Or.inl rfl) (fun _ _ => hp.wire) hp.started

theorem Sound.release (hp : Sound redis server p) (h : p.move .release = some p') :
    Sound redis server p' := by
  simp only [Party.move] at h
  split at h
  · rename_i lock hreturned hkept
    obtain rfl := Option.some.inj h
    cases hp with
    | holding hcall hlock hwire hstart hgranted =>
      obtain rfl := Option.some.inj (Call.returned.inj (hreturned.symm.trans hcall))
      refine .ended hreturned (Or.inr rfl) ?_ hstart
      rintro key command ⟨⟩
      rw [hlock]
      exact ⟨rfl, rfl⟩
    | ended hcall hended hwire hstart =>
      obtain rfl := Call.returned.inj (hreturned.symm.trans hcall)
      rcases hended with hnone | hended
      · cases hnone
      · simp [hended] at hkept
    | polled _ hcall | sent hcall | served _ _ hcall | lost hcall => simp [hcall] at hreturned
  · cases h

theorem Sound.move (hp : Sound redis server p) {what : Move} (h : p.move what = some p') :
    Sound redis server p' := by
  cases what with
  | send => exact hp.send h
  | wake => exact hp.wake h
  | lose => exact hp.lose h
  | receive => exact hp.receive h
  | finish => exact hp.finish h
  | deadline => exact hp.deadline h
  | release => exact hp.release h

theorem Sound.serve (hp : Sound redis server p) {key : String} {command : LockCommand}
    (hwire : p.wire = some (key, command)) :
    Sound redis (redis.serve server (.lock key p.ttl command)).2
      { p with
        wire := none
        reply := some (redis.serve server (.lock key p.ttl command)).1
        grantedAt :=
          if sets command (redis.serve server (.lock key p.ttl command)).1 then
            some (redis.now server)
          else p.grantedAt } := by
  obtain ⟨rfl, htoken⟩ := hp.wire hwire
  have hstart : p.startedAt ≤ redis.now (redis.serve server (.lock p.key p.ttl command)).2 := by
    rw [redis.now_serve]
    exact hp.started
  have hnow := hp.started
  cases hp with
  | @sent travelling resume hcall hsent hreply _ hgrants =>
    obtain ⟨-, rfl⟩ := Prod.mk.inj (Option.some.inj (hsent.symm.trans hwire))
    refine .served _ _ hcall rfl rfl hstart ((hgrants true).2 _) fun hset => ?_
    refine ⟨redis.now server, if_pos hset, hnow, ?_, owns_of_sets server p htoken hset⟩
    rw [redis.now_serve]
  | ended hcall hended _ _ => exact .ended hcall hended (by simp) hstart
  | polled _ _ hnone | served _ _ _ hnone | lost _ hnone | holding _ _ hnone =>
    simp [hnone] at hwire

end Party

/-! ## All calls -/

structure Good {S : Type} (redis : Server S) (w : World S) : Prop where
  sound : ∀ p ∈ w.parties, Sound redis w.server p
  distinct : ∀ (i j : ℕ) (p q : Party), w.parties[i]? = some p → w.parties[j]? = some q →
    p.token = q.token → i = j

section
variable {S : Type} {redis : Server S} {rslock : Rslock} {locks : LockManager} {w w' : World S}

theorem Good.start (server : S) : Good redis ⟨server, []⟩ :=
  ⟨by simp, by simp⟩

theorem Good.server (hw : Good redis w) {server : S}
    (hnow : redis.now w.server ≤ redis.now server)
    (hkeeps : ∀ p ∈ w.parties, redis.Keeps p.key w.server server) :
    Good redis { w with server } :=
  ⟨fun p hp => (hw.sound p hp).frame hnow fun _ hown => hown.keeps (hkeeps p hp), hw.distinct⟩

theorem Good.distinct_set (hw : Good redis w) {i : ℕ} {p p' : Party} (hp : w.parties[i]? = some p)
    (htoken : p'.token = p.token) (j k : ℕ) (q r : Party)
    (hq : (w.parties.set i p')[j]? = some q) (hr : (w.parties.set i p')[k]? = some r)
    (heq : q.token = r.token) : j = k := by
  have hold : ∀ {n : ℕ} {x : Party}, (w.parties.set i p')[n]? = some x →
      ∃ y, w.parties[n]? = some y ∧ y.token = x.token := by
    intro n x hx
    rcases getElem?_set_cases hx with ⟨rfl, rfl⟩ | ⟨-, hx⟩
    · exact ⟨p, hp, htoken.symm⟩
    · exact ⟨x, hx, rfl⟩
  obtain ⟨q', hq', hqt⟩ := hold hq
  obtain ⟨r', hr', hrt⟩ := hold hr
  exact hw.distinct j k q' r' hq' hr' (hqt.trans (heq.trans hrt.symm))

theorem Good.arrive (hw : Good redis w)
    (hgrants : ∀ retry key token ttl, Grants key token false (rslock retry key token ttl))
    {key token : String} {ttl : ℕ} {call : LockCall} (hfresh : ∀ p ∈ w.parties, p.token ≠ token) :
    Good redis { w with parties :=
      w.parties ++ [.new rslock locks key token ttl (redis.now w.server) call] } where
  sound := by
    refine Slots.forall_mem_concat hw.sound (.polled false rfl rfl le_rfl ?_ nofun)
    cases call <;> exact hgrants ..
  distinct := by
    intro i j p q hp hq heq
    rcases getElem?_concat_cases hp with hp | ⟨rfl, rfl⟩ <;>
      rcases getElem?_concat_cases hq with hq | ⟨rfl, rfl⟩
    · exact hw.distinct i j p q hp hq heq
    · exact absurd heq (hfresh p (List.mem_of_getElem? hp))
    · exact absurd heq.symm (hfresh q (List.mem_of_getElem? hq))
    · rfl

theorem Good.move (hw : Good redis w) {i : ℕ} {p p' : Party} {what : Move}
    (hp : w.parties[i]? = some p) (h : p.move what = some p') :
    Good redis { w with parties := w.parties.set i p' } where
  sound := Slots.forall_mem_set hw.sound ((hw.sound p (List.mem_of_getElem? hp)).move h)
  distinct := hw.distinct_set hp (move_fixed h).2.1

theorem Good.serve (hw : Good redis w) {i : ℕ} {p : Party} {key : String} {command : LockCommand}
    (hp : w.parties[i]? = some p) (hwire : p.wire = some (key, command)) :
    Good redis ⟨(redis.serve w.server (.lock key p.ttl command)).2, w.parties.set i
      { p with
        wire := none
        reply := some (redis.serve w.server (.lock key p.ttl command)).1
        grantedAt :=
          if sets command (redis.serve w.server (.lock key p.ttl command)).1 then
            some (redis.now w.server)
          else p.grantedAt }⟩ where
  sound := by
    have hsound := hw.sound p (List.mem_of_getElem? hp)
    intro q hq
    obtain ⟨j, hj⟩ := List.mem_iff_getElem?.mp hq
    rcases getElem?_set_cases hj with ⟨rfl, rfl⟩ | ⟨hne, hj⟩
    · exact hsound.serve hwire
    · -- the command has the token of `p`, so it leaves the others' locks alone
      refine (hw.sound q (List.mem_of_getElem? hj)).frame (redis.now_serve ..).ge fun t hq => ?_
      refine hq.serve fun htoken => hne ?_
      exact hw.distinct j i q p hj hp (htoken.symm.trans (hsound.wire hwire).2)
  distinct := hw.distinct_set hp rfl

theorem Good.step
    (hgrants : ∀ retry key token ttl, Grants key token false (rslock retry key token ttl))
    (hw : Good redis w) {e : Event} (h : step redis rslock locks w e = some w') :
    Good redis w' := by
  cases e with
  | tick ms =>
    obtain rfl := Option.some.inj h
    exact hw.server (le_now_advance w.server ms) fun p _ => advance_keeps w.server ms
  | others command =>
    simp only [LockExclusion.step] at h
    split_ifs at h with hfree
    obtain rfl := Option.some.inj h
    exact hw.server (redis.now_serve ..).ge fun p hp => serve_keeps w.server (hfree p hp)
  | arrive key token ttl call =>
    simp only [LockExclusion.step] at h
    split_ifs at h with hfresh
    obtain rfl := Option.some.inj h
    exact hw.arrive hgrants hfresh
  | move i what =>
    obtain ⟨p, hp, h⟩ := Option.bind_eq_some_iff.mp h
    obtain ⟨p', hp', h⟩ := Option.bind_eq_some_iff.mp h
    obtain rfl := Option.some.inj h
    exact hw.move hp hp'
  | serve i =>
    obtain ⟨p, hp, h⟩ := Option.bind_eq_some_iff.mp h
    obtain ⟨⟨key, command⟩, hwire, h⟩ := Option.bind_eq_some_iff.mp h
    obtain rfl := Option.some.inj h
    exact hw.serve hp hwire

/-! ## Exclusion -/

theorem Sound.holds {server : S} {p : Party} (hp : Sound redis server p)
    (h : p.Holds (redis.now server)) : p.Granted redis server := by
  obtain ⟨⟨lock, hreturned⟩, hkept, -⟩ := h
  cases hp with
  | holding hcall hlock hwire hstart hgranted => exact hgranted
  | ended hcall hended =>
    obtain rfl := Call.returned.inj (hreturned.symm.trans hcall)
    rcases hended with hnone | hended
    · cases hnone
    · simp [hended] at hkept
  | polled _ hcall | sent hcall | served _ _ hcall | lost hcall => simp [hcall] at hreturned

theorem Good.holds (hw : Good redis w) {p : Party} (hp : p ∈ w.parties)
    (h : p.Holds (redis.now w.server)) :
    redis.read w.server p.key = some p.token ∧ ∃ t ∈ p.grantedAt, p.startedAt ≤ t := by
  obtain ⟨t, ht, hle, -, hown⟩ := (hw.sound p hp).holds h
  exact ⟨hown.read (h.2.2 t ht), t, ht, hle⟩

end

end PaycloudHelper.Redis.LockExclusion
