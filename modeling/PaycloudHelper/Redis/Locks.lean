import Mathlib
import PaycloudHelper.Library.Programs
import PaycloudHelper.Library.Runs

/-!
# Acquiring a lock under a deadline

The lock library is a parameter: what it sends, and when it gives up, is a program over the
commands of one key. A step is one move of the call, of the network or of the server; replies
take as long as they like, and the deadline may fire wherever the call waits. Dropping the
future recalls nothing that was sent.
-/

namespace PaycloudHelper.Redis

open Programs Runs

inductive LockError
  | unavailable
  | other (text : String)
deriving DecidableEq, Repr

structure Lock where
  key : String
  token : String
deriving DecidableEq, Repr

/-- `SET key token NX PX ttl`, and the script that deletes the key if it holds the token. -/
inductive LockCommand
  | setNx (token : String)
  | compareAndDelete (token : String)
deriving DecidableEq, Repr

def LockCommand.token : LockCommand → String
  | .setNx token | .compareAndDelete token => token

def LockCommand.serve (stored : Option String) : LockCommand → Option String × Bool
  | .setNx token => if stored = none then (some token, true) else (stored, false)
  | .compareAndDelete token => if stored = some token then (none, true) else (stored, false)

inductive LockQuery
  | redis (command : LockCommand)
  | sleep (ms : ℕ)

def LockQuery.Answer : LockQuery → Type
  | .redis _ => Bool
  | .sleep _ => Unit

abbrev LockFuture := Prog LockQuery LockQuery.Answer (Except LockError Lock)

structure Retry where
  tries : ℕ
  delay : ℕ
deriving DecidableEq, Repr

/-- The library's `lock`, with the retries that are set, the token it draws and the TTL. -/
abbrev Rslock := Retry → (key token : String) → (ttl : ℕ) → LockFuture

structure LockManager where
  retry : Retry
deriving DecidableEq, Repr

def LockManager.setRetry (_ : LockManager) (tries delay : ℕ) : LockManager := ⟨⟨tries, delay⟩⟩

/-- What becomes of the future's outcome, `none` if the deadline was first. -/
def lockBounded : Option (Except LockError Lock) → Option Lock
  | some (.ok lock) => some lock
  | some (.error .unavailable) => none
  | some (.error (.other _)) => none
  | none => none

inductive LockCall
  | acquireLock
  | acquireLockWithRetry (tries delay : ℕ)
deriving DecidableEq, Repr

def LockCall.future (rslock : Rslock) (locks : LockManager) (key token : String) (ttl : ℕ) :
    LockCall → LockFuture
  | .acquireLock => rslock locks.retry key token ttl
  | .acquireLockWithRetry tries delay =>
    rslock (locks.setRetry tries delay).retry key token ttl

/-! ## What the library promises -/

def LockCommand.leaves (command : LockCommand) (reply standing : Bool) : Bool :=
  match command with
  | .setNx _ => reply || standing
  | .compareAndDelete _ => false

/-- Only the call's own token is sent, and it is taken back before the lock is reported
unavailable. -/
def Undoes (token : String) : Bool → LockFuture → Prop
  | standing, .done outcome => outcome = .error .unavailable → standing = false
  | standing, .ask (.redis command) resume =>
    command.token = token ∧ ∀ reply, Undoes token (command.leaves reply standing) (resume reply)
  | standing, .ask (.sleep _) resume => ∀ answer, Undoes token standing (resume answer)

/-! ## A call, the network and the server -/

inductive Call
  | polled (future : LockFuture)
  | awaiting (resume : Bool → LockFuture)
  | returned (result : Option Lock)

def Call.waits : Call → Bool
  | .polled (.ask _ _) | .awaiting _ => true
  | .polled (.done _) | .returned _ => false

structure World where
  stored : Option String
  call : Call
  wire : Option LockCommand
  reply : Option Bool

def World.start (stored : Option String) (future : LockFuture) : World :=
  ⟨stored, .polled future, none, none⟩

inductive Event
  | send
  | wake
  | serve
  | lose
  | receive
  | finish
  | deadline
  | expire
  | others (value : Option String)
deriving DecidableEq, Repr

/-- Nobody else has the token. -/
def step (token : String) (w : World) : Event → Option World
  | .send =>
    match w.call with
    | .polled (.ask (.redis command) resume) =>
      some { w with call := .awaiting resume, wire := some command, reply := none }
    | _ => none
  | .wake =>
    match w.call with
    | .polled (.ask (.sleep _) resume) => some { w with call := .polled (resume ()) }
    | _ => none
  | .serve =>
    w.wire.map fun command =>
      { w with
        stored := (command.serve w.stored).1
        wire := none
        reply := some (command.serve w.stored).2 }
  | .lose => w.wire.map fun _ => { w with wire := none }
  | .receive =>
    match w.call, w.reply with
    | .awaiting resume, some reply => some { w with call := .polled (resume reply), reply := none }
    | _, _ => none
  | .finish =>
    match w.call with
    | .polled (.done outcome) => some { w with call := .returned (lockBounded (some outcome)) }
    | _ => none
  | .deadline => if w.call.waits then some { w with call := .returned (lockBounded none) } else none
  | .expire => if w.stored.isSome then some { w with stored := none } else none
  | .others value => if value = some token then none else some { w with stored := value }

def World.Clear (token : String) (w : World) : Prop :=
  w.call = .returned none → w.stored ≠ some token

def LeavesNoLock (token : String) (w : World) (e : Event) : Prop :=
  ∀ w' ∈ step token w e, w'.Clear token

variable {token : String} {w w' : World}

theorem serve_stored {command : LockCommand} {standing : Bool} {stored : Option String}
    (htoken : command.token = token) (hstored : stored = some token → standing = true)
    (h : (command.serve stored).1 = some token) :
    command.leaves (command.serve stored).2 standing = true := by
  cases command with
  | setNx t =>
    dsimp only [LockCommand.serve, LockCommand.leaves] at h ⊢
    split_ifs at h ⊢ with hfree
    · rfl
    · exact hstored h
  | compareAndDelete t =>
    obtain rfl : t = token := htoken
    dsimp only [LockCommand.serve] at h
    split_ifs at h with heq
    exact absurd h heq

inductive Sound (token : String) : World → Prop
  | polled {stored : Option String} {future : LockFuture} (standing : Bool)
      (hundoes : Undoes token standing future) (hstored : stored = some token → standing = true) :
      Sound token ⟨stored, .polled future, none, none⟩
  | sent {stored : Option String} {command : LockCommand} {resume : Bool → LockFuture}
      (standing : Bool)
      (hundoes : Undoes token standing (.ask (.redis command) resume))
      (hstored : stored = some token → standing = true) :
      Sound token ⟨stored, .awaiting resume, some command, none⟩
  | served {stored : Option String} {resume : Bool → LockFuture} (reply standing : Bool)
      (hundoes : Undoes token standing (resume reply))
      (hstored : stored = some token → standing = true) :
      Sound token ⟨stored, .awaiting resume, none, some reply⟩
  | lost (stored : Option String) (resume : Bool → LockFuture) :
      Sound token ⟨stored, .awaiting resume, none, none⟩
  | returned {stored : Option String} {result : Option Lock} {wire : Option LockCommand}
      {reply : Option Bool} (hclear : result = none → stored ≠ some token)
      (hwire : ∀ command ∈ wire, command.token = token) :
      Sound token ⟨stored, .returned result, wire, reply⟩

theorem Sound.start {stored : Option String} {future : LockFuture} (hfresh : stored ≠ some token)
    (hundoes : Undoes token false future) : Sound token (.start stored future) :=
  .polled false hundoes fun h => absurd h hfresh

theorem Sound.clear (hw : Sound token w) : w.Clear token := by
  intro hreturned
  cases hw with
  | returned hclear hwire => exact hclear (Call.returned.inj hreturned)
  | polled | sent | served | lost => cases hreturned

theorem Sound.overwritten (hw : Sound token w) {value : Option String}
    (hvalue : value ≠ some token) : Sound token { w with stored := value } := by
  cases hw with
  | polled standing hundoes hstored => exact .polled standing hundoes fun h => absurd h hvalue
  | sent standing hundoes hstored => exact .sent standing hundoes fun h => absurd h hvalue
  | served reply standing hundoes hstored =>
    exact .served reply standing hundoes fun h => absurd h hvalue
  | lost stored resume => exact .lost value resume
  | returned hclear hwire => exact .returned (fun _ => hvalue) hwire

theorem Sound.expire (hw : Sound token w) (h : step token w .expire = some w') :
    Sound token w' := by
  simp only [Redis.step] at h
  split_ifs at h
  obtain rfl := Option.some.inj h
  exact hw.overwritten (by simp)

theorem Sound.others (hw : Sound token w) {value : Option String}
    (h : step token w (.others value) = some w') : Sound token w' := by
  simp only [Redis.step] at h
  split_ifs at h with hvalue
  obtain rfl := Option.some.inj h
  exact hw.overwritten hvalue

theorem Sound.send (hw : Sound token w) (h : step token w .send = some w') : Sound token w' := by
  cases hw with
  | @polled stored future standing hundoes hstored =>
    match future, hundoes, h with
    | .ask (.redis command) resume, hundoes, h =>
      obtain rfl := Option.some.inj h
      exact .sent standing hundoes hstored
    | .ask (.sleep ms) resume, _, h => cases h
    | .done outcome, _, h => cases h
  | sent | served | lost | returned => cases h

theorem Sound.wake (hw : Sound token w) (h : step token w .wake = some w') : Sound token w' := by
  cases hw with
  | @polled stored future standing hundoes hstored =>
    match future, hundoes, h with
    | .ask (.sleep ms) resume, hundoes, h =>
      obtain rfl := Option.some.inj h
      exact .polled standing (hundoes ()) hstored
    | .ask (.redis command) resume, _, h => cases h
    | .done outcome, _, h => cases h
  | sent | served | lost | returned => cases h

theorem Sound.receive (hw : Sound token w) (h : step token w .receive = some w') :
    Sound token w' := by
  cases hw with
  | served reply standing hundoes hstored =>
    obtain rfl := Option.some.inj h
    exact .polled standing hundoes hstored
  | polled | sent | lost | returned => cases h

theorem Sound.lose (hw : Sound token w) (h : step token w .lose = some w') : Sound token w' := by
  cases hw with
  | sent standing hundoes hstored =>
    obtain rfl := Option.some.inj h
    exact .lost _ _
  | @returned stored result wire reply hclear hwire =>
    obtain ⟨command, -, rfl⟩ := Option.map_eq_some_iff.mp h
    exact .returned hclear (by simp)
  | polled | served | lost => cases h

theorem Sound.serve (hw : Sound token w) (hclear : LeavesNoLock token w .serve)
    (h : step token w .serve = some w') : Sound token w' := by
  have hclear' : w'.Clear token := hclear w' h
  cases hw with
  | @sent stored command resume standing hundoes hstored =>
    obtain rfl := Option.some.inj h
    exact .served _ _ (hundoes.2 _) (serve_stored hundoes.1 hstored)
  | @returned stored result wire reply hstored hwire =>
    obtain ⟨command, -, rfl⟩ := Option.map_eq_some_iff.mp h
    refine .returned (fun hnone => hclear' ?_) (by simp)
    rw [hnone]
  | polled | served | lost => cases h

theorem Sound.finish (hw : Sound token w) (hclear : LeavesNoLock token w .finish)
    (h : step token w .finish = some w') : Sound token w' := by
  have hclear' : w'.Clear token := hclear w' h
  cases hw with
  | @polled stored future standing hundoes hstored =>
    match future, h with
    | .done outcome, h =>
      obtain rfl := Option.some.inj h
      refine .returned (fun hnone => hclear' ?_) (by simp)
      rw [hnone]
    | .ask query resume, h => cases h
  | sent | served | lost | returned => cases h

theorem Sound.deadline (hw : Sound token w) (hclear : LeavesNoLock token w .deadline)
    (h : step token w .deadline = some w') : Sound token w' := by
  have hclear' : w'.Clear token := hclear w' h
  simp only [Redis.step] at h
  split_ifs at h with hwaits
  obtain rfl := Option.some.inj h
  have hstored : w.stored ≠ some token := hclear' rfl
  cases hw with
  | polled | served | lost => exact .returned (fun _ => hstored) (by simp)
  | sent standing hundoes => exact .returned (fun _ => hstored) (by simpa using hundoes.1)
  | returned => cases hwaits

theorem Sound.step (hw : Sound token w) {e : Event} (hclear : LeavesNoLock token w e)
    (h : step token w e = some w') : Sound token w' := by
  cases e with
  | send => exact hw.send h
  | wake => exact hw.wake h
  | serve => exact hw.serve hclear h
  | lose => exact hw.lose h
  | receive => exact hw.receive h
  | finish => exact hw.finish hclear h
  | deadline => exact hw.deadline hclear h
  | expire => exact hw.expire h
  | others value => exact hw.others h

/-! ## Which steps leave a lock -/

def redlockTries (key token : String) (delay : ℕ) : ℕ → LockFuture
  | 0 => .done (.error .unavailable)
  | n + 1 => .ask (.redis (.setNx token)) fun (isSet : Bool) =>
    if isSet then .done (.ok ⟨key, token⟩)
    else .ask (.redis (.compareAndDelete token)) fun _ =>
      .ask (.sleep delay) fun _ => redlockTries key token delay n

def redlock : Rslock := fun retry key token _ => redlockTries key token retry.delay retry.tries

def attempt (stored : Option String) : World :=
  .start stored (LockCall.acquireLock.future redlock ⟨⟨3, 200⟩⟩ "redis_lock:app:invoice" "t" 2000)

end PaycloudHelper.Redis
