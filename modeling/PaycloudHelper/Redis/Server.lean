import Mathlib
import PaycloudHelper.Library.ExpiringMaps
import PaycloudHelper.Library.Transcripts
import PaycloudHelper.Redis.Locks
import PaycloudHelper.Redis.Ttl

/-!
# The pool over a server with a clock

The server is a parameter with what is documented of its commands. What a key holds after any
run of calls, by any number of clients, with time passing between them. A command of a call
that gave up may still be served, at once or later.
-/

namespace PaycloudHelper.Redis

open Programs Transcripts
open ExpiringMaps (Entry Store View)

/-! ## Lifetimes and deletion -/

inductive KeyCommand
  | pttl (key : String)
  | del (key : String)
deriving DecidableEq, Repr

def KeyCommand.Answer : KeyCommand → Type
  | .pttl _ => Reply ℤ
  | .del _ => Reply Unit

/-- `remaining` is in nanoseconds. -/
inductive KeyTtl
  | missing
  | noExpiry
  | expires (remaining : ℕ)
deriving DecidableEq, Repr

def KeyTtl.fromPttl (ms : ℤ) : KeyTtl :=
  if ms = -2 then .missing
  else if ms = -1 then .noExpiry
  else if ms < 0 then .noExpiry
  else .expires (ms.natAbs * 1000000)

def KeyTtl.remaining : KeyTtl → Option ℕ
  | .expires d => some d
  | .missing | .noExpiry => none

def RedisPool.ttl (pool : RedisPool) (key : String) :
    Prog KeyCommand KeyCommand.Answer (Except String KeyTtl) :=
  .ask (.pttl key) fun reply => .done ((pool.finish "PTTL" reply).map .fromPttl)

def RedisPool.delete (pool : RedisPool) (key : String) :
    Prog KeyCommand KeyCommand.Answer (Except String Unit) :=
  .ask (.del key) fun reply => .done (pool.finish "DEL" reply)

/-! ## The server -/

inductive AnyCommand
  | string (command : Command)
  | generic (command : KeyCommand)
  | lock (key : String) (ttl : ℕ) (command : LockCommand)
deriving DecidableEq, Repr

def AnyCommand.Answer : AnyCommand → Type
  | .string command => command.Answer
  | .generic command => command.Answer
  | .lock _ _ _ => Bool

def AnyCommand.key : AnyCommand → String
  | .string (.get key) | .string (.set key _) | .string (.psetEx key _ _) => key
  | .generic (.pttl key) | .generic (.del key) | .lock key _ _ => key

def pttlReply : Option (Option ℕ) → ℤ
  | none => -2
  | some none => -1
  | some (some ms) => ms

/-- What is documented of a server, in milliseconds. What it answers to a lifetime of zero, which
is an error, is left open. -/
structure Server (S : Type) extends View S String String where
  advance : S → ℕ → S
  serve : S → (command : AnyCommand) → command.Answer × S
  now_advance : ∀ s ms, now (advance s ms) = now s + ms
  entry_advance : ∀ s ms key, entry (advance s ms) key = toView.left s key (now s + ms)
  now_serve : ∀ s command, now (serve s command).2 = now s
  entry_serve_of_ne : ∀ s command key, key ≠ command.key →
    entry (serve s command).2 key = entry s key
  get : ∀ s key, serve s (.string (.get key)) = (.ok (toView.read s key), s)
  set : ∀ s key json, ∃ s', serve s (.string (.set key json)) = (.ok (), s') ∧
    entry s' key = some ⟨json, none⟩
  psetEx : ∀ s key json ms, 0 < ms → ∃ s', serve s (.string (.psetEx key json ms)) = (.ok (), s') ∧
    entry s' key = some ⟨json, some (now s + ms)⟩
  pttl : ∀ s key, serve s (.generic (.pttl key)) =
    (.ok (pttlReply (toView.remaining s key)), s)
  del : ∀ s key, ∃ s', serve s (.generic (.del key)) = (.ok (), s') ∧ entry s' key = none
  setNx_free : ∀ s key ttl token, entry s key = none → 0 < ttl →
    ∃ s', serve s (.lock key ttl (.setNx token)) = (true, s') ∧
      entry s' key = some ⟨token, some (now s + ttl)⟩
  setNx_taken : ∀ s key ttl token, entry s key ≠ none →
    serve s (.lock key ttl (.setNx token)) = (false, s)
  compareAndDelete_own : ∀ s key ttl token, toView.read s key = some token →
    ∃ s', serve s (.lock key ttl (.compareAndDelete token)) = (true, s') ∧ entry s' key = none
  compareAndDelete_other : ∀ s key ttl token, toView.read s key ≠ some token →
    serve s (.lock key ttl (.compareAndDelete token)) = (false, s)

section
variable {S : Type} {redis : Server S} {key : String}

theorem le_now_advance (s : S) (ms : ℕ) : redis.now s ≤ redis.now (redis.advance s ms) := by
  rw [redis.now_advance]
  exact Nat.le_add_right _ _

theorem advance_keeps (s : S) (ms : ℕ) : redis.Keeps key s (redis.advance s ms) where
  now := le_now_advance s ms
  entry := by
    rw [redis.now_advance]
    exact redis.entry_advance s ms key

theorem serve_keeps (s : S) {command : AnyCommand} (h : key ≠ command.key) :
    redis.Keeps key s (redis.serve s command).2 :=
  .of_eq (redis.now_serve s command) (redis.entry_serve_of_ne s command key h)

end

def serveStore (s : Store String String) :
    (command : AnyCommand) → command.Answer × Store String String
  | .string (.get key) => (.ok (Store.view.read s key), s)
  | .string (.set key json) => (.ok (), s.write key json none)
  | .string (.psetEx key json ms) => (.ok (), s.write key json (some ms))
  | .generic (.pttl key) => (.ok (pttlReply (Store.view.remaining s key)), s)
  | .generic (.del key) => (.ok (), s.erase key)
  | .lock key ttl (.setNx token) =>
    if s.entry key = none then (true, s.write key token (some ttl)) else (false, s)
  | .lock key _ (.compareAndDelete token) =>
    if Store.view.read s key = some token then (true, s.erase key) else (false, s)

theorem serveStore_cases (s : Store String String) (command : AnyCommand) :
    (serveStore s command).2 = s ∨ (serveStore s command).2 = s.erase command.key ∨
      ∃ v lifetime, (serveStore s command).2 = s.write command.key v lifetime := by
  match command with
  | .string (.get _) | .generic (.pttl _) => exact Or.inl rfl
  | .string (.set _ json) => exact Or.inr (Or.inr ⟨json, none, rfl⟩)
  | .string (.psetEx _ json ms) => exact Or.inr (Or.inr ⟨json, some ms, rfl⟩)
  | .generic (.del _) => exact Or.inr (Or.inl rfl)
  | .lock key ttl (.setNx token) =>
    by_cases hfree : s.entry key = none
    · exact Or.inr (Or.inr ⟨token, some ttl, congrArg Prod.snd (if_pos hfree)⟩)
    · exact Or.inl (congrArg Prod.snd (if_neg hfree))
  | .lock key _ (.compareAndDelete token) =>
    by_cases hown : Store.view.read s key = some token
    · exact Or.inr (Or.inl (congrArg Prod.snd (if_pos hown)))
    · exact Or.inl (congrArg Prod.snd (if_neg hown))

/-- A server that never clears the place of an expired key. -/
def inMemory : Server (Store String String) where
  toView := Store.view
  advance := Store.advance
  serve := serveStore
  now_advance _ _ := rfl
  entry_advance := Store.entry_advance
  now_serve s command := by
    rcases serveStore_cases s command with h | h | ⟨v, lifetime, h⟩ <;> rw [h] <;> rfl
  entry_serve_of_ne s command key hne := by
    rcases serveStore_cases s command with h | h | ⟨v, lifetime, h⟩ <;> rw [h]
    · exact Store.entry_erase_of_ne hne
    · exact Store.entry_write_of_ne hne v lifetime
  get _ _ := rfl
  set s key json := ⟨_, rfl, Store.entry_write_self (by simp) json⟩
  psetEx s key json ms hms := ⟨_, rfl, Store.entry_write_self (by simpa using hms) json⟩
  pttl _ _ := rfl
  del _ _ := ⟨_, rfl, Store.entry_erase_self⟩
  setNx_free s key ttl token hfree httl :=
    ⟨_, if_pos hfree, Store.entry_write_self (by simpa using httl) token⟩
  setNx_taken _ _ _ _ htaken := if_neg htaken
  compareAndDelete_own _ _ _ _ hown := ⟨_, if_pos hown, Store.entry_erase_self⟩
  compareAndDelete_other _ _ _ _ hother := if_neg hother

/-! ## Calls -/

inductive Op
  | store (key json : String) (ttl : ℕ)
  | get (key : String)
  | ttl (key : String)
  | delete (key : String)
deriving DecidableEq, Repr

inductive Result
  | stored
  | found (value : Option String)
  | lifetime (ttl : KeyTtl)
  | deleted
deriving DecidableEq, Repr

section
variable {S : Type}

def Server.serveString (redis : Server S) (s : S) (command : Command) : command.Answer × S :=
  redis.serve s (.string command)

def Server.serveGeneric (redis : Server S) (s : S) (command : KeyCommand) : command.Answer × S :=
  redis.serve s (.generic command)

def RedisPool.perform (pool : RedisPool) (redis : Server S) (s : S) :
    Op → Except String Result × S
  | .store key json ttl =>
    ((pool.store key (.ok json) ttl).servedBy redis.serveString s).map
      (Except.map fun _ => .stored) id
  | .get key => ((pool.get key).servedBy redis.serveString s).map (Except.map .found) id
  | .ttl key => ((pool.ttl key).servedBy redis.serveGeneric s).map (Except.map .lifetime) id
  | .delete key =>
    ((pool.delete key).servedBy redis.serveGeneric s).map (Except.map fun _ => .deleted) id

end

/-- A call that is answered, or the command of one that was not. -/
inductive Input
  | tick (ms : ℕ)
  | call (op : Op)
  | late (op : Op)
deriving DecidableEq, Repr

def Server.step {S : Type} (redis : Server S) (pool : RedisPool) (s : S) :
    Input → Option (Except String Result) × S
  | .tick ms => (none, redis.advance s ms)
  | .call op => ((pool.perform redis s op).1, (pool.perform redis s op).2)
  | .late op => (none, (pool.perform redis s op).2)

def Op.key : Op → String
  | .store key _ _ | .get key | .ttl key | .delete key => key

def Op.writes (key : String) : Op → Bool
  | .store key' _ _ | .delete key' => key' == key
  | .get _ | .ttl _ => false

def Input.writes (key : String) : Input → Bool
  | .tick _ => false
  | .call op | .late op => op.writes key

def elapsed (inputs : List Input) : ℕ :=
  (inputs.map fun | .tick ms => ms | .call _ | .late _ => 0).sum

/-! ## What a call does -/

section
variable {S : Type} (pool : RedisPool) (redis : Server S) (s : S)

def RedisPool.lifetime (pool : RedisPool) (ttl : ℕ) : Option ℕ :=
  if pool.clampTtl ttl = 0 then none else some (pool.clampTtl ttl)

theorem perform_store (key json : String) (ttl : ℕ) :
    ∃ s', pool.perform redis s (.store key json ttl) = (.ok .stored, s') ∧
      redis.entry s' key = some ⟨json, (pool.lifetime ttl).map (redis.now s + ·)⟩ := by
  unfold RedisPool.perform RedisPool.store RedisPool.lifetime
  dsimp only
  split_ifs with hzero
  · obtain ⟨s', hserve, hentry⟩ := redis.set s key json
    refine ⟨s', ?_, hentry⟩
    simp only [Prog.servedBy, Server.serveString, hserve]
    rfl
  · obtain ⟨s', hserve, hentry⟩ := redis.psetEx s key json _ (Nat.pos_of_ne_zero hzero)
    refine ⟨s', ?_, hentry⟩
    simp only [Prog.servedBy, Server.serveString, hserve]
    rfl

theorem perform_get (key : String) :
    pool.perform redis s (.get key) = (.ok (.found (redis.read s key)), s) := by
  simp only [RedisPool.perform, RedisPool.get, Prog.servedBy, Server.serveString, redis.get]
  rfl

theorem perform_ttl (key : String) :
    pool.perform redis s (.ttl key) =
      (.ok (.lifetime (.fromPttl (pttlReply (redis.remaining s key)))), s) := by
  simp only [RedisPool.perform, RedisPool.ttl, Prog.servedBy, Server.serveGeneric, redis.pttl]
  rfl

theorem perform_delete (key : String) :
    ∃ s', pool.perform redis s (.delete key) = (.ok .deleted, s') ∧
      redis.entry s' key = none := by
  obtain ⟨s', hserve, hentry⟩ := redis.del s key
  refine ⟨s', ?_, hentry⟩
  simp only [RedisPool.perform, RedisPool.delete, Prog.servedBy, Server.serveGeneric, hserve]
  rfl

theorem perform_serves (op : Op) :
    ∃ command : AnyCommand, command.key = op.key ∧
      (pool.perform redis s op).2 = (redis.serve s command).2 := by
  cases op with
  | store key json ttl =>
    unfold RedisPool.perform RedisPool.store
    dsimp only
    split_ifs with hzero
    · exact ⟨.string (.set key json), rfl, rfl⟩
    · exact ⟨.string (.psetEx key json _), rfl, rfl⟩
  | get key => exact ⟨.string (.get key), rfl, rfl⟩
  | ttl key => exact ⟨.generic (.pttl key), rfl, rfl⟩
  | delete key => exact ⟨.generic (.del key), rfl, rfl⟩

variable {pool redis s}

theorem perform_now (op : Op) : redis.now (pool.perform redis s op).2 = redis.now s := by
  obtain ⟨command, -, hserve⟩ := perform_serves pool redis s op
  rw [hserve, redis.now_serve]

theorem perform_keeps {op : Op} {key : String} (h : op.writes key = false) :
    redis.Keeps key s (pool.perform redis s op).2 := by
  obtain ⟨command, hkey, hserve⟩ := perform_serves pool redis s op
  cases op with
  | get key' =>
    rw [perform_get]
    exact .refl s
  | ttl key' =>
    rw [perform_ttl]
    exact .refl s
  | store key' json ttl | delete key' =>
    have hne : key ≠ command.key := by
      rintro rfl
      simp [Op.writes, Op.key, hkey] at h
    rw [hserve]
    exact serve_keeps s hne

theorem step_keeps (pool : RedisPool) (redis : Server S) (s : S) {input : Input} {key : String}
    (h : input.writes key = false) :
    redis.Keeps key s (redis.step pool s input).2 ∧
      redis.now (redis.step pool s input).2 = redis.now s + elapsed [input] := by
  cases input with
  | tick ms => exact ⟨advance_keeps s ms, by simp [Server.step, elapsed, redis.now_advance]⟩
  | call op | late op => exact ⟨perform_keeps h, perform_now op⟩

theorem final_keeps (pool : RedisPool) (redis : Server S) (s : S) {inputs : List Input}
    {key : String} (h : ∀ input ∈ inputs, input.writes key = false) :
    redis.Keeps key s (final (redis.step pool) s inputs) ∧
      redis.now (final (redis.step pool) s inputs) = redis.now s + elapsed inputs := by
  induction inputs generalizing s with
  | nil => exact ⟨.refl s, rfl⟩
  | cons input inputs ih =>
    obtain ⟨hkeeps, hnow⟩ := step_keeps pool redis s (h input (by simp))
    obtain ⟨ihkeeps, ihnow⟩ := @ih (redis.step pool s input).2 fun i hi => h i (by simp [hi])
    rw [final_cons]
    refine ⟨hkeeps.trans ihkeeps, ?_⟩
    rw [ihnow, hnow]
    simp only [elapsed, List.map_cons, List.sum_cons, List.map_nil, List.sum_nil]
    omega

end

/-! ## The last write decides -/

theorem fromPttl_natCast (ms : ℕ) : KeyTtl.fromPttl ms = .expires (ms * 1000000) := by
  have h : ¬((ms : ℤ) = -2) ∧ ¬((ms : ℤ) = -1) ∧ ¬((ms : ℤ) < 0) := by omega
  simp [KeyTtl.fromPttl, h]

def remains (lifetime : Option ℕ) (n : ℕ) : KeyTtl :=
  match lifetime with
  | none => .noExpiry
  | some ms => if n < ms then .expires ((ms - n) * 1000000) else .missing

section
variable {S : Type} {redis : Server S} {s s' : S} {key json : String}

theorem read_of_written {lifetime : Option ℕ}
    (h : redis.entry s key = some ⟨json, lifetime.map (redis.now s + ·)⟩)
    (hkeeps : redis.Keeps key s s') {n : ℕ} (hnow : redis.now s' = redis.now s + n) :
    redis.read s' key = (if remains lifetime n = .missing then none else some json) ∧
      KeyTtl.fromPttl (pttlReply (redis.remaining s' key)) = remains lifetime n := by
  cases lifetime with
  | none =>
    have hentry : redis.entry s' key = some ⟨json, none⟩ := hkeeps.entry_of_live h rfl
    simp [View.read, View.remaining, hentry, remains, pttlReply, KeyTtl.fromPttl]
  | some ms =>
    have hentry : redis.entry s' key =
        if n < ms then some ⟨json, some (redis.now s + ms)⟩ else none := by
      rw [hkeeps.entry, View.left, h, hnow]
      simp [Option.filter]
    by_cases hlt : n < ms
    · have hleft : redis.now s + ms - redis.now s' = ms - n := by omega
      simp [View.read, View.remaining, pttlReply, hentry, remains, hlt, hleft, fromPttl_natCast]
    · simp [View.read, View.remaining, pttlReply, hentry, remains, hlt, KeyTtl.fromPttl]

theorem read_of_erased (h : redis.entry s key = none) :
    redis.read s key = none ∧
      KeyTtl.fromPttl (pttlReply (redis.remaining s key)) = .missing := by
  simp [View.read, View.remaining, h, pttlReply, KeyTtl.fromPttl]

end

/-- Whatever else is called or served after a store, as long as the key is not written: for its
clamped lifetime the key holds what was stored and `ttl` tells to the millisecond what is left;
from then on both say that it is missing. After a deletion both do at once. -/
theorem last_write_decides {S : Type} (redis : Server S) (pool : RedisPool) (s : S) (key : String)
    (inputs : List Input) (huntouched : ∀ input ∈ inputs, input.writes key = false) :
    (∀ json ttl,
      let stored := (pool.perform redis s (.store key json ttl)).2
      let later := final (redis.step pool) stored inputs
      let left := remains (pool.lifetime ttl) (elapsed inputs)
      (pool.perform redis later (.ttl key)).1 = .ok (.lifetime left) ∧
        (pool.perform redis later (.get key)).1 =
          .ok (.found (if left = .missing then none else some json))) ∧
      let later := final (redis.step pool) (pool.perform redis s (.delete key)).2 inputs
      (pool.perform redis later (.ttl key)).1 = .ok (.lifetime .missing) ∧
        (pool.perform redis later (.get key)).1 = .ok (.found none) := by
  refine ⟨fun json ttl => ?_, ?_⟩
  · have hnow := @perform_now _ pool redis s (.store key json ttl)
    obtain ⟨s', hstore, hentry⟩ := perform_store pool redis s key json ttl
    rw [hstore] at hnow
    rw [← hnow] at hentry
    dsimp only
    rw [hstore]
    obtain ⟨hkeeps, hlater⟩ := final_keeps pool redis s' huntouched
    obtain ⟨hread, hpttl⟩ := read_of_written hentry hkeeps hlater
    rw [perform_ttl, perform_get, hread, hpttl]
    exact ⟨rfl, rfl⟩
  · obtain ⟨s', hdelete, hentry⟩ := perform_delete pool redis s key
    dsimp only
    rw [hdelete]
    obtain ⟨hkeeps, -⟩ := final_keeps pool redis s' huntouched
    obtain ⟨hread, hpttl⟩ := read_of_erased (hkeeps.entry_eq_none hentry)
    rw [perform_ttl, perform_get, hread, hpttl]
    exact ⟨rfl, rfl⟩

theorem last_write_decides_session :
    let pool : RedisPool := ⟨fun _ => none⟩
    let inputs := [.tick 400, .late (.store "other" "1" 0), .call (.get "session"), .tick 1100]
    (∀ json ttl,
      let stored := (pool.perform inMemory .empty (.store "session" json ttl)).2
      let later := final (inMemory.step pool) stored inputs
      let left := remains (pool.lifetime ttl) (elapsed inputs)
      (pool.perform inMemory later (.ttl "session")).1 = .ok (.lifetime left) ∧
        (pool.perform inMemory later (.get "session")).1 =
          .ok (.found (if left = .missing then none else some json))) ∧
      let later :=
        final (inMemory.step pool) (pool.perform inMemory .empty (.delete "session")).2 inputs
      (pool.perform inMemory later (.ttl "session")).1 = .ok (.lifetime .missing) ∧
        (pool.perform inMemory later (.get "session")).1 = .ok (.found none) :=
  last_write_decides inMemory ⟨fun _ => none⟩ .empty "session" _ (by decide)

end PaycloudHelper.Redis
