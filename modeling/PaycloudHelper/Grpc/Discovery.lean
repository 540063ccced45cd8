import Mathlib
import PaycloudHelper.Library.ChangeLogs

/-!
# Endpoint discovery

The refresher that keeps a balanced channel on the addresses behind a host name. `A`
are the socket addresses, `ε` the configured endpoints; a `BTreeSet` of addresses is a
`Finset`, read in ascending order.

The balancer takes changes from the queue on its own. `drains` says what it does before
each attempt to queue, so a statement about every list of drains is about every
interleaving of the two. Logging is left out.
-/

namespace PaycloudHelper.Discovery

open ChangeLogs

variable {A ε : Type*}

abbrev Error := List String

inductive EndpointKey (A : Type*)
  | seed (slot : ℕ)
  | addr (address : A) (slot : ℕ)
deriving DecidableEq, Repr

abbrev Changes (A ε : Type*) := List (Change (EndpointKey A) ε)

def firstRetry : ℕ := 1000000000

def diffAddrs [LinearOrder A] (old new : Finset A) : List A × List A :=
  if new = ∅ then ([], []) else ((new \ old).sort, (old \ new).sort)

/-! ## The change queue -/

structure Drain where
  takes : ℕ
  drops : Bool
deriving DecidableEq, Repr

/-- The sending half: what was queued so far, and how much of it the balancer took. -/
structure Sender (A ε : Type*) where
  capacity : ℕ
  sent : Changes A ε
  taken : ℕ
  closed : Bool
  drains : List Drain

def Sender.channel (capacity : ℕ) (drains : List Drain) : Sender A ε :=
  ⟨capacity, [], 0, false, drains⟩

def Sender.free (tx : Sender A ε) : ℕ := tx.capacity - (tx.sent.length - tx.taken)

def Sender.drained (tx : Sender A ε) : Sender A ε :=
  match tx.drains with
  | [] => tx
  | d :: drains =>
    { tx with
      taken := min (tx.taken + d.takes) tx.sent.length
      closed := tx.closed || d.drops
      drains := drains }

@[simp] theorem drained_sent (tx : Sender A ε) : tx.drained.sent = tx.sent := by
  unfold Sender.drained
  split <;> rfl

def Sender.push (tx : Sender A ε) (changes : Changes A ε) : Sender A ε :=
  { tx with sent := tx.sent ++ changes }

inductive TrySendError
  | full
  | closed
deriving DecidableEq, Repr

/-- More slots than the queue has are refused before anything else is looked at. -/
def Sender.tryReserveMany (tx : Sender A ε) (n : ℕ) : Except TrySendError Unit :=
  if tx.capacity < n then .error .full
  else if tx.closed then .error .closed
  else if tx.free < n then .error .full
  else .ok ()

def Sender.trySend (tx : Sender A ε) (change : Change (EndpointKey A) ε) :
    Except TrySendError (Sender A ε) :=
  let tx := tx.drained
  match tx.tryReserveMany 1 with
  | .ok () => .ok (tx.push [change])
  | .error err => .error err

inductive Sent
  | ok
  | full
  | closed
deriving DecidableEq, Repr

def sendBatch (tx : Sender A ε) (changes : Changes A ε) : Sent × Sender A ε :=
  let tx := tx.drained
  match tx.tryReserveMany changes.length with
  | .ok () => (.ok, tx.push changes)
  | .error .full => (.full, tx)
  | .error .closed => (.closed, tx)

/-! ## The refresher -/

/-- Its `refresh` interval is kept with the loop, which alone reads it. -/
structure Refresher (A ε : Type*) where
  pool : ℕ
  seedSlots : ℕ
  known : Finset A
  tx : Sender A ε

def addrKeys (addr : A) (pool : ℕ) : List (EndpointKey A) := (List.range pool).map (.addr addr)

def seedKeys (slots : ℕ) : List (EndpointKey A) := (List.range slots).map .seed

def Refresher.queue (r : Refresher A ε) (changes : Changes A ε)
    (book : Refresher A ε → Refresher A ε) : Sent × Refresher A ε :=
  match sendBatch r.tx changes with
  | (.ok, tx) => (.ok, book { r with tx := tx })
  | (other, tx) => (other, { r with tx := tx })

/-- An address that cannot be built is skipped, and not recorded in `known`. -/
def Refresher.insertAdded [DecidableEq A] (build : A → Except Error ε) (r : Refresher A ε) :
    List A → Sent × Refresher A ε
  | [] => (.ok, r)
  | addr :: added =>
    match build addr with
    | .error _ => r.insertAdded build added
    | .ok endpoint =>
      match r.queue (inserts (addrKeys addr r.pool) endpoint)
          fun r => { r with known := insert addr r.known } with
      | (.ok, r) => r.insertAdded build added
      | stopped => stopped

def Refresher.removeGone [DecidableEq A] (r : Refresher A ε) : List A → Sent × Refresher A ε
  | [] => (.ok, r)
  | addr :: gone =>
    match r.queue (removes (addrKeys addr r.pool)) fun r => { r with known := r.known.erase addr } with
    | (.ok, r) => r.removeGone gone
    | stopped => stopped

def Refresher.removeSeed (r : Refresher A ε) : Sent × Refresher A ε :=
  r.queue (removes (seedKeys r.seedSlots)) fun r => { r with seedSlots := 0 }

def Refresher.apply [LinearOrder A] (r : Refresher A ε) (found : Finset A)
    (build : A → Except Error ε) : Sent × Refresher A ε :=
  let (added, gone) := diffAddrs r.known found
  match r.insertAdded build added with
  | (.ok, r) =>
    match (if gone.length < r.known.card then r.removeGone gone else (.ok, r)) with
    | (.ok, r) => if 0 < r.seedSlots ∧ r.known ≠ ∅ then r.removeSeed else (.ok, r)
    | stopped => stopped
  | stopped => stopped

/-! ## The refresh loop -/

inductive Lookup (A : Type*)
  | found (addresses : Finset A)
  | failed (error : String)
  | timedOut

structure Loop (A ε : Type*) where
  refresher : Refresher A ε
  refresh : ℕ
  first : Bool
  retry : ℕ
  ended : Bool

def Refresher.run (r : Refresher A ε) (refresh : ℕ) (immediate : Bool) : Loop A ε :=
  ⟨r, refresh, immediate, min firstRetry refresh, false⟩

def Loop.delay [DecidableEq A] (l : Loop A ε) : ℕ :=
  if l.first then 0 else if l.refresher.known = ∅ then l.retry else l.refresh

def Loop.slept [DecidableEq A] (l : Loop A ε) : Loop A ε :=
  if l.first then { l with first := false }
  else if l.refresher.known = ∅ then
    -- the source panics where the double is no `Duration`, so not below a refresh of 2^63 s
    { l with retry := min (l.retry * 2) l.refresh }
  else l

inductive Event (A ε : Type*)
  | dropped
  | lookedUp (answer : Lookup A) (build : A → Except Error ε)

/-- A turn of the loop ends it when the channel is dropped; otherwise it looks the host
up, and what `build` gives may differ from turn to turn. -/
def step [LinearOrder A] (l : Loop A ε) : Event A ε → Option (Loop A ε)
  | .dropped =>
    let tx := l.refresher.tx.drained
    if !l.ended && tx.closed then
      some { l with refresher := { l.refresher with tx := tx }, ended := true }
    else none
  | .lookedUp answer build =>
    if l.ended then none
    else
      let l := l.slept
      match answer with
      | .found addresses =>
        let (sent, r) := l.refresher.apply addresses build
        some { l with refresher := r, ended := sent == .closed }
      | .failed _ | .timedOut => some l

end PaycloudHelper.Discovery
