import Mathlib
import PaycloudHelper.Library.Runs
import PaycloudHelper.Grpc.DiscoveryMirror

/-!
# Ticks until the books fit the lookups

How far a refresher is from an answer that no longer changes. A tick may stop at any
batch, but the first batch of a tick always has room, and it brings the refresher closer.
-/

namespace PaycloudHelper.Discovery

open ChangeLogs Runs

variable {A ε : Type*}

/-! ## An open channel -/

structure Sender.StaysOpen (tx : Sender A ε) : Prop where
  opened : tx.closed = false
  stays : ∀ d ∈ tx.drains, d.drops = false

theorem Sender.StaysOpen.drained {tx : Sender A ε} (h : tx.StaysOpen) : tx.drained.StaysOpen := by
  obtain ⟨hclosed, hdrains⟩ := h
  unfold Sender.drained
  split
  · exact ⟨hclosed, hdrains⟩
  · rename_i d drains heq
    rw [heq, List.forall_mem_cons] at hdrains
    exact ⟨by simp [hclosed, hdrains.1], hdrains.2⟩

theorem free_le_free_drained (tx : Sender A ε) : tx.free ≤ tx.drained.free := by
  unfold Sender.drained Sender.free
  split
  · exact le_rfl
  · dsimp only
    omega

variable {r : Refresher A ε} {changes : Changes A ε} {book : Refresher A ε → Refresher A ε}

theorem queue_of_room (hopen : r.tx.StaysOpen) (hroom : changes.length ≤ r.tx.drained.free) :
    r.queue changes book = (.ok, book { r with tx := r.tx.drained.push changes }) := by
  have hcapacity : r.tx.drained.free ≤ r.tx.drained.capacity := Nat.sub_le _ _
  have hreserve : r.tx.drained.tryReserveMany changes.length = .ok () := by
    simp [Sender.tryReserveMany, hopen.drained.opened, Nat.not_lt.mpr hroom,
      Nat.not_lt.mpr (hroom.trans hcapacity)]
  simp [Refresher.queue, sendBatch, hreserve]

theorem queue_of_open (hopen : r.tx.StaysOpen) :
    r.queue changes book = (.ok, book { r with tx := r.tx.drained.push changes }) ∨
      r.queue changes book = (.full, { r with tx := r.tx.drained }) := by
  have hnot : r.tx.drained.closed = false := hopen.drained.opened
  by_cases hroom : changes.length ≤ r.tx.drained.free
  · exact Or.inl (queue_of_room hopen hroom)
  · right
    have hreserve : r.tx.drained.tryReserveMany changes.length = .error .full := by
      unfold Sender.tryReserveMany
      simp [hnot, Nat.lt_of_not_le hroom]
    simp [Refresher.queue, sendBatch, hreserve]

/-! ## The distance -/

variable [LinearOrder A] {found : Finset A} {a : A}

/-- The addresses to be added and removed, and the seed. -/
def distance (found : Finset A) (r : Refresher A ε) : ℕ :=
  (found \ r.known).card + (r.known \ found).card + if 0 < r.seedSlots then 1 else 0

theorem distance_eq_zero : distance found r = 0 ↔ r.known = found ∧ r.seedSlots = 0 := by
  have hknown : found \ r.known = ∅ ∧ r.known \ found = ∅ ↔ r.known = found := by
    rw [Finset.sdiff_eq_empty_iff_subset, Finset.sdiff_eq_empty_iff_subset, and_comm,
      ← Finset.Subset.antisymm_iff]
  simp only [distance, Nat.add_eq_zero_iff, Finset.card_eq_zero, hknown]
  simp

theorem distance_insert (ha : a ∈ found) (tx : Sender A ε) :
    distance found { r with tx := tx, known := insert a r.known } ≤ distance found r ∧
      (a ∉ r.known →
        distance found { r with tx := tx, known := insert a r.known } < distance found r) := by
  have hgone : insert a r.known \ found = r.known \ found := Finset.insert_sdiff_of_mem _ ha
  have hadded : found \ insert a r.known = (found \ r.known).erase a := Finset.sdiff_insert ..
  have hle : ((found \ r.known).erase a).card ≤ (found \ r.known).card := Finset.card_erase_le
  simp only [distance, hgone, hadded]
  refine ⟨by omega, fun hnew => ?_⟩
  have hlt : ((found \ r.known).erase a).card < (found \ r.known).card :=
    Finset.card_erase_lt_of_mem (Finset.mem_sdiff.mpr ⟨ha, hnew⟩)
  omega

theorem distance_erase (ha : a ∉ found) (tx : Sender A ε) :
    distance found { r with tx := tx, known := r.known.erase a } ≤ distance found r ∧
      (a ∈ r.known →
        distance found { r with tx := tx, known := r.known.erase a } < distance found r) := by
  have hgone : r.known.erase a \ found = (r.known \ found).erase a := Finset.erase_sdiff_comm ..
  have hadded : found \ r.known.erase a = found \ r.known := by
    ext b
    simp only [Finset.mem_sdiff, Finset.mem_erase, not_and]
    refine and_congr_right fun hb => ⟨fun h hk => h ?_ hk, fun h _ => h⟩
    exact fun hba => ha (hba ▸ hb)
  have hle : ((r.known \ found).erase a).card ≤ (r.known \ found).card := Finset.card_erase_le
  simp only [distance, hgone, hadded]
  refine ⟨by omega, fun hold => ?_⟩
  have hlt : ((r.known \ found).erase a).card < (r.known \ found).card :=
    Finset.card_erase_lt_of_mem (Finset.mem_sdiff.mpr ⟨hold, ha⟩)
  omega

/-! ## One tick -/

/-- What the batches of a tick do to `r`, at whichever of them the tick stops. -/
structure Advanced (found : Finset A) (r : Refresher A ε) (x : Sent × Refresher A ε) : Prop where
  sent : x.1 ≠ .closed
  opened : x.2.tx.StaysOpen
  pool : x.2.pool = r.pool
  seed : x.2.seedSlots = r.seedSlots ∨ x.2.seedSlots = 0
  distance : distance found x.2 ≤ distance found r

def andThen (x : Sent × Refresher A ε) (f : Refresher A ε → Sent × Refresher A ε) :
    Sent × Refresher A ε :=
  match x with
  | (.ok, r) => f r
  | stopped => stopped

variable {x : Sent × Refresher A ε} {f : Refresher A ε → Sent × Refresher A ε}

theorem Advanced.done (hopen : r.tx.StaysOpen) : Advanced found r (.ok, r) :=
  ⟨by simp, hopen, rfl, Or.inl rfl, le_rfl⟩

theorem Advanced.trans (hx : Advanced found r x) {y : Sent × Refresher A ε}
    (hy : Advanced found x.2 y) : Advanced found r y where
  sent := hy.sent
  opened := hy.opened
  pool := hy.pool.trans hx.pool
  seed := by
    rcases hy.seed with h | h
    · rw [h]
      exact hx.seed
    · exact Or.inr h
  distance := hy.distance.trans hx.distance

theorem Advanced.andThen (hx : Advanced found r x) (hf : Advanced found x.2 (f x.2)) :
    Advanced found r (andThen x f) := by
  obtain ⟨sent, r'⟩ := x
  cases sent with
  | ok => exact hx.trans hf
  | full | closed => exact hx

theorem Advanced.queue (hopen : r.tx.StaysOpen)
    (hbook : ∀ tx, tx.StaysOpen → Advanced found r (.ok, book { r with tx := tx })) :
    Advanced found r (r.queue changes book) := by
  have hdrained : r.tx.drained.StaysOpen := hopen.drained
  have hqueue : r.queue changes book = (.ok, book { r with tx := r.tx.drained.push changes }) ∨
      r.queue changes book = (.full, { r with tx := r.tx.drained }) := queue_of_open hopen
  rcases hqueue with h | h
  · rw [h]
    exact hbook _ ⟨hdrained.opened, hdrained.stays⟩
  · rw [h]
    exact ⟨by simp, hdrained, rfl, Or.inl rfl, le_rfl⟩

variable {build : A → Except Error ε}

def insertBatch (r : Refresher A ε) (a : A) (endpoint : ε) : Sent × Refresher A ε :=
  r.queue (inserts (addrKeys a r.pool) endpoint) fun r => { r with known := insert a r.known }

def removeBatch (r : Refresher A ε) (a : A) : Sent × Refresher A ε :=
  r.queue (removes (addrKeys a r.pool)) fun r => { r with known := r.known.erase a }

theorem Advanced.insertBatch (hopen : r.tx.StaysOpen) (ha : a ∈ found) (endpoint : ε) :
    Advanced found r (insertBatch r a endpoint) :=
  Advanced.queue hopen fun tx htx => ⟨by simp, htx, rfl, Or.inl rfl, (distance_insert ha tx).1⟩

theorem Advanced.removeBatch (hopen : r.tx.StaysOpen) (ha : a ∉ found) :
    Advanced found r (removeBatch r a) :=
  Advanced.queue hopen fun tx htx => ⟨by simp, htx, rfl, Or.inl rfl, (distance_erase ha tx).1⟩

theorem insertAdded_cons {endpoint : ε} (ha : build a = .ok endpoint) (added : List A) :
    r.insertAdded build (a :: added) =
      andThen (insertBatch r a endpoint) fun r => r.insertAdded build added := by
  rw [Refresher.insertAdded, ha]
  rfl

theorem removeGone_cons (gone : List A) :
    r.removeGone (a :: gone) = andThen (removeBatch r a) fun r => r.removeGone gone := rfl

theorem Advanced.insertAdded {added : List A} (hopen : r.tx.StaysOpen)
    (hadded : ∀ a ∈ added, a ∈ found) : Advanced found r (r.insertAdded build added) := by
  induction added generalizing r with
  | nil => exact Advanced.done hopen
  | cons a added ih =>
    obtain ⟨ha, hadded⟩ := List.forall_mem_cons.mp hadded
    cases hbuild : build a with
    | error err =>
      rw [Refresher.insertAdded, hbuild]
      exact ih hopen hadded
    | ok endpoint =>
      have hbatch : Advanced found r (Discovery.insertBatch r a endpoint) :=
        Advanced.insertBatch hopen ha endpoint
      rw [insertAdded_cons hbuild]
      exact hbatch.andThen (ih hbatch.opened hadded)

theorem Advanced.removeGone {gone : List A} (hopen : r.tx.StaysOpen)
    (hgone : ∀ a ∈ gone, a ∉ found) : Advanced found r (r.removeGone gone) := by
  induction gone generalizing r with
  | nil => exact Advanced.done hopen
  | cons a gone ih =>
    obtain ⟨ha, hgone⟩ := List.forall_mem_cons.mp hgone
    have hbatch : Advanced found r (Discovery.removeBatch r a) := Advanced.removeBatch hopen ha
    rw [removeGone_cons]
    exact hbatch.andThen (ih hbatch.opened hgone)

theorem Advanced.removeSeed (hopen : r.tx.StaysOpen) : Advanced found r r.removeSeed := by
  refine Advanced.queue hopen fun tx htx => ⟨by simp, htx, rfl, Or.inr rfl, ?_⟩
  simp [Discovery.distance]

def Refresher.removals (r : Refresher A ε) (gone : List A) : Sent × Refresher A ε :=
  if gone.length < r.known.card then r.removeGone gone else (.ok, r)

def Refresher.unseed (r : Refresher A ε) : Sent × Refresher A ε :=
  if 0 < r.seedSlots ∧ r.known ≠ ∅ then r.removeSeed else (.ok, r)

theorem apply_eq : r.apply found build =
    andThen (andThen (r.insertAdded build (diffAddrs r.known found).1) fun r' =>
      r'.removals (diffAddrs r.known found).2) Refresher.unseed := by
  unfold Refresher.apply
  generalize diffAddrs r.known found = diff
  obtain ⟨added, gone⟩ := diff
  dsimp only
  generalize r.insertAdded build added = inserted
  obtain ⟨sent, r₁⟩ := inserted
  cases sent <;> rfl

theorem mem_diffAddrs (hfound : found.Nonempty) (old : Finset A) :
    (∀ a, a ∈ (diffAddrs old found).1 ↔ a ∈ found ∧ a ∉ old) ∧
      ∀ a, a ∈ (diffAddrs old found).2 ↔ a ∈ old ∧ a ∉ found := by
  simp [diffAddrs, hfound.ne_empty]

theorem Advanced.removals {gone : List A} (hopen : r.tx.StaysOpen)
    (hgone : ∀ a ∈ gone, a ∉ found) : Advanced found r (r.removals gone) := by
  unfold Refresher.removals
  split_ifs
  · exact Advanced.removeGone hopen hgone
  · exact Advanced.done hopen

theorem Advanced.unseed (hopen : r.tx.StaysOpen) : Advanced found r r.unseed := by
  unfold Refresher.unseed
  split_ifs
  · exact Advanced.removeSeed hopen
  · exact Advanced.done hopen

theorem Advanced.apply (hfound : found.Nonempty) (hopen : r.tx.StaysOpen) :
    Advanced found r (r.apply found build) := by
  obtain ⟨hadded, hgone⟩ := mem_diffAddrs hfound r.known
  have hins : Advanced found r (r.insertAdded build (diffAddrs r.known found).1) :=
    Advanced.insertAdded hopen fun a ha => ((hadded a).mp ha).1
  have hrem := hins.andThen (f := fun r' => r'.removals (diffAddrs r.known found).2)
    (Advanced.removals hins.opened fun a ha => ((hgone a).mp ha).2)
  rw [apply_eq]
  exact hrem.andThen (Advanced.unseed hrem.opened)

/-! ## The first batch -/

structure Closer (found : Finset A) (r : Refresher A ε) (x : Sent × Refresher A ε) : Prop
    extends Advanced found r x where
  closer : Discovery.distance found x.2 < Discovery.distance found r

theorem Closer.andThen (hx : Closer found r x) (hf : Advanced found x.2 (f x.2)) :
    Closer found r (andThen x f) := by
  refine ⟨hx.toAdvanced.andThen hf, ?_⟩
  obtain ⟨sent, r'⟩ := x
  cases sent with
  | ok => exact hf.distance.trans_lt hx.closer
  | full | closed => exact hx.closer

theorem Closer.insertBatch (hopen : r.tx.StaysOpen) (hroom : r.pool ≤ r.tx.drained.free)
    (ha : a ∈ found) (hnew : a ∉ r.known) (endpoint : ε) :
    Closer found r (insertBatch r a endpoint) := by
  refine ⟨Advanced.insertBatch hopen ha endpoint, ?_⟩
  rw [Discovery.insertBatch, queue_of_room hopen (by simpa [inserts, addrKeys] using hroom)]
  exact (distance_insert ha _).2 hnew

theorem Closer.removeBatch (hopen : r.tx.StaysOpen) (hroom : r.pool ≤ r.tx.drained.free)
    (ha : a ∉ found) (hold : a ∈ r.known) : Closer found r (removeBatch r a) := by
  refine ⟨Advanced.removeBatch hopen ha, ?_⟩
  rw [Discovery.removeBatch, queue_of_room hopen (by simpa [removes, addrKeys] using hroom)]
  exact (distance_erase ha _).2 hold

theorem Closer.removeSeed (hopen : r.tx.StaysOpen) (hroom : r.seedSlots ≤ r.tx.drained.free)
    (hseed : 0 < r.seedSlots) : Closer found r r.removeSeed := by
  refine ⟨Advanced.removeSeed hopen, ?_⟩
  rw [Refresher.removeSeed, queue_of_room hopen (by simpa [removes, seedKeys] using hroom)]
  simp [Discovery.distance, hseed]

theorem Closer.insertAdded {added : List A} (hopen : r.tx.StaysOpen)
    (hroom : r.pool ≤ r.tx.drained.free) (hadded : ∀ b ∈ a :: added, b ∈ found)
    (hnew : a ∉ r.known) (hbuild : ∀ b ∈ found, ∃ endpoint, build b = .ok endpoint) :
    Closer found r (r.insertAdded build (a :: added)) := by
  have ha : a ∈ found := hadded a List.mem_cons_self
  obtain ⟨endpoint, hendpoint⟩ := hbuild a ha
  have hbatch : Closer found r (Discovery.insertBatch r a endpoint) :=
    Closer.insertBatch hopen hroom ha hnew endpoint
  rw [insertAdded_cons hendpoint]
  exact hbatch.andThen (f := fun r => r.insertAdded build added)
    (Advanced.insertAdded hbatch.opened fun b hb => hadded b (List.mem_cons_of_mem a hb))

theorem Closer.removals {gone : List A} (hopen : r.tx.StaysOpen)
    (hroom : r.pool ≤ r.tx.drained.free) (hgone : ∀ b ∈ a :: gone, b ∉ found)
    (hold : a ∈ r.known) (hveto : (a :: gone).length < r.known.card) :
    Closer found r (r.removals (a :: gone)) := by
  have hbatch : Closer found r (Discovery.removeBatch r a) :=
    Closer.removeBatch hopen hroom (hgone a List.mem_cons_self) hold
  rw [Refresher.removals, if_pos hveto, removeGone_cons]
  exact hbatch.andThen (f := fun r => r.removeGone gone)
    (Advanced.removeGone hbatch.opened fun b hb => hgone b (List.mem_cons_of_mem a hb))

theorem Closer.unseed (hopen : r.tx.StaysOpen) (hroom : r.seedSlots ≤ r.tx.drained.free)
    (hseed : 0 < r.seedSlots) (hknown : r.known ≠ ∅) : Closer found r r.unseed := by
  have hunseed : r.unseed = r.removeSeed := if_pos ⟨hseed, hknown⟩
  rw [hunseed]
  exact Closer.removeSeed hopen hroom hseed

theorem removals_nil (r : Refresher A ε) : r.removals [] = (.ok, r) := by
  unfold Refresher.removals Refresher.removeGone
  exact ite_self _

theorem length_gone_lt (hfound : found.Nonempty) {old : Finset A} (hsub : found ⊆ old) :
    (diffAddrs old found).2.length < old.card := by
  have hlt : (old \ found).card < old.card :=
    Finset.card_lt_card (Finset.sdiff_ssubset hsub hfound)
  simpa [diffAddrs, hfound.ne_empty] using hlt

theorem Closer.apply (hfound : found.Nonempty) (hopen : r.tx.StaysOpen)
    (hseed : r.seedSlots = 0 ∨ r.seedSlots = r.pool)
    (hbuild : ∀ a ∈ found, ∃ endpoint, build a = .ok endpoint)
    (hroom : r.pool ≤ r.tx.drained.free) (hne : Discovery.distance found r ≠ 0) :
    Closer found r (r.apply found build) := by
  obtain ⟨hadded, hgone⟩ := mem_diffAddrs hfound r.known
  have hveto : found ⊆ r.known → (diffAddrs r.known found).2.length < r.known.card :=
    length_gone_lt hfound
  rw [apply_eq]
  generalize (diffAddrs r.known found).1 = added at hadded ⊢
  generalize (diffAddrs r.known found).2 = gone at hgone hveto ⊢
  cases added with
  | cons a added =>
    have hins : Closer found r (r.insertAdded build (a :: added)) :=
      Closer.insertAdded hopen hroom (fun b hb => ((hadded b).mp hb).1)
        ((hadded a).mp List.mem_cons_self).2 hbuild
    have hrem := hins.andThen (f := fun r' => r'.removals gone)
      (Advanced.removals hins.opened fun b hb => ((hgone b).mp hb).2)
    exact hrem.andThen (Advanced.unseed hrem.opened)
  | nil =>
    have hsub : found ⊆ r.known := by
      intro b hb
      by_contra hnew
      exact List.not_mem_nil ((hadded b).mpr ⟨hb, hnew⟩)
    change Closer found r (Discovery.andThen (r.removals gone) Refresher.unseed)
    cases gone with
    | cons a gone =>
      have hrem : Closer found r (r.removals (a :: gone)) :=
        Closer.removals hopen hroom (fun b hb => ((hgone b).mp hb).2)
          ((hgone a).mp List.mem_cons_self).1 (hveto hsub)
      exact hrem.andThen (Advanced.unseed hrem.opened)
    | nil =>
      have hknown : r.known = found := by
        refine Finset.Subset.antisymm (fun b hb => ?_) hsub
        by_contra hnew
        exact List.not_mem_nil ((hgone b).mpr ⟨hb, hnew⟩)
      have hpos : 0 < r.seedSlots := by
        by_contra hzero
        exact hne (distance_eq_zero.mpr ⟨hknown, by omega⟩)
      have hslots : r.seedSlots ≤ r.tx.drained.free := by
        rwa [hseed.resolve_left hpos.ne']
      rw [removals_nil]
      exact Closer.unseed hopen hslots hpos (by rw [hknown]; exact hfound.ne_empty)

theorem apply_of_settled (hknown : r.known = found) (hseed : r.seedSlots = 0) :
    r.apply found build = (.ok, r) := by
  have hdiff : diffAddrs r.known found = ([], []) := by simp [diffAddrs, hknown]
  simp [apply_eq, hdiff, andThen, Refresher.insertAdded, Refresher.removals, Refresher.removeGone,
    Refresher.unseed, hseed]

/-! ## Runs of ticks -/

/-- A tick that finds the addresses, can build them all, and has the room of one pool. What
the balancer takes before the first batch counts as room. -/
def Favourable (found : Finset A) (l : Loop A ε) : Event A ε → Prop
  | .lookedUp (.found addresses) build =>
    addresses = found ∧ (∀ a ∈ found, ∃ endpoint, build a = .ok endpoint) ∧
      l.refresher.pool ≤ l.refresher.tx.drained.free
  | .lookedUp _ _ | .dropped => False

def Settled (found : Finset A) (r : Refresher A ε) : Prop := r.known = found ∧ r.seedSlots = 0

def Progresses (found : Finset A) (l : Loop A ε) : Event A ε → Prop
  | .lookedUp (.found addresses) build =>
    (Settled found l.refresher ∧ l.refresher.apply addresses build = (.ok, l.refresher)) ∨
      distance found (l.refresher.apply addresses build).2 < distance found l.refresher
  | .lookedUp _ _ | .dropped => True

structure Steady (l : Loop A ε) : Prop where
  going : l.ended = false
  opened : l.refresher.tx.StaysOpen
  seed : l.refresher.seedSlots = 0 ∨ l.refresher.seedSlots = l.refresher.pool

variable {l l' : Loop A ε} {e : Event A ε}

theorem step_found (h : l.ended = false) (addresses : Finset A) (build : A → Except Error ε) :
    step l (.lookedUp (.found addresses) build) = some { l.slept with
      refresher := (l.refresher.apply addresses build).2
      ended := (l.refresher.apply addresses build).1 == .closed } := by
  simp only [Discovery.step, h, Bool.false_eq_true, if_false, slept_refresher]

theorem Favourable.step (hl : Steady l) (he : Favourable found l e) :
    ∃ build, e = .lookedUp (.found found) build ∧
      (∀ a ∈ found, ∃ endpoint, build a = .ok endpoint) ∧
      l.refresher.pool ≤ l.refresher.tx.drained.free ∧
      step l e = some { l.slept with
        refresher := (l.refresher.apply found build).2
        ended := (l.refresher.apply found build).1 == .closed } := by
  match e, he with
  | .lookedUp (.found addresses) build, he =>
    obtain ⟨hanswer, hbuild, hroom⟩ := he
    subst hanswer
    exact ⟨build, rfl, hbuild, hroom, step_found hl.going addresses build⟩

theorem Favourable.progresses (hfound : found.Nonempty) (hl : Steady l)
    (he : Favourable found l e) : Progresses found l e := by
  obtain ⟨build, rfl, hbuild, hroom, -⟩ := he.step hl
  by_cases hzero : distance found l.refresher = 0
  · obtain ⟨hknown, hseed⟩ := distance_eq_zero.mp hzero
    exact Or.inl ⟨⟨hknown, hseed⟩, apply_of_settled hknown hseed⟩
  · exact Or.inr (Closer.apply hfound hl.opened hl.seed hbuild hroom hzero).closer

theorem Steady.step (hfound : found.Nonempty) (hl : Steady l) (he : Favourable found l e)
    (h : Discovery.step l e = some l') :
    Steady l' ∧ distance found l'.refresher ≤ distance found l.refresher - 1 := by
  have hprogress : Progresses found l e := he.progresses hfound hl
  obtain ⟨build, rfl, hbuild, hroom, hstep⟩ := he.step hl
  obtain rfl := Option.some.inj (hstep.symm.trans h)
  have happly : Advanced found l.refresher (l.refresher.apply found build) :=
    Advanced.apply hfound hl.opened
  refine ⟨⟨by simp [happly.sent], happly.opened, ?_⟩, ?_⟩
  · rw [happly.pool]
    rcases happly.seed with hseed | hseed
    · rw [hseed]
      exact hl.seed
    · exact Or.inl hseed
  · rcases hprogress with ⟨hsettled, hquiet⟩ | hlt
    · have hzero : distance found l.refresher = 0 := distance_eq_zero.mpr hsettled
      simp [hquiet, hzero]
    · dsimp only
      omega

/-- Every tick queues nothing, for there is nothing to do, or brings the refresher closer to
the answer; after as many ticks as its distance it is there, and stays quiet. -/
theorem discovery_converges (hfound : found.Nonempty) (hl : Steady l) {es : List (Event A ε)}
    (hes : AllSteps step (Favourable found) l es) (hrun : run step l es = some l') :
    AllSteps step (Progresses found) l es ∧ l'.ended = false ∧
      (distance found l.refresher ≤ es.length →
        Settled found l'.refresher ∧
          ∀ build, l'.refresher.apply found build = (.ok, l'.refresher)) := by
  have hstep : ∀ (l : Loop A ε) e l', Steady l → Favourable found l e → step l e = some l' →
      Steady l' ∧ distance found l'.refresher ≤ distance found l.refresher - 1 :=
    fun _ _ _ hl he h => hl.step hfound he h
  have hsteady : Steady l' := run_invariant_of (fun l e l' hl he h => (hstep l e l' hl he h).1)
    hl hes hrun
  refine ⟨?_, hsteady.going, fun hlen => ?_⟩
  · exact allSteps_of_invariant (fun l e l' hl he h => (hstep l e l' hl he h).1)
      (fun _ _ hl he => he.progresses hfound hl) hl hes hes
  · have hzero : distance found l'.refresher = 0 := by
      have hle : distance found l'.refresher ≤ distance found l.refresher - es.length :=
        run_measure_le hstep hl hes hrun
      omega
    obtain ⟨hknown, hseed⟩ := distance_eq_zero.mp hzero
    exact ⟨⟨hknown, hseed⟩, fun build => apply_of_settled hknown hseed⟩

def tight : Loop ℕ ℕ :=
  Refresher.run ⟨2, 2, ∅, ⟨2, [], 0, false, [⟨0, false⟩, ⟨0, false⟩, ⟨2, false⟩]⟩⟩ 10 true

def seedLeft : Loop ℕ ℕ :=
  ⟨⟨2, 2, {1}, ⟨2, inserts (addrKeys 1 2) 1, 0, false, [⟨2, false⟩]⟩⟩, 10, false, 10, false⟩

def tick : Event ℕ ℕ := .lookedUp (.found {1}) .ok

theorem tight_tick : step tight tick = some seedLeft := by
  have hdiff : diffAddrs tight.refresher.known {1} = ([1], []) := by
    simp [diffAddrs, tight, Refresher.run]
  have happly : tight.refresher.apply {1} .ok = (.full, seedLeft.refresher) := by
    rw [apply_eq, hdiff]
    rfl
  rw [tick, step_found rfl, happly]
  rfl

theorem discovery_converges_tight :
    ∃ l, run step tight [tick, tick] = some l ∧ Settled {1} l.refresher ∧
      ∀ build, l.refresher.apply {1} build = (.ok, l.refresher) := by
  have hsteady : Steady tight := ⟨rfl, ⟨rfl, by decide⟩, Or.inr rfl⟩
  have hbuild : ∀ a ∈ ({1} : Finset ℕ), ∃ endpoint, (.ok a : Except Error ℕ) = .ok endpoint :=
    fun a _ => ⟨a, rfl⟩
  have hes : AllSteps step (Favourable {1}) tight [tick, tick] := by
    have hroom : tight.refresher.pool ≤ tight.refresher.tx.free := by decide
    refine ⟨⟨rfl, hbuild, hroom.trans (free_le_free_drained _)⟩, fun l hl =>
      ⟨⟨rfl, hbuild, ?_⟩, fun _ _ => trivial⟩⟩
    obtain rfl := Option.some.inj (tight_tick.symm.trans hl)
    decide
  have hrun : run step tight [tick, tick] = some _ :=
    (run_cons_of_step tight_tick _).trans rfl
  obtain ⟨-, -, hsettled⟩ := discovery_converges (Finset.singleton_nonempty 1) hsteady hes hrun
  exact ⟨_, hrun, hsettled (by decide)⟩

end PaycloudHelper.Discovery
