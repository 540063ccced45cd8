import Mathlib
import PaycloudHelper.Library.Runs
import PaycloudHelper.Grpc.Connect

/-!
# The refresher's books and the balancer

`Mirrors` ties `known` and `seed_slots` to the changes queued so far; `Balanced` adds
that the balancer has an endpoint wherever it stands in the queue after the start-up.
Both are shown of one batch, then of the loops over batches with their early returns,
of a turn of the refresh loop, and of every run.
-/

namespace PaycloudHelper.Discovery

open ChangeLogs Results Runs

section
variable {A ε : Type*}

/-! ## Batches of one pool -/

theorem mem_addrKeys {a : A} {pool : ℕ} {key : EndpointKey A} :
    key ∈ addrKeys a pool ↔ ∃ slot < pool, .addr a slot = key := by
  simp [addrKeys]

theorem mem_seedKeys {slots : ℕ} {key : EndpointKey A} :
    key ∈ seedKeys slots ↔ ∃ slot < slots, .seed slot = key := by
  simp [seedKeys]

theorem nodup_addrKeys (a : A) (pool : ℕ) : (addrKeys a pool).Nodup := by
  apply List.nodup_range.map
  intro i j h
  injection h

theorem nodup_seedKeys (slots : ℕ) : (seedKeys slots : List (EndpointKey A)).Nodup := by
  apply List.nodup_range.map
  intro i j h
  injection h

theorem sendBatch_cases (tx : Sender A ε) (changes : Changes A ε) :
    ∃ tx', (sendBatch tx changes = (.ok, tx') ∧ tx'.sent = tx.sent ++ changes) ∨
      (∃ sent, sent ≠ .ok ∧ sendBatch tx changes = (sent, tx') ∧ tx'.sent = tx.sent) := by
  unfold sendBatch
  dsimp only
  split
  · exact ⟨_, Or.inl ⟨rfl, by simp [Sender.push]⟩⟩
  · exact ⟨_, Or.inr ⟨.full, by simp, rfl, drained_sent tx⟩⟩
  · exact ⟨_, Or.inr ⟨.closed, by simp, rfl, drained_sent tx⟩⟩

theorem queue_cases (r : Refresher A ε) (changes : Changes A ε)
    (book : Refresher A ε → Refresher A ε) :
    ∃ tx, (r.queue changes book = (.ok, book { r with tx := tx }) ∧
        tx.sent = r.tx.sent ++ changes) ∨
      (∃ sent, sent ≠ .ok ∧ r.queue changes book = (sent, { r with tx := tx }) ∧
        tx.sent = r.tx.sent) := by
  obtain ⟨tx, ⟨h, hsent⟩ | ⟨sent, hne, h, hsent⟩⟩ := sendBatch_cases r.tx changes
  · exact ⟨tx, Or.inl ⟨by simp [Refresher.queue, h], hsent⟩⟩
  · refine ⟨tx, Or.inr ⟨sent, hne, ?_, hsent⟩⟩
    cases sent with
    | ok => exact absurd rfl hne
    | full | closed => simp [Refresher.queue, h]

end

section
variable {A ε : Type*} [LinearOrder A]

/-! ## The mirror -/

def Refresher.balances (r : Refresher A ε) : EndpointKey A → Prop
  | .seed slot => slot < r.seedSlots
  | .addr a slot => a ∈ r.known ∧ slot < r.pool

structure Mirrors (r : Refresher A ε) : Prop where
  keys : ∀ key, key ∈ replay ∅ r.tx.sent ↔ r.balances key
  exact : Exact ∅ r.tx.sent

variable {r : Refresher A ε} {tx : Sender A ε} {a : A}

theorem Mirrors.of_sent (h : Mirrors r) (htx : tx.sent = r.tx.sent) :
    Mirrors { r with tx := tx } := by
  constructor
  · intro key
    rw [htx]
    exact h.keys key
  · rw [htx]
    exact h.exact

theorem Mirrors.insertAddr (h : Mirrors r) (ha : a ∉ r.known) {endpoint : ε}
    (htx : tx.sent = r.tx.sent ++ inserts (addrKeys a r.pool) endpoint) :
    Mirrors { r with tx := tx, known := insert a r.known } := by
  constructor
  · intro key
    rw [htx, replay_append, mem_replay_inserts, h.keys, mem_addrKeys]
    cases key with
    | seed slot => simp [Refresher.balances]
    | addr b slot =>
      simp only [Refresher.balances, EndpointKey.addr.injEq, Finset.mem_insert]
      constructor
      · rintro (⟨hb, hslot⟩ | ⟨i, hi, rfl, rfl⟩)
        · exact ⟨Or.inr hb, hslot⟩
        · exact ⟨Or.inl rfl, hi⟩
      · rintro ⟨rfl | hb, hslot⟩
        · exact Or.inr ⟨slot, hslot, rfl, rfl⟩
        · exact Or.inl ⟨hb, hslot⟩
  · rw [htx, exact_append]
    refine ⟨h.exact, exact_inserts (nodup_addrKeys a r.pool) ?_⟩
    intro key hkey
    obtain ⟨slot, -, rfl⟩ := mem_addrKeys.mp hkey
    rw [h.keys]
    exact fun hb => ha hb.1

theorem Mirrors.removeAddr (h : Mirrors r) (ha : a ∈ r.known)
    (htx : tx.sent = r.tx.sent ++ removes (addrKeys a r.pool)) :
    Mirrors { r with tx := tx, known := r.known.erase a } := by
  constructor
  · intro key
    rw [htx, replay_append, mem_replay_removes, h.keys, mem_addrKeys]
    cases key with
    | seed slot => simp [Refresher.balances]
    | addr b slot =>
      simp only [Refresher.balances, EndpointKey.addr.injEq, Finset.mem_erase]
      constructor
      · rintro ⟨⟨hb, hslot⟩, hne⟩
        exact ⟨⟨fun hab => hne ⟨slot, hslot, hab.symm, rfl⟩, hb⟩, hslot⟩
      · rintro ⟨⟨hab, hb⟩, hslot⟩
        refine ⟨⟨hb, hslot⟩, ?_⟩
        rintro ⟨i, -, rfl, -⟩
        exact hab rfl
  · rw [htx, exact_append]
    refine ⟨h.exact, exact_removes (nodup_addrKeys a r.pool) ?_⟩
    intro key hkey
    obtain ⟨slot, hslot, rfl⟩ := mem_addrKeys.mp hkey
    rw [h.keys]
    exact ⟨ha, hslot⟩

theorem Mirrors.removeSeed (h : Mirrors r)
    (htx : tx.sent = r.tx.sent ++ removes (seedKeys r.seedSlots)) :
    Mirrors { r with tx := tx, seedSlots := 0 } := by
  constructor
  · intro key
    rw [htx, replay_append, mem_replay_removes, h.keys, mem_seedKeys]
    cases key with
    | seed slot =>
      simp only [Refresher.balances, EndpointKey.seed.injEq, Nat.not_lt_zero, iff_false, not_and,
        not_not]
      exact fun hslot => ⟨slot, hslot, rfl⟩
    | addr b slot => simp [Refresher.balances]
  · rw [htx, exact_append]
    refine ⟨h.exact, exact_removes (nodup_seedKeys r.seedSlots) ?_⟩
    intro key hkey
    obtain ⟨slot, hslot, rfl⟩ := mem_seedKeys.mp hkey
    rw [h.keys]
    exact hslot

/-! ## Never empty -/

structure Balanced (start : Changes A ε) (r : Refresher A ε) : Prop where
  pool : 0 < r.pool
  mirrors : Mirrors r
  kept : ∃ log, r.tx.sent = start ++ log ∧ NeverEmpty (replay ∅ start) log

variable {start : Changes A ε}

theorem Balanced.of_sent (h : Balanced start r) (htx : tx.sent = r.tx.sent) :
    Balanced start { r with tx := tx } where
  pool := h.pool
  mirrors := h.mirrors.of_sent htx
  kept := by
    rw [htx]
    exact h.kept

theorem Balanced.extend (h : Balanced start r) {changes : Changes A ε} {sent : Changes A ε}
    (hsent : sent = r.tx.sent ++ changes) (hne : NeverEmpty (replay ∅ r.tx.sent) changes) :
    ∃ log, sent = start ++ log ∧ NeverEmpty (replay ∅ start) log := by
  obtain ⟨log, hlog, hkept⟩ := h.kept
  rw [hlog, replay_append] at hne
  exact ⟨log ++ changes, by rw [hsent, hlog, List.append_assoc], hkept.append hne⟩

theorem Balanced.nonempty (h : Balanced start r) : (replay ∅ r.tx.sent).Nonempty := by
  obtain ⟨log, hlog, hkept⟩ := h.kept
  rw [hlog, replay_append]
  exact hkept log List.prefix_rfl

theorem Balanced.mem_known (h : Balanced start r) {b : A} (hb : b ∈ r.known) :
    .addr b 0 ∈ replay ∅ r.tx.sent :=
  (h.mirrors.keys _).mpr ⟨hb, h.pool⟩

theorem Balanced.insertAdded (build : A → Except Error ε) {added : List A} (h : Balanced start r)
    (hnodup : added.Nodup) (hnew : ∀ a ∈ added, a ∉ r.known) :
    Balanced start (r.insertAdded build added).2 ∧
      r.known ⊆ (r.insertAdded build added).2.known := by
  induction added generalizing r with
  | nil => exact ⟨h, subset_rfl⟩
  | cons a added ih =>
    obtain ⟨ha, hnodup⟩ := List.nodup_cons.mp hnodup
    obtain ⟨hnewa, hnew⟩ := List.forall_mem_cons.mp hnew
    unfold Refresher.insertAdded
    cases build a with
    | error err => exact ih h hnodup hnew
    | ok endpoint =>
      dsimp only
      obtain ⟨tx, ⟨hq, htx⟩ | ⟨sent, hne, hq, htx⟩⟩ := queue_cases r
        (inserts (addrKeys a r.pool) endpoint) fun r => { r with known := insert a r.known }
      · have hnext : Balanced start { r with tx := tx, known := insert a r.known } :=
          { pool := h.pool
            mirrors := h.mirrors.insertAddr hnewa htx
            kept := h.extend htx (neverEmpty_inserts h.nonempty) }
        have hstill : ∀ b ∈ added, b ∉ insert a r.known := notMem_insert_of_notMem ha hnew
        obtain ⟨hbal, hsub⟩ := ih hnext hnodup hstill
        rw [hq]
        exact ⟨hbal, (Finset.subset_insert a r.known).trans hsub⟩
      · rw [hq]
        cases sent with
        | ok => exact absurd rfl hne
        | full | closed => exact ⟨h.of_sent htx, subset_rfl⟩

theorem Balanced.removeGone {gone : List A} (h : Balanced start r) (hnodup : gone.Nodup)
    (hgone : ∀ a ∈ gone, a ∈ r.known) {b : A} (hb : b ∈ r.known) (hstays : b ∉ gone) :
    Balanced start (r.removeGone gone).2 := by
  induction gone generalizing r with
  | nil => exact h
  | cons a gone ih =>
    obtain ⟨ha, hnodup⟩ := List.nodup_cons.mp hnodup
    obtain ⟨hgonea, hgone⟩ := List.forall_mem_cons.mp hgone
    obtain ⟨hba, hstays⟩ := not_or.mp (List.mem_cons.not.mp hstays)
    unfold Refresher.removeGone
    obtain ⟨tx, ⟨hq, htx⟩ | ⟨sent, hne, hq, htx⟩⟩ := queue_cases r
      (removes (addrKeys a r.pool)) fun r => { r with known := r.known.erase a }
    · have hslot : .addr b 0 ∉ addrKeys a r.pool := by
        rw [mem_addrKeys]
        rintro ⟨slot, -, hslot⟩
        injection hslot with hab
        exact hba hab.symm
      have hnext : Balanced start { r with tx := tx, known := r.known.erase a } :=
        { pool := h.pool
          mirrors := h.mirrors.removeAddr hgonea htx
          kept := h.extend htx (neverEmpty_removes (h.mem_known hb) hslot) }
      rw [hq]
      apply ih hnext hnodup
      · intro c hc
        exact Finset.mem_erase.mpr ⟨fun hca => ha (hca ▸ hc), hgone c hc⟩
      · exact Finset.mem_erase.mpr ⟨hba, hb⟩
      · exact hstays
    · rw [hq]
      cases sent with
      | ok => exact absurd rfl hne
      | full | closed => exact h.of_sent htx

theorem Balanced.removeSeed (h : Balanced start r) (hknown : r.known ≠ ∅) :
    Balanced start r.removeSeed.2 := by
  obtain ⟨b, hb⟩ := Finset.nonempty_iff_ne_empty.mpr hknown
  unfold Refresher.removeSeed
  obtain ⟨tx, ⟨hq, htx⟩ | ⟨sent, hne, hq, htx⟩⟩ := queue_cases r
    (removes (seedKeys r.seedSlots)) fun r => { r with seedSlots := 0 }
  · have hslot : .addr b 0 ∉ (seedKeys r.seedSlots : List (EndpointKey A)) := by
      simp [mem_seedKeys]
    rw [hq]
    exact {
      pool := h.pool
      mirrors := h.mirrors.removeSeed htx
      kept := h.extend htx (neverEmpty_removes (h.mem_known hb) hslot) }
  · rw [hq]
    exact h.of_sent htx

theorem diffAddrs_spec (old new : Finset A) :
    (diffAddrs old new).1.Nodup ∧ (diffAddrs old new).2.Nodup ∧
      (∀ a ∈ (diffAddrs old new).1, a ∉ old) ∧ ∀ a ∈ (diffAddrs old new).2, a ∈ old := by
  unfold diffAddrs
  split_ifs with hnew
  · simp
  · refine ⟨Finset.sort_nodup _ _, Finset.sort_nodup _ _, ?_, ?_⟩
    · intro a ha
      exact (Finset.mem_sdiff.mp ((Finset.mem_sort _).mp ha)).2
    · intro a ha
      exact (Finset.mem_sdiff.mp ((Finset.mem_sort _).mp ha)).1

theorem Balanced.apply (h : Balanced start r) (found : Finset A) (build : A → Except Error ε) :
    Balanced start (r.apply found build).2 := by
  obtain ⟨hadded, hgone, hnew, hold⟩ := diffAddrs_spec r.known found
  unfold Refresher.apply
  generalize diffAddrs r.known found = diff at hadded hgone hnew hold ⊢
  obtain ⟨added, gone⟩ := diff
  obtain ⟨hins, hsub⟩ := h.insertAdded build hadded hnew
  dsimp only at hgone hold ⊢
  generalize r.insertAdded build added = inserted at hins hsub ⊢
  obtain ⟨sent, r₁⟩ := inserted
  cases sent with
  | full | closed => exact hins
  | ok =>
    have hrem : Balanced start
        (if gone.length < r₁.known.card then r₁.removeGone gone else (.ok, r₁)).2 := by
      split_ifs with hlen
      · obtain ⟨b, hb, hstays⟩ : ∃ b ∈ r₁.known, b ∉ gone.toFinset :=
          Finset.exists_mem_notMem_of_card_lt_card ((List.toFinset_card_le gone).trans_lt hlen)
        apply hins.removeGone hgone (fun a ha => hsub (hold a ha)) hb
        exact fun h => hstays (List.mem_toFinset.mpr h)
      · exact hins
    dsimp only
    generalize (if gone.length < r₁.known.card then r₁.removeGone gone else (.ok, r₁)) = removed
      at hrem ⊢
    obtain ⟨sent, r₂⟩ := removed
    cases sent with
    | full | closed => exact hrem
    | ok =>
      dsimp only
      split_ifs with hseed
      · exact hrem.removeSeed hseed.2
      · exact hrem

/-! ## Runs -/

@[simp] theorem slept_refresher (l : Loop A ε) : l.slept.refresher = l.refresher := by
  unfold Loop.slept
  split_ifs <;> rfl

theorem Balanced.step {l l' : Loop A ε} {e : Event A ε} (h : Balanced start l.refresher)
    (hstep : Discovery.step l e = some l') : Balanced start l'.refresher := by
  cases e with
  | dropped =>
    simp only [Discovery.step] at hstep
    split_ifs at hstep
    obtain rfl := Option.some.inj hstep
    exact h.of_sent (drained_sent _)
  | lookedUp answer build =>
    simp only [Discovery.step] at hstep
    split_ifs at hstep
    cases answer with
    | found addresses =>
      obtain rfl := Option.some.inj hstep
      have happly := h.apply addresses build
      rw [← slept_refresher] at happly
      exact happly
    | failed | timedOut =>
      obtain rfl := Option.some.inj hstep
      rwa [slept_refresher]

end

section
variable {A ε : Type}

variable [LinearOrder A]

theorem Mirrors.insertInitial {build : A → Except Error ε} {r : Refresher A ε} {addrs : List A}
    {tx : Sender A ε} (h : Mirrors r) (hnodup : addrs.Nodup) (hnew : ∀ a ∈ addrs, a ∉ r.known)
    (htx : insertInitial build r.pool r.tx addrs = .ok tx) :
    Mirrors { r with tx := tx, known := r.known ∪ addrs.toFinset } := by
  induction addrs generalizing r with
  | nil =>
    injection htx with htx
    subst htx
    simpa using h
  | cons a addrs ih =>
    obtain ⟨ha, hnodup⟩ := List.nodup_cons.mp hnodup
    obtain ⟨hnewa, hnew⟩ := List.forall_mem_cons.mp hnew
    obtain ⟨endpoint, -, htx⟩ := bind_eq_ok.mp htx
    obtain ⟨tx₁, hsend, htx⟩ := bind_eq_ok.mp htx
    have hnext := h.insertAddr hnewa (trySendAll_sent hsend)
    have hstill : ∀ b ∈ addrs, b ∉ insert a r.known := notMem_insert_of_notMem ha hnew
    have hrest := ih hnext hnodup hstill htx
    simpa [Finset.union_insert] using hrest

inductive Started : Loop A ε → Prop
  | discovered (config : DialConfig) (out : Surroundings A ε) (targetEnv : String) (refresh : ℕ)
      {l : Loop A ε} (h : connectDiscoveredWith config out targetEnv refresh = .ok l) : Started l
  | lazy (config : DialConfig) (out : Surroundings A ε) (targetEnv : String) (refresh : ℕ)
      {l : Loop A ε} (h : connectDiscoveredLazyWith config out targetEnv refresh = .ok l) :
      Started l

theorem Balanced.of_mirrors {r : Refresher A ε} (hpool : 0 < r.pool) (h : Mirrors r)
    {key : EndpointKey A} (hkey : r.balances key) : Balanced r.tx.sent r where
  pool := hpool
  mirrors := h
  kept := by
    refine ⟨[], (List.append_nil _).symm, ?_⟩
    intro pre hpre
    rw [List.prefix_nil.mp hpre]
    exact ⟨key, (h.keys key).mpr hkey⟩

theorem mirrors_channel (pool capacity : ℕ) (drains : List Drain) :
    Mirrors (⟨pool, 0, ∅, .channel capacity drains⟩ : Refresher A ε) where
  keys := by
    intro key
    cases key <;> simp [Sender.channel, Refresher.balances]
  exact := trivial

theorem mirrors_seeded {pool : ℕ} {seed : ε} {tx : Sender A ε}
    (htx : tx.sent = inserts (seedKeys pool) seed) :
    Mirrors (⟨pool, pool, ∅, tx⟩ : Refresher A ε) where
  keys := by
    intro key
    rw [htx, mem_replay_inserts, mem_seedKeys]
    cases key <;> simp [Refresher.balances]
  exact := by
    rw [htx]
    exact exact_inserts (nodup_seedKeys pool) (by simp)

theorem Started.balanced {l : Loop A ε} (h : Started l) :
    Balanced l.refresher.tx.sent l.refresher := by
  cases h with
  | discovered config out targetEnv refresh h =>
    obtain ⟨build, pool, initial, tx, ⟨hpool, -⟩, hne, htx, rfl⟩ := connectDiscoveredWith_ok h
    obtain ⟨b, hb⟩ := Finset.nonempty_iff_ne_empty.mpr hne
    have hmirrors : Mirrors ⟨pool, 0, initial, tx⟩ := by
      have hempty := mirrors_channel (A := A) (ε := ε) pool discoveryBuffer out.drains
      simpa using hempty.insertInitial (Finset.sort_nodup _ _) (by simp) htx
    have haddr : Refresher.balances ⟨pool, 0, initial, tx⟩ (.addr b 0) := ⟨hb, hpool⟩
    exact Balanced.of_mirrors hpool hmirrors haddr
  | lazy config out targetEnv refresh h =>
    obtain ⟨seed, pool, tx, ⟨hpool, -⟩, htx, rfl⟩ := connectDiscoveredLazyWith_ok h
    have hmirrors : Mirrors ⟨pool, pool, ∅, tx⟩ := mirrors_seeded (trySendAll_sent htx)
    have hseed : Refresher.balances ⟨pool, pool, ∅, tx⟩ (.seed 0) := hpool
    exact Balanced.of_mirrors hpool hmirrors hseed

theorem balanced_of_run {l₀ l : Loop A ε} {es : List (Event A ε)} (hstart : Started l₀)
    (hrun : run step l₀ es = some l) : Balanced l₀.refresher.tx.sent l.refresher :=
  run_invariant (I := fun l => Balanced l₀.refresher.tx.sent l.refresher)
    (fun _ _ _ h hstep => h.step hstep) hstart.balanced hrun

/-- The keys in the balancer are the pools of the known addresses and the seed, and no
change is queued for nothing. -/
theorem bookkeeping_mirrors {l₀ l : Loop A ε} {es : List (Event A ε)} (hstart : Started l₀)
    (hrun : run step l₀ es = some l) :
    (∀ key, key ∈ replay ∅ l.refresher.tx.sent ↔ l.refresher.balances key) ∧
      Exact ∅ l.refresher.tx.sent := by
  have hl : Mirrors l.refresher := (balanced_of_run hstart hrun).mirrors
  exact ⟨hl.keys, hl.exact⟩

/-- Wherever the balancer stands in the queue after the start-up, it has an endpoint. -/
theorem never_emptied {l₀ l : Loop A ε} {es : List (Event A ε)} (hstart : Started l₀)
    (hrun : run step l₀ es = some l) {pre : Changes A ε} (hstarted : l₀.refresher.tx.sent <+: pre)
    (hpre : pre <+: l.refresher.tx.sent) : (replay ∅ pre).Nonempty := by
  obtain ⟨log, hlog, hkept⟩ := (balanced_of_run hstart hrun).kept
  obtain ⟨rest, rfl⟩ := hstarted
  rw [hlog] at hpre
  rw [replay_append]
  exact hkept rest ((List.prefix_append_right_inj _).mp hpre)

end

/-! ## A lazy start -/

def surroundings : Surroundings ℕ ℕ where
  env _ := .ok "svc:9106"
  lookup _ _ _ := .ok {1}
  buildEndpoint _ := .ok 0
  discoveryBuilder _ _ := .ok
  connect _ _ := .ok ()
  drains := []

def seeded : Loop ℕ ℕ :=
  Refresher.run ⟨2, 2, ∅, ⟨1024, inserts (seedKeys 2) 0, 0, false, []⟩⟩ 10 true

theorem seeded_started : Started seeded :=
  .lazy .defaults surroundings "CONFIG_GRPC" 10 rfl

def firstAnswer : List (Event ℕ ℕ) := [.lookedUp .timedOut .ok, .lookedUp (.found {1}) .ok]

theorem bookkeeping_mirrors_firstAnswer : ∃ l, run step seeded firstAnswer = some l ∧
    (∀ key, key ∈ replay ∅ l.refresher.tx.sent ↔ l.refresher.balances key) ∧
      Exact ∅ l.refresher.tx.sent := by
  have hrun : run step seeded firstAnswer = some _ := rfl
  exact ⟨_, hrun, bookkeeping_mirrors seeded_started hrun⟩

theorem never_emptied_firstAnswer : ∃ l, run step seeded firstAnswer = some l ∧
    (replay ∅ l.refresher.tx.sent).Nonempty := by
  have hrun : run step seeded firstAnswer = some _ := rfl
  obtain ⟨log, hlog, -⟩ := (balanced_of_run seeded_started hrun).kept
  exact ⟨_, hrun, never_emptied seeded_started hrun ⟨log, hlog.symm⟩ List.prefix_rfl⟩

end PaycloudHelper.Discovery
