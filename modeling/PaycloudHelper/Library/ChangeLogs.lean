import Mathlib

/-!
# Logs of inserted and removed keys

A consumer of a change log keeps the keys that were inserted and not removed since.
`Exact` says that the log does nothing twice; `NeverEmpty` that the consumer has a key
wherever it stops reading.
-/

namespace ChangeLogs

variable {κ ν : Type*} [DecidableEq κ]

inductive Change (κ ν : Type*)
  | insert (key : κ) (value : ν)
  | remove (key : κ)
deriving DecidableEq, Repr

def Change.apply (s : Finset κ) : Change κ ν → Finset κ
  | .insert key _ => Insert.insert key s
  | .remove key => s.erase key

def replay (s : Finset κ) (log : List (Change κ ν)) : Finset κ := log.foldl Change.apply s

/-- Every insert is of an absent key and every removal of a present one. -/
def Exact (s : Finset κ) : List (Change κ ν) → Prop
  | [] => True
  | .insert key value :: log => key ∉ s ∧ Exact ((Change.insert key value).apply s) log
  | .remove key :: log => key ∈ s ∧ Exact ((Change.remove (ν := ν) key).apply s) log

def NeverEmpty (s : Finset κ) (log : List (Change κ ν)) : Prop :=
  ∀ pre, pre <+: log → (replay s pre).Nonempty

variable {s : Finset κ} {a b log : List (Change κ ν)}

@[simp] theorem replay_nil : replay s ([] : List (Change κ ν)) = s := rfl

@[simp] theorem replay_cons (c : Change κ ν) : replay s (c :: log) = replay (c.apply s) log := rfl

theorem replay_append : replay s (a ++ b) = replay (replay s a) b := List.foldl_append

theorem exact_append : Exact s (a ++ b) ↔ Exact s a ∧ Exact (replay s a) b := by
  induction a generalizing s with
  | nil => simp [Exact]
  | cons c a ih => cases c <;> simp [Exact, ih, and_assoc]

theorem NeverEmpty.append (ha : NeverEmpty s a) (hb : NeverEmpty (replay s a) b) :
    NeverEmpty s (a ++ b) := by
  intro pre hpre
  rcases List.prefix_or_prefix_of_prefix hpre (List.prefix_append a b) with h | ⟨rest, rfl⟩
  · exact ha pre h
  · rw [replay_append]
    exact hb rest ((List.prefix_append_right_inj a).mp hpre)

/-! ## Batches -/

def inserts (ks : List κ) (value : ν) : List (Change κ ν) := ks.map fun k => .insert k value

def removes (ks : List κ) : List (Change κ ν) := ks.map .remove

variable {k : κ} {ks : List κ} {value : ν}

theorem mem_replay_inserts : k ∈ replay s (inserts ks value) ↔ k ∈ s ∨ k ∈ ks := by
  induction ks generalizing s with
  | nil => simp [inserts]
  | cons j ks ih =>
    have hcons : replay s (inserts (j :: ks) value) = replay (insert j s) (inserts ks value) := rfl
    rw [hcons, ih, Finset.mem_insert, List.mem_cons]
    tauto

theorem mem_replay_removes :
    k ∈ replay s (removes ks : List (Change κ ν)) ↔ k ∈ s ∧ k ∉ ks := by
  induction ks generalizing s with
  | nil => simp [removes]
  | cons j ks ih =>
    have hcons : replay s (removes (j :: ks) : List (Change κ ν)) =
      replay (s.erase j) (removes ks : List (Change κ ν)) := rfl
    rw [hcons, ih, Finset.mem_erase, List.mem_cons]
    tauto

theorem notMem_insert_of_notMem (hk : k ∉ ks) (hs : ∀ j ∈ ks, j ∉ s) :
    ∀ j ∈ ks, j ∉ insert k s := by
  intro j hj hmem
  rcases Finset.mem_insert.mp hmem with rfl | hmem
  · exact hk hj
  · exact hs j hj hmem

theorem exact_inserts (hks : ks.Nodup) (hs : ∀ k ∈ ks, k ∉ s) : Exact s (inserts ks value) := by
  induction ks generalizing s with
  | nil => trivial
  | cons j ks ih =>
    obtain ⟨hj, hks⟩ := List.nodup_cons.mp hks
    obtain ⟨hjs, hs⟩ := List.forall_mem_cons.mp hs
    exact ⟨hjs, ih hks (notMem_insert_of_notMem hj hs)⟩

theorem exact_removes (hks : ks.Nodup) (hs : ∀ k ∈ ks, k ∈ s) :
    Exact s (removes ks : List (Change κ ν)) := by
  induction ks generalizing s with
  | nil => trivial
  | cons j ks ih =>
    obtain ⟨hj, hks⟩ := List.nodup_cons.mp hks
    refine ⟨hs j List.mem_cons_self, ih hks ?_⟩
    intro k hk
    apply Finset.mem_erase.mpr
    exact ⟨fun h => hj (h ▸ hk), hs k (List.mem_cons_of_mem j hk)⟩

theorem neverEmpty_inserts (hs : s.Nonempty) : NeverEmpty s (inserts ks value) := by
  intro pre hpre
  obtain ⟨k, hk⟩ := hs
  have htake : pre = inserts (ks.take pre.length) value := by
    rw [inserts, List.map_take]
    exact List.prefix_iff_eq_take.mp hpre
  rw [htake]
  exact ⟨k, mem_replay_inserts.mpr (Or.inl hk)⟩

theorem neverEmpty_removes (hk : k ∈ s) (hks : k ∉ ks) :
    NeverEmpty s (removes ks : List (Change κ ν)) := by
  intro pre hpre
  have htake : pre = removes (ks.take pre.length) := by
    rw [removes, List.map_take]
    exact List.prefix_iff_eq_take.mp hpre
  rw [htake]
  exact ⟨k, mem_replay_removes.mpr ⟨hk, fun h => hks (List.mem_of_mem_take h)⟩⟩

end ChangeLogs
