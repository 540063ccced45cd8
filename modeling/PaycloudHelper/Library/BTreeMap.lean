import Mathlib

/-!
# Ordered maps

A map as the list of its entries by growing key; inserting keeps the order. Inserting
the entries of a map one after the other gives it again.
-/

namespace BTreeMaps

variable {K V : Type} [LinearOrder K]

@[ext] structure BTreeMap (K V : Type) [LinearOrder K] where
  entries : List (K × V)
  sorted : entries.Pairwise fun a b => a.1 < b.1

def BTreeMap.empty : BTreeMap K V := ⟨[], .nil⟩

def BTreeMap.isEmpty (m : BTreeMap K V) : Bool := m.entries.isEmpty

def insertEntry (k : K) (v : V) : List (K × V) → List (K × V)
  | [] => [(k, v)]
  | e :: es =>
    if k < e.1 then (k, v) :: e :: es
    else if k = e.1 then (k, v) :: es
    else e :: insertEntry k v es

theorem mem_insertEntry {k : K} {v : V} {es : List (K × V)} {e : K × V}
    (h : e ∈ insertEntry k v es) : e = (k, v) ∨ e ∈ es := by
  induction es with
  | nil => exact Or.inl (List.mem_singleton.mp h)
  | cons a es ih =>
    unfold insertEntry at h
    split_ifs at h
    · exact List.mem_cons.mp h
    · exact (List.mem_cons.mp h).imp_right (List.mem_cons_of_mem a)
    · rcases List.mem_cons.mp h with rfl | h
      · exact Or.inr List.mem_cons_self
      · exact (ih h).imp_right (List.mem_cons_of_mem a)

theorem insertEntry_sorted (k : K) (v : V) {es : List (K × V)}
    (h : es.Pairwise fun a b => a.1 < b.1) : (insertEntry k v es).Pairwise fun a b => a.1 < b.1 := by
  induction es with
  | nil => exact List.pairwise_singleton _ _
  | cons a es ih =>
    obtain ⟨hhead, htail⟩ := List.pairwise_cons.mp h
    unfold insertEntry
    split_ifs with hlt heq
    · refine List.pairwise_cons.mpr ⟨fun b hb => ?_, h⟩
      rcases List.mem_cons.mp hb with rfl | hb
      · exact hlt
      · exact hlt.trans (hhead b hb)
    · subst heq
      exact List.pairwise_cons.mpr ⟨hhead, htail⟩
    · refine List.pairwise_cons.mpr ⟨fun b hb => ?_, ih htail⟩
      rcases mem_insertEntry hb with rfl | hb
      · exact lt_of_le_of_ne (not_lt.mp hlt) (Ne.symm heq)
      · exact hhead b hb

def BTreeMap.insert (m : BTreeMap K V) (k : K) (v : V) : BTreeMap K V :=
  ⟨insertEntry k v m.entries, insertEntry_sorted k v m.sorted⟩

theorem insertEntry_of_gt {k : K} (v : V) {es : List (K × V)} (h : ∀ e ∈ es, e.1 < k) :
    insertEntry k v es = es ++ [(k, v)] := by
  induction es with
  | nil => rfl
  | cons a es ih =>
    have ha : a.1 < k := h a List.mem_cons_self
    rw [insertEntry, if_neg ha.not_gt, if_neg ha.ne', ih fun e he => h e (List.mem_cons_of_mem a he)]
    rfl

/-- `f` reads entries; where it reads those of a map back, the map comes out. -/
theorem foldlM_insert {ε W : Type} {f : W → Except ε V} {g : V → W} (hf : ∀ v, f (g v) = .ok v)
    (m : BTreeMap K V) :
    (m.entries.map fun e => (e.1, g e.2)).foldlM
      (fun m e => do return m.insert e.1 (← f e.2)) BTreeMap.empty = .ok m := by
  have hsplit : ∀ (es : List (K × V)) (done : BTreeMap K V)
      (_ : (done.entries ++ es).Pairwise fun a b => a.1 < b.1),
      ∃ m' : BTreeMap K V, m'.entries = done.entries ++ es ∧
        (es.map fun e => (e.1, g e.2)).foldlM
          (fun m e => do return m.insert e.1 (← f e.2)) done = .ok m' := by
    intro es
    induction es with
    | nil => exact fun done _ => ⟨done, (List.append_nil _).symm, rfl⟩
    | cons e es ih =>
      intro done hsorted
      have hlast : (done.insert e.1 e.2).entries = done.entries ++ [e] :=
        insertEntry_of_gt e.2 fun d hd =>
          (List.pairwise_append.mp hsorted).2.2 d hd e List.mem_cons_self
      have happend : (done.insert e.1 e.2).entries ++ es = done.entries ++ e :: es := by
        rw [hlast, List.append_assoc, List.singleton_append]
      obtain ⟨m', hm', hfold⟩ := ih (done.insert e.1 e.2) (happend ▸ hsorted)
      refine ⟨m', hm'.trans happend, ?_⟩
      rw [List.map_cons, List.foldlM_cons, hf]
      exact hfold
  obtain ⟨m', hm', hfold⟩ := hsplit m.entries .empty m.sorted
  rw [hfold, BTreeMap.ext (hm'.trans (List.nil_append _))]

theorem mem_insertEntry_iff {k : K} {v : V} {es : List (K × V)} {e : K × V}
    (h : es.Pairwise fun a b => a.1 < b.1) :
    e ∈ insertEntry k v es ↔ e = (k, v) ∨ e.1 ≠ k ∧ e ∈ es := by
  induction es with
  | nil => simp [insertEntry]
  | cons a es ih =>
    obtain ⟨hhead, htail⟩ := List.pairwise_cons.mp h
    unfold insertEntry
    split_ifs with hlt heq
    · have hne : e ∈ a :: es → e.1 ≠ k := by
        intro he
        rcases List.mem_cons.mp he with rfl | he
        · exact hlt.ne'
        · exact (hlt.trans (hhead e he)).ne'
      rw [List.mem_cons, and_iff_right_of_imp hne]
    · have hne : e ∈ es → e.1 ≠ k := fun he => heq ▸ (hhead e he).ne'
      have ha : ¬ (e.1 ≠ k ∧ e = a) := fun hea => hea.1 (hea.2 ▸ heq.symm)
      rw [List.mem_cons, List.mem_cons, and_or_left, or_iff_right ha, and_iff_right_of_imp hne]
    · have hne : e = a → e.1 ≠ k := fun hea => hea ▸ Ne.symm heq
      rw [List.mem_cons, ih htail, List.mem_cons, and_or_left, and_iff_right_of_imp hne,
        or_left_comm]

theorem BTreeMap.mem_insert {m : BTreeMap K V} {k : K} {v : V} {e : K × V} :
    e ∈ (m.insert k v).entries ↔ e = (k, v) ∨ e.1 ≠ k ∧ e ∈ m.entries :=
  mem_insertEntry_iff m.sorted

theorem mem_foldl_insert {W : Type} (f : W → Option (K × V)) (ws : List W) {e : K × V} :
    e ∈ (ws.foldl (fun m w => (f w).elim m fun e => m.insert e.1 e.2) BTreeMap.empty).entries ↔
      ∃ before w after, ws = before ++ w :: after ∧ f w = some e ∧
        ∀ w' ∈ after, ∀ e', f w' = some e' → e'.1 ≠ e.1 := by
  induction ws using List.reverseRecOn with
  | nil => simp [BTreeMap.empty]
  | append_singleton ws last ih =>
    have hends : (∃ before w after, ws ++ [last] = before ++ w :: after ∧ f w = some e ∧
        ∀ w' ∈ after, ∀ e', f w' = some e' → e'.1 ≠ e.1) ↔
        f last = some e ∨ (∀ e', f last = some e' → e'.1 ≠ e.1) ∧
          ∃ before w after, ws = before ++ w :: after ∧ f w = some e ∧
            ∀ w' ∈ after, ∀ e', f w' = some e' → e'.1 ≠ e.1 := by
      constructor
      · rintro ⟨before, w, after, hws, hw, hafter⟩
        cases after using List.reverseRecOn with
        | nil =>
          obtain ⟨-, hlast⟩ := List.append_inj' hws rfl
          exact Or.inl (List.singleton_inj.mp hlast ▸ hw)
        | append_singleton after b =>
          rw [← List.cons_append, ← List.append_assoc] at hws
          obtain ⟨rfl, hlast⟩ := List.append_inj' hws rfl
          obtain rfl := List.singleton_inj.mp hlast
          exact Or.inr ⟨hafter last (by simp), before, w, after, rfl, hw,
            fun w' hw' => hafter w' (List.mem_append_left _ hw')⟩
      · rintro (hlast | ⟨hlast, before, w, after, rfl, hw, hafter⟩)
        · exact ⟨ws, last, [], rfl, hlast, by simp⟩
        · refine ⟨before, w, after ++ [last], by simp, hw, fun w' hw' => ?_⟩
          rcases List.mem_append.mp hw' with hw' | hw'
          · exact hafter w' hw'
          · exact List.mem_singleton.mp hw' ▸ hlast
    rw [hends, ← ih, List.foldl_concat]
    cases hlast : f last with
    | none => simp
    | some e' =>
      simp only [Option.elim_some, BTreeMap.mem_insert, Option.some.injEq, forall_eq']
      rw [eq_comm, ne_comm]

theorem BTreeMap.ext_mem {m m' : BTreeMap K V} (h : ∀ e, e ∈ m.entries ↔ e ∈ m'.entries) :
    m = m' := by
  have hnodup : ∀ m : BTreeMap K V, m.entries.Nodup := fun m =>
    m.sorted.imp fun hlt heq => hlt.ne (congrArg Prod.fst heq)
  have hperm : m.entries.Perm m'.entries :=
    (List.perm_ext_iff_of_nodup (hnodup m) (hnodup m')).mpr h
  exact BTreeMap.ext (hperm.eq_of_pairwise (fun _ _ _ _ hab hba => absurd hab hba.asymm)
    m.sorted m'.sorted)

end BTreeMaps
