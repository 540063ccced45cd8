import Mathlib

/-!
# Transcripts of answering machines

A machine answers every input and moves to a new state. Its runs are compared
through their transcripts: the inputs in order, each with the answer it got.
The rules below carry a fact through a whole run: an invariant, a fact about the
history, a simulation between two machines, and the erasure of some inputs.
-/

namespace Transcripts

variable {σ τ ι ο : Type*}

def final (step : σ → ι → ο × σ) : σ → List ι → σ
  | s, [] => s
  | s, i :: is => final step (step s i).2 is

def transcript (step : σ → ι → ο × σ) : σ → List ι → List (ι × ο)
  | _, [] => []
  | s, i :: is => (i, (step s i).1) :: transcript step (step s i).2 is

section Machine
variable {step : σ → ι → ο × σ}

@[simp] theorem final_nil (s : σ) : final step s [] = s := rfl

@[simp] theorem final_cons (s : σ) (i : ι) (is : List ι) :
    final step s (i :: is) = final step (step s i).2 is := rfl

theorem final_append (s : σ) (is js : List ι) :
    final step s (is ++ js) = final step (final step s is) js := by
  induction is generalizing s with
  | nil => rfl
  | cons i is ih => simpa using ih (step s i).2

theorem final_concat (s : σ) (is : List ι) (i : ι) :
    final step s (is ++ [i]) = (step (final step s is) i).2 := by
  simp [final_append]

theorem final_invariant {P : σ → Prop} {is : List ι}
    (hstep : ∀ s, ∀ i ∈ is, P s → P (step s i).2) {s : σ} (hs : P s) :
    P (final step s is) := by
  induction is generalizing s with
  | nil => exact hs
  | cons i is ih =>
    have hnext : P (step s i).2 := hstep s i List.mem_cons_self hs
    exact ih (fun s j hj => hstep s j (List.mem_cons_of_mem i hj)) hnext

theorem final_history {P : List ι → σ → Prop} {s : σ} {is : List ι} (hnil : P [] s)
    (hstep : ∀ pre t, ∀ i ∈ is, P pre t → P (pre ++ [i]) (step t i).2) :
    P is (final step s is) := by
  induction is using List.reverseRecOn with
  | nil => exact hnil
  | append_singleton is i ih =>
    rw [final_concat]
    refine hstep is _ i (by simp) (ih fun pre t j hj => ?_)
    exact hstep pre t j (by simp [hj])

@[simp] theorem transcript_nil (s : σ) : transcript step s [] = [] := rfl

@[simp] theorem transcript_cons (s : σ) (i : ι) (is : List ι) :
    transcript step s (i :: is) = (i, (step s i).1) :: transcript step (step s i).2 is := rfl

theorem transcript_concat (s : σ) (is : List ι) (i : ι) :
    transcript step s (is ++ [i]) =
      transcript step s is ++ [(i, (step (final step s is) i).1)] := by
  induction is generalizing s with
  | nil => rfl
  | cons j is ih => simp [ih]

theorem transcript_append (s : σ) (is js : List ι) :
    transcript step s (is ++ js) = transcript step s is ++ transcript step (final step s is) js := by
  induction is generalizing s with
  | nil => rfl
  | cons i is ih => simp [ih]

/-- Erasing inputs. `R` relates the state of the full run, the state of the run
without the erased inputs, and the inputs still to come. -/
theorem transcript_erasure {keep : ι → Bool} {R : List ι → σ → σ → Prop}
    (hkeep : ∀ i is s t, keep i = true → R (i :: is) s t →
      (step s i).1 = (step t i).1 ∧ R is (step s i).2 (step t i).2)
    (hdrop : ∀ i is s t, keep i = false → R (i :: is) s t → R is (step s i).2 t)
    {is : List ι} {s t : σ} (h : R is s t) :
    (transcript step s is).filter (fun p => keep p.1) =
        transcript step t (is.filter keep) ∧
      R [] (final step s is) (final step t (is.filter keep)) := by
  induction is generalizing s t with
  | nil => exact ⟨rfl, h⟩
  | cons i is ih =>
    cases hi : keep i with
    | true =>
      obtain ⟨hans, hR⟩ := hkeep i is s t hi h
      obtain ⟨htr, hend⟩ := ih hR
      simp only [transcript_cons, List.filter_cons, hi, if_true, final_cons, hans, htr]
      exact ⟨trivial, hend⟩
    | false =>
      obtain ⟨htr, hend⟩ := ih (hdrop i is s t hi h)
      simpa [hi] using And.intro htr hend

end Machine

/-- Two machines whose related states answer alike and stay related have one
transcript. `R` may look at the inputs still to come. -/
theorem transcript_simulation {step : σ → ι → ο × σ} {step' : τ → ι → ο × τ}
    {R : List ι → σ → τ → Prop}
    (hstep : ∀ i is s t, R (i :: is) s t →
      (step s i).1 = (step' t i).1 ∧ R is (step s i).2 (step' t i).2)
    {is : List ι} {s : σ} {t : τ} (h : R is s t) :
    transcript step s is = transcript step' t is := by
  induction is generalizing s t with
  | nil => rfl
  | cons i is ih =>
    obtain ⟨hans, hR⟩ := hstep i is s t h
    rw [transcript_cons, transcript_cons, hans, ih hR]

/-- One part of a machine, which some inputs leave alone, answers the others as a machine of
its own. -/
theorem transcript_projection {step : σ → ι → ο × σ} {step' : τ → ι → ο × τ} {f : σ → τ}
    {keep : ι → Bool}
    (hkeep : ∀ s i, keep i = true →
      (step s i).1 = (step' (f s) i).1 ∧ f (step s i).2 = (step' (f s) i).2)
    (hdrop : ∀ s i, keep i = false → f (step s i).2 = f s) (s : σ) (is : List ι) :
    (transcript step s is).filter (fun p => keep p.1) =
        transcript step' (f s) (is.filter keep) ∧
      f (final step s is) = final step' (f s) (is.filter keep) := by
  induction is generalizing s with
  | nil => exact ⟨rfl, rfl⟩
  | cons i is ih =>
    obtain ⟨htr, hend⟩ := ih (step s i).2
    cases hi : keep i with
    | true =>
      obtain ⟨hans, hnext⟩ := hkeep s i hi
      simp only [transcript_cons, List.filter_cons, hi, if_true, final_cons, hans, ← hnext, htr, hend]
      exact ⟨trivial, trivial⟩
    | false =>
      rw [hdrop s i hi] at htr hend
      simpa [hi] using And.intro htr hend

/-! ## Clock readings

`reads` lists the clock readings an input stands for, in order. -/

section Clock
variable {α : Type*} [Preorder α] {reads : ι → List α}

/-- A clock that never goes back: the readings of the whole run never decrease. -/
def Ascending (reads : ι → List α) (is : List ι) : Prop :=
  (is.flatMap reads).Pairwise (· ≤ ·)

instance [DecidableRel (α := α) (· ≤ ·)] (is : List ι) : Decidable (Ascending reads is) :=
  inferInstanceAs (Decidable (List.Pairwise _ _))

theorem ascending_cons {i : ι} {is : List ι} :
    Ascending reads (i :: is) ↔ (reads i).Pairwise (· ≤ ·) ∧ Ascending reads is ∧
      ∀ a ∈ reads i, ∀ j ∈ is, ∀ b ∈ reads j, a ≤ b := by
  simp only [Ascending, List.flatMap_cons, List.pairwise_append, List.mem_flatMap]
  refine and_congr_right fun _ => and_congr_right fun _ => ?_
  exact ⟨fun h a ha j hj b hb => h a ha b ⟨j, hj, hb⟩,
    fun h a ha b ⟨j, hj, hb⟩ => h a ha j hj b hb⟩

theorem ascending_append {is js : List ι} :
    Ascending reads (is ++ js) ↔ Ascending reads is ∧ Ascending reads js ∧
      ∀ i ∈ is, ∀ a ∈ reads i, ∀ j ∈ js, ∀ b ∈ reads j, a ≤ b := by
  simp only [Ascending, List.flatMap_append, List.pairwise_append, List.mem_flatMap]
  refine and_congr_right fun _ => and_congr_right fun _ => ?_
  exact ⟨fun h i hi a ha j hj b hb => h a ⟨i, hi, ha⟩ b ⟨j, hj, hb⟩,
    fun h a ⟨i, hi, ha⟩ b ⟨j, hj, hb⟩ => h i hi a ha j hj b hb⟩

theorem Ascending.between {pre mid post : List ι} {i j : ι}
    (h : Ascending reads (pre ++ i :: (mid ++ j :: post))) :
    (∀ a ∈ reads i, ∀ k ∈ mid, ∀ b ∈ reads k, a ≤ b) ∧
      (∀ k ∈ mid, ∀ b ∈ reads k, ∀ c ∈ reads j, b ≤ c) ∧
      ∀ a ∈ reads i, ∀ c ∈ reads j, a ≤ c := by
  obtain ⟨-, hi, -⟩ := ascending_append.mp h
  obtain ⟨-, hmid, hle⟩ := ascending_cons.mp hi
  obtain ⟨-, -, hj⟩ := ascending_append.mp hmid
  refine ⟨fun a ha k hk => hle a ha k (by simp [hk]), ?_, fun a ha => hle a ha j (by simp)⟩
  exact fun k hk b hb c hc => hj k hk b hb j (by simp) c hc

end Clock

end Transcripts
