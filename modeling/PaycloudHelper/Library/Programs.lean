import Mathlib

/-!
# Programs that ask their surroundings

A program is done, or asks a query and goes on with the answer. What the surroundings
do between two queries, and in which order they serve several programs, is left open.
-/

namespace Programs

inductive Prog (Q : Type) (R : Q → Type) (α : Type)
  | done (value : α)
  | ask (query : Q) (resume : R query → Prog Q R α)

namespace Prog

variable {Q Q' : Type} {R : Q → Type} {R' : Q' → Type} {α β : Type}

def bind : Prog Q R α → (α → Prog Q R β) → Prog Q R β
  | done a, f => f a
  | ask q resume, f => ask q fun r => bind (resume r) f

instance : Monad (Prog Q R) where
  pure := done
  bind := bind

/-- The same program where its queries are among those of `Q'`. -/
def translate (query : Q → Q') (answer : ∀ q, R' (query q) → R q) : Prog Q R α → Prog Q' R' α
  | done a => done a
  | ask q resume => ask (query q) fun r => translate query answer (resume (answer q r))

/-- The program where a server with a state answers every query at once. -/
def servedBy {σ : Type} (serve : σ → (q : Q) → R q × σ) : Prog Q R α → σ → α × σ
  | done a, s => (a, s)
  | ask q resume, s => servedBy serve (resume (serve s q).1) (serve s q).2

end Prog

/-! ## What a program asks, whatever it is answered -/

structure Exchange (Q : Type) (R : Q → Type) where
  query : Q
  reply : R query

namespace Prog

variable {Q : Type} {R : Q → Type} {α : Type}

inductive Follows : Prog Q R α → List (Exchange Q R) → Prog Q R α → Prop
  | start (p : Prog Q R α) : Follows p [] p
  | next {q : Q} {resume : R q → Prog Q R α} {r : R q} {es : List (Exchange Q R)}
      {p : Prog Q R α} (h : Follows (resume r) es p) : Follows (ask q resume) (⟨q, r⟩ :: es) p

/-- Of every query and every end, with the exchanges before it. -/
def Always (asked : List (Exchange Q R) → Q → Prop) (ended : List (Exchange Q R) → α → Prop) :
    List (Exchange Q R) → Prog Q R α → Prop
  | es, done a => ended es a
  | es, ask q resume => asked es q ∧ ∀ r, Always asked ended (es ++ [⟨q, r⟩]) (resume r)

variable {asked : List (Exchange Q R) → Q → Prop} {ended : List (Exchange Q R) → α → Prop}

theorem Always.follows {es fs : List (Exchange Q R)} {p p' : Prog Q R α}
    (h : Always asked ended es p) (hp : Follows p fs p') : Always asked ended (es ++ fs) p' := by
  induction hp generalizing es with
  | start p => simpa using h
  | next _ ih => simpa using ih (h.2 _)

theorem always_of_follows {es : List (Exchange Q R)} {p : Prog Q R α}
    (hasked : ∀ fs q resume, Follows p fs (ask q resume) → asked (es ++ fs) q)
    (hended : ∀ fs a, Follows p fs (done a) → ended (es ++ fs) a) : Always asked ended es p := by
  induction p generalizing es with
  | done a => simpa [Always] using hended [] a (.start _)
  | ask q resume ih =>
    refine ⟨by simpa using hasked [] q resume (.start _), fun r => ih r ?_ ?_⟩
    · intro fs q' resume' h
      simpa using hasked (⟨q, r⟩ :: fs) q' resume' (.next h)
    · intro fs a h
      simpa using hended (⟨q, r⟩ :: fs) a (.next h)

theorem Always.mono {asked' : List (Exchange Q R) → Q → Prop}
    {ended' : List (Exchange Q R) → α → Prop} {es : List (Exchange Q R)} {p : Prog Q R α}
    (h : Always asked ended es p) (hasked : ∀ es q, asked es q → asked' es q)
    (hended : ∀ es a, ended es a → ended' es a) : Always asked' ended' es p := by
  induction p generalizing es with
  | done a => exact hended es a h
  | ask q resume ih => exact ⟨hasked es q h.1, fun r => ih r (h.2 r)⟩

theorem Always.after {asked' : List (Exchange Q R) → Q → Prop}
    {ended' : List (Exchange Q R) → α → Prop} {es fs : List (Exchange Q R)} {p : Prog Q R α}
    (h : Always asked ended fs p) (hasked : ∀ fs q, asked fs q → asked' (es ++ fs) q)
    (hended : ∀ fs a, ended fs a → ended' (es ++ fs) a) : Always asked' ended' (es ++ fs) p := by
  induction p generalizing fs with
  | done a => exact hended fs a h
  | ask q resume ih =>
    refine ⟨hasked fs q h.1, fun r => ?_⟩
    simpa using ih r (h.2 r)

theorem Always.bind {β : Type} {ended' : List (Exchange Q R) → β → Prop}
    {es : List (Exchange Q R)} {p : Prog Q R α} {f : α → Prog Q R β} (h : Always asked ended es p)
    (hf : ∀ fs a, ended fs a → Always asked ended' fs (f a)) :
    Always asked ended' es (p.bind f) := by
  induction p generalizing es with
  | done a => exact hf es a h
  | ask q resume ih => exact ⟨h.1, fun r => ih r (h.2 r)⟩

end Prog

end Programs
