import Mathlib.Logic.Relation

/-!
Deterministic labelled transition systems with a partial step function, and the invariant rule for
the states that guarded steps reach.
-/

namespace Kagenti.Lib.Transition

structure System (σ α : Type*) where
  init : σ
  step : σ → α → Option σ

namespace System

variable {σ α : Type*} (S : System σ α)

def Next (G : σ → α → Prop) (s s' : σ) : Prop :=
  ∃ a, G s a ∧ S.step s a = some s'

/-- The states of runs all of whose steps meet the guard. -/
def Reachable (G : σ → α → Prop) (s : σ) : Prop :=
  Relation.ReflTransGen (S.Next G) S.init s

/-- The guard that admits every action. -/
def anyAction : σ → α → Prop := fun _ _ => True

instance (s : σ) : DecidablePred (anyAction s : α → Prop) := fun _ => isTrue trivial

variable {S} {G : σ → α → Prop}

theorem Reachable.init : S.Reachable G S.init := .refl

variable {s : σ}

theorem Reachable.invariant {I : σ → Prop} (hinit : I S.init)
    (hstep : ∀ s a s', I s → G s a → S.step s a = some s' → I s') (h : S.Reachable G s) : I s := by
  induction h with
  | refl => exact hinit
  | tail _ hnext ih =>
    obtain ⟨a, hG, hs⟩ := hnext
    exact hstep _ a _ ih hG hs

section Run

variable (S) (G) [∀ s, DecidablePred (G s)]

def runFrom (s : σ) : List α → Option σ
  | [] => some s
  | a :: as =>
    if G s a then
      match S.step s a with
      | some s' => runFrom s' as
      | none => none
    else none

def run (as : List α) : Option σ :=
  S.runFrom G S.init as

variable {S G} {s t : σ} {as : List α}

theorem reflTransGen_of_runFrom (h : S.runFrom G s as = some t) :
    Relation.ReflTransGen (S.Next G) s t := by
  induction as generalizing s with
  | nil =>
    cases h
    exact .refl
  | cons a as ih =>
    simp only [System.runFrom] at h
    split at h
    next hG =>
      split at h
      next s' hstep => exact .head ⟨a, hG, hstep⟩ (ih h)
      · cases h
    · cases h

theorem Reachable.runFrom (hs : S.Reachable G s) (h : S.runFrom G s as = some t) :
    S.Reachable G t :=
  hs.trans (reflTransGen_of_runFrom h)

theorem reachable_of_run (as : List α) (h : S.run G as = some s) : S.Reachable G s :=
  Reachable.init.runFrom h

theorem exists_reachable_of_run {p : σ → Prop} (as : List α)
    (h : ∃ s ∈ S.run G as, p s) : ∃ s, S.Reachable G s ∧ p s := by
  obtain ⟨s, hrun, hp⟩ := h
  exact ⟨s, reachable_of_run as hrun, hp⟩

end Run

end System

end Kagenti.Lib.Transition
