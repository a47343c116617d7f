import Kagenti.Lib.Transition

/-!
What an observer of a transition system can see: when every step goes unseen or is matched by the
observer's own step, runs that look alike end in states it cannot tell apart.
-/

namespace Kagenti.Lib.Transition.System

variable {σ α : Type*} (S : System σ α)

inductive Trace (G : σ → α → Prop) : σ → List α → σ → Prop where
  | nil (s : σ) : Trace G s [] s
  | cons {s s' t : σ} {a : α} {as : List α} :
      G s a → S.step s a = some s' → Trace G s' as t → Trace G s (a :: as) t

variable {S} {G : σ → α → Prop}

theorem Trace.of_runFrom [∀ s, DecidablePred (G s)] {s t : σ} {as : List α}
    (h : S.runFrom G s as = some t) : S.Trace G s as t := by
  induction as generalizing s with
  | nil =>
    cases h
    exact .nil _
  | cons a as ih =>
    simp only [System.runFrom] at h
    split at h
    next guard =>
      split at h
      next s' step => exact .cons guard step (ih h)
      · cases h
    · cases h

section Observer

variable {β τ : Type*} (view : α → Option β) (observe : τ → β → τ)

/-- The observer's state after an action. -/
def observed (t : τ) (a : α) : τ :=
  match view a with
  | none => t
  | some b => observe t b

variable {t : τ} {a : α}

theorem observed_of_seen {b : β} (h : view a = some b) :
    observed view observe t a = observe t b := by
  rw [observed, h]

theorem observed_of_unseen (h : view a = none) : observed view observe t a = t := by
  rw [observed, h]

variable {R : σ → τ → Prop}

theorem Trace.related
    (step : ∀ s a s' t, R s t → G s a → S.step s a = some s' → R s' (observed view observe t a))
    {s s' : σ} {as : List α} (trace : S.Trace G s as s') (h : R s t) :
    R s' ((as.filterMap view).foldl observe t) := by
  induction trace generalizing t with
  | nil => exact h
  | @cons s s' _ a as guard hstep _ ih =>
    have next := ih (step s a s' t h guard hstep)
    cases seen : view a with
    | none =>
      rw [observed_of_unseen view observe seen] at next
      simpa only [List.filterMap_cons, seen] using next
    | some b =>
      rw [observed_of_seen view observe seen] at next
      simpa only [List.filterMap_cons, seen, List.foldl_cons] using next

theorem Trace.indistinguishable (Alike : σ → σ → Prop)
    (step : ∀ s a s' t, R s t → G s a → S.step s a = some s' → R s' (observed view observe t a))
    (determined : ∀ s s' t, R s t → R s' t → Alike s s') {s₁ s₂ t₁ t₂ : σ} {as₁ as₂ : List α}
    (trace₁ : S.Trace G s₁ as₁ t₁) (trace₂ : S.Trace G s₂ as₂ t₂)
    (same : as₁.filterMap view = as₂.filterMap view) (h₁ : R s₁ t) (h₂ : R s₂ t) :
    Alike t₁ t₂ := by
  have end₁ := trace₁.related view observe step h₁
  have end₂ := trace₂.related view observe step h₂
  rw [← same] at end₂
  exact determined _ _ _ end₁ end₂

end Observer

end Kagenti.Lib.Transition.System
