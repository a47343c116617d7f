import Mathlib.Init

/-!
Computations over a state that can fail and keep what they have done to it, and rules for what they
establish at either end.
-/

namespace Kagenti.Lib

abbrev Fallible (ε σ α : Type) := ExceptT ε (StateM σ) α

namespace Fallible

variable {ε σ α β : Type} {f : α → Fallible ε σ β}

def runFrom (x : Fallible ε σ α) (s : σ) : Except ε α × σ := x.run.run s

def attempt (x : Fallible ε σ α) : Fallible ε σ (Except ε α) :=
  ExceptT.mk fun s => (.ok (x.runFrom s).1, (x.runFrom s).2)

def access (f : σ → Except ε α × σ) : Fallible ε σ α := ExceptT.mk f

@[simp] theorem runFrom_pure (a : α) (s : σ) :
    (pure a : Fallible ε σ α).runFrom s = (.ok a, s) := rfl

@[simp] theorem runFrom_access (f : σ → Except ε α × σ) (s : σ) : (access f).runFrom s = f s := rfl

@[simp] theorem runFrom_attempt (x : Fallible ε σ α) (s : σ) :
    (attempt x).runFrom s = (.ok (x.runFrom s).1, (x.runFrom s).2) := rfl

theorem runFrom_bind (x : Fallible ε σ α) (f : α → Fallible ε σ β) (s : σ) :
    (x >>= f).runFrom s =
      match x.runFrom s with
      | (.ok a, s') => (f a).runFrom s'
      | (.error e, s') => (.error e, s') := by
  change (ExceptT.bindCont f (x.runFrom s).1 : StateM σ (Except ε β)) (x.runFrom s).2 = _
  rcases x.runFrom s with ⟨_ | _, s'⟩ <;> rfl

theorem runFrom_bind_pure {x : Fallible ε σ α} (hf : ∀ a, ∃ b, f a = pure b) (s : σ) :
    ((x >>= f).runFrom s).2 = (x.runFrom s).2 ∧
      ((x >>= f).runFrom s).1.isOk = (x.runFrom s).1.isOk := by
  rw [runFrom_bind]
  rcases x.runFrom s with ⟨_ | a, s'⟩
  · exact ⟨rfl, rfl⟩
  · obtain ⟨b, hb⟩ := hf a
    change ((f a).runFrom s').2 = s' ∧ ((f a).runFrom s').1.isOk = true
    rw [hb]
    exact ⟨rfl, rfl⟩

structure Satisfies (P : σ → Prop) (x : Fallible ε σ α) (Q : α → σ → Prop) (E : σ → Prop) :
    Prop where
  run : ∀ s, P s →
    match x.runFrom s with
    | (.ok a, s') => Q a s'
    | (.error _, s') => E s'

variable {P P' : σ → Prop} {Q Q' : α → σ → Prop} {E E' : σ → Prop} {x : Fallible ε σ α}

namespace Satisfies

theorem pure {a : α} (h : ∀ s, P s → Q a s) : Satisfies P (pure a : Fallible ε σ α) Q E := ⟨h⟩

theorem throw {e : ε} (h : ∀ s, P s → E s) : Satisfies P (throw e : Fallible ε σ α) Q E := ⟨h⟩

theorem bind {R : β → σ → Prop} (hx : Satisfies P x Q E) (hf : ∀ a, Satisfies (Q a) (f a) R E) :
    Satisfies P (x >>= f) R E := by
  constructor
  intro s hs
  have hx := hx.run s hs
  rw [runFrom_bind]
  rcases hrun : x.runFrom s with ⟨_ | a, s'⟩
  · rw [hrun] at hx
    exact hx
  · rw [hrun] at hx
    exact (hf a).run s' hx

theorem of_fact {p : Prop} (hp : ∀ s, P s → p) (h : p → Satisfies P x Q E) : Satisfies P x Q E :=
  ⟨fun s hs => (h (hp s hs)).run s hs⟩

theorem always {I : σ → Prop} (h : Satisfies P x (fun _ => I) I) {s : σ} (hs : P s) :
    I (x.runFrom s).2 := by
  have hx := h.run s hs
  rcases hrun : x.runFrom s with ⟨_ | a, s'⟩
  · rw [hrun] at hx
    exact hx
  · rw [hrun] at hx
    exact hx

variable (h : Satisfies P x Q E)

include h

theorem weaken (hP : ∀ s, P' s → P s) (hQ : ∀ a s, Q a s → Q' a s) (hE : ∀ s, E s → E' s) :
    Satisfies P' x Q' E' := by
  constructor
  intro s hs
  have hx := h.run s (hP s hs)
  rcases hrun : x.runFrom s with ⟨_ | a, s'⟩
  · rw [hrun] at hx
    exact hE s' hx
  · rw [hrun] at hx
    exact hQ a s' hx

theorem attempt :
    Satisfies P x.attempt (fun r s => match r with | .ok a => Q a s | .error _ => E s) E' := by
  constructor
  intro s hs
  have hx := h.run s hs
  rw [runFrom_attempt]
  rcases hrun : x.runFrom s with ⟨_ | a, s'⟩
  · rw [hrun] at hx
    exact hx
  · rw [hrun] at hx
    exact hx

/-- What follows `x` may be exchanged for what does the same wherever `x` can end. -/
theorem runFrom_bind_congr {g : α → Fallible ε σ β}
    (hfg : ∀ a s, Q a s → (f a).runFrom s = (g a).runFrom s) {s : σ} (hs : P s) :
    (x >>= f).runFrom s = (x >>= g).runFrom s := by
  have hx := h.run s hs
  rw [runFrom_bind, runFrom_bind]
  rcases hrun : x.runFrom s with ⟨_ | a, s'⟩
  · rfl
  · rw [hrun] at hx
    exact hfg a s' hx

theorem of_ok {s s' : σ} {a : α} (hs : P s) (hrun : x.runFrom s = (.ok a, s')) : Q a s' := by
  have hx := h.run s hs
  rw [hrun] at hx
  exact hx

end Satisfies

/-- The computation keeps a predicate, whether it fails or not. -/
def Keeps (I : σ → Prop) (x : Fallible ε σ α) : Prop := Satisfies I x (fun _ => I) I

namespace Keeps

variable {I : σ → Prop}

theorem pure (a : α) : Keeps I (Pure.pure a : Fallible ε σ α) := ⟨fun _ h => h⟩

theorem throw (e : ε) : Keeps I (MonadExcept.throw e : Fallible ε σ α) := ⟨fun _ h => h⟩

theorem bind (hx : Keeps I x) (hf : ∀ a, Keeps I (f a)) : Keeps I (x >>= f) := Satisfies.bind hx hf

theorem attempt (h : Keeps I x) : Keeps I x.attempt := by
  refine (Satisfies.attempt h).weaken (fun _ hs => hs) ?_ (fun _ hs => hs)
  intro r s hs
  cases r <;> exact hs

theorem access {f : σ → Except ε α × σ} (h : ∀ s, I s → I (f s).2) :
    Keeps I (Fallible.access f) := by
  constructor
  intro s hs
  have hf := h s hs
  rw [runFrom_access]
  rcases hfs : f s with ⟨_ | a, s'⟩
  · rw [hfs] at hf
    exact hf
  · rw [hfs] at hf
    exact hf

theorem runFrom (h : Keeps I x) {s : σ} (hs : I s) : I (x.runFrom s).2 := Satisfies.always h hs

end Keeps

end Fallible

end Kagenti.Lib
