import Mathlib.Init

/-!
When a computation in `Except` succeeds, by the steps it is made of.
-/

namespace Kagenti.Lib.Outcome

universe u

variable {ε ε' α β : Type u} {x : Except ε α} {b : β} {a : α}

theorem bind_eq_ok {f : α → Except ε β} : (x >>= f) = .ok b ↔ ∃ a, x = .ok a ∧ f a = .ok b := by
  constructor
  · intro h
    cases x with
    | error e => cases h
    | ok a => exact ⟨a, rfl, h⟩
  · rintro ⟨a, rfl, h⟩
    exact h

theorem pure_eq_ok {a' : α} : (pure a : Except ε α) = .ok a' ↔ a = a' :=
  ⟨fun h => Except.ok.inj h, fun h => congrArg Except.ok h⟩

theorem mapError_ok {f : ε → ε'} : (Except.ok a).mapError f = .ok a := rfl

theorem mapError_eq_ok {f : ε → ε'} : x.mapError f = .ok a ↔ x = .ok a := by
  cases x with
  | error e => exact iff_of_false nofun nofun
  | ok a' => rw [mapError_ok, Except.ok.injEq, Except.ok.injEq]

/-! Whether a closed computation has a result with a property is found by running it. -/

instance decidableOk {p : α → Prop} [DecidablePred p] : Decidable (∃ a, x = .ok a ∧ p a) :=
  match x with
  | .error _ => isFalse (by simp)
  | .ok a => decidable_of_iff (p a) (by simp)

instance decidableOkSome {x : Except ε (Option α)} {p : α → Prop} [DecidablePred p] :
    Decidable (∃ a, x = .ok (some a) ∧ p a) :=
  match x with
  | .error _ | .ok none => isFalse (by simp)
  | .ok (some a) => decidable_of_iff (p a) (by simp)

end Kagenti.Lib.Outcome
