import Mathlib.Tactic.TypeStar

/-!
How Go functions end: by returning or by a panic, with deferred calls that run either way.
-/

namespace Kagenti.Go

structure Ended (σ : Type*) where
  state : σ
  panicking : Bool

namespace Ended

variable {σ : Type*}

def returned (s : σ) : Ended σ := ⟨s, false⟩

/-- The statements behind a call do not run if it panics. -/
def andThen (e : Ended σ) (rest : σ → Ended σ) : Ended σ :=
  if e.panicking then e else rest e.state

/-- A deferred call runs however the function ends. -/
def deferred (e : Ended σ) (call : σ → σ) : Ended σ := { e with state := call e.state }

/-- A deferred `recover` stops the panic. -/
def recovered (e : Ended σ) : Ended σ := { e with panicking := false }

end Ended

end Kagenti.Go
