import Mathlib.Tactic.Common

/-! # Counting loops

`for (int i = 0; i < count; i++)` over a body that may have no defined result.
-/

namespace CProxy.Foundation

universe u

variable {σ : Type u}

/-- The state after `body` has been run for 0, 1, up to `count - 1`. -/
def forRange (body : Nat → σ → Option σ) : Nat → σ → Option σ
  | 0, state => some state
  | count + 1, state => (forRange body count state).bind (body count)

variable {body : Nat → σ → Option σ}

theorem forRange_succ (count : Nat) (state : σ) :
    forRange body (count + 1) state = (forRange body count state).bind (body count) := rfl

/-- A body that is defined under an invariant and keeps it makes a loop that does. -/
theorem forRange_spec (inv : Nat → σ → Prop) {count : Nat} {state : σ} (hinit : inv 0 state)
    (hbody : ∀ i state, i < count → inv i state → ∃ next, body i state = some next ∧
      inv (i + 1) next) :
    ∃ final, forRange body count state = some final ∧ inv count final := by
  induction count with
  | zero => exact ⟨state, rfl, hinit⟩
  | succ count ih =>
      obtain ⟨middle, hmiddle, hinv⟩ :=
        ih fun i state hlt => hbody i state (Nat.lt_succ_of_lt hlt)
      obtain ⟨final, hfinal, hdone⟩ := hbody count middle (Nat.lt_succ_self count) hinv
      refine ⟨final, ?_, hdone⟩
      rw [forRange_succ, hmiddle]
      exact hfinal

end CProxy.Foundation
