import CProxy.Foundation.Run

/-! # What a run shows

A step may show something of itself, read off the state before it. The
observations of a run are those of its steps, in order; a property of a state and
of what has been observed so far is carried along a run as an invariant is.
-/

namespace CProxy.Foundation

universe u v w

variable {σ : Type u} {ε : Type v} {ο : Type w}
variable (step : σ → ε → Option σ) (shows : σ → ε → List ο)

/-- The observations of a run, up to the first event that is not enabled. -/
def observed : σ → List ε → List ο
  | _, [] => []
  | state, event :: rest =>
      match step state event with
      | none => []
      | some next => shows state event ++ observed next rest

variable {step shows}

@[simp] theorem observed_nil (state : σ) : observed step shows state [] = [] := rfl

theorem observed_cons {state next : σ} {event : ε} (hstep : step state event = some next)
    (rest : List ε) :
    observed step shows state (event :: rest) =
      shows state event ++ observed step shows next rest := by
  rw [observed, hstep]

/-- What has been observed when a run goes on. -/
theorem observed_append {state middle : σ} {first : List ε}
    (hrun : run step state first = some middle) (second : List ε) :
    observed step shows state (first ++ second) =
      observed step shows state first ++ observed step shows middle second := by
  induction first generalizing state with
  | nil =>
      obtain rfl := Option.some.inj hrun
      rfl
  | cons event rest ih =>
      obtain ⟨next, hnext, hrest⟩ := run_cons_eq_some.mp hrun
      rw [List.cons_append, observed_cons hnext, observed_cons hnext, ih hrest, List.append_assoc]

/-- What every step preserves, with its own observations added, holds of a run and
of all it shows. -/
theorem observed_invariant {inv : σ → List ο → Prop}
    (hstep : ∀ state trace event next, inv state trace → step state event = some next →
      inv next (trace ++ shows state event))
    {state final : σ} {events : List ε} (hinv : inv state [])
    (hrun : run step state events = some final) : inv final (observed step shows state events) := by
  suffices hgeneral : ∀ trace, inv state trace →
      inv final (trace ++ observed step shows state events) from hgeneral [] hinv
  clear hinv
  induction events generalizing state with
  | nil =>
      intro trace hinv
      obtain rfl := Option.some.inj hrun
      rw [observed_nil, List.append_nil]
      exact hinv
  | cons event rest ih =>
      intro trace hinv
      obtain ⟨next, hnext, hrest⟩ := run_cons_eq_some.mp hrun
      rw [observed_cons hnext, ← List.append_assoc]
      exact ih hrest _ (hstep state trace event next hinv hnext)

end CProxy.Foundation
