import CProxy.Foundation.Run

/-! # Schedules made of rounds

A round is a piece of a schedule with an event of every kind in it, in any order and
among any others. When no event adds to a measure, and the events of one kind, which stays
the same until then, take from it, every round takes from it.
-/

namespace CProxy.Foundation

universe u v w

variable {σ : Type u} {ε : Type v} {κ : Type w}

/-- The schedule has an event of every kind. -/
def Round (kind : ε → κ) (events : List ε) : Prop := ∀ k, ∃ event ∈ events, kind event = k

/-- In a state with work left, an event of the helpful kind takes from the measure, and as
long as none is taken from it the helpful kind stays the same. -/
structure Wearing (step : σ → ε → Option σ) (inv : σ → Prop) (measure : σ → Nat) (kind : ε → κ)
    (helpful : σ → κ) : Prop where
  next : ∀ state event, inv state → ∃ next, step state event = some next ∧ inv next
  le : ∀ state event next, inv state → step state event = some next →
    measure next ≤ measure state
  helps : ∀ state event next, inv state → 0 < measure state → step state event = some next →
    measure next = measure state → kind event ≠ helpful state ∧ helpful next = helpful state

variable {step : σ → ε → Option σ} {inv : σ → Prop} {measure : σ → Nat} {kind : ε → κ}
  {helpful : σ → κ}

/-- Events up to a helpful one take from the measure. -/
theorem Wearing.run (hwearing : Wearing step inv measure kind helpful) {state : σ}
    (hinv : inv state) (events : List ε) :
    ∃ final, Foundation.run step state events = some final ∧ inv final ∧
      measure final ≤ measure state ∧
      ((∃ event ∈ events, kind event = helpful state) → 0 < measure state →
        measure final < measure state) := by
  induction events generalizing state with
  | nil => exact ⟨state, rfl, hinv, le_refl _, by simp⟩
  | cons event rest ih =>
      obtain ⟨next, hnext, hafter⟩ := hwearing.next state event hinv
      obtain ⟨final, hfinal, hlast, hle, hless⟩ := ih hafter
      have hfirst := hwearing.le state event next hinv hnext
      refine ⟨final, (run_cons hnext rest).trans hfinal, hlast, hle.trans hfirst, ?_⟩
      rintro ⟨found, hfound, hkind⟩ hpositive
      rcases hfirst.lt_or_eq with htaken | hsame
      · exact hle.trans_lt htaken
      · -- the helpful event is still to come, and it still helps
        obtain ⟨hother, hstays⟩ := hwearing.helps state event next hinv hpositive hnext hsame
        have hlater : found ∈ rest := by
          rcases List.mem_cons.mp hfound with rfl | hmem
          · exact absurd hkind hother
          · exact hmem
        rw [← hsame]
        exact hless ⟨found, hlater, hkind.trans hstays.symm⟩ (hsame ▸ hpositive)

/-- As many rounds as the measure says leave nothing of it. -/
theorem Wearing.run_rounds (hwearing : Wearing step inv measure kind helpful) {state : σ}
    (hinv : inv state) {rounds : List (List ε)} (hrounds : ∀ round ∈ rounds, Round kind round)
    (henough : measure state ≤ rounds.length) :
    ∃ final, Foundation.run step state rounds.flatten = some final ∧ inv final ∧
      measure final = 0 := by
  induction rounds generalizing state with
  | nil => exact ⟨state, rfl, hinv, Nat.le_zero.mp henough⟩
  | cons round rest ih =>
      obtain ⟨hround, hrest⟩ := List.forall_mem_cons.mp hrounds
      obtain ⟨middle, hmiddle, hbetween, hle, hless⟩ := hwearing.run hinv round
      have henough' : measure middle ≤ rest.length := by
        rw [List.length_cons] at henough
        rcases Nat.eq_zero_or_pos (measure state) with hzero | hpositive
        · omega
        · have htaken := hless (hround (helpful state)) hpositive
          omega
      obtain ⟨final, hfinal, hlast⟩ := ih hbetween hrest henough'
      refine ⟨final, ?_, hlast⟩
      rw [List.flatten_cons, run_append, hmiddle, Option.bind_some, hfinal]

end CProxy.Foundation
