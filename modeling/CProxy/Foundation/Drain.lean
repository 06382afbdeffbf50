import CProxy.Foundation.Run

/-! # Work that runs out

Steps that use up a measure cannot be taken for ever. If one of them can be taken
whenever the goal is not reached, there is a run of them that reaches it.
-/

namespace CProxy.Foundation

universe u v

variable {σ : Type u} {ε : Type v} {step : σ → ε → Option σ}
variable {inv : σ → Prop} {law : σ → ε → Prop} {measure : σ → Nat}

/-- A run of steps that use up the measure is no longer than the measure allows. -/
theorem length_add_measure_le
    (hstep : ∀ state event next, inv state → law state event → step state event = some next →
      inv next ∧ measure next < measure state)
    {state final : σ} {events : List ε} (hinv : inv state) (hlaw : Takes step law state events)
    (hrun : run step state events = some final) :
    events.length + measure final ≤ measure state := by
  induction events generalizing state with
  | nil =>
      obtain rfl := Option.some.inj hrun
      simp
  | cons event rest ih =>
      obtain ⟨next, hnext, hrest⟩ := run_cons_eq_some.mp hrun
      obtain ⟨hlawful, hlater⟩ := takes_cons_iff.mp hlaw next hnext
      obtain ⟨hafter, hless⟩ := hstep state event next hinv hlawful hnext
      have htail := ih hafter hlater hrest
      rw [List.length_cons]
      omega

/-- A goal is reached when the way to it is never blocked. -/
theorem exists_run_to {goal : σ → Prop}
    (hstep : ∀ state event next, inv state → law state event → step state event = some next →
      inv next ∧ measure next < measure state)
    (hprogress : ∀ state, inv state → ¬ goal state →
      ∃ event next, law state event ∧ step state event = some next)
    {state : σ} (hinv : inv state) :
    ∃ events final, run step state events = some final ∧ Takes step law state events ∧
      inv final ∧ goal final := by
  induction hbound : measure state using Nat.strongRecOn generalizing state with
  | ind bound ih =>
      by_cases hgoal : goal state
      · exact ⟨[], state, rfl, takes_nil law state, hinv, hgoal⟩
      · obtain ⟨event, next, hlawful, hnext⟩ := hprogress state hinv hgoal
        obtain ⟨hafter, hless⟩ := hstep state event next hinv hlawful hnext
        obtain ⟨rest, final, hrest, htakes, hfinal⟩ := ih _ (hbound ▸ hless) hafter rfl
        refine ⟨event :: rest, final, (run_cons hnext rest).trans hrest, ?_, hfinal⟩
        rw [takes_cons_iff]
        intro other hother
        obtain rfl := Option.some.inj (hnext.symm.trans hother)
        exact ⟨hlawful, htakes⟩

end CProxy.Foundation
