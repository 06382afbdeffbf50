import CProxy.Foundation.Observed

/-! # Refinement with stuttering

A concrete step may be no step of the abstract system, or several. The steps are
matched from related states, and what they show has to agree; a run is then matched
by a run, with the same observations.
-/

namespace CProxy.Foundation

universe u v w x y

variable {σ : Type u} {ε : Type v} {τ : Type w} {κ : Type x} {ο : Type y}
variable {step : σ → ε → Option σ} {shows : σ → ε → List ο}
variable {abstractStep : τ → κ → Option τ} {abstractShows : τ → κ → List ο}

variable (abstractStep abstractShows) in
/-- The abstract system gets from one state to the other and shows `trace` on the way. -/
def Matches (state : τ) (trace : List ο) (next : τ) : Prop :=
  ∃ events, run abstractStep state events = some next ∧
    observed abstractStep abstractShows state events = trace

theorem matches_refl (state : τ) : Matches abstractStep abstractShows state [] state :=
  ⟨[], rfl, rfl⟩

theorem matches_of_step {state next : τ} {event : κ}
    (hstep : abstractStep state event = some next) :
    Matches abstractStep abstractShows state (abstractShows state event) next := by
  refine ⟨[event], ?_, ?_⟩
  · rw [run_cons hstep, run_nil]
  · rw [observed_cons hstep, observed_nil, List.append_nil]

theorem Matches.trans {state middle next : τ} {first second : List ο}
    (hfirst : Matches abstractStep abstractShows state first middle)
    (hsecond : Matches abstractStep abstractShows middle second next) :
    Matches abstractStep abstractShows state (first ++ second) next := by
  obtain ⟨before, hbefore, rfl⟩ := hfirst
  obtain ⟨behind, hbehind, rfl⟩ := hsecond
  refine ⟨before ++ behind, ?_, observed_append hbefore behind⟩
  rw [run_append, hbefore, Option.bind_some, hbehind]

/-- What no step mends has been in order all along. -/
theorem clean_of_run {clean : σ → Prop}
    (hclean : ∀ state event next, step state event = some next → clean next → clean state)
    {state final : σ} {events : List ε} (hrun : run step state events = some final)
    (hfinal : clean final) : clean state := by
  by_contra hspoiled
  have hstep (state : σ) (event : ε) (next : σ) (hnot : ¬ clean state)
      (hnext : step state event = some next) : ¬ clean next :=
    fun hmended => hnot (hclean state event next hnext hmended)
  exact run_invariant hstep hspoiled hrun hfinal

/-- A run of the concrete system is a run of the abstract one that shows the same. A
condition that no step mends is asked of the last state only. -/
theorem run_refines {rel : σ → τ → Prop} {clean : σ → Prop}
    (hclean : ∀ state event next, step state event = some next → clean next → clean state)
    (hmatch : ∀ state event next abstract, rel state abstract → step state event = some next →
      clean next →
      ∃ later, Matches abstractStep abstractShows abstract (shows state event) later ∧
        rel next later)
    {state final : σ} {abstract : τ} {events : List ε} (hrel : rel state abstract)
    (hrun : run step state events = some final) (hfinal : clean final) :
    ∃ later, Matches abstractStep abstractShows abstract (observed step shows state events) later ∧
      rel final later := by
  induction events generalizing state abstract with
  | nil =>
      obtain rfl := Option.some.inj hrun
      exact ⟨abstract, matches_refl abstract, hrel⟩
  | cons event rest ih =>
      obtain ⟨next, hnext, hrest⟩ := run_cons_eq_some.mp hrun
      obtain ⟨middle, hmiddle, hbetween⟩ :=
        hmatch state event next abstract hrel hnext (clean_of_run hclean hrest hfinal)
      obtain ⟨later, hlater, hend⟩ := ih hbetween hrest
      rw [observed_cons hnext]
      exact ⟨later, hmiddle.trans hlater, hend⟩

end CProxy.Foundation
