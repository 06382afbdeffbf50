import CProxy.Foundation.Refine

/-! # A system of parts

The whole shows a state of each of its parts, and its observations are each about one
part. Where every step of the whole is matched at every part, a run of the whole is a run
of each part, with the observations that are about it. Where the whole can take a step of
one part without a change at another, it can take the runs of that part.
-/

namespace CProxy.Foundation

universe u v w x y z

variable {ι : Type u} {σ : Type v} {ε : Type w} {τ : Type x} {κ : Type y} {ο : Type z}

section Shown

variable [DecidableEq ι]

/-- The observations that are about one part. -/
def ofPart (part : ι) (trace : List (ι × ο)) : List ο :=
  trace.filterMap fun shown => if shown.1 = part then some shown.2 else none

variable {part other : ι}

@[simp] theorem ofPart_nil : ofPart part ([] : List (ι × ο)) = [] := rfl

@[simp] theorem ofPart_append (first second : List (ι × ο)) :
    ofPart part (first ++ second) = ofPart part first ++ ofPart part second :=
  List.filterMap_append

theorem mem_ofPart {trace : List (ι × ο)} {shown : ο} :
    shown ∈ ofPart part trace ↔ (part, shown) ∈ trace := by
  unfold ofPart
  rw [List.mem_filterMap]
  constructor
  · rintro ⟨⟨found, held⟩, hmem, hshown⟩
    obtain ⟨rfl, hheld⟩ := Option.ite_none_right_eq_some.mp hshown
    rwa [← Option.some.inj hheld]
  · intro hmem
    exact ⟨(part, shown), hmem, if_pos rfl⟩

@[simp] theorem ofPart_map_self (items : List ο) : ofPart part (items.map (part, ·)) = items := by
  induction items with
  | nil => rfl
  | cons item rest ih =>
      rw [List.map_cons, ofPart, List.filterMap_cons, if_pos rfl]
      exact congrArg (item :: ·) ih

theorem ofPart_map_other (hother : other ≠ part) (items : List ο) :
    ofPart part (items.map (other, ·)) = [] := by
  induction items with
  | nil => rfl
  | cons item rest ih =>
      rw [List.map_cons, ofPart, List.filterMap_cons, if_neg hother]
      exact ih

variable {step : σ → ε → Option σ} {shows : σ → ε → List (ι × ο)} {view : σ → ι → τ}
variable {partStep : ι → τ → κ → Option τ} {partShows : ι → τ → κ → List ο}

/-- A run of the whole is a run of each part. -/
theorem run_projects {inv : σ → Prop}
    (hstep : ∀ state event next, inv state → step state event = some next →
      inv next ∧ ∀ part, Matches (partStep part) (partShows part) (view state part)
        (ofPart part (shows state event)) (view next part))
    {state final : σ} {events : List ε} (hinv : inv state)
    (hrun : run step state events = some final) :
    inv final ∧ ∀ part, Matches (partStep part) (partShows part) (view state part)
      (ofPart part (observed step shows state events)) (view final part) := by
  induction events generalizing state with
  | nil =>
      obtain rfl := Option.some.inj hrun
      exact ⟨hinv, fun part => matches_refl (view state part)⟩
  | cons event rest ih =>
      obtain ⟨next, hnext, hrest⟩ := run_cons_eq_some.mp hrun
      obtain ⟨hmiddle, hfirst⟩ := hstep state event next hinv hnext
      obtain ⟨hfinal, hlater⟩ := ih hmiddle hrest
      refine ⟨hfinal, fun part => ?_⟩
      rw [observed_cons hnext, ofPart_append]
      exact (hfirst part).trans (hlater part)

end Shown

section Lifted

variable {step : σ → ε → Option σ} {shows : σ → ε → List (ι × ο)} {view : σ → ι → τ} {part : ι}
variable {partStep : τ → κ → Option τ} {partShows : τ → κ → List ο}

/-- A run of the whole that only one part has a share in. -/
structure Alone (step : σ → ε → Option σ) (shows : σ → ε → List (ι × ο)) (view : σ → ι → τ)
    (part : ι) (state : σ) (events : List ε) (final : σ) (trace : List ο) : Prop where
  run : run step state events = some final
  others : ∀ other, other ≠ part → view final other = view state other
  shown : observed step shows state events = trace.map (part, ·)

theorem Alone.cons {state next final : σ} {event : ε} {rest : List ε} {first later : List ο}
    (hstep : step state event = some next)
    (hothers : ∀ other, other ≠ part → view next other = view state other)
    (hshows : shows state event = first.map (part, ·))
    (halone : Alone step shows view part next rest final later) :
    Alone step shows view part state (event :: rest) final (first ++ later) where
  run := by rw [run_cons hstep, halone.run]
  others := fun other hother => (halone.others other hother).trans (hothers other hother)
  shown := by rw [observed_cons hstep, hshows, halone.shown, List.map_append]

/-- The whole can take the runs of a part whose steps it can take. -/
theorem run_lifts {inv : σ → Prop} {law : κ → Prop}
    (hlift : ∀ state event after, inv state → law event →
      partStep (view state part) event = some after →
      ∃ whole next, step state whole = some next ∧ inv next ∧ view next part = after ∧
        (∀ other, other ≠ part → view next other = view state other) ∧
        shows state whole = (partShows (view state part) event).map (part, ·))
    {state : σ} {final : τ} {events : List κ} (hinv : inv state)
    (hlaw : ∀ event ∈ events, law event)
    (hrun : run partStep (view state part) events = some final) :
    ∃ wholes later, inv later ∧ view later part = final ∧
      Alone step shows view part state wholes later
        (observed partStep partShows (view state part) events) := by
  induction events generalizing state with
  | nil =>
      refine ⟨[], state, hinv, Option.some.inj hrun, ?_⟩
      exact ⟨rfl, fun _ _ => rfl, rfl⟩
  | cons event rest ih =>
      obtain ⟨after, hafter, hrest⟩ := run_cons_eq_some.mp hrun
      obtain ⟨whole, next, hnext, hmiddle, rfl, hothers, hshows⟩ :=
        hlift state event after hinv (hlaw event List.mem_cons_self) hafter
      obtain ⟨wholes, later, hend, hfinal, halone⟩ :=
        ih hmiddle (fun other hmem => hlaw other (List.mem_cons_of_mem event hmem)) hrest
      refine ⟨whole :: wholes, later, hend, hfinal, ?_⟩
      rw [observed_cons hafter]
      exact halone.cons hnext hothers hshows

end Lifted

end CProxy.Foundation
