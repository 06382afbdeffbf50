import Mathlib.Data.List.Infix
import Mathlib.Logic.Relation

/-! # Runs of a partial step function

A system is given by `step : σ → ε → Option σ`. An event without a successor is
not enabled in that state. The laws below carry a property from one step to a
whole run, relate a property of the states a run visits to a condition on the
steps it takes, and transport a run along a simulation.
-/

namespace CProxy.Foundation

universe u v w

variable {σ : Type u} {ε : Type v} (step : σ → ε → Option σ)

/-- The state after the listed events, when each is enabled in its turn. -/
def run : σ → List ε → Option σ
  | state, [] => some state
  | state, event :: rest => (step state event).bind fun next => run next rest

/-- `law` holds in every state the run passes through, its ends included. -/
def Visits (law : σ → Prop) (state : σ) (events : List ε) : Prop :=
  ∀ before middle, before <+: events → run step state before = some middle → law middle

/-- `law` holds of every event of the run and the state in which it is taken. -/
def Takes (law : σ → ε → Prop) (state : σ) (events : List ε) : Prop :=
  ∀ before event middle next, before ++ [event] <+: events →
    run step state before = some middle → step middle event = some next → law middle event

variable {step}

@[simp] theorem run_nil (state : σ) : run step state [] = some state := rfl

theorem run_cons {state next : σ} {event : ε} (hstep : step state event = some next)
    (rest : List ε) : run step state (event :: rest) = run step next rest := by
  simp [run, hstep]

theorem run_cons_eq_some {state final : σ} {event : ε} {rest : List ε} :
    run step state (event :: rest) = some final ↔
      ∃ next, step state event = some next ∧ run step next rest = some final := by
  simp [run, Option.bind_eq_some_iff]

theorem run_append (state : σ) (first second : List ε) :
    run step state (first ++ second) =
      (run step state first).bind fun middle => run step middle second := by
  induction first generalizing state with
  | nil => rfl
  | cons event rest ih =>
      simp only [List.cons_append, run, Option.bind_assoc]
      exact congrArg _ (funext fun next => ih next)

theorem run_concat {state middle : σ} {events : List ε} (hrun : run step state events = some middle)
    (event : ε) : run step state (events ++ [event]) = step middle event := by
  rw [run_append, hrun]
  simp only [run, Option.bind_some]
  cases step middle event <;> rfl

theorem run_map {κ : Type w} (name : κ → ε) (state : σ) (events : List κ) :
    run step state (events.map name) = run (fun state event => step state (name event)) state
      events := by
  induction events generalizing state with
  | nil => rfl
  | cons event rest ih =>
      simp only [List.map_cons, run]
      exact congrArg _ (funext ih)

/-! ## Laws along a run -/

theorem takes_nil (law : σ → ε → Prop) (state : σ) : Takes step law state [] := by
  intro before event middle next hinit
  simp at hinit

theorem takes_true (state : σ) (events : List ε) :
    Takes step (fun _ _ => True) state events :=
  fun _ _ _ _ _ _ _ => trivial

theorem takes_of_forall {law : ε → Prop} {events : List ε} (hall : ∀ event ∈ events, law event)
    (state : σ) : Takes step (fun _ event => law event) state events := by
  intro before event middle next hinit _ _
  exact hall event (hinit.subset (List.mem_append_right before (List.mem_singleton_self event)))

/-- A law of the run is a law of its first step and of the run after it. -/
theorem takes_cons_iff {law : σ → ε → Prop} {state : σ} {event : ε} {rest : List ε} :
    Takes step law state (event :: rest) ↔
      ∀ next, step state event = some next → law state event ∧ Takes step law next rest := by
  constructor
  · intro htakes next hnext
    refine ⟨htakes [] event state next (List.prefix_append [event] rest) rfl hnext, ?_⟩
    intro before other middle after hinit hrun hafter
    refine htakes (event :: before) other middle after ?_ ?_ hafter
    · exact (List.prefix_cons_inj event).mpr hinit
    · rw [run_cons hnext]
      exact hrun
  · intro hlaw before other middle after hinit hrun hafter
    cases before with
    | nil =>
        simp only [List.nil_append, List.cons_prefix_cons, List.nil_prefix, and_true] at hinit
        simp only [run_nil, Option.some.injEq] at hrun
        subst hinit hrun
        exact (hlaw after hafter).1
    | cons head tail =>
        simp only [List.cons_append, List.cons_prefix_cons] at hinit
        obtain ⟨rfl, hinit⟩ := hinit
        obtain ⟨next, hnext, hrun⟩ := run_cons_eq_some.mp hrun
        exact (hlaw next hnext).2 tail other middle after hinit hrun hafter

/-- A property of the states of a run holds at its start and in the run after its first step. -/
theorem visits_cons_iff {law : σ → Prop} {state next : σ} {event : ε} {rest : List ε}
    (hnext : step state event = some next) :
    Visits step law state (event :: rest) ↔ law state ∧ Visits step law next rest := by
  constructor
  · intro hvisits
    refine ⟨hvisits [] state List.nil_prefix rfl, ?_⟩
    intro before middle hinit hrun
    exact hvisits (event :: before) middle ((List.prefix_cons_inj event).mpr hinit)
      ((run_cons hnext before).trans hrun)
  · rintro ⟨hstate, hrest⟩ before middle hinit hrun
    cases before with
    | nil =>
        obtain rfl := Option.some.inj hrun
        exact hstate
    | cons head tail =>
        obtain ⟨rfl, htail⟩ := List.cons_prefix_cons.mp hinit
        exact hrest tail middle htail ((run_cons hnext tail).symm.trans hrun)

theorem visits_nil_iff {law : σ → Prop} {state : σ} : Visits step law state [] ↔ law state := by
  constructor
  · exact fun hvisits => hvisits [] state List.nil_prefix rfl
  · intro hstate before middle hinit hrun
    obtain rfl := List.prefix_nil.mp hinit
    obtain rfl := Option.some.inj hrun
    exact hstate

theorem Takes.cons {law : σ → ε → Prop} {state next : σ} {event : ε} {rest : List ε}
    (hnext : step state event = some next) (hfirst : law state event)
    (hrest : Takes step law next rest) : Takes step law state (event :: rest) := by
  rw [takes_cons_iff]
  intro same hsame
  obtain rfl := Option.some.inj (hnext.symm.trans hsame)
  exact ⟨hfirst, hrest⟩

theorem Takes.mono {law weaker : σ → ε → Prop} {state : σ} {events : List ε}
    (hlaw : Takes step law state events)
    (hweaker : ∀ state event, law state event → weaker state event) :
    Takes step weaker state events :=
  fun before event middle next hinit hrun hnext =>
    hweaker middle event (hlaw before event middle next hinit hrun hnext)

/-- A law that can be tested is tested step by step. -/
instance decidableTakes {law : σ → ε → Prop} [∀ state event, Decidable (law state event)] :
    ∀ (state : σ) (events : List ε), Decidable (Takes step law state events)
  | state, [] => isTrue (takes_nil law state)
  | state, event :: rest =>
      match hnext : step state event with
      | none => isTrue (takes_cons_iff.mpr fun next hsome => by
          rw [hnext] at hsome
          cases hsome)
      | some next =>
          have : Decidable (Takes step law next rest) := decidableTakes next rest
          decidable_of_iff (law state event ∧ Takes step law next rest) (by
            rw [takes_cons_iff, hnext]
            simp)

theorem Takes.of_initial {law : σ → ε → Prop} {state : σ} {first events : List ε}
    (hlaw : Takes step law state events) (hinit : first <+: events) :
    Takes step law state first :=
  fun before event middle next hbefore => hlaw before event middle next (hbefore.trans hinit)

/-- What every lawful step preserves holds at the end of a lawful run. -/
theorem run_invariant_of_takes {inv : σ → Prop} {law : σ → ε → Prop}
    (hstep : ∀ state event next, inv state → law state event →
      step state event = some next → inv next)
    {state final : σ} {events : List ε} (hinv : inv state)
    (hlaw : Takes step law state events) (hrun : run step state events = some final) :
    inv final := by
  induction events generalizing state with
  | nil =>
      simp only [run_nil, Option.some.injEq] at hrun
      exact hrun ▸ hinv
  | cons event rest ih =>
      obtain ⟨next, hnext, hrest⟩ := run_cons_eq_some.mp hrun
      obtain ⟨hfirst, htail⟩ := takes_cons_iff.mp hlaw next hnext
      exact ih (hstep state event next hinv hfirst hnext) htail hrest

theorem run_invariant {inv : σ → Prop}
    (hstep : ∀ state event next, inv state → step state event = some next → inv next)
    {state final : σ} {events : List ε} (hinv : inv state)
    (hrun : run step state events = some final) : inv final :=
  run_invariant_of_takes (fun state event next hstate _ => hstep state event next hstate)
    hinv (takes_true state events) hrun

/-- A run that breaks a law takes a first step that breaks it. -/
theorem exists_first_not_takes {law : σ → ε → Prop} {state : σ} {events : List ε}
    (hnot : ¬ Takes step law state events) :
    ∃ before event middle next, before ++ [event] <+: events ∧
      run step state before = some middle ∧ step middle event = some next ∧
      ¬ law middle event ∧ Takes step law state before := by
  induction events generalizing state with
  | nil => exact absurd (takes_nil law state) hnot
  | cons event rest ih =>
      rw [takes_cons_iff] at hnot
      push Not at hnot
      obtain ⟨next, hnext, hbroken⟩ := hnot
      by_cases hfirst : law state event
      · obtain ⟨before, other, middle, after, hinit, hrun, hafter, hbad, hgood⟩ :=
          ih (hbroken hfirst)
        refine ⟨event :: before, other, middle, after,
          (List.prefix_cons_inj event).mpr hinit, ?_, hafter, hbad, ?_⟩
        · rw [run_cons hnext]
          exact hrun
        · rw [takes_cons_iff]
          intro same hsame
          have heq : next = same := Option.some.inj (hnext.symm.trans hsame)
          exact ⟨hfirst, heq ▸ hgood⟩
      · exact ⟨[], event, state, next, List.prefix_append [event] rest, rfl, hnext,
          hfirst, takes_nil law state⟩

/-- What an unlawful step spoils, and no later step repairs, is spoiled at the end. -/
theorem spoiled_of_not_takes {inv spoiled : σ → Prop} {law : σ → ε → Prop}
    (hstep : ∀ state event next, inv state → law state event →
      step state event = some next → inv next)
    (hbad : ∀ state event next, inv state → ¬ law state event →
      step state event = some next → spoiled next)
    (hspoiled : ∀ state event next, spoiled state → step state event = some next → spoiled next)
    {state final : σ} {events : List ε} (hinv : inv state)
    (hnot : ¬ Takes step law state events) (hrun : run step state events = some final) :
    spoiled final := by
  obtain ⟨before, event, middle, next, ⟨rest, rfl⟩, hmiddle, hnext, hunlawful, hlawful⟩ :=
    exists_first_not_takes hnot
  have hreached : inv middle := run_invariant_of_takes hstep hinv hlawful hmiddle
  rw [run_append, run_concat hmiddle, hnext, Option.bind_some] at hrun
  exact run_invariant hspoiled (hbad middle event next hreached hunlawful hnext) hrun

/-! ## A property of the states against a condition on the steps -/

variable {inv : σ → Prop} {law : σ → ε → Prop}

/-- With an invariant that lawful steps keep and that gives `good`, and with
unlawful steps that leave `good`, a run stays good exactly when it is lawful. -/
theorem visits_iff_takes {good : σ → Prop}
    (hstep : ∀ state event next, inv state → law state event →
      step state event = some next → inv next)
    (hgood : ∀ state, inv state → good state)
    (hbad : ∀ state event next, inv state → step state event = some next →
      ¬ law state event → ¬ good next)
    {state : σ} (hinv : inv state) (events : List ε) :
    Visits step good state events ↔ Takes step law state events := by
  constructor
  · intro hvisits
    by_contra hnot
    obtain ⟨before, event, middle, next, hinit, hrun, hnext, hunlawful, hlawful⟩ :=
      exists_first_not_takes hnot
    have hmiddle : inv middle := run_invariant_of_takes hstep hinv hlawful hrun
    apply hbad middle event next hmiddle hnext hunlawful
    apply hvisits (before ++ [event]) next hinit
    rw [run_concat hrun, hnext]
  · intro htakes before middle hinit hrun
    exact hgood middle (run_invariant_of_takes hstep hinv (htakes.of_initial hinit) hrun)

/-- The same for a property of the steps themselves. -/
theorem takes_iff_takes {good : σ → ε → Prop}
    (hstep : ∀ state event next, inv state → law state event →
      step state event = some next → inv next)
    (hgood : ∀ state event next, inv state → step state event = some next →
      (good state event ↔ law state event))
    {state : σ} (hinv : inv state) (events : List ε) :
    Takes step good state events ↔ Takes step law state events := by
  constructor
  · intro htakes
    by_contra hnot
    obtain ⟨before, event, middle, next, hinit, hrun, hnext, hunlawful, hlawful⟩ :=
      exists_first_not_takes hnot
    have hmiddle : inv middle := run_invariant_of_takes hstep hinv hlawful hrun
    exact hunlawful ((hgood middle event next hmiddle hnext).mp
      (htakes before event middle next hinit hrun hnext))
  · intro htakes before event middle next hinit hrun hnext
    have hbefore : before <+: events := (List.prefix_append before [event]).trans hinit
    have hmiddle := run_invariant_of_takes hstep hinv (htakes.of_initial hbefore) hrun
    exact (hgood middle event next hmiddle hnext).mpr
      (htakes before event middle next hinit hrun hnext)

/-! ## A fault that no step repairs -/

/-- When no step repairs a fault and exactly the steps outside `law` make one, a
run ends clean exactly when all its events are in `law`. -/
theorem clean_iff_forall {inv clean : σ → Prop} {law : ε → Prop}
    (hinv : ∀ state event next, inv state → step state event = some next → inv next)
    (hclean : ∀ state event next, inv state → step state event = some next →
      (clean next ↔ clean state ∧ law event))
    {state final : σ} {events : List ε} (hstate : inv state)
    (hrun : run step state events = some final) :
    clean final ↔ clean state ∧ ∀ event ∈ events, law event := by
  induction events generalizing state with
  | nil =>
      simp only [run_nil, Option.some.injEq] at hrun
      simp [hrun]
  | cons event rest ih =>
      obtain ⟨next, hnext, hrest⟩ := run_cons_eq_some.mp hrun
      rw [ih (hinv state event next hstate hnext) hrest, hclean state event next hstate hnext,
        List.forall_mem_cons, and_assoc]

/-- When good steps repair no fault and make one exactly outside `law`, a good run that
ends clean was lawful. -/
theorem takes_of_clean_end {inv clean : σ → Prop} {good law : σ → ε → Prop}
    (hinv : ∀ state event next, inv state → step state event = some next → inv next)
    (hclean : ∀ state event next, inv state → step state event = some next →
      good state event → clean next → clean state ∧ law state event)
    {state final : σ} {events : List ε} (hstate : inv state)
    (hgood : Takes step good state events) (hrun : run step state events = some final)
    (hfinal : clean final) : clean state ∧ Takes step law state events := by
  induction events generalizing state with
  | nil =>
      simp only [run_nil, Option.some.injEq] at hrun
      exact ⟨hrun ▸ hfinal, takes_nil law state⟩
  | cons event rest ih =>
      obtain ⟨next, hnext, hrest⟩ := run_cons_eq_some.mp hrun
      obtain ⟨hfirst, htail⟩ := takes_cons_iff.mp hgood next hnext
      obtain ⟨hbetween, hlaw⟩ := ih (hinv state event next hstate hnext) htail hrest
      obtain ⟨hbefore, hevent⟩ := hclean state event next hstate hnext hfirst hbetween
      exact ⟨hbefore, hlaw.cons hnext hevent⟩

/-! ## Events without end -/

section Stream

variable (step) in
/-- The state after the first `count` events of a stream. -/
def runFor (events : Nat → ε) (state : σ) : Nat → Option σ
  | 0 => some state
  | count + 1 => (runFor events state count).bind fun middle => step middle (events count)

variable {events : Nat → ε} {state middle : σ} {count : Nat}

theorem runFor_succ (hrun : runFor step events state count = some middle) :
    runFor step events state (count + 1) = step middle (events count) := by
  rw [runFor, hrun, Option.bind_some]

theorem runFor_invariant {inv : Nat → σ → Prop} (hinit : inv 0 state)
    (hstep : ∀ count middle next, runFor step events state count = some middle →
      inv count middle → step middle (events count) = some next → inv (count + 1) next)
    (hrun : runFor step events state count = some middle) : inv count middle := by
  induction count generalizing middle with
  | zero =>
      obtain rfl := Option.some.inj hrun
      exact hinit
  | succ count ih =>
      obtain ⟨before, hbefore, hnext⟩ := Option.bind_eq_some_iff.mp hrun
      exact hstep count before middle hbefore (ih hbefore) hnext

/-- A run goes on until it comes to a state that has no step. -/
theorem runFor_isSome_or_stuck (count : Nat) :
    (∃ final, runFor step events state count = some final) ∨
      ∃ fewer final, fewer < count ∧ runFor step events state fewer = some final ∧
        step final (events fewer) = none := by
  induction count with
  | zero => exact Or.inl ⟨state, rfl⟩
  | succ count ih =>
      rcases ih with ⟨final, hfinal⟩ | ⟨fewer, final, hfewer, hstuck⟩
      · cases hnext : step final (events count) with
        | none => exact Or.inr ⟨count, final, Nat.lt_succ_self count, hfinal, hnext⟩
        | some next => exact Or.inl ⟨next, by rw [runFor_succ hfinal, hnext]⟩
      · exact Or.inr ⟨fewer, final, Nat.lt_succ_of_lt hfewer, hstuck⟩

end Stream

end CProxy.Foundation
