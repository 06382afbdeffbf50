import Mathlib.Data.List.Infix

/-! # Streams of frames

Frames none of which begins another, in a stream that is consumed one frame at a time and
in which each frame is handled. Once something is consumed behind which no frame can be
found, nothing is said of what follows.
-/

namespace CProxy.Foundation

universe u v

variable {α : Type u} {β : Type v}

/-- No frame begins another. -/
def PrefixFree (frame : List α → Prop) : Prop :=
  ∀ first second rest rest', frame first → frame second →
    first ++ rest = second ++ rest' → first = second

/-- The stream does not begin with a frame. -/
def NoFrame (frame : List α → Prop) (stream : List α) : Prop :=
  ∀ first rest, frame first → stream ≠ first ++ rest

/-- The frames the stream begins with have been handled, before anything else. -/
def Delivered (frame : List α → Prop) (handle : List α → Option (List β)) (stream : List α)
    (handled : List β) : Prop :=
  ∀ (frames : List (List α)) (tail : List α), (∀ item ∈ frames, frame item) →
    stream = frames.flatten ++ tail →
      ∃ calls : List (List β), frames.mapM handle = some calls ∧ calls.flatten <+: handled

/-- What has been consumed is frames and, behind them, what cannot begin one, whatever of
`future` follows. -/
inductive Progress (frame : List α → Prop) (handle : List α → Option (List β))
    (future : List α → Prop) : List α → List β → Prop
  | aligned {done : List (List α)} {calls : List (List β)} (hdone : ∀ item ∈ done, frame item)
      (hcalls : done.mapM handle = some calls) :
      Progress frame handle future done.flatten calls.flatten
  | blocked {done : List (List α)} {calls : List (List β)} {bad : List α} {extra : List β}
      (hdone : ∀ item ∈ done, frame item) (hcalls : done.mapM handle = some calls)
      (hbad : ∀ more, future more → NoFrame frame (bad ++ more)) :
      Progress frame handle future (done.flatten ++ bad) (calls.flatten ++ extra)

variable {frame : List α → Prop} {handle : List α → Option (List β)}
  {future later : List α → Prop} {consumed bytes : List α} {handled calls : List β}

theorem progress_nil : Progress frame handle future [] [] :=
  @Progress.aligned α β frame handle future [] [] (fun _ hitem => by cases hitem) rfl

theorem Progress.mono (hprogress : Progress frame handle future consumed handled)
    (hfuture : ∀ more, later more → future more) :
    Progress frame handle later consumed handled := by
  cases hprogress with
  | aligned hdone hcalls => exact .aligned hdone hcalls
  | blocked hdone hcalls hbad =>
      exact .blocked hdone hcalls fun more hmore => hbad more (hfuture more hmore)

/-- One frame is handled, or nothing more can be. -/
theorem Progress.step (hprogress : Progress frame handle future consumed handled)
    (hstep : frame bytes ∧ handle bytes = some calls ∨
      ∀ more, later more → NoFrame frame (bytes ++ more))
    (hfuture : ∀ more, later more → future (bytes ++ more)) :
    Progress frame handle later (consumed ++ bytes) (handled ++ calls) := by
  cases hprogress with
  | @aligned done before hdone hbefore =>
      rcases hstep with ⟨hframe, hhandle⟩ | hbad
      · have hflat : done.flatten ++ bytes = (done ++ [bytes]).flatten := by simp
        have hcalls : before.flatten ++ calls = (before ++ [calls]).flatten := by simp
        rw [hflat, hcalls]
        refine .aligned ?_ ?_
        · intro item hitem
          rcases List.mem_append.mp hitem with hold | hnew
          · exact hdone item hold
          · rw [List.mem_singleton.mp hnew]
            exact hframe
        · simp [List.mapM_append, hbefore, hhandle]
      · exact .blocked hdone hbefore hbad
  | blocked hdone hbefore hbad =>
      rw [List.append_assoc, List.append_assoc]
      refine .blocked hdone hbefore ?_
      intro more hmore
      rw [List.append_assoc]
      exact hbad (bytes ++ more) (hfuture more hmore)

/-- A stream has one division into frames, up to where it cannot be divided. -/
theorem PrefixFree.prefix_of_append_eq (hfree : PrefixFree frame) {frames done : List (List α)}
    {tail rest : List α} (hframes : ∀ item ∈ frames, frame item)
    (hdone : ∀ item ∈ done, frame item) (hrest : NoFrame frame rest)
    (heq : done.flatten ++ rest = frames.flatten ++ tail) : frames <+: done := by
  induction frames generalizing done with
  | nil => exact List.nil_prefix
  | cons first frames ih =>
      have hfirst := hframes first List.mem_cons_self
      rw [List.flatten_cons, List.append_assoc] at heq
      cases done with
      | nil => exact absurd heq (hrest first _ hfirst)
      | cons item done =>
          rw [List.flatten_cons, List.append_assoc] at heq
          obtain rfl := hfree item first _ _ (hdone item List.mem_cons_self) hfirst heq
          rw [List.prefix_cons_inj]
          apply ih (fun item hitem => hframes item (List.mem_cons_of_mem _ hitem))
            (fun item hitem => hdone item (List.mem_cons_of_mem _ hitem))
          exact List.append_cancel_left heq

theorem mapM_prefix {frames done : List (List α)} {calls : List (List β)}
    (hbegins : frames <+: done) (hcalls : done.mapM handle = some calls) :
    ∃ before, frames.mapM handle = some before ∧ before <+: calls := by
  obtain ⟨rest, rfl⟩ := hbegins
  rw [List.mapM_append] at hcalls
  obtain ⟨before, hbefore, hcalls⟩ := Option.bind_eq_some_iff.mp hcalls
  obtain ⟨after, -, hcalls⟩ := Option.bind_eq_some_iff.mp hcalls
  obtain rfl := Option.some.inj hcalls
  exact ⟨before, hbefore, List.prefix_append _ _⟩

/-- When nothing follows, every frame has been handled. -/
theorem Progress.delivered (hprogress : Progress frame handle future consumed handled)
    (hfree : PrefixFree frame) (hempty : ¬ frame []) (hend : future []) :
    Delivered frame handle consumed handled := by
  intro frames tail hframes heq
  cases hprogress with
  | @aligned done calls hdone hcalls =>
      have hrest : NoFrame frame [] := by
        intro first rest hfirst hnil
        rw [List.nil_eq, List.append_eq_nil_iff] at hnil
        exact hempty (hnil.1 ▸ hfirst)
      obtain ⟨before, hbefore, hbegins⟩ := mapM_prefix
        (hfree.prefix_of_append_eq hframes hdone hrest ((List.append_nil _).trans heq)) hcalls
      exact ⟨before, hbefore, hbegins.flatten⟩
  | blocked hdone hcalls hbad =>
      have hrest := hbad [] hend
      rw [List.append_nil] at hrest
      obtain ⟨before, hbefore, hbegins⟩ := mapM_prefix
        (hfree.prefix_of_append_eq hframes hdone hrest heq) hcalls
      exact ⟨before, hbefore, hbegins.flatten.trans (List.prefix_append _ _)⟩

end CProxy.Foundation
