import Mathlib.Data.List.Basic
import Mathlib.Tactic.Common

/-! # A stream whose length is announced on another channel

A source puts items on a first-in first-out channel and, when it has ended,
announces how many there were on a channel of its own. The two channels are not
ordered against each other, so the announcement can come before the last items
or after them. The sink is complete when it holds as many items as announced.
-/

namespace CProxy.Foundation

universe u

/-- The state of one such stream. `trailing` is what has been put on the channel
behind the stream; `total` is the announcement once the sink has heard it. -/
structure Transfer (α : Type u) where
  source : List α := []
  trailing : List α := []
  sink : List α := []
  flight : List α := []
  closed : Bool := false
  notices : List Nat := []
  total : Option Nat := none

namespace Transfer

variable {α : Type u} {transfer : Transfer α}

/-- Nothing is lost or reordered, and a source that has ended has announced its
length at most once. -/
structure Sound (transfer : Transfer α) : Prop where
  conserved : transfer.source ++ transfer.trailing = transfer.sink ++ transfer.flight
  single : transfer.notices.length ≤ 1
  notices : ∀ count ∈ transfer.notices,
    transfer.closed = true ∧ count = transfer.source.length ∧ transfer.total = none
  total : ∀ count, transfer.total = some count →
    transfer.closed = true ∧ count = transfer.source.length

/-- The sink has as many items as were announced. -/
def Complete (transfer : Transfer α) : Prop := transfer.total = some transfer.sink.length

instance (transfer : Transfer α) : Decidable transfer.Complete :=
  inferInstanceAs (Decidable (_ = _))

/-! ## What the two ends do -/

def send (transfer : Transfer α) (items : List α) : Transfer α :=
  { transfer with source := transfer.source ++ items, flight := transfer.flight ++ items }

def append (transfer : Transfer α) (items : List α) : Transfer α :=
  { transfer with trailing := transfer.trailing ++ items, flight := transfer.flight ++ items }

def deliver (transfer : Transfer α) (count : Nat) : Transfer α :=
  { transfer with
    sink := transfer.sink ++ transfer.flight.take count
    flight := transfer.flight.drop count }

def finish (transfer : Transfer α) : Transfer α :=
  { transfer with
    closed := true
    notices := transfer.notices ++ [transfer.source.length] }

def hear (transfer : Transfer α) (count : Nat) (rest : List Nat) : Transfer α :=
  { transfer with notices := rest, total := some count }

/-- The announcement reaches a sink that does not listen yet. -/
def miss (transfer : Transfer α) (rest : List Nat) : Transfer α :=
  { transfer with notices := rest }

theorem sound_empty : Sound ({} : Transfer α) where
  conserved := rfl
  single := Nat.zero_le 1
  notices := fun _ hcount => absurd hcount List.not_mem_nil
  total := fun _ htotal => absurd htotal nofun

namespace Sound

theorem notices_eq_nil (hsound : transfer.Sound) (hopen : transfer.closed = false) :
    transfer.notices = [] := by
  cases hnotices : transfer.notices with
  | nil => rfl
  | cons count rest =>
      have hclosed := (hsound.notices count (by simp [hnotices])).1
      simp [hopen] at hclosed

theorem total_eq_none (hsound : transfer.Sound) (hopen : transfer.closed = false) :
    transfer.total = none := by
  cases htotal : transfer.total with
  | none => rfl
  | some count =>
      have hclosed := (hsound.total count htotal).1
      simp [hopen] at hclosed

theorem notices_of_total (hsound : transfer.Sound) {count : Nat}
    (htotal : transfer.total = some count) : transfer.notices = [] := by
  cases hnotices : transfer.notices with
  | nil => rfl
  | cons first rest =>
      have hnone := (hsound.notices first (by simp [hnotices])).2.2
      simp [htotal] at hnone

/-- The announcement heard and the items there agree only when the whole stream
is there, whatever came first. -/
theorem complete (hsound : transfer.Sound) (hcomplete : transfer.Complete) :
    transfer.closed = true ∧ transfer.sink = transfer.source ∧
      transfer.flight = transfer.trailing ∧ transfer.notices = [] := by
  obtain ⟨hclosed, hlength⟩ := hsound.total _ hcomplete
  obtain ⟨hsource, hrest⟩ := List.append_inj hsound.conserved hlength.symm
  exact ⟨hclosed, hsource.symm, hrest.symm, hsound.notices_of_total hcomplete⟩

theorem send (hsound : transfer.Sound) (hopen : transfer.closed = false)
    (hlast : transfer.trailing = []) (items : List α) : (transfer.send items).Sound where
  conserved := by
    have hconserved := hsound.conserved
    simp only [hlast, List.append_nil] at hconserved
    simp [Transfer.send, hconserved, hlast]
  single := hsound.single
  notices := by
    simp [Transfer.send, hsound.notices_eq_nil hopen]
  total := by
    simp [Transfer.send, hsound.total_eq_none hopen]

theorem append (hsound : transfer.Sound) (items : List α) : (transfer.append items).Sound where
  conserved := by
    simp only [Transfer.append]
    rw [← List.append_assoc, hsound.conserved, List.append_assoc]
  single := hsound.single
  notices := hsound.notices
  total := hsound.total

theorem deliver (hsound : transfer.Sound) (count : Nat) : (transfer.deliver count).Sound where
  conserved := by simp [Transfer.deliver, hsound.conserved]
  single := hsound.single
  notices := hsound.notices
  total := hsound.total

theorem finish (hsound : transfer.Sound) (hopen : transfer.closed = false) :
    transfer.finish.Sound where
  conserved := hsound.conserved
  single := by simp [Transfer.finish, hsound.notices_eq_nil hopen]
  notices := by
    simp [Transfer.finish, hsound.notices_eq_nil hopen, hsound.total_eq_none hopen]
  total := by
    simp [Transfer.finish, hsound.total_eq_none hopen]

theorem rest_eq_nil (hsound : transfer.Sound) {count : Nat} {rest : List Nat}
    (hnotices : transfer.notices = count :: rest) : rest = [] := by
  have hsingle := hsound.single
  rw [hnotices, List.length_cons] at hsingle
  exact List.length_eq_zero_iff.mp (by omega)

theorem hear (hsound : transfer.Sound) {count : Nat} {rest : List Nat}
    (hnotices : transfer.notices = count :: rest) : (transfer.hear count rest).Sound where
  conserved := hsound.conserved
  single := by simp [Transfer.hear, hsound.rest_eq_nil hnotices]
  notices := by simp [Transfer.hear, hsound.rest_eq_nil hnotices]
  total := by
    intro heard hheard
    simp only [Transfer.hear, Option.some.injEq] at hheard
    subst hheard
    obtain ⟨hclosed, hlength, _⟩ := hsound.notices count (by simp [hnotices])
    exact ⟨hclosed, hlength⟩

theorem miss (hsound : transfer.Sound) {count : Nat} {rest : List Nat}
    (hnotices : transfer.notices = count :: rest) : (transfer.miss rest).Sound where
  conserved := hsound.conserved
  single := by simp [Transfer.miss, hsound.rest_eq_nil hnotices]
  notices := by simp [Transfer.miss, hsound.rest_eq_nil hnotices]
  total := hsound.total

end Sound

end Transfer

end CProxy.Foundation
