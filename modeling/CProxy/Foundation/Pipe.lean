import Mathlib.Data.List.Basic
import Mathlib.Tactic.Common

/-! # A pipe between two partial moves

One move takes items from a source into the pipe, a second one takes items from
the head of the pipe to a destination. The second move of a round never asks for
more than the first one brought, so what it leaves behind stays behind.
-/

namespace CProxy.Foundation

universe u

/-- `taken` and `given` are history: the items that came into the pipe and those
that left it, oldest first. -/
structure Pipe (α : Type u) where
  taken : List α := []
  held : List α := []
  given : List α := []
  deriving DecidableEq

namespace Pipe

variable {α : Type u} {pipe : Pipe α} {items : List α} {count : Nat}

def fill (pipe : Pipe α) (items : List α) : Pipe α :=
  { pipe with taken := pipe.taken ++ items, held := pipe.held ++ items }

def drain (pipe : Pipe α) (count : Nat) : Pipe α :=
  { pipe with held := pipe.held.drop count, given := pipe.given ++ pipe.held.take count }

/-- Nothing is lost or reordered. -/
def Conserved (pipe : Pipe α) : Prop := pipe.taken = pipe.given ++ pipe.held

theorem conserved_empty : Conserved ({} : Pipe α) := rfl

theorem Conserved.fill (hpipe : pipe.Conserved) (items : List α) : (pipe.fill items).Conserved := by
  unfold Conserved at hpipe ⊢
  simp [Pipe.fill, hpipe]

theorem Conserved.drain (hpipe : pipe.Conserved) (count : Nat) : (pipe.drain count).Conserved := by
  unfold Conserved at hpipe ⊢
  simp [Pipe.drain, hpipe]

/-- Everything has arrived exactly when the pipe is empty. -/
theorem Conserved.given_eq_iff (hpipe : pipe.Conserved) :
    pipe.given = pipe.taken ↔ pipe.held = [] := by
  rw [hpipe, List.self_eq_append_right]

theorem fill_held_ne_nil (hitems : items ≠ []) : (pipe.fill items).held ≠ [] := by
  simp [fill, hitems]

/-- A round empties the pipe exactly when it found it empty and moves all it brought. -/
theorem drain_fill_held_eq_nil_iff (hcount : count ≤ items.length) :
    ((pipe.fill items).drain count).held = [] ↔ pipe.held = [] ∧ count = items.length := by
  simp only [drain, fill, List.drop_eq_nil_iff, List.length_append]
  constructor
  · intro hlength
    exact ⟨List.length_eq_zero_iff.mp (by omega), by omega⟩
  · rintro ⟨hheld, rfl⟩
    simp [hheld]

theorem length_given_drain (hcount : count ≤ items.length) :
    ((pipe.fill items).drain count).given.length = pipe.given.length + count := by
  have hheld : count ≤ (pipe.held ++ items).length := by
    rw [List.length_append]
    exact Nat.le_add_left_of_le hcount
  rw [drain, fill, List.length_append, List.length_take_of_le hheld]

/-- A round that moves all it brought passes it on through an empty pipe. -/
theorem drain_fill (hheld : pipe.held = []) :
    (pipe.fill items).drain items.length =
      { taken := pipe.taken ++ items, held := [], given := pipe.given ++ items } := by
  simp [drain, fill, hheld]

end Pipe

end CProxy.Foundation
