import Mathlib.Logic.Relator

/-! # Items that are in one place each

A relation between items and the places they are in, and what it is after one item
has gone somewhere. `Relator.RightUnique` says that no item is in two places.
-/

namespace CProxy.Foundation

universe u v

variable {α : Type u} {β : Type v}

/-- `item` is in `place` and nowhere else, and all others are where they were. -/
def Placed (holds holds' : α → β → Prop) (item : α) (place : β) : Prop :=
  ∀ other found, holds' other found ↔
    (other = item ∧ found = place) ∨ (other ≠ item ∧ holds other found)

namespace Placed

variable {holds holds' : α → β → Prop} {item other : α} {place found : β}

theorem at_place (hplaced : Placed holds holds' item place) : holds' item place :=
  (hplaced item place).mpr (Or.inl ⟨rfl, rfl⟩)

theorem rightUnique (hplaced : Placed holds holds' item place) (hunique : Relator.RightUnique holds) :
    Relator.RightUnique holds' := by
  intro other first second hfirst hsecond
  rcases (hplaced other first).mp hfirst with ⟨rfl, rfl⟩ | ⟨hother, hbefore⟩
  · rcases (hplaced other second).mp hsecond with ⟨_, rfl⟩ | ⟨hother, _⟩
    · rfl
    · exact absurd rfl hother
  · rcases (hplaced other second).mp hsecond with ⟨hsame, _⟩ | ⟨_, hafter⟩
    · exact absurd hsame hother
    · exact hunique hbefore hafter

theorem exists_iff (hplaced : Placed holds holds' item place) :
    (∃ found, holds' other found) ↔ other = item ∨ ∃ found, holds other found := by
  constructor
  · rintro ⟨found, hfound⟩
    rcases (hplaced other found).mp hfound with ⟨hsame, _⟩ | ⟨_, hbefore⟩
    · exact Or.inl hsame
    · exact Or.inr ⟨found, hbefore⟩
  · intro hcase
    by_cases hother : other = item
    · subst hother
      exact ⟨place, hplaced.at_place⟩
    · obtain ⟨found, hfound⟩ := hcase.resolve_left hother
      exact ⟨found, (hplaced other found).mpr (Or.inr ⟨hother, hfound⟩)⟩

end Placed

/-- The item is found where it went and nowhere else, and each other item where it was. -/
theorem placed_of {holds holds' : α → β → Prop} {item : α} {place : β}
    (hitem : ∀ found, holds' item found ↔ found = place)
    (hothers : ∀ other found, other ≠ item → (holds' other found ↔ holds other found)) :
    Placed holds holds' item place := by
  intro other found
  by_cases hother : other = item
  · subst hother
    simp [hitem]
  · simp [hother, hothers other found hother]

end CProxy.Foundation
