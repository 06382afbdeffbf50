import Mathlib.Data.Finset.Card
import Mathlib.Logic.Function.Iterate

/-! # Ownership by reference counts

An object is alive as long as it has an owner: a root, or an object that is alive.
Losing its last owner destroys it, and it lets go of what it holds. What is left in
the end is the largest part in which every object has an owner, so objects that own
each other are never destroyed.
-/

namespace CProxy.Foundation

universe u

variable {α : Type u} [DecidableEq α]

section Definitions

variable (roots : List α) (holds : α → List α)

/-- Every object has an owner. -/
def Supported (alive : Finset α) : Prop :=
  ∀ item ∈ alive, item ∈ roots ∨ ∃ owner ∈ alive, item ∈ holds owner

/-- Destroys the objects that have no owner. -/
def release (alive : Finset α) : Finset α :=
  alive.filter fun item => item ∈ roots ∨ ∃ owner ∈ alive, item ∈ holds owner

/-- Destroys until every object has an owner. -/
def collect (alive : Finset α) : Finset α := (release roots holds)^[alive.card] alive

end Definitions

/-- As many rounds as there are items bring a shrinking function to a fixed point. -/
theorem iterate_fixed_of_card_le {shrink : Finset α → Finset α}
    (hshrink : ∀ items, shrink items ⊆ items) {count : Nat} {items : Finset α}
    (hcard : items.card ≤ count) : shrink (shrink^[count] items) = shrink^[count] items := by
  induction count generalizing items with
  | zero =>
      obtain rfl := Finset.card_eq_zero.mp (Nat.le_zero.mp hcard)
      exact Finset.subset_empty.mp (hshrink ∅)
  | succ count ih =>
      by_cases hfixed : shrink items = items
      · rw [Function.iterate_fixed hfixed]
        exact hfixed
      · have hless : (shrink items).card < items.card :=
          Finset.card_lt_card (Finset.ssubset_iff_subset_ne.mpr ⟨hshrink items, hfixed⟩)
        rw [Function.iterate_succ_apply]
        exact ih (by omega)

variable {roots : List α} {holds : α → List α} {alive kept : Finset α} {item owner : α}

theorem release_subset (alive : Finset α) : release roots holds alive ⊆ alive :=
  Finset.filter_subset _ _

theorem supported_iff_release_eq :
    Supported roots holds alive ↔ release roots holds alive = alive := by
  rw [release, Finset.filter_eq_self]
  rfl

omit [DecidableEq α] in
theorem Supported.mono {more : List α} {holdsMore : α → List α}
    (hsupported : Supported roots holds alive) (hroots : ∀ item ∈ alive, item ∈ roots → item ∈ more)
    (hholds : ∀ owner ∈ alive, ∀ item ∈ alive, item ∈ holds owner → item ∈ holdsMore owner) :
    Supported more holdsMore alive := by
  intro item hitem
  rcases hsupported item hitem with hroot | ⟨owner, howner, hheld⟩
  · exact Or.inl (hroots item hitem hroot)
  · exact Or.inr ⟨owner, howner, hholds owner howner item hitem hheld⟩

theorem Supported.insert (hsupported : Supported roots holds alive)
    (hitem : item ∈ roots ∨ ∃ owner ∈ alive, item ∈ holds owner) :
    Supported roots holds (insert item alive) := by
  intro other hother
  rcases Finset.mem_insert.mp hother with rfl | hbefore
  · rcases hitem with hroot | ⟨owner, howner, hheld⟩
    · exact Or.inl hroot
    · exact Or.inr ⟨owner, Finset.mem_insert_of_mem howner, hheld⟩
  · rcases hsupported other hbefore with hroot | ⟨owner, howner, hheld⟩
    · exact Or.inl hroot
    · exact Or.inr ⟨owner, Finset.mem_insert_of_mem howner, hheld⟩

/-- A part with owners of its own loses nothing. -/
theorem Supported.subset_release (hsupported : Supported roots holds kept) (hkept : kept ⊆ alive) :
    kept ⊆ release roots holds alive := by
  intro item hitem
  refine Finset.mem_filter.mpr ⟨hkept hitem, ?_⟩
  rcases hsupported item hitem with hroot | ⟨owner, howner, hheld⟩
  · exact Or.inl hroot
  · exact Or.inr ⟨owner, hkept howner, hheld⟩

theorem Supported.subset_iterate (hsupported : Supported roots holds kept) (hkept : kept ⊆ alive)
    (count : Nat) : kept ⊆ (release roots holds)^[count] alive := by
  induction count with
  | zero => exact hkept
  | succ count ih =>
      rw [Function.iterate_succ_apply']
      exact hsupported.subset_release ih

theorem Supported.subset_collect (hsupported : Supported roots holds kept) (hkept : kept ⊆ alive) :
    kept ⊆ collect roots holds alive := hsupported.subset_iterate hkept _

theorem collect_subset : collect roots holds alive ⊆ alive := by
  rw [collect]
  induction alive.card with
  | zero => exact Finset.Subset.refl alive
  | succ count ih =>
      rw [Function.iterate_succ_apply']
      exact (release_subset _).trans ih

theorem supported_collect : Supported roots holds (collect roots holds alive) :=
  supported_iff_release_eq.mpr (iterate_fixed_of_card_le release_subset le_rfl)

/-- What an object that is left holds is left as well. -/
theorem mem_collect_of_held (howner : owner ∈ collect roots holds alive) (hheld : item ∈ holds owner)
    (hitem : item ∈ alive) : item ∈ collect roots holds alive := by
  have hgrown : Supported roots holds (insert item (collect roots holds alive)) :=
    supported_collect.insert (Or.inr ⟨owner, howner, hheld⟩)
  have hsub : insert item (collect roots holds alive) ⊆ alive :=
    Finset.insert_subset hitem collect_subset
  exact hgrown.subset_collect hsub (Finset.mem_insert_self item _)

theorem mem_collect_of_root (hroot : item ∈ roots) (hitem : item ∈ alive) :
    item ∈ collect roots holds alive := by
  have hgrown : Supported roots holds (insert item (collect roots holds alive)) :=
    supported_collect.insert (Or.inl hroot)
  have hsub : insert item (collect roots holds alive) ⊆ alive :=
    Finset.insert_subset hitem collect_subset
  exact hgrown.subset_collect hsub (Finset.mem_insert_self item _)

end CProxy.Foundation
