import Mathlib.Data.Finset.Erase
import Mathlib.Data.Finset.Insert

/-! # A snapshot that is worked through

A loop fixes some of its items and takes them one after the other, while items may be
removed from the loop. Nothing is taken that was removed since the snapshot was made
exactly as long as no pending item is removed.
-/

namespace CProxy.Foundation

universe u

/-- `removed` is history: the items removed since the snapshot was made. -/
structure Snapshot (α : Type u) where
  live : Finset α := ∅
  pending : List α := []
  removed : Finset α := ∅

namespace Snapshot

variable {α : Type u}

def fix (s : Snapshot α) (items : List α) : Snapshot α :=
  { s with pending := items, removed := ∅ }

/-- The next item, and what is pending behind it. -/
def take (s : Snapshot α) : Option (α × Snapshot α) :=
  match s.pending with
  | [] => none
  | item :: rest => some (item, { s with pending := rest })

/-- No pending item has been removed. -/
def Clean (s : Snapshot α) : Prop := ∀ item ∈ s.pending, item ∉ s.removed

section Change

variable [DecidableEq α]

def add (s : Snapshot α) (item : α) : Snapshot α := { s with live := insert item s.live }

def remove (s : Snapshot α) (item : α) : Snapshot α :=
  { s with live := s.live.erase item, removed := insert item s.removed }

@[simp] theorem remove_pending (s : Snapshot α) (item : α) :
    (s.remove item).pending = s.pending := rfl

@[simp] theorem clean_add (s : Snapshot α) (item : α) : (s.add item).Clean ↔ s.Clean := Iff.rfl

@[simp] theorem clean_remove (s : Snapshot α) (item : α) :
    (s.remove item).Clean ↔ s.Clean ∧ item ∉ s.pending := by
  constructor
  · intro hclean
    refine ⟨?_, ?_⟩
    · intro other hother hremoved
      exact hclean other hother (Finset.mem_insert_of_mem hremoved)
    · intro hitem
      exact hclean item hitem (Finset.mem_insert_self item s.removed)
  · rintro ⟨hclean, hitem⟩ other hother hremoved
    rcases Finset.mem_insert.mp hremoved with rfl | hbefore
    · exact hitem hother
    · exact hclean other hother hbefore

end Change

theorem clean_of_pending_nil {s : Snapshot α} (hnil : s.pending = []) : s.Clean := by
  intro item hitem
  rw [hnil] at hitem
  cases hitem

theorem clean_fix (s : Snapshot α) (items : List α) : (s.fix items).Clean :=
  fun item _ => Finset.notMem_empty item

theorem take_eq_some {s s' : Snapshot α} {item : α} :
    s.take = some (item, s') ↔
      ∃ rest, s.pending = item :: rest ∧ s' = { s with pending := rest } := by
  unfold take
  cases s.pending with
  | nil => simp
  | cons head rest => simp [eq_comm]

/-- Taking an item that has not been removed neither makes nor mends a fault. -/
theorem clean_take {s s' : Snapshot α} {item : α} (htake : s.take = some (item, s'))
    (hitem : item ∉ s.removed) : s'.Clean ↔ s.Clean := by
  obtain ⟨rest, hpending, rfl⟩ := take_eq_some.mp htake
  unfold Clean
  rw [hpending, List.forall_mem_cons]
  exact (and_iff_right hitem).symm

theorem Clean.notMem_removed {s s' : Snapshot α} {item : α} (hclean : s.Clean)
    (htake : s.take = some (item, s')) : item ∉ s.removed := by
  obtain ⟨rest, hpending, -⟩ := take_eq_some.mp htake
  apply hclean item
  rw [hpending]
  exact List.mem_cons_self

end Snapshot

end CProxy.Foundation
