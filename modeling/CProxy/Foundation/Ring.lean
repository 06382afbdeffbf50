import Mathlib.Data.List.Basic
import Mathlib.Data.Nat.ModEq
import Mathlib.Tactic.Common

/-! # Items in a ring of cells

A list of cells is used as a ring: what is behind the last cell is the first one
again. The cells from a start on hold a list of items; the cells that hold none
may never have been written.
-/

namespace CProxy.Foundation.Ring

universe u

variable {α : Type u}

/-- The cells from `start` on hold `items`, around the end of the list. -/
def Holds (cells : List (Option α)) (start : Nat) (items : List α) : Prop :=
  ∀ i item, items[i]? = some item → cells[(start + i) % cells.length]? = some (some item)

variable {cells : List (Option α)} {start count size first second : Nat} {items : List α}
  {item : α}

/-- Within one turn of the ring no cell is met twice. -/
theorem slot_ne (hfirst : first < second) (hsecond : second < size) (start : Nat) :
    (start + first) % size ≠ (start + second) % size := by
  intro heq
  have hsame : first ≡ second [MOD size] := Nat.ModEq.add_left_cancel' start heq
  rw [Nat.ModEq, Nat.mod_eq_of_lt (hfirst.trans hsecond), Nat.mod_eq_of_lt hsecond] at hsame
  exact hfirst.ne hsame

theorem slot_lt (hsize : 0 < size) (index : Nat) : index % size < size := Nat.mod_lt index hsize

/-- The distance from a place in the ring to the one `count` cells on, from the
two places alone. -/
theorem distance_eq (hstart : start < size) (hcount : count < size) :
    (if (start + count) % size ≥ start then (start + count) % size - start
      else (size - start) + (start + count) % size) = count := by
  by_cases hwrap : start + count < size
  · rw [Nat.mod_eq_of_lt hwrap, if_pos (Nat.le_add_right start count)]
    exact Nat.add_sub_cancel_left start count
  · have hmod : (start + count) % size = start + count - size := by
      rw [Nat.mod_eq_sub_mod (by omega), Nat.mod_eq_of_lt (by omega)]
    rw [hmod, if_neg (by omega)]
    omega

theorem holds_nil (cells : List (Option α)) (start : Nat) : Holds cells start [] := by
  intro i item hitem
  simp at hitem

theorem holds_mod : Holds cells (start % cells.length) items ↔ Holds cells start items := by
  simp only [Holds, Nat.mod_add_mod]

namespace Holds

/-- What is left once the oldest items are given up. -/
theorem drop (hholds : Holds cells start items) (count : Nat) :
    Holds cells (start + count) (items.drop count) := by
  intro i item hitem
  rw [List.getElem?_drop] at hitem
  rw [Nat.add_assoc]
  exact hholds (count + i) item hitem

/-- An item stored behind the others. -/
theorem append (hholds : Holds cells start items) (hroom : items.length < cells.length)
    (item : α) :
    Holds (cells.set ((start + items.length) % cells.length) (some item)) start
      (items ++ [item]) := by
  intro i found hfound
  rw [List.length_set]
  have hsize : 0 < cells.length := Nat.zero_lt_of_lt hroom
  rcases Nat.lt_trichotomy i items.length with hlt | rfl | hgt
  · rw [List.getElem?_append_left hlt] at hfound
    rw [List.getElem?_set_ne (slot_ne hlt hroom start).symm]
    exact hholds i found hfound
  · rw [List.getElem?_append_right (le_refl _), Nat.sub_self] at hfound
    obtain rfl : item = found := by simpa using hfound
    exact List.getElem?_set_self (slot_lt hsize _)
  · have hnone : (items ++ [item])[i]? = none := by
      apply List.getElem?_eq_none
      rw [List.length_append, List.length_singleton]
      exact hgt
    rw [hnone] at hfound
    cases hfound

/-- Items laid out from the first cell on. -/
theorem of_front (items : List α) (spare : List (Option α)) :
    Holds (items.map some ++ spare) 0 items := by
  intro i item hitem
  have hlt : i < items.length := (List.getElem?_eq_some_iff.mp hitem).1
  have hfront : (0 + i) % (items.map some ++ spare).length = i := by
    rw [Nat.zero_add]
    apply Nat.mod_eq_of_lt
    rw [List.length_append, List.length_map]
    exact Nat.lt_add_right _ hlt
  rw [hfront, List.getElem?_append_left (by simpa using hlt), List.getElem?_map, hitem]
  rfl

/-- Up to the end of the list the items lie in one piece. -/
theorem take_drop (hholds : Holds cells start items) (hcount : count ≤ items.length)
    (hend : start + count ≤ cells.length) :
    (cells.drop start).take count = (items.take count).map some := by
  apply List.ext_getElem?
  intro i
  rw [List.getElem?_take, List.getElem?_map, List.getElem?_take]
  by_cases hi : i < count
  · have hitem : items[i]? = some items[i] := List.getElem?_eq_getElem (hi.trans_le hcount)
    have hcell := hholds i _ hitem
    rw [Nat.mod_eq_of_lt (by omega)] at hcell
    rw [if_pos hi, if_pos hi, List.getElem?_drop, hcell, hitem]
    rfl
  · rw [if_neg hi, if_neg hi]
    rfl

end Holds

end CProxy.Foundation.Ring
