import CProxy.Foundation.KeyedMap
import Mathlib.Data.List.Enum

/-! # Names that are issued

A map into which every issued name is put for its value, by an insertion that leaves an
entry that is there already. Names lead to the values they were issued for exactly as long
as no name is issued that is in the map.
-/

namespace CProxy.Foundation

universe u v

variable {κ : Type u} {ν : Type v}

/-- Every name in the map has been issued. -/
def Covers (map : AList fun _ : κ => ν) (issued : List (κ × ν)) : Prop :=
  ∀ name ∈ map, ∃ value, (name, value) ∈ issued

theorem covers_empty : Covers (∅ : AList fun _ : κ => ν) [] :=
  fun name hmem => absurd hmem (AList.notMem_empty name)

theorem zipIdx_concat (items : List κ) (item : κ) :
    (items ++ [item]).zipIdx = items.zipIdx ++ [(item, items.length)] := by
  simp [List.zipIdx_append]

variable [DecidableEq κ]

/-- Every issued name leads to its value. -/
def Routes (map : AList fun _ : κ => ν) (issued : List (κ × ν)) : Prop :=
  ∀ name value, (name, value) ∈ issued → map.lookup name = some value

variable {map : AList fun _ : κ => ν} {issued : List (κ × ν)} {name : κ} {value : ν}

theorem routes_empty : Routes (∅ : AList fun _ : κ => ν) [] := by
  intro name value hmem
  cases hmem

theorem Routes.mem (hroutes : Routes map issued) (hissued : (name, value) ∈ issued) :
    name ∈ map :=
  AList.lookup_isSome.mp (by rw [hroutes name value hissued]; rfl)

theorem Covers.emplace (hcovers : Covers map issued) (name : κ) (value : ν) :
    Covers (emplace map name value) (issued ++ [(name, value)]) := by
  intro found hfound
  rcases mem_emplace.mp hfound with rfl | hbefore
  · exact ⟨value, List.mem_append_right _ (List.mem_singleton_self _)⟩
  · obtain ⟨held, hheld⟩ := hcovers found hbefore
    exact ⟨held, List.mem_append_left _ hheld⟩

/-- A name that is not in the map may be issued. -/
theorem Routes.emplace (hroutes : Routes map issued) (hname : name ∉ map) (value : ν) :
    Routes (emplace map name value) (issued ++ [(name, value)]) := by
  rw [emplace_of_notMem hname]
  intro found held hissued
  rcases List.mem_append.mp hissued with hbefore | hnew
  · have hne : found ≠ name := by
      rintro rfl
      exact hname (hroutes.mem hbefore)
    rw [AList.lookup_insert_ne hne]
    exact hroutes found held hbefore
  · obtain ⟨rfl, rfl⟩ := Prod.mk.inj (List.mem_singleton.mp hnew)
    exact AList.lookup_insert map

end CProxy.Foundation
