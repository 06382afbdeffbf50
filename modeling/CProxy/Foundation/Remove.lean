import Mathlib.Data.List.Basic

/-! # Removal that leaves the length

`std::remove` moves the items it keeps to the front of a vector of pointers and
returns where they end. Nothing is erased: behind them stand null pointers, which
`none` is here, from what has been moved, and values that were to be removed.
-/

namespace CProxy.Foundation

universe u

variable {α : Type u} [DecidableEq α]

/-- The loop of `std::remove`: `front` is written, `rest` is to be read, and `gap` lies
between the two places. -/
def removeLoop (value : Option α) (front gap : List (Option α)) :
    List (Option α) → List (Option α)
  | [] => front ++ gap
  | item :: rest =>
      if item = value then removeLoop value front (gap ++ [item]) rest
      else
        match gap with
        -- before the first value to be removed nothing moves
        | [] => removeLoop value (front ++ [item]) [] rest
        | _ :: gap => removeLoop value (front ++ [item]) (gap ++ [none]) rest

/-- `std::remove`. -/
def remove (value : Option α) (items : List (Option α)) : List (Option α) :=
  removeLoop value [] [] items

variable {value : Option α}

/-- The items that are kept come first, in their order, and as many follow as there
were to be removed. -/
theorem removeLoop_eq {gap : List (Option α)} (hgap : ∀ item ∈ gap, item = none ∨ item = value)
    (front rest : List (Option α)) :
    ∃ tail, removeLoop value front gap rest = front ++ rest.filter (· ≠ value) ++ tail ∧
      tail.length = gap.length + rest.count value ∧
        ∀ item ∈ tail, item = none ∨ item = value := by
  induction rest generalizing front gap with
  | nil => exact ⟨gap, by simp [removeLoop], by simp, hgap⟩
  | cons item rest ih =>
      unfold removeLoop
      by_cases hitem : item = value
      · have hgrown : ∀ found ∈ gap ++ [item], found = none ∨ found = value := by
          intro found hfound
          rcases List.mem_append.mp hfound with hbefore | hnew
          · exact hgap found hbefore
          · exact Or.inr ((List.mem_singleton.mp hnew).trans hitem)
        obtain ⟨tail, hloop, hlength, htail⟩ := ih hgrown front
        refine ⟨tail, ?_, ?_, htail⟩
        · rw [if_pos hitem, hloop, List.filter_cons_of_neg (by simp [hitem])]
        · rw [hlength, hitem, List.count_cons_self, List.length_append, List.length_singleton]
          omega
      · rw [if_neg hitem, List.filter_cons_of_pos (by simp [hitem]), List.count_cons_of_ne hitem]
        cases gap with
        | nil =>
            obtain ⟨tail, hloop, hlength, htail⟩ := ih hgap (front ++ [item])
            exact ⟨tail, by simp [hloop], hlength, htail⟩
        | cons first others =>
            have hmoved : ∀ found ∈ others ++ [none], found = none ∨ found = value := by
              intro found hfound
              rcases List.mem_append.mp hfound with hbefore | hnew
              · exact hgap found (List.mem_cons_of_mem _ hbefore)
              · exact Or.inl (List.mem_singleton.mp hnew)
            obtain ⟨tail, hloop, hlength, htail⟩ := ih hmoved (front ++ [item])
            refine ⟨tail, by simp [hloop], ?_, htail⟩
            rw [hlength, List.length_append, List.length_singleton, List.length_cons]

theorem remove_eq (value : Option α) (items : List (Option α)) :
    ∃ tail, remove value items = items.filter (· ≠ value) ++ tail ∧
      tail.length = items.count value ∧ ∀ item ∈ tail, item = none ∨ item = value := by
  obtain ⟨tail, hloop, hlength, htail⟩ := @removeLoop_eq α _ value [] nofun [] items
  rw [List.length_nil, Nat.zero_add] at hlength
  exact ⟨tail, hloop, hlength, htail⟩

/-- No pointer appears that was not there. -/
theorem mem_of_mem_remove {items : List (Option α)} {item : Option α}
    (hmem : item ∈ remove value items) (hitem : item ≠ none) : item ∈ items := by
  obtain ⟨tail, hremove, hlength, htail⟩ := remove_eq value items
  rw [hremove, List.mem_append] at hmem
  rcases hmem with hkept | hin
  · exact List.mem_of_mem_filter hkept
  · obtain rfl := (htail item hin).resolve_left hitem
    rw [← List.count_pos_iff, ← hlength]
    exact List.length_pos_of_mem hin

/-- Only when there is nothing to remove is the vector left as it should be. -/
theorem remove_eq_filter_iff {items : List (Option α)} :
    remove value items = items.filter (· ≠ value) ↔ value ∉ items := by
  obtain ⟨tail, hremove, hlength, _⟩ := remove_eq value items
  rw [hremove, List.append_right_eq_self, ← List.length_eq_zero_iff, hlength,
    List.count_eq_zero]

/-- A value that stands at the back only stays there. -/
theorem remove_concat {items : List (Option α)} (hitems : value ∉ items) :
    remove value (items ++ [value]) = items ++ [value] := by
  suffices hloop : ∀ front, removeLoop value front [] (items ++ [value]) =
      front ++ items ++ [value] from hloop []
  intro front
  induction items generalizing front with
  | nil => simp [removeLoop]
  | cons item rest ih =>
      rw [List.mem_cons, not_or] at hitems
      rw [List.cons_append, removeLoop, if_neg (Ne.symm hitems.1), ih hitems.2]
      simp

theorem removeLoop_moved {rest : List (Option α)} (hrest : value ∉ rest)
    (front : List (Option α)) : removeLoop value front [none] rest = front ++ rest ++ [none] := by
  induction rest generalizing front with
  | nil => simp [removeLoop]
  | cons item rest ih =>
      rw [List.mem_cons, not_or] at hrest
      rw [removeLoop, if_neg (Ne.symm hrest.1), List.nil_append, ih hrest.2]
      simp

/-- A value that stands further on is overwritten, and a null pointer stays at the back. -/
theorem remove_append_cons {items rest : List (Option α)} {next : Option α} (hitems : value ∉ items)
    (hnext : next ≠ value) (hrest : value ∉ rest) :
    remove value (items ++ value :: next :: rest) = items ++ next :: rest ++ [none] := by
  suffices hloop : ∀ front, removeLoop value front [] (items ++ value :: next :: rest) =
      front ++ items ++ next :: rest ++ [none] from hloop []
  intro front
  induction items generalizing front with
  | nil =>
      rw [List.nil_append, removeLoop, if_pos rfl, List.nil_append, removeLoop, if_neg hnext,
        List.nil_append, removeLoop_moved hrest]
      simp
  | cons item others ih =>
      rw [List.mem_cons, not_or] at hitems
      rw [List.cons_append, removeLoop, if_neg (Ne.symm hitems.1), ih hitems.2]
      simp

/-- A value that occurs once is left exactly when it stands at the back. -/
theorem mem_remove_iff {items : List (Option α)} (hnodup : items.Nodup) (hvalue : value ≠ none) :
    value ∈ remove value items ↔ items.getLast? = some value := by
  by_cases hmem : value ∈ items
  · obtain ⟨before, after, rfl⟩ := List.append_of_mem hmem
    obtain ⟨_, hafter, hapart⟩ := List.nodup_append.mp hnodup
    have hbefore : value ∉ before := fun hin => hapart value hin value List.mem_cons_self rfl
    cases after with
    | nil => simp [remove_concat hbefore]
    | cons next rest =>
        obtain ⟨hfirst, _⟩ := List.nodup_cons.mp hafter
        rw [List.mem_cons, not_or] at hfirst
        have hlast : (before ++ value :: next :: rest).getLast? = (next :: rest).getLast? := by
          rw [List.getLast?_append_cons, List.getLast?_cons_cons]
        rw [remove_append_cons hbefore (Ne.symm hfirst.1) hfirst.2, hlast]
        constructor
        · intro hkept
          simp [hbefore, hfirst.1, hfirst.2, hvalue] at hkept
        · intro hback
          have hin := List.mem_of_getLast? hback
          simp [hfirst.1, hfirst.2] at hin
  · rw [remove_eq_filter_iff.mpr hmem]
    constructor
    · intro hkept
      exact absurd (List.mem_of_mem_filter hkept) hmem
    · intro hback
      exact absurd (List.mem_of_getLast? hback) hmem

theorem remove_of_getLast? {items : List (Option α)} (hnodup : items.Nodup)
    (hback : value ∈ items → items.getLast? = some value) : remove value items = items := by
  by_cases hmem : value ∈ items
  · obtain ⟨rest, rfl⟩ := List.getLast?_eq_some_iff.mp (hback hmem)
    obtain ⟨_, _, hapart⟩ := List.nodup_append.mp hnodup
    exact remove_concat fun hin => hapart value hin value (List.mem_singleton.mpr rfl) rfl
  · rw [remove_eq_filter_iff.mpr hmem, List.filter_eq_self]
    intro item hitem
    simpa using fun heq : item = value => hmem (heq ▸ hitem)

end CProxy.Foundation
