import CProxy.Foundation.KeyedMap
import Mathlib.Logic.Function.Basic

/-! # A table in buckets

The bucket of an entry is found from its key. The table is said to hold a partial
assignment of keys to items when each item that has a key is in the bucket of its key, and
nothing else is in the buckets.
-/

namespace CProxy.Foundation

universe u v w

variable {ι : Type u} {κ : Type v} {β : Type w} [DecidableEq κ]

def Bucketed (bucketOf : κ → ι) (table : ι → AList fun _ : κ => β) (keyOf : β → Option κ) : Prop :=
  ∀ bucket key item, (table bucket).lookup key = some item ↔
    bucket = bucketOf key ∧ keyOf item = some key

namespace Bucketed

variable {bucketOf : κ → ι} {table : ι → AList fun _ : κ => β} {keyOf keyOf' : β → Option κ}
variable {key : κ} {item : β}

theorem empty : Bucketed bucketOf (fun _ => ∅) (fun _ : β => none) := by
  intro bucket key item
  simp

/-- Two items have two keys. -/
theorem injective (hbucketed : Bucketed bucketOf table keyOf) {other : β}
    (hitem : keyOf item = some key) (hother : keyOf other = some key) : item = other := by
  have hfirst := (hbucketed (bucketOf key) key item).mpr ⟨rfl, hitem⟩
  have hsecond := (hbucketed (bucketOf key) key other).mpr ⟨rfl, hother⟩
  exact Option.some.inj (hfirst.symm.trans hsecond)

theorem congr (hbucketed : Bucketed bucketOf table keyOf)
    (hsame : ∀ item, keyOf' item = keyOf item) : Bucketed bucketOf table keyOf' := by
  intro bucket key item
  rw [hsame item]
  exact hbucketed bucket key item

variable [DecidableEq ι]

/-- An item gets a key that no item has. -/
theorem insert (hbucketed : Bucketed bucketOf table keyOf) (hnone : keyOf item = none)
    (hfree : ∀ other, keyOf other ≠ some key) (hself : keyOf' item = some key)
    (hothers : ∀ other, other ≠ item → keyOf' other = keyOf other) :
    Bucketed bucketOf
      (Function.update table (bucketOf key) (emplace (table (bucketOf key)) key item)) keyOf' := by
  have hnotMem : key ∉ table (bucketOf key) := by
    intro hmem
    obtain ⟨found, hfound⟩ := Option.isSome_iff_exists.mp (AList.lookup_isSome.mpr hmem)
    exact hfree found ((hbucketed _ key found).mp hfound).2
  intro bucket found other
  rw [emplace_of_notMem hnotMem]
  by_cases hnew : bucket = bucketOf key ∧ found = key
  · obtain ⟨rfl, rfl⟩ := hnew
    rw [Function.update_self, AList.lookup_insert, Option.some.injEq]
    constructor
    · rintro rfl
      exact ⟨rfl, hself⟩
    · rintro ⟨-, hother⟩
      by_contra hne
      exact hfree other ((hothers other (Ne.symm hne)).symm.trans hother)
  · have hold : (Function.update table (bucketOf key)
        ((table (bucketOf key)).insert key item) bucket).lookup found =
          (table bucket).lookup found := by
      by_cases hbucket : bucket = bucketOf key
      · subst hbucket
        rw [Function.update_self, AList.lookup_insert_ne fun hfound => hnew ⟨rfl, hfound⟩]
      · rw [Function.update_of_ne hbucket]
    rw [hold, hbucketed bucket found other]
    by_cases hitem : other = item
    · subst hitem
      rw [hnone, hself, Option.some.injEq]
      constructor
      · rintro ⟨-, hcases⟩
        cases hcases
      · rintro ⟨rfl, rfl⟩
        exact absurd ⟨rfl, rfl⟩ hnew
    · rw [hothers other hitem]

/-- An item gives up its key. -/
theorem erase (hbucketed : Bucketed bucketOf table keyOf) (hself : keyOf item = some key)
    (hnone : keyOf' item = none) (hothers : ∀ other, other ≠ item → keyOf' other = keyOf other) :
    Bucketed bucketOf
      (Function.update table (bucketOf key) ((table (bucketOf key)).erase key)) keyOf' := by
  intro bucket found other
  by_cases hgone : bucket = bucketOf key ∧ found = key
  · obtain ⟨rfl, rfl⟩ := hgone
    rw [Function.update_self, AList.lookup_erase]
    constructor
    · intro hcases
      cases hcases
    · rintro ⟨-, hother⟩
      by_cases hitem : other = item
      · rw [hitem, hnone] at hother
        cases hother
      · rw [hothers other hitem] at hother
        exact absurd (hbucketed.injective hother hself) hitem
  · have hold : (Function.update table (bucketOf key)
        ((table (bucketOf key)).erase key) bucket).lookup found = (table bucket).lookup found := by
      by_cases hbucket : bucket = bucketOf key
      · subst hbucket
        rw [Function.update_self, AList.lookup_erase_ne fun hfound => hgone ⟨rfl, hfound⟩]
      · rw [Function.update_of_ne hbucket]
    rw [hold, hbucketed bucket found other]
    by_cases hitem : other = item
    · subst hitem
      rw [hnone, hself, Option.some.injEq]
      constructor
      · rintro ⟨rfl, rfl⟩
        exact absurd ⟨rfl, rfl⟩ hgone
      · rintro ⟨-, hcases⟩
        cases hcases
    · rw [hothers other hitem]

end Bucketed

end CProxy.Foundation
