import Mathlib.Data.List.AList

/-! # Maps that know the key of each value

A map from keys to values in which every value sits under a key of its own,
with an insertion that leaves an entry that is there already.
-/

namespace CProxy.Foundation

universe u v

section Emplace

variable {κ : Type u} {ν : Type v} [DecidableEq κ]

/-- Insertion without overwriting. -/
def emplace (map : AList fun _ : κ => ν) (key : κ) (value : ν) : AList fun _ : κ => ν :=
  if key ∈ map then map else map.insert key value

/-- Every entry has the key that belongs to its value. -/
def KeyedBy (name : ν → κ) (map : AList fun _ : κ => ν) : Prop :=
  ∀ key value, map.lookup key = some value → key = name value

variable {name : ν → κ} {map : AList fun _ : κ => ν} {key : κ} {value : ν}

theorem emplace_of_mem (hkey : key ∈ map) : emplace map key value = map := if_pos hkey

theorem emplace_of_notMem (hkey : key ∉ map) (value : ν) :
    emplace map key value = map.insert key value := if_neg hkey

theorem lookup_of_emplace {found : κ} {held : ν}
    (hlookup : (emplace map key value).lookup found = some held) :
    map.lookup found = some held ∨ found = key ∧ held = value := by
  by_cases hkey : key ∈ map
  · rw [emplace_of_mem hkey] at hlookup
    exact Or.inl hlookup
  · rw [emplace_of_notMem hkey] at hlookup
    by_cases hsame : found = key
    · rw [hsame, AList.lookup_insert, Option.some.injEq] at hlookup
      exact Or.inr ⟨hsame, hlookup.symm⟩
    · rw [AList.lookup_insert_ne hsame] at hlookup
      exact Or.inl hlookup

theorem mem_emplace {found : κ} : found ∈ emplace map key value ↔ found = key ∨ found ∈ map := by
  by_cases hkey : key ∈ map
  · rw [emplace_of_mem hkey]
    constructor
    · exact Or.inr
    · rintro (rfl | hfound)
      · exact hkey
      · exact hfound
  · rw [emplace_of_notMem hkey, AList.mem_insert]

/-- Insertion and removal under different keys commute. -/
theorem erase_emplace {other : κ} (hother : other ≠ key) :
    (emplace map key value).erase other = emplace (map.erase other) key value := by
  by_cases hkey : key ∈ map
  · rw [emplace_of_mem hkey, emplace_of_mem (AList.mem_erase.mpr ⟨Ne.symm hother, hkey⟩)]
  · have hgone : key ∉ map.erase other := fun hmem => hkey (AList.mem_erase.mp hmem).2
    rw [emplace_of_notMem hkey, emplace_of_notMem hgone]
    apply AList.ext
    rw [AList.entries_insert_of_notMem hgone]
    change List.kerase other (map.insert key value).entries = _
    rw [AList.entries_insert_of_notMem hkey, List.kerase_cons_ne hother]
    rfl

theorem KeyedBy.empty : KeyedBy name (∅ : AList fun _ : κ => ν) := by
  intro key value hlookup
  simp at hlookup

theorem KeyedBy.emplace (hkeyed : KeyedBy name map) (hkey : key = name value) :
    KeyedBy name (emplace map key value) := by
  intro found held hlookup
  rcases lookup_of_emplace hlookup with hbefore | ⟨rfl, rfl⟩
  · exact hkeyed found held hbefore
  · exact hkey

theorem lookup_of_erase {found : κ} (hlookup : (map.erase key).lookup found = some value) :
    map.lookup found = some value := by
  by_cases hsame : found = key
  · subst hsame
    simp at hlookup
  · rwa [AList.lookup_erase_ne hsame] at hlookup

theorem KeyedBy.erase (hkeyed : KeyedBy name map) : KeyedBy name (map.erase key) :=
  fun found held hlookup => hkeyed found held (lookup_of_erase hlookup)

theorem KeyedBy.mem_iff (hkeyed : KeyedBy name map) (hname : Function.Injective name) :
    name value ∈ map ↔ map.lookup (name value) = some value := by
  rw [← AList.lookup_isSome, Option.isSome_iff_exists]
  constructor
  · rintro ⟨found, hfound⟩
    obtain rfl : value = found := hname (hkeyed _ _ hfound)
    exact hfound
  · exact fun hlookup => ⟨value, hlookup⟩

theorem mem_entries_iff : ⟨key, value⟩ ∈ map.entries ↔ map.lookup key = some value :=
  (List.mem_dlookup_iff map.nodupKeys).symm

/-! ## Maps with the law built in -/

/-- A map in which every value sits under its own key. -/
def KeyedMap (name : ν → κ) := { map : AList fun _ : κ => ν // KeyedBy name map }

namespace KeyedMap

instance : EmptyCollection (KeyedMap name) := ⟨⟨∅, KeyedBy.empty⟩⟩

instance : Membership ν (KeyedMap name) := ⟨fun map value => map.1.lookup (name value) = some value⟩

instance [DecidableEq ν] (value : ν) (map : KeyedMap name) : Decidable (value ∈ map) :=
  inferInstanceAs (Decidable (map.1.lookup (name value) = some value))

def get (map : KeyedMap name) (key : κ) : Option ν := map.1.lookup key

/-- Leaves an entry that is there already. -/
def add (map : KeyedMap name) (value : ν) : KeyedMap name :=
  ⟨emplace map.1 (name value) value, map.2.emplace rfl⟩

def erase (map : KeyedMap name) (key : κ) : KeyedMap name := ⟨map.1.erase key, map.2.erase⟩

variable {map : KeyedMap name} {other : ν}

theorem mem_of_get (hget : map.get key = some value) : value ∈ map ∧ name value = key := by
  have hkey := map.2 key value hget
  rw [hkey] at hget
  exact ⟨hget, hkey.symm⟩

@[simp] theorem notMem_empty (value : ν) : value ∉ (∅ : KeyedMap name) := by
  intro hmem
  have hlookup : (∅ : AList fun _ : κ => ν).lookup (name value) = some value := hmem
  simp at hlookup

/-- With a key of its own for every value, all that is added is there. -/
theorem mem_add (hname : Function.Injective name) :
    other ∈ map.add value ↔ other = value ∨ other ∈ map := by
  constructor
  · intro hmem
    rcases lookup_of_emplace hmem with hbefore | ⟨_, rfl⟩
    · exact Or.inr hbefore
    · exact Or.inl rfl
  · rintro (rfl | hbefore)
    · exact ((map.add other).2.mem_iff hname).mp (mem_emplace.mpr (Or.inl rfl))
    · have hin : name other ∈ map.1 := (map.2.mem_iff hname).mpr hbefore
      exact ((map.add value).2.mem_iff hname).mp (mem_emplace.mpr (Or.inr hin))

theorem mem_erase (hname : Function.Injective name) :
    other ∈ map.erase (name value) ↔ other ≠ value ∧ other ∈ map := by
  constructor
  · intro hmem
    refine ⟨?_, lookup_of_erase hmem⟩
    rintro rfl
    have hgone : (map.1.erase (name other)).lookup (name other) = some other := hmem
    simp at hgone
  · rintro ⟨hother, hmem⟩
    have hne : name other ≠ name value := fun heq => hother (hname heq)
    exact (AList.lookup_erase_ne hne).trans hmem

end KeyedMap

end Emplace

/-! ## How often a value occurs -/

variable {κ : Type u} {ν : Type v} [DecidableEq κ] [DecidableEq ν]

def occurrences (map : AList fun _ : κ => ν) (value : ν) : Nat :=
  (map.entries.map Sigma.snd).count value

variable {name : ν → κ} {map : AList fun _ : κ => ν} {key : κ} {value other : ν}

theorem occurrences_pos_iff : 0 < occurrences map value ↔ ∃ key, map.lookup key = some value := by
  rw [occurrences, List.count_pos_iff, List.mem_map]
  constructor
  · rintro ⟨⟨key, found⟩, hmem, rfl⟩
    exact ⟨key, mem_entries_iff.mp hmem⟩
  · rintro ⟨key, hlookup⟩
    exact ⟨⟨key, value⟩, mem_entries_iff.mpr hlookup, rfl⟩

theorem occurrences_insert (hkey : key ∉ map) :
    occurrences (map.insert key value) other =
      occurrences map other + if value = other then 1 else 0 := by
  rw [occurrences, AList.entries_insert_of_notMem hkey, List.map_cons, List.count_cons]
  simp [occurrences]

theorem occurrences_erase (hlookup : map.lookup key = some value) (other : ν) :
    occurrences (map.erase key) other + (if value = other then 1 else 0) =
      occurrences map other := by
  have hkey : key ∈ map.entries.keys := by
    rw [← AList.keys, ← AList.mem_keys, ← AList.lookup_isSome, hlookup]
    rfl
  obtain ⟨found, before, after, hbefore, hentries, herased⟩ := List.exists_of_kerase hkey
  have hfound : found = value := by
    have hmem : (⟨key, found⟩ : Sigma fun _ : κ => ν) ∈ map.entries := by
      rw [hentries]
      simp
    rw [mem_entries_iff, hlookup, Option.some.injEq] at hmem
    exact hmem.symm
  subst hfound
  have hrest : (map.erase key).entries = before ++ after := herased
  simp only [occurrences, hentries, hrest, List.map_append, List.count_append, List.map_cons,
    List.count_cons, beq_iff_eq]
  omega

namespace KeyedBy

theorem occurrences_pos (hkeyed : KeyedBy name map) (value : ν) :
    0 < occurrences map value ↔ map.lookup (name value) = some value := by
  rw [occurrences_pos_iff]
  constructor
  · rintro ⟨key, hlookup⟩
    rw [← hkeyed key value hlookup]
    exact hlookup
  · exact fun hlookup => ⟨name value, hlookup⟩

/-- With a key for every value, a map holds a value at most once. -/
theorem occurrences_eq (hkeyed : KeyedBy name map) (value : ν) :
    occurrences map value = if map.lookup (name value) = some value then 1 else 0 := by
  split
  · next hlookup =>
      have herased := Foundation.occurrences_erase hlookup value
      have hgone : ¬ 0 < occurrences (map.erase (name value)) value := by
        rw [hkeyed.erase.occurrences_pos]
        simp
      simp only [if_true] at herased
      omega
  · next hlookup =>
      have hnone := mt (hkeyed.occurrences_pos value).mp hlookup
      omega

theorem occurrences_emplace (hkeyed : KeyedBy name map) (hname : Function.Injective name) :
    occurrences (Foundation.emplace map (name value) value) other =
      if value = other then 1 else occurrences map other := by
  rw [(hkeyed.emplace rfl).occurrences_eq, hkeyed.occurrences_eq]
  by_cases hsame : value = other
  · subst hsame
    rw [if_pos ((hkeyed.emplace rfl).mem_iff hname |>.mp (mem_emplace.mpr (Or.inl rfl)))]
    simp
  · have hne : name other ≠ name value := fun heq => hsame (hname heq).symm
    rw [if_neg hsame]
    by_cases hkey : name value ∈ map
    · rw [emplace_of_mem hkey]
    · rw [emplace_of_notMem hkey, AList.lookup_insert_ne hne]

theorem occurrences_erase (hkeyed : KeyedBy name map) (hname : Function.Injective name) :
    occurrences (map.erase (name value)) other =
      if value = other then 0 else occurrences map other := by
  rw [hkeyed.erase.occurrences_eq, hkeyed.occurrences_eq]
  by_cases hsame : value = other
  · subst hsame
    simp
  · rw [if_neg hsame, AList.lookup_erase_ne (fun heq => hsame (hname heq).symm)]

end KeyedBy

end CProxy.Foundation
