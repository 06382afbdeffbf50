import Mathlib.Data.List.Infix
import Mathlib.Data.List.TakeWhile

/-! # Bytes of a block of memory

Writes and reads at offsets of a block whose other bytes may be anything. `none` stands
for an access outside the block.
-/

namespace CProxy.Foundation

/-- The characters of a NUL-terminated string. -/
structure CString where
  chars : List UInt8
  noNul : ∀ char ∈ chars, char ≠ 0
  deriving DecidableEq

namespace Memory

/-- The bytes stand at the offset. -/
def Holds (block : List UInt8) (offset : Nat) (bytes : List UInt8) : Prop :=
  bytes <+: block.drop offset

def store (block : List UInt8) (offset : Nat) (bytes : List UInt8) : Option (List UInt8) :=
  if offset + bytes.length ≤ block.length then
    some (block.take offset ++ bytes ++ block.drop (offset + bytes.length))
  else none

def load (block : List UInt8) (offset width : Nat) : Option (List UInt8) :=
  if offset + width ≤ block.length then some ((block.drop offset).take width) else none

/-- The characters and the NUL behind them. -/
def strcpy (block : List UInt8) (offset : Nat) (text : CString) : Option (List UInt8) :=
  store block offset (text.chars ++ [0])

/-- The characters up to the first NUL. -/
def readString (block : List UInt8) (offset : Nat) : Option CString :=
  if offset + ((block.drop offset).takeWhile (· ≠ 0)).length < block.length then
    some {
      chars := (block.drop offset).takeWhile (· ≠ 0)
      noNul := by
        intro char hchar
        simpa using List.mem_takeWhile_imp hchar }
  else none

variable {block next bytes other : List UInt8} {offset at' : Nat} {text : CString}

theorem store_eq_none : store block offset bytes = none ↔ block.length < offset + bytes.length := by
  simp [store]

theorem exists_store (hfits : offset + bytes.length ≤ block.length) :
    ∃ next, store block offset bytes = some next :=
  ⟨_, if_pos hfits⟩

theorem store_length (hstore : store block offset bytes = some next) :
    next.length = block.length := by
  unfold store at hstore
  split at hstore
  · next hfits =>
      obtain rfl := Option.some.inj hstore
      simp only [List.length_append, List.length_take, List.length_drop]
      omega
  · cases hstore

/-- The written bytes are there. -/
theorem holds_store (hstore : store block offset bytes = some next) : Holds next offset bytes := by
  unfold store at hstore
  split at hstore
  · next hfits =>
      obtain rfl := Option.some.inj hstore
      have htake : (block.take offset).length = offset := List.length_take_of_le (by omega)
      rw [Holds, List.append_assoc, List.drop_left' htake]
      exact List.prefix_append _ _
  · cases hstore

/-- Bytes apart from the written ones stay. -/
theorem Holds.store (hholds : Holds block at' other)
    (hapart : at' + other.length ≤ offset ∨ offset + bytes.length ≤ at')
    (hstore : store block offset bytes = some next) : Holds next at' other := by
  unfold Memory.store at hstore
  split at hstore
  · next hfits =>
      obtain rfl := Option.some.inj hstore
      unfold Holds at *
      rw [List.prefix_iff_getElem?] at *
      intro i hi
      rw [← hholds i hi, List.getElem?_drop, List.getElem?_drop]
      have htake : (block.take offset).length = offset := List.length_take_of_le (by omega)
      rcases hapart with hbefore | hbehind
      · rw [List.append_assoc, List.getElem?_append_left (by omega),
          List.getElem?_take_of_lt (by omega)]
      · rw [List.getElem?_append_right (by rw [List.length_append]; omega),
          List.getElem?_drop, List.length_append, htake]
        congr 1
        omega
  · cases hstore

theorem Holds.load (hholds : Holds block offset bytes) (hpos : bytes ≠ []) :
    load block offset bytes.length = some bytes := by
  have hlength := hholds.length_le
  rw [List.length_drop] at hlength
  have hsome : 0 < bytes.length := List.length_pos_iff.mpr hpos
  rw [Memory.load, if_pos (by omega), ← List.prefix_iff_eq_take.mp hholds]

/-- A string that stands in the block is read back, whatever is behind it. -/
theorem Holds.readString (hholds : Holds block offset (text.chars ++ [0])) :
    readString block offset = some text := by
  obtain ⟨rest, hrest⟩ := hholds
  have hchars : (block.drop offset).takeWhile (· ≠ 0) = text.chars := by
    rw [← hrest, List.append_assoc, List.takeWhile_append_of_pos (by simpa using text.noNul)]
    simp
  have hlength := congrArg List.length hrest
  simp only [List.length_append, List.length_drop, List.length_singleton] at hlength
  unfold Memory.readString
  rw [if_pos (by rw [hchars]; omega), Option.some.injEq]
  cases text
  exact (CString.mk.injEq _ _ _ _).mpr hchars

theorem readString_strcpy (hcopy : strcpy block offset text = some next) :
    readString next offset = some text :=
  (holds_store hcopy).readString

end Memory

end CProxy.Foundation
