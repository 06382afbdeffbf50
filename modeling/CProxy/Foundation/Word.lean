import Mathlib.Algebra.Order.Ring.Nat
import Mathlib.Tactic.Ring

/-! # Fixed-width integers and their bytes

Two's-complement `int` and `u_int32_t` values are integers kept in range by
`int32` and `uint32`. A word is laid out in memory with its least significant
byte first; network order is the reverse.
-/

namespace CProxy.Foundation

/-- The value an `int` holds after a conversion or a wrapping computation. -/
def int32 (value : Int) : Int := (value + 2147483648) % 4294967296 - 2147483648

/-- The value a `u_int32_t` holds after a conversion. -/
def uint32 (value : Int) : Nat := (value % 4294967296).toNat

/-- `(size_t)-1`. -/
def sizeMax : Nat := 18446744073709551615

/-- The value a `size_t` holds after a conversion. -/
def sizeT (value : Int) : Nat := (value % (sizeMax + 1)).toNat

/-- The largest `int`. -/
def intMax : Int := 2147483647

theorem int32_of_range {value : Int} (hlow : -2147483648 ≤ value) (hhigh : value ≤ intMax) :
    int32 value = value := by
  unfold int32 intMax at *
  omega

theorem uint32_lt (value : Int) : uint32 value < 4294967296 := by
  unfold uint32
  omega

theorem uint32_of_range {value : Int} (hlow : 0 ≤ value) (hhigh : value < 4294967296) :
    (uint32 value : Int) = value := by
  unfold uint32
  omega

theorem sizeT_natCast {value : Nat} (hfits : value ≤ sizeMax) : sizeT value = value := by
  unfold sizeT sizeMax at *
  omega

/-! ## Bytes of a word -/

/-- The `width` low bytes of `value`, least significant first. -/
def leBytes : Nat → Nat → List UInt8
  | 0, _ => []
  | width + 1, value => UInt8.ofNat value :: leBytes width (value / 256)

def leValue : List UInt8 → Nat
  | [] => 0
  | byte :: rest => byte.toNat + 256 * leValue rest

/-- Network order: most significant byte first. -/
def beBytes (width value : Nat) : List UInt8 := (leBytes width value).reverse

def beValue (bytes : List UInt8) : Nat := leValue bytes.reverse

@[simp] theorem leBytes_length (width value : Nat) : (leBytes width value).length = width := by
  induction width generalizing value with
  | zero => rfl
  | succ width ih => simp [leBytes, ih]

@[simp] theorem beBytes_length (width value : Nat) : (beBytes width value).length = width := by
  simp [beBytes]

theorem leValue_leBytes (width value : Nat) (hfits : value < 256 ^ width) :
    leValue (leBytes width value) = value := by
  induction width generalizing value with
  | zero =>
      simp only [pow_zero, Nat.lt_one_iff] at hfits
      simp [leBytes, leValue, hfits]
  | succ width ih =>
      have hrest : value / 256 < 256 ^ width := by
        rw [pow_succ] at hfits
        omega
      have hbyte : (UInt8.ofNat value).toNat = value % 256 := by simp
      simp only [leBytes, leValue, ih _ hrest, hbyte]
      omega

theorem beValue_beBytes (width value : Nat) (hfits : value < 256 ^ width) :
    beValue (beBytes width value) = value := by
  simp [beValue, beBytes, leValue_leBytes width value hfits]

theorem leValue_append (low high : List UInt8) :
    leValue (low ++ high) = leValue low + 256 ^ low.length * leValue high := by
  induction low with
  | nil => simp [leValue]
  | cons byte rest ih =>
      simp only [List.cons_append, leValue, ih, List.length_cons, pow_succ]
      ring

theorem leValue_zeros (width : Nat) : leValue (List.replicate width 0) = 0 := by
  induction width with
  | zero => rfl
  | succ width ih => simp [List.replicate_succ, leValue, ih]

end CProxy.Foundation
