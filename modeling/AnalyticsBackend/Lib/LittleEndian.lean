import Mathlib.Data.List.Basic
import Mathlib.Data.List.GetD
import Mathlib.Algebra.Ring.Nat

/-!
# Little-endian numbers in bytes

Unsigned numbers of two and four bytes, the lowest byte first.
-/

namespace AnalyticsBackend.Lib

/-- A byte, zero past the end. -/
def byteAt (b : List UInt8) (i : Nat) : Nat := (b.getD i 0).toNat

def readUInt16LE (b : List UInt8) (i : Nat) : Nat := byteAt b i + 256 * byteAt b (i + 1)

def readUInt32LE (b : List UInt8) (i : Nat) : Nat := readUInt16LE b i + 65536 * readUInt16LE b (i + 2)

def uint16LE (n : Nat) : List UInt8 := [n.toUInt8, (n / 256).toUInt8]

def uint32LE (n : Nat) : List UInt8 := uint16LE n ++ uint16LE (n / 65536)

@[simp] theorem length_uint16LE (n : Nat) : (uint16LE n).length = 2 := rfl

@[simp] theorem length_uint32LE (n : Nat) : (uint32LE n).length = 4 := rfl

theorem byteAt_lt (b : List UInt8) (i : Nat) : byteAt b i < 256 := (b.getD i 0).toNat_lt

theorem byteAt_drop (b : List UInt8) (k i : Nat) : byteAt (b.drop k) i = byteAt b (k + i) := by
  simp [byteAt, List.getD_eq_getElem?_getD]

theorem byteAt_append {a : List UInt8} {i : Nat} (within : i < a.length) (b : List UInt8) :
    byteAt (a ++ b) i = byteAt a i := by
  simp [byteAt, List.getD_eq_getElem?_getD, List.getElem?_append_left within]

theorem byteAt_append_right (a b : List UInt8) (i : Nat) : byteAt (a ++ b) (a.length + i) = byteAt b i := by
  rw [byteAt, byteAt, List.getD_eq_getElem?_getD, List.getD_eq_getElem?_getD,
    List.getElem?_append_right (by omega), Nat.add_sub_cancel_left]

@[simp] theorem readUInt16LE_drop (b : List UInt8) (k i : Nat) :
    readUInt16LE (b.drop k) i = readUInt16LE b (k + i) := by
  unfold readUInt16LE
  rw [byteAt_drop, byteAt_drop, Nat.add_assoc]

@[simp] theorem readUInt32LE_drop (b : List UInt8) (k i : Nat) :
    readUInt32LE (b.drop k) i = readUInt32LE b (k + i) := by
  unfold readUInt32LE
  rw [readUInt16LE_drop, readUInt16LE_drop, Nat.add_assoc]

theorem readUInt16LE_append {a : List UInt8} {i : Nat} (within : i + 2 ≤ a.length) (b : List UInt8) :
    readUInt16LE (a ++ b) i = readUInt16LE a i := by
  unfold readUInt16LE
  rw [byteAt_append (by omega), byteAt_append (by omega)]

theorem readUInt32LE_append {a : List UInt8} {i : Nat} (within : i + 4 ≤ a.length) (b : List UInt8) :
    readUInt32LE (a ++ b) i = readUInt32LE a i := by
  unfold readUInt32LE
  rw [readUInt16LE_append (by omega), readUInt16LE_append (by omega)]

/-- What is written of a number is read back. -/
theorem readUInt16LE_at {b before after : List UInt8} {n i : Nat} (is : b = before ++ (uint16LE n ++ after))
    (here : i = before.length) : readUInt16LE b i = n % 65536 := by
  subst is here
  have first := byteAt_append_right before (uint16LE n ++ after) 0
  have second := byteAt_append_right before (uint16LE n ++ after) 1
  rw [Nat.add_zero] at first
  rw [readUInt16LE, first, second]
  change n.toUInt8.toNat + 256 * (n / 256).toUInt8.toNat = n % 65536
  simp only [Nat.toUInt8_eq, UInt8.toNat_ofNat']
  omega

theorem readUInt32LE_at {b before after : List UInt8} {n i : Nat} (is : b = before ++ (uint32LE n ++ after))
    (here : i = before.length) : readUInt32LE b i = n % 2 ^ 32 := by
  rw [uint32LE, List.append_assoc] at is
  have low := readUInt16LE_at is here
  have high : readUInt16LE b (i + 2) = n / 65536 % 65536 :=
    readUInt16LE_at (is.trans (List.append_assoc ..).symm) (by rw [here, List.length_append]; rfl)
  rw [readUInt32LE, low, high]
  omega

end AnalyticsBackend.Lib
