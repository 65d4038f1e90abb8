/-!
# Ring capacities and the errors of a ring

The slots of a ring are a power of two in number, between 2 and 65536, so that
a free-running cursor addresses a slot by its low bits.  A `Capacity` is such a
number by construction; `Capacity.ofSize?` accepts exactly these sizes.
-/

set_option autoImplicit false

namespace RingPool

def maxCapacity : Nat := 65536

structure Capacity where
  exponent : Nat
  one_le_exponent : 1 ≤ exponent
  exponent_le_sixteen : exponent ≤ 16
  deriving DecidableEq, Repr

namespace Capacity

def size (capacity : Capacity) : Nat := 1 <<< capacity.exponent

/-- The number of elements that fit, as one slot always stays empty.  It is
also the bit mask that takes a cursor to its slot. -/
def mask (capacity : Capacity) : UInt32 := UInt32.ofNat (capacity.size - 1)

def word (capacity : Capacity) : UInt32 := UInt32.ofNat capacity.size

def ofSize? (slots : UInt32) : Option Capacity :=
  let exponent := slots.toNat.log2
  if bounds : 1 ≤ exponent ∧ exponent ≤ 16 ∧ 1 <<< exponent = slots.toNat then
    some ⟨exponent, bounds.1, bounds.2.1⟩
  else none

theorem size_pos (capacity : Capacity) : 0 < capacity.size := by
  rw [size, Nat.one_shiftLeft]
  exact Nat.two_pow_pos capacity.exponent

theorem two_le_size (capacity : Capacity) : 2 ≤ capacity.size := by
  rw [size, Nat.one_shiftLeft]
  exact Nat.pow_le_pow_right Nat.two_pos capacity.one_le_exponent

theorem size_le_maxCapacity (capacity : Capacity) : capacity.size ≤ maxCapacity := by
  rw [size, Nat.one_shiftLeft]
  exact Nat.pow_le_pow_right Nat.two_pos capacity.exponent_le_sixteen

theorem mask_toNat (capacity : Capacity) : capacity.mask.toNat = capacity.size - 1 := by
  have bound := capacity.size_le_maxCapacity
  unfold maxCapacity at bound
  unfold mask
  rw [UInt32.toNat_ofNat']
  omega

theorem word_toNat (capacity : Capacity) : capacity.word.toNat = capacity.size := by
  have bound := capacity.size_le_maxCapacity
  unfold maxCapacity at bound
  unfold word
  rw [UInt32.toNat_ofNat']
  omega

theorem ofSize?_word (capacity : Capacity) : ofSize? capacity.word = some capacity := by
  have same : Nat.log2 (1 <<< capacity.exponent) = capacity.exponent := by
    rw [Nat.one_shiftLeft, Nat.log2_two_pow]
  simp [ofSize?, word_toNat, size, same, capacity.one_le_exponent, capacity.exponent_le_sixteen]

theorem size_of_ofSize? {slots : UInt32} {capacity : Capacity}
    (accepted : ofSize? slots = some capacity) : capacity.size = slots.toNat := by
  unfold ofSize? at accepted
  simp only at accepted
  split at accepted
  case isTrue bounds =>
    cases accepted
    exact bounds.2.2
  case isFalse => cases accepted

end Capacity

inductive RingError where
  | invalidCapacity (capacity : UInt32)
  | invalidWatermark (watermark capacity : UInt32)
  | capacityExceeded (requested available : UInt32)
  deriving DecidableEq, Repr

def RingError.message : RingError → String
  | .invalidCapacity capacity =>
      s!"ring capacity {capacity} must be a power of two between 2 and {maxCapacity}"
  | .invalidWatermark watermark capacity =>
      s!"watermark {watermark} must be below the ring capacity {capacity}"
  | .capacityExceeded requested available =>
      s!"requested {requested} slots but only {available} are free"

def checkCapacity (slots : UInt32) : Except RingError Capacity :=
  match Capacity.ofSize? slots with
  | some capacity => .ok capacity
  | none => .error (.invalidCapacity slots)

end RingPool
