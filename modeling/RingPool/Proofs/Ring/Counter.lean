import RingPool.Ring.Core
import Mathlib.Data.Nat.ModEq
import Mathlib.Algebra.Order.Group.Nat

/-!
# Cursors as images of unbounded counters

A cursor is the count of the slots that have passed since an origin, taken
modulo 2^32.  Counters that are less than 2^32 apart are told apart by their
cursors, and their distance is the distance of the cursors.  Counters that are
less than a capacity apart address different slots, also across the place where
cursors wrap, since a capacity divides 2^32.
-/

set_option autoImplicit false

namespace RingPool

/-- The cursor that has passed `count` slots since `origin`. -/
def cursorAt (origin : Cursor) (count : Nat) : Cursor := origin + UInt32.ofNat count

@[simp] theorem cursorAt_zero (origin : Cursor) : cursorAt origin 0 = origin := by
  simp [cursorAt]

theorem cursorAt_add (origin : Cursor) (first second : Nat) :
    cursorAt origin (first + second) = cursorAt (cursorAt origin first) second := by
  simp [cursorAt, UInt32.add_assoc]

theorem cursorAt_toNat (origin : Cursor) (count : Nat) :
    (cursorAt origin count).toNat = (origin.toNat + count) % UInt32.size := by
  simp [cursorAt, UInt32.toNat_add, UInt32.size]

theorem cursorAt_sub_toNat (origin : Cursor) {low high : Nat} (ordered : low ≤ high)
    (near : high - low < UInt32.size) :
    (cursorAt origin high - cursorAt origin low).toNat = high - low := by
  rw [UInt32.toNat_sub, cursorAt_toNat, cursorAt_toNat]
  unfold UInt32.size at near ⊢
  omega

theorem cursorAt_injective (origin : Cursor) {low high : Nat} (ordered : low ≤ high)
    (near : high - low < UInt32.size) (same : cursorAt origin low = cursorAt origin high) :
    low = high := by
  have distance := cursorAt_sub_toNat origin ordered near
  rw [same, UInt32.sub_self, UInt32.toNat_zero] at distance
  omega

namespace Capacity

theorem size_dvd_wordSize (capacity : Capacity) : capacity.size ∣ UInt32.size := by
  have bound := capacity.exponent_le_sixteen
  rw [size, Nat.one_shiftLeft]
  exact pow_dvd_pow 2 (by omega : capacity.exponent ≤ 32)

theorem size_lt_wordSize (capacity : Capacity) : capacity.size < UInt32.size :=
  Nat.lt_of_le_of_lt capacity.size_le_maxCapacity (by decide)

theorem slotOf_val (capacity : Capacity) (cursor : Cursor) :
    (capacity.slotOf cursor).val = cursor.toNat % capacity.size := rfl

/-- The slot of a cursor is what the mask leaves of it. -/
theorem and_mask_toNat (capacity : Capacity) (cursor : Cursor) :
    (cursor &&& capacity.mask).toNat = (capacity.slotOf cursor).val := by
  rw [UInt32.toNat_and, mask_toNat, slotOf_val, size, Nat.one_shiftLeft,
    Nat.and_two_pow_sub_one_eq_mod]

theorem slotOf_cursorAt_val (capacity : Capacity) (origin : Cursor) (count : Nat) :
    (capacity.slotOf (cursorAt origin count)).val = (origin.toNat + count) % capacity.size := by
  rw [slotOf_val, cursorAt_toNat]
  exact Nat.mod_mod_of_dvd _ capacity.size_dvd_wordSize

/-- Counters that are less than a capacity apart address different slots. -/
theorem slotOf_cursorAt_injective (capacity : Capacity) (origin : Cursor) {low high : Nat}
    (ordered : low ≤ high) (near : high - low < capacity.size)
    (same : capacity.slotOf (cursorAt origin low) = capacity.slotOf (cursorAt origin high)) :
    low = high := by
  have values := congrArg Fin.val same
  rw [slotOf_cursorAt_val, slotOf_cursorAt_val] at values
  have divides : capacity.size ∣ high - low := by
    have whole := (Nat.modEq_iff_dvd' (by omega)).mp (show Nat.ModEq capacity.size
      (origin.toNat + low) (origin.toNat + high) from values)
    have distance : origin.toNat + high - (origin.toNat + low) = high - low := by omega
    rwa [distance] at whole
  have none := Nat.eq_zero_of_dvd_of_lt divides near
  omega

end Capacity

end RingPool
