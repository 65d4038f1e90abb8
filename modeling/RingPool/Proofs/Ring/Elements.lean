import RingPool.Ring.Basic
import RingPool.Proofs.Ring.Counter

/-!
# A ring at rest as the list of its elements

Between the operations of a single thread nobody holds a reservation and no more
slots are occupied than fit: the ring memory is `Settled`.  All that matters then
is `Core.leftovers`, the values between the two tails.  A claim finds as much room
as there are free slots or elements, filling granted slots appends to the list
and releasing them takes from its front, whichever path is used.
-/

set_option autoImplicit false

namespace RingPool

namespace Core

variable {α : Type} {core : Core α}

/-- Nobody holds a reservation, and one slot at least is free. -/
structure Settled (core : Core α) : Prop where
  rest : core.AtRest
  fits : core.leftovers.length < core.capacity.size

/-! ## Ranges of slots -/

@[simp] theorem readRange_length (core : Core α) (cursor : Cursor) (count : Nat) :
    (core.readRange cursor count).length = count := by
  simp [readRange]

theorem readRange_succ (core : Core α) (cursor : Cursor) (count : Nat) :
    core.readRange cursor (count + 1) =
      core.read cursor :: core.readRange (cursor + 1) count := by
  simp [readRange, List.range_succ_eq_map, UInt32.add_assoc, UInt32.add_comm]

theorem readRange_add (core : Core α) (cursor : Cursor) (first second : Nat) :
    core.readRange cursor (first + second) =
      core.readRange cursor first ++ core.readRange (cursorAt cursor first) second := by
  simp [readRange, List.range_add, cursorAt, UInt32.add_assoc]

theorem readRange_congr (core other : Core α) {cursor : Cursor} {count : Nat}
    (same : ∀ offset < count,
      other.read (cursorAt cursor offset) = core.read (cursorAt cursor offset)) :
    other.readRange cursor count = core.readRange cursor count := by
  apply List.map_congr_left
  intro offset inside
  exact same offset (List.mem_range.mp inside)

@[simp] theorem readRange_setHead (core : Core α) (side : Side) (head cursor : Cursor)
    (count : Nat) : (core.setHead side head).readRange cursor count =
      core.readRange cursor count := by
  simp [readRange]

@[simp] theorem readRange_setTail (core : Core α) (side : Side) (tail cursor : Cursor)
    (count : Nat) : (core.setTail side tail).readRange cursor count =
      core.readRange cursor count := by
  simp [readRange]

@[simp] theorem writeRange_capacity (core : Core α) (cursor : Cursor) (values : List α) :
    (core.writeRange cursor values).capacity = core.capacity := by
  induction values generalizing core cursor with
  | nil => rfl
  | cons value rest ih => simp [writeRange, ih]

@[simp] theorem writeRange_cursors (core : Core α) (cursor : Cursor) (values : List α)
    (side : Side) : (core.writeRange cursor values).cursors side = core.cursors side := by
  induction values generalizing core cursor with
  | nil => rfl
  | cons value rest ih => simp [writeRange, ih]

theorem read_writeRange_outside (core : Core α) (cursor other : Cursor) (values : List α)
    (outside : ∀ offset < values.length,
      core.capacity.slotOf (cursorAt cursor offset) ≠ core.capacity.slotOf other) :
    (core.writeRange cursor values).read other = core.read other := by
  induction values generalizing core cursor with
  | nil => rfl
  | cons value rest ih =>
      have here : core.capacity.slotOf cursor ≠ core.capacity.slotOf other := by
        simpa using outside 0 (by simp)
      have further : ∀ offset < rest.length,
          (core.write cursor value).capacity.slotOf (cursorAt (cursor + 1) offset) ≠
            (core.write cursor value).capacity.slotOf other := by
        intro offset inside
        have next := outside (1 + offset) (by simpa [Nat.add_comm] using inside)
        rwa [cursorAt_add] at next
      rw [writeRange, ih _ _ further, read_write, if_neg here]

theorem readRange_writeRange (core : Core α) (cursor : Cursor) (values : List α)
    (fits : values.length ≤ core.capacity.size) :
    (core.writeRange cursor values).readRange cursor values.length = values := by
  induction values generalizing core cursor with
  | nil => rfl
  | cons value rest ih =>
      rw [List.length_cons] at fits
      have apart : ∀ offset < rest.length,
          (core.write cursor value).capacity.slotOf (cursorAt (cursor + 1) offset) ≠
            (core.write cursor value).capacity.slotOf cursor := by
        intro offset inside same
        have further : cursorAt (cursor + 1) offset = cursorAt cursor (1 + offset) := by
          rw [cursorAt_add]
          rfl
        rw [further, write_capacity] at same
        have none := core.capacity.slotOf_cursorAt_injective cursor (Nat.zero_le (1 + offset))
          (by omega) ((congrArg _ (cursorAt_zero cursor)).trans same.symm)
        omega
      have first : (core.writeRange cursor (value :: rest)).read cursor = value := by
        rw [writeRange, read_writeRange_outside _ _ _ _ apart, read_write, if_pos rfl]
      rw [List.length_cons, readRange_succ, first, writeRange, ih _ _ (by
        rw [write_capacity]
        omega)]

/-! ## What a settled memory holds -/

theorem leftovers_length (core : Core α) :
    core.leftovers.length = (core.producer.tail - core.consumer.tail).toNat :=
  readRange_length _ _ _

theorem producer_tail_eq (core : Core α) :
    core.producer.tail = cursorAt core.consumer.tail core.leftovers.length := by
  rw [leftovers_length, cursorAt, UInt32.ofNat_toNat, UInt32.add_comm, UInt32.sub_add_cancel]

theorem leftovers_split {count : Nat} (enough : count ≤ core.leftovers.length) :
    core.leftovers = core.readRange core.consumer.tail count ++
      core.readRange (cursorAt core.consumer.tail count) (core.leftovers.length - count) := by
  rw [← readRange_add, Nat.add_sub_cancel' enough, leftovers_length]
  rfl

theorem create_settled (capacity : Capacity) (blank : α) (origin : Cursor) :
    (create capacity blank origin).Settled where
  rest := create_atRest capacity blank origin
  fits := by
    rw [leftovers_length]
    simpa [create] using capacity.size_pos

theorem create_leftovers (capacity : Capacity) (blank : α) (origin : Cursor) :
    (create capacity blank origin).leftovers = [] := by
  simp [leftovers, create, readRange]

namespace Settled

theorem committed_toNat (settled : core.Settled) :
    core.committed.toNat = core.leftovers.length := by
  have fits := settled.fits
  rw [leftovers_length] at fits ⊢
  have small : core.producer.tail - core.consumer.tail ≤ core.capacity.mask := by
    rw [UInt32.le_iff_toNat_le, Capacity.mask_toNat]
    omega
  rw [committed]
  simp [Min.min, small]

theorem room_producer (settled : core.Settled) :
    (core.room .producer core.producer.head).toNat =
      core.capacity.size - 1 - core.leftovers.length := by
  have fits := settled.fits
  rw [leftovers_length] at fits ⊢
  have small : core.producer.tail - core.consumer.tail ≤ core.capacity.mask := by
    rw [UInt32.le_iff_toNat_le, Capacity.mask_toNat]
    omega
  rw [room, settled.rest.1, UInt32.toNat_sub_of_le _ _ small, Capacity.mask_toNat]

theorem room_consumer (settled : core.Settled) :
    (core.room .consumer core.consumer.head).toNat = core.leftovers.length := by
  rw [room, settled.rest.2, leftovers_length]

end Settled

/-! ## Filling and releasing slots -/

def upcoming (core : Core α) (side : Side) (count : Nat) : Reservation :=
  let head := (core.cursors side).head
  ⟨side, head, head + UInt32.ofNat count, core.room side head⟩

@[simp] theorem upcoming_len (core : Core α) (side : Side) (count : Nat) :
    (core.upcoming side count).len = UInt32.ofNat count := by
  rw [upcoming, Reservation.len, UInt32.add_comm, UInt32.add_sub_cancel]

theorem claim_granted {request : Request} {count : Nat}
    (fits : request.fit? (core.room request.side (core.cursors request.side).head) =
      some (UInt32.ofNat count)) :
    core.claim request =
      (core.setHead request.side (core.upcoming request.side count).next,
        .granted (core.upcoming request.side count)) := by
  simp [claim, offer, fits, upcoming]

theorem claim_short {request : Request}
    (unfit : request.fit? (core.room request.side (core.cursors request.side).head) = none) :
    core.claim request =
      (core, .short (core.room request.side (core.cursors request.side).head)) := by
  simp [claim, offer, unfit]

/-- If its range is the next of its side, a publication is over at once. -/
theorem publish_due {reservation : Reservation}
    (due : (core.cursors reservation.side).tail = reservation.head) (exclusive : Bool) :
    core.publish reservation exclusive =
      core.setTail reservation.side reservation.next := by
  simp [publish, publish?, due]

def filled (core : Core α) (values : List α) : Core α :=
  let next := (core.upcoming .producer values.length).next
  ((core.setHead .producer next).writeRange core.producer.head values).setTail .producer next

def released (core : Core α) (count : Nat) : Core α :=
  let next := (core.upcoming .consumer count).next
  (core.setHead .consumer next).setTail .consumer next

@[simp] theorem filled_capacity (core : Core α) (values : List α) :
    (core.filled values).capacity = core.capacity := by
  simp [filled]

@[simp] theorem released_capacity (core : Core α) (count : Nat) :
    (core.released count).capacity = core.capacity := by
  simp [released]

theorem filled_producer (core : Core α) (values : List α) :
    (core.filled values).producer =
      ⟨core.producer.head + UInt32.ofNat values.length,
        core.producer.head + UInt32.ofNat values.length⟩ := by
  change (core.filled values).cursors .producer = _
  rw [filled, cursors_setTail_self, writeRange_cursors, cursors_setHead_self]
  rfl

theorem filled_consumer (core : Core α) (values : List α) :
    (core.filled values).consumer = core.consumer := by
  change (core.filled values).cursors .consumer = core.cursors .consumer
  simp [filled, cursors_setHead_other, cursors_setTail_other]

namespace Settled

theorem publish_filled (settled : core.Settled) (values : List α) (exclusive : Bool) :
    ((core.setHead .producer (core.upcoming .producer values.length).next).writeRange
      core.producer.head values).publish (core.upcoming .producer values.length) exclusive =
        core.filled values := by
  refine publish_due ?_ exclusive
  simp only [upcoming, writeRange_cursors, tail_setHead]
  exact settled.rest.1.symm

theorem publish_released (settled : core.Settled) (count : Nat) (exclusive : Bool) :
    (core.setHead .consumer (core.upcoming .consumer count).next).publish
      (core.upcoming .consumer count) exclusive = core.released count := by
  refine publish_due ?_ exclusive
  simp only [upcoming, tail_setHead]
  exact settled.rest.2.symm

theorem leftovers_filled (settled : core.Settled) {values : List α}
    (fits : core.leftovers.length + values.length < core.capacity.size) :
    (core.filled values).leftovers = core.leftovers ++ values := by
  have small := core.capacity.size_lt_wordSize
  have start : core.producer.head = cursorAt core.consumer.tail core.leftovers.length := by
    rw [settled.rest.1, producer_tail_eq]
  have distance : ((core.filled values).producer.tail -
      (core.filled values).consumer.tail).toNat =
        core.leftovers.length + values.length := by
    rw [filled_producer, filled_consumer, start]
    change (cursorAt (cursorAt core.consumer.tail core.leftovers.length) values.length -
      core.consumer.tail).toNat = _
    rw [← cursorAt_add]
    have whole := cursorAt_sub_toNat core.consumer.tail
      (Nat.zero_le (core.leftovers.length + values.length)) (by omega)
    simpa using whole
  have kept : (core.filled values).readRange core.consumer.tail core.leftovers.length =
      core.leftovers := by
    rw [filled, readRange_setTail]
    refine (readRange_congr core _ ?_).trans (by rw [leftovers_length]; rfl)
    intro offset inside
    rw [read_writeRange_outside, read_setHead]
    intro further within same
    rw [start, ← cursorAt_add, setHead_capacity] at same
    have alike := core.capacity.slotOf_cursorAt_injective core.consumer.tail
      (by omega : offset ≤ core.leftovers.length + further) (by omega) same.symm
    omega
  have added : (core.filled values).readRange core.producer.head values.length = values := by
    rw [filled, readRange_setTail, readRange_writeRange]
    rw [setHead_capacity]
    omega
  rw [leftovers, distance, filled_consumer, readRange_add, kept, ← start, added]

theorem filled (settled : core.Settled) {values : List α}
    (fits : core.leftovers.length + values.length < core.capacity.size) :
    (core.filled values).Settled where
  rest := by
    constructor
    · rw [filled_producer]
    · rw [filled_consumer]
      exact settled.rest.2
  fits := by
    rw [settled.leftovers_filled fits, List.length_append, filled_capacity]
    exact fits

theorem leftovers_released (settled : core.Settled) {count : Nat}
    (enough : count ≤ core.leftovers.length) :
    (core.released count).leftovers = core.leftovers.drop count := by
  have fits := settled.fits
  have small := core.capacity.size_lt_wordSize
  have distance : ((core.released count).producer.tail -
      (core.released count).consumer.tail).toNat = core.leftovers.length - count := by
    change (core.producer.tail - (core.consumer.head + UInt32.ofNat count)).toNat = _
    rw [settled.rest.2, producer_tail_eq]
    exact cursorAt_sub_toNat core.consumer.tail enough (by omega)
  have begins : (core.released count).consumer.tail = cursorAt core.consumer.tail count := by
    change core.consumer.head + UInt32.ofNat count = _
    rw [settled.rest.2, cursorAt]
  conv_rhs => rw [leftovers_split enough]
  rw [leftovers, distance, begins, List.drop_left' (readRange_length _ _ _), released,
    readRange_setTail, readRange_setHead]

theorem released (settled : core.Settled) {count : Nat}
    (enough : count ≤ core.leftovers.length) : (core.released count).Settled where
  rest := ⟨settled.rest.1, rfl⟩
  fits := by
    have fits := settled.fits
    rw [settled.leftovers_released enough, List.length_drop, released_capacity]
    omega

theorem readRange_head (settled : core.Settled) (count : Nat)
    (enough : count ≤ core.leftovers.length) :
    core.readRange core.consumer.head count = core.leftovers.take count := by
  rw [settled.rest.2]
  conv_rhs => rw [leftovers_split enough]
  rw [List.take_left' (readRange_length _ _ _)]

end Settled

end Core

end RingPool
