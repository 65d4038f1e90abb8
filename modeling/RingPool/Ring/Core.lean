import RingPool.Ring.Capacity

/-!
# Cursors, reservations and slots

Each side of a ring owns a `head` and a `tail`.  Reserving a range of slots
advances the side's head, publishing it advances the side's tail, and the other
side looks at tails only.  Cursors are free-running words: distances are taken
modulo 2^32, and a cursor is reduced only where it addresses a slot.  One slot
stays empty, so at most `Capacity.mask` entries are occupied.

Slots keep their value when they are read; whether a slot may be touched is
decided by the reservations alone.
-/

set_option autoImplicit false

namespace RingPool

/-- A position in the unbounded sequence of slots, modulo 2^32. -/
abbrev Cursor := UInt32

inductive Side where
  | producer
  | consumer
  deriving DecidableEq, Repr

/-- The cursors of one side: `head` ends what is reserved, `tail` what is
published. -/
structure Cursors where
  head : Cursor
  tail : Cursor
  deriving DecidableEq, Repr

/-- A range `[head, next)` of slots that a side has granted to one actor, with
the room that was seen when it was granted. -/
structure Reservation where
  side : Side
  head : Cursor
  next : Cursor
  observed : UInt32
  deriving DecidableEq, Repr

namespace Reservation

def len (reservation : Reservation) : UInt32 := reservation.next - reservation.head

def index (reservation : Reservation) (offset : UInt32) : Cursor := reservation.head + offset

end Reservation

structure Core (α : Type) where
  capacity : Capacity
  producer : Cursors
  consumer : Cursors
  slots : Vector α capacity.size

theorem Cursor.distance_succ_lt {index last : Cursor} (apart : index ≠ last) :
    (last - (index + 1)).toNat < (last - index).toNat := by
  have different : index.toNat ≠ last.toNat := fun same => apart (UInt32.toNat_inj.mp same)
  have first := index.toNat_lt
  have second := last.toNat_lt
  rw [UInt32.toNat_sub, UInt32.toNat_sub, UInt32.toNat_add, UInt32.toNat_one]
  omega

def Capacity.slotOf (capacity : Capacity) (cursor : Cursor) : Fin capacity.size :=
  ⟨cursor.toNat % capacity.size, Nat.mod_lt _ capacity.size_pos⟩

namespace Core

variable {α : Type}

def create (capacity : Capacity) (blank : α) (origin : Cursor) : Core α where
  capacity := capacity
  producer := ⟨origin, origin⟩
  consumer := ⟨origin, origin⟩
  slots := Vector.replicate capacity.size blank

def cursors (core : Core α) : Side → Cursors
  | .producer => core.producer
  | .consumer => core.consumer

def setHead (core : Core α) (side : Side) (head : Cursor) : Core α :=
  match side with
  | .producer => { core with producer := { core.producer with head } }
  | .consumer => { core with consumer := { core.consumer with head } }

def setTail (core : Core α) (side : Side) (tail : Cursor) : Core α :=
  match side with
  | .producer => { core with producer := { core.producer with tail } }
  | .consumer => { core with consumer := { core.consumer with tail } }

def read (core : Core α) (cursor : Cursor) : α :=
  core.slots[core.capacity.slotOf cursor]

def write (core : Core α) (cursor : Cursor) (value : α) : Core α :=
  let slot := core.capacity.slotOf cursor
  { core with slots := core.slots.set slot value slot.isLt }

def readRange (core : Core α) (cursor : Cursor) (count : Nat) : List α :=
  (List.range count).map fun offset => core.read (cursor + UInt32.ofNat offset)

def writeRange (core : Core α) (cursor : Cursor) : List α → Core α
  | [] => core
  | value :: rest => (core.write cursor value).writeRange (cursor + 1) rest

/-- The room that a side finds when it takes `head` for the end of what it has
reserved: free slots for producers, published entries for consumers.  It looks
at the tail of the other side only, so it is right when `head` is. -/
def room (core : Core α) (side : Side) (head : Cursor) : UInt32 :=
  match side with
  | .producer => core.capacity.mask - (head - core.consumer.tail)
  | .consumer => core.producer.tail - head

/-- The entries that are published and not yet released, counted at rest. -/
def committed (core : Core α) : UInt32 :=
  min (core.producer.tail - core.consumer.tail) core.capacity.mask

/-- What a ring still owns when it goes: the values between the tails, oldest
first. -/
def leftovers (core : Core α) : List α :=
  core.readRange core.consumer.tail (core.producer.tail - core.consumer.tail).toNat

/-- Drops the element at a cursor, then that at the next, until the cursor has come to
`last`; the elements are listed in the order in which they go. -/
def dropFrom (core : Core α) (index last : Cursor) : List α :=
  if index = last then []
  else core.read index :: core.dropFrom (index + 1) last
termination_by (last - index).toNat
decreasing_by exact Cursor.distance_succ_lt ‹_›

def drop (core : Core α) : List α := core.dropFrom core.consumer.tail core.producer.tail

/-- Nobody holds a reservation: each side has published all it has reserved. -/
def AtRest (core : Core α) : Prop :=
  core.producer.head = core.producer.tail ∧ core.consumer.head = core.consumer.tail

theorem create_atRest (capacity : Capacity) (blank : α) (origin : Cursor) :
    (create capacity blank origin).AtRest := ⟨rfl, rfl⟩

@[simp] theorem setHead_capacity (core : Core α) (side : Side) (head : Cursor) :
    (core.setHead side head).capacity = core.capacity := by cases side <;> rfl

@[simp] theorem setTail_capacity (core : Core α) (side : Side) (tail : Cursor) :
    (core.setTail side tail).capacity = core.capacity := by cases side <;> rfl

@[simp] theorem write_capacity (core : Core α) (cursor : Cursor) (value : α) :
    (core.write cursor value).capacity = core.capacity := rfl

@[simp] theorem cursors_setHead_self (core : Core α) (side : Side) (head : Cursor) :
    (core.setHead side head).cursors side = ⟨head, (core.cursors side).tail⟩ := by
  cases side <;> rfl

theorem cursors_setHead_other (core : Core α) {side other : Side} (head : Cursor)
    (different : other ≠ side) : (core.setHead side head).cursors other = core.cursors other := by
  cases side <;> cases other <;> first | rfl | exact absurd rfl different

@[simp] theorem cursors_setTail_self (core : Core α) (side : Side) (tail : Cursor) :
    (core.setTail side tail).cursors side = ⟨(core.cursors side).head, tail⟩ := by
  cases side <;> rfl

theorem cursors_setTail_other (core : Core α) {side other : Side} (tail : Cursor)
    (different : other ≠ side) : (core.setTail side tail).cursors other = core.cursors other := by
  cases side <;> cases other <;> first | rfl | exact absurd rfl different

@[simp] theorem tail_setHead (core : Core α) (side other : Side) (head : Cursor) :
    ((core.setHead side head).cursors other).tail = (core.cursors other).tail := by
  cases side <;> cases other <;> rfl

@[simp] theorem head_setTail (core : Core α) (side other : Side) (tail : Cursor) :
    ((core.setTail side tail).cursors other).head = (core.cursors other).head := by
  cases side <;> cases other <;> rfl

@[simp] theorem cursors_write (core : Core α) (cursor : Cursor) (value : α) (side : Side) :
    (core.write cursor value).cursors side = core.cursors side := by
  cases side <;> rfl

@[simp] theorem read_setHead (core : Core α) (side : Side) (head cursor : Cursor) :
    (core.setHead side head).read cursor = core.read cursor := by cases side <;> rfl

@[simp] theorem read_setTail (core : Core α) (side : Side) (tail cursor : Cursor) :
    (core.setTail side tail).read cursor = core.read cursor := by cases side <;> rfl

/-- A write is seen through every cursor of its slot and through no other. -/
theorem read_write (core : Core α) (written cursor : Cursor) (value : α) :
    (core.write written value).read cursor =
      if core.capacity.slotOf written = core.capacity.slotOf cursor then value
      else core.read cursor := by
  have inside := (core.capacity.slotOf cursor).isLt
  have cell : (core.write written value).read cursor =
      (core.slots.set (core.capacity.slotOf written).val value
        (core.capacity.slotOf written).isLt)[(core.capacity.slotOf cursor).val] := rfl
  rw [cell, Vector.getElem_set]
  simp [Fin.ext_iff, read]

theorem committed_le_mask (core : Core α) : core.committed ≤ core.capacity.mask := by
  unfold committed
  rw [UInt32.le_iff_toNat_le]
  simp only [Min.min]
  split
  case isTrue small => exact UInt32.le_iff_toNat_le.mp small
  case isFalse => exact Nat.le_refl _

end Core

end RingPool
