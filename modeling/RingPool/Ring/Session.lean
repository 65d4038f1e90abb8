import RingPool.Runs
import RingPool.Ring.Blocking

/-!
# Sessions on a ring

A session is a list of steps on one ring, answered one by one, as a single
thread would run them.  A `pair` stands for two threads: its main step waits
for the other one, so the other one comes first.  With every answer goes a
gauge of the ring after the step.

A step that cannot be read is part of the session too: it is answered as
malformed, it leaves the ring alone, and the elements that were already read
for it are discarded.

A step may ask for what no machine can give, a deadline beyond the clock or a
buffer beyond the address space.  That is a `Breakdown`: the session breaks off
and leaves no transcript.
-/

set_option autoImplicit false

namespace RingPool

inductive Breakdown where
  | deadlineOverflow
  | bufferOverflow
  deriving DecidableEq, Repr

def Breakdown.message : Breakdown → String
  | .deadlineOverflow => "overflow when adding duration to instant"
  | .bufferOverflow => "capacity overflow"

/-- The largest number of 64-bit elements in one buffer: their bytes are counted
by a signed word. -/
def maxBufferLength : Nat := 1152921504606846975

/-- The clock of a session shows nanoseconds in a word.  It takes a span modulo 2^64, but not the
sum. -/
def sessionClock : Clock where
  add reading span :=
    let last := reading + span % UInt64.size
    if last < UInt64.size then .ok last else .error ⟨⟩

/-- The reading of the clock in a session, that of a machine which has been up
for a day.  The clock stands still but for `idlePauses`. -/
def sessionReading : Nat := 86400000000000

inductive RingStep (α : Type) where
  | enqueue (item : α) (exclusive : Bool)
  | dequeue (exclusive : Bool)
  | enqueueBlocking (item : α) (timeout : Timeout)
  | dequeueBlocking (timeout : Timeout)
  | enqueueBulk (items : List α) (exclusive : Bool)
  | dequeueBulk (most : UInt32) (out : List α) (exclusive : Bool)
  | enqueueSlice (items : List α) (exclusive : Bool)
  | dequeueSlice (buffer : List α) (exclusive : Bool)
  /-- Takes elements into a fresh buffer of which only the filled part counts. -/
  | dequeueFresh (length : Nat)
  | info
  | pair (main other : RingStep α)
  /-- Uses a buffer that is longer than any buffer can be. -/
  | overlong
  | malformed (field : String) (discarded : List α)
  deriving Inhabited

inductive RingReply (α : Type) where
  | accepted
  | full (item : α)
  | taken (item : Option α)
  | bulk (enqueued : Enqueued) (left : List α)
  | bulkRefused (refusal : RingError) (left : List α)
  | slice (enqueued : Enqueued)
  | sliceRefused (refusal : RingError)
  | dequeued (count : Nat) (out : List α)
  | info (capacity usable : UInt32) (policy : TransferPolicy) (watermark : Option UInt32)
      (description : String)
  | pair (main other : RingReply α)
  | malformed (field : String)

structure Gauge where
  count : UInt32
  availSpace : UInt32
  isEmpty : Bool
  isFull : Bool
  deriving DecidableEq, Repr

def Ring.gauge {α : Type} (ring : Ring α) : Gauge :=
  ⟨ring.count, ring.availSpace, ring.isEmpty, ring.isFull⟩

namespace RingStep

variable {α : Type}

def onRange (first : UInt64) (count : Nat) (use : List UInt64 → RingStep α) : RingStep α :=
  if count ≤ maxBufferLength then use (consecutive first count) else .overlong

def intoFresh (length : Nat) : RingStep α :=
  if length ≤ maxBufferLength then .dequeueFresh length else .overlong

def runEnqueueBlocking (ring : Ring α) (item : α) (deadline : Option Nat) :
    Ring α × RingReply α :=
  match ring.enqueueBlocking? item deadline (idlePauses deadline) with
  | some (ring, true) => (ring, .accepted)
  | some (ring, false) => (ring, .full item)
  | none => (ring, .full item)

def runDequeueBlocking (ring : Ring α) (deadline : Option Nat) : Ring α × RingReply α :=
  match ring.dequeueBlocking? deadline (idlePauses deadline) with
  | some (ring, item) => (ring, .taken item)
  | none => (ring, .taken none)

/-- Runs one step; the last component is what is discarded on the way. -/
def run (ring : Ring α) : RingStep α → Except Breakdown (Ring α × RingReply α × List α)
  | .enqueue item exclusive =>
      match ring.enqueue? item exclusive with
      | some ring => .ok (ring, .accepted, [])
      | none => .ok (ring, .full item, [])
  | .dequeue exclusive =>
      match ring.dequeue? exclusive with
      | some (item, ring) => .ok (ring, .taken (some item), [])
      | none => .ok (ring, .taken none, [])
  | .enqueueBlocking item timeout =>
      match timeout.deadline sessionClock sessionReading with
      | .error _ => .error .deadlineOverflow
      | .ok deadline =>
          let (ring, reply) := runEnqueueBlocking ring item deadline
          .ok (ring, reply, [])
  | .dequeueBlocking timeout =>
      match timeout.deadline sessionClock sessionReading with
      | .error _ => .error .deadlineOverflow
      | .ok deadline =>
          let (ring, reply) := runDequeueBlocking ring deadline
          .ok (ring, reply, [])
  | .enqueueBulk items exclusive =>
      match ring.enqueueBulk items exclusive with
      | .ok (ring, enqueued, left) => .ok (ring, .bulk enqueued left, [])
      | .error refusal => .ok (ring, .bulkRefused refusal items, [])
  | .dequeueBulk most out exclusive =>
      let (ring, items) := ring.dequeueBulk most exclusive
      .ok (ring, .dequeued items.length (out ++ items), [])
  | .enqueueSlice items exclusive =>
      match ring.enqueueSlice items exclusive with
      | .ok (ring, enqueued) => .ok (ring, .slice enqueued, [])
      | .error refusal => .ok (ring, .sliceRefused refusal, [])
  | .dequeueSlice buffer exclusive =>
      let (ring, items) := ring.dequeueSlice buffer.length exclusive
      .ok (ring, .dequeued items.length (items ++ buffer.drop items.length), [])
  | .dequeueFresh length =>
      let (ring, items) := ring.dequeueSlice length false
      .ok (ring, .dequeued items.length items, [])
  | .info =>
      .ok (ring, .info ring.capacity ring.usableCapacity ring.policy ring.watermark
        ring.describe, [])
  | .pair main other => do
      let (ring, otherReply, otherDiscarded) ← run ring other
      let (ring, mainReply, mainDiscarded) ← run ring main
      pure (ring, .pair mainReply otherReply, otherDiscarded ++ mainDiscarded)
  | .overlong => .error .bufferOverflow
  | .malformed field discarded => .ok (ring, .malformed field, discarded)

end RingStep

/-- A session that has ended: the answers, the elements discarded before the
end, and those that the ring still owned, oldest first. -/
structure RingTranscript (α : Type) where
  answers : List (RingReply α × Gauge)
  discarded : List α
  leftovers : List α

def Ring.session {α : Type} (ring : Ring α) :
    List (RingStep α) → Except Breakdown (RingTranscript α)
  | [] => .ok ⟨[], [], ring.toList⟩
  | step :: steps => do
      let (ring, reply, discarded) ← step.run ring
      let rest ← ring.session steps
      pure ⟨(reply, ring.gauge) :: rest.answers, discarded ++ rest.discarded, rest.leftovers⟩

end RingPool
