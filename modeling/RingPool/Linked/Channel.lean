import RingPool.Linked.Queue

/-!
# Channels: a linked queue and the handles on it

A linked queue is used through handles: producer handles, which can be cloned,
and one consumer handle.  Producers are known by number, in the order in which
their handles arise.  The queue goes with the last handle, and with it the
values that are still there.  A handle that was given up cannot be used again.
-/

set_option autoImplicit false

namespace RingPool

structure Channel (α : Type) where
  queue : LinkedQueue α
  producers : Array Bool
  consumer : Bool

namespace Channel

variable {α : Type}

def create : Channel α := ⟨.empty, #[true], true⟩

def hasProducer (channel : Channel α) (number : Nat) : Bool :=
  channel.producers.getD number false

def isHeld (channel : Channel α) : Bool :=
  channel.consumer || channel.producers.contains true

/-- The values that go with the queue, if the last handle has just gone. -/
def destroyed (channel : Channel α) : List α :=
  if channel.isHeld then [] else channel.queue.leftovers

def push? (channel : Channel α) (number : Nat) (values : List α) : Option (Channel α) :=
  if channel.hasProducer number then
    some { channel with queue := values.foldl LinkedQueue.push channel.queue }
  else none

/-- Clones a producer's handle; the second component is the new number. -/
def clone? (channel : Channel α) (number : Nat) : Option (Channel α × Nat) :=
  if channel.hasProducer number then
    some ({ channel with producers := channel.producers.push true }, channel.producers.size)
  else none

/-- Gives up a producer's handle; the second component is what goes with it. -/
def dropProducer? (channel : Channel α) (number : Nat) : Option (Channel α × List α) :=
  if channel.hasProducer number then
    let after := { channel with producers := channel.producers.setIfInBounds number false }
    some (after, after.destroyed)
  else none

def pop? (channel : Channel α) (count : Nat) : Option (Channel α × List (Option α)) :=
  if channel.consumer then
    let (queue, popped) := (List.range count).foldl
      (fun (queue, popped) _ =>
        let (queue, value) := LinkedQueue.pop queue
        (queue, popped.push value))
      (channel.queue, #[])
    some ({ channel with queue }, popped.toList)
  else none

def isEmpty? (channel : Channel α) : Option Bool :=
  if channel.consumer then some channel.queue.isEmpty else none

def dropConsumer? (channel : Channel α) : Option (Channel α × List α) :=
  if channel.consumer then
    let after := { channel with consumer := false }
    some (after, after.destroyed)
  else none

/-- The values that go when all handles that are still held are given up. -/
def close (channel : Channel α) : List α :=
  if channel.isHeld then channel.queue.leftovers else []

end Channel

inductive ChannelStep (α : Type) where
  | push (number : Nat) (values : List α)
  /-- A push that does not say what to push; it ends the session. -/
  | pushNothing (number : Nat) (field : String)
  | clone (number : Nat)
  | dropProducer (number : Nat)
  | pop (count : Nat)
  | isEmpty
  | dropConsumer
  | unknown
  /-- A step that cannot be read because of a field; it ends the session. -/
  | malformed (field : String)

inductive ChannelReply (α : Type) where
  | done
  | cloned (number : Nat)
  | popped (values : List (Option α))
  | isEmpty (answer : Bool)
  | refused

/-- The answer to a step together with what was destroyed in it, and whether
the queue is empty after it, as far as a consumer is left to say so. -/
structure ChannelAnswer (α : Type) where
  reply : ChannelReply α
  destroyed : List α
  isEmpty : Option Bool

namespace ChannelStep

variable {α : Type}

/-- Runs one step; the error names the field that ends the session. -/
def run (channel : Channel α) :
    ChannelStep α → Except String (Channel α × ChannelReply α × List α)
  | .push number values =>
      .ok (match channel.push? number values with
        | some channel => (channel, .done, [])
        | none => (channel, .refused, []))
  | .pushNothing number field =>
      if channel.hasProducer number then .error field else .ok (channel, .refused, [])
  | .clone number =>
      .ok (match channel.clone? number with
        | some (channel, copy) => (channel, .cloned copy, [])
        | none => (channel, .refused, []))
  | .dropProducer number =>
      .ok (match channel.dropProducer? number with
        | some (channel, destroyed) => (channel, .done, destroyed)
        | none => (channel, .refused, []))
  | .pop count =>
      .ok (match channel.pop? count with
        | some (channel, values) => (channel, .popped values, [])
        | none => (channel, .refused, []))
  | .isEmpty =>
      .ok (match channel.isEmpty? with
        | some answer => (channel, .isEmpty answer, [])
        | none => (channel, .refused, []))
  | .dropConsumer =>
      .ok (match channel.dropConsumer? with
        | some (channel, destroyed) => (channel, .done, destroyed)
        | none => (channel, .refused, []))
  | .unknown => .ok (channel, .refused, [])
  | .malformed field => .error field

end ChannelStep

/-- Runs the steps of a session; the second component is what is destroyed when
all handles are given up at its end. -/
def Channel.session {α : Type} (channel : Channel α) :
    List (ChannelStep α) → Except String (List (ChannelAnswer α) × List α)
  | [] => .ok ([], channel.close)
  | step :: steps => do
      let (channel, reply, destroyed) ← step.run channel
      let (answers, closing) ← channel.session steps
      pure (⟨reply, destroyed, channel.isEmpty?⟩ :: answers, closing)

end RingPool
