import RingPool.Runs

/-!
# Numbered parcels

Heavy traffic through a queue is made of parcels that say who sent them and in
which turn, so that a receiver can tell whether each sender's parcels come in
the order in which they were sent.
-/

set_option autoImplicit false

namespace RingPool

def parcel (sender turn : Nat) : UInt64 := UInt64.ofNat (sender * UInt32.size + turn)

def senderOf (value : UInt64) : Nat := value.toNat / UInt32.size

def parcelsOf (turns sender : Nat) : List UInt64 := (List.range turns).map (parcel sender)

def rising : List UInt64 → Bool
  | first :: second :: rest => first < second && rising (second :: rest)
  | _ => true

def keepsOrder (senders : Nat) (received : List UInt64) : Bool :=
  (List.range senders).all fun sender =>
    rising (received.filter fun value => senderOf value == sender)

def runsOfParcels (received : List UInt64) : List NumberRun :=
  NumberRun.collect (received.mergeSort fun first second => first ≤ second)

end RingPool
