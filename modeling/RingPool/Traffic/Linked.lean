import RingPool.Linked.Queue
import RingPool.Traffic.Parcel

/-!
# Traffic through a linked queue

Producers push their parcels one by one, in turns, and one consumer pops until
it has received all of them.
-/

set_option autoImplicit false

namespace RingPool

structure LinkedTraffic where
  producers : Nat
  parcels : Nat

structure LinkedTraffic.Report where
  ordered : Bool
  received : Nat
  runs : List NumberRun
  isEmpty : Bool

namespace LinkedTraffic

def round (traffic : LinkedTraffic) (state : LinkedQueue UInt64 × Array UInt64) (turn : Nat) :
    LinkedQueue UInt64 × Array UInt64 :=
  let queue := (List.range traffic.producers).foldl
    (fun queue sender => queue.push (parcel sender turn)) state.1
  (List.range traffic.producers).foldl
    (fun (queue, received) _ =>
      match LinkedQueue.pop queue with
      | (queue, some parcel) => (queue, received.push parcel)
      | (queue, none) => (queue, received))
    (queue, state.2)

def run (traffic : LinkedTraffic) : Report :=
  let (queue, received) :=
    (List.range traffic.parcels).foldl traffic.round (LinkedQueue.empty, #[])
  ⟨keepsOrder traffic.producers received.toList, received.size,
    runsOfParcels received.toList, queue.isEmpty⟩

end LinkedTraffic

end RingPool
