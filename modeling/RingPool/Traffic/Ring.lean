import RingPool.Ring.Basic
import RingPool.Traffic.Parcel

/-!
# Traffic through a ring

Producers send their parcels in bulks and consumers take bulks until all are
received.  The actors take turns here; what is reported holds for every other
schedule too.  An actor whose bulk is refused as a whole tries with a single
parcel, so that in each round something moves.
-/

set_option autoImplicit false

namespace RingPool

structure RingTraffic where
  producers : Nat
  consumers : Nat
  parcels : Nat
  chunk : Nat

structure RingTraffic.State where
  ring : Ring UInt64
  unsent : List (List UInt64)
  received : List (Array UInt64)

structure RingTraffic.Report where
  ordered : Bool
  received : Nat
  runs : List NumberRun
  left : UInt32

namespace RingTraffic

def send (chunk : Nat) (ring : Ring UInt64) (unsent : List UInt64) :
    Ring UInt64 × List UInt64 :=
  match ring.enqueueBulk (unsent.take chunk) false with
  | .ok (ring, _, left) => (ring, left ++ unsent.drop chunk)
  | .error _ =>
      match unsent with
      | [] => (ring, [])
      | parcel :: rest =>
          match ring.enqueue? parcel false with
          | some ring => (ring, rest)
          | none => (ring, unsent)

def receive (chunk : Nat) (ring : Ring UInt64) (received : Array UInt64) :
    Ring UInt64 × Array UInt64 :=
  match ring.dequeueBulk (requestSize chunk) false with
  | (ring, []) =>
      match ring.dequeue? false with
      | some (parcel, ring) => (ring, received.push parcel)
      | none => (ring, received)
  | (ring, parcels) => (ring, received ++ parcels)

def turns {Actor : Type} (turn : Ring UInt64 → Actor → Ring UInt64 × Actor)
    (ring : Ring UInt64) : List Actor → Ring UInt64 × List Actor
  | [] => (ring, [])
  | actor :: rest =>
      let (ring, actor) := turn ring actor
      let (ring, rest) := turns turn ring rest
      (ring, actor :: rest)

def rounds (traffic : RingTraffic) : Nat → State → State
  | 0, state => state
  | more + 1, state =>
      let received := (state.received.map Array.size).foldl (· + ·) 0
      if received = traffic.producers * traffic.parcels then state
      else
        let (ring, unsent) := turns (send traffic.chunk) state.ring state.unsent
        let (ring, received) := turns (receive traffic.chunk) ring state.received
        traffic.rounds more ⟨ring, unsent, received⟩

def run (traffic : RingTraffic) (ring : Ring UInt64) : Report :=
  let final := traffic.rounds (traffic.producers * traffic.parcels)
    ⟨ring, (List.range traffic.producers).map (parcelsOf traffic.parcels),
      List.replicate traffic.consumers #[]⟩
  let received := final.received.flatMap Array.toList
  ⟨final.received.all fun parcels => keepsOrder traffic.producers parcels.toList,
    received.length, runsOfParcels received, final.ring.count⟩

end RingTraffic

end RingPool
