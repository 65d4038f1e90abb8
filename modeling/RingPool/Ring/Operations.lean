import RingPool.Ring.Basic
import RingPool.Ring.Interleaving

/-!
# Operations of many actors on one ring

A `BusyRing` is a ring with a number of actors on it, each within an operation or not.  A
transfer claims slots, moves one element after the other into them or out of them, and
publishes them; a count looks at the memory only.  Each of their atomic steps is a move of
the ring memory (`RingSystem`), and so the operations of several actors interleave step by
step.  A blocking operation is one transfer after the other by the same actor.

`BusyRing.Permits` states what the users of a ring promise: an operation of the exclusive
kind has its side to itself while it runs.  `Ring.drop` is the loop in which a ring that
goes drops what it still owns.
-/

set_option autoImplicit false

namespace RingPool

/-- What an actor wants to move.  `whole` asks for all or nothing whatever the policy, as
the operations on one element do. -/
inductive RingOrder (α : Type) where
  | put (items : List α) (whole : Bool)
  | take (most : UInt32) (whole : Bool)

inductive RingReceipt (α : Type) where
  /-- Some of the items are in the ring; only bulks are reported on. -/
  | stored (report : Option Enqueued) (items left : List α)
  | exceeded (refusal : RingError) (left : List α)
  | full (left : List α)
  | taken (items : List α)

namespace RingReceipt

variable {α : Type}

def passed : Side → RingReceipt α → List α
  | .producer, .stored _ items _ => items
  | .consumer, .taken items => items
  | _, _ => []

def handedBack : RingReceipt α → List α
  | .stored _ _ left | .exceeded _ left | .full left => left
  | .taken _ => []

end RingReceipt

/-- A reservation on which an actor works: the number of its grant, and the elements
that were moved so far. -/
structure Haul (α : Type) where
  grant : Nat
  reservation : Reservation
  moved : List α

namespace RingOrder

variable {α : Type}

def enqueue (item : α) : RingOrder α := .put [item] true

def enqueueBulk (items : List α) : RingOrder α := .put items false

def dequeue : RingOrder α := .take 1 true

def dequeueBulk (most : UInt32) : RingOrder α := .take most false

def side : RingOrder α → Side
  | .put _ _ => .producer
  | .take _ _ => .consumer

def items : RingOrder α → List α
  | .put items _ => items
  | .take _ _ => []

def requested : RingOrder α → UInt32
  | .put items _ => requestSize items.length
  | .take most _ => most

def whole : RingOrder α → Bool
  | .put _ whole | .take _ whole => whole

def request (order : RingOrder α) (policy : TransferPolicy) (exclusive : Bool) : Request :=
  ⟨order.side, order.requested, !order.whole && policy == .burst, exclusive⟩

def nothing : RingOrder α → RingReceipt α
  | .put items _ => .stored (some .nothing) [] items
  | .take _ _ => .taken []

def refused (order : RingOrder α) (policy : TransferPolicy) (available : UInt32) :
    RingReceipt α :=
  match order with
  | .put items true => .full items
  | .put items false =>
      match policy with
      | .fixed => .exceeded (.capacityExceeded order.requested available) items
      | .burst => .stored (some .nothing) [] items
  | .take _ _ => .taken []

def receipt (order : RingOrder α) (ring : Ring α) (haul : Haul α) : RingReceipt α :=
  let count := haul.reservation.len
  match order with
  | .put items whole =>
      .stored (if whole then none else some ⟨count, ring.exceedsQuota haul.reservation⟩)
        haul.moved (items.drop count.toNat)
  | .take _ _ => .taken haul.moved

end RingOrder

/-- Where a transfer stands: claiming slots, moving elements or publishing the slots. -/
inductive RingStage (α : Type) where
  | claiming
  | moving (haul : Haul α)
  | publishing (haul : Haul α)

structure RingTransfer (α : Type) where
  order : RingOrder α
  exclusive : Bool
  stage : RingStage α

inductive RingTask (α : Type) where
  | transfer (transfer : RingTransfer α)
  | counting

structure BusyRing (actors : Nat) (α : Type) where
  system : RingSystem actors α
  policy : TransferPolicy
  watermark : Option UInt32
  tasks : Fin actors → Option (RingTask α)

inductive RingAct (actors : Nat) (α : Type) where
  | start (actor : Fin actors) (order : RingOrder α) (exclusive : Bool)
  | count (actor : Fin actors)
  /-- A further step of the actor's operation; `refused` makes a compare-exchange fail
  although the values may match. -/
  | advance (actor : Fin actors) (refused : Bool)

inductive RingReport (actors : Nat) (α : Type) where
  | moved (actor : Fin actors) (order : RingOrder α) (receipt : RingReceipt α)
  | counted (actor : Fin actors) (count : UInt32)

def RingReport.passed {actors : Nat} {α : Type} (side : Side) : RingReport actors α → List α
  | .moved _ _ receipt => receipt.passed side
  | .counted _ _ => []

namespace Haul

variable {actors : Nat} {α : Type}

def add (haul : Haul α) (item : α) : Haul α := { haul with moved := haul.moved ++ [item] }

def move? (haul : Haul α) (system : RingSystem actors α) (actor : Fin actors)
    (order : RingOrder α) : Option (RingSystem actors α × Haul α) :=
  let offset := haul.moved.length
  if haul.reservation.len.toNat ≤ offset then none
  else
    match order with
    | .put items _ =>
        match items[offset]? with
        | none => none
        | some item => some ((system.next (.write actor haul.grant offset item)).1, haul.add item)
    | .take _ _ =>
        match system.next (.read actor haul.grant offset) with
        | (system, some (.value item)) => some (system, haul.add item)
        | _ => none

end Haul

namespace BusyRing

variable {actors : Nat} {α : Type}

def start (capacity : Capacity) (policy : TransferPolicy) (watermark : Option UInt32) (blank : α)
    (origin : Cursor) : BusyRing actors α :=
  ⟨.start capacity blank origin, policy, watermark, fun _ => none⟩

def ring (busy : BusyRing actors α) : Ring α := ⟨busy.system.core, busy.policy, busy.watermark⟩

def worked (busy : BusyRing actors α) (actor : Fin actors) (system : RingSystem actors α)
    (task : Option (RingTask α)) : BusyRing actors α :=
  { busy with system, tasks := fun other => if other = actor then task else busy.tasks other }

def stepTransfer (busy : BusyRing actors α) (actor : Fin actors) (refused : Bool)
    (transfer : RingTransfer α) : RingSystem actors α × Progress (RingTransfer α) (RingReceipt α) :=
  match transfer.stage with
  | .claiming =>
      match busy.system.next (.advance actor refused) with
      | (system, some (.claimed ⟨.granted reservation, _⟩)) =>
          (system, .running { transfer with
            stage := .moving ⟨busy.system.grants.length, reservation, []⟩ })
      | (system, some (.claimed ⟨.short available, _⟩)) =>
          (system, .returned (transfer.order.refused busy.policy available))
      | (system, _) => (system, .running transfer)
  | .moving haul =>
      match haul.move? busy.system actor transfer.order with
      | some (system, haul) => (system, .running { transfer with stage := .moving haul })
      | none =>
          ((busy.system.next (.publish actor haul.grant transfer.exclusive)).1,
            .running { transfer with stage := .publishing haul })
  | .publishing haul =>
      match busy.system.next (.advance actor refused) with
      | (system, some _) => (system, .returned (transfer.order.receipt busy.ring haul))
      | (system, none) => (system, .running transfer)

/-- Makes an act and says what is observed; an act out of place changes nothing. -/
def next (busy : BusyRing actors α) :
    RingAct actors α → BusyRing actors α × Option (RingReport actors α)
  | .start actor order exclusive =>
      match busy.tasks actor with
      | some _ => (busy, none)
      | none =>
          if order.requested = 0 then (busy, some (.moved actor order order.nothing))
          else
            let claim := RingMove.claim actor (order.request busy.policy exclusive)
            (busy.worked actor (busy.system.next claim).1
              (some (.transfer ⟨order, exclusive, .claiming⟩)), none)
  | .count actor =>
      match busy.tasks actor with
      | some _ => (busy, none)
      | none =>
          (busy.worked actor (busy.system.next (.census actor)).1 (some .counting), none)
  | .advance actor refused =>
      match busy.tasks actor with
      | none => (busy, none)
      | some .counting =>
          match busy.system.next (.advance actor refused) with
          | (system, some (.counted count)) =>
              (busy.worked actor system none, some (.counted actor count))
          | (system, _) => (busy.worked actor system (some .counting), none)
      | some (.transfer transfer) =>
          match busy.stepTransfer actor refused transfer with
          | (system, .running transfer) =>
              (busy.worked actor system (some (.transfer transfer)), none)
          | (system, .returned receipt) =>
              (busy.worked actor system none, some (.moved actor transfer.order receipt))

def run (busy : BusyRing actors α) :
    List (RingAct actors α) → BusyRing actors α × List (RingReport actors α)
  | [] => (busy, [])
  | act :: acts =>
      let (after, report) := busy.next act
      let (final, reports) := after.run acts
      (final, report.toList ++ reports)

def transfer? (busy : BusyRing actors α) (actor : Fin actors) : Option (RingTransfer α) :=
  match busy.tasks actor with
  | some (.transfer transfer) => some transfer
  | some .counting | none => none

/-- What the users of a ring promise: transfers of one side run side by side only if none
of them is exclusive. -/
def Permits (busy : BusyRing actors α) : RingAct actors α → Prop
  | .start _ order exclusive =>
      ∀ other, ∀ transfer ∈ busy.transfer? other, transfer.order.side = order.side →
        exclusive = false ∧ transfer.exclusive = false
  | .count _ | .advance _ _ => True

def Orderly (busy : BusyRing actors α) : List (RingAct actors α) → Prop
  | [] => True
  | act :: acts => busy.Permits act ∧ (busy.next act).1.Orderly acts

def Windowed (busy : BusyRing actors α) : List (RingAct actors α) → Prop
  | [] => True
  | act :: acts => (busy.next act).1.system.WithinWindow ∧ (busy.next act).1.Windowed acts

section Decidability

instance (busy : BusyRing actors α) : DecidablePred busy.Permits
  | .start _ _ _ => inferInstanceAs (Decidable (∀ _, ∀ _ ∈ _, _))
  | .count _ | .advance _ _ => inferInstanceAs (Decidable True)

instance decidableOrderly (busy : BusyRing actors α) : DecidablePred busy.Orderly
  | [] => inferInstanceAs (Decidable True)
  | act :: acts =>
      have := decidableOrderly (busy.next act).1 acts
      inferInstanceAs (Decidable (_ ∧ _))

instance decidableWindowed (busy : BusyRing actors α) : DecidablePred busy.Windowed
  | [] => inferInstanceAs (Decidable True)
  | act :: acts =>
      have := decidableWindowed (busy.next act).1 acts
      inferInstanceAs (Decidable (_ ∧ _))

end Decidability

end BusyRing

/-- The elements that a ring drops when it goes, if its elements need to be dropped. -/
def Ring.drop {α : Type} (ring : Ring α) : List α := ring.core.drop

end RingPool
