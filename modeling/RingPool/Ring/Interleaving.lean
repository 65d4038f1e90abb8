import RingPool.Ring.Claim
import RingPool.Ring.Publication

/-!
# Many actors on one ring memory

A `RingSystem` is a ring memory with a number of actors on it, each within a call
or not, and the record of all reservations granted so far.  A `RingMove` is one
atomic step of one actor: the start of a call, a further step of the call that
it is within, or one access to one slot.  `RingSystem.next` makes a move and says
what the actor observes; a move out of place changes nothing.

`Permits` states what the users of a ring promise.  Its first part, `PermitsCall`,
is about calls: they claim at least one slot, publish a reservation once and
themselves, and use the exclusive path only while nobody else is on their side.
Its second part, `PermitsAccess`, is about slots: they access each slot of a
reservation once before they publish it.  `WithinWindow` states that a side does
not come round while a claim runs.  None of this is assumed by `next`.
-/

set_option autoImplicit false

namespace RingPool

/-- Half of the cursors: how far a side may go before its cursors can be taken
for older ones. -/
def windowSize : Nat := UInt32.size / 2

/-- A call on a ring memory; a publication goes with the number of its grant. -/
inductive RingCall where
  | claim (claim : Claim)
  | publish (grant : Nat) (publication : Publication)
  | census (census : Census)
  deriving DecidableEq, Repr

/-- How many slots each side has reserved and published since the beginning. -/
structure SlotTotals where
  reserved : Side → Nat
  published : Side → Nat

/-- A call in progress, with the totals at its start. -/
structure ActiveCall where
  call : RingCall
  since : SlotTotals

/-- A reservation that was granted, and what became of it: the accesses to its
slots by offset, the latest first, and whether it is published. -/
structure Grant (α : Type) where
  actor : Nat
  exclusive : Bool
  reservation : Reservation
  accesses : List (Nat × α)
  published : Bool

structure RingSystem (actors : Nat) (α : Type) where
  core : Core α
  calls : Fin actors → Option ActiveCall
  grants : List (Grant α)

inductive RingMove (actors : Nat) (α : Type) where
  | claim (actor : Fin actors) (request : Request)
  | publish (actor : Fin actors) (grant : Nat) (exclusive : Bool)
  | census (actor : Fin actors)
  /-- A further step of the actor's call; `refused` makes a compare-exchange
  fail although the values may match. -/
  | advance (actor : Fin actors) (refused : Bool)
  | write (actor : Fin actors) (grant : Nat) (offset : Nat) (value : α)
  | read (actor : Fin actors) (grant : Nat) (offset : Nat)

inductive RingEvent (α : Type) where
  | claimed (result : Claim.Result)
  | published (spins : Nat)
  | counted (count : UInt32)
  | value (value : α)

namespace ActiveCall

/-- If the call is a claim, then fewer slots than a window has are reserved on its
side since it began. -/
def ClaimWithinWindow (totals : SlotTotals) : ActiveCall → Prop
  | ⟨.claim claim, since⟩ =>
      totals.reserved claim.request.side < since.reserved claim.request.side + windowSize
  | ⟨.publish _ _, _⟩ | ⟨.census _, _⟩ => True

/-- If the call is a count, then fewer slots than a window has are published on
either side since it began. -/
def CountWithinWindow (totals : SlotTotals) : ActiveCall → Prop
  | ⟨.census _, since⟩ =>
      ∀ side, totals.published side < since.published side + windowSize
  | ⟨.claim _, _⟩ | ⟨.publish _ _, _⟩ => True

end ActiveCall

namespace Grant

variable {α : Type}

def cursor (grant : Grant α) (offset : Nat) : Cursor :=
  grant.reservation.index (UInt32.ofNat offset)

def accessed (grant : Grant α) (offset : Nat) (value : α) : Grant α :=
  { grant with accesses := (offset, value) :: grant.accesses }

def settle (grant : Grant α) : Grant α := { grant with published := true }

def size (grant : Grant α) : Nat := grant.reservation.len.toNat

def totalSize (grants : List (Grant α)) : Nat :=
  grants.foldr (fun grant total => grant.size + total) 0

end Grant

namespace RingSystem

variable {actors : Nat} {α : Type}

def start (capacity : Capacity) (blank : α) (origin : Cursor) : RingSystem actors α :=
  ⟨.create capacity blank origin, fun _ => none, []⟩

def grantsOf (system : RingSystem actors α) (side : Side) : List (Grant α) :=
  system.grants.filter fun grant => grant.reservation.side == side

def totals (system : RingSystem actors α) : SlotTotals where
  reserved := fun side => Grant.totalSize (system.grantsOf side)
  published := fun side => Grant.totalSize ((system.grantsOf side).filter Grant.published)

def setCall (system : RingSystem actors α) (actor : Fin actors) (call : Option ActiveCall) :
    RingSystem actors α :=
  { system with calls := fun other => if other = actor then call else system.calls other }

def enter (system : RingSystem actors α) (actor : Fin actors) (call : RingCall) :
    RingSystem actors α :=
  match system.calls actor with
  | some _ => system
  | none => system.setCall actor (some ⟨call, system.totals⟩)

def settle {Call Result : Type} (system : RingSystem actors α) (actor : Fin actors)
    (since : SlotTotals) (resume : Call → RingCall)
    (finish : RingSystem actors α → Result → RingSystem actors α × RingEvent α) :
    Core α × Progress Call Result → RingSystem actors α × Option (RingEvent α)
  | (core, .running call) =>
      (({ system with core }).setCall actor (some ⟨resume call, since⟩), none)
  | (core, .returned result) =>
      let (system, event) := finish (({ system with core }).setCall actor none) result
      (system, some event)

def recordClaim (actor : Fin actors) (exclusive : Bool) (system : RingSystem actors α)
    (result : Claim.Result) : RingSystem actors α × RingEvent α :=
  match result.verdict with
  | .short _ => (system, .claimed result)
  | .granted reservation =>
      ({ system with grants := system.grants ++ [⟨actor, exclusive, reservation, [], false⟩] },
        .claimed result)

def recordPublication (grant : Nat) (system : RingSystem actors α) (spins : Nat) :
    RingSystem actors α × RingEvent α :=
  ({ system with grants := system.grants.modify grant Grant.settle }, .published spins)

def next (system : RingSystem actors α) :
    RingMove actors α → RingSystem actors α × Option (RingEvent α)
  | .claim actor request => (system.enter actor (.claim (Claim.start system.core request)), none)
  | .publish actor grant exclusive =>
      match system.grants[grant]? with
      | none => (system, none)
      | some granted =>
          (system.enter actor (.publish grant (Publication.start granted.reservation exclusive)),
            none)
  | .census actor => (system.enter actor (.census .start), none)
  | .advance actor refused =>
      match system.calls actor with
      | none => (system, none)
      | some ⟨.claim claim, since⟩ =>
          system.settle actor since .claim (recordClaim actor claim.request.exclusive)
            (claim.step system.core refused)
      | some ⟨.publish grant publication, since⟩ =>
          system.settle actor since (.publish grant) (recordPublication grant)
            (publication.step system.core)
      | some ⟨.census census, since⟩ =>
          system.settle actor since .census (fun system count => (system, .counted count))
            (census.step system.core)
  | .write _ grant offset value =>
      match system.grants[grant]? with
      | none => (system, none)
      | some granted =>
          ({ system with
              core := system.core.write (granted.cursor offset) value
              grants := system.grants.set grant (granted.accessed offset value) },
            none)
  | .read _ grant offset =>
      match system.grants[grant]? with
      | none => (system, none)
      | some granted =>
          let value := system.core.read (granted.cursor offset)
          ({ system with grants := system.grants.set grant (granted.accessed offset value) },
            some (.value value))

def run (system : RingSystem actors α) :
    List (RingMove actors α) → RingSystem actors α × List (RingEvent α)
  | [] => (system, [])
  | move :: moves =>
      let (after, event) := system.next move
      let (final, events) := after.run moves
      (final, event.toList ++ events)

def claiming (system : RingSystem actors α) (actor : Fin actors) : Option Request :=
  match system.calls actor with
  | some ⟨.claim claim, _⟩ => some claim.request
  | _ => none

/-- Nobody claims on a side and nothing on it waits to be published. -/
def SideIsFree (system : RingSystem actors α) (side : Side) : Prop :=
  (∀ actor, ∀ request ∈ system.claiming actor, request.side ≠ side) ∧
    ∀ grant ∈ system.grantsOf side, grant.published = true

/-- Nobody uses the exclusive path of a side, from the start of a claim to the
end of its publication. -/
def NoneExclusive (system : RingSystem actors α) (side : Side) : Prop :=
  (∀ actor, ∀ request ∈ system.claiming actor,
      request.side = side → request.exclusive = false) ∧
    ∀ grant ∈ system.grantsOf side, grant.exclusive = true → grant.published = true

def MayAccess (system : RingSystem actors α) (actor : Fin actors) (side : Side)
    (grant offset : Nat) : Prop :=
  system.calls actor = none ∧
    ∃ granted ∈ system.grants[grant]?, granted.actor = actor ∧
      granted.reservation.side = side ∧
      granted.published = false ∧ offset < granted.size ∧
      offset ∉ granted.accesses.map Prod.fst

/-- What the users of a ring promise about their calls: a claim asks for at least
one slot, a reservation is published once and by the actor that claimed it, and
the exclusive path is used only alone on a side. -/
def PermitsCall (system : RingSystem actors α) : RingMove actors α → Prop
  | .claim actor request =>
      system.calls actor = none ∧ 0 < request.count ∧
        if request.exclusive then system.SideIsFree request.side
        else system.NoneExclusive request.side
  | .publish actor grant exclusive =>
      system.calls actor = none ∧
        ∃ granted ∈ system.grants[grant]?, granted.actor = actor ∧
          granted.published = false ∧
          (exclusive = true → ∀ other ∈ system.grants.eraseIdx grant,
            other.reservation.side = granted.reservation.side → other.published = true)
  | .census actor => system.calls actor = none
  | .advance _ _ | .write _ _ _ _ | .read _ _ _ => True

/-- What they promise about slots: each slot of a reservation is accessed once,
by its holder and before the publication. -/
def PermitsAccess (system : RingSystem actors α) : RingMove actors α → Prop
  | .publish _ grant _ =>
      ∀ granted ∈ system.grants[grant]?, granted.accesses.length = granted.size
  | .write actor grant offset _ => system.MayAccess actor .producer grant offset
  | .read actor grant offset => system.MayAccess actor .consumer grant offset
  | .claim _ _ | .census _ | .advance _ _ => True

def Permits (system : RingSystem actors α) (move : RingMove actors α) : Prop :=
  system.PermitsCall move ∧ system.PermitsAccess move

def WithinWindow (system : RingSystem actors α) : Prop :=
  ∀ actor, ∀ active ∈ system.calls actor, active.ClaimWithinWindow system.totals

def CountsWithinWindow (system : RingSystem actors α) : Prop :=
  ∀ actor, ∀ active ∈ system.calls actor, active.CountWithinWindow system.totals

/-- Every move of a run keeps to a rule. -/
def Keeps (rule : RingSystem actors α → RingMove actors α → Prop)
    (system : RingSystem actors α) : List (RingMove actors α) → Prop
  | [] => True
  | move :: moves => rule system move ∧ (system.next move).1.Keeps rule moves

/-- Every state of a run, its first one apart, has a property. -/
def Throughout (property : RingSystem actors α → Prop)
    (system : RingSystem actors α) : List (RingMove actors α) → Prop
  | [] => True
  | move :: moves =>
      property (system.next move).1 ∧ (system.next move).1.Throughout property moves

/-- A run of which all calls are permitted; slots may be accessed in any way. -/
def Orderly (system : RingSystem actors α) (moves : List (RingMove actors α)) : Prop :=
  system.Keeps PermitsCall moves

/-- A run of which all moves are permitted. -/
def Disciplined (system : RingSystem actors α) (moves : List (RingMove actors α)) : Prop :=
  system.Keeps Permits moves

/-- A run in which no side comes round while a claim runs. -/
def Windowed (system : RingSystem actors α) (moves : List (RingMove actors α)) : Prop :=
  system.Throughout WithinWindow moves

section Decidability

instance (system : RingSystem actors α) (side : Side) : Decidable (system.SideIsFree side) :=
  inferInstanceAs (Decidable (_ ∧ _))

instance (system : RingSystem actors α) (side : Side) : Decidable (system.NoneExclusive side) :=
  inferInstanceAs (Decidable (_ ∧ _))

instance (system : RingSystem actors α) (actor : Fin actors) (side : Side) (grant offset : Nat) :
    Decidable (system.MayAccess actor side grant offset) :=
  inferInstanceAs (Decidable (_ ∧ _))

instance (system : RingSystem actors α) : DecidablePred system.PermitsCall
  | .claim _ _ => inferInstanceAs (Decidable (_ ∧ _))
  | .publish _ _ _ => inferInstanceAs (Decidable (_ ∧ _))
  | .census _ => inferInstanceAs (Decidable (_ = none))
  | .advance _ _ | .write _ _ _ _ | .read _ _ _ => inferInstanceAs (Decidable True)

instance (system : RingSystem actors α) : DecidablePred system.PermitsAccess
  | .publish _ _ _ => inferInstanceAs (Decidable (∀ _ ∈ _, _))
  | .write _ _ _ _ | .read _ _ _ => inferInstanceAs (Decidable (MayAccess _ _ _ _ _))
  | .claim _ _ | .census _ | .advance _ _ => inferInstanceAs (Decidable True)

instance (system : RingSystem actors α) : DecidablePred system.Permits :=
  fun _ => inferInstanceAs (Decidable (_ ∧ _))

instance (totals : SlotTotals) : DecidablePred (ActiveCall.ClaimWithinWindow totals)
  | ⟨.claim _, _⟩ => inferInstanceAs (Decidable (_ < _))
  | ⟨.publish _ _, _⟩ | ⟨.census _, _⟩ => inferInstanceAs (Decidable True)

instance : DecidablePred (@WithinWindow actors α) :=
  fun _ => inferInstanceAs (Decidable (∀ _, ∀ _ ∈ _, _))

instance decidableKeeps (rule : RingSystem actors α → RingMove actors α → Prop)
    [∀ system, DecidablePred (rule system)] (system : RingSystem actors α) :
    DecidablePred (system.Keeps rule)
  | [] => inferInstanceAs (Decidable True)
  | move :: moves =>
      have := decidableKeeps rule (system.next move).1 moves
      inferInstanceAs (Decidable (_ ∧ _))

instance decidableThroughout (property : RingSystem actors α → Prop) [DecidablePred property]
    (system : RingSystem actors α) : DecidablePred (system.Throughout property)
  | [] => inferInstanceAs (Decidable True)
  | move :: moves =>
      have := decidableThroughout property (system.next move).1 moves
      inferInstanceAs (Decidable (_ ∧ _))

instance (system : RingSystem actors α) : DecidablePred system.Orderly :=
  fun _ => inferInstanceAs (Decidable (system.Keeps PermitsCall _))

instance (system : RingSystem actors α) : DecidablePred system.Disciplined :=
  fun _ => inferInstanceAs (Decidable (system.Keeps Permits _))

instance (system : RingSystem actors α) : DecidablePred system.Windowed :=
  fun _ => inferInstanceAs (Decidable (system.Throughout WithinWindow _))

end Decidability

end RingSystem

end RingPool
