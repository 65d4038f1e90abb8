import RingPool.Interruption
import RingPool.Ring.Core

/-!
# Claiming a range of slots

A claim loads its side's head once, then works in rounds: it loads the other
side's tail, decides what fits, and moves the head.  A shared claim moves the
head by compare-exchange and starts a new round from the head it finds when
that fails; an exclusive claim is alone on its side and stores the head.

`Claim.step` is one atomic step.  `Core.claim` is a claim that nobody
interrupts, and `claim_eq_steps` says that its steps come to the same.
-/

set_option autoImplicit false

namespace RingPool

/-- What an actor asks of its side: so many slots, or as many as there are if
`allowPartial`; `exclusive` promises that it is alone on the side. -/
structure Request where
  side : Side
  count : UInt32
  allowPartial : Bool
  exclusive : Bool
  deriving DecidableEq, Repr

def Request.fit? (request : Request) (room : UInt32) : Option UInt32 :=
  if request.count ≤ room then some request.count
  else if request.allowPartial && 0 < room then some room
  else none

inductive Verdict where
  | granted (reservation : Reservation)
  | short (available : UInt32)
  deriving DecidableEq, Repr

/-- The answer that fits the memory, if `head` is the side's head. -/
def Core.offer {α : Type} (core : Core α) (request : Request) (head : Cursor) : Verdict :=
  let room := core.room request.side head
  match request.fit? room with
  | some count => .granted ⟨request.side, head, head + count, room⟩
  | none => .short room

/-- Where a claim stands: about to load the other side's tail, with the head it
goes by, or about to move the head for the reservation it has in mind. -/
inductive Claim.Phase where
  | seek (head : Cursor)
  | bid (offer : Reservation)
  deriving DecidableEq, Repr

structure Claim where
  request : Request
  attempts : Nat
  phase : Claim.Phase
  deriving DecidableEq, Repr

structure Claim.Result where
  verdict : Verdict
  attempts : Nat
  deriving DecidableEq, Repr

namespace Claim

variable {α : Type}

def start (core : Core α) (request : Request) : Claim :=
  ⟨request, 0, .seek (core.cursors request.side).head⟩

def point (claim : Claim) : Option Point :=
  match claim.phase with
  | .seek _ => some .load
  | .bid _ => if claim.request.exclusive then none else some .exchange

/-- One atomic step.  With `refused` a compare-exchange fails in any case. -/
def step (core : Core α) (claim : Claim) (refused : Bool) :
    Core α × Progress Claim Claim.Result :=
  match claim.phase with
  | .seek head =>
      match core.offer claim.request head with
      | .short available => (core, .returned ⟨.short available, claim.attempts⟩)
      | .granted offer => (core, .running { claim with phase := .bid offer })
  | .bid offer =>
      if claim.request.exclusive then
        (core.setHead claim.request.side offer.next,
          .returned ⟨.granted offer, claim.attempts⟩)
      else
        let head := (core.cursors claim.request.side).head
        if head = offer.head ∧ refused = false then
          (core.setHead claim.request.side offer.next,
            .returned ⟨.granted offer, claim.attempts + 1⟩)
        else
          (core, .running
            { claim with attempts := claim.attempts + 1, phase := .seek head })

def procedure : Procedure (Core α) Claim Claim.Result := ⟨point, step⟩

end Claim

def Core.claim {α : Type} (core : Core α) (request : Request) : Core α × Verdict :=
  match core.offer request (core.cursors request.side).head with
  | .granted reservation =>
      (core.setHead request.side reservation.next, .granted reservation)
  | .short available => (core, .short available)

theorem Core.offer_head {α : Type} {core : Core α} {request : Request} {head : Cursor}
    {offer : Reservation} (offered : core.offer request head = .granted offer) :
    offer.head = head := by
  unfold Core.offer at offered
  simp only at offered
  split at offered
  case h_1 => cases offered; rfl
  case h_2 => cases offered

/-- Uninterrupted, a claim takes at most two steps after its start, makes at
most one compare-exchange, and returns what `Core.claim` says. -/
theorem claim_eq_steps {α : Type} (core : Core α) (request : Request) :
    (∃ available, Claim.step core (Claim.start core request) false =
        (core, .returned ⟨.short available, 0⟩) ∧
      core.claim request = (core, .short available)) ∨
    (∃ waiting reservation attempts, attempts ≤ 1 ∧
      Claim.step core (Claim.start core request) false = (core, .running waiting) ∧
      Claim.step core waiting false =
        ((core.claim request).1, .returned ⟨.granted reservation, attempts⟩) ∧
      (core.claim request).2 = .granted reservation) := by
  cases offered : core.offer request (core.cursors request.side).head with
  | short available =>
      exact Or.inl ⟨available, by simp [Claim.step, Claim.start, offered],
        by simp [Core.claim, offered]⟩
  | granted reservation =>
      have head := Core.offer_head offered
      refine Or.inr ⟨⟨request, 0, .bid reservation⟩, reservation,
        if request.exclusive then 0 else 1, ?_, ?_, ?_, ?_⟩
      · split <;> omega
      · simp [Claim.step, Claim.start, offered]
      · cases exclusive : request.exclusive <;>
          simp [Claim.step, Core.claim, offered, head, exclusive]
      · simp [Core.claim, offered]

end RingPool
