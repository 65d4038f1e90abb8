/-!
# Where pooled objects come from

A pool gets its objects from a source and hands them back to it.  A source is a
state that answers each request for an object, possibly with none; it takes any
object back.  `ScriptedSource` numbers its objects and fails on demand, and
keeps account of its calls; `BlankSource` never fails and knows one object only.
-/

set_option autoImplicit false

namespace RingPool

/-- States of a source of objects. -/
class ObjectSource (Source : Type) (α : outParam Type) where
  /-- Asks for an object. -/
  alloc : Source → Option α × Source
  /-- Hands an object back. -/
  free : Source → α → Source

namespace ObjectSource

variable {Source α : Type} [ObjectSource Source α]

/-- Asks for up to `count` objects, up to the first failure. -/
def allocUpTo (source : Source) : Nat → Array α → Array α × Source
  | 0, obtained => (obtained, source)
  | count + 1, obtained =>
      match alloc source with
      | (none, source) => (obtained, source)
      | (some object, source) => allocUpTo source count (obtained.push object)

def freeAll (source : Source) (objects : List α) : Source :=
  objects.foldl free source

end ObjectSource

structure BlankSource where
  deriving DecidableEq, Repr

instance : ObjectSource BlankSource UInt64 where
  alloc := fun source => (some 0, source)
  free := fun source _ => source

structure SourceAccount where
  allocated : Array UInt64
  failed : Nat
  freed : Array UInt64

def SourceAccount.empty : SourceAccount := ⟨#[], 0, #[]⟩

/-- A source of numbered objects.  A request fails if its number is among
`failing`, or if as many objects as `limit` are outstanding.  Any object is
taken back, so that there may be fewer than none outstanding. -/
structure ScriptedSource where
  limit : Option Nat
  failing : List Nat
  calls : Nat
  next : UInt64
  outstanding : Int
  account : SourceAccount

namespace ScriptedSource

def create (limit : Option Nat) (failing : List Nat) : ScriptedSource :=
  ⟨limit, failing, 0, 0, 0, .empty⟩

def exhausted (source : ScriptedSource) : Bool :=
  match source.limit with
  | none => false
  | some limit => (limit : Int) ≤ source.outstanding

def alloc (source : ScriptedSource) : Option UInt64 × ScriptedSource :=
  if source.failing.contains source.calls || source.exhausted then
    (none, { source with
      calls := source.calls + 1
      account := { source.account with failed := source.account.failed + 1 } })
  else
    (some source.next, { source with
      calls := source.calls + 1
      next := source.next + 1
      outstanding := source.outstanding + 1
      account := { source.account with allocated := source.account.allocated.push source.next } })

def free (source : ScriptedSource) (object : UInt64) : ScriptedSource :=
  { source with
    outstanding := source.outstanding - 1
    account := { source.account with freed := source.account.freed.push object } }

end ScriptedSource

instance : ObjectSource ScriptedSource UInt64 where
  alloc := ScriptedSource.alloc
  free := ScriptedSource.free

end RingPool
