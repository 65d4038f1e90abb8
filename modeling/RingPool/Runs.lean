/-!
# Runs of consecutive numbers

A long list of numbers is reported as its runs: the list is cut, greedily from
the left, into maximal stretches that rise by one, and each stretch is given by
its first number and its length.  A stretch does not go on past the largest
64-bit number.
-/

set_option autoImplicit false

namespace RingPool

/-- A stretch of numbers that rise by one. -/
structure NumberRun where
  first : UInt64
  length : Nat
  deriving DecidableEq, Repr

namespace NumberRun

def expand (run : NumberRun) : List UInt64 :=
  (List.range run.length).map fun offset => run.first + UInt64.ofNat offset

def continues (run : NumberRun) (number : UInt64) : Bool :=
  number.toNat == run.first.toNat + run.length

/-- The runs of a list, given the run that precedes it. -/
def collectAfter (run : NumberRun) : List UInt64 → List NumberRun
  | [] => [run]
  | number :: rest =>
      if run.continues number then collectAfter ⟨run.first, run.length + 1⟩ rest
      else run :: collectAfter ⟨number, 1⟩ rest

def collect : List UInt64 → List NumberRun
  | [] => []
  | number :: rest => collectAfter ⟨number, 1⟩ rest

end NumberRun

/-- The given number of consecutive numbers, modulo 2^64. -/
def consecutive (first : UInt64) (count : Nat) : List UInt64 :=
  (List.range count).map fun offset => first + UInt64.ofNat offset

/-- The runs of a list stand for that list. -/
theorem NumberRun.flatMap_expand_collectAfter (numbers : List UInt64) (run : NumberRun) :
    (collectAfter run numbers).flatMap expand = run.expand ++ numbers := by
  induction numbers generalizing run with
  | nil => simp [collectAfter]
  | cons number rest inductionHypothesis =>
      unfold collectAfter
      split
      case isTrue goesOn =>
        rw [inductionHypothesis]
        have next : run.first + UInt64.ofNat run.length = number := by
          apply UInt64.toNat_inj.mp
          have equal : number.toNat = run.first.toNat + run.length := by
            simpa [continues] using goesOn
          have bound := number.toNat_lt
          rw [UInt64.toNat_add, UInt64.toNat_ofNat']
          omega
        simp [expand, List.range_succ, next]
      case isFalse =>
        simp [inductionHypothesis, expand]

theorem NumberRun.flatMap_expand_collect (numbers : List UInt64) :
    (collect numbers).flatMap expand = numbers := by
  cases numbers with
  | nil => rfl
  | cons number rest => simp [collect, flatMap_expand_collectAfter, expand]

end RingPool
