/-!
# Nodes and the addresses they live at

The nodes of a linked queue live at addresses.  An address is live while a node
is there; a node that is freed leaves its address to be used again.  Of a heap
only `NodeHeap.get?` is seen, and the lemmas say what each operation does
to it.
-/

set_option autoImplicit false

namespace RingPool

abbrev Address := Nat

/-- A list node: its value unless that was taken, and the node that follows it
once that is linked. -/
structure Node (α : Type) where
  value : Option α
  next : Option Address
  deriving DecidableEq, Repr

structure NodeHeap (α : Type) where
  cells : Array (Option (Node α))

namespace NodeHeap

variable {α : Type}

def empty : NodeHeap α := ⟨#[]⟩

def get? (heap : NodeHeap α) (address : Address) : Option (Node α) :=
  (heap.cells[address]?).join

def put (heap : NodeHeap α) (address : Address) (node : Node α) : NodeHeap α :=
  if bound : address < heap.cells.size then ⟨heap.cells.set address (some node)⟩
  else ⟨(heap.cells ++ Array.replicate (address - heap.cells.size) none).push (some node)⟩

def erase (heap : NodeHeap α) (address : Address) : NodeHeap α :=
  if bound : address < heap.cells.size then ⟨heap.cells.set address none⟩
  else heap

def fresh (heap : NodeHeap α) : Address := heap.cells.size

/-- The values met on the way along the links from an address, through at most
`steps` nodes. -/
def valuesFrom (heap : NodeHeap α) : Nat → Option Address → List α
  | 0, _ => []
  | _, none => []
  | steps + 1, some address =>
      match heap.get? address with
      | none => []
      | some node => node.value.toList ++ heap.valuesFrom steps node.next

@[simp] theorem get?_empty (address : Address) : (empty : NodeHeap α).get? address = none := rfl

@[simp] theorem get?_fresh (heap : NodeHeap α) : heap.get? heap.fresh = none := by
  simp [get?, fresh]

theorem get?_put (heap : NodeHeap α) (address other : Address) (node : Node α) :
    (heap.put address node).get? other =
      if other = address then some node else heap.get? other := by
  unfold put get?
  by_cases bound : address < heap.cells.size
  · simp only [bound, dif_pos]
    by_cases same : other = address
    · simp [same, bound]
    · rw [Array.getElem?_set_ne bound (Ne.symm same)]
      simp [same]
  · have past : heap.cells.size ≤ address := Nat.le_of_not_lt bound
    have size : heap.cells.size + (address - heap.cells.size) = address :=
      Nat.add_sub_of_le past
    simp only [bound, dif_neg, not_false_eq_true]
    by_cases same : other = address
    · simp only [Array.getElem?_push, Array.size_append, Array.size_replicate, size, same]
      rfl
    · simp only [Array.getElem?_push, Array.size_append, Array.size_replicate, size, same,
        if_false]
      by_cases inside : other < heap.cells.size
      · rw [Array.getElem?_append_left inside]
      · have beyond : heap.cells.size ≤ other := Nat.le_of_not_lt inside
        rw [Array.getElem?_append_right beyond, Array.getElem?_replicate]
        have outside : heap.cells[other]? = none := Array.getElem?_eq_none beyond
        rw [outside]
        split <;> rfl

theorem get?_erase (heap : NodeHeap α) (address other : Address) :
    (heap.erase address).get? other = if other = address then none else heap.get? other := by
  unfold erase get?
  by_cases bound : address < heap.cells.size
  · simp only [bound, dif_pos]
    by_cases same : other = address
    · simp [same, bound]
    · rw [Array.getElem?_set_ne bound (Ne.symm same)]
      simp [same]
  · simp only [bound, dif_neg, not_false_eq_true]
    by_cases same : other = address
    · have outside : heap.cells[address]? = none :=
        Array.getElem?_eq_none (Nat.le_of_not_lt bound)
      simp [same, outside]
    · simp [same]

end NodeHeap

end RingPool
