import Iojxd.LinkedCells
import Iojxd.TransitionRun

/-!
# The cyclic queue of `util.cxx`

The header `entry` is a cell whose `next` points at the tail of a circular list;
behind the tail comes a placeholder, and behind it the oldest value.  Addresses
are numbers, 0 is `NULL`.  The address that `malloc` returns is an argument of
the operations that allocate; `filler` is the pattern that
`ixut_cycqueue_create` stores into the two values it never uses.

An operation gives nothing when an assertion fails or when it reads or writes an
address without a cell.
-/

namespace Iojxd
namespace CycQueue

open LinkedCells TransitionRun

variable {α : Type}

/-- An address that `malloc` can return: neither `NULL` nor live. -/
def Fresh (h : Heap α) (a : Nat) : Prop :=
  a ≠ 0 ∧ (h a).isNone = true

instance (h : Heap α) (a : Nat) : Decidable (Fresh h a) :=
  inferInstanceAs (Decidable (_ ∧ _))

/-- `assert(entry != NULL); assert(entry->next != NULL);` -/
def assertEntry (h : Heap α) (entry : Nat) : Option Unit := do
  guard (entry ≠ 0)
  let next ← h.readNext entry
  guard (next ≠ 0)

/-- `ixut_cycqueue_create`. -/
def ixutCycqueueCreate
    (h : Heap α) (filler : α) (entry placeHolder : Nat) : Heap α :=
  (h.alloc entry ⟨filler, placeHolder⟩).alloc placeHolder
    ⟨filler, placeHolder⟩

/-- `ixut_cycqueue_enqueue`. -/
def ixutCycqueueEnqueue
    (h : Heap α) (entry : Nat) (data : α) (newNode : Nat) :
    Option (Heap α) := do
  assertEntry h entry
  let h := h.alloc newNode ⟨data, 0⟩
  -- new_node->next = entry->next->next
  let h ← h.writeNext newNode (← h.readNext (← h.readNext entry))
  -- entry->next->next = new_node
  let h ← h.writeNext (← h.readNext entry) newNode
  -- entry->next = new_node
  h.writeNext entry newNode

/-- `ixut_cycqueue_dequeue`. -/
def ixutCycqueueDequeue
    (h : Heap α) (entry : Nat) : Option (Heap α × α) := do
  assertEntry h entry
  let retNode ← h.readNext (← h.readNext (← h.readNext entry))
  -- entry->next->next->next = ret_node->next
  let h ← h.writeNext (← h.readNext (← h.readNext entry))
    (← h.readNext retNode)
  let h ←
    if retNode = (← h.readNext entry) then
      h.writeNext entry (← h.readNext retNode)
    else some h
  let ret ← h.readData retNode
  return (h.free retNode, ret)

/-- `ixut_cycqueue_front`. -/
def ixutCycqueueFront (h : Heap α) (entry : Nat) : Option α := do
  assertEntry h entry
  guard ((← h.readNext (← h.readNext entry)) ≠ (← h.readNext entry))
  h.readData (← h.readNext (← h.readNext (← h.readNext entry)))

/-- `ixut_cycqueue_empty`. -/
def ixutCycqueueEmpty (h : Heap α) (entry : Nat) : Option Bool := do
  assertEntry h entry
  return (← h.readNext entry) == (← h.readNext (← h.readNext entry))

/-- Calls of the queue's interface. -/
inductive Op (α : Type) where
  | enqueue (data : α) (newNode : Nat)
  | dequeue
  | front
  | empty

/-- What the calls returned. -/
inductive Answer (α : Type) where
  | dequeued (data : α)
  | front (data : α)
  | empty (flag : Bool)
deriving DecidableEq

/-- The memory, and the answers so far. -/
structure QueueState (α : Type) where
  heap : Heap α
  answers : List (Answer α)

/-- One call on the queue at `entry`; a new node is put where `malloc` can put
it. -/
def step (entry : Nat) (s : QueueState α) : Op α → Option (QueueState α)
  | .enqueue data newNode =>
      if Fresh s.heap newNode then
        (ixutCycqueueEnqueue s.heap entry data newNode).map fun h =>
          { s with heap := h }
      else none
  | .dequeue =>
      (ixutCycqueueDequeue s.heap entry).map fun r =>
        ⟨r.1, s.answers ++ [.dequeued r.2]⟩
  | .front =>
      (ixutCycqueueFront s.heap entry).map fun x =>
        { s with answers := s.answers ++ [.front x] }
  | .empty =>
      (ixutCycqueueEmpty s.heap entry).map fun b =>
        { s with answers := s.answers ++ [.empty b] }

/-! ## The queue as a list -/

/-- A first-in first-out list, oldest value first, and the answers so far. -/
structure Fifo (α : Type) where
  items : List α
  answers : List (Answer α)

/-- What the calls mean; `dequeue` and `front` are for a non-empty queue. -/
def fifoStep (q : Fifo α) : Op α → Option (Fifo α)
  | .enqueue data _ => some { q with items := q.items ++ [data] }
  | .dequeue =>
      match q.items with
      | [] => none
      | x :: items => some ⟨items, q.answers ++ [.dequeued x]⟩
  | .front =>
      match q.items with
      | [] => none
      | x :: _ => some { q with answers := q.answers ++ [.front x] }
  | .empty =>
      some { q with answers := q.answers ++ [.empty q.items.isEmpty] }

/-- The cells of the queue at `entry`, oldest first behind the placeholder, hold
the given values; no other cell differs from the memory `h₀` the queue was made
in. -/
structure Represents
    (h₀ h : Heap α) (entry placeHolder : Nat) (cells : List Nat)
    (items : List α) : Prop where
  header : ∃ filler, h entry = some ⟨filler, cells.getLastD placeHolder⟩
  ring : Ring h placeHolder cells
  apart : entry ∉ placeHolder :: cells
  data : values h cells = items.map some
  nonnull : ∀ a ∈ entry :: placeHolder :: cells, a ≠ 0
  outside : ∀ a ∈ entry :: placeHolder :: cells, h₀ a = none
  frame : ∀ a, a ∉ entry :: placeHolder :: cells → h a = h₀ a

end CycQueue
end Iojxd
