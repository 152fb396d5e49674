import RecordingDelivery.Delivery.Task
import RecordingDelivery.Schedule.Heap

/-!
The tasks that wait, one for each path at most. They leave in the order of their dates, and those of
one date in the order in which they came.
-/
namespace RecordingDelivery

structure Ticket where
  task : Task
  number : Nat
  deriving DecidableEq, Repr

namespace Ticket

def le (a b : Ticket) : Bool :=
  a.task.due < b.task.due || (a.task.due == b.task.due && a.number ≤ b.number)

theorem le_iff {a b : Ticket} :
    le a b = true ↔ a.task.due < b.task.due ∨ (a.task.due = b.task.due ∧ a.number ≤ b.number) := by
  simp [le]

theorem le_trans (a b c : Ticket) (h : le a b = true) (k : le b c = true) : le a c = true := by
  rw [le_iff] at *; omega

theorem le_total (a b : Ticket) : (le a b || le b a) = true := by
  simp only [Bool.or_eq_true, le_iff]; omega

end Ticket

structure Schedule where
  heap : Heap Ticket := .leaf
  nextNumber : Nat := 0
  paths : List (List Path.Component) := []
  deriving Repr

namespace Schedule

def empty : Schedule := {}

def size (s : Schedule) : Nat := s.heap.size

def isEmpty (s : Schedule) : Bool := s.size == 0

/-- Whether a task for the path waits, whatever the spelling. -/
def contains (s : Schedule) (p : Path) : Bool := s.paths.contains p.components

def insert? (s : Schedule) (t : Task) : Option Schedule :=
  if s.contains t.path then none
  else some
    { heap := s.heap.insert Ticket.le ⟨t, s.nextNumber⟩
      nextNumber := s.nextNumber + 1
      paths := t.path.components :: s.paths }

theorem insert?_isSome (s : Schedule) (t : Task) :
    (s.insert? t).isSome = ! s.contains t.path := by
  unfold insert?; split <;> simp_all

def nextDue? (s : Schedule) : Option Nat := s.heap.top?.map (·.task.due)

inductive Next
  | due (t : Task)
  | notBefore (date : Nat)
  | nothing
  deriving DecidableEq, Repr

def takeDue (s : Schedule) (now : Nat) : Next × Schedule :=
  match s.heap.top? with
  | none => (.nothing, s)
  | some first =>
    if now < first.task.due then (.notBefore first.task.due, s)
    else (.due first.task,
      { s with heap := s.heap.rest Ticket.le, paths := s.paths.erase first.task.path.components })

def toList (s : Schedule) : List Task := (s.heap.toList.mergeSort Ticket.le).map (·.task)

@[simp] theorem length_toList (s : Schedule) : s.toList.length = s.size := by
  simp [toList, size]

@[simp] theorem toList_empty : empty.toList = [] := by
  simp [toList, empty, Heap.toList]

end Schedule
end RecordingDelivery
