import RecordingDelivery.Delivery.Failure
import RecordingDelivery.Time.Timestamp

/-!
A file that waits for delivery: where it goes, how often that has failed, and when the next attempt
may begin.
-/
namespace RecordingDelivery

structure Task where
  path : Path
  destination : Destination
  enqueuedAt : Timestamp
  attempt : Nat
  due : Nat
  deriving DecidableEq, Repr, Inhabited

namespace Task

def attemptLimit : Nat := 0xFFFFFFFF

def fresh (path : Path) (destination : Destination) (wall : Timestamp) (now : Nat) : Task :=
  ⟨path, destination, wall, 0, now⟩

def retryAt (t : Task) (due : Nat) : Task :=
  { t with attempt := min (t.attempt + 1) attemptLimit, due }

@[simp] theorem retryAt_path (t : Task) (due : Nat) : (t.retryAt due).path = t.path := rfl

@[simp] theorem retryAt_due (t : Task) (due : Nat) : (t.retryAt due).due = due := rfl

@[simp] theorem retryAt_destination (t : Task) (due : Nat) :
    (t.retryAt due).destination = t.destination := rfl

@[simp] theorem retryAt_enqueuedAt (t : Task) (due : Nat) :
    (t.retryAt due).enqueuedAt = t.enqueuedAt := rfl

end Task
end RecordingDelivery
