import RecordingDelivery.Delivery.Destination
import RecordingDelivery.Files.Fault

/-!
How one delivery fails, and after which delay it is repeated: an answer of the endpoint that is no
success may have an interval of its own.
-/
namespace RecordingDelivery

inductive Failure
  | unreadable (path : Path) (fault : Fault)
  | noAnswer
  | rejected (status : Nat)
  deriving DecidableEq, Repr

namespace Failure

def status? : Failure → Option Nat
  | .rejected status => some status
  | .unreadable .. | .noAnswer => none

/-- The message, where the program itself words it. -/
def message? : Failure → Option String
  | .unreadable path fault => some ("failed to read " ++ path.display ++ ": " ++ fault.message)
  | .noAnswer => none
  | .rejected status => some ("endpoint returned HTTP " ++ toString status)

end Failure

def Destination.retryDelay (d : Destination) (f : Failure) : Nat :=
  if f.status?.isSome then d.rejectionInterval.getD d.retryInterval else d.retryInterval

@[simp] theorem Destination.retryDelay_noAnswer (d : Destination) :
    d.retryDelay .noAnswer = d.retryInterval := rfl

@[simp] theorem Destination.retryDelay_unreadable (d : Destination) (p : Path) (e : Fault) :
    d.retryDelay (.unreadable p e) = d.retryInterval := rfl

@[simp] theorem Destination.retryDelay_rejected (d : Destination) (n : Nat) :
    d.retryDelay (.rejected n) = d.rejectionInterval.getD d.retryInterval := rfl

end RecordingDelivery
