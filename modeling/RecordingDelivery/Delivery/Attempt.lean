import RecordingDelivery.Outbox.Basic
import RecordingDelivery.Spool.Finalize

/-!
One attempt to deliver a task. A file that is gone ends it without a call of the transport; success
finalizes the file; failure brings the task back after a delay, unless its path was enqueued anew
meanwhile.
-/
namespace RecordingDelivery

/-- What an attempt works on: the outbox and the files, at an instant. -/
structure Site where
  outbox : Outbox := {}
  tree : Tree := Tree.fresh
  now : Nat := 0
  wall : Timestamp := .epoch
  deriving Repr

inductive Outcome
  | delivered
  | rescheduled (delay : Nat)
  | superseded
  | vanished
  deriving DecidableEq, Repr

abbrev CallResult := Except Failure Unit

namespace Site

def enqueue (s : Site) (p : Path) (d : Destination) : Bool × Site :=
  let (taken, outbox) := s.outbox.enqueue p d s.wall s.now
  (taken, { s with outbox })

def settle (s : Site) (t : Task) : CallResult → Outcome × Site
  | .ok () =>
    (.delivered, { s with tree := s.tree.finalized t.path t.destination.deleteAfter })
  | .error failure =>
    let delay := t.destination.retryDelay failure
    match s.outbox.requeue t delay s.now with
    | (true, outbox) => (.rescheduled delay, { s with outbox })
    | (false, outbox) => (.superseded, { s with outbox })

/-- An attempt with a transport that may change the site while it is called. -/
def attempt (s : Site) (t : Task) (call : Task → Site → CallResult × Site) : Outcome × Site :=
  if s.tree.isPresent t.path then
    let (result, s) := call t s
    s.settle t result
  else (.vanished, s)

end Site
end RecordingDelivery
