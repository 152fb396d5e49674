import RecordingDelivery.Delivery.Attempt

/-!
The service that delivers what the outbox holds: one courier that takes a task when it is due,
carries it out, and looks for the next. It waits at the outbox, for the disk and for the transport. A
request to stop is heeded before the next task, never within an attempt.
-/
namespace RecordingDelivery

inductive Phase
  | looking
  | waiting
  /-- Finding out whether the file is there. -/
  | checking (t : Task)
  | calling (t : Task)
  /-- The call succeeded and the file is being finalized. -/
  | finalizing (t : Task)
  | stopped
  deriving DecidableEq, Repr

def Phase.isAtDisk : Phase → Bool
  | .checking _ | .finalizing _ => true
  | .looking | .waiting | .calling _ | .stopped => false

structure Service where
  site : Site := {}
  phase : Phase := .looking
  stopping : Bool := false
  deriving Repr

namespace Service

def courier : Nat := 0

def withOutbox (s : Service) (o : Outbox) : Service := { s with site := { s.site with outbox := o } }

/-- What a look at the outbox leads to. -/
def takeUp (s : Service) (found : Option Task × Outbox) : Service :=
  { s.withOutbox found.2 with phase := match found.1 with
      | some t => .checking t
      | none => .waiting }

/-- The courier is free for another task. -/
def look (s : Service) : Service :=
  if s.stopping then { s with phase := .stopped }
  else s.takeUp (s.site.outbox.look courier s.site.now)

/-- The courier wakes where it waits for a task: because it was called, or at its date without
regard to a call. -/
def wake (s : Service) (atDate : Bool := false) : Service :=
  if s.stopping then { s.withOutbox (s.site.outbox.leave courier) with phase := .stopped }
  else s.takeUp (s.site.outbox.resume courier s.site.now atDate)

/-- A task whose file is gone is dropped; for any other the transport is called. -/
def check (s : Service) (t : Task) : Service :=
  { s with phase := if s.site.tree.isPresent t.path then .calling t else .looking }

def finalize (s : Service) (t : Task) : Service :=
  { s with site := (s.site.settle t (.ok ())).2, phase := .looking }

/-- The disk answers with a fault that the tree does not show: a file counts as present, and one
that is to be finalized stays as it is. -/
def diskFault (s : Service) : Service :=
  match s.phase with
  | .checking t => { s with phase := .calling t }
  | .finalizing _ => { s with phase := .looking }
  | .looking | .waiting | .calling _ | .stopped => s

def isRunnable (s : Service) : Bool :=
  match s.phase with
  | .looking | .checking _ | .finalizing _ => true
  | .waiting => s.stopping || s.site.outbox.isRunnable courier s.site.now
  | .calling _ | .stopped => false

def turn (s : Service) (atDate : Bool := false) : Service :=
  match s.phase with
  | .looking => s.look
  | .waiting => s.wake atDate
  | .checking t => s.check t
  | .finalizing t => s.finalize t
  | .calling _ | .stopped => s

/-- The call of the transport ends. After a failure the courier is free at once. -/
def answer (s : Service) (result : CallResult) : Service :=
  match s.phase, result with
  | .calling t, .ok () => { s with phase := .finalizing t }
  | .calling t, .error failure =>
    { s with site := (s.site.settle t (.error failure)).2, phase := .looking }
  | _, _ => s

/-- A courier that is free looks for the next task. -/
def goOn (s : Service) : Service := if s.phase = .looking then s.look else s

def enqueue (s : Service) (p : Path) (d : Destination) : Bool × Service :=
  let (taken, site) := s.site.enqueue p d
  (taken, { s with site })

/-- The clock moves on; it never goes back. -/
def advance (s : Service) (now : Nat) : Service :=
  { s with site := { s.site with now := max s.site.now now } }

def requestStop (s : Service) : Service := { s with stopping := true }

@[simp] theorem turn_calling (s : Service) (t : Task) (atDate : Bool) (h : s.phase = .calling t) :
    s.turn atDate = s := by
  simp [turn, h]

@[simp] theorem advance_phase (s : Service) (now : Nat) : (s.advance now).phase = s.phase := rfl

@[simp] theorem advance_tree (s : Service) (now : Nat) :
    (s.advance now).site.tree = s.site.tree := rfl

end Service
end RecordingDelivery
