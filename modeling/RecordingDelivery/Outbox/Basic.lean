import RecordingDelivery.Schedule.Basic

/-!
The outbox: a schedule of tasks and the takers that wait at it. Each task that comes in calls the
taker that has waited longest, or is remembered once for the next taker that finds nothing due.
-/
namespace RecordingDelivery

/-- A taker that waits: until a date, if some task has one, or until it is called. -/
structure Waiter where
  taker : Nat
  timer : Option Nat
  called : Bool := false
  deriving DecidableEq, Repr

def Waiter.isRunnable (w : Waiter) (now : Nat) : Bool :=
  w.called || match w.timer with
    | some date => date ≤ now
    | none => false

structure Outbox where
  schedule : Schedule := {}
  permit : Bool := false
  waiters : List Waiter := []
  deriving Repr

namespace Outbox

def size (o : Outbox) : Nat := o.schedule.size

def contains (o : Outbox) (p : Path) : Bool := o.schedule.contains p

def tasks (o : Outbox) : List Task := o.schedule.toList

def callFirst? : List Waiter → Option (List Waiter)
  | [] => none
  | w :: rest =>
    if w.called then (callFirst? rest).map (w :: ·) else some ({ w with called := true } :: rest)

/-- A call goes to the longest waiting taker; without one it is kept, once. -/
def notify (o : Outbox) : Outbox :=
  match callFirst? o.waiters with
  | some waiters => { o with waiters }
  | none => { o with permit := true }

@[simp] theorem notify_schedule (o : Outbox) : o.notify.schedule = o.schedule := by
  unfold notify; split <;> rfl

/-- Puts a task in, unless one for its path waits. -/
def insert (o : Outbox) (t : Task) : Bool × Outbox :=
  match o.schedule.insert? t with
  | some schedule => (true, { o with schedule }.notify)
  | none => (false, o)

/-- A new file for a destination. Without a path or an endpoint there is nothing to deliver. -/
def enqueue (o : Outbox) (p : Path) (d : Destination) (wall : Timestamp) (now : Nat) :
    Bool × Outbox :=
  if p.isEmpty || ! d.isEnabled then (false, o) else o.insert (Task.fresh p d wall now)

/-- No retry lies further ahead: thirty years of 365 days. -/
def horizon : Nat := Duration.ofSeconds (86400 * 365 * 30)

def requeue (o : Outbox) (t : Task) (delay now : Nat) : Bool × Outbox :=
  o.insert (t.retryAt (now + min delay horizon))

def takeDue (o : Outbox) (now : Nat) : Option Task × Outbox :=
  match o.schedule.takeDue now with
  | (.due t, schedule) => (some t, { o with schedule })
  | (_, _) => (none, o)

def park (o : Outbox) (taker : Nat) (timer : Option Nat) : Outbox :=
  { o with waiters := o.waiters ++ [{ taker, timer }] }

/-- A taker looks at the first task. If it is not due the taker waits; a call that was kept is used
up by this. -/
def look (o : Outbox) (taker now : Nat) : Option Task × Outbox :=
  match o.schedule.takeDue now with
  | (.due t, schedule) => (some t, { o with schedule })
  | (.notBefore date, _) => (none, { o with permit := false }.park taker (some date))
  | (.nothing, _) => (none, { o with permit := false }.park taker none)

def waiter? (o : Outbox) (taker : Nat) : Option Waiter := o.waiters.find? (·.taker = taker)

def isWaiting (o : Outbox) (taker : Nat) : Bool := (o.waiter? taker).isSome

def isRunnable (o : Outbox) (taker now : Nat) : Bool :=
  match o.waiter? taker with
  | some w => w.isRunnable now
  | none => false

def release (o : Outbox) (taker : Nat) : Outbox :=
  { o with waiters := o.waiters.filter (·.taker != taker) }

/-- A taker gives up waiting; a call that it did not use goes to the next. -/
def leave (o : Outbox) (taker : Nat) : Outbox :=
  match o.waiter? taker with
  | some w => if w.called then (o.release taker).notify else o.release taker
  | none => o

/-- A taker that was called, or whose date has come, looks again. One that wakes at its date without
regard to a call passes the call on. -/
def resume (o : Outbox) (taker now : Nat) (atDate : Bool := false) : Option Task × Outbox :=
  if atDate then (o.leave taker).look taker now else (o.release taker).look taker now

def nextTimer? (o : Outbox) : Option Nat := (o.waiters.filterMap (·.timer)).min?

end Outbox
end RecordingDelivery
