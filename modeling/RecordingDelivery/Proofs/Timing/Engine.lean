import RecordingDelivery.Proofs.Service.Run
import RecordingDelivery.Rehearsal.Basic

/-!
Two ways to run a courier by the clock: the service itself, which waits at its outbox with a timer and
to be called, and a plain schedule of what is to be done when. One and the same clock drives both. It
moves only when nothing can be done at this instant, and then to the next thing that is known of.
-/
namespace RecordingDelivery

inductive Disturbance
  | enqueue (p : Path) (d : Destination)
  | requeue (t : Task) (delay : Nat)
  | scan (d : Destination) (dir : Path)
  | files (tree : Tree)
  | setWall (wall : Timestamp)
  deriving Repr

/-- A disturbance at a time. At that instant it lets a busy courier act first until it has acted so
often. -/
structure Stimulus where
  time : Nat
  after : Nat := 0
  what : Disturbance
  deriving Repr

structure Surroundings where
  /-- How long a call takes and how it ends, by the calls up to it, the latest first. -/
  transport : List Call → Nat × CallResult
  /-- Whether the disk gives a fault, by the number of earlier acts. -/
  isFaulty : Nat → Bool

structure Engine (σ : Type) where
  now : σ → Nat
  acts : σ → Nat
  /-- Whether there is something to do at this instant. -/
  isReady : σ → Bool
  act : σ → σ
  /-- When there will be something to do, if nothing comes in between. -/
  alarm? : σ → Option Nat
  moveTo : σ → Nat → σ
  suffer : σ → Disturbance → σ

structure Course (σ : Type) where
  state : σ
  coming : List Stimulus

namespace Engine

variable {σ : Type} (e : Engine σ)

def isFirst (s : σ) (x : Stimulus) : Bool :=
  x.time ≤ e.now s && (x.after ≤ e.acts s || ! e.isReady s)

def nextTime? (c : Course σ) : Option Nat :=
  Option.merge min (e.alarm? c.state) (c.coming.head?.map (·.time))

/-- The courier acts, or the clock moves if it has nothing to do. -/
def proceed (c : Course σ) : Course σ :=
  if e.isReady c.state then { c with state := e.act c.state }
  else match e.nextTime? c with
    | some t => { c with state := e.moveTo c.state t }
    | none => c

def step (c : Course σ) : Course σ :=
  match c.coming with
  | x :: rest => if e.isFirst c.state x then ⟨e.suffer c.state x.what, rest⟩ else e.proceed c
  | [] => e.proceed c

def run (c : Course σ) : Nat → Course σ
  | 0 => c
  | n + 1 => e.step (run c n)

end Engine

/-- A service with the call that its courier makes. -/
structure Clockwork where
  service : Service
  /-- When the call ends, and how. -/
  ends : Nat := 0
  result : CallResult := .ok ()
  calls : List Call := []
  acts : Nat := 0
  /-- Whether the courier, when it wakes next, does so at its date without regard to a call. -/
  wakes : Nat → Bool

namespace Clockwork

def beginCall (w : Surroundings) (c : Clockwork) (t : Task) : Clockwork :=
  let calls := ⟨t.path, c.service.site.now, t.attempt⟩ :: c.calls
  let (duration, result) := w.transport calls
  { c with calls, result, ends := c.service.site.now + duration }

/-- What the courier does next; to wait, or to wait on, is no act. -/
def act (w : Surroundings) (c : Clockwork) : Clockwork :=
  let service := match c.service.phase with
    | .calling _ => c.service.answer c.result
    | .checking _ | .finalizing _ =>
      if w.isFaulty c.acts then c.service.diskFault else c.service.turn
    | .looking | .waiting | .stopped => c.service.turn (c.wakes 0 && c.service.isDateReached)
  let next := { c with
    service
    acts := if service.phase = .waiting then c.acts else c.acts + 1
    wakes := fun n => c.wakes (n + 1) }
  match c.service.phase, service.phase with
  | .checking _, .calling t => next.beginCall w t
  | _, _ => next

def isReady (c : Clockwork) : Bool :=
  match c.service.phase with
  | .calling _ => c.ends ≤ c.service.site.now
  | _ => c.service.isRunnable

def alarm? (c : Clockwork) : Option Nat :=
  let landing := match c.service.phase with
    | .calling _ => some c.ends
    | _ => none
  Option.merge min landing c.service.site.outbox.nextTimer?

def suffer (c : Clockwork) : Disturbance → Clockwork
  | .enqueue p d => { c with service := (c.service.enqueue p d).2 }
  | .requeue t delay =>
    let outbox := (c.service.site.outbox.requeue t delay c.service.site.now).2
    { c with service := c.service.withOutbox outbox }
  | .scan d dir => { c with service := c.service.scan d dir }
  | .files tree => { c with service := c.service.happen (.files tree) }
  | .setWall wall => { c with service := c.service.happen (.setWall wall) }

def engine (w : Surroundings) : Engine Clockwork where
  now c := c.service.site.now
  acts := acts
  isReady := isReady
  act := act w
  alarm? := alarm?
  moveTo c t := { c with service := c.service.advance t }
  suffer := suffer

end Clockwork

inductive Stage
  | idle
  | testing (t : Task)
  | calling (t : Task) (ends : Nat) (result : CallResult)
  | tidying (t : Task)
  deriving DecidableEq

/-- A plain schedule: whenever it is idle it starts the first task that is due at once. -/
structure Ideal where
  agenda : Agenda := []
  tree : Tree
  now : Nat
  wall : Timestamp
  stage : Stage := .idle
  calls : List Call := []
  acts : Nat := 0

namespace Ideal

def push (i : Ideal) (t : Task) : Ideal := { i with agenda := (i.agenda.push t).2 }

def enqueue (i : Ideal) (p : Path) (d : Destination) : Ideal :=
  if p.isEmpty || ! d.isEnabled then i else i.push (Task.fresh p d i.wall i.now)

def requeue (i : Ideal) (t : Task) (delay : Nat) : Ideal :=
  i.push (t.retryAt (i.now + min delay Outbox.horizon))

def beginCall (w : Surroundings) (i : Ideal) (t : Task) : Ideal :=
  let calls := ⟨t.path, i.now, t.attempt⟩ :: i.calls
  let (duration, result) := w.transport calls
  { i with calls, stage := .calling t (i.now + duration) result }

def act (w : Surroundings) (i : Ideal) : Ideal :=
  let next := { i with acts := i.acts + 1 }
  match i.stage with
  | .idle => match i.agenda with
    | t :: rest => { next with agenda := rest, stage := .testing t }
    | [] => i
  | .testing t =>
    if w.isFaulty i.acts || i.tree.isPresent t.path then next.beginCall w t
    else { next with stage := .idle }
  | .calling t _ (.ok ()) => { next with stage := .tidying t }
  | .calling t _ (.error failure) =>
    { next.requeue t (t.destination.retryDelay failure) with stage := .idle }
  | .tidying t =>
    let tree := if w.isFaulty i.acts then i.tree else i.tree.finalized t.path t.destination.deleteAfter
    { next with tree, stage := .idle }

def isReady (i : Ideal) : Bool :=
  match i.stage with
  | .idle => i.agenda.head?.any (·.due ≤ i.now)
  | .testing _ | .tidying _ => true
  | .calling _ ends _ => ends ≤ i.now

def alarm? (i : Ideal) : Option Nat :=
  match i.stage with
  | .idle => i.agenda.head?.map (·.due)
  | .testing _ | .tidying _ => none
  | .calling _ ends _ => some ends

def suffer (i : Ideal) : Disturbance → Ideal
  | .enqueue p d => i.enqueue p d
  | .requeue t delay => i.requeue t delay
  | .scan d dir => (i.tree.recordings d dir).foldl (fun i p => i.enqueue p d) i
  | .files tree => { i with tree }
  | .setWall wall => { i with wall }

def engine (w : Surroundings) : Engine Ideal where
  now := now
  acts := acts
  isReady := isReady
  act := act w
  alarm? := alarm?
  moveTo i t := { i with now := max i.now t }
  suffer := suffer

end Ideal
end RecordingDelivery
