import RecordingDelivery.Proofs.Service.Run

/-!
The jobs of a service. Each enqueue that is accepted begins a job, which goes on through all retries.
A ledger beside the service writes down which ticket belongs to which job, which job the courier has
in hand and how its attempts end; the service knows nothing of it. By the ledger each job is in
exactly one standing at any time, and three of the five standings are final.
-/
namespace RecordingDelivery

/-- What is written down about a job, named by the number of its first ticket. -/
inductive Note
  /-- The transport is called. -/
  | begun (job : Nat)
  | ended (job : Nat) (result : CallResult)
  /-- The file was missing when the courier picked the task up. -/
  | missing (job : Nat)
  /-- No retry was added, as these jobs of an equal path were pending. -/
  | outdone (job : Nat) (rivals : List Nat)
  | finalized (job : Nat) (t : Task) (result : Except FinalizeError Finalized)
  deriving DecidableEq

structure Ledger where
  /-- The first tickets of the jobs, the latest first. -/
  jobs : List Ticket := []
  /-- The job of each retry's ticket; any other ticket begins a job of its own. -/
  owner : Nat → Nat := id
  /-- The job that the courier has in hand. -/
  hand : Option Nat := none
  log : List Note := []

namespace Ledger

def note (l : Ledger) (n : Nat → Note) : Ledger :=
  match l.hand with
  | some job => { l with log := n job :: l.log }
  | none => l

def letGo (l : Ledger) : Ledger := { l with hand := none }

/-- The ticket of a retry belongs to the job in hand. -/
def assign (l : Ledger) (number : Nat) : Ledger :=
  match l.hand with
  | some job => { l with owner := fun m => if m = number then job else l.owner m }
  | none => l

@[simp] theorem note_jobs (l : Ledger) (n : Nat → Note) : (l.note n).jobs = l.jobs := by
  unfold note
  split <;> rfl

@[simp] theorem assign_jobs (l : Ledger) (number : Nat) : (l.assign number).jobs = l.jobs := by
  unfold assign
  split <;> rfl

end Ledger

structure Observed where
  service : Service
  ledger : Ledger := {}

namespace Observed

def tickets (o : Observed) : List Ticket := o.service.tickets

def jobOf (o : Observed) (k : Ticket) : Nat := o.ledger.owner k.number

def pendingFor (o : Observed) (p : Path) : List Nat :=
  (o.tickets.filter (·.task.path.same p)).map o.jobOf

def enqueue (o : Observed) (p : Path) (d : Destination) : Observed :=
  match o.service.enqueue p d with
  | (true, s) => ⟨s, { o.ledger with jobs := o.service.firstTicket p d :: o.ledger.jobs }⟩
  | (false, s) => ⟨s, o.ledger⟩

/-- A turn of the courier: the ledger compares what it did before and what it does now. -/
def turn (o : Observed) (atDate : Bool) : Observed :=
  let s := o.service.turn atDate
  match o.service.phase, s.phase with
  | .looking, .checking _ | .waiting, .checking _ =>
    ⟨s, { o.ledger with hand := o.tickets.head?.map o.jobOf }⟩
  | .checking _, .calling _ => ⟨s, o.ledger.note .begun⟩
  | .checking _, _ => ⟨s, (o.ledger.note .missing).letGo⟩
  | .finalizing t, _ =>
    let result := (o.service.site.tree.finalize t.path t.destination.deleteAfter).map (·.1)
    ⟨s, (o.ledger.note (.finalized · t result)).letGo⟩
  | _, _ => ⟨s, o.ledger⟩

def diskFault (o : Observed) : Observed :=
  match o.service.phase with
  | .checking _ => ⟨o.service.diskFault, o.ledger.note .begun⟩
  | .finalizing _ => ⟨o.service.diskFault, o.ledger.letGo⟩
  | _ => ⟨o.service.diskFault, o.ledger⟩

/-- The end of a call. What a failure leads to is what the attempt reports. -/
def answer (o : Observed) (result : CallResult) : Observed :=
  let s := o.service.answer result
  match o.service.phase with
  | .calling t =>
    let l := o.ledger.note (.ended · result)
    match (o.service.site.settle t result).1 with
    | .rescheduled _ => ⟨s, (l.assign o.service.nextNumber).letGo⟩
    | .superseded => ⟨s, (l.note (.outdone · (o.pendingFor t.path))).letGo⟩
    | .delivered | .vanished => ⟨s, l⟩
  | _ => ⟨s, o.ledger⟩

def scan (o : Observed) (d : Destination) (dir : Path) : Observed :=
  (o.service.site.tree.recordings d dir).foldl (fun o p => o.enqueue p d) o

def happen (o : Observed) : Event → Observed
  | .turn atDate =>
    if o.service.isRunnable then o.turn (atDate && o.service.isDateReached) else o
  | .diskFault => o.diskFault
  | .answer result => o.answer result
  | .enqueue p d => o.enqueue p d
  | .scan d dir => o.scan d dir
  | .files tree => ⟨o.service.happen (.files tree), o.ledger⟩
  | .advance now => ⟨o.service.advance now, o.ledger⟩
  | .setWall wall => ⟨o.service.happen (.setWall wall), o.ledger⟩
  | .requestStop => ⟨o.service.requestStop, o.ledger⟩

def run (o : Observed) (es : List Event) : Observed := es.foldl happen o

def fresh (tree : Tree) (now : Nat) (wall : Timestamp) : Observed :=
  { service := .fresh tree now wall }

theorem service_enqueue (o : Observed) (p : Path) (d : Destination) :
    (o.enqueue p d).service = (o.service.enqueue p d).2 := by
  unfold enqueue
  split <;> rename_i h <;> rw [h]

theorem service_turn (o : Observed) (atDate : Bool) :
    (o.turn atDate).service = o.service.turn atDate := by
  unfold turn
  dsimp only
  split <;> rfl

theorem service_answer (o : Observed) (result : CallResult) :
    (o.answer result).service = o.service.answer result := by
  unfold answer
  dsimp only
  split
  · split <;> rfl
  · rfl

theorem service_scan (o : Observed) (d : Destination) (dir : Path) :
    (o.scan d dir).service = o.service.scan d dir := by
  rw [Service.scan_eq_foldl]
  unfold scan
  induction o.service.site.tree.recordings d dir generalizing o with
  | nil => rfl
  | cons p rest ih => rw [List.foldl_cons, ih, service_enqueue, List.foldl_cons]

/-- The ledger only looks on: the service goes on as it does without. -/
theorem service_happen (o : Observed) (e : Event) : (o.happen e).service = o.service.happen e := by
  cases e with
  | turn atDate =>
    simp only [happen, Service.happen]
    split
    · exact service_turn _ _
    · rfl
  | diskFault =>
    simp only [happen, Service.happen, diskFault]
    split <;> rfl
  | answer result => exact service_answer _ _
  | enqueue p d => exact service_enqueue _ _ _
  | scan d dir => exact service_scan _ _ _
  | files tree | advance now | setWall wall | requestStop => rfl

theorem service_run (o : Observed) (es : List Event) : (o.run es).service = o.service.run es := by
  induction es generalizing o with
  | nil => rfl
  | cons e rest ih =>
    rw [run, List.foldl_cons, ← run, ih, service_happen]
    rfl

theorem run_append (o : Observed) (es es' : List Event) : o.run (es ++ es') = (o.run es).run es' :=
  List.foldl_append

theorem run_concat (o : Observed) (es : List Event) (e : Event) :
    o.run (es ++ [e]) = (o.run es).happen e := run_append o es [e]

end Observed
end RecordingDelivery
