import RecordingDelivery.Proofs.Service.Newcomer

/-!
A service that is asked to stop. From then on its courier takes nothing from the outbox: it carries the
attempt in hand, if there is one, to its end and stops at its next look. What was pending stays
pending, and only the retry of that attempt and what others enqueue join it.
-/
namespace RecordingDelivery

namespace Event

end Event

namespace Service

/-- How an attempt ends: the event, the ticket of the retry, if any, and the service after it. -/
inductive Concludes (s : Service) (t : Task) : Event → Option Ticket → Service → Prop
  | vanished {atDate : Bool} (phase : s.phase = .checking t)
      (absent : s.site.tree.isPresent t.path = false) :
      s.Concludes t (.turn atDate) none { s with phase := .looking }
  | finalized {atDate : Bool} {tree : Tree} (phase : s.phase = .finalizing t)
      (done : tree = s.site.tree.finalized t.path t.destination.deleteAfter) :
      s.Concludes t (.turn atDate) none { s with site := { s.site with tree }, phase := .looking }
  | unfinalized (phase : s.phase = .finalizing t) :
      s.Concludes t .diskFault none { s with phase := .looking }
  | superseded {failure : Failure} {k : Ticket} (phase : s.phase = .calling t)
      (pending : k ∈ s.tickets) (same : k.task.path.same t.path = true) :
      s.Concludes t (.answer (.error failure)) none { s with phase := .looking }
  | rescheduled {failure : Failure} {outbox : Outbox} (phase : s.phase = .calling t)
      (placed : outbox.tickets = place (·.task.due) (s.site.retryTicket t failure) s.tickets) :
      s.Concludes t (.answer (.error failure)) (some (s.site.retryTicket t failure))
        { s.withOutbox outbox with phase := .looking }

/-- Whether the courier acts, and not in vain. -/
def isAct (s : Service) : Event → Bool
  | .turn _ => s.isRunnable
  | .diskFault => s.phase.isAtDisk
  | .answer _ => match s.phase with
    | .calling _ => true
    | _ => false
  | .enqueue _ _ | .scan _ _ | .files _ | .advance _ | .setWall _ | .requestStop => false

def acts (s : Service) : List Event → Nat
  | [] => 0
  | e :: rest => (if s.isAct e then 1 else 0) + (s.happen e).acts rest

/-- The clock moves only while the courier has nothing to do. -/
def Prompt (s : Service) : List Event → Prop
  | [] => True
  | e :: rest => (s.isRunnable = true → (s.happen e).site.now = s.site.now) ∧ (s.happen e).Prompt rest

def StopsAt (s : Service) : List Event → Prop
  | [] => s.phase = .stopped
  | e :: rest => s.phase ≠ .stopped ∧ (s.happen e).StopsAt rest

instance decidablePrompt (s : Service) : (es : List Event) → Decidable (s.Prompt es)
  | [] => inferInstanceAs (Decidable True)
  | e :: rest =>
    have := decidablePrompt (s.happen e) rest
    inferInstanceAs (Decidable (_ ∧ _))

instance decidableStopsAt (s : Service) : (es : List Event) → Decidable (s.StopsAt es)
  | [] => inferInstanceAs (Decidable (s.phase = .stopped))
  | e :: rest =>
    have := decidableStopsAt (s.happen e) rest
    inferInstanceAs (Decidable (_ ∧ _))

variable {s s' : Service} {t : Task} {e : Event} {retry : Option Ticket}

theorem run_append (s : Service) (es es' : List Event) : s.run (es ++ es') = (s.run es).run es' := by
  simp [run]

theorem StopsAt.drop {es es' : List Event} (h : s.StopsAt (es ++ es')) : (s.run es).StopsAt es' := by
  induction es generalizing s with
  | nil => exact h
  | cons e rest ih => exact ih h.2

namespace Concludes

theorem task (h : s.Concludes t e retry s') : s.phase.task? = some t := by
  cases h with
  | vanished phase | finalized phase | unfinalized phase | superseded phase | rescheduled phase =>
    rw [phase]
    rfl

end Concludes

structure Keeps (s s' : Service) : Prop where
  tickets : s'.tickets = s.tickets
  tree : s'.site.tree = s.site.tree
  task : s'.phase.task? = s.phase.task?

theorem Keeps.rfl : s.Keeps s := ⟨Eq.refl _, Eq.refl _, Eq.refl _⟩

end Service

namespace Observed

variable {o o' o'' : Observed}

/-- The tickets that come in: those of new jobs and those that come back. Those that were there stay as
they were. -/
structure Joins (o o' : Observed) (new back : List Ticket) : Prop where
  jobs : o'.ledger.jobs = new ++ o.ledger.jobs
  tickets : o'.tickets.Perm (o.tickets ++ back ++ new)

theorem Joins.trans {new back new' back' : List Ticket} (h : o.Joins o' new back)
    (h' : o'.Joins o'' new' back') : o.Joins o'' (new' ++ new) (back ++ back') := by
  refine ⟨by rw [h'.jobs, h.jobs, List.append_assoc], ?_⟩
  refine h'.tickets.trans (((h.tickets.append_right back').append_right new').trans ?_)
  rw [List.perm_iff_count]
  intro k
  simp only [List.count_append]
  omega

end Observed
end RecordingDelivery
