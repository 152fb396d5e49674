import RecordingDelivery.Delivery.Service
import RecordingDelivery.Proofs.Outbox.Steps
import RecordingDelivery.Spool.Startup

/-!
Runs of a service: what can happen to it, in any order, and what a turn of its courier does to the
tickets.
-/
namespace RecordingDelivery

/-- What can happen to a service: its courier goes on, its call ends, or others do something. -/
inductive Event
  | turn (atDate : Bool)
  | diskFault
  | answer (result : CallResult)
  | enqueue (p : Path) (d : Destination)
  | scan (d : Destination) (dir : Path)
  /-- Others change the files, in any way. -/
  | files (tree : Tree)
  | advance (now : Nat)
  | setWall (wall : Timestamp)
  | requestStop
  deriving Repr

def Site.retryTicket (s : Site) (t : Task) (failure : Failure) : Ticket :=
  ⟨t.retryAt (s.now + min (t.destination.retryDelay failure) Outbox.horizon), s.outbox.nextNumber⟩

/-- A failed task comes back, unless a ticket for its path is there already. -/
theorem Site.settle_error_cases {s : Site} (h : s.outbox.schedule.Sound) (t : Task)
    (failure : Failure) :
    (∃ k ∈ s.outbox.tickets, k.task.path.same t.path = true ∧
      s.settle t (.error failure) = (.superseded, s)) ∨
    ∃ outbox : Outbox, s.settle t (.error failure) =
        (.rescheduled (t.destination.retryDelay failure), { s with outbox }) ∧
      outbox.schedule.Sound ∧
      outbox.tickets = place (·.task.due) (s.retryTicket t failure) s.outbox.tickets ∧
      outbox.nextNumber = s.outbox.nextNumber + 1 ∧ s.outbox.contains t.path = false := by
  rcases Outbox.insert_cases h (s.retryTicket t failure).task with
    ⟨hc, hi⟩ | ⟨schedule, hc, hi, hs, ht, hn⟩
  · left
    obtain ⟨k, hk, hp⟩ := (h.contains_iff _).mp hc
    refine ⟨k, hk, Path.same_iff.mpr hp, ?_⟩
    have hr : s.outbox.requeue t (t.destination.retryDelay failure) s.now = (false, s.outbox) := hi
    simp only [settle, hr]
  · right
    refine ⟨{ s.outbox with schedule }.notify, ?_, ?_, ?_, ?_, hc⟩
    · have hr : s.outbox.requeue t (t.destination.retryDelay failure) s.now =
          (true, { s.outbox with schedule }.notify) := hi
      simp only [settle, hr]
    · simpa using hs
    · rw [Outbox.tickets, Outbox.notify_schedule]
      exact ht
    · rw [Outbox.nextNumber, Outbox.notify_schedule]
      exact hn

namespace Service

open Outbox (leave_schedule release_schedule)

def isDateReached (s : Service) : Bool :=
  match s.site.outbox.waiter? courier with
  | some w => w.timer.any (· ≤ s.site.now)
  | none => false

def scan (s : Service) (d : Destination) (dir : Path) : Service :=
  { s with site := (s.site.scan d dir).2 }

theorem scan_eq_foldl (s : Service) (d : Destination) (dir : Path) :
    s.scan d dir = (s.site.tree.recordings d dir).foldl (fun s p => (s.enqueue p d).2) s := by
  have h : ∀ (ps : List Path) (s : Service), ps.foldl (fun s p => (s.enqueue p d).2) s =
      s.withOutbox (Outbox.enqueueAll d s.site.wall s.site.now s.site.outbox ps).2 := by
    intro ps
    induction ps with
    | nil => intro s; rfl
    | cons p rest ih =>
      intro s
      rw [List.foldl_cons, ih]
      rfl
  rw [h]
  rfl

/-- A courier that may not run makes no turn, and none wakes at a date before it has come. -/
def happen (s : Service) : Event → Service
  | .turn atDate => if s.isRunnable then s.turn (atDate && s.isDateReached) else s
  | .diskFault => s.diskFault
  | .answer result => s.answer result
  | .enqueue p d => (s.enqueue p d).2
  | .scan d dir => s.scan d dir
  | .files tree => { s with site := { s.site with tree } }
  | .advance now => s.advance now
  | .setWall wall => { s with site := { s.site with wall } }
  | .requestStop => s.requestStop

def run (s : Service) (es : List Event) : Service := es.foldl happen s

def fresh (tree : Tree) (now : Nat) (wall : Timestamp) : Service :=
  { site := { tree, now, wall } }

abbrev tickets (s : Service) : List Ticket := s.site.outbox.tickets

abbrev nextNumber (s : Service) : Nat := s.site.outbox.nextNumber

abbrev Sound (s : Service) : Prop := s.site.outbox.schedule.Sound

theorem sound_fresh (tree : Tree) (now : Nat) (wall : Timestamp) : (fresh tree now wall).Sound :=
  Schedule.sound_empty

def isFree (s : Service) : Bool :=
  match s.phase with
  | .looking | .waiting => true
  | .checking _ | .calling _ | .finalizing _ | .stopped => false

/-- What a free courier's turn may come to: it takes the first ticket, which is due, or it leaves all
tickets where they are. -/
inductive Pick (s : Service) : Outbox → Phase → Prop
  | taken {k : Ticket} {rest : List Ticket} {o : Outbox} (going : s.stopping = false)
      (first : s.tickets = k :: rest) (due : k.task.due ≤ s.site.now)
      (sound : o.schedule.Sound) (left : o.tickets = rest) (number : o.nextNumber = s.nextNumber) :
      Pick s o (.checking k.task)
  | nothingDue {o : Outbox} (going : s.stopping = false)
      (same : o.schedule = s.site.outbox.schedule)
      (later : ∀ k ∈ s.tickets, s.site.now < k.task.due) : Pick s o .waiting
  | stopped {o : Outbox} (stopping : s.stopping = true)
      (same : o.schedule = s.site.outbox.schedule) : Pick s o .stopped

variable {s : Service}

theorem takeUp_pick (h : s.Sound) (going : s.stopping = false) {o : Outbox}
    (ho : o.schedule = s.site.outbox.schedule) :
    ∃ o' phase, s.takeUp (o.look courier s.site.now) = { s.withOutbox o' with phase } ∧
      s.Pick o' phase := by
  have hs : o.schedule.Sound := by rw [ho]; exact h
  rcases o.look_cases hs courier s.site.now with
    ⟨k, rest, s', ht, hd, hl, hs', hr, hn⟩ | ⟨hd, hl⟩
  · rw [Outbox.tickets, ho] at ht
    rw [Outbox.nextNumber, ho] at hn
    exact ⟨_, _, by rw [hl]; rfl, .taken going ht hd hs' hr hn⟩
  · rw [Outbox.tickets, ho] at hd
    rw [hl]
    exact ⟨_, _, rfl, .nothingDue going ho hd⟩

theorem turn_pick (h : s.Sound) (hf : s.isFree = true) (atDate : Bool) :
    ∃ o phase, s.turn atDate = { s.withOutbox o with phase } ∧ s.Pick o phase := by
  cases hst : s.stopping with
  | true =>
    cases hp : s.phase with
    | looking => exact ⟨s.site.outbox, _, by simp [turn, hp, look, hst, withOutbox], .stopped hst rfl⟩
    | waiting =>
      exact ⟨s.site.outbox.leave courier, _, by simp [turn, hp, wake, hst, withOutbox],
        .stopped hst (leave_schedule _ _)⟩
    | _ => simp [isFree, hp] at hf
  | false =>
    cases hp : s.phase with
    | looking => simpa [turn, hp, look, hst] using takeUp_pick h hst rfl
    | waiting =>
      -- whether the courier leaves or is released, the schedule stays
      cases atDate with
      | true =>
        simpa [turn, hp, wake, hst, Outbox.resume] using takeUp_pick h hst (leave_schedule _ _)
      | false =>
        simpa [turn, hp, wake, hst, Outbox.resume] using takeUp_pick h hst (release_schedule _ _)
    | _ => simp [isFree, hp] at hf

def firstTicket (s : Service) (p : Path) (d : Destination) : Ticket :=
  ⟨Task.fresh p d s.site.wall s.site.now, s.nextNumber⟩

theorem enqueue_cases (h : s.Sound) (p : Path) (d : Destination) :
    (((p.isEmpty || ! d.isEnabled) = true ∨ ∃ k ∈ s.tickets, k.task.path.same p = true) ∧
      s.enqueue p d = (false, s)) ∨
    ∃ o : Outbox, s.enqueue p d = (true, s.withOutbox o) ∧ o.schedule.Sound ∧
      o.tickets = place (·.task.due) (s.firstTicket p d) s.tickets ∧
      o.nextNumber = s.nextNumber + 1 := by
  by_cases hp : (p.isEmpty || ! d.isEnabled) = true
  · left
    exact ⟨.inl hp, by simp [enqueue, Site.enqueue, Outbox.enqueue, hp]⟩
  · rcases Outbox.insert_cases h (Task.fresh p d s.site.wall s.site.now) with
      ⟨hc, hi⟩ | ⟨schedule, -, hi, hs, ht, hn⟩
    · left
      obtain ⟨k, hk, hsame⟩ := (h.contains_iff _).mp hc
      exact ⟨.inr ⟨k, hk, Path.same_iff.mpr hsame⟩,
        by simp [enqueue, Site.enqueue, Outbox.enqueue, hp, hi]⟩
    · right
      refine ⟨{ s.site.outbox with schedule }.notify, ?_, ?_, ?_, ?_⟩
      · simp [enqueue, Site.enqueue, Outbox.enqueue, hp, hi, withOutbox]
      · simpa using hs
      · rw [Outbox.tickets, Outbox.notify_schedule]
        exact ht
      · rw [Outbox.nextNumber, Outbox.notify_schedule]
        exact hn

theorem answer_tree (s : Service) (result : CallResult) :
    (s.answer result).site.tree = s.site.tree := by
  unfold answer
  split
  · rfl
  · simp only [Site.settle]
    split <;> rfl
  · rfl

theorem turn_tree (atDate : Bool) (hp : ∀ t, s.phase ≠ .finalizing t) :
    (s.turn atDate).site.tree = s.site.tree := by
  cases hphase : s.phase with
  | looking =>
    simp only [turn, hphase, look]
    split <;> rfl
  | waiting =>
    simp only [turn, hphase, wake]
    split <;> rfl
  | finalizing t => exact absurd hphase (hp t)
  | checking t => simp only [turn, hphase, check]
  | calling t | stopped => simp only [turn, hphase]

/-- Others change the files, and the courier does when it finalizes. -/
theorem happen_tree (s : Service) (e : Event) :
    (s.happen e).site.tree = s.site.tree ∨ (∃ tree, e = .files tree) ∨
      ∃ atDate t, e = .turn atDate ∧ s.phase = .finalizing t := by
  cases e with
  | turn atDate =>
    by_cases hp : ∃ t, s.phase = .finalizing t
    · obtain ⟨t, hp⟩ := hp
      exact .inr (.inr ⟨atDate, t, rfl, hp⟩)
    · left
      simp only [happen]
      split
      · exact turn_tree _ fun t ht => hp ⟨t, ht⟩
      · rfl
  | diskFault =>
    left
    simp only [happen, diskFault]
    split <;> rfl
  | answer result => exact .inl (answer_tree s result)
  | files tree => exact .inr (.inl ⟨tree, rfl⟩)
  | enqueue p d | scan d dir | advance now | setWall wall | requestStop => exact .inl rfl

end Service
end RecordingDelivery
