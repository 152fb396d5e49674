import RecordingDelivery.Proofs.Outbox.Steps
import RecordingDelivery.Spool.Scan

/-!
What may have been done to an outbox. Whatever it was, the schedule is sound, and as long as nothing is
taken out each path that waits goes on waiting.
-/
namespace RecordingDelivery.Outbox

inductive Act
  | enqueue (p : Path) (d : Destination) (wall : Timestamp) (now : Nat)
  | requeue (t : Task) (delay now : Nat)
  | scan (tree : Tree) (d : Destination) (dir : Path) (wall : Timestamp) (now : Nat)
  | takeDue (now : Nat)
  | look (taker now : Nat)
  | resume (taker now : Nat) (atDate : Bool)
  | leave (taker : Nat)
  deriving Repr

def Act.mayTake : Act → Bool
  | .takeDue _ | .look _ _ | .resume _ _ _ => true
  | .enqueue _ _ _ _ | .requeue _ _ _ | .scan _ _ _ _ _ | .leave _ => false

def act (o : Outbox) : Act → Outbox
  | .enqueue p d wall now => (o.enqueue p d wall now).2
  | .requeue t delay now => (o.requeue t delay now).2
  | .scan tree d dir wall now => (o.scan tree d dir wall now).2
  | .takeDue now => (o.takeDue now).2
  | .look taker now => (o.look taker now).2
  | .resume taker now atDate => (o.resume taker now atDate).2
  | .leave taker => o.leave taker

def after (o : Outbox) (acts : List Act) : Outbox := acts.foldl act o

variable {o : Outbox}

theorem contains_iff (h : o.schedule.Sound) (p : Path) :
    o.contains p = true ↔ ∃ t ∈ o.tasks, t.path.same p = true := by
  rw [contains, h.contains_eq, Agenda.holds, List.any_eq_true]
  rfl

theorem insert_tasks (h : o.schedule.Sound) (t : Task) :
    (o.contains t.path = true ∧ o.insert t = (false, o)) ∨
    ∃ o', o.contains t.path = false ∧ o.insert t = (true, o') ∧ o'.schedule.Sound ∧
      o'.tasks = place (·.due) t o.tasks := by
  rcases insert_cases h t with hrefused | ⟨s, hc, hi, hs, ht, -⟩
  · exact .inl hrefused
  · refine .inr ⟨_, hc, hi, by simpa using hs, ?_⟩
    rw [tasks_eq, tasks_eq, tickets, notify_schedule]
    show s.tickets.map (·.task) = _
    rw [ht]
    exact map_place Ticket.task Task.due (fun _ => rfl) _

/-- The schedule is sound, and no path has stopped waiting. -/
def Grows (o o' : Outbox) : Prop :=
  o'.schedule.Sound ∧ ∀ p, o.contains p = true → o'.contains p = true

theorem Grows.trans {o' o'' : Outbox} (h : o.Grows o') (h' : o'.Grows o'') : o.Grows o'' :=
  ⟨h'.1, fun p hp => h'.2 p (h.2 p hp)⟩

theorem grows_self (h : o.schedule.Sound) : o.Grows o := ⟨h, fun _ hp => hp⟩

theorem grows_insert (h : o.schedule.Sound) (t : Task) : o.Grows (o.insert t).2 := by
  rcases insert_tasks h t with ⟨-, hi⟩ | ⟨o', -, hi, hs, ht⟩
  · rw [hi]
    exact grows_self h
  · rw [hi]
    refine ⟨hs, fun p hp => ?_⟩
    obtain ⟨u, hu, hsame⟩ := (contains_iff h p).mp hp
    exact (contains_iff hs p).mpr ⟨u, by rw [ht]; exact mem_place.mpr (.inr hu), hsame⟩

theorem grows_enqueue (h : o.schedule.Sound) (p : Path) (d : Destination) (wall : Timestamp)
    (now : Nat) : o.Grows (o.enqueue p d wall now).2 := by
  unfold enqueue
  split
  · exact grows_self h
  · exact grows_insert h _

theorem grows_enqueueAll (h : o.schedule.Sound) (d : Destination) (wall : Timestamp) (now : Nat)
    (ps : List Path) : o.Grows (enqueueAll d wall now o ps).2 := by
  induction ps generalizing o with
  | nil => exact grows_self h
  | cons p rest ih =>
    have hfirst := grows_enqueue h p d wall now
    exact hfirst.trans (ih hfirst.1)

theorem grows_act (h : o.schedule.Sound) {a : Act} (ha : a.mayTake = false) : o.Grows (o.act a) := by
  cases a with
  | enqueue p d wall now => exact grows_enqueue h p d wall now
  | requeue t delay now => exact grows_insert h _
  | scan tree d dir wall now => exact grows_enqueueAll h d wall now _
  | leave taker =>
    have hs := leave_schedule o taker
    exact ⟨by rw [act, hs]; exact h, fun p hp => by rw [act, contains, hs]; exact hp⟩
  | takeDue now | look taker now | resume taker now atDate => simp [Act.mayTake] at ha

theorem sound_look (h : o.schedule.Sound) (taker now : Nat) :
    (o.look taker now).2.schedule.Sound := by
  rcases look_cases h taker now with ⟨k, rest, s, -, -, hl, hs, -⟩ | ⟨-, hl⟩
  · rw [hl]
    exact hs
  · rw [hl]
    exact h

theorem sound_act (h : o.schedule.Sound) (a : Act) : (o.act a).schedule.Sound := by
  cases a with
  | takeDue now =>
    rcases h.takeDue_cases now with ⟨-, hd⟩ | ⟨k, rest, -, -, hd⟩ | ⟨k, rest, s, -, -, hd, hs, -⟩
    · simpa [act, takeDue, hd] using h
    · simpa [act, takeDue, hd] using h
    · simpa [act, takeDue, hd] using hs
  | look taker now => exact sound_look h taker now
  | resume taker now atDate =>
    cases atDate with
    | true => exact sound_look (by rw [leave_schedule]; exact h) taker now
    | false => exact sound_look (by rw [release_schedule]; exact h) taker now
  | enqueue p d wall now | requeue t delay now | scan tree d dir wall now | leave taker =>
    exact (grows_act h rfl).1

theorem sound_after (h : o.schedule.Sound) (acts : List Act) : (o.after acts).schedule.Sound := by
  induction acts generalizing o with
  | nil => exact h
  | cons a rest ih => exact ih (sound_act h a)

end RecordingDelivery.Outbox
