import RecordingDelivery.Outbox.Basic
import RecordingDelivery.Proofs.Schedule.Agenda

/-!
What each operation of an outbox does to its tickets and to those who wait.
-/
namespace RecordingDelivery.Outbox

variable {o : Outbox}

abbrev tickets (o : Outbox) : List Ticket := o.schedule.tickets

abbrev nextNumber (o : Outbox) : Nat := o.schedule.nextNumber

theorem tasks_eq (o : Outbox) : o.tasks = o.tickets.map (·.task) := rfl

theorem sorted_tasks (o : Outbox) : o.tasks.Pairwise (·.due ≤ ·.due) := o.schedule.sorted_toList

@[simp] theorem release_schedule (o : Outbox) (taker : Nat) :
    (o.release taker).schedule = o.schedule := rfl

@[simp] theorem leave_schedule (o : Outbox) (taker : Nat) :
    (o.leave taker).schedule = o.schedule := by
  unfold leave
  split
  · split <;> simp
  · rfl

theorem insert_cases (h : o.schedule.Sound) (t : Task) :
    (o.contains t.path = true ∧ o.insert t = (false, o)) ∨
    (∃ s, o.contains t.path = false ∧ o.insert t = (true, { o with schedule := s }.notify) ∧
      s.Sound ∧ s.tickets = place (·.task.due) ⟨t, o.nextNumber⟩ o.tickets ∧
      s.nextNumber = o.nextNumber + 1) := by
  cases hs : o.schedule.insert? t with
  | none => exact .inl ⟨Schedule.insert?_eq_none_iff.mp hs, by simp [insert, hs]⟩
  | some s =>
    obtain ⟨hsound, ht, hn⟩ := h.insert? hs
    refine .inr ⟨s, ?_, by simp [insert, hs], hsound, ht, hn⟩
    have := o.schedule.insert?_isSome t
    simpa [hs, contains] using this

theorem look_cases (h : o.schedule.Sound) (taker now : Nat) :
    (∃ k rest s, o.tickets = k :: rest ∧ k.task.due ≤ now ∧
      o.look taker now = (some k.task, { o with schedule := s }) ∧
      s.Sound ∧ s.tickets = rest ∧ s.nextNumber = o.nextNumber) ∨
    ((∀ k ∈ o.tickets, now < k.task.due) ∧
      o.look taker now = (none, { o with permit := false }.park taker o.schedule.nextDue?)) := by
  have hnext := h.nextDue?_eq
  rcases h.takeDue_cases now with
    ⟨hl, hd⟩ | ⟨k, rest, hl, hlt, hd⟩ | ⟨k, rest, s, hl, hle, hd, hs, hr, hn⟩
  · refine .inr ⟨by simp [tickets, hl], ?_⟩
    simp [look, hd, hnext, hl]
  · refine .inr ⟨?_, by simp [look, hd, hnext, hl]⟩
    intro a ha
    have hsorted := o.schedule.sorted_tickets
    rw [tickets, hl] at ha
    rw [hl] at hsorted
    rcases List.mem_cons.mp ha with rfl | ha
    · exact hlt
    · have := (List.pairwise_cons.mp hsorted).1 a ha
      rw [Ticket.le_iff] at this
      omega
  · exact .inl ⟨k, rest, s, hl, hle, by simp [look, hd], hs, hr, hn⟩

end RecordingDelivery.Outbox
