import RecordingDelivery.Proofs.Schedule.Order

/-!
A schedule answers as a plain list of tasks would, in which no two have the same path, earlier dates
come first and equal dates stand in the order of their arrival. Heap, numbers and paths show in no
answer, whatever was asked before.
-/
namespace RecordingDelivery

abbrev Agenda := List Task

namespace Agenda

def holds (a : Agenda) (p : Path) : Bool := a.any (·.path.same p)

/-- A task goes behind all of the same or an earlier date, unless its path is on the list. -/
def push (a : Agenda) (t : Task) : Bool × Agenda :=
  if a.holds t.path then (false, a) else (true, place (·.due) t a)

def pop (a : Agenda) (now : Nat) : Schedule.Next × Agenda :=
  match a with
  | [] => (.nothing, [])
  | t :: rest => if t.due ≤ now then (.due t, rest) else (.notBefore t.due, t :: rest)

structure WellFormed (a : Agenda) : Prop where
  apart : a.Pairwise fun t u => t.path.same u.path = false
  sorted : a.Pairwise (·.due ≤ ·.due)

end Agenda

inductive Request
  | push (t : Task)
  | pop (now : Nat)
  | contains (p : Path)
  | size
  | isEmpty
  | nextDue
  | snapshot
  deriving Repr

inductive Answer
  | truth (b : Bool)
  | next (n : Schedule.Next)
  | count (n : Nat)
  | date (d : Option Nat)
  | tasks (l : List Task)
  deriving DecidableEq, Repr

def Request.isPush : Request → Bool
  | .push _ => true
  | _ => false

def Schedule.serve (s : Schedule) : Request → Answer × Schedule
  | .push t =>
    match s.insert? t with
    | some s' => (.truth true, s')
    | none => (.truth false, s)
  | .pop now => ((s.takeDue now).map .next id)
  | .contains p => (.truth (s.contains p), s)
  | .size => (.count s.size, s)
  | .isEmpty => (.truth s.isEmpty, s)
  | .nextDue => (.date s.nextDue?, s)
  | .snapshot => (.tasks s.toList, s)

def Agenda.serve (a : Agenda) : Request → Answer × Agenda
  | .push t => (a.push t).map .truth id
  | .pop now => (a.pop now).map .next id
  | .contains p => (.truth (a.holds p), a)
  | .size => (.count a.length, a)
  | .isEmpty => (.truth a.isEmpty, a)
  | .nextDue => (.date (a.head?.map (·.due)), a)
  | .snapshot => (.tasks a, a)

def serveAll {σ : Type} (serve : σ → Request → Answer × σ) : σ → List Request → List Answer × σ
  | s, [] => ([], s)
  | s, r :: rest =>
    let (answer, s) := serve s r
    let (answers, s) := serveAll serve s rest
    (answer :: answers, s)

namespace Schedule

variable {s : Schedule}

theorem Sound.contains_eq (h : s.Sound) (p : Path) : s.contains p = Agenda.holds s.toList p := by
  rw [Bool.eq_iff_iff, h.contains_iff, Agenda.holds, List.any_eq_true]
  simp [toList_eq, Path.same_iff]

theorem Sound.push_eq (h : s.Sound) (t : Task) :
    match s.insert? t with
    | some s' => Agenda.push s.toList t = (true, s'.toList) ∧ s'.Sound ∧
        s'.nextNumber = s.nextNumber + 1
    | none => Agenda.push s.toList t = (false, s.toList) := by
  cases hs : s.insert? t with
  | none =>
    have hc := insert?_eq_none_iff.mp hs
    rw [h.contains_eq] at hc
    simp [Agenda.push, hc]
  | some s' =>
    have hc : Agenda.holds s.toList t.path = false := by
      rw [← h.contains_eq]
      have := s.insert?_isSome t
      simpa [hs] using this
    obtain ⟨hs', ht, hn⟩ := h.insert? hs
    refine ⟨?_, hs', hn⟩
    simp only [Agenda.push, hc, Bool.false_eq_true, if_false, Prod.mk.injEq, true_and]
    rw [toList_eq, toList_eq, ht]
    exact (map_place (x := ⟨t, s.nextNumber⟩) Ticket.task Task.due (fun _ => rfl) _).symm

theorem Sound.pop_eq (h : s.Sound) (now : Nat) :
    Agenda.pop s.toList now = ((s.takeDue now).1, (s.takeDue now).2.toList) ∧
      (s.takeDue now).2.Sound ∧ (s.takeDue now).2.nextNumber = s.nextNumber := by
  rcases h.takeDue_cases now with
    ⟨hl, hd⟩ | ⟨k, rest, hl, hlt, hd⟩ | ⟨k, rest, s', hl, hle, hd, hs', hr, hn⟩
  · simp [hd, toList_eq, hl, Agenda.pop, h]
  · have : ¬ k.task.due ≤ now := by omega
    simp [hd, toList_eq, hl, Agenda.pop, this, h]
  · simp [hd, toList_eq, hl, Agenda.pop, hle, hs', hr, hn]

theorem Sound.wellFormed (h : s.Sound) : Agenda.WellFormed s.toList := by
  refine ⟨?_, s.sorted_toList⟩
  have := List.pairwise_map.mp h.apart
  rw [toList_eq, List.pairwise_map]
  exact this.imp fun hne => by simpa [Path.same] using hne

/-- One request: the list gives the same answer and stays what the schedule shows. -/
theorem Sound.serve (h : s.Sound) (r : Request) :
    Agenda.serve s.toList r = ((s.serve r).1, (s.serve r).2.toList) ∧ (s.serve r).2.Sound ∧
      (s.serve r).2.nextNumber ≤ s.nextNumber + r.isPush.toNat := by
  cases r with
  | push t =>
    have hp := h.push_eq t
    simp only [Schedule.serve, Agenda.serve]
    cases hs : s.insert? t with
    | none =>
      rw [hs] at hp
      simp [hp, h]
    | some s' =>
      rw [hs] at hp
      obtain ⟨hp, hs', hn⟩ := hp
      simp [hp, hs', hn, Request.isPush]
  | pop now =>
    obtain ⟨hp, hs', hn⟩ := h.pop_eq now
    exact ⟨by simp [Schedule.serve, Agenda.serve, hp], hs', by simp [Schedule.serve, hn]⟩
  | contains p => simp [Schedule.serve, Agenda.serve, h.contains_eq, h]
  | size => simp [Schedule.serve, Agenda.serve, h]
  | isEmpty =>
    have : s.isEmpty = s.toList.isEmpty := by
      rw [isEmpty, ← length_toList]
      cases s.toList <;> rfl
    simp [Schedule.serve, Agenda.serve, this, h]
  | nextDue =>
    have : s.nextDue? = s.toList.head?.map (·.due) := by
      rw [h.nextDue?_eq, toList_eq, List.head?_map, Option.map_map]
      rfl
    simp [Schedule.serve, Agenda.serve, this, h]
  | snapshot => simp [Schedule.serve, Agenda.serve, h]

theorem Sound.serveAll (h : s.Sound) (rs : List Request) :
    serveAll Agenda.serve s.toList rs =
        ((serveAll Schedule.serve s rs).1, (serveAll Schedule.serve s rs).2.toList) ∧
      (serveAll Schedule.serve s rs).2.Sound ∧
      (serveAll Schedule.serve s rs).2.nextNumber ≤ s.nextNumber + rs.countP (·.isPush) := by
  induction rs generalizing s with
  | nil => exact ⟨rfl, h, by simp [RecordingDelivery.serveAll]⟩
  | cons r rest ih =>
    obtain ⟨ha, hs, hn⟩ := h.serve r
    obtain ⟨hra, hrs, hrn⟩ := ih hs
    simp only [RecordingDelivery.serveAll, ha, hra]
    refine ⟨trivial, hrs, Nat.le_trans hrn ?_⟩
    rw [List.countP_cons]
    cases hp : r.isPush <;> simp [hp] at hn ⊢ <;> omega

/-- Whatever is asked of an empty schedule, it answers as the empty list does and shows what has
become of the list. Its numbers never exceed the count of the insertions that were tried, so 64 bits
hold the numbers of fewer than 2^64 of them. -/
theorem serveAll_eq_agenda (rs : List Request) :
    (RecordingDelivery.serveAll serve empty rs).1 = (RecordingDelivery.serveAll Agenda.serve [] rs).1 ∧
      (RecordingDelivery.serveAll serve empty rs).2.toList =
        (RecordingDelivery.serveAll Agenda.serve [] rs).2 ∧
      Agenda.WellFormed (RecordingDelivery.serveAll Agenda.serve [] rs).2 ∧
      (RecordingDelivery.serveAll serve empty rs).2.nextNumber ≤ rs.countP (·.isPush) := by
  obtain ⟨h, hs, hn⟩ := sound_empty.serveAll rs
  rw [toList_empty] at h
  rw [h]
  exact ⟨rfl, rfl, hs.wellFormed, by simpa [empty] using hn⟩

end Schedule
end RecordingDelivery
