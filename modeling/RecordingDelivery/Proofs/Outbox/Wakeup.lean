import Mathlib
import RecordingDelivery.Proofs.Outbox.Handout

/-!
Several takers wait at one outbox, and each task that comes in calls one of them. Nobody sleeps past a
date: for each waiter that has not been called, the tasks that fall due before it wakes are no more than
those who have been called and those behind it who wake earlier.
-/
namespace RecordingDelivery

namespace Waiter

/-- The waiter does not wake by itself until the date is over. -/
def sleepsPast (w : Waiter) (date : Nat) : Bool := w.timer.all (date < ·)

/-- The waiter has not been called, and wakes at a date past which the other sleeps. -/
def isAheadOf (w v : Waiter) : Bool := ! w.called && w.timer.any v.sleepsPast

/-- How many reasons the waiter has to look again: a call, and a date that has come. -/
def looks (w : Waiter) (now : Nat) : Nat := w.called.toNat + (w.timer.any (· ≤ now)).toNat

theorem isRunnable_iff (w : Waiter) (now : Nat) :
    w.isRunnable now = true ↔ w.called = true ∨ w.timer.any (· ≤ now) = true := by
  unfold isRunnable
  cases w.timer <;> simp

theorem looks_pos {w : Waiter} {now : Nat} (h : w.isRunnable now = true) : 0 < w.looks now := by
  rcases (w.isRunnable_iff now).mp h with h | h <;> simp [looks, h]

theorem looks_le_two (w : Waiter) (now : Nat) : w.looks now ≤ 2 := by
  have := Bool.toNat_le w.called
  have := Bool.toNat_le (w.timer.any (· ≤ now))
  unfold looks
  omega

theorem sleepsPast_of_le {w : Waiter} {a b : Nat} (hle : a ≤ b) (h : w.sleepsPast b = true) :
    w.sleepsPast a = true := by
  unfold sleepsPast at *
  cases ht : w.timer with
  | none => rfl
  | some date =>
    simp [ht] at h ⊢
    omega

end Waiter

/-- For each waiter that has not been called: of the dates past which it sleeps, all but `n` have a
waiter of their own behind it who wakes earlier. -/
def Guarded (dates : List Nat) (n : Nat) : List Waiter → Prop
  | [] => True
  | w :: rest =>
    (w.called = false → dates.countP w.sleepsPast ≤ n + rest.countP (·.isAheadOf w)) ∧
      Guarded dates n rest

namespace Guarded

variable {dates : List Nat} {n : Nat} {front back ws : List Waiter}

theorem imp (h : Guarded dates n ws) {dates' : List Nat} {n' : Nat}
    (himp : ∀ (w : Waiter) r, dates.countP w.sleepsPast ≤ n + r → dates'.countP w.sleepsPast ≤ n' + r) :
    Guarded dates' n' ws := by
  induction ws with
  | nil => trivial
  | cons w rest ih => exact ⟨fun hw => himp w _ (h.1 hw), ih h.2⟩

theorem mono (h : Guarded dates n ws) {n' : Nat} (hle : n ≤ n') : Guarded dates n' ws :=
  h.imp fun w r hw => by omega

theorem append_called (hfront : ∀ w ∈ front, w.called = true) :
    Guarded dates n (front ++ ws) ↔ Guarded dates n ws := by
  induction front with
  | nil => rfl
  | cons w front ih =>
    rw [List.cons_append, Guarded, ih fun v hv => hfront v (by simp [hv])]
    simp [hfront w (by simp)]

theorem suffix (h : Guarded dates n (front ++ ws)) : Guarded dates n ws := by
  induction front with
  | nil => exact h
  | cons w front ih => exact ih h.2

theorem of_called (hall : ∀ w ∈ ws, w.called = true) : Guarded dates n ws := by
  rw [← List.append_nil ws, append_called hall]
  trivial

theorem tail {d : Nat} (h : Guarded (d :: dates) (n + 1) ws) (hd : ∀ x ∈ dates, d ≤ x) :
    Guarded dates n ws := by
  refine h.imp fun w r hw => ?_
  cases hfirst : w.sleepsPast d with
  | true =>
    rw [List.countP_cons_of_pos hfirst] at hw
    omega
  | false =>
    have hnone : dates.countP w.sleepsPast = 0 := by
      rw [List.countP_eq_zero]
      intro x hx hpast
      simp [Waiter.sleepsPast_of_le (hd x hx) hpast] at hfirst
    omega

/-- A waiter goes. If it had not been called, those before it miss it at most once. -/
theorem remove {w : Waiter} (h : Guarded dates n (front ++ w :: back)) :
    Guarded dates (n + (! w.called).toNat) (front ++ back) := by
  induction front with
  | nil => exact h.2.mono (Nat.le_add_right _ _)
  | cons v front ih =>
    rw [List.cons_append] at h ⊢
    refine ⟨fun hv => ?_, ih h.2⟩
    have hbefore := h.1 hv
    have hmissed : (if w.isAheadOf v = true then 1 else 0) ≤ (! w.called).toNat := by
      unfold Waiter.isAheadOf
      cases w.called with
      | true => simp
      | false => split <;> simp
    rw [List.countP_append, List.countP_cons] at hbefore
    rw [List.countP_append]
    omega

theorem park (h : Guarded dates (n + 1) ws) (hsorted : dates.Pairwise (· ≤ ·)) (taker : Nat) :
    Guarded dates n (ws ++ [{ taker, timer := dates.head? }]) := by
  induction ws with
  | nil =>
    refine ⟨fun _ => ?_, trivial⟩
    have hnone : dates.countP (Waiter.sleepsPast { taker, timer := dates.head? }) = 0 := by
      rw [List.countP_eq_zero]
      intro x hx hpast
      cases dates with
      | nil => simp at hx
      | cons d dates =>
        have hlt : x < d := by simpa [Waiter.sleepsPast] using hpast
        rcases List.mem_cons.mp hx with rfl | hx
        · omega
        · have := (List.pairwise_cons.mp hsorted).1 x hx
          omega
    omega
  | cons v ws ih =>
    rw [List.cons_append]
    refine ⟨fun hv => ?_, ih h.2⟩
    have hbefore := h.1 hv
    rw [List.countP_append, List.countP_singleton]
    by_cases hpast : ∃ x ∈ dates, v.sleepsPast x = true
    · obtain ⟨x, hx, hpast⟩ := hpast
      -- so the new one wakes earlier than `v`
      have hahead : Waiter.isAheadOf { taker, timer := dates.head? } v = true := by
        cases dates with
        | nil => simp at hx
        | cons d dates =>
          have hle : d ≤ x := by
            rcases List.mem_cons.mp hx with rfl | hx
            · exact Nat.le_refl x
            · exact (List.pairwise_cons.mp hsorted).1 x hx
          simpa [Waiter.isAheadOf] using Waiter.sleepsPast_of_le hle hpast
      rw [if_pos hahead]
      omega
    · have hnone : dates.countP v.sleepsPast = 0 := by
        rw [List.countP_eq_zero]
        exact fun x hx hx' => hpast ⟨x, hx, hx'⟩
      omega

end Guarded

namespace Outbox

variable {o : Outbox}

def dates (o : Outbox) : List Nat := o.tickets.map (·.task.due)

theorem sorted_dates (o : Outbox) : o.dates.Pairwise (· ≤ ·) := by
  rw [dates, List.pairwise_map]
  refine o.schedule.sorted_tickets.imp fun {a b} h => ?_
  have := Ticket.le_iff.mp h
  omega

def called (o : Outbox) : Nat := o.waiters.countP (·.called)

/-- All waiters are guarded: each call that has been made answers for one date, and `spare` dates more
may be without an answer. -/
structure Watched (o : Outbox) (spare : Nat) : Prop where
  sound : o.schedule.Sound
  takers : (o.waiters.map (·.taker)).Nodup
  guarded : Guarded o.dates (o.called + spare) o.waiters

theorem watched_empty : Watched {} 0 := ⟨Schedule.sound_empty, List.nodup_nil, trivial⟩

theorem Watched.mono {n m : Nat} (h : o.Watched n) (hle : n ≤ m) : o.Watched m :=
  ⟨h.sound, h.takers, h.guarded.mono (Nat.add_le_add_left hle _)⟩

theorem callFirst?_cases (ws : List Waiter) :
    (callFirst? ws = none ∧ ∀ w ∈ ws, w.called = true) ∨
    ∃ front w back, ws = front ++ w :: back ∧ (∀ v ∈ front, v.called = true) ∧ w.called = false ∧
      callFirst? ws = some (front ++ { w with called := true } :: back) := by
  induction ws with
  | nil => exact .inl ⟨rfl, by simp⟩
  | cons w ws ih =>
    cases hw : w.called with
    | false => exact .inr ⟨[], w, ws, rfl, by simp, hw, by simp [callFirst?, hw]⟩
    | true =>
      rcases ih with ⟨hnone, hall⟩ | ⟨front, v, back, rfl, hfront, hv, hsome⟩
      · exact .inl ⟨by simp [callFirst?, hw, hnone], by simpa [hw] using hall⟩
      · exact .inr ⟨w :: front, v, back, rfl, by simpa [hw] using hfront, hv,
          by simp [callFirst?, hw, hsome]⟩

theorem notify_cases (o : Outbox) :
    (o.notify.waiters = o.waiters ∧ ∀ w ∈ o.waiters, w.called = true) ∨
    ∃ front w back, o.waiters = front ++ w :: back ∧ (∀ v ∈ front, v.called = true) ∧
      w.called = false ∧ o.notify.waiters = front ++ { w with called := true } :: back := by
  rcases callFirst?_cases o.waiters with ⟨hnone, hall⟩ | ⟨front, w, back, hws, hfront, hw, hsome⟩
  · exact .inl ⟨by simp [notify, hnone], hall⟩
  · exact .inr ⟨front, w, back, hws, hfront, hw, by simp [notify, hsome]⟩

theorem takers_notify (o : Outbox) : o.notify.waiters.map (·.taker) = o.waiters.map (·.taker) := by
  rcases o.notify_cases with ⟨hsame, -⟩ | ⟨front, w, back, hws, -, -, hcalled⟩
  · rw [hsame]
  · rw [hcalled, hws, List.map_append, List.map_append]
    rfl

theorem Watched.notify {n : Nat} (h : o.Watched (n + 1)) : o.notify.Watched n := by
  have hdates : o.notify.dates = o.dates := by rw [dates, tickets, notify_schedule]; rfl
  have hsound : o.notify.schedule.Sound := by rw [notify_schedule]; exact h.sound
  refine ⟨hsound, by rw [takers_notify]; exact h.takers, ?_⟩
  have hguarded := h.guarded
  rw [called] at hguarded
  rcases o.notify_cases with ⟨hsame, hall⟩ | ⟨front, w, back, hws, hfront, hw, hwaiters⟩
  · rw [hsame]
    exact Guarded.of_called hall
  · rw [hws, Guarded.append_called hfront] at hguarded
    rw [hdates, called, hwaiters, Guarded.append_called hfront]
    refine ⟨by simp, hguarded.2.mono ?_⟩
    simp [hw]
    omega

theorem Watched.insert {n : Nat} (h : o.Watched n) (t : Task) : (o.insert t).2.Watched n := by
  rcases insert_cases h.sound t with ⟨-, hi⟩ | ⟨s, -, hi, hs, ht, hn⟩
  · rw [hi]
    exact h
  · rw [hi]
    refine Watched.notify ⟨hs, h.takers, ?_⟩
    have hdates : ({ o with schedule := s } : Outbox).dates.Perm (t.due :: o.dates) := by
      rw [dates, tickets, ht]
      exact (perm_place _).map _
    refine h.guarded.imp fun w r hw => ?_
    rw [hdates.countP_eq, List.countP_cons]
    have hsame : ({ o with schedule := s } : Outbox).called = o.called := rfl
    split <;> omega

theorem Watched.enqueue {n : Nat} (h : o.Watched n) (p : Path) (d : Destination) (wall : Timestamp)
    (now : Nat) : (o.enqueue p d wall now).2.Watched n := by
  unfold Outbox.enqueue
  split
  · exact h
  · exact h.insert _

theorem Watched.enqueueAll {n : Nat} (h : o.Watched n) (d : Destination) (wall : Timestamp) (now : Nat)
    (ps : List Path) : (enqueueAll d wall now o ps).2.Watched n := by
  induction ps generalizing o with
  | nil => exact h
  | cons p rest ih => exact ih (h.enqueue p d wall now)

theorem Watched.taken {n : Nat} (h : o.Watched (n + 1)) {k : Ticket} {rest : List Ticket}
    (hl : o.tickets = k :: rest) {s : Schedule} (hs : s.Sound) (hr : s.tickets = rest) :
    Watched { o with schedule := s } n := by
  have hdates : o.dates = k.task.due :: ({ o with schedule := s } : Outbox).dates := by
    rw [dates, hl, dates, tickets, hr]
    rfl
  have hsorted := o.sorted_dates
  have hguarded := h.guarded
  rw [hdates] at hsorted hguarded
  exact ⟨hs, h.takers, hguarded.tail (List.pairwise_cons.mp hsorted).1⟩

theorem Watched.takeDue {n : Nat} (h : o.Watched n) (now : Nat) : (o.takeDue now).2.Watched n := by
  unfold Outbox.takeDue
  rcases h.sound.takeDue_cases now with
    ⟨-, hd⟩ | ⟨k, rest, -, -, hd⟩ | ⟨k, rest, s, hl, -, hd, hs, hr, -⟩
  · rw [hd]
    exact h
  · rw [hd]
    exact h
  · rw [hd]
    exact (h.mono (Nat.le_succ n)).taken hl hs hr

theorem Watched.look {n : Nat} (h : o.Watched (n + 1)) {taker : Nat}
    (htaker : ∀ w ∈ o.waiters, w.taker ≠ taker) (now : Nat) : (o.look taker now).2.Watched n := by
  rcases look_cases h.sound taker now with ⟨k, rest, s, hl, -, hlook, hs, hr, -⟩ | ⟨-, hlook⟩
  · rw [hlook]
    exact h.taken hl hs hr
  · rw [hlook]
    have hdate : o.schedule.nextDue? = o.dates.head? := by
      rw [h.sound.nextDue?_eq, dates, List.head?_map]
    refine ⟨h.sound, ?_, ?_⟩
    · rw [Outbox.park, List.map_append, List.nodup_append]
      refine ⟨h.takers, List.nodup_singleton _, ?_⟩
      intro a ha b hb
      obtain ⟨w, hw, rfl⟩ := List.mem_map.mp ha
      obtain rfl : b = taker := by simpa using hb
      exact htaker w hw
    · have hparked := h.guarded.park o.sorted_dates taker
      rw [← hdate] at hparked
      have hcalled : ({ o with permit := false }.park taker o.schedule.nextDue?).called = o.called := by
        simp [called, Outbox.park]
      rw [hcalled]
      exact hparked

theorem release_of_split (htakers : (o.waiters.map (·.taker)).Nodup) {w : Waiter}
    {front back : List Waiter} (hws : o.waiters = front ++ w :: back) :
    o.waiter? w.taker = some w ∧ (o.release w.taker).waiters = front ++ back := by
  have hothers : ∀ v ∈ front ++ back, v.taker ≠ w.taker := by
    rw [hws, List.map_append, List.map_cons, List.nodup_middle, List.nodup_cons,
      ← List.map_append] at htakers
    intro v hv he
    exact htakers.1 (List.mem_map.mpr ⟨v, hv, he⟩)
  constructor
  · rw [waiter?, hws, List.find?_append, List.find?_eq_none.mpr]
    · simp
    · intro v hv
      simpa using hothers v (by simp [hv])
  · have hkeep : (front ++ back).filter (·.taker != w.taker) = front ++ back := by
      rw [List.filter_eq_self]
      intro v hv
      simpa using hothers v hv
    rw [Outbox.release, hws, List.filter_append, List.filter_cons_of_neg (by simp),
      ← List.filter_append, hkeep]

theorem Watched.split {n : Nat} (h : o.Watched n) {taker : Nat} {w : Waiter}
    (hw : o.waiter? taker = some w) :
    ∃ front back, o.waiters = front ++ w :: back ∧ (o.release taker).waiters = front ++ back := by
  have hmem : w ∈ o.waiters := List.mem_of_find?_eq_some hw
  obtain rfl : w.taker = taker := by simpa using List.find?_some hw
  obtain ⟨front, back, hws⟩ := List.append_of_mem hmem
  exact ⟨front, back, hws, (release_of_split h.takers hws).2⟩

theorem waiters_release_of_none {taker : Nat} (hw : o.waiter? taker = none) :
    (o.release taker).waiters = o.waiters := by
  rw [Outbox.release, List.filter_eq_self]
  intro v hv
  have := List.find?_eq_none.mp hw v hv
  simpa using this

/-- Who does not wait any longer is missed once, or its call is. -/
theorem Watched.release {n : Nat} (h : o.Watched n) (taker : Nat) :
    (o.release taker).Watched (n + 1) := by
  cases hw : o.waiter? taker with
  | none =>
    have hsame := waiters_release_of_none hw
    refine ⟨h.sound, by rw [hsame]; exact h.takers, ?_⟩
    rw [called, hsame]
    exact h.guarded.mono (Nat.le_succ _)
  | some w =>
    obtain ⟨front, back, hws, hleft⟩ := h.split hw
    have hguarded := h.guarded
    have htakers := h.takers
    rw [called, hws] at hguarded
    rw [hws] at htakers
    refine ⟨h.sound, ?_, ?_⟩
    · rw [hleft]
      refine List.Nodup.sublist ?_ htakers
      exact (List.Sublist.append_left (List.sublist_cons_self w back) front).map _
    · rw [called, hleft]
      refine hguarded.remove.mono ?_
      rw [List.countP_append, List.countP_append, List.countP_cons]
      cases w.called with
      | true =>
        simp
        omega
      | false => simp

theorem leave_of_none {taker : Nat} (hw : o.waiter? taker = none) : o.leave taker = o := by
  simp [leave, hw]

theorem leave_of_called {taker : Nat} {w : Waiter} (hw : o.waiter? taker = some w)
    (hc : w.called = true) : o.leave taker = (o.release taker).notify := by
  simp [leave, hw, hc]

theorem leave_of_uncalled {taker : Nat} {w : Waiter} (hw : o.waiter? taker = some w)
    (hc : w.called = false) : o.leave taker = o.release taker := by
  simp [leave, hw, hc]

theorem not_waiting_release (o : Outbox) (taker : Nat) :
    ∀ w ∈ (o.release taker).waiters, w.taker ≠ taker := by
  intro w hw
  simpa using List.of_mem_filter hw

theorem not_waiting_leave (o : Outbox) (taker : Nat) :
    ∀ w ∈ (o.leave taker).waiters, w.taker ≠ taker := by
  have hnotify : ∀ w ∈ (o.release taker).notify.waiters, w.taker ≠ taker := by
    intro w hw
    have hmem : w.taker ∈ (o.release taker).waiters.map (·.taker) := by
      rw [← takers_notify]
      exact List.mem_map.mpr ⟨w, hw, rfl⟩
    obtain ⟨v, hv, he⟩ := List.mem_map.mp hmem
    rw [← he]
    exact not_waiting_release o taker v hv
  unfold leave
  split
  · split
    · exact hnotify
    · exact not_waiting_release o taker
  · rename_i hnone
    rw [← waiters_release_of_none hnone]
    exact not_waiting_release o taker

/-- Whether nobody misses a taker that gives up: it passes its call on, or all others have been
called. -/
def mayLeave (o : Outbox) (taker : Nat) : Bool :=
  match o.waiter? taker with
  | some w => w.called || (o.release taker).waiters.all (·.called)
  | none => true

theorem Watched.leave_called {n : Nat} (h : o.Watched n) {taker : Nat} {w : Waiter}
    (hw : o.waiter? taker = some w) (hc : w.called = true) : (o.leave taker).Watched n := by
  rw [leave_of_called hw hc]
  exact (h.release taker).notify

theorem Watched.leave {n : Nat} (h : o.Watched n) (taker : Nat) : (o.leave taker).Watched (n + 1) := by
  cases hw : o.waiter? taker with
  | none =>
    rw [leave_of_none hw]
    exact h.mono (Nat.le_succ n)
  | some w =>
    cases hc : w.called with
    | true => exact (h.leave_called hw hc).mono (Nat.le_succ n)
    | false =>
      rw [leave_of_uncalled hw hc]
      exact h.release taker

theorem Watched.mayLeave {n : Nat} (h : o.Watched n) {taker : Nat} (hmay : o.mayLeave taker = true) :
    (o.leave taker).Watched n := by
  unfold Outbox.mayLeave at hmay
  cases hw : o.waiter? taker with
  | none =>
    rw [leave_of_none hw]
    exact h
  | some w =>
    cases hc : w.called with
    | true => exact h.leave_called hw hc
    | false =>
      have hall : ∀ v ∈ (o.release taker).waiters, v.called = true := by simpa [hw, hc] using hmay
      rw [leave_of_uncalled hw hc]
      exact ⟨h.sound, (h.release taker).takers, Guarded.of_called hall⟩

theorem Watched.resume {n : Nat} (h : o.Watched n) (taker now : Nat) (atDate : Bool) :
    (o.resume taker now atDate).2.Watched n := by
  cases atDate with
  | true => exact (h.leave taker).look (not_waiting_leave o taker) now
  | false => exact (h.release taker).look (not_waiting_release o taker) now

/-- What takers may do: one that waits may look again when it has been called or its date has come,
one that does not may begin to wait, and one may give up if nobody misses it. All else may always be
done. -/
def permits (o : Outbox) : Act → Bool
  | .look taker _ => ! o.isWaiting taker
  | .resume taker now atDate =>
    match o.waiter? taker with
    | some w => w.isRunnable now && (! atDate || w.timer.any (· ≤ now))
    | none => false
  | .leave taker => o.mayLeave taker
  | .enqueue _ _ _ _ | .requeue _ _ _ | .scan _ _ _ _ _ | .takeDue _ => true

def permitsAll (o : Outbox) : List Act → Bool
  | [] => true
  | a :: rest => o.permits a && (o.act a).permitsAll rest

theorem Watched.act {n : Nat} (h : o.Watched n) {a : Act} (ha : o.permits a = true) :
    (o.act a).Watched n := by
  cases a with
  | enqueue p d wall now => exact h.enqueue p d wall now
  | requeue t delay now => exact h.insert _
  | scan tree d dir wall now => exact h.enqueueAll d wall now _
  | takeDue now => exact h.takeDue now
  | look taker now =>
    have hnone : o.waiter? taker = none := by simpa [permits, isWaiting] using ha
    refine (h.mono (Nat.le_succ n)).look ?_ now
    rw [← waiters_release_of_none hnone]
    exact not_waiting_release o taker
  | resume taker now atDate => exact h.resume taker now atDate
  | leave taker => exact h.mayLeave ha

theorem Watched.after {n : Nat} (h : o.Watched n) {acts : List Act} (ha : o.permitsAll acts = true) :
    (o.after acts).Watched n := by
  induction acts generalizing o with
  | nil => exact h
  | cons a rest ih =>
    rw [permitsAll, Bool.and_eq_true] at ha
    exact ih (h.act ha.1) ha.2

/-- As long as somebody waits and nobody has been called, the one who came last wakes by itself no later
than any task falls due. -/
theorem Watched.wakes (h : o.Watched 0) (hnone : ∀ w ∈ o.waiters, w.called = false)
    (hwaits : o.waiters ≠ []) (hpending : o.tasks ≠ []) :
    ∃ w ∈ o.waiters, ∃ date, w.timer = some date ∧ ∀ t ∈ o.tasks, date ≤ t.due := by
  have hcalled : o.called = 0 := by
    rw [called, List.countP_eq_zero]
    intro w hw
    simp [hnone w hw]
  obtain ⟨front, last, hlast⟩ := (List.eq_nil_or_concat' o.waiters).resolve_left hwaits
  have hmem : last ∈ o.waiters := by simp [hlast]
  have hguarded := h.guarded
  rw [hlast, hcalled] at hguarded
  -- nobody is behind the last one
  have hpast : o.dates.countP last.sleepsPast = 0 := by
    have := hguarded.suffix.1 (hnone last hmem)
    simpa using this
  have hawake : ∀ t ∈ o.tasks, last.sleepsPast t.due = false := by
    intro t ht
    have hdate : t.due ∈ o.dates := by
      rw [tasks_eq] at ht
      obtain ⟨k, hk, rfl⟩ := List.mem_map.mp ht
      exact List.mem_map.mpr ⟨k, hk, rfl⟩
    simpa using List.countP_eq_zero.mp hpast _ hdate
  obtain ⟨t, ht⟩ := List.exists_mem_of_ne_nil _ hpending
  cases htimer : last.timer with
  | none => simpa [Waiter.sleepsPast, htimer] using hawake t ht
  | some date =>
    refine ⟨last, hmem, date, htimer, fun u hu => ?_⟩
    simpa [Waiter.sleepsPast, htimer] using hawake u hu

/-- How often takers may still look again at an instant. -/
def looksLeft (o : Outbox) (now : Nat) : Nat := (o.waiters.map (·.looks now)).sum

theorem looksLeft_le (o : Outbox) (now : Nat) : o.looksLeft now ≤ 2 * o.waiters.length := by
  have hle := List.sum_le_card_nsmul (o.waiters.map (·.looks now)) 2 fun n hn => by
    obtain ⟨w, -, rfl⟩ := List.mem_map.mp hn
    exact w.looks_le_two now
  rw [List.length_map, smul_eq_mul] at hle
  rw [looksLeft]
  omega

theorem looksLeft_notify (o : Outbox) (now : Nat) :
    o.notify.looksLeft now ≤ o.looksLeft now + 1 := by
  rcases o.notify_cases with ⟨hsame, -⟩ | ⟨front, w, back, hws, -, hw, hwaiters⟩
  · rw [looksLeft, hsame]
    exact Nat.le_succ _
  · rw [looksLeft, looksLeft, hwaiters, hws]
    simp [Waiter.looks, hw]
    omega

theorem looksLeft_look (h : o.schedule.Sound) (taker now : Nat) :
    (o.look taker now).2.looksLeft now = o.looksLeft now := by
  rcases look_cases h taker now with ⟨k, rest, s, -, -, hlook, -⟩ | ⟨hlater, hlook⟩
  · rw [hlook]
    rfl
  · rw [hlook]
    have hlast : Waiter.looks { taker, timer := o.schedule.nextDue? } now = 0 := by
      rw [h.nextDue?_eq]
      cases hts : o.schedule.tickets with
      | nil => rfl
      | cons k rest =>
        have := hlater k (by rw [tickets, hts]; simp)
        simp [Waiter.looks]
        omega
    simp [looksLeft, park, hlast]

theorem Watched.looksLeft_resume {n : Nat} (h : o.Watched n) {taker now : Nat} {atDate : Bool}
    (ha : o.permits (.resume taker now atDate) = true) :
    (o.resume taker now atDate).2.looksLeft now < o.looksLeft now := by
  cases hw : o.waiter? taker with
  | none => simp [permits, hw] at ha
  | some w =>
    have hpermits : w.isRunnable now = true ∧ (! atDate || w.timer.any (· ≤ now)) = true := by
      simpa only [permits, hw, Bool.and_eq_true] using ha
    obtain ⟨front, back, hws, hleft⟩ := h.split hw
    have hbefore : o.looksLeft now = (o.release taker).looksLeft now + w.looks now := by
      rw [looksLeft, looksLeft, hws, hleft]
      simp
      omega
    have hpos := Waiter.looks_pos hpermits.1
    have hreleased : ((o.release taker).look taker now).2.looksLeft now < o.looksLeft now := by
      have hlook := looksLeft_look (o := o.release taker) h.sound taker now
      omega
    cases atDate with
    | false => exact hreleased
    | true =>
      have hresume : (o.resume taker now true).2 = ((o.leave taker).look taker now).2 := rfl
      cases hc : w.called with
      | false =>
        rw [hresume, leave_of_uncalled hw hc]
        exact hreleased
      | true =>
        -- the call goes to another, and the date was a reason of its own
        have htwo : w.looks now = 2 := by
          have hdate : w.timer.any (· ≤ now) = true := by simpa using hpermits.2
          simp [Waiter.looks, hc, hdate]
        have hnotify := looksLeft_notify (o.release taker) now
        rw [hresume, leave_of_called hw hc, looksLeft_look (by simpa using h.sound)]
        omega

/-- Takers that look again, one after the other, at one instant. -/
def turns (now : Nat) (takers : List (Nat × Bool)) : List Act :=
  takers.map fun turn => .resume turn.1 now turn.2

theorem Watched.length_turns {n : Nat} (h : o.Watched n) {now : Nat} {takers : List (Nat × Bool)}
    (ha : o.permitsAll (turns now takers) = true) : takers.length ≤ o.looksLeft now := by
  induction takers generalizing o with
  | nil => exact Nat.zero_le _
  | cons turn rest ih =>
    rw [turns, List.map_cons, permitsAll, Bool.and_eq_true] at ha
    have hrest := ih (h.act ha.1) ha.2
    have hused : (o.act (.resume turn.1 now turn.2)).looksLeft now < o.looksLeft now :=
      h.looksLeft_resume ha.1
    rw [List.length_cons]
    omega

/-- Every ticket there ever was waits or has been handed out, and none twice. -/
theorem perm_numbers (h : o.schedule.Sound) (acts : List Act) {past : List Nat}
    (hpast : (past ++ o.tickets.map (·.number)).Perm (List.range o.nextNumber)) :
    (past ++ (o.handouts acts).map (·.ticket.number) ++ (o.after acts).tickets.map (·.number)).Perm
      (List.range (o.after acts).nextNumber) := by
  induction acts generalizing o past with
  | nil => simpa [handouts, after] using hpast
  | cons a rest ih =>
    have hnext {past' : List Nat}
        (hpast' : (past' ++ (o.act a).tickets.map (·.number)).Perm (List.range (o.act a).nextNumber)) :=
      ih (sound_act h a) hpast'
    rw [handouts, after, List.foldl_cons, ← after]
    cases effect h a with
    | @takes k behind taker now taking first due reply left number =>
      have hpast' : (past ++ [k.number] ++ (o.act a).tickets.map (·.number)).Perm
          (List.range (o.act a).nextNumber) := by
        rw [left, number]
        rw [first] at hpast
        simpa using hpast
      rw [handout?_takes taking first reply]
      simpa using hnext hpast'
    | puts new none tickets numbers number =>
      have hpast' : (past ++ (o.act a).tickets.map (·.number)).Perm
          (List.range (o.act a).nextNumber) := by
        rw [number, tickets, List.range_eq_range', ← List.range'_append_1, ← List.range_eq_range',
          Nat.zero_add, ← numbers]
        calc past ++ (placeAll new o.tickets).map (·.number)
          _ |>.Perm (past ++ (new ++ o.tickets).map (·.number)) :=
            ((perm_placeAll _ _).map _).append_left past
          _ |>.Perm ((past ++ o.tickets.map (·.number)) ++ new.map (·.number)) := by
            rw [List.map_append, List.append_assoc]
            exact List.perm_append_comm.append_left past
          _ |>.Perm _ := hpast.append_right _
      rw [handout?_of_none none]
      simpa using hnext hpast'

theorem due_handouts (h : o.schedule.Sound) (acts : List Act) :
    ∀ out ∈ o.handouts acts, out.ticket.task.due ≤ out.time := by
  induction acts generalizing o with
  | nil => simp [handouts]
  | cons a rest ih =>
    intro out hout
    rw [handouts] at hout
    rcases List.mem_append.mp hout with hout | hout
    · cases effect h a with
      | takes taking first due reply =>
        rw [handout?_takes taking first reply, Option.mem_toList, Option.some_inj] at hout
        rw [← hout]
        exact due
      | puts new none => simp [handout?_of_none none] at hout
    · exact ih (sound_act h a) out hout

/-- Takers begin to wait, look again and give up, and tasks come in and go, in any order and at any
instants; one that gives up has been called, or all others have been. Then whenever nobody may look
again, some waiter wakes by itself no later than any task falls due. So nobody waits on while a task is
due: somebody may look again, and after at most two turns for each waiter there is no turn left. A task
is handed out only when it is due, and no ticket twice: it waits, or one of the replies is its task. -/
theorem takers_wake {acts : List Act} (hacts : ({} : Outbox).permitsAll acts = true) :
    let o := ({} : Outbox).after acts
    let outs := ({} : Outbox).handouts acts
    (∀ now, (∀ w ∈ o.waiters, w.isRunnable now = false) → o.waiters ≠ [] → o.tasks ≠ [] →
        ∃ w ∈ o.waiters, ∃ date, w.timer = some date ∧ ∀ t ∈ o.tasks, date ≤ t.due) ∧
      (∀ now, o.waiters ≠ [] → (∃ t ∈ o.tasks, t.due ≤ now) →
        ∃ w ∈ o.waiters, w.isRunnable now = true) ∧
      (∀ now takers, o.permitsAll (turns now takers) = true →
        takers.length ≤ 2 * o.waiters.length) ∧
      ({} : Outbox).replies acts = outs.map (·.ticket.task) ∧
      (∀ out ∈ outs, out.ticket.task.due ≤ out.time) ∧
      (outs.map (·.ticket.number) ++ o.tickets.map (·.number)).Perm (List.range o.nextNumber) := by
  intro o outs
  have hwatched : o.Watched 0 := watched_empty.after hacts
  have hasleep {now : Nat} (h : ∀ w ∈ o.waiters, w.isRunnable now = false) :
      ∀ w ∈ o.waiters, w.called = false := by
    intro w hw
    rw [← Bool.not_eq_true]
    intro hc
    have := (w.isRunnable_iff now).mpr (.inl hc)
    simp [h w hw] at this
  refine ⟨fun now hnone => hwatched.wakes (hasleep hnone), ?_, ?_,
    replies_eq Schedule.sound_empty acts, due_handouts Schedule.sound_empty acts, ?_⟩
  · rintro now hwaits ⟨t, ht, hdue⟩
    by_contra hnobody
    have hnone : ∀ w ∈ o.waiters, w.isRunnable now = false := by
      intro w hw
      rw [← Bool.not_eq_true]
      exact fun hrunnable => hnobody ⟨w, hw, hrunnable⟩
    obtain ⟨w, hw, date, htimer, hdate⟩ :=
      hwatched.wakes (hasleep hnone) hwaits (List.ne_nil_of_mem ht)
    have hawake : w.timer.any (· ≤ now) = true := by
      have := hdate t ht
      simp [htimer]
      omega
    exact hnobody ⟨w, hw, (w.isRunnable_iff now).mpr (.inr hawake)⟩
  · intro now takers hturns
    exact (hwatched.length_turns hturns).trans (o.looksLeft_le now)
  · have hempty : ({} : Outbox).tickets = [] := List.map_eq_nil_iff.mp Schedule.toList_empty
    have hstart : ([] ++ ({} : Outbox).tickets.map Ticket.number).Perm (List.range 0) := by
      rw [hempty]
      rfl
    exact perm_numbers Schedule.sound_empty acts hstart

/-- Two takers wait. A recording is new, and goes to someone else before a taker looks; it comes back
after a delay, and both takers look again too early. -/
def twoWait : List Act :=
  [.look 0 0, .look 1 0, .enqueue (.ofText "a") (.ofEndpoint "u") .epoch 5, .takeDue 5,
    .requeue (.fresh (.ofText "a") (.ofEndpoint "u") .epoch 5) 100 6, .resume 1 7 false,
    .resume 0 8 false]

theorem takers_wake_twoWait :
    let o := ({} : Outbox).after twoWait
    ({} : Outbox).permitsAll twoWait = true ∧ o.waiters.map (·.taker) = [1, 0] ∧
      o.tasks.map (·.due) = [106] ∧
      ∃ w ∈ o.waiters, ∃ date, w.timer = some date ∧ ∀ t ∈ o.tasks, date ≤ t.due := by
  have hacts : ({} : Outbox).permitsAll twoWait = true := by cbv
  have hwaiters : (({} : Outbox).after twoWait).waiters =
      [⟨1, some 106, false⟩, ⟨0, some 106, false⟩] := by cbv
  have htasks : (({} : Outbox).after twoWait).tasks.map (·.due) = [106] := by cbv
  refine ⟨hacts, by rw [hwaiters]; rfl, htasks, (takers_wake hacts).1 8 ?_ ?_ ?_⟩
  · rw [hwaiters]
    decide
  · simp [hwaiters]
  · intro hnil
    simp [hnil] at htasks

end Outbox
end RecordingDelivery
