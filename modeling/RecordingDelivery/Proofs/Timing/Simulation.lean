import RecordingDelivery.Proofs.Timing.Engine

/-!
A service's courier does by the clock what the plain schedule does. All that it has besides, the timer,
the kept call and the takers' list, makes it look for a task once more than needed at times, but never
too late.
-/
namespace RecordingDelivery

namespace Outbox

variable {o : Outbox} {taker : Nat} {waits : Bool}

/-- Only this taker ever waits, and just while it is said to. Until it is called its timer stands at
the first date. -/
def Attended (o : Outbox) (taker : Nat) (waits : Bool) : Prop :=
  if waits then
    ∃ w, o.waiters = [w] ∧ w.taker = taker ∧ (w.called = false → w.timer = o.schedule.nextDue?)
  else o.waiters = []

theorem insert_spec (h : o.schedule.Sound) (ha : o.Attended taker waits) (t : Task) :
    (o.insert t).2.tasks = (Agenda.push o.tasks t).2 ∧ (o.insert t).2.schedule.Sound ∧
      (o.insert t).2.Attended taker waits := by
  have hpush := h.push_eq t
  cases hs : o.schedule.insert? t with
  | none =>
    rw [hs] at hpush
    have hi : (o.insert t).2 = o := by simp [insert, hs]
    rw [hi]
    exact ⟨by rw [tasks, hpush], h, ha⟩
  | some s =>
    rw [hs] at hpush
    obtain ⟨htasks, hsound, -⟩ := hpush
    have hi : (o.insert t).2 = { o with schedule := s }.notify := by simp [insert, hs]
    rw [hi]
    refine ⟨by rw [tasks, notify_schedule, tasks, htasks], by simpa using hsound, ?_⟩
    cases waits with
    | false =>
      have hw : o.waiters = [] := ha
      simp [Attended, notify, hw, callFirst?]
    | true =>
      obtain ⟨w, hw, ht, hc⟩ := ha
      cases hcalled : w.called with
      | true => exact ⟨w, by simp [notify, hw, callFirst?, hcalled], ht, by simp [hcalled]⟩
      | false => exact ⟨{ w with called := true }, by simp [notify, hw, callFirst?, hcalled], ht, by simp⟩

theorem Attended.waiters_release (ha : o.Attended taker true) : (o.release taker).waiters = [] := by
  obtain ⟨w, hw, ht, -⟩ := ha
  simp [release, hw, ht]

theorem Attended.waiters_leave (ha : o.Attended taker true) : (o.leave taker).waiters = [] := by
  have hr := ha.waiters_release
  obtain ⟨w, hw, ht, -⟩ := ha
  have hfound : o.waiter? taker = some w := by simp [waiter?, hw, ht]
  simp only [leave, hfound]
  split
  · simp [notify, hr, callFirst?]
  · exact hr

end Outbox

namespace Clockwork

open Service (courier)

variable {w : Surroundings} {c : Clockwork}

def stage (c : Clockwork) : Stage :=
  match c.service.phase with
  | .looking | .waiting | .stopped => .idle
  | .checking t => .testing t
  | .calling t => .calling t c.ends c.result
  | .finalizing t => .tidying t

/-- What the plain schedule has of a service. -/
def view (c : Clockwork) : Ideal where
  agenda := c.service.site.outbox.tasks
  tree := c.service.site.tree
  now := c.service.site.now
  wall := c.service.site.wall
  stage := c.stage
  calls := c.calls
  acts := c.acts

def HandDue (c : Clockwork) : Prop :=
  match c.service.phase with
  | .checking t | .calling t | .finalizing t => t.due ≤ c.service.site.now
  | .looking | .waiting => True
  | .stopped => False

structure Fit (c : Clockwork) : Prop where
  sound : c.service.Sound
  going : c.service.stopping = false
  attended : c.service.site.outbox.Attended courier (c.service.phase = .waiting)
  hand : c.HandDue

theorem Fit.withOutbox_insert (h : c.Fit) (t : Task) :
    Fit { c with service := c.service.withOutbox (c.service.site.outbox.insert t).2 } ∧
      view { c with service := c.service.withOutbox (c.service.site.outbox.insert t).2 } =
        c.view.push t := by
  obtain ⟨ht, hs, ha⟩ := Outbox.insert_spec h.sound h.attended t
  refine ⟨⟨hs, h.going, ha, h.hand⟩, ?_⟩
  simp only [view, Ideal.push, Service.withOutbox, ht]
  rfl

theorem Fit.enqueue (h : c.Fit) (p : Path) (d : Destination) :
    Fit { c with service := (c.service.enqueue p d).2 } ∧
      view { c with service := (c.service.enqueue p d).2 } = c.view.enqueue p d := by
  by_cases hp : (p.isEmpty || ! d.isEnabled) = true
  · have hs : (c.service.enqueue p d).2 = c.service := by
      simp [Service.enqueue, Site.enqueue, Outbox.enqueue, hp]
    rw [hs, Ideal.enqueue, if_pos hp]
    exact ⟨h, rfl⟩
  · have hs : (c.service.enqueue p d).2 = c.service.withOutbox (c.service.site.outbox.insert
        (Task.fresh p d c.service.site.wall c.service.site.now)).2 := by
      simp [Service.enqueue, Site.enqueue, Outbox.enqueue, hp, Service.withOutbox]
    rw [hs, Ideal.enqueue, if_neg hp]
    exact h.withOutbox_insert _

theorem Fit.enqueueAll (h : c.Fit) (d : Destination) (ps : List Path) :
    Fit { c with service := ps.foldl (fun s p => (s.enqueue p d).2) c.service } ∧
      view { c with service := ps.foldl (fun s p => (s.enqueue p d).2) c.service } =
        ps.foldl (fun i p => i.enqueue p d) c.view := by
  induction ps generalizing c with
  | nil => exact ⟨h, rfl⟩
  | cons p rest ih =>
    obtain ⟨hfit, hview⟩ := h.enqueue p d
    rw [List.foldl_cons, List.foldl_cons, ← hview]
    exact ih hfit

theorem Fit.suffer (h : c.Fit) (d : Disturbance) :
    (c.suffer d).Fit ∧ (c.suffer d).view = c.view.suffer d := by
  cases d with
  | enqueue p d => exact h.enqueue p d
  | requeue t delay => exact h.withOutbox_insert _
  | scan d dir =>
    rw [Clockwork.suffer, Service.scan_eq_foldl]
    exact h.enqueueAll d _
  | files tree | setWall wall => exact ⟨⟨h.sound, h.going, h.attended, h.hand⟩, rfl⟩

/-- What becomes of a free courier: it takes the first task if it is due, and waits until it is called
or for the first date if not. -/
inductive Found (s : Service) : Service → Prop
  | due {k : Ticket} {rest : List Ticket} {o : Outbox} (first : s.tickets = k :: rest)
      (due : k.task.due ≤ s.site.now) (sound : o.schedule.Sound) (left : o.tickets = rest)
      (waiters : o.waiters = []) : Found s { s.withOutbox o with phase := .checking k.task }
  | nothing {o : Outbox} (later : ∀ k ∈ s.tickets, s.site.now < k.task.due)
      (same : o.schedule = s.site.outbox.schedule)
      (waiters : o.waiters = [⟨courier, o.schedule.nextDue?, false⟩]) :
      Found s { s.withOutbox o with phase := .waiting }

theorem found_takeUp {s : Service} (h : s.Sound) {o : Outbox}
    (ho : o.schedule = s.site.outbox.schedule) (hw : o.waiters = []) :
    Found s (s.takeUp (o.look courier s.site.now)) := by
  have hs : o.schedule.Sound := by rw [ho]; exact h
  rcases o.look_cases hs courier s.site.now with
    ⟨k, rest, s', ht, hd, hl, hs', hr, hn⟩ | ⟨hd, hl⟩
  · rw [Outbox.tickets, ho] at ht
    rw [hl]
    exact .due ht hd hs' hr hw
  · rw [Outbox.tickets, ho] at hd
    rw [hl]
    exact .nothing hd ho (by simp [Outbox.park, hw])

theorem Fit.found_turn (h : c.Fit) (hf : c.service.isFree = true) (atDate : Bool) :
    Found c.service (c.service.turn atDate) := by
  have hattended := h.attended
  cases hp : c.service.phase with
  | looking =>
    simp only [hp, reduceCtorEq, decide_false] at hattended
    simp only [Service.turn, hp, Service.look, h.going, Bool.false_eq_true, if_false]
    exact found_takeUp h.sound rfl hattended
  | waiting =>
    simp only [hp, decide_true] at hattended
    simp only [Service.turn, hp, Service.wake, h.going, Bool.false_eq_true, if_false, Outbox.resume]
    cases atDate with
    | true => exact found_takeUp h.sound (Outbox.leave_schedule _ _) hattended.waiters_leave
    | false => exact found_takeUp h.sound (Outbox.release_schedule _ _) hattended.waiters_release
  | checking t | calling t | finalizing t | stopped => simp [Service.isFree, hp] at hf

theorem stage_free (hf : c.service.isFree = true) : c.stage = .idle := by
  unfold Service.isFree at hf
  unfold stage
  split <;> simp_all

theorem view_isReady_iff (hf : c.service.isFree = true) :
    c.view.isReady = true ↔ ∃ k rest, c.service.tickets = k :: rest ∧
      k.task.due ≤ c.service.site.now := by
  have hstage : c.view.stage = .idle := stage_free hf
  have hagenda : c.view.agenda = c.service.tickets.map (·.task) := rfl
  have hnow : c.view.now = c.service.site.now := rfl
  rw [Ideal.isReady, hstage, hagenda, hnow]
  cases c.service.tickets <;> simp

theorem settle_error (s : Site) (t : Task) (failure : Failure) :
    (s.settle t (.error failure)).2 = { s with
      outbox := (s.outbox.requeue t (t.destination.retryDelay failure) s.now).2 } := by
  unfold Site.settle
  dsimp only
  split <;> rename_i h <;> rw [h]

theorem isRunnable_waiting {s : Service} (hgoing : s.stopping = false) (hp : s.phase = .waiting)
    {e : Waiter} (he : s.site.outbox.waiters = [e]) (ht : e.taker = courier) :
    s.isRunnable = e.isRunnable s.site.now := by
  simp [hp, Service.isRunnable, hgoing, Outbox.isRunnable, Outbox.waiter?, he, ht]

theorem nextDue?_eq (h : c.service.Sound) :
    c.service.site.outbox.schedule.nextDue? = c.view.agenda.head?.map (·.due) := by
  rw [h.nextDue?_eq]
  show c.service.tickets.head?.map (·.task.due) = (c.service.tickets.map (·.task)).head?.map (·.due)
  cases c.service.tickets <;> rfl

/-- An act of a free courier: the plain schedule starts the same task, or it has nothing to start and
the courier comes to rest. -/
theorem Fit.act_free (h : c.Fit) (hf : c.service.isFree = true) :
    (c.act w).Fit ∧
      ((c.view.isReady = true ∧ (c.act w).view = c.view.act w) ∨
        (c.view.isReady = false ∧ (c.act w).view = c.view ∧ (c.act w).isReady = false)) := by
  have hfound := h.found_turn hf (c.wakes 0 && c.service.isDateReached)
  have hact : c.act w = { c with
      service := c.service.turn (c.wakes 0 && c.service.isDateReached)
      acts := if (c.service.turn (c.wakes 0 && c.service.isDateReached)).phase = .waiting then c.acts
        else c.acts + 1
      wakes := fun n => c.wakes (n + 1) } := by
    cases hp : c.service.phase <;> simp_all [act, Service.isFree]
  have hready := view_isReady_iff hf
  have hstage : c.view.stage = .idle := stage_free hf
  rw [hact]
  generalize c.service.turn (c.wakes 0 && c.service.isDateReached) = s' at hfound
  cases hfound with
  | @due k rest o first due sound left waiters =>
    refine ⟨⟨sound, h.going, waiters, due⟩, .inl ⟨hready.mpr ⟨k, rest, first, due⟩, ?_⟩⟩
    have hagenda : c.view.agenda = k.task :: rest.map (·.task) := by
      show c.service.tickets.map (·.task) = _
      rw [first]
      rfl
    have htasks : o.tasks = rest.map (·.task) := by rw [Outbox.tasks_eq, left]
    simp only [Ideal.act, hstage, hagenda]
    simp [view, stage, Service.withOutbox, htasks]
  | @nothing o later same waiters =>
    have hview : c.view.isReady = false := by
      rw [← Bool.not_eq_true, hready]
      rintro ⟨k, rest, hl, hd⟩
      have := later k (by simp [hl])
      omega
    refine ⟨⟨?_, h.going, ⟨_, waiters, rfl, fun _ => rfl⟩, trivial⟩, .inr ⟨hview, ?_, ?_⟩⟩
    · show o.schedule.Sound
      rw [same]
      exact h.sound
    · have htasks : o.tasks = c.service.site.outbox.tasks := by rw [Outbox.tasks, Outbox.tasks, same]
      simp only [view, Service.withOutbox, htasks, stage_free hf, if_true]
      rfl
    · have hrun := isRunnable_waiting (s := { c.service.withOutbox o with phase := .waiting }) h.going
        rfl waiters rfl
      show Service.isRunnable { c.service.withOutbox o with phase := .waiting } = false
      rw [hrun]
      have hdate : o.schedule.nextDue? = c.service.tickets.head?.map (·.task.due) := by
        rw [same]
        exact h.sound.nextDue?_eq
      simp only [Waiter.isRunnable, hdate, Bool.false_or]
      cases hl : c.service.tickets with
      | nil => rfl
      | cons k rest =>
        have := later k (by simp [hl])
        exact decide_eq_false (Nat.not_le.mpr this)

theorem Fit.act_checking (h : c.Fit) {t : Task} (hp : c.service.phase = .checking t) :
    (c.act w).Fit ∧ c.view.isReady = true ∧ (c.act w).view = c.view.act w := by
  have hattended := h.attended
  have hhand := h.hand
  simp only [hp, reduceCtorEq, decide_false] at hattended
  simp only [HandDue, hp] at hhand
  have hview : c.view.stage = .testing t := by simp [view, stage, hp]
  refine ⟨?_, by simp [Ideal.isReady, hview], ?_⟩
  · cases hx : w.isFaulty c.acts with
    | true =>
      simp only [act, hp, hx, if_true, Service.diskFault, beginCall]
      exact ⟨h.sound, h.going, hattended, hhand⟩
    | false =>
      simp only [act, hp, hx, Bool.false_eq_true, if_false, Service.turn, Service.check]
      cases hpresent : c.service.site.tree.isPresent t.path with
      | true =>
        simp only [if_true, beginCall]
        exact ⟨h.sound, h.going, hattended, hhand⟩
      | false =>
        simp only [Bool.false_eq_true, if_false]
        exact ⟨h.sound, h.going, hattended, trivial⟩
  · have hacts : c.view.acts = c.acts := rfl
    have htree : c.view.tree = c.service.site.tree := rfl
    simp only [Ideal.act, hview, hacts, htree]
    cases hx : w.isFaulty c.acts with
    | true =>
      simp only [act, hp, hx, if_true, Service.diskFault, Bool.true_or]
      rfl
    | false =>
      simp only [act, hp, hx, Bool.false_eq_true, if_false, Service.turn, Service.check,
        Bool.false_or]
      cases hpresent : c.service.site.tree.isPresent t.path <;> rfl

theorem Fit.act_calling (h : c.Fit) {t : Task} (hp : c.service.phase = .calling t)
    (hr : c.isReady = true) :
    (c.act w).Fit ∧ c.view.isReady = true ∧ (c.act w).view = c.view.act w := by
  have hattended := h.attended
  have hhand := h.hand
  simp only [hp, reduceCtorEq, decide_false] at hattended
  simp only [HandDue, hp] at hhand
  have hview : c.view.stage = .calling t c.ends c.result := by simp [view, stage, hp]
  have hends : c.ends ≤ c.service.site.now := by simpa [isReady, hp] using hr
  have hnow : c.view.now = c.service.site.now := rfl
  have hback (t' : Task) : (c.service.site.outbox.insert t').2.tasks =
        (Agenda.push c.view.agenda t').2 ∧ (c.service.site.outbox.insert t').2.schedule.Sound ∧
      (c.service.site.outbox.insert t').2.Attended courier false :=
    Outbox.insert_spec h.sound hattended t'
  refine ⟨?_, by simpa [Ideal.isReady, hview, hnow] using hends, ?_⟩
  · cases hresult : c.result with
    | ok u =>
      simp only [act, hp, hresult, Service.answer]
      exact ⟨h.sound, h.going, hattended, hhand⟩
    | error failure =>
      simp only [act, hp, hresult, Service.answer, settle_error]
      obtain ⟨-, hsound, hwaits⟩ := hback (t.retryAt _)
      exact ⟨hsound, h.going, hwaits, trivial⟩
  · simp only [Ideal.act, hview]
    cases hresult : c.result with
    | ok u =>
      simp only [act, hp, hresult, Service.answer]
      rfl
    | error failure =>
      obtain ⟨htasks, -⟩ := hback (t.retryAt (c.service.site.now +
        min (t.destination.retryDelay failure) Outbox.horizon))
      simp only [act, hp, hresult, Service.answer, settle_error, Ideal.requeue, Ideal.push, hnow]
      rw [← htasks]
      rfl

theorem Fit.act_finalizing (h : c.Fit) {t : Task} (hp : c.service.phase = .finalizing t) :
    (c.act w).Fit ∧ c.view.isReady = true ∧ (c.act w).view = c.view.act w := by
  have hattended := h.attended
  simp only [hp, reduceCtorEq, decide_false] at hattended
  have hview : c.view.stage = .tidying t := by simp [view, stage, hp]
  have hacts : c.view.acts = c.acts := rfl
  cases hx : w.isFaulty c.acts with
  | true =>
    refine ⟨?_, by simp [Ideal.isReady, hview], ?_⟩
    · simp only [act, hp, hx, if_true, Service.diskFault]
      exact ⟨h.sound, h.going, hattended, trivial⟩
    · simp only [Ideal.act, hview, hacts, act, hp, hx, if_true, Service.diskFault]
      rfl
  | false =>
    refine ⟨?_, by simp [Ideal.isReady, hview], ?_⟩
    · simp only [act, hp, hx, Bool.false_eq_true, if_false, Service.turn, Service.finalize]
      exact ⟨h.sound, h.going, hattended, trivial⟩
    · simp only [Ideal.act, hview, hacts, act, hp, hx, Bool.false_eq_true, if_false, Service.turn,
        Service.finalize]
      rfl

theorem Fit.act_busy (h : c.Fit) (hf : c.service.isFree = false) (hr : c.isReady = true) :
    (c.act w).Fit ∧ c.view.isReady = true ∧ (c.act w).view = c.view.act w := by
  cases hp : c.service.phase with
  | looking | waiting => simp [Service.isFree, hp] at hf
  | checking t => exact h.act_checking hp
  | calling t => exact h.act_calling hp hr
  | finalizing t => exact h.act_finalizing hp
  | stopped =>
    have hhand := h.hand
    simp [HandDue, hp] at hhand

theorem Fit.isReady_of_view (h : c.Fit) (hv : c.view.isReady = true) : c.isReady = true := by
  have hhand := h.hand
  cases hp : c.service.phase with
  | looking | checking t | finalizing t => simp [isReady, hp, Service.isRunnable]
  | calling t => simpa [isReady, hp, Ideal.isReady, view, stage] using hv
  | stopped => simp [HandDue, hp] at hhand
  | waiting =>
    have hattended := h.attended
    simp only [hp, decide_true] at hattended
    obtain ⟨e, he, ht, hdate⟩ := hattended
    have hrun := isRunnable_waiting h.going hp he ht
    have hready : c.isReady = e.isRunnable c.service.site.now := by simp [isReady, hp, hrun]
    rw [hready]
    cases hcalled : e.called with
    | true => simp [Waiter.isRunnable, hcalled]
    | false =>
      -- the timer stands at the date of the first task, which has come
      rw [Waiter.isRunnable, hdate hcalled, nextDue?_eq h.sound]
      have hstage : c.view.stage = .idle := by simp [view, stage, hp]
      have hnow : c.view.now = c.service.site.now := rfl
      simp only [Ideal.isReady, hstage, hnow] at hv
      cases ha : c.view.agenda with
      | nil => simp [ha] at hv
      | cons t rest => simpa [ha, hcalled] using hv

/-- A courier that has nothing to do knows the time at which it will. -/
theorem Fit.alarm?_eq (h : c.Fit) (hr : c.isReady = false) : c.alarm? = c.view.alarm? := by
  have hhand := h.hand
  have hattended := h.attended
  cases hp : c.service.phase with
  | looking | checking t | finalizing t => simp [isReady, hp, Service.isRunnable] at hr
  | stopped => simp [HandDue, hp] at hhand
  | calling t =>
    simp only [hp, reduceCtorEq, decide_false] at hattended
    have hw : c.service.site.outbox.waiters = [] := hattended
    simp [alarm?, hp, Outbox.nextTimer?, hw, Ideal.alarm?, view, stage]
  | waiting =>
    simp only [hp, decide_true] at hattended
    obtain ⟨e, he, ht, hdate⟩ := hattended
    have hrun := isRunnable_waiting h.going hp he ht
    have hcalled : e.called = false := by
      cases hc : e.called with
      | false => rfl
      | true => simp [isReady, hp, hrun, Waiter.isRunnable, hc] at hr
    have htimer := hdate hcalled
    rw [nextDue?_eq h.sound] at htimer
    have hstage : c.view.stage = .idle := by simp [view, stage, hp]
    simp only [alarm?, hp, Outbox.nextTimer?, he, Ideal.alarm?, hstage, ← htimer]
    cases hd : e.timer <;> simp [hd]

theorem Fit.moveTo (h : c.Fit) (t : Nat) : Fit { c with service := c.service.advance t } := by
  refine ⟨h.sound, h.going, h.attended, ?_⟩
  have hhand := h.hand
  cases hp : c.service.phase with
  | checking task | calling task | finalizing task =>
    simp only [HandDue, hp] at hhand
    simp only [HandDue, hp, Service.advance]
    exact Nat.le_trans hhand (Nat.le_max_left _ _)
  | looking | waiting => simp only [HandDue, hp, Service.advance]
  | stopped =>
    simp only [HandDue, hp] at hhand

theorem Fit.act (h : c.Fit) (hr : c.isReady = true) : (c.act w).Fit := by
  cases hf : c.service.isFree with
  | true => exact (h.act_free hf).1
  | false => exact (h.act_busy hf hr).1

theorem Fit.view_act (h : c.Fit) (hv : c.view.isReady = true) : (c.act w).view = c.view.act w := by
  cases hf : c.service.isFree with
  | true =>
    rcases (h.act_free (w := w) hf).2 with ⟨-, hview⟩ | ⟨hno, -⟩
    · exact hview
    · rw [hv] at hno
      exact absurd hno (by simp)
  | false => exact (h.act_busy hf (h.isReady_of_view hv)).2.2

end Clockwork

def Course.view (c : Course Clockwork) : Course Ideal := ⟨c.state.view, c.coming⟩

namespace Engine

variable {σ : Type}

theorem step_cases (e : Engine σ) (c : Course σ) :
    (∃ d, (e.step c).state = e.suffer c.state d) ∨
    (e.isReady c.state = true ∧ (e.step c).state = e.act c.state) ∨
    (e.isReady c.state = false ∧ ∃ t, e.nextTime? c = some t ∧
      (e.step c).state = e.moveTo c.state t) ∨
    (e.step c).state = c.state := by
  have hproceed : (e.isReady c.state = true ∧ (e.proceed c).state = e.act c.state) ∨
      (e.isReady c.state = false ∧ ∃ t, e.nextTime? c = some t ∧
        (e.proceed c).state = e.moveTo c.state t) ∨
      (e.proceed c).state = c.state := by
    unfold proceed
    cases hr : e.isReady c.state with
    | true => exact .inl ⟨rfl, rfl⟩
    | false =>
      cases ht : e.nextTime? c with
      | some t => exact .inr (.inl ⟨rfl, t, rfl, rfl⟩)
      | none => exact .inr (.inr rfl)
  unfold step
  split
  · split
    · exact .inl ⟨_, rfl⟩
    · exact .inr hproceed
  · exact .inr hproceed

end Engine

namespace Ideal

theorem act_now (w : Surroundings) (i : Ideal) : (i.act w).now = i.now := by
  unfold act
  dsimp only
  split
  · split <;> rfl
  · split <;> rfl
  · rfl
  · rfl
  · rfl

theorem act_calls (w : Surroundings) (i : Ideal) :
    (i.act w).calls = i.calls ∨
      ∃ t, i.stage = .testing t ∧ (i.act w).calls = ⟨t.path, i.now, t.attempt⟩ :: i.calls := by
  unfold act
  dsimp only
  split
  · split <;> exact .inl rfl
  · rename_i t hs
    split
    · exact .inr ⟨t, hs, rfl⟩
    · exact .inl rfl
  · exact .inl rfl
  · exact .inl rfl
  · exact .inl rfl

end Ideal

namespace Clockwork

variable {w : Surroundings} {c : Clockwork} {k : Course Clockwork}

theorem Fit.step (h : k.state.Fit) : ((engine w).step k).state.Fit := by
  rcases (engine w).step_cases k with ⟨d, hs⟩ | ⟨hr, hs⟩ | ⟨hr, t, ht, hs⟩ | hs <;> rw [hs]
  · exact (h.suffer d).1
  · exact h.act hr
  · exact h.moveTo t
  · exact h

theorem Fit.view_suffer (h : c.Fit) (d : Disturbance) (rest : List Stimulus) :
    Course.view ⟨(engine w).suffer c d, rest⟩ = ⟨(Ideal.engine w).suffer c.view d, rest⟩ := by
  rw [Course.view, show ((engine w).suffer c d).view = _ from (h.suffer d).2]
  rfl

/-- Where the courier has something to do just when the plain schedule has, both take the same step. -/
theorem Fit.step_together (h : k.state.Fit) (hr : k.state.isReady = k.state.view.isReady) :
    ((engine w).step k).view = (Ideal.engine w).step k.view := by
  have hproceed : ((engine w).proceed k).view = (Ideal.engine w).proceed k.view := by
    unfold Engine.proceed
    have hready : (engine w).isReady k.state = (Ideal.engine w).isReady k.view.state := hr
    rw [← hready]
    cases hc : (engine w).isReady k.state with
    | true =>
      have hv : k.state.view.isReady = true := hr ▸ hc
      simp only [if_true, Course.view]
      rw [show ((engine w).act k.state).view = _ from h.view_act hv]
      rfl
    | false =>
      have halarm : (engine w).nextTime? k = (Ideal.engine w).nextTime? k.view := by
        show Option.merge min k.state.alarm? _ = _
        rw [h.alarm?_eq hc]
        rfl
      simp only [Bool.false_eq_true, if_false]
      rw [← halarm]
      cases (engine w).nextTime? k <;> rfl
  have hfirst (x : Stimulus) :
      (engine w).isFirst k.state x = (Ideal.engine w).isFirst k.view.state x := by
    show (decide (x.time ≤ k.state.service.site.now) && (_ || ! k.state.isReady)) = _
    rw [hr]
    rfl
  unfold Engine.step
  cases hk : k.coming with
  | nil =>
    have hv : k.view.coming = [] := hk
    rw [hv]
    exact hproceed
  | cons x rest =>
    have hv : k.view.coming = x :: rest := hk
    rw [hv]
    simp only [← hfirst]
    split
    · exact h.view_suffer x.what rest
    · exact hproceed

/-- Where it looks once more than needed, it comes to rest and nothing shows. -/
theorem Fit.step_spare (h : k.state.Fit) (hr : k.state.isReady = true)
    (hv : k.state.view.isReady = false) :
    ((engine w).step k).view = (Ideal.engine w).step k.view ∨
      (((engine w).step k).view = k.view ∧ ((engine w).step k).state.isReady = false) := by
  have hf : k.state.service.isFree = true := by
    cases hf : k.state.service.isFree with
    | true => rfl
    | false =>
      have := (h.act_busy (w := w) hf hr).2.1
      simp [hv] at this
  have hproceed : ((engine w).proceed k).view = k.view ∧
      ((engine w).proceed k).state.isReady = false := by
    rcases (h.act_free (w := w) hf).2 with ⟨hyes, -⟩ | ⟨-, hview, hrest⟩
    · simp [hv] at hyes
    · have hready : (engine w).isReady k.state = true := hr
      simp only [Engine.proceed, hready, if_true, Course.view]
      exact ⟨by rw [show ((engine w).act k.state).view = _ from hview], hrest⟩
  unfold Engine.step
  cases hk : k.coming with
  | nil => exact .inr hproceed
  | cons x rest =>
    cases hx : (engine w).isFirst k.state x with
    | false =>
      simp only [hx, Bool.false_eq_true, if_false]
      exact .inr hproceed
    | true =>
      left
      have htime : x.time ≤ k.state.service.site.now :=
        of_decide_eq_true (Bool.and_eq_true_iff.mp hx).1
      have hfirst : (Ideal.engine w).isFirst k.view.state x = true := by
        show (decide (x.time ≤ k.state.service.site.now) && (_ || ! k.state.view.isReady)) = true
        simp [hv, htime]
      have hcoming : k.view.coming = x :: rest := hk
      simp only [hx, hcoming, hfirst, if_true]
      exact h.view_suffer x.what rest

theorem Fit.run (h : k.state.Fit) (n : Nat) : ((engine w).run k n).state.Fit := by
  induction n with
  | zero => exact h
  | succ n ih => exact ih.step

theorem Fit.exists_ideal (h : k.state.Fit) (n : Nat) :
    ∃ m ≤ n, ((engine w).run k n).view = (Ideal.engine w).run k.view m := by
  induction n with
  | zero => exact ⟨0, Nat.le_refl 0, rfl⟩
  | succ n ih =>
    obtain ⟨m, hm, hview⟩ := ih
    have hfit := h.run (w := w) n
    have hnext (hs : ((engine w).run k (n + 1)).view =
        (Ideal.engine w).step ((engine w).run k n).view) :
        ∃ m ≤ n + 1, ((engine w).run k (n + 1)).view = (Ideal.engine w).run k.view m :=
      ⟨m + 1, by omega, by rw [hs, hview]; rfl⟩
    cases hv : ((engine w).run k n).state.view.isReady with
    | true => exact hnext (hfit.step_together (by rw [hv]; exact hfit.isReady_of_view hv))
    | false =>
      cases hr : ((engine w).run k n).state.isReady with
      | false => exact hnext (hfit.step_together (by rw [hv, hr]))
      | true =>
        rcases hfit.step_spare (w := w) hr hv with hs | ⟨hs, -⟩
        · exact hnext hs
        · exact ⟨m, by omega, by rw [← hview]; exact hs⟩

/-- Every state of the plain schedule is one of the courier, which takes twice the steps at most. -/
theorem Fit.exists_courier (h : k.state.Fit) (m : Nat) :
    ∃ n, m ≤ n ∧ n ≤ 2 * m ∧ ((engine w).run k n).view = (Ideal.engine w).run k.view m := by
  induction m with
  | zero => exact ⟨0, Nat.le_refl 0, Nat.le_refl 0, rfl⟩
  | succ m ih =>
    obtain ⟨n, hle, hn, hview⟩ := ih
    have hfit := h.run (w := w) n
    have hnext (hs : ((engine w).run k (n + 1)).view =
        (Ideal.engine w).step ((engine w).run k n).view) :
        ∃ n, m + 1 ≤ n ∧ n ≤ 2 * (m + 1) ∧
          ((engine w).run k n).view = (Ideal.engine w).run k.view (m + 1) :=
      ⟨n + 1, by omega, by omega, by rw [hs, hview]; rfl⟩
    cases hv : ((engine w).run k n).state.view.isReady with
    | true => exact hnext (hfit.step_together (by rw [hv]; exact hfit.isReady_of_view hv))
    | false =>
      cases hr : ((engine w).run k n).state.isReady with
      | false => exact hnext (hfit.step_together (by rw [hv, hr]))
      | true =>
        rcases hfit.step_spare (w := w) hr hv with hs | ⟨hs, hrest⟩
        · exact hnext hs
        · -- at rest now, so that the next step is one of the plain schedule too
          have hs : ((engine w).run k (n + 1)).view = ((engine w).run k n).view := hs
          have hrest : ((engine w).run k (n + 1)).state.isReady = false := hrest
          have hsame : ((engine w).run k (n + 1)).state.view.isReady = false := by
            have : ((engine w).run k (n + 1)).state.view = ((engine w).run k n).state.view :=
              congrArg Course.state hs
            rw [this, hv]
          have htogether : ((engine w).run k (n + 2)).view =
              (Ideal.engine w).step ((engine w).run k (n + 1)).view :=
            (h.run (n + 1)).step_together (hrest.trans hsame.symm)
          refine ⟨n + 2, by omega, by omega, ?_⟩
          rw [htogether, hs, hview]
          rfl

theorem suffer_frame (c : Clockwork) (d : Disturbance) :
    (c.suffer d).service.phase = c.service.phase ∧ (c.suffer d).view.now = c.view.now ∧
      (c.suffer d).calls = c.calls := by
  cases d <;> exact ⟨rfl, rfl, rfl⟩

theorem Fit.act_frame (h : c.Fit) (hr : c.isReady = true) :
    (c.act w).view.now = c.view.now ∧
      ((c.act w).calls = c.calls ∨ ∃ t, c.service.phase = .checking t ∧
        (c.act w).calls = ⟨t.path, c.view.now, t.attempt⟩ :: c.calls) := by
  cases hv : c.view.isReady with
  | false =>
    have hf : c.service.isFree = true := by
      cases hf : c.service.isFree with
      | true => rfl
      | false =>
        have := (h.act_busy (w := w) hf hr).2.1
        simp [hv] at this
    rcases (h.act_free (w := w) hf).2 with ⟨hyes, -⟩ | ⟨-, hview, -⟩
    · simp [hv] at hyes
    · exact ⟨congrArg Ideal.now hview, .inl (congrArg Ideal.calls hview)⟩
  | true =>
    have hview := h.view_act (w := w) hv
    have hcalls : (c.act w).calls = (c.view.act w).calls := congrArg Ideal.calls hview
    rw [hview, hcalls]
    refine ⟨Ideal.act_now w _, ?_⟩
    rcases Ideal.act_calls w c.view with hsame | ⟨t, hstage, hcall⟩
    · exact .inl hsame
    · refine .inr ⟨t, ?_, hcall⟩
      cases hp : c.service.phase <;> simp_all [view, stage]

theorem Fit.date_le_of_step (h : k.state.Fit) (hf : k.state.service.isFree = true)
    (hclock : k.state.view.now < ((engine w).step k).state.view.now) :
    ∀ a ∈ k.state.service.tickets, k.state.view.now < a.task.due ∧
      ((engine w).step k).state.view.now ≤ a.task.due := by
  rcases (engine w).step_cases k with ⟨d, hs⟩ | ⟨hr, hs⟩ | ⟨hr, t, ht, hs⟩ | hs
  · rw [hs, show ((engine w).suffer k.state d).view.now = _ from (suffer_frame k.state d).2.1] at hclock
    omega
  · rw [hs, show ((engine w).act k.state).view.now = _ from (h.act_frame hr).1] at hclock
    omega
  · intro a ha
    have hready : k.state.isReady = false := hr
    have hnow : ((engine w).step k).state.view.now = max k.state.view.now t := by rw [hs]; rfl
    have htime : Option.merge min k.state.alarm? (k.coming.head?.map (·.time)) = some t := ht
    obtain ⟨b, rest, hl⟩ := List.exists_cons_of_ne_nil (List.ne_nil_of_mem ha)
    have hstage : k.state.view.stage = .idle := stage_free hf
    have hagenda : k.state.view.agenda = k.state.service.tickets.map (·.task) := rfl
    rw [h.alarm?_eq hready, Ideal.alarm?, hstage, hagenda, hl] at htime
    have hle : t ≤ b.task.due := by
      cases hc : k.coming.head?.map (·.time) with
      | none =>
        simp [hc] at htime
        omega
      | some u =>
        simp [hc] at htime
        omega
    have hlater : k.state.view.now < b.task.due := by
      by_contra hno
      have := (view_isReady_iff hf).mpr ⟨b, rest, hl, Nat.not_lt.mp hno⟩
      rw [h.isReady_of_view this] at hready
      simp at hready
    have hfirst : b.task.due ≤ a.task.due := by
      have hsorted := k.state.service.site.outbox.schedule.sorted_tickets
      have hl' : k.state.service.site.outbox.schedule.tickets = b :: rest := hl
      rw [hl'] at hsorted
      rw [hl] at ha
      rcases List.mem_cons.mp ha with rfl | ha
      · exact Nat.le_refl _
      · have := Ticket.le_iff.mp ((List.pairwise_cons.mp hsorted).1 a ha)
        omega
    omega
  · rw [hs] at hclock
    omega

theorem Fit.first_of_step (h : k.state.Fit) (hf : k.state.service.isFree = true) {t : Task}
    (hp : ((engine w).step k).state.service.phase = .checking t) :
    ∃ a rest, k.state.service.tickets = a :: rest ∧ a.task = t ∧ t.due ≤ k.state.view.now := by
  have hne : k.state.service.phase ≠ .checking t := by
    intro he
    simp [Service.isFree, he] at hf
  rcases (engine w).step_cases k with ⟨d, hs⟩ | ⟨hr, hs⟩ | ⟨hr, t, ht, hs⟩ | hs
  · rw [hs] at hp
    exact absurd ((suffer_frame k.state d).1 ▸ hp) hne
  · have hstage : k.state.view.stage = .idle := stage_free hf
    have hp : (k.state.act w).service.phase = .checking t := by
      rw [hs] at hp
      exact hp
    have htesting : (k.state.act w).view.stage = .testing t := by simp [view, stage, hp]
    rcases (h.act_free (w := w) hf).2 with ⟨hv, hview⟩ | ⟨-, hview, -⟩
    · obtain ⟨a, rest, hl, hdue⟩ := (view_isReady_iff hf).mp hv
      have hagenda : k.state.view.agenda = a.task :: rest.map (·.task) := by
        show k.state.service.tickets.map (·.task) = _
        rw [hl]
        rfl
      rw [hview, Ideal.act, hstage, hagenda] at htesting
      have he : a.task = t := by simpa using htesting
      exact ⟨a, rest, hl, he, he ▸ hdue⟩
    · rw [hview, hstage] at htesting
      exact absurd htesting (by simp)
  · rw [hs] at hp
    exact absurd hp hne
  · rw [hs] at hp
    exact absurd hp hne

theorem Fit.call_of_step (h : k.state.Fit)
    (hcalls : ((engine w).step k).state.calls ≠ k.state.calls) :
    ∃ t, k.state.service.phase = .checking t ∧ t.due ≤ k.state.view.now ∧
      ((engine w).step k).state.calls = ⟨t.path, k.state.view.now, t.attempt⟩ :: k.state.calls := by
  rcases (engine w).step_cases k with ⟨d, hs⟩ | ⟨hr, hs⟩ | ⟨hr, t, ht, hs⟩ | hs
  · rw [hs] at hcalls
    exact absurd (suffer_frame k.state d).2.2 hcalls
  · rw [hs] at hcalls ⊢
    rcases (h.act_frame (w := w) hr).2 with hsame | ⟨t, hp, hc⟩
    · exact absurd hsame hcalls
    · have hhand := h.hand
      simp only [HandDue, hp] at hhand
      exact ⟨t, hp, hhand, hc⟩
  · rw [hs] at hcalls
    exact absurd rfl hcalls
  · rw [hs] at hcalls
    exact absurd rfl hcalls

theorem fit_fresh (tree : Tree) (now : Nat) (wall : Timestamp) (wakes : Nat → Bool) :
    Fit { service := .fresh tree now wall, wakes } :=
  ⟨Service.sound_fresh tree now wall, rfl, rfl, trivial⟩

theorem view_fresh (tree : Tree) (now : Nat) (wall : Timestamp) (wakes : Nat → Bool) :
    view { service := .fresh tree now wall, wakes } = { tree, now, wall } := by
  have hnone : Outbox.tasks {} = [] := Schedule.toList_empty
  simp [view, stage, Service.fresh, hnone]

/-- Whatever comes when, the courier of a service that is not asked to stop runs through the states of
the plain schedule, its clock, its tasks and its calls, and through all of them. The clock passes no
date while the courier is free, each attempt is for the first task of all, when that is due, and each
call is made at the time of such an attempt. -/
theorem run_eq_ideal (w : Surroundings) (tree : Tree) (now : Nat) (wall : Timestamp)
    (wakes : Nat → Bool) (coming : List Stimulus) :
    let c := (engine w).run ⟨{ service := .fresh tree now wall, wakes }, coming⟩
    let i := (Ideal.engine w).run ⟨{ tree, now, wall }, coming⟩
    (∀ n, ∃ m ≤ n, (c n).view = i m) ∧
    (∀ m, ∃ n, m ≤ n ∧ n ≤ 2 * m ∧ (c n).view = i m) ∧
    (∀ n, (c n).state.service.isFree = true →
      (c n).state.service.site.now < (c (n + 1)).state.service.site.now →
      ∀ k ∈ (c n).state.service.tickets, (c n).state.service.site.now < k.task.due ∧
        (c (n + 1)).state.service.site.now ≤ k.task.due) ∧
    (∀ n t, (c n).state.service.isFree = true → (c (n + 1)).state.service.phase = .checking t →
      ∃ k rest, (c n).state.service.tickets = k :: rest ∧ (∀ a ∈ rest, Ticket.le k a = true) ∧
        k.task = t ∧ t.due ≤ (c n).state.service.site.now) ∧
    (∀ n, (c (n + 1)).state.calls ≠ (c n).state.calls →
      ∃ t, (c n).state.service.phase = .checking t ∧ t.due ≤ (c n).state.service.site.now ∧
        (c (n + 1)).state.calls =
          ⟨t.path, (c n).state.service.site.now, t.attempt⟩ :: (c n).state.calls) := by
  intro c i
  let start : Course Clockwork := ⟨{ service := .fresh tree now wall, wakes }, coming⟩
  have h : start.state.Fit := fit_fresh tree now wall wakes
  have hview : start.view = ⟨{ tree, now, wall }, coming⟩ := by
    rw [Course.view, view_fresh]
  have hfit (n : Nat) : (c n).state.Fit := h.run n
  refine ⟨?_, ?_, ?_, ?_, ?_⟩
  · intro n
    have := h.exists_ideal (w := w) n
    rwa [hview] at this
  · intro m
    have := h.exists_courier (w := w) m
    rwa [hview] at this
  · intro n hfree hclock
    exact (hfit n).date_le_of_step hfree hclock
  · intro n t hfree hp
    obtain ⟨k, rest, hl, hk, hdue⟩ := (hfit n).first_of_step hfree hp
    have hsorted := (c n).state.service.site.outbox.schedule.sorted_tickets
    have hl' : (c n).state.service.site.outbox.schedule.tickets = k :: rest := hl
    rw [hl'] at hsorted
    exact ⟨k, rest, hl, (List.pairwise_cons.mp hsorted).1, hk, hdue⟩
  · intro n hcalls
    exact (hfit n).call_of_step hcalls

end Clockwork
end RecordingDelivery
