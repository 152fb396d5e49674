import RecordingDelivery.Proofs.Service.Change
import RecordingDelivery.Proofs.Service.Outcome

/-!
Where each job of a run comes from and where it goes. The jobs are the files that were accepted, and a
job that has come to its end did so at a moment of the run: the transport took its file, the file was
not there, or a call failed while a later job of its path was pending.
-/
namespace RecordingDelivery

namespace Service

/-- The first tickets of the files that are accepted when some are enqueued one after the other. -/
def accepted (s : Service) (d : Destination) : List Path → List Ticket
  | [] => []
  | p :: rest =>
    (if (s.enqueue p d).1 then [s.firstTicket p d] else []) ++ (s.enqueue p d).2.accepted d rest

def acceptedBy (s : Service) : Event → List Ticket
  | .enqueue p d => s.accepted d [p]
  | .scan d dir => s.accepted d (s.site.tree.recordings d dir)
  | .turn _ | .diskFault | .answer _ | .files _ | .advance _ | .setWall _ | .requestStop => []

def acceptedOver (s : Service) : List Event → List Ticket
  | [] => []
  | e :: es => s.acceptedBy e ++ (s.happen e).acceptedOver es

end Service

namespace Observed

variable {o : Observed} {t : Task}

theorem jobs_enqueueAll (o : Observed) (d : Destination) (ps : List Path) :
    (ps.foldl (fun o p => o.enqueue p d) o).ledger.jobs =
      (o.service.accepted d ps).reverse ++ o.ledger.jobs := by
  induction ps generalizing o with
  | nil => rfl
  | cons p rest ih =>
    have hfirst : (o.enqueue p d).ledger.jobs =
        (if (o.service.enqueue p d).1 then [o.service.firstTicket p d] else []) ++ o.ledger.jobs := by
      unfold enqueue
      split <;> rename_i h <;> simp [h]
    rw [List.foldl_cons, ih, service_enqueue, hfirst, Service.accepted]
    split <;> simp

theorem jobs_turn (o : Observed) (atDate : Bool) : (o.turn atDate).ledger.jobs = o.ledger.jobs := by
  unfold turn
  dsimp only
  split <;> simp [Ledger.letGo]

theorem jobs_diskFault (o : Observed) : o.diskFault.ledger.jobs = o.ledger.jobs := by
  unfold diskFault
  split <;> simp [Ledger.letGo]

theorem jobs_answer (o : Observed) (result : CallResult) :
    (o.answer result).ledger.jobs = o.ledger.jobs := by
  unfold answer
  dsimp only
  split
  · split <;> simp [Ledger.letGo]
  · rfl

theorem jobs_happen (o : Observed) (e : Event) :
    (o.happen e).ledger.jobs = (o.service.acceptedBy e).reverse ++ o.ledger.jobs := by
  cases e with
  | turn atDate =>
    simp only [happen]
    split
    · exact jobs_turn o _
    · rfl
  | diskFault => exact jobs_diskFault o
  | answer result => exact jobs_answer o result
  | enqueue p d => exact jobs_enqueueAll o d [p]
  | scan d dir => exact jobs_enqueueAll o d _
  | files tree | advance now | setWall wall | requestStop => rfl

theorem jobs_run (o : Observed) (es : List Event) :
    (o.run es).ledger.jobs = (o.service.acceptedOver es).reverse ++ o.ledger.jobs := by
  induction es generalizing o with
  | nil => rfl
  | cons e rest ih =>
    have hrest := ih (o.happen e)
    rw [service_happen, jobs_happen] at hrest
    rw [Service.acceptedOver, List.reverse_append, List.append_assoc]
    exact hrest

theorem jobs_subset_happen (o : Observed) (e : Event) : o.ledger.jobs ⊆ (o.happen e).ledger.jobs := by
  rw [jobs_happen]
  exact List.subset_append_right _ _

theorem jobs_subset_run (o : Observed) (es : List Event) : o.ledger.jobs ⊆ (o.run es).ledger.jobs := by
  rw [jobs_run]
  exact List.subset_append_right _ _

theorem jobs_of_taken {q : Path} {d : Destination} (htaken : (o.service.enqueue q d).1 = true) :
    (o.happen (.enqueue q d)).ledger.jobs = o.service.firstTicket q d :: o.ledger.jobs := by
  rw [jobs_happen]
  simp [Service.acceptedBy, Service.accepted, htaken]

/-- What a run has noted it has noted at a moment of it. -/
theorem exists_noted {n : Note} {es : List Event} (h : n ∉ o.ledger.log)
    (hrun : n ∈ (o.run es).ledger.log) :
    ∃ before e, before ++ [e] <+: es ∧ n ∉ (o.run before).ledger.log ∧
      n ∈ ((o.run before).happen e).ledger.log := by
  induction es generalizing o with
  | nil => exact absurd hrun h
  | cons e rest ih =>
    by_cases hfirst : n ∈ (o.happen e).ledger.log
    · exact ⟨[], e, by simp, h, hfirst⟩
    · obtain ⟨before, e', hbegins, hno, hyes⟩ := ih hfirst hrun
      exact ⟨e :: before, e', by simpa using hbegins, hno, hyes⟩

/-- The courier is in a phase of the attempt for a task of a job. -/
def Attempts (o : Observed) (phase : Task → Phase) (t : Task) (job : Ticket) : Prop :=
  o.service.phase = phase t ∧ o.ledger.hand = some job.number ∧ Continues t job

/-- How the jobs stand, and which tickets and which task in hand are theirs. -/
structure Arranged (o : Observed) : Prop where
  distinct : (o.ledger.jobs.map (·.number)).Nodup
  one : ∀ job ∈ o.ledger.jobs, ∃! s, o.Stands job.number s
  belongs : ∀ k ∈ o.tickets, ∃ job ∈ o.ledger.jobs,
    job.number = o.jobOf k ∧ Continues k.task job ∧ o.Stands job.number .pending
  pending : ∀ job ∈ o.ledger.jobs,
    o.Stands job.number .pending ↔ ∃! k, k ∈ o.tickets ∧ o.jobOf k = job.number
  apart : ∀ a ∈ o.ledger.jobs, ∀ b ∈ o.ledger.jobs, o.Stands a.number .pending →
    o.Stands b.number .pending → a.task.path.same b.task.path = true → a = b
  works : ∀ t, o.service.phase.task? = some t →
    ∃ job ∈ o.ledger.jobs, o.ledger.hand = some job.number ∧ Continues t job
  attempted : ∀ job ∈ o.ledger.jobs, o.Stands job.number .attempted ↔
    ∃ t, o.Attempts .checking t job ∨ o.Attempts .calling t job
  single : ∀ a ∈ o.ledger.jobs, ∀ b ∈ o.ledger.jobs, o.Stands a.number .attempted →
    o.Stands b.number .attempted → a = b
  /-- What is at its end stays there, and no call is made for it. -/
  final : ∀ job ∈ o.ledger.jobs, ∀ s, o.Stands job.number s → s.isFinal = true → ∀ es,
    (o.run es).Stands job.number s ∧ (o.run es).calls job.number = o.calls job.number ∧
      ∀ t, ¬ (o.run es).Attempts .calling t job

/-- The task in hand goes on with the job whose number the hand holds, now or later. -/
theorem Balanced.continues_of_hand (h : o.Balanced) {job : Ticket} (es : List Event)
    (hj : job ∈ (o.run es).ledger.jobs) (hp : o.service.phase.task? = some t)
    (hhand : o.ledger.hand = some job.number) : Continues t job := by
  obtain ⟨job', hj', hjob', hc, -⟩ := h.holds hp
  have hsame : job' = job :=
    (h.run es).job_eq (jobs_subset_run o es hj') hj (Option.some.inj (hjob'.symm.trans hhand))
  exact hsame ▸ hc

theorem Balanced.pending_iff (h : o.Balanced) {job : Ticket} (hj : job ∈ o.ledger.jobs) :
    o.Stands job.number .pending ↔ ∃! k, k ∈ o.tickets ∧ o.jobOf k = job.number := by
  constructor
  · intro hs
    obtain ⟨k, hk, hn, hc⟩ := h.exists_ticket hj hs
    refine ⟨k, ⟨hk, hn⟩, ?_⟩
    -- another ticket of the job has its path as well
    rintro l ⟨hl, hln⟩
    obtain ⟨job', hj', hn', hc'⟩ := h.belongs l hl
    have hsame : job' = job := h.job_eq hj' hj (hn'.trans hln)
    subst hsame
    apply List.inj_on_of_nodup_map h.sound.apart hl hk
    rw [← hc.1, ← hc'.1]
  · rintro ⟨k, ⟨hk, hn⟩, -⟩
    exact h.stands (List.countP_pos_iff.mpr ⟨k, hk, by simpa using hn⟩)

theorem Attempts.attempted (h : o.Balanced) {job : Ticket}
    (ha : o.Attempts .checking t job ∨ o.Attempts .calling t job) :
    o.Stands job.number .attempted := by
  rcases ha with ⟨hp, hhand, -⟩ | ⟨hp, hhand, -⟩
  · exact h.stands (by simp [count, attempted?, hp, hhand])
  · exact h.stands (by simp [count, attempted?, hp, hhand])

theorem Balanced.attempted_iff (h : o.Balanced) {job : Ticket} (hj : job ∈ o.ledger.jobs) :
    o.Stands job.number .attempted ↔
      ∃ t, o.Attempts .checking t job ∨ o.Attempts .calling t job := by
  refine ⟨fun hs => ?_, fun ⟨t, ha⟩ => Attempts.attempted h ha⟩
  have hin : o.attempted? = some job.number := by simpa using List.count_pos_iff.mp hs.pos
  cases hp : o.service.phase with
  | checking t =>
    have hhand : o.ledger.hand = some job.number := by simpa [attempted?, hp] using hin
    exact ⟨t, .inl ⟨hp, hhand, h.continues_of_hand [] hj (by rw [hp]; rfl) hhand⟩⟩
  | calling t =>
    have hhand : o.ledger.hand = some job.number := by simpa [attempted?, hp] using hin
    exact ⟨t, .inr ⟨hp, hhand, h.continues_of_hand [] hj (by rw [hp]; rfl) hhand⟩⟩
  | looking | waiting | finalizing t | stopped => simp [attempted?, hp] at hin

theorem Balanced.arranged (h : o.Balanced) : o.Arranged := by
  refine
    { distinct := h.distinct
      one := fun job hj => ?one
      belongs := fun k hk => ?belongs
      pending := fun job hj => h.pending_iff hj
      apart := fun a ha b hb => h.pending_eq ha hb
      works := fun t hp => ?works
      attempted := fun job hj => h.attempted_iff hj
      single := fun a ha b hb => h.attempted_eq ha hb
      final := fun job hj s hs hfinal es => ?final }
  case one =>
    obtain ⟨s, hs⟩ := h.exists_stands hj
    exact ⟨s, hs, fun s' hs' => hs'.eq hs⟩
  case belongs =>
    obtain ⟨job, hj, hn, hc⟩ := h.belongs k hk
    exact ⟨job, hj, hn, hc, h.stands (List.countP_pos_iff.mpr ⟨k, hk, by simp [hn]⟩)⟩
  case works =>
    obtain ⟨job, hj, hhand, hc, -⟩ := h.holds hp
    exact ⟨job, hj, hhand, hc⟩
  case final =>
    obtain ⟨hstays, hcalls⟩ := h.final_run hs hfinal es
    refine ⟨hstays, hcalls, ?_⟩
    intro t ha
    have := hstays.eq (Attempts.attempted (h.run es) (.inr ha))
    rw [this] at hfinal
    simp [Standing.isFinal] at hfinal

/-- What can be said of the jobs of a run: whose they are, how they stand after it, and at what moments
of it they came to their ends. -/
structure Accounted (start : Observed) (es : List Event) : Prop where
  service : (start.run es).service = start.service.run es
  jobs : (start.run es).ledger.jobs = (start.service.acceptedOver es).reverse
  arranged : (start.run es).Arranged
  /-- One call for the job has succeeded, and no other has. -/
  acknowledged : ∀ job ∈ (start.run es).ledger.jobs,
    (start.run es).Stands job.number .acknowledged ↔
      ∃! before, before ++ [.answer (.ok ())] <+: es ∧
        ∃ t, (start.run before).Attempts .calling t job
  /-- The courier has picked the task up when its file was not there. -/
  vanished : ∀ job ∈ (start.run es).ledger.jobs, (start.run es).Stands job.number .vanished ↔
    ∃ before atDate t, before ++ [.turn atDate] <+: es ∧
      (start.run before).Attempts .checking t job ∧
      (start.run before).service.site.tree.isPresent t.path = false
  /-- A call for the job has failed while a later job of its path was pending. -/
  superseded : ∀ job ∈ (start.run es).ledger.jobs, (start.run es).Stands job.number .superseded ↔
    ∃ before failure t, before ++ [.answer (.error failure)] <+: es ∧
      (start.run before).Attempts .calling t job ∧ (start.run before).IsOvertaken t job.number

section Moment

variable {job : Ticket} {es before : List Event} {e : Event}

theorem attempts_at_moment (h : o.Balanced) (hbegins : before ++ [e] <+: es)
    (hj : job ∈ (o.run es).ledger.jobs) {phase : Task → Phase}
    (hphase : (phase t).task? = some t) (hp : (o.run before).service.phase = phase t)
    (hhand : (o.run before).ledger.hand = some job.number) :
    (o.run before).Attempts phase t job := by
  obtain ⟨after, rfl⟩ := hbegins
  rw [List.append_assoc, run_append] at hj
  exact ⟨hp, hhand, (h.run before).continues_of_hand _ hj (hp ▸ hphase) hhand⟩

theorem stands_of_moment (h : o.Balanced) {s : Standing} (hbegins : before ++ [e] <+: es)
    (hs : ((o.run before).happen e).Stands job.number s) (hfinal : s.isFinal = true) :
    (o.run es).Stands job.number s := by
  obtain ⟨after, rfl⟩ := hbegins
  rw [run_append, run_concat]
  exact (((h.run before).happen e).final_run hs hfinal after).1

theorem Attempts.acknowledged (h : o.Balanced) (ha : o.Attempts .calling t job) :
    (o.happen (.answer (.ok ()))).Stands job.number .acknowledged := by
  obtain ⟨hp, hhand, -⟩ := ha
  apply (h.happen _).stands
  have hnoted : Note.ended job.number (.ok ()) ∈ (o.happen (.answer (.ok ()))).ledger.log := by
    simp [happen, answer, hp, Site.settle, Ledger.note, hhand]
  exact List.count_pos_iff.mpr hnoted

theorem Attempts.vanished (h : o.Balanced) (ha : o.Attempts .checking t job)
    (habsent : o.service.site.tree.isPresent t.path = false) (atDate : Bool) :
    (o.happen (.turn atDate)).Stands job.number .vanished := by
  obtain ⟨hp, hhand, -⟩ := ha
  apply (h.happen _).stands
  have hnoted : Note.missing job.number ∈ (o.happen (.turn atDate)).ledger.log := by
    simp [happen, turn, Service.isRunnable, Service.turn, Service.check, hp, habsent, Ledger.note,
      Ledger.letGo, hhand]
  exact List.count_pos_iff.mpr hnoted

theorem Attempts.superseded (h : o.Balanced) (ha : o.Attempts .calling t job)
    (hover : o.IsOvertaken t job.number) (failure : Failure) :
    (o.happen (.answer (.error failure))).Stands job.number .superseded := by
  obtain ⟨hp, hhand, -⟩ := ha
  obtain ⟨rival, hr, hpending, -, hsame⟩ := hover
  obtain ⟨k, hk, -, hc⟩ := h.exists_ticket hr hpending
  have hs := Site.settle_superseded h.sound failure (t := t)
    ⟨k.task, List.mem_map_of_mem hk, hc.1 ▸ hsame⟩
  apply (h.happen _).stands
  have hnoted : Note.outdone job.number (o.pendingFor t.path) ∈
      (o.happen (.answer (.error failure))).ledger.log := by
    simp [happen, answer, hp, hs, Ledger.note, Ledger.letGo, hhand]
  exact List.countP_pos_iff.mpr ⟨_, hnoted, by simp [Note.isOutdone]⟩

theorem Balanced.eq_of_acknowledged (h : o.Balanced) {before' : List Event} {t' : Task}
    (ha : (o.run before).Attempts .calling t job) (ha' : (o.run before').Attempts .calling t' job)
    (hle : before.length ≤ before'.length) (hbegins : before ++ [.answer (.ok ())] <+: es)
    (hbegins' : before' <+: es) : before = before' := by
  rcases Nat.lt_or_eq_of_le hle with hlt | heq
  · exfalso
    -- otherwise the job is acknowledged and attempted at once
    have hlonger : before ++ [.answer (.ok ())] <+: before' :=
      List.prefix_of_prefix_length_le hbegins hbegins' (by rw [List.length_append]; exact hlt)
    have hacknowledged := stands_of_moment h hlonger (ha.acknowledged (h.run before)) rfl
    have := hacknowledged.eq (Attempts.attempted (h.run before') (.inr ha'))
    simp at this
  · exact (List.prefix_of_prefix_length_le ((List.prefix_append _ _).trans hbegins) hbegins'
      hle).eq_of_length heq

theorem Balanced.exists_answered (h : o.Balanced) (hlog : o.ledger.log = [])
    (hj : job ∈ (o.run es).ledger.jobs) {n : Note} (hn : n ∈ (o.run es).ledger.log)
    (hanswered : n.answered? = some job.number) :
    ∃ before e t, before ++ [e] <+: es ∧ (o.run before).Attempts .calling t job ∧
      (o.run before).Answers t job.number e n := by
  obtain ⟨before, e, hbegins, hno, hyes⟩ := exists_noted (by simp [hlog]) hn
  rcases answered_happen (h.run before) e hyes hanswered with hn | ⟨t, hp, hhand, hanswers⟩
  · exact absurd hn hno
  · exact ⟨before, e, t, hbegins, attempts_at_moment h hbegins hj rfl hp hhand, hanswers⟩

theorem Balanced.acknowledged_iff (h : o.Balanced) (hlog : o.ledger.log = [])
    (hj : job ∈ (o.run es).ledger.jobs) :
    (o.run es).Stands job.number .acknowledged ↔
      ∃! before, before ++ [.answer (.ok ())] <+: es ∧
        ∃ t, (o.run before).Attempts .calling t job := by
  constructor
  · intro hs
    obtain ⟨before, e, t, hbegins, ha, rfl⟩ :=
      h.exists_answered hlog hj (List.count_pos_iff.mp hs.pos) rfl
    refine ⟨before, ⟨hbegins, t, ha⟩, ?_⟩
    rintro before' ⟨hbegins', t', ha'⟩
    have hshorter := (List.prefix_append before _).trans hbegins
    have hshorter' := (List.prefix_append before' _).trans hbegins'
    rcases Nat.le_total before.length before'.length with hle | hle
    · exact (h.eq_of_acknowledged ha ha' hle hbegins hshorter').symm
    · exact h.eq_of_acknowledged ha' ha hle hbegins' hshorter
  · rintro ⟨before, ⟨hbegins, t, ha⟩, -⟩
    exact stands_of_moment h hbegins (ha.acknowledged (h.run before)) rfl

theorem Balanced.vanished_iff (h : o.Balanced) (hlog : o.ledger.log = [])
    (hj : job ∈ (o.run es).ledger.jobs) :
    (o.run es).Stands job.number .vanished ↔
      ∃ before atDate t, before ++ [.turn atDate] <+: es ∧
        (o.run before).Attempts .checking t job ∧
        (o.run before).service.site.tree.isPresent t.path = false := by
  constructor
  · intro hs
    obtain ⟨before, e, hbegins, hno, hyes⟩ :=
      exists_noted (by simp [hlog]) (List.count_pos_iff.mp hs.pos)
    rcases missing_happen (h.run before) e hyes with hn | ⟨t, hp, hhand, habsent, atDate, rfl⟩
    · exact absurd hn hno
    · exact ⟨before, atDate, t, hbegins, attempts_at_moment h hbegins hj rfl hp hhand, habsent⟩
  · rintro ⟨before, atDate, t, hbegins, ha, habsent⟩
    exact stands_of_moment h hbegins (ha.vanished (h.run before) habsent atDate) rfl

theorem Balanced.superseded_iff (h : o.Balanced) (hlog : o.ledger.log = [])
    (hj : job ∈ (o.run es).ledger.jobs) :
    (o.run es).Stands job.number .superseded ↔
      ∃ before failure t, before ++ [.answer (.error failure)] <+: es ∧
        (o.run before).Attempts .calling t job ∧ (o.run before).IsOvertaken t job.number := by
  constructor
  · intro hs
    obtain ⟨rival, -, hn, -⟩ := (h.run es).exists_rival hj hs
    obtain ⟨before, e, t, hbegins, ha, ⟨failure, rfl⟩, hover⟩ := h.exists_answered hlog hj hn rfl
    exact ⟨before, failure, t, hbegins, ha, hover⟩
  · rintro ⟨before, failure, t, hbegins, ha, hover⟩
    exact stands_of_moment h hbegins (ha.superseded (h.run before) hover failure) rfl

end Moment

/-- Whatever happens in a run, each accepted file's job is accounted for: it stands in exactly one way,
and if it is at its end, then by a call that succeeded, by its file's absence when it was picked up, or by
a call that failed while a later job of its path was pending. No call is made for it any more. -/
theorem run_lifecycle (tree : Tree) (now : Nat) (wall : Timestamp) (es : List Event) :
    Accounted (fresh tree now wall) es := by
  have h : (fresh tree now wall).Balanced := balanced_fresh tree now wall
  exact
    { service := service_run _ es
      jobs := by rw [jobs_run]; simp [fresh]
      arranged := (h.run es).arranged
      acknowledged := fun job hj => h.acknowledged_iff rfl hj
      vanished := fun job hj => h.vanished_iff rfl hj
      superseded := fun job hj => h.superseded_iff rfl hj }

end Observed
end RecordingDelivery
