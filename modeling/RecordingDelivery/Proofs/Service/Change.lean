import RecordingDelivery.Proofs.Service.Lifecycle

/-!
What an event comes to for the task in hand and the log: each note is written in one state of the
service, by one event.
-/
namespace RecordingDelivery

/-- The job for which a call has ended. -/
def Note.answered? : Note → Option Nat
  | .ended job _ | .outdone job _ => some job
  | .begun _ | .missing _ | .finalized _ _ _ => none

namespace Ledger

variable {l : Ledger} {n : Nat → Note}

@[simp] theorem note_hand (l : Ledger) (n : Nat → Note) : (l.note n).hand = l.hand := by
  unfold note
  split <;> rfl

end Ledger

namespace Observed

variable {o : Observed} {t : Task} {job : Nat}

def Works (o : Observed) (t : Task) (job : Nat) : Prop :=
  o.service.phase.task? = some t ∧ o.ledger.hand = some job

theorem attempted_of_free (h : o.service.phase.task? = none) (job : Nat) :
    o.count job .attempted = 0 := by
  cases hp : o.service.phase <;> simp [count, attempted?, hp, Phase.task?] at h ⊢

/-- A later job of the path of a task in hand is pending. -/
def IsOvertaken (o : Observed) (t : Task) (job : Nat) : Prop :=
  ∃ rival ∈ o.ledger.jobs, o.Stands rival.number .pending ∧ job < rival.number ∧
    rival.task.path.same t.path = true

/-- What an event comes to for the task in hand and the log. -/
inductive Change (o : Observed) (e : Event) (o' : Observed) : Prop
  | rests (phase : o'.service.phase = o.service.phase) (hand : o'.ledger.hand = o.ledger.hand)
      (log : o'.ledger.log = o.ledger.log)
  | idles (free : o'.service.phase.task? = none) (log : o'.ledger.log = o.ledger.log)
  | takes {k : Ticket} (free : o.service.phase.task? = none) (waits : k ∈ o.tickets)
      (phase : o'.service.phase = .checking k.task) (hand : o'.ledger.hand = some (o.jobOf k))
      (log : o'.ledger.log = o.ledger.log)
  | calls {t : Task} {job : Nat} (works : o.Works t job) (phase : o'.service.phase = .calling t)
      (hand : o'.ledger.hand = some job) (log : o'.ledger.log = .begun job :: o.ledger.log)
  | misses {t : Task} {job : Nat} (phase : o.service.phase = .checking t)
      (hand : o.ledger.hand = some job) (absent : o.service.site.tree.isPresent t.path = false)
      (free : o'.service.phase.task? = none) (log : o'.ledger.log = .missing job :: o.ledger.log)
      (event : ∃ atDate, e = .turn atDate)
  | succeeds {t : Task} {job : Nat} (phase : o.service.phase = .calling t)
      (hand : o.ledger.hand = some job) (phase' : o'.service.phase = .finalizing t)
      (hand' : o'.ledger.hand = some job)
      (log : o'.ledger.log = .ended job (.ok ()) :: o.ledger.log) (event : e = .answer (.ok ()))
  | fails {t : Task} {job : Nat} {failure : Failure} (notes : List Note)
      (phase : o.service.phase = .calling t) (hand : o.ledger.hand = some job)
      (free : o'.service.phase.task? = none) (log : o'.ledger.log = notes ++ o.ledger.log)
      (own : ∀ n ∈ notes, n.answered? = some job)
      (overtaken : ∀ j ks, Note.outdone j ks ∈ notes → o.IsOvertaken t job)
      (failed : ∀ j, Note.ended j (.ok ()) ∉ notes)
      (event : e = .answer (.error failure))
  | finalizes {t : Task} {job : Nat} {result : Except FinalizeError Finalized}
      (phase : o.service.phase = .finalizing t) (free : o'.service.phase.task? = none)
      (log : o'.ledger.log = .finalized job t result :: o.ledger.log)

theorem change_turn (h : o.Balanced) (atDate atDate' : Bool) :
    o.Change (.turn atDate') (o.turn atDate) := by
  cases hp : o.service.phase with
  | looking | waiting =>
    have hfree : o.service.isFree = true := by simp [Service.isFree, hp]
    have hnone : o.service.phase.task? = none := by rw [hp]; rfl
    obtain ⟨b, phase, hs, pick⟩ := Service.turn_pick h.sound hfree atDate
    cases pick with
    | @taken k rest _ going first due sound left number =>
      have first : o.tickets = k :: rest := first
      simp only [Observed.turn, hp, hs, first, List.head?_cons, Option.map_some]
      exact .takes hnone (by simp [first]) rfl rfl rfl
    | nothingDue going same later =>
      simp only [Observed.turn, hp, hs]
      exact .idles rfl rfl
    | stopped stopping same =>
      simp only [Observed.turn, hp, hs]
      exact .idles rfl rfl
  | checking t =>
    obtain ⟨job, -, hjob, -⟩ := h.holds (congrArg Phase.task? hp)
    cases hpresent : o.service.site.tree.isPresent t.path with
    | true =>
      simp only [Observed.turn, Service.turn, Service.check, hp, hpresent, if_true, Ledger.note, hjob]
      exact .calls ⟨by rw [hp]; rfl, hjob⟩ rfl rfl rfl
    | false =>
      simp only [Observed.turn, Service.turn, Service.check, hp, hpresent, Bool.false_eq_true,
        if_false, Ledger.note, Ledger.letGo, hjob]
      exact .misses hp hjob hpresent rfl rfl ⟨_, rfl⟩
  | finalizing t =>
    obtain ⟨job, -, hjob, -⟩ := h.holds (congrArg Phase.task? hp)
    simp only [Observed.turn, Service.turn, Service.finalize, hp, Ledger.note, Ledger.letGo, hjob]
    exact .finalizes hp rfl rfl
  | calling t | stopped =>
    simp only [Observed.turn, Service.turn, hp]
    exact .rests rfl rfl rfl

theorem change_diskFault (h : o.Balanced) : o.Change .diskFault o.diskFault := by
  cases hp : o.service.phase with
  | checking t =>
    obtain ⟨job, -, hjob, -⟩ := h.holds (congrArg Phase.task? hp)
    simp only [Observed.diskFault, Service.diskFault, hp, Ledger.note, hjob]
    exact .calls ⟨by rw [hp]; rfl, hjob⟩ rfl rfl rfl
  | finalizing t =>
    simp only [Observed.diskFault, Service.diskFault, hp]
    exact .idles rfl rfl
  | looking | waiting | calling t | stopped =>
    simp only [Observed.diskFault, Service.diskFault, hp]
    exact .rests rfl rfl rfl

theorem change_answer (h : o.Balanced) (result : CallResult) :
    o.Change (.answer result) (o.answer result) := by
  cases hp : o.service.phase with
  | calling t =>
    obtain ⟨job, -, hjob, -, hlater⟩ := h.holds (congrArg Phase.task? hp)
    cases result with
    | ok u =>
      simp only [Observed.answer, Service.answer, hp, Site.settle, Ledger.note, hjob]
      exact .succeeds hp hjob rfl rfl rfl rfl
    | error failure =>
      rcases Site.settle_error_cases h.sound t failure with ⟨k, hk, hsame, hs⟩ | ⟨b, hs, -⟩
      · simp only [Observed.answer, Service.answer, hp, hs, Ledger.note, Ledger.letGo, hjob]
        refine .fails [.outdone job.number _, .ended job.number _] hp hjob rfl rfl
          (by simp [Note.answered?]) (fun _ _ _ => ?_) (by simp) rfl
        obtain ⟨rival, hr, hn, hc⟩ := h.belongs k hk
        have hpending : 0 < o.count rival.number .pending :=
          List.countP_pos_iff.mpr ⟨k, hk, by simp [hn]⟩
        refine ⟨rival, hr, h.stands hpending, ?_, ?_⟩
        · rw [hn]
          exact hlater k hk hsame
        · rw [hc.1]
          exact hsame
      · simp only [Observed.answer, Service.answer, hp, hs, Ledger.note, Ledger.assign, Ledger.letGo,
          hjob]
        exact .fails [.ended job.number _] hp hjob rfl rfl (by simp [Note.answered?]) (by simp)
          (by simp) rfl
  | looking | waiting | checking t | finalizing t | stopped =>
    simp only [Observed.answer, Service.answer, hp]
    exact .rests rfl rfl rfl

theorem enqueue_frame (o : Observed) (p : Path) (d : Destination) :
    (o.enqueue p d).service.phase = o.service.phase ∧
      (o.enqueue p d).ledger.hand = o.ledger.hand := by
  rw [service_enqueue]
  refine ⟨rfl, ?_⟩
  unfold enqueue
  split <;> rfl

theorem scan_frame (o : Observed) (d : Destination) (dir : Path) :
    (o.scan d dir).service.phase = o.service.phase ∧
      (o.scan d dir).ledger.hand = o.ledger.hand := by
  unfold scan
  induction o.service.site.tree.recordings d dir generalizing o with
  | nil => exact ⟨rfl, rfl⟩
  | cons p rest ih =>
    rw [List.foldl_cons]
    exact ⟨(ih _).1.trans (enqueue_frame o p d).1, (ih _).2.trans (enqueue_frame o p d).2⟩

theorem change_happen (h : o.Balanced) (e : Event) : o.Change e (o.happen e) := by
  cases e with
  | turn atDate =>
    simp only [happen]
    split
    · exact change_turn h _ _
    · exact .rests rfl rfl rfl
  | diskFault => exact change_diskFault h
  | answer result => exact change_answer h result
  | enqueue p d =>
    exact .rests (enqueue_frame o p d).1 (enqueue_frame o p d).2 (enqueue_log o p d)
  | scan d dir => exact .rests (scan_frame o d dir).1 (scan_frame o d dir).2 (scan_log o d dir)
  | files tree | advance now | setWall wall | requestStop => exact .rests rfl rfl rfl

/-- What the courier works on it worked on before, or it was free and took a ticket. -/
theorem works_happen (h : o.Balanced) (e : Event) (hw : (o.happen e).Works t job) :
    o.Works t job ∨
      (o.service.phase.task? = none ∧ ∃ k ∈ o.tickets, k.task = t ∧ o.jobOf k = job) := by
  obtain ⟨ht, hj⟩ := hw
  cases change_happen h e with
  | rests phase hand log => exact .inl ⟨phase ▸ ht, hand ▸ hj⟩
  | idles free | misses _ _ _ free | fails _ _ _ free | finalizes _ free =>
    rw [free] at ht
    simp at ht
  | @takes k free waits phase hand =>
    rw [phase] at ht
    rw [hand] at hj
    exact .inr ⟨free, k, waits, Option.some.inj ht, Option.some.inj hj⟩
  | calls works phase hand =>
    rw [phase] at ht
    rw [hand] at hj
    obtain rfl := Option.some.inj ht
    obtain rfl := Option.some.inj hj
    exact .inl works
  | succeeds phase hand phase' hand' =>
    rw [phase'] at ht
    rw [hand'] at hj
    obtain rfl := Option.some.inj ht
    exact .inl ⟨by rw [phase]; rfl, hand.trans hj⟩

theorem missing_happen (h : o.Balanced) (e : Event)
    (hm : Note.missing job ∈ (o.happen e).ledger.log) :
    Note.missing job ∈ o.ledger.log ∨ ∃ t, o.service.phase = .checking t ∧
      o.ledger.hand = some job ∧ o.service.site.tree.isPresent t.path = false ∧
      ∃ atDate, e = .turn atDate := by
  cases change_happen h e with
  | rests _ _ log | idles _ log | takes _ _ _ _ log => exact .inl (log ▸ hm)
  | calls _ _ _ log | succeeds _ _ _ _ log | finalizes _ _ log =>
    rw [log] at hm
    exact .inl (by simpa using hm)
  | @misses t job' phase hand absent _ log event =>
    rw [log] at hm
    rcases List.mem_cons.mp hm with he | hm
    · obtain rfl := Note.missing.inj he
      exact .inr ⟨t, phase, hand, absent, event⟩
    · exact .inl hm
  | fails notes _ _ _ log own =>
    rw [log] at hm
    rcases List.mem_append.mp hm with hm | hm
    · have := own _ hm
      simp [Note.answered?] at this
    · exact .inl hm

/-- What the end of a call leads to: success is noted as such, and that a job is outdone only where
the call fails and a later job is pending. -/
def Answers (o : Observed) (t : Task) (job : Nat) (e : Event) : Note → Prop
  | .ended _ (.ok ()) => e = .answer (.ok ())
  | .outdone _ _ => (∃ failure, e = .answer (.error failure)) ∧ o.IsOvertaken t job
  | .ended _ (.error _) | .begun _ | .missing _ | .finalized _ _ _ => True

theorem answered_happen (h : o.Balanced) (e : Event) {n : Note} (hn : n ∈ (o.happen e).ledger.log)
    (hanswered : n.answered? = some job) :
    n ∈ o.ledger.log ∨ ∃ t, o.service.phase = .calling t ∧ o.ledger.hand = some job ∧
      o.Answers t job e n := by
  cases change_happen h e with
  | rests _ _ log | idles _ log | takes _ _ _ _ log => exact .inl (log ▸ hn)
  | calls _ _ _ log | misses _ _ _ _ log | finalizes _ _ log =>
    rw [log] at hn
    rcases List.mem_cons.mp hn with rfl | hn
    · simp [Note.answered?] at hanswered
    · exact .inl hn
  | @succeeds t job' phase hand _ _ log event =>
    rw [log] at hn
    rcases List.mem_cons.mp hn with rfl | hn
    · obtain rfl := Option.some.inj hanswered
      exact .inr ⟨t, phase, hand, event⟩
    · exact .inl hn
  | @fails t job' failure notes phase hand _ log own overtaken failed event =>
    rw [log] at hn
    rcases List.mem_append.mp hn with hn | hn
    · obtain rfl := Option.some.inj ((own n hn).symm.trans hanswered)
      refine .inr ⟨t, phase, hand, ?_⟩
      cases n with
      | ended j result =>
        cases result with
        | ok u => exact absurd hn (failed j)
        | error failure => trivial
      | outdone j ks => exact ⟨⟨failure, event⟩, overtaken j ks hn⟩
      | begun j | missing j | finalized j t result => trivial
    · exact .inl hn

theorem calling_happen (h : o.Balanced) (e : Event) (hp : (o.happen e).service.phase = .calling t)
    (hj : (o.happen e).ledger.hand = some job) :
    (o.service.phase = .calling t ∧ o.ledger.hand = some job) ∨
      Note.begun job ∈ (o.happen e).ledger.log := by
  cases change_happen h e with
  | rests phase hand => exact .inl ⟨phase ▸ hp, hand ▸ hj⟩
  | idles free | misses _ _ _ free | fails _ _ _ free | finalizes _ free =>
    rw [hp] at free
    simp [Phase.task?] at free
  | takes _ _ phase | succeeds _ _ phase =>
    rw [hp] at phase
    simp at phase
  | calls _ _ hand log =>
    obtain rfl := Option.some.inj (hj.symm.trans hand)
    exact .inr (log ▸ List.mem_cons_self)

end Observed
end RecordingDelivery
