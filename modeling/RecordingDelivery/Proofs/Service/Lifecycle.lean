import RecordingDelivery.Proofs.Service.Jobs

/-!
How the jobs of a service stand. Whatever happens, the five standings share out the jobs: each change
takes a job from one to another. A standing that rests on the log is final, as the log only grows.
-/
namespace RecordingDelivery

inductive Standing
  | pending
  | attempted
  | acknowledged
  | vanished
  | superseded
  deriving DecidableEq, Repr

def Standing.isFinal : Standing → Bool
  | .pending | .attempted => false
  | .acknowledged | .vanished | .superseded => true

def Phase.task? : Phase → Option Task
  | .checking t | .calling t | .finalizing t => some t
  | .looking | .waiting | .stopped => none

namespace Note

def isOutdone (job : Nat) : Note → Bool
  | outdone j _ => j == job
  | begun _ | ended _ _ | missing _ | finalized _ _ _ => false

/-- The job that comes to its end by what is noted. -/
def concludes : Note → Option Nat
  | ended job (.ok ()) | missing job | outdone job _ => some job
  | begun _ | ended _ (.error _) | finalized _ _ _ => none

/-- A job is concluded in one of three ways. -/
theorem countP_concludes (job : Nat) (log : List Note) :
    log.count (ended job (.ok ())) + log.count (missing job) + log.countP (·.isOutdone job) =
      log.countP (·.concludes = some job) := by
  induction log with
  | nil => rfl
  | cons n rest ih =>
    have hn : (if n = ended job (.ok ()) then 1 else 0) + (if n = missing job then 1 else 0) +
        (if n.isOutdone job = true then 1 else 0) = if n.concludes = some job then 1 else 0 := by
      cases n with
      | ended j result => cases result <;> simp [isOutdone, concludes]
      | _ => simp [isOutdone, concludes]
    simp only [List.count_cons, List.countP_cons, beq_iff_eq, decide_eq_true_eq]
    omega

end Note

namespace Observed

/-- The job that is being attempted. While its file is finalized it has been acknowledged. -/
def attempted? (o : Observed) : Option Nat :=
  match o.service.phase with
  | .checking _ | .calling _ => o.ledger.hand
  | .looking | .waiting | .finalizing _ | .stopped => none

/-- How many tickets, hands and notes give a standing to a job. -/
def count (o : Observed) (job : Nat) : Standing → Nat
  | .pending => o.tickets.countP (o.jobOf · = job)
  | .attempted => o.attempted?.toList.count job
  | .acknowledged => o.ledger.log.count (.ended job (.ok ()))
  | .vanished => o.ledger.log.count (.missing job)
  | .superseded => o.ledger.log.countP (·.isOutdone job)

/-- A job stands so, once, and not otherwise. -/
def Stands (o : Observed) (job : Nat) (s : Standing) : Prop :=
  ∀ s', o.count job s' = if s' = s then 1 else 0

def calls (o : Observed) (job : Nat) : Nat := o.ledger.log.count (.begun job)

/-- The job of which a task is the first ticket's or a retry's. -/
def Continues (t : Task) (job : Ticket) : Prop :=
  job.task.path = t.path ∧ job.task.destination = t.destination ∧
    job.task.enqueuedAt = t.enqueuedAt

/-- The courier's hand holds the job of the task that it works on, and any ticket for the same path
belongs to a later job. -/
def Holds (o : Observed) (t : Task) : Prop :=
  ∃ job ∈ o.ledger.jobs, o.ledger.hand = some job.number ∧ Continues t job ∧
    ∀ k ∈ o.tickets, k.task.path.same t.path = true → job.number < o.jobOf k

def HandFits (o : Observed) : Prop :=
  match o.service.phase with
  | .checking t | .calling t | .finalizing t => o.Holds t
  | .looking | .waiting | .stopped => o.ledger.hand = none

/-- The failed attempt of a job met a later job of an equal path, and no other. -/
def IsOutdone (o : Observed) (number : Nat) (rivals : List Nat) : Prop :=
  ∃ job ∈ o.ledger.jobs, ∃ rival ∈ o.ledger.jobs, job.number = number ∧ rivals = [rival.number] ∧
    job.number < rival.number ∧ rival.task.path.same job.task.path = true

/-- The ledger and the service agree. -/
structure Balanced (o : Observed) : Prop where
  sound : o.service.Sound
  below : ∀ job ∈ o.ledger.jobs, job.number < o.service.nextNumber
  distinct : (o.ledger.jobs.map (·.number)).Nodup
  own : ∀ m, o.service.nextNumber ≤ m → o.ledger.owner m = m
  shares : ∀ job, o.count job .pending + o.count job .attempted +
    o.ledger.log.countP (·.concludes = some job) = (o.ledger.jobs.map (·.number)).count job
  belongs : ∀ k ∈ o.tickets, ∃ job ∈ o.ledger.jobs, job.number = o.jobOf k ∧ Continues k.task job
  hand : o.HandFits
  rivals : ∀ job ks, Note.outdone job ks ∈ o.ledger.log → o.IsOutdone job ks

variable {o : Observed}

theorem Balanced.holds (h : o.Balanced) {t : Task} (hp : o.service.phase.task? = some t) :
    o.Holds t := by
  have hhand := h.hand
  unfold HandFits at hhand
  cases hphase : o.service.phase with
  | checking t' | calling t' | finalizing t' =>
    rw [hphase] at hp hhand
    obtain rfl := Option.some.inj hp
    exact hhand
  | looking | waiting | stopped =>
    rw [hphase] at hp
    simp [Phase.task?] at hp

theorem balanced_fresh (tree : Tree) (now : Nat) (wall : Timestamp) :
    (fresh tree now wall).Balanced := by
  have htickets : (fresh tree now wall).tickets = [] := by
    simp [fresh, tickets, Service.fresh, Schedule.tickets, Heap.toList]
  have hpending (job : Nat) : (fresh tree now wall).count job .pending = 0 := by
    rw [count, htickets]
    rfl
  refine ⟨Service.sound_fresh tree now wall, ?_, ?_, ?_, ?_, ?_, rfl, ?_⟩
  · simp [fresh]
  · simp [fresh]
  · simp [fresh]
  · intro job
    rw [hpending]
    rfl
  · simp [htickets]
  · simp [fresh]

theorem count_pending_place {k : Ticket} {l : List Ticket} (f : Ticket → Nat) (job : Nat) :
    (place (·.task.due) k l).countP (f · = job) =
      l.countP (f · = job) + if f k = job then 1 else 0 := by
  rw [(perm_place l).countP_eq, List.countP_cons]
  simp

/-- A ticket comes in, which begins a job or with which the job in hand goes on. -/
theorem Balanced.placed (h : o.Balanced) {s : Service} {l : Ledger} {k : Ticket} {new : List Ticket}
    (hsound : s.Sound) (hk : k.number = o.service.nextNumber)
    (ht : s.tickets = place (·.task.due) k o.tickets)
    (hn : s.nextNumber = o.service.nextNumber + 1) (hnew : new = [] ∨ new = [k])
    (hjobs : l.jobs = new ++ o.ledger.jobs)
    (howner : ∀ m, m ≠ k.number → l.owner m = o.ledger.owner m)
    (hjob : ∃ job ∈ l.jobs, job.number = l.owner k.number ∧ Continues k.task job)
    (hshares : ∀ job, (if l.owner k.number = job then 1 else 0) + count ⟨s, l⟩ job .attempted +
      l.log.countP (·.concludes = some job) = o.count job .attempted +
        o.ledger.log.countP (·.concludes = some job) + (new.map (·.number)).count job)
    (hhand : HandFits ⟨s, l⟩)
    (hrivals : ∀ job ks, Note.outdone job ks ∈ l.log → Note.outdone job ks ∈ o.ledger.log) :
    Balanced ⟨s, l⟩ := by
  have hnumber : ∀ job ∈ new, job.number = k.number := by
    intro job hj
    rcases hnew with rfl | rfl
    · simp at hj
    · rw [List.mem_singleton.mp hj]
  have hkeep {job : Ticket} (hj : job ∈ o.ledger.jobs) : job ∈ l.jobs := by
    rw [hjobs]
    exact List.mem_append_right new hj
  -- the tickets that were there are not numbered as the new one is
  have hold {a : Ticket} (ha : a ∈ o.tickets) : l.owner a.number = o.jobOf a := by
    have hbelow : a.number < o.service.nextNumber := h.sound.below a ha
    exact howner _ (by omega)
  refine ⟨hsound, ?_, ?_, ?_, ?_, ?_, hhand, ?_⟩
  · intro job hj
    rw [hjobs] at hj
    show job.number < s.nextNumber
    rcases List.mem_append.mp hj with hj | hj
    · have := hnumber job hj
      omega
    · have := h.below job hj
      omega
  · rw [hjobs, List.map_append]
    rcases hnew with rfl | rfl
    · exact h.distinct
    · refine List.nodup_cons.mpr ⟨?_, h.distinct⟩
      intro hm
      obtain ⟨job, hj, he⟩ := List.mem_map.mp hm
      have := h.below job hj
      have : job.number = k.number := he
      omega
  · intro m hm
    have hm : s.nextNumber ≤ m := hm
    show l.owner m = m
    rw [howner m (by omega)]
    exact h.own m (by omega)
  · intro job
    have hpending : s.tickets.countP (l.owner ·.number = job) =
        o.count job .pending + if l.owner k.number = job then 1 else 0 := by
      have hsame : o.tickets.countP (l.owner ·.number = job) = o.count job .pending := by
        apply List.countP_congr
        intro a ha
        simp only [decide_eq_true_eq, hold ha]
      rw [ht, count_pending_place (fun a => l.owner a.number), hsame]
    have hold := h.shares job
    have hnow := hshares job
    show s.tickets.countP (l.owner ·.number = job) + count ⟨s, l⟩ job .attempted +
      l.log.countP (·.concludes = some job) = (l.jobs.map (·.number)).count job
    rw [hjobs, List.map_append, List.count_append]
    omega
  · intro a ha
    have ha : a ∈ s.tickets := ha
    rw [ht] at ha
    rcases mem_place.mp ha with rfl | ha
    · exact hjob
    · obtain ⟨job, hj, he, hc⟩ := h.belongs a ha
      exact ⟨job, hkeep hj, he.trans (hold ha).symm, hc⟩
  · intro j ks hm
    obtain ⟨job, hj, rival, hr, hrest⟩ := h.rivals j ks (hrivals j ks hm)
    exact ⟨job, hkeep hj, rival, hkeep hr, hrest⟩

theorem HandFits.enqueued (h : o.Balanced) {b : Outbox} {first : Ticket}
    (hnumber : first.number = o.service.nextNumber)
    (ht : b.tickets = place (·.task.due) first o.tickets) :
    HandFits ⟨o.service.withOutbox b,
      { o.ledger with jobs := first :: o.ledger.jobs }⟩ := by
  have hholds {t : Task} (hold : o.Holds t) : Holds ⟨o.service.withOutbox b,
      { o.ledger with jobs := first :: o.ledger.jobs }⟩ t := by
    obtain ⟨job, hj, hhand, hc, hlater⟩ := hold
    refine ⟨job, by simp [hj], hhand, hc, ?_⟩
    intro k hk hsame
    have hk : k ∈ b.tickets := hk
    rw [ht] at hk
    rcases mem_place.mp hk with rfl | hk
    · have hbelow := h.below job hj
      have howner : o.ledger.owner k.number = k.number := h.own _ (by omega)
      show job.number < o.ledger.owner k.number
      omega
    · exact hlater k hk hsame
  have hhand := h.hand
  cases hp : o.service.phase with
  | checking t | calling t | finalizing t =>
    simp only [HandFits, hp, Service.withOutbox] at hhand ⊢
    exact hholds hhand
  | looking | waiting | stopped =>
    simpa only [HandFits, hp, Service.withOutbox] using hhand

theorem Balanced.enqueue (h : o.Balanced) (p : Path) (d : Destination) :
    (o.enqueue p d).Balanced := by
  rcases Service.enqueue_cases h.sound p d with ⟨-, hs⟩ | ⟨b, hs, hsound, ht, hn⟩
  · have ho : o.enqueue p d = o := by simp [Observed.enqueue, hs]
    rw [ho]
    exact h
  · have hnumber : (o.service.firstTicket p d).number = o.service.nextNumber := rfl
    have ho : o.enqueue p d =
        ⟨o.service.withOutbox b,
          { o.ledger with jobs := o.service.firstTicket p d :: o.ledger.jobs }⟩ := by
      simp [Observed.enqueue, hs]
    generalize o.service.firstTicket p d = first at ho ht hnumber
    have howner : o.ledger.owner first.number = first.number := h.own _ (by omega)
    rw [ho]
    refine h.placed hsound hnumber ht hn (.inr rfl) rfl (fun _ _ => rfl)
      ⟨first, by simp, howner.symm, rfl, rfl, rfl⟩ ?_ (HandFits.enqueued h hnumber ht)
      (fun _ _ hm => hm)
    intro job
    show (if o.ledger.owner first.number = job then 1 else 0) + o.count job .attempted +
      o.ledger.log.countP (·.concludes = some job) = _
    simp only [howner, List.map_cons, List.map_nil, List.count_singleton, beq_iff_eq]
    omega

theorem countP_conclusion {n : Note} {job : Nat} (h : n.concludes = some job) (j : Nat) :
    [n].countP (·.concludes = some j) = [job].count j := by
  rw [List.countP_singleton, List.count_singleton, h]
  simp

/-- What happens to the courier alone: the tickets stay, and a job that the hand no longer attempts is
concluded by what is noted. -/
theorem Balanced.of_notes (h : o.Balanced) {s : Service} {l : Ledger} (new : List Note)
    (hschedule : s.site.outbox.schedule = o.service.site.outbox.schedule)
    (hjobs : l.jobs = o.ledger.jobs) (howner : l.owner = o.ledger.owner)
    (hlog : l.log = new ++ o.ledger.log)
    (hshares : ∀ job, count ⟨s, l⟩ job .attempted + new.countP (·.concludes = some job) =
      o.count job .attempted)
    (hhand : HandFits ⟨s, l⟩)
    (hrivals : ∀ job ks, Note.outdone job ks ∈ new → o.IsOutdone job ks) :
    Balanced ⟨s, l⟩ := by
  have htickets : s.tickets = o.service.tickets := by
    rw [Service.tickets, Outbox.tickets, hschedule]
  have hnumber : s.nextNumber = o.service.nextNumber := by
    rw [Service.nextNumber, Outbox.nextNumber, hschedule]
  refine ⟨?_, ?_, ?_, ?_, ?_, ?_, hhand, ?_⟩
  · rw [Service.Sound, hschedule]
    exact h.sound
  · rw [hjobs, hnumber]
    exact h.below
  · rw [hjobs]
    exact h.distinct
  · rw [howner, hnumber]
    exact h.own
  · intro job
    have hpending : count ⟨s, l⟩ job .pending = o.count job .pending := by
      show s.tickets.countP (l.owner ·.number = job) = _
      rw [htickets, howner]
      rfl
    have hold := h.shares job
    have hnew := hshares job
    rw [hpending, hlog, hjobs, List.countP_append]
    omega
  · intro k hk
    rw [tickets, htickets] at hk
    rw [hjobs, jobOf, howner]
    exact h.belongs k hk
  · intro job ks hm
    rw [hlog] at hm
    rw [IsOutdone, hjobs]
    rcases List.mem_append.mp hm with hm | hm
    · exact hrivals job ks hm
    · exact h.rivals job ks hm

theorem Balanced.take (h : o.Balanced) (hempty : ∀ job, o.count job .attempted = 0) {k : Ticket}
    {rest : List Ticket} {b : Outbox} (hfirst : o.tickets = k :: rest) (hsound : b.schedule.Sound)
    (hleft : b.tickets = rest) (hnumber : b.nextNumber = o.service.nextNumber) :
    Balanced ⟨{ o.service.withOutbox b with phase := .checking k.task },
      { o.ledger with hand := some (o.jobOf k) }⟩ := by
  have hmem {a : Ticket} (ha : a ∈ b.tickets) : a ∈ o.tickets := by
    rw [hleft] at ha
    simp [hfirst, ha]
  refine ⟨hsound, ?_, h.distinct, ?_, ?_, ?_, ?_, h.rivals⟩
  · intro job hj
    show job.number < b.nextNumber
    rw [hnumber]
    exact h.below job hj
  · intro m hm
    exact h.own m (by rw [← hnumber]; exact hm)
  · intro job
    have hpending : o.count job .pending =
        b.tickets.countP (o.ledger.owner ·.number = job) + if o.jobOf k = job then 1 else 0 := by
      show o.tickets.countP (o.ledger.owner ·.number = job) = _
      rw [hfirst, hleft, List.countP_cons]
      exact congrArg (_ + ·) (if_congr decide_eq_true_iff rfl rfl)
    have hattempted := hempty job
    have hshares := h.shares job
    show b.tickets.countP (o.ledger.owner ·.number = job) + [o.jobOf k].count job +
      o.ledger.log.countP (·.concludes = some job) = _
    rw [List.count_singleton]
    simp only [beq_iff_eq]
    omega
  · intro a ha
    exact h.belongs a (hmem ha)
  · obtain ⟨job, hj, hjob, hc⟩ := h.belongs k (by simp [hfirst])
    refine ⟨job, hj, by rw [hjob], hc, ?_⟩
    -- no other ticket has the path of the first
    intro a ha hsame
    have happart := h.sound.apart
    rw [show o.service.site.outbox.schedule.tickets = k :: rest from hfirst, List.map_cons,
      List.nodup_cons] at happart
    have ha : a ∈ rest := hleft ▸ ha
    exact absurd (List.mem_map.mpr ⟨a, ha, Path.same_iff.mp hsame⟩) happart.1

theorem Balanced.turn (h : o.Balanced) (atDate : Bool) : (o.turn atDate).Balanced := by
  have hhand := h.hand
  cases hp : o.service.phase with
  | looking | waiting =>
    have hfree : o.service.isFree = true := by simp [Service.isFree, hp]
    have hempty (job : Nat) : o.count job .attempted = 0 := by simp [count, attempted?, hp]
    simp only [HandFits, hp] at hhand
    obtain ⟨b, phase, hs, pick⟩ := Service.turn_pick h.sound hfree atDate
    cases pick with
    | taken going first due sound left number =>
      have first : o.tickets = _ := first
      simp only [Observed.turn, hp, hs, first, List.head?_cons, Option.map_some]
      exact h.take hempty first sound left number
    | nothingDue going same later =>
      simp only [Observed.turn, hp, hs]
      exact h.of_notes [] same rfl rfl rfl (fun job => (hempty job).symm) hhand (by simp)
    | stopped stopping same =>
      simp only [Observed.turn, hp, hs]
      exact h.of_notes [] same rfl rfl rfl (fun job => (hempty job).symm) hhand (by simp)
  | checking t =>
    simp only [HandFits, hp] at hhand
    obtain ⟨job, hj, hjob, hc⟩ := hhand
    have hattempted (j : Nat) : o.count j .attempted = [job.number].count j := by
      simp [count, attempted?, hp, hjob]
    cases hpresent : o.service.site.tree.isPresent t.path with
    | true =>
      simp only [Observed.turn, Service.turn, Service.check, hp, hpresent, if_true, Ledger.note, hjob]
      refine h.of_notes [.begun job.number] rfl rfl rfl rfl ?_ ⟨job, hj, rfl, hc⟩ (by simp)
      intro j
      rw [hattempted]
      rfl
    | false =>
      simp only [Observed.turn, Service.turn, Service.check, hp, hpresent, Bool.false_eq_true,
        if_false, Ledger.note, Ledger.letGo, hjob]
      refine h.of_notes [.missing job.number] rfl rfl rfl rfl ?_ rfl (by simp)
      intro j
      rw [hattempted, countP_conclusion rfl]
      exact Nat.zero_add _
  | finalizing t =>
    simp only [HandFits, hp] at hhand
    obtain ⟨job, hj, hjob, -⟩ := hhand
    simp only [Observed.turn, Service.turn, Service.finalize, hp, Ledger.note, Ledger.letGo, hjob]
    refine h.of_notes [.finalized job.number t _] rfl rfl rfl rfl ?_ rfl (by simp)
    intro j
    simp [count, attempted?, hp, Note.concludes]
  | calling t | stopped =>
    simp only [Observed.turn, Service.turn, hp]
    exact h

theorem Balanced.diskFault (h : o.Balanced) : o.diskFault.Balanced := by
  have hhand := h.hand
  cases hp : o.service.phase with
  | checking t =>
    simp only [HandFits, hp] at hhand
    obtain ⟨job, hj, hjob, hc⟩ := hhand
    simp only [Observed.diskFault, Service.diskFault, hp, Ledger.note, hjob]
    refine h.of_notes [.begun job.number] rfl rfl rfl rfl ?_ ⟨job, hj, rfl, hc⟩ (by simp)
    intro j
    simp [count, attempted?, hp, hjob, Note.concludes]
  | finalizing t =>
    simp only [Observed.diskFault, Service.diskFault, hp, Ledger.letGo]
    refine h.of_notes [] rfl rfl rfl rfl ?_ rfl (by simp)
    intro j
    simp [count, attempted?, hp]
  | looking | waiting | calling t | stopped =>
    simp only [Observed.diskFault, Service.diskFault, hp]
    exact h

theorem Balanced.reschedule (h : o.Balanced) {t : Task} (hp : o.service.phase = .calling t)
    {job : Ticket} (hj : job ∈ o.ledger.jobs) (hjob : o.ledger.hand = some job.number)
    {s : Service} {k : Ticket} (failure : Failure)
    (hphase : s.phase = .looking) (hsound : s.Sound)
    (hk : k.number = o.service.nextNumber) (hkt : Continues k.task job)
    (ht : s.tickets = place (·.task.due) k o.tickets)
    (hn : s.nextNumber = o.service.nextNumber + 1) :
    Balanced ⟨s, ((o.ledger.note (.ended · (.error failure))).assign k.number).letGo⟩ := by
  let owner := fun m => if m = k.number then job.number else o.ledger.owner m
  let log := .ended job.number (.error failure) :: o.ledger.log
  have hl : ((o.ledger.note (.ended · (.error failure))).assign k.number).letGo =
      { o.ledger with owner, hand := none, log } := by
    simp [Ledger.note, Ledger.assign, Ledger.letGo, hjob, owner, log]
  have howner : owner k.number = job.number := if_pos rfl
  rw [hl]
  refine h.placed hsound hk ht hn (.inl rfl) rfl (fun m hm => if_neg hm)
    ⟨job, hj, howner.symm, hkt⟩ ?_ (by simp [HandFits, hphase]) ?_
  · intro j
    have hattempted : o.count j .attempted = if job.number = j then 1 else 0 := by
      simp [count, attempted?, hp, hjob, List.count_singleton]
    have hempty : count ⟨s, { o.ledger with owner, hand := none, log := log }⟩ j .attempted = 0 := by
      simp [count, attempted?, hphase]
    have hlog : log.countP (·.concludes = some j) =
        o.ledger.log.countP (·.concludes = some j) :=
      List.countP_cons_of_neg (by simp [Note.concludes])
    show (if owner k.number = j then 1 else 0) +
      count ⟨s, { o.ledger with owner, hand := none, log := log }⟩ j .attempted +
      log.countP (·.concludes = some j) = _
    rw [howner, hempty, hlog, hattempted]
    rfl
  · intro j ks hm
    simpa [log] using hm

/-- The only ticket of a path says which job is pending for it. -/
theorem pendingFor_eq (h : o.service.Sound) {k : Ticket} (hk : k ∈ o.tickets) {p : Path}
    (hp : k.task.path.same p = true) : o.pendingFor p = [o.jobOf k] := by
  have hpaths : ∀ a ∈ o.tickets, a.task.path.same p = true → a = k := by
    intro a ha hsame
    apply List.inj_on_of_nodup_map h.apart ha hk
    rw [Path.same_iff.mp hsame, Path.same_iff.mp hp]
  have hnodup : o.tickets.Nodup := h.numbers.of_map
  have hfilter : o.tickets.filter (·.task.path.same p) = o.tickets.filter (· = k) := by
    apply List.filter_congr
    intro a ha
    rw [Bool.eq_iff_iff, decide_eq_true_iff]
    exact ⟨hpaths a ha, fun he => he ▸ hp⟩
  rw [pendingFor, hfilter, List.filter_eq, List.count_eq_one_of_mem hnodup hk]
  rfl

theorem Balanced.answer (h : o.Balanced) (result : CallResult) : (o.answer result).Balanced := by
  have hhand := h.hand
  cases hp : o.service.phase with
  | calling t =>
    simp only [HandFits, hp] at hhand
    obtain ⟨job, hj, hjob, hc, hlater⟩ := hhand
    have hattempted (j : Nat) : o.count j .attempted = [job.number].count j := by
      simp [count, attempted?, hp, hjob]
    cases result with
    | ok u =>
      simp only [Observed.answer, Service.answer, hp, Site.settle, Ledger.note, hjob]
      refine h.of_notes [.ended job.number (.ok ())] rfl rfl rfl rfl ?_ ⟨job, hj, rfl, hc, hlater⟩
        (by simp)
      intro j
      rw [hattempted, countP_conclusion rfl]
      exact Nat.zero_add _
    | error failure =>
      rcases Site.settle_error_cases h.sound t failure with
        ⟨k, hk, hsame, hs⟩ | ⟨b, hs, hsound, ht, hn, -⟩
      · simp only [Observed.answer, Service.answer, hp, hs, pendingFor_eq h.sound hk hsame,
          Ledger.note, Ledger.letGo, hjob]
        refine h.of_notes [.outdone job.number [o.jobOf k], .ended job.number (.error failure)]
          rfl rfl rfl rfl ?_ rfl ?_
        · intro j
          rw [hattempted, ← countP_conclusion (n := .outdone job.number [o.jobOf k]) rfl]
          simp [count, attempted?, Note.concludes, List.countP_cons]
        · intro j ks hm
          obtain ⟨rfl, rfl⟩ : j = job.number ∧ ks = [o.jobOf k] := by simpa using hm
          obtain ⟨rival, hr, hn, hrc⟩ := h.belongs k hk
          refine ⟨job, hj, rival, hr, rfl, by rw [hn], ?_, ?_⟩
          · rw [hn]
            exact hlater k hk hsame
          · rw [hrc.1, hc.1]
            exact hsame
      · simp only [Observed.answer, Service.answer, hp, hs]
        let s : Service := { o.service with
          site := { o.service.site with outbox := b }, phase := .looking }
        exact h.reschedule (s := s) (k := o.service.site.retryTicket t failure) hp hj hjob failure rfl
          hsound rfl hc ht hn
  | looking | waiting | checking t | finalizing t | stopped =>
    simp only [Observed.answer, Service.answer, hp]
    exact h

theorem Balanced.scan (h : o.Balanced) (d : Destination) (dir : Path) : (o.scan d dir).Balanced := by
  unfold Observed.scan
  induction o.service.site.tree.recordings d dir generalizing o with
  | nil => exact h
  | cons p rest ih => exact ih (h.enqueue p d)

theorem Balanced.happen (h : o.Balanced) (e : Event) : (o.happen e).Balanced := by
  cases e with
  | turn atDate =>
    simp only [Observed.happen]
    split
    · exact h.turn _
    · exact h
  | diskFault => exact h.diskFault
  | answer result => exact h.answer result
  | enqueue p d => exact h.enqueue p d
  | scan d dir => exact h.scan d dir
  | files tree | advance now | setWall wall | requestStop =>
    exact ⟨h.sound, h.below, h.distinct, h.own, h.shares, h.belongs, h.hand, h.rivals⟩

theorem Balanced.run (h : o.Balanced) (es : List Event) : (o.run es).Balanced := by
  induction es generalizing o with
  | nil => exact h
  | cons e rest ih => exact ih (h.happen e)

theorem suffix_note (l : Ledger) (n : Nat → Note) : l.log <:+ (l.note n).log := by
  unfold Ledger.note
  split
  · exact List.suffix_cons _ _
  · exact List.suffix_refl _

theorem count_begun_note {l : Ledger} {n : Nat → Note} {job : Nat}
    (h : ∀ j, l.hand = some j → n j ≠ .begun job) :
    (l.note n).log.count (.begun job) = l.log.count (.begun job) := by
  unfold Ledger.note
  split
  · rename_i j hj
    rw [List.count_cons_of_ne (h j hj)]
  · rfl

/-- The log is added to, with calls only for the job that was being attempted. -/
def Extends (o o' : Observed) : Prop :=
  o.ledger.log <:+ o'.ledger.log ∧
    ∀ job, o.count job .attempted = 0 → o'.calls job = o.calls job

theorem Extends.rfl : o.Extends o := ⟨List.suffix_refl _, fun _ _ => Eq.refl _⟩

theorem extends_note {l : Ledger} {n : Nat → Note} {o' : Observed} (h : o.Extends ⟨o.service, l⟩)
    (hlog : o'.ledger.log = (l.note n).log) (hn : ∀ j job, n j ≠ .begun job) : o.Extends o' := by
  refine ⟨h.1.trans (hlog ▸ suffix_note l n), ?_⟩
  intro job hjob
  rw [← h.2 job hjob, calls, hlog]
  exact count_begun_note fun j _ => hn j job

theorem extends_begun {t : Task} (hp : o.service.phase = .checking t) (s : Service) :
    o.Extends ⟨s, o.ledger.note .begun⟩ := by
  refine ⟨suffix_note _ _, ?_⟩
  intro job hjob
  apply count_begun_note
  intro j hj he
  have : j = job := by simpa using he
  subst this
  simp [count, attempted?, hp, hj] at hjob

theorem extends_turn (o : Observed) (atDate : Bool) : o.Extends (o.turn atDate) := by
  unfold Observed.turn
  dsimp only
  split
  · exact Extends.rfl
  · exact Extends.rfl
  · rename_i t t' hp hp'
    exact extends_begun hp _
  · exact extends_note (n := .missing) Extends.rfl rfl (by simp)
  · rename_i t hp
    exact extends_note (n := (.finalized · t _)) Extends.rfl rfl (by simp)
  · exact Extends.rfl

theorem extends_answer (o : Observed) (result : CallResult) : o.Extends (o.answer result) := by
  have hended : o.Extends ⟨o.service, o.ledger.note (.ended · result)⟩ :=
    extends_note Extends.rfl rfl (by simp)
  unfold Observed.answer
  dsimp only
  split
  · split
    · refine extends_note (n := (.ended · result)) Extends.rfl ?_ (by simp)
      unfold Ledger.letGo Ledger.assign
      split <;> rfl
    · exact extends_note (n := (.outdone · _)) hended rfl (by simp)
    · exact hended
    · exact hended
  · exact Extends.rfl

theorem enqueue_log (o : Observed) (p : Path) (d : Destination) :
    (o.enqueue p d).ledger.log = o.ledger.log := by
  unfold Observed.enqueue
  split <;> rfl

theorem scan_log (o : Observed) (d : Destination) (dir : Path) :
    (o.scan d dir).ledger.log = o.ledger.log := by
  unfold Observed.scan
  induction o.service.site.tree.recordings d dir generalizing o with
  | nil => rfl
  | cons p rest ih => rw [List.foldl_cons, ih, enqueue_log]

theorem extends_happen (o : Observed) (e : Event) : o.Extends (o.happen e) := by
  have hsame {o' : Observed} (h : o'.ledger.log = o.ledger.log) : o.Extends o' :=
    ⟨by simp only [h, List.suffix_refl], fun job _ => by rw [calls, calls, h]⟩
  cases e with
  | turn atDate =>
    simp only [Observed.happen]
    split
    · exact extends_turn o _
    · exact Extends.rfl
  | diskFault =>
    simp only [Observed.happen, Observed.diskFault]
    split
    · rename_i t hp
      exact extends_begun hp _
    · exact Extends.rfl
    · exact Extends.rfl
  | answer result => exact extends_answer o result
  | enqueue p d => exact hsame (enqueue_log o p d)
  | scan d dir => exact hsame (scan_log o d dir)
  | files tree | advance now | setWall wall | requestStop => exact Extends.rfl

/-- Each standing of a job is its only one. -/
theorem Balanced.stands (h : o.Balanced) {job : Nat} {s : Standing} (hs : 0 < o.count job s) :
    o.Stands job s := by
  have hshares := h.shares job
  have hone : (o.ledger.jobs.map (·.number)).count job ≤ 1 :=
    List.nodup_iff_count_le_one.mp h.distinct job
  have hfinal : o.count job .acknowledged + o.count job .vanished + o.count job .superseded = _ :=
    Note.countP_concludes job o.ledger.log
  intro s'
  cases s <;> cases s' <;> simp only [reduceCtorEq, if_true, if_false] <;> omega

theorem Balanced.exists_stands (h : o.Balanced) {job : Ticket} (hj : job ∈ o.ledger.jobs) :
    ∃ s, o.Stands job.number s := by
  have hshares := h.shares job.number
  have hone : 0 < (o.ledger.jobs.map (·.number)).count job.number :=
    List.count_pos_iff.mpr (List.mem_map.mpr ⟨job, hj, rfl⟩)
  have hfinal : o.count job.number .acknowledged + o.count job.number .vanished +
      o.count job.number .superseded = _ := Note.countP_concludes job.number o.ledger.log
  by_contra hno
  have hzero (s : Standing) : o.count job.number s = 0 := by
    by_contra hs
    exact hno ⟨s, h.stands (Nat.pos_of_ne_zero hs)⟩
  have h1 := hzero .pending
  have h2 := hzero .attempted
  have h3 := hzero .acknowledged
  have h4 := hzero .vanished
  have h5 := hzero .superseded
  omega

theorem Stands.pos {job : Nat} {s : Standing} (h : o.Stands job s) : 0 < o.count job s := by
  rw [h s, if_pos rfl]
  exact Nat.one_pos

/-- A final standing stays, and the transport is not called again. -/
theorem Balanced.final_happen (h : o.Balanced) {job : Nat} {s : Standing} (hs : o.Stands job s)
    (hfinal : s.isFinal = true) (e : Event) :
    (o.happen e).Stands job s ∧ (o.happen e).calls job = o.calls job := by
  obtain ⟨hsuffix, hcalls⟩ := extends_happen o e
  have hpos := hs.pos
  constructor
  · refine (h.happen e).stands (Nat.lt_of_lt_of_le hpos ?_)
    cases s with
    | pending | attempted => simp [Standing.isFinal] at hfinal
    | acknowledged | vanished => exact hsuffix.sublist.count_le _
    | superseded => exact hsuffix.sublist.countP_le
  · apply hcalls job
    rw [hs .attempted]
    cases s with
    | pending | attempted => simp [Standing.isFinal] at hfinal
    | acknowledged | vanished | superseded => rfl

theorem Balanced.final_run (h : o.Balanced) {job : Nat} {s : Standing} (hs : o.Stands job s)
    (hfinal : s.isFinal = true) (es : List Event) :
    (o.run es).Stands job s ∧ (o.run es).calls job = o.calls job := by
  induction es generalizing o with
  | nil => exact ⟨hs, rfl⟩
  | cons e rest ih =>
    obtain ⟨hs', hc⟩ := h.final_happen hs hfinal e
    obtain ⟨hrun, hcalls⟩ := ih (h.happen e) hs'
    exact ⟨hrun, hcalls.trans hc⟩

theorem Stands.eq {job : Nat} {s s' : Standing} (h : o.Stands job s) (h' : o.Stands job s') :
    s = s' := by
  by_contra hne
  have := h s'
  rw [h' s', if_pos rfl, if_neg (Ne.symm hne)] at this
  omega

theorem Balanced.job_eq (h : o.Balanced) {a b : Ticket} (ha : a ∈ o.ledger.jobs)
    (hb : b ∈ o.ledger.jobs) (hn : a.number = b.number) : a = b :=
  List.inj_on_of_nodup_map h.distinct ha hb hn

theorem Balanced.exists_ticket (h : o.Balanced) {job : Ticket} (hj : job ∈ o.ledger.jobs)
    (hs : o.Stands job.number .pending) :
    ∃ k ∈ o.tickets, o.jobOf k = job.number ∧ Continues k.task job := by
  obtain ⟨k, hk, hn⟩ := List.countP_pos_iff.mp hs.pos
  have hn : o.jobOf k = job.number := by simpa using hn
  obtain ⟨job', hj', hn', hc⟩ := h.belongs k hk
  have : job' = job := h.job_eq hj' hj (hn'.trans hn)
  exact ⟨k, hk, hn, this ▸ hc⟩

theorem Balanced.pending_eq (h : o.Balanced) {a b : Ticket} (ha : a ∈ o.ledger.jobs)
    (hb : b ∈ o.ledger.jobs) (hpa : o.Stands a.number .pending) (hpb : o.Stands b.number .pending)
    (hsame : a.task.path.same b.task.path = true) : a = b := by
  obtain ⟨k, hk, hka, hca⟩ := h.exists_ticket ha hpa
  obtain ⟨l, hl, hlb, hcb⟩ := h.exists_ticket hb hpb
  have hkl : k = l := by
    apply List.inj_on_of_nodup_map h.sound.apart hk hl
    rw [← hca.1, ← hcb.1]
    exact Path.same_iff.mp hsame
  apply h.job_eq ha hb
  rw [← hka, ← hlb, hkl]

theorem Balanced.attempted_eq (h : o.Balanced) {a b : Ticket} (ha : a ∈ o.ledger.jobs)
    (hb : b ∈ o.ledger.jobs) (hpa : o.Stands a.number .attempted)
    (hpb : o.Stands b.number .attempted) : a = b := by
  have hin {c : Ticket} (hc : o.Stands c.number .attempted) : o.attempted? = some c.number := by
    have := List.count_pos_iff.mp hc.pos
    simpa using this
  have := (hin hpa).symm.trans (hin hpb)
  exact h.job_eq ha hb (Option.some.inj this)

theorem Balanced.exists_rival (h : o.Balanced) {job : Ticket} (hj : job ∈ o.ledger.jobs)
    (hs : o.Stands job.number .superseded) :
    ∃ rival ∈ o.ledger.jobs, Note.outdone job.number [rival.number] ∈ o.ledger.log ∧
      job.number < rival.number ∧ rival.task.path.same job.task.path = true := by
  obtain ⟨n, hn, hout⟩ := List.countP_pos_iff.mp hs.pos
  cases n with
  | outdone j ks =>
    have hout : j = job.number := by simpa [Note.isOutdone] using hout
    subst hout
    obtain ⟨job', hj', rival, hr, he, rfl, hlt, hsame⟩ := h.rivals _ ks hn
    have : job' = job := h.job_eq hj' hj he
    subst this
    exact ⟨rival, hr, hn, hlt, hsame⟩
  | begun j | ended j r | missing j | finalized j t r => simp [Note.isOutdone] at hout

end Observed
end RecordingDelivery
