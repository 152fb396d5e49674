import RecordingDelivery.Proofs.Service.Newcomer

/-!
The calls of the transport for one job. A chronicle beside the service writes down each call, with its
beginning and its end. The calls of a job carry what was enqueued and count those that failed, and
between two of them lies the delay after the first one's failure.
-/
namespace RecordingDelivery

/-- A call of the transport: for which job and task, since when, and when and how it ended. -/
structure Transmission where
  job : Nat
  task : Task
  start : Nat
  ending : Option (Nat × CallResult) := none

namespace Transmission

/-- The call has failed, and the delay after it is over at the date. -/
def Allows (call : Transmission) (date : Nat) : Prop :=
  ∃ stop failure, call.ending = some (stop, .error failure) ∧ call.start ≤ stop ∧
    stop + min (call.task.destination.retryDelay failure) Outbox.horizon ≤ date

theorem Allows.mono {call : Transmission} {a b : Nat} (h : call.Allows a) (hle : a ≤ b) :
    call.Allows b := by
  obtain ⟨stop, failure, hending, hstart, hdelay⟩ := h
  exact ⟨stop, failure, hending, hstart, Nat.le_trans hdelay hle⟩

/-- After calls, the latest first, the task that counts them may be tried again at the date. -/
def Resumes (calls : List Transmission) (t : Task) (date : Nat) : Prop :=
  t.attempt = min calls.length Task.attemptLimit ∧ ∀ last ∈ calls.head?, last.Allows date

theorem Resumes.mono {calls : List Transmission} {t : Task} {a b : Nat} (h : Resumes calls t a)
    (hle : a ≤ b) : Resumes calls t b :=
  ⟨h.1, fun last hlast => (h.2 last hlast).mono hle⟩

/-- Calls of a job, the latest first: each goes on with the job and resumes after those before it. -/
def Chained (job : Ticket) : List Transmission → Prop
  | [] => True
  | call :: earlier =>
    Observed.Continues call.task job ∧ Resumes earlier call.task call.start ∧ Chained job earlier

end Transmission

namespace Observed

def begun (o : Observed) (calls : List Transmission) : List Transmission :=
  match o.service.phase, o.ledger.hand with
  | .calling task, some job => { job, task, start := o.service.site.now } :: calls
  | _, _ => calls

theorem Balanced.jobOf_ne {o : Observed} (h : o.Balanced) {job : Nat}
    (hattempted : o.attempted? = some job) {k : Ticket} (hk : k ∈ o.tickets) : o.jobOf k ≠ job := by
  rintro rfl
  have hone : 0 < o.count (o.jobOf k) .attempted := by simp [count, hattempted]
  have hpending : 0 < o.count (o.jobOf k) .pending :=
    List.countP_pos_iff.mpr ⟨k, hk, by simp⟩
  have := (h.stands hone).eq (h.stands hpending)
  simp at this

end Observed

/-- What is observed, and the calls so far, the latest first. -/
structure Chronicle where
  observed : Observed
  calls : List Transmission := []

namespace Chronicle

open Transmission

abbrev service (c : Chronicle) : Service := c.observed.service

abbrev ledger (c : Chronicle) : Ledger := c.observed.ledger

abbrev now (c : Chronicle) : Nat := c.service.site.now

def ended (c : Chronicle) (result : CallResult) : List Transmission :=
  c.calls.modifyHead fun call => { call with ending := some (c.now, result) }

/-- The courier goes on. If it has checked a file, this may begin a call. -/
def goOn (c : Chronicle) (o : Observed) : Chronicle :=
  { observed := o
    calls := match c.service.phase with
      | .checking _ => o.begun c.calls
      | _ => c.calls }

def answer (c : Chronicle) (result : CallResult) : Chronicle :=
  { observed := c.observed.answer result
    calls := match c.service.phase with
      | .calling _ => c.ended result
      | _ => c.calls }

def happen (c : Chronicle) : Event → Chronicle
  | .turn atDate =>
    if c.service.isRunnable then c.goOn (c.observed.turn (atDate && c.service.isDateReached)) else c
  | .diskFault => c.goOn c.observed.diskFault
  | .answer result => c.answer result
  | .enqueue p d => ⟨c.observed.enqueue p d, c.calls⟩
  | .scan d dir => ⟨c.observed.scan d dir, c.calls⟩
  | .files tree => ⟨c.observed.happen (.files tree), c.calls⟩
  | .advance now => ⟨c.observed.happen (.advance now), c.calls⟩
  | .setWall wall => ⟨c.observed.happen (.setWall wall), c.calls⟩
  | .requestStop => ⟨c.observed.happen .requestStop, c.calls⟩

def run (c : Chronicle) (es : List Event) : Chronicle := es.foldl happen c

def fresh (tree : Tree) (now : Nat) (wall : Timestamp) : Chronicle :=
  { observed := .fresh tree now wall }

def callsOf (c : Chronicle) (job : Nat) : List Transmission := c.calls.filter (·.job = job)

theorem observed_happen (c : Chronicle) (e : Event) :
    (c.happen e).observed = c.observed.happen e := by
  cases e with
  | turn atDate =>
    simp only [happen, Observed.happen]
    split <;> rfl
  | _ => rfl

structure Keeps (c c' : Chronicle) : Prop where
  tickets : c'.observed.tickets = c.observed.tickets
  jobs : c'.ledger.jobs = c.ledger.jobs
  owner : c'.ledger.owner = c.ledger.owner

/-- What an event comes to for the calls and the tickets, if nothing is enqueued. -/
inductive Move (c c' : Chronicle) : Prop
  | rests (keeps : c.Keeps c') (phase : c'.service.phase = c.service.phase)
      (hand : c'.ledger.hand = c.ledger.hand) (now : c.now ≤ c'.now) (calls : c'.calls = c.calls)
      (begun : ∀ job, c'.observed.calls job = c.observed.calls job)
  | idles (keeps : c.Keeps c') (free : c'.observed.attempted? = none) (calls : c'.calls = c.calls)
      (begun : ∀ job, c'.observed.calls job = c.observed.calls job)
  | takes {k : Ticket} {rest : List Ticket} (first : c.observed.tickets = k :: rest)
      (due : k.task.due ≤ c'.now) (left : c'.observed.tickets = rest)
      (jobs : c'.ledger.jobs = c.ledger.jobs) (owner : c'.ledger.owner = c.ledger.owner)
      (phase : c'.service.phase = .checking k.task)
      (hand : c'.ledger.hand = some (c.observed.jobOf k)) (calls : c'.calls = c.calls)
      (begun : ∀ job, c'.observed.calls job = c.observed.calls job)
  | begins {t : Task} {job : Nat} (keeps : c.Keeps c') (phase : c.service.phase = .checking t)
      (hand : c.ledger.hand = some job) (phase' : c'.service.phase = .calling t)
      (hand' : c'.ledger.hand = some job) (now : c'.now = c.now)
      (calls : c'.calls = { job, task := t, start := c.now } :: c.calls)
      (begun : c'.ledger.log = .begun job :: c.ledger.log)
  | ends {t : Task} {job : Nat} {result : CallResult} (keeps : c.Keeps c')
      (phase : c.service.phase = .calling t) (hand : c.ledger.hand = some job)
      (free : c'.observed.attempted? = none) (calls : c'.calls = c.ended result)
      (begun : ∀ job, c'.observed.calls job = c.observed.calls job)
  | returns {t : Task} {job : Nat} {failure : Failure} (phase : c.service.phase = .calling t)
      (hand : c.ledger.hand = some job) (free : c'.observed.attempted? = none)
      (placed : c'.observed.tickets =
        place (·.task.due) (c.service.site.retryTicket t failure) c.observed.tickets)
      (jobs : c'.ledger.jobs = c.ledger.jobs)
      (owner : c'.ledger.owner =
        fun m => if m = c.service.nextNumber then job else c.ledger.owner m)
      (calls : c'.calls = c.ended (.error failure))
      (begun : ∀ job, c'.observed.calls job = c.observed.calls job)

variable {c c' : Chronicle}

theorem move_turn (h : c.observed.Balanced) (atDate : Bool) :
    c.Move (c.goOn (c.observed.turn atDate)) := by
  cases hp : c.service.phase with
  | looking | waiting =>
    have hfree : c.service.isFree = true := by simp [Service.isFree, hp]
    obtain ⟨b, phase, hs, pick⟩ := Service.turn_pick h.sound hfree atDate
    cases pick with
    | @taken k rest _ going first due sound left number =>
      have first : c.observed.tickets = k :: rest := first
      simp only [goOn, Observed.turn, hp, hs, first, List.head?_cons, Option.map_some]
      exact .takes first due left rfl rfl rfl rfl rfl fun _ => rfl
    | nothingDue going same later | stopped stopping same =>
      have htickets : b.tickets = c.observed.tickets := congrArg Schedule.tickets same
      simp only [goOn, Observed.turn, hp, hs]
      exact .idles ⟨htickets, rfl, rfl⟩ rfl rfl fun _ => rfl
  | checking t =>
    obtain ⟨job, -, hjob, -⟩ := h.holds (congrArg Phase.task? hp)
    cases hpresent : c.service.site.tree.isPresent t.path with
    | true =>
      simp only [goOn, Observed.turn, Service.turn, Service.check, hp, hpresent, if_true, Ledger.note,
        hjob, Observed.begun]
      exact .begins ⟨rfl, rfl, rfl⟩ hp hjob rfl rfl rfl rfl rfl
    | false =>
      simp only [goOn, Observed.turn, Service.turn, Service.check, hp, hpresent, Bool.false_eq_true,
        if_false, Ledger.note, Ledger.letGo, hjob, Observed.begun]
      exact .idles ⟨rfl, rfl, rfl⟩ rfl rfl fun j => List.count_cons_of_ne (by simp)
  | finalizing t =>
    obtain ⟨job, -, hjob, -⟩ := h.holds (congrArg Phase.task? hp)
    simp only [goOn, Observed.turn, Service.turn, Service.finalize, hp, Ledger.note, Ledger.letGo, hjob]
    exact .idles ⟨rfl, rfl, rfl⟩ rfl rfl fun j => List.count_cons_of_ne (by simp)
  | calling t | stopped =>
    simp only [goOn, Observed.turn, Service.turn, hp]
    exact .rests ⟨rfl, rfl, rfl⟩ rfl rfl (Nat.le_refl _) rfl fun _ => rfl

theorem move_diskFault (h : c.observed.Balanced) : c.Move (c.goOn c.observed.diskFault) := by
  cases hp : c.service.phase with
  | checking t =>
    obtain ⟨job, -, hjob, -⟩ := h.holds (congrArg Phase.task? hp)
    simp only [goOn, Observed.diskFault, Service.diskFault, hp, Ledger.note, hjob, Observed.begun]
    exact .begins ⟨rfl, rfl, rfl⟩ hp hjob rfl rfl rfl rfl rfl
  | finalizing t =>
    simp only [goOn, Observed.diskFault, Service.diskFault, hp]
    exact .idles ⟨rfl, rfl, rfl⟩ rfl rfl fun _ => rfl
  | looking | waiting | calling t | stopped =>
    simp only [goOn, Observed.diskFault, Service.diskFault, hp]
    exact .rests ⟨rfl, rfl, rfl⟩ rfl rfl (Nat.le_refl _) rfl fun _ => rfl

theorem move_answer (h : c.observed.Balanced) (result : CallResult) : c.Move (c.answer result) := by
  cases hp : c.service.phase with
  | calling t =>
    obtain ⟨job, -, hjob, -⟩ := h.holds (congrArg Phase.task? hp)
    cases result with
    | ok u =>
      simp only [answer, Observed.answer, Service.answer, hp, Site.settle, Ledger.note, hjob]
      exact .ends ⟨rfl, rfl, rfl⟩ hp hjob rfl rfl fun j => List.count_cons_of_ne (by simp)
    | error failure =>
      rcases Site.settle_error_cases h.sound t failure with ⟨k, -, -, hs⟩ | ⟨b, hs, -, ht, -⟩
      · simp only [answer, Observed.answer, Service.answer, hp, hs, Ledger.note, Ledger.letGo, hjob]
        refine .ends ⟨rfl, rfl, rfl⟩ hp hjob rfl rfl fun j => ?_
        exact (List.count_cons_of_ne (by simp)).trans (List.count_cons_of_ne (by simp))
      · simp only [answer, Observed.answer, Service.answer, hp, hs, Ledger.note, Ledger.assign,
          Ledger.letGo, hjob]
        exact .returns hp hjob rfl ht rfl rfl rfl fun j => List.count_cons_of_ne (by simp)
  | looking | waiting | checking t | finalizing t | stopped =>
    simp only [answer, Observed.answer, Service.answer, hp]
    exact .rests ⟨rfl, rfl, rfl⟩ rfl rfl (Nat.le_refl _) rfl fun _ => rfl

/-- The calls of each job form a chain, and what waits or is in hand resumes after them. -/
structure Kept (c : Chronicle) : Prop where
  balanced : c.observed.Balanced
  known : ∀ call ∈ c.calls, ∃ job ∈ c.ledger.jobs, job.number = call.job
  begun : ∀ job, (c.callsOf job).length = c.observed.calls job
  chained : ∀ job ∈ c.ledger.jobs, Chained job (c.callsOf job.number)
  pending : ∀ k ∈ c.observed.tickets, Resumes (c.callsOf (c.observed.jobOf k)) k.task k.task.due
  checking : ∀ t job, c.service.phase = .checking t → c.ledger.hand = some job →
    Resumes (c.callsOf job) t c.now
  calling : ∀ t job, c.service.phase = .calling t → c.ledger.hand = some job →
    ∃ start earlier, c.calls = { job, task := t, start } :: earlier ∧ start ≤ c.now

theorem Kept.enqueue (h : c.Kept) (p : Path) (d : Destination) :
    Kept ⟨c.observed.enqueue p d, c.calls⟩ := by
  have hbalanced := h.balanced.enqueue p d
  rcases Service.enqueue_cases h.balanced.sound p d with ⟨-, hs⟩ | ⟨b, hs, -, ht, -⟩
  · have ho : c.observed.enqueue p d = c.observed := by simp [Observed.enqueue, hs]
    rw [ho]
    exact h
  · have ho : c.observed.enqueue p d = ⟨c.service.withOutbox b,
        { c.ledger with jobs := c.service.firstTicket p d :: c.ledger.jobs }⟩ := by
      simp [Observed.enqueue, hs]
    rw [ho] at hbalanced ⊢
    -- no call has been made for a number that was not given yet
    have hnone : c.callsOf c.service.nextNumber = [] := by
      rw [callsOf, List.filter_eq_nil_iff]
      intro call hcall he
      obtain ⟨job, hj, hn⟩ := h.known call hcall
      have := h.balanced.below job hj
      have : call.job = c.observed.service.nextNumber := by simpa using he
      omega
    refine ⟨hbalanced, ?_, h.begun, ?_, ?_, h.checking, h.calling⟩
    · intro call hcall
      obtain ⟨job, hj, hn⟩ := h.known call hcall
      exact ⟨job, List.mem_cons_of_mem _ hj, hn⟩
    · intro job hj
      rcases List.mem_cons.mp hj with rfl | hj
      · show Chained _ (c.callsOf c.service.nextNumber)
        rw [hnone]
        trivial
      · exact h.chained job hj
    · intro k hk
      have hk : k ∈ b.tickets := hk
      rw [ht] at hk
      rcases mem_place.mp hk with rfl | hk
      · show Resumes (c.callsOf (c.ledger.owner c.service.nextNumber)) _ _
        rw [h.balanced.own _ (Nat.le_refl _), hnone]
        exact ⟨rfl, by simp⟩
      · exact h.pending k hk

theorem Kept.scan (h : c.Kept) (d : Destination) (dir : Path) :
    Kept ⟨c.observed.scan d dir, c.calls⟩ := by
  obtain ⟨o, calls⟩ := c
  unfold Observed.scan
  dsimp only
  induction o.service.site.tree.recordings d dir generalizing o with
  | nil => exact h
  | cons p rest ih => exact ih _ (h.enqueue p d)

theorem Keeps.jobOf (hk : c.Keeps c') (k : Ticket) : c'.observed.jobOf k = c.observed.jobOf k :=
  congrFun hk.owner k.number

theorem attempted_of_works {t : Task} {job : Nat}
    (hp : c.service.phase = .checking t ∨ c.service.phase = .calling t)
    (hhand : c.ledger.hand = some job) : c.observed.attempted? = some job := by
  rcases hp with hp | hp <;> simpa [Observed.attempted?, hp] using hhand

theorem not_attempted (hfree : c.observed.attempted? = none) {t : Task} {job : Nat}
    (hp : c.service.phase = .checking t ∨ c.service.phase = .calling t) :
    c.ledger.hand ≠ some job := by
  intro hhand
  simp [attempted_of_works hp hhand] at hfree

theorem Kept.begins (h : c.Kept) (hb : c'.observed.Balanced) {t : Task} {job : Nat}
    (keeps : c.Keeps c') (hp : c.service.phase = .checking t) (hhand : c.ledger.hand = some job)
    (hp' : c'.service.phase = .calling t) (hhand' : c'.ledger.hand = some job) (hnow : c'.now = c.now)
    (hcalls : c'.calls = { job, task := t, start := c.now } :: c.calls)
    (hlog : c'.ledger.log = .begun job :: c.ledger.log) : c'.Kept := by
  obtain ⟨own, howns, hown, hcontinues, -⟩ := h.balanced.holds (congrArg Phase.task? hp)
  obtain rfl : job = own.number := Option.some.inj (hhand.symm.trans hown)
  have hmine : c'.callsOf own.number =
      { job := own.number, task := t, start := c.now } :: c.callsOf own.number := by
    simp [callsOf, hcalls]
  have hother {n : Nat} (hne : n ≠ own.number) : c'.callsOf n = c.callsOf n := by
    simp [callsOf, hcalls, hne.symm]
  refine ⟨hb, ?_, ?_, ?_, ?_, ?_, ?_⟩
  · intro call hcall
    rw [hcalls] at hcall
    rw [keeps.jobs]
    rcases List.mem_cons.mp hcall with rfl | hcall
    · exact ⟨own, howns, rfl⟩
    · exact h.known call hcall
  · intro n
    have hbefore := h.begun n
    rw [Observed.calls] at hbefore
    rw [Observed.calls, hlog, List.count_cons]
    by_cases hn : n = own.number
    · rw [hn] at hbefore ⊢
      rw [hmine]
      simp [hbefore]
    · rw [hother hn, hbefore]
      simp [Ne.symm hn]
  · intro job hj
    rw [keeps.jobs] at hj
    by_cases hn : job.number = own.number
    · obtain rfl := h.balanced.job_eq hj howns hn
      rw [hmine]
      exact ⟨hcontinues, h.checking t _ hp hhand, h.chained job hj⟩
    · rw [hother hn]
      exact h.chained job hj
  · intro k hk
    rw [keeps.tickets] at hk
    rw [keeps.jobOf, hother (h.balanced.jobOf_ne (attempted_of_works (.inl hp) hhand) hk)]
    exact h.pending k hk
  · intro t' job ht
    rw [hp'] at ht
    simp at ht
  · intro t' job ht hj
    rw [hp'] at ht
    rw [hhand'] at hj
    obtain rfl := Phase.calling.inj ht
    obtain rfl := Option.some.inj hj
    exact ⟨c.now, c.calls, hcalls, Nat.le_of_eq hnow.symm⟩

theorem Kept.ended_cases (h : c.Kept) {t : Task} {job : Nat} {result : CallResult}
    (hp : c.service.phase = .calling t) (hhand : c.ledger.hand = some job)
    (hcalls : c'.calls = c.ended result) :
    ∃ own ∈ c.ledger.jobs, own.number = job ∧ Observed.Continues t own ∧
      ∃ start earlier, start ≤ c.now ∧
        c.callsOf job = { job, task := t, start } :: earlier ∧
        c'.callsOf job = { job, task := t, start, ending := some (c.now, result) } :: earlier ∧
        (∀ n, n ≠ job → c'.callsOf n = c.callsOf n) ∧
        ∀ call ∈ c'.calls, ∃ before ∈ c.calls, before.job = call.job := by
  obtain ⟨own, howns, hown, hcontinues, -⟩ := h.balanced.holds (congrArg Phase.task? hp)
  obtain ⟨start, earlier, hbefore, hstart⟩ := h.calling t job hp hhand
  rw [ended, hbefore, List.modifyHead_cons] at hcalls
  refine ⟨own, howns, Option.some.inj (hown.symm.trans hhand), hcontinues, start,
    earlier.filter (·.job = job), hstart, ?_, ?_, ?_, ?_⟩
  · simp [callsOf, hbefore]
  · simp [callsOf, hcalls]
  · intro n hn
    simp [callsOf, hbefore, hcalls, hn.symm]
  · intro call hcall
    rw [hcalls] at hcall
    rw [hbefore]
    rcases List.mem_cons.mp hcall with rfl | hcall
    · exact ⟨_, List.mem_cons_self, rfl⟩
    · exact ⟨call, List.mem_cons_of_mem _ hcall, rfl⟩

theorem Kept.ends (h : c.Kept) (hb : c'.observed.Balanced) {t : Task} {job : Nat}
    {result : CallResult} (hp : c.service.phase = .calling t) (hhand : c.ledger.hand = some job)
    (hfree : c'.observed.attempted? = none) (hjobs : c'.ledger.jobs = c.ledger.jobs)
    (hcalls : c'.calls = c.ended result)
    (hbegun : ∀ job, c'.observed.calls job = c.observed.calls job)
    (hpending : ∀ k ∈ c'.observed.tickets,
      Resumes (c'.callsOf (c'.observed.jobOf k)) k.task k.task.due) : c'.Kept := by
  obtain ⟨own, howns, hown, -, start, earlier, -, hbefore, hmine, hother, hmem⟩ :=
    h.ended_cases hp hhand hcalls
  refine ⟨hb, ?_, ?_, ?_, hpending, ?_, ?_⟩
  · intro call hcall
    obtain ⟨before, hbefore, hsame⟩ := hmem call hcall
    rw [hjobs, ← hsame]
    exact h.known before hbefore
  · intro n
    rw [hbegun, ← h.begun]
    by_cases hn : n = job
    · rw [hn, hmine, hbefore]
      rfl
    · rw [hother n hn]
  · intro j hj
    rw [hjobs] at hj
    have hchained := h.chained j hj
    by_cases hn : j.number = job
    · rw [hn, hbefore] at hchained
      rw [hn, hmine]
      exact hchained
    · rw [hother _ hn]
      exact hchained
  · intro t' j ht hj
    exact absurd hj (not_attempted hfree (.inl ht))
  · intro t' j ht hj
    exact absurd hj (not_attempted hfree (.inr ht))

/-- After a failure the task in hand, counted once more, resumes when the delay is over. -/
theorem Kept.resumes (h : c.Kept) {t : Task} {job : Nat} {failure : Failure}
    (hp : c.service.phase = .calling t) (hhand : c.ledger.hand = some job)
    (hcalls : c'.calls = c.ended (.error failure)) :
    Resumes (c'.callsOf job) (c.service.site.retryTicket t failure).task
      (c.service.site.retryTicket t failure).task.due := by
  obtain ⟨own, howns, hown, -, start, earlier, hstart, hbefore, hmine, -⟩ :=
    h.ended_cases hp hhand hcalls
  have hchained := h.chained own howns
  rw [hown, hbefore] at hchained
  have hattempt : t.attempt = min earlier.length Task.attemptLimit := hchained.2.1.1
  rw [hmine]
  refine ⟨?_, ?_⟩
  · simp only [Site.retryTicket, Task.retryAt, hattempt, List.length_cons]
    omega
  · intro last hlast
    obtain rfl := Option.some.inj hlast
    exact ⟨c.now, failure, rfl, hstart, Nat.le_refl _⟩

theorem Kept.of_calls (h : c.Kept) (hb : c'.observed.Balanced)
    (hjobs : c'.ledger.jobs = c.ledger.jobs) (hcalls : c'.calls = c.calls)
    (hbegun : ∀ job, c'.observed.calls job = c.observed.calls job)
    (hpending : ∀ k ∈ c'.observed.tickets,
      Resumes (c.callsOf (c'.observed.jobOf k)) k.task k.task.due)
    (hchecking : ∀ t job, c'.service.phase = .checking t → c'.ledger.hand = some job →
      Resumes (c.callsOf job) t c'.now)
    (hcalling : ∀ t job, c'.service.phase = .calling t → c'.ledger.hand = some job →
      ∃ start earlier, c.calls = { job, task := t, start } :: earlier ∧ start ≤ c'.now) : c'.Kept := by
  obtain ⟨o, calls⟩ := c'
  obtain rfl : calls = c.calls := hcalls
  refine ⟨hb, ?_, fun job => (h.begun job).trans (hbegun job).symm, ?_, hpending, hchecking, hcalling⟩
  · rw [hjobs]
    exact h.known
  · rw [hjobs]
    exact h.chained

theorem Kept.move (h : c.Kept) (hb : c'.observed.Balanced) (m : c.Move c') : c'.Kept := by
  cases m with
  | rests keeps phase hand now calls begun =>
    refine h.of_calls hb keeps.jobs calls begun ?_ ?_ ?_
    · intro k hk
      rw [keeps.jobOf]
      exact h.pending k (keeps.tickets ▸ hk)
    · intro t job ht hj
      exact (h.checking t job (phase ▸ ht) (hand ▸ hj)).mono now
    · intro t job ht hj
      obtain ⟨start, earlier, hlatest, hstart⟩ := h.calling t job (phase ▸ ht) (hand ▸ hj)
      exact ⟨start, earlier, hlatest, Nat.le_trans hstart now⟩
  | idles keeps free calls begun =>
    refine h.of_calls hb keeps.jobs calls begun ?_ ?_ ?_
    · intro k hk
      rw [keeps.jobOf]
      exact h.pending k (keeps.tickets ▸ hk)
    · intro t job ht hj
      exact absurd hj (not_attempted free (.inl ht))
    · intro t job ht hj
      exact absurd hj (not_attempted free (.inr ht))
  | @takes k rest first due left jobs owner phase hand calls begun =>
    refine h.of_calls hb jobs calls begun ?_ ?_ ?_
    · intro a ha
      rw [left] at ha
      rw [Observed.jobOf, owner]
      exact h.pending a (by simp [first, ha])
    · intro t job ht hj
      rw [phase] at ht
      rw [hand] at hj
      obtain rfl := Phase.checking.inj ht
      obtain rfl := Option.some.inj hj
      exact (h.pending k (by simp [first])).mono due
    · intro t job ht hj
      rw [phase] at ht
      simp at ht
  | begins keeps phase hand phase' hand' now calls begun =>
    exact h.begins hb keeps phase hand phase' hand' now calls begun
  | @ends t job result keeps phase hand free calls begun =>
    refine h.ends hb phase hand free keeps.jobs calls begun ?_
    obtain ⟨-, -, -, -, -, -, -, -, -, hother, -⟩ := h.ended_cases phase hand calls
    intro k hk
    rw [keeps.tickets] at hk
    rw [keeps.jobOf, hother _ (h.balanced.jobOf_ne (attempted_of_works (.inr phase) hand) hk)]
    exact h.pending k hk
  | @returns t job failure phase hand free placed jobs owner calls begun =>
    refine h.ends hb phase hand free jobs calls begun ?_
    obtain ⟨-, -, -, -, -, -, -, -, -, hother, -⟩ := h.ended_cases phase hand calls
    intro k hk
    rw [placed] at hk
    rcases mem_place.mp hk with rfl | hk
    · have hmine : c'.observed.jobOf (c.service.site.retryTicket t failure) = job := by
        rw [Observed.jobOf, owner]
        exact if_pos rfl
      rw [hmine]
      exact h.resumes phase hand calls
    · have hbelow : k.number < c.service.nextNumber := h.balanced.sound.below k hk
      have hsame : c'.observed.jobOf k = c.observed.jobOf k := by
        rw [Observed.jobOf, owner]
        exact if_neg (Nat.ne_of_lt hbelow)
      rw [hsame, hother _ (h.balanced.jobOf_ne (attempted_of_works (.inr phase) hand) hk)]
      exact h.pending k hk

theorem Kept.happen (h : c.Kept) (e : Event) : (c.happen e).Kept := by
  have hb : (c.happen e).observed.Balanced := by
    rw [observed_happen]
    exact h.balanced.happen e
  cases e with
  | turn atDate =>
    simp only [Chronicle.happen] at hb ⊢
    split
    · rename_i hruns
      rw [if_pos hruns] at hb
      exact h.move hb (move_turn h.balanced _)
    · exact h
  | diskFault => exact h.move hb (move_diskFault h.balanced)
  | answer result => exact h.move hb (move_answer h.balanced result)
  | enqueue p d => exact h.enqueue p d
  | scan d dir => exact h.scan d dir
  | files tree | advance now | setWall wall | requestStop =>
    refine h.move hb (.rests ⟨rfl, rfl, rfl⟩ rfl rfl ?_ rfl fun _ => rfl)
    first | exact Nat.le_refl _ | exact Nat.le_max_left _ _

theorem Kept.run (h : c.Kept) (es : List Event) : (c.run es).Kept := by
  induction es generalizing c with
  | nil => exact h
  | cons e rest ih => exact ih (h.happen e)

end Chronicle

namespace Transmission

variable {job : Ticket} {calls : List Transmission}

theorem Chained.allows (h : Chained job calls) {n : Nat} {first second : Transmission}
    (hfirst : calls.reverse[n]? = some first) (hsecond : calls.reverse[n + 1]? = some second) :
    first.Allows second.start := by
  induction calls with
  | nil => simp at hfirst
  | cons latest earlier ih =>
    obtain ⟨-, hresumes, hearlier⟩ := h
    rw [List.reverse_cons, List.getElem?_append] at hfirst hsecond
    split at hsecond
    · rw [if_pos (by omega)] at hfirst
      exact ih hearlier hfirst hsecond
    · rename_i hlate
      rw [List.length_reverse] at hsecond hlate
      obtain ⟨hindex, rfl⟩ : n + 1 - earlier.length = 0 ∧ latest = second := by
        simpa [List.getElem?_singleton] using hsecond
      -- so the first one is the last before it
      have hlast : earlier.reverse[n]? = some first := by
        rwa [List.length_reverse, if_pos (by omega)] at hfirst
      have hhead : earlier.length - 1 - n = 0 := by omega
      rw [List.getElem?_reverse (by omega), hhead, ← List.head?_eq_getElem?] at hlast
      exact hresumes.2 first hlast

end Transmission

namespace Chronicle

end Chronicle
end RecordingDelivery
