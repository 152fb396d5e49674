import RecordingDelivery.Proofs.Service.Account
import RecordingDelivery.Proofs.Spool.Recovery

/-!
A job that comes in while an earlier one of its path is in hand. The transport is called for it, unless
its file goes first; and nothing but the end of that earlier attempt, other people, or a file of some
other path can take it away.
-/
namespace RecordingDelivery

namespace Observed

variable {o : Observed} {t : Task} {job : Nat}

/-- No call has ended that was not made. -/
structure Called (o : Observed) : Prop where
  answered : ∀ n ∈ o.ledger.log, ∀ job, n.answered? = some job → 0 < o.calls job
  calling : ∀ t job, o.service.phase = .calling t → o.ledger.hand = some job → 0 < o.calls job

theorem called_fresh (tree : Tree) (now : Nat) (wall : Timestamp) : (fresh tree now wall).Called :=
  ⟨by simp [fresh], by simp [fresh, Service.fresh]⟩

theorem Called.happen (hc : o.Called) (h : o.Balanced) (e : Event) : (o.happen e).Called := by
  have hmore (job : Nat) (hpos : 0 < o.calls job) : 0 < (o.happen e).calls job :=
    Nat.lt_of_lt_of_le hpos ((extends_happen o e).1.sublist.count_le _)
  refine ⟨?_, ?_⟩
  · intro n hn job hjob
    rcases answered_happen h e hn hjob with hn | ⟨t, hp, hj, -⟩
    · exact hmore job (hc.answered n hn job hjob)
    · exact hmore job (hc.calling t job hp hj)
  · intro t job hp hj
    rcases calling_happen h e hp hj with ⟨hp, hj⟩ | hbegun
    · exact hmore job (hc.calling t job hp hj)
    · exact List.count_pos_iff.mpr hbegun

theorem Called.run (hc : o.Called) (h : o.Balanced) (es : List Event) : (o.run es).Called := by
  induction es generalizing o with
  | nil => exact hc
  | cons e rest ih => exact ih (hc.happen h e) (h.happen e)

theorem Called.pos (hc : o.Called) {s : Standing} (hs : o.Stands job s)
    (hanswered : s = .acknowledged ∨ s = .superseded) : 0 < o.calls job := by
  rcases hanswered with rfl | rfl
  · exact hc.answered _ (List.count_pos_iff.mp hs.pos) job rfl
  · obtain ⟨n, hn, hout⟩ := List.countP_pos_iff.mp hs.pos
    refine hc.answered n hn job ?_
    cases n with
    | outdone j ks =>
      have : j = job := by simpa [Note.isOutdone] using hout
      rw [this]
      rfl
    | begun j | ended j r | missing j | finalized j t r => simp [Note.isOutdone] at hout

def IsOpen (o : Observed) (job : Nat) : Prop := ∀ s, o.Stands job s → s.isFinal = false

theorem IsOpen.of_happen (h : o.Balanced) {e : Event} (hopen : (o.happen e).IsOpen job) :
    o.IsOpen job := by
  intro s hs
  cases hfinal : s.isFinal with
  | false => rfl
  | true => exact hfinal.symm.trans (hopen s (h.final_happen hs hfinal e).1)

theorem not_isOpen_of_finalizing (h : o.Balanced) {job : Ticket} (hj : job ∈ o.ledger.jobs)
    (hp : o.service.phase = .finalizing t) (hhand : o.ledger.hand = some job.number) :
    ¬ o.IsOpen job.number := by
  intro hopen
  obtain ⟨s, hs⟩ := h.exists_stands hj
  obtain ⟨job', hj', hjob', hc, hlater⟩ := h.holds (congrArg Phase.task? hp)
  obtain rfl : job' = job := h.job_eq hj' hj (Option.some.inj (hjob'.symm.trans hhand))
  have hfinal := hopen s hs
  cases s with
  | pending =>
    obtain ⟨k, hk, hkj, hkc⟩ := h.exists_ticket hj hs
    have hlt := hlater k hk (by rw [← hkc.1, hc.1]; simp)
    omega
  | attempted =>
    have hpos := hs.pos
    simp [count, attempted?, hp] at hpos
  | acknowledged | vanished | superseded => simp [Standing.isFinal] at hfinal

/-- A job has come in while a task was in hand. As long as it is open, the courier works on no other
task of its path. -/
structure Newcomer (o : Observed) (first : Task) (hand : Nat) (job : Ticket) : Prop where
  balanced : o.Balanced
  called : o.Called
  mem : job ∈ o.ledger.jobs
  alone : o.IsOpen job.number → ∀ t j, o.Works t j → t.path.same job.task.path = true →
    j = job.number ∨ (t = first ∧ j = hand)

variable {first : Task} {hand : Nat} {job : Ticket}

theorem Newcomer.happen (h : o.Newcomer first hand job) (e : Event) :
    (o.happen e).Newcomer first hand job := by
  refine ⟨h.balanced.happen e, h.called.happen h.balanced e, jobs_subset_happen o e h.mem, ?_⟩
  intro hopen t j hw hsame
  have hbefore := hopen.of_happen h.balanced
  rcases works_happen h.balanced e hw with hw | ⟨hfree, k, hk, rfl, rfl⟩
  · exact h.alone hbefore t j hw hsame
  · -- the job is pending, and there is one ticket of its path
    left
    obtain ⟨s, hs⟩ := h.balanced.exists_stands h.mem
    have hfinal := hbefore s hs
    cases s with
    | pending =>
      obtain ⟨k', hk', hj', hc'⟩ := h.balanced.exists_ticket h.mem hs
      have hkk : k = k' := by
        apply List.inj_on_of_nodup_map h.balanced.sound.apart hk hk'
        rw [← hc'.1]
        exact Path.same_iff.mp hsame
      rw [hkk, hj']
    | attempted =>
      have hpos := hs.pos
      rw [attempted_of_free hfree] at hpos
      omega
    | acknowledged | vanished | superseded => simp [Standing.isFinal] at hfinal

/-- With an event the file at a path goes. Others change the files, or the courier finalizes; if it
finalizes a file of this path, then it is the task that was in hand at first. -/
structure Loses (o : Observed) (first : Task) (hand : Nat) (p : Path) (e : Event) : Prop where
  present : o.tree.isPresent p = true
  absent : (o.happen e).tree.isPresent p = false
  agent : (∃ tree, e = .files tree) ∨ ∃ atDate t, e = .turn atDate ∧
    o.service.phase = .finalizing t ∧
      (t.path.same p = true → t = first ∧ o.ledger.hand = some hand)

theorem Newcomer.absent_happen (h : o.Newcomer first hand job) {e : Event}
    (hopen : o.IsOpen job.number) (habsent : (o.happen e).tree.isPresent job.task.path = false) :
    o.tree.isPresent job.task.path = false ∨ o.Loses first hand job.task.path e := by
  cases hpresent : o.tree.isPresent job.task.path with
  | false => exact .inl rfl
  | true =>
    refine .inr ⟨hpresent, habsent, ?_⟩
    rcases o.service.happen_tree e with hsame | hfiles | ⟨atDate, t, rfl, hp⟩
    · rw [tree, service_happen, hsame, hpresent] at habsent
      simp at habsent
    · exact .inl hfiles
    · refine .inr ⟨atDate, t, rfl, hp, fun hsame => ?_⟩
      obtain ⟨job', -, hjob', -⟩ := h.balanced.holds (congrArg Phase.task? hp)
      rcases h.alone hopen t job'.number ⟨by rw [hp]; rfl, hjob'⟩ hsame with hj | ⟨ht, hj⟩
      · rw [hj] at hjob'
        exact absurd hopen (not_isOpen_of_finalizing h.balanced h.mem hp hjob')
      · exact ⟨ht, by rw [hjob', hj]⟩

/-- The file at a path is not there, or it goes in the course of a run. -/
def Lacks (o : Observed) (first : Task) (hand : Nat) (p : Path) (es : List Event) : Prop :=
  o.tree.isPresent p = false ∨
    ∃ before e after, es = before ++ e :: after ∧ (o.run before).Loses first hand p e

theorem Lacks.append {p : Path} {es : List Event} (h : o.Lacks first hand p es) (e : Event) :
    o.Lacks first hand p (es ++ [e]) := by
  rcases h with habsent | ⟨before, e', after, rfl, hloses⟩
  · exact .inl habsent
  · exact .inr ⟨before, e', after ++ [e], by simp, hloses⟩

/-- When the newcomer's file is found missing, or is not there while the newcomer is open, it has
gone before. -/
theorem Newcomer.run (h : o.Newcomer first hand job)
    (hnone : Note.missing job.number ∉ o.ledger.log) (es : List Event) :
    (o.run es).Newcomer first hand job ∧
      (Note.missing job.number ∈ (o.run es).ledger.log →
        o.Lacks first hand job.task.path es) ∧
      ((o.run es).IsOpen job.number → (o.run es).tree.isPresent job.task.path = false →
        o.Lacks first hand job.task.path es) := by
  induction es using List.reverseRecOn with
  | nil => exact ⟨h, fun hm => absurd hm hnone, fun _ habsent => .inl habsent⟩
  | append_singleton es e ih =>
    obtain ⟨hnow, hmissing, hgone⟩ := ih
    rw [run_concat]
    refine ⟨hnow.happen e, ?_, ?_⟩
    · intro hm
      rcases missing_happen hnow.balanced e hm with hm | ⟨t, hp, hjob, habsent, -⟩
      · exact (hmissing hm).append e
      · -- it was being attempted
        obtain ⟨job', hj', hjob', hc, -⟩ := hnow.balanced.holds (congrArg Phase.task? hp)
        obtain rfl : job' = job :=
          hnow.balanced.job_eq hj' hnow.mem (Option.some.inj (hjob'.symm.trans hjob))
        have hattempted : (o.run es).Stands job'.number .attempted := by
          apply hnow.balanced.stands
          simp [count, attempted?, hp, hjob]
        refine (hgone ?_ (by rw [hc.1]; exact habsent)).append e
        intro s hs
        rw [hs.eq hattempted]
        rfl
    · intro hopen habsent
      have hbefore := hopen.of_happen hnow.balanced
      rcases hnow.absent_happen hbefore habsent with habsent | hloses
      · exact (hgone hbefore habsent).append e
      · exact .inr ⟨es, e, [], rfl, hloses⟩

theorem newcomer_enqueue (h : o.Balanced) (hc : o.Called) (hp : o.service.phase.task? = some first)
    (hhand : o.ledger.hand = some hand) {q : Path} {d : Destination}
    (htaken : (o.service.enqueue q d).1 = true) :
    (o.happen (.enqueue q d)).Newcomer first hand (o.service.firstTicket q d) ∧
      Note.missing o.service.nextNumber ∉ (o.happen (.enqueue q d)).ledger.log := by
  have hjobs := jobs_of_taken htaken
  refine ⟨⟨h.happen _, hc.happen h _, by simp [hjobs], ?_⟩, ?_⟩
  · intro _ t j hw _
    right
    rcases works_happen h _ hw with ⟨ht, hj⟩ | ⟨hfree, -⟩
    · exact ⟨Option.some.inj (ht.symm.trans hp), Option.some.inj (hj.symm.trans hhand)⟩
    · rw [hp] at hfree
      simp at hfree
  · -- nothing has been noted about a number that was not given yet
    rw [happen, enqueue_log]
    intro hm
    have hnew : (o.ledger.jobs.map (·.number)).count o.service.nextNumber = 0 := by
      rw [List.count_eq_zero]
      intro hmem
      obtain ⟨job, hj, he⟩ := List.mem_map.mp hmem
      have := h.below job hj
      omega
    have hshares := h.shares o.service.nextNumber
    have hpos : 0 < o.ledger.log.countP (·.concludes = some o.service.nextNumber) :=
      List.countP_pos_iff.mpr ⟨_, hm, by simp [Note.concludes]⟩
    omega

/-- A file is enqueued anew while the courier has a task in hand. Whatever happens then, its job goes on
until the transport is called for it, or its file is found missing. That happens only if the file was
not there when it was enqueued, or went later: others changed the files, the courier finalized a file
of another path, or it finalized the very task that it had in hand. -/
theorem newcomer_called (tree : Tree) (now : Nat) (wall : Timestamp) (es es' : List Event)
    {first : Task} {q : Path} {d : Destination}
    (hp : ((fresh tree now wall).run es).service.phase.task? = some first)
    (htaken : (((fresh tree now wall).run es).service.enqueue q d).1 = true) :
    let o := (fresh tree now wall).run es
    let number := o.service.nextNumber
    let o' := (o.happen (.enqueue q d)).run es'
    (o'.Stands number .pending ∨ o'.Stands number .attempted ∨ o'.Stands number .vanished ∨
      0 < o'.calls number) ∧
    ∃ hand, o.ledger.hand = some hand ∧
      (o'.Stands number .vanished → (o.happen (.enqueue q d)).Lacks first hand q es') := by
  intro o number o'
  have h : o.Balanced := (balanced_fresh tree now wall).run es
  have hc : o.Called := (called_fresh tree now wall).run (balanced_fresh tree now wall) es
  obtain ⟨job, -, hhand, -⟩ := h.holds hp
  obtain ⟨hnew, hnone⟩ := newcomer_enqueue h hc hp hhand htaken
  obtain ⟨hlater, hmissing, -⟩ := hnew.run hnone es'
  refine ⟨?_, job.number, hhand, fun hs => hmissing (List.count_pos_iff.mp hs.pos)⟩
  obtain ⟨s, hs⟩ := hlater.balanced.exists_stands hlater.mem
  cases s with
  | pending => exact .inl hs
  | attempted => exact .inr (.inl hs)
  | vanished => exact .inr (.inr (.inl hs))
  | acknowledged => exact .inr (.inr (.inr (hlater.called.pos hs (.inl rfl))))
  | superseded => exact .inr (.inr (.inr (hlater.called.pos hs (.inr rfl))))

def loneSpool (contents : String) : Tree :=
  let home := Bytes.ofText "spool"
  { entries := [([home], .directory), ([home, Bytes.ofText "a"], .file (Bytes.ofText contents))]
    workDir := [home] }

/-- The recording is written anew while the transport is called for it. -/
def rewritten : List Event :=
  [.enqueue (.ofText "a") (.ofEndpoint "u"), .turn false, .turn false, .files (loneSpool "22")]

def acknowledged : List Event := [.answer (.ok ()), .turn false, .turn false, .turn false]

theorem stands_rewritten :
    let o := (fresh (loneSpool "1") 0 .epoch).run rewritten
    ((o.happen (.enqueue (.ofText "a") (.ofEndpoint "u"))).run acknowledged).Stands
      o.service.nextNumber .vanished := by
  apply ((((balanced_fresh _ _ _).run rewritten).happen _).run acknowledged).stands
  cbv

theorem newcomer_rewritten :
    let o := (fresh (loneSpool "1") 0 .epoch).run rewritten
    ∃ first hand, o.service.phase.task? = some first ∧ o.ledger.hand = some hand ∧
      (o.service.enqueue (.ofText "a") (.ofEndpoint "u")).1 = true ∧
      (o.happen (.enqueue (.ofText "a") (.ofEndpoint "u"))).Lacks first hand (.ofText "a")
        acknowledged := by
  have hworks :
      ((fresh (loneSpool "1") 0 .epoch).run rewritten).service.phase.task?.isSome = true := by cbv
  have htaken : (((fresh (loneSpool "1") 0 .epoch).run rewritten).service.enqueue (.ofText "a")
      (.ofEndpoint "u")).1 = true := by cbv
  obtain ⟨first, hp⟩ := Option.isSome_iff_exists.mp hworks
  obtain ⟨-, hand, hhand, hlacks⟩ :=
    newcomer_called (loneSpool "1") 0 .epoch rewritten acknowledged hp htaken
  exact ⟨first, hand, hp, hhand, htaken, hlacks stands_rewritten⟩

/-- What was written and enqueued during the call is renamed when the call succeeds, and no call is ever
made for it. -/
theorem newcomer_lost :
    let o := (fresh (loneSpool "1") 0 .epoch).run rewritten
    let taken := o.happen (.enqueue (.ofText "a") (.ofEndpoint "u"))
    let o' := taken.run acknowledged
    o.service.phase.task?.map (·.path) = some (.ofText "a") ∧
      (o.service.enqueue (.ofText "a") (.ofEndpoint "u")).1 = true ∧
      taken.tree.isPresent (.ofText "a") = true ∧ (∀ tree, .files tree ∉ acknowledged) ∧
      o'.tree.get? [Bytes.ofText "spool", Bytes.ofText "a_uploaded"] =
        some (.file (Bytes.ofText "22")) ∧
      o'.Stands o.service.nextNumber .vanished ∧ o'.calls o.service.nextNumber = 0 := by
  refine ⟨?_, ?_, ?_, ?_, ?_, stands_rewritten, ?_⟩
  · cbv
  · cbv
  · cbv
  · simp [acknowledged]
  · cbv
  · cbv

end Observed
end RecordingDelivery
