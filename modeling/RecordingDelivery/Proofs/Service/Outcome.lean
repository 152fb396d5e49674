import Mathlib
import RecordingDelivery.Proofs.Files.Calls
import RecordingDelivery.Proofs.Outbox.History
import RecordingDelivery.Proofs.Service.Run

/-!
How one attempt ends, and what it leaves. Only the files as they are before the call decide whether there
is one; all else is decided by its result and by the outbox and the files as it leaves them, whatever
others did in the meantime.
-/
namespace RecordingDelivery

namespace Site

variable {s : Site} {t : Task}

theorem attempt_absent (h : s.tree.find .target t.path = .error .notFound)
    (call : Task → Site → CallResult × Site) : s.attempt t call = (.vanished, s) := by
  rw [attempt, if_neg]
  simp [Tree.isPresent_eq_false.mpr h]

/-- A link that leads nowhere, and one that leads to itself. -/
def misledTree : Tree :=
  { entries :=
      [([Bytes.ofText "a"], .link (.ofText "b")), ([Bytes.ofText "c"], .link (.ofText "c"))] }

example : misledTree.isPresent (.ofText "/a") = false ∧ misledTree.isPresent (.ofText "/c") = true := by
  constructor <;> cbv

theorem attempt_present (h : s.tree.find .target t.path ≠ .error .notFound)
    (call : Task → Site → CallResult × Site) :
    s.attempt t call = (call t s).2.settle t (call t s).1 := by
  have hpresent : s.tree.isPresent t.path = true := by
    rw [← Bool.not_eq_false]
    exact mt Tree.isPresent_eq_false.mp h
  rw [attempt, if_pos hpresent]

/-- An attempt depends on its transport by no other call than that of its task where it is. -/
theorem attempt_congr {call other : Task → Site → CallResult × Site} (h : other t s = call t s) :
    s.attempt t other = s.attempt t call := by
  rw [attempt, attempt, h]

section Settle

variable (h : s.outbox.schedule.Sound) (failure : Failure)
include h

theorem settle_superseded (htaken : ∃ k ∈ s.outbox.tasks, k.path.same t.path = true) :
    s.settle t (.error failure) = (.superseded, s) := by
  rcases settle_error_cases h t failure with ⟨-, -, -, hs⟩ | ⟨-, -, -, -, -, hfree⟩
  · exact hs
  · have hcontains := (Outbox.contains_iff h t.path).mpr htaken
    rw [hfree] at hcontains
    contradiction

theorem settle_rescheduled (hfree : ¬ ∃ k ∈ s.outbox.tasks, k.path.same t.path = true) :
    let delay := t.destination.retryDelay failure
    let due := s.now + min delay Outbox.horizon
    ∃ outbox before behind, s.settle t (.error failure) = (.rescheduled delay, { s with outbox }) ∧
      s.outbox.tasks = before ++ behind ∧ outbox.tasks = before ++ t.retryAt due :: behind ∧
      (∀ k ∈ before, k.due ≤ due) ∧ ∀ k ∈ behind, due < k.due := by
  intro delay due
  rcases settle_error_cases h t failure with
    ⟨k, hk, hsame, -⟩ | ⟨outbox, hs, -, htickets, -⟩
  · exact absurd ⟨k.task, List.mem_map_of_mem hk, hsame⟩ hfree
  · have htasks : outbox.tasks = place (·.due) (t.retryAt due) s.outbox.tasks := by
      rw [Outbox.tasks_eq, htickets]
      exact map_place Ticket.task Task.due (fun _ => rfl) _
    obtain ⟨before, behind, hsplit, hplace, hbefore, hbehind⟩ :=
      exists_place s.outbox.sorted_tasks (t.retryAt due)
    exact ⟨outbox, before, behind, hs, hsplit, htasks.trans hplace, hbefore, hbehind⟩

end Settle

/-- An attempt ends in one of four ways. An absent file ends it before a call, and nothing changes. A call
that succeeds ends it as delivered, with the files finalized as far as they can be. After one that
fails the task comes back, once more attempted, among the tasks that wait, or it is dropped if one of
its path waits already. The outbox that the call leaves is sound, as `Outbox.sound_after` shows of any. -/
theorem attempt_outcome {s left after : Site} {t : Task} {call : Task → Site → CallResult × Site}
    {result : CallResult} {outcome : Outcome} (hcall : call t s = (result, left))
    (hsound : left.outbox.schedule.Sound) (hattempt : s.attempt t call = (outcome, after)) :
    let absent := s.tree.find .target t.path = .error .notFound
    let taken := ∃ k ∈ left.outbox.tasks, k.path.same t.path = true
    (outcome = .vanished ↔ absent) ∧
    (outcome = .vanished → after = s ∧ ∀ other, s.attempt t other = (.vanished, s)) ∧
    (outcome = .delivered ↔ ¬ absent ∧ result = .ok ()) ∧
    (outcome = .delivered →
      after = { left with tree := left.tree.finalized t.path t.destination.deleteAfter }) ∧
    (∀ delay, outcome = .rescheduled delay ↔ ¬ absent ∧ ¬ taken ∧ ∃ failure, result = .error failure ∧
      delay = match failure with
        | .rejected _ => t.destination.rejectionInterval.getD t.destination.retryInterval
        | .unreadable _ _ | .noAnswer => t.destination.retryInterval) ∧
    (∀ delay, outcome = .rescheduled delay →
      after = { left with outbox := after.outbox } ∧
      ∃ before behind, left.outbox.tasks = before ++ behind ∧
        after.outbox.tasks = before ++
          { t with attempt := min (t.attempt + 1) Task.attemptLimit
                   due := left.now + min delay Outbox.horizon } :: behind ∧
        (∀ k ∈ before, k.due ≤ left.now + min delay Outbox.horizon) ∧
        ∀ k ∈ behind, left.now + min delay Outbox.horizon < k.due) ∧
    (outcome = .superseded ↔ ¬ absent ∧ taken ∧ ∃ failure, result = .error failure) ∧
    (outcome = .superseded → after = left) ∧
    ∀ other, other t s = call t s → s.attempt t other = (outcome, after) := by
  intro absent taken
  have hother : ∀ other, other t s = call t s → s.attempt t other = (outcome, after) :=
    fun other h => (attempt_congr h).trans hattempt
  have hdelay (failure : Failure) : t.destination.retryDelay failure = match failure with
      | .rejected _ => t.destination.rejectionInterval.getD t.destination.retryInterval
      | .unreadable _ _ | .noAnswer => t.destination.retryInterval := by
    cases failure <;> rfl
  by_cases habsent : absent
  · obtain ⟨rfl, rfl⟩ := Prod.mk.inj ((attempt_absent habsent call).symm.trans hattempt)
    simp [habsent, attempt_absent habsent]
  · have hsettle := (attempt_present habsent call).symm.trans hattempt
    rw [hcall] at hsettle
    cases result with
    | ok u =>
      obtain ⟨rfl, rfl⟩ := Prod.mk.inj hsettle
      simpa [habsent] using hother
    | error failure =>
      by_cases htaken : taken
      · obtain ⟨rfl, rfl⟩ :=
          Prod.mk.inj ((settle_superseded hsound failure htaken).symm.trans hsettle)
        simpa [habsent, htaken] using hother
      · obtain ⟨outbox, before, behind, hdone, hsplit, htasks, hbefore, hbehind⟩ :=
          settle_rescheduled (t := t) hsound failure htaken
        obtain ⟨rfl, rfl⟩ := Prod.mk.inj (hdone.symm.trans hsettle)
        refine ⟨by simp [habsent], by simp, by simp, by simp, fun delay => ?_, ?_, by simp [htaken],
          by simp, hother⟩
        · simp [habsent, htaken, hdelay, eq_comm]
        · rintro delay ⟨⟩
          exact ⟨rfl, before, behind, hsplit, htasks, hbefore, hbehind⟩

def spoolSite : Site := { tree := { entries := [([Bytes.ofText "a"], .file (Bytes.ofText "1"))] } }

def spoolTask : Task := .fresh (.ofText "/a") (.ofEndpoint "u") .epoch 0

/-- While the endpoint turns the file down, another one is enqueued, and all files go. -/
def intruding (t : Task) (s : Site) : CallResult × Site :=
  (.error (.rejected 503), { (s.enqueue (.ofText "/b") t.destination).2 with tree := {} })

/-- The task comes back behind the one that came meanwhile. -/
theorem attempt_outcome_intruding :
    let left := (intruding spoolTask spoolSite).2
    let delay := spoolTask.destination.retryInterval
    left.outbox.schedule.Sound ∧ left.outbox.tasks.map (·.path) = [.ofText "/b"] ∧
      ∃ after, spoolSite.attempt spoolTask intruding = (.rescheduled delay, after) ∧
        after = { left with outbox := after.outbox } ∧
        ∃ before behind, left.outbox.tasks = before ++ behind ∧
          after.outbox.tasks = before ++ spoolTask.retryAt (left.now + min delay Outbox.horizon) ::
            behind := by
  intro left delay
  have hsound : left.outbox.schedule.Sound :=
    (Outbox.grows_enqueue (o := {}) Schedule.sound_empty (.ofText "/b") spoolTask.destination
      .epoch 0).1
  have hpaths : left.outbox.tasks.map (·.path) = [.ofText "/b"] := by cbv
  have hthere : spoolSite.tree.isPresent spoolTask.path = true := by cbv
  have hpresent : spoolSite.tree.find .target spoolTask.path ≠ .error .notFound := by
    intro habsent
    rw [Tree.isPresent_eq_false.mpr habsent] at hthere
    simp at hthere
  have hfree : ¬ ∃ k ∈ left.outbox.tasks, k.path.same spoolTask.path = true := by
    rintro ⟨k, hk, hsame⟩
    have hpath : k.path ∈ left.outbox.tasks.map (·.path) := List.mem_map_of_mem hk
    rw [hpaths, List.mem_singleton] at hpath
    rw [hpath] at hsame
    revert hsame
    decide
  rcases hattempt : spoolSite.attempt spoolTask intruding with ⟨outcome, after⟩
  obtain ⟨-, -, -, -, hiff, hafter, -⟩ := attempt_outcome (rfl : _ = (_, left)) hsound hattempt
  have houtcome : outcome = .rescheduled delay :=
    (hiff delay).mpr ⟨hpresent, hfree, .rejected 503, rfl, rfl⟩
  obtain ⟨hsame, before, behind, hsplit, htasks, -⟩ := hafter delay houtcome
  exact ⟨hsound, hpaths, after, by rw [houtcome], hsame, before, behind, hsplit, htasks⟩

end Site
end RecordingDelivery
