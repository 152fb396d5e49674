import Mathlib
import RecordingDelivery.Proofs.Files.Path
import RecordingDelivery.Proofs.Outbox.Wakeup

/-!
A taker gives up waiting. No task goes with it, but a call that it has used up is not made again: others
may have relied on its timer. Whether they do is seen from those who go on waiting.
-/
namespace RecordingDelivery

namespace Waiter

variable {w : Waiter} {t now : Nat}

theorem any_timer (w : Waiter) (t : Nat) : w.timer.any (· ≤ t) = ! w.sleepsPast t := by
  unfold sleepsPast
  cases w.timer with
  | none => rfl
  | some date =>
    rw [Option.any_some, Option.all_some, ← decide_not]
    exact decide_eq_decide.mpr Nat.not_lt.symm

theorem asleep_iff : w.isRunnable t = false ↔ w.called = false ∧ w.sleepsPast t = true := by
  rw [← Bool.not_eq_true, isRunnable_iff, any_timer]
  simp

/-- The waiter as it counts from an instant on: a date that has come by then may as well have been the
first of all. -/
def hasten (t : Nat) (w : Waiter) : Waiter :=
  if w.timer.any (· ≤ t) then { w with timer := some 0 } else w

@[simp] theorem hasten_taker : (w.hasten t).taker = w.taker := by
  unfold hasten
  split <;> rfl

@[simp] theorem hasten_called : (w.hasten t).called = w.called := by
  unfold hasten
  split <;> rfl

@[simp] theorem hasten_set : ({ w with called := true } : Waiter).hasten t =
    { w.hasten t with called := true } := by
  unfold hasten
  dsimp only
  split <;> rfl

theorem hasten_timer (hle : t ≤ now) :
    (w.hasten t).timer.any (· ≤ now) = w.timer.any (· ≤ now) := by
  unfold hasten
  split
  · rename_i hcome
    have hpast : w.sleepsPast now = false := by
      rw [any_timer] at hcome
      rw [← Bool.not_eq_true]
      intro hpast
      simp [sleepsPast_of_le hle hpast] at hcome
    simp [any_timer w, hpast]
  · rfl

theorem hasten_isRunnable (hle : t ≤ now) : (w.hasten t).isRunnable now = w.isRunnable now := by
  rw [Bool.eq_iff_iff, isRunnable_iff, isRunnable_iff, hasten_called, hasten_timer hle]

theorem hasten_of_asleep (h : w.isRunnable t = false) : w.hasten t = w := by
  unfold hasten
  rw [if_neg]
  simp [any_timer, (asleep_iff.mp h).2]

theorem asleep_before (h : w.isRunnable now = false) (hle : t ≤ now) : w.isRunnable t = false := by
  rw [asleep_iff] at h ⊢
  exact ⟨h.1, sleepsPast_of_le hle h.2⟩

theorem any_sleepsPast {v : Waiter} (hcome : v.timer.any (· ≤ t) = true)
    (hpast : w.sleepsPast t = true) : v.timer.any w.sleepsPast = true := by
  obtain ⟨date, hdate, hle⟩ := (Option.any_eq_true _ _).mp hcome
  exact (Option.any_eq_true _ _).mpr ⟨date, hdate, sleepsPast_of_le (of_decide_eq_true hle) hpast⟩

theorem isAheadOf_hasten {v : Waiter} (h : w.isRunnable t = false) :
    (v.hasten t).isAheadOf w = v.isAheadOf w := by
  have hpast := (asleep_iff.mp h).2
  unfold isAheadOf
  rw [hasten_called]
  congr 1
  unfold hasten
  split
  · rename_i hcome
    simp [any_sleepsPast hcome hpast, sleepsPast_of_le (Nat.zero_le t) hpast]
  · rfl

theorem exists_instant (hw : w.isRunnable t = false) (dates : List Nat) :
    ∃ now, t ≤ now ∧ w.isRunnable now = false ∧
      ∀ date ∈ dates, w.sleepsPast date = true → date ≤ now := by
  obtain ⟨hcalled, hpast⟩ := asleep_iff.mp hw
  cases htimer : w.timer with
  | none =>
    refine ⟨t + dates.sum, Nat.le_add_right _ _, ?_, fun date hdate _ => ?_⟩
    · exact asleep_iff.mpr ⟨hcalled, by simp [sleepsPast, htimer]⟩
    · have := List.le_sum_of_mem hdate
      omega
  | some wakes =>
    have hlater : t < wakes := by simpa [sleepsPast, htimer] using hpast
    refine ⟨wakes - 1, by omega, ?_, fun date _ hpast => ?_⟩
    · refine asleep_iff.mpr ⟨hcalled, ?_⟩
      simp [sleepsPast, htimer]
      omega
    · have : date < wakes := by simpa [sleepsPast, htimer] using hpast
      omega

/-- One that may look again counts once for one that sleeps on: it has been called, or it is ahead. -/
theorem counts_once {v : Waiter} (hv : v.isRunnable now = true) (hw : w.isRunnable now = false) :
    (if v.called = true then 1 else 0) + (if v.isAheadOf w = true then 1 else 0) = 1 := by
  cases hcalled : v.called with
  | true => simp [isAheadOf, hcalled]
  | false =>
    have hcome : v.timer.any (· ≤ now) = true := by
      rcases (v.isRunnable_iff now).mp hv with h | h
      · simp [hcalled] at h
      · exact h
    simp [isAheadOf, hcalled, any_sleepsPast hcome (asleep_iff.mp hw).2]

end Waiter

theorem forall_split_cons {P : Waiter → List Waiter → Prop} {v : Waiter} {ws : List Waiter} :
    (∀ front w back, v :: ws = front ++ w :: back → P w back) ↔
      P v ws ∧ ∀ front w back, ws = front ++ w :: back → P w back := by
  constructor
  · intro h
    exact ⟨h [] v ws rfl, fun front w back hws => h (v :: front) w back (by rw [hws]; rfl)⟩
  · rintro ⟨hv, hws⟩ front w back heq
    rcases List.cons_eq_append_iff.mp heq with ⟨-, hfirst⟩ | ⟨front', -, hrest⟩
    · obtain ⟨rfl, rfl⟩ := List.cons.inj hfirst
      exact hv
    · exact hws front' w back hrest

/-- A guard from an instant on says nothing of those whose date has come by then. -/
theorem guarded_hasten {dates : List Nat} {n t : Nat} {ws : List Waiter} :
    Guarded dates n (ws.map (·.hasten t)) ↔
      ∀ front w back, ws = front ++ w :: back → w.isRunnable t = false →
        dates.countP w.sleepsPast ≤ n + back.countP (·.isAheadOf w) := by
  induction ws with
  | nil => simp [Guarded]
  | cons v ws ih =>
    rw [forall_split_cons (P := fun w back => w.isRunnable t = false →
      dates.countP w.sleepsPast ≤ n + back.countP (·.isAheadOf w)), List.map_cons, Guarded, ih]
    refine and_congr_left fun _ => ?_
    cases hv : v.isRunnable t with
    | false =>
      have hcalled : v.called = false := (Waiter.asleep_iff.mp hv).1
      have hahead : (fun w : Waiter => w.isAheadOf v) ∘ Waiter.hasten t = (·.isAheadOf v) := by
        funext w
        exact Waiter.isAheadOf_hasten hv
      rw [Waiter.hasten_of_asleep hv, List.countP_map, hahead]
      simp [hcalled]
    | true =>
      refine ⟨fun _ h => by simp at h, fun _ hcalled => ?_⟩
      rw [Waiter.hasten_called] at hcalled
      have hcome : v.timer.any (· ≤ t) = true := by
        rcases (v.isRunnable_iff t).mp hv with h | h
        · simp [hcalled] at h
        · exact h
      have hnone : dates.countP (v.hasten t).sleepsPast = 0 := by
        simp [Waiter.hasten, hcome, Waiter.sleepsPast]
      omega

namespace Outbox

variable {o : Outbox} {t : Nat}

def hasten (o : Outbox) (t : Nat) : Outbox := { o with waiters := o.waiters.map (·.hasten t) }

def Act.instant? (a : Act) : Option Nat := a.putting?.or (a.taking?.map (·.2))

theorem callFirst?_hasten (ws : List Waiter) :
    callFirst? (ws.map (·.hasten t)) = (callFirst? ws).map (·.map (·.hasten t)) := by
  induction ws with
  | nil => rfl
  | cons w ws ih =>
    rw [List.map_cons, callFirst?, callFirst?, Waiter.hasten_called, ih]
    split
    · cases callFirst? ws <;> rfl
    · simp

theorem notify_hasten : (o.hasten t).notify = o.notify.hasten t := by
  unfold notify hasten
  dsimp only
  rw [callFirst?_hasten]
  cases callFirst? o.waiters <;> rfl

theorem insert_hasten (u : Task) :
    (o.hasten t).insert u = ((o.insert u).1, (o.insert u).2.hasten t) := by
  unfold insert
  have hs : (o.hasten t).schedule = o.schedule := rfl
  rw [hs]
  cases o.schedule.insert? u with
  | none => rfl
  | some s => exact congrArg (Prod.mk true) (notify_hasten (o := { o with schedule := s }))

theorem enqueue_hasten (p : Path) (d : Destination) (wall : Timestamp) (now : Nat) :
    ((o.hasten t).enqueue p d wall now).2 = (o.enqueue p d wall now).2.hasten t := by
  unfold enqueue
  split
  · rfl
  · rw [insert_hasten]

theorem enqueueAll_hasten (d : Destination) (wall : Timestamp) (now : Nat) (ps : List Path) :
    (enqueueAll d wall now (o.hasten t) ps).2 = (enqueueAll d wall now o ps).2.hasten t := by
  induction ps generalizing o with
  | nil => rfl
  | cons p rest ih => simp only [enqueueAll, enqueue_hasten, ih]

theorem release_hasten (taker : Nat) : (o.hasten t).release taker = (o.release taker).hasten t := by
  simp only [release, hasten, List.filter_map, Function.comp_def, Waiter.hasten_taker]

theorem waiter?_hasten (taker : Nat) :
    (o.hasten t).waiter? taker = (o.waiter? taker).map (·.hasten t) := by
  simp only [waiter?, hasten, List.find?_map, Function.comp_def, Waiter.hasten_taker]

theorem leave_hasten (taker : Nat) : (o.hasten t).leave taker = (o.leave taker).hasten t := by
  unfold leave
  rw [waiter?_hasten, release_hasten, notify_hasten]
  cases o.waiter? taker with
  | none => rfl
  | some w =>
    simp only [Option.map_some, Waiter.hasten_called]
    split <;> rfl

theorem look_hasten (h : o.schedule.Sound) (taker : Nat) {now : Nat} (hle : t ≤ now) :
    ((o.hasten t).look taker now).2 = (o.look taker now).2.hasten t := by
  have hs : (o.hasten t).schedule = o.schedule := rfl
  unfold look
  rw [hs]
  rcases h.takeDue_cases now with
    ⟨-, hd⟩ | ⟨k, rest, -, hlater, hd⟩ | ⟨k, rest, s, -, -, hd, -⟩
  · simp [hd, park, hasten, Waiter.hasten]
  · have : ¬ k.task.due ≤ t := by omega
    simp [hd, park, hasten, Waiter.hasten, this]
  · simp [hd, hasten]

theorem act_hasten (h : o.schedule.Sound) {a : Act} (hle : ∀ now ∈ a.instant?, t ≤ now) :
    (o.hasten t).act a = (o.act a).hasten t := by
  cases a with
  | enqueue p d wall now => exact enqueue_hasten p d wall now
  | requeue u delay now => exact congrArg Prod.snd (insert_hasten _)
  | scan tree d dir wall now => exact enqueueAll_hasten d wall now _
  | takeDue now =>
    have hs : (o.hasten t).schedule = o.schedule := rfl
    simp only [act, takeDue, hs]
    split <;> rfl
  | look taker now => exact look_hasten h taker (hle now rfl)
  | resume taker now atDate =>
    cases atDate with
    | true =>
      simp only [act, resume, if_true, leave_hasten]
      exact look_hasten (by rw [leave_schedule]; exact h) taker (hle now rfl)
    | false =>
      simp only [act, resume, Bool.false_eq_true, if_false, release_hasten]
      exact look_hasten (by rw [release_schedule]; exact h) taker (hle now rfl)
  | leave taker => exact leave_hasten taker

theorem mayLeave_hasten (taker : Nat) : (o.hasten t).mayLeave taker = o.mayLeave taker := by
  unfold mayLeave
  rw [waiter?_hasten, release_hasten]
  cases o.waiter? taker with
  | none => rfl
  | some w => simp [hasten, Function.comp_def]

theorem permits_hasten {a : Act} (hle : ∀ now ∈ a.instant?, t ≤ now) :
    (o.hasten t).permits a = o.permits a := by
  cases a with
  | look taker now =>
    simp only [permits, isWaiting, waiter?_hasten]
    cases o.waiter? taker <;> rfl
  | resume taker now atDate =>
    simp only [permits, waiter?_hasten]
    cases o.waiter? taker with
    | none => rfl
    | some w =>
      have hnow : t ≤ now := hle now rfl
      simp only [Option.map_some, Waiter.hasten_isRunnable hnow, Waiter.hasten_timer hnow]
  | leave taker => exact mayLeave_hasten taker
  | enqueue p d wall now | requeue u delay now | scan tree d dir wall now | takeDue now => rfl

theorem after_hasten (h : o.schedule.Sound) {acts : List Act}
    (hle : ∀ a ∈ acts, ∀ now ∈ a.instant?, t ≤ now) :
    (o.hasten t).after acts = (o.after acts).hasten t ∧
      (o.hasten t).permitsAll acts = o.permitsAll acts := by
  induction acts generalizing o with
  | nil => exact ⟨rfl, rfl⟩
  | cons a rest ih =>
    have hfirst := hle a (by simp)
    obtain ⟨hafter, hpermits⟩ := ih (sound_act h a) fun b hb => hle b (by simp [hb])
    rw [permitsAll, permitsAll, permits_hasten hfirst, act_hasten h hfirst, hpermits]
    refine ⟨?_, rfl⟩
    rw [after, List.foldl_cons, act_hasten h hfirst]
    exact hafter

/-- Each waiter that sleeps on at an instant is minded: before it wakes no more tasks fall due than there
are calls that have been made and waiters behind it that wake before it. -/
def Minded (o : Outbox) (t : Nat) : Prop :=
  ∀ front w back, o.waiters = front ++ w :: back → w.isRunnable t = false →
    o.tasks.countP (w.sleepsPast ·.due) ≤ o.called + back.countP (·.isAheadOf w)

theorem called_hasten : (o.hasten t).called = o.called := by
  rw [called, called, hasten, List.countP_map]
  exact List.countP_congr fun w _ => by simp

theorem dates_eq (o : Outbox) : o.dates = o.tasks.map (·.due) := by
  rw [dates, tasks_eq, List.map_map]
  rfl

theorem nodup_hasten (h : (o.waiters.map (·.taker)).Nodup) :
    ((o.hasten t).waiters.map (·.taker)).Nodup := by
  simpa [hasten, Function.comp_def] using h

theorem minded_iff (h : o.schedule.Sound) (htakers : (o.waiters.map (·.taker)).Nodup) :
    o.Minded t ↔ (o.hasten t).Watched 0 := by
  have hguarded : o.Minded t ↔ Guarded o.dates o.called (o.waiters.map (·.hasten t)) := by
    rw [guarded_hasten, dates_eq]
    simp only [List.countP_map, Function.comp_def]
    rfl
  rw [hguarded, ← called_hasten (t := t)]
  exact ⟨fun hg => ⟨h, nodup_hasten htakers, hg⟩, fun hw => hw.guarded⟩

/-- As long as nobody has given up who is missed, everybody is minded. -/
theorem Watched.minded (h : o.Watched 0) (t : Nat) : o.Minded t := by
  intro front w back hws hasleep
  have hcalled : w.called = false := (Waiter.asleep_iff.mp hasleep).1
  have hguarded := h.guarded
  rw [hws] at hguarded
  have hclause := hguarded.suffix.1 hcalled
  rwa [dates_eq, List.countP_map] at hclause

/-- If somebody waits and nobody may look again, some waiter wakes by itself no later than any task falls
due. -/
def WakesInTime (o : Outbox) (now : Nat) : Prop :=
  (∀ w ∈ o.waiters, w.isRunnable now = false) → o.waiters ≠ [] → o.tasks ≠ [] →
    ∃ w ∈ o.waiters, ∃ date, w.timer = some date ∧ ∀ u ∈ o.tasks, date ≤ u.due

/-- Nobody waits on while a task is due: somebody may look again. -/
def Serves (o : Outbox) (now : Nat) : Prop :=
  o.waiters ≠ [] → (∃ u ∈ o.tasks, u.due ≤ now) → ∃ w ∈ o.waiters, w.isRunnable now = true

theorem WakesInTime.serves {now : Nat} (h : o.WakesInTime now) : o.Serves now := by
  rintro hwaits ⟨u, hu, hdue⟩
  by_contra hnobody
  have hnone : ∀ w ∈ o.waiters, w.isRunnable now = false := by
    intro w hw
    rw [← Bool.not_eq_true]
    exact fun hrunnable => hnobody ⟨w, hw, hrunnable⟩
  obtain ⟨w, hw, date, htimer, hdate⟩ := h hnone hwaits (List.ne_nil_of_mem hu)
  have hcome : w.timer.any (· ≤ now) = true := by
    have := hdate u hu
    simp [htimer]
    omega
  exact hnobody ⟨w, hw, (w.isRunnable_iff now).mpr (.inr hcome)⟩

theorem wakesInTime_of_hasten {now : Nat} (h : (o.hasten t).Watched 0) (hle : t ≤ now) :
    o.WakesInTime now := by
  intro hasleep hwaits hpending
  have hsame : o.hasten t = o := by
    have hwaiters : o.waiters.map (·.hasten t) = o.waiters := by
      rw [List.map_congr_left (g := id), List.map_id]
      intro w hw
      exact Waiter.hasten_of_asleep (Waiter.asleep_before (hasleep w hw) hle)
    rw [hasten, hwaiters]
  rw [hsame] at h
  refine h.wakes ?_ hwaits hpending
  intro w hw
  exact (Waiter.asleep_iff.mp (hasleep w hw)).1

/-- The acts come one after the other from one instant to another: the clock does not go back. -/
def passes (t now : Nat) : List Act → Bool
  | [] => t ≤ now
  | a :: rest => t ≤ a.instant?.getD t && passes (a.instant?.getD t) now rest

theorem le_of_passes {now : Nat} {acts : List Act} (h : passes t now acts = true) :
    t ≤ now ∧ ∀ a ∈ acts, ∀ time ∈ a.instant?, t ≤ time := by
  induction acts generalizing t with
  | nil => simpa [passes] using h
  | cons a rest ih =>
    simp only [passes, Bool.and_eq_true, decide_eq_true_eq] at h
    obtain ⟨hfirst, hrest⟩ := h
    obtain ⟨hnow, hall⟩ := ih hrest
    refine ⟨by omega, fun b hb time htime => ?_⟩
    rcases List.mem_cons.mp hb with rfl | hb
    · rwa [Option.mem_def.mp htime, Option.getD_some] at hfirst
    · have := hall b hb time htime
      omega

theorem passes_of_instants {now : Nat} (hle : t ≤ now) {acts : List Act}
    (h : ∀ a ∈ acts, a.instant? = some now) : passes t now acts = true := by
  induction acts generalizing t with
  | nil => simpa [passes] using hle
  | cons a rest ih =>
    rw [passes, h a (by simp), Option.getD_some, ih (Nat.le_refl now) fun b hb => h b (by simp [hb])]
    simpa using hle

/-- Takers may also give up whenever they like. -/
def allows (o : Outbox) : Act → Bool
  | .leave _ => true
  | a => o.permits a

def allowsAll (o : Outbox) : List Act → Bool
  | [] => true
  | a :: rest => o.allows a && (o.act a).allowsAll rest

theorem watched_after {n : Nat} (h : o.Watched n) {acts : List Act} (ha : o.allowsAll acts = true) :
    ∃ m, (o.after acts).Watched m := by
  induction acts generalizing o n with
  | nil => exact ⟨n, h⟩
  | cons a rest ih =>
    rw [allowsAll, Bool.and_eq_true] at ha
    have hstep : ∃ m, (o.act a).Watched m := by
      cases a with
      | leave taker => exact ⟨n + 1, h.leave taker⟩
      | _ => exact ⟨n, h.act ha.1⟩
    obtain ⟨m, hm⟩ := hstep
    exact ih hm ha.2

def longName (n : Nat) : Bytes := List.replicate (n + 1) 0x61

theorem isName_longName (n : Nat) : Path.IsName (longName n) := by
  have hhead : (longName n).head? = some 0x61 := by simp [longName, List.replicate_succ]
  refine ⟨by simp [longName], ?_, ?_, ?_⟩
  · intro hm
    exact absurd (List.eq_of_mem_replicate hm) (by decide)
  · intro h
    rw [h] at hhead
    exact absurd hhead (by decide)
  · intro h
    rw [h] at hhead
    exact absurd hhead (by decide)

theorem exists_fresh (o : Outbox) : ∃ p : Path, p.isEmpty = false ∧ o.contains p = false := by
  have hinj : Function.Injective fun n => Path.components ⟨Path.extend [] (longName n)⟩ := by
    intro m n (hmn : Path.components _ = Path.components _)
    have hm := Path.fileName_extend [] (isName_longName m)
    have hn := Path.fileName_extend [] (isName_longName n)
    unfold Path.fileName at hm hn
    rw [hmn, hn] at hm
    have := congrArg List.length (Option.some.inj hm)
    simp [longName] at this
    omega
  obtain ⟨c, ⟨n, rfl⟩, hc⟩ :=
    (Set.infinite_range_of_injective hinj).exists_notMem_finite o.schedule.paths.finite_toSet
  refine ⟨⟨Path.extend [] (longName n)⟩, by simp [Path.isEmpty, Path.extend, longName], ?_⟩
  simpa [contains, Schedule.contains] using hc

/-- A waiter sleeps on past dates that come by now, of which there are more than calls made and waiters
behind it that wake before it. -/
structure Forgotten (o : Outbox) (now : Nat) (front : List Waiter) (w : Waiter) (back : List Waiter) :
    Prop where
  watched : ∃ n, o.Watched n
  waiters : o.waiters = front ++ w :: back
  asleep : w.isRunnable now = false
  due : ∀ date ∈ o.dates, w.sleepsPast date = true → date ≤ now
  missed : o.called + back.countP (·.isAheadOf w) < o.dates.countP w.sleepsPast

variable {now : Nat} {front back : List Waiter} {w u : Waiter}

theorem Forgotten.exists_due (h : o.Forgotten now front w back) :
    ∃ date ∈ o.dates, w.sleepsPast date = true ∧ date ≤ now := by
  obtain ⟨date, hdate, hpast⟩ := List.countP_pos_iff.mp (Nat.zero_lt_of_lt h.missed)
  exact ⟨date, hdate, hpast, h.due date hdate hpast⟩

theorem Forgotten.resume (h : o.Forgotten now front w back) {front' back' : List Waiter}
    {before behind : List Waiter} (hws : o.waiters = before ++ u :: behind)
    (hleft : before ++ behind = front' ++ w :: back') (hu : u.isRunnable now = true)
    (hcount : o.called + back.countP (·.isAheadOf w) =
      (front' ++ w :: back').countP (·.called) + back'.countP (·.isAheadOf w) + 1) :
    o.permits (.resume u.taker now false) = true ∧
      (o.act (.resume u.taker now false)).Forgotten now front' w back' := by
  obtain ⟨n, hwatched⟩ := h.watched
  obtain ⟨hfound, hreleased⟩ := release_of_split hwatched.takers hws
  have hpermits : o.permits (.resume u.taker now false) = true := by
    simp [permits, hfound, hu]
  refine ⟨hpermits, ?_⟩
  have hnext := hwatched.act hpermits
  obtain ⟨date, hdate, hpast, hcome⟩ := h.exists_due
  rcases look_cases (o := o.release u.taker) hwatched.sound u.taker now with
    ⟨k, rest, s, hl, hd, hlook, -, hr, -⟩ | ⟨hlater, -⟩
  · have hact : o.act (.resume u.taker now false) = { o.release u.taker with schedule := s } :=
      congrArg Prod.snd hlook
    rw [hact] at hnext ⊢
    have hdates : o.dates = k.task.due :: ({ o.release u.taker with schedule := s } : Outbox).dates := by
      have hl : o.tickets = k :: rest := hl
      rw [dates, hl, dates, tickets, hr]
      rfl
    have hfirst : w.sleepsPast k.task.due = true :=
      Waiter.sleepsPast_of_le hd (Waiter.asleep_iff.mp h.asleep).2
    refine ⟨⟨n, hnext⟩, hreleased.trans hleft, h.asleep, ?_, ?_⟩
    · intro d hd
      exact h.due d (by simp [hdates, hd])
    · have hcalled : ({ o.release u.taker with schedule := s } : Outbox).called =
          (front' ++ w :: back').countP (·.called) := by
        rw [called, ← hleft, ← hreleased]
      have hmissed := h.missed
      rw [hdates, List.countP_cons_of_pos hfirst, hcount] at hmissed
      rw [hcalled]
      omega
  · obtain ⟨k, hk, rfl⟩ := List.mem_map.mp hdate
    have := hlater k hk
    omega

theorem Forgotten.call (h : o.Forgotten now (u :: front) w back) (hu : u.called = false) :
    ∃ p, (o.act (.enqueue p (.ofEndpoint "u") .epoch now)).Forgotten now
      ({ u with called := true } :: front) w back := by
  obtain ⟨p, hp, hfresh⟩ := o.exists_fresh
  obtain ⟨n, hwatched⟩ := h.watched
  refine ⟨p, ?_⟩
  have hnext := hwatched.enqueue p (.ofEndpoint "u") .epoch now
  have henabled : (p.isEmpty || ! (Destination.ofEndpoint "u").isEnabled) = false := by
    rw [hp]
    decide
  rcases insert_cases hwatched.sound (Task.fresh p (.ofEndpoint "u") .epoch now) with
    ⟨hc, -⟩ | ⟨s, -, hi, -, ht, -⟩
  · exact absurd (hfresh.symm.trans hc) (by decide)
  · have hact : o.act (.enqueue p (.ofEndpoint "u") .epoch now) =
        ({ o with schedule := s } : Outbox).notify := by
      simp [act, enqueue, henabled, hi]
    have hwaiters : ({ o with schedule := s } : Outbox).notify.waiters =
        { u with called := true } :: (front ++ w :: back) := by
      simp [notify, h.waiters, callFirst?, hu]
    have hdates : (({ o with schedule := s } : Outbox).notify.dates).Perm (now :: o.dates) := by
      rw [dates, tickets, notify_schedule]
      show (s.tickets.map _).Perm _
      rw [ht]
      exact (perm_place _).map _
    have hpast : w.sleepsPast now = true := (Waiter.asleep_iff.mp h.asleep).2
    rw [hact]
    refine ⟨⟨n, by rw [← hact]; exact hnext⟩, hwaiters, h.asleep, ?_, ?_⟩
    · intro d hd hsleeps
      rcases List.mem_cons.mp (hdates.mem_iff.mp hd) with rfl | hd
      · exact Nat.le_refl d
      · exact h.due d hd hsleeps
    · have hmissed := h.missed
      rw [called, h.waiters] at hmissed
      rw [called, hwaiters, hdates.countP_eq, List.countP_cons_of_pos hpast]
      simp [hu] at hmissed ⊢
      omega

/-- What can be done at one instant so that a waiter is left for whom a task that is due stays. -/
def Strands (o : Outbox) (now : Nat) (acts : List Act) : Prop :=
  o.permitsAll acts = true ∧ (∀ a ∈ acts, a.instant? = some now) ∧ ¬ (o.after acts).Serves now

theorem Strands.cons {a : Act} {acts : List Act} (ha : o.permits a = true)
    (hnow : a.instant? = some now) (h : (o.act a).Strands now acts) : o.Strands now (a :: acts) := by
  refine ⟨by rw [permitsAll, ha, h.1]; rfl, ?_, h.2.2⟩
  intro b hb
  rcases List.mem_cons.mp hb with rfl | hb
  · exact hnow
  · exact h.2.1 b hb

/-- Those behind the forgotten waiter who may look again do so. -/
theorem Forgotten.strands_behind (h : o.Forgotten now [] w back) : ∃ acts, o.Strands now acts := by
  induction hlen : back.length using Nat.strong_induction_on generalizing o back with
  | _ n ih =>
  by_cases hsomebody : ∃ u ∈ back, u.isRunnable now = true
  · obtain ⟨u, hu, hrunnable⟩ := hsomebody
    obtain ⟨before, behind, rfl⟩ := List.append_of_mem hu
    have honce := Waiter.counts_once hrunnable h.asleep
    have hwaiters : o.waiters = w :: before ++ u :: behind := h.waiters
    have hleft : w :: before ++ behind = [] ++ w :: (before ++ behind) := rfl
    obtain ⟨hpermits, hnext⟩ := h.resume hwaiters hleft hrunnable (by
      rw [called, h.waiters]
      simp only [List.nil_append, List.countP_append, List.countP_cons]
      omega)
    obtain ⟨acts, hacts⟩ := ih _ (by rw [← hlen]; simp) hnext rfl
    exact ⟨_, hacts.cons hpermits rfl⟩
  · refine ⟨[], rfl, by simp, fun hserves => ?_⟩
    obtain ⟨date, hdate, -, hcome⟩ := h.exists_due
    rw [dates_eq] at hdate
    obtain ⟨task, htask, rfl⟩ := List.mem_map.mp hdate
    have hwaits : o.waiters ≠ [] := by simp [h.waiters]
    obtain ⟨u, hu, hrunnable⟩ := hserves hwaits ⟨task, htask, hcome⟩
    have hu : u ∈ o.waiters := hu
    rw [h.waiters] at hu
    rcases List.mem_cons.mp hu with rfl | hu
    · simp [h.asleep] at hrunnable
    · exact hsomebody ⟨u, hu, hrunnable⟩

/-- The waiters before it are called by new tasks and look again. -/
theorem Forgotten.strands (h : o.Forgotten now front w back) : ∃ acts, o.Strands now acts := by
  induction front generalizing o with
  | nil => exact h.strands_behind
  | cons u front ih =>
    have hcalled {o : Outbox} {u : Waiter} (h : o.Forgotten now (u :: front) w back)
        (hu : u.called = true) : ∃ acts, o.Strands now acts := by
      have hrunnable : u.isRunnable now = true := (u.isRunnable_iff now).mpr (.inl hu)
      have hwaiters : o.waiters = [] ++ u :: (front ++ w :: back) := h.waiters
      obtain ⟨hpermits, hnext⟩ := h.resume hwaiters rfl hrunnable (by
        rw [called, h.waiters]
        simp [hu]
        omega)
      obtain ⟨acts, hacts⟩ := ih hnext
      exact ⟨_, hacts.cons hpermits rfl⟩
    cases hu : u.called with
    | true => exact hcalled h hu
    | false =>
      obtain ⟨p, hnext⟩ := h.call hu
      obtain ⟨acts, hacts⟩ := hcalled hnext rfl
      exact ⟨_, hacts.cons rfl rfl⟩

theorem exists_strands {n : Nat} (h : o.Watched n) (hnot : ¬ o.Minded t) :
    ∃ now acts, t ≤ now ∧ o.Strands now acts := by
  simp only [Minded, not_forall, not_le] at hnot
  obtain ⟨front, w, back, hws, hasleep, hmissed⟩ := hnot
  obtain ⟨now, hle, hsleeps, hdates⟩ := Waiter.exists_instant hasleep o.dates
  have hforgotten : o.Forgotten now front w back := by
    refine ⟨⟨n, h⟩, hws, hsleeps, hdates, ?_⟩
    rw [dates_eq, List.countP_map]
    exact hmissed
  obtain ⟨acts, hacts⟩ := hforgotten.strands
  exact ⟨now, acts, hle, hacts⟩

theorem Minded.wakesInTime {n : Nat} (h : o.Watched n) (hminded : o.Minded t) {acts : List Act}
    (ha : o.permitsAll acts = true) {now : Nat} (hnow : passes t now acts = true) :
    (o.after acts).WakesInTime now := by
  obtain ⟨hle, hinstants⟩ := le_of_passes hnow
  obtain ⟨hafter, hpermits⟩ := after_hasten h.sound hinstants
  have hwatched := ((minded_iff h.sound h.takers).mp hminded).after (hpermits.trans ha)
  rw [hafter] at hwatched
  exact wakesInTime_of_hasten hwatched hle

/-- A taker gives up waiting, in any state that takers can bring about. All tasks stay as they are. As
long as nobody gave up who was missed everybody is minded, and still is if this one passes its call on or
leaves only such behind as have been called. Just when everybody who goes on waiting is minded, then from
that instant on, whatever takers and producers do, some waiter wakes in time whenever nobody may look
again, and nobody waits on while a task is due. -/
theorem leave_wakes_iff {past : List Act} (hpast : ({} : Outbox).allowsAll past = true)
    (taker t : Nat) :
    let o := ({} : Outbox).after past
    let left := o.leave taker
    left.tasks = o.tasks ∧
      (({} : Outbox).permitsAll past = true → o.Minded t) ∧
      (o.Minded t → o.mayLeave taker = true → left.Minded t) ∧
      ((∀ acts now, left.permitsAll acts = true → passes t now acts = true →
        (left.after acts).WakesInTime now) ↔ left.Minded t) ∧
      ((∀ acts now, left.permitsAll acts = true → passes t now acts = true →
        (left.after acts).Serves now) ↔ left.Minded t) := by
  intro o left
  obtain ⟨n, hwatched⟩ := watched_after watched_empty hpast
  have hleft : left.Watched (n + 1) := Watched.leave hwatched taker
  have hserved (h : ∀ acts now, left.permitsAll acts = true → passes t now acts = true →
      (left.after acts).Serves now) : left.Minded t := by
    by_contra hnot
    obtain ⟨now, acts, hle, hpermits, hinstants, hstranded⟩ := exists_strands hleft hnot
    exact hstranded (h acts now hpermits (passes_of_instants hle hinstants))
  refine ⟨?_, ?_, ?_, ⟨fun h => hserved fun acts now ha hnow => (h acts now ha hnow).serves, ?_⟩,
    ⟨hserved, ?_⟩⟩
  · rw [tasks_eq, tasks_eq, tickets, leave_schedule]
  · intro hpermits
    exact (watched_empty.after hpermits).minded t
  · intro hminded hmay
    rw [minded_iff hwatched.sound hwatched.takers] at hminded
    rw [minded_iff hleft.sound hleft.takers, ← leave_hasten]
    exact hminded.mayLeave (by rw [mayLeave_hasten]; exact hmay)
  · intro hminded acts now ha hnow
    exact hminded.wakesInTime hleft ha hnow
  · intro hminded acts now ha hnow
    exact (hminded.wakesInTime hleft ha hnow).serves

/-- Two takers wait, and a task that failed comes back after a delay. The first, who is called, looks too
early and waits for the date, behind the other. -/
def rearmed : List Act :=
  [.look 0 0, .look 1 0, .requeue (.fresh (.ofText "a") (.ofEndpoint "u") .epoch 5) 100 6,
    .resume 0 7 false]

/-- The one without a timer may give up. -/
theorem leave_wakes_rearmed :
    let left := (({} : Outbox).after rearmed).leave 1
    ({} : Outbox).allowsAll rearmed = true ∧ left.waiters = [⟨0, some 106, false⟩] ∧
      ∀ acts now, left.permitsAll acts = true → passes 8 now acts = true →
        (left.after acts).WakesInTime now := by
  have hpast : ({} : Outbox).allowsAll rearmed = true := by cbv
  have hwaiters : ((({} : Outbox).after rearmed).leave 1).waiters = [⟨0, some 106, false⟩] := by cbv
  have htasks : ((({} : Outbox).after rearmed).leave 1).tasks.map (·.due) = [106] := by cbv
  refine ⟨hpast, hwaiters, ((leave_wakes_iff hpast 1 8).2.2.2.1).mpr ?_⟩
  intro front w back hws _
  rw [hwaiters, List.singleton_eq_append_iff] at hws
  obtain ⟨-, rfl, -⟩ : front = [] ∧ w = ⟨0, some 106, false⟩ ∧ back = [] := by simpa using hws
  have hnone : ((({} : Outbox).after rearmed).leave 1).tasks.countP
      (Waiter.sleepsPast ⟨0, some 106, false⟩ ·.due) = 0 := by
    have := List.countP_map (p := Waiter.sleepsPast ⟨0, some 106, false⟩) (f := Task.due)
      (l := ((({} : Outbox).after rearmed).leave 1).tasks)
    rw [htasks] at this
    exact this.symm
  rw [hnone]
  exact Nat.zero_le _

/-- If the other gives up, who was called, nobody wakes for the task. -/
theorem leave_strands_rearmed :
    let o := ({} : Outbox).after rearmed
    let left := o.leave 0
    ({} : Outbox).permitsAll rearmed = true ∧ o.waiters = [⟨1, none, false⟩, ⟨0, some 106, false⟩] ∧
      left.tasks = o.tasks ∧ left.tasks.map (·.due) = [106] ∧
      left.waiters = [⟨1, none, false⟩] ∧ (∀ now, ¬ left.WakesInTime now) ∧ ¬ left.Serves 106 := by
  have hwaiters : ((({} : Outbox).after rearmed).leave 0).waiters = [⟨1, none, false⟩] := by cbv
  have htasks : ((({} : Outbox).after rearmed).leave 0).tasks.map (·.due) = [106] := by cbv
  have hasleep (now : Nat) : ∀ w ∈ ((({} : Outbox).after rearmed).leave 0).waiters,
      w.isRunnable now = false := by
    rw [hwaiters]
    simp [Waiter.isRunnable]
  have hwaits : ((({} : Outbox).after rearmed).leave 0).waiters ≠ [] := by simp [hwaiters]
  refine ⟨by cbv, by cbv, ?_, htasks, hwaiters, fun now h => ?_, fun h => ?_⟩
  · rw [tasks_eq, tasks_eq, tickets, leave_schedule]
  · have hpending : ((({} : Outbox).after rearmed).leave 0).tasks ≠ [] := by
      intro hnil
      simp [hnil] at htasks
    obtain ⟨w, hw, date, htimer, -⟩ := h (hasleep now) hwaits hpending
    rw [hwaiters, List.mem_singleton] at hw
    simp [hw] at htimer
  · obtain ⟨u, hu, hdue⟩ : ∃ u ∈ ((({} : Outbox).after rearmed).leave 0).tasks, u.due = 106 := by
      have hmem : 106 ∈ ((({} : Outbox).after rearmed).leave 0).tasks.map (·.due) := by
        simp [htasks]
      simpa using hmem
    obtain ⟨w, hw, hrunnable⟩ := h hwaits ⟨u, hu, hdue.le⟩
    simp [hasleep 106 w hw] at hrunnable

end Outbox
end RecordingDelivery
