import Mathlib
import RecordingDelivery.Proofs.Spool.Intake
import RecordingDelivery.Spool.Startup

/-!
What the search of all scan targets puts into an outbox. The targets may share directories, nest them
and spell them in different ways: each file that some target selects comes in once, for the first target
that selects it, and what waited before stays.
-/
namespace RecordingDelivery

/-- The destination of a file output that is searched when the program starts. -/
def Output.scanTarget? : Output → Option Destination
  | .file d => if d.endpoint ≠ "" ∧ d.scanAtStart = true then some d else none
  | .other => none

theorem Registry.scanTargets_eq (r : Registry) :
    r.scanTargets =
      (r.devices.flatMap fun device => device.channels.flatMap fun channel =>
        channel.outputs.filterMap Output.scanTarget?) ++
      r.mixers.flatMap fun mixer =>
        if mixer.enabled then mixer.channel.outputs.filterMap Output.scanTarget? else [] := by
  have houtput (output : Output) :
      output.destination?.filter (·.wantsScan) = output.scanTarget? := by
    cases output with
    | file d =>
      simp [Output.destination?, Output.scanTarget?, Destination.wantsScan, Destination.isEnabled,
        Option.filter]
    | other => rfl
  have hchannel (c : Channel) : (c.outputs.filterMap Output.destination?).filter (·.wantsScan) =
      c.outputs.filterMap Output.scanTarget? := by
    rw [List.filter_filterMap]
    simp only [houtput]
  rw [scanTargets, destinations, activeChannels, List.filter_flatMap]
  simp only [hchannel]
  rw [List.flatMap_append, List.flatMap_assoc]
  refine congrArg (_ ++ ·) ?_
  induction r.mixers with
  | nil => rfl
  | cons mixer rest ih => cases henabled : mixer.enabled <;> simp [henabled, ih]

theorem filter_parts {α : Type} {due : α → Nat} {now : Nat} {front back : List α}
    (hfront : ∀ a ∈ front, due a ≤ now) (hback : ∀ a ∈ back, now < due a) :
    (front ++ back).filter (due · ≤ now) = front ∧ (front ++ back).filter (now < due ·) = back := by
  have hdue : front.filter (due · ≤ now) = front := by
    rw [List.filter_eq_self]
    simpa using hfront
  have hlater : back.filter (now < due ·) = back := by
    rw [List.filter_eq_self]
    simpa using hback
  constructor
  · rw [List.filter_append, hdue, List.append_right_eq_self, List.filter_eq_nil_iff]
    simpa using hback
  · rw [List.filter_append, hlater, List.append_left_eq_self, List.filter_eq_nil_iff]
    simpa using hfront

/-- A search for the destination takes the file, by some spelling of its path. -/
def Tree.Selects (t : Tree) (d : Destination) (p : Path) : Prop :=
  ∃ names, t.Awaits d d.baseDirectory names ∧ (d.baseDirectory.descend names).same p = true

variable {tree : Tree} {d : Destination} {p q : Path}

theorem Tree.selects_iff (ht : tree.WellFormed) :
    tree.Selects d p ↔ ∃ q ∈ tree.recordings d d.baseDirectory, q.same p = true := by
  rw [Tree.recordings_eq_map]
  simp only [Selects, List.mem_map, Tree.mem_ways ht, exists_exists_and_eq_and]

theorem Tree.Selects.congr (h : tree.Selects d p) (hsame : p.same q = true) : tree.Selects d q := by
  obtain ⟨names, hnames, hp⟩ := h
  refine ⟨names, hnames, ?_⟩
  rw [Path.same_iff] at *
  exact hp.trans hsame

namespace Outbox

variable {o o' o'' : Outbox} {now : Nat} {new new' : List Task}

theorem contains_congr (h : o.schedule.Sound) (hsame : p.same q = true) :
    o.contains p = o.contains q := by
  rw [Bool.eq_iff_iff, contains_iff h, contains_iff h]
  simp only [Path.same_iff] at *
  rw [hsame]

/-- New tasks come in behind all that are due and before all that are not. -/
structure Takes (o o' : Outbox) (now : Nat) (new : List Task) : Prop where
  grows : o.Grows o'
  tasks : o'.tasks = o.tasks.filter (·.due ≤ now) ++ new ++ o.tasks.filter (now < ·.due)
  due : ∀ t ∈ new, t.due = now

theorem takes_nothing (h : o.schedule.Sound) (now : Nat) : o.Takes o now [] :=
  ⟨grows_self h, by simpa using (filter_append_filter o.sorted_tasks now).symm, by simp⟩

theorem Takes.trans (h : o.Takes o' now new) (h' : o'.Takes o'' now new') :
    o.Takes o'' now (new ++ new') := by
  have hdue : ∀ t ∈ o.tasks.filter (·.due ≤ now) ++ new, t.due ≤ now := by
    intro t ht
    rcases List.mem_append.mp ht with ht | ht
    · simpa using List.of_mem_filter ht
    · exact (h.due t ht).le
  have hlater : ∀ t ∈ o.tasks.filter (now < ·.due), now < t.due := by simp
  obtain ⟨hfront, hback⟩ := filter_parts hdue hlater
  refine ⟨h.grows.trans h'.grows, ?_, ?_⟩
  · rw [h'.tasks, h.tasks, hfront, hback, List.append_assoc _ new]
  · intro t ht
    rcases List.mem_append.mp ht with ht | ht
    · exact h.due t ht
    · exact h'.due t ht

theorem Takes.size (h : o.Takes o' now new) : o'.size = o.size + new.length := by
  have hsplit := filter_append_filter o.sorted_tasks now
  calc o'.size = o'.tasks.length := (Schedule.length_toList _).symm
    _ = (o.tasks.filter (·.due ≤ now) ++ o.tasks.filter (now < ·.due)).length + new.length := by
      rw [h.tasks]
      simp only [List.length_append]
      omega
    _ = o.tasks.length + new.length := by rw [hsplit]
    _ = o.size + new.length := congrArg (· + _) (Schedule.length_toList _)

theorem takes_scan (ht : tree.WellFormed) (h : o.schedule.Sound) (d : Destination) (dir : Path)
    (wall : Timestamp) (now : Nat) :
    o.Takes (o.scan tree d dir wall now).2 now
      ((o.newWays tree d dir).map fun names => Task.fresh (dir.descend names) d wall now) := by
  refine ⟨grows_enqueueAll h d wall now _, (scan_tasks ht h d dir wall now).2, ?_⟩
  intro t ht
  obtain ⟨names, -, rfl⟩ := List.mem_map.mp ht
  rfl

theorem filter_same (h : o.schedule.Sound) {t : Task} (ht : t ∈ o.tasks)
    (hp : t.path.same p = true) : o.tasks.filter (·.path.same p) = [t] := by
  have hapart : (o.tasks.map (·.path.components)).Nodup := by
    rw [tasks_eq, List.map_map]
    exact h.apart
  have hfilter : o.tasks.filter (·.path.same p) = o.tasks.filter (· = t) := by
    apply List.filter_congr
    intro u hu
    rw [Bool.eq_iff_iff, decide_eq_true_iff]
    refine ⟨fun hsame => List.inj_on_of_nodup_map hapart hu ht ?_, fun he => he ▸ hp⟩
    rw [Path.same_iff.mp hsame, Path.same_iff.mp hp]
  rw [hfilter, List.filter_eq, List.count_eq_one_of_mem hapart.of_map ht]
  rfl

end Outbox

namespace Site

variable {s : Site} {targets : List Destination}

/-- The task is a file's first attempt for the first target that selects its path. -/
def Finds (s : Site) (targets : List Destination) (p : Path) (t : Task) : Prop :=
  ∃ before d after names, targets = before ++ d :: after ∧
    s.tree.Awaits d d.baseDirectory names ∧ (d.baseDirectory.descend names).same p = true ∧
    t = Task.fresh (d.baseDirectory.descend names) d s.wall s.now ∧
    ∀ earlier ∈ before, ¬ s.tree.Selects earlier p

theorem Finds.congr {t : Task} (h : s.Finds targets p t) (hsame : p.same q = true) :
    s.Finds targets q t := by
  obtain ⟨before, d, after, names, htargets, hnames, hp, ht, hearlier⟩ := h
  refine ⟨before, d, after, names, htargets, hnames, ?_, ht, ?_⟩
  · rw [Path.same_iff] at *
    exact hp.trans hsame
  · intro earlier he hselects
    rw [Path.same_comm] at hsame
    exact hearlier earlier he (hselects.congr hsame)

theorem scanTargets_finds (ht : s.tree.WellFormed) (h : s.outbox.schedule.Sound)
    (htargets : ∀ d ∈ targets, d.isEnabled = true) :
    ∃ (o : Outbox) (new : List Task), s.scanTargets targets = (new.length, { s with outbox := o }) ∧
      s.outbox.Takes o s.now new ∧
      (∀ t ∈ new, s.outbox.contains t.path = false ∧ s.Finds targets t.path t) ∧
      ∀ d ∈ targets, ∀ p, s.tree.Selects d p → o.contains p = true := by
  induction targets generalizing s with
  | nil => exact ⟨s.outbox, [], rfl, Outbox.takes_nothing h s.now, by simp, by simp⟩
  | cons d rest ih =>
    have hd : d.isEnabled = true := htargets d (by simp)
    let o' := (s.outbox.scan s.tree d d.baseDirectory s.wall s.now).2
    have hfirst : s.outbox.Takes o' s.now _ :=
      Outbox.takes_scan ht h d d.baseDirectory s.wall s.now
    have hselected {p : Path} (hp : s.tree.Selects d p) : o'.contains p = true := by
      obtain ⟨q, hq, hsame⟩ := (Tree.selects_iff ht).mp hp
      rw [← Outbox.contains_congr hfirst.grows.1 hsame]
      exact Outbox.contains_of_scan ht h hd hq s.wall s.now
    obtain ⟨o, new, hscan, htakes, hfinds, hcontains⟩ :=
      ih (s := { s with outbox := o' }) ht hfirst.grows.1 fun d' hd' => htargets d' (by simp [hd'])
    have hcount : (s.outbox.scan s.tree d d.baseDirectory s.wall s.now).1 =
        (s.outbox.newWays s.tree d d.baseDirectory).length :=
      (Outbox.scan_tasks ht h d d.baseDirectory s.wall s.now).1
    refine ⟨o, _, ?_, hfirst.trans htakes, ?_, ?_⟩
    · have hrest : ({ s with outbox := o' } : Site).scanTargets rest =
        (new.length, { s with outbox := o }) := hscan
      simp only [scanTargets, scan]
      rw [hrest, hcount, List.length_append, List.length_map]
    · intro t hmem
      rcases List.mem_append.mp hmem with hmem | hmem
      · obtain ⟨names, hnames, rfl⟩ := List.mem_map.mp hmem
        obtain ⟨hawaits, -, habsent⟩ := (Outbox.mem_newWays ht).mp hnames
        exact ⟨habsent, [], d, rest, names, rfl, hawaits, Path.same_refl _, rfl, by simp⟩
      · obtain ⟨habsent, before, d', after, names, hrest, hawaits, hsame, htask, hearlier⟩ :=
          hfinds t hmem
        have hnot : ¬ s.tree.Selects d t.path := by
          intro hselects
          rw [hselected hselects] at habsent
          simp at habsent
        refine ⟨?_, d :: before, d', after, names, by rw [hrest]; rfl, hawaits, hsame, htask, ?_⟩
        · rw [← Bool.not_eq_true]
          intro hwaits
          rw [hfirst.grows.2 _ hwaits] at habsent
          simp at habsent
        · intro earlier he
          rcases List.mem_cons.mp he with rfl | he
          · exact hnot
          · exact hearlier earlier he
    · intro d' hd' p hp
      rcases List.mem_cons.mp hd' with rfl | hd'
      · exact htakes.grows.2 p (hselected hp)
      · exact hcontains d' hd' p hp

/-- Whatever was done to an outbox before, the search of a registry's targets counts what comes in, and
what waited stays as it was. After it each path that some target selects has one task. If the path did
not wait before, this is a first attempt for the first target that selects it, and nothing else comes
in. -/
theorem scanRegistry_first (ht : tree.WellFormed) (acts : List Outbox.Act) (now : Nat)
    (wall : Timestamp) (r : Registry) :
    let s : Site := { outbox := ({} : Outbox).after acts, tree, now, wall }
    let before := s.outbox.tasks
    let scanned := s.scanRegistry r
    let pending := scanned.2.outbox.tasks
    scanned.2 = { s with outbox := scanned.2.outbox } ∧
    scanned.2.outbox.size = s.outbox.size + scanned.1 ∧
    (∃ new : List Task, new.length = scanned.1 ∧
      before = before.filter (·.due ≤ now) ++ before.filter (now < ·.due) ∧
      pending = before.filter (·.due ≤ now) ++ new ++ before.filter (now < ·.due) ∧
      ∀ t ∈ new, s.outbox.contains t.path = false ∧ s.Finds r.scanTargets t.path t) ∧
    (∀ d ∈ r.scanTargets, ∀ p, tree.Selects d p →
      ∃ t, pending.filter (·.path.same p) = [t] ∧
        (s.outbox.contains p = false → s.Finds r.scanTargets p t)) ∧
    r.scanTargets =
      (r.devices.flatMap fun device => device.channels.flatMap fun channel =>
        channel.outputs.filterMap Output.scanTarget?) ++
      r.mixers.flatMap fun mixer =>
        if mixer.enabled then mixer.channel.outputs.filterMap Output.scanTarget? else [] := by
  intro s before scanned pending
  have hsound : s.outbox.schedule.Sound := Outbox.sound_after Schedule.sound_empty acts
  have hsplit := filter_append_filter s.outbox.sorted_tasks now
  have htargets : ∀ d ∈ r.scanTargets, d.isEnabled = true := by
    intro d hd
    have : d.wantsScan = true := List.of_mem_filter hd
    rw [Destination.wantsScan, Bool.and_eq_true] at this
    exact this.1
  obtain ⟨o, new, hscan, htakes, hfinds, hcontains⟩ := scanTargets_finds (s := s) ht hsound htargets
  have hscanned : scanned = (new.length, { s with outbox := o }) := hscan
  have hpending : pending = before.filter (·.due ≤ now) ++ new ++ before.filter (now < ·.due) := by
    show scanned.2.outbox.tasks = _
    rw [hscanned]
    exact htakes.tasks
  refine ⟨by rw [hscanned], by rw [hscanned]; exact htakes.size,
    ⟨new, by rw [hscanned], hsplit.symm, hpending, hfinds⟩, ?_, r.scanTargets_eq⟩
  intro d hd p hp
  have hsound' : o.schedule.Sound := htakes.grows.1
  obtain ⟨t, htask, hsame⟩ := (Outbox.contains_iff hsound' p).mp (hcontains d hd p hp)
  have hall : pending = o.tasks := by
    show scanned.2.outbox.tasks = _
    rw [hscanned]
  refine ⟨t, by rw [hall]; exact Outbox.filter_same hsound' htask hsame, fun habsent => ?_⟩
  have hnew : t ∈ new := by
    have hnot : t ∉ before := by
      intro hmem
      rw [(Outbox.contains_iff hsound p).mpr ⟨t, hmem, hsame⟩] at habsent
      simp at habsent
    rw [← hall, hpending] at htask
    rcases List.mem_append.mp htask with htask | htask
    · exact (List.mem_append.mp htask).resolve_left fun hmem => hnot (List.mem_of_mem_filter hmem)
    · exact absurd (List.mem_of_mem_filter htask) hnot
  exact (hfinds t hnew).2.congr hsame

/-- The directory of a day, in a spelling of its own. -/
def dayTarget : Destination := { endpoint := "u", baseDirectory := .ofText ".//a" }

/-- The whole spool, with the directory of the day in it. -/
def wideTarget : Destination := { endpoint := "v", recurse := true, baseDirectory := .ofText "." }

/-- The wide target is an enabled mixer's. Another mixer is disabled, and another output has no
endpoint. -/
def overlapping : Registry where
  devices := [{ channels := [{ outputs := [.other, .file { wideTarget with endpoint := "" },
    .file dayTarget] }] }]
  mixers := [{ enabled := false, channel := { outputs := [.file wideTarget] } },
    { channel := { outputs := [.file wideTarget] } }]

/-- One recording waits already. Both targets select the other, and it comes in for the first. -/
theorem scanRegistry_first_overlapping :
    let s : Site := { outbox := ({} : Outbox).after [.enqueue (.ofText "./b") wideTarget .epoch 7]
                      tree := Outbox.datedSpool, now := 3 }
    Outbox.datedSpool.WellFormed ∧ overlapping.scanTargets = [dayTarget, wideTarget] ∧
      ∃ t, (s.scanRegistry overlapping).2.outbox.tasks.filter (·.path.same (.ofText "./a/c")) = [t] ∧
        t.destination = dayTarget := by
  intro s
  have ht : Outbox.datedSpool.WellFormed := by decide
  have htargets : overlapping.scanTargets = [dayTarget, wideTarget] := by decide
  have hday : Outbox.datedSpool.Selects dayTarget (.ofText "./a/c") := by
    have hrecordings : Outbox.datedSpool.recordings dayTarget dayTarget.baseDirectory =
        [.ofText ".//a/c"] := by cbv
    rw [Tree.selects_iff ht, hrecordings]
    exact ⟨.ofText ".//a/c", by simp, by cbv⟩
  have hwide : Outbox.datedSpool.Selects wideTarget (.ofText "./a/c") := by
    have hrecordings : Outbox.datedSpool.recordings wideTarget wideTarget.baseDirectory =
        [.ofText "./a/c", .ofText "./b"] := by cbv
    rw [Tree.selects_iff ht, hrecordings]
    exact ⟨.ofText "./a/c", by simp, by cbv⟩
  have habsent : s.outbox.contains (.ofText "./a/c") = false := by cbv
  obtain ⟨-, -, -, hselected, -⟩ := scanRegistry_first ht
    [.enqueue (.ofText "./b") wideTarget .epoch 7] 3 .epoch overlapping
  obtain ⟨t, htask, hfinds⟩ := hselected wideTarget (by simp [htargets]) (.ofText "./a/c") hwide
  refine ⟨ht, htargets, t, htask, ?_⟩
  obtain ⟨before, d, after, names, hsplit, -, -, rfl, hearlier⟩ := hfinds habsent
  rw [htargets] at hsplit
  cases before with
  | nil =>
    obtain ⟨rfl, -⟩ := List.cons.inj hsplit
    rfl
  | cons first before =>
    obtain ⟨rfl, -⟩ := List.cons.inj hsplit
    exact absurd hday (hearlier dayTarget (by simp))

end Site
end RecordingDelivery
