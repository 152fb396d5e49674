import Mathlib
import RecordingDelivery.Proofs.Service.Lifecycle
import RecordingDelivery.Proofs.Spool.Settled

/-!
What another search finds after a run that may have stopped anywhere: the recordings of the first that
have not been finalized, in the same order, as long as none of them has taken the place of a link on
the way to the directory. A recording that had its marked name from the first is found again, too.
-/
namespace RecordingDelivery

variable {t : Tree} {d : Destination} {dir : Path}

namespace Service

def paths (s : Service) : List Path := s.tickets.map (·.task.path)

theorem paths_enqueued {s : Service} (hd : d.isEnabled = true) (ps : List Path) (h : s.Sound)
    (hdue : ∀ k ∈ s.tickets, k.task.due ≤ s.site.now) (hne : ∀ p ∈ ps, p.bytes ≠ [])
    (hnodup : ((s.paths ++ ps).map (·.components)).Nodup) :
    (ps.foldl (fun s p => (s.enqueue p d).2) s).paths = s.paths ++ ps := by
  induction ps generalizing s with
  | nil => simp
  | cons p ps ih =>
    rcases enqueue_cases h p d with ⟨hrefused, -⟩ | ⟨o, hs, hsound, ht, -⟩
    · exfalso
      rcases hrefused with hempty | ⟨k, hk, hsame⟩
      · have hp : p.bytes ≠ [] := hne p (by simp)
        simp [Path.isEmpty, hp, hd] at hempty
      · rw [List.map_append, List.map_cons] at hnodup
        have hkp : p.components ∈ s.paths.map (·.components) := by
          rw [← Path.same_iff.mp hsame]
          exact List.mem_map_of_mem (List.mem_map_of_mem hk)
        exact (List.nodup_append.mp hnodup).2.2 _ hkp _ (by simp) rfl
    · have htickets : o.tickets = s.tickets ++ [s.firstTicket p d] := by
        rw [ht]
        exact place_eq_append hdue
      have hpaths : (s.withOutbox o).paths = s.paths ++ [p] := by
        show o.tickets.map (·.task.path) = _
        rw [htickets, List.map_append]
        rfl
      have hdue' : ∀ k ∈ (s.withOutbox o).tickets, k.task.due ≤ (s.withOutbox o).site.now := by
        intro k hk
        have hk : k ∈ o.tickets := hk
        rw [htickets, List.mem_append] at hk
        rcases hk with hk | hk
        · exact hdue k hk
        · rw [List.mem_singleton.mp hk]
          exact Nat.le_refl _
      rw [List.foldl_cons, hs, ih hsound hdue' (fun q hq => hne q (by simp [hq])), hpaths]
      · simp
      · rw [hpaths, List.append_assoc]
        exact hnodup

theorem paths_scan (ht : t.WellFormed) (hd : d.isEnabled = true) (dir : Path) (now : Nat)
    (wall : Timestamp) : ((fresh t now wall).scan d dir).paths = t.recordings d dir := by
  have htickets : (fresh t now wall).tickets = [] := by
    simp [Service.fresh, Schedule.tickets, Heap.toList]
  have hpaths : (fresh t now wall).paths = [] := by rw [paths, htickets]; rfl
  have hne : ∀ p ∈ t.recordings d dir, p.bytes ≠ [] := by
    intro p hp
    obtain ⟨base, sub, hdir, hfound, rfl⟩ := Tree.mem_recordings ht hp
    have hbytes := Tree.bytes_ne_nil_of_find hdir
    obtain ⟨-, -, -, hnames, -⟩ := hfound.concat ht
    exact Path.bytes_descend_ne_nil hnames hbytes
  have hnodup : ((t.recordings d dir).map (·.components)).Nodup := by
    by_cases hnil : t.recordings d dir = []
    · simp [hnil]
    · obtain ⟨p, hp⟩ := List.exists_mem_of_ne_nil _ hnil
      obtain ⟨base, -, hdir, -, -⟩ := Tree.mem_recordings ht hp
      have hbase : t.get? (base ++ []) = some .directory := by
        rw [List.append_nil]
        exact (Tree.find_eq_ok_iff.mp hdir).2.2
      exact Tree.components_nodup ht hdir hbase
  have hscan := paths_enqueued hd (t.recordings d dir) (sound_fresh t now wall) (by simp [htickets])
    hne (by rw [hpaths]; exact hnodup)
  rw [hpaths, List.nil_append] at hscan
  rw [scan_eq_foldl]
  exact hscan

end Service

/-- Whether finalizing leaves a recording where it is, as it has its marked name already. -/
def Tree.remains (t : Tree) (d : Destination) (p : Path) : Bool :=
  ! d.deleteAfter && t.hasBothNames p

/-- What the courier does and what it waits for; nobody else does anything. -/
def Event.isCourier : Event → Bool
  | .turn _ | .diskFault | .answer _ | .advance _ | .setWall _ | .requestStop => true
  | .enqueue _ _ | .scan _ _ | .files _ => false

def Note.finalizedPath? : Note → Option Path
  | .finalized _ t (.ok _) => some t.path
  | .finalized _ _ (.error _) | .begun _ | .ended _ _ | .missing _ | .outdone _ _ => none

namespace Ledger

/-- The recordings that have been removed or marked, the latest first. A fault in syncing their
directory afterwards would show in no file. -/
def finalizedPaths (l : Ledger) : List Path := l.log.filterMap (·.finalizedPath?)

@[simp] theorem finalizedPaths_assign (l : Ledger) (number : Nat) :
    (l.assign number).finalizedPaths = l.finalizedPaths := by
  unfold assign
  split <;> rfl

theorem finalizedPaths_note (l : Ledger) {n : Nat → Note}
    (h : ∀ job, (n job).finalizedPath? = none) : (l.note n).finalizedPaths = l.finalizedPaths := by
  unfold note
  split
  · rw [finalizedPaths, List.filterMap_cons, h]
    rfl
  · rfl

end Ledger

namespace Observed

variable {o : Observed}

abbrev tree (o : Observed) : Tree := o.service.site.tree

abbrev finalizedPaths (o : Observed) : List Path := o.ledger.finalizedPaths

structure Rests (o o' : Observed) : Prop where
  jobs : o'.ledger.jobs = o.ledger.jobs
  tree : o'.tree = o.tree
  finalized : o'.finalizedPaths = o.finalizedPaths

theorem rests_turn (h : o.Balanced) (hp : ∀ t, o.service.phase ≠ .finalizing t) (atDate : Bool) :
    o.Rests (o.turn atDate) := by
  cases hphase : o.service.phase with
  | looking | waiting =>
    have hfree : o.service.isFree = true := by simp [Service.isFree, hphase]
    obtain ⟨b, phase, hs, pick⟩ := Service.turn_pick h.sound hfree atDate
    cases pick <;> simp only [Observed.turn, hphase, hs] <;> exact ⟨rfl, rfl, rfl⟩
  | checking t =>
    cases hpresent : o.service.site.tree.isPresent t.path with
    | true =>
      simp only [Observed.turn, Service.turn, Service.check, hphase, hpresent, if_true]
      exact ⟨Ledger.note_jobs _ _, rfl, Ledger.finalizedPaths_note _ fun _ => rfl⟩
    | false =>
      simp only [Observed.turn, Service.turn, Service.check, hphase, hpresent, Bool.false_eq_true,
        if_false]
      exact ⟨Ledger.note_jobs _ _, rfl, Ledger.finalizedPaths_note _ fun _ => rfl⟩
  | finalizing t => exact absurd hphase (hp t)
  | calling t | stopped =>
    simp only [Observed.turn, Service.turn, hphase]
    exact ⟨rfl, rfl, rfl⟩

theorem rests_diskFault (o : Observed) : o.Rests o.diskFault := by
  cases hp : o.service.phase with
  | checking t =>
    simp only [Observed.diskFault, Service.diskFault, hp]
    exact ⟨Ledger.note_jobs _ _, rfl, Ledger.finalizedPaths_note _ fun _ => rfl⟩
  | looking | waiting | calling t | finalizing t | stopped =>
    simp only [Observed.diskFault, Service.diskFault, hp]
    exact ⟨rfl, rfl, rfl⟩

theorem rests_answer (o : Observed) (result : CallResult) : o.Rests (o.answer result) := by
  have htree := Service.answer_tree o.service result
  have hended := o.ledger.finalizedPaths_note (n := (.ended · result)) fun _ => rfl
  unfold Observed.answer
  dsimp only
  split
  · split
    · refine ⟨by simp [Ledger.letGo], htree, ?_⟩
      exact (Ledger.finalizedPaths_assign _ _).trans hended
    · refine ⟨by simp [Ledger.letGo], htree, ?_⟩
      exact (Ledger.finalizedPaths_note _ fun _ => rfl).trans hended
    · exact ⟨by simp, htree, hended⟩
    · exact ⟨by simp, htree, hended⟩
  · exact ⟨rfl, htree, rfl⟩

theorem turn_finalizing {task : Task} (hp : o.service.phase = .finalizing task) {job : Nat}
    (hhand : o.ledger.hand = some job) (atDate : Bool) :
    (o.turn atDate).ledger.jobs = o.ledger.jobs ∧
      (o.turn atDate).tree = o.tree.finalized task.path task.destination.deleteAfter ∧
      (o.turn atDate).finalizedPaths =
        match o.tree.finalize task.path task.destination.deleteAfter with
        | .ok _ => task.path :: o.finalizedPaths
        | .error _ => o.finalizedPaths := by
  simp only [Observed.turn, Service.turn, Service.finalize, hp, Ledger.note, Ledger.letGo, hhand]
  refine ⟨trivial, rfl, ?_⟩
  show Ledger.finalizedPaths { o.ledger with log := _ :: o.ledger.log, hand := none } = _
  cases o.tree.finalize task.path task.destination.deleteAfter <;> rfl

/-- What a run of the courier alone has come to, after the first search for the recordings below a
directory. -/
structure Recovering (t : Tree) (d : Destination) (dir : Path) (o : Observed) : Prop where
  balanced : o.Balanced
  found : ∀ job ∈ o.ledger.jobs, job.task.path ∈ t.recordings d dir ∧ job.task.destination = d
  files : (o.tree = t ∧ o.finalizedPaths = []) ∨
    ∃ base done, t.find .target dir = .ok (base, .directory) ∧
      Tree.Settled t o.tree d dir base done ∧
      (o.finalizedPaths.filter fun p => ! t.remains d p) = done.map dir.descend

theorem Recovering.rests {o' : Observed} (h : Recovering t d dir o) (hbalanced : o'.Balanced)
    (hrests : o.Rests o') : Recovering t d dir o' := by
  refine ⟨hbalanced, ?_, ?_⟩
  · rw [hrests.jobs]
    exact h.found
  · rw [hrests.tree, hrests.finalized]
    exact h.files

theorem Recovering.finalize (ht : t.WellFormed) (h : Recovering t d dir o) {task : Task}
    (hp : o.service.phase = .finalizing task) (atDate : Bool) :
    Recovering t d dir (o.turn atDate) := by
  have hhand := h.balanced.hand
  simp only [HandFits, hp] at hhand
  obtain ⟨job, hj, hjob, ⟨hpath, hdest, -⟩, -⟩ := hhand
  obtain ⟨hfound, hd⟩ := h.found job hj
  rw [hpath] at hfound
  rw [hdest] at hd
  obtain ⟨hjobs, htree, hfinalized⟩ := turn_finalizing hp hjob atDate
  rw [hd] at htree hfinalized
  refine ⟨h.balanced.turn atDate, ?_, ?_⟩
  · rw [hjobs]
    exact h.found
  obtain ⟨base, sub, hdir, hsub, hps⟩ := Tree.mem_recordings ht hfound
  have hsettled : ∃ done, Tree.Settled t o.tree d dir base done ∧
      (o.finalizedPaths.filter fun p => ! t.remains d p) = done.map dir.descend := by
    rcases h.files with ⟨hsame, hnone⟩ | ⟨base', done, hdir', hdone, hpaths⟩
    · rw [hsame, hnone]
      exact ⟨[], Tree.settled_nil ht, rfl⟩
    · obtain rfl : base = base' := by
        rw [hdir] at hdir'
        simpa using hdir'
      exact ⟨done, hdone, hpaths⟩
  obtain ⟨done, hdone, hpaths⟩ := hsettled
  right
  rw [htree, hfinalized, Tree.finalized, hps]
  rcases hdone.finalize hdir ht hsub with
    ⟨e, he⟩ | ⟨r, t', he, ⟨hkeep, hboth, rfl⟩ | hdone'⟩
  · simp only [he]
    exact ⟨base, done, hdir, hdone, hpaths⟩
  · have hremains : t.remains d (dir.descend sub) = true := by simp [Tree.remains, hkeep, hboth]
    simp only [he]
    refine ⟨base, done, hdir, hdone, ?_⟩
    rw [List.filter_cons_of_neg (by simp [hremains]), hpaths]
  · have hgone : t.remains d (dir.descend sub) = false := by
      cases hdelete : d.deleteAfter with
      | true => simp [Tree.remains, hdelete]
      | false => simp [Tree.remains, hdone'.apart hdelete sub (by simp)]
    simp only [he]
    refine ⟨base, sub :: done, hdir, hdone', ?_⟩
    rw [List.filter_cons_of_pos (by simp [hgone]), hpaths, List.map_cons]

theorem Recovering.happen (ht : t.WellFormed) (h : Recovering t d dir o) {e : Event}
    (he : e.isCourier = true) : Recovering t d dir (o.happen e) := by
  cases e with
  | turn atDate =>
    simp only [Observed.happen]
    split
    · by_cases hp : ∃ task, o.service.phase = .finalizing task
      · obtain ⟨task, hp⟩ := hp
        exact h.finalize ht hp _
      · exact h.rests (h.balanced.turn _) (rests_turn h.balanced (fun task hp' => hp ⟨task, hp'⟩) _)
    · exact h
  | diskFault => exact h.rests h.balanced.diskFault (rests_diskFault o)
  | answer result => exact h.rests (h.balanced.answer result) (rests_answer o result)
  | advance now => exact h.rests (h.balanced.happen (.advance now)) ⟨rfl, rfl, rfl⟩
  | setWall wall => exact h.rests (h.balanced.happen (.setWall wall)) ⟨rfl, rfl, rfl⟩
  | requestStop => exact h.rests (h.balanced.happen .requestStop) ⟨rfl, rfl, rfl⟩
  | enqueue p d' | scan d' dir' | files tree => simp [Event.isCourier] at he

theorem Recovering.run (ht : t.WellFormed) (h : Recovering t d dir o) {es : List Event}
    (hes : ∀ e ∈ es, e.isCourier = true) : Recovering t d dir (o.run es) := by
  induction es generalizing o with
  | nil => exact h
  | cons e rest ih =>
    exact ih (h.happen ht (hes e (by simp))) fun e' he' => hes e' (by simp [he'])

theorem enqueue_jobs (o : Observed) (p : Path) (d : Destination) :
    ∀ job ∈ (o.enqueue p d).ledger.jobs, job ∈ o.ledger.jobs ∨ job = o.service.firstTicket p d := by
  intro job hj
  unfold Observed.enqueue at hj
  split at hj
  · exact (List.mem_cons.mp hj).symm
  · exact .inl hj

theorem scan_jobs (o : Observed) (d : Destination) (dir : Path) :
    ∀ job ∈ (o.scan d dir).ledger.jobs, job ∈ o.ledger.jobs ∨
      (job.task.path ∈ o.tree.recordings d dir ∧ job.task.destination = d) := by
  unfold Observed.scan
  generalize o.tree.recordings d dir = ps
  induction ps generalizing o with
  | nil => exact fun job hj => .inl hj
  | cons p rest ih =>
    intro job hj
    rw [List.foldl_cons] at hj
    rcases ih _ job hj with hj | ⟨hpath, hdest⟩
    · rcases enqueue_jobs o p d job hj with hj | rfl
      · exact .inl hj
      · exact .inr ⟨List.mem_cons_self, rfl⟩
    · exact .inr ⟨List.mem_cons_of_mem _ hpath, hdest⟩

theorem enqueue_tree (o : Observed) (p : Path) (d : Destination) : (o.enqueue p d).tree = o.tree := by
  rw [tree, service_enqueue]
  rfl

theorem scan_tree (o : Observed) (d : Destination) (dir : Path) : (o.scan d dir).tree = o.tree := by
  rw [tree, service_scan]
  rfl

theorem recovering_scan (t : Tree) (d : Destination) (dir : Path) (now : Nat) (wall : Timestamp) :
    Recovering t d dir ((fresh t now wall).scan d dir) := by
  refine ⟨(balanced_fresh t now wall).scan d dir, ?_, .inl ⟨?_, ?_⟩⟩
  · intro job hj
    rcases scan_jobs _ d dir job hj with hj | hfound
    · simp [fresh] at hj
    · exact hfound
  · exact scan_tree _ d dir
  · rw [finalizedPaths, Ledger.finalizedPaths, scan_log]
    rfl

/-- Whether a recording has taken the place of a link on the way to the directory. -/
def isCutOff (o : Observed) (t : Tree) (d : Destination) (dir : Path) : Bool :=
  ! d.deleteAfter && o.finalizedPaths.any fun p =>
    ! t.hasBothNames p &&
      ((Marker.uploadedPath p).bind t.place?).any fun l => (t.linksTo dir).contains l

end Observed

namespace Tree

theorem Settled.isCutOff_iff {t' : Tree} {base : Location} {done : List (List Bytes)}
    (h : Settled t t' d dir base done) {o : Observed}
    (hpaths : (o.finalizedPaths.filter fun p => ! t.remains d p) = done.map dir.descend) :
    o.isCutOff t d dir = true ↔ ∃ l ∈ marks d base done, l ∈ t.linksTo dir := by
  rw [Observed.isCutOff, marks]
  cases hdelete : d.deleteAfter with
  | true => simp
  | false =>
    simp only [remains, hdelete, Bool.not_false, Bool.true_and] at hpaths
    rw [← List.any_filter, hpaths]
    have hplace {sub : List Bytes} (hsub : sub ∈ done) :
        (Marker.uploadedPath (dir.descend sub)).bind t.place? = some (markOf (base ++ sub)) := by
      obtain ⟨q, hq, hl⟩ := h.placed hdelete sub hsub
      rw [hq]
      exact hl
    simp only [Bool.not_false, Bool.true_and, List.any_map, List.any_eq_true, Function.comp,
      Bool.false_eq_true, if_false, List.mem_map]
    constructor
    · rintro ⟨sub, hsub, hl⟩
      rw [hplace hsub] at hl
      exact ⟨_, ⟨sub, hsub, rfl⟩, by simpa using hl⟩
    · rintro ⟨l, ⟨sub, hsub, rfl⟩, hl⟩
      exact ⟨sub, hsub, by simpa [hplace hsub] using hl⟩

end Tree

namespace Observed

/-- Wherever a run stops that has nobody but the courier at work, another search finds the recordings
of the first that have not been finalized or remain all the same, in the same order, unless one has
taken the place of a link that leads to the directory: then it finds none. What the run has marked is
not found. -/
theorem rescan_eq (ht : t.WellFormed) (hd : d.isEnabled = true) (dir : Path) {es : List Event}
    (hes : ∀ e ∈ es, e.isCourier = true) (now now' : Nat) (wall wall' : Timestamp) :
    let first := (Service.fresh t now wall).scan d dir
    let o := ((fresh t now wall).scan d dir).run es
    let second := (Service.fresh (first.run es).site.tree now' wall').scan d dir
    o.service = first.run es ∧
    second.paths = (if o.isCutOff t d dir then [] else
      first.paths.filter fun p => ! o.finalizedPaths.contains p || t.remains d p) ∧
    ∀ p ∈ o.finalizedPaths, ∀ q ∈ second.paths, Marker.uploadedPath p ≠ some q := by
  intro first o second
  have hservice : o.service = first.run es := by rw [service_run, service_scan]; rfl
  have h : Recovering t d dir o := (recovering_scan t d dir now wall).run ht hes
  have hfirst : first.paths = t.recordings d dir := Service.paths_scan ht hd dir now wall
  have hwell : o.tree.WellFormed := by
    rcases h.files with ⟨hsame, -⟩ | ⟨base, done, -, hdone, -⟩
    · rw [hsame]
      exact ht
    · exact hdone.wellFormed
  have hsecond : second.paths = o.tree.recordings d dir := by
    rw [tree, hservice] at hwell ⊢
    exact Service.paths_scan hwell hd dir now' wall'
  refine ⟨hservice, ?_, ?_⟩
  · rw [hfirst, hsecond]
    rcases h.files with ⟨hsame, hnone⟩ | ⟨base, done, hdir, hdone, hpaths⟩
    · rw [hsame, isCutOff, hnone]
      simp
    · split
      · rename_i hcut
        exact (hdone.broken hdir ((hdone.isCutOff_iff hpaths).mp hcut)).2
      · rename_i hcut
        have hleft := hdone.recordings hdir ht fun l hl hlink =>
          hcut ((hdone.isCutOff_iff hpaths).mpr ⟨l, hl, hlink⟩)
        rw [hleft, ← hpaths]
        refine congrArg (fun f => (t.recordings d dir).filter f) ?_
        funext p
        rw [Bool.eq_iff_iff]
        simp
  · intro p _ q hq hmark
    rw [hsecond] at hq
    obtain ⟨base, sub, -, hfound, rfl⟩ := Tree.mem_recordings hwell hq
    have hno := Marker.isPending_uploadedPath hmark d
    rw [hfound.pending] at hno
    simp at hno

/-- A spool with two recordings. The marked name of the first is a link back to the spool. -/
def loopedSpool : Tree :=
  let home := Bytes.ofText "spool"
  { entries :=
      [([home], .directory), ([home, Bytes.ofText "x"], .file []),
        ([home, Bytes.ofText "y"], .file []),
        ([home, Bytes.ofText "x_uploaded"], .link (.ofText "."))]
    workDir := [home] }

/-- The courier delivers the first recording and finalizes it. -/
def firstDelivered : List Event := [.turn false, .turn false, .answer (.ok ()), .turn false]

theorem rescan_looped :
    loopedSpool.WellFormed ∧ (Destination.ofEndpoint "u").isEnabled = true ∧
      (∀ e ∈ firstDelivered, e.isCourier = true) ∧
      let first := (Service.fresh loopedSpool 0 .epoch).scan (.ofEndpoint "u") (.ofText ".")
      ((Service.fresh (first.run firstDelivered).site.tree 0 .epoch).scan (.ofEndpoint "u")
        (.ofText ".")).paths = [.ofText "./y"] := by
  have ht : loopedSpool.WellFormed := by decide
  have hd : (Destination.ofEndpoint "u").isEnabled = true := by decide
  have hes : ∀ e ∈ firstDelivered, e.isCourier = true := by decide
  refine ⟨ht, hd, hes, (rescan_eq ht hd (.ofText ".") hes 0 0 .epoch .epoch).2.1.trans ?_⟩
  have hcut : (((fresh loopedSpool 0 .epoch).scan (.ofEndpoint "u") (.ofText ".")).run
      firstDelivered).isCutOff loopedSpool (.ofEndpoint "u") (.ofText ".") = false := by cbv
  rw [hcut, if_neg (by decide)]
  cbv

/-- Where the search goes by the link, the other recording is not found any more. -/
theorem rescan_through_link :
    let first := (Service.fresh loopedSpool 0 .epoch).scan (.ofEndpoint "u") (.ofText "x_uploaded")
    let o := ((fresh loopedSpool 0 .epoch).scan (.ofEndpoint "u") (.ofText "x_uploaded")).run
      firstDelivered
    let second := (Service.fresh (first.run firstDelivered).site.tree 0 .epoch).scan (.ofEndpoint "u")
      (.ofText "x_uploaded")
    loopedSpool.WellFormed ∧ (Destination.ofEndpoint "u").isEnabled = true ∧
      (∀ e ∈ firstDelivered, e.isCourier = true) ∧
      first.paths.filter (fun p => ! o.finalizedPaths.contains p) = [.ofText "x_uploaded/y"] ∧
      second.paths = [] := by
  refine ⟨by decide, by decide, by decide, ?_, ?_⟩
  · cbv
  · cbv

end Observed
end RecordingDelivery
