import Mathlib.Data.Multiset.AddSub
import Mathlib.Data.Multiset.Filter
import RecordingDelivery.Proofs.Spool.Recovery

/-!
What the files of a tree contain, taken together, and what becomes of it when delivered files are kept
under their marked names. Another file that has such a name already is lost; nothing else is.
-/
namespace RecordingDelivery

def Entry.contents? : Entry → Option Bytes
  | .file c => some c
  | .directory | .link _ | .pipe => none

namespace Tree

variable {t t' : Tree}

/-- What the regular files contain, in no order; a file with several names counts under each. -/
def contents (t : Tree) : Multiset Bytes := ↑(t.entries.filterMap (·.2.entry.contents?))

def contentsAt (t : Tree) (l : Location) : Multiset Bytes :=
  match (t.get? l).bind Entry.contents? with
  | some c => {c}
  | none => 0

/-- What is lost when a delivered file is kept: the contents of another that had its marked name. -/
def replaced (t : Tree) (p : Path) : Multiset Bytes :=
  match t.finalize p false with
  | .ok (.renamed q, _) =>
    match t.place? q with
    | some l => if t.hasBothNames p then 0 else t.contentsAt l
    | none => 0
  | .ok (.deleted, _) | .error _ => 0

theorem WellFormed.filterMap_at (h : t.WellFormed) {k : Location} (hk : k ≠ [])
    (hbelow : ∀ back, back ≠ [] → t.get? (k ++ back) = none) :
    (↑((t.entries.filter fun a => k <+: a.1).filterMap (·.2.entry.contents?)) : Multiset Bytes) =
      t.contentsAt k := by
  have hmem (b : Node) : (k, b) ∈ (t.entries.filter fun a => k <+: a.1) ↔ t.node? k = some b := by
    rw [h.node?_eq_some_iff hk]
    simp
  have hall : ∀ a ∈ t.entries.filter fun a => k <+: a.1, a.1 = k := by
    rintro ⟨x, e⟩ ha
    obtain ⟨ha, hx⟩ := List.mem_filter.mp ha
    obtain ⟨back, rfl⟩ : k <+: x := by simpa using hx
    by_cases hback : back = []
    · simp [hback]
    · have hnode := (h.node?_eq_some_iff (by simp [hk])).mpr ha
      rw [get?_eq_none_iff.mp (hbelow back hback)] at hnode
      simp at hnode
  have hdistinct : ((t.entries.filter fun a => k <+: a.1).map (·.1)).Nodup :=
    h.distinct.sublist (List.filter_sublist.map _)
  generalize t.entries.filter (fun a => k <+: a.1) = found at hmem hall hdistinct ⊢
  unfold contentsAt
  cases found with
  | nil =>
    have hnone : t.node? k = none := by
      rw [Option.eq_none_iff_forall_ne_some]
      intro b hb
      simpa using (hmem b).mpr hb
    simp [get?_eq_none_iff.mpr hnone]
  | cons a rest =>
    have hrest : rest = [] := by
      rw [List.eq_nil_iff_forall_not_mem]
      intro b hb
      have hab : b.1 = a.1 := (hall b (by simp [hb])).trans (hall a (by simp)).symm
      exact (List.nodup_cons.mp hdistinct).1 (List.mem_map.mpr ⟨b, hb, hab⟩)
    obtain ⟨x, e⟩ := a
    obtain rfl : x = k := hall (x, e) (by simp)
    have hnode : t.node? x = some e := (hmem e).mp (by simp)
    subst hrest
    cases he : e.entry.contents? <;> simp [get?, hnode, he]

theorem WellFormed.contents_move (h : t.WellFormed) (l : Location) {k : Location} (hk : k ≠ [])
    (hbelow : ∀ back, back ≠ [] → t.get? (k ++ back) = none) :
    (t.move l k).contents + t.contentsAt k = t.contents := by
  have hmove : (t.move l k).contents =
      ↑((t.entries.filter fun a => ¬ k <+: a.1).filterMap (·.2.entry.contents?)) := by
    rw [contents, entries_move, List.filterMap_map]
    rfl
  have hperm := List.filter_append_perm (fun a : Location × Node => decide (k <+: a.1)) t.entries
  rw [hmove, ← h.filterMap_at hk hbelow, add_comm, Multiset.coe_add, ← List.filterMap_append,
    contents, Multiset.coe_eq_coe]
  simpa using hperm.filterMap (·.2.entry.contents?)

theorem WellFormed.none_below_target (h : t.WellFormed) {e : Entry} {k : Location}
    (hfault : t.replaceFault? e k = none) {back : List Bytes} (hback : back ≠ []) :
    t.get? (k ++ back) = none := by
  by_cases hk : t.get? k = some .directory
  · exact get?_of_isEmptyDirectory (replaceFault?_directory hfault hk).2 hback
  · exact h.none_below hk hback

/-- Finalizing that keeps a file fails, or gives it its marked name, or leaves it with both. -/
theorem finalize_kept (t : Tree) (p : Path) :
    (∃ fault, t.finalize p false = .error fault) ∨
      ∃ q dir n e, Path.IsName n ∧ t.get? (dir ++ [n]) = some e ∧
        t.place? q = some (dir ++ [Marker.uploadedName n]) ∧
        ((t.hasBothNames p = true ∧ t.finalize p false = .ok (.renamed q, t)) ∨
          (t.hasBothNames p = false ∧
            t.replaceFault? e (dir ++ [Marker.uploadedName n]) = none ∧
            t.finalize p false =
              .ok (.renamed q, t.move (dir ++ [n]) (dir ++ [Marker.uploadedName n])))) := by
  cases hq : Marker.uploadedPath p with
  | none => exact .inl ⟨.noFileName p, by simp [finalize, hq]⟩
  | some q =>
    cases hrename : t.rename p q with
    | error fault => exact .inl ⟨.rename p q fault, by simp [finalize, hq, hrename]⟩
    | ok t' =>
      obtain ⟨dir, n, e, hparent, -, hbeside, -, hget, -, hmove⟩ := rename_uploaded hq hrename
      have hplace := place?_of_parent hbeside
      have hboth := hasBothNames_eq hq (place?_of_parent hparent) hplace
      refine .inr ⟨q, dir, n, e, (names_of_parent hparent).1, hget, hplace, ?_⟩
      rcases hmove with ⟨htwin, rfl⟩ | ⟨htwin, hfault, rfl⟩
      · exact .inl ⟨hboth.trans htwin, by simp [finalize, hq, hrename]⟩
      · exact .inr ⟨hboth.trans htwin, hfault, by simp [finalize, hq, hrename]⟩

theorem WellFormed.contents_finalized (h : t.WellFormed) (p : Path) :
    (t.finalized p false).WellFormed ∧
      (t.finalized p false).contents + t.replaced p = t.contents := by
  rcases t.finalize_kept p with
    ⟨fault, hf⟩ | ⟨q, dir, n, e, hn, hget, hplace, ⟨hboth, hf⟩ | ⟨hboth, hfault, hf⟩⟩
  · simp [finalized, replaced, hf, h]
  · simp [finalized, replaced, hf, hplace, hboth, h]
  · simp only [finalized, replaced, hf, hplace, hboth, Bool.false_eq_true, if_false]
    exact ⟨h.move (Marker.ne_uploadedName n) hget (Marker.isName_uploadedName hn),
      h.contents_move _ (by simp) fun back hback => h.none_below_target hfault hback⟩

end Tree

/-- Nobody but the courier changes the files, and all that is enqueued is kept when it has been
delivered. -/
def Event.keeps : Event → Bool
  | .enqueue _ d | .scan d _ => ! d.deleteAfter
  | .files _ => false
  | .turn _ | .diskFault | .answer _ | .advance _ | .setWall _ | .requestStop => true

namespace Service

/-- What is lost by a turn: if it finalizes, the contents of the file that is replaced. -/
def lostByTurn (s : Service) : Multiset Bytes :=
  match s.phase with
  | .finalizing t => s.site.tree.replaced t.path
  | .looking | .waiting | .checking _ | .calling _ | .stopped => 0

def lost (s : Service) : Event → Multiset Bytes
  | .turn _ => s.lostByTurn
  | .diskFault | .answer _ | .enqueue _ _ | .scan _ _ | .files _ | .advance _ | .setWall _
  | .requestStop => 0

def losses (s : Service) : List Event → Multiset Bytes
  | [] => 0
  | e :: es => s.lost e + (s.happen e).losses es

theorem losses_eq_zero_iff {s : Service} {es : List Event} :
    s.losses es = 0 ↔
      ∀ before e after, es = before ++ e :: after → (s.run before).lost e = 0 := by
  induction es generalizing s with
  | nil => simp [losses]
  | cons e es ih =>
    rw [losses, add_eq_zero, ih]
    constructor
    · rintro ⟨hfirst, hrest⟩ before e' after hes
      cases before with
      | nil =>
        obtain ⟨rfl, -⟩ := List.cons.inj hes
        exact hfirst
      | cons x before =>
        obtain ⟨rfl, hafter⟩ := List.cons.inj hes
        exact hrest before e' after hafter
    · intro h
      exact ⟨h [] e es rfl, fun before e' after hes => h (e :: before) e' after (by rw [hes]; rfl)⟩

end Service

namespace Observed

variable {o : Observed}

/-- The ledger balances, no job deletes its file, and the tree is one. -/
structure Keeping (o : Observed) : Prop where
  balanced : o.Balanced
  kept : ∀ job ∈ o.ledger.jobs, job.task.destination.deleteAfter = false
  wellFormed : o.tree.WellFormed

theorem keeping_fresh {t : Tree} (ht : t.WellFormed) (now : Nat) (wall : Timestamp) :
    (fresh t now wall).Keeping :=
  ⟨balanced_fresh t now wall, by simp [fresh], ht⟩

theorem Keeping.frame {o' : Observed} (h : o.Keeping) (hbalanced : o'.Balanced)
    (hjobs : ∀ job ∈ o'.ledger.jobs, job ∈ o.ledger.jobs ∨ job.task.destination.deleteAfter = false)
    (htree : o'.tree = o.tree) : o'.Keeping ∧ o'.tree.contents + 0 = o.tree.contents := by
  refine ⟨⟨hbalanced, ?_, ?_⟩, ?_⟩
  · intro job hj
    exact (hjobs job hj).elim (h.kept job) id
  · rw [htree]
    exact h.wellFormed
  · rw [htree, add_zero]

theorem Keeping.rests {o' : Observed} (h : o.Keeping) (hbalanced : o'.Balanced)
    (hrests : o.Rests o') : o'.Keeping ∧ o'.tree.contents + 0 = o.tree.contents := by
  refine h.frame hbalanced (fun job hj => .inl ?_) hrests.tree
  rwa [hrests.jobs] at hj

theorem Keeping.turn (h : o.Keeping) (atDate : Bool) :
    (o.turn atDate).Keeping ∧
      (o.turn atDate).tree.contents + o.service.lostByTurn = o.tree.contents := by
  by_cases hp : ∃ task, o.service.phase = .finalizing task
  · obtain ⟨task, hp⟩ := hp
    obtain ⟨job, hj, hjob, ⟨-, hdest, -⟩, -⟩ := h.balanced.holds (congrArg Phase.task? hp)
    have hkept := h.kept job hj
    rw [hdest] at hkept
    obtain ⟨hjobs, htree, -⟩ := turn_finalizing hp hjob atDate
    rw [hkept] at htree
    obtain ⟨hwell, hcontents⟩ := h.wellFormed.contents_finalized task.path
    refine ⟨⟨h.balanced.turn atDate, ?_, ?_⟩, ?_⟩
    · rw [hjobs]
      exact h.kept
    · rw [htree]
      exact hwell
    · rw [htree, Service.lostByTurn, hp]
      exact hcontents
  · have hnot : ∀ task, o.service.phase ≠ .finalizing task := fun task hp' => hp ⟨task, hp'⟩
    have hlost : o.service.lostByTurn = 0 := by
      unfold Service.lostByTurn
      split
      · rename_i task hp'
        exact absurd hp' (hnot task)
      all_goals rfl
    rw [hlost]
    exact h.rests (h.balanced.turn atDate) (rests_turn h.balanced hnot atDate)

theorem Keeping.happen (h : o.Keeping) {e : Event} (he : e.keeps = true) :
    (o.happen e).Keeping ∧
      (o.happen e).tree.contents + o.service.lost e = o.tree.contents := by
  cases e with
  | turn atDate =>
    simp only [Observed.happen]
    split
    · exact h.turn _
    · rename_i hrun
      -- a courier that finalizes may run
      have hlost : o.service.lost (.turn atDate) = 0 := by
        unfold Service.isRunnable at hrun
        unfold Service.lost Service.lostByTurn
        split at hrun <;> simp_all
      rw [hlost, add_zero]
      exact ⟨h, rfl⟩
  | diskFault => exact h.rests h.balanced.diskFault (rests_diskFault o)
  | answer result => exact h.rests (h.balanced.answer result) (rests_answer o result)
  | advance now => exact h.rests (h.balanced.happen (.advance now)) ⟨rfl, rfl, rfl⟩
  | setWall wall => exact h.rests (h.balanced.happen (.setWall wall)) ⟨rfl, rfl, rfl⟩
  | requestStop => exact h.rests (h.balanced.happen .requestStop) ⟨rfl, rfl, rfl⟩
  | enqueue p d =>
    have hd : d.deleteAfter = false := by simpa [Event.keeps] using he
    refine h.frame (h.balanced.enqueue p d) ?_ (enqueue_tree o p d)
    intro job hj
    rcases enqueue_jobs o p d job hj with hj | rfl
    · exact .inl hj
    · exact .inr hd
  | scan d dir =>
    have hd : d.deleteAfter = false := by simpa [Event.keeps] using he
    refine h.frame (h.balanced.scan d dir) ?_ (scan_tree o d dir)
    intro job hj
    rcases scan_jobs o d dir job hj with hj | ⟨-, rfl⟩
    · exact .inl hj
    · exact .inr hd
  | files tree => simp [Event.keeps] at he

theorem Keeping.run (h : o.Keeping) {es : List Event} (hes : ∀ e ∈ es, e.keeps = true) :
    (o.run es).tree.contents + o.service.losses es = o.tree.contents := by
  induction es generalizing o with
  | nil => exact add_zero _
  | cons e rest ih =>
    obtain ⟨hnext, hfirst⟩ := h.happen (hes e (by simp))
    have hrest := ih hnext fun e' he' => hes e' (by simp [he'])
    rw [service_happen] at hrest
    calc (o.run (e :: rest)).tree.contents + o.service.losses (e :: rest)
        = ((o.happen e).run rest).tree.contents + (o.service.happen e).losses rest +
            o.service.lost e := by
          rw [Service.losses, add_assoc, add_comm (o.service.lost e)]
          rfl
      _ = o.tree.contents := by rw [hrest, hfirst]

/-- However the attempts end, the contents of the files are what they were, but for what was lost:
whenever a delivered file takes its marked name, the contents of another that had it before. -/
theorem contents_run {t : Tree} (ht : t.WellFormed) {es : List Event}
    (hes : ∀ e ∈ es, e.keeps = true) (now : Nat) (wall : Timestamp) :
    let s := Service.fresh t now wall
    (s.run es).site.tree.contents + s.losses es = t.contents ∧
      ((s.run es).site.tree.contents = t.contents ↔
        ∀ before e after, es = before ++ e :: after → (s.run before).lost e = 0) := by
  intro s
  have hsum : (s.run es).site.tree.contents + s.losses es = t.contents := by
    have := (keeping_fresh ht now wall).run hes
    rwa [tree, service_run] at this
  refine ⟨hsum, ?_⟩
  rw [← Service.losses_eq_zero_iff, ← hsum, left_eq_add]

/-- Two recordings, of which one has the other's marked name. -/
def markedSpool : Tree :=
  let home := Bytes.ofText "spool"
  { entries :=
      [([home], .directory), ([home, Bytes.ofText "a"], .file (Bytes.ofText "1")),
        ([home, Bytes.ofText "a_uploaded"], .file (Bytes.ofText "22"))]
    workDir := [home] }

/-- The endpoint turns the recording with the marked name down, and takes the other. -/
def secondDelivered : List Event :=
  [.enqueue (.ofText "a_uploaded") (.ofEndpoint "u"), .turn false, .turn false,
    .answer (.error (.rejected 503)), .enqueue (.ofText "a") (.ofEndpoint "u"), .turn false,
    .turn false, .answer (.ok ()), .turn false]

theorem contents_marked :
    markedSpool.WellFormed ∧ (∀ e ∈ secondDelivered, e.keeps = true) ∧
      let s := Service.fresh markedSpool 0 .epoch
      (s.run secondDelivered).site.tree.contents + s.losses secondDelivered =
        markedSpool.contents := by
  have ht : markedSpool.WellFormed := by decide
  have hes : ∀ e ∈ secondDelivered, e.keeps = true := by decide
  exact ⟨ht, hes, (contents_run ht hes 0 .epoch).1⟩

/-- The recording that was turned down is lost. -/
theorem contents_not_kept :
    let left := (Service.fresh markedSpool 0 .epoch).run secondDelivered
    markedSpool.WellFormed ∧ (∀ e ∈ secondDelivered, e.keeps = true) ∧
      left.site.tree.contents = {Bytes.ofText "1"} ∧
      left.site.tree.contents ≠ markedSpool.contents := by
  have hleft : ((Service.fresh markedSpool 0 .epoch).run secondDelivered).site.tree.entries.filterMap
      (·.2.entry.contents?) = [Bytes.ofText "1"] := by cbv
  have hcontents : ((Service.fresh markedSpool 0 .epoch).run secondDelivered).site.tree.contents =
      {Bytes.ofText "1"} := by
    rw [Tree.contents, hleft]
    rfl
  have hboth : markedSpool.contents = {Bytes.ofText "1", Bytes.ofText "22"} := rfl
  refine ⟨by decide, by decide, hcontents, ?_⟩
  rw [hcontents, hboth]
  intro h
  simpa using congrArg Multiset.card h

end Observed
end RecordingDelivery
