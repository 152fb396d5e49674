import Mathlib
import RecordingDelivery.Proofs.Outbox.History
import RecordingDelivery.Proofs.Spool.Search
import RecordingDelivery.Proofs.Spool.Settled

/-!
What a scan puts into an outbox: the recordings that wait and whose paths were not there yet, behind
all that is due and before all that is not.
-/
namespace RecordingDelivery

namespace Outbox

variable {o : Outbox} {d : Destination}

theorem enqueueAll_disabled (hd : d.isEnabled = false) (wall : Timestamp) (now : Nat) (o : Outbox)
    (ps : List Path) : enqueueAll d wall now o ps = (0, o) := by
  induction ps with
  | nil => rfl
  | cons p rest ih => simp [enqueueAll, enqueue, hd, ih]

theorem enqueueAll_tasks (h : o.schedule.Sound) (hd : d.isEnabled = true) (wall : Timestamp)
    {now : Nat} {ps : List Path} (hne : ∀ p ∈ ps, p.bytes ≠ [])
    (hapart : (ps.map (·.components)).Nodup) {due later : List Task}
    (hsplit : o.tasks = due ++ later) (hdue : ∀ t ∈ due, t.due ≤ now)
    (hlater : ∀ t ∈ later, now < t.due) :
    (enqueueAll d wall now o ps).1 = (ps.filter (! o.contains ·)).length ∧
      (enqueueAll d wall now o ps).2.tasks =
        due ++ (ps.filter (! o.contains ·)).map (Task.fresh · d wall now) ++ later := by
  induction ps generalizing o due with
  | nil => simpa [enqueueAll] using hsplit
  | cons p ps ih =>
    obtain ⟨hp, hps⟩ := List.nodup_cons.mp hapart
    have hempty : p.isEmpty = false := by simpa [Path.isEmpty] using hne p (by simp)
    have henqueue : o.enqueue p d wall now = o.insert (Task.fresh p d wall now) := by
      simp [enqueue, hempty, hd]
    rcases insert_tasks h (Task.fresh p d wall now) with ⟨hc, hi⟩ | ⟨o', hc, hi, hs, ht⟩
    · have hwaits : o.contains p = true := hc
      obtain ⟨hcount, htasks⟩ := ih h (fun q hq => hne q (by simp [hq])) hps hsplit hdue
      simp only [enqueueAll, henqueue, hi, hcount, htasks]
      simp [hwaits]
    · have hnew : o.contains p = false := hc
      have hplaced : o'.tasks = (due ++ [Task.fresh p d wall now]) ++ later := by
        rw [ht, hsplit, place_append hdue hlater]
        simp
      -- the paths that follow wait now if they did before
      have hsame : ps.filter (! o'.contains ·) = ps.filter (! o.contains ·) := by
        apply List.filter_congr
        intro q hq
        have hqp : p.same q = false := by
          rw [← Bool.not_eq_true, Path.same_iff]
          intro he
          exact hp (List.mem_map.mpr ⟨q, hq, he.symm⟩)
        have hiff : o'.contains q = true ↔ o.contains q = true := by
          rw [contains_iff hs, contains_iff h, ht]
          simp only [mem_place, exists_eq_or_imp]
          exact or_iff_right (by simpa [Task.fresh] using hqp)
        rw [Bool.eq_iff_iff.mpr hiff]
      obtain ⟨hcount, htasks⟩ := ih hs (fun q hq => hne q (by simp [hq])) hps hplaced (by
        intro t ht
        rcases List.mem_append.mp ht with ht | ht
        · exact hdue t ht
        · rw [List.mem_singleton.mp ht]
          exact Nat.le_refl now)
      simp only [enqueueAll, henqueue, hi, hcount, htasks, hsame]
      simp [hnew]

/-- The recordings of one search can be told apart, and each has a path. -/
theorem recordings_apart {t : Tree} (ht : t.WellFormed) (d : Destination) (dir : Path) :
    (∀ p ∈ t.recordings d dir, p.bytes ≠ []) ∧
      ((t.recordings d dir).map (·.components)).Nodup := by
  constructor
  · intro p hp
    obtain ⟨base, sub, hdir, hfound, rfl⟩ := Tree.mem_recordings ht hp
    obtain ⟨c, hc⟩ := hfound.file
    exact Path.bytes_descend_ne_nil (fun n hn => ht.isName hc n (by simp [hn]))
      (Tree.bytes_ne_nil_of_find hdir)
  · by_cases hdir : ∃ base, t.find .target dir = .ok (base, .directory)
    · obtain ⟨base, hdir⟩ := hdir
      have hbase : t.get? (base ++ []) = some .directory := by
        rw [List.append_nil]
        exact (Tree.find_eq_ok_iff.mp hdir).2.2
      exact Tree.components_nodup ht hdir hbase
    · rw [Tree.recordings_eq_nil fun l hl => hdir ⟨l, hl⟩]
      simp

/-- The ways to the recordings that a scan takes: those that wait and that the outbox does not
have. -/
def newWays (o : Outbox) (t : Tree) (d : Destination) (dir : Path) : List (List Bytes) :=
  if d.isEnabled then (t.ways d dir).filter fun names => ! o.contains (dir.descend names) else []

theorem mem_newWays {t : Tree} (ht : t.WellFormed) {dir : Path} {names : List Bytes} :
    names ∈ o.newWays t d dir ↔
      t.Awaits d dir names ∧ d.isEnabled = true ∧ o.contains (dir.descend names) = false := by
  unfold newWays
  split
  · rename_i hd
    simp [Tree.mem_ways ht, hd]
  · rename_i hd
    simp [hd]

theorem scan_tasks {t : Tree} (ht : t.WellFormed) (h : o.schedule.Sound) (d : Destination)
    (dir : Path) (wall : Timestamp) (now : Nat) :
    (o.scan t d dir wall now).1 = (o.newWays t d dir).length ∧
      (o.scan t d dir wall now).2.tasks = o.tasks.filter (·.due ≤ now) ++
        (o.newWays t d dir).map (fun names => Task.fresh (dir.descend names) d wall now) ++
        o.tasks.filter (now < ·.due) := by
  have hsplit := filter_append_filter o.sorted_tasks now
  by_cases hd : d.isEnabled = true
  · obtain ⟨hne, hapart⟩ := recordings_apart ht d dir
    have hdue : ∀ t ∈ o.tasks.filter (·.due ≤ now), t.due ≤ now := by simp
    have hlater : ∀ t ∈ o.tasks.filter (now < ·.due), now < t.due := by simp
    obtain ⟨hcount, htasks⟩ := enqueueAll_tasks h hd wall hne hapart hsplit.symm hdue hlater
    have hways : (t.recordings d dir).filter (! o.contains ·) =
        (o.newWays t d dir).map dir.descend := by
      rw [Tree.recordings_eq_map, List.filter_map, newWays, if_pos hd]
      rfl
    rw [scan, hcount, htasks, hways]
    simp [Function.comp_def]
  · have hnone : o.newWays t d dir = [] := by simp [newWays, hd]
    rw [scan, enqueueAll_disabled (by simpa using hd), hnone]
    simpa using hsplit.symm

theorem contains_of_scan {t : Tree} (ht : t.WellFormed) (h : o.schedule.Sound)
    (hd : d.isEnabled = true) {dir p : Path} (hp : p ∈ t.recordings d dir) (wall : Timestamp)
    (now : Nat) : (o.scan t d dir wall now).2.contains p = true := by
  have hgrows : o.Grows (o.scan t d dir wall now).2 := grows_enqueueAll h d wall now _
  by_cases hwaits : o.contains p = true
  · exact hgrows.2 p hwaits
  · rw [Tree.recordings_eq_map] at hp
    obtain ⟨names, hnames, rfl⟩ := List.mem_map.mp hp
    have hnew : names ∈ o.newWays t d dir := by
      rw [mem_newWays ht]
      exact ⟨(Tree.mem_ways ht).mp hnames, hd, by simpa using hwaits⟩
    rw [contains_iff hgrows.1, (scan_tasks ht h d dir wall now).2]
    refine ⟨Task.fresh (dir.descend names) d wall now, ?_, by simp [Task.fresh]⟩
    exact List.mem_append_left _ (List.mem_append_right _ (List.mem_map.mpr ⟨names, hnew, rfl⟩))

/-- A spool with two recordings that wait, one of them in the directory of a day. A hidden file, a link
back to the spool, and a directory that cannot be read stand beside them. -/
def datedSpool : Tree :=
  let home := Bytes.ofText "spool"
  { entries :=
      [([home], .directory), ([home, Bytes.ofText "b"], .file []),
        ([home, Bytes.ofText "a"], .directory), ([home, Bytes.ofText "a", Bytes.ofText "c"], .file []),
        ([home, Bytes.ofText ".d"], .file []), ([home, Bytes.ofText "e"], .link (.ofText ".")),
        ([home, Bytes.ofText "f"], { entry := .directory, readable := false }),
        ([home, Bytes.ofText "f", Bytes.ofText "g"], .file [])]
    workDir := [home] }

end Outbox
end RecordingDelivery
