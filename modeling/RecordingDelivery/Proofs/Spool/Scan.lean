import RecordingDelivery.Proofs.Files.Calls
import RecordingDelivery.Proofs.Spool.Marker
import RecordingDelivery.Spool.Scan

/-!
What a search for recordings finds, by what stands where below its directory. A tree in which the way
to the directory is what it was, and all directories are, gives the recordings that are left.
-/
namespace RecordingDelivery.Tree

variable {t t' : Tree} {d : Destination} {dir : Path} {base : Location}

/-- The way to a directory, and all directories, are what they were. -/
structure Keeps (t t' : Tree) (dir : Path) : Prop where
  workDir : t'.workDir = t.workDir
  directories : ∀ m, t.get? m = some .directory → t'.node? m = t.node? m
  links : ∀ m ∈ t.linksTo dir, t'.get? m = t.get? m

theorem Keeps.refl (t : Tree) (dir : Path) : t.Keeps t dir := ⟨rfl, fun _ _ => rfl, fun _ _ => rfl⟩

theorem Keeps.get? (h : t.Keeps t' dir) (m : Location) (hm : t.get? m = some .directory) :
    t'.get? m = some .directory :=
  (get?_of_node? (h.directories m hm)).trans hm

theorem walk_names_append {links : Nat} {l : Location} {more : List Bytes} (hmore : more ≠ []) :
    t.walk .target links l (dir.names ++ more) = t.walk .target links l (dir.steps ++ more) := by
  rw [Path.steps, List.append_assoc]
  split
  · refine walk_append_congr hmore (by simp) ?_ links l dir.names
    intro links l
    exact (walk_stay (.inl rfl)).symm
  · rfl

theorem Keeps.find_dir (h : t.Keeps t' dir) (hdir : t.find .target dir = .ok (base, .directory)) :
    t'.find .target dir = .ok (base, .directory) := by
  obtain ⟨htext, hwalk, hbase⟩ := find_eq_ok_iff.mp hdir
  rw [find_eq_ok_iff, h.workDir]
  exact ⟨htext, (walk_stable h.get? h.links hwalk hbase).1, h.get? _ hbase⟩

theorem Keeps.walk_below (h : t.Keeps t' dir)
    (hdir : t.find .target dir = .ok (base, .directory)) :
    ∃ left, ∀ sub more, sub ++ more ≠ [] → (∀ n ∈ sub, Path.IsName n) →
      (∀ front back, sub = front ++ back → front ≠ [] → t.get? (base ++ front) = some .directory) →
      t'.walk .target linkLimit (start dir t'.workDir) (dir.names ++ (sub ++ more)) =
        if ∀ n ∈ sub, n.length ≤ nameLimit then t'.walk .target left (base ++ sub) more
        else .error .nameTooLong := by
  obtain ⟨-, hwalk, hbase⟩ := find_eq_ok_iff.mp hdir
  obtain ⟨-, left, hleft⟩ := walk_stable h.get? h.links hwalk hbase
  refine ⟨left, ?_⟩
  intro sub more hne hsub hdirs
  rw [walk_names_append hne, h.workDir, (hleft _ hne).2]
  exact walk_down more hsub fun front back hfront hf => h.get? _ (hdirs front back hfront hf)

/-- Both trees have the directories below, or the walk to them fails by the lengths of the names. -/
theorem Keeps.find_descend (h : t.Keeps t' dir) (ht : t.WellFormed)
    (hdir : t.find .target dir = .ok (base, .directory)) {sub : List Bytes}
    (hsub : t.get? (base ++ sub) = some .directory) :
    t'.find .target (dir.descend sub) = t.find .target (dir.descend sub) ∧
      (t.find .target (dir.descend sub) = .ok (base ++ sub, .directory) ∨
        ∃ fault, t.find .target (dir.descend sub) = .error fault) := by
  by_cases hnil : sub = []
  · subst hnil
    simp only [Path.descend, List.foldl_nil, List.append_nil]
    exact ⟨by rw [h.find_dir hdir, hdir], .inl hdir⟩
  have hnames : ∀ n ∈ sub, Path.IsName n := fun n hn => ht.isName hsub n (by simp [hn])
  have hdirs : ∀ front back, sub = front ++ back → front ≠ [] →
      t.get? (base ++ front) = some .directory := by
    intro front back hfront _
    by_cases hback : back = []
    · rw [hback, List.append_nil] at hfront
      rw [← hfront, hsub]
    · apply ht.directory_of_prefix hback (e := .directory)
      rw [List.append_assoc, ← hfront, hsub]
  have hsteps : (dir.descend sub).steps = dir.names ++ (sub ++ []) := by
    rw [Path.steps_descend hnames hnil, List.append_nil]
  have habs (l : Location) : start (dir.descend sub) l = start dir l := by
    rw [start, start, Path.isAbsolute_descend hnames]
  have hfind (u : Tree) (hu : t.Keeps u dir) : u.find .target (dir.descend sub) = (do
      checkText (dir.descend sub)
      if ∀ n ∈ sub, n.length ≤ nameLimit then .ok (base ++ sub, .directory)
      else .error .nameTooLong) := by
    obtain ⟨left, hleft⟩ := hu.walk_below hdir
    have hwalk := hleft sub [] (by simpa using hnil) hnames hdirs
    have hbelow := hu.get? _ hsub
    rw [find, resolve, habs, hsteps, hwalk]
    cases checkText (dir.descend sub) with
    | error fault => rfl
    | ok u =>
      by_cases hshort : ∀ n ∈ sub, n.length ≤ nameLimit
      · simp only [bind, Except.bind, if_pos hshort, walk, hbelow]
      · simp only [bind, Except.bind, if_neg hshort]
  rw [hfind t' h, hfind t (Keeps.refl t dir)]
  refine ⟨rfl, ?_⟩
  cases checkText (dir.descend sub) with
  | error fault => exact .inr ⟨fault, rfl⟩
  | ok u =>
    by_cases hshort : ∀ n ∈ sub, n.length ≤ nameLimit
    · exact .inl (by simp only [bind, Except.bind, if_pos hshort])
    · exact .inr ⟨.nameTooLong, by simp only [bind, Except.bind, if_neg hshort]⟩

theorem openDirectory_eq_ok_iff {p : Path} {l : Location} :
    t.openDirectory p = .ok l ↔
      t.find .target p = .ok (l, .directory) ∧ t.isReadable l = true := by
  unfold openDirectory
  cases t.find .target p with
  | error fault => simp [bind, Except.bind]
  | ok found =>
    obtain ⟨m, e⟩ := found
    by_cases he : e = .directory
    · subst he
      cases hread : t.isReadable m <;> by_cases hml : m = l <;>
        simp_all [bind, Except.bind]
    · simp [bind, Except.bind, he]

theorem Keeps.open_descend (h : t.Keeps t' dir) (ht : t.WellFormed)
    (hdir : t.find .target dir = .ok (base, .directory)) {sub : List Bytes}
    (hsub : t.get? (base ++ sub) = some .directory) :
    t'.openDirectory (dir.descend sub) = t.openDirectory (dir.descend sub) ∧
      (t.openDirectory (dir.descend sub) = .ok (base ++ sub) ∨
        ∃ fault, t.openDirectory (dir.descend sub) = .error fault) := by
  have hread : t'.isReadable (base ++ sub) = t.isReadable (base ++ sub) := by
    rw [isReadable, isReadable, h.directories _ hsub]
  obtain ⟨hsame, hfind | ⟨fault, hfind⟩⟩ := h.find_descend ht hdir hsub
  · rw [openDirectory, openDirectory, hsame, hfind]
    cases hr : t.isReadable (base ++ sub) with
    | true => simp [bind, Except.bind, hread, hr]
    | false => simp [bind, Except.bind, hread, hr]
  · rw [openDirectory, openDirectory, hsame, hfind]
    exact ⟨rfl, .inr ⟨fault, rfl⟩⟩

/-- Whether a recording that waits stands at the location of a path. -/
def isRecordingAt (t : Tree) (d : Destination) (p : Path) (l : Location) : Bool :=
  match t.get? l with
  | some (.file _) => d.isPending p
  | _ => false

def recordingsUnder (t : Tree) (d : Destination) (fuel : Nat) (p : Path) (l : Location)
    (n : Bytes) : List Path :=
  if isHidden n then []
  else if t.get? (l ++ [n]) = some .directory then
    if d.recurse then t.recordingsWithin d fuel (p.join n) else []
  else if t.isRecordingAt d (p.join n) (l ++ [n]) then [p.join n] else []

theorem flatMap_filterMap {α β γ : Type} (f : α → Option β) (g : β → List γ) (l : List α) :
    (l.filterMap f).flatMap g = l.flatMap fun a => ((f a).map g).getD [] := by
  induction l with
  | nil => rfl
  | cons a l ih => cases h : f a <;> simp [h, ih]

theorem recordingsWithin_ok {p : Path} {l : Location} (fuel : Nat)
    (hopen : t.openDirectory p = .ok l) :
    t.recordingsWithin d (fuel + 1) p = (t.names l).flatMap (t.recordingsUnder d fuel p l) := by
  have hlist : t.listDirectory p =
      .ok ((t.names l).filterMap fun n => (t.get? (l ++ [n])).map fun e => (n, e)) := by
    simp [listDirectory, hopen, bind, Except.bind]
  rw [recordingsWithin, hlist]
  dsimp only
  rw [flatMap_filterMap]
  refine congrArg (fun f => (t.names l).flatMap f) ?_
  funext n
  rcases Option.eq_none_or_eq_some (t.get? (l ++ [n])) with hget | ⟨e, hget⟩
  · simp [recordingsUnder, isRecordingAt, hget]
  · cases e <;> simp [recordingsUnder, isRecordingAt, hget]

theorem recordingsWithin_error {p : Path} {fault : Fault} (fuel : Nat)
    (hopen : t.openDirectory p = .error fault) : t.recordingsWithin d fuel p = [] := by
  cases fuel with
  | zero => rfl
  | succ fuel => simp [recordingsWithin, listDirectory, hopen, bind, Except.bind]

theorem recordings_eq_nil {p : Path} (h : ∀ l, t.find .target p ≠ .ok (l, .directory)) :
    t.recordings d p = [] := by
  cases hopen : t.openDirectory p with
  | error fault => exact recordingsWithin_error _ hopen
  | ok l => exact absurd (openDirectory_eq_ok_iff.mp hopen).1 (h l)

theorem bytes_ne_nil_of_find {p : Path} {found : Location × Entry}
    (h : t.find .target p = .ok found) : p.bytes ≠ [] := by
  intro hp
  have htext := (find_eq_ok_iff.mp h).1
  simp [checkText, hp] at htext

theorem recordingsUnder_eq_nil {fuel : Nat} {p : Path} {l : Location} {n : Bytes}
    (h : t.get? (l ++ [n]) = none) : t.recordingsUnder d fuel p l n = [] := by
  simp [recordingsUnder, isRecordingAt, h]

theorem length_le_depth {a : Location × Node} (ha : a ∈ t.entries) : a.1.length ≤ t.depth := by
  have hmono : ∀ (es : List (Location × Node)) (n : Nat),
      n ≤ es.foldl (fun d e => max d e.1.length) n := by
    intro es
    induction es with
    | nil => intro n; exact Nat.le_refl n
    | cons e es ih =>
      intro n
      exact Nat.le_trans (Nat.le_max_left n e.1.length) (ih _)
  have hmem : ∀ (es : List (Location × Node)) (n : Nat), a ∈ es →
      a.1.length ≤ es.foldl (fun d e => max d e.1.length) n := by
    intro es
    induction es with
    | nil => intro n h; simp at h
    | cons e es ih =>
      intro n h
      rcases List.mem_cons.mp h with rfl | h
      · exact Nat.le_trans (Nat.le_max_right n a.1.length) (hmono _ _)
      · exact ih _ h
  exact hmem t.entries 0 ha

theorem WellFormed.length_le_depth (ht : t.WellFormed) {l : Location} {e : Entry}
    (hl : t.get? l = some e) : l.length ≤ t.depth := by
  by_cases hnil : l = []
  · simp [hnil]
  · obtain ⟨a, ha, -⟩ := get?_eq_some_iff.mp hl
    exact Tree.length_le_depth ((ht.node?_eq_some_iff hnil).mp ha)

section Below

variable (ht : t.WellFormed) (hdir : t.find .target dir = .ok (base, .directory))
include ht hdir

theorem mem_recordingsUnder {fuel : Nat} {sub : List Bytes} {n : Bytes} {p : Path}
    (hp : p ∈ t.recordingsUnder d fuel (dir.descend sub) (base ++ sub) n) :
    ∃ rest, p = dir.descend (sub ++ n :: rest) ∧ d.isPending p = true ∧
      ∃ c, t.get? (base ++ (sub ++ n :: rest)) = some (.file c) := by
  induction fuel using Nat.strongRecOn generalizing sub n with
  | ind fuel ih =>
    rw [recordingsUnder, ← Path.descend_concat, List.append_assoc] at hp
    split at hp
    · simp at hp
    split at hp
    · rename_i hdirectory
      split at hp
      · cases fuel with
        | zero => simp [recordingsWithin] at hp
        | succ fuel =>
          rcases ((Keeps.refl t dir).open_descend ht hdir hdirectory).2 with hopen | ⟨fault, hopen⟩
          · rw [recordingsWithin_ok fuel hopen] at hp
            obtain ⟨m, -, hm⟩ := List.mem_flatMap.mp hp
            obtain ⟨rest, hrest⟩ := ih fuel (Nat.lt_succ_self fuel) hm
            exact ⟨m :: rest, by simpa using hrest⟩
          · rw [recordingsWithin_error _ hopen] at hp
            simp at hp
      · simp at hp
    · split at hp
      · rename_i hrecording
        obtain rfl : p = dir.descend (sub ++ [n]) := by simpa using hp
        rw [isRecordingAt] at hrecording
        split at hrecording
        · rename_i c hc
          exact ⟨[], rfl, hrecording, c, hc⟩
        · simp at hrecording
      · simp at hp

theorem mem_recordingsWithin {fuel : Nat} {sub : List Bytes}
    (hsub : t.get? (base ++ sub) = some .directory) {p : Path}
    (hp : p ∈ t.recordingsWithin d fuel (dir.descend sub)) :
    ∃ rest, rest ≠ [] ∧ p = dir.descend (sub ++ rest) ∧ d.isPending p = true ∧
      ∃ c, t.get? (base ++ (sub ++ rest)) = some (.file c) := by
  cases fuel with
  | zero => simp [recordingsWithin] at hp
  | succ fuel =>
    rcases ((Keeps.refl t dir).open_descend ht hdir hsub).2 with hopen | ⟨fault, hopen⟩
    · rw [recordingsWithin_ok fuel hopen] at hp
      obtain ⟨n, -, hn⟩ := List.mem_flatMap.mp hp
      obtain ⟨rest, hrest⟩ := mem_recordingsUnder ht hdir hn
      exact ⟨n :: rest, by simp, hrest⟩
    · rw [recordingsWithin_error _ hopen] at hp
      simp at hp

/-- A search goes deep enough when it may go as deep as the tree. -/
theorem recordingsWithin_fuel (fuel fuel' : Nat) {sub : List Bytes}
    (hsub : t.get? (base ++ sub) = some .directory) (h : t.depth < fuel + (base ++ sub).length)
    (h' : t.depth < fuel' + (base ++ sub).length) :
    t.recordingsWithin d fuel (dir.descend sub) = t.recordingsWithin d fuel' (dir.descend sub) := by
  have hlength := ht.length_le_depth hsub
  induction fuel generalizing fuel' sub with
  | zero => omega
  | succ fuel ih =>
    cases fuel' with
    | zero => omega
    | succ fuel' =>
      rcases ((Keeps.refl t dir).open_descend ht hdir hsub).2 with hopen | ⟨fault, hopen⟩
      · rw [recordingsWithin_ok fuel hopen, recordingsWithin_ok fuel' hopen]
        refine congrArg (fun f => (t.names (base ++ sub)).flatMap f) ?_
        funext n
        simp only [recordingsUnder, ← Path.descend_concat]
        by_cases hdirectory : t.get? (base ++ sub ++ [n]) = some .directory
        · have hget := hdirectory
          rw [List.append_assoc] at hget
          have hdeep : (base ++ (sub ++ [n])).length = (base ++ sub).length + 1 := by
            simp only [List.length_append, List.length_singleton]
            omega
          have := ih fuel' hget (by omega) (by omega) (ht.length_le_depth hget)
          rw [this]
        · simp only [if_neg hdirectory]
      · rw [recordingsWithin_error _ hopen, recordingsWithin_error _ hopen]

/-- No two recordings that are found are spellings of one path. -/
theorem components_nodup {fuel : Nat} {sub : List Bytes}
    (hsub : t.get? (base ++ sub) = some .directory) :
    ((t.recordingsWithin d fuel (dir.descend sub)).map (·.components)).Nodup := by
  induction fuel generalizing sub with
  | zero => simp [recordingsWithin]
  | succ fuel ih =>
    rcases ((Keeps.refl t dir).open_descend ht hdir hsub).2 with hopen | ⟨fault, hopen⟩
    · rw [recordingsWithin_ok fuel hopen, List.map_flatMap, List.nodup_flatMap]
      constructor
      · intro n _
        rw [recordingsUnder, ← Path.descend_concat, List.append_assoc]
        split
        · simp
        split
        · rename_i hdirectory
          split
          · exact ih hdirectory
          · simp
        · split <;> simp
      · apply (ht.names_nodup (base ++ sub)).imp
        intro n m hnm c hn hm
        obtain ⟨p, hp, hcp⟩ := List.mem_map.mp hn
        obtain ⟨q, hq, hcq⟩ := List.mem_map.mp hm
        obtain ⟨rest, hp, -, _, hget⟩ := mem_recordingsUnder ht hdir hp
        obtain ⟨rest', hq, -, _, hget'⟩ := mem_recordingsUnder ht hdir hq
        rw [hp, Path.components_descend (fun a ha => ht.isName hget a (by simp [ha]))] at hcp
        rw [hq, Path.components_descend (fun a ha => ht.isName hget' a (by simp [ha])), ← hcp] at hcq
        simp [hnm.symm] at hcq
    · rw [recordingsWithin_error _ hopen]
      simp

/-- Another tree that has the same directories below, and of the recordings only some, gives these in
the same order. -/
theorem recordingsWithin_filter (ht' : t'.WellFormed) (hkeeps : t.Keeps t' dir) {f : Path → Bool}
    (hdirs : ∀ sub, t'.get? (base ++ sub) = some .directory →
      t.get? (base ++ sub) = some .directory)
    (hleft : ∀ sub, t'.isRecordingAt d (dir.descend sub) (base ++ sub) =
      (t.isRecordingAt d (dir.descend sub) (base ++ sub) && f (dir.descend sub)))
    (fuel : Nat) {sub : List Bytes} (hsub : t.get? (base ++ sub) = some .directory) :
    t'.recordingsWithin d fuel (dir.descend sub) =
      (t.recordingsWithin d fuel (dir.descend sub)).filter f := by
  induction fuel generalizing sub with
  | zero => rfl
  | succ fuel ih =>
    obtain ⟨hsame, hopen | ⟨fault, hopen⟩⟩ := hkeeps.open_descend ht hdir hsub
    · rw [recordingsWithin_ok fuel hopen, recordingsWithin_ok fuel (hsame.trans hopen),
        List.filter_flatMap]
      have hunder (n : Bytes) : t'.recordingsUnder d fuel (dir.descend sub) (base ++ sub) n =
          (t.recordingsUnder d fuel (dir.descend sub) (base ++ sub) n).filter f := by
        simp only [recordingsUnder, ← Path.descend_concat, List.append_assoc]
        by_cases hhidden : isHidden n = true
        · simp [hhidden]
        by_cases hdirectory : t.get? (base ++ (sub ++ [n])) = some .directory
        · have hget := hkeeps.get? _ hdirectory
          rw [if_neg hhidden, if_neg hhidden, if_pos hdirectory, if_pos hget]
          split
          · exact ih hdirectory
          · rfl
        · have hget := mt (hdirs (sub ++ [n])) hdirectory
          rw [if_neg hhidden, if_neg hhidden, if_neg hdirectory, if_neg hget, hleft (sub ++ [n])]
          cases t.isRecordingAt d (dir.descend (sub ++ [n])) (base ++ (sub ++ [n])) <;>
            cases hf : f (dir.descend (sub ++ [n])) <;> simp [hf]
      rw [← funext hunder]
      have hnone {u : Tree} (hu : u.WellFormed) {n : Bytes} (hn : n ∉ u.names (base ++ sub)) :
          u.get? (base ++ sub ++ [n]) = none := by
        rw [hu.mem_names_iff, Option.isSome_iff_ne_none] at hn
        exact not_not.mp hn
      refine flatMap_eq_of_sorted (names_sorted _ _) (ht'.names_nodup _) (names_sorted _ _)
        (ht.names_nodup _) ?_ ?_
      · intro n _ hn
        rw [hunder, recordingsUnder_eq_nil (hnone ht hn)]
        rfl
      · intro n _ hn
        exact recordingsUnder_eq_nil (hnone ht' hn)
    · rw [recordingsWithin_error _ hopen, recordingsWithin_error _ (hsame.trans hopen)]
      rfl

end Below

end RecordingDelivery.Tree
