import RecordingDelivery.Proofs.Spool.Finalize
import RecordingDelivery.Proofs.Spool.Original

/-!
Trees in which some of the recordings that a search has found have been finalized. They are gone, or
files stand in the marked places; all else is what it was.
-/
namespace RecordingDelivery.Tree

def markOf (l : Location) : Location := l.dropLast ++ [Marker.uploadedName (l.getLast?.getD [])]

theorem markOf_append (l : Location) (n : Bytes) :
    markOf (l ++ [n]) = l ++ [Marker.uploadedName n] := by
  simp [markOf]

def marks (d : Destination) (base : Location) (done : List (List Bytes)) : List Location :=
  if d.deleteAfter then [] else done.map fun sub => markOf (base ++ sub)

/-- A recording that a search has found, by the names that lead to it. -/
structure IsFound (t : Tree) (d : Destination) (dir : Path) (base : Location) (sub : List Bytes) :
    Prop where
  ne_nil : sub ≠ []
  pending : d.isPending (dir.descend sub) = true
  file : ∃ c, t.get? (base ++ sub) = some (.file c)

theorem mem_recordings {t : Tree} (ht : t.WellFormed) {d : Destination} {dir p : Path}
    (hp : p ∈ t.recordings d dir) :
    ∃ base sub, t.find .target dir = .ok (base, .directory) ∧ t.IsFound d dir base sub ∧
      p = dir.descend sub := by
  have hdir : ∃ base, t.find .target dir = .ok (base, .directory) := by
    by_contra hno
    rw [recordings_eq_nil fun l hl => hno ⟨l, hl⟩] at hp
    simp at hp
  obtain ⟨base, hdir⟩ := hdir
  have hbase : t.get? (base ++ []) = some .directory := by
    rw [List.append_nil]
    exact (find_eq_ok_iff.mp hdir).2.2
  obtain ⟨sub, hne, hpath, hpending, hfile⟩ := mem_recordingsWithin ht hdir hbase hp
  exact ⟨base, sub, hdir, ⟨hne, hpath ▸ hpending, hfile⟩, hpath⟩

structure Settled (t t' : Tree) (d : Destination) (dir : Path) (base : Location)
    (done : List (List Bytes)) : Prop where
  wellFormed : t'.WellFormed
  workDir : t'.workDir = t.workDir
  found : ∀ sub ∈ done, t.IsFound d dir base sub
  gone : ∀ sub ∈ done, t'.get? (base ++ sub) = none
  marked : ∀ l ∈ marks d base done,
    (∃ c, t'.get? l = some (.file c)) ∧ t.get? l ≠ some .directory
  same : ∀ l, l ∉ done.map (base ++ ·) → l ∉ marks d base done → t'.node? l = t.node? l
  apart : d.deleteAfter = false → ∀ sub ∈ done, t.hasBothNames (dir.descend sub) = false
  placed : d.deleteAfter = false → ∀ sub ∈ done, ∃ q,
    Marker.uploadedPath (dir.descend sub) = some q ∧ t.place? q = some (markOf (base ++ sub))

variable {t t' : Tree} {d : Destination} {dir : Path} {base : Location} {done : List (List Bytes)}

theorem settled_nil (ht : t.WellFormed) : Settled t t d dir base [] := by
  refine ⟨ht, rfl, ?_, ?_, ?_, fun _ _ _ => rfl, ?_, ?_⟩ <;> simp [marks]

theorem Settled.get?_same (h : Settled t t' d dir base done) {l : Location}
    (hdone : l ∉ done.map (base ++ ·)) (hmark : l ∉ marks d base done) : t'.get? l = t.get? l :=
  get?_of_node? (h.same l hdone hmark)

theorem Settled.isDirectory_iff (h : Settled t t' d dir base done) (l : Location) :
    t'.get? l = some .directory ↔ t.get? l = some .directory := by
  by_cases hdone : l ∈ done.map (base ++ ·)
  · obtain ⟨sub, hsub, rfl⟩ := List.mem_map.mp hdone
    obtain ⟨c, hc⟩ := (h.found sub hsub).file
    simp [h.gone sub hsub, hc]
  · by_cases hmark : l ∈ marks d base done
    · obtain ⟨⟨c, hc⟩, hno⟩ := h.marked l hmark
      simp [hc, hno]
    · rw [h.get?_same hdone hmark]

theorem Settled.link_cases (h : Settled t t' d dir base done) {l : Location}
    (hl : l ∈ t.linksTo dir) :
    (l ∉ marks d base done ∧ t'.get? l = t.get? l) ∨
      (l ∈ marks d base done ∧ ∃ c, t'.get? l = some (.file c)) := by
  obtain ⟨target, hlink⟩ := link_of_mem_linksOn hl
  have hdone : l ∉ done.map (base ++ ·) := by
    intro hm
    obtain ⟨sub, hsub, rfl⟩ := List.mem_map.mp hm
    obtain ⟨c, hc⟩ := (h.found sub hsub).file
    rw [hlink] at hc
    simp at hc
  by_cases hmark : l ∈ marks d base done
  · exact .inr ⟨hmark, (h.marked l hmark).1⟩
  · exact .inl ⟨hmark, h.get?_same hdone hmark⟩

theorem Settled.keeps (h : Settled t t' d dir base done)
    (hway : ∀ l ∈ marks d base done, l ∉ t.linksTo dir) : t.Keeps t' dir := by
  refine ⟨h.workDir, fun m hm => h.same m ?_ ?_, fun m hm => ?_⟩
  · intro hdone
    obtain ⟨sub, hsub, rfl⟩ := List.mem_map.mp hdone
    obtain ⟨c, hc⟩ := (h.found sub hsub).file
    rw [hm] at hc
    simp at hc
  · exact fun hmark => (h.marked m hmark).2 hm
  · rcases h.link_cases hm with ⟨-, hsame⟩ | ⟨hmark, -⟩
    · exact hsame
    · exact absurd hm (hway m hmark)

section

variable (ht : t.WellFormed)
include ht

theorem IsFound.concat {sub : List Bytes} (h : t.IsFound d dir base sub) :
    ∃ front n, sub = front ++ [n] ∧ (∀ m ∈ sub, Path.IsName m) ∧
      Marker.isUploadedName n = false := by
  obtain ⟨front, n, hconcat⟩ := (List.eq_nil_or_concat sub).resolve_left h.ne_nil
  rw [List.concat_eq_append] at hconcat
  subst hconcat
  obtain ⟨c, hc⟩ := h.file
  have hnames := ht.isName hc
  have hn : Path.IsName n := hnames n (by simp)
  refine ⟨front, n, rfl, fun m hm => hnames m (List.mem_append_right base hm), ?_⟩
  have hpending := h.pending
  rw [Path.descend_concat, Destination.isPending, Path.fileName_join _ hn] at hpending
  have := (Bool.and_eq_true_iff.mp hpending).1
  simpa using this

theorem IsFound.ne_mark {sub sub' : List Bytes} (h : t.IsFound d dir base sub)
    (h' : t.IsFound d dir base sub') : base ++ sub ≠ markOf (base ++ sub') := by
  obtain ⟨front, n, rfl, -, hn⟩ := h.concat ht
  obtain ⟨front', n', rfl, -, -⟩ := h'.concat ht
  rw [← List.append_assoc, ← List.append_assoc, markOf_append]
  intro he
  have hlast := congrArg List.getLast? he
  have : n = Marker.uploadedName n' := by simpa using hlast
  rw [this, Marker.isUploadedName_uploadedName] at hn
  simp at hn

theorem IsFound.markOf_inj {sub sub' : List Bytes} (h : t.IsFound d dir base sub)
    (h' : t.IsFound d dir base sub') (he : markOf (base ++ sub) = markOf (base ++ sub')) :
    sub = sub' := by
  obtain ⟨front, n, rfl, -, -⟩ := h.concat ht
  obtain ⟨front', n', rfl, -, -⟩ := h'.concat ht
  rw [← List.append_assoc, ← List.append_assoc, markOf_append, markOf_append] at he
  obtain ⟨hfront, hn⟩ := List.append_inj' he rfl
  rw [List.append_cancel_left hfront, Marker.uploadedName_injective (List.singleton_inj.mp hn)]

theorem Settled.not_mem_marks (h : Settled t t' d dir base done) {sub : List Bytes}
    (hsub : t.IsFound d dir base sub) : base ++ sub ∉ marks d base done := by
  unfold marks
  split
  · simp
  · intro hm
    obtain ⟨sub', hsub', he⟩ := List.mem_map.mp hm
    exact hsub.ne_mark ht (h.found sub' hsub') he.symm

end

theorem Settled.drop (h : Settled t t' d dir base done) (hdelete : d.deleteAfter = true)
    {sub : List Bytes} (hsub : t.IsFound d dir base sub) {c : Bytes}
    (hfile : t'.get? (base ++ sub) = some (.file c)) :
    Settled t (t'.drop (base ++ sub)) d dir base (sub :: done) := by
  have hmarks (done : List (List Bytes)) : marks d base done = [] := by simp [marks, hdelete]
  have hne : base ++ sub ≠ [] := by simp [hsub.ne_nil]
  refine ⟨h.wellFormed.drop hfile, h.workDir, ?_, ?_, ?_, ?_, ?_, ?_⟩
  · intro s hs
    rcases List.mem_cons.mp hs with rfl | hs
    · exact hsub
    · exact h.found s hs
  · intro s hs
    by_cases he : base ++ s = base ++ sub
    · rw [he, get?_drop_self _ hne]
    · rw [get?_drop_other _ he]
      rcases List.mem_cons.mp hs with rfl | hs
      · exact absurd rfl he
      · exact h.gone s hs
  · intro l hl
    rw [hmarks] at hl
    simp at hl
  · intro l hl _
    rw [List.map_cons, List.mem_cons, not_or] at hl
    rw [node?_drop_other _ hl.1]
    exact h.same l hl.2 (by simp [hmarks])
  · simp [hdelete]
  · simp [hdelete]

theorem descend_injOn (ht : t.WellFormed) {sub sub' : List Bytes} {e e' : Entry}
    (h : t.get? (base ++ sub) = some e) (h' : t.get? (base ++ sub') = some e')
    (heq : dir.descend sub = dir.descend sub') : sub = sub' := by
  have hnames := congrArg Path.names heq
  rw [Path.names_descend fun n hn => ht.isName h n (by simp [hn]),
    Path.names_descend fun n hn => ht.isName h' n (by simp [hn])] at hnames
  exact List.append_cancel_left hnames

section

variable (hdir : t.find .target dir = .ok (base, .directory))
include hdir

/-- Where a link on the way to the directory has been replaced, nothing is found there any more, and
nothing is finalized. -/
theorem Settled.broken (h : Settled t t' d dir base done)
    (hway : ∃ l ∈ marks d base done, l ∈ t.linksTo dir) :
    (∀ more, more ≠ [] → t'.walk .target linkLimit (start dir t'.workDir) (dir.names ++ more) =
      .error .notDirectory) ∧ t'.recordings d dir = [] := by
  obtain ⟨-, hwalk, -⟩ := find_eq_ok_iff.mp hdir
  have hdirs (m : Location) (hm : t.get? m = some .directory) : t'.get? m = some .directory :=
    (h.isDirectory_iff m).mpr hm
  have hlinks : ∀ m ∈ t.linksTo dir, t'.get? m = t.get? m ∨ ∃ c, t'.get? m = some (.file c) := by
    intro m hm
    rcases h.link_cases hm with ⟨-, hsame⟩ | ⟨-, hfile⟩
    · exact .inl hsame
    · exact .inr hfile
  have hbroken : ∃ m ∈ t.linksTo dir, ∃ c, t'.get? m = some (.file c) := by
    obtain ⟨l, hl, hlink⟩ := hway
    exact ⟨l, hlink, (h.marked l hl).1⟩
  obtain ⟨hmore, hend⟩ := walk_broken hdirs hlinks hbroken hwalk
  rw [h.workDir]
  constructor
  · intro more hne
    rw [walk_names_append hne]
    exact hmore more hne
  · apply recordings_eq_nil
    intro l hl
    obtain ⟨-, hwalk', hget⟩ := find_eq_ok_iff.mp hl
    rw [h.workDir] at hwalk'
    obtain ⟨c, hc⟩ := hend l hwalk'
    rw [hc] at hget
    simp at hget

omit hdir in
theorem Settled.move (ht : t.WellFormed) (h : Settled t t' d dir base done)
    (hkeep : d.deleteAfter = false) {front : List Bytes} {n : Bytes}
    (hsub : t.IsFound d dir base (front ++ [n])) {c : Bytes}
    (hfile : t'.get? (base ++ front ++ [n]) = some (.file c))
    (htarget : t'.get? (base ++ front ++ [Marker.uploadedName n]) ≠ some .directory) {q : Path}
    (hq : Marker.uploadedPath (dir.descend (front ++ [n])) = some q)
    (hplace : t.place? q = some (base ++ front ++ [Marker.uploadedName n]))
    (hapart : t.hasBothNames (dir.descend (front ++ [n])) = false) :
    Settled t (t'.move (base ++ front ++ [n]) (base ++ front ++ [Marker.uploadedName n])) d dir base
      ((front ++ [n]) :: done) := by
  obtain ⟨front', n', he, hnames, -⟩ := hsub.concat ht
  obtain ⟨rfl, rfl⟩ : front = front' ∧ n = n' := by simpa using he
  have hnm := Marker.ne_uploadedName n
  have hmark : markOf (base ++ (front ++ [n])) = base ++ front ++ [Marker.uploadedName n] := by
    rw [← List.append_assoc, markOf_append]
  have hmarks : marks d base ((front ++ [n]) :: done) =
      (base ++ front ++ [Marker.uploadedName n]) :: marks d base done := by
    simp [marks, hkeep, ← hmark]
  have hnode := h.wellFormed.node?_move hnm hfile htarget
  have hsubmark : base ++ front ++ [Marker.uploadedName n] ∉ done.map (base ++ ·) := by
    intro hm
    obtain ⟨s, hs, hse⟩ := List.mem_map.mp hm
    exact (h.found s hs).ne_mark ht hsub (hse.trans hmark.symm)
  have hfound : ∀ s ∈ (front ++ [n]) :: done, t.IsFound d dir base s := by
    intro s hs
    rcases List.mem_cons.mp hs with rfl | hs
    · exact hsub
    · exact h.found s hs
  refine ⟨h.wellFormed.move hnm hfile (Marker.isName_uploadedName (hnames n (by simp))),
    h.workDir, hfound, ?_, ?_, ?_, ?_, ?_⟩
  · intro s hs
    have hsm : base ++ s ≠ base ++ front ++ [Marker.uploadedName n] := by
      rw [← hmark]
      exact (hfound s hs).ne_mark ht hsub
    rw [get?_eq_none_iff, hnode, if_neg hsm]
    split
    · rfl
    · rename_i hother
      rcases List.mem_cons.mp hs with rfl | hs
      · exact absurd (List.append_assoc base front [n]).symm hother
      · exact get?_eq_none_iff.mp (h.gone s hs)
  · intro l hl
    rw [hmarks] at hl
    by_cases hlm : l = base ++ front ++ [Marker.uploadedName n]
    · have hmoved := hnode l
      rw [if_pos hlm] at hmoved
      exact ⟨⟨c, (get?_of_node? hmoved).trans hfile⟩,
        hlm ▸ mt (h.isDirectory_iff _).mpr htarget⟩
    · have hl := (List.mem_cons.mp hl).resolve_left hlm
      have hlf : l ≠ base ++ front ++ [n] := by
        rintro rfl
        rw [List.append_assoc] at hl
        exact h.not_mem_marks ht hsub hl
      have hkept := hnode l
      rw [if_neg hlm, if_neg hlf] at hkept
      rw [get?_of_node? hkept]
      exact h.marked l hl
  · intro l hl hlm
    rw [hmarks, List.mem_cons, not_or] at hlm
    rw [List.map_cons, List.mem_cons, not_or, ← List.append_assoc] at hl
    rw [hnode, if_neg hlm.1, if_neg hl.1]
    exact h.same l hl.2 hlm.2
  · intro _ s hs
    rcases List.mem_cons.mp hs with rfl | hs
    · exact hapart
    · exact h.apart hkeep s hs
  · intro _ s hs
    rcases List.mem_cons.mp hs with rfl | hs
    · exact ⟨q, hq, by rw [hplace, hmark]⟩
    · exact h.placed hkeep s hs

theorem Keeps.walk_parent (ht : t.WellFormed) (h : t.Keeps t' dir) {front : List Bytes} {n c : Bytes}
    (hnames : ∀ m ∈ front ++ [n], Path.IsName m)
    (hfile : t.get? (base ++ (front ++ [n])) = some (.file c)) :
    t'.walk .target linkLimit (start (dir.descend (front ++ [n])) t'.workDir)
        (dir.names ++ front ++ [[]]) =
      if ∀ m ∈ front, m.length ≤ nameLimit then .ok (base ++ front) else .error .nameTooLong := by
  have hdirs : ∀ f back, front = f ++ back → f ≠ [] → t.get? (base ++ f) = some .directory := by
    intro f back hf _
    have hget : t.get? ((base ++ f) ++ (back ++ [n])) = some (.file c) := by
      rw [← hfile, hf]
      simp
    exact ht.directory_of_prefix (by simp) hget
  have hfront : ∀ m ∈ front, Path.IsName m := fun m hm => hnames m (by simp [hm])
  have hstart (l : Location) : start (dir.descend (front ++ [n])) l = start dir l := by
    rw [start, start, Path.isAbsolute_descend hnames]
  obtain ⟨left, hleft⟩ := h.walk_below hdir
  rw [hstart, List.append_assoc, hleft front [[]] (by simp) hfront hdirs, walk_stay (.inl rfl), walk]

theorem Settled.walk_parent (h : Settled t t' d dir base done) {front : List Bytes} {n : Bytes}
    (hnames : ∀ m ∈ front ++ [n], Path.IsName m)
    (hway : ∃ l ∈ marks d base done, l ∈ t.linksTo dir) :
    t'.walk .target linkLimit (start (dir.descend (front ++ [n])) t'.workDir)
        (dir.names ++ front ++ [[]]) = .error .notDirectory := by
  have hlost := (h.broken hdir hway).1 (front ++ [[]]) (by simp)
  rw [start, Path.isAbsolute_descend hnames, List.append_assoc]
  exact hlost

omit hdir in
/-- A recording that is left has its marked name beside it if it had it at first. -/
theorem Settled.isTwin_mark (ht : t.WellFormed) (h : Settled t t' d dir base done)
    (hkeep : d.deleteAfter = false) {sub : List Bytes} (hsub : t.IsFound d dir base sub)
    (hleft : sub ∉ done) :
    t'.isTwin (base ++ sub) (markOf (base ++ sub)) = t.isTwin (base ++ sub) (markOf (base ++ sub)) := by
  have hsame : t'.node? (base ++ sub) = t.node? (base ++ sub) := by
    apply h.same _ ?_ (h.not_mem_marks ht hsub)
    intro hm
    obtain ⟨s, hs, he⟩ := List.mem_map.mp hm
    exact hleft (List.append_cancel_left he ▸ hs)
  have hmark : t'.node? (markOf (base ++ sub)) = t.node? (markOf (base ++ sub)) := by
    apply h.same
    · intro hm
      obtain ⟨s, hs, he⟩ := List.mem_map.mp hm
      exact (h.found s hs).ne_mark ht hsub he
    · intro hm
      rw [marks, hkeep] at hm
      obtain ⟨s, hs, he⟩ := List.mem_map.mp hm
      exact hleft ((h.found s hs).markOf_inj ht hsub he ▸ hs)
  rw [isTwin, isTwin, hsame, hmark]

/-- The finalization of a recording fails, or leaves it as it has both names, and changes nothing, or it
is one more that is done. -/
theorem Settled.finalize (ht : t.WellFormed) (h : Settled t t' d dir base done) {sub : List Bytes}
    (hsub : t.IsFound d dir base sub) :
    (∃ e, t'.finalize (dir.descend sub) d.deleteAfter = .error e) ∨
      ∃ r t'', t'.finalize (dir.descend sub) d.deleteAfter = .ok (r, t'') ∧
        ((d.deleteAfter = false ∧ t.hasBothNames (dir.descend sub) = true ∧ t'' = t') ∨
          Settled t t'' d dir base (sub :: done)) := by
  obtain ⟨front, n, rfl, hnames, -⟩ := hsub.concat ht
  have hfront : ∀ m ∈ front, Path.IsName m := fun m hm => hnames m (by simp [hm])
  have hn := hnames n (by simp)
  have hsteps : (dir.descend (front ++ [n])).names = (dir.names ++ front) ++ [n] := by
    rw [Path.names_descend hnames, List.append_assoc]
  by_cases hway : ∃ l ∈ marks d base done, l ∈ t.linksTo dir
  · exact .inl (finalize_error hn hsteps d.deleteAfter (h.walk_parent hdir hnames hway))
  obtain ⟨c, hc⟩ := hsub.file
  have hwalk := (Keeps.refl t dir).walk_parent hdir ht hnames hc
  have hwalk' := (h.keeps fun l hl hlink => hway ⟨l, hl, hlink⟩).walk_parent hdir ht hnames hc
  by_cases hshort : ∀ m ∈ front, m.length ≤ nameLimit
  · rw [if_pos hshort] at hwalk hwalk'
    have hget : t'.get? (base ++ front ++ [n]) ≠ some .directory := by
      rw [List.append_assoc, ne_eq, h.isDirectory_iff, hc]
      simp
    rcases finalize_cases hn hsteps hwalk' hget d.deleteAfter with
      herror | ⟨hsome, hdone⟩
    · exact .inl herror
    · right
      have hleft : front ++ [n] ∉ done := by
        intro hm
        rw [List.append_assoc] at hsome
        exact hsome (h.gone _ hm)
      have hfile : t'.get? (base ++ front ++ [n]) = some (.file c) := by
        rw [List.append_assoc, ← hc]
        refine h.get?_same ?_ (h.not_mem_marks ht hsub)
        intro hm
        obtain ⟨s, hs, he⟩ := List.mem_map.mp hm
        exact hleft (List.append_cancel_left he ▸ hs)
      rcases hdone with ⟨hdelete, hok⟩ | ⟨hkeep, q, hq, hparent, hbeside, hmove⟩
      · rw [List.append_assoc] at hok hfile
        exact ⟨_, _, hok, .inr (h.drop hdelete hsub hfile)⟩
      · -- the place of the mark is the one that it had at first
        have hparents : t.parent (dir.descend (front ++ [n])) =
            t'.parent (dir.descend (front ++ [n])) := by
          rw [parent_eq hn hsteps, parent_eq hn hsteps, hwalk, hwalk']
        have hplace : t.place? q = some (base ++ front ++ [Marker.uploadedName n]) := by
          rw [place?, parent_uploaded hq (hparents.trans hparent), ← parent_uploaded hq hparent,
            hbeside]
        have hboth : t.hasBothNames (dir.descend (front ++ [n])) =
            t'.isTwin (base ++ front ++ [n]) (base ++ front ++ [Marker.uploadedName n]) := by
          have htwin := h.isTwin_mark ht hkeep hsub hleft
          rw [← List.append_assoc, markOf_append] at htwin
          rw [hasBothNames_eq hq (place?_of_parent (hparents.trans hparent)) hplace, htwin]
        rcases hmove with ⟨htwin, hok⟩ | ⟨htwin, htarget, hok⟩
        · exact ⟨_, _, hok, .inl ⟨hkeep, hboth.trans htwin, rfl⟩⟩
        · exact ⟨_, _, hok,
            .inr (h.move ht hkeep hsub hfile htarget hq hplace (hboth.trans htwin))⟩
  · rw [if_neg hshort] at hwalk'
    exact .inl (finalize_error hn hsteps d.deleteAfter hwalk')

omit hdir in
theorem Settled.isRecordingAt_eq (ht : t.WellFormed) (h : Settled t t' d dir base done)
    (sub : List Bytes) :
    t'.isRecordingAt d (dir.descend sub) (base ++ sub) =
      (t.isRecordingAt d (dir.descend sub) (base ++ sub) &&
        ! (done.map dir.descend).contains (dir.descend sub)) := by
  by_cases hdone : sub ∈ done
  · have hcontains : (done.map dir.descend).contains (dir.descend sub) = true := by
      rw [List.contains_iff_mem]
      exact List.mem_map_of_mem hdone
    rw [hcontains]
    simp [isRecordingAt, h.gone sub hdone]
  have hother : base ++ sub ∉ done.map (base ++ ·) := by
    intro hm
    obtain ⟨s, hs, he⟩ := List.mem_map.mp hm
    exact hdone (List.append_cancel_left he ▸ hs)
  by_cases hmark : base ++ sub ∈ marks d base done
  · -- a marked name is no recording, now or before
    have hpending : d.isPending (dir.descend sub) = false := by
      unfold marks at hmark
      split at hmark
      · simp at hmark
      obtain ⟨s, hs, he⟩ := List.mem_map.mp hmark
      obtain ⟨front, n, rfl, hnames, -⟩ := (h.found s hs).concat ht
      rw [← List.append_assoc, markOf_append, List.append_assoc] at he
      rw [← List.append_cancel_left he, Path.descend_concat, Destination.isPending,
        Path.fileName_join _ (Marker.isName_uploadedName (hnames n (by simp)))]
      simp [Marker.isUploadedName_uploadedName]
    unfold isRecordingAt
    split <;> split <;> simp [hpending]
  · rw [isRecordingAt, isRecordingAt, h.get?_same hother hmark]
    split
    · rename_i c hc
      have hleft : (done.map dir.descend).contains (dir.descend sub) = false := by
        rw [← Bool.not_eq_true, List.contains_iff_mem]
        intro hm
        obtain ⟨s, hs, he⟩ := List.mem_map.mp hm
        obtain ⟨c', hc'⟩ := (h.found s hs).file
        exact hdone (descend_injOn ht hc' hc he ▸ hs)
      rw [hleft]
      simp
    · rfl

/-- What another search finds: what is left, in the same order, unless the way is cut. -/
theorem Settled.recordings (ht : t.WellFormed) (h : Settled t t' d dir base done)
    (hway : ∀ l ∈ marks d base done, l ∉ t.linksTo dir) :
    t'.recordings d dir =
      (t.recordings d dir).filter fun p => ! (done.map dir.descend).contains p := by
  have hkeeps := h.keeps hway
  have hbase : t.get? (base ++ []) = some .directory := by
    rw [List.append_nil]
    exact (find_eq_ok_iff.mp hdir).2.2
  have hbase' := hkeeps.get? _ hbase
  have hfuel := recordingsWithin_fuel (d := d) ht hdir (t.depth + 1) (t.depth + t'.depth + 1) hbase
    (by omega) (by omega)
  have hfuel' := recordingsWithin_fuel (d := d) h.wellFormed (hkeeps.find_dir hdir) (t'.depth + 1)
    (t.depth + t'.depth + 1) hbase' (by omega) (by omega)
  have hfilter := recordingsWithin_filter ht hdir h.wellFormed hkeeps
    (f := fun p => ! (done.map dir.descend).contains p)
    (fun sub hsub => (h.isDirectory_iff _).mp hsub) (h.isRecordingAt_eq ht)
    (t.depth + t'.depth + 1) hbase
  exact hfuel'.trans (hfilter.trans (congrArg (List.filter _) hfuel.symm))

end

end RecordingDelivery.Tree
