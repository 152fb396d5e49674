import Mathlib
import RecordingDelivery.Proofs.Spool.Finalize

/-!
All that finalizing does to a tree. A path stands for the location to which it leads before the call:
what is there goes, or it takes its marked name with all that is below, unless it has that name already
as one of several. Nothing else changes, and nothing at all if the call fails.
-/
namespace RecordingDelivery.Tree

variable {t t' : Tree} {p q : Path} {l k : Location}

/-- What a path leads to has been removed. It was no directory. -/
structure Removed (t : Tree) (p : Path) (l : Location) (t' : Tree) : Prop where
  found : ∃ e, e ≠ .directory ∧ t.find .entry p = .ok (l, e)
  gone : t'.node? l = none
  nothing : t'.find .entry p = .error .notFound
  others : ∀ x, x ≠ l → t'.node? x = t.node? x
  workDir : t'.workDir = t.workDir

/-- What a path leads to stands, with all that is below, where another path in its directory leads. A
directory that was there was empty, and was replaced by a directory. -/
structure Renamed (t : Tree) (p q : Path) (l k : Location) (t' : Tree) : Prop where
  found : ∃ e, t.find .entry p = .ok (l, e)
  target : t.resolve .entry q = .ok k
  beside : ∃ dir n, t.parent p = .ok (dir, .name n) ∧ l = dir ++ [n] ∧
    k = dir ++ [Marker.uploadedName n]
  apart : t.isTwin l k = false
  gone : ∀ below, t'.node? (l ++ below) = none
  moved : ∀ below, t'.node? (k ++ below) = t.node? (l ++ below)
  others : ∀ x, ¬ l <+: x → ¬ k <+: x → t'.node? x = t.node? x
  replaced : t.get? k = some .directory →
    t.get? l = some .directory ∧ ∀ below, below ≠ [] → t.get? (k ++ below) = none
  /-- Both paths lead where they led, unless the way to their directory has changed, too. -/
  reached : t'.parent p = t.parent p → t'.find .entry p = .error .notFound ∧
    ∀ e, t.find .entry p = .ok (l, e) → t'.find .entry q = .ok (k, e)
  workDir : t'.workDir = t.workDir

/-- What a path leads to stands where another path in its directory leads, too, as a second name of one
thing. -/
structure Shared (t : Tree) (p q : Path) (l k : Location) : Prop where
  found : ∃ e, t.find .entry p = .ok (l, e)
  target : ∃ e, t.find .entry q = .ok (k, e)
  beside : ∃ dir n, t.parent p = .ok (dir, .name n) ∧ l = dir ++ [n] ∧
    k = dir ++ [Marker.uploadedName n]
  twin : t.isTwin l k = true

theorem lacks_drop (t : Tree) (hl : t.get? l ≠ some .directory) : (t.drop l).Lacks t := by
  intro m
  by_cases hm : m = l
  · have hne : l ≠ [] := by
      rintro rfl
      exact hl rfl
    exact .inr ⟨hm ▸ hl, by rw [hm, get?_drop_self t hne]⟩
  · exact .inl (get?_drop_other t hm)

theorem removed_of_unlink (h : t.unlink p = .ok t') : ∃ l, t.Removed p l t' := by
  obtain ⟨dir, n, e, hparent, hshort, hget, he, hends, rfl⟩ := unlink_ok h
  have hgone : (t.drop (dir ++ [n])).node? (dir ++ [n]) = none := node?_drop_self t (by simp)
  have hlacks := t.lacks_drop (l := dir ++ [n]) (by simp [hget, he])
  exact ⟨dir ++ [n], ⟨e, he, find_of_parent hparent hshort hget fun _ => hends⟩, hgone,
    find_of_lacks hparent hshort hlacks rfl (get?_eq_none_iff.mpr hgone),
    fun x hx => node?_drop_other t hx, rfl⟩

theorem renamed_of_rename (hq : Marker.uploadedPath p = some q) (h : t.rename p q = .ok t') :
    ∃ l k, t.Renamed p q l k t' ∨ t.Shared p q l k ∧ t' = t := by
  obtain ⟨dir, n, e, hparent, hshort, hparent', hshort', hget, hends, hmove⟩ := rename_uploaded hq h
  have hslash : q.endsInSlash = false := by
    obtain ⟨file, hfile, rfl⟩ := Marker.uploadedPath_eq_some.mp hq
    exact Path.endsInSlash_extend (Marker.isName_uploadedName (Path.isName_of_fileName hfile)) _
  have hfound := find_of_parent hparent hshort hget hends
  refine ⟨dir ++ [n], dir ++ [Marker.uploadedName n], ?_⟩
  rcases hmove with ⟨htwin, rfl⟩ | ⟨htwin, hfault, rfl⟩
  · obtain ⟨e', he'⟩ := get?_of_isTwin htwin
    exact .inr ⟨⟨⟨e, hfound⟩, ⟨e', find_of_parent hparent' hshort' he' fun _ => hslash⟩,
      ⟨dir, n, hparent, rfl, rfl⟩, htwin⟩, rfl⟩
  have hlk : ¬ dir ++ [n] <+: dir ++ [Marker.uploadedName n] :=
    not_prefix_sibling (Marker.ne_uploadedName n)
  have hkl : ¬ dir ++ [Marker.uploadedName n] <+: dir ++ [n] :=
    not_prefix_sibling (Marker.ne_uploadedName n).symm
  have hgone := node?_move_source hlk hkl t
  have hmoved := node?_move_target hlk hkl t
  refine .inl
    { found := ⟨e, hfound⟩
      target := resolve_of_parent hparent' hshort' (by simp [hslash])
      beside := ⟨dir, n, hparent, rfl, rfl⟩
      apart := htwin
      gone := hgone
      moved := hmoved
      others := fun x hl hk => node?_move_other hlk hkl t hl hk
      replaced := fun hdir => ?_
      reached := fun hsame => ?_
      workDir := rfl }
  · obtain ⟨rfl, hempty⟩ := replaceFault?_directory hfault hdir
    exact ⟨hget, fun below hne => get?_of_isEmptyDirectory hempty hne⟩
  · have hp := hsame.trans hparent
    have hq := (parent_uploaded hq hp).trans ((parent_uploaded hq hparent).symm.trans hparent')
    have hnone : (t.move (dir ++ [n]) (dir ++ [Marker.uploadedName n])).get? (dir ++ [n]) = none :=
      get?_eq_none_iff.mpr (by simpa using hgone [])
    refine ⟨find_of_lacks hp hshort (fun _ => .inl rfl) rfl hnone, ?_⟩
    intro e' he'
    obtain rfl : e = e' := by simpa [hfound] using he'
    refine find_of_parent hq hshort' ?_ fun _ => hslash
    exact (get?_of_node? (by simpa using hmoved [])).trans hget

/-- In a well-formed tree the way to a file's directory changes only if one of the links on it is
renamed or replaced itself. -/
theorem Renamed.parent_eq (h : t.Renamed p q l k t') (hwell : t.WellFormed)
    (hfile : t.get? l ≠ some .directory)
    (hway : ∀ x ∈ t.linksOn linkLimit (start p t.workDir) (p.names.dropLast ++ [[]]),
      x ≠ l ∧ x ≠ k) :
    t'.parent p = t.parent p := by
  obtain ⟨dir, n, hparent, hl, -⟩ := h.beside
  obtain ⟨-, -, front, hnames, hwalk⟩ := names_of_parent hparent
  have hfront : p.names.dropLast = front := by rw [hnames, List.dropLast_concat]
  rw [hfront] at hway
  have htarget : t.get? k ≠ some .directory := fun hk => hfile (h.replaced hk).1
  have hkept {x : Location} {e : Entry} (hx : t.get? x = some e) (hxl : x ≠ l) (hxk : x ≠ k) :
      t'.get? x = some e := by
    have hapart {y : Location} (hy : t.get? y ≠ some .directory) (hne : x ≠ y) : ¬ y <+: x := by
      rintro ⟨below, rfl⟩
      rw [hwell.none_below hy (by simpa using hne)] at hx
      simp at hx
    exact (get?_of_node? (h.others x (hapart hfile hxl) (hapart htarget hxk))).trans hx
  have hdirs : ∀ x, t.get? x = some .directory → t'.get? x = some .directory := by
    intro x hx
    refine hkept hx ?_ ?_
    · rintro rfl
      exact hfile hx
    · rintro rfl
      exact htarget hx
  have hlinks : ∀ x ∈ t.linksOn linkLimit (start p t.workDir) (front ++ [[]]),
      t'.get? x = t.get? x := by
    intro x hx
    obtain ⟨target, hlink⟩ := link_of_mem_linksOn hx
    rw [hkept hlink (hway x hx).1 (hway x hx).2, hlink]
  have hdir : t.get? dir = some .directory := by
    obtain ⟨e, he⟩ := h.found
    exact hwell.rooted dir n e (hl ▸ (find_eq_ok_iff.mp he).2.2)
  have hstable := (walk_stable hdirs hlinks hwalk hdir).1
  rw [parent, parent, h.workDir, hfront, hstable, hwalk]

/-- What finalizing does to a tree: nothing if it fails, whatever the fault; otherwise what the path
leads to has been removed, or it has taken its marked name in place of what had it, and all else is as
it was. Of a thing that had both names before, both are left. -/
theorem finalize_effect (t : Tree) (p : Path) (delete : Bool) :
    match t.finalize p delete with
    | .error (.delete path fault) =>
      t.finalized p delete = t ∧ delete = true ∧ path = p ∧ t.unlink p = .error fault
    | .error (.noFileName path) =>
      t.finalized p delete = t ∧ delete = false ∧ path = p ∧ p.fileName = none
    | .error (.rename source target fault) =>
      t.finalized p delete = t ∧ delete = false ∧ source = p ∧
        Marker.uploadedPath p = some target ∧ t.rename p target = .error fault
    | .ok (.deleted, t') => t.finalized p delete = t' ∧ delete = true ∧ ∃ l, t.Removed p l t'
    | .ok (.renamed q, t') =>
      t.finalized p delete = t' ∧ delete = false ∧ Marker.uploadedPath p = some q ∧
        ∃ l k, t.Renamed p q l k t' ∨ t.Shared p q l k ∧ t' = t := by
  cases delete with
  | true =>
    cases hunlink : t.unlink p with
    | error fault => simp [finalize, finalized, hunlink]
    | ok t' => simpa [finalize, finalized, hunlink] using removed_of_unlink hunlink
  | false =>
    cases hq : Marker.uploadedPath p with
    | none =>
      have hfile : p.fileName = none := Marker.uploadedPath_eq_none.mp hq
      simp [finalize, finalized, hq, hfile]
    | some q =>
      cases hrename : t.rename p q with
      | error fault => simp [finalize, finalized, hq, hrename]
      | ok t' => simpa [finalize, finalized, hq, hrename] using renamed_of_rename hq hrename

/-- A spool with a link to one of its directories, and in this a file and one with its marked name. -/
def linkedSpool : Tree :=
  let home := Bytes.ofText "spool"
  let kept := Bytes.ofText "kept"
  { entries :=
      [([home], .directory), ([home, kept], .directory),
        ([home, Bytes.ofText "in"], .link (.ofText "kept")),
        ([home, kept, Bytes.ofText "a"], .file (Bytes.ofText "1")),
        ([home, kept, Bytes.ofText "a_uploaded"], .file (Bytes.ofText "22"))]
    workDir := [home] }

/-- Through the link the file takes its marked name, and the other is replaced. -/
theorem finalize_effect_linked :
    let p := Path.ofText "./in//a"
    let q := Path.ofText "./in/a_uploaded"
    let t' := linkedSpool.finalized p false
    linkedSpool.finalize p false = .ok (.renamed q, t') ∧
      (∃ l k, linkedSpool.Renamed p q l k t' ∨ linkedSpool.Shared p q l k ∧ t' = linkedSpool) ∧
      t'.read q = .ok (Bytes.ofText "1") := by
  have hrun : linkedSpool.finalize (.ofText "./in//a") false =
      .ok (.renamed (.ofText "./in/a_uploaded"), linkedSpool.finalized (.ofText "./in//a") false) := by
    cbv
  have heffect := finalize_effect linkedSpool (.ofText "./in//a") false
  rw [hrun] at heffect
  exact ⟨hrun, heffect.2.2.2, by cbv⟩

/-- A spool in which one file has two names, of which one is the other's marked name. -/
def twinSpool : Tree :=
  let home := Bytes.ofText "spool"
  let recording : Node := { entry := .file (Bytes.ofText "1"), number := some 1 }
  { entries :=
      [([home], .directory), ([home, Bytes.ofText "a"], recording),
        ([home, Bytes.ofText "a_uploaded"], recording)]
    workDir := [home] }

/-- A spool with a file and a link back to the spool that has the file's marked name. -/
def ringSpool : Tree :=
  let home := Bytes.ofText "spool"
  { entries :=
      [([home], .directory), ([home, Bytes.ofText "x"], .file []),
        ([home, Bytes.ofText "x_uploaded"], .link (.ofText "."))]
    workDir := [home] }

/-- What is said to be renamed can still be where it was, and nothing need be found where it is said to
be. -/
theorem renamed_not_found :
    twinSpool.WellFormed ∧
      twinSpool.finalize (.ofText "a") false = .ok (.renamed (.ofText "a_uploaded"), twinSpool) ∧
      twinSpool.read (.ofText "a") = .ok (Bytes.ofText "1") ∧
    ringSpool.WellFormed ∧
      ringSpool.finalize (.ofText "x_uploaded/x") false =
        .ok (.renamed (.ofText "x_uploaded/x_uploaded"),
          ringSpool.finalized (.ofText "x_uploaded/x") false) ∧
      (ringSpool.finalized (.ofText "x_uploaded/x") false).find .entry
        (.ofText "x_uploaded/x_uploaded") = .error .notDirectory := by
  refine ⟨by decide, ?_, ?_, by decide, ?_, ?_⟩
  · cbv
  · cbv
  · cbv
  · cbv

end RecordingDelivery.Tree
