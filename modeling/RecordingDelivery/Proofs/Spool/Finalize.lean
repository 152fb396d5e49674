import RecordingDelivery.Proofs.Spool.Scan
import RecordingDelivery.Spool.Finalize

/-!
What finalizing does to a recording that a search has found: it goes, or it takes the marked name in
its directory, or a fault leaves the tree as it was.
-/
namespace RecordingDelivery

namespace Marker

theorem uploadedName_parts (n : Bytes) :
    ∃ front back, n = front ++ back ∧ uploadedName n = front ++ mark ++ back := by
  cases hw : Utf8.isWellFormed n with
  | false => exact ⟨n, [], by simp, by simp [uploadedName_of_illFormed hw]⟩
  | true =>
    obtain ⟨stem, extension, rfl, hsplit⟩ := exists_split n
    exact ⟨stem, extension, rfl, hsplit.uploadedName_eq hw⟩

theorem length_uploadedName (n : Bytes) : (uploadedName n).length = n.length + 9 := by
  obtain ⟨front, back, hn, hu⟩ := uploadedName_parts n
  rw [hu, hn, mark_eq]
  simp
  omega

theorem isName_uploadedName {n : Bytes} (h : Path.IsName n) : Path.IsName (uploadedName n) := by
  have hlong := length_uploadedName n
  refine ⟨?_, ?_, ?_, ?_⟩
  · intro he
    simp [he] at hlong
  · intro hm
    obtain ⟨front, back, hn, hu⟩ := uploadedName_parts n
    rw [hu] at hm
    have hmark : Path.slash ∉ mark := by decide
    apply h.no_slash
    rw [hn]
    simpa [hmark] using hm
  · intro he
    simp [he] at hlong
  · intro he
    simp [he] at hlong

theorem ne_uploadedName (n : Bytes) : n ≠ uploadedName n := by
  intro he
  have := length_uploadedName n
  rw [← he] at this
  omega

theorem uploadedPath_eq_none {p : Path} : uploadedPath p = none ↔ p.fileName = none :=
  Option.map_eq_none_iff

theorem uploadedPath_eq_some {p q : Path} :
    uploadedPath p = some q ↔ ∃ n, p.fileName = some n ∧ p.withFileName (uploadedName n) = q :=
  Option.map_eq_some_iff

theorem isPending_uploadedPath {p q : Path} (h : uploadedPath p = some q) (d : Destination) :
    d.isPending q = false := by
  obtain ⟨n, hn, rfl⟩ := uploadedPath_eq_some.mp h
  have hname := isName_uploadedName (Path.isName_of_fileName hn)
  rw [Destination.isPending, Path.withFileName, Path.fileName_extend _ hname]
  simp [isUploadedName_uploadedName]

end Marker

namespace Tree

variable {t t' : Tree}

/-- Where the last name of a path stands, or would stand. -/
def place? (t : Tree) (p : Path) : Option Location :=
  match t.parent p with
  | .ok (l, .name n) => some (l ++ [n])
  | _ => none

/-- Whether what has the last name of a path has its marked name, too. -/
def hasBothNames (t : Tree) (p : Path) : Bool :=
  match t.place? p, (Marker.uploadedPath p).bind t.place? with
  | some l, some k => t.isTwin l k
  | _, _ => false

theorem place?_of_parent {p : Path} {l : Location} {n : Bytes} (h : t.parent p = .ok (l, .name n)) :
    t.place? p = some (l ++ [n]) := by
  rw [place?, h]

theorem hasBothNames_eq {p q : Path} {l k : Location} (hq : Marker.uploadedPath p = some q)
    (hl : t.place? p = some l) (hk : t.place? q = some k) : t.hasBothNames p = t.isTwin l k := by
  rw [hasBothNames, hl, hq, Option.bind_some, hk]

theorem parent_eq {p : Path} {front : List Bytes} {n : Bytes} (hn : Path.IsName n)
    (hp : p.names = front ++ [n]) :
    t.parent p = (do
      checkText p
      let l ← t.walk .target linkLimit (start p t.workDir) (front ++ [[]])
      .ok (l, .name n)) := by
  have hlast : ¬ (n = [Path.dot] ∨ n = [Path.dot, Path.dot]) := by
    rintro (h | h)
    · exact hn.ne_dot h
    · exact hn.ne_dots h
  simp [parent, hp, hlast]

theorem walk_dots {links : Nat} {l : Location} {dots more : List Bytes}
    (h : ∀ s ∈ dots, s = [Path.dot]) :
    t.walk .target links l (dots ++ more) = t.walk .target links l more := by
  induction dots with
  | nil => rfl
  | cons s dots ih =>
    rw [List.cons_append, walk_stay (.inr (h s (by simp))), ih fun s hs => h s (by simp [hs])]

theorem parent_uploaded {p q : Path} (hq : Marker.uploadedPath p = some q) {dir : Location} {n : Bytes}
    (h : t.parent p = .ok (dir, .name n)) :
    t.parent q = (do checkText q; .ok (dir, .name (Marker.uploadedName n))) := by
  obtain ⟨file, hfile, rfl⟩ := Marker.uploadedPath_eq_some.mp hq
  obtain ⟨hn, -, front, hnames, hwalk⟩ := names_of_parent h
  have hm := Marker.isName_uploadedName (Path.isName_of_fileName hfile)
  obtain ⟨rfl, lead, dots, rfl, hdots, hnames', -, habs⟩ :=
    Path.withFileName_names hfile hnames hn.ne_dot hm
  have hskip : t.walk .target linkLimit (start p t.workDir) (lead ++ (dots ++ [[]])) =
      t.walk .target linkLimit (start p t.workDir) (lead ++ [[]]) :=
    walk_append_congr (by simp) (by simp) (fun links l => walk_dots hdots) _ _ lead
  have hstart : start (p.withFileName (Marker.uploadedName n)) t.workDir = start p t.workDir := by
    rw [start, start, habs]
  rw [List.append_assoc, hskip] at hwalk
  rw [parent_eq hm hnames', hstart, hwalk]
  rfl

/-- What takes its marked name takes it in its directory, with all that is below. If it has that name
already, as one of several, it keeps them all. -/
theorem rename_uploaded {p q : Path} (hq : Marker.uploadedPath p = some q)
    (h : t.rename p q = .ok t') :
    ∃ dir n e, t.parent p = .ok (dir, .name n) ∧ n.length ≤ nameLimit ∧
      t.parent q = .ok (dir, .name (Marker.uploadedName n)) ∧
      (Marker.uploadedName n).length ≤ nameLimit ∧
      t.get? (dir ++ [n]) = some e ∧ (e ≠ .directory → p.endsInSlash = false) ∧
      ((t.isTwin (dir ++ [n]) (dir ++ [Marker.uploadedName n]) = true ∧ t' = t) ∨
        (t.isTwin (dir ++ [n]) (dir ++ [Marker.uploadedName n]) = false ∧
          t.replaceFault? e (dir ++ [Marker.uploadedName n]) = none ∧
          t' = t.move (dir ++ [n]) (dir ++ [Marker.uploadedName n]))) := by
  obtain ⟨dir, n, dir', m, e, hparent, hshort, hparent', hshort', hget, hends, hmove⟩ := rename_ok h
  obtain ⟨rfl, rfl⟩ : dir' = dir ∧ m = Marker.uploadedName n := by
    obtain ⟨-, -, hbeside⟩ := bind_ok ((parent_uploaded hq hparent).symm.trans hparent')
    simpa [eq_comm] using hbeside
  refine ⟨dir', n, e, hparent, hshort, hparent', hshort', hget, fun he => (hends he).1, ?_⟩
  rcases hmove with ⟨hsame | htwin, ht⟩ | ⟨htwin, -, -, hfault, hmove⟩
  · exact absurd (by simpa using hsame) (Marker.ne_uploadedName n)
  · exact .inl ⟨htwin, ht⟩
  · exact .inr ⟨htwin, hfault, hmove⟩

/-- What is finalized has been removed, or it has been renamed to its marked path. -/
theorem finalize_ok {p : Path} {delete : Bool} {done : Finalized}
    (h : t.finalize p delete = .ok (done, t')) :
    (delete = true ∧ done = .deleted ∧ t.unlink p = .ok t') ∨
      (delete = false ∧ ∃ q, done = .renamed q ∧ Marker.uploadedPath p = some q ∧
        t.rename p q = .ok t') := by
  cases delete with
  | true =>
    cases hunlink : t.unlink p with
    | error fault => simp [finalize, hunlink] at h
    | ok t'' => simpa [finalize, hunlink, eq_comm] using h
  | false =>
    cases hq : Marker.uploadedPath p with
    | none => simp [finalize, hq] at h
    | some q =>
      cases hrename : t.rename p q with
      | error fault => simp [finalize, hq, hrename] at h
      | ok t'' =>
        obtain ⟨rfl, rfl⟩ : .renamed q = done ∧ t'' = t' := by
          simpa [finalize, hq, hrename] using h
        exact .inr ⟨rfl, q, rfl, rfl, hrename⟩

section Cases

variable {p : Path} {front : List Bytes} {n : Bytes} (hn : Path.IsName n)
  (hnames : p.names = front ++ [n])
include hn hnames

/-- What a path leads to that is no directory is removed, or takes its marked name, or has it already,
or a fault keeps it. -/
theorem finalize_cases {l : Location}
    (hwalk : t.walk .target linkLimit (start p t.workDir) (front ++ [[]]) = .ok l)
    (hget : t.get? (l ++ [n]) ≠ some .directory) (delete : Bool) :
    (∃ e, t.finalize p delete = .error e) ∨
      (t.get? (l ++ [n]) ≠ none ∧
        ((delete = true ∧ t.finalize p delete = .ok (.deleted, t.drop (l ++ [n]))) ∨
          (delete = false ∧ ∃ q, Marker.uploadedPath p = some q ∧ t.parent p = .ok (l, .name n) ∧
            t.parent q = .ok (l, .name (Marker.uploadedName n)) ∧
            ((t.isTwin (l ++ [n]) (l ++ [Marker.uploadedName n]) = true ∧
                t.finalize p delete = .ok (.renamed q, t)) ∨
              (t.isTwin (l ++ [n]) (l ++ [Marker.uploadedName n]) = false ∧
                t.get? (l ++ [Marker.uploadedName n]) ≠ some .directory ∧
                t.finalize p delete =
                  .ok (.renamed q, t.move (l ++ [n]) (l ++ [Marker.uploadedName n]))))))) := by
  have hplace {dir : Location} {m : Bytes} (h : t.parent p = .ok (dir, .name m)) :
      l = dir ∧ n = m := by
    rw [parent_eq hn hnames, hwalk] at h
    obtain ⟨-, -, h⟩ := bind_ok h
    simpa [bind, Except.bind] using h
  cases hresult : t.finalize p delete with
  | error e => exact .inl ⟨e, rfl⟩
  | ok r =>
    obtain ⟨done, t'⟩ := r
    rcases finalize_ok hresult with ⟨rfl, rfl, hunlink⟩ | ⟨rfl, q, rfl, hq, hrename⟩
    · obtain ⟨dir, m, e, hparent, -, hsome, -, -, rfl⟩ := unlink_ok hunlink
      obtain ⟨rfl, rfl⟩ := hplace hparent
      exact .inr ⟨by simp [hsome], .inl ⟨rfl, rfl⟩⟩
    · obtain ⟨dir, m, e, hparent, -, hbeside, -, hsome, -, hmove⟩ := rename_uploaded hq hrename
      obtain ⟨rfl, rfl⟩ := hplace hparent
      refine .inr ⟨by simp [hsome], .inr ⟨rfl, q, hq, hparent, hbeside, ?_⟩⟩
      rcases hmove with ⟨htwin, rfl⟩ | ⟨htwin, hfault, rfl⟩
      · exact .inl ⟨htwin, rfl⟩
      · refine .inr ⟨htwin, ?_, rfl⟩
        intro hdir
        rw [hsome, (replaceFault?_directory hfault hdir).1] at hget
        exact hget rfl

theorem finalize_error (delete : Bool) {fault : Fault}
    (hwalk : t.walk .target linkLimit (start p t.workDir) (front ++ [[]]) = .error fault) :
    ∃ e, t.finalize p delete = .error e := by
  have hnowhere {dir : Location} {m : Bytes} : t.parent p ≠ .ok (dir, .name m) := by
    intro h
    rw [parent_eq hn hnames, hwalk] at h
    obtain ⟨-, -, h⟩ := bind_ok h
    simp [bind, Except.bind] at h
  cases hresult : t.finalize p delete with
  | error e => exact ⟨e, rfl⟩
  | ok r =>
    obtain ⟨done, t'⟩ := r
    rcases finalize_ok hresult with ⟨-, -, hunlink⟩ | ⟨-, q, -, hq, hrename⟩
    · obtain ⟨dir, m, e, hparent, -⟩ := unlink_ok hunlink
      exact absurd hparent hnowhere
    · obtain ⟨dir, m, e, hparent, -⟩ := rename_uploaded hq hrename
      exact absurd hparent hnowhere

end Cases

end Tree
end RecordingDelivery
