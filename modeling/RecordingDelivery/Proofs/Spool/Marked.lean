import RecordingDelivery.Proofs.Spool.Finalize
import RecordingDelivery.Proofs.Spool.Original

/-!
Where a delivered recording goes. However its path is spelled, the marked place lies in the same
directory, waits for nothing, and is that of no other recording.
-/
namespace RecordingDelivery

namespace Marker

theorem components_uploadedPath {p r : Path} {n : Bytes} (hn : p.fileName = some n)
    (h : uploadedPath p = some r) :
    r.fileName = some (uploadedName n) ∧
      r.components = p.components.dropLast ++ [.name (uploadedName n)] := by
  have hname := isName_uploadedName (Path.isName_of_fileName hn)
  obtain ⟨m, hm, rfl⟩ := uploadedPath_eq_some.mp h
  obtain rfl : n = m := Option.some.inj (hn.symm.trans hm)
  exact ⟨Path.fileName_extend _ hname, Path.components_withFileName hn hname⟩

theorem uploadedPath_same {p q r s : Path} (hr : uploadedPath p = some r)
    (hs : uploadedPath q = some s) : r.same s = true ↔ p.same q = true := by
  obtain ⟨n, hn, -⟩ := uploadedPath_eq_some.mp hr
  obtain ⟨m, hm, -⟩ := uploadedPath_eq_some.mp hs
  rw [Path.same_iff, Path.same_iff, (components_uploadedPath hn hr).2,
    (components_uploadedPath hm hs).2, Path.components_of_fileName hn,
    Path.components_of_fileName hm]
  simp [uploadedName_injective.eq_iff]

/-- A path has a marked place just when it has a file name. The place has the marked name and the
path's parent, is another than the path, and waits for no delivery. The places of two paths are the
same just when the paths are, in all their spellings. -/
theorem uploadedPath_same_iff (p q : Path) :
    (uploadedPath p = none ↔ p.fileName = none) ∧
    (∀ n, p.fileName = some n → ∃ r, uploadedPath p = some r ∧
      r.fileName = some (uploadedName n) ∧
      r.parent?.map Path.components = p.parent?.map Path.components ∧
      r ≠ p ∧ r.same p = false ∧ ∀ d : Destination, d.isPending r = false) ∧
    (∀ n m, p.fileName = some n → q.fileName = some m →
      ∃ r s, uploadedPath p = some r ∧ uploadedPath q = some s ∧
        (r.same s = true ↔ p.same q = true)) := by
  have hplace {p : Path} {n : Bytes} (hn : p.fileName = some n) : ∃ r, uploadedPath p = some r :=
    ⟨_, by rw [uploadedPath, hn, Option.map_some]⟩
  refine ⟨uploadedPath_eq_none, fun n hn => ?_, fun n m hn hm => ?_⟩
  · obtain ⟨r, hr⟩ := hplace hn
    obtain ⟨hname, hcomponents⟩ := components_uploadedPath hn hr
    have hdiffer : r.same p = false := by
      rw [← Bool.not_eq_true, Path.same_iff, hcomponents, Path.components_of_fileName hn]
      simpa using (ne_uploadedName n).symm
    refine ⟨r, hr, hname, ?_, ?_, hdiffer, isPending_uploadedPath hr⟩
    · rw [Path.parent?_components hname, Path.parent?_components hn, hcomponents,
        List.dropLast_concat]
    · rintro rfl
      simp at hdiffer
  · obtain ⟨r, hr⟩ := hplace hn
    obtain ⟨s, hs⟩ := hplace hm
    exact ⟨r, s, hr, hs, uploadedPath_same hr hs⟩

/-- Two spellings of one path, one of them with blanks behind the name, and the same place for both. -/
theorem uploadedPath_same_iff_spellings :
    (Path.ofText "./take//b/.").same (Path.ofText "./take/./b") = true ∧
      ∃ r s, uploadedPath (Path.ofText "./take//b/.") = some r ∧
        uploadedPath (Path.ofText "./take/./b") = some s ∧ r.same s = true := by
  have hsame : (Path.ofText "./take//b/.").same (Path.ofText "./take/./b") = true := by decide
  obtain ⟨-, -, hboth⟩ := uploadedPath_same_iff (Path.ofText "./take//b/.") (Path.ofText "./take/./b")
  obtain ⟨r, s, hr, hs, hiff⟩ := hboth [0x62] [0x62] (by decide) (by decide)
  exact ⟨hsame, r, s, hr, hs, hiff.mpr hsame⟩

end Marker

end RecordingDelivery
