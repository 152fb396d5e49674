import RecordingDelivery.Spool.Marker

/-!
The marked name bears the mark, whatever bytes the name has, and it is a name again.
-/
namespace RecordingDelivery

namespace Utf8

/-- An open character waits for bytes above the ASCII range. -/
def IsHigh (o : Option Open) : Prop := ∀ x, o = some x → 0x80 ≤ x.low

theorem low_of_lead? {b : UInt8} {o : Open} (h : lead? b = some o) : 0x80 ≤ o.low := by
  unfold lead? at h
  repeat' split at h
  all_goals simp only [Option.some.injEq, reduceCtorEq] at h
  all_goals
    subst h
    dsimp only
    decide

theorem isHigh_begin (b : UInt8) : IsHigh (begin b).2 := by
  intro x hx
  unfold begin at hx
  split at hx
  · simp at hx
  · split at hx
    · rename_i o ho
      have : o = x := by simpa using hx
      exact low_of_lead? (this ▸ ho)
    · simp at hx

theorem isHigh_step {o : Option Open} (b : UInt8) : IsHigh (step o b).2 := by
  cases o with
  | none => exact isHigh_begin b
  | some o =>
    intro x hx
    simp only [step] at hx
    split at hx
    · split at hx
      · simp at hx
      · have : x.low = 0x80 := by
          have := Option.some.inj hx
          rw [← this]
        rw [this]
        decide
    · exact isHigh_begin b x hx

theorem piecesFrom_append_ascii {a : UInt8} (ha : a < 0x80) (s t : Bytes) {o : Option Open}
    (ho : IsHigh o) :
    piecesFrom o (s ++ a :: t) = piecesFrom o s ++ .char (Char.ofNat a.toNat) :: pieces t := by
  induction s generalizing o with
  | nil =>
    have hb : begin a = ([.char (Char.ofNat a.toNat)], none) := by simp [begin, ha]
    cases o with
    | none => simp [piecesFrom, step, hb, pieces]
    | some o =>
      have hlow : ¬ o.low ≤ a := by
        have := ho o rfl
        simp only [UInt8.le_iff_toNat_le, UInt8.lt_iff_toNat_lt] at *
        omega
      simp [piecesFrom, step, hb, hlow, pieces]
  | cons b s ih => simp [piecesFrom, ih (isHigh_step b)]

theorem pieces_append_ascii {a : UInt8} (ha : a < 0x80) (s t : Bytes) :
    pieces (s ++ a :: t) = pieces s ++ .char (Char.ofNat a.toNat) :: pieces t :=
  piecesFrom_append_ascii ha s t (by intro x hx; simp at hx)

theorem isWellFormed_append_ascii {a : UInt8} (ha : a < 0x80) (s t : Bytes) :
    isWellFormed (s ++ a :: t) = (isWellFormed s && isWellFormed t) := by
  have hchar : (Piece.char (Char.ofNat a.toNat) != .illFormed) = true := by simp
  simp [isWellFormed, pieces_append_ascii ha, hchar]

theorem isWellFormed_cons_ascii {a : UInt8} (ha : a < 0x80) (t : Bytes) :
    isWellFormed (a :: t) = isWellFormed t := isWellFormed_append_ascii ha [] t

end Utf8

namespace Marker

theorem mark_eq : mark = [0x5F, 0x75, 0x70, 0x6C, 0x6F, 0x61, 0x64, 0x65, 0x64] := by decide

theorem isWellFormed_mark_append (s t : Bytes) :
    Utf8.isWellFormed (s ++ mark ++ t) = (Utf8.isWellFormed s && Utf8.isWellFormed t) := by
  have htail : Utf8.isWellFormed (mark.tail ++ t) = Utf8.isWellFormed t := by
    simp [mark_eq, Utf8.isWellFormed_cons_ascii]
  have hsplit : s ++ mark ++ t = s ++ 0x5F :: (mark.tail ++ t) := by simp [mark_eq]
  rw [hsplit, Utf8.isWellFormed_append_ascii (by decide), htail]

theorem isWellFormed_mark (s : Bytes) : Utf8.isWellFormed (s ++ mark) = Utf8.isWellFormed s := by
  have hnil : Utf8.isWellFormed [] = true := rfl
  rw [← List.append_nil (s ++ mark), isWellFormed_mark_append, hnil, Bool.and_true]

theorem splitExtension_cases (name : Bytes) :
    (Path.dot ∉ name ∧ splitExtension name = (name, [])) ∨
    ∃ stem e, Path.dot ∉ e ∧ name = stem ++ Path.dot :: e ∧
      splitExtension name = (stem, Path.dot :: e) := by
  have hback := List.takeWhile_append_dropWhile (p := (· != Path.dot)) (l := name.reverse)
  have hno {b : UInt8} (hb : b ∈ name.reverse.takeWhile (· != Path.dot)) : b ≠ Path.dot := by
    simpa using List.all_eq_true.mp List.all_takeWhile b hb
  cases hd : name.reverse.dropWhile (· != Path.dot) with
  | nil =>
    left
    rw [hd, List.append_nil] at hback
    refine ⟨?_, by simp [splitExtension, hd]⟩
    intro hm
    rw [← List.mem_reverse, ← hback] at hm
    exact hno hm rfl
  | cons b stem =>
    right
    have hb : b = Path.dot := by
      have := List.head?_dropWhile_not (· != Path.dot) name.reverse
      simpa [hd] using this
    subst hb
    refine ⟨stem.reverse, (name.reverse.takeWhile (· != Path.dot)).reverse, ?_, ?_, ?_⟩
    · intro hm
      exact hno (List.mem_reverse.mp hm) rfl
    · rw [hd] at hback
      have := congrArg List.reverse hback
      simpa using this.symm
    · simp [splitExtension, hd]

theorem splitExtension_append {stem e : Bytes} (he : Path.dot ∉ e) :
    splitExtension (stem ++ Path.dot :: e) = (stem, Path.dot :: e) := by
  have hall : ∀ b ∈ e.reverse, (b != Path.dot) = true := by
    intro b hb
    have : b ≠ Path.dot := fun h => he (h ▸ List.mem_reverse.mp hb)
    simpa using this
  have hd : (stem ++ Path.dot :: e).reverse.dropWhile (· != Path.dot) =
      Path.dot :: stem.reverse := by
    rw [List.reverse_append, List.reverse_cons, List.append_assoc,
      List.dropWhile_append_of_pos hall]
    simp
  have ht : (stem ++ Path.dot :: e).reverse.takeWhile (· != Path.dot) = e.reverse := by
    rw [List.reverse_append, List.reverse_cons, List.append_assoc,
      List.takeWhile_append_of_pos hall]
    simp
  simp only [splitExtension, hd, ht, List.reverse_reverse]

theorem splitExtension_of_not_mem {name : Bytes} (h : Path.dot ∉ name) :
    splitExtension name = (name, []) := by
  rcases splitExtension_cases name with ⟨-, hs⟩ | ⟨stem, e, -, hn, -⟩
  · exact hs
  · exact absurd (by simp [hn]) h

/-- A stem and an extension as they come from a name. -/
def IsSplit (stem extension : Bytes) : Prop :=
  (extension = [] ∧ Path.dot ∉ stem) ∨ ∃ e, extension = Path.dot :: e ∧ Path.dot ∉ e

variable {stem extension : Bytes}

theorem exists_split (name : Bytes) :
    ∃ stem extension, name = stem ++ extension ∧ IsSplit stem extension := by
  rcases splitExtension_cases name with ⟨hno, -⟩ | ⟨stem, e, he, hn, -⟩
  · exact ⟨name, [], by simp, .inl ⟨rfl, hno⟩⟩
  · exact ⟨stem, Path.dot :: e, hn, .inr ⟨e, rfl, he⟩⟩

theorem IsSplit.eq (h : IsSplit stem extension) :
    splitExtension (stem ++ extension) = (stem, extension) := by
  rcases h with ⟨rfl, hno⟩ | ⟨e, rfl, he⟩
  · rw [List.append_nil]
    exact splitExtension_of_not_mem hno
  · exact splitExtension_append he

/-- A mark at the end of the stem changes nothing about where the extension begins. -/
theorem isSplit_mark : IsSplit (stem ++ mark) extension ↔ IsSplit stem extension := by
  have hdot : Path.dot ∉ mark := by decide
  simp [IsSplit, hdot]

theorem IsSplit.isWellFormed (h : IsSplit stem extension) :
    Utf8.isWellFormed (stem ++ extension) =
      (Utf8.isWellFormed stem && Utf8.isWellFormed extension) := by
  rcases h with ⟨rfl, -⟩ | ⟨e, rfl, -⟩
  · simp [Utf8.isWellFormed]
  · rw [Utf8.isWellFormed_append_ascii (by decide), Utf8.isWellFormed_cons_ascii (by decide)]

theorem IsSplit.isWellFormed_mark (h : IsSplit stem extension) :
    Utf8.isWellFormed (stem ++ mark ++ extension) = Utf8.isWellFormed (stem ++ extension) := by
  rw [isWellFormed_mark_append, h.isWellFormed]

theorem IsSplit.uploadedName_eq (h : IsSplit stem extension)
    (hw : Utf8.isWellFormed (stem ++ extension) = true) :
    uploadedName (stem ++ extension) = stem ++ mark ++ extension := by
  simp [uploadedName, hw, h.eq]

theorem uploadedName_of_illFormed {name : Bytes} (hw : Utf8.isWellFormed name = false) :
    uploadedName name = name ++ mark := by
  simp [uploadedName, hw]

theorem endsWith_append (s tail : Bytes) : Bytes.endsWith (s ++ tail) tail = true := by
  simp [Bytes.endsWith]

/-- Text behind which a mark stands still ends in it when it is shown as characters. -/
theorem endsWith_lossy_mark (name : Bytes) :
    (Bytes.ofText (Utf8.lossy (name ++ mark))).endsWith mark = true := by
  have htail : Utf8.pieces mark.tail = (mark.tail).map fun b => .char (Char.ofNat b.toNat) := by
    simp [mark_eq]
  have hpieces : Utf8.pieces (name ++ mark) =
      Utf8.pieces name ++ mark.map fun b => .char (Char.ofNat b.toNat) := by
    have hsplit : name ++ mark = name ++ 0x5F :: mark.tail := by simp [mark_eq]
    rw [hsplit, Utf8.pieces_append_ascii (by decide), htail]
    simp [mark_eq]
  have hmark : ((mark.map fun b => Utf8.Piece.char (Char.ofNat b.toNat)).map
      Utf8.Piece.shown).flatMap String.utf8EncodeChar = mark := by decide
  rw [Bytes.ofText, Utf8.encode, Utf8.lossy, hpieces, List.map_append, String.toList_ofList,
    List.flatMap_append, hmark]
  exact endsWith_append _ mark

theorem isUploadedName_uploadedName (name : Bytes) : isUploadedName (uploadedName name) = true := by
  cases hw : Utf8.isWellFormed name with
  | false =>
    have hnew : Utf8.isWellFormed (name ++ mark) = false := (isWellFormed_mark name).trans hw
    simp [uploadedName_of_illFormed hw, isUploadedName, hnew, endsWith_lossy_mark]
  | true =>
    obtain ⟨stem, extension, rfl, hsplit⟩ := exists_split name
    have hnew : Utf8.isWellFormed (stem ++ mark ++ extension) = true := by
      rw [hsplit.isWellFormed_mark, hw]
    rw [hsplit.uploadedName_eq hw, isUploadedName, if_pos hnew, (isSplit_mark.mpr hsplit).eq]
    exact endsWith_append stem mark

end Marker
end RecordingDelivery
