import Mathlib.Data.List.Induction
import RecordingDelivery.Proofs.Spool.Marker

/-!
Marked names are told from all others by their bytes alone: each is the marked name of one name and of
no other, whether or not the bytes are text. Shown as text, bytes never end in a mark that they do not
bear.
-/
namespace RecordingDelivery

namespace Utf8

def IsBeyondAscii (n : Nat) : Prop := 0x80 ≤ n ∧ (n < 0xD800 ∨ 0xDFFF < n ∧ n < 0x110000)

/-- By how much the bytes that are still to come can raise a number. -/
def weight : Nat → Nat
  | 0 => 1
  | need + 1 => 64 * weight need

/-- Whatever continues an open character, it becomes one that is not ASCII. -/
structure Open.IsProper (o : Open) : Prop where
  need : 0 < o.need
  low : 0x80 ≤ o.low.toNat
  high : o.high.toNat ≤ 0xBF
  ends : ∀ n, (o.bits * 64 + (o.low.toNat - 0x80)) * weight (o.need - 1) ≤ n →
    n < (o.bits * 64 + (o.high.toNat - 0x80) + 1) * weight (o.need - 1) → IsBeyondAscii n

def Piece.IsHigh (p : Piece) : Prop := 0x80 ≤ p.shown.toNat

theorem isHigh_illFormed : Piece.illFormed.IsHigh := by
  unfold Piece.IsHigh
  decide

theorem isHigh_char {n : Nat} (h : IsBeyondAscii n) : (Piece.char (Char.ofNat n)).IsHigh := by
  have hvalid : n.isValidChar := h.2
  have hn : (Char.ofNat n).toNat = n := by
    rw [Char.ofNat, dif_pos hvalid]
    rfl
  show 0x80 ≤ (Char.ofNat n).toNat
  rw [hn]
  exact h.1

theorem isProper_of_lead? {b : UInt8} {o : Open} (h : lead? b = some o) : o.IsProper := by
  unfold lead? at h
  simp only [Bool.and_eq_true, decide_eq_true_eq, beq_iff_eq, UInt8.le_iff_toNat_le,
    ← UInt8.toNat_inj] at h
  repeat' split at h
  all_goals simp only [Option.some.injEq, reduceCtorEq] at h
  all_goals
    subst h
    refine ⟨by simp, by simp, by simp, fun n hlow hhigh => ?_⟩
    simp [weight] at *
    unfold IsBeyondAscii
    omega

theorem isProper_begin {b : UInt8} {o : Open} (h : (begin b).2 = some o) : o.IsProper := by
  unfold begin at h
  split at h
  · simp at h
  · split at h
    · rename_i o' ho
      have : o' = o := by simpa using h
      exact isProper_of_lead? (this ▸ ho)
    · simp at h

/-- What a byte above the ASCII range leads to: an open character again, or a last piece that is not
ASCII either. -/
def LeadsHigh (r : List Piece × Option Open) : Prop :=
  match r.2 with
  | some o => o.IsProper
  | none => ∃ front p, r.1 = front ++ [p] ∧ p.IsHigh

theorem leadsHigh_begin {b : UInt8} (hb : ¬ b < 0x80) : LeadsHigh (begin b) := by
  cases ho : (begin b).2 with
  | some o =>
    simp only [LeadsHigh, ho]
    exact isProper_begin ho
  | none =>
    have hb : (begin b).1 = [.illFormed] := by
      unfold begin at ho ⊢
      rw [if_neg hb] at ho ⊢
      split at ho
      · simp at ho
      · rfl
    simp only [LeadsHigh, ho, hb]
    exact ⟨[], _, rfl, isHigh_illFormed⟩

theorem Open.IsProper.next {o : Open} (h : o.IsProper) {b : UInt8} (hlow : o.low ≤ b)
    (hhigh : b ≤ o.high) (hneed : o.need ≠ 1) :
    IsProper ⟨o.need - 1, 0x80, 0xBF, o.bits * 64 + (b.toNat - 0x80)⟩ := by
  rw [UInt8.le_iff_toNat_le] at hlow hhigh
  have hpos := h.need
  obtain ⟨need, hn⟩ : ∃ need, o.need = need + 2 := ⟨o.need - 2, by omega⟩
  have hends := h.ends
  rw [hn] at hends ⊢
  have hweight : weight (need + 2 - 1) = 64 * weight need := rfl
  simp only [hweight, ← Nat.mul_assoc] at hends
  refine ⟨Nat.succ_pos _, by simp, by simp, fun n hleast hmost => hends n ?_ ?_⟩
  all_goals simp only [UInt8.reduceToNat] at hleast hmost
  · have hle : (o.bits * 64 + (o.low.toNat - 0x80)) * 64 ≤
        (o.bits * 64 + (b.toNat - 0x80)) * 64 + (0x80 - 0x80) := by omega
    exact Nat.le_trans (Nat.mul_le_mul_right _ hle) hleast
  · have hle : (o.bits * 64 + (b.toNat - 0x80)) * 64 + (0xBF - 0x80) + 1 ≤
        (o.bits * 64 + (o.high.toNat - 0x80) + 1) * 64 := by omega
    exact Nat.lt_of_lt_of_le hmost (Nat.mul_le_mul_right _ hle)

theorem leadsHigh_step {o : Option Open} (ho : ∀ x, o = some x → x.IsProper) {b : UInt8}
    (hb : ¬ b < 0x80) : LeadsHigh (step o b) := by
  cases o with
  | none => exact leadsHigh_begin hb
  | some o =>
    have hproper := ho o rfl
    simp only [step]
    split
    · rename_i hin
      simp only [Bool.and_eq_true, decide_eq_true_eq] at hin
      split
      · rename_i hneed
        rw [UInt8.le_iff_toNat_le, UInt8.le_iff_toNat_le] at hin
        refine ⟨[], _, rfl, isHigh_char (hproper.ends _ ?_ ?_)⟩
        · rw [hneed, weight]
          omega
        · rw [hneed, weight]
          omega
      · rename_i hneed
        exact hproper.next hin.1 hin.2 hneed
    · have hbegin := leadsHigh_begin hb
      unfold LeadsHigh at hbegin ⊢
      cases hr : (begin b).2 with
      | some x => simpa only [hr] using hbegin
      | none =>
        simp only [hr] at hbegin ⊢
        obtain ⟨front, p, hp, hhigh⟩ := hbegin
        exact ⟨.illFormed :: front, p, by simp [hp], hhigh⟩

theorem isProper_step {o : Option Open} (ho : ∀ x, o = some x → x.IsProper) (b : UInt8) :
    ∀ x, (step o b).2 = some x → x.IsProper := by
  intro x hx
  by_cases hb : b < 0x80
  · -- an ASCII byte leaves nothing open
    have hbegin : (begin b).2 = none := by simp [begin, hb]
    cases o with
    | none => simp [step, hbegin] at hx
    | some o =>
      have hlow := (ho o rfl).low
      have hout : ¬ o.low ≤ b := by
        simp only [UInt8.le_iff_toNat_le, UInt8.lt_iff_toNat_lt, UInt8.reduceToNat] at *
        omega
      simp [step, hout, hbegin] at hx
  · have := leadsHigh_step ho hb
    simpa only [LeadsHigh, hx] using this

/-- Bytes that end above the ASCII range are not shown with an ASCII character at their end. -/
theorem piecesFrom_concat_high {o : Option Open} (ho : ∀ x, o = some x → x.IsProper) (s : Bytes)
    {b : UInt8} (hb : ¬ b < 0x80) :
    ∃ front p, piecesFrom o (s ++ [b]) = front ++ [p] ∧ p.IsHigh := by
  induction s generalizing o with
  | nil =>
    have hstep := leadsHigh_step ho hb
    simp only [List.nil_append, piecesFrom]
    cases hr : (step o b).2 with
    | some x => exact ⟨(step o b).1, _, rfl, isHigh_illFormed⟩
    | none => simpa [LeadsHigh, hr, piecesFrom] using hstep
  | cons c s ih =>
    obtain ⟨front, p, hp, hhigh⟩ := ih (isProper_step ho c)
    exact ⟨(step o c).1 ++ front, p, by simp [piecesFrom, hp], hhigh⟩

theorem utf8EncodeChar_high {c : Char} (hc : 0x80 ≤ c.toNat) :
    ∃ front b, String.utf8EncodeChar c = front ++ [b] ∧ ¬ b < 0x80 := by
  have hlast (n : Nat) : ¬ UInt8.ofNat (n % 64 + 128) < 0x80 := by
    simp [UInt8.lt_iff_toNat_lt]
    omega
  have hlong : ¬ c.val.toNat ≤ 0x7F := by
    have : 0x80 ≤ c.val.toNat := hc
    omega
  simp only [String.utf8EncodeChar, if_neg hlong]
  split
  · exact ⟨[_], _, rfl, hlast _⟩
  · split
    · exact ⟨[_, _], _, rfl, hlast _⟩
    · exact ⟨[_, _, _], _, rfl, hlast _⟩

theorem utf8EncodeChar_ascii {b : UInt8} (hb : b < 0x80) :
    String.utf8EncodeChar (Char.ofNat b.toNat) = [b] := by
  have hb : b.toNat < 0x80 := by simpa [UInt8.lt_iff_toNat_lt] using hb
  have hvalid : b.toNat.isValidChar := .inl (by omega)
  have hc : (Char.ofNat b.toNat).val.toNat = b.toNat := by
    rw [Char.ofNat, dif_pos hvalid]
    rfl
  simp only [String.utf8EncodeChar, hc]
  rw [if_pos (by omega), UInt8.ofNat_toNat]

theorem ofText_lossy (s : Bytes) :
    Bytes.ofText (lossy s) = (pieces s).flatMap fun p => String.utf8EncodeChar p.shown := by
  rw [Bytes.ofText, encode, lossy, String.toList_ofList, List.flatMap_map]

theorem concat_of_lossy {s x : Bytes} {a : UInt8} (ha : a < 0x80)
    (h : Bytes.ofText (lossy s) = x ++ [a]) : ∃ s', s = s' ++ [a] ∧ Bytes.ofText (lossy s') = x := by
  rcases List.eq_nil_or_concat s with rfl | ⟨s', b, rfl⟩
  · simp [ofText_lossy] at h
  · rw [ofText_lossy] at h
    rw [List.concat_eq_append] at h ⊢
    by_cases hb : b < 0x80
    · rw [pieces_append_ascii hb, List.flatMap_append, ← ofText_lossy] at h
      have hlast : [Piece.char (Char.ofNat b.toNat)].flatMap
          (fun p => String.utf8EncodeChar p.shown) = [b] := by
        rw [List.flatMap_singleton]
        exact utf8EncodeChar_ascii hb
      obtain ⟨hx, hab⟩ := List.append_inj' (h.symm.trans (congrArg (_ ++ ·) hlast)) rfl
      obtain rfl : a = b := by simpa using hab
      exact ⟨s', rfl, hx.symm⟩
    · obtain ⟨front, p, hp, hhigh⟩ := piecesFrom_concat_high (o := none) (by simp) s' hb
      obtain ⟨front', b', hb', hnot⟩ := utf8EncodeChar_high hhigh
      rw [pieces, hp, List.flatMap_append, List.flatMap_singleton, hb', ← List.append_assoc] at h
      obtain ⟨-, hab⟩ := List.append_inj' h rfl
      obtain rfl : b' = a := by simpa using hab
      exact absurd ha hnot

/-- Bytes that are shown with an ASCII text at their end have it there. -/
theorem suffix_of_lossy {tail : Bytes} (htail : ∀ a ∈ tail, a < 0x80) {s : Bytes}
    (h : tail <:+ Bytes.ofText (lossy s)) : tail <:+ s := by
  induction tail using List.reverseRecOn generalizing s with
  | nil => exact List.nil_suffix
  | append_singleton tail a ih =>
    obtain ⟨x, hx⟩ := h
    rw [← List.append_assoc] at hx
    obtain ⟨s', rfl, hs'⟩ := concat_of_lossy (htail a (by simp)) hx.symm
    obtain ⟨front, rfl⟩ := ih (fun b hb => htail b (by simp [hb])) ⟨x, hs'.symm⟩
    exact ⟨front, by simp⟩

end Utf8

namespace Marker

variable {stem extension : Bytes}

def originalName (m : Bytes) : Bytes :=
  if Utf8.isWellFormed m then
    let (stem, extension) := splitExtension m
    stem.take (stem.length - mark.length) ++ extension
  else m.take (m.length - mark.length)

theorem take_marked (s : Bytes) : (s ++ mark).take ((s ++ mark).length - mark.length) = s := by
  simp

theorem IsSplit.originalName_eq (h : IsSplit stem extension)
    (hw : Utf8.isWellFormed (stem ++ extension) = true) :
    originalName (stem ++ mark ++ extension) = stem ++ extension := by
  have hmarked : Utf8.isWellFormed (stem ++ mark ++ extension) = true := by
    rw [h.isWellFormed_mark, hw]
  simp only [originalName, if_pos hmarked, (isSplit_mark.mpr h).eq, take_marked]

theorem originalName_of_illFormed {n : Bytes} (hw : Utf8.isWellFormed n = false) :
    originalName (n ++ mark) = n := by
  have hmarked : ¬ Utf8.isWellFormed (n ++ mark) = true := by simp [isWellFormed_mark, hw]
  rw [originalName, if_neg hmarked, take_marked]

theorem originalName_uploadedName (n : Bytes) : originalName (uploadedName n) = n := by
  cases hw : Utf8.isWellFormed n with
  | false => rw [uploadedName_of_illFormed hw, originalName_of_illFormed hw]
  | true =>
    obtain ⟨stem, extension, rfl, hsplit⟩ := exists_split n
    rw [hsplit.uploadedName_eq hw, hsplit.originalName_eq hw]

theorem uploadedName_injective : Function.Injective uploadedName :=
  Function.LeftInverse.injective originalName_uploadedName

theorem endsWith_iff {s tail : Bytes} : Bytes.endsWith s tail = true ↔ ∃ front, s = front ++ tail := by
  rw [Bytes.endsWith, List.isSuffixOf_iff_suffix, List.IsSuffix]
  simp only [eq_comm]

theorem uploadedName_originalName {m : Bytes} (h : isUploadedName m = true) :
    uploadedName (originalName m) = m := by
  cases hw : Utf8.isWellFormed m with
  | false =>
    -- what is shown ends in the mark, so the bytes do
    have hshown : mark <:+ Bytes.ofText (Utf8.lossy m) := by
      simpa [isUploadedName, hw, Bytes.endsWith] using h
    have hascii : ∀ a ∈ mark, a < 0x80 := by
      simp [mark_eq]
    obtain ⟨n, rfl⟩ := Utf8.suffix_of_lossy hascii hshown
    have hn : Utf8.isWellFormed n = false := (isWellFormed_mark n).symm.trans hw
    rw [originalName_of_illFormed hn, uploadedName_of_illFormed hn]
  | true =>
    obtain ⟨stem, extension, rfl, hsplit⟩ := exists_split m
    have hstem : Bytes.endsWith stem mark = true := by
      simpa [isUploadedName, hw, hsplit.eq] using h
    obtain ⟨front, rfl⟩ := endsWith_iff.mp hstem
    have hfront := isSplit_mark.mp hsplit
    rw [hfront.isWellFormed_mark] at hw
    rw [hfront.originalName_eq hw, hfront.uploadedName_eq hw]

/-- A name is taken for marked just when it is the marked name of some name, and no two names have one
marked name. -/
theorem isUploadedName_iff_exists :
    (∀ m, isUploadedName m = true ↔ ∃ n, uploadedName n = m) ∧ Function.Injective uploadedName := by
  refine ⟨fun m => ⟨fun h => ⟨originalName m, uploadedName_originalName h⟩, ?_⟩,
    uploadedName_injective⟩
  rintro ⟨n, rfl⟩
  exact isUploadedName_uploadedName n

end Marker
end RecordingDelivery
