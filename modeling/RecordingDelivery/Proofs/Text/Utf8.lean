import RecordingDelivery.Text.Utf8

/-!
Texts are read back from their bytes: every character is one piece, in one to four bytes, and the bytes
of a text are decoded to that text.
-/
namespace RecordingDelivery.Utf8

variable {low high : UInt8} {need bits n : Nat} {rest : Bytes}

theorem lead?_two : ∀ n < 0xE0, 0xC2 ≤ n →
    lead? (.ofNat n) = some ⟨1, 0x80, 0xBF, n - 0xC0⟩ := by
  decide +kernel

theorem lead?_three : ∀ n < 0xF0, 0xE0 ≤ n → lead? (.ofNat n) =
    some ⟨2, if n = 0xE0 then 0xA0 else 0x80, if n = 0xED then 0x9F else 0xBF, n - 0xE0⟩ := by
  decide +kernel

theorem lead?_four : ∀ n < 0xF5, 0xF0 ≤ n → lead? (.ofNat n) =
    some ⟨3, if n = 0xF0 then 0x90 else 0x80, if n = 0xF4 then 0x8F else 0xBF, n - 0xF0⟩ := by
  decide +kernel

theorem pieces_lead {o : Open} (hn : 0x80 ≤ n) (hbyte : n < 0x100) (ho : lead? (.ofNat n) = some o) :
    pieces (.ofNat n :: rest) = piecesFrom (some o) rest := by
  have hascii : ¬ UInt8.ofNat n < 0x80 := by
    simp [UInt8.lt_iff_toNat_lt]
    omega
  simp [pieces, piecesFrom, step, begin, hascii, ho]

theorem tail_in_range (hlow : low.toNat ≤ n % 64 + 128) (hhigh : n % 64 + 128 ≤ high.toNat) :
    (low ≤ UInt8.ofNat (n % 64 + 128) && UInt8.ofNat (n % 64 + 128) ≤ high) = true ∧
      (UInt8.ofNat (n % 64 + 128)).toNat - 0x80 = n % 64 := by
  simp [UInt8.le_iff_toNat_le]
  omega

theorem piecesFrom_last (hlow : low.toNat ≤ n % 64 + 128) (hhigh : n % 64 + 128 ≤ high.toNat) :
    piecesFrom (some ⟨1, low, high, bits⟩) (.ofNat (n % 64 + 128) :: rest) =
      .char (Char.ofNat (bits * 64 + n % 64)) :: pieces rest := by
  obtain ⟨hin, hbits⟩ := tail_in_range hlow hhigh
  simp only [piecesFrom, step, hin, if_true, hbits]
  rfl

theorem piecesFrom_more (hlow : low.toNat ≤ n % 64 + 128) (hhigh : n % 64 + 128 ≤ high.toNat) :
    piecesFrom (some ⟨need + 2, low, high, bits⟩) (.ofNat (n % 64 + 128) :: rest) =
      piecesFrom (some ⟨need + 1, 0x80, 0xBF, bits * 64 + n % 64⟩) rest := by
  obtain ⟨hin, hbits⟩ := tail_in_range hlow hhigh
  simp only [piecesFrom, step, hin, if_true, hbits]
  rfl

/-- A character is read back from its bytes, whatever follows them. -/
theorem pieces_encodeChar (c : Char) (rest : Bytes) :
    pieces (String.utf8EncodeChar c ++ rest) = .char c :: pieces rest := by
  obtain ⟨v, hv⟩ : ∃ v, c.val.toNat = v := ⟨_, rfl⟩
  have hc : c = Char.ofNat v := by rw [← hv]; exact (Char.ofNat_toNat c).symm
  have hvalid : v < 0xD800 ∨ 0xDFFF < v ∧ v < 0x110000 := hv ▸ c.valid
  simp only [String.utf8EncodeChar, hv]
  split
  case isTrue hshort =>
    have hascii : UInt8.ofNat v < 0x80 := by
      simp [UInt8.lt_iff_toNat_lt]
      omega
    have hbyte : (UInt8.ofNat v).toNat = v := by simp; omega
    rw [List.cons_append, List.nil_append, pieces_ascii _ _ hascii, hbyte, hc]
  case isFalse =>
    split
    case isTrue hlong htwo =>
      have hlead : v / 64 % 32 + 192 - 0xC0 = v / 64 := by omega
      have hchar : v / 64 * 64 + v % 64 = v := by omega
      rw [List.cons_append, List.cons_append, List.nil_append,
        pieces_lead (by omega) (by omega) (lead?_two _ (by omega) (by omega)),
        piecesFrom_last (by simp) (by simp; omega), hlead, hchar, hc]
    case isFalse hlong htwo =>
      split
      case isTrue hthree =>
        have hlead : v / 4096 % 16 + 224 - 0xE0 = v / 4096 := by omega
        have hsix : v / 4096 * 64 + v / 64 % 64 = v / 64 := by omega
        have hchar : v / 64 * 64 + v % 64 = v := by omega
        simp only [List.cons_append, List.nil_append]
        rw [pieces_lead (by omega) (by omega) (lead?_three _ (by omega) (by omega)),
          piecesFrom_more, piecesFrom_last (by simp) (by simp; omega), hlead, hsix, hchar, hc]
        · split <;> simp
          omega
        · split <;> simp <;> omega
      case isFalse hthree =>
        have hlead : v / 262144 % 8 + 240 - 0xF0 = v / 262144 := by omega
        have hsix : v / 262144 * 64 + v / 4096 % 64 = v / 4096 := by omega
        have htwelve : v / 4096 * 64 + v / 64 % 64 = v / 64 := by omega
        have hchar : v / 64 * 64 + v % 64 = v := by omega
        simp only [List.cons_append, List.nil_append]
        rw [pieces_lead (by omega) (by omega) (lead?_four _ (by omega) (by omega)),
          piecesFrom_more, piecesFrom_more (by simp) (by simp; omega),
          piecesFrom_last (by simp) (by simp; omega), hlead, hsix, htwelve, hchar, hc]
        · split <;> simp
          omega
        · split <;> simp <;> omega

theorem pieces_encode (s : String) : pieces (encode s) = s.toList.map .char := by
  rw [encode]
  induction s.toList with
  | nil => rfl
  | cons c rest ih => rw [List.flatMap_cons, pieces_encodeChar, ih, List.map_cons]

theorem decode?_encode (s : String) : decode? (encode s) = some s := by
  have hchars : (s.toList.map Piece.char).mapM Piece.char? = some s.toList := by
    induction s.toList with
    | nil => rfl
    | cons c rest ih => simp [List.mapM_cons, ih, Piece.char?]
  rw [decode?, decodeChars?, pieces_encode, hchars, Option.map_some, String.ofList_toList]

end RecordingDelivery.Utf8
