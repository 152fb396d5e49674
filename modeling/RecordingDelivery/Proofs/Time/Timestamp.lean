import Mathlib.Data.List.TakeWhile
import RecordingDelivery.Proofs.Text.Digits
import RecordingDelivery.Proofs.Time.Calendar
import RecordingDelivery.Time.Timestamp

/-!
A moment is read back from its text, if its year is in range and its nanoseconds fit into the second or
make a leap second at the end of a minute.
-/
namespace RecordingDelivery.Timestamp

def isValid (t : Timestamp) : Bool :=
  yearInRange (Calendar.ofDays (t.seconds / 86400)).year &&
    (t.nanos < 1000000000 || (t.nanos < 2000000000 && t.seconds % 60 = 59))

theorem not_blank_digit {c : Char} (h : c.isDigit = true) : Blank.isBlank c = false := by
  have := Digits.digit_bounds h
  by_contra hblank
  simp [Blank.isBlank, Blank.singles] at hblank
  omega

theorem skip_cons {c : Char} (h : Blank.isBlank c = false) (s : List Char) :
    skip (c :: s) = c :: s := by
  simp [skip, h]

theorem skip_digits {digits : List Char} (h : ∀ c ∈ digits, c.isDigit = true) (hne : digits ≠ [])
    (rest : List Char) : skip (digits ++ rest) = digits ++ rest := by
  cases digits with
  | nil => exact absurd rfl hne
  | cons c digits => exact skip_cons (not_blank_digit (h c (by simp))) _

theorem literal?_cons {c : Char} (h : Blank.isBlank c = false) (rest : List Char) :
    literal? c (c :: rest) = some rest := by
  simp [literal?, skip_cons h]

theorem number?_padded {width n : Nat} (hwidth : 0 < width) (h : n < 10 ^ width) (rest : List Char) :
    number? width ((Digits.padded width n).toList ++ rest) = some (n, rest) := by
  have hdigits : ∀ c ∈ (Digits.padded width n).toList, c.isDigit = true :=
    fun c hc => Digits.isDigit_padded hc
  have hne := Digits.padded_ne_nil width n
  have hlength := Digits.length_padded hwidth h
  have htake : ((Digits.padded width n).toList ++ rest).take width =
      (Digits.padded width n).toList := List.take_left' hlength
  have hall : (Digits.padded width n).toList.takeWhile Digits.isDecimal =
      (Digits.padded width n).toList :=
    List.takeWhile_eq_self_iff.mpr fun c hc => Digits.isDecimal_digit (hdigits c hc)
  simp [number?, skip_digits hdigits hne, htake, hall, hne]

theorem signed_padded (sign : Int) (n : Nat) (rest : List Char) :
    year?.signed sign ((Digits.padded 4 n).toList ++ '-' :: rest) = some (sign * n, '-' :: rest) := by
  have hrun : Digits.run ((Digits.padded 4 n).toList ++ '-' :: rest) =
      ((Digits.padded 4 n).toList, '-' :: rest) :=
    Digits.run_digits (fun c hc => Digits.isDigit_padded hc) (by simp; rfl)
  simp [year?.signed, hrun, Digits.padded_ne_empty]

theorem year?_renderYear (year : Int) (rest : List Char) :
    year? ((renderYear year).toList ++ '-' :: rest) = some (year, '-' :: rest) := by
  unfold renderYear
  split
  · rename_i hyear
    have hfit : year.toNat < 10 ^ 4 := by omega
    have hread := number?_padded (by decide) hfit ('-' :: rest)
    obtain ⟨c, tail, hchars⟩ := List.exists_cons_of_ne_nil (Digits.padded_ne_nil 4 year.toNat)
    have hc : c.isDigit = true := Digits.isDigit_padded (by rw [hchars]; exact List.mem_cons_self)
    rw [hchars] at hread ⊢
    unfold year?
    rw [List.cons_append, skip_cons (not_blank_digit hc)]
    split
    · rename_i heq
      obtain ⟨rfl, -⟩ := List.cons.inj heq
      simp at hc
    · rename_i heq
      obtain ⟨rfl, -⟩ := List.cons.inj heq
      simp at hc
    · rw [← List.cons_append, hread]
      simp
      omega
  · rename_i hyear
    have hsigned := signed_padded (if year < 0 then -1 else 1) year.natAbs rest
    have hsum : (if year < 0 then -1 else 1) * (year.natAbs : Int) = year := by split <;> omega
    rw [hsum] at hsigned
    split <;> rename_i hneg
    · rw [if_pos hneg] at hsigned
      simp [year?, skip_cons, Blank.isBlank, Blank.singles, hsigned]
    · rw [if_neg hneg] at hsigned
      simp [year?, skip_cons, Blank.isBlank, Blank.singles, hsigned]

theorem fraction?_padded {width n : Nat} (hwidth : 0 < width) (hnine : width ≤ 9) (h : n < 10 ^ width)
    (rest : List Char) : fraction? ('.' :: (Digits.padded width n).toList ++ 'Z' :: rest) =
      some (n * 10 ^ (9 - width), 'Z' :: rest) := by
  have hrun : Digits.run ((Digits.padded width n).toList ++ 'Z' :: rest) =
      ((Digits.padded width n).toList, 'Z' :: rest) :=
    Digits.run_digits (fun c hc => Digits.isDigit_padded hc) (by simp; rfl)
  have hlength := Digits.length_padded hwidth h
  have htake : (Digits.padded width n).toList.take 9 = (Digits.padded width n).toList :=
    List.take_of_length_le (by omega)
  simp [fraction?, hrun, Digits.padded_ne_empty, fractionNanos, htake, hlength]

theorem fraction?_renderFraction {nanos : Nat} (h : nanos < 1000000000) (rest : List Char) :
    fraction? ((renderFraction nanos).toList ++ 'Z' :: rest) = some (nanos, 'Z' :: rest) := by
  -- one of the three widths, which leaves out nothing but zeros
  have hwidth {width n : Nat} (hpos : 0 < width) (hnine : width ≤ 9) (hn : n < 10 ^ width)
      (hvalue : n * 10 ^ (9 - width) = nanos) :
      fraction? (("." ++ Digits.padded width n).toList ++ 'Z' :: rest) = some (nanos, 'Z' :: rest) := by
    rw [String.toList_append, ← hvalue]
    exact fraction?_padded hpos hnine hn rest
  unfold renderFraction
  split
  · rename_i hzero
    rw [hzero]
    rfl
  · split
    · exact hwidth (by decide) (by decide) (by omega) (by omega)
    · split
      · exact hwidth (by decide) (by decide) (by omega) (by omega)
      · exact hwidth (by decide) (by decide) (by omega) (by omega)

theorem toList_render (t : Timestamp) {date : Calendar.Date} {inDay : Nat}
    (hdate : Calendar.ofDays (t.seconds / 86400) = date) (hday : (t.seconds % 86400).toNat = inDay) :
    t.render.toList = (renderYear date.year).toList ++ '-' :: ((Digits.padded 2 date.month).toList ++
      '-' :: ((Digits.padded 2 date.day).toList ++ 'T' :: ((Digits.padded 2 (inDay / 3600)).toList ++
      ':' :: ((Digits.padded 2 (inDay / 60 % 60)).toList ++
      ':' :: ((Digits.padded 2 (inDay % 60 + t.nanos / 1000000000)).toList ++
      ((renderFraction (t.nanos % 1000000000)).toList ++ 'Z' :: [])))))) := by
  simp [render, hdate, hday]

theorem bind_of_eq_some {α β : Type} {x : Option α} {a : α} {f : α → Option β} {y : Option β}
    (hx : x = some a) (hf : f a = y) : x.bind f = y := by
  rw [hx, Option.bind_some, hf]

theorem parse?_render {t : Timestamp} (h : t.isValid = true) : parse? t.render = some t := by
  obtain ⟨date, hdate⟩ : ∃ date, Calendar.ofDays (t.seconds / 86400) = date := ⟨_, rfl⟩
  obtain ⟨inDay, hday⟩ : ∃ inDay, (t.seconds % 86400).toNat = inDay := ⟨_, rfl⟩
  have hvalid : date.isValid = true := hdate ▸ Calendar.isValid_ofDays _
  have hdays : Calendar.toDays date = t.seconds / 86400 := hdate ▸ Calendar.toDays_ofDays _
  simp only [isValid, hdate, Bool.and_eq_true, Bool.or_eq_true, decide_eq_true_eq] at h
  obtain ⟨hyear, hnanos⟩ := h
  have hmonth : date.month < 10 ^ 2 ∧ date.day < 10 ^ 2 := by
    have hlength : Calendar.monthLength date.year date.month ≤ 31 := by
      unfold Calendar.monthLength
      split_ifs <;> omega
    simp only [Calendar.Date.isValid, Bool.and_eq_true, decide_eq_true_eq] at hvalid
    omega
  have htwo {n : Nat} (hn : n < 10 ^ 2) (rest : List Char) :
      number? 2 ((Digits.padded 2 n).toList ++ rest) = some (n, rest) :=
    number?_padded (by decide) hn rest
  have hhyphen (rest : List Char) : literal? '-' ('-' :: rest) = some rest := literal?_cons rfl rest
  have hcolon (rest : List Char) : literal? ':' (':' :: rest) = some rest := literal?_cons rfl rest
  have hhour : inDay / 3600 < 24 := by omega
  have hminute : inDay / 60 % 60 < 60 := by omega
  have hsecond : inDay % 60 + t.nanos / 1000000000 < 61 := by omega
  have hpair : (if inDay % 60 + t.nanos / 1000000000 = 60 then (59, t.nanos % 1000000000 + 1000000000)
      else (inDay % 60 + t.nanos / 1000000000, t.nanos % 1000000000)) = (inDay % 60, t.nanos) := by
    split <;> rw [Prod.mk.injEq] <;> omega
  have hseconds : t.seconds / 86400 * 86400 + (((inDay / 3600 : Nat) : Int) * 3600 +
      ((inDay / 60 % 60 : Nat) : Int) * 60 + ((inDay % 60 : Nat) : Int)) - 0 = t.seconds := by
    omega
  unfold parse?
  rw [toList_render t hdate hday]
  refine bind_of_eq_some (year?_renderYear _ _) ?_
  refine bind_of_eq_some (hhyphen _) ?_
  refine bind_of_eq_some (htwo hmonth.1 _) ?_
  refine bind_of_eq_some (hhyphen _) ?_
  refine bind_of_eq_some (htwo hmonth.2 _) ?_
  refine bind_of_eq_some (x := some _) rfl ?_
  refine bind_of_eq_some (htwo (by omega) _) ?_
  refine bind_of_eq_some (hcolon _) ?_
  refine bind_of_eq_some (htwo (by omega) _) ?_
  refine bind_of_eq_some (hcolon _) ?_
  refine bind_of_eq_some (htwo (by omega) _) ?_
  refine bind_of_eq_some (fraction?_renderFraction (Nat.mod_lt _ (by decide)) _) ?_
  refine bind_of_eq_some rfl ?_
  dsimp only
  rw [if_neg, hpair]
  · dsimp only
    rw [hdays, hseconds, hdate, if_pos hyear]
  · have hskip : skip [] = [] := rfl
    simp [hskip, hyear, hvalid, Nat.not_le.mpr hhour, Nat.not_le.mpr hminute, Nat.not_le.mpr hsecond]

/-! ### What is read is a moment -/

theorem fraction?_lt {s rest : List Char} {nanos : Nat} (h : fraction? s = some (nanos, rest)) :
    nanos < 1000000000 := by
  unfold fraction? at h
  split at h
  · rename_i tail
    simp only [Option.ite_none_left_eq_some, Option.some.injEq, Prod.mk.injEq] at h
    obtain ⟨-, rfl, -⟩ := h
    have hdigits : ∀ c ∈ (Digits.run tail).1.take 9, Digits.isDecimal c = true :=
      fun c hc => List.mem_takeWhile_imp (List.mem_of_mem_take hc)
    have hnumber := Digits.number_lt hdigits
    have hnine : ((Digits.run tail).1.take 9).length ≤ 9 := List.length_take_le _ _
    obtain ⟨width, hwidth⟩ : ∃ width, ((Digits.run tail).1.take 9).length = width := ⟨_, rfl⟩
    rw [fractionNanos, hwidth]
    rw [hwidth] at hnumber hnine
    calc Digits.number 10 ((Digits.run tail).1.take 9) * 10 ^ (9 - width)
        < 10 ^ width * 10 ^ (9 - width) := Nat.mul_lt_mul_of_pos_right hnumber (Nat.pow_pos (by decide))
      _ = 1000000000 := by rw [← Nat.pow_add, Nat.add_sub_cancel' hnine]
  · obtain ⟨rfl, -⟩ : 0 = nanos ∧ s = rest := by simpa using h
    decide

theorem sixty_dvd_offset {s rest : List Char} {offset : Int} (h : offset? s = some (offset, rest)) :
    60 ∣ offset := by
  have hhours {sign : Int} {s : List Char} (h : offset?.hoursMinutes sign s = some (offset, rest)) :
      60 ∣ offset := by
    obtain ⟨⟨hours, s⟩, -, h⟩ := Option.bind_eq_some_iff.mp h
    obtain ⟨⟨minutes, s⟩, -, h⟩ := Option.bind_eq_some_iff.mp h
    obtain ⟨-, rfl, -⟩ : _ ∧ sign * (hours * 3600 + minutes * 60) = offset ∧ _ = rest := by simpa using h
    exact ⟨sign * (hours * 60 + minutes), by ring⟩
  unfold offset? at h
  split at h
  case h_1 | h_2 =>
    obtain ⟨rfl, -⟩ : 0 = offset ∧ _ := by simpa using h
    exact Int.dvd_zero 60
  case h_3 | h_4 | h_5 => exact hhours h
  case h_6 =>
    obtain ⟨-, rfl, -⟩ : _ ∧ 0 = offset ∧ _ := by simpa using h
    exact Int.dvd_zero 60
  case h_7 => simp at h

/-- Whatever separates the date from the time of day, something is read behind it. -/
theorem exists_of_separator {α : Type} {f : List Char → Option α} {s : List Char} {a : α}
    (h : (match s with
      | 'T' :: rest => some rest >>= f
      | 't' :: rest => some rest >>= f
      | ' ' :: rest => some rest >>= f
      | _ => none >>= f) = some a) : ∃ rest, f rest = some a := by
  split at h
  · exact ⟨_, h⟩
  · exact ⟨_, h⟩
  · exact ⟨_, h⟩
  · simp at h

theorem isValid_of_parse? {text : String} {t : Timestamp} (h : parse? text = some t) :
    t.isValid = true := by
  unfold parse? at h
  obtain ⟨⟨year, s⟩, -, h⟩ := Option.bind_eq_some_iff.mp h
  obtain ⟨s, -, h⟩ := Option.bind_eq_some_iff.mp h
  obtain ⟨⟨month, s⟩, -, h⟩ := Option.bind_eq_some_iff.mp h
  obtain ⟨s, -, h⟩ := Option.bind_eq_some_iff.mp h
  obtain ⟨⟨day, s⟩, -, h⟩ := Option.bind_eq_some_iff.mp h
  obtain ⟨s, h⟩ := exists_of_separator h
  obtain ⟨⟨hour, s⟩, -, h⟩ := Option.bind_eq_some_iff.mp h
  obtain ⟨s, -, h⟩ := Option.bind_eq_some_iff.mp h
  obtain ⟨⟨minute, s⟩, -, h⟩ := Option.bind_eq_some_iff.mp h
  obtain ⟨s, -, h⟩ := Option.bind_eq_some_iff.mp h
  obtain ⟨⟨second, s⟩, -, h⟩ := Option.bind_eq_some_iff.mp h
  obtain ⟨⟨nanos, s⟩, hnanos, h⟩ := Option.bind_eq_some_iff.mp h
  obtain ⟨⟨offset, s⟩, hoffset, h⟩ := Option.bind_eq_some_iff.mp h
  have hfraction := fraction?_lt hnanos
  obtain ⟨minutes, hminutes⟩ := sixty_dvd_offset hoffset
  dsimp only at h
  split at h
  case isTrue => simp at h
  case isFalse =>
    obtain ⟨hyear, rfl⟩ : _ ∧ _ = t := by simpa only [Option.ite_none_right_eq_some, Option.some.injEq] using h
    rw [isValid, hyear, Bool.true_and]
    by_cases hleap : second = 60
    · simp [hleap]
      omega
    · simp [hleap, hfraction]

end RecordingDelivery.Timestamp
