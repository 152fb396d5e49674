import Mathlib.Tactic.IntervalCases
import RecordingDelivery.Time.Calendar

/-!
The calendar's two directions: each day is a date that exists, and that date is counted back to the day.
Years of an era begin in March and are recovered from the day of the era, as its estimate only grows and
is right at both ends of each year.
-/
namespace RecordingDelivery.Calendar

def yearOfEra (day : Nat) : Nat := (day - day / 1460 + day / 36524 - day / 146096) / 365

def yearStart (year : Nat) : Nat := 365 * year + year / 4 - year / 100 + year / 400

theorem yearOfEra_mono {a b : Nat} (h : a ≤ b) : yearOfEra a ≤ yearOfEra b := by
  have hshort : a - a / 1460 ≤ b - b / 1460 := by omega
  have hcentury : a / 36524 - a / 36524 / 4 ≤ b / 36524 - b / 36524 / 4 := by
    have : a / 36524 ≤ b / 36524 := Nat.div_le_div_right h
    omega
  have hera (d : Nat) : d / 146096 = d / 36524 / 4 := by rw [Nat.div_div_eq_div_mul]
  apply Nat.div_le_div_right
  rw [hera, hera]
  omega

theorem yearOfEra_ends : ∀ year < 400,
    yearOfEra (yearStart year) = year ∧ yearOfEra (yearStart (year + 1) - 1) = year := by
  decide +kernel

theorem yearOfEra_spec {day : Nat} (h : day < 146097) : yearOfEra day < 400 ∧
    yearStart (yearOfEra day) ≤ day ∧ day < yearStart (yearOfEra day + 1) := by
  have hlast : yearOfEra day ≤ 399 := yearOfEra_mono (b := 146096) (by omega)
  refine ⟨by omega, ?_, ?_⟩
  · by_contra hbefore
    cases hyear : yearOfEra day with
    | zero =>
      rw [hyear] at hbefore
      exact hbefore (Nat.zero_le day)
    | succ year =>
      rw [hyear] at hbefore
      have hle : yearOfEra day ≤ yearOfEra (yearStart (year + 1) - 1) :=
        yearOfEra_mono (by omega)
      rw [(yearOfEra_ends year (by omega)).2] at hle
      omega
  · by_contra hafter
    by_cases hyear : yearOfEra day = 399
    · rw [hyear] at hafter
      exact hafter (by simpa [yearStart] using h)
    · have hle : yearOfEra (yearStart (yearOfEra day + 1)) ≤ yearOfEra day :=
        yearOfEra_mono (by omega)
      rw [(yearOfEra_ends (yearOfEra day + 1) (by omega)).1] at hle
      omega

/-- A year has 366 days if the next one, in which its February lies, is a leap year. -/
theorem yearStart_succ (year : Nat) (era : Int) (h : year < 400) : yearStart (year + 1) =
    yearStart year + if isLeap (year + era * 400 + 1) then 366 else 365 := by
  have hleap : isLeap (year + era * 400 + 1) = true ↔
      (year + 1) % 4 = 0 ∧ ((year + 1) % 100 ≠ 0 ∨ year = 399) := by
    simp only [isLeap, Bool.and_eq_true, decide_eq_true_eq, Bool.or_eq_true, bne_iff_ne]
    omega
  unfold yearStart
  split <;> rename_i hl <;> rw [hleap] at hl <;> omega

/-- A day of the year as month and day, where the months are counted from March. -/
structure Shifted (dayOfYear shifted day : Nat) : Prop where
  short : shifted ≤ 11
  sum : (153 * shifted + 2) / 5 + day = dayOfYear + 1
  pos : 0 < day
  next : day ≤ (153 * (shifted + 1) + 2) / 5 - (153 * shifted + 2) / 5

theorem shifted_spec {dayOfYear : Nat} (h : dayOfYear < 366) :
    Shifted dayOfYear ((5 * dayOfYear + 2) / 153)
      (dayOfYear - (153 * ((5 * dayOfYear + 2) / 153) + 2) / 5 + 1) := by
  refine ⟨by omega, by omega, by omega, by omega⟩

/-- A day by its era, its year from March on and its month counted from March. -/
theorem ofDays_parts (days : Int) : ∃ (era : Int) (year dayOfYear shifted day : Nat), year < 400 ∧
    days + 719468 = era * 146097 + (yearStart year + dayOfYear) ∧
    dayOfYear < (if isLeap (year + era * 400 + 1) then 366 else 365) ∧
    Shifted dayOfYear shifted day ∧
    ofDays days = if shifted < 10 then ⟨year + era * 400, shifted + 3, day⟩
      else ⟨year + era * 400 + 1, shifted - 9, day⟩ := by
  obtain ⟨era, hera⟩ : ∃ era, (days + 719468) / 146097 = era := ⟨_, rfl⟩
  obtain ⟨dayOfEra, hday⟩ : ∃ dayOfEra, ((days + 719468) % 146097).toNat = dayOfEra := ⟨_, rfl⟩
  obtain ⟨year, hyearOf⟩ : ∃ year, yearOfEra dayOfEra = year := ⟨_, rfl⟩
  obtain ⟨hyear, hstart, hnext⟩ := @yearOfEra_spec dayOfEra (by omega)
  rw [hyearOf] at hyear hstart hnext
  have hlength := yearStart_succ year era hyear
  obtain ⟨dayOfYear, hdayOfYear⟩ : ∃ dayOfYear, dayOfEra - yearStart year = dayOfYear := ⟨_, rfl⟩
  have hshort : dayOfYear < if isLeap (year + era * 400 + 1) then 366 else 365 := by omega
  have hshifted := @shifted_spec dayOfYear (by split at hshort <;> omega)
  refine ⟨era, year, dayOfYear, _, _, hyear, by omega, hshort, hshifted, ?_⟩
  have hsame : dayOfEra - (365 * year + year / 4 - year / 100) = dayOfYear := by
    have : yearStart year = 365 * year + year / 4 - year / 100 + year / 400 := rfl
    omega
  have hyearOf : (dayOfEra - dayOfEra / 1460 + dayOfEra / 36524 - dayOfEra / 146096) / 365 = year :=
    hyearOf
  have hlow := hshifted.short
  simp only [ofDays, hera, hday, hyearOf, hsame]
  split
  · rw [if_neg (by omega)]
  · rw [if_pos (by omega)]

theorem isValid_ofDays (days : Int) : (ofDays days).isValid = true := by
  obtain ⟨era, year, dayOfYear, shifted, day, -, -, hdays, hshifted, hdate⟩ := ofDays_parts days
  obtain ⟨hshort, hsum, hpos, hnext⟩ := hshifted
  rw [hdate]
  interval_cases shifted
  case «11» =>
    -- February, which alone looks at the year
    simp only [Date.isValid, monthLength, Nat.reduceLT, if_false, Nat.reduceSub, if_true,
      Bool.and_eq_true, decide_eq_true_eq]
    cases hleap : isLeap (year + era * 400 + 1) <;> simp [hleap] at hdays ⊢ <;> omega
  all_goals
    simp [Date.isValid, monthLength]
    omega

theorem toDays_ofDays (days : Int) : toDays (ofDays days) = days := by
  obtain ⟨era, year, dayOfYear, shifted, day, hyear, hdays, -, hshifted, hdate⟩ := ofDays_parts days
  obtain ⟨hshort, hsum, hpos, hnext⟩ := hshifted
  have hstart : yearStart year = 365 * year + year / 4 - year / 100 + year / 400 := rfl
  rw [hdate]
  split
  · simp only [toDays]
    rw [if_neg (by omega)]
    omega
  · simp only [toDays]
    rw [if_pos (by omega)]
    omega

end RecordingDelivery.Calendar
