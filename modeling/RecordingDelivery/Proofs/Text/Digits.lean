import Mathlib
import RecordingDelivery.Text.Digits

/-!
Decimal digits as they are written and read: the digits of a number give the number back, and a run of
digits ends where the first other character stands.
-/
namespace RecordingDelivery.Digits

variable {digits rest : List Char} {n width : Nat}

theorem digit_bounds {c : Char} (h : c.isDigit = true) : 48 ≤ c.toNat ∧ c.toNat ≤ 57 := by
  simp only [Char.isDigit, ge_iff_le, Bool.and_eq_true, decide_eq_true_eq] at h
  exact h

theorem value?_digit {c : Char} (h : c.isDigit = true) : value? c = some (c.toNat - 48) := by
  have hrange : ('0' ≤ c && c ≤ '9') = true := by
    simp only [Bool.and_eq_true, decide_eq_true_eq]
    exact digit_bounds h
  rw [value?, if_pos hrange]
  rfl

theorem isDecimal_digit {c : Char} (h : c.isDigit = true) : isDecimal c = true := by
  have := digit_bounds h
  simp only [isDecimal, isDigitOf, value?_digit h, decide_eq_true_eq]
  omega

theorem number_ten (h : ∀ c ∈ digits, c.isDigit = true) :
    number 10 digits = Nat.ofDigitChars 10 digits 0 := by
  apply List.foldl_ext
  intro n c hc
  rw [value?_digit (h c hc), Nat.mul_comm]
  rfl

theorem isDigit_toDigits {c : Char} (h : c ∈ Nat.toDigits 10 n) : c.isDigit = true :=
  Nat.isDigit_of_mem_toDigits (by decide) (by decide) h

theorem exists_toDigits (n : Nat) :
    ∃ c tail, Nat.toDigits 10 n = c :: tail ∧ c.isDigit = true := by
  obtain ⟨c, tail, h⟩ := List.exists_cons_of_ne_nil (Nat.toDigits_ne_nil (n := n) (b := 10))
  exact ⟨c, tail, h, isDigit_toDigits (n := n) (by simp [h])⟩

@[simp] theorem number_toDigits (n : Nat) : number 10 (Nat.toDigits 10 n) = n := by
  rw [number_ten fun c hc => isDigit_toDigits hc, Nat.ofDigitChars_ten_toDigits]

theorem head?_toDigits (h : (Nat.toDigits 10 n).head? = some '0') : n = 0 := by
  induction n using Nat.strongRecOn with
  | ind n ih =>
    rw [Nat.toDigits_eq_if (by decide)] at h
    split at h
    · rename_i hn
      have hzero : n.digitChar = '0' := by simpa using h
      have := Nat.toNat_digitChar_of_lt_ten hn
      rw [hzero] at this
      have : '0'.toNat = 48 := rfl
      omega
    · rename_i hn
      have hdiv : n / 10 = 0 := by
        apply ih (n / 10) (by omega)
        rwa [List.head?_append_of_ne_nil _ Nat.toDigits_ne_nil] at h
      omega

theorem number_concat (base : Nat) (digits : List Char) (c : Char) :
    number base (digits ++ [c]) = number base digits * base + (value? c).getD 0 := by
  simp [number]

theorem number_lt (h : ∀ c ∈ digits, isDecimal c = true) :
    number 10 digits < 10 ^ digits.length := by
  induction digits using List.reverseRecOn with
  | nil => decide
  | append_singleton digits c ih =>
    have hfront := ih fun b hb => h b (by simp [hb])
    have hlast := h c (by simp)
    have hvalue : (value? c).getD 0 < 10 := by
      cases hv : value? c with
      | none => decide
      | some v => simpa [isDecimal, isDigitOf, hv] using hlast
    rw [number_concat, List.length_append, List.length_singleton, Nat.pow_succ]
    omega

theorem run_digits (h : ∀ c ∈ digits, c.isDigit = true)
    (hrest : ∀ c ∈ rest.head?, isDecimal c = false) : run (digits ++ rest) = (digits, rest) := by
  have hall : ∀ c ∈ digits, isDecimal c = true := fun c hc => isDecimal_digit (h c hc)
  rw [run, List.takeWhile_append_of_pos hall, List.dropWhile_append_of_pos hall]
  cases rest with
  | nil => simp
  | cons c rest =>
    have hc : isDecimal c = false := hrest c rfl
    simp [hc]

/-! ### Padding -/

theorem toList_padded (width n : Nat) : (padded width n).toList =
    List.replicate (width - (Nat.toDigits 10 n).length) '0' ++ Nat.toDigits 10 n := by
  simp [padded]

theorem isDigit_padded {c : Char} (h : c ∈ (padded width n).toList) : c.isDigit = true := by
  rw [toList_padded, List.mem_append] at h
  rcases h with h | h
  · rw [List.eq_of_mem_replicate h]
    rfl
  · exact isDigit_toDigits h

@[simp] theorem number_padded (width n : Nat) : number 10 (padded width n).toList = n := by
  rw [number_ten fun c hc => isDigit_padded hc, toList_padded, Nat.ofDigitChars_append,
    Nat.ofDigitChars_replicate_zero, Nat.mul_zero, Nat.ofDigitChars_ten_toDigits]

theorem padded_ne_nil (width n : Nat) : (padded width n).toList ≠ [] := by
  simp [toList_padded]

theorem padded_ne_empty (width n : Nat) : padded width n ≠ "" := by
  intro h
  exact padded_ne_nil width n (by rw [h]; rfl)

theorem length_padded (hwidth : 0 < width) (h : n < 10 ^ width) :
    (padded width n).toList.length = width := by
  have := (Nat.length_toDigits_le_iff (by decide) hwidth).mpr h
  rw [toList_padded, List.length_append, List.length_replicate]
  omega

end RecordingDelivery.Digits
