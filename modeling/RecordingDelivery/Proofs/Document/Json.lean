import RecordingDelivery.Document.Json.Reader
import RecordingDelivery.Document.Json.Writer
import RecordingDelivery.Proofs.Document.Value
import RecordingDelivery.Proofs.Text.Digits

/-!
JSON texts read back. What is written for a value without floating point is read as that value, with the
fields of each table in the order of their names and the last one of each name kept.
-/
namespace RecordingDelivery

namespace Value

mutual

/-- No floating point, and whole numbers only that a reader keeps whole. -/
def isPlain : Value → Bool
  | .null | .bool _ | .text _ => true
  | .int i => -0x8000000000000000 ≤ i && i < 0x10000000000000000
  | .float _ => false
  | .list items => itemsPlain items
  | .table fields => fieldsPlain fields

def itemsPlain : List Value → Bool
  | [] => true
  | v :: rest => v.isPlain && itemsPlain rest

def fieldsPlain : List (String × Value) → Bool
  | [] => true
  | (_, v) :: rest => v.isPlain && fieldsPlain rest

end

mutual

/-- The value with its tables as a reader makes them. -/
def tidied : Value → Value
  | .list items => .list (itemsTidied items)
  | .table fields => tableOf (fieldsTidied fields)
  | .null => .null
  | .bool b => .bool b
  | .int i => .int i
  | .float x => .float x
  | .text s => .text s

def itemsTidied : List Value → List Value
  | [] => []
  | v :: rest => v.tidied :: itemsTidied rest

def fieldsTidied : List (String × Value) → List (String × Value)
  | [] => []
  | (name, v) :: rest => (name, v.tidied) :: fieldsTidied rest

end

theorem itemsTidied_eq (items : List Value) : itemsTidied items = items.map tidied := by
  induction items with
  | nil => rfl
  | cons v rest ih => simp [itemsTidied, ih]

theorem fieldsTidied_eq (fields : List (String × Value)) :
    fieldsTidied fields = fields.map fun f => (f.1, f.2.tidied) := by
  induction fields with
  | nil => rfl
  | cons f rest ih => simp [fieldsTidied, ih]

theorem itemsPlain_iff (items : List Value) :
    itemsPlain items = true ↔ ∀ v ∈ items, v.isPlain = true := by
  induction items with
  | nil => simp [itemsPlain]
  | cons v rest ih => simp [itemsPlain, ih]

theorem fieldsPlain_iff (fields : List (String × Value)) :
    fieldsPlain fields = true ↔ ∀ f ∈ fields, f.2.isPlain = true := by
  induction fields with
  | nil => simp [fieldsPlain]
  | cons f rest ih => simp [fieldsPlain, ih]

theorem isPlain_count {n : Nat} (h : n < 0x10000000000000000) : (Value.int n).isPlain = true := by
  simp only [isPlain, Bool.and_eq_true, decide_eq_true_eq]
  omega

end Value

namespace Json

theorem skip_cons {c : Char} (h : isBlank c = false) (s : List Char) : skip (c :: s) = c :: s := by
  simp [skip, h]

/-! ### Strings -/

theorem hex4?_control {n : Nat} (h : n < 0x20) (rest : List Char) :
    hex4? ('0' :: '0' :: Digits.hexDigit (n / 16) :: Digits.hexDigit (n % 16) :: rest) =
      some (n, rest) := by
  have hfour : ∀ n < 0x20,
      ['0', '0', Digits.hexDigit (n / 16), Digits.hexDigit (n % 16)].all (Digits.isDigitOf 16) = true ∧
        Digits.number 16 ['0', '0', Digits.hexDigit (n / 16), Digits.hexDigit (n % 16)] = n := by
    decide
  obtain ⟨hdigits, hnumber⟩ := hfour n h
  have hfront : List.take 4 ('0' :: '0' :: Digits.hexDigit (n / 16) :: Digits.hexDigit (n % 16) ::
      rest) = ['0', '0', Digits.hexDigit (n / 16), Digits.hexDigit (n % 16)] := rfl
  rw [hex4?, hfront, if_pos ⟨rfl, hdigits⟩, hnumber]
  rfl

theorem escape_cases (c : Char) :
    (escape c = [c] ∧ c ≠ '"' ∧ c ≠ '\\' ∧ ¬ c.toNat < 0x20) ∨
      ∃ tail, escape c = '\\' :: tail ∧ ∀ rest, escape? (tail ++ rest) = some (c, rest) := by
  unfold escape
  split
  case h_8 hquote hslash _ _ _ _ _ =>
    split
    · rename_i hcontrol
      refine .inr ⟨_, rfl, fun rest => ?_⟩
      show unicodeEscape? ('0' :: '0' :: _ :: _ :: rest) = _
      have hlow : ¬ (0xD800 ≤ c.toNat ∧ c.toNat < 0xDC00) := by omega
      have hhigh : ¬ (0xDC00 ≤ c.toNat ∧ c.toNat < 0xE000) := by omega
      simp [unicodeEscape?, hex4?_control hcontrol, hlow, hhigh]
    · rename_i hplain
      exact .inl ⟨rfl, hquote, hslash, hplain⟩
  all_goals exact .inr ⟨_, rfl, fun _ => rfl⟩

theorem stringBody_escaped (s : List Char) {fuel : Nat} (hfuel : (s.flatMap escape).length < fuel)
    (rest : List Char) : stringBody fuel (s.flatMap escape ++ '"' :: rest) = some (s, rest) := by
  induction s generalizing fuel with
  | nil =>
    cases fuel with
    | zero => simp at hfuel
    | succ fuel => rfl
  | cons c s ih =>
    cases fuel with
    | zero => simp at hfuel
    | succ fuel =>
      rw [List.flatMap_cons, List.length_append] at hfuel
      rw [List.flatMap_cons, List.append_assoc]
      rcases escape_cases c with ⟨hc, hquote, hslash, hplain⟩ | ⟨tail, hc, hread⟩
      · rw [hc, List.length_singleton] at hfuel
        have hless : (s.flatMap escape).length < fuel := by omega
        simp [hc, stringBody, hquote, hslash, hplain, ih hless]
      · rw [hc, List.length_cons] at hfuel
        have hless : (s.flatMap escape).length < fuel := by omega
        simp [hc, stringBody, hread, ih hless]

theorem string?_quoted (s : String) (rest : List Char) :
    ∃ tail, quoted s ++ rest = '"' :: tail ∧ string? tail = some (s, rest) := by
  refine ⟨s.toList.flatMap escape ++ '"' :: rest, by simp [quoted], ?_⟩
  rw [string?, stringBody_escaped]
  · simp
  · rw [List.length_append]
    omega

/-! ### Numbers -/

/-- What may stand behind a value that is not the last thing in a text. -/
def Closes (rest : List Char) : Prop := ∀ c ∈ rest.head?, c = ',' ∨ c = ']' ∨ c = '\x7d'

theorem closes_nil : Closes [] := by simp [Closes]

theorem closes_comma (rest : List Char) : Closes (',' :: rest) := by simp [Closes]

theorem closes_bracket (rest : List Char) : Closes (']' :: rest) := by simp [Closes]

theorem closes_brace (rest : List Char) : Closes ('\x7d' :: rest) := by simp [Closes]

theorem absorb_digits {digits : List Char} (h : ∀ c ∈ digits, c.isDigit = true) {n : Nat}
    (hn : Nat.ofDigitChars 10 digits n < 0x10000000000000000) :
    absorb n digits = (Nat.ofDigitChars 10 digits n, []) := by
  induction digits generalizing n with
  | nil => rfl
  | cons c rest ih =>
    have hnumber : 10 * n + Digits.number 10 [c] = 10 * n + (c.toNat - '0'.toNat) := by
      simp [Digits.number, Digits.value?_digit (h c (by simp))]
    rw [Nat.ofDigitChars_cons] at hn ⊢
    have hle : 10 * n + (c.toNat - '0'.toNat) ≤
        Nat.ofDigitChars 10 rest (10 * n + (c.toNat - '0'.toNat)) := by
      rw [Nat.ofDigitChars_eq_ofDigitChars_zero]
      have hone : 1 ≤ 10 ^ rest.length := Nat.one_le_pow _ _ (by decide)
      exact Nat.le_add_right_of_le (Nat.le_mul_of_pos_left _ hone)
    rw [absorb, hnumber, if_pos (Nat.lt_of_le_of_lt hle hn)]
    exact ih (fun c hc => h c (by simp [hc])) hn

theorem unsigned?_digits (negative : Bool) {n : Nat} (hn : n < 0x10000000000000000)
    (hsign : ¬ (negative = true ∧ (n = 0 ∨ 0x8000000000000000 < n))) {rest : List Char}
    (hrest : Closes rest) :
    unsigned? negative (Nat.toDigits 10 n ++ rest) =
      some (.int (if negative then -Int.ofNat n else n), rest) := by
  have hrun : Digits.run (Nat.toDigits 10 n ++ rest) = (Nat.toDigits 10 n, rest) := by
    refine Digits.run_digits (fun c hc => Digits.isDigit_toDigits hc) fun c hc => ?_
    rcases hrest c hc with rfl | rfl | rfl <;> rfl
  have hfraction : fraction? rest = some (none, rest) := by
    cases rest with
    | nil => rfl
    | cons c rest => rcases hrest c rfl with rfl | rfl | rfl <;> rfl
  have hexponent : exponent? rest = some (none, rest) := by
    cases rest with
    | nil => rfl
    | cons c rest => rcases hrest c rfl with rfl | rfl | rfl <;> rfl
  have habsorb : absorb 0 (Nat.toDigits 10 n) = (n, []) := by
    rw [absorb_digits (fun c hc => Digits.isDigit_toDigits hc)] <;>
      rw [Nat.ofDigitChars_ten_toDigits]
    exact hn
  have hfront : ((Nat.toDigits 10 n).isEmpty ||
      ((Nat.toDigits 10 n).head? = some '0' && (Nat.toDigits 10 n).length != 1)) = false := by
    by_cases hzero : (Nat.toDigits 10 n).head? = some '0'
    · rw [Digits.head?_toDigits hzero]
      rfl
    · simp [hzero]
  simp [unsigned?, hrun, hfront, hfraction, hexponent, habsorb, whole, hsign]

theorem number?_int {i : Int} (hlow : -0x8000000000000000 ≤ i) (hhigh : i < 0x10000000000000000)
    {rest : List Char} (hrest : Closes rest) :
    ∃ c tail, (toString i).toList = c :: tail ∧ (c = '-' ∨ c.isDigit = true) ∧
      number? (c :: tail ++ rest) = some (.int i, rest) := by
  cases i with
  | ofNat n =>
    rw [Int.ofNat_eq_natCast] at hhigh
    have htext : (toString (Int.ofNat n)).toList = Nat.toDigits 10 n := Nat.toList_repr
    have hread := unsigned?_digits false (n := n) (by omega) (by simp) hrest
    obtain ⟨c, tail, hdigits, hc⟩ := Digits.exists_toDigits n
    rw [hdigits] at hread htext
    refine ⟨c, tail, htext, .inr hc, ?_⟩
    unfold number?
    split
    · rename_i heq
      obtain ⟨rfl, -⟩ := List.cons.inj heq
      simp at hc
    · exact hread
  | negSucc n =>
    have htext : (toString (Int.negSucc n)).toList = '-' :: Nat.toDigits 10 (n + 1) := by
      show ("-" ++ (n + 1).repr).toList = _
      simp
    exact ⟨_, _, htext, .inl rfl, unsigned?_digits true (n := n + 1) (by omega) (by omega) hrest⟩

/-! ### Values -/

theorem not_blank_number {c : Char} (hc : c = '-' ∨ c.isDigit = true) : isBlank c = false := by
  by_contra hblank
  simp only [isBlank, Bool.not_eq_false, Bool.or_eq_true, beq_iff_eq] at hblank
  rcases hblank with ((rfl | rfl) | rfl) | rfl <;> simp at hc

theorem value?_number {c : Char} (hc : c = '-' ∨ c.isDigit = true) (fuel : Nat) (s : List Char) :
    value? (fuel + 1) (c :: s) = number? (c :: s) := by
  unfold value?
  rw [skip_cons (not_blank_number hc)]
  split
  case h_7 => rfl
  all_goals
    rename_i heq
    obtain ⟨rfl, -⟩ := List.cons.inj heq
    simp at hc

/-- A value begins with a character that neither is blank nor closes a list. -/
theorem exists_chars {v : Value} (hv : v.isPlain = true) :
    ∃ c tail, chars v = c :: tail ∧ isBlank c = false ∧ c ≠ ']' := by
  cases v with
  | null | text s | list items | table fields => exact ⟨_, _, rfl, rfl, by decide⟩
  | bool b => cases b <;> exact ⟨_, _, rfl, rfl, by decide⟩
  | int i =>
    simp only [Value.isPlain, Bool.and_eq_true, decide_eq_true_eq] at hv
    obtain ⟨c, tail, htext, hc, -⟩ := number?_int hv.1 hv.2 closes_nil
    refine ⟨c, tail, htext, not_blank_number hc, ?_⟩
    rintro rfl
    simp at hc
  | float x => simp [Value.isPlain] at hv

theorem literal?_append (word : String) (v : Value) (rest : List Char) :
    literal? word v (word.toList ++ rest) = some (v, rest) := by
  have hdrop : (word.toList ++ rest).drop word.length = rest := by
    rw [← String.length_toList, List.drop_left]
  simp [literal?, hdrop]

theorem charsOfItems_cons (v w : Value) (more : List Value) :
    charsOfItems (v :: w :: more) = chars v ++ ',' :: charsOfItems (w :: more) := rfl

theorem charsOfFields_cons (name : String) (v : Value) (f : String × Value)
    (more : List (String × Value)) : charsOfFields ((name, v) :: f :: more) =
      quoted name ++ ':' :: chars v ++ ',' :: charsOfFields (f :: more) := rfl

theorem value?_list {items : List Value} (hitems : Value.itemsPlain items = true) (hne : items ≠ [])
    (fuel : Nat) (rest : List Char) :
    value? (fuel + 1) ('[' :: (charsOfItems items ++ ']' :: rest)) =
      (items? fuel (charsOfItems items ++ ']' :: rest)).map fun r => (.list r.1, r.2) := by
  have hfront : ∃ c tail, charsOfItems items = c :: tail ∧ isBlank c = false ∧ c ≠ ']' := by
    cases items with
    | nil => exact absurd rfl hne
    | cons v more =>
      simp only [Value.itemsPlain, Bool.and_eq_true] at hitems
      obtain ⟨c, tail, hchars, hblank, hc⟩ := exists_chars hitems.1
      cases more with
      | nil => exact ⟨c, tail, hchars, hblank, hc⟩
      | cons w more => exact ⟨c, _, by rw [charsOfItems_cons, hchars]; rfl, hblank, hc⟩
  obtain ⟨c, tail, hchars, hblank, hc⟩ := hfront
  rw [hchars]
  unfold value?
  rw [skip_cons rfl]
  simp [skip_cons hblank, hc]

theorem value?_table {fields : List (String × Value)} (hne : fields ≠ []) (fuel : Nat)
    (rest : List Char) :
    value? (fuel + 1) ('\x7b' :: (charsOfFields fields ++ '\x7d' :: rest)) =
      (fields? fuel (charsOfFields fields ++ '\x7d' :: rest)).map fun r =>
        (Value.tableOf r.1, r.2) := by
  have hfront : ∃ tail, charsOfFields fields = '"' :: tail := by
    cases fields with
    | nil => exact absurd rfl hne
    | cons f more =>
      obtain ⟨name, v⟩ := f
      cases more with
      | nil => exact ⟨_, rfl⟩
      | cons g more => exact ⟨_, rfl⟩
  obtain ⟨tail, hchars⟩ := hfront
  rw [hchars]
  rfl

mutual

theorem value?_chars (v : Value) (hv : v.isPlain = true) {fuel : Nat}
    (hfuel : (chars v).length ≤ fuel) {rest : List Char} (hrest : Closes rest) :
    value? fuel (chars v ++ rest) = some (v.tidied, rest) := by
  cases fuel with
  | zero =>
    obtain ⟨c, tail, hchars, -⟩ := exists_chars hv
    simp [hchars] at hfuel
  | succ fuel =>
    cases v with
    | null => exact literal?_append "ull" .null rest
    | bool b =>
      cases b with
      | true => exact literal?_append "rue" (.bool true) rest
      | false => exact literal?_append "alse" (.bool false) rest
    | int i =>
      simp only [Value.isPlain, Bool.and_eq_true, decide_eq_true_eq] at hv
      obtain ⟨c, tail, htext, hc, hread⟩ := number?_int hv.1 hv.2 hrest
      rw [chars, htext, Value.tidied, ← hread]
      exact value?_number hc fuel _
    | float x => simp [Value.isPlain] at hv
    | text s =>
      obtain ⟨tail, hchars, hread⟩ := string?_quoted s rest
      rw [chars, hchars, Value.tidied]
      unfold value?
      rw [skip_cons rfl]
      simp [hread]
    | list items =>
      have htext : chars (.list items) ++ rest = '[' :: (charsOfItems items ++ ']' :: rest) := by
        simp [chars]
      rw [htext]
      by_cases hne : items = []
      · subst hne
        rfl
      · simp only [chars, List.length_append, List.length_cons, List.length_nil] at hfuel
        rw [value?_list hv hne, items?_chars items hne hv (by omega)]
        rfl
    | table fields =>
      have htext : chars (.table fields) ++ rest =
          '\x7b' :: (charsOfFields fields ++ '\x7d' :: rest) := by
        simp [chars]
      rw [htext]
      by_cases hne : fields = []
      · subst hne
        rfl
      · simp only [chars, List.length_append, List.length_cons, List.length_nil] at hfuel
        rw [value?_table hne, fields?_chars fields hne hv (by omega)]
        rfl

theorem items?_chars (items : List Value) (hne : items ≠ []) (hitems : Value.itemsPlain items = true)
    {fuel : Nat} (hfuel : (charsOfItems items).length < fuel) (rest : List Char) :
    items? fuel (charsOfItems items ++ ']' :: rest) = some (Value.itemsTidied items, rest) := by
  cases fuel with
  | zero => simp at hfuel
  | succ fuel =>
    cases items with
    | nil => exact absurd rfl hne
    | cons v more =>
      simp only [Value.itemsPlain, Bool.and_eq_true] at hitems
      cases more with
      | nil =>
        have hread := value?_chars v hitems.1 (Nat.le_of_lt_succ hfuel) (closes_bracket rest)
        simp [items?, charsOfItems, hread, skip_cons, isBlank, Value.itemsTidied]
      | cons w more =>
        rw [charsOfItems_cons, List.length_append, List.length_cons] at hfuel
        have hv : (chars v).length ≤ fuel := by omega
        have hw : (charsOfItems (w :: more)).length < fuel := by omega
        have hread := value?_chars v hitems.1 hv
          (closes_comma (charsOfItems (w :: more) ++ ']' :: rest))
        have hmore := items?_chars (w :: more) (by simp) hitems.2 hw rest
        simp only [charsOfItems_cons, List.append_assoc, List.cons_append]
        simp [items?, hread, skip_cons, isBlank, hmore, Value.itemsTidied]

theorem fields?_chars (fields : List (String × Value)) (hne : fields ≠ [])
    (hfields : Value.fieldsPlain fields = true) {fuel : Nat}
    (hfuel : (charsOfFields fields).length < fuel) (rest : List Char) :
    fields? fuel (charsOfFields fields ++ '\x7d' :: rest) =
      some (Value.fieldsTidied fields, rest) := by
  cases fuel with
  | zero => simp at hfuel
  | succ fuel =>
    cases fields with
    | nil => exact absurd rfl hne
    | cons f more =>
      obtain ⟨name, v⟩ := f
      simp only [Value.fieldsPlain, Bool.and_eq_true] at hfields
      cases more with
      | nil =>
        have htext : charsOfFields [(name, v)] ++ '\x7d' :: rest =
            quoted name ++ ':' :: (chars v ++ '\x7d' :: rest) := by
          simp [charsOfFields]
        obtain ⟨tail, hquoted, hname⟩ := string?_quoted name (':' :: (chars v ++ '\x7d' :: rest))
        simp only [charsOfFields, List.length_append, List.length_cons] at hfuel
        have hv : (chars v).length ≤ fuel := by omega
        have hread := value?_chars v hfields.1 hv (closes_brace rest)
        rw [htext, hquoted]
        simp [fields?, hname, hread, skip_cons, isBlank, Value.fieldsTidied]
      | cons g more =>
        have htext : charsOfFields ((name, v) :: g :: more) ++ '\x7d' :: rest =
            quoted name ++ ':' :: (chars v ++ ',' :: (charsOfFields (g :: more) ++ '\x7d' :: rest)) := by
          simp [charsOfFields_cons]
        obtain ⟨tail, hquoted, hname⟩ := string?_quoted name
          (':' :: (chars v ++ ',' :: (charsOfFields (g :: more) ++ '\x7d' :: rest)))
        simp only [charsOfFields_cons, List.length_append, List.length_cons] at hfuel
        have hv : (chars v).length ≤ fuel := by omega
        have hg : (charsOfFields (g :: more)).length < fuel := by omega
        have hread := value?_chars v hfields.1 hv
          (closes_comma (charsOfFields (g :: more) ++ '\x7d' :: rest))
        have hmore := fields?_chars (g :: more) (by simp) hfields.2 hg rest
        rw [htext, hquoted]
        simp [fields?, hname, hread, skip_cons, isBlank, hmore, Value.fieldsTidied]

end

/-- A value without floating point is read back from its text. -/
theorem parse?_render {v : Value} (hv : v.isPlain = true) : parse? (render v) = some v.tidied := by
  have hread : value? (2 * (chars v).length + 1) (chars v) = some (v.tidied, []) := by
    have hfuel : (chars v).length ≤ 2 * (chars v).length + 1 := by omega
    have := value?_chars v hv hfuel closes_nil
    rwa [List.append_nil] at this
  simp [parse?, render, hread, skip]

end Json
end RecordingDelivery
