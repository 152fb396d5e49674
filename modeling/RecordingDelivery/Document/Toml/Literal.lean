import RecordingDelivery.Document.Value
import RecordingDelivery.Text.Digits
import RecordingDelivery.Time.Calendar

/-!
Unquoted values of TOML: truth values, numbers, dates and times. A date or time is a table with the
one field that holds its text.
-/
namespace RecordingDelivery.Toml

def isLiteral (c : Char) : Bool :=
  c.isAlphanum || c == '_' || c == '+' || c == '-' || c == '.' || c == ':'

/-- Digits of a base, single underscores between them left out. -/
def digitGroups? (base : Nat) : List Char → Option (List Char)
  | [] => none
  | [c] => if Digits.isDigitOf base c then some [c] else none
  | c :: '_' :: rest => if Digits.isDigitOf base c then (digitGroups? base rest).map (c :: ·) else none
  | c :: rest => if Digits.isDigitOf base c then (digitGroups? base rest).map (c :: ·) else none

/-- Decimal digits without a zero in front, zero itself apart. -/
def wholeDigits? (s : List Char) : Option (List Char) := do
  let digits ← digitGroups? 10 s
  if digits.length ≠ 1 ∧ digits.head? = some '0' then none else some digits

def splitSign : List Char → Bool × List Char
  | '-' :: rest => (true, rest)
  | '+' :: rest => (false, rest)
  | s => (false, s)

/-- Whole numbers that no integer type of 128 bits holds are no values. -/
def intInRange (i : Int) : Bool := -0x80000000000000000000000000000000 ≤ i && i < 0x100000000000000000000000000000000

def integer? (s : List Char) : Option Value := do
  let i : Int ← match s with
    | '0' :: 'x' :: rest => (digitGroups? 16 rest).map fun d => Int.ofNat (Digits.number 16 d)
    | '0' :: 'o' :: rest => (digitGroups? 8 rest).map fun d => Int.ofNat (Digits.number 8 d)
    | '0' :: 'b' :: rest => (digitGroups? 2 rest).map fun d => Int.ofNat (Digits.number 2 d)
    | s =>
      let (negative, s) := splitSign s
      (wholeDigits? s).map fun d =>
        if negative then -Int.ofNat (Digits.number 10 d) else Int.ofNat (Digits.number 10 d)
  if intInRange i then some (.int i) else none

def isExponentMark (c : Char) : Bool := c == 'e' || c == 'E'

def float? (s : List Char) : Option Value := do
  let (negative, s) := splitSign s
  if s = "inf".toList then return .float (.infinity negative)
  if s = "nan".toList then return .float .nan
  let mantissa := s.takeWhile (! isExponentMark ·)
  let power : Int ← match s.dropWhile (! isExponentMark ·) with
    | [] => some 0
    | _ :: rest =>
      let (down, rest) := splitSign rest
      (digitGroups? 10 rest).map fun d =>
        if down then -Int.ofNat (Digits.number 10 d) else Int.ofNat (Digits.number 10 d)
  let whole ← wholeDigits? (mantissa.takeWhile (· != '.'))
  let places ← match mantissa.dropWhile (· != '.') with
    | [] => some []
    | _ :: rest => digitGroups? 10 rest
  let x := Binary64.ofDecimal negative (Digits.number 10 (whole ++ places)) (power - places.length)
  if x.isInfinite then none else some (.float x)

def date? (s : List Char) : Option (List Char) := do
  let (year, s) ← Digits.exactly? 4 s
  match s with
  | '-' :: s =>
    let (month, s) ← Digits.exactly? 2 s
    match s with
    | '-' :: s =>
      let (day, s) ← Digits.exactly? 2 s
      if (⟨year, month, day⟩ : Calendar.Date).isValid then some s else none
    | _ => none
  | _ => none

/-- A time of day at the front; the seconds may be absent. -/
def time? (s : List Char) : Option (List Char) := do
  let (hour, s) ← Digits.exactly? 2 s
  match s with
  | ':' :: s =>
    let (minute, s) ← Digits.exactly? 2 s
    if 24 ≤ hour ∨ 60 ≤ minute then none
    else match s with
      | ':' :: s =>
        let (second, s) ← Digits.exactly? 2 s
        if 61 ≤ second then none
        else match s with
          | '.' :: s =>
            let (places, s) := Digits.run s
            if places.isEmpty then none else some s
          | s => some s
      | s => some s
  | _ => none

def isOffset (s : List Char) : Bool :=
  match s with
  | [] | ['Z'] | ['z'] => true
  | '+' :: rest | '-' :: rest =>
    match Digits.exactly? 2 rest with
    | some (hours, ':' :: rest) =>
      match Digits.exactly? 2 rest with
      | some (minutes, []) => hours < 24 && minutes < 60
      | _ => false
    | _ => false
  | _ => false

def isMoment (s : List Char) : Bool :=
  match date? s with
  | some [] => true
  | some ('T' :: rest) | some ('t' :: rest) | some (' ' :: rest) =>
    match time? rest with
    | some offset => isOffset offset
    | none => false
  | some _ => false
  | none => time? s = some []

def momentField : String := "$__toml_private_datetime"

def moment (s : List Char) : Value := .table [(momentField, .text (String.ofList s))]

/-- A date may be followed by a blank and a time of day. -/
def splitLiteral (s : List Char) : List Char × List Char :=
  let front := s.takeWhile isLiteral
  let rest := s.dropWhile isLiteral
  match rest with
  | ' ' :: more =>
    if date? front = some [] ∧ (time? (more.takeWhile isLiteral |>.take 5)).isSome then
      (front ++ ' ' :: more.takeWhile isLiteral, more.dropWhile isLiteral)
    else (front, rest)
  | _ => (front, rest)

def unquoted? (s : List Char) : Option Value :=
  if s = "true".toList then some (.bool true)
  else if s = "false".toList then some (.bool false)
  else if isMoment s then some (moment s)
  else match integer? s with
    | some v => some v
    | none => float? s

end RecordingDelivery.Toml
