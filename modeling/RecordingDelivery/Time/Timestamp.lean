import RecordingDelivery.Text.Blank
import RecordingDelivery.Text.Digits
import RecordingDelivery.Time.Calendar

/-!
Moments of universal time and their text form. The reader takes any offset, single digits, blanks
between the parts and years beyond four digits with a sign; the writer gives UTC with `Z` and a
fraction of 0, 3, 6 or 9 digits.
-/
namespace RecordingDelivery

/-- Seconds from 1970-01-01T00:00:00Z and the nanoseconds in the second; from 10^9 on these lie in
the leap second behind it. -/
structure Timestamp where
  seconds : Int
  nanos : Nat
  deriving DecidableEq, Repr, Inhabited

namespace Timestamp

def epoch : Timestamp := ⟨0, 0⟩

def skip (s : List Char) : List Char := s.dropWhile Blank.isBlank

def literal? (c : Char) (s : List Char) : Option (List Char) :=
  match skip s with
  | d :: rest => if c = d then some rest else none
  | [] => none

/-- A number of at least one and at most that many digits, after blanks. -/
def number? (width : Nat) (s : List Char) : Option (Nat × List Char) :=
  let s := skip s
  let digits := (s.take width).takeWhile Digits.isDecimal
  if digits.isEmpty then none else some (Digits.number 10 digits, s.drop digits.length)

/-- Four digits at most, or any number of them behind a sign. -/
def year? (s : List Char) : Option (Int × List Char) :=
  match skip s with
  | '-' :: rest => signed (-1) rest
  | '+' :: rest => signed 1 rest
  | s => (number? 4 s).map fun r => (r.1, r.2)
where
  signed (sign : Int) (s : List Char) : Option (Int × List Char) :=
    let (digits, rest) := Digits.run s
    if digits.isEmpty then none else some (sign * Digits.number 10 digits, rest)

/-- Nanoseconds from the digits of a fraction, those behind the ninth left out. -/
def fractionNanos (digits : List Char) : Nat :=
  Digits.number 10 (digits.take 9) * Nat.pow 10 (9 - (digits.take 9).length)

def fraction? (s : List Char) : Option (Nat × List Char) :=
  match s with
  | '.' :: rest =>
    let (digits, rest) := Digits.run rest
    if digits.isEmpty then none else some (fractionNanos digits, rest)
  | s => some (0, s)

def offset? (s : List Char) : Option (Int × List Char) :=
  match s with
  | 'Z' :: rest | 'z' :: rest => some (0, rest)
  | '+' :: rest => hoursMinutes 1 rest
  | '-' :: rest | '\u2212' :: rest => hoursMinutes (-1) rest
  | a :: b :: c :: rest =>
    if a.toUpper = 'U' ∧ b.toUpper = 'T' ∧ c.toUpper = 'C' then some (0, rest) else none
  | _ => none
where
  hoursMinutes (sign : Int) (s : List Char) : Option (Int × List Char) := do
    let (hours, rest) ← Digits.exactly? 2 s
    let (minutes, rest) ←
      Digits.exactly? 2 (rest.dropWhile fun c => c == ':' || Blank.isBlank c)
    if 60 ≤ minutes ∨ 24 ≤ hours then none
    else some (sign * (hours * 3600 + minutes * 60), rest)

def yearInRange (year : Int) : Bool := -262143 ≤ year && year ≤ 262142

def parse? (text : String) : Option Timestamp := do
  let (year, s) ← year? text.toList
  let s ← literal? '-' s
  let (month, s) ← number? 2 s
  let s ← literal? '-' s
  let (day, s) ← number? 2 s
  let s ← match s with
    | 'T' :: rest | 't' :: rest | ' ' :: rest => some rest
    | _ => none
  let (hour, s) ← number? 2 s
  let s ← literal? ':' s
  let (minute, s) ← number? 2 s
  let s ← literal? ':' s
  let (second, s) ← number? 2 s
  let (nanos, s) ← fraction? s
  let (offset, s) ← offset? (skip s)
  let date : Calendar.Date := ⟨year, month, day⟩
  if ! (skip s).isEmpty || ! yearInRange year || ! date.isValid
      || 24 ≤ hour || 60 ≤ minute || 61 ≤ second then none
  else
    let (second, nanos) := if second = 60 then (59, nanos + 1000000000) else (second, nanos)
    let seconds : Int :=
      Calendar.toDays date * 86400 + (hour * 3600 + minute * 60 + second) - offset
    if yearInRange (Calendar.ofDays (seconds / 86400)).year then some ⟨seconds, nanos⟩ else none

def renderYear (year : Int) : String :=
  if 0 ≤ year ∧ year ≤ 9999 then Digits.padded 4 year.toNat
  else (if year < 0 then "-" else "+") ++ Digits.padded 4 year.natAbs

def renderFraction (nanos : Nat) : String :=
  if nanos = 0 then ""
  else if nanos % 1000000 = 0 then "." ++ Digits.padded 3 (nanos / 1000000)
  else if nanos % 1000 = 0 then "." ++ Digits.padded 6 (nanos / 1000)
  else "." ++ Digits.padded 9 nanos

def render (t : Timestamp) : String :=
  let date := Calendar.ofDays (t.seconds / 86400)
  let inDay := (t.seconds % 86400).toNat
  let leap := t.nanos / 1000000000
  renderYear date.year ++ "-" ++ Digits.padded 2 date.month ++ "-" ++ Digits.padded 2 date.day
    ++ "T" ++ Digits.padded 2 (inDay / 3600) ++ ":" ++ Digits.padded 2 (inDay / 60 % 60)
    ++ ":" ++ Digits.padded 2 (inDay % 60 + leap) ++ renderFraction (t.nanos % 1000000000) ++ "Z"

end Timestamp
end RecordingDelivery
