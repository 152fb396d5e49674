import RecordingDelivery.Document.Value
import RecordingDelivery.Text.Digits

/-!
Reading JSON text. Whole numbers between -2^63 and 2^64 - 1 stay whole, all others become binary
floating point from a significand of 64 bits; of two fields with one name the later counts.
-/
namespace RecordingDelivery.Json

def isBlank (c : Char) : Bool := c == ' ' || c == '\t' || c == '\n' || c == '\r'

def skip (s : List Char) : List Char := s.dropWhile isBlank

def hex4? (s : List Char) : Option (Nat × List Char) :=
  let front := s.take 4
  if front.length = 4 ∧ front.all (Digits.isDigitOf 16) = true then
    some (Digits.number 16 front, s.drop 4)
  else none

/-- What follows the backslash and the `u` of an escape; two surrogate halves make one
character. -/
def unicodeEscape? (s : List Char) : Option (Char × List Char) := do
  let (u, rest) ← hex4? s
  if 0xD800 ≤ u ∧ u < 0xDC00 then
    match rest with
    | '\\' :: 'u' :: rest =>
      let (v, rest) ← hex4? rest
      if 0xDC00 ≤ v ∧ v < 0xE000 then
        some (Char.ofNat (0x10000 + (u - 0xD800) * 0x400 + (v - 0xDC00)), rest)
      else none
    | _ => none
  else if 0xDC00 ≤ u ∧ u < 0xE000 then none
  else some (Char.ofNat u, rest)

def escape? : List Char → Option (Char × List Char)
  | '"' :: rest => some ('"', rest)
  | '\\' :: rest => some ('\\', rest)
  | '/' :: rest => some ('/', rest)
  | 'b' :: rest => some ('\x08', rest)
  | 'f' :: rest => some ('\x0c', rest)
  | 'n' :: rest => some ('\n', rest)
  | 'r' :: rest => some ('\r', rest)
  | 't' :: rest => some ('\t', rest)
  | 'u' :: rest => unicodeEscape? rest
  | _ => none

def stringBody : Nat → List Char → Option (List Char × List Char)
  | 0, _ => none
  | _ + 1, [] => none
  | fuel + 1, c :: rest =>
    if c = '"' then some ([], rest)
    else if c = '\\' then do
      let (d, rest) ← escape? rest
      let (s, rest) ← stringBody fuel rest
      some (d :: s, rest)
    else if c.toNat < 0x20 then none
    else do
      let (s, rest) ← stringBody fuel rest
      some (c :: s, rest)

def string? (s : List Char) : Option (String × List Char) :=
  (stringBody (s.length + 1) s).map fun r => (String.ofList r.1, r.2)

structure Exponent where
  negative : Bool
  digits : List Char

def exponent? : List Char → Option (Option Exponent × List Char)
  | c :: rest =>
    if c = 'e' ∨ c = 'E' then
      let (negative, rest) := match rest with
        | '-' :: rest => (true, rest)
        | '+' :: rest => (false, rest)
        | rest => (false, rest)
      let (digits, rest) := Digits.run rest
      if digits.isEmpty then none else some (some ⟨negative, digits⟩, rest)
    else some (none, c :: rest)
  | [] => some (none, [])

def fraction? : List Char → Option (Option (List Char) × List Char)
  | '.' :: rest =>
    let (digits, rest) := Digits.run rest
    if digits.isEmpty then none else some (some digits, rest)
  | rest => some (none, rest)

/-- A digit joins a significand as long as 64 bits hold the result; gives the digits that are left. -/
def absorb : Nat → List Char → Nat × List Char
  | n, [] => (n, [])
  | n, c :: rest =>
    let m := 10 * n + Digits.number 10 [c]
    if m < 0x10000000000000000 then absorb m rest else (n, c :: rest)

def float? (negative : Bool) (n : Nat) (exponent : Int) : Option Value :=
  (Binary64.ofScaled? n exponent).map fun x => .float (if negative then x.negated else x)

/-- A number without point and exponent that 64 bits hold. -/
def whole (negative : Bool) (n : Nat) : Option Value :=
  if negative ∧ (n = 0 ∨ 0x8000000000000000 < n) then float? true n 0
  else some (.int (if negative then -Int.ofNat n else n))

/-- A number without its sign. Digits that the significand does not take count as zeros in front of the
point and not at all behind it. -/
def unsigned? (negative : Bool) (s : List Char) : Option (Value × List Char) := do
  let (front, rest) := Digits.run s
  if front.isEmpty || (front.head? = some '0' && front.length != 1) then none
  else
    let (places, rest) ← fraction? rest
    let (power, rest) ← exponent? rest
    let (n, surplus) := absorb 0 front
    let v ← match places, power with
      | none, none => if surplus.isEmpty then whole negative n else float? negative n surplus.length
      | _, _ =>
        let places := places.getD []
        let (n, lost) := absorb n places
        let shift : Int := match power with
          | none => 0
          | some e =>
            if e.negative then -Int.ofNat (Digits.number 10 e.digits)
            else Int.ofNat (Digits.number 10 e.digits)
        float? negative n (shift + surplus.length + lost.length - places.length)
    some (v, rest)

def number? : List Char → Option (Value × List Char)
  | '-' :: rest => unsigned? true rest
  | rest => unsigned? false rest

def literal? (word : String) (v : Value) (s : List Char) : Option (Value × List Char) :=
  if word.toList.isPrefixOf s then some (v, s.drop word.length) else none

mutual

def value? : Nat → List Char → Option (Value × List Char)
  | 0, _ => none
  | fuel + 1, s =>
    match skip s with
    | 'n' :: rest => literal? "ull" .null rest
    | 't' :: rest => literal? "rue" (.bool true) rest
    | 'f' :: rest => literal? "alse" (.bool false) rest
    | '"' :: rest => (string? rest).map fun r => (.text r.1, r.2)
    | '[' :: rest =>
      match skip rest with
      | ']' :: rest => some (.list [], rest)
      | rest => (items? fuel rest).map fun r => (.list r.1, r.2)
    | '\x7b' :: rest =>
      match skip rest with
      | '\x7d' :: rest => some (.table [], rest)
      | rest => (fields? fuel rest).map fun r => (Value.tableOf r.1, r.2)
    | rest => number? rest

def items? : Nat → List Char → Option (List Value × List Char)
  | 0, _ => none
  | fuel + 1, s => do
    let (v, rest) ← value? fuel s
    match skip rest with
    | ',' :: rest =>
      let (vs, rest) ← items? fuel rest
      some (v :: vs, rest)
    | ']' :: rest => some ([v], rest)
    | _ => none

/-- The fields up to the closing brace, as they stand. In the table that they become the later of two
with one name counts, known or not; a reading straight into a type with that field would refuse the
second. -/
def fields? : Nat → List Char → Option (List (String × Value) × List Char)
  | 0, _ => none
  | fuel + 1, s =>
    match skip s with
    | '"' :: rest => do
      let (name, rest) ← string? rest
      match skip rest with
      | ':' :: rest =>
        let (v, rest) ← value? fuel rest
        match skip rest with
        | ',' :: rest =>
          let (more, rest) ← fields? fuel rest
          some ((name, v) :: more, rest)
        | '\x7d' :: rest => some ([(name, v)], rest)
        | _ => none
      | _ => none
    | _ => none

end

def parse? (text : String) : Option Value :=
  let s := text.toList
  match value? (2 * s.length + 1) s with
  | some (v, rest) => if (skip rest).isEmpty then some v else none
  | none => none

end RecordingDelivery.Json
