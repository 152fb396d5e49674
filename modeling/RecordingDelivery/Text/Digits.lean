/-!
Whole numbers as digits: the value of a run of digits in a base, and the run at the front of a
text.
-/
namespace RecordingDelivery.Digits

def value? (c : Char) : Option Nat :=
  if '0' ≤ c && c ≤ '9' then some (c.toNat - '0'.toNat)
  else if 'a' ≤ c && c ≤ 'f' then some (c.toNat - 'a'.toNat + 10)
  else if 'A' ≤ c && c ≤ 'F' then some (c.toNat - 'A'.toNat + 10)
  else none

/-- Whether a character is a digit of the base, which is at most sixteen. -/
def isDigitOf (base : Nat) (c : Char) : Bool :=
  match value? c with
  | some v => v < base
  | none => false

def isDecimal (c : Char) : Bool := isDigitOf 10 c

/-- The value of a run of digits, most significant first. -/
def number (base : Nat) (digits : List Char) : Nat :=
  digits.foldl (fun n c => n * base + (value? c).getD 0) 0

@[simp] theorem number_nil (base : Nat) : number base [] = 0 := rfl

def run (s : List Char) : List Char × List Char := (s.takeWhile isDecimal, s.dropWhile isDecimal)

@[simp] theorem run_append (s : List Char) : (run s).1 ++ (run s).2 = s :=
  List.takeWhile_append_dropWhile

def natural? (s : List Char) : Option Nat :=
  if s.isEmpty || s.any (! isDecimal ·) then none else some (number 10 s)

/-- A count below 2^64, perhaps with a plus sign in front. -/
def count? (s : List Char) : Option Nat := do
  let digits := match s with
    | '+' :: rest => rest
    | s => s
  let n ← Digits.natural? digits
  if n < 0x10000000000000000 then some n else none

def exactly? (count : Nat) (s : List Char) : Option (Nat × List Char) :=
  let front := s.take count
  if front.length = count ∧ front.all isDecimal = true then some (number 10 front, s.drop count)
  else none

def padded (width n : Nat) : String :=
  let digits := (toString n).toList
  String.ofList (List.replicate (width - digits.length) '0' ++ digits)

def hexDigit (n : Nat) : Char :=
  if n < 10 then Char.ofNat ('0'.toNat + n) else Char.ofNat ('a'.toNat + (n - 10))

/-- Lower-case hexadecimal digits without zeros in front. -/
def hexadecimal (n : Nat) : String := String.ofList (Nat.toDigits 16 n)

end RecordingDelivery.Digits
