/-!
Binary floating point of 64 bits: the nearest value to a decimal, products and quotients, and the
fewest digits that read back as a value. All arithmetic is on natural numbers.
-/
namespace RecordingDelivery

structure Binary64 where
  bits : UInt64
  deriving DecidableEq, Repr, Inhabited

namespace Binary64

def signBit (negative : Bool) : Nat := if negative then 0x8000000000000000 else 0

def ofFields (negative : Bool) (exponent fraction : Nat) : Binary64 :=
  ⟨UInt64.ofNat (signBit negative + exponent * 0x10000000000000 + fraction)⟩

def zero (negative : Bool) : Binary64 := ofFields negative 0 0

def infinity (negative : Bool) : Binary64 := ofFields negative 2047 0

def nan : Binary64 := ofFields false 2047 (0x8000000000000)

def isNegative (x : Binary64) : Bool := 0x8000000000000000 ≤ x.bits.toNat

def exponentField (x : Binary64) : Nat := x.bits.toNat / 0x10000000000000 % 2048

def fractionField (x : Binary64) : Nat := x.bits.toNat % 0x10000000000000

def isNaN (x : Binary64) : Bool := x.exponentField == 2047 && x.fractionField != 0

def isInfinite (x : Binary64) : Bool := x.exponentField == 2047 && x.fractionField == 0

/-- A quotient to the nearest whole number, halves to the even one. -/
def roundDiv (num den : Nat) : Nat :=
  let q := num / den
  let twice := 2 * (num % den)
  if twice < den then q else if den < twice then q + 1 else q + q % 2

/-- A quotient as a significand and a power of two, the power least such that the significand
has at most 53 bits, and never below that of the subnormal numbers. -/
def ofQuotient (negative : Bool) (num den : Nat) : Binary64 :=
  let guess : Int := Int.ofNat num.log2 - Int.ofNat den.log2 - 52
  let scaled (p : Int) : Nat × Nat := (num * Nat.pow 2 (-p).toNat, den * Nat.pow 2 p.toNat)
  let fits (p : Int) : Bool := (scaled p).1 / (scaled p).2 < 0x20000000000000
  let least := if fits (guess - 1) then guess - 1 else guess
  let power := max least (-1074)
  let m := roundDiv (scaled power).1 (scaled power).2
  let (m, power) := if m = 0x20000000000000 then (0x10000000000000, power + 1) else (m, power)
  if 971 < power then infinity negative
  else if m < 0x10000000000000 then ofFields negative 0 m
  else ofFields negative (power + 1075).toNat (m - 0x10000000000000)

/-- The value nearest to a decimal; far above the range it is infinite, far below zero. -/
def ofDecimal (negative : Bool) (mantissa : Nat) (exponent : Int) : Binary64 :=
  if mantissa = 0 then zero negative
  else
    let size : Int := exponent + (toString mantissa).length
    if 310 < size then infinity negative
    else if size < -330 then zero negative
    else ofQuotient negative (mantissa * Nat.pow 10 exponent.toNat) (Nat.pow 10 (-exponent).toNat)

def ratio (x : Binary64) : Nat × Nat :=
  let e := x.exponentField
  let m := if e = 0 then x.fractionField else x.fractionField + 0x10000000000000
  let power : Int := if e = 0 then -1074 else Int.ofNat e - 1075
  (m * Nat.pow 2 power.toNat, Nat.pow 2 (-power).toNat)

def times (x y : Binary64) : Binary64 :=
  ofQuotient false (x.ratio.1 * y.ratio.1) (x.ratio.2 * y.ratio.2)

def dividedBy (x y : Binary64) : Binary64 :=
  ofQuotient false (x.ratio.1 * y.ratio.2) (x.ratio.2 * y.ratio.1)

def negated (x : Binary64) : Binary64 := ⟨x.bits ^^^ 0x8000000000000000⟩

/-- A magnitude from digits and an exponent, each of them rounded before they meet: quick, but the last
binary place may differ from the nearest value. Nothing above the range has one. -/
def ofScaled? (n : Nat) (exponent : Int) : Option Binary64 :=
  let x := ofQuotient false n 1
  let power (e : Int) : Binary64 := ofQuotient false (Nat.pow 10 e.toNat) 1
  if n = 0 then some (zero false)
  else if 308 < exponent then none
  else if 0 ≤ exponent then
    let y := x.times (power exponent)
    if y.isInfinite then none else some y
  else if -308 ≤ exponent then some (x.dividedBy (power (-exponent)))
  else if -616 ≤ exponent then some ((x.dividedBy (power 308)).dividedBy (power (-exponent - 308)))
  else some (zero false)

structure Notation where
  /-- Of two shortest decimals equally near the greater is taken, otherwise the even one. -/
  tieUp : Bool
  /-- The powers of ten of a first digit between which no exponent is written; always none without. -/
  plain : Option (Int × Int)
  deriving DecidableEq, Repr

namespace Notation

def full : Notation := ⟨true, none⟩

def compact : Notation := ⟨false, some (-5, 15)⟩

end Notation

/-- A finite magnitude in quarters of its last binary place, with the ends of the stretch of
numbers that round to it; the ends belong to the stretch when `closed`. -/
structure Stretch where
  num : Nat
  low : Nat
  high : Nat
  den : Nat
  closed : Bool

def stretch (x : Binary64) : Stretch :=
  let e := x.exponentField
  let f := x.fractionField
  let m := if e = 0 then f else f + 0x10000000000000
  let power : Int := (if e = 0 then (-1074 : Int) else Int.ofNat e - 1075) - 2
  let up := Nat.pow 2 power.toNat
  let below := if f = 0 ∧ 1 < e then 1 else 2
  ⟨4 * m * up, (4 * m - below) * up, (4 * m + 2) * up, Nat.pow 2 (-power).toNat, m % 2 == 0⟩

/-- Whether the decimal `c · 10 ^ k` lies in the stretch. -/
def Stretch.holds (s : Stretch) (c : Nat) (k : Int) : Bool :=
  let x := c * Nat.pow 10 k.toNat * s.den
  let scale := Nat.pow 10 (-k).toNat
  let low := s.low * scale
  let high := s.high * scale
  if s.closed then low ≤ x && x ≤ high else low < x && x < high

def Stretch.magnitude (s : Stretch) : Int :=
  if s.den ≤ s.num then Int.ofNat (toString (s.num / s.den)).length - 1
  else
    let rec smaller : Nat → Nat → Nat → Int
      | 0, j, _ => - Int.ofNat j
      | fuel + 1, j, n => if s.den ≤ n then - Int.ofNat j else smaller fuel (j + 1) (n * 10)
    smaller 400 0 s.num

/-- The nearer of the two neighbours on the grid of `10 ^ k` that lie in the stretch. -/
def Stretch.onGrid? (s : Stretch) (tieUp : Bool) (k : Int) : Option Nat :=
  let num := s.num * Nat.pow 10 (-k).toNat
  let den := s.den * Nat.pow 10 k.toNat
  let c := num / den
  match s.holds c k, s.holds (c + 1) k with
  | true, true => some (if tieUp && 2 * (num % den) == den then c + 1 else roundDiv num den)
  | true, false => some c
  | false, true => some (c + 1)
  | false, false => none

/-- Fewest digits that read back, nearest of those: `c` and `k` stand for `c · 10 ^ k`. -/
def Stretch.shortest (s : Stretch) (tieUp : Bool) : Nat × Int :=
  let top := s.magnitude
  let grids := (List.range 17).map fun (n : Nat) => top - Int.ofNat n
  match grids.findSome? fun k => (s.onGrid? tieUp k).map fun c => (c, k) with
  | some r => r
  | none => (s.num / s.den, 0)

/-- A decimal without an exponent, with at least one digit on each side of the point. -/
def positional (c : Nat) (k : Int) : String :=
  let digits := (toString c).toList
  if 0 ≤ k then String.ofList (digits ++ List.replicate k.toNat '0') ++ ".0"
  else
    let places := (-k).toNat
    let digits := List.replicate (places + 1 - digits.length) '0' ++ digits
    let whole := digits.take (digits.length - places)
    let rest := (digits.drop (digits.length - places)).reverse.dropWhile (· == '0') |>.reverse
    String.ofList (whole ++ '.' :: if rest.isEmpty then ['0'] else rest)

/-- A decimal with one digit in front of the point, no zeros at its end, and an exponent. -/
def scientific (c : Nat) (k : Int) : String :=
  let digits := (toString c).toList
  let exponent := k + digits.length - 1
  let digits := (digits.reverse.dropWhile (· == '0')).reverse
  let point := if digits.length ≤ 1 then [] else ['.']
  String.ofList (digits.take 1 ++ point ++ digits.drop 1 ++ ['e', if exponent < 0 then '-' else '+'])
    ++ toString exponent.natAbs

def Notation.digits (n : Notation) (c : Nat) (k : Int) : String :=
  let exponent := k + (toString c).length - 1
  match n.plain with
  | some (low, high) =>
    if low ≤ exponent ∧ exponent ≤ high then positional c k else scientific c k
  | none => positional c k

def Notation.write (n : Notation) (x : Binary64) : String :=
  if x.isNaN then "NaN"
  else
    let sign := if x.isNegative then "-" else ""
    if x.isInfinite then sign ++ "inf"
    else if x.exponentField = 0 ∧ x.fractionField = 0 then sign ++ "0.0"
    else
      let (c, k) := x.stretch.shortest n.tieUp
      sign ++ n.digits c k

end Binary64
end RecordingDelivery
