import RecordingDelivery.Network.Address
import RecordingDelivery.Text.Utf8

/-!
The host of a web address: a bracketed group address, four octets in any of their old notations, or
a name in lower case.
-/
namespace RecordingDelivery.Http.Host

/-- The bytes of a text in which `%` and two digits stand for a byte. -/
def unescape : List Char → Bytes
  | '%' :: a :: b :: rest =>
    match Digits.value? a, Digits.value? b with
    | some x, some y => UInt8.ofNat (x * 16 + y) :: unescape rest
    | _, _ => 0x25 :: unescape (a :: b :: rest)
  | c :: rest => String.utf8EncodeChar c ++ unescape rest
  | [] => []

def isForbidden (c : Char) : Bool :=
  c ≤ ' ' || c = '\x7f' || "#/:<>?@[\\]^|%".toList.contains c

/-- One of the numbers of an address: hexadecimal behind `0x`, octal behind a zero. -/
def anyNumber? (s : List Char) : Option Nat :=
  match s with
  | '0' :: x :: rest =>
    if x = 'x' then read 16 rest else read 8 (x :: rest)
  | [] => none
  | s => read 10 s
where
  read (base : Nat) (s : List Char) : Option Nat :=
    if s.all (Digits.isDigitOf base) then some (Digits.number base s) else none

def labels (s : List Char) : List (List Char) :=
  match s.splitOn '.' with
  | [] => []
  | [l] => [l]
  | ls => if ls.getLast? = some [] then ls.dropLast else ls

/-- Whether a name's last label makes it an address of four octets. -/
def endsInNumber (s : List Char) : Bool :=
  match (labels s).getLast? with
  | none => false
  | some last =>
    ! last.isEmpty && (last.all Digits.isDecimal ||
      (last.take 2 = ['0', 'x'] && (anyNumber? last).isSome))

/-- Up to four numbers, the last of which fills what the others leave. -/
def octets? (s : List Char) : Option (List Nat) := do
  let numbers ← (labels s).mapM anyNumber?
  let last ← numbers.getLast?
  let front := numbers.dropLast
  if 3 < front.length || front.any (255 < ·) || Nat.pow 256 (4 - front.length) ≤ last then none
  else
    let n := front.foldl (· * 256 + ·) 0 * Nat.pow 256 (4 - front.length) + last
    some [n / 0x1000000, n / 0x10000 % 256, n / 256 % 256, n % 256]

/-- The host as it is compared. Names outside the basic alphabet keep their characters. -/
def read? (s : List Char) : Option String :=
  match s with
  | '[' :: inner =>
    match Network.groups? inner with
    | some (groups, [']']) => some ("[" ++ (IpAddress.v6 groups).render ++ "]")
    | _ => none
  | s =>
    let name := (Utf8.lossy (unescape s)).toList.map Char.toLower
    if name.isEmpty || name.any isForbidden then none
    else if endsInNumber name then (octets? name).map IpAddress.dotted
    else some (String.ofList name)

end RecordingDelivery.Http.Host
