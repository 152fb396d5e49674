import RecordingDelivery.Text.Digits

/-!
Internet addresses as they are written: four decimal octets, or eight groups of hexadecimal digits
of which one run of zeros may be left out. A socket is a number at an address.
-/
namespace RecordingDelivery

inductive IpAddress
  | v4 (octets : List Nat)
  | v6 (groups : List Nat)
  deriving DecidableEq, Repr

structure SocketAddress where
  ip : IpAddress
  scope : Nat := 0
  socket : Nat
  deriving DecidableEq, Repr

namespace Network

def after? (c : Char) : List Char → Option (List Char)
  | d :: rest => if d = c then some rest else none
  | [] => none

def number? (base limit : Nat) (s : List Char) : Option (Nat × List Char) :=
  let digits := s.takeWhile (Digits.isDigitOf base)
  let n := Digits.number base digits
  if digits.isEmpty || limit ≤ n then none else some (n, s.dropWhile (Digits.isDigitOf base))

def octet? (s : List Char) : Option (Nat × List Char) :=
  match s with
  | '0' :: c :: _ => if Digits.isDecimal c then none else number? 10 256 s
  | _ => number? 10 256 s

def octets? (s : List Char) : Option (List Nat × List Char) := do
  let (a, s) ← octet? s
  let (b, s) ← octet? (← after? '.' s)
  let (c, s) ← octet? (← after? '.' s)
  let (d, s) ← octet? (← after? '.' s)
  return ([a, b, c, d], s)

def group? (s : List Char) : Option (Nat × List Char) :=
  if 4 < (s.takeWhile (Digits.isDigitOf 16)).length then none else number? 16 0x10000 s

/-- Two groups for four octets. -/
def paired : List Nat → List Nat
  | a :: b :: rest => (a * 256 + b) :: paired rest
  | short => short

/-- At most so many groups with colons between them; octets may stand for the last two. Also
whether they did. -/
def groups : Nat → Bool → List Char → List Nat × Bool × List Char
  | 0, _, s => ([], false, s)
  | n + 1, first, s =>
    match if first then some s else after? ':' s with
    | none => ([], false, s)
    | some inner =>
      match if n = 0 then none else octets? inner with
      | some (four, rest) => (paired four, true, rest)
      | none =>
        match group? inner with
        | none => ([], false, s)
        | some (g, rest) =>
          let (more, ended, rest) := groups n false rest
          (g :: more, ended, rest)

/-- Eight groups, or fewer around the `::` that stands for zeros. -/
def groups? (s : List Char) : Option (List Nat × List Char) :=
  let (front, ended, s) := groups 8 true s
  if front.length = 8 then some (front, s)
  else if ended then none
  else do
    let s ← after? ':' (← after? ':' s)
    let (back, _, s) := groups (7 - front.length) true s
    return (front ++ List.replicate (8 - front.length - back.length) 0 ++ back, s)

def socket? (s : List Char) : Option Nat := do
  let (socket, rest) ← number? 10 0x10000 (← after? ':' s)
  if rest.isEmpty then some socket else none

def scope? (s : List Char) : Option (Nat × List Char) :=
  match (after? '%' s).bind (number? 10 0x100000000) with
  | some r => some r
  | none => some (0, s)

end Network

namespace IpAddress

/-- The first of the longest runs of zeros: where it starts and how long it is. -/
def zeroRun (groups : List Nat) : Nat × Nat :=
  (List.range groups.length).foldl (fun best i =>
    let length := ((groups.drop i).takeWhile (· == 0)).length
    if best.2 < length then (i, length) else best) (0, 0)

def dotted (octets : List Nat) : String := ".".intercalate (octets.map toString)

def coloned (groups : List Nat) : String := ":".intercalate (groups.map Digits.hexadecimal)

/-- The shortest form: the longest run of several zeros is left out, and an address that holds one
of four octets shows these. -/
def render : IpAddress → String
  | .v4 octets => dotted octets
  | .v6 [0, 0, 0, 0, 0, 0xFFFF, a, b] =>
    "::ffff:" ++ dotted [a / 256, a % 256, b / 256, b % 256]
  | .v6 groups =>
    let (start, length) := zeroRun groups
    if length ≤ 1 then coloned groups
    else coloned (groups.take start) ++ "::" ++ coloned (groups.drop (start + length))

end IpAddress

namespace SocketAddress

def parseV4? (s : List Char) : Option SocketAddress := do
  let (octets, s) ← Network.octets? s
  return { ip := .v4 octets, socket := ← Network.socket? s }

def parseV6? (s : List Char) : Option SocketAddress := do
  let (groups, s) ← Network.groups? (← Network.after? '[' s)
  let (scope, s) ← Network.scope? s
  return { ip := .v6 groups, scope, socket := ← Network.socket? (← Network.after? ']' s) }

def parse? (text : String) : Option SocketAddress :=
  (parseV4? text.toList).or (parseV6? text.toList)

def render (a : SocketAddress) : String :=
  match a.ip with
  | .v4 _ => a.ip.render ++ ":" ++ toString a.socket
  | .v6 _ =>
    let zone := if a.scope = 0 then "" else "%" ++ toString a.scope
    "[" ++ a.ip.render ++ zone ++ "]:" ++ toString a.socket

end SocketAddress
end RecordingDelivery
