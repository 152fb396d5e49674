/-!
UTF-8 read one byte at a time into pieces: whole characters, and the longest ill-formed stretches
between them. Strict decoding accepts the byte strings without ill-formed pieces, lossy decoding
shows each of these as one replacement character.
-/
namespace RecordingDelivery

abbrev Bytes := List UInt8

namespace Utf8

inductive Piece
  | char (c : Char) | illFormed
  deriving DecidableEq, Repr

/-- A character that has begun: how many bytes it still needs, the range of the next one, and
the bits read so far. -/
structure Open where
  need : Nat
  low : UInt8
  high : UInt8
  bits : Nat
  deriving DecidableEq, Repr

/-- What the first byte of a longer character opens; no other byte may begin one. -/
def lead? (b : UInt8) : Option Open :=
  if 0xC2 ≤ b && b ≤ 0xDF then some ⟨1, 0x80, 0xBF, b.toNat - 0xC0⟩
  else if b == 0xE0 then some ⟨2, 0xA0, 0xBF, 0⟩
  else if b == 0xED then some ⟨2, 0x80, 0x9F, 0xD⟩
  else if 0xE1 ≤ b && b ≤ 0xEF then some ⟨2, 0x80, 0xBF, b.toNat - 0xE0⟩
  else if b == 0xF0 then some ⟨3, 0x90, 0xBF, 0⟩
  else if 0xF1 ≤ b && b ≤ 0xF3 then some ⟨3, 0x80, 0xBF, b.toNat - 0xF0⟩
  else if b == 0xF4 then some ⟨3, 0x80, 0x8F, 4⟩
  else none

def begin (b : UInt8) : List Piece × Option Open :=
  if b < 0x80 then ([.char (Char.ofNat b.toNat)], none)
  else match lead? b with
    | some o => ([], some o)
    | none => ([.illFormed], none)

/-- A byte that does not continue an open character ends it as ill-formed and is read afresh. -/
def step : Option Open → UInt8 → List Piece × Option Open
  | none, b => begin b
  | some o, b =>
    if o.low ≤ b && b ≤ o.high then
      let bits := o.bits * 64 + (b.toNat - 0x80)
      if o.need = 1 then ([.char (Char.ofNat bits)], none)
      else ([], some ⟨o.need - 1, 0x80, 0xBF, bits⟩)
    else
      let r := begin b
      (.illFormed :: r.1, r.2)

def piecesFrom : Option Open → Bytes → List Piece
  | none, [] => []
  | some _, [] => [.illFormed]
  | o, b :: rest => let r := step o b; r.1 ++ piecesFrom r.2 rest

def pieces (s : Bytes) : List Piece := piecesFrom none s

@[simp] theorem pieces_nil : pieces [] = [] := rfl

@[simp] theorem pieces_ascii (b : UInt8) (s : Bytes) (h : b < 0x80) :
    pieces (b :: s) = .char (Char.ofNat b.toNat) :: pieces s := by
  simp [pieces, piecesFrom, step, begin, h]

def Piece.char? : Piece → Option Char
  | .char c => some c
  | .illFormed => none

def Piece.shown : Piece → Char
  | .char c => c
  | .illFormed => '\ufffd'

def decodeChars? (s : Bytes) : Option (List Char) := (pieces s).mapM Piece.char?

def decode? (s : Bytes) : Option String := (decodeChars? s).map String.ofList

def isWellFormed (s : Bytes) : Bool := (pieces s).all (· != .illFormed)

/-- The text with one U+FFFD for each ill-formed piece. -/
def lossy (s : Bytes) : String := String.ofList ((pieces s).map Piece.shown)

def encode (s : String) : Bytes := s.toList.flatMap String.utf8EncodeChar

@[simp] theorem encode_empty : encode "" = [] := rfl

end Utf8

namespace Bytes

def ofText (s : String) : Bytes := Utf8.encode s

def endsWith (s tail : Bytes) : Bool := tail.isSuffixOf s

def startsWith (s front : Bytes) : Bool := front.isPrefixOf s

def le : Bytes → Bytes → Bool
  | [], _ => true
  | _ :: _, [] => false
  | a :: s, b :: t => a < b || (a == b && le s t)

@[simp] theorem le_refl (s : Bytes) : le s s = true := by
  induction s with
  | nil => rfl
  | cons a s ih => simp [le, ih]

end Bytes
end RecordingDelivery
