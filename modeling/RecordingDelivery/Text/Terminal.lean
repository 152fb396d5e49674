import RecordingDelivery.Text.Utf8

/-!
Text for a terminal. Where no terminal shows it, only what can be seen is kept: control sequences go,
from the escape character to their end, and of the control characters all but the blank ones.
-/
namespace RecordingDelivery.Terminal

def bold (s : String) : String := "\x1b[1m" ++ s ++ "\x1b[0m"

def heading (s : String) : String := "\x1b[1m\x1b[4m" ++ s ++ "\x1b[0m"

inductive Context
  | ground
  /-- Within a character of several bytes, of which so many are still to come. -/
  | character (left : Nat)
  | escape
  | escapeTail
  /-- A control sequence, up to its final letter. -/
  | control
  /-- A device string, up to the letter that ends its head. -/
  | deviceStart | deviceNumbers | deviceTail
  | deviceBody
  | deviceIgnored
  /-- A command to the operating system. -/
  | command
  /-- A string for some other purpose. -/
  | other
  deriving DecidableEq, Repr

def isControl (b : UInt8) : Bool := b < 0x20

def isBlank (b : UInt8) : Bool := b = 0x09 || b = 0x0A || b = 0x0C || b = 0x0D || b = 0x20

def following (b : UInt8) : Nat := if b < 0xE0 then 1 else if b < 0xF0 then 2 else 3

def isLead (b : UInt8) : Bool := 0xC2 ≤ b && b ≤ 0xF4

def afterEscape (b : UInt8) : Context :=
  if b < 0x20 || 0x7F ≤ b then .escape
  else if b < 0x30 then .escapeTail
  else if b = 0x5B then .control
  else if b = 0x5D then .command
  else if b = 0x50 then .deviceStart
  else if b = 0x58 || b = 0x5E || b = 0x5F then .other
  else .ground

/-- The head of a device string: numbers, then blanks and the like, then a letter. -/
def inDevice (c : Context) (b : UInt8) : Context :=
  if b < 0x20 || 0x7F ≤ b then c
  else if 0x40 ≤ b then .deviceBody
  else if b < 0x30 then .deviceTail
  else if c = .deviceTail || (c = .deviceNumbers && 0x3C ≤ b) then .deviceIgnored
  else .deviceNumbers

/-- The context after a byte. Three bytes end every sequence, one of them to begin another. -/
def next (c : Context) (b : UInt8) : Context :=
  if b = 0x18 || b = 0x1A then .ground
  else if b = 0x1B then .escape
  else match c with
    | .ground => if isLead b then .character (following b) else .ground
    | .character n => if n ≤ 1 then .ground else .character (n - 1)
    | .escape => afterEscape b
    | .escapeTail => if 0x30 ≤ b && b < 0x7F then .ground else .escapeTail
    | .control => if 0x40 ≤ b && b < 0x7F then .ground else .control
    | .deviceStart | .deviceNumbers | .deviceTail => inDevice c b
    | .deviceBody => if b = 0x9C then .ground else .deviceBody
    | .deviceIgnored => .deviceIgnored
    | .command => if b = 0x07 then .ground else .command
    | .other => if b = 0x9C then .ground else .other

/-- Whether a byte can be seen in its context. Blank control characters can be seen also within the
sequences that a letter ends. -/
def isShown (c : Context) (b : UInt8) : Bool :=
  match c with
  | .ground => (0x20 ≤ b && b < 0x7F) || isLead b || isBlank b
  | .character _ => true
  | .escape | .escapeTail | .control => isControl b && isBlank b
  | .deviceStart | .deviceNumbers | .deviceTail | .deviceBody | .deviceIgnored | .command
  | .other => false

/-- Leaves bytes out up to one that can be seen, then takes bytes as if they stood in no sequence up to
one that cannot; a sequence in which a blank stood goes on behind them. -/
def keep (showing : Bool) (c : Context) : Bytes → Bytes
  | [] => []
  | b :: rest =>
    match c, showing with
    | .character _, _ => b :: keep true (next c b) rest
    | _, true =>
      if isLead b then b :: keep true (next .ground b) rest
      else if isShown .ground b then b :: keep true c rest
      else if b = 0x1B then keep false .escape rest
      else if b = 0x18 || b = 0x1A then keep false .ground rest
      else keep false (next c b) rest
    | _, false =>
      if isShown c b then
        let c := next c b
        b :: keep true c rest
      else keep false (next c b) rest

def plain (s : String) : String := Utf8.lossy (keep false .ground (Bytes.ofText s))

end RecordingDelivery.Terminal
