import RecordingDelivery.Document.Value
import RecordingDelivery.Files.Path
import RecordingDelivery.Text.Quoted

/-!
Reading domain values out of documents. A structure is a table of named fields or a list of the
same fields in order; fields that are absent keep what the start value has, unknown ones are
passed over, and the first field that cannot be read gives the error.
-/
namespace RecordingDelivery

inductive Wanted
  | boolean | text | path | natural | sequence | variant
  | record (name : String)
  | tagged (name : String)
  deriving DecidableEq, Repr

def Wanted.description : Wanted → String
  | .boolean => "a boolean"
  | .text => "a string"
  | .path => "path string"
  | .natural => "u64"
  | .sequence => "a sequence"
  | .variant => "variant identifier"
  | .record name => "struct " ++ name
  | .tagged name => "internally tagged enum " ++ name

/-- How a list that is longer than the structure is refused. -/
inductive Limit
  | fewer | exactly (n : Nat)
  deriving DecidableEq, Repr

def Limit.description : Limit → String
  | .fewer => "fewer elements in array"
  | .exactly 1 => "1 element in sequence"
  | .exactly n => toString n ++ " elements in sequence"

/-- What a reader found: simple values as they are, of the others the kind. -/
inductive Found
  | null
  | boolean (b : Bool)
  | integer (i : Int)
  | float (x : Binary64)
  | text (s : String)
  | sequence | map
  deriving DecidableEq, Repr

def Found.ofValue : Value → Found
  | .null => .null
  | .bool b => .boolean b
  | .int i => .integer i
  | .float x => .float x
  | .text s => .text s
  | .list _ => .sequence
  | .table _ => .map

def Found.description (n : Binary64.Notation) : Found → String
  | .null => "null"
  | .boolean b => "boolean `" ++ toString b ++ "`"
  | .integer i => "integer `" ++ toString i ++ "`"
  | .float x => "floating point `" ++ n.write x ++ "`"
  | .text s => "string " ++ Quoted.render s
  | .sequence => "sequence"
  | .map => "map"

inductive DecodeError
  | wrongType (found : Found) (wanted : Wanted)
  | wrongNumber (found : Int) (wanted : Wanted)
  | missing (field : String)
  | tooLong (length : Nat) (limit : Limit)
  deriving DecidableEq, Repr

/-- The text of an error, with floating point numbers in the given notation. -/
def DecodeError.message (n : Binary64.Notation) : DecodeError → String
  | .wrongType found wanted =>
    "invalid type: " ++ found.description n ++ ", expected " ++ wanted.description
  | .wrongNumber found wanted =>
    "invalid value: integer `" ++ toString found ++ "`, expected " ++ wanted.description
  | .missing field => "missing field `" ++ field ++ "`"
  | .tooLong length limit =>
    "invalid length " ++ toString length ++ ", expected " ++ limit.description

abbrev Decoder (α : Type) := Value → Except DecodeError α

namespace Decode

def reject {α : Type} (v : Value) (wanted : Wanted) : Except DecodeError α :=
  .error (.wrongType (.ofValue v) wanted)

def boolean : Decoder Bool
  | .bool b => .ok b
  | v => reject v .boolean

def text : Decoder String
  | .text s => .ok s
  | v => reject v .text

def path : Decoder Path
  | .text s => .ok (.ofText s)
  | v => reject v .path

def limit32 : Nat := 0x100000000

def limit64 : Nat := 0x10000000000000000

/-- Numbers of 64 bits with a sign are below this, and not below its negative. -/
def signedLimit : Nat := 0x8000000000000000

def natural (bound : Nat) : Decoder Nat
  | .int i =>
    if 0 ≤ i ∧ i.toNat < bound then .ok i.toNat else .error (.wrongNumber i .natural)
  | v => reject v .natural

def natural64 : Decoder Nat := natural limit64

def optional {α : Type} (d : Decoder α) : Decoder (Option α)
  | .null => .ok none
  | v => (d v).map some

def list {α : Type} (d : Decoder α) : Decoder (List α)
  | .list items => items.mapM d
  | v => reject v .sequence

end Decode

/-- One named part of a structure: how its value changes what has been read so far. -/
structure Field (α : Type) where
  name : String
  read : α → Value → Except DecodeError α

inductive Surplus
  | ignored | refused | counted
  deriving DecidableEq, Repr

abbrev Schema (α : Type) := List (Field α)

namespace Schema

variable {α : Type}

def readField (s : Schema α) (acc : α) (f : String × Value) : Except DecodeError α :=
  match s.find? (·.name = f.1) with
  | some field => field.read acc f.2
  | none => .ok acc

def ofFields (s : Schema α) (start : α) (fields : List (String × Value)) : Except DecodeError α :=
  fields.foldlM s.readField start

/-- Values in the order of the fields; values behind the last field are passed over. -/
def ofItems : Schema α → α → List Value → Except DecodeError α
  | field :: more, acc, v :: rest => do ofItems more (← field.read acc v) rest
  | [], acc, _ => .ok acc
  | _ :: _, acc, [] => .ok acc

/-- The list form, where a list that is too long may be an error. -/
def ofList (s : Schema α) (surplus : Surplus) (start : α) (items : List Value) :
    Except DecodeError α := do
  let a ← s.ofItems start items
  if items.length ≤ s.length then .ok a
  else match surplus with
    | .ignored => .ok a
    | .refused => .error (.tooLong items.length .fewer)
    | .counted => .error (.tooLong items.length (.exactly s.length))

def decode (s : Schema α) (name : String) (surplus : Surplus) (start : α) : Decoder α
  | .table fields => s.ofFields start fields
  | .list items => s.ofList surplus start items
  | v => Decode.reject v (.record name)

end Schema

namespace Decode

/-- The values of a structure all of whose fields are required: by name from a table, where
further fields are passed over, or a list of just these values. -/
def required (name : String) (fields : List String) : Value → Except DecodeError (List Value)
  | .table entries =>
    fields.mapM fun f => match entries.lookup f with
      | some v => .ok v
      | none => .error (.missing f)
  | .list items =>
    if items.length = fields.length then .ok items else .error (.tooLong items.length .fewer)
  | v => reject v (.record name)

end Decode
end RecordingDelivery
