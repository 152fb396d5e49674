import RecordingDelivery.Document.Value
import RecordingDelivery.Text.Digits

/-!
JSON text of a value, without blanks. Control characters are escaped, the five that have a short
escape by it; everything else stands for itself.
-/
namespace RecordingDelivery.Json

def escape (c : Char) : List Char :=
  match c with
  | '"' => ['\\', '"']
  | '\\' => ['\\', '\\']
  | '\n' => ['\\', 'n']
  | '\r' => ['\\', 'r']
  | '\t' => ['\\', 't']
  | '\x08' => ['\\', 'b']
  | '\x0c' => ['\\', 'f']
  | c =>
    if c.toNat < 0x20 then
      ['\\', 'u', '0', '0', Digits.hexDigit (c.toNat / 16), Digits.hexDigit (c.toNat % 16)]
    else [c]

def quoted (s : String) : List Char := '"' :: s.toList.flatMap escape ++ ['"']

mutual

def chars : Value → List Char
  | .null => "null".toList
  | .bool true => "true".toList
  | .bool false => "false".toList
  | .int i => (toString i).toList
  | .float x => if x.isNaN || x.isInfinite then "null".toList
    else (Binary64.Notation.compact.write x).toList
  | .text s => quoted s
  | .list items => '[' :: charsOfItems items ++ [']']
  | .table fields => '\x7b' :: charsOfFields fields ++ ['\x7d']

def charsOfItems : List Value → List Char
  | [] => []
  | [v] => chars v
  | v :: rest => chars v ++ ',' :: charsOfItems rest

def charsOfFields : List (String × Value) → List Char
  | [] => []
  | [(name, v)] => quoted name ++ ':' :: chars v
  | (name, v) :: rest => quoted name ++ ':' :: chars v ++ ',' :: charsOfFields rest

end

/-- The compact text of a value, fields in the order in which the table has them. -/
def render (v : Value) : String := String.ofList (chars v)

end RecordingDelivery.Json
