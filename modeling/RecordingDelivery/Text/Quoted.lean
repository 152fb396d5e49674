import RecordingDelivery.Text.Visible
import RecordingDelivery.Text.Digits

/-!
A text in double quotes as messages show it: quote, backslash and the common control characters by
a backslash, what cannot be seen by its number.
-/
namespace RecordingDelivery.Quoted

def escape (c : Char) : List Char :=
  match c with
  | '\x00' => ['\\', '0']
  | '\t' => ['\\', 't']
  | '\r' => ['\\', 'r']
  | '\n' => ['\\', 'n']
  | '\\' => ['\\', '\\']
  | '"' => ['\\', '"']
  | c =>
    if Visible.isJoining c || ! Visible.isVisible c then
      "\\u\x7b".toList ++ (Digits.hexadecimal c.toNat).toList ++ ['\x7d']
    else [c]

def render (s : String) : String := String.ofList ('"' :: s.toList.flatMap escape ++ ['"'])

end RecordingDelivery.Quoted
