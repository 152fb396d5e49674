import RecordingDelivery.Text.Utf8

/-!
Forms that carry files: parts with a name and perhaps a file name, each behind a line with the
boundary.
-/
namespace RecordingDelivery.Http

structure Part where
  name : String
  fileName : Option String := none
  contents : Bytes
  deriving DecidableEq, Repr

abbrev Form := List Part

/-- A backslash stands before what would end the quotes or the line. -/
def quoteEscape (c : Char) : List Char :=
  if c = '\\' || c = '"' || c = '\r' || c = '\n' then ['\\', c] else [c]

def quoted (s : String) : String := "\"" ++ String.ofList (s.toList.flatMap quoteEscape) ++ "\""

namespace Part

def disposition (p : Part) : String :=
  "Content-Disposition: form-data; name=" ++ quoted p.name ++
    match p.fileName with
    | some f => "; filename=" ++ quoted f
    | none => ""

def render (boundary : String) (p : Part) : Bytes :=
  Bytes.ofText ("--" ++ boundary ++ "\r\n" ++ p.disposition ++ "\r\n\r\n") ++ p.contents ++
    Bytes.ofText "\r\n"

end Part

namespace Form

def render (boundary : String) (f : Form) : Bytes :=
  f.flatMap (·.render boundary) ++ Bytes.ofText ("--" ++ boundary ++ "--\r\n")

def contentType (boundary : String) : String := "multipart/form-data; boundary=" ++ boundary

end Form
end RecordingDelivery.Http
