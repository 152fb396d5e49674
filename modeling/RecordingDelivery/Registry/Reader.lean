import RecordingDelivery.Document.Toml.Reader
import RecordingDelivery.Files.Calls
import RecordingDelivery.Registry.Basic

/-!
Reading the registry from its document. The kind of an output decides how the rest of it is read: a
file output is a destination, any other kind is passed over.
-/
namespace RecordingDelivery

namespace Output

def kindField : String := "type"

/-- The kind of an output; a number above the signed range is an index and names no file output. -/
def isFile (v : Value) : Except DecodeError Bool :=
  match v with
  | .text s => .ok (s = "file")
  | .int i => if Decode.signedLimit ≤ i ∧ i < Decode.limit64 then .ok false else Decode.reject v .variant
  | v => Decode.reject v .variant

def isStorable (v : Value) : Bool := v.integersWithin (-Decode.signedLimit) Decode.limit64

def unstorable : DecodeError := .wrongNumber Decode.limit64 .natural

def decode : Decoder Output
  | .table fields =>
    match fields.lookup kindField with
    | none => .error (.missing kindField)
    | some kind => do
      let file ← isFile kind
      let rest := fields.filter (·.1 != kindField)
      if ! isStorable (.table rest) then .error unstorable
      else if file then (Destination.decode .counted (.table rest)).map .file
      else .ok .other
  | .list [] => .error (.missing kindField)
  | .list (kind :: rest) => do
    let file ← isFile kind
    if ! isStorable (.list rest) then .error unstorable
    else if file then (Destination.decode .counted (.list rest)).map .file
    else if rest.isEmpty then .ok .other
    else .error (.tooLong rest.length (.exactly 0))
  | v => Decode.reject v (.tagged "OutputSink")

end Output

def Channel.schema : Schema Channel :=
  [⟨"label", fun c v => do return { c with label := ← Decode.text v }⟩,
   ⟨"outputs", fun c v => do return { c with outputs := ← Decode.list Output.decode v }⟩]

def Channel.decode : Decoder Channel := schema.decode "Channel" .ignored {}

def Device.schema : Schema Device :=
  [⟨"name", fun d v => do return { d with name := ← Decode.text v }⟩,
   ⟨"channels", fun d v => do return { d with channels := ← Decode.list Channel.decode v }⟩]

def Device.decode : Decoder Device := schema.decode "Device" .ignored {}

def Mixer.schema : Schema Mixer :=
  [⟨"name", fun m v => do return { m with name := ← Decode.text v }⟩,
   ⟨"enabled", fun m v => do return { m with enabled := ← Decode.boolean v }⟩,
   ⟨"channel", fun m v => do return { m with channel := ← Channel.decode v }⟩]

def Mixer.decode : Decoder Mixer := schema.decode "Mixer" .ignored {}

inductive RegistryError
  | unreadable (path : Path) (fault : Fault)
  | noDocument
  | wrongShape (e : DecodeError)
  deriving DecidableEq, Repr

/-- Of what is wrong with a document only the fact is told. -/
def RegistryError.message : RegistryError → String
  | .unreadable path fault => "failed to read " ++ path.display ++ ": " ++ fault.message
  | .noDocument | .wrongShape _ => "invalid configuration"

namespace Registry

def schema : Schema Registry :=
  [⟨"devices", fun r v => do return { r with devices := ← Decode.list Device.decode v }⟩,
   ⟨"mixers", fun r v => do return { r with mixers := ← Decode.list Mixer.decode v }⟩]

def decode : Decoder Registry := schema.decode "Registry" .ignored {}

def isNarrow (v : Value) : Bool := v.integersWithin (-Decode.signedLimit) Decode.signedLimit

/-- The registry of a document. A number beyond the signed range is accepted only where it can be
read; otherwise the text counts as no document. -/
def ofText (text : String) : Except RegistryError Registry :=
  match Toml.parse? text with
  | none => .error .noDocument
  | some v =>
    match decode v with
    | .ok r => .ok r
    | .error e => .error (if isNarrow v then .wrongShape e else .noDocument)

def load (t : Tree) (p : Path) : Except RegistryError Registry :=
  match t.read p with
  | .error fault => .error (.unreadable p fault)
  | .ok contents =>
    match Utf8.decode? contents with
    | none => .error (.unreadable p .notText)
    | some text => ofText text

end Registry
end RecordingDelivery
