import RecordingDelivery.Document.Decode
import RecordingDelivery.Document.Json.Writer
import RecordingDelivery.Time.Clock

/-!
Where the recordings of one output are delivered, how often an attempt is repeated, and which
files of its directory are picked up. A destination without an endpoint is disabled.
-/
namespace RecordingDelivery

structure Destination where
  endpoint : String := ""
  deleteAfter : Bool := false
  retryInterval : Nat := Duration.ofSeconds 60
  rejectionInterval : Option Nat := none
  recurse : Bool := false
  suffix : String := ""
  baseDirectory : Path := ⟨[]⟩
  scanAtStart : Bool := true
  deriving DecidableEq, Repr, Inhabited

namespace Destination

def ofEndpoint (endpoint : String) : Destination := { endpoint := endpoint }

def isEnabled (d : Destination) : Bool := ! d.endpoint.isEmpty

def wantsScan (d : Destination) : Bool := d.isEnabled && d.scanAtStart

def readSeconds (v : Value) : Except DecodeError Nat :=
  (Decode.natural64 v).map Duration.ofSeconds

def schema : Schema Destination :=
  [⟨"endpoint_url", fun d v => do return { d with endpoint := ← Decode.text v }⟩,
   ⟨"delete_on_success", fun d v => do return { d with deleteAfter := ← Decode.boolean v }⟩,
   ⟨"retry_interval_secs", fun d v => do return { d with retryInterval := ← readSeconds v }⟩,
   ⟨"rejection_retry_interval_secs", fun d v => do
     return { d with rejectionInterval := ← Decode.optional readSeconds v }⟩,
   ⟨"recurse_dated_subdirectories", fun d v => do return { d with recurse := ← Decode.boolean v }⟩,
   ⟨"path_suffix_filter", fun d v => do return { d with suffix := ← Decode.text v }⟩,
   ⟨"base_directory", fun d v => do return { d with baseDirectory := ← Decode.path v }⟩,
   ⟨"scan_on_startup", fun d v => do return { d with scanAtStart := ← Decode.boolean v }⟩]

def decode (surplus : Surplus) : Decoder Destination :=
  schema.decode "DeliveryConfig" surplus {}

/-- The document form; intervals lose what they have beyond whole seconds, and a base directory
that is not text has none. -/
def toValue? (d : Destination) : Option Value := do
  let directory ← Utf8.decode? d.baseDirectory.bytes
  return .table
    [("endpoint_url", .text d.endpoint),
     ("delete_on_success", .bool d.deleteAfter),
     ("retry_interval_secs", .int (Duration.seconds d.retryInterval)),
     ("rejection_retry_interval_secs",
       match d.rejectionInterval with
       | some i => .int (Duration.seconds i)
       | none => .null),
     ("recurse_dated_subdirectories", .bool d.recurse),
     ("path_suffix_filter", .text d.suffix),
     ("base_directory", .text directory),
     ("scan_on_startup", .bool d.scanAtStart)]

end Destination
end RecordingDelivery
