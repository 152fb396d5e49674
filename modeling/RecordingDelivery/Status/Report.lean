import RecordingDelivery.Delivery.Task

/-!
What is pending, as the status page tells it: the tasks in the order in which they fall due, each
with the whole seconds until then.
-/
namespace RecordingDelivery.Status

structure Entry where
  path : String
  endpoint : String
  attempt : Nat
  enqueuedAt : Timestamp
  eligibleIn : Nat
  deriving DecidableEq, Repr

structure Report where
  pending : Nat
  entries : List Entry
  deriving DecidableEq, Repr

def Entry.ofTask (now : Nat) (t : Task) : Entry :=
  ⟨t.path.display, t.destination.endpoint, t.attempt, t.enqueuedAt, Duration.seconds (t.due - now)⟩

def Report.ofTasks (now : Nat) (tasks : List Task) : Report :=
  ⟨tasks.length, tasks.map (Entry.ofTask now)⟩

def Entry.toValue (e : Entry) : Value :=
  .table
    [("path", .text e.path), ("endpoint_url", .text e.endpoint), ("attempt", .int e.attempt),
     ("enqueued_at", .text e.enqueuedAt.render), ("eligible_in_secs", .int e.eligibleIn)]

def Report.toValue (r : Report) : Value :=
  .table [("pending", .int r.pending), ("tasks", .list (r.entries.map Entry.toValue))]

def Report.render (r : Report) : String := Json.render r.toValue

def readTimestamp (v : Value) : Except DecodeError Timestamp := do
  let s ← Decode.text v
  match Timestamp.parse? s with
  | some t => .ok t
  | none => Decode.reject v .text

def Entry.decode (v : Value) : Except DecodeError Entry := do
  let names := ["path", "endpoint_url", "attempt", "enqueued_at", "eligible_in_secs"]
  match ← Decode.required "PendingUpload" names v with
  | [path, endpoint, attempt, enqueuedAt, eligibleIn] =>
    return ⟨← Decode.text path, ← Decode.text endpoint, ← Decode.natural Decode.limit32 attempt,
      ← readTimestamp enqueuedAt, ← Decode.natural64 eligibleIn⟩
  | _ => Decode.reject v (.record "PendingUpload")

def Report.decode (v : Value) : Except DecodeError Report := do
  match ← Decode.required "StatusReport" ["pending", "tasks"] v with
  | [pending, tasks] =>
    return ⟨← Decode.natural64 pending, ← Decode.list Entry.decode tasks⟩
  | _ => Decode.reject v (.record "StatusReport")

end RecordingDelivery.Status
