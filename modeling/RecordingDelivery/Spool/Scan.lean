import RecordingDelivery.Files.Calls
import RecordingDelivery.Outbox.Basic
import RecordingDelivery.Spool.Pending

/-!
The search for recordings that were left undelivered: depth first, names in the order of their
bytes, hidden names and links passed over. A directory that cannot be read has none.
-/
namespace RecordingDelivery

def isHidden (name : Bytes) : Bool := name.head? = some Path.dot

namespace Tree

/-- The waiting recordings of a directory, to a depth that bounds the search. -/
def recordingsWithin (t : Tree) (d : Destination) : Nat → Path → List Path
  | 0, _ => []
  | depth + 1, dir =>
    match t.listDirectory dir with
    | .error _ => []
    | .ok entries => entries.flatMap fun (name, e) =>
      if isHidden name then []
      else
        let p := dir.join name
        match e with
        | .directory => if d.recurse then recordingsWithin t d depth p else []
        | .file _ => if d.isPending p then [p] else []
        | .link _ | .pipe => []

/-- The recordings in a directory that wait for delivery to a destination. No directory of the tree
lies deeper than the search goes. -/
def recordings (t : Tree) (d : Destination) (dir : Path) : List Path :=
  t.recordingsWithin d (t.depth + 1) dir

end Tree

namespace Outbox

def enqueueAll (d : Destination) (wall : Timestamp) (now : Nat) :
    Outbox → List Path → Nat × Outbox
  | o, [] => (0, o)
  | o, p :: rest =>
    let (taken, o) := o.enqueue p d wall now
    let (count, o) := enqueueAll d wall now o rest
    (count + taken.toNat, o)

def scan (o : Outbox) (t : Tree) (d : Destination) (dir : Path) (wall : Timestamp) (now : Nat) :
    Nat × Outbox :=
  enqueueAll d wall now o (t.recordings d dir)

end Outbox
end RecordingDelivery
