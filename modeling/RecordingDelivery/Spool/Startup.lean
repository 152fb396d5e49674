import RecordingDelivery.Delivery.Attempt
import RecordingDelivery.Registry.Basic
import RecordingDelivery.Spool.Scan

/-!
What an earlier run left undelivered: the directories of all scan targets are searched in order, so
that a file in the reach of several goes to the first.
-/
namespace RecordingDelivery.Site

def scan (s : Site) (d : Destination) (dir : Path) : Nat × Site :=
  let (count, outbox) := s.outbox.scan s.tree d dir s.wall s.now
  (count, { s with outbox })

def scanTargets (s : Site) : List Destination → Nat × Site
  | [] => (0, s)
  | d :: rest =>
    let (found, s) := s.scan d d.baseDirectory
    let (more, s) := s.scanTargets rest
    (found + more, s)

def scanRegistry (s : Site) (r : Registry) : Nat × Site := s.scanTargets r.scanTargets

end RecordingDelivery.Site
