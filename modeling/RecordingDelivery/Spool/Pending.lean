import RecordingDelivery.Delivery.Destination
import RecordingDelivery.Spool.Marker

/-!
Which paths of a directory are recordings that still wait for delivery.
-/
namespace RecordingDelivery

/-- The path names a file, does not bear the mark, and ends in the suffix that is asked for. -/
def Destination.isPending (d : Destination) (p : Path) : Bool :=
  match p.fileName with
  | none => false
  | some name =>
    ! Marker.isUploadedName name && (d.suffix.isEmpty || p.bytes.endsWith (Bytes.ofText d.suffix))

end RecordingDelivery
