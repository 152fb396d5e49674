import RecordingDelivery.Delivery.Destination

/-!
The registry: receiving devices with their channels, mixers that combine channels into one of their
own, and the outputs of every channel. Only file outputs have recordings to deliver.
-/
namespace RecordingDelivery

inductive Output
  | file (destination : Destination)
  | other
  deriving DecidableEq, Repr

structure Channel where
  label : String := ""
  outputs : List Output := []
  deriving DecidableEq, Repr

structure Device where
  name : String := ""
  channels : List Channel := []
  deriving DecidableEq, Repr

structure Mixer where
  name : String := ""
  enabled : Bool := true
  channel : Channel := {}
  deriving DecidableEq, Repr

structure Registry where
  devices : List Device := []
  mixers : List Mixer := []
  deriving DecidableEq, Repr

def Output.destination? : Output → Option Destination
  | .file d => some d
  | .other => none

namespace Registry

/-- The channels of all devices, then those of the mixers that are enabled. -/
def activeChannels (r : Registry) : List Channel :=
  r.devices.flatMap (·.channels) ++ (r.mixers.filter (·.enabled)).map (·.channel)

def destinations (r : Registry) : List Destination :=
  r.activeChannels.flatMap fun c => c.outputs.filterMap Output.destination?

/-- The destinations whose directories are searched when the program starts. -/
def scanTargets (r : Registry) : List Destination := r.destinations.filter (·.wantsScan)

end Registry
end RecordingDelivery
