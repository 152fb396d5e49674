import RecordingDelivery.Text.Blank
import RecordingDelivery.Text.Digits
import RecordingDelivery.Text.Utf8
import RecordingDelivery.Time.Clock

/-!
Settings of the delivery client. The two timeouts can be set in the environment; a variable that
does not hold a count of seconds is as good as absent.
-/
namespace RecordingDelivery

structure Settings where
  requestTimeout : Nat := Duration.ofSeconds 300
  connectTimeout : Nat := Duration.ofSeconds 30
  userAgent : String := "upload-spool/0.1.0"
  deriving DecidableEq, Repr

abbrev Environment := List (String × Bytes)

namespace Settings

def seconds? (env : Environment) (name : String) : Option Nat := do
  let text ← Utf8.decode? (← env.lookup name)
  return Duration.ofSeconds (← Digits.count? (Blank.trim text.toList))

def ofEnvironment (env : Environment) : Settings :=
  let d : Settings := {}
  { d with
    requestTimeout := (seconds? env "UPLOAD_SPOOL_REQUEST_TIMEOUT_SECS").getD d.requestTimeout
    connectTimeout := (seconds? env "UPLOAD_SPOOL_CONNECT_TIMEOUT_SECS").getD d.connectTimeout }

end Settings
end RecordingDelivery
