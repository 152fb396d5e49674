import RecordingDelivery.Document.Json.Writer
import RecordingDelivery.Outbox.Basic
import RecordingDelivery.Status.Report

/-!
The status server: a health page and the report on the outbox, both for reading only.
-/
namespace RecordingDelivery.Status

structure Reply where
  status : Nat
  contentType : Option String := none
  allow : Option String := none
  body : String := ""
  deriving DecidableEq, Repr

/-- The text of a URI behind its scheme and authority, if it has these. -/
def afterAuthority (uri : List Char) : List Char :=
  if uri.head? = some '/' then uri
  else match uri.dropWhile (· != ':') with
    | ':' :: '/' :: '/' :: rest =>
      match rest.dropWhile fun c => c != '/' && c != '?' && c != '#' with
      | '/' :: path => '/' :: path
      | other => '/' :: other
    | _ => uri

/-- The path of a URI, taken literally. -/
def pathOf (uri : String) : String :=
  String.ofList ((afterAuthority uri.toList).takeWhile fun c => c != '?' && c != '#')

/-- A page as it answers reading methods; the other methods are refused. -/
def page (method contentType body : String) : Reply :=
  if method = "GET" then { status := 200, contentType := some contentType, body }
  else if method = "HEAD" then { status := 200, contentType := some contentType }
  else { status := 405, allow := some "GET,HEAD" }

def reply (o : Outbox) (now : Nat) (method uri : String) : Reply :=
  match pathOf uri with
  | "/health" => page method "text/plain; charset=utf-8" "OK"
  | "/status" => page method "application/json" (Report.ofTasks now o.tasks).render
  | _ => { status := 404 }

end RecordingDelivery.Status
