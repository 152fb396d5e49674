import RecordingDelivery.Delivery.Attempt
import RecordingDelivery.Http.Exchange
import RecordingDelivery.Settings

/-!
The client that delivers files: one request with a form that holds the file, its status at the end
of all redirects the result.
-/
namespace RecordingDelivery.Http

structure Client where
  userAgent : String
  deriving DecidableEq, Repr

def isHeaderByte (b : UInt8) : Bool := (32 ≤ b && b != 127) || b = 9

namespace Client

/-- A client whose name cannot be sent in a header is none. -/
def ofSettings? (s : Settings) : Option Client :=
  if (Bytes.ofText s.userAgent).all isHeaderByte then some ⟨s.userAgent⟩ else none

def fieldName : String := "file"

/-- The form for a file, with the last component of its path as the file name. -/
def formFor (p : Path) (contents : Bytes) : Form :=
  [{ name := fieldName, fileName := p.fileName.map Utf8.lossy, contents }]

def upload (c : Client) (u : Url) (p : Path) (contents : Bytes) : Request :=
  { method := .post, url := u, userAgent := c.userAgent, form := some (formFor p contents) }

def resultOf : Option Nat → CallResult
  | none => .error .noAnswer
  | some status => if isSuccess status then .ok () else .error (.rejected status)

/-- Sends what was opened to an endpoint; a directory can be opened but not sent. -/
def send (c : Client) (n : Network) (endpoint : String) (p : Path) : Entry → CallResult × Record
  | .directory => (.error .noAnswer, [])
  | .file contents => post contents
  | .link _ | .pipe => post []
where
  post (contents : Bytes) : CallResult × Record :=
    match Url.read? none endpoint with
    | some (.page u) =>
      let (status, record) := perform n redirectLimit [] (c.upload u p contents)
      (resultOf status, record)
    | some .foreign | none => (.error .noAnswer, [])

/-- One delivery. The file is opened before anything is sent. -/
def deliver (c : Client) (n : Network) (tree : Tree) (t : Task) : CallResult × Record :=
  match tree.openFile t.path with
  | .error fault => (.error (.unreadable t.path fault), [])
  | .ok opened => c.send n t.destination.endpoint t.path opened

def call (c : Client) (n : Network) (t : Task) (s : Site) : CallResult × Site :=
  ((c.deliver n s.tree t).1, s)

@[simp] theorem resultOf_ok {status : Option Nat} :
    resultOf status = .ok () ↔ ∃ n, status = some n ∧ isSuccess n = true := by
  cases status with
  | none => simp [resultOf]
  | some n => by_cases h : isSuccess n <;> simp [resultOf, h]

end Client
end RecordingDelivery.Http
