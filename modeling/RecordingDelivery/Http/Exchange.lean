import RecordingDelivery.Http.Form
import RecordingDelivery.Http.Url

/-!
Requests and what comes back. An exchange follows the redirects that it is given, up to a limit;
the record of all requests and answers is kept beside the result.
-/
namespace RecordingDelivery.Http

inductive Method
  | get | post
  deriving DecidableEq, Repr

structure Request where
  method : Method
  url : Url
  userAgent : String
  form : Option Form := none
  deriving DecidableEq, Repr

/-- An answer with its status, a connection that brought none that can be read, or no connection,
so that nothing was sent. -/
inductive Answer
  | reply (status : Nat) (location : Option Bytes)
  | broken
  | unreachable
  deriving DecidableEq, Repr

structure Exchange where
  request : Request
  answer : Answer
  deriving DecidableEq, Repr

/-- What happened so far, the last first. -/
abbrev Record := List Exchange

/-- The servers: how each request is answered after what happened before. -/
abbrev Network := Record → Request → Answer

namespace Network

def closed : Network := fun _ _ => .unreachable

/-- The answers in their order, and success for all requests after them. -/
def scripted (answers : List Answer) : Network :=
  fun past _ => answers.getD past.length (.reply 200 none)

end Network

def Record.sent (r : Record) : List Request :=
  (r.reverse.filter (·.answer ≠ .unreachable)).map (·.request)

inductive Redirect
  | stays
  | leads (next : Request)
  | lost
  deriving DecidableEq, Repr

namespace Request

def withoutForm (r : Request) (u : Url) : Request :=
  { r with method := .get, url := u, form := none }

@[simp] theorem withoutForm_form (r : Request) (u : Url) : (r.withoutForm u).form = none := rfl

@[simp] theorem withoutForm_method (r : Request) (u : Url) : (r.withoutForm u).method = .get := rfl

/-- Whether a redirect of this status can be followed: those that ask for the same request again
cannot, where it carried a form, for its file has been read. -/
def follows (r : Request) (status : Nat) : Bool :=
  [301, 302, 303].contains status || ([307, 308].contains status && r.form.isNone)

def redirect (r : Request) (status : Nat) (location : Option Bytes) : Redirect :=
  if r.follows status then
    match location.bind Utf8.decode? |>.bind (Url.read? (some r.url)) with
    | some (.page u) => .leads (r.withoutForm u)
    | some .foreign => .lost
    | none => .stays
  else .stays

theorem form_of_redirect {r next : Request} {status : Nat} {location : Option Bytes}
    (h : r.redirect status location = .leads next) : next.form = none ∧ next.method = .get := by
  unfold redirect at h
  split at h
  · split at h
    · cases h
      exact ⟨rfl, rfl⟩
    · cases h
    · cases h
  · cases h

end Request

def redirectLimit : Nat := 10

def isSuccess (status : Nat) : Bool := 200 ≤ status && status < 300

/-- The status with which an exchange ends, if it gets one, and the record of it. -/
def perform (n : Network) : Nat → Record → Request → Option Nat × Record
  | left, past, r =>
    let answer := n past r
    let past := ⟨r, answer⟩ :: past
    match answer with
    | .broken | .unreachable => (none, past)
    | .reply status location =>
      match r.redirect status location with
      | .stays => (some status, past)
      | .lost => (none, past)
      | .leads next =>
        match left with
        | 0 => (none, past)
        | left + 1 => perform n left past next

@[simp] theorem perform_closed (left : Nat) (past : Record) (r : Request) :
    perform .closed left past r = (none, ⟨r, .unreachable⟩ :: past) := by
  cases left <;> simp [perform, Network.closed]

end RecordingDelivery.Http
