import RecordingDelivery.CommandLine.Pattern
import RecordingDelivery.Settings

/-!
Which events are logged. A filter is a list of directives; of those that speak of an event the most
specific decides, and an event of which none speaks is dropped.
-/
namespace RecordingDelivery.CommandLine

inductive Level
  | off | error | warn | info | debug | trace
  deriving DecidableEq, Repr

namespace Level

def rank : Level → Nat
  | .off => 0
  | .error => 1
  | .warn => 2
  | .info => 3
  | .debug => 4
  | .trace => 5

def name : Level → String
  | .off => "OFF"
  | .error => "ERROR"
  | .warn => "WARN"
  | .info => "INFO"
  | .debug => "DEBUG"
  | .trace => "TRACE"

def all : List Level := [.off, .error, .warn, .info, .debug, .trace]

/-- A level by its number, or by its name in letters of either case. -/
def read? (s : List Char) : Option Level :=
  match (Digits.count? s).bind (all[·]?) with
  | some l => some l
  | none => all.find? (·.name.toList = s.map Char.toUpper)

end Level

structure Event where
  level : Level
  message : String
  fields : List (String × String) := []
  deriving DecidableEq, Repr

def eventTarget : String := "upload_spool"

def Event.render (e : Event) : String :=
  e.level.name ++ " " ++ eventTarget ++ ": " ++ e.message ++
    String.join (e.fields.map fun (name, value) => " " ++ name ++ "=" ++ value)

def Event.has (e : Event) (field : String) : Bool :=
  field = "message" || (e.fields.lookup field).isSome

/-- A directive speaks of the events whose target begins with its own and that have its field. One
about spans of work, or about the value of a field, never decides on an event outside of them. -/
structure Directive where
  target : Option String := none
  field : Option String := none
  concernsSpans : Bool := false
  level : Level
  deriving DecidableEq, Repr

namespace Directive

def mayBegin (c : Char) : Bool := Alphanumeric.isAlphanumeric c || "-:_[".toList.contains c

def level? (s : String) : Option Level := if s.isEmpty then some .trace else Level.read? s.toList

/-- A text as it is cut: places are found in it without the blanks around it, and counted from the start
of the text as it stands. -/
structure Source where
  text : Bytes

namespace Source

def between (s : Source) (start stop : Nat) : Option String :=
  Utf8.decode? ((s.text.drop start).take (stop - start))

def after (s : Source) (start : Nat) : Option String := Utf8.decode? (s.text.drop start)

end Source

def width (s : List Char) : Nat := (Utf8.encode (String.ofList s)).length

/-- What follows a span in brackets, and its place. -/
def closing? (d : Directive) (s : Source) (place : Nat) : List Char → Option Directive
  | [] => some d
  | '=' :: _ => do return { d with level := ← level? (← s.after (place + 1)) }
  | _ => none

/-- A field, perhaps with a value behind an equals sign; a second such sign ends the value. -/
def field? (d : Directive) (text : String) : Option Directive :=
  match text.toList.splitOn '=' with
  | name :: value :: _ =>
    if Pattern.isComparable value then
      some { d with field := some (String.ofList name), concernsSpans := true }
    else none
  | _ => some { d with field := some text }

/-- A span in brackets, behind the opening one: its name, and perhaps a field in braces. -/
def span? (d : Directive) (s : Source) (place : Nat) (rest : List Char) : Option Directive :=
  let isEnd := fun c => c = ']' || c = '\x7b'
  let name := rest.takeWhile (! isEnd ·)
  let place := place + width name
  match rest.dropWhile (! isEnd ·) with
  | ']' :: rest => { d with concernsSpans := true }.closing? s (place + 1) rest
  | '\x7b' :: rest =>
    let field := rest.takeWhile (· != '\x7d')
    let stop := place + 1 + width field
    match rest.dropWhile (· != '\x7d') with
    | '\x7d' :: ']' :: rest => do
      let d ← if field.isEmpty then none else field? d (← s.between (place + 1) stop)
      { d with concernsSpans := d.concernsSpans || ! name.isEmpty }.closing? s (stop + 2) rest
    | _ => none
  | _ => none

/-- A directive is a level, a target, or a target with a span or a level or both. -/
def read? (text : List Char) : Option Directive :=
  let s : Source := ⟨Utf8.encode (String.ofList text)⟩
  let body := Blank.trim text
  if body.head?.any mayBegin then do
    let isEnd := fun c => c = '=' || c = '['
    let word := body.takeWhile (! isEnd ·)
    let place := width word
    match body.dropWhile (! isEnd ·) with
    | '=' :: _ =>
      return { target := ← s.between 0 place, level := ← level? (← s.after (place + 1)) }
    | '[' :: rest =>
      let target ← if word.isEmpty then some none else (s.between 0 place).map some
      span? { target, level := .trace } s (place + 1) rest
    | _ =>
      match Level.read? text with
      | some level => return { level }
      | none => return { target := String.ofList text, level := .trace }
  else none

def speaksOf (d : Directive) (e : Event) : Bool :=
  ! d.concernsSpans && d.target.all (eventTarget.startsWith ·) && d.field.all (e.has ·)

/-- Whether a directive before another one keeps its place against it: it has the longer target, or
as long a one and a field where the other has none or one earlier in the alphabet. -/
def outranks (d other : Directive) : Bool :=
  let weight := fun d : Directive => (d.target.map (·.length + 1)).getD 0
  weight other < weight d || (weight other = weight d &&
    match d.field, other.field with
    | some _, none => true
    | some f, some g => ! Bytes.le (Bytes.ofText f) (Bytes.ofText g)
    | none, _ => false)

end Directive

abbrev LogFilter := List Directive

namespace LogFilter

def pieces (s : List Char) : List (List Char) := (s.splitOn ',').filter (! ·.isEmpty)

def read? (s : String) : Option LogFilter := (pieces s.toList).mapM Directive.read?

def standard : LogFilter := [{ target := some eventTarget, level := .info }]

def ofEnvironment (env : Environment) : LogFilter :=
  (((env.lookup "RUST_LOG").bind Utf8.decode?).bind read?).getD standard

def decisive? (f : LogFilter) (e : Event) : Option Directive :=
  (f.filter (·.speaksOf e)).foldl (fun best d =>
    match best with
    | some b => some (if b.outranks d then b else d)
    | none => some d) none

def lets (f : LogFilter) (e : Event) : Bool :=
  match f.decisive? e with
  | some d => e.level.rank ≤ d.level.rank
  | none => false

end LogFilter
end RecordingDelivery.CommandLine
