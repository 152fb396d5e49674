import RecordingDelivery.Files.Path
import RecordingDelivery.Network.Address
import RecordingDelivery.Settings
import RecordingDelivery.Text.Terminal

/-!
The arguments of the command line. They are read from the left; the value of an option is looked at
when the next option has been recognised or all have been read, so that a later argument that means
nothing is reported before a wrong value. What is not given is taken from the environment.
-/
namespace RecordingDelivery.CommandLine

inductive ValueOption
  | config | statusAddress
  deriving DecidableEq, Repr

namespace ValueOption

def long : ValueOption → String
  | .config => "config"
  | .statusAddress => "status-addr"

def placeholder : ValueOption → String
  | .config => "<CONFIG>"
  | .statusAddress => "<STATUS_ADDR>"

def usage (o : ValueOption) : String := "--" ++ o.long ++ " " ++ o.placeholder

def environmentName : ValueOption → String
  | .config => "UPLOAD_SPOOL_CONFIG"
  | .statusAddress => "UPLOAD_SPOOL_STATUS_ADDR"

end ValueOption

inductive Switch
  | noScan | help | version
  deriving DecidableEq, Repr

def Switch.long : Switch → String
  | .noScan => "no-scan"
  | .help => "help"
  | .version => "version"

inductive UsageError
  | unexpected (argument : String)
  | surplusValue (s : Switch) (value : String)
  | noValue (o : ValueOption)
  | repeatedOption (o : ValueOption)
  | repeatedSwitch (s : Switch)
  | badAddress (value : String)
  | notText
  | missing
  deriving DecidableEq, Repr

/-- The text of an error. Of what the user wrote it shows only what can be seen. -/
def UsageError.message : UsageError → String
  | .unexpected a => "error: unexpected argument '" ++ Terminal.plain a ++ "' found"
  | .surplusValue s v =>
    "error: unexpected value '" ++ Terminal.plain v ++ "' for '--" ++ s.long ++
      "' found; no more were expected"
  | .noValue o => "error: a value is required for '" ++ o.usage ++ "' but none was supplied"
  | .repeatedOption o => "error: the argument '" ++ o.usage ++ "' cannot be used multiple times"
  | .repeatedSwitch s =>
    "error: the argument '--" ++ s.long ++ "' cannot be used multiple times"
  | .badAddress v =>
    "error: invalid value '" ++ Terminal.plain v ++ "' for '" ++ ValueOption.statusAddress.usage ++
      "': invalid socket address syntax"
  | .notText => "error: invalid UTF-8 was detected in one or more arguments"
  | .missing => "error: the following required arguments were not provided:"

/-- What ends the reading of the arguments before a run. -/
inductive Halt
  | help | version
  | misuse (e : UsageError)
  deriving DecidableEq, Repr

structure Arguments where
  config : Path
  statusAddress : Option SocketAddress := none
  noScan : Bool := false
  deriving DecidableEq, Repr

/-- What the arguments so far have given; the last option may still lack its value, or wait to have
it looked at. -/
structure Given where
  config : Option Path := none
  statusAddress : Option SocketAddress := none
  noScan : Bool := false
  pending : Option (ValueOption × Option Bytes) := none
  deriving DecidableEq, Repr

namespace Given

def readAddress (value : Bytes) : Except UsageError SocketAddress :=
  match Utf8.decode? value with
  | none => .error .notText
  | some text =>
    match SocketAddress.parse? text with
    | some a => .ok a
    | none => .error (.badAddress text)

def take (g : Given) (o : ValueOption) (value : Bytes) : Except UsageError Given :=
  match o with
  | .config =>
    if g.config.isSome then .error (.repeatedOption o)
    else if value.isEmpty then .error (.noValue o)
    else .ok { g with config := some ⟨value⟩ }
  | .statusAddress =>
    if g.statusAddress.isSome then .error (.repeatedOption o)
    else (readAddress value).map fun a => { g with statusAddress := some a }

/-- Looks at the value that waits. -/
def settle (g : Given) : Except UsageError Given :=
  match g.pending with
  | none => .ok g
  | some (o, none) => .error (.noValue o)
  | some (o, some value) => { g with pending := none }.take o value

def settled (g : Given) : Except Halt Given := g.settle.mapError .misuse

def option (g : Given) (o : ValueOption) (attached : Option Bytes) : Except Halt Given := do
  let g ← g.settled
  match attached with
  | some value => (g.take o value).mapError .misuse
  | none => return { g with pending := some (o, none) }

def switch (g : Given) (s : Switch) : Except Halt Given := do
  let g ← g.settled
  match s with
  | .help => .error .help
  | .version => .error .version
  | .noScan =>
    if g.noScan then .error (.misuse (.repeatedSwitch s)) else return { g with noScan := true }

def unexpected (argument : String) : Except Halt Given := .error (.misuse (.unexpected argument))

/-- An argument behind two dashes: a name, perhaps with a value behind an equals sign. -/
def long (g : Given) (body : Bytes) : Except Halt Given :=
  let name := body.takeWhile (· != 0x3D)
  let attached := if body.contains 0x3D then some (body.drop (name.length + 1)) else none
  let text := Utf8.lossy name
  match [ValueOption.config, .statusAddress].find? (Bytes.ofText ·.long = name) with
  | some o => g.option o attached
  | none =>
    match [Switch.noScan, .help, .version].find? (Bytes.ofText ·.long = name), attached with
    | some s, none => g.switch s
    | some s, some value => .error (.misuse (.surplusValue s (Utf8.lossy value)))
    | none, _ => unexpected ("--" ++ text)

/-- An argument behind one dash: letters that each are a switch. -/
def short (g : Given) (body : List Utf8.Piece) : Except Halt Given :=
  match body with
  | .char 'h' :: _ => g.switch .help
  | .char 'V' :: _ => g.switch .version
  | .char c :: _ => unexpected (String.ofList ['-', c])
  | rest => unexpected (String.ofList ('-' :: rest.map Utf8.Piece.shown))

/-- An argument that is no option: the value that is wanted, if one is. -/
def plain (g : Given) (argument : Bytes) : Except Halt Given :=
  match g.pending with
  | some (o, none) => .ok { g with pending := some (o, some argument) }
  | _ => unexpected (Utf8.lossy argument)

/-- One argument; two dashes alone are left to the reader of all. -/
def next (g : Given) (argument : Bytes) : Except Halt Given :=
  match argument with
  | [0x2D] => g.plain argument
  | 0x2D :: 0x2D :: body => g.long body
  | 0x2D :: body => g.short (Utf8.pieces body)
  | _ => g.plain argument

/-- All arguments. Behind two dashes no argument is an option, and there is none to expect. -/
def all (g : Given) : List Bytes → Except Halt Given
  | [] => g.settled
  | argument :: rest =>
    if argument = [0x2D, 0x2D] then
      match rest with
      | [] => g.settled
      | extra :: _ => unexpected (Utf8.lossy extra)
    else do (← g.next argument).all rest

/-- The value of an option that was not given, from the environment. -/
def complete (g : Given) (env : Environment) (o : ValueOption) (isGiven : Bool) :
    Except UsageError Given :=
  match env.lookup o.environmentName with
  | some value => if isGiven then .ok g else g.take o value
  | none => .ok g

def finish (g : Given) (env : Environment) : Except UsageError Arguments := do
  let g ← g.complete env .config g.config.isSome
  let g ← g.complete env .statusAddress g.statusAddress.isSome
  match g.config with
  | some config => return { config, statusAddress := g.statusAddress, noScan := g.noScan }
  | none => .error .missing

end Given

def Arguments.read (arguments : List Bytes) (env : Environment) : Except Halt Arguments := do
  let g ← ({} : Given).all arguments
  (g.finish env).mapError .misuse

end RecordingDelivery.CommandLine
