import RecordingDelivery.CommandLine.LogFilter
import RecordingDelivery.CommandLine.Pages
import RecordingDelivery.Delivery.Service
import RecordingDelivery.Http.Client
import RecordingDelivery.Registry.Reader
import RecordingDelivery.Spool.Startup

/-!
The program: it reads the registry, searches for what an earlier run left, listens for questions
about its status, and delivers until it is interrupted.
-/
namespace RecordingDelivery.CommandLine

/-- What a run tells and how it ends. A run that got as far as to deliver has a service and the
client with which that delivers. -/
structure Run where
  events : List Event
  exitCode : Nat
  service : Option (Service × Http.Client) := none

namespace Run

def failed (events : List Event) (e : Event) : Run := { events := events ++ [e], exitCode := 1 }

def loadFailure (e : RegistryError) : Event :=
  ⟨.error, "Failed to load configuration", [("error", e.message)]⟩

def clientFailure : Event := ⟨.error, "Failed to build HTTP client", [("error", "builder error")]⟩

def listenFailure (a : SocketAddress) (fault : Fault) : Event :=
  ⟨.error, "Failed to bind status server", [("addr", a.render), ("error", fault.message)]⟩

def listening (a : SocketAddress) : Event :=
  ⟨.info, "Status server listening", [("addr", a.render)]⟩

def stopping : Event := ⟨.info, "Shutting down", []⟩

/-- The search for undelivered files, or the note that it is left out. -/
def search (skip : Bool) (r : Registry) (s : Site) : Event × Site :=
  if skip then (⟨.info, "Startup scan disabled", []⟩, s)
  else
    let (found, s) := s.scanRegistry r
    (⟨.info, "Startup scan complete", [("found", toString found)]⟩, s)

/-- A run up to its interruption. Which addresses can be listened at is given. -/
def start (a : Arguments) (env : Environment) (listen : SocketAddress → Except Fault Unit)
    (tree : Tree) : Run :=
  match Registry.load tree a.config with
  | .error e => failed [] (loadFailure e)
  | .ok registry =>
    match Http.Client.ofSettings? (Settings.ofEnvironment env) with
    | none => failed [] clientFailure
    | some client =>
      let (searched, site) := search a.noScan registry { tree }
      let running (events : List Event) : Run :=
        { events := events ++ [stopping], exitCode := 0, service := some ({ site }, client) }
      match a.statusAddress with
      | none => running [searched]
      | some address =>
        match listen address with
        | .ok () => running [searched, listening address]
        | .error fault => failed [searched] (listenFailure address fault)

end Run

/-- What the command line does: it shows a page, as it looks without a terminal, refuses its arguments,
or runs. -/
inductive Result
  | page (text : String)
  | misuse (e : UsageError)
  | run (r : Run)

namespace Result

def exitCode : Result → Nat
  | .page _ => 0
  | .misuse _ => 2
  | .run r => r.exitCode

def page? : Result → Option String
  | .page text => some text
  | .misuse _ | .run _ => none

def usageError? : Result → Option UsageError
  | .misuse e => some e
  | .page _ | .run _ => none

def log (env : Environment) : Result → List String
  | .run r => (r.events.filter (LogFilter.ofEnvironment env).lets).map (·.render)
  | .page _ | .misuse _ => []

end Result

def execute (arguments : List Bytes) (env : Environment)
    (listen : SocketAddress → Except Fault Unit) (tree : Tree) : Result :=
  match Arguments.read arguments env with
  | .ok a => .run (Run.start a env listen tree)
  | .error .help => .page (Terminal.plain (helpPage env))
  | .error .version => .page (Terminal.plain versionPage)
  | .error (.misuse e) => .misuse e

end RecordingDelivery.CommandLine
