import RecordingDelivery.CommandLine.Program

/-!
The command line. A run works on a picture of the files that its registry names, taken when it
starts. Nothing can be reached or listened at from here, so a run ends where it would begin to wait.
-/
namespace RecordingDelivery.CommandLine

def variableNames : List String :=
  ["RUST_LOG", "UPLOAD_SPOOL_CONFIG", "UPLOAD_SPOOL_STATUS_ADDR",
   "UPLOAD_SPOOL_REQUEST_TIMEOUT_SECS", "UPLOAD_SPOOL_CONNECT_TIMEOUT_SECS"]

def readEnvironment : IO Environment :=
  variableNames.filterMapM fun name => do
    return (← IO.getEnv name).map fun value => (name, Bytes.ofText value)

/-- Where a path leads from a directory when no link is on the way. -/
def locationOf (home : Location) (p : Path) : Location :=
  p.components.foldl (fun l c =>
    match c with
    | .root => []
    | .here => l
    | .up => l.dropLast
    | .name n => l ++ [n]) home

def withDirectories (t : Tree) (l : Location) : Tree :=
  (List.range (l.length + 1)).foldl (fun t n =>
    if (t.get? (l.take n)).isSome then t else t.put (l.take n) .directory) t

def currentLocation : IO Location := do
  return locationOf [] (Path.ofText (← IO.currentDir).toString)

def entriesOf (directory : String) : IO (Option (List IO.FS.DirEntry)) := do
  try return some (← ((← IO.currentDir).join directory).readDir).toList
  catch _ => return none

def addBelow : Nat → Tree → Location → String → IO Tree
  | 0, t, _, _ => return t
  | depth + 1, t, l, directory => do
    let some entries ← entriesOf directory | return t.lock l
    entries.foldlM (fun t e => do
      let k := l ++ [Bytes.ofText e.fileName]
      match (← e.path.symlinkMetadata).type with
      | .dir => addBelow depth (t.put k .directory) k e.path.toString
      | .file => return t.put k (.file [])
      | .symlink => return t.put k (.link ⟨[Path.dot]⟩)
      | .other => return t.put k .pipe) t

/-- No directory is followed further down than this. -/
def deepest : Nat := 64

def addDirectory (t : Tree) (p : Path) : IO Tree := do
  let l := locationOf t.workDir p
  let directory := (← IO.currentDir).join p.display
  try
    if ← directory.isDir then addBelow deepest (withDirectories t l) l directory.toString
    else return t
  catch _ => return t

def addFile (t : Tree) (p : Path) : IO Tree := do
  let l := locationOf t.workDir p
  try return (withDirectories t l.dropLast).put l (.file (← IO.FS.readBinFile p.display).toList)
  catch _ => return t

def picture (a : Arguments) : IO Tree := do
  let home ← currentLocation
  let t ← addFile (withDirectories { workDir := home } home) a.config
  match Registry.load t a.config with
  | .ok r => r.scanTargets.foldlM (fun t d => addDirectory t d.baseDirectory) t
  | .error _ => return t

/-- There is no network. -/
def listen (_ : SocketAddress) : Except Fault Unit := .error (.system 38)

end RecordingDelivery.CommandLine

open RecordingDelivery CommandLine in
def main (arguments : List String) : IO UInt32 := do
  let arguments := arguments.map Bytes.ofText
  let env ← readEnvironment
  let tree ← match Arguments.read arguments env with
    | .ok a => picture a
    | .error _ => pure {}
  let result := execute arguments env listen tree
  match result.page?, result.usageError? with
  | some page, _ => IO.print page
  | none, some e => IO.eprintln e.message
  | none, none => (result.log env).forM (IO.println ·)
  return UInt32.ofNat result.exitCode
