import RecordingDelivery.Files.Resolve

/-!
What can be done to files by their paths. A call gives the tree after it or the fault for which it
changes nothing; those that make directories on the way give both.
-/
namespace RecordingDelivery.Tree

/-- Whether something is there; anything but a clean absence counts as a presence. -/
def isPresent (t : Tree) (p : Path) : Bool :=
  match t.find .target p with
  | .error .notFound => false
  | _ => true

/-- Opening for reading; directories can be opened. -/
def openFile (t : Tree) (p : Path) : Except Fault Entry := do
  let (l, e) ← t.find .target p
  if t.isReadable l then .ok e else .error .denied

/-- The contents of a file; a pipe without a writer has none. -/
def read (t : Tree) (p : Path) : Except Fault Bytes := do
  match ← t.openFile p with
  | .file contents => .ok contents
  | .directory => .error .isDirectory
  | .link _ | .pipe => .ok []

def openDirectory (t : Tree) (p : Path) : Except Fault Location := do
  let (l, e) ← t.find .target p
  if e ≠ .directory then .error .notDirectory
  else if t.isReadable l then .ok l else .error .denied

def listDirectory (t : Tree) (p : Path) : Except Fault (List (Bytes × Entry)) := do
  let l ← t.openDirectory p
  .ok ((t.names l).filterMap fun n => (t.get? (l ++ [n])).map fun e => (n, e))

/-- Makes the entries of a directory last, which shows in no tree; it fails if the directory
cannot be opened. -/
def sync (t : Tree) (p : Path) : Except Fault Unit := (t.openFile p).map fun _ => ()

/-- Syncs the directory in which a path lies, the working directory if the path names none. -/
def syncParent (t : Tree) (p : Path) : Except Fault Unit :=
  match p.parent? with
  | some dir => t.sync (if dir.isEmpty then ⟨[Path.dot]⟩ else dir)
  | none => t.sync ⟨[Path.dot]⟩

def unlink (t : Tree) (p : Path) : Except Fault Tree := do
  match ← t.parent p with
  | (_, .special) => .error .isDirectory
  | (dir, .name n) =>
    checkName n
    match t.get? (dir ++ [n]) with
    | none => .error .notFound
    | some .directory => .error .isDirectory
    | some _ => if p.endsInSlash then .error .notDirectory else .ok (t.drop (dir ++ [n]))

/-- Why an entry cannot take the place of what stands at the target. -/
def replaceFault? (t : Tree) (moved : Entry) (target : Location) : Option Fault :=
  match t.get? target with
  | none => none
  | some .directory =>
    if moved ≠ .directory then some .isDirectory
    else if t.isEmptyDirectory target then none else some .notEmpty
  | some _ => if moved = .directory then some .notDirectory else none

/-- Gives what stands at one path another path, in place of what was there. Of a thing that has both
names already nothing is changed. -/
def rename (t : Tree) (source target : Path) : Except Fault Tree := do
  checkText source
  checkText target
  let (sourceDir, sourceLast) ← t.parent source
  let (targetDir, targetLast) ← t.parent target
  match sourceLast, targetLast with
  | .name n, .name m =>
    checkName n
    let l := sourceDir ++ [n]
    match t.get? l with
    | none => .error .notFound
    | some moved =>
      checkName m
      let k := targetDir ++ [m]
      if moved ≠ .directory ∧ (source.endsInSlash || target.endsInSlash) = true then
        .error .notDirectory
      else if l = k ∨ t.isTwin l k = true then .ok t
      else if l.isPrefixOf k then .error .invalid
      else if k.isPrefixOf l then .error .notEmpty
      else match t.replaceFault? moved k with
        | some fault => .error fault
        | none => .ok (t.move l k)
  | _, _ => .error .busy

def create (t : Tree) (p : Path) (e : Entry) : Except Fault Tree := do
  match ← t.parent p with
  | (_, .special) => .error .fileExists
  | (dir, .name n) =>
    checkName n
    match t.get? (dir ++ [n]) with
    | some _ => .error .fileExists
    | none =>
      if p.endsInSlash ∧ e ≠ .directory then .error .notFound else .ok (t.put (dir ++ [n]) e)

def isDirectoryAt (t : Tree) (p : Path) : Bool :=
  match t.find .target p with
  | .ok (_, .directory) => true
  | _ => false

/-- Whether a directory could be made or is there all the same. -/
def settled (t : Tree) (p : Path) : Except Fault Tree → Tree × Option Fault
  | .ok made => (made, none)
  | .error fault => (t, if t.isDirectoryAt p then none else some fault)

/-- Makes a directory and the directories that it needs; those that were made stay if a later one
cannot be. -/
def createDirectories (t : Tree) (p : Path) : Tree × Option Fault :=
  go p.bytes.length p
where
  go : Nat → Path → Tree × Option Fault
    | fuel, p =>
      if p.isEmpty then (t, none)
      else match t.create p .directory, fuel, p.parent? with
        | .error .notFound, fuel + 1, some dir =>
          match go fuel dir with
          | (t, none) => t.settled p (t.create p .directory)
          | (t, some fault) => (t, some fault)
        | .error .notFound, _, _ => (t, some .notFound)
        | result, _, _ => t.settled p result

def writeFile (t : Tree) (p : Path) (contents : Bytes) : Except Fault Tree := do
  let l ← t.resolve .creation p
  match t.get? l with
  | none => .ok (t.put l (.file contents))
  | some (.file _) => .ok (t.rewrite l contents)
  | some .directory => .error .isDirectory
  | some _ => .ok t

/-- Writes a file for which the directories are made as far as they can be. -/
def write (t : Tree) (p : Path) (contents : Bytes) : Tree × Option Fault :=
  let t := match p.parent? with
    | some dir => (t.createDirectories dir).1
    | none => t
  match t.writeFile p contents with
  | .ok t => (t, none)
  | .error fault => (t, some fault)

def removeDirectory (t : Tree) (p : Path) : Except Fault Tree := do
  match ← t.parent p with
  | (_, .special) =>
    .error (match p.names.getLast? with
      | none => .busy
      | some step => if step = [Path.dot] then .invalid else .notEmpty)
  | (dir, .name n) =>
    checkName n
    match t.get? (dir ++ [n]) with
    | none => .error .notFound
    | some .directory =>
      if t.isEmptyDirectory (dir ++ [n]) then .ok (t.drop (dir ++ [n])) else .error .notEmpty
    | some _ => .error .notDirectory

/-- Removes a directory with all below it, or a link. First goes what is below, so that the path may
lead nowhere when the directory's turn comes; then it stays. -/
def removeAll (t : Tree) (p : Path) : Tree × Option Fault :=
  match t.find .entry p with
  | .ok (l, .directory) =>
    let t := t.clear l
    match t.removeDirectory p with
    | .ok t => (t, none)
    | .error .notFound => (t, none)
    | .error fault => (t, some fault)
  | .ok (l, .link _) => (t.drop l, none)
  | .ok _ => (t, some .notDirectory)
  | .error fault => (t, some fault)

/-- What lies below the working directory, in the order of the paths' bytes. -/
def listing (t : Tree) : List (Path × Entry) :=
  ((t.below t.workDir).map fun e => (⟨Path.glue e.1⟩, e.2)).mergeSort
    fun a b => Bytes.le a.1.bytes b.1.bytes

end RecordingDelivery.Tree
