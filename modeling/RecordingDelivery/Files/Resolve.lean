import RecordingDelivery.Files.Fault
import RecordingDelivery.Files.Tree

/-!
From a path's text to a location. Each step needs a directory; links are followed on the way, at the
end only if asked, and no more than forty times.
-/
namespace RecordingDelivery

namespace Path

def isAbsolute (p : Path) : Bool := p.bytes.head? = some slash

def endsInSlash (p : Path) : Bool := p.bytes.getLast? = some slash

/-- The segments that say something. -/
def names (p : Path) : List Bytes := (cut p.bytes).filter (! ·.isEmpty)

/-- The steps of a walk. A slash at the end is an empty step, which asks for a directory. -/
def steps (p : Path) : List Bytes := p.names ++ if p.endsInSlash then [[]] else []

end Path

namespace Tree

def linkLimit : Nat := 40

def nameLimit : Nat := 255

def pathLimit : Nat := 4096

def start (p : Path) (dir : Location) : Location := if p.isAbsolute then [] else dir

inductive Purpose
  /-- What stands there, be it a link. -/
  | entry
  /-- Where a link leads. -/
  | target
  /-- Where a link leads, to put a file there; a slash behind its name is refused. -/
  | creation
  deriving DecidableEq, Repr

/-- The location that a walk from a directory leads to; of the last step nothing needs to exist. -/
def walk (t : Tree) (purpose : Purpose) : Nat → Location → List Bytes → Except Fault Location
  | _, dir, [] => .ok dir
  | links, dir, step :: rest =>
    if step = [] ∨ step = [Path.dot] then walk t purpose links dir rest
    else if step = [Path.dot, Path.dot] then walk t purpose links dir.dropLast rest
    else if purpose = .creation ∧ rest = [[]] then .error .isDirectory
    else if nameLimit < step.length then .error .nameTooLong
    else
      let here := dir ++ [step]
      match t.get? here with
      | none => if rest.isEmpty then .ok here else .error .notFound
      | some .directory => walk t purpose links here rest
      | some (.file _) | some .pipe => if rest.isEmpty then .ok here else .error .notDirectory
      | some (.link target) =>
        if rest.isEmpty && purpose == .entry then .ok here
        else match links with
          | 0 => .error .tooManyLinks
          | links + 1 => walk t purpose links (start target dir) (target.steps ++ rest)
termination_by links _ steps => (links, steps.length)

def checkText (p : Path) : Except Fault Unit :=
  if p.bytes.contains 0 then .error .zeroByte
  else if p.bytes.isEmpty then .error .notFound
  else if pathLimit ≤ p.bytes.length then .error .nameTooLong
  else .ok ()

def resolve (t : Tree) (purpose : Purpose) (p : Path) : Except Fault Location := do
  checkText p
  t.walk purpose linkLimit (start p t.workDir) p.steps

def find (t : Tree) (purpose : Purpose) (p : Path) : Except Fault (Location × Entry) := do
  let l ← t.resolve purpose p
  match t.get? l with
  | some e => .ok (l, e)
  | none => .error .notFound

/-- The last step of a path: a name, or a way of saying an existing directory. -/
inductive Last
  | name (n : Bytes) | special
  deriving DecidableEq, Repr

def parent (t : Tree) (p : Path) : Except Fault (Location × Last) := do
  checkText p
  let dir ← t.walk .target linkLimit (start p t.workDir) (p.names.dropLast ++ [[]])
  match p.names.getLast? with
  | some n => .ok (dir, if n = [Path.dot] ∨ n = [Path.dot, Path.dot] then .special else .name n)
  | none => .ok (dir, .special)

def checkName (n : Bytes) : Except Fault Unit :=
  if nameLimit < n.length then .error .nameTooLong else .ok ()

end Tree
end RecordingDelivery
