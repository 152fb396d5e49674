import RecordingDelivery.Text.Utf8

/-!
Paths as they are written: bytes, cut at slashes. Two spellings name the same file when their
components agree; repeated slashes, a final slash and inner `.` segments make no component.
-/
namespace RecordingDelivery

structure Path where
  bytes : Bytes
  deriving DecidableEq, Repr, Inhabited

namespace Path

def slash : UInt8 := 0x2F

def dot : UInt8 := 0x2E

/-- The pieces between slashes, empty ones included. -/
def cut : Bytes → List Bytes
  | [] => [[]]
  | b :: rest =>
    if b = slash then [] :: cut rest
    else match cut rest with
      | [] => [[b]]
      | s :: more => (b :: s) :: more

def glue : List Bytes → Bytes
  | [] => []
  | [s] => s
  | s :: more => s ++ slash :: glue more

/-- What stands before the segments of a path: the root, a leading `.`, or nothing. -/
inductive Start
  | root | here | bare
  deriving DecidableEq, Repr

def Start.text : Start → Bytes
  | .root => [slash]
  | .here => [dot]
  | .bare => []

def openingOf : Bytes → Start × Bytes
  | [] => (.bare, [])
  | b :: rest =>
    if b = slash then (.root, rest)
    else if b = dot && (rest.isEmpty || rest.head? = some slash) then (.here, rest)
    else (.bare, b :: rest)

def start (p : Path) : Start := (openingOf p.bytes).1

def segments (p : Path) : List Bytes := cut (openingOf p.bytes).2

/-- A segment that names nothing: the empty one and `.`. -/
def isBlank (s : Bytes) : Bool := s.isEmpty || s == [dot]

inductive Component
  | root | here | up | name (n : Bytes)
  deriving DecidableEq, Repr

def Start.components : Start → List Component
  | .root => [.root]
  | .here => [.here]
  | .bare => []

def componentOf (s : Bytes) : Component := if s = [dot, dot] then .up else .name s

def components (p : Path) : List Component :=
  p.start.components ++ (p.segments.filter (! isBlank ·)).map componentOf

/-- Two spellings of one path. -/
def same (p q : Path) : Bool := p.components == q.components

@[simp] theorem same_refl (p : Path) : p.same p = true := by simp [same]

theorem same_iff {p q : Path} : p.same q = true ↔ p.components = q.components := by simp [same]

theorem same_comm (p q : Path) : p.same q = q.same p := by
  rw [Bool.eq_iff_iff, same_iff, same_iff]; exact eq_comm

/-- The last component, if it is a name. -/
def fileName (p : Path) : Option Bytes :=
  match p.components.getLast? with
  | some (.name n) => some n
  | _ => none

def dropBlanks (segments : List Bytes) : List Bytes :=
  (segments.reverse.dropWhile isBlank).reverse

/-- The text before the last component, without what only separates the two. -/
def parentText (p : Path) : Bytes :=
  p.start.text ++ glue (dropBlanks (dropBlanks p.segments).dropLast)

def extend (dir name : Bytes) : Bytes :=
  if dir.isEmpty || dir.getLast? = some slash then dir ++ name else dir ++ slash :: name

def join (dir : Path) (name : Bytes) : Path := ⟨extend dir.bytes name⟩

def withFileName (p : Path) (name : Bytes) : Path := ⟨extend p.parentText name⟩

def parent? (p : Path) : Option Path :=
  match p.components.getLast? with
  | none | some .root => none
  | some .here => some ⟨[]⟩
  | _ => some ⟨p.parentText⟩

def display (p : Path) : String := Utf8.lossy p.bytes

def ofText (s : String) : Path := ⟨Utf8.encode s⟩

def isEmpty (p : Path) : Bool := p.bytes.isEmpty

end Path
end RecordingDelivery
