import RecordingDelivery.Files.Path

/-!
A tree of files as a finite map from locations, the names from the root down, to what stands there.
Relative paths begin at the working directory. One file can stand at several locations.
-/
namespace RecordingDelivery

inductive Entry
  | file (contents : Bytes)
  | directory
  | link (target : Path)
  | pipe
  deriving DecidableEq, Repr

/-- What stands at a location. What has several names has one number under all of them, and what has
one name needs none. What may not be read can still be reached and moved. -/
structure Node where
  entry : Entry
  number : Option Nat := none
  readable : Bool := true
  deriving DecidableEq, Repr

namespace Node

def file (contents : Bytes) : Node := { entry := .file contents }

def directory : Node := { entry := .directory }

def link (target : Path) : Node := { entry := .link target }

def isTwin (a b : Node) : Bool := a.number.isSome && a.number == b.number

end Node

abbrev Location := List Bytes

section Lookup

variable {κ α : Type} [BEq κ] [LawfulBEq κ] {k : κ} (es : List (κ × α)) (f : κ → Bool)

theorem lookup_filter_of (h : f k = true) : (es.filter fun e => f e.1).lookup k = es.lookup k := by
  induction es with
  | nil => rfl
  | cons e es ih =>
    obtain ⟨m, v⟩ := e
    by_cases hm : k == m
    · have : m = k := (eq_of_beq hm).symm
      subst this
      simp [List.filter, h]
    · by_cases hf : f m <;> simp [List.filter, hf, List.lookup_cons, hm, ih]

theorem lookup_filter_none (h : f k = false) : (es.filter fun e => f e.1).lookup k = none := by
  induction es with
  | nil => rfl
  | cons e es ih =>
    obtain ⟨m, v⟩ := e
    by_cases hf : f m
    · have : (k == m) = false := by
        by_cases hm : k = m
        · subst hm; simp [h] at hf
        · simpa using hm
      simp [List.filter, hf, List.lookup_cons, this, ih]
    · simp [List.filter, hf, ih]

end Lookup

structure Tree where
  entries : List (Location × Node) := []
  workDir : Location := []
  deriving Repr

namespace Tree

/-- The root is always a directory. -/
def node? (t : Tree) (l : Location) : Option Node :=
  if l = [] then some .directory else t.entries.lookup l

def get? (t : Tree) (l : Location) : Option Entry := (t.node? l).map (·.entry)

def isDirectory (t : Tree) (l : Location) : Bool := t.get? l = some .directory

def isReadable (t : Tree) (l : Location) : Bool := (t.node? l).any (·.readable)

/-- Whether one thing stands at two locations, as one of its names each. -/
def isTwin (t : Tree) (l k : Location) : Bool :=
  match t.node? l, t.node? k with
  | some a, some b => a.isTwin b
  | _, _ => false

/-- The tree without what stands at a location, what lies below it left alone. -/
def drop (t : Tree) (l : Location) : Tree :=
  { t with entries := t.entries.filter fun e => e.1 != l }

def put (t : Tree) (l : Location) (e : Entry) : Tree :=
  { t with entries := (l, { entry := e }) :: (t.drop l).entries }

/-- The tree with other contents of the file at a location, under all its names. -/
def rewrite (t : Tree) (l : Location) (contents : Bytes) : Tree :=
  { t with entries := t.entries.map fun e =>
      if e.1 = l || t.isTwin l e.1 then (e.1, { e.2 with entry := .file contents }) else e }

def lock (t : Tree) (l : Location) : Tree :=
  { t with entries := t.entries.map fun e =>
      if e.1 = l then (e.1, { e.2 with readable := false }) else e }

def prune (t : Tree) (l : Location) : Tree :=
  { t with entries := t.entries.filter fun e => ! l.isPrefixOf e.1 }

def clear (t : Tree) (l : Location) : Tree :=
  { t with entries := t.entries.filter fun e => e.1 = l || ! l.isPrefixOf e.1 }

/-- Everything at and below one location stands at and below another; what was there is gone. -/
def move (t : Tree) (source target : Location) : Tree :=
  { t with entries := (t.prune target).entries.map fun e =>
      if source.isPrefixOf e.1 then (target ++ e.1.drop source.length, e.2) else e }

/-- The names in a directory, in the order of their bytes. -/
def names (t : Tree) (l : Location) : List Bytes :=
  (t.entries.filterMap fun e =>
    match e.1.getLast? with
    | some n => if e.1.dropLast = l then some n else none
    | none => none).mergeSort Bytes.le

/-- What lies below a location, by the locations from there on. -/
def below (t : Tree) (l : Location) : List (Location × Entry) :=
  t.entries.filterMap fun e =>
    if l.isPrefixOf e.1 && e.1 != l then some (e.1.drop l.length, e.2.entry) else none

def isEmptyDirectory (t : Tree) (l : Location) : Bool := (t.below l).isEmpty

/-- No location is deeper than this. -/
def depth (t : Tree) : Nat := t.entries.foldl (fun d e => max d e.1.length) 0

def fresh : Tree :=
  let home : Location := [Bytes.ofText "spool"]
  { entries := [(home, .directory)], workDir := home }

@[simp] theorem node?_root (t : Tree) : t.node? [] = some .directory := rfl

@[simp] theorem get?_root (t : Tree) : t.get? [] = some .directory := rfl

theorem get?_of_node? {t u : Tree} {l m : Location} (h : t.node? l = u.node? m) :
    t.get? l = u.get? m := by
  rw [get?, get?, h]

@[simp] theorem node?_drop_self (t : Tree) {l : Location} (h : l ≠ []) :
    (t.drop l).node? l = none := by
  simp only [node?, h, if_false, drop]
  exact lookup_filter_none t.entries (· != l) (by simp)

@[simp] theorem get?_drop_self (t : Tree) {l : Location} (h : l ≠ []) :
    (t.drop l).get? l = none := by
  simp [get?, h]

theorem node?_drop_other (t : Tree) {l m : Location} (h : m ≠ l) :
    (t.drop l).node? m = t.node? m := by
  by_cases hm : m = []
  · simp [node?, hm]
  · simp only [node?, hm, if_false, drop]
    exact lookup_filter_of t.entries (· != l) (by simpa using h)

theorem get?_drop_other (t : Tree) {l m : Location} (h : m ≠ l) :
    (t.drop l).get? m = t.get? m := get?_of_node? (node?_drop_other t h)

end Tree
end RecordingDelivery
