import RecordingDelivery.Document.Toml.Statement

/-!
From statements to the value of a document. Each table remembers how it came to be: by a header of its
own, on the way to another header, or by a dotted key; no table is defined twice.
-/
namespace RecordingDelivery.Toml

inductive Origin
  | header | implied | dotted
  deriving DecidableEq, Repr

/-- What stands under a name: something complete, a table that may grow, or an array of tables whose
last element, the first in the list, may grow. -/
inductive Node
  | closed (v : Value)
  | table (origin : Origin) (fields : List (String × Node))
  | tables (last : List (String × Node)) (earlier : List (List (String × Node)))
  deriving Inhabited

abbrev Fields := List (String × Node)

def setField (name : String) (n : Node) : Fields → Fields
  | [] => [(name, n)]
  | (m, old) :: rest => if m = name then (m, n) :: rest else (m, old) :: setField name n rest

/-- Changes the table at a path; missing tables on the way are made. Dotted keys do not enter a table
that has a header. -/
def within (dotted : Bool) (change : Origin → Fields → Option Fields) :
    Key → Origin → Fields → Option Fields
  | [], origin, fields => change origin fields
  | name :: path, _, fields =>
    match fields.lookup name with
    | none => do
      let origin := if dotted then Origin.dotted else .implied
      let inner ← within dotted change path origin []
      some (setField name (.table origin inner) fields)
    | some (.table origin inner) =>
      if dotted ∧ origin = .header then none
      else do
        let inner ← within dotted change path origin inner
        some (setField name (.table origin inner) fields)
    | some (.tables last earlier) => do
      let inner ← within dotted change path .header last
      some (setField name (.tables inner earlier) fields)
    | some (.closed _) => none

/-- Adds a field that was not there. A table grows by dotted keys only if these have made it. -/
def addField (dotted : Bool) (name : String) (v : Value) (origin : Origin) (fields : Fields) :
    Option Fields :=
  if decide (origin = .dotted) != dotted then none
  else match fields.lookup name with
    | some _ => none
    | none => some (setField name (.closed v) fields)

def addPair (key : Key) (v : Value) (origin : Origin) (fields : Fields) : Option Fields :=
  match key.getLast? with
  | none => none
  | some name =>
    let path := key.dropLast
    within (! path.isEmpty) (addField (! path.isEmpty) name v) path origin fields

def openTable (name : String) (_ : Origin) (fields : Fields) : Option Fields :=
  match fields.lookup name with
  | none => some (setField name (.table .header []) fields)
  | some (.table .implied inner) => some (setField name (.table .header inner) fields)
  | some _ => none

def openElement (name : String) (_ : Origin) (fields : Fields) : Option Fields :=
  match fields.lookup name with
  | none => some (setField name (.tables [] []) fields)
  | some (.tables last earlier) => some (setField name (.tables [] (last :: earlier)) fields)
  | some _ => none

mutual

def Node.toValue : Node → Value
  | .closed v => v
  | .table _ fields => Value.tableOf (fieldValues fields)
  | .tables last earlier =>
    .list ((elementValues earlier).reverse ++ [Value.tableOf (fieldValues last)])

def fieldValues : List (String × Node) → List (String × Value)
  | [] => []
  | (name, n) :: rest => (name, n.toValue) :: fieldValues rest

def elementValues : List (List (String × Node)) → List Value
  | [] => []
  | fields :: rest => Value.tableOf (fieldValues fields) :: elementValues rest

end

mutual

/-- The value of a term, if no inline table in it defines anything twice. -/
def Term.toValue? : Term → Option Value
  | .value v => some v
  | .array items => do return .list (← itemValues? items)
  | .inline pairs => do
    let fields ← inlineFields? pairs []
    return Value.tableOf (fieldValues fields)

def itemValues? : List Term → Option (List Value)
  | [] => some []
  | t :: rest => do return (← t.toValue?) :: (← itemValues? rest)

def inlineFields? : List (Key × Term) → Fields → Option Fields
  | [], fields => some fields
  | (key, t) :: rest, fields => do
    let fields ← addPair key (← t.toValue?) .header fields
    inlineFields? rest fields

end

/-- A document so far and the table that its pairs go to. -/
structure State where
  root : Fields := []
  current : Key := []
  deriving Inhabited

def State.apply (s : State) : Statement → Option State
  | .pair key term => do
    let v ← term.toValue?
    let root ← within false (addPair key v) s.current .header s.root
    return { s with root }
  | .table path => do
    let name ← path.getLast?
    let root ← within false (openTable name) path.dropLast .header s.root
    return { root, current := path }
  | .element path => do
    let name ← path.getLast?
    let root ← within false (openElement name) path.dropLast .header s.root
    return { root, current := path }

def parse? (text : String) : Option Value := do
  let final ← (← statements? text).foldlM State.apply {}
  return Value.tableOf (fieldValues final.root)

end RecordingDelivery.Toml
