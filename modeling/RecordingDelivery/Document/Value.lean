import RecordingDelivery.Text.Binary64
import RecordingDelivery.Text.Utf8

/-!
Values as a configuration document or a JSON text holds them. Tables keep their fields in a
list, each name once where a reader made them.
-/
namespace RecordingDelivery

inductive Value
  | null
  | bool (b : Bool)
  | int (i : Int)
  | float (x : Binary64)
  | text (s : String)
  | list (items : List Value)
  | table (fields : List (String × Value))
  deriving Repr, Inhabited

namespace Value

def nameLe (a b : String) : Bool := Bytes.le (Bytes.ofText a) (Bytes.ofText b)

/-- Puts a field where its name belongs; a field of that name is replaced. -/
def insertField (name : String) (v : Value) : List (String × Value) → List (String × Value)
  | [] => [(name, v)]
  | (n, w) :: rest =>
    if name = n then (name, v) :: rest
    else if nameLe name n then (name, v) :: (n, w) :: rest
    else (n, w) :: insertField name v rest

/-- A table with its fields in order of their names, the last one of each name kept. -/
def tableOf (fields : List (String × Value)) : Value :=
  .table (fields.foldl (fun acc f => insertField f.1 f.2 acc) [])

def field? (v : Value) (name : String) : Option Value :=
  match v with
  | .table fields => fields.lookup name
  | _ => none

mutual

/-- Whether all whole numbers in a value lie in a half-open range. -/
def integersWithin (low high : Int) : Value → Bool
  | .int i => low ≤ i && i < high
  | .list items => itemsWithin low high items
  | .table fields => fieldsWithin low high fields
  | _ => true

def itemsWithin (low high : Int) : List Value → Bool
  | [] => true
  | v :: rest => integersWithin low high v && itemsWithin low high rest

def fieldsWithin (low high : Int) : List (String × Value) → Bool
  | [] => true
  | (_, v) :: rest => integersWithin low high v && fieldsWithin low high rest

end

end Value
end RecordingDelivery
