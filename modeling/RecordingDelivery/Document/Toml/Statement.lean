import RecordingDelivery.Document.Toml.Literal
import RecordingDelivery.Document.Toml.Quotation

/-!
The lines of a TOML document: headers of tables, headers of elements of arrays of tables, and pairs of
a key and a value. Keys are paths; the fields of an inline table are kept as they are written.
-/
namespace RecordingDelivery.Toml

abbrev Key := List String

/-- A value as written. Inline tables still have paths as keys. -/
inductive Term
  | value (v : Value)
  | array (items : List Term)
  | inline (pairs : List (Key × Term))
  deriving Inhabited

inductive Statement
  | table (path : Key)
  | element (path : Key)
  | pair (key : Key) (term : Term)
  deriving Inhabited

def skipSpaces (s : List Char) : List Char := s.dropWhile isSpace

def comment? (s : List Char) : Option (List Char) :=
  let body := s.takeWhile (· != '\n')
  let body := if body.getLast? = some '\r' ∧ s.contains '\n' then body.dropLast else body
  if body.any isControl then none else some (s.drop body.length)

def trailing? (s : List Char) : Option (List Char) :=
  match skipSpaces s with
  | '#' :: rest => comment? rest
  | rest => some rest

def skipLines? : Nat → List Char → Option (List Char)
  | 0, _ => none
  | fuel + 1, s => do
    match ← trailing? s with
    | '\n' :: rest => skipLines? fuel rest
    | '\r' :: '\n' :: rest => skipLines? fuel rest
    | rest => some rest

def between? (s : List Char) : Option (List Char) := skipLines? (s.length + 1) s

def isBare (c : Char) : Bool := c.isAlphanum || c == '_' || c == '-'

def simpleKey? (s : List Char) : Option (String × List Char) :=
  match s with
  | '"' :: _ | '\'' :: _ => singleLine? s
  | _ =>
    let front := s.takeWhile isBare
    if front.isEmpty then none else some (String.ofList front, s.dropWhile isBare)

def keyParts? : Nat → List Char → Option (Key × List Char)
  | 0, _ => none
  | fuel + 1, s => do
    let (part, rest) ← simpleKey? (skipSpaces s)
    match skipSpaces rest with
    | '.' :: rest =>
      let (more, rest) ← keyParts? fuel rest
      some (part :: more, rest)
    | rest => some ([part], rest)

/-- Arrays and inline tables are nested to this depth at most, and keys have no more parts. -/
def nestingLimit : Nat := 80

def key? (s : List Char) : Option (Key × List Char) := keyParts? nestingLimit s

mutual

def term? : Nat → Nat → List Char → Option (Term × List Char)
  | 0, _, _ => none
  | fuel + 1, room, s =>
    match s with
    | '[' :: rest =>
      match room with
      | 0 => none
      | room + 1 => (items? fuel room rest).map fun r => (.array r.1, r.2)
    | '\x7b' :: rest =>
      match room with
      | 0 => none
      | room + 1 => (pairs? fuel room rest).map fun r => (.inline r.1, r.2)
    | '"' :: _ | '\'' :: _ => (quotation? s).map fun r => (.value (.text r.1), r.2)
    | _ =>
      let (front, rest) := splitLiteral s
      (unquoted? front).map fun v => (.value v, rest)

def items? : Nat → Nat → List Char → Option (List Term × List Char)
  | 0, _, _ => none
  | fuel + 1, room, s => do
    match ← between? s with
    | ']' :: rest => some ([], rest)
    | s =>
      let (v, rest) ← term? fuel room s
      match ← between? rest with
      | ',' :: rest =>
        let (more, rest) ← items? fuel room rest
        some (v :: more, rest)
      | ']' :: rest => some ([v], rest)
      | _ => none

def pairs? : Nat → Nat → List Char → Option (List (Key × Term) × List Char)
  | 0, _, _ => none
  | fuel + 1, room, s => do
    match ← between? s with
    | '\x7d' :: rest => some ([], rest)
    | s =>
      let (k, rest) ← key? s
      match rest with
      | '=' :: rest =>
        let (v, rest) ← term? fuel room (skipSpaces rest)
        match ← between? rest with
        | ',' :: rest =>
          let (more, rest) ← pairs? fuel room rest
          some ((k, v) :: more, rest)
        | '\x7d' :: rest => some ([(k, v)], rest)
        | _ => none
      | _ => none

end

def pair? (s : List Char) : Option (Statement × List Char) := do
  let (k, rest) ← key? s
  match rest with
  | '=' :: rest =>
    let (v, rest) ← term? (2 * s.length + 1) nestingLimit (skipSpaces rest)
    some (.pair k v, rest)
  | _ => none

def statement? (s : List Char) : Option (Statement × List Char) :=
  match s with
  | '[' :: '[' :: rest => do
    let (k, rest) ← key? rest
    match rest with
    | ']' :: ']' :: rest => some (.element k, rest)
    | _ => none
  | '[' :: rest => do
    let (k, rest) ← key? rest
    match rest with
    | ']' :: rest => some (.table k, rest)
    | _ => none
  | s => pair? s

def lines? : Nat → List Char → Option (List Statement)
  | 0, _ => none
  | fuel + 1, s => do
    match ← between? s with
    | [] => some []
    | s =>
      let (first, rest) ← statement? s
      match ← trailing? rest with
      | [] => some [first]
      | '\n' :: rest | '\r' :: '\n' :: rest => (lines? fuel rest).map (first :: ·)
      | _ => none

/-- The statements of a document; a byte order mark before them does not count. -/
def statements? (text : String) : Option (List Statement) :=
  let s := match text.toList with
    | '\ufeff' :: rest => rest
    | s => s
  lines? (s.length + 1) s

end RecordingDelivery.Toml
