import RecordingDelivery.Text.Digits

/-!
Quoted texts of TOML: with escapes or literally, on one line or on several. All of them are read up
to and including their closing quotes.
-/
namespace RecordingDelivery.Toml

def isControl (c : Char) : Bool := (c.toNat < 0x20 && c != '\t') || c.toNat == 0x7F

def isSpace (c : Char) : Bool := c == ' ' || c == '\t'

def scalar? (count : Nat) (s : List Char) : Option (Char × List Char) :=
  let front := s.take count
  if front.length = count ∧ front.all (Digits.isDigitOf 16) = true then
    let n := Digits.number 16 front
    if n < 0xD800 ∨ (0xE000 ≤ n ∧ n < 0x110000) then some (Char.ofNat n, s.drop count) else none
  else none

def escape? : List Char → Option (Char × List Char)
  | 'b' :: rest => some ('\x08', rest)
  | 't' :: rest => some ('\t', rest)
  | 'n' :: rest => some ('\n', rest)
  | 'f' :: rest => some ('\x0c', rest)
  | 'r' :: rest => some ('\r', rest)
  | 'e' :: rest => some ('\x1b', rest)
  | '"' :: rest => some ('"', rest)
  | '\\' :: rest => some ('\\', rest)
  | 'x' :: rest => scalar? 2 rest
  | 'u' :: rest => scalar? 4 rest
  | 'U' :: rest => scalar? 8 rest
  | _ => none

def basic? : Nat → List Char → Option (List Char × List Char)
  | 0, _ => none
  | _ + 1, [] => none
  | fuel + 1, c :: rest =>
    if c = '"' then some ([], rest)
    else if c = '\\' then do
      let (d, rest) ← escape? rest
      let (s, rest) ← basic? fuel rest
      some (d :: s, rest)
    else if isControl c then none
    else do
      let (s, rest) ← basic? fuel rest
      some (c :: s, rest)

def literal? : List Char → Option (List Char × List Char)
  | [] => none
  | c :: rest =>
    if c = '\'' then some ([], rest)
    else if isControl c then none
    else do
      let (s, rest) ← literal? rest
      some (c :: s, rest)

/-- A line break right behind the opening quotes does not count. -/
def dropBreak : List Char → List Char
  | '\n' :: rest => rest
  | '\r' :: '\n' :: rest => rest
  | s => s

def dropLines : List Char → List Char
  | '\r' :: '\n' :: rest => dropLines rest
  | c :: rest => if isSpace c || c == '\n' then dropLines rest else c :: rest
  | [] => []

/-- The text behind a backslash at the end of a line. -/
def continuation? (s : List Char) : Option (List Char) :=
  match s.dropWhile isSpace with
  | '\n' :: rest | '\r' :: '\n' :: rest => some (dropLines rest)
  | _ => none

/-- The text of several lines up to three quotes; up to two more before these belong to it. -/
def multiline? (quote : Char) (escapes : Bool) : Nat → List Char → Option (List Char × List Char)
  | 0, _ => none
  | fuel + 1, s =>
    match s with
    | [] => none
    | '\r' :: '\n' :: rest => do
      let (t, rest) ← multiline? quote escapes fuel rest
      some ('\r' :: '\n' :: t, rest)
    | c :: rest =>
      if c = quote then
        let run := (s.takeWhile (· == quote)).length
        if 3 ≤ run then some (List.replicate (min run 5 - 3) quote, s.drop (min run 5))
        else do
          let (t, rest) ← multiline? quote escapes fuel (s.drop run)
          some (List.replicate run quote ++ t, rest)
      else if c = '\\' ∧ escapes = true then
        match continuation? rest with
        | some rest => multiline? quote escapes fuel rest
        | none => do
          let (d, rest) ← escape? rest
          let (t, rest) ← multiline? quote escapes fuel rest
          some (d :: t, rest)
      else if isControl c ∧ c ≠ '\n' then none
      else do
        let (t, rest) ← multiline? quote escapes fuel rest
        some (c :: t, rest)

def singleLine? (s : List Char) : Option (String × List Char) :=
  let r := match s with
    | '"' :: rest => basic? s.length rest
    | '\'' :: rest => literal? rest
    | _ => none
  r.map fun (t, rest) => (String.ofList t, rest)

def quotation? (s : List Char) : Option (String × List Char) :=
  match s with
  | '"' :: '"' :: '"' :: rest =>
    (multiline? '"' true s.length (dropBreak rest)).map fun (t, rest) => (String.ofList t, rest)
  | '\'' :: '\'' :: '\'' :: rest =>
    (multiline? '\'' false s.length (dropBreak rest)).map fun (t, rest) => (String.ofList t, rest)
  | _ => singleLine? s

end RecordingDelivery.Toml
