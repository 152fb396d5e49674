import RecordingDelivery.Text.Alphanumeric
import RecordingDelivery.Text.Blank
import RecordingDelivery.Text.Digits

/-!
Regular expressions with which the values of fields are compared. Here only the question counts which
texts are expressions. The classes that need tables of characters and the borders of words are not
supported unless the expression is limited to bytes, and repetitions with a count never are.
-/
namespace RecordingDelivery.Pattern

structure Flags where
  /-- Characters count, not bytes. -/
  unicode : Bool := true
  /-- The case of letters does not count. -/
  folded : Bool := false
  /-- Blanks and comments do not count. -/
  spaced : Bool := false
  deriving DecidableEq, Repr

def Flags.set (f : Flags) (flag : Char) (on : Bool) : Flags :=
  match flag with
  | 'u' => { f with unicode := on }
  | 'i' => { f with folded := on }
  | 'x' => { f with spaced := on }
  | _ => f

/-- Letters without regard to case need a table, except in bytes. -/
def Flags.admitLetters (f : Flags) : Bool := ! (f.folded && f.unicode)

/-- What is behind blanks and comments, where these do not count. -/
def skip (f : Flags) (s : List Char) : List Char :=
  if f.spaced then go false s else s
where
  go (inComment : Bool) : List Char → List Char
    | [] => []
    | c :: rest =>
      if inComment then go (c != '\n') rest
      else if c = '#' then go true rest
      else if Blank.isBlank c then go false rest
      else c :: rest

/-- What can stand for one character, or at a place between two. -/
inductive Atom
  | literal (c : Char) | set | position
  deriving DecidableEq, Repr

def escapes : List (Char × Char) :=
  [('a', '\x07'), ('f', '\x0c'), ('t', '\t'), ('n', '\n'), ('r', '\r'), ('v', '\x0b')]

def hex? (f : Flags) (isByte : Bool) : Nat → Nat → List Char → Option (Atom × List Char)
  | 0, n, s =>
    if isByte && ! f.unicode && 0x80 ≤ n then none
    else if n < 0xD800 || (0xE000 ≤ n && n < 0x110000) then some (.literal (Char.ofNat n), skip f s)
    else none
  | count + 1, n, s =>
    match skip f s with
    | c :: rest => (Digits.value? c).bind fun v => hex? f isByte count (16 * n + v) rest
    | [] => none

def escape? (f : Flags) : List Char → Option (Atom × List Char)
  | [] => none
  | 'x' :: rest => hex? f true 2 0 rest
  | 'u' :: rest => hex? f false 4 0 rest
  | 'U' :: rest => hex? f false 8 0 rest
  | c :: rest =>
    if "dsw".toList.contains c then if f.unicode then none else some (.set, rest)
    else if "bB<>".toList.contains c then if f.unicode then none else some (.position, rest)
    else if "Az".toList.contains c then some (.position, rest)
    else match escapes.lookup c with
      | some d => some (.literal d, rest)
      | none => if c.toNat < 0x80 && ! c.isAlphanum then some (.literal c, rest) else none

def classItem? (f : Flags) : List Char → Option (Atom × List Char)
  | '\\' :: rest => escape? f rest
  | c :: rest => some (.literal c, rest)
  | [] => none

/-- Within bytes a class holds no other characters. -/
def fits (f : Flags) : Atom → Bool
  | .literal c => f.unicode || c.toNat < 0x80
  | .set => true
  | .position => false

def classRange? (f : Flags) (s : List Char) : Option (List Char) := do
  let (first, rest) ← classItem? f s
  let rest := skip f rest
  match rest with
  | '-' :: more =>
    let more := skip f more
    match more with
    | [] => none
    | ']' :: _ | '-' :: _ => if fits f first then some rest else none
    | _ =>
      match first, ← classItem? f more with
      | .literal a, (.literal b, rest) =>
        if a ≤ b && fits f first && fits f (.literal b) then some rest else none
      | _, _ => none
  | _ => if fits f first then some rest else none

def asciiClasses : List String :=
  ["alnum", "alpha", "ascii", "blank", "cntrl", "digit", "graph", "lower", "print", "punct", "space",
   "upper", "word", "xdigit"]

def asciiClass? : List Char → Option (Bool × List Char)
  | ':' :: s =>
    let (negated, s) := match s with
      | '^' :: rest => (true, rest)
      | rest => (false, rest)
    let name := s.takeWhile (· != ':')
    match s.dropWhile (· != ':') with
    | ':' :: ']' :: rest =>
      if asciiClasses.contains (String.ofList name) then some (negated, rest) else none
    | _ => none
  | _ => none

def dropDashes (f : Flags) : Nat → List Char → List Char
  | fuel + 1, '-' :: rest => dropDashes f fuel (skip f rest)
  | _, s => s

/-- The start of a class behind its bracket: a mark that turns it round, and dashes or a closing bracket
that stand for themselves. -/
def classStart? (f : Flags) (s : List Char) : Option (List Char) :=
  let (negated, s) := match skip f s with
    | '^' :: rest => (true, skip f rest)
    | rest => (false, rest)
  if negated && ! f.unicode then none
  else match s with
    | ']' :: rest => some rest
    | s => some (dropDashes f s.length s)

/-- A class from behind its start, with so many classes open around it. -/
def classBody? (f : Flags) : Nat → Nat → List Char → Option (List Char)
  | 0, _, _ => none
  | fuel + 1, depth, s =>
    match skip f s with
    | '[' :: rest =>
      match asciiClass? rest with
      | some (negated, rest) =>
        if negated && ! f.unicode then none else classBody? f fuel depth rest
      | none => (classStart? f rest).bind (classBody? f fuel (depth + 1))
    | ']' :: rest =>
      match depth with
      | 0 => some rest
      | depth + 1 => classBody? f fuel depth rest
    | '&' :: '&' :: rest | '-' :: '-' :: rest | '~' :: '~' :: rest => classBody? f fuel depth rest
    | s => (classRange? f s).bind (classBody? f fuel depth)

def class? (f : Flags) (s : List Char) : Option (List Char) :=
  if f.admitLetters then (classStart? f s).bind (classBody? f (s.length + 1) 0) else none

/-- Flags up to a colon or a closing bracket: each once, behind a dash those to be taken away. -/
def flags? (f : Flags) (seen : List Char) : List Char → Option (Flags × List Char × List Char)
  | [] => none
  | c :: rest =>
    if c = ':' || c = ')' then
      if seen.head? = some '-' then none else some (f, seen, c :: rest)
    else if seen.contains c || ! "imsUuRx-".toList.contains c then none
    else flags? (f.set c (! seen.contains '-')) (c :: seen) rest

def isNameChar (isFirst : Bool) (c : Char) : Bool :=
  c = '_' || (if isFirst then Alphanumeric.isAlphabetic c
    else ".[]".toList.contains c || Alphanumeric.isAlphanumeric c)

def name? (s : List Char) : Option (List Char × List Char) :=
  match s.takeWhile (· != '>'), s.dropWhile (· != '>') with
  | c :: name, _ :: rest =>
    if isNameChar true c && name.all (isNameChar false) then some (c :: name, rest) else none
  | _, _ => none

/-- How far an expression has been read: its settings and those around the open groups, whether there
is something to repeat, and the names that are taken. -/
structure Progress where
  flags : Flags := {}
  outer : List Flags := []
  repeatable : Bool := false
  names : List (List Char) := []
  deriving Repr

namespace Progress

def opened (p : Progress) (flags : Flags) : Progress :=
  { p with flags, outer := p.flags :: p.outer, repeatable := false }

def named (p : Progress) (s : List Char) : Option (Progress × List Char) := do
  let (name, rest) ← name? s
  if p.names.contains name then none
  else some ({ p.opened p.flags with names := name :: p.names }, rest)

def group? (p : Progress) (s : List Char) : Option (Progress × List Char) :=
  match skip p.flags s with
  | '?' :: 'P' :: '<' :: rest => p.named rest
  | '?' :: '<' :: '!' :: _ => none
  | '?' :: '<' :: rest => p.named rest
  | '?' :: rest =>
    match flags? p.flags [] rest with
    | some (flags, _, ':' :: rest) => some (p.opened flags, rest)
    | some (flags, seen, _ :: rest) =>
      if seen.isEmpty then none else some ({ p with flags, repeatable := false }, rest)
    | _ => none
  | s => some (p.opened p.flags, s)

def closed? (p : Progress) : Option Progress :=
  match p.outer with
  | [] => none
  | flags :: outer => some { p with flags, outer, repeatable := true }

def item (p : Progress) : Progress := { p with repeatable := true }

def atom? (p : Progress) : Atom → Option Progress
  | .literal _ => if p.flags.admitLetters then some p.item else none
  | .set | .position => some p.item

def step? (p : Progress) : List Char → Option (Progress × List Char)
  | '(' :: rest => p.group? rest
  | ')' :: rest => p.closed?.map (·, rest)
  | '|' :: rest => some ({ p with repeatable := false }, rest)
  | '[' :: rest => (class? p.flags rest).map (p.item, ·)
  | '\\' :: rest => do
    let (a, rest) ← escape? p.flags rest
    return (← p.atom? a, rest)
  | '^' :: rest | '$' :: rest => some (p.item, rest)
  | '.' :: rest => if p.flags.unicode then some (p.item, rest) else none
  | '\x7b' :: _ => none
  | c :: rest =>
    if "?*+".toList.contains c then
      if p.repeatable then some (p, if rest.head? = some '?' then rest.drop 1 else rest) else none
    else (p.atom? (.literal c)).map (·, rest)
  | [] => none

def run (p : Progress) : Nat → List Char → Bool
  | 0, _ => false
  | fuel + 1, s =>
    match skip p.flags s with
    | [] => p.outer.isEmpty
    | s =>
      match p.step? s with
      | some (p, rest) => run p fuel rest
      | none => false

end Progress

def isPattern (s : List Char) : Bool := ({} : Progress).run (s.length + 1) s

/-- A number with a plus sign, which would be no expression. -/
def isPlusNumber : List Char → Bool
  | '+' :: s =>
    let (whole, rest) := Digits.run s
    let (places, rest) := match rest with
      | '.' :: rest => Digits.run rest
      | rest => ([], rest)
    let word := String.ofList (s.map Char.toLower)
    if whole.isEmpty && places.isEmpty then
      word = "inf" || word = "infinity" || word = "nan"
    else match rest with
      | [] => true
      | c :: rest =>
        let rest := match rest with
          | '+' :: rest | '-' :: rest => rest
          | rest => rest
        c.toLower = 'e' && (Digits.natural? rest).isSome
  | _ => false

/-- What a value can be compared with: a number, a truth value or an expression. -/
def isComparable (s : List Char) : Bool := isPlusNumber s || isPattern s

end RecordingDelivery.Pattern
