import RecordingDelivery.Http.Host

/-!
Web addresses. A text is read by itself or against the address at which it was found; dots in its
path are resolved and what a request line cannot hold is escaped.
-/
namespace RecordingDelivery.Http

structure Url where
  secure : Bool := false
  host : String
  socket : Option Nat := none
  path : List String
  query : Option String := none
  deriving DecidableEq, Repr

/-- What a text refers to: a web address, or something that is no page. -/
inductive Reference
  | page (u : Url)
  | foreign
  deriving DecidableEq, Repr

namespace Url

/-- What stands for a resource in a request: path and query. -/
def target (u : Url) : String :=
  String.join (u.path.map ("/" ++ ·)) ++
    match u.query with
    | some q => "?" ++ q
    | none => ""

def escapeByte (b : UInt8) : List Char :=
  ['%', (Digits.hexDigit (b.toNat / 16)).toUpper, (Digits.hexDigit (b.toNat % 16)).toUpper]

def isUnsafe (c : Char) : Bool := c ≤ ' ' || '~' < c || "\"#<>".toList.contains c

def isUnsafeInPath (c : Char) : Bool := isUnsafe c || "?^`\x7b\x7d".toList.contains c

def isUnsafeInQuery (c : Char) : Bool := isUnsafe c || c = '\''

def escape (isUnsafeHere : Char → Bool) (s : List Char) : String :=
  String.ofList (s.flatMap fun c =>
    if isUnsafeHere c then (String.utf8EncodeChar c).flatMap escapeByte else [c])

def isSlash (c : Char) : Bool := c = '/' || c = '\\'

def endsPath (c : Char) : Bool := c = '?' || c = '#'

/-- How many dots a segment is made of, escaped ones included. -/
def dots? : List Char → Option Nat
  | [] => some 0
  | '.' :: rest => (dots? rest).map (· + 1)
  | '%' :: '2' :: c :: rest => if c = 'e' || c = 'E' then (dots? rest).map (· + 1) else none
  | _ => none

/-- The segments of a path behind those of a directory. One dot stays there, two go up. -/
def walk : List String → List (List Char) → List String
  | path, [] => path
  | path, s :: rest =>
    let ending := if rest.isEmpty then [""] else []
    match dots? s with
    | some 1 => walk (path ++ ending) rest
    | some 2 => walk (path.dropLast ++ ending) rest
    | _ => walk (path ++ [escape isUnsafeInPath s]) rest

def segments (s : List Char) : List (List Char) := s.splitOnP isSlash

def queryOf (s : List Char) : Option String :=
  match s with
  | '?' :: rest => some (escape isUnsafeInQuery (rest.takeWhile (· != '#')))
  | _ => none

def below (u : Url) (directory : List String) (s : List Char) : Url :=
  { u with
    path := walk directory (segments (s.takeWhile (! endsPath ·)))
    query := queryOf (s.dropWhile (! endsPath ·)) }

/-- The text before the first colon outside brackets, and what follows the colon. -/
def cutSocket : Bool → List Char → List Char × List Char
  | _, [] => ([], [])
  | inside, c :: rest =>
    if c = ':' && ! inside then ([], rest)
    else
      let (host, socket) := cutSocket (c = '[' || (inside && c != ']')) rest
      (c :: host, socket)

def usualSocket (secure : Bool) : Nat := if secure then 443 else 80

/-- The number of a socket, none where it says nothing new. -/
def socket? (secure : Bool) (s : List Char) : Option (Option Nat) :=
  if s.isEmpty then some none
  else do
    let n ← Digits.natural? s
    if 0x10000 ≤ n then none else some (if n = usualSocket secure then none else some n)

/-- The rest of an address behind its scheme and slashes. A user's name before the host is left
out. -/
def ofAuthority? (secure : Bool) (s : List Char) : Option Url := do
  let isEnd := fun c => isSlash c || endsPath c
  let authority := (s.takeWhile (! isEnd ·)).splitOn '@'
  let (host, socket) := cutSocket false (← authority.getLast?)
  let u : Url :=
    { secure, host := ← Host.read? host, socket := ← socket? secure socket, path := [""] }
  let rest := s.dropWhile (! isEnd ·)
  return u.below [] (if rest.head?.any isSlash then rest.tail else rest)

def resolve? (base : Url) (s : List Char) : Option Url :=
  match s with
  | [] => some base
  | a :: rest =>
    if isSlash a then
      if rest.head?.any isSlash then ofAuthority? base.secure (s.dropWhile isSlash)
      else some (base.below [] rest)
    else if a = '?' then some { base with query := queryOf s }
    else if a = '#' then some base
    else some (base.below base.path.dropLast s)

def isSchemeChar (c : Char) : Bool := c.isAlphanum || c = '+' || c = '-' || c = '.'

def scheme? (s : List Char) : Option (String × List Char) :=
  if s.head?.any Char.isAlpha then
    match s.dropWhile isSchemeChar with
    | ':' :: rest => some (String.ofList ((s.takeWhile isSchemeChar).map Char.toLower), rest)
    | _ => none
  else none

/-- The text without control characters and blanks at its ends, and without line breaks and tabs. -/
def clean (s : List Char) : List Char :=
  let isEdge : Char → Bool := (· ≤ ' ')
  (((s.dropWhile isEdge).reverse.dropWhile isEdge).reverse).filter
    fun c => c != '\t' && c != '\n' && c != '\r'

def ofScheme? (base : Option Url) (secure : Bool) (s : List Char) : Option Url :=
  match base with
  | some b =>
    if b.secure = secure && s.take 2 != ['/', '/'] then b.resolve? s
    else ofAuthority? secure (s.dropWhile isSlash)
  | none => ofAuthority? secure (s.dropWhile isSlash)

def read? (base : Option Url) (text : String) : Option Reference :=
  let s := clean text.toList
  match scheme? s with
  | some ("http", rest) => (ofScheme? base false rest).map .page
  | some ("https", rest) => (ofScheme? base true rest).map .page
  | some _ => some .foreign
  | none => (base.bind (·.resolve? s)).map .page

end Url
end RecordingDelivery.Http
