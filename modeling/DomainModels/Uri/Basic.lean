import DomainModels.Uri.Host

/-!
Uniform resource identifiers.

`Uri.parse` takes a text apart. A path that does not start with a slash is opaque; in any other path
the segments `.` and `..` are resolved. What may not stand in a path or in a fragment is escaped,
and escapes that are there already are kept as they are written.
-/

namespace DomainModels

/-- The parts of a URI. The path and the fragment are escaped. -/
structure Uri where
  scheme : List Char
  hasCredentials : Bool
  portNumber : Option Nat
  path : List Char
  query : Option (List Char)
  fragment : Option (List Char)
  deriving DecidableEq, Repr

namespace Uri

/-! ## Schemes -/

def isSchemeChar (c : Char) : Bool := c.isAlphanum || c = '+' || c = '-' || c = '.'

/-- The scheme of a text, in lower case, and what follows its colon. -/
def cutScheme (text : List Char) : Option (List Char × List Char) :=
  let scheme := text.takeWhile isSchemeChar
  match text.dropWhile isSchemeChar with
  | ':' :: rest =>
    if scheme.head?.any Char.isAlpha then some (scheme.map Char.toLower, rest) else none
  | _ => none

/-- Schemes whose texts always name a host. -/
def isSpecial (scheme : List Char) : Bool :=
  ["http", "https", "ws", "wss", "ftp"].contains (String.ofList scheme)

/-! ## Escapes -/

/-- Characters that an opaque path keeps. -/
def isOpaqueChar (c : Char) : Bool := ' ' ≤ c && c ≤ '~'

/-- Characters that a fragment keeps. -/
def isFragmentChar (c : Char) : Bool := isOpaqueChar c && !" \"<>`".toList.contains c

/-- Characters that the segments of a path keep. -/
def isPathChar (c : Char) : Bool := isFragmentChar c && !"#?\x7b\x7d".toList.contains c

/-! ## Paths -/

/-- The start of a segment that names a drive, as `C:` does. It is never removed. -/
def isDrive (segment : List Char) : Bool :=
  match segment with
  | [letter, mark] => letter.isAlpha && (mark = ':' || mark = '|')
  | _ => false

/-- A segment with its escaped points written out, in lower case. -/
def plainPoints : List Char → List Char
  | '%' :: '2' :: e :: rest =>
    if e = 'e' ∨ e = 'E' then '.' :: plainPoints rest else '%' :: '2' :: plainPoints (e :: rest)
  | c :: rest => c :: plainPoints rest
  | [] => []

/-- Leaves the innermost segment, unless it names a drive. The list starts with that segment. -/
def shorten : List (List Char) → List (List Char)
  | [] => []
  | segment :: outer => if isDrive segment then segment :: outer else outer

/-- Resolves points among segments; the list `outer` starts with the innermost one so far. -/
def resolve (outer : List (List Char)) : List (List Char) → List (List Char)
  | [] => outer.reverse
  | [segment] =>
    match plainPoints segment with
    | ['.', '.'] => ([] :: shorten outer).reverse
    | ['.'] => ([] :: outer).reverse
    | _ => (segment :: outer).reverse
  | segment :: rest =>
    match plainPoints segment with
    | ['.', '.'] => resolve (shorten outer) rest
    | ['.'] => resolve outer rest
    | _ => resolve (segment :: outer) rest

/-- The path after its first slash, with its points resolved. -/
def rootedPath (rest : List Char) : List Char :=
  let segments := (Text.cutAll '/' rest).map (Percent.escape isPathChar)
  (resolve [] segments).flatMap fun segment => '/' :: segment

/-! ## Authorities -/

/-- Characters at which an authority ends. -/
def endsAuthority (special : Bool) (c : Char) : Bool :=
  c = '/' || c = '?' || c = '#' || (special && c = '\\')

/-- The host at the start of a text. Colons inside of brackets do not end it. -/
def takeHost (special : Bool) (bracketed : Bool) : List Char → List Char × List Char
  | [] => ([], [])
  | c :: rest =>
    if endsAuthority special c || (c = ':' && !bracketed) then ([], c :: rest)
    else
      let bracketed := c = '[' || (bracketed && c ≠ ']')
      let (host, rest) := takeHost special bracketed rest
      (c :: host, rest)

/-- The number after the colon that ends a host. -/
def readPort : Option Nat → List Char → Except Fault (Option Nat × List Char)
  | number, [] => .ok (number, [])
  | number, c :: rest =>
    if c.isDigit then
      let next := number.getD 0 * 10 + (c.toNat - '0'.toNat)
      if next < 65536 then readPort (some next) rest else .error .badPort
    else if endsAuthority true c then .ok (number, c :: rest)
    else .error .badPort

/-- What stands before the host: whether it names a user or a password, and the rest. -/
def readCredentials (special : Bool) (text : List Char) : Except Fault (Bool × List Char) :=
  let authority := text.takeWhile fun c => !endsAuthority special c
  let after := text.dropWhile fun c => !endsAuthority special c
  match Text.cutLast '@' authority with
  | none => .ok (false, text)
  | some ([], host) =>
    if host.isEmpty && !after.isEmpty then .error .emptyHost else .ok (false, host ++ after)
  | some (credentials, host) => .ok (credentials != [':'], host ++ after)

/-- The authority of a URI: whether it has credentials, the number after its host, and the rest. -/
def readAuthority (special : Bool) (text : List Char) :
    Except Fault (Bool × Option Nat × List Char) := do
  let (hasCredentials, rest) ← readCredentials special text
  let (host, rest) := takeHost special false rest
  if special && host.isEmpty then .error .emptyHost
  if special then checkDomain host else checkOpaqueHost host
  let (portNumber, rest) ← match rest with
    | ':' :: rest => if host.isEmpty then .error .emptyHost else readPort none rest
    | _ => pure (none, rest)
  if host.isEmpty && hasCredentials then .error .emptyHost
  .ok (hasCredentials, portNumber, rest)

/-! ## Whole texts -/

/-- The query and the fragment that follow a path. -/
def cutTail (text : List Char) : List Char × Option (List Char) × Option (List Char) :=
  let (front, fragment) := match Text.cutFirst '#' text with
    | some (front, fragment) => (front, some (Percent.escape isFragmentChar fragment))
    | none => (text, none)
  match Text.cutFirst '?' front with
  | some (path, query) => (path, some query, fragment)
  | none => (front, none, fragment)

/-- The path after an authority, which starts with a slash unless it is empty. -/
def pathAfterAuthority : List Char → List Char
  | [] => []
  | '/' :: rest => rootedPath rest
  | path => rootedPath path

/-- What follows the scheme of a text. -/
def readRest (scheme rest : List Char) : Except Fault Uri :=
  match rest with
  | '/' :: '/' :: rest => do
    let (hasCredentials, portNumber, rest) ← readAuthority false rest
    let (path, query, fragment) := cutTail rest
    .ok ⟨scheme, hasCredentials, portNumber, pathAfterAuthority path, query, fragment⟩
  | '/' :: rest =>
    let (path, query, fragment) := cutTail rest
    .ok ⟨scheme, false, none, rootedPath path, query, fragment⟩
  | _ =>
    let (path, query, fragment) := cutTail rest
    .ok ⟨scheme, false, none, Percent.escape isOpaqueChar path, query, fragment⟩

/-- A text without the blanks and controls around it, and without tabs and line ends. -/
def clean (text : List Char) : List Char :=
  let isBlank (c : Char) : Bool := c ≤ ' '
  let trimmed := ((text.dropWhile isBlank).reverse.dropWhile isBlank).reverse
  trimmed.filter fun c => c ≠ '\t' && c ≠ '\n' && c ≠ '\r'

def isSlash (c : Char) : Bool := c = '/' || c = '\\'

/-- Checks the host of a file, which may be absent or a drive. -/
def checkFileHost (rest : List Char) : Except Fault Unit :=
  match rest with
  | a :: b :: rest =>
    if isSlash a && isSlash b then
      let host := rest.takeWhile fun c => !endsAuthority true c
      if host.isEmpty || isDrive host then .ok () else checkDomain host
    else .ok ()
  | _ => .ok ()

/-- Reads a URI. Of texts with a special scheme the host is checked, and the path is kept as it
is. -/
def parse (text : String) : Except Fault Uri :=
  match cutScheme (clean text.toList) with
  | none => .error .noScheme
  | some (scheme, rest) =>
    if isSpecial scheme then do
      let (hasCredentials, portNumber, rest) ← readAuthority true (rest.dropWhile isSlash)
      let (path, query, fragment) := cutTail rest
      .ok ⟨scheme, hasCredentials, portNumber, path, query, fragment⟩
    else if scheme = "file".toList then do
      checkFileHost rest
      let (path, query, fragment) := cutTail rest
      .ok ⟨scheme, false, none, path, query, fragment⟩
    else readRest scheme rest

end Uri

end DomainModels
