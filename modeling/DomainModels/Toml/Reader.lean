import DomainModels.Json.Reader

/-!
Reading TOML as JSON trees.

Keys and headers build up a tree of tables. A table remembers how it came about, since a header may
not reopen a table, and a key may not add to one that a header has opened. Dates are kept as texts.
-/

namespace DomainModels.Toml

/-- How a table came about: on the way to another one, by a header, by a dotted key, or between
braces. -/
inductive Origin where
  | passed
  | header
  | dotted
  | braces
  deriving DecidableEq, Repr

/-- A part of a document. -/
inductive Node where
  | leaf (value : Json)
  | table (origin : Origin) (members : List (String × Node))
  | tables (items : List (Origin × List (String × Node)))

abbrev Members : Type := List (String × Node)

mutual

/-- The tree of a part of a document. -/
def Node.toJson : Node → Json
  | .leaf value => value
  | .table _ members => .object (membersToJson members)
  | .tables items => .array (itemsToJson items)

def membersToJson : Members → List (String × Json)
  | [] => []
  | (name, node) :: rest => (name, node.toJson) :: membersToJson rest

def itemsToJson : List (Origin × Members) → List Json
  | [] => []
  | (_, members) :: rest => .object (membersToJson members) :: itemsToJson rest

end

/-- Replaces the part of a name, or adds it at the end. -/
def setNode (name : String) (node : Node) : Members → Members
  | [] => [(name, node)]
  | entry :: rest =>
    if entry.1 = name then (name, node) :: rest else entry :: setNode name node rest

/-! ## Building the tree -/

/-- Enters a value under a dotted key. -/
def enter (members : Members) (value : Node) : (key : List String) → Option Members
  | [] => none
  | [name] => if (members.lookup name).isSome then none else some (setNode name value members)
  | name :: rest =>
    match members.lookup name with
    | none => (enter [] value rest).map fun inner => setNode name (.table .dotted inner) members
    | some (.table .dotted inner) =>
      (enter inner value rest).map fun inner => setNode name (.table .dotted inner) members
    | some _ => none

/-- Changes the table at a path of headers. Tables on the way are made where there are none, and of
several tables the last one is entered. -/
def within (change : Origin → Members → Option (Origin × Members)) (members : Members) :
    (path : List String) → Option Members
  | [] => (change .passed members).map (·.2)
  | name :: rest =>
    let go (origin : Origin) (inner : Members) : Option (Origin × Members) :=
      match rest with
      | [] => change origin inner
      | _ => (within change inner rest).map fun inner => (origin, inner)
    match members.lookup name with
    | none => (go .passed []).map fun (origin, inner) => setNode name (.table origin inner) members
    | some (.table .braces _) => none
    | some (.table origin inner) =>
      (go origin inner).map fun (origin, inner) => setNode name (.table origin inner) members
    | some (.tables items) =>
      match items.getLast? with
      | none => none
      | some (origin, inner) =>
        (go origin inner).map fun last => setNode name (.tables (items.dropLast ++ [last])) members
    | some (.leaf _) => none

/-- Opens a table by its header. -/
def openTable (members : Members) (path : List String) : Option Members :=
  within (fun origin inner => if origin = .passed then some (.header, inner) else none) members path

/-- Adds a table to the tables of a name. -/
def addTable (name : String) (members : Members) : Option Members :=
  match members.lookup name with
  | none => some (setNode name (.tables [(.header, [])]) members)
  | some (.tables items) => some (setNode name (.tables (items ++ [(.header, [])])) members)
  | some _ => none

/-- Opens one more table of an array of tables by its header. -/
def openItem (members : Members) (path : List String) : Option Members :=
  match path.getLast?, path.dropLast with
  | none, _ => none
  | some name, [] => addTable name members
  | some name, front =>
    within (fun origin inner => (addTable name inner).map fun inner => (origin, inner)) members
      front

/-! ## Reading texts -/

/-- A reading step: its value and the text left. -/
abbrev Scan (α : Type) : Type := List Char → Option (α × List Char)

def isBlank (c : Char) : Bool := c = ' ' || c = '\t'

def skipBlanks (cs : List Char) : List Char := cs.dropWhile isBlank

/-- A comment, up to the end of its line. -/
def skipComment (cs : List Char) : List Char :=
  match cs with
  | '#' :: rest => rest.dropWhile (· ≠ '\n')
  | _ => cs

/-- Blanks, comments and line ends. -/
def skipLines : (steps : Nat) → List Char → List Char
  | 0, cs => cs
  | steps + 1, cs =>
    match skipComment (skipBlanks cs) with
    | '\n' :: rest => skipLines steps rest
    | '\r' :: '\n' :: rest => skipLines steps rest
    | rest => rest

/-- The end of a line, after blanks and a comment. -/
def skipLineEnd (cs : List Char) : Option (List Char) :=
  match skipComment (skipBlanks cs) with
  | [] => some []
  | '\n' :: rest => some rest
  | '\r' :: '\n' :: rest => some rest
  | _ => none

/-- The character of an escape with hexadecimal digits. -/
def hexEscape (count : Nat) (cs : List Char) : Option (Char × List Char) := do
  let digits := cs.take count
  if digits.length < count || !digits.all Text.isHexDigit then none
  let code := Text.numeral 16 digits
  if code.isValidChar then some (Char.ofNat code, cs.drop count) else none

/-- The character after a backslash. -/
def scanEscape : Scan Char
  | 'b' :: rest => some ('\x08', rest)
  | 't' :: rest => some ('\t', rest)
  | 'n' :: rest => some ('\n', rest)
  | 'f' :: rest => some ('\x0c', rest)
  | 'r' :: rest => some ('\r', rest)
  | '"' :: rest => some ('"', rest)
  | '\\' :: rest => some ('\\', rest)
  | 'u' :: rest => hexEscape 4 rest
  | 'U' :: rest => hexEscape 8 rest
  | _ => none

def isControl (c : Char) : Bool := (c < ' ' && c ≠ '\t') || c = '\x7f'

/-- The rest of a text on one line, up to its closing quote. -/
def scanLine (quote : Char) (escapes : Bool) : (steps : Nat) → Scan (List Char)
  | 0, _ => none
  | steps + 1, cs =>
    match cs with
    | [] => none
    | c :: rest =>
      if c = quote then some ([], rest)
      else if c = '\\' ∧ escapes then do
        let (d, rest) ← scanEscape rest
        let (text, rest) ← scanLine quote escapes steps rest
        some (d :: text, rest)
      else if isControl c then none
      else do
        let (text, rest) ← scanLine quote escapes steps rest
        some (c :: text, rest)

/-- Blanks and line ends after a backslash at the end of a line. -/
def skipFolded (cs : List Char) : Option (List Char) :=
  match skipBlanks cs with
  | '\n' :: rest => some (rest.dropWhile fun c => isBlank c || c = '\n' || c = '\r')
  | '\r' :: '\n' :: rest => some (rest.dropWhile fun c => isBlank c || c = '\n' || c = '\r')
  | _ => none

/-- The rest of a text on several lines, up to three quotes; more quotes before these are part of
the text. -/
def scanLines (quote : Char) (escapes : Bool) : (steps : Nat) → Scan (List Char)
  | 0, _ => none
  | steps + 1, cs =>
    match cs with
    | [] => none
    | c :: rest =>
      let quotes := cs.takeWhile (· = quote)
      if 3 ≤ quotes.length then
        if quotes.length ≤ 5 then some (quotes.drop 3, cs.drop quotes.length) else none
      else if c = '\\' ∧ escapes then
        match skipFolded rest with
        | some rest => scanLines quote escapes steps rest
        | none => do
          let (d, rest) ← scanEscape rest
          let (text, rest) ← scanLines quote escapes steps rest
          some (d :: text, rest)
      else if isControl c ∧ c ≠ '\n' ∧ c ≠ '\r' then none
      else do
        let (text, rest) ← scanLines quote escapes steps rest
        some (c :: text, rest)

/-- A text between quotes of any kind. A line end right after three quotes is not part of it. -/
def scanText (cs : List Char) : Option (String × List Char) :=
  let steps := cs.length + 1
  let lines (quote : Char) (rest : List Char) : Option (String × List Char) :=
    let rest := match rest with
      | '\n' :: rest => rest
      | '\r' :: '\n' :: rest => rest
      | _ => rest
    (scanLines quote (quote = '"') steps rest).map fun (text, rest) => (String.ofList text, rest)
  match cs with
  | '"' :: '"' :: '"' :: rest => lines '"' rest
  | '\'' :: '\'' :: '\'' :: rest => lines '\'' rest
  | '"' :: rest => (scanLine '"' true steps rest).map fun (text, rest) => (String.ofList text, rest)
  | '\'' :: rest =>
    (scanLine '\'' false steps rest).map fun (text, rest) => (String.ofList text, rest)
  | _ => none

/-! ## Keys and values -/

def isBareChar (c : Char) : Bool := c.isAlphanum || c = '_' || c = '-'

/-- One part of a key. -/
def scanKeyPart : Scan String := fun cs =>
  match cs with
  | '"' :: '"' :: '"' :: _ | '\'' :: '\'' :: '\'' :: _ => none
  | '"' :: _ | '\'' :: _ => scanText cs
  | _ =>
    let bare := cs.takeWhile isBareChar
    if bare.isEmpty then none else some (String.ofList bare, cs.dropWhile isBareChar)

/-- A key, whose parts are joined by points. -/
def scanKey : (steps : Nat) → Scan (List String)
  | 0, _ => none
  | steps + 1, cs => do
    let (part, rest) ← scanKeyPart (skipBlanks cs)
    match skipBlanks rest with
    | '.' :: rest =>
      let (parts, rest) ← scanKey steps rest
      some (part :: parts, rest)
    | rest => some ([part], rest)

/-- Characters of numbers, dates and words. -/
def isWordChar (c : Char) : Bool := isBareChar c || c = '+' || c = '.' || c = ':'

/-- Digits with underscores between them, without the underscores. -/
def plainDigits (isDigit : Char → Bool) (cs : List Char) : Option (List Char) :=
  match cs with
  | [] => none
  | c :: rest =>
    if !isDigit c then none
    else
      match rest with
      | [] => some [c]
      | '_' :: d :: more =>
        if isDigit d then (plainDigits isDigit (d :: more)).map (c :: ·) else none
      | more => (plainDigits isDigit more).map (c :: ·)

/-- An integer in a base other than ten. -/
def basedInteger? : List Char → Option Int
  | '0' :: 'x' :: digits => do
    let digits ← plainDigits Text.isHexDigit digits
    some (Text.numeral 16 digits)
  | '0' :: 'o' :: digits => do
    let digits ← plainDigits Text.isOctalDigit digits
    some (Text.numeral 8 digits)
  | '0' :: 'b' :: digits => do
    let digits ← plainDigits Text.isBinaryDigit digits
    some (Text.numeral 2 digits)
  | _ => none

/-- Whether every underscore stands between two digits. -/
def underscoresFit : List Char → Bool
  | a :: '_' :: b :: rest => a.isDigit && b.isDigit && underscoresFit (b :: rest)
  | ['_'] | [_, '_'] => false
  | '_' :: _ => false
  | _ :: rest => underscoresFit rest
  | [] => true

/-- A decimal number. -/
def decimal? (word : List Char) : Option Json := do
  let unsigned ← match word with
    | '+' :: c :: rest => if c.isDigit then some (c :: rest) else none
    | _ => some word
  if !underscoresFit unsigned then none
  match Json.parse (String.ofList (unsigned.filter (· ≠ '_'))) with
  | .ok (.number (.int i)) => if isInt64 i then some (.int i) else none
  | .ok (.number (.float x)) => if unsigned = ['-', '0'] then some (.int 0) else some (.float x)
  | _ => none

/-- Whether a word has the shape of a date or a time. -/
def isDate (word : List Char) : Bool :=
  let shape := word.map fun c => if c.isDigit then '0' else c
  "0000-00-00".toList.isPrefixOf shape || "00:00".toList.isPrefixOf shape

/-- A word that is no text: a flag, a number or a date. -/
def wordValue? (word : List Char) : Option Json :=
  match String.ofList word with
  | "true" => some (.bool true)
  | "false" => some (.bool false)
  | "inf" | "+inf" => some (.float (1.0 / 0.0))
  | "-inf" => some (.float (-1.0 / 0.0))
  | "nan" | "+nan" | "-nan" => some (.float (0.0 / 0.0))
  | text =>
    if isDate word then some (.string text)
    else
      match basedInteger? word with
      | some i => if isInt64 i then some (.int i) else none
      | none => decimal? word

mutual

/-- A value. -/
def scanValue : (depth : Nat) → Scan Node
  | 0, _ => none
  | depth + 1, cs =>
    match cs with
    | '"' :: _ | '\'' :: _ => (scanText cs).map fun (text, rest) => (.leaf (.string text), rest)
    | '[' :: rest =>
      (scanItems depth (skipLines rest.length rest)).map fun (items, rest) =>
        (.leaf (.array items), rest)
    | '\x7b' :: rest =>
      match skipBlanks rest with
      | '\x7d' :: rest => some (.table .braces [], rest)
      | rest =>
        (scanMembers depth [] rest).map fun (members, rest) => (.table .braces members, rest)
    | _ =>
      let word := cs.takeWhile isWordChar
      (wordValue? word).map fun value => (.leaf value, cs.dropWhile isWordChar)

/-- The rest of an array after its opening bracket or a comma. -/
def scanItems : (depth : Nat) → Scan (List Json)
  | 0, _ => none
  | depth + 1, cs =>
    match cs with
    | ']' :: rest => some ([], rest)
    | _ => do
      let (node, rest) ← scanValue depth cs
      match skipLines rest.length rest with
      | ',' :: rest =>
        let (items, rest) ← scanItems depth (skipLines rest.length rest)
        some (node.toJson :: items, rest)
      | ']' :: rest => some ([node.toJson], rest)
      | _ => none

/-- The rest of a table between braces, after the given members. -/
def scanMembers : (depth : Nat) → Members → Scan Members
  | 0, _, _ => none
  | depth + 1, members, cs => do
    let (key, rest) ← scanKey cs.length cs
    match rest with
    | '=' :: rest =>
      let (node, rest) ← scanValue depth (skipBlanks rest)
      let members ← enter members node key
      match skipBlanks rest with
      | ',' :: rest => scanMembers depth members rest
      | '\x7d' :: rest => some (members, rest)
      | _ => none
    | _ => none

end

/-! ## Documents -/

/-- A header between brackets, and the end of its line. -/
def scanHeader (closing : List Char) (cs : List Char) : Option (List String × List Char) := do
  let (path, rest) ← scanKey (cs.length + 1) cs
  if closing.isPrefixOf rest then
    let rest ← skipLineEnd (rest.drop closing.length)
    some (path, rest)
  else none

/-- The tree of the rest of a document, for which the table at `current` is open. -/
def scanDocument : (lines : Nat) → (root : Members) → (current : List String) → List Char →
    Option Members
  | 0, _, _, _ => none
  | lines + 1, root, current, cs =>
    match skipLines cs.length cs with
    | [] => some root
    | '[' :: '[' :: rest => do
      let (path, rest) ← scanHeader [']', ']'] rest
      scanDocument lines (← openItem root path) path rest
    | '[' :: rest => do
      let (path, rest) ← scanHeader [']'] rest
      scanDocument lines (← openTable root path) path rest
    | cs => do
      let (key, rest) ← scanKey (cs.length + 1) cs
      match rest with
      | '=' :: rest =>
        let rest := skipBlanks rest
        let (node, rest) ← scanValue (rest.length + 1) rest
        let rest ← skipLineEnd rest
        let change (origin : Origin) (inner : Members) : Option (Origin × Members) :=
          (enter inner node key).map fun inner => (origin, inner)
        scanDocument lines (← within change root current) current rest
      | _ => none

/-- Reads a document as an object. -/
def parse? (text : String) : Option Json :=
  let cs := match text.toList with
    | '\ufeff' :: rest => rest
    | cs => cs
  (scanDocument (cs.length + 2) [] [] cs).map fun root => .object (membersToJson root)

end DomainModels.Toml
