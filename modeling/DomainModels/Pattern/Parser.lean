import DomainModels.Pattern.Basic
import DomainModels.Text.Digits
import DomainModels.Text.Split

/-!
Reading a pattern.

The syntax has literals, classes with set operations, groups, alternatives, repetitions, assertions
and flags. A text outside of this syntax is no pattern; look-around and back-references belong to
those.
-/

namespace DomainModels.Pattern

/-- The flags under which a part of a pattern is read. -/
structure Flags where
  /-- Letters match in either case. -/
  ignoreCase : Bool
  /-- Line assertions look at every line. -/
  multiLine : Bool
  /-- The dot also matches line ends. -/
  dotAll : Bool
  /-- Carriage returns belong to line ends. -/
  crlf : Bool
  /-- Classes hold the characters of all scripts. -/
  unicode : Bool
  /-- Blanks and comments between the parts are skipped. -/
  verbose : Bool
  deriving DecidableEq, Repr

/-- The flags of a pattern without any. -/
def Flags.default : Flags := ⟨false, false, false, false, true, false⟩

namespace Parser

/-- The text left, the flags in force and the names of the groups so far. -/
structure State where
  rest : List Char
  flags : Flags
  names : List String

/-- A reading step; it has no result where the text is no pattern. -/
abbrev Read := StateT State Option

def fail {α : Type} : Read α := fun _ => none

/-- Fails unless the condition holds. -/
def require (condition : Bool) : Read Unit := if condition then pure () else fail

/-- The text after blanks and comments. A comment ends with its line. -/
def skipComments (inComment : Bool) : List Char → List Char
  | [] => []
  | c :: rest =>
    if inComment then skipComments (c != '\n') rest
    else if c = '#' then skipComments true rest
    else if Unicode.isSpace c then skipComments false rest
    else c :: rest

/-- Skips blanks and comments where the flags allow them. -/
def skipBlank : Read Unit := modify fun s =>
  if s.flags.verbose then { s with rest := skipComments false s.rest } else s

/-- The next character. -/
def peek? : Read (Option Char) := return (← get).rest.head?

/-- Takes the next character; the end of the text is a failure. -/
def next : Read Char := fun s =>
  match s.rest with
  | [] => none
  | c :: rest => some (c, { s with rest })

/-- Passes over the next character. -/
def drop : Read Unit := modify fun s => { s with rest := s.rest.drop 1 }

/-- Passes over the next character and the blanks after it; more has to follow. -/
def dropToMore : Read Unit := do
  drop
  skipBlank
  require ((← peek?).isSome)

/-- Takes the given text if it comes next. -/
def takeText (text : String) : Read Bool := fun s =>
  match Text.dropStart? text.toList s.rest with
  | some rest => some (true, { s with rest })
  | none => some (false, s)

/-- Takes the characters of a kind that come next, and skips blanks after each. -/
def takeSpaced (kind : Char → Bool) : Nat → Read (List Char)
  | 0 => return []
  | fuel + 1 => do
    match ← peek? with
    | some c =>
      if kind c then
        drop
        skipBlank
        return c :: (← takeSpaced kind fuel)
      else return []
    | none => return []

/-- An upper bound for the number of steps on the text that is left. -/
def bound : Read Nat := return (← get).rest.length + 1

/-! ## Numbers -/

/-- Largest count in a repetition. -/
def countLimit : Nat := UInt32.size

/-- Passes over blanks of any kind. -/
def dropBlanks : Read Unit := modify fun s => { s with rest := s.rest.dropWhile Unicode.isSpace }

/-- A decimal count with blanks around it; it may be missing. -/
def readCount? : Read (Option Nat) := do
  dropBlanks
  let digits ← takeSpaced Char.isDigit (← bound)
  dropBlanks
  if digits.isEmpty then return none
  let n := Text.numeral 10 digits
  require (n < countLimit)
  return some n

/-- The character with the given hexadecimal number. -/
def hexChar (digits : List Char) : Read Char := do
  require (!digits.isEmpty && digits.all Text.isHexDigit)
  let n := Text.numeral 16 digits
  require (decide n.isValidChar)
  return Char.ofNat n

/-- The digits of a hexadecimal escape of fixed length; the last one may end the text. -/
def hexDigits : Nat → Read (List Char)
  | 0 => return []
  | count + 1 => do
    let c ← next
    require (Text.isHexDigit c)
    skipBlank
    return c :: (← hexDigits count)

/-- A character by its number, in braces or with `count` digits. The letter of the escape comes
next. -/
def readHex (count : Nat) : Read Char := do
  dropToMore
  if (← peek?) = some '\x7b' then
    drop
    skipBlank
    let digits ← takeSpaced (· != '\x7d') (← bound)
    require ((← peek?) = some '\x7d')
    drop
    skipBlank
    hexChar digits
  else
    hexChar (← hexDigits count)

/-! ## Escapes -/

/-- What one escape or one plain character stands for. -/
inductive Atom where
  | literal (c : Char)
  | set (s : CharSet)
  | assertion (a : Assertion)

/-- Characters with a meaning of their own. -/
def isMeta (c : Char) : Bool := "\\.+*?()|[]\x7b\x7d^$#&-~".toList.contains c

/-- Characters that may be escaped without need. -/
def isEscapable (c : Char) : Bool :=
  isMeta c || (c.toNat < 0x80 && !c.isAlphanum && c != '<' && c != '>')

/-- Negation, which needs the characters of all scripts. -/
def negateSet (flags : Flags) (negated : Bool) (s : CharSet) : Read CharSet :=
  if !negated then return s else if flags.unicode then return .negate s else fail

/-- Adds the other case where case is ignored. -/
def foldSet (flags : Flags) (s : CharSet) : CharSet :=
  if !flags.ignoreCase then s
  else if flags.unicode then .folded s
  else .union s (.inter (.range '\x00' '\x7f') (.folded (.inter (.range '\x00' '\x7f') s)))

/-- The digits, blanks and word characters, or their complements. -/
def perlSet (flags : Flags) (c : Char) : Read CharSet :=
  let pick (property : CharProperty) (ascii : String) : CharSet :=
    if flags.unicode then .property property else (asciiClass? ascii).getD .none
  match c.toLower with
  | 'd' => negateSet flags c.isUpper (pick .decimalDigit "digit")
  | 's' => negateSet flags c.isUpper (pick .space "space")
  | _ => negateSet flags c.isUpper (pick .word "word")

/-- A set named by a property: one letter, or a name in braces, which may give a value. -/
def readProperty (negated : Bool) : Read CharSet := do
  dropToMore
  let flags := (← get).flags
  require flags.unicode
  let c ← next
  if c = '\x7b' then
    skipBlank
    let name ← takeSpaced (· != '\x7d') (← bound)
    require ((← peek?) = some '\x7d')
    drop
    let (value, set?) := match name.span (fun c => c != '=' && c != ':') with
      | (before, _ :: after) =>
        match before.reverse with
        | '!' :: front => (true, valueSet? (String.ofList front.reverse) (String.ofList after))
        | _ => (false, valueSet? (String.ofList before) (String.ofList after))
      | (all, []) => (false, namedSet? (String.ofList all))
    match set? with
    | none => fail
    | some s => negateSet flags (negated != value) (foldSet flags s)
  else
    require (c != '\\')
    skipBlank
    match namedSet? (String.singleton c) with
    | none => fail
    | some s => negateSet flags negated (foldSet flags s)

/-- The kind of word boundary named in braces. A brace with anything else in it is a repetition. -/
def readBoundaryKind : Read Assertion := do
  let s ← get
  let isNameChar (c : Char) := c.isAlpha || c = '-'
  match s.rest with
  | '\x7b' :: _ =>
    dropToMore
    if ((← peek?).any isNameChar) then
      let name ← takeSpaced isNameChar (← bound)
      require ((← peek?) = some '\x7d')
      drop
      match String.ofList name with
      | "start" => return .wordStart
      | "end" => return .wordEnd
      | "start-half" => return .wordStartHalf
      | "end-half" => return .wordEndHalf
      | _ => fail
    else
      set s
      return .wordBoundary
  | _ => return .wordBoundary

/-- An escape, at its backslash. -/
def readEscape : Read Atom := do
  drop
  let c ← match ← peek? with
    | some c => pure c
    | none => fail
  let flags := (← get).flags
  if c = 'x' then return .literal (← readHex 2)
  else if c = 'u' then return .literal (← readHex 4)
  else if c = 'U' then return .literal (← readHex 8)
  else if c = 'p' ∨ c = 'P' then return .set (← readProperty (c = 'P'))
  else
    drop
    if "dDsSwW".toList.contains c then return .set (← perlSet flags c)
    else if isEscapable c then return .literal c
    else
      match c with
      | 'a' => return .literal '\x07'
      | 'f' => return .literal '\x0c'
      | 't' => return .literal '\t'
      | 'n' => return .literal '\n'
      | 'r' => return .literal '\r'
      | 'v' => return .literal '\x0b'
      | 'A' => return .assertion .textStart
      | 'z' => return .assertion .textEnd
      | 'b' => return .assertion (← readBoundaryKind)
      | 'B' => return .assertion .notWordBoundary
      | '<' => return .assertion .wordStart
      | '>' => return .assertion .wordEnd
      | _ => fail

/-! ## Classes -/

/-- The operations between the operands of a class. -/
inductive SetOperation where
  | inter
  | diff
  | symmDiff

def SetOperation.apply : SetOperation → CharSet → CharSet → CharSet
  | .inter => .inter
  | .diff => .diff
  | .symmDiff => .symmDiff

/-- A named ASCII class such as `[:alpha:]`, at its bracket. -/
def readAsciiClass? : Read (Option CharSet) := do
  let s ← get
  match s.rest with
  | '[' :: ':' :: rest =>
    let (negated, rest) := match rest with
      | '^' :: rest => (true, rest)
      | _ => (false, rest)
    let name := rest.takeWhile (· != ':')
    match rest.dropWhile (· != ':') with
    | ':' :: ']' :: rest =>
      match asciiClass? (String.ofList name) with
      | none => return none
      | some set =>
        modify fun s => { s with rest }
        return some (← negateSet s.flags negated (foldSet s.flags set))
    | _ => return none
  | _ => return none

/-- One end of a range, or a set that stands for itself. -/
def readClassAtom : Read Atom := do
  if (← peek?) = some '\\' then readEscape else return .literal (← next)

/-- An item of a class: a range, a character or a set. -/
def readClassItem : Read CharSet := do
  let first ← readClassAtom
  skipBlank
  let rest := (← get).rest
  require !rest.isEmpty
  let afterHyphen ← do
    let s ← get
    pure ((if s.flags.verbose then skipComments false (s.rest.drop 1) else s.rest.drop 1).head?)
  if rest.head? != some '-' || afterHyphen = some ']' || afterHyphen = some '-' then
    match first with
    | .literal c => return .single c
    | .set s => return s
    | .assertion _ => fail
  else
    dropToMore
    match first, ← readClassAtom with
    | .literal a, .literal b =>
      require (a ≤ b)
      return .range a b
    | _, _ => fail

/-- The hyphens and the closing bracket that stand for themselves at the start of a class. -/
def readClassStart (taken : List CharSet) : Nat → Read (List CharSet)
  | 0 => return taken
  | fuel + 1 => do
    match ← peek? with
    | some '-' =>
      dropToMore
      readClassStart (.single '-' :: taken) fuel
    | some ']' =>
      if taken.isEmpty then
        dropToMore
        return [.single ']']
      else return taken
    | _ => return taken

/-- A finished operand of a class. -/
def finishOperand (flags : Flags) (pending : Option (SetOperation × CharSet))
    (items : List CharSet) : CharSet :=
  let operand := CharSet.ofList items.reverse
  match pending with
  | none => operand
  | some (operation, left) => operation.apply (foldSet flags left) (foldSet flags operand)

mutual

/-- A class, at its opening bracket, and how deeply it nests. -/
def readClass : Nat → Read (CharSet × Nat)
  | 0 => fail
  | fuel + 1 => do
    dropToMore
    let negated := (← peek?) = some '^'
    if negated then dropToMore
    let items ← readClassStart [] (← bound)
    let (s, depth) ← readClassItems fuel none items 1
    let flags := (← get).flags
    return (← negateSet flags negated (foldSet flags s), depth)

/-- The items of a class up to its closing bracket. -/
def readClassItems (fuel : Nat) (pending : Option (SetOperation × CharSet))
    (items : List CharSet) (depth : Nat) : Read (CharSet × Nat) :=
  match fuel with
  | 0 => fail
  | fuel + 1 => do
    skipBlank
    let s ← get
    let operate (operation : SetOperation) (rest : List Char) : Read (CharSet × Nat) := do
      set { s with rest }
      readClassItems fuel (some (operation, finishOperand s.flags pending items)) [] depth
    match s.rest with
    | [] => fail
    | '[' :: _ =>
      match ← readAsciiClass? with
      | some named => readClassItems fuel pending (named :: items) depth
      | none =>
        let (inner, innerDepth) ← readClass fuel
        readClassItems fuel pending (inner :: items) (max depth (innerDepth + 1))
    | ']' :: rest =>
      set { s with rest }
      return (finishOperand s.flags pending items, depth)
    | '&' :: '&' :: rest => operate .inter rest
    | '-' :: '-' :: rest => operate .diff rest
    | '~' :: '~' :: rest => operate .symmDiff rest
    | _ => readClassItems fuel pending ((← readClassItem) :: items) depth

end

/-! ## Groups and repetitions -/

/-- A part of a sequence: how deeply it nests, and whether it may be repeated. -/
structure Item where
  node : Node
  depth : Nat
  repeatable : Bool

/-- Flags in the text, with their letter. -/
def setFlag (flags : Flags) (letter : Char) (value : Bool) : Option Flags :=
  match letter with
  | 'i' => some { flags with ignoreCase := value }
  | 'm' => some { flags with multiLine := value }
  | 's' => some { flags with dotAll := value }
  | 'R' => some { flags with crlf := value }
  | 'u' => some { flags with unicode := value }
  | 'x' => some { flags with verbose := value }
  | 'U' => some flags
  | _ => none

/-- Flag letters up to a colon or a closing parenthesis. None may come twice, and a minus, after
which flags are cleared, may not be the last. -/
def readFlags (flags : Flags) (seen : List Char) : Nat → Read (Flags × List Char)
  | 0 => fail
  | fuel + 1 => do
    match ← peek? with
    | none => fail
    | some c =>
      if c = ':' ∨ c = ')' then
        require (seen.head? != some '-')
        return (flags, seen)
      else
        require (!seen.contains c)
        drop
        if c = '-' then readFlags flags (c :: seen) fuel
        else
          match setFlag flags c (!seen.contains '-') with
          | some flags => readFlags flags (c :: seen) fuel
          | none => fail

/-- The name of a group, up to its closing angle bracket. -/
def readGroupName : Read Unit := do
  let s ← get
  let name := s.rest.takeWhile (· != '>')
  let isStart (c : Char) := c = '_' || Unicode.isAlphabetic c
  let isPart (c : Char) :=
    isStart c || Unicode.isNumber c || c = '.' || c = '[' || c = ']'
  match name, s.rest.dropWhile (· != '>') with
  | first :: more, _ :: rest =>
    require (isStart first && more.all isPart && !s.names.contains (String.ofList name))
    set { s with rest, names := String.ofList name :: s.names }
  | _, _ => fail

/-- Where a group has just been opened: the flags for its inside, or flags for what follows. -/
inductive GroupStart where
  | inside (flags : Flags)
  | flagsOnly (flags : Flags)

/-- The part of a group before its contents, at its parenthesis. -/
def readGroupStart : Read GroupStart := do
  drop
  skipBlank
  let s ← get
  for ahead in ["?=", "?!", "?<=", "?<!"] do
    require (Text.dropStart? ahead.toList s.rest).isNone
  if ← takeText "?P<" then
    readGroupName
    return .inside s.flags
  else if ← takeText "?<" then
    readGroupName
    return .inside s.flags
  else if ← takeText "?" then
    let (flags, seen) ← readFlags s.flags [] (← bound)
    match ← next with
    | ')' =>
      require !seen.isEmpty
      return .flagsOnly flags
    | _ => return .inside flags
  else return .inside s.flags

/-- Passes over the mark of a repetition that prefers few matches. -/
def dropLazyMark : Read Unit := do
  if (← peek?) = some '?' then drop

/-- The bounds of a counted repetition, at its brace. -/
def readBounds : Read (Nat × Option Nat) := do
  dropToMore
  let first ← readCount?
  match ← peek? with
  | none => fail
  | some ',' =>
    dropToMore
    if (← peek?) = some '\x7d' then
      drop
      match first with
      | some min => return (min, none)
      | none => fail
    else
      match first, ← readCount? with
      | some min, some max =>
        require ((← peek?) = some '\x7d' && min ≤ max)
        drop
        return (min, some max)
      | _, _ => fail
  | some c =>
    require (c = '\x7d')
    drop
    match first with
    | some count => return (count, some count)
    | none => fail

/-- The items of a sequence, latest first, as one item. -/
def finishSequence (items : List Item) : Item :=
  match items with
  | [] => ⟨.empty, 0, true⟩
  | [item] => item
  | last :: earlier =>
    let depth := items.foldl (fun d item => max d item.depth) 0
    ⟨earlier.foldl (fun node item => .seq item.node node) last.node, depth + 1, true⟩

/-- The alternatives of a group, latest first, as one item. -/
def finishAlternatives (sequences : List Item) : Item :=
  match sequences with
  | [] => ⟨.empty, 0, true⟩
  | [item] => item
  | last :: earlier =>
    let depth := sequences.foldl (fun d item => max d item.depth) 0
    ⟨earlier.foldl (fun node item => .alt item.node node) last.node, depth + 1, true⟩

/-- Puts the latest item under a repetition. -/
def repeatLast (items : List Item) (min : Nat) (max : Option Nat) : Read (List Item) :=
  match items with
  | item :: earlier =>
    if item.repeatable then
      return ⟨.repeated item.node min max, item.depth + 1, true⟩ :: earlier
    else fail
  | [] => fail

/-- A condition or a set that one character outside of classes stands for. -/
def plainAtom (flags : Flags) (c : Char) : Read Atom :=
  match c with
  | '.' =>
    if !flags.unicode then fail
    else if flags.dotAll then return .set .any
    else if flags.crlf then return .set (.negate (.union (.single '\n') (.single '\r')))
    else return .set (.negate (.single '\n'))
  | '^' =>
    return .assertion <|
      if !flags.multiLine then .textStart else if flags.crlf then .crlfLineStart else .lineStart
  | '$' =>
    return .assertion <|
      if !flags.multiLine then .textEnd else if flags.crlf then .crlfLineEnd else .lineEnd
  | c => return .literal c

/-- The item that an atom stands for. -/
def Atom.toItem (flags : Flags) : Atom → Item
  | .literal c => ⟨.set (foldSet flags (.single c)), 0, true⟩
  | .set s => ⟨.set s, 0, true⟩
  | .assertion a => ⟨.assertion a, 0, true⟩

/-- The alternatives up to the end of the text or of the group. -/
def readAlternatives (fuel : Nat) (inGroup : Bool) (sequences items : List Item) : Read Item :=
  match fuel with
  | 0 => fail
  | fuel + 1 => do
    skipBlank
    let flags := (← get).flags
    match ← peek? with
    | none =>
      require !inGroup
      return finishAlternatives (finishSequence items :: sequences)
    | some c =>
      match c with
      | ')' =>
        require inGroup
        drop
        return finishAlternatives (finishSequence items :: sequences)
      | '|' =>
        drop
        readAlternatives fuel inGroup (finishSequence items :: sequences) []
      | '(' =>
        match ← readGroupStart with
        | .flagsOnly inner =>
          modify fun s => { s with flags := inner }
          readAlternatives fuel inGroup sequences (⟨.empty, 0, false⟩ :: items)
        | .inside inner =>
          modify fun s => { s with flags := inner }
          let body ← readAlternatives fuel true [] []
          modify fun s => { s with flags }
          readAlternatives fuel inGroup sequences (⟨body.node, body.depth + 1, true⟩ :: items)
      | '[' =>
        let (s, depth) ← readClass fuel
        readAlternatives fuel inGroup sequences (⟨.set s, depth, true⟩ :: items)
      | '?' =>
        drop
        let items ← repeatLast items 0 (some 1)
        dropLazyMark
        readAlternatives fuel inGroup sequences items
      | '*' =>
        drop
        let items ← repeatLast items 0 none
        dropLazyMark
        readAlternatives fuel inGroup sequences items
      | '+' =>
        drop
        let items ← repeatLast items 1 none
        dropLazyMark
        readAlternatives fuel inGroup sequences items
      | '\x7b' =>
        require !items.isEmpty
        let (min, max) ← readBounds
        skipBlank
        let items ← repeatLast items min max
        dropLazyMark
        readAlternatives fuel inGroup sequences items
      | '\\' =>
        let atom ← readEscape
        readAlternatives fuel inGroup sequences (atom.toItem flags :: items)
      | c =>
        drop
        let atom ← plainAtom flags c
        readAlternatives fuel inGroup sequences (atom.toItem flags :: items)

/-- Groups, classes, repetitions, sequences and alternatives may nest this deep. -/
def nestingLimit : Nat := 250

end Parser

/-! ## Size -/

/-- A rough measure of the machine that recognises a set. -/
def CharSet.weight : CharSet → Nat
  | .none => 1
  | .any => 8
  | .range _ last => if last.toNat < 0x80 then 1 else 4
  | .property .word => 300
  | .property (.categories _) => 150
  | .property .decimalDigit => 60
  | .property _ => 100
  | .negate s => s.weight + 4
  | .union s t | .inter s t | .diff s t | .symmDiff s t => s.weight + t.weight
  | .folded s => 2 * s.weight

/-- A rough measure of the machine that recognises a pattern. Repetitions are unrolled. -/
def Node.weight : Node → Nat
  | .empty => 1
  | .set s => s.weight
  | .assertion _ => 1
  | .seq first second | .alt first second => first.weight + second.weight + 1
  | .repeated body min max => (body.weight + 1) * (Nat.max (max.getD (min + 1)) 1)

/-- Patterns that weigh more are refused. -/
def weightLimit : Nat := 400000

open DomainModels.Pattern.Parser in
/-- Reads a pattern, starting with the given flags. -/
def parse? (flags : Flags) (text : String) : Option Node := do
  let cs := text.toList
  let (item, _) ← (readAlternatives (2 * cs.length + 2) false [] []).run ⟨cs, flags, []⟩
  if item.depth ≤ nestingLimit ∧ item.node.weight ≤ weightLimit then some item.node else none

end DomainModels.Pattern
