import DomainModels.Pattern.CharSet

/-!
Patterns and the texts they match.

A pattern is read as a step on sets of places in a text: from every place of the set it reaches all
places where one of its matches ends. A set of places is a list of flags, one for the place before
each character and one for the end.
-/

namespace DomainModels.Pattern

/-- Conditions on a place in a text. -/
inductive Assertion where
  | textStart
  | textEnd
  | lineStart
  | lineEnd
  /-- The same, where a carriage return and line feed make one line end. -/
  | crlfLineStart
  | crlfLineEnd
  | wordBoundary
  | notWordBoundary
  | wordStart
  | wordEnd
  | wordStartHalf
  | wordEndHalf
  deriving DecidableEq, Repr

/-- A pattern. -/
inductive Node where
  | empty
  | set (s : CharSet)
  | assertion (a : Assertion)
  | seq (first second : Node)
  | alt (first second : Node)
  /-- At least `min` matches in a row, and at most `max` when it is given. -/
  | repeated (body : Node) (min : Nat) (max : Option Nat)

/-- Whether a condition holds between the given neighbours. -/
def Assertion.holds (a : Assertion) (before after : Option Char) : Bool :=
  let wordBefore := before.any Unicode.isWord
  let wordAfter := after.any Unicode.isWord
  match a with
  | .textStart => before.isNone
  | .textEnd => after.isNone
  | .lineStart => before.all (· = '\n')
  | .lineEnd => after.all (· = '\n')
  | .crlfLineStart => before.all (· = '\n') || (before = some '\r' && after != some '\n')
  | .crlfLineEnd => after.all (· = '\r') || (after = some '\n' && before != some '\r')
  | .wordBoundary => wordBefore != wordAfter
  | .notWordBoundary => wordBefore == wordAfter
  | .wordStart => !wordBefore && wordAfter
  | .wordEnd => wordBefore && !wordAfter
  | .wordStartHalf => !wordBefore
  | .wordEndHalf => !wordAfter

/-- The places after the characters of the set `s` that stand at a place of `places`. -/
def stepSet (s : CharSet) : List Char → List Bool → List Bool
  | c :: text, here :: places => (here && s.contains c) :: stepSet s text places
  | _, _ => []

/-- The places of `places` where the condition holds. -/
def stepAssertion (a : Assertion) (before : Option Char) : List Char → List Bool → List Bool
  | _, [] => []
  | [], here :: _ => [here && a.holds before none]
  | c :: text, here :: places =>
    (here && a.holds before (some c)) :: stepAssertion a (some c) text places

/-- The places of either set. -/
def joinPlaces (p q : List Bool) : List Bool := List.zipWith (· || ·) p q

/-- Takes a step `count` times. Nothing changes once a step has no effect. -/
def iterate (step : List Bool → List Bool) : Nat → List Bool → List Bool
  | 0, places => places
  | count + 1, places =>
    let next := step places
    if next = places then places else iterate step count next

/-- The places that are reached by at most `count` steps. -/
def reachWithin (step : List Bool → List Bool) : Nat → List Bool → List Bool
  | 0, places => places
  | count + 1, places =>
    let next := joinPlaces places (step places)
    if next = places then places else reachWithin step count next

/-- The places where the matches end that start at a place of `places`. -/
def Node.reach (text : List Char) : Node → List Bool → List Bool
  | empty, places => places
  | set s, places => false :: stepSet s text places
  | assertion a, places => stepAssertion a none text places
  | seq first second, places => second.reach text (first.reach text places)
  | alt first second, places => joinPlaces (first.reach text places) (second.reach text places)
  | repeated body min max, places =>
    let least := iterate (body.reach text) min places
    let more := match max with
      | some max => max - min
      | none => text.length + 1
    reachWithin (body.reach text) more least

/-- Whether the pattern matches some part of the text. -/
def Node.matchesIn (pattern : Node) (text : String) : Bool :=
  (pattern.reach text.toList (List.replicate (text.toList.length + 1) true)).any id

end DomainModels.Pattern
