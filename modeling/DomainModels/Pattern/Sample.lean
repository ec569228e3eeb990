import DomainModels.Pattern.Parser
import DomainModels.Random.Range

/-!
Random texts that match a pattern.

A text is put together from left to right: one of the alternatives, one of the characters of a set,
and a repetition as often as a drawn number says. Conditions on places have no texts of their own,
so that patterns with such conditions have no samples.
-/

namespace DomainModels.Pattern

open DomainModels.Random (Source)

/-- How much longer than its minimum a repetition without an end can get. -/
def repeatSpan : Nat := 8

/-- The characters of ASCII, with those that can be seen in front. -/
def asciiChars : List Char :=
  (List.range 95).map (fun n => Char.ofNat (n + 32)) ++ (List.range 32).map Char.ofNat ++ ['\x7f']

/-- The first members of a set from a code point on, at most `count` of them. -/
def CharSet.membersFrom (s : CharSet) (count : Nat) (code : Nat) : (steps : Nat) → List Char
  | 0 => []
  | steps + 1 =>
    match count with
    | 0 => []
    | count + 1 =>
      let c := Char.ofNat code
      if c.toNat = code && s.contains c then c :: s.membersFrom count (code + 1) steps
      else s.membersFrom (count + 1) (code + 1) steps

/-- Some members of a set: those in ASCII, or the first ones beyond it. -/
def CharSet.examples (s : CharSet) : List Char :=
  match asciiChars.filter s.contains with
  | [] => s.membersFrom 64 0x80 0x110000
  | found => found

/-- One of the items of a list, nothing if it has none. A single item needs no draw. -/
def drawFrom {α : Type} : List α → StateM Source (Option α)
  | [] => return none
  | [a] => return some a
  | items => do return items[← Random.below64 items.length]?

/-- The number of times that a repetition is repeated. A fixed number needs no draw. -/
def drawCount (min : Nat) (max : Option Nat) : StateM Source Nat := do
  let last := max.getD (min + repeatSpan)
  if last ≤ min then return min
  return min + (← Random.below32 (last - min + 1))

/-- Texts of several draws one after the other. -/
def drawTimes (draw : StateM Source (Option (List Char))) :
    Nat → StateM Source (Option (List Char))
  | 0 => return some []
  | count + 1 => do
    match ← draw with
    | none => return none
    | some text => return (← drawTimes draw count).map (text ++ ·)

namespace Node

/-- Whether a pattern has no conditions on places. -/
def isSamplable : Node → Bool
  | .empty | .set _ => true
  | .assertion _ => false
  | .seq first second | .alt first second => first.isSamplable && second.isSamplable
  | .repeated body _ _ => body.isSamplable

/-- A random text that the whole pattern matches. -/
def sample : Node → StateM Source (Option (List Char))
  | .empty => return some []
  | .assertion _ => return none
  | .set s => do return (← drawFrom s.examples).map fun c => [c]
  | .seq first second => do
    match ← first.sample with
    | none => return none
    | some front => return (← second.sample).map (front ++ ·)
  | .alt first second => do
    if ← Random.bool then first.sample else second.sample
  | .repeated body min max => do
    let count ← drawCount min max
    drawTimes body.sample count

end Node

/-! ## Patterns to sample from -/

/-- A pattern after its first group in parentheses, if that group starts with a question mark and
has no colon. Flags at the start of a pattern are such a group. -/
def cutFlagGroup (pattern : List Char) : List Char × List Char :=
  match pattern with
  | '(' :: '?' :: rest =>
    let inside := rest.takeWhile (· ≠ ')')
    if inside.length < rest.length && !inside.contains ':' then
      (pattern.take (inside.length + 3), pattern.drop (inside.length + 3))
    else ([], pattern)
  | _ => ([], pattern)

/-- A pattern without a caret at its start, after flags, and without a dollar sign at its end. What
is left can be sampled when these were its only conditions. -/
def withoutAnchors (pattern : List Char) : List Char :=
  let (flags, body) := cutFlagGroup pattern
  let body := if body.head? = some '^' then body.drop 1 else body
  let body :=
    if body.getLast? = some '$' && body.dropLast.getLast? ≠ some '\\' then body.dropLast else body
  flags ++ body

/-- The pattern that samples are drawn from. -/
def sampled? (pattern : String) : Option Node :=
  (parse? .default (String.ofList (withoutAnchors pattern.toList))).filter Node.isSamplable

end DomainModels.Pattern
