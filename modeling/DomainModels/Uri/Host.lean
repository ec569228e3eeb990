import DomainModels.Text.Percent
import DomainModels.Text.Split

/-!
Hosts in URIs: names, and addresses of both versions of the internet protocol.
-/

namespace DomainModels.Uri

/-- Why a text is not a URI. -/
inductive Fault where
  | noScheme
  | emptyHost
  | badPort
  | badHostChar
  | badDomain
  | badIpv4
  | badIpv6
  deriving DecidableEq, Repr

def Fault.message : Fault → String
  | .noScheme => "relative URL without a base"
  | .emptyHost => "empty host"
  | .badPort => "invalid port number"
  | .badHostChar => "invalid domain character"
  | .badDomain => "invalid international domain name"
  | .badIpv4 => "invalid IPv4 address"
  | .badIpv6 => "invalid IPv6 address"

/-! ## Addresses -/

/-- A decimal number of at most 255 without a leading zero. -/
def isOctet (digits : List Char) : Bool :=
  digits.all Char.isDigit && 1 ≤ digits.length && digits.length ≤ 3 && Text.numeral 10 digits ≤ 255
    && (digits.length = 1 || digits.head? ≠ some '0')

/-- The number of 16-bit groups that texts between colons stand for. The last one may be four
octets, if `octets` allows it. -/
def groupCount? (octets : Bool) : List (List Char) → Option Nat
  | [] => some 0
  | [group] =>
    if group.length ≤ 4 && 1 ≤ group.length && group.all Text.isHexDigit then some 1
    else if octets && group.contains '.' && (Text.cutAll '.' group).length = 4
        && (Text.cutAll '.' group).all isOctet then some 2
    else none
  | group :: rest =>
    if group.length ≤ 4 && 1 ≤ group.length && group.all Text.isHexDigit then
      (groupCount? octets rest).map (· + 1)
    else none

/-- The parts before and after the first two colons in a row. -/
def cutDoubleColon : List Char → Option (List Char × List Char)
  | ':' :: ':' :: rest => some ([], rest)
  | c :: rest => (cutDoubleColon rest).map fun (before, after) => (c :: before, after)
  | [] => none

/-- The texts between colons, none for the empty text. -/
def groups (cs : List Char) : List (List Char) := if cs.isEmpty then [] else Text.cutAll ':' cs

/-- An address of eight groups, or of fewer around two colons that stand for the missing ones. -/
def isIpv6 (cs : List Char) : Bool :=
  match cutDoubleColon cs with
  | some (before, after) =>
    match groupCount? false (groups before), groupCount? true (groups after) with
    | some m, some n => m + n ≤ 7
    | _, _ => false
  | none => groupCount? true (groups cs) = some 8

/-- A number in one of the bases that addresses know. A number without digits is zero. -/
def ipv4Number? : List Char → Option Nat
  | [] => none
  | ['0'] => some 0
  | '0' :: x :: digits =>
    if x = 'x' ∨ x = 'X' then
      if digits.all Text.isHexDigit then some (Text.numeral 16 digits) else none
    else if (x :: digits).all Text.isOctalDigit then some (Text.numeral 8 (x :: digits))
    else none
  | digits => if digits.all Char.isDigit then some (Text.numeral 10 digits) else none

/-- The labels of a name, without the empty one after a point at its end. -/
def labels (cs : List Char) : List (List Char) :=
  let parts := Text.cutAll '.' cs
  if parts.getLast? = some [] then parts.dropLast else parts

/-- A name whose last label is a number is an address. -/
def endsInNumber (cs : List Char) : Bool :=
  match (labels cs).getLast? with
  | some label =>
    (!label.isEmpty && label.all Char.isDigit) || (ipv4Number? label).isSome
  | none => false

/-- At most four numbers; the last one fills the bytes that the others leave. -/
def isIpv4 (cs : List Char) : Bool :=
  match (labels cs).mapM ipv4Number? with
  | some numbers =>
    numbers.length ≤ 4 && numbers.dropLast.all (· ≤ 255)
      && (numbers.getLast?.getD 0) < 1 <<< (8 * (5 - numbers.length))
  | none => false

/-! ## Hosts -/

/-- Characters that no host may have. -/
def isForbidden (c : Char) : Bool := "\x00\t\n\r #/:<>?@[\\]^|".toList.contains c

/-- Characters that no host of a special scheme may have. -/
def isForbiddenInDomain (c : Char) : Bool :=
  isForbidden c || c ≤ ' ' || c = '%' || c = '\x7f'

/-- An address in brackets. -/
def checkBracketed (host : List Char) : Except Fault Unit :=
  if host.getLast? = some ']' ∧ isIpv6 (host.drop 1).dropLast then .ok () else .error .badIpv6

/-- Checks the host of a scheme that gives it no meaning. -/
def checkOpaqueHost (host : List Char) : Except Fault Unit :=
  if host.head? = some '[' then checkBracketed host
  else if host.any isForbidden then .error .badHostChar
  else .ok ()

/-- Checks the host of a special scheme. Names with characters beyond ASCII are accepted. -/
def checkDomain (host : List Char) : Except Fault Unit :=
  if host.head? = some '[' then checkBracketed host
  else
    let name := Percent.decode host
    if name.any isForbiddenInDomain then .error .badDomain
    else if name.isEmpty then .error .emptyHost
    else if endsInNumber name && !isIpv4 name then .error .badIpv4
    else .ok ()

end DomainModels.Uri
