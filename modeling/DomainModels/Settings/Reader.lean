import DomainModels.Settings.Basic
import DomainModels.Text.Digits
import DomainModels.Toml.Reader

/-!
Reading settings.

Values are read loosely: a number or a word can stand for a flag, and a flag or a text for a number.
Settings that are absent have their default values, and unknown ones are passed over. Files in TOML
and in JSON are told apart by the endings of their names, and the names in them are the same in
capital and in small letters.
-/

namespace DomainModels.Settings

/-- A text with its Latin letters in lower case. -/
def lower (s : String) : String := String.ofList (s.toList.map Char.toLower)

/-- The flag that a word stands for. -/
def flagWord? (s : String) : Option Bool :=
  if ["true", "on", "yes"].contains (lower s) then some true
  else if ["false", "off", "no"].contains (lower s) then some false
  else none

def flag? : Json → Option Bool
  | .bool b => some b
  | .number (.int i) => some (i ≠ 0)
  | .number (.float x) => some (x != 0.0)
  | .string "1" => some true
  | .string "0" => some false
  | .string s => flagWord? s
  | _ => none

/-- The integer of decimal digits, which may follow a sign. -/
def decimal? (s : String) : Option Int :=
  match s.toList with
  | '-' :: digits => (Text.natural? digits).map fun n => -(n : Int)
  | '+' :: digits | digits => (Text.natural? digits).map Int.ofNat

/-- An integer of 64 bits. Doubles are rounded. -/
def integer? : Json → Option Int
  | .bool b => some b.toInt
  | .number (.int i) => some i
  | .number (.float x) => some x.round.toInt64.toInt
  | .string s =>
    match flagWord? s with
    | some b => some b.toInt
    | none => (decimal? s).filter isInt64
  | _ => none

/-- An offset in minutes, of which the low 32 bits count. -/
def offset? (json : Json) : Option Int := (integer? json).map fun i => i.bmod UInt32.size

/-- A seed. Doubles are rounded; null stands for no seed. -/
def seed? : Json → Option (Option UInt64)
  | .null => some none
  | .bool b => some (some b.toUInt64)
  | .number (.int i) => if i < 0 then none else some (some (.ofNat i.toNat))
  | .number (.float x) => some (some x.round.toUInt64)
  | .string s =>
    match flagWord? s with
    | some b => some (some b.toUInt64)
    | none =>
      let digits := match s.toList with
        | '+' :: digits | digits => digits
      ((Text.natural? digits).filter (· < UInt64.size)).map fun n => some (.ofNat n)
  | _ => none

def text? : Json → Option String
  | .bool b => some (if b then "true" else "false")
  | .number (.int i) => some (toString i)
  | .number (.float x) => some (DoubleFormat.message.render x)
  | .string s => some s
  | _ => none

def texts? (json : Json) : Option (List String) := json.array?.bind (·.mapM text?)

/-- A mode, by its name or by a table whose only member has its name. -/
def mode? : Json → Option GeneratorMode
  | .string s | .object [(s, _)] => GeneratorMode.ofName? (lower s)
  | _ => none

/-! ## Sections -/

abbrev Members : Type := List (String × Json)

/-- The members of a section, which can also be the list of its values in their order. -/
def members? (names : List String) : Json → Option Members
  | .object members => some members
  | .array values => some (names.zip values)
  | _ => none

/-- The value of a setting. -/
def setting {α : Type} (members : Members) (name : String) (read : Json → Option α)
    (default : α) : Option α :=
  match members.lookup name with
  | none => some default
  | some json => read json

def registry? (json : Json) : Option RegistrySettings := do
  let d := RegistrySettings.default
  let members ← members? (d.entries.map (·.1)) json
  return ⟨← setting members "model_dir" text? d.modelDirectory,
    ⟨← setting members "skip_prefixes" texts? d.filter.skipped,
      ← setting members "include_prefixes" texts? d.filter.included⟩,
    ← setting members "disable_validation" flag? d.disableValidation⟩

def encode? (json : Json) : Option EncodeOptions := do
  let d := EncodeOptions.default
  let members ← members? (d.entries.map (·.1)) json
  return ⟨← setting members "validate" flag? d.validate,
    ← setting members "permit_resources_for_relationships" flag? d.permitResources,
    ← setting members "convert_resources_to_relationships" flag? d.pointToResources,
    ← setting members "deduplicate_resources" flag? d.deduplicate,
    ← setting members "convert_resources_to_id" flag? d.bareIdentifiers,
    ← setting members "utc_offset" offset? d.utcOffset⟩

def decode? (json : Json) : Option DecodeOptions := do
  let d := DecodeOptions.default
  let members ← members? (d.entries.map (·.1)) json
  return ⟨← setting members "validate" flag? d.validate,
    ← setting members "accept_resources_for_relationships" flag? d.acceptResources,
    ← setting members "strict_qualified_date_times" flag? d.strictDateTimes,
    ← setting members "utc_offset" offset? d.utcOffset⟩

def generator? (json : Json) : Option GeneratorSettings := do
  let d := GeneratorSettings.default
  let members ← members? ["mode", "include_optional_fields", "seed"] json
  return ⟨← setting members "mode" mode? d.mode,
    ← setting members "include_optional_fields" flag? d.includeOptional,
    ← setting members "seed" seed? d.seed⟩

/-- The options of writing and reading instances. -/
def serializer? (json : Json) : Option (EncodeOptions × DecodeOptions) := do
  let members ← members? ["encode", "decode"] json
  return (← setting members "encode" encode? .default, ← setting members "decode" decode? .default)

/-- The settings of a tree. -/
def ofJson? (json : Json) : Option Settings := do
  let members ← json.object?
  let registry ← setting members "registry" registry? .default
  let (encode, decode) ← setting members "serializer" serializer? (.default, .default)
  let generator ← setting members "generator" generator? .default
  return ⟨registry, encode, decode, generator⟩

/-! ## Files -/

mutual

/-- Adds a value to a table. Another table is added member by member to what the name stands for. -/
def addMember (table : Members) (name : String) (value : Json) : Members :=
  match value with
  | .object members =>
    let before := ((table.lookup name).bind Json.object?).getD []
    Json.insertMember name (.object (addMembers before members)) table
  | .number (.int i) =>
    let value := if isInt64 i then value else .float (Number.int i).toFloat
    Json.insertMember name value table
  | value => Json.insertMember name value table

/-- Adds the members of one table to another. -/
def addMembers (table : Members) : Members → Members
  | [] => table
  | (name, value) :: rest => addMembers (addMember table (lower name) value) rest

end

/-- Characters of names that can be joined by points. -/
def isNameChar (c : Char) : Bool := Toml.isBareChar c || c = ' '

/-- A member whose name is a path, as the member of the first name on it. -/
def nest (member : String × Json) : String × Json :=
  let parts := Text.cutAll '.' member.1.toList
  if parts.any fun part => part.isEmpty || !part.all isNameChar then member
  else
    match parts.map String.ofList with
    | [] => member
    | name :: rest => (name, rest.foldr (fun name value => .object [(name, value)]) member.2)

/-- The settings in a file, in the format that the ending of its name tells. -/
def ofFile (name text : String) : Except Failure Settings :=
  let tree := match Text.cutLast '.' name.toList with
    | some (_ :: _, ['t', 'o', 'm', 'l']) => Toml.parse? text
    | some (_ :: _, ['j', 's', 'o', 'n']) => (Json.parse text).toOption
    | _ => none
  let settings := do
    let members ← (← tree).object?
    ofJson? (.object (addMembers [] (members.map nest)))
  match settings with
  | some settings => .ok settings
  | none => .error .badSettings

/-- Whether the settings are found again in their file. -/
def isRestored (s : Settings) (text : String) : Bool :=
  match ofFile "models.toml" text with
  | .ok found => found = s
  | .error _ => false

end DomainModels.Settings
