import DomainModels.Generator.Mode
import DomainModels.Loader
import DomainModels.Toml.Writer
import DomainModels.Wire.Options

/-!
The settings of a registry, of the reading and writing of instances, and of their generation.

Settings are written section by section. The entries of a section are the same in every format.
-/

namespace DomainModels

/-- Where models come from, and whether all of them have to be valid. -/
structure RegistrySettings where
  modelDirectory : String
  filter : LoadFilter
  disableValidation : Bool
  deriving DecidableEq, Repr

def RegistrySettings.default : RegistrySettings := ⟨"models", .default, false⟩

/-- How instances are generated. Without a seed, every run draws other values. -/
structure GeneratorSettings where
  mode : GeneratorMode
  includeOptional : Bool
  seed : Option UInt64
  deriving DecidableEq, Repr

def GeneratorSettings.default : GeneratorSettings := ⟨.empty, false, none⟩

/-- All settings. -/
structure Settings where
  registry : RegistrySettings
  encode : EncodeOptions
  decode : DecodeOptions
  generator : GeneratorSettings
  deriving DecidableEq, Repr

def Settings.default : Settings := ⟨.default, .default, .default, .default⟩

/-! ## Entries -/

def RegistrySettings.entries (s : RegistrySettings) : List (String × Toml.Entry) :=
  [("model_dir", .text s.modelDirectory), ("skip_prefixes", .texts s.filter.skipped),
    ("include_prefixes", .texts s.filter.included),
    ("disable_validation", .flag s.disableValidation)]

def EncodeOptions.entries (o : EncodeOptions) : List (String × Toml.Entry) :=
  [("validate", .flag o.validate), ("permit_resources_for_relationships", .flag o.permitResources),
    ("convert_resources_to_relationships", .flag o.pointToResources),
    ("deduplicate_resources", .flag o.deduplicate),
    ("convert_resources_to_id", .flag o.bareIdentifiers), ("utc_offset", .integer o.utcOffset)]

def DecodeOptions.entries (o : DecodeOptions) : List (String × Toml.Entry) :=
  [("validate", .flag o.validate), ("accept_resources_for_relationships", .flag o.acceptResources),
    ("strict_qualified_date_times", .flag o.strictDateTimes), ("utc_offset", .integer o.utcOffset)]

def GeneratorSettings.entries (s : GeneratorSettings) : List (String × Toml.Entry) :=
  [("mode", .text s.mode.name), ("include_optional_fields", .flag s.includeOptional)]
    ++ s.seed.toList.map fun seed => ("seed", .integer seed.toNat)

namespace Settings

/-- The settings as a JSON tree. -/
def toJson (s : Settings) : Json :=
  let table (entries : List (String × Toml.Entry)) : Json :=
    .object (entries.map fun (name, entry) => (name, entry.toJson))
  .object
    [("registry", table s.registry.entries),
      ("serializer",
        .object [("encode", table s.encode.entries), ("decode", table s.decode.entries)]),
      ("generator", table s.generator.entries)]

/-- The text of a settings file. Its integers are signed and have 64 bits, so that a larger seed
cannot be written. -/
def toToml (s : Settings) : Except Failure String :=
  if s.generator.seed.any (!isInt64 ·.toNat) then .error .fileTrouble
  else
    .ok <| Toml.render
      [("registry", s.registry.entries), ("serializer.encode", s.encode.entries),
        ("serializer.decode", s.decode.entries), ("generator", s.generator.entries)]

end Settings

/-- A registry of the models that the settings ask for, out of the files of their directory. -/
def Registry.ofSettings (files : List SourceFile) (s : Settings) : Except Failure Registry :=
  Registry.ofDirectory files s.registry.filter s.registry.disableValidation

end DomainModels
