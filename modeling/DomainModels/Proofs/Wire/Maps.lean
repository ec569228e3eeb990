import DomainModels.Proofs.Wire.Agreement

/-!
Maps that are written and read back.

A map whose keys are texts is written as an object with one member for each entry, named by the key.
The reader takes the members in their order, but it leaves out those whose names belong to the
system. These entries are lost, and neither the writer nor the reader says so.
-/

namespace DomainModels

open Encoder (asRead)

/-- What a value of an enumeration is read back as: a text is the name of a value. -/
def Encoder.asEnum : Value → Value
  | .string name => .enum name
  | value => value

/-- What the values of a type are read back as, where they are primitive values other than instants,
or values of an enumeration. -/
inductive Registry.ReadsAs (r : Registry) : ResolvedType → (Value → Value) → Prop where
  | value {type : ResolvedType} {v : ValueType} (hType : type.value? = some v)
      (hPlain : v.primitive ≠ .dateTime) : ReadsAs r type (asRead v.primitive)
  | enum {target : String} {default : Option String} {d : Declaration} {values : List EnumValue}
      (hType : r.getType target = .ok d) (hBody : d.body = .enumBody values) :
      ReadsAs r (.declared target default) Encoder.asEnum

/-- Maps whose keys are texts, and what their values are read back as. -/
structure Registry.IsPlainMap (r : Registry) (m : ResolvedMap) (readAs : Value → Value) : Prop where
  key : ∃ validator default, m.key.type.value? = some (.string validator default)
  value : r.ReadsAs m.value.type readAs

namespace Encoder

variable {e : Encoder} {p : ResolvedProperty} {path : Path} {value : Value} {json : Json}
  {readAs : Value → Value} {entries : List (Value × Value)} {members : List (String × Json)}
  {validator : Option TextValidator} {keyDefault : Option String}

/-- Keys that are texts with a name of the system. -/
def isSystemKey (key : Value) : Bool := key.string?.any isSystemName

/-- The entries that are read back. -/
def entriesRead (readAs : Value → Value) (entries : List (Value × Value)) : List (Value × Value) :=
  (entries.filter fun entry => !isSystemKey entry.1).map fun entry => (entry.1, readAs entry.2)

theorem entriesRead_cons (readAs : Value → Value) (name : String) (item : Value)
    (rest : List (Value × Value)) :
    entriesRead readAs ((.string name, item) :: rest) =
      if isSystemName name then entriesRead readAs rest
      else (.string name, readAs item) :: entriesRead readAs rest := by
  cases hSystem : isSystemName name <;> simp [entriesRead, isSystemKey, Value.string?, hSystem]

/-! ## Items -/

section

variable (hValidate : e.options.validate = true)

include hValidate

theorem decodeEnum_of_encodeEnum {target : String} {values : List EnumValue}
    (hWritten : e.encodeEnum target values path value = .ok json) (now : DateTime) (place : Path) :
    (Decoder.standard e.registry now).decodeEnum target values place json =
      .ok (asEnum value) := by
  obtain ⟨name, hValue, rfl, hHas⟩ := encodeEnum_eq_ok hWritten
  refine Decoder.decodeEnum_eq_ok.mpr ⟨name, rfl, hHas hValidate, ?_⟩
  rcases hValue with rfl | rfl <;> rfl

/-- What is written for a plain item is read as the item. -/
theorem decodeItem_of_readsAs (hReads : e.registry.ReadsAs p.type readAs)
    (hWritten : MayWrite (e.encodeItem p path value) json) (now : DateTime) (place : Path) :
    (Decoder.standard e.registry now).decodeItem p place json = .ok (readAs value) := by
  generalize hResolved : p.type = type at hReads
  cases hReads with
  | value hType hPlain =>
      rw [← hResolved] at hType
      obtain ⟨hChecked, hTree⟩ := encodeValue_eq_ok.mp (hWritten.item.of_valueType hType)
      rw [Decoder.decodeItem_of_valueType hType]
      exact decodeValue_of_writesValue hPlain (hChecked hValidate) hTree now place
  | @enum target default d values hType hBody =>
      rw [encodeItem_of_enumBody hResolved hType hBody] at hWritten
      have hEnum : e.encodeEnum target values path value = .ok json := mayWrite_lift.mp hWritten
      rw [Decoder.decodeItem_of_enumBody hResolved hType hBody]
      exact decodeEnum_of_encodeEnum hValidate hEnum now place

/-! ## Entries -/

/-- A key that is a text names its member. -/
theorem WritesEntry.key_eq {entry : Value × Value} {member : String × Json}
    (hEntry : e.WritesEntry (.string validator keyDefault) p path entry member) :
    entry.1 = .string member.1 := by
  obtain ⟨hChecked, hTree⟩ := encodeValue_eq_ok.mp hEntry.1
  have hText := hChecked hValidate
  generalize entry.1 = key at hText hTree
  cases key with
  | string text =>
      cases hTree
      rfl
  | _ => cases hText

/-- The members of a map are read as its entries, but for those with a name of the system. -/
theorem decodeEntries_of_forall₂ (hReads : e.registry.ReadsAs p.type readAs)
    (hWritten : List.Forall₂ (e.WritesEntry (.string validator keyDefault) p path) entries members)
    (now : DateTime) (place : Path) :
    (Decoder.standard e.registry now).decodeEntries (.string validator keyDefault) p place members =
      .ok (entriesRead readAs entries) := by
  induction hWritten with
  | nil =>
      rw [Decoder.decodeEntries]
      rfl
  | @cons entry member entries members hEntry _ ih =>
      obtain ⟨key, item⟩ := entry
      obtain ⟨name, tree⟩ := member
      obtain rfl : key = .string name := hEntry.key_eq hValidate
      rw [Decoder.decodeEntries, entriesRead_cons]
      cases isSystemName name with
      | true => exact ih
      | false =>
          obtain ⟨hChecked, hTree⟩ := encodeValue_eq_ok.mp hEntry.1
          have hString : (ValueType.string validator keyDefault).primitive ≠ .dateTime := by
            rintro ⟨⟩
          have hKey := decodeValue_of_writesValue (r := e.registry) hString (hChecked hValidate)
            hTree now (place.field name)
          have hItem := decodeItem_of_readsAs hValidate hReads hEntry.2 now (place.field name)
          rw [if_neg Bool.noConfusion, hKey, hItem, ih]
          rfl

/-- Different keys are written into an object with one member for each of them, and those that do
not belong to the system are read back. -/
theorem exists_decodeItem_of_map {m : ResolvedMap} {target : String} {default : Option String}
    (hType : p.type = .declared target default) (hMap : e.registry.index.map? target = some m)
    (hPlain : e.registry.IsPlainMap m readAs) (hDistinct : (entries.map Prod.fst).Nodup)
    (hWritten : MayWrite (e.encodeItem p path (.map entries)) json) :
    ∃ members, json = .object members ∧
      List.Forall₂ (fun entry member => entry.1 = .string member.1) entries members ∧
      ∀ now place, (Decoder.standard e.registry now).decodeItem p place json =
        .ok (.map (entriesRead readAs entries)) := by
  obtain ⟨validator, keyDefault, hKey⟩ := hPlain.key
  obtain ⟨other, _, d, _, _, hOther, hDeclared, hBody, hItem⟩ := hWritten.item.of_map
  rw [hType] at hOther
  cases hOther
  obtain ⟨found, keyType, members, hFound, hKeyType, hMembers, rfl⟩ := hItem.map
  rw [hMap] at hFound
  cases hFound
  rw [hKey] at hKeyType
  cases hKeyType
  have hKeys : List.Forall₂ (fun entry member => entry.1 = .string member.1) entries members :=
    hMembers.imp fun _ _ hEntry => hEntry.key_eq hValidate
  have hNames : entries.map Prod.fst = (members.map (·.1)).map Value.string := by
    rw [List.map_map, ← List.forall₂_eq_eq_eq, List.forall₂_map_left_iff,
      List.forall₂_map_right_iff]
    exact hKeys
  have hObject : Json.insertMembers members [] = members :=
    Json.insertMembers_of_nodup (.of_map _ (hNames ▸ hDistinct))
  rw [hObject]
  refine ⟨members, rfl, hKeys, fun now place => ?_⟩
  have hValueType : m.key.type.value? = some (.string validator keyDefault) := hKey ▸ rfl
  rw [Decoder.decodeItem_of_mapBody hType hDeclared hBody]
  exact Decoder.decodeMap_of_entries hMap hValueType
    (decodeEntries_of_forall₂ hValidate hPlain.value hMembers now place)

end

/-- Wherever a validating writer writes a map with different texts as its keys and plain values, the
object has one member for each entry, in their order. With the default options, it is read as the
entries whose keys do not belong to the system, in the same order. -/
theorem exists_decodeProperty_of_map (hValidate : e.options.validate = true) {target : String}
    {default : Option String} (hType : p.type = .declared target default) {m : ResolvedMap}
    (hMap : e.registry.index.map? target = some m) (hPlain : e.registry.IsPlainMap m readAs)
    (hDistinct : (entries.map Prod.fst).Nodup) {seen later : List String}
    (hWritten : Runs (e.encodeProperty p path (.map entries)) seen json later) :
    ∃ members, json = .object members ∧
      List.Forall₂ (fun entry member => entry.1 = .string member.1) entries members ∧
      ∀ now place, (Decoder.standard e.registry now).decodeProperty p place json =
        .ok (.map ((entries.filter fun entry => !isSystemKey entry.1).map
          fun entry => (entry.1, readAs entry.2))) := by
  rcases hWritten.mayWrite.property with ⟨hSingle, hItem⟩ | ⟨_, _, _, hArray, _⟩
  · obtain ⟨members, hObject, hKeys, hReads⟩ :=
      exists_decodeItem_of_map hValidate hType hMap hPlain hDistinct hItem
    refine ⟨members, hObject, hKeys, fun now place => ?_⟩
    rw [Decoder.decodeProperty.eq_def, hSingle]
    exact hReads now place
  · cases hArray

end Encoder

/-! ## A model of scores

A score has a tally, which maps names to how often they have been counted.
-/

namespace Tally

open Encoder

def space : String := "tally@1.0.0"

/-- The syntax tree of the model. -/
def model : Metamodel.Model :=
  { Metamodel.Model.empty space with
    declarations :=
      [⟨"Tally", .mapBody .string .integer, [], none⟩,
       ⟨"Score", .classBody .concept false none none
         [⟨"tally", .typed (.object ⟨"Tally", none⟩ none) false false, [], none⟩], [], none⟩] }

def tallyProperty : Property := ⟨"tally", .declared ⟨"Tally", none⟩ none, false, false, [], none⟩

/-- The model file. -/
def file : ModelFile where
  space := space
  version := ⟨"tally", some ⟨1, 0, 0, "", ""⟩⟩
  fileName := none
  checksum := ModelFile.checksumOf model
  model := model
  declarations :=
    [⟨"Tally", space, .mapBody (.value (.string none none)) (.value (.integer none none)), [],
       none⟩,
     ⟨"Score", space, .classBody ⟨.concept, false, none, none, [tallyProperty]⟩, [], none⟩]
  explicitImports := []
  wildcardImports := []
  decorators := []

def tally : ResolvedProperty :=
  ⟨tallyProperty, "tally@1.0.0.Score", .declared "tally@1.0.0.Tally" none⟩

/-- The class of scores. -/
def scoreClass : ResolvedClass := .concept space "Score" none none [tally]

/-- The parts of a tally. -/
def tallyMap : ResolvedMap where
  fqn := "tally@1.0.0.Tally"
  key := ⟨⟨mapKeyField, .value (.string none none), false, false, [], none⟩, "tally@1.0.0.Tally",
    .value (.string none none)⟩
  value := ⟨⟨mapValueField, .value (.integer none none), false, false, [], none⟩,
    "tally@1.0.0.Tally", .value (.integer none none)⟩

/-- The registry into which the model has been loaded. -/
def registry : Registry where
  files := [(rootNamespace, Root.file), (space, file)]
  index := ⟨Root.index.classes ++ [scoreClass], [tallyMap]⟩
  factories := []

theorem build_files : TypeIndex.build registry.files .strict = .ok registry.index := by
  have hEach : TypeIndex.resolveEach registry.files .strict [scoreClass.fqn] Root.findings =
      .ok [scoreClass] :=
    Root.resolveEach_cons_sub rfl rfl rfl rfl rfl rfl
  exact (Root.build_of_rest rfl rfl rfl hEach rfl rfl rfl).trans
    (TypeIndex.checkPointers_of_no_pointers .strict (by decide) (by decide))

theorem run_model : (Session.initial.run [.addModel ⟨model, none⟩]).registry = registry := by
  have hMade : Session.initial.registry.makeFile ⟨model, none⟩ = .ok file := rfl
  exact Session.run_addModel (Registry.addModel_of_build hMade rfl build_files)

/-- The writer and the reader with the default options. -/
def writer : Encoder := standard registry

def reader (now : DateTime) : Decoder := .standard registry now

/-- The entries of a tally. -/
def entriesOf (counts : List (String × Int64)) : List (Value × Value) :=
  counts.map fun count => (.string count.1, .long count.2)

/-- The members that are written for them. -/
def membersOf (counts : List (String × Int64)) : List (String × Json) :=
  counts.map fun count => (count.1, .int count.2.toInt)

theorem runs_entries (counts : List (String × Int64)) (path : Path)
    (front : List (String × Json)) :
    Runs (writer.encodeEntries (.string none none) tallyMap.value path front
      (entriesOf counts)) [] (Json.insertMembers (membersOf counts) front) [] := by
  induction counts generalizing front with
  | nil =>
      rw [entriesOf, List.map_nil, encodeEntries]
      exact runs_pure.mpr ⟨rfl, rfl⟩
  | cons count rest ih =>
      have hCount : Runs (writer.encodeItem tallyMap.value (path.field count.1)
          (.long count.2)) [] (.int count.2.toInt) [] := by
        rw [encodeItem_of_valueType rfl]
        exact runs_lift.mpr ⟨rfl, rfl⟩
      rw [entriesOf, List.map_cons, encodeEntries]
      exact runs_lift_bind.mpr ⟨.string count.1, rfl, runs_bind.mpr ⟨_, _, hCount, ih _⟩⟩

/-- Every tally is written, whatever its names are. -/
theorem runs_tally (counts : List (String × Int64)) (path : Path) :
    Runs (writer.encodeProperty tally path (.map (entriesOf counts))) []
      (.object (Json.insertMembers (membersOf counts) [])) [] := by
  rw [encodeProperty.eq_def, if_neg (by decide), encodeItem_of_mapBody rfl rfl rfl]
  exact runs_encodeMap.mpr ⟨tallyMap, _, _, rfl, rfl, runs_entries counts path [], rfl⟩

theorem isPlainMap_tallyMap : registry.IsPlainMap tallyMap (asRead .integer) where
  key := ⟨none, none, rfl⟩
  value := .value (v := .integer none none) rfl nofun

end Tally

namespace Encoder

open Tally

/-- A tally in which a name belongs to the system loses the count of this name. -/
theorem exists_decodeProperty_tally : writer.options.validate = true ∧
    Runs (writer.encodeProperty tally .root
        (.map (entriesOf [("b", 1), ("$a", 2), ("a", 3)]))) []
      (.object (membersOf [("b", 1), ("$a", 2), ("a", 3)])) [] ∧
    ∀ now, (reader now).decodeProperty tally .root
        (.object (membersOf [("b", 1), ("$a", 2), ("a", 3)])) =
      .ok (.map [(.string "b", .integer 1), (.string "a", .integer 3)]) := by
  have hWritten := runs_tally [("b", 1), ("$a", 2), ("a", 3)] .root
  have hDistinct : ((entriesOf [("b", 1), ("$a", 2), ("a", 3)]).map Prod.fst).Nodup := by
    simp [entriesOf]
  obtain ⟨_, _, _, hReads⟩ :=
    exists_decodeProperty_of_map rfl rfl rfl isPlainMap_tallyMap hDistinct hWritten
  exact ⟨rfl, hWritten, fun now => hReads now .root⟩

/-- A tally of a validated registry whose only name belongs to the system is read as an empty one,
and of two counts of one name only the second one is written. -/
theorem decodeProperty_tally :
    (Session.initial.run [.addModel ⟨model, none⟩]).registry = writer.registry ∧
    writer.registry.validate = .ok () ∧
    Runs (writer.encodeProperty tally .root (.map [(.string "$a", .long 1)])) []
      (.object [("$a", .int 1)]) [] ∧
    (∀ now, (reader now).decodeProperty tally .root (.object [("$a", .int 1)]) =
      .ok (.map [])) ∧
    Runs (writer.encodeProperty tally .root
        (.map [(.string "a", .long 1), (.string "a", .long 2)])) []
      (.object [("a", .int 2)]) [] := by
  refine ⟨run_model, Registry.validate_of_build build_files, runs_tally [("$a", 1)] .root,
    fun now => ?_, runs_tally [("a", 1), ("a", 2)] .root⟩
  have hDistinct : ((entriesOf [("$a", 1)]).map Prod.fst).Nodup := List.nodup_singleton _
  rcases (runs_tally [("$a", 1)] .root).mayWrite.property with ⟨_, hItem⟩ | ⟨hArray, _⟩
  · obtain ⟨_, _, _, hReads⟩ :=
      exists_decodeItem_of_map rfl rfl rfl isPlainMap_tallyMap hDistinct hItem
    rw [Decoder.decodeProperty.eq_def, if_neg (by decide)]
    exact hReads now .root
  · cases hArray

end Encoder

end DomainModels
