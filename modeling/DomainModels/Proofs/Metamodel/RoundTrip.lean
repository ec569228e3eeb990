import DomainModels.Metamodel.Reader
import DomainModels.Proofs.Metamodel.Record
import DomainModels.Schema.ModelFile

/-!
Model trees are read back from what is written for them.

Every kind of node is read back as it was, whatever its values are. A model that was read has the
class of a model, so its tree is taken as a model once more.
-/

namespace DomainModels.Metamodel

open FieldReader

/-! ## Shared nodes -/

theorem restores_position : Restores readPosition Position.write := by
  intro inside p
  have hLine := Restores.required "line" restores_uint32 p.line
  have hColumn := Restores.required "column" restores_uint32 p.column
  have hOffset := Restores.defaulted "offset" 0 restores_uint32 p.offset
  exact readRecord_written (by decide) (((hLine.map Position.mk).seq hColumn).seq hOffset) _ inside

theorem restores_location : Restores readLocation Location.write := by
  intro inside l
  have hStart := Restores.required "start" restores_position l.start
  have hStop := Restores.required "end" restores_position l.stop
  have hSource := Restores.optional "source" restores_text (by simp) l.source
  exact readRecord_written (by decide) (((hStart.map Location.mk).seq hStop).seq hSource) _ inside

theorem restores_typeName : Restores readTypeName TypeName.write := by
  intro inside t
  have hName := Restores.required "name" restores_text t.name
  have hSpace := Restores.optional "namespace" restores_text (by simp) t.space
  exact readRecord_written (by decide) ((hName.map TypeName.mk).seq hSpace) _ inside

theorem restores_decoratorArgument : Restores readDecoratorArgument DecoratorArgument.write := by
  intro inside a
  cases a with
  | text value =>
      have hValue := Restores.required "value" restores_text value
      exact readTagged_written rfl (by decide) (hValue.map DecoratorArgument.text) _ inside
  | number value =>
      have hValue := Restores.required "value" restores_double value
      exact readTagged_written rfl (by decide) (hValue.map DecoratorArgument.number) _ inside
  | flag value =>
      have hValue := Restores.required "value" restores_flag value
      exact readTagged_written rfl (by decide) (hValue.map DecoratorArgument.flag) _ inside
  | typeReference type isArray =>
      have hType := Restores.required "type" restores_typeName type
      have hArray := Restores.defaulted "isArray" false restores_flag isArray
      exact readTagged_written rfl (by decide)
        ((hType.map DecoratorArgument.typeReference).seq hArray) _ inside

theorem restores_decorator : Restores readDecorator Decorator.write := by
  intro inside d
  have hName := Restores.required "name" restores_text d.name
  have hArguments := Restores.sequence "arguments" restores_decoratorArgument d.arguments
  have hLocation := Restores.optional "location" restores_location (by nofun) d.location
  exact readRecord_written (by decide)
    (((hName.map Decorator.mk).seq hArguments).seq hLocation) _ inside

theorem restores_textPattern : Restores readTextPattern TextPattern.write := by
  intro inside p
  have hPattern := Restores.required "pattern" restores_text p.pattern
  have hFlags := Restores.defaulted "flags" "" restores_text p.flags
  exact readRecord_written (by decide) ((hPattern.map TextPattern.mk).seq hFlags) _ inside

theorem restores_textLength : Restores readTextLength TextLength.write := by
  intro inside l
  have hMin := Restores.optional "minLength" restores_int64 (by nofun) l.minLength
  have hMax := Restores.optional "maxLength" restores_int64 (by nofun) l.maxLength
  exact readRecord_written (by decide) ((hMin.map TextLength.mk).seq hMax) _ inside

theorem restores_bounds {α : Type} {read : NodeReader α} {write : α → Json}
    (h : Restores read write) (hSome : ∀ value, write value ≠ .null) :
    Restores (readBounds read) (Bounds.write write) := by
  intro inside b
  have hLower := Restores.optional "lower" h hSome b.lower
  have hUpper := Restores.optional "upper" h hSome b.upper
  have hNodup : ["lower", "upper"].Nodup := by decide
  exact readRecord_written hNodup ((hLower.map Bounds.mk).seq hUpper) _ inside

/-! ## Imports -/

theorem restores_import : Restores readImport Import.write := by
  rintro inside ⟨space, scope, uri⟩
  have hSpace := Restores.required "namespace" restores_text space
  have hUri := Restores.optional "uri" restores_text (by nofun) uri
  cases scope with
  | all => exact readTagged_written rfl (by decide) ((hSpace.map _).seq hUri) _ inside
  | one name =>
      have hName := Restores.required "name" restores_text name
      exact readTagged_written rfl (by decide) (((hSpace.map _).seq hName).seq hUri) _ inside
  | several names =>
      have hNames := Restores.required "types" restores_text.items names
      exact readTagged_written rfl (by decide) (((hSpace.map _).seq hNames).seq hUri) _ inside

/-! ## Properties -/

theorem restores_annotations (decorators : List Decorator) (location : Option Location) :
    annotations.Restores (annotationMembers decorators location) (decorators, location) :=
  ((Restores.listed "decorators" restores_decorator decorators).map Prod.mk).seq
    (Restores.optional "location" restores_location (by nofun) location)

theorem restores_multiplicity (many opt : Bool) :
    multiplicity.Restores (multiplicityMembers many opt) (many, opt) :=
  ((Restores.defaulted "isArray" false restores_flag many).map Prod.mk).seq
    (Restores.defaulted "isOptional" false restores_flag opt)

/-- The reader of the fields of a primitive type. -/
def Primitive.fields : Primitive → FieldReader Primitive
  | .string .. => stringFields
  | .integer .. => numberFields .integer readInt64
  | .long .. => numberFields .long readInt64
  | .double .. => numberFields .double readDouble
  | .boolean _ => booleanFields

theorem restores_numberFields {α : Type} {read : NodeReader α} {write : α → Json}
    (h : Restores read write) (hSome : ∀ value, write value ≠ .null)
    (make : Option α → Option (Bounds α) → Primitive) (default : Option α)
    (bounds : Option (Bounds α)) :
    (numberFields make read).Restores
      [optionalMember "defaultValue" write default,
       optionalMember "validator" (Bounds.write write) bounds] (make default bounds) :=
  ((Restores.optional "defaultValue" h hSome default).map make).seq
    (Restores.optional "validator" (restores_bounds h hSome) (by nofun) bounds)

theorem restores_primitive (p : Primitive) : p.fields.Restores p.members p := by
  cases p with
  | string default pattern length =>
      have hDefault := Restores.optional "defaultValue" restores_text (by nofun) default
      have hPattern := Restores.optional "validator" restores_textPattern (by nofun) pattern
      have hLength := Restores.optional "lengthValidator" restores_textLength (by nofun) length
      exact ((hDefault.map Primitive.string).seq hPattern).seq hLength
  | integer default bounds => exact restores_numberFields restores_int64 (by nofun) _ _ _
  | long default bounds => exact restores_numberFields restores_int64 (by nofun) _ _ _
  | double default bounds => exact restores_numberFields restores_double (by nofun) _ _ _
  | boolean default =>
      have hDefault := Restores.optional "defaultValue" restores_flag (by nofun) default
      exact hDefault.map Primitive.boolean

theorem restores_typedProperty {fields : FieldReader PropertyType}
    {written : List (Option (String × Json))} {type : PropertyType}
    (h : fields.Restores written type) (name : String) (many opt : Bool)
    (decorators : List Decorator) (location : Option Location) :
    (typedProperty fields).Restores
      (member "name" (.string name) :: multiplicityMembers many opt ++ written
        ++ annotationMembers decorators location)
      ⟨name, .typed type many opt, decorators, location⟩ := by
  have hName := Restores.required "name" restores_text name
  exact (((hName.map _).seq (restores_multiplicity many opt)).seq h).seq
    (restores_annotations decorators location)

theorem restores_referringProperty {fields : FieldReader (Option String)}
    {written : List (Option (String × Json))} {default : Option String}
    (h : fields.Restores written default) (make : TypeName → Option String → PropertyType)
    (name : String) (target : TypeName) (many opt : Bool) (decorators : List Decorator)
    (location : Option Location) :
    (referringProperty fields make).Restores
      (member "name" (.string name) :: member "type" target.write :: multiplicityMembers many opt
        ++ written ++ annotationMembers decorators location)
      ⟨name, .typed (make target default) many opt, decorators, location⟩ := by
  have hName := Restores.required "name" restores_text name
  have hType := Restores.required "type" restores_typeName target
  exact ((((hName.map _).seq hType).seq (restores_multiplicity many opt)).seq h).seq
    (restores_annotations decorators location)

theorem restores_property : Restores readProperty Property.write := by
  rintro inside ⟨name, shape, decorators, location⟩
  cases shape with
  | enumValue =>
      have hName := Restores.required "name" restores_text name
      exact readTagged_written rfl (by decide)
        ((hName.map _).seq (restores_annotations decorators location)) _ inside
  | typed type many opt =>
      cases type with
      | primitive p =>
          have hFields := restores_typedProperty ((restores_primitive p).map .primitive) name many
            opt decorators location
          cases p <;> exact readTagged_written rfl (by decide) hFields _ inside
      | dateTime =>
          have hFields := restores_typedProperty (.constant .dateTime) name many opt decorators
            location
          exact readTagged_written rfl (by decide) hFields _ inside
      | object target default =>
          have hDefault := Restores.optional "defaultValue" restores_text (by nofun) default
          have hFields := restores_referringProperty hDefault .object name target many opt
            decorators location
          exact readTagged_written rfl (by decide) hFields _ inside
      | relationship target =>
          have hFields := restores_referringProperty (.constant none)
            (fun type _ => .relationship type) name target many opt decorators location
          exact readTagged_written rfl (by decide) hFields _ inside

/-! ## Declarations -/

/-- A form that consists of its tag is read back from the tag. -/
theorem readTagged_plain {α : Type} {forms : List (Form α)} {name : String} {value : α}
    (hForm : forms.find? (·.className == nodeClass name) = some (.plain name value))
    (label : String) (inside : Bool) :
    readTagged label forms inside (objectOf [tag name]) = .ok value :=
  readTagged_written hForm (List.nodup_singleton _) (.constant value) label inside

theorem restores_identified : Restores readIdentified Identified.write := by
  intro inside i
  cases i with
  | system => exact readTagged_plain rfl _ inside
  | «by» name =>
      have hName := Restores.required "name" restores_text name
      exact readTagged_written rfl (by decide) (hName.map Identified.by) _ inside

theorem restores_mapKeyType : Restores readMapKeyType MapKeyType.write := by
  intro inside key
  cases key with
  | object type =>
      have hType := Restores.required "type" restores_typeName type
      exact readTagged_written rfl (by decide) (hType.map MapKeyType.object) _ inside
  | _ => exact readTagged_plain rfl _ inside

theorem restores_mapValueType : Restores readMapValueType MapValueType.write := by
  intro inside value
  cases value with
  | object type =>
      have hType := Restores.required "type" restores_typeName type
      exact readTagged_written rfl (by decide) (hType.map MapValueType.object) _ inside
  | relationship type =>
      have hType := Restores.required "type" restores_typeName type
      exact readTagged_written rfl (by decide) (hType.map MapValueType.relationship) _ inside
  | _ => exact readTagged_plain rfl _ inside

theorem restores_declarationOf {fields : FieldReader DeclarationBody}
    {written : List (Option (String × Json))} {body : DeclarationBody}
    (h : fields.Restores written body) (name : String) (decorators : List Decorator)
    (location : Option Location) :
    (declaration fields).Restores
      (member "name" (.string name) :: written ++ annotationMembers decorators location)
      ⟨name, body, decorators, location⟩ := by
  have hName := Restores.required "name" restores_text name
  exact ((hName.map _).seq h).seq (restores_annotations decorators location)

theorem restores_declaration : Restores readDeclaration Declaration.write := by
  rintro inside ⟨name, body, decorators, location⟩
  cases body with
  | classBody kind isAbstract superType identified properties =>
      have hAbstract := Restores.defaulted "isAbstract" false restores_flag isAbstract
      have hSuper := Restores.optional "superType" restores_typeName (by nofun) superType
      have hIdentified := Restores.optional "identified" restores_identified
        (by rintro (_ | _) <;> nofun) identified
      have hProperties := Restores.sequence "properties" restores_property properties
      have hFields := restores_declarationOf
        ((((hAbstract.map (DeclarationBody.classBody kind)).seq hSuper).seq hIdentified).seq
          hProperties) name decorators location
      cases kind <;> exact readTagged_written rfl (by decide) hFields _ inside
  | enumBody properties =>
      have hProperties := Restores.sequence "properties" restores_property properties
      have hFields := restores_declarationOf (hProperties.map DeclarationBody.enumBody) name
        decorators location
      exact readTagged_written rfl (by decide) hFields _ inside
  | mapBody key value =>
      have hKey := Restores.required "key" restores_mapKeyType key
      have hValue := Restores.required "value" restores_mapValueType value
      have hFields := restores_declarationOf ((hKey.map DeclarationBody.mapBody).seq hValue) name
        decorators location
      exact readTagged_written rfl (by decide) hFields _ inside
  | scalarBody type =>
      cases type with
      | primitive p =>
          have hFields := restores_declarationOf
            (((restores_primitive p).map ScalarType.primitive).map DeclarationBody.scalarBody) name
            decorators location
          cases p <;> exact readTagged_written rfl (by decide) hFields _ inside
      | dateTime default =>
          have hDefault := Restores.optional "defaultValue" restores_text (by nofun) default
          have hFields := restores_declarationOf
            ((hDefault.map ScalarType.dateTime).map DeclarationBody.scalarBody) name decorators
            location
          exact readTagged_written rfl (by decide) hFields _ inside

/-! ## Models -/

theorem restores_model : Restores readModel Model.toJson := by
  intro inside m
  have hClass := Restores.required "$class" restores_text m.className
  have hSpace := Restores.required "namespace" restores_text m.space
  have hUri := Restores.optional "sourceUri" restores_text (by nofun) m.sourceUri
  have hImports := Restores.listed "imports" restores_import m.imports
  have hDeclarations := Restores.sequence "declarations" restores_declaration m.declarations
  have hDecorators := Restores.listed "decorators" restores_decorator m.decorators
  exact readRecord_written (by decide)
    ((((((hClass.map Model.mk).seq hSpace).seq hUri).seq hImports).seq hDeclarations).seq
      hDecorators) _ inside

/-- A model keeps the class that its tree names. -/
theorem className_of_readModel {json : Json} {m : Model} {name : String}
    (hClass : classOf json = .ok name) (hRead : readModel false json = .ok m) :
    m.className = name := by
  cases json with
  | object members =>
      simp only [readModel, readRecord, readMembers, Outcome.mapError_eq_ok, run_seq_eq_ok,
        run_map_eq_ok, run_required_eq_ok] at hRead
      obtain ⟨_, _, ⟨_, _, ⟨_, _, ⟨_, _, ⟨_, _, ⟨named, ⟨tag, hTag, hNamed⟩, rfl⟩, -, rfl⟩, -,
        rfl⟩, -, rfl⟩, -, rfl⟩, -, rfl⟩ := hRead
      have hGet : (Json.object members).get? "$class" = some tag := hTag
      cases tag with
      | string text =>
          cases hNamed
          rw [classOf, hGet] at hClass
          exact Except.ok.inj hClass
      | _ => cases hNamed
  | _ => cases hClass

/-- A model of the right class is read back from its tree. -/
theorem Model.ofJson_of_className {m : Model}
    (hClass : checkNodeClass m.className "Model" = .ok ()) : Model.ofJson m.toJson = .ok m := by
  have hNamed : classOf m.toJson = .ok m.className := rfl
  rw [Model.ofJson, hNamed]
  simp [hClass, restores_model false m]

/-- A model that was read is read once more from the tree that is written for it. What is written
for it then is the same tree, and a file that is made of it is the same, with its checksum. -/
theorem Model.ofJson_toJson {json : Json} {m : Model} (hRead : Model.ofJson json = .ok m) :
    Model.ofJson m.toJson = .ok m ∧
      (Model.ofJson m.toJson).map Model.toJson = .ok m.toJson ∧
      ∀ fileName factories file, ModelFile.ofModel m fileName factories = .ok file →
        ∃ again, Model.ofJson file.model.toJson = .ok again ∧
          ModelFile.ofModel again fileName factories = .ok file ∧
          ModelFile.checksumOf again = file.checksum := by
  have hAgain : Model.ofJson m.toJson = .ok m := by
    simp only [Model.ofJson, Outcome.bind_eq_ok, Outcome.mapError_eq_ok, Outcome.exists_unit]
      at hRead
    obtain ⟨name, hNamed, hClass, hModel⟩ := hRead
    exact Model.ofJson_of_className (className_of_readModel hNamed hModel ▸ hClass)
  refine ⟨hAgain, by rw [hAgain]; rfl, ?_⟩
  intro fileName factories file hFile
  obtain ⟨hModel, hChecksum⟩ : file.model = m ∧ file.checksum = ModelFile.checksumOf m := by
    simp only [ModelFile.ofModel, Outcome.bind_eq_ok, Outcome.pure_eq_ok] at hFile
    obtain ⟨_, -, _, -, _, -, _, -, rfl⟩ := hFile
    exact ⟨rfl, rfl⟩
  exact ⟨m, hModel ▸ hAgain, hFile, hChecksum.symm⟩

namespace Receipts

/-- A tree whose members come in an order of their own. It leaves out a flag, and it gives a bound
on doubles as an integer. -/
def tree : Json :=
  .object
    [("namespace", .string "receipts@1.0.0"), ("$class", .string (nodeClass "Model")),
     ("imports", .array []),
     ("declarations", .array
      [.object
        [("properties", .array
          [.object
            [("name", .string "total"), ("isOptional", .bool true),
             ("$class", .string (nodeClass "DoubleProperty")),
             ("validator", .object [("lower", .int 0)])]]),
         ("name", .string "Receipt"), ("$class", .string (nodeClass "AssetDeclaration"))]])]

/-- The model of the tree. -/
def model : Model :=
  ⟨nodeClass "Model", "receipts@1.0.0", none, [],
    [⟨"Receipt", .classBody .asset false none none
      [⟨"total", .typed (.primitive (.double none (some ⟨some (Float.ofInt 0), none⟩))) false true,
        [], none⟩], [], none⟩], []⟩

theorem ofJson_tree : Model.ofJson tree = .ok model := by rfl

end Receipts

theorem Model.ofJson_receipts :
    Model.ofJson Receipts.tree = .ok Receipts.model ∧
      Model.ofJson Receipts.model.toJson = .ok Receipts.model :=
  ⟨Receipts.ofJson_tree, (Model.ofJson_toJson Receipts.ofJson_tree).1⟩

end DomainModels.Metamodel
