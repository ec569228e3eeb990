import DomainModels.Proofs.Json.Double
import DomainModels.Proofs.Json.Tree
import DomainModels.Proofs.Metamodel.Bundle

/-!
The numbers of models that are read from trees.

Texts have no infinite numbers, and neither have the trees that stand for them. A reader yields what
it finds in its tree: what holds of single values holds of fields and records, and from these of the
nodes of a model one after another.
-/

namespace DomainModels.Metamodel

variable {α β : Type} {P : α → Prop}

/-! ## What readers yield -/

/-- Whatever a reader takes from a tree of a text has a property. -/
def Yields (read : NodeReader α) (P : α → Prop) : Prop :=
  ∀ inside json value, json.IsWellFormed → read inside json = .ok value → P value

/-- Integers are rounded, which does not take them out of the range of doubles. -/
theorem yields_double : Yields readDouble fun x => x.isFinite = true := by
  intro inside json x hJson hRead
  unfold readDouble at hRead
  split at hRead
  · cases hRead
    cases hJson with
    | int i => exact Number.isFinite_nearestDouble i
    | float hFinite => exact hFinite
  · cases hRead

theorem Yields.items {item : NodeReader α} (hItem : Yields item P) :
    Yields (readItems item) fun values => ∀ value ∈ values, P value := by
  intro inside json values hJson hRead value hMem
  unfold readItems at hRead
  split at hRead
  · obtain ⟨item, hFound, hItemRead⟩ := Outcome.exists_of_mem_mapM hRead hMem
    exact hItem inside item value (Json.isWellFormed_array.mp hJson item hFound) hItemRead
  · cases hRead

theorem Yields.nullable {read : NodeReader α} (hRead : Yields read P) :
    Yields (readNullable read) fun value? => ∀ value ∈ value?, P value := by
  intro inside json value? hJson hNullable value hMem
  unfold readNullable at hNullable
  split at hNullable
  · cases hNullable
    cases hMem
  · obtain ⟨found, hFound, rfl⟩ := Outcome.map_eq_ok.mp hNullable
    cases hMem
    exact hRead inside json value hJson hFound

namespace FieldReader

/-- Whatever a reader of fields takes from the members of an object has a property. -/
def Yields (fields : FieldReader α) (P : α → Prop) : Prop :=
  ∀ inside before members value, (∀ member ∈ members, member.2.IsWellFormed) →
    fields.run inside before members = .ok value → P value

theorem yields_any (fields : FieldReader α) : fields.Yields fun _ => True :=
  fun _ _ _ _ _ _ => trivial

namespace Yields

variable {Q : β → Prop}

theorem map {x : FieldReader β} {f : β → α} (hX : x.Yields Q) (hF : ∀ b, Q b → P (f b)) :
    (f <$> x).Yields P := by
  intro inside before members value hMembers hRun
  obtain ⟨b, hB, rfl⟩ := run_map_eq_ok.mp hRun
  exact hF b (hX inside before members b hMembers hB)

theorem seq {f : FieldReader (β → α)} {x : FieldReader β}
    (hF : f.Yields fun g => ∀ b, Q b → P (g b)) (hX : x.Yields Q) : (f <*> x).Yields P := by
  intro inside before members value hMembers hRun
  obtain ⟨g, b, hG, hB, rfl⟩ := run_seq_eq_ok.mp hRun
  exact hF inside before members g hMembers hG b (hX inside _ members b hMembers hB)

theorem field {name : String} {read : NodeReader α} {absent : Except NodeFault α}
    (hRead : Metamodel.Yields read P) (hAbsent : ∀ value, absent = .ok value → P value) :
    (FieldReader.field name read absent).Yields P := by
  intro inside before members value hMembers hRun
  simp only [FieldReader.field] at hRun
  split at hRun
  · rename_i json hFound
    rw [Outcome.mapError_eq_ok] at hRun
    exact hRead inside json value (hMembers _ (Json.mem_of_lookup hFound)) hRun
  · rw [Outcome.mapError_eq_ok] at hRun
    exact hAbsent value hRun

theorem required {name : String} {read : NodeReader α} (hRead : Metamodel.Yields read P) :
    (FieldReader.required name read).Yields P :=
  field hRead (by nofun)

theorem optional {name : String} {read : NodeReader α} (hRead : Metamodel.Yields read P) :
    (FieldReader.optional name read).Yields fun value? => ∀ value ∈ value?, P value :=
  field hRead.nullable (by rintro _ ⟨⟩ _ ⟨⟩)

theorem listed {name : String} {item : NodeReader α} (hItem : Metamodel.Yields item P) :
    (FieldReader.listed name item).Yields fun values => ∀ value ∈ values, P value :=
  field hItem.items (by rintro _ ⟨⟩ _ ⟨⟩)

end Yields

end FieldReader

/-- A record comes as an object or as a sequence, whose items are taken for the members. -/
theorem yields_readMembers {fields : FieldReader α} (hFields : fields.Yields P) {inside : Bool}
    {members : List (String × Json)} {value : α}
    (hMembers : ∀ member ∈ members, member.2.IsWellFormed)
    (hRead : readMembers fields inside members = .ok value) : P value :=
  hFields inside 0 members value hMembers (Outcome.mapError_eq_ok.mp hRead)

theorem yields_readSequence {label : String} {fields : FieldReader α} (hFields : fields.Yields P)
    {inside : Bool} {items : List Json} {value : α} (hItems : ∀ item ∈ items, item.IsWellFormed)
    (hRead : readSequence label fields inside items = .ok value) : P value := by
  unfold readSequence at hRead
  simp only at hRead
  split at hRead
  · split at hRead <;> cases hRead
  · rename_i found hRun
    have hMembers : ∀ member ∈ fields.names.zip items, member.2.IsWellFormed :=
      fun member hMem => hItems _ (List.of_mem_zip hMem).2
    have hFound := hFields inside 0 _ found hMembers hRun
    split at hRead
    · cases hRead
      exact hFound
    · split at hRead <;> cases hRead

theorem yields_record {label : String} {fields : FieldReader α} (hFields : fields.Yields P) :
    Yields (readRecord label fields) P := by
  intro inside json value hJson hRead
  unfold readRecord at hRead
  split at hRead
  · exact yields_readMembers hFields (Json.isWellFormed_object.mp hJson).2 hRead
  · exact yields_readSequence hFields (Json.isWellFormed_array.mp hJson) hRead
  · cases hRead

theorem mem_of_select {forms : List (Form α)} {inside : Bool} {tag : Json} {form : Form α}
    (hSelect : Form.select forms inside tag = .ok form) : form ∈ forms := by
  unfold Form.select at hSelect
  split at hSelect
  · split at hSelect
    · rename_i hFound
      cases hSelect
      exact List.mem_of_find?_eq_some hFound
    · cases hSelect
  · split at hSelect
    · split at hSelect
      · rename_i hFound
        cases hSelect
        exact List.mem_of_getElem? hFound
      · cases hSelect
    · cases hSelect
  · cases hSelect

/-- What all forms of a tagged node yield holds of the node. -/
theorem yields_tagged {label : String} {forms : List (Form α)}
    (hForms : ∀ form ∈ forms, form.fields.Yields P) : Yields (readTagged label forms) P := by
  intro inside json value hJson hRead
  unfold readTagged at hRead
  split at hRead
  · rename_i members
    have hMembers := (Json.isWellFormed_object.mp hJson).2
    split at hRead
    · cases hRead
    · obtain ⟨form, hSelect, hRead⟩ := Outcome.bind_eq_ok.mp hRead
      exact yields_readMembers (hForms form (mem_of_select hSelect))
        (fun member hMem => hMembers member (List.mem_of_mem_filter hMem)) hRead
  · cases hRead
  · rename_i tag items
    have hItems := Json.isWellFormed_array.mp hJson
    obtain ⟨form, hSelect, hRead⟩ := Outcome.bind_eq_ok.mp hRead
    exact yields_readSequence (hForms form (mem_of_select hSelect))
      (fun item hMem => hItems item (List.mem_cons_of_mem _ hMem)) hRead
  · cases hRead

/-! ## Finite numbers -/

def DecoratorArgument.HasFiniteNumbers : DecoratorArgument → Prop
  | .number x => x.isFinite = true
  | _ => True

def Decorator.HasFiniteNumbers (d : Decorator) : Prop := ∀ a ∈ d.arguments, a.HasFiniteNumbers

structure Bounds.HasFiniteNumbers (b : Bounds Float) : Prop where
  lower : ∀ x ∈ b.lower, x.isFinite = true
  upper : ∀ x ∈ b.upper, x.isFinite = true

/-- The other primitive types have integers, which are no doubles. -/
def Primitive.HasFiniteNumbers : Primitive → Prop
  | .double default bounds =>
    (∀ x ∈ default, x.isFinite = true) ∧ ∀ b ∈ bounds, b.HasFiniteNumbers
  | _ => True

def PropertyType.HasFiniteNumbers : PropertyType → Prop
  | .primitive p => p.HasFiniteNumbers
  | _ => True

def PropertyShape.HasFiniteNumbers : PropertyShape → Prop
  | .typed type _ _ => type.HasFiniteNumbers
  | .enumValue => True

structure Property.HasFiniteNumbers (p : Property) : Prop where
  shape : p.shape.HasFiniteNumbers
  decorators : ∀ d ∈ p.decorators, d.HasFiniteNumbers

def ScalarType.HasFiniteNumbers : ScalarType → Prop
  | .primitive p => p.HasFiniteNumbers
  | .dateTime _ => True

def DeclarationBody.HasFiniteNumbers : DeclarationBody → Prop
  | .classBody _ _ _ _ properties => ∀ p ∈ properties, p.HasFiniteNumbers
  | .enumBody properties => ∀ p ∈ properties, p.HasFiniteNumbers
  | .mapBody _ _ => True
  | .scalarBody type => type.HasFiniteNumbers

structure Declaration.HasFiniteNumbers (d : Declaration) : Prop where
  body : d.body.HasFiniteNumbers
  decorators : ∀ decorator ∈ d.decorators, decorator.HasFiniteNumbers

/-- The doubles of a model are finite: the defaults, the bounds, and the arguments of decorators. -/
structure Model.HasFiniteNumbers (m : Model) : Prop where
  declarations : ∀ d ∈ m.declarations, d.HasFiniteNumbers
  decorators : ∀ d ∈ m.decorators, d.HasFiniteNumbers

/-! ## Readers of nodes -/

open FieldReader (yields_any)
open FieldReader.Yields (listed optional required)

theorem yields_decoratorArgument :
    Yields readDecoratorArgument DecoratorArgument.HasFiniteNumbers := by
  refine yields_tagged ?_
  simp only [List.forall_mem_cons]
  refine ⟨?text, ?number, ?flag, ?typeReference, by simp⟩
  case text => exact (yields_any _).map fun _ _ => trivial
  case number => exact (required yields_double).map fun _ hFinite => hFinite
  case flag => exact (yields_any _).map fun _ _ => trivial
  case typeReference => exact ((yields_any _).map fun _ _ _ _ => trivial).seq (yields_any _)

theorem yields_decorator : Yields readDecorator Decorator.HasFiniteNumbers :=
  yields_record ((((yields_any _).map fun _ _ _ hArguments _ _ => hArguments).seq
    (listed yields_decoratorArgument)).seq (yields_any _))

theorem yields_annotations :
    annotations.Yields fun annotated => ∀ d ∈ annotated.1, d.HasFiniteNumbers :=
  ((listed yields_decorator).map fun _ hDecorators _ _ => hDecorators).seq (yields_any _)

theorem yields_bounds : Yields (readBounds readDouble) Bounds.HasFiniteNumbers :=
  yields_record (((optional yields_double).map fun _ hLower _ hUpper => ⟨hLower, hUpper⟩).seq
    (optional yields_double))

theorem yields_stringFields : stringFields.Yields Primitive.HasFiniteNumbers :=
  (((yields_any _).map fun _ _ _ _ _ _ => trivial).seq (yields_any _)).seq (yields_any _)

theorem yields_doubleFields :
    (numberFields .double readDouble).Yields Primitive.HasFiniteNumbers :=
  ((optional yields_double).map fun _ hDefault _ hBounds => ⟨hDefault, hBounds⟩).seq
    (optional yields_bounds)

theorem yields_integerFields (make : Option Int64 → Option (Bounds Int64) → Primitive)
    (hMake : ∀ default bounds, (make default bounds).HasFiniteNumbers) :
    (numberFields make readInt64).Yields Primitive.HasFiniteNumbers :=
  ((yields_any _).map fun default _ bounds _ => hMake default bounds).seq (yields_any _)

theorem yields_booleanFields : booleanFields.Yields Primitive.HasFiniteNumbers :=
  (yields_any _).map fun _ _ => trivial

theorem yields_typedProperty {type : FieldReader PropertyType}
    (hType : type.Yields PropertyType.HasFiniteNumbers) :
    (typedProperty type).Yields Property.HasFiniteNumbers :=
  ((((yields_any _).map fun _ _ _ _ _ hType _ hDecorators => ⟨hType, hDecorators⟩).seq
    (yields_any _)).seq hType).seq yields_annotations

theorem yields_referringProperty {default : FieldReader (Option String)}
    {make : TypeName → Option String → PropertyType}
    (hMake : ∀ type default, (make type default).HasFiniteNumbers) :
    (referringProperty default make).Yields Property.HasFiniteNumbers :=
  (((((yields_any _).map fun _ _ type _ _ _ default _ _ hDecorators =>
    ⟨hMake type default, hDecorators⟩).seq (yields_any _)).seq (yields_any _)).seq
      (yields_any _)).seq yields_annotations

theorem yields_property : Yields readProperty Property.HasFiniteNumbers := by
  refine yields_tagged ?_
  simp only [List.forall_mem_cons]
  refine ⟨?string, ?integer, ?long, ?double, ?boolean, ?dateTime, ?object, ?relationship,
    ?enumValue, by simp⟩
  case string => exact yields_typedProperty (yields_stringFields.map fun _ h => h)
  case integer =>
    exact yields_typedProperty
      ((yields_integerFields .integer fun _ _ => trivial).map fun _ h => h)
  case long =>
    exact yields_typedProperty ((yields_integerFields .long fun _ _ => trivial).map fun _ h => h)
  case double => exact yields_typedProperty (yields_doubleFields.map fun _ h => h)
  case boolean => exact yields_typedProperty (yields_booleanFields.map fun _ h => h)
  case dateTime => exact yields_typedProperty fun _ _ _ _ _ hRun => by cases hRun; trivial
  case object => exact yields_referringProperty fun _ _ => trivial
  case relationship => exact yields_referringProperty fun _ _ => trivial
  case enumValue =>
    exact ((yields_any _).map fun _ _ _ hDecorators => ⟨trivial, hDecorators⟩).seq
      yields_annotations

theorem yields_declarationOf {body : FieldReader DeclarationBody}
    (hBody : body.Yields DeclarationBody.HasFiniteNumbers) :
    (declaration body).Yields Declaration.HasFiniteNumbers :=
  (((yields_any _).map fun _ _ _ hBody _ hDecorators => ⟨hBody, hDecorators⟩).seq hBody).seq
    yields_annotations

theorem yields_classFields (kind : ClassKind) :
    (classFields kind).Yields Declaration.HasFiniteNumbers :=
  yields_declarationOf (((((yields_any _).map fun _ _ _ _ _ _ _ hProperties => hProperties).seq
    (yields_any _)).seq (yields_any _)).seq (listed yields_property))

theorem yields_scalarFields {type : FieldReader ScalarType}
    (hType : type.Yields ScalarType.HasFiniteNumbers) :
    (scalarFields type).Yields Declaration.HasFiniteNumbers :=
  yields_declarationOf (hType.map fun _ h => h)

theorem yields_declaration : Yields readDeclaration Declaration.HasFiniteNumbers := by
  refine yields_tagged ?_
  simp only [List.forall_mem_cons]
  refine ⟨yields_classFields _, yields_classFields _, yields_classFields _, yields_classFields _,
    yields_classFields _, ?enumeration, ?map, ?string, ?integer, ?long, ?double, ?boolean,
    ?dateTime, by simp⟩
  case enumeration => exact yields_declarationOf ((listed yields_property).map fun _ h => h)
  case map =>
    exact yields_declarationOf (((yields_any _).map fun _ _ _ _ => trivial).seq (yields_any _))
  case string => exact yields_scalarFields (yields_stringFields.map fun _ h => h)
  case integer =>
    exact yields_scalarFields ((yields_integerFields .integer fun _ _ => trivial).map fun _ h => h)
  case long =>
    exact yields_scalarFields ((yields_integerFields .long fun _ _ => trivial).map fun _ h => h)
  case double => exact yields_scalarFields (yields_doubleFields.map fun _ h => h)
  case boolean => exact yields_scalarFields (yields_booleanFields.map fun _ h => h)
  case dateTime => exact yields_scalarFields ((yields_any _).map fun _ _ => trivial)

theorem yields_model : Yields readModel Model.HasFiniteNumbers :=
  yields_record (((((((yields_any _).map
    fun _ _ _ _ _ _ _ _ _ hDeclarations _ hDecorators => ⟨hDeclarations, hDecorators⟩).seq
      (yields_any _)).seq (yields_any _)).seq (yields_any _)).seq (listed yields_declaration)).seq
        (listed yields_decorator))

theorem yields_bundle :
    Yields readBundle fun models => ∀ m ∈ models, m.HasFiniteNumbers :=
  yields_record (((yields_any _).map fun _ _ _ hModels => hModels).seq (listed yields_model))

/-- A model that is read from the tree of a text has finite numbers, and so have the models of a
bundle. -/
theorem hasFiniteNumbers_of_modelsOfJson {json : Json} (hJson : json.IsWellFormed)
    {models : List Model} (hRead : modelsOfJson json = .ok models) :
    ∀ m ∈ models, m.HasFiniteNumbers := by
  simp only [modelsOfJson, Outcome.bind_eq_ok] at hRead
  obtain ⟨name, _, hRead⟩ := hRead
  split at hRead
  · simp only [Outcome.bind_eq_ok, Outcome.mapError_eq_ok] at hRead
    obtain ⟨_, _, hRead⟩ := hRead
    exact yields_bundle false json models hJson hRead
  · simp only [Outcome.bind_eq_ok, Outcome.pure_eq_ok] at hRead
    obtain ⟨m, hModel, rfl⟩ := hRead
    intro other hMem
    rw [List.mem_singleton.mp hMem]
    exact yields_model false json m hJson (Model.ofJson_eq_ok.mp hModel).2

end DomainModels.Metamodel
