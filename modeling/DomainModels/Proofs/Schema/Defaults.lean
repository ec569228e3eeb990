import DomainModels.Instance.Check
import DomainModels.Proofs.Schema.ModelFile

/-!
The defaults of primitive types.

A default is checked against the validator of its type when the model is loaded, so that later it
passes the check of the values.
-/

namespace DomainModels

/-! ## What validators ask -/

/-- A number is within the bounds that there are. -/
theorem NumberValidator.check_eq_ok {v : NumberValidator} {path : String} {value : Float} :
    v.check path value = .ok () ↔
      (∀ lower, v.lower = some lower → ¬ value < lower) ∧
      (∀ upper, v.upper = some upper → ¬ upper < value) := by
  obtain ⟨lower, upper⟩ := v
  unfold check
  cases lower <;> cases upper <;> simp only [] <;> repeat' split
  all_goals simp_all

/-- A text has a length within the bounds that there are, and matches the pattern if there is
one. -/
theorem TextValidator.check_eq_ok {v : TextValidator} {path text : String} :
    v.check path text = .ok () ↔
      (∀ min, v.minLength = some min → ¬ text.length < min) ∧
      (∀ max, v.maxLength = some max → ¬ max < text.length) ∧
      (∀ pattern, v.pattern = some pattern → pattern.node.matchesIn text = true) := by
  obtain ⟨pattern, minLength, maxLength⟩ := v
  unfold check
  cases pattern <;> cases minLength <;> cases maxLength <;> simp only [] <;> repeat' split
  all_goals simp_all

namespace ValueType

theorem checkText_eq_ok {validator : Option TextValidator} {path : Path} {text : String} :
    checkText validator path text = .ok () ↔
      ∀ v, validator = some v → v.check path.render text = .ok () := by
  cases validator <;> simp [checkText]

theorem checkNumber_eq_ok {validator : Option NumberValidator} {path : Path} {value : Float} :
    checkNumber validator path value = .ok () ↔
      ∀ v, validator = some v → v.check path.render value = .ok () := by
  cases validator <;> simp [checkNumber]

theorem checkText_path {validator : Option TextValidator} {path : Path} {text : String}
    (hChecked : checkText validator path text = .ok ()) (other : Path) :
    checkText validator other text = .ok () := by
  simp only [checkText_eq_ok, TextValidator.check_eq_ok] at hChecked ⊢
  exact hChecked

theorem checkNumber_path {validator : Option NumberValidator} {path : Path} {value : Float}
    (hChecked : checkNumber validator path value = .ok ()) (other : Path) :
    checkNumber validator other value = .ok () := by
  simp only [checkNumber_eq_ok, NumberValidator.check_eq_ok] at hChecked ⊢
  exact hChecked

/-- Where a value stands does not decide whether it passes. -/
theorem check_path {type : ValueType} {path : Path} {value : Value}
    (hChecked : type.check path value = .ok ()) (other : Path) :
    type.check other value = .ok () := by
  unfold check at hChecked ⊢
  split at hChecked
  · exact checkText_path hChecked other
  · exact checkNumber_path hChecked other
  · exact checkNumber_path hChecked other
  · exact checkNumber_path hChecked other
  · exact checkNumber_path hChecked other
  · exact checkNumber_path hChecked other
  · exact checkNumber_path hChecked other
  · exact checkNumber_path hChecked other
  · rfl
  · rfl
  · cases hChecked

/-- The default passes the check of the type. -/
def HasCheckedDefault (type : ValueType) : Prop :=
  ∀ value, type.default? = some value → type.check .root value = .ok ()

/-- The default is a number that JSON texts can write. -/
def HasFiniteDefault (type : ValueType) : Prop :=
  ∀ x, type.default? = some (.double x) → x.isFinite = true

theorem hasFiniteDefault_of_isNone {type : ValueType} (hNone : type.default?.isNone = true) :
    type.HasFiniteDefault := by
  intro x hDefault
  rw [hDefault] at hNone
  cases hNone

theorem hasCheckedDefault_plain (type : PrimitiveType) : (plain type).HasCheckedDefault := by
  intro value hDefault
  cases type <;> cases hDefault

end ValueType

/-! ## Models -/

namespace FileContext

variable {ctx : FileContext} {location : Option Location} {cause : Violation → Illegality}

theorem checkDefault_eq_ok {α V : Type} {check : V → α → Except Violation Unit}
    {validator : Option V} {default : Option α}
    (hChecked : ctx.checkDefault location cause check validator default = .ok ()) :
    ∀ v value, validator = some v → default = some value → check v value = .ok () := by
  rintro v value rfl rfl
  simpa [checkDefault, locate] using hChecked

/-- A number that has passed the validator of its model passes it wherever it stands. -/
theorem checkNumber_of_checkDefault {name : String} {v : Option NumberValidator} {path : Path}
    {default : Option Float} {value : Float}
    (hChecked : ctx.checkDefault location cause (NumberValidator.check · name) v default = .ok ())
    (hDefault : default = some value) : ValueType.checkNumber v path value = .ok () := by
  refine ValueType.checkNumber_eq_ok.mpr fun w hW => ?_
  have hNumber := checkDefault_eq_ok hChecked w value hW hDefault
  rw [NumberValidator.check_eq_ok] at hNumber ⊢
  exact hNumber

/-- The type of a field or a scalar has a default that passes its check. -/
theorem hasCheckedDefault_of_makeValueType {name : String} {node : Metamodel.Primitive}
    {type : ValueType} (hMade : ctx.makeValueType name location cause node = .ok type) :
    type.HasCheckedDefault := by
  intro value hDefault
  cases node with
  | string default pattern length =>
      simp only [makeValueType, Outcome.bind_eq_ok, Outcome.pure_eq_ok,
        Outcome.exists_unit] at hMade
      obtain ⟨v, _, hChecked, rfl⟩ := hMade
      obtain ⟨text, rfl, rfl⟩ := Option.map_eq_some_iff.mp hDefault
      refine ValueType.checkText_eq_ok.mpr fun w hW => ?_
      have hText := checkDefault_eq_ok hChecked w text hW rfl
      rw [TextValidator.check_eq_ok] at hText ⊢
      exact hText
  | integer default bounds =>
      simp only [makeValueType, Outcome.bind_eq_ok, Outcome.pure_eq_ok,
        Outcome.exists_unit] at hMade
      obtain ⟨v, _, hChecked, rfl⟩ := hMade
      obtain ⟨i, rfl, rfl⟩ := Option.map_eq_some_iff.mp hDefault
      exact checkNumber_of_checkDefault hChecked rfl
  | long default bounds =>
      simp only [makeValueType, Outcome.bind_eq_ok, Outcome.pure_eq_ok,
        Outcome.exists_unit] at hMade
      obtain ⟨v, _, hChecked, rfl⟩ := hMade
      obtain ⟨i, rfl, rfl⟩ := Option.map_eq_some_iff.mp hDefault
      exact checkNumber_of_checkDefault hChecked rfl
  | double default bounds =>
      simp only [makeValueType, Outcome.bind_eq_ok, Outcome.pure_eq_ok,
        Outcome.exists_unit] at hMade
      obtain ⟨v, _, hChecked, rfl⟩ := hMade
      obtain ⟨x, rfl, rfl⟩ := Option.map_eq_some_iff.mp hDefault
      exact checkNumber_of_checkDefault hChecked rfl
  | boolean default =>
      cases hMade
      obtain ⟨b, rfl, rfl⟩ := Option.map_eq_some_iff.mp hDefault
      rfl

end FileContext

/-- The types of primitive values that a declaration writes. -/
def PropertyType.value? : PropertyType → Option ValueType
  | .value type => some type
  | _ => none

def DeclarationBody.valueTypes : DeclarationBody → List ValueType
  | .classBody body => body.properties.filterMap (·.type.value?)
  | .scalarBody type => [type]
  | .mapBody key value => [key, value].filterMap (·.value?)
  | .enumBody _ => []

namespace Metamodel

/-- The primitive type of a field. -/
def Property.primitive? (node : Property) : Option Primitive :=
  match node.shape with
  | .typed (.primitive type) _ _ => some type
  | _ => none

namespace Declaration

/-- The fields of a class. -/
def properties (node : Declaration) : List Property :=
  match node.body with
  | .classBody _ _ _ _ properties => properties
  | _ => []

/-- The primitive type that a scalar stands for. -/
def scalar? (node : Declaration) : Option Primitive :=
  match node.body with
  | .scalarBody (.primitive type) => some type
  | _ => none

/-- The primitive types of the fields of a class, or the one that a scalar stands for. -/
def primitives (node : Declaration) : List Primitive :=
  node.properties.filterMap (·.primitive?) ++ node.scalar?.toList

end Declaration

end Metamodel

/-! ## What types are made of -/

namespace ValueType

/-- A type that is made of a primitive one as it is written. -/
def IsMadeOf (type : ValueType) (node : Metamodel.Primitive) : Prop :=
  ∃ ctx name location cause, FileContext.makeValueType ctx name location cause node = .ok type

/-- A type is made of one of the primitive types that are written, or it has no default that a
validator could refuse. -/
inductive ComesFrom (nodes : List Metamodel.Primitive) : ValueType → Prop where
  | plain (type : PrimitiveType) : ComesFrom nodes (.plain type)
  | dateTime (default : Option String) : ComesFrom nodes (.dateTime default)
  | written {type : ValueType} {node : Metamodel.Primitive} (hNode : node ∈ nodes)
      (hMade : type.IsMadeOf node) : ComesFrom nodes type

variable {type : ValueType} {nodes : List Metamodel.Primitive}

theorem ComesFrom.mono (hType : type.ComesFrom nodes) {others : List Metamodel.Primitive}
    (hOthers : ∀ node ∈ nodes, node ∈ others) : type.ComesFrom others := by
  cases hType with
  | plain type => exact .plain type
  | dateTime default => exact .dateTime default
  | written hNode hMade => exact .written (hOthers _ hNode) hMade

theorem ComesFrom.hasCheckedDefault (hType : type.ComesFrom nodes) : type.HasCheckedDefault := by
  cases hType with
  | plain type => exact hasCheckedDefault_plain type
  | dateTime default =>
      intro value hDefault
      cases hDefault
  | written _ hMade =>
      obtain ⟨_, _, _, _, hMade⟩ := hMade
      exact FileContext.hasCheckedDefault_of_makeValueType hMade

end ValueType

namespace FileContext

variable {ctx : FileContext} {type : ValueType}

theorem comesFrom_of_makePropertyType {name : String} {location : Option Location}
    {node : Metamodel.Property} {written : Metamodel.PropertyType} {many opt : Bool}
    (hShape : node.shape = .typed written many opt) {made : PropertyType}
    (hMade : ctx.makePropertyType name location written = .ok made)
    (hType : made.value? = some type) : type.ComesFrom node.primitive?.toList := by
  rw [Metamodel.Property.primitive?, hShape]
  cases written with
  | primitive written =>
      simp only [makePropertyType, Outcome.map_eq_ok] at hMade
      obtain ⟨made, hMade, rfl⟩ := hMade
      cases hType
      exact .written List.mem_cons_self ⟨_, _, _, _, hMade⟩
  | dateTime =>
      cases hMade
      cases hType
      exact .dateTime none
  | object target default =>
      cases hMade
      cases hType
  | relationship target =>
      cases hMade
      cases hType

theorem comesFrom_of_makeProperties {owner : String} {location : Option Location}
    {nodes : List Metamodel.Property} {properties : List Property}
    (hMade : ctx.makeProperties owner location nodes = .ok properties) :
    ∀ p ∈ properties, ∀ type, p.type.value? = some type →
      type.ComesFrom (nodes.filterMap (·.primitive?)) := by
  induction nodes generalizing properties with
  | nil =>
      cases hMade
      simp
  | cons node rest ih =>
      unfold makeProperties at hMade
      split at hMade
      · simp at hMade
      · rename_i hShape
        simp only [Outcome.bind_eq_ok, Outcome.pure_eq_ok] at hMade
        obtain ⟨made, hMade, _, _, later, hLater, rfl⟩ := hMade
        intro p hMem type hType
        rcases List.mem_cons.mp hMem with rfl | hMem
        · refine (comesFrom_of_makePropertyType hShape hMade hType).mono fun written hWritten => ?_
          exact List.mem_filterMap.mpr ⟨node, List.mem_cons_self, Option.mem_toList.mp hWritten⟩
        · refine (ih hLater p hMem type hType).mono fun written hWritten => ?_
          exact ((List.sublist_cons_self node rest).filterMap _).mem hWritten

/-- The keys and the values of maps have no defaults. -/
theorem comesFrom_of_keyType {nodes : List Metamodel.Primitive} (node : Metamodel.MapKeyType)
    (hType : (keyType node).value? = some type) : type.ComesFrom nodes := by
  cases node <;> cases hType
  all_goals exact .plain _

theorem comesFrom_of_valueType {nodes : List Metamodel.Primitive} (node : Metamodel.MapValueType)
    (hType : (valueType node).value? = some type) : type.ComesFrom nodes := by
  cases node <;> cases hType
  all_goals exact .plain _

theorem comesFrom_of_makeBody {node : Metamodel.Declaration} {body : DeclarationBody}
    (hMade : ctx.makeBody node = .ok body) (hMem : type ∈ body.valueTypes) :
    type.ComesFrom node.primitives := by
  unfold makeBody at hMade
  split at hMade
  · rename_i hBody
    simp only [Outcome.bind_eq_ok, Outcome.pure_eq_ok] at hMade
    obtain ⟨properties, hProperties, rfl⟩ := hMade
    obtain ⟨p, hP, hType⟩ := List.mem_filterMap.mp hMem
    refine (comesFrom_of_makeProperties hProperties p hP type hType).mono fun written hWritten => ?_
    rw [Metamodel.Declaration.primitives, Metamodel.Declaration.properties, hBody]
    exact List.mem_append_left _ hWritten
  · simp only [Outcome.map_eq_ok] at hMade
    obtain ⟨values, _, rfl⟩ := hMade
    simp [DeclarationBody.valueTypes] at hMem
  · rename_i key value _
    cases hMade
    obtain ⟨part, hPart, hType⟩ := List.mem_filterMap.mp hMem
    simp only [List.mem_cons, List.not_mem_nil, or_false] at hPart
    rcases hPart with rfl | rfl
    · exact comesFrom_of_keyType key hType
    · exact comesFrom_of_valueType value hType
  · rename_i hBody
    simp only [Outcome.map_eq_ok] at hMade
    obtain ⟨made, hMade, rfl⟩ := hMade
    rw [List.mem_singleton.mp hMem, Metamodel.Declaration.primitives,
      Metamodel.Declaration.scalar?, hBody]
    exact .written (List.mem_append_right _ List.mem_cons_self) ⟨_, _, _, _, hMade⟩
  · cases hMade
    rw [List.mem_singleton.mp hMem]
    exact .dateTime _

theorem comesFrom_of_makeDeclarations {imports : Table String} {seen : List String}
    {nodes : List Metamodel.Declaration} {ds : List Declaration}
    (hMade : ctx.makeDeclarations imports seen nodes = .ok ds) :
    ∀ d ∈ ds, ∀ type ∈ d.body.valueTypes, type.ComesFrom (nodes.flatMap (·.primitives)) := by
  induction nodes generalizing seen ds with
  | nil =>
      cases hMade
      simp
  | cons node rest ih =>
      obtain ⟨d, later, hDeclaration, _, _, hLater, rfl⟩ := makeDeclarations_cons.mp hMade
      simp only [makeDeclaration, Outcome.bind_eq_ok, Outcome.pure_eq_ok] at hDeclaration
      obtain ⟨body, hBody, _, _, rfl⟩ := hDeclaration
      intro other hMem type hType
      rw [List.flatMap_cons]
      rcases List.mem_cons.mp hMem with rfl | hMem
      · exact (comesFrom_of_makeBody hBody hType).mono fun _ => List.mem_append_left _
      · exact (ih hLater other hMem type hType).mono fun _ => List.mem_append_right _

end FileContext

namespace ModelFile

variable {model : Metamodel.Model} {fileName : Option String} {factories : List DecoratorFactory}
  {file : ModelFile}

/-- The types of values in a file come from the primitive types of its model. -/
theorem comesFrom_of_ofModel (hMade : ofModel model fileName factories = .ok file) :
    ∀ d ∈ file.declarations, ∀ type ∈ d.body.valueTypes,
      type.ComesFrom (model.declarations.flatMap (·.primitives)) := by
  simp only [ofModel, Outcome.bind_eq_ok, Outcome.pure_eq_ok] at hMade
  obtain ⟨_, _, ⟨_, _⟩, _, _, hDeclarations, _, _, rfl⟩ := hMade
  exact FileContext.comesFrom_of_makeDeclarations hDeclarations

/-- Every default of a file passes the check of its type. -/
theorem hasCheckedDefault_of_ofModel (hMade : ofModel model fileName factories = .ok file) :
    ∀ d ∈ file.declarations, ∀ type ∈ d.body.valueTypes, type.HasCheckedDefault :=
  fun d hMem type hType => (comesFrom_of_ofModel hMade d hMem type hType).hasCheckedDefault

end ModelFile

end DomainModels
