import DomainModels.Proofs.Json.Nearest
import DomainModels.Proofs.Schema.Arrangement
import DomainModels.Proofs.Schema.Defaults

/-!
The ranges of integers.

Bounds of integers become doubles when a model is loaded, and so do the values that are checked.
What is compared are the integers nearest to them for which doubles stand.
-/

namespace DomainModels

namespace Metamodel

namespace Bounds

/-- An integer is within bounds when the integers are compared by a key. -/
def Contains (bounds : Bounds Int64) (key : Int → Int) (i : Int64) : Prop :=
  (∀ lower, bounds.lower = some lower → key lower.toInt ≤ key i.toInt) ∧
    ∀ upper, bounds.upper = some upper → key i.toInt ≤ key upper.toInt

/-- Bounds do not cross when they are compared by a key. -/
def IsOrdered (bounds : Bounds Int64) (key : Int → Int) : Prop :=
  ∀ lower upper, bounds.lower = some lower → bounds.upper = some upper →
    key lower.toInt ≤ key upper.toInt

/-- No bound needs more than 53 bits. -/
def IsSmall (bounds : Bounds Int64) : Prop :=
  ∀ bound, bounds.lower = some bound ∨ bounds.upper = some bound → bound.toInt.natAbs < 2 ^ 53

variable {bounds : Bounds Int64} {i : Int64}

/-- No integer of the range is rounded out of it. -/
theorem Contains.nearest (hContains : bounds.Contains id i) : bounds.Contains Double.nearest i :=
  ⟨fun lower hLower => Double.nearest_mono (hContains.1 lower hLower),
    fun upper hUpper => Double.nearest_mono (hContains.2 upper hUpper)⟩

/-- What is rounded into the range was not far from it. -/
theorem Contains.isNear (hContains : bounds.Contains Double.nearest i) :
    (∀ lower, bounds.lower = some lower → lower.toInt ≤ i.toInt + 1024) ∧
      ∀ upper, bounds.upper = some upper → i.toInt ≤ upper.toInt + 1024 := by
  have hNear (j : Int64) : j.toInt ≤ Double.nearest j.toInt + 512 ∧
      Double.nearest j.toInt ≤ j.toInt + 512 := by
    have hLow := j.le_toInt
    have hHigh := j.toInt_lt
    exact Double.nearest_sub_le (by omega)
  refine ⟨fun lower hLower => ?_, fun upper hUpper => ?_⟩
  · have hLe := hContains.1 lower hLower
    have hLowerNear := hNear lower
    have hValueNear := hNear i
    omega
  · have hLe := hContains.2 upper hUpper
    have hUpperNear := hNear upper
    have hValueNear := hNear i
    omega

/-- Small bounds are exact, for small and large integers alike. -/
theorem IsSmall.contains_iff (hSmall : bounds.IsSmall) :
    bounds.Contains Double.nearest i ↔ bounds.Contains id i := by
  refine ⟨fun hContains => ⟨fun lower hLower => ?_, fun upper hUpper => ?_⟩, Contains.nearest⟩
  · exact (Double.nearest_le_nearest_iff (hSmall lower (.inl hLower))).mp (hContains.1 lower hLower)
  · have hLe := hContains.2 upper hUpper
    have hUpperSmall : (-upper.toInt).natAbs < 2 ^ 53 := by
      rw [Int.natAbs_neg]
      exact hSmall upper (.inr hUpper)
    rw [← Int.neg_le_neg_iff, ← Double.nearest_neg, ← Double.nearest_neg,
      Double.nearest_le_nearest_iff hUpperSmall] at hLe
    exact Int.neg_le_neg_iff.mp hLe

theorem IsSmall.isOrdered (hSmall : bounds.IsSmall) (hOrdered : bounds.IsOrdered Double.nearest) :
    bounds.IsOrdered id :=
  fun lower upper hLower hUpper =>
    (Double.nearest_le_nearest_iff (hSmall lower (.inl hLower))).mp
      (hOrdered lower upper hLower hUpper)

end Bounds

/-! ## Types as they are written -/

/-- The bounds of a type of integers. Bounds that are missing are none. -/
def Primitive.integerBounds? : Primitive → Option (Bounds Int64)
  | .integer _ bounds | .long _ bounds => some (bounds.getD ⟨none, none⟩)
  | _ => none

/-- The primitive type of the field of a name. -/
def Declaration.field? (node : Declaration) (name : String) : Option Primitive :=
  (node.properties.find? (·.name = name)).bind (·.primitive?)

end Metamodel

open Metamodel (Bounds Primitive)

/-! ## Ranges of types -/

/-- A value of either size of integers. -/
def Value.IsInteger (value : Value) (i : Int64) : Prop := value = .integer i ∨ value = .long i

namespace NumberValidator

theorem make_eq_ok {lower upper : Option Float} {v : NumberValidator}
    (hMade : make lower upper = .ok v) :
    v = ⟨lower, upper⟩ ∧ ∀ l u, lower = some l → upper = some u → ¬ u < l := by
  unfold make at hMade
  split at hMade
  · cases hMade
  · split at hMade
    · cases hMade
    · rename_i hOrder
      cases hMade
      refine ⟨rfl, ?_⟩
      rintro _ _ ⟨⟩ ⟨⟩
      exact hOrder
  · rename_i hSome
    cases hMade
    exact ⟨rfl, fun l u hLower hUpper => (hSome l u hLower hUpper).elim⟩

variable {bounds : Bounds Int64} {v : NumberValidator}

/-- Bounds that become a validator do not cross as doubles. -/
theorem isOrdered_of_ofInt64 (hMade : ofInt64 bounds = .ok v) :
    bounds.IsOrdered Double.nearest := by
  obtain ⟨_, hOrder⟩ := make_eq_ok hMade
  intro lower upper hLower hUpper
  have hNot := hOrder (Number.ofInt64 lower) (Number.ofInt64 upper) (by rw [hLower]; rfl)
    (by rw [hUpper]; rfl)
  rw [Number.ofInt64_lt_iff] at hNot
  exact Int.not_lt.mp hNot

/-- An integer passes when it is within the bounds as a double. -/
theorem check_ofInt64 (hMade : ofInt64 bounds = .ok v) (path : String) (i : Int64) :
    v.check path (Number.ofInt64 i) = .ok () ↔ bounds.Contains Double.nearest i := by
  obtain ⟨rfl, _⟩ := make_eq_ok hMade
  simp only [check_eq_ok, Option.map_eq_some_iff, forall_exists_index, and_imp,
    forall_apply_eq_imp_iff₂, Number.ofInt64_lt_iff, Int.not_lt, Bounds.Contains]

end NumberValidator

/-- A type of integers that accepts what is within bounds as a double. -/
structure ValueType.HasRange (type : ValueType) (bounds : Bounds Int64) : Prop where
  whole : type.primitive = .integer ∨ type.primitive = .long
  ordered : bounds.IsOrdered Double.nearest
  check : ∀ path i value, value.IsInteger i →
    (type.check path value = .ok () ↔ bounds.Contains Double.nearest i)

/-- A type of integers has the range of the bounds that its validator was made of. -/
theorem ValueType.HasRange.of_mapM {type : ValueType} {written : Option (Bounds Int64)}
    {v : Option NumberValidator} (hWhole : type.primitive = .integer ∨ type.primitive = .long)
    (hMade : written.mapM NumberValidator.ofInt64 = .ok v)
    (hCheck : ∀ path i value, value.IsInteger i →
      type.check path value = ValueType.checkNumber v path (Number.ofInt64 i)) :
    type.HasRange (written.getD ⟨none, none⟩) := by
  cases written with
  | none =>
      cases hMade
      refine ⟨hWhole, nofun, fun path i value hInteger => ?_⟩
      rw [hCheck path i value hInteger]
      exact iff_of_true rfl ⟨nofun, nofun⟩
  | some bounds =>
      obtain ⟨validator, hValidator, rfl⟩ := Outcome.map_eq_ok.mp hMade
      refine ⟨hWhole, NumberValidator.isOrdered_of_ofInt64 hValidator,
        fun path i value hInteger => ?_⟩
      rw [hCheck path i value hInteger, ValueType.checkNumber_eq_ok, Option.getD_some]
      simp only [Option.some.injEq, forall_eq', NumberValidator.check_ofInt64 hValidator]

theorem ValueType.IsMadeOf.hasRange {type : ValueType} {node : Primitive} {bounds : Bounds Int64}
    (hMade : type.IsMadeOf node) (hBounds : node.integerBounds? = some bounds) :
    type.HasRange bounds := by
  obtain ⟨ctx, name, location, cause, hMade⟩ := hMade
  cases node with
  | integer default written | long default written =>
      simp only [FileContext.makeValueType, FileContext.locate, Outcome.bind_eq_ok,
        Outcome.mapError_eq_ok, Outcome.pure_eq_ok, Outcome.exists_unit] at hMade
      obtain ⟨v, hValidator, _, rfl⟩ := hMade
      cases hBounds
      refine .of_mapM (by simp [ValueType.primitive]) hValidator ?_
      rintro path i _ (rfl | rfl)
      · rfl
      · rfl
  | _ => cases hBounds

/-! ## Models -/

namespace FileContext

variable {ctx : FileContext}

/-- A property bears the name of the one as it is written, and its primitive type is made of the
one that is written. -/
structure MakesProperty (node : Metamodel.Property) (p : Property) : Prop where
  name : p.name = node.name
  type : ∀ type, node.primitive? = some type → ∃ v, p.type = .value v ∧ v.IsMadeOf type

theorem forall₂_of_makeProperties {owner : String} {location : Option Location}
    {nodes : List Metamodel.Property} {properties : List Property}
    (hMade : ctx.makeProperties owner location nodes = .ok properties) :
    List.Forall₂ MakesProperty nodes properties := by
  induction nodes generalizing properties with
  | nil =>
      cases hMade
      exact .nil
  | cons node rest ih =>
      unfold makeProperties at hMade
      split at hMade
      · simp at hMade
      · rename_i type isArray isOptional hShape
        simp only [Outcome.bind_eq_ok, Outcome.pure_eq_ok] at hMade
        obtain ⟨made, hType, decorators, _, later, hLater, rfl⟩ := hMade
        refine .cons ⟨rfl, fun primitive hPrimitive => ?_⟩ (ih hLater)
        rw [Metamodel.Property.primitive?, hShape] at hPrimitive
        cases type with
        | primitive type =>
            cases hPrimitive
            obtain ⟨v, hValue, rfl⟩ := Outcome.map_eq_ok.mp hType
            exact ⟨v, rfl, ctx, _, _, _, hValue⟩
        | _ => cases hPrimitive

end FileContext

/-- The properties of a class. -/
def Declaration.properties (d : Declaration) : List Property :=
  match d.body with
  | .classBody body => body.properties
  | _ => []

theorem Declaration.properties_of_class? {d : Declaration} {body : ClassBody}
    (hClass : d.class? = some body) : d.properties = body.properties := by
  unfold Declaration.class? at hClass
  split at hClass
  · rename_i hBody
    cases hClass
    rw [Declaration.properties, hBody]
  · cases hClass

namespace FileContext

variable {ctx : FileContext}

/-- What a declaration as it is written comes to, as far as primitive types go. -/
structure MakesDeclaration (node : Metamodel.Declaration) (d : Declaration) : Prop where
  name : d.name = node.name
  properties : List.Forall₂ MakesProperty node.properties d.properties
  scalar : ∀ type, node.scalar? = some type → ∃ v, d.body = .scalarBody v ∧ v.IsMadeOf type

theorem makesDeclaration_of_makeDeclaration {node : Metamodel.Declaration} {d : Declaration}
    (hMade : ctx.makeDeclaration node = .ok d) : MakesDeclaration node d := by
  simp only [makeDeclaration, Outcome.bind_eq_ok, Outcome.pure_eq_ok] at hMade
  obtain ⟨body, hBody, _, _, rfl⟩ := hMade
  unfold makeBody at hBody
  split at hBody
  · rename_i hNode
    simp only [Outcome.bind_eq_ok, Outcome.pure_eq_ok] at hBody
    obtain ⟨properties, hProperties, rfl⟩ := hBody
    refine ⟨rfl, ?_, by simp [Metamodel.Declaration.scalar?, hNode]⟩
    rw [Metamodel.Declaration.properties, hNode]
    exact forall₂_of_makeProperties hProperties
  · rename_i hNode
    obtain ⟨values, _, rfl⟩ := Outcome.map_eq_ok.mp hBody
    exact ⟨rfl, by simp [Metamodel.Declaration.properties, hNode, Declaration.properties],
      by simp [Metamodel.Declaration.scalar?, hNode]⟩
  · rename_i hNode
    cases hBody
    exact ⟨rfl, by simp [Metamodel.Declaration.properties, hNode, Declaration.properties],
      by simp [Metamodel.Declaration.scalar?, hNode]⟩
  · rename_i hNode
    obtain ⟨v, hValue, rfl⟩ := Outcome.map_eq_ok.mp hBody
    refine ⟨rfl, by simp [Metamodel.Declaration.properties, hNode, Declaration.properties],
      fun type hScalar => ?_⟩
    rw [Metamodel.Declaration.scalar?, hNode] at hScalar
    cases hScalar
    exact ⟨v, rfl, ctx, _, _, _, hValue⟩
  · rename_i hNode
    cases hBody
    exact ⟨rfl, by simp [Metamodel.Declaration.properties, hNode, Declaration.properties],
      by simp [Metamodel.Declaration.scalar?, hNode]⟩

/-- Every primitive type that a declaration writes is made into one. -/
theorem MakesDeclaration.exists_isMadeOf {node : Metamodel.Declaration} {d : Declaration}
    (hMakes : MakesDeclaration node d) {type : Primitive} (hMem : type ∈ node.primitives) :
    ∃ v : ValueType, v.IsMadeOf type := by
  rcases List.mem_append.mp hMem with hField | hScalar
  · obtain ⟨field, hMem, hType⟩ := List.mem_filterMap.mp hField
    obtain ⟨p, _, hProperty⟩ := Named.exists_of_forall₂ hMakes.properties.flip hMem
    obtain ⟨v, _, hMade⟩ := hProperty.type type hType
    exact ⟨v, hMade⟩
  · obtain ⟨v, _, hMade⟩ := hMakes.scalar type (Option.mem_toList.mp hScalar)
    exact ⟨v, hMade⟩

end FileContext

/-- The declarations of a file are made of those of its model. No two of them share a name. -/
theorem ModelFile.forall₂_of_ofModel {model : Metamodel.Model} {fileName : Option String}
    {factories : List DecoratorFactory} {file : ModelFile}
    (hMade : ofModel model fileName factories = .ok file) :
    List.Forall₂ FileContext.MakesDeclaration file.model.declarations file.declarations ∧
      (file.model.declarations.map (·.name)).Nodup := by
  simp only [ofModel, Outcome.bind_eq_ok, Outcome.pure_eq_ok] at hMade
  obtain ⟨_, _, ⟨_, _⟩, _, _, hDeclarations, _, _, rfl⟩ := hMade
  obtain ⟨hEach, hNames, _⟩ := FileContext.makeDeclarations_iff.mp hDeclarations
  exact ⟨hEach.imp fun _ _ => FileContext.makesDeclaration_of_makeDeclaration, hNames⟩

end DomainModels
