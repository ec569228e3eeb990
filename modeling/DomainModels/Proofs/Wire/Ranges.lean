import DomainModels.Proofs.Registry.Run
import DomainModels.Proofs.Schema.Ranges
import DomainModels.Proofs.Wire.Maps

/-!
Which integers are written and read.

A property of integers, or one that a scalar of integers stands for, has the bounds that the model
writes for it. The validating writer and the validating reader agree on what is within them: they
compare doubles. So no integer of a range is refused, and where a bound needs more than 53 bits,
some integers next to it are accepted.
-/

namespace DomainModels

open Metamodel (Bounds Primitive)
open ModelFiles (IsLoaded Resolves findClass)

/-! ## Types as they are written -/

namespace ModelFiles

/-- The declaration of a name as it is written. -/
def node? (files : ModelFiles) (fqn : String) : Option Metamodel.Declaration :=
  (find? files fqn).bind fun (file, d) => file.model.declarations.find? (·.name = d.name)

/-- The primitive type that is written for a property: by its owner, or by the scalar that it refers
to. -/
def primitive? (files : ModelFiles) (p : ResolvedProperty) : Option Primitive :=
  match p.type with
  | .value _ => (files.node? p.owner).bind (·.field? p.name)
  | .scalar fqn _ => (files.node? fqn).bind (·.scalar?)
  | _ => none

variable {files : ModelFiles} {fqn : String} {file : ModelFile} {d : Declaration}
  {node : Metamodel.Declaration} {p : ResolvedProperty} {type : Primitive}

/-- What a name stands for is made of what is written for it. -/
theorem IsLoaded.makesDeclaration (hFiles : IsLoaded files)
    (hFound : find? files fqn = some (file, d)) (hNode : files.node? fqn = some node) :
    FileContext.MakesDeclaration node d := by
  obtain ⟨hFile, hMem, _, _⟩ := hFiles.of_findDeclaration hFound
  obtain ⟨_, _, _, hMade⟩ := hFiles.made _ (Table.mem_of_find? hFile)
  obtain ⟨hEach, hDistinct⟩ := ModelFile.forall₂_of_ofModel hMade
  rw [node?, hFound] at hNode
  exact Named.related_of_find? hEach (fun _ _ hMakes => hMakes.name) hDistinct hMem hNode

/-- A scalar is made of the type that is written for it. -/
theorem IsLoaded.isMadeOf_of_scalar (hFiles : IsLoaded files) {v : ValueType}
    (hScalar : body? files fqn = some (.scalarBody v))
    (hWritten : (files.node? fqn).bind (·.scalar?) = some type) : v.IsMadeOf type := by
  obtain ⟨node, hNode, hType⟩ := Option.bind_eq_some_iff.mp hWritten
  obtain ⟨file, d, hFound, hBody⟩ := body?_eq_some.mp hScalar
  obtain ⟨made, hMade, hIs⟩ := (hFiles.makesDeclaration hFound hNode).scalar type hType
  rw [hBody] at hMade
  cases hMade
  exact hIs

/-- A property that refers to a scalar has the type that is written for the scalar. -/
theorem IsLoaded.isMadeOf_of_resolveType (hFiles : IsLoaded files) {target : String}
    {v : ValueType} (hType : p.type = .scalar target v)
    (hResolved : file.resolveType files p.property = .ok p.type)
    (hWritten : files.primitive? p = some type) : v.IsMadeOf type := by
  rw [primitive?, hType] at hWritten
  rw [hType] at hResolved
  rcases ModelFile.resolveType_eq_ok hResolved with ⟨_, _, hSame⟩ | ⟨_, _, hScalar, hSame⟩ |
    ⟨_, _, hSame, _⟩ | ⟨_, _, _, hSame⟩
  · cases hSame
  · cases hSame
    exact hFiles.isMadeOf_of_scalar hScalar hWritten
  · cases hSame
  · cases hSame

/-- A property of a class is among those that its owner declares and those that the system adds to
it. -/
theorem Resolves.exists_home (hFiles : IsLoaded files) {c : ResolvedClass}
    (hResolves : Resolves files fqn c) (hMem : p ∈ c.properties) :
    ∃ file d body declared inherited, findClass files p.owner = .ok (file, d, body) ∧
      ClassBody.resolveOwn files file d [] body.properties = .ok declared ∧
      p ∈ declared ++ body.systemProperties d.fqn inherited := by
  have hOwn {fqn : String} {file : ModelFile} {d : Declaration} {body : ClassBody}
      {parent : Option ResolvedClass} {declared : List ResolvedProperty}
      (hFound : findClass files fqn = .ok (file, d, body))
      (hDeclared : ClassBody.resolveOwn files file d [] body.properties = .ok declared)
      (hMem : p ∈ declared ++ body.systemProperties d.fqn (ClassBody.inheritedFrom parent)) :
      findClass files p.owner = .ok (file, d, body) := by
    obtain ⟨_, _, _, hName⟩ := hFiles.of_findDeclaration (findClass_eq_ok.mp hFound).1
    rw [ClassBody.owner_of_own hDeclared hMem, hName]
    exact hFound
  induction hResolves with
  | base hFound _ hResolved =>
      obtain ⟨declared, hDeclared, _, _, rfl⟩ := ClassBody.resolve_eq_ok hResolved
      rcases List.mem_append.mp hMem with hMem | hInherited
      · exact ⟨_, _, _, declared, _, hOwn hFound hDeclared hMem, hDeclared, hMem⟩
      · simp [ClassBody.inheritedFrom] at hInherited
  | sub hFound _ _ hResolved ih =>
      obtain ⟨declared, hDeclared, _, _, rfl⟩ := ClassBody.resolve_eq_ok hResolved
      rcases List.mem_append.mp hMem with hMem | hInherited
      · exact ⟨_, _, _, declared, _, hOwn hFound hDeclared hMem, hDeclared, hMem⟩
      · exact ih hInherited

/-- A field has the primitive type that its owner writes for it. What the system adds is not
written. -/
theorem IsLoaded.exists_isMadeOf_of_field (hFiles : IsLoaded files) {body : ClassBody}
    {declared inherited : List ResolvedProperty}
    (hFound : findClass files p.owner = .ok (file, d, body))
    (hDeclared : ClassBody.resolveOwn files file d [] body.properties = .ok declared)
    (hMem : p ∈ declared ++ body.systemProperties d.fqn inherited)
    (hWritten : (files.node? p.owner).bind (·.field? p.name) = some type) :
    ∃ v, p.type.value? = some v ∧ v.IsMadeOf type := by
  obtain ⟨hFind, hClass⟩ := findClass_eq_ok.mp hFound
  obtain ⟨node, hNode, hField⟩ := Option.bind_eq_some_iff.mp hWritten
  obtain ⟨q, hQ, hType⟩ := Option.bind_eq_some_iff.mp hField
  have hEach := (hFiles.makesDeclaration hFind hNode).properties
  rw [Declaration.properties_of_class? hClass, ← ClassBody.map_property_of_resolveOwn hDeclared,
    List.forall₂_map_right_iff] at hEach
  rcases List.mem_append.mp hMem with hOwn | hSystem
  · have hNames : node.properties.map (·.name) = declared.map (·.name) := by
      rw [← List.forall₂_eq_eq_eq, List.forall₂_map_left_iff, List.forall₂_map_right_iff]
      exact hEach.imp fun _ _ hMakes => hMakes.name.symm
    obtain ⟨_, _, _, hDistinct⟩ := ClassBody.resolveOwn_eq_ok hDeclared
    have hMakes := Named.related_of_find? hEach (fun _ _ hMakes => hMakes.name)
      (hNames ▸ hDistinct) hOwn hQ
    obtain ⟨v, hValue, hIs⟩ := hMakes.type type hType
    have hResolved := (ClassBody.resolveProperty_eq_ok
      (ClassBody.resolveProperty_of_resolveOwn hDeclared hOwn)).1
    rw [ModelFile.resolveType, hValue] at hResolved
    exact ⟨v, Except.ok.inj hResolved ▸ rfl, hIs⟩
  · -- No field bears a name of the system.
    obtain ⟨hQMem, hQName⟩ := Named.mem_of_find? hQ
    obtain ⟨r, hR, hMakes⟩ := Named.exists_of_forall₂ hEach.flip hQMem
    have hPlain := ClassBody.isSystemName_of_declared hDeclared
      (fun hSpace => (hFiles.rootClass_of_space hFound hSpace).2.2) r hR
    have hReserved := (ClassBody.of_mem_systemProperties hSystem).2.1
    have hName : r.name = p.name := hMakes.name.trans hQName
    rw [hName, hReserved] at hPlain
    cases hPlain

/-- A primitive type of a property is made of the one that is written for it. -/
theorem Resolves.exists_isMadeOf (hFiles : IsLoaded files) {c : ResolvedClass}
    (hResolves : Resolves files fqn c) (hMem : p ∈ c.properties)
    (hWritten : files.primitive? p = some type) :
    ∃ v, p.type.value? = some v ∧ v.IsMadeOf type := by
  obtain ⟨file, d, body, declared, inherited, hFound, hDeclared, hOwn⟩ :=
    hResolves.exists_home hFiles hMem
  cases hType : p.type with
  | value v =>
      rw [primitive?, hType] at hWritten
      rw [← hType]
      exact hFiles.exists_isMadeOf_of_field hFound hDeclared hOwn hWritten
  | scalar target v =>
      refine ⟨v, rfl, ?_⟩
      rcases List.mem_append.mp hOwn with hOwn | hSystem
      · have hResolved := ClassBody.resolveProperty_of_resolveOwn hDeclared hOwn
        exact hFiles.isMadeOf_of_resolveType hType (ClassBody.resolveProperty_eq_ok hResolved).1
          hWritten
      · rcases ClassBody.mem_systemProperties.mp hSystem with ⟨_, _, rfl⟩ | ⟨_, _, rfl⟩
        · cases hType
        · cases hType
  | _ =>
      rw [primitive?, hType] at hWritten
      cases hWritten

end ModelFiles

/-- The properties of the indexed classes, and the values of the indexed maps for which a scalar
stands. The other primitive types of maps have no bounds. -/
inductive Registry.HasProperty (r : Registry) : ResolvedProperty → Prop where
  | field {c : ResolvedClass} {p : ResolvedProperty} (hClass : c ∈ r.index.classes)
      (hMem : p ∈ c.properties) : HasProperty r p
  | entry {m : ResolvedMap} {fqn : String} {type : ValueType} (hMap : m ∈ r.index.maps)
      (hScalar : m.value.type = .scalar fqn type) : HasProperty r m.value

theorem Session.Sound.exists_isMadeOf {s : Session} (hSound : s.Sound) {p : ResolvedProperty}
    (hHas : s.registry.HasProperty p) {type : Primitive}
    (hWritten : s.registry.files.primitive? p = some type) :
    ∃ v, p.type.value? = some v ∧ v.IsMadeOf type := by
  obtain ⟨whole, hWhole, hPointers⟩ := TypeIndex.exists_isWhole hSound.files hSound.index
  obtain ⟨hIndex, _⟩ := TypeIndex.checkPointers_eq_ok hPointers
  cases hHas with
  | @field c p hClass hMem =>
      have hWholeMem : c ∈ whole.classes := by
        rw [hIndex] at hClass
        exact (List.mem_filter.mp hClass).1
      exact ((hWhole.classes c).mp hWholeMem).exists_isMadeOf hSound.files hMem hWritten
  | @entry m target v hMap hScalar =>
      have hWholeMem : m ∈ whole.maps := by
        rw [hIndex] at hMap
        exact (List.mem_filter.mp hMap).1
      obtain ⟨file, d, key, value, _, _, hResolved⟩ := hWhole.maps m hWholeMem
      obtain ⟨_, _, hValue, _⟩ := TypeIndex.resolveMap_eq_ok hResolved
      obtain ⟨hType, hProperty, _⟩ := ClassBody.resolveProperty_eq_ok hValue
      rw [← hProperty] at hType
      exact ⟨v, hScalar ▸ rfl, hSound.files.isMadeOf_of_resolveType hScalar hType hWritten⟩

/-! ## Integers in values and trees -/

/-- The value of a property that has integers: one, or an array of them. -/
inductive Value.HasIntegers (p : ResolvedProperty) : Value → List Int64 → Prop where
  | item {value : Value} {i : Int64} (hSingle : p.isArray = false) (hItem : value.IsInteger i) :
      HasIntegers p value [i]
  | array {items : List Value} {is : List Int64} (hArray : p.isArray = true)
      (hItems : List.Forall₂ Value.IsInteger items is) : HasIntegers p (.array items) is

/-- A tree that is read as an integer: a number without a fraction. -/
def Json.IsInteger (json : Json) (i : Int64) : Prop :=
  ∃ n, json = .number n ∧ n.toInt64? = some i

/-- The tree of a property that has integers: one, or an array of them. -/
inductive Json.HasIntegers (p : ResolvedProperty) : Json → List Int64 → Prop where
  | item {json : Json} {i : Int64} (hSingle : p.isArray = false) (hItem : json.IsInteger i) :
      HasIntegers p json [i]
  | array {items : List Json} {is : List Int64} (hArray : p.isArray = true)
      (hItems : List.Forall₂ Json.IsInteger items is) : HasIntegers p (.array items) is

section

variable {p : ResolvedProperty} {type : ValueType} {bounds : Bounds Int64}
  (hType : p.type.value? = some type) (hRange : type.HasRange bounds)
include hType hRange

namespace Encoder

variable {e : Encoder} (hValidate : e.options.validate = true)
include hValidate

theorem exists_runs_integer {value : Value} {i : Int64} (hInteger : value.IsInteger i)
    (path : Path) (seen : List String) :
    (∃ json later, Runs (e.encodeItem p path value) seen json later) ↔
      bounds.Contains Double.nearest i := by
  rw [← hRange.check path i value hInteger, encodeItem_of_valueType hType]
  simp only [runs_lift, encodeValue_eq_ok, hValidate, true_implies]
  constructor
  · rintro ⟨_, _, ⟨hChecked, _⟩, _⟩
    exact hChecked
  · intro hChecked
    rcases hInteger with rfl | rfl
    · exact ⟨_, seen, ⟨hChecked, .integer i⟩, rfl⟩
    · exact ⟨_, seen, ⟨hChecked, .long i⟩, rfl⟩

/-- An array is written when each of its integers is. -/
theorem exists_runs_integers {items : List Value} {is : List Int64}
    (hItems : List.Forall₂ Value.IsInteger items is) (path : Path) (k : Nat)
    (seen : List String) :
    (∃ trees later, Runs (e.encodeItems p path k items) seen trees later) ↔
      ∀ i ∈ is, bounds.Contains Double.nearest i := by
  induction hItems generalizing k seen with
  | nil =>
      refine iff_of_true ⟨[], seen, ?_⟩ nofun
      rw [encodeItems]
      exact runs_pure.mpr ⟨rfl, rfl⟩
  | @cons value i items is hFirst _ ih =>
      rw [encodeItems, List.forall_mem_cons,
        ← exists_runs_integer hType hRange hValidate hFirst (path.index k) seen]
      simp only [runs_bind, runs_pure]
      constructor
      · rintro ⟨_, _, json, middle, hJson, trees, later, hTrees, _⟩
        exact ⟨⟨json, middle, hJson⟩, (ih (k + 1) middle).mp ⟨trees, later, hTrees⟩⟩
      · rintro ⟨⟨json, middle, hJson⟩, hRest⟩
        obtain ⟨trees, later, hTrees⟩ := (ih (k + 1) middle).mpr hRest
        exact ⟨_, _, json, middle, hJson, trees, later, hTrees, rfl, rfl⟩

/-- The validating writer writes integers when all of them are within the bounds as doubles. -/
theorem exists_runs_property {value : Value} {is : List Int64} (hHas : value.HasIntegers p is)
    (path : Path) (seen : List String) :
    (∃ json later, Runs (e.encodeProperty p path value) seen json later) ↔
      ∀ i ∈ is, bounds.Contains Double.nearest i := by
  cases hHas with
  | item hSingle hItem =>
      rw [encodeProperty.eq_def, hSingle, List.forall_mem_singleton]
      exact exists_runs_integer hType hRange hValidate hItem path seen
  | @array items is hArray hItems =>
      rw [encodeProperty.eq_def, hArray,
        ← exists_runs_integers hType hRange hValidate hItems path 0 seen]
      simp only [if_true, runs_bind, runs_pure]
      constructor
      · rintro ⟨_, _, trees, later, hTrees, _⟩
        exact ⟨trees, later, hTrees⟩
      · rintro ⟨trees, later, hTrees⟩
        exact ⟨_, _, trees, later, hTrees, rfl, rfl⟩

end Encoder

namespace Decoder

variable {d : Decoder} (hValidate : d.options.validate = true)
include hValidate

theorem exists_decodeItem_integer {json : Json} {i : Int64} (hInteger : json.IsInteger i)
    (path : Path) :
    (∃ value, d.decodeItem p path json = .ok value) ↔ bounds.Contains Double.nearest i := by
  obtain ⟨n, rfl, hNumber⟩ := hInteger
  have hRead : ∃ value : Value, value.IsInteger i ∧
      d.primitive? type.primitive (.number n) = some value := by
    rcases hRange.whole with hWhole | hWhole
    · exact ⟨.integer i, .inl rfl, by simp [primitive?, hWhole, Json.number?, hNumber]⟩
    · exact ⟨.long i, .inr rfl, by simp [primitive?, hWhole, Json.number?, hNumber]⟩
  obtain ⟨value, hIs, hValue⟩ := hRead
  rw [← hRange.check path i value hIs, decodeItem_of_valueType hType, decodeValue, hValue]
  simp only [hValidate, if_true, Outcome.bind_eq_ok, Outcome.exists_unit, Outcome.pure_eq_ok]
  constructor
  · rintro ⟨_, hChecked, _⟩
    exact hChecked
  · intro hChecked
    exact ⟨value, hChecked, rfl⟩

/-- An array is read when each of its integers is. -/
theorem exists_decodeItems_integers {items : List Json} {is : List Int64}
    (hItems : List.Forall₂ Json.IsInteger items is) (path : Path) (k : Nat) :
    (∃ values, d.decodeItems p path k items = .ok values) ↔
      ∀ i ∈ is, bounds.Contains Double.nearest i := by
  induction hItems generalizing k with
  | nil =>
      refine iff_of_true ⟨[], ?_⟩ nofun
      rw [decodeItems]
  | @cons json i items is hFirst _ ih =>
      rw [decodeItems, List.forall_mem_cons, ← ih (k + 1),
        ← exists_decodeItem_integer hType hRange hValidate hFirst (path.index k)]
      simp only [Outcome.bind_eq_ok, Outcome.pure_eq_ok]
      constructor
      · rintro ⟨_, value, hValue, values, hValues, _⟩
        exact ⟨⟨value, hValue⟩, values, hValues⟩
      · rintro ⟨⟨value, hValue⟩, values, hValues⟩
        exact ⟨_, value, hValue, values, hValues, rfl⟩

/-- The validating reader reads integers when all of them are within the bounds as doubles. -/
theorem exists_decodeProperty_integers {json : Json} {is : List Int64}
    (hHas : json.HasIntegers p is) (path : Path) :
    (∃ value, d.decodeProperty p path json = .ok value) ↔
      ∀ i ∈ is, bounds.Contains Double.nearest i := by
  cases hHas with
  | item hSingle hItem =>
      rw [decodeProperty.eq_def, hSingle, List.forall_mem_singleton]
      exact exists_decodeItem_integer hType hRange hValidate hItem path
  | @array items is hArray hItems =>
      rw [decodeProperty.eq_def, hArray,
        ← exists_decodeItems_integers hType hRange hValidate hItems path 0]
      simp only [if_true, Outcome.map_eq_ok]
      constructor
      · rintro ⟨_, values, hValues, _⟩
        exact ⟨values, hValues⟩
      · rintro ⟨values, hValues⟩
        exact ⟨_, values, hValues, rfl⟩

end Decoder

end

/-- Whatever was asked of a registry, it holds no model in which the bounds of integers cross as
doubles. The validating writer and the validating reader accept integers of a property, one or an
array of them, when each of them is within the bounds as a double. So they accept all integers of
the range, and no integer that is farther from it than 1024. They accept no other integers where the
bounds need no more than 53 bits, and then the bounds do not cross, either. -/
theorem Session.range_of_run (changes : List Change) :
    let r := (initial.run changes).registry
    (∀ entry ∈ r.files, ∀ node ∈ entry.2.model.declarations, ∀ type ∈ node.primitives,
      ∀ bounds, type.integerBounds? = some bounds →
        bounds.IsOrdered Double.nearest ∧ (bounds.IsSmall → bounds.IsOrdered id)) ∧
    ∀ p, r.HasProperty p → ∀ type bounds, r.files.primitive? p = some type →
      type.integerBounds? = some bounds →
      (∀ options : EncodeOptions, options.validate = true →
        ∀ value is, Value.HasIntegers p value is → ∀ path seen,
          (∃ json later, Encoder.Runs
            ((⟨r, options⟩ : Encoder).encodeProperty p path value) seen json later) ↔
            ∀ i ∈ is, bounds.Contains Double.nearest i) ∧
      (∀ now (options : DecodeOptions), options.validate = true →
        ∀ json is, Json.HasIntegers p json is → ∀ path,
          (∃ value, (⟨r, now, options⟩ : Decoder).decodeProperty p path json = .ok value) ↔
            ∀ i ∈ is, bounds.Contains Double.nearest i) ∧
      ∀ i, (bounds.Contains id i → bounds.Contains Double.nearest i) ∧
        (bounds.Contains Double.nearest i →
          (∀ lower, bounds.lower = some lower → lower.toInt ≤ i.toInt + 1024) ∧
            ∀ upper, bounds.upper = some upper → i.toInt ≤ upper.toInt + 1024) ∧
        (bounds.IsSmall → (bounds.Contains Double.nearest i ↔ bounds.Contains id i)) := by
  intro r
  have hSound : Sound (initial.run changes) := sound_run sound_initial changes
  refine ⟨?_, ?_⟩
  · intro entry hEntry node hNode type hMem bounds hBounds
    obtain ⟨_, _, _, hMade⟩ := hSound.files.made entry hEntry
    obtain ⟨hEach, _⟩ := ModelFile.forall₂_of_ofModel hMade
    obtain ⟨d, _, hMakes⟩ := Named.exists_of_forall₂ hEach.flip hNode
    obtain ⟨v, hIs⟩ := hMakes.exists_isMadeOf hMem
    have hOrdered := (hIs.hasRange hBounds).ordered
    exact ⟨hOrdered, fun hSmall => hSmall.isOrdered hOrdered⟩
  · intro p hHas type bounds hWritten hBounds
    obtain ⟨v, hType, hIs⟩ := hSound.exists_isMadeOf hHas hWritten
    have hRange := hIs.hasRange hBounds
    refine ⟨?_, ?_, fun i => ⟨Bounds.Contains.nearest, Bounds.Contains.isNear,
      Bounds.IsSmall.contains_iff⟩⟩
    · intro options hValidate value is hIntegers path seen
      exact Encoder.exists_runs_property hType hRange hValidate hIntegers path seen
    · intro now options hValidate json is hIntegers path
      exact Decoder.exists_decodeProperty_integers hType hRange hValidate hIntegers path

/-! ## A model of gauges

The level of a gauge has an upper bound of 54 bits. Its depths are scalars with a lower bound of 53
bits.
-/

namespace Gauge

def space : String := "gauge@1.0.0"

/-- The bounds of levels. -/
def levels : Bounds Int64 := ⟨none, some 9007199254740992⟩

/-- The bounds of depths. -/
def depths : Bounds Int64 := ⟨some (-9007199254740991), none⟩

/-- The syntax tree of the model. -/
def model : Metamodel.Model :=
  { Metamodel.Model.empty space with
    declarations :=
      [⟨"Depth", .scalarBody (.primitive (.long none (some depths))), [], none⟩,
       ⟨"Gauge", .classBody .concept false none none
         [⟨"level", .typed (.primitive (.integer none (some levels))) false false, [], none⟩,
          ⟨"depth", .typed (.object ⟨"Depth", none⟩ none) true false, [], none⟩], [], none⟩] }

/-- The type of levels. -/
def levelType : ValueType :=
  .integer (some ⟨none, some (Number.ofInt64 9007199254740992)⟩) none

/-- The type of depths. -/
def depthType : ValueType :=
  .long (some ⟨some (Number.ofInt64 (-9007199254740991)), none⟩) none

def levelProperty : Property := ⟨"level", .value levelType, false, false, [], none⟩

def depthProperty : Property := ⟨"depth", .declared ⟨"Depth", none⟩ none, true, false, [], none⟩

/-- The model file. -/
def file : ModelFile where
  space := space
  version := ⟨"gauge", some ⟨1, 0, 0, "", ""⟩⟩
  fileName := none
  checksum := ModelFile.checksumOf model
  model := model
  declarations :=
    [⟨"Depth", space, .scalarBody depthType, [], none⟩,
     ⟨"Gauge", space, .classBody ⟨.concept, false, none, none, [levelProperty, depthProperty]⟩, [],
       none⟩]
  explicitImports := []
  wildcardImports := []
  decorators := []

def level : ResolvedProperty := ⟨levelProperty, "gauge@1.0.0.Gauge", .value levelType⟩

def depth : ResolvedProperty :=
  ⟨depthProperty, "gauge@1.0.0.Gauge", .scalar "gauge@1.0.0.Depth" depthType⟩

/-- The class of gauges. -/
def gaugeClass : ResolvedClass := .concept space "Gauge" none none [level, depth]

/-- The registry into which the model has been loaded. -/
def registry : Registry where
  files := [(rootNamespace, Root.file), (space, file)]
  index := ⟨Root.index.classes ++ [gaugeClass], []⟩
  factories := []

theorem build_files : TypeIndex.build registry.files .strict = .ok registry.index := by
  have hEach : TypeIndex.resolveEach registry.files .strict [gaugeClass.fqn] Root.findings =
      .ok [gaugeClass] :=
    Root.resolveEach_cons_sub rfl rfl rfl rfl rfl rfl
  exact (Root.build_of_rest rfl rfl rfl hEach rfl rfl rfl).trans
    (TypeIndex.checkPointers_of_no_pointers .strict (by decide) (by decide))

theorem run_model : (Session.initial.run [.addModel ⟨model, none⟩]).registry = registry := by
  have hMade : Session.initial.registry.makeFile ⟨model, none⟩ = .ok file := rfl
  exact Session.run_addModel (Registry.addModel_of_build hMade rfl build_files)

theorem hasProperty_level : registry.HasProperty level :=
  .field (c := gaugeClass) (by simp [registry]) List.mem_cons_self

theorem hasProperty_depth : registry.HasProperty depth :=
  .field (c := gaugeClass) (by simp [registry]) (List.mem_cons_of_mem _ List.mem_cons_self)

theorem isMadeOf_levelType : levelType.IsMadeOf (.integer none (some levels)) :=
  ⟨⟨space, none, []⟩, "level", none, .badFieldDefault "level", rfl⟩

/-- The bound of levels is followed by an integer that is rounded to it. -/
theorem contains_levels : levels.Contains Double.nearest 9007199254740993 ∧
    ¬ levels.Contains id 9007199254740993 := by
  refine ⟨⟨nofun, ?_⟩, fun hContains => ?_⟩
  · rintro _ ⟨⟩
    decide
  · exact absurd (hContains.2 _ rfl) (by decide)

theorem isSmall_depths : depths.IsSmall := by
  rintro _ (⟨⟨⟩⟩ | ⟨⟨⟩⟩)
  decide

end Gauge

namespace Session

/-- Depths of more than 53 bits are written, and the integer below the bound is not read. -/
theorem range_of_gauges :
    (initial.run [.addModel ⟨Gauge.model, none⟩]).registry = Gauge.registry ∧
    Gauge.registry.HasProperty Gauge.depth ∧
    Gauge.registry.files.primitive? Gauge.depth = some (.long none (some Gauge.depths)) ∧
    Gauge.depths.IsSmall ∧
    (∃ json later, Encoder.Runs ((Encoder.standard Gauge.registry).encodeProperty Gauge.depth .root
      (.array [.long (-9007199254740991), .integer 9007199254740993])) [] json later) ∧
    ∀ now, ¬ ∃ value, (Decoder.standard Gauge.registry now).decodeProperty Gauge.depth .root
      (.array [.int 0, .int (-9007199254740992)]) = .ok value := by
  obtain ⟨_, hProperties⟩ := range_of_run [.addModel ⟨Gauge.model, none⟩]
  rw [Gauge.run_model] at hProperties
  obtain ⟨hWriter, hReader, hBounds⟩ := hProperties Gauge.depth Gauge.hasProperty_depth
    (.long none (some Gauge.depths)) Gauge.depths rfl rfl
  refine ⟨Gauge.run_model, Gauge.hasProperty_depth, rfl, Gauge.isSmall_depths, ?_, fun now => ?_⟩
  · have hIntegers : Value.HasIntegers Gauge.depth
        (.array [.long (-9007199254740991), .integer 9007199254740993])
        [-9007199254740991, 9007199254740993] :=
      .array rfl (.cons (.inr rfl) (.cons (.inl rfl) .nil))
    refine (hWriter .default rfl _ _ hIntegers .root []).mpr fun i hMem => (hBounds i).1 ⟨?_, nofun⟩
    rintro _ ⟨⟩
    simp only [List.mem_cons, List.not_mem_nil, or_false] at hMem
    rcases hMem with rfl | rfl
    · decide
    · decide
  · have hIntegers : Json.HasIntegers Gauge.depth
        (.array [.int 0, .int (-9007199254740992)]) [0, -9007199254740992] :=
      .array rfl (.cons ⟨_, rfl, rfl⟩ (.cons ⟨_, rfl, rfl⟩ .nil))
    intro hRead
    have hAll := (hReader now .default rfl _ _ hIntegers .root).mp hRead
    have hContains := ((hBounds (-9007199254740992)).2.2 Gauge.isSmall_depths).mp
      (hAll _ (List.mem_cons_of_mem _ List.mem_cons_self))
    exact absurd (hContains.1 _ rfl) (by decide)

/-- A level that is greater than its bound by one is written and read. -/
theorem level_of_gauges :
    (initial.run [.addModel ⟨Gauge.model, none⟩]).registry = Gauge.registry ∧
    Gauge.registry.HasProperty Gauge.level ∧
    Gauge.registry.files.primitive? Gauge.level = some (.integer none (some Gauge.levels)) ∧
    ¬ Gauge.levels.Contains id 9007199254740993 ∧
    (∃ json later, Encoder.Runs ((Encoder.standard Gauge.registry).encodeProperty Gauge.level .root
      (.integer 9007199254740993)) [] json later) ∧
    ∀ now, ∃ value, (Decoder.standard Gauge.registry now).decodeProperty Gauge.level .root
      (.int 9007199254740993) = .ok value := by
  obtain ⟨hNearest, hBeyond⟩ := Gauge.contains_levels
  have hRange := Gauge.isMadeOf_levelType.hasRange rfl
  have hAll : ∀ i ∈ [(9007199254740993 : Int64)], Gauge.levels.Contains Double.nearest i :=
    List.forall_mem_singleton.mpr hNearest
  refine ⟨Gauge.run_model, Gauge.hasProperty_level, rfl, hBeyond, ?_, fun now => ?_⟩
  · exact (Encoder.exists_runs_property rfl hRange rfl (.item rfl (.inl rfl)) .root []).mpr hAll
  · exact (Decoder.exists_decodeProperty_integers rfl hRange rfl (.item rfl ⟨_, rfl, rfl⟩)
      .root).mpr hAll

end Session

end DomainModels
