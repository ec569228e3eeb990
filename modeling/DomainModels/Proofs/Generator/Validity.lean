import DomainModels.Proofs.Generator.Blame
import DomainModels.Proofs.Generator.Results
import DomainModels.Proofs.Generator.Termination
import DomainModels.Proofs.Wire.Acceptance
import DomainModels.Proofs.Wire.RoundTrip

/-!
Generated instances are valid.

Whatever a source answers, as long as it keeps to the validators that it is asked to respect, what
is made of the answers passes the checks with which instances are written. Where the model declares
a default, the default takes the place of an answer, and it was checked when the model was loaded.
-/

namespace DomainModels.Generator

open Encoder (AcceptsItem AcceptsProperty AcceptsInstance standard)

variable {σ : Type} {g : Generator σ} {top target : String} {p : ResolvedProperty}

/-! ## What a source is asked for -/

mutual

/-- The types of which values may be made while an instance of a type is generated. -/
inductive Reaches (g : Generator σ) (top : String) : String → Prop where
  | top : Reaches g top top
  | item {p : ResolvedProperty} {target : String} {default : Option String} (hAsks : Asks g top p)
      (hType : p.type = .declared target default) : Reaches g top target

/-- The properties for which values may be made: those that are drawn, and the keys and the values of
maps. -/
inductive Asks (g : Generator σ) (top : String) : ResolvedProperty → Prop where
  | field {target : String} {c : ResolvedClass} {p : ResolvedProperty} (hTarget : Reaches g top target)
      (hConcrete : concrete g.registry target = .ok c) (hMem : p ∈ c.properties)
      (hDrawn : g.isDrawn c p = true) : Asks g top p
  | key {target : String} {m : ResolvedMap} (hTarget : Reaches g top target)
      (hMap : g.registry.index.map? target = some m) : Asks g top m.key
  | value {target : String} {m : ResolvedMap} (hTarget : Reaches g top target)
      (hMap : g.registry.index.map? target = some m) : Asks g top m.value

end

/-- Values are made for the properties of indexed classes and for the parts of indexed maps. -/
theorem Asks.mem (hAsks : g.Asks top p) :
    (∃ c ∈ g.registry.index.classes, p ∈ c.properties) ∨
      ∃ m ∈ g.registry.index.maps, p = m.key ∨ p = m.value := by
  cases hAsks with
  | field _ hConcrete hMem => exact .inl ⟨_, mem_classes_of_concrete hConcrete, hMem⟩
  | key _ hMap => exact .inr ⟨_, List.mem_of_find?_eq_some hMap, .inl rfl⟩
  | value _ hMap => exact .inr ⟨_, List.mem_of_find?_eq_some hMap, .inr rfl⟩

/-- A source that respects the validators that it is handed while an instance of a type is
generated: texts and identifiers are accepted, numbers are within the bounds, and doubles are
finite. -/
structure Respects (g : Generator σ) (top : String) : Prop where
  string : ∀ p v default, g.Asks top p → p.type.value? = some (.string v default) →
    ∀ s, ValueType.checkText v .root ((g.source.string v).run s).1 = .ok ()
  integer : ∀ p v default, g.Asks top p → p.type.value? = some (.integer v default) →
    ∀ s, ValueType.checkNumber v .root (Number.ofInt64 ((g.source.integer v).run s).1) = .ok ()
  long : ∀ p v default, g.Asks top p → p.type.value? = some (.long v default) →
    ∀ s, ValueType.checkNumber v .root (Number.ofInt64 ((g.source.long v).run s).1) = .ok ()
  double : ∀ p v default, g.Asks top p → p.type.value? = some (.double v default) →
    ∀ s, ValueType.checkNumber v .root ((g.source.double v).run s).1 = .ok () ∧
      ((g.source.double v).run s).1.isFinite = true
  identifier : ∀ target c field, g.Reaches top target → concrete g.registry target = .ok c →
    c.identifier = some field → ∀ s, ValueType.checkText (identifierValidator? c field) .root
      ((g.source.identifier (identifierValidator? c field)).run s).1 = .ok ()

/-! ## Primitive values -/

variable {type : ValueType}

/-- What is drawn for a primitive type passes the check of the type and is written. -/
theorem yields_drawValue (hRespects : g.Respects top) (hAsks : g.Asks top p)
    (hType : p.type.value? = some type) :
    Yields (fun value => type.check .root value = .ok () ∧
      ∃ json, (standard g.registry).WritesValue value json) (g.drawValue type) := by
  cases type with
  | string v default =>
      exact .draw fun s => ⟨hRespects.string p v default hAsks hType s, _, .string _⟩
  | boolean default => exact .draw fun s => ⟨rfl, _, .boolean _⟩
  | integer v default =>
      exact .draw fun s => ⟨hRespects.integer p v default hAsks hType s, _, .integer _⟩
  | long v default =>
      exact .draw fun s => ⟨hRespects.long p v default hAsks hType s, _, .long _⟩
  | double v default =>
      refine .draw fun s => ?_
      obtain ⟨hBounds, hFinite⟩ := hRespects.double p v default hAsks hType s
      exact ⟨hBounds, _, .double hFinite⟩
  | dateTime default => exact .draw fun s => ⟨rfl, _, .dateTime _⟩

/-- The keys of maps are written as texts. -/
theorem yields_drawKey (hRespects : g.Respects top) (hAsks : g.Asks top p)
    (hType : p.type.value? = some type) (hKey : ModelFile.isKeyType (some type) = true) :
    Yields (fun key => ∃ text,
      (standard g.registry).encodeValue type .root key = .ok (.string text))
      (g.drawValue type) := by
  cases type with
  | string v default =>
      exact .draw fun s => ⟨_, Encoder.encodeValue_eq_ok.mpr
        ⟨fun _ => hRespects.string p v default hAsks hType s, .string _⟩⟩
  | dateTime default => exact .draw fun s => ⟨_, Encoder.encodeValue_eq_ok.mpr
      ⟨fun _ => rfl, .dateTime _⟩⟩
  | _ => cases hKey

/-! ## Instances -/

/-- What takes the place of a class can stand for it. -/
theorem isAssignable_of_concrete (hStrict : g.registry.IsStrict) {c : ResolvedClass}
    (hConcrete : concrete g.registry target = .ok c) :
    g.registry.index.isAssignable c.fqn target = true := by
  have hDistinct : g.registry.index.IsDistinct := TypeIndex.nodup_classes hStrict.index
  have hAcyclic := TypeIndex.acyclic_of_build hStrict.files hStrict.index
  exact hAcyclic.isAssignable_iff.mpr
    (hDistinct.reach_of_mem_assignableClasses (mem_of_concrete hConcrete).1)

section

variable {P : ResolvedProperty → Value → Prop} {c : ResolvedClass} {id : String} {start x : Resource}
  (hStrict : g.registry.IsStrict) (hDrawn : g.IsDrawnInstance P target c id start x)

include hStrict hDrawn

/-- An instance holds values for properties of its class alone. -/
theorem IsDrawnInstance.exists_property : ∀ field ∈ x.values, ∃ p ∈ c.properties, p.name = field.1 := by
  rintro ⟨name, value⟩ hMem
  have hResolves := TypeIndex.resolves_of_mem hStrict.files hStrict.index
    (mem_classes_of_concrete hDrawn.replaces)
  have hGet : x.get? name = some value :=
    Table.find?_of_mem (hDrawn.populated.sorted hDrawn.isNew.sorted) hMem
  rcases hDrawn.populated.drawn name value hGet with hStart | ⟨p, hP, hName, _⟩
  · rcases hDrawn.isNew.values name value hStart with hField | ⟨hTimed, rfl, _⟩ | ⟨p, hP, hName, _⟩
    · obtain ⟨p, hP, hName, _⟩ := hResolves.exists_identifying hStrict.files hField
      exact ⟨p, hP, hName⟩
    · exact (hResolves.timestamp_iff hStrict.files).mpr hTimed
    · exact ⟨p, hP, hName⟩
  · exact ⟨p, hP, hName⟩

/-- Nothing that is required is missing: what is not drawn is the identifier or the time stamp,
which a new instance has. -/
theorem IsDrawnInstance.complete (hMem : p ∈ c.properties) (hOpen : Decoder.isShadowed c p = false) :
    p.isOptional = true ∨ x.contains p.name = true := by
  have hResolves := TypeIndex.resolves_of_mem hStrict.files hStrict.index
    (mem_classes_of_concrete hDrawn.replaces)
  have hKept (hHas : start.contains p.name = true) : x.contains p.name = true := by
    obtain ⟨value, hGet⟩ := Resource.contains_eq_true.mp hHas
    exact Resource.contains_eq_true.mpr ⟨value, hDrawn.populated.kept _ _ hGet⟩
  have hIdentifier (hField : c.identifier = some p.name) : x.contains p.name = true :=
    hKept (Resource.contains_eq_true.mpr ⟨_, hDrawn.isNew.identifier p.name hField⟩)
  cases hSystem : isSystemName p.name with
  | true =>
      obtain ⟨owner, rfl | rfl⟩ := hResolves.isSupplied_of_isSystemName hStrict.files hMem hSystem
      · -- The class is identified, and since nothing shadows this identifier, it is by this one.
        obtain ⟨field, hField⟩ := Option.isSome_iff_exists.mp
          (hResolves.isIdentified_of_mem hStrict.files ⟨_, hMem, rfl⟩)
        refine .inr (hIdentifier ?_)
        by_contra hOther
        rw [Decoder.isShadowed_eq_true.mpr ⟨rfl, field, hField, fun hSame => hOther ?_⟩] at hOpen
        · cases hOpen
        · rw [hField, hSame]
          rfl
      · exact .inr (hKept (hDrawn.isNew.timestamp
          ((hResolves.timestamp_iff hStrict.files).mp ⟨_, hMem, rfl⟩)))
  | false =>
      by_cases hField : c.identifier = some p.name
      · exact .inr (hIdentifier hField)
      · cases hOptional : p.isOptional with
        | true => exact .inl rfl
        | false =>
            have hAsked : g.isDrawn c p = true := by simp [isDrawn, hSystem, hField, hOptional]
            exact (hDrawn.populated.complete p hMem hAsked).imp_left (hOptional ▸ ·)

end

/-- The time stamp is written. -/
theorem acceptsProperty_timestamp {r : Registry} (hStrict : r.IsStrict) {c : ResolvedClass}
    (hClass : c ∈ r.index.classes) (hMem : p ∈ c.properties) (hName : p.name = timestampField)
    (now : DateTime) : AcceptsProperty r p (.dateTime now) := by
  have hResolves := TypeIndex.resolves_of_mem hStrict.files hStrict.index hClass
  obtain ⟨owner, rfl | rfl⟩ := hResolves.isSupplied_of_isSystemName hStrict.files hMem
    (by rw [hName]; decide)
  · exact absurd hName (by decide : identifierField ≠ timestampField)
  · exact Encoder.acceptsProperty_item rfl (Encoder.acceptsItem_value rfl rfl (.dateTime now))

/-- An identifier that passes the validator of its property is written. -/
theorem acceptsProperty_identifier {r : Registry} (hStrict : r.IsStrict) {c : ResolvedClass}
    (hClass : c ∈ r.index.classes) (hMem : p ∈ c.properties) (hField : c.identifier = some p.name)
    {id : String}
    (hChecked : ValueType.checkText (identifierValidator? c p.name) .root id = .ok ()) :
    AcceptsProperty r p (.string id) := by
  have hFound := TypeIndex.class?_of_mem hStrict.index hClass
  have hResolves := TypeIndex.resolves_of_class? hStrict.files hStrict.index hFound
  obtain ⟨q, hQ, hName, hIdentifying⟩ := hResolves.exists_identifying hStrict.files hField
  obtain rfl := hStrict.property_ext hFound hQ hMem hName
  obtain ⟨v, default, hText⟩ := hIdentifying.text
  have hProperty : c.property? q.name = some q :=
    Named.find?_of_mem (hResolves.nodup_properties hStrict.files) hMem
  have hValidator : identifierValidator? c q.name = v := by
    simp [identifierValidator?, hProperty, hText, ValueType.textValidator?]
  rw [hValidator] at hChecked
  exact Encoder.acceptsProperty_item hIdentifying.single
    (Encoder.acceptsItem_value hText hChecked (.string id))

/-- A map that is drawn is written, if its values are. -/
theorem yields_acceptsMap (hStrict : g.registry.IsStrict) (hRespects : g.Respects top)
    (hTarget : g.Reaches top target) {m : ResolvedMap}
    (hMap : g.registry.index.map? target = some m) {declaration : Declaration}
    (hFound : g.registry.getType target = .ok declaration) {key value : PropertyType}
    (hBody : declaration.body = .mapBody key value) {item : ItemMaker σ} {stack : List String}
    (hItem : Yields (AcceptsItem g.registry m.value.type) (item stack m.value))
    {default : Option String} :
    Yields (AcceptsItem g.registry (.declared target default)) (g.drawMap item stack target) := by
  obtain ⟨hKey, _⟩ := TypeIndex.map?_eq_some hStrict.files hStrict.index hMap
  cases hKeyType : m.key.type.value? with
  | none =>
      rw [hKeyType] at hKey
      cases hKey
  | some keyType =>
      rw [hKeyType] at hKey
      have hKeys (found : ResolvedMap) (type : ValueType)
          (hOther : g.registry.index.map? target = some found)
          (hType : found.key.type.value? = some type) :
          Yields (fun key => ∃ text,
            (standard g.registry).encodeValue keyType .root key = .ok (.string text))
            (g.drawValue type) := by
        obtain rfl := Option.some.inj (hMap.symm.trans hOther)
        obtain rfl := Option.some.inj (hKeyType.symm.trans hType)
        exact yields_drawKey hRespects (.key hTarget hMap) hKeyType hKey
      have hValues (found : ResolvedMap) (hOther : g.registry.index.map? target = some found) :
          Yields (AcceptsItem g.registry m.value.type) (item stack found.value) :=
        Option.some.inj (hMap.symm.trans hOther) ▸ hItem
      refine (yields_drawMap hKeys fun found hOther _ => hValues found hOther).imp ?_
      rintro _ ⟨entries, rfl, hEntries⟩
      exact Encoder.acceptsItem_map hFound hBody hMap hKeyType
        (fun entry hMem => (hEntries entry hMem).1) fun entry hMem => (hEntries entry hMem).2

section

variable (hStrict : g.registry.IsStrict) (hPlain : g.registry.HasPlainDefaults)
  (hRespects : g.Respects top)

include hStrict hPlain hRespects

theorem acceptsInstance_of_isDrawnInstance (hTarget : g.Reaches top target) {c : ResolvedClass}
    {id : String} {start x : Resource}
    (hDrawn : g.IsDrawnInstance (fun p => AcceptsItem g.registry p.type) target c id start x) :
    AcceptsInstance g.registry c x := by
  have hClass := mem_classes_of_concrete hDrawn.replaces
  have hFound := TypeIndex.class?_of_mem hStrict.index hClass
  refine ⟨?_, (mem_of_concrete hDrawn.replaces).2, hDrawn.exists_property hStrict,
    fun p hMem hOpen => hDrawn.complete hStrict hMem hOpen, fun p hMem value hGet => ?_⟩
  · have hName : x.fqn = qualify c.space c.name := by
      rw [Resource.fqn, hDrawn.populated.space, hDrawn.populated.typeName, hDrawn.isNew.space,
        hDrawn.isNew.typeName]
    rw [hName]
    exact class?_of_concrete hStrict.files hStrict.index hDrawn.replaces
  · rcases hDrawn.populated.drawn p.name value hGet with hStart | ⟨q, hQ, hName, _, hItems⟩
    · rcases hDrawn.isNew.values p.name value hStart with hField | ⟨_, hName, rfl⟩ |
        ⟨q, hQ, hName, hDefault⟩
      · rw [hDrawn.isNew.identifier p.name hField] at hStart
        cases hStart
        obtain ⟨s, rfl⟩ := hDrawn.identifier p.name hField
        exact acceptsProperty_identifier hStrict hClass hMem hField
          (hRespects.identifier target c p.name hTarget hDrawn.replaces hField s)
      · exact acceptsProperty_timestamp hStrict hClass hMem hName g.now
      · obtain rfl := hStrict.property_ext hFound hQ hMem hName
        exact Encoder.acceptsProperty_of_fits hStrict
          (hPlain.fits_default hStrict hFound hMem hDefault)
    · obtain rfl := hStrict.property_ext hFound hQ hMem hName
      cases hItems with
      | item hSingle hItem => exact Encoder.acceptsProperty_item hSingle hItem
      | array hArray hItems => exact Encoder.acceptsProperty_array hArray hItems

/-- An instance that is drawn is written, if the items of its properties are. -/
theorem yields_acceptsInstance (hTarget : g.Reaches top target) {item : ItemMaker σ}
    {stack : List String} (hItem : ∀ stack p, g.Asks top p → (∃ kind, g.registry.Holds p kind) →
      Yields (AcceptsItem g.registry p.type) (item stack p))
    (hNames : ModelFiles.HasSimpleNames g.registry.files) :
    Yields (fun x => ∃ c, concrete g.registry target = .ok c ∧ AcceptsInstance g.registry c x)
      (g.drawInstance item stack target) := by
  have hDrawn : Yields (fun x => ∃ c id start,
      IsDrawnInstance g (fun p => AcceptsItem g.registry p.type) target c id start x)
      (g.drawInstance item stack target) :=
    yields_drawInstance (fun c hConcrete => class?_of_concrete hStrict.files hStrict.index hConcrete)
      fun c hConcrete p hMem hDrawn _ => hItem _ p (.field hTarget hConcrete hMem hDrawn)
        (hStrict.exists_holds_of_mem hNames (mem_classes_of_concrete hConcrete) hMem)
  refine hDrawn.imp ?_
  rintro x ⟨c, id, start, hX⟩
  exact ⟨c, hX.replaces, acceptsInstance_of_isDrawnInstance hStrict hPlain hRespects hTarget hX⟩

/-- What is drawn for a property is written as an item of it. -/
theorem yields_drawItem (hNames : ModelFiles.HasSimpleNames g.registry.files) (depth : Nat)
    (stack : List String) (p : ResolvedProperty) (hAsks : g.Asks top p)
    (hHolds : ∃ kind, g.registry.Holds p kind) :
    Yields (AcceptsItem g.registry p.type) (g.drawItem depth stack p) := by
  induction depth generalizing stack p with
  | zero => exact .throw
  | succ depth ih =>
      have hPrimitive {v : ValueType} (hType : p.type.value? = some v) :
          Yields (AcceptsItem g.registry p.type) (g.drawValue v) :=
        (yields_drawValue hRespects hAsks hType).imp fun value ⟨hChecked, _, hJson⟩ =>
          Encoder.acceptsItem_value hType hChecked hJson
      obtain ⟨kind, hHolds⟩ := hHolds
      unfold drawItem
      cases kind with
      | primitive =>
          obtain ⟨v, _, hType⟩ := hHolds
          rw [hType] at hPrimitive ⊢
          exact hPrimitive rfl
      | scalar =>
          obtain ⟨_, _, v, _, _, hType⟩ := hHolds
          rw [hType] at hPrimitive ⊢
          exact hPrimitive rfl
      | enum =>
          obtain ⟨_, declaration, values, _, hRefers, hBody, hType⟩ := hHolds
          rw [hType]
          refine .afterLift hRefers.found ?_
          simp only [hBody]
          refine yields_drawEnum.imp ?_
          rintro _ ⟨drawn, hDrawn, rfl⟩
          exact Encoder.acceptsItem_enum hRefers.found hBody
            (List.any_eq_true.mpr ⟨drawn, hDrawn, decide_eq_true rfl⟩)
      | map =>
          obtain ⟨target, declaration, _, _, _, m, hRefers, hBody, hType, hMap⟩ := hHolds
          have hTarget : g.Reaches top target := .item hAsks hType
          have hValues := hStrict.exists_holds_of_map hNames (List.mem_of_find?_eq_some hMap)
          rw [hType]
          refine .afterLift hRefers.found ?_
          simp only [hBody]
          exact yields_acceptsMap hStrict hRespects hTarget hMap hRefers.found hBody
            (ih stack m.value (.value hTarget hMap) hValues.2)
      | ofClass =>
          obtain ⟨target, declaration, _, c, hRefers, hBody, _, ⟨_, hType⟩ | ⟨hType, _⟩⟩ := hHolds
          · have hTarget : g.Reaches top target := .item hAsks hType
            rw [hType]
            refine .afterLift hRefers.found ?_
            simp only [hBody]
            refine .bind (yields_acceptsInstance hStrict hPlain hRespects hTarget ih hNames) ?_
            rintro x ⟨c, hConcrete, hAccepts⟩
            exact .pure (Encoder.acceptsItem_concept hRefers.found hBody hAccepts
              (isAssignable_of_concrete hStrict hConcrete))
          · rw [hType]
            refine yields_drawPointer.imp ?_
            rintro _ ⟨c, id, hConcrete, rfl⟩
            have hAssignable := isAssignable_of_concrete hStrict hConcrete
            have hFound := class?_of_concrete hStrict.files hStrict.index hConcrete
            rw [(TypeIndex.mem_of_class? hFound).2] at hAssignable
            exact Encoder.acceptsItem_pointer hAssignable

end

/-! ## Generated instances -/

/-- What is generated is written with all checks: for every type, with or without optional
properties, and whatever a source that respects its validators answers. -/
theorem exists_encode (hStrict : g.registry.IsStrict)
    (hNames : ModelFiles.HasSimpleNames g.registry.files)
    (hPlain : g.registry.HasPlainDefaults) {space typeName : String}
    (hRespects : g.Respects (qualify space typeName)) {state : σ} {x : Resource}
    (hGenerated : g.generate space typeName state = .ok x) :
    ∃ json, (standard g.registry).encode x = .ok json := by
  obtain ⟨⟨_, later⟩, hResult, rfl⟩ := Outcome.map_eq_ok.mp hGenerated
  obtain ⟨depth, hDepth⟩ := exists_of_generateFrom hResult
  obtain ⟨c, _, hAccepts⟩ := yields_acceptsInstance hStrict hPlain hRespects .top
    (yields_drawItem hStrict hPlain hRespects hNames depth) hNames state _ later hDepth
  exact hAccepts.exists_encode

/-- Wherever a run of changes has led to a registry that validates, what is generated is written
with all checks: for every type, with or without optional properties, and whatever a source that
respects its validators answers. -/
theorem exists_encode_of_generate {changes : List Change}
    (hValid : (Session.initial.run changes).registry.validate = .ok ())
    (hNames : ModelFiles.HasSimpleNames (Session.initial.run changes).registry.files)
    (hPlain : (Session.initial.run changes).registry.HasPlainDefaults) {g : Generator σ}
    (hRegistry : g.registry = (Session.initial.run changes).registry) {space typeName : String}
    (hRespects : g.Respects (qualify space typeName)) {state : σ} {x : Resource}
    (hGenerated : g.generate space typeName state = .ok x) :
    ∃ json, (standard g.registry).encode x = .ok json :=
  exists_encode (hRegistry ▸ Registry.isStrict_of_validate hValid) (hRegistry ▸ hNames)
    (hRegistry ▸ hPlain) hRespects hGenerated

/-- Where all models were read from texts, nothing is asked of numbers. -/
theorem exists_encode_of_written {changes : List Change}
    (hWritten : ∀ change ∈ changes, change.IsWritten)
    (hValid : (Session.initial.run changes).registry.validate = .ok ())
    (hNames : ModelFiles.HasSimpleNames (Session.initial.run changes).registry.files)
    (hDefaults : (Session.initial.run changes).registry.HasEnumDefaults) {g : Generator σ}
    (hRegistry : g.registry = (Session.initial.run changes).registry) {space typeName : String}
    (hRespects : g.Respects (qualify space typeName)) {state : σ} {x : Resource}
    (hGenerated : g.generate space typeName state = .ok x) :
    ∃ json, (standard g.registry).encode x = .ok json :=
  have hPlain : (Session.initial.run changes).registry.HasPlainDefaults :=
    ⟨hDefaults, Session.hasFiniteDefaults_of_run hWritten⟩
  exists_encode (hRegistry ▸ Registry.isStrict_of_validate hValid) (hRegistry ▸ hNames)
    (hRegistry ▸ hPlain) hRespects hGenerated

/-! ## A source of ones -/

/-- The values of a property are not checked by a validator. -/
def IsUnchecked (p : ResolvedProperty) : Prop :=
  (p.type.value?.all fun type =>
    type.textValidator?.isNone && type.numberValidator?.isNone) = true

instance (p : ResolvedProperty) : Decidable (IsUnchecked p) :=
  inferInstanceAs (Decidable (_ = true))

theorem IsUnchecked.of_value? {type : ValueType} (hFree : IsUnchecked p)
    (hType : p.type.value? = some type) :
    type.textValidator? = none ∧ type.numberValidator? = none := by
  simpa [IsUnchecked, hType] using hFree

/-- Where no validators are declared, ones respect them. -/
theorem respects_ones {r : Registry}
    (hClasses : ∀ c ∈ r.index.classes, ∀ p ∈ c.properties, IsUnchecked p)
    (hMaps : ∀ m ∈ r.index.maps, IsUnchecked m.key ∧ IsUnchecked m.value) (top : String) :
    (ones r).Respects top := by
  have hFree {p : ResolvedProperty} (hAsks : (ones r).Asks top p) : IsUnchecked p := by
    rcases hAsks.mem with ⟨c, hClass, hMem⟩ | ⟨m, hMap, rfl | rfl⟩
    · exact hClasses c hClass p hMem
    · exact (hMaps m hMap).1
    · exact (hMaps m hMap).2
  refine ⟨?_, ?_, ?_, ?_, ?_⟩
  · intro p v default hAsks hType s
    obtain ⟨rfl, _⟩ := (hFree hAsks).of_value? hType
    rfl
  · intro p v default hAsks hType s
    obtain ⟨_, rfl⟩ := (hFree hAsks).of_value? hType
    rfl
  · intro p v default hAsks hType s
    obtain ⟨_, rfl⟩ := (hFree hAsks).of_value? hType
    rfl
  · intro p v default hAsks hType s
    obtain ⟨_, rfl⟩ := (hFree hAsks).of_value? hType
    have hFinite : (0.0 : Float).isFinite = true := by decide
    exact ⟨rfl, hFinite⟩
  · intro target c field _ hConcrete _ s
    have hNone : identifierValidator? c field = none := by
      unfold identifierValidator?
      cases hFound : c.property? field with
      | none => rfl
      | some p =>
          have hMem : p ∈ c.properties := List.mem_of_find?_eq_some hFound
          cases hType : p.type.value? with
          | none => simp [hType]
          | some type =>
              simpa [hType] using
                ((hClasses c (mem_classes_of_concrete hConcrete) p hMem).of_value? hType).1
    rw [hNone]
    rfl

end DomainModels.Generator

namespace DomainModels

namespace Garage

theorem hasPlainDefaults_registry : registry.HasPlainDefaults where
  defaults := by
    intro c hClass p hMem target name hType
    have hValues : ∀ c ∈ registry.index.classes, ∀ p ∈ c.properties,
        (p.type.makeDefault p.name).toOption.join.isNone = true := by
      decide
    have hNone := hValues c hClass p hMem
    rw [hType] at hNone
    cases hNone
  numbers := Registry.hasFiniteDefaults_of_isNone (by decide)

theorem respects_ones (top : String) : (Generator.ones registry).Respects top :=
  Generator.respects_ones (by decide) (by decide) top

/-- What is generated for an owner: a pointer to a car, and a log with one entry. -/
def generatedOwner : Resource :=
  ⟨space, "Owner", none,
    [("car", .relationship ⟨space, "Car", ""⟩),
     ("log", .map [(.string "", .relationship ⟨space, "Car", ""⟩)])]⟩

theorem generate_owner :
    (Generator.ones registry).generate space "Owner" () = .ok generatedOwner := by
  have hWithin : (Generator.ones registry).generateWithin
      (Generator.nestingBound (Generator.ones registry).registry.index) space "Owner" () =
        .ok (generatedOwner, ()) := rfl
  exact Generator.generate_of_generateWithin hWithin

end Garage

namespace Generator

/-- An owner is generated and written. -/
theorem exists_encode_generatedOwner :
    Garage.registry.validate = .ok () ∧ ModelFiles.HasSimpleNames Garage.registry.files ∧
    Garage.registry.HasPlainDefaults ∧
    (ones Garage.registry).Respects (qualify Garage.space "Owner") ∧
    (ones Garage.registry).generate Garage.space "Owner" () = .ok Garage.generatedOwner ∧
    ∃ json, (Encoder.standard Garage.registry).encode Garage.generatedOwner = .ok json := by
  refine ⟨Garage.validate_registry, Garage.hasSimpleNames_registry, Garage.hasPlainDefaults_registry,
    Garage.respects_ones _, Garage.generate_owner, ?_⟩
  exact exists_encode_of_generate Garage.validate_run
    (Garage.run_model ▸ Garage.hasSimpleNames_registry)
    (Garage.run_model ▸ Garage.hasPlainDefaults_registry) Garage.run_model.symm
    (Garage.respects_ones _) Garage.generate_owner

end Generator

namespace Meters

theorem generate_meter :
    (Generator.ones registry).generate space "Meter" () = .ok meter := by
  have hWithin : (Generator.ones registry).generateWithin
      (Generator.nestingBound (Generator.ones registry).registry.index) space "Meter" () =
        .ok (meter, ()) := rfl
  exact Generator.generate_of_generateWithin hWithin

end Meters

namespace Generator

/-- A meter keeps its infinite default when it is generated, and cannot be written. -/
theorem not_encode_generatedMeter :
    let r := (Session.initial.run [.addModel ⟨Meters.model, none⟩]).registry
    r.validate = .ok () ∧ ModelFiles.HasSimpleNames r.files ∧ r.HasEnumDefaults ∧
      (ones r).Respects (qualify Meters.space "Meter") ∧
      (ones r).generate Meters.space "Meter" () = .ok Meters.meter ∧
      (Encoder.standard r).encode Meters.meter =
        .error (.invalidAt (Path.root.field "reading") .notFinite) := by
  rw [Meters.run_model]
  exact ⟨Registry.validate_of_build Meters.build_files, by decide +kernel,
    Meters.hasEnumDefaults_registry, respects_ones (by decide) (by decide) _,
    Meters.generate_meter, Meters.encode_meter⟩

end Generator

end DomainModels
