import DomainModels.Proofs.Wire.ReadBack
import DomainModels.Proofs.Wire.Writing

/-!
What the writer accepts.

With the default options an instance is written when it passes the checks and its values are
written. Nothing is said here about reading it back: empty identifiers and instants of any year are
written as well.
-/

namespace DomainModels.Encoder

variable {r : Registry} {p : ResolvedProperty} {value : Value} {target : String}
  {default : Option String} {d : Declaration}

/-- Wherever a type is declared, the value is written as an item of it. -/
def AcceptsItem (r : Registry) (type : ResolvedType) (value : Value) : Prop :=
  ∀ p path, p.type = type → ∃ json, Writes ((standard r).encodeItem p path value) json

/-- The value is written for the property. -/
def AcceptsProperty (r : Registry) (p : ResolvedProperty) (value : Value) : Prop :=
  ∀ path, ∃ json, Writes ((standard r).encodeProperty p path value) json

/-! ## Properties -/

theorem acceptsProperty_item (hSingle : p.isArray = false) (hItem : AcceptsItem r p.type value) :
    AcceptsProperty r p value := by
  intro path
  obtain ⟨json, hJson⟩ := hItem p path rfl
  refine ⟨json, ?_⟩
  rw [encodeProperty.eq_def, hSingle]
  exact hJson

theorem exists_writes_items {items : List Value} (hItems : ∀ item ∈ items, AcceptsItem r p.type item)
    (path : Path) (i : Nat) : ∃ trees, Writes ((standard r).encodeItems p path i items) trees := by
  induction items generalizing i with
  | nil =>
      refine ⟨[], ?_⟩
      rw [encodeItems]
      exact .pure []
  | cons item rest ih =>
      obtain ⟨hFirst, hRest⟩ := List.forall_mem_cons.mp hItems
      obtain ⟨json, hJson⟩ := hFirst p (path.index i) rfl
      obtain ⟨trees, hTrees⟩ := ih hRest (i + 1)
      refine ⟨json :: trees, ?_⟩
      rw [encodeItems]
      exact hJson.bind (hTrees.bind (.pure _))

theorem acceptsProperty_array (hArray : p.isArray = true) {items : List Value}
    (hItems : ∀ item ∈ items, AcceptsItem r p.type item) : AcceptsProperty r p (.array items) := by
  intro path
  obtain ⟨trees, hTrees⟩ := exists_writes_items hItems path 0
  refine ⟨.array trees, ?_⟩
  rw [encodeProperty.eq_def, hArray]
  exact hTrees.bind (.pure _)

/-! ## Items -/

/-- A primitive value is written wherever it passes the check of its type. -/
theorem acceptsItem_value {type : ResolvedType} {v : ValueType} (hType : type.value? = some v)
    (hChecked : v.check .root value = .ok ()) {json : Json}
    (hJson : (standard r).WritesValue value json) : AcceptsItem r type value := by
  intro p path hSame
  have hWrites := Writes.lift (encodeValue_eq_ok (e := standard r).mpr
    ⟨fun _ => ValueType.check_path hChecked path, hJson⟩)
  refine ⟨json, ?_⟩
  rw [encodeItem_of_valueType (hSame ▸ hType)]
  exact hWrites

/-- A pointer is written where it points to what can stand for the declared class. -/
theorem acceptsItem_pointer {pointer : Relationship}
    (hAssignable : r.index.isAssignable pointer.fqn target = true) :
    AcceptsItem r (.relationship target) (.relationship pointer) := by
  intro p path hType
  refine ⟨.string ((standard r).pointerText pointer), ?_⟩
  rw [encodeItem.eq_def, hType]
  exact Writes.lift (encodePointer_eq_ok.mpr ⟨fun _ => hAssignable, rfl⟩)

theorem acceptsItem_enum {values : List EnumValue} {name : String}
    (hDeclared : r.getType target = .ok d) (hBody : d.body = .enumBody values)
    (hHas : hasEnumValue values name = true) :
    AcceptsItem r (.declared target default) (.enum name) := by
  intro p path hType
  refine ⟨.string name, ?_⟩
  rw [encodeItem_of_enumBody hType hDeclared hBody]
  exact Writes.lift (encodeEnum_of_hasEnumValue hHas)

/-! ## Maps -/

theorem exists_writes_entries {keyType : ValueType} {entries : List (Value × Value)}
    (hKeys : ∀ entry ∈ entries, ∃ text,
      (standard r).encodeValue keyType .root entry.1 = .ok (.string text))
    (hItems : ∀ entry ∈ entries, AcceptsItem r p.type entry.2) (path : Path)
    (front : List (String × Json)) :
    ∃ members, Writes ((standard r).encodeEntries keyType p path front entries) members := by
  induction entries generalizing front with
  | nil =>
      refine ⟨front, ?_⟩
      rw [encodeEntries]
      exact .pure front
  | cons entry rest ih =>
      obtain ⟨key, item⟩ := entry
      obtain ⟨⟨text, hText⟩, hKeys⟩ := List.forall_mem_cons.mp hKeys
      obtain ⟨hFirst, hItems⟩ := List.forall_mem_cons.mp hItems
      obtain ⟨json, hJson⟩ := hFirst p (path.field text) rfl
      obtain ⟨members, hMembers⟩ := ih hKeys hItems (Json.insertMember text json front)
      refine ⟨members, ?_⟩
      rw [encodeEntries]
      exact (Writes.lift (encodeValue_path hText path)).bind (hJson.bind hMembers)

/-- A map is written when its keys are written as texts, and its values as items. -/
theorem acceptsItem_map {key mapped : PropertyType} {m : ResolvedMap} {keyType : ValueType}
    {entries : List (Value × Value)} (hDeclared : r.getType target = .ok d)
    (hBody : d.body = .mapBody key mapped) (hMap : r.index.map? target = some m)
    (hKeyType : m.key.type.value? = some keyType)
    (hKeys : ∀ entry ∈ entries, ∃ text,
      (standard r).encodeValue keyType .root entry.1 = .ok (.string text))
    (hItems : ∀ entry ∈ entries, AcceptsItem r m.value.type entry.2) :
    AcceptsItem r (.declared target default) (.map entries) := by
  intro p path hType
  obtain ⟨members, hMembers⟩ := exists_writes_entries hKeys hItems path []
  refine ⟨.object members, ?_⟩
  rw [encodeItem_of_mapBody hType hDeclared hBody]
  exact .map hMap hKeyType hMembers

/-! ## Instances -/

variable {c : ResolvedClass} {x : Resource}

/-- An instance of an indexed class that passes the checks and whose values are written. -/
structure AcceptsInstance (r : Registry) (c : ResolvedClass) (x : Resource) : Prop where
  indexed : r.index.class? x.fqn = some c
  concrete : c.isAbstract = false
  names : ∀ field ∈ x.values, ∃ p ∈ c.properties, p.name = field.1
  complete : ∀ p ∈ c.properties, Decoder.isShadowed c p = false →
    p.isOptional = true ∨ x.contains p.name = true
  values : ∀ p ∈ c.properties, ∀ value, x.get? p.name = some value → AcceptsProperty r p value

theorem exists_writes_members {properties : List ResolvedProperty}
    (hComplete : ∀ p ∈ properties, Decoder.isShadowed c p = false →
      p.isOptional = true ∨ x.contains p.name = true)
    (hValues : ∀ p ∈ properties, ∀ value, x.get? p.name = some value → AcceptsProperty r p value)
    (path : Path) :
    ∃ members, Writes ((standard r).encodeMembers c path x properties) members := by
  induction properties with
  | nil =>
      refine ⟨[], ?_⟩
      rw [encodeMembers]
      exact .pure []
  | cons p rest ih =>
      obtain ⟨hFirst, hComplete⟩ := List.forall_mem_cons.mp hComplete
      obtain ⟨hValue, hValues⟩ := List.forall_mem_cons.mp hValues
      obtain ⟨members, hMembers⟩ := ih hComplete hValues
      cases hShadowed : Decoder.isShadowed c p with
      | true => exact ⟨_, hMembers.members_shadowed hShadowed⟩
      | false =>
          cases hGet : x.get? p.name with
          | none =>
              refine ⟨members, hMembers.members_absent hShadowed hGet fun _ => ?_⟩
              refine (hFirst hShadowed).resolve_right fun hHas => ?_
              obtain ⟨value, hSome⟩ := Resource.contains_eq_true.mp hHas
              rw [hGet] at hSome
              cases hSome
          | some value =>
              obtain ⟨json, hJson⟩ := hValue value hGet (path.field p.name)
              exact ⟨_, hMembers.members_held hShadowed hGet hJson⟩

theorem AcceptsInstance.exists_writes_resource (hAccepts : AcceptsInstance r c x)
    {declared : Option String}
    (hDeclared : ∀ target, declared = some target → r.index.isAssignable c.fqn target = true)
    (path : Path) : ∃ json, Writes ((standard r).encodeResource declared path x) json := by
  obtain ⟨members, hMembers⟩ := exists_writes_members hAccepts.complete hAccepts.values path
  exact ⟨_, hMembers.resource (e := standard r) hAccepts.indexed fun _ =>
    checkInstance_of_names hAccepts.concrete hDeclared hAccepts.names path⟩

/-- An instance is written where it can stand for the declared class. -/
theorem acceptsItem_concept {body : ClassBody} (hDeclared : r.getType target = .ok d)
    (hBody : d.body = .classBody body) (hAccepts : AcceptsInstance r c x)
    (hAssignable : r.index.isAssignable c.fqn target = true) :
    AcceptsItem r (.declared target default) (.concept x) := by
  intro p path hType
  obtain ⟨json, hJson⟩ := hAccepts.exists_writes_resource
    (fun other hOther => Option.some.inj hOther ▸ hAssignable) path
  refine ⟨json, ?_⟩
  rw [encodeItem_of_classBody hType hDeclared hBody]
  exact .get_bind fun _ => hJson

/-! ## Values that fit -/

theorem exists_writesValue {v : ValueType} (hFits : v.Fits value) :
    ∃ json, (standard r).WritesValue value json :=
  ⟨_, (encodeValue_eq_ok.mp (encodeValue_of_fits (r := r) hFits .root)).2⟩

/-- Keys that fit are written as texts. -/
theorem exists_writes_key (hStrict : r.IsStrict) {m : ResolvedMap}
    (hMap : r.index.map? target = some m) {keyType : ValueType}
    (hKeyType : m.key.type.value? = some keyType) {key : Value} (hFits : keyType.FitsKey key) :
    ∃ text, (standard r).encodeValue keyType .root key = .ok (.string text) := by
  have hKey : ModelFile.isKeyType (some keyType) = true := by
    rw [← hKeyType]
    exact (TypeIndex.map?_eq_some hStrict.files hStrict.index hMap).1
  have hWritten := encodeValue_of_fits (r := r) hFits.toFits .root
  rcases key_cases hKey hFits with ⟨_, text, rfl⟩ | ⟨_, t, rfl, _⟩
  · exact ⟨text, hWritten⟩
  · exact ⟨t.render 0, hWritten⟩

mutual

/-- What fits is written, whether or not it would survive being read back. -/
theorem acceptsItem_of_fits (hStrict : r.IsStrict) {type : ResolvedType} {value : Value} :
    r.FitsItem type value → AcceptsItem r type value
  | .value hType hFits =>
      have ⟨_, hJson⟩ := exists_writesValue hFits
      acceptsItem_value hType hFits.checked hJson
  | .enum hDeclared hBody hHas => acceptsItem_enum hDeclared hBody hHas
  | .concept hDeclared hBody hAssignable hFits =>
      have ⟨_, hAccepts⟩ := exists_acceptsInstance_of_fits hStrict hFits
      acceptsItem_concept hDeclared hBody hAccepts
        ((TypeIndex.mem_of_class? hAccepts.indexed).2 ▸ hAssignable)
  | .map hDeclared hBody hMap hKeyType hKeys _ hFits =>
      acceptsItem_map hDeclared hBody hMap hKeyType
        (fun entry hMem => exists_writes_key hStrict hMap hKeyType (hKeys entry hMem))
        fun entry hMem => acceptsItem_of_fits hStrict (hFits entry hMem)
  | .relationship _ hAssignable => acceptsItem_pointer hAssignable

theorem acceptsProperty_of_fits (hStrict : r.IsStrict) {p : ResolvedProperty} {value : Value} :
    r.FitsProperty p value → AcceptsProperty r p value
  | .item hSingle hFits => acceptsProperty_item hSingle (acceptsItem_of_fits hStrict hFits)
  | .array hArray hFits =>
      acceptsProperty_array hArray fun item hMem => acceptsItem_of_fits hStrict (hFits item hMem)

theorem exists_acceptsInstance_of_fits (hStrict : r.IsStrict) {x : Resource} :
    r.FitsResource x → ∃ c, AcceptsInstance r c x
  | .mk hClass hInstance hFits => by
      refine ⟨_, hClass, hInstance.concrete, hInstance.exists_property, ?_, fun p hMem value hGet =>
        acceptsProperty_of_fits hStrict (hFits p hMem value hGet)⟩
      intro p hMem hOpen
      rcases hInstance.complete p hMem with hOptional | hHas | hShadowed
      · exact .inl hOptional
      · exact .inr hHas
      · rw [hOpen] at hShadowed
        cases hShadowed

end

/-- An instance that stands alone is written as a tree. -/
theorem AcceptsInstance.exists_encode (hAccepts : AcceptsInstance r c x) :
    ∃ json, (standard r).encode x = .ok json := by
  have hNothing : ∀ target, none = some target → r.index.isAssignable c.fqn target = true := nofun
  obtain ⟨json, hJson⟩ := hAccepts.exists_writes_resource hNothing .root
  exact ⟨json, hJson.encode⟩

end DomainModels.Encoder
