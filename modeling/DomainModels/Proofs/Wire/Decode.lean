import DomainModels.Proofs.Instance.Fits
import DomainModels.Proofs.Json.Double
import DomainModels.Proofs.Wire.Members

/-!
What is read from a JSON tree fits the types of the registry.

There is one statement for each kind of place in a tree. Each of them is about one step of the
reader, for which it supposes that what stands below the place is read to something that fits.
-/

namespace DomainModels

open ModelFiles (IsLoaded)

/-! ## Defaults -/

/-- A default that is a value is one of the type. -/
theorem ValueType.fits_default {v : ValueType} (hChecked : v.HasCheckedDefault)
    (hFinite : v.HasFiniteDefault) {value : Value} (hDefault : v.default? = some value) :
    v.Fits value := by
  refine ⟨?_, hChecked value hDefault⟩
  cases v with
  | string validator default =>
      obtain ⟨text, _, rfl⟩ := Option.map_eq_some_iff.mp hDefault
      exact .string text
  | boolean default =>
      obtain ⟨b, _, rfl⟩ := Option.map_eq_some_iff.mp hDefault
      exact .boolean b
  | integer validator default =>
      obtain ⟨i, _, rfl⟩ := Option.map_eq_some_iff.mp hDefault
      exact .integer i
  | long validator default =>
      obtain ⟨i, _, rfl⟩ := Option.map_eq_some_iff.mp hDefault
      exact .long i
  | double validator default =>
      obtain ⟨x, _, rfl⟩ := Option.map_eq_some_iff.mp hDefault
      exact .double (hFinite x hDefault)
  | dateTime default => cases hDefault

/-- The default of a primitive type is one that was checked, or an instant that was read. -/
theorem ValueType.fits_makeDefault {v : ValueType} (hChecked : v.HasCheckedDefault)
    (hFinite : v.HasFiniteDefault) {name : String} {value : Value}
    (hMade : v.makeDefault name = .ok (some value)) : v.Fits value := by
  unfold makeDefault at hMade
  split at hMade
  · rename_i text
    split at hMade
    · rename_i t hParse
      cases hMade
      exact ⟨.dateTime (DateTime.isProper_of_parse? hParse), rfl⟩
    · cases hMade
  · exact fits_default hChecked hFinite (Except.ok.inj hMade)

/-- The default of an enumeration is one of its values. -/
theorem Registry.IsStrict.fits_enumDefault {r : Registry} (hStrict : r.IsStrict) {fqn : String}
    {c : ResolvedClass} (hFound : r.index.class? fqn = some c) {p : ResolvedProperty}
    (hMem : p ∈ c.properties) (hPlain : r.HasPlainDefault p) {target name : String}
    (hType : p.type = .declared target (some name)) : r.FitsItem p.type (.enum name) := by
  have hResolves := TypeIndex.resolves_of_class? hStrict.files hStrict.index hFound
  obtain ⟨values, hValues⟩ := hPlain.declared target name hType
  obtain ⟨d, hDeclared, hBody⟩ := getType_of_body? hValues
  rcases hResolves.property_cases hStrict.files hMem with
    ⟨owner, rfl | rfl⟩ | ⟨_, file, _, _, _, _, _, hResolved⟩
  · cases hType
  · cases hType
  · rw [hType] at hResolved ⊢
    exact .enum hDeclared hBody (ModelFile.resolveType_declared hResolved hValues)

/-- The default of a property of an indexed class fits the property. -/
theorem Registry.IsStrict.fits_default {r : Registry} (hStrict : r.IsStrict) {fqn : String}
    {c : ResolvedClass} (hFound : r.index.class? fqn = some c) {p : ResolvedProperty}
    (hMem : p ∈ c.properties) (hPlain : r.HasPlainDefault p) {value : Value}
    (hDefault : p.default? = .ok (some value)) : r.FitsProperty p value := by
  have hResolves := TypeIndex.resolves_of_class? hStrict.files hStrict.index hFound
  have hChecked {v : ValueType} (hValue : p.type.value? = some v) : v.HasCheckedDefault := by
    rcases hResolves.valueType_cases hStrict.files hMem hValue with
      ⟨type, rfl⟩ | ⟨file, d, hDeclared, hWritten⟩
    · exact ValueType.hasCheckedDefault_plain type
    · exact hStrict.files.hasCheckedDefault hDeclared hWritten
  simp only [ResolvedProperty.default?, Outcome.bind_eq_ok, Outcome.pure_eq_ok] at hDefault
  obtain ⟨made, hMade, hSame⟩ := hDefault
  have hItem (item : Value) (hSome : made = some item) : r.FitsItem p.type item := by
    subst hSome
    unfold ResolvedType.makeDefault at hMade
    split at hMade
    · rename_i v hV
      have hValue : p.type.value? = some v := by rw [hV]; rfl
      exact .value hValue
        (ValueType.fits_makeDefault (hChecked hValue) (hPlain.number v hValue) hMade)
    · rename_i v hV
      have hValue : p.type.value? = some v := by rw [hV]; rfl
      exact .value hValue
        (ValueType.fits_makeDefault (hChecked hValue) (hPlain.number v hValue) hMade)
    · rename_i target default hDeclared
      obtain ⟨name, rfl, rfl⟩ := Option.map_eq_some_iff.mp (Except.ok.inj hMade)
      exact hStrict.fits_enumDefault hFound hMem hPlain hDeclared
    · cases hMade
  cases hArray : p.isArray with
  | true =>
      rw [hArray, if_pos rfl] at hSame
      obtain ⟨item, hSome, rfl⟩ := Option.map_eq_some_iff.mp hSame
      refine .array hArray fun other hOther => ?_
      rw [List.mem_singleton.mp hOther]
      exact hItem item hSome
  | false =>
      rw [hArray] at hSame
      exact .item hArray (hItem value hSame)

theorem Registry.HasPlainDefaults.fits_default {r : Registry} (hPlain : r.HasPlainDefaults)
    (hStrict : r.IsStrict) {fqn : String} {c : ResolvedClass}
    (hFound : r.index.class? fqn = some c) {p : ResolvedProperty} (hMem : p ∈ c.properties)
    {value : Value} (hDefault : p.default? = .ok (some value)) : r.FitsProperty p value :=
  hStrict.fits_default hFound hMem (hPlain.of_mem hStrict hFound hMem) hDefault

namespace Decoder

variable {r : Registry} {now : DateTime}

/-! ## Values -/

theorem holds_of_primitive? {type : PrimitiveType} {json : Json} {value : Value}
    (hJson : json.IsWellFormed)
    (hRead : (standard r now).primitive? type json = some value) : type.Holds value := by
  cases type with
  | string =>
      obtain ⟨text, _, rfl⟩ := Option.map_eq_some_iff.mp hRead
      exact .string text
  | boolean =>
      obtain ⟨b, _, rfl⟩ := Option.map_eq_some_iff.mp hRead
      exact .boolean b
  | integer =>
      obtain ⟨i, _, rfl⟩ := Option.map_eq_some_iff.mp hRead
      exact .integer i
  | long =>
      obtain ⟨i, _, rfl⟩ := Option.map_eq_some_iff.mp hRead
      exact .long i
  | double =>
      obtain ⟨n, hNumber, rfl⟩ := Option.map_eq_some_iff.mp hRead
      cases hJson with
      | int i =>
          cases hNumber
          exact .double (Number.isFinite_nearestDouble i)
      | float hFinite =>
          cases hNumber
          exact .double hFinite
      | _ => cases hNumber
  | dateTime =>
      obtain ⟨t, hText, rfl⟩ := Option.map_eq_some_iff.mp hRead
      obtain ⟨text, _, hParse⟩ := Option.bind_eq_some_iff.mp hText
      exact .dateTime (DateTime.isProper_of_parse? hParse)

theorem decodeValue_eq_ok {type : ValueType} {path : Path} {json : Json} {value : Value} :
    (standard r now).decodeValue type path json = .ok value ↔
      (standard r now).primitive? type.primitive json = some value ∧
        type.check path value = .ok () := by
  unfold decodeValue
  split
  · rename_i hNone
    simp [hNone]
  · rename_i found hFound
    have hValidate : (standard r now).options.validate = true := rfl
    simp only [hValidate, if_true, hFound, Outcome.bind_eq_ok, Outcome.exists_unit,
      Outcome.pure_eq_ok, Option.some.injEq]
    constructor
    · rintro ⟨hChecked, rfl⟩
      exact ⟨rfl, hChecked⟩
    · rintro ⟨rfl, hChecked⟩
      exact ⟨hChecked, rfl⟩

theorem fits_of_decodeValue {type : ValueType} {path : Path} {json : Json} {value : Value}
    (hJson : json.IsWellFormed)
    (hRead : (standard r now).decodeValue type path json = .ok value) : type.Fits value := by
  obtain ⟨hPrimitive, hChecked⟩ := decodeValue_eq_ok.mp hRead
  exact ⟨holds_of_primitive? hJson hPrimitive, ValueType.check_path hChecked .root⟩

theorem decodeEnum_eq_ok {fqn : String} {values : List EnumValue} {path : Path} {json : Json}
    {value : Value} :
    (standard r now).decodeEnum fqn values path json = .ok value ↔
      ∃ name, json = .string name ∧ hasEnumValue values name = true ∧ value = .enum name := by
  have hValidate : (standard r now).options.validate = true := rfl
  cases json with
  | string name =>
      simp only [decodeEnum, Json.string?, hValidate, Bool.true_and, Json.string.injEq]
      cases hHas : hasEnumValue values name <;> simp [hHas, eq_comm]
  | _ => simp [decodeEnum, Json.string?]

/-- What is read where a pointer to a class is declared, from the text of a pointer. -/
theorem decodePointer_eq_ok (hStrict : r.IsStrict) {declared : String} {c : ResolvedClass}
    (hFound : r.index.class? declared = some c) {path : Path} {text : String} {value : Value} :
    (standard r now).decodePointer declared path text = .ok value ↔
      ∃ pointer, Relationship.ofUri text c.space c.name = .ok pointer ∧
        r.index.isAssignable pointer.fqn declared = true ∧ value = .relationship pointer := by
  have hDefault : splitQualified declared = some (c.space, c.name) :=
    hStrict.splitQualified_of_class? hFound
  have hValidate : (standard r now).options.validate = true := rfl
  have hRegistry : (standard r now).registry = r := rfl
  simp only [decodePointer, hDefault, Option.getD_some, hValidate, hRegistry, Bool.true_and]
  cases hUri : Relationship.ofUri text c.space c.name with
  | error fault => simp
  | ok pointer =>
      have hSame : Value.relationship pointer = value ↔
          ∃ other, pointer = other ∧ value = .relationship other := by
        simp [eq_comm]
      cases hAssignable : r.index.isAssignable pointer.fqn declared with
      | false => simp [hAssignable]
      | true => simpa [hAssignable] using hSame

/-- A pointer that is read is proper. -/
theorem fits_of_decodePointer (hStrict : r.IsStrict) (hNames : r.HasIdentifiers)
    {declared : String} {c : ResolvedClass} (hFound : r.index.class? declared = some c)
    {path : Path} {text : String} {value : Value}
    (hRead : (standard r now).decodePointer declared path text = .ok value) :
    r.FitsItem (.relationship declared) value := by
  obtain ⟨pointer, hUri, hAssignable, rfl⟩ := (decodePointer_eq_ok hStrict hFound).mp hRead
  refine .relationship ?_ hAssignable
  exact Relationship.isProper_of_ofUri hStrict hNames hFound
    (hStrict.splitQualified_of_class? hFound) hUri hAssignable

/-! ## Properties -/

/-- What is read from a tree as an item fits. -/
def ReadsFitting (r : Registry) (now : DateTime) (json : Json) : Prop :=
  ∀ p path value, r.PointsToClass p.type →
    (standard r now).decodeItem p path json = .ok value → r.FitsItem p.type value

/-- What is read from a tree as a property fits. -/
def PropertyReadsFitting (r : Registry) (now : DateTime) (json : Json) : Prop :=
  ∀ p path value, r.PointsToClass p.type →
    (standard r now).decodeProperty p path json = .ok value → r.FitsProperty p value

theorem forall_fits_of_decodeItems {p : ResolvedProperty} (hPoints : r.PointsToClass p.type)
    {items : List Json} (hItems : ∀ item ∈ items, ReadsFitting r now item) {path : Path} {i : Nat}
    {values : List Value} (hRead : (standard r now).decodeItems p path i items = .ok values) :
    ∀ value ∈ values, r.FitsItem p.type value := by
  induction items generalizing i values with
  | nil =>
      rw [decodeItems] at hRead
      cases hRead
      simp
  | cons item rest ih =>
      rw [decodeItems] at hRead
      simp only [Outcome.bind_eq_ok, Outcome.pure_eq_ok] at hRead
      obtain ⟨value, hValue, later, hLater, rfl⟩ := hRead
      intro other hMem
      rcases List.mem_cons.mp hMem with rfl | hMem
      · exact hItems item List.mem_cons_self p _ _ hPoints hValue
      · exact ih (fun j hJ => hItems j (List.mem_cons_of_mem _ hJ)) hLater other hMem

/-- A property is read as one item or as an array of items. -/
theorem propertyReadsFitting {json : Json} (hJson : ReadsFitting r now json)
    (hItems : ∀ items, json = .array items → ∀ item ∈ items, ReadsFitting r now item) :
    PropertyReadsFitting r now json := by
  intro p path value hPoints hRead
  unfold decodeProperty at hRead
  split at hRead
  · rename_i hArray
    split at hRead
    · rename_i items
      obtain ⟨values, hValues, rfl⟩ := Outcome.map_eq_ok.mp hRead
      exact .array hArray (forall_fits_of_decodeItems hPoints (hItems items rfl) hValues)
    · cases hRead
  · rename_i hSingle
    exact .item (by simpa using hSingle) (hJson p path value hPoints hRead)

/-! ## Instances -/

variable {fqn : String} {c : ResolvedClass} {path : Path} {members : List (String × Json)}
  {start x : Resource}

/-- Each value of a new instance is held for a property that is not shadowed. -/
theorem property_of_isNew (hStrict : r.IsStrict) (hFound : r.index.class? fqn = some c)
    {id : String} (hNew : Registry.IsNew c now id start) {name : String}
    (hHas : start.contains name = true) :
    ∃ p ∈ c.properties, p.name = name ∧ isShadowed c p = false := by
  have hResolves := TypeIndex.resolves_of_class? hStrict.files hStrict.index hFound
  obtain ⟨value, hGet⟩ := Resource.contains_eq_true.mp hHas
  rcases hNew.values name value hGet with hField | ⟨hTimed, rfl, _⟩ | ⟨p, hMem, hName, hDefault⟩
  · obtain ⟨p, hMem, hName, _⟩ := hResolves.exists_identifying hStrict.files hField
    rw [← hName] at hField
    exact ⟨p, hMem, hName, isShadowed_of_identifier hField⟩
  · obtain ⟨p, hMem, hName⟩ := (hResolves.timestamp_iff hStrict.files).mpr hTimed
    refine ⟨p, hMem, hName, isShadowed_of_name ?_⟩
    rw [hName]
    decide
  · refine ⟨p, hMem, hName, isShadowed_of_name fun hSystem => ?_⟩
    -- The identifier of the system has no default.
    have hReserved : isSystemName p.name = true := by
      rw [hSystem]
      decide
    obtain ⟨owner, rfl | rfl⟩ := hResolves.isSupplied_of_isSystemName hStrict.files hMem hReserved
    · cases hDefault
    · cases hDefault

/-- A value that was not read is as the class gives it, and fits. -/
theorem fits_of_isNew (hStrict : r.IsStrict) (hPlain : r.HasPlainDefaults) (hNow : now.IsProper)
    (hFound : r.index.class? fqn = some c) {id : String} (hNew : Registry.IsNew c now id start)
    {p : ResolvedProperty} (hMem : p ∈ c.properties) {value : Value}
    (hGet : start.get? p.name = some value) (hOther : c.identifier ≠ some p.name) :
    r.FitsProperty p value := by
  have hResolves := TypeIndex.resolves_of_class? hStrict.files hStrict.index hFound
  rcases hNew.values p.name value hGet with hField | ⟨_, hName, rfl⟩ | ⟨q, hQ, hName, hDefault⟩
  · exact absurd hField hOther
  · have hReserved : isSystemName p.name = true := by
      rw [hName]
      decide
    obtain ⟨owner, rfl | rfl⟩ := hResolves.isSupplied_of_isSystemName hStrict.files hMem hReserved
    · exact absurd hName (by decide : identifierField ≠ timestampField)
    · exact .item rfl (.value rfl ⟨.dateTime hNow, rfl⟩)
  · obtain rfl := hStrict.property_ext hFound hQ hMem hName
    exact hPlain.fits_default hStrict hFound hMem hDefault

/-- What is read from an object fits its class. -/
theorem fits_of_decodeResource (hStrict : r.IsStrict) (hPortable : r.IsPortable)
    (hNow : now.IsProper)
    (hMembers : ∀ member ∈ members, PropertyReadsFitting r now member.2)
    (hDecode : (standard r now).decodeResource fqn path members = .ok x) :
    r.FitsResource x ∧ x.fqn = fqn := by
  obtain ⟨c, start, hFound, hConcrete, _, hMade, hRest, hComplete⟩ :=
    decodeResource_eq_ok.mp hDecode
  obtain ⟨_, hName, _, _⟩ := hStrict.names_of_class? hPortable.identifiers hFound
  have hNew := isNew_of_newInstance (by rw [hName]; exact hFound) hConcrete hMade
  have hRead := isRead_of_decodeMembers hRest
  obtain ⟨hRequired, hIdentified⟩ := checkComplete_eq_ok.mp hComplete
  have hSpace : x.space = c.space := hRead.space.trans hNew.space
  have hType : x.typeName = c.name := hRead.typeName.trans hNew.typeName
  have hField : x.identifierField = c.identifier := hRead.identifierField.trans hNew.identifierField
  have hFqn : x.fqn = fqn := by rw [Resource.fqn, hSpace, hType, hName]
  refine ⟨.mk (by rw [hFqn]; exact hFound) ⟨hConcrete, hSpace, hType, hField,
    hRead.sorted hNew.sorted, ?_, hRequired, ?_, ?_, hIdentified⟩ ?_, hFqn⟩
  · intro name hHas
    rcases hRead.values name with ⟨hSame, _⟩ | ⟨p, hMem, hP, hOpen, _⟩
    · refine property_of_isNew hStrict hFound hNew ?_
      rw [Resource.contains_eq_true] at hHas ⊢
      rwa [← hSame]
    · exact ⟨p, hMem, hP, hOpen⟩
  · intro p hMem
    obtain ⟨default, hDefault, hHas⟩ := hNew.defaults p hMem
    exact ⟨default, hDefault, fun hSome => hRead.contains (hHas hSome)⟩
  · exact fun hTimed => hRead.contains (hNew.timestamp hTimed)
  · intro p hMem value hGet
    rcases hRead.values p.name with ⟨hSame, hNone⟩ |
      ⟨q, hQ, hP, _, json, other, hLookup, _, hValue, hOther⟩
    · rw [hSame] at hGet
      refine fits_of_isNew hStrict hPortable.toHasPlainDefaults hNow hFound hNew hMem hGet
        fun hIdentifier => ?_
      -- Where the member for the identifier is missing, the identifier is empty.
      have hAbsent := hNone p hMem rfl (isShadowed_of_identifier hIdentifier)
      have hEmpty : identifierOf c members = "" := by
        rcases hAbsent with hAbsent | hAbsent
        · simp [identifierOf, hIdentifier, hAbsent]
        · simp [identifierOf, hIdentifier, hAbsent, Json.string?]
      obtain ⟨id, hId, hSome⟩ := hIdentified (by simp [ResolvedClass.isIdentified, hIdentifier])
      have hHeld := hNew.identifier p.name hIdentifier
      rw [← hSame, hEmpty] at hHeld
      rw [Resource.identifier?, hField, hIdentifier, Option.bind_some, hHeld] at hId
      cases hId
      exact hSome rfl
    · rw [hGet] at hOther
      cases hOther
      obtain rfl := hStrict.property_ext hFound hQ hMem hP
      exact hMembers _ (Json.mem_of_lookup hLookup) q _ value
        (hStrict.pointsToClass_of_mem hFound hMem) hValue

/-! ## Maps -/

/-- A text that is read as a text stays as it is. -/
theorem primitive?_string {type : PrimitiveType} {name text : String}
    (hRead : (standard r now).primitive? type (.string name) = some (.string text)) :
    text = name := by
  cases type <;> simp [primitive?, Json.string?, Json.bool?, Json.number?] at hRead
  exact hRead.symm

/-- Entries are read from the members whose names do not belong to the system. -/
theorem fits_of_decodeEntries {keyType : ValueType} {p : ResolvedProperty}
    (hPoints : r.PointsToClass p.type) (hMembers : ∀ member ∈ members, ReadsFitting r now member.2)
    {entries : List (Value × Value)}
    (hRead : (standard r now).decodeEntries keyType p path members = .ok entries) :
    (∀ entry ∈ entries, keyType.FitsKey entry.1 ∧ r.FitsItem p.type entry.2) ∧
      (entries.filterMap (·.1.string?)).Sublist (members.map (·.1)) := by
  induction members generalizing entries with
  | nil =>
      rw [decodeEntries] at hRead
      cases hRead
      simp
  | cons member rest ih =>
      obtain ⟨name, json⟩ := member
      have hRest := fun member hMem => hMembers member (List.mem_cons_of_mem _ hMem)
      rw [decodeEntries] at hRead
      split at hRead
      · obtain ⟨hFits, hNames⟩ := ih hRest hRead
        exact ⟨hFits, hNames.cons name⟩
      · rename_i hName
        simp only [Outcome.bind_eq_ok, Outcome.pure_eq_ok] at hRead
        obtain ⟨key, hKey, item, hItem, later, hLater, rfl⟩ := hRead
        obtain ⟨hFits, hNames⟩ := ih hRest hLater
        have hText (text : String) (hSame : key = .string text) : text = name :=
          primitive?_string (hSame ▸ (decodeValue_eq_ok.mp hKey).1)
        refine ⟨?_, ?_⟩
        · intro entry hMem
          rcases List.mem_cons.mp hMem with rfl | hMem
          · refine ⟨⟨fits_of_decodeValue (.string name) hKey, ?_⟩,
              hMembers (name, json) List.mem_cons_self p _ item hPoints hItem⟩
            intro text hSame
            rw [hText text hSame]
            simpa using hName
          · exact hFits entry hMem
        · cases hString : key.string? with
          | none =>
              rw [List.filterMap_cons_none (by exact hString)]
              exact hNames.cons name
          | some text =>
              have hSame : key = .string text := by
                cases key <;> cases hString
                rfl
              rw [List.filterMap_cons_some (by exact hString), hText text hSame]
              exact hNames.cons_cons name

theorem fits_of_decodeMap (hStrict : r.IsStrict) {target : String} {default : Option String}
    {declaration : Declaration} {key value : PropertyType}
    (hType : r.getType target = .ok declaration) (hBody : declaration.body = .mapBody key value)
    (hNames : (members.map (·.1)).Nodup)
    (hMembers : ∀ member ∈ members, ReadsFitting r now member.2)
    {read : Value} (hRead : (standard r now).decodeMap target path members = .ok read) :
    r.FitsItem (.declared target default) read := by
  unfold decodeMap at hRead
  have hRegistry : (standard r now).registry = r := rfl
  simp only [hRegistry, Outcome.bind_eq_ok, Registry.resolvedMap_eq_ok] at hRead
  obtain ⟨m, hMap, hRead⟩ := hRead
  split at hRead
  · simp at hRead
  · rename_i keyType hKey
    obtain ⟨entries, hEntries, rfl⟩ := Outcome.map_eq_ok.mp hRead
    obtain ⟨hFits, hSublist⟩ :=
      fits_of_decodeEntries (hStrict.pointsToClass_of_map? hMap) hMembers hEntries
    exact .map hType hBody hMap hKey (fun entry hMem => (hFits entry hMem).1)
      (hSublist.nodup hNames) fun entry hMem => (hFits entry hMem).2

/-! ## Trees -/

/-- What is read from an object where one of a class is expected fits, if this is so for what is
read from its members. -/
theorem fits_of_decodeNested (hStrict : r.IsStrict) (hPortable : r.IsPortable)
    (hNow : now.IsProper) {declared : String}
    (hMembers : ∀ member ∈ members, PropertyReadsFitting r now member.2)
    (hRead : (standard r now).decodeNested declared path members = .ok x) :
    r.FitsResource x ∧ r.index.isAssignable x.fqn declared = true := by
  unfold decodeNested at hRead
  simp only at hRead
  split at hRead
  · rename_i hAssignable
    obtain ⟨hFits, hFqn⟩ := fits_of_decodeResource hStrict hPortable hNow hMembers hRead
    exact ⟨hFits, hFqn ▸ hAssignable⟩
  · cases hRead

/-- What is read from a tree fits, if this is so for what is read from its members. -/
theorem readsFitting_of_members (hStrict : r.IsStrict) (hPortable : r.IsPortable)
    (hNow : now.IsProper) {json : Json} (hJson : json.IsWellFormed)
    (hMembers : ∀ members, json = .object members → ∀ member ∈ members,
      ReadsFitting r now member.2 ∧ PropertyReadsFitting r now member.2) :
    ReadsFitting r now json := by
  intro p path value hPoints hRead
  unfold decodeItem at hRead
  split at hRead
  · rename_i v hV
    exact .value (by rw [hV]; rfl) (fits_of_decodeValue hJson hRead)
  · rename_i v hV
    exact .value (by rw [hV]; rfl) (fits_of_decodeValue hJson hRead)
  · rename_i target hTarget
    rw [hTarget] at hPoints ⊢
    obtain ⟨c, hFound⟩ := hPoints target rfl
    split at hRead
    · exact fits_of_decodePointer hStrict hPortable.identifiers hFound hRead
    · cases hRead
    · cases hRead
  · rename_i target default hTarget
    rw [hTarget]
    simp only [Outcome.bind_eq_ok] at hRead
    obtain ⟨declaration, hType, hRead⟩ := hRead
    split at hRead
    · rename_i body members hBody
      obtain ⟨y, hNested, rfl⟩ := Outcome.map_eq_ok.mp hRead
      obtain ⟨hFits, hAssignable⟩ := fits_of_decodeNested hStrict hPortable hNow
        (fun member hMem => (hMembers members rfl member hMem).2) hNested
      exact .concept hType hBody hAssignable hFits
    · rename_i values hBody
      obtain ⟨name, _, hHas, rfl⟩ := decodeEnum_eq_ok.mp hRead
      exact .enum hType hBody hHas
    · rename_i key written members hBody
      cases hJson with
      | object hNames _ =>
          exact fits_of_decodeMap hStrict hType hBody hNames
            (fun member hMem => (hMembers members rfl member hMem).1) hRead
    · simp at hRead
    · simp at hRead

/-- Whatever tree is read as an item or as a property, the result fits. -/
theorem readsFitting (hStrict : r.IsStrict) (hPortable : r.IsPortable) (hNow : now.IsProper)
    (json : Json) (hJson : json.IsWellFormed) :
    ReadsFitting r now json ∧ PropertyReadsFitting r now json := by
  induction json using Json.inductionOn_parts with
  | hParts json hItems hMembers =>
      have hItem : ReadsFitting r now json := by
        refine readsFitting_of_members hStrict hPortable hNow hJson ?_
        intro members hObject member hMem
        refine hMembers members hObject member hMem ?_
        subst hObject
        exact (Json.isWellFormed_object.mp hJson).2 member hMem
      refine ⟨hItem, propertyReadsFitting hItem fun items hArray item hMem => ?_⟩
      refine (hItems items hArray item hMem ?_).1
      subst hArray
      exact Json.isWellFormed_array.mp hJson item hMem

/-- What is read from a whole tree fits its class. -/
theorem fits_of_decode (hStrict : r.IsStrict) (hPortable : r.IsPortable) (hNow : now.IsProper)
    {json : Json} (hJson : json.IsWellFormed) (hRead : (standard r now).decode json = .ok x) :
    r.FitsResource x := by
  unfold decode at hRead
  split at hRead
  · rename_i members
    split at hRead
    · refine (fits_of_decodeResource hStrict hPortable hNow ?_ hRead).1
      intro member hMem
      have hMember := (Json.isWellFormed_object.mp hJson).2 member hMem
      exact (readsFitting hStrict hPortable hNow member.2 hMember).2
    · cases hRead
  · cases hRead

end Decoder

end DomainModels
