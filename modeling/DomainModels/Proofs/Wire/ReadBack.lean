import DomainModels.Proofs.Wire.Encode

/-!
What was written for an instance that fits is read as the same instance, with its instants in UTC.

The reader meets the members in the order of the properties of the class, as the writer did. What it
finds for a property is what was written for the value, and it finds nothing where the instance
holds nothing. Then nothing of the new instance, into which the members are read, is left.
-/

namespace DomainModels

open ModelFiles (IsLoaded Resolves)

namespace Encoder

variable {r : Registry} {x : Resource} {c : ResolvedClass} {members : List (String × Json)}
  {now : DateTime} {path : Path}

/-! ## Instances -/

/-- The object of an instance: its class, and then what was written for its values. -/
def instanceMembers (c : ResolvedClass) (members : List (String × Json)) : List (String × Json) :=
  (classKey, .string c.fqn) :: members

theorem lookup_classKey :
    (instanceMembers c members).lookup classKey = some (.string c.fqn) := by
  rw [instanceMembers, Json.lookup_cons, if_pos rfl]

/-- No property is called like the member for the class. -/
theorem lookup_instanceMembers {fqn : String} (hFiles : IsLoaded r.files)
    (hResolves : Resolves r.files fqn c) {p : ResolvedProperty} (hMem : p ∈ c.properties) :
    (instanceMembers c members).lookup p.name = members.lookup p.name := by
  rw [instanceMembers, Json.lookup_cons, if_neg]
  intro hName
  have hSystem : isSystemName p.name = true := by
    rw [hName]
    decide
  obtain ⟨owner, rfl | rfl⟩ := hResolves.isSupplied_of_isSystemName hFiles hMem hSystem
  · exact absurd hName (by decide : identifierField ≠ classKey)
  · exact absurd hName (by decide : timestampField ≠ classKey)

/-- Members that are named like properties of a class are allowed for it. -/
theorem checkMembers_instanceMembers {fqn : String} (hFiles : IsLoaded r.files)
    (hResolves : Resolves r.files fqn c)
    (hNames : ∀ name ∈ members.map (·.1), ∃ p ∈ c.properties, p.name = name) (path : Path) :
    Decoder.checkMembers c path (instanceMembers c members) = .ok () := by
  rw [Decoder.checkMembers_eq_ok]
  intro member hMember
  rcases List.mem_cons.mp hMember with rfl | hMember
  · have hSystem : isSystemName classKey = true := by decide
    exact ⟨by simp [Decoder.isReservedMember], by simp [Decoder.isUndeclaredMember, hSystem]⟩
  · obtain ⟨p, hMem, hName⟩ := hNames member.1 (List.mem_map_of_mem hMember)
    have hDeclared : (c.property? member.1).isNone = false := by
      rw [ResolvedClass.property?, ← hName,
        Named.find?_of_mem (hResolves.nodup_properties hFiles) hMem]
      rfl
    refine ⟨?_, by simp [Decoder.isUndeclaredMember, hDeclared]⟩
    cases hSystem : isSystemName member.1 with
    | false => simp [Decoder.isReservedMember, hSystem]
    | true =>
        rw [← hName] at hSystem
        have hTimed := (hResolves.timestamp_iff hFiles).mp
        obtain ⟨owner, hSupplied⟩ := hResolves.isSupplied_of_isSystemName hFiles hMem hSystem
        rcases hSupplied with hSupplied | hSupplied
        · have hIdentifier : member.1 = identifierField := by rw [← hName, hSupplied]; rfl
          simp [Decoder.isReservedMember, hIdentifier]
        · have hTimestamp : p.name = timestampField := by rw [hSupplied]; rfl
          have hClass : c.isTimestamped = true := hTimed ⟨p, hMem, hTimestamp⟩
          simp [Decoder.isReservedMember, ← hName, hTimestamp, hClass]

/-- A new instance holds nothing that an instance of its class lacks. -/
theorem get?_of_isNew {id : String} {start : Resource} (hInstance : x.IsInstanceOf c)
    (hNew : Registry.IsNew c now id start) {name : String} (hNone : x.get? name = none) :
    start.get? name = none := by
  have hAbsent : x.contains name ≠ true := by
    rw [Ne, Resource.contains_eq_true]
    rintro ⟨value, hSome⟩
    rw [hNone] at hSome
    cases hSome
  cases hGet : start.get? name with
  | none => rfl
  | some value =>
      rcases hNew.values name value hGet with hField | ⟨hTimed, rfl, _⟩ | ⟨p, hMem, hName, hDefault⟩
      · have hIdentified : c.isIdentified = true := by
          rw [ResolvedClass.isIdentified, hField]
          rfl
        obtain ⟨id, hId, _⟩ := hInstance.identifier hIdentified
        rw [Resource.identifier?, hInstance.identifierField, hField, Option.bind_some, hNone] at hId
        cases hId
      · exact absurd (hInstance.timestamp hTimed) hAbsent
      · obtain ⟨default, hSame, hHas⟩ := hInstance.defaults p hMem
        rw [hDefault] at hSame
        cases hSame
        rw [hName] at hHas
        exact absurd (hHas rfl) hAbsent

/-- What is read from the members of an instance are its values. -/
theorem get?_of_isRead {fqn id : String} {start y : Resource} (hFiles : IsLoaded r.files)
    (hResolves : Resolves r.files fqn c) (hInstance : x.IsInstanceOf c)
    (hWritten : AreWritten r c x c.properties members) (hNew : Registry.IsNew c now id start)
    (hRead : Decoder.IsRead r now c path (instanceMembers c members) c.properties start y)
    (name : String) : y.get? name = (x.get? name).map Value.inUtc := by
  rcases hRead.values name with ⟨hSame, hNothing⟩ |
    ⟨p, hMem, rfl, hOpen, json, value, hLookup, _, hValue, hGet⟩
  · cases hGet : x.get? name with
    | none => rw [hSame, get?_of_isNew hInstance hNew hGet, Option.map_none]
    | some value =>
        obtain ⟨p, hMem, rfl, hOpen⟩ :=
          hInstance.names name (Resource.contains_eq_true.mpr ⟨value, hGet⟩)
        obtain ⟨json, hJson, hSome, _⟩ := hWritten.present p hMem hOpen value hGet
        have hLookup := hNothing p hMem rfl hOpen
        rw [lookup_instanceMembers hFiles hResolves hMem, hJson] at hLookup
        rcases hLookup with hLookup | hLookup
        · cases hLookup
        · exact absurd (Option.some.inj hLookup) hSome
  · rw [lookup_instanceMembers hFiles hResolves hMem] at hLookup
    obtain ⟨held, hHeld, hReads⟩ := hWritten.of_lookup hMem hOpen hLookup
    rw [hReads now (path.field p.name)] at hValue
    cases hValue
    rw [hGet, hHeld, Option.map_some]

/-- Nothing is missing in the instance once its instants are in UTC. -/
theorem checkComplete_inUtc (hInstance : x.IsInstanceOf c) (path : Path) :
    Decoder.checkComplete c path x.inUtc = .ok () := by
  rw [Decoder.checkComplete_eq_ok, Resource.identifier?_inUtc]
  refine ⟨fun p hMem => ?_, hInstance.identifier⟩
  rw [Resource.contains_inUtc]
  exact hInstance.complete p hMem

/-- The object of an instance is read as the instance. -/
theorem decodeResource_instanceMembers (hStrict : r.IsStrict) (hNames : r.HasIdentifiers)
    (hFound : r.index.class? x.fqn = some c) (hInstance : x.IsInstanceOf c)
    (hWritten : AreWritten r c x c.properties members) (now : DateTime) (path : Path) :
    (Decoder.standard r now).decodeResource x.fqn path (instanceMembers c members) =
      .ok x.inUtc := by
  have hFiles := hStrict.files
  have hResolves := TypeIndex.resolves_of_class? hFiles hStrict.index hFound
  obtain ⟨_, hName, _, _⟩ := hStrict.names_of_class? hNames hFound
  have hClass : r.index.class? (qualify c.space c.name) = some c := by rw [hName]; exact hFound
  obtain ⟨start, hMade⟩ : ∃ start,
      (Decoder.standard r now).newInstance c (instanceMembers c members) = .ok start :=
    Decoder.exists_newInstance hClass hInstance.concrete fun p hMem =>
      (hInstance.defaults p hMem).imp fun _ => And.left
  have hNew := Decoder.isNew_of_newInstance hClass hInstance.concrete hMade
  obtain ⟨y, hMembers⟩ : ∃ y, (Decoder.standard r now).decodeMembers c path
      (instanceMembers c members) start c.properties = .ok y := by
    refine Decoder.exists_decodeMembers start fun p hMem json hOpen hLookup _ => ?_
    rw [lookup_instanceMembers hFiles hResolves hMem] at hLookup
    obtain ⟨value, _, hReads⟩ := hWritten.of_lookup hMem hOpen hLookup
    exact ⟨_, hReads now (path.field p.name)⟩
  have hRead := Decoder.isRead_of_decodeMembers hMembers
  have hSame : y = x.inUtc := by
    refine Resource.eq_inUtc ?_ ?_ ?_ hInstance.sorted (hRead.sorted hNew.sorted)
      (get?_of_isRead hFiles hResolves hInstance hWritten hNew hRead)
    · rw [hRead.space, hNew.space, hInstance.space]
    · rw [hRead.typeName, hNew.typeName, hInstance.typeName]
    · rw [hRead.identifierField, hNew.identifierField, hInstance.identifierField]
  rw [hSame] at hMembers
  exact Decoder.decodeResource_eq_ok.mpr ⟨c, start, hFound, hInstance.concrete,
    checkMembers_instanceMembers hFiles hResolves hWritten.names path, hMade, hMembers,
    checkComplete_inUtc hInstance path⟩

/-- An instance of a class can stand where one of the class is expected. -/
theorem checkInstance_of_isInstanceOf (hInstance : x.IsInstanceOf c) {declared : Option String}
    (hDeclared : ∀ target, declared = some target → r.index.isAssignable c.fqn target = true)
    (path : Path) : (standard r).checkInstance c declared path x = .ok () :=
  checkInstance_of_names hInstance.concrete hDeclared hInstance.exists_property path

/-- An instance that fits is written as an object of its class. -/
theorem exists_encodeResource (hStrict : r.IsStrict) (hNames : r.HasIdentifiers)
    (hFits : r.FitsResource x)
    (hKeeps : ∀ name value, x.get? name = some value → KeepsProperty r value)
    {declared : Option String}
    (hDeclared : ∀ target, declared = some target → r.index.isAssignable x.fqn target = true)
    (path : Path) :
    ∃ c members, r.index.class? x.fqn = some c ∧ x.IsInstanceOf c ∧
      AreWritten r c x c.properties members ∧
      Writes ((standard r).encodeResource declared path x)
        (.object (instanceMembers c members)) := by
  obtain ⟨hFound, hInstance, hValues⟩ := hFits
  rename_i c
  have hResolves := TypeIndex.resolves_of_class? hStrict.files hStrict.index hFound
  have hNodup := hResolves.nodup_properties hStrict.files
  obtain ⟨hFqn, _⟩ := hStrict.names_of_class? hNames hFound
  obtain ⟨members, hWrites, hWritten⟩ := exists_encodeMembers hNodup path hInstance.complete
    fun p hMem value hGet => ⟨hValues p hMem value hGet, hKeeps p.name value hGet⟩
  refine ⟨c, members, hFound, hInstance, hWritten, ?_⟩
  have hChecked := checkInstance_of_isInstanceOf hInstance
    (fun target hTarget => hFqn ▸ hDeclared target hTarget) path
  exact hWrites.resource (e := standard r) hFound fun _ => hChecked

/-! ## Maps -/

/-- The name of the member that is written for a key. -/
def keyText (key : Value) : String := ((primitiveJson key).string?).getD ""

/-- Keys are texts or instants. -/
theorem key_cases {keyType : ValueType} {key : Value}
    (hKey : ModelFile.isKeyType (some keyType) = true) (hFits : keyType.FitsKey key) :
    (keyType.primitive = .string ∧ ∃ text, key = .string text) ∨
      keyType.primitive = .dateTime ∧ ∃ t, key = .dateTime t ∧ t.IsProper := by
  have hHolds := hFits.holds
  cases keyType with
  | string validator default =>
      cases hHolds with
      | string text => exact .inl ⟨rfl, text, rfl⟩
  | dateTime default =>
      cases hHolds with
      | @dateTime t hProper => exact .inr ⟨rfl, t, rfl, hProper⟩
  | _ => cases hKey

/-- Keys are written as texts that do not belong to the system. -/
theorem primitiveJson_key {keyType : ValueType} {key : Value}
    (hKey : ModelFile.isKeyType (some keyType) = true) (hFits : keyType.FitsKey key)
    (hPortable : key.IsPortable) :
    primitiveJson key = .string (keyText key) ∧ isSystemName (keyText key) = false := by
  rcases key_cases hKey hFits with ⟨_, text, rfl⟩ | ⟨_, t, rfl, _⟩
  · exact ⟨rfl, hFits.name text rfl⟩
  · exact ⟨rfl, DateTime.isSystemName_render (hPortable.instants t .refl)⟩

/-- Different keys are written as different texts. -/
theorem nodup_keyText {keyType : ValueType} {entries : List (Value × Value)}
    (hKey : ModelFile.isKeyType (some keyType) = true)
    (hKeys : ∀ entry ∈ entries, keyType.FitsKey entry.1)
    (hDistinct : (entries.filterMap (·.1.string?)).Nodup)
    (hPortable : (Value.map entries).IsPortable) :
    (entries.map fun entry => keyText entry.1).Nodup := by
  by_cases hString : keyType.primitive = .string
  · have hTexts : ∀ entry ∈ entries, entry.1.string? = some (keyText entry.1) := by
      intro entry hMem
      rcases key_cases hKey (hKeys entry hMem) with ⟨_, text, hText⟩ | ⟨hOther, _⟩
      · rw [hText]
        rfl
      · rw [hString] at hOther
        cases hOther
    rw [List.filterMap_congr hTexts, ← Function.comp_def some, List.filterMap_eq_map] at hDistinct
    exact hDistinct
  · refine List.pairwise_map.mpr ((hPortable.keys entries .refl).imp_of_mem ?_)
    intro a b hA hB hOther hSame
    rcases key_cases hKey (hKeys a hA) with ⟨hText, _⟩ | ⟨_, s, hS, hProperS⟩
    · exact hString hText
    · rcases key_cases hKey (hKeys b hB) with ⟨hText, _⟩ | ⟨_, t, hT, hProperT⟩
      · exact hString hText
      · have hPortableS := hPortable.instants s (.key hA (hS ▸ .refl))
        have hPortableT := hPortable.instants t (.key hB (hT ▸ .refl))
        have hRender : s.render 0 = t.render 0 := by
          rw [hS, hT] at hSame
          exact hSame
        have hRead := hPortableS.parse?_render hProperS
        rw [hRender, hPortableT.parse?_render hProperT] at hRead
        exact hOther s t hS hT (Option.some.inj hRead).symm

/-- The entries of a map are written after the members that there are. -/
theorem exists_encodeEntries {keyType : ValueType} {p : ResolvedProperty}
    {entries : List (Value × Value)} (hKey : ModelFile.isKeyType (some keyType) = true)
    (hKeys : ∀ entry ∈ entries, keyType.FitsKey entry.1 ∧ entry.1.IsPortable)
    (hFits : ∀ entry ∈ entries, r.FitsItem p.type entry.2)
    (hKeeps : ∀ entry ∈ entries, KeepsItem r entry.2) (front : List (String × Json))
    (hNew : (front.map (·.1) ++ entries.map fun entry => keyText entry.1).Nodup) (path : Path) :
    ∃ members, Writes ((standard r).encodeEntries keyType p path front entries) (front ++ members) ∧
      ∀ now place, (Decoder.standard r now).decodeEntries keyType p place members =
        .ok (Value.inUtcEntries entries) := by
  induction entries generalizing front with
  | nil =>
      refine ⟨[], ?_, fun now place => ?_⟩
      · rw [encodeEntries, List.append_nil]
        exact .pure front
      · rw [Decoder.decodeEntries, Value.inUtcEntries]
  | cons entry rest ih =>
      obtain ⟨key, item⟩ := entry
      obtain ⟨hFitsKey, hPortable⟩ := hKeys (key, item) List.mem_cons_self
      obtain ⟨hText, hName⟩ := primitiveJson_key hKey hFitsKey hPortable
      obtain ⟨json, hJson, _, hReads⟩ := hKeeps (key, item) List.mem_cons_self p
        (path.field (keyText key)) (hFits (key, item) List.mem_cons_self)
      have hAbsent : keyText key ∉ front.map (·.1) := by
        intro hMem
        exact List.disjoint_of_nodup_append hNew hMem List.mem_cons_self
      obtain ⟨members, hWrites, hReadsRest⟩ := ih
        (fun entry hMem => hKeys entry (List.mem_cons_of_mem _ hMem))
        (fun entry hMem => hFits entry (List.mem_cons_of_mem _ hMem))
        (fun entry hMem => hKeeps entry (List.mem_cons_of_mem _ hMem))
        (front ++ [(keyText key, json)]) (by simpa using hNew)
      refine ⟨(keyText key, json) :: members, ?_, fun now place => ?_⟩
      · have hKeyJson := encodeValue_of_fits (r := r) hFitsKey.toFits path
        rw [hText] at hKeyJson
        rw [encodeEntries]
        refine (Writes.lift hKeyJson).bind (hJson.bind ?_)
        rw [Json.insertMember_of_not_mem hAbsent]
        simpa using hWrites
      · have hKeyRead :=
          decodeValue_primitiveJson (r := r) hFitsKey.toFits hPortable now
            (place.field (keyText key))
        rw [hText] at hKeyRead
        have hOwn : ¬ isSystemName (keyText key) = true := by
          rw [hName]
          exact Bool.noConfusion
        rw [Decoder.decodeEntries, if_neg hOwn, hKeyRead]
        simp only [Outcome.bind_eq_ok, Outcome.pure_eq_ok]
        exact ⟨_, rfl, _, hReads now _, _, hReadsRest now place, rfl⟩

/-! ## Trees -/

variable {value : Value}

/-- An instance is written where one of a class is declared, and read there as the instance. -/
theorem exists_encodeNested (hStrict : r.IsStrict) (hNames : r.HasIdentifiers)
    (hFits : r.FitsResource x)
    (hKeeps : ∀ name value, x.get? name = some value → KeepsProperty r value) {target : String}
    (hAssignable : r.index.isAssignable x.fqn target = true) (path : Path) :
    ∃ members, Writes ((standard r).encodeResource (some target) path x) (.object members) ∧
      ∀ now place, (Decoder.standard r now).decodeNested target place members = .ok x.inUtc := by
  obtain ⟨c, members, hFound, hInstance, hWritten, hWrites⟩ := exists_encodeResource hStrict hNames
    hFits hKeeps (fun other hOther => Option.some.inj hOther ▸ hAssignable) path
  obtain ⟨hFqn, _⟩ := hStrict.names_of_class? hNames hFound
  refine ⟨_, hWrites, fun now place => ?_⟩
  have hClass : (((instanceMembers c members).lookup classKey).bind Json.string?).getD target =
      x.fqn := by
    rw [lookup_classKey]
    exact hFqn
  have hRegistry : (Decoder.standard r now).registry = r := rfl
  rw [Decoder.decodeNested]
  simp only [hClass, hRegistry, hAssignable, if_true]
  exact decodeResource_instanceMembers hStrict hNames hFound hInstance hWritten now place

/-- A map is written where it is declared, and read there as the map. -/
theorem exists_encodeMap (hStrict : r.IsStrict) {target : String} {m : ResolvedMap}
    {keyType : ValueType} {entries : List (Value × Value)} (hMap : r.index.map? target = some m)
    (hKey : m.key.type.value? = some keyType) (hKeys : ∀ entry ∈ entries, keyType.FitsKey entry.1)
    (hDistinct : (entries.filterMap (·.1.string?)).Nodup)
    (hFits : ∀ entry ∈ entries, r.FitsItem m.value.type entry.2)
    (hPortable : (Value.map entries).IsPortable)
    (hKeeps : ∀ entry ∈ entries, KeepsItem r entry.2) (path : Path) :
    ∃ members, Writes ((standard r).encodeMap target path entries) (.object members) ∧
      ∀ now place, (Decoder.standard r now).decodeMap target place members =
        .ok (.map (Value.inUtcEntries entries)) := by
  have hKeyType : ModelFile.isKeyType (some keyType) = true := by
    rw [← hKey]
    exact (TypeIndex.map?_eq_some hStrict.files hStrict.index hMap).1
  have hNew := nodup_keyText hKeyType hKeys hDistinct hPortable
  obtain ⟨members, hWrites, hReads⟩ := exists_encodeEntries hKeyType
    (fun entry hMem => ⟨hKeys entry hMem, hPortable.of_part fun inner => .key hMem⟩) hFits hKeeps []
    hNew path
  exact ⟨members, .map hMap hKey hWrites, fun now place =>
    Decoder.decodeMap_of_entries hMap hKey (hReads now place)⟩

/-- A pointer is written as its URI, which is read as the pointer. -/
theorem encodePointer_of_isProper {pointer : Relationship} (hProper : pointer.IsProper)
    {target : String} (hAssignable : r.index.isAssignable pointer.fqn target = true) :
    (∀ path, (standard r).encodePointer target path pointer = .ok (.string pointer.toUri)) ∧
      ∀ now place, (Decoder.standard r now).decodePointer target place pointer.toUri =
        .ok (.relationship pointer) := by
  constructor
  · intro path
    have hRegistry : (standard r).registry = r := rfl
    simp only [encodePointer, hRegistry, hAssignable, Bool.not_true, Bool.and_false]
    rfl
  · intro now place
    have hRegistry : (Decoder.standard r now).registry = r := rfl
    simp only [Decoder.decodePointer, hRegistry, hAssignable, Bool.not_true, Bool.and_false,
      Relationship.ofUri_toUri hProper.plain hProper.split hProper.id]
    rfl

/-- A value is kept if the values below it are. -/
theorem keepsItem_of_parts (hStrict : r.IsStrict) (hNames : r.HasIdentifiers)
    (hPortable : value.IsPortable)
    (hEntries : ∀ entries, value = .map entries → ∀ entry ∈ entries, KeepsItem r entry.2)
    (hFields : ∀ x, value = .concept x → ∀ field ∈ x.values, KeepsProperty r field.2) :
    KeepsItem r value := by
  intro p path hFits
  generalize hType : p.type = type at hFits
  cases hFits with
  | @value _ v _ hValue hFits =>
      have hWrites := Writes.lift (encodeValue_of_fits (r := r) hFits path)
      have hReads := decodeValue_primitiveJson (r := r) hFits hPortable
      refine ⟨primitiveJson value, ?_, primitiveJson_ne_null hFits, fun now place => ?_⟩
      · rw [encodeItem_of_valueType (hType ▸ hValue)]
        exact hWrites
      · rw [Decoder.decodeItem_of_valueType (hType ▸ hValue)]
        exact hReads now place
  | @enum target default d values name hDeclared hBody hHas =>
      refine ⟨.string name, ?_, nofun, fun now place => ?_⟩
      · rw [encodeItem_of_enumBody hType hDeclared hBody]
        exact Writes.lift (encodeEnum_of_hasEnumValue hHas)
      · rw [Decoder.decodeItem_of_enumBody hType hDeclared hBody]
        exact Decoder.decodeEnum_eq_ok.mpr ⟨name, rfl, hHas, rfl⟩
  | @concept target default d body x hDeclared hBody hAssignable hFits =>
      obtain ⟨members, hWrites, hReads⟩ := exists_encodeNested hStrict hNames hFits
        (fun name inner hGet => hFields x rfl (name, inner) (Table.mem_of_find? hGet)) hAssignable
        path
      refine ⟨.object members, ?_, nofun, fun now place => ?_⟩
      · rw [encodeItem_of_classBody hType hDeclared hBody]
        exact .get_bind fun _ => hWrites
      · rw [Decoder.decodeItem_of_classBody hType hDeclared hBody]
        exact Outcome.map_eq_ok.mpr ⟨_, hReads now place, rfl⟩
  | @map target default d key mapped m keyType entries hDeclared hBody hMap hKey hKeys hDistinct
      hFits =>
      obtain ⟨members, hWrites, hReads⟩ := exists_encodeMap hStrict hMap hKey hKeys hDistinct hFits
        hPortable (hEntries entries rfl) path
      refine ⟨.object members, ?_, nofun, fun now place => ?_⟩
      · rw [encodeItem_of_mapBody hType hDeclared hBody]
        exact hWrites
      · rw [Decoder.decodeItem_of_mapBody hType hDeclared hBody]
        exact hReads now place
  | @relationship target pointer hProper hAssignable =>
      obtain ⟨hWrites, hReads⟩ := encodePointer_of_isProper hProper hAssignable
      refine ⟨.string pointer.toUri, ?_, nofun, fun now place => ?_⟩
      · rw [encodeItem.eq_def, hType]
        exact Writes.lift (hWrites path)
      · rw [Decoder.decodeItem.eq_def, hType]
        exact hReads now place

/-- Whatever portable value fits, it is written, and what is written is read as the value. -/
theorem keepsItem (hStrict : r.IsStrict) (hNames : r.HasIdentifiers) (value : Value)
    (hPortable : value.IsPortable) : KeepsItem r value := by
  induction value using Value.inductionOn_fields with
  | hParts value hEntries hFields =>
      refine keepsItem_of_parts hStrict hNames hPortable ?_ ?_
      · intro entries hMap entry hMem
        have hInner : entry.2.IsPortable :=
          hPortable.of_part fun _ hPart => hMap ▸ .entry hMem hPart
        exact hEntries entries hMap entry hMem hInner
      · intro x hConcept field hMem
        have hField : field.2.IsPortable :=
          hPortable.of_part fun _ hPart => hConcept ▸ .field hMem hPart
        obtain ⟨hWhole, hItems⟩ := hFields x hConcept field hMem
        refine keepsProperty (hWhole hField) fun items hArray item hIn => ?_
        exact hItems items hArray item hIn (hField.of_part fun _ hPart => hArray ▸ .item hIn hPart)

/-- A portable instance that fits is written as a tree that is read as the instance. -/
theorem exists_encode (hStrict : r.IsStrict) (hNames : r.HasIdentifiers) (hFits : r.FitsResource x)
    (hPortable : (Value.concept x).IsPortable) :
    ∃ json, (standard r).encode x = .ok json ∧
      ∀ now, (Decoder.standard r now).decode json = .ok x.inUtc := by
  have hKeeps (name : String) (value : Value) (hGet : x.get? name = some value) :
      KeepsProperty r value := by
    have hField : value.IsPortable :=
      hPortable.of_part fun _ hPart => .field (Table.mem_of_find? hGet) hPart
    refine keepsProperty (keepsItem hStrict hNames value hField) fun items hArray item hIn => ?_
    exact keepsItem hStrict hNames item (hField.of_part fun _ hPart => hArray ▸ .item hIn hPart)
  obtain ⟨c, members, hFound, hInstance, hWritten, hWrites⟩ :=
    exists_encodeResource hStrict hNames hFits hKeeps
      (nofun : ∀ target, none = some target → _) .root
  obtain ⟨hFqn, _⟩ := hStrict.names_of_class? hNames hFound
  refine ⟨.object (instanceMembers c members), hWrites.encode, fun now => ?_⟩
  have hClass : ((instanceMembers c members).lookup classKey).bind Json.string? =
      some x.fqn := by
    rw [lookup_classKey]
    exact congrArg some hFqn
  rw [Decoder.decode]
  simp only [hClass]
  exact decodeResource_instanceMembers hStrict hNames hFound hInstance hWritten now .root

end Encoder

end DomainModels
