import DomainModels.Proofs.Wire.Pointers
import DomainModels.Proofs.Wire.ReadBack

/-!
What is written can be read.

The writer and the reader check the same things, but for the identifiers of instances and pointers,
the years of instants, and the defaults of the classes. Where nothing is amiss with these, whatever
tree is written for an instance, the reader does not refuse it.
-/

namespace DomainModels

/-- Values with nothing amiss that only the reader sees: the instants lie in years of four digits,
the identifiers are not empty, and the defaults of the classes are values. -/
structure Registry.IsLegible (r : Registry) (value : Value) : Prop where
  instants : ∀ t, Value.IsPart (.dateTime t) value → t.IsProper ∧
    0 ≤ (t.toLocal 0).date.year ∧ (t.toLocal 0).date.year ≤ 9999
  pointers : ∀ pointer, Value.IsPart (.relationship pointer) value → pointer.id ≠ ""
  instances : ∀ x, Value.IsPart (.concept x) value → ∀ c, r.index.class? x.fqn = some c →
    (∀ p ∈ c.properties, ∃ default, p.default? = .ok default) ∧
      ∀ field, c.identifier = some field → x.get? field ≠ some (.string "")

namespace Registry

variable {r : Registry} {value inner : Value}

/-- The parts of a value share what is said about its parts. -/
theorem IsLegible.of_part (hLegible : r.IsLegible value)
    (hPart : ∀ {part : Value}, part.IsPart inner → part.IsPart value) : r.IsLegible inner where
  instants t hT := hLegible.instants t (hPart hT)
  pointers pointer hPointer := hLegible.pointers pointer (hPart hPointer)
  instances x hX := hLegible.instances x (hPart hX)

/-- The URI of a pointer to an indexed class is read as a pointer to the class. -/
theorem IsStrict.exists_ofUri (hStrict : r.IsStrict) (hNames : r.HasIdentifiers)
    {pointer : Relationship} {c : ResolvedClass}
    (hFound : r.index.class? pointer.fqn = some c) (hId : pointer.id ≠ "") (space name : String) :
    ∃ read, Relationship.ofUri pointer.toUri space name = .ok read ∧ read.fqn = pointer.fqn := by
  obtain ⟨_, hName, hSpace, hIdentifier⟩ := hStrict.names_of_class? hNames hFound
  let read : Relationship := ⟨c.space, c.name, pointer.id⟩
  have hFqn : read.fqn = pointer.fqn := hName
  have hUri : pointer.toUri = read.toUri := by
    simp only [Relationship.toUri, hFqn]
    rfl
  refine ⟨read, ?_, hFqn⟩
  rw [hUri]
  refine Relationship.ofUri_toUri (r := read) (fun _ hMem => ?_) ?_ hId space name
  · exact isPlainChar_of_qualify hSpace hIdentifier hMem
  · exact splitQualified_qualify hSpace.nonempty hIdentifier.isSimpleName

end Registry

namespace Encoder

variable {r : Registry} {value : Value} {json : Json} {path : Path}

/-! ## Primitive values -/

/-- What a primitive value is read back as: an integer as one of the declared size, or as a double
where one is declared. -/
def asRead : PrimitiveType → Value → Value
  | .integer, .long i => .integer i
  | .long, .integer i => .long i
  | .double, .integer i | .double, .long i => .double (Number.ofInt64 i)
  | _, value => value

/-- Integers of either size, and the doubles that are nearest to them, are compared with the same
bounds. -/
theorem check_asRead {type : ValueType} (hChecked : type.check path value = .ok ()) :
    type.check path (asRead type.primitive value) = .ok () := by
  cases type <;> cases value <;> exact hChecked

/-- The tree of a primitive value that is no instant is read as the value. -/
theorem decodeValue_of_writesValue {e : Encoder} {type : ValueType}
    (hPlain : type.primitive ≠ .dateTime) (hChecked : type.check path value = .ok ())
    (hTree : e.WritesValue value json) (now : DateTime) (place : Path) :
    (Decoder.standard r now).decodeValue type place json = .ok (asRead type.primitive value) := by
  have hInt (i : Int64) : Number.toInt64? (.int i.toInt) = some i := toInt64?_toInt i
  refine Decoder.decodeValue_eq_ok.mpr
    ⟨?_, ValueType.check_path (check_asRead hChecked) place⟩
  cases type with
  | string validator default =>
      cases hTree with
      | string text => rfl
      | _ => cases hChecked
  | boolean default =>
      cases hTree with
      | boolean b => rfl
      | _ => cases hChecked
  | integer validator default =>
      cases hTree with
      | integer i => exact congrArg (Option.map Value.integer) (hInt i)
      | long i => exact congrArg (Option.map Value.integer) (hInt i)
      | _ => cases hChecked
  | long validator default =>
      cases hTree with
      | integer i => exact congrArg (Option.map Value.long) (hInt i)
      | long i => exact congrArg (Option.map Value.long) (hInt i)
      | _ => cases hChecked
  | double validator default =>
      cases hTree with
      | integer i => rfl
      | long i => rfl
      | double _ => rfl
      | _ => cases hChecked
  | dateTime default => exact absurd rfl hPlain

/-- The tree of a primitive value is read as a value that passes the same check. -/
theorem exists_decodeValue {type : ValueType}
    (hWritten : (standard r).encodeValue type path value = .ok json)
    (hLegible : r.IsLegible value) (now : DateTime) (place : Path) :
    ∃ read, (Decoder.standard r now).decodeValue type place json = .ok read := by
  obtain ⟨hValid, hTree⟩ := encodeValue_eq_ok.mp hWritten
  have hChecked := hValid rfl
  by_cases hPlain : type.primitive = .dateTime
  · cases type with
    | dateTime default =>
        cases hTree with
        | dateTime t =>
            obtain ⟨hProper, hYears⟩ := hLegible.instants t .refl
            obtain ⟨read, hRead⟩ := DateTime.exists_parse?_render hProper hYears
            have hOptions : (Decoder.standard r now).options = .default := rfl
            have hText : (standard r).options.utcOffset = 0 := rfl
            refine ⟨.dateTime read, Decoder.decodeValue_eq_ok.mpr ⟨?_, rfl⟩⟩
            simp only [Decoder.primitive?, ValueType.primitive, Json.string?, hText, hOptions,
              DecodeOptions.default, Option.bind_some, hRead, Option.map_some]
        | _ => cases hChecked
    | _ => cases hPlain
  · exact ⟨_, decodeValue_of_writesValue hPlain hChecked hTree now place⟩

/-! ## Items and properties -/

/-- Wherever a value is written as an item, what is written can be read. -/
def WritesReadable (r : Registry) (value : Value) : Prop :=
  ∀ p path json, r.PointsToClass p.type → MayWrite ((standard r).encodeItem p path value) json →
    json ≠ .null ∧ ∀ now place, ∃ read, (Decoder.standard r now).decodeItem p place json = .ok read

/-- Wherever a value is written as a property, what is written can be read. -/
def PropertyWritesReadable (r : Registry) (value : Value) : Prop :=
  ∀ p path json, r.PointsToClass p.type →
    MayWrite ((standard r).encodeProperty p path value) json →
      json ≠ .null ∧
        ∀ now place, ∃ read, (Decoder.standard r now).decodeProperty p place json = .ok read

/-- The elements of an array can be read when each of them can be. -/
theorem exists_decodeItems {p : ResolvedProperty} {trees : List Json} {now : DateTime}
    (hEach : ∀ tree ∈ trees, ∀ place,
      ∃ read, (Decoder.standard r now).decodeItem p place tree = .ok read)
    (place : Path) (i : Nat) :
    ∃ reads, (Decoder.standard r now).decodeItems p place i trees = .ok reads := by
  induction trees generalizing i with
  | nil =>
      rw [Decoder.decodeItems]
      exact ⟨[], rfl⟩
  | cons tree rest ih =>
      obtain ⟨read, hRead⟩ := hEach tree List.mem_cons_self (place.index i)
      obtain ⟨reads, hReads⟩ :=
        ih (fun other hMem => hEach other (List.mem_cons_of_mem _ hMem)) (i + 1)
      rw [Decoder.decodeItems, hRead, hReads]
      exact ⟨read :: reads, rfl⟩

theorem propertyWritesReadable (hItem : WritesReadable r value)
    (hItems : ∀ items, value = .array items → ∀ item ∈ items, WritesReadable r item) :
    PropertyWritesReadable r value := by
  intro p path json hPoints hWritten
  rcases hWritten.property with ⟨hSingle, hWritten⟩ | ⟨hArray, items, trees, rfl, rfl, hAll⟩
  · obtain ⟨hSome, hReads⟩ := hItem p path json hPoints hWritten
    refine ⟨hSome, fun now place => ?_⟩
    rw [Decoder.decodeProperty.eq_def, hSingle]
    exact hReads now place
  · refine ⟨nofun, fun now place => ?_⟩
    have hEach (tree : Json) (hMem : tree ∈ trees) (place : Path) :
        ∃ read, (Decoder.standard r now).decodeItem p place tree = .ok read := by
      obtain ⟨item, hItem, place, hWritten⟩ := Named.exists_of_forall₂ hAll hMem
      exact (hItems items rfl item hItem p place tree hPoints hWritten).2 now _
    obtain ⟨reads, hReads⟩ := exists_decodeItems hEach place 0
    rw [Decoder.decodeProperty.eq_def, hArray]
    exact ⟨.array reads, Outcome.map_eq_ok.mpr ⟨reads, hReads, rfl⟩⟩

/-! ## Instances -/

variable {x : Resource} {c : ResolvedClass} {members : List (String × Json)}

/-- The identifier of an instance is a text, which is written as it is and read as it was. -/
theorem exists_identifier (hStrict : r.IsStrict) (hFound : r.index.class? x.fqn = some c)
    (hMembers : (standard r).HasMembers c path x c.properties members) {field : String}
    (hField : c.identifier = some field) :
    ∃ p ∈ c.properties, p.name = field ∧ Decoder.isShadowed c p = false ∧
      ∃ text, x.get? field = some (.string text) ∧ members.lookup field = some (.string text) ∧
        ∀ now place value, (Decoder.standard r now).decodeProperty p place (.string text) =
          .ok value → value = .string text := by
  have hResolves := TypeIndex.resolves_of_class? hStrict.files hStrict.index hFound
  obtain ⟨p, hMem, rfl, ⟨validator, default, hType⟩, hRequired, hSingle⟩ :=
    hResolves.exists_identifying hStrict.files hField
  have hOpen := Decoder.isShadowed_of_identifier hField
  refine ⟨p, hMem, rfl, hOpen, ?_⟩
  cases hLookup : members.lookup p.name with
  | none =>
      rw [hMembers.missing p hMem hOpen hLookup rfl] at hRequired
      cases hRequired
  | some json =>
      obtain ⟨value, hGet, hWritten⟩ := hMembers.held p hMem hOpen json hLookup
      rcases hWritten.property with ⟨_, hWritten⟩ | ⟨hArray, _⟩
      · obtain ⟨hChecked, hTree⟩ :=
          encodeValue_eq_ok.mp (hWritten.item.of_valueType hType)
        have hCheck := hChecked rfl
        cases hTree with
        | string text =>
            refine ⟨text, hGet, rfl, fun now place read hRead => ?_⟩
            rw [Decoder.decodeProperty.eq_def, hSingle] at hRead
            rw [if_neg nofun, Decoder.decodeItem_of_valueType hType] at hRead
            exact (Option.some.inj (Decoder.decodeValue_eq_ok.mp hRead).1).symm
        | _ => cases hCheck
      · rw [hSingle] at hArray
        cases hArray

variable {now : DateTime} {place : Path} {start y : Resource}

/-- Whatever has been written for a property is read. -/
theorem exists_read (hStrict : r.IsStrict) (hFound : r.index.class? x.fqn = some c)
    (hRead : Decoder.IsRead r now c place (instanceMembers c members) c.properties start y)
    {p : ResolvedProperty} (hMem : p ∈ c.properties) (hOpen : Decoder.isShadowed c p = false)
    (hLookup : members.lookup p.name = some json) (hSome : json ≠ .null) :
    ∃ value, (Decoder.standard r now).decodeProperty p (place.field p.name) json = .ok value ∧
      y.get? p.name = some value := by
  have hResolves := TypeIndex.resolves_of_class? hStrict.files hStrict.index hFound
  rw [← lookup_instanceMembers hStrict.files hResolves hMem] at hLookup
  rcases hRead.values p.name with ⟨_, hNothing⟩ |
    ⟨q, hQ, hName, _, other, value, hOther, _, hValue, hGet⟩
  · rcases hNothing p hMem rfl hOpen with hNone | hNull
    · rw [hLookup] at hNone
      cases hNone
    · rw [hLookup] at hNull
      exact absurd (Option.some.inj hNull) hSome
  · obtain rfl := hStrict.property_ext hFound hQ hMem hName
    rw [hLookup] at hOther
    cases hOther
    exact ⟨value, hValue, hGet⟩

/-- The identifier that is read is the one that was written. -/
theorem exists_identifier_read (hStrict : r.IsStrict) (hFound : r.index.class? x.fqn = some c)
    (hMembers : (standard r).HasMembers c path x c.properties members)
    (hRead : Decoder.IsRead r now c place (instanceMembers c members) c.properties start y)
    (hStart : start.identifierField = c.identifier) {field : String}
    (hField : c.identifier = some field) :
    ∃ text, x.get? field = some (.string text) ∧ y.identifier? = some text := by
  obtain ⟨p, hMem, rfl, hOpen, text, hText, hLookup, hOnly⟩ :=
    exists_identifier hStrict hFound hMembers hField
  obtain ⟨value, hValue, hGet⟩ := exists_read hStrict hFound hRead hMem hOpen hLookup nofun
  obtain rfl := hOnly now _ value hValue
  refine ⟨text, hText, ?_⟩
  rw [Resource.identifier?, hRead.identifierField, hStart, hField, Option.bind_some, hGet]
  rfl

/-- What is read from the members of an instance lacks nothing. -/
theorem checkComplete_of_hasMembers (hStrict : r.IsStrict)
    (hFound : r.index.class? x.fqn = some c) (hSomeId : ∀ field, c.identifier = some field →
      x.get? field ≠ some (.string ""))
    (hMembers : (standard r).HasMembers c path x c.properties members)
    (hSome : ∀ p ∈ c.properties, Decoder.isShadowed c p = false →
      members.lookup p.name ≠ some .null)
    (hRead : Decoder.IsRead r now c place (instanceMembers c members) c.properties start y)
    (hStart : start.identifierField = c.identifier) : Decoder.checkComplete c place y = .ok () := by
  rw [Decoder.checkComplete_eq_ok]
  refine ⟨fun p hMem => ?_, fun hIdentified => ?_⟩
  · cases hShadowed : Decoder.isShadowed c p with
    | true => exact .inr (.inr rfl)
    | false =>
        cases hLookup : members.lookup p.name with
        | none => exact .inl (hMembers.missing p hMem hShadowed hLookup rfl)
        | some json =>
            obtain ⟨value, _, hGet⟩ := exists_read hStrict hFound hRead hMem hShadowed hLookup
              fun hNull => hSome p hMem hShadowed (hNull ▸ hLookup)
            exact .inr (.inl (Resource.contains_eq_true.mpr ⟨value, hGet⟩))
  · obtain ⟨field, hField⟩ := Option.isSome_iff_exists.mp hIdentified
    obtain ⟨text, hText, hIdentifier⟩ :=
      exists_identifier_read hStrict hFound hMembers hRead hStart hField
    exact ⟨text, hIdentifier, fun hEmpty => hSomeId field hField (hEmpty ▸ hText)⟩

/-- The object of an instance can be read as one of its class, if the values of the instance are
written so that they can be read. -/
theorem exists_decodeResource (hStrict : r.IsStrict) (hLegible : r.IsLegible (.concept x))
    (hValues : ∀ name value, x.get? name = some value → PropertyWritesReadable r value)
    {declared : Option String}
    (hWritten : MayWrite ((standard r).encodeResource declared path x) json) :
    ∃ members, json = .object members ∧ members.lookup classKey = some (.string x.fqn) ∧
      (∀ target, declared = some target → r.index.isAssignable x.fqn target = true) ∧
      ∀ now place, ∃ y,
        (Decoder.standard r now).decodeResource x.fqn place members = .ok y := by
  obtain ⟨c, members, hFound, hChecked, hMembers, rfl⟩ := hWritten.resource
  obtain ⟨hConcrete, hDeclared⟩ := of_checkInstance (hChecked rfl)
  have hFiles := hStrict.files
  have hResolves := TypeIndex.resolves_of_class? hFiles hStrict.index hFound
  have hFqn : c.fqn = x.fqn := (TypeIndex.mem_of_class? hFound).2
  have hAll := hMembers.hasMembers (hResolves.nodup_properties hFiles)
  obtain ⟨hDefaults, hSomeId⟩ := hLegible.instances x .refl c hFound
  have hProperty {p : ResolvedProperty} (hMem : p ∈ c.properties)
      (hOpen : Decoder.isShadowed c p = false) {json : Json}
      (hLookup : members.lookup p.name = some json) :
      json ≠ .null ∧ ∀ now place,
        ∃ value, (Decoder.standard r now).decodeProperty p place json = .ok value := by
    obtain ⟨value, hGet, hWritten⟩ := hAll.held p hMem hOpen json hLookup
    exact hValues p.name value hGet p _ json (hStrict.pointsToClass_of_mem hFound hMem) hWritten
  refine ⟨instanceMembers c members, rfl, ?_, fun target hTarget => ?_, fun now place => ?_⟩
  · rw [lookup_classKey, hFqn]
  · exact hFqn ▸ hDeclared target hTarget
  · have hClass : r.index.class? (qualify c.space c.name) = some c := by
      rw [hStrict.qualify_of_class? hFound]
      exact hFound
    obtain ⟨start, hMade⟩ : ∃ start,
        (Decoder.standard r now).newInstance c (instanceMembers c members) = .ok start :=
      Decoder.exists_newInstance hClass hConcrete hDefaults
    have hNew := Decoder.isNew_of_newInstance hClass hConcrete hMade
    obtain ⟨y, hY⟩ : ∃ y, (Decoder.standard r now).decodeMembers c place
        (instanceMembers c members) start c.properties = .ok y := by
      refine Decoder.exists_decodeMembers start fun p hMem json hOpen hLookup _ => ?_
      rw [lookup_instanceMembers hFiles hResolves hMem] at hLookup
      exact (hProperty hMem hOpen hLookup).2 now _
    refine ⟨y, Decoder.decodeResource_eq_ok.mpr ⟨c, start, hFound, hConcrete,
      checkMembers_instanceMembers hFiles hResolves hAll.names place, hMade, hY, ?_⟩⟩
    exact checkComplete_of_hasMembers hStrict hFound hSomeId hAll
      (fun p hMem hOpen hNull => (hProperty hMem hOpen hNull).1 rfl)
      (Decoder.isRead_of_decodeMembers hY) hNew.identifierField

/-! ## Maps -/

/-- The entries of a map can be read when each key and each item can be. -/
theorem exists_decodeEntries {keyType : ValueType} {p : ResolvedProperty} {now : DateTime}
    (hEach : ∀ member ∈ members, ∀ place,
      (∃ key, (Decoder.standard r now).decodeValue keyType place (.string member.1) = .ok key) ∧
        ∃ item, (Decoder.standard r now).decodeItem p place member.2 = .ok item) (place : Path) :
    ∃ entries, (Decoder.standard r now).decodeEntries keyType p place members = .ok entries := by
  induction members with
  | nil =>
      rw [Decoder.decodeEntries]
      exact ⟨[], rfl⟩
  | cons member rest ih =>
      obtain ⟨name, json⟩ := member
      obtain ⟨entries, hRest⟩ := ih fun other hMem => hEach other (List.mem_cons_of_mem _ hMem)
      obtain ⟨⟨key, hKey⟩, item, hItem⟩ := hEach _ List.mem_cons_self (place.field name)
      rw [Decoder.decodeEntries]
      split
      · exact ⟨entries, hRest⟩
      · rw [hKey, hItem, hRest]
        exact ⟨(key, item) :: entries, rfl⟩

/-- The object of a map can be read as a map, if its items are written so that they can be read. -/
theorem exists_decodeMap (hStrict : r.IsStrict) {entries : List (Value × Value)}
    (hLegible : r.IsLegible (.map entries)) (hItems : ∀ entry ∈ entries, WritesReadable r entry.2)
    {target : String} (hWritten : MayWrite ((standard r).encodeMap target path entries) json) :
    ∃ members, json = .object members ∧
      ∀ now place, ∃ read, (Decoder.standard r now).decodeMap target place members = .ok read := by
  obtain ⟨m, keyType, inserted, hMap, hKey, hInserted, rfl⟩ := hWritten.map
  refine ⟨_, rfl, fun now place => ?_⟩
  have hEach (member : String × Json) (hMem : member ∈ Json.insertMembers inserted [])
      (place : Path) :
      (∃ key, (Decoder.standard r now).decodeValue keyType place (.string member.1) = .ok key) ∧
        ∃ item, (Decoder.standard r now).decodeItem m.value place member.2 = .ok item := by
    have hFrom : member ∈ inserted := (Json.mem_insertMembers hMem).resolve_right List.not_mem_nil
    obtain ⟨entry, hEntry, hText, hItem⟩ := Named.exists_of_forall₂ hInserted hFrom
    refine ⟨exists_decodeValue hText (hLegible.of_part fun inner => .key hEntry inner) now place,
      ?_⟩
    exact (hItems entry hEntry m.value _ _ (hStrict.pointsToClass_of_map? hMap) hItem).2 now place
  obtain ⟨reads, hReads⟩ := exists_decodeEntries hEach place
  exact ⟨.map reads, Decoder.decodeMap_of_entries hMap hKey hReads⟩

/-! ## Trees -/

/-- A pointer that is written can be read. -/
theorem exists_decodePointer (hStrict : r.IsStrict) (hNames : r.HasIdentifiers)
    {pointer : Relationship} (hId : pointer.id ≠ "") {target : String}
    (hPoints : ∃ c, r.index.class? target = some c)
    (hAssignable : r.index.isAssignable pointer.fqn target = true) (now : DateTime) (place : Path) :
    ∃ read, (Decoder.standard r now).decodePointer target place pointer.toUri = .ok read := by
  obtain ⟨c, hTarget⟩ := hPoints
  obtain ⟨d, hFound⟩ := hStrict.class?_of_isAssignable hTarget hAssignable
  obtain ⟨read, hRead, hFqn⟩ := hStrict.exists_ofUri hNames hFound hId c.space c.name
  exact ⟨_, (Decoder.decodePointer_eq_ok hStrict hTarget).mpr
    ⟨read, hRead, hFqn ▸ hAssignable, rfl⟩⟩

/-- A value is written so that it can be read if the values below it are. -/
theorem writesReadable_of_parts (hStrict : r.IsStrict) (hNames : r.HasIdentifiers)
    (hLegible : r.IsLegible value)
    (hEntries : ∀ entries, value = .map entries → ∀ entry ∈ entries, WritesReadable r entry.2)
    (hFields : ∀ x, value = .concept x → ∀ field ∈ x.values, PropertyWritesReadable r field.2) :
    WritesReadable r value := by
  intro p path json hPoints hWritten
  have hItem := hWritten.item
  have hRegistry (now : DateTime) : (Decoder.standard r now).registry = r := rfl
  generalize hType : p.type = type at hItem hPoints
  cases hItem with
  | @value _ v _ _ hValue hWritten =>
      refine ⟨?_, fun now place => ?_⟩
      · rintro rfl
        cases (encodeValue_eq_ok.mp hWritten).2
      · rw [Decoder.decodeItem_of_valueType (hType ▸ hValue)]
        exact exists_decodeValue hWritten hLegible now place
  | @pointer target pointer _ hWritten =>
      obtain ⟨hChecked, rfl⟩ := encodePointer_eq_ok.mp hWritten
      refine ⟨nofun, fun now place => ?_⟩
      rw [Decoder.decodeItem.eq_def, hType]
      exact exists_decodePointer hStrict hNames (hLegible.pointers pointer .refl)
        (hPoints target rfl) (hChecked rfl) now place
  | pointee hAllowed _ => rcases hAllowed with hAllowed | hAllowed <;> cases hAllowed
  | embedded hAllowed _ => cases hAllowed
  | @enum target default d values _ _ hDeclared hBody hWritten =>
      obtain ⟨name, _, rfl, hHas⟩ := encodeEnum_eq_ok hWritten
      refine ⟨nofun, fun now place => ⟨.enum name, ?_⟩⟩
      rw [Decoder.decodeItem_of_enumBody (r := r) hType hDeclared hBody]
      exact Decoder.decodeEnum_eq_ok.mpr ⟨name, rfl, hHas rfl, rfl⟩
  | @concept target default d body x _ hDeclared hBody hWritten =>
      obtain ⟨members, rfl, hClass, hAssignable, hReads⟩ := exists_decodeResource hStrict hLegible
        (fun name inner hGet => hFields x rfl (name, inner) (Table.mem_of_find? hGet)) hWritten
      refine ⟨nofun, fun now place => ?_⟩
      obtain ⟨y, hRead⟩ := hReads now place
      refine ⟨.concept y, ?_⟩
      rw [Decoder.decodeItem_of_classBody (r := r) hType hDeclared hBody]
      refine Outcome.map_eq_ok.mpr ⟨y, ?_, rfl⟩
      rw [Decoder.decodeNested]
      simp only [hClass, Option.bind_some, Json.string?, Option.getD_some, hRegistry,
        hAssignable target rfl, if_true]
      exact hRead
  | again hOnce _ => cases hOnce
  | @map target default d key mapped entries _ hDeclared hBody hWritten =>
      obtain ⟨members, rfl, hReads⟩ :=
        exists_decodeMap hStrict hLegible (hEntries entries rfl) hWritten
      refine ⟨nofun, fun now place => ?_⟩
      rw [Decoder.decodeItem_of_mapBody (r := r) hType hDeclared hBody]
      exact hReads now place

/-- Whatever legible value is written, what is written can be read. -/
theorem writesReadable (hStrict : r.IsStrict) (hNames : r.HasIdentifiers) (value : Value)
    (hLegible : r.IsLegible value) : WritesReadable r value := by
  induction value using Value.inductionOn_fields with
  | hParts value hEntries hFields =>
      refine writesReadable_of_parts hStrict hNames hLegible ?_ ?_
      · intro entries hMap entry hMem
        have hInner : r.IsLegible entry.2 := hLegible.of_part fun hPart => hMap ▸ .entry hMem hPart
        exact hEntries entries hMap entry hMem hInner
      · intro x hConcept field hMem
        have hField : r.IsLegible field.2 :=
          hLegible.of_part fun hPart => hConcept ▸ .field hMem hPart
        obtain ⟨hWhole, hItems⟩ := hFields x hConcept field hMem
        refine propertyWritesReadable (hWhole hField) fun items hArray item hIn => ?_
        exact hItems items hArray item hIn (hField.of_part fun hPart => hArray ▸ .item hIn hPart)

/-- Wherever a run of changes has led to a registry that validates, and whose declarations bear
identifiers as their names, the reader with the default options accepts what the writer with the
default options gives for an instance, however the instance was built, provided that nothing is
amiss that only the reader sees. -/
theorem exists_decode_of_encode {changes : List Change}
    (hValid : (Session.initial.run changes).registry.validate = .ok ())
    (hNames : (Session.initial.run changes).registry.HasIdentifiers) {x : Resource}
    (hLegible : (Session.initial.run changes).registry.IsLegible (.concept x)) {json : Json}
    (hWritten : (standard (Session.initial.run changes).registry).encode x = .ok json)
    (now : DateTime) :
    ∃ y, (Decoder.standard (Session.initial.run changes).registry now).decode json = .ok y := by
  have hStrict := Registry.isStrict_of_validate hValid
  have hValues (name : String) (value : Value) (hGet : x.get? name = some value) :
      PropertyWritesReadable (Session.initial.run changes).registry value := by
    have hField : (Session.initial.run changes).registry.IsLegible value :=
      hLegible.of_part fun hPart => .field (Table.mem_of_find? hGet) hPart
    refine propertyWritesReadable (writesReadable hStrict hNames value hField) ?_
    intro items hArray item hIn
    exact writesReadable hStrict hNames item
      (hField.of_part fun hPart => hArray ▸ .item hIn hPart)
  obtain ⟨members, rfl, hClass, _, hReads⟩ :=
    exists_decodeResource hStrict hLegible hValues (mayWrite_of_encode hWritten)
  obtain ⟨y, hRead⟩ := hReads now .root
  refine ⟨y, ?_⟩
  rw [Decoder.decode]
  simp only [hClass, Option.bind_some, Json.string?]
  exact hRead

/-! ## Empty identifiers -/

/-- What is written for an instance whose identifier is empty cannot be read. -/
theorem decode_ne_ok_of_empty (hStrict : r.IsStrict) (hFound : r.index.class? x.fqn = some c)
    {field : String} (hField : c.identifier = some field)
    (hEmpty : x.get? field = some (.string "")) (hWritten : (standard r).encode x = .ok json)
    (now : DateTime) (y : Resource) : (Decoder.standard r now).decode json ≠ .ok y := by
  intro hRead
  have hResolves := TypeIndex.resolves_of_class? hStrict.files hStrict.index hFound
  have hFqn : c.fqn = x.fqn := (TypeIndex.mem_of_class? hFound).2
  obtain ⟨found, members, hSame, _, hMembers, rfl⟩ := (mayWrite_of_encode hWritten).resource
  obtain rfl := Option.some.inj (hFound.symm.trans hSame)
  have hAll := hMembers.hasMembers (hResolves.nodup_properties hStrict.files)
  have hName : ((instanceMembers c members).lookup classKey).bind Json.string? = some x.fqn := by
    rw [lookup_classKey]
    exact congrArg some hFqn
  have hObject : (standard r).headMembers c x ++ members = instanceMembers c members := rfl
  rw [hObject, Decoder.decode] at hRead
  simp only [hName] at hRead
  obtain ⟨found, start, hSame, hConcrete, _, hMade, hY, hComplete⟩ :=
    Decoder.decodeResource_eq_ok.mp hRead
  obtain rfl := Option.some.inj (hFound.symm.trans hSame)
  have hClass : r.index.class? (qualify c.space c.name) = some c := by
    rw [hStrict.qualify_of_class? hFound]
    exact hFound
  have hNew := Decoder.isNew_of_newInstance hClass hConcrete hMade
  obtain ⟨text, hText, hIdentifier⟩ := exists_identifier_read hStrict hFound hAll
    (Decoder.isRead_of_decodeMembers hY) hNew.identifierField hField
  rw [hEmpty] at hText
  cases hText
  obtain ⟨id, hId, hNotEmpty⟩ := (Decoder.checkComplete_eq_ok.mp hComplete).2
    (by rw [ResolvedClass.isIdentified, hField]; rfl)
  rw [hIdentifier] at hId
  exact hNotEmpty (Option.some.inj hId).symm

end Encoder

/-! ## Owners and cars of garages -/

namespace Garage

theorem hasIdentifiers_registry : registry.HasIdentifiers := by decide +kernel

theorem isLegible_owner : registry.IsLegible (.concept owner) where
  instants t hPart := by
    cases hPart with
    | field hMem hPart =>
        rw [owner, ownerOf, List.mem_singleton] at hMem
        subst hMem
        cases hPart
  pointers pointer hPart := by
    cases hPart with
    | field hMem hPart =>
        rw [owner, ownerOf, List.mem_singleton] at hMem
        subst hMem
        cases hPart
        decide
  instances x hPart c hFound := by
    cases hPart with
    | refl =>
        obtain rfl : ownerClass = c := Option.some.inj hFound
        refine ⟨fun p hMem => ?_, nofun⟩
        rcases List.mem_cons.mp hMem with rfl | hMem
        · exact ⟨_, rfl⟩
        · rw [List.mem_singleton.mp hMem]
          exact ⟨_, rfl⟩
    | field hMem hPart =>
        rw [owner, ownerOf, List.mem_singleton] at hMem
        subst hMem
        cases hPart

/-- A car with an identifier. -/
def carOf (id : String) : Resource := ⟨space, "Car", some "vin", [("vin", .string id)]⟩

/-- The tree of a car. -/
def carTree (id : String) : Json :=
  .object [(classKey, .string carClass.fqn), ("vin", .string id)]

theorem encode_carOf (id : String) :
    (Encoder.standard registry).encode (carOf id) = .ok (carTree id) := by
  refine Encoder.encode_of_single rfl rfl rfl (rfl : carClass.properties = [vin, plate, colour]) rfl
    rfl ?_ ?_
  · intro q hMem
    rcases List.mem_cons.mp hMem with rfl | hMem
    · exact ⟨rfl, rfl, rfl⟩
    · rw [List.mem_singleton.mp hMem]
      exact ⟨rfl, rfl, rfl⟩
  · rw [Encoder.encodeProperty.eq_def, if_neg (by decide), Encoder.encodeItem.eq_def]
    exact .lift rfl

end Garage

namespace Encoder

/-- What is written for an owner can be read. -/
theorem exists_decode_owner :
    (standard Garage.registry).encode Garage.owner =
      .ok (Garage.ownerTree (.string "resource:garage@1.0.0.Car#V1")) ∧
    ∃ y, (Decoder.standard Garage.registry ⟨0, 0, 0⟩).decode
      (Garage.ownerTree (.string "resource:garage@1.0.0.Car#V1")) = .ok y := by
  refine ⟨Garage.encode_owner, ?_⟩
  rw [← Garage.run_model]
  exact exists_decode_of_encode Garage.validate_run
    (Garage.run_model ▸ Garage.hasIdentifiers_registry) (Garage.run_model ▸ Garage.isLegible_owner)
    (Garage.run_model ▸ Garage.encode_owner) ⟨0, 0, 0⟩

/-- A car whose identifier is empty is written, and what is written cannot be read. -/
theorem decode_ne_ok_car :
    Garage.registry.validate = .ok () ∧
    (standard Garage.registry).encode (Garage.carOf "") = .ok (Garage.carTree "") ∧
    ∀ now y, (Decoder.standard Garage.registry now).decode (Garage.carTree "") ≠ .ok y := by
  have hStrict : Garage.registry.IsStrict :=
    Garage.run_model ▸ Registry.isStrict_of_validate
      (Garage.run_model ▸ Garage.validate_registry)
  exact ⟨Garage.validate_registry, Garage.encode_carOf "", decode_ne_ok_of_empty hStrict
    (x := Garage.carOf "") (c := Garage.carClass) rfl rfl rfl (Garage.encode_carOf "")⟩

end Encoder

end DomainModels
