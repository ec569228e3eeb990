import DomainModels.Proofs.Instance.Factory
import DomainModels.Proofs.Json.Tree

/-!
Reading the members of an object into an instance, step by step.

What an instance holds afterwards is what was read from a member, or what it has held before.
-/

namespace DomainModels.Decoder

/-- The reader with the default options. -/
def standard (r : Registry) (now : DateTime) : Decoder := ⟨r, now, .default⟩

variable {r : Registry} {now : DateTime} {c : ResolvedClass} {path : Path}
  {members : List (String × Json)} {properties : List ResolvedProperty} {start x : Resource}

/-! ## Shadowed identifiers -/

theorem isShadowed_eq_true {p : ResolvedProperty} : isShadowed c p = true ↔
    p.name = identifierField ∧ ∃ field, c.identifier = some field ∧ field ≠ identifierField := by
  unfold isShadowed ResolvedClass.isExplicitlyIdentified
  cases c.identifier <;> simp

/-- The identifier that a class has is not shadowed. -/
theorem isShadowed_of_identifier {p : ResolvedProperty} (hField : c.identifier = some p.name) :
    isShadowed c p = false := by
  cases hShadowed : isShadowed c p with
  | false => rfl
  | true =>
      obtain ⟨hName, field, hOther, hDeclared⟩ := isShadowed_eq_true.mp hShadowed
      rw [hField] at hOther
      cases hOther
      exact absurd hName hDeclared

theorem isShadowed_of_name {p : ResolvedProperty} (hName : p.name ≠ identifierField) :
    isShadowed c p = false := by
  cases hShadowed : isShadowed c p with
  | false => rfl
  | true => exact absurd (isShadowed_eq_true.mp hShadowed).1 hName

/-! ## The checks -/

/-- No member has a reserved name, and none is undeclared. -/
theorem checkMembers_eq_ok : checkMembers c path members = .ok () ↔
    ∀ member ∈ members,
      isReservedMember c member = false ∧ isUndeclaredMember c member = false := by
  have hNone {p : String × Json → Bool} :
      (members.filter p).map (·.1) = [] ↔ ∀ member ∈ members, p member = false := by
    simp [List.filter_eq_nil_iff]
  unfold checkMembers
  split
  · rename_i name names hSome
    constructor
    · nofun
    · intro hAll
      rw [hNone.mpr fun member hMem => (hAll member hMem).1] at hSome
      cases hSome
  · rename_i hReserved
    have hFirst := hNone.mp hReserved
    split
    · rename_i name names hSome
      constructor
      · nofun
      · intro hAll
        rw [hNone.mpr fun member hMem => (hAll member hMem).2] at hSome
        cases hSome
    · rename_i hUndeclared
      have hSecond := hNone.mp hUndeclared
      exact ⟨fun _ member hMem => ⟨hFirst member hMem, hSecond member hMem⟩, fun _ => rfl⟩

/-- Whatever is required is there, and the identifier is not empty. -/
theorem checkComplete_eq_ok : checkComplete c path x = .ok () ↔
    (∀ p ∈ c.properties, p.isOptional = true ∨ x.contains p.name = true ∨ isShadowed c p = true) ∧
      (c.isIdentified = true → ∃ id, x.identifier? = some id ∧ id ≠ "") := by
  have hEach (p : ResolvedProperty) :
      (if p.isOptional || x.contains p.name || isShadowed c p then (.ok () : Except Failure Unit)
        else .error (.invalidAt (path.field p.name) (.missingValue c.fqn p.name))) = .ok () ↔
      p.isOptional = true ∨ x.contains p.name = true ∨ isShadowed c p = true := by
    rw [← or_assoc]
    split
    · rename_i hHas
      simpa using hHas
    · rename_i hLacks
      simpa using hLacks
  have hIdentifier : (x.identifier?.getD "").isEmpty = false ↔
      ∃ id, x.identifier? = some id ∧ id ≠ "" := by
    cases x.identifier? <;> simp
  unfold checkComplete
  simp only [Outcome.bind_eq_ok, Outcome.exists_unit, Outcome.forM_eq_ok, hEach]
  refine and_congr_right fun _ => ?_
  rw [← hIdentifier]
  cases c.isIdentified <;> cases (x.identifier?.getD "").isEmpty <;> simp

/-! ## The members -/

/-- A member, or none, for a property stands in front of the members for others. It is found under
the name of the property, and the others are found as before. -/
theorem lookup_front {p : ResolvedProperty} (hNew : p.name ∉ properties.map (·.name))
    (hNames : ∀ name ∈ members.map (·.1), ∃ q ∈ properties, q.name = name) (first : Option Json) :
    let front := (first.map fun json => (p.name, json)).toList
    (∀ name ∈ (front ++ members).map (·.1), ∃ q ∈ p :: properties, q.name = name) ∧
      (front ++ members).lookup p.name = first ∧
      ∀ q ∈ properties, (front ++ members).lookup q.name = members.lookup q.name := by
  have hLater : p.name ∉ members.map (·.1) := by
    intro hMem
    obtain ⟨q, hQ, hName⟩ := hNames p.name hMem
    exact hNew (List.mem_map.mpr ⟨q, hQ, hName⟩)
  refine ⟨fun name hMem => ?_, Json.lookup_toList_append_self hLater first, fun q hMem =>
    Json.lookup_toList_append_of_ne (fun hSame => hNew (List.mem_map.mpr ⟨q, hMem, hSame⟩)) first⟩
  rw [List.map_append, List.mem_append] at hMem
  rcases hMem with hMem | hMem
  · have hName : name = p.name := by
      cases first with
      | none => cases hMem
      | some json => exact List.mem_singleton.mp hMem
    exact ⟨p, List.mem_cons_self, hName.symm⟩
  · obtain ⟨q, hQ, hName⟩ := hNames name hMem
    exact ⟨q, List.mem_cons_of_mem _ hQ, hName⟩

/-- What has become of an instance when the members for some properties were read into it. -/
structure IsRead (r : Registry) (now : DateTime) (c : ResolvedClass) (path : Path)
    (members : List (String × Json)) (properties : List ResolvedProperty) (start x : Resource) :
    Prop where
  space : x.space = start.space
  typeName : x.typeName = start.typeName
  identifierField : x.identifierField = start.identifierField
  sorted : Table.Sorted start.values → Table.Sorted x.values
  values : ∀ name, x.get? name = start.get? name ∧
      (∀ p ∈ properties, p.name = name → isShadowed c p = false →
        members.lookup name = none ∨ members.lookup name = some .null) ∨
    ∃ p ∈ properties, p.name = name ∧ isShadowed c p = false ∧
      ∃ json value, members.lookup name = some json ∧ json ≠ .null ∧
        (standard r now).decodeProperty p (path.field name) json = .ok value ∧
        x.get? name = some value

/-- A property for which there is nothing to read changes nothing. -/
theorem IsRead.skip {p : ResolvedProperty}
    (hNothing : isShadowed c p = false →
      members.lookup p.name = none ∨ members.lookup p.name = some .null)
    (hRead : IsRead r now c path members properties start x) :
    IsRead r now c path members (p :: properties) start x where
  space := hRead.space
  typeName := hRead.typeName
  identifierField := hRead.identifierField
  sorted := hRead.sorted
  values := by
    intro name
    rcases hRead.values name with ⟨hSame, hNone⟩ | ⟨q, hMem, hValue⟩
    · refine .inl ⟨hSame, fun q hMem hName hOpen => ?_⟩
      rcases List.mem_cons.mp hMem with rfl | hMem
      · exact hName ▸ hNothing hOpen
      · exact hNone q hMem hName hOpen
    · exact .inr ⟨q, List.mem_cons_of_mem _ hMem, hValue⟩

/-- A property for which a value is read holds it, unless it is read once more. -/
theorem IsRead.put {p : ResolvedProperty} {json : Json} {value : Value}
    (hOpen : isShadowed c p = false) (hFound : members.lookup p.name = some json)
    (hSome : json ≠ .null)
    (hValue : (standard r now).decodeProperty p (path.field p.name) json = .ok value)
    (hRead : IsRead r now c path members properties (start.set p.name value) x) :
    IsRead r now c path members (p :: properties) start x where
  space := hRead.space
  typeName := hRead.typeName
  identifierField := hRead.identifierField
  sorted := fun hSorted => hRead.sorted (Resource.sorted_set hSorted)
  values := by
    intro name
    rcases hRead.values name with ⟨hSame, hNone⟩ | ⟨q, hMem, hLater⟩
    · rw [Resource.get?_set] at hSame
      by_cases hName : name = p.name
      · rw [if_pos hName] at hSame
        subst hName
        exact .inr ⟨p, List.mem_cons_self, rfl, hOpen, json, value, hFound, hSome, hValue, hSame⟩
      · rw [if_neg hName] at hSame
        refine .inl ⟨hSame, fun q hMem hQ hOther => ?_⟩
        rcases List.mem_cons.mp hMem with rfl | hMem
        · exact absurd hQ.symm hName
        · exact hNone q hMem hQ hOther
    · exact .inr ⟨q, List.mem_cons_of_mem _ hMem, hLater⟩

theorem isRead_of_decodeMembers
    (hRead : (standard r now).decodeMembers c path members start properties = .ok x) :
    IsRead r now c path members properties start x := by
  induction properties generalizing start with
  | nil =>
      rw [decodeMembers] at hRead
      cases hRead
      exact ⟨rfl, rfl, rfl, id, fun name => .inl ⟨rfl, by simp⟩⟩
  | cons p rest ih =>
      unfold decodeMembers at hRead
      split at hRead
      · rename_i hShadowed
        refine (ih hRead).skip fun hOpen => ?_
        rw [hShadowed] at hOpen
        cases hOpen
      · rename_i hOpen
        split at hRead
        · rename_i hNone
          exact (ih hRead).skip fun _ => .inl hNone
        · rename_i hNull
          exact (ih hRead).skip fun _ => .inr hNull
        · rename_i json hSome hFound
          simp only [Outcome.bind_eq_ok] at hRead
          obtain ⟨value, hValue, hRead⟩ := hRead
          exact (ih hRead).put (by simpa using hOpen) hFound hSome hValue

/-- Reading takes nothing away. -/
theorem IsRead.contains (hRead : IsRead r now c path members properties start x) {name : String}
    (hHas : start.contains name = true) : x.contains name = true := by
  rcases hRead.values name with ⟨hSame, _⟩ | ⟨_, _, _, _, _, value, _, _, _, hGet⟩
  · rw [Resource.contains_eq_true] at hHas ⊢
    rwa [hSame]
  · exact Resource.contains_eq_true.mpr ⟨value, hGet⟩

/-- The members can be read when each of them can be. -/
theorem exists_decodeMembers (start : Resource)
    (hEach : ∀ p ∈ properties, ∀ json, isShadowed c p = false → members.lookup p.name = some json →
      json ≠ .null →
      ∃ value, (standard r now).decodeProperty p (path.field p.name) json = .ok value) :
    ∃ x, (standard r now).decodeMembers c path members start properties = .ok x := by
  induction properties generalizing start with
  | nil =>
      refine ⟨start, ?_⟩
      rw [decodeMembers]
  | cons p rest ih =>
      have hRest (next : Resource) := ih next fun q hMem => hEach q (List.mem_cons_of_mem _ hMem)
      unfold decodeMembers
      split
      · exact hRest start
      · rename_i hOpen
        split
        · exact hRest start
        · exact hRest start
        · rename_i json hSome hFound
          obtain ⟨value, hValue⟩ :=
            hEach p List.mem_cons_self json (by simpa using hOpen) hFound hSome
          rw [hValue]
          exact hRest (start.set p.name value)

/-! ## Whole objects -/

/-- An object is read into a new instance of its class, member by member, and then it is seen
whether all is there. -/
theorem decodeResource_eq_ok {fqn : String} :
    (standard r now).decodeResource fqn path members = .ok x ↔
      ∃ c start, r.index.class? fqn = some c ∧ c.isAbstract = false ∧
        checkMembers c path members = .ok () ∧
        (standard r now).newInstance c members = .ok start ∧
        (standard r now).decodeMembers c path members start c.properties = .ok x ∧
        checkComplete c path x = .ok () := by
  have hValidate : (standard r now).options.validate = true := rfl
  have hRegistry : (standard r now).registry = r := rfl
  unfold decodeResource
  simp only [hValidate, hRegistry, if_true, Outcome.bind_eq_ok, Registry.resolvedClass_eq_ok]
  refine exists_congr fun c => ?_
  constructor
  · rintro ⟨hFound, hRead⟩
    split at hRead
    · simp at hRead
    · rename_i hConcrete
      simp only [Outcome.bind_eq_ok, Outcome.exists_unit, Outcome.pure_eq_ok] at hRead
      obtain ⟨hChecked, start, hNew, y, hMembers, hComplete, rfl⟩ := hRead
      exact ⟨start, hFound, by simpa using hConcrete, hChecked, hNew, hMembers, hComplete⟩
  · rintro ⟨start, hFound, hConcrete, hChecked, hNew, hMembers, hComplete⟩
    refine ⟨hFound, ?_⟩
    simp only [hConcrete, Bool.false_eq_true, if_false, Outcome.bind_eq_ok, Outcome.exists_unit,
      Outcome.pure_eq_ok]
    exact ⟨hChecked, start, hNew, x, hMembers, hComplete, rfl⟩

/-! ## Items -/

/-- Where a primitive type is declared, a primitive value is read. -/
theorem decodeItem_of_valueType {d : Decoder} {p : ResolvedProperty} {v : ValueType}
    (hType : p.type.value? = some v) (path : Path) (json : Json) :
    d.decodeItem p path json = d.decodeValue v path json := by
  rw [decodeItem.eq_def]
  cases hResolved : p.type with
  | value type =>
      rw [hResolved] at hType
      cases hType
      rfl
  | scalar target type =>
      rw [hResolved] at hType
      cases hType
      rfl
  | _ =>
      rw [hResolved] at hType
      cases hType

section

variable {p : ResolvedProperty} {target : String} {default : Option String}
  {declaration : Declaration} (hType : p.type = .declared target default)
  (hDeclared : r.getType target = .ok declaration)

include hType hDeclared

/-- Where an enumeration is declared, the name of a value is read. -/
theorem decodeItem_of_enumBody {values : List EnumValue}
    (hBody : declaration.body = .enumBody values) (path : Path) (json : Json) :
    (standard r now).decodeItem p path json =
      (standard r now).decodeEnum target values path json := by
  have hRegistry : (standard r now).registry = r := rfl
  rw [decodeItem.eq_def, hType]
  simp only [hRegistry, hDeclared, bind, Except.bind, hBody]

/-- Where a class is declared, an object is read as an instance. -/
theorem decodeItem_of_classBody {body : ClassBody} (hBody : declaration.body = .classBody body)
    (path : Path) (members : List (String × Json)) :
    (standard r now).decodeItem p path (.object members) =
      .concept <$> (standard r now).decodeNested target path members := by
  have hRegistry : (standard r now).registry = r := rfl
  rw [decodeItem.eq_def, hType]
  simp only [hRegistry, hDeclared, bind, Except.bind, hBody]

/-- Where a map is declared, an object is read as a map. -/
theorem decodeItem_of_mapBody {key value : PropertyType}
    (hBody : declaration.body = .mapBody key value) (path : Path)
    (members : List (String × Json)) :
    (standard r now).decodeItem p path (.object members) =
      (standard r now).decodeMap target path members := by
  have hRegistry : (standard r now).registry = r := rfl
  rw [decodeItem.eq_def, hType]
  simp only [hRegistry, hDeclared, bind, Except.bind, hBody]

end

/-- A map is read when its entries are. -/
theorem decodeMap_of_entries {target : String} {m : ResolvedMap} {keyType : ValueType}
    {entries : List (Value × Value)} (hMap : r.index.map? target = some m)
    (hKey : m.key.type.value? = some keyType)
    (hEntries : (standard r now).decodeEntries keyType m.value path members = .ok entries) :
    (standard r now).decodeMap target path members = .ok (.map entries) := by
  have hRegistry : (standard r now).registry = r := rfl
  rw [decodeMap, hRegistry]
  refine Outcome.bind_eq_ok.mpr ⟨m, Registry.resolvedMap_eq_ok.mpr hMap, ?_⟩
  rw [hKey]
  exact Outcome.map_eq_ok.mpr ⟨entries, hEntries, rfl⟩

end DomainModels.Decoder
