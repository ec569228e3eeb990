import DomainModels.Proofs.DateTime.Text
import DomainModels.Proofs.Registry.Types
import DomainModels.Wire.Decode

/-!
Instances that fit the types of a registry.

An instance fits when each of its values fits the property that it is held for, when nothing that is
required is missing, and when it holds whatever its class gives to new instances.
-/

namespace DomainModels

/-- The values of the primitive types. A double is a number, and an instant exists. -/
inductive PrimitiveType.Holds : PrimitiveType → Value → Prop where
  | string (text : String) : Holds .string (.string text)
  | boolean (b : Bool) : Holds .boolean (.boolean b)
  | integer (i : Int64) : Holds .integer (.integer i)
  | long (i : Int64) : Holds .long (.long i)
  | double {x : Float} (hFinite : x.isFinite = true) : Holds .double (.double x)
  | dateTime {t : DateTime} (hProper : t.IsProper) : Holds .dateTime (.dateTime t)

/-- Values of a primitive type that pass its check. -/
structure ValueType.Fits (type : ValueType) (value : Value) : Prop where
  holds : type.primitive.Holds value
  checked : type.check .root value = .ok ()

/-- Keys of maps are values of the type of the keys. A text that is a key does not belong to the
system. -/
structure ValueType.FitsKey (type : ValueType) (key : Value) : Prop extends type.Fits key where
  name : ∀ text, key = .string text → isSystemName text = false

/-- What an instance of a class looks like, whatever its values are. -/
structure Resource.IsInstanceOf (x : Resource) (c : ResolvedClass) : Prop where
  concrete : c.isAbstract = false
  space : x.space = c.space
  typeName : x.typeName = c.name
  identifierField : x.identifierField = c.identifier
  sorted : Table.Sorted x.values
  names : ∀ name, x.contains name = true →
    ∃ p ∈ c.properties, p.name = name ∧ Decoder.isShadowed c p = false
  complete : ∀ p ∈ c.properties, p.isOptional = true ∨ x.contains p.name = true ∨
    Decoder.isShadowed c p = true
  defaults : ∀ p ∈ c.properties, ∃ default, p.default? = .ok default ∧
    (default.isSome = true → x.contains p.name = true)
  timestamp : c.isTimestamped = true → x.contains timestampField = true
  identifier : c.isIdentified = true → ∃ id, x.identifier? = some id ∧ id ≠ ""

/-- Every value of an instance is held for a property of the class. -/
theorem Resource.IsInstanceOf.exists_property {x : Resource} {c : ResolvedClass}
    (hInstance : x.IsInstanceOf c) :
    ∀ field ∈ x.values, ∃ p ∈ c.properties, p.name = field.1 := by
  rintro ⟨name, value⟩ hMem
  have hHas : x.contains name = true :=
    Option.isSome_iff_exists.mpr ⟨value, Table.find?_of_mem hInstance.sorted hMem⟩
  obtain ⟨p, hP, hName, _⟩ := hInstance.names name hHas
  exact ⟨p, hP, hName⟩

mutual

/-- A value fits the type of one item. -/
inductive Registry.FitsItem (r : Registry) : ResolvedType → Value → Prop where
  | value {type : ResolvedType} {v : ValueType} {value : Value} (hType : type.value? = some v)
      (hFits : v.Fits value) : FitsItem r type value
  | enum {target : String} {default : Option String} {d : Declaration} {values : List EnumValue}
      {name : String} (hType : r.getType target = .ok d) (hBody : d.body = .enumBody values)
      (hHas : hasEnumValue values name = true) :
      FitsItem r (.declared target default) (.enum name)
  | concept {target : String} {default : Option String} {d : Declaration} {body : ClassBody}
      {x : Resource} (hType : r.getType target = .ok d) (hBody : d.body = .classBody body)
      (hAssignable : r.index.isAssignable x.fqn target = true) (hFits : FitsResource r x) :
      FitsItem r (.declared target default) (.concept x)
  | map {target : String} {default : Option String} {d : Declaration} {key value : PropertyType}
      {m : ResolvedMap} {keyType : ValueType} {entries : List (Value × Value)}
      (hType : r.getType target = .ok d) (hBody : d.body = .mapBody key value)
      (hMap : r.index.map? target = some m) (hKey : m.key.type.value? = some keyType)
      (hKeys : ∀ entry ∈ entries, keyType.FitsKey entry.1)
      (hDistinct : (entries.filterMap (·.1.string?)).Nodup)
      (hFits : ∀ entry ∈ entries, FitsItem r m.value.type entry.2) :
      FitsItem r (.declared target default) (.map entries)
  | relationship {target : String} {pointer : Relationship} (hProper : pointer.IsProper)
      (hAssignable : r.index.isAssignable pointer.fqn target = true) :
      FitsItem r (.relationship target) (.relationship pointer)

/-- A value fits a property, which holds one item or an array of them. -/
inductive Registry.FitsProperty (r : Registry) : ResolvedProperty → Value → Prop where
  | item {p : ResolvedProperty} {value : Value} (hSingle : p.isArray = false)
      (hFits : FitsItem r p.type value) : FitsProperty r p value
  | array {p : ResolvedProperty} {items : List Value} (hArray : p.isArray = true)
      (hFits : ∀ item ∈ items, FitsItem r p.type item) : FitsProperty r p (.array items)

/-- An instance fits its class. -/
inductive Registry.FitsResource (r : Registry) : Resource → Prop where
  | mk {x : Resource} {c : ResolvedClass} (hClass : r.index.class? x.fqn = some c)
      (hInstance : x.IsInstanceOf c)
      (hFits : ∀ p ∈ c.properties, ∀ value, x.get? p.name = some value →
        FitsProperty r p value) : FitsResource r x

end

/-! ## Parts -/

/-- A value is a part of another one. -/
inductive Value.IsPart (part : Value) : Value → Prop where
  | refl : IsPart part part
  | item {items : List Value} {item : Value} (hMem : item ∈ items) (hPart : IsPart part item) :
      IsPart part (.array items)
  | key {entries : List (Value × Value)} {entry : Value × Value} (hMem : entry ∈ entries)
      (hPart : IsPart part entry.1) : IsPart part (.map entries)
  | entry {entries : List (Value × Value)} {entry : Value × Value} (hMem : entry ∈ entries)
      (hPart : IsPart part entry.2) : IsPart part (.map entries)
  | field {x : Resource} {entry : String × Value} (hMem : entry ∈ x.values)
      (hPart : IsPart part entry.2) : IsPart part (.concept x)

namespace Value

/-- The parts of a value are smaller than the value. -/
theorem sizeOf_item {items : List Value} {item : Value} (hMem : item ∈ items) :
    sizeOf item < sizeOf (Value.array items) := by
  have hSmaller := List.sizeOf_lt_of_mem hMem
  simp only [array.sizeOf_spec]
  omega

theorem sizeOf_entry {entries : List (Value × Value)} {entry : Value × Value}
    (hMem : entry ∈ entries) : sizeOf entry.2 < sizeOf (Value.map entries) := by
  have hSmaller := List.sizeOf_lt_of_mem hMem
  obtain ⟨key, item⟩ := entry
  simp only [Prod.mk.sizeOf_spec, map.sizeOf_spec] at hSmaller ⊢
  omega

theorem sizeOf_field {x : Resource} {field : String × Value} (hMem : field ∈ x.values) :
    sizeOf field.2 < sizeOf (Value.concept x) := by
  have hSmaller := List.sizeOf_lt_of_mem hMem
  obtain ⟨name, value⟩ := field
  obtain ⟨space, typeName, identifierField, values⟩ := x
  simp only [Prod.mk.sizeOf_spec, concept.sizeOf_spec, Resource.mk.sizeOf_spec] at hSmaller ⊢
  omega

/-- What holds of a value whenever it holds of the items, the entries and the fields in it, holds of
every value. -/
theorem inductionOn_parts {motive : Value → Prop}
    (hParts : ∀ value,
      (∀ items, value = .array items → ∀ item ∈ items, motive item) →
      (∀ entries, value = .map entries → ∀ entry ∈ entries, motive entry.2) →
      (∀ x, value = .concept x → ∀ field ∈ x.values, motive field.2) → motive value)
    (value : Value) : motive value := by
  refine hParts value ?_ ?_ ?_
  · intro items hArray item hMem
    have hSmaller : sizeOf item < sizeOf value := hArray ▸ sizeOf_item hMem
    exact inductionOn_parts hParts item
  · intro entries hMap entry hMem
    have hSmaller : sizeOf entry.2 < sizeOf value := hMap ▸ sizeOf_entry hMem
    exact inductionOn_parts hParts entry.2
  · intro x hConcept field hMem
    have hSmaller : sizeOf field.2 < sizeOf value := hConcept ▸ sizeOf_field hMem
    exact inductionOn_parts hParts field.2
termination_by sizeOf value
decreasing_by all_goals exact hSmaller

/-- A field holds an item or an array of them: in both cases, what is to be shown of a value is
known of the items. -/
theorem inductionOn_fields {motive : Value → Prop}
    (hParts : ∀ value,
      (∀ entries, value = .map entries → ∀ entry ∈ entries, motive entry.2) →
      (∀ x, value = .concept x → ∀ field ∈ x.values,
        motive field.2 ∧ ∀ items, field.2 = .array items → ∀ item ∈ items, motive item) →
      motive value)
    (value : Value) : motive value := by
  have hBoth : motive value ∧ ∀ items, value = .array items → ∀ item ∈ items, motive item := by
    induction value using inductionOn_parts with
    | hParts value hItems hEntries hFields =>
        refine ⟨hParts value (fun entries hMap entry hMem => ?_) hFields,
          fun items hArray item hMem => ?_⟩
        · exact (hEntries entries hMap entry hMem).1
        · exact (hItems items hArray item hMem).1
  exact hBoth.1

end Value

/-- The instant at no offset. Two of these are the same for the same instant. -/
def DateTime.inUtc (t : DateTime) : DateTime := { t with offset := 0 }

/-- Values whose wire texts keep them: the instants have texts of their own, also where they are the
keys of a map. -/
structure Value.IsPortable (value : Value) : Prop where
  instants : ∀ t, IsPart (.dateTime t) value → t.IsPortable
  keys : ∀ entries, IsPart (.map entries) value →
    entries.Pairwise fun a b => ∀ s t, a.1 = .dateTime s → b.1 = .dateTime t → s.inUtc ≠ t.inUtc

mutual

/-- A value whose instants are at no offset. -/
def Value.inUtc : Value → Value
  | .dateTime t => .dateTime t.inUtc
  | .array items => .array (Value.inUtcItems items)
  | .map entries => .map (Value.inUtcEntries entries)
  | .concept x => .concept x.inUtc
  | value => value

def Value.inUtcItems : List Value → List Value
  | [] => []
  | item :: rest => item.inUtc :: Value.inUtcItems rest

def Value.inUtcEntries : List (Value × Value) → List (Value × Value)
  | [] => []
  | (key, item) :: rest => (key.inUtc, item.inUtc) :: Value.inUtcEntries rest

def Resource.inUtc : Resource → Resource
  | ⟨space, typeName, identifierField, values⟩ =>
    ⟨space, typeName, identifierField, Value.inUtcFields values⟩

def Value.inUtcFields : List (String × Value) → List (String × Value)
  | [] => []
  | (name, value) :: rest => (name, value.inUtc) :: Value.inUtcFields rest

end

namespace Value

theorem inUtcFields_eq (fields : List (String × Value)) :
    inUtcFields fields = fields.map fun field => (field.1, field.2.inUtc) := by
  induction fields with
  | nil => rfl
  | cons field rest ih => rw [inUtcFields, ih, List.map_cons]

theorem string?_inUtc (value : Value) : value.inUtc.string? = value.string? := by
  cases value <;> simp [inUtc, string?]

/-- The parts of portable values are portable. -/
theorem IsPortable.of_part {value part : Value} (hPortable : value.IsPortable)
    (hPart : ∀ inner : Value, inner.IsPart part → inner.IsPart value) : part.IsPortable where
  instants := fun t hInner => hPortable.instants t (hPart _ hInner)
  keys := fun entries hInner => hPortable.keys entries (hPart _ hInner)

end Value

namespace Resource

variable {x : Resource}

theorem values_inUtc (x : Resource) :
    x.inUtc.values = x.values.map fun field => (field.1, field.2.inUtc) := by
  obtain ⟨space, typeName, identifierField, values⟩ := x
  exact Value.inUtcFields_eq values

theorem sorted_inUtc (hSorted : Table.Sorted x.values) : Table.Sorted x.inUtc.values := by
  rw [values_inUtc]
  exact List.pairwise_map.mpr hSorted

theorem get?_inUtc (x : Resource) (name : String) :
    x.inUtc.get? name = (x.get? name).map Value.inUtc := by
  unfold get?
  rw [values_inUtc]
  induction x.values with
  | nil => rfl
  | cons field rest ih =>
      obtain ⟨first, value⟩ := field
      rw [List.map_cons, Table.find?_cons, Table.find?_cons, ih]
      split <;> rfl

theorem contains_inUtc (x : Resource) (name : String) :
    x.inUtc.contains name = x.contains name := by
  show (x.inUtc.get? name).isSome = (x.get? name).isSome
  rw [get?_inUtc, Option.isSome_map]

theorem identifier?_inUtc (x : Resource) : x.inUtc.identifier? = x.identifier? := by
  have hField : x.inUtc.identifierField = x.identifierField := by
    obtain ⟨space, typeName, identifierField, values⟩ := x
    rfl
  have hText (held : Option Value) :
      (held.map Value.inUtc).bind Value.string? = held.bind Value.string? := by
    cases held with
    | none => rfl
    | some value => exact Value.string?_inUtc value
  rw [identifier?, identifier?, hField]
  simp only [get?_inUtc, hText]

/-- An instance is known by what is held for each name. -/
theorem eq_inUtc {y : Resource} (hSpace : y.space = x.space) (hType : y.typeName = x.typeName)
    (hField : y.identifierField = x.identifierField) (hX : Table.Sorted x.values)
    (hY : Table.Sorted y.values) (hGet : ∀ name, y.get? name = (x.get? name).map Value.inUtc) :
    y = x.inUtc := by
  have hValues : y.values = x.inUtc.values :=
    Table.eq_of_find?_eq hY (sorted_inUtc hX) fun name => (hGet name).trans (get?_inUtc x name).symm
  obtain ⟨space, typeName, identifierField, values⟩ := x
  obtain ⟨_, _, _, _⟩ := y
  cases hSpace
  cases hType
  cases hField
  cases hValues
  rfl

end Resource

end DomainModels
