import DomainModels.Proofs.Registry.Types
import DomainModels.Wire.Decode

/-!
New instances.

A new instance holds the defaults of its class, its time stamp and its identifier, and nothing else.
-/

namespace DomainModels

namespace Resource

variable {x : Resource} {name other : String} {value : Value}

theorem get?_set :
    (x.set name value).get? other = if other = name then some value else x.get? other :=
  Table.find?_put x.values name other value

theorem contains_eq_true : x.contains name = true ↔ ∃ value, x.get? name = some value :=
  Option.isSome_iff_exists

theorem contains_set_of_contains (hHas : x.contains other = true) :
    (x.set name value).contains other = true := by
  obtain ⟨found, hFound⟩ := contains_eq_true.mp hHas
  rw [contains_eq_true, get?_set, hFound]
  split
  · exact ⟨value, rfl⟩
  · exact ⟨found, rfl⟩

theorem contains_set_self : (x.set name value).contains name = true :=
  contains_eq_true.mpr ⟨value, by rw [get?_set, if_pos rfl]⟩

theorem sorted_set (hSorted : Table.Sorted x.values) : Table.Sorted (x.set name value).values :=
  Table.sorted_put hSorted name value

end Resource

namespace Registry

variable {c : ResolvedClass} {now : DateTime} {x y : Resource}

/-! ## Defaults -/

/-- The defaults can be set when each of them is a value. -/
theorem exists_setDefaults {properties : List ResolvedProperty} (x : Resource)
    (hDefaults : ∀ p ∈ properties, ∃ default, p.default? = .ok default) :
    ∃ y, setDefaults properties x = .ok y := by
  induction properties generalizing x with
  | nil => exact ⟨x, rfl⟩
  | cons p rest ih =>
      obtain ⟨default, hDefault⟩ := hDefaults p List.mem_cons_self
      have hRest := fun q hMem => hDefaults q (List.mem_cons_of_mem _ hMem)
      simp only [setDefaults, hDefault]
      cases default with
      | none => exact ih x hRest
      | some value => exact ih (x.set p.name value) hRest

/-- What is held once the defaults are set. -/
structure HasDefaults (properties : List ResolvedProperty) (x y : Resource) : Prop where
  space : y.space = x.space
  typeName : y.typeName = x.typeName
  identifierField : y.identifierField = x.identifierField
  sorted : Table.Sorted x.values → Table.Sorted y.values
  defined : ∀ p ∈ properties, ∃ default, p.default? = .ok default
  values : ∀ name, y.get? name = x.get? name ∧
      (∀ p ∈ properties, p.name = name → p.default? = .ok none) ∨
    ∃ p ∈ properties, p.name = name ∧ ∃ value, p.default? = .ok (some value) ∧
      y.get? name = some value

theorem hasDefaults_of_setDefaults {properties : List ResolvedProperty}
    (hSet : setDefaults properties x = .ok y) : HasDefaults properties x y := by
  induction properties generalizing x with
  | nil =>
      cases hSet
      exact ⟨rfl, rfl, rfl, id, by simp, fun name => .inl ⟨rfl, by simp⟩⟩
  | cons p rest ih =>
      simp only [setDefaults, Outcome.bind_eq_ok] at hSet
      obtain ⟨default, hDefault, hSet⟩ := hSet
      have hDefined (hRest : ∀ q ∈ rest, ∃ default, q.default? = .ok default) :
          ∀ q ∈ p :: rest, ∃ default, q.default? = .ok default := by
        intro q hMem
        rcases List.mem_cons.mp hMem with rfl | hMem
        · exact ⟨default, hDefault⟩
        · exact hRest q hMem
      cases default with
      | none =>
          obtain ⟨hSpace, hType, hField, hSorted, hRest, hValues⟩ := ih hSet
          refine ⟨hSpace, hType, hField, hSorted, hDefined hRest, fun name => ?_⟩
          rcases hValues name with ⟨hSame, hNone⟩ | ⟨q, hMem, hName, value, hValue⟩
          · refine .inl ⟨hSame, fun q hMem hName => ?_⟩
            rcases List.mem_cons.mp hMem with rfl | hMem
            · exact hDefault
            · exact hNone q hMem hName
          · exact .inr ⟨q, List.mem_cons_of_mem _ hMem, hName, value, hValue⟩
      | some value =>
          obtain ⟨hSpace, hType, hField, hSorted, hRest, hValues⟩ := ih hSet
          refine ⟨hSpace, hType, hField, fun h => hSorted (Resource.sorted_set h), hDefined hRest,
            fun name => ?_⟩
          rcases hValues name with ⟨hSame, hNone⟩ | ⟨q, hMem, hName, other, hValue⟩
          · rw [Resource.get?_set] at hSame
            by_cases hName : name = p.name
            · rw [if_pos hName] at hSame
              exact .inr ⟨p, List.mem_cons_self, hName.symm, value, hDefault, hSame⟩
            · rw [if_neg hName] at hSame
              refine .inl ⟨hSame, fun q hMem hQ => ?_⟩
              rcases List.mem_cons.mp hMem with rfl | hMem
              · exact absurd hQ.symm hName
              · exact hNone q hMem hQ
          · exact .inr ⟨q, List.mem_cons_of_mem _ hMem, hName, other, hValue⟩

/-! ## New instances -/

/-- An instance of a class that holds the defaults. -/
structure IsFilled (c : ResolvedClass) (x : Resource) : Prop where
  space : x.space = c.space
  typeName : x.typeName = c.name
  identifierField : x.identifierField = c.identifier
  sorted : Table.Sorted x.values
  defaults : ∀ p ∈ c.properties, ∃ default, p.default? = .ok default ∧
    (default.isSome = true → x.contains p.name = true)

/-- Setting a value takes nothing away. -/
theorem IsFilled.set (hFilled : IsFilled c x) (name : String) (value : Value) :
    IsFilled c (x.set name value) where
  space := hFilled.space
  typeName := hFilled.typeName
  identifierField := hFilled.identifierField
  sorted := Resource.sorted_set hFilled.sorted
  defaults := by
    intro p hMem
    obtain ⟨default, hDefault, hHas⟩ := hFilled.defaults p hMem
    exact ⟨default, hDefault, fun hSome => Resource.contains_set_of_contains (hHas hSome)⟩

/-- A new instance of a class holds its defaults, the time stamp, and the given identifier if the
class is identified. -/
structure IsNew (c : ResolvedClass) (now : DateTime) (id : String) (x : Resource) : Prop
    extends IsFilled c x where
  timestamp : c.isTimestamped = true → x.contains timestampField = true
  identifier : ∀ field, c.identifier = some field → x.get? field = some (.string id)
  values : ∀ name value, x.get? name = some value → c.identifier = some name ∨
    c.isTimestamped = true ∧ name = timestampField ∧ value = .dateTime now ∨
    ∃ p ∈ c.properties, p.name = name ∧ p.default? = .ok (some value)

theorem isFilled_of_setDefaults
    (hSet : setDefaults c.properties (.empty c.space c.name c.identifier) = .ok x) :
    IsFilled c x ∧ ∀ name value, x.get? name = some value →
      ∃ p ∈ c.properties, p.name = name ∧ p.default? = .ok (some value) := by
  have hDefaults := hasDefaults_of_setDefaults hSet
  refine ⟨⟨hDefaults.space, hDefaults.typeName, hDefaults.identifierField,
    hDefaults.sorted Table.sorted_nil, ?_⟩, ?_⟩
  · intro p hMem
    obtain ⟨default, hDefault⟩ := hDefaults.defined p hMem
    refine ⟨default, hDefault, fun hSome => ?_⟩
    rcases hDefaults.values p.name with ⟨_, hNone⟩ | ⟨_, _, _, value, _, hValue⟩
    · rw [hNone p hMem rfl] at hDefault
      cases hDefault
      cases hSome
    · exact Resource.contains_eq_true.mpr ⟨value, hValue⟩
  · intro name value hGet
    rcases hDefaults.values name with ⟨hSame, _⟩ | ⟨p, hMem, hName, other, hDefault, hValue⟩
    · rw [hSame] at hGet
      cases hGet
    · rw [hGet] at hValue
      cases hValue
      exact ⟨p, hMem, hName, hDefault⟩

/-- What is filled in is a new instance but for the identifier. -/
theorem isFilled_of_fillIn (hFill : fillIn c now (.empty c.space c.name c.identifier) = .ok x) :
    IsFilled c x ∧ (c.isTimestamped = true → x.contains timestampField = true) ∧
      ∀ name value, x.get? name = some value →
        c.isTimestamped = true ∧ name = timestampField ∧ value = .dateTime now ∨
        ∃ p ∈ c.properties, p.name = name ∧ p.default? = .ok (some value) := by
  simp only [fillIn, Outcome.bind_eq_ok, Outcome.pure_eq_ok] at hFill
  obtain ⟨y, hSet, hFill⟩ := hFill
  obtain ⟨hFilled, hSource⟩ := isFilled_of_setDefaults hSet
  split at hFill
  · rename_i hTimed
    subst hFill
    refine ⟨hFilled.set _ _, fun _ => Resource.contains_set_self, ?_⟩
    intro name value hGet
    rw [Resource.get?_set] at hGet
    split at hGet
    · rename_i hName
      cases hGet
      exact .inl ⟨hTimed, hName, rfl⟩
    · exact .inr (hSource name value hGet)
  · rename_i hUntimed
    subst hFill
    exact ⟨hFilled, fun hTimed => absurd hTimed hUntimed,
      fun name value hGet => .inr (hSource name value hGet)⟩

theorem exists_fillIn (hDefaults : ∀ p ∈ c.properties, ∃ default, p.default? = .ok default)
    (now : DateTime) (x : Resource) : ∃ y, fillIn c now x = .ok y := by
  obtain ⟨y, hSet⟩ := exists_setDefaults x hDefaults
  refine ⟨if c.isTimestamped then y.set timestampField (.dateTime now) else y, ?_⟩
  simp only [fillIn, Outcome.bind_eq_ok, Outcome.pure_eq_ok]
  exact ⟨y, hSet, rfl⟩

/-- A new instance with the identifier that it is given, if its class has one. -/
def identified (c : ResolvedClass) (id : String) (x : Resource) : Resource :=
  match c.identifier with
  | some field => x.set field (.string id)
  | none => x

/-- What is filled in and identified is a new instance. -/
theorem isNew_identified (hFill : fillIn c now (.empty c.space c.name c.identifier) = .ok x)
    (id : String) : IsNew c now id (identified c id x) := by
  obtain ⟨hFilled, hTimed, hSource⟩ := isFilled_of_fillIn hFill
  unfold identified
  cases hIdentifier : c.identifier with
  | none => exact ⟨hFilled, hTimed, by simp [hIdentifier], fun name value hGet =>
      .inr (hSource name value hGet)⟩
  | some field =>
      refine ⟨hFilled.set _ _, fun h => Resource.contains_set_of_contains (hTimed h), ?_, ?_⟩
      · rintro _ hField
        rw [hIdentifier] at hField
        cases hField
        rw [Resource.get?_set, if_pos rfl]
      · intro name value hGet
        rw [Resource.get?_set] at hGet
        split at hGet
        · rename_i hName
          exact .inl (by rw [hIdentifier, hName])
        · exact .inr (hSource name value hGet)

section

variable {r : Registry} (hFound : r.index.class? (qualify c.space c.name) = some c)

include hFound

theorem instantiable_eq_ok {found : ResolvedClass} :
    r.instantiable c.space c.name = .ok found ↔ c.isAbstract = false ∧ c = found := by
  simp only [instantiable, resolvedClass_eq_ok.mpr hFound]
  cases hAbstract : c.isAbstract with
  | true => simp [bind, Except.bind, hAbstract]
  | false => simp [bind, Except.bind, hAbstract]

/-- An instance of an identified class is filled in, and then it is given its identifier. -/
theorem newResource_eq_ok {id : String} :
    r.newResource now c.space c.name id = .ok x ↔
      c.isAbstract = false ∧ c.isIdentified = true ∧
        ∃ y, fillIn c now (.empty c.space c.name c.identifier) = .ok y ∧ identified c id y = x := by
  simp only [newResource, Outcome.bind_eq_ok, instantiable_eq_ok hFound, and_assoc,
    exists_and_left, exists_eq_left']
  refine and_congr_right fun _ => ?_
  cases hIdentifier : c.identifier with
  | none => simp [ResolvedClass.isIdentified, hIdentifier]
  | some field =>
      have hSet {y : Resource} (hFill : fillIn c now (.empty c.space c.name (some field)) = .ok y) :
          y.setIdentifier id = .ok (y.set field (.string id)) := by
        have hField := (isFilled_of_fillIn (hIdentifier ▸ hFill)).1.identifierField
        rw [Resource.setIdentifier, hField, hIdentifier]
      simp only [ResolvedClass.isIdentified, hIdentifier, Option.isSome_some, Bool.not_true,
        Bool.false_eq_true, if_false, Outcome.bind_eq_ok, true_and, identified]
      refine exists_congr fun y => and_congr_right fun hFill => ?_
      rw [hSet hFill, Except.ok.injEq]

/-- An instance of a class without an identifier is filled in. -/
theorem newConcept_eq_ok :
    r.newConcept now c.space c.name = .ok x ↔
      c.isAbstract = false ∧ c.isIdentified = false ∧
        fillIn c now (.empty c.space c.name c.identifier) = .ok x := by
  simp only [newConcept, Outcome.bind_eq_ok, instantiable_eq_ok hFound]
  cases hIdentifier : c.identifier with
  | some field => simp [ResolvedClass.isIdentified, hIdentifier]
  | none => simp [ResolvedClass.isIdentified, hIdentifier]

end

end Registry

namespace Decoder

variable {d : Decoder} {c : ResolvedClass} {members : List (String × Json)}

/-- The identifier that the members of an object give. -/
def identifierOf (c : ResolvedClass) (members : List (String × Json)) : String :=
  (c.identifier.bind fun field => (members.lookup field).bind Json.string?).getD ""

/-- A new instance of an indexed class that is not abstract is filled in, and then it is given the
identifier. -/
theorem newInstance_eq_ok (hFound : d.registry.index.class? (qualify c.space c.name) = some c)
    (hConcrete : c.isAbstract = false) {x : Resource} :
    d.newInstance c members = .ok x ↔
      ∃ y, Registry.fillIn c d.now (.empty c.space c.name c.identifier) = .ok y ∧
        Registry.identified c (identifierOf c members) y = x := by
  cases hIdentifier : c.identifier with
  | none =>
      have hPlain : c.isIdentified = false := by rw [ResolvedClass.isIdentified, hIdentifier]; rfl
      have hNew : d.newInstance c members = d.registry.newConcept d.now c.space c.name := by
        rw [newInstance, hIdentifier]
      rw [hNew, Registry.newConcept_eq_ok hFound, hIdentifier]
      simp [hConcrete, hPlain, Registry.identified, hIdentifier]
  | some field =>
      have hIdentified : c.isIdentified = true := by
        rw [ResolvedClass.isIdentified, hIdentifier]
        rfl
      have hNew : d.newInstance c members =
          d.registry.newResource d.now c.space c.name (identifierOf c members) := by
        simp only [newInstance, identifierOf, hIdentifier, Option.bind_some]
      rw [hNew, Registry.newResource_eq_ok hFound, hIdentifier]
      simp [hConcrete, hIdentified]

/-- Whatever the members are, a class whose defaults are values has new instances. -/
theorem exists_newInstance (hFound : d.registry.index.class? (qualify c.space c.name) = some c)
    (hConcrete : c.isAbstract = false)
    (hDefaults : ∀ p ∈ c.properties, ∃ default, p.default? = .ok default) :
    ∃ x, d.newInstance c members = .ok x := by
  obtain ⟨y, hFill⟩ := Registry.exists_fillIn hDefaults d.now (.empty c.space c.name c.identifier)
  exact ⟨_, (newInstance_eq_ok hFound hConcrete).mpr ⟨y, hFill, rfl⟩⟩

theorem isNew_of_newInstance (hFound : d.registry.index.class? (qualify c.space c.name) = some c)
    (hConcrete : c.isAbstract = false) {x : Resource} (hNew : d.newInstance c members = .ok x) :
    Registry.IsNew c d.now (identifierOf c members) x := by
  obtain ⟨y, hFill, rfl⟩ := (newInstance_eq_ok hFound hConcrete).mp hNew
  exact Registry.isNew_identified hFill _

end Decoder

end DomainModels
