import DomainModels.Proofs.Wire.Members
import DomainModels.Wire.Encode

/-!
Writing step by step.

What is written depends on the instances that have been seen before, and on nothing else that has
been written. An equivalence for each step serves to take a run apart and to put one together.
-/

namespace DomainModels.Encoder

/-! ## Steps -/

section

variable {α β : Type} {seen later : List String}

/-- From the fully-qualified identifiers that have been seen before, writing comes to a result and
to those that have been seen then. -/
def Runs (w : Writing α) (seen : List String) (a : α) (later : List String) : Prop :=
  w seen = .ok (a, later)

theorem runs_pure {a b : α} : Runs (pure a) seen b later ↔ a = b ∧ seen = later := by
  show Except.ok (a, seen) = .ok (b, later) ↔ _
  rw [Except.ok.injEq, Prod.mk.injEq]

theorem runs_lift {result : Except Failure α} {a : α} :
    Runs (liftM result) seen a later ↔ result = .ok a ∧ seen = later := by
  cases result with
  | error failure =>
      constructor
      · intro hRun
        cases hRun
      · rintro ⟨hResult, _⟩
        cases hResult
  | ok b =>
      show Except.ok (b, seen) = .ok (a, later) ↔ _
      rw [Except.ok.injEq, Except.ok.injEq, Prod.mk.injEq]

theorem not_runs_throw {failure : Failure} {a : α} : ¬ Runs (throw failure) seen a later := by
  intro hRun
  cases hRun

/-- Two steps are taken one after the other. -/
theorem runs_bind {w : Writing α} {next : α → Writing β} {b : β} :
    Runs (w >>= next) seen b later ↔
      ∃ a middle, Runs w seen a middle ∧ Runs (next a) middle b later := by
  show (w seen >>= fun result => next result.1 result.2) = .ok (b, later) ↔ _
  rw [Outcome.bind_eq_ok, Prod.exists]
  rfl

/-- A step that writes nothing and gives a result is followed by the next one. -/
theorem lift_ok_bind {a : α} {next : α → Writing β} :
    ((liftM (Except.ok a : Except Failure α) : Writing α) >>= next) = next a :=
  rfl

/-- The result of a step that writes nothing is looked at by the next one. -/
theorem runs_lift_bind {result : Except Failure α} {next : α → Writing β} {b : β} :
    Runs (liftM result >>= next) seen b later ↔
      ∃ a, result = .ok a ∧ Runs (next a) seen b later := by
  simp [runs_bind, runs_lift]

/-- A check that comes first has been passed, and writes nothing. -/
theorem runs_guard {guarded : Bool} {check : Except Failure Unit} {next : Unit → Writing α}
    {a : α} : Runs (if guarded = true then liftM check >>= next else next ()) seen a later ↔
      (guarded = true → check = .ok ()) ∧ Runs (next ()) seen a later := by
  cases guarded with
  | true => simp [runs_bind, runs_lift]
  | false => simp

/-- What is made of a result comes last. -/
theorem runs_bind_pure {w : Writing α} {f : α → β} {b : β} :
    Runs (do return f (← w)) seen b later ↔ ∃ a, Runs w seen a later ∧ f a = b := by
  rw [runs_bind]
  simp [runs_pure]

/-- What has been seen is looked at. -/
theorem Runs.of_get_bind {next : List String → Writing α} {a : α}
    (hBoth : Runs (get >>= next) seen a later) : Runs (next seen) seen a later :=
  hBoth

end

variable {e : Encoder} {seen later : List String} {path : Path} {p : ResolvedProperty}
  {x : Resource} {c : ResolvedClass} {properties : List ResolvedProperty} {value : Value}
  {tree : Json}

/-! ## Instances -/

/-- An instance that passes the checks is seen, and then its values are written. -/
theorem runs_encodeResource {declared : Option String} :
    Runs (e.encodeResource declared path x) seen tree later ↔
      ∃ c members, e.registry.index.class? x.fqn = some c ∧
        (e.options.validate = true → e.checkInstance c declared path x = .ok ()) ∧
        Runs (e.encodeMembers c path x c.properties) (x.fullyQualifiedId?.toList ++ seen) members
          later ∧
        .object (e.headMembers c x ++ members) = tree := by
  rw [encodeResource.eq_def, runs_lift_bind]
  simp only [Registry.resolvedClass_eq_ok]
  refine exists_congr fun c => ?_
  rw [exists_and_left, exists_and_left, ← runs_bind_pure]
  refine and_congr_right fun _ => runs_guard.trans (and_congr_right fun _ => ?_)
  cases x.fullyQualifiedId? <;> rfl

/-- In the place of the identifier of the system the identifier is written. -/
theorem encodeMembers_shadowed (hShadowed : Decoder.isShadowed c p = true) :
    e.encodeMembers c path x (p :: properties) = do
      let members ← e.encodeMembers c path x properties
      let front := (x.identifier?.map Json.string).map fun json => (p.name, json)
      return front.toList ++ members := by
  have hSystem : p.name = identifierField ∧ c.isExplicitlyIdentified = true := by
    simpa [Decoder.isShadowed] using hShadowed
  rw [encodeMembers.eq_def, Option.map_map]
  exact if_pos hSystem

/-- Nothing is written where nothing is held. -/
theorem encodeMembers_absent (hOpen : Decoder.isShadowed c p = false)
    (hNone : x.get? p.name = none) : e.encodeMembers c path x (p :: properties) = (do
      if e.options.validate && !p.isOptional then
        throw (.invalidAt (path.field p.name) (.missingValue x.label p.name))
      e.encodeMembers c path x properties) := by
  have hPlain : ¬ (p.name = identifierField ∧ c.isExplicitlyIdentified = true) := by
    simpa [Decoder.isShadowed] using hOpen
  rw [encodeMembers.eq_def]
  simp only
  rw [if_neg hPlain]
  split
  · rfl
  · rename_i hGet
    rw [hNone] at hGet
    cases hGet

/-- What is held is written before the values for the other properties. -/
theorem encodeMembers_held (hOpen : Decoder.isShadowed c p = false)
    (hGet : x.get? p.name = some value) : e.encodeMembers c path x (p :: properties) = do
      let json ← e.encodeProperty p (path.field p.name) value
      return (p.name, json) :: (← e.encodeMembers c path x properties) := by
  have hPlain : ¬ (p.name = identifierField ∧ c.isExplicitlyIdentified = true) := by
    simpa [Decoder.isShadowed] using hOpen
  rw [encodeMembers.eq_def]
  simp only
  rw [if_neg hPlain]
  split
  · rename_i hNone
    rw [hGet] at hNone
    cases hNone
  · rename_i other hOther
    rw [hGet] at hOther
    cases hOther
    rfl

/-! ## Maps -/

/-- A map is written as an object of the members for its entries. -/
theorem runs_encodeMap {target : String} {entries : List (Value × Value)} :
    Runs (e.encodeMap target path entries) seen tree later ↔
      ∃ m keyType members, e.registry.index.map? target = some m ∧
        m.key.type.value? = some keyType ∧
        Runs (e.encodeEntries keyType m.value path [] entries) seen members later ∧
        .object members = tree := by
  rw [encodeMap.eq_def, runs_lift_bind]
  simp only [Registry.resolvedMap_eq_ok]
  refine exists_congr fun m => ?_
  simp only [exists_and_left]
  refine and_congr_right fun _ => ?_
  cases m.key.type.value? with
  | none => simp [not_runs_throw]
  | some keyType => simp only [Option.some.injEq, exists_eq_left', runs_bind_pure]

/-! ## Items -/

/-- A value of an enumeration is written by its name. -/
theorem encodeEnum_of_hasEnumValue {target : String} {values : List EnumValue} {name : String}
    (hHas : hasEnumValue values name = true) :
    e.encodeEnum target values path (.enum name) = .ok (.string name) := by
  simp only [encodeEnum, hHas, Bool.not_true, Bool.and_false]
  rfl

/-- Where a primitive type is declared, a primitive value is written. -/
theorem encodeItem_of_valueType {v : ValueType} (hType : p.type.value? = some v) :
    e.encodeItem p path value = liftM (e.encodeValue v path value) := by
  rw [encodeItem.eq_def]
  cases hResolved : p.type with
  | value type =>
      rw [hResolved] at hType
      cases hType
      rfl
  | scalar target type =>
      rw [hResolved] at hType
      cases hType
      rfl
  | _ =>
      rw [hResolved] at hType
      cases hType

section

variable {target : String} {default : Option String} {declaration : Declaration}
  (hType : p.type = .declared target default)
  (hDeclared : e.registry.getType target = .ok declaration)

include hType hDeclared

/-- Where an enumeration is declared, the name of a value is written. -/
theorem encodeItem_of_enumBody {values : List EnumValue}
    (hBody : declaration.body = .enumBody values) :
    e.encodeItem p path value = liftM (e.encodeEnum target values path value) := by
  rw [encodeItem.eq_def, hType]
  simp only [hDeclared, lift_ok_bind, hBody]

/-- Where a class is declared, an instance is written as an object or by a pointer to it. -/
theorem encodeItem_of_classBody {body : ClassBody} (hBody : declaration.body = .classBody body) :
    e.encodeItem p path (.concept x) = (do
      let seen ← get
      match if e.options.deduplicate then writtenPointer? seen x else none with
      | some pointer => return .string pointer.toUri
      | none => e.encodeResource (some target) path x) := by
  have hItem := encodeItem.eq_def e p path (.concept x)
  simp only [hType, hDeclared, lift_ok_bind, hBody] at hItem
  exact hItem

/-- Where a map is declared, a map is written as an object. -/
theorem encodeItem_of_mapBody {key mapped : PropertyType} {entries : List (Value × Value)}
    (hBody : declaration.body = .mapBody key mapped) :
    e.encodeItem p path (.map entries) = e.encodeMap target path entries := by
  rw [encodeItem.eq_def, hType]
  simp only [hDeclared, lift_ok_bind, hBody]

end

end DomainModels.Encoder
