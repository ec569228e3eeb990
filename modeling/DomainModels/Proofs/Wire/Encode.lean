import DomainModels.Proofs.Wire.Decode
import DomainModels.Proofs.Wire.Runs

/-!
An instance that fits is written, and what is written is read as the instance.

The statements go place by place, as those about reading do. What is written does not depend on the
instances that have been written before.
-/

namespace DomainModels

namespace Encoder

/-- The writer with the default options. -/
def standard (r : Registry) : Encoder := ⟨r, .default⟩

/-! ## Writing -/

section

variable {α β : Type}

/-- Wherever writing starts, it has the given result. -/
def Writes (w : Writing α) (a : α) : Prop := ∀ seen, ∃ later, w seen = .ok (a, later)

theorem Writes.pure (a : α) : Writes (pure a) a := fun seen => ⟨seen, rfl⟩

theorem Writes.bind {w : Writing α} {a : α} {next : α → Writing β} {b : β} (hFirst : Writes w a)
    (hNext : Writes (next a) b) : Writes (w >>= next) b := by
  intro seen
  obtain ⟨middle, hMiddle⟩ := hFirst seen
  obtain ⟨later, hLater⟩ := hNext middle
  refine ⟨later, ?_⟩
  show (w seen >>= fun result => next result.1 result.2) = .ok (b, later)
  rw [hMiddle]
  exact hLater

theorem Writes.lift {result : Except Failure α} {a : α} (hResult : result = .ok a) :
    Writes (liftM result) a := by
  subst hResult
  exact fun seen => ⟨seen, rfl⟩

/-- What has been written before may be looked at, as long as it makes no difference. -/
theorem Writes.get_bind {next : List String → Writing β} {b : β}
    (hNext : ∀ seen, Writes (next seen) b) : Writes (get >>= next) b :=
  fun seen => hNext seen seen

end

/-! ## Values -/

variable {r : Registry} {type : ValueType} {value : Value}

theorem toInt64?_toInt (i : Int64) : Number.toInt64? (.int i.toInt) = some i := by
  have hHeld : isInt64 i.toInt = true := by
    rw [isInt64, Int64.toInt_minValue, Int64.toInt_maxValue, Bool.and_eq_true]
    exact ⟨decide_eq_true (Int64.le_toInt i), decide_eq_true (Int64.toInt_le i)⟩
  rw [Number.toInt64?, if_pos hHeld, Int64.ofInt_toInt]

/-- The tree of a value of a primitive type. -/
def primitiveJson : Value → Json
  | .string text | .enum text => .string text
  | .boolean b => .bool b
  | .integer i | .long i => .int i.toInt
  | .double x => .float x
  | .dateTime t => .string (t.render 0)
  | _ => .null

theorem encodeValue_of_fits (hFits : type.Fits value) (path : Path) :
    (standard r).encodeValue type path value = .ok (primitiveJson value) := by
  obtain ⟨hHolds, hChecked⟩ := hFits
  have hValidate : (standard r).options.validate = true := rfl
  simp only [encodeValue, hValidate, if_true, ValueType.check_path hChecked path]
  generalize type.primitive = primitive at hHolds
  cases hHolds with
  | double hFinite =>
      simp only [hFinite, if_true]
      rfl
  | _ => rfl

theorem primitiveJson_ne_null (hFits : type.Fits value) : primitiveJson value ≠ .null := by
  have hHolds := hFits.holds
  generalize type.primitive = primitive at hHolds
  cases hHolds <;> nofun

/-- The tree of a value is read as the value. -/
theorem decodeValue_primitiveJson (hFits : type.Fits value) (hPortable : value.IsPortable)
    (now : DateTime) (path : Path) :
    (Decoder.standard r now).decodeValue type path (primitiveJson value) = .ok value.inUtc := by
  obtain ⟨hHolds, hChecked⟩ := hFits
  have hPath := ValueType.check_path hChecked path
  rw [Decoder.decodeValue_eq_ok]
  generalize hPrimitive : type.primitive = primitive at hHolds ⊢
  cases hHolds with
  | string text => exact ⟨rfl, hPath⟩
  | boolean b => exact ⟨rfl, hPath⟩
  | integer i =>
      refine ⟨?_, hPath⟩
      show (Number.toInt64? (.int i.toInt)).map Value.integer = _
      rw [toInt64?_toInt]
      rfl
  | long i =>
      refine ⟨?_, hPath⟩
      show (Number.toInt64? (.int i.toInt)).map Value.long = _
      rw [toInt64?_toInt]
      rfl
  | double _ => exact ⟨rfl, hPath⟩
  | @dateTime t hProper =>
      have hOptions : (Decoder.standard r now).options = .default := rfl
      have hText := (hPortable.instants t .refl).parse?_render hProper
      constructor
      · simp only [Decoder.primitive?, primitiveJson, Json.string?, hOptions, DecodeOptions.default,
          Option.bind_some, hText, Option.map_some, Value.inUtc, DateTime.inUtc]
      · cases type <;> cases hPrimitive
        rfl

/-! ## Items and properties -/

/-- Wherever a value fits as an item, it is written, and what is written is read as the value. -/
def KeepsItem (r : Registry) (value : Value) : Prop :=
  ∀ p path, r.FitsItem p.type value →
    ∃ json, Writes ((standard r).encodeItem p path value) json ∧ json ≠ .null ∧
      ∀ now place, (Decoder.standard r now).decodeItem p place json = .ok value.inUtc

/-- Wherever a value fits a property, it is written, and what is written is read as the value. -/
def KeepsProperty (r : Registry) (value : Value) : Prop :=
  ∀ p path, r.FitsProperty p value →
    ∃ json, Writes ((standard r).encodeProperty p path value) json ∧ json ≠ .null ∧
      ∀ now place, (Decoder.standard r now).decodeProperty p place json = .ok value.inUtc

theorem exists_encodeItems {p : ResolvedProperty} {items : List Value}
    (hKeeps : ∀ item ∈ items, KeepsItem r item) (hFits : ∀ item ∈ items, r.FitsItem p.type item)
    (path : Path) (i : Nat) :
    ∃ trees, Writes ((standard r).encodeItems p path i items) trees ∧
      ∀ now place j, (Decoder.standard r now).decodeItems p place j trees =
        .ok (Value.inUtcItems items) := by
  induction items generalizing i with
  | nil =>
      refine ⟨[], ?_, fun now place j => ?_⟩
      · rw [encodeItems]
        exact .pure []
      · rw [Decoder.decodeItems, Value.inUtcItems]
  | cons item rest ih =>
      obtain ⟨json, hWrites, _, hReads⟩ :=
        hKeeps item List.mem_cons_self p (path.index i) (hFits item List.mem_cons_self)
      obtain ⟨trees, hRest, hReadsRest⟩ := ih (fun j hMem => hKeeps j (List.mem_cons_of_mem _ hMem))
        (fun j hMem => hFits j (List.mem_cons_of_mem _ hMem)) (i + 1)
      refine ⟨json :: trees, ?_, fun now place j => ?_⟩
      · rw [encodeItems]
        exact hWrites.bind (hRest.bind (.pure _))
      · rw [Decoder.decodeItems, hReads, Value.inUtcItems]
        simp only [Outcome.bind_eq_ok, Outcome.pure_eq_ok]
        exact ⟨_, rfl, _, hReadsRest now place (j + 1), rfl⟩

/-- A property keeps what its items keep. -/
theorem keepsProperty (hItem : KeepsItem r value)
    (hItems : ∀ items, value = .array items → ∀ item ∈ items, KeepsItem r item) :
    KeepsProperty r value := by
  intro p path hFits
  cases hFits with
  | item hSingle hFits =>
      obtain ⟨json, hWrites, hSome, hReads⟩ := hItem p path hFits
      refine ⟨json, ?_, hSome, fun now place => ?_⟩
      · rw [encodeProperty.eq_def, hSingle]
        exact hWrites
      · rw [Decoder.decodeProperty.eq_def, hSingle]
        exact hReads now place
  | @array _ items hArray hFits =>
      obtain ⟨trees, hWrites, hReads⟩ := exists_encodeItems (hItems items rfl) hFits path 0
      refine ⟨.array trees, ?_, nofun, fun now place => ?_⟩
      · rw [encodeProperty.eq_def, hArray]
        exact hWrites.bind (.pure _)
      · rw [Decoder.decodeProperty.eq_def, hArray, Value.inUtc]
        exact Outcome.map_eq_ok.mpr ⟨_, hReads now place 0, rfl⟩

/-! ## Members -/

/-- The members that were written for some properties of an instance. Each is named like one of the
properties, and is read as the value that is held for it. A shadowed identifier may be among
them. -/
structure AreWritten (r : Registry) (c : ResolvedClass) (x : Resource)
    (properties : List ResolvedProperty) (members : List (String × Json)) : Prop where
  names : ∀ name ∈ members.map (·.1), ∃ p ∈ properties, p.name = name
  absent : ∀ p ∈ properties, Decoder.isShadowed c p = false → x.get? p.name = none →
    members.lookup p.name = none
  present : ∀ p ∈ properties, Decoder.isShadowed c p = false →
    ∀ value, x.get? p.name = some value →
      ∃ json, members.lookup p.name = some json ∧ json ≠ .null ∧
        ∀ now place, (Decoder.standard r now).decodeProperty p place json = .ok value.inUtc

variable {c : ResolvedClass} {x : Resource} {properties : List ResolvedProperty}
  {members : List (String × Json)}

/-- What is found for a property was written for a value. -/
theorem AreWritten.of_lookup {p : ResolvedProperty} {json : Json}
    (hWritten : AreWritten r c x properties members) (hMem : p ∈ properties)
    (hOpen : Decoder.isShadowed c p = false) (hLookup : members.lookup p.name = some json) :
    ∃ value, x.get? p.name = some value ∧
      ∀ now place, (Decoder.standard r now).decodeProperty p place json = .ok value.inUtc := by
  cases hGet : x.get? p.name with
  | none =>
      rw [hWritten.absent p hMem hOpen hGet] at hLookup
      cases hLookup
  | some value =>
      obtain ⟨other, hOther, _, hReads⟩ := hWritten.present p hMem hOpen value hGet
      rw [hOther] at hLookup
      cases hLookup
      exact ⟨value, rfl, hReads⟩

/-- One step of writing: a member, or none, for the first property. -/
theorem AreWritten.cons {p : ResolvedProperty} (first : Option Json)
    (hWritten : AreWritten r c x properties members) (hNew : p.name ∉ properties.map (·.name))
    (hAbsent : Decoder.isShadowed c p = false → x.get? p.name = none → first = none)
    (hPresent : Decoder.isShadowed c p = false → ∀ value, x.get? p.name = some value →
      ∃ json, first = some json ∧ json ≠ .null ∧
        ∀ now place, (Decoder.standard r now).decodeProperty p place json = .ok value.inUtc) :
    AreWritten r c x (p :: properties)
      ((first.map fun json => (p.name, json)).toList ++ members) := by
  obtain ⟨hNames, hHere, hThere⟩ := Decoder.lookup_front hNew hWritten.names first
  refine ⟨hNames, ?_, ?_⟩
  · intro q hMem hOpen hNone
    rcases List.mem_cons.mp hMem with rfl | hMem
    · rw [hHere]
      exact hAbsent hOpen hNone
    · rw [hThere q hMem]
      exact hWritten.absent q hMem hOpen hNone
  · intro q hMem hOpen value hGet
    rcases List.mem_cons.mp hMem with rfl | hMem
    · rw [hHere]
      exact hPresent hOpen value hGet
    · rw [hThere q hMem]
      exact hWritten.present q hMem hOpen value hGet

/-- An instance that passes the checks is written when its values are. -/
theorem Writes.resource {e : Encoder} {declared : Option String} {path : Path}
    (hClass : e.registry.index.class? x.fqn = some c)
    (hChecked : e.options.validate = true → e.checkInstance c declared path x = .ok ())
    (hMembers : Writes (e.encodeMembers c path x c.properties) members) :
    Writes (e.encodeResource declared path x) (.object (e.headMembers c x ++ members)) := by
  intro seen
  obtain ⟨later, hRun⟩ := hMembers (x.fullyQualifiedId?.toList ++ seen)
  exact ⟨later, runs_encodeResource.mpr ⟨c, members, hClass, hChecked, hRun, rfl⟩⟩

/-- A map is written when its entries are. -/
theorem Writes.map {e : Encoder} {target : String} {path : Path} {m : ResolvedMap}
    {keyType : ValueType} {entries : List (Value × Value)}
    (hMap : e.registry.index.map? target = some m) (hKey : m.key.type.value? = some keyType)
    (hEntries : Writes (e.encodeEntries keyType m.value path [] entries) members) :
    Writes (e.encodeMap target path entries) (.object members) := by
  intro seen
  obtain ⟨later, hRun⟩ := hEntries seen
  exact ⟨later, runs_encodeMap.mpr ⟨m, keyType, members, hMap, hKey, hRun, rfl⟩⟩

/-- An instance that holds values for properties of its class alone passes the checks. -/
theorem checkInstance_of_names {e : Encoder} {declared : Option String}
    (hConcrete : c.isAbstract = false)
    (hDeclared : ∀ target, declared = some target →
      e.registry.index.isAssignable c.fqn target = true)
    (hNames : ∀ field ∈ x.values, ∃ p ∈ c.properties, p.name = field.1) (path : Path) :
    e.checkInstance c declared path x = .ok () := by
  have hNone : (x.values.find? fun field => (c.property? field.1).isNone) = none := by
    rw [List.find?_eq_none]
    intro field hMem
    obtain ⟨p, hP, hName⟩ := hNames field hMem
    have hFound : (c.property? field.1).isSome = true :=
      List.find?_isSome.mpr ⟨p, hP, by simpa using hName⟩
    rw [← Option.not_isSome, hFound]
    exact Bool.noConfusion
  cases declared with
  | none =>
      simp only [checkInstance, hConcrete, hNone]
      rfl
  | some target =>
      simp only [checkInstance, hConcrete, hDeclared target rfl, hNone]
      rfl

/-- Writing an instance starts before anything has been written. -/
theorem Writes.encode {e : Encoder} {json : Json}
    (hResource : Writes (e.encodeResource none .root x) json) : e.encode x = .ok json := by
  obtain ⟨later, hLater⟩ := hResource []
  exact Outcome.map_eq_ok.mpr ⟨_, hLater, rfl⟩

/-! Members are written for one property after the other. -/

section

variable {e : Encoder} {p : ResolvedProperty} {path : Path}
  (hRest : Writes (e.encodeMembers c path x properties) members)

include hRest

/-- In the place of the identifier of the system the identifier is written. -/
theorem Writes.members_shadowed (hShadowed : Decoder.isShadowed c p = true) :
    Writes (e.encodeMembers c path x (p :: properties))
      (((x.identifier?.map Json.string).map fun json => (p.name, json)).toList ++ members) := by
  rw [encodeMembers_shadowed hShadowed]
  exact hRest.bind (.pure _)

variable (hOpen : Decoder.isShadowed c p = false)

include hOpen

theorem Writes.members_absent (hNone : x.get? p.name = none)
    (hOptional : e.options.validate = true → p.isOptional = true) :
    Writes (e.encodeMembers c path x (p :: properties)) members := by
  have hNotMissing : ¬ (e.options.validate && !p.isOptional) = true := by
    simpa using hOptional
  rw [encodeMembers_absent hOpen hNone, if_neg hNotMissing]
  exact hRest

theorem Writes.members_held {value : Value} {json : Json} (hGet : x.get? p.name = some value)
    (hJson : Writes (e.encodeProperty p (path.field p.name) value) json) :
    Writes (e.encodeMembers c path x (p :: properties)) ((p.name, json) :: members) := by
  rw [encodeMembers_held hOpen hGet]
  exact hJson.bind (hRest.bind (.pure _))

end

/-- The values of an instance are written when each of them is, and nothing required is missing. -/
theorem exists_encodeMembers (hNames : (properties.map (·.name)).Nodup) (path : Path)
    (hComplete : ∀ p ∈ properties, p.isOptional = true ∨ x.contains p.name = true ∨
      Decoder.isShadowed c p = true)
    (hKeeps : ∀ p ∈ properties, ∀ value, x.get? p.name = some value → r.FitsProperty p value ∧
      KeepsProperty r value) :
    ∃ members, Writes ((standard r).encodeMembers c path x properties) members ∧
      AreWritten r c x properties members := by
  induction properties with
  | nil =>
      refine ⟨[], ?_, ⟨by simp, by simp, by simp⟩⟩
      rw [encodeMembers]
      exact .pure []
  | cons p rest ih =>
      rw [List.map_cons, List.nodup_cons] at hNames
      obtain ⟨members, hWrites, hWritten⟩ := ih hNames.2
        (fun q hMem => hComplete q (List.mem_cons_of_mem _ hMem))
        (fun q hMem => hKeeps q (List.mem_cons_of_mem _ hMem))
      cases hShadowed : Decoder.isShadowed c p with
      | true =>
          have hNotOpen : ¬ Decoder.isShadowed c p = false := by
            rw [hShadowed]
            exact Bool.noConfusion
          exact ⟨_, hWrites.members_shadowed hShadowed,
            hWritten.cons _ hNames.1 (fun hOpen => absurd hOpen hNotOpen)
              fun hOpen => absurd hOpen hNotOpen⟩
      | false =>
          cases hGet : x.get? p.name with
          | none =>
              have hOptional : p.isOptional = true := by
                rcases hComplete p List.mem_cons_self with hOptional | hHas | hOther
                · exact hOptional
                · obtain ⟨value, hSome⟩ := Resource.contains_eq_true.mp hHas
                  rw [hGet] at hSome
                  cases hSome
                · rw [hShadowed] at hOther
                  cases hOther
              refine ⟨members, hWrites.members_absent hShadowed hGet fun _ => hOptional, ?_⟩
              refine hWritten.cons none hNames.1 (fun _ _ => rfl) fun _ value hSome => ?_
              rw [hGet] at hSome
              cases hSome
          | some value =>
              obtain ⟨hFits, hKeep⟩ := hKeeps p List.mem_cons_self value hGet
              obtain ⟨json, hJson, hNotNull, hReads⟩ := hKeep p (path.field p.name) hFits
              refine ⟨(p.name, json) :: members, hWrites.members_held hShadowed hGet hJson, ?_⟩
              refine hWritten.cons (some json) hNames.1 (fun _ hNone => ?_) fun _ other hOther => ?_
              · rw [hGet] at hNone
                cases hNone
              · rw [hGet] at hOther
                cases hOther
                exact ⟨json, rfl, hNotNull, hReads⟩

end Encoder

end DomainModels
