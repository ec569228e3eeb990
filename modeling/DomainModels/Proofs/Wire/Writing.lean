import DomainModels.Proofs.Schema.Defaults
import DomainModels.Proofs.Wire.Runs

/-!
What a written tree says about the value that it was written for.

There is one statement for each kind of place, which names all that the writer can have done there.
What had been written before is left open: it only decides whether an instance is written again.
-/

namespace DomainModels

open ModelFiles (IsLoaded Resolves)

namespace Encoder

/-! ## Steps -/

section

variable {α β : Type}

/-- For some instances that have been written before, the result is the given one. -/
def MayWrite (w : Writing α) (a : α) : Prop := ∃ seen later, w seen = .ok (a, later)

theorem Runs.mayWrite {seen later : List String} {w : Writing α} {a : α}
    (hRun : Runs w seen a later) : MayWrite w a :=
  ⟨seen, later, hRun⟩

theorem MayWrite.exists_runs {w : Writing α} {a : α} (hWritten : MayWrite w a) :
    ∃ seen later, Runs w seen a later :=
  hWritten

theorem mayWrite_pure {a b : α} : MayWrite (pure a) b ↔ a = b := by
  constructor
  · intro hWritten
    obtain ⟨_, _, hRun⟩ := hWritten.exists_runs
    exact (runs_pure.mp hRun).1
  · intro hSame
    exact ⟨[], [], runs_pure.mpr ⟨hSame, rfl⟩⟩

theorem mayWrite_lift {result : Except Failure α} {a : α} :
    MayWrite (liftM result) a ↔ result = .ok a := by
  constructor
  · intro hWritten
    obtain ⟨_, _, hRun⟩ := hWritten.exists_runs
    exact (runs_lift.mp hRun).1
  · intro hResult
    exact ⟨[], [], runs_lift.mpr ⟨hResult, rfl⟩⟩

theorem not_mayWrite_throw {failure : Failure} {a : α} : ¬ MayWrite (throw failure) a := by
  rintro ⟨_, _, hRun⟩
  exact not_runs_throw hRun

/-- A result of two steps comes from a result of the first one. -/
theorem MayWrite.of_bind {w : Writing α} {next : α → Writing β} {b : β}
    (hBoth : MayWrite (w >>= next) b) : ∃ a, MayWrite w a ∧ MayWrite (next a) b := by
  obtain ⟨_, _, hRun⟩ := hBoth.exists_runs
  obtain ⟨a, _, hFirst, hNext⟩ := runs_bind.mp hRun
  exact ⟨a, hFirst.mayWrite, hNext.mayWrite⟩

end

variable {e : Encoder} {p : ResolvedProperty} {path : Path} {value : Value} {json : Json}

/-! ## Primitive values -/

/-- The trees of primitive values. -/
inductive WritesValue (e : Encoder) : Value → Json → Prop where
  | string (text : String) : WritesValue e (.string text) (.string text)
  | enum (name : String) : WritesValue e (.enum name) (.string name)
  | boolean (b : Bool) : WritesValue e (.boolean b) (.bool b)
  | integer (i : Int64) : WritesValue e (.integer i) (.int i.toInt)
  | long (i : Int64) : WritesValue e (.long i) (.int i.toInt)
  | double {x : Float} (hFinite : x.isFinite = true) : WritesValue e (.double x) (.float x)
  | dateTime (t : DateTime) :
      WritesValue e (.dateTime t) (.string (t.render e.options.utcOffset))

/-- A primitive value is written after it has passed the check of its type. -/
theorem encodeValue_eq_ok {type : ValueType} : e.encodeValue type path value = .ok json ↔
    (e.options.validate = true → type.check path value = .ok ()) ∧ e.WritesValue value json := by
  have hChecked : e.encodeValue type path value = .ok json ↔
      (e.options.validate = true → type.check path value = .ok ()) ∧
        (⟨e.registry, { e.options with validate := false }⟩ : Encoder).encodeValue type path value =
          .ok json := by
    unfold encodeValue
    cases e.options.validate with
    | false => simp
    | true => simp only [if_true, Outcome.bind_eq_ok, Outcome.exists_unit, true_implies,
        Bool.false_eq_true, if_false]
  rw [hChecked]
  refine and_congr_right fun _ => ⟨fun hWritten => ?_, fun hTree => ?_⟩
  · unfold encodeValue at hWritten
    cases value with
    | string text => cases hWritten; exact .string text
    | enum name => cases hWritten; exact .enum name
    | boolean b => cases hWritten; exact .boolean b
    | integer i => cases hWritten; exact .integer i
    | long i => cases hWritten; exact .long i
    | dateTime t => cases hWritten; exact .dateTime t
    | double x =>
        simp only [Bool.false_eq_true, if_false] at hWritten
        split at hWritten
        · rename_i hFinite
          cases hWritten
          exact .double hFinite
        · cases hWritten
    | _ => cases hWritten
  · cases hTree with
    | double hFinite =>
        simp only [encodeValue, Bool.false_eq_true, if_false, hFinite, if_true]
        rfl
    | _ => rfl

/-- What a primitive value is written as does not depend on where it is written. -/
theorem encodeValue_path {type : ValueType} (hWritten : e.encodeValue type path value = .ok json)
    (other : Path) : e.encodeValue type other value = .ok json := by
  rw [encodeValue_eq_ok] at hWritten ⊢
  exact ⟨fun hValidate => ValueType.check_path (hWritten.1 hValidate) other, hWritten.2⟩

/-- A pointer is written after it has been seen that it can point to the declared class. -/
theorem encodePointer_eq_ok {target : String} {pointer : Relationship} :
    e.encodePointer target path pointer = .ok json ↔
      (e.options.validate = true → e.registry.index.isAssignable pointer.fqn target = true) ∧
        json = .string (e.pointerText pointer) := by
  have hSame : (Except.ok (Json.string (e.pointerText pointer)) : Except Failure Json) = .ok json ↔
      json = .string (e.pointerText pointer) := by
    rw [Except.ok.injEq, eq_comm]
  unfold encodePointer
  cases e.options.validate with
  | false => simpa using hSame
  | true =>
      cases hAssignable : e.registry.index.isAssignable pointer.fqn target with
      | false => simp
      | true => simpa using hSame

/-- A value of an enumeration is written by its name. -/
theorem encodeEnum_eq_ok {target : String} {values : List EnumValue}
    (hWritten : e.encodeEnum target values path value = .ok json) :
    ∃ name, (value = .enum name ∨ value = .string name) ∧ json = .string name ∧
      (e.options.validate = true → hasEnumValue values name = true) := by
  have hNamed {name : String} (hWritten :
      (if (e.options.validate && !hasEnumValue values name) = true
      then .error (.invalidAt path (.notAnEnumValue name target))
      else .ok (.string name) : Except Failure Json) = .ok json) :
      json = .string name ∧ (e.options.validate = true → hasEnumValue values name = true) := by
    split at hWritten
    · cases hWritten
    · rename_i hHas
      cases hWritten
      exact ⟨rfl, by simpa using hHas⟩
  unfold encodeEnum at hWritten
  split at hWritten
  · exact ⟨_, .inl rfl, hNamed hWritten⟩
  · exact ⟨_, .inr rfl, hNamed hWritten⟩
  · cases hWritten

/-! ## Instances -/

variable {c : ResolvedClass} {x : Resource} {properties : List ResolvedProperty}
  {members : List (String × Json)}

/-- An instance that passes the checks is one of a class that is not abstract and that can stand for
the declared one. -/
theorem of_checkInstance {declared : Option String}
    (hChecked : e.checkInstance c declared path x = .ok ()) :
    c.isAbstract = false ∧
      ∀ target, declared = some target → e.registry.index.isAssignable c.fqn target = true := by
  unfold checkInstance at hChecked
  cases hAbstract : c.isAbstract with
  | true => simp [hAbstract] at hChecked
  | false =>
      refine ⟨rfl, ?_⟩
      rintro target rfl
      cases hAssignable : e.registry.index.isAssignable c.fqn target with
      | true => rfl
      | false => simp [hAbstract, hAssignable] at hChecked

/-- An instance is written as an object of its class, after it has passed the checks. -/
theorem MayWrite.resource {declared : Option String}
    (hWritten : MayWrite (e.encodeResource declared path x) json) :
    ∃ c members, e.registry.index.class? x.fqn = some c ∧
      (e.options.validate = true → e.checkInstance c declared path x = .ok ()) ∧
      MayWrite (e.encodeMembers c path x c.properties) members ∧
      json = .object (e.headMembers c x ++ members) := by
  obtain ⟨_, _, hRun⟩ := hWritten.exists_runs
  obtain ⟨c, members, hClass, hChecked, hMembers, rfl⟩ := runs_encodeResource.mp hRun
  exact ⟨c, members, hClass, hChecked, hMembers.mayWrite, rfl⟩

/-- No property is called like a member that stands before the values. -/
theorem ne_headName_of_mem {files : ModelFiles} {fqn : String} (hFiles : IsLoaded files)
    (hResolves : Resolves files fqn c) (hMem : p ∈ c.properties) :
    p.name ≠ classKey ∧ p.name ≠ idKey := by
  cases hSystem : isSystemName p.name with
  | false =>
      constructor <;>
      · intro hSame
        rw [hSame] at hSystem
        exact absurd hSystem (by decide)
  | true =>
      obtain ⟨owner, rfl | rfl⟩ := hResolves.isSupplied_of_isSystemName hFiles hMem hSystem
      · exact ⟨(by decide : identifierField ≠ classKey), (by decide : identifierField ≠ idKey)⟩
      · exact ⟨(by decide : timestampField ≠ classKey), (by decide : timestampField ≠ idKey)⟩

/-- The members that stand before the values are not found under the name of a property. -/
theorem lookup_headMembers {files : ModelFiles} {fqn : String} (hFiles : IsLoaded files)
    (hResolves : Resolves files fqn c) (hMem : p ∈ c.properties) :
    (e.headMembers c x ++ members).lookup p.name = members.lookup p.name := by
  have hName := ne_headName_of_mem hFiles hResolves hMem
  have hHead : (e.headMembers c x).lookup p.name = none := by
    refine Json.lookup_eq_none ?_
    unfold headMembers
    cases (if e.options.deduplicate = true then x.uri? else none) <;> simp [hName]
  rw [List.lookup_append, hHead, Option.none_or]

/-- The members that were written for some properties of an instance. What is held for a property is
written under its name, and where this is checked nothing required is missing. Where a declared
field takes the place of the identifier of the system, the identifier is written there. -/
structure HasMembers (e : Encoder) (c : ResolvedClass) (path : Path) (x : Resource)
    (properties : List ResolvedProperty) (members : List (String × Json)) : Prop where
  names : ∀ name ∈ members.map (·.1), ∃ p ∈ properties, p.name = name
  shadowed : ∀ p ∈ properties, Decoder.isShadowed c p = true →
    ∀ json, members.lookup p.name = some json → ∃ id, json = .string id
  held : ∀ p ∈ properties, Decoder.isShadowed c p = false →
    ∀ json, members.lookup p.name = some json →
      ∃ value, x.get? p.name = some value ∧
        MayWrite (e.encodeProperty p (path.field p.name) value) json
  missing : ∀ p ∈ properties, Decoder.isShadowed c p = false → members.lookup p.name = none →
    e.options.validate = true → p.isOptional = true

/-- One step of writing: a member, or none, for the first property. -/
theorem HasMembers.cons (first : Option Json) (hRest : HasMembers e c path x properties members)
    (hNew : p.name ∉ properties.map (·.name))
    (hShadowed : Decoder.isShadowed c p = true →
      ∀ json, first = some json → ∃ id, json = .string id)
    (hHeld : Decoder.isShadowed c p = false → ∀ json, first = some json →
      ∃ value, x.get? p.name = some value ∧
        MayWrite (e.encodeProperty p (path.field p.name) value) json)
    (hMissing : Decoder.isShadowed c p = false → first = none → e.options.validate = true →
      p.isOptional = true) :
    HasMembers e c path x (p :: properties)
      ((first.map fun json => (p.name, json)).toList ++ members) := by
  obtain ⟨hNames, hHere, hThere⟩ := Decoder.lookup_front hNew hRest.names first
  refine ⟨hNames, ?_, ?_, ?_⟩
  all_goals
    intro q hMem
    rcases List.mem_cons.mp hMem with rfl | hMem
  · rw [hHere]
    exact hShadowed
  · rw [hThere q hMem]
    exact hRest.shadowed q hMem
  · rw [hHere]
    exact hHeld
  · rw [hThere q hMem]
    exact hRest.held q hMem
  · rw [hHere]
    exact hMissing
  · rw [hThere q hMem]
    exact hRest.missing q hMem

/-- The members of an instance are written one property after the other. -/
theorem MayWrite.hasMembers (hNames : (properties.map (·.name)).Nodup)
    (hWritten : MayWrite (e.encodeMembers c path x properties) members) :
    HasMembers e c path x properties members := by
  induction properties generalizing members with
  | nil =>
      rw [encodeMembers, mayWrite_pure] at hWritten
      subst hWritten
      exact ⟨by simp, by simp, by simp, by simp⟩
  | cons p rest ih =>
      rw [List.map_cons, List.nodup_cons] at hNames
      obtain ⟨hNew, hNames⟩ := hNames
      cases hShadowed : Decoder.isShadowed c p with
      | true =>
          rw [encodeMembers_shadowed hShadowed] at hWritten
          obtain ⟨members, hRest, hSame⟩ := hWritten.of_bind
          rw [mayWrite_pure] at hSame
          subst hSame
          have hNotOpen : ¬ Decoder.isShadowed c p = false := by
            rw [hShadowed]
            exact Bool.noConfusion
          refine (ih hNames hRest).cons _ hNew (fun _ json hFirst => ?_)
            (fun hOpen => absurd hOpen hNotOpen) fun hOpen => absurd hOpen hNotOpen
          obtain ⟨id, _, rfl⟩ := Option.map_eq_some_iff.mp hFirst
          exact ⟨id, rfl⟩
      | false =>
          cases hGet : x.get? p.name with
          | none =>
              rw [encodeMembers_absent hShadowed hGet] at hWritten
              split at hWritten
              · obtain ⟨_, hThrown, _⟩ := hWritten.of_bind
                exact absurd hThrown not_mayWrite_throw
              · rename_i hNotRequired
                refine (ih hNames hWritten).cons none hNew (fun _ json hFirst => ?_)
                  (fun _ json hFirst => ?_) fun _ _ hValidate => ?_
                · cases hFirst
                · cases hFirst
                · simpa [hValidate] using hNotRequired
          | some value =>
              rw [encodeMembers_held hShadowed hGet] at hWritten
              obtain ⟨json, hJson, hWritten⟩ := hWritten.of_bind
              obtain ⟨members, hRest, hSame⟩ := hWritten.of_bind
              rw [mayWrite_pure] at hSame
              subst hSame
              refine (ih hNames hRest).cons (some json) hNew (fun hOther => ?_) ?_
                fun _ hNone => ?_
              · rw [hShadowed] at hOther
                cases hOther
              · rintro _ _ ⟨⟩
                exact ⟨value, hGet, hJson⟩
              · cases hNone

/-! ## Properties -/

/-- The items of an array are written one after the other. -/
theorem MayWrite.items {i : Nat} {items : List Value} {trees : List Json}
    (hWritten : MayWrite (e.encodeItems p path i items) trees) :
    List.Forall₂ (fun item tree => ∃ place, MayWrite (e.encodeItem p place item) tree) items
      trees := by
  induction items generalizing i trees with
  | nil =>
      rw [encodeItems, mayWrite_pure] at hWritten
      subst hWritten
      exact .nil
  | cons item rest ih =>
      rw [encodeItems] at hWritten
      obtain ⟨tree, hTree, hWritten⟩ := hWritten.of_bind
      obtain ⟨later, hLater, hSame⟩ := hWritten.of_bind
      rw [mayWrite_pure] at hSame
      subst hSame
      exact .cons ⟨_, hTree⟩ (ih hLater)

/-- A property is written as one item or as an array of items. -/
theorem MayWrite.property (hWritten : MayWrite (e.encodeProperty p path value) json) :
    p.isArray = false ∧ MayWrite (e.encodeItem p path value) json ∨
      p.isArray = true ∧ ∃ items trees, value = .array items ∧ json = .array trees ∧
        List.Forall₂ (fun item tree => ∃ place, MayWrite (e.encodeItem p place item) tree) items
          trees := by
  rw [encodeProperty.eq_def] at hWritten
  split at hWritten
  · rename_i hArray
    split at hWritten
    · rename_i items
      obtain ⟨trees, hTrees, hSame⟩ := hWritten.of_bind
      rw [mayWrite_pure] at hSame
      exact .inr ⟨hArray, items, trees, rfl, hSame.symm, hTrees.items⟩
    · exact absurd hWritten not_mayWrite_throw
  · rename_i hSingle
    exact .inl ⟨by simpa using hSingle, hWritten⟩

/-! ## Items -/

/-- What an item of a type is written as: a primitive value, a pointer, an instance that stands for
a pointer or is embedded where one is declared, a value of an enumeration, an instance, a pointer to
one that is written elsewhere, or a map. -/
inductive WritesItem (e : Encoder) (path : Path) : ResolvedType → Value → Json → Prop where
  | value {type : ResolvedType} {v : ValueType} {value : Value} {json : Json}
      (hType : type.value? = some v) (hWritten : e.encodeValue v path value = .ok json) :
      WritesItem e path type value json
  | pointer {target : String} {pointer : Relationship} {json : Json}
      (hWritten : e.encodePointer target path pointer = .ok json) :
      WritesItem e path (.relationship target) (.relationship pointer) json
  | pointee {target : String} {x : Resource} {pointer : Relationship}
      (hAllowed : e.options.pointToResources = true ∨ e.options.permitResources = true)
      (hPointer : x.pointer? = some pointer) :
      WritesItem e path (.relationship target) (.concept x) (.string (e.pointerText pointer))
  | embedded {target : String} {x : Resource} {json : Json}
      (hAllowed : e.options.permitResources = true)
      (hWritten : MayWrite (e.encodeResource (some target) path x) json) :
      WritesItem e path (.relationship target) (.concept x) json
  | enum {target : String} {default : Option String} {d : Declaration} {values : List EnumValue}
      {value : Value} {json : Json} (hType : e.registry.getType target = .ok d)
      (hBody : d.body = .enumBody values)
      (hWritten : e.encodeEnum target values path value = .ok json) :
      WritesItem e path (.declared target default) value json
  | concept {target : String} {default : Option String} {d : Declaration} {body : ClassBody}
      {x : Resource} {json : Json} (hType : e.registry.getType target = .ok d)
      (hBody : d.body = .classBody body)
      (hWritten : MayWrite (e.encodeResource (some target) path x) json) :
      WritesItem e path (.declared target default) (.concept x) json
  | again {target : String} {default : Option String} {x : Resource} {pointer : Relationship}
      (hOnce : e.options.deduplicate = true) (hPointer : x.pointer? = some pointer) :
      WritesItem e path (.declared target default) (.concept x) (.string pointer.toUri)
  | map {target : String} {default : Option String} {d : Declaration} {key value : PropertyType}
      {entries : List (Value × Value)} {json : Json} (hType : e.registry.getType target = .ok d)
      (hBody : d.body = .mapBody key value)
      (hWritten : MayWrite (e.encodeMap target path entries) json) :
      WritesItem e path (.declared target default) (.map entries) json

theorem pointer?_of_writtenPointer? {seen : List String} {pointer : Relationship}
    (hSeen : writtenPointer? seen x = some pointer) : x.pointer? = some pointer :=
  (Option.filter_eq_some_iff.mp hSeen).1

/-- An instance that stands where a pointer is declared stands for one or is embedded. -/
theorem MayWrite.pointee {target : String}
    (hWritten : MayWrite (e.encodePointee target path x) json) :
    WritesItem e path (.relationship target) (.concept x) json := by
  rw [encodePointee.eq_def] at hWritten
  split at hWritten
  · rename_i hPoint
    split at hWritten
    · rename_i pointer hPointer
      rw [mayWrite_pure] at hWritten
      exact hWritten ▸ .pointee (.inl hPoint) hPointer
    · exact absurd hWritten not_mayWrite_throw
  · split at hWritten
    · exact absurd hWritten not_mayWrite_throw
    · rename_i hPermitted
      have hAllowed : e.options.permitResources = true := by simpa using hPermitted
      obtain ⟨seen, _, hWritten⟩ := hWritten.of_bind
      split at hWritten
      · rename_i pointer hSeen
        rw [mayWrite_pure] at hWritten
        exact hWritten ▸ .pointee (.inr hAllowed) (pointer?_of_writtenPointer? hSeen)
      · exact .embedded hAllowed hWritten

/-- An item is written as its type says. -/
theorem MayWrite.item (hWritten : MayWrite (e.encodeItem p path value) json) :
    WritesItem e path p.type value json := by
  rw [encodeItem.eq_def] at hWritten
  split at hWritten
  · rename_i v hType
    exact .value (by rw [hType]; rfl) (mayWrite_lift.mp hWritten)
  · rename_i v hType
    exact .value (by rw [hType]; rfl) (mayWrite_lift.mp hWritten)
  · rename_i target hType
    rw [hType]
    split at hWritten
    · exact .pointer (mayWrite_lift.mp hWritten)
    · exact hWritten.pointee
    · exact absurd hWritten not_mayWrite_throw
  · rename_i target default hType
    rw [hType]
    obtain ⟨d, hDeclared, hItem⟩ := hWritten.of_bind
    clear hWritten
    rw [mayWrite_lift] at hDeclared
    split at hItem
    · rename_i hBody
      obtain ⟨seen, _, hWritten⟩ := hItem.of_bind
      split at hWritten
      · rename_i pointer hSeen
        rw [mayWrite_pure] at hWritten
        cases hOnce : e.options.deduplicate with
        | true =>
            rw [if_pos hOnce] at hSeen
            exact hWritten ▸ .again hOnce (pointer?_of_writtenPointer? hSeen)
        | false => simp [hOnce] at hSeen
      · exact .concept hDeclared hBody hWritten
    · rename_i hBody
      exact .enum hDeclared hBody (mayWrite_lift.mp hItem)
    · rename_i hBody
      exact .map hDeclared hBody hItem
    · exact absurd hItem not_mayWrite_throw
    · exact absurd hItem not_mayWrite_throw

/-! ## Maps -/

/-- What an entry of a map is written as: a member that is named by the text of the key. -/
def WritesEntry (e : Encoder) (keyType : ValueType) (p : ResolvedProperty) (path : Path)
    (entry : Value × Value) (member : String × Json) : Prop :=
  e.encodeValue keyType path entry.1 = .ok (.string member.1) ∧
    MayWrite (e.encodeItem p (path.field member.1) entry.2) member.2

/-- The entries of a map are written into the object one after the other. -/
theorem MayWrite.entries {keyType : ValueType} {entries : List (Value × Value)}
    {front : List (String × Json)}
    (hWritten : MayWrite (e.encodeEntries keyType p path front entries) members) :
    ∃ inserted, List.Forall₂ (e.WritesEntry keyType p path) entries inserted ∧
      members = Json.insertMembers inserted front := by
  induction entries generalizing front with
  | nil =>
      rw [encodeEntries, mayWrite_pure] at hWritten
      exact ⟨[], .nil, hWritten.symm⟩
  | cons entry rest ih =>
      obtain ⟨key, item⟩ := entry
      rw [encodeEntries] at hWritten
      obtain ⟨keyJson, hKey, hWritten⟩ := hWritten.of_bind
      rw [mayWrite_lift] at hKey
      split at hWritten
      · rename_i name
        obtain ⟨tree, hTree, hWritten⟩ := hWritten.of_bind
        obtain ⟨inserted, hInserted, hSame⟩ := ih hWritten
        exact ⟨(name, tree) :: inserted, .cons ⟨hKey, hTree⟩ hInserted, hSame⟩
      · exact absurd hWritten not_mayWrite_throw

/-- A map is written as an object, into which its entries are inserted. -/
theorem MayWrite.map {target : String} {entries : List (Value × Value)}
    (hWritten : MayWrite (e.encodeMap target path entries) json) :
    ∃ m keyType inserted, e.registry.index.map? target = some m ∧
      m.key.type.value? = some keyType ∧
      List.Forall₂ (e.WritesEntry keyType m.value path) entries inserted ∧
      json = .object (Json.insertMembers inserted []) := by
  obtain ⟨_, _, hRun⟩ := hWritten.exists_runs
  obtain ⟨m, keyType, _, hMap, hKey, hMembers, rfl⟩ := runs_encodeMap.mp hRun
  obtain ⟨inserted, hInserted, rfl⟩ := hMembers.mayWrite.entries
  exact ⟨m, keyType, inserted, hMap, hKey, hInserted, rfl⟩

/-- Where a primitive type is declared, a primitive value is written. -/
theorem WritesItem.of_valueType {type : ResolvedType} {v : ValueType} (hType : type.value? = some v)
    (hItem : e.WritesItem path type value json) : e.encodeValue v path value = .ok json := by
  cases hItem with
  | value hOther hWritten =>
      rw [hType] at hOther
      cases hOther
      exact hWritten
  | _ => cases hType

/-! ## Objects -/

/-- Where an instance is written as an object, it is written as an instance. -/
theorem WritesItem.of_concept {type : ResolvedType}
    (hItem : e.WritesItem path type (.concept x) (.object members)) :
    ∃ target, MayWrite (e.encodeResource (some target) path x) (.object members) := by
  cases hItem with
  | value _ hWritten => nomatch (encodeValue_eq_ok.mp hWritten).2
  | embedded _ hWritten => exact ⟨_, hWritten⟩
  | enum _ _ hWritten => cases hWritten
  | concept _ _ hWritten => exact ⟨_, hWritten⟩

/-- Where a map is written, it is one of the declared type. -/
theorem WritesItem.of_map {type : ResolvedType} {entries : List (Value × Value)}
    (hItem : e.WritesItem path type (.map entries) json) :
    ∃ target default d key value, type = .declared target default ∧
      e.registry.getType target = .ok d ∧ d.body = .mapBody key value ∧
        MayWrite (e.encodeMap target path entries) json := by
  cases hItem with
  | value _ hWritten => nomatch (encodeValue_eq_ok.mp hWritten).2
  | enum _ _ hWritten => cases hWritten
  | map hDeclared hBody hWritten => exact ⟨_, _, _, _, _, rfl, hDeclared, hBody, hWritten⟩

/-! ## Whole trees -/

theorem mayWrite_of_encode (hWritten : e.encode x = .ok json) :
    MayWrite (e.encodeResource none .root x) json := by
  obtain ⟨⟨tree, later⟩, hResult, hSame⟩ := Outcome.map_eq_ok.mp hWritten
  exact ⟨[], later, hSame ▸ hResult⟩

end Encoder

end DomainModels
