import DomainModels.Proofs.Registry.ClosedWorld
import DomainModels.Proofs.Wire.Encode
import DomainModels.Proofs.Wire.Writing

/-!
Where pointers are declared, what is written stands for an instance.

Pointers are checked against the declared class when they are written. Instances that stand where
pointers are declared are not, once they are written as pointers.
-/

namespace DomainModels

open ModelFiles (IsLoaded Resolves)

/-- The pointer that a value is, or the one to the instance that it is. -/
def Value.pointer? : Value → Option Relationship
  | .relationship pointer => some pointer
  | .concept x => x.pointer?
  | _ => none

/-- The item at a place of the array that an instance holds. -/
def Resource.item? (x : Resource) (name : String) (i : Nat) : Option Value :=
  match x.get? name with
  | some (.array items) => items[i]?
  | _ => none

namespace Encoder

variable {e : Encoder} {x y : Resource} {p : ResolvedProperty} {path : Path} {value : Value}
  {held : Option Value} {json tree : Json} {members : List (String × Json)}

/-! ## Places -/

/-- The text that a key of a map is written as. -/
def keyText? (e : Encoder) (keyType : ValueType) (key : Value) : Option String :=
  match e.encodeValue keyType .root key with
  | .ok (.string text) => some text
  | _ => none

/-- The item of the last entry whose key is written as a text. -/
def lastItem? (e : Encoder) (keyType : ValueType) (entries : List (Value × Value)) (name : String) :
    Option Value :=
  (entries.reverse.find? fun entry => e.keyText? keyType entry.1 = some name).map (·.2)

/-- Where a tree was written for an instance, a part of the tree stands as an item of a property: as
a field, as an element of an array, or as the value of an entry of a map, in the instance or in one
inside of it. What is held at the place goes with it. -/
inductive StandsAt (e : Encoder) :
    Resource → Json → ResolvedProperty → Option Value → Json → Prop where
  | field {x : Resource} {c : ResolvedClass} {members : List (String × Json)} {p : ResolvedProperty}
      {tree : Json} (hClass : e.registry.index.class? x.fqn = some c) (hMem : p ∈ c.properties)
      (hSingle : p.isArray = false) (hTree : members.lookup p.name = some tree) :
      StandsAt e x (.object members) p (x.get? p.name) tree
  | element {x : Resource} {c : ResolvedClass} {members : List (String × Json)}
      {p : ResolvedProperty} {trees : List Json} {i : Nat} {tree : Json}
      (hClass : e.registry.index.class? x.fqn = some c) (hMem : p ∈ c.properties)
      (hArray : p.isArray = true) (hTrees : members.lookup p.name = some (.array trees))
      (hTree : trees[i]? = some tree) : StandsAt e x (.object members) p (x.item? p.name i) tree
  | entry {x : Resource} {json : Json} {p : ResolvedProperty} {entries : List (Value × Value)}
      {members : List (String × Json)} {target : String} {default : Option String} {m : ResolvedMap}
      {keyType : ValueType} {name : String} {tree : Json}
      (hOuter : StandsAt e x json p (some (.map entries)) (.object members))
      (hType : p.type = .declared target default)
      (hMap : e.registry.index.map? target = some m) (hKey : m.key.type.value? = some keyType)
      (hTree : members.lookup name = some tree) :
      StandsAt e x json m.value (e.lastItem? keyType entries name) tree
  | inside {x y : Resource} {json inner : Json} {p q : ResolvedProperty} {held : Option Value}
      {tree : Json} (hOuter : StandsAt e x json p (some (.concept y)) inner)
      (hInner : StandsAt e y inner q held tree) : StandsAt e x json q held tree

/-- Places are those of objects. -/
theorem StandsAt.exists_members (hAt : e.StandsAt x json p held tree) :
    ∃ members, json = .object members := by
  induction hAt with
  | field => exact ⟨_, rfl⟩
  | element => exact ⟨_, rfl⟩
  | entry _ _ _ _ _ ih => exact ih
  | inside _ _ ih _ => exact ih

/-- The entries of a map are found under the texts of their keys, the last ones first. -/
theorem exists_lastItem? {keyType : ValueType} {entries : List (Value × Value)}
    {inserted : List (String × Json)} {name : String}
    (hInserted : List.Forall₂ (e.WritesEntry keyType p path) entries inserted)
    (hTree : (Json.insertMembers inserted []).lookup name = some tree) :
    ∃ item place, e.lastItem? keyType entries name = some item ∧
      MayWrite (e.encodeItem p place item) tree := by
  rw [Json.lookup_insertMembers, List.lookup_nil, Option.or_none] at hTree
  have hText (entry : Value × Value) (member : String × Json)
      (hEntry : e.WritesEntry keyType p path entry member) :
      e.keyText? keyType entry.1 = some member.1 := by
    rw [keyText?, encodeValue_path hEntry.1 .root]
  obtain ⟨entry, hFound, _, hItem⟩ :=
    Json.exists_find?_of_lookup hText (List.forall₂_reverse_iff.mpr hInserted) hTree
  exact ⟨entry.2, _, by rw [lastItem?, hFound]; rfl, hItem⟩

/-- What stands at a property was written for the value that is held for it, or is the identifier of
the system. -/
theorem MayWrite.held_of_lookup (hStrict : e.registry.IsStrict) {declared : Option String}
    (hWritten : MayWrite (e.encodeResource declared path x) (.object members)) {c : ResolvedClass}
    (hClass : e.registry.index.class? x.fqn = some c) (hMem : p ∈ c.properties)
    (hTree : members.lookup p.name = some tree) :
    (p.type.value?.isSome = true ∧ ∃ id, tree = .string id) ∨
      ∃ value, x.get? p.name = some value ∧
        MayWrite (e.encodeProperty p (path.field p.name) value) tree := by
  have hFiles := hStrict.files
  have hResolves := TypeIndex.resolves_of_class? hFiles hStrict.index hClass
  obtain ⟨found, written, hFound, _, hMembers, ⟨⟩⟩ := hWritten.resource
  rw [hClass] at hFound
  cases hFound
  rw [lookup_headMembers hFiles hResolves hMem] at hTree
  have hAll := hMembers.hasMembers (hResolves.nodup_properties hFiles)
  cases hShadowed : Decoder.isShadowed c p with
  | true =>
      refine .inl ⟨?_, hAll.shadowed p hMem hShadowed tree hTree⟩
      have hSystem : isSystemName p.name = true := by
        rw [(Decoder.isShadowed_eq_true.mp hShadowed).1]
        decide
      obtain ⟨owner, rfl | rfl⟩ := hResolves.isSupplied_of_isSystemName hFiles hMem hSystem
      · rfl
      · rfl
  | false => exact .inr (hAll.held p hMem hShadowed tree hTree)

/-- At every place stands what was written for the value that is held there, or the identifier of
the system. -/
theorem StandsAt.exists_held (hStrict : e.registry.IsStrict)
    (hAt : e.StandsAt x json p held tree) {declared : Option String} {path : Path}
    (hWritten : MayWrite (e.encodeResource declared path x) json) :
    (p.type.value?.isSome = true ∧ ∃ id, tree = .string id) ∨
      ∃ value place, held = some value ∧ MayWrite (e.encodeItem p place value) tree := by
  induction hAt generalizing declared path with
  | @field x c members p tree hClass hMem hSingle hTree =>
      rcases hWritten.held_of_lookup hStrict hClass hMem hTree with hSystem | ⟨value, hGet, hValue⟩
      · exact .inl hSystem
      · rcases hValue.property with ⟨_, hItem⟩ | ⟨hArray, _⟩
        · exact .inr ⟨value, _, hGet, hItem⟩
        · rw [hSingle] at hArray
          cases hArray
  | @element x c members p trees i tree hClass hMem hArray hTrees hTree =>
      rcases hWritten.held_of_lookup hStrict hClass hMem hTrees with ⟨_, _, hSystem⟩ |
        ⟨value, hGet, hValue⟩
      · cases hSystem
      · rcases hValue.property with ⟨hSingle, _⟩ | ⟨_, items, _, rfl, ⟨⟩, hItems⟩
        · rw [hArray] at hSingle
          cases hSingle
        · obtain ⟨hLength, hEach⟩ := List.forall₂_iff_get.mp hItems
          obtain ⟨hBound, rfl⟩ := List.getElem?_eq_some_iff.mp hTree
          obtain ⟨place, hItem⟩ := hEach i (hLength ▸ hBound) hBound
          refine .inr ⟨items[i], place, ?_, hItem⟩
          simp only [Resource.item?, hGet, List.getElem?_eq_getElem (hLength ▸ hBound)]
  | @entry x json p entries members target default m keyType name tree _ hType hMap hKey hTree ih =>
      rcases ih hWritten with ⟨_, _, hSystem⟩ | ⟨value, place, hHeld, hItem⟩
      · cases hSystem
      · cases hHeld
        obtain ⟨other, _, _, _, _, hOther, _, _, hItem⟩ := hItem.item.of_map
        rw [hType] at hOther
        cases hOther
        obtain ⟨found, foundKey, inserted, hFound, hFoundKey, hInserted, ⟨⟩⟩ := hItem.map
        rw [hMap] at hFound
        cases hFound
        rw [hKey] at hFoundKey
        cases hFoundKey
        obtain ⟨item, place, hLast, hItem⟩ := exists_lastItem? hInserted hTree
        exact .inr ⟨item, place, hLast, hItem⟩
  | @inside x y json inner p q held tree _ hInner ihOuter ihInner =>
      obtain ⟨members, rfl⟩ := hInner.exists_members
      rcases ihOuter hWritten with ⟨_, _, hSystem⟩ | ⟨value, place, hHeld, hItem⟩
      · cases hSystem
      · cases hHeld
        obtain ⟨target, hResource⟩ := hItem.item.of_concept
        exact ihInner hResource

/-! ## Pointers -/

/-- A text that is written where a pointer is declared is that of a pointer to something that can
stand for the declared class, or an instance was allowed to be written as a pointer. -/
theorem WritesItem.exists_pointer {target text : String} (hValidate : e.options.validate = true)
    (hItem : e.WritesItem path (.relationship target) value (.string text)) :
    ∃ pointer, value.pointer? = some pointer ∧ text = e.pointerText pointer ∧
      (e.registry.index.isAssignable pointer.fqn target = true ∨
        (∃ y, value = .concept y) ∧
          (e.options.pointToResources = true ∨ e.options.permitResources = true)) := by
  cases hItem with
  | value hType _ => cases hType
  | @pointer _ pointer _ hWritten =>
      obtain ⟨hChecked, ⟨⟩⟩ := encodePointer_eq_ok.mp hWritten
      exact ⟨pointer, rfl, rfl, .inl (hChecked hValidate)⟩
  | @pointee _ y pointer hAllowed hPointer =>
      exact ⟨pointer, hPointer, rfl, .inr ⟨⟨y, rfl⟩, hAllowed⟩⟩
  | embedded _ hWritten =>
      obtain ⟨_, _, _, _, _, hObject⟩ := hWritten.resource
      cases hObject

/-- Wherever a run of changes has led to a registry that validates, and whatever the options of a
writer are that validates, a text that stands where a pointer is declared is that of a pointer: the
one that is held there, or the one to the instance that is held there. It points to something that
can stand for the declared class, unless an instance is held there and the options allow that it is
written as a pointer or embedded. -/
theorem pointsToTarget_of_encode {changes : List Change}
    (hValid : (Session.initial.run changes).registry.validate = .ok ()) {options : EncodeOptions}
    (hValidate : options.validate = true) {x : Resource} {json : Json}
    (hWritten :
      (Encoder.mk (Session.initial.run changes).registry options).encode x = .ok json)
    {p : ResolvedProperty} {held : Option Value} {text target : String}
    (hAt : (Encoder.mk (Session.initial.run changes).registry options).StandsAt x json p held
      (.string text))
    (hType : p.type = .relationship target) :
    ∃ value pointer, held = some value ∧ value.pointer? = some pointer ∧
      text = (Encoder.mk (Session.initial.run changes).registry options).pointerText pointer ∧
      ((Session.initial.run changes).registry.index.isAssignable pointer.fqn target = true ∨
        (∃ y, value = .concept y) ∧
          (options.pointToResources = true ∨ options.permitResources = true)) := by
  have hStrict := Registry.isStrict_of_validate hValid
  rcases hAt.exists_held hStrict (mayWrite_of_encode hWritten) with
    ⟨hPrimitive, _⟩ | ⟨value, place, hHeld, hItem⟩
  · rw [hType] at hPrimitive
    cases hPrimitive
  · obtain ⟨pointer, hPointer, hText, hPoints⟩ :=
      (hType ▸ hItem.item).exists_pointer hValidate
    exact ⟨value, pointer, hHeld, hPointer, hText, hPoints⟩

/-! ## Instances with one value -/

/-- Nothing is written for optional properties for which nothing is held. -/
theorem writes_nothing {c : ResolvedClass} {properties : List ResolvedProperty}
    (hAbsent : ∀ q ∈ properties, Decoder.isShadowed c q = false ∧ q.isOptional = true ∧
      x.get? q.name = none) : Writes (e.encodeMembers c path x properties) [] := by
  induction properties with
  | nil =>
      rw [encodeMembers]
      exact .pure []
  | cons q rest ih =>
      obtain ⟨hOpen, hOptional, hNone⟩ := hAbsent q List.mem_cons_self
      have hRest := ih fun other hMem => hAbsent other (List.mem_cons_of_mem _ hMem)
      exact hRest.members_absent hOpen hNone fun _ => hOptional

/-- An instance that holds one value is written as an object with one member after the class. -/
theorem encode_of_single {c : ResolvedClass} {rest : List ResolvedProperty}
    (hClass : e.registry.index.class? x.fqn = some c)
    (hChecked : e.checkInstance c none .root x = .ok ())
    (hHead : e.headMembers c x = [(classKey, .string c.fqn)])
    (hProperties : c.properties = p :: rest) (hOpen : Decoder.isShadowed c p = false)
    (hGet : x.get? p.name = some value)
    (hAbsent : ∀ q ∈ rest, Decoder.isShadowed c q = false ∧ q.isOptional = true ∧
      x.get? q.name = none)
    (hProperty : Writes (e.encodeProperty p (Path.root.field p.name) value) json) :
    e.encode x = .ok (.object [(classKey, .string c.fqn), (p.name, json)]) := by
  have hMembers : Writes (e.encodeMembers c .root x c.properties) [(p.name, json)] := by
    rw [hProperties]
    exact (writes_nothing hAbsent).members_held hOpen hGet hProperty
  exact (hHead ▸ hMembers.resource hClass fun _ => hChecked).encode

end Encoder

/-! ## Owners of garages -/

namespace Garage

open Encoder (Writes)

/-- An owner who holds a value as the car. -/
def ownerOf (value : Value) : Resource := ⟨space, "Owner", none, [("car", value)]⟩

/-- The tree of an owner whose car is written as a tree. -/
def ownerTree (json : Json) : Json := .object [(classKey, .string ownerClass.fqn), ("car", json)]

variable {options : EncodeOptions} {value : Value} {json : Json}

theorem encode_ownerOf (hCar : ∀ path,
    Writes ((Encoder.mk registry options).encodeItem car path value) json) :
    (Encoder.mk registry options).encode (ownerOf value) = .ok (ownerTree json) := by
  refine Encoder.encode_of_single rfl rfl ?_ (rfl : ownerClass.properties = [car, log]) rfl rfl
    ?_ ?_
  · cases hOnce : options.deduplicate <;> simp only [Encoder.headMembers, hOnce] <;> rfl
  · rintro q hMem
    rw [List.mem_singleton.mp hMem]
    exact ⟨rfl, rfl, rfl⟩
  · rw [Encoder.encodeProperty.eq_def, if_neg (by decide)]
    exact hCar _

theorem standsAt_car :
    (Encoder.mk registry options).StandsAt (ownerOf value) (ownerTree json) car (some value) json :=
  .field (c := ownerClass) rfl List.mem_cons_self rfl rfl

/-- The pointer to a car. -/
def carPointer : Relationship := ⟨space, "Car", "V1"⟩

/-- An owner who points to a car. -/
def owner : Resource := ownerOf (.relationship carPointer)

theorem encode_owner : (Encoder.standard registry).encode owner =
    .ok (ownerTree (.string "resource:garage@1.0.0.Car#V1")) := by
  have hText : carPointer.toUri = "resource:garage@1.0.0.Car#V1" := by decide +kernel
  refine encode_ownerOf fun path => ?_
  rw [Encoder.encodeItem.eq_def, ← hText]
  exact .lift rfl

/-- A bike, which cannot stand for a car. -/
def bike : Resource := ⟨space, "Bike", some "frame", [("frame", .string "F1")]⟩

end Garage

namespace Encoder

/-- The pointer of an owner to a car points to something that can stand for a car. -/
theorem pointsToTarget_owner :
    (standard Garage.registry).encode Garage.owner =
      .ok (Garage.ownerTree (.string "resource:garage@1.0.0.Car#V1")) ∧
    ∃ pointer, Value.pointer? (.relationship Garage.carPointer) = some pointer ∧
      "resource:garage@1.0.0.Car#V1" = (standard Garage.registry).pointerText pointer ∧
      Garage.registry.index.isAssignable pointer.fqn "garage@1.0.0.Car" = true := by
  refine ⟨Garage.encode_owner, ?_⟩
  have hWritten := Garage.encode_owner
  have hAt : (standard Garage.registry).StandsAt Garage.owner
      (Garage.ownerTree (.string "resource:garage@1.0.0.Car#V1")) Garage.car
      (some (.relationship Garage.carPointer)) (.string "resource:garage@1.0.0.Car#V1") :=
    Garage.standsAt_car
  rw [← Garage.run_model] at hWritten hAt ⊢
  have hPoints := pointsToTarget_of_encode Garage.validate_run
    (rfl : EncodeOptions.default.validate = true) hWritten hAt
    (rfl : Garage.car.type = .relationship "garage@1.0.0.Car")
  obtain ⟨value, pointer, hHeld, hPointer, hPointerText, hTarget⟩ := hPoints
  cases hHeld
  rcases hTarget with hAssignable | ⟨⟨_, hConcept⟩, _⟩
  · exact ⟨pointer, hPointer, hPointerText, hAssignable⟩
  · cases hConcept

/-- A bike that stands where an owner points to a car is written as a pointer, also by a writer that
validates, although a bike cannot stand for a car. -/
theorem pointsToBike_owner :
    let e : Encoder := ⟨Garage.registry, { EncodeOptions.default with pointToResources := true }⟩
    e.options.validate = true ∧
    e.encode (Garage.ownerOf (.concept Garage.bike)) =
      .ok (Garage.ownerTree (.string "resource:garage@1.0.0.Bike#F1")) ∧
    e.StandsAt (Garage.ownerOf (.concept Garage.bike))
      (Garage.ownerTree (.string "resource:garage@1.0.0.Bike#F1")) Garage.car
      (some (.concept Garage.bike)) (.string "resource:garage@1.0.0.Bike#F1") ∧
    Garage.car.type = .relationship "garage@1.0.0.Car" ∧
    Garage.registry.index.isAssignable Garage.bike.fqn "garage@1.0.0.Car" = false := by
  intro e
  have hText : (⟨Garage.space, "Bike", "F1"⟩ : Relationship).toUri =
      "resource:garage@1.0.0.Bike#F1" := by
    decide +kernel
  refine ⟨rfl, Garage.encode_ownerOf fun path => ?_, Garage.standsAt_car, rfl, by decide⟩
  rw [encodeItem.eq_def, ← hText]
  simp only [Garage.car]
  rw [encodePointee.eq_def]
  exact .pure _

end Encoder

end DomainModels
