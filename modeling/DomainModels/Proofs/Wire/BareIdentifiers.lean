import DomainModels.Proofs.Uri.Scheme
import DomainModels.Proofs.Wire.Decode
import DomainModels.Proofs.Wire.Pointers

/-!
Pointers that are written as bare identifiers.

Nothing in a bare identifier tells it from a URI. The reader takes it for the identifier that it is
if it has no scheme, and only then: an identifier that starts like a URI is refused, or something
else is pointed to.
-/

namespace DomainModels

/-- A property of an indexed class, or what the values of an indexed map are. -/
inductive Registry.IsPlace (r : Registry) : ResolvedProperty → Prop where
  | property {fqn : String} {c : ResolvedClass} {p : ResolvedProperty}
      (hClass : r.index.class? fqn = some c) (hMem : p ∈ c.properties) : IsPlace r p
  | mapValue {fqn : String} {m : ResolvedMap} (hMap : r.index.map? fqn = some m) :
      IsPlace r m.value

theorem Registry.IsStrict.pointsToClass_of_isPlace {r : Registry} (hStrict : r.IsStrict)
    {p : ResolvedProperty} (hPlace : r.IsPlace p) : r.PointsToClass p.type := by
  cases hPlace with
  | property hClass hMem => exact hStrict.pointsToClass_of_mem hClass hMem
  | mapValue hMap => exact hStrict.pointsToClass_of_map? hMap

/-- The pointer to the instance of a class that has an identifier. -/
def ResolvedClass.pointerTo (c : ResolvedClass) (id : String) : Value :=
  .relationship ⟨c.space, c.name, id⟩

section

variable {r : Registry} {p : ResolvedProperty} {target : String} {c : ResolvedClass}
  (hStrict : r.IsStrict) (hType : p.type = .relationship target)
  (hTarget : r.index.class? target = some c)

include hStrict hTarget

/-- A pointer to a class can stand where pointers to this class are declared. -/
theorem Registry.IsStrict.isAssignable_pointerTo (id : String) :
    r.index.isAssignable (Relationship.fqn ⟨c.space, c.name, id⟩) target = true := by
  have hName : Relationship.fqn ⟨c.space, c.name, id⟩ = target :=
    qualify_of_splitQualified (hStrict.splitQualified_of_class? hTarget)
  rw [hName]
  exact (TypeIndex.acyclic_of_build hStrict.files hStrict.index).isAssignable_iff.mpr .refl

include hType

/-! ## Writing -/

namespace Encoder

variable {options : EncodeOptions} (hBare : options.bareIdentifiers = true)

include hBare

theorem encodeItem_pointerTo (path : Path) (id : String) :
    Writes ((Encoder.mk r options).encodeItem p path (c.pointerTo id)) (.string id) := by
  have hText : (Encoder.mk r options).pointerText ⟨c.space, c.name, id⟩ = id := if_pos hBare
  rw [encodeItem.eq_def, hType]
  exact .lift (encodePointer_eq_ok.mpr
    ⟨fun _ => hStrict.isAssignable_pointerTo hTarget id, by rw [hText]⟩)

theorem encodeItems_pointerTo (path : Path) (i : Nat) (ids : List String) :
    Writes ((Encoder.mk r options).encodeItems p path i (ids.map c.pointerTo))
      (ids.map .string) := by
  induction ids generalizing i with
  | nil =>
      rw [List.map_nil, encodeItems]
      exact .pure []
  | cons id rest ih =>
      rw [List.map_cons, encodeItems]
      exact (encodeItem_pointerTo hStrict hType hTarget hBare _ id).bind ((ih _).bind (.pure _))

end Encoder

/-! ## Reading -/

namespace Decoder

variable (now : DateTime)

/-- An identifier is read as the pointer that it stands for exactly if it has no scheme. -/
theorem decodeItem_pointerTo_iff {id : String} (hId : id ≠ "") (place : Path) :
    (standard r now).decodeItem p place (.string id) = .ok (c.pointerTo id) ↔
      ¬ Uri.HasScheme id := by
  have hItem : (standard r now).decodeItem p place (.string id) =
      (standard r now).decodePointer target place id := by
    rw [decodeItem.eq_def, hType]
  rw [hItem, decodePointer_eq_ok hStrict hTarget, ← Relationship.ofUri_eq_self_iff hId]
  constructor
  · rintro ⟨pointer, hRead, _, hSame⟩
    cases hSame
    exact hRead
  · exact fun hRead => ⟨_, hRead, hStrict.isAssignable_pointerTo hTarget id, rfl⟩

theorem decodeItems_pointerTo_iff {ids : List String} (hIds : ∀ id ∈ ids, id ≠ "") (place : Path)
    (i : Nat) :
    (standard r now).decodeItems p place i (ids.map .string) = .ok (ids.map c.pointerTo) ↔
      ∀ id ∈ ids, ¬ Uri.HasScheme id := by
  induction ids generalizing i with
  | nil => simp [decodeItems]
  | cons id rest ih =>
      obtain ⟨hId, hRest⟩ := List.forall_mem_cons.mp hIds
      rw [List.map_cons, List.map_cons, decodeItems, List.forall_mem_cons, ← ih hRest (i + 1),
        ← decodeItem_pointerTo_iff hStrict hType hTarget now hId (place.index i)]
      simp only [Outcome.bind_eq_ok, Outcome.pure_eq_ok, List.cons.injEq]
      constructor
      · rintro ⟨_, hItem, _, hItems, rfl, rfl⟩
        exact ⟨hItem, hItems⟩
      · rintro ⟨hItem, hItems⟩
        exact ⟨_, hItem, _, hItems, rfl, rfl⟩

end Decoder

end

namespace Relationship

open Encoder (Writes)

/-- Wherever a run of changes has led to a registry that validates, pointers to the very class to
which a property, or the values of a map, are declared to point are written as bare identifiers, if
the options say so. Reading with the default options gives the same pointers back exactly if the
identifiers have no scheme. So it is with one pointer and with an array of them. -/
theorem bare_pointers_come_back_iff {changes : List Change}
    (hValid : (Session.initial.run changes).registry.validate = .ok ()) {options : EncodeOptions}
    (hBare : options.bareIdentifiers = true) {p : ResolvedProperty}
    (hPlace : (Session.initial.run changes).registry.IsPlace p) {target : String}
    (hType : p.type = .relationship target) :
    let r := (Session.initial.run changes).registry
    ∃ c, r.index.class? target = some c ∧
      (∀ id path, id ≠ "" →
        Writes ((Encoder.mk r options).encodeItem p path (c.pointerTo id)) (.string id) ∧
        ∀ now place, (Decoder.standard r now).decodeItem p place (.string id) =
          .ok (c.pointerTo id) ↔ ¬ Uri.HasScheme id) ∧
      (∀ id path, id ≠ "" → p.isArray = false →
        Writes ((Encoder.mk r options).encodeProperty p path (c.pointerTo id)) (.string id) ∧
        ∀ now place, (Decoder.standard r now).decodeProperty p place (.string id) =
          .ok (c.pointerTo id) ↔ ¬ Uri.HasScheme id) ∧
      ∀ (ids : List String) path, (∀ id ∈ ids, id ≠ "") → p.isArray = true →
        Writes ((Encoder.mk r options).encodeProperty p path (.array (ids.map c.pointerTo)))
          (.array (ids.map .string)) ∧
        ∀ now place, (Decoder.standard r now).decodeProperty p place (.array (ids.map .string)) =
          .ok (.array (ids.map c.pointerTo)) ↔ ∀ id ∈ ids, ¬ Uri.HasScheme id := by
  intro r
  have hStrict : r.IsStrict := Registry.isStrict_of_validate hValid
  obtain ⟨c, hTarget⟩ := hStrict.pointsToClass_of_isPlace hPlace target hType
  refine ⟨c, hTarget, fun id path hId => ⟨?_, fun now place => ?_⟩,
    fun id path hId hSingle => ⟨?_, fun now place => ?_⟩,
    fun ids path hIds hArray => ⟨?_, fun now place => ?_⟩⟩
  · exact Encoder.encodeItem_pointerTo hStrict hType hTarget hBare path id
  · exact Decoder.decodeItem_pointerTo_iff hStrict hType hTarget now hId place
  · rw [Encoder.encodeProperty.eq_def, hSingle]
    exact Encoder.encodeItem_pointerTo hStrict hType hTarget hBare path id
  · rw [Decoder.decodeProperty.eq_def, hSingle]
    exact Decoder.decodeItem_pointerTo_iff hStrict hType hTarget now hId place
  · rw [Encoder.encodeProperty.eq_def, hArray]
    exact (Encoder.encodeItems_pointerTo hStrict hType hTarget hBare path 0 ids).bind (.pure _)
  · have hItems := Decoder.decodeItems_pointerTo_iff hStrict hType hTarget now hIds place 0
    have hProperty : (Decoder.standard r now).decodeProperty p place (.array (ids.map .string)) =
        .array <$> (Decoder.standard r now).decodeItems p place 0 (ids.map .string) := by
      rw [Decoder.decodeProperty.eq_def, if_pos hArray]
    rw [hProperty, ← hItems, Outcome.map_eq_ok]
    simp only [Value.array.injEq, exists_eq_right]

end Relationship

/-! ## Identifiers of cars -/

namespace Garage

theorem isPlace_car : registry.IsPlace car :=
  .property (c := ownerClass) (rfl : registry.index.class? ownerClass.fqn = _) List.mem_cons_self

theorem isPlace_logValue : registry.IsPlace logMap.value :=
  .mapValue (rfl : registry.index.map? logMap.fqn = some logMap)

/-- The options with which pointers are written as bare identifiers. -/
def bareOptions : EncodeOptions := { EncodeOptions.default with bareIdentifiers := true }

end Garage

namespace Relationship

open Encoder (Writes)

/-- Blanks, slashes and percent signs do no harm, nor does a colon after a digit. -/
theorem bare_pointers_of_garage :
    let options := Garage.bareOptions
    Garage.registry.validate = .ok () ∧ options.bareIdentifiers = true ∧
      Garage.registry.IsPlace Garage.car ∧ Garage.registry.IsPlace Garage.logMap.value ∧
      ∀ id ∈ [" a b/%41#?", "1:2"],
        (∀ path, Writes ((Encoder.mk Garage.registry options).encodeProperty Garage.car path
          (Garage.carClass.pointerTo id)) (.string id)) ∧
        (∀ now place, (Decoder.standard Garage.registry now).decodeProperty Garage.car place
          (.string id) = .ok (Garage.carClass.pointerTo id)) ∧
        ∀ now place, (Decoder.standard Garage.registry now).decodeItem Garage.logMap.value place
          (.string id) = .ok (Garage.carClass.pointerTo id) := by
  intro options
  have hBare : options.bareIdentifiers = true := rfl
  refine ⟨Garage.validate_registry, hBare, Garage.isPlace_car, Garage.isPlace_logValue,
    fun id hMem => ?_⟩
  have hPlain : ∀ id ∈ [" a b/%41#?", "1:2"], id ≠ "" ∧ ¬ Uri.HasScheme id := by decide +kernel
  obtain ⟨hId, hScheme⟩ := hPlain id hMem
  have hCar := bare_pointers_come_back_iff Garage.validate_run hBare
    (Garage.run_model ▸ Garage.isPlace_car)
    (rfl : Garage.car.type = .relationship "garage@1.0.0.Car")
  have hLog := bare_pointers_come_back_iff Garage.validate_run hBare
    (Garage.run_model ▸ Garage.isPlace_logValue)
    (rfl : Garage.logMap.value.type = .relationship "garage@1.0.0.Car")
  rw [Garage.run_model] at hCar hLog
  have hClass : Garage.registry.index.class? "garage@1.0.0.Car" = some Garage.carClass := rfl
  obtain ⟨c, hFound, _, hField, _⟩ := hCar
  cases hClass.symm.trans hFound
  obtain ⟨c, hFound, hValue, _⟩ := hLog
  cases hClass.symm.trans hFound
  exact ⟨fun path => (hField id path hId rfl).1,
    fun now place => ((hField id place hId rfl).2 now place).mpr hScheme,
    fun now place => ((hValue id place hId).2 now place).mpr hScheme⟩

/-- An identifier that starts like a URI is written as it is. One of another scheme is refused then,
and one of the scheme of pointers is read as a pointer to something else. -/
theorem bare_pointers_lost :
    let options := Garage.bareOptions
    Garage.registry.validate = .ok () ∧ options.bareIdentifiers = true ∧
      Garage.registry.IsPlace Garage.car ∧ Garage.car.type = .relationship "garage@1.0.0.Car" ∧
      Garage.registry.index.class? "garage@1.0.0.Car" = some Garage.carClass ∧
      (∀ path, ∀ id ∈ ["urn:vin:1", "resource:garage@1.0.0.Car#2"],
        Writes ((Encoder.mk Garage.registry options).encodeProperty Garage.car path
          (Garage.carClass.pointerTo id)) (.string id)) ∧
      ∀ now place,
        (Decoder.standard Garage.registry now).decodeProperty Garage.car place
            (.string "urn:vin:1") =
          .error (.invalidAt place (.badPointer (.badScheme "urn:vin:1"))) ∧
        (Decoder.standard Garage.registry now).decodeProperty Garage.car place
            (.string "resource:garage@1.0.0.Car#2") = .ok (Garage.carClass.pointerTo "2") := by
  intro options
  have hSplit : splitQualified "garage@1.0.0.Car" = some (Garage.space, "Car") := by decide +kernel
  have hOther : ofUri "urn:vin:1" Garage.space "Car" = .error (.badScheme "urn:vin:1") := by
    decide +kernel
  have hSame : ofUri "resource:garage@1.0.0.Car#2" Garage.space "Car" =
      .ok ⟨Garage.space, "Car", "2"⟩ := by decide +kernel
  have hItem (now : DateTime) (place : Path) (text : String) :
      (Decoder.standard Garage.registry now).decodeProperty Garage.car place (.string text) =
        (Decoder.standard Garage.registry now).decodePointer "garage@1.0.0.Car" place text := by
    rw [Decoder.decodeProperty.eq_def, if_neg (by decide), Decoder.decodeItem.eq_def]
    rfl
  refine ⟨Garage.validate_registry, rfl, Garage.isPlace_car, rfl, rfl, fun path id _ => ?_,
    fun now place => ⟨?_, ?_⟩⟩
  · have hStrict : Garage.registry.IsStrict :=
      Garage.run_model ▸ Registry.isStrict_of_validate Garage.validate_run
    rw [Encoder.encodeProperty.eq_def, if_neg (by decide)]
    exact Encoder.encodeItem_pointerTo hStrict rfl rfl rfl path id
  · rw [hItem, Decoder.decodePointer, hSplit]
    simp only [Option.getD_some, hOther]
  · rw [hItem, Decoder.decodePointer, hSplit]
    simp only [Option.getD_some, hSame]
    rfl

end Relationship

end DomainModels
