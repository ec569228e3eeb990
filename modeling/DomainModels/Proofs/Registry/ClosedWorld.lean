import DomainModels.Proofs.Generator.Blame
import DomainModels.Proofs.Wire.Blame

/-!
Registries that validate are closed worlds.

Every property holds one kind of thing, and what it refers to is declared and indexed. So neither a
reader nor a generator meets a reference that stands for nothing.
-/

namespace DomainModels

namespace Registry

/-- Wherever a run of changes has led to a registry that validates, and whose declarations have
simple names, exactly one kind of thing stands at each property of an indexed class and at the keys
and values of an indexed map: a primitive value, a scalar that is replaced by the type that it
declares, a value of an enumeration, an indexed map, or an indexed class, which is identified where
it is pointed to. Reading a tree meets no scalar that was not replaced, and the only name that may
turn out to stand for nothing is that of the class that the root of the tree gives. Generating an
instance of an indexed class meets neither. -/
theorem closedWorld_of_run {changes : List Change}
    (hValid : (Session.initial.run changes).registry.validate = .ok ())
    (hNames : ModelFiles.HasSimpleNames (Session.initial.run changes).registry.files) :
    let r := (Session.initial.run changes).registry
    (∀ c ∈ r.index.classes, ∀ p ∈ c.properties, ∃! kind, r.Holds p kind) ∧
      (∀ m ∈ r.index.maps, (∃! kind, r.Holds m.key kind) ∧ ∃! kind, r.Holds m.value kind) ∧
      (∀ now options json,
        (∀ path target, (Decoder.mk r now options).decode json ≠
          .error (.invalid (.boxedScalar target) path)) ∧
        ∀ name cause, (Decoder.mk r now options).decode json = .error (.missing name cause) →
          ∃ members, json = .object members ∧
            (members.lookup classKey).bind Json.string? = some name ∧
            r.index.class? name = none) ∧
      ∀ (σ : Type) (now : DateTime) (source : ValueSource σ) (includeOptional : Bool)
        (space typeName : String) (state : σ),
        (r.index.class? (qualify space typeName)).isSome = true →
        (∀ target field, (Generator.mk r now source includeOptional).generate space typeName state ≠
          .error (.ungenerable (.boxedScalar target field))) ∧
        ∀ name cause, (Generator.mk r now source includeOptional).generate space typeName state ≠
          .error (.missing name cause) := by
  intro r
  have hStrict : r.IsStrict := isStrict_of_validate hValid
  have hUnique {p : ResolvedProperty} (hSome : ∃ kind, r.Holds p kind) :
      ∃! kind, r.Holds p kind := by
    obtain ⟨kind, hHolds⟩ := hSome
    exact ⟨kind, hHolds, fun other hOther => hOther.eq_holding.trans hHolds.eq_holding.symm⟩
  refine ⟨fun c hClass p hMem => hUnique (hStrict.exists_holds_of_mem hNames hClass hMem),
    fun m hMem => ?_, fun now options json => ⟨fun path target hFailed => ?_, ?_⟩, ?_⟩
  · obtain ⟨hKey, hValue⟩ := hStrict.exists_holds_of_map hNames hMem
    exact ⟨hUnique hKey, hUnique hValue⟩
  · obtain ⟨_, _, _, _, _, _, hMissing⟩ :=
      Decoder.missing_of_decode (d := ⟨r, now, options⟩) hStrict hNames hFailed id
    cases hMissing
  · intro name cause hFailed
    obtain ⟨members, _, _, hJson, hName, hNone, hMissing⟩ :=
      Decoder.missing_of_decode (d := ⟨r, now, options⟩) hStrict hNames hFailed id
    cases hMissing
    exact ⟨members, hJson, hName, hNone⟩
  · intro σ now source includeOptional space typeName state hSome
    obtain ⟨c, hFound⟩ := Option.isSome_iff_exists.mp hSome
    have hSpares := (Generator.sparesTypes_generateFrom
      (g := ⟨r, now, source, includeOptional⟩) hStrict hNames hFound state).map (·.1)
    exact ⟨fun target field hFailed => hSpares _ hFailed,
      fun name cause hFailed => hSpares _ hFailed⟩

end Registry

/-! ## A model of garages

Cars and bikes with identifiers, owners of cars, and a log of cars by their parking places.
-/

namespace Garage

def space : String := "garage@1.0.0"

/-- The syntax tree of the model. -/
def model : Metamodel.Model :=
  { Metamodel.Model.empty space with
    declarations :=
      [⟨"Plate", .scalarBody (.primitive (.string none none none)), [], none⟩,
       ⟨"Colour", .enumBody [⟨"RED", .enumValue, [], none⟩], [], none⟩,
       ⟨"Log", .mapBody .string (.relationship ⟨"Car", none⟩), [], none⟩,
       ⟨"Car", .classBody .concept false none (some (.by "vin"))
         [⟨"vin", .typed (.primitive (.string none none none)) false false, [], none⟩,
          ⟨"plate", .typed (.object ⟨"Plate", none⟩ none) false true, [], none⟩,
          ⟨"colour", .typed (.object ⟨"Colour", none⟩ none) false true, [], none⟩], [], none⟩,
       ⟨"Bike", .classBody .concept false none (some (.by "frame"))
         [⟨"frame", .typed (.primitive (.string none none none)) false false, [], none⟩], [], none⟩,
       ⟨"Owner", .classBody .concept false none none
         [⟨"car", .typed (.relationship ⟨"Car", none⟩) false false, [], none⟩,
          ⟨"log", .typed (.object ⟨"Log", none⟩ none) false true, [], none⟩], [], none⟩] }

def vinProperty : Property := ⟨"vin", .value (.string none none), false, false, [], none⟩

def plateProperty : Property := ⟨"plate", .declared ⟨"Plate", none⟩ none, false, true, [], none⟩

def colourProperty : Property := ⟨"colour", .declared ⟨"Colour", none⟩ none, false, true, [], none⟩

def frameProperty : Property := ⟨"frame", .value (.string none none), false, false, [], none⟩

def carProperty : Property := ⟨"car", .relationship ⟨"Car", none⟩, false, false, [], none⟩

def logProperty : Property := ⟨"log", .declared ⟨"Log", none⟩ none, false, true, [], none⟩

/-- The model file. -/
def file : ModelFile where
  space := space
  version := ⟨"garage", some ⟨1, 0, 0, "", ""⟩⟩
  fileName := none
  checksum := ModelFile.checksumOf model
  model := model
  declarations :=
    [⟨"Plate", space, .scalarBody (.string none none), [], none⟩,
     ⟨"Colour", space, .enumBody [⟨"RED", [], none⟩], [], none⟩,
     ⟨"Log", space, .mapBody (.value (.string none none)) (.relationship ⟨"Car", none⟩), [], none⟩,
     ⟨"Car", space, .classBody ⟨.concept, false, none, some (.by "vin"),
       [vinProperty, plateProperty, colourProperty]⟩, [], none⟩,
     ⟨"Bike", space, .classBody ⟨.concept, false, none, some (.by "frame"), [frameProperty]⟩, [],
       none⟩,
     ⟨"Owner", space, .classBody ⟨.concept, false, none, none, [carProperty, logProperty]⟩, [],
       none⟩]
  explicitImports := []
  wildcardImports := []
  decorators := []

def vin : ResolvedProperty := ⟨vinProperty, "garage@1.0.0.Car", .value (.string none none)⟩

def plate : ResolvedProperty :=
  ⟨plateProperty, "garage@1.0.0.Car", .scalar "garage@1.0.0.Plate" (.string none none)⟩

def colour : ResolvedProperty :=
  ⟨colourProperty, "garage@1.0.0.Car", .declared "garage@1.0.0.Colour" none⟩

def frame : ResolvedProperty := ⟨frameProperty, "garage@1.0.0.Bike", .value (.string none none)⟩

def car : ResolvedProperty := ⟨carProperty, "garage@1.0.0.Owner", .relationship "garage@1.0.0.Car"⟩

def log : ResolvedProperty := ⟨logProperty, "garage@1.0.0.Owner", .declared "garage@1.0.0.Log" none⟩

def carClass : ResolvedClass := .concept space "Car" none (some "vin") [vin, plate, colour]

def bikeClass : ResolvedClass := .concept space "Bike" none (some "frame") [frame]

def ownerClass : ResolvedClass := .concept space "Owner" none none [car, log]

/-- The parts of the log. -/
def logMap : ResolvedMap where
  fqn := "garage@1.0.0.Log"
  key := ⟨⟨mapKeyField, .value (.string none none), false, false, [], none⟩, "garage@1.0.0.Log",
    .value (.string none none)⟩
  value := ⟨⟨mapValueField, .relationship ⟨"Car", none⟩, false, false, [], none⟩,
    "garage@1.0.0.Log", .relationship "garage@1.0.0.Car"⟩

/-- The registry into which the model has been loaded. -/
def registry : Registry where
  files := [(rootNamespace, Root.file), (space, file)]
  index := ⟨Root.index.classes ++ [carClass, bikeClass, ownerClass], [logMap]⟩
  factories := []

theorem build_files : TypeIndex.build registry.files .strict = .ok registry.index := by
  have hEach : TypeIndex.resolveEach registry.files .strict
      [carClass.fqn, bikeClass.fqn, ownerClass.fqn] Root.findings =
      .ok [carClass, bikeClass, ownerClass] := by
    refine Root.resolveEach_cons_sub rfl rfl rfl rfl rfl ?_
    refine Root.resolveEach_cons_sub rfl rfl rfl rfl rfl ?_
    exact Root.resolveEach_cons_sub rfl rfl rfl rfl rfl rfl
  have hFaults : registry.index.pointerFaults = [] := by
    have hOfClasses : (registry.index.classes.flatMap fun c => c.ownProperties.filterMap fun p =>
        (registry.index.pointerFault? p).map fun f => (c.fqn, f)) = [] := rfl
    have hOfMaps : (registry.index.maps.filterMap fun m =>
        (registry.index.pointerFault? m.value).map fun f => (m.fqn, f)) = [] := rfl
    simp only [TypeIndex.pointerFaults, hOfClasses, hOfMaps, List.append_nil, List.mergeSort_nil]
  exact (Root.build_of_rest rfl rfl rfl hEach rfl rfl rfl).trans
    (TypeIndex.checkPointers_of_no_faults .strict hFaults)

/-- The registry is the one into which the model is loaded. -/
theorem addModel_model : Session.initial.registry.addModel ⟨model, none⟩ = .ok (registry, file) := by
  have hMade : Session.initial.registry.makeFile ⟨model, none⟩ = .ok file := rfl
  exact Registry.addModel_of_build hMade rfl build_files

theorem run_model : (Session.initial.run [.addModel ⟨model, none⟩]).registry = registry :=
  Session.run_addModel addModel_model

theorem validate_registry : registry.validate = .ok () := Registry.validate_of_build build_files

theorem validate_run :
    (Session.initial.run [.addModel ⟨model, none⟩]).registry.validate = .ok () :=
  run_model ▸ validate_registry

theorem hasSimpleNames_registry : ModelFiles.HasSimpleNames registry.files := by
  decide +kernel

end Garage

namespace Registry

/-- In the model of garages a plate is a text, and owners and logs point to cars. -/
theorem closedWorld_garage : Garage.registry.validate = .ok () ∧
    ModelFiles.HasSimpleNames Garage.registry.files ∧
    (∃! kind, Garage.registry.Holds Garage.plate kind) ∧
    (∃! kind, Garage.registry.Holds Garage.car kind) ∧
    ∃! kind, Garage.registry.Holds Garage.logMap.value kind := by
  refine ⟨Garage.validate_registry, Garage.hasSimpleNames_registry, ?_⟩
  have hClosed := closedWorld_of_run Garage.validate_run
    (Garage.run_model ▸ Garage.hasSimpleNames_registry)
  rw [Garage.run_model] at hClosed
  obtain ⟨hClasses, hMaps, _⟩ := hClosed
  have hCar : Garage.carClass ∈ Garage.registry.index.classes := by
    simp [Garage.registry]
  have hOwner : Garage.ownerClass ∈ Garage.registry.index.classes := by
    simp [Garage.registry]
  refine ⟨hClasses _ hCar _ (by simp [Garage.carClass, ResolvedClass.concept]),
    hClasses _ hOwner _ (by simp [Garage.ownerClass, ResolvedClass.concept]),
    (hMaps _ List.mem_cons_self).2⟩

end Registry

end DomainModels
