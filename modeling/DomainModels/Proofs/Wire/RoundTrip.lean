import DomainModels.Proofs.Registry.Origins
import DomainModels.Proofs.Wire.Decode
import DomainModels.Proofs.Wire.ReadBack
import DomainModels.Proofs.Wire.Runs

/-!
Instances survive the way to a JSON tree and back.

What is read from a tree fits the types of the registry, so that it can be written, and what is
written is read as the instance that it was written for. Defaults have to be numbers of texts, which
they are where all models were read from texts: an instance that takes an infinite default is read
and cannot be written.
-/

namespace DomainModels

/-! ## A model of notes

A class with one instant, to see the way of an instance through a tree.
-/

namespace Notes

/-- The syntax tree of the model. -/
def model : Metamodel.Model :=
  { Metamodel.Model.empty "notes@1.0.0" with
    declarations :=
      [⟨"Note", .classBody .concept false none none
        [⟨"at", .typed .dateTime false false, [], none⟩], [], none⟩] }

/-- The property that holds the instant. -/
def atProperty : Property := ⟨"at", .value (.dateTime none), false, false, [], none⟩

/-- The model file. -/
def file : ModelFile where
  space := "notes@1.0.0"
  version := ⟨"notes", some ⟨1, 0, 0, "", ""⟩⟩
  fileName := none
  checksum := ModelFile.checksumOf model
  model := model
  declarations :=
    [⟨"Note", "notes@1.0.0", .classBody ⟨.concept, false, none, none, [atProperty]⟩, [], none⟩]
  explicitImports := []
  wildcardImports := []
  decorators := []

/-- The class of the notes. -/
def noteClass : ResolvedClass :=
  .concept "notes@1.0.0" "Note" none none
    [⟨atProperty, "notes@1.0.0.Note", .value (.dateTime none)⟩]

/-- The registry into which the model has been loaded. -/
def registry : Registry where
  files := [(rootNamespace, Root.file), ("notes@1.0.0", file)]
  index := ⟨Root.index.classes ++ [noteClass], []⟩
  factories := []

theorem build_files : TypeIndex.build registry.files .strict = .ok registry.index := by
  have hEach : TypeIndex.resolveEach registry.files .strict [noteClass.fqn] Root.findings =
      .ok [noteClass] :=
    Root.resolveEach_cons_sub rfl rfl rfl rfl rfl rfl
  exact (Root.build_of_rest rfl rfl rfl hEach rfl rfl rfl).trans
    (TypeIndex.checkPointers_of_no_pointers .strict (by decide) (by decide))

/-- The registry is the one into which the model is loaded. -/
theorem run_model :
    (Session.initial.run [.addModel ⟨model, none⟩]).registry = registry := by
  have hMade : Session.initial.registry.makeFile ⟨model, none⟩ = .ok file := rfl
  exact Session.run_addModel (Registry.addModel_of_build hMade rfl build_files)

theorem isPortable_registry : registry.IsPortable where
  identifiers := by decide +kernel
  defaults := Registry.hasEnumDefaults_of_values (by decide)
  numbers := Registry.hasFiniteDefaults_of_isNone (by decide)

/-- A tree of a note that was taken two hours east of UTC. -/
def tree : Json :=
  .object [("$class", .string "notes@1.0.0.Note"), ("at", .string "2020-01-01T02:00:00+02:00")]

/-- The note of the tree. -/
def note : Resource :=
  ⟨"notes@1.0.0", "Note", none, [("at", .dateTime ⟨1577836800, 0, 7200⟩)]⟩

theorem isWellFormed_tree : tree.IsWellFormed := by
  refine .object (by decide) fun member hMem => ?_
  rcases List.mem_cons.mp hMem with rfl | hMem
  · exact .string _
  · rw [List.mem_singleton.mp hMem]
    exact .string _

/-- The note is read into a new instance that holds nothing. -/
theorem decode_tree (now : DateTime) : (Decoder.standard registry now).decode tree = .ok note := by
  let p : ResolvedProperty := ⟨atProperty, "notes@1.0.0.Note", .value (.dateTime none)⟩
  let start : Resource := .empty "notes@1.0.0" "Note" none
  have hText : DateTime.parse? "2020-01-01T02:00:00+02:00" true 0 =
      some ⟨1577836800, 0, 7200⟩ := by
    decide +kernel
  have hAt : (Decoder.standard registry now).decodeProperty p (Path.root.field "at")
      (.string "2020-01-01T02:00:00+02:00") = .ok (.dateTime ⟨1577836800, 0, 7200⟩) := by
    rw [Decoder.decodeProperty.eq_def, if_neg (by decide), Decoder.decodeItem.eq_def]
    exact Decoder.decodeValue_eq_ok.mpr ⟨congrArg (Option.map Value.dateTime) hText, rfl⟩
  have hMembers : (Decoder.standard registry now).decodeMembers noteClass .root
      [("$class", .string "notes@1.0.0.Note"), ("at", .string "2020-01-01T02:00:00+02:00")]
      start [p] = .ok note := by
    rw [Decoder.decodeMembers.eq_def]
    simp only
    rw [if_neg (by decide)]
    split
    · rename_i hNone
      cases hNone
    · rename_i hNull
      cases hNull
    · rename_i json _ hFound
      cases hFound
      refine Outcome.bind_eq_ok.mpr ⟨_, hAt, ?_⟩
      rw [Decoder.decodeMembers]
      rfl
  exact Decoder.decodeResource_eq_ok.mpr
    ⟨noteClass, start, rfl, rfl, rfl, rfl, hMembers, rfl⟩

theorem isPortable_note : (Value.concept note).IsPortable where
  instants := by
    intro t hPart
    cases hPart with
    | field hMem hPart =>
        rw [note, List.mem_singleton] at hMem
        subst hMem
        cases hPart
        exact ⟨by decide, by decide +kernel⟩
  keys := by
    intro entries hPart
    cases hPart with
    | field hMem hPart =>
        rw [note, List.mem_singleton] at hMem
        subst hMem
        cases hPart

end Notes

/-! ## The way there and back -/

namespace Decoder

/-- What is read from a tree can be written, and what is written is read, at any time, as the same
instance with its instants in UTC. -/
theorem roundTrip {r : Registry} (hStrict : r.IsStrict) (hRegistry : r.IsPortable) {now : DateTime}
    (hNow : now.IsProper) {json : Json} (hJson : json.IsWellFormed) {x : Resource}
    (hRead : (standard r now).decode json = .ok x) (hPortable : (Value.concept x).IsPortable) :
    ∃ written, (Encoder.standard r).encode x = .ok written ∧
      ∀ later, (standard r later).decode written = .ok x.inUtc :=
  Encoder.exists_encode hStrict hRegistry.identifiers
    (fits_of_decode hStrict hRegistry hNow hJson hRead) hPortable

/-- Wherever a run of changes has led to a registry that validates, what is read from a tree can be
written, and what is written is read, at any time, as the same instance with its instants in UTC. -/
theorem roundTrip_of_run {changes : List Change}
    (hValid : (Session.initial.run changes).registry.validate = .ok ())
    (hRegistry : (Session.initial.run changes).registry.IsPortable) {now : DateTime}
    (hNow : now.IsProper) {json : Json} (hJson : json.IsWellFormed) {x : Resource}
    (hRead : (standard (Session.initial.run changes).registry now).decode json = .ok x)
    (hPortable : (Value.concept x).IsPortable) :
    ∃ written, (Encoder.standard (Session.initial.run changes).registry).encode x = .ok written ∧
      ∀ later, (standard (Session.initial.run changes).registry later).decode written =
        .ok x.inUtc :=
  roundTrip (Registry.isStrict_of_validate hValid) hRegistry hNow hJson hRead hPortable

/-- The note is read as it was written, in UTC. -/
theorem roundTrip_note :
    (standard Notes.registry ⟨0, 0, 0⟩).decode Notes.tree = .ok Notes.note ∧
      ∃ written, (Encoder.standard Notes.registry).encode Notes.note = .ok written ∧
        ∀ later, (standard Notes.registry later).decode written = .ok Notes.note.inUtc := by
  have hRead := Notes.decode_tree ⟨0, 0, 0⟩
  have hValid : Notes.registry.validate = .ok () := Registry.validate_of_build Notes.build_files
  refine ⟨hRead, ?_⟩
  rw [← Notes.run_model] at hRead hValid ⊢
  exact roundTrip_of_run hValid (Notes.run_model ▸ Notes.isPortable_registry)
    ⟨by decide, by decide⟩ Notes.isWellFormed_tree hRead Notes.isPortable_note

/-- Where all models were read from texts, nothing is asked of numbers. -/
theorem roundTrip_of_written {changes : List Change}
    (hWritten : ∀ change ∈ changes, change.IsWritten)
    (hValid : (Session.initial.run changes).registry.validate = .ok ())
    (hNames : (Session.initial.run changes).registry.HasIdentifiers)
    (hDefaults : (Session.initial.run changes).registry.HasEnumDefaults) {now : DateTime}
    (hNow : now.IsProper) {json : Json} (hJson : json.IsWellFormed) {x : Resource}
    (hRead : (standard (Session.initial.run changes).registry now).decode json = .ok x)
    (hPortable : (Value.concept x).IsPortable) :
    ∃ written, (Encoder.standard (Session.initial.run changes).registry).encode x = .ok written ∧
      ∀ later, (standard (Session.initial.run changes).registry later).decode written =
        .ok x.inUtc :=
  have hPlain : (Session.initial.run changes).registry.HasPlainDefaults :=
    ⟨hDefaults, Session.hasFiniteDefaults_of_run hWritten⟩
  roundTrip (Registry.isStrict_of_validate hValid) ⟨hPlain, hNames⟩ hNow hJson hRead hPortable

end Decoder

/-! ## A model of meters

The default of a reading is infinite.
-/

namespace Meters

def space : String := "meters@1.0.0"

/-- What a meter shows that was never read. -/
def unread : Float := 1.0 / 0.0

/-- The syntax tree of the model. -/
def model : Metamodel.Model :=
  { Metamodel.Model.empty space with
    declarations :=
      [⟨"Meter", .classBody .concept false none none
        [⟨"reading", .typed (.primitive (.double (some unread) none)) false false, [], none⟩], [],
        none⟩] }

/-- The property that holds what is read off. -/
def readingProperty : Property :=
  ⟨"reading", .value (.double none (some unread)), false, false, [], none⟩

/-- The model file. -/
def file : ModelFile where
  space := space
  version := ⟨"meters", some ⟨1, 0, 0, "", ""⟩⟩
  fileName := none
  checksum := ModelFile.checksumOf model
  model := model
  declarations :=
    [⟨"Meter", space, .classBody ⟨.concept, false, none, none, [readingProperty]⟩, [], none⟩]
  explicitImports := []
  wildcardImports := []
  decorators := []

def reading : ResolvedProperty :=
  ⟨readingProperty, "meters@1.0.0.Meter", .value (.double none (some unread))⟩

def meterClass : ResolvedClass := .concept space "Meter" none none [reading]

/-- The registry into which the model has been loaded. -/
def registry : Registry where
  files := [(rootNamespace, Root.file), (space, file)]
  index := ⟨Root.index.classes ++ [meterClass], []⟩
  factories := []

theorem build_files : TypeIndex.build registry.files .strict = .ok registry.index := by
  have hEach : TypeIndex.resolveEach registry.files .strict [meterClass.fqn] Root.findings =
      .ok [meterClass] :=
    Root.resolveEach_cons_sub rfl rfl rfl rfl rfl rfl
  exact (Root.build_of_rest rfl rfl rfl hEach rfl rfl rfl).trans
    (TypeIndex.checkPointers_of_no_pointers .strict (by decide) (by decide))

theorem run_model : (Session.initial.run [.addModel ⟨model, none⟩]).registry = registry := by
  have hMade : Session.initial.registry.makeFile ⟨model, none⟩ = .ok file := rfl
  exact Session.run_addModel (Registry.addModel_of_build hMade rfl build_files)

/-- A tree of a meter that does not say what the meter shows. -/
def tree : Json := .object [("$class", .string "meters@1.0.0.Meter")]

/-- A meter with the default. -/
def meter : Resource := ⟨space, "Meter", none, [("reading", .double unread)]⟩

theorem decode_tree (now : DateTime) : (Decoder.standard registry now).decode tree = .ok meter := by
  have hMembers : (Decoder.standard registry now).decodeMembers meterClass .root
      [("$class", .string "meters@1.0.0.Meter")] meter [reading] = .ok meter := by
    rw [Decoder.decodeMembers.eq_def]
    simp only
    rw [if_neg (by decide)]
    split
    · rw [Decoder.decodeMembers]
    · rw [Decoder.decodeMembers]
    · rename_i hFound
      cases hFound
  exact Decoder.decodeResource_eq_ok.mpr
    ⟨meterClass, meter, rfl, rfl, rfl, rfl, hMembers, rfl⟩

/-- Texts have no infinite numbers. -/
theorem encode_meter : (Encoder.standard registry).encode meter =
    .error (.invalidAt (Path.root.field "reading") .notFinite) := by
  have hReading (seen : List String) : (Encoder.standard registry).encodeProperty reading
      (Path.root.field reading.name) (.double unread) seen =
        .error (.invalidAt (Path.root.field "reading") .notFinite) := by
    rw [Encoder.encodeProperty.eq_def, if_neg (by decide), Encoder.encodeItem.eq_def]
    rfl
  have hMembers (seen : List String) : (Encoder.standard registry).encodeMembers meterClass .root
      meter [reading] seen = .error (.invalidAt (Path.root.field "reading") .notFinite) := by
    rw [Encoder.encodeMembers_held (p := reading) rfl rfl]
    show ((Encoder.standard registry).encodeProperty reading _ _ seen >>= _) = _
    rw [hReading]
    rfl
  show ((Encoder.standard registry).encodeResource none .root meter).run' [] = _
  rw [Encoder.encodeResource.eq_def]
  show ((Encoder.standard registry).encodeMembers meterClass .root meter [reading] [] >>= _)
    >>= _ = _
  rw [hMembers]
  rfl

theorem isWellFormed_tree : tree.IsWellFormed :=
  Json.isWellFormed_object.mpr ⟨List.nodup_singleton _, List.forall_mem_singleton.mpr (.string _)⟩

theorem isPortable_meter : (Value.concept meter).IsPortable where
  instants := by
    intro t hPart
    cases hPart with
    | field hMem hPart =>
        rw [meter, List.mem_singleton] at hMem
        subst hMem
        cases hPart
  keys := by
    intro entries hPart
    cases hPart with
    | field hMem hPart =>
        rw [meter, List.mem_singleton] at hMem
        subst hMem
        cases hPart

theorem hasEnumDefaults_registry : registry.HasEnumDefaults :=
  Registry.hasEnumDefaults_of_values (by decide)

end Meters

namespace Decoder

/-- A meter that was never read takes the infinite default. It is read from its tree, and cannot be
written. -/
theorem not_roundTrip_meter :
    let r := (Session.initial.run [.addModel ⟨Meters.model, none⟩]).registry
    r.validate = .ok () ∧ r.HasIdentifiers ∧ r.HasEnumDefaults ∧ Meters.tree.IsWellFormed ∧
      (standard r ⟨0, 0, 0⟩).decode Meters.tree = .ok Meters.meter ∧
      (Value.concept Meters.meter).IsPortable ∧
      (Encoder.standard r).encode Meters.meter =
        .error (.invalidAt (Path.root.field "reading") .notFinite) := by
  rw [Meters.run_model]
  exact ⟨Registry.validate_of_build Meters.build_files, by decide +kernel,
    Meters.hasEnumDefaults_registry, Meters.isWellFormed_tree, Meters.decode_tree _,
    Meters.isPortable_meter, Meters.encode_meter⟩

end Decoder

end DomainModels
