import DomainModels.Proofs.Registry.ClosedWorld
import DomainModels.Proofs.Wire.Trace

/-!
Instances are written once.

A writer that deduplicates writes an instance with an identifier as an object that carries its URI
under `$id`, and as the URI wherever it stands again. Two keys of a map that are written alike upset
this: the item of the second one replaces that of the first, which may be the object.
-/

namespace DomainModels

open ModelFiles (IsLoaded Resolves)

namespace Registry

/-- The names of indexed classes have no `#`. -/
theorem HasIdentifiers.not_mem_of_class? {r : Registry} (hNames : r.HasIdentifiers)
    (hFiles : IsLoaded r.files) {mode : BuildMode}
    (hIndex : TypeIndex.build r.files mode = .ok r.index) {fqn : String} {c : ResolvedClass}
    (hFound : r.index.class? fqn = some c) : '#' ∉ fqn.toList := by
  intro hMem
  obtain ⟨_, hName, hSpace, hIdentifier⟩ :=
    hNames.names_of_resolves hFiles (TypeIndex.resolves_of_class? hFiles hIndex hFound)
  rw [← hName] at hMem
  exact absurd (isPlainChar_of_qualify hSpace hIdentifier hMem) (by decide)

end Registry

namespace Encoder

/-- The instances in a tree are written once. The object of an instance carries its URI, if it has
one, and no two of these objects carry the same; nor do any two objects of the tree, unless a key of
a map is written as `$id`. Where no map has two keys that are written alike, each instance of an
indexed class is written as an object, or as the `$id` of an object that starts earlier in the
document. -/
structure IsWrittenOnce (e : Encoder) (x : Resource) (json : Json) : Prop where
  uris : ∀ y members, (y, .object members) ∈ e.places (.concept x) json →
    members.lookup idKey = y.uri?.map Json.string
  nodup_uris : ((e.places (.concept x) json).filterMap fun place => place.2.get? idKey).Nodup
  nodup_ids : e.HasNoIdKeys (.concept x) → json.ids.Nodup
  once : e.HasDistinctKeys (.concept x) → ∀ before y tree after,
    e.places (.concept x) json = before ++ (y, tree) :: after →
      ∀ c, e.registry.index.class? y.fqn = some c →
        (∃ members, tree = .object members) ∨
          ∃ uri, tree = .string uri ∧ y.uri? = some uri ∧ ∃ z members,
            (z, .object members) ∈ before ∧ members.lookup idKey = some (.string uri)

/-- Whenever a writer that writes instances once writes a tree for an instance, the instances in the
tree are written once. -/
theorem WritesOnce.isWrittenOnce {e : Encoder} (hOnce : e.WritesOnce)
    (hNames : e.registry.HasIdentifiers) {x : Resource} {json : Json}
    (hWritten : e.encode x = .ok json) : e.IsWrittenOnce x json := by
  obtain ⟨mode, hIndex⟩ := hOnce.index
  have hPlain (fqn : String) (c : ResolvedClass) (hFound : e.registry.index.class? fqn = some c) :=
    hNames.not_mem_of_class? hOnce.files hIndex hFound
  obtain ⟨later, hTrace⟩ := exists_isTrace_of_encode hOnce hWritten
  obtain ⟨log, hLog, ⟨part, hPlaced, hPart⟩, hWhole⟩ := hTrace.logged
  have hNodup := (hPlaced.filterMap _).nodup_iff.mp
    ((hLog.nodup_ids hPlain).sublist (hPart.filterMap _))
  refine ⟨fun y members hMem => ?_, hNodup, fun hNoIds => ?_, ?_⟩
  · exact (hLog.of_object (hPart.subset (hPlaced.mem_iff.mpr hMem))).2.1
  · rw [hTrace.ids_eq hNoIds]
    exact hNodup
  · intro hDistinct before y tree after hSplit c hClass
    exact hLog.once hPlain ((hWhole hDistinct).symm.trans hSplit) hClass

/-- Wherever a run of changes has led to a registry whose declarations bear identifiers as their
names, and whatever else the options of a writer are that deduplicates instances, embeds them and
writes URIs, whenever it writes a tree for an instance, the instances in the tree are written
once. -/
theorem isWrittenOnce_of_encode {changes : List Change}
    (hNames : (Session.initial.run changes).registry.HasIdentifiers) {options : EncodeOptions}
    (hDeduplicate : options.deduplicate = true) (hEmbed : options.pointToResources = false)
    (hUris : options.bareIdentifiers = false) {x : Resource} {json : Json}
    (hWritten :
      (Encoder.mk (Session.initial.run changes).registry options).encode x = .ok json) :
    (Encoder.mk (Session.initial.run changes).registry options).IsWrittenOnce x json := by
  have hSound := Session.sound_run Session.sound_initial changes
  have hOnce : WritesOnce ⟨(Session.initial.run changes).registry, options⟩ :=
    ⟨hDeduplicate, hEmbed, hUris, hSound.files, _, hSound.index⟩
  exact hOnce.isWrittenOnce hNames hWritten

end Encoder

/-! ## A model of depots

Yards with a book of the cars that have arrived, by the time, and a spare car.
-/

namespace Depot

open Encoder

def space : String := "depot@1.0.0"

/-- The syntax tree of the model. -/
def model : Metamodel.Model :=
  { Metamodel.Model.empty space with
    declarations :=
      [⟨"Book", .mapBody .dateTime (.object ⟨"Car", none⟩), [], none⟩,
       ⟨"Car", .classBody .concept false none (some (.by "vin"))
         [⟨"vin", .typed (.primitive (.string none none none)) false false, [], none⟩], [], none⟩,
       ⟨"Yard", .classBody .concept false none none
         [⟨"book", .typed (.object ⟨"Book", none⟩ none) false false, [], none⟩,
          ⟨"spare", .typed (.object ⟨"Car", none⟩ none) false true, [], none⟩], [], none⟩] }

def vinProperty : Property := ⟨"vin", .value (.string none none), false, false, [], none⟩

def bookProperty : Property := ⟨"book", .declared ⟨"Book", none⟩ none, false, false, [], none⟩

def spareProperty : Property := ⟨"spare", .declared ⟨"Car", none⟩ none, false, true, [], none⟩

/-- The model file. -/
def file : ModelFile where
  space := space
  version := ⟨"depot", some ⟨1, 0, 0, "", ""⟩⟩
  fileName := none
  checksum := ModelFile.checksumOf model
  model := model
  declarations :=
    [⟨"Book", space, .mapBody (.value (.dateTime none)) (.declared ⟨"Car", none⟩ none), [], none⟩,
     ⟨"Car", space, .classBody ⟨.concept, false, none, some (.by "vin"), [vinProperty]⟩, [], none⟩,
     ⟨"Yard", space, .classBody ⟨.concept, false, none, none, [bookProperty, spareProperty]⟩, [],
       none⟩]
  explicitImports := []
  wildcardImports := []
  decorators := []

def vin : ResolvedProperty := ⟨vinProperty, "depot@1.0.0.Car", .value (.string none none)⟩

def book : ResolvedProperty :=
  ⟨bookProperty, "depot@1.0.0.Yard", .declared "depot@1.0.0.Book" none⟩

def spare : ResolvedProperty :=
  ⟨spareProperty, "depot@1.0.0.Yard", .declared "depot@1.0.0.Car" none⟩

def carClass : ResolvedClass := .concept space "Car" none (some "vin") [vin]

def yardClass : ResolvedClass := .concept space "Yard" none none [book, spare]

/-- The parts of the book. -/
def bookMap : ResolvedMap where
  fqn := "depot@1.0.0.Book"
  key := ⟨⟨mapKeyField, .value (.dateTime none), false, false, [], none⟩, "depot@1.0.0.Book",
    .value (.dateTime none)⟩
  value := ⟨⟨mapValueField, .declared ⟨"Car", none⟩ none, false, false, [], none⟩,
    "depot@1.0.0.Book", .declared "depot@1.0.0.Car" none⟩

/-- The registry into which the model has been loaded. -/
def registry : Registry where
  files := [(rootNamespace, Root.file), (space, file)]
  index := ⟨Root.index.classes ++ [carClass, yardClass], [bookMap]⟩
  factories := []

theorem build_files : TypeIndex.build registry.files .strict = .ok registry.index := by
  have hEach : TypeIndex.resolveEach registry.files .strict [carClass.fqn, yardClass.fqn]
      Root.findings = .ok [carClass, yardClass] := by
    refine Root.resolveEach_cons_sub rfl rfl rfl rfl rfl ?_
    exact Root.resolveEach_cons_sub rfl rfl rfl rfl rfl rfl
  exact (Root.build_of_rest rfl rfl rfl hEach rfl rfl rfl).trans
    (TypeIndex.checkPointers_of_no_pointers .strict (by decide) (by decide))

theorem run_model : (Session.initial.run [.addModel ⟨model, none⟩]).registry = registry := by
  have hMade : Session.initial.registry.makeFile ⟨model, none⟩ = .ok file := rfl
  have hAdded : Session.initial.registry.addModel ⟨model, none⟩ = .ok (registry, file) :=
    Registry.addModel_of_build hMade rfl build_files
  exact Session.run_addModel hAdded

theorem hasIdentifiers_registry : registry.HasIdentifiers := by decide +kernel

/-- The writer that deduplicates. -/
def writer : Encoder := ⟨registry, { EncodeOptions.default with deduplicate := true }⟩

/-- A car with an identifier. -/
def car : Resource := ⟨space, "Car", some "vin", [("vin", .string "V1")]⟩

/-- The URI of the car. -/
def carUri : String := "resource:depot@1.0.0.Car#V1"

/-- The object of the car. -/
def carTree : Json :=
  .object [(classKey, .string "depot@1.0.0.Car"), (idKey, .string carUri), ("vin", .string "V1")]

/-- The start of 1970, and the moment that follows. -/
def start : DateTime := ⟨0, 0, 0⟩

def moment : DateTime := ⟨0, 1, 0⟩

/-- The text of both, to the millisecond. -/
def startText : String := "1970-01-01T00:00:00.000Z"

/-- A yard with the entries of a book and the car. -/
def yardOf (entries : List (Value × Value)) : Resource :=
  ⟨space, "Yard", none, [("book", .map entries), ("spare", .concept car)]⟩

/-- The tree of a yard whose book is written as a tree, which contains the car. -/
def yardTree (json : Json) : Json :=
  .object [(classKey, .string "depot@1.0.0.Yard"), ("book", json), ("spare", .string carUri)]

/-- The fully-qualified identifier of the car. -/
def carId : String := "depot@1.0.0.Car#V1"

theorem toUri_car : (⟨space, "Car", "V1"⟩ : Relationship).toUri = carUri := by decide +kernel

theorem uri?_car : car.uri? = some carUri := congrArg some toUri_car

theorem render_start : start.render 0 = startText := by decide +kernel

theorem render_moment : moment.render 0 = startText := by decide +kernel

variable {path : Path} {p : ResolvedProperty} {json : Json} {entries : List (Value × Value)}

/-- The car is written as an object at first. -/
theorem runs_car (hType : p.type = .declared "depot@1.0.0.Car" none) :
    Runs (writer.encodeItem p path (.concept car)) [] carTree [carId] := by
  have hVin : Runs (writer.encodeProperty vin (path.field "vin") (.string "V1")) [carId]
      (.string "V1") [carId] := by
    rw [encodeProperty.eq_def, if_neg (by decide), encodeItem_of_valueType rfl]
    exact runs_lift.mpr ⟨rfl, rfl⟩
  have hMembers : Runs (writer.encodeMembers carClass path car [vin]) [carId]
      [("vin", .string "V1")] [carId] := by
    rw [encodeMembers_held rfl rfl, encodeMembers]
    exact runs_bind.mpr ⟨_, _, hVin, runs_pure.mpr ⟨rfl, rfl⟩⟩
  have hHead : writer.headMembers carClass car =
      [(classKey, .string "depot@1.0.0.Car"), (idKey, .string carUri)] := by
    simp only [headMembers, uri?_car]
    rfl
  rw [encodeItem.eq_def, hType]
  refine runs_lift_bind.mpr ⟨_, rfl, runs_encodeResource.mpr ?_⟩
  exact ⟨carClass, _, rfl, fun _ => rfl, hMembers, by rw [hHead]; rfl⟩

/-- The car is written as its URI from then on. -/
theorem runs_car_again (hType : p.type = .declared "depot@1.0.0.Car" none) :
    Runs (writer.encodeItem p path (.concept car)) [carId] (.string carUri) [carId] := by
  rw [encodeItem.eq_def, hType]
  exact runs_lift_bind.mpr ⟨_, rfl, runs_pure.mpr ⟨congrArg _ toUri_car, rfl⟩⟩

/-- A key at the start of 1970 is written as its text. -/
theorem encodeValue_key {key : DateTime} (hText : key.render 0 = startText) :
    writer.encodeValue (.dateTime none) path (.dateTime key) = .ok (.string startText) :=
  encodeValue_eq_ok.mpr ⟨fun _ => rfl, hText ▸ .dateTime key⟩

/-- A yard is written when its book is, in which the car is written first. -/
theorem encode_yardOf (hBook : Runs (writer.encodeProperty book (Path.root.field "book")
    (.map entries)) [] json [carId]) : writer.encode (yardOf entries) = .ok (yardTree json) := by
  have hSpare : Runs (writer.encodeProperty spare (Path.root.field "spare") (.concept car)) [carId]
      (.string carUri) [carId] := by
    rw [encodeProperty.eq_def, if_neg (by decide)]
    exact runs_car_again rfl
  have hMembers : Runs (writer.encodeMembers yardClass .root (yardOf entries) [book, spare]) []
      [("book", json), ("spare", .string carUri)] [carId] := by
    have hGetBook : (yardOf entries).get? book.name = some (.map entries) := rfl
    have hGetSpare : (yardOf entries).get? spare.name = some (.concept car) := rfl
    rw [encodeMembers_held rfl hGetBook, encodeMembers_held rfl hGetSpare, encodeMembers]
    refine runs_bind.mpr ⟨_, _, hBook, runs_bind_pure.mpr ⟨_, ?_, rfl⟩⟩
    exact runs_bind.mpr ⟨_, _, hSpare, runs_pure.mpr ⟨rfl, rfl⟩⟩
  have hYard : Runs (writer.encodeResource none .root (yardOf entries)) [] (yardTree json)
      [carId] :=
    runs_encodeResource.mpr ⟨yardClass, _, rfl, fun _ => rfl, hMembers, rfl⟩
  exact Outcome.map_eq_ok.mpr ⟨_, hYard, rfl⟩

/-- A book is written when its entries are. -/
theorem runs_book {members : List (String × Json)} (hEntries : ∀ path,
    Runs (writer.encodeEntries (.dateTime none) bookMap.value path [] entries) [] members [carId]) :
    Runs (writer.encodeProperty book path (.map entries)) [] (.object members) [carId] := by
  rw [encodeProperty.eq_def, if_neg (by decide), encodeItem_of_mapBody rfl rfl rfl]
  exact runs_encodeMap.mpr ⟨bookMap, _, members, rfl, rfl, hEntries path, rfl⟩

/-- The yard with one arrival of the car. -/
def yard : Resource := yardOf [(.dateTime start, .concept car)]

theorem encode_yard :
    writer.encode yard = .ok (yardTree (.object [(startText, carTree)])) := by
  refine encode_yardOf (runs_book fun path => ?_)
  rw [encodeEntries]
  refine runs_lift_bind.mpr
    ⟨_, encodeValue_key render_start, runs_bind.mpr ⟨_, _, runs_car rfl, ?_⟩⟩
  rw [encodeEntries]
  exact runs_pure.mpr ⟨rfl, rfl⟩

/-- The yard with two arrivals of the car, within the same millisecond. -/
def busyYard : Resource :=
  yardOf [(.dateTime start, .concept car), (.dateTime moment, .concept car)]

theorem encode_busyYard :
    writer.encode busyYard = .ok (yardTree (.object [(startText, .string carUri)])) := by
  refine encode_yardOf (runs_book fun path => ?_)
  rw [encodeEntries]
  refine runs_lift_bind.mpr
    ⟨_, encodeValue_key render_start, runs_bind.mpr ⟨_, _, runs_car rfl, ?_⟩⟩
  rw [encodeEntries]
  refine runs_lift_bind.mpr
    ⟨_, encodeValue_key render_moment, runs_bind.mpr ⟨_, _, runs_car_again rfl, ?_⟩⟩
  rw [encodeEntries]
  exact runs_pure.mpr ⟨rfl, rfl⟩

/-- The book is the only map in a yard, and its keys are dates. -/
theorem eq_of_isPart_yard (hPart : Value.IsPart (.map entries) (.concept yard)) :
    entries = [(.dateTime start, .concept car)] := by
  have hNotCar : ¬ Value.IsPart (.map entries) (.concept car) := by
    intro hCar
    cases hCar with
    | field hMem hInner =>
        rw [List.mem_singleton.mp hMem] at hInner
        cases hInner
  cases hPart with
  | field hMem hInner =>
      rcases List.mem_cons.mp hMem with rfl | hMem
      · cases hInner with
        | refl => rfl
        | key hMem hInner =>
            rw [List.mem_singleton.mp hMem] at hInner
            cases hInner
        | entry hMem hInner =>
            rw [List.mem_singleton.mp hMem] at hInner
            exact absurd hInner hNotCar
      · rw [List.mem_singleton.mp hMem] at hInner
        exact absurd hInner hNotCar

end Depot

namespace Encoder

open Depot

/-- The yard with one arrival is written once, and so is the car in it. -/
theorem isWrittenOnce_yard :
    writer.encode yard = .ok (yardTree (.object [(startText, carTree)])) ∧
    writer.HasDistinctKeys (.concept yard) ∧ writer.HasNoIdKeys (.concept yard) ∧
    writer.IsWrittenOnce yard (yardTree (.object [(startText, carTree)])) := by
  have hText : writer.keyName? (.dateTime start) = some startText := congrArg some render_start
  refine ⟨encode_yard, fun entries hPart => ?_, fun entries hPart entry hMem => ?_, ?_⟩
  · rw [eq_of_isPart_yard hPart, List.filterMap_cons, hText]
    exact List.nodup_singleton startText
  · rw [eq_of_isPart_yard hPart] at hMem
    rw [List.mem_singleton.mp hMem, hText]
    decide
  · have hWritten := encode_yard
    have hNames := hasIdentifiers_registry
    unfold writer at hWritten ⊢
    rw [← run_model] at hWritten hNames ⊢
    exact isWrittenOnce_of_encode hNames rfl rfl rfl hWritten

/-- The book of the busy yard has two keys that are written alike. The car is written as its URI at
both of its places, and no object carries it. -/
theorem no_ids_busyYard : Depot.registry.HasIdentifiers ∧ writer.options.deduplicate = true ∧
    writer.options.pointToResources = false ∧ writer.options.bareIdentifiers = false ∧
    writer.encode busyYard = .ok (yardTree (.object [(startText, .string carUri)])) ∧
    (yardTree (.object [(startText, .string carUri)])).ids = [] ∧
    (car, .string carUri) ∈
      writer.places (.concept busyYard) (yardTree (.object [(startText, .string carUri)])) := by
  refine ⟨hasIdentifiers_registry, rfl, rfl, rfl, encode_busyYard, rfl, ?_⟩
  have hHeld : writer.held? busyYard "spare" = some (.concept car) := rfl
  rw [yardTree, places_object]
  refine List.mem_cons_of_mem _ (List.mem_flatMap.mpr ⟨("spare", .string carUri), by simp, ?_⟩)
  rw [hHeld]
  show (car, .string carUri) ∈ writer.places (.concept car) (.string carUri)
  rw [places_text]
  exact List.mem_singleton_self _

end Encoder

end DomainModels
