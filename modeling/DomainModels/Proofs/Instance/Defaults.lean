import DomainModels.Proofs.Instance.Blame
import DomainModels.Proofs.Registry.ClosedWorld
import DomainModels.Proofs.Wire.Acceptance

/-!
The defaults of new instances.

A class of a validated registry has instances, unless a scalar of date-times has a default that is
none: these defaults are only read when an instance is made. Nor is it checked whether a default
stands for a value of an enumeration where a class or a map is declared. New instances hold these
names, and they are not written.
-/

namespace DomainModels

/-! ## Defaults that are values -/

/-- The default is a value: that of a date-time is a text that stands for one. -/
def ResolvedProperty.HasReadableDefault (p : ResolvedProperty) : Prop :=
  ∀ text, p.type.value? = some (.dateTime (some text)) →
    ∃ t, DateTime.parse? text false 0 = some t

theorem ValueType.exists_makeDefault_iff {v : ValueType} {name : String} :
    (∃ made, v.makeDefault name = .ok made) ↔
      ∀ text, v = .dateTime (some text) → ∃ t, DateTime.parse? text false 0 = some t := by
  unfold makeDefault
  split
  · rename_i text
    split
    · rename_i t hParse
      refine ⟨fun _ other hOther => ?_, fun _ => ⟨_, rfl⟩⟩
      cases hOther
      exact ⟨t, hParse⟩
    · rename_i hNone
      constructor
      · rintro ⟨_, ⟨⟩⟩
      · intro hReadable
        obtain ⟨t, hParse⟩ := hReadable text rfl
        rw [hNone] at hParse
        cases hParse
  · rename_i hOther
    exact ⟨fun _ text hText => (hOther text hText).elim, fun _ => ⟨_, rfl⟩⟩

theorem ResolvedProperty.exists_default?_iff {p : ResolvedProperty} :
    (∃ default, p.default? = .ok default) ↔ p.HasReadableDefault := by
  have hItem : (∃ default, p.default? = .ok default) ↔
      ∃ made, p.type.makeDefault p.name = .ok made := by
    simp only [default?, Outcome.bind_eq_ok, Outcome.pure_eq_ok]
    constructor
    · rintro ⟨_, made, hMade, _⟩
      exact ⟨made, hMade⟩
    · rintro ⟨made, hMade⟩
      exact ⟨_, made, hMade, rfl⟩
  rw [hItem, HasReadableDefault]
  cases hType : p.type with
  | value v | scalar target v =>
      simp only [ResolvedType.makeDefault, ValueType.exists_makeDefault_iff, ResolvedType.value?,
        Option.some.injEq]
  | declared target default | relationship target =>
      refine ⟨fun _ text hText => ?_, fun _ => ⟨_, rfl⟩⟩
      cases hText

namespace Registry

variable {r : Registry} {c : ResolvedClass} {p : ResolvedProperty} {now : DateTime}

theorem exists_fillIn_iff {x : Resource} :
    (∃ y, fillIn c now x = .ok y) ↔ ∀ p ∈ c.properties, p.HasReadableDefault := by
  simp only [← ResolvedProperty.exists_default?_iff]
  refine ⟨fun ⟨y, hFill⟩ => ?_, fun hDefaults => exists_fillIn hDefaults now x⟩
  simp only [fillIn, Outcome.bind_eq_ok] at hFill
  obtain ⟨z, hSet, _⟩ := hFill
  exact (hasDefaults_of_setDefaults hSet).defined

/-- A new instance of a class, with the given identifier if the class is identified. -/
def create (r : Registry) (now : DateTime) (c : ResolvedClass) (id : String) :
    Except Failure Resource :=
  if c.isIdentified then r.newResource now c.space c.name id else r.newConcept now c.space c.name

section

variable (hFound : r.index.class? (qualify c.space c.name) = some c)
  (hConcrete : c.isAbstract = false) {id : String}

include hFound hConcrete

/-- A new instance is filled in, and then it is given its identifier. -/
theorem create_eq_ok {x : Resource} : r.create now c id = .ok x ↔
    ∃ y, fillIn c now (.empty c.space c.name c.identifier) = .ok y ∧ identified c id y = x := by
  unfold create
  split
  · rename_i hIdentified
    rw [newResource_eq_ok hFound]
    simp only [hConcrete, hIdentified, true_and]
  · rename_i hPlain
    have hNone : c.identifier = none := by
      simpa [ResolvedClass.isIdentified] using hPlain
    rw [newConcept_eq_ok hFound]
    simp only [hConcrete, Bool.eq_false_iff.mpr hPlain, true_and, identified, hNone,
      exists_eq_right]

/-- The only thing that can go wrong is the default of a date-time. -/
theorem failsOnly_create : Outcome.FailsOnly
    (fun failure => ∃ text name, failure = .illegalAnywhere (.badDateTimeDefault text name))
    (r.create now c id) := by
  have hFill {x : Resource} : Outcome.FailsOnly
      (fun failure => ∃ text name, failure = .illegalAnywhere (.badDateTimeDefault text name))
      (fillIn c now x) :=
    failsOnly_fillIn fun text name => ⟨text, name, rfl⟩
  have hClass : r.instantiable c.space c.name = .ok c :=
    (instantiable_eq_ok hFound).mpr ⟨hConcrete, rfl⟩
  unfold create
  split
  · rename_i hIdentified
    refine .bind (.of_eq_ok hClass) fun found hSame => ?_
    obtain ⟨_, rfl⟩ := (instantiable_eq_ok hFound).mp hSame
    rw [if_neg (by simp [hIdentified])]
    refine hFill.bind fun x hX => ?_
    obtain ⟨field, hField⟩ := Option.isSome_iff_exists.mp hIdentified
    have hHas : x.identifierField = some field :=
      (isFilled_of_fillIn hX).1.identifierField.trans hField
    rw [Resource.setIdentifier, hHas]
    exact .ok _
  · rename_i hPlain
    refine .bind (.of_eq_ok hClass) fun found hSame => ?_
    obtain ⟨_, rfl⟩ := (instantiable_eq_ok hFound).mp hSame
    rw [if_neg hPlain]
    exact hFill

/-- Every default is held, unless the identifier has taken its place. -/
theorem get?_of_create (hStrict : r.IsStrict) {x : Resource} (hNew : r.create now c id = .ok x)
    (hMem : p ∈ c.properties) {value : Value} (hDefault : p.default? = .ok (some value)) :
    c.identifier = some p.name ∨ x.get? p.name = some value := by
  obtain ⟨y, hFill, rfl⟩ := (create_eq_ok hFound hConcrete).mp hNew
  have hIsNew := isNew_identified hFill id
  obtain ⟨default, hSame, hHas⟩ := hIsNew.defaults p hMem
  rw [hDefault] at hSame
  cases hSame
  obtain ⟨held, hHeld⟩ := Resource.contains_eq_true.mp (hHas rfl)
  rcases hIsNew.values p.name held hHeld with hField | ⟨_, hName, _⟩ | ⟨q, hQ, hName, hOther⟩
  · exact .inl hField
  · -- The time stamp is supplied by the system, without a default.
    have hResolves := TypeIndex.resolves_of_class? hStrict.files hStrict.index hFound
    obtain ⟨owner, rfl | rfl⟩ := hResolves.isSupplied_of_isSystemName hStrict.files hMem
      (by rw [hName]; decide)
    · cases hDefault
    · cases hDefault
  · obtain rfl := hStrict.property_ext hFound hQ hMem hName
    rw [hDefault] at hOther
    cases hOther
    exact .inr hHeld

end

end Registry

/-! ## Defaults that are written -/

namespace Encoder

variable {r : Registry} {p : ResolvedProperty} {value : Value}

/-- Where the default of a property is written, it is written as an item of its type. -/
theorem AcceptsProperty.exists_writesItem (hAccepts : AcceptsProperty r p value)
    {made : Option Value} (hMade : p.type.makeDefault p.name = .ok made) (hDefault : p.default? = .ok (some value)) :
    ∃ item path json, made = some item ∧ (standard r).WritesItem path p.type item json := by
  simp only [ResolvedProperty.default?, hMade, Outcome.bind_eq_ok, Outcome.pure_eq_ok] at hDefault
  obtain ⟨_, hSame, hValue⟩ := hDefault
  cases hSame
  obtain ⟨json, hWrites⟩ := hAccepts .root
  obtain ⟨later, hResult⟩ := hWrites []
  have hWritten : MayWrite ((standard r).encodeProperty p .root value) json := ⟨[], later, hResult⟩
  rcases hWritten.property with ⟨hSingle, hItem⟩ | ⟨hArray, items, trees, rfl, rfl, hItems⟩
  · rw [hSingle] at hValue
    exact ⟨value, .root, json, hValue, hItem.item⟩
  · rw [if_pos hArray] at hValue
    obtain ⟨item, hSome, hSame⟩ := Option.map_eq_some_iff.mp hValue
    cases hSame
    obtain ⟨tree, _, ⟨place, hItem⟩, _, _⟩ := List.forall₂_cons_left_iff.mp hItems
    exact ⟨item, place, tree, hSome, hItem.item⟩

/-- A default that is written names a value of an enumeration where it is a name, and where it is a
double, it is a number. -/
theorem AcceptsProperty.hasPlainDefault (hAccepts : AcceptsProperty r p value)
    (hDefault : p.default? = .ok (some value)) : r.HasPlainDefault p := by
  refine ⟨fun target name hType => ?_, fun v hType x hX => ?_⟩
  · have hMade : p.type.makeDefault p.name = .ok (some (.enum name)) := by rw [hType]; rfl
    obtain ⟨item, path, json, hItem, hWritten⟩ := hAccepts.exists_writesItem hMade hDefault
    cases hItem
    rw [hType] at hWritten
    cases hWritten with
    | value hValue => cases hValue
    | enum hDeclared hBody =>
        obtain ⟨file, hFound⟩ := Registry.getType_eq_ok.mp hDeclared
        exact ⟨_, ModelFiles.body?_eq_some.mpr ⟨file, _, hFound, hBody⟩⟩
  · have hOwn : v.makeDefault p.name = .ok (some (.double x)) := by
      rw [← hX]
      cases v with
      | dateTime default => cases hX
      | _ => rfl
    have hMade : p.type.makeDefault p.name = .ok (some (.double x)) := by
      cases hWritten : p.type with
      | value w | scalar target w =>
          rw [hWritten] at hType
          cases hType
          exact hOwn
      | declared target default | relationship target =>
          rw [hWritten] at hType
          cases hType
    obtain ⟨item, path, json, hItem, hWritten⟩ := hAccepts.exists_writesItem hMade hDefault
    cases hItem
    cases (encodeValue_eq_ok.mp (hWritten.of_valueType hType)).2 with
    | double hFinite => exact hFinite

/-- The default of a property of an indexed class is written for the property exactly if it names a
value of an enumeration where it is a name, and is a number where it is a double. -/
theorem acceptsProperty_default_iff (hStrict : r.IsStrict) {fqn : String} {c : ResolvedClass}
    (hFound : r.index.class? fqn = some c) (hMem : p ∈ c.properties)
    (hDefault : p.default? = .ok (some value)) :
    AcceptsProperty r p value ↔ r.HasPlainDefault p :=
  ⟨fun hAccepts => hAccepts.hasPlainDefault hDefault, fun hPlain =>
    acceptsProperty_of_fits hStrict (hStrict.fits_default hFound hMem hPlain hDefault)⟩

end Encoder

namespace Registry

/-- Wherever a run of changes has led to a registry that validates, every indexed class that is not
abstract has new instances for every identifier, exactly if its date-times have defaults that can be
read; nothing else can go wrong. They hold the defaults of the class, where these are not replaced
by the identifier. A default is written for its property exactly if it names a value of an
enumeration where it is a name, and is a number where it is a double. -/
theorem instances_of_run {changes : List Change}
    (hValid : (Session.initial.run changes).registry.validate = .ok ()) :
    let r := (Session.initial.run changes).registry
    ∀ c ∈ r.index.classes, c.isAbstract = false → ∀ now id,
      ((∃ x, r.create now c id = .ok x) ↔ ∀ p ∈ c.properties, p.HasReadableDefault) ∧
        (∀ failure, r.create now c id = .error failure →
          ∃ text name, failure = .illegalAnywhere (.badDateTimeDefault text name)) ∧
        ∀ p ∈ c.properties, ∀ value, p.default? = .ok (some value) →
          (∀ x, r.create now c id = .ok x →
            c.identifier = some p.name ∨ x.get? p.name = some value) ∧
          (Encoder.AcceptsProperty r p value ↔ r.HasPlainDefault p) := by
  intro r c hMem hConcrete now id
  have hStrict : r.IsStrict := isStrict_of_validate hValid
  have hIndexed := TypeIndex.class?_of_mem hStrict.index hMem
  have hFound : r.index.class? (qualify c.space c.name) = some c := by
    rw [hStrict.qualify_of_class? hIndexed]
    exact hIndexed
  refine ⟨?_, failsOnly_create hFound hConcrete, fun p hP value hDefault =>
    ⟨fun x hNew => get?_of_create hFound hConcrete hStrict hNew hP hDefault,
      Encoder.acceptsProperty_default_iff hStrict hFound hP hDefault⟩⟩
  simp only [create_eq_ok hFound hConcrete]
  rw [exists_comm]
  simp only [exists_and_left, exists_eq', and_true]
  exact exists_fillIn_iff

end Registry

/-! ## A model of diaries

Meetings whose start has a default that is no date-time, for want of seconds, and visits to a place
that has a name as its default.
-/

namespace Diary

def space : String := "diary@1.0.0"

/-- The default of the scalar. -/
def whenText : String := "2024-03-01T10:15Z"

/-- The syntax tree of the model. -/
def model : Metamodel.Model :=
  { Metamodel.Model.empty space with
    declarations :=
      [⟨"When", .scalarBody (.dateTime (some whenText)), [], none⟩,
       ⟨"Place", .classBody .concept false none none [], [], none⟩,
       ⟨"Meeting", .classBody .concept false none none
         [⟨"start", .typed (.object ⟨"When", none⟩ none) false false, [], none⟩], [], none⟩,
       ⟨"Visit", .classBody .concept false none none
         [⟨"place", .typed (.object ⟨"Place", none⟩ (some "HOME")) false false, [], none⟩], [],
         none⟩] }

def startProperty : Property := ⟨"start", .declared ⟨"When", none⟩ none, false, false, [], none⟩

def placeProperty : Property :=
  ⟨"place", .declared ⟨"Place", none⟩ (some "HOME"), false, false, [], none⟩

/-- The model file. -/
def file : ModelFile where
  space := space
  version := ⟨"diary", some ⟨1, 0, 0, "", ""⟩⟩
  fileName := none
  checksum := ModelFile.checksumOf model
  model := model
  declarations :=
    [⟨"When", space, .scalarBody (.dateTime (some whenText)), [], none⟩,
     ⟨"Place", space, .classBody ⟨.concept, false, none, none, []⟩, [], none⟩,
     ⟨"Meeting", space, .classBody ⟨.concept, false, none, none, [startProperty]⟩, [], none⟩,
     ⟨"Visit", space, .classBody ⟨.concept, false, none, none, [placeProperty]⟩, [], none⟩]
  explicitImports := []
  wildcardImports := []
  decorators := []

def start : ResolvedProperty :=
  ⟨startProperty, "diary@1.0.0.Meeting", .scalar "diary@1.0.0.When" (.dateTime (some whenText))⟩

def place : ResolvedProperty :=
  ⟨placeProperty, "diary@1.0.0.Visit", .declared "diary@1.0.0.Place" (some "HOME")⟩

def placeClass : ResolvedClass := .concept space "Place" none none []

def meetingClass : ResolvedClass := .concept space "Meeting" none none [start]

def visitClass : ResolvedClass := .concept space "Visit" none none [place]

/-- The registry into which the model has been loaded. -/
def registry : Registry where
  files := [(rootNamespace, Root.file), (space, file)]
  index := ⟨Root.index.classes ++ [placeClass, meetingClass, visitClass], []⟩
  factories := []

theorem build_files : TypeIndex.build registry.files .strict = .ok registry.index := by
  have hEach : TypeIndex.resolveEach registry.files .strict
      [placeClass.fqn, meetingClass.fqn, visitClass.fqn] Root.findings =
      .ok [placeClass, meetingClass, visitClass] := by
    refine Root.resolveEach_cons_sub rfl rfl rfl rfl rfl ?_
    refine Root.resolveEach_cons_sub rfl rfl rfl rfl rfl ?_
    exact Root.resolveEach_cons_sub rfl rfl rfl rfl rfl rfl
  exact (Root.build_of_rest rfl rfl rfl hEach rfl rfl rfl).trans
    (TypeIndex.checkPointers_of_no_pointers .strict (by decide) (by decide))

theorem run_model : (Session.initial.run [.addModel ⟨model, none⟩]).registry = registry := by
  have hMade : Session.initial.registry.makeFile ⟨model, none⟩ = .ok file := rfl
  have hAdded : Session.initial.registry.addModel ⟨model, none⟩ = .ok (registry, file) :=
    Registry.addModel_of_build hMade rfl build_files
  exact Session.run_addModel hAdded

theorem validate_registry : registry.validate = .ok () := Registry.validate_of_build build_files

theorem parse?_whenText : DateTime.parse? whenText false 0 = none := by decide +kernel

theorem not_hasReadableDefault_start : ¬ start.HasReadableDefault := by
  intro hReadable
  obtain ⟨t, hParse⟩ := hReadable whenText rfl
  rw [parse?_whenText] at hParse
  cases hParse

/-- A place is no enumeration. -/
theorem not_hasPlainDefault_place : ¬ registry.HasPlainDefault place := by
  intro hPlain
  obtain ⟨values, hValues⟩ := hPlain.declared _ _ rfl
  cases hValues

end Diary

namespace Registry

/-- The model of diaries is valid. It has no meetings, since their default is no date-time, and the
place of a visit is a name that is not written. -/
theorem create_ne_ok_meeting : Diary.registry.validate = .ok () ∧
    Diary.meetingClass ∈ Diary.registry.index.classes ∧ Diary.meetingClass.isAbstract = false ∧
    (∀ now x, Diary.registry.newConcept now Diary.space "Meeting" ≠ .ok x) ∧
    Diary.visitClass ∈ Diary.registry.index.classes ∧
    Diary.place.default? = .ok (some (.enum "HOME")) ∧
    ¬ Encoder.AcceptsProperty Diary.registry Diary.place (.enum "HOME") := by
  refine ⟨Diary.validate_registry, by simp [Diary.registry], rfl, fun now x hNew => ?_,
    by simp [Diary.registry], rfl, fun hAccepts => ?_⟩
  · have hFound : Diary.registry.index.class? (qualify Diary.space "Meeting") =
        some Diary.meetingClass := rfl
    obtain ⟨_, _, hFill⟩ := (newConcept_eq_ok (c := Diary.meetingClass) hFound).mp hNew
    exact Diary.not_hasReadableDefault_start
      (exists_fillIn_iff.mp ⟨x, hFill⟩ Diary.start List.mem_cons_self)
  · exact Diary.not_hasPlainDefault_place (hAccepts.hasPlainDefault rfl)

/-- Visits can be made, and what they hold as their place is not written. Meetings cannot be
made. -/
theorem instances_of_diary : Diary.registry.validate = .ok () ∧ ∀ now,
    (∃ x, Diary.registry.create now Diary.visitClass "" = .ok x) ∧
      ¬ Encoder.AcceptsProperty Diary.registry Diary.place (.enum "HOME") ∧
      ¬ ∃ x, Diary.registry.create now Diary.meetingClass "" = .ok x := by
  have hValid : (Session.initial.run [.addModel ⟨Diary.model, none⟩]).registry.validate = .ok () :=
    Diary.run_model ▸ Diary.validate_registry
  have hAll := instances_of_run hValid
  rw [Diary.run_model] at hAll
  refine ⟨Diary.validate_registry, fun now => ?_⟩
  obtain ⟨hVisit, _, hPlace⟩ := hAll Diary.visitClass (by simp [Diary.registry]) rfl now ""
  obtain ⟨hMeeting, _⟩ := hAll Diary.meetingClass (by simp [Diary.registry]) rfl now ""
  refine ⟨hVisit.mpr ?_, ?_, fun hMade => ?_⟩
  · intro p hMem text hText
    rw [List.mem_singleton.mp hMem] at hText
    cases hText
  · intro hAccepts
    exact Diary.not_hasPlainDefault_place
      ((hPlace Diary.place List.mem_cons_self _ rfl).2.mp hAccepts)
  · exact Diary.not_hasReadableDefault_start (hMeeting.mp hMade Diary.start List.mem_cons_self)

end Registry

end DomainModels
