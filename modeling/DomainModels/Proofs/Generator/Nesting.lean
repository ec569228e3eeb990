import DomainModels.Proofs.Generator.Blame
import DomainModels.Proofs.Generator.Results
import DomainModels.Proofs.Generator.Termination
import DomainModels.Proofs.Wire.Once

/-!
How generated instances are nested.

The classes of the instances around a place are all that the generator knows of the place. An
instance is drawn only where its class is not one of them, so that along every path into an instance
the classes are different, and no path is longer than there are classes.
-/

namespace DomainModels

/-- An instance that a value holds itself, in an array, or as a value of a map, and not within
another instance. -/
inductive Value.Holds (x : Resource) : Value → Prop where
  | concept : Holds x (.concept x)
  | item {items : List Value} {item : Value} (hMem : item ∈ items) (hItem : Holds x item) :
      Holds x (.array items)
  | entry {entries : List (Value × Value)} {entry : Value × Value} (hMem : entry ∈ entries)
      (hEntry : Holds x entry.2) : Holds x (.map entries)

/-- An instance holds another one in one of its fields. -/
def Resource.Embeds (x inner : Resource) : Prop := ∃ field ∈ x.values, field.2.Holds inner

/-- Along every path into an instance the classes are different. They are classes of the index, and
none of them is among those around the instance. -/
def Resource.IsApart (index : TypeIndex) (stack : List String) (x : Resource) : Prop :=
  ∀ path, (x :: path).IsChain Embeds → ((x :: path).map fqn).Nodup ∧
    ∀ name ∈ (x :: path).map fqn, name ∉ stack ∧ name ∈ index.classes.map (·.fqn)

/-- So it is for all instances that a value holds. -/
def Value.IsApart (index : TypeIndex) (stack : List String) (value : Value) : Prop :=
  ∀ x, value.Holds x → x.IsApart index stack

section

variable {index : TypeIndex} {stack : List String} {value : Value} {x : Resource}

/-- The class of an instance is new, and is one more class around the instances in it. -/
theorem Resource.IsApart.enter (hClass : x.fqn ∈ index.classes.map (·.fqn)) (hNew : x.fqn ∉ stack)
    (hFields : ∀ field ∈ x.values, field.2.IsApart index (x.fqn :: stack)) :
    x.IsApart index stack := by
  intro path hChain
  cases path with
  | nil => exact ⟨List.nodup_singleton _, List.forall_mem_singleton.mpr ⟨hNew, hClass⟩⟩
  | cons inner path =>
      obtain ⟨⟨field, hMem, hHolds⟩, hRest⟩ := List.isChain_cons_cons.mp hChain
      obtain ⟨hNodup, hNames⟩ := hFields field hMem inner hHolds path hRest
      refine ⟨List.nodup_cons.mpr ⟨fun hSame => (hNames _ hSame).1 List.mem_cons_self, hNodup⟩, ?_⟩
      refine List.forall_mem_cons.mpr ⟨⟨hNew, hClass⟩, fun name hName => ?_⟩
      exact ⟨List.not_mem_of_not_mem_cons (hNames name hName).1, (hNames name hName).2⟩

namespace Value

/-- Nothing is to be shown of a value that holds no instance. -/
theorem isApart_of_plain (hPlain : ∀ x, ¬ value.Holds x) : value.IsApart index stack :=
  fun x hHolds => absurd hHolds (hPlain x)

theorem isApart_array {items : List Value} (hItems : ∀ item ∈ items, item.IsApart index stack) :
    (array items).IsApart index stack := by
  intro x hHolds
  cases hHolds with
  | item hMem hItem => exact hItems _ hMem x hItem

theorem isApart_map {entries : List (Value × Value)}
    (hEntries : ∀ entry ∈ entries, entry.2.IsApart index stack) :
    (map entries).IsApart index stack := by
  intro x hHolds
  cases hHolds with
  | entry hMem hEntry => exact hEntries _ hMem x hEntry

theorem isApart_concept (hApart : x.IsApart index stack) : (concept x).IsApart index stack := by
  rintro _ ⟨⟩
  exact hApart

end Value

end

/-- The default of a primitive type is a value of it. -/
theorem ValueType.not_holds_of_makeDefault {type : ValueType} {name : String} {value : Value}
    (hMade : type.makeDefault name = .ok (some value)) (x : Resource) : ¬ value.Holds x := by
  have hStored (hDefault : type.default? = some value) : ¬ value.Holds x := by
    cases type <;> simp only [default?, Option.map_eq_some_iff, reduceCtorEq] at hDefault
    all_goals
      obtain ⟨_, _, rfl⟩ := hDefault
      exact nofun
  unfold makeDefault at hMade
  split at hMade
  · split at hMade
    · cases hMade
      exact nofun
    · cases hMade
  · exact hStored (Except.ok.inj hMade)

/-- No default is an instance. -/
theorem ResolvedProperty.not_holds_of_default? {p : ResolvedProperty} {value : Value}
    (hDefault : p.default? = .ok (some value)) (x : Resource) : ¬ value.Holds x := by
  have hItem {item : Value} (hMade : p.type.makeDefault p.name = .ok (some item)) :
      ¬ item.Holds x := by
    unfold ResolvedType.makeDefault at hMade
    split at hMade
    · exact ValueType.not_holds_of_makeDefault hMade x
    · exact ValueType.not_holds_of_makeDefault hMade x
    · obtain ⟨_, _, rfl⟩ := Option.map_eq_some_iff.mp (Except.ok.inj hMade)
      exact nofun
    · cases hMade
  simp only [default?, Outcome.bind_eq_ok, Outcome.pure_eq_ok] at hDefault
  obtain ⟨made, hMade, hValue⟩ := hDefault
  split at hValue
  · obtain ⟨item, rfl, rfl⟩ := Option.map_eq_some_iff.mp hValue
    rintro (_ | ⟨hMem, hHolds⟩)
    exact hItem hMade (List.mem_singleton.mp hMem ▸ hHolds)
  · exact hItem (hValue ▸ hMade)

namespace Generator

variable {σ : Type} {g : Generator σ} {p : ResolvedProperty} {target : String}
  {stack : List String} {item : ItemMaker σ} {mode : BuildMode}

/-- Values of primitive types hold no instances. -/
theorem yields_drawValue_plain {type : ValueType} :
    Yields (fun value => ∀ x, ¬ value.Holds x) (g.drawValue type) := by
  cases type <;> exact .draw fun s => nofun

section

variable (hFiles : g.registry.files.IsLoaded)
  (hIndex : TypeIndex.build g.registry.files mode = .ok g.registry.index)

include hFiles hIndex

/-- An instance is apart from those around it if its class is new and what its properties are given
is apart from the instance, too. -/
theorem isApart_of_isDrawnInstance {P : ResolvedProperty → Value → Prop} {c : ResolvedClass}
    {id : String} {start x : Resource} (hDrawn : g.IsDrawnInstance P target c id start x)
    (hNew : c.fqn ∉ stack)
    (hItems : ∀ p value, P p value → value.IsApart g.registry.index (c.fqn :: stack)) :
    x.IsApart g.registry.index stack := by
  have hName : x.fqn = c.fqn := by
    rw [Resource.fqn, hDrawn.populated.space, hDrawn.populated.typeName, hDrawn.isNew.space,
      hDrawn.isNew.typeName]
    exact (TypeIndex.mem_of_class? (class?_of_concrete hFiles hIndex hDrawn.replaces)).2.symm
  have hClass := List.mem_map_of_mem (f := (·.fqn)) (mem_classes_of_concrete hDrawn.replaces)
  refine .enter (hName ▸ hClass) (hName ▸ hNew) ?_
  rw [hName]
  rintro ⟨name, value⟩ hMem
  have hGet : x.get? name = some value :=
    Table.find?_of_mem (hDrawn.populated.sorted hDrawn.isNew.sorted) hMem
  rcases hDrawn.populated.drawn name value hGet with hStart | ⟨p, _, _, _, hConsists⟩
  · refine Value.isApart_of_plain fun inner hHolds => ?_
    rcases hDrawn.isNew.values name value hStart with hField | ⟨_, _, rfl⟩ | ⟨p, _, _, hDefault⟩
    · rw [hDrawn.isNew.identifier name hField] at hStart
      cases hStart
      cases hHolds
    · cases hHolds
    · exact p.not_holds_of_default? hDefault inner hHolds
  · cases hConsists with
    | item _ hItem => exact hItems p value hItem
    | array _ hArray => exact Value.isApart_array fun item hMem => hItems p item (hArray item hMem)

theorem yields_isApart_instance
    (hNew : ∀ c, concrete g.registry target = .ok c → c.fqn ∉ stack)
    (hItem : ∀ c p, concrete g.registry target = .ok c →
      reenters g.registry (c.fqn :: stack) p = false →
      Yields (Value.IsApart g.registry.index (c.fqn :: stack)) (item (c.fqn :: stack) p)) :
    Yields (Resource.IsApart g.registry.index stack) (g.drawInstance item stack target) := by
  refine (yields_drawInstance (P := fun _ value => ∀ c, concrete g.registry target = .ok c →
      value.IsApart g.registry.index (c.fqn :: stack))
    (fun c hConcrete => class?_of_concrete hFiles hIndex hConcrete)
    fun c hConcrete p _ _ hP => ?_).imp ?_
  · refine (hItem c p hConcrete hP).imp fun value hValue other hOther => ?_
    exact Except.ok.inj (hConcrete.symm.trans hOther) ▸ hValue
  · rintro x ⟨c, id, start, hX⟩
    exact isApart_of_isDrawnInstance hFiles hIndex hX (hNew c hX.replaces)
      fun _ value hValue => hValue c hX.replaces

/-- Items are apart from the instances around their property, unless they would enter one of these
again. -/
theorem yields_isApart_item (depth : Nat) (hReenters : reenters g.registry stack p = false) :
    Yields (Value.IsApart g.registry.index stack) (g.drawItem depth stack p) := by
  induction depth generalizing stack p with
  | zero => exact .throw
  | succ depth ih =>
      have hPrimitive (type : ValueType) :
          Yields (Value.IsApart g.registry.index stack) (g.drawValue type) :=
        yields_drawValue_plain.imp fun value hPlain => Value.isApart_of_plain hPlain
      unfold drawItem
      cases hType : p.type with
      | value type => exact hPrimitive type
      | scalar target type => exact hPrimitive type
      | relationship target =>
          refine yields_drawPointer.imp ?_
          rintro _ ⟨_, _, _, rfl⟩ _ ⟨⟩
      | declared target default =>
          refine .bindLift fun d hFound => ?_
          cases hBody : d.body with
          | classBody body =>
              refine .bind (yields_isApart_instance hFiles hIndex (fun c hConcrete => ?_)
                fun c q _ hQ => ih hQ) fun x hX => .pure (Value.isApart_concept hX)
              exact not_mem_of_reenters hReenters hType hFound hBody hConcrete
          | enumBody values =>
              refine yields_drawEnum.imp ?_
              rintro _ ⟨_, _, rfl⟩ _ ⟨⟩
          | mapBody key value =>
              refine (yields_drawMap (fun m keyType _ _ => yields_drawValue_plain)
                fun m _ hValue => ih hValue).imp ?_
              rintro _ ⟨entries, rfl, hEntries⟩
              exact Value.isApart_map fun entry hMem => (hEntries entry hMem).2
          | scalarBody type => exact .throw

end

/-- Whatever was asked of a registry, a generated instance holds no instance of a class within
another one of the same class, in fields, arrays and maps. So instances are nested at most as deep as
there are classes. -/
theorem nodup_of_generate {changes : List Change}
    (hRegistry : g.registry = (Session.initial.run changes).registry) {space typeName : String}
    {state : σ} {x : Resource} (hGenerated : g.generate space typeName state = .ok x)
    {path : List Resource} (hPath : (x :: path).IsChain Resource.Embeds) :
    ((x :: path).map Resource.fqn).Nodup ∧
      (x :: path).length ≤ g.registry.index.classes.length := by
  have hSound := Session.sound_run Session.sound_initial changes
  have hFiles : g.registry.files.IsLoaded := hRegistry ▸ hSound.files
  have hIndex : TypeIndex.build g.registry.files (Session.initial.run changes).mode =
      .ok g.registry.index := hRegistry ▸ hSound.index
  obtain ⟨⟨_, later⟩, hResult, rfl⟩ := Outcome.map_eq_ok.mp hGenerated
  obtain ⟨depth, hDepth⟩ := exists_of_generateFrom hResult
  have hApart := yields_isApart_instance hFiles hIndex (fun c _ => List.not_mem_nil)
    (fun c p _ hP => yields_isApart_item hFiles hIndex depth hP) state _ later hDepth
  obtain ⟨hNodup, hNames⟩ := hApart path hPath
  have hBound := hNodup.length_le_of_subset fun name hName => (hNames name hName).2
  rw [List.length_map, List.length_map] at hBound
  exact ⟨hNodup, hBound⟩

end Generator

namespace Depot

/-- What is generated for a car and for a yard, whose book has one entry. -/
def generatedCar : Resource := ⟨space, "Car", some "vin", [("vin", .string "")]⟩

def generatedYard : Resource :=
  ⟨space, "Yard", none,
    [("book", .map [(.dateTime start, .concept generatedCar)]), ("spare", .concept generatedCar)]⟩

theorem generate_yard :
    (Generator.ones registry).generate space "Yard" () = .ok generatedYard := by
  have hWithin : (Generator.ones registry).generateWithin
      (Generator.nestingBound (Generator.ones registry).registry.index) space "Yard" () =
        .ok (generatedYard, ()) := rfl
  exact Generator.generate_of_generateWithin hWithin

end Depot

/-- The car in the book is no yard. -/
theorem Generator.nodup_of_yard :
    (ones Depot.registry).generate Depot.space "Yard" () = .ok Depot.generatedYard ∧
    [Depot.generatedYard, Depot.generatedCar].IsChain Resource.Embeds ∧
    ([Depot.generatedYard, Depot.generatedCar].map Resource.fqn).Nodup ∧
    [Depot.generatedYard, Depot.generatedCar].length ≤ Depot.registry.index.classes.length := by
  have hEmbeds : Depot.generatedYard.Embeds Depot.generatedCar :=
    ⟨_, List.mem_cons_self, .entry List.mem_cons_self .concept⟩
  have hPath : [Depot.generatedYard, Depot.generatedCar].IsChain Resource.Embeds :=
    List.isChain_pair.mpr hEmbeds
  exact ⟨Depot.generate_yard, hPath,
    nodup_of_generate Depot.run_model.symm Depot.generate_yard hPath⟩

end DomainModels
