import DomainModels.Generator.Walk
import DomainModels.Proofs.Generator.Drawing
import DomainModels.Proofs.Instance.Factory

/-!
What is drawn.

Whatever the steps of the generator draw, if they draw something, is put together from what their
parts draw, whatever the state of the source is.
-/

namespace DomainModels.Generator

variable {σ α β : Type} {P : α → Prop} {Q : β → Prop}

/-- What is drawn has some property, whatever the state of the source is. -/
def Yields (P : α → Prop) (action : Drawing σ α) : Prop :=
  ∀ s a later, action.run s = .ok (a, later) → P a

namespace Yields

theorem pure {a : α} (h : P a) : Yields P (Pure.pure a : Drawing σ α) := by
  rintro s _ _ ⟨⟩
  exact h

theorem imp {P' : α → Prop} {action : Drawing σ α} (h : Yields P action)
    (hImp : ∀ a, P a → P' a) : Yields P' action :=
  fun s a later hRun => hImp a (h s a later hRun)

theorem throw {failure : Failure} : Yields P (MonadExcept.throw failure : Drawing σ α) := nofun

theorem bind {action : Drawing σ α} {next : α → Drawing σ β} (hFirst : Yields P action)
    (hNext : ∀ a, P a → Yields Q (next a)) : Yields Q (action >>= next) := by
  intro s b later hBoth
  rw [StateT.run_bind, Outcome.bind_eq_ok] at hBoth
  obtain ⟨⟨a, middle⟩, hA, hB⟩ := hBoth
  exact hNext a (hFirst s a middle hA) middle b later hB

/-- What does not draw may use its result. -/
theorem bindLift {x : Except Failure α} {next : α → Drawing σ β}
    (hNext : ∀ a, x = .ok a → Yields Q (next a)) : Yields Q (liftM x >>= next : Drawing σ β) := by
  cases x with
  | error failure => exact nofun
  | ok a => exact hNext a rfl

/-- Where the result is known, only this one counts. -/
theorem afterLift {x : Except Failure α} {a : α} {next : α → Drawing σ β} (hOk : x = .ok a)
    (hNext : Yields Q (next a)) : Yields Q (liftM x >>= next : Drawing σ β) :=
  bindLift fun _ hSame => Except.ok.inj (hOk.symm.trans hSame) ▸ hNext

theorem draw {value : StateM σ α} (h : ∀ s, P (value.run s).1) :
    Yields P (Generator.draw value) := by
  intro s a later hRun
  have hSame : (value.run s).1 = a := congrArg Prod.fst (Except.ok.inj hRun)
  exact hSame ▸ h s

/-- Nothing needs to be known about a value of the source. -/
theorem afterDraw {value : StateM σ α} {next : α → Drawing σ β} (hNext : ∀ a, Yields Q (next a)) :
    Yields Q (Generator.draw value >>= next) :=
  bind (P := fun _ => True) (draw fun _ => trivial) fun a _ => hNext a

theorem times {action : Drawing σ α} (h : Yields P action) (count : Nat) :
    Yields (fun items => ∀ a ∈ items, P a) (Generator.times action count) := by
  induction count with
  | zero => exact pure nofun
  | succ count ih =>
      exact bind h fun a hA => bind ih fun items hItems => pure (List.forall_mem_cons.mpr ⟨hA, hItems⟩)

end Yields

/-! ## The steps of the generator -/

variable {g : Generator σ} {p : ResolvedProperty} {target : String} {c : ResolvedClass}
  {stack : List String} {item : ItemMaker σ}

/-- A pointer points to a class that takes the place of the declared one. -/
theorem yields_drawPointer : Yields (fun value => ∃ c id, concrete g.registry target = .ok c ∧
    value = .relationship ⟨c.space, c.name, id⟩) (g.drawPointer target) := by
  refine .bindLift fun c hConcrete => .afterDraw fun id => .bindLift fun pointer hPointer => ?_
  simp only [Registry.newRelationship, Outcome.bind_eq_ok] at hPointer
  obtain ⟨_, _, hPointer⟩ := hPointer
  split at hPointer
  · simp at hPointer
  · rw [Outcome.pure_eq_ok] at hPointer
    exact .pure ⟨c, id, hConcrete, by rw [hPointer]⟩

theorem yields_drawEnum {values : List EnumValue} :
    Yields (fun value => ∃ drawn ∈ values, value = .enum drawn.name) (g.drawEnum target values) := by
  unfold drawEnum
  cases values.isEmpty with
  | true => exact .throw
  | false =>
      refine .afterDraw fun i => ?_
      split
      · rename_i drawn hDrawn
        exact .pure ⟨drawn, List.mem_of_getElem? hDrawn, rfl⟩
      · exact .throw

/-- The values of a property whose items have some property of their own. -/
inductive ConsistsOf (P : Value → Prop) (p : ResolvedProperty) : Value → Prop where
  | item {value : Value} (hSingle : p.isArray = false) (hItem : P value) : ConsistsOf P p value
  | array {items : List Value} (hArray : p.isArray = true) (hItems : ∀ item ∈ items, P item) :
      ConsistsOf P p (.array items)

/-- A property is given items, or it is optional and is left out. Items are made only where no class
is nested in itself. -/
theorem yields_propertyValue {P : Value → Prop}
    (hItem : reenters g.registry stack p = false → Yields P (item stack p)) :
    Yields (fun drawn => (drawn = none → p.isOptional = true) ∧
      ∀ value, drawn = some value → ConsistsOf P p value) (g.propertyValue item stack p) := by
  have hSome {value : Value} (hValue : ConsistsOf P p value) :
      (some value = none → p.isOptional = true) ∧
        ∀ other, some value = some other → ConsistsOf P p other :=
    ⟨nofun, fun other hOther => Option.some.inj hOther ▸ hValue⟩
  unfold propertyValue
  simp only
  split
  · rename_i hArray
    split
    · exact .pure (hSome (.array hArray nofun))
    · rename_i hNested
      exact .afterDraw fun count => .bind (.times (hItem (Bool.eq_false_of_not_eq_true hNested)) count)
        fun items hItems => .pure (hSome (.array hArray hItems))
  · rename_i hSingle
    split
    · split
      · rename_i hOptional
        exact .pure ⟨fun _ => hOptional, nofun⟩
      · exact .throw
    · rename_i hNested
      exact .bind (hItem (Bool.eq_false_of_not_eq_true hNested)) fun value hValue =>
        .pure (hSome (.item (Bool.eq_false_of_not_eq_true hSingle) hValue))

/-- An instance after some of its properties have been given values, with what it was before. -/
structure IsPopulated (g : Generator σ) (c : ResolvedClass) (P : ResolvedProperty → Value → Prop)
    (properties : List ResolvedProperty) (x y : Resource) : Prop where
  space : y.space = x.space
  typeName : y.typeName = x.typeName
  identifierField : y.identifierField = x.identifierField
  sorted : Table.Sorted x.values → Table.Sorted y.values
  kept : ∀ name value, x.get? name = some value → y.get? name = some value
  drawn : ∀ name value, y.get? name = some value → x.get? name = some value ∨
    ∃ p ∈ properties, p.name = name ∧ g.isDrawn c p = true ∧ ConsistsOf (P p) p value
  complete : ∀ p ∈ properties, g.isDrawn c p = true →
    p.isOptional = true ∨ y.contains p.name = true

namespace IsPopulated

variable {P : ResolvedProperty → Value → Prop} {properties : List ResolvedProperty} {x y : Resource}

/-- A property may be left out if it is optional or has a value already. -/
theorem skip (hRest : IsPopulated g c P properties x y)
    (hDone : g.isDrawn c p = true → p.isOptional = true ∨ x.contains p.name = true) :
    IsPopulated g c P (p :: properties) x y where
  space := hRest.space
  typeName := hRest.typeName
  identifierField := hRest.identifierField
  sorted := hRest.sorted
  kept := hRest.kept
  drawn := by
    intro name value hGet
    refine (hRest.drawn name value hGet).imp_right ?_
    rintro ⟨q, hMem, hQ⟩
    exact ⟨q, List.mem_cons_of_mem _ hMem, hQ⟩
  complete := by
    refine List.forall_mem_cons.mpr ⟨fun hDrawn => (hDone hDrawn).imp_right fun hHas => ?_,
      hRest.complete⟩
    obtain ⟨value, hValue⟩ := Resource.contains_eq_true.mp hHas
    exact Resource.contains_eq_true.mpr ⟨value, hRest.kept _ _ hValue⟩

/-- A property that had no value may be given one. -/
theorem set {value : Value} (hRest : IsPopulated g c P properties (x.set p.name value) y)
    (hDrawn : g.isDrawn c p = true) (hNew : x.contains p.name = false)
    (hValue : ConsistsOf (P p) p value) : IsPopulated g c P (p :: properties) x y where
  space := hRest.space
  typeName := hRest.typeName
  identifierField := hRest.identifierField
  sorted hSorted := hRest.sorted (Resource.sorted_set hSorted)
  kept := by
    intro name other hGet
    refine hRest.kept name other ?_
    rw [Resource.get?_set, if_neg, hGet]
    rintro rfl
    rw [Resource.contains_eq_true.mpr ⟨other, hGet⟩] at hNew
    cases hNew
  drawn := by
    intro name other hGet
    rcases hRest.drawn name other hGet with hSame | ⟨q, hMem, hQ⟩
    · rw [Resource.get?_set] at hSame
      split at hSame
      · rename_i hName
        cases hSame
        exact .inr ⟨p, List.mem_cons_self, hName.symm, hDrawn, hValue⟩
      · exact .inl hSame
    · exact .inr ⟨q, List.mem_cons_of_mem _ hMem, hQ⟩
  complete := by
    refine List.forall_mem_cons.mpr ⟨fun _ => .inr ?_, hRest.complete⟩
    exact Resource.contains_eq_true.mpr
      ⟨value, hRest.kept _ _ (by rw [Resource.get?_set, if_pos rfl])⟩

end IsPopulated

/-- The properties of an instance are given values one after the other. -/
theorem yields_populate {P : ResolvedProperty → Value → Prop} {properties : List ResolvedProperty}
    (hItem : ∀ p ∈ properties, g.isDrawn c p = true → reenters g.registry stack p = false →
      Yields (P p) (item stack p)) (x : Resource) :
    Yields (IsPopulated g c P properties x) (g.populate item stack c properties x) := by
  induction properties generalizing x with
  | nil =>
      unfold populate
      refine .pure ⟨rfl, rfl, rfl, fun h => h, fun _ _ h => h, fun _ _ h => .inl h, ?_⟩
      exact List.forall_mem_nil _
  | cons p rest ih =>
      have hRest := ih fun q hMem => hItem q (List.mem_cons_of_mem _ hMem)
      unfold populate
      split
      · rename_i hNew
        obtain ⟨hDrawn, hAbsent⟩ : g.isDrawn c p = true ∧ x.contains p.name = false := by
          simpa using hNew
        refine .bind (yields_propertyValue (hItem p List.mem_cons_self hDrawn)) ?_
        rintro value ⟨hOptional, hValue⟩
        cases value with
        | none => exact (hRest x).imp fun y hY => hY.skip fun _ => .inl (hOptional rfl)
        | some value => exact (hRest _).imp fun y hY => hY.set hDrawn hAbsent (hValue value rfl)
      · rename_i hOld
        refine (hRest x).imp fun y hY => hY.skip fun hDrawn => .inr ?_
        simpa [hDrawn] using hOld

/-- An instance that was drawn where one of a class is declared, with properties whose items have
some property of their own. -/
structure IsDrawnInstance (g : Generator σ) (P : ResolvedProperty → Value → Prop) (target : String)
    (c : ResolvedClass) (id : String) (start x : Resource) : Prop where
  replaces : concrete g.registry target = .ok c
  identifier : ∀ field, c.identifier = some field → ∃ s,
    id = ((g.source.identifier (identifierValidator? c field)).run s).1
  isNew : Registry.IsNew c g.now id start
  populated : IsPopulated g c P c.properties start x

/-- A new instance of the class that takes the place of the declared one is given its values. -/
theorem yields_drawInstance {P : ResolvedProperty → Value → Prop}
    (hFound : ∀ c, concrete g.registry target = .ok c →
      g.registry.index.class? (qualify c.space c.name) = some c)
    (hItem : ∀ c, concrete g.registry target = .ok c → ∀ p ∈ c.properties,
      g.isDrawn c p = true → reenters g.registry (c.fqn :: stack) p = false →
        Yields (P p) (item (c.fqn :: stack) p)) :
    Yields (fun x => ∃ c id start, IsDrawnInstance g P target c id start x)
      (g.drawInstance item stack target) := by
  refine .bindLift fun c hConcrete => ?_
  have hPopulate {id : String} {start : Resource} (hId : ∀ field, c.identifier = some field →
        ∃ s, id = ((g.source.identifier (identifierValidator? c field)).run s).1)
      (hStart : Registry.IsNew c g.now id start) :
      Yields (fun x => ∃ c id start, IsDrawnInstance g P target c id start x)
        (g.populate item (c.fqn :: stack) c c.properties start) :=
    (yields_populate (hItem c hConcrete) start).imp fun x hX =>
      ⟨c, id, start, hConcrete, hId, hStart, hX⟩
  simp only
  split
  · rename_i field hField
    have hDrawn : Yields (fun id => ∃ s,
        id = ((g.source.identifier (identifierValidator? c field)).run s).1)
        (draw (g.source.identifier (identifierValidator? c field))) :=
      .draw fun s => ⟨s, rfl⟩
    refine .bind hDrawn fun id hId => .bindLift fun start hStart => ?_
    obtain ⟨_, _, y, hFill, rfl⟩ := (Registry.newResource_eq_ok (hFound c hConcrete)).mp hStart
    refine hPopulate (fun other hOther => ?_) (Registry.isNew_identified hFill id)
    rw [hField] at hOther
    exact Option.some.inj hOther ▸ hId
  · rename_i hNone
    refine .bindLift fun start hStart => ?_
    obtain ⟨_, _, hFill⟩ := (Registry.newConcept_eq_ok (hFound c hConcrete)).mp hStart
    have hNew := Registry.isNew_identified hFill ""
    rw [Registry.identified, hNone] at hNew
    refine hPopulate (fun other hOther => ?_) hNew
    rw [hNone] at hOther
    cases hOther

/-- The keys and the values of the entries of a map are drawn one after the other. -/
theorem yields_drawMap {K P : Value → Prop}
    (hKey : ∀ m keyType, g.registry.index.map? target = some m →
      m.key.type.value? = some keyType → Yields K (g.drawValue keyType))
    (hItem : ∀ m, g.registry.index.map? target = some m →
      reenters g.registry stack m.value = false → Yields P (item stack m.value)) :
    Yields (fun value => ∃ entries, value = .map entries ∧
      ∀ entry ∈ entries, K entry.1 ∧ P entry.2) (g.drawMap item stack target) := by
  refine .bindLift fun m hOk => ?_
  have hMap := Registry.resolvedMap_eq_ok.mp hOk
  split
  · exact .throw
  · rename_i keyType hKeyType
    simp only
    split
    · exact .pure ⟨[], rfl, List.forall_mem_nil _⟩
    · rename_i hNested
      have hEntry : Yields (fun entry => K entry.1 ∧ P entry.2) (do
          return (← g.drawValue keyType, ← item stack m.value)) :=
        .bind (hKey m keyType hMap hKeyType) fun key hKey =>
          .bind (hItem m hMap (Bool.eq_false_of_not_eq_true hNested)) fun value hValue =>
            .pure ⟨hKey, hValue⟩
      exact .afterDraw fun count => .bind (.times hEntry count) fun entries hEntries =>
        .pure ⟨entries, rfl, hEntries⟩

end DomainModels.Generator
