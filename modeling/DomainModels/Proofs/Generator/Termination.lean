import DomainModels.Proofs.Generator.Depth
import DomainModels.Proofs.Generator.Drawing
import DomainModels.Proofs.Instance.Blame
import DomainModels.Proofs.Registry.ClosedWorld

/-!
When generating ends.

No instance is nested in an instance of its own class, so that around a place there are at most as
many instances as there are classes. Maps are not watched in this way: between two instances there
are at most as many maps as there are in the model only if no map is nested in itself. Then a depth
is known that is enough for every source; otherwise a source that goes on filling maps makes
generating go on without end.
-/

namespace DomainModels

open Outcome (FailsOnly)
open Relation (TransGen)

/-! ## Failures of other parts of the library -/

/-- A failure that is not about generating. -/
def Failure.IsForeign : Failure → Prop
  | .ungenerable _ => False
  | _ => True

namespace Registry

open Failure (IsForeign)

variable {r : Registry} {fqn : String} {now : DateTime}

theorem isForeign_instantiable {space typeName : String} :
    FailsOnly IsForeign (r.instantiable space typeName) := by
  refine .bind (failsOnly_resolvedClass fun _ _ => trivial) fun c _ => ?_
  split
  · exact .error trivial
  · exact .ok c

theorem isForeign_newResource {space typeName id : String} :
    FailsOnly IsForeign (r.newResource now space typeName id) := by
  refine .bind isForeign_instantiable fun c _ => ?_
  split
  · exact .error trivial
  · refine .bind (failsOnly_fillIn fun _ _ => trivial) fun x _ => ?_
    unfold Resource.setIdentifier
    split
    · exact .ok _
    · exact .error trivial

theorem isForeign_newConcept {space typeName : String} :
    FailsOnly IsForeign (r.newConcept now space typeName) := by
  refine .bind isForeign_instantiable fun c _ => ?_
  split
  · exact .error trivial
  · exact failsOnly_fillIn fun _ _ => trivial

theorem isForeign_newRelationship {space typeName id : String} :
    FailsOnly IsForeign (r.newRelationship space typeName id) := by
  refine .bind (failsOnly_resolvedClass fun _ _ => trivial) fun c _ => ?_
  split
  · exact .error trivial
  · exact .ok _

end Registry

/-! ## Maps in maps -/

namespace TypeIndex

variable {index : TypeIndex}

/-- The values of a map are instances of a declared type. -/
def Nests (index : TypeIndex) (map inner : String) : Prop :=
  ∃ m default, index.map? map = some m ∧ m.value.type = .declared inner default

/-- No map is nested in itself, directly or through other maps. -/
def IsUnnested (index : TypeIndex) : Prop := ∀ name, ¬ TransGen index.Nests name name

/-- Maps that are nested in each other, the innermost one first, are different. -/
theorem IsUnnested.nodup_of_isChain (hUnnested : index.IsUnnested) {trail : List String}
    (hChain : trail.IsChain fun inner map => index.Nests map inner) : trail.Nodup := by
  have hAround : trail.Pairwise fun inner map => TransGen index.Nests map inner := by
    have hTrans : IsTrans String fun inner map => TransGen index.Nests map inner :=
      ⟨fun _ _ _ hFirst hSecond => hSecond.trans hFirst⟩
    exact List.isChain_iff_pairwise.mp (hChain.imp fun _ _ hStep => .single hStep)
  refine hAround.imp fun hNested hSame => ?_
  subst hSame
  exact hUnnested _ hNested

/-- What is around a property for which items are made, and the depth that is left for them: some
classes, each once, and since the last of them some maps, the last of which has the property as its
values. -/
structure HasRoom (index : TypeIndex) (depth : Nat) (stack trail : List String)
    (p : ResolvedProperty) : Prop where
  distinct : stack.Nodup
  classes : stack ⊆ index.classes.map (·.fqn)
  maps : trail ⊆ index.maps.map (·.fqn)
  chain : ∀ target default, p.type = .declared target default →
    (target :: trail).IsChain fun inner map => index.Nests map inner
  enough : (index.classes.length - stack.length) * (index.maps.length + 1) +
    (index.maps.length - trail.length) < depth

namespace HasRoom

variable {depth : Nat} {stack trail : List String} {p : ResolvedProperty}

/-- In an instance of a new class the maps begin again. -/
theorem enter (hRoom : index.HasRoom (depth + 1) stack trail p) {c : ResolvedClass}
    (hClass : c ∈ index.classes) (hNew : c.fqn ∉ stack) (q : ResolvedProperty) :
    index.HasRoom depth (c.fqn :: stack) [] q where
  distinct := List.nodup_cons.mpr ⟨hNew, hRoom.distinct⟩
  classes := List.cons_subset.mpr ⟨List.mem_map_of_mem hClass, hRoom.classes⟩
  maps := List.nil_subset _
  chain target _ _ := List.isChain_singleton target
  enough := by
    have hBound := (List.subperm_of_subset (List.nodup_cons.mpr ⟨hNew, hRoom.distinct⟩)
      (List.cons_subset.mpr ⟨List.mem_map_of_mem hClass, hRoom.classes⟩)).length_le
    have hEnough := hRoom.enough
    simp only [List.length_cons, List.length_map, List.length_nil] at hBound ⊢
    obtain ⟨left, hLeft⟩ : ∃ left, index.classes.length = left + 1 + stack.length :=
      ⟨index.classes.length - stack.length - 1, by omega⟩
    have hBefore : index.classes.length - stack.length = left + 1 := by omega
    have hAfter : index.classes.length - (stack.length + 1) = left := by omega
    rw [hBefore, Nat.succ_mul] at hEnough
    rw [hAfter]
    omega

/-- In a map one map less can follow. -/
theorem descend (hRoom : index.HasRoom (depth + 1) stack trail p) (hUnnested : index.IsUnnested)
    {target : String} {default : Option String} (hType : p.type = .declared target default)
    {m : ResolvedMap} (hMap : index.map? target = some m) :
    index.HasRoom depth stack (target :: trail) m.value where
  distinct := hRoom.distinct
  classes := hRoom.classes
  maps := by
    obtain ⟨hMem, hName⟩ := Named.mem_of_find? hMap
    exact List.cons_subset.mpr ⟨hName ▸ List.mem_map_of_mem hMem, hRoom.maps⟩
  chain inner other hInner :=
    List.isChain_cons_cons.mpr ⟨⟨m, other, hMap, hInner⟩, hRoom.chain target default hType⟩
  enough := by
    obtain ⟨hMem, hName⟩ := Named.mem_of_find? hMap
    have hMaps : target :: trail ⊆ index.maps.map (·.fqn) :=
      List.cons_subset.mpr ⟨hName ▸ List.mem_map_of_mem hMem, hRoom.maps⟩
    have hBound := (List.subperm_of_subset
      (hUnnested.nodup_of_isChain (hRoom.chain target default hType)) hMaps).length_le
    have hEnough := hRoom.enough
    simp only [List.length_cons, List.length_map] at hBound ⊢
    omega

end HasRoom

end TypeIndex

namespace Generator

variable {σ : Type} {g : Generator σ} {p : ResolvedProperty} {target : String}
  {stack trail : List String}

/-! ## Enough depth -/

/-- A failure other than that of a depth that is not enough. -/
def IsFinal (failure : Failure) : Prop := failure ≠ .ungenerable .exhausted

theorem isFinal_of_isForeign {failure : Failure} (h : failure.IsForeign) : IsFinal failure := by
  rintro rfl
  exact h

theorem isFinal_ungenerable {cause : Ungenerable} (hOther : cause ≠ .exhausted) :
    IsFinal (.ungenerable cause) :=
  fun hSame => hOther (Failure.ungenerable.inj hSame)

theorem isFinal_concrete {r : Registry} {fqn : String} : FailsOnly IsFinal (concrete r fqn) := by
  refine .bind (Registry.failsOnly_resolvedClass fun _ _ => isFinal_of_isForeign trivial) fun c _ => ?_
  split
  · exact .ok c
  · split
    · exact .ok _
    · exact .error (isFinal_ungenerable (by simp))

/-- The class that stands for the type of a property is new where the property does not re-enter. -/
theorem not_mem_of_reenters {r : Registry} (hReenters : reenters r stack p = false)
    {default : Option String} (hType : p.type = .declared target default) {d : Declaration}
    (hFound : r.getType target = .ok d) {body : ClassBody} (hBody : d.body = .classBody body)
    {c : ResolvedClass} (hConcrete : concrete r target = .ok c) : c.fqn ∉ stack := by
  simpa [reenters, hType, hFound, Declaration.class?, hBody, hConcrete] using hReenters

/-- The depth is enough for an instance, if it is for the items of its properties. -/
theorem isFinal_drawInstance {item : ItemMaker σ}
    (hItem : ∀ c, concrete g.registry target = .ok c → ∀ q,
      reenters g.registry (c.fqn :: stack) q = false → DrawsOnly IsFinal (item (c.fqn :: stack) q)) :
    DrawsOnly IsFinal (g.drawInstance item stack target) :=
  drawsOnly_drawInstance (isFinal_ungenerable (by simp)) isFinal_concrete
    (fun _ _ => ⟨fun _ => Registry.isForeign_newResource.imp isFinal_of_isForeign,
      Registry.isForeign_newConcept.imp isFinal_of_isForeign⟩)
    fun c hConcrete q _ hQ => hItem c hConcrete q hQ

/-- With room around a property, the depth is enough for its items. -/
theorem isFinal_drawItem (hUnnested : g.registry.index.IsUnnested) {depth : Nat}
    (hRoom : g.registry.index.HasRoom depth stack trail p)
    (hReenters : reenters g.registry stack p = false) :
    DrawsOnly IsFinal (g.drawItem depth stack p) := by
  induction depth generalizing stack trail p with
  | zero => exact (Nat.not_lt_zero _ hRoom.enough).elim
  | succ depth ih =>
      unfold drawItem
      cases hType : p.type with
      | value type => exact .draw _
      | scalar target type => exact .draw _
      | relationship target =>
          exact drawsOnly_drawPointer isFinal_concrete fun c id _ =>
            Registry.isForeign_newRelationship.imp isFinal_of_isForeign
      | declared target default =>
          refine .bindLift (Registry.failsOnly_getType fun _ _ => isFinal_of_isForeign trivial)
            fun d hFound => ?_
          cases hBody : d.body with
          | classBody body =>
              refine .bind (isFinal_drawInstance fun c hConcrete q hQ => ?_) fun _ => .pure _
              have hNew := not_mem_of_reenters hReenters hType hFound hBody hConcrete
              exact ih (hRoom.enter (mem_classes_of_concrete hConcrete) hNew q) hQ
          | enumBody values => exact drawsOnly_drawEnum (isFinal_ungenerable (by simp))
          | mapBody key value =>
              refine drawsOnly_drawMap (isFinal_ungenerable (by simp))
                (Registry.failsOnly_resolvedMap fun _ _ => isFinal_of_isForeign trivial) fun m hMap hValue => ?_
              exact ih (hRoom.descend hUnnested hType (Registry.resolvedMap_eq_ok.mp hMap)) hValue
          | scalarBody type => exact .throw (isFinal_ungenerable (by simp))

/-- With the depth that the numbers of classes and maps allow for, generating comes to an end. -/
theorem isFinal_generateWithin (hUnnested : g.registry.index.IsUnnested) {depth : Nat}
    (hDepth : nestingBound g.registry.index ≤ depth) (space typeName : String) (state : σ) :
    FailsOnly IsFinal (g.generateWithin depth space typeName state) := by
  refine isFinal_drawInstance (fun c hConcrete p hReenters => ?_) state
  have hHome : [c.fqn] ⊆ g.registry.index.classes.map (·.fqn) :=
    List.cons_subset.mpr ⟨List.mem_map_of_mem (mem_classes_of_concrete hConcrete), List.nil_subset _⟩
  have hRoom : g.registry.index.HasRoom depth [c.fqn] [] p := by
    refine ⟨List.nodup_singleton c.fqn, hHome, List.nil_subset _,
      fun target _ _ => List.isChain_singleton target, ?_⟩
    have hFewer := Nat.mul_le_mul_right (g.registry.index.maps.length + 1)
      (Nat.sub_le g.registry.index.classes.length 1)
    simp only [nestingBound, Nat.succ_mul] at hDepth
    simp only [List.length_singleton, List.length_nil]
    omega
  exact isFinal_drawItem hUnnested hRoom hReenters

/-- Generating ends for every type and every source where no map is nested in itself. A depth is
known from the model that is always enough, and no larger one changes what is generated. -/
theorem ends_of_isUnnested (g : Generator σ) (hUnnested : g.registry.index.IsUnnested)
    (space typeName : String) (state : σ) :
    ∃ outcome, g.generateFrom? space typeName state = some outcome ∧ ¬ IsExhausted outcome ∧
      ∀ depth, nestingBound g.registry.index ≤ depth →
        g.generateWithin depth space typeName state = outcome := by
  have hEnough : ¬ IsExhausted
      (g.generateWithin (nestingBound g.registry.index) space typeName state) :=
    fun hExhausted =>
      isFinal_generateWithin hUnnested (Nat.le_refl _) space typeName state _ hExhausted rfl
  exact ⟨_, deepen_of_enough hEnough, hEnough, fun depth hDepth =>
    generateWithin_of_le hDepth hEnough⟩

/-! ## Endless nesting -/

/-- An action for which the depth is not enough, whatever the state of the source is. -/
def Exhausts {α : Type} (action : Drawing σ α) : Prop := ∀ s, IsExhausted (action.run s)

namespace Exhausts

variable {α β : Type} {action : Drawing σ α} {next : α → Drawing σ β}

theorem first (h : Exhausts action) : Exhausts (action >>= next) := by
  intro s
  rw [StateT.run_bind, show action.run s = _ from h s]
  rfl

theorem afterLift {x : Except Failure α} {a : α} (hResult : x = .ok a) (h : Exhausts (next a)) :
    Exhausts (liftM x >>= next : Drawing σ β) := by
  subst hResult
  exact h

theorem afterDraw {value : StateM σ α} (h : ∀ s, Exhausts (next (value.run s).1)) :
    Exhausts (draw value >>= next) :=
  fun s => h s _

theorem times (h : Exhausts action) {count : Nat} (hSome : count ≠ 0) :
    Exhausts (Generator.times action count) := by
  cases count with
  | zero => exact (hSome rfl).elim
  | succ count => exact first h

end Exhausts

/-- The values of a map are instances of a second map. -/
structure Fills (r : Registry) (map inner : String) : Prop where
  isMap : ∃ d key value, r.getType map = .ok d ∧ d.body = .mapBody key value
  resolved : ∃ m keyType default, r.index.map? map = some m ∧
    m.key.type.value? = some keyType ∧ m.value.type = .declared inner default

/-- A map is not a class, so that it does not matter what it is nested in. -/
theorem Fills.reenters_eq_false {r : Registry} {map inner : String} (hFills : Fills r map inner)
    {default : Option String} (hType : p.type = .declared map default) :
    reenters r stack p = false := by
  obtain ⟨d, key, value, hFound, hBody⟩ := hFills.isMap
  simp only [reenters, hType, hFound, Declaration.class?, hBody]

/-- Among maps that are filled with each other, no depth is enough for a source that leaves none of
them empty. -/
theorem exhausts_drawItem {maps : String → Prop}
    (hMaps : ∀ map, maps map → ∃ inner, maps inner ∧ Fills g.registry map inner)
    (hFilled : ∀ s, (g.source.arrayLength.run s).1 ≠ 0) (depth : Nat) {map : String}
    (hMap : maps map) {default : Option String} (hType : p.type = .declared map default) :
    Exhausts (g.drawItem depth stack p) := by
  induction depth generalizing p map default with
  | zero => exact fun _ => rfl
  | succ depth ih =>
      obtain ⟨inner, hInner, hFills⟩ := hMaps map hMap
      obtain ⟨d, key, value, hFound, hBody⟩ := hFills.isMap
      obtain ⟨m, keyType, _, hResolved, hKey, hValue⟩ := hFills.resolved
      obtain ⟨_, _, hInnerFills⟩ := hMaps inner hInner
      have hReenters : reenters g.registry stack m.value = false :=
        hInnerFills.reenters_eq_false hValue
      have hEntry : Exhausts (do
          return (← g.drawValue keyType, ← g.drawItem depth stack m.value)) :=
        .afterDraw fun _ => .first (ih hInner hValue)
      unfold drawItem
      simp only [hType]
      refine .afterLift hFound ?_
      simp only [hBody]
      refine .afterLift (Registry.resolvedMap_eq_ok.mpr hResolved) ?_
      simp only [hKey, hReenters]
      exact .afterDraw fun s => .first (.times hEntry (hFilled s))

/-- Where no depth is enough, the attempts go on without end. -/
theorem generateFrom?_eq_none {space typeName : String} {state : σ}
    (hExhausted : ∀ depth, IsExhausted (g.generateWithin depth space typeName state)) :
    g.generateFrom? space typeName state = none := by
  refine Option.eq_none_iff_forall_ne_some.mpr fun outcome hEnds => ?_
  obtain ⟨enough, hOutcome, hEnough⟩ := exists_of_deepen hEnds
  exact hEnough (hOutcome ▸ hExhausted enough)

end Generator

/-- A source of zeros and empty texts that gives every array and map one element. -/
def ValueSource.ones : ValueSource Unit where
  boolean := pure false
  integer _ := pure 0
  long _ := pure 0
  double _ := pure 0.0
  dateTime := pure ⟨0, 0, 0⟩
  string _ := pure ""
  enumIndex _ := pure 0
  arrayLength := pure 1
  identifier _ := pure ""

/-- Generates with ones, optional properties included. -/
def Generator.ones (r : Registry) : Generator Unit := ⟨r, ⟨0, 0, 0⟩, .ones, true⟩

namespace Nest

open Generator (Exhausts IsExhausted)

def space : String := "nest@1.0.0"

/-- Nests of nests, and trees with a nest. -/
def model : Metamodel.Model :=
  { Metamodel.Model.empty space with
    declarations :=
      [⟨"Nest", .mapBody .string (.object ⟨"Nest", none⟩), [], none⟩,
       ⟨"Tree", .classBody .concept false none none
         [⟨"nest", .typed (.object ⟨"Nest", none⟩ none) false false, [], none⟩], [], none⟩] }

def nestProperty : Property := ⟨"nest", .declared ⟨"Nest", none⟩ none, false, false, [], none⟩

def file : ModelFile where
  space := space
  version := ⟨"nest", some ⟨1, 0, 0, "", ""⟩⟩
  fileName := none
  checksum := ModelFile.checksumOf model
  model := model
  declarations :=
    [⟨"Nest", space, .mapBody (.value (.string none none)) (.declared ⟨"Nest", none⟩ none), [],
       none⟩,
     ⟨"Tree", space, .classBody ⟨.concept, false, none, none, [nestProperty]⟩, [], none⟩]
  explicitImports := []
  wildcardImports := []
  decorators := []

def nest : ResolvedProperty := ⟨nestProperty, "nest@1.0.0.Tree", .declared "nest@1.0.0.Nest" none⟩

def treeClass : ResolvedClass := .concept space "Tree" none none [nest]

def nestMap : ResolvedMap where
  fqn := "nest@1.0.0.Nest"
  key := ⟨⟨mapKeyField, .value (.string none none), false, false, [], none⟩, "nest@1.0.0.Nest",
    .value (.string none none)⟩
  value := ⟨⟨mapValueField, .declared ⟨"Nest", none⟩ none, false, false, [], none⟩,
    "nest@1.0.0.Nest", .declared "nest@1.0.0.Nest" none⟩

/-- The registry into which the model has been loaded. -/
def registry : Registry where
  files := [(rootNamespace, Root.file), (space, file)]
  index := ⟨Root.index.classes ++ [treeClass], [nestMap]⟩
  factories := []

theorem build_files : TypeIndex.build registry.files .strict = .ok registry.index := by
  have hEach : TypeIndex.resolveEach registry.files .strict [treeClass.fqn] Root.findings =
      .ok [treeClass] :=
    Root.resolveEach_cons_sub rfl rfl rfl rfl rfl rfl
  exact (Root.build_of_rest rfl rfl rfl hEach rfl rfl rfl).trans
    (TypeIndex.checkPointers_of_no_pointers .strict (by decide) (by decide))

/-- The registry is the one into which the model is loaded. -/
theorem run_model : (Session.initial.run [.addModel ⟨model, none⟩]).registry = registry := by
  have hMade : Session.initial.registry.makeFile ⟨model, none⟩ = .ok file := rfl
  exact Session.run_addModel (Registry.addModel_of_build hMade rfl build_files)

theorem validate_registry : registry.validate = .ok () := Registry.validate_of_build build_files

theorem fills_nestMap : Generator.Fills registry "nest@1.0.0.Nest" "nest@1.0.0.Nest" where
  isMap := ⟨_, _, _, rfl, rfl⟩
  resolved := ⟨nestMap, _, _, rfl, rfl, rfl⟩

/-- The nest of a tree is a nest in a nest in a nest. -/
theorem isExhausted_tree (depth : Nat) :
    IsExhausted ((Generator.ones registry).generateWithin depth space "Tree" ()) := by
  have hFilled (s : Unit) : ((Generator.ones registry).source.arrayLength.run s).1 ≠ 0 :=
    Nat.one_ne_zero
  have hItem (stack : List String) :
      Exhausts ((Generator.ones registry).drawItem depth stack nest) :=
    Generator.exhausts_drawItem (fun _ hSame => ⟨_, rfl, hSame ▸ fills_nestMap⟩) hFilled depth rfl
      rfl
  have hConcrete : Generator.concrete registry treeClass.fqn = .ok treeClass := rfl
  have hNew : registry.newConcept ⟨0, 0, 0⟩ space "Tree" = .ok (.empty space "Tree" none) := rfl
  exact Exhausts.afterLift hConcrete (Exhausts.afterLift hNew (.first (.first (hItem _)))) ()

end Nest

namespace Generator

/-- No tree is generated where every nest has another one in it. -/
theorem never_ends_tree :
    (Session.initial.run [.addModel ⟨Nest.model, none⟩]).registry = Nest.registry ∧
    Nest.registry.validate = .ok () ∧
    (ones Nest.registry).generateFrom? Nest.space "Tree" () = none :=
  ⟨Nest.run_model, Nest.validate_registry, generateFrom?_eq_none Nest.isExhausted_tree⟩

/-- In the model of garages no map is nested in itself, so that owners are generated. -/
theorem ends_owner : Garage.registry.index.IsUnnested ∧
    ∃ outcome, (ones Garage.registry).generateFrom? Garage.space "Owner" () = some outcome ∧
      ¬ IsExhausted outcome := by
  have hUnnested : Garage.registry.index.IsUnnested := by
    intro name hNested
    obtain ⟨inner, hNests, _⟩ := TransGen.head'_iff.mp hNested
    obtain ⟨m, default, hMap, hType⟩ := hNests
    have hLog : m = Garage.logMap := List.mem_singleton.mp (Named.mem_of_find? hMap).1
    rw [hLog] at hType
    cases hType
  obtain ⟨outcome, hEnds, hEnough, _⟩ :=
    ends_of_isUnnested (ones Garage.registry) hUnnested Garage.space "Owner" ()
  exact ⟨hUnnested, outcome, hEnds, hEnough⟩

end Generator

end DomainModels
