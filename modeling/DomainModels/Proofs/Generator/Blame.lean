import DomainModels.Proofs.Generator.Depth
import DomainModels.Proofs.Generator.Drawing
import DomainModels.Proofs.Instance.Blame
import DomainModels.Proofs.Registry.Targets

/-!
What can go wrong when instances of indexed classes are generated.

Whatever stands at a property can be looked up, at any depth, so that no type is to blame.
-/

namespace DomainModels.Generator

open Outcome (FailsOnly)
open Failure (SparesTypes)

variable {σ : Type}

/-! ## Classes -/

section

variable {r : Registry} {fqn : String} {c : ResolvedClass}

theorem sparesTypes_concrete (hFound : r.index.class? fqn = some c) :
    FailsOnly SparesTypes (concrete r fqn) := by
  unfold concrete
  refine .bind (.of_eq_ok (Registry.resolvedClass_eq_ok.mpr hFound)) fun found _ => ?_
  split
  · exact .ok found
  · split
    · exact .ok _
    · exact .error trivial

/-- A concrete class is found under its namespace and its name. -/
theorem class?_of_concrete {mode : BuildMode} (hFiles : r.files.IsLoaded)
    (hIndex : TypeIndex.build r.files mode = .ok r.index) (hConcrete : concrete r fqn = .ok c) :
    r.index.class? (qualify c.space c.name) = some c := by
  have hFound := TypeIndex.class?_of_mem hIndex (mem_classes_of_concrete hConcrete)
  rwa [TypeIndex.qualify_of_class? hFiles hIndex hFound]

end

/-! ## Values -/

variable {g : Generator σ} {p : ResolvedProperty} {target : String} {c : ResolvedClass}
  {stack : List String} {item : ItemMaker σ}

theorem drawsBlameless_drawPointer (hStrict : g.registry.IsStrict)
    (hFound : g.registry.index.class? target = some c) :
    DrawsOnly SparesTypes (g.drawPointer target) :=
  drawsOnly_drawPointer (sparesTypes_concrete hFound) fun _ _ hConcrete =>
    Registry.sparesTypes_newRelationship (class?_of_concrete hStrict.files hStrict.index hConcrete)

/-- Items are made without blame for every property at which something stands. -/
def MakesBlameless (r : Registry) (item : ItemMaker σ) : Prop :=
  ∀ stack p, (∃ kind, r.Holds p kind) → DrawsOnly SparesTypes (item stack p)

theorem drawsBlameless_drawInstance (hStrict : g.registry.IsStrict)
    (hNames : ModelFiles.HasSimpleNames g.registry.files) (hItem : MakesBlameless g.registry item)
    (hFound : g.registry.index.class? target = some c) :
    DrawsOnly SparesTypes (g.drawInstance item stack target) := by
  refine drawsOnly_drawInstance trivial (sparesTypes_concrete hFound) (fun found hConcrete => ?_)
    fun found hConcrete p hMem _ => hItem _ p
      (hStrict.exists_holds_of_mem hNames (mem_classes_of_concrete hConcrete) hMem)
  have hNamed := class?_of_concrete hStrict.files hStrict.index hConcrete
  exact ⟨fun id => Registry.sparesTypes_newResource hNamed, Registry.sparesTypes_newConcept hNamed⟩

theorem drawsBlameless_drawMap (hStrict : g.registry.IsStrict)
    (hNames : ModelFiles.HasSimpleNames g.registry.files) (hItem : MakesBlameless g.registry item)
    {m : ResolvedMap} (hFound : g.registry.index.map? target = some m) :
    DrawsOnly SparesTypes (g.drawMap item stack target) := by
  refine drawsOnly_drawMap trivial (.of_eq_ok (Registry.resolvedMap_eq_ok.mpr hFound))
    fun found hOk _ => hItem _ _ ?_
  have hMem := List.mem_of_find?_eq_some (Registry.resolvedMap_eq_ok.mp hOk)
  exact (hStrict.exists_holds_of_map hNames hMem).2

/-- However deep items may be nested, they are made without blame. -/
theorem makesBlameless_drawItem (hStrict : g.registry.IsStrict)
    (hNames : ModelFiles.HasSimpleNames g.registry.files) (depth : Nat) :
    MakesBlameless g.registry (g.drawItem depth) := by
  induction depth with
  | zero => exact fun stack p _ => .throw trivial
  | succ depth ih =>
      rintro stack p ⟨kind, hHolds⟩
      unfold drawItem
      cases kind with
      | primitive =>
          obtain ⟨v, _, hType⟩ := hHolds
          simp only [hType]
          exact .draw _
      | scalar =>
          obtain ⟨_, _, v, _, _, hType⟩ := hHolds
          simp only [hType]
          exact .draw _
      | enum =>
          obtain ⟨_, declaration, values, _, hRefers, hBody, hType⟩ := hHolds
          simp only [hType]
          refine .bindLift (.of_eq_ok hRefers.found) fun found hOk => ?_
          obtain rfl : declaration = found := Except.ok.inj (hRefers.found.symm.trans hOk)
          simp only [hBody]
          exact drawsOnly_drawEnum trivial
      | map =>
          obtain ⟨_, declaration, _, _, _, m, hRefers, hBody, hType, hFound⟩ := hHolds
          simp only [hType]
          refine .bindLift (.of_eq_ok hRefers.found) fun found hOk => ?_
          obtain rfl : declaration = found := Except.ok.inj (hRefers.found.symm.trans hOk)
          simp only [hBody]
          exact drawsBlameless_drawMap hStrict hNames ih hFound
      | ofClass =>
          obtain ⟨_, declaration, _, c, hRefers, hBody, hFound, ⟨_, hType⟩ | ⟨hType, _⟩⟩ := hHolds
          · simp only [hType]
            refine .bindLift (.of_eq_ok hRefers.found) fun found hOk => ?_
            obtain rfl : declaration = found := Except.ok.inj (hRefers.found.symm.trans hOk)
            simp only [hBody]
            exact .bind (drawsBlameless_drawInstance hStrict hNames ih hFound) fun _ => .pure _
          · simp only [hType]
            exact drawsBlameless_drawPointer hStrict hFound

/-- No type is to blame if an instance of an indexed class cannot be generated. -/
theorem sparesTypes_generateFrom (hStrict : g.registry.IsStrict)
    (hNames : ModelFiles.HasSimpleNames g.registry.files) {space typeName : String}
    (hFound : g.registry.index.class? (qualify space typeName) = some c) (state : σ) :
    FailsOnly SparesTypes (g.generateFrom space typeName state) := by
  intro failure hFailure
  rcases of_generateFrom_eq_error hFailure with rfl | ⟨depth, hDepth⟩
  · trivial
  · exact drawsBlameless_drawInstance hStrict hNames (makesBlameless_drawItem hStrict hNames depth)
      hFound state failure hDepth

end DomainModels.Generator
