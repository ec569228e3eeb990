import DomainModels.Proofs.Index.Build
import DomainModels.Proofs.Index.Root
import DomainModels.Proofs.Index.SuperChain

/-!
Inheritance.

A class extends the one that it names, or the root class of its kind. Nothing that is resolved leads
into a cycle of this relation, so that every walk to the super types of an indexed class ends; in a
strict index it ends in a root class.
-/

namespace DomainModels

open ModelFiles (Resolves Needs IsLoaded findClass)
open Relation (TransGen ReflTransGen)

namespace ModelFiles

variable {files : ModelFiles} {fqn : String}

/-- A class extends another one by what is written: the reference to its super type, or none, where
the root class of its kind is meant. -/
def Extends (files : ModelFiles) (sub super : String) : Prop :=
  ∃ file d body, findClass files sub = .ok (file, d, body) ∧
    match body.superType with
    | some type => file.resolve files type = .ok super
    | none => d.space ≠ rootNamespace ∧ super = body.kind.rootClass

/-- A call that the search makes while it resolves a class. The parts of a call are the waiting
classes and the name. -/
def Calls (files : ModelFiles) (callee caller : List String × String) : Prop :=
  caller.2 ∉ caller.1 ∧ Needs files caller.2 callee.2 ∧ callee.1 = caller.1 ++ [caller.2]

/-- No search calls itself without end. -/
theorem wellFounded_calls (files : ModelFiles) : WellFounded (Calls files) := by
  refine Subrelation.wf ?_ (measure fun call : List String × String => outside files call.1).wf
  rintro ⟨calleeWaiting, callee⟩ ⟨waiting, caller⟩ ⟨hNew, ⟨_, _, _, hFound, _⟩, rfl⟩
  exact outside_append_lt (mem_names_of_findClass hFound) hNew

/-! ## What is written and what is needed -/

/-- The classes of the root namespace are the root classes of the kinds. They name no super type and
declare no properties. -/
theorem IsLoaded.rootClass_of_space (hFiles : IsLoaded files) {file : ModelFile} {d : Declaration}
    {body : ClassBody} (hFound : findClass files fqn = .ok (file, d, body))
    (hSpace : d.space = rootNamespace) :
    fqn = body.kind.rootClass ∧ body.superType = none ∧ body.properties = [] := by
  obtain ⟨hFind, hClass⟩ := findClass_eq_ok.mp hFound
  obtain ⟨hFile, hMem, hHome, rfl⟩ := hFiles.of_findDeclaration hFind
  rw [← hHome, hSpace, hFiles.root] at hFile
  cases hFile
  simp only [Root.file, List.mem_cons, List.not_mem_nil, or_false] at hMem
  rcases hMem with rfl | rfl | rfl | rfl | rfl
  all_goals
    cases hClass
    exact ⟨rfl, rfl, rfl⟩

theorem IsLoaded.findClass_rootClass (hFiles : IsLoaded files) (kind : ClassKind) :
    ∃ d body, findClass files kind.rootClass = .ok (Root.file, d, body) ∧
      d.space = rootNamespace ∧ body.kind = kind := by
  have hSplit : splitQualified kind.rootClass = some (rootNamespace, kind.rootName) := by
    cases kind <;> rfl
  simp only [findClass_eq_ok, ModelFiles.find?, hSplit, Option.bind_eq_bind, Option.bind_some,
    hFiles.root]
  cases kind
  all_goals exact ⟨_, _, ⟨rfl, rfl⟩, rfl, rfl⟩

/-- What a resolved class extends is what its resolution needs. -/
theorem Extends.needs (hFiles : IsLoaded files) {super : String} {c : ResolvedClass}
    (hExtends : Extends files fqn super) (hResolves : Resolves files fqn c) :
    Needs files fqn super := by
  obtain ⟨file, d, body, hFound, hWritten⟩ := hExtends
  refine ⟨file, d, body, hFound, ?_⟩
  cases hSuper : body.superOf files file d with
  | error failure => exact (not_resolves_of_faulty_super hFound hSuper hResolves).elim
  | ok found =>
      have hRefers : body.resolveSuper files file d = .ok found := by
        cases found with
        | none => exact ClassBody.superOf_eq_none hSuper
        | some target => exact (ClassBody.superOf_eq_some hSuper).1
      unfold ClassBody.resolveSuper at hRefers
      cases hType : body.superType with
      | none =>
          simp only [hType] at hRefers hWritten
          obtain ⟨hSpace, rfl⟩ := hWritten
          rw [if_neg hSpace] at hRefers
          exact hRefers.symm
      | some type =>
          -- A class that names itself is refused, unless it is one of the root model's.
          have hSpace : d.space ≠ rootNamespace := by
            intro hRoot
            rw [(hFiles.rootClass_of_space hFound hRoot).2.1] at hType
            cases hType
          simp only [hType] at hRefers hWritten
          simp only [ModelFile.resolveOrFail, Outcome.bind_eq_ok, Outcome.mapError_eq_ok] at hRefers
          obtain ⟨target, hTarget, hRefers⟩ := hRefers
          rw [hWritten] at hTarget
          cases hTarget
          split at hRefers
          · simp at hRefers
          · rw [Outcome.pure_eq_ok] at hRefers
            rw [hRefers]

/-- Where a resolved class leads, there is a resolved class, and the way is the one of the
resolution. -/
theorem Resolves.transGen_extends (hFiles : IsLoaded files) {super : String} {c : ResolvedClass}
    (hResolves : Resolves files fqn c) (hLeads : TransGen (Extends files) fqn super) :
    TransGen (Needs files) fqn super ∧ ∃ ancestor, Resolves files super ancestor := by
  induction hLeads with
  | single hStep =>
      have hNeeds := hStep.needs hFiles hResolves
      exact ⟨.single hNeeds, hResolves.needs hNeeds⟩
  | tail _ hStep ih =>
      obtain ⟨hWay, middle, hMiddle⟩ := ih
      have hNeeds := hStep.needs hFiles hMiddle
      exact ⟨hWay.tail hNeeds, hMiddle.needs hNeeds⟩

/-- No resolved class lies on a cycle or leads into one. -/
theorem Resolves.not_leads_to_cycle (hFiles : IsLoaded files) {super : String} {c : ResolvedClass}
    (hResolves : Resolves files fqn c) (hLeads : ReflTransGen (Extends files) fqn super) :
    ¬ TransGen (Extends files) super super := by
  intro hCycle
  obtain ⟨ancestor, hAncestor⟩ : ∃ ancestor, Resolves files super ancestor := by
    rcases Relation.reflTransGen_iff_eq_or_transGen.mp hLeads with rfl | hLeads
    · exact ⟨c, hResolves⟩
    · exact (hResolves.transGen_extends hFiles hLeads).2
  exact hAncestor.not_cyclic (hAncestor.transGen_extends hFiles hCycle).1

/-! ## Super types of resolved classes -/

/-- The super type of a resolved class is what its resolution needs. -/
theorem Resolves.needs_superType (hFiles : IsLoaded files) {super : String} {c : ResolvedClass}
    (hResolves : Resolves files fqn c) (hSuper : c.superType = some super) :
    Needs files fqn super := by
  cases hResolves with
  | base hFound hNone hResolved =>
      obtain ⟨_, _, _, _, rfl⟩ := ClassBody.resolve_eq_ok hResolved
      cases hSuper
  | @sub _ _ _ _ _ parent _ hFound hSome hParent hResolved =>
      obtain ⟨_, _, _, _, rfl⟩ := ClassBody.resolve_eq_ok hResolved
      have hName : parent.fqn = super := Option.some.inj hSuper
      rw [hFiles.fqn_of_resolves hParent] at hName
      subst hName
      exact ⟨_, _, _, hFound, hSome⟩

/-- And what it needs is its super type. -/
theorem Resolves.superType_of_needs (hFiles : IsLoaded files) {super : String} {c : ResolvedClass}
    (hResolves : Resolves files fqn c) (hNeeds : Needs files fqn super) :
    c.superType = some super := by
  obtain ⟨file, d, body, hFound, hSuper⟩ := hNeeds
  obtain ⟨parent, hParent, hResolved⟩ := (resolves_iff_of_super hFound hSuper).mp hResolves
  obtain ⟨_, _, _, _, rfl⟩ := ClassBody.resolve_eq_ok hResolved
  rw [← hFiles.fqn_of_resolves hParent]
  rfl

/-- A class without a super type is a root class. -/
theorem Resolves.of_no_superType (hFiles : IsLoaded files) {c : ResolvedClass}
    (hResolves : Resolves files fqn c) (hSuper : c.superType = none) : fqn = c.kind.rootClass := by
  cases hResolves with
  | @base _ file d body _ hFound hNone hResolved =>
      obtain ⟨_, _, _, _, rfl⟩ := ClassBody.resolve_eq_ok hResolved
      have hRefers := ClassBody.superOf_eq_none hNone
      have hSpace : d.space = rootNamespace := by
        unfold ClassBody.resolveSuper at hRefers
        by_contra hOther
        split at hRefers
        · simp only [Outcome.bind_eq_ok] at hRefers
          obtain ⟨target, _, hRefers⟩ := hRefers
          split at hRefers
          · simp at hRefers
          · simp at hRefers
        · simp [hOther] at hRefers
      exact (hFiles.rootClass_of_space hFound hSpace).1
  | sub hFound hSome hParent hResolved =>
      obtain ⟨_, _, _, _, rfl⟩ := ClassBody.resolve_eq_ok hResolved
      cases hSuper

/-- The super type of a class is resolved to a class of the same kind, or to the root class of all
concepts. -/
theorem Resolves.kind_of_super (hFiles : IsLoaded files) {super : String} {c parent : ResolvedClass}
    (hResolves : Resolves files fqn c) (hNeeds : Needs files fqn super)
    (hParent : Resolves files super parent) :
    parent.kind = c.kind ∨ super = ClassKind.concept.rootClass ∧ parent.kind = .concept := by
  obtain ⟨file, d, body, hFound, hSuper⟩ := hNeeds
  obtain ⟨home, declaration, parentBody, hHome, hBody, hAllowed⟩ :=
    ClassBody.checkSuper_eq_ok (ClassBody.superOf_eq_some hSuper).2
  have hKind : parent.kind = parentBody.kind :=
    hParent.kind_of_findClass (findClass_eq_ok.mpr ⟨hHome, hBody⟩)
  rcases hAllowed with hSame | rfl
  · exact .inl (by rw [hKind, hSame, hResolves.kind_of_findClass hFound])
  · obtain ⟨_, _, hRoot, _, hConcept⟩ := hFiles.findClass_rootClass .concept
    exact .inr ⟨rfl, by rw [hParent.kind_of_findClass hRoot, hConcept]⟩

end ModelFiles

namespace TypeIndex

variable {files : ModelFiles} {mode : BuildMode} {index : TypeIndex}

theorem Inherits.needs (hFiles : IsLoaded files) (hBuild : build files mode = .ok index)
    {sub super : String} (hInherits : index.Inherits sub super) : Needs files sub super := by
  obtain ⟨c, hFound, hSuper⟩ := Option.bind_eq_some_iff.mp hInherits
  exact (resolves_of_class? hFiles hBuild hFound).needs_superType hFiles hSuper

/-- No indexed class is its own ancestor. -/
theorem acyclic_of_build (hFiles : IsLoaded files) (hBuild : build files mode = .ok index) :
    index.Acyclic := by
  intro fqn hCycle
  obtain ⟨_, hFirst, _⟩ := TransGen.head'_iff.mp hCycle
  obtain ⟨c, hFound, _⟩ := Option.bind_eq_some_iff.mp hFirst
  have hNeeds : TransGen (Needs files) fqn fqn :=
    hCycle.lift id fun _ _ hStep => Inherits.needs hFiles hBuild hStep
  exact (resolves_of_class? hFiles hBuild hFound).not_cyclic hNeeds

/-! ## Strict indexes -/

/-- In a strict index the super type of a class is a class of the same kind, or the root class of
all concepts. -/
theorem Inherits.kind (hFiles : IsLoaded files) (hBuild : build files .strict = .ok index)
    {sub super : String} (hInherits : index.Inherits sub super) :
    ∃ c parent, index.class? sub = some c ∧ index.class? super = some parent ∧
      (parent.kind = c.kind ∨ super = ClassKind.concept.rootClass) := by
  obtain ⟨c, hFound, _⟩ := Option.bind_eq_some_iff.mp hInherits
  have hResolves := resolves_of_class? hFiles hBuild hFound
  have hNeeds := hInherits.needs hFiles hBuild
  obtain ⟨parent, hParent⟩ := hResolves.needs hNeeds
  refine ⟨c, parent, hFound, class?_of_resolves hFiles hBuild hParent, ?_⟩
  exact (hResolves.kind_of_super hFiles hNeeds hParent).imp_right And.left

/-- The root classes have no super types. -/
theorem not_inherits_rootClass (hFiles : IsLoaded files) (hBuild : build files mode = .ok index)
    (kind : ClassKind) (super : String) : ¬ index.Inherits kind.rootClass super := by
  intro hInherits
  obtain ⟨d, body, hFound, hSpace, _⟩ := hFiles.findClass_rootClass kind
  obtain ⟨_, _, _, hFound', hSuper⟩ := hInherits.needs hFiles hBuild
  rw [hFound] at hFound'
  cases hFound'
  have hRefers := (ClassBody.superOf_eq_some hSuper).1
  simp [ClassBody.resolveSuper, (hFiles.rootClass_of_space hFound hSpace).2.1, hSpace] at hRefers

/-- All classes on the way up have the kind of the class, up to the root class of all concepts. -/
theorem kind_of_reflTransGen (hFiles : IsLoaded files) (hBuild : build files .strict = .ok index)
    {sub super : String} {c : ResolvedClass} (hFound : index.class? sub = some c)
    (hReach : ReflTransGen index.Inherits sub super) :
    ∃ ancestor, index.class? super = some ancestor ∧
      (ancestor.kind = c.kind ∨ super = ClassKind.concept.rootClass) := by
  induction hReach with
  | refl => exact ⟨c, hFound, .inl rfl⟩
  | tail _ hStep ih =>
      obtain ⟨middle, hMiddle, hKind⟩ := ih
      obtain ⟨_, ancestor, hMiddle', hAncestor, hAllowed⟩ := Inherits.kind hFiles hBuild hStep
      rw [hMiddle] at hMiddle'
      cases hMiddle'
      refine ⟨ancestor, hAncestor, ?_⟩
      rcases hKind with hKind | rfl
      · exact hAllowed.imp_left fun hSame => hSame.trans hKind
      · exact (not_inherits_rootClass hFiles hBuild .concept _ hStep).elim

/-- A walk from a class to its super types, as every class of a strict index has one: it visits
distinct indexed classes, each the super type of the one before, keeps the kind until it goes to the
root class of all concepts, and ends in a root class. -/
structure IsWalkToRoot (index : TypeIndex) (c : ResolvedClass) (walk : List String) : Prop where
  first : walk.head? = some c.fqn
  distinct : walk.Nodup
  steps : walk.IsChain fun sub super => index.superType? sub = some super ∧
    ∃ a b, index.class? sub = some a ∧ index.class? super = some b ∧
      (b.kind = a.kind ∨ super = ClassKind.concept.rootClass)
  last : ∃ last, walk.getLast? = some last ∧ (index.class? last).isSome ∧
    index.superType? last = none ∧
    (last = c.kind.rootClass ∨ last = ClassKind.concept.rootClass)

/-- The walk that the index makes is one. -/
theorem isWalkToRoot_superChain (hFiles : IsLoaded files)
    (hBuild : build files .strict = .ok index) {c : ResolvedClass} (hMem : c ∈ index.classes) :
    IsWalkToRoot index c (index.superChain c.fqn) := by
  have hAcyclic := acyclic_of_build hFiles hBuild
  have hFound := class?_of_mem hBuild hMem
  have hChain := isChain_superChain index c.fqn
  refine ⟨?_, hAcyclic.nodup_of_isChain hChain, ?_, ?_⟩
  · obtain ⟨rest, hFirst⟩ := superChain_eq_cons index c.fqn
    rw [hFirst, List.head?_cons]
  · exact hChain.imp fun _ _ hStep => ⟨hStep, Inherits.kind hFiles hBuild hStep⟩
  · obtain ⟨before, last, hWalk, hEnd⟩ := hAcyclic.superChain_end c.fqn
    have hReach : ReflTransGen index.Inherits c.fqn last :=
      hAcyclic.mem_superChain.mp (by rw [hWalk]; simp)
    obtain ⟨root, hRoot, hKind⟩ := kind_of_reflTransGen hFiles hBuild hFound hReach
    refine ⟨last, by rw [hWalk, List.getLast?_concat], by rw [hRoot]; rfl, hEnd, ?_⟩
    refine hKind.imp_left fun hSame => ?_
    have hNone : root.superType = none := by
      simpa [superType?, hRoot] using hEnd
    rw [← hSame]
    exact (resolves_of_class? hFiles hBuild hRoot).of_no_superType hFiles hNone

/-- Inheritance is well founded. The search for a class never calls itself without end, so that a
build ends, and leniently it gives an index. A strict build is refused as soon as a class lies on a
cycle, of whatever length and over however many files, and what a lenient index holds does not even
lead into one. In a strict index each class has a walk to a root class. Therefore a type can stand
for another one exactly if it is reached by super types, and this is a partial order. -/
theorem inheritance_wellFounded (hFiles : IsLoaded files) :
    WellFounded (ModelFiles.Calls files) ∧
      (∃ index, build files .lenient = .ok index) ∧
      (∀ fqn, TransGen (ModelFiles.Extends files) fqn fqn →
        ∃ failure, build files .strict = .error failure) ∧
      (∀ index, build files .lenient = .ok index → ∀ c ∈ index.classes, ∀ super,
        ReflTransGen (ModelFiles.Extends files) c.fqn super →
        ¬ TransGen (ModelFiles.Extends files) super super) ∧
      ∀ index, build files .strict = .ok index →
        (∀ c ∈ index.classes, IsWalkToRoot index c (index.superChain c.fqn)) ∧
        (∀ sub super, index.isAssignable sub super = true ↔
          ReflTransGen (fun a b => index.superType? a = some b) sub super) ∧
        (∀ a, index.isAssignable a a = true) ∧
        (∀ a b, index.isAssignable a b = true → index.isAssignable b a = true → a = b) ∧
        ∀ a b c, index.isAssignable a b = true → index.isAssignable b c = true →
          index.isAssignable a c = true := by
  refine ⟨ModelFiles.wellFounded_calls files, build_lenient files, ?_, ?_, ?_⟩
  · intro fqn hCycle
    refine Outcome.exists_error_of_ne_ok fun index hBuild => ?_
    obtain ⟨_, ⟨_, _, _, hFound, _⟩, _⟩ := TransGen.head'_iff.mp hCycle
    obtain ⟨c, hResolves⟩ := exists_resolves hFiles hBuild hFound
    exact hResolves.not_leads_to_cycle hFiles .refl hCycle
  · intro index hBuild c hMem super hLeads
    exact (resolves_of_mem hFiles hBuild hMem).not_leads_to_cycle hFiles hLeads
  · intro index hBuild
    have hAcyclic := acyclic_of_build hFiles hBuild
    refine ⟨fun c hMem => isWalkToRoot_superChain hFiles hBuild hMem,
      fun sub super => hAcyclic.isAssignable_iff, ?_, ?_, ?_⟩
    · intro a
      exact hAcyclic.isAssignable_iff.mpr .refl
    · intro a b hAB hBA
      exact hAcyclic.antisymm (hAcyclic.isAssignable_iff.mp hAB) (hAcyclic.isAssignable_iff.mp hBA)
    · intro a b c hAB hBC
      rw [hAcyclic.isAssignable_iff] at hAB hBC ⊢
      exact hAB.trans hBC

end TypeIndex

/-! ## A model of parcels

Tracked parcels extend parcels, and the system identifies them.
-/

namespace Post

def space : String := "post@1.0.0"

/-- The syntax tree of the model. -/
def model : Metamodel.Model :=
  { Metamodel.Model.empty space with
    declarations :=
      [⟨"Parcel", .classBody .concept false none none
         [⟨"weight", .typed (.primitive (.double none none)) false false, [], none⟩], [], none⟩,
       ⟨"Tracked", .classBody .concept false (some ⟨"Parcel", none⟩) (some .system)
         [⟨"route", .typed (.primitive (.string none none none)) true false, [], none⟩], [],
         none⟩] }

def weightProperty : Property := ⟨"weight", .value (.double none none), false, false, [], none⟩

def routeProperty : Property := ⟨"route", .value (.string none none), true, false, [], none⟩

/-- The model file. -/
def file : ModelFile where
  space := space
  version := ⟨"post", some ⟨1, 0, 0, "", ""⟩⟩
  fileName := none
  checksum := ModelFile.checksumOf model
  model := model
  declarations :=
    [⟨"Parcel", space, .classBody ⟨.concept, false, none, none, [weightProperty]⟩, [], none⟩,
     ⟨"Tracked", space,
       .classBody ⟨.concept, false, some ⟨"Parcel", none⟩, some .system, [routeProperty]⟩, [],
       none⟩]
  explicitImports := []
  wildcardImports := []
  decorators := []

def files : ModelFiles := [(rootNamespace, Root.file), (space, file)]

def weight : ResolvedProperty := ⟨weightProperty, "post@1.0.0.Parcel", .value (.double none none)⟩

def route : ResolvedProperty := ⟨routeProperty, "post@1.0.0.Tracked", .value (.string none none)⟩

/-- What identifies tracked parcels. -/
def identifier : ResolvedProperty :=
  ClassBody.systemProperty identifierField .string "post@1.0.0.Tracked"

def parcel : ResolvedClass := .concept space "Parcel" none none [weight]

def tracked : ResolvedClass :=
  .concept space "Tracked" (some "Parcel") (some identifierField) [route, identifier, weight]

def index : TypeIndex := ⟨Root.index.classes ++ [parcel, tracked], []⟩

theorem isLoaded_files : IsLoaded files := by
  refine ModelFiles.isLoaded_root.put (show ModelFile.ofModel model none [] = .ok file from rfl) ?_
  decide

theorem build_files : TypeIndex.build files .strict = .ok index := by
  have hEach : TypeIndex.resolveEach files .strict [parcel.fqn, tracked.fqn] Root.findings =
      .ok [parcel, tracked] := by
    refine Root.resolveEach_cons_sub rfl rfl rfl rfl rfl ?_
    exact Root.resolveEach_cons_sub rfl rfl rfl rfl rfl rfl
  exact (Root.build_of_rest rfl rfl rfl hEach rfl rfl rfl).trans
    (TypeIndex.checkPointers_of_no_pointers .strict (by decide) (by decide))

theorem tracked_mem : tracked ∈ index.classes := by simp [index]

end Post

namespace TypeIndex

/-- Tracked parcels are parcels, and these are concepts. -/
theorem isWalkToRoot_tracked : IsLoaded Post.files ∧
    build Post.files .strict = .ok Post.index ∧ Post.tracked ∈ Post.index.classes ∧
    IsWalkToRoot Post.index Post.tracked
      ["post@1.0.0.Tracked", "post@1.0.0.Parcel", "concerto@1.0.0.Concept"] ∧
    ∀ super, Post.index.isAssignable super Post.tracked.fqn = true →
      Post.index.isAssignable Post.tracked.fqn super = true → super = Post.tracked.fqn := by
  obtain ⟨_, _, _, _, hStrict⟩ := inheritance_wellFounded Post.isLoaded_files
  obtain ⟨hWalks, _, _, hAntisymm, _⟩ := hStrict Post.index Post.build_files
  exact ⟨Post.isLoaded_files, Post.build_files, Post.tracked_mem, hWalks _ Post.tracked_mem,
    fun super hAbove hBelow => hAntisymm _ _ hAbove hBelow⟩

end TypeIndex

end DomainModels
