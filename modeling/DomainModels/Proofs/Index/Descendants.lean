import DomainModels.Proofs.Registry.Addition

/-!
Listing the descendants of a class.

Every class extends at most one other one and no class is its own ancestor, so that the classes of
an index make a forest. The list of the classes that can stand for another one is the preorder of
its tree: no class comes twice, none comes before the one that it extends, and the ones that extend
the same class come in the order of their declarations. A walk with a stack, which marks the classes
that it has met, comes to the same list.
-/

namespace DomainModels

open ModelFiles (IsLoaded HasSimpleNames)
open Relation (TransGen ReflTransGen)

namespace TypeIndex

variable {index : TypeIndex} {c m : ResolvedClass}

/-! ## Families -/

/-- Of two ancestors of one type, one is an ancestor of the other one. -/
theorem reach_total {fqn a b : String} (hA : ReflTransGen index.Inherits fqn a)
    (hB : ReflTransGen index.Inherits fqn b) :
    ReflTransGen index.Inherits a b ∨ ReflTransGen index.Inherits b a :=
  ReflTransGen.total_of_right_unique (fun _ _ _ hFirst hSecond => hFirst.unique hSecond) hA hB

/-- Different types that extend one class do not have descendants in common. -/
theorem Acyclic.eq_of_siblings (hAcyclic : index.Acyclic) {fqn a b super : String}
    (hA : ReflTransGen index.Inherits fqn a) (hB : ReflTransGen index.Inherits fqn b)
    (hSuperA : index.Inherits a super) (hSuperB : index.Inherits b super) : a = b := by
  -- The first step from the lower one of the two is to the class that both of them extend.
  have hAbove {low high : String} (hLow : index.Inherits low super)
      (hHigh : index.Inherits high super) (hReach : ReflTransGen index.Inherits low high) :
      low = high := by
    rcases ReflTransGen.cases_head hReach with hSame | ⟨next, hStep, hLater⟩
    · exact hSame
    · rw [hStep.unique hLow] at hLater
      exact (hAcyclic super (TransGen.tail' hLater hHigh)).elim
  rcases reach_total hA hB with hReach | hReach
  · exact hAbove hSuperA hSuperB hReach
  · exact (hAbove hSuperB hSuperA hReach).symm

theorem subclasses_sublist {fqn : String} : (index.subclasses fqn).Sublist index.classes := by
  unfold subclasses
  split
  · exact List.filter_sublist
  · exact List.nil_sublist _

/-- No class is twice in a family. -/
theorem nodup_familyWithin (hDistinct : index.IsDistinct) (hAcyclic : index.Acyclic) (depth : Nat)
    (c : ResolvedClass) : ((index.familyWithin depth c).map (·.fqn)).Nodup := by
  induction depth generalizing c with
  | zero => exact List.nodup_singleton _
  | succ depth ih =>
      rw [familyWithin, List.map_cons, List.map_flatMap, List.nodup_cons]
      refine ⟨fun hMem => ?_, List.nodup_flatMap.mpr ⟨fun sub _ => ih sub, ?_⟩⟩
      · obtain ⟨sub, hSub, hMem⟩ := List.mem_flatMap.mp hMem
        obtain ⟨m, hMem, hName⟩ := List.mem_map.mp hMem
        have hReach := hDistinct.reach_of_mem_familyWithin hMem
        rw [hName] at hReach
        exact hAcyclic c.fqn (TransGen.tail' hReach (hDistinct.inherits_of_mem hSub).2)
      · have hDiffer : ((index.subclasses c.fqn).map (·.fqn)).Nodup :=
          (subclasses_sublist.map _).nodup hDistinct
        refine (List.pairwise_map.mp hDiffer).imp_of_mem fun hFirst hSecond hOther => ?_
        intro name hA hB
        obtain ⟨a, hMemA, rfl⟩ := List.mem_map.mp hA
        obtain ⟨b, hMemB, hName⟩ := List.mem_map.mp hB
        have hReachB := hDistinct.reach_of_mem_familyWithin hMemB
        rw [hName] at hReachB
        exact hOther (hAcyclic.eq_of_siblings (hDistinct.reach_of_mem_familyWithin hMemA) hReachB
          (hDistinct.inherits_of_mem hFirst).2 (hDistinct.inherits_of_mem hSecond).2)

/-- With one more generation, a family has the classes that extend its members. -/
theorem mem_familyWithin_succ {depth : Nat} {sub : ResolvedClass}
    (hMem : m ∈ index.familyWithin depth c) (hSub : sub ∈ index.subclasses m.fqn) :
    sub ∈ index.familyWithin (depth + 1) c := by
  induction depth generalizing c with
  | zero =>
      rw [List.mem_singleton.mp hMem] at hSub
      exact List.mem_cons_of_mem _ (List.mem_flatMap.mpr ⟨sub, hSub, List.mem_singleton_self sub⟩)
  | succ depth ih =>
      rcases List.mem_cons.mp hMem with rfl | hMem
      · exact List.mem_cons_of_mem _
          (List.mem_flatMap.mpr ⟨sub, hSub, mem_familyWithin_self (depth + 1) sub⟩)
      · obtain ⟨next, hNext, hMem⟩ := List.mem_flatMap.mp hMem
        exact List.mem_cons_of_mem _ (List.mem_flatMap.mpr ⟨next, hNext, ih hMem⟩)

/-- A place in what several items contribute is a place in what one of them contributes. -/
theorem exists_split_of_flatMap {α β : Type} {items : List α} {f : α → List β}
    {before after : List β} {b : β} (hSplit : items.flatMap f = before ++ b :: after) :
    ∃ a ∈ items, ∃ earlier front back, f a = front ++ b :: back ∧ before = earlier ++ front := by
  induction items generalizing before with
  | nil => simp at hSplit
  | cons a rest ih =>
      rw [List.flatMap_cons] at hSplit
      -- The place is in what the later items contribute, or in what the first one does.
      have hLater {early : List β} (hBefore : before = f a ++ early)
          (hRest : rest.flatMap f = early ++ b :: after) : ∃ a' ∈ a :: rest, ∃ earlier front back,
            f a' = front ++ b :: back ∧ before = earlier ++ front := by
        obtain ⟨a', hMem, earlier, front, back, hItem, rfl⟩ := ih hRest
        exact ⟨a', List.mem_cons_of_mem _ hMem, f a ++ earlier, front, back, hItem,
          by rw [hBefore, List.append_assoc]⟩
      rcases List.append_eq_append_iff.mp hSplit with
        ⟨early, hBefore, hRest⟩ | ⟨back, hFirst, hRest⟩
      · exact hLater hBefore hRest
      · cases back with
        | nil =>
            have hBefore : before = f a ++ [] := by simpa using hFirst.symm
            exact hLater hBefore hRest.symm
        | cons first back =>
            obtain ⟨rfl, _⟩ := List.cons.inj hRest
            exact ⟨a, List.mem_cons_self, [], before, back, hFirst, rfl⟩

/-- In a family every class but the first one comes after the one that it extends. -/
theorem super_before_of_familyWithin {depth : Nat} {before after : List ResolvedClass}
    (hSplit : index.familyWithin depth c = before ++ m :: after) :
    m = c ∧ before = [] ∨ ∃ super ∈ before, m.superType = some super.fqn := by
  induction depth generalizing c before after with
  | zero =>
      cases before with
      | nil => exact .inl ⟨(List.cons.inj hSplit).1.symm, rfl⟩
      | cons first rest => simp [familyWithin] at hSplit
  | succ depth ih =>
      cases before with
      | nil => exact .inl ⟨(List.cons.inj hSplit).1.symm, rfl⟩
      | cons first rest =>
          obtain ⟨rfl, hRest⟩ := List.cons.inj hSplit
          obtain ⟨sub, hSub, earlier, front, back, hFamily, rfl⟩ := exists_split_of_flatMap hRest
          rcases ih hFamily with ⟨rfl, _⟩ | ⟨super, hMem, hSuper⟩
          · exact .inr ⟨c, List.mem_cons_self, (mem_subclasses.mp hSub).2.2⟩
          · exact .inr ⟨super, by simp [hMem], hSuper⟩

/-! ## The classes that can stand for another one -/

section

variable (hDistinct : index.IsDistinct) (hAcyclic : index.Acyclic)
include hDistinct

theorem assignableClasses_of_mem (hMem : c ∈ index.classes) :
    index.assignableClasses c.fqn = index.familyWithin index.classes.length c := by
  rw [assignableClasses, hDistinct.class?_of_mem hMem]

include hAcyclic

/-- The class comes first, and then, in the order of the classes that extend it, what can stand for
each of them. -/
theorem assignableClasses_eq_cons (hMem : c ∈ index.classes) : index.assignableClasses c.fqn =
    c :: (index.subclasses c.fqn).flatMap fun sub => index.assignableClasses sub.fqn := by
  rw [assignableClasses_of_mem hDistinct hMem,
    ← familyWithin_of_le hDistinct hAcyclic hMem (Nat.le_succ _), familyWithin]
  refine congrArg (c :: ·) (List.flatMap_congr fun sub hSub => ?_)
  exact (assignableClasses_of_mem hDistinct (mem_subclasses.mp hSub).2.1).symm

/-- The indexed descendants can stand for a class. -/
theorem mem_assignableClasses_of_reach (hMem : c ∈ index.classes) (hClass : m ∈ index.classes)
    (hReach : ReflTransGen index.Inherits m.fqn c.fqn) : m ∈ index.assignableClasses c.fqn := by
  generalize hName : m.fqn = name at hReach
  -- From the class downwards: what extends a member is a member.
  induction hReach using ReflTransGen.head_induction_on generalizing m with
  | refl =>
      have hSame : m = c := by
        have hFound := hDistinct.class?_of_mem hClass
        rw [hName, hDistinct.class?_of_mem hMem] at hFound
        exact (Option.some.inj hFound).symm
      rw [hSame, assignableClasses_of_mem hDistinct hMem]
      exact mem_familyWithin_self _ c
  | @head name next hStep hLater ih =>
      obtain ⟨super, hSuper, rfl⟩ : ∃ super ∈ index.classes, super.fqn = next := by
        rcases ReflTransGen.cases_head hLater with rfl | ⟨_, hNext, _⟩
        · exact ⟨c, hMem, rfl⟩
        · exact List.mem_map.mp hNext.mem_names
      have hSub : m ∈ index.subclasses super.fqn := by
        subst hName
        refine mem_subclasses.mpr ⟨by rw [hDistinct.class?_of_mem hSuper]; rfl, hClass, ?_⟩
        rwa [Inherits, superType?, hDistinct.class?_of_mem hClass] at hStep
      have hFamily := ih hSuper rfl
      rw [assignableClasses_of_mem hDistinct hMem] at hFamily ⊢
      rw [← familyWithin_of_le hDistinct hAcyclic hMem (Nat.le_succ _)]
      exact mem_familyWithin_succ hFamily hSub

theorem mem_assignableClasses (hMem : c ∈ index.classes) : m ∈ index.assignableClasses c.fqn ↔
    m ∈ index.classes ∧ index.isAssignable m.fqn c.fqn = true := by
  rw [hAcyclic.isAssignable_iff]
  constructor
  · intro hMember
    exact ⟨mem_classes_of_mem_assignableClasses hMember,
      hDistinct.reach_of_mem_assignableClasses hMember⟩
  · rintro ⟨hClass, hReach⟩
    exact mem_assignableClasses_of_reach hDistinct hAcyclic hMem hClass hReach

end

/-! ## Walking with a stack -/

/-- How many names of a list were not met. -/
def unmet (names met : List String) : Nat := names.countP fun name => !met.contains name

theorem unmet_lt {names met : List String} {name : String} (hMem : name ∈ names)
    (hNew : name ∉ met) : unmet names (name :: met) < unmet names met := by
  have hSplit : unmet names (name :: met) =
      (names.filter fun n => !met.contains n).countP (· ≠ name) := by
    rw [List.countP_filter]
    refine List.countP_congr fun n _ => ?_
    simp
  rw [hSplit, unmet, List.countP_eq_length_filter (l := names)]
  refine List.countP_lt_length_iff.mpr ⟨name, List.mem_filter.mpr ⟨hMem, by simpa using hNew⟩, ?_⟩
  simp

theorem unmet_eq {names met : List String} {name : String} (hOut : name ∉ names) :
    unmet names (name :: met) = unmet names met := by
  refine List.countP_congr fun n hMem => ?_
  have hOther : n ≠ name := fun hSame => hOut (hSame ▸ hMem)
  simp [hOther]

/-- Takes the first class from a stack. One that was not met before is listed, and the classes that
extend it are put on the stack, the first one on top. -/
def walk (index : TypeIndex) (met : List String) : List ResolvedClass → List ResolvedClass
  | [] => []
  | c :: stack =>
    if c.fqn ∈ met then index.walk met stack
    else c :: index.walk (c.fqn :: met) (index.subclasses c.fqn ++ stack)
termination_by stack => (unmet (index.classes.map (·.fqn)) met, stack.length)
decreasing_by
  · exact Prod.Lex.right _ (Nat.lt_succ_self _)
  · rename_i hNew
    by_cases hIndexed : c.fqn ∈ index.classes.map (·.fqn)
    · exact Prod.Lex.left _ _ (unmet_lt hIndexed hNew)
    · -- What is not indexed is extended by nothing.
      rw [unmet_eq hIndexed]
      refine Prod.Lex.right _ ?_
      have hNone : index.class? c.fqn = none := by
        refine List.find?_eq_none.mpr fun m hMem hSame => hIndexed ?_
        exact List.mem_map.mpr ⟨m, hMem, of_decide_eq_true hSame⟩
      rw [subclasses, hNone]
      exact Nat.lt_succ_self _

/-- As long as nothing that is met would be met a second time, the walk lists what can stand for the
classes of the stack, one after the other. -/
theorem walk_eq_flatMap (hDistinct : index.IsDistinct) (hAcyclic : index.Acyclic)
    {met : List String} {stack : List ResolvedClass} (hStack : ∀ c ∈ stack, c ∈ index.classes)
    (hNew : (met ++ (stack.flatMap fun c => index.assignableClasses c.fqn).map (·.fqn)).Nodup) :
    index.walk met stack = stack.flatMap fun c => index.assignableClasses c.fqn := by
  induction met, stack using walk.induct index with
  | case1 met => rw [walk, List.flatMap_nil]
  | case2 met c stack hMet ih =>
      have hFirst := assignableClasses_eq_cons hDistinct hAcyclic (hStack c List.mem_cons_self)
      rw [List.flatMap_cons, hFirst, List.cons_append, List.map_cons] at hNew
      exact ((List.nodup_append'.mp hNew).2.2 hMet List.mem_cons_self).elim
  | case3 met c stack hNotMet ih =>
      have hFirst := assignableClasses_eq_cons hDistinct hAcyclic (hStack c List.mem_cons_self)
      have hBelow : (c :: stack).flatMap (fun m => index.assignableClasses m.fqn) =
          c :: (index.subclasses c.fqn ++ stack).flatMap fun m =>
            index.assignableClasses m.fqn := by
        rw [List.flatMap_cons, hFirst, List.cons_append, List.flatMap_append]
      rw [hBelow, List.map_cons] at hNew
      rw [walk, if_neg hNotMet, hBelow, ih ?_ (List.perm_middle.nodup hNew)]
      intro m hMem
      rcases List.mem_append.mp hMem with hSub | hLater
      · exact (mem_subclasses.mp hSub).2.1
      · exact hStack m (List.mem_cons_of_mem _ hLater)

/-- The walk from a class lists what can stand for it. -/
theorem walk_eq_assignableClasses (hDistinct : index.IsDistinct) (hAcyclic : index.Acyclic)
    (hMem : c ∈ index.classes) : index.walk [] [c] = index.assignableClasses c.fqn := by
  have hOne : [c].flatMap (fun m => index.assignableClasses m.fqn) =
      index.assignableClasses c.fqn := List.flatMap_singleton _ c
  rw [← hOne]
  refine walk_eq_flatMap hDistinct hAcyclic (fun m hSame => ?_) ?_
  · rwa [List.mem_singleton.mp hSame]
  · rw [hOne, List.nil_append, assignableClasses_of_mem hDistinct hMem]
    exact nodup_familyWithin hDistinct hAcyclic _ c

/-! ## The order of the declarations -/

/-- A name is declared before another one: in a file of an earlier namespace, or earlier in the same
file. -/
def DeclaredBefore (files : ModelFiles) (a b : String) : Prop :=
  ∃ file d other e, (file, d) ∈ ModelFiles.declarations files ∧
    (other, e) ∈ ModelFiles.declarations files ∧ d.fqn = a ∧ e.fqn = b ∧
    (file.space < other.space ∨ file = other ∧ [d, e].Sublist file.declarations)

theorem pairwise_declaredNames {files : ModelFiles} (hFiles : IsLoaded files) :
    (declaredNames files).Pairwise (DeclaredBefore files) := by
  have hOrder : (ModelFiles.declarations files).Pairwise fun x y =>
      x.1.space < y.1.space ∨ x.1 = y.1 ∧ [x.2, y.2].Sublist x.1.declarations := by
    refine List.pairwise_flatMap.mpr ⟨fun file _ => ?_, ?_⟩
    · refine List.pairwise_map.mpr (List.pairwise_iff_forall_sublist.mpr fun hSub => ?_)
      exact .inr ⟨rfl, hSub⟩
    · refine List.pairwise_map.mpr (hFiles.sorted.imp_of_mem fun hA hB hLess x hX y hY => ?_)
      obtain ⟨_, _, rfl⟩ := List.mem_map.mp hX
      obtain ⟨_, _, rfl⟩ := List.mem_map.mp hY
      rw [hFiles.keyed _ hA, hFiles.keyed _ hB] at hLess
      exact .inl hLess
  exact List.pairwise_map.mpr (hOrder.imp_of_mem fun hX hY hBefore =>
    ⟨_, _, _, _, hX, hY, rfl, rfl, hBefore⟩)

section

variable {files : ModelFiles} {mode : BuildMode} (hFiles : IsLoaded files)
  (hNames : HasSimpleNames files) (hBuild : build files mode = .ok index)
include hFiles hNames hBuild

/-- An index has its classes in the order of their declarations. -/
theorem pairwise_classes :
    index.classes.Pairwise fun a b => DeclaredBefore files a.fqn b.fqn := by
  obtain ⟨_, classes, maps, _, _, _, hPointers⟩ := build_eq_ok.mp hBuild
  have hSub := ((sublist_of_checkPointers hPointers).map (·.fqn)).trans map_arrange_sublist
  rw [lastOccurrences_of_nodup (hFiles.nodup_declaredNames hNames)] at hSub
  exact List.pairwise_map.mp ((pairwise_declaredNames hFiles).sublist hSub)

/-- What can stand for a class of an index is listed by the walk with a stack that starts at the
class, in the preorder of the inheritance: the class itself, and then, one after the other, what can
stand for each of the classes that extend it, which come in the order of their declarations. Hence
the list has each class that is assignable to this one once, and no other ones, and no class comes
before the one that it extends. -/
theorem assignableClasses_of_build (hMem : c ∈ index.classes) :
    index.walk [] [c] = index.assignableClasses c.fqn ∧
      index.assignableClasses c.fqn =
        c :: (index.subclasses c.fqn).flatMap (fun sub => index.assignableClasses sub.fqn) ∧
      ((index.assignableClasses c.fqn).map (·.fqn)).Nodup ∧
      (∀ m, m ∈ index.assignableClasses c.fqn ↔
        m ∈ index.classes ∧ index.isAssignable m.fqn c.fqn = true) ∧
      (∀ before m after, index.assignableClasses c.fqn = before ++ m :: after →
        m = c ∧ before = [] ∨ ∃ super ∈ before, m.superType = some super.fqn) ∧
      (∀ m, m ∈ index.subclasses c.fqn ↔ m ∈ index.classes ∧ m.superType = some c.fqn) ∧
      (index.subclasses c.fqn).Pairwise (fun a b => DeclaredBefore files a.fqn b.fqn) := by
  have hDistinct := isDistinct_of_build hBuild
  have hAcyclic := acyclic_of_build hFiles hBuild
  have hFound : (index.class? c.fqn).isSome = true := by
    rw [hDistinct.class?_of_mem hMem]
    rfl
  refine ⟨walk_eq_assignableClasses hDistinct hAcyclic hMem,
    assignableClasses_eq_cons hDistinct hAcyclic hMem, ?_,
    fun m => mem_assignableClasses hDistinct hAcyclic hMem, fun before m after hSplit => ?_,
    fun m => ?_, ?_⟩
  · rw [assignableClasses_of_mem hDistinct hMem]
    exact nodup_familyWithin hDistinct hAcyclic _ c
  · rw [assignableClasses_of_mem hDistinct hMem] at hSplit
    exact super_before_of_familyWithin hSplit
  · rw [mem_subclasses]
    exact and_iff_right hFound
  · exact (pairwise_classes hFiles hNames hBuild).sublist subclasses_sublist

end

end TypeIndex

/-! ## A model of shapes

Two classes extend the first one, and the last one extends the first of the two.
-/

namespace Shapes

def space : String := "org.acme@1.0.0"

/-- The names of the classes and of what they extend. -/
def names : List (String × Option String) :=
  [("Shape", none), ("Polygon", some "Shape"), ("Circle", some "Shape"), ("Square", some "Polygon")]

/-- The syntax tree of the model. -/
def model : Metamodel.Model :=
  { Metamodel.Model.empty space with
    declarations := names.map fun (name, super) =>
      ⟨name, .classBody .concept false (super.map (⟨·, none⟩)) none [], [], none⟩ }

/-- The model file. -/
def file : ModelFile where
  space := space
  version := ⟨"org.acme", some ⟨1, 0, 0, "", ""⟩⟩
  fileName := none
  checksum := ModelFile.checksumOf model
  model := model
  declarations := names.map fun (name, super) =>
    ⟨name, space, .classBody ⟨.concept, false, super.map (⟨·, none⟩), none, []⟩, [], none⟩
  explicitImports := []
  wildcardImports := []
  decorators := []

def files : ModelFiles := [(rootNamespace, Root.file), (space, file)]

def shape : ResolvedClass := .concept space "Shape" none none []

def classes : List ResolvedClass :=
  names.map fun (name, super) => .concept space name super none []

def index : TypeIndex := ⟨Root.index.classes ++ classes, []⟩

theorem isLoaded_files : IsLoaded files := by
  refine ModelFiles.isLoaded_root.put (show ModelFile.ofModel model none [] = .ok file from rfl) ?_
  decide

theorem build_files : TypeIndex.build files .strict = .ok index := by
  have hEach : TypeIndex.resolveEach files .strict (names.map fun (name, _) => qualify space name)
      Root.findings = .ok classes := by
    refine Root.resolveEach_cons_sub rfl rfl rfl rfl rfl ?_
    refine Root.resolveEach_cons_sub rfl rfl rfl rfl rfl ?_
    refine Root.resolveEach_cons_sub rfl rfl rfl rfl rfl ?_
    exact Root.resolveEach_cons_sub rfl rfl rfl rfl rfl rfl
  exact (Root.build_of_rest rfl rfl rfl hEach rfl rfl rfl).trans
    (TypeIndex.checkPointers_of_no_pointers .strict (by decide) (by decide))

end Shapes

namespace TypeIndex

/-- The squares come with the polygons, before the circles, although they are declared after
them. -/
theorem assignableClasses_of_shapes : IsLoaded Shapes.files ∧ HasSimpleNames Shapes.files ∧
    build Shapes.files .strict = .ok Shapes.index ∧ Shapes.shape ∈ Shapes.index.classes ∧
      Shapes.index.walk [] [Shapes.shape] = Shapes.index.assignableClasses Shapes.shape.fqn ∧
      (Shapes.index.assignableClasses Shapes.shape.fqn).map (·.name) =
        ["Shape", "Polygon", "Square", "Circle"] ∧
      ((Shapes.index.assignableClasses Shapes.shape.fqn).map (·.fqn)).Nodup ∧
      (∀ m, m ∈ Shapes.index.assignableClasses Shapes.shape.fqn ↔ m ∈ Shapes.index.classes ∧
        Shapes.index.isAssignable m.fqn Shapes.shape.fqn = true) ∧
      (Shapes.index.subclasses Shapes.shape.fqn).Pairwise
        (fun a b => DeclaredBefore Shapes.files a.fqn b.fqn) := by
  have hNames : HasSimpleNames Shapes.files := by decide
  have hMem : Shapes.shape ∈ Shapes.index.classes :=
    List.mem_append_right _ List.mem_cons_self
  obtain ⟨hWalk, _, hNodup, hExact, _, _, hOrder⟩ :=
    assignableClasses_of_build Shapes.isLoaded_files hNames Shapes.build_files hMem
  exact ⟨Shapes.isLoaded_files, hNames, Shapes.build_files, hMem, hWalk, by decide, hNodup, hExact,
    hOrder⟩

end TypeIndex

end DomainModels
