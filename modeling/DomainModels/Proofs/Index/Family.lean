import DomainModels.Proofs.Index.SuperChain
import DomainModels.Proofs.Named
import Mathlib.Data.List.Basic

/-!
The classes that can stand for another one, and how they change when an index grows.

The descendants of a class are listed generation by generation up to a bound, which is never met as
long as no class is its own ancestor. Where an index is a part of another one, the larger one tells
about the classes of the smaller one what that one does.
-/

namespace DomainModels.TypeIndex

open Relation (TransGen ReflTransGen)

variable {index small large : TypeIndex} {c m : ResolvedClass}

/-- No two classes of an index have one name. -/
def IsDistinct (index : TypeIndex) : Prop := (index.classes.map (·.fqn)).Nodup

theorem IsDistinct.class?_of_mem (hDistinct : index.IsDistinct) (hMem : c ∈ index.classes) :
    index.class? c.fqn = some c :=
  Named.find?_of_mem hDistinct hMem

theorem mem_subclasses {fqn : String} : m ∈ index.subclasses fqn ↔
    (index.class? fqn).isSome = true ∧ m ∈ index.classes ∧ m.superType = some fqn := by
  unfold subclasses
  split
  · rename_i hFound
    simp [hFound]
  · rename_i hFound
    simp [hFound]

theorem IsDistinct.inherits_of_mem (hDistinct : index.IsDistinct) {fqn : String}
    (hMem : m ∈ index.subclasses fqn) : m ∈ index.classes ∧ index.Inherits m.fqn fqn := by
  obtain ⟨_, hClass, hSuper⟩ := mem_subclasses.mp hMem
  refine ⟨hClass, ?_⟩
  rw [Inherits, superType?, hDistinct.class?_of_mem hClass]
  exact hSuper

theorem mem_familyWithin_self (depth : Nat) (c : ResolvedClass) :
    c ∈ index.familyWithin depth c := by
  cases depth with
  | zero => exact List.mem_singleton_self c
  | succ depth => exact List.mem_cons_self

theorem mem_classes_of_mem_familyWithin {depth : Nat} (hClass : c ∈ index.classes)
    (hMem : m ∈ index.familyWithin depth c) : m ∈ index.classes := by
  induction depth generalizing c with
  | zero => rwa [List.mem_singleton.mp hMem]
  | succ depth ih =>
      rcases List.mem_cons.mp hMem with rfl | hMem
      · exact hClass
      · obtain ⟨sub, hSub, hMem⟩ := List.mem_flatMap.mp hMem
        exact ih (mem_subclasses.mp hSub).2.1 hMem

theorem mem_classes_of_mem_assignableClasses {fqn : String}
    (hMem : m ∈ index.assignableClasses fqn) : m ∈ index.classes := by
  unfold assignableClasses at hMem
  split at hMem
  · rename_i c hFound
    exact mem_classes_of_mem_familyWithin (Named.mem_of_find? hFound).1 hMem
  · cases hMem

/-- The members of a family are descendants. -/
theorem IsDistinct.reach_of_mem_familyWithin (hDistinct : index.IsDistinct) {depth : Nat}
    (hMem : m ∈ index.familyWithin depth c) : ReflTransGen index.Inherits m.fqn c.fqn := by
  induction depth generalizing c with
  | zero =>
      rw [List.mem_singleton.mp hMem]
  | succ depth ih =>
      rcases List.mem_cons.mp hMem with rfl | hMem
      · exact .refl
      · obtain ⟨sub, hSub, hMem⟩ := List.mem_flatMap.mp hMem
        exact (ih hMem).tail (hDistinct.inherits_of_mem hSub).2

/-- What can stand for a class is a descendant of it. -/
theorem IsDistinct.reach_of_mem_assignableClasses (hDistinct : index.IsDistinct) {fqn : String}
    (hMem : m ∈ index.assignableClasses fqn) : ReflTransGen index.Inherits m.fqn fqn := by
  unfold assignableClasses at hMem
  split at hMem
  · rename_i c hFound
    obtain ⟨_, rfl⟩ := Named.mem_of_find? hFound
    exact hDistinct.reach_of_mem_familyWithin hMem
  · cases hMem

/-! ## The bound on the generations -/

/-- Below a class there are no more generations than there are other classes. The trail are the
classes above it, up to the one with which the family begins. -/
theorem familyWithin_succ (hDistinct : index.IsDistinct) (hAcyclic : index.Acyclic) {depth : Nat}
    {trail : List String} (hChain : (c.fqn :: trail).IsChain index.Inherits)
    (hNames : c.fqn :: trail ⊆ index.classes.map (·.fqn))
    (hDepth : index.classes.length ≤ depth + trail.length) :
    index.familyWithin (depth + 1) c = index.familyWithin depth c := by
  induction depth generalizing c trail with
  | zero =>
      have hBound := (List.subperm_of_subset (hAcyclic.nodup_of_isChain hChain) hNames).length_le
      simp only [List.length_cons, List.length_map] at hBound
      omega
  | succ depth ih =>
      show c :: _ = c :: _
      refine congrArg (c :: ·) (List.flatMap_congr fun sub hSub => ?_)
      obtain ⟨hSubClass, hInherits⟩ := hDistinct.inherits_of_mem hSub
      refine ih (List.isChain_cons_cons.mpr ⟨hInherits, hChain⟩) ?_ ?_
      · exact List.cons_subset.mpr ⟨List.mem_map_of_mem hSubClass, hNames⟩
      · rw [List.length_cons]
        omega

theorem familyWithin_of_le (hDistinct : index.IsDistinct) (hAcyclic : index.Acyclic) {depth : Nat}
    (hClass : c ∈ index.classes) (hDepth : index.classes.length ≤ depth) :
    index.familyWithin depth c = index.familyWithin index.classes.length c := by
  induction depth, hDepth using Nat.le_induction with
  | base => rfl
  | succ depth hDepth ih =>
      rw [← ih]
      refine familyWithin_succ hDistinct hAcyclic (List.isChain_singleton c.fqn) ?_ (by simpa)
      exact List.cons_subset.mpr ⟨List.mem_map_of_mem hClass, List.nil_subset _⟩

/-! ## Parts of an index -/

/-- Members that contribute nothing may be left out. -/
theorem flatMap_eq_flatMap_filter {α β : Type} {items : List α} {p : α → Bool} {f g : α → List β}
    (hKept : ∀ a ∈ items, p a = true → f a = g a) (hLeft : ∀ a ∈ items, p a = false → f a = []) :
    items.flatMap f = (items.filter p).flatMap g := by
  induction items with
  | nil => rfl
  | cons a rest ih =>
      have hRest := ih (fun b hMem => hKept b (List.mem_cons_of_mem _ hMem))
        fun b hMem => hLeft b (List.mem_cons_of_mem _ hMem)
      cases hA : p a with
      | true =>
          rw [List.filter_cons_of_pos hA, List.flatMap_cons, List.flatMap_cons, hRest,
            hKept a List.mem_cons_self hA]
      | false =>
          rw [List.filter_cons_of_neg (by simp [hA]), List.flatMap_cons, hRest,
            hLeft a List.mem_cons_self hA, List.nil_append]

/-- An index has some of the classes of another one, as they are and in their order, and with them
their super types. -/
structure IsPartOf (small large : TypeIndex) : Prop where
  order : small.classes.Sublist large.classes
  superTypes : ∀ c ∈ small.classes, ∀ super, c.superType = some super →
    (small.class? super).isSome = true

namespace IsPartOf

variable (hPart : IsPartOf small large) (hDistinct : large.IsDistinct)
include hPart hDistinct

theorem isDistinct : small.IsDistinct := (hPart.order.map _).nodup hDistinct

theorem class?_eq_some {fqn : String} :
    small.class? fqn = some c ↔ large.class? fqn = some c ∧ (small.class? fqn).isSome = true := by
  have hLarge {d : ResolvedClass} (hFound : small.class? fqn = some d) :
      large.class? fqn = some d := by
    obtain ⟨hMem, rfl⟩ := Named.mem_of_find? hFound
    exact hDistinct.class?_of_mem (hPart.order.subset hMem)
  constructor
  · intro hFound
    exact ⟨hLarge hFound, by rw [hFound]; rfl⟩
  · rintro ⟨hFound, hKnown⟩
    obtain ⟨d, hD⟩ := Option.isSome_iff_exists.mp hKnown
    rw [hD, ← hLarge hD, hFound]

/-- The classes of the larger index that are known to the smaller one. -/
theorem filter_classes :
    large.classes.filter (fun c => (small.class? c.fqn).isSome) = small.classes := by
  have hKnown : ∀ c ∈ small.classes, (small.class? c.fqn).isSome = true := fun c hMem => by
    rw [(hPart.isDistinct hDistinct).class?_of_mem hMem]
    rfl
  have hSub := hPart.order.filter fun c => (small.class? c.fqn).isSome
  rw [List.filter_eq_self.mpr hKnown] at hSub
  refine (hSub.eq_of_length_le (List.Subperm.length_le ?_)).symm
  refine List.subperm_of_subset ((List.Nodup.of_map _ hDistinct).filter _) fun c hMem => ?_
  obtain ⟨hClass, hFound⟩ := List.mem_filter.mp hMem
  have hSame := (hPart.class?_eq_some hDistinct).mpr ⟨hDistinct.class?_of_mem hClass, hFound⟩
  exact (Named.mem_of_find? hSame).1

/-- Super types of known classes are the same, and known. -/
theorem inherits_iff {sub super : String} (hSub : (small.class? sub).isSome = true) :
    large.Inherits sub super ↔ small.Inherits sub super := by
  obtain ⟨c, hFound⟩ := Option.isSome_iff_exists.mp hSub
  have hLarge := ((hPart.class?_eq_some hDistinct).mp hFound).1
  simp only [Inherits, superType?, hFound, hLarge]

theorem inherits_of_small {sub super : String} (hInherits : small.Inherits sub super) :
    large.Inherits sub super := by
  obtain ⟨c, hFound, _⟩ := Option.bind_eq_some_iff.mp hInherits
  exact (hPart.inherits_iff hDistinct (by rw [hFound]; rfl)).mpr hInherits

theorem isSome_of_inherits {sub super : String} (hSub : (small.class? sub).isSome = true)
    (hInherits : large.Inherits sub super) : (small.class? super).isSome = true := by
  rw [hPart.inherits_iff hDistinct hSub] at hInherits
  obtain ⟨c, hFound, hSuper⟩ := Option.bind_eq_some_iff.mp hInherits
  exact hPart.superTypes c (Named.mem_of_find? hFound).1 super hSuper

theorem reach_iff {sub super : String} (hSub : (small.class? sub).isSome = true) :
    ReflTransGen large.Inherits sub super ↔ ReflTransGen small.Inherits sub super := by
  constructor
  · intro hReach
    have hKnown : ReflTransGen small.Inherits sub super ∧ (small.class? super).isSome = true := by
      induction hReach with
      | refl => exact ⟨.refl, hSub⟩
      | tail _ hStep ih =>
          exact ⟨ih.1.tail ((hPart.inherits_iff hDistinct ih.2).mp hStep),
            hPart.isSome_of_inherits hDistinct ih.2 hStep⟩
    exact hKnown.1
  · exact ReflTransGen.mono (fun _ _ hStep => hPart.inherits_of_small hDistinct hStep) _ _

/-- Descendants of a class that is not known are not known, either. -/
theorem isSome_of_reach {sub super : String} (hSub : (small.class? sub).isSome = true)
    (hReach : ReflTransGen large.Inherits sub super) : (small.class? super).isSome = true := by
  induction hReach with
  | refl => exact hSub
  | tail _ hStep ih => exact hPart.isSome_of_inherits hDistinct ih hStep

theorem acyclic (hAcyclic : large.Acyclic) : small.Acyclic := fun fqn hCycle =>
  hAcyclic fqn (TransGen.mono (fun _ _ hStep => hPart.inherits_of_small hDistinct hStep) _ _ hCycle)

/-- Known types can stand for each other in both indexes, or in neither. -/
theorem isAssignable_eq (hAcyclic : large.Acyclic) {sub super : String}
    (hSub : (small.class? sub).isSome = true) :
    large.isAssignable sub super = small.isAssignable sub super := by
  rw [Bool.eq_iff_iff, hAcyclic.isAssignable_iff, (hPart.acyclic hDistinct hAcyclic).isAssignable_iff]
  exact hPart.reach_iff hDistinct hSub

theorem filter_subclasses {fqn : String} (hFound : (small.class? fqn).isSome = true) :
    (large.subclasses fqn).filter (fun c => (small.class? c.fqn).isSome) = small.subclasses fqn := by
  obtain ⟨c, hC⟩ := Option.isSome_iff_exists.mp hFound
  have hLarge : (large.class? fqn).isSome = true := by
    rw [((hPart.class?_eq_some hDistinct).mp hC).1]
    rfl
  rw [subclasses, if_pos hLarge, subclasses, if_pos hFound, ← hPart.filter_classes hDistinct,
    List.filter_filter, List.filter_filter]
  exact List.filter_congr fun c _ => Bool.and_comm _ _

/-- The known members of the family of a known class are its family in the smaller index. -/
theorem filter_familyWithin {depth : Nat} (hFound : small.class? c.fqn = some c) :
    (large.familyWithin depth c).filter (fun m => (small.class? m.fqn).isSome) =
      small.familyWithin depth c := by
  induction depth generalizing c with
  | zero => simp [familyWithin, hFound]
  | succ depth ih =>
      have hKnown : (small.class? c.fqn).isSome = true := by rw [hFound]; rfl
      have hSubs : (large.subclasses c.fqn).flatMap (fun sub =>
            (large.familyWithin depth sub).filter fun m => (small.class? m.fqn).isSome) =
          (small.subclasses c.fqn).flatMap (small.familyWithin depth) := by
        rw [← hPart.filter_subclasses hDistinct hKnown]
        refine flatMap_eq_flatMap_filter (fun sub hSub hSubKnown => ?_) fun sub hSub hUnknown => ?_
        · obtain ⟨hClass, _⟩ := hDistinct.inherits_of_mem hSub
          have hSame := (hPart.class?_eq_some hDistinct).mpr
            ⟨hDistinct.class?_of_mem hClass, hSubKnown⟩
          exact ih hSame
        · -- What descends from a class that is not known is not known, either.
          refine List.filter_eq_nil_iff.mpr fun m hMem hMemKnown => ?_
          have hReach := hDistinct.reach_of_mem_familyWithin hMem
          rw [hPart.isSome_of_reach hDistinct hMemKnown hReach] at hUnknown
          cases hUnknown
      rw [familyWithin, familyWithin, List.filter_cons, if_pos hKnown, List.filter_flatMap, hSubs]

/-- The known ones of the types that can stand for a known type are those of the smaller index, in
its order. -/
theorem filter_assignableClasses (hAcyclic : large.Acyclic) {fqn : String}
    (hKnown : (small.class? fqn).isSome = true) :
    (large.assignableClasses fqn).filter (fun m => (small.class? m.fqn).isSome) =
      small.assignableClasses fqn := by
  obtain ⟨c, hFound⟩ := Option.isSome_iff_exists.mp hKnown
  obtain ⟨hClass, rfl⟩ := Named.mem_of_find? hFound
  have hLarge := ((hPart.class?_eq_some hDistinct).mp hFound).1
  rw [assignableClasses, assignableClasses, hFound, hLarge]
  simp only
  rw [hPart.filter_familyWithin hDistinct hFound]
  exact familyWithin_of_le (hPart.isDistinct hDistinct) (hPart.acyclic hDistinct hAcyclic) hClass
    hPart.order.length_le

end IsPartOf

end DomainModels.TypeIndex
