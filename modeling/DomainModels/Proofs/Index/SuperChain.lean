import DomainModels.Index.Basic
import Mathlib.Data.Finset.Card
import Mathlib.Data.List.Chain
import Mathlib.Logic.Relation

/-!
Walking from a class to its super types.

The walk of the index is bounded by the number of its classes. As long as no class is its own
ancestor the bound is never met: the walk ends where there is no super type, and whether a type can
stand for another one is decided as by a walk without a bound.
-/

namespace DomainModels.TypeIndex

open Relation (TransGen ReflTransGen)

variable {index : TypeIndex} {fqn : String}

/-- A name is the super type of an indexed class. -/
def Inherits (index : TypeIndex) (sub super : String) : Prop := index.superType? sub = some super

theorem Inherits.unique {a b : String} (hA : index.Inherits fqn a) (hB : index.Inherits fqn b) :
    a = b := by
  unfold Inherits at hA hB
  rw [hA] at hB
  exact Option.some.inj hB

/-- What has a super type is indexed. -/
theorem Inherits.mem_names {super : String} (hInherits : index.Inherits fqn super) :
    fqn ∈ index.classes.map (·.fqn) := by
  obtain ⟨c, hFound, _⟩ := Option.bind_eq_some_iff.mp hInherits
  have hName : c.fqn = fqn := by simpa using List.find?_some hFound
  exact List.mem_map.mpr ⟨c, List.mem_of_find?_eq_some hFound, hName⟩

/-! ## Walks with a bound -/

theorem superChainWithin_eq_cons (index : TypeIndex) (steps : Nat) (fqn : String) :
    ∃ rest, index.superChainWithin steps fqn = fqn :: rest := by
  cases steps with
  | zero => exact ⟨[], rfl⟩
  | succ steps =>
      unfold superChainWithin
      split
      · exact ⟨_, rfl⟩
      · exact ⟨[], rfl⟩

/-- Each name of a walk is the super type of the one before. -/
theorem isChain_superChainWithin (index : TypeIndex) (steps : Nat) (fqn : String) :
    (index.superChainWithin steps fqn).IsChain index.Inherits := by
  induction steps generalizing fqn with
  | zero => exact List.isChain_singleton fqn
  | succ steps ih =>
      unfold superChainWithin
      split
      · rename_i super hSuper
        obtain ⟨rest, hRest⟩ := superChainWithin_eq_cons index steps super
        have hLater := ih super
        rw [hRest] at hLater ⊢
        exact List.isChain_cons_cons.mpr ⟨hSuper, hLater⟩
      · exact List.isChain_singleton fqn

/-- A walk ends where there is no super type, or where its bound is met. -/
theorem superChainWithin_end (index : TypeIndex) (steps : Nat) (fqn : String) :
    ∃ before last, index.superChainWithin steps fqn = before ++ [last] ∧
      (index.superType? last = none ∨ before.length = steps) := by
  induction steps generalizing fqn with
  | zero => exact ⟨[], fqn, rfl, .inr rfl⟩
  | succ steps ih =>
      unfold superChainWithin
      split
      · rename_i super hSuper
        obtain ⟨before, last, hWalk, hEnd⟩ := ih super
        refine ⟨fqn :: before, last, by rw [hWalk, List.cons_append], ?_⟩
        exact hEnd.imp_right fun hLength => by rw [List.length_cons, hLength]
      · rename_i hNone
        exact ⟨[], fqn, rfl, .inl hNone⟩

/-- Before the end of a walk there is a next name. -/
theorem exists_next {before : List String} {name last : String}
    (hChain : (before ++ [last]).IsChain index.Inherits) (hMem : name ∈ before) :
    ∃ next ∈ before ++ [last], index.Inherits name next := by
  obtain ⟨front, back, rfl⟩ := List.append_of_mem hMem
  obtain ⟨next, later, hNext⟩ : ∃ next later, back ++ [last] = next :: later := by
    cases back with
    | nil => exact ⟨last, [], rfl⟩
    | cons next later => exact ⟨next, later ++ [last], rfl⟩
  have hSplit : front ++ name :: back ++ [last] = front ++ name :: next :: later := by
    rw [List.append_assoc, List.cons_append, hNext]
  rw [hSplit] at hChain ⊢
  refine ⟨next, by simp, ?_⟩
  exact (List.isChain_cons_cons.mp hChain.right_of_append).1

/-- What a walk meets can be reached. -/
theorem reflTransGen_of_isChain {fqn name : String} {rest : List String}
    (hChain : (fqn :: rest).IsChain index.Inherits) (hMem : name ∈ fqn :: rest) :
    ReflTransGen index.Inherits fqn name := by
  induction rest generalizing fqn with
  | nil =>
      rw [List.mem_singleton.mp hMem]
  | cons next later ih =>
      obtain ⟨hStep, hLater⟩ := List.isChain_cons_cons.mp hChain
      rcases List.mem_cons.mp hMem with rfl | hMem
      · exact .refl
      · exact .head hStep (ih hLater hMem)

/-! ## Walks without cycles -/

/-- No indexed class is its own ancestor. -/
def Acyclic (index : TypeIndex) : Prop := ∀ fqn, ¬ TransGen index.Inherits fqn fqn

/-- A walk meets no name twice. -/
theorem Acyclic.nodup_of_isChain (hAcyclic : index.Acyclic) {names : List String}
    (hChain : names.IsChain index.Inherits) : names.Nodup := by
  have hAbove : names.Pairwise (TransGen index.Inherits) :=
    List.isChain_iff_pairwise.mp (hChain.imp fun _ _ hStep => .single hStep)
  refine hAbove.imp ?_
  intro a b hLess hSame
  subst hSame
  exact hAcyclic a hLess

/-- The bound on the number of steps is never met. -/
theorem Acyclic.superChain_end (hAcyclic : index.Acyclic) (fqn : String) :
    ∃ before last, index.superChain fqn = before ++ [last] ∧ index.superType? last = none := by
  obtain ⟨before, last, hWalk, hEnd⟩ := superChainWithin_end index index.classes.length fqn
  refine ⟨before, last, hWalk, ?_⟩
  rcases hEnd with hNone | hLength
  · exact hNone
  · cases hSuper : index.superType? last with
    | none => rfl
    | some super =>
        have hChain : (before ++ [last]).IsChain index.Inherits :=
          hWalk ▸ isChain_superChainWithin index index.classes.length fqn
        -- One more name than there are classes would be met, and each of them has a super type.
        have hNodup : (before ++ [last]).Nodup := hAcyclic.nodup_of_isChain hChain
        have hSubset : before ++ [last] ⊆ index.classes.map (·.fqn) := by
          intro name hMem
          rcases List.mem_append.mp hMem with hMem | hMem
          · obtain ⟨_, _, hStep⟩ := exists_next hChain hMem
            exact hStep.mem_names
          · rw [List.mem_singleton.mp hMem]
            exact Inherits.mem_names hSuper
        have hBound := (List.subperm_of_subset hNodup hSubset).length_le
        simp only [List.length_append, List.length_map, List.length_singleton] at hBound
        omega

theorem isChain_superChain (index : TypeIndex) (fqn : String) :
    (index.superChain fqn).IsChain index.Inherits :=
  isChain_superChainWithin index index.classes.length fqn

theorem superChain_eq_cons (index : TypeIndex) (fqn : String) :
    ∃ rest, index.superChain fqn = fqn :: rest :=
  superChainWithin_eq_cons index index.classes.length fqn

/-- The names of the walk are those that can be reached. -/
theorem Acyclic.mem_superChain (hAcyclic : index.Acyclic) {sub super : String} :
    super ∈ index.superChain sub ↔ ReflTransGen index.Inherits sub super := by
  have hChain := isChain_superChain index sub
  obtain ⟨rest, hFirst⟩ := superChain_eq_cons index sub
  constructor
  · intro hMem
    rw [hFirst] at hChain hMem
    exact reflTransGen_of_isChain hChain hMem
  · intro hReach
    obtain ⟨before, last, hWalk, hEnd⟩ := hAcyclic.superChain_end sub
    induction hReach with
    | refl =>
        rw [hFirst]
        exact List.mem_cons_self
    | tail _ hStep ih =>
        rw [hWalk] at hChain ih ⊢
        rcases List.mem_append.mp ih with hMem | hMem
        · obtain ⟨next, hNext, hNextStep⟩ := exists_next hChain hMem
          exact hNextStep.unique hStep ▸ hNext
        · rw [List.mem_singleton.mp hMem, Inherits, hEnd] at hStep
          cases hStep

/-- A type can stand for its ancestors and for itself. -/
theorem Acyclic.isAssignable_iff (hAcyclic : index.Acyclic) {sub super : String} :
    index.isAssignable sub super = true ↔ ReflTransGen index.Inherits sub super := by
  rw [isAssignable, List.contains_iff_mem, hAcyclic.mem_superChain]

/-- Of two types that can stand for each other, each is the other one. -/
theorem Acyclic.antisymm (hAcyclic : index.Acyclic) {a b : String}
    (hAB : ReflTransGen index.Inherits a b) (hBA : ReflTransGen index.Inherits b a) : a = b := by
  rcases Relation.reflTransGen_iff_eq_or_transGen.mp hAB with hSame | hAB
  · exact hSame.symm
  · exact (hAcyclic a (hAB.trans_left hBA)).elim

end DomainModels.TypeIndex
