import DomainModels.Generator.Walk
import DomainModels.Proofs.Index.Family
import DomainModels.Proofs.Registry.Types

/-!
What can go wrong while values are drawn.

The steps of the generator fail in some way only if one of their parts does, whatever the state of
the source is.
-/

namespace DomainModels.Generator

open Outcome (FailsOnly)

variable {σ α β : Type} {P : Failure → Prop}

/-- Whenever something cannot be drawn, it is with a failure of some sort, whatever the state of the
source is. -/
def DrawsOnly (P : Failure → Prop) (action : Drawing σ α) : Prop :=
  ∀ s, FailsOnly P (action.run s)

namespace DrawsOnly

theorem pure (a : α) : DrawsOnly P (Pure.pure a : Drawing σ α) := fun s => .ok (a, s)

theorem throw {failure : Failure} (h : P failure) :
    DrawsOnly P (MonadExcept.throw failure : Drawing σ α) := fun _ => .error h

theorem bind {action : Drawing σ α} {next : α → Drawing σ β} (hFirst : DrawsOnly P action)
    (hNext : ∀ a, DrawsOnly P (next a)) : DrawsOnly P (action >>= next) :=
  fun s => .bind (hFirst s) fun result _ => hNext result.1 result.2

/-- What does not draw may use its result. -/
theorem bindLift {x : Except Failure α} {next : α → Drawing σ β} (hFirst : FailsOnly P x)
    (hNext : ∀ a, x = .ok a → DrawsOnly P (next a)) :
    DrawsOnly P (liftM x >>= next : Drawing σ β) := by
  intro s
  cases x with
  | error failure => exact .error (hFirst failure rfl)
  | ok a => exact hNext a rfl s

theorem draw (value : StateM σ α) : DrawsOnly P (Generator.draw value) :=
  fun s => .ok (value.run s)

theorem times {action : Drawing σ α} (h : DrawsOnly P action) (count : Nat) :
    DrawsOnly P (Generator.times action count) := by
  induction count with
  | zero => exact pure []
  | succ count ih => exact bind h fun _ => bind ih fun _ => pure _

end DrawsOnly

/-! ## Concrete classes -/

section

variable {r : Registry} {fqn : String} {c : ResolvedClass}

/-- What takes the place of a class is not abstract and can stand for it. -/
theorem mem_of_concrete (hConcrete : concrete r fqn = .ok c) :
    c ∈ r.index.assignableClasses fqn ∧ c.isAbstract = false := by
  simp only [concrete, Outcome.bind_eq_ok, Registry.resolvedClass_eq_ok] at hConcrete
  obtain ⟨top, hTop, hConcrete⟩ := hConcrete
  split at hConcrete
  · rename_i hKind
    rw [Outcome.pure_eq_ok] at hConcrete
    subst hConcrete
    refine ⟨?_, by simpa using hKind⟩
    rw [TypeIndex.assignableClasses, hTop]
    exact TypeIndex.mem_familyWithin_self _ _
  · split at hConcrete
    · rename_i found hFound
      rw [Outcome.pure_eq_ok] at hConcrete
      subst hConcrete
      exact ⟨List.mem_of_find?_eq_some hFound, by simpa using List.find?_some hFound⟩
    · simp at hConcrete

theorem mem_classes_of_concrete (hConcrete : concrete r fqn = .ok c) : c ∈ r.index.classes :=
  TypeIndex.mem_classes_of_mem_assignableClasses (mem_of_concrete hConcrete).1

end

/-! ## The steps of the generator -/

variable {g : Generator σ} {p : ResolvedProperty} {target : String} {c : ResolvedClass}
  {stack : List String} {item : ItemMaker σ}

theorem drawsOnly_drawPointer (hConcrete : FailsOnly P (concrete g.registry target))
    (hPointer : ∀ c id, concrete g.registry target = .ok c →
      FailsOnly P (g.registry.newRelationship c.space c.name id)) :
    DrawsOnly P (g.drawPointer target) := by
  refine .bindLift hConcrete fun c hC => ?_
  exact .bind (.draw _) fun id => .bindLift (hPointer c id hC) fun _ _ => .pure _

theorem drawsOnly_drawEnum {values : List EnumValue} (hEmpty : P (.ungenerable (.emptyEnum target))) :
    DrawsOnly P (g.drawEnum target values) := by
  unfold drawEnum
  cases values.isEmpty with
  | true => exact .throw hEmpty
  | false =>
      refine .bind (.draw _) fun i => ?_
      split
      · exact .pure _
      · exact .throw hEmpty

/-- Items are made only where no class is nested in itself. -/
theorem drawsOnly_propertyValue (hRecursive : P (.ungenerable .recursiveModel))
    (hItem : reenters g.registry stack p = false → DrawsOnly P (item stack p)) :
    DrawsOnly P (g.propertyValue item stack p) := by
  unfold propertyValue
  cases hNested : reenters g.registry stack p with
  | true =>
      simp only [if_true]
      split
      · exact .pure _
      · split
        · exact .pure _
        · exact .throw hRecursive
  | false =>
      simp only [Bool.false_eq_true, if_false]
      split
      · exact .bind (.draw _) fun count =>
          .bind (.times (hItem hNested) count) fun _ => .pure _
      · exact .bind (hItem hNested) fun _ => .pure _

theorem drawsOnly_populate (hRecursive : P (.ungenerable .recursiveModel))
    {properties : List ResolvedProperty}
    (hItem : ∀ p ∈ properties, reenters g.registry stack p = false → DrawsOnly P (item stack p))
    (x : Resource) : DrawsOnly P (g.populate item stack c properties x) := by
  induction properties generalizing x with
  | nil => exact .pure x
  | cons p rest ih =>
      have hRest := ih fun q hMem => hItem q (List.mem_cons_of_mem _ hMem)
      unfold populate
      split
      · refine .bind (drawsOnly_propertyValue hRecursive (hItem p List.mem_cons_self))
          fun value => ?_
        cases value with
        | none => exact hRest x
        | some value => exact hRest _
      · exact hRest x

theorem drawsOnly_drawInstance (hRecursive : P (.ungenerable .recursiveModel))
    (hConcrete : FailsOnly P (concrete g.registry target))
    (hNew : ∀ c, concrete g.registry target = .ok c →
      (∀ id, FailsOnly P (g.registry.newResource g.now c.space c.name id)) ∧
        FailsOnly P (g.registry.newConcept g.now c.space c.name))
    (hItem : ∀ c, concrete g.registry target = .ok c → ∀ p ∈ c.properties,
      reenters g.registry (c.fqn :: stack) p = false → DrawsOnly P (item (c.fqn :: stack) p)) :
    DrawsOnly P (g.drawInstance item stack target) := by
  refine .bindLift hConcrete fun c hC => ?_
  have hPopulate (x : Resource) :
      DrawsOnly P (g.populate item (c.fqn :: stack) c c.properties x) :=
    drawsOnly_populate hRecursive (hItem c hC) x
  simp only
  split
  · exact .bind (.draw _) fun id => .bindLift ((hNew c hC).1 id) fun x _ => hPopulate x
  · exact .bindLift (hNew c hC).2 fun x _ => hPopulate x

theorem drawsOnly_drawMap (hKey : P (.ungenerable (.noMapKey target)))
    (hMap : FailsOnly P (g.registry.resolvedMap target))
    (hItem : ∀ m, g.registry.resolvedMap target = .ok m →
      reenters g.registry stack m.value = false → DrawsOnly P (item stack m.value)) :
    DrawsOnly P (g.drawMap item stack target) := by
  refine .bindLift hMap fun m hM => ?_
  split
  · exact .throw hKey
  · rename_i keyType _
    cases hNested : reenters g.registry stack m.value with
    | true => exact fun s => .ok (Value.map [], s)
    | false =>
        have hEntry : DrawsOnly P (do
            return (← g.drawValue keyType, ← item stack m.value)) :=
          .bind (.draw _) fun _ => .bind (hItem m hM hNested) fun _ => .pure _
        exact .bind (.draw _) fun count => .bind (.times hEntry count) fun _ => .pure _

end DomainModels.Generator
