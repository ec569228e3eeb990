import DomainModels.Generator.Walk

/-!
Generating with enough depth.

An instance is generated among items that are nested at most so deep, for growing depths until one is
enough. What comes of it is what comes of one of the attempts, and also of every attempt with more
depth: the depth decides whether there is an outcome, and not which one.
-/

namespace DomainModels.Generator

variable {σ α β : Type}

/-- An attempt whose depth is not enough. -/
def IsExhausted (outcome : Except Failure α) : Prop := outcome = .error (.ungenerable .exhausted)

/-- The last attempt is one for which the depth is enough. -/
theorem exists_of_deepen {attempt : Nat → Except Failure α} {depth : Nat}
    {outcome : Except Failure α} (hEnds : deepen attempt depth = some outcome) :
    ∃ enough, attempt enough = outcome ∧ ¬ IsExhausted outcome := by
  refine deepen.partial_correctness attempt
    (fun _ outcome => ∃ enough, attempt enough = outcome ∧ ¬ IsExhausted outcome) ?_ depth outcome
    hEnds
  intro deeper hDeeper depth outcome hStep
  split at hStep
  · exact hDeeper _ _ hStep
  · rename_i hEnough
    refine ⟨depth, Option.some.inj hStep, fun hExhausted => ?_⟩
    exact hEnough ((Option.some.inj hStep).trans hExhausted)

/-- No further attempt is made after one for which the depth is enough. -/
theorem deepen_of_enough {attempt : Nat → Except Failure α} {depth : Nat}
    (hEnough : ¬ IsExhausted (attempt depth)) : deepen attempt depth = some (attempt depth) := by
  rw [deepen]
  split
  · rename_i hExhausted
    exact (hEnough hExhausted).elim
  · rfl

/-! ## More depth -/

/-- Unless its depth is not enough, an action does what another one does. -/
def Approximates (action deeper : Drawing σ α) : Prop :=
  ∀ s, IsExhausted (action.run s) ∨ deeper.run s = action.run s

namespace Approximates

theorem refl (action : Drawing σ α) : Approximates action action := fun _ => .inr rfl

theorem bind {action deeper : Drawing σ α} {next later : α → Drawing σ β}
    (hFirst : Approximates action deeper) (hNext : ∀ a, Approximates (next a) (later a)) :
    Approximates (action >>= next) (deeper >>= later) := by
  intro s
  simp only [StateT.run_bind]
  rcases hFirst s with hExhausted | hSame
  · rw [show action.run s = _ from hExhausted]
    exact .inl rfl
  · rw [hSame]
    cases action.run s with
    | error failure => exact .inr rfl
    | ok result => exact hNext result.1 result.2

/-- Steps that do not go deeper may come before. -/
theorem after {action : Drawing σ α} {next later : α → Drawing σ β}
    (hNext : ∀ a, Approximates (next a) (later a)) :
    Approximates (action >>= next) (action >>= later) :=
  bind (refl action) hNext

/-- And so may steps that do not draw. -/
theorem afterLift {x : Except Failure α} {next later : α → Drawing σ β}
    (hNext : ∀ a, x = .ok a → Approximates (next a) (later a)) :
    Approximates (liftM x >>= next : Drawing σ β) (liftM x >>= later) := by
  cases x with
  | error failure => exact fun _ => .inr rfl
  | ok a => exact hNext a rfl

theorem times {action deeper : Drawing σ α} (h : Approximates action deeper) (count : Nat) :
    Approximates (Generator.times action count) (Generator.times deeper count) := by
  induction count with
  | zero => exact refl _
  | succ count ih => exact bind h fun _ => bind ih fun _ => refl _

end Approximates

section

variable {g : Generator σ} {item deeper : ItemMaker σ}
  (hItem : ∀ stack p, Approximates (item stack p) (deeper stack p))

include hItem

theorem approximates_propertyValue (stack : List String) (p : ResolvedProperty) :
    Approximates (g.propertyValue item stack p) (g.propertyValue deeper stack p) := by
  unfold propertyValue
  simp only
  split
  · split
    · exact .refl _
    · exact .after fun count => .bind (.times (hItem stack p) count) fun _ => .refl _
  · split
    · exact .refl _
    · exact .bind (hItem stack p) fun _ => .refl _

theorem approximates_populate (stack : List String) (c : ResolvedClass)
    (properties : List ResolvedProperty) (x : Resource) :
    Approximates (g.populate item stack c properties x)
      (g.populate deeper stack c properties x) := by
  induction properties generalizing x with
  | nil => exact .refl _
  | cons p rest ih =>
      unfold populate
      split
      · refine .bind (approximates_propertyValue hItem stack p) fun value => ?_
        cases value with
        | none => exact ih x
        | some value => exact ih _
      · exact ih x

theorem approximates_drawInstance (stack : List String) (declared : String) :
    Approximates (g.drawInstance item stack declared) (g.drawInstance deeper stack declared) := by
  unfold drawInstance
  refine .afterLift fun c _ => ?_
  simp only
  split
  · exact .after fun id => .afterLift fun x _ => approximates_populate hItem _ c _ x
  · exact .afterLift fun x _ => approximates_populate hItem _ c _ x

theorem approximates_drawMap (stack : List String) (target : String) :
    Approximates (g.drawMap item stack target) (g.drawMap deeper stack target) := by
  unfold drawMap
  refine .afterLift fun m _ => ?_
  split
  · exact .refl _
  · rename_i keyType _
    have hEntry : Approximates
        (do return (← g.drawValue keyType, ← item stack m.value))
        (do return (← g.drawValue keyType, ← deeper stack m.value)) :=
      .after fun _ => .bind (hItem stack m.value) fun _ => .refl _
    simp only
    split
    · exact .after fun count => .bind (.times hEntry count) fun _ => .refl _
    · exact .after fun count => .bind (.times hEntry count) fun _ => .refl _

end

variable {g : Generator σ} {space typeName : String} {state : σ}

theorem approximates_drawItem (depth : Nat) (stack : List String) (p : ResolvedProperty) :
    Approximates (g.drawItem depth stack p) (g.drawItem (depth + 1) stack p) := by
  induction depth generalizing stack p with
  | zero => exact fun _ => .inl rfl
  | succ depth ih =>
      rw [drawItem, drawItem]
      cases p.type with
      | value type | scalar target type | relationship target => exact .refl _
      | declared target default =>
          refine .afterLift fun d _ => ?_
          cases d.body with
          | classBody body =>
              exact .bind (approximates_drawInstance ih stack target) fun _ => .refl _
          | enumBody values => exact .refl _
          | mapBody key value => exact approximates_drawMap ih stack target
          | scalarBody type => exact .refl _

/-- What is generated with enough depth is generated with any larger one. -/
theorem generateWithin_of_le {depth deeper : Nat} (hLe : depth ≤ deeper)
    (hEnough : ¬ IsExhausted (g.generateWithin depth space typeName state)) :
    g.generateWithin deeper space typeName state = g.generateWithin depth space typeName state := by
  induction hLe with
  | refl => rfl
  | @step deeper _ ih =>
      have hItem (stack : List String) (p : ResolvedProperty) :
          Approximates (g.drawItem deeper stack p) (g.drawItem (deeper + 1) stack p) :=
        approximates_drawItem deeper stack p
      rcases approximates_drawInstance hItem [] (qualify space typeName) state with
        hExhausted | hSame
      · exact (hEnough (ih ▸ hExhausted)).elim
      · exact hSame.trans ih

/-! ## Outcomes -/

/-- Where the first attempt is enough, what it makes is generated. -/
theorem generate_of_generateWithin {x : Resource} {later : σ}
    (hWithin : g.generateWithin (nestingBound g.registry.index) space typeName state =
      .ok (x, later)) : g.generate space typeName state = .ok x := by
  have hEnough : ¬ IsExhausted
      (g.generateWithin (nestingBound g.registry.index) space typeName state) := by
    rw [hWithin]
    exact nofun
  have hEnds : g.generateFrom? space typeName state = some (.ok (x, later)) :=
    (deepen_of_enough hEnough).trans (congrArg some hWithin)
  rw [generate, generateFrom, hEnds]
  rfl

/-- What is generated is generated with some depth. -/
theorem exists_of_generateFrom {result : Resource × σ}
    (hResult : g.generateFrom space typeName state = .ok result) :
    ∃ depth, g.generateWithin depth space typeName state = .ok result := by
  unfold generateFrom at hResult
  cases hEnds : g.generateFrom? space typeName state with
  | none =>
      rw [hEnds] at hResult
      cases hResult
  | some outcome =>
      rw [hEnds] at hResult
      obtain ⟨depth, hDepth, _⟩ := exists_of_deepen hEnds
      exact ⟨depth, hDepth.trans hResult⟩

/-- Generating fails where it fails with some depth, or never ends. -/
theorem of_generateFrom_eq_error {failure : Failure}
    (hFailure : g.generateFrom space typeName state = .error failure) :
    failure = .ungenerable .exhausted ∨
      ∃ depth, g.generateWithin depth space typeName state = .error failure := by
  unfold generateFrom at hFailure
  cases hEnds : g.generateFrom? space typeName state with
  | none =>
      rw [hEnds] at hFailure
      exact .inl (Except.error.inj hFailure).symm
  | some outcome =>
      rw [hEnds] at hFailure
      obtain ⟨depth, hDepth, _⟩ := exists_of_deepen hEnds
      exact .inr ⟨depth, hDepth.trans hFailure⟩

end DomainModels.Generator
