import DomainModels.Proofs.Instance.Factory

/-!
Failures that do not blame the types of a registry.

Where instances of indexed classes are made, no name is found to stand for nothing, and no scalar is
met that was not replaced by the type of its values.
-/

namespace DomainModels

open Outcome (FailsOnly)

/-- Failures other than a name that stands for nothing and a scalar that was not replaced. -/
def Failure.SparesTypes : Failure → Prop
  | .missing .. | .invalid (.boxedScalar _) _ | .ungenerable (.boxedScalar ..) => False
  | _ => True

/-- What data may be refused for. A scalar that was not replaced is no fault of the data. -/
def Invalidity.IsOfData : Invalidity → Prop
  | .boxedScalar _ => False
  | _ => True

theorem Failure.sparesTypes_invalidAt {path : Path} {cause : Invalidity} (hData : cause.IsOfData) :
    SparesTypes (.invalidAt path cause) := by
  cases cause <;> trivial

/-- A value is refused at the place where it stands. -/
theorem ValueType.failsOnly_check {P : Failure → Prop} {v : ValueType} {path : Path} {value : Value}
    (hHere : ∀ cause : Invalidity, cause.IsOfData → P (.invalidAt path cause)) :
    FailsOnly P (v.check path value) := by
  have hText {validator : Option TextValidator} {text : String} :
      FailsOnly P (checkText validator path text) := by
    unfold checkText
    split
    · exact .mapError fun _ => hHere _ trivial
    · exact .ok ()
  have hNumber {validator : Option NumberValidator} {x : Float} :
      FailsOnly P (checkNumber validator path x) := by
    unfold checkNumber
    split
    · exact .mapError fun _ => hHere _ trivial
    · exact .ok ()
  unfold check
  split
  all_goals first | exact hText | exact hNumber | exact .ok () | exact .error (hHere _ trivial)

/-- The only defaults that are no values are texts of instants. -/
theorem ResolvedProperty.failsOnly_default? {P : Failure → Prop}
    (hBad : ∀ text name, P (.illegalAnywhere (.badDateTimeDefault text name)))
    {p : ResolvedProperty} : FailsOnly P p.default? := by
  have hValue {v : ValueType} {name : String} : FailsOnly P (v.makeDefault name) := by
    unfold ValueType.makeDefault
    split
    · split
      · exact .ok _
      · exact .error (hBad _ _)
    · exact .ok _
  refine .bind ?_ fun _ _ => .ok _
  unfold ResolvedType.makeDefault
  split
  · exact hValue
  · exact hValue
  · exact .ok _
  · exact .ok _

/-- An indexed class is found under its namespace and its name. -/
theorem TypeIndex.qualify_of_class? {files : ModelFiles} {mode : BuildMode} {index : TypeIndex}
    (hFiles : files.IsLoaded) (hBuild : build files mode = .ok index) {fqn : String}
    {c : ResolvedClass} (hFound : index.class? fqn = some c) : qualify c.space c.name = fqn := by
  have hResolves := resolves_of_class? hFiles hBuild hFound
  obtain ⟨_, _, _, _, _, hResolved⟩ := hResolves.exists_declaration
  have hName := hFiles.fqn_of_resolves hResolves
  obtain ⟨_, _, _, _, rfl⟩ := ClassBody.resolve_eq_ok hResolved
  exact hName

namespace Registry

variable {r : Registry} {fqn : String} {c : ResolvedClass}

/-- The class of a strict index is found under its namespace and its name. -/
theorem IsStrict.qualify_of_class? (hStrict : r.IsStrict) (hFound : r.index.class? fqn = some c) :
    qualify c.space c.name = fqn :=
  TypeIndex.qualify_of_class? hStrict.files hStrict.index hFound

/-- Look-ups fail only where a name stands for nothing. -/
theorem failsOnly_getType {P : Failure → Prop} (hMissing : ∀ name cause, P (.missing name cause)) :
    FailsOnly P (r.getType fqn) := by
  unfold getType
  repeat' split
  all_goals first | exact .ok _ | exact .error (hMissing _ _)

theorem failsOnly_resolvedClass {P : Failure → Prop}
    (hMissing : ∀ name cause, P (.missing name cause)) : FailsOnly P (r.resolvedClass fqn) := by
  unfold resolvedClass
  split
  · exact .ok _
  · refine .bind (failsOnly_getType hMissing) fun d _ => ?_
    split <;> exact .error (hMissing _ _)

theorem failsOnly_resolvedMap {P : Failure → Prop}
    (hMissing : ∀ name cause, P (.missing name cause)) : FailsOnly P (r.resolvedMap fqn) := by
  unfold resolvedMap
  split
  · exact .ok _
  · refine .bind (failsOnly_getType hMissing) fun d _ => ?_
    split <;> exact .error (hMissing _ _)

/-- Where no class is indexed, the asked name is blamed. -/
theorem resolvedClass_eq_error (hNone : r.index.class? fqn = none) {failure : Failure}
    (hFailed : r.resolvedClass fqn = .error failure) : ∃ cause, failure = .missing fqn cause := by
  have hType {failure : Failure} (hType : r.getType fqn = .error failure) :
      ∃ cause, failure = .missing fqn cause := by
    unfold getType at hType
    repeat' split at hType
    all_goals cases hType <;> exact ⟨_, rfl⟩
  simp only [resolvedClass, hNone] at hFailed
  cases hAnswer : r.getType fqn with
  | error other =>
      rw [hAnswer] at hFailed
      cases hFailed
      exact hType hAnswer
  | ok d =>
      rw [hAnswer] at hFailed
      simp only [bind, Except.bind] at hFailed
      split at hFailed
      all_goals
        cases hFailed
        exact ⟨_, rfl⟩

theorem failsOnly_fillIn {P : Failure → Prop}
    (hBad : ∀ text name, P (.illegalAnywhere (.badDateTimeDefault text name))) {now : DateTime}
    {x : Resource} : FailsOnly P (fillIn c now x) := by
  have hDefaults {properties : List ResolvedProperty} {x : Resource} :
      FailsOnly P (setDefaults properties x) := by
    induction properties generalizing x with
    | nil => exact .ok x
    | cons p rest ih =>
        rw [setDefaults]
        refine .bind (ResolvedProperty.failsOnly_default? hBad) fun default _ => ?_
        cases default with
        | none => exact ih
        | some value => exact ih
  exact hDefaults.bind fun _ _ => .ok _

variable (hFound : r.index.class? (qualify c.space c.name) = some c)

include hFound

theorem sparesTypes_instantiable :
    FailsOnly Failure.SparesTypes (r.instantiable c.space c.name) := by
  unfold instantiable
  refine .bind (.of_eq_ok (resolvedClass_eq_ok.mpr hFound)) fun found _ => ?_
  split
  · exact .error trivial
  · exact .ok found

theorem sparesTypes_newResource {now : DateTime} {id : String} :
    FailsOnly Failure.SparesTypes (r.newResource now c.space c.name id) := by
  refine .bind (sparesTypes_instantiable hFound) fun found _ => ?_
  split
  · exact .error trivial
  · refine .bind (failsOnly_fillIn fun _ _ => trivial) fun x _ => ?_
    unfold Resource.setIdentifier
    split
    · exact .ok _
    · exact .error trivial

theorem sparesTypes_newConcept {now : DateTime} :
    FailsOnly Failure.SparesTypes (r.newConcept now c.space c.name) := by
  refine .bind (sparesTypes_instantiable hFound) fun found _ => ?_
  split
  · exact .error trivial
  · exact failsOnly_fillIn fun _ _ => trivial

theorem sparesTypes_newRelationship {id : String} :
    FailsOnly Failure.SparesTypes (r.newRelationship c.space c.name id) := by
  refine .bind (.of_eq_ok (resolvedClass_eq_ok.mpr hFound)) fun found _ => ?_
  split
  · exact .error trivial
  · exact .ok _

end Registry

end DomainModels
