import DomainModels.Proofs.Instance.Blame
import DomainModels.Proofs.Json.Tree
import DomainModels.Proofs.Registry.Targets

/-!
What can be wrong with a tree that is read into the instances of a strictly indexed registry.

Whatever stands at a property can be looked up, and so can every class that an object below the root
names, since it has to be one that can stand for the declared class. Therefore the only name that a
reader can fail to find is the one that the tree as a whole gives.
-/

namespace DomainModels.Decoder

open Outcome (FailsOnly)
open Failure (SparesTypes sparesTypes_invalidAt)

variable {d : Decoder} {p : ResolvedProperty} {path : Path} {c : ResolvedClass} {fqn : String}
  {members : List (String × Json)} {x : Resource}

/-! ## Single values -/

section

variable {P : Failure → Prop}
  (hHere : ∀ cause : Invalidity, cause.IsOfData → P (.invalidAt path cause))

include hHere

/-- What is read at a place is refused at this place. -/
theorem failsOnly_decodeValue {type : ValueType} {json : Json} :
    FailsOnly P (d.decodeValue type path json) := by
  unfold decodeValue
  split
  · exact .error (hHere _ trivial)
  · split
    · exact .bind (ValueType.failsOnly_check hHere) fun _ _ => .ok _
    · exact .ok _

theorem failsOnly_decodeEnum {values : List EnumValue} {json : Json} :
    FailsOnly P (d.decodeEnum fqn values path json) := by
  unfold decodeEnum
  split
  · exact .error (hHere _ trivial)
  · split
    · exact .error (hHere _ trivial)
    · exact .ok _

theorem failsOnly_decodePointer {declared text : String} :
    FailsOnly P (d.decodePointer declared path text) := by
  unfold decodePointer
  simp only
  split
  · exact .error (hHere _ trivial)
  · split
    · exact .error (hHere _ trivial)
    · exact .ok _

/-! ## Checks of instances -/

theorem failsOnly_checkMembers : FailsOnly P (checkMembers c path members) := by
  unfold checkMembers
  split
  · exact .error (hHere _ trivial)
  · split
    · exact .error (hHere _ trivial)
    · exact .ok ()

/-- Of an instance that is not complete either a required value is missing or the identifier is
empty. -/
theorem failsOnly_checkComplete (hMissing : ∀ p ∈ c.properties, p.isOptional = false →
      isShadowed c p = false → x.contains p.name = false →
      P (.invalidAt (path.field p.name) (.missingValue c.fqn p.name))) :
    FailsOnly P (checkComplete c path x) := by
  refine .bind (.forM fun p hMem => ?_) fun _ _ => ?_
  · split
    · exact .ok ()
    · rename_i hLacks
      simp only [Bool.or_eq_true, not_or, Bool.not_eq_true] at hLacks
      exact .error (hMissing p hMem hLacks.1.1 hLacks.2 hLacks.1.2)
  · split
    · exact .error (hHere _ trivial)
    · exact .ok ()

end

/-- A new instance of an indexed class that is not abstract can fail only for its defaults. -/
theorem failsOnly_newInstance {P : Failure → Prop}
    (hBad : ∀ text name, P (.illegalAnywhere (.badDateTimeDefault text name)))
    (hFound : d.registry.index.class? (qualify c.space c.name) = some c)
    (hConcrete : c.isAbstract = false) : FailsOnly P (d.newInstance c members) := by
  have hOk := (Registry.instantiable_eq_ok hFound).mpr ⟨hConcrete, rfl⟩
  unfold newInstance
  split
  · rename_i field hField
    refine .bind (.of_eq_ok hOk) fun found hSame => ?_
    obtain rfl := Except.ok.inj (hOk.symm.trans hSame)
    rw [ResolvedClass.isIdentified, hField]
    refine .bind (Registry.failsOnly_fillIn hBad) fun y hFill => ?_
    rw [← hField] at hFill
    rw [Resource.setIdentifier, (Registry.isFilled_of_fillIn hFill).1.identifierField, hField]
    exact .ok _
  · rename_i hNone
    refine .bind (.of_eq_ok hOk) fun found hSame => ?_
    obtain rfl := Except.ok.inj (hOk.symm.trans hSame)
    rw [ResolvedClass.isIdentified, hNone]
    exact Registry.failsOnly_fillIn hBad

/-! ## Trees -/

/-- No type is to blame if a tree cannot be read as an item. -/
def ReadsBlameless (d : Decoder) (json : Json) : Prop :=
  ∀ p path, (∃ kind, d.registry.Holds p kind) → FailsOnly SparesTypes (d.decodeItem p path json)

/-- No type is to blame if a tree cannot be read as a property. -/
def PropertyReadsBlameless (d : Decoder) (json : Json) : Prop :=
  ∀ p path, (∃ kind, d.registry.Holds p kind) →
    FailsOnly SparesTypes (d.decodeProperty p path json)

theorem propertyReadsBlameless {json : Json} (hJson : ReadsBlameless d json)
    (hItems : ∀ items, json = .array items → ∀ item ∈ items, ReadsBlameless d item) :
    PropertyReadsBlameless d json := by
  intro p path hHolds
  have hArray {items : List Json} (hAll : ∀ item ∈ items, ReadsBlameless d item) (i : Nat) :
      FailsOnly SparesTypes (d.decodeItems p path i items) := by
    induction items generalizing i with
    | nil =>
        rw [decodeItems]
        exact .ok []
    | cons item rest ih =>
        rw [decodeItems]
        refine .bind (hAll item List.mem_cons_self p _ hHolds) fun value _ => ?_
        exact .bind (ih (fun other hMem => hAll other (List.mem_cons_of_mem _ hMem)) _)
          fun _ _ => .ok _
  unfold decodeProperty
  split
  · split
    · rename_i items
      exact .map _ (hArray (hItems items rfl) 0)
    · exact .error trivial
  · exact hJson p path hHolds

/-- The members of an object can be read into an instance of an indexed class without blame. -/
theorem sparesTypes_decodeResource (hStrict : d.registry.IsStrict)
    (hNames : ModelFiles.HasSimpleNames d.registry.files)
    (hMembers : ∀ member ∈ members, PropertyReadsBlameless d member.2)
    (hFound : d.registry.index.class? fqn = some c) :
    FailsOnly SparesTypes (d.decodeResource fqn path members) := by
  obtain ⟨hClass, _⟩ := TypeIndex.mem_of_class? hFound
  have hNamed : d.registry.index.class? (qualify c.space c.name) = some c := by
    rw [hStrict.qualify_of_class? hFound]
    exact hFound
  have hProperties {properties : List ResolvedProperty}
      (hSome : ∀ p ∈ properties, p ∈ c.properties) (x : Resource) :
      FailsOnly SparesTypes (d.decodeMembers c path members x properties) := by
    induction properties generalizing x with
    | nil =>
        rw [decodeMembers]
        exact .ok x
    | cons p rest ih =>
        have hRest := fun q hMem => hSome q (List.mem_cons_of_mem _ hMem)
        rw [decodeMembers]
        split
        · exact ih hRest x
        · split
          · exact ih hRest x
          · exact ih hRest x
          · rename_i json _ hLookup
            have hMem := Json.mem_of_lookup hLookup
            refine .bind (hMembers _ hMem p _ ?_) fun value _ => ih hRest _
            exact hStrict.exists_holds_of_mem hNames hClass (hSome p List.mem_cons_self)
  unfold decodeResource
  refine .bind (.of_eq_ok (Registry.resolvedClass_eq_ok.mpr hFound)) fun found hOk => ?_
  obtain rfl : c = found :=
    Option.some.inj (hFound.symm.trans (Registry.resolvedClass_eq_ok.mp hOk))
  cases hAbstract : c.isAbstract with
  | true =>
      simp only [if_true]
      exact .error trivial
  | false =>
      simp only [Bool.false_eq_true, if_false]
      refine .bind (failsOnly_checkMembers fun _ => sparesTypes_invalidAt) fun _ _ => ?_
      refine .bind (failsOnly_newInstance (fun _ _ => trivial) hNamed hAbstract) fun start _ => ?_
      refine .bind (hProperties (fun _ hMem => hMem) start) fun y _ => ?_
      split
      · exact .bind (failsOnly_checkComplete (fun _ => sparesTypes_invalidAt)
          fun _ _ _ _ _ => trivial) fun _ _ => .ok _
      · exact .ok _

/-- An object that stands where a class is declared is read as an instance of an indexed class, or
it is refused for naming a class that cannot stand there. -/
theorem sparesTypes_decodeNested (hStrict : d.registry.IsStrict)
    (hNames : ModelFiles.HasSimpleNames d.registry.files)
    (hMembers : ∀ member ∈ members, PropertyReadsBlameless d member.2) {declared : String}
    (hFound : d.registry.index.class? declared = some c) :
    FailsOnly SparesTypes (d.decodeNested declared path members) := by
  unfold decodeNested
  simp only
  split
  · rename_i hAssignable
    obtain ⟨other, hOther⟩ := hStrict.class?_of_isAssignable hFound hAssignable
    exact sparesTypes_decodeResource hStrict hNames hMembers hOther
  · exact .error trivial

/-- The entries of an indexed map can be read without blame. -/
theorem sparesTypes_decodeMap (hStrict : d.registry.IsStrict)
    (hNames : ModelFiles.HasSimpleNames d.registry.files)
    (hMembers : ∀ member ∈ members, ReadsBlameless d member.2) {target : String} {m : ResolvedMap}
    (hFound : d.registry.index.map? target = some m) :
    FailsOnly SparesTypes (d.decodeMap target path members) := by
  have hHolds := (hStrict.exists_holds_of_map hNames (List.mem_of_find?_eq_some hFound)).2
  have hEntries (keyType : ValueType) {entries : List (String × Json)}
      (hSome : ∀ entry ∈ entries, ReadsBlameless d entry.2) :
      FailsOnly SparesTypes (d.decodeEntries keyType m.value path entries) := by
    induction entries with
    | nil =>
        rw [decodeEntries]
        exact .ok []
    | cons entry rest ih =>
        have hRest := ih fun other hMem => hSome other (List.mem_cons_of_mem _ hMem)
        rw [decodeEntries]
        split
        · exact hRest
        · refine .bind (failsOnly_decodeValue fun _ => sparesTypes_invalidAt) fun key _ => ?_
          refine .bind (hSome entry List.mem_cons_self m.value _ hHolds) fun item _ => ?_
          exact .bind hRest fun _ _ => .ok _
  unfold decodeMap
  refine .bind (.of_eq_ok (Registry.resolvedMap_eq_ok.mpr hFound)) fun found hOk => ?_
  obtain rfl : m = found :=
    Option.some.inj (hFound.symm.trans (Registry.resolvedMap_eq_ok.mp hOk))
  split
  · exact .error trivial
  · exact .map _ (hEntries _ hMembers)

/-- What stands at a property decides what is read there, and is found. -/
theorem readsBlameless_of_members (hStrict : d.registry.IsStrict)
    (hNames : ModelFiles.HasSimpleNames d.registry.files) {json : Json}
    (hMembers : ∀ members, json = .object members → ∀ member ∈ members,
      ReadsBlameless d member.2 ∧ PropertyReadsBlameless d member.2) :
    ReadsBlameless d json := by
  rintro p path ⟨kind, hHolds⟩
  have hNested {declared : String} {c : ResolvedClass} {members : List (String × Json)}
      (hFound : d.registry.index.class? declared = some c) (hJson : json = .object members) :
      FailsOnly SparesTypes (d.decodeNested declared path members) :=
    sparesTypes_decodeNested hStrict hNames (fun member hMem => (hMembers _ hJson member hMem).2)
      hFound
  unfold decodeItem
  cases kind with
  | primitive =>
      obtain ⟨v, _, hType⟩ := hHolds
      simp only [hType]
      exact failsOnly_decodeValue fun _ => sparesTypes_invalidAt
  | scalar =>
      obtain ⟨target, _, v, _, _, hType⟩ := hHolds
      simp only [hType]
      exact failsOnly_decodeValue fun _ => sparesTypes_invalidAt
  | enum =>
      obtain ⟨target, declaration, values, default, hRefers, hBody, hType⟩ := hHolds
      simp only [hType]
      refine .bind (.of_eq_ok hRefers.found) fun found hOk => ?_
      obtain rfl : declaration = found := Except.ok.inj (hRefers.found.symm.trans hOk)
      simp only [hBody]
      exact failsOnly_decodeEnum fun _ => sparesTypes_invalidAt
  | map =>
      obtain ⟨target, declaration, key, value, default, m, hRefers, hBody, hType, hFound⟩ := hHolds
      simp only [hType]
      refine .bind (.of_eq_ok hRefers.found) fun found hOk => ?_
      obtain rfl : declaration = found := Except.ok.inj (hRefers.found.symm.trans hOk)
      cases json with
      | object members =>
          simp only [hBody]
          exact sparesTypes_decodeMap hStrict hNames
            (fun member hMem => (hMembers _ rfl member hMem).1) hFound
      | _ =>
          simp only [hBody]
          exact .error trivial
  | ofClass =>
      obtain ⟨target, declaration, body, c, hRefers, hBody, hFound, hType⟩ := hHolds
      rcases hType with ⟨default, hType⟩ | ⟨hType, _⟩
      · simp only [hType]
        refine .bind (.of_eq_ok hRefers.found) fun found hOk => ?_
        obtain rfl : declaration = found := Except.ok.inj (hRefers.found.symm.trans hOk)
        cases json with
        | object members =>
            simp only [hBody]
            exact .map _ (hNested hFound rfl)
        | _ =>
            simp only [hBody]
            exact .error trivial
      · simp only [hType]
        cases json with
        | string text => exact failsOnly_decodePointer fun _ => sparesTypes_invalidAt
        | object members =>
            simp only
            split
            · exact .map _ (hNested hFound rfl)
            · exact .error trivial
        | _ => exact .error trivial

/-- No type is to blame for what stands below the root of a tree. -/
theorem readsBlameless (hStrict : d.registry.IsStrict)
    (hNames : ModelFiles.HasSimpleNames d.registry.files) (json : Json) :
    ReadsBlameless d json ∧ PropertyReadsBlameless d json := by
  induction json using Json.inductionOn_parts with
  | hParts json hItems hMembers =>
      have hItem := readsBlameless_of_members hStrict hNames hMembers
      exact ⟨hItem, propertyReadsBlameless hItem fun items hJson item hMem =>
        (hItems items hJson item hMem).1⟩

/-- Where a name is blamed for standing for nothing, it is the class that the root of the tree
gives, and it is not indexed. Nowhere is a scalar met that was not replaced. -/
theorem missing_of_decode (hStrict : d.registry.IsStrict)
    (hNames : ModelFiles.HasSimpleNames d.registry.files) {json : Json} {failure : Failure}
    (hFailed : d.decode json = .error failure) (hBlames : ¬ failure.SparesTypes) :
    ∃ members name cause, json = .object members ∧
      (members.lookup classKey).bind Json.string? = some name ∧
      d.registry.index.class? name = none ∧ failure = .missing name cause := by
  unfold decode at hFailed
  split at hFailed
  · rename_i members
    split at hFailed
    · rename_i fqn hFqn
      cases hFound : d.registry.index.class? fqn with
      | some c =>
          exact absurd (sparesTypes_decodeResource hStrict hNames
            (fun member _ => (readsBlameless hStrict hNames member.2).2) hFound failure hFailed)
            hBlames
      | none =>
          unfold decodeResource at hFailed
          cases hClass : d.registry.resolvedClass fqn with
          | ok c =>
              rw [Registry.resolvedClass_eq_ok.mp hClass] at hFound
              cases hFound
          | error other =>
              rw [hClass] at hFailed
              cases hFailed
              obtain ⟨cause, hCause⟩ := Registry.resolvedClass_eq_error hFound hClass
              exact ⟨members, fqn, cause, rfl, hFqn, hFound, hCause⟩
    · cases hFailed
      exact absurd trivial hBlames
  · cases hFailed
    exact absurd trivial hBlames

end DomainModels.Decoder
