import DomainModels.Proofs.Wire.Once

/-!
What makes no difference when an instance is read.

The members of an object that is read as an instance are looked up by their names, and members whose
value is null count as absent. So their order does not matter, nor do members that are null, and
this is so at every depth. The members of an object that is read as a map are its entries: they are
read one after the other, and none of them counts as absent.
-/

namespace DomainModels

open Outcome (Agree)

/-! ## Trees that are read alike -/

namespace Decoder

/-- What a tree is read as: an instance of the class that it names, or else of the declared one, a
property, or an item of a property. -/
inductive Role where
  | resource (declared : Option String)
  | property (p : ResolvedProperty)
  | item (p : ResolvedProperty)

/-- The class that an object is read as an instance of. -/
def className? (declared : Option String) (members : List (String × Json)) : Option String :=
  ((members.lookup classKey).bind Json.string?).or declared

theorem className?_some (declared : String) (members : List (String × Json)) :
    className? (some declared) members =
      some (((members.lookup classKey).bind Json.string?).getD declared) := by
  rw [className?]
  cases (members.lookup classKey).bind Json.string? <;> rfl

/-- Reads a tree in a role. -/
def readAs (d : Decoder) : Role → Path → Json → Except Failure Value
  | .resource declared, path, .object members =>
    match className? declared members with
    | some fqn => .concept <$> d.decodeResource fqn path members
    | none => .error (.invalid .noClass none)
  | .resource _, _, _ => .error (.invalid .noClass none)
  | .property p, path, json => d.decodeProperty p path json
  | .item p, path, json => d.decodeItem p path json

end Decoder

open Decoder (Role className?)

/-- A property refers to a class: it holds instances of it, or pointers to some. -/
def Registry.RefersToClass (r : Registry) (p : ResolvedProperty) (target : String) : Prop :=
  p.type = .relationship target ∨ ∃ default d body,
    p.type = .declared target default ∧ r.getType target = .ok d ∧ d.body = .classBody body

/-- A property holds maps, whose items are those of the given property. -/
def Registry.HoldsMaps (r : Registry) (p item : ResolvedProperty) : Prop :=
  ∃ target default d key value m, p.type = .declared target default ∧ r.getType target = .ok d ∧
    d.body = .mapBody key value ∧ r.index.map? target = some m ∧ item = m.value

/-- Two trees that are read in one role differ only in objects that are read as instances, and there
in the order of the members and in members that are null. These objects are the tree itself, or they
stand in members for properties, in arrays and in the entries of maps. -/
inductive Registry.Alike (r : Registry) : Role → Json → Json → Prop where
  | refl (role : Role) (json : Json) : Alike r role json json
  | symm {role : Role} {json other : Json} (hAlike : Alike r role json other) :
      Alike r role other json
  | trans {role : Role} {json middle other : Json} (hFirst : Alike r role json middle)
      (hSecond : Alike r role middle other) : Alike r role json other
  | permuted {declared : Option String} {members others : List (String × Json)}
      (hPerm : members.Perm others) :
      Alike r (.resource declared) (.object members) (.object others)
  | null {declared : Option String} {members : List (String × Json)} {name : String}
      (hNew : name ∉ members.map (·.1)) :
      Alike r (.resource declared) (.object members) (.object ((name, .null) :: members))
  | member {declared : Option String} {before after : List (String × Json)} {json other : Json}
      {fqn : String} {c : ResolvedClass} {p : ResolvedProperty}
      (hName : className? declared (before ++ (p.name, json) :: after) = some fqn)
      (hClass : r.index.class? fqn = some c) (hMem : p ∈ c.properties)
      (hAlike : Alike r (.property p) json other) :
      Alike r (.resource declared) (.object (before ++ (p.name, json) :: after))
        (.object (before ++ (p.name, other) :: after))
  | element {p : ResolvedProperty} {before after : List Json} {json other : Json}
      (hArray : p.isArray = true) (hAlike : Alike r (.item p) json other) :
      Alike r (.property p) (.array (before ++ json :: after)) (.array (before ++ other :: after))
  | single {p : ResolvedProperty} {json other : Json} (hSingle : p.isArray = false)
      (hAlike : Alike r (.item p) json other) : Alike r (.property p) json other
  | nested {p : ResolvedProperty} {target : String} {json other : Json}
      (hRefers : r.RefersToClass p target) (hAlike : Alike r (.resource (some target)) json other) :
      Alike r (.item p) json other
  | entry {p item : ResolvedProperty} {before after : List (String × Json)} {name : String}
      {json other : Json} (hMaps : r.HoldsMaps p item) (hAlike : Alike r (.item item) json other) :
      Alike r (.item p) (.object (before ++ (name, json) :: after))
        (.object (before ++ (name, other) :: after))

/-! ## Shapes -/

namespace Json

/-- Two trees are the same, or both of them are objects or arrays. -/
inductive SameShape : Json → Json → Prop where
  | refl (json : Json) : SameShape json json
  | objects (members others : List (String × Json)) : SameShape (.object members) (.object others)
  | arrays (items others : List Json) : SameShape (.array items) (.array others)

variable {json middle other : Json}

theorem SameShape.symm (hShape : SameShape json other) : SameShape other json := by
  cases hShape with
  | refl => exact .refl _
  | objects => exact .objects _ _
  | arrays => exact .arrays _ _

theorem SameShape.trans (hFirst : SameShape json middle) (hSecond : SameShape middle other) :
    SameShape json other := by
  cases hFirst with
  | refl => exact hSecond
  | objects =>
      cases hSecond with
      | refl => exact .objects _ _
      | objects => exact .objects _ _
  | arrays =>
      cases hSecond with
      | refl => exact .arrays _ _
      | arrays => exact .arrays _ _

theorem SameShape.string?_eq (hShape : SameShape json other) : json.string? = other.string? := by
  cases hShape <;> rfl

theorem SameShape.isNull_eq (hShape : SameShape json other) : json.isNull = other.isNull := by
  cases hShape <;> rfl

variable {name : String} {members others before after : List (String × Json)}

theorem isWellFormed_of_member
    (hWell : (Json.object (before ++ (name, json) :: after)).IsWellFormed) :
    json.IsWellFormed ∧ name ∉ before.map (·.1) := by
  obtain ⟨hNames, hMembers⟩ := isWellFormed_object.mp hWell
  refine ⟨hMembers (name, json) (by simp), fun hMem => ?_⟩
  rw [List.map_append, List.map_cons] at hNames
  exact (List.nodup_append'.mp hNames).2.2 hMem List.mem_cons_self

/-- Whether an object is well-formed depends on a member by its name, and by whether its tree is
well-formed. -/
theorem isWellFormed_replace (hSame : json.IsWellFormed ↔ other.IsWellFormed) :
    (object (before ++ (name, json) :: after)).IsWellFormed ↔
      (object (before ++ (name, other) :: after)).IsWellFormed := by
  simp only [isWellFormed_object, List.map_append, List.map_cons, List.forall_mem_append,
    List.forall_mem_cons, hSame]

theorem isWellFormed_replace_item {before after : List Json}
    (hSame : json.IsWellFormed ↔ other.IsWellFormed) :
    (array (before ++ json :: after)).IsWellFormed ↔
      (array (before ++ other :: after)).IsWellFormed := by
  simp only [isWellFormed_array, List.forall_mem_append, List.forall_mem_cons, hSame]

end Json

namespace Decoder

variable {d : Decoder} {c : ResolvedClass} {members others : List (String × Json)}

/-! ## Members that are looked up -/

/-- The member of a name, unless it is null. -/
def present? (members : List (String × Json)) (name : String) : Option Json :=
  (members.lookup name).filter fun json => !json.isNull

/-- A property is read where its member is present. -/
theorem decodeMembers_cons {path : Path} {x : Resource} {p : ResolvedProperty}
    {rest : List ResolvedProperty} : d.decodeMembers c path members x (p :: rest) =
      match isShadowed c p, present? members p.name with
      | false, some json => do
        let value ← d.decodeProperty p (path.field p.name) json
        d.decodeMembers c path members (x.set p.name value) rest
      | _, _ => d.decodeMembers c path members x rest := by
  rw [decodeMembers]
  cases isShadowed c p with
  | true => rfl
  | false =>
      rw [if_neg Bool.false_ne_true]
      cases hFound : members.lookup p.name with
      | none => simp [present?, hFound]
      | some json => cases json <;> simp [present?, hFound, Json.isNull, Option.filter_some]

/-- Two objects are read alike as instances of a class: they pass the check of their members or fail
it, they have the same texts, and the properties of the class are present in both of them or in
none, and are read alike. -/
structure MembersAlike (d : Decoder) (c : ResolvedClass) (members others : List (String × Json)) :
    Prop where
  checked : (∀ member ∈ members,
      isReservedMember c member = false ∧ isUndeclaredMember c member = false) ↔
    ∀ member ∈ others,
      isReservedMember c member = false ∧ isUndeclaredMember c member = false
  texts : ∀ name, (members.lookup name).bind Json.string? = (others.lookup name).bind Json.string?
  values : ∀ p ∈ c.properties, Option.Rel
    (fun json other => ∀ path, Agree (d.decodeProperty p path json) (d.decodeProperty p path other))
    (present? members p.name) (present? others p.name)

theorem agree_decodeMembers {properties : List ResolvedProperty}
    (hValues : ∀ p ∈ properties, Option.Rel
      (fun json other => ∀ path,
        Agree (d.decodeProperty p path json) (d.decodeProperty p path other))
      (present? members p.name) (present? others p.name)) (path : Path) (x : Resource) :
    Agree (d.decodeMembers c path members x properties)
      (d.decodeMembers c path others x properties) := by
  induction properties generalizing x with
  | nil =>
      rw [decodeMembers, decodeMembers]
      exact .refl _
  | cons p rest ih =>
      have hRest := ih fun q hMem => hValues q (List.mem_cons_of_mem _ hMem)
      rw [decodeMembers_cons, decodeMembers_cons]
      cases isShadowed c p with
      | true => exact hRest x
      | false =>
          have hFirst := hValues p List.mem_cons_self
          generalize present? members p.name = here at hFirst ⊢
          generalize present? others p.name = there at hFirst ⊢
          cases hFirst with
          | none => exact hRest x
          | some hSame => exact .bind (hSame _) fun value _ => hRest _

theorem agree_decodeResource {fqn : String}
    (hAlike : ∀ c, d.registry.index.class? fqn = some c → d.MembersAlike c members others)
    (path : Path) :
    Agree (d.decodeResource fqn path members) (d.decodeResource fqn path others) := by
  rw [decodeResource, decodeResource]
  refine .bind (.refl _) fun c hFound => ?_
  have hMembers := hAlike c (Registry.resolvedClass_eq_ok.mp hFound)
  cases c.isAbstract with
  | true => exact .error _ _
  | false =>
      have hChecked : Agree (checkMembers c path members) (checkMembers c path others) := by
        rintro ⟨⟩
        rw [checkMembers_eq_ok, checkMembers_eq_ok]
        exact hMembers.checked
      have hNew : d.newInstance c members = d.newInstance c others := by
        unfold newInstance
        split
        · simp only [hMembers.texts]
        · rfl
      refine .bind hChecked fun _ _ => .bind (.of_eq hNew) fun start _ => ?_
      exact .bind (agree_decodeMembers hMembers.values path start) fun x _ => .refl _

/-! ## Objects that are read as instances -/

theorem bind_present? (name : String) :
    (present? members name).bind Json.string? = (members.lookup name).bind Json.string? := by
  rw [present?]
  cases members.lookup name with
  | none => rfl
  | some json => cases json <;> rfl

/-- Objects in which the same members are present are read alike, if they pass the check alike. -/
theorem MembersAlike.of_present
    (hChecked : (∀ member ∈ members,
        isReservedMember c member = false ∧ isUndeclaredMember c member = false) ↔
      ∀ member ∈ others,
        isReservedMember c member = false ∧ isUndeclaredMember c member = false)
    (hPresent : ∀ name, present? members name = present? others name) :
    d.MembersAlike c members others where
  checked := hChecked
  texts name := by rw [← bind_present?, ← bind_present?, hPresent]
  values p _ := by
    rw [hPresent]
    cases present? others p.name with
    | none => exact .none
    | some json => exact .some fun path => .refl _

theorem membersAlike_of_perm (hNames : (members.map (·.1)).Nodup) (hPerm : members.Perm others) :
    d.MembersAlike c members others := by
  refine .of_present (forall_congr' fun member => imp_congr hPerm.mem_iff Iff.rfl) fun name => ?_
  rw [present?, present?, Json.lookup_perm hNames hPerm]

theorem present?_null {name : String} (hNew : name ∉ members.map (·.1)) (other : String) :
    present? members other = present? ((name, .null) :: members) other := by
  rw [present?, present?, Json.lookup_cons]
  by_cases hName : other = name
  · rw [if_pos hName, hName, Json.lookup_eq_none hNew]
    rfl
  · rw [if_neg hName]

theorem membersAlike_null {name : String} (hNew : name ∉ members.map (·.1)) :
    d.MembersAlike c members ((name, .null) :: members) := by
  refine .of_present ?_ (present?_null hNew)
  simp [isReservedMember, isUndeclaredMember, Json.isNull]

/-- The member for a property may be replaced by one that is read alike. -/
theorem membersAlike_replace {before after : List (String × Json)} {json other : Json}
    {p : ResolvedProperty} (hDistinct : (c.properties.map (·.name)).Nodup) (hMem : p ∈ c.properties)
    (hNew : p.name ∉ before.map (·.1)) (hShape : Json.SameShape json other)
    (hReads : ∀ path, Agree (d.decodeProperty p path json) (d.decodeProperty p path other)) :
    d.MembersAlike c (before ++ (p.name, json) :: after) (before ++ (p.name, other) :: after) where
  checked := by
    simp only [List.forall_mem_append, List.forall_mem_cons, isReservedMember, isUndeclaredMember,
      hShape.isNull_eq]
  texts name := by
    rw [Json.lookup_middle hNew, Json.lookup_middle hNew]
    split
    · exact hShape.string?_eq
    · rfl
  values q hQ := by
    rw [present?, present?, Json.lookup_middle hNew, Json.lookup_middle hNew]
    by_cases hName : q.name = p.name
    · have hSame : q = p := List.inj_on_of_nodup_map hDistinct hQ hMem hName
      subst hSame
      rw [if_pos rfl, if_pos rfl, Option.filter_some, Option.filter_some, hShape.isNull_eq]
      split
      · exact .some hReads
      · exact .none
    · rw [if_neg hName, if_neg hName]
      cases ((before ++ after).lookup q.name).filter fun json => !json.isNull with
      | none => exact .none
      | some json => exact .some fun path => .refl _

/-! ## Trees in a role -/

/-- Two trees have the same shape, name the same class, and are read alike in a role. -/
structure ReadsAlike (d : Decoder) (role : Role) (json other : Json) : Prop where
  wellFormed : json.IsWellFormed ↔ other.IsWellFormed
  shape : Json.SameShape json other
  className : json.IsWellFormed →
    (json.get? classKey).bind Json.string? = (other.get? classKey).bind Json.string?
  reads : json.IsWellFormed → ∀ path, Agree (d.readAs role path json) (d.readAs role path other)

namespace ReadsAlike

variable {role : Role} {json middle other : Json}

theorem refl (role : Role) (json : Json) : d.ReadsAlike role json json where
  wellFormed := Iff.rfl
  shape := .refl json
  className _ := rfl
  reads _ _ := .refl _

theorem symm (hAlike : d.ReadsAlike role json other) : d.ReadsAlike role other json where
  wellFormed := hAlike.wellFormed.symm
  shape := hAlike.shape.symm
  className hWell := (hAlike.className (hAlike.wellFormed.mpr hWell)).symm
  reads hWell path := (hAlike.reads (hAlike.wellFormed.mpr hWell) path).symm

theorem trans (hFirst : d.ReadsAlike role json middle) (hSecond : d.ReadsAlike role middle other) :
    d.ReadsAlike role json other where
  wellFormed := hFirst.wellFormed.trans hSecond.wellFormed
  shape := hFirst.shape.trans hSecond.shape
  className hWell :=
    (hFirst.className hWell).trans (hSecond.className (hFirst.wellFormed.mp hWell))
  reads hWell path :=
    (hFirst.reads hWell path).trans (hSecond.reads (hFirst.wellFormed.mp hWell) path)

/-- Objects are read alike as instances if their members are, for the class that they name. -/
theorem of_members {declared : Option String}
    (hWell : (Json.object members).IsWellFormed ↔ (Json.object others).IsWellFormed)
    (hTexts : (Json.object members).IsWellFormed → (members.lookup classKey).bind Json.string? =
      (others.lookup classKey).bind Json.string?)
    (hAlike : (Json.object members).IsWellFormed → ∀ fqn c, className? declared members = some fqn →
      d.registry.index.class? fqn = some c → d.MembersAlike c members others) :
    d.ReadsAlike (.resource declared) (.object members) (.object others) where
  wellFormed := hWell
  shape := .objects members others
  className := hTexts
  reads hFormed path := by
    have hName : className? declared others = className? declared members := by
      rw [className?, className?, hTexts hFormed]
    simp only [readAs, hName]
    cases hClass : className? declared members with
    | none => exact .refl _
    | some fqn => exact .map _ (agree_decodeResource (hAlike hFormed fqn · hClass) path)

end ReadsAlike

/-! ## Items -/

section

variable {p : ResolvedProperty} {json other : Json}

theorem agree_decodeItems
    (hItem : ∀ path, Agree (d.decodeItem p path json) (d.decodeItem p path other))
    (path : Path) (i : Nat) (before after : List Json) :
    Agree (d.decodeItems p path i (before ++ json :: after))
      (d.decodeItems p path i (before ++ other :: after)) := by
  induction before generalizing i with
  | nil =>
      rw [List.nil_append, List.nil_append, decodeItems, decodeItems]
      exact .bind (hItem _) fun _ _ => .refl _
  | cons first rest ih =>
      rw [List.cons_append, List.cons_append, decodeItems, decodeItems]
      exact .bind (.refl _) fun _ _ => .bind (ih _) fun _ _ => .refl _

theorem agree_decodeEntries {item : ResolvedProperty}
    (hItem : ∀ path, Agree (d.decodeItem item path json) (d.decodeItem item path other))
    (keyType : ValueType) (path : Path) (name : String) (before after : List (String × Json)) :
    Agree (d.decodeEntries keyType item path (before ++ (name, json) :: after))
      (d.decodeEntries keyType item path (before ++ (name, other) :: after)) := by
  induction before with
  | nil =>
      rw [List.nil_append, List.nil_append, decodeEntries, decodeEntries]
      split
      · exact .refl _
      · exact .bind (.refl _) fun _ _ => .bind (hItem _) fun _ _ => .refl _
  | cons first rest ih =>
      rw [List.cons_append, List.cons_append, decodeEntries, decodeEntries]
      split
      · exact ih
      · exact .bind (.refl _) fun _ _ => .bind (.refl _) fun _ _ => .bind ih fun _ _ => .refl _

theorem agree_decodeItem_of_map {item : ResolvedProperty} {name : String}
    {before after : List (String × Json)} (hMaps : d.registry.HoldsMaps p item)
    (hItem : ∀ path, Agree (d.decodeItem item path json) (d.decodeItem item path other))
    (path : Path) : Agree (d.decodeItem p path (.object (before ++ (name, json) :: after)))
      (d.decodeItem p path (.object (before ++ (name, other) :: after))) := by
  obtain ⟨target, default, declaration, key, value, m, hType, hDeclared, hBody, hMap, rfl⟩ := hMaps
  have hResolved := Registry.resolvedMap_eq_ok.mpr hMap
  rw [decodeItem.eq_def, decodeItem.eq_def, hType]
  simp only [hDeclared, bind, Except.bind, hBody]
  rw [decodeMap, decodeMap, hResolved]
  simp only [bind, Except.bind]
  cases m.key.type.value? with
  | none => exact .refl _
  | some keyType => exact .map _ (agree_decodeEntries hItem keyType path name before after)

/-- Where instances of a class are read or pointed to, trees are read alike that are read alike as
instances. -/
theorem agree_decodeItem_of_class {target : String} (hRefers : d.registry.RefersToClass p target)
    (hAlike : d.ReadsAlike (.resource (some target)) json other) (hWell : json.IsWellFormed)
    (path : Path) : Agree (d.decodeItem p path json) (d.decodeItem p path other) := by
  have hNested {members others : List (String × Json)} (hJson : json = .object members)
      (hOther : other = .object others) :
      Agree (Value.concept <$> d.decodeNested target path members)
        (Value.concept <$> d.decodeNested target path others) := by
    subst hJson hOther
    have hName : (members.lookup classKey).bind Json.string? =
        (others.lookup classKey).bind Json.string? := hAlike.className hWell
    have hReads := hAlike.reads hWell path
    simp only [readAs, className?_some, hName] at hReads
    rw [decodeNested, decodeNested]
    simp only [hName]
    split
    · exact hReads
    · exact .refl _
  rcases hRefers with hType | ⟨default, declaration, body, hType, hDeclared, hBody⟩
  · rw [decodeItem.eq_def, decodeItem.eq_def, hType]
    cases hAlike.shape with
    | refl => exact .refl _
    | arrays => exact .refl _
    | objects members others =>
        simp only
        split
        · exact hNested rfl rfl
        · exact .refl _
  · rw [decodeItem.eq_def, decodeItem.eq_def, hType]
    simp only [hDeclared, bind, Except.bind, hBody]
    cases hAlike.shape with
    | refl => exact .refl _
    | arrays => exact .refl _
    | objects members others => exact hNested rfl rfl

end

/-! ## All roles -/

/-- The properties of the indexed classes have different names. -/
def HasDistinctProperties (index : TypeIndex) : Prop :=
  ∀ c ∈ index.classes, (c.properties.map (·.name)).Nodup

/-- Trees that differ only in what an instance does not look at are read alike. -/
theorem readsAlike_of_alike (hDistinct : HasDistinctProperties d.registry.index) {role : Role}
    {json other : Json} (hAlike : d.registry.Alike role json other) :
    d.ReadsAlike role json other := by
  induction hAlike with
  | refl role json => exact .refl role json
  | symm _ ih => exact ih.symm
  | trans _ _ ihFirst ihSecond => exact ihFirst.trans ihSecond
  | @permuted declared members others hPerm =>
      have hNames (hWell : (Json.object members).IsWellFormed) :=
        (Json.isWellFormed_object.mp hWell).1
      refine .of_members ?_ (fun hWell => ?_) fun hWell _ _ _ _ => ?_
      · rw [Json.isWellFormed_object, Json.isWellFormed_object, (hPerm.map _).nodup_iff]
        exact and_congr_right fun _ =>
          forall_congr' fun member => imp_congr hPerm.mem_iff Iff.rfl
      · rw [Json.lookup_perm (hNames hWell) hPerm]
      · exact membersAlike_of_perm (hNames hWell) hPerm
  | @null declared members name hNew =>
      refine .of_members ?_ (fun _ => ?_) fun _ _ _ _ _ => membersAlike_null hNew
      · simp only [Json.isWellFormed_object, List.map_cons, List.nodup_cons, List.forall_mem_cons,
          hNew, not_false_eq_true, true_and, Json.IsWellFormed.null]
      · rw [← bind_present?, present?_null hNew, bind_present?]
  | @member declared before after json other fqn c p hName hClass hMem _ ih =>
      refine .of_members (Json.isWellFormed_replace ih.wellFormed) (fun hWell => ?_)
        fun hWell named found hNamed hFound => ?_
      · obtain ⟨_, hNew⟩ := Json.isWellFormed_of_member hWell
        rw [Json.lookup_middle hNew, Json.lookup_middle hNew]
        split
        · exact ih.shape.string?_eq
        · rfl
      · obtain ⟨hJson, hNew⟩ := Json.isWellFormed_of_member hWell
        cases hName.symm.trans hNamed
        cases hClass.symm.trans hFound
        have hNames := hDistinct c (TypeIndex.mem_of_class? hClass).1
        exact membersAlike_replace hNames hMem hNew ih.shape (ih.reads hJson)
  | @element p before after json other hArray _ ih =>
      refine ⟨Json.isWellFormed_replace_item ih.wellFormed, .arrays _ _, fun _ => rfl,
        fun hWell path => ?_⟩
      have hJson : json.IsWellFormed := Json.isWellFormed_array.mp hWell json (by simp)
      simp only [readAs]
      rw [decodeProperty.eq_def, decodeProperty.eq_def, if_pos hArray, if_pos hArray]
      exact .map _ (agree_decodeItems (ih.reads hJson) path 0 before after)
  | @single p json other hSingle _ ih =>
      refine ⟨ih.wellFormed, ih.shape, ih.className, fun hWell path => ?_⟩
      have hItem := ih.reads hWell path
      simp only [readAs] at hItem ⊢
      rw [decodeProperty.eq_def, decodeProperty.eq_def]
      simpa [hSingle] using hItem
  | @nested p target json other hRefers _ ih =>
      refine ⟨ih.wellFormed, ih.shape, ih.className, fun hWell path => ?_⟩
      exact agree_decodeItem_of_class hRefers ih hWell path
  | @entry p item before after name json other hMaps _ ih =>
      refine ⟨Json.isWellFormed_replace ih.wellFormed, .objects _ _, fun hWell => ?_,
        fun hWell path => ?_⟩
      · obtain ⟨_, hNew⟩ := Json.isWellFormed_of_member hWell
        show ((before ++ (name, json) :: after).lookup classKey).bind Json.string? =
          ((before ++ (name, other) :: after).lookup classKey).bind Json.string?
        rw [Json.lookup_middle hNew, Json.lookup_middle hNew]
        split
        · exact ih.shape.string?_eq
        · rfl
      · obtain ⟨hJson, _⟩ := Json.isWellFormed_of_member hWell
        exact agree_decodeItem_of_map hMaps (ih.reads hJson) path

/-- A whole tree is read as an instance of the class that it names. -/
theorem decode_eq_ok {json : Json} {x : Resource} :
    d.decode json = .ok x ↔ d.readAs (.resource none) .root json = .ok (.concept x) := by
  cases json with
  | object members =>
      simp only [decode, readAs, className?, Option.or_none]
      cases (members.lookup classKey).bind Json.string? with
      | none => simp
      | some fqn =>
          rw [Outcome.map_eq_ok]
          simp
  | _ => simp [decode, readAs]

/-- After any run of changes, at any time and with any options, of two trees that differ only in the
order of the members of objects that are read as instances, and in members of these that are null,
at any depth, the one is read exactly if the other one is, and as the same instance. -/
theorem decode_of_alike {changes : List Change} {now : DateTime} {options : DecodeOptions}
    {json other : Json} (hWell : json.IsWellFormed)
    (hAlike : (Session.initial.run changes).registry.Alike (.resource none) json other)
    (x : Resource) :
    (Decoder.mk (Session.initial.run changes).registry now options).decode json = .ok x ↔
      (Decoder.mk (Session.initial.run changes).registry now options).decode other = .ok x := by
  have hSound := Session.sound_run Session.sound_initial changes
  have hDistinct : HasDistinctProperties (Session.initial.run changes).registry.index :=
    fun c hMem => (TypeIndex.resolves_of_mem hSound.files hSound.index hMem).nodup_properties
      hSound.files
  rw [decode_eq_ok, decode_eq_ok]
  exact (readsAlike_of_alike (d := ⟨_, now, options⟩) hDistinct hAlike).reads hWell .root _

end Decoder

/-! ## Yards that are read -/

namespace Depot

open Decoder

/-- The members of the object of the car. -/
def carMembers : List (String × Json) :=
  [(classKey, .string "depot@1.0.0.Car"), ("vin", .string "V1")]

/-- The tree of a yard without arrivals. -/
def quietTree : Json :=
  .object [(classKey, .string "depot@1.0.0.Yard"), ("book", .object []),
    ("spare", .object carMembers)]

/-- The tree with its members, and those of the car, in another order, and with a note on the car
that is null. -/
def shuffledTree : Json :=
  .object [("spare", .object [("note", .null), ("vin", .string "V1"),
      (classKey, .string "depot@1.0.0.Car")]), ("book", .object []),
    (classKey, .string "depot@1.0.0.Yard")]

variable {now : DateTime} {path : Path}

theorem decodeProperty_spare :
    (standard registry now).decodeProperty spare path (.object carMembers) =
      .ok (.concept car) := by
  have hVin : (standard registry now).decodeProperty vin (path.field "vin") (.string "V1") =
      .ok (.string "V1") := by
    rw [decodeProperty.eq_def, if_neg (by decide), decodeItem_of_valueType rfl]
    rfl
  have hMembers : (standard registry now).decodeMembers carClass path carMembers car [vin] =
      .ok car := by
    rw [decodeMembers_cons]
    refine Outcome.bind_eq_ok.mpr ⟨_, hVin, ?_⟩
    rw [decodeMembers]
    rfl
  rw [decodeProperty.eq_def, if_neg (by decide), decodeItem_of_classBody rfl rfl rfl]
  refine Outcome.map_eq_ok.mpr ⟨car, ?_, rfl⟩
  rw [decodeNested]
  exact decodeResource_eq_ok.mpr ⟨carClass, car, rfl, rfl, rfl, rfl, hMembers, rfl⟩

/-- The tree is read as a yard with the car and without arrivals. -/
theorem decode_quietTree : (standard registry now).decode quietTree = .ok (yardOf []) := by
  have hBook : (standard registry now).decodeProperty book (Path.root.field "book") (.object []) =
      .ok (.map []) := by
    rw [decodeProperty.eq_def, if_neg (by decide), decodeItem_of_mapBody rfl rfl rfl]
    have hEntries : (standard registry now).decodeEntries (.dateTime none) bookMap.value
        (Path.root.field "book") [] = .ok [] := by rw [decodeEntries]
    exact decodeMap_of_entries rfl rfl hEntries
  have hMembers : (standard registry now).decodeMembers yardClass .root
      [(classKey, .string "depot@1.0.0.Yard"), ("book", .object []), ("spare", .object carMembers)]
      (.empty space "Yard" none) [book, spare] = .ok (yardOf []) := by
    rw [decodeMembers_cons]
    refine Outcome.bind_eq_ok.mpr ⟨_, hBook, ?_⟩
    rw [decodeMembers_cons]
    refine Outcome.bind_eq_ok.mpr ⟨_, decodeProperty_spare, ?_⟩
    rw [decodeMembers]
    rfl
  exact decodeResource_eq_ok.mpr ⟨yardClass, _, rfl, rfl, rfl, rfl, hMembers, rfl⟩

theorem isWellFormed_quietTree : quietTree.IsWellFormed := by
  have hCar : (Json.object carMembers).IsWellFormed := by
    refine .object (by decide) fun member hMem => ?_
    rcases List.mem_cons.mp hMem with rfl | hMem
    · exact .string _
    · exact List.mem_singleton.mp hMem ▸ .string _
  refine .object (by decide) ?_
  simpa using ⟨.string _, .object List.nodup_nil nofun, hCar⟩

/-- The two trees differ only in what a reader of yards does not look at. -/
theorem alike_shuffledTree : registry.Alike (.resource none) quietTree shuffledTree := by
  have hCar : registry.Alike (.property spare) (.object carMembers)
      (.object
        [("note", .null), ("vin", .string "V1"), (classKey, .string "depot@1.0.0.Car")]) := by
    have hRefers : registry.RefersToClass spare carClass.fqn := .inr ⟨_, _, _, rfl, rfl, rfl⟩
    refine .single rfl (.nested hRefers (.trans (.permuted (List.Perm.swap _ _ _)) ?_))
    exact .null (by decide)
  let front : List (String × Json) :=
    [(classKey, .string "depot@1.0.0.Yard"), ("book", .object [])]
  have hSpare : registry.Alike (.resource none)
      (.object (front ++ (spare.name, .object carMembers) :: []))
      (.object (front ++ (spare.name, .object [("note", .null), ("vin", .string "V1"),
        (classKey, .string "depot@1.0.0.Car")]) :: [])) :=
    .member (c := yardClass) rfl rfl (by simp [yardClass, ResolvedClass.concept]) hCar
  refine hSpare.trans (.permuted ?_)
  exact (List.reverse_perm _).symm

end Depot

namespace Decoder

open Depot

/-- A yard whose members are shuffled is read as the yard. -/
theorem decode_shuffledTree : quietTree.IsWellFormed ∧
    Depot.registry.Alike (.resource none) quietTree shuffledTree ∧
    (standard Depot.registry ⟨0, 0, 0⟩).decode quietTree = .ok (yardOf []) ∧
    (standard Depot.registry ⟨0, 0, 0⟩).decode shuffledTree = .ok (yardOf []) := by
  have hAlike := alike_shuffledTree
  have hRead : (standard Depot.registry ⟨0, 0, 0⟩).decode quietTree = .ok (yardOf []) :=
    decode_quietTree
  refine ⟨isWellFormed_quietTree, hAlike, hRead, ?_⟩
  rw [← run_model] at hAlike hRead ⊢
  exact (decode_of_alike isWellFormed_quietTree hAlike (yardOf [])).mp hRead

end Decoder

end DomainModels
