import DomainModels.Json.Basic
import DomainModels.Table
import Mathlib.Data.List.Nodup

/-!
JSON trees as texts have them, and the members of their objects.
-/

namespace DomainModels.Json

/-- The names of an object's members differ from each other, and numbers are finite. -/
inductive IsWellFormed : Json → Prop where
  | null : IsWellFormed .null
  | bool (b : Bool) : IsWellFormed (.bool b)
  | int (i : Int) : IsWellFormed (.number (.int i))
  | float {x : Float} (hFinite : x.isFinite = true) : IsWellFormed (.number (.float x))
  | string (text : String) : IsWellFormed (.string text)
  | array {items : List Json} (hItems : ∀ item ∈ items, IsWellFormed item) :
      IsWellFormed (.array items)
  | object {members : List (String × Json)} (hNames : (members.map (·.1)).Nodup)
      (hMembers : ∀ member ∈ members, IsWellFormed member.2) : IsWellFormed (.object members)

theorem isWellFormed_object {members : List (String × Json)} :
    (object members).IsWellFormed ↔
      (members.map (·.1)).Nodup ∧ ∀ member ∈ members, member.2.IsWellFormed := by
  constructor
  · rintro ⟨⟩
    exact ⟨‹_›, ‹_›⟩
  · rintro ⟨hNames, hMembers⟩
    exact .object hNames hMembers

theorem isWellFormed_array {items : List Json} :
    (array items).IsWellFormed ↔ ∀ item ∈ items, item.IsWellFormed := by
  constructor
  · rintro ⟨⟩
    assumption
  · exact .array

/-- The parts of a tree are smaller than the tree. -/
theorem sizeOf_member {members : List (String × Json)} {member : String × Json}
    (hMem : member ∈ members) : sizeOf member.2 < sizeOf (Json.object members) := by
  have hSmaller := List.sizeOf_lt_of_mem hMem
  obtain ⟨name, json⟩ := member
  simp only [Prod.mk.sizeOf_spec, object.sizeOf_spec] at hSmaller ⊢
  omega

theorem sizeOf_item {items : List Json} {item : Json} (hMem : item ∈ items) :
    sizeOf item < sizeOf (Json.array items) := by
  have hSmaller := List.sizeOf_lt_of_mem hMem
  simp only [array.sizeOf_spec]
  omega

/-- What holds of a tree whenever it holds of the items and the members in it, holds of every
tree. -/
theorem inductionOn_parts {motive : Json → Prop}
    (hParts : ∀ json, (∀ items, json = .array items → ∀ item ∈ items, motive item) →
      (∀ members, json = .object members → ∀ member ∈ members, motive member.2) → motive json)
    (json : Json) : motive json := by
  refine hParts json ?_ ?_
  · intro items hArray item hMem
    have hSmaller : sizeOf item < sizeOf json := hArray ▸ sizeOf_item hMem
    exact inductionOn_parts hParts item
  · intro members hObject member hMem
    have hSmaller : sizeOf member.2 < sizeOf json := hObject ▸ sizeOf_member hMem
    exact inductionOn_parts hParts member.2
termination_by sizeOf json
decreasing_by all_goals exact hSmaller

variable {name : String} {json : Json} {members : List (String × Json)}

/-- What is looked up is a member. -/
theorem mem_of_lookup (hFound : members.lookup name = some json) : (name, json) ∈ members :=
  Table.mem_of_find? hFound

theorem lookup_eq_none (hAbsent : name ∉ members.map (·.1)) : members.lookup name = none := by
  cases hFound : members.lookup name with
  | none => rfl
  | some json => exact absurd (List.mem_map.mpr ⟨_, mem_of_lookup hFound, rfl⟩) hAbsent

/-- The first member of an object decides, if it has the name. -/
theorem lookup_cons (first : String) (value : Json) (rest : List (String × Json)) :
    ((first, value) :: rest).lookup name = if name = first then some value else rest.lookup name :=
  Table.find?_cons first name value rest

/-- Where the names are distinct, each member is found for its name. -/
theorem lookup_eq_some_iff (hNames : (members.map (·.1)).Nodup) :
    members.lookup name = some json ↔ (name, json) ∈ members := by
  refine ⟨mem_of_lookup, fun hMem => ?_⟩
  induction members with
  | nil => cases hMem
  | cons member rest ih =>
      obtain ⟨first, value⟩ := member
      rw [List.map_cons, List.nodup_cons] at hNames
      rw [lookup_cons]
      rcases List.mem_cons.mp hMem with hSame | hMem
      · cases hSame
        exact if_pos rfl
      · have hOther : name ≠ first := fun hSame =>
          hNames.1 (List.mem_map.mpr ⟨_, hMem, hSame⟩)
        rw [if_neg hOther, ih hNames.2 hMem]

/-- Where the names are distinct, the order of the members does not matter for a look-up. -/
theorem lookup_perm {others : List (String × Json)} (hNames : (members.map (·.1)).Nodup)
    (hPerm : members.Perm others) (name : String) : members.lookup name = others.lookup name := by
  refine Option.ext fun json => ?_
  rw [lookup_eq_some_iff hNames, lookup_eq_some_iff ((hPerm.map _).nodup_iff.mp hNames)]
  exact hPerm.mem_iff

/-- A member is found for its name, and the other ones are found without it. -/
theorem lookup_middle {before after : List (String × Json)} (hNew : name ∉ before.map (·.1))
    (found : String) :
    (before ++ (name, json) :: after).lookup found =
      if found = name then some json else (before ++ after).lookup found := by
  rw [List.lookup_append, List.lookup_append, lookup_cons]
  by_cases hFound : found = name
  · rw [if_pos hFound, if_pos hFound, lookup_eq_none (hFound ▸ hNew), Option.none_or]
  · rw [if_neg hFound, if_neg hFound]

/-- A member that may be put in front of others is the one that is found for its name. -/
theorem lookup_toList_append_self (hNew : name ∉ members.map (·.1)) (first : Option Json) :
    ((first.map fun json => (name, json)).toList ++ members).lookup name = first := by
  cases first with
  | none => exact lookup_eq_none hNew
  | some json => exact (lookup_cons name json members).trans (if_pos rfl)

theorem lookup_toList_append_of_ne {other : String} (hOther : other ≠ name) (first : Option Json) :
    ((first.map fun json => (name, json)).toList ++ members).lookup other =
      members.lookup other := by
  cases first with
  | none => rfl
  | some json => exact (lookup_cons name json members).trans (if_neg hOther)

/-- A new member goes to the end. -/
theorem insertMember_of_not_mem (hNew : name ∉ members.map (·.1)) :
    insertMember name json members = members ++ [(name, json)] := by
  induction members with
  | nil => rfl
  | cons member rest ih =>
      rw [List.map_cons, List.mem_cons, not_or] at hNew
      rw [insertMember, if_neg (Ne.symm hNew.1), ih hNew.2, List.cons_append]

/-- The inserted member is found for its name, and nothing else has changed. -/
theorem lookup_insertMember (other : String) :
    (insertMember name json members).lookup other =
      if other = name then some json else members.lookup other := by
  induction members with
  | nil => exact lookup_cons name json []
  | cons member rest ih =>
      obtain ⟨first, value⟩ := member
      rw [insertMember]
      by_cases hFirst : first = name
      · rw [if_pos hFirst, lookup_cons, lookup_cons, hFirst]
        split <;> rfl
      · rw [if_neg hFirst, lookup_cons, lookup_cons, ih]
        by_cases hOther : other = first
        · rw [if_pos hOther, if_neg (hOther ▸ hFirst), if_pos hOther]
        · rw [if_neg hOther, if_neg hOther]

/-- A member whose name is there already takes the place of the former one. -/
theorem exists_insertMember (hNames : (members.map (·.1)).Nodup) (hMem : name ∈ members.map (·.1))
    (json : Json) :
    ∃ before value after, members = before ++ (name, value) :: after ∧
      insertMember name json members = before ++ (name, json) :: after ∧
      name ∉ before.map (·.1) ∧ name ∉ after.map (·.1) := by
  induction members with
  | nil => cases hMem
  | cons member rest ih =>
      obtain ⟨first, value⟩ := member
      rw [List.map_cons, List.nodup_cons] at hNames
      rw [insertMember]
      by_cases hFirst : first = name
      · subst hFirst
        exact ⟨[], value, rest, rfl, if_pos rfl, List.not_mem_nil, hNames.1⟩
      · rw [if_neg hFirst]
        obtain ⟨before, old, after, rfl, hInserted, hBefore, hAfter⟩ :=
          ih hNames.2 ((List.mem_cons.mp hMem).resolve_left (Ne.symm hFirst))
        refine ⟨(first, value) :: before, old, after, rfl, by rw [hInserted, List.cons_append], ?_,
          hAfter⟩
        rw [List.map_cons, List.mem_cons, not_or]
        exact ⟨Ne.symm hFirst, hBefore⟩

/-- The names stay distinct. -/
theorem nodup_insertMember (hNames : (members.map (·.1)).Nodup) :
    ((insertMember name json members).map (·.1)).Nodup := by
  by_cases hMem : name ∈ members.map (·.1)
  · obtain ⟨before, value, after, rfl, hInserted, _⟩ := exists_insertMember hNames hMem json
    rw [hInserted]
    simpa using hNames
  · rw [insertMember_of_not_mem hMem, List.map_append]
    exact hNames.append (List.nodup_singleton name) (by simpa using hMem)

theorem mem_insertMember {member : String × Json} (hMem : member ∈ insertMember name json members) :
    member = (name, json) ∨ member ∈ members := by
  induction members with
  | nil => exact .inl (List.mem_singleton.mp hMem)
  | cons first rest ih =>
      rw [insertMember] at hMem
      split at hMem
      · rcases List.mem_cons.mp hMem with hSame | hMem
        · exact .inl hSame
        · exact .inr (List.mem_cons_of_mem _ hMem)
      · rcases List.mem_cons.mp hMem with rfl | hMem
        · exact .inr List.mem_cons_self
        · exact (ih hMem).imp_right (List.mem_cons_of_mem _)

/-- Where the names are distinct, the other members have other names. -/
theorem ne_of_mem_insertMember (hNames : (members.map (·.1)).Nodup) {member : String × Json}
    (hMem : member ∈ insertMember name json members) :
    member = (name, json) ∨ member ∈ members ∧ name ≠ member.1 := by
  by_cases hName : name ∈ members.map (·.1)
  · obtain ⟨before, value, after, rfl, hInserted, hBefore, hAfter⟩ :=
      exists_insertMember hNames hName json
    rw [hInserted] at hMem
    rcases List.mem_append.mp hMem with hMem | hMem
    · refine .inr ⟨List.mem_append_left _ hMem, fun hSame => hBefore ?_⟩
      exact hSame ▸ List.mem_map_of_mem hMem
    · rcases List.mem_cons.mp hMem with hSame | hMem
      · exact .inl hSame
      · refine .inr ⟨List.mem_append_right _ (List.mem_cons_of_mem _ hMem), fun hSame => hAfter ?_⟩
        exact hSame ▸ List.mem_map_of_mem hMem
  · rcases mem_insertMember hMem with hSame | hMem
    · exact .inl hSame
    · exact .inr ⟨hMem, fun hSame => hName (hSame ▸ List.mem_map_of_mem hMem)⟩

/-! ## Several members -/

/-- Writes members into an object, one after the other. -/
def insertMembers (inserted members : List (String × Json)) : List (String × Json) :=
  inserted.foldl (fun members member => insertMember member.1 member.2 members) members

variable {inserted : List (String × Json)}

/-- Of the inserted members of one name the last one is found. -/
theorem lookup_insertMembers : (insertMembers inserted members).lookup name =
    (inserted.reverse.lookup name).or (members.lookup name) := by
  induction inserted generalizing members with
  | nil => rfl
  | cons member rest ih =>
      obtain ⟨first, value⟩ := member
      rw [insertMembers, List.foldl_cons, ← insertMembers, ih, lookup_insertMember,
        List.reverse_cons, List.lookup_append, Option.or_assoc, lookup_cons]
      split <;> rfl

theorem mem_insertMembers {member : String × Json}
    (hMem : member ∈ insertMembers inserted members) :
    member ∈ inserted ∨ member ∈ members := by
  induction inserted generalizing members with
  | nil => exact .inr hMem
  | cons first rest ih =>
      rcases ih hMem with hMem | hMem
      · exact .inl (List.mem_cons_of_mem _ hMem)
      · rcases mem_insertMember hMem with rfl | hMem
        · exact .inl List.mem_cons_self
        · exact .inr hMem

theorem nodup_insertMembers (hNames : (members.map (·.1)).Nodup) :
    ((insertMembers inserted members).map (·.1)).Nodup := by
  induction inserted generalizing members with
  | nil => exact hNames
  | cons first rest ih => exact ih (nodup_insertMember hNames)

/-- What a name is looked up among members for is found by it among the items that they were made
of, if each item has the name of its member. -/
theorem exists_find?_of_lookup {α : Type} {R : α → String × Json → Prop}
    {nameOf : α → Option String} (hName : ∀ a member, R a member → nameOf a = some member.1)
    {items : List α}
    (hMade : List.Forall₂ R items members) (hFound : members.lookup name = some json) :
    ∃ a, items.find? (fun a => nameOf a = some name) = some a ∧ R a (name, json) := by
  induction hMade with
  | nil => cases hFound
  | @cons a member _ _ hFirst _ ih =>
      obtain ⟨first, value⟩ := member
      rw [lookup_cons] at hFound
      rw [List.find?_cons, hName a _ hFirst]
      by_cases hSame : name = first
      · rw [if_pos hSame] at hFound
        cases hFound
        exact ⟨a, by simp [hSame], hSame ▸ hFirst⟩
      · rw [if_neg hSame] at hFound
        simp only [Option.some.injEq, Ne.symm hSame, decide_false]
        exact ih hFound

/-- Members with names of their own are appended. -/
theorem insertMembers_of_nodup
    (hNames : (members.map (·.1) ++ inserted.map (·.1)).Nodup) :
    insertMembers inserted members = members ++ inserted := by
  induction inserted generalizing members with
  | nil => exact (List.append_nil members).symm
  | cons first rest ih =>
      have hNew : first.1 ∉ members.map (·.1) := fun hMem =>
        List.disjoint_of_nodup_append hNames hMem List.mem_cons_self
      rw [insertMembers, List.foldl_cons, ← insertMembers, insertMember_of_not_mem hNew,
        ih (by simpa using hNames), List.append_assoc, List.singleton_append]

end DomainModels.Json
