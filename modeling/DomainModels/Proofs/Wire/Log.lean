import DomainModels.Proofs.Uri.Pointer
import DomainModels.Proofs.Wire.Places

/-!
Logs of the instances that are written.

An instance is logged when it is written, before those inside of it. It is written as an object when
its fully-qualified identifier has not been seen yet, and as its URI from then on.
-/

namespace DomainModels

/-! ## Identifiers and URIs -/

namespace Relationship

variable {a b : Relationship}

/-- Two pointers to types whose names have no `#` have the same fully-qualified identifier exactly
if they have the same URI. -/
theorem fullyQualifiedId_eq_iff (hA : '#' ∉ a.fqn.toList) (hB : '#' ∉ b.fqn.toList) :
    a.fullyQualifiedId = b.fullyQualifiedId ↔ a.toUri = b.toUri := by
  have hApart {x y : List Char} :
      a.fqn.toList ++ '#' :: x = b.fqn.toList ++ '#' :: y ↔ a.fqn = b.fqn ∧ x = y := by
    constructor
    · intro hSame
      have hCut := congrArg (Text.cutFirst '#') hSame
      rw [Text.cutFirst_append hA, Text.cutFirst_append hB] at hCut
      obtain ⟨hFqn, hRest⟩ := Prod.mk.inj (Option.some.inj hCut)
      exact ⟨String.toList_injective hFqn, hRest⟩
    · rintro ⟨hFqn, rfl⟩
      rw [hFqn]
  have hId : a.fullyQualifiedId = b.fullyQualifiedId ↔
      a.fqn = b.fqn ∧ a.id.toList = b.id.toList := by
    rw [← hApart, ← String.toList_inj]
    simp [fullyQualifiedId]
  have hUri : a.toUri = b.toUri ↔
      a.fqn = b.fqn ∧ Percent.encode a.id.toList = Percent.encode b.id.toList := by
    rw [← hApart, ← String.toList_inj]
    simp [toUri]
  have hEncoded : Percent.encode a.id.toList = Percent.encode b.id.toList ↔
      a.id.toList = b.id.toList :=
    ⟨fun hSame => by rw [← Percent.decode_encode a.id.toList, hSame, Percent.decode_encode],
      congrArg Percent.encode⟩
  rw [hId, hUri, hEncoded]

end Relationship

namespace Resource

variable {x y : Resource} {pointer : Relationship}

/-- The pointer to an instance names its class. -/
theorem fqn_of_pointer? (hPointer : x.pointer? = some pointer) : pointer.fqn = x.fqn := by
  obtain ⟨id, _, rfl⟩ := Option.map_eq_some_iff.mp hPointer
  rfl

theorem exists_pointer_of_fullyQualifiedId? {id : String}
    (hId : x.fullyQualifiedId? = some id) :
    ∃ pointer, x.pointer? = some pointer ∧ pointer.fullyQualifiedId = id :=
  Option.map_eq_some_iff.mp hId

theorem exists_pointer_of_uri? {uri : String} (hUri : x.uri? = some uri) :
    ∃ pointer, x.pointer? = some pointer ∧ pointer.toUri = uri :=
  Option.map_eq_some_iff.mp hUri

/-- Two instances of classes whose names have no `#` have the same URI if they have the same
fully-qualified identifier, and the other way round. -/
theorem uri?_of_fullyQualifiedId? (hX : '#' ∉ x.fqn.toList) (hY : '#' ∉ y.fqn.toList) {id : String}
    (hXId : x.fullyQualifiedId? = some id) (hYId : y.fullyQualifiedId? = some id) :
    ∃ uri, x.uri? = some uri ∧ y.uri? = some uri := by
  obtain ⟨a, hA, rfl⟩ := exists_pointer_of_fullyQualifiedId? hXId
  obtain ⟨b, hB, hSame⟩ := exists_pointer_of_fullyQualifiedId? hYId
  rw [← fqn_of_pointer? hA] at hX
  rw [← fqn_of_pointer? hB] at hY
  rw [Relationship.fullyQualifiedId_eq_iff hY hX] at hSame
  exact ⟨a.toUri, congrArg (Option.map _) hA,
    (congrArg (Option.map _) hB).trans (congrArg some hSame)⟩

theorem fullyQualifiedId?_of_uri? (hX : '#' ∉ x.fqn.toList) (hY : '#' ∉ y.fqn.toList) {uri : String}
    (hXUri : x.uri? = some uri) (hYUri : y.uri? = some uri) :
    ∃ id, x.fullyQualifiedId? = some id ∧ y.fullyQualifiedId? = some id := by
  obtain ⟨a, hA, rfl⟩ := exists_pointer_of_uri? hXUri
  obtain ⟨b, hB, hSame⟩ := exists_pointer_of_uri? hYUri
  rw [← fqn_of_pointer? hA] at hX
  rw [← fqn_of_pointer? hB] at hY
  rw [← Relationship.fullyQualifiedId_eq_iff hY hX] at hSame
  exact ⟨a.fullyQualifiedId, congrArg (Option.map _) hA,
    (congrArg (Option.map _) hB).trans (congrArg some hSame)⟩

end Resource

namespace Encoder

/-! ## Logs -/

/-- The log of instances that are written one after the other, from the fully-qualified identifiers
that have been seen before to those that have been seen after it. -/
inductive IsLog (e : Encoder) : List String → List (Resource × Json) → List String → Prop where
  | nil (seen : List String) : IsLog e seen [] seen
  | object {seen later : List String} {x : Resource} {c : ResolvedClass}
      {members : List (String × Json)} {rest : List (Resource × Json)}
      (hClass : e.registry.index.class? x.fqn = some c)
      (hNew : ∀ id, x.fullyQualifiedId? = some id → id ∉ seen)
      (hId : members.lookup idKey = x.uri?.map Json.string)
      (hRest : IsLog e (x.fullyQualifiedId?.toList ++ seen) rest later) :
      IsLog e seen ((x, .object members) :: rest) later
  | again {seen later : List String} {x : Resource} {pointer : Relationship}
      {rest : List (Resource × Json)} (hPointer : x.pointer? = some pointer)
      (hSeen : pointer.fullyQualifiedId ∈ seen) (hRest : IsLog e seen rest later) :
      IsLog e seen ((x, .string pointer.toUri) :: rest) later

namespace IsLog

variable {e : Encoder} {seen middle later : List String} {log first second : List (Resource × Json)}

theorem append (hFirst : e.IsLog seen first middle) (hSecond : e.IsLog middle second later) :
    e.IsLog seen (first ++ second) later := by
  induction hFirst with
  | nil => exact hSecond
  | object hClass hNew hId _ ih => exact .object hClass hNew hId (ih hSecond)
  | again hPointer hSeen _ ih => exact .again hPointer hSeen (ih hSecond)

/-- A part of a log that comes first is a log. -/
theorem split (hLog : e.IsLog seen (first ++ second) later) :
    ∃ middle, e.IsLog seen first middle ∧ e.IsLog middle second later := by
  induction first generalizing seen with
  | nil => exact ⟨seen, .nil seen, hLog⟩
  | cons entry rest ih =>
      cases hLog with
      | object hClass hNew hId hRest =>
          obtain ⟨middle, hFirst, hSecond⟩ := ih hRest
          exact ⟨middle, .object hClass hNew hId hFirst, hSecond⟩
      | again hPointer hSeen hRest =>
          obtain ⟨middle, hFirst, hSecond⟩ := ih hRest
          exact ⟨middle, .again hPointer hSeen hFirst, hSecond⟩

/-- What has been seen at the end was seen before, or is the fully-qualified identifier of an
instance that was written as an object. -/
theorem mem_later (hLog : e.IsLog seen log later) {id : String} (hMem : id ∈ later) :
    id ∈ seen ∨ ∃ x members, (x, .object members) ∈ log ∧ x.fullyQualifiedId? = some id := by
  induction hLog with
  | nil => exact .inl hMem
  | @object seen later x c members rest _ _ _ _ ih =>
      rcases ih hMem with hSeen | ⟨y, inner, hIn, hId⟩
      · rcases List.mem_append.mp hSeen with hFirst | hSeen
        · exact .inr ⟨x, members, List.mem_cons_self, Option.mem_toList.mp hFirst⟩
        · exact .inl hSeen
      · exact .inr ⟨y, inner, List.mem_cons_of_mem _ hIn, hId⟩
  | again _ _ _ ih =>
      rcases ih hMem with hSeen | ⟨y, inner, hIn, hId⟩
      · exact .inl hSeen
      · exact .inr ⟨y, inner, List.mem_cons_of_mem _ hIn, hId⟩

/-- The object of an instance is one of its class and carries its URI, and nothing with its
fully-qualified identifier has been seen before the log. -/
theorem of_object (hLog : e.IsLog seen log later) {x : Resource} {members : List (String × Json)}
    (hMem : (x, .object members) ∈ log) :
    (∃ c, e.registry.index.class? x.fqn = some c) ∧
      members.lookup idKey = x.uri?.map Json.string ∧
      ∀ id, x.fullyQualifiedId? = some id → id ∉ seen := by
  induction hLog with
  | nil => cases hMem
  | object hClass hNew hId _ ih =>
      rcases List.mem_cons.mp hMem with hSame | hMem
      · cases hSame
        exact ⟨⟨_, hClass⟩, hId, hNew⟩
      · obtain ⟨hClass, hId, hNew⟩ := ih hMem
        exact ⟨hClass, hId, fun id hOwn hSeen => hNew id hOwn (List.mem_append_right _ hSeen)⟩
  | again _ _ _ ih =>
      rcases List.mem_cons.mp hMem with hSame | hMem
      · cases hSame
      · exact ih hMem

/-- What stands under `$id` in the objects of a log is the URI of an instance that is written as an
object. -/
theorem of_mem_ids (hLog : e.IsLog seen log later) {json : Json}
    (hMem : json ∈ log.filterMap fun place => place.2.get? idKey) :
    ∃ x members uri, (x, .object members) ∈ log ∧ x.uri? = some uri ∧ json = .string uri := by
  obtain ⟨⟨x, tree⟩, hIn, hGet⟩ := List.mem_filterMap.mp hMem
  obtain ⟨members, hObject, hLookup⟩ := Option.bind_eq_some_iff.mp hGet
  cases tree with
  | object inner =>
      cases hObject
      rw [(hLog.of_object hIn).2.1] at hLookup
      obtain ⟨uri, hUri, rfl⟩ := Option.map_eq_some_iff.mp hLookup
      exact ⟨x, members, uri, hIn, hUri, rfl⟩
  | _ => cases hObject

section

variable (hPlain : ∀ fqn c, e.registry.index.class? fqn = some c → '#' ∉ fqn.toList)

include hPlain

/-- No two objects of a log have the same `$id`, when the names of classes have no `#`. -/
theorem nodup_ids (hLog : e.IsLog seen log later) :
    (log.filterMap fun place => place.2.get? idKey).Nodup := by
  induction hLog with
  | nil => exact List.nodup_nil
  | @object seen later x c members rest hClass _ hId hRest ih =>
      rw [List.filterMap_cons]
      split
      · exact ih
      · rename_i json hGet
        refine List.nodup_cons.mpr ⟨fun hMem => ?_, ih⟩
        obtain ⟨uri, hUri, rfl⟩ := Option.map_eq_some_iff.mp (hId.symm.trans hGet)
        obtain ⟨y, inner, other, hIn, hOther, hSame⟩ := hRest.of_mem_ids hMem
        obtain rfl := Json.string.inj hSame
        obtain ⟨⟨d, hDeclared⟩, _, hNew⟩ := hRest.of_object hIn
        obtain ⟨id, hXId, hYId⟩ := Resource.fullyQualifiedId?_of_uri? (hPlain _ _ hClass)
          (hPlain _ _ hDeclared) hUri hOther
        exact hNew id hYId (List.mem_append_left _ (Option.mem_toList.mpr hXId))
  | again _ _ _ ih => exact ih

/-- An instance of an indexed class is logged as an object, or as the `$id` of an object that was
logged before it. -/
theorem once (hLog : e.IsLog [] log later) {before after : List (Resource × Json)} {x : Resource}
    {tree : Json} (hSplit : log = before ++ (x, tree) :: after) {c : ResolvedClass}
    (hClass : e.registry.index.class? x.fqn = some c) :
    (∃ members, tree = .object members) ∨
      ∃ uri, tree = .string uri ∧ x.uri? = some uri ∧ ∃ y members,
        (y, .object members) ∈ before ∧ members.lookup idKey = some (.string uri) := by
  rw [hSplit] at hLog
  obtain ⟨middle, hBefore, hRest⟩ := hLog.split
  cases hRest with
  | object => exact .inl ⟨_, rfl⟩
  | @again _ _ _ pointer _ hPointer hSeen =>
      refine .inr ⟨pointer.toUri, rfl, congrArg (Option.map _) hPointer, ?_⟩
      obtain ⟨y, members, hMem, hYId⟩ := (hBefore.mem_later hSeen).resolve_left List.not_mem_nil
      obtain ⟨⟨d, hDeclared⟩, hId, _⟩ := hBefore.of_object hMem
      have hXId : x.fullyQualifiedId? = some pointer.fullyQualifiedId :=
        congrArg (Option.map _) hPointer
      obtain ⟨uri, hXUri, hYUri⟩ := Resource.uri?_of_fullyQualifiedId? (hPlain _ _ hClass)
        (hPlain _ _ hDeclared) hXId hYId
      have hSame : x.uri? = some pointer.toUri := congrArg (Option.map _) hPointer
      refine ⟨y, members, hMem, ?_⟩
      rw [hId, hYUri, ← hXUri, hSame]
      rfl

end

end IsLog

end Encoder

end DomainModels
