import DomainModels.Proofs.Wire.Log

/-!
What writing logs.

Whatever is written, the places in the tree are among the instances that were logged on the way.
They are all of these, in the same order, unless an entry of a map has replaced a former one.
-/

namespace DomainModels

open ModelFiles (IsLoaded Resolves)

namespace Encoder

/-! ## Traces -/

/-- What is known of a piece of writing: the places in what was written are a part of its log, and
all of the log if no key is written twice; and what stands under `$id` stands there at a place, if
no key is written as `$id`. -/
structure IsTrace (e : Encoder) (seen later : List String) (placed : List (Resource × Json))
    (ids : List Json) (distinct noIds : Prop) : Prop where
  logged : ∃ log, e.IsLog seen log later ∧ placed.Subperm log ∧ (distinct → placed = log)
  ids_eq : noIds → ids = placed.filterMap fun place => place.2.get? idKey

namespace IsTrace

variable {e : Encoder} {seen middle later : List String} {placed others : List (Resource × Json)}
  {ids otherIds : List Json} {distinct noIds : Prop}

theorem nil (seen : List String) (distinct noIds : Prop) :
    e.IsTrace seen seen [] [] distinct noIds where
  logged := ⟨[], .nil seen, List.Subperm.refl [], fun _ => rfl⟩
  ids_eq _ := rfl

theorem append (hFirst : e.IsTrace seen middle placed ids distinct noIds)
    (hSecond : e.IsTrace middle later others otherIds distinct noIds) :
    e.IsTrace seen later (placed ++ others) (ids ++ otherIds) distinct noIds where
  logged := by
    obtain ⟨first, hLog, hPart, hWhole⟩ := hFirst.logged
    obtain ⟨second, hNext, hOthers, hRest⟩ := hSecond.logged
    refine ⟨first ++ second, hLog.append hNext, hPart.append hOthers, fun hDistinct => ?_⟩
    rw [hWhole hDistinct, hRest hDistinct]
  ids_eq hNoIds := by
    rw [hFirst.ids_eq hNoIds, hSecond.ids_eq hNoIds, List.filterMap_append]

theorem imp {narrow narrowIds : Prop} (hTrace : e.IsTrace seen later placed ids distinct noIds)
    (hDistinct : narrow → distinct) (hNoIds : narrowIds → noIds) :
    e.IsTrace seen later placed ids narrow narrowIds where
  logged := by
    obtain ⟨log, hLog, hPart, hWhole⟩ := hTrace.logged
    exact ⟨log, hLog, hPart, hWhole ∘ hDistinct⟩
  ids_eq := hTrace.ids_eq ∘ hNoIds

/-- An instance that is written as an object is logged before what is inside of it. -/
theorem object {x : Resource} {c : ResolvedClass} {members : List (String × Json)}
    (hClass : e.registry.index.class? x.fqn = some c)
    (hNew : ∀ id, x.fullyQualifiedId? = some id → id ∉ seen)
    (hId : members.lookup idKey = x.uri?.map Json.string)
    (hInside : e.IsTrace (x.fullyQualifiedId?.toList ++ seen) later placed ids distinct noIds) :
    e.IsTrace seen later ((x, .object members) :: placed) ((members.lookup idKey).toList ++ ids)
      distinct noIds where
  logged := by
    obtain ⟨log, hLog, hPart, hWhole⟩ := hInside.logged
    refine ⟨_, .object hClass hNew hId hLog, (List.subperm_cons _).mpr hPart, fun hDistinct => ?_⟩
    rw [hWhole hDistinct]
  ids_eq hNoIds := by
    have hGet : (Json.object members).get? idKey = members.lookup idKey := rfl
    rw [hInside.ids_eq hNoIds, List.filterMap_cons, hGet]
    cases members.lookup idKey <;> rfl

/-- An instance that has been seen is logged as its URI. -/
theorem again {x : Resource} {pointer : Relationship} (hPointer : x.pointer? = some pointer)
    (hSeen : pointer.fullyQualifiedId ∈ seen) :
    e.IsTrace seen seen [(x, .string pointer.toUri)] [] distinct noIds where
  logged := ⟨_, .again hPointer hSeen (.nil seen), List.Subperm.refl _, fun _ => rfl⟩
  ids_eq _ := rfl

end IsTrace

/-- Wherever a value is written as an item, the log is known. -/
def Traced (e : Encoder) (value : Value) : Prop :=
  ∀ p path seen later tree, Runs (e.encodeItem p path value) seen tree later →
    e.IsTrace seen later (e.places value tree) tree.ids (e.HasDistinctKeys value)
      (e.HasNoIdKeys value)

/-- Wherever a value is written as a property, the log is known. -/
def PropertyTraced (e : Encoder) (value : Value) : Prop :=
  ∀ p path seen later tree, Runs (e.encodeProperty p path value) seen tree later →
    e.IsTrace seen later (e.places value tree) tree.ids (e.HasDistinctKeys value)
      (e.HasNoIdKeys value)

variable {e : Encoder} {seen later : List String} {path : Path} {p : ResolvedProperty}
  {x : Resource} {c : ResolvedClass} {members : List (String × Json)} {value : Value} {tree : Json}

/-! ## Instances -/

/-- The members before the values carry the URI, and no member for a value does. -/
theorem lookup_idKey {files : ModelFiles} {fqn : String} (hOnce : e.options.deduplicate = true)
    (hFiles : IsLoaded files) (hResolves : Resolves files fqn c)
    (hNames : ∀ name ∈ members.map (·.1), ∃ p ∈ c.properties, p.name = name) :
    (e.headMembers c x ++ members).lookup idKey = x.uri?.map Json.string := by
  have hAbsent : idKey ∉ members.map (·.1) := by
    intro hMem
    obtain ⟨p, hP, hName⟩ := hNames idKey hMem
    exact (ne_headName_of_mem hFiles hResolves hP).2 hName
  have hUri : (x.uri?.map fun text => (idKey, Json.string text)) =
      (x.uri?.map Json.string).map fun json => (idKey, json) := by
    rw [Option.map_map]
    rfl
  have hClassKey : idKey ≠ classKey := by decide
  rw [headMembers, List.cons_append, Json.lookup_cons, if_neg hClassKey, if_pos hOnce, hUri,
    Json.lookup_toList_append_self hAbsent]

/-- Nothing is held under the names of the members before the values, and no `$id` is inside of
them. -/
theorem headMembers_inside {files : ModelFiles} {fqn : String} (hFiles : IsLoaded files)
    (hResolves : Resolves files fqn c) (hClass : e.registry.index.class? x.fqn = some c) :
    ((e.headMembers c x).flatMap fun member => e.placesUnder (e.held? x member.1) member.2) = [] ∧
      ((e.headMembers c x).flatMap fun member => member.2.ids) = [] := by
  have hNone {name : String} (hName : ∀ p ∈ c.properties, p.name ≠ name) :
      e.held? x name = none := by
    have hNoProperty : c.property? name = none := by
      rw [ResolvedClass.property?, List.find?_eq_none]
      exact fun p hMem => by simpa using hName p hMem
    rw [held?, hClass, Option.bind_some, hNoProperty, Option.bind_none]
  have hClassKey := hNone fun p hMem => (ne_headName_of_mem hFiles hResolves hMem).1
  have hIdKey := hNone fun p hMem => (ne_headName_of_mem hFiles hResolves hMem).2
  unfold headMembers
  cases (if e.options.deduplicate = true then x.uri? else none) <;>
    simp [hClassKey, hIdKey, placesUnder, Json.ids]

/-- The places under a property are those in what is held for it. -/
theorem held?_of_mem (hClass : e.registry.index.class? x.fqn = some c)
    (hProperty : c.property? p.name = some p) :
    e.held? x p.name = if Decoder.isShadowed c p then none else x.get? p.name := by
  rw [held?, hClass, Option.bind_some, hProperty, Option.bind_some]

/-- Writing the values of an instance logs what is inside of them, property by property. -/
theorem isTrace_encodeMembers (hClass : e.registry.index.class? x.fqn = some c)
    (hValues : ∀ name value, x.get? name = some value → PropertyTraced e value)
    {properties : List ResolvedProperty}
    (hProperties : ∀ p ∈ properties, c.property? p.name = some p)
    (hWritten : Runs (e.encodeMembers c path x properties) seen members later) :
    e.IsTrace seen later
      (members.flatMap fun member => e.placesUnder (e.held? x member.1) member.2)
      (members.flatMap fun member => member.2.ids)
      (∀ name value, x.get? name = some value → e.HasDistinctKeys value)
      (∀ name value, x.get? name = some value → e.HasNoIdKeys value) := by
  induction properties generalizing seen members with
  | nil =>
      rw [encodeMembers, runs_pure] at hWritten
      obtain ⟨rfl, rfl⟩ := hWritten
      exact .nil _ _ _
  | cons p rest ih =>
      have hRest := fun q hMem => hProperties q (List.mem_cons_of_mem _ hMem)
      have hHeld := held?_of_mem hClass (hProperties p List.mem_cons_self)
      cases hShadowed : Decoder.isShadowed c p with
      | true =>
          rw [if_pos hShadowed] at hHeld
          rw [encodeMembers_shadowed hShadowed, runs_bind_pure] at hWritten
          obtain ⟨others, hOthers, rfl⟩ := hWritten
          cases hIdentifier : x.identifier? with
          | none => exact ih hRest hOthers
          | some id => simpa [hHeld, placesUnder, Json.ids] using ih hRest hOthers
      | false =>
          rw [hShadowed, if_neg Bool.false_ne_true] at hHeld
          cases hGet : x.get? p.name with
          | none =>
              rw [encodeMembers_absent hShadowed hGet] at hWritten
              split at hWritten
              · obtain ⟨_, _, hThrown, _⟩ := runs_bind.mp hWritten
                exact absurd hThrown not_runs_throw
              · exact ih hRest hWritten
          | some value =>
              rw [hGet] at hHeld
              rw [encodeMembers_held hShadowed hGet] at hWritten
              obtain ⟨json, middle, hJson, hWritten⟩ := runs_bind.mp hWritten
              obtain ⟨others, hOthers, rfl⟩ := runs_bind_pure.mp hWritten
              have hFirst := hValues p.name value hGet p _ _ _ _ hJson
              have hBoth := (hFirst.imp (fun hAll => hAll p.name value hGet)
                fun hAll => hAll p.name value hGet).append (ih hRest hOthers)
              simpa [hHeld, placesUnder] using hBoth

/-- The writers that write an instance once, and its URI elsewhere, with a registry that is
indexed. -/
structure WritesOnce (e : Encoder) : Prop where
  deduplicate : e.options.deduplicate = true
  pointToResources : e.options.pointToResources = false
  bareIdentifiers : e.options.bareIdentifiers = false
  files : IsLoaded e.registry.files
  index : ∃ mode, TypeIndex.build e.registry.files mode = .ok e.registry.index

/-- Writing an instance that has not been seen logs it and what is inside of it. -/
theorem isTrace_encodeResource (hOnce : e.WritesOnce)
    (hValues : ∀ name value, x.get? name = some value → PropertyTraced e value)
    (hNew : ∀ id, x.fullyQualifiedId? = some id → id ∉ seen) {declared : Option String}
    (hWritten : Runs (e.encodeResource declared path x) seen tree later) :
    e.IsTrace seen later (e.places (.concept x) tree) tree.ids (e.HasDistinctKeys (.concept x))
      (e.HasNoIdKeys (.concept x)) := by
  obtain ⟨c, members, hClass, _, hRun, rfl⟩ := runs_encodeResource.mp hWritten
  obtain ⟨mode, hIndex⟩ := hOnce.index
  have hResolves := TypeIndex.resolves_of_class? hOnce.files hIndex hClass
  have hDistinctNames := hResolves.nodup_properties hOnce.files
  have hId := lookup_idKey (x := x) hOnce.deduplicate hOnce.files hResolves
    (hRun.mayWrite.hasMembers hDistinctNames).names
  have hInside := isTrace_encodeMembers hClass hValues
    (fun p hMem => Named.find?_of_mem hDistinctNames hMem) hRun
  obtain ⟨hNoPlaces, hNoHeadIds⟩ := headMembers_inside (x := x) hOnce.files hResolves hClass
  rw [places_object, List.flatMap_append, hNoPlaces, List.nil_append, Json.ids, Json.memberIds_eq,
    List.flatMap_append, hNoHeadIds, List.nil_append]
  refine .object hClass hNew hId (hInside.imp ?_ ?_)
  · intro hDistinct name value hGet
    exact hDistinct.of_part fun hPart => .field (Table.mem_of_find? hGet) hPart
  · intro hNoIds name value hGet
    exact hNoIds.of_part fun hPart => .field (Table.mem_of_find? hGet) hPart

/-- An instance is written as its URI if it has been seen, and as an object otherwise. -/
theorem isTrace_writtenPointer? (hOnce : e.WritesOnce)
    (hValues : ∀ name value, x.get? name = some value → PropertyTraced e value)
    {declared : Option String}
    (hWritten : Runs (match writtenPointer? seen x with
      | some pointer => pure (Json.string pointer.toUri)
      | none => e.encodeResource declared path x) seen tree later) :
    e.IsTrace seen later (e.places (.concept x) tree) tree.ids (e.HasDistinctKeys (.concept x))
      (e.HasNoIdKeys (.concept x)) := by
  cases hSeen : writtenPointer? seen x with
  | some pointer =>
      rw [hSeen] at hWritten
      obtain ⟨rfl, rfl⟩ := runs_pure.mp hWritten
      obtain ⟨hPointer, hContains⟩ := Option.filter_eq_some_iff.mp hSeen
      rw [places_text]
      exact .again hPointer (by simpa using hContains)
  | none =>
      rw [hSeen] at hWritten
      refine isTrace_encodeResource hOnce hValues (fun id hId hMem => ?_) hWritten
      obtain ⟨pointer, hPointer, rfl⟩ := Resource.exists_pointer_of_fullyQualifiedId? hId
      rw [writtenPointer?, hPointer, Option.filter_some, if_pos (by simpa using hMem)] at hSeen
      cases hSeen

/-! ## Arrays -/

theorem isTrace_encodeItems {items : List Value} (hItems : ∀ item ∈ items, Traced e item)
    {i : Nat} {trees : List Json}
    (hWritten : Runs (e.encodeItems p path i items) seen trees later) :
    e.IsTrace seen later (List.zipWith e.places items trees).flatten (trees.flatMap Json.ids)
      (∀ item ∈ items, e.HasDistinctKeys item) (∀ item ∈ items, e.HasNoIdKeys item) := by
  induction items generalizing i seen trees with
  | nil =>
      rw [encodeItems, runs_pure] at hWritten
      obtain ⟨rfl, rfl⟩ := hWritten
      exact .nil _ _ _
  | cons item rest ih =>
      rw [encodeItems] at hWritten
      obtain ⟨tree, middle, hTree, hWritten⟩ := runs_bind.mp hWritten
      obtain ⟨others, hOthers, rfl⟩ := runs_bind_pure.mp hWritten
      have hFirst := hItems item List.mem_cons_self p _ _ _ _ hTree
      have hRest := ih (fun other hMem => hItems other (List.mem_cons_of_mem _ hMem)) hOthers
      rw [List.zipWith_cons_cons, List.flatten_cons, List.flatMap_cons]
      refine (hFirst.imp ?_ ?_).append (hRest.imp ?_ ?_)
      · exact fun hAll => hAll item List.mem_cons_self
      · exact fun hAll => hAll item List.mem_cons_self
      · exact fun hAll other hMem => hAll other (List.mem_cons_of_mem _ hMem)
      · exact fun hAll other hMem => hAll other (List.mem_cons_of_mem _ hMem)

/-- A property is traced if its items are. -/
theorem propertyTraced (hItem : Traced e value)
    (hItems : ∀ items, value = .array items → ∀ item ∈ items, Traced e item) :
    PropertyTraced e value := by
  intro p path seen later tree hWritten
  rw [encodeProperty.eq_def] at hWritten
  split at hWritten
  · split at hWritten
    · rename_i items
      obtain ⟨trees, hTrees, rfl⟩ := runs_bind_pure.mp hWritten
      rw [places_array, Json.ids, Json.itemIds_eq]
      refine (isTrace_encodeItems (hItems items rfl) hTrees).imp ?_ ?_
      · exact fun hDistinct item hMem => hDistinct.of_part fun hPart => .item hMem hPart
      · exact fun hNoIds item hMem => hNoIds.of_part fun hPart => .item hMem hPart
    · exact absurd hWritten not_runs_throw
  · exact hItem p path seen later tree hWritten

/-! ## Maps -/

/-- A key is written as its name. -/
theorem keyName?_of_encodeValue {type : ValueType} {key : Value} {name : String}
    (hKey : e.encodeValue type path key = .ok (.string name)) : e.keyName? key = some name := by
  cases (encodeValue_eq_ok.mp hKey).2 <;> rfl

/-- What is known when some entries of a map have been inserted into an object. Under each name
stands what was written for the last one of these entries that has the name. -/
structure HasInserted (e : Encoder) (seen later : List String) (entries : List (Value × Value))
    (members : List (String × Json)) (distinct noIds : Prop) : Prop where
  names : (members.map (·.1)).Nodup
  keys : ∀ name ∈ members.map (·.1), ∃ entry ∈ entries, e.keyName? entry.1 = some name
  logged : ∃ log, e.IsLog seen log later ∧
    (e.places (.map entries) (.object members)).Subperm log ∧
    (distinct → e.places (.map entries) (.object members) = log)
  ids_eq : noIds → ∀ member ∈ members, member.2.ids =
    (e.placesUnder (e.itemUnder? entries member.1) member.2).filterMap (·.2.get? idKey)

variable {middle : List String} {entries : List (Value × Value)} {entry : Value × Value}
  {name : String} {distinct noIds : Prop}

theorem hasInserted_nil (seen : List String) (distinct noIds : Prop) :
    e.HasInserted seen seen [] [] distinct noIds where
  names := List.nodup_nil
  keys name hMem := absurd hMem List.not_mem_nil
  logged := ⟨[], .nil seen, by rw [places_map]; exact List.Subperm.refl [], fun _ => places_map⟩
  ids_eq _ member hMem := absurd hMem List.not_mem_nil

/-- An entry is inserted after the former ones. -/
theorem HasInserted.insert (hFormer : e.HasInserted seen middle entries members distinct noIds)
    (hName : e.keyName? entry.1 = some name)
    (hItem : e.IsTrace middle later (e.places entry.2 tree) tree.ids distinct noIds)
    (hNew : distinct → ∀ other ∈ entries, e.keyName? other.1 ≠ some name) :
    e.HasInserted seen later (entries ++ [entry]) (Json.insertMember name tree members) distinct
      noIds where
  names := Json.nodup_insertMember hFormer.names
  keys other hMem := by
    obtain ⟨member, hMember, rfl⟩ := List.mem_map.mp hMem
    rcases Json.mem_insertMember hMember with rfl | hMember
    · exact ⟨entry, List.mem_append_right _ List.mem_cons_self, hName⟩
    · obtain ⟨former, hIn, hKey⟩ := hFormer.keys _ (List.mem_map_of_mem hMember)
      exact ⟨former, List.mem_append_left _ hIn, hKey⟩
  logged := by
    obtain ⟨first, hLog, hPart, hWhole⟩ := hFormer.logged
    obtain ⟨second, hNext, hOthers, hRest⟩ := hItem.logged
    refine ⟨first ++ second, hLog.append hNext, ?_, fun hDistinct => ?_⟩
    · exact (places_insertMember hName hFormer.names).trans (hPart.append hOthers)
    · have hAbsent : name ∉ members.map (·.1) := by
        intro hMem
        obtain ⟨other, hIn, hKey⟩ := hFormer.keys name hMem
        exact hNew hDistinct other hIn hKey
      rw [places_insertMember_of_not_mem hName hAbsent, hWhole hDistinct, hRest hDistinct]
  ids_eq hNoIds member hMem := by
    rcases Json.ne_of_mem_insertMember hFormer.names hMem with rfl | ⟨hMem, hOther⟩
    · rw [itemUnder?_append, if_pos hName]
      exact hItem.ids_eq hNoIds
    · rw [itemUnder?_append, hName, if_neg (by simpa using hOther)]
      exact hFormer.ids_eq hNoIds member hMem

/-- Writing entries inserts them one after the other. -/
theorem hasInserted_encodeEntries {keyType : ValueType} {rest : List (Value × Value)}
    {front : List (String × Json)}
    (hFormer : e.HasInserted seen middle entries front distinct noIds)
    (hItems : ∀ entry ∈ rest, Traced e entry.2)
    (hDistinct : distinct → ((entries ++ rest).filterMap fun entry => e.keyName? entry.1).Nodup ∧
      ∀ entry ∈ rest, e.HasDistinctKeys entry.2)
    (hNoIds : noIds → ∀ entry ∈ rest, e.HasNoIdKeys entry.2)
    (hWritten : Runs (e.encodeEntries keyType p path front rest) middle members later) :
    e.HasInserted seen later (entries ++ rest) members distinct noIds := by
  induction rest generalizing entries front middle with
  | nil =>
      rw [encodeEntries, runs_pure] at hWritten
      obtain ⟨rfl, rfl⟩ := hWritten
      rwa [List.append_nil]
  | cons entry rest ih =>
      obtain ⟨key, item⟩ := entry
      have hSplit : entries ++ (key, item) :: rest = (entries ++ [(key, item)]) ++ rest := by
        rw [List.append_assoc, List.singleton_append]
      rw [encodeEntries] at hWritten
      obtain ⟨keyJson, hKey, hWritten⟩ := runs_lift_bind.mp hWritten
      split at hWritten
      · rename_i name
        obtain ⟨tree, last, hTree, hWritten⟩ := runs_bind.mp hWritten
        have hName := keyName?_of_encodeValue hKey
        have hTrace := hItems _ List.mem_cons_self p _ _ _ _ hTree
        rw [hSplit]
        refine ih ?_ (fun other hMem => hItems other (List.mem_cons_of_mem _ hMem)) ?_ ?_ hWritten
        · refine hFormer.insert hName (hTrace.imp ?_ ?_) ?_
          · exact fun hAll => (hDistinct hAll).2 _ List.mem_cons_self
          · exact fun hAll => hNoIds hAll _ List.mem_cons_self
          · intro hAll other hMem hSame
            have hNodup := (hDistinct hAll).1
            rw [List.filterMap_append, List.filterMap_cons, hName] at hNodup
            exact (List.nodup_append.mp hNodup).2.2 name
              (List.mem_filterMap.mpr ⟨other, hMem, hSame⟩) name List.mem_cons_self rfl
        · intro hAll
          rw [← hSplit]
          obtain ⟨hNodup, hInner⟩ := hDistinct hAll
          exact ⟨hNodup, fun other hMem => hInner other (List.mem_cons_of_mem _ hMem)⟩
        · exact fun hAll other hMem => hNoIds hAll other (List.mem_cons_of_mem _ hMem)
      · exact absurd hWritten not_runs_throw

/-- Writing a map logs what is inside of it. -/
theorem isTrace_encodeMap (hItems : ∀ entry ∈ entries, Traced e entry.2) {target : String}
    (hWritten : Runs (e.encodeMap target path entries) seen tree later) :
    e.IsTrace seen later (e.places (.map entries) tree) tree.ids (e.HasDistinctKeys (.map entries))
      (e.HasNoIdKeys (.map entries)) := by
  obtain ⟨m, keyType, members, _, _, hMembers, rfl⟩ := runs_encodeMap.mp hWritten
  have hStart : e.HasInserted seen seen [] [] (e.HasDistinctKeys (.map entries))
      (e.HasNoIdKeys (.map entries)) := hasInserted_nil seen _ _
  have hAll := hasInserted_encodeEntries hStart hItems
    (fun hDistinct => ⟨hDistinct entries .refl, fun entry hMem =>
      hDistinct.of_part fun hPart => .entry hMem hPart⟩)
    (fun hNoIds entry hMem => hNoIds.of_part fun hPart => .entry hMem hPart) hMembers
  rw [List.nil_append] at hAll
  refine ⟨hAll.logged, fun hNoIds => ?_⟩
  have hAbsent : idKey ∉ members.map (·.1) := by
    intro hMem
    obtain ⟨entry, hIn, hKey⟩ := hAll.keys idKey hMem
    exact hNoIds entries .refl entry hIn hKey
  rw [Json.ids, Json.lookup_eq_none hAbsent, Option.toList_none, List.nil_append,
    Json.memberIds_eq, places_map, List.filterMap_flatMap]
  exact List.flatMap_congr (hAll.ids_eq hNoIds)

/-! ## Trees -/

/-- A value of an enumeration is written as a primitive value is. -/
theorem writesValue_of_encodeEnum {target : String} {values : List EnumValue}
    (hWritten : e.encodeEnum target values path value = .ok tree) : e.WritesValue value tree := by
  obtain ⟨name, hValue, rfl, _⟩ := encodeEnum_eq_ok hWritten
  rcases hValue with rfl | rfl
  · exact .enum name
  · exact .string name

/-- No instance is inside of a primitive value. -/
theorem WritesValue.isTrace (hTree : e.WritesValue value tree) (seen : List String) :
    e.IsTrace seen seen (e.places value tree) tree.ids distinct noIds := by
  have hPlaces : e.places value tree = [] := by
    cases hTree <;> exact places_eq_nil (by simp) (by simp) (by simp) _
  have hIds : tree.ids = [] := by
    cases hTree <;> rfl
  rw [hPlaces, hIds]
  exact .nil seen _ _

/-- An instance that stands where a pointer is declared is written once as any other. -/
theorem isTrace_encodePointee (hOnce : e.WritesOnce)
    (hValues : ∀ name value, x.get? name = some value → PropertyTraced e value) {target : String}
    (hWritten : Runs (e.encodePointee target path x) seen tree later) :
    e.IsTrace seen later (e.places (.concept x) tree) tree.ids (e.HasDistinctKeys (.concept x))
      (e.HasNoIdKeys (.concept x)) := by
  have hText : e.pointerText = Relationship.toUri := by
    funext pointer
    rw [pointerText, hOnce.bareIdentifiers, if_neg Bool.false_ne_true]
  rw [encodePointee.eq_def, hOnce.pointToResources, if_neg Bool.false_ne_true] at hWritten
  split at hWritten
  · exact absurd hWritten not_runs_throw
  · have hPointee := hWritten.of_get_bind
    rw [hText] at hPointee
    exact isTrace_writtenPointer? hOnce hValues hPointee

/-- A value is traced if the values below it are. -/
theorem traced_of_parts (hOnce : e.WritesOnce)
    (hEntries : ∀ entries, value = .map entries → ∀ entry ∈ entries, Traced e entry.2)
    (hFields : ∀ x, value = .concept x → ∀ name inner, x.get? name = some inner →
      PropertyTraced e inner) : Traced e value := by
  intro p path seen later tree hWritten
  rw [encodeItem.eq_def] at hWritten
  split at hWritten
  · obtain ⟨hValue, rfl⟩ := runs_lift.mp hWritten
    exact (encodeValue_eq_ok.mp hValue).2.isTrace seen
  · obtain ⟨hValue, rfl⟩ := runs_lift.mp hWritten
    exact (encodeValue_eq_ok.mp hValue).2.isTrace seen
  · split at hWritten
    · obtain ⟨hPointer, rfl⟩ := runs_lift.mp hWritten
      obtain ⟨_, rfl⟩ := encodePointer_eq_ok.mp hPointer
      rw [places_eq_nil (by simp) (by simp) (by simp), Json.ids]
      · exact .nil _ _ _
      all_goals simp
    · exact isTrace_encodePointee hOnce (hFields _ rfl) hWritten
    · exact absurd hWritten not_runs_throw
  · obtain ⟨d, _, hItem⟩ := runs_lift_bind.mp hWritten
    clear hWritten
    split at hItem
    · have hWritten := hItem.of_get_bind
      rw [if_pos hOnce.deduplicate] at hWritten
      exact isTrace_writtenPointer? hOnce (hFields _ rfl) hWritten
    · obtain ⟨hEnum, rfl⟩ := runs_lift.mp hItem
      exact (writesValue_of_encodeEnum hEnum).isTrace seen
    · exact isTrace_encodeMap (hEntries _ rfl) hItem
    · exact absurd hItem not_runs_throw
    · exact absurd hItem not_runs_throw

/-- Whatever value is written, the log is known. -/
theorem traced (hOnce : e.WritesOnce) (value : Value) : Traced e value := by
  induction value using Value.inductionOn_fields with
  | hParts value hEntries hFields =>
      refine traced_of_parts hOnce hEntries fun x hConcept name inner hGet => ?_
      obtain ⟨hWhole, hItems⟩ := hFields x hConcept (name, inner) (Table.mem_of_find? hGet)
      exact propertyTraced hWhole hItems

/-- The tree of an instance has a log that starts before anything has been seen. -/
theorem exists_isTrace_of_encode (hOnce : e.WritesOnce) (hWritten : e.encode x = .ok tree) :
    ∃ later, e.IsTrace [] later (e.places (.concept x) tree) tree.ids
      (e.HasDistinctKeys (.concept x)) (e.HasNoIdKeys (.concept x)) := by
  obtain ⟨⟨json, later⟩, hRun, rfl⟩ := Outcome.map_eq_ok.mp hWritten
  refine ⟨later, isTrace_encodeResource hOnce ?_ (fun _ _ => List.not_mem_nil) hRun⟩
  exact fun _ inner _ => propertyTraced (traced hOnce inner) fun _ _ item _ => traced hOnce item

end Encoder

end DomainModels
