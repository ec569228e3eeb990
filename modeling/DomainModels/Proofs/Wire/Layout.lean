import DomainModels.Proofs.Wire.Once

/-!
How the objects of instances are laid out.

The class comes first, then the URI if instances are deduplicated, and then the values in the order
in which the class lists its properties. Where a declared field identifies the instances, their
identifier stands in the place of the one of the system, whatever is held there. No name comes
twice, and where instances are checked, nothing that one holds is left out.
-/

namespace DomainModels

open ModelFiles (IsLoaded Resolves)

namespace Encoder

variable {e : Encoder} {c : ResolvedClass} {x : Resource} {path : Path} {p : ResolvedProperty}
  {properties : List ResolvedProperty} {members : List (String × Json)} {value : Value}
  {tree : Json}

/-! ## Members of instances -/

/-- Whether there is a member for a property. -/
def hasMember (c : ResolvedClass) (x : Resource) (p : ResolvedProperty) : Bool :=
  if Decoder.isShadowed c p then x.identifier?.isSome else (x.get? p.name).isSome

/-- A member has the name of a property, and was written for the value that is held for it, or for
the identifier. -/
def IsMemberFor (e : Encoder) (c : ResolvedClass) (x : Resource) (p : ResolvedProperty)
    (member : String × Json) : Prop :=
  member.1 = p.name ∧
    if Decoder.isShadowed c p then x.identifier?.map Json.string = some member.2
    else ∃ value path, x.get? p.name = some value ∧
      MayWrite (e.encodeProperty p path value) member.2

/-- The members are written for the properties in their order. -/
theorem MayWrite.forall₂_members
    (hWritten : MayWrite (e.encodeMembers c path x properties) members) :
    List.Forall₂ (e.IsMemberFor c x) (properties.filter (hasMember c x)) members := by
  induction properties generalizing members with
  | nil =>
      rw [encodeMembers, mayWrite_pure] at hWritten
      subst hWritten
      exact .nil
  | cons p rest ih =>
      cases hShadowed : Decoder.isShadowed c p with
      | true =>
          rw [encodeMembers_shadowed hShadowed] at hWritten
          obtain ⟨later, hLater, hSame⟩ := hWritten.of_bind
          rw [mayWrite_pure] at hSame
          subst hSame
          cases hId : x.identifier? with
          | none =>
              rw [List.filter_cons_of_neg (by simp [hasMember, hShadowed, hId])]
              exact ih hLater
          | some id =>
              rw [List.filter_cons_of_pos (by simp [hasMember, hShadowed, hId])]
              refine .cons ⟨rfl, ?_⟩ (ih hLater)
              rw [if_pos hShadowed, hId]
              rfl
      | false =>
          have hOpen : ¬ Decoder.isShadowed c p = true := by simp [hShadowed]
          cases hGet : x.get? p.name with
          | none =>
              rw [encodeMembers_absent hShadowed hGet] at hWritten
              rw [List.filter_cons_of_neg (by simp [hasMember, hShadowed, hGet])]
              split at hWritten
              · obtain ⟨_, hThrown, _⟩ := hWritten.of_bind
                exact absurd hThrown not_mayWrite_throw
              · exact ih hWritten
          | some value =>
              rw [encodeMembers_held hShadowed hGet] at hWritten
              rw [List.filter_cons_of_pos (by simp [hasMember, hShadowed, hGet])]
              obtain ⟨json, hJson, hWritten⟩ := hWritten.of_bind
              obtain ⟨later, hLater, hSame⟩ := hWritten.of_bind
              rw [mayWrite_pure] at hSame
              subst hSame
              refine .cons ⟨rfl, ?_⟩ (ih hLater)
              rw [if_neg hOpen]
              exact ⟨value, _, hGet, hJson⟩

theorem map_name_of_forall₂ (hMembers : List.Forall₂ (e.IsMemberFor c x) properties members) :
    members.map (·.1) = properties.map (·.name) := by
  induction hMembers with
  | nil => rfl
  | cons hFirst _ ih => rw [List.map_cons, List.map_cons, hFirst.1, ih]

/-- How the object of an instance is laid out. The class comes first, then the URI if instances are
deduplicated and the instance has one, and then, in the order of the properties, a member for each
of those for which there is something to write. No name comes twice. Where a declared field
identifies the instances, the identifier stands in the place of the one of the system, if the class
has that. Where instances are checked, all that is held is written, but for what is held in that
place. -/
structure IsLaidOut (e : Encoder) (c : ResolvedClass) (x : Resource)
    (members : List (String × Json)) : Prop where
  layout : ∃ uri body, uri = (if e.options.deduplicate then x.uri? else none) ∧
    members = (classKey, .string x.fqn) :: (uri.map fun text => (idKey, Json.string text)).toList ++
      body ∧
    List.Forall₂ (e.IsMemberFor c x) (c.properties.filter (hasMember c x)) body
  nodup : (members.map (·.1)).Nodup
  identifier : c.isExplicitlyIdentified = true → ∀ tree, (identifierField, tree) ∈ members ↔
    (c.property? identifierField).isSome = true ∧ x.identifier?.map Json.string = some tree
  complete : e.options.validate = true → ∀ name value, x.get? name = some value →
    name = identifierField ∧ c.isExplicitlyIdentified = true ∨
      ∃ p ∈ c.properties, p.name = name ∧ ∃ tree path, (name, tree) ∈ members ∧
        MayWrite (e.encodeProperty p path value) tree

/-! ## Layouts -/

theorem name_of_mem_headMembers {member : String × Json} (hMem : member ∈ e.headMembers c x) :
    member.1 = classKey ∨ member.1 = idKey := by
  rcases List.mem_cons.mp hMem with rfl | hMem
  · exact .inl rfl
  · obtain ⟨text, _, rfl⟩ := Option.map_eq_some_iff.mp (Option.mem_toList.mp hMem)
    exact .inr rfl

theorem nodup_headMembers : ((e.headMembers c x).map (·.1)).Nodup := by
  unfold headMembers
  cases (if e.options.deduplicate = true then x.uri? else none) with
  | none => exact List.nodup_singleton classKey
  | some uri => exact List.nodup_cons.mpr ⟨by simp [classKey, idKey], List.nodup_singleton idKey⟩

section

variable {files : ModelFiles} {fqn : String} (hFiles : IsLoaded files)
  (hResolves : Resolves files fqn c)
include hFiles hResolves

theorem nodup_members
    (hMembers : List.Forall₂ (e.IsMemberFor c x) (c.properties.filter (hasMember c x)) members) :
    ((e.headMembers c x ++ members).map (·.1)).Nodup := by
  have hNames := map_name_of_forall₂ hMembers
  rw [List.map_append, hNames]
  refine List.nodup_append'.mpr ⟨nodup_headMembers, ?_, fun name hHead hBody => ?_⟩
  · exact (List.filter_sublist.map _).nodup (hResolves.nodup_properties hFiles)
  · obtain ⟨member, hMember, rfl⟩ := List.mem_map.mp hHead
    obtain ⟨p, hP, hName⟩ := List.mem_map.mp hBody
    have hApart := ne_headName_of_mem hFiles hResolves (List.mem_of_mem_filter hP)
    rcases name_of_mem_headMembers hMember with hHeadName | hHeadName
    · exact hApart.1 (hName.trans hHeadName)
    · exact hApart.2 (hName.trans hHeadName)

end

/-- The identifier of the instances stands in the place of the one of the system. -/
theorem mem_members_identifier (hExplicit : c.isExplicitlyIdentified = true)
    (hMembers : List.Forall₂ (e.IsMemberFor c x) (c.properties.filter (hasMember c x)) members)
    (tree : Json) : (identifierField, tree) ∈ e.headMembers c x ++ members ↔
      (c.property? identifierField).isSome = true ∧
        x.identifier?.map Json.string = some tree := by
  have hShadowed {p : ResolvedProperty} (hName : p.name = identifierField) :
      Decoder.isShadowed c p = true := by
    simp [Decoder.isShadowed, hName, hExplicit]
  constructor
  · intro hMem
    rcases List.mem_append.mp hMem with hHead | hBody
    · rcases name_of_mem_headMembers hHead with hName | hName
      · exact absurd hName (by decide : identifierField ≠ classKey)
      · exact absurd hName (by decide : identifierField ≠ idKey)
    · obtain ⟨p, hP, hName, hTree⟩ := Named.exists_of_forall₂ hMembers hBody
      rw [if_pos (hShadowed hName.symm)] at hTree
      refine ⟨List.find?_isSome.mpr ⟨p, List.mem_of_mem_filter hP, ?_⟩, hTree⟩
      simpa using hName.symm
  · rintro ⟨hHas, hTree⟩
    obtain ⟨p, hFound⟩ := Option.isSome_iff_exists.mp hHas
    obtain ⟨hP, hName⟩ := Named.mem_of_find? hFound
    have hWritten : hasMember c x p = true := by
      obtain ⟨id, hId, _⟩ := Option.map_eq_some_iff.mp hTree
      simp [hasMember, hShadowed hName, hId]
    obtain ⟨member, hMem, hSame, hOther⟩ :=
      Named.exists_of_forall₂ hMembers.flip (List.mem_filter.mpr ⟨hP, hWritten⟩)
    rw [if_pos (hShadowed hName), hTree] at hOther
    have hMember : member = (identifierField, tree) :=
      Prod.ext (hSame.trans hName) (Option.some.inj hOther).symm
    exact List.mem_append_right _ (hMember ▸ hMem)

/-- Where instances are checked, each value is held for a property of the class. -/
theorem exists_property_of_checkInstance {declared : Option String}
    (hChecked : e.checkInstance c declared path x = .ok ()) {name : String}
    (hGet : x.get? name = some value) : ∃ p ∈ c.properties, p.name = name := by
  have hNone : (x.values.find? fun entry => (c.property? entry.1).isNone) = none := by
    cases hFound : x.values.find? fun entry => (c.property? entry.1).isNone with
    | none => rfl
    | some entry =>
        obtain ⟨hConcrete, hDeclared⟩ := of_checkInstance hChecked
        unfold checkInstance at hChecked
        cases declared with
        | none => simp [hConcrete, hFound] at hChecked
        | some target => simp [hConcrete, hDeclared target rfl, hFound] at hChecked
  have hDeclared := List.find?_eq_none.mp hNone _ (Table.mem_of_find? hGet)
  obtain ⟨p, hFound⟩ : ∃ p, c.property? name = some p := by
    simpa [Option.isNone_iff_eq_none, ← Option.isSome_iff_exists, Option.ne_none_iff_isSome]
      using hDeclared
  exact ⟨p, Named.mem_of_find? hFound⟩

/-- The object of an instance is laid out as its class says. -/
theorem isLaidOut_of_mayWrite {files : ModelFiles} {mode : BuildMode} (hFiles : IsLoaded files)
    (hIndex : TypeIndex.build files mode = .ok e.registry.index) {declared : Option String}
    (hWritten : MayWrite (e.encodeResource declared path x) tree) :
    ∃ c members, e.registry.index.class? x.fqn = some c ∧ tree = .object members ∧
      e.IsLaidOut c x members := by
  obtain ⟨c, body, hClass, hChecked, hBody, rfl⟩ := hWritten.resource
  have hResolves := TypeIndex.resolves_of_class? hFiles hIndex hClass
  have hMembers := hBody.forall₂_members
  have hName : c.fqn = x.fqn := (Named.mem_of_find? hClass).2
  refine ⟨c, _, hClass, rfl, ⟨_, body, rfl, ?_, hMembers⟩, nodup_members hFiles hResolves hMembers,
    fun hExplicit => mem_members_identifier hExplicit hMembers, ?_⟩
  · rw [headMembers, hName]
  · intro hValidate name value hGet
    obtain ⟨p, hMem, rfl⟩ := exists_property_of_checkInstance (hChecked hValidate) hGet
    cases hShadowed : Decoder.isShadowed c p with
    | true =>
        left
        simpa [Decoder.isShadowed] using hShadowed
    | false =>
        have hHas : hasMember c x p = true := by simp [hasMember, hShadowed, hGet]
        obtain ⟨member, hIn, hSame, hHeld⟩ :=
          Named.exists_of_forall₂ hMembers.flip (List.mem_filter.mpr ⟨hMem, hHas⟩)
        rw [hShadowed, if_neg Bool.false_ne_true, hGet] at hHeld
        obtain ⟨_, place, ⟨⟩, hTree⟩ := hHeld
        right
        refine ⟨p, hMem, rfl, member.2, place, List.mem_append_right _ ?_, hTree⟩
        rwa [← hSame]

/-! ## Places -/

/-- What stands at the place of an instance is a text, or was written for the instance. -/
def IsWrittenThere (e : Encoder) (place : Resource × Json) : Prop :=
  (∃ text, place.2 = .string text) ∨
    ∃ declared path, MayWrite (e.encodeResource declared path place.1) place.2

/-- An instance is written as a text or as an instance. -/
theorem WritesItem.isWrittenThere {type : ResolvedType}
    (hItem : e.WritesItem path type (.concept x) tree) : e.IsWrittenThere (x, tree) := by
  cases hItem with
  | value _ hWritten => nomatch (encodeValue_eq_ok.mp hWritten).2
  | pointee => exact .inl ⟨_, rfl⟩
  | embedded _ hWritten => exact .inr ⟨_, _, hWritten⟩
  | enum _ _ hWritten => cases hWritten
  | concept _ _ hWritten => exact .inr ⟨_, _, hWritten⟩
  | again => exact .inl ⟨_, rfl⟩

/-- Wherever a value is written, as an item or as a property, the instances in it were written at
their places. -/
structure HasWrittenPlaces (e : Encoder) (value : Value) : Prop where
  item : ∀ type path tree, e.WritesItem path type value tree →
    ∀ place ∈ e.places value tree, e.IsWrittenThere place
  property : ∀ p path tree, MayWrite (e.encodeProperty p path value) tree →
    ∀ place ∈ e.places value tree, e.IsWrittenThere place

section

variable {files : ModelFiles} {mode : BuildMode} (hFiles : IsLoaded files)
  (hIndex : TypeIndex.build files mode = .ok e.registry.index)
include hFiles hIndex

theorem isWrittenThere_of_object (hFields : ∀ field ∈ x.values, e.HasWrittenPlaces field.2)
    {declared : Option String}
    (hWritten : MayWrite (e.encodeResource declared path x) tree) {place : Resource × Json}
    (hPlace : place ∈ e.places (.concept x) tree) : e.IsWrittenThere place := by
  obtain ⟨c, body, hClass, _, hBody, rfl⟩ := hWritten.resource
  have hResolves := TypeIndex.resolves_of_class? hFiles hIndex hClass
  obtain ⟨hNone, _⟩ := headMembers_inside (x := x) hFiles hResolves hClass
  rw [places_object, List.flatMap_append, hNone, List.nil_append] at hPlace
  rcases List.mem_cons.mp hPlace with rfl | hInside
  · exact .inr ⟨_, _, hWritten⟩
  · obtain ⟨member, hMember, hInner⟩ := List.mem_flatMap.mp hInside
    obtain ⟨p, hP, hName, hTree⟩ := Named.exists_of_forall₂ hBody.forall₂_members hMember
    have hProperty : c.property? p.name = some p :=
      Named.find?_of_mem (hResolves.nodup_properties hFiles) (List.mem_of_mem_filter hP)
    rw [hName, held?_of_mem hClass hProperty] at hInner
    cases hShadowed : Decoder.isShadowed c p with
    | true => simp [hShadowed, placesUnder] at hInner
    | false =>
        rw [hShadowed, if_neg Bool.false_ne_true] at hTree hInner
        obtain ⟨value, place, hGet, hValue⟩ := hTree
        rw [hGet] at hInner
        exact (hFields _ (Table.mem_of_find? hGet)).property p place _ hValue _ hInner

omit hFiles hIndex in
theorem isWrittenThere_of_map {entries : List (Value × Value)} {target : String}
    (hEntries : ∀ entry ∈ entries, e.HasWrittenPlaces entry.2)
    (hWritten : MayWrite (e.encodeMap target path entries) tree) {place : Resource × Json}
    (hPlace : place ∈ e.places (.map entries) tree) : e.IsWrittenThere place := by
  obtain ⟨m, keyType, inserted, _, _, hInserted, rfl⟩ := hWritten.map
  rw [places_map] at hPlace
  obtain ⟨member, hMember, hInner⟩ := List.mem_flatMap.mp hPlace
  have hNames : ((Json.insertMembers inserted []).map (·.1)).Nodup :=
    Json.nodup_insertMembers (by simp)
  have hLookup := (Json.lookup_eq_some_iff hNames).mpr hMember
  rw [Json.lookup_insertMembers, List.lookup_nil, Option.or_none] at hLookup
  obtain ⟨entry, hFound, _, hItem⟩ := Json.exists_find?_of_lookup
    (fun entry member hEntry => keyName?_of_encodeValue hEntry.1)
    (List.forall₂_reverse_iff.mpr hInserted) hLookup
  have hUnder : e.itemUnder? entries member.1 = some entry.2 := by
    rw [itemUnder?, hFound, Option.map_some]
  rw [hUnder] at hInner
  have hMem := List.mem_reverse.mp (List.mem_of_find?_eq_some hFound)
  exact (hEntries entry hMem).item _ _ _ hItem.item _ hInner

omit hFiles hIndex in
theorem isWrittenThere_of_items {items : List Value} {trees : List Json}
    (hItems : ∀ item ∈ items, e.HasWrittenPlaces item)
    (hTrees : List.Forall₂ (fun item tree => ∃ place, MayWrite (e.encodeItem p place item) tree)
      items trees) {place : Resource × Json}
    (hPlace : place ∈ (List.zipWith e.places items trees).flatten) : e.IsWrittenThere place := by
  induction hTrees with
  | nil => cases hPlace
  | @cons item tree _ _ hFirst _ ih =>
      rw [List.zipWith_cons_cons, List.flatten_cons] at hPlace
      rcases List.mem_append.mp hPlace with hHere | hLater
      · obtain ⟨there, hWritten⟩ := hFirst
        exact (hItems item List.mem_cons_self).item _ _ _ hWritten.item _ hHere
      · exact ih (fun other hMem => hItems other (List.mem_cons_of_mem _ hMem)) hLater

/-- Whatever value is written, the instances in it were written at their places. -/
theorem hasWrittenPlaces (value : Value) : e.HasWrittenPlaces value := by
  induction value using Value.inductionOn_parts with
  | hParts value hItems hEntries hFields =>
      have hItem : ∀ type path tree, e.WritesItem path type value tree →
          ∀ place ∈ e.places value tree, e.IsWrittenThere place := by
        intro type path tree hItem place hPlace
        cases value with
        | concept x =>
            rcases hItem.isWrittenThere with ⟨text, rfl⟩ | ⟨declared, there, hWritten⟩
            · rw [places_text] at hPlace
              exact .inl ⟨text, by rw [List.mem_singleton.mp hPlace]⟩
            · exact isWrittenThere_of_object hFiles hIndex (hFields x rfl) hWritten hPlace
        | map entries =>
            obtain ⟨_, _, _, _, _, _, _, _, hWritten⟩ := hItem.of_map
            exact isWrittenThere_of_map (hEntries entries rfl) hWritten hPlace
        | array items =>
            cases hItem with
            | value _ hWritten => nomatch (encodeValue_eq_ok.mp hWritten).2
            | enum _ _ hWritten => cases hWritten
        | _ => simp [places_eq_nil] at hPlace
      refine ⟨hItem, fun p path tree hWritten place hPlace => ?_⟩
      rcases hWritten.property with ⟨_, hSingle⟩ | ⟨_, items, trees, rfl, rfl, hTrees⟩
      · exact hItem _ _ _ hSingle.item place hPlace
      · rw [places_array] at hPlace
        exact isWrittenThere_of_items (hItems items rfl) hTrees hPlace

end

/-- After any run of changes, and whatever the options of a writer are, whenever it writes a tree
for an instance, the tree is the object of the instance, and at the place of every instance in it
stands a text or an object that is laid out as the class of the instance says. -/
theorem isLaidOut_of_encode {changes : List Change} {options : EncodeOptions} {x : Resource}
    {json : Json} (hWritten :
      (Encoder.mk (Session.initial.run changes).registry options).encode x = .ok json) :
    let e : Encoder := ⟨(Session.initial.run changes).registry, options⟩
    (∃ members, json = .object members ∧ (x, json) ∈ e.places (.concept x) json) ∧
      ∀ y tree, (y, tree) ∈ e.places (.concept x) json → (∃ text, tree = .string text) ∨
        ∃ c members, e.registry.index.class? y.fqn = some c ∧ tree = .object members ∧
          e.IsLaidOut c y members := by
  intro e
  have hSound := Session.sound_run Session.sound_initial changes
  have hTree := mayWrite_of_encode hWritten
  obtain ⟨_, body, _, _, _, hObject⟩ := hTree.resource
  refine ⟨⟨_, hObject, ?_⟩, fun y tree hPlace => ?_⟩
  · rw [hObject, places_object]
    exact List.mem_cons_self
  · have hFields := fun field (_ : field ∈ x.values) =>
      hasWrittenPlaces (e := e) hSound.files hSound.index field.2
    rcases isWrittenThere_of_object hSound.files hSound.index hFields hTree hPlace with
      hText | ⟨declared, path, hInstance⟩
    · exact .inl hText
    · exact .inr (isLaidOut_of_mayWrite hSound.files hSound.index hInstance)

open Depot in
/-- In the tree of the yard stands the object of the car, under the text of the key that the car has
in the book. -/
theorem car_mem_places_yard : (car, carTree) ∈
    writer.places (.concept yard) (yardTree (.object [(startText, carTree)])) := by
  have hBook : writer.held? yard "book" = some (.map [(.dateTime start, .concept car)]) := rfl
  have hCar : writer.itemUnder? [(.dateTime start, .concept car)] startText =
      some (.concept car) := by
    simp [itemUnder?, keyName?, writer, EncodeOptions.default, render_start]
  rw [yardTree, places_object]
  refine List.mem_cons_of_mem _ (List.mem_flatMap.mpr
    ⟨("book", .object [(startText, carTree)]), by simp, ?_⟩)
  rw [hBook, placesUnder, Option.elim_some, places_map]
  refine List.mem_flatMap.mpr ⟨(startText, carTree), List.mem_singleton_self _, ?_⟩
  rw [hCar, placesUnder, Option.elim_some, carTree, places_object]
  exact List.mem_cons_self

open Depot in
/-- The yard and the car in it are laid out as their classes say. -/
theorem isLaidOut_yard :
    writer.encode yard = .ok (yardTree (.object [(startText, carTree)])) ∧
    writer.IsLaidOut yardClass yard [(classKey, .string "depot@1.0.0.Yard"),
      ("book", .object [(startText, carTree)]), ("spare", .string carUri)] ∧
    writer.IsLaidOut carClass car [(classKey, .string "depot@1.0.0.Car"),
      (idKey, .string carUri), ("vin", .string "V1")] := by
  have hWritten := encode_yard
  have hCar := car_mem_places_yard
  have hRegistry : writer = ⟨(Session.initial.run [.addModel ⟨model, none⟩]).registry,
      { EncodeOptions.default with deduplicate := true }⟩ := by rw [run_model, writer]
  rw [hRegistry] at hWritten hCar
  obtain ⟨⟨_, _, hYard⟩, hPlaces⟩ := isLaidOut_of_encode hWritten
  rw [← hRegistry] at hYard hPlaces hCar
  have hLaidOut {y : Resource} {c : ResolvedClass} {members : List (String × Json)}
      (hMem : (y, .object members) ∈
        writer.places (.concept yard) (yardTree (.object [(startText, carTree)])))
      (hClass : writer.registry.index.class? y.fqn = some c) : writer.IsLaidOut c y members := by
    rcases hPlaces y _ hMem with ⟨_, hText⟩ | ⟨d, _, hFound, hSame, hLaidOut⟩
    · cases hText
    · cases hSame
      rw [hClass] at hFound
      cases hFound
      exact hLaidOut
  exact ⟨encode_yard, hLaidOut hYard rfl, hLaidOut hCar rfl⟩

end Encoder

end DomainModels
