import DomainModels.Proofs.Registry.Addition
import DomainModels.Proofs.Wire.MemberOrder

/-!
Where a tree is refused.

What is read at a place of a tree is known from the places above it: an object is read as an
instance of a class, and then its members are read for the properties of this class. A tree that is
refused for its data is refused at such a place, or at one where a required property of the class
that is read there has no member.
-/

namespace DomainModels

open Outcome (FailsOnly)
open Decoder (Role className? present? isShadowed)

/-! ## Places in trees -/

namespace Json

/-- One step into a tree: a field of an object or an element of an array. -/
def step? (json : Json) : Segment → Option Json
  | .field name => json.get? name
  | .index i => json.array?.bind (·[i]?)

/-- The tree at the end of a list of steps, if all of them lead somewhere. -/
def at? (json : Json) (segments : List Segment) : Option Json := segments.foldlM step? json

variable {json inner : Json} {segments : List Segment}

theorem at?_append (json : Json) (front back : List Segment) :
    json.at? (front ++ back) = (json.at? front).bind (·.at? back) :=
  List.foldlM_append

theorem at?_concat (hAt : json.at? segments = some inner) (segment : Segment) :
    json.at? (segments ++ [segment]) = inner.step? segment := by
  rw [at?_append, hAt]
  exact bind_pure _

/-- What leads somewhere leads through places that are there. -/
theorem isSome_at?_of_prefix {front : List Segment} (hPrefix : front <+: segments)
    (hAt : (json.at? segments).isSome) : (json.at? front).isSome := by
  obtain ⟨back, rfl⟩ := hPrefix
  rw [at?_append] at hAt
  exact Option.isSome_of_isSome_bind hAt

end Json

/-- What a tree at a place is read as, where the whole tree is read as an instance. -/
inductive Registry.Visits (r : Registry) (root : Json) : List Segment → Role → Json → Prop where
  | root : Visits r root [] (.resource none) root
  | member {before : List Segment} {declared : Option String} {members : List (String × Json)}
      {fqn : String} {c : ResolvedClass} {p : ResolvedProperty} {json : Json}
      (hObject : Visits r root before (.resource declared) (.object members))
      (hName : className? declared members = some fqn) (hClass : r.index.class? fqn = some c)
      (hMem : p ∈ c.properties) (hOpen : isShadowed c p = false)
      (hPresent : present? members p.name = some json) :
      Visits r root (before ++ [.field p.name]) (.property p) json
  | single {segments : List Segment} {p : ResolvedProperty} {json : Json}
      (hProperty : Visits r root segments (.property p) json) (hSingle : p.isArray = false) :
      Visits r root segments (.item p) json
  | element {before : List Segment} {p : ResolvedProperty} {items : List Json} {i : Nat}
      {json : Json} (hProperty : Visits r root before (.property p) (.array items))
      (hArray : p.isArray = true) (hItem : items[i]? = some json) :
      Visits r root (before ++ [.index i]) (.item p) json
  | nested {segments : List Segment} {p : ResolvedProperty} {target : String}
      {members : List (String × Json)} (hItem : Visits r root segments (.item p) (.object members))
      (hRefers : r.RefersToClass p target) :
      Visits r root segments (.resource (some target)) (.object members)
  | entry {before : List Segment} {p item : ResolvedProperty} {members : List (String × Json)}
      {name : String} {json : Json} (hMap : Visits r root before (.item p) (.object members))
      (hMaps : r.HoldsMaps p item) (hMem : (name, json) ∈ members) :
      Visits r root (before ++ [.field name]) (.item item) json

/-- A place without a tree, where the class that the object around it is read as requires one. -/
inductive Registry.Requires (r : Registry) (root : Json) : List Segment → Prop where
  | property {before : List Segment} {declared : Option String} {members : List (String × Json)}
      {fqn : String} {c : ResolvedClass} {p : ResolvedProperty}
      (hObject : r.Visits root before (.resource declared) (.object members))
      (hName : className? declared members = some fqn) (hClass : r.index.class? fqn = some c)
      (hMem : p ∈ c.properties) (hRequired : p.isOptional = false)
      (hOpen : isShadowed c p = false) (hAbsent : present? members p.name = none) :
      Requires r root (before ++ [.field p.name])

/-- Data is refused at a place that is read or at one where something is required. -/
def Registry.Places (r : Registry) (root : Json) : Failure → Prop
  | .invalid _ (some path) =>
    (∃ role json, r.Visits root path.segments role json) ∨ r.Requires root path.segments
  | .invalid _ none => False
  | _ => True

theorem Decoder.present?_eq_some {members : List (String × Json)} {name : String} {json : Json} :
    present? members name = some json ↔ members.lookup name = some json ∧ json ≠ .null := by
  rw [present?, Option.filter_eq_some_iff]
  cases json <;> simp [Json.isNull]

section

variable {r : Registry} {root json : Json} {segments : List Segment} {role : Role}

/-- A place that is read is a place in the tree. -/
theorem Registry.Visits.at?_eq (hVisits : r.Visits root segments role json)
    (hWell : root.IsWellFormed) : root.at? segments = some json ∧ json.IsWellFormed := by
  induction hVisits with
  | root => exact ⟨rfl, hWell⟩
  | member _ _ _ _ _ hPresent ih =>
      obtain ⟨hAt, hObject⟩ := ih
      obtain ⟨hLookup, _⟩ := Decoder.present?_eq_some.mp hPresent
      exact ⟨(Json.at?_concat hAt _).trans hLookup,
        (Json.isWellFormed_object.mp hObject).2 _ (Json.mem_of_lookup hLookup)⟩
  | single _ _ ih => exact ih
  | element _ _ hItem ih =>
      obtain ⟨hAt, hArray⟩ := ih
      exact ⟨(Json.at?_concat hAt _).trans hItem,
        Json.isWellFormed_array.mp hArray _ (List.mem_of_getElem? hItem)⟩
  | nested _ _ ih => exact ih
  | entry _ _ hMem ih =>
      obtain ⟨hAt, hObject⟩ := ih
      obtain ⟨hNames, hMembers⟩ := Json.isWellFormed_object.mp hObject
      exact ⟨(Json.at?_concat hAt _).trans ((Json.lookup_eq_some_iff hNames).mpr hMem),
        hMembers _ hMem⟩

/-- Every place above one at which data is refused is a place in the tree. -/
theorem Registry.Places.isSome_at? {cause : Invalidity} {path : Path}
    (hPlaces : r.Places root (.invalidAt path cause)) (hWell : root.IsWellFormed)
    {front : List Segment} (hPrefix : front <+: path.segments) (hProper : front ≠ path.segments) :
    (root.at? front).isSome := by
  rcases hPlaces with ⟨_, _, hVisits⟩ | hRequires
  · exact Json.isSome_at?_of_prefix hPrefix (by simp [(hVisits.at?_eq hWell).1])
  · generalize path.segments = segments at hRequires hPrefix hProper
    cases hRequires with
    | property hObject =>
        have hBefore := (List.prefix_concat_iff.mp hPrefix).resolve_left hProper
        exact Json.isSome_at?_of_prefix hBefore (by simp [(hObject.at?_eq hWell).1])

end

namespace Decoder

variable {d : Decoder} {root json : Json} {p : ResolvedProperty} {path : Path} {c : ResolvedClass}
  {fqn : String} {declared : Option String} {members : List (String × Json)} {x : Resource}

/-- What is wrong with what is read at a place may be refused there. -/
theorem places_here {role : Role} (hVisits : d.registry.Visits root path.segments role json)
    (cause : Invalidity) (_ : cause.IsOfData) :
    d.registry.Places root (.invalidAt path cause) :=
  .inl ⟨role, json, hVisits⟩

/-! ## Properties -/

/-- If a tree is refused as an item of a property at a place, it is so at this place or in it. -/
def ItemIsPlaced (d : Decoder) (root json : Json) : Prop :=
  ∀ p path, d.registry.Visits root path.segments (.item p) json →
    FailsOnly (d.registry.Places root) (d.decodeItem p path json)

/-- And so it is with the tree of a whole property. -/
def PropertyIsPlaced (d : Decoder) (root json : Json) : Prop :=
  ∀ p path, d.registry.Visits root path.segments (.property p) json →
    FailsOnly (d.registry.Places root) (d.decodeProperty p path json)

/-- The elements of an array are refused at their own places. -/
theorem places_decodeItems {items : List Json} {i : Nat}
    (hItems : ∀ item ∈ items, ItemIsPlaced d root item)
    (hVisits : ∀ j item, items[j]? = some item →
      d.registry.Visits root (path.index (i + j)).segments (.item p) item) :
    FailsOnly (d.registry.Places root) (d.decodeItems p path i items) := by
  induction items generalizing i with
  | nil =>
      rw [decodeItems]
      exact .ok []
  | cons item rest ih =>
      rw [decodeItems]
      refine .bind (hItems item List.mem_cons_self p _ (hVisits 0 item rfl)) fun value _ => ?_
      refine .bind (ih (fun other hMem => hItems other (List.mem_cons_of_mem _ hMem)) ?_)
        fun _ _ => .ok _
      intro j other hOther
      rw [Nat.add_assoc, Nat.add_comm 1]
      exact hVisits (j + 1) other hOther

theorem propertyIsPlaced (hJson : ItemIsPlaced d root json)
    (hItems : ∀ items, json = .array items → ∀ item ∈ items, ItemIsPlaced d root item) :
    PropertyIsPlaced d root json := by
  intro p path hVisits
  unfold decodeProperty
  split
  · rename_i hArray
    split
    · rename_i items
      refine .map _ (places_decodeItems (hItems items rfl) fun j item hItem => ?_)
      rw [Nat.zero_add]
      exact .element hVisits hArray hItem
    · exact .error (places_here hVisits _ trivial)
  · rename_i hSingle
    exact hJson p path (.single hVisits (Bool.eq_false_of_not_eq_true hSingle))

/-! ## Instances -/

/-- Properties that are present have values after their members have been read, and no value is
taken away. -/
theorem contains_of_decodeMembers {properties : List ResolvedProperty} {y : Resource}
    (hRead : d.decodeMembers c path members x properties = .ok y) :
    (∀ name, x.contains name = true → y.contains name = true) ∧
      ∀ p ∈ properties, isShadowed c p = false → present? members p.name ≠ none →
        y.contains p.name = true := by
  induction properties generalizing x with
  | nil =>
      rw [decodeMembers] at hRead
      cases hRead
      exact ⟨fun _ hHas => hHas, fun p hMem => absurd hMem List.not_mem_nil⟩
  | cons p rest ih =>
      rw [decodeMembers_cons] at hRead
      split at hRead
      · obtain ⟨value, _, hRest⟩ := Outcome.bind_eq_ok.mp hRead
        obtain ⟨hKept, hRead⟩ := ih hRest
        have hSet := hKept p.name Resource.contains_set_self
        refine ⟨fun name hHas => hKept name (Resource.contains_set_of_contains hHas), ?_⟩
        exact List.forall_mem_cons.mpr ⟨fun _ _ => hSet, hRead⟩
      · rename_i hSkipped
        obtain ⟨hKept, hRead⟩ := ih hRead
        refine ⟨hKept, List.forall_mem_cons.mpr ⟨fun hOpen hPresent => ?_, hRead⟩⟩
        obtain ⟨json, hJson⟩ := Option.ne_none_iff_exists'.mp hPresent
        exact (hSkipped json hOpen hJson).elim

section

variable (hObject : d.registry.Visits root path.segments (.resource declared) (.object members))
  (hName : className? declared members = some fqn) (hClass : d.registry.index.class? fqn = some c)

include hObject hName hClass

/-- The members of an object are refused at their own places. -/
theorem places_decodeMembers (hMembers : ∀ member ∈ members, PropertyIsPlaced d root member.2)
    {properties : List ResolvedProperty} (hSome : ∀ p ∈ properties, p ∈ c.properties)
    (x : Resource) :
    FailsOnly (d.registry.Places root) (d.decodeMembers c path members x properties) := by
  induction properties generalizing x with
  | nil =>
      rw [decodeMembers]
      exact .ok x
  | cons p rest ih =>
      obtain ⟨hMem, hRest⟩ := List.forall_mem_cons.mp hSome
      rw [decodeMembers_cons]
      split
      · rename_i json hOpen hPresent
        have hFound := Json.mem_of_lookup (present?_eq_some.mp hPresent).1
        refine .bind (hMembers _ hFound p _ ?_) fun value _ => ih hRest _
        exact .member hObject hName hClass hMem hOpen hPresent
      · exact ih hRest x

/-- Where something required is missing, its member is absent or null. -/
theorem places_checkComplete {start : Resource}
    (hRead : d.decodeMembers c path members start c.properties = .ok x) :
    FailsOnly (d.registry.Places root) (checkComplete c path x) := by
  refine failsOnly_checkComplete (places_here hObject) fun p hMem hRequired hOpen hLacks => .inr ?_
  refine .property hObject hName hClass hMem hRequired hOpen ?_
  cases hPresent : present? members p.name with
  | none => rfl
  | some json =>
      have hHas := (contains_of_decodeMembers hRead).2 p hMem hOpen (by simp [hPresent])
      rw [hLacks] at hHas
      cases hHas

end

section

variable {mode : BuildMode} (hFiles : d.registry.files.IsLoaded)
  (hIndex : TypeIndex.build d.registry.files mode = .ok d.registry.index)

include hFiles hIndex

/-- What is wrong with an object that is read as an instance is refused at its place or in it. -/
theorem places_decodeResource (hMembers : ∀ member ∈ members, PropertyIsPlaced d root member.2)
    (hObject : d.registry.Visits root path.segments (.resource declared) (.object members))
    (hName : className? declared members = some fqn) :
    FailsOnly (d.registry.Places root) (d.decodeResource fqn path members) := by
  unfold decodeResource
  refine .bind (Registry.failsOnly_resolvedClass fun _ _ => trivial) fun c hOk => ?_
  have hClass := Registry.resolvedClass_eq_ok.mp hOk
  have hNamed : d.registry.index.class? (qualify c.space c.name) = some c := by
    rw [TypeIndex.qualify_of_class? hFiles hIndex hClass]
    exact hClass
  cases hAbstract : c.isAbstract with
  | true =>
      simp only [if_true]
      exact .error (places_here hObject _ trivial)
  | false =>
      simp only [Bool.false_eq_true, if_false]
      refine .bind (failsOnly_checkMembers (places_here hObject)) fun _ _ => ?_
      refine .bind (failsOnly_newInstance (fun _ _ => trivial) hNamed hAbstract) fun start _ => ?_
      refine .bind (places_decodeMembers hObject hName hClass hMembers (fun _ hMem => hMem) start)
        fun x hRead => ?_
      split
      · exact .bind (places_checkComplete hObject hName hClass hRead) fun _ _ => .ok _
      · exact .ok _

/-- So it is with an object where an instance of a class is expected. -/
theorem places_decodeNested {target : String}
    (hMembers : ∀ member ∈ members, PropertyIsPlaced d root member.2)
    (hItem : d.registry.Visits root path.segments (.item p) (.object members))
    (hRefers : d.registry.RefersToClass p target) :
    FailsOnly (d.registry.Places root) (d.decodeNested target path members) := by
  unfold decodeNested
  simp only
  split
  · exact places_decodeResource hFiles hIndex hMembers (.nested hItem hRefers)
      (className?_some target members)
  · exact .error (places_here hItem _ trivial)

omit hFiles hIndex in
/-- The entries of a map are refused at their own places, for their keys as well. -/
theorem places_decodeEntries {item : ResolvedProperty} {keyType : ValueType}
    (hMap : d.registry.Visits root path.segments (.item p) (.object members))
    (hMaps : d.registry.HoldsMaps p item) {entries : List (String × Json)}
    (hSome : ∀ entry ∈ entries, entry ∈ members)
    (hEntries : ∀ entry ∈ entries, ItemIsPlaced d root entry.2) :
    FailsOnly (d.registry.Places root) (d.decodeEntries keyType item path entries) := by
  induction entries with
  | nil =>
      rw [decodeEntries]
      exact .ok []
  | cons entry rest ih =>
      obtain ⟨name, json⟩ := entry
      obtain ⟨hMem, hSomeRest⟩ := List.forall_mem_cons.mp hSome
      obtain ⟨hEntry, hEntriesRest⟩ := List.forall_mem_cons.mp hEntries
      have hRest := ih hSomeRest hEntriesRest
      have hVisits : d.registry.Visits root (path.field name).segments (.item item) json :=
        .entry hMap hMaps hMem
      rw [decodeEntries]
      split
      · exact hRest
      · refine .bind (failsOnly_decodeValue (places_here hVisits)) fun key _ => ?_
        refine .bind (hEntry item _ hVisits) fun value _ => ?_
        exact .bind hRest fun _ _ => .ok _

omit hFiles hIndex in
theorem places_decodeMap {target : String}
    (hItem : d.registry.Visits root path.segments (.item p) (.object members))
    (hMembers : ∀ member ∈ members, ItemIsPlaced d root member.2)
    (hMaps : ∀ m, d.registry.index.map? target = some m → d.registry.HoldsMaps p m.value) :
    FailsOnly (d.registry.Places root) (d.decodeMap target path members) := by
  unfold decodeMap
  refine .bind (Registry.failsOnly_resolvedMap fun _ _ => trivial) fun m hOk => ?_
  have hMap := Registry.resolvedMap_eq_ok.mp hOk
  split
  · exact .error (places_here hItem _ trivial)
  · exact .map _ (places_decodeEntries hItem (hMaps m hMap) (fun _ hMem => hMem) hMembers)

/-- What is wrong with an item is refused at its place or in it. -/
theorem itemIsPlaced (hMembers : ∀ members, json = .object members → ∀ member ∈ members,
      ItemIsPlaced d root member.2 ∧ PropertyIsPlaced d root member.2) :
    ItemIsPlaced d root json := by
  intro p path hVisits
  have hHere := places_here hVisits
  unfold decodeItem
  cases hType : p.type with
  | value type => exact failsOnly_decodeValue hHere
  | scalar target type => exact failsOnly_decodeValue hHere
  | relationship target =>
      cases json with
      | string text => exact failsOnly_decodePointer hHere
      | object members =>
          simp only
          split
          · exact .map _ (places_decodeNested hFiles hIndex
              (fun member hMem => (hMembers _ rfl member hMem).2) hVisits (.inl hType))
          · exact .error (hHere _ trivial)
      | _ => exact .error (hHere _ trivial)
  | declared target default =>
      refine .bind (Registry.failsOnly_getType fun _ _ => trivial) fun declaration hFound => ?_
      cases hBody : declaration.body with
      | classBody body =>
          cases json with
          | object members =>
              exact .map _ (places_decodeNested hFiles hIndex
                (fun member hMem => (hMembers _ rfl member hMem).2) hVisits
                (.inr ⟨default, declaration, body, hType, hFound, hBody⟩))
          | _ => exact .error (hHere _ trivial)
      | enumBody values =>
          exact failsOnly_decodeEnum hHere
      | mapBody key value =>
          cases json with
          | object members =>
              refine places_decodeMap hVisits (fun member hMem => (hMembers _ rfl member hMem).1)
                fun m hMap => ?_
              exact ⟨target, default, declaration, key, value, m, hType, hFound, hBody, hMap, rfl⟩
          | _ => exact .error (hHere _ trivial)
      | scalarBody type => exact .error (.inl ⟨_, _, hVisits⟩)

/-- Whatever is read in a tree, it is refused at its own place or in it. -/
theorem isPlaced (root json : Json) : ItemIsPlaced d root json ∧ PropertyIsPlaced d root json := by
  induction json using Json.inductionOn_parts with
  | hParts json hItems hMembers =>
      have hItem := itemIsPlaced hFiles hIndex hMembers
      exact ⟨hItem, propertyIsPlaced hItem fun items hJson item hMem =>
        (hItems items hJson item hMem).1⟩

/-- A tree that names its class is refused at a place that is read or at one where something is
required. -/
theorem places_decode {fqn : String}
    (hNamed : (json.get? classKey).bind Json.string? = some fqn) :
    FailsOnly (d.registry.Places json) (d.decode json) := by
  cases json with
  | object members =>
      have hFqn : (members.lookup classKey).bind Json.string? = some fqn := hNamed
      have hRoot : d.registry.Visits (.object members) Path.root.segments (.resource none)
          (.object members) := .root
      simp only [decode, hFqn]
      refine places_decodeResource hFiles hIndex
        (fun member _ => (isPlaced hFiles hIndex _ member.2).2) hRoot ?_
      rw [className?, hFqn]
      rfl
  | _ => cases hNamed

end

/-- Whatever was asked of a registry, a tree that names its class and is refused for its data is
refused at a path. It leads through places that are there, and to a place that is there or to a
required property of the class that the object before it is read as, whose member is absent or
null. -/
theorem exists_path_of_decode {changes : List Change}
    (hRegistry : d.registry = (Session.initial.run changes).registry)
    (hWell : json.IsWellFormed) {fqn : String}
    (hNamed : (json.get? classKey).bind Json.string? = some fqn) {cause : Invalidity}
    {found : Option Path} (hRefused : d.decode json = .error (.invalid cause found)) :
    ∃ path, found = some path ∧
      (∀ front, front <+: path.segments → front ≠ path.segments → (json.at? front).isSome) ∧
      ((json.at? path.segments).isSome ∨ d.registry.Requires json path.segments) := by
  have hSound := Session.sound_run Session.sound_initial changes
  have hPlaces := places_decode (hRegistry ▸ hSound.files) (hRegistry ▸ hSound.index) hNamed _
    hRefused
  cases found with
  | none => exact hPlaces.elim
  | some path =>
      refine ⟨path, rfl, fun front => Registry.Places.isSome_at? hPlaces hWell, ?_⟩
      refine hPlaces.imp_left ?_
      rintro ⟨_, _, hVisits⟩
      simp [(hVisits.at?_eq hWell).1]

end Decoder

namespace Post

/-- What reads parcels, with the default options. -/
def reader : Decoder := .standard registry ⟨0, 0, 0⟩

/-- A parcel whose route goes from a town to a number. -/
def strayMembers : List (String × Json) :=
  [(classKey, .string "post@1.0.0.Tracked"), (identifierField, .string "P1"), ("weight", .int 2),
   ("route", .array [.string "Bern", .int 7])]

theorem isWellFormed_strayMembers : (Json.object strayMembers).IsWellFormed := by
  have hRoute : (Json.array [.string "Bern", .int 7]).IsWellFormed :=
    Json.isWellFormed_array.mpr
      (List.forall_mem_cons.mpr ⟨.string _, List.forall_mem_singleton.mpr (.int _)⟩)
  refine Json.isWellFormed_object.mpr ⟨by decide, ?_⟩
  simp only [strayMembers, List.forall_mem_cons]
  exact ⟨.string _, .string _, .int _, hRoute, by simp⟩

/-- The second stop is no text. -/
theorem decode_strayMembers : reader.decode (.object strayMembers) =
    .error (.wrongType ((Path.root.field "route").index 1) "String") := by
  have hRoute : reader.decodeProperty route (Path.root.field "route")
      (.array [.string "Bern", .int 7]) =
        .error (.wrongType ((Path.root.field "route").index 1) "String") := by
    rw [Decoder.decodeProperty, if_pos (show route.isArray = true from rfl)]
    simp only [Decoder.decodeItems, Decoder.decodeItem]
    rfl
  have hMembers (start : Resource) :
      reader.decodeMembers tracked .root strayMembers start tracked.properties =
        .error (.wrongType ((Path.root.field "route").index 1) "String") := by
    rw [show tracked.properties = [route, identifier, weight] from rfl, Decoder.decodeMembers_cons]
    show (reader.decodeProperty route (Path.root.field "route") _ >>= _) = _
    rw [hRoute]
    rfl
  obtain ⟨start, hNew⟩ : ∃ start, reader.newInstance tracked strayMembers = .ok start := ⟨_, rfl⟩
  show reader.decodeResource tracked.fqn .root strayMembers = _
  rw [Decoder.decodeResource, show reader.registry.resolvedClass tracked.fqn = .ok tracked from rfl]
  show (reader.newInstance tracked strayMembers >>= fun x => do
    let x ← reader.decodeMembers tracked .root strayMembers x tracked.properties
    Decoder.checkComplete tracked .root x
    return x) = _
  rw [hNew]
  show (reader.decodeMembers tracked .root strayMembers start tracked.properties >>= _) = _
  rw [hMembers]
  rfl

end Post

/-- The path leads from the parcel to its route, and there to the second stop. -/
theorem Decoder.exists_path_of_strayMembers :
    (Json.object Post.strayMembers).IsWellFormed ∧
    ((Json.object Post.strayMembers).get? classKey).bind Json.string? =
      some "post@1.0.0.Tracked" ∧
    Post.reader.decode (.object Post.strayMembers) =
      .error (.wrongType ((Path.root.field "route").index 1) "String") ∧
    ((Json.object Post.strayMembers).at? [.field "route"]).isSome ∧
    (Json.object Post.strayMembers).at? [.field "route", .index 1] = some (.int 7) := by
  obtain ⟨path, hPath, hFront, _⟩ := exists_path_of_decode (d := Post.reader)
    Post.run_model.symm Post.isWellFormed_strayMembers rfl Post.decode_strayMembers
  obtain rfl := Option.some.inj hPath
  refine ⟨Post.isWellFormed_strayMembers, rfl, Post.decode_strayMembers, ?_, rfl⟩
  exact hFront [.field "route"] ⟨[.index 1], rfl⟩ (by decide)

end DomainModels
