import DomainModels.Proofs.Wire.Pointers
import DomainModels.Proofs.Wire.RoundTrip

/-!
Options that ask for less.

Where the checks are left out, where date-times need no offset any more, and where instances may
stand for pointers, everything that has been read or written before is read or written as it was:
the options decide what is refused, and never what comes of the rest. The statements go place by
place over the same tree, or over the same value, under both options.
-/

namespace DomainModels

open Outcome (Survives)

/-! ## Reading -/

/-- Options that refuse nothing that others accept: they check no more, they accept objects as
pointers if the others do, and they read date-times as the others do unless these insist on
offsets. -/
structure DecodeOptions.Relaxes (loose tight : DecodeOptions) : Prop where
  validate : loose.validate = true → tight.validate = true
  acceptResources : tight.acceptResources = true → loose.acceptResources = true
  dateTimes : tight.strictDateTimes = true ∨
    loose.strictDateTimes = tight.strictDateTimes ∧ loose.utcOffset = tight.utcOffset

namespace DecodeOptions

variable (options : DecodeOptions)

theorem relaxes_unvalidated : Relaxes { options with validate := false } options :=
  ⟨nofun, id, .inr ⟨rfl, rfl⟩⟩

theorem relaxes_accepting : Relaxes { options with acceptResources := true } options :=
  ⟨id, fun _ => rfl, .inr ⟨rfl, rfl⟩⟩

/-- Where date-times needed an offset, those without one may be read at any. -/
theorem relaxes_lenient (hStrict : options.strictDateTimes = true) (utcOffset : Int) :
    Relaxes { options with strictDateTimes := false, utcOffset } options :=
  ⟨id, id, .inl hStrict⟩

end DecodeOptions

namespace DateTime

/-- A text of the strict form is read alike in both forms, at whatever offset others are read. -/
theorem parse?_of_strict {text : String} {offset : Int} {t : DateTime}
    (hRead : parse? text true offset = some t) (strict : Bool) (other : Int) :
    parse? text strict other = some t := by
  unfold parse? at hRead ⊢
  rw [if_pos rfl] at hRead
  cases strict with
  | true => exact hRead
  | false =>
      split at hRead
      · rw [if_neg Bool.false_ne_true, hRead, Option.some_or]
      · cases hRead

end DateTime

namespace Decoder

variable {r : Registry} {now : DateTime} {loose tight : DecodeOptions} {p : ResolvedProperty}
  {path : Path} {json : Json} {members : List (String × Json)}

section
variable (hRelaxes : loose.Relaxes tight)
include hRelaxes

theorem primitive?_of_relaxes {type : PrimitiveType} {value : Value}
    (hRead : primitive? ⟨r, now, tight⟩ type json = some value) :
    primitive? ⟨r, now, loose⟩ type json = some value := by
  cases type with
  | dateTime =>
      obtain ⟨t, hText, rfl⟩ := Option.map_eq_some_iff.mp hRead
      obtain ⟨text, hString, hParse⟩ := Option.bind_eq_some_iff.mp hText
      refine Option.map_eq_some_iff.mpr ⟨t, Option.bind_eq_some_iff.mpr ⟨text, hString, ?_⟩, rfl⟩
      rcases hRelaxes.dateTimes with hStrict | ⟨hSame, hOffset⟩
      · rw [hStrict] at hParse
        exact DateTime.parse?_of_strict hParse _ _
      · rw [hSame, hOffset]
        exact hParse
  | _ => exact hRead

theorem survives_decodeValue (type : ValueType) (path : Path) (json : Json) :
    Survives (decodeValue ⟨r, now, tight⟩ type path json)
      (decodeValue ⟨r, now, loose⟩ type path json) := by
  unfold decodeValue
  cases hTight : primitive? ⟨r, now, tight⟩ type.primitive json with
  | none => exact .error _ _
  | some value =>
      rw [primitive?_of_relaxes hRelaxes hTight]
      exact .unguarded hRelaxes.validate (.refl _)

theorem survives_decodeEnum (fqn : String) (values : List EnumValue) (path : Path) (json : Json) :
    Survives (decodeEnum ⟨r, now, tight⟩ fqn values path json)
      (decodeEnum ⟨r, now, loose⟩ fqn values path json) := by
  unfold decodeEnum
  cases json.string? with
  | none => exact .refl _
  | some name => exact .unrefused hRelaxes.validate (.refl _)

theorem survives_decodePointer (declared : String) (path : Path) (text : String) :
    Survives (decodePointer ⟨r, now, tight⟩ declared path text)
      (decodePointer ⟨r, now, loose⟩ declared path text) := by
  unfold decodePointer
  simp only
  split
  · exact .refl _
  · exact .unrefused hRelaxes.validate (.refl _)

end

/-! ### Trees -/

/-- What is read from a tree as an item under tight options, is read so under loose ones. -/
def KeepsItem (r : Registry) (now : DateTime) (tight loose : DecodeOptions) (json : Json) : Prop :=
  ∀ p path, Survives (decodeItem ⟨r, now, tight⟩ p path json)
    (decodeItem ⟨r, now, loose⟩ p path json)

/-- What is read from a tree as a property under tight options, is read so under loose ones. -/
def KeepsProperty (r : Registry) (now : DateTime) (tight loose : DecodeOptions) (json : Json) :
    Prop :=
  ∀ p path, Survives (decodeProperty ⟨r, now, tight⟩ p path json)
    (decodeProperty ⟨r, now, loose⟩ p path json)

theorem survives_decodeItems {items : List Json}
    (hItems : ∀ item ∈ items, KeepsItem r now tight loose item) (p : ResolvedProperty) (path : Path)
    (i : Nat) : Survives (decodeItems ⟨r, now, tight⟩ p path i items)
      (decodeItems ⟨r, now, loose⟩ p path i items) := by
  induction items generalizing i with
  | nil =>
      rw [decodeItems, decodeItems]
      exact .refl _
  | cons item rest ih =>
      rw [decodeItems, decodeItems]
      refine .bind (hItems item List.mem_cons_self p _) fun value => ?_
      exact .bind (ih (fun other hMem => hItems other (List.mem_cons_of_mem _ hMem)) _)
        fun _ => .refl _

theorem keepsProperty (hItem : KeepsItem r now tight loose json)
    (hItems : ∀ items, json = .array items → ∀ item ∈ items, KeepsItem r now tight loose item) :
    KeepsProperty r now tight loose json := by
  intro p path
  rw [decodeProperty.eq_def, decodeProperty.eq_def]
  split
  · cases json with
    | array items => exact .map _ (survives_decodeItems (hItems items rfl) p path 0)
    | _ => exact .refl _
  · exact hItem p path

theorem survives_decodeMembers
    (hMembers : ∀ member ∈ members, KeepsProperty r now tight loose member.2) (c : ResolvedClass)
    (path : Path) (properties : List ResolvedProperty) (x : Resource) :
    Survives (decodeMembers ⟨r, now, tight⟩ c path members x properties)
      (decodeMembers ⟨r, now, loose⟩ c path members x properties) := by
  induction properties generalizing x with
  | nil =>
      rw [decodeMembers, decodeMembers]
      exact .refl _
  | cons p rest ih =>
      rw [decodeMembers, decodeMembers]
      split
      · exact ih x
      · split
        · exact ih x
        · exact ih x
        · rename_i json _ hLookup
          exact .bind (hMembers _ (Json.mem_of_lookup hLookup) p _) fun value => ih _

/-- The members of an object that were read into an instance are read into it, if what stands below
them is read as it was. -/
theorem survives_decodeResource (hRelaxes : loose.Relaxes tight)
    (hMembers : ∀ member ∈ members, KeepsProperty r now tight loose member.2) (fqn : String)
    (path : Path) : Survives (decodeResource ⟨r, now, tight⟩ fqn path members)
      (decodeResource ⟨r, now, loose⟩ fqn path members) := by
  rw [decodeResource, decodeResource]
  refine .after fun c => ?_
  cases hAbstract : c.isAbstract with
  | true => exact .error _ _
  | false =>
      refine .after fun _ => .after fun start => ?_
      exact .bind (survives_decodeMembers hMembers c path _ start) fun x =>
        .unguarded hRelaxes.validate (.refl _)

theorem survives_decodeNested (hRelaxes : loose.Relaxes tight)
    (hMembers : ∀ member ∈ members, KeepsProperty r now tight loose member.2) (declared : String)
    (path : Path) : Survives (decodeNested ⟨r, now, tight⟩ declared path members)
      (decodeNested ⟨r, now, loose⟩ declared path members) := by
  rw [decodeNested, decodeNested]
  simp only
  split
  · exact survives_decodeResource hRelaxes hMembers _ path
  · exact .refl _

theorem survives_decodeMap (hRelaxes : loose.Relaxes tight)
    (hMembers : ∀ member ∈ members, KeepsItem r now tight loose member.2) (target : String)
    (path : Path) : Survives (decodeMap ⟨r, now, tight⟩ target path members)
      (decodeMap ⟨r, now, loose⟩ target path members) := by
  have hEntries (keyType : ValueType) (value : ResolvedProperty) :
      Survives (decodeEntries ⟨r, now, tight⟩ keyType value path members)
        (decodeEntries ⟨r, now, loose⟩ keyType value path members) := by
    induction members with
    | nil =>
        rw [decodeEntries, decodeEntries]
        exact .refl _
    | cons member rest ih =>
        have hRest := ih fun other hMem => hMembers other (List.mem_cons_of_mem _ hMem)
        rw [decodeEntries, decodeEntries]
        split
        · exact hRest
        · refine .bind (survives_decodeValue hRelaxes _ _ _) fun key => ?_
          refine .bind (hMembers member List.mem_cons_self value _) fun item => ?_
          exact .bind hRest fun _ => .refl _
  rw [decodeMap, decodeMap]
  refine .after fun m => ?_
  split
  · exact .refl _
  · exact .map _ (hEntries _ _)

/-- A tree is read as it was if this is so for the trees below it. -/
theorem keepsItem_of_members (hRelaxes : loose.Relaxes tight)
    (hMembers : ∀ members, json = .object members → ∀ member ∈ members,
      KeepsItem r now tight loose member.2 ∧ KeepsProperty r now tight loose member.2) :
    KeepsItem r now tight loose json := by
  intro p path
  have hNested {members : List (String × Json)} (hJson : json = .object members)
      (declared : String) : Survives (decodeNested ⟨r, now, tight⟩ declared path members)
        (decodeNested ⟨r, now, loose⟩ declared path members) :=
    survives_decodeNested hRelaxes (fun member hMem => (hMembers _ hJson member hMem).2) declared
      path
  rw [decodeItem.eq_def, decodeItem.eq_def]
  cases p.type with
  | value type | scalar fqn type => exact survives_decodeValue hRelaxes type path json
  | relationship target =>
      cases json with
      | string text => exact survives_decodePointer hRelaxes target path text
      | object members =>
          cases hAccepts : tight.acceptResources with
          | true =>
              simp only [hRelaxes.acceptResources hAccepts, if_true]
              exact .map _ (hNested rfl target)
          | false => exact .error _ _
      | _ => exact .refl _
  | declared target default =>
      refine .after fun d => ?_
      cases d.body with
      | enumBody values => exact survives_decodeEnum hRelaxes target values path json
      | scalarBody type => exact .refl _
      | classBody body =>
          cases json with
          | object members => exact .map _ (hNested rfl target)
          | _ => exact .refl _
      | mapBody key value =>
          cases json with
          | object members =>
              exact survives_decodeMap hRelaxes
                (fun member hMem => (hMembers _ rfl member hMem).1) target path
          | _ => exact .refl _

/-- Every tree that was read is read as it was. -/
theorem keepsItem (hRelaxes : loose.Relaxes tight) (json : Json) :
    KeepsItem r now tight loose json ∧ KeepsProperty r now tight loose json := by
  induction json using Json.inductionOn_parts with
  | hParts json hItems hMembers =>
      have hItem := keepsItem_of_members hRelaxes hMembers
      exact ⟨hItem, keepsProperty hItem fun items hJson item hMem =>
        (hItems items hJson item hMem).1⟩

theorem survives_decode (hRelaxes : loose.Relaxes tight) (json : Json) :
    Survives (decode ⟨r, now, tight⟩ json) (decode ⟨r, now, loose⟩ json) := by
  unfold decode
  split
  · split
    · exact survives_decodeResource hRelaxes (fun member _ => (keepsItem hRelaxes member.2).2) _ _
    · exact .refl _
  · exact .refl _

end Decoder

/-! ## Writing -/

/-- Options that refuse nothing that others accept: they check no more, and they embed instances
where a pointer is declared if the others do. In all else they are the same. -/
structure EncodeOptions.Relaxes (loose tight : EncodeOptions) : Prop where
  validate : loose.validate = true → tight.validate = true
  permitResources : tight.permitResources = true → loose.permitResources = true
  pointToResources : loose.pointToResources = tight.pointToResources
  deduplicate : loose.deduplicate = tight.deduplicate
  bareIdentifiers : loose.bareIdentifiers = tight.bareIdentifiers
  utcOffset : loose.utcOffset = tight.utcOffset

namespace EncodeOptions

variable (options : EncodeOptions)

theorem relaxes_unvalidated : Relaxes { options with validate := false } options :=
  ⟨nofun, id, rfl, rfl, rfl, rfl⟩

theorem relaxes_permitting : Relaxes { options with permitResources := true } options :=
  ⟨id, fun _ => rfl, rfl, rfl, rfl, rfl⟩

end EncodeOptions

namespace Encoder

/-! ### Steps -/

section

variable {α β : Type}

/-- Whatever one way of writing comes to, another one comes to it, too, whichever instances have
been seen before; and then both have seen the same ones. -/
def Covers (w w' : Writing α) : Prop := ∀ seen, Survives (w seen) (w' seen)

namespace Covers

theorem refl (w : Writing α) : Covers w w := fun _ => .refl _

theorem refused (failure : Failure) (w : Writing α) : Covers (throw failure) w :=
  fun _ => .error _ _

theorem lift {x y : Except Failure α} (h : Survives x y) :
    Covers (liftM x : Writing α) (liftM y) := by
  rintro seen ⟨a, later⟩ hRun
  obtain ⟨hX, rfl⟩ := runs_lift.mp hRun
  exact runs_lift.mpr ⟨h a hX, rfl⟩

theorem bind {w w' : Writing α} {next next' : α → Writing β} (hFirst : Covers w w')
    (hRest : ∀ a, Covers (next a) (next' a)) : Covers (w >>= next) (w' >>= next') := by
  rintro seen ⟨b, later⟩ hRun
  obtain ⟨a, middle, hW, hNext⟩ := runs_bind.mp hRun
  exact runs_bind.mpr ⟨a, middle, hFirst seen _ hW, hRest a middle _ hNext⟩

/-- Both ways of writing may begin with the same step. -/
theorem after {w : Writing α} {next next' : α → Writing β}
    (hRest : ∀ a, Covers (next a) (next' a)) : Covers (w >>= next) (w >>= next') :=
  bind (refl w) hRest

/-- A check that is made first may be left out. -/
theorem unguarded {strict lax : Bool} {check : Except Failure Unit} {next next' : Unit → Writing α}
    (hLax : lax = true → strict = true) (hRest : Covers (next ()) (next' ())) :
    Covers (if strict = true then liftM check >>= next else next ())
      (if lax = true then liftM check >>= next' else next' ()) := by
  rintro seen ⟨a, later⟩ hRun
  obtain ⟨hCheck, hNext⟩ := runs_guard.mp hRun
  exact runs_guard.mpr ⟨fun h => hCheck (hLax h), hRest seen _ hNext⟩

/-- A fault for which one looks may be passed over. -/
theorem unrefused {strict lax faulty : Bool} {failure : Failure} {w w' : Writing α}
    (hLax : lax = true → strict = true) (hRest : Covers w w') :
    Covers (do
        if strict && faulty then throw failure
        w)
      (do
        if lax && faulty then throw failure
        w') := by
  cases faulty with
  | false => simpa using hRest
  | true =>
      cases strict with
      | true => exact refused failure _
      | false =>
          cases lax with
          | true => cases hLax rfl
          | false => exact hRest

end Covers

end

variable {r : Registry} {loose tight : EncodeOptions} {path : Path} {value : Value} {x : Resource}

/-! ### Values -/

section
variable (hRelaxes : loose.Relaxes tight)
include hRelaxes

theorem survives_encodeValue (type : ValueType) (path : Path) (value : Value) :
    Survives (encodeValue ⟨r, tight⟩ type path value)
      (encodeValue ⟨r, loose⟩ type path value) := by
  unfold encodeValue
  refine .unguarded hRelaxes.validate ?_
  simp only [hRelaxes.utcOffset]
  exact .refl _

theorem survives_encodeEnum (fqn : String) (values : List EnumValue) (path : Path)
    (value : Value) : Survives (encodeEnum ⟨r, tight⟩ fqn values path value)
      (encodeEnum ⟨r, loose⟩ fqn values path value) := by
  unfold encodeEnum
  split
  · exact .unrefused hRelaxes.validate (.refl _)
  · exact .unrefused hRelaxes.validate (.refl _)
  · exact .refl _

theorem pointerText_of_relaxes (pointer : Relationship) :
    pointerText ⟨r, loose⟩ pointer = pointerText ⟨r, tight⟩ pointer := by
  simp only [pointerText, hRelaxes.bareIdentifiers]

theorem survives_encodePointer (declared : String) (path : Path) (pointer : Relationship) :
    Survives (encodePointer ⟨r, tight⟩ declared path pointer)
      (encodePointer ⟨r, loose⟩ declared path pointer) := by
  unfold encodePointer
  rw [pointerText_of_relaxes hRelaxes]
  exact .unrefused hRelaxes.validate (.refl _)

end

/-! ### Instances -/

/-- What is written for a value as an item under tight options, is written so under loose ones. -/
def KeepsWritten (r : Registry) (tight loose : EncodeOptions) (value : Value) : Prop :=
  ∀ p path, Covers (encodeItem ⟨r, tight⟩ p path value) (encodeItem ⟨r, loose⟩ p path value)

/-- What is written for a value as a property under tight options, is written so under loose
ones. -/
def PropertyKeepsWritten (r : Registry) (tight loose : EncodeOptions) (value : Value) : Prop :=
  ∀ p path, Covers (encodeProperty ⟨r, tight⟩ p path value) (encodeProperty ⟨r, loose⟩ p path value)

theorem propertyKeepsWritten (hItem : KeepsWritten r tight loose value)
    (hItems : ∀ items, value = .array items → ∀ item ∈ items, KeepsWritten r tight loose item) :
    PropertyKeepsWritten r tight loose value := by
  intro p path
  have hEach {items : List Value} (hAll : ∀ item ∈ items, KeepsWritten r tight loose item)
      (i : Nat) : Covers (encodeItems ⟨r, tight⟩ p path i items)
        (encodeItems ⟨r, loose⟩ p path i items) := by
    induction items generalizing i with
    | nil =>
        rw [encodeItems, encodeItems]
        exact .refl _
    | cons item rest ih =>
        rw [encodeItems, encodeItems]
        refine .bind (hAll item List.mem_cons_self p _) fun json => ?_
        exact .bind (ih (fun other hMem => hAll other (List.mem_cons_of_mem _ hMem)) _)
          fun _ => .refl _
  rw [encodeProperty.eq_def, encodeProperty.eq_def]
  split
  · cases value with
    | array items => exact .bind (hEach (hItems items rfl) 0) fun _ => .refl _
    | _ => exact .refl _
  · exact hItem p path

theorem covers_encodeMembers (hRelaxes : loose.Relaxes tight)
    (hFields : ∀ field ∈ x.values, PropertyKeepsWritten r tight loose field.2) (c : ResolvedClass)
    (path : Path) (properties : List ResolvedProperty) :
    Covers (encodeMembers ⟨r, tight⟩ c path x properties)
      (encodeMembers ⟨r, loose⟩ c path x properties) := by
  induction properties with
  | nil =>
      rw [encodeMembers, encodeMembers]
      exact .refl _
  | cons p rest ih =>
      cases hShadowed : Decoder.isShadowed c p with
      | true =>
          rw [encodeMembers_shadowed hShadowed, encodeMembers_shadowed hShadowed]
          exact .bind ih fun _ => .refl _
      | false =>
          cases hGet : x.get? p.name with
          | none =>
              rw [encodeMembers_absent hShadowed hGet, encodeMembers_absent hShadowed hGet]
              exact .unrefused hRelaxes.validate ih
          | some value =>
              rw [encodeMembers_held hShadowed hGet, encodeMembers_held hShadowed hGet]
              refine .bind (hFields _ (Table.mem_of_find? hGet) p _) fun json => ?_
              exact .bind ih fun _ => .refl _

/-- An instance is written as it was if this is so for the values that it holds. -/
theorem covers_encodeResource (hRelaxes : loose.Relaxes tight)
    (hFields : ∀ field ∈ x.values, PropertyKeepsWritten r tight loose field.2)
    (declared : Option String) (path : Path) : Covers (encodeResource ⟨r, tight⟩ declared path x)
      (encodeResource ⟨r, loose⟩ declared path x) := by
  rintro seen ⟨json, later⟩ hRun
  obtain ⟨c, members, hFound, hChecked, hMembers, rfl⟩ := runs_encodeResource.mp hRun
  refine runs_encodeResource.mpr ⟨c, members, hFound, fun h => hChecked (hRelaxes.validate h),
    covers_encodeMembers hRelaxes hFields c path _ _ _ hMembers, ?_⟩
  simp only [headMembers, hRelaxes.deduplicate]

theorem covers_encodePointee (hRelaxes : loose.Relaxes tight)
    (hFields : ∀ field ∈ x.values, PropertyKeepsWritten r tight loose field.2) (target : String)
    (path : Path) : Covers (encodePointee ⟨r, tight⟩ target path x)
      (encodePointee ⟨r, loose⟩ target path x) := by
  rw [encodePointee, encodePointee]
  simp only [hRelaxes.pointToResources, pointerText_of_relaxes hRelaxes]
  split
  · exact .refl _
  · cases hPermits : tight.permitResources with
    | false => exact .refused _ _
    | true =>
        simp only [hRelaxes.permitResources hPermits]
        refine .after fun seen => ?_
        split
        · exact .refl _
        · exact covers_encodeResource hRelaxes hFields _ path

theorem covers_encodeMap (hRelaxes : loose.Relaxes tight) {entries : List (Value × Value)}
    (hEntries : ∀ entry ∈ entries, KeepsWritten r tight loose entry.2) (target : String)
    (path : Path) : Covers (encodeMap ⟨r, tight⟩ target path entries)
      (encodeMap ⟨r, loose⟩ target path entries) := by
  have hEach (keyType : ValueType) (value : ResolvedProperty) (members : List (String × Json)) :
      Covers (encodeEntries ⟨r, tight⟩ keyType value path members entries)
        (encodeEntries ⟨r, loose⟩ keyType value path members entries) := by
    induction entries generalizing members with
    | nil =>
        rw [encodeEntries, encodeEntries]
        exact .refl _
    | cons entry rest ih =>
        have hRest := ih fun other hMem => hEntries other (List.mem_cons_of_mem _ hMem)
        rw [encodeEntries, encodeEntries]
        refine .bind (.lift (survives_encodeValue hRelaxes _ _ _)) fun key => ?_
        split
        · exact .bind (hEntries entry List.mem_cons_self value _) fun json => hRest _
        · exact .refl _
  rw [encodeMap, encodeMap]
  refine .after fun m => ?_
  split
  · exact .refl _
  · exact .bind (hEach _ _ _) fun _ => .refl _

/-- A value is written as it was if this is so for the values below it. -/
theorem keepsWritten_of_parts (hRelaxes : loose.Relaxes tight)
    (hEntries : ∀ entries, value = .map entries → ∀ entry ∈ entries,
      KeepsWritten r tight loose entry.2)
    (hFields : ∀ x, value = .concept x → ∀ field ∈ x.values,
      PropertyKeepsWritten r tight loose field.2) :
    KeepsWritten r tight loose value := by
  intro p path
  rw [encodeItem.eq_def, encodeItem.eq_def]
  cases p.type with
  | value type | scalar fqn type => exact .lift (survives_encodeValue hRelaxes type path value)
  | relationship target =>
      cases value with
      | relationship pointer => exact .lift (survives_encodePointer hRelaxes target path pointer)
      | concept x => exact covers_encodePointee hRelaxes (hFields x rfl) target path
      | _ => exact .refl _
  | declared target default =>
      refine .after fun d => ?_
      cases d.body with
      | enumBody values => exact .lift (survives_encodeEnum hRelaxes target values path value)
      | scalarBody type => exact .refl _
      | classBody body =>
          cases value with
          | concept x =>
              simp only [hRelaxes.deduplicate]
              refine .after fun seen => ?_
              cases if tight.deduplicate = true then writtenPointer? seen x else none with
              | some pointer => exact .refl _
              | none => exact covers_encodeResource hRelaxes (hFields x rfl) _ path
          | _ => exact .refl _
      | mapBody key mapped =>
          cases value with
          | map entries => exact covers_encodeMap hRelaxes (hEntries entries rfl) target path
          | _ => exact .refl _

/-- Every value that was written is written as it was. -/
theorem keepsWritten (hRelaxes : loose.Relaxes tight) (value : Value) :
    KeepsWritten r tight loose value ∧ PropertyKeepsWritten r tight loose value := by
  induction value using Value.inductionOn_parts with
  | hParts value hItems hEntries hFields =>
      have hItem : KeepsWritten r tight loose value :=
        keepsWritten_of_parts hRelaxes
          (fun entries hMap entry hMem => (hEntries entries hMap entry hMem).1)
          fun x hConcept field hMem => (hFields x hConcept field hMem).2
      exact ⟨hItem, propertyKeepsWritten hItem fun items hArray item hMem =>
        (hItems items hArray item hMem).1⟩

theorem survives_encode (hRelaxes : loose.Relaxes tight) (x : Resource) :
    Survives (encode ⟨r, tight⟩ x) (encode ⟨r, loose⟩ x) := by
  have hCovers := covers_encodeResource (r := r) hRelaxes (x := x)
    (fun field _ => (keepsWritten hRelaxes field.2).2) none .root
  exact .map Prod.fst (hCovers [])

end Encoder

/-! ## Both directions -/

namespace Registry

/-- Options that are relaxed change no result that there has been. What is read from a tree under
some options, is read under all options that relax them, at the same time; and what is written for
an instance, is written so under all options that relax the ones before. -/
theorem results_of_relaxes (r : Registry) :
    (∀ now (tight loose : DecodeOptions) json x, loose.Relaxes tight →
      Decoder.decode ⟨r, now, tight⟩ json = .ok x →
      Decoder.decode ⟨r, now, loose⟩ json = .ok x) ∧
    ∀ (tight loose : EncodeOptions) x json, loose.Relaxes tight →
      Encoder.encode ⟨r, tight⟩ x = .ok json →
      Encoder.encode ⟨r, loose⟩ x = .ok json :=
  ⟨fun _ _ _ json x hRelaxes hRead => Decoder.survives_decode hRelaxes json x hRead,
    fun _ _ x json hRelaxes hWritten => Encoder.survives_encode hRelaxes x json hWritten⟩

/-- A note is read as before where its time would need no offset, and an owner is written as before
where instances might stand for pointers. -/
theorem results_of_note_and_owner :
    (Decoder.standard Notes.registry ⟨0, 0, 0⟩).decode Notes.tree = .ok Notes.note ∧
    Decoder.decode ⟨Notes.registry, ⟨0, 0, 0⟩,
      { DecodeOptions.default with strictDateTimes := false, utcOffset := 60 }⟩ Notes.tree =
        .ok Notes.note ∧
    (Encoder.standard Garage.registry).encode Garage.owner =
      .ok (Garage.ownerTree (.string "resource:garage@1.0.0.Car#V1")) ∧
    Encoder.encode ⟨Garage.registry, { EncodeOptions.default with permitResources := true }⟩
      Garage.owner = .ok (Garage.ownerTree (.string "resource:garage@1.0.0.Car#V1")) :=
  ⟨Notes.decode_tree _,
    (results_of_relaxes Notes.registry).1 _ _ _ _ _ (DecodeOptions.default.relaxes_lenient rfl 60)
      (Notes.decode_tree _),
    Garage.encode_owner,
    (results_of_relaxes Garage.registry).2 _ _ _ _ EncodeOptions.default.relaxes_permitting
      Garage.encode_owner⟩

end Registry

end DomainModels
