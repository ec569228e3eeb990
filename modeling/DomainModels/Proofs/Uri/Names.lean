import DomainModels.Proofs.Namespace.Text
import DomainModels.Proofs.Uri.Pointer

/-!
The characters of namespaces and of the names of types.

They stand for themselves in a URI, and since a namespace does not end in a point, the qualification
of an identifier is taken apart in one way only.
-/

namespace DomainModels

/-! ## Versions -/

namespace Version

/-- Characters of versions. -/
def isVersionChar (c : Char) : Bool := isIdentifierChar c || c = '.' || c = '+'

/-- The rest of a version, from some place on: characters of versions, of which the last is no
point. -/
def IsTail (cs : List Char) : Prop :=
  (∀ c ∈ cs, isVersionChar c = true) ∧ ∀ before, cs ≠ before ++ ['.']

theorem isTail_nil : IsTail [] := ⟨by simp, by simp⟩

/-- A tail may begin earlier, as long as it does not become a point alone. -/
theorem IsTail.cons {c : Char} {cs : List Char} (hChar : isVersionChar c = true)
    (hPoint : c = '.' → cs ≠ []) (hTail : IsTail cs) : IsTail (c :: cs) := by
  refine ⟨List.forall_mem_cons.mpr ⟨hChar, hTail.1⟩, fun before hLast => ?_⟩
  cases before with
  | nil =>
      cases hLast
      exact hPoint rfl rfl
  | cons d front =>
      cases hLast
      exact hTail.2 front rfl

/-- A text that does not end in a point stands before a tail. -/
theorem IsTail.append {front cs : List Char} (hFront : IsTail front) (hTail : IsTail cs) :
    IsTail (front ++ cs) :=
  ⟨List.forall_mem_append.mpr ⟨hFront.1, hTail.1⟩,
    Text.ne_concat_of_append hTail.2 fun _ => hFront.2⟩

/-- The characters of identifiers are no points. -/
theorem isTail_of_isIdentifierChar {cs : List Char}
    (hChars : ∀ c ∈ cs, isIdentifierChar c = true) : IsTail cs := by
  refine ⟨fun c hMem => by simp [isVersionChar, hChars c hMem], ?_⟩
  rintro before rfl
  have hPoint := hChars '.' (by simp)
  cases hPoint

theorem SpellsNumber.isTail {cs : List Char} {n : Nat} (hSpells : SpellsNumber cs n) :
    IsTail cs ∧ cs ≠ [] := by
  obtain ⟨hSome, hDigits⟩ := isDigit_of_isNumeric hSpells.numeric
  refine ⟨isTail_of_isIdentifierChar fun c hMem => ?_, hSome⟩
  simp [isIdentifierChar, hDigits c hMem]

/-- Identifiers that are joined by points do not end in a point, since none of them is empty. -/
theorem isTail_of_isJoined {part : Part} {cs : List Char}
    (hJoined : Text.IsJoined '.' (Allows part) cs) : IsTail cs ∧ cs ≠ [] := by
  have hSegments := (Text.isJoined_iff (not_mem_of_allows part)).mp hJoined
  have hNoEmpty : [] ∉ Text.cutAll '.' cs := fun hMem => not_allows_nil part (hSegments [] hMem)
  refine ⟨⟨fun c hMem => ?_, ?_⟩, ?_⟩
  · rcases Text.mem_cutAll '.' hMem with rfl | ⟨segment, hSegment, hIn⟩
    · rfl
    · simp [isVersionChar, isIdentifierChar_of_allows (hSegments segment hSegment) c hIn]
  · rintro before rfl
    exact hNoEmpty (Text.nil_mem_cutAll_of_last before)
  · rintro rfl
    exact hNoEmpty (by simp [Text.cutAll])

theorem SpellsPart.isTail (part : Part) {mark : Char} {cs : List Char} {text : String}
    (hSpells : SpellsPart mark (Allows part) cs text) (hMark : isVersionChar mark = true) :
    IsTail cs := by
  rcases hSpells with ⟨rfl, _⟩ | ⟨rfl, hJoined⟩
  · exact isTail_nil
  · obtain ⟨hTail, hSome⟩ := isTail_of_isJoined hJoined
    exact .cons hMark (fun _ => hSome) hTail

/-- A number, a point and a tail are a tail. -/
theorem SpellsNumber.isTail_point {cs rest : List Char} {n : Nat} (hSpells : SpellsNumber cs n)
    (hTail : IsTail rest) (hSome : rest ≠ []) : IsTail (cs ++ '.' :: rest) :=
  hSpells.isTail.1.append (.cons rfl (fun _ => hSome) hTail)

/-- The text of a version has characters of versions, and does not end in a point. -/
theorem Spells.isTail {cs : List Char} {v : Version} (hSpells : Spells cs v) :
    IsTail cs ∧ cs ≠ [] := by
  obtain ⟨hMajor, hMinor, hPatch, hPreRelease, hBuild⟩ := hSpells
  have hEnd := (hPreRelease.isTail .preRelease rfl).append (hBuild.isTail .build rfl)
  have hLast := hPatch.isTail.1.append hEnd
  have hRest := hMinor.isTail_point hLast (List.append_ne_nil_of_left_ne_nil hPatch.isTail.2 _)
  exact ⟨hMajor.isTail_point hRest (by simp), by simp⟩

end Version

/-! ## Namespaces and identifiers -/

/-- Names of declarations: letters and numbers of any script, underscores and dollar signs. -/
structure IsIdentifier (name : String) : Prop where
  nonempty : name ≠ ""
  chars : ∀ c ∈ name.toList, Namespace.isSegmentChar c = true

instance (name : String) : Decidable (IsIdentifier name) :=
  decidable_of_iff (name ≠ "" ∧ name.toList.all Namespace.isSegmentChar = true)
    ⟨fun ⟨hSome, hChars⟩ => ⟨hSome, List.all_eq_true.mp hChars⟩,
      fun hName => ⟨hName.nonempty, List.all_eq_true.mpr hName.chars⟩⟩

/-- Names that cannot be mistaken for qualified ones. -/
structure IsSimpleName (name : String) : Prop where
  nonempty : name ≠ ""
  noPoint : '.' ∉ name.toList

instance (name : String) : Decidable (IsSimpleName name) :=
  decidable_of_iff (name ≠ "" ∧ '.' ∉ name.toList)
    ⟨fun ⟨hSome, hPoint⟩ => ⟨hSome, hPoint⟩, fun hName => ⟨hName.nonempty, hName.noPoint⟩⟩

theorem IsIdentifier.isSimpleName {name : String} (hName : IsIdentifier name) :
    IsSimpleName name where
  nonempty := hName.nonempty
  noPoint hMem := absurd (hName.chars '.' hMem) (by decide)

/-- What the texts of namespaces that carry a version have in common. -/
structure IsNamespaceText (text : String) : Prop where
  nonempty : text ≠ ""
  plain : ∀ c ∈ text.toList, isPlainChar c = true
  last : ∀ before, text.toList ≠ before ++ ['.']

theorem isPlainChar_of_isVersionChar {c : Char} (hChar : Version.isVersionChar c = true) :
    isPlainChar c = true :=
  isPlainChar_of_table (by decide) hChar

theorem isPlainChar_of_isSegmentChar {c : Char} (hChar : Namespace.isSegmentChar c = true) :
    isPlainChar c = true :=
  isPlainChar_of_table (by decide) hChar

namespace Namespace

/-- A dotted name has characters of segments, and points. -/
theorem IsNameText.isPlainChar {name : List Char} (hName : IsNameText name) {c : Char}
    (hMem : c ∈ name) : isPlainChar c = true := by
  rcases Text.mem_cutAll '.' hMem with rfl | ⟨segment, hSegment, hIn⟩
  · decide
  · have hChar := (isNameText_iff.mp hName segment hSegment).chars hIn
    exact isPlainChar_of_isSegmentChar (isSegmentChar_iff.mpr hChar)

/-- A dotted name does not end in a point, since none of its segments is empty. -/
theorem IsNameText.last {name : List Char} (hName : IsNameText name) (before : List Char) :
    name ≠ before ++ ['.'] := by
  rintro rfl
  cases isNameText_iff.mp hName [] (Text.nil_mem_cutAll_of_last before)

theorem not_isNameText_nil : ¬ IsNameText [] := by
  intro hName
  cases isNameText_iff.mp hName [] (by simp [Text.cutAll])

/-- A namespace ends as its version does, or as its name if it carries no version. -/
theorem isNamespaceText_of_parse {text : String} {n : Namespace} (hRead : parse text = .ok n) :
    IsNamespaceText text := by
  have hSpells := parse_eq_ok.mp hRead
  generalize hText : text.toList = cs at hSpells
  cases hSpells with
  | unversioned hName =>
      refine ⟨?_, hText ▸ fun c => hName.isPlainChar, hText ▸ hName.last⟩
      rintro rfl
      cases hText
      exact not_isNameText_nil hName
  | versioned hName hVersion =>
      obtain ⟨hTail, hSome⟩ := hVersion.isTail
      refine ⟨?_, hText ▸ ?_, hText ▸ ?_⟩
      · rintro rfl
        simp at hText
      · refine List.forall_mem_append.mpr ⟨fun c => hName.isPlainChar, ?_⟩
        exact List.forall_mem_cons.mpr
          ⟨by decide, fun c hMem => isPlainChar_of_isVersionChar (hTail.1 c hMem)⟩
      · rw [List.append_cons]
        exact Text.ne_concat_of_append hTail.2 fun hNil => absurd hNil hSome

theorem isNamespaceText_of_parseVersioned {text : String} {n : Namespace}
    (hRead : parseVersioned text = .ok n) : IsNamespaceText text := by
  unfold parseVersioned at hRead
  split at hRead
  · cases hRead
  · rename_i m hParse
    exact isNamespaceText_of_parse hParse

end Namespace

/-! ## Qualified names -/

section

variable {space name : String}

/-- The qualification of a simple name is taken apart into what it was made of. -/
theorem splitQualified_qualify (hSpace : space ≠ "") (hName : IsSimpleName name) :
    splitQualified (qualify space name) = some (space, name) := by
  have hText : (qualify space name).toList = space.toList ++ '.' :: name.toList := by
    simp [qualify]
  have hCut : Text.cutLast '.' (qualify space name).toList = some (space.toList, name.toList) := by
    rw [hText, Text.cutLast_append _ hName.noPoint]
  obtain ⟨c, front, hFront⟩ := List.exists_cons_of_ne_nil
    (fun hNil => hSpace (String.toList_eq_nil_iff.mp hNil))
  obtain ⟨d, back, hBack⟩ := List.exists_cons_of_ne_nil
    (fun hNil => hName.nonempty (String.toList_eq_nil_iff.mp hNil))
  unfold splitQualified
  rw [hCut, hFront, hBack]
  simp only [← hFront, ← hBack, String.ofList_toList]

/-- What stands after the last point is a simple name. -/
theorem isSimpleName_of_splitQualified {fqn : String}
    (hSplit : splitQualified fqn = some (space, name)) : IsSimpleName name := by
  unfold splitQualified at hSplit
  split at hSplit
  · rename_i c front d back hCut
    cases hSplit
    refine ⟨fun hEmpty => ?_, ?_⟩
    · simpa using congrArg String.toList hEmpty
    · rw [String.toList_ofList]
      exact Text.not_mem_of_cutLast hCut
  · cases hSplit

theorem isPlainChar_of_qualify (hSpace : IsNamespaceText space) (hName : IsIdentifier name)
    {c : Char} (hMem : c ∈ (qualify space name).toList) : isPlainChar c = true := by
  simp only [qualify, String.toList_append, List.mem_append] at hMem
  rcases hMem with (hMem | hPoint) | hMem
  · exact hSpace.plain c hMem
  · obtain rfl := List.mem_singleton.mp hPoint
    decide
  · exact isPlainChar_of_isSegmentChar (hName.chars c hMem)

/-- A text that cannot be taken apart, but whose qualification is that of an identifier, is the
identifier. -/
theorem eq_of_qualify_eq {front back : String} (hSpace : IsNamespaceText space)
    (hName : IsIdentifier name) (hBack : splitQualified back = none)
    (hSame : qualify front back = qualify space name) : front = space ∧ back = name := by
  have hText : front.toList ++ '.' :: back.toList = space.toList ++ '.' :: name.toList := by
    have hLists := congrArg String.toList hSame
    simpa [qualify] using hLists
  have hCut := Text.cutLast_append space.toList hName.isSimpleName.noPoint
  rw [← hText] at hCut
  by_cases hPoint : '.' ∈ back.toList
  · cases hParts : Text.cutLast '.' back.toList with
    | none => exact absurd hPoint (Text.cutLast_eq_none.mp hParts)
    | some parts =>
        obtain ⟨before, after⟩ := parts
        have hWhole := Text.cutLast_eq_some hParts
        have hFree := Text.not_mem_of_cutLast hParts
        rw [hWhole, ← List.cons_append, ← List.append_assoc, Text.cutLast_append _ hFree] at hCut
        simp only [Option.some.injEq, Prod.mk.injEq] at hCut
        obtain ⟨hFront, rfl⟩ := hCut
        cases before with
        | nil => exact absurd hFront.symm (hSpace.last front.toList)
        | cons c later =>
            obtain ⟨d, rest, hRest⟩ := List.exists_cons_of_ne_nil
              (fun hNil => hName.nonempty (String.toList_eq_nil_iff.mp hNil))
            rw [hRest] at hParts
            simp [splitQualified, hParts] at hBack
  · rw [Text.cutLast_append _ hPoint] at hCut
    simp only [Option.some.injEq, Prod.mk.injEq] at hCut
    exact ⟨String.toList_inj.mp hCut.1, String.toList_inj.mp hCut.2⟩

end

/-! ## Pointers -/

namespace Relationship

/-- Pointers to something in a namespace that can be read, whose type has an identifier as its
name. -/
structure IsAddressable (r : Relationship) : Prop where
  space : ∃ n, Namespace.parse r.space = .ok n
  typeName : IsIdentifier r.typeName
  id : r.id ≠ ""

/-- The URI of a pointer is read as the pointer, whatever the defaults are, so that no other pointer
has this URI. -/
theorem toUri_faithful {r : Relationship} (hAddress : r.IsAddressable) :
    (∀ defaultSpace defaultType, ofUri r.toUri defaultSpace defaultType = .ok r) ∧
      ∀ other : Relationship, other.IsAddressable → other.toUri = r.toUri → other = r := by
  have hRead {p : Relationship} (hPointer : p.IsAddressable) (defaultSpace defaultType : String) :
      ofUri p.toUri defaultSpace defaultType = .ok p := by
    obtain ⟨n, hParse⟩ := hPointer.space
    have hSpace := Namespace.isNamespaceText_of_parse hParse
    exact ofUri_toUri (fun c => isPlainChar_of_qualify hSpace hPointer.typeName)
      (splitQualified_qualify hSpace.nonempty hPointer.typeName.isSimpleName) hPointer.id
      defaultSpace defaultType
  refine ⟨hRead hAddress, fun other hOther hSame => ?_⟩
  have hRestored := hRead hOther "" ""
  rw [hSame, hRead hAddress] at hRestored
  exact (Except.ok.inj hRestored).symm

/-- A namespace whose version has points of its own, and an identifier whose characters have a
meaning in a URI or cannot stand in one. -/
theorem toUri_faithful_escaped :
    toUri ⟨"forest.wood@1.0.0-a.b", "Oak_1", "%41#?:/ é\n"⟩ =
        "resource:forest.wood@1.0.0-a.b.Oak_1#%2541%23%3F%3A%2F%20%C3%A9%0A" ∧
      ofUri "resource:forest.wood@1.0.0-a.b.Oak_1#%2541%23%3F%3A%2F%20%C3%A9%0A" "x@1.0.0" "Y" =
        .ok ⟨"forest.wood@1.0.0-a.b", "Oak_1", "%41#?:/ é\n"⟩ := by
  have hAddress : IsAddressable ⟨"forest.wood@1.0.0-a.b", "Oak_1", "%41#?:/ é\n"⟩ :=
    ⟨⟨⟨"forest.wood", some ⟨1, 0, 0, "a.b", ""⟩⟩, by decide +kernel⟩, by decide +kernel,
      by decide⟩
  have hUri : toUri ⟨"forest.wood@1.0.0-a.b", "Oak_1", "%41#?:/ é\n"⟩ =
      "resource:forest.wood@1.0.0-a.b.Oak_1#%2541%23%3F%3A%2F%20%C3%A9%0A" := by decide +kernel
  have hRead := (toUri_faithful hAddress).1 "x@1.0.0" "Y"
  rw [hUri] at hRead
  exact ⟨hUri, hRead⟩

end Relationship

end DomainModels
