import DomainModels.Namespace
import DomainModels.Proofs.Namespace.Version

/-!
The texts of namespaces.

A namespace and its text stand for each other: a text is read exactly if it is a dotted name, with
the text of a version after its first at sign, and what was read is written as that text again.
-/

namespace DomainModels.Namespace

variable {cs : List Char} {text : String} {n : Namespace}

/-- A letter, an underscore or a dollar sign, and then numbers too. -/
inductive IsSegmentText : List Char → Prop where
  | segment {c : Char} {rest : List Char}
      (hStart : Unicode.isLetter c = true ∨ c = '_' ∨ c = '$')
      (hRest : ∀ d ∈ rest,
        Unicode.isLetter d = true ∨ Unicode.isNumber d = true ∨ d = '_' ∨ d = '$') :
      IsSegmentText (c :: rest)

/-- One or more segments that are joined by points. -/
def IsNameText : List Char → Prop := Text.IsJoined '.' IsSegmentText

/-- The texts of namespaces without a version and with one. -/
inductive Spells : List Char → Namespace → Prop where
  | unversioned {name : List Char} (hName : IsNameText name) :
      Spells name ⟨String.ofList name, none⟩
  | versioned {name version : List Char} {v : Version} (hName : IsNameText name)
      (hVersion : Version.Spells version v) :
      Spells (name ++ '@' :: version) ⟨String.ofList name, some v⟩

theorem isSegmentStart_iff {c : Char} :
    isSegmentStart c = true ↔ Unicode.isLetter c = true ∨ c = '_' ∨ c = '$' := by
  simp [isSegmentStart, or_assoc]

theorem isSegmentChar_iff {c : Char} : isSegmentChar c = true ↔
    Unicode.isLetter c = true ∨ Unicode.isNumber c = true ∨ c = '_' ∨ c = '$' := by
  rw [isSegmentChar, Bool.or_eq_true, isSegmentStart_iff, or_assoc, or_comm (b := _ = true)]

theorem isSegment_iff : isSegment cs = true ↔ IsSegmentText cs := by
  constructor
  · intro hSegment
    cases cs with
    | nil => cases hSegment
    | cons c rest =>
        rw [isSegment, Bool.and_eq_true, List.all_eq_true] at hSegment
        obtain ⟨hStart, hRest⟩ := hSegment
        exact .segment (isSegmentStart_iff.mp hStart) fun d hMem =>
          isSegmentChar_iff.mp (hRest d hMem)
  · rintro ⟨hStart, hRest⟩
    rw [isSegment, Bool.and_eq_true, List.all_eq_true]
    exact ⟨isSegmentStart_iff.mpr hStart, fun d hMem => isSegmentChar_iff.mpr (hRest d hMem)⟩

/-- The characters of a segment are letters, numbers and two signs. -/
theorem IsSegmentText.chars (hSegment : IsSegmentText cs) {c : Char} (hMem : c ∈ cs) :
    Unicode.isLetter c = true ∨ Unicode.isNumber c = true ∨ c = '_' ∨ c = '$' := by
  obtain ⟨hStart, hRest⟩ := hSegment
  rcases List.mem_cons.mp hMem with rfl | hMem
  · exact hStart.imp_right .inr
  · exact hRest c hMem

/-- The sign that separates segments does not stand in one. -/
theorem IsSegmentText.not_mem_point (hSegment : IsSegmentText cs) : '.' ∉ cs := fun hMem =>
  absurd (hSegment.chars hMem) (by decide)

/-- The sign that a version follows does not stand in a segment. -/
theorem IsSegmentText.not_mem_at (hSegment : IsSegmentText cs) : '@' ∉ cs := fun hMem =>
  absurd (hSegment.chars hMem) (by decide)

theorem isNameText_iff : IsNameText cs ↔ ∀ segment ∈ Text.cutAll '.' cs, IsSegmentText segment :=
  Text.isJoined_iff fun _ => IsSegmentText.not_mem_point

theorem isName_iff : isName cs = true ↔ IsNameText cs := by
  rw [isName, List.all_eq_true, isNameText_iff]
  exact forall₂_congr fun _ _ => isSegment_iff

theorem IsNameText.not_mem_at (hName : IsNameText cs) : '@' ∉ cs := by
  intro hMem
  rcases Text.mem_cutAll '.' hMem with hPoint | ⟨segment, hSegment, hIn⟩
  · exact absurd hPoint (by decide)
  · exact (isNameText_iff.mp hName segment hSegment).not_mem_at hIn

/-- A text is read as a namespace exactly if it spells the namespace. -/
theorem parse_eq_ok : parse text = .ok n ↔ Spells text.toList n := by
  constructor
  · intro hParse
    unfold parse at hParse
    split at hParse
    · rename_i name version hCut
      obtain ⟨hText, _⟩ := Text.cutFirst_eq_some hCut
      split at hParse
      · cases hParse
      · rename_i v hVersion
        rw [Version.parse_eq_ok, String.toList_ofList] at hVersion
        split at hParse
        · rename_i hName
          cases hParse
          rw [hText]
          exact .versioned (isName_iff.mp hName) hVersion
        · cases hParse
    · split at hParse
      · rename_i hName
        cases hParse
        simpa using Spells.unversioned (isName_iff.mp hName)
      · cases hParse
  · intro hSpells
    rw [parse]
    generalize hText : text.toList = cs at hSpells
    cases hSpells with
    | unversioned hName =>
        rw [Text.cutFirst_of_not_mem hName.not_mem_at, ← hText, String.ofList_toList]
        exact if_pos (hText ▸ isName_iff.mpr hName)
    | versioned hName hVersion =>
        rename_i name version v
        have hParse : Version.parse (String.ofList version) = .ok v := by
          rw [Version.parse_eq_ok, String.toList_ofList]
          exact hVersion
        rw [Text.cutFirst_append hName.not_mem_at]
        simp only [hParse]
        exact if_pos (isName_iff.mpr hName)

/-- The text that is written for a namespace is the one that spells it. -/
theorem Spells.render_eq (hSpells : Spells cs n) : n.render.toList = cs := by
  cases hSpells with
  | unversioned hName => exact String.toList_ofList
  | versioned hName hVersion => simp [render, hVersion.render_eq]

theorem render_of_parse (hParse : parse text = .ok n) : n.render = text :=
  String.toList_inj.mp (parse_eq_ok.mp hParse).render_eq

/-- The texts of namespaces are those of the grammar, and each is the text of what is read from
it. -/
theorem parse_exact (text : String) :
    ((∃ n, parse text = .ok n) ↔
      '@' ∉ text.toList ∧ IsNameText text.toList ∨
      ∃ name version v, text.toList = name ++ '@' :: version ∧ '@' ∉ name ∧ IsNameText name ∧
        Version.Spells version v) ∧
    ∀ n, parse text = .ok n →
      n.render = text ∧ parse n.render = .ok n ∧ ∀ other, parse other = .ok n → other = text := by
  refine ⟨⟨?_, ?_⟩, fun n hParse => ⟨?_, ?_, fun other hOther => ?_⟩⟩
  · rintro ⟨n, hParse⟩
    have hSpells := parse_eq_ok.mp hParse
    generalize text.toList = cs at hSpells
    cases hSpells with
    | unversioned hName => exact .inl ⟨hName.not_mem_at, hName⟩
    | versioned hName hVersion => exact .inr ⟨_, _, _, rfl, hName.not_mem_at, hName, hVersion⟩
  · rintro (⟨_, hName⟩ | ⟨name, version, v, hText, _, hName, hVersion⟩)
    · exact ⟨_, parse_eq_ok.mpr (.unversioned hName)⟩
    · have hSpells := Spells.versioned hName hVersion
      rw [← hText] at hSpells
      exact ⟨_, parse_eq_ok.mpr hSpells⟩
  · exact render_of_parse hParse
  · rw [render_of_parse hParse, hParse]
  · rw [← render_of_parse hOther, render_of_parse hParse]

end DomainModels.Namespace
