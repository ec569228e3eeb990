import DomainModels.Version
import DomainModels.Proofs.Outcome
import DomainModels.Proofs.Text.Split

/-!
The texts of semantic versions.

A text is read as a version exactly if the grammar of semantic versions has it, and it is the text
that is written for the version. The numbers have to be smaller than the grammar asks for: 64 bits
have to hold them. The identifiers of a pre-release may be numbers of any size.
-/

namespace DomainModels.Version

/-! ## The grammar -/

/-- Zero, or digits of which the first is not zero. -/
def IsNumeric (cs : List Char) : Prop :=
  cs = ['0'] ∨ ∃ c rest, cs = c :: rest ∧ c ≠ '0' ∧ ∀ d ∈ cs, d.isDigit = true

/-- Letters, hyphens and digits, of which at least one is no digit. -/
def IsAlphanumeric (cs : List Char) : Prop :=
  (∀ c ∈ cs, isIdentifierChar c = true) ∧ ∃ c ∈ cs, isIdentifierLetter c = true

/-- The identifiers of a pre-release: a number has no leading zeros. -/
def IsPreReleaseIdentifier (cs : List Char) : Prop := IsAlphanumeric cs ∨ IsNumeric cs

/-- The identifiers of build metadata: any digits count as a number. -/
def IsBuildIdentifier (cs : List Char) : Prop :=
  IsAlphanumeric cs ∨ cs ≠ [] ∧ ∀ c ∈ cs, c.isDigit = true

/-- A number of 64 bits in decimal digits. -/
structure SpellsNumber (cs : List Char) (n : Nat) : Prop where
  numeric : IsNumeric cs
  value : Nat.ofDigitChars 10 cs 0 = n
  small : n < UInt64.size

/-- Identifiers that are joined by points after a mark. Without them there is no mark. -/
def SpellsPart (mark : Char) (IsIdentifier : List Char → Prop) (cs : List Char) (text : String) :
    Prop :=
  cs = [] ∧ text = "" ∨ cs = mark :: text.toList ∧ Text.IsJoined '.' IsIdentifier text.toList

/-- The texts of versions: three numbers, a pre-release and build metadata. -/
inductive Spells : List Char → Version → Prop where
  | version {v : Version} {major minor patch preRelease build : List Char}
      (hMajor : SpellsNumber major v.major) (hMinor : SpellsNumber minor v.minor)
      (hPatch : SpellsNumber patch v.patch)
      (hPreRelease : SpellsPart '-' IsPreReleaseIdentifier preRelease v.preRelease)
      (hBuild : SpellsPart '+' IsBuildIdentifier build v.build) :
      Spells (major ++ '.' :: (minor ++ '.' :: (patch ++ (preRelease ++ build)))) v

/-! ## Numbers -/

section

variable {cs digits rest : List Char} {c : Char} {n value : Nat} {part : Part}

theorem digitChar_of_isDigit (hDigit : c.isDigit = true) :
    c.toNat - '0'.toNat < 10 ∧ Nat.digitChar (c.toNat - '0'.toNat) = c := by
  simp only [Char.isDigit, Bool.and_eq_true, decide_eq_true_eq] at hDigit
  have hFirst : 48 ≤ c.toNat := hDigit.1
  have hLast : c.toNat ≤ 57 := hDigit.2
  have hZero : '0'.toNat = 48 := rfl
  have hSmall : c.toNat - '0'.toNat < 10 := by omega
  refine ⟨hSmall, Char.toNat_inj.mp ?_⟩
  rw [Nat.toNat_digitChar_of_lt_ten hSmall]
  omega

/-- A digit is appended to a number that is not zero. -/
theorem toDigits_append_digit (hValue : 0 < value) (hDigit : c.isDigit = true) :
    Nat.toDigits 10 value ++ [c] = Nat.toDigits 10 (10 * value + (c.toNat - '0'.toNat)) := by
  obtain ⟨hSmall, hChar⟩ := digitChar_of_isDigit hDigit
  rw [← Nat.toDigits_append_toDigits (by decide) hValue hSmall, Nat.toDigits_of_lt_base hSmall,
    hChar]

theorem toDigits_append (hValue : 0 < value) (hDigits : ∀ d ∈ digits, d.isDigit = true) :
    Nat.toDigits 10 value ++ digits = Nat.toDigits 10 (Nat.ofDigitChars 10 digits value) := by
  induction digits generalizing value with
  | nil => exact List.append_nil _
  | cons c later ih =>
      rw [List.forall_mem_cons] at hDigits
      rw [Nat.ofDigitChars_cons, ← ih (by omega) hDigits.2, ← toDigits_append_digit hValue hDigits.1,
        List.append_assoc, List.singleton_append]

/-- The first digit of a number is at least one. -/
theorem value_pos_of_ne_zero (hDigit : c.isDigit = true) (hZero : c ≠ '0') :
    0 < c.toNat - '0'.toNat := by
  refine Nat.pos_of_ne_zero fun hNone => hZero ?_
  obtain ⟨_, hChar⟩ := digitChar_of_isDigit hDigit
  rw [← hChar, hNone]
  rfl

/-- Digits without a leading zero are those that are written for their number. -/
theorem IsNumeric.toDigits_eq (hNumeric : IsNumeric cs) :
    Nat.toDigits 10 (Nat.ofDigitChars 10 cs 0) = cs := by
  rcases hNumeric with rfl | ⟨c, later, rfl, hZero, hDigits⟩
  · rfl
  · rw [List.forall_mem_cons] at hDigits
    obtain ⟨hSmall, hChar⟩ := digitChar_of_isDigit hDigits.1
    rw [Nat.ofDigitChars_cons, Nat.mul_zero, Nat.zero_add,
      ← toDigits_append (value_pos_of_ne_zero hDigits.1 hZero) hDigits.2,
      Nat.toDigits_of_lt_base hSmall, hChar, List.singleton_append]

theorem SpellsNumber.toString_eq (hSpells : SpellsNumber cs n) : (toString n).toList = cs := by
  rw [Nat.toString_eq_repr, Nat.toList_repr, ← hSpells.value, hSpells.numeric.toDigits_eq]

theorem le_ofDigitChars (digits : List Char) (value : Nat) :
    value ≤ Nat.ofDigitChars 10 digits value := by
  induction digits generalizing value with
  | nil => exact Nat.le_refl value
  | cons c later ih =>
      rw [Nat.ofDigitChars_cons]
      exact Nat.le_trans (by omega) (ih _)

/-- After zero no digit is read. -/
theorem readDigits_zero_eq_ok : readDigits part 0 cs = .ok (n, rest) ↔
    n = 0 ∧ cs = rest ∧ Text.EndsRun Char.isDigit rest := by
  cases cs with
  | nil =>
      constructor
      · intro hRead
        cases hRead
        exact ⟨rfl, rfl, Text.endsRun_nil _⟩
      · rintro ⟨rfl, rfl, _⟩
        rfl
  | cons c later =>
      rw [readDigits]
      cases hDigit : c.isDigit with
      | true =>
          rw [if_pos rfl, if_pos rfl]
          constructor
          · nofun
          · rintro ⟨_, rfl, hEnds⟩
            rw [hEnds c later rfl] at hDigit
            cases hDigit
      | false =>
          rw [if_neg Bool.false_ne_true]
          constructor
          · intro hRead
            cases hRead
            refine ⟨rfl, rfl, fun d _ hSame => ?_⟩
            cases hSame
            exact hDigit
          · rintro ⟨rfl, rfl, _⟩
            rfl

/-- After a digit that is not zero all digits that follow are read. -/
theorem readDigits_of_pos (hValue : 0 < value) (hSmall : value < numberBound) :
    readDigits part value cs =
      if Nat.ofDigitChars 10 (cs.takeWhile Char.isDigit) value < numberBound then
        .ok (Nat.ofDigitChars 10 (cs.takeWhile Char.isDigit) value, cs.dropWhile Char.isDigit)
      else .error (.tooLarge part) := by
  induction cs generalizing value with
  | nil => exact (if_pos hSmall).symm
  | cons c later ih =>
      rw [readDigits]
      cases hDigit : c.isDigit with
      | true =>
          rw [if_pos rfl, if_neg (Nat.ne_of_gt hValue), List.takeWhile_cons_of_pos hDigit,
            List.dropWhile_cons_of_pos hDigit, Nat.ofDigitChars_cons, Nat.mul_comm 10]
          simp only
          split
          · rename_i hNext
            exact ih (by omega) hNext
          · rename_i hNext
            have hLarge := le_ofDigitChars (later.takeWhile Char.isDigit)
              (value * 10 + (c.toNat - '0'.toNat))
            rw [if_neg (by omega)]
      | false =>
          have hOther : ¬ c.isDigit = true := by simp [hDigit]
          rw [if_neg Bool.false_ne_true, List.takeWhile_cons_of_neg hOther,
            List.dropWhile_cons_of_neg hOther]
          exact (if_pos hSmall).symm

theorem not_isNumeric_nil : ¬ IsNumeric [] := by
  rintro (hZero | ⟨_, _, hText, _⟩) <;> contradiction

/-- A number begins with a digit, after which there are more digits unless it is zero. -/
theorem isNumeric_cons : IsNumeric (c :: rest) ↔
    c.isDigit = true ∧ (c = '0' → rest = []) ∧ ∀ d ∈ rest, d.isDigit = true := by
  constructor
  · rintro (hZero | ⟨_, _, hText, hFirst, hDigits⟩)
    · cases hZero
      exact ⟨rfl, fun _ => rfl, nofun⟩
    · cases hText
      rw [List.forall_mem_cons] at hDigits
      exact ⟨hDigits.1, fun hZero => absurd hZero hFirst, hDigits.2⟩
  · rintro ⟨hDigit, hZero, hDigits⟩
    by_cases hFirst : c = '0'
    · exact .inl (by rw [hZero hFirst, hFirst])
    · exact .inr ⟨c, rest, rfl, hFirst, List.forall_mem_cons.mpr ⟨hDigit, hDigits⟩⟩

theorem spellsNumber_cons : SpellsNumber (c :: digits) n ↔ IsNumeric (c :: digits) ∧
    Nat.ofDigitChars 10 digits (c.toNat - '0'.toNat) = n ∧ n < numberBound := by
  have hValue : Nat.ofDigitChars 10 (c :: digits) 0 =
      Nat.ofDigitChars 10 digits (c.toNat - '0'.toNat) := by
    rw [Nat.ofDigitChars_cons, Nat.mul_zero, Nat.zero_add]
  constructor
  · rintro ⟨hNumeric, hNumber, hSmall⟩
    exact ⟨hNumeric, hValue ▸ hNumber, hSmall⟩
  · rintro ⟨hNumeric, hNumber, hSmall⟩
    exact ⟨hNumeric, hValue ▸ hNumber, hSmall⟩

/-- A number that begins with a digit is read with all digits that follow. -/
theorem readDigits_eq_ok (hDigit : c.isDigit = true) :
    readDigits part (c.toNat - '0'.toNat) cs = .ok (n, rest) ↔ ∃ digits, cs = digits ++ rest ∧
      SpellsNumber (c :: digits) n ∧ Text.EndsRun Char.isDigit rest := by
  by_cases hZero : c = '0'
  · subst hZero
    rw [Nat.sub_self, readDigits_zero_eq_ok]
    constructor
    · rintro ⟨rfl, rfl, hEnds⟩
      exact ⟨[], rfl, ⟨.inl rfl, rfl, by decide⟩, hEnds⟩
    · rintro ⟨digits, rfl, hSpells, hEnds⟩
      obtain rfl := (isNumeric_cons.mp hSpells.numeric).2.1 rfl
      exact ⟨hSpells.value.symm, rfl, hEnds⟩
  · have hPos := value_pos_of_ne_zero hDigit hZero
    have hSmall : c.toNat - '0'.toNat < numberBound :=
      Nat.lt_trans (digitChar_of_isDigit hDigit).1 (by decide)
    rw [readDigits_of_pos hPos hSmall]
    constructor
    · intro hRead
      split at hRead
      · rename_i hBound
        cases hRead
        obtain ⟨hText, hDigits, hEnds⟩ := Text.run_of_text Char.isDigit cs
        have hNumeric := isNumeric_cons.mpr ⟨hDigit, fun h => absurd h hZero, hDigits⟩
        exact ⟨_, hText, spellsNumber_cons.mpr ⟨hNumeric, rfl, hBound⟩, hEnds⟩
      · cases hRead
    · rintro ⟨digits, hText, hSpells, hEnds⟩
      obtain ⟨hNumeric, rfl, hBound⟩ := spellsNumber_cons.mp hSpells
      obtain ⟨hTake, hDrop⟩ := Text.run_of_append (isNumeric_cons.mp hNumeric).2.2 hEnds
      rw [hText, hTake, hDrop]
      exact if_pos hBound

/-- A number is read with all of its digits. -/
theorem readNumber_eq_ok : readNumber part cs = .ok (n, rest) ↔
    ∃ digits, cs = digits ++ rest ∧ SpellsNumber digits n ∧ Text.EndsRun Char.isDigit rest := by
  cases cs with
  | nil =>
      constructor
      · nofun
      · rintro ⟨digits, hText, hSpells, _⟩
        obtain ⟨rfl, _⟩ := List.append_eq_nil_iff.mp hText.symm
        exact absurd hSpells.numeric not_isNumeric_nil
  | cons c later =>
      have hCons {digits : List Char} (hText : c :: later = digits ++ rest)
          (hSpells : SpellsNumber digits n) : ∃ others, digits = c :: others ∧
            later = others ++ rest := by
        cases digits with
        | nil => exact absurd hSpells.numeric not_isNumeric_nil
        | cons d others =>
            cases hText
            exact ⟨others, rfl, rfl⟩
      rw [readNumber]
      split
      · rename_i hDigit
        rw [readDigits_eq_ok hDigit]
        constructor
        · rintro ⟨digits, rfl, hSpells, hEnds⟩
          exact ⟨c :: digits, rfl, hSpells, hEnds⟩
        · rintro ⟨_, hText, hSpells, hEnds⟩
          obtain ⟨others, rfl, hLater⟩ := hCons hText hSpells
          exact ⟨others, hLater, hSpells, hEnds⟩
      · rename_i hOther
        constructor
        · nofun
        · rintro ⟨_, hText, hSpells, _⟩
          obtain ⟨others, rfl, _⟩ := hCons hText hSpells
          exact absurd (isNumeric_cons.mp hSpells.numeric).1 hOther

theorem readPoint_eq_ok : readPoint part cs = .ok rest ↔ cs = '.' :: rest := by
  cases cs with
  | nil => simp [readPoint]
  | cons c later =>
      rw [readPoint]
      by_cases hPoint : c = '.' <;> simp [hPoint]

end

/-! ## Identifiers -/

section

variable {cs rest : List Char} {c : Char} {part : Part} {text : String} {v w : Version}

/-- The identifiers that may stand in a part of a version. -/
def Allows (part : Part) : List Char → Prop :=
  if part = .preRelease then IsPreReleaseIdentifier else IsBuildIdentifier

theorem isDigit_of_isNumeric (hNumeric : IsNumeric cs) : cs ≠ [] ∧ ∀ c ∈ cs, c.isDigit = true := by
  rcases hNumeric with rfl | ⟨c, rest, rfl, _, hDigits⟩
  · exact ⟨by simp, List.forall_mem_singleton.mpr rfl⟩
  · exact ⟨by simp, hDigits⟩

/-- Digits are a number unless there are zeros before it. -/
theorem isNumeric_iff (hSome : cs ≠ []) (hDigits : ∀ c ∈ cs, c.isDigit = true) :
    IsNumeric cs ↔ isPaddedNumber cs = false := by
  have hAll : cs.all Char.isDigit = true := List.all_eq_true.mpr hDigits
  obtain ⟨c, rest, rfl⟩ := List.exists_cons_of_ne_nil hSome
  obtain ⟨hDigit, hRest⟩ := List.forall_mem_cons.mp hDigits
  rw [isNumeric_cons, isPaddedNumber, hAll, iff_true_intro hDigit, iff_true_intro hRest]
  cases rest <;> simp

theorem isDigit_of_isIdentifierLetter (hLetter : isIdentifierLetter c = true) :
    c.isDigit = false := by
  refine Bool.eq_false_iff.mpr fun hDigit => ?_
  simp only [isIdentifierLetter, Char.isDigit, Bool.or_eq_true, Bool.and_eq_true,
    decide_eq_true_eq, Char.le_def, UInt32.le_iff_toNat_le] at hLetter hDigit
  have hLast : c.val.toNat ≤ 57 := hDigit.2
  rcases hLetter with (⟨hFirst, _⟩ | ⟨hFirst, _⟩) | rfl
  · have hUpper : 65 ≤ c.val.toNat := hFirst
    omega
  · have hLower : 97 ≤ c.val.toNat := hFirst
    omega
  · exact absurd hDigit.1 (by decide)

/-- Identifier characters that are not alphanumeric are digits. -/
theorem not_isAlphanumeric_iff (hChars : ∀ c ∈ cs, isIdentifierChar c = true) :
    ¬ IsAlphanumeric cs ↔ ∀ c ∈ cs, c.isDigit = true := by
  constructor
  · intro hNone c hMem
    have hChar := hChars c hMem
    rw [isIdentifierChar, Bool.or_eq_true] at hChar
    exact hChar.resolve_left fun hLetter => hNone ⟨hChars, c, hMem, hLetter⟩
  · rintro hDigits ⟨_, c, hMem, hLetter⟩
    have hOther := isDigit_of_isIdentifierLetter hLetter
    rw [hDigits c hMem] at hOther
    cases hOther

/-- A segment of identifier characters is an identifier of its part if it passes the check. -/
theorem checkSegment_eq_ok (hChars : ∀ c ∈ cs, isIdentifierChar c = true) :
    checkSegment part cs = .ok () ↔ Allows part cs := by
  have hCheck : checkSegment part cs = .ok () ↔
      cs ≠ [] ∧ (part = .preRelease → isPaddedNumber cs = false) := by
    unfold checkSegment
    cases cs <;> simp
  rw [hCheck, Allows]
  by_cases hAlphanumeric : IsAlphanumeric cs
  · obtain ⟨c, hMem, hLetter⟩ := hAlphanumeric.2
    have hAll : cs.all Char.isDigit = false :=
      List.all_eq_false.mpr ⟨c, hMem, by simp [isDigit_of_isIdentifierLetter hLetter]⟩
    constructor
    · intro _
      split
      · exact .inl hAlphanumeric
      · exact .inl hAlphanumeric
    · intro _
      exact ⟨List.ne_nil_of_mem hMem, fun _ => by rw [isPaddedNumber, hAll]; rfl⟩
  · have hDigits := (not_isAlphanumeric_iff hChars).mp hAlphanumeric
    by_cases hPart : part = .preRelease
    · rw [if_pos hPart, IsPreReleaseIdentifier, or_iff_right hAlphanumeric]
      constructor
      · rintro ⟨hSome, hUnpadded⟩
        exact (isNumeric_iff hSome hDigits).mpr (hUnpadded hPart)
      · intro hNumeric
        have hSome := (isDigit_of_isNumeric hNumeric).1
        exact ⟨hSome, fun _ => (isNumeric_iff hSome hDigits).mp hNumeric⟩
    · rw [if_neg hPart, IsBuildIdentifier, or_iff_right hAlphanumeric]
      exact and_congr_right fun _ => iff_of_true (fun h => absurd h hPart) hDigits

theorem isIdentifierChar_of_allows (hAllows : Allows part cs) :
    ∀ c ∈ cs, isIdentifierChar c = true := by
  have hDigits (h : ∀ c ∈ cs, c.isDigit = true) : ∀ c ∈ cs, isIdentifierChar c = true := by
    intro c hMem
    simp [isIdentifierChar, h c hMem]
  unfold Allows at hAllows
  split at hAllows
  · rcases hAllows with hAlphanumeric | hNumeric
    · exact hAlphanumeric.1
    · exact hDigits (isDigit_of_isNumeric hNumeric).2
  · rcases hAllows with hAlphanumeric | hNumber
    · exact hAlphanumeric.1
    · exact hDigits hNumber.2

theorem not_allows_nil (part : Part) : ¬ Allows part [] := by
  intro hAllows
  have hCheck := (checkSegment_eq_ok (by simp)).mpr hAllows
  cases hCheck

theorem not_mem_of_allows (part : Part) (cs : List Char) (hAllows : Allows part cs) : '.' ∉ cs :=
  fun hMem => absurd (isIdentifierChar_of_allows hAllows '.' hMem) (by decide)

/-- Characters of identifiers that are joined by points. -/
def isJoinedChar (c : Char) : Bool := isIdentifierChar c || c = '.'

theorem isJoined_iff : Text.IsJoined '.' (Allows part) cs ↔ (∀ c ∈ cs, isJoinedChar c = true) ∧
    ∀ segment ∈ Text.cutAll '.' cs, checkSegment part segment = .ok () := by
  rw [Text.isJoined_iff (not_mem_of_allows part)]
  constructor
  · intro hSegments
    refine ⟨fun c hMem => ?_, fun segment hMem => ?_⟩
    · rcases Text.mem_cutAll '.' hMem with rfl | ⟨segment, hSegment, hIn⟩
      · rfl
      · simp [isJoinedChar, isIdentifierChar_of_allows (hSegments segment hSegment) c hIn]
    · have hAllows := hSegments segment hMem
      exact (checkSegment_eq_ok (isIdentifierChar_of_allows hAllows)).mpr hAllows
  · rintro ⟨hChars, hSegments⟩ segment hMem
    refine (checkSegment_eq_ok fun c hIn => ?_).mp (hSegments segment hMem)
    obtain ⟨hText, hPoint⟩ := Text.mem_of_mem_cutAll hMem hIn
    simpa [isJoinedChar, hPoint] using hChars c hText

/-- Identifiers are read as far as their characters go. -/
theorem readIdentifiers_eq_ok : readIdentifiers part cs = .ok (text, rest) ↔
    cs = text.toList ++ rest ∧ Text.IsJoined '.' (Allows part) text.toList ∧
      Text.EndsRun isJoinedChar rest := by
  have hRead : readIdentifiers part cs = .ok (text, rest) ↔
      (∀ segment ∈ Text.cutAll '.' (cs.takeWhile isJoinedChar),
        checkSegment part segment = .ok ()) ∧
      String.ofList (cs.takeWhile isJoinedChar) = text ∧ cs.dropWhile isJoinedChar = rest := by
    rw [← Outcome.forM_eq_ok]
    unfold readIdentifiers
    simp only
    split
    · rename_i hFault
      constructor
      · nofun
      · rintro ⟨hSegments, _⟩
        exact absurd (hFault.symm.trans hSegments) nofun
    · rename_i hSegments
      simp only [Except.ok.injEq, Prod.mk.injEq]
      exact (and_iff_right hSegments).symm
  rw [hRead, isJoined_iff]
  constructor
  · rintro ⟨hSegments, rfl, rfl⟩
    obtain ⟨hText, hChars, hEnds⟩ := Text.run_of_text isJoinedChar cs
    rw [String.toList_ofList]
    exact ⟨hText, ⟨hChars, hSegments⟩, hEnds⟩
  · rintro ⟨hText, ⟨hChars, hSegments⟩, hEnds⟩
    obtain ⟨hTake, hDrop⟩ := Text.run_of_append hChars hEnds
    rw [hText, hTake, String.ofList_toList]
    exact ⟨hSegments, rfl, hDrop⟩

end

/-! ## Versions -/

section

variable {cs rest : List Char} {mark : Char} {part : Part} {text : String} {v w : Version}
  {IsIdentifier : List Char → Prop}

/-- A part begins with its mark, and if it is absent the rest follows. -/
theorem SpellsPart.endsRun_append {p : Char → Bool}
    (hSpells : SpellsPart mark IsIdentifier cs text) (hMark : p mark = false)
    (hRest : Text.EndsRun p rest) : Text.EndsRun p (cs ++ rest) := by
  rcases hSpells with ⟨rfl, _⟩ | ⟨rfl, _⟩
  · exact hRest
  · intro c later hText
    cases hText
    exact hMark

theorem SpellsPart.endsRun {p : Char → Bool} (hSpells : SpellsPart mark IsIdentifier cs text)
    (hMark : p mark = false) : Text.EndsRun p cs := by
  have hEnds := @SpellsPart.endsRun_append _ [] _ _ _ _ hSpells hMark (Text.endsRun_nil _)
  rwa [List.append_nil] at hEnds

/-- Build metadata is read up to the end of the text. -/
theorem readBuild_eq_ok (hNone : v.build = "") : readBuild v part cs = .ok w ↔
    SpellsPart '+' IsBuildIdentifier cs w.build ∧ w = { v with build := w.build } := by
  unfold readBuild
  simp only
  split
  · rename_i later
    simp only [Outcome.bind_eq_ok, Outcome.pure_eq_ok]
    constructor
    · rintro ⟨⟨build, rest⟩, hRead, _, rfl, hEnd⟩
      obtain ⟨hText, hJoined, _⟩ := readIdentifiers_eq_ok.mp hRead
      cases rest with
      | nil =>
          cases hEnd
          rw [List.append_nil] at hText
          exact ⟨.inr ⟨congrArg ('+' :: ·) hText, hJoined⟩, rfl⟩
      | cons c later => cases hEnd
    · rintro ⟨⟨hAbsent, _⟩ | ⟨hText, hJoined⟩, hVersion⟩
      · cases hAbsent
      · have hLater := (List.cons.inj hText).2
        refine ⟨⟨w.build, []⟩, ?_, _, rfl, ?_⟩
        · rw [readIdentifiers_eq_ok, hLater, List.append_nil]
          exact ⟨rfl, hJoined, Text.endsRun_nil _⟩
        · exact congrArg Except.ok hVersion.symm
  · rename_i hOther
    simp only [Outcome.bind_eq_ok, Outcome.pure_eq_ok]
    constructor
    · rintro ⟨_, rfl, hEnd⟩
      cases cs with
      | nil =>
          cases hEnd
          exact ⟨.inl ⟨rfl, hNone⟩, rfl⟩
      | cons c later => cases hEnd
    · rintro ⟨⟨rfl, hAbsent⟩ | ⟨hText, _⟩, hVersion⟩
      · rw [hAbsent, ← hNone] at hVersion
        exact ⟨_, rfl, congrArg Except.ok hVersion.symm⟩
      · exact absurd hText (hOther _)

/-- What follows the numbers is a pre-release and then build metadata. -/
theorem readRest_eq_ok {major minor patch : Nat} :
    (match cs with
      | '-' :: rest => do
        let (preRelease, rest) ← readIdentifiers .preRelease rest
        readBuild ⟨major, minor, patch, preRelease, ""⟩ .preRelease rest
      | _ => readBuild ⟨major, minor, patch, "", ""⟩ .patch cs) = .ok v ↔
    ∃ preRelease build, cs = preRelease ++ build ∧
      SpellsPart '-' IsPreReleaseIdentifier preRelease v.preRelease ∧
      SpellsPart '+' IsBuildIdentifier build v.build ∧
      v.major = major ∧ v.minor = minor ∧ v.patch = patch := by
  split
  · rename_i later
    simp only [Outcome.bind_eq_ok]
    constructor
    · rintro ⟨⟨preRelease, rest⟩, hRead, hBuild⟩
      obtain ⟨hText, hJoined, _⟩ := readIdentifiers_eq_ok.mp hRead
      obtain ⟨hBuild, hVersion⟩ := (readBuild_eq_ok rfl).mp hBuild
      have hPreRelease : v.preRelease = preRelease := congrArg Version.preRelease hVersion
      refine ⟨'-' :: preRelease.toList, rest, congrArg ('-' :: ·) hText, ?_, hBuild,
        congrArg Version.major hVersion, congrArg Version.minor hVersion,
        congrArg Version.patch hVersion⟩
      rw [hPreRelease]
      exact .inr ⟨rfl, hJoined⟩
    · rintro ⟨preRelease, build, hText, hPreRelease, hBuild, rfl, rfl, rfl⟩
      rcases hPreRelease with ⟨rfl, _⟩ | ⟨rfl, hJoined⟩
      · rcases hBuild with ⟨rfl, _⟩ | ⟨rfl, _⟩ <;> cases hText
      · have hEnds : Text.EndsRun isJoinedChar build := hBuild.endsRun (by decide)
        have hLater := (List.cons.inj hText).2
        exact ⟨⟨v.preRelease, build⟩, readIdentifiers_eq_ok.mpr ⟨hLater, hJoined, hEnds⟩,
          (readBuild_eq_ok rfl).mpr ⟨hBuild, rfl⟩⟩
  · rename_i hOther
    rw [readBuild_eq_ok rfl]
    constructor
    · rintro ⟨hBuild, hVersion⟩
      exact ⟨[], cs, rfl, .inl ⟨rfl, congrArg Version.preRelease hVersion⟩, hBuild,
        congrArg Version.major hVersion, congrArg Version.minor hVersion,
        congrArg Version.patch hVersion⟩
    · rintro ⟨preRelease, build, rfl, hPreRelease, hBuild, rfl, rfl, rfl⟩
      rcases hPreRelease with ⟨rfl, hNone⟩ | ⟨rfl, _⟩
      · refine ⟨hBuild, ?_⟩
        rw [← hNone]
      · exact absurd rfl (hOther _)

/-- A text is read as a version exactly if it spells the version. -/
theorem parse_eq_ok : parse text = .ok v ↔ Spells text.toList v := by
  unfold parse
  split
  · rename_i hEmpty
    rw [hEmpty]
    constructor
    · nofun
    · intro hSpells
      generalize hText : "".toList = cs at hSpells
      cases hSpells
      simp at hText
  · simp only [Outcome.bind_eq_ok]
    constructor
    · rintro ⟨⟨major, _⟩, hMajor, _, hPoint, ⟨minor, _⟩, hMinor, _, hOther, ⟨patch, _⟩, hPatch,
        hRest⟩
      obtain ⟨_, hText, hMajorNumber, _⟩ := readNumber_eq_ok.mp hMajor
      obtain rfl := readPoint_eq_ok.mp hPoint
      obtain ⟨_, rfl, hMinorNumber, _⟩ := readNumber_eq_ok.mp hMinor
      obtain rfl := readPoint_eq_ok.mp hOther
      obtain ⟨_, rfl, hPatchNumber, _⟩ := readNumber_eq_ok.mp hPatch
      obtain ⟨_, _, rfl, hPreRelease, hBuild, rfl, rfl, rfl⟩ := readRest_eq_ok.mp hRest
      rw [hText]
      exact .version hMajorNumber hMinorNumber hPatchNumber hPreRelease hBuild
    · intro hSpells
      generalize text.toList = cs at hSpells
      obtain ⟨hMajor, hMinor, hPatch, hPreRelease, hBuild⟩ := hSpells
      have hBuildEnds := hBuild.endsRun (p := Char.isDigit) (by decide)
      have hEnds := hPreRelease.endsRun_append (by decide) hBuildEnds
      have hPoint {rest : List Char} : Text.EndsRun Char.isDigit ('.' :: rest) := by
        rintro c later ⟨⟩
        rfl
      exact ⟨(v.major, _), readNumber_eq_ok.mpr ⟨_, rfl, hMajor, hPoint⟩,
        _, readPoint_eq_ok.mpr rfl,
        (v.minor, _), readNumber_eq_ok.mpr ⟨_, rfl, hMinor, hPoint⟩,
        _, readPoint_eq_ok.mpr rfl,
        (v.patch, _), readNumber_eq_ok.mpr ⟨_, rfl, hPatch, hEnds⟩,
        readRest_eq_ok.mpr ⟨_, _, rfl, hPreRelease, hBuild, rfl, rfl, rfl⟩⟩

/-- A part is written with its mark unless it is empty. -/
theorem SpellsPart.render_eq (hSpells : SpellsPart mark IsIdentifier cs text)
    (hNil : ¬ IsIdentifier []) (hFree : ∀ cs, IsIdentifier cs → '.' ∉ cs) :
    (if text = "" then "" else String.singleton mark ++ text).toList = cs := by
  rcases hSpells with ⟨rfl, rfl⟩ | ⟨rfl, hJoined⟩
  · rfl
  · have hSome : text ≠ "" := by
      rintro rfl
      exact hNil ((Text.isJoined_iff hFree).mp hJoined [] (by simp [Text.cutAll]))
    rw [if_neg hSome]
    simp

/-- The text that is written for a version is the one that spells it. -/
theorem Spells.render_eq (hSpells : Spells cs v) : v.render.toList = cs := by
  obtain ⟨hMajor, hMinor, hPatch, hPreRelease, hBuild⟩ := hSpells
  have hPre := hPreRelease.render_eq (not_allows_nil .preRelease) (not_mem_of_allows .preRelease)
  have hMeta := hBuild.render_eq (not_allows_nil .build) (not_mem_of_allows .build)
  rw [render]
  simp only [String.toList_append, hMajor.toString_eq, hMinor.toString_eq, hPatch.toString_eq]
  rw [show ("-" : String) = String.singleton '-' from rfl, hPre,
    show ("+" : String) = String.singleton '+' from rfl, hMeta]
  simp

end

end DomainModels.Version
