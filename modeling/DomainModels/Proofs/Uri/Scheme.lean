import DomainModels.Proofs.Outcome
import DomainModels.Proofs.Text.Length
import DomainModels.Proofs.Uri.Pointer

/-!
Identifiers without a scheme.

A text that has a scheme is read as a URI, and any other text as an identifier. What is read from a
URI is shorter than the URI, so that no text with a scheme stands for itself.
-/

namespace DomainModels

namespace Uri

/-! ## Schemes -/

/-- A text starts, apart from blanks and controls, with a letter, more characters of schemes, and a
colon. -/
def HasScheme (text : String) : Prop :=
  ∃ letter more rest, clean text.toList = letter :: more ++ ':' :: rest ∧ letter.isAlpha = true ∧
    ∀ c ∈ more, isSchemeChar c = true

theorem cutScheme_eq_some {cs scheme rest : List Char} (hCut : cutScheme cs = some (scheme, rest)) :
    ∃ letter more, cs = letter :: more ++ ':' :: rest ∧ letter.isAlpha = true ∧
      (∀ c ∈ more, isSchemeChar c = true) ∧ scheme = (letter :: more).map Char.toLower := by
  obtain ⟨hText, hAll, _⟩ := Text.run_of_text isSchemeChar cs
  unfold cutScheme at hCut
  simp only at hCut
  split at hCut
  · rename_i after hAfter
    split at hCut
    · rename_i hAlpha
      cases hCut
      cases hRun : cs.takeWhile isSchemeChar with
      | nil =>
          rw [hRun] at hAlpha
          cases hAlpha
      | cons letter more =>
          rw [hRun] at hText hAll hAlpha
          refine ⟨letter, more, hAfter ▸ hText, hAlpha, ?_, rfl⟩
          exact fun c hMem => hAll c (List.mem_cons_of_mem _ hMem)
    · cases hCut
  · cases hCut

theorem cutScheme_of_append {letter : Char} {more : List Char} (hAlpha : letter.isAlpha = true)
    (hMore : ∀ c ∈ more, isSchemeChar c = true) (rest : List Char) :
    cutScheme (letter :: more ++ ':' :: rest) =
      some ((letter :: more).map Char.toLower, rest) := by
  have hAll : ∀ c ∈ letter :: more, isSchemeChar c = true := by
    refine List.forall_mem_cons.mpr ⟨?_, hMore⟩
    simp [isSchemeChar, Char.isAlphanum, hAlpha]
  have hEnds : Text.EndsRun isSchemeChar (':' :: rest) := by
    rintro c later ⟨⟩
    decide
  obtain ⟨hTake, hDrop⟩ := Text.run_of_append hAll hEnds
  simp only [cutScheme, hTake, hDrop, List.head?_cons, Option.any_some, hAlpha, if_true]

theorem hasScheme_iff {text : String} :
    HasScheme text ↔ (cutScheme (clean text.toList)).isSome = true := by
  constructor
  · rintro ⟨letter, more, rest, hText, hAlpha, hMore⟩
    rw [hText, cutScheme_of_append hAlpha hMore]
    rfl
  · intro hSome
    obtain ⟨⟨scheme, rest⟩, hCut⟩ := Option.isSome_iff_exists.mp hSome
    obtain ⟨letter, more, hText, hAlpha, hMore, _⟩ := cutScheme_eq_some hCut
    exact ⟨letter, more, rest, hText, hAlpha, hMore⟩

instance (text : String) : Decidable (HasScheme text) := decidable_of_iff _ hasScheme_iff.symm

/-! ## What is read from a URI -/

/-- Reading comes to a result of some sort, or fails for another reason than that there is no
scheme. -/
def Reads {α : Type} (P : α → Prop) : Except Fault α → Prop
  | .error fault => fault ≠ .noScheme
  | .ok a => P a

theorem Reads.bind {α β : Type} {P : α → Prop} {Q : β → Prop} {x : Except Fault α}
    {f : α → Except Fault β} (hFirst : Reads P x) (hRest : ∀ a, P a → Reads Q (f a)) :
    Reads Q (x >>= f) := by
  cases x with
  | error fault => exact hFirst
  | ok a => exact hRest a hFirst

theorem Reads.imp {α : Type} {P Q : α → Prop} {x : Except Fault α} (hReads : Reads P x)
    (hImp : ∀ a, P a → Q a) : Reads Q x := by
  cases x with
  | error fault => exact hReads
  | ok a => exact hImp a hReads

/-! ### Authorities -/

theorem reads_checkBracketed (host : List Char) : Reads (fun _ => True) (checkBracketed host) := by
  unfold checkBracketed
  split
  · exact trivial
  · exact nofun

theorem reads_checkOpaqueHost (host : List Char) :
    Reads (fun _ => True) (checkOpaqueHost host) := by
  unfold checkOpaqueHost
  split
  · exact reads_checkBracketed host
  · split
    · exact nofun
    · exact trivial

theorem reads_checkDomain (host : List Char) : Reads (fun _ => True) (checkDomain host) := by
  unfold checkDomain
  split
  · exact reads_checkBracketed host
  · simp only
    repeat' split
    · exact nofun
    · exact nofun
    · exact nofun
    · exact trivial

/-- Nothing is added to what follows a number. -/
theorem reads_readPort (number : Option Nat) (text : List Char) :
    Reads (fun read => read.2.length ≤ text.length) (readPort number text) := by
  induction text generalizing number with
  | nil => exact Nat.le_refl 0
  | cons c rest ih =>
      unfold readPort
      split
      · simp only
        split
        · exact (ih _).imp fun _ hRest => hRest.trans (Nat.le_succ _)
        · exact nofun
      · split
        · exact Nat.le_refl _
        · exact nofun

theorem length_takeHost_le (special bracketed : Bool) (text : List Char) :
    (takeHost special bracketed text).2.length ≤ text.length := by
  induction text generalizing bracketed with
  | nil => exact Nat.le_refl 0
  | cons c rest ih =>
      unfold takeHost
      split
      · exact Nat.le_refl _
      · exact (ih _).trans (Nat.le_succ _)

theorem reads_readCredentials (special : Bool) (text : List Char) :
    Reads (fun read => read.2.length ≤ text.length) (readCredentials special text) := by
  have hWhole : text = text.takeWhile (fun c => !endsAuthority special c) ++
      text.dropWhile (fun c => !endsAuthority special c) :=
    List.takeWhile_append_dropWhile.symm
  -- The host is the part of the authority after the credentials.
  have hShorter {front host : List Char}
      (hCut : Text.cutLast '@' (text.takeWhile fun c => !endsAuthority special c) =
        some (front, host)) :
      (host ++ text.dropWhile fun c => !endsAuthority special c).length ≤ text.length := by
    have hLength := congrArg List.length hWhole
    rw [Text.cutLast_eq_some hCut] at hLength
    simp only [List.length_append, List.length_cons] at hLength ⊢
    omega
  unfold readCredentials
  simp only
  split
  · exact Nat.le_refl _
  · rename_i hCut
    split
    · exact nofun
    · exact hShorter hCut
  · rename_i hCut
    exact hShorter hCut

theorem reads_readAuthority (special : Bool) (text : List Char) :
    Reads (fun read => read.2.2.length ≤ text.length) (readAuthority special text) := by
  unfold readAuthority
  refine (reads_readCredentials special text).bind fun ⟨hasCredentials, rest⟩ hRest => ?_
  have hAfter := (length_takeHost_le special false rest).trans hRest
  simp only
  split
  · exact nofun
  · split
    on_goal 1 => refine (reads_checkDomain _).bind fun _ _ => ?_
    on_goal 2 => refine (reads_checkOpaqueHost _).bind fun _ _ => ?_
    all_goals
      split
      · rename_i after hColon
        rw [hColon] at hAfter
        split
        · exact nofun
        · refine (reads_readPort none after).bind fun read hRead => ?_
          split
          · exact nofun
          · exact hRead.trans ((Nat.le_succ _).trans hAfter)
      · split
        · exact nofun
        · exact hAfter

/-! ### Fragments -/

/-- The fragment of a URI, if it has one, is escaped text of less than so many characters. -/
def HasFragmentBelow (n : Nat) (uri : Uri) : Prop :=
  ∀ fragment, uri.fragment = some fragment →
    ∃ raw, fragment = Percent.escape isFragmentChar raw ∧ raw.length < n

/-- The mark before the fragment is no part of it. -/
theorem hasFragmentBelow_of_cutTail {uri : Uri} {text : List Char}
    (hTail : uri.fragment = (cutTail text).2.2) : HasFragmentBelow text.length uri := by
  intro fragment hFragment
  rw [hTail] at hFragment
  cases hCut : Text.cutFirst '#' text with
  | none =>
      simp only [cutTail, hCut] at hFragment
      split at hFragment <;> cases hFragment
  | some parts =>
      obtain ⟨front, raw⟩ := parts
      refine ⟨raw, ?_, ?_⟩
      · simp only [cutTail, hCut] at hFragment
        split at hFragment <;> cases hFragment <;> rfl
      · rw [(Text.cutFirst_eq_some hCut).1, List.length_append, List.length_cons]
        omega

theorem HasFragmentBelow.mono {n m : Nat} {uri : Uri} (hBelow : HasFragmentBelow n uri)
    (hLe : n ≤ m) : HasFragmentBelow m uri := fun fragment hFragment =>
  let ⟨raw, hRaw, hLess⟩ := hBelow fragment hFragment
  ⟨raw, hRaw, Nat.lt_of_lt_of_le hLess hLe⟩

theorem reads_readRest (scheme text : List Char) :
    Reads (HasFragmentBelow text.length) (readRest scheme text) := by
  unfold readRest
  split
  · rename_i rest
    refine (reads_readAuthority false rest).bind fun ⟨_, _, after⟩ hAfter => ?_
    have hSlashes : rest.length ≤ rest.length + 1 + 1 := by omega
    exact (hasFragmentBelow_of_cutTail rfl).mono (hAfter.trans hSlashes)
  · exact (hasFragmentBelow_of_cutTail rfl).mono (Nat.le_succ _)
  · exact hasFragmentBelow_of_cutTail rfl

theorem reads_checkFileHost (rest : List Char) : Reads (fun _ => True) (checkFileHost rest) := by
  unfold checkFileHost
  split
  · split
    · simp only
      split
      · exact trivial
      · exact reads_checkDomain _
    · exact trivial
  · exact trivial

theorem length_clean_le (cs : List Char) : (clean cs).length ≤ cs.length := by
  have hDrop (text : List Char) :
      (text.dropWhile fun c => decide (c ≤ ' ')).length ≤ text.length :=
    (List.dropWhile_suffix _).length_le
  refine (List.length_filter_le _ _).trans ?_
  rw [List.length_reverse]
  refine (hDrop _).trans ?_
  rw [List.length_reverse]
  exact hDrop cs

/-- A text that has a scheme is a URI, or there is another reason why it is none. Its fragment is
shorter than the text. -/
theorem reads_parse {text : String} (hScheme : HasScheme text) :
    Reads (HasFragmentBelow text.toList.length) (parse text) := by
  obtain ⟨⟨scheme, rest⟩, hCut⟩ := Option.isSome_iff_exists.mp (hasScheme_iff.mp hScheme)
  have hLength : rest.length ≤ text.toList.length := by
    obtain ⟨letter, more, hText, _⟩ := cutScheme_eq_some hCut
    have hClean := length_clean_le text.toList
    rw [hText] at hClean
    simp only [List.length_append, List.length_cons] at hClean
    omega
  unfold parse
  rw [hCut]
  simp only
  split
  · have hSlashes : (rest.dropWhile isSlash).length ≤ rest.length :=
      (List.dropWhile_suffix _).length_le
    refine (reads_readAuthority true _).bind fun ⟨_, _, after⟩ hAfter => ?_
    exact (hasFragmentBelow_of_cutTail rfl).mono (hAfter.trans (hSlashes.trans hLength))
  · split
    · refine (reads_checkFileHost rest).bind fun _ _ => ?_
      exact (hasFragmentBelow_of_cutTail rfl).mono hLength
    · exact (reads_readRest scheme rest).imp fun _ hBelow => hBelow.mono hLength

end Uri

namespace Relationship

variable {text space name : String}

/-- A text without a scheme is the identifier of an instance of the default type. -/
theorem ofUri_of_no_scheme (hNone : ¬ Uri.HasScheme text) (hText : text ≠ "") :
    ofUri text space name = .ok ⟨space, name, text⟩ := by
  have hCut : Uri.cutScheme (Uri.clean text.toList) = none := by
    rw [Uri.hasScheme_iff, Option.not_isSome_iff_eq_none] at hNone
    exact hNone
  have hParse : Uri.parse text = .error .noScheme := by rw [Uri.parse, hCut]
  rw [ofUri, hParse]
  exact if_neg hText

theorem id_of_ofParts? {path id : List Char} {r : Relationship}
    (hParts : ofParts? path id space name = some r) :
    r.id = String.ofList (Percent.decode id) := by
  unfold ofParts? at hParts
  simp only at hParts
  split at hParts
  · cases hParts
  · split at hParts <;> cases hParts <;> rfl

/-- What a text with a scheme points to has a shorter identifier. -/
theorem length_id_of_ofUri {r : Relationship} (hScheme : Uri.HasScheme text)
    (hRead : ofUri text space name = .ok r) : r.id.toList.length < text.toList.length := by
  have hReads := Uri.reads_parse hScheme
  unfold ofUri at hRead
  cases hParse : Uri.parse text with
  | error fault =>
      rw [hParse] at hReads hRead
      cases fault with
      | noScheme => exact (hReads rfl).elim
      | _ => cases hRead
  | ok uri =>
      rw [hParse] at hReads hRead
      simp only at hRead
      split at hRead
      · cases hRead
      · split at hRead
        · cases hRead
        · split at hRead
          · rename_i found hFound
            cases hRead
            obtain ⟨fragment, hFragment, hParts⟩ := Option.bind_eq_some_iff.mp hFound
            obtain ⟨raw, rfl, hLess⟩ := hReads fragment hFragment
            rw [id_of_ofParts? hParts, Uri.decode_fragment, String.toList_ofList]
            exact Nat.lt_of_le_of_lt (Percent.length_decode_le raw) hLess
          · cases hRead

/-- A text is the identifier of an instance of the default type exactly if it has no scheme. -/
theorem ofUri_eq_self_iff (hText : text ≠ "") :
    ofUri text space name = .ok ⟨space, name, text⟩ ↔ ¬ Uri.HasScheme text := by
  constructor
  · intro hRead hScheme
    exact Nat.lt_irrefl text.toList.length (length_id_of_ofUri hScheme hRead)
  · exact fun hNone => ofUri_of_no_scheme hNone hText

end Relationship

end DomainModels
