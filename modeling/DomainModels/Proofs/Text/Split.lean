import DomainModels.Text.Split

/-!
Cutting texts at separators: what the parts say about the text.
-/

namespace DomainModels.Text

variable {sep : Char}

/-- A text is cut at the first separator. -/
theorem cutFirst_append {before : List Char} (hFree : sep ∉ before) (after : List Char) :
    cutFirst sep (before ++ sep :: after) = some (before, after) := by
  induction before with
  | nil => simp [cutFirst]
  | cons c rest ih =>
      rw [List.mem_cons, not_or] at hFree
      rw [List.cons_append, cutFirst, if_neg (Ne.symm hFree.1), ih hFree.2]
      rfl

theorem cutFirst_of_not_mem {cs : List Char} (hFree : sep ∉ cs) : cutFirst sep cs = none := by
  induction cs with
  | nil => rfl
  | cons c rest ih =>
      rw [List.mem_cons, not_or] at hFree
      rw [cutFirst, if_neg (Ne.symm hFree.1), ih hFree.2]
      rfl

theorem cutLast_of_not_mem {cs : List Char} (hFree : sep ∉ cs) : cutLast sep cs = none := by
  induction cs with
  | nil => rfl
  | cons c rest ih =>
      rw [List.mem_cons, not_or] at hFree
      rw [cutLast, ih hFree.2]
      exact if_neg (Ne.symm hFree.1)

/-- A text is cut at the last separator. -/
theorem cutLast_append (before : List Char) {after : List Char} (hFree : sep ∉ after) :
    cutLast sep (before ++ sep :: after) = some (before, after) := by
  induction before with
  | nil => simp [cutLast, cutLast_of_not_mem hFree]
  | cons c rest ih => rw [List.cons_append, cutLast, ih]

theorem cutLast_eq_none {cs : List Char} : cutLast sep cs = none ↔ sep ∉ cs := by
  constructor
  · intro hNone
    induction cs with
    | nil => simp
    | cons c rest ih =>
        unfold cutLast at hNone
        split at hNone
        · cases hNone
        · rename_i hRest
          split at hNone
          · cases hNone
          · rename_i hOther
            rw [List.mem_cons, not_or]
            exact ⟨Ne.symm hOther, ih hRest⟩
  · exact cutLast_of_not_mem

/-- After the last separator there is no other one. -/
theorem not_mem_of_cutLast {cs before after : List Char}
    (hCut : cutLast sep cs = some (before, after)) : sep ∉ after := by
  induction cs generalizing before with
  | nil => simp [cutLast] at hCut
  | cons c rest ih =>
      unfold cutLast at hCut
      split at hCut
      · rename_i front back hRest
        cases hCut
        exact ih hRest
      · rename_i hNone
        split at hCut
        · cases hCut
          exact cutLast_eq_none.mp hNone
        · cases hCut

/-! ## All parts -/

theorem cutAll_ne_nil (cs : List Char) : cutAll sep cs ≠ [] := by
  cases cs with
  | nil => simp [cutAll]
  | cons c rest =>
      unfold cutAll
      split
      · simp
      · split <;> simp

/-- Every character is a separator or stands in a part. -/
theorem mem_cutAll (sep : Char) {cs : List Char} {c : Char} (hMem : c ∈ cs) :
    c = sep ∨ ∃ part ∈ cutAll sep cs, c ∈ part := by
  induction cs with
  | nil => simp at hMem
  | cons d rest ih =>
      unfold cutAll
      split
      · rename_i hSep
        rcases List.mem_cons.mp hMem with rfl | hMem
        · exact .inl hSep
        · refine (ih hMem).imp_right ?_
          rintro ⟨part, hPart, hIn⟩
          exact ⟨part, List.mem_cons_of_mem _ hPart, hIn⟩
      · split
        · rename_i hNone
          exact absurd hNone (cutAll_ne_nil rest)
        · rename_i part parts hParts
          rw [hParts] at ih
          rcases List.mem_cons.mp hMem with rfl | hMem
          · exact .inr ⟨c :: part, List.mem_cons_self, List.mem_cons_self⟩
          · refine (ih hMem).imp_right ?_
            rintro ⟨other, hOther, hIn⟩
            rcases List.mem_cons.mp hOther with rfl | hOther
            · exact ⟨d :: other, List.mem_cons_self, List.mem_cons_of_mem _ hIn⟩
            · exact ⟨other, List.mem_cons_of_mem _ hOther, hIn⟩

/-- A part holds characters of the text other than the separator. -/
theorem mem_of_mem_cutAll {cs part : List Char} (hPart : part ∈ cutAll sep cs) {c : Char}
    (hMem : c ∈ part) : c ∈ cs ∧ c ≠ sep := by
  induction cs generalizing part with
  | nil =>
      rw [cutAll, List.mem_singleton] at hPart
      rw [hPart] at hMem
      cases hMem
  | cons d rest ih =>
      have hRest {other : List Char} (hOther : other ∈ cutAll sep rest) (hIn : c ∈ other) :
          c ∈ d :: rest ∧ c ≠ sep := by
        obtain ⟨hText, hSep⟩ := ih hOther hIn
        exact ⟨List.mem_cons_of_mem _ hText, hSep⟩
      unfold cutAll at hPart
      split at hPart
      · rcases List.mem_cons.mp hPart with rfl | hPart
        · cases hMem
        · exact hRest hPart hMem
      · rename_i hOther
        split at hPart
        · rename_i hNone
          exact absurd hNone (cutAll_ne_nil rest)
        · rename_i first parts hParts
          rw [hParts] at hRest
          rcases List.mem_cons.mp hPart with rfl | hPart
          · rcases List.mem_cons.mp hMem with rfl | hMem
            · exact ⟨List.mem_cons_self, hOther⟩
            · exact hRest List.mem_cons_self hMem
          · exact hRest (List.mem_cons_of_mem _ hPart) hMem

/-- A separator at the end leaves an empty part after others. -/
theorem cutAll_concat (before : List Char) :
    ∃ parts, parts ≠ [] ∧ cutAll sep (before ++ [sep]) = parts ++ [[]] := by
  induction before with
  | nil => exact ⟨[[]], by simp, by simp [cutAll]⟩
  | cons c rest ih =>
      obtain ⟨parts, hSome, hParts⟩ := ih
      rw [List.cons_append, cutAll, hParts]
      split
      · exact ⟨[] :: parts, by simp, rfl⟩
      · obtain ⟨part, later, rfl⟩ := List.exists_cons_of_ne_nil hSome
        exact ⟨(c :: part) :: later, by simp, rfl⟩

theorem nil_mem_cutAll_of_last (before : List Char) : [] ∈ cutAll sep (before ++ [sep]) := by
  obtain ⟨parts, _, hParts⟩ := @cutAll_concat sep before
  rw [hParts]
  exact List.mem_append_right _ List.mem_cons_self

/-- A text ends as what stands last in it does. -/
theorem ne_concat_of_append {front back : List Char} (hBack : ∀ before, back ≠ before ++ [sep])
    (hFront : back = [] → ∀ before, front ≠ before ++ [sep]) (before : List Char) :
    front ++ back ≠ before ++ [sep] := by
  intro hLast
  rcases List.eq_nil_or_concat back with rfl | ⟨later, c, rfl⟩
  · rw [List.append_nil] at hLast
    exact hFront rfl before hLast
  · rw [List.concat_eq_append, ← List.append_assoc] at hLast
    obtain ⟨-, hSame⟩ := List.append_inj' hLast rfl
    exact hBack later (by rw [List.concat_eq_append, hSame])

/-! ## Runs of characters -/

/-- No character of a run follows. -/
def EndsRun (p : Char → Bool) (rest : List Char) : Prop := ∀ c later, rest = c :: later → p c = false

theorem endsRun_nil (p : Char → Bool) : EndsRun p [] := by
  rintro c later ⟨⟩

/-- A text begins with a run, and nothing that follows belongs to it. -/
theorem run_of_text (p : Char → Bool) (cs : List Char) :
    cs = cs.takeWhile p ++ cs.dropWhile p ∧ (∀ c ∈ cs.takeWhile p, p c = true) ∧
      EndsRun p (cs.dropWhile p) := by
  refine ⟨List.takeWhile_append_dropWhile.symm, List.all_eq_true.mp List.all_takeWhile, ?_⟩
  intro c later hRest
  have hHead := List.head_dropWhile_not p (l := cs) (by simp [hRest])
  simpa [hRest] using hHead

/-- A run that nothing more belongs to is all that is taken from a text. -/
theorem run_of_append {p : Char → Bool} {front rest : List Char}
    (hFront : ∀ c ∈ front, p c = true) (hEnds : EndsRun p rest) :
    (front ++ rest).takeWhile p = front ∧ (front ++ rest).dropWhile p = rest := by
  rw [List.takeWhile_append_of_pos hFront, List.dropWhile_append_of_pos hFront]
  cases rest with
  | nil => simp
  | cons c later => simp [hEnds c later rfl]

/-! ## Joined parts -/

/-- The parts of a text are those of the standard library. -/
theorem cutAll_eq_splitOn (sep : Char) (cs : List Char) : cutAll sep cs = cs.splitOn sep := by
  rw [List.splitOn_eq_splitOnP]
  induction cs with
  | nil => rfl
  | cons c rest ih =>
      rw [cutAll, ih, List.splitOnP_cons_eq_if_modifyHead]
      by_cases hSep : c = sep
      · rw [if_pos hSep, if_pos (by simpa using hSep)]
      · rw [if_neg hSep, if_neg (by simpa using hSep)]
        cases hParts : rest.splitOnP (· == sep) with
        | nil => exact absurd hParts (List.splitOnP_ne_nil _ rest)
        | cons part parts => rfl

/-- Parts of some form, of which there is at least one, are joined by a separator. -/
inductive IsJoined (sep : Char) (P : List Char → Prop) : List Char → Prop where
  | join {parts : List (List Char)} (hSome : parts ≠ []) (hParts : ∀ part ∈ parts, P part) :
      IsJoined sep P ([sep].intercalate parts)

/-- Where the parts are free of the separator, a text consists of them if its parts have their
form. -/
theorem isJoined_iff {P : List Char → Prop} (hFree : ∀ part, P part → sep ∉ part)
    {cs : List Char} : IsJoined sep P cs ↔ ∀ part ∈ cutAll sep cs, P part := by
  rw [cutAll_eq_splitOn]
  constructor
  · rintro ⟨hSome, hParts⟩
    rw [List.splitOn_intercalate sep (fun part hMem => hFree part (hParts part hMem)) hSome]
    exact hParts
  · intro hParts
    have hJoined := @IsJoined.join sep P _ (List.splitOn_ne_nil sep cs) hParts
    rwa [List.intercalate_splitOn] at hJoined

end DomainModels.Text
