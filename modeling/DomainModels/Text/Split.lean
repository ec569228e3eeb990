/-!
Cutting a text at a separator.
-/

namespace DomainModels.Text

/-- The parts before and after the first occurrence of `sep`. -/
def cutFirst (sep : Char) : List Char → Option (List Char × List Char)
  | [] => none
  | c :: rest =>
    if c = sep then some ([], rest)
    else (cutFirst sep rest).map fun (before, after) => (c :: before, after)

/-- The parts before and after the last occurrence of `sep`. -/
def cutLast (sep : Char) : List Char → Option (List Char × List Char)
  | [] => none
  | c :: rest =>
    match cutLast sep rest with
    | some (before, after) => some (c :: before, after)
    | none => if c = sep then some ([], rest) else none

/-- The parts between the occurrences of `sep`; a text without one is its only part. -/
def cutAll (sep : Char) : List Char → List (List Char)
  | [] => [[]]
  | c :: rest =>
    if c = sep then [] :: cutAll sep rest
    else
      match cutAll sep rest with
      | [] => [[c]]
      | part :: parts => (c :: part) :: parts

/-- What is cut apart at the first separator is the text. -/
theorem cutFirst_eq_some {sep : Char} {cs before after : List Char}
    (hCut : cutFirst sep cs = some (before, after)) :
    cs = before ++ sep :: after ∧ sep ∉ before := by
  induction cs generalizing before with
  | nil => simp [cutFirst] at hCut
  | cons c rest ih =>
    unfold cutFirst at hCut
    split at hCut
    · rename_i hSep
      simp only [Option.some.injEq, Prod.mk.injEq] at hCut
      obtain ⟨rfl, rfl⟩ := hCut
      simp [hSep]
    · rename_i hSep
      obtain ⟨⟨front, back⟩, hRest, hEq⟩ := Option.map_eq_some_iff.1 hCut
      simp only [Prod.mk.injEq] at hEq
      obtain ⟨rfl, rfl⟩ := hEq
      obtain ⟨rfl, hFree⟩ := ih hRest
      exact ⟨rfl, by simp [hFree, Ne.symm hSep]⟩

/-- What is cut apart at the last separator is the text. -/
theorem cutLast_eq_some {sep : Char} {cs before after : List Char}
    (hCut : cutLast sep cs = some (before, after)) :
    cs = before ++ sep :: after := by
  induction cs generalizing before with
  | nil => simp [cutLast] at hCut
  | cons c rest ih =>
    unfold cutLast at hCut
    split at hCut
    · rename_i hRest
      simp only [Option.some.injEq, Prod.mk.injEq] at hCut
      obtain ⟨rfl, rfl⟩ := hCut
      simp [ih hRest]
    · split at hCut
      · rename_i hSep
        simp only [Option.some.injEq, Prod.mk.injEq] at hCut
        obtain ⟨rfl, rfl⟩ := hCut
        simp [hSep]
      · simp at hCut

/-- The text begins with the characters of `start`, and the rest is what follows them. -/
def dropStart? : List Char → List Char → Option (List Char)
  | [], cs => some cs
  | _ :: _, [] => none
  | s :: start, c :: cs => if s = c then dropStart? start cs else none

end DomainModels.Text
