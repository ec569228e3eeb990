import DomainModels.Proofs.Text.Percent
import DomainModels.Proofs.Text.Split
import DomainModels.Relationship

/-!
The URI of a pointer is read as the pointer, whatever its identifier is.
-/

namespace DomainModels

/-- Characters that stand for themselves in the path of a URI, and that do not end it. -/
def isPlainChar (c : Char) : Bool :=
  ' ' < c && c ≠ '#' && c ≠ '?' && c ≠ '%' && c ≠ '/'

/-- Whether all characters of a class are plain can be seen from the first ones. -/
theorem isPlainChar_of_table {p : Char → Bool}
    (hTable : ∀ n < 64, p (Char.ofNat n) = true → isPlainChar (Char.ofNat n) = true) {c : Char}
    (hChar : p c = true) : isPlainChar c = true := by
  have hSame : Char.ofNat c.toNat = c := Char.ofNat_toNat c
  by_cases hSmall : c.toNat < 64
  · rw [← hSame] at hChar ⊢
    exact hTable c.toNat hSmall hChar
  · have hLarge : ∀ d : Char, d.toNat < 64 → c ≠ d := by
      rintro d hD rfl
      exact hSmall hD
    have hVisible : ' ' < c := by
      show (' ' : Char).toNat < c.toNat
      have hBlank : (' ' : Char).toNat = 32 := rfl
      omega
    simp [isPlainChar, hVisible, hLarge '#' (by decide), hLarge '?' (by decide),
      hLarge '%' (by decide), hLarge '/' (by decide)]

theorem visible_of_isPlainChar {c : Char} (hPlain : isPlainChar c = true) : ' ' < c := by
  simp only [isPlainChar, Bool.and_eq_true, decide_eq_true_eq] at hPlain
  exact hPlain.1.1.1.1

namespace Uri

/-- A text without blanks and controls is clean. -/
theorem clean_of_visible {cs : List Char} (hVisible : ∀ c ∈ cs, ' ' < c) : clean cs = cs := by
  have hDrop {text : List Char} (hText : ∀ c ∈ text, ' ' < c) :
      text.dropWhile (fun c => decide (c ≤ ' ')) = text := by
    cases text with
    | nil => rfl
    | cons c rest =>
        have hFirst : ¬ c ≤ ' ' := Std.not_le.mpr (hText c List.mem_cons_self)
        rw [List.dropWhile_cons_of_neg (by simpa using hFirst)]
  have hReverse : ∀ c ∈ cs.reverse, ' ' < c := fun c hMem => hVisible c (List.mem_reverse.mp hMem)
  unfold clean
  simp only [hDrop hVisible, hDrop hReverse, List.reverse_reverse]
  refine List.filter_eq_self.mpr ?_
  intro c hMem
  have hAbove := hVisible c hMem
  have hTab : c ≠ '\t' := by
    rintro rfl
    exact absurd hAbove (by decide)
  have hFeed : c ≠ '\n' := by
    rintro rfl
    exact absurd hAbove (by decide)
  have hReturn : c ≠ '\r' := by
    rintro rfl
    exact absurd hAbove (by decide)
  simp [hTab, hFeed, hReturn]

end Uri

namespace Percent

/-- Encoded texts have no blanks and controls. -/
theorem visible_of_mem_encode {cs : List Char} {c : Char} (hMem : c ∈ encode cs) : ' ' < c := by
  obtain ⟨d, _, hChar⟩ := List.mem_flatMap.mp hMem
  unfold escapeChar at hChar
  split at hChar
  · rename_i hKept
    rw [List.mem_singleton.mp hChar]
    exact visible_of_isPlainChar (isPlainChar_of_table (by decide) hKept)
  · obtain ⟨b, _, hByte⟩ := List.mem_flatMap.mp hChar
    have hByteBound : b.toNat < 256 := b.toNat_lt
    have hDigit : ∀ n < 16, ' ' < Text.upperHexDigit n := by decide
    simp only [encodeByte, List.mem_cons, List.not_mem_nil, or_false] at hByte
    rcases hByte with rfl | rfl | rfl
    · decide
    · exact hDigit _ (by omega)
    · exact hDigit _ (by omega)

end Percent

namespace Uri

/-- An opaque path stands for what it was before it was escaped. -/
theorem decode_opaque (cs : List Char) :
    Percent.decode (Percent.escape isOpaqueChar cs) = Percent.decode cs :=
  Percent.decode_escape (Percent.keeps_of_table (by decide)) (by decide) cs

/-- A fragment stands for what it was before it was escaped. -/
theorem decode_fragment (cs : List Char) :
    Percent.decode (Percent.escape isFragmentChar cs) = Percent.decode cs :=
  Percent.decode_escape (Percent.keeps_of_table (by decide)) (by decide) cs

/-- A text of the scheme of pointers, whose path is plain. -/
theorem parse_resource {path fragment : List Char} (hPath : ∀ c ∈ path, isPlainChar c = true)
    (hFragment : ∀ c ∈ fragment, ' ' < c) :
    parse (String.ofList ("resource:".toList ++ (path ++ '#' :: fragment))) =
      .ok ⟨"resource".toList, false, none, Percent.escape isOpaqueChar path, none,
        some (Percent.escape isFragmentChar fragment)⟩ := by
  have hVisible : ∀ c ∈ "resource:".toList ++ (path ++ '#' :: fragment), ' ' < c := by
    intro c hMem
    have hPrefix : "resource:".toList.all isPlainChar = true := by decide
    rcases List.mem_append.mp hMem with hMem | hMem
    · exact visible_of_isPlainChar (List.all_eq_true.mp hPrefix c hMem)
    · rcases List.mem_append.mp hMem with hMem | hMem
      · exact visible_of_isPlainChar (hPath c hMem)
      · rcases List.mem_cons.mp hMem with rfl | hMem
        · decide
        · exact hFragment c hMem
  have hScheme : cutScheme ("resource:".toList ++ (path ++ '#' :: fragment)) =
      some ("resource".toList, path ++ '#' :: fragment) := rfl
  have hNoHash : '#' ∉ path := fun hMem => absurd (hPath _ hMem) (by decide)
  have hNoQuestion : '?' ∉ path := fun hMem => absurd (hPath _ hMem) (by decide)
  have hTail : cutTail (path ++ '#' :: fragment) =
      (path, none, some (Percent.escape isFragmentChar fragment)) := by
    simp only [cutTail, Text.cutFirst_append hNoHash, Text.cutFirst_of_not_mem hNoQuestion]
  have hRest : readRest "resource".toList (path ++ '#' :: fragment) =
      .ok ⟨"resource".toList, false, none, Percent.escape isOpaqueChar path, none,
        some (Percent.escape isFragmentChar fragment)⟩ := by
    have hOpaque : ∀ rest, path ++ '#' :: fragment ≠ '/' :: rest := by
      intro rest hSlash
      cases path with
      | nil => cases hSlash
      | cons c later =>
          cases hSlash
          exact absurd (hPath '/' List.mem_cons_self) (by decide)
    unfold readRest
    split
    · rename_i rest hSlash
      exact absurd hSlash (hOpaque _)
    · rename_i rest hSlash
      exact absurd hSlash (hOpaque _)
    · rw [hTail]
  have hOrdinary : isSpecial "resource".toList = false := by decide
  simp only [parse, String.toList_ofList, clean_of_visible hVisible, hScheme, hOrdinary]
  exact hRest

end Uri

namespace Relationship

/-- The URI of a pointer is read as the pointer. -/
theorem ofUri_toUri {r : Relationship} (hPlain : ∀ c ∈ r.fqn.toList, isPlainChar c = true)
    (hSplit : splitQualified r.fqn = some (r.space, r.typeName)) (hId : r.id ≠ "")
    (defaultSpace defaultType : String) : ofUri r.toUri defaultSpace defaultType = .ok r := by
  have hText : r.toUri = String.ofList
      ("resource:".toList ++ (r.fqn.toList ++ '#' :: Percent.encode r.id.toList)) := by
    rw [← String.toList_inj]
    simp [toUri, scheme]
  have hPercent : '%' ∉ r.fqn.toList := fun hMem => absurd (hPlain _ hMem) (by decide)
  have hParts : ofParts? (Percent.escape Uri.isOpaqueChar r.fqn.toList)
      (Percent.escape Uri.isFragmentChar (Percent.encode r.id.toList)) defaultSpace defaultType =
        some r := by
    simp only [ofParts?, Uri.decode_opaque, Uri.decode_fragment, Percent.decode_of_plain hPercent,
      Percent.decode_encode, String.ofList_toList, hId, if_false, hSplit]
  have hVisible : ∀ c ∈ Percent.encode r.id.toList, ' ' < c :=
    fun c => Percent.visible_of_mem_encode
  have hParse : Uri.parse r.toUri = .ok
      ⟨"resource".toList, false, none, Percent.escape Uri.isOpaqueChar r.fqn.toList, none,
        some (Percent.escape Uri.isFragmentChar (Percent.encode r.id.toList))⟩ := by
    rw [hText]
    exact Uri.parse_resource hPlain hVisible
  have hScheme : "resource".toList = scheme.toList := rfl
  unfold ofUri
  split
  · rename_i hFailed
    rw [hParse] at hFailed
    cases hFailed
  · rename_i hFailed
    rw [hParse] at hFailed
    cases hFailed
  · rename_i uri hUri
    obtain rfl := Except.ok.inj (hParse.symm.trans hUri)
    simp only [hScheme, ne_eq, not_true, if_false, Option.isSome_none, Bool.or_self,
      Bool.false_eq_true, Option.bind_some, hParts]

end Relationship

end DomainModels
