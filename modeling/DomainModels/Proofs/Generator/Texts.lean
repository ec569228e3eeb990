import DomainModels.Generator.Mode
import DomainModels.Proofs.Outcome
import DomainModels.Proofs.Schema.Defaults
import Mathlib.Data.List.GetD

/-!
The lengths of generated texts.

`Pads` is the loop that appends fillers, without a bound on their number. No filler is empty, so
that every step makes a text longer and the loop ends by itself. It may overshoot the least length
by whole words. The greatest length, to which the text is cut then, is no smaller than the least
one, because a validator with crossed bounds is refused. The text of a pattern has passed the
validator before it is taken.
-/

namespace DomainModels

open DomainModels.Random (Source)

/-! ## Length bounds -/

namespace TextValidator

/-- The number of characters is within the bounds that there are. -/
def HasLength (v : TextValidator) (text : String) : Prop :=
  (∀ min, v.minLength = some min → min ≤ text.length) ∧
    ∀ max, v.maxLength = some max → text.length ≤ max

/-- The length bounds do not cross. -/
def IsOrdered (v : TextValidator) : Prop :=
  ∀ min max, v.minLength = some min → v.maxLength = some max → min ≤ max

variable {v : TextValidator} {path text : String}

/-- What a validator is made of, and what is refused: crossed bounds, and no constraint at all. -/
theorem make_eq_ok {pattern : Option Metamodel.TextPattern} {minLength maxLength : Option Int64} :
    make pattern minLength maxLength = .ok v ↔
      pattern.mapM CompiledPattern.make = .ok v.pattern ∧
      lengthBound "minLength" minLength = .ok v.minLength ∧
      lengthBound "maxLength" maxLength = .ok v.maxLength ∧ v.IsOrdered ∧
      ¬ (v.pattern = none ∧ v.minLength = none ∧ v.maxLength = none) := by
  simp only [make, Outcome.bind_eq_ok, IsOrdered]
  constructor
  · rintro ⟨compiled, hPattern, least, hLeast, greatest, hGreatest, hMake⟩
    -- The bounds are compared only where both are given.
    split at hMake
    · split at hMake
      · cases hMake
      · rename_i hOrder
        split at hMake <;> cases hMake
        rename_i hSome
        simp_all
    · rename_i hBounds
      split at hMake <;> cases hMake
      rename_i hSome
      simp_all
  · rintro ⟨hPattern, hLeast, hGreatest, hOrder, hSome⟩
    refine ⟨_, hPattern, _, hLeast, _, hGreatest, ?_⟩
    split
    · rename_i min max hBounds
      obtain ⟨hMin, hMax⟩ := Prod.mk.inj hBounds
      rw [if_neg (Nat.not_lt.mpr (hOrder min max hMin hMax)), if_neg (by simpa using hSome)]
    · rw [if_neg (by simpa using hSome)]

theorem hasLength_of_check (hCheck : v.check path text = .ok ()) : v.HasLength text := by
  obtain ⟨hMin, hMax, _⟩ := check_eq_ok.mp hCheck
  exact ⟨fun min h => Nat.not_lt.mp (hMin min h), fun max h => Nat.not_lt.mp (hMax max h)⟩

/-- A validator without a pattern asks for nothing but the length. -/
theorem check_of_hasLength (hPattern : v.pattern = none) (hLength : v.HasLength text) :
    v.check path text = .ok () := by
  obtain ⟨hMin, hMax⟩ := hLength
  refine check_eq_ok.mpr ⟨?_, ?_, by simp [hPattern]⟩
  · exact fun min h => Nat.not_lt.mpr (hMin min h)
  · exact fun max h => Nat.not_lt.mpr (hMax max h)

end TextValidator

/-! ## Padding -/

/-- A text is padded from a place of the fillers on: they are appended while it is shorter than
`min`, however many that takes. -/
inductive Pads (min : Nat) : String → Nat → String → Prop where
  | enough {text : String} {i : Nat} (hLength : min ≤ text.length) : Pads min text i text
  | append {text padded : String} {i : Nat} (hShort : text.length < min)
      (hRest : Pads min (appendFiller text i) (i + 1) padded) : Pads min text i padded

section

variable {min i : Nat} {text padded : String}

theorem length_filler_pos (i : Nat) : 0 < (filler i).length := by
  have hWords : ∀ word ∈ fillers, 0 < word.length := by decide
  have hPlace : i % fillers.length < fillers.length := Nat.mod_lt i (by decide)
  have hFiller : filler i = fillers[i % fillers.length] := List.getD_eq_getElem _ _ hPlace
  rw [hFiller]
  exact hWords _ (List.getElem_mem hPlace)

/-- A step of the padding makes a text longer, with the blank before the filler or without it. -/
theorem length_lt_appendFiller (text : String) (i : Nat) :
    text.length < (appendFiller text i).length := by
  have hFiller := length_filler_pos i
  unfold appendFiller
  split
  · rw [String.length_append]
    omega
  · rw [String.length_append, String.length_append]
    omega

/-- As many steps as characters are missing are enough. -/
theorem pads_pad {steps : Nat} (hSteps : min ≤ text.length + steps) :
    Pads min text i (pad min text i steps) := by
  -- Each step brings at least one of the missing characters and takes one of the steps.
  induction steps generalizing text i with
  | zero => exact .enough hSteps
  | succ steps ih =>
      rw [pad]
      split
      · rename_i hShort
        have hLonger := length_lt_appendFiller text i
        exact .append hShort (ih (by omega))
      · rename_i hLong
        exact .enough (Nat.not_lt.mp hLong)

namespace Pads

/-- The loop ends with one text only. -/
theorem unique {other : String} (hPads : Pads min text i padded) (hOther : Pads min text i other) :
    padded = other := by
  induction hPads with
  | enough hLength =>
      cases hOther with
      | enough _ => rfl
      | append hShort _ => exact absurd hShort (Nat.not_lt.mpr hLength)
  | append hShort _ ih =>
      cases hOther with
      | enough hLength => exact absurd hShort (Nat.not_lt.mpr hLength)
      | append _ hRest => exact ih hRest

theorem le_length (hPads : Pads min text i padded) : min ≤ padded.length := by
  induction hPads with
  | enough hLength => exact hLength
  | append _ _ ih => exact ih

end Pads

end

/-! ## Fitting -/

/-- The first characters of a text, at most `max` of them if that is given. -/
def cutTo (max : Option Nat) (text : String) : String :=
  match max with
  | some max => String.ofList (text.toList.take max)
  | none => text

theorem length_cutTo_some (max : Nat) (text : String) :
    (cutTo (some max) text).length = Nat.min max text.length := by
  rw [cutTo, String.length_ofList, List.length_take, String.length_toList]

/-- A text that is short enough is left as it is. -/
theorem cutTo_of_length_le {max : Nat} {text : String} (hLength : text.length ≤ max) :
    cutTo (some max) text = text := by
  rw [cutTo, List.take_of_length_le (String.length_toList ▸ hLength), String.ofList_toList]

namespace TextValidator

/-- A text is made to fit the length bounds: it is padded to the least length, and what comes of
that is cut to the greatest one. -/
def MakesFit (v : TextValidator) (text fitted : String) : Prop :=
  ∃ padded, Pads (v.minLength.getD 0) text 0 padded ∧ fitted = cutTo v.maxLength padded

variable {v : TextValidator} {text fitted : String}

theorem fitLength_eq (v : TextValidator) (text : String) :
    fitLength text (some v) =
      cutTo v.maxLength (pad (v.minLength.getD 0) text 0 (v.minLength.getD 0)) := by
  simp only [fitLength, Option.bind_some]
  cases v.maxLength with
  | none => rfl
  | some max =>
      simp only []
      split
      · rfl
      · rename_i hLength
        rw [cutTo_of_length_le (Nat.not_lt.mp hLength)]

/-- The steps that `fitLength` allows for are as many as the loop takes, so that its result is what
the loop and the cut make of the text. -/
theorem makesFit_iff : v.MakesFit text fitted ↔ fitted = fitLength text (some v) := by
  have hPads : Pads (v.minLength.getD 0) text 0 _ := pads_pad (Nat.le_add_left _ text.length)
  rw [fitLength_eq]
  constructor
  · rintro ⟨padded, hPadded, rfl⟩
    rw [hPadded.unique hPads]
  · rintro rfl
    exact ⟨_, hPads, rfl⟩

/-- The cut never undoes the padding: where a character is lost, as many are left as the greatest
length says, and the least one is no greater. -/
theorem MakesFit.hasLength (hFit : v.MakesFit text fitted) (hOrder : v.IsOrdered) :
    v.HasLength fitted := by
  obtain ⟨padded, hPads, rfl⟩ := hFit
  have hPadded (min : Nat) (hMin : v.minLength = some min) : min ≤ padded.length := by
    simpa [hMin] using hPads.le_length
  cases hMax : v.maxLength with
  | none => exact ⟨hPadded, by simp [hMax]⟩
  | some max =>
      constructor
      · intro min hMin
        rw [length_cutTo_some]
        exact Nat.le_min.mpr ⟨hOrder min max hMin hMax, hPadded min hMin⟩
      · intro other hOther
        obtain rfl : max = other := Option.some.inj (hMax.symm.trans hOther)
        rw [length_cutTo_some]
        exact Nat.min_le_left _ _

end TextValidator

/-! ## Drawing -/

section

variable {v : TextValidator} {state : Source} {text : String}

/-- One try: a text that does not pass the validator is followed by the next try. -/
theorem run_drawMatch_succ (v : TextValidator) (node : Pattern.Node) (tries : Nat)
    (state : Source) :
    (drawMatch v node (tries + 1)).run state =
      match node.sample.run state with
      | (none, next) => (none, next)
      | (some cs, next) =>
        if (v.check "$" (String.ofList cs)).isOk then (some (String.ofList cs), next)
        else (drawMatch v node tries).run next := by
  rw [drawMatch, StateT.run_bind]
  cases node.sample.run state with
  | mk drawn next =>
      cases drawn with
      | none => rfl
      | some cs =>
          change StateT.run (if _ then _ else _) next = if _ then _ else _
          split <;> rfl

/-- Whatever is drawn from a pattern within the tries has passed the validator. -/
theorem check_of_drawMatch {node : Pattern.Node} {tries : Nat}
    (hDraw : ((drawMatch v node tries).run state).1 = some text) : v.check "$" text = .ok () := by
  induction tries generalizing state with
  | zero => cases hDraw
  | succ tries ih =>
      rw [run_drawMatch_succ] at hDraw
      split at hDraw
      · cases hDraw
      · rename_i cs next _
        cases hCheck : v.check "$" (String.ofList cs) with
        | error violation =>
            rw [hCheck] at hDraw
            exact ih hDraw
        | ok _ =>
            rw [hCheck] at hDraw
            cases hDraw
            exact hCheck

theorem check_of_samplePattern (hDraw : ((samplePattern (some v)).run state).1 = some text) :
    v.check "$" text = .ok () := by
  rw [samplePattern] at hDraw
  split at hDraw
  · cases hDraw
  · exact check_of_drawMatch hDraw

/-- A text of the pattern has passed the validator, and any other text was made to fit. -/
theorem check_or_makesFit (v : TextValidator) (other : StateM Source String) (state : Source) :
    v.check "$" ((textOr (some v) other).run state).1 = .ok () ∨
      ∃ start, v.MakesFit start ((textOr (some v) other).run state).1 := by
  rw [textOr, StateT.run_bind]
  cases hSample : (samplePattern (some v)).run state with
  | mk drawn next =>
      cases drawn with
      | some text => exact .inl (check_of_samplePattern (congrArg Prod.fst hSample))
      | none => exact .inr ⟨(other.run next).1, TextValidator.makesFit_iff.mpr rfl⟩

theorem hasLength_textOr (hOrder : v.IsOrdered) (other : StateM Source String) (state : Source) :
    v.HasLength ((textOr (some v) other).run state).1 := by
  rcases check_or_makesFit v other state with hCheck | ⟨start, hFit⟩
  · exact TextValidator.hasLength_of_check hCheck
  · exact hFit.hasLength hOrder

end

/-- In both sources, texts and identifiers come from the pattern or from a text that is made to
fit. -/
theorem GeneratorMode.exists_textOr (mode : GeneratorMode) (now : DateTime) :
    (∃ start, ∀ v, (mode.source now).string v = textOr v start) ∧
      ∃ start, ∀ v, (mode.source now).identifier v = textOr v start := by
  cases mode with
  | empty => exact ⟨⟨_, fun _ => rfl⟩, ⟨_, fun _ => rfl⟩⟩
  | sample => exact ⟨⟨_, fun _ => rfl⟩, ⟨_, fun _ => rfl⟩⟩

namespace TextValidator

/-- Texts are made to fit the length bounds of every validator that is not refused: the padding ends
by itself, with one text, and after the cut its length is within the bounds. So the lengths of what
the two sources give are within the bounds, too, whatever seed and earlier draws the state of the
random numbers comes from. If there is no pattern, the texts and identifiers that they give pass the
validator. -/
theorem hasLength_of_make {pattern : Option Metamodel.TextPattern}
    {minLength maxLength : Option Int64} {v : TextValidator}
    (hMake : make pattern minLength maxLength = .ok v) :
    (∀ text, (∀ fitted, v.MakesFit text fitted ↔ fitted = fitLength text (some v)) ∧
      v.HasLength (fitLength text (some v))) ∧
    ∀ (mode : GeneratorMode) (now : DateTime) (state : Source) (given : String),
      given = (((mode.source now).string (some v)).run state).1 ∨
        given = (((mode.source now).identifier (some v)).run state).1 →
      v.HasLength given ∧ (v.pattern = none → ∀ path, v.check path given = .ok ()) := by
  obtain ⟨_, _, _, hOrder, _⟩ := make_eq_ok.mp hMake
  constructor
  · intro text
    exact ⟨fun _ => makesFit_iff, (makesFit_iff.mpr rfl).hasLength hOrder⟩
  · intro mode now state given hGiven
    obtain ⟨⟨text, hText⟩, ⟨identifier, hIdentifier⟩⟩ := mode.exists_textOr now
    have hLength : v.HasLength given := by
      rcases hGiven with rfl | rfl
      · rw [hText]
        exact hasLength_textOr hOrder text state
      · rw [hIdentifier]
        exact hasLength_textOr hOrder identifier state
    exact ⟨hLength, fun hPattern _ => check_of_hasLength hPattern hLength⟩

/-- Labels have ten to twelve characters. -/
def label : TextValidator := ⟨none, some 10, some 12⟩

/-- A text that is too short for a label: with the second filler it is too long, and the cut leaves
twelve characters. What the sources give for a label passes. -/
theorem hasLength_of_label :
    make none (some 10) (some 12) = .ok label ∧ label.pattern = none ∧
    label.MakesFit "äöü" "äöü lorem ip" ∧ label.HasLength "äöü lorem ip" ∧
    ∀ (mode : GeneratorMode) (now : DateTime) (seed : UInt64),
      label.check "$" (((mode.source now).string (some label)).run (mode.start seed)).1 = .ok () ∧
      label.check "$" (((mode.source now).identifier (some label)).run (mode.start seed)).1 =
        .ok () := by
  have hMake : make none (some 10) (some 12) = .ok label := rfl
  have hFitted : "äöü lorem ip" = fitLength "äöü" (some label) := by decide +kernel
  obtain ⟨hTexts, hSources⟩ := hasLength_of_make hMake
  obtain ⟨hFit, hLength⟩ := hTexts "äöü"
  refine ⟨hMake, rfl, (hFit _).mpr hFitted, hFitted ▸ hLength, fun mode now seed => ⟨?_, ?_⟩⟩
  · exact (hSources mode now (mode.start seed) _ (.inl rfl)).2 rfl "$"
  · exact (hSources mode now (mode.start seed) _ (.inr rfl)).2 rfl "$"

end TextValidator

end DomainModels
