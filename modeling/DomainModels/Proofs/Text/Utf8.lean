import DomainModels.Text.Utf8
import Mathlib.Tactic.IntervalCases

/-!
The bytes of a text are read back as the text.
-/

namespace DomainModels.Utf8

/-! ## Single bytes -/

/-- The byte that continues a character with six bits. -/
def continuation (n : Nat) : UInt8 := UInt8.ofNat (n + 0x80)

theorem toNat_continuation {n : Nat} (hSmall : n < 64) : (continuation n).toNat = n + 128 := by
  rw [continuation, UInt8.toNat_ofNat']
  omega

theorem ofByte_single {n : Nat} (hSmall : n < 0x80) :
    Lead.ofByte (UInt8.ofNat n) = .single (Char.ofNat n) := by
  have hNat : (UInt8.ofNat n).toNat = n := by
    rw [UInt8.toNat_ofNat']
    omega
  have hBelow : UInt8.ofNat n < 0x80 := by
    rw [UInt8.lt_iff_toNat_lt, hNat]
    exact hSmall
  rw [Lead.ofByte, if_pos hBelow, hNat]

theorem ofByte_two {n : Nat} (hLow : 2 ≤ n) (hHigh : n < 32) :
    Lead.ofByte (UInt8.ofNat (n + 0xc0)) = .first n [anyContinuation] := by
  interval_cases n <;> rfl

/-- The range of the byte after the first of three, which keeps out what has a shorter form and what
is no character. -/
def secondOfThree (n : Nat) : UInt8 × UInt8 :=
  if n = 0 then (0xa0, 0xbf) else if n = 13 then (0x80, 0x9f) else anyContinuation

theorem ofByte_three {n : Nat} (hHigh : n < 16) :
    Lead.ofByte (UInt8.ofNat (n + 0xe0)) = .first n [secondOfThree n, anyContinuation] := by
  interval_cases n <;> rfl

/-- The range of the byte after the first of four. -/
def secondOfFour (n : Nat) : UInt8 × UInt8 :=
  if n = 0 then (0x90, 0xbf) else if n = 4 then (0x80, 0x8f) else anyContinuation

theorem ofByte_four {n : Nat} (hHigh : n < 5) :
    Lead.ofByte (UInt8.ofNat (n + 0xf0)) =
      .first n [secondOfFour n, anyContinuation, anyContinuation] := by
  interval_cases n <;> rfl

/-! ## Characters -/

theorem decodeFrom_single {n : Nat} (hSmall : n < 0x80) (rest : List UInt8) :
    decodeFrom 0 [] (UInt8.ofNat n :: rest) = Char.ofNat n :: decodeFrom 0 [] rest := by
  rw [decodeFrom, startWith, ofByte_single hSmall]

/-- The first of several bytes leaves its bits and the ranges of the others. -/
theorem decodeFrom_first {b : UInt8} {bits : Nat} {ranges : List (UInt8 × UInt8)}
    (hLead : Lead.ofByte b = .first bits ranges) (rest : List UInt8) :
    decodeFrom 0 [] (b :: rest) = decodeFrom bits ranges rest := by
  rw [decodeFrom, startWith, hLead]

/-- A byte in its range adds its bits. -/
theorem decodeFrom_continuation {n bits low high : Nat} {range : UInt8 × UInt8}
    {ranges : List (UInt8 × UInt8)} (hSmall : n < 64) (hLow : range.1.toNat = low)
    (hHigh : range.2.toNat = high) (hAbove : low ≤ n + 128) (hBelow : n + 128 ≤ high)
    (rest : List UInt8) :
    decodeFrom bits (range :: ranges) (continuation n :: rest) =
      if ranges.isEmpty then Char.ofNat (bits * 64 + n) :: decodeFrom 0 [] rest
      else decodeFrom (bits * 64 + n) ranges rest := by
  have hNat := toNat_continuation hSmall
  have hIn : range.1 ≤ continuation n ∧ continuation n ≤ range.2 := by
    rw [UInt8.le_iff_toNat_le, UInt8.le_iff_toNat_le, hNat, hLow, hHigh]
    exact ⟨hAbove, hBelow⟩
  have hBits : (continuation n).toNat % 64 = n := by
    rw [hNat]
    omega
  rw [decodeFrom, if_pos hIn, hBits]

theorem decodeFrom_last {n bits : Nat} (hSmall : n < 64) (rest : List UInt8) :
    decodeFrom bits [anyContinuation] (continuation n :: rest) =
      Char.ofNat (bits * 64 + n) :: decodeFrom 0 [] rest := by
  rw [decodeFrom_continuation hSmall rfl rfl (by omega : 128 ≤ _) (by omega : _ ≤ 191)]
  rfl

/-- The second byte of three and the second of four keep to their ranges. -/
theorem decodeFrom_three {n m k : Nat} (hFirst : n < 16) (hSecond : m < 64) (hThird : k < 64)
    (hLong : n = 0 → 32 ≤ m) (hChar : n = 13 → m < 32) (rest : List UInt8) :
    decodeFrom n [secondOfThree n, anyContinuation] (continuation m :: continuation k :: rest) =
      Char.ofNat ((n * 64 + m) * 64 + k) :: decodeFrom 0 [] rest := by
  have hStep : decodeFrom n [secondOfThree n, anyContinuation]
      (continuation m :: continuation k :: rest) =
      decodeFrom (n * 64 + m) [anyContinuation] (continuation k :: rest) := by
    by_cases hZero : n = 0
    · subst hZero
      exact decodeFrom_continuation hSecond (by rfl : _ = 160) (by rfl : _ = 191)
        (by have := hLong rfl; omega) (by omega) _
    · by_cases hSurrogate : n = 13
      · subst hSurrogate
        exact decodeFrom_continuation hSecond (by rfl : _ = 128) (by rfl : _ = 159)
          (by omega) (by have := hChar rfl; omega) _
      · rw [secondOfThree, if_neg hZero, if_neg hSurrogate]
        exact decodeFrom_continuation hSecond (by rfl : _ = 128) (by rfl : _ = 191)
          (by omega) (by omega) _
  rw [hStep, decodeFrom_last hThird]

theorem decodeFrom_four {n m k l : Nat} (hFirst : n < 5) (hSecond : m < 64) (hThird : k < 64)
    (hFourth : l < 64) (hLong : n = 0 → 16 ≤ m) (hChar : n = 4 → m < 16) (rest : List UInt8) :
    decodeFrom n [secondOfFour n, anyContinuation, anyContinuation]
        (continuation m :: continuation k :: continuation l :: rest) =
      Char.ofNat (((n * 64 + m) * 64 + k) * 64 + l) :: decodeFrom 0 [] rest := by
  have hStep : decodeFrom n [secondOfFour n, anyContinuation, anyContinuation]
      (continuation m :: continuation k :: continuation l :: rest) =
      decodeFrom (n * 64 + m) [anyContinuation, anyContinuation]
        (continuation k :: continuation l :: rest) := by
    by_cases hZero : n = 0
    · subst hZero
      exact decodeFrom_continuation hSecond (by rfl : _ = 144) (by rfl : _ = 191)
        (by have := hLong rfl; omega) (by omega) _
    · by_cases hLast : n = 4
      · subst hLast
        exact decodeFrom_continuation hSecond (by rfl : _ = 128) (by rfl : _ = 143)
          (by omega) (by have := hChar rfl; omega) _
      · rw [secondOfFour, if_neg hZero, if_neg hLast]
        exact decodeFrom_continuation hSecond (by rfl : _ = 128) (by rfl : _ = 191)
          (by omega) (by omega) _
  have hThen : decodeFrom (n * 64 + m) [anyContinuation, anyContinuation]
      (continuation k :: continuation l :: rest) =
      decodeFrom ((n * 64 + m) * 64 + k) [anyContinuation] (continuation l :: rest) :=
    decodeFrom_continuation hThird (by rfl : _ = 128) (by rfl : _ = 191) (by omega) (by omega) _
  rw [hStep, hThen, decodeFrom_last hFourth]

/-- The bytes of a character are read as the character. -/
theorem decodeFrom_utf8EncodeChar (c : Char) (rest : List UInt8) :
    decodeFrom 0 [] (String.utf8EncodeChar c ++ rest) = c :: decodeFrom 0 [] rest := by
  have hSame : Char.ofNat c.val.toNat = c := Char.ofNat_toNat c
  have hValid : c.val.toNat < 0xd800 ∨ 0xdfff < c.val.toNat ∧ c.val.toNat < 0x110000 := c.valid
  unfold String.utf8EncodeChar
  simp only
  generalize c.val.toNat = v at hSame hValid ⊢
  split
  · rw [List.cons_append, List.nil_append, decodeFrom_single (by omega), hSame]
  · split
    · have hLead := ofByte_two (by omega : 2 ≤ v / 64 % 32) (by omega)
      have hBits : v / 64 % 32 * 64 + v % 64 = v := by omega
      rw [List.cons_append, decodeFrom_first hLead]
      refine (decodeFrom_last (by omega : v % 64 < 64) rest).trans ?_
      rw [hBits, hSame]
    · split
      · have hLead := ofByte_three (by omega : v / 4096 % 16 < 16)
        have hBits : (v / 4096 % 16 * 64 + v / 64 % 64) * 64 + v % 64 = v := by omega
        rw [List.cons_append, decodeFrom_first hLead]
        refine (decodeFrom_three (by omega) (by omega : v / 64 % 64 < 64)
          (by omega : v % 64 < 64) (by omega) (by omega) rest).trans ?_
        rw [hBits, hSame]
      · have hLead := ofByte_four (by omega : v / 262144 % 8 < 5)
        have hBits :
            ((v / 262144 % 8 * 64 + v / 4096 % 64) * 64 + v / 64 % 64) * 64 + v % 64 = v := by
          omega
        rw [List.cons_append, decodeFrom_first hLead]
        refine (decodeFrom_four (by omega) (by omega : v / 4096 % 64 < 64)
          (by omega : v / 64 % 64 < 64) (by omega : v % 64 < 64) (by omega) (by omega)
          rest).trans ?_
        rw [hBits, hSame]

/-- What is encoded is read back. -/
theorem decode_encode (cs : List Char) : decode (encode cs) = cs := by
  unfold decode encode
  induction cs with
  | nil => rfl
  | cons c rest ih => rw [List.flatMap_cons, decodeFrom_utf8EncodeChar, ih]

end DomainModels.Utf8
