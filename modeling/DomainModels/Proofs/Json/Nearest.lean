import DomainModels.Proofs.Json.Double
import Mathlib

/-!
Which integer the double nearest to an integer stands for.

An integer of more than 53 bits loses its last ones: it is rounded to the nearest multiple of a
power of two, and to the even one of two that are as near. Doubles of integers are in the order of
the integers that they stand for.
-/

namespace DomainModels

namespace Double

open Float.Model (UnpackedFloat Format)
open Float.Model.UnpackedFloat

/-! ## Rounding integers -/

/-- The number `n / 2 ^ k` rounded to an integer, and to the even one of two that are as near. -/
def halfEven (n k : Nat) : Nat :=
  if 2 * (n % 2 ^ k) < 2 ^ k then n / 2 ^ k
  else if 2 ^ k < 2 * (n % 2 ^ k) then n / 2 ^ k + 1
  else n / 2 ^ k + n / 2 ^ k % 2

/-- The natural number of 53 bits, and zeros after them, that is nearest to `n`. -/
def nearestNat (n : Nat) : Nat := halfEven n (n.log2 - 52) * 2 ^ (n.log2 - 52)

/-- The integer that is nearest to `i` among those that doubles stand for. -/
def nearest (i : Int) : Int := i.sign * nearestNat i.natAbs

theorem halfEven_zero (n : Nat) : halfEven n 0 = n := by
  simp [halfEven, Nat.mod_one]

/-- A number is rounded down or up. -/
theorem halfEven_bounds (n k : Nat) :
    n / 2 ^ k ≤ halfEven n k ∧ halfEven n k ≤ n / 2 ^ k + 1 := by
  unfold halfEven
  split
  · omega
  · split
    · omega
    · omega

theorem halfEven_mono {n n' : Nat} (k : Nat) (hLe : n ≤ n') : halfEven n k ≤ halfEven n' k := by
  have hDiv : n / 2 ^ k ≤ n' / 2 ^ k := Nat.div_le_div_right hLe
  rcases Nat.lt_or_eq_of_le hDiv with hLess | hSame
  · have hUp := (halfEven_bounds n k).2
    have hDown := (halfEven_bounds n' k).1
    omega
  · -- Between two neighbours the remainders decide.
    have hRest : n % 2 ^ k ≤ n' % 2 ^ k := by
      have hSplit := Nat.div_add_mod n (2 ^ k)
      have hSplit' := Nat.div_add_mod n' (2 ^ k)
      rw [hSame] at hSplit
      omega
    unfold halfEven
    rw [hSame]
    split_ifs <;> omega

/-- What is rounded to 53 bits has 53 bits or is the next power of two. -/
theorem halfEven_log2_bounds {n : Nat} (hBits : 52 ≤ n.log2) :
    2 ^ 52 ≤ halfEven n (n.log2 - 52) ∧ halfEven n (n.log2 - 52) ≤ 2 ^ 53 := by
  have hZero : n ≠ 0 := by
    rintro rfl
    simp at hBits
  obtain ⟨hDown, hUp⟩ := halfEven_bounds n (n.log2 - 52)
  have hLow : 2 ^ 52 ≤ n / 2 ^ (n.log2 - 52) := by
    rw [Nat.le_div_iff_mul_le (Nat.two_pow_pos _), ← Nat.pow_add, Nat.add_sub_cancel' hBits]
    exact Nat.log2_self_le hZero
  have hHigh : n / 2 ^ (n.log2 - 52) < 2 ^ 53 := by
    rw [Nat.div_lt_iff_lt_mul (Nat.two_pow_pos _), ← Nat.pow_add,
      show 53 + (n.log2 - 52) = n.log2 + 1 by omega]
    exact Nat.lt_log2_self
  omega

theorem nearestNat_of_log2 {n : Nat} (hBits : n.log2 ≤ 52) : nearestNat n = n := by
  rw [nearestNat, Nat.sub_eq_zero_of_le hBits, halfEven_zero, Nat.pow_zero, Nat.mul_one]

/-- The powers of two around a number are around the one that is nearest to it. -/
theorem nearestNat_bounds {n : Nat} (hZero : n ≠ 0) :
    2 ^ n.log2 ≤ nearestNat n ∧ nearestNat n ≤ 2 ^ (n.log2 + 1) := by
  by_cases hBits : n.log2 ≤ 52
  · rw [nearestNat_of_log2 hBits]
    exact ⟨Nat.log2_self_le hZero, Nat.le_of_lt Nat.lt_log2_self⟩
  · obtain ⟨hLow, hHigh⟩ := halfEven_log2_bounds (n := n) (by omega)
    refine ⟨?_, ?_⟩
    · calc 2 ^ n.log2 = 2 ^ 52 * 2 ^ (n.log2 - 52) := by
            rw [← Nat.pow_add, show 52 + (n.log2 - 52) = n.log2 by omega]
        _ ≤ nearestNat n := Nat.mul_le_mul_right _ hLow
    · calc nearestNat n ≤ 2 ^ 53 * 2 ^ (n.log2 - 52) := Nat.mul_le_mul_right _ hHigh
        _ = 2 ^ (n.log2 + 1) := by
            rw [← Nat.pow_add, show 53 + (n.log2 - 52) = n.log2 + 1 by omega]

theorem nearestNat_mono {n n' : Nat} (hLe : n ≤ n') : nearestNat n ≤ nearestNat n' := by
  by_cases hZero : n = 0
  · subst hZero
    exact Nat.zero_le _
  have hZero' : n' ≠ 0 := by omega
  have hLog : n.log2 ≤ n'.log2 :=
    (Nat.le_log2 hZero').mpr (Nat.le_trans (Nat.log2_self_le hZero) hLe)
  rcases Nat.lt_or_eq_of_le hLog with hLess | hSame
  · -- A power of two lies between them.
    calc nearestNat n ≤ 2 ^ (n.log2 + 1) := (nearestNat_bounds hZero).2
      _ ≤ 2 ^ n'.log2 := Nat.pow_le_pow_right (by decide) hLess
      _ ≤ nearestNat n' := (nearestNat_bounds hZero').1
  · unfold nearestNat
    rw [hSame]
    exact Nat.mul_le_mul_right _ (halfEven_mono _ hLe)

/-- Numbers of 53 bits, and the next one, are kept. -/
theorem nearestNat_of_le {n : Nat} (hSmall : n ≤ 2 ^ 53) : nearestNat n = n := by
  by_cases hLast : n = 2 ^ 53
  · subst hLast
    decide
  · by_cases hZero : n = 0
    · subst hZero
      decide
    · have hBits : n.log2 < 53 := (Nat.log2_lt hZero).mpr (by omega)
      exact nearestNat_of_log2 (by omega)

theorem nearest_natCast (n : Nat) : nearest n = nearestNat n := by
  by_cases hZero : n = 0
  · subst hZero
    decide
  · rw [nearest, Int.sign_natCast_of_ne_zero hZero, Int.one_mul, Int.natAbs_natCast]

theorem nearest_neg (i : Int) : nearest (-i) = -nearest i := by
  rw [nearest, nearest, Int.sign_neg, Int.natAbs_neg, Int.neg_mul]

/-- Rounding keeps the order. -/
theorem nearest_mono {i j : Int} (hLe : i ≤ j) : nearest i ≤ nearest j := by
  obtain ⟨n, rfl | rfl⟩ := Int.eq_nat_or_neg i
  · obtain ⟨m, rfl⟩ := Int.eq_ofNat_of_zero_le (Int.le_trans (Int.natCast_nonneg n) hLe)
    rw [nearest_natCast, nearest_natCast]
    exact Int.ofNat_le.mpr (nearestNat_mono (Int.ofNat_le.mp hLe))
  · obtain ⟨m, rfl | rfl⟩ := Int.eq_nat_or_neg j
    · rw [nearest_neg, nearest_natCast, nearest_natCast]
      omega
    · rw [nearest_neg, nearest_neg, nearest_natCast, nearest_natCast]
      have hNat : nearestNat m ≤ nearestNat n := nearestNat_mono (by omega)
      omega

/-- The integers whose absolute value is no more than that of the first one that is followed by an
integer between two doubles are kept. -/
theorem nearest_of_natAbs_le {i : Int} (hSmall : i.natAbs ≤ 2 ^ 53) : nearest i = i := by
  rw [nearest, nearestNat_of_le hSmall, Int.sign_mul_natAbs]

/-- No other multiple of the power of two is nearer. -/
theorem halfEven_mul_two_pow (n k : Nat) :
    2 * n ≤ 2 * (halfEven n k * 2 ^ k) + 2 ^ k ∧ 2 * (halfEven n k * 2 ^ k) ≤ 2 * n + 2 ^ k := by
  have hSplit := Nat.div_add_mod' n (2 ^ k)
  have hUp : (n / 2 ^ k + 1) * 2 ^ k = n / 2 ^ k * 2 ^ k + 2 ^ k := Nat.succ_mul _ _
  have hBelow : n % 2 ^ k < 2 ^ k := Nat.mod_lt _ (Nat.two_pow_pos k)
  unfold halfEven
  split_ifs
  · omega
  · rw [hUp]
    omega
  · rcases Nat.mod_two_eq_zero_or_one (n / 2 ^ k) with hEven | hOdd
    · rw [hEven, Nat.add_zero]
      omega
    · rw [hOdd, hUp]
      omega

/-- An integer of 64 bits is moved by 512 at most. -/
theorem nearest_sub_le {i : Int} (hBound : i.natAbs ≤ 2 ^ 63) :
    i ≤ nearest i + 512 ∧ nearest i ≤ i + 512 := by
  have hNat : i.natAbs ≤ nearestNat i.natAbs + 512 ∧ nearestNat i.natAbs ≤ i.natAbs + 512 := by
    by_cases hLast : i.natAbs = 2 ^ 63
    · rw [hLast]
      decide
    · have hStep : 2 ^ (i.natAbs.log2 - 52) ≤ 2 ^ 10 := by
        refine Nat.pow_le_pow_right (by decide) ?_
        by_cases hZero : i.natAbs = 0
        · simp [hZero]
        · have hLog : i.natAbs.log2 < 63 := (Nat.log2_lt hZero).mpr (by omega)
          omega
      have hNear := halfEven_mul_two_pow i.natAbs (i.natAbs.log2 - 52)
      unfold nearestNat
      omega
  obtain ⟨n, rfl | rfl⟩ := Int.eq_nat_or_neg i
  · rw [Int.natAbs_natCast] at hNat
    rw [nearest_natCast]
    omega
  · rw [Int.natAbs_neg, Int.natAbs_natCast] at hNat
    rw [nearest_neg, nearest_natCast]
    omega

/-- Nothing is rounded onto an integer whose neighbours are doubles, too. -/
theorem nearest_le_nearest_iff {b i : Int} (hSmall : b.natAbs < 2 ^ 53) :
    nearest b ≤ nearest i ↔ b ≤ i := by
  refine ⟨fun hLe => Int.not_lt.mp fun hMore => ?_, nearest_mono⟩
  have hBelow : nearest i ≤ nearest (b - 1) := nearest_mono (by omega)
  rw [nearest_of_natAbs_le (i := b) (by omega)] at hLe
  rw [nearest_of_natAbs_le (i := b - 1) (by omega)] at hBelow
  omega

/-! ## Rounding mantissas -/

/-- Of the bits that a shift drops, the last one says whether they come to a half at least, and the
others whether they come to neither nothing nor a half. -/
theorem shiftRight_bits (m k : Nat) :
    (ExtendedMantissa.mk m false false >>> k).mantissa = m / 2 ^ k ∧
      ((ExtendedMantissa.mk m false false >>> k).roundBit = true ↔ 2 ^ k ≤ 2 * (m % 2 ^ k)) ∧
      ((ExtendedMantissa.mk m false false >>> k).stickyBit = true ↔
        m % 2 ^ k ≠ 0 ∧ 2 * (m % 2 ^ k) ≠ 2 ^ k) := by
  induction k with
  | zero =>
      have hNothing : ExtendedMantissa.mk m false false >>> 0 = ⟨m, false, false⟩ := rfl
      simp [hNothing, Nat.mod_one]
  | succ k ih =>
      have hStep : ExtendedMantissa.mk m false false >>> (k + 1) =
        (ExtendedMantissa.mk m false false >>> k).shiftRightOne := rfl
      rw [hStep]
      obtain ⟨hMantissa, hRound, hSticky⟩ := ih
      have hRest : m % 2 ^ (k + 1) = m % 2 ^ k + 2 ^ k * (m / 2 ^ k % 2) := by
        rw [Nat.pow_succ, Nat.mod_mul]
      have hBelow : m % 2 ^ k < 2 ^ k := Nat.mod_lt _ (Nat.two_pow_pos k)
      have hDouble : 2 ^ (k + 1) = 2 * 2 ^ k := by rw [Nat.pow_succ, Nat.mul_comm]
      refine ⟨?_, ?_, ?_⟩
      · show (ExtendedMantissa.mk m false false >>> k).mantissa / 2 = m / 2 ^ (k + 1)
        rw [hMantissa, Nat.div_div_eq_div_mul, Nat.pow_succ]
      · show ((ExtendedMantissa.mk m false false >>> k).mantissa % 2 != 0) = true ↔ _
        rw [hMantissa, bne_iff_ne, hRest, hDouble]
        rcases Nat.mod_two_eq_zero_or_one (m / 2 ^ k) with hBit | hBit <;> rw [hBit] <;> omega
      · show ((ExtendedMantissa.mk m false false >>> k).roundBit ||
          (ExtendedMantissa.mk m false false >>> k).stickyBit) = true ↔ _
        rw [Bool.or_eq_true, hRound, hSticky, hRest, hDouble]
        rcases Nat.mod_two_eq_zero_or_one (m / 2 ^ k) with hBit | hBit <;> rw [hBit] <;> omega

/-- Shifting a mantissa and rounding it is a division that is rounded. -/
theorem roundedMantissa_shiftRight (m k : Nat) :
    (ExtendedMantissa.mk m false false >>> k).roundedMantissa = halfEven m k := by
  obtain ⟨hMantissa, hRound, hSticky⟩ := shiftRight_bits m k
  have hBelow : m % 2 ^ k < 2 ^ k := Nat.mod_lt _ (Nat.two_pow_pos k)
  generalize ExtendedMantissa.mk m false false >>> k = shifted at hMantissa hRound hSticky ⊢
  obtain ⟨mantissa, roundBit, stickyBit⟩ := shifted
  dsimp only at hMantissa
  subst hMantissa
  unfold halfEven
  cases roundBit <;> cases stickyBit <;>
    simp only [ExtendedMantissa.roundedMantissa, ExtendedMantissa.accuracy,
      Accuracy.roundToNearestEven, Bool.false_eq_true, false_iff, true_iff] at hRound hSticky ⊢ <;>
    split_ifs <;> omega

/-! ## Doubles that stand for integers -/

/-- A double stands for an integer. It has all of its 53 bits; `place` is the one of the first. -/
inductive StandsFor : UnpackedFloat → Int → Prop where
  | zero (sign : Sign) : StandsFor (.zero sign) 0
  | finite (sign : Sign) {mantissa : Nat} {exponent v : Int} (hPos : 0 < mantissa) (place : Nat)
      (hBits : mantissa.log2 = 52) (hExponent : exponent = place - 52) (hPlace : place ≤ 1023)
      (hValue : v * 2 ^ 52 = sign.apply (mantissa * 2 ^ place : Nat)) :
      StandsFor (.finite sign mantissa exponent hPos) v

theorem StandsFor.neg {f : UnpackedFloat} {v : Int} (hStands : StandsFor f v) :
    StandsFor f.neg (-v) := by
  cases hStands with
  | zero sign => exact .zero (-sign)
  | finite sign hPos place hBits hExponent hPlace hValue =>
      refine .finite (-sign) hPos place hBits hExponent hPlace ?_
      rw [Int.neg_mul, hValue]
      cases sign
      · exact Int.neg_neg _
      · rfl

theorem finite_congr {sign : Sign} {m m' : Nat} {e e' : Int} {hPos : 0 < m} (hPos' : 0 < m')
    (hMantissa : m = m') (hExponent : e = e') :
    UnpackedFloat.finite sign m e hPos = .finite sign m' e' hPos' := by
  subst hMantissa hExponent
  rfl

theorem two_pow_log2_bounds {m : Nat} (hBits : m.log2 = 52) : 2 ^ 52 ≤ m ∧ m < 2 ^ 53 := by
  have hZero : m ≠ 0 := by
    rintro rfl
    simp at hBits
  exact (Nat.log2_eq_iff hZero).mp hBits

/-- The first bit of a mantissa is not written. -/
theorem toNat_append_mantissa {m : Nat} (hBits : m.log2 = 52) :
    (1#1 ++ BitVec.ofNat 52 m).toNat = m := by
  obtain ⟨hLow, hHigh⟩ := two_pow_log2_bounds hBits
  rw [BitVec.toNat_append, ← Nat.shiftLeft_add_eq_or_of_lt (BitVec.isLt _), BitVec.toNat_ofNat,
    Nat.shiftLeft_eq, BitVec.toNat_ofNat]
  omega

/-- What stands for an integer is what its bits are read as. -/
theorem StandsFor.unpack_pack {f : UnpackedFloat} {v : Int} (hStands : StandsFor f v) :
    unpack .binary64 (UnpackedFloat.pack .binary64 f) = f := by
  cases hStands with
  | zero sign => cases sign <;> rfl
  | @finite sign m exponent v hPos place hBits hExponent hPlace hValue =>
      have hMantissaBits : Format.binary64.mantissaBits = 53 := by decide
      have hPow : 2 ^ Format.binary64.exponentBits = 2048 := by decide
      have hSum : (Format.binary64.exponentBias : Int) +
          (Format.binary64.mantissaBitsWithoutImplicit : Int) = 1075 := by decide
      have hBias : (exponent + (Format.binary64.exponentBias : Int) +
          (Format.binary64.mantissaBitsWithoutImplicit : Int)).toNat = place + 1023 := by omega
      have hPack : UnpackedFloat.pack .binary64 (.finite sign m exponent hPos) =
          packComponents .binary64 sign (BitVec.ofNat 11 (place + 1023)) (BitVec.ofNat 52 m) := by
        rw [UnpackedFloat.pack]
        simp only [hBias]
        rw [if_neg (by omega), if_pos (by omega)]
      have hCode : (BitVec.ofNat 11 (place + 1023)).toNat = place + 1023 := by
        rw [BitVec.toNat_ofNat, Nat.mod_eq_of_lt (by omega)]
      have hOther {code : BitVec 11} (hCodes : code.toNat < 1023 ∨ 2046 < code.toNat) :
          BitVec.ofNat 11 (place + 1023) ≠ code := by
        rintro rfl
        omega
      rw [hPack, unpack]
      simp only [unpackExponent_packComponents, unpackMantissa_packComponents,
        unpackSign_packComponents, Sign.ofBitVec_toBitVec, hSum]
      rw [if_neg (hOther (.inr (by decide))), if_neg (hOther (.inl (by decide)))]
      exact finite_congr hPos (toNat_append_mantissa hBits) (by omega)

/-- Among mantissas of 53 bits the place of the first bit decides, and then the mantissa. -/
theorem mul_two_pow_lt_iff {m m' : Nat} (hBits : m.log2 = 52) (hBits' : m'.log2 = 52)
    (place place' : Nat) :
    m * 2 ^ place < m' * 2 ^ place' ↔ place < place' ∨ place = place' ∧ m < m' := by
  have hSmaller {a b i j : Nat} (hA : a.log2 = 52) (hB : b.log2 = 52) (hLess : i < j) :
      a * 2 ^ i < b * 2 ^ j := by
    calc a * 2 ^ i < 2 ^ 53 * 2 ^ i :=
          Nat.mul_lt_mul_of_pos_right (two_pow_log2_bounds hA).2 (Nat.two_pow_pos i)
      _ = 2 ^ 52 * 2 ^ (i + 1) := by rw [← Nat.pow_add, ← Nat.pow_add]; congr 1; omega
      _ ≤ 2 ^ 52 * 2 ^ j := Nat.mul_le_mul_left _ (Nat.pow_le_pow_right (by decide) hLess)
      _ ≤ b * 2 ^ j := Nat.mul_le_mul_right _ (two_pow_log2_bounds hB).1
  rcases Nat.lt_trichotomy place place' with hLess | rfl | hMore
  · simp [hLess, hSmaller hBits hBits' hLess]
  · simp [Nat.mul_lt_mul_right (Nat.two_pow_pos place)]
  · have hBelow := hSmaller hBits' hBits hMore
    omega

theorem compare_then_eq_lt {m m' : Nat} {e e' : Int} (hBits : m.log2 = 52) (hBits' : m'.log2 = 52)
    {place place' : Nat} (hExponent : e = place - 52) (hExponent' : e' = place' - 52) :
    (compare e e').then (compare m m') = .lt ↔ m * 2 ^ place < m' * 2 ^ place' := by
  rw [Ordering.then_eq_lt, Int.compare_eq_lt, Int.compare_eq_eq, Nat.compare_eq_lt,
    mul_two_pow_lt_iff hBits hBits']
  omega

/-- Doubles are compared as the integers that they stand for. -/
theorem StandsFor.lt_iff {f g : UnpackedFloat} {v w : Int} (hF : StandsFor f v)
    (hG : StandsFor g w) : f.lt g = true ↔ v < w := by
  cases hF with
  | zero sign =>
      cases hG with
      | zero sign' => exact iff_of_false Bool.noConfusion (Int.lt_irrefl 0)
      | @finite sign' m' e' w hPos' place' hBits' hExponent' hPlace' hValue' =>
          have hMagnitude' : 0 < m' * 2 ^ place' := Nat.mul_pos hPos' (Nat.two_pow_pos place')
          cases sign' <;> simp only [Sign.apply] at hValue'
          · exact iff_of_false Bool.noConfusion (by omega)
          · exact iff_of_true rfl (by omega)
  | @finite sign m e v hPos place hBits hExponent hPlace hValue =>
      have hMagnitude : 0 < m * 2 ^ place := Nat.mul_pos hPos (Nat.two_pow_pos place)
      cases hG with
      | zero sign' =>
          cases sign <;> simp only [Sign.apply] at hValue
          · exact iff_of_true rfl (by omega)
          · exact iff_of_false Bool.noConfusion (by omega)
      | @finite sign' m' e' w hPos' place' hBits' hExponent' hPlace' hValue' =>
          have hMagnitude' : 0 < m' * 2 ^ place' := Nat.mul_pos hPos' (Nat.two_pow_pos place')
          have hSame := compare_then_eq_lt hBits hBits' hExponent hExponent'
          have hSwapped := compare_then_eq_lt hBits' hBits hExponent' hExponent
          cases sign <;> cases sign' <;> simp only [Sign.apply] at hValue hValue'
          · have hCompare : ((compare e e').then (compare m m')).swap =
                (compare e' e).then (compare m' m) := by
              rw [Ordering.swap_then, Int.compare_swap, Nat.compare_swap]
            rw [UnpackedFloat.lt, UnpackedFloat.compare, hCompare, beq_iff_eq, Option.some.injEq,
              hSwapped]
            omega
          · exact iff_of_true rfl (by omega)
          · exact iff_of_false Bool.noConfusion (by omega)
          · rw [UnpackedFloat.lt, UnpackedFloat.compare, beq_iff_eq, Option.some.injEq, hSame]
            omega

/-! ## Rounding to doubles -/

theorem log2_shiftLeft {n : Nat} (hZero : n ≠ 0) (k : Nat) : (n <<< k).log2 = n.log2 + k := by
  have hPos : 0 < n * 2 ^ k := Nat.mul_pos (Nat.pos_of_ne_zero hZero) (Nat.two_pow_pos k)
  rw [Nat.shiftLeft_eq, Nat.log2_eq_iff (by omega)]
  refine ⟨?_, ?_⟩
  · rw [Nat.pow_add]
    exact Nat.mul_le_mul_right _ (Nat.log2_self_le hZero)
  · rw [show n.log2 + k + 1 = n.log2 + 1 + k by omega, Nat.pow_add]
    exact Nat.mul_lt_mul_of_pos_right Nat.lt_log2_self (Nat.two_pow_pos k)

/-- A shift to the target exponent leaves 53 bits. -/
theorem shiftToTargetExponent_eq {m : Nat} {e : Int} (hLow : -1021 ≤ m.log2 + e) :
    shiftToTargetExponent .binary64 m e .exact =
      (ExtendedMantissa.mk m false false >>> (m.log2 - 52), e + (m.log2 - 52 : Nat)) := by
  have hAmount : (Format.binary64.targetExponent (Float.Model.totalExponent m e) - e).toNat =
      m.log2 - 52 := by
    have hMantissaBits : (Format.binary64.mantissaBits : Int) = 53 := by decide
    have hMinExponent : Format.binary64.minExponent = -1074 := by decide
    simp only [Float.Model.totalExponent, Format.targetExponent, hMantissaBits, hMinExponent]
    omega
  simp only [shiftToTargetExponent, shiftToExponent, hAmount]
  rfl

/-- What is rounded is shifted, and once more where it was rounded up to 54 bits. -/
theorem roundWithAccuracy_eq (sign : Sign) {m : Nat} {e : Int} (hLow : -1021 ≤ m.log2 + e)
    {rounded : Nat} (hRounded : halfEven m (m.log2 - 52) = rounded) (hBits : 52 ≤ rounded.log2)
    (hExponent : -1073 ≤ e + (m.log2 - 52 : Nat))
    (hPos : 0 < rounded / 2 ^ (rounded.log2 - 52)) :
    roundWithAccuracy .binary64 sign m e .exact =
      .finite sign (rounded / 2 ^ (rounded.log2 - 52))
        (e + (m.log2 - 52 : Nat) + (rounded.log2 - 52 : Nat)) hPos := by
  have hAgain : shiftToTargetExponent .binary64 rounded (e + (m.log2 - 52 : Nat)) .exact =
      (ExtendedMantissa.mk rounded false false >>> (rounded.log2 - 52),
        e + (m.log2 - 52 : Nat) + (rounded.log2 - 52 : Nat)) :=
    shiftToTargetExponent_eq (by omega)
  have hMantissa := (shiftRight_bits rounded (rounded.log2 - 52)).1
  simp only [roundWithAccuracy, shiftToTargetExponent_eq hLow, roundedMantissa_shiftRight,
    hRounded, hAgain, hMantissa]
  exact dif_neg (Nat.ne_of_gt hPos)

/-- No bit that counts is lost where a number was rounded up to 54 bits. -/
theorem div_of_rounded {rounded : Nat} (hLow : 2 ^ 52 ≤ rounded) (hHigh : rounded ≤ 2 ^ 53) :
    52 ≤ rounded.log2 ∧ rounded.log2 ≤ 53 ∧ (rounded / 2 ^ (rounded.log2 - 52)).log2 = 52 ∧
      rounded / 2 ^ (rounded.log2 - 52) * 2 ^ (rounded.log2 - 52) = rounded := by
  by_cases hCarry : rounded = 2 ^ 53
  · subst hCarry
    decide
  · have hLog : rounded.log2 = 52 := (Nat.log2_eq_iff (by omega)).mpr ⟨hLow, by omega⟩
    simp [hLog]

/-- The rounded mantissa, put where the number has its first bit, is the nearest number. -/
theorem nearestNat_mul_two_pow {n : Nat} (hZero : n ≠ 0) :
    nearestNat n * 2 ^ 52 =
      halfEven (n <<< (52 - n.log2)) ((n <<< (52 - n.log2)).log2 - 52) * 2 ^ n.log2 := by
  rw [log2_shiftLeft hZero]
  rcases Nat.le_total n.log2 52 with hFew | hMany
  · rw [nearestNat_of_log2 hFew, Nat.add_sub_cancel' hFew, Nat.sub_self, halfEven_zero,
      Nat.shiftLeft_eq, Nat.mul_assoc, ← Nat.pow_add, Nat.sub_add_cancel hFew]
  · rw [Nat.sub_eq_zero_of_le hMany, Nat.shiftLeft_zero, Nat.add_zero, nearestNat, Nat.mul_assoc,
      ← Nat.pow_add, Nat.sub_add_cancel hMany]

/-- An integer is rounded to the double of the nearest integer. -/
theorem standsFor_round (sign : Sign) {n : Nat} (hZero : n ≠ 0) (hBound : n < 2 ^ 64) :
    StandsFor (round .binary64 sign n 0) (sign.apply (nearestNat n)) := by
  have hShift : decreaseExponent n 0
      (Format.binary64.targetExponent (Float.Model.totalExponent n 0)) =
        (n <<< (52 - n.log2), -((52 - n.log2 : Nat) : Int)) := by
    have hMantissaBits : (Format.binary64.mantissaBits : Int) = 53 := by decide
    have hMinExponent : Format.binary64.minExponent = -1074 := by decide
    simp only [decreaseExponent, Float.Model.totalExponent, Format.targetExponent, hMantissaBits,
      hMinExponent]
    rw [show (0 - max ((n.log2 : Int) + 1 + 0 - 53) (-1074)).toNat = 52 - n.log2 by omega,
      Int.zero_sub]
  have hPlace : n.log2 < 64 := (Nat.log2_lt hZero).mpr hBound
  have hLog := log2_shiftLeft hZero (52 - n.log2)
  have hProduct := nearestNat_mul_two_pow hZero
  obtain ⟨hLow, hHigh⟩ := halfEven_log2_bounds (n := n <<< (52 - n.log2)) (by omega)
  generalize hRounded : halfEven (n <<< (52 - n.log2)) ((n <<< (52 - n.log2)).log2 - 52) = rounded
    at hLow hHigh hProduct
  obtain ⟨hFirst, hLast, hMantissa, hBack⟩ := div_of_rounded hLow hHigh
  have hPos : 0 < rounded / 2 ^ (rounded.log2 - 52) :=
    Nat.pos_of_ne_zero fun hNone => by simp [hNone] at hMantissa
  have hRound : round .binary64 sign n 0 =
      roundWithAccuracy .binary64 sign (n <<< (52 - n.log2)) (-((52 - n.log2 : Nat) : Int))
        .exact := by
    simp only [UnpackedFloat.round, hShift]
  rw [hRound, roundWithAccuracy_eq sign (by omega) hRounded hFirst (by omega) hPos]
  refine .finite sign hPos (n.log2 + (rounded.log2 - 52)) hMantissa (by omega) (by omega) ?_
  have hMagnitude : nearestNat n * 2 ^ 52 =
      rounded / 2 ^ (rounded.log2 - 52) * 2 ^ (n.log2 + (rounded.log2 - 52)) := by
    rw [hProduct, Nat.add_comm, Nat.pow_add, ← Nat.mul_assoc, hBack]
  rw [← hMagnitude]
  cases sign
  · show -(nearestNat n : Int) * 2 ^ 52 = -((nearestNat n * 2 ^ 52 : Nat) : Int)
    omega
  · show (nearestNat n : Int) * 2 ^ 52 = ((nearestNat n * 2 ^ 52 : Nat) : Int)
    omega

theorem standsFor_toFloat (n : UInt64) :
    StandsFor n.toFloat.toModel.unpack (nearestNat n.toNat) := by
  have hStands : StandsFor (ofUInt64 .binary64 n) (nearestNat n.toNat) := by
    simp only [ofUInt64, ofNat, ofInt, UnpackedFloat.normalize]
    split
    · rename_i hNegative
      have hBelow : (n.toNat : Int) < 0 := Int.compare_eq_lt.mp hNegative
      omega
    · rename_i hZero
      have hNone : n.toNat = 0 := by
        have hSame := Int.compare_eq_eq.mp hZero
        omega
      rw [hNone]
      exact .zero .positive
    · rename_i hPositive
      have hAbove : 0 < (n.toNat : Int) := Int.compare_eq_gt.mp hPositive
      exact standsFor_round .positive (by omega) n.toNat_lt
  have hUnpack : n.toFloat.toModel.unpack = ofUInt64 .binary64 n := hStands.unpack_pack
  rw [hUnpack]
  exact hStands

theorem standsFor_neg {x : Float} {v : Int} (hStands : StandsFor x.toModel.unpack v) :
    StandsFor (-x).toModel.unpack (-v) := by
  have hUnpack : (-x).toModel.unpack = x.toModel.unpack.neg := hStands.neg.unpack_pack
  rw [hUnpack]
  exact hStands.neg

end Double

namespace Number

theorem standsFor_nearestDouble {i : Int} (hBound : i.natAbs < 2 ^ 64) :
    Double.StandsFor (nearestDouble i).toModel.unpack (Double.nearest i) := by
  have hStands := Double.standsFor_toFloat (UInt64.ofNat i.natAbs)
  rw [UInt64.toNat_ofNat', Nat.mod_eq_of_lt hBound] at hStands
  unfold nearestDouble
  simp only
  split
  · have hValue : Double.nearest i = -(Double.nearestNat i.natAbs : Int) := by
      rw [← Double.nearest_natCast, ← Double.nearest_neg]
      congr 1
      omega
    rw [hValue]
    exact Double.standsFor_neg hStands
  · have hValue : Double.nearest i = Double.nearestNat i.natAbs := by
      rw [← Double.nearest_natCast]
      congr 1
      omega
    rw [hValue]
    exact hStands

/-- Integers that have become doubles are compared as the integers nearest to them. -/
theorem ofInt64_lt_iff (i j : Int64) :
    ofInt64 i < ofInt64 j ↔ Double.nearest i.toInt < Double.nearest j.toInt := by
  have hBound (k : Int64) : k.toInt.natAbs < 2 ^ 64 := by
    have hLow := k.le_toInt
    have hHigh := k.toInt_lt
    omega
  have hLess := (standsFor_nearestDouble (hBound i)).lt_iff (standsFor_nearestDouble (hBound j))
  exact decide_eq_true_iff.trans hLess

end Number

end DomainModels
