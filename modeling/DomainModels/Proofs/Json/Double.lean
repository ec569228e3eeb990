import DomainModels.Json.Basic
import Mathlib.Algebra.Group.Nat.Defs

/-!
The double nearest to an integer is finite.

The exponent of what an unsigned integer of 64 bits is rounded to stays far below the ones that
stand for infinities, and a change of the sign does not touch it.
-/

namespace DomainModels

namespace Double

open Float.Model (UnpackedFloat Format)
open Float.Model.UnpackedFloat

/-- A number that is packed with room for its exponent. -/
def Fits : UnpackedFloat → Prop
  | .zero _ => True
  | .finite _ _ e _ => (e + 1075).toNat < 2047
  | _ => False

theorem fits_finite {sign : Sign} {mantissa : Nat} {exponent : Int} {hPos : 0 < mantissa}
    (hSmall : exponent ≤ 971) : Fits (.finite sign mantissa exponent hPos) := by
  show (exponent + 1075).toNat < 2047
  omega

/-- Bits are those of a finite number when their exponent is not the largest one. -/
theorem isFinite_unpack (b : BitVec Format.binary64.numBits) :
    (unpack .binary64 b).isFinite = true ↔ unpackExponent b ≠ -1#_ := by
  unfold unpack
  by_cases hLargest : unpackExponent b = -1#_
  · rw [if_pos hLargest]
    refine iff_of_false ?_ (not_not_intro hLargest)
    by_cases hZero : unpackMantissa b = 0#_
    · rw [if_pos hZero]
      exact Bool.noConfusion
    · rw [if_neg hZero]
      exact Bool.noConfusion
  · rw [if_neg hLargest]
    refine iff_of_true ?_ hLargest
    by_cases hLeast : unpackExponent b = 0#_
    · rw [if_pos hLeast]
      by_cases hZero : unpackMantissa b = 0#_
      · rw [dif_pos hZero]
        rfl
      · rw [dif_neg hZero]
        rfl
    · rw [if_neg hLeast]
      rfl

/-- What has room for its exponent is finite after it was packed. -/
theorem isFinite_pack {f : UnpackedFloat} (hFits : Fits f) :
    (Float.Model.pack f).isFinite = true := by
  have hUnpack : (Float.Model.pack f).isFinite =
      (unpack .binary64 (UnpackedFloat.pack .binary64 f)).isFinite := rfl
  rw [hUnpack, isFinite_unpack]
  unfold UnpackedFloat.pack
  cases f with
  | notANumber => exact hFits.elim
  | infinity s => exact hFits.elim
  | zero s =>
      simp only [packedZero, unpackExponent_packComponents]
      decide
  | finite s m e hm =>
      have hBias : (e + (Format.binary64.exponentBias : Int) +
          (Format.binary64.mantissaBitsWithoutImplicit : Int)).toNat = (e + 1075).toNat := by
        have hSum : (Format.binary64.exponentBias : Int) +
            (Format.binary64.mantissaBitsWithoutImplicit : Int) = 1075 := by decide
        rw [Int.add_assoc, hSum]
      have hRoom : (e + 1075).toNat < 2047 := hFits
      simp only [hBias]
      split
      · rename_i hFull
        have hPow : 2 ^ Format.binary64.exponentBits = 2048 := by decide
        omega
      · split
        · rw [unpackExponent_packComponents]
          intro hLargest
          have hNat := congrArg BitVec.toNat hLargest
          simp only [BitVec.toNat_ofNat, BitVec.neg_one_eq_allOnes, BitVec.toNat_allOnes] at hNat
          omega
        · rw [unpackExponent_packComponents]
          decide

/-- Finite bits have room for their exponent. -/
theorem fits_unpack {b : BitVec Format.binary64.numBits}
    (hFinite : (unpack .binary64 b).isFinite = true) : Fits (unpack .binary64 b) := by
  have hExponent := (isFinite_unpack b).mp hFinite
  have hSmall : (unpackExponent b).toNat < 2047 := by
    have hBound := (unpackExponent b).isLt
    have hOther : (unpackExponent b).toNat ≠ 2047 := fun hSame =>
      hExponent (BitVec.eq_of_toNat_eq (by rw [hSame]; rfl))
    have hPow : 2 ^ Format.binary64.exponentBits = 2048 := by decide
    omega
  have hSum : (Format.binary64.exponentBias : Int) +
      (Format.binary64.mantissaBitsWithoutImplicit : Int) = 1075 := by decide
  unfold unpack
  rw [if_neg hExponent]
  by_cases hLeast : unpackExponent b = 0#_
  · rw [if_pos hLeast]
    by_cases hZero : unpackMantissa b = 0#_
    · rw [dif_pos hZero]
      exact trivial
    · rw [dif_neg hZero]
      refine fits_finite ?_
      rw [hSum, hLeast]
      decide
  · rw [if_neg hLeast]
    refine fits_finite ?_
    rw [hSum]
    omega

theorem fits_neg {f : UnpackedFloat} (hFits : Fits f) : Fits f.neg := by
  cases f with
  | notANumber => exact hFits
  | infinity s => exact hFits
  | zero s => exact trivial
  | finite s m e hm => exact hFits

/-- The negative of a finite double is finite. -/
theorem isFinite_neg {x : Float} (hFinite : x.isFinite = true) : (-x).isFinite = true :=
  isFinite_pack (fits_neg (fits_unpack hFinite))

/-! ## Rounding -/

theorem mantissa_shiftRight_le (em : ExtendedMantissa) (n : Nat) :
    (em >>> n).mantissa ≤ em.mantissa := by
  show (n.repeat ExtendedMantissa.shiftRightOne em).mantissa ≤ em.mantissa
  induction n with
  | zero => exact Nat.le_refl _
  | succ n ih =>
      have hHalf (m : ExtendedMantissa) : m.shiftRightOne.mantissa ≤ m.mantissa :=
        Nat.div_le_self _ _
      exact Nat.le_trans (hHalf _) ih

theorem roundedMantissa_le (em : ExtendedMantissa) : em.roundedMantissa ≤ em.mantissa + 1 := by
  unfold ExtendedMantissa.roundedMantissa Accuracy.roundToNearestEven
  split
  · omega
  · omega
  · omega
  · omega

/-- A shift drops bits of the mantissa, and moves the exponent up to its target at most. -/
theorem shiftToTargetExponent_le {mantissa bits : Nat} {exponent bound : Int} (accuracy : Accuracy)
    (hBits : 0 < bits) (hMantissa : mantissa < 2 ^ bits) (hExponent : exponent ≤ bound)
    (hTarget : bits + exponent - 53 ≤ bound) (hMin : -1074 ≤ bound) :
    (shiftToTargetExponent .binary64 mantissa exponent accuracy).1.mantissa ≤ mantissa ∧
      (shiftToTargetExponent .binary64 mantissa exponent accuracy).2 ≤ bound := by
  have hLog : mantissa.log2 + 1 ≤ bits := by
    by_cases hZero : mantissa = 0
    · subst hZero
      exact hBits
    · exact (Nat.log2_lt hZero).mpr hMantissa
  have hMantissaBits : (Format.binary64.mantissaBits : Int) = 53 := by decide
  have hMinExponent : Format.binary64.minExponent = -1074 := by decide
  refine ⟨?_, ?_⟩
  · refine Nat.le_trans (mantissa_shiftRight_le _ _) ?_
    unfold ExtendedMantissa.ofMantissaAndAccuracy
    split <;> exact Nat.le_refl _
  · show exponent + ((Format.binary64.targetExponent
      (Float.Model.totalExponent mantissa exponent) - exponent).toNat : Int) ≤ bound
    simp only [Float.Model.totalExponent, Format.targetExponent, hMantissaBits, hMinExponent]
    omega

/-- A number is rounded to zero, or to one with the exponent of the second shift. -/
theorem fits_roundWithAccuracy (sign : Sign) {mantissa : Nat} {exponent : Int}
    (hSmall : (shiftToTargetExponent .binary64
      (shiftToTargetExponent .binary64 mantissa exponent .exact).1.roundedMantissa
      (shiftToTargetExponent .binary64 mantissa exponent .exact).2 .exact).2 ≤ 971) :
    Fits (roundWithAccuracy .binary64 sign mantissa exponent .exact) := by
  by_cases hZero : (shiftToTargetExponent .binary64
      (shiftToTargetExponent .binary64 mantissa exponent .exact).1.roundedMantissa
      (shiftToTargetExponent .binary64 mantissa exponent .exact).2 .exact).1.mantissa = 0
  · have hRounded : roundWithAccuracy .binary64 sign mantissa exponent .exact = .zero sign :=
      dif_pos hZero
    rw [hRounded]
    exact trivial
  · have hRounded : roundWithAccuracy .binary64 sign mantissa exponent .exact =
        .finite sign _ _ (Nat.pos_of_ne_zero hZero) := dif_neg hZero
    rw [hRounded]
    exact fits_finite hSmall

/-- What is rounded from 64 bits has room for its exponent. -/
theorem fits_round (sign : Sign) {n : Nat} (hBound : n < 2 ^ 64) :
    Fits (round .binary64 sign n 0) := by
  have hMantissaBits : (Format.binary64.mantissaBits : Int) = 53 := by decide
  have hMinExponent : Format.binary64.minExponent = -1074 := by decide
  obtain ⟨k, hShift, hSmall⟩ : ∃ k : Nat,
      decreaseExponent n 0 (Format.binary64.targetExponent (Float.Model.totalExponent n 0)) =
        (n <<< k, -(k : Int)) ∧ k ≤ 52 := by
    refine ⟨_, Prod.ext rfl (Int.zero_sub _), ?_⟩
    simp only [Float.Model.totalExponent, Format.targetExponent, hMantissaBits, hMinExponent]
    omega
  have hRound : round .binary64 sign n 0 =
      roundWithAccuracy .binary64 sign (n <<< k) (-(k : Int)) .exact := by
    simp only [UnpackedFloat.round, hShift]
  rw [hRound]
  have hWide : n <<< k < 2 ^ (64 + k) := by
    rw [Nat.shiftLeft_eq, Nat.pow_add]
    exact Nat.mul_lt_mul_of_pos_right hBound (Nat.two_pow_pos k)
  obtain ⟨hFirst, hFirstExponent⟩ :=
    shiftToTargetExponent_le .exact (by omega) hWide (by omega : -(k : Int) ≤ 11)
      (by omega) (by omega)
  -- Rounding up may take one bit more.
  have hRounded := roundedMantissa_le
    (shiftToTargetExponent .binary64 (n <<< k) (-(k : Int)) .exact).1
  have hWider : (shiftToTargetExponent .binary64 (n <<< k) (-(k : Int)) .exact).1.roundedMantissa <
      2 ^ (65 + k) := by
    have hDouble : 2 ^ (65 + k) = 2 * 2 ^ (64 + k) := by
      rw [show 65 + k = (64 + k) + 1 by omega, Nat.pow_succ, Nat.mul_comm]
    omega
  obtain ⟨_, hExponent⟩ :=
    shiftToTargetExponent_le .exact (by omega) hWider (Int.le_trans hFirstExponent (by omega))
      (by omega : _ ≤ (75 : Int)) (by omega)
  exact fits_roundWithAccuracy sign (Int.le_trans hExponent (by decide))

/-- The double nearest to an unsigned integer is finite. -/
theorem isFinite_toFloat (n : UInt64) : n.toFloat.isFinite = true := by
  have hFits : Fits (ofUInt64 .binary64 n) := by
    simp only [ofUInt64, ofNat, ofInt, UnpackedFloat.normalize]
    split
    · rename_i hNegative
      have hBelow : (n.toNat : Int) < 0 := Int.compare_eq_lt.mp hNegative
      omega
    · exact trivial
    · exact fits_round .positive n.toNat_lt
  exact isFinite_pack hFits

end Double

/-- The double nearest to an integer is finite. -/
theorem Number.isFinite_nearestDouble (i : Int) : (nearestDouble i).isFinite = true := by
  unfold nearestDouble
  simp only
  split
  · exact Double.isFinite_neg (Double.isFinite_toFloat _)
  · exact Double.isFinite_toFloat _

end DomainModels
