import DomainModels.Random.Stream

/-!
Random numbers in ranges.

A number below a bound is the upper half of the product of the bound with a random word. Words for
which the lower half is too large are drawn again, so that every number is as likely as any other.
-/

namespace DomainModels.Random

/-- How often a word is drawn again before the last one is taken. Each draw is refused with a
chance below one half. -/
def redrawLimit : Nat := 4096

/-- The greatest lower half of a product that is accepted: the bound, shifted as far as the word
allows, less one. -/
def acceptance (width bound : Nat) : Nat := bound <<< (width - 1 - bound.log2) - 1

/-- A number below `bound`, from words of `width` bits. The bound is positive and a word can hold
it. -/
def below (width : Nat) (draw : StateM Source Nat) (bound : Nat) : Nat → StateM Source Nat
  | 0 => return ((← draw) * bound) >>> width
  | redraws + 1 => do
    let product := (← draw) * bound
    if product % (1 <<< width) ≤ acceptance width bound then return product >>> width
    else below width draw bound redraws

/-- A number below a positive bound of at most 32 bits. -/
def below32 (bound : Nat) : StateM Source Nat :=
  below 32 (UInt32.toNat <$> Source.word) bound redrawLimit

/-- A number below a positive bound of at most 64 bits. -/
def below64 (bound : Nat) : StateM Source Nat :=
  below 64 (UInt64.toNat <$> Source.doubleWord) bound redrawLimit

/-- An integer from `low` to `high`. If these are all integers of 64 bits, a word is taken as it
is. -/
def int64 (low high : Int64) : StateM Source Int64 := do
  let count := (high.toInt - low.toInt + 1).toNat
  if count = UInt64.size then return (← Source.doubleWord).toInt64
  return Int64.ofInt (low.toInt + (← below64 count))

/-- The top bit of a word. -/
def bool : StateM Source Bool := do
  return 0x80000000 ≤ (← Source.word)

/-! ## Doubles -/

/-- The double that is 2 to the power of -52. -/
def ulp : Float := 2.220446049250313e-16

/-- The greatest fraction that is drawn. -/
def maxFraction : Float := 1.0 - ulp

/-- The first double from the one of the given bits downwards for which the greatest fraction stays
below `high`. -/
def fitScale (low high : Float) (bits : UInt64) : Float :=
  let scale := Float.ofBits bits
  if scale * maxFraction + low > high ∧ bits ≠ 0 then fitScale low high (bits - 1) else scale
termination_by bits.toNat
decreasing_by
  rename_i h
  have hPos : bits.toNat ≠ 0 := fun hZero => h.2 (UInt64.toNat_inj.1 (by simpa using hZero))
  have hOne : (1 : UInt64) ≤ bits := by
    rw [UInt64.le_iff_toNat_le]
    simp
    omega
  rw [UInt64.toNat_sub_of_le _ _ hOne]
  simp
  omega

/-- A double from `low` to `high`. -/
def double (low high : Float) : StateM Source Float := do
  let scale := fitScale low high ((high - low) / maxFraction).toBits
  let fraction := ((← Source.doubleWord) >>> 12).toFloat * ulp
  return fraction * scale + low

end DomainModels.Random
