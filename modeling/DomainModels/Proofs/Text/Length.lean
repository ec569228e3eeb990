import DomainModels.Proofs.Text.Percent

/-!
A text that is decoded has no more characters than the text that it is decoded from.

Malformed bytes are no exception. Each byte gives at most one character, and the bytes of a
character never serve to end another one that was started before them.
-/

namespace DomainModels

namespace Utf8

/-- Ranges of bytes that continue a character. -/
def AreContinuations (ranges : List (UInt8 × UInt8)) : Prop :=
  ∀ range ∈ ranges, 0x80 ≤ range.1 ∧ range.2 ≤ 0xbf

/-- A byte that starts a character leaves ranges of bytes that continue it. -/
theorem areContinuations_of_ofByte {b : UInt8} {bits : Nat} {ranges : List (UInt8 × UInt8)}
    (hLead : Lead.ofByte b = .first bits ranges) : AreContinuations ranges ∧ ranges ≠ [] := by
  unfold Lead.ofByte at hLead
  repeat' split at hLead
  all_goals cases hLead
  all_goals simp [AreContinuations, anyContinuation]

/-- No byte that starts a character continues another one. -/
theorem exists_first_byte (c : Char) :
    ∃ b later, String.utf8EncodeChar c = b :: later ∧ ¬ (0x80 ≤ b ∧ b ≤ 0xbf) := by
  unfold String.utf8EncodeChar
  simp only
  generalize c.val.toNat = v
  have hOut (n : Nat) (hSmall : n < 256) (hRange : n < 128 ∨ 191 < n) :
      ¬ (0x80 ≤ UInt8.ofNat n ∧ UInt8.ofNat n ≤ 0xbf) := by
    rw [UInt8.le_iff_toNat_le, UInt8.le_iff_toNat_le, UInt8.toNat_ofNat']
    simp only [UInt8.reduceToNat]
    omega
  split
  · exact ⟨_, _, rfl, hOut v (by omega) (by omega)⟩
  · split
    · exact ⟨_, _, rfl, hOut _ (by omega) (by omega)⟩
    · split
      · exact ⟨_, _, rfl, hOut _ (by omega) (by omega)⟩
      · exact ⟨_, _, rfl, hOut _ (by omega) (by omega)⟩

/-! ## Characters that bytes give -/

/-- Bytes give at most so many characters, apart from one that was started before them. -/
def GiveAtMost (n : Nat) (bytes : List UInt8) : Prop :=
  ∀ bits ranges, AreContinuations ranges →
    (decodeFrom bits ranges bytes).length ≤ n + if ranges = [] then 0 else 1

theorem giveAtMost_nil : GiveAtMost 0 [] := by
  intro bits ranges _
  cases ranges with
  | nil => simp [decodeFrom]
  | cons range rest => simp [decodeFrom]

variable {n : Nat} {bytes : List UInt8}

theorem GiveAtMost.mono {m : Nat} (hBytes : GiveAtMost n bytes) (hLe : n ≤ m) :
    GiveAtMost m bytes := fun bits ranges hRanges =>
  (hBytes bits ranges hRanges).trans (Nat.add_le_add_right hLe _)

theorem GiveAtMost.length_le (hBytes : GiveAtMost n bytes) (bits : Nat) :
    (decodeFrom bits [] bytes).length ≤ n :=
  hBytes bits [] nofun

/-- Where nothing has been started, a byte gives a character or starts one. -/
theorem GiveAtMost.length_cons_le (hBytes : GiveAtMost n bytes) (bits : Nat) (b : UInt8) :
    (decodeFrom bits [] (b :: bytes)).length ≤ n + 1 := by
  rw [decodeFrom, startWith]
  cases hLead : Lead.ofByte b with
  | single c => exact Nat.succ_le_succ (hBytes.length_le 0)
  | stray => exact Nat.succ_le_succ (hBytes.length_le 0)
  | first bits ranges =>
      obtain ⟨hRanges, hSome⟩ := areContinuations_of_ofByte hLead
      have hRest := hBytes bits ranges hRanges
      rwa [if_neg hSome] at hRest

/-- A byte that does not continue a character ends it, and is read as if none had been started. -/
theorem decodeFrom_of_break {bits : Nat} {range : UInt8 × UInt8} {ranges : List (UInt8 × UInt8)}
    {b : UInt8} (hOut : ¬ (range.1 ≤ b ∧ b ≤ range.2)) :
    decodeFrom bits (range :: ranges) (b :: bytes) =
      replacement :: decodeFrom 0 [] (b :: bytes) := by
  rw [decodeFrom, decodeFrom, if_neg hOut]

theorem GiveAtMost.byte (hBytes : GiveAtMost n bytes) (b : UInt8) :
    GiveAtMost (n + 1) (b :: bytes) := by
  intro bits ranges hRanges
  cases ranges with
  | nil => exact hBytes.length_cons_le bits b
  | cons range ranges =>
      rw [if_neg (List.cons_ne_nil _ _)]
      by_cases hIn : range.1 ≤ b ∧ b ≤ range.2
      · rw [decodeFrom, if_pos hIn]
        split
        · exact Nat.succ_le_succ ((hBytes.length_le 0).trans (Nat.le_succ n))
        · rename_i hMore
          have hRest := hBytes (bits * 64 + b.toNat % 64) ranges
            fun other hMem => hRanges other (List.mem_cons_of_mem _ hMem)
          rw [if_neg (by simpa using hMore)] at hRest
          exact hRest.trans (Nat.le_succ _)
      · rw [decodeFrom_of_break hIn]
        exact Nat.succ_le_succ (hBytes.length_cons_le 0 b)

/-- All bytes of a character together give one character. -/
theorem GiveAtMost.char (hBytes : GiveAtMost n bytes) (c : Char) :
    GiveAtMost (n + 1) (String.utf8EncodeChar c ++ bytes) := by
  intro bits ranges hRanges
  have hRest : (c :: decodeFrom 0 [] bytes).length ≤ n + 1 :=
    Nat.succ_le_succ (hBytes.length_le 0)
  have hRead := decodeFrom_utf8EncodeChar c bytes
  obtain ⟨b, later, hFirst, hOut⟩ := exists_first_byte c
  rw [hFirst, List.cons_append] at hRead ⊢
  cases ranges with
  | nil =>
      have hSame : decodeFrom bits [] (b :: (later ++ bytes)) =
          decodeFrom 0 [] (b :: (later ++ bytes)) := by
        rw [decodeFrom, decodeFrom]
      rw [hSame, hRead]
      exact hRest
  | cons range ranges =>
      obtain ⟨hLow, hHigh⟩ := hRanges range List.mem_cons_self
      have hBreak : ¬ (range.1 ≤ b ∧ b ≤ range.2) := fun hIn =>
        hOut ⟨UInt8.le_trans hLow hIn.1, UInt8.le_trans hIn.2 hHigh⟩
      rw [decodeFrom_of_break hBreak, hRead, if_neg (List.cons_ne_nil _ _)]
      exact Nat.succ_le_succ hRest

end Utf8

namespace Percent

/-- An escape is one byte. Any other character gives itself. -/
theorem giveAtMost_toBytes (cs : List Char) : Utf8.GiveAtMost cs.length (toBytes cs) := by
  induction cs using toBytes.induct with
  | case1 => exact Utf8.giveAtMost_nil
  | case2 a b rest high low hLow hHigh ih =>
      simp only [toBytes, hHigh, hLow]
      exact (ih.byte _).mono (by simp)
  | case3 a b rest hNone ih =>
      rw [toBytes_percent (startsWithDigits_eq_false rest hNone)]
      exact ih.char '%'
  | case4 c rest hOther ih =>
      rw [toBytes.eq_3 c rest hOther]
      exact ih.char c

/-- Decoding does not make a text longer. -/
theorem length_decode_le (cs : List Char) : (decode cs).length ≤ cs.length :=
  (giveAtMost_toBytes cs).length_le 0

end Percent

end DomainModels
