import DomainModels.Proofs.Text.Utf8
import DomainModels.Text.Percent

/-!
Percent-encoded texts are read back, and texts without percent signs stand for themselves.

Where percent signs are kept, escaping a text does not change what it stands for.
-/

namespace DomainModels.Percent

theorem toBytes_cons {c : Char} (hPlain : c ≠ '%') (rest : List Char) :
    toBytes (c :: rest) = String.utf8EncodeChar c ++ toBytes rest := by
  rw [toBytes]
  intro a b later hEscape _
  exact absurd hEscape hPlain

/-- The digits of a byte are read as the byte. -/
theorem toBytes_encodeByte (b : UInt8) (rest : List Char) :
    toBytes (encodeByte b ++ rest) = b :: toBytes rest := by
  have hByte : b.toNat < 256 := b.toNat_lt
  have hHigh := Text.hexValue?_upperHexDigit (b.toNat / 16) (by omega)
  have hLow := Text.hexValue?_upperHexDigit (b.toNat % 16) (by omega)
  have hSum : b.toNat / 16 * 16 + b.toNat % 16 = b.toNat := by omega
  simp only [encodeByte, List.cons_append, List.nil_append, toBytes, hHigh, hLow, hSum]
  rw [Nat.toUInt8_eq, UInt8.ofNat_toNat]

theorem toBytes_encodeBytes (bytes : List UInt8) (rest : List Char) :
    toBytes (bytes.flatMap encodeByte ++ rest) = bytes ++ toBytes rest := by
  induction bytes with
  | nil => rfl
  | cons b later ih =>
      rw [List.flatMap_cons, List.append_assoc, toBytes_encodeByte, ih, List.cons_append]

/-- A character stands for itself, unless it is a percent sign that is kept. -/
theorem toBytes_escapeChar {keeps : Char → Bool} {c : Char}
    (hPlain : keeps c = true → c ≠ '%') (rest : List Char) :
    toBytes (escapeChar keeps c ++ rest) = String.utf8EncodeChar c ++ toBytes rest := by
  unfold escapeChar
  split
  · rename_i hKept
    exact toBytes_cons (hPlain hKept) rest
  · exact toBytes_encodeBytes _ rest

/-- An encoded text stands for the bytes of the text. -/
theorem toBytes_encode (cs : List Char) : toBytes (encode cs) = Utf8.encode cs := by
  have hPlain : ∀ c, isKept c = true → c ≠ '%' := by
    rintro _ hKept rfl
    exact absurd hKept (by decide)
  unfold encode escape Utf8.encode
  induction cs with
  | nil => rfl
  | cons c rest ih =>
      rw [List.flatMap_cons, List.flatMap_cons, toBytes_escapeChar (hPlain c), ih]

/-- What is encoded is read back. -/
theorem decode_encode (cs : List Char) : decode (encode cs) = cs := by
  rw [decode, toBytes_encode, Utf8.decode_encode]

/-- Without percent signs, nothing is encoded. -/
theorem decode_of_plain {cs : List Char} (hPlain : '%' ∉ cs) : decode cs = cs := by
  have hBytes : toBytes cs = Utf8.encode cs := by
    unfold Utf8.encode
    induction cs with
    | nil => rfl
    | cons c rest ih =>
        rw [List.mem_cons, not_or] at hPlain
        rw [toBytes_cons (Ne.symm hPlain.1), ih hPlain.2, List.flatMap_cons]
  rw [decode, hBytes, Utf8.decode_encode]

/-! ## Escapes that are kept -/

/-- Whether a text starts with the digits of an escape. -/
def startsWithDigits (cs : List Char) : Bool :=
  cs.head?.any Text.isHexDigit && cs.tail.head?.any Text.isHexDigit

theorem startsWithDigits_eq_false {a b : Char} (rest : List Char)
    (hNone : ∀ high low, Text.hexValue? a = some high → Text.hexValue? b = some low → False) :
    startsWithDigits (a :: b :: rest) = false := by
  cases hHigh : Text.hexValue? a <;> cases hLow : Text.hexValue? b <;>
    simp [startsWithDigits, Text.isHexDigit, hHigh, hLow]
  exact hNone _ _ hHigh hLow

/-- A percent sign without two digits stands for itself. -/
theorem toBytes_percent {cs : List Char} (hDigits : startsWithDigits cs = false) :
    toBytes ('%' :: cs) = String.utf8EncodeChar '%' ++ toBytes cs := by
  match cs with
  | [] => rfl
  | [_] => simp [toBytes]
  | a :: b :: rest =>
      rw [toBytes]
      split
      · rename_i hHigh hLow
        simp [startsWithDigits, Text.isHexDigit, hHigh, hLow] at hDigits
      · rfl

section

variable {keeps : Char → Bool}

theorem escape_cons (c : Char) (rest : List Char) :
    escape keeps (c :: rest) = escapeChar keeps c ++ escape keeps rest :=
  List.flatMap_cons

/-- Whether the digits of escapes are kept can be seen from the first characters. -/
theorem keeps_of_table
    (hTable : ∀ n < 128, Text.isHexDigit (Char.ofNat n) = true → keeps (Char.ofNat n) = true)
    (c : Char) (hDigit : Text.isHexDigit c = true) : keeps c = true := by
  have hSmall : c.toNat < 128 := by
    have hBelow {last : Char} (hLast : c ≤ last) (hEnd : last.toNat < 128) : c.toNat < 128 :=
      Nat.lt_of_le_of_lt hLast hEnd
    unfold Text.isHexDigit Text.hexValue? at hDigit
    split at hDigit
    · rename_i hRange
      exact hBelow hRange.2 (by decide)
    · split at hDigit
      · rename_i hRange
        exact hBelow hRange.2 (by decide)
      · split at hDigit
        · rename_i hRange
          exact hBelow hRange.2 (by decide)
        · cases hDigit
  rw [← Char.ofNat_toNat c] at hDigit ⊢
  exact hTable c.toNat hSmall hDigit

theorem escapeChar_of_kept {c : Char} (hKept : keeps c = true) : escapeChar keeps c = [c] :=
  if_pos hKept

variable (hDigits : ∀ c, Text.isHexDigit c = true → keeps c = true)

include hDigits

/-- Only a digit is escaped to a text that starts with a digit. -/
theorem head?_escapeChar (c : Char) (rest : List Char) :
    (escapeChar keeps c ++ rest).head?.any Text.isHexDigit = Text.isHexDigit c := by
  unfold escapeChar
  split
  · rfl
  · rename_i hEscaped
    have hOther : Text.isHexDigit c = false := by
      rw [← Bool.not_eq_true]
      exact fun hIs => hEscaped (hDigits c hIs)
    cases hBytes : String.utf8EncodeChar c with
    | nil => exact absurd hBytes String.utf8EncodeChar_ne_nil
    | cons b later =>
        rw [hOther]
        rfl

theorem startsWithDigits_escape (cs : List Char) :
    startsWithDigits (escape keeps cs) = startsWithDigits cs := by
  have hHead (text : List Char) :
      (escape keeps text).head?.any Text.isHexDigit = text.head?.any Text.isHexDigit := by
    cases text with
    | nil => rfl
    | cons c rest =>
        rw [escape_cons, head?_escapeChar hDigits]
        rfl
  cases cs with
  | nil => rfl
  | cons c rest =>
      unfold startsWithDigits
      rw [hHead]
      by_cases hDigit : Text.isHexDigit c = true
      · rw [escape_cons, escapeChar_of_kept (hDigits c hDigit), List.singleton_append,
          List.tail_cons, List.tail_cons, hHead]
      · rw [Bool.not_eq_true] at hDigit
        simp [hDigit]

/-- Where percent signs and digits are kept, an escaped text stands for what the text stands for. -/
theorem toBytes_escape (hPercent : keeps '%' = true) (cs : List Char) :
    toBytes (escape keeps cs) = toBytes cs := by
  have hSign {rest : List Char} (hNone : startsWithDigits rest = false)
      (hRest : toBytes (escape keeps rest) = toBytes rest) :
      toBytes (escape keeps ('%' :: rest)) = toBytes ('%' :: rest) := by
    rw [escape_cons, escapeChar_of_kept hPercent, List.singleton_append, toBytes_percent hNone,
      toBytes_percent ((startsWithDigits_escape hDigits rest).trans hNone), hRest]
  induction cs using toBytes.induct with
  | case1 => rfl
  | case2 a b rest high low hLow hHigh ih =>
      have hFirst : keeps a = true := hDigits a (by simp [Text.isHexDigit, hHigh])
      have hSecond : keeps b = true := hDigits b (by simp [Text.isHexDigit, hLow])
      simp only [escape_cons, escapeChar_of_kept hPercent, escapeChar_of_kept hFirst,
        escapeChar_of_kept hSecond, List.singleton_append, toBytes, hHigh, hLow, ih]
  | case3 a b rest hNone ih => exact hSign (startsWithDigits_eq_false rest hNone) ih
  | case4 c rest hOther ih =>
      by_cases hIsSign : c = '%'
      · subst hIsSign
        refine hSign ?_ ih
        match rest with
        | [] => rfl
        | [_] => simp [startsWithDigits]
        | a :: b :: later => exact (hOther a b later rfl rfl).elim
      · rw [escape_cons, toBytes_escapeChar (fun _ => hIsSign), ih, toBytes_cons hIsSign]

theorem decode_escape (hPercent : keeps '%' = true) (cs : List Char) :
    decode (escape keeps cs) = decode cs := by
  rw [decode, toBytes_escape hDigits hPercent, decode]

end

end DomainModels.Percent
