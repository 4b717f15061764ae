import Telemetry.Document.Reread
import Telemetry.Proofs.Doubles.ShortestDecimals

/-! Numbers and their texts. The text of a number follows the grammar that the reader cuts it by, an
integer of a 64-bit word is read back as it is, and a double as some double.
-/

namespace Telemetry.Document

namespace Number

-----------------------------------------------------------------------------------------
-- The grammar
-----------------------------------------------------------------------------------------

/-- Whether characters are decimal digits, at least one. -/
def AreDigits (digits : List Char) : Prop :=
  digits ≠ [] ∧ ∀ c ∈ digits, c.isDigit = true

theorem areDigits_toDigits (n : Nat) : AreDigits (Nat.toDigits 10 n) :=
  ⟨Nat.toDigits_ne_nil, fun _ => Nat.isDigit_of_mem_toDigits (by decide) (by decide)⟩

/-- Digits end where no digit follows. -/
theorem span_digits {digits rest : List Char} (h : ∀ c ∈ digits, c.isDigit = true)
    (next : ∀ c ∈ rest.head?, c.isDigit = false)
    : (digits ++ rest).takeWhile Char.isDigit = digits
      ∧ (digits ++ rest).dropWhile Char.isDigit = rest := by
  rw [List.takeWhile_append_of_pos h, List.dropWhile_append_of_pos h]
  cases rest with
  | nil => simp
  | cons c rest => simp [next c rfl]

namespace Parts

/-- The characters of the part of a number after the point. -/
def fractionText (parts : Parts) : List Char :=
  parts.fraction.elim [] ('.' :: ·)

def exponentText (parts : Parts) : List Char :=
  parts.exponent.elim [] fun (down, digits) => 'e' :: (if down then '-' :: digits else digits)

/-- The digits before and after the point. -/
def digits (parts : Parts) : List Char :=
  parts.whole ++ parts.fraction.getD []

def text (parts : Parts) : List Char :=
  (if parts.negative then ['-'] else [])
    ++ (parts.whole ++ (parts.fractionText ++ parts.exponentText))

/-- Whether the parts of a number follow the grammar: all of them are digits, and the whole part
starts with a zero only if this is all of it.
-/
structure IsWellFormed (parts : Parts) : Prop where
  whole : AreDigits parts.whole
  leading : parts.whole.head? ≠ some '0' ∨ parts.whole.length = 1
  fraction : ∀ digits ∈ parts.fraction, AreDigits digits
  exponent : ∀ part ∈ parts.exponent, AreDigits part.2

theorem IsWellFormed.isDigit {parts : Parts} (h : parts.IsWellFormed) {c : Char}
    (member : c ∈ parts.digits)
    : c.isDigit = true := by
  rcases List.mem_append.mp member with whole | later
  · exact h.whole.2 c whole
  · cases fraction : parts.fraction with
    | none => rw [fraction] at later; cases later
    | some digits => exact (h.fraction digits fraction).2 c (by rwa [fraction] at later)

end Parts

theorem cutSign_of_digits {digits : List Char} (h : AreDigits digits) (rest : List Char)
    : cutSign (digits ++ rest) = (false, digits ++ rest) := by
  obtain ⟨c, digits, rfl⟩ := List.exists_cons_of_ne_nil h.1
  have digit := h.2 c List.mem_cons_self
  unfold cutSign
  split
  · next same => cases same; cases digit
  · rfl

/-- No exponent starts with a digit, nor with a point. -/
theorem head?_exponentText {parts : Parts} {c : Char} (h : c ∈ parts.exponentText.head?)
    : c = 'e' := by
  obtain ⟨_, _, _, exponent⟩ := parts
  cases exponent with
  | none => cases h
  | some part => exact (Option.some.inj h).symm

theorem cutFraction_text {parts : Parts} (h : parts.IsWellFormed)
    : cutFraction (parts.fractionText ++ parts.exponentText)
      = (parts.fraction, parts.exponentText) := by
  have next := @head?_exponentText parts
  unfold Parts.fractionText
  cases fraction : parts.fraction with
  | none =>
      simp only [Option.elim_none, List.nil_append]
      unfold cutFraction
      split
      · next rest same =>
        have point : '.' = 'e' := next (by rw [same]; rfl)
        cases point
      · rfl
  | some digits =>
      have digits := (h.fraction digits fraction).2
      obtain ⟨taken, left⟩ := span_digits digits fun c member => by rw [next member]; rfl
      simp only [Option.elim_some, List.cons_append, cutFraction, taken, left]

theorem exponent?_text {parts : Parts} (h : parts.IsWellFormed)
    : exponent? parts.exponentText = some parts.exponent := by
  unfold Parts.exponentText
  cases exponent : parts.exponent with
  | none => rfl
  | some part =>
      obtain ⟨down, digits⟩ := part
      have some : AreDigits digits := h.exponent (down, digits) exponent
      have noSign : digits.head? ≠ Option.some '+' := by
        obtain ⟨c, rest, rfl⟩ := List.exists_cons_of_ne_nil some.1
        rintro ⟨⟩
        cases some.2 '+' List.mem_cons_self
      have unsigned := cutSign_of_digits some []
      rw [List.append_nil] at unsigned
      cases down with
      | true => simp [exponent?, cutSign, guard, some.1, eq_true some.2]
      | false => simp [exponent?, noSign, unsigned, guard, some.1, eq_true some.2]

/-- The reader cuts the text of a number into the parts that it was put together from. -/
theorem parts?_text {parts : Parts} (h : parts.IsWellFormed) : parts? parts.text = some parts := by
  have sign : cutSign parts.text
      = (parts.negative, parts.whole ++ (parts.fractionText ++ parts.exponentText)) := by
    unfold Parts.text
    cases parts.negative with
    | true => rfl
    | false => exact cutSign_of_digits h.whole _
  have next : ∀ c ∈ (parts.fractionText ++ parts.exponentText).head?, c.isDigit = false := by
    intro c member
    unfold Parts.fractionText at member
    cases fraction : parts.fraction with
    | none =>
        rw [fraction] at member
        rw [head?_exponentText member]
        rfl
    | some digits =>
        rw [fraction] at member
        cases member
        rfl
  obtain ⟨taken, left⟩ := span_digits h.whole.2 next
  have filled : parts.fraction ≠ some [] := fun empty => (h.fraction [] empty).1 rfl
  simp only [parts?, sign, taken, left, cutFraction_text h, exponent?_text h]
  simp [guard, h.whole.1, h.leading, filled]

-----------------------------------------------------------------------------------------
-- Reading the parts
-----------------------------------------------------------------------------------------

theorem natOfDigits_eq (digits : List Char)
    : natOfDigits digits = Nat.ofDigitChars 10 digits 0 := by
  simp only [natOfDigits, Nat.ofDigitChars, digitValue, Nat.mul_comm]

theorem natOfDigits_toDigits (n : Nat) : natOfDigits (Nat.toDigits 10 n) = n := by
  rw [natOfDigits_eq, Nat.ofDigitChars_ten_toDigits]

theorem le_ofDigitChars (digits : List Char) (n : Nat) : n ≤ Nat.ofDigitChars 10 digits n := by
  rw [Nat.ofDigitChars_eq_ofDigitChars_zero]
  exact (Nat.le_mul_of_pos_left n (Nat.pow_pos (by decide))).trans (Nat.le_add_right _ _)

theorem ofDigitChars_lt {digits : List Char} (h : ∀ c ∈ digits, c.isDigit = true)
    : Nat.ofDigitChars 10 digits 0 < 10 ^ digits.length := by
  induction digits with
  | nil => decide
  | cons c rest ih =>
      have digit : c.toNat - '0'.toNat < 10 := by
        have := h c List.mem_cons_self
        simp only [Char.isDigit, Bool.and_eq_true, decide_eq_true_eq] at this
        have := UInt32.le_iff_toNat_le.mp this.2
        change c.toNat ≤ 57 at this
        change c.toNat - 48 < 10
        omega
      have later := ih fun other member => h other (List.mem_cons_of_mem c member)
      rw [Nat.ofDigitChars_cons, Nat.ofDigitChars_eq_ofDigitChars_zero, List.length_cons,
        Nat.pow_succ]
      generalize c.toNat - '0'.toNat = d at digit
      nlinarith

/-- Digits that fit a word are all kept. -/
theorem readWhole_eq {digits : List Char} {n : Nat} (h : Nat.ofDigitChars 10 digits n ≤ limit)
    : readWhole digits ⟨n, 0⟩ = ⟨Nat.ofDigitChars 10 digits n, 0⟩ := by
  induction digits generalizing n with
  | nil => rfl
  | cons c rest ih =>
      rw [Nat.ofDigitChars_cons] at h
      have fits := (le_ofDigitChars _ _).trans h
      rw [readWhole, Nat.ofDigitChars_cons, ← ih h]
      simp only [digitValue, Nat.mul_comm n 10, fits, and_self, if_true]

theorem readFraction_eq {digits : List Char} {n : Nat} {e : Int}
    (h : Nat.ofDigitChars 10 digits n ≤ limit)
    : readFraction digits ⟨n, e⟩ = ⟨Nat.ofDigitChars 10 digits n, e - digits.length⟩ := by
  induction digits generalizing n e with
  | nil => simp [readFraction]
  | cons c rest ih =>
      rw [Nat.ofDigitChars_cons] at h
      have fits := (le_ofDigitChars _ _).trans h
      rw [readFraction, Nat.ofDigitChars_cons]
      simp only [digitValue, Nat.mul_comm n 10, fits, if_true]
      rw [ih h, List.length_cons]
      congr 1
      omega

/-- A number with a fraction or an exponent is read as a double, if its digits times its power of
ten have one.
-/
theorem isSome_read?_text {parts : Parts} (h : parts.IsWellFormed)
    (real : parts.fraction.isSome = true ∨ parts.exponent.isSome = true)
    (fits : natOfDigits parts.digits ≤ limit)
    (scaled : (scale? (.ofInt (natOfDigits parts.digits))
        (parts.shift - (parts.fraction.getD []).length)).isSome = true)
    : (read? parts.text).isSome = true := by
  rw [natOfDigits_eq, Parts.digits, Nat.ofDigitChars_append] at fits scaled
  have whole := readWhole_eq ((le_ofDigitChars _ _).trans fits)
  have notExact : (parts.fraction.isNone && parts.exponent.isNone) = false := by
    cases fraction : parts.fraction <;> cases exponent : parts.exponent <;>
      simp [fraction, exponent] at real ⊢
  obtain ⟨d, read⟩ := Option.isSome_iff_exists.mp scaled
  unfold read?
  rw [parts?_text h, Option.bind_eq_bind, Option.bind_some]
  simp only [notExact, Bool.false_and, Bool.false_eq_true, if_false, whole, readFraction_eq fits]
  rw [Int.zero_sub, neg_add_eq_sub, read]
  rfl

-----------------------------------------------------------------------------------------
-- Words
-----------------------------------------------------------------------------------------

theorem isWordChar_of_isDigit {c : Char} (h : c.isDigit = true) : Scan.isWordChar c = true := by
  simp [Scan.isWordChar, Char.isAlphanum, h]

theorem Parts.isWordChar_text {parts : Parts} (h : parts.IsWellFormed) {c : Char}
    (member : c ∈ parts.text)
    : Scan.isWordChar c = true := by
  obtain ⟨negative, whole, fraction, exponent⟩ := parts
  simp only [Parts.text, fractionText, exponentText, List.mem_append] at member
  rcases member with sign | digit | point | mark
  · cases negative with
    | true => obtain rfl : c = '-' := by simpa using sign
              rfl
    | false => cases sign
  · exact isWordChar_of_isDigit (h.whole.2 c digit)
  · cases fraction with
    | none => cases point
    | some digits =>
        rcases List.mem_cons.mp point with rfl | digit
        · rfl
        · exact isWordChar_of_isDigit ((h.fraction digits rfl).2 c digit)
  · cases exponent with
    | none => cases mark
    | some part =>
        obtain ⟨down, digits⟩ := part
        rcases List.mem_cons.mp mark with rfl | digit
        · rfl
        have inDigits : c = '-' ∨ c ∈ digits := by
          cases down with
          | true => exact List.mem_cons.mp digit
          | false => exact .inr digit
        rcases inDigits with rfl | digit
        · rfl
        · exact isWordChar_of_isDigit ((h.exponent (down, digits) rfl).2 c digit)

theorem Parts.text_ne_nil {parts : Parts} (h : parts.IsWellFormed) : parts.text ≠ [] := by
  simp [Parts.text, h.whole.1]

/-- The text of a number is none of the words of letters. -/
theorem readWord?_text {parts : Parts} (h : parts.IsWellFormed)
    : Scan.readWord? parts.text = read? parts.text := by
  obtain ⟨c, rest, same⟩ := List.exists_cons_of_ne_nil (Parts.text_ne_nil h)
  have first : c = '-' ∨ c.isDigit = true := by
    unfold Parts.text at same
    cases negative : parts.negative with
    | true =>
        rw [negative] at same
        cases same
        exact .inl rfl
    | false =>
        obtain ⟨digit, digits, whole⟩ := List.exists_cons_of_ne_nil h.whole.1
        rw [negative, whole] at same
        cases same
        exact .inr (h.whole.2 _ (whole ▸ List.mem_cons_self))
  have noWord {word : String} (letter : Char) {letters : List Char}
      (spelled : word.toList = letter :: letters) (notSign : letter ≠ '-')
      (notDigit : letter.isDigit = false)
      : String.ofList parts.text ≠ word := by
    rintro rfl
    rw [String.toList_ofList, same] at spelled
    cases spelled
    exact first.elim notSign fun digit => absurd (digit.symm.trans notDigit) (by decide)
  unfold Scan.readWord?
  split
  · next word => exact absurd word (noWord 'n' rfl (by decide) rfl)
  · next word => exact absurd word (noWord 't' rfl (by decide) rfl)
  · next word => exact absurd word (noWord 'f' rfl (by decide) rfl)
  · rfl

-----------------------------------------------------------------------------------------
-- Integers
-----------------------------------------------------------------------------------------

theorem head?_toDigits {n : Nat} (positive : 0 < n) : (Nat.toDigits 10 n).head? ≠ some '0' := by
  induction n using Nat.strongRecOn with
  | ind n ih =>
      rw [Nat.toDigits_eq_if (by decide)]
      split
      · next single => interval_cases n <;> decide
      · rw [List.head?_append_of_ne_nil _ Nat.toDigits_ne_nil]
        exact ih (n / 10) (by omega) (by omega)

def intParts (number : Int) : Parts :=
  ⟨decide (number < 0), Nat.toDigits 10 number.natAbs, none, none⟩

theorem intParts_isWellFormed (number : Int) : (intParts number).IsWellFormed where
  whole := areDigits_toDigits _
  leading := by
    rcases Nat.eq_zero_or_pos number.natAbs with zero | positive
    · exact .inr (by rw [intParts, zero]; rfl)
    · exact .inl (head?_toDigits positive)
  fraction := by rintro _ ⟨⟩
  exponent := by rintro _ ⟨⟩

theorem text_intParts (number : Int) : (intParts number).text = (toString number).toList := by
  rw [Int.toString_eq_repr, Int.repr_eq_if]
  split
  · next natural =>
    rw [Nat.toList_repr, show number.toNat = number.natAbs by omega]
    simp [intParts, Parts.text, Parts.fractionText, Parts.exponentText, natural]
  · next negative =>
    rw [String.toList_append, Nat.toList_repr, show (-number).toNat = number.natAbs by omega]
    simp [intParts, Parts.text, Parts.fractionText, Parts.exponentText, lt_of_not_ge negative]

end Number

open Number

/-- An integer of a 64-bit word is read back from its text. -/
theorem readWord?_toString {number : Int} (least : -2 ^ 63 ≤ number) (greatest : number < 2 ^ 64)
    : Scan.readWord? (toString number).toList = some (.int number) := by
  rw [← text_intParts, readWord?_text (intParts_isWellFormed number), read?,
    parts?_text (intParts_isWellFormed number), Option.bind_eq_bind, Option.bind_some]
  simp only [intParts, natOfDigits_toDigits, limit]
  rcases Int.lt_or_le number 0 with negative | natural
  · have same : -(number.natAbs : Int) = number := by omega
    have fits : 0 < number.natAbs ∧ number.natAbs ≤ 2 ^ 63 := by omega
    simpa [negative, fits] using same
  · have same : (number.natAbs : Int) = number := by omega
    have fits : number.natAbs ≤ 2 ^ 64 - 1 := by omega
    simpa [natural.not_gt, fits] using same

-----------------------------------------------------------------------------------------
-- Doubles
-----------------------------------------------------------------------------------------

/-- The parts of a number that is written around its point. -/
def positionalParts (negative : Bool) (digits : List Char) (lead : Int) : Parts :=
  if lead < 0 then ⟨negative, ['0'], some (List.replicate (lead.natAbs - 1) '0' ++ digits), none⟩
  else
    let count := lead.natAbs + 1
    let whole := digits.take count
    let tail := digits.drop count
    ⟨negative, whole ++ List.replicate (count - whole.length) '0',
      some (if tail.isEmpty then ['0'] else tail), none⟩

/-- The parts of a number that is written with an exponent. -/
def scientificParts (negative : Bool) (digits : List Char) (lead : Int) : Parts :=
  ⟨negative, digits.take 1, if digits.length ≤ 1 then none else some (digits.drop 1),
    some (decide (lead < 0), Nat.toDigits 10 lead.natAbs)⟩

theorem text_positionalParts (negative : Bool) (digits : List Char) (lead : Int)
    : (positionalParts negative digits lead).text
      = (if negative then ['-'] else []) ++ Text.positional digits lead := by
  unfold positionalParts Text.positional
  split <;> simp [Parts.text, Parts.fractionText, Parts.exponentText]

theorem text_scientificParts (negative : Bool) (digits : List Char) (lead : Int)
    : (scientificParts negative digits lead).text
      = (if negative then ['-'] else []) ++ Text.scientific digits lead := by
  have exponent : (if lead < 0 then '-' :: Nat.toDigits 10 lead.natAbs
      else Nat.toDigits 10 lead.natAbs) = (toString lead).toList := by
    rw [← text_intParts]
    split <;> simp [intParts, Parts.text, Parts.fractionText, Parts.exponentText, *]
  unfold scientificParts Text.scientific
  rw [← exponent]
  split <;> simp [Parts.text, Parts.fractionText, Parts.exponentText]

section Written

/-! The digits that a number is written with start with none that says nothing. -/

variable {digits : List Char} (written : AreDigits digits) (leading : digits.head? ≠ some '0')

include written leading

theorem positionalParts_isWellFormed (negative : Bool) (lead : Int)
    : (positionalParts negative digits lead).IsWellFormed := by
  have zero (places : Nat) : ∀ c ∈ List.replicate places '0', c.isDigit = true := by
    intro c member
    rw [List.eq_of_mem_replicate member]
    rfl
  unfold positionalParts
  split
  · refine ⟨⟨List.cons_ne_nil _ _, zero 1⟩, .inr rfl, ?_, by rintro _ ⟨⟩⟩
    rintro _ ⟨⟩
    refine ⟨by simp [written.1], fun c member => ?_⟩
    exact (List.mem_append.mp member).elim (zero _ c) (written.2 c)
  · obtain ⟨first, rest, rfl⟩ := List.exists_cons_of_ne_nil written.1
    refine ⟨⟨by simp, fun c member => ?_⟩, .inl (by simpa using leading), ?_, by rintro _ ⟨⟩⟩
    · exact (List.mem_append.mp member).elim (fun taken => written.2 c (List.mem_of_mem_take taken))
        (zero _ c)
    · rintro _ ⟨⟩
      split
      · exact ⟨List.cons_ne_nil _ _, zero 1⟩
      · next more =>
        exact ⟨by simpa using more, fun c member => written.2 c (List.mem_of_mem_drop member)⟩

theorem scientificParts_isWellFormed (negative : Bool) (lead : Int)
    : (scientificParts negative digits lead).IsWellFormed := by
  obtain ⟨first, rest, rfl⟩ := List.exists_cons_of_ne_nil written.1
  unfold scientificParts
  refine ⟨⟨by simp, fun c member => written.2 c (List.mem_of_mem_take member)⟩,
    .inl (by simpa using leading), ?_, ?_⟩
  · intro digits member
    split at member
    · cases member
    · next more =>
      obtain rfl : rest = digits := Option.some.inj member
      refine ⟨?_, fun c member => written.2 c (List.mem_cons_of_mem first member)⟩
      rintro rfl
      exact more le_rfl
  · rintro _ ⟨⟩
    exact areDigits_toDigits _

end Written

theorem length_positionalParts (negative : Bool) (digits : List Char) {lead : Int}
    (natural : 0 ≤ lead)
    : (positionalParts negative digits lead).digits.length
      = max digits.length (lead.natAbs + 2) := by
  simp only [Parts.digits, positionalParts, natural.not_gt, if_false, Option.getD_some,
    List.length_append, List.length_take, List.length_replicate]
  split
  · next short =>
    have := List.drop_eq_nil_iff.mp (List.isEmpty_iff.mp short)
    simp only [List.length_singleton]
    omega
  · next more =>
    have := mt List.drop_eq_nil_iff.mpr (mt List.isEmpty_iff.mpr more)
    simp only [List.length_drop]
    omega

theorem fits_positional (negative : Bool) {n : Nat} (positive : 0 < n) (small : n ≤ 10 ^ 17)
    {lead : Int} (most : lead ≤ 15)
    : natOfDigits (positionalParts negative (Nat.toDigits 10 n) lead).digits ≤ 10 ^ 18 := by
  have wellFormed := positionalParts_isWellFormed (areDigits_toDigits n) (head?_toDigits positive)
    negative lead
  have short : (Nat.toDigits 10 n).length ≤ 18 :=
    (Nat.length_toDigits_le_iff (by decide) (by decide)).mpr (small.trans_lt (by decide))
  rw [natOfDigits_eq]
  rcases Int.lt_or_le lead 0 with below | natural
  · -- Zeros before the digits count for nothing.
    have same : Nat.ofDigitChars 10
        (positionalParts negative (Nat.toDigits 10 n) lead).digits 0 = n := by
      simp [Parts.digits, positionalParts, below, Nat.ofDigitChars_append, Nat.ofDigitChars_cons]
    omega
  · have count : (positionalParts negative (Nat.toDigits 10 n) lead).digits.length ≤ 18 := by
      rw [length_positionalParts negative _ natural]
      omega
    exact (ofDigitChars_lt fun c => wellFormed.isDigit).le.trans
      (Nat.pow_le_pow_right (by decide) count)

/-- A number that is written around its point is read: its digits fit a word, and the point only
divides by a power of ten.
-/
theorem isSome_read?_positional (negative : Bool) {n : Nat} (positive : 0 < n) (small : n ≤ 10 ^ 17)
    {lead : Int} (most : lead ≤ 15)
    : (read? (positionalParts negative (Nat.toDigits 10 n) lead).text).isSome = true := by
  have wellFormed := positionalParts_isWellFormed (areDigits_toDigits n) (head?_toDigits positive)
    negative lead
  have noShift : (positionalParts negative (Nat.toDigits 10 n) lead).shift = 0 := by
    unfold positionalParts
    split <;> rfl
  have point : (positionalParts negative (Nat.toDigits 10 n) lead).fraction.isSome = true := by
    unfold positionalParts
    split <;> rfl
  have fits := fits_positional negative positive small most
  refine isSome_read?_text wellFormed (.inl point) (fits.trans (by decide)) ?_
  rw [noShift]
  refine Rounding.isSome_scale?_ofInt (fits.trans_lt (by decide)) (le_trans ?_ Rounding.le_readable)
  refine (mul_le_of_le_one_right (Nat.cast_nonneg _)
    (zpow_le_one_of_nonpos₀ (by norm_num) (by omega))).trans ?_
  exact_mod_cast fits

theorem digits_scientificParts (negative : Bool) {digits : List Char} (some : digits ≠ [])
    (lead : Int)
    : (scientificParts negative digits lead).digits = digits
      ∧ ((scientificParts negative digits lead).fraction.getD []).length = digits.length - 1 := by
  obtain ⟨first, rest, rfl⟩ := List.exists_cons_of_ne_nil some
  cases rest <;> simp [Parts.digits, scientificParts]

theorem shift_scientificParts (negative : Bool) (digits : List Char) (lead : Int)
    : (scientificParts negative digits lead).shift = lead := by
  simp only [scientificParts, Parts.shift, natOfDigits_toDigits, decide_eq_true_eq]
  split <;> omega

/-- A number that is written with an exponent is read if its decimal is. -/
theorem isSome_read?_scientific (negative : Bool) {n : Nat} (positive : 0 < n) (small : n ≤ 10 ^ 17)
    {e : Int} (scaled : (scale? (.ofInt n) e).isSome = true)
    : (read? (scientificParts negative (Nat.toDigits 10 n)
        (e + (Nat.toDigits 10 n).length - 1)).text).isSome = true := by
  have written := areDigits_toDigits n
  obtain ⟨digits, places⟩ := digits_scientificParts negative written.1
    (e + (Nat.toDigits 10 n).length - 1)
  have length := @Nat.length_toDigits_pos 10 n
  refine isSome_read?_text
    (scientificParts_isWellFormed written (head?_toDigits positive) negative _) (.inr rfl) ?_ ?_
  · rw [digits, natOfDigits_toDigits]
    exact small.trans (by decide)
  · rw [digits, natOfDigits_toDigits, places, shift_scientificParts]
    have back
        : e + (Nat.toDigits 10 n).length - 1 - ((Nat.toDigits 10 n).length - 1 : Nat) = e := by
      omega
    rwa [back]

theorem isSome_read?_zero (negative : Bool)
    : (read? (Parts.mk negative ['0'] (some ['0']) none).text).isSome = true := by
  cases negative <;> decide +kernel

/-- The text of a real number is the text of some parts, and it is read. -/
theorem exists_decimalText {d : Double} (finite : d.isFinite = true)
    : ∃ parts : Parts, parts.IsWellFormed
        ∧ parts.text = (Text.decimalText Value.decimalStyle d).toList
        ∧ (read? parts.text).isSome = true := by
  have number : d.isNaN = false := by
    have inside : d.magnitude < Double.infiniteMagnitude := of_decide_eq_true finite
    exact decide_eq_false inside.not_gt
  have signed (unsigned : String) : (if d.isNegative then "-" ++ unsigned else unsigned).toList
      = (if d.isNegative then ['-'] else []) ++ unsigned.toList := by
    cases d.isNegative <;> simp
  simp only [Text.decimalText, number, finite, Bool.not_true, Bool.false_eq_true, if_false, signed]
  by_cases zero : d.magnitude = 0
  · rw [if_pos zero]
    refine ⟨⟨d.isNegative, ['0'], some ['0'], none⟩, ?_, rfl, isSome_read?_zero d.isNegative⟩
    exact ⟨areDigits_toDigits 0, .inr rfl, by rintro _ ⟨⟩; exact areDigits_toDigits 0,
      by rintro _ ⟨⟩⟩
  rw [if_neg zero, String.toList_ofList]
  have shortens := (Text.Decimal.shortens_shortest .toEven (Text.Decimal.significand_pos zero)
    (Text.Decimal.significand_lt d)).trim
  have scaled := Text.Decimal.isSome_scale?_shortest finite zero
  have style : Value.decimalStyle = ⟨.toEven, -5, 15⟩ := rfl
  rw [style]
  dsimp only
  generalize (Text.Decimal.shortest .toEven d).trim = decimal at *
  have written := areDigits_toDigits decimal.digits
  have leading := head?_toDigits shortens.pos
  have exponential := isSome_read?_scientific d.isNegative shortens.pos shortens.short scaled
  generalize decimal.exponent + (Nat.toDigits 10 decimal.digits).length - 1 = lead at *
  by_cases near : (decide (-5 ≤ lead) && decide (lead ≤ 15)) = true
  · rw [if_pos near]
    have most : lead ≤ 15 := by
      simp only [Bool.and_eq_true, decide_eq_true_eq] at near
      exact near.2
    exact ⟨_, positionalParts_isWellFormed written leading d.isNegative lead,
      text_positionalParts _ _ _, isSome_read?_positional _ shortens.pos shortens.short most⟩
  · rw [if_neg near]
    exact ⟨_, scientificParts_isWellFormed written leading d.isNegative lead,
      text_scientificParts _ _ _, exponential⟩

/-- The text of a real number is read: no double is taken for itself because its text cannot be. -/
theorem read?_decimalText {number : Double} (finite : number.isFinite = true)
    : read? (Text.decimalText Value.decimalStyle number).toList
      = some (Value.rereadDouble number) := by
  obtain ⟨parts, -, text, read⟩ := exists_decimalText finite
  obtain ⟨value, same⟩ := Option.isSome_iff_exists.mp read
  rw [Value.rereadDouble, ← text, same, Option.getD_some]

theorem readWord?_decimalText {number : Double} (finite : number.isFinite = true)
    : Scan.readWord? (Text.decimalText Value.decimalStyle number).toList
      = some (Value.rereadDouble number) := by
  obtain ⟨parts, wellFormed, text, -⟩ := exists_decimalText finite
  rw [← read?_decimalText finite, ← text, readWord?_text wellFormed]

theorem isWordChar_toString {number : Int} {c : Char} (h : c ∈ (toString number).toList)
    : Scan.isWordChar c = true := by
  rw [← text_intParts] at h
  exact Parts.isWordChar_text (intParts_isWellFormed number) h

theorem toString_ne_nil (number : Int) : (toString number).toList ≠ [] := by
  rw [← text_intParts]
  exact Parts.text_ne_nil (intParts_isWellFormed number)

theorem isWordChar_decimalText {number : Double} (finite : number.isFinite = true) {c : Char}
    (h : c ∈ (Text.decimalText Value.decimalStyle number).toList)
    : Scan.isWordChar c = true := by
  obtain ⟨parts, wellFormed, text, -⟩ := exists_decimalText finite
  exact Parts.isWordChar_text wellFormed (text ▸ h)

theorem decimalText_ne_nil {number : Double} (finite : number.isFinite = true)
    : (Text.decimalText Value.decimalStyle number).toList ≠ [] := by
  obtain ⟨parts, wellFormed, text, -⟩ := exists_decimalText finite
  exact text ▸ Parts.text_ne_nil wellFormed

end Telemetry.Document
