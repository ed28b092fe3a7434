import Vizor.AddressBook.Contacts
import Vizor.Lib.Decimals
import Mathlib.Data.Rat.Defs
import Mathlib.Algebra.Order.Field.Rat

/-!
# Amounts of swaps as texts

An amount of a swap is a decimal numeral, which may come from the swap service in any spelling.
It is turned into base units of its token by moving digits in the text: the point goes, and zeros
are put after the digits as far as the decimals of the token and the exponent ask for.  The other
direction puts the point into the digits of the base units.
-/

namespace Vizor

open AddressBook (Text text trim isWhitespace lowerAscii)

namespace Swap

/-! ### Integers of 64 bits -/

/-- What is left of an integer in 64 bits with a sign. -/
def wrap64 (n : Int) : Int :=
  (n + 9223372036854775808) % 18446744073709551616 - 9223372036854775808

def InRange64 (n : Int) : Prop :=
  -9223372036854775808 ≤ n ∧ n < 9223372036854775808

instance : DecidablePred InRange64 :=
  fun _ => inferInstanceAs (Decidable (_ ∧ _))

def hexDigit (c : Nat) : Option Nat :=
  if 48 ≤ c ∧ c ≤ 57 then some (c - 48)
  else if 97 ≤ c ∧ c ≤ 102 then some (c - 87)
  else if 65 ≤ c ∧ c ≤ 70 then some (c - 55)
  else none

/-- The digits of a text, if there are any and there is nothing else. -/
def digitsOf (digit : Nat → Option Nat) (t : Text) : Option (List Nat) :=
  if t = [] then none else t.mapM digit

/-- A sign at the head of a text, and the rest. -/
def splitSign : Text → Bool × Text
  | 43 :: rest => (false, rest)
  | 45 :: rest => (true, rest)
  | t => (false, t)

/-- `int.tryParse`: white space at the ends is ignored, digits after `0x` are hexadecimal, and
hexadecimal digits without a minus sign may fill all 64 bits. -/
def tryParseInt (t : Text) : Option Int := do
  let (negative, t) := splitSign (trim t)
  let signed := fun n : Nat => if negative then -(n : Int) else n
  match t with
  | 48 :: 120 :: hex | 48 :: 88 :: hex =>
    let n := Radix.value 16 (← digitsOf hexDigit hex)
    if InRange64 (signed n) then some (signed n)
    else if !negative && n < 18446744073709551616 then some (wrap64 n)
    else none
  | t =>
    let digits ← digitsOf (fun c => if Decimals.isDigit c then some (c - 48) else none) t
    let n := Radix.value 10 digits
    if InRange64 (signed n) then some (signed n) else none

/-! ### From a text to base units -/

def invalidQuoteAmount : String :=
  "Invalid quote amount"

def amountExceedsTokenPrecision : String :=
  "Amount exceeds token precision"

def normalizeAmount (value : Text) : Text :=
  let normalized := (trim value).map lowerAscii
  if normalized.head? = some 43 then normalized.tail else normalized

/-- The number of digits after the point. -/
def fractionalDigits (mantissa : Text) : Nat :=
  match mantissa.idxOf? 46 with
  | none => 0
  | some pointIndex => mantissa.length - pointIndex - 1

/-- The digits of a mantissa, moved by the exponent and the decimals of a token. -/
def shiftDigits (mantissa : Text) (exponent decimals : Int) : Except String Text :=
  let digits := mantissa.filter (· ≠ 46)
  if 1 < mantissa.count 46 ∨ digits = [] ∨ ¬ Decimals.IsDigits digits then
    .error invalidQuoteAmount
  else
    let decimalPlaces := wrap64 (fractionalDigits mantissa - exponent)
    let shift := wrap64 (decimals - decimalPlaces)
    if 0 ≤ shift then
      let digits := digits ++ List.replicate shift.toNat 48
      let raw := Decimals.stripLeadingZeros digits
      .ok (if raw = [] then text "0" else raw)
    else .error amountExceedsTokenPrecision

/-- The digits of base units for an amount of a token with some decimals. -/
def decimalStringToBaseUnits (value : Text) (decimals : Int) : Except String Text :=
  let normalized := normalizeAmount value
  if normalized.head? = some 45 ∨ normalized = [] then .error invalidQuoteAmount
  else
    let exponentParts := normalized.splitOn 101
    let mantissa := exponentParts.headD []
    if 2 < exponentParts.length ∨ mantissa = [] then .error invalidQuoteAmount
    else
      let exponent := match exponentParts[1]? with
        | some exponent => tryParseInt exponent
        | none => some 0
      match exponent with
      | none => .error invalidQuoteAmount
      | some exponent => shiftDigits mantissa exponent decimals

def toBaseUnits (amount : Text) (decimals : Int) : Except String Text :=
  if decimals < 0 then .error "Invalid token decimals"
  else decimalStringToBaseUnits amount decimals

/-! ### From base units to a text -/

/-- Take away the zeros at the end of a fraction, and the point when nothing follows it. -/
def swapTrimDecimal (value : Text) : Text :=
  let t := trim value
  if 46 ∉ t then t
  else
    let t := t.rdropWhile (· = 48)
    if t.getLast? = some 46 then t.dropLast else t

/-- The parts of an amount: digits, perhaps with a point among them, and perhaps an exponent. -/
structure Shape where
  whole : Text
  fraction : Option Text
  exponent : Option Text
  deriving DecidableEq, Repr

/-- An exponent of decimal digits, perhaps with a sign. -/
def IsPlain (exponent : Text) : Prop :=
  (splitSign exponent).2 ≠ [] ∧ Decimals.IsDigits (splitSign exponent).2

instance : DecidablePred IsPlain :=
  fun _ => inferInstanceAs (Decidable (_ ∧ _))

def exponentValue (exponent : Text) : Int :=
  let (negative, digits) := splitSign exponent
  if negative then -(Decimals.value digits : Int) else Decimals.value digits

namespace Shape

variable (shape : Shape)

def digits : Text :=
  shape.whole ++ shape.fraction.getD []

def mantissa : Text :=
  shape.whole ++ shape.fraction.elim [] (46 :: ·)

def text : Text :=
  shape.mantissa ++ shape.exponent.elim [] (101 :: ·)

def fractionLength : Nat :=
  (shape.fraction.getD []).length

/-- The digits are some digits, and the exponent neither starts another one nor ends with white
space. -/
structure WellFormed : Prop where
  digits : Decimals.IsDigits shape.digits
  nonempty : shape.digits ≠ []
  exponent : ∀ exponent ∈ shape.exponent, 101 ∉ exponent
  last : ∀ exponent ∈ shape.exponent, ∀ c ∈ exponent.getLast?, isWhitespace c = false

/-- A numeral with an exponent of decimal digits. -/
structure IsNumeral : Prop extends WellFormed shape where
  plain : ∀ exponent ∈ shape.exponent, IsPlain exponent

def exponentNumber : Int :=
  (shape.exponent.map exponentValue).getD 0

def decimalPlaces : Int :=
  shape.fractionLength - shape.exponentNumber

/-- The number that a numeral denotes. -/
def value : Rat :=
  Decimals.value shape.digits * (10 : Rat) ^ (-shape.decimalPlaces)

/-- The amount is written in a text: in any case, after a plus sign or not, between white space. -/
def IsWritten (value : Text) : Prop :=
  ∃ before plus body after,
    value = before ++ (plus ++ body) ++ after
      ∧ (∀ c ∈ before, isWhitespace c) ∧ (∀ c ∈ after, isWhitespace c)
      ∧ (plus = [] ∨ plus = [43]) ∧ body.map lowerAscii = shape.text

end Shape

/-! ### Reading a text -/

/-- Some digits around a point. -/
theorem mantissa_cases {mantissa : Text} (h : mantissa.count 46 ≤ 1) :
  46 ∉ mantissa ∨ ∃ whole fraction, mantissa = whole ++ 46 :: fraction ∧ 46 ∉ whole ∧ 46 ∉ fraction
  := by
  by_cases hmem : 46 ∈ mantissa
  · obtain ⟨whole, fraction, rfl, hwhole⟩ := List.eq_append_cons_of_mem hmem
    refine Or.inr ⟨whole, fraction, rfl, hwhole, ?_⟩
    rw [List.count_append, List.count_cons_self] at h
    rw [← List.count_eq_zero]
    omega
  · exact Or.inl hmem

/-- A text with at most one `e`. -/
theorem splitOn_cases {t : Text} (h : (t.splitOn 101).length ≤ 2) :
  (101 ∉ t ∧ t.splitOn 101 = [t])
    ∨ ∃ mantissa exponent, t = mantissa ++ 101 :: exponent ∧ 101 ∉ mantissa ∧ 101 ∉ exponent
        ∧ t.splitOn 101 = [mantissa, exponent]
  := by
  by_cases hmem : 101 ∈ t
  · obtain ⟨mantissa, exponent, rfl, hmantissa⟩ := List.eq_append_cons_of_mem hmem
    rw [List.splitOn_append_cons_self_of_not_mem hmantissa] at h ⊢
    have hexponent : 101 ∉ exponent := by
      intro hmem'
      obtain ⟨before, after, rfl, hbefore⟩ := List.eq_append_cons_of_mem hmem'
      rw [List.splitOn_append_cons_self_of_not_mem hbefore] at h
      have hne := List.splitOn_ne_nil 101 after
      have hpos := List.length_pos_of_ne_nil hne
      simp only [List.length_cons] at h
      omega
    refine Or.inr ⟨mantissa, exponent, rfl, hmantissa, hexponent, ?_⟩
    rw [List.splitOn_eq_singleton hexponent]
  · exact Or.inl ⟨hmem, List.splitOn_eq_singleton hmem⟩

namespace Shape

variable {shape : Shape}

/-- A digit is neither a point nor a letter nor a sign nor white space. -/
theorem ne_of_isDigit {c : Nat} (h : Decimals.isDigit c) :
  c ≠ 46 ∧ c ≠ 101 ∧ c ≠ 45 ∧ c ≠ 43 ∧ isWhitespace c = false
  := by
  have hdigit := Decimals.isDigit_iff.mp h
  refine ⟨by omega, by omega, by omega, by omega, ?_⟩
  simp only [isWhitespace, Bool.or_eq_false_iff, Bool.and_eq_false_iff, decide_eq_false_iff_not,
    beq_eq_false_iff_ne]
  omega

theorem WellFormed.whole (wf : shape.WellFormed) :
  Decimals.IsDigits shape.whole
  := fun c hc => wf.digits c (List.mem_append_left _ hc)

theorem WellFormed.fraction (wf : shape.WellFormed) {fraction : Text}
    (h : shape.fraction = some fraction) :
  Decimals.IsDigits fraction
  := by
  intro c hc
  have hmem : c ∈ shape.digits := by
    rw [Shape.digits, h]
    apply List.mem_append_right _ hc
  apply wf.digits c hmem

theorem mem_mantissa (wf : shape.WellFormed) {c : Nat} (hc : c ∈ shape.mantissa) :
  Decimals.isDigit c ∨ c = 46
  := by
  rcases List.mem_append.mp hc with hc | hc
  · exact Or.inl (wf.whole c hc)
  · cases hf : shape.fraction with
    | none => simp [hf] at hc
    | some fraction =>
      rw [hf] at hc
      rcases List.mem_cons.mp hc with rfl | hc
      · exact Or.inr rfl
      · exact Or.inl (wf.fraction hf c hc)

theorem mantissa_ne_nil (wf : shape.WellFormed) :
  shape.mantissa ≠ []
  := by
  intro h
  have hwhole := (List.append_eq_nil_iff.mp h).1
  have hfraction := (List.append_eq_nil_iff.mp h).2
  apply wf.nonempty
  rw [digits, hwhole]
  cases hf : shape.fraction with
  | none => rfl
  | some fraction => simp [hf] at hfraction

theorem splitOn_text (wf : shape.WellFormed) :
  shape.text.splitOn 101 = shape.mantissa :: shape.exponent.toList
  := by
  have hmantissa : 101 ∉ shape.mantissa := by
    intro hmem
    rcases mem_mantissa wf hmem with h | h
    · apply (ne_of_isDigit h).2.1 rfl
    · omega
  cases he : shape.exponent with
  | none =>
    simp only [text, he, Option.elim_none, List.append_nil, Option.toList_none]
    apply List.splitOn_eq_singleton hmantissa
  | some exponent =>
    simp only [text, he, Option.elim_some, Option.toList_some]
    rw [List.splitOn_append_cons_self_of_not_mem hmantissa,
      List.splitOn_eq_singleton (wf.exponent exponent he)]

theorem count_mantissa (wf : shape.WellFormed) :
  shape.mantissa.count 46 ≤ 1
  := by
  have hwhole : shape.whole.count 46 = 0 :=
    List.count_eq_zero.mpr fun hmem => (ne_of_isDigit (wf.whole 46 hmem)).1 rfl
  cases hf : shape.fraction with
  | none => simp [mantissa, hf, hwhole]
  | some fraction =>
    have hfraction : fraction.count 46 = 0 :=
      List.count_eq_zero.mpr fun hmem => (ne_of_isDigit (wf.fraction hf 46 hmem)).1 rfl
    simp [mantissa, hf, hwhole, hfraction]

theorem filter_mantissa (wf : shape.WellFormed) :
  shape.mantissa.filter (· ≠ 46) = shape.digits
  := by
  have hall (t : Text) (ht : Decimals.IsDigits t) : t.filter (· ≠ 46) = t := by
    rw [List.filter_eq_self]
    intro c hc
    simpa using (ne_of_isDigit (ht c hc)).1
  cases hf : shape.fraction with
  | none =>
    simp only [mantissa, digits, hf, Option.elim_none, Option.getD_none, List.append_nil]
    apply hall _ wf.whole
  | some fraction =>
    simp only [mantissa, digits, hf, Option.elim_some, Option.getD_some, List.filter_append,
      hall _ wf.whole]
    rw [List.filter_cons_of_neg (by decide), hall _ (wf.fraction hf)]

theorem fractionalDigits_append {whole fraction : Text} (h : 46 ∉ whole) :
  fractionalDigits (whole ++ 46 :: fraction) = fraction.length
  := by
  have hindex : (whole ++ 46 :: fraction).idxOf? 46 = some whole.length := by
    rw [List.idxOf?_eq_some_iff]
    refine ⟨by simp, by simp, ?_⟩
    intro j hj heq
    rw [List.getElem_append_left hj] at heq
    apply h (heq ▸ List.getElem_mem hj)
  simp only [fractionalDigits, hindex, List.length_append, List.length_cons]
  omega

theorem fractionalDigits_mantissa (wf : shape.WellFormed) :
  fractionalDigits shape.mantissa = shape.fractionLength
  := by
  have hwhole : 46 ∉ shape.whole := fun hmem => (ne_of_isDigit (wf.whole 46 hmem)).1 rfl
  cases hf : shape.fraction with
  | none =>
    simp only [mantissa, fractionLength, hf, Option.elim_none, Option.getD_none, List.append_nil,
      fractionalDigits, List.idxOf?_eq_none_iff.mpr hwhole, List.length_nil]
  | some fraction =>
    simp only [mantissa, fractionLength, hf, Option.elim_some, Option.getD_some]
    apply fractionalDigits_append hwhole

/-- The first character of an amount is a digit or the point. -/
theorem head_text (wf : shape.WellFormed) :
  ∃ c ∈ shape.text.head?, Decimals.isDigit c ∨ c = 46
  := by
  obtain ⟨c, rest, hmantissa⟩ := List.exists_cons_of_ne_nil (mantissa_ne_nil wf)
  refine ⟨c, ?_, mem_mantissa wf (by simp [hmantissa])⟩
  simp [text, hmantissa]

/-- The exponent as the code reads it. -/
def readExponent (shape : Shape) : Option Int :=
  match shape.exponent with
  | some exponent => tryParseInt exponent
  | none => some 0

/-- By how many places the digits are moved. -/
def shift (shape : Shape) (decimals exponent : Int) : Int :=
  wrap64 (decimals - wrap64 (shape.fractionLength - exponent))

theorem shiftDigits_mantissa {exponent decimals : Int} (wf : shape.WellFormed) :
  shiftDigits shape.mantissa exponent decimals
    = if 0 ≤ shape.shift decimals exponent then
        .ok (Decimals.numeral (Decimals.value shape.digits
          * 10 ^ (shape.shift decimals exponent).toNat))
      else .error amountExceedsTokenPrecision
  := by
  have hdigits : ¬ (1 < shape.mantissa.count 46 ∨ shape.digits = []
      ∨ ¬ Decimals.IsDigits shape.digits) := by
    simp [wf.nonempty, wf.digits, count_mantissa wf]
  have hzeros (k : Nat) : Decimals.stripLeadingZeros (shape.digits ++ List.replicate k 48)
      = Decimals.numeral (Decimals.value shape.digits * 10 ^ k) := by
    rw [Decimals.stripLeadingZeros_eq, Decimals.value_append_zeros]
    · intro c hc
      rcases List.mem_append.mp hc with hc | hc
      · apply wf.digits c hc
      · rw [List.eq_of_mem_replicate hc]
        rfl
    · simp [wf.nonempty]
  unfold shiftDigits
  simp only [filter_mantissa wf, fractionalDigits_mantissa wf, hzeros, Decimals.numeral_ne_nil,
    if_false, shift]
  rw [if_neg hdigits]
  congr

/-- What becomes of an amount with a shape. -/
theorem decimalStringToBaseUnits_of_text {value : Text} {decimals : Int} (wf : shape.WellFormed)
    (h : normalizeAmount value = shape.text) :
  decimalStringToBaseUnits value decimals
    = match shape.readExponent with
      | none => .error invalidQuoteAmount
      | some exponent =>
        if 0 ≤ shape.shift decimals exponent then
          .ok (Decimals.numeral (Decimals.value shape.digits
            * 10 ^ (shape.shift decimals exponent).toNat))
        else .error amountExceedsTokenPrecision
  := by
  obtain ⟨c, hc, hclass⟩ := head_text wf
  rw [Option.mem_def] at hc
  have hstart : ¬ (shape.text.head? = some 45 ∨ shape.text = []) := by
    rintro (hminus | hnil)
    · rw [hc, Option.some_inj] at hminus
      rcases hclass with hdigit | hpoint
      · apply (ne_of_isDigit hdigit).2.2.1 hminus
      · omega
    · simp [hnil] at hc
  have hparts : ¬ (2 < (shape.mantissa :: shape.exponent.toList).length
      ∨ (shape.mantissa :: shape.exponent.toList).headD [] = []) := by
    rintro (hlength | hnil)
    · cases he : shape.exponent <;> simp [he] at hlength
    · apply mantissa_ne_nil wf hnil
  have hexponent : (match (shape.mantissa :: shape.exponent.toList)[1]? with
      | some exponent => tryParseInt exponent
      | none => some 0) = shape.readExponent := by
    cases he : shape.exponent <;> simp [readExponent, he]
  unfold decimalStringToBaseUnits
  simp only [h]
  rw [if_neg hstart, splitOn_text wf, if_neg hparts, hexponent]
  cases shape.readExponent with
  | none => rfl
  | some exponent => exact shiftDigits_mantissa wf

end Shape

/-- Digits of a mantissa that are accepted have a shape. -/
theorem exists_shape_of_mantissa {mantissa : Text} (hcount : ¬ 1 < mantissa.count 46)
    (hne : mantissa.filter (· ≠ 46) ≠ [])
    (hdigits : Decimals.IsDigits (mantissa.filter (· ≠ 46))) :
  ∃ whole fraction, mantissa = whole ++ Option.elim fraction [] (46 :: ·)
    ∧ mantissa.filter (· ≠ 46) = whole ++ fraction.getD []
  := by
  have hfilter {t : Text} (h : 46 ∉ t) : t.filter (· ≠ 46) = t := by
    rw [List.filter_eq_self]
    intro c hc
    simpa using fun heq : c = 46 => h (heq ▸ hc)
  rcases mantissa_cases (not_lt.mp hcount) with hnone | ⟨whole, fraction, rfl, hwhole, hfraction⟩
  · exact ⟨mantissa, none, by simp, by simpa using hfilter hnone⟩
  · refine ⟨whole, some fraction, rfl, ?_⟩
    rw [List.filter_append, List.filter_cons_of_neg (by decide), hfilter hwhole,
      hfilter hfraction]
    rfl

theorem isWhitespace_lowerAscii (c : Nat) :
  isWhitespace (lowerAscii c) = isWhitespace c
  := by
  unfold lowerAscii
  split_ifs with h
  · rw [Bool.eq_iff_iff]
    simp only [isWhitespace, Bool.or_eq_true, Bool.and_eq_true, decide_eq_true_eq, beq_iff_eq]
    omega
  · rfl

/-- A normalized amount does not end with white space. -/
theorem last_normalizeAmount {value : Text} :
  ∀ c ∈ (normalizeAmount value).getLast?, isWhitespace c = false
  := by
  intro c hc
  have htrim : ∀ c ∈ ((trim value).map lowerAscii).getLast?, isWhitespace c = false := by
    intro c hc
    rw [Option.mem_def, List.getLast?_map, Option.map_eq_some_iff] at hc
    obtain ⟨d, hd, rfl⟩ := hc
    rw [isWhitespace_lowerAscii]
    apply (AddressBook.trimmed_trim value).last d hd
  unfold normalizeAmount at hc
  simp only at hc
  split_ifs at hc
  · apply htrim c
    cases hmap : (trim value).map lowerAscii with
    | nil => simp [hmap] at hc
    | cons d rest =>
      rw [hmap, List.tail_cons] at hc
      rw [Option.mem_def, List.getLast?_cons, hc]
      rfl
  · apply htrim c hc

/-- An amount that is accepted has a shape. -/
theorem exists_shape {value : Text} {decimals : Int} {units : Text}
    (h : decimalStringToBaseUnits value decimals = .ok units) :
  ∃ shape : Shape, shape.WellFormed ∧ normalizeAmount value = shape.text
  := by
  have hlast : ∀ c ∈ (normalizeAmount value).getLast?, isWhitespace c = false :=
    last_normalizeAmount
  unfold decimalStringToBaseUnits at h
  simp only at h
  generalize normalizeAmount value = normalized at h hlast
  split_ifs at h with hstart hparts
  have hlength : (normalized.splitOn 101).length ≤ 2 := by omega
  have hmantissa {mantissa : Text} {exponent : Int}
      (h : shiftDigits mantissa exponent decimals = .ok units) :
      ∃ whole fraction, mantissa = whole ++ Option.elim fraction [] (46 :: ·)
        ∧ whole ++ fraction.getD [] ≠ [] ∧ Decimals.IsDigits (whole ++ fraction.getD []) := by
    have hdigits : ¬ (1 < mantissa.count 46 ∨ mantissa.filter (· ≠ 46) = []
        ∨ ¬ Decimals.IsDigits (mantissa.filter (· ≠ 46))) := by
      intro hbad
      rw [shiftDigits, if_pos hbad] at h
      cases h
    simp only [not_or, not_not] at hdigits
    obtain ⟨whole, fraction, hmantissa, hfilter⟩ :=
      exists_shape_of_mantissa hdigits.1 hdigits.2.1 hdigits.2.2
    rw [hfilter] at hdigits
    exact ⟨whole, fraction, hmantissa, hdigits.2.1, hdigits.2.2⟩
  rcases splitOn_cases hlength with ⟨-, hsplit⟩ | ⟨mantissa, exponent, rfl, -, hexponent, hsplit⟩
  · rw [hsplit] at h
    obtain ⟨whole, fraction, rfl, hne, hdigits⟩ := hmantissa h
    refine ⟨⟨whole, fraction, none⟩, ⟨hdigits, hne, by simp, by simp⟩, ?_⟩
    simp [Shape.text, Shape.mantissa]
  · rw [hsplit] at h
    simp only [List.getElem?_cons_succ, List.getElem?_cons_zero, List.headD_cons] at h
    split at h
    · cases h
    · obtain ⟨whole, fraction, rfl, hne, hdigits⟩ := hmantissa h
      refine ⟨⟨whole, fraction, some exponent⟩, ⟨hdigits, hne, ?_, ?_⟩, ?_⟩
      · rintro _ ⟨⟩
        apply hexponent
      · rintro _ ⟨⟩ c hc
        apply hlast c
        rw [Option.mem_def] at hc ⊢
        rw [List.getLast?_append, List.getLast?_cons, hc]
        rfl
      · simp [Shape.text, Shape.mantissa]

/-! ### What is written -/

/-- White space around a text without any at its ends goes. -/
theorem trim_append {before t after : Text} (hbefore : ∀ c ∈ before, isWhitespace c)
    (hafter : ∀ c ∈ after, isWhitespace c) (ht : AddressBook.Trimmed t) (hne : t ≠ []) :
  trim (before ++ t ++ after) = t
  := by
  have hdrop {l : Text} (h : l ≠ []) (hhead : ∀ c, l.head? = some c → isWhitespace c = false) :
      l.dropWhile isWhitespace = l := by
    obtain ⟨c, rest, rfl⟩ := List.exists_cons_of_ne_nil h
    rw [List.dropWhile_cons_of_neg]
    simp [hhead c rfl]
  have hleft : (before ++ t ++ after).dropWhile isWhitespace = t ++ after := by
    rw [List.append_assoc, List.dropWhile_append_of_pos hbefore]
    apply hdrop (by simp [hne])
    intro c hc
    rw [List.head?_append_of_ne_nil _ hne] at hc
    apply ht.head c hc
  rw [trim, hleft, List.rdropWhile, List.reverse_append,
    List.dropWhile_append_of_pos fun c hc => hafter c (List.mem_reverse.mp hc),
    hdrop (by simp [hne]), List.reverse_reverse]
  intro c hc
  rw [List.head?_reverse] at hc
  apply ht.last c hc

theorem exists_append_trim (t : Text) :
  ∃ before after, t = before ++ trim t ++ after
    ∧ (∀ c ∈ before, isWhitespace c) ∧ (∀ c ∈ after, isWhitespace c)
  := by
  refine ⟨t.takeWhile isWhitespace,
    (t.dropWhile isWhitespace).rtakeWhile isWhitespace, ?_, ?_, ?_⟩
  · rw [trim, List.append_assoc, List.rdropWhile, List.rtakeWhile, ← List.reverse_append,
      List.takeWhile_append_dropWhile, List.reverse_reverse, List.takeWhile_append_dropWhile]
  · intro c hc
    apply List.mem_takeWhile_imp hc
  · intro c hc
    apply List.mem_rtakeWhile_imp hc

theorem lowerAscii_eq_plus {c : Nat} (h : lowerAscii c = 43) :
  c = 43
  := by
  unfold lowerAscii at h
  split_ifs at h
  · omega
  · apply h

/-- A trimmed text is what was normalized, in some case, after a plus sign or not. -/
theorem exists_body {value normalized : Text} (h : normalizeAmount value = normalized) :
  ∃ plus body, trim value = plus ++ body ∧ (plus = [] ∨ plus = [43])
    ∧ body.map lowerAscii = normalized
  := by
  unfold normalizeAmount at h
  simp only at h
  split_ifs at h with hplus
  · obtain ⟨c, body, htrim⟩ : ∃ c body, trim value = c :: body := by
      cases htrim : trim value with
      | nil => simp [htrim] at hplus
      | cons c body => exact ⟨c, body, rfl⟩
    rw [htrim] at hplus h
    simp only [List.map_cons, List.head?_cons, Option.some_inj] at hplus
    obtain rfl := lowerAscii_eq_plus hplus
    exact ⟨[43], body, htrim, Or.inr rfl, h⟩
  · exact ⟨[], trim value, rfl, Or.inl rfl, h⟩

namespace Shape

variable {shape : Shape}

theorem text_ne_nil (wf : shape.WellFormed) :
  shape.text ≠ []
  := by
  simp [text, mantissa_ne_nil wf]

theorem head_text_eq (wf : shape.WellFormed) {c : Nat} (hc : shape.text.head? = some c) :
  isWhitespace c = false ∧ c ≠ 43
  := by
  obtain ⟨d, hd, hclass⟩ := head_text wf
  rw [Option.mem_def, hc, Option.some_inj] at hd
  subst hd
  rcases hclass with hdigit | rfl
  · exact ⟨(ne_of_isDigit hdigit).2.2.2.2, (ne_of_isDigit hdigit).2.2.2.1⟩
  · exact ⟨by decide, by decide⟩

theorem last_text_eq (wf : shape.WellFormed) {c : Nat} (hc : shape.text.getLast? = some c) :
  isWhitespace c = false
  := by
  have hmantissa {c : Nat} (h : c ∈ shape.mantissa) : isWhitespace c = false := by
    rcases mem_mantissa wf h with hdigit | rfl
    · apply (ne_of_isDigit hdigit).2.2.2.2
    · decide
  cases he : shape.exponent with
  | none =>
    simp only [text, he, Option.elim_none, List.append_nil] at hc
    apply hmantissa (List.mem_of_getLast? hc)
  | some exponent =>
    simp only [text, he, Option.elim_some, List.getLast?_append, List.getLast?_cons,
      Option.some_or, Option.some_inj] at hc
    cases hlast : exponent.getLast? with
    | none =>
      rw [hlast] at hc
      subst hc
      decide
    | some d =>
      rw [hlast] at hc
      subst hc
      apply wf.last exponent he d hlast

/-- What is written is what the code makes of the text. -/
theorem isWritten_iff (wf : shape.WellFormed) {value : Text} :
  shape.IsWritten value ↔ normalizeAmount value = shape.text
  := by
  constructor
  · rintro ⟨before, plus, body, after, rfl, hbefore, hafter, hplus, hbody⟩
    have hne : body ≠ [] := by
      rintro rfl
      apply text_ne_nil wf hbody.symm
    have hhead : ∀ c, body.head? = some c → isWhitespace c = false := by
      intro c hc
      rw [← isWhitespace_lowerAscii]
      apply (head_text_eq wf _).1
      rw [← hbody, List.head?_map, hc]
      rfl
    have htrimmed : AddressBook.Trimmed (plus ++ body) := by
      constructor
      · intro c hc
        rcases hplus with rfl | rfl
        · apply hhead c hc
        · cases hc
          decide
      · intro c hc
        rw [List.getLast?_append_of_ne_nil _ hne] at hc
        rw [← isWhitespace_lowerAscii]
        apply last_text_eq wf
        rw [← hbody, List.getLast?_map, hc]
        rfl
    have htext : shape.text.head? ≠ some 43 := fun hc => (head_text_eq wf hc).2 rfl
    rw [normalizeAmount, trim_append hbefore hafter htrimmed (by simp [hne]), List.map_append,
      hbody]
    rcases hplus with rfl | rfl
    · simp [htext]
    · rfl
  · intro h
    obtain ⟨before, after, hvalue, hbefore, hafter⟩ := exists_append_trim value
    obtain ⟨plus, body, htrim, hplus, hbody⟩ := exists_body h
    rw [htrim] at hvalue
    exact ⟨before, plus, body, after, hvalue, hbefore, hafter, hplus, hbody⟩

end Shape

/-! ### Plain exponents -/

theorem digitsOf_digits {t : Text} (hne : t ≠ []) (ht : Decimals.IsDigits t) :
  digitsOf (fun c => if Decimals.isDigit c then some (c - 48) else none) t = some (t.map (· - 48))
  := by
  rw [digitsOf, if_neg hne]
  clear hne
  induction t with
  | nil => rfl
  | cons c rest ih =>
    have hrest := ih fun d hd => ht d (List.mem_cons_of_mem c hd)
    have hc : Decimals.isDigit c := ht c List.mem_cons_self
    simp [List.mapM_cons, hc, hrest]

theorem trimmed_of_isPlain {exponent : Text} (h : IsPlain exponent) :
  AddressBook.Trimmed exponent
  := by
  have hall : ∀ c ∈ exponent, isWhitespace c = false := by
    intro c hc
    have hdigit {c : Nat} (hc : c ∈ (splitSign exponent).2) : isWhitespace c = false :=
      (Shape.ne_of_isDigit (h.2 c hc)).2.2.2.2
    unfold splitSign at hdigit
    split at hdigit
    · rcases List.mem_cons.mp hc with rfl | hc
      · decide
      · apply hdigit hc
    · rcases List.mem_cons.mp hc with rfl | hc
      · decide
      · apply hdigit hc
    · apply hdigit hc
  exact ⟨fun c hc => hall c (List.mem_of_head? hc), fun c hc => hall c (List.mem_of_getLast? hc)⟩

/-- An exponent of decimal digits is read as its value, if it fits into 64 bits. -/
theorem tryParseInt_of_isPlain {exponent : Text} (h : IsPlain exponent) :
  tryParseInt exponent
    = if InRange64 (exponentValue exponent) then some (exponentValue exponent) else none
  := by
  obtain ⟨hne, hdigits⟩ := h
  have htrim : trim exponent = exponent := AddressBook.trim_eq_self (trimmed_of_isPlain ⟨hne, hdigits⟩)
  unfold tryParseInt exponentValue
  rw [htrim]
  generalize splitSign exponent = signed at hne hdigits
  obtain ⟨negative, digits⟩ := signed
  simp only at hne hdigits ⊢
  split
  · have hx := Decimals.isDigit_iff.mp (hdigits 120 (by simp))
    omega
  · have hx := Decimals.isDigit_iff.mp (hdigits 88 (by simp))
    omega
  · rw [digitsOf_digits hne hdigits]
    rfl

end Swap

end Vizor
