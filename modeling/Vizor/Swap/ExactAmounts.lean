import Vizor.Swap.AmountText
import Mathlib.Algebra.Order.Field.Power
import Mathlib.Tactic.FieldSimp
import Mathlib.Tactic.Ring

/-!
# Exact amounts

A text that is turned into base units is a decimal numeral, and what comes out is the numeral of
its value in base units, as long as the exponent is written in decimal digits and no 64-bit
integer overflows.  Base units that were made a text come back as they were.
-/

namespace Vizor

open AddressBook (Text text trim isWhitespace lowerAscii)

namespace Swap

/-! ### What is promised -/

/-- The exponent is plain and the shift of the digits is small enough, or the text is refused. -/
def ExponentAllows (value : Text) (decimals : Nat) : Prop :=
  ∀ shape : Shape, shape.WellFormed → shape.IsWritten value →
    ∀ exponent ∈ shape.exponent,
      (IsPlain exponent →
        let shift := (decimals : Int) - shape.fractionLength + exponentValue exponent
        (0 ≤ shift → exponentValue exponent < 9223372036854775808 ∧ shift < 9223372036854775808)
          ∧ (-9223372036854775808 ≤ exponentValue exponent → shift < -9223372036854775808 →
              Decimals.value shape.digits = 0))
      ∧ (¬ IsPlain exponent → ∀ e, tryParseInt exponent = some e →
          wrap64 ((decimals : Int) - shape.fractionLength + e) < 0)

/-- The exponent is plain, and the digits are not moved so far that the shift overflows. -/
def ReadsExactly (value : Text) (decimals : Int) : Prop :=
  ∀ shape : Shape, shape.WellFormed → shape.IsWritten value →
    (∀ exponent ∈ shape.exponent, IsPlain exponent)
      ∧ (decimals - shape.fractionLength + shape.exponentNumber < -9223372036854775808 →
          Decimals.value shape.digits = 0)

/-! ### Shifts of 64 bits -/

theorem wrap64_shift (decimals places exponent : Int) :
  wrap64 (decimals - wrap64 (places - exponent)) = wrap64 (decimals - places + exponent)
  := by
  unfold wrap64
  omega

theorem wrap64_nonneg {n : Int} (h : 0 ≤ n) (h' : n < 18446744073709551616) :
  0 ≤ wrap64 n ↔ n < 9223372036854775808
  := by
  unfold wrap64
  omega

theorem wrap64_eq_self {n : Int} (h : 0 ≤ n) (h' : n < 9223372036854775808) :
  wrap64 n = n
  := by
  unfold wrap64
  omega

theorem wrap64_neg {n : Int} (h : -9223372036854775808 ≤ n) (h' : n < 0) :
  wrap64 n = n
  := by
  unfold wrap64
  omega

namespace Shape

variable {shape : Shape}

theorem value_mul_zpow (decimals : Int) :
  shape.value * (10 : Rat) ^ decimals
    = Decimals.value shape.digits * (10 : Rat) ^ (decimals - shape.decimalPlaces)
  := by
  rw [value, mul_assoc, ← zpow_add₀ (by norm_num)]
  congr 2
  ring

/-- The digits of a shape and the value of its numeral. -/
theorem natCast_eq_value_mul {decimals : Int} {n : Nat}
    (hshift : 0 ≤ decimals - shape.decimalPlaces) :
  (n : Rat) = shape.value * (10 : Rat) ^ decimals
    ↔ n = Decimals.value shape.digits * 10 ^ (decimals - shape.decimalPlaces).toNat
  := by
  have hvalue : shape.value * (10 : Rat) ^ decimals
      = ((Decimals.value shape.digits * 10 ^ (decimals - shape.decimalPlaces).toNat : Nat)
          : Rat) := by
    push_cast
    rw [value_mul_zpow, ← zpow_natCast (10 : Rat) (decimals - shape.decimalPlaces).toNat,
      Int.toNat_of_nonneg hshift]
  rw [hvalue, Nat.cast_inj]

theorem fractionLength_le {value : Text} (hw : shape.IsWritten value) :
  shape.fractionLength ≤ value.length
  := by
  obtain ⟨before, plus, body, after, rfl, -, -, -, hbody⟩ := hw
  have hlength : shape.fractionLength ≤ shape.text.length := by
    cases hf : shape.fraction with
    | none => simp [fractionLength, hf]
    | some fraction =>
      simp only [fractionLength, text, mantissa, hf, Option.elim_some, Option.getD_some,
        List.length_append, List.length_cons]
      omega
  rw [← hbody, List.length_map] at hlength
  simp only [List.length_append]
  omega

/-- What becomes of an amount that is written with a shape. -/
theorem decimalStringToBaseUnits_of_isWritten {value : Text} {decimals : Int}
    (wf : shape.WellFormed) (hw : shape.IsWritten value) (units : Text) :
  decimalStringToBaseUnits value decimals = .ok units
    ↔ ∃ exponent, shape.readExponent = some exponent
        ∧ 0 ≤ wrap64 (decimals - shape.fractionLength + exponent)
        ∧ units = Decimals.numeral (Decimals.value shape.digits
            * 10 ^ (wrap64 (decimals - shape.fractionLength + exponent)).toNat)
  := by
  rw [decimalStringToBaseUnits_of_text wf ((isWritten_iff wf).mp hw)]
  simp only [shift, wrap64_shift]
  cases shape.readExponent with
  | none => simp
  | some exponent =>
    simp only [Option.some.injEq, exists_eq_left']
    split_ifs with hshift
    · simp only [hshift, true_and, Except.ok.injEq]
      apply eq_comm
    · simp [hshift]

/-- The exponent of a numeral is read when it fits into 64 bits. -/
theorem readExponent_of_isNumeral (hn : shape.IsNumeral) :
  shape.readExponent
    = if InRange64 shape.exponentNumber then some shape.exponentNumber else none
  := by
  cases he : shape.exponent with
  | none => simp [readExponent, exponentNumber, he, InRange64]
  | some exponent =>
    simp only [readExponent, exponentNumber, he, Option.map_some, Option.getD_some]
    apply tryParseInt_of_isPlain (hn.plain exponent he)

end Shape

/-- What is returned for a text that is read exactly is the amount in base units. -/
theorem ReadsExactly.sound {value : Text} {decimals : Int} (h : ReadsExactly value decimals)
    (hdecimals : decimals < 9223372036854775808) {units : Text}
    (hunits : decimalStringToBaseUnits value decimals = .ok units) :
  ∃ numeral : Shape, numeral.IsNumeral ∧ numeral.IsWritten value
    ∧ ∃ n : Nat, (n : Rat) = numeral.value * (10 : Rat) ^ decimals ∧ units = Decimals.numeral n
  := by
  obtain ⟨shape, wf, htext⟩ := exists_shape hunits
  have hw : shape.IsWritten value := (Shape.isWritten_iff wf).mpr htext
  obtain ⟨hplain, hfar⟩ := h shape wf hw
  have hn : shape.IsNumeral := ⟨wf, hplain⟩
  obtain ⟨e, hread, hnonneg, rfl⟩ :=
    (Shape.decimalStringToBaseUnits_of_isWritten wf hw units).mp hunits
  rw [Shape.readExponent_of_isNumeral hn] at hread
  split_ifs at hread with hrange
  obtain rfl := Option.some.inj hread
  have hhigh := hrange.2
  refine ⟨shape, hn, hw, _, ?_, rfl⟩
  have hplaces : decimals - shape.fractionLength + shape.exponentNumber
      = decimals - shape.decimalPlaces := by
    rw [Shape.decimalPlaces]
    ring
  by_cases hshift : 0 ≤ decimals - shape.decimalPlaces
  · rw [Shape.natCast_eq_value_mul hshift, hplaces, wrap64_eq_self hshift]
    rw [hplaces] at hnonneg
    apply (wrap64_nonneg hshift (by omega)).mp hnonneg
  · have hzero : Decimals.value shape.digits = 0 := by
      apply hfar
      by_contra hnear
      rw [wrap64_neg (not_lt.mp hnear) (by omega)] at hnonneg
      omega
    rw [Shape.value_mul_zpow, hzero]
    simp

/-! ### Round trip -/

theorem rdropWhile_append_cons {p : Nat → Bool} {c : Nat} (hc : p c = false) (t t' : Text) :
  (t ++ c :: t').rdropWhile p = t ++ c :: t'.rdropWhile p
  := by
  have hreverse : (t ++ c :: t').reverse = t'.reverse ++ c :: t.reverse := by simp
  rw [List.rdropWhile, hreverse, List.dropWhile_append, List.rdropWhile]
  split_ifs with hempty
  · rw [List.isEmpty_iff] at hempty
    simp [hempty, hc]
  · simp

/-- The zeros at the end of a fraction go, and with all of its digits the point. -/
theorem swapTrimDecimal_append {whole fraction : Text}
    (htrim : trim (whole ++ 46 :: fraction) = whole ++ 46 :: fraction)
    (hfraction : Decimals.IsDigits fraction) :
  swapTrimDecimal (whole ++ 46 :: fraction)
    = if fraction.rdropWhile (· = 48) = [] then whole
      else whole ++ 46 :: fraction.rdropWhile (· = 48)
  := by
  unfold swapTrimDecimal
  simp only
  rw [htrim, if_neg (by simp), rdropWhile_append_cons (by decide)]
  split_ifs with hlast hnil hnil
  · simp [hnil]
  · rw [List.getLast?_append, List.getLast?_cons, List.getLast?_eq_some_getLast hnil,
      Option.getD_some, Option.some_or, Option.some_inj] at hlast
    have hmem : 46 ∈ fraction := by
      rw [← hlast]
      apply (List.rdropWhile_prefix _ _).subset (List.getLast_mem hnil)
    exact absurd rfl (Shape.ne_of_isDigit (hfraction 46 hmem)).1
  · simp [hnil] at hlast
  · rfl

section

variable {value : Text} {decimals : Nat} {shape : Shape}

/-- Where the exponent allows it, every numeral with few enough places is accepted. -/
theorem ExponentAllows.complete (hlength : value.length < 9223372036854775808)
    (hdecimals : decimals < 9223372036854775808) (h : ExponentAllows value decimals)
    (hn : shape.IsNumeral) (hw : shape.IsWritten value)
    (hplaces : shape.decimalPlaces ≤ decimals) :
  ∃ units, decimalStringToBaseUnits value decimals = .ok units
  := by
  have hf : shape.fractionLength < 9223372036854775808 :=
    lt_of_le_of_lt (Shape.fractionLength_le hw) hlength
  have hshift : 0 ≤ (decimals : Int) - shape.fractionLength + shape.exponentNumber := by
    rw [Shape.decimalPlaces] at hplaces
    omega
  have hsmall : shape.exponentNumber < 9223372036854775808
      ∧ (decimals : Int) - shape.fractionLength + shape.exponentNumber < 9223372036854775808 := by
    cases he : shape.exponent with
    | none =>
      simp only [Shape.exponentNumber, he, Option.map_none, Option.getD_none]
      omega
    | some exponent =>
      have hnumber : shape.exponentNumber = exponentValue exponent := by
        simp [Shape.exponentNumber, he]
      rw [hnumber] at hshift ⊢
      apply ((h shape hn.toWellFormed hw exponent he).1 (hn.plain exponent he)).1 hshift
  refine ⟨_, (Shape.decimalStringToBaseUnits_of_isWritten hn.toWellFormed hw _).mpr
    ⟨shape.exponentNumber, ?_, ?_, rfl⟩⟩
  · rw [Shape.readExponent_of_isNumeral hn, if_pos ⟨by omega, hsmall.1⟩]
  · rw [wrap64_nonneg hshift (by omega)]
    apply hsmall.2

example : decimalStringToBaseUnits [49, 101, 48, 120, 50] 0 = .ok [49, 48, 48] := by decide +kernel

end

end Swap

end Vizor
