import Vizor.Swap.ExactAmounts

/-!
# Amounts without zeros at the end

An amount is shown without the zeros at the end of its text.  The value stays the same when the
zeros are those of a fraction, which must not be all that there is of the amount.  After an
exponent the zeros at the end are not those of the fraction.
-/

namespace Vizor

open AddressBook (Text text trim isWhitespace lowerAscii)

namespace Swap

/-- An amount with a point keeps its value when the zeros at the end of its text go: they are
those of its fraction, and some digit stays. -/
def KeepsWhenTrimmed (value : Text) : Prop :=
  ∀ shape : Shape, shape.WellFormed → shape.IsWritten value → shape.fraction ≠ none →
    (shape.exponent = none → shape.whole ≠ [] ∨ Decimals.value shape.digits ≠ 0)
      ∧ ∀ exponent ∈ shape.exponent, exponent.getLast? ≠ some 48

variable {shape : Shape} {value : Text}

theorem lowerAscii_eq_of_le {c d : Nat} (h : lowerAscii c = d) (hd : d ≤ 57) :
  c = d
  := by
  unfold lowerAscii at h
  split_ifs at h <;> omega

/-- Digits, points and signs are not changed by putting letters in lower case. -/
theorem eq_of_map_lowerAscii {t t' : Text} (h : t.map lowerAscii = t') (ht' : ∀ c ∈ t', c ≤ 57) :
  t = t'
  := by
  subst h
  conv_lhs => rw [← List.map_id t]
  apply List.map_congr_left
  intro c hc
  apply lowerAscii_eq_of_le rfl (ht' _ (List.mem_map_of_mem hc))

theorem point_mem_iff {t : Text} :
  46 ∈ t.map lowerAscii ↔ 46 ∈ t
  := by
  rw [List.mem_map]
  constructor
  · rintro ⟨c, hc, heq⟩
    apply lowerAscii_eq_of_le heq (by decide) ▸ hc
  · intro h
    exact ⟨46, h, by decide⟩

theorem swapTrimDecimal_trim (value : Text) :
  swapTrimDecimal (trim value) = swapTrimDecimal value
  := by
  simp only [swapTrimDecimal, AddressBook.trim_trim]

namespace Shape

theorem le_of_mem_mantissa (wf : shape.WellFormed) {c : Nat} (hc : c ∈ shape.mantissa) :
  c ≤ 57
  := by
  rcases mem_mantissa wf hc with hdigit | rfl
  · apply (Decimals.isDigit_iff.mp hdigit).2
  · decide

/-- A numeral has a point when it has a fraction. -/
theorem point_mem_text_iff (hn : shape.IsNumeral) :
  46 ∈ shape.text ↔ shape.fraction ≠ none
  := by
  have hwhole : 46 ∉ shape.whole := fun hmem => (ne_of_isDigit (hn.whole 46 hmem)).1 rfl
  have hexponent : 46 ∉ shape.exponent.elim [] (101 :: ·) := by
    cases he : shape.exponent with
    | none => simp
    | some exponent =>
      have hdigits := (hn.plain exponent he).2
      have hnot : 46 ∉ (splitSign exponent).2 := fun hmem => (ne_of_isDigit (hdigits 46 hmem)).1 rfl
      unfold splitSign at hnot
      simp only [Option.elim_some]
      split at hnot <;> simpa using hnot
  rw [text, mantissa, List.mem_append, List.mem_append]
  cases hf : shape.fraction with
  | none => simp [hwhole, hexponent]
  | some fraction => simp

end Shape

/-- An amount in a text without white space around it. -/
theorem Shape.isWritten_of_body {plus body : Text} (hplus : plus = [] ∨ plus = [43])
    (hbody : body.map lowerAscii = shape.text) :
  shape.IsWritten (plus ++ body)
  := ⟨[], plus, body, [], by simp, by simp, by simp, hplus, hbody⟩

/-- The value of a numeral does not change when zeros at the end of its fraction go. -/
theorem value_eq_of_zeros {whole fraction kept : Text} {zeros : Nat} {fraction' : Option Text}
    (hfraction' : fraction'.getD [] = kept) (h : kept ++ List.replicate zeros 48 = fraction) :
  (Shape.mk whole fraction' none).value = (Shape.mk whole (some fraction) none).value
  := by
  have hdigits : whole ++ fraction = (whole ++ kept) ++ List.replicate zeros 48 := by
    rw [List.append_assoc, h]
  have hlength : fraction.length = kept.length + zeros := by
    rw [← h, List.length_append, List.length_replicate]
  simp only [Shape.value, Shape.digits, Shape.decimalPlaces, Shape.fractionLength,
    Shape.exponentNumber, hfraction', Option.getD_some, Option.map_none, Option.getD_none, sub_zero]
  rw [hdigits, Decimals.value_append_zeros, hlength]
  push_cast
  rw [mul_assoc, ← zpow_natCast (10 : Rat) zeros, ← zpow_add₀ (by norm_num)]
  congr 2
  ring

/-- A plain exponent ends with a digit. -/
theorem exists_last_of_isPlain {exponent : Text} (h : IsPlain exponent) :
  ∃ c, exponent.getLast? = some c ∧ Decimals.isDigit c
  := by
  obtain ⟨hne, hdigits⟩ := h
  have hlast : exponent.getLast? = (splitSign exponent).2.getLast? := by
    unfold splitSign at hne ⊢
    split at hne
    · rename_i rest
      rw [List.getLast?_cons, List.getLast?_eq_some_getLast hne]
      rfl
    · rename_i rest
      rw [List.getLast?_cons, List.getLast?_eq_some_getLast hne]
      rfl
    · rfl
  refine ⟨(splitSign exponent).2.getLast hne, ?_, hdigits _ (List.getLast_mem hne)⟩
  rw [hlast, List.getLast?_eq_some_getLast hne]

/-- A text with a point that does not end with a zero or the point is shown as it is. -/
theorem swapTrimDecimal_of_last {t : Text} {c : Nat} (htrim : trim t = t)
    (hlast : t.getLast? = some c) (hzero : c ≠ 48) (hpoint : c ≠ 46) :
  swapTrimDecimal t = t
  := by
  have hkept : t.rdropWhile (· = 48) = t := by
    rw [List.rdropWhile_eq_self_iff]
    intro hne
    rw [List.getLast?_eq_some_getLast hne, Option.some_inj] at hlast
    simpa [hlast] using hzero
  simp only [swapTrimDecimal, htrim, hkept, hlast, Option.some_inj, hpoint, if_false, ite_self]

/-- The text that is shown for a numeral without an exponent denotes the same number. -/
theorem exists_isWritten_of_fraction {plus whole fraction : Text}
    (hn : Shape.IsNumeral ⟨whole, some fraction, none⟩) (hplus : plus = [] ∨ plus = [43])
    (htrim : trim ((plus ++ whole) ++ 46 :: fraction) = (plus ++ whole) ++ 46 :: fraction)
    (hkeeps : whole ≠ [] ∨ Decimals.value (whole ++ fraction) ≠ 0) :
  ∃ shown : Shape, shown.IsNumeral
    ∧ shown.IsWritten (swapTrimDecimal ((plus ++ whole) ++ 46 :: fraction))
    ∧ shown.value = (Shape.mk whole (some fraction) none).value
  := by
  have hwhole : Decimals.IsDigits whole := hn.whole
  have hfraction : Decimals.IsDigits fraction := hn.fraction rfl
  have hzeros := Decimals.rdropWhile_append_zeros fraction
  have hkept : Decimals.IsDigits (fraction.rdropWhile (· = 48)) :=
    fun c hc => hfraction c ((List.rdropWhile_prefix _ _).subset hc)
  have hlower (t : Text) (ht : ∀ c ∈ t, c ≤ 57) : t.map lowerAscii = t := by
    conv_rhs => rw [← List.map_id t]
    apply List.map_congr_left
    intro c hc
    have hle := ht c hc
    rw [lowerAscii, if_neg (by omega)]
    rfl
  rw [swapTrimDecimal_append htrim hfraction]
  split_ifs with hnil
  · have hne : whole ≠ [] := by
      rcases hkeeps with hne | hvalue
      · apply hne
      · rintro rfl
        rw [hnil, List.nil_append] at hzeros
        apply hvalue
        rw [← hzeros, List.nil_append, ← List.append_nil (List.replicate _ 48),
          Decimals.value_zeros_append]
        rfl
    have hwf : Shape.WellFormed ⟨whole, none, none⟩ :=
      ⟨by simpa [Shape.digits] using hwhole, by simpa [Shape.digits] using hne, by simp, by simp⟩
    refine ⟨⟨whole, none, none⟩, ⟨hwf, by simp⟩, ?_, value_eq_of_zeros hnil.symm hzeros⟩
    apply Shape.isWritten_of_body hplus
    simp only [Shape.text, Shape.mantissa, Option.elim_none, List.append_nil]
    apply hlower whole fun c hc => (Decimals.isDigit_iff.mp (hwhole c hc)).2
  · have hwf : Shape.WellFormed ⟨whole, some (fraction.rdropWhile (· = 48)), none⟩ := by
      refine ⟨?_, by simp [Shape.digits, hnil], by simp, by simp⟩
      intro c hc
      rcases List.mem_append.mp hc with hc | hc
      · apply hwhole c hc
      · apply hkept c hc
    refine ⟨⟨whole, some (fraction.rdropWhile (· = 48)), none⟩, ⟨hwf, by simp⟩, ?_,
      value_eq_of_zeros rfl hzeros⟩
    rw [List.append_assoc]
    apply Shape.isWritten_of_body hplus
    simp only [Shape.text, Shape.mantissa, Option.elim_none, Option.elim_some, List.append_nil]
    apply hlower _ fun c hc => Shape.le_of_mem_mantissa hwf hc

/-- The text that is shown for a numeral denotes the same number. -/
theorem exists_isWritten_swapTrimDecimal (hn : shape.IsNumeral) (hw : shape.IsWritten value)
    (hk : KeepsWhenTrimmed value) :
  ∃ shown : Shape, shown.IsNumeral ∧ shown.IsWritten (swapTrimDecimal value)
    ∧ shown.value = shape.value
  := by
  obtain ⟨plus, body, htrim, hplus, hbody⟩ :=
    exists_body ((Shape.isWritten_iff hn.toWellFormed).mp hw)
  have htrim' : trim (plus ++ body) = plus ++ body := by
    rw [← htrim, AddressBook.trim_trim]
  have hpoint : 46 ∈ plus ++ body ↔ shape.fraction ≠ none := by
    rw [← Shape.point_mem_text_iff hn, ← hbody, point_mem_iff, List.mem_append]
    rcases hplus with rfl | rfl <;> simp
  rw [← swapTrimDecimal_trim, htrim]
  obtain ⟨whole, fraction, exponent⟩ := shape
  cases fraction with
  | none =>
    have hnone : 46 ∉ plus ++ body := by
      rw [hpoint]
      simp
    refine ⟨⟨whole, none, exponent⟩, hn, ?_, rfl⟩
    simp only [swapTrimDecimal, htrim', if_pos hnone]
    apply Shape.isWritten_of_body hplus hbody
  | some fraction =>
    obtain ⟨hkeeps, hlast⟩ := hk _ hn.toWellFormed hw (by simp)
    cases exponent with
    | none =>
      have htext : body = whole ++ 46 :: fraction := by
        apply eq_of_map_lowerAscii
        · simpa [Shape.text, Shape.mantissa] using hbody
        · intro c hc
          apply Shape.le_of_mem_mantissa hn.toWellFormed hc
      subst htext
      rw [← List.append_assoc] at htrim' ⊢
      apply exists_isWritten_of_fraction hn hplus htrim' (hkeeps rfl)
    | some exponent =>
      obtain ⟨c, hc, hdigit⟩ := exists_last_of_isPlain (hn.plain exponent rfl)
      have hbodyLast : body.getLast? = some c := by
        have hmap : (body.map lowerAscii).getLast? = some c := by
          rw [hbody]
          simp only [Shape.text, Option.elim_some, List.getLast?_append, List.getLast?_cons, hc]
          rfl
        rw [List.getLast?_map, Option.map_eq_some_iff] at hmap
        obtain ⟨d, hd, heq⟩ := hmap
        rw [hd, lowerAscii_eq_of_le heq (Decimals.isDigit_iff.mp hdigit).2]
      have htextLast : (plus ++ body).getLast? = some c := by
        rw [List.getLast?_append, hbodyLast]
        rfl
      refine ⟨⟨whole, some fraction, some exponent⟩, hn, ?_, rfl⟩
      rw [swapTrimDecimal_of_last htrim' htextLast _ (Shape.ne_of_isDigit hdigit).1]
      · apply Shape.isWritten_of_body hplus hbody
      · rintro rfl
        apply hlast exponent rfl hc

end Swap

end Vizor
