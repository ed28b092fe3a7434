import Mathlib.Data.List.DropRight
import Vizor.Lib.Radix

/-!
# Decimal numerals as texts

A text is a list of code units.  Digits have a value, and each number has one numeral without
needless zeros at its head, which is what is left of any digits with that value when the needless
zeros are taken away.
-/

namespace Decimals

/-! ### Digits -/

def isDigit (c : Nat) : Bool :=
  48 ≤ c && c ≤ 57

/-- The value of digits. -/
def value (t : List Nat) : Nat :=
  Radix.value 10 (t.map (· - 48))

/-- The numeral of a number. -/
def numeral (n : Nat) : List Nat :=
  if n = 0 then [48] else (Radix.digits 10 n).map (48 + ·)

/-- Take away the zeros at the head that a digit follows. -/
def stripLeadingZeros : List Nat → List Nat
  | 48 :: c :: rest => if isDigit c then stripLeadingZeros (c :: rest) else 48 :: c :: rest
  | t => t

def IsDigits (t : List Nat) : Prop :=
  ∀ c ∈ t, isDigit c

instance : DecidablePred IsDigits :=
  fun t => inferInstanceAs (Decidable (∀ c ∈ t, isDigit c))

variable {t : List Nat} {c n k : Nat}

theorem isDigit_iff : isDigit c ↔ 48 ≤ c ∧ c ≤ 57
  := by
  simp [isDigit]

theorem IsDigits.lt (h : IsDigits t) :
  ∀ d ∈ t.map (· - 48), d < 10
  := by
  intro d hd
  obtain ⟨c, hc, rfl⟩ := List.mem_map.mp hd
  have hdigit := isDigit_iff.mp (h c hc)
  omega

/-! ### Values -/

theorem value_append (t t' : List Nat) :
  value (t ++ t') = value t * 10 ^ t'.length + value t'
  := by
  simp [value, Radix.value_append, Nat.mul_comm, Nat.add_comm]

theorem value_append_zeros (t : List Nat) (k : Nat) :
  value (t ++ List.replicate k 48) = value t * 10 ^ k
  := by
  simp [value, Radix.value_append, Nat.mul_comm]

theorem value_zeros_append (k : Nat) (t : List Nat) :
  value (List.replicate k 48 ++ t) = value t
  := by
  simp [value, Radix.value_append]

theorem value_numeral (n : Nat) :
  value (numeral n) = n
  := by
  unfold numeral value
  split_ifs with hn
  · subst hn
    rfl
  · rw [List.map_map]
    have hid : ((· - 48) ∘ (48 + ·) : Nat → Nat) = id := by
      funext d
      simp
    rw [hid, List.map_id, Radix.value_digits]

/-! ### Numerals -/

theorem numeral_ne_nil (n : Nat) :
  numeral n ≠ []
  := by
  intro h
  have hvalue := value_numeral n
  rw [h] at hvalue
  obtain rfl : n = 0 := hvalue.symm
  simp [numeral] at h

theorem isDigits_numeral (n : Nat) :
  IsDigits (numeral n)
  := by
  intro c hc
  unfold numeral at hc
  rw [isDigit_iff]
  split_ifs at hc
  · rw [List.mem_singleton] at hc
    omega
  · obtain ⟨d, hd, rfl⟩ := List.mem_map.mp hc
    have hlt := Radix.digits_lt (by decide) hd
    omega

/-- Digits that do not start with a zero are the numeral of their value. -/
theorem numeral_value (ht : IsDigits t) (hne : t ≠ []) (hhead : t.head hne ≠ 48) :
  numeral (value t) = t
  := by
  have hdigits : Radix.digits 10 (value t) = t.map (· - 48) := by
    apply Radix.digits_value (by decide) ht.lt
    intro hne'
    rw [List.head_map]
    have hdigit := isDigit_iff.mp (ht _ (List.head_mem hne))
    omega
  have hpos : value t ≠ 0 := by
    intro hzero
    rw [hzero] at hdigits
    apply hne (List.map_eq_nil_iff.mp hdigits.symm)
  rw [numeral, if_neg hpos, hdigits, List.map_map]
  conv_rhs => rw [← List.map_id t]
  apply List.map_congr_left
  intro c hc
  have hdigit := isDigit_iff.mp (ht c hc)
  simp only [Function.comp_apply, id_eq]
  omega

theorem stripLeadingZeros_of_ne {rest : List Nat} (h : c ≠ 48) :
  stripLeadingZeros (c :: rest) = c :: rest
  := by
  unfold stripLeadingZeros
  split
  · rename_i heq
    exact absurd (List.cons.inj heq).1 h
  · rfl

/-- What is left of digits without the needless zeros is the numeral of their value. -/
theorem stripLeadingZeros_eq (ht : IsDigits t) (hne : t ≠ []) :
  stripLeadingZeros t = numeral (value t)
  := by
  induction t with
  | nil => exact absurd rfl hne
  | cons c rest ih =>
    by_cases hc : c = 48
    · subst hc
      cases rest with
      | nil => decide
      | cons d rest =>
        have hd : isDigit d := ht d (by simp)
        rw [stripLeadingZeros, if_pos hd, ih (fun x hx => ht x (List.mem_cons_of_mem _ hx)) (by simp)]
        congr 1
        apply (value_zeros_append 1 (d :: rest)).symm
    · rw [stripLeadingZeros_of_ne hc, numeral_value ht hne hc]

/-- A number with few digits has a short numeral. -/
theorem length_numeral_le (hk : 0 < k) (h : n < 10 ^ k) :
  (numeral n).length ≤ k
  := by
  unfold numeral
  split_ifs with hn
  · apply hk
  · rw [List.length_map, Radix.digits, List.length_reverse]
    apply (Nat.digits_length_le_iff (by decide) n).mpr h

/-! ### Zeros at the end -/

theorem rdropWhile_append_rtakeWhile (p : Nat → Bool) (t : List Nat) :
  t.rdropWhile p ++ t.rtakeWhile p = t
  := by
  rw [List.rdropWhile, List.rtakeWhile, ← List.reverse_append, List.takeWhile_append_dropWhile,
    List.reverse_reverse]

/-- A fraction is what is left of it and some zeros. -/
theorem rdropWhile_append_zeros (fraction : List Nat) :
  fraction.rdropWhile (· = 48) ++ List.replicate (fraction.rtakeWhile (· = 48)).length 48 = fraction
  := by
  have hzeros : fraction.rtakeWhile (· = 48)
      = List.replicate (fraction.rtakeWhile (· = 48)).length 48 := by
    apply List.eq_replicate_of_mem
    intro c hc
    simpa using List.mem_rtakeWhile_imp hc
  rw [← hzeros, rdropWhile_append_rtakeWhile]

end Decimals
