import Mathlib.Data.Nat.Digits.Lemmas
import Mathlib.Data.List.TakeWhile
import Mathlib.Tactic.Common

/-!
# Digits

A list of digits, the most significant first, has a value in a base.  A list and its value
determine each other when the leading zeros are counted, and when the width of the list is
fixed.  Digits of one base are regrouped as digits of another: a list with its leading zeros
as a whole, and a list of bits in groups of a fixed width.
-/

namespace Radix

variable {b c k n : Nat} {ds : List Nat} {α β : Type*}

/-- The value of digits in base `b`. -/
def value (b : Nat) (ds : List Nat) : Nat :=
  Nat.ofDigits b ds.reverse

/-- The digits of a number in base `b`, without leading zeros. -/
def digits (b n : Nat) : List Nat :=
  (Nat.digits b n).reverse

/-- The number of leading zeros. -/
def leadingZeros (ds : List Nat) : Nat :=
  (ds.takeWhile (· = 0)).length

/-! ### Value -/

@[simp]
theorem value_nil : value b [] = 0
  := rfl

theorem value_append {es : List Nat} :
  value b (ds ++ es) = value b es + b ^ es.length * value b ds
  := by
  rw [value, List.reverse_append, Nat.ofDigits_append, List.length_reverse]
  rfl

theorem value_cons {d : Nat} :
  value b (d :: ds) = value b ds + b ^ ds.length * d
  := by
  rw [← List.singleton_append, value_append]
  simp [value, Nat.ofDigits_singleton]

theorem value_lt (hb : 1 < b) (h : ∀ d ∈ ds, d < b) :
  value b ds < b ^ ds.length
  := by
  rw [← List.length_reverse]
  apply Nat.ofDigits_lt_base_pow_length hb
  intro d hd
  apply h d (List.mem_reverse.mp hd)

@[simp]
theorem value_replicate_zero : value b (List.replicate n 0) = 0
  := by
  induction n with
  | zero => rfl
  | succ n ih => rw [List.replicate_succ, value_cons, ih, mul_zero, add_zero]

theorem value_digits : value b (digits b n) = n
  := by
  rw [value, digits, List.reverse_reverse, Nat.ofDigits_digits]

theorem digits_lt (hb : 1 < b) {d : Nat} (h : d ∈ digits b n) : d < b
  := by
  apply Nat.digits_lt_base hb
  apply List.mem_reverse.mp h

/-! ### Leading zeros -/

theorem replicate_leadingZeros_append (ds : List Nat) :
  List.replicate (leadingZeros ds) 0 ++ ds.dropWhile (· = 0) = ds
  := by
  have hzeros : ds.takeWhile (· = 0) = List.replicate (leadingZeros ds) 0 := by
    apply List.eq_replicate_of_mem
    intro d hd
    simpa using List.mem_takeWhile_imp hd
  rw [← hzeros, List.takeWhile_append_dropWhile]

/-- Digits that do not start with zero are those of their value. -/
theorem digits_value (hb : 1 < b) (h : ∀ d ∈ ds, d < b) (hhead : ∀ hne : ds ≠ [], ds.head hne ≠ 0) :
  digits b (value b ds) = ds
  := by
  rw [digits, value, Nat.digits_ofDigits b hb, List.reverse_reverse]
  · intro d hd
    apply h d (List.mem_reverse.mp hd)
  · intro hne
    rw [List.getLast_reverse]
    apply hhead

theorem value_dropWhile : value b (ds.dropWhile (· = 0)) = value b ds
  := by
  conv_rhs => rw [← replicate_leadingZeros_append ds, value_append]
  rw [value_replicate_zero, mul_zero, add_zero]

/-- Digits are determined by their leading zeros and their value. -/
theorem replicate_append_digits_value (hb : 1 < b) (h : ∀ d ∈ ds, d < b) :
  List.replicate (leadingZeros ds) 0 ++ digits b (value b ds) = ds
  := by
  rw [← value_dropWhile, digits_value hb, replicate_leadingZeros_append]
  · intro d hd
    apply h d ((List.dropWhile_sublist _).subset hd)
  · intro hne
    have hhead := List.head_dropWhile_not (fun d => decide (d = 0)) hne
    simpa using hhead

/-- The digits of a number do not start with zero. -/
theorem head_digits_ne_zero (hne : digits b n ≠ []) : (digits b n).head hne ≠ 0
  := by
  have hne' : Nat.digits b n ≠ [] := by simpa [digits] using hne
  have hn : n ≠ 0 := by
    rintro rfl
    simp at hne'
  have hlast := Nat.getLast_digit_ne_zero b hn
  simpa [digits, List.head_reverse] using hlast

theorem leadingZeros_replicate_append_digits :
  leadingZeros (List.replicate k 0 ++ digits b n) = k
  := by
  rw [leadingZeros, List.takeWhile_append_of_pos]
  · have hnone : (digits b n).takeWhile (· = 0) = [] := by
      cases hds : digits b n with
      | nil => rfl
      | cons d ds =>
        have hhead := head_digits_ne_zero (b := b) (n := n) (by rw [hds]; nofun)
        simp only [hds, List.head_cons] at hhead
        simp [hhead]
    rw [hnone]
    simp
  · intro d hd
    simp [List.eq_of_mem_replicate hd]

/-! ### Conversion with leading zeros -/

/-- Digits of base `b` as digits of base `c`, with as many leading zeros. -/
def convert (b c : Nat) (ds : List Nat) : List Nat :=
  List.replicate (leadingZeros ds) 0 ++ digits c (value b ds)

theorem convert_lt (hc : 1 < c) {d : Nat} (h : d ∈ convert b c ds) : d < c
  := by
  rcases List.mem_append.mp h with h | h
  · rw [List.eq_of_mem_replicate h]
    omega
  · apply digits_lt hc h

theorem value_convert : value c (convert b c ds) = value b ds
  := by
  rw [convert, value_append, value_digits, value_replicate_zero, mul_zero, add_zero]

/-- A conversion is undone by the conversion back. -/
theorem convert_convert (hb : 1 < b) (h : ∀ d ∈ ds, d < b) :
  convert c b (convert b c ds) = ds
  := by
  rw [convert, value_convert, convert, leadingZeros_replicate_append_digits,
    replicate_append_digits_value hb h]

/-! ### Digits of a fixed width -/

/-- The last `k` digits of a number in base `b`. -/
def fixed (b : Nat) : Nat → Nat → List Nat
  | 0, _ => []
  | k + 1, n => fixed b k (n / b) ++ [n % b]

@[simp]
theorem length_fixed : (fixed b k n).length = k
  := by
  induction k generalizing n with
  | zero => rfl
  | succ k ih => rw [fixed, List.length_append, ih, List.length_singleton]

theorem fixed_lt (hb : 0 < b) {d : Nat} (h : d ∈ fixed b k n) : d < b
  := by
  induction k generalizing n with
  | zero => cases h
  | succ k ih =>
    rcases List.mem_append.mp h with h | h
    · apply ih h
    · rw [List.mem_singleton.mp h]
      apply Nat.mod_lt _ hb

theorem value_fixed (h : n < b ^ k) : value b (fixed b k n) = n
  := by
  induction k generalizing n with
  | zero =>
    rw [pow_zero, Nat.lt_one_iff] at h
    rw [h]
    rfl
  | succ k ih =>
    have hdiv : n / b < b ^ k := by
      rw [pow_succ] at h
      apply Nat.div_lt_of_lt_mul (by rwa [mul_comm] at h)
    rw [fixed, value_append, ih hdiv]
    simp only [value, List.reverse_singleton, Nat.ofDigits_singleton, List.length_singleton,
      pow_one]
    apply Nat.mod_add_div n b

/-- Digits of a width are those of their value. -/
theorem fixed_value (h : ∀ d ∈ ds, d < b) (hlength : ds.length = k) :
  fixed b k (value b ds) = ds
  := by
  induction k generalizing ds with
  | zero =>
    rw [List.length_eq_zero_iff] at hlength
    rw [hlength]
    rfl
  | succ k ih =>
    obtain ⟨init, last, rfl⟩ : ∃ init last, ds = init ++ [last] := by
      refine ⟨ds.dropLast, ds.getLast ?_, (List.dropLast_concat_getLast _).symm⟩
      rintro rfl
      cases hlength
    have hlast : last < b := h last (by simp)
    have hvalue : value b (init ++ [last]) = last + b * value b init := by
      rw [value_append]
      simp [value, Nat.ofDigits_singleton]
    rw [fixed, hvalue, Nat.add_mul_div_left _ _ (by omega), Nat.div_eq_of_lt hlast, zero_add,
      Nat.add_mul_mod_self_left, Nat.mod_eq_of_lt hlast, ih]
    · intro d hd
      apply h d (List.mem_append_left _ hd)
    · simpa using hlength

/-! ### Groups -/

/-- The first `n` groups of `k` elements of a list. -/
def groups (k : Nat) : Nat → List α → List (List α)
  | 0, _ => []
  | n + 1, l => l.take k :: groups k n (l.drop k)

@[simp]
theorem length_groups {l : List α} : (groups k n l).length = n
  := by
  induction n generalizing l with
  | zero => rfl
  | succ n ih => rw [groups, List.length_cons, ih]

/-- The groups of a list of groups, with more after it. -/
theorem groups_flatMap_append {f : β → List α} (hf : ∀ x, (f x).length = k) {xs : List β}
    {more : List α} :
  groups k xs.length (xs.flatMap f ++ more) = xs.map f
  := by
  induction xs with
  | nil => rfl
  | cons x xs ih =>
    rw [List.length_cons, groups, List.flatMap_cons, List.append_assoc,
      List.take_left' (hf x), List.drop_left' (hf x), ih, List.map_cons]

/-- The groups of a list, put together. -/
theorem flatten_groups {l : List α} : (groups k n l).flatten = l.take (k * n)
  := by
  induction n generalizing l with
  | zero => simp [groups]
  | succ n ih =>
    rw [groups, List.flatten_cons, ih, mul_add_one, add_comm, List.take_add]

/-- Every group is full when the list is long enough. -/
theorem length_of_mem_groups {l g : List α} (h : k * n ≤ l.length) (hg : g ∈ groups k n l) :
  g.length = k
  := by
  induction n generalizing l with
  | zero => cases hg
  | succ n ih =>
    rw [mul_add_one] at h
    rcases List.mem_cons.mp hg with rfl | hg
    · rw [List.length_take]
      omega
    · apply ih _ hg
      rw [List.length_drop]
      omega

theorem subset_of_mem_groups {l g : List α} (hg : g ∈ groups k n l) : g ⊆ l
  := by
  induction n generalizing l with
  | zero => cases hg
  | succ n ih =>
    rcases List.mem_cons.mp hg with rfl | hg
    · apply List.take_subset _ _
    · apply List.Subset.trans (ih hg) (List.drop_subset _ _)

/-! ### Little-endian bytes -/

/-- The lowest `k` bytes of a number, the lowest first. -/
def leBytes (k n : Nat) : List UInt8 :=
  (fixed 256 k n).reverse.map UInt8.ofNat

/-- The number with the given bytes, the lowest first. -/
def ofLeBytes (bytes : List UInt8) : Nat :=
  value 256 (bytes.map UInt8.toNat).reverse

@[simp]
theorem length_leBytes : (leBytes k n).length = k
  := by
  rw [leBytes, List.length_map, List.length_reverse, length_fixed]

theorem ofLeBytes_leBytes (h : n < 256 ^ k) : ofLeBytes (leBytes k n) = n
  := by
  have hbytes : (leBytes k n).map UInt8.toNat = (fixed 256 k n).reverse := by
    rw [leBytes, List.map_map]
    conv_rhs => rw [← List.map_id (fixed 256 k n).reverse]
    apply List.map_congr_left
    intro d hd
    have hlt : d < 256 := fixed_lt (by omega) (List.mem_reverse.mp hd)
    rw [Function.comp_apply, UInt8.toNat_ofNat', Nat.mod_eq_of_lt hlt, id]
  rw [ofLeBytes, hbytes, List.reverse_reverse, value_fixed h]

theorem leBytes_ofLeBytes {bytes : List UInt8} (h : bytes.length = k) :
  leBytes k (ofLeBytes bytes) = bytes
  := by
  have hdigits : ∀ d ∈ (bytes.map UInt8.toNat).reverse, d < 256 := by
    intro d hd
    obtain ⟨byte, -, rfl⟩ := List.mem_map.mp (List.mem_reverse.mp hd)
    apply UInt8.toNat_lt
  rw [leBytes, ofLeBytes, fixed_value hdigits (by simpa using h), List.reverse_reverse,
    List.map_map]
  apply List.map_id''
  intro byte
  apply UInt8.ofNat_toNat

theorem ofLeBytes_lt {bytes : List UInt8} (h : bytes.length = k) : ofLeBytes bytes < 256 ^ k
  := by
  have hlt : ofLeBytes bytes < 256 ^ ((bytes.map UInt8.toNat).reverse).length := by
    apply value_lt (by omega)
    intro d hd
    obtain ⟨byte, -, rfl⟩ := List.mem_map.mp (List.mem_reverse.mp hd)
    apply UInt8.toNat_lt
  simpa [h] using hlt

end Radix
