import Mathlib.Data.List.Basic
import Mathlib.Tactic.IntervalCases

/-!
# Base 64 for addresses

Three bytes are written as four digits of six bits, and what is left over at the end as two or
three digits, filled up with padding.  Texts are lists of code units.
-/

namespace Base64

/-! ### Digits -/

/-- The sign that fills up the last group. -/
def padding : Nat := 61

def digit (n : Nat) : Nat :=
  if n < 26 then n + 65 else if n < 52 then n + 71 else if n < 62 then n - 4
  else if n = 62 then 45 else 95

/-- The value of a digit; those of the other alphabet are read as well. -/
def digitValue (c : Nat) : Option Nat :=
  if 65 ≤ c ∧ c ≤ 90 then some (c - 65)
  else if 97 ≤ c ∧ c ≤ 122 then some (c - 71)
  else if 48 ≤ c ∧ c ≤ 57 then some (c + 4)
  else if c = 45 ∨ c = 43 then some 62
  else if c = 95 ∨ c = 47 then some 63
  else none

/-- The digits and signs of the alphabet. -/
def IsDigit (c : Nat) : Prop :=
  65 ≤ c ∧ c ≤ 90 ∨ 97 ≤ c ∧ c ≤ 122 ∨ 48 ≤ c ∧ c ≤ 57 ∨ c = 95 ∨ c = 45

instance : DecidablePred IsDigit :=
  fun _ => inferInstanceAs (Decidable (_ ∨ _))

theorem digitValue_digit {n : Nat} (h : n < 64) :
  digitValue (digit n) = some n
  := by
  unfold digit
  split_ifs with h26 h52 h62 heq <;> unfold digitValue
  · rw [if_pos (by omega)]
    congr 1
  · rw [if_neg (by omega), if_pos (by omega)]
    congr 1
  · rw [if_neg (by omega), if_neg (by omega), if_pos (by omega), Nat.sub_add_cancel (by omega)]
  · subst heq
    rfl
  · obtain rfl : n = 63 := by omega
    rfl

theorem isDigit_digit {n : Nat} (h : n < 64) :
  IsDigit (digit n)
  := by
  unfold digit IsDigit
  split_ifs <;> omega

theorem ne_padding_of_isDigit {c : Nat} (h : IsDigit c) :
  c ≠ padding
  := by
  unfold IsDigit at h
  unfold padding
  omega

/-! ### Encoding -/

/-- The first digits of the bits of three bytes. -/
def digits (count a b c : Nat) : List Nat :=
  let bits := a * 65536 + b * 256 + c
  ([bits / 262144, bits / 4096 % 64, bits / 64 % 64, bits % 64].take count).map digit

/-- The digits of bytes, without padding. -/
def encodeUnpadded : List UInt8 → List Nat
  | a :: b :: c :: rest => digits 4 a.toNat b.toNat c.toNat ++ encodeUnpadded rest
  | [a, b] => digits 3 a.toNat b.toNat 0
  | [a] => digits 2 a.toNat 0 0
  | [] => []

/-- The digits of bytes, with padding. -/
def encode (bytes : List UInt8) : List Nat :=
  encodeUnpadded bytes ++ List.replicate ((3 - bytes.length % 3) % 3) padding

/-! ### Decoding -/

/-- The bits of four digits. -/
def bits (w x y z : Nat) : Option Nat := do
  return (← digitValue w) * 262144 + (← digitValue x) * 4096 + (← digitValue y) * 64
    + (← digitValue z)

/-- The bytes of groups of four signs; only the last group may have padding, and before it the
bits that are left over are zero. -/
def decode : List Nat → Option (List UInt8)
  | [] => some []
  | w :: x :: y :: z :: rest =>
    if z = padding ∧ rest = [] then
      if y = padding then do
        let n ← bits w x (digit 0) (digit 0)
        if n % 65536 = 0 then some [UInt8.ofNat (n / 65536)] else none
      else do
        let n ← bits w x y (digit 0)
        if n % 256 = 0 then some [UInt8.ofNat (n / 65536), UInt8.ofNat (n / 256)] else none
    else do
      let n ← bits w x y z
      return UInt8.ofNat (n / 65536) :: UInt8.ofNat (n / 256) :: UInt8.ofNat n :: (← decode rest)
  | _ => none

/-! ### Round trip -/

section

variable {a b c : Nat}

theorem bits_digits (ha : a < 256) (hb : b < 256) (hc : c < 256) :
  bits (digit ((a * 65536 + b * 256 + c) / 262144)) (digit ((a * 65536 + b * 256 + c) / 4096 % 64))
      (digit ((a * 65536 + b * 256 + c) / 64 % 64)) (digit ((a * 65536 + b * 256 + c) % 64))
    = some (a * 65536 + b * 256 + c)
  := by
  unfold bits
  rw [digitValue_digit (by omega), digitValue_digit (by omega), digitValue_digit (by omega),
    digitValue_digit (by omega)]
  simp only [Option.pure_def, Option.bind_eq_bind, Option.bind_some, Option.some.injEq]
  omega

theorem isDigit_of_mem_digits {count d : Nat} (ha : a < 256) (hb : b < 256) (hc : c < 256)
    (h : d ∈ digits count a b c) :
  IsDigit d
  := by
  unfold digits at h
  obtain ⟨n, hn, rfl⟩ := List.mem_map.mp h
  have hmem := List.mem_of_mem_take hn
  apply isDigit_digit
  simp only [List.mem_cons, List.not_mem_nil, or_false] at hmem
  omega

end

/-- All signs without padding are digits. -/
theorem isDigit_of_mem_encodeUnpadded (bytes : List UInt8) :
  ∀ d ∈ encodeUnpadded bytes, IsDigit d
  := by
  induction bytes using encodeUnpadded.induct with
  | case1 a b c rest ih =>
    intro d hd
    rw [encodeUnpadded] at hd
    rcases List.mem_append.mp hd with hd | hd
    · apply isDigit_of_mem_digits a.toNat_lt b.toNat_lt c.toNat_lt hd
    · apply ih d hd
  | case2 a b =>
    intro d hd
    apply isDigit_of_mem_digits a.toNat_lt b.toNat_lt (by omega) hd
  | case3 a =>
    intro d hd
    apply isDigit_of_mem_digits a.toNat_lt (by omega) (by omega) hd
  | case4 =>
    intro d hd
    cases hd

/-- Taking the padding away leaves the digits. -/
theorem filter_encode (bytes : List UInt8) :
  (encode bytes).filter (· ≠ padding) = encodeUnpadded bytes
  := by
  rw [encode, List.filter_append, List.filter_eq_self.mpr, List.filter_eq_nil_iff.mpr,
    List.append_nil]
  · intro c hc
    simp [List.eq_of_mem_replicate hc]
  · intro d hd
    apply decide_eq_true (ne_padding_of_isDigit (isDigit_of_mem_encodeUnpadded bytes d hd))

/-- How many digits there are. -/
theorem length_encodeUnpadded (bytes : List UInt8) :
  (encodeUnpadded bytes).length = (4 * bytes.length + 2) / 3
  := by
  induction bytes using encodeUnpadded.induct with
  | case1 a b c rest ih =>
    rw [encodeUnpadded, List.length_append, ih]
    simp only [digits, List.length_map, List.length_take, List.length_cons, List.length_nil]
    omega
  | case2 a b => simp [encodeUnpadded, digits]
  | case3 a => simp [encodeUnpadded, digits]
  | case4 => rfl

/-- Filling up the digits gives the padding back. -/
theorem append_padding (bytes : List UInt8) :
  encodeUnpadded bytes
      ++ List.replicate ((4 - (encodeUnpadded bytes).length % 4) % 4) padding
    = encode bytes
  := by
  have hpadding (k r : Nat) (hr : r < 3) :
      (4 - (4 * (3 * k + r) + 2) / 3 % 4) % 4 = (3 - (3 * k + r) % 3) % 3 := by
    interval_cases r <;> omega
  have hlength := hpadding (bytes.length / 3) (bytes.length % 3) (Nat.mod_lt _ (by omega))
  rw [Nat.div_add_mod] at hlength
  rw [encode, length_encodeUnpadded, hlength]

/-- Two bytes are read from three digits. -/
theorem decode_padding {w x y : Nat} (hy : y ≠ padding) :
  decode [w, x, y, padding] = (bits w x y (digit 0)).bind fun n =>
    if n % 256 = 0 then some [UInt8.ofNat (n / 65536), UInt8.ofNat (n / 256)] else none
  := by
  rw [decode, if_pos ⟨rfl, rfl⟩, if_neg hy]
  rfl

/-- One byte is read from two digits. -/
theorem decode_padding_padding {w x : Nat} :
  decode [w, x, padding, padding] = (bits w x (digit 0) (digit 0)).bind fun n =>
    if n % 65536 = 0 then some [UInt8.ofNat (n / 65536)] else none
  := by
  rw [decode, if_pos ⟨rfl, rfl⟩, if_pos rfl]
  rfl

/-- What was written is read back. -/
theorem decode_encode (bytes : List UInt8) :
  decode (encode bytes) = some bytes
  := by
  induction bytes using encodeUnpadded.induct with
  | case1 a b c rest ih =>
    have ha := a.toNat_lt
    have hb := b.toNat_lt
    have hc := c.toNat_lt
    have hencode : encode (a :: b :: c :: rest)
        = digits 4 a.toNat b.toNat c.toNat ++ encode rest := by
      have hlength : (a :: b :: c :: rest).length % 3 = rest.length % 3 := by
        simp only [List.length_cons]
        omega
      rw [encode, encodeUnpadded, List.append_assoc, hlength, encode]
    have hlast : digit ((a.toNat * 65536 + b.toNat * 256 + c.toNat) % 64) ≠ padding :=
      ne_padding_of_isDigit (isDigit_digit (by omega))
    have hfirst : UInt8.ofNat ((a.toNat * 65536 + b.toNat * 256 + c.toNat) / 65536) = a := by
      rw [show (a.toNat * 65536 + b.toNat * 256 + c.toNat) / 65536 = a.toNat by omega,
        UInt8.ofNat_toNat]
    have hsecond : UInt8.ofNat ((a.toNat * 65536 + b.toNat * 256 + c.toNat) / 256) = b := by
      apply UInt8.toNat_inj.mp
      rw [UInt8.toNat_ofNat']
      omega
    have hthird : UInt8.ofNat (a.toNat * 65536 + b.toNat * 256 + c.toNat) = c := by
      apply UInt8.toNat_inj.mp
      rw [UInt8.toNat_ofNat']
      omega
    rw [hencode]
    simp only [digits, List.take_succ_cons, List.take_zero, List.map_cons, List.map_nil,
      List.cons_append, List.nil_append, decode, hlast, false_and, if_false,
      bits_digits ha hb hc, ih]
    simp only [Option.pure_def, Option.bind_eq_bind, Option.bind_some, hfirst, hsecond, hthird]
  | case2 a b =>
    have ha := a.toNat_lt
    have hb := b.toNat_lt
    have hbits := bits_digits ha hb (by omega : 0 < 256)
    have hzero : (a.toNat * 65536 + b.toNat * 256 + 0) % 64 = 0 := by omega
    have hlast : digit ((a.toNat * 65536 + b.toNat * 256 + 0) / 64 % 64) ≠ padding :=
      ne_padding_of_isDigit (isDigit_digit (by omega))
    have hleft : (a.toNat * 65536 + b.toNat * 256 + 0) % 256 = 0 := by omega
    have hfirst : UInt8.ofNat ((a.toNat * 65536 + b.toNat * 256 + 0) / 65536) = a := by
      rw [show (a.toNat * 65536 + b.toNat * 256 + 0) / 65536 = a.toNat by omega,
        UInt8.ofNat_toNat]
    have hsecond : UInt8.ofNat ((a.toNat * 65536 + b.toNat * 256 + 0) / 256) = b := by
      apply UInt8.toNat_inj.mp
      rw [UInt8.toNat_ofNat']
      omega
    have hencode : encode [a, b]
        = [digit ((a.toNat * 65536 + b.toNat * 256 + 0) / 262144),
          digit ((a.toNat * 65536 + b.toNat * 256 + 0) / 4096 % 64),
          digit ((a.toNat * 65536 + b.toNat * 256 + 0) / 64 % 64), padding] := rfl
    rw [hzero] at hbits
    rw [hencode, decode_padding hlast, hbits, Option.bind_some, if_pos hleft, hfirst, hsecond]
  | case3 a =>
    have ha := a.toNat_lt
    have hbits := bits_digits ha (by omega : 0 < 256) (by omega : 0 < 256)
    have hzero : (a.toNat * 65536 + 0 * 256 + 0) % 64 = 0 := by omega
    have hzero' : (a.toNat * 65536 + 0 * 256 + 0) / 64 % 64 = 0 := by omega
    have hleft : (a.toNat * 65536 + 0 * 256 + 0) % 65536 = 0 := by omega
    have hfirst : UInt8.ofNat ((a.toNat * 65536 + 0 * 256 + 0) / 65536) = a := by
      rw [show (a.toNat * 65536 + 0 * 256 + 0) / 65536 = a.toNat by omega, UInt8.ofNat_toNat]
    have hencode : encode [a]
        = [digit ((a.toNat * 65536 + 0 * 256 + 0) / 262144),
          digit ((a.toNat * 65536 + 0 * 256 + 0) / 4096 % 64), padding, padding] := rfl
    rw [hzero, hzero'] at hbits
    rw [hencode, decode_padding_padding, hbits, Option.bind_some, if_pos hleft, hfirst]
  | case4 => rfl

end Base64
