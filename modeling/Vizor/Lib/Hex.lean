import Vizor.Lib.Errors

/-!
# Hexadecimal texts of bytes

Each byte is written as two lower-case digits.  Digits of both cases are read, and what was written
is read back.
-/

namespace Hex

/-- Two digits for each byte. -/
def encode (bytes : List UInt8) : List Char :=
  bytes.flatMap fun byte => [Nat.digitChar (byte.toNat / 16), Nat.digitChar (byte.toNat % 16)]

inductive FromHexError where
  | invalidHexCharacter (c : Char) (index : Nat)
  | oddLength
  deriving DecidableEq, Repr

def FromHexError.message : FromHexError → String
  | invalidHexCharacter c index => s!"Invalid character '{c}' at position {index}"
  | oddLength => "Odd number of digits"

def digitValue (c : Char) : Option Nat :=
  if 48 ≤ c.toNat ∧ c.toNat ≤ 57 then some (c.toNat - 48)
  else if 97 ≤ c.toNat ∧ c.toNat ≤ 102 then some (c.toNat - 87)
  else if 65 ≤ c.toNat ∧ c.toNat ≤ 70 then some (c.toNat - 55)
  else none

/-- The bytes of pairs of digits, the first of which is at an index. -/
def decodePairs (index : Nat) : List Char → Except FromHexError (List UInt8)
  | high :: low :: rest => do
    let highValue ← Run.okOr (digitValue high) (.invalidHexCharacter high index)
    let lowValue ← Run.okOr (digitValue low) (.invalidHexCharacter low (index + 1))
    let bytes ← decodePairs (index + 2) rest
    .ok (UInt8.ofNat (highValue * 16 + lowValue) :: bytes)
  | _ => .ok []

def decode (digits : List Char) : Except FromHexError (List UInt8) :=
  if digits.length % 2 ≠ 0 then .error .oddLength else decodePairs 0 digits

theorem digitValue_digitChar {n : Nat} (h : n < 16) :
  digitValue (Nat.digitChar n) = some n
  := by
  revert n
  decide

theorem decodePairs_encode (bytes : List UInt8) :
  ∀ index, decodePairs index (encode bytes) = .ok bytes
  := by
  induction bytes with
  | nil =>
    intro index
    rfl
  | cons byte rest ih =>
    intro index
    have hbyte : byte.toNat < 256 := byte.toNat_lt
    have hhigh := digitValue_digitChar (n := byte.toNat / 16) (by omega)
    have hlow := digitValue_digitChar (n := byte.toNat % 16) (by omega)
    have hvalue : UInt8.ofNat (byte.toNat / 16 * 16 + byte.toNat % 16) = byte := by
      rw [Nat.div_add_mod', UInt8.ofNat_toNat]
    have hencode : encode (byte :: rest)
        = Nat.digitChar (byte.toNat / 16) :: Nat.digitChar (byte.toNat % 16) :: encode rest := rfl
    rw [hencode, decodePairs, hhigh, hlow, ih]
    simp only [Run.okOr, Run.ok_bind, hvalue]

theorem length_encode (bytes : List UInt8) :
  (encode bytes).length = 2 * bytes.length
  := by
  induction bytes with
  | nil => rfl
  | cons byte rest ih =>
    rw [encode, List.flatMap_cons, List.length_append, ← encode, ih, List.length_cons]
    simp only [List.length_cons, List.length_nil]
    omega

/-- What was written is read back. -/
theorem decode_encode (bytes : List UInt8) :
  decode (encode bytes) = .ok bytes
  := by
  rw [decode, if_neg, decodePairs_encode]
  rw [length_encode]
  omega

theorem encode_injective :
  Function.Injective encode
  := by
  intro bytes bytes' h
  have hdecode := decode_encode bytes
  rw [h, decode_encode] at hdecode
  apply (Except.ok.inj hdecode).symm

end Hex
