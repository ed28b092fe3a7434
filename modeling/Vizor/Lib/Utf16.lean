import Mathlib.Data.List.Basic

/-!
# Strings of 16-bit code units

A string is a list of code units, in which characters above the first plane are pairs of
surrogates.  It is written as UTF-8 with a replacement for each surrogate without a partner, so
just the strings that have none are read back, unless they begin with the byte order mark, which
the reader drops.
-/

namespace Utf16

/-! ### Code points and characters -/

def isHighSurrogate (c : Nat) : Bool :=
  0xD800 ≤ c && c ≤ 0xDBFF

def isLowSurrogate (c : Nat) : Bool :=
  0xDC00 ≤ c && c ≤ 0xDFFF

/-- The code points of a string; a surrogate without a partner stands for itself. -/
def runes : List Nat → List Nat
  | high :: low :: rest =>
    if isHighSurrogate high && isLowSurrogate low then
      (0x10000 + (high - 0xD800) * 0x400 + (low - 0xDC00)) :: runes rest
    else high :: runes (low :: rest)
  | [c] => [c]
  | [] => []

/-- What is written in place of what is no character. -/
def replacement : Char := '\uFFFD'

/-- The byte order mark. -/
def byteOrderMark : Char := '\uFEFF'

def toChar (rune : Nat) : Char :=
  if rune.isValidChar then Char.ofNat rune else replacement

def toChars (t : List Nat) : List Char :=
  (runes t).map toChar

/-- The code units of a character. -/
def units (c : Char) : List Nat :=
  if c.toNat < 0x10000 then [c.toNat]
  else [0xD800 + (c.toNat - 0x10000) / 0x400, 0xDC00 + (c.toNat - 0x10000) % 0x400]

def ofChars (cs : List Char) : List Nat :=
  cs.flatMap units

/-- Each surrogate has its partner. -/
def WellFormed (t : List Nat) : Prop :=
  ofChars (toChars t) = t

instance : DecidablePred WellFormed :=
  fun _ => inferInstanceAs (Decidable (_ = _))

/-! ### UTF-8 -/

def encodeUtf8 (t : List Nat) : List UInt8 :=
  (toChars t).flatMap String.utf8EncodeChar

/-- A byte order mark at the head is dropped. -/
def dropMark (cs : List Char) : List Char :=
  if cs.head? = some byteOrderMark then cs.tail else cs

/-- Bytes that are no UTF-8 are refused. -/
def decodeUtf8 (bytes : List UInt8) : Option (List Nat) :=
  bytes.toByteArray.utf8Decode?.map fun cs => ofChars (dropMark cs.toList)

/-! ### Characters and back -/

theorem isValidChar_toNat (c : Char) :
  c.toNat < 0xD800 ∨ 0xDFFF < c.toNat ∧ c.toNat < 0x110000
  := c.valid

theorem toChar_toNat (c : Char) :
  toChar c.toNat = c
  := by
  have hvalid : c.toNat.isValidChar := c.valid
  rw [toChar, if_pos hvalid, Char.ofNat_toNat]

/-- The units of a character are those of no part of another one. -/
theorem runes_units_append (c : Char) (t : List Nat) :
  runes (units c ++ t) = c.toNat :: runes t
  := by
  have hvalid := isValidChar_toNat c
  unfold units
  split_ifs with hsmall
  · have hhigh : isHighSurrogate c.toNat = false := by
      simp only [isHighSurrogate, Bool.and_eq_false_iff, decide_eq_false_iff_not]
      omega
    cases t with
    | nil => rfl
    | cons d t => simp [runes, hhigh]
  · have hhigh : isHighSurrogate (0xD800 + (c.toNat - 0x10000) / 0x400) = true := by
      simp only [isHighSurrogate, Bool.and_eq_true, decide_eq_true_eq]
      omega
    have hlow : isLowSurrogate (0xDC00 + (c.toNat - 0x10000) % 0x400) = true := by
      simp only [isLowSurrogate, Bool.and_eq_true, decide_eq_true_eq]
      omega
    simp only [List.cons_append, List.nil_append, runes, hhigh, hlow, Bool.and_self, if_true,
      List.cons.injEq, and_true]
    omega

theorem runes_ofChars (cs : List Char) :
  runes (ofChars cs) = cs.map Char.toNat
  := by
  induction cs with
  | nil => rfl
  | cons c rest ih =>
    rw [ofChars, List.flatMap_cons, runes_units_append, ← ofChars, ih, List.map_cons]

theorem toChars_ofChars (cs : List Char) :
  toChars (ofChars cs) = cs
  := by
  rw [toChars, runes_ofChars, List.map_map]
  apply List.map_id'' (toChar_toNat) cs

theorem wellFormed_ofChars (cs : List Char) :
  WellFormed (ofChars cs)
  := by
  rw [WellFormed, toChars_ofChars]

/-- The code points of the characters are those of the string, or the replacement. -/
theorem mem_map_toChars {t : List Nat} {n : Nat} (h : n ∈ (toChars t).map Char.toNat) :
  n ∈ runes t ∨ n = replacement.toNat
  := by
  rw [toChars, List.map_map] at h
  obtain ⟨rune, hrune, rfl⟩ := List.mem_map.mp h
  rw [Function.comp_apply, toChar]
  split_ifs with hvalid
  · left
    rw [Char.ofNat, dif_pos hvalid]
    apply hrune
  · exact Or.inr rfl

/-! ### Writing and reading -/

/-- What is read back from the bytes of a string. -/
theorem decodeUtf8_encodeUtf8 (t : List Nat) :
  decodeUtf8 (encodeUtf8 t) = some (ofChars (dropMark (toChars t)))
  := by
  have hencode : (encodeUtf8 t).toByteArray = (toChars t).utf8Encode := rfl
  rw [decodeUtf8, hencode, List.utf8Decode?_utf8Encode]
  rfl

theorem ofChars_injective :
  Function.Injective ofChars
  := by
  intro cs cs' h
  rw [← toChars_ofChars cs, h, toChars_ofChars]

theorem dropMark_eq_self_iff {cs : List Char} :
  dropMark cs = cs ↔ cs.head? ≠ some byteOrderMark
  := by
  unfold dropMark
  split_ifs with hmark
  · cases cs with
    | nil => simp at hmark
    | cons c rest => simp [hmark]
  · simp [hmark]

/-- A string is read back just when it is well formed and has no byte order mark at its head. -/
theorem ofChars_dropMark_eq_iff {t : List Nat} :
  ofChars (dropMark (toChars t)) = t
    ↔ WellFormed t ∧ (toChars t).head? ≠ some byteOrderMark
  := by
  constructor
  · intro h
    have hwf : WellFormed t := by
      rw [← h]
      apply wellFormed_ofChars _
    refine ⟨hwf, ?_⟩
    rw [← dropMark_eq_self_iff]
    apply ofChars_injective
    rw [h, hwf]
  · rintro ⟨hwf, hmark⟩
    rw [dropMark_eq_self_iff.mpr hmark]
    apply hwf

/-- The first character is the byte order mark just when the first code unit is. -/
theorem head_toChars_eq_iff {t : List Nat} :
  (toChars t).head? = some byteOrderMark ↔ t.head? = some 0xFEFF
  := by
  have hchar {rune : Nat} : toChar rune = byteOrderMark ↔ rune = 0xFEFF := by
    constructor
    · intro h
      unfold toChar at h
      split_ifs at h with hvalid
      · have hnat := congrArg Char.toNat h
        rw [Char.ofNat, dif_pos hvalid] at hnat
        apply hnat
      · cases h
    · rintro rfl
      rfl
  unfold toChars
  rw [List.head?_map]
  cases t using runes.induct with
  | case1 high low rest hpair =>
    have hhigh : isHighSurrogate high = true := (Bool.and_eq_true_iff.mp hpair).1
    simp only [isHighSurrogate, Bool.and_eq_true, decide_eq_true_eq] at hhigh
    simp only [runes, hpair, if_true, List.head?_cons, Option.map_some, Option.some.injEq, hchar]
    omega
  | case2 high low rest hpair =>
    simp [runes, hpair, hchar]
  | case3 c => simp [runes, hchar]
  | case4 => simp [runes]

/-! ### Bytes of characters -/

/-- A byte is zero only in the character zero. -/
theorem ne_zero_of_mem_utf8EncodeChar {c : Char} (hc : c.toNat ≠ 0) :
  ∀ byte ∈ String.utf8EncodeChar c, byte ≠ 0
  := by
  have hvalid := isValidChar_toNat c
  have hbyte {n : Nat} (h : n % 256 ≠ 0) : UInt8.ofNat n ≠ 0 := by
    intro heq
    apply h
    rw [← UInt8.toNat_ofNat', heq]
    rfl
  intro byte hmem
  unfold String.utf8EncodeChar at hmem
  change byte ∈ (if c.toNat ≤ 127 then _ else if c.toNat ≤ 2047 then _
    else if c.toNat ≤ 65535 then _ else _) at hmem
  split_ifs at hmem <;> simp only [List.mem_cons, List.not_mem_nil, or_false] at hmem
  · subst hmem
    apply hbyte (by change c.toNat % 256 ≠ 0; omega)
  · rcases hmem with rfl | rfl <;> exact hbyte (by omega)
  · rcases hmem with rfl | rfl | rfl <;> exact hbyte (by omega)
  · rcases hmem with rfl | rfl | rfl | rfl <;> exact hbyte (by omega)

/-- A string of small code units without surrogates is its code points. -/
theorem runes_eq_self {t : List Nat} (h : ∀ c ∈ t, c < 0xD800) :
  runes t = t
  := by
  induction t using runes.induct with
  | case1 high low rest hpair =>
    have hsmall := h high (by simp)
    simp only [isHighSurrogate, Bool.and_eq_true, decide_eq_true_eq] at hpair
    omega
  | case2 high low rest hpair ih =>
    rw [runes, if_neg hpair, ih fun c hc => h c (List.mem_cons_of_mem _ hc)]
  | case3 c => rfl
  | case4 => rfl

/-- An ASCII string has as many bytes as code units. -/
theorem length_encodeUtf8 {t : List Nat} (h : ∀ c ∈ t, c < 128) :
  (encodeUtf8 t).length = t.length
  := by
  have hbyte : ∀ c ∈ t, (String.utf8EncodeChar (toChar c)).length = 1 := by
    intro c hc
    have hsmall := h c hc
    have hvalid : c.isValidChar := Or.inl (by omega)
    have hnat : (toChar c).toNat = c := by
      rw [toChar, if_pos hvalid, Char.ofNat, dif_pos hvalid]
      rfl
    have hval : (toChar c).val.toNat ≤ 127 := by
      change (toChar c).toNat ≤ 127
      omega
    unfold String.utf8EncodeChar
    simp only
    rw [if_pos hval]
    rfl
  rw [encodeUtf8, toChars, runes_eq_self fun c hc => by have hsmall := h c hc; omega,
    List.flatMap_map, List.length_flatMap]
  induction t with
  | nil => rfl
  | cons c rest ih =>
    rw [List.map_cons, List.sum_cons, hbyte c List.mem_cons_self,
      ih (fun d hd => h d (List.mem_cons_of_mem _ hd))
        fun d hd => hbyte d (List.mem_cons_of_mem _ hd),
      List.length_cons, Nat.add_comm]

end Utf16
