import Vizor.Address.Wcash

/-!
# Bech32m and Base58Check strings of Wcash addresses

A Bech32m string under a lower-case part is written in one way for its symbols, and the bytes
of symbols are written with the same symbols when the bits that are dropped are those of the
fill.  A Base58Check string is written in one way for its bytes, and with the version bytes
of a Wcash address it does not start as a Bech32m string of one does.
-/

namespace Vizor

open Radix Run

namespace Address

variable {c : Crates} {hrp : Text} {symbols : List (Fin 32)} {bytes : List UInt8}
  {encoded : Text} {codeLength : Nat}

/-! ### Characters -/

theorem charFe_feChar {fe : Fin 32} : charFe (feChar fe) = some fe
  := by
  revert fe
  decide +kernel

theorem toLower_of_charFe {ch : Char} {fe : Fin 32} (h : charFe ch = some fe) :
  feChar fe = ch.toLower
  := by
  have hfound := List.find?_some h
  simpa using hfound

theorem feChar_ne_separator {fe : Fin 32} : feChar fe ≠ '1'
  := by
  revert fe
  decide +kernel

theorem isUpper_feChar {fe : Fin 32} : (feChar fe).isUpper = false
  := by
  revert fe
  decide +kernel

theorem toLower_of_not_isUpper {ch : Char} (h : ch.isUpper = false) : ch.toLower = ch
  := by
  apply dif_neg (of_decide_eq_false h)

theorem mapM_charFe_map_feChar : (symbols.map feChar).mapM charFe = some symbols
  := by
  induction symbols with
  | nil => rfl
  | cons fe symbols ih =>
    rw [List.map_cons, List.mapM_cons, charFe_feChar, ih]
    rfl

theorem map_feChar_of_mapM_charFe {data : Text} (h : data.mapM charFe = some symbols)
    (hlower : ∀ ch ∈ data, ch.isUpper = false) :
  symbols.map feChar = data
  := by
  induction data generalizing symbols with
  | nil =>
    cases h
    rfl
  | cons ch data ih =>
    rw [List.mapM_cons] at h
    obtain ⟨fe, hfe, h⟩ := Option.bind_eq_some_iff.mp h
    obtain ⟨rest, hrest, h⟩ := Option.bind_eq_some_iff.mp h
    cases h
    rw [List.map_cons, ih hrest fun other hother => hlower other (List.mem_cons_of_mem _ hother),
      toLower_of_charFe hfe, toLower_of_not_isUpper (hlower ch List.mem_cons_self)]

/-! ### The separator -/

theorem splitLast_eq_none {data : Text} (h : '1' ∉ data) : splitLast data = none
  := by
  induction data with
  | nil => rfl
  | cons ch data ih =>
    rw [List.mem_cons, not_or] at h
    rw [splitLast, ih h.2]
    apply if_neg (Ne.symm h.1)

theorem splitLast_append {data : Text} (h : '1' ∉ data) :
  splitLast (hrp ++ '1' :: data) = some (hrp, data)
  := by
  induction hrp with
  | nil =>
    rw [List.nil_append, splitLast, splitLast_eq_none h]
    rfl
  | cons ch hrp ih => rw [List.cons_append, splitLast, ih]

theorem of_splitLast {data : Text} (h : splitLast encoded = some (hrp, data)) :
  encoded = hrp ++ '1' :: data
  := by
  induction encoded generalizing hrp with
  | nil => cases h
  | cons ch rest ih =>
    rw [splitLast] at h
    split at h
    · rename_i hrp' data' hsplit
      cases h
      rw [ih hsplit]
      rfl
    · split at h
      · rename_i hch
        cases h
        rw [hch]
        rfl
      · cases h

/-! ### Checked strings -/

/-- A human-readable part in lower case. -/
structure LowerHrp (hrp : Text) : Prop where
  valid : ValidHrp hrp
  some_lower : hrp.any Char.isLower = true
  no_upper : ∀ ch ∈ hrp, ch.isUpper = false

theorem LowerHrp.of_all (hvalid : ValidHrp hrp) (hlower : hrp.any Char.isLower = true)
    (hupper : hrp.all (fun ch => !ch.isUpper) = true) :
  LowerHrp hrp
  := by
  refine ⟨hvalid, hlower, fun ch hch => ?_⟩
  rw [List.all_eq_true] at hupper
  simpa using hupper ch hch

theorem LowerHrp.map_toLower (h : LowerHrp hrp) : hrp.map Char.toLower = hrp
  := by
  conv_rhs => rw [← List.map_id hrp]
  apply List.map_congr_left
  intro ch hch
  apply toLower_of_not_isUpper (h.no_upper ch hch)

/-- The string of symbols is checked with these symbols. -/
theorem checkedHrpstring_hrpstring (h : LowerHrp hrp)
    (hlength : (hrpstring c hrp symbols).length ≤ codeLength) :
  checkedHrpstring c codeLength (hrpstring c hrp symbols) = some (hrp, symbols)
  := by
  have hsplit : splitLast (hrpstring c hrp symbols)
      = some (hrp, (symbols ++ c.checksum hrp symbols).map feChar) := by
    apply splitLast_append
    intro hmem
    obtain ⟨fe, -, hfe⟩ := List.mem_map.mp hmem
    apply feChar_ne_separator hfe
  have hupper : (hrpstring c hrp symbols).any Char.isUpper = false := by
    rw [List.any_eq_false]
    intro ch hch
    rw [Bool.not_eq_true]
    rcases List.mem_append.mp hch with hch | hch
    · apply h.no_upper ch hch
    · rcases List.mem_cons.mp hch with rfl | hch
      · rfl
      · obtain ⟨fe, -, rfl⟩ := List.mem_map.mp hch
        apply isUpper_feChar
  have hcount : (symbols ++ c.checksum hrp symbols).length - 6 = symbols.length := by
    rw [List.length_append, c.length_checksum]
    omega
  rw [checkedHrpstring, hsplit, Option.bind_eq_bind, Option.bind_some]
  dsimp only
  rw [mapM_charFe_map_feChar, Option.bind_eq_bind, Option.bind_some]
  rw [hcount, List.take_left, List.drop_left, h.map_toLower, hupper, if_pos]
  refine ⟨h.valid, hlength, by simp, ?_, rfl⟩
  rw [List.length_append, c.length_checksum]
  omega

/-- A string that is checked under a lower-case part is the string of its symbols. -/
theorem eq_hrpstring_of_checked (hhrp : LowerHrp hrp)
    (h : checkedHrpstring c codeLength encoded = some (hrp, symbols)) :
  encoded = hrpstring c hrp symbols ∧ encoded.length ≤ codeLength
  := by
  obtain ⟨⟨part, data⟩, hsplit, h⟩ := Option.bind_eq_some_iff.mp h
  obtain ⟨all, hall, h⟩ := Option.bind_eq_some_iff.mp h
  dsimp only at h
  split at h
  · rename_i hok
    obtain ⟨-, hlength, hcase, hcount, hchecksum⟩ := hok
    cases h
    refine ⟨?_, hlength⟩
    have hencoded := of_splitLast hsplit
    have hlower : ∀ ch ∈ data, ch.isUpper = false := by
      intro ch hch
      rw [← Bool.not_eq_true]
      intro hupper
      apply hcase
      constructor
      · rw [List.any_eq_true]
        refine ⟨ch, ?_, hupper⟩
        rw [hencoded]
        apply List.mem_append_right _ (List.mem_cons_of_mem _ hch)
      · obtain ⟨low, hlow, hisLower⟩ := List.any_eq_true.mp hhrp.some_lower
        rw [List.any_eq_true]
        refine ⟨low, ?_, hisLower⟩
        rw [hencoded]
        apply List.mem_append_left _ hlow
    rw [hhrp.map_toLower] at hchecksum
    rw [hencoded, hrpstring, ← hchecksum, List.take_append_drop,
      map_feChar_of_mapM_charFe hall hlower]
  · cases h

/-! ### Bytes and symbols -/

@[simp]
theorem length_symbolBits : (symbolBits symbols).length = 5 * symbols.length
  := by
  simp [symbolBits, List.length_flatMap, mul_comm]

@[simp]
theorem length_byteBits : (byteBits bytes).length = 8 * bytes.length
  := by
  simp [byteBits, List.length_flatMap, mul_comm]

theorem symbolBits_lt {d : Nat} (h : d ∈ symbolBits symbols) : d < 2
  := by
  obtain ⟨fe, -, hd⟩ := List.mem_flatMap.mp h
  apply fixed_lt (by omega) hd

theorem byteBits_lt {d : Nat} (h : d ∈ byteBits bytes) : d < 2
  := by
  obtain ⟨byte, -, hd⟩ := List.mem_flatMap.mp h
  apply fixed_lt (by omega) hd

theorem fixed_bitsFe {g : List Nat} (hlength : g.length = 5) (h : ∀ d ∈ g, d < 2) :
  fixed 2 5 (bitsFe g).val = g
  := by
  have hvalue := value_lt (b := 2) (by omega) h
  rw [hlength] at hvalue
  rw [bitsFe, Fin.val_ofNat, Nat.mod_eq_of_lt (by omega), fixed_value h hlength]

theorem fixed_bitsByte {g : List Nat} (hlength : g.length = 8) (h : ∀ d ∈ g, d < 2) :
  fixed 2 8 (bitsByte g).toNat = g
  := by
  have hvalue := value_lt (b := 2) (by omega) h
  rw [hlength] at hvalue
  rw [bitsByte, UInt8.toNat_ofNat', Nat.mod_eq_of_lt (by omega), fixed_value h hlength]

theorem bitsFe_fixed {fe : Fin 32} : bitsFe (fixed 2 5 fe.val) = fe
  := by
  rw [bitsFe, value_fixed (by have := fe.isLt; omega)]
  apply Fin.ext
  rw [Fin.val_ofNat, Nat.mod_eq_of_lt fe.isLt]

theorem bitsByte_fixed {byte : UInt8} : bitsByte (fixed 2 8 byte.toNat) = byte
  := by
  rw [bitsByte, value_fixed (by have := byte.toNat_lt; omega), UInt8.ofNat_toNat]

/-- The bits of the symbols of groups. -/
theorem symbolBits_map_bitsFe {n : Nat} {l : List Nat} (hlength : 5 * n ≤ l.length)
    (h : ∀ d ∈ l, d < 2) :
  symbolBits ((groups 5 n l).map bitsFe) = l.take (5 * n)
  := by
  rw [← flatten_groups, symbolBits, List.flatMap_map, List.flatMap_def]
  congr 1
  conv_rhs => rw [← List.map_id (groups 5 n l)]
  apply List.map_congr_left
  intro g hg
  apply fixed_bitsFe (length_of_mem_groups hlength hg)
  intro d hd
  apply h d (subset_of_mem_groups hg hd)

/-- The bits of the bytes of groups. -/
theorem byteBits_map_bitsByte {n : Nat} {l : List Nat} (hlength : 8 * n ≤ l.length)
    (h : ∀ d ∈ l, d < 2) :
  byteBits ((groups 8 n l).map bitsByte) = l.take (8 * n)
  := by
  rw [← flatten_groups, byteBits, List.flatMap_map, List.flatMap_def]
  congr 1
  conv_rhs => rw [← List.map_id (groups 8 n l)]
  apply List.map_congr_left
  intro g hg
  apply fixed_bitsByte (length_of_mem_groups hlength hg)
  intro d hd
  apply h d (subset_of_mem_groups hg hd)

theorem fillLength_spec (n : Nat) : (8 * n + fillLength n) % 5 = 0 ∧ fillLength n < 5
  := by
  unfold fillLength
  omega

/-- The bits of the symbols of bytes are theirs and those of the fill. -/
theorem symbolBits_bytesToFes (bytes : List UInt8) :
  symbolBits (bytesToFes bytes)
    = byteBits bytes ++ List.replicate (fillLength bytes.length) 0
  := by
  obtain ⟨hmod, -⟩ := fillLength_spec bytes.length
  have hcount : 5 * ((8 * bytes.length + fillLength bytes.length) / 5)
      = (byteBits bytes ++ List.replicate (fillLength bytes.length) 0).length := by
    rw [List.length_append, length_byteBits, List.length_replicate]
    omega
  rw [bytesToFes, symbolBits_map_bitsFe hcount.le, hcount, List.take_length]
  intro d hd
  rcases List.mem_append.mp hd with hd | hd
  · apply byteBits_lt hd
  · rw [List.eq_of_mem_replicate hd]
    omega

@[simp]
theorem length_bytesToFes (bytes : List UInt8) :
  (bytesToFes bytes).length = (8 * bytes.length + fillLength bytes.length) / 5
  := by
  rw [bytesToFes, List.length_map, length_groups]

/-- Bytes are read from their symbols. -/
theorem byteIter_bytesToFes : byteIter (bytesToFes bytes) = bytes
  := by
  obtain ⟨hmod, hlt⟩ := fillLength_spec bytes.length
  have hcount : 5 * (bytesToFes bytes).length / 8 = bytes.length := by
    rw [length_bytesToFes]
    omega
  rw [byteIter, hcount, symbolBits_bytesToFes, byteBits,
    groups_flatMap_append fun byte => length_fixed, List.map_map]
  conv_rhs => rw [← List.map_id bytes]
  apply List.map_congr_left
  intro byte _
  apply bitsByte_fixed

@[simp]
theorem length_byteIter : (byteIter symbols).length = 5 * symbols.length / 8
  := by
  rw [byteIter, List.length_map, length_groups]

theorem byteBits_byteIter :
  byteBits (byteIter symbols) = (symbolBits symbols).take (8 * (5 * symbols.length / 8))
  := by
  apply byteBits_map_bitsByte
  · rw [length_symbolBits]
    omega
  · intro d hd
    apply symbolBits_lt hd

/-- Symbols whose dropped bits are those of a fill. -/
def CanonicalFill (symbols : List (Fin 32)) : Prop :=
  (droppedBits symbols).length < 5 ∧ ∀ d ∈ droppedBits symbols, d = 0

/-- Symbols are those of their bytes when the bits that are dropped are those of the fill. -/
theorem bytesToFes_byteIter :
  bytesToFes (byteIter symbols) = symbols ↔ CanonicalFill symbols
  := by
  have hdropped : (droppedBits symbols).length
      = 5 * symbols.length - 8 * (5 * symbols.length / 8) := by
    rw [droppedBits, List.length_drop, length_symbolBits]
  obtain ⟨hmod, hlt⟩ := fillLength_spec (5 * symbols.length / 8)
  constructor
  · intro h
    have hbits := symbolBits_bytesToFes (byteIter symbols)
    have hcount := length_bytesToFes (byteIter symbols)
    rw [h, length_byteIter] at hbits hcount
    have hdrop : droppedBits symbols
        = List.replicate (fillLength (5 * symbols.length / 8)) 0 := by
      rw [droppedBits, hbits, List.drop_left']
      rw [length_byteBits, length_byteIter]
    constructor
    · rw [hdrop, List.length_replicate]
      apply hlt
    · intro d hd
      rw [hdrop] at hd
      apply List.eq_of_mem_replicate hd
  · rintro ⟨hshort, hzero⟩
    have hfill : fillLength (5 * symbols.length / 8) = (droppedBits symbols).length := by
      rw [hdropped] at hshort ⊢
      omega
    have hall : byteBits (byteIter symbols)
        ++ List.replicate (fillLength (5 * symbols.length / 8)) 0 = symbolBits symbols := by
      rw [byteBits_byteIter, hfill, ← List.eq_replicate_of_mem hzero, droppedBits,
        List.take_append_drop]
    have hcount : (8 * (5 * symbols.length / 8) + fillLength (5 * symbols.length / 8)) / 5
        = symbols.length := by
      rw [hfill, hdropped]
      omega
    rw [bytesToFes]
    rw [length_byteIter, hall, hcount, symbolBits,
      ← List.append_nil (symbols.flatMap fun fe => fixed 2 5 fe.val),
      groups_flatMap_append fun fe => length_fixed, List.map_map]
    conv_rhs => rw [← List.map_id symbols]
    apply List.map_congr_left
    intro fe _
    apply bitsFe_fixed

/-! ### Base58Check -/

theorem base58Digit_base58Char {digit : Nat} (h : digit < 58) :
  base58Digit (base58Char digit) = some digit
  := by
  revert digit
  decide +kernel

theorem base58Char_of_base58Digit {ch : Char} {digit : Nat} (h : base58Digit ch = some digit) :
  base58Char digit = ch ∧ digit < 58
  := by
  have hfound := List.find?_some h
  have hmem := List.mem_of_find?_eq_some h
  exact ⟨by simpa using hfound, List.mem_range.mp hmem⟩

theorem mapM_base58Digit {digits : List Nat} (h : ∀ d ∈ digits, d < 58) :
  (digits.map base58Char).mapM base58Digit = some digits
  := by
  induction digits with
  | nil => rfl
  | cons d digits ih =>
    rw [List.map_cons, List.mapM_cons, base58Digit_base58Char (h d List.mem_cons_self),
      ih fun other hother => h other (List.mem_cons_of_mem _ hother)]
    rfl

theorem of_mapM_base58Digit {digits : List Nat} (h : encoded.mapM base58Digit = some digits) :
  digits.map base58Char = encoded ∧ ∀ d ∈ digits, d < 58
  := by
  induction encoded generalizing digits with
  | nil =>
    cases h
    exact ⟨rfl, nofun⟩
  | cons ch rest ih =>
    rw [List.mapM_cons] at h
    obtain ⟨digit, hdigit, h⟩ := Option.bind_eq_some_iff.mp h
    obtain ⟨digits', hdigits, h⟩ := Option.bind_eq_some_iff.mp h
    cases h
    obtain ⟨hch, hlt⟩ := base58Char_of_base58Digit hdigit
    obtain ⟨hrest, hall⟩ := ih hdigits
    refine ⟨by rw [List.map_cons, hch, hrest], ?_⟩
    intro d hd
    rcases List.mem_cons.mp hd with rfl | hd
    · apply hlt
    · apply hall d hd

theorem toNat_lt_of_mem {d : Nat} (h : d ∈ bytes.map UInt8.toNat) : d < 256
  := by
  obtain ⟨byte, -, rfl⟩ := List.mem_map.mp h
  apply byte.toNat_lt

theorem map_ofNat_map_toNat : (bytes.map UInt8.toNat).map UInt8.ofNat = bytes
  := by
  rw [List.map_map]
  conv_rhs => rw [← List.map_id bytes]
  apply List.map_congr_left
  intro byte _
  apply UInt8.ofNat_toNat

theorem map_toNat_map_ofNat {ds : List Nat} (h : ∀ d ∈ ds, d < 256) :
  (ds.map UInt8.ofNat).map UInt8.toNat = ds
  := by
  rw [List.map_map]
  conv_rhs => rw [← List.map_id ds]
  apply List.map_congr_left
  intro d hd
  rw [Function.comp_apply, UInt8.toNat_ofNat', Nat.mod_eq_of_lt (h d hd), id_eq]

/-- Bytes are decoded from their string. -/
theorem decodeBase58Check_encode :
  decodeBase58Check c (encodeBase58Check c bytes) = some bytes
  := by
  have hdigits : ((convert 256 58 ((bytes ++ c.baseCheck bytes).map UInt8.toNat)).map
      base58Char).mapM base58Digit
        = some (convert 256 58 ((bytes ++ c.baseCheck bytes).map UInt8.toNat)) :=
    mapM_base58Digit fun d hd => convert_lt (by omega) hd
  have hcount : (bytes ++ c.baseCheck bytes).length - 4 = bytes.length := by
    rw [List.length_append, c.length_baseCheck]
    omega
  rw [decodeBase58Check, encodeBase58Check, hdigits, Option.bind_eq_bind, Option.bind_some]
  dsimp only
  rw [convert_convert (by omega) fun d hd => toNat_lt_of_mem hd, map_ofNat_map_toNat, hcount,
    List.take_left, List.drop_left, if_pos]
  refine ⟨?_, rfl⟩
  rw [List.length_append, c.length_baseCheck]
  omega

/-- A string from which bytes are decoded is theirs. -/
theorem encodeBase58Check_of_decode (h : decodeBase58Check c encoded = some bytes) :
  encodeBase58Check c bytes = encoded
  := by
  obtain ⟨digits, hdigits, h⟩ := Option.bind_eq_some_iff.mp h
  obtain ⟨hchars, hlt⟩ := of_mapM_base58Digit hdigits
  dsimp only at h
  split at h
  · rename_i hok
    obtain ⟨-, hcheck⟩ := hok
    cases h
    rw [encodeBase58Check, ← hcheck, List.take_append_drop, map_toNat_map_ofNat,
      convert_convert (by omega) hlt, hchars]
    intro d hd
    apply convert_lt (by omega) hd
  · cases h

/-- The string of 22 bytes with the version bytes of a Wcash address does not start with
`w`. -/
theorem head_encodeBase58Check {second : UInt8} {data : List UInt8} (hlength : data.length = 20)
    {rest : Text} :
  encodeBase58Check c (0x10 :: second :: data) ≠ 'w' :: rest
  := by
  intro h
  set all := ((0x10 :: second :: data) ++ c.baseCheck (0x10 :: second :: data)).map UInt8.toNat
    with hall
  have hdigits : ∃ ds, convert 256 58 all = 54 :: ds := by
    cases hconvert : convert 256 58 all with
    | nil =>
      rw [encodeBase58Check, ← hall, hconvert] at h
      cases h
    | cons d ds =>
      rw [encodeBase58Check, ← hall, hconvert, List.map_cons] at h
      have hw : base58Char d = 'w' := (List.cons.inj h).1
      have hmem : d ∈ convert 256 58 all := by
        rw [hconvert]
        apply List.mem_cons_self
      have hlt := convert_lt (by omega) hmem
      have hdigit := base58Digit_base58Char hlt
      rw [hw] at hdigit
      have hfifty : base58Digit 'w' = some 54 := by decide +kernel
      rw [hfifty, Option.some_inj] at hdigit
      exact ⟨ds, by rw [hdigit]⟩
  obtain ⟨ds, hds⟩ := hdigits
  have hvalue : value 58 (54 :: ds) = value 256 all := by rw [← hds, value_convert]
  have hsmall : value 58 ds < 58 ^ ds.length := by
    apply value_lt (by omega)
    intro d hd
    have hmem : d ∈ convert 256 58 all := by
      rw [hds]
      apply List.mem_cons_of_mem _ hd
    apply convert_lt (by omega) hmem
  obtain ⟨tail, htail, htailLength⟩ : ∃ tail : List UInt8, all = 16 :: tail.map UInt8.toNat
      ∧ tail.length = 25 := by
    refine ⟨second :: data ++ c.baseCheck (0x10 :: second :: data), by rw [hall]; rfl, ?_⟩
    rw [List.length_append, c.length_baseCheck, List.length_cons, hlength]
  have htailValue : value 256 (tail.map UInt8.toNat) < 256 ^ (tail.map UInt8.toNat).length :=
    value_lt (by omega) fun d hd => toNat_lt_of_mem hd
  rw [List.length_map, htailLength] at htailValue
  rw [htail, value_cons, value_cons, List.length_map, htailLength] at hvalue
  rcases Nat.lt_or_ge ds.length 34 with hshort | hlong
  · have hpow : 58 ^ ds.length ≤ 58 ^ 33 := Nat.pow_le_pow_right (by omega) (by omega)
    omega
  · have hpow : 58 ^ 34 ≤ 58 ^ ds.length := Nat.pow_le_pow_right (by omega) hlong
    omega

end Address

end Vizor
