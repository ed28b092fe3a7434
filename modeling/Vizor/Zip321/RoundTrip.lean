import Vizor.Zip321.Builder
import Vizor.Lib.Errors
import Mathlib.Algebra.Order.Field.Basic
import Mathlib.Data.Nat.Cast.Order.Ring
import Mathlib.Algebra.Order.Ring.Rat
import Mathlib.Tactic.FieldSimp

/-!
# Payment links are read as they were built

What is built is read back as one payment with the same address, amount and memo, as long as the
link is not too long and the memo is a string of characters that does not begin with a byte order
mark: surrogates without a partner are replaced in the bytes of the memo, and a byte order mark
is dropped by the reader.
-/

namespace Vizor

open AddressBook (Text text trim isWhitespace)

namespace Zip321

/-! ### What is promised -/

/-- A link is read as one payment of what it was built for. -/
def RoundTrips (d : Doubles) (address amountZec : Text) (memoText : Option Text) (uri : Text) :
    Prop :=
  ∃ request payment, parse d uri = .ok request ∧ request.isSupported = true
    ∧ request.payments = [payment] ∧ payment.address = trim address
    ∧ (∃ amount zatoshi, payment.amount = some amount
        ∧ DenotesZatoshi (trim amountZec) zatoshi ∧ DenotesZatoshi amount zatoshi)
    ∧ ∀ memo ∈ isGiven memoText, payment.memoText = some memo

/-- How long the memo makes a link. -/
def memoLength (memoText : Option Text) : Nat :=
  (isGiven memoText).elim 0 fun memo => 6 + (4 * (Utf16.encodeUtf8 memo).length + 2) / 3

/-- The link is short enough, and its memo is made of characters. -/
structure LinkKeeps (address amountZec : Text) (memoText : Option Text) : Prop where
  fits : ∀ zatoshi, DenotesZatoshi (trim amountZec) zatoshi →
    14 + (trim address).length + (formatZatoshi zatoshi).length + memoLength memoText
      ≤ kMaxPaymentUriLength
  memo : ∀ memo ∈ isGiven memoText, Utf16.WellFormed memo ∧ memo.head? ≠ some 0xFEFF

/-! ### Memos -/

/-- What is read of a memo. -/
def readBack (memo : Text) : Text :=
  Utf16.ofChars (Utf16.dropMark (Utf16.toChars memo))

section

variable {memo : Text}

/-- A memo is read as it is when its surrogates have partners and it has no mark. -/
theorem readBack_eq_iff :
  readBack memo = memo ↔ Utf16.WellFormed memo ∧ memo.head? ≠ some 0xFEFF
  := by
  rw [readBack, Utf16.ofChars_dropMark_eq_iff, ne_eq, Utf16.head_toChars_eq_iff]

/-- The characters of a memo that is supported are supported. -/
theorem supported_toChars (h : zip321MemoTextIsSupported memo) :
  ∀ c ∈ Utf16.toChars memo, isUnsupportedMemoCodePoint c.toNat = false
  := by
  have hrunes : ∀ rune ∈ Utf16.runes memo, isUnsupportedMemoCodePoint rune = false := by
    simpa [zip321MemoTextIsSupported, containsUnsupportedMemoText] using h
  intro c hc
  rcases Utf16.mem_map_toChars (List.mem_map_of_mem hc) with hrune | hreplaced
  · apply hrunes _ hrune
  · rw [hreplaced]
    decide

/-- No byte of a memo that is supported is zero. -/
theorem ne_zero_of_mem_encodeUtf8 (h : zip321MemoTextIsSupported memo) :
  ∀ byte ∈ Utf16.encodeUtf8 memo, byte ≠ 0
  := by
  intro byte hbyte
  obtain ⟨c, hc, hmem⟩ := List.mem_flatMap.mp hbyte
  apply Utf16.ne_zero_of_mem_utf8EncodeChar _ byte hmem
  intro hzero
  have hsupported := supported_toChars h c hc
  rw [hzero] at hsupported
  revert hsupported
  decide

theorem mem_of_mem_dropMark {cs : List Char} {c : Char} (h : c ∈ Utf16.dropMark cs) :
  c ∈ cs
  := by
  unfold Utf16.dropMark at h
  split_ifs at h
  · apply List.mem_of_mem_tail h
  · apply h

/-- What is read of a memo can be carried by a memo. -/
theorem supported_readBack (h : zip321MemoTextIsSupported memo) :
  containsUnsupportedMemoText (readBack memo) = false
  := by
  rw [containsUnsupportedMemoText, readBack, Utf16.runes_ofChars, List.any_map, List.any_eq_false]
  intro c hc
  rw [Function.comp_apply, supported_toChars h c (mem_of_mem_dropMark hc)]
  apply Bool.false_ne_true

/-- The byte `0xF6` is no character. -/
theorem isEmptyZip302Memo_encodeUtf8 (h : zip321MemoTextIsSupported memo) :
  isEmptyZip302Memo (Utf16.encodeUtf8 memo) = false
  := by
  have hread := Utf16.decodeUtf8_encodeUtf8 memo
  have hnonzero := ne_zero_of_mem_encodeUtf8 h
  generalize Utf16.encodeUtf8 memo = bytes at hread hnonzero
  unfold isEmptyZip302Memo
  split
  · rename_i rest
    cases rest with
    | nil =>
      have hinvalid : Utf16.decodeUtf8 [0xF6] = none := by decide +kernel
      rw [hinvalid] at hread
      cases hread
    | cons byte rest =>
      have hbyte := hnonzero byte (by simp)
      simp [hbyte]
  · rfl

theorem stripTrailingMemoPadding_eq_self {bytes : List UInt8} (h : ∀ byte ∈ bytes, byte ≠ 0) :
  stripTrailingMemoPadding bytes = bytes
  := by
  rw [stripTrailingMemoPadding, List.rdropWhile_eq_self_iff]
  intro hne
  simpa using h _ (List.getLast_mem hne)

/-- The digits of a memo are read as its text. -/
theorem parseMemo_encodeUnpadded (h : zip321MemoTextIsSupported memo)
    (hlength : (Utf16.encodeUtf8 memo).length ≤ 512) :
  parseMemo (Base64.encodeUnpadded (Utf16.encodeUtf8 memo)) = .ok (some (readBack memo), false)
  := by
  have hdigits := Base64.isDigit_of_mem_encodeUnpadded (Utf16.encodeUtf8 memo)
  have hshort : (Base64.encodeUnpadded (Utf16.encodeUtf8 memo)).length ≤ 684 := by
    rw [Base64.length_encodeUnpadded]
    omega
  have hbytes : decodeBase64UrlBytes (Base64.encodeUnpadded (Utf16.encodeUtf8 memo)) (text "memo")
      = .ok (Utf16.encodeUtf8 memo) := by
    rw [decodeBase64UrlBytes, Base64.append_padding, Base64.decode_encode]
    rfl
  unfold parseMemo validateBase64Url
  rw [Run.ensure_of (fun c hc => hdigits c hc), Run.ok_bind, Run.ensure_of hshort, Run.ok_bind,
    hbytes, Run.ok_bind, Run.ensure_of hlength, Run.ok_bind, isEmptyZip302Memo_encodeUtf8 h,
    stripTrailingMemoPadding_eq_self (ne_zero_of_mem_encodeUtf8 h), Utf16.decodeUtf8_encodeUtf8]
  have hsupported := supported_readBack h
  unfold readBack at hsupported ⊢
  simp only [Bool.false_eq_true, if_false, hsupported]

end

/-! ### Amounts -/

/-- The shortest decimal is split into its digits again. -/
theorem parseAmountDigits_of_format {whole fraction : Text} (hne : whole ≠ [])
    (hwhole : Decimals.IsDigits whole) (hfraction : Decimals.IsDigits fraction)
    (hlength : fraction.length ≤ 8) :
  parseAmountDigits (if fraction = [] then whole else whole ++ 46 :: fraction)
    = some (whole, fraction)
  := by
  unfold parseAmountDigits
  split_ifs with hnil
  · obtain ⟨htake, hdrop⟩ := takeWhile_isDigit_self hwhole
    simp only [htake, hdrop, hne, if_false, hnil]
  · obtain ⟨htake, hdrop⟩ := takeWhile_isDigit hwhole fraction
    have hpos : 1 ≤ fraction.length := List.length_pos_of_ne_nil hnil
    simp only [htake, hdrop, hne, if_false]
    rw [if_pos ⟨hfraction, hpos, hlength⟩]

theorem isDigit_or_eq_of_mem_formatZatoshi {zatoshi c : Nat} (h : c ∈ formatZatoshi zatoshi) :
  Decimals.isDigit c ∨ c = 46
  := by
  obtain ⟨whole, fraction, -, hwhole, hfraction, -, hformat, -⟩ := exists_formatZatoshi zatoshi
  rw [hformat] at h
  split_ifs at h
  · exact Or.inl (hwhole c h)
  · rcases List.mem_append.mp h with h | h
    · exact Or.inl (hwhole c h)
    · rcases List.mem_cons.mp h with rfl | h
      · exact Or.inr rfl
      · exact Or.inl (hfraction c h)

/-- Rounding does not take an amount over the supply. -/
theorem validateAmount_formatZatoshi (d : Doubles) {zatoshi : Nat}
    (h : zatoshi ≤ kZip321MaxAmountZec * zatoshiPerZec) :
  validateAmount d (formatZatoshi zatoshi) = .ok ()
  := by
  have hpercent : 37 ∉ formatZatoshi zatoshi := by
    intro hmem
    rcases isDigit_or_eq_of_mem_formatZatoshi hmem with hdigit | hpoint
    · have hrange := Decimals.isDigit_iff.mp hdigit
      omega
    · omega
  obtain ⟨whole, fraction, hne, hwhole, hfraction, hlength, hformat, hvalue⟩ :=
    exists_formatZatoshi zatoshi
  have hsupply : (Decimals.value (whole ++ fraction) : Rat) / 10 ^ fraction.length
      ≤ (21000000 : Nat) := by
    have hzatoshi : Decimals.value (whole ++ fraction) ≤ 21000000 * 10 ^ fraction.length := by
      have hmul := Nat.mul_le_mul_right (10 ^ fraction.length) h
      rw [hvalue, kZip321MaxAmountZec, zatoshiPerZec] at hmul
      apply Nat.le_of_mul_le_mul_right _ (by positivity : 0 < 10 ^ 8)
      linarith
    rw [div_le_iff₀ (by positivity)]
    exact_mod_cast hzatoshi
  have hnearest : d.nearest ((Decimals.value (whole ++ fraction) : Rat) / 10 ^ fraction.length)
      ≤ ((21000000 : Rat) : WithTop Rat) := by
    have hmono := d.mono hsupply
    rw [d.exact 21000000 (by decide)] at hmono
    exact_mod_cast hmono
  unfold validateAmount
  rw [Run.ensure_of hpercent, Run.ok_bind, hformat,
    parseAmountDigits_of_format hne hwhole hfraction hlength]
  apply Run.ensure_of hnearest

/-! ### Links -/

/-- The link for an address, an amount and perhaps a memo. -/
def link (recipient amount : Text) (memo : Option Text) : Text :=
  text "zcash:" ++ recipient ++ text "?amount=" ++ amount
    ++ memo.elim [] fun memo => text "&memo=" ++ Base64.encodeUnpadded (Utf16.encodeUtf8 memo)

/-- What is asked for with a link. -/
structure Asked (recipient : Text) (zatoshi : Nat) (memo : Option Text) : Prop where
  address : isAddressText recipient = true
  supply : zatoshi ≤ kZip321MaxAmountZec * zatoshiPerZec
  shielded : ∀ m ∈ memo, zip321AddressIsTransparent recipient = false
  supported : ∀ m ∈ memo, zip321MemoTextIsSupported m = true
  short : ∀ m ∈ memo, (Utf16.encodeUtf8 m).length ≤ 512

theorem encodeZip321Memo_eq_ok {memo digits : Text} (h : encodeZip321Memo memo = .ok digits) :
  zip321MemoTextIsSupported memo = true ∧ (Utf16.encodeUtf8 memo).length ≤ 512
    ∧ digits = Base64.encodeUnpadded (Utf16.encodeUtf8 memo)
  := by
  unfold encodeZip321Memo at h
  simp only [Base64.filter_encode] at h
  split_ifs at h with hsupported hlength
  exact ⟨hsupported, not_lt.mp hlength, (Except.ok.inj h).symm⟩

/-- What is built is a link for what was asked for. -/
theorem buildZip321PaymentUri_eq_ok {address amountZec uri : Text} {memoText : Option Text}
    (h : buildZip321PaymentUri address amountZec memoText = .ok uri) :
  ∃ zatoshi, DenotesZatoshi (trim amountZec) zatoshi
    ∧ Asked (trim address) zatoshi (isGiven memoText)
    ∧ uri = link (trim address) (formatZatoshi zatoshi) (isGiven memoText)
  := by
  unfold buildZip321PaymentUri at h
  obtain ⟨_, haddress, h⟩ := Run.bind_eq_ok.mp h
  obtain ⟨amount, hamount, h⟩ := Run.bind_eq_ok.mp h
  obtain ⟨zatoshi, hdenotes, hsupply, rfl⟩ := normalizeZip321Amount_eq_ok hamount
  refine ⟨zatoshi, hdenotes, ?_⟩
  have haddress' := Run.ensure_eq_ok.mp haddress
  cases hmemo : isGiven memoText with
  | none =>
    rw [hmemo] at h
    obtain rfl := Except.ok.inj h
    refine ⟨⟨haddress', hsupply, by simp, by simp, by simp⟩, ?_⟩
    rw [link, Option.elim_none, List.append_nil]
  | some memo =>
    rw [hmemo] at h
    obtain ⟨_, hshielded, h⟩ := Run.bind_eq_ok.mp h
    obtain ⟨digits, hdigits, h⟩ := Run.bind_eq_ok.mp h
    obtain rfl := Except.ok.inj h
    obtain ⟨hsupported, hshort, rfl⟩ := encodeZip321Memo_eq_ok hdigits
    have hshielded' := Bool.not_eq_true _ ▸ Run.ensure_eq_ok.mp hshielded
    refine ⟨⟨haddress', hsupply, ?_, ?_, ?_⟩, ?_⟩
    · rintro _ ⟨⟩
      apply hshielded'
    · rintro _ ⟨⟩
      apply hsupported
    · rintro _ ⟨⟩
      apply hshort
    · rw [link, Option.elim_some, ← List.append_assoc]

section

variable {recipient : Text} {zatoshi : Nat} {memo : Option Text}

/-- The characters of a link. -/
def IsLinkCharacter (c : Nat) : Prop :=
  isAlphanumeric c = true ∨ c ∈ [38, 45, 46, 58, 61, 63, 95]

theorem IsLinkCharacter.lt {c : Nat} (h : IsLinkCharacter c) :
  c < 128
  := by
  unfold IsLinkCharacter isAlphanumeric at h
  simp only [Bool.or_eq_true, Bool.and_eq_true, decide_eq_true_eq, List.mem_cons,
    List.not_mem_nil, or_false] at h
  omega

theorem IsLinkCharacter.not_isWhitespace {c : Nat} (h : IsLinkCharacter c) :
  isWhitespace c = false
  := by
  unfold IsLinkCharacter isAlphanumeric at h
  simp only [Bool.or_eq_true, Bool.and_eq_true, decide_eq_true_eq, List.mem_cons,
    List.not_mem_nil, or_false] at h
  simp only [isWhitespace, Bool.or_eq_false_iff, Bool.and_eq_false_iff, decide_eq_false_iff_not,
    beq_eq_false_iff_ne]
  omega

theorem isLinkCharacter_of_isDigit {c : Nat} (h : Decimals.isDigit c = true) :
  IsLinkCharacter c
  := by
  have hrange := Decimals.isDigit_iff.mp h
  left
  simp only [isAlphanumeric, Bool.or_eq_true, Bool.and_eq_true, decide_eq_true_eq]
  omega

theorem isLinkCharacter_of_isDigit64 {c : Nat} (h : Base64.IsDigit c) :
  IsLinkCharacter c
  := by
  unfold Base64.IsDigit at h
  simp only [IsLinkCharacter, isAlphanumeric, Bool.or_eq_true, Bool.and_eq_true,
    decide_eq_true_eq, List.mem_cons, List.not_mem_nil, or_false]
  omega

instance : DecidablePred IsLinkCharacter :=
  fun _ => inferInstanceAs (Decidable (_ ∨ _))

theorem isLinkCharacter_of_mem_link (h : isAddressText recipient = true) (zatoshi : Nat)
    (memo : Option Text) :
  ∀ c ∈ link recipient (formatZatoshi zatoshi) memo, IsLinkCharacter c
  := by
  have hscheme : ∀ c ∈ text "zcash:", IsLinkCharacter c := by decide +kernel
  have hname : ∀ c ∈ text "?amount=", IsLinkCharacter c := by decide +kernel
  have hmemo : ∀ c ∈ text "&memo=", IsLinkCharacter c := by decide +kernel
  have haddress : ∀ c ∈ recipient, isAlphanumeric c = true := by
    simp only [isAddressText, Bool.and_eq_true, List.all_eq_true] at h
    apply h.2
  intro c hc
  unfold link at hc
  rcases List.mem_append.mp hc with hc | hc
  · rcases List.mem_append.mp hc with hc | hc
    · rcases List.mem_append.mp hc with hc | hc
      · rcases List.mem_append.mp hc with hc | hc
        · apply hscheme c hc
        · exact Or.inl (haddress c hc)
      · apply hname c hc
    · rcases isDigit_or_eq_of_mem_formatZatoshi hc with hdigit | rfl
      · apply isLinkCharacter_of_isDigit hdigit
      · decide
  · cases memo with
    | none => cases hc
    | some m =>
      rcases List.mem_append.mp hc with hc | hc
      · apply hmemo c hc
      · apply isLinkCharacter_of_isDigit64
          (Base64.isDigit_of_mem_encodeUnpadded (Utf16.encodeUtf8 m) c hc)

/-! ### Reading a link -/

/-- The parameters of a link. -/
def query (amount : Text) (memo : Option Text) : Text :=
  text "amount" ++ 61 :: amount
    ++ memo.elim [] fun memo => 38 :: (text "memo" ++ 61 :: Base64.encodeUnpadded (Utf16.encodeUtf8 memo))

theorem link_eq (recipient amount : Text) (memo : Option Text) :
  link recipient amount memo = text "zcash" ++ 58 :: (recipient ++ 63 :: query amount memo)
  := by
  have hscheme : text "zcash:" = text "zcash" ++ [58] := by decide +kernel
  have hname : text "?amount=" = 63 :: text "amount" ++ [61] := by decide +kernel
  have hmemo : text "&memo=" = 38 :: text "memo" ++ [61] := by decide +kernel
  unfold link query
  rw [hscheme, hname, hmemo]
  cases memo <;> simp

theorem length_link (recipient amount : Text) (memo : Option Text) :
  (link recipient amount memo).length = 14 + recipient.length + amount.length
    + memo.elim 0 fun memo => 6 + (4 * (Utf16.encodeUtf8 memo).length + 2) / 3
  := by
  have hscheme : (text "zcash:").length = 6 := by decide +kernel
  have hname : (text "?amount=").length = 8 := by decide +kernel
  have hmemo : (text "&memo=").length = 6 := by decide +kernel
  unfold link
  cases memo with
  | none =>
    simp only [Option.elim_none, List.append_nil, List.length_append, hscheme, hname]
    omega
  | some m =>
    simp only [Option.elim_some, List.length_append, hscheme, hname, hmemo,
      Base64.length_encodeUnpadded]
    omega

theorem not_mem_of_isAddressText {c : Nat} (h : isAddressText recipient = true)
    (hc : isAlphanumeric c = false) :
  c ∉ recipient
  := by
  intro hmem
  simp only [isAddressText, Bool.and_eq_true, List.all_eq_true] at h
  rw [h.2 c hmem] at hc
  cases hc

theorem takeWhile_ne {c : Nat} {t : Text} (h : c ∉ t) (t' : Text) :
  (t ++ c :: t').takeWhile (· ≠ c) = t ∧ (t ++ c :: t').dropWhile (· ≠ c) = c :: t'
  := by
  have hne : ∀ d ∈ t, decide (d ≠ c) = true := by
    intro d hd
    rw [decide_eq_true_eq]
    rintro rfl
    apply h hd
  constructor
  · rw [List.takeWhile_append_of_pos hne, List.takeWhile_cons_of_neg (by simp), List.append_nil]
  · rw [List.dropWhile_append_of_pos hne, List.dropWhile_cons_of_neg (by simp)]

/-- A recognized parameter without an index that was not there yet. -/
theorem parseParam_of {d : Doubles} {s : ParseState} {name value : Text} {builder : PaymentBuilder}
    (hname : 61 ∉ name) (hparsed : parseParamName name = .ok (name, []))
    (hrecognized : name ∈ recognizedParamNames) (hseen : name ++ text ":" ++ [] ∉ s.seenKeys)
    (hset : setParam d name value (builderFor s.builders []) = .ok builder) :
  parseParam d s (name ++ 61 :: value) = .ok {
    builders := putBuilder s.builders builder
    seenKeys := s.seenKeys ++ [name ++ text ":" ++ []]
    hasCustomAsset := s.hasCustomAsset || name = text "req-asset" }
  := by
  obtain ⟨htake, hdrop⟩ := takeWhile_ne hname value
  unfold parseParam
  rw [if_neg (by simp)]
  simp only [htake, hdrop, List.tail_cons, hparsed, Run.ok_bind]
  rw [if_neg (not_not.mpr hrecognized), if_neg hseen, hset]
  rfl

/-- The payment of a link. -/
def paymentOf (recipient amount : Text) (memo : Option Text) : Zip321Payment where
  address := recipient
  amount := some amount
  label := none
  message := none
  memoBase64Url := memo.map fun memo => Base64.encodeUnpadded (Utf16.encodeUtf8 memo)
  memoText := memo.map readBack
  memoIsBinary := false
  reqAssetBase64Url := none

theorem memoText_paymentOf {amount m : Text} (h : m ∈ memo) :
  (paymentOf recipient amount memo).memoText = some (readBack m)
  := by
  obtain rfl := Option.mem_def.mp h
  rfl

/-- What is known of the payment when its parameters are read. -/
def builderOf (recipient amount : Text) (memo : Option Text) : PaymentBuilder where
  index := []
  address := some recipient
  amount := some amount
  memo := memo.map fun memo => Base64.encodeUnpadded (Utf16.encodeUtf8 memo)
  memoText := memo.map readBack

theorem build_of {builder : PaymentBuilder} {address : Text}
    (haddress : builder.address = some address)
    (hamount : ¬ (builder.amount.isSome ∧ builder.reqAsset.isSome))
    (hmemo : ¬ (builder.memo.isSome ∧ isTransparentAddress address)) :
  builder.build = .ok {
    address := address
    amount := builder.amount
    label := builder.label
    message := builder.message
    memoBase64Url := builder.memo
    memoText := builder.memoText
    memoIsBinary := builder.memoIsBinary
    reqAssetBase64Url := builder.reqAsset }
  := by
  unfold PaymentBuilder.build
  rw [haddress]
  simp only
  rw [Run.ensure_of hamount, Run.ok_bind, Run.ensure_of hmemo, Run.ok_bind]

theorem build_builderOf (hasked : Asked recipient zatoshi memo) (amount : Text) :
  (builderOf recipient amount memo).build = .ok (paymentOf recipient amount memo)
  := by
  apply build_of rfl (by simp [builderOf])
  rintro ⟨hmemo, htransparent⟩
  rw [builderOf, Option.isSome_map] at hmemo
  obtain ⟨m, hm⟩ := Option.isSome_iff_exists.mp hmemo
  have hshielded := hasked.shielded m hm
  rw [zip321AddressIsTransparent, ← isTransparentAddress, htransparent] at hshielded
  cases hshielded

/-- The amount of a link is read. -/
theorem parseParam_amount (d : Doubles) (hasked : Asked recipient zatoshi memo) :
  parseParam d ⟨[{ index := [], address := some recipient }], [text "address:"], false⟩
      (text "amount" ++ 61 :: formatZatoshi zatoshi)
    = .ok ⟨[builderOf recipient (formatZatoshi zatoshi) none],
        [text "address:", text "amount:"], false⟩
  := by
  have hset : setParam d (text "amount") (formatZatoshi zatoshi)
      (builderFor [{ index := [], address := some recipient }] [])
        = .ok (builderOf recipient (formatZatoshi zatoshi) none) := by
    unfold setParam
    rw [if_neg (by decide +kernel), if_pos rfl, validateAmount_formatZatoshi d hasked.supply]
    rfl
  have hkey : text "amount" ++ text ":" ++ [] = text "amount:" := by decide +kernel
  have hseen : text "amount" ++ text ":" ++ [] ∉ [text "address:"] := by decide +kernel
  have hasset : decide (text "amount" = text "req-asset") = false := by decide +kernel
  rw [parseParam_of (by decide +kernel) (by decide +kernel) (by decide +kernel) hseen hset, hkey, hasset]
  rfl

/-- The memo of a link is read. -/
theorem parseParam_memo (d : Doubles) {m : Text} (hasked : Asked recipient zatoshi (some m)) :
  parseParam d ⟨[builderOf recipient (formatZatoshi zatoshi) none],
      [text "address:", text "amount:"], false⟩
      (text "memo" ++ 61 :: Base64.encodeUnpadded (Utf16.encodeUtf8 m))
    = .ok ⟨[builderOf recipient (formatZatoshi zatoshi) (some m)],
        [text "address:", text "amount:", text "memo:"], false⟩
  := by
  have hset : setParam d (text "memo") (Base64.encodeUnpadded (Utf16.encodeUtf8 m))
      (builderFor [builderOf recipient (formatZatoshi zatoshi) none] [])
        = .ok (builderOf recipient (formatZatoshi zatoshi) (some m)) := by
    unfold setParam
    rw [if_neg (by decide +kernel), if_neg (by decide +kernel), if_neg (by decide +kernel),
      if_neg (by decide +kernel), if_pos rfl,
      parseMemo_encodeUnpadded (hasked.supported m rfl) (hasked.short m rfl)]
    rfl
  have hkey : text "memo" ++ text ":" ++ [] = text "memo:" := by decide +kernel
  have hseen : text "memo" ++ text ":" ++ [] ∉ [text "address:", text "amount:"] := by
    decide +kernel
  have hasset : decide (text "memo" = text "req-asset") = false := by decide +kernel
  rw [parseParam_of (by decide +kernel) (by decide +kernel) (by decide +kernel) hseen hset, hkey, hasset]
  rfl

/-- The parameters of a link make one payment. -/
theorem exists_foldlM_query (d : Doubles) (hasked : Asked recipient zatoshi memo) :
  ∃ seenKeys, ((query (formatZatoshi zatoshi) memo).splitOn 38).foldlM (parseParam d)
      ⟨[{ index := [], address := some recipient }], [text "address:"], false⟩
    = .ok ⟨[builderOf recipient (formatZatoshi zatoshi) memo], seenKeys, false⟩
  := by
  have hamount : 38 ∉ text "amount" ++ 61 :: formatZatoshi zatoshi := by
    have hname : 38 ∉ text "amount" := by decide +kernel
    intro hmem
    rcases List.mem_append.mp hmem with hmem | hmem
    · apply hname hmem
    · rcases List.mem_cons.mp hmem with heq | hmem
      · cases heq
      · rcases isDigit_or_eq_of_mem_formatZatoshi hmem with hdigit | heq
        · have hrange := Decimals.isDigit_iff.mp hdigit
          omega
        · omega
  unfold query
  cases memo with
  | none =>
    rw [Option.elim_none, List.append_nil, List.splitOn_eq_singleton hamount]
    refine ⟨[text "address:", text "amount:"], ?_⟩
    rw [List.foldlM_cons, parseParam_amount d hasked, Run.ok_bind]
    rfl
  | some m =>
    have hmemo : 38 ∉ text "memo" ++ 61 :: Base64.encodeUnpadded (Utf16.encodeUtf8 m) := by
      have hname : 38 ∉ text "memo" := by decide +kernel
      have hdigit : ¬ Base64.IsDigit 38 := by decide
      intro hmem
      rcases List.mem_append.mp hmem with hmem | hmem
      · apply hname hmem
      · rcases List.mem_cons.mp hmem with heq | hmem
        · cases heq
        · apply hdigit (Base64.isDigit_of_mem_encodeUnpadded _ 38 hmem)
    rw [Option.elim_some, List.splitOn_append_cons_self_of_not_mem hamount,
      List.splitOn_eq_singleton hmemo]
    refine ⟨[text "address:", text "amount:", text "memo:"], ?_⟩
    rw [List.foldlM_cons, parseParam_amount d hasked, Run.ok_bind, List.foldlM_cons,
      parseParam_memo d hasked, Run.ok_bind]
    rfl

/-- A link that is not too long is read as its payment. -/
theorem parse_link (d : Doubles) (hasked : Asked recipient zatoshi memo)
    (hfits : (link recipient (formatZatoshi zatoshi) memo).length ≤ kMaxPaymentUriLength) :
  parse d (link recipient (formatZatoshi zatoshi) memo)
    = .ok ⟨[paymentOf recipient (formatZatoshi zatoshi) memo], none⟩
  := by
  have hlink := isLinkCharacter_of_mem_link hasked.address zatoshi memo
  have hlength := Utf16.length_encodeUtf8 fun c hc => (hlink c hc).lt
  have htrim : trim (link recipient (formatZatoshi zatoshi) memo)
      = link recipient (formatZatoshi zatoshi) memo :=
    AddressBook.trim_eq_self ⟨fun c hc => (hlink c (List.mem_of_head? hc)).not_isWhitespace,
      fun c hc => (hlink c (List.mem_of_getLast? hc)).not_isWhitespace⟩
  have heq := link_eq recipient (formatZatoshi zatoshi) memo
  generalize link recipient (formatZatoshi zatoshi) memo = uri at *
  have hshort : ¬ (kMaxPaymentUriLength < uri.length
      ∨ kMaxPaymentUriLength < (Utf16.encodeUtf8 uri).length) := by
    rw [hlength, or_self]
    omega
  have hne : uri ≠ [] := by simp [heq]
  have hscheme : startsWithScheme uri = true := by
    have htake : uri.take 6 = text "zcash" ++ [58] := by
      have hfive : (text "zcash").length = 5 := by decide +kernel
      rw [heq, List.take_append, hfive, List.take_of_length_le (by omega)]
      rfl
    rw [startsWithScheme, htake]
    decide +kernel
  have hbody : (uri.dropWhile (· ≠ 58)).tail
      = recipient ++ 63 :: query (formatZatoshi zatoshi) memo := by
    have hcolon : 58 ∉ text "zcash" := by decide +kernel
    rw [heq, (takeWhile_ne hcolon _).2, List.tail_cons]
  have hslashes : ¬ text "//" <+: recipient ++ 63 :: query (formatZatoshi zatoshi) memo := by
    have hslash : text "//" = [47, 47] := by decide +kernel
    obtain ⟨c, rest, rfl⟩ : ∃ c rest, recipient = c :: rest := by
      apply List.exists_cons_of_ne_nil
      rintro rfl
      exact absurd hasked.address (by decide)
    intro hstart
    rw [hslash, List.cons_append, List.cons_prefix_cons] at hstart
    apply not_mem_of_isAddressText (c := 47) hasked.address (by decide)
    rw [hstart.1]
    apply List.mem_cons_self
  obtain ⟨htake, hdrop⟩ := takeWhile_ne
    (not_mem_of_isAddressText (c := 63) hasked.address (by decide))
    (query (formatZatoshi zatoshi) memo)
  have hpart : parseAddressPart recipient
      = .ok ⟨[{ index := [], address := some recipient }], [text "address:"], false⟩ := by
    have hnonempty : recipient ≠ [] := by
      rintro rfl
      exact absurd hasked.address (by decide)
    rw [parseAddressPart, if_neg hnonempty, validateAddress, Run.ensure_of hasked.address]
    rfl
  obtain ⟨seenKeys, hparams⟩ := exists_foldlM_query d hasked
  unfold parse
  simp only [htrim, hbody, htake, hdrop, List.tail_cons, hpart, hparams, Run.ok_bind]
  rw [Run.ensure_of hshort, Run.ok_bind, Run.ensure_of hne, Run.ok_bind, Run.ensure_of hscheme,
    Run.ok_bind, Run.ensure_of hslashes, Run.ok_bind, Run.ensure_of (by simp), Run.ok_bind,
    List.insertionSort_cons, List.insertionSort_nil, List.orderedInsert_nil, List.mapM_cons,
    build_builderOf hasked]
  rfl

/-- A link that is too long is refused. -/
theorem parse_of_long (d : Doubles) {uri : Text} (h : kMaxPaymentUriLength < uri.length) :
  parse d uri = .error (text "Payment link is too long.")
  := by
  unfold parse
  rw [Run.ensure_of_not (not_not.mpr (Or.inl h))]
  rfl

end

/-! ### The round trip -/

/-- Links are read as they were built just where they are short enough and their memo keeps. -/
theorem roundTrips_iff (d : Doubles) {address amountZec uri : Text} {memoText : Option Text}
    (h : buildZip321PaymentUri address amountZec memoText = .ok uri) :
  RoundTrips d address amountZec memoText uri ↔ LinkKeeps address amountZec memoText
  := by
  obtain ⟨zatoshi, hdenotes, hasked, rfl⟩ := buildZip321PaymentUri_eq_ok h
  have hlength := length_link (trim address) (formatZatoshi zatoshi) (isGiven memoText)
  by_cases hfits : (link (trim address) (formatZatoshi zatoshi) (isGiven memoText)).length
      ≤ kMaxPaymentUriLength
  · have hparse := parse_link d hasked hfits
    constructor
    · rintro ⟨request, payment, hok, -, hpayments, -, -, hmemo⟩
      rw [hparse] at hok
      obtain rfl := Except.ok.inj hok
      obtain rfl : paymentOf (trim address) (formatZatoshi zatoshi) (isGiven memoText) = payment :=
        (List.cons.inj hpayments).1
      constructor
      · intro zatoshi' hdenotes'
        obtain rfl := hdenotes.unique hdenotes'
        rw [memoLength]
        omega
      · intro memo hmem
        have hread := hmemo memo hmem
        rw [memoText_paymentOf hmem, Option.some_inj] at hread
        apply readBack_eq_iff.mp hread
    · intro hkeeps
      refine ⟨_, _, hparse, rfl, rfl, rfl, ⟨_, zatoshi, rfl, hdenotes,
        denotesZatoshi_formatZatoshi zatoshi⟩, ?_⟩
      intro memo hmem
      rw [memoText_paymentOf hmem, readBack_eq_iff.mpr (hkeeps.memo memo hmem)]
  · constructor
    · rintro ⟨request, payment, hok, -⟩
      rw [parse_of_long d (not_le.mp hfits)] at hok
      cases hok
    · intro hkeeps
      have hlong := hkeeps.fits zatoshi hdenotes
      rw [memoLength] at hlong
      omega

/-- One and a half ZEC with a memo. -/
theorem roundTrips_memo :
  RoundTrips .unrounded (text "u1abc") (text "1.50") (some (text "hi"))
    (text "zcash:u1abc?amount=1.5&memo=aGk")
  := by
  rw [roundTrips_iff .unrounded (by decide +kernel)]
  constructor
  · intro zatoshi hdenotes
    have hamount : DenotesZatoshi (text "1.50") 150000000 :=
      ⟨text "1", text "50", by decide +kernel, by decide +kernel, by decide +kernel,
        Or.inr (by decide +kernel), by decide +kernel⟩
    have htrim : trim (text "1.50") = text "1.50" := by decide +kernel
    rw [htrim] at hdenotes
    obtain rfl := hdenotes.unique hamount
    decide +kernel
  · have hgiven : isGiven (some (text "hi")) = some (text "hi") := by decide +kernel
    rw [hgiven]
    rintro memo ⟨⟩
    exact ⟨by decide +kernel, by decide +kernel⟩

/-- A memo that begins with a byte order mark is read without it. -/
theorem not_roundTrips_mark :
  ∃ uri, buildZip321PaymentUri (text "u1abc") (text "1") (some [0xFEFF, 104, 105]) = .ok uri
    ∧ ¬ RoundTrips .unrounded (text "u1abc") (text "1") (some [0xFEFF, 104, 105]) uri
  := by
  refine ⟨text "zcash:u1abc?amount=1&memo=77u_aGk", by decide +kernel, ?_⟩
  rw [roundTrips_iff .unrounded (by decide +kernel)]
  intro hkeeps
  apply (hkeeps.memo [0xFEFF, 104, 105] (by decide +kernel)).2 rfl

end Zip321

end Vizor
