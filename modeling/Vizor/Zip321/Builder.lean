import Vizor.Zip321.PaymentRequest

/-!
# Building payment links

A payment link asks for an amount at an address, perhaps with a memo.  The amount is written in
its shortest form, by arithmetic with zatoshi, and the memo as the digits of its bytes.
-/

namespace Vizor

open AddressBook (Text text trim)

namespace Zip321

/-! ### Errors -/

def kZip321MaxMemoBytes : Nat := 512

def kZip321MaxAmountZec : Nat := 21000000

def zatoshiPerZec : Nat := 100000000

def kZip321MaxAmountDecimals : Nat := 8

inductive Zip321BuildErrorKind where
  | address
  | amountFormat
  | amountDecimals
  | amountSupply
  | memoTooLong
  | memoCharacters
  | memoTransparent
  deriving DecidableEq, Repr

structure Zip321BuildException where
  kind : Zip321BuildErrorKind
  message : String
  deriving DecidableEq, Repr

/-! ### Amounts -/

/-- The digits before and after the point of an amount. -/
def splitAmount (raw : Text) : Option (Text × Text) :=
  let whole := raw.takeWhile Decimals.isDigit
  if whole = [] then none
  else match raw.dropWhile Decimals.isDigit with
  | [] => some (whole, [])
  | 46 :: fraction => if Decimals.IsDigits fraction then some (whole, fraction) else none
  | _ => none

/-- The shortest decimal of an amount of zatoshi. -/
def formatZatoshi (zatoshi : Nat) : Text :=
  let integerPart := Decimals.numeral (zatoshi / zatoshiPerZec)
  let fraction := Decimals.numeral (zatoshi % zatoshiPerZec)
  let fractionPart : Text := (List.replicate (kZip321MaxAmountDecimals - fraction.length) 48
    ++ fraction).rdropWhile (· = 48)
  if fractionPart = [] then integerPart else integerPart ++ 46 :: fractionPart

def normalizeZip321Amount (amountZec : Text) : Except Zip321BuildException Text :=
  match splitAmount (trim amountZec) with
  | none => .error ⟨.amountFormat, "Enter an amount as a plain decimal number."⟩
  | some (whole, rawFraction) =>
    if kZip321MaxAmountDecimals < rawFraction.length then
      .error ⟨.amountDecimals, s!"Enter up to {kZip321MaxAmountDecimals} decimals."⟩
    else
      let zatoshi := Decimals.value whole * zatoshiPerZec + Decimals.value
        (rawFraction ++ List.replicate (kZip321MaxAmountDecimals - rawFraction.length) 48)
      if zatoshi = 0 then .error ⟨.amountFormat, "Enter an amount greater than zero."⟩
      else if kZip321MaxAmountZec * zatoshiPerZec < zatoshi then
        .error ⟨.amountSupply, "Amount exceeds the ZEC supply."⟩
      else .ok (formatZatoshi zatoshi)

/-! ### Links -/

def encodeZip321Memo (memoText : Text) : Except Zip321BuildException Text :=
  if ¬ zip321MemoTextIsSupported memoText then
    .error ⟨.memoCharacters, "Message contains characters a memo cannot carry."⟩
  else
    let bytes := Utf16.encodeUtf8 memoText
    if kZip321MaxMemoBytes < bytes.length then
      .error ⟨.memoTooLong, s!"Message is longer than {kZip321MaxMemoBytes} bytes."⟩
    else .ok ((Base64.encode bytes).filter (· ≠ Base64.padding))

def zip321AddressIsTransparent (address : Text) : Bool :=
  address.head? = some 116

/-- A memo that says something. -/
def isGiven (memoText : Option Text) : Option Text :=
  memoText.filter fun memo => trim memo ≠ []

def buildZip321PaymentUri (address amountZec : Text) (memoText : Option Text) :
    Except Zip321BuildException Text := do
  let recipient := trim address
  Run.ensure (isAddressText recipient)
    (⟨.address, "Payment address is not a valid Zcash address."⟩ : Zip321BuildException)
  let amount ← normalizeZip321Amount amountZec
  let buffer := text "zcash:" ++ recipient ++ text "?amount=" ++ amount
  match isGiven memoText with
  | none => .ok buffer
  | some memo => do
    Run.ensure (¬ zip321AddressIsTransparent recipient)
      (⟨.memoTransparent, "Transparent payments cannot carry a message."⟩ : Zip321BuildException)
    .ok (buffer ++ text "&memo=" ++ (← encodeZip321Memo memo))

/-! ### The number of zatoshi of a decimal -/

/-- A plain decimal of an amount of zatoshi. -/
def DenotesZatoshi (t : Text) (zatoshi : Nat) : Prop :=
  ∃ whole fraction : Text, whole ≠ [] ∧ Decimals.IsDigits whole ∧ Decimals.IsDigits fraction
    ∧ (t = whole ∧ fraction = [] ∨ t = whole ++ 46 :: fraction)
    ∧ zatoshi * 10 ^ fraction.length = Decimals.value (whole ++ fraction) * 10 ^ 8

/-- The point is where the first digits end. -/
theorem takeWhile_isDigit {whole : Text} (h : Decimals.IsDigits whole) (fraction : Text) :
  (whole ++ 46 :: fraction).takeWhile Decimals.isDigit = whole
    ∧ (whole ++ 46 :: fraction).dropWhile Decimals.isDigit = 46 :: fraction
  := by
  constructor
  · rw [List.takeWhile_append_of_pos h, List.takeWhile_cons_of_neg (by decide), List.append_nil]
  · rw [List.dropWhile_append_of_pos h, List.dropWhile_cons_of_neg (by decide)]

theorem takeWhile_isDigit_self {whole : Text} (h : Decimals.IsDigits whole) :
  whole.takeWhile Decimals.isDigit = whole ∧ whole.dropWhile Decimals.isDigit = []
  := by
  rw [List.takeWhile_eq_self_iff, List.dropWhile_eq_nil_iff]
  exact ⟨h, h⟩

/-- A decimal is of one amount. -/
theorem DenotesZatoshi.unique {t : Text} {m n : Nat} (hm : DenotesZatoshi t m)
    (hn : DenotesZatoshi t n) :
  m = n
  := by
  have hparts {whole fraction : Text} (hdigits : Decimals.IsDigits whole)
      (ht : t = whole ∧ fraction = [] ∨ t = whole ++ 46 :: fraction) :
      t.takeWhile Decimals.isDigit = whole
        ∧ (t.dropWhile Decimals.isDigit).tail = fraction := by
    rcases ht with ⟨rfl, rfl⟩ | rfl
    · obtain ⟨htake, hdrop⟩ := takeWhile_isDigit_self hdigits
      exact ⟨htake, by rw [hdrop]; rfl⟩
    · obtain ⟨htake, hdrop⟩ := takeWhile_isDigit hdigits fraction
      exact ⟨htake, by rw [hdrop]; rfl⟩
  obtain ⟨whole, fraction, -, hdigits, -, ht, hvalue⟩ := hm
  obtain ⟨whole', fraction', -, hdigits', -, ht', hvalue'⟩ := hn
  obtain ⟨rfl, rfl⟩ := hparts hdigits ht
  obtain ⟨rfl, rfl⟩ := hparts hdigits' ht'
  rw [← hvalue'] at hvalue
  apply Nat.eq_of_mul_eq_mul_right (by positivity) hvalue

/-- What an amount is split into is its digits around the point. -/
theorem splitAmount_eq_some {raw whole fraction : Text}
    (h : splitAmount raw = some (whole, fraction)) :
  whole ≠ [] ∧ Decimals.IsDigits whole ∧ Decimals.IsDigits fraction
    ∧ (raw = whole ∧ fraction = [] ∨ raw = whole ++ 46 :: fraction)
  := by
  have hraw := List.takeWhile_append_dropWhile (p := Decimals.isDigit) (l := raw)
  have hdigits : Decimals.IsDigits (raw.takeWhile Decimals.isDigit) :=
    fun c hc => List.mem_takeWhile_imp hc
  unfold splitAmount at h
  generalize raw.takeWhile Decimals.isDigit = head at h hraw hdigits
  generalize raw.dropWhile Decimals.isDigit = rest at h hraw
  simp only at h
  split_ifs at h with hne
  split at h
  · obtain ⟨rfl, rfl⟩ := Prod.mk.inj (Option.some.inj h)
    exact ⟨hne, hdigits, by simp [Decimals.IsDigits], Or.inl ⟨by simpa using hraw.symm, rfl⟩⟩
  · split_ifs at h with hfraction
    obtain ⟨rfl, rfl⟩ := Prod.mk.inj (Option.some.inj h)
    exact ⟨hne, hdigits, hfraction, Or.inr hraw.symm⟩
  · cases h

/-- An amount that is not refused is written as the shortest decimal of its zatoshi. -/
theorem normalizeZip321Amount_eq_ok {amountZec amount : Text}
    (h : normalizeZip321Amount amountZec = .ok amount) :
  ∃ zatoshi, DenotesZatoshi (trim amountZec) zatoshi
    ∧ zatoshi ≤ kZip321MaxAmountZec * zatoshiPerZec ∧ amount = formatZatoshi zatoshi
  := by
  unfold normalizeZip321Amount at h
  split at h
  · cases h
  · rename_i whole fraction hsplit
    obtain ⟨hne, hwhole, hfraction, hraw⟩ := splitAmount_eq_some hsplit
    simp only at h
    split_ifs at h with hlength hzero hsupply
    refine ⟨_, ⟨whole, fraction, hne, hwhole, hfraction, hraw, ?_⟩, not_lt.mp hsupply,
      (Except.ok.inj h).symm⟩
    have hpow : (10 : Nat) ^ 8
        = 10 ^ (kZip321MaxAmountDecimals - fraction.length) * 10 ^ fraction.length := by
      rw [← pow_add, Nat.sub_add_cancel (not_lt.mp hlength)]
      rfl
    rw [Decimals.value_append_zeros, Decimals.value_append]
    calc (Decimals.value whole * zatoshiPerZec + Decimals.value fraction
          * 10 ^ (kZip321MaxAmountDecimals - fraction.length)) * 10 ^ fraction.length
        = Decimals.value whole * 10 ^ 8 * 10 ^ fraction.length + Decimals.value fraction
          * (10 ^ (kZip321MaxAmountDecimals - fraction.length) * 10 ^ fraction.length) := by
          rw [show zatoshiPerZec = 10 ^ 8 from rfl]
          ring
      _ = (Decimals.value whole * 10 ^ fraction.length + Decimals.value fraction) * 10 ^ 8 := by
          rw [← hpow]
          ring

/-- The shortest decimal has digits, and at most eight of them after a point. -/
theorem exists_formatZatoshi (zatoshi : Nat) :
  ∃ whole fraction, whole ≠ [] ∧ Decimals.IsDigits whole ∧ Decimals.IsDigits fraction
    ∧ fraction.length ≤ 8
    ∧ formatZatoshi zatoshi = (if fraction = [] then whole else whole ++ 46 :: fraction)
    ∧ zatoshi * 10 ^ fraction.length = Decimals.value (whole ++ fraction) * 10 ^ 8
  := by
  have hlt : zatoshi % zatoshiPerZec < 10 ^ 8 := Nat.mod_lt _ (by decide)
  have hshort := Decimals.length_numeral_le (by decide : 0 < 8) hlt
  have hdigits : Decimals.IsDigits (List.replicate (kZip321MaxAmountDecimals
      - (Decimals.numeral (zatoshi % zatoshiPerZec)).length) 48
        ++ Decimals.numeral (zatoshi % zatoshiPerZec)) := by
    intro c hc
    rcases List.mem_append.mp hc with hc | hc
    · rw [List.eq_of_mem_replicate hc]
      rfl
    · apply Decimals.isDigits_numeral _ c hc
  have hvalue : Decimals.value (List.replicate (kZip321MaxAmountDecimals
      - (Decimals.numeral (zatoshi % zatoshiPerZec)).length) 48
        ++ Decimals.numeral (zatoshi % zatoshiPerZec)) = zatoshi % zatoshiPerZec := by
    rw [Decimals.value_zeros_append, Decimals.value_numeral]
  have hlength : (List.replicate (kZip321MaxAmountDecimals
      - (Decimals.numeral (zatoshi % zatoshiPerZec)).length) 48
        ++ Decimals.numeral (zatoshi % zatoshiPerZec)).length = 8 := by
    rw [List.length_append, List.length_replicate, kZip321MaxAmountDecimals]
    omega
  unfold formatZatoshi
  simp only
  generalize List.replicate (kZip321MaxAmountDecimals
    - (Decimals.numeral (zatoshi % zatoshiPerZec)).length) 48
      ++ Decimals.numeral (zatoshi % zatoshiPerZec) = padded at hdigits hvalue hlength ⊢
  have hsplit := Decimals.rdropWhile_append_zeros padded
  generalize (padded.rtakeWhile (fun c => decide (c = 48))).length = zeros at hsplit
  have hkept : Decimals.IsDigits (padded.rdropWhile (fun c => decide (c = 48))) :=
    fun c hc => hdigits c ((List.rdropWhile_prefix _ _).subset hc)
  generalize padded.rdropWhile (fun c => decide (c = 48)) = fraction at hsplit hkept ⊢
  have hcount : fraction.length + zeros = 8 := by
    rw [← hlength, ← hsplit, List.length_append, List.length_replicate]
  have hpow : (10 : Nat) ^ 8 = 10 ^ zeros * 10 ^ fraction.length := by
    rw [← pow_add, Nat.add_comm, hcount]
  rw [← hsplit, Decimals.value_append_zeros] at hvalue
  refine ⟨Decimals.numeral (zatoshi / zatoshiPerZec), fraction, Decimals.numeral_ne_nil _,
    Decimals.isDigits_numeral _, hkept, by omega, rfl, ?_⟩
  rw [Decimals.value_append, Decimals.value_numeral]
  calc zatoshi * 10 ^ fraction.length
      = (zatoshi / zatoshiPerZec * 10 ^ 8 + zatoshi % zatoshiPerZec) * 10 ^ fraction.length := by
        rw [show (10 : Nat) ^ 8 = zatoshiPerZec from rfl, Nat.div_add_mod']
    _ = (zatoshi / zatoshiPerZec * 10 ^ fraction.length + Decimals.value fraction) * 10 ^ 8 := by
        rw [← hvalue, hpow]
        ring

theorem denotesZatoshi_formatZatoshi (zatoshi : Nat) :
  DenotesZatoshi (formatZatoshi zatoshi) zatoshi
  := by
  obtain ⟨whole, fraction, hne, hwhole, hfraction, -, hformat, hvalue⟩ :=
    exists_formatZatoshi zatoshi
  refine ⟨whole, fraction, hne, hwhole, hfraction, ?_, hvalue⟩
  rw [hformat]
  split_ifs with hnil
  · exact Or.inl ⟨rfl, hnil⟩
  · exact Or.inr rfl

end Zip321

end Vizor
