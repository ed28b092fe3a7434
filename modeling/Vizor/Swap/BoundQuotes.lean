import Vizor.Swap.Quotes
import Vizor.Lib.Errors

/-!
# Quotes that are shown are bound to the request

A quote that is returned was asked for with the amount, the slippage and the addresses that the
response repeats, on the fixed side its amount is the one that was typed, and what is shown of
the amounts is what the base units say.  The latter holds of texts whose exponent does not
overflow and whose zeros at the end are those of the fraction.
-/

namespace Vizor

open AddressBook (Text text trim)

namespace Swap

/-! ### Texts and base units -/

/-- A text is a numeral of an amount of base units. -/
def Denotes (value : Text) (decimals units : Int) : Prop :=
  ∃ numeral : Shape, numeral.IsNumeral ∧ numeral.IsWritten value
    ∧ (units : Rat) = numeral.value * (10 : Rat) ^ decimals

theorem parseMagnitude_numeral (n : Nat) :
  parseMagnitude (Decimals.numeral n) = some n
  := by
  have hdigits := Decimals.isDigits_numeral n
  have hne := Decimals.numeral_ne_nil n
  have hvalue : Radix.value 10 ((Decimals.numeral n).map (· - 48)) = n := Decimals.value_numeral n
  generalize Decimals.numeral n = t at *
  unfold parseMagnitude
  split
  · have hx := Decimals.isDigit_iff.mp (hdigits 120 (by simp))
    omega
  · have hx := Decimals.isDigit_iff.mp (hdigits 88 (by simp))
    omega
  · rw [digitsOf_digits hne hdigits, Option.map_some, hvalue]

/-- The numeral of a number is read as the number. -/
theorem tryParseBigInt_numeral (n : Nat) :
  tryParseBigInt (Decimals.numeral n) = some (n : Int)
  := by
  have hdigits := Decimals.isDigits_numeral n
  have hspace : ∀ c ∈ Decimals.numeral n, isRegExpSpace c = false := by
    intro c hc
    rw [isRegExpSpace, (Shape.ne_of_isDigit (hdigits c hc)).2.2.2.2, Bool.false_and]
  have htrim : ((Decimals.numeral n).dropWhile isRegExpSpace).rdropWhile isRegExpSpace
      = Decimals.numeral n := by
    rw [List.dropWhile_eq_self_iff.mpr, List.rdropWhile_eq_self_iff.mpr]
    · intro hne
      rw [hspace _ (List.getLast_mem hne), Bool.false_eq_true]
      exact not_false
    · intro hlength
      rw [hspace _ (List.getElem_mem hlength), Bool.false_eq_true]
      exact not_false
  have hsign : splitSign (Decimals.numeral n) = (false, Decimals.numeral n) := by
    generalize Decimals.numeral n = t at *
    unfold splitSign
    split
    · have hplus := Decimals.isDigit_iff.mp (hdigits 43 (by simp))
      omega
    · have hminus := Decimals.isDigit_iff.mp (hdigits 45 (by simp))
      omega
    · rfl
  simp [tryParseBigInt, htrim, hsign, parseMagnitude_numeral]

theorem parseBigInt_eq_ok {t : Text} {n : Int} :
  parseBigInt t = .ok n ↔ tryParseBigInt t = some n
  := by
  unfold parseBigInt
  split <;> simp_all

theorem parseBaseUnits_eq_ok {value : Option Text} {fieldName : String} {n : Int}
    (h : parseBaseUnits value fieldName = .ok n) :
  value.bind tryParseBigInt = some n
  := by
  unfold parseBaseUnits at h
  split at h
  · cases h
  · rename_i value
    split at h
    · cases h
    · rename_i parsed hparsed
      split at h
      · cases h
      · obtain rfl := Except.ok.inj h
        apply hparsed

/-- Where a text is read exactly, it denotes the base units that it is converted to. -/
theorem denotes_of_eq_ok {value units : Text} {decimals n : Int}
    (hdecimals : decimals < 9223372036854775808) (hexact : ReadsExactly value decimals)
    (hunits : decimalStringToBaseUnits value decimals = .ok units)
    (hn : tryParseBigInt units = some n) :
  Denotes value decimals n
  := by
  obtain ⟨numeral, hnumeral, hwritten, m, hvalue, rfl⟩ := hexact.sound hdecimals hunits
  rw [tryParseBigInt_numeral] at hn
  obtain rfl := Option.some.inj hn
  refine ⟨numeral, hnumeral, hwritten, ?_⟩
  rw [← hvalue]
  norm_cast

/-- The text that is shown denotes the same base units. -/
theorem Denotes.swapTrimDecimal {value : Text} {decimals n : Int} (h : Denotes value decimals n)
    (hkeeps : KeepsWhenTrimmed value) :
  Denotes (swapTrimDecimal value) decimals n
  := by
  obtain ⟨numeral, hnumeral, hwritten, hvalue⟩ := h
  obtain ⟨shown, hshown, hwritten', heq⟩ :=
    exists_isWritten_swapTrimDecimal hnumeral hwritten hkeeps
  exact ⟨shown, hshown, hwritten', by rw [hvalue, heq]⟩

theorem decimalStringToBaseUnits_trim (value : Text) (decimals : Int) :
  decimalStringToBaseUnits (trim value) decimals = decimalStringToBaseUnits value decimals
  := by
  have hnormalize : normalizeAmount (trim value) = normalizeAmount value := by
    simp only [normalizeAmount, AddressBook.trim_trim]
  simp only [decimalStringToBaseUnits, hnormalize]

theorem toBaseUnits_eq_ok {amount units : Text} {decimals : Int}
    (h : toBaseUnits amount decimals = .ok units) :
  decimalStringToBaseUnits amount decimals = .ok units
  := by
  unfold toBaseUnits at h
  split at h
  · cases h
  · apply h

/-! ### What a check of a response says -/

theorem validateFormatted_eq_ok {formatted : Text} {baseUnits decimals : Int} {fieldName : String}
    {u : Unit}
    (h : validateFormattedAmountMatchesBaseUnits formatted baseUnits decimals fieldName = .ok u) :
  ∃ units, decimalStringToBaseUnits formatted decimals = .ok units
    ∧ tryParseBigInt units = some baseUnits
  := by
  unfold validateFormattedAmountMatchesBaseUnits at h
  obtain ⟨units, hunits, h⟩ := Run.bind_eq_ok.mp h
  obtain ⟨parsed, hparsed, h⟩ := Run.bind_eq_ok.mp h
  split at h
  · cases h
  · rename_i heq
    obtain rfl := not_not.mp heq
    exact ⟨units, hunits, parseBigInt_eq_ok.mp hparsed⟩

/-- A formatted amount of a response that was checked. -/
structure Formatted (amount : Option Text) (formatted : Text) (token : OneClickToken) (units : Int) :
    Prop where
  reported : amount.bind tryParseBigInt = some units
  denotes : ReadsExactly formatted token.decimals → Denotes formatted token.decimals units

theorem formatted_of_eq_ok {amount : Option Text} {formatted : Text} {token : OneClickToken}
    {fieldName : String} {units : Int} {u : Unit}
    (hunits : parseBaseUnits amount fieldName = .ok units)
    (h : validateFormattedAmountMatchesBaseUnits formatted units token.decimals fieldName = .ok u) :
  Formatted amount formatted token units
  := by
  obtain ⟨t, ht, hparsed⟩ := validateFormatted_eq_ok h
  exact ⟨parseBaseUnits_eq_ok hunits,
    fun hexact => denotes_of_eq_ok token.inRange.2 hexact ht hparsed⟩

/-- What a response says that was compared with what was sent. -/
structure Matches (p : UpperCase) (prepared : PreparedQuote) (allowFlexibleQuotedAmount : Bool)
    (response : OneClickQuoteResponse) : Prop where
  swapType : response.quoteRequest.swapTypeRaw.elim (prepared.mode = .exactInput)
    fun swapTypeRaw => p.toUpperCase (trim swapTypeRaw) = prepared.mode.oneClickSwapType
  amount : ∃ units, tryParseBigInt prepared.body.amount = some units
    ∧ response.quoteRequest.amount.bind tryParseBigInt = some units
    ∧ (allowFlexibleQuotedAmount = false →
        (if prepared.mode.usesInputAmount then response.quote.amountIn
          else response.quote.amountOut).bind tryParseBigInt = some units)
  amountIn : ∃ units, Formatted response.quote.amountIn response.quote.amountInFormatted
    prepared.sellToken units
  amountOut : ∃ units, Formatted response.quote.amountOut response.quote.amountOutFormatted
    prepared.receiveToken units
  slippage : response.quoteRequest.slippageToleranceBps = some prepared.body.slippageTolerance
  refundTo : response.quoteRequest.refundTo.map trim = some prepared.body.refundTo
  recipient : response.quoteRequest.recipient.map trim = some prepared.body.recipient

/-- A response that is not refused matches what was sent. -/
theorem matches_of_eq_ok {p : UpperCase} {prepared : PreparedQuote} {flexible : Bool}
    {response : OneClickQuoteResponse} {u : Unit}
    (h : validateQuoteResponseRequest p prepared flexible response = .ok u) :
  Matches p prepared flexible response
  := by
  unfold validateQuoteResponseRequest at h
  obtain ⟨_, hswap, h⟩ := Run.bind_eq_ok.mp h
  obtain ⟨expected, hexpected, h⟩ := Run.bind_eq_ok.mp h
  obtain ⟨fixed, hfixed, h⟩ := Run.bind_eq_ok.mp h
  obtain ⟨requested, hrequested, h⟩ := Run.bind_eq_ok.mp h
  obtain ⟨_, hamount, h⟩ := Run.bind_eq_ok.mp h
  obtain ⟨amountIn, hamountIn, h⟩ := Run.bind_eq_ok.mp h
  obtain ⟨_, hformattedIn, h⟩ := Run.bind_eq_ok.mp h
  obtain ⟨amountOut, hamountOut, h⟩ := Run.bind_eq_ok.mp h
  obtain ⟨_, hformattedOut, h⟩ := Run.bind_eq_ok.mp h
  obtain ⟨_, hslippage, h⟩ := Run.bind_eq_ok.mp h
  obtain ⟨hrequestedEq, hfixedEq⟩ := Run.ensure_eq_ok.mp hamount
  obtain ⟨hrefundTo, hrecipient⟩ := Run.ensure_eq_ok.mp h
  subst hrequestedEq
  refine ⟨?_, ⟨requested, parseBigInt_eq_ok.mp hexpected, parseBaseUnits_eq_ok hrequested, ?_⟩,
    ⟨amountIn, formatted_of_eq_ok hamountIn hformattedIn⟩,
    ⟨amountOut, formatted_of_eq_ok hamountOut hformattedOut⟩,
    Run.ensure_eq_ok.mp hslippage, hrefundTo, hrecipient⟩
  · have hmatches := Run.ensure_eq_ok.mp hswap
    cases hraw : response.quoteRequest.swapTypeRaw with
    | none =>
      simp only [hraw, decide_eq_true_eq] at hmatches
      apply hmatches.symm
    | some swapTypeRaw =>
      simp only [hraw, decide_eq_true_eq] at hmatches
      apply hmatches
  · intro hflexible
    rcases hfixedEq with hflexible' | rfl
    · simp [hflexible] at hflexible'
    · apply parseBaseUnits_eq_ok hfixed

/-! ### What is returned -/

/-- A quote is bound to what was sent, and what is shown of it to what came back. -/
structure Bound (p : UpperCase) (request : SwapQuoteRequest) (prepared : PreparedQuote)
    (response : OneClickQuoteResponse) (quote : SwapQuote) : Prop where
  swapType : response.quoteRequest.swapTypeRaw.elim (prepared.body.swapType = text "EXACT_INPUT")
    fun swapTypeRaw => p.toUpperCase (trim swapTypeRaw) = prepared.body.swapType
  slippage : response.quoteRequest.slippageToleranceBps = some prepared.body.slippageTolerance
  refundTo : response.quoteRequest.refundTo.map trim = some prepared.body.refundTo
  recipient : response.quoteRequest.recipient.map trim = some prepared.body.recipient
  amount : ∃ units, tryParseBigInt prepared.body.amount = some units
    ∧ response.quoteRequest.amount.bind tryParseBigInt = some units
    ∧ (allowsFlexibleQuotedAmount request prepared.mode = false →
        (if prepared.mode.usesInputAmount then response.quote.amountIn
          else response.quote.amountOut).bind tryParseBigInt = some units)
    ∧ ∀ typed ∈ request.amountText, ReadsExactly typed prepared.amountToken.decimals →
        Denotes typed prepared.amountToken.decimals units
  deposited : response.quote.amountIn.bind tryParseBigInt = some quote.sellAmountBaseUnits
  sellText : ∃ shown, quote.sellAmountTextOverride = shown ++ text " " ++ request.sellAsset.symbol
    ∧ (ReadsExactly response.quote.amountInFormatted prepared.sellToken.decimals →
        KeepsWhenTrimmed response.quote.amountInFormatted →
          Denotes shown prepared.sellToken.decimals quote.sellAmountBaseUnits)
  receiveText : ∃ shown units,
    quote.receiveEstimateTextOverride = shown ++ text " " ++ request.receiveAsset.symbol
    ∧ response.quote.amountOut.bind tryParseBigInt = some units
    ∧ (ReadsExactly response.quote.amountOutFormatted prepared.receiveToken.decimals →
        KeepsWhenTrimmed response.quote.amountOutFormatted →
          Denotes shown prepared.receiveToken.decimals units)

/-- What was prepared for a request carries the amount that was typed. -/
theorem prepareQuote_eq_ok {adapter : Adapter} {request : SwapQuoteRequest}
    {prepared : PreparedQuote} (h : prepareQuote adapter request = .ok prepared) :
  prepared.body.swapType = prepared.mode.oneClickSwapType
    ∧ ∀ typed ∈ request.amountText,
        decimalStringToBaseUnits typed prepared.amountToken.decimals = .ok prepared.body.amount
  := by
  unfold prepareQuote at h
  obtain ⟨_, -, h⟩ := Run.bind_eq_ok.mp h
  obtain ⟨amountText, htext, h⟩ := Run.bind_eq_ok.mp h
  obtain ⟨sellToken, -, h⟩ := Run.bind_eq_ok.mp h
  obtain ⟨receiveToken, -, h⟩ := Run.bind_eq_ok.mp h
  obtain ⟨units, hunits, h⟩ := Run.bind_eq_ok.mp h
  obtain rfl := Except.ok.inj h
  refine ⟨rfl, ?_⟩
  intro typed htyped
  have htrim : amountText = trim typed := by
    rw [Option.mem_def] at htyped
    rw [requiredQuoteAmountText, htyped, Option.map_some] at htext
    split at htext
    · cases htext
    · cases htext
    · rename_i amountText' heq
      rw [← Except.ok.inj htext]
      apply (Option.some.inj heq).symm
  rw [← decimalStringToBaseUnits_trim, ← htrim]
  apply toBaseUnits_eq_ok hunits

theorem quoteFromOneClick_eq_ok {request : SwapQuoteRequest} {mode : SwapQuoteMode}
    {response : OneClickQuoteResponse} {result : SwapQuote}
    (h : quoteFromOneClick request mode response = .ok result) :
  response.quote.amountIn.bind tryParseBigInt = some result.sellAmountBaseUnits
    ∧ result.sellAmountTextOverride
        = swapTrimDecimal response.quote.amountInFormatted ++ text " " ++ request.sellAsset.symbol
    ∧ result.receiveEstimateTextOverride
        = swapTrimDecimal response.quote.amountOutFormatted ++ text " "
            ++ request.receiveAsset.symbol
  := by
  unfold quoteFromOneClick at h
  obtain ⟨_, -, h⟩ := Run.bind_eq_ok.mp h
  obtain ⟨_, -, h⟩ := Run.bind_eq_ok.mp h
  obtain ⟨units, hunits, h⟩ := Run.bind_eq_ok.mp h
  obtain rfl := Except.ok.inj h
  exact ⟨parseBaseUnits_eq_ok hunits, rfl, rfl⟩

/-- Every quote that is returned is bound to what was sent, whatever the service answers. -/
theorem bound_of_quote (p : UpperCase) (adapter : Adapter)
    (post : QuoteBody → Except String OneClickQuoteResponse) (request : SwapQuoteRequest)
    {result : SwapQuote} (h : quote p adapter post request = .ok result) :
  ∃ prepared response, prepareQuote adapter request = .ok prepared
    ∧ post prepared.body = .ok response ∧ Bound p request prepared response result
  := by
  unfold quote at h
  obtain ⟨prepared, hprepared, h⟩ := Run.bind_eq_ok.mp h
  obtain ⟨response, hresponse, h⟩ := Run.bind_eq_ok.mp h
  obtain ⟨_, hvalid, h⟩ := Run.bind_eq_ok.mp h
  have hmatches := matches_of_eq_ok hvalid
  obtain ⟨hswapType, htyped⟩ := prepareQuote_eq_ok hprepared
  obtain ⟨hdeposited, hsell, hreceive⟩ := quoteFromOneClick_eq_ok h
  obtain ⟨units, hsent, hechoed, hfixed⟩ := hmatches.amount
  obtain ⟨amountIn, hamountIn⟩ := hmatches.amountIn
  obtain ⟨amountOut, hamountOut⟩ := hmatches.amountOut
  have hamount : amountIn = result.sellAmountBaseUnits :=
    Option.some.inj (hamountIn.reported.symm.trans hdeposited)
  refine ⟨prepared, response, hprepared, hresponse, ?_⟩
  constructor
  · have hmode := hmatches.swapType
    rw [hswapType]
    cases hraw : response.quoteRequest.swapTypeRaw with
    | none =>
      rw [hraw, Option.elim_none] at hmode
      rw [Option.elim_none, hmode]
      rfl
    | some swapTypeRaw =>
      rw [hraw, Option.elim_some] at hmode
      apply hmode
  · apply hmatches.slippage
  · apply hmatches.refundTo
  · apply hmatches.recipient
  · refine ⟨units, hsent, hechoed, hfixed, ?_⟩
    intro typed hmem hexact
    apply denotes_of_eq_ok prepared.amountToken.inRange.2 hexact (htyped typed hmem) hsent
  · apply hdeposited
  · refine ⟨_, hsell, ?_⟩
    intro hexact hkeeps
    rw [← hamount]
    apply (hamountIn.denotes hexact).swapTrimDecimal hkeeps
  · refine ⟨_, amountOut, hreceive, hamountOut.reported, ?_⟩
    intro hexact hkeeps
    apply (hamountOut.denotes hexact).swapTrimDecimal hkeeps

/-! ### Another asset in the response -/

/-- ZEC and a token with six decimals, whose identifiers are those of the service. -/
def zecAndUsdc : Adapter where
  slippageBps := 100
  quoteDeadline := 7200
  quoteWaitingTimeMs := 3000
  referral := none
  tokenFor asset :=
    if asset = .zec then some ⟨text "nep141:zec.omft.near", 8, by decide⟩
    else some ⟨text "nep141:usdc.example", 6, by decide⟩
  deadlineIso _ := text "2026-05-07T12:00:00Z"

/-- One and a half ZEC for the token. -/
def zecForUsdc : SwapQuoteRequest where
  direction := .zecToExternal
  externalAsset := ⟨text "usdc", text "USDC"⟩
  mode := .exactInput
  amount := some (3 / 2)
  amountText := some (text "1.5")
  destination := text "0xrecipient"
  refundAddress := some (text "u1refund")
  dryRun := false
  slippageBps := none
  deadline := none

/-- A response that repeats everything but the asset that is bought. -/
def answerWithWrap (body : QuoteBody) : Except String OneClickQuoteResponse :=
  .ok {
    correlationId := text "quote-1"
    quoteRequest := {
      originAsset := body.originAsset
      destinationAsset := text "nep141:wrap.near"
      swapTypeRaw := some body.swapType
      amount := some body.amount
      refundTo := some body.refundTo
      recipient := some body.recipient
      slippageToleranceBps := some body.slippageTolerance }
    quote := {
      amountIn := some body.amount
      amountInFormatted := text "1.5"
      amountOut := some (text "1250000")
      amountOutFormatted := text "1.25"
      depositAddress := some (text "t1deposit")
      depositMemo := none } }

/-- What is shown of that response. -/
def wrapQuote : SwapQuote where
  direction := .zecToExternal
  sellAsset := .zec
  receiveAsset := ⟨text "usdc", text "USDC"⟩
  externalAsset := ⟨text "usdc", text "USDC"⟩
  mode := .exactInput
  depositAddress := text "t1deposit"
  depositMemo := none
  providerQuoteId := text "quote-1"
  sellAmountBaseUnits := 150000000
  sellAmountTextOverride := text "1.5 ZEC"
  receiveEstimateTextOverride := text "1.25 USDC"

theorem bound_of_quote_wrap :
  ∃ prepared response, prepareQuote zecAndUsdc zecForUsdc = .ok prepared
    ∧ answerWithWrap prepared.body = .ok response
    ∧ Bound .onAscii zecForUsdc prepared response wrapQuote
  := by
  apply bound_of_quote .onAscii zecAndUsdc answerWithWrap zecForUsdc
  decide +kernel

/-- A quote is returned although the response repeats another asset than the one that was sent. -/
theorem quote_of_other_asset :
  quote .onAscii zecAndUsdc answerWithWrap zecForUsdc = .ok wrapQuote
    ∧ ∃ prepared response, prepareQuote zecAndUsdc zecForUsdc = .ok prepared
        ∧ answerWithWrap prepared.body = .ok response
        ∧ response.quoteRequest.destinationAsset ≠ prepared.body.destinationAsset
  := by
  refine ⟨by decide +kernel, ?_⟩
  cases hprepared : prepareQuote zecAndUsdc zecForUsdc with
  | error e =>
    have hok : (prepareQuote zecAndUsdc zecForUsdc).isOk = true := by decide +kernel
    rw [hprepared] at hok
    cases hok
  | ok prepared =>
    refine ⟨prepared, _, rfl, rfl, ?_⟩
    have hsent : (prepareQuote zecAndUsdc zecForUsdc).map (·.body.destinationAsset)
        = .ok (text "nep141:usdc.example") := by decide +kernel
    rw [hprepared] at hsent
    have hasset : prepared.body.destinationAsset = text "nep141:usdc.example" :=
      Except.ok.inj hsent
    have hne : text "nep141:wrap.near" ≠ text "nep141:usdc.example" := by decide +kernel
    rw [hasset]
    apply hne

end Swap

end Vizor
