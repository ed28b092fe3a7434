import Vizor.Swap.TrimmedAmounts
import Vizor.Lib.Run

/-!
# Quotes of the swap service

A quote is asked for with a request, which the service repeats in its response together with the
quote.  The response is compared with what was sent before the quote is shown: its amounts come
once in base units and once as formatted texts, of which the first is paid later and the second
is shown.  The assets of the response are not compared, because the service names them in several
ways.
-/

namespace Vizor

open AddressBook (Text text trim isWhitespace lowerAscii)

namespace Swap

/-! ### Requests -/

inductive SwapDirection where
  | zecToExternal
  | externalToZec
  deriving DecidableEq, Repr

inductive SwapQuoteMode where
  | exactInput
  | exactOutput
  | flexInput
  deriving DecidableEq, Repr

namespace SwapQuoteMode

def oneClickSwapType : SwapQuoteMode → Text
  | exactInput => text "EXACT_INPUT"
  | exactOutput => text "EXACT_OUTPUT"
  | flexInput => text "FLEX_INPUT"

def usesInputAmount (mode : SwapQuoteMode) : Bool :=
  mode ≠ exactOutput

end SwapQuoteMode

structure SwapAsset where
  name : Text
  symbol : Text
  deriving DecidableEq, Repr

def SwapAsset.zec : SwapAsset :=
  ⟨text "zec", text "ZEC"⟩

namespace SwapDirection

def fromAsset (direction : SwapDirection) (externalAsset : SwapAsset) : SwapAsset :=
  if direction = zecToExternal then .zec else externalAsset

def toAsset (direction : SwapDirection) (externalAsset : SwapAsset) : SwapAsset :=
  if direction = zecToExternal then externalAsset else .zec

end SwapDirection

/-- A token that the service lists. -/
structure OneClickToken where
  assetId : Text
  decimals : Int
  inRange : InRange64 decimals
  deriving DecidableEq

/-- What is asked for.  The amount is missing when it is not a finite number. -/
structure SwapQuoteRequest where
  direction : SwapDirection
  externalAsset : SwapAsset
  mode : SwapQuoteMode
  amount : Option Rat
  amountText : Option Text
  destination : Text
  refundAddress : Option Text
  dryRun : Bool
  slippageBps : Option Int
  deadline : Option Nat
  deriving DecidableEq

/-- The settings of the adapter, with the tokens that the service lists and the clock. -/
structure Adapter where
  slippageBps : Int
  quoteDeadline : Nat
  quoteWaitingTimeMs : Int
  referral : Option Text
  tokenFor : SwapAsset → Option OneClickToken
  deadlineIso : Nat → Text

/-- What is posted.  The kinds of deposit, refund and recipient and the mode of deposit are
always the same. -/
structure QuoteBody where
  dry : Bool
  swapType : Text
  slippageTolerance : Int
  originAsset : Text
  destinationAsset : Text
  amount : Text
  refundTo : Text
  recipient : Text
  deadline : Text
  quoteWaitingTimeMs : Int
  referral : Option Text
  deriving DecidableEq

/-! ### Responses -/

/-- The effect of `String.toUpperCase`, of which only its effect on ASCII strings is known. -/
structure UpperCase where
  toUpperCase : Text → Text
  ascii : ∀ t : Text, (∀ c ∈ t, c < 128) →
    toUpperCase t = t.map fun c => if 97 ≤ c ∧ c ≤ 122 then c - 32 else c

def UpperCase.onAscii : UpperCase where
  toUpperCase t := t.map fun c => if 97 ≤ c ∧ c ≤ 122 then c - 32 else c
  ascii _ _ := rfl

/-- The request as the response repeats it. -/
structure OneClickQuoteRequest where
  originAsset : Text
  destinationAsset : Text
  swapTypeRaw : Option Text
  amount : Option Text
  refundTo : Option Text
  recipient : Option Text
  slippageToleranceBps : Option Int
  deriving DecidableEq

structure OneClickQuote where
  amountIn : Option Text
  amountInFormatted : Text
  amountOut : Option Text
  amountOutFormatted : Text
  depositAddress : Option Text
  depositMemo : Option Text
  deriving DecidableEq

structure OneClickQuoteResponse where
  correlationId : Text
  quoteRequest : OneClickQuoteRequest
  quote : OneClickQuote
  deriving DecidableEq

/-- The quote that is shown. -/
structure SwapQuote where
  direction : SwapDirection
  sellAsset : SwapAsset
  receiveAsset : SwapAsset
  externalAsset : SwapAsset
  mode : SwapQuoteMode
  depositAddress : Text
  depositMemo : Option Text
  providerQuoteId : Text
  sellAmountBaseUnits : Int
  sellAmountTextOverride : Text
  receiveEstimateTextOverride : Text
  deriving DecidableEq

def oneClickSwapMode (p : UpperCase) (value : Option Text) : SwapQuoteMode :=
  match value.map fun value => p.toUpperCase (trim value) with
  | some value =>
    if value = text "EXACT_OUTPUT" then .exactOutput
    else if value = text "FLEX_INPUT" then .flexInput
    else .exactInput
  | none => .exactInput

/-! ### Numbers in texts -/

/-- The number that digits without a sign stand for: after `0x` they are hexadecimal. -/
def parseMagnitude : Text → Option Nat
  | 48 :: 120 :: hex | 48 :: 88 :: hex => (digitsOf hexDigit hex).map (Radix.value 16)
  | t =>
    (digitsOf (fun c => if Decimals.isDigit c then some (c - 48) else none) t).map (Radix.value 10)

/-- White space of a regular expression. -/
def isRegExpSpace (c : Nat) : Bool :=
  isWhitespace c && c ≠ 0x85

/-- `BigInt.tryParse`. -/
def tryParseBigInt (t : Text) : Option Int :=
  let (negative, t) := splitSign ((t.dropWhile isRegExpSpace).rdropWhile isRegExpSpace)
  (parseMagnitude t).map fun n => if negative then -(n : Int) else n

/-- `BigInt.parse`. -/
def parseBigInt (t : Text) : Except String Int :=
  match tryParseBigInt t with
  | some n => .ok n
  | none => .error "Could not parse BigInt"

def parseBaseUnits (value : Option Text) (fieldName : String) : Except String Int :=
  match value with
  | none => .error s!"Missing {fieldName} amount"
  | some value =>
    match tryParseBigInt value with
    | none => .error s!"Invalid {fieldName} amount"
    | some parsed => if parsed < 0 then .error s!"Invalid {fieldName} amount" else .ok parsed

/-- The shape that a text would have. -/
def Shape.ofText (t : Text) : Shape :=
  let exponentParts := t.splitOn 101
  let parts := (exponentParts.headD []).splitOn 46
  ⟨parts.headD [], parts[1]?, exponentParts[1]?⟩

/-- Whether `double.tryParse` takes a text for a number. -/
def parsesAsDouble (t : Text) : Bool :=
  let (_, t) := splitSign (trim t)
  let shape := Shape.ofText (t.map lowerAscii)
  t = text "NaN" || t = text "Infinity"
    || shape.text = t.map lowerAscii && shape.digits ≠ [] && Decimals.IsDigits shape.digits
      && shape.exponent.all fun exponent => IsPlain exponent

def parseAmount (value : Text) (fieldName : String) : Except String Unit :=
  if parsesAsDouble value then .ok () else .error s!"Invalid amount field: {fieldName}"

def validateFormattedAmountMatchesBaseUnits (formatted : Text) (baseUnits decimals : Int)
    (fieldName : String) : Except String Unit := do
  let formattedBaseUnits ← parseBigInt (← decimalStringToBaseUnits formatted decimals)
  if formattedBaseUnits ≠ baseUnits then
    .error s!"Mismatched {fieldName} formatted and base-unit amounts"
  else .ok ()

/-! ### What is sent -/

namespace SwapQuoteRequest

def sellAsset (request : SwapQuoteRequest) : SwapAsset :=
  request.direction.fromAsset request.externalAsset

def receiveAsset (request : SwapQuoteRequest) : SwapAsset :=
  request.direction.toAsset request.externalAsset

end SwapQuoteRequest

def validateQuoteRequest (request : SwapQuoteRequest) : Except String Unit := do
  Run.ensure (∃ amount ∈ request.amount, 0 < amount) "Swap amount must be greater than zero"
  Run.ensure (trim request.destination ≠ []) "Recipient address is required"
  Run.ensure (∃ refundAddress ∈ request.refundAddress, trim refundAddress ≠ [])
    "Refund address is required"

/-- Of an asset that is sent from outside, any amount may arrive. -/
def oneClickQuoteModeForRequest (request : SwapQuoteRequest) : SwapQuoteMode :=
  if request.direction = .externalToZec ∧ request.mode = .exactInput then .flexInput
  else request.mode

def requiredQuoteAmountText (request : SwapQuoteRequest) : Except String Text :=
  match request.amountText.map trim with
  | none | some [] => .error "Quote amount text is required"
  | some amountText => .ok amountText

def requireToken (adapter : Adapter) (asset : SwapAsset) : Except String OneClickToken :=
  Run.okOr (adapter.tokenFor asset)
    ("NEAR Intents does not currently list " ++ String.ofList (asset.symbol.map Char.ofNat))

/-- The body of a request for a quote, with what its response is compared with. -/
structure PreparedQuote where
  mode : SwapQuoteMode
  sellToken : OneClickToken
  receiveToken : OneClickToken
  body : QuoteBody
  deriving DecidableEq

/-- The token of the side whose amount was typed. -/
def PreparedQuote.amountToken (prepared : PreparedQuote) : OneClickToken :=
  if prepared.mode.usesInputAmount then prepared.sellToken else prepared.receiveToken

def prepareQuote (adapter : Adapter) (request : SwapQuoteRequest) :
    Except String PreparedQuote := do
  validateQuoteRequest request
  let quoteMode := oneClickQuoteModeForRequest request
  let amountText ← requiredQuoteAmountText request
  let sellToken ← requireToken adapter request.sellAsset
  let receiveToken ← requireToken adapter request.receiveAsset
  let amountToken := if quoteMode.usesInputAmount then sellToken else receiveToken
  let amountBaseUnits ← toBaseUnits amountText amountToken.decimals
  .ok {
    mode := quoteMode
    sellToken := sellToken
    receiveToken := receiveToken
    body := {
      dry := request.dryRun
      swapType := quoteMode.oneClickSwapType
      slippageTolerance := request.slippageBps.getD adapter.slippageBps
      originAsset := sellToken.assetId
      destinationAsset := receiveToken.assetId
      amount := amountBaseUnits
      refundTo := trim (request.refundAddress.getD [])
      recipient := trim request.destination
      deadline := adapter.deadlineIso (request.deadline.getD adapter.quoteDeadline)
      quoteWaitingTimeMs := adapter.quoteWaitingTimeMs
      referral := adapter.referral.filter (· ≠ []) } }

/-! ### What comes back -/

def validateQuoteResponseRequest (p : UpperCase) (prepared : PreparedQuote)
    (allowFlexibleQuotedAmount : Bool) (response : OneClickQuoteResponse) : Except String Unit := do
  let expectedMode := prepared.mode
  let actual := response.quoteRequest
  let matchesSwapType : Bool := match actual.swapTypeRaw with
    | none => decide (oneClickSwapMode p actual.swapTypeRaw = expectedMode)
    | some swapTypeRaw => decide (p.toUpperCase (trim swapTypeRaw) = expectedMode.oneClickSwapType)
  Run.ensure matchesSwapType "1Click quote response did not match the requested route"
  let quote := response.quote
  let amountField := if expectedMode.usesInputAmount then quote.amountIn else quote.amountOut
  let amountFieldName := if expectedMode.usesInputAmount then "amountIn" else "amountOut"
  let expectedFixedAmount ← parseBigInt prepared.body.amount
  let responseFixedAmount ← parseBaseUnits amountField amountFieldName
  let requestFixedAmount ← parseBaseUnits actual.amount "quoteRequest.amount"
  Run.ensure (requestFixedAmount = expectedFixedAmount
      ∧ (allowFlexibleQuotedAmount ∨ responseFixedAmount = expectedFixedAmount))
    "1Click quote response did not match the requested amount"
  validateFormattedAmountMatchesBaseUnits quote.amountInFormatted
    (← parseBaseUnits quote.amountIn "amountIn") prepared.sellToken.decimals "amountIn"
  validateFormattedAmountMatchesBaseUnits quote.amountOutFormatted
    (← parseBaseUnits quote.amountOut "amountOut") prepared.receiveToken.decimals "amountOut"
  Run.ensure (actual.slippageToleranceBps = some prepared.body.slippageTolerance)
    "1Click quote response did not match the requested slippage"
  Run.ensure (actual.refundTo.map trim = some prepared.body.refundTo
      ∧ actual.recipient.map trim = some prepared.body.recipient)
    "1Click quote response did not match the requested addresses"

def placeholderDepositAddress : Text :=
  text "quote-placeholder-deposit"

def quoteFromOneClick (request : SwapQuoteRequest) (mode : SwapQuoteMode)
    (response : OneClickQuoteResponse) : Except String SwapQuote := do
  let quote := response.quote
  parseAmount quote.amountInFormatted "amountIn"
  parseAmount quote.amountOutFormatted "amountOut"
  .ok {
    direction := request.direction
    sellAsset := request.sellAsset
    receiveAsset := request.receiveAsset
    externalAsset := request.externalAsset
    mode := mode
    depositAddress := quote.depositAddress.getD placeholderDepositAddress
    depositMemo := quote.depositMemo
    providerQuoteId := response.correlationId
    sellAmountBaseUnits := ← parseBaseUnits quote.amountIn "amountIn"
    sellAmountTextOverride :=
      swapTrimDecimal quote.amountInFormatted ++ text " " ++ request.sellAsset.symbol
    receiveEstimateTextOverride :=
      swapTrimDecimal quote.amountOutFormatted ++ text " " ++ request.receiveAsset.symbol }

/-- The quoted amount may be another one than what was typed. -/
def allowsFlexibleQuotedAmount (request : SwapQuoteRequest) (mode : SwapQuoteMode) : Bool :=
  request.direction = .externalToZec ∧ mode = .flexInput

/-- A quote for a request, where `post` is what the service makes of a body. -/
def quote (p : UpperCase) (adapter : Adapter)
    (post : QuoteBody → Except String OneClickQuoteResponse) (request : SwapQuoteRequest) :
    Except String SwapQuote := do
  let prepared ← prepareQuote adapter request
  let response ← post prepared.body
  validateQuoteResponseRequest p prepared (allowsFlexibleQuotedAmount request prepared.mode)
    response
  quoteFromOneClick request prepared.mode response

end Swap

end Vizor
