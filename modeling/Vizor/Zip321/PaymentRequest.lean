import Mathlib.Data.List.Sort
import Mathlib.Data.List.SplitOn
import Mathlib.Order.WithBot
import Vizor.AddressBook.Contacts
import Vizor.Lib.Base64
import Vizor.Lib.Decimals
import Vizor.Lib.Utf16
import Vizor.Lib.Run

/-!
# Reading payment links

A payment link has an address and parameters, which belong to one payment or, by the index in
their names, to one of several.  Amounts and memos are checked while they are read, and requests
that are well formed but ask for something else than one payment with a text are marked as
unsupported.
-/

namespace Vizor

open AddressBook (Text text trim lowerAscii)
open scoped AddressBook

namespace Zip321

/-! ### Requests -/

structure Zip321Payment where
  address : Text
  amount : Option Text
  label : Option Text
  message : Option Text
  memoBase64Url : Option Text
  memoText : Option Text
  memoIsBinary : Bool
  reqAssetBase64Url : Option Text
  deriving DecidableEq, Repr

structure Zip321PaymentRequest where
  payments : List Zip321Payment
  unsupportedReason : Option String
  deriving DecidableEq, Repr

def Zip321PaymentRequest.isSupported (request : Zip321PaymentRequest) : Bool :=
  request.unsupportedReason = none

/-- What is known of the payment with an index. -/
structure PaymentBuilder where
  index : Text
  address : Option Text := none
  amount : Option Text := none
  label : Option Text := none
  message : Option Text := none
  memo : Option Text := none
  memoText : Option Text := none
  memoIsBinary : Bool := false
  reqAsset : Option Text := none
  deriving DecidableEq, Repr

/-- The nearest double to a number, or infinity.  Rounding keeps the order, and integers of 53
bits are doubles. -/
structure Doubles where
  nearest : Rat → WithTop Rat
  mono : Monotone nearest
  exact : ∀ n : Nat, n ≤ 9007199254740992 → nearest n = ((n : Rat) : WithTop Rat)

/-- Numbers without rounding. -/
def Doubles.unrounded : Doubles where
  nearest q := q
  mono _ _ h := WithTop.coe_le_coe.mpr h
  exact _ _ := rfl

/-! ### Checks of texts -/

def isAlphanumeric (c : Nat) : Bool :=
  65 ≤ c && c ≤ 90 || 97 ≤ c && c ≤ 122 || 48 ≤ c && c ≤ 57

/-- Some letters and digits, and nothing else. -/
def isAddressText (t : Text) : Bool :=
  t ≠ [] && t.all isAlphanumeric

/-- A text in an error, cut after 32 code units. -/
def echoSafe (value : Text) : Text :=
  if value.length ≤ 32 then value else value.take 32 ++ [0x2026]

def validateAddress (value : Text) : Except Text Unit :=
  Run.ensure (isAddressText value) (text "Invalid ZIP-321 payment address.")

/-- The digits of an amount, of which one to eight come after a point. -/
def parseAmountDigits (value : Text) : Option (Text × Text) :=
  let whole := value.takeWhile Decimals.isDigit
  if whole = [] then none
  else match value.dropWhile Decimals.isDigit with
  | [] => some (whole, [])
  | 46 :: fraction =>
    if Decimals.IsDigits fraction ∧ 1 ≤ fraction.length ∧ fraction.length ≤ 8 then
      some (whole, fraction)
    else none
  | _ => none

def validateAmount (d : Doubles) (value : Text) : Except Text Unit := do
  Run.ensure (37 ∉ value) (text "ZIP-321 amount must not be percent-encoded.")
  let (whole, fraction) ← Run.okOr (parseAmountDigits value) (text "Invalid ZIP-321 ZEC amount.")
  let parsed := d.nearest ((Decimals.value (whole ++ fraction) : Rat) / 10 ^ fraction.length)
  Run.ensure (parsed ≤ ((21000000 : Rat) : WithTop Rat))
    (text "ZIP-321 amount exceeds the ZEC supply.")

def validateBase64Url (value : Text) (label : Text) : Except Text Unit :=
  Run.ensure (∀ c ∈ value, Base64.IsDigit c)
    (label ++ text " must be base64url without padding.")

/-! ### Memos -/

def bidiControlCodePoints : List Nat := [
  0x061C, 0x200E, 0x200F, 0x202A, 0x202B, 0x202C, 0x202D, 0x202E, 0x2066, 0x2067, 0x2068, 0x2069]

def isUnsupportedMemoCodePoint (codePoint : Nat) : Bool :=
  if codePoint ∈ bidiControlCodePoints then true
  else if codePoint < 0x20 then codePoint ≠ 0x09 && codePoint ≠ 0x0A && codePoint ≠ 0x0D
  else 0x7F ≤ codePoint && codePoint ≤ 0x9F

def containsUnsupportedMemoText (value : Text) : Bool :=
  (Utf16.runes value).any isUnsupportedMemoCodePoint

def zip321MemoTextIsSupported (memoText : Text) : Bool :=
  !containsUnsupportedMemoText memoText

/-- The memo that says nothing: the byte `0xF6` and zeros. -/
def isEmptyZip302Memo : List UInt8 → Bool
  | 0xF6 :: rest => rest.all (· = 0)
  | _ => false

def stripTrailingMemoPadding (bytes : List UInt8) : List UInt8 :=
  bytes.rdropWhile (· = 0)

def decodeBase64UrlBytes (value label : Text) : Except Text (List UInt8) :=
  Run.okOr
    (Base64.decode (value ++ List.replicate ((4 - value.length % 4) % 4) Base64.padding))
    (label ++ text " is not valid base64url.")

/-- The text of a memo, and whether its bytes are no text. -/
def parseMemo (value : Text) : Except Text (Option Text × Bool) := do
  validateBase64Url value (text "memo")
  Run.ensure (value.length ≤ 684) (text "ZIP-321 memo exceeds 512 bytes.")
  let bytes ← decodeBase64UrlBytes value (text "memo")
  Run.ensure (bytes.length ≤ 512) (text "ZIP-321 memo exceeds 512 bytes.")
  if isEmptyZip302Memo bytes then .ok (none, false)
  else match Utf16.decodeUtf8 (stripTrailingMemoPadding bytes) with
  | none => .ok (none, true)
  | some memoText =>
    if containsUnsupportedMemoText memoText then
      .error (text "ZIP-321 memo contains unsupported control characters.")
    else .ok (some memoText, false)

/-! ### Percent encoding -/

def hexDigitValue (c : Nat) : Option Nat :=
  if 48 ≤ c ∧ c ≤ 57 then some (c - 48)
  else if 65 ≤ c ∧ c ≤ 70 then some (c - 55)
  else if 97 ≤ c ∧ c ≤ 102 then some (c - 87)
  else none

/-- The bytes of a text with percent encoding; there is nothing else than ASCII in it. -/
def percentDecode : Text → Option (List UInt8)
  | 37 :: high :: low :: rest => do
    return UInt8.ofNat ((← hexDigitValue high) * 16 + (← hexDigitValue low))
      :: (← percentDecode rest)
  | c :: rest => if c = 37 ∨ 127 < c then none else (percentDecode rest).map (UInt8.ofNat c :: ·)
  | [] => some []

/-- `Uri.decodeComponent`: a text of ASCII without percent signs is left as it is. -/
def decodeComponent (value : Text) : Option Text :=
  if ∀ c ∈ value, c ≤ 127 ∧ c ≠ 37 then some value
  else (percentDecode value).bind Utf16.decodeUtf8

def decodeQChar (value label : Text) : Except Text Text :=
  Run.okOr (decodeComponent value)
    (text "Invalid percent encoding in " ++ echoSafe label ++ text ".")

/-! ### Parameters -/

def isNameCharacter (c : Nat) : Bool :=
  isAlphanumeric c || c = 43 || c = 45

/-- An index has up to four digits and does not begin with a zero. -/
def isIndex (t : Text) : Bool :=
  Decimals.IsDigits t ∧ t ≠ [] ∧ t.head? ≠ some 48 ∧ t.length ≤ 4

/-- The name and the index of a parameter. -/
def parseParamName (rawName : Text) : Except Text (Text × Text) :=
  if 37 ∈ rawName then .error (text "ZIP-321 parameter names must not be percent-encoded.")
  else
    let name := rawName.takeWhile isNameCharacter
    let startsWithLetter := name.head?.any fun c => isAlphanumeric c && !Decimals.isDigit c
    match rawName.dropWhile isNameCharacter with
    | [] =>
      if startsWithLetter then .ok (name, []) else .error (text "Invalid ZIP-321 parameter name.")
    | 46 :: index =>
      if startsWithLetter && isIndex index then .ok (name, index)
      else .error (text "Invalid ZIP-321 parameter name.")
    | _ => .error (text "Invalid ZIP-321 parameter name.")

def recognizedParamNames : List Text :=
  [text "address", text "amount", text "label", text "message", text "memo", text "req-asset"]

/-- What a recognized parameter says about a payment. -/
def setParam (d : Doubles) (name value : Text) (builder : PaymentBuilder) :
    Except Text PaymentBuilder := do
  if name = text "address" then
    validateAddress value
    .ok { builder with address := some value }
  else if name = text "amount" then
    validateAmount d value
    .ok { builder with amount := some value }
  else if name = text "label" then
    .ok { builder with label := some (← decodeQChar value (text "label")) }
  else if name = text "message" then
    .ok { builder with message := some (← decodeQChar value (text "message")) }
  else if name = text "memo" then
    let memo ← parseMemo value
    .ok { builder with memo := some value, memoText := memo.1, memoIsBinary := memo.2 }
  else
    validateBase64Url value (text "req-asset")
    .ok { builder with reqAsset := some value }

/-- The payments in the order in which they came up, and the parameters that were there. -/
structure ParseState where
  builders : List PaymentBuilder
  seenKeys : List Text
  hasCustomAsset : Bool
  deriving DecidableEq, Repr

def builderFor (builders : List PaymentBuilder) (index : Text) : PaymentBuilder :=
  (builders.find? (·.index = index)).getD { index := index }

/-- A payment in the place of that with its index, or at the end. -/
def putBuilder (builders : List PaymentBuilder) (builder : PaymentBuilder) : List PaymentBuilder :=
  if builders.any (·.index = builder.index) then
    builders.map fun b => if b.index = builder.index then builder else b
  else builders ++ [builder]

def parseParam (d : Doubles) (s : ParseState) (rawParam : Text) : Except Text ParseState :=
  if rawParam = [] then .ok s
  else do
    let rawName := rawParam.takeWhile (· ≠ 61)
    let rawValue := (rawParam.dropWhile (· ≠ 61)).tail
    let (name, index) ← parseParamName rawName
    let seenKey := name ++ text ":" ++ index
    if name ∉ recognizedParamNames then
      if text "req-" <+: name then
        .error (text "Required ZIP-321 parameter " ++ echoSafe name ++ text " is not supported.")
      else .ok s
    else if seenKey ∈ s.seenKeys then
      .error (text "Duplicate " ++ echoSafe name ++ text " parameter.")
    else
      let builder ← setParam d name rawValue (builderFor s.builders index)
      .ok {
        builders := putBuilder s.builders builder
        seenKeys := s.seenKeys ++ [seenKey]
        hasCustomAsset := s.hasCustomAsset || name = text "req-asset" }

/-! ### The request -/

def isTransparentAddress (address : Text) : Bool :=
  address.head? = some 116

def indexSortValue (index : Text) : Nat :=
  if index = [] then 0 else Decimals.value index

def PaymentBuilder.build (builder : PaymentBuilder) : Except Text Zip321Payment :=
  match builder.address with
  | none => .error (text "Each ZIP-321 payment must include an address.")
  | some address => do
    Run.ensure (¬ (builder.amount.isSome ∧ builder.reqAsset.isSome))
      (text "A ZIP-321 payment cannot include both amount and req-asset.")
    Run.ensure (¬ (builder.memo.isSome ∧ isTransparentAddress address))
      (text "Transparent ZIP-321 payments cannot include a memo.")
    .ok {
      address := address
      amount := builder.amount
      label := builder.label
      message := builder.message
      memoBase64Url := builder.memo
      memoText := builder.memoText
      memoIsBinary := builder.memoIsBinary
      reqAssetBase64Url := builder.reqAsset }

/-- The scheme and its colon, in any case; only ASCII letters have one of these as lower case. -/
def startsWithScheme (t : Text) : Bool :=
  (t.take 6).map lowerAscii = text "zcash:"

def kMaxPaymentUriLength : Nat := 16384

/-- What the payments are read into before the parameters are. -/
def parseAddressPart (addressPart : Text) : Except Text ParseState :=
  if addressPart = [] then .ok ⟨[], [], false⟩
  else do
    validateAddress addressPart
    .ok ⟨[{ index := [], address := some addressPart }], [text "address:"], false⟩

def unsupportedReason (payments : List Zip321Payment) (hasCustomAsset : Bool) : Option String :=
  if 1 < payments.length then
    some "Multiple-recipient ZIP-321 requests are parsed but not supported yet."
  else if payments.any (·.memoIsBinary) then
    some "Binary ZIP-321 memos are parsed but not supported yet."
  else if hasCustomAsset then
    some "Custom asset ZIP-321 requests are parsed but not supported yet."
  else none

def parse (d : Doubles) (input : Text) : Except Text Zip321PaymentRequest := do
  Run.ensure (¬ (kMaxPaymentUriLength < input.length
      ∨ kMaxPaymentUriLength < (Utf16.encodeUtf8 input).length))
    (text "Payment link is too long.")
  let trimmed := trim input
  Run.ensure (trimmed ≠ []) (text "Paste a zcash: payment URI.")
  Run.ensure (startsWithScheme trimmed) (text "ZIP-321 requests must start with zcash:.")
  let body := (trimmed.dropWhile (· ≠ 58)).tail
  Run.ensure (¬ text "//" <+: body) (text "ZIP-321 URIs must not include //.")
  let addressPart := body.takeWhile (· ≠ 63)
  let query := (body.dropWhile (· ≠ 63)).tail
  let s ← parseAddressPart addressPart
  let s ← (query.splitOn 38).foldlM (parseParam d) s
  Run.ensure (s.builders ≠ []) (text "ZIP-321 request has no payment address.")
  let payments ← (s.builders.insertionSort fun a b =>
    indexSortValue a.index ≤ indexSortValue b.index).mapM PaymentBuilder.build
  .ok ⟨payments, unsupportedReason payments s.hasCustomAsset⟩

end Zip321

end Vizor
