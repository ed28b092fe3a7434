import Vizor.Lib.Radix
import Vizor.Lib.Run

/-!
# Wcash addresses

A Wcash address has a network and a kind: a container of receivers, a hash for a transparent
output, or a hash that only transparent inputs may pay.  Containers and the last kind are
written in Bech32m with a human-readable part for each network, the others in Base58Check
with two version bytes.  A parser tries the three encodings in turn.
-/

namespace Vizor

open Radix Run

namespace Address

/-- A string. -/
abbrev Text := List Char

/-- There are symbols of five bits. -/
scoped instance neZero_symbols : NeZero 32 := ⟨by decide⟩

/-- The networks. -/
inductive NetworkType where
  | main
  | test
  | regtest
  deriving DecidableEq, Repr

/-- Why a string is not parsed. -/
inductive WcashAddressParseError where
  | notWcash
  | invalidEncoding (part : String)
  | invalidUnified (message : String)
  | missingIronwoodReceiver
  | unsupportedReceiver (pool : String)
  deriving DecidableEq, Repr

/-! ### Namespaces -/

/-- The human-readable part of containers. -/
def unifiedHrp : NetworkType → Text
  | .main => ['w', 'u']
  | .test => ['w', 'u', 't', 'e', 's', 't']
  | .regtest => ['w', 'u', 'r', 'e', 'g', 't', 'e', 's', 't']

/-- The network of a human-readable part of containers. -/
def unifiedNetwork (hrp : Text) : Option NetworkType :=
  [NetworkType.main, .test, .regtest].find? fun network => unifiedHrp network = hrp

/-- The human-readable part of addresses for transparent inputs only. -/
def texHrp : NetworkType → Text
  | .main => ['w', 't', 'e', 'x']
  | .test => ['w', 't', 'e', 'x', 't', 'e', 's', 't']
  | .regtest => ['w', 't', 'e', 'x', 'r', 'e', 'g', 't', 'e', 's', 't']

/-- The network of a human-readable part of addresses for transparent inputs only. -/
def texNetwork (hrp : Text) : Option NetworkType :=
  [NetworkType.main, .test, .regtest].find? fun network => texHrp network = hrp

/-- The version bytes of public-key hashes. -/
def p2pkhVersion : NetworkType → UInt8 × UInt8
  | .main => (0x10, 0x55)
  | .test => (0x10, 0x95)
  | .regtest => (0x10, 0x90)

/-- The network of version bytes of public-key hashes. -/
def p2pkhNetwork (version : UInt8 × UInt8) : Option NetworkType :=
  [NetworkType.main, .test, .regtest].find? fun network => p2pkhVersion network = version

/-- The version bytes of script hashes. -/
def p2shVersion : NetworkType → UInt8 × UInt8
  | .main => (0x10, 0x5a)
  | .test => (0x10, 0x98)
  | .regtest => (0x10, 0x93)

/-- The network of version bytes of script hashes. -/
def p2shNetwork (version : UInt8 × UInt8) : Option NetworkType :=
  [NetworkType.main, .test, .regtest].find? fun network => p2shVersion network = version

/-- The starts of strings that are reserved for Wcash addresses. -/
def wcashStarts : List Text :=
  ([NetworkType.main, .test, .regtest].map unifiedHrp
      ++ [['w', 's'], ['w', 't', 'e', 's', 't', 's', 'a', 'p', 'l', 'i', 'n', 'g'],
        ['w', 'r', 'e', 'g', 't', 'e', 's', 't', 's', 'a', 'p', 'l', 'i', 'n', 'g']]
      ++ [NetworkType.main, .test, .regtest].map texHrp).map (· ++ ['1'])
    ++ [['W', '1'], ['W', '3'], ['W', 'T'], ['W', 'U'], ['W', 'R'], ['W', 'S']]

/-- Whether a string looks like a Wcash address. -/
def looksLikeWcashAddress (encoded : Text) : Bool :=
  wcashStarts.any fun start => encoded.take start.length = start

/-! ### The libraries -/

/-- The longest container string. -/
def zip316CodeLength : Nat := 4194368

/-- The longest Bech32m string. -/
def bech32mCodeLength : Nat := 1023

/-- Whether bytes can be jumbled. -/
def Jumblable (bytes : List UInt8) : Prop :=
  48 ≤ bytes.length ∧ bytes.length ≤ 4194368

instance (bytes : List UInt8) : Decidable (Jumblable bytes) :=
  inferInstanceAs (Decidable (_ ∧ _))

/-- What the libraries of the codec compute, and what they document: the checksums of Bech32m
and Base58Check are six symbols and four bytes; jumbling keeps the length and is undone by
its inverse; a compact size is read exactly where it is written, and one below 253 is a
byte; a receiver has the length of its typecode; the typecodes of a container increase. -/
structure Crates where
  checksum : Text → List (Fin 32) → List (Fin 32)
  length_checksum : ∀ hrp symbols, (checksum hrp symbols).length = 6
  baseCheck : List UInt8 → List UInt8
  length_baseCheck : ∀ bytes, (baseCheck bytes).length = 4
  f4jumble : List UInt8 → List UInt8
  f4jumbleInv : List UInt8 → List UInt8
  length_f4jumble : ∀ bytes, Jumblable bytes → (f4jumble bytes).length = bytes.length
  length_f4jumbleInv : ∀ bytes, Jumblable bytes → (f4jumbleInv bytes).length = bytes.length
  f4jumbleInv_f4jumble : ∀ bytes, Jumblable bytes → f4jumbleInv (f4jumble bytes) = bytes
  f4jumble_f4jumbleInv : ∀ bytes, Jumblable bytes → f4jumble (f4jumbleInv bytes) = bytes
  writeCompactSize : Nat → List UInt8
  readCompactSize : List UInt8 → Option (Nat × List UInt8)
  writeCompactSize_small : ∀ n < 253, writeCompactSize n = [UInt8.ofNat n]
  writeCompactSize_ne_nil : ∀ n, writeCompactSize n ≠ []
  readCompactSize_small : ∀ n < 253, ∀ rest,
    readCompactSize (writeCompactSize n ++ rest) = some (n, rest)
  eq_of_readCompactSize : ∀ bytes n rest, readCompactSize bytes = some (n, rest) →
    bytes = writeCompactSize n ++ rest
  receiverError : Nat → List UInt8 → Option String
  length_transparent : ∀ typecode ≤ 1, ∀ data, receiverError typecode data = none →
    data.length = 20
  length_orchard : ∀ data, receiverError 3 data = none → data.length = 43
  containerError : List Nat → Option String
  pairwise_typecodes : ∀ typecodes, containerError typecodes = none →
    typecodes.Pairwise (· < ·)

/-! ### Bech32m -/

/-- The characters of the symbols. -/
def charset : List Char :=
  ['q', 'p', 'z', 'r', 'y', '9', 'x', '8', 'g', 'f', '2', 't', 'v', 'd', 'w', '0', 's', '3',
    'j', 'n', '5', '4', 'k', 'h', 'c', 'e', '6', 'm', 'u', 'a', '7', 'l']

/-- The character of a symbol. -/
def feChar (fe : Fin 32) : Char :=
  charset.getD fe 'q'

/-- The symbol of a character, in either case. -/
def charFe (ch : Char) : Option (Fin 32) :=
  (List.finRange 32).find? fun fe => feChar fe = ch.toLower

/-- The bits of symbols. -/
def symbolBits (symbols : List (Fin 32)) : List Nat :=
  symbols.flatMap fun fe => fixed 2 5 fe.val

/-- The bits of bytes. -/
def byteBits (bytes : List UInt8) : List Nat :=
  bytes.flatMap fun byte => fixed 2 8 byte.toNat

/-- The symbol of a group of bits. -/
def bitsFe (bits : List Nat) : Fin 32 :=
  Fin.ofNat 32 (value 2 bits)

/-- The byte of a group of bits. -/
def bitsByte (bits : List Nat) : UInt8 :=
  UInt8.ofNat (value 2 bits)

/-- The zeros that fill the last symbol of bytes. -/
def fillLength (length : Nat) : Nat :=
  (5 - 8 * length % 5) % 5

/-- The symbols of bytes; the last one is filled with zeros. -/
def bytesToFes (bytes : List UInt8) : List (Fin 32) :=
  let fill := fillLength bytes.length
  (groups 5 ((8 * bytes.length + fill) / 5) (byteBits bytes ++ List.replicate fill 0)).map bitsFe

/-- The bytes of symbols; bits that do not fill a byte are dropped. -/
def byteIter (symbols : List (Fin 32)) : List UInt8 :=
  (groups 8 (5 * symbols.length / 8) (symbolBits symbols)).map bitsByte

/-- The bits of symbols that are dropped. -/
def droppedBits (symbols : List (Fin 32)) : List Nat :=
  (symbolBits symbols).drop (8 * (5 * symbols.length / 8))

/-- Split a string at its last separator. -/
def splitLast : Text → Option (Text × Text)
  | [] => none
  | ch :: rest =>
    match splitLast rest with
    | some (hrp, data) => some (ch :: hrp, data)
    | none => if ch = '1' then some ([], rest) else none

/-- A string of symbols under a human-readable part, with its checksum. -/
def hrpstring (c : Crates) (hrp : Text) (symbols : List (Fin 32)) : Text :=
  hrp ++ '1' :: (symbols ++ c.checksum hrp symbols).map feChar

/-- Whether a human-readable part is well formed. -/
def ValidHrp (hrp : Text) : Prop :=
  hrp ≠ [] ∧ hrp.length ≤ 83 ∧ ∀ ch ∈ hrp, 33 ≤ ch.toNat ∧ ch.toNat ≤ 126

instance (hrp : Text) : Decidable (ValidHrp hrp) :=
  have : Decidable (∀ ch ∈ hrp, 33 ≤ ch.toNat ∧ ch.toNat ≤ 126) := List.decidableBAll _ hrp
  inferInstanceAs (Decidable (_ ∧ _ ∧ _))

/-- The human-readable part and the symbols of a string whose characters and checksum are
right. -/
def checkedHrpstring (c : Crates) (codeLength : Nat) (encoded : Text) :
    Option (Text × List (Fin 32)) := do
  let (hrp, data) ← splitLast encoded
  let symbols ← data.mapM charFe
  let payload := symbols.take (symbols.length - 6)
  if ValidHrp hrp ∧ encoded.length ≤ codeLength
      ∧ ¬(encoded.any Char.isUpper ∧ encoded.any Char.isLower) ∧ 6 ≤ symbols.length
      ∧ symbols.drop (symbols.length - 6) = c.checksum (hrp.map Char.toLower) payload then
    some (hrp, payload)
  else none

/-- The string of bytes under a human-readable part. -/
def encodeBech32 (c : Crates) (codeLength : Nat) (hrp : Text) (data : List UInt8) : Option Text :=
  let encoded := hrpstring c hrp (bytesToFes data)
  if encoded.length ≤ codeLength then some encoded else none

/-! ### Base58Check -/

/-- The characters of the digits. -/
def base58Alphabet : List Char :=
  ['1', '2', '3', '4', '5', '6', '7', '8', '9', 'A', 'B', 'C', 'D', 'E', 'F', 'G', 'H', 'J', 'K',
    'L', 'M', 'N', 'P', 'Q', 'R', 'S', 'T', 'U', 'V', 'W', 'X', 'Y', 'Z', 'a', 'b', 'c', 'd', 'e',
    'f', 'g', 'h', 'i', 'j', 'k', 'm', 'n', 'o', 'p', 'q', 'r', 's', 't', 'u', 'v', 'w', 'x', 'y',
    'z']

/-- The character of a digit. -/
def base58Char (digit : Nat) : Char :=
  base58Alphabet.getD digit '1'

/-- The digit of a character. -/
def base58Digit (ch : Char) : Option Nat :=
  (List.range 58).find? fun digit => base58Char digit = ch

/-- The string of bytes with their check bytes. -/
def encodeBase58Check (c : Crates) (bytes : List UInt8) : Text :=
  (convert 256 58 ((bytes ++ c.baseCheck bytes).map UInt8.toNat)).map base58Char

/-- The bytes of a string whose check bytes are right. -/
def decodeBase58Check (c : Crates) (encoded : Text) : Option (List UInt8) := do
  let digits ← encoded.mapM base58Digit
  let bytes := (convert 58 256 digits).map UInt8.ofNat
  let payload := bytes.take (bytes.length - 4)
  if 4 ≤ bytes.length ∧ bytes.drop (bytes.length - 4) = c.baseCheck payload then some payload
  else none

/-! ### Containers -/

/-- A receiver. -/
structure Receiver (c : Crates) where
  typecode : Nat
  data : List UInt8
  ok : c.receiverError typecode data = none

theorem Receiver.ext {c : Crates} {a b : Receiver c} (htypecode : a.typecode = b.typecode)
    (hdata : a.data = b.data) :
  a = b
  := by
  cases a
  cases b
  cases htypecode
  cases hdata
  rfl

/-- A receiver, if its typecode and data are right. -/
def Receiver.tryFrom (c : Crates) (typecode : Nat) (data : List UInt8) :
    Except String (Receiver c) :=
  match h : c.receiverError typecode data with
  | none => .ok ⟨typecode, data, h⟩
  | some error => .error error

/-- A receiver with its typecode and length. -/
def Receiver.typedEncoding {c : Crates} (receiver : Receiver c) : List UInt8 :=
  c.writeCompactSize receiver.typecode ++ c.writeCompactSize receiver.data.length ++ receiver.data

/-- A container of receivers. -/
structure UnifiedAddress (c : Crates) where
  items : List (Receiver c)
  ok : c.containerError (items.map Receiver.typecode) = none

/-- The container of receivers, which are sorted by typecode. -/
def UnifiedAddress.tryFromItems {c : Crates} (items : List (Receiver c)) :
    Except String (UnifiedAddress c) :=
  let sorted := items.mergeSort fun a b => a.typecode ≤ b.typecode
  match h : c.containerError (sorted.map Receiver.typecode) with
  | none => .ok ⟨sorted, h⟩
  | some error => .error error

/-- Check receivers one after the other; `hasIronwood` tells whether one of them was for
Ironwood. -/
def checkReceivers {c : Crates} (hasIronwood : Bool) :
    List (Receiver c) → Except WcashAddressParseError Unit
  | [] => if hasIronwood then .ok () else .error .missingIronwoodReceiver
  | receiver :: receivers =>
    if receiver.typecode = 3 then checkReceivers true receivers
    else if receiver.typecode = 2 then .error (.unsupportedReceiver "Sapling")
    else if 3 < receiver.typecode then .error (.unsupportedReceiver "unknown")
    else checkReceivers hasIronwood receivers

/-- Check the receivers of a container. -/
def validateUnifiedReceivers {c : Crates} (address : UnifiedAddress c) :
    Except WcashAddressParseError Unit :=
  checkReceivers false address.items

/-- The padding of a container. -/
def hrpPadding (hrp : Text) : List UInt8 :=
  hrp.map (fun ch => UInt8.ofNat ch.toNat) ++ List.replicate (16 - hrp.length) 0

/-- The string of a container under a human-readable part. -/
def encodeUnifiedWithHrp {c : Crates} (hrp : Text) (address : UnifiedAddress c) : Option Text :=
  let raw := address.items.flatMap Receiver.typedEncoding ++ hrpPadding hrp
  if Jumblable raw then encodeBech32 c zip316CodeLength hrp (c.f4jumble raw) else none

/-- Read receivers with increasing typecodes; every one of them takes some of the bytes. -/
def readReceivers (c : Crates) : Nat → Option Nat → List UInt8 →
    Except WcashAddressParseError (List (Receiver c))
  | _, _, [] => .ok []
  | 0, _, _ :: _ => .error (.invalidEncoding "Unified Address")
  | fuel + 1, previousTypecode, raw => do
    let (typecode, raw) ← okOr (c.readCompactSize raw)
      (.invalidEncoding "Unified Address typecode")
    ensure (typecode < 2 ^ 32) (.invalidEncoding "Unified Address typecode")
    ensure (∀ previous ∈ previousTypecode, previous < typecode) <|
      .invalidUnified "receiver typecodes are duplicated or out of canonical order"
    let (length, raw) ← okOr (c.readCompactSize raw) (.invalidEncoding "Unified Address length")
    ensure (length ≤ raw.length) (.invalidEncoding "Unified Address receiver")
    let receiver ← (Receiver.tryFrom c typecode (raw.take length)).mapError .invalidUnified
    let receivers ← readReceivers c fuel (some typecode) (raw.drop length)
    return receiver :: receivers

/-- The container of jumbled bytes. -/
def decodeUnified (c : Crates) (hrp : Text) (jumbled : List UInt8) :
    Except WcashAddressParseError (UnifiedAddress c) := do
  ensure (Jumblable jumbled) (.invalidEncoding "Unified Address")
  let bytes := c.f4jumbleInv jumbled
  ensure (16 ≤ bytes.length) (.invalidEncoding "Unified Address")
  let raw := bytes.take (bytes.length - 16)
  ensure (bytes.drop (bytes.length - 16) = hrpPadding hrp)
    (.invalidEncoding "Unified Address padding")
  let receivers ← readReceivers c raw.length none raw
  (UnifiedAddress.tryFromItems receivers).mapError .invalidUnified

/-! ### Addresses -/

/-- A hash of 20 bytes. -/
abbrev Hash160 := { data : List UInt8 // data.length = 20 }

/-- The kinds of addresses; a container has an Ironwood receiver and none that is not
supported. -/
inductive WcashAddressKind (c : Crates) where
  | unified (data : UnifiedAddress c) (valid : validateUnifiedReceivers data = .ok ())
  | p2pkh (data : Hash160)
  | p2sh (data : Hash160)
  | tex (data : Hash160)

/-- A Wcash address. -/
structure WcashAddress (c : Crates) where
  network : NetworkType
  kind : WcashAddressKind c

namespace WcashAddress

variable {c : Crates}

/-- The address of a container. -/
def fromUnified (network : NetworkType) (data : UnifiedAddress c) :
    Except WcashAddressParseError (WcashAddress c) :=
  match h : validateUnifiedReceivers data with
  | .ok () => .ok ⟨network, .unified data h⟩
  | .error error => .error error

/-- The string of an address. -/
def encode (address : WcashAddress c) : Option Text :=
  match address.kind with
  | .unified data _ => encodeUnifiedWithHrp (unifiedHrp address.network) data
  | .p2pkh data =>
    let version := p2pkhVersion address.network
    some (encodeBase58Check c (version.1 :: version.2 :: data.val))
  | .p2sh data =>
    let version := p2shVersion address.network
    some (encodeBase58Check c (version.1 :: version.2 :: data.val))
  | .tex data => encodeBech32 c bech32mCodeLength (texHrp address.network) data.val

/-- Parse a container, if the string has the human-readable part of one. -/
def parseUnified (c : Crates) (encoded : Text) :
    Option (Except WcashAddressParseError (WcashAddress c)) := do
  let (hrp, symbols) ← checkedHrpstring c zip316CodeLength encoded
  let network ← unifiedNetwork hrp
  some do
    let address ← decodeUnified c hrp (byteIter symbols)
    fromUnified network address

/-- Parse an address for transparent inputs only, if the string has the human-readable part
of one. -/
def parseTex (c : Crates) (encoded : Text) :
    Option (Except WcashAddressParseError (WcashAddress c)) := do
  let (hrp, symbols) ← checkedHrpstring c bech32mCodeLength encoded
  let network ← texNetwork hrp
  some <|
    if h : (byteIter symbols).length = 20 then .ok ⟨network, .tex ⟨byteIter symbols, h⟩⟩
    else .error (.invalidEncoding "TEX")

/-- The address of version bytes and a hash. -/
def ofVersion (version : UInt8 × UInt8) (data : Hash160) : Option (WcashAddress c) :=
  match p2pkhNetwork version with
  | some network => some ⟨network, .p2pkh data⟩
  | none =>
    match p2shNetwork version with
    | some network => some ⟨network, .p2sh data⟩
    | none => none

/-- Parse a transparent address. -/
def parseTransparent (c : Crates) (encoded : Text) : Option (WcashAddress c) :=
  match decodeBase58Check c encoded with
  | some (first :: second :: data) =>
    if h : data.length = 20 then ofVersion (first, second) ⟨data, h⟩ else none
  | _ => none

/-- Parse an address. -/
def tryFromEncoded (c : Crates) (encoded : Text) :
    Except WcashAddressParseError (WcashAddress c) :=
  match parseUnified c encoded with
  | some result => result
  | none =>
    match parseTex c encoded with
    | some result => result
    | none =>
      match parseTransparent c encoded with
      | some address => .ok address
      | none =>
        if looksLikeWcashAddress encoded then .error (.invalidEncoding "address")
        else .error .notWcash

end WcashAddress

end Address

end Vizor
