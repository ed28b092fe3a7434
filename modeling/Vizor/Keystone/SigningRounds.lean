import Vizor.Keystone.CompactSigs
import Vizor.Lib.BinarySearch
import Vizor.Lib.Errors
import Mathlib.Data.List.Forall2

/-!
# Rounds of signing

The messages that a Keystone signs are partitioned into rounds.  Each round takes as many of
the messages that are left as fit the limits of a request, which a binary search finds.  Every
round is then encoded on its own, with an id that names the round, and the encoder checks the
limits again.
-/

namespace Vizor

open Run BinarySearch

namespace Keystone

/-! ### Limits -/

/-- The displayed request stays short enough to be scanned. -/
def zcashSignBatchMaxCompactCborBytes : Nat := 80 * 1024

/-- The request stays 46 KiB below the limit of the signer. -/
def zcashSignBatchMaxTotalBytes : Nat := 466 * 1024

/-- The signer retains a request after the resolution of compact fields. -/
def zcashSignBatchMaxResolvedTotalBytes : Nat := zcashSignBatchMaxTotalBytes

/-- The sizes of a machine. -/
def usizeSize : Nat := 2 ^ 64

def checkedAddUsize (a b : Nat) (error : String) : Except String Nat :=
  if a + b < usizeSize then .ok (a + b) else .error error

def saturatingAddUsize (a b : Nat) : Nat := min (a + b) (usizeSize - 1)

/-! ### Messages -/

/-- A message to sign, with the number of signatures that are expected for it. -/
structure ZcashBatchMessageInput where
  id : String
  pcztBytes : List UInt8
  expectedSignatureCount : Nat
  deriving DecidableEq

/-- An encoder of the parts of an animated code. -/
structure UrEncoder where
  fragmentCount : Nat
  nextPart : Nat → Except String String

/-- The formats that a request is written in.  The envelope of a request has an id and a
payload; with an id that is not longer it is not longer. -/
structure Formats (Pczt : Type) where
  parse : List UInt8 → Except String Pczt
  resolveFields : Pczt → Except String Pczt
  serializeRequest : List Pczt → Except String (List UInt8)
  encodeEnvelope : List UInt8 → List UInt8 → Except String (List UInt8)
  urEncoder : List UInt8 → Nat → Except String UrEncoder
  envelope_grows : ∀ requestId shorterId payload envelope,
    shorterId.length ≤ requestId.length →
    encodeEnvelope requestId payload = .ok envelope →
    ∃ envelope', encodeEnvelope shorterId payload = .ok envelope'
      ∧ envelope'.length ≤ envelope.length

variable {Pczt : Type}

/-- The checks of a message against the ids and the payloads before it. -/
def checkMessage (ids : List String) (payloads : List (List UInt8))
    (message : ZcashBatchMessageInput) : Except String Unit := do
  ensure (message.id ≠ "") "Zcash batch message id must not be empty"
  ensure (message.id ∉ ids) s!"Duplicate Zcash batch message id {message.id}"
  ensure (message.pcztBytes ≠ []) s!"Zcash batch message {message.id} has an empty payload"
  ensure (message.pcztBytes ∉ payloads) "Duplicate Zcash batch payload"

/-- The PCZT of a message. -/
def Formats.parseMessage (formats : Formats Pczt) (message : ZcashBatchMessageInput) :
    Except String Pczt :=
  (formats.parse message.pcztBytes).mapError fun error =>
    s!"Invalid PCZT for batch message {message.id}: {error}"

/-- A message with its PCZT before and after the resolution of its fields. -/
structure PreparedZcashBatchMessage (Pczt : Type) where
  compactPczt : Pczt
  resolvedPczt : Pczt
  compactPayloadLen : Nat
  expectedSignatureCount : Nat

/-- Prepare messages after those with some ids and payloads. -/
def Formats.prepareFrom (formats : Formats Pczt) (ids : List String)
    (payloads : List (List UInt8)) : List ZcashBatchMessageInput →
    Except String (List (PreparedZcashBatchMessage Pczt))
  | [] => .ok []
  | message :: messages => do
    checkMessage ids payloads message
    let compactPczt ← formats.parseMessage message
    let resolvedPczt ← (formats.resolveFields compactPczt).mapError fun error =>
      s!"Resolve PCZT fields for batch message {message.id}: {error}"
    let prepared ← formats.prepareFrom (message.id :: ids) (message.pcztBytes :: payloads) messages
    return {
      compactPczt := compactPczt
      resolvedPczt := resolvedPczt
      compactPayloadLen := message.pcztBytes.length
      expectedSignatureCount := message.expectedSignatureCount } :: prepared

def Formats.prepareZcashBatchMessages (formats : Formats Pczt)
    (messages : List ZcashBatchMessageInput) :
    Except String (List (PreparedZcashBatchMessage Pczt)) :=
  formats.prepareFrom [] [] messages

/-! ### Sizes -/

/-- The sizes of the request of a round. -/
structure ZcashSignBatchRoundSize where
  compactPayloadBytes : Nat
  compactRequestBytes : Nat
  compactCborBytes : Nat
  resolvedRequestBytes : Nat
  expectedSignatureCount : Nat
  deriving DecidableEq

/-- A round with an id of a length is within the limits. -/
def ZcashSignBatchRoundSize.Fits (size : ZcashSignBatchRoundSize) (requestIdLen : Nat) : Prop :=
  size.compactPayloadBytes ≤ zcashSignBatchMaxTotalBytes
  ∧ saturatingAddUsize requestIdLen size.compactRequestBytes ≤ zcashSignBatchMaxTotalBytes
  ∧ size.compactCborBytes ≤ zcashSignBatchMaxCompactCborBytes
  ∧ saturatingAddUsize requestIdLen size.resolvedRequestBytes
    ≤ zcashSignBatchMaxResolvedTotalBytes
  ∧ size.expectedSignatureCount ≤ zcashSignBatchMaxSignatures

instance (size : ZcashSignBatchRoundSize) (requestIdLen : Nat) :
    Decidable (size.Fits requestIdLen) := by
  unfold ZcashSignBatchRoundSize.Fits
  infer_instance

/-- The sum of a column of some messages. -/
def checkedSum (column : PreparedZcashBatchMessage Pczt → Nat) (error : String)
    (messages : List (PreparedZcashBatchMessage Pczt)) : Except String Nat :=
  messages.foldlM (fun total message => checkedAddUsize total (column message) error) 0

/-- The sizes of the request for some messages with an id of a length. -/
def Formats.zcashSignBatchRoundSize (formats : Formats Pczt)
    (messages : List (PreparedZcashBatchMessage Pczt)) (requestIdLen : Nat) :
    Except String ZcashSignBatchRoundSize := do
  let compactPayloadBytes ← checkedSum (·.compactPayloadLen)
    "Zcash batch payload byte count overflow" messages
  let expectedSignatureCount ← checkedSum (·.expectedSignatureCount)
    "Zcash batch signature count overflow" messages
  let compactRequest ← (formats.serializeRequest (messages.map (·.compactPczt))).mapError
    fun error => s!"Encode compact PCZT batch signing request: {error}"
  let compactCbor ← (formats.encodeEnvelope (List.replicate requestIdLen 'r'.toUInt8)
    compactRequest).mapError fun error =>
      s!"Encode compact zcash-sign-batch envelope: {error}"
  let resolvedRequest ← (formats.serializeRequest (messages.map (·.resolvedPczt))).mapError
    fun error => s!"Encode resolved PCZT batch signing request: {error}"
  return {
    compactPayloadBytes := compactPayloadBytes
    compactRequestBytes := compactRequest.length
    compactCborBytes := compactCbor.length
    resolvedRequestBytes := resolvedRequest.length
    expectedSignatureCount := expectedSignatureCount }

/-! ### Rounds -/

/-- The id of the request of a round. -/
def roundRequestId (requestId : String) (round rounds : Nat) : String :=
  s!"{requestId}-round-{round}-of-{rounds}"

/-- An error of the partition: a message that is beyond the limits on its own, or another one. -/
inductive RoundsError where
  | tooLarge (id : String)
  | other (message : String)
  deriving DecidableEq

def RoundsError.message : RoundsError → String
  | .tooLarge id => s!"Zcash batch message {id} exceeds Keystone's signing round limits"
  | .other message => message

/-- The size of the first `count` messages, if they fit. -/
def Formats.acceptsCount (formats : Formats Pczt) (requestIdLen : Nat)
    (messages : List (PreparedZcashBatchMessage Pczt)) (count : Nat) :
    Except RoundsError (Option ZcashSignBatchRoundSize) := do
  let size ← (formats.zcashSignBatchRoundSize (messages.take count) requestIdLen).mapError .other
  return if size.Fits requestIdLen then some size else none

/-- The numbers of messages of the rounds that the messages from `start` on take. -/
def Formats.countsFrom (formats : Formats Pczt) (messages : List ZcashBatchMessageInput)
    (prepared : List (PreparedZcashBatchMessage Pczt)) (roundLimit requestIdLen start : Nat) :
    Except RoundsError (List Nat) :=
  if start < prepared.length then
    match hbest : searchLast (formats.acceptsCount requestIdLen (prepared.drop start)) 1
      (min (prepared.length - start) roundLimit) Nat.one_pos none with
    | .error error => .error error
    | .ok none => .error (.tooLarge ((messages[start]?.map (·.id)).getD ""))
    | .ok (some (count, _)) => do
      ensure (count < 2 ^ 32) (.other "Zcash signing round message count exceeds u32")
      let counts ← formats.countsFrom messages prepared roundLimit requestIdLen (start + count)
      return count :: counts
  else .ok []
termination_by prepared.length - start
decreasing_by
  have hpos := (searchLast_isLast hbest).1
  omega

/-- Partition messages into rounds. -/
def Formats.zcashSignBatchRoundMessageCounts (formats : Formats Pczt) (requestId : String)
    (messages : List ZcashBatchMessageInput) (maxMessages : Nat) :
    Except RoundsError (List Nat) := do
  ensure (requestId ≠ "") (.other "Zcash batch request id must not be empty")
  if messages = [] then return []
  ensure (maxMessages ≠ 0) (.other "Zcash signing round message limit must be positive")
  let prepared ← (formats.prepareZcashBatchMessages messages).mapError .other
  let roundLimit := min maxMessages zcashSignBatchMaxMessages
  let maxRoundRequestIdLen := (roundRequestId requestId messages.length
    messages.length).utf8ByteSize
  formats.countsFrom messages prepared roundLimit maxRoundRequestIdLen 0

/-! ### The encoder -/

/-- Add up the messages of a request, after those with some ids, payloads and totals. -/
def Formats.encodeFrom (formats : Formats Pczt) (ids : List String)
    (payloads : List (List UInt8)) (totalPayloadBytes totalSignatureCount : Nat) :
    List ZcashBatchMessageInput → Except String (List Pczt)
  | [] => .ok []
  | message :: messages => do
    checkMessage ids payloads message
    let totalPayloadBytes ← checkedAddUsize totalPayloadBytes message.pcztBytes.length
      "Zcash batch payload byte count overflow"
    ensure (totalPayloadBytes ≤ zcashSignBatchMaxTotalBytes)
      s!"Zcash batch PCZTs exceed {zcashSignBatchMaxTotalBytes} bytes"
    let pczt ← formats.parseMessage message
    let totalSignatureCount ← checkedAddUsize totalSignatureCount message.expectedSignatureCount
      "Zcash batch signature count overflow"
    ensure (totalSignatureCount ≤ zcashSignBatchMaxSignatures)
      s!"Zcash batch expects more than {zcashSignBatchMaxSignatures} spend signatures"
    let pczts ← formats.encodeFrom (message.id :: ids) (message.pcztBytes :: payloads)
      totalPayloadBytes totalSignatureCount messages
    return pczt :: pczts

def Formats.encodeZcashSignBatchPostcard (formats : Formats Pczt)
    (messages : List ZcashBatchMessageInput) : Except String (List UInt8) := do
  ensure (messages ≠ [] ∧ messages.length ≤ zcashSignBatchMaxMessages)
    s!"Zcash batch requires 1 to {zcashSignBatchMaxMessages} messages"
  let pczts ← formats.encodeFrom [] [] 0 0 messages
  (formats.serializeRequest pczts).mapError fun error =>
    s!"Encode PCZT batch signing request: {error}"

/-- The number of parts of an animated code, with some that make up for missed ones. -/
def urPartCount (fragmentCount : Nat) : Nat :=
  if fragmentCount ≤ 1 then fragmentCount
  else fragmentCount + max ((fragmentCount + 9) / 10) 2

/-- The parts of the animated code of an envelope. -/
def Formats.urParts (formats : Formats Pczt) (cbor : List UInt8) (maxFragmentLen : Nat) :
    Except String (List String) := do
  let encoder ← (formats.urEncoder cbor maxFragmentLen).mapError fun error =>
    s!"UR encoder: {error}"
  (List.range (urPartCount encoder.fragmentCount)).mapM fun index => do
    let part ← (encoder.nextPart index).mapError fun error => s!"UR next_part: {error}"
    return part.toUpper

/-- Encode a request as an animated code. -/
def Formats.encodeZcashSignBatchUrParts (formats : Formats Pczt) (requestId : String)
    (messages : List ZcashBatchMessageInput) (maxFragmentLen : Nat) :
    Except String (List String) := do
  ensure (requestId ≠ "") "Zcash batch request id must not be empty"
  let postcard ← formats.encodeZcashSignBatchPostcard messages
  ensure (saturatingAddUsize requestId.utf8ByteSize postcard.length ≤ zcashSignBatchMaxTotalBytes)
    s!"Zcash batch request exceeds {zcashSignBatchMaxTotalBytes} bytes"
  let cbor ← (formats.encodeEnvelope requestId.toUTF8.data.toList postcard).mapError fun error =>
    s!"Encode zcash-sign-batch CBOR envelope: {error}"
  ensure (cbor.length ≤ zcashSignBatchMaxCompactCborBytes)
    s!"Zcash batch QR request exceeds {zcashSignBatchMaxCompactCborBytes} bytes"
  formats.urParts cbor maxFragmentLen

/-! ### Prepared messages -/

variable {formats : Formats Pczt} {message : ZcashBatchMessageInput}
  {messages : List ZcashBatchMessageInput} {ids : List String} {payloads : List (List UInt8)}
  {prepared : List (PreparedZcashBatchMessage Pczt)}

/-- A message and what is prepared from it. -/
structure Prepares (formats : Formats Pczt) (message : ZcashBatchMessageInput)
    (prepared : PreparedZcashBatchMessage Pczt) : Prop where
  id : message.id ≠ ""
  payload : message.pcztBytes ≠ []
  parse : formats.parse message.pcztBytes = .ok prepared.compactPczt
  resolve : formats.resolveFields prepared.compactPczt = .ok prepared.resolvedPczt
  payloadLen : prepared.compactPayloadLen = message.pcztBytes.length
  signatureCount : prepared.expectedSignatureCount = message.expectedSignatureCount

/-- Messages have ids and payloads that are their own and not among some others. -/
structure Fresh (ids : List String) (payloads : List (List UInt8))
    (messages : List ZcashBatchMessageInput) : Prop where
  ids : ∀ message ∈ messages, message.id ∉ ids
  payloads : ∀ message ∈ messages, message.pcztBytes ∉ payloads
  nodupIds : (messages.map (·.id)).Nodup
  nodupPayloads : (messages.map (·.pcztBytes)).Nodup

theorem fresh_cons :
  Fresh ids payloads (message :: messages)
    ↔ (message.id ∉ ids ∧ message.pcztBytes ∉ payloads)
      ∧ Fresh (message.id :: ids) (message.pcztBytes :: payloads) messages
  := by
  constructor
  · rintro ⟨hids, hpayloads, hnodup, hnodup'⟩
    simp only [List.map_cons, List.nodup_cons, List.mem_map, not_exists, not_and] at hnodup hnodup'
    refine ⟨⟨hids _ List.mem_cons_self, hpayloads _ List.mem_cons_self⟩, ?_, ?_, hnodup.2,
      hnodup'.2⟩
    · intro other hother
      simpa using ⟨hnodup.1 other hother, hids other (List.mem_cons_of_mem _ hother)⟩
    · intro other hother
      simpa using ⟨hnodup'.1 other hother, hpayloads other (List.mem_cons_of_mem _ hother)⟩
  · rintro ⟨⟨hid, hpayload⟩, hids, hpayloads, hnodup, hnodup'⟩
    simp only [List.mem_cons, not_or] at hids hpayloads
    refine ⟨?_, ?_, ?_, ?_⟩
    · simpa using ⟨hid, fun other hother => (hids other hother).2⟩
    · simpa using ⟨hpayload, fun other hother => (hpayloads other hother).2⟩
    · simpa using ⟨fun other hother => (hids other hother).1, hnodup⟩
    · simpa using ⟨fun other hother => (hpayloads other hother).1, hnodup'⟩

theorem checkMessage_eq_ok {u : Unit} :
  checkMessage ids payloads message = .ok u
    ↔ message.id ≠ "" ∧ message.id ∉ ids ∧ message.pcztBytes ≠ [] ∧ message.pcztBytes ∉ payloads
  := by
  simp [checkMessage, bind_eq_ok]

/-- What is prepared from messages. -/
theorem prepareFrom_eq_ok :
  formats.prepareFrom ids payloads messages = .ok prepared
    ↔ Fresh ids payloads messages ∧ List.Forall₂ (Prepares formats) messages prepared
  := by
  induction messages generalizing ids payloads prepared with
  | nil =>
    simp only [Formats.prepareFrom, List.forall₂_nil_left_iff, Except.ok.injEq]
    constructor
    · rintro rfl
      exact ⟨⟨by simp, by simp, by simp, by simp⟩, rfl⟩
    · rintro ⟨-, rfl⟩
      rfl
  | cons message messages ih =>
    simp only [Formats.prepareFrom, Formats.parseMessage, bind_eq_ok, checkMessage_eq_ok, ih,
      mapError_eq_ok, pure_eq_ok, fresh_cons, List.forall₂_cons_left_iff]
    constructor
    · rintro ⟨_, ⟨hid, hids, hpayload, hpayloads⟩, compact, hparse, resolved, hresolve, rest,
        ⟨hfresh, hrest⟩, rfl⟩
      exact ⟨⟨⟨hids, hpayloads⟩, hfresh⟩, _, _, ⟨hid, hpayload, hparse, hresolve, rfl, rfl⟩, hrest,
        rfl⟩
    · rintro ⟨⟨⟨hids, hpayloads⟩, hfresh⟩, first, rest, hfirst, hrest, rfl⟩
      refine ⟨(), ⟨hfirst.id, hids, hfirst.payload, hpayloads⟩, _, hfirst.parse, _, hfirst.resolve,
        rest, ⟨hfresh, hrest⟩, ?_⟩
      rw [← hfirst.payloadLen, ← hfirst.signatureCount]

theorem Fresh.sublist {others : List ZcashBatchMessageInput} (h : Fresh ids payloads messages)
    (hsub : others.Sublist messages) :
  Fresh ids payloads others
  where
  ids := fun message hmessage => h.ids message (hsub.subset hmessage)
  payloads := fun message hmessage => h.payloads message (hsub.subset hmessage)
  nodupIds := (hsub.map _).nodup h.nodupIds
  nodupPayloads := (hsub.map _).nodup h.nodupPayloads

/-- A part of some messages is prepared as it is among them. -/
theorem prepare_drop_take (h : formats.prepareZcashBatchMessages messages = .ok prepared)
    (start count : Nat) :
  formats.prepareZcashBatchMessages ((messages.drop start).take count)
    = .ok ((prepared.drop start).take count)
  := by
  obtain ⟨hfresh, hprepares⟩ := prepareFrom_eq_ok.mp h
  apply prepareFrom_eq_ok.mpr
  constructor
  · apply hfresh.sublist ((List.take_sublist _ _).trans (List.drop_sublist _ _))
  · apply List.forall₂_take count (List.forall₂_drop start hprepares)

/-! ### Sizes of rounds -/

theorem checkedAddUsize_eq_ok {a b sum : Nat} {error : String} :
  checkedAddUsize a b error = .ok sum ↔ a + b < usizeSize ∧ sum = a + b
  := by
  unfold checkedAddUsize
  split
  · rename_i h
    simp [h, eq_comm]
  · rename_i h
    simp [h]

/-- A sum that does not overflow is the sum. -/
theorem foldlM_checkedAddUsize {column : PreparedZcashBatchMessage Pczt → Nat} {error : String}
    {start sum : Nat}
    (h : prepared.foldlM (fun total message => checkedAddUsize total (column message) error) start
      = .ok sum) :
  sum = start + (prepared.map column).sum
  := by
  induction prepared generalizing start with
  | nil =>
    rw [List.foldlM_nil, pure_eq_ok] at h
    simp [h]
  | cons message prepared ih =>
    rw [List.foldlM_cons, bind_eq_ok] at h
    obtain ⟨total, hadd, hrest⟩ := h
    obtain ⟨-, rfl⟩ := checkedAddUsize_eq_ok.mp hadd
    rw [ih hrest, List.map_cons, List.sum_cons, Nat.add_assoc]

/-- What the sizes of a round are the sizes of. -/
structure SizeOf (formats : Formats Pczt) (prepared : List (PreparedZcashBatchMessage Pczt))
    (requestIdLen : Nat) (size : ZcashSignBatchRoundSize) : Prop where
  payload : size.compactPayloadBytes = (prepared.map (·.compactPayloadLen)).sum
  signatures : size.expectedSignatureCount = (prepared.map (·.expectedSignatureCount)).sum
  request : ∃ request cbor, formats.serializeRequest (prepared.map (·.compactPczt)) = .ok request
    ∧ formats.encodeEnvelope (List.replicate requestIdLen 'r'.toUInt8) request = .ok cbor
    ∧ size.compactRequestBytes = request.length ∧ size.compactCborBytes = cbor.length

theorem sizeOf_of_eq_ok {requestIdLen : Nat} {size : ZcashSignBatchRoundSize}
    (h : formats.zcashSignBatchRoundSize prepared requestIdLen = .ok size) :
  SizeOf formats prepared requestIdLen size
  := by
  simp only [Formats.zcashSignBatchRoundSize, checkedSum, bind_eq_ok, mapError_eq_ok,
    pure_eq_ok] at h
  obtain ⟨payload, hpayload, signatures, hsignatures, request, hrequest, cbor, hcbor, resolved, -,
    rfl⟩ := h
  refine ⟨?_, ?_, request, cbor, hrequest, hcbor, rfl, rfl⟩
  · simpa using foldlM_checkedAddUsize hpayload
  · simpa using foldlM_checkedAddUsize hsignatures

theorem add_le_of_saturatingAddUsize {a b limit : Nat} (hlimit : limit < usizeSize - 1)
    (h : saturatingAddUsize a b ≤ limit) :
  a + b ≤ limit
  := by
  unfold saturatingAddUsize at h
  omega

/-! ### Messages that pass the encoder -/

/-- Prepared messages whose totals are within the limits are encoded. -/
theorem encodeFrom_eq_ok {totalPayloadBytes totalSignatureCount : Nat}
    (hfresh : Fresh ids payloads messages)
    (hprepares : List.Forall₂ (Prepares formats) messages prepared)
    (hpayload : totalPayloadBytes + (prepared.map (·.compactPayloadLen)).sum
      ≤ zcashSignBatchMaxTotalBytes)
    (hsignatures : totalSignatureCount + (prepared.map (·.expectedSignatureCount)).sum
      ≤ zcashSignBatchMaxSignatures) :
  formats.encodeFrom ids payloads totalPayloadBytes totalSignatureCount messages
    = .ok (prepared.map (·.compactPczt))
  := by
  induction hprepares generalizing ids payloads totalPayloadBytes totalSignatureCount with
  | nil => rfl
  | @cons message first messages prepared hfirst hrest ih =>
    obtain ⟨⟨hid, hpayloads⟩, hfresh⟩ := fresh_cons.mp hfresh
    rw [List.map_cons, List.sum_cons, ← Nat.add_assoc, hfirst.payloadLen] at hpayload
    rw [List.map_cons, List.sum_cons, ← Nat.add_assoc, hfirst.signatureCount] at hsignatures
    have hmax : zcashSignBatchMaxTotalBytes < usizeSize := by decide
    have hmax' : zcashSignBatchMaxSignatures < usizeSize := by decide
    simp only [Formats.encodeFrom, Formats.parseMessage, bind_eq_ok, mapError_eq_ok,
      checkMessage_eq_ok, checkedAddUsize_eq_ok, ensure_eq_ok, pure_eq_ok]
    exact ⟨(), ⟨hfirst.id, hid, hfirst.payload, hpayloads⟩, _, ⟨by omega, rfl⟩, (), by omega, _,
      hfirst.parse, _, ⟨by omega, rfl⟩, (), by omega, _, ih hfresh hpayload hsignatures, rfl⟩

/-- The messages of a round with an id of a length are within the limits. -/
def RoundFits (formats : Formats Pczt) (requestIdLen : Nat)
    (messages : List ZcashBatchMessageInput) : Prop :=
  ∃ prepared size, formats.prepareZcashBatchMessages messages = .ok prepared
    ∧ formats.zcashSignBatchRoundSize prepared requestIdLen = .ok size ∧ size.Fits requestIdLen

theorem length_toUTF8_data {text : String} :
  text.toUTF8.data.toList.length = text.utf8ByteSize
  := rfl

/-- A round within the limits passes every check of the encoder with an id that is not longer. -/
theorem encode_of_roundFits {requestIdLen : Nat} {requestId : String}
    (hfits : RoundFits formats requestIdLen messages) (hid : requestId ≠ "")
    (hlen : requestId.utf8ByteSize ≤ requestIdLen) (hne : messages ≠ [])
    (hcount : messages.length ≤ zcashSignBatchMaxMessages) (maxFragmentLen : Nat) :
  ∃ cbor, formats.encodeZcashSignBatchUrParts requestId messages maxFragmentLen
    = formats.urParts cbor maxFragmentLen
  := by
  obtain ⟨prepared, size, hprepare, hsize, hpayload, hrequest, hcbor, -, hsignatures⟩ := hfits
  obtain ⟨hfresh, hprepares⟩ := prepareFrom_eq_ok.mp hprepare
  have hof := sizeOf_of_eq_ok hsize
  obtain ⟨request, cbor, hserialize, henvelope, hrequestLen, hcborLen⟩ := hof.request
  rw [hof.payload] at hpayload
  rw [hof.signatures] at hsignatures
  have hencode := @encodeFrom_eq_ok _ _ _ _ _ _ 0 0 hfresh hprepares
    (by omega) (by omega)
  obtain ⟨cbor', henvelope', hle⟩ := formats.envelope_grows _ requestId.toUTF8.data.toList _ _
    (by rw [List.length_replicate, length_toUTF8_data]; exact hlen) henvelope
  have hpostcard : formats.encodeZcashSignBatchPostcard messages = .ok request := by
    simp only [Formats.encodeZcashSignBatchPostcard, bind_eq_ok, mapError_eq_ok, ensure_eq_ok]
    exact ⟨(), ⟨hne, hcount⟩, _, hencode, hserialize⟩
  have htotal := add_le_of_saturatingAddUsize (by decide) hrequest
  have hsmall : saturatingAddUsize requestId.utf8ByteSize request.length
      ≤ zcashSignBatchMaxTotalBytes := by
    unfold saturatingAddUsize
    omega
  refine ⟨cbor', ?_⟩
  unfold Formats.encodeZcashSignBatchUrParts
  rw [ensure, if_pos hid, ok_bind, hpostcard, ok_bind, ensure, if_pos hsmall, ok_bind, henvelope',
    Except.mapError, ok_bind, ensure, if_pos (by omega), ok_bind]

/-! ### Ids of rounds -/

theorem utf8Size_digitChar {digit : Nat} (h : digit < 10) :
  (Nat.digitChar digit).utf8Size = 1
  := by
  interval_cases digit <;> decide

/-- A larger number is not shorter. -/
theorem utf8ByteSize_repr_mono {m n : Nat} (h : m ≤ n) :
  m.repr.utf8ByteSize ≤ n.repr.utf8ByteSize
  := by
  induction n using Nat.strongRecOn generalizing m with
  | ind n ih =>
    by_cases hm : m < 10
    · rw [Nat.repr_of_lt hm, String.utf8ByteSize_singleton, utf8Size_digitChar hm]
      by_cases hn : n < 10
      · rw [Nat.repr_of_lt hn, String.utf8ByteSize_singleton, utf8Size_digitChar hn]
      · rw [Nat.repr_of_ge (by omega), String.utf8ByteSize_append, String.utf8ByteSize_singleton,
          utf8Size_digitChar (by omega)]
        omega
    · have hle := ih (n / 10) (by omega) (Nat.div_le_div_right h)
      rw [Nat.repr_of_ge (by omega : 10 ≤ m), Nat.repr_of_ge (by omega : 10 ≤ n),
        String.utf8ByteSize_append, String.utf8ByteSize_append, String.utf8ByteSize_singleton,
        String.utf8ByteSize_singleton, utf8Size_digitChar (by omega), utf8Size_digitChar (by omega)]
      omega

/-- The id of a round is not longer than the one with the largest numbers. -/
theorem utf8ByteSize_roundRequestId_le {requestId : String} {round rounds most : Nat}
    (hround : round ≤ most) (hrounds : rounds ≤ most) :
  (roundRequestId requestId round rounds).utf8ByteSize
    ≤ (roundRequestId requestId most most).utf8ByteSize
  := by
  have hle := utf8ByteSize_repr_mono hround
  have hle' := utf8ByteSize_repr_mono hrounds
  simp only [roundRequestId, String.utf8ByteSize_append, Nat.toString_eq_repr]
  omega

theorem roundRequestId_ne_empty {requestId : String} {round rounds : Nat} (h : requestId ≠ "") :
  roundRequestId requestId round rounds ≠ ""
  := by
  rw [Ne, ← String.utf8ByteSize_eq_zero_iff] at h ⊢
  simp only [roundRequestId, String.utf8ByteSize_append]
  have hsame : (toString requestId).utf8ByteSize = requestId.utf8ByteSize := rfl
  omega

/-! ### The partition -/

variable {roundLimit requestIdLen start count : Nat} {counts : List Nat}

/-- A round of prepared messages: it fits, and one more message is beyond a limit or there is
none. -/
structure IsRound (formats : Formats Pczt) (prepared : List (PreparedZcashBatchMessage Pczt))
    (roundLimit requestIdLen start count : Nat) : Prop where
  pos : 0 < count
  le_limit : count ≤ roundLimit
  within : start + count ≤ prepared.length
  fits : ∃ size, formats.zcashSignBatchRoundSize ((prepared.drop start).take count) requestIdLen
    = .ok size ∧ size.Fits requestIdLen
  full : count = roundLimit ∨ start + count = prepared.length
    ∨ ∃ size, formats.zcashSignBatchRoundSize ((prepared.drop start).take (count + 1)) requestIdLen
      = .ok size ∧ ¬ size.Fits requestIdLen

theorem acceptsCount_eq_some {size : ZcashSignBatchRoundSize}
    (h : formats.acceptsCount requestIdLen prepared count = .ok (some size)) :
  formats.zcashSignBatchRoundSize (prepared.take count) requestIdLen = .ok size
    ∧ size.Fits requestIdLen
  := by
  simp only [Formats.acceptsCount, bind_eq_ok, mapError_eq_ok, pure_eq_ok,
    Option.ite_none_right_eq_some, Option.some.injEq] at h
  obtain ⟨_, hsize, hfits, rfl⟩ := h
  exact ⟨hsize, hfits⟩

theorem acceptsCount_eq_none (h : formats.acceptsCount requestIdLen prepared count = .ok none) :
  ∃ size, formats.zcashSignBatchRoundSize (prepared.take count) requestIdLen = .ok size
    ∧ ¬ size.Fits requestIdLen
  := by
  simp only [Formats.acceptsCount, bind_eq_ok, mapError_eq_ok, pure_eq_ok, ite_eq_right_iff,
    reduceCtorEq, imp_false] at h
  apply h

/-- What the search finds is a round. -/
theorem isRound_of_searchLast {size : ZcashSignBatchRoundSize} (hstart : start < prepared.length)
    (h : searchLast (formats.acceptsCount requestIdLen (prepared.drop start)) 1
      (min (prepared.length - start) roundLimit) Nat.one_pos none = .ok (some (count, size))) :
  IsRound formats prepared roundLimit requestIdLen start count
  := by
  obtain ⟨hpos, hle, haccepts, hnext⟩ := searchLast_isLast h
  refine ⟨hpos, by omega, by omega, ⟨size, acceptsCount_eq_some haccepts⟩, ?_⟩
  obtain hlast | hnext := hnext
  · omega
  · exact .inr (.inr (acceptsCount_eq_none hnext))

/-- The counts from a message on are those of rounds one after the other up to the end. -/
theorem isRound_of_countsFrom (hstart : start ≤ prepared.length)
    (h : formats.countsFrom messages prepared roundLimit requestIdLen start = .ok counts) :
  start + counts.sum = prepared.length
    ∧ ∀ i (count : Nat), counts[i]? = some count →
      IsRound formats prepared roundLimit requestIdLen (start + (counts.take i).sum) count
  := by
  induction counts generalizing start with
  | nil =>
    rw [Formats.countsFrom] at h
    split at h
    · split at h
      · contradiction
      · contradiction
      · simp only [bind_eq_ok, pure_eq_ok, reduceCtorEq, and_false, exists_false] at h
    · simp
      omega
  | cons first counts ih =>
    rw [Formats.countsFrom] at h
    split at h
    · rename_i hlt
      split at h
      · contradiction
      · contradiction
      · rename_i hbest
        simp only [bind_eq_ok, ensure_eq_ok, pure_eq_ok, List.cons.injEq] at h
        obtain ⟨_, -, rest, hrest, rfl, rfl⟩ := h
        have hround := isRound_of_searchLast hlt hbest
        obtain ⟨hsum, hrounds⟩ := ih hround.within hrest
        refine ⟨by rw [List.sum_cons, ← Nat.add_assoc, hsum], ?_⟩
        rintro (_ | i) count hcount
        · simp only [List.getElem?_cons_zero, Option.some.injEq] at hcount
          subst hcount
          apply hround
        · rw [List.take_succ_cons, List.sum_cons, ← Nat.add_assoc]
          apply hrounds i count hcount
    · simp at h

theorem acceptsCount_ne_tooLarge {id : String} :
  formats.acceptsCount requestIdLen prepared count ≠ .error (.tooLarge id)
  := by
  unfold Formats.acceptsCount
  cases formats.zcashSignBatchRoundSize (prepared.take count) requestIdLen with
  | error error => simp [Except.mapError]
  | ok size => simp [Except.mapError, pure, Except.pure]

/-- A limits error names a message that is beyond the limits on its own. -/
theorem tooLarge_of_countsFrom {id : String} (hlength : messages.length = prepared.length)
    (hlimit : 0 < roundLimit)
    (h : formats.countsFrom messages prepared roundLimit requestIdLen start
      = .error (.tooLarge id)) :
  ∃ index, (messages[index]?).map (·.id) = some id
    ∧ ∃ size, formats.zcashSignBatchRoundSize ((prepared.drop index).take 1) requestIdLen
      = .ok size ∧ ¬ size.Fits requestIdLen
  := by
  induction hleft : prepared.length - start using Nat.strongRecOn generalizing start with
  | ind left ih =>
    rw [Formats.countsFrom] at h
    split at h
    · rename_i hlt
      split at h
      · rename_i hbest
        cases h
        obtain ⟨_, herror⟩ := exists_of_searchLast_eq_error hbest
        exact absurd herror acceptsCount_ne_tooLarge
      · rename_i hbest
        obtain hnone | hnone := searchLast_isLast hbest
        · omega
        · refine ⟨start, ?_, acceptsCount_eq_none hnone⟩
          rw [List.getElem?_eq_getElem (by omega)] at h ⊢
          simpa using h
      · rename_i count _ hbest
        have hpos := (searchLast_isLast hbest).1
        cases hcount : ensure (count < 2 ^ 32)
            (RoundsError.other "Zcash signing round message count exceeds u32") with
        | error error =>
          rw [hcount] at h
          unfold ensure at hcount
          split at hcount
          · contradiction
          · cases hcount
            simp at h
        | ok _ =>
          rw [hcount, ok_bind] at h
          cases hrest : formats.countsFrom messages prepared roundLimit requestIdLen
              (start + count) with
          | error error =>
            rw [hrest, error_bind] at h
            cases h
            apply ih _ (by omega) hrest rfl
          | ok counts =>
            rw [hrest] at h
            cases h
    · contradiction

/-! ### Rounds that are encoded -/

/-- The messages of a round, after those of the rounds before it. -/
def roundMessages (counts : List Nat) (messages : List ZcashBatchMessageInput)
    (round count : Nat) : List ZcashBatchMessageInput :=
  (messages.drop (counts.take round).sum).take count

/-- The length of the longest id of a round. -/
def maxRoundRequestIdLen (requestId : String) (messages : List ZcashBatchMessageInput) : Nat :=
  (roundRequestId requestId messages.length messages.length).utf8ByteSize

/-- A partition of messages into rounds: each takes as many messages as it can, and passes every
check of the encoder with the id that names it. -/
structure Partition (formats : Formats Pczt) (requestId : String)
    (messages : List ZcashBatchMessageInput) (maxMessages : Nat) (counts : List Nat) : Prop where
  positive : ∀ count ∈ counts, 0 < count
  bounded : ∀ count ∈ counts, count ≤ min maxMessages zcashSignBatchMaxMessages
  sum : counts.sum = messages.length
  full : ∀ round (count : Nat), counts[round]? = some count →
    count = min maxMessages zcashSignBatchMaxMessages
    ∨ (counts.take round).sum + count = messages.length
    ∨ ¬ RoundFits formats (maxRoundRequestIdLen requestId messages)
        (roundMessages counts messages round (count + 1))
  encoded : ∀ round (count : Nat), counts[round]? = some count → ∀ maxFragmentLen, ∃ cbor,
    formats.encodeZcashSignBatchUrParts (roundRequestId requestId (round + 1) counts.length)
        (roundMessages counts messages round count) maxFragmentLen
      = formats.urParts cbor maxFragmentLen

/-- Prepared messages that are measured beyond the limits do not fit. -/
theorem not_roundFits {size : ZcashSignBatchRoundSize}
    (hprepare : formats.prepareZcashBatchMessages messages = .ok prepared)
    (hsize : formats.zcashSignBatchRoundSize prepared requestIdLen = .ok size)
    (hfits : ¬ size.Fits requestIdLen) :
  ¬ RoundFits formats requestIdLen messages
  := by
  rintro ⟨prepared', size', hprepare', hsize', hfits'⟩
  rw [hprepare] at hprepare'
  cases hprepare'
  rw [hsize] at hsize'
  cases hsize'
  apply hfits hfits'

theorem zcashSignBatchRoundMessageCounts_cases {requestId : String} {maxMessages : Nat} :
  (∃ message, formats.zcashSignBatchRoundMessageCounts requestId messages maxMessages
      = .error (.other message))
    ∨ messages = [] ∧ formats.zcashSignBatchRoundMessageCounts requestId messages maxMessages
      = .ok []
    ∨ requestId ≠ "" ∧ maxMessages ≠ 0 ∧ ∃ prepared,
      formats.prepareZcashBatchMessages messages = .ok prepared
      ∧ formats.zcashSignBatchRoundMessageCounts requestId messages maxMessages
        = formats.countsFrom messages prepared (min maxMessages zcashSignBatchMaxMessages)
          (maxRoundRequestIdLen requestId messages) 0
  := by
  unfold Formats.zcashSignBatchRoundMessageCounts
  by_cases hid : requestId = ""
  · left
    rw [ensure, if_neg (not_not.mpr hid)]
    exact ⟨_, rfl⟩
  rw [ensure, if_pos hid, ok_bind]
  split
  · rename_i hempty
    exact .inr (.inl ⟨hempty, rfl⟩)
  by_cases hmax : maxMessages = 0
  · left
    rw [ensure, if_neg (not_not.mpr hmax)]
    exact ⟨_, rfl⟩
  rw [ensure, if_pos hmax, ok_bind]
  cases hprepare : formats.prepareZcashBatchMessages messages with
  | error error => exact .inl ⟨error, rfl⟩
  | ok prepared => exact .inr (.inr ⟨hid, hmax, prepared, rfl, rfl⟩)

/-- The counts of rounds of prepared messages are a partition of the messages. -/
theorem partition_of_isRound {requestId : String} {maxMessages : Nat}
    (hid : requestId ≠ "") (hprepare : formats.prepareZcashBatchMessages messages = .ok prepared)
    (hsum : counts.sum = prepared.length)
    (hrounds : ∀ round (count : Nat), counts[round]? = some count →
      IsRound formats prepared (min maxMessages zcashSignBatchMaxMessages)
        (maxRoundRequestIdLen requestId messages) (counts.take round).sum count) :
  Partition formats requestId messages maxMessages counts
  := by
  have hlength : messages.length = prepared.length := (prepareFrom_eq_ok.mp hprepare).2.length_eq
  have hpositive : ∀ count ∈ counts, 0 < count := by
    intro count hcount
    obtain ⟨round, hround⟩ := List.mem_iff_getElem?.mp hcount
    apply (hrounds round count hround).pos
  refine ⟨hpositive, ?_, by rw [hsum, hlength], ?_, ?_⟩
  · intro count hcount
    obtain ⟨round, hround⟩ := List.mem_iff_getElem?.mp hcount
    apply (hrounds round count hround).le_limit
  · intro round count hround
    obtain hlimit | hend | ⟨size, hsize, hfits⟩ := (hrounds round count hround).full
    · exact .inl hlimit
    · exact .inr (.inl (by rw [hend, hlength]))
    · exact .inr (.inr (not_roundFits (prepare_drop_take hprepare _ _) hsize hfits))
  · intro round count hround maxFragmentLen
    have h := hrounds round count hround
    have hwithin := h.within
    have hcountLength : (roundMessages counts messages round count).length = count := by
      rw [roundMessages, List.length_take, List.length_drop]
      omega
    have hcounts : counts.length ≤ messages.length := by
      rw [hlength, ← hsum]
      apply List.length_le_sum_of_one_le counts hpositive
    obtain ⟨hround, -⟩ := List.getElem?_eq_some_iff.mp hround
    obtain ⟨size, hsize, hfits⟩ := h.fits
    apply encode_of_roundFits ⟨_, size, prepare_drop_take hprepare _ _, hsize, hfits⟩
    · apply roundRequestId_ne_empty hid
    · apply utf8ByteSize_roundRequestId_le (by omega) hcounts
    · have hpos := h.pos
      apply List.ne_nil_of_length_pos
      rwa [← hcountLength] at hpos
    · have hle := h.le_limit
      rw [← hcountLength] at hle
      apply hle.trans (min_le_right _ _)

/-- The partition of messages into rounds is right: each round takes as many messages as it can
and passes every check of the encoder; and a limits error names a message that is beyond the
limits on its own. -/
theorem zcashSignBatchRoundMessageCounts_spec (formats : Formats Pczt) (requestId : String)
    (messages : List ZcashBatchMessageInput) (maxMessages : Nat) :
  (∀ counts, formats.zcashSignBatchRoundMessageCounts requestId messages maxMessages = .ok counts →
      Partition formats requestId messages maxMessages counts)
    ∧ ∀ id, formats.zcashSignBatchRoundMessageCounts requestId messages maxMessages
        = .error (.tooLarge id) →
      ∃ message ∈ messages, message.id = id
        ∧ ¬ RoundFits formats (maxRoundRequestIdLen requestId messages) [message]
  := by
  obtain ⟨error, herror⟩ | ⟨rfl, hempty⟩ | ⟨hid, hmax, prepared, hprepare, hcounts⟩ :=
    @zcashSignBatchRoundMessageCounts_cases _ formats messages requestId maxMessages
  · rw [herror]
    exact ⟨nofun, by simp⟩
  · rw [hempty]
    refine ⟨?_, nofun⟩
    rintro _ ⟨⟩
    exact ⟨by simp, by simp, rfl, by simp, by simp⟩
  · rw [hcounts]
    have hlength : messages.length = prepared.length :=
      (prepareFrom_eq_ok.mp hprepare).2.length_eq
    constructor
    · intro counts h
      obtain ⟨hsum, hrounds⟩ := isRound_of_countsFrom (Nat.zero_le _) h
      simp only [Nat.zero_add] at hsum hrounds
      apply partition_of_isRound hid hprepare hsum hrounds
    · intro id h
      obtain ⟨index, hindex, size, hsize, hfits⟩ :=
        tooLarge_of_countsFrom hlength (by unfold zcashSignBatchMaxMessages; omega) h
      obtain ⟨message, hmessage, rfl⟩ := Option.map_eq_some_iff.mp hindex
      refine ⟨message, List.mem_of_getElem? hmessage, rfl, ?_⟩
      have hone : (messages.drop index).take 1 = [message] := by
        obtain ⟨hlt, rfl⟩ := List.getElem?_eq_some_iff.mp hmessage
        rw [List.drop_eq_getElem_cons hlt, List.take_succ_cons, List.take_zero]
      rw [← hone]
      apply not_roundFits (prepare_drop_take hprepare index 1) hsize hfits

/-! ### An envelope -/

/-- The head of a string of bytes in an envelope. -/
def cborBytesHead (length : Nat) : List UInt8 :=
  if length < 24 then [UInt8.ofNat (64 + length)]
  else if length < 256 then 88 :: Radix.leBytes 1 length
  else if length < 65536 then 89 :: (Radix.leBytes 2 length).reverse
  else 90 :: (Radix.leBytes 4 length).reverse

theorem length_cborBytesHead_mono {m n : Nat} (h : m ≤ n) :
  (cborBytesHead m).length ≤ (cborBytesHead n).length
  := by
  unfold cborBytesHead
  split_ifs <;> simp <;> omega

/-- An envelope that is a map of the id and the payload, around PCZTs that are their bytes. -/
def cborFormats : Formats (List UInt8) where
  parse bytes := .ok bytes
  resolveFields bytes := .ok bytes
  serializeRequest pczts := .ok (pczts.flatMap fun pczt => cborBytesHead pczt.length ++ pczt)
  encodeEnvelope requestId payload := .ok (162 :: 1 :: cborBytesHead requestId.length ++ requestId
    ++ 2 :: cborBytesHead payload.length ++ payload)
  urEncoder _ _ := .ok ⟨1, fun _ => .ok "ur:zcash-sign-batch/"⟩
  envelope_grows requestId shorterId payload envelope hle henvelope := by
    cases henvelope
    refine ⟨_, rfl, ?_⟩
    have hhead := length_cborBytesHead_mono hle
    simp only [List.length_append, List.length_cons]
    omega

/-- Two messages that have too many signatures for one round. -/
def sampleMessages : List ZcashBatchMessageInput :=
  [⟨"tx-1", [1], 64⟩, ⟨"tx-2", [2], 64⟩]

/-- Each of the two messages takes a round. -/
theorem zcashSignBatchRoundMessageCounts_spec_cbor :
  cborFormats.zcashSignBatchRoundMessageCounts "request-1" sampleMessages 40 = .ok [1, 1]
    ∧ Partition cborFormats "request-1" sampleMessages 40 [1, 1]
  := by
  have hcounts : cborFormats.zcashSignBatchRoundMessageCounts "request-1" sampleMessages 40
      = .ok [1, 1] := by decide +kernel
  refine ⟨hcounts, ?_⟩
  apply (zcashSignBatchRoundMessageCounts_spec cborFormats "request-1" sampleMessages 40).1 _ hcounts

end Keystone

end Vizor
