import Vizor.AddressBook.Contacts
import Vizor.Lib.Representatives
import Mathlib.Data.List.Pairwise

/-!
# Gift cards in the activity list

The activity of an account shows one row for each gift card that was claimed, found by the
transaction ids of its claims, which occur in either byte order.  A claim that the wallet has not
detected yet gets a row of its own, and of the rows for one card only one stays.
-/

namespace Vizor

open AddressBook (Text text trim LowerCase)
open scoped AddressBook

namespace GiftCards

/-! ### Records -/

inductive ReceivedStatus where
  | readyToClaim
  | submitting
  | receiving
  | received
  deriving DecidableEq, Repr

/-- A card that the user created. -/
structure RecoveryRecord where
  sourceAccountUuid : Text
  fundingTxids : Option Text
  amountZatoshi : Nat
  artworkId : Option String
  message : Option String
  claimFeeReserveZatoshi : Nat
  deriving DecidableEq, Repr

/-- A card that the user received, as the store decodes it.  Only a card that was not submitted
has no submission time, which is in milliseconds. -/
structure ReceivedRecord where
  address : Text
  amountZatoshi : Nat
  artworkId : Option String
  message : Option String
  status : ReceivedStatus
  destinationAccountUuid : Option Text
  claimTxids : Option Text
  claimSubmittedAt : Option Int
  claimDestinationPool : Option String
  submitted : status ≠ .readyToClaim → claimSubmittedAt.isSome
  deriving DecidableEq

def ReceivedRecord.isClaimInFlight (record : ReceivedRecord) : Bool :=
  record.status = .submitting || record.status = .receiving

/-- A row of the transaction history. -/
structure TransactionInfo where
  txidHex : Text
  minedHeight : Nat
  expiredUnmined : Bool
  accountBalanceDelta : Int
  fee : Nat
  blockTime : Nat
  isTransparent : Bool
  txKind : String
  displayAmount : Int
  displayPool : String
  createdTime : Int
  deriving DecidableEq, Repr

inductive ActivityKind where
  | created
  | redeemed
  deriving DecidableEq, Repr

structure ActivityMetadata where
  kind : ActivityKind
  amountZatoshi : Nat
  artworkId : Option String
  message : Option String
  isClaimInFlight : Bool := false
  stableId : Option Text := none
  activityTimestamp : Option Int := none
  displayPool : Option String := none
  claimFeeReserveZatoshi : Option Nat := none
  deriving DecidableEq, Repr

/-! ### Transaction ids -/

/-- The ids in a list that commas separate. -/
def splitTxids : Option Text → List Text
  | none => []
  | some value => ((value.splitOn 44).map trim).filter (· ≠ [])

def normalizePaymentLinkTxid (p : LowerCase) (txid : Text) : Text :=
  let normalized := p.toLowerCase (trim txid)
  if text "0x" <+: normalized then normalized.drop 2 else normalized

def isTransactionIdHex (value : Text) : Bool :=
  value.length = 64 && value.all fun c => (48 ≤ c && c ≤ 57) || (97 ≤ c && c ≤ 102)

/-- The digits of the bytes in the other order. -/
def reverseHexBytes : Text → Text
  | high :: low :: rest => reverseHexBytes rest ++ [high, low]
  | _ => []

def paymentLinkTxidsMatch (p : LowerCase) (first second : Text) : Bool :=
  let normalizedFirst := normalizePaymentLinkTxid p first
  let normalizedSecond := normalizePaymentLinkTxid p second
  if normalizedFirst = normalizedSecond then true
  else if !isTransactionIdHex normalizedFirst || !isTransactionIdHex normalizedSecond then false
  else reverseHexBytes normalizedFirst = normalizedSecond

def matchesAny (p : LowerCase) (expectedTxids : List Text) (transactionTxid : Text) : Bool :=
  expectedTxids.any fun expected => paymentLinkTxidsMatch p expected transactionTxid

/-! ### The index -/

/-- Set the value of a key of a map that keeps the order of its keys. -/
def put (entries : List (Text × ActivityMetadata)) (txid : Text) (metadata : ActivityMetadata) :
    List (Text × ActivityMetadata) :=
  if txid ∈ entries.map (·.1) then
    entries.map fun entry => if entry.1 = txid then (txid, metadata) else entry
  else entries ++ [(txid, metadata)]

structure ActivityIndex where
  createdTxids : List Text
  redeemedTxids : List Text
  createdMetadataByTxid : List (Text × ActivityMetadata)
  redeemedMetadataByTxid : List (Text × ActivityMetadata)
  pendingClaims : List ReceivedRecord

def createdMetadata (record : RecoveryRecord) : ActivityMetadata :=
  { kind := .created
    amountZatoshi := record.amountZatoshi
    artworkId := record.artworkId
    message := record.message
    claimFeeReserveZatoshi := some record.claimFeeReserveZatoshi }

/-- The id of the row of a card. -/
def stableId (record : ReceivedRecord) : Text :=
  text "gift-card:" ++ record.address

def redeemedMetadata (record : ReceivedRecord) : ActivityMetadata :=
  { kind := .redeemed
    amountZatoshi := record.amountZatoshi
    artworkId := record.artworkId
    message := record.message
    isClaimInFlight := record.isClaimInFlight
    stableId := some (stableId record)
    activityTimestamp := record.claimSubmittedAt
    displayPool := record.claimDestinationPool }

/-- The card has a claim that the wallet may not have detected. -/
def isPendingFor (accountUuid : Text) (record : ReceivedRecord) : Bool :=
  record.destinationAccountUuid = some accountUuid && record.status = .receiving
    && splitTxids record.claimTxids ≠ []

def forAccount (accountUuid : Text) (createdRecords : List RecoveryRecord)
    (receivedRecords : List ReceivedRecord) : ActivityIndex :=
  let created := createdRecords.foldl (fun entries record =>
    if record.sourceAccountUuid ≠ accountUuid then entries
    else (splitTxids record.fundingTxids).foldl (fun entries txid =>
      put entries txid (createdMetadata record)) entries) []
  let redeemed := receivedRecords.foldl (fun entries record =>
    if record.destinationAccountUuid ≠ some accountUuid then entries
    else (splitTxids record.claimTxids).foldl (fun entries txid =>
      put entries txid (redeemedMetadata record)) entries) []
  { createdTxids := created.map (·.1)
    redeemedTxids := redeemed.map (·.1)
    createdMetadataByTxid := created
    redeemedMetadataByTxid := redeemed
    pendingClaims := receivedRecords.filter (isPendingFor accountUuid) }

def TransactionInfo.isInbound (transaction : TransactionInfo) : Bool :=
  transaction.txKind = "received" || transaction.txKind = "receiving"

namespace ActivityIndex

variable (p : LowerCase) (index : ActivityIndex)

def kindFor (transaction : TransactionInfo) : Option ActivityKind :=
  if transaction.isInbound && matchesAny p index.redeemedTxids transaction.txidHex then
    some .redeemed
  else if transaction.txKind = "sent" && matchesAny p index.createdTxids transaction.txidHex then
    some .created
  else none

def metadataFor (transaction : TransactionInfo) : Option ActivityMetadata :=
  match index.kindFor p transaction with
  | none => none
  | some kind =>
    let metadata := if kind = .created then index.createdMetadataByTxid
      else index.redeemedMetadataByTxid
    match metadata.find? fun entry => paymentLinkTxidsMatch p entry.1 transaction.txidHex with
    | some entry => some entry.2
    | none => some
      { kind := kind
        amountZatoshi := transaction.displayAmount.natAbs
        artworkId := none
        message := none }

/-! ### The list -/

def i64Max : Nat := 9223372036854775807

/-- Add a row for a claim without one.  There is no first id or submission time to add it with
in a record that no claim was submitted for. -/
def addPendingClaim (source : List TransactionInfo) (record : ReceivedRecord) :
    Option (List TransactionInfo) :=
  let txids := splitTxids record.claimTxids
  let hasInbound := source.any fun transaction =>
    transaction.isInbound && matchesAny p txids transaction.txidHex
  if hasInbound then some source
  else do
    let first ← txids.head?
    let claimSubmittedAt ← record.claimSubmittedAt
    return source ++ [
      { txidHex := first
        minedHeight := 0
        expiredUnmined := false
        accountBalanceDelta := min record.amountZatoshi i64Max
        fee := 0
        blockTime := 0
        isTransparent := false
        txKind := "receiving"
        displayAmount := record.amountZatoshi
        displayPool := record.claimDestinationPool.getD "unknown"
        createdTime := claimSubmittedAt.tdiv 1000 }]

/-- The id of the card that an incoming row belongs to. -/
def stableIdFor (transaction : TransactionInfo) : Option Text :=
  if transaction.isInbound then (index.metadataFor p transaction).bind (·.stableId) else none

def withPendingClaims (transactions : List TransactionInfo) : Option (List TransactionInfo) := do
  let source ← index.pendingClaims.foldlM (addPendingClaim p) transactions
  return Representatives.distinct (index.stableIdFor p)
    (fun transaction => !transaction.expiredUnmined) source

end ActivityIndex

/-! ### Either byte order -/

theorem reverseHexBytes_concat {value : Text} (h : value.length % 2 = 0) (high low : Nat) :
  reverseHexBytes (value ++ [high, low]) = high :: low :: reverseHexBytes value
  := by
  induction value using reverseHexBytes.induct with
  | case1 a b rest ih =>
    have hrest : rest.length % 2 = 0 := by
      simp only [List.length_cons] at h
      omega
    rw [List.cons_append, List.cons_append, reverseHexBytes, ih hrest, reverseHexBytes,
      List.cons_append, List.cons_append]
  | case2 value hnot =>
    match value with
    | [] => rfl
    | [_] => simp at h
    | a :: b :: rest => exact absurd rfl (hnot a b rest)

theorem reverseHexBytes_perm {value : Text} (h : value.length % 2 = 0) :
  (reverseHexBytes value).Perm value
  := by
  induction value using reverseHexBytes.induct with
  | case1 a b rest ih =>
    have hrest : rest.length % 2 = 0 := by
      simp only [List.length_cons] at h
      omega
    rw [reverseHexBytes]
    apply ((ih hrest).append_right [a, b]).trans List.perm_append_comm
  | case2 value hnot =>
    match value with
    | [] => exact .refl _
    | [_] => simp at h
    | a :: b :: rest => exact absurd rfl (hnot a b rest)

theorem reverseHexBytes_reverseHexBytes {value : Text} (h : value.length % 2 = 0) :
  reverseHexBytes (reverseHexBytes value) = value
  := by
  induction value using reverseHexBytes.induct with
  | case1 a b rest ih =>
    have hrest : rest.length % 2 = 0 := by
      simp only [List.length_cons] at h
      omega
    rw [reverseHexBytes, reverseHexBytes_concat, ih hrest]
    rw [(reverseHexBytes_perm hrest).length_eq]
    apply hrest
  | case2 value hnot =>
    match value with
    | [] => rfl
    | [_] => simp at h
    | a :: b :: rest => exact absurd rfl (hnot a b rest)

theorem even_of_isTransactionIdHex {value : Text} (h : isTransactionIdHex value = true) :
  value.length % 2 = 0
  := by
  rw [isTransactionIdHex, Bool.and_eq_true, decide_eq_true_iff] at h
  omega

theorem isTransactionIdHex_reverseHexBytes {value : Text} (h : isTransactionIdHex value = true) :
  isTransactionIdHex (reverseHexBytes value) = true
  := by
  have hperm := reverseHexBytes_perm (even_of_isTransactionIdHex h)
  rw [isTransactionIdHex, Bool.and_eq_true, decide_eq_true_iff, List.all_eq_true] at h ⊢
  rw [hperm.length_eq]
  refine ⟨h.1, ?_⟩
  intro c hc
  apply h.2 c (hperm.mem_iff.1 hc)

section Matching

variable {p : LowerCase} {first second third : Text}

/-- Two ids match when they are the same or are ids of transactions in different byte orders. -/
theorem paymentLinkTxidsMatch_iff :
  paymentLinkTxidsMatch p first second = true
    ↔ normalizePaymentLinkTxid p first = normalizePaymentLinkTxid p second
      ∨ isTransactionIdHex (normalizePaymentLinkTxid p first) = true
        ∧ reverseHexBytes (normalizePaymentLinkTxid p first) = normalizePaymentLinkTxid p second
  := by
  rw [paymentLinkTxidsMatch]
  split
  · rename_i heq
    simp [heq]
  · rename_i hne
    split
    · rename_i hnot
      rw [Bool.or_eq_true, Bool.not_eq_true', Bool.not_eq_true'] at hnot
      simp only [hne, false_or, Bool.false_eq_true, false_iff]
      rintro ⟨hhex, hreverse⟩
      rcases hnot with hnot | hnot
      · rw [hhex] at hnot
        cases hnot
      · rw [← hreverse, isTransactionIdHex_reverseHexBytes hhex] at hnot
        cases hnot
    · rename_i hboth
      simp only [Bool.or_eq_true, Bool.not_eq_true', not_or, Bool.not_eq_false] at hboth
      simp [hne, hboth.1]

theorem paymentLinkTxidsMatch_refl :
  paymentLinkTxidsMatch p first first = true
  := paymentLinkTxidsMatch_iff.2 (.inl rfl)

theorem paymentLinkTxidsMatch_symm (h : paymentLinkTxidsMatch p first second = true) :
  paymentLinkTxidsMatch p second first = true
  := by
  rw [paymentLinkTxidsMatch_iff] at h ⊢
  rcases h with h | ⟨hhex, h⟩
  · exact .inl h.symm
  · refine .inr ⟨?_, ?_⟩
    · rw [← h]
      apply isTransactionIdHex_reverseHexBytes hhex
    · rw [← h, reverseHexBytes_reverseHexBytes (even_of_isTransactionIdHex hhex)]

theorem paymentLinkTxidsMatch_trans (h : paymentLinkTxidsMatch p first second = true)
    (h' : paymentLinkTxidsMatch p second third = true) :
  paymentLinkTxidsMatch p first third = true
  := by
  rw [paymentLinkTxidsMatch_iff] at h h' ⊢
  rcases h with h | ⟨hhex, h⟩
  · rw [h]
    apply h'
  · rcases h' with h' | ⟨-, h'⟩
    · exact .inr ⟨hhex, h.trans h'⟩
    · rw [← h, reverseHexBytes_reverseHexBytes (even_of_isTransactionIdHex hhex)] at h'
      exact .inl h'

end Matching

/-! ### The entries of the index -/

section Entries

variable {entries : List (Text × ActivityMetadata)} {txid : Text} {metadata : ActivityMetadata}

theorem mem_put {entry : Text × ActivityMetadata} (h : entry ∈ put entries txid metadata) :
  entry ∈ entries ∨ entry = (txid, metadata)
  := by
  rw [put] at h
  split at h
  · obtain ⟨other, hother, rfl⟩ := List.mem_map.1 h
    split
    · exact .inr rfl
    · exact .inl hother
  · rw [List.mem_append, List.mem_singleton] at h
    apply h

theorem mem_keys_put {key : Text} :
  key ∈ (put entries txid metadata).map (·.1) ↔ key ∈ entries.map (·.1) ∨ key = txid
  := by
  rw [put]
  split
  · rename_i hmem
    have hkeys : (entries.map fun entry => if entry.1 = txid then (txid, metadata) else entry).map
        (·.1) = entries.map (·.1) := by
      rw [List.map_map]
      apply List.map_congr_left
      intro entry _
      simp only [Function.comp]
      split
      · rename_i heq
        apply heq.symm
      · rfl
    rw [hkeys]
    constructor
    · exact .inl
    · rintro (h | rfl)
      · apply h
      · apply hmem
  · rw [List.map_append, List.mem_append, List.map_singleton, List.mem_singleton]

/-- The entries of a map to which the ids of a record are added. -/
theorem mem_foldl_put {txids : List Text} {entry : Text × ActivityMetadata}
    (h : entry ∈ txids.foldl (fun entries txid => put entries txid metadata) entries) :
  entry ∈ entries ∨ entry.1 ∈ txids ∧ entry.2 = metadata
  := by
  induction txids generalizing entries with
  | nil => exact .inl h
  | cons txid txids ih =>
    rw [List.foldl_cons] at h
    rcases ih h with h | ⟨h, hmetadata⟩
    · rcases mem_put h with h | rfl
      · exact .inl h
      · exact .inr ⟨List.mem_cons_self, rfl⟩
    · exact .inr ⟨List.mem_cons_of_mem _ h, hmetadata⟩

theorem mem_keys_foldl_put {txids : List Text} {key : Text} :
  key ∈ (txids.foldl (fun entries txid => put entries txid metadata) entries).map (·.1)
    ↔ key ∈ entries.map (·.1) ∨ key ∈ txids
  := by
  induction txids generalizing entries with
  | nil => simp
  | cons txid txids ih =>
    rw [List.foldl_cons, ih, mem_keys_put, List.mem_cons, or_assoc]

end Entries

section Index

variable {accountUuid : Text} {createdRecords : List RecoveryRecord}
  {receivedRecords : List ReceivedRecord}

/-- An entry of the index is one of a record of the account. -/
theorem exists_of_mem_redeemedMetadata {entry : Text × ActivityMetadata}
    (h : entry ∈ (forAccount accountUuid createdRecords receivedRecords).redeemedMetadataByTxid) :
  ∃ record ∈ receivedRecords, record.destinationAccountUuid = some accountUuid
    ∧ entry.1 ∈ splitTxids record.claimTxids ∧ entry.2 = redeemedMetadata record
  := by
  have hfold : ∀ (records : List ReceivedRecord) (entries : List (Text × ActivityMetadata)),
      entry ∈ records.foldl (fun entries record =>
        if record.destinationAccountUuid ≠ some accountUuid then entries
        else (splitTxids record.claimTxids).foldl (fun entries txid =>
          put entries txid (redeemedMetadata record)) entries) entries
      → entry ∈ entries ∨ ∃ record ∈ records, record.destinationAccountUuid = some accountUuid
        ∧ entry.1 ∈ splitTxids record.claimTxids ∧ entry.2 = redeemedMetadata record := by
    intro records
    induction records with
    | nil => exact fun _ => .inl
    | cons record records ih =>
      intro entries hentry
      rw [List.foldl_cons] at hentry
      rcases ih _ hentry with hentry | ⟨other, hother, hrest⟩
      · split at hentry
        · exact .inl hentry
        · rename_i haccount
          rw [not_not] at haccount
          rcases mem_foldl_put hentry with hentry | hentry
          · exact .inl hentry
          · exact .inr ⟨record, List.mem_cons_self, haccount, hentry⟩
      · exact .inr ⟨other, List.mem_cons_of_mem _ hother, hrest⟩
  rcases hfold receivedRecords [] h with h | h
  · cases h
  · apply h

/-- The ids of the index are those of the records of the account. -/
theorem mem_redeemedTxids {txid : Text} :
  txid ∈ (forAccount accountUuid createdRecords receivedRecords).redeemedTxids
    ↔ ∃ record ∈ receivedRecords, record.destinationAccountUuid = some accountUuid
      ∧ txid ∈ splitTxids record.claimTxids
  := by
  have hfold : ∀ (records : List ReceivedRecord) (entries : List (Text × ActivityMetadata)),
      txid ∈ (records.foldl (fun entries record =>
        if record.destinationAccountUuid ≠ some accountUuid then entries
        else (splitTxids record.claimTxids).foldl (fun entries txid =>
          put entries txid (redeemedMetadata record)) entries) entries).map (·.1)
      ↔ txid ∈ entries.map (·.1)
        ∨ ∃ record ∈ records, record.destinationAccountUuid = some accountUuid
          ∧ txid ∈ splitTxids record.claimTxids := by
    intro records
    induction records with
    | nil => simp
    | cons record records ih =>
      intro entries
      rw [List.foldl_cons, ih]
      split
      · rename_i haccount
        simp [haccount]
      · rename_i haccount
        rw [not_not] at haccount
        rw [mem_keys_foldl_put, or_assoc]
        simp [haccount]
  rw [forAccount]
  simp only
  rw [hfold]
  simp

end Index

/-! ### Cards and their rows -/

/-- The incoming row is one of a claim of the card. -/
def IsIncoming (p : LowerCase) (record : ReceivedRecord) (transaction : TransactionInfo) : Prop :=
  transaction.isInbound = true
    ∧ matchesAny p (splitTxids record.claimTxids) transaction.txidHex = true

instance {p : LowerCase} {record : ReceivedRecord} {transaction : TransactionInfo} :
    Decidable (IsIncoming p record transaction) := by
  unfold IsIncoming
  infer_instance

/-- The cards have different addresses, and no id is one of claims of two cards. -/
structure Separate (p : LowerCase) (receivedRecords : List ReceivedRecord) : Prop where
  addresses : (receivedRecords.map ReceivedRecord.address).Nodup
  txids : receivedRecords.Pairwise fun record other =>
    ∀ txid ∈ splitTxids record.claimTxids, ∀ otherTxid ∈ splitTxids other.claimTxids,
      paymentLinkTxidsMatch p txid otherTxid = false

section Cards

variable {p : LowerCase} {accountUuid : Text} {createdRecords : List RecoveryRecord}
  {receivedRecords : List ReceivedRecord} {transaction : TransactionInfo}
  {record other : ReceivedRecord}

theorem matchesAny_iff {txids : List Text} {txid : Text} :
  matchesAny p txids txid = true ↔ ∃ expected ∈ txids, paymentLinkTxidsMatch p expected txid = true
  := by
  rw [matchesAny, List.any_eq_true]

/-- Two cards of which ids match are the same card. -/
theorem Separate.eq_of_match (h : Separate p receivedRecords) (hrecord : record ∈ receivedRecords)
    (hother : other ∈ receivedRecords) {txid otherTxid : Text}
    (htxid : txid ∈ splitTxids record.claimTxids)
    (hotherTxid : otherTxid ∈ splitTxids other.claimTxids)
    (hmatch : paymentLinkTxidsMatch p txid otherTxid = true) :
  record = other
  := by
  by_contra hne
  have hsymm : Std.Symm fun record other : ReceivedRecord =>
      ∀ txid ∈ splitTxids record.claimTxids, ∀ otherTxid ∈ splitTxids other.claimTxids,
        paymentLinkTxidsMatch p txid otherTxid = false := by
    constructor
    intro record other happart txid htxid otherTxid hotherTxid
    rw [← Bool.not_eq_true]
    intro hmatch
    have hnot := happart otherTxid hotherTxid txid htxid
    rw [paymentLinkTxidsMatch_symm hmatch] at hnot
    cases hnot
  have hnot := h.txids.forall hrecord hother hne txid htxid otherTxid hotherTxid
  rw [hmatch] at hnot
  cases hnot

/-- A row belongs to one card at most. -/
theorem Separate.eq_of_isIncoming (h : Separate p receivedRecords)
    (hrecord : record ∈ receivedRecords) (hother : other ∈ receivedRecords)
    (hincoming : IsIncoming p record transaction) (hincomingOther : IsIncoming p other transaction) :
  record = other
  := by
  obtain ⟨txid, htxid, hmatch⟩ := matchesAny_iff.1 hincoming.2
  obtain ⟨otherTxid, hotherTxid, hmatchOther⟩ := matchesAny_iff.1 hincomingOther.2
  apply h.eq_of_match hrecord hother htxid hotherTxid
  apply paymentLinkTxidsMatch_trans hmatch (paymentLinkTxidsMatch_symm hmatchOther)

theorem stableId_inj (h : stableId record = stableId other) :
  record.address = other.address
  := List.append_cancel_left h

/-- A row is one of a redeemed card when a card of the account has it. -/
theorem kindFor_eq_redeemed :
  (forAccount accountUuid createdRecords receivedRecords).kindFor p transaction = some .redeemed
    ↔ ∃ record ∈ receivedRecords, record.destinationAccountUuid = some accountUuid
      ∧ IsIncoming p record transaction
  := by
  have hiff : (transaction.isInbound && matchesAny p
      (forAccount accountUuid createdRecords receivedRecords).redeemedTxids
        transaction.txidHex) = true
      ↔ ∃ record ∈ receivedRecords, record.destinationAccountUuid = some accountUuid
        ∧ IsIncoming p record transaction := by
    rw [Bool.and_eq_true, matchesAny_iff]
    constructor
    · rintro ⟨hinbound, txid, htxid, hmatch⟩
      obtain ⟨record, hrecord, haccount, hmem⟩ := mem_redeemedTxids.1 htxid
      exact ⟨record, hrecord, haccount, hinbound, matchesAny_iff.2 ⟨txid, hmem, hmatch⟩⟩
    · rintro ⟨record, hrecord, haccount, hinbound, hmatches⟩
      obtain ⟨txid, htxid, hmatch⟩ := matchesAny_iff.1 hmatches
      exact ⟨hinbound, txid, mem_redeemedTxids.2 ⟨record, hrecord, haccount, htxid⟩, hmatch⟩
  rw [← hiff, ActivityIndex.kindFor]
  split
  · rename_i h
    simp [h]
  · rename_i h
    simp only [h]
    split <;> simp

/-- The metadata of an incoming row is that of the card that it belongs to. -/
theorem metadataFor_of_isIncoming (h : Separate p receivedRecords)
    (hrecord : record ∈ receivedRecords)
    (haccount : record.destinationAccountUuid = some accountUuid)
    (hincoming : IsIncoming p record transaction) :
  (forAccount accountUuid createdRecords receivedRecords).metadataFor p transaction
    = some (redeemedMetadata record)
  := by
  have hkind : (forAccount accountUuid createdRecords receivedRecords).kindFor p transaction
      = some .redeemed := kindFor_eq_redeemed.2 ⟨record, hrecord, haccount, hincoming⟩
  rw [ActivityIndex.metadataFor, hkind]
  simp only [reduceCtorEq, if_false]
  cases hfind : (forAccount accountUuid createdRecords
      receivedRecords).redeemedMetadataByTxid.find? fun entry =>
        paymentLinkTxidsMatch p entry.1 transaction.txidHex with
  | none =>
    obtain ⟨txid, htxid, hmatch⟩ := matchesAny_iff.1 hincoming.2
    have hkey : txid ∈ (forAccount accountUuid createdRecords receivedRecords).redeemedTxids :=
      mem_redeemedTxids.2 ⟨record, hrecord, haccount, htxid⟩
    obtain ⟨entry, hentry, rfl⟩ := List.mem_map.1 hkey
    exact absurd hmatch (List.find?_eq_none.1 hfind entry hentry)
  | some entry =>
    obtain ⟨other, hother, -, hmem, hmetadata⟩ :=
      exists_of_mem_redeemedMetadata (List.mem_of_find?_eq_some hfind)
    have hmatch := List.find?_some hfind
    have hincomingOther : IsIncoming p other transaction :=
      ⟨hincoming.1, matchesAny_iff.2 ⟨entry.1, hmem, hmatch⟩⟩
    rw [h.eq_of_isIncoming hrecord hother hincoming hincomingOther, ← hmetadata]

/-- An incoming row of a card has the id of the card. -/
theorem stableIdFor_of_isIncoming (h : Separate p receivedRecords)
    (hrecord : record ∈ receivedRecords)
    (haccount : record.destinationAccountUuid = some accountUuid)
    (hincoming : IsIncoming p record transaction) :
  (forAccount accountUuid createdRecords receivedRecords).stableIdFor p transaction
    = some (stableId record)
  := by
  rw [ActivityIndex.stableIdFor, if_pos hincoming.1,
    metadataFor_of_isIncoming h hrecord haccount hincoming]
  rfl

/-- A row that belongs to no redeemed card has no id. -/
theorem stableIdFor_of_kindFor_ne {index : ActivityIndex}
    (h : index.kindFor p transaction ≠ some .redeemed) :
  index.stableIdFor p transaction = none
  := by
  rw [ActivityIndex.stableIdFor]
  split
  · rename_i hinbound
    have hnone : index.kindFor p transaction = none := by
      rw [ActivityIndex.kindFor] at h ⊢
      split
      · rename_i hredeemed
        rw [if_pos hredeemed] at h
        exact absurd rfl h
      · rw [if_neg]
        intro hsent
        rw [Bool.and_eq_true, decide_eq_true_iff] at hsent
        simp [TransactionInfo.isInbound, hsent.1] at hinbound
    rw [ActivityIndex.metadataFor, hnone]
    rfl
  · rfl

/-- A row has the id of a card exactly when it is an incoming row of the card. -/
theorem stableIdFor_eq_some (h : Separate p receivedRecords) (hrecord : record ∈ receivedRecords)
    (haccount : record.destinationAccountUuid = some accountUuid) :
  (forAccount accountUuid createdRecords receivedRecords).stableIdFor p transaction
      = some (stableId record)
    ↔ IsIncoming p record transaction
  := by
  constructor
  · intro hid
    by_cases hkind : (forAccount accountUuid createdRecords receivedRecords).kindFor p transaction
        = some .redeemed
    · obtain ⟨other, hother, haccountOther, hincoming⟩ := kindFor_eq_redeemed.1 hkind
      rw [stableIdFor_of_isIncoming h hother haccountOther hincoming] at hid
      have haddress := stableId_inj (Option.some.inj hid)
      rw [← List.inj_on_of_nodup_map h.addresses hother hrecord haddress]
      apply hincoming
    · rw [stableIdFor_of_kindFor_ne hkind] at hid
      cases hid
  · apply stableIdFor_of_isIncoming h hrecord haccount

/-- The rows without the id of a card are those of no redeemed card. -/
theorem stableIdFor_eq_none (h : Separate p receivedRecords) :
  (forAccount accountUuid createdRecords receivedRecords).stableIdFor p transaction = none
    ↔ (forAccount accountUuid createdRecords receivedRecords).kindFor p transaction
      ≠ some .redeemed
  := by
  constructor
  · intro hnone hkind
    obtain ⟨record, hrecord, haccount, hincoming⟩ := kindFor_eq_redeemed.1 hkind
    rw [stableIdFor_of_isIncoming h hrecord haccount hincoming] at hnone
    cases hnone
  · apply stableIdFor_of_kindFor_ne

end Cards

/-! ### Rows for claims that were not detected -/

section Pending

variable {p : LowerCase} {accountUuid : Text}

/-- Adding a row for a pending claim succeeds; it adds a live row of the card, or nothing when
the card has a row. -/
theorem addPendingClaim_spec {record : ReceivedRecord}
    (hpending : isPendingFor accountUuid record = true) (source : List TransactionInfo) :
  ∃ added, ActivityIndex.addPendingClaim p source record = some (source ++ added)
    ∧ (∀ transaction ∈ added, IsIncoming p record transaction
        ∧ transaction.expiredUnmined = false)
    ∧ (∃ transaction ∈ source ++ added, IsIncoming p record transaction)
    ∧ ((∃ transaction ∈ source, IsIncoming p record transaction) → added = [])
  := by
  rw [isPendingFor, Bool.and_eq_true, Bool.and_eq_true, decide_eq_true_iff, decide_eq_true_iff,
    decide_eq_true_iff] at hpending
  obtain ⟨⟨-, hstatus⟩, htxids⟩ := hpending
  have hany : (source.any fun transaction =>
      transaction.isInbound && matchesAny p (splitTxids record.claimTxids) transaction.txidHex)
        = true ↔ ∃ transaction ∈ source, IsIncoming p record transaction := by
    simp [IsIncoming, List.any_eq_true]
  rw [ActivityIndex.addPendingClaim]
  by_cases hinbound : ∃ transaction ∈ source, IsIncoming p record transaction
  · refine ⟨[], ?_, nofun, ?_, fun _ => rfl⟩
    · rw [if_pos (hany.2 hinbound), List.append_nil]
    · rw [List.append_nil]
      apply hinbound
  · obtain ⟨first, rest, hfirst⟩ := List.exists_cons_of_ne_nil htxids
    obtain ⟨submitted, hsubmitted⟩ := Option.isSome_iff_exists.1
      (record.submitted (by rw [hstatus]; nofun))
    rw [if_neg (hany.not.2 hinbound), hfirst, hsubmitted]
    refine ⟨_, rfl, ?_, ?_, fun h => absurd h hinbound⟩
    · intro transaction htransaction
      obtain rfl := List.mem_singleton.1 htransaction
      refine ⟨⟨by simp [TransactionInfo.isInbound], ?_⟩, rfl⟩
      rw [matchesAny_iff, hfirst]
      exact ⟨first, List.mem_cons_self, paymentLinkTxidsMatch_refl⟩
    · refine ⟨_, List.mem_append_right _ (List.mem_singleton_self _),
        by simp [TransactionInfo.isInbound], ?_⟩
      rw [matchesAny_iff, hfirst]
      exact ⟨first, List.mem_cons_self, paymentLinkTxidsMatch_refl⟩

/-- Adding the rows for all pending claims succeeds; it adds live rows of cards without one, and
afterwards every pending card has a row. -/
theorem addPendingClaims_spec {records : List ReceivedRecord}
    (hpending : ∀ record ∈ records, isPendingFor accountUuid record = true)
    (source : List TransactionInfo) :
  ∃ added, records.foldlM (ActivityIndex.addPendingClaim p) source = some (source ++ added)
    ∧ (∀ transaction ∈ added, transaction.expiredUnmined = false
        ∧ ∃ record ∈ records, IsIncoming p record transaction
          ∧ ∀ other ∈ source, ¬ IsIncoming p record other)
    ∧ (∀ record ∈ records, ∃ transaction ∈ source ++ added, IsIncoming p record transaction)
    ∧ ((∀ record ∈ records, ∃ transaction ∈ source, IsIncoming p record transaction)
        → added = [])
  := by
  induction records generalizing source with
  | nil =>
    refine ⟨[], by simp, ?_, ?_, fun _ => rfl⟩
    · intro transaction htransaction
      cases htransaction
    · intro record hrecord
      cases hrecord
  | cons record records ih =>
    obtain ⟨first, hfirst, hlive, hrow, hnothing⟩ :=
      addPendingClaim_spec (hpending record List.mem_cons_self) source
    obtain ⟨rest, hrest, hliveRest, hrowRest, hnothingRest⟩ :=
      ih (fun other hother => hpending other (List.mem_cons_of_mem _ hother)) (source ++ first)
    refine ⟨first ++ rest, ?_, ?_, ?_, ?_⟩
    · rw [List.foldlM_cons, hfirst, Option.bind_eq_bind, Option.bind_some, hrest,
        List.append_assoc]
    · intro transaction htransaction
      rcases List.mem_append.1 htransaction with htransaction | htransaction
      · obtain ⟨hincoming, hexpired⟩ := hlive transaction htransaction
        refine ⟨hexpired, record, List.mem_cons_self, hincoming, ?_⟩
        intro other hother hincomingOther
        rw [hnothing ⟨other, hother, hincomingOther⟩] at htransaction
        cases htransaction
      · obtain ⟨hexpired, other, hother, hincoming, hnone⟩ := hliveRest transaction htransaction
        refine ⟨hexpired, other, List.mem_cons_of_mem _ hother, hincoming, ?_⟩
        exact fun row hmem => hnone row (List.mem_append_left _ hmem)
    · intro other hother
      rw [← List.append_assoc]
      rcases List.mem_cons.1 hother with rfl | hother
      · obtain ⟨transaction, hmem, hincoming⟩ := hrow
        exact ⟨transaction, List.mem_append_left _ hmem, hincoming⟩
      · apply hrowRest other hother
    · intro hall
      have hnil : first = [] := hnothing (hall record List.mem_cons_self)
      subst hnil
      rw [List.append_nil] at hnothingRest
      rw [hnothingRest fun other hother => hall other (List.mem_cons_of_mem _ hother)]
      rfl

end Pending

/-! ### The list with its rows -/

section List

variable {p : LowerCase} {accountUuid : Text} {receivedRecords : List ReceivedRecord}

/-- The card is one of the account, and has a claim that may not have been detected or a row. -/
def IsShown (p : LowerCase) (accountUuid : Text) (transactions : List TransactionInfo)
    (record : ReceivedRecord) : Prop :=
  record.destinationAccountUuid = some accountUuid
    ∧ (isPendingFor accountUuid record = true
      ∨ ∃ transaction ∈ transactions, IsIncoming p record transaction)

theorem destination_of_isPendingFor {record : ReceivedRecord}
    (h : isPendingFor accountUuid record = true) :
  record.destinationAccountUuid = some accountUuid
  := by
  rw [isPendingFor, Bool.and_eq_true, Bool.and_eq_true, decide_eq_true_iff] at h
  apply h.1.1

/-- The rows that are added for pending claims: they are live rows of cards of the account, and
with them every pending card has a row. -/
structure ClaimRows (p : LowerCase) (accountUuid : Text) (receivedRecords : List ReceivedRecord)
    (transactions added : List TransactionInfo) : Prop where
  live : ∀ transaction ∈ added, transaction.expiredUnmined = false
  card : ∀ transaction ∈ added, ∃ record ∈ receivedRecords,
    record.destinationAccountUuid = some accountUuid ∧ IsIncoming p record transaction
  row : ∀ record ∈ receivedRecords, isPendingFor accountUuid record = true →
    ∃ transaction ∈ transactions ++ added, IsIncoming p record transaction

/-- The activity list is that of the transactions with the rows for pending claims, with one row
for each card.  No row is added when every pending card has one. -/
theorem withPendingClaims_eq (p : LowerCase) (accountUuid : Text)
    (createdRecords : List RecoveryRecord) (receivedRecords : List ReceivedRecord)
    (transactions : List TransactionInfo) :
  ∃ added,
    (forAccount accountUuid createdRecords receivedRecords).withPendingClaims p transactions
        = some (Representatives.distinct
          ((forAccount accountUuid createdRecords receivedRecords).stableIdFor p)
          (fun transaction => !transaction.expiredUnmined) (transactions ++ added))
      ∧ ClaimRows p accountUuid receivedRecords transactions added
      ∧ ((∀ record ∈ receivedRecords, isPendingFor accountUuid record = true →
          ∃ transaction ∈ transactions, IsIncoming p record transaction) → added = [])
  := by
  have hpending {record : ReceivedRecord} :
      record ∈ receivedRecords.filter (isPendingFor accountUuid)
        ↔ record ∈ receivedRecords ∧ isPendingFor accountUuid record = true := List.mem_filter
  obtain ⟨added, hadded, hlive, hrow, hnothing⟩ := addPendingClaims_spec
    (fun record hrecord => (hpending.mp hrecord).2) transactions
  refine ⟨added, ?_, ⟨?_, ?_, ?_⟩, ?_⟩
  · have hfold : (forAccount accountUuid createdRecords receivedRecords).pendingClaims.foldlM
        (ActivityIndex.addPendingClaim p) transactions = some (transactions ++ added) := hadded
    rw [ActivityIndex.withPendingClaims, hfold]
    rfl
  · intro transaction htransaction
    apply (hlive transaction htransaction).1
  · intro transaction htransaction
    obtain ⟨-, record, hrecord, hincoming, -⟩ := hlive transaction htransaction
    obtain ⟨hmem, hrecordPending⟩ := hpending.mp hrecord
    exact ⟨record, hmem, destination_of_isPendingFor hrecordPending, hincoming⟩
  · intro record hrecord hrecordPending
    apply hrow record (hpending.mpr ⟨hrecord, hrecordPending⟩)
  · intro hall
    apply hnothing
    intro record hrecord
    obtain ⟨hmem, hrecordPending⟩ := hpending.mp hrecord
    apply hall record hmem hrecordPending

variable {createdRecords : List RecoveryRecord} {transactions added : List TransactionInfo}

/-- Keeping one row for each card does not touch what is no incoming row of a redeemed card. -/
theorem filter_not_redeemed_distinct (h : Separate p receivedRecords)
    (hadded : ClaimRows p accountUuid receivedRecords transactions added) :
  (Representatives.distinct
      ((forAccount accountUuid createdRecords receivedRecords).stableIdFor p)
      (fun transaction => !transaction.expiredUnmined) (transactions ++ added)).filter
      (fun transaction =>
        (forAccount accountUuid createdRecords receivedRecords).kindFor p transaction
          ≠ some .redeemed)
    = transactions.filter (fun transaction =>
        (forAccount accountUuid createdRecords receivedRecords).kindFor p transaction
          ≠ some .redeemed)
  := by
  have hkeyless (rows : List TransactionInfo) :
      rows.filter (fun transaction =>
          (forAccount accountUuid createdRecords receivedRecords).kindFor p transaction
            ≠ some .redeemed)
        = rows.filter fun transaction =>
          (forAccount accountUuid createdRecords receivedRecords).stableIdFor p transaction
            = none := by
    simp only [stableIdFor_eq_none h]
  have hnothing : added.filter (fun transaction =>
      (forAccount accountUuid createdRecords receivedRecords).stableIdFor p transaction = none)
        = [] := by
    rw [List.filter_eq_nil_iff]
    intro transaction htransaction
    obtain ⟨record, hrecord, hdestination, hincoming⟩ := hadded.card transaction htransaction
    rw [stableIdFor_of_isIncoming h hrecord hdestination hincoming]
    simp
  rw [hkeyless, hkeyless, Representatives.filter_keyless_distinct, List.filter_append, hnothing,
    List.append_nil]

/-- Keeping one row for each card leaves exactly one incoming row of a card that has one, and a
live one if there is one. -/
theorem exists_row_distinct (h : Separate p receivedRecords) {record : ReceivedRecord}
    (hrecord : record ∈ receivedRecords)
    (hdestination : record.destinationAccountUuid = some accountUuid)
    {rows : List TransactionInfo}
    (hexists : ∃ transaction ∈ rows, IsIncoming p record transaction) :
  ∃ row ∈ rows,
    (Representatives.distinct
        ((forAccount accountUuid createdRecords receivedRecords).stableIdFor p)
        (fun transaction => !transaction.expiredUnmined) rows).filter
        (fun transaction => IsIncoming p record transaction) = [row]
      ∧ IsIncoming p record row
      ∧ ∀ other ∈ rows, IsIncoming p record other → other.expiredUnmined = false
        → row.expiredUnmined = false
  := by
  have hsome (transaction : TransactionInfo) :
      (forAccount accountUuid createdRecords receivedRecords).stableIdFor p transaction
          = some (stableId record)
        ↔ IsIncoming p record transaction := stableIdFor_eq_some h hrecord hdestination
  obtain ⟨transaction, hmem, hincoming⟩ := hexists
  obtain ⟨row, hfilter, hrow, hid, hprefers⟩ := Representatives.filter_key_distinct
    ⟨transaction, hmem, (hsome transaction).2 hincoming⟩
  refine ⟨row, hrow, ?_, (hsome row).1 hid, ?_⟩
  · simp only [← hsome]
    apply hfilter
  · intro other hother hincomingOther hlive
    have hprefer := hprefers other hother ((hsome other).2 hincomingOther)
    simpa [hlive] using hprefer

/-- The activity list keeps the transactions that are no incoming rows of redeemed cards, in
order.  Every card that is shown has exactly one incoming row, which is a live one when the card
has a live row or had none.  Making the list again from itself changes nothing. -/
theorem withPendingClaims_spec (accountUuid : Text) (createdRecords : List RecoveryRecord)
    (h : Separate p receivedRecords) (transactions : List TransactionInfo) :
  ∃ result,
    (forAccount accountUuid createdRecords receivedRecords).withPendingClaims p transactions
        = some result
      ∧ result.filter (fun transaction =>
          (forAccount accountUuid createdRecords receivedRecords).kindFor p transaction
            ≠ some .redeemed)
        = transactions.filter (fun transaction =>
          (forAccount accountUuid createdRecords receivedRecords).kindFor p transaction
            ≠ some .redeemed)
      ∧ (∀ record ∈ receivedRecords, IsShown p accountUuid transactions record →
          ∃ row, result.filter (fun transaction => IsIncoming p record transaction) = [row]
            ∧ ((∃ other ∈ transactions, IsIncoming p record other ∧ other.expiredUnmined = false)
                ∨ (∀ other ∈ transactions, ¬ IsIncoming p record other)
              → row.expiredUnmined = false))
      ∧ (forAccount accountUuid createdRecords receivedRecords).withPendingClaims p result
        = some result
  := by
  obtain ⟨added, hresult, hadded, -⟩ :=
    withPendingClaims_eq p accountUuid createdRecords receivedRecords transactions
  refine ⟨_, hresult, filter_not_redeemed_distinct h hadded, ?_, ?_⟩
  · rintro record hrecord ⟨hdestination, hshown⟩
    have hexists : ∃ transaction ∈ transactions ++ added, IsIncoming p record transaction := by
      rcases hshown with hpending | ⟨transaction, hmem, hincoming⟩
      · apply hadded.row record hrecord hpending
      · exact ⟨transaction, List.mem_append_left _ hmem, hincoming⟩
    obtain ⟨row, hmem, hfilter, hincoming, hlive⟩ :=
      exists_row_distinct h hrecord hdestination hexists
    refine ⟨row, hfilter, ?_⟩
    rintro (⟨other, hother, hincomingOther, hliveOther⟩ | hnoRow)
    · apply hlive other (List.mem_append_left _ hother) hincomingOther hliveOther
    · rcases List.mem_append.1 hmem with hmem | hmem
      · exact absurd hincoming (hnoRow row hmem)
      · apply hadded.live row hmem
  · obtain ⟨again, hagain, -, hnothing⟩ :=
      withPendingClaims_eq p accountUuid createdRecords receivedRecords
        (Representatives.distinct
          ((forAccount accountUuid createdRecords receivedRecords).stableIdFor p)
          (fun transaction => !transaction.expiredUnmined) (transactions ++ added))
    rw [hagain, hnothing]
    · rw [List.append_nil]
      apply congrArg some Representatives.distinct_distinct
    · intro record hrecord hpending
      obtain ⟨row, -, hfilter, hincoming, -⟩ := exists_row_distinct h hrecord
        (destination_of_isPendingFor hpending) (hadded.row record hrecord hpending)
      have hkept := List.mem_filter.1 (hfilter ▸ List.mem_singleton_self row)
      exact ⟨row, hkept.1, hincoming⟩

/-- A card that is claimed by two transactions. -/
def samplePending : ReceivedRecord where
  address := text "u1"
  amountZatoshi := 10000
  artworkId := none
  message := none
  status := .receiving
  destinationAccountUuid := some (text "account")
  claimTxids := some (text "aa,bb")
  claimSubmittedAt := some 5000
  claimDestinationPool := none
  submitted _ := rfl

/-- A card that was received. -/
def sampleReceived : ReceivedRecord where
  address := text "u2"
  amountZatoshi := 20000
  artworkId := none
  message := none
  status := .received
  destinationAccountUuid := some (text "account")
  claimTxids := some (text "cc")
  claimSubmittedAt := some 4000
  claimDestinationPool := none
  submitted _ := rfl

/-- An incoming row of the samples. -/
def sampleRow (txidHex : Text) (expiredUnmined : Bool) : TransactionInfo :=
  { txidHex, expiredUnmined
    minedHeight := 0
    accountBalanceDelta := 10000
    fee := 0
    blockTime := 0
    isTransparent := false
    txKind := "received"
    displayAmount := 10000
    displayPool := "shielded"
    createdTime := 0 }

example : ((forAccount (text "account") [] [samplePending, sampleReceived]).withPendingClaims
      .onAscii [sampleRow (text "AA") true, sampleRow (text "dd") false]).map
        (·.map (·.txidHex))
    = some [text "AA", text "dd"]
  := by decide +kernel

theorem withPendingClaims_spec_two_legs :
  ∃ result row,
    (forAccount (text "account") [] [samplePending, sampleReceived]).withPendingClaims .onAscii
        [sampleRow (text "aa") true, sampleRow (text "bb") false] = some result
      ∧ result.filter (fun transaction => IsIncoming .onAscii samplePending transaction) = [row]
      ∧ row.expiredUnmined = false
  := by
  have hseparate : Separate .onAscii [samplePending, sampleReceived] :=
    ⟨by decide +kernel, by decide +kernel⟩
  obtain ⟨result, hresult, -, hrows, -⟩ := withPendingClaims_spec (text "account") []
    hseparate [sampleRow (text "aa") true, sampleRow (text "bb") false]
  obtain ⟨row, hrow, hlive⟩ := hrows samplePending List.mem_cons_self
    ⟨by decide +kernel, .inl (by decide +kernel)⟩
  refine ⟨result, row, hresult, hrow, hlive (.inl ?_)⟩
  exact ⟨sampleRow (text "bb") false, by decide +kernel, by decide +kernel, rfl⟩

end List

end GiftCards

end Vizor
