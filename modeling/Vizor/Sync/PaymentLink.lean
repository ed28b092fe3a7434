import Mathlib.Data.Char
import Mathlib.Data.List.Dedup
import Mathlib.Data.List.DropRight
import Mathlib.Data.List.Lex
import Mathlib.Data.List.Sort
import Vizor.Lib.Hex
import Vizor.Resubmit.Order
import Vizor.Sync.OrphanedRanges

/-!
# Spend evidence of gift cards

A gift card is an account of the wallet whose keys are known to all who may claim it.  Whether
its money went elsewhere is read from the wallet: a note of the card counts as spent once a
transaction that spends it has six scanned confirmations.  A pending claim that spends such a note
as well is in conflict, and is not sent again.
-/

namespace Vizor

open Resubmit (ResubmittableTx)
open ScanQueue (ScanRange)

namespace PaymentLink

/-! ### The wallet -/

/-- Transaction ids are compared by their digits. -/
scoped instance lawfulBEq_digits : LawfulBEq (List Char) := inferInstance

/-- Transaction ids are compared by their bytes. -/
scoped instance lawfulBEq_bytes : LawfulBEq (List UInt8) := inferInstance

structure AccountRow where
  id : Nat
  uuid : List UInt8
  deriving DecidableEq, Repr

/-- A row of `transactions`.  The time of creation is there for transactions that were made by
this wallet. -/
structure TransactionRow where
  idTx : Nat
  txid : List UInt8
  raw : Option (List UInt8)
  minedHeight : Option Nat
  expiryHeight : Option Nat
  created : Option Nat
  deriving DecidableEq, Repr

structure SentNoteRow where
  fromAccountId : Nat
  transactionId : Nat
  deriving DecidableEq, Repr

/-- A row of `v_received_outputs`.  The pool `0` is the transparent one. -/
structure ReceivedOutput where
  accountId : Nat
  pool : Nat
  idWithinPoolTable : Nat
  value : Nat
  deriving DecidableEq, Repr

/-- A row of `v_received_output_spends`. -/
structure ReceivedOutputSpend where
  pool : Nat
  receivedOutputId : Nat
  transactionId : Nat
  deriving DecidableEq, Repr

/-- A row of `v_transactions`. -/
structure ViewTransaction where
  txid : List UInt8
  raw : Option (List UInt8)
  minedHeight : Option Nat
  expiryHeight : Option Nat
  accountBalanceDelta : Int
  deriving DecidableEq, Repr

/-- The tables and views that are read, each in the order in which its rows are read. -/
structure WalletDb where
  accounts : List AccountRow
  blocks : List Nat
  scanQueue : List ScanRange
  transactions : List TransactionRow
  sentNotes : List SentNoteRow
  receivedOutputs : List ReceivedOutput
  receivedOutputSpends : List ReceivedOutputSpend
  viewTransactions : List ViewTransaction

/-- What a query with `LIMIT 1` takes of its rows. -/
structure LimitOne where
  pick : List TransactionRow → Option TransactionRow
  mem : ∀ rows row, pick rows = some row → row ∈ rows
  nil : ∀ rows, pick rows = none → rows = []

/-- The row that comes first. -/
def LimitOne.first : LimitOne where
  pick := List.head?
  mem _ _ h := List.mem_of_head? h
  nil _ h := List.head?_eq_none_iff.mp h

/-- The pool of a note and its number there. -/
structure Note where
  pool : Nat
  id : Nat
  deriving DecidableEq, Repr

/-! ### Texts of txids -/

/-- The white space that `str::trim` takes away. -/
def isWhitespace (c : Char) : Bool :=
  c.toNat ∈ [9, 10, 11, 12, 13, 32, 133, 160, 5760, 8232, 8233, 8239, 8287, 12288]
    || 8192 ≤ c.toNat && c.toNat ≤ 8202

def trim (t : List Char) : List Char :=
  (t.dropWhile isWhitespace).rdropWhile isWhitespace

/-- The txids that are asked for, between commas. -/
def requestedTxids (claimTxids : List Char) : List (List Char) :=
  ((claimTxids.splitOn ',').map fun s => (trim s).map Char.toLower).filter (· ≠ [])

/-- The distinct texts of some transactions, in order. -/
def distinctTxids (rows : List TransactionRow) : List (List Char) :=
  ((rows.map fun t => Hex.encode t.txid).dedup).insertionSort (· ≤ ·)

/-! ### Spend evidence -/

structure SpendEvidence where
  allFundsSpentElsewhere : Bool
  conflictedTxids : List (List Char)
  localClaimTxids : List (List Char)
  verifiedHeight : Nat
  deriving DecidableEq, Repr

namespace WalletDb

variable (db : WalletDb)

/-- The height below the ranges that are still to be scanned, whose priority is above that of the
scanned ones. -/
def verifiedHeight : Nat :=
  let maxHeight : Int := (db.blocks.max?.getD 0 : Nat)
  let unscanned : Option Nat :=
    ((db.scanQueue.filter (10 < ·.priority)).map (·.blockRangeStart)).min?
  (max 0 (min maxHeight (unscanned.elim maxHeight fun start => (start : Int) - 1))).toNat

/-- Six scanned confirmations. -/
def settledHeight : Nat :=
  db.verifiedHeight - 5

/-- The transactions with a number. -/
def transactionsWithId (transactionId : Nat) : List TransactionRow :=
  db.transactions.filter (·.idTx = transactionId)

/-- The transactions that were made here from an account. -/
def localClaims (account : Nat) : List TransactionRow :=
  ((db.sentNotes.filter (·.fromAccountId = account)).flatMap fun s =>
    db.transactionsWithId s.transactionId).filter (·.created.isSome)

/-- The shielded notes of an account with a value. -/
def fundingNotes (account : Nat) : List Note :=
  (db.receivedOutputs.filter fun o => o.accountId = account ∧ o.pool ≠ 0 ∧ 0 < o.value).map
    fun o => ⟨o.pool, o.idWithinPoolTable⟩

/-- The transactions that spend a note. -/
def spenders (note : Note) : List TransactionRow :=
  (db.receivedOutputSpends.filter fun s =>
    s.pool = note.pool ∧ s.receivedOutputId = note.id).flatMap fun s =>
      db.transactionsWithId s.transactionId

/-- A transaction with enough scanned confirmations. -/
def Settled (t : TransactionRow) : Prop :=
  ∃ height ∈ t.minedHeight, 1 ≤ height ∧ height ≤ db.settledHeight

instance : DecidablePred db.Settled :=
  fun t => inferInstanceAs (Decidable (∃ height ∈ t.minedHeight, _))

def settledSpenders (note : Note) : List TransactionRow :=
  (db.spenders note).filter db.Settled

def pendingSpenders (note : Note) : List TransactionRow :=
  (db.spenders note).filter (·.minedHeight = none)

end WalletDb

/-- What is found out about one more note. -/
def inspectNote (limitOne : LimitOne) (db : WalletDb) (requested : List (List Char))
    (found : Bool × List (List Char)) (note : Note) : Bool × List (List Char) :=
  match (limitOne.pick (db.settledSpenders note)).map fun t => Hex.encode t.txid with
  | none => (false, found.2)
  | some spender =>
    let conflicts := ((db.pendingSpenders note).map fun t => Hex.encode t.txid).filter fun id =>
      id ∈ requested ∧ id ≠ spender
    (if spender ∈ requested then false else found.1, found.2 ++ conflicts)

/-- The evidence for an account, given the txids of its claims. -/
def inspect (limitOne : LimitOne) (db : WalletDb) (accountUuid : List UInt8)
    (claimTxids : List Char) : Except String SpendEvidence := do
  let account ← Run.okOr (db.accounts.find? (·.uuid = accountUuid)) "Query returned no rows"
  let localClaimTxids := distinctTxids (db.localClaims account.id)
  let requested := requestedTxids claimTxids ++ localClaimTxids
  let notes := db.fundingNotes account.id
  let found := notes.foldl (inspectNote limitOne db requested) (decide (notes ≠ []), [])
  .ok {
    allFundsSpentElsewhere := found.1
    conflictedTxids := found.2.dedup.insertionSort (· ≤ ·)
    localClaimTxids := localClaimTxids
    verifiedHeight := db.verifiedHeight }

/-! ### Transactions that are sent again -/

/-- The conflicts of all accounts. -/
def paymentLinkResubmitExclusions (limitOne : LimitOne) (db : WalletDb) :
    Except String (List (List UInt8)) :=
  db.accounts.foldlM (fun excluded account => do
    let evidence ← inspect limitOne db account.uuid []
    let txids ← evidence.conflictedTxids.mapM fun id => (Hex.decode id).mapError (·.message)
    .ok (excluded ++ txids)) []

/-- A transaction that is not mined and can still be. -/
def isPendingAt (currentHeight : Nat) (minedHeight expiryHeight : Option Nat)
    (raw : Option (List UInt8)) : Prop :=
  minedHeight = none ∧ (∃ expiry ∈ expiryHeight, expiry = 0 ∨ currentHeight < expiry)
    ∧ raw ≠ none

instance (currentHeight : Nat) (minedHeight expiryHeight : Option Nat)
    (raw : Option (List UInt8)) :
    Decidable (isPendingAt currentHeight minedHeight expiryHeight raw) :=
  inferInstanceAs (Decidable (_ ∧ _))

def shouldSkipResubmissionView (db : WalletDb) (currentHeight : Nat) : Bool :=
  db.transactions.all fun t => ¬ isPendingAt currentHeight t.minedHeight t.expiryHeight t.raw

/-- The rows of the view that are pending and were sent from here. -/
def pendingRows (db : WalletDb) (currentHeight : Nat) : List ViewTransaction :=
  db.viewTransactions.filter fun t =>
    isPendingAt currentHeight t.minedHeight t.expiryHeight t.raw ∧ t.accountBalanceDelta < 0

def getResubmittableTxs (db : WalletDb) (currentHeight : Nat) :
    List (ResubmittableTx (List UInt8)) :=
  if shouldSkipResubmissionView db currentHeight then []
  else ((pendingRows db currentHeight).map fun t =>
    ⟨t.txid, t.raw.getD [], t.expiryHeight.getD 0⟩).dedup

/-- The transactions to send again, without those that are excluded. -/
def getResubmittableTxsExcluding (db : WalletDb) (currentHeight : Nat)
    (excludedTxids : List (List UInt8)) : Except String (List (ResubmittableTx (List UInt8))) :=
  if excludedTxids = [] then .ok (getResubmittableTxs db currentHeight)
  else if shouldSkipResubmissionView db currentHeight then .ok []
  else
    let candidates := ((pendingRows db currentHeight).map fun t =>
      (t.txid, t.expiryHeight.getD 0)).dedup
    (candidates.filter (·.1 ∉ excludedTxids)).mapM fun (txidBytes, expiryHeight) => do
      let raw ← Run.okOr
        ((db.transactions.find? fun t => t.txid = txidBytes ∧ t.raw ≠ none).bind (·.raw))
        "Raw transaction query error: Query returned no rows"
      .ok ⟨txidBytes, raw, expiryHeight⟩

end PaymentLink

end Vizor
