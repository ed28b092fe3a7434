import Vizor.Store.Rows
import Vizor.Sync.OrphanedRanges

/-!
# The deletion of an account

The wallet database holds the accounts, their addresses, the transactions of all of them, the
outputs that they received and spent, and the notes that they sent.  The deletion of an account
rewrites the notes that were sent to it, removes the transactions in which only it took part,
and leaves the rest to the foreign keys; then the scan queue below the birthday of the
remaining accounts is demoted.  All of it is one database transaction.
-/

namespace Vizor

open Run Table

namespace Keys

/-! ### The wallet database -/

structure Account where
  id : Nat
  uuid : AccountUuid
  birthdayHeight : Nat
  deriving DecidableEq, Repr

structure Address where
  id : Nat
  accountId : Nat
  address : Option String
  cachedTransparentReceiverAddress : Option String
  deriving DecidableEq, Repr

/-- The text of an address. -/
def Address.toAddress (a : Address) : Option String :=
  a.address.or a.cachedTransparentReceiverAddress

/-- An output of a pool that an account received. -/
structure ReceivedOutput where
  pool : Nat
  id : Nat
  transactionId : Nat
  outputIndex : Nat
  accountId : Nat
  addressId : Option Nat
  deriving DecidableEq, Repr

/-- The row of an output: each pool has a table of its own. -/
def ReceivedOutput.key (o : ReceivedOutput) : Nat × Nat :=
  (o.pool, o.id)

/-- The spend of a received output in a transaction. -/
structure ReceivedOutputSpend where
  pool : Nat
  receivedOutputId : Nat
  transactionId : Nat
  deriving DecidableEq, Repr

/-- The row of the output that is spent. -/
def ReceivedOutputSpend.key (s : ReceivedOutputSpend) : Nat × Nat :=
  (s.pool, s.receivedOutputId)

structure SentNote where
  id : Nat
  transactionId : Nat
  outputPool : Nat
  outputIndex : Nat
  fromAccountId : Nat
  toAddress : Option String
  toAccountId : Option Nat
  deriving DecidableEq, Repr

/-- The tables, with their primary keys. -/
structure WalletTables where
  accounts : List Account
  addresses : List Address
  transactions : List Nat
  receivedOutputs : List ReceivedOutput
  receivedOutputSpends : List ReceivedOutputSpend
  sentNotes : List SentNote
  scanQueue : ScanQueue.Queue
  /-- The tables of migrations, once they exist. -/
  migration : Option Store
  accounts_keyed : (accounts.map (·.id)).Nodup
  receivedOutputs_keyed : (receivedOutputs.map (·.key)).Nodup
  sentNotes_keyed : (sentNotes.map (·.id)).Nodup

/-- What a foreign key does to a row when the row that it names is deleted. -/
inductive OnDelete where
  | cascade
  | setNull
  | noAction
  deriving DecidableEq, Repr

/-- What the schema leaves open: the foreign keys of sent notes to their recipients and of
outputs to their addresses.  The foreign keys to transactions and to the owners of rows
cascade. -/
structure Schema where
  recipient : OnDelete
  receivedAt : OnDelete

/-! ### Statements -/

namespace WalletTables

/-- The output is the one that the sent note pays. -/
def pays (n : SentNote) (o : ReceivedOutput) : Bool :=
  o.transactionId = n.transactionId && o.pool = n.outputPool && o.outputIndex = n.outputIndex

/-- An account with such a uuid has the id. -/
def hasAccount (db : WalletTables) (p : AccountUuid → Bool) (id : Nat) : Bool :=
  db.accounts.any fun a => a.id = id && p a.uuid

/-- Some account with such a uuid received or spent an output in the transaction. -/
def takesPart (db : WalletTables) (p : AccountUuid → Bool) (t : Nat) : Bool :=
  (db.receivedOutputs.any fun o => o.transactionId = t && db.hasAccount p o.accountId)
    || db.receivedOutputSpends.any fun s => s.transactionId = t
      && db.receivedOutputs.any fun o => o.key = s.key && db.hasAccount p o.accountId

/-- The rows that are left when some are deleted. -/
def keep (db : WalletTables) (accounts : Account → Bool) (addresses : Address → Bool)
    (transactions : Nat → Bool) (receivedOutputs : ReceivedOutput → Bool)
    (sentNotes : SentNote → Bool) : WalletTables where
  accounts := db.accounts.filter accounts
  addresses := db.addresses.filter addresses
  transactions := db.transactions.filter transactions
  receivedOutputs := db.receivedOutputs.filter receivedOutputs
  receivedOutputSpends := db.receivedOutputSpends.filter fun s => transactions s.transactionId
    && !db.receivedOutputs.any fun o => o.key = s.key && !receivedOutputs o
  sentNotes := db.sentNotes.filter sentNotes
  scanQueue := db.scanQueue
  migration := db.migration
  accounts_keyed := db.accounts_keyed.sublist (List.filter_sublist.map _)
  receivedOutputs_keyed := db.receivedOutputs_keyed.sublist (List.filter_sublist.map _)
  sentNotes_keyed := db.sentNotes_keyed.sublist (List.filter_sublist.map _)

/-- The rows after an update of sent notes and received outputs. -/
def update (db : WalletTables) (sentNote : SentNote → SentNote)
    (receivedOutput : ReceivedOutput → ReceivedOutput) (hid : ∀ n, (sentNote n).id = n.id)
    (hkey : ∀ o, (receivedOutput o).key = o.key) : WalletTables :=
  { db with
    sentNotes := db.sentNotes.map sentNote
    receivedOutputs := db.receivedOutputs.map receivedOutput
    sentNotes_keyed := by
      rw [List.map_map, show (·.id) ∘ sentNote = (·.id) from funext hid]
      apply db.sentNotes_keyed
    receivedOutputs_keyed := by
      rw [List.map_map, show (·.key) ∘ receivedOutput = (·.key) from funext hkey]
      apply db.receivedOutputs_keyed }

/-- The sent notes to an account, with the text of the address at which the account received
the output. -/
def toAccountTx (db : WalletTables) (uuid : AccountUuid) : List (Nat × Option String) :=
  (db.sentNotes.filter fun n => n.toAccountId.any (db.hasAccount (· = uuid))).flatMap fun n =>
    (db.receivedOutputs.filter (pays n)).flatMap fun o =>
      (db.addresses.filter fun a => o.addressId = some a.id).map fun a => (n.id, a.toAddress)

/-- A sent note that has become one to an address. -/
def rewriteNote (rows : List (Nat × Option String)) (n : SentNote) : SentNote :=
  rows.foldl (fun n row => if row.2.isSome && row.1 = n.id then
    { n with toAddress := row.2, toAccountId := none } else n) n

theorem rewriteNote_id {rows : List (Nat × Option String)} {n : SentNote} :
  (rewriteNote rows n).id = n.id
  := by
  induction rows generalizing n with
  | nil => rfl
  | cons row rows ih =>
    rw [rewriteNote, List.foldl_cons, ← rewriteNote, ih]
    split <;> rfl

def rewriteSentNotes (db : WalletTables) (uuid : AccountUuid) : WalletTables :=
  db.update (rewriteNote (db.toAccountTx uuid)) id (fun _ => rewriteNote_id) fun _ => rfl

/-- The transactions in which the account took part, and no other account. -/
def ownTransaction (db : WalletTables) (uuid : AccountUuid) (t : Nat) : Bool :=
  db.takesPart (· = uuid) t && !db.takesPart (· ≠ uuid) t

/-- Delete these transactions, and all that depends on them. -/
def deleteTransactions (db : WalletTables) (uuid : AccountUuid) : WalletTables :=
  db.keep (fun _ => true) (fun _ => true) (fun t => !db.ownTransaction uuid t)
    (fun o => !db.ownTransaction uuid o.transactionId)
    fun n => !db.ownTransaction uuid n.transactionId

/-- The id is that of an address of the account. -/
def hasAddress (db : WalletTables) (uuid : AccountUuid) (id : Nat) : Bool :=
  db.addresses.any fun a => a.id = id && db.hasAccount (· = uuid) a.accountId

/-- The sent note names the account as its recipient. -/
def sentTo (db : WalletTables) (uuid : AccountUuid) (n : SentNote) : Bool :=
  n.toAccountId.any (db.hasAccount (· = uuid))

/-- The output was received at an address of the account. -/
def receivedAt (db : WalletTables) (uuid : AccountUuid) (o : ReceivedOutput) : Bool :=
  o.addressId.any (db.hasAddress uuid)

/-- Delete the account with its rows.  A sent note without a recipient account needs an
address. -/
def deleteAccounts (schema : Schema) (db : WalletTables) (uuid : AccountUuid) :
    Except String WalletTables := do
  let kept := db.keep (fun a => a.uuid ≠ uuid) (fun a => !db.hasAccount (· = uuid) a.accountId)
    (fun _ => true)
    (fun o => !db.hasAccount (· = uuid) o.accountId
      && !(schema.receivedAt = .cascade && db.receivedAt uuid o))
    fun n => !db.hasAccount (· = uuid) n.fromAccountId
      && !(schema.recipient = .cascade && db.sentTo uuid n)
  ensure (schema.recipient = .noAction → ∀ n ∈ kept.sentNotes, db.sentTo uuid n = false)
    "FOREIGN KEY constraint failed"
  ensure (schema.receivedAt = .noAction → ∀ o ∈ kept.receivedOutputs, db.receivedAt uuid o = false)
    "FOREIGN KEY constraint failed"
  ensure (∀ n ∈ kept.sentNotes, db.sentTo uuid n = true → n.toAddress.isSome = true)
    "CHECK constraint failed"
  return kept.update
    (fun n => if db.sentTo uuid n then { n with toAccountId := none } else n)
    (fun o => if db.receivedAt uuid o then { o with addressId := none } else o)
    (fun n => by split <;> rfl) fun o => by split <;> rfl

/-- Delete the rows of the runs of the account, and the runs. -/
def deleteAccountMigrationRows (s : Store) (uuid : AccountUuid) : Store :=
  let owned r := s.runs.any fun run => run.accountUuid = uuid && run.runId = r
  { runs := s.runs.filter fun run => run.accountUuid ≠ uuid
    preparedNotes := s.preparedNotes.filter fun row => !owned row.runId
    pendingTxs := s.pendingTxs.filter fun row => !owned row.runId
    signedChildren := s.signedChildren.filter fun row => !owned row.runId
    stages := s.stages.filter fun row => !owned row.runId
    stageInputs := s.stageInputs.filter fun row => !owned row.runId
    stageOutputs := s.stageOutputs.filter fun row => !owned row.runId }

def deleteMigrationRows (db : WalletTables) (uuid : AccountUuid) : WalletTables :=
  { db with migration := db.migration.map (deleteAccountMigrationRows · uuid) }

end WalletTables

/-! ### The deletion -/

/-- What can fail in the database during a deletion. -/
inductive Statement where
  | openDb
  | busyTimeout
  | arrayModule
  | foreignKeys
  | begin
  | prepareRewriteQuery
  | prepareRewriteUpdate
  | querySentNotes
  | readSentNotes
  | readAddress
  | readSentNoteId
  | rewriteSentNote
  | deleteTransactions
  | deleteMigrationRows
  | deleteMigrationRuns
  | deleteAccount
  | prune
  | commit
  deriving DecidableEq, Repr

/-- The text of the error of a statement. -/
def Statement.context : Statement → String
  | .openDb => "Failed to open wallet DB"
  | .busyTimeout => "Failed to configure wallet DB busy timeout"
  | .arrayModule => "Failed to load SQLite array module"
  | .foreignKeys => "Failed to enable SQLite foreign keys"
  | .begin => "Failed to begin account delete transaction"
  | .prepareRewriteQuery => "Failed to prepare sent note rewrite query"
  | .prepareRewriteUpdate => "Failed to prepare sent note rewrite update"
  | .querySentNotes => "Failed to query sent notes for account deletion"
  | .readSentNotes => "Failed to read sent notes for account deletion"
  | .readAddress => "Failed to read sent note destination address"
  | .readSentNoteId => "Failed to read sent note id"
  | .rewriteSentNote => "Failed to rewrite sent note destination"
  | .deleteTransactions => "Failed to delete account-only transactions"
  | .deleteMigrationRows => "Delete account migration rows"
  | .deleteMigrationRuns => "Delete account migration runs"
  | .deleteAccount => "Failed to delete account"
  | .prune => "Failed to prune orphaned scan ranges after deletion"
  | .commit => "Failed to commit account deletion"

/-- The error of the database in a statement, if it has one there. -/
abbrev Faults := Statement → Option String

def Faults.attempt (faults : Faults) (s : Statement) : Except String Unit :=
  refuse (faults s) fun e => s.context ++ ": " ++ e

instance : ToString ScanQueue.ConstraintError where
  toString
    | .rangeStartUniq => "UNIQUE constraint failed: scan_queue.block_range_start"
    | .rangeEndUniq => "UNIQUE constraint failed: scan_queue.block_range_end"
    | .rangeBoundsOrder => "CHECK constraint failed: range_bounds_order"

/-- An operation whose error is that of a statement. -/
def Statement.failing {ε α : Type} [ToString ε] (s : Statement) : Except ε α → Except String α
  | .ok a => .ok a
  | .error e => .error (s.context ++ ": " ++ toString e)

/-- What a deletion does up to its commit. -/
def deleteAccountRows (schema : Schema) (faults : Faults) (db : WalletTables)
    (uuid : AccountUuid) : Except String WalletTables := do
  faults.attempt .openDb
  faults.attempt .busyTimeout
  faults.attempt .arrayModule
  faults.attempt .foreignKeys
  faults.attempt .begin
  faults.attempt .prepareRewriteQuery
  faults.attempt .prepareRewriteUpdate
  faults.attempt .querySentNotes
  faults.attempt .readSentNotes
  faults.attempt .readAddress
  faults.attempt .readSentNoteId
  faults.attempt .rewriteSentNote
  let rewritten := db.rewriteSentNotes uuid
  faults.attempt .deleteTransactions
  let separated := rewritten.deleteTransactions uuid
  faults.attempt .deleteMigrationRows
  faults.attempt .deleteMigrationRuns
  let unmigrated := separated.deleteMigrationRows uuid
  faults.attempt .deleteAccount
  let remaining ← Statement.deleteAccount.failing (unmigrated.deleteAccounts schema uuid)
  faults.attempt .prune
  let pruned ← Statement.prune.failing (ScanQueue.pruneOrphanedScanRangesInConn
    (remaining.accounts.map (·.birthdayHeight)) remaining.scanQueue)
  faults.attempt .commit
  return { remaining with scanQueue := pruned.2 }

/-- Delete an account; what has not been committed is rolled back. -/
def deleteAccount (schema : Schema) (faults : Faults) (db : WalletTables) (uuid : AccountUuid) :
    WalletTables × Except String Unit :=
  if db.accounts.any fun a => a.uuid = uuid then
    match deleteAccountRows schema faults db uuid with
    | .ok db' => (db', .ok ())
    | .error e => (db, .error e)
  else (db, .error ("Account not found: " ++ toString uuid))

end Keys

end Vizor
