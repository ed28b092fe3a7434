import Mathlib.Data.List.Sort
import Vizor.Lib.Run
import Vizor.Lib.Table

/-!
# Locks of send proposals

The inputs of a send proposal are locked in the wallet under an owner that is drawn for the
proposal.  Before they are locked, a row for each input is stored next to the wallet, with
the session of the process, so that a later process can release the locks of proposals that
were lost with their process.  A proposal that may have reached the network is retained: its
locks are kept until they expire.
-/

namespace Vizor

open Table Run

namespace Proposal

/-- The owner of a lock. -/
abbrev LockOwner := Nat

/-- The session of a process. -/
abbrev SessionId := Nat

/-- The pools of outputs. -/
inductive PoolType where
  | transparent
  | sapling
  | orchard
  | ironwood
  deriving DecidableEq, Repr

/-- The code of a pool in the table. -/
def poolCode : PoolType → Nat
  | .transparent => 0
  | .sapling => 2
  | .orchard => 3
  | .ironwood => 4

/-- The pool of a code. -/
def poolFromCode : Nat → Except String PoolType
  | 0 => .ok .transparent
  | 2 => .ok .sapling
  | 3 => .ok .orchard
  | 4 => .ok .ironwood
  | code => .error s!"Unknown persisted send lock pool code {code}"

theorem poolFromCode_poolCode {pool : PoolType} :
  poolFromCode (poolCode pool) = .ok pool
  := by
  cases pool <;> rfl

/-- An output of a transaction. -/
structure OutputRef where
  txid : Nat
  pool : PoolType
  outputIndex : Nat
  deriving DecidableEq, Repr

/-- The row of a locked input. -/
structure LockRow where
  owner : LockOwner
  sessionId : SessionId
  txid : Nat
  poolCode : Nat
  outputIndex : Nat
  expiryHeight : Nat
  retainUntilExpiry : Bool := false
  deriving DecidableEq, Repr

/-- The rows, and the owners of the locks in the wallet. -/
structure LockDb where
  rows : List LockRow := []
  holder : OutputRef → Option LockOwner := fun _ => none

/-- The row of an input. -/
def lockRow (owner : LockOwner) (sessionId : SessionId) (expiryHeight : Nat) (output : OutputRef) :
    LockRow where
  owner := owner
  sessionId := sessionId
  txid := output.txid
  poolCode := poolCode output.pool
  outputIndex := output.outputIndex
  expiryHeight := expiryHeight

/-- What identifies a row. -/
def LockRow.key (row : LockRow) : LockOwner × Nat × Nat × Nat :=
  (row.owner, row.txid, row.poolCode, row.outputIndex)

/-- The locks of an owner that belongs to another session. -/
structure OrphanLocks where
  owner : LockOwner
  expiryHeight : Nat
  retainUntilExpiry : Bool
  outputs : List OutputRef
  deriving DecidableEq, Repr

/-- The order in which the rows are read. -/
def LockRow.before (a b : LockRow) : Bool :=
  a.owner < b.owner || a.owner = b.owner && (a.txid < b.txid || a.txid = b.txid
    && (a.poolCode < b.poolCode || a.poolCode = b.poolCode && a.outputIndex ≤ b.outputIndex))

namespace LockDb

/-! ### The table -/

/-- Store the rows of the inputs of a proposal. -/
def persist (db : LockDb) (sessionId : SessionId) (owner : LockOwner) (outputs : List OutputRef)
    (expiryHeight : Nat) : LockDb :=
  let row := lockRow owner sessionId expiryHeight
  { db with rows := outputs.foldl (fun rows output => upsert LockRow.key (row output) rows) db.rows }

/-- Remove the rows of an owner. -/
def remove (db : LockDb) (owner : LockOwner) : LockDb :=
  { db with rows := deleteWhere (fun row => row.owner = owner) db.rows }

/-- Keep the locks of an owner until they expire. -/
def markRetainUntilExpiry (db : LockDb) (owner : LockOwner) : Except String LockDb := do
  ensure (∃ row ∈ db.rows, row.owner = owner) "Send proposal lock recovery row no longer exists"
  let retain (row : LockRow) : LockRow := { row with retainUntilExpiry := true }
  return { db with rows := updateWhere (fun row => row.owner = owner) retain db.rows }

/-- Change the expiry of the locks of an owner. -/
def updateExpiry (db : LockDb) (owner : LockOwner) (expiryHeight : Nat) :
    Except String LockDb := do
  ensure (∃ row ∈ db.rows, row.owner = owner) "Send proposal lock recovery row no longer exists"
  let expire (row : LockRow) : LockRow := { row with expiryHeight := expiryHeight }
  return { db with rows := updateWhere (fun row => row.owner = owner) expire db.rows }

/-! ### The locks in the wallet -/

/-- Lock outputs for an owner; the wallet grants the locks that no other owner has, or that
are `expired`. -/
def lockOutputs (db : LockDb) (outputs : List OutputRef) (owner : LockOwner)
    (expired : OutputRef → Bool) : Except String LockDb := do
  ensure (∀ output ∈ outputs, db.holder output = none ∨ db.holder output = some owner
    ∨ expired output = true) "Output is locked by another owner"
  return { db with holder := fun output =>
    if output ∈ outputs then some owner else db.holder output }

/-- Release the lock of an output, if it is the owner's. -/
def unlockOutput (db : LockDb) (output : OutputRef) (owner : LockOwner) : LockDb :=
  { db with holder := fun other =>
    if other = output ∧ db.holder other = some owner then none else db.holder other }

/-- Release the locks of outputs one after the other. -/
def unlockOutputs (db : LockDb) (outputs : List OutputRef) (owner : LockOwner) : LockDb :=
  outputs.foldl (fun db output => db.unlockOutput output owner) db

@[simp]
theorem rows_unlockOutputs {db : LockDb} {outputs : List OutputRef} {owner : LockOwner} :
  (db.unlockOutputs outputs owner).rows = db.rows
  := by
  unfold LockDb.unlockOutputs
  induction outputs generalizing db with
  | nil => rfl
  | cons output outputs ih =>
    rw [List.foldl_cons, ih]
    rfl

/-! ### Recovery -/

/-- Add the output of a row to the locks of its owner. -/
def addOrphanRow (locks : List OrphanLocks) (row : LockRow) : Except String (List OrphanLocks) := do
  ensure (∀ entry ∈ locks, entry.owner = row.owner →
    entry.expiryHeight = row.expiryHeight ∧ entry.retainUntilExpiry = row.retainUntilExpiry)
    "Persisted send lock owner has inconsistent metadata"
  let pool ← poolFromCode row.poolCode
  let output : OutputRef := ⟨row.txid, pool, row.outputIndex⟩
  return if ∃ entry ∈ locks, entry.owner = row.owner then
      updateWhere (fun entry => entry.owner = row.owner)
        (fun entry => { entry with outputs := entry.outputs ++ [output] }) locks
    else locks ++ [⟨row.owner, row.expiryHeight, row.retainUntilExpiry, [output]⟩]

/-- The locks that belong to other sessions, by owner. -/
def readPreviousSessionLocks (db : LockDb) (sessionId : SessionId) :
    Except String (List OrphanLocks) :=
  ((db.rows.filter (·.sessionId ≠ sessionId)).insertionSort fun a b => LockRow.before a b = true)
    |>.foldlM addOrphanRow []

/-- Whether a lock of another session is to be released. -/
def shouldReleaseAfterRestart (retainUntilExpiry : Bool) (targetHeight : Option Nat)
    (expiryHeight : Nat) : Bool :=
  !retainUntilExpiry || targetHeight.any fun height => expiryHeight ≤ height

/-- The locks that a recovery releases. -/
def releasedLocks (locks : List OrphanLocks) (targetHeight : Option Nat) : List OrphanLocks :=
  locks.filter fun entry =>
    shouldReleaseAfterRestart entry.retainUntilExpiry targetHeight entry.expiryHeight

/-- The unlocks of a recovery, in their order. -/
def orphanUnlocks (released : List OrphanLocks) : List (LockOwner × OutputRef) :=
  released.flatMap fun entry => entry.outputs.map fun output => (entry.owner, output)

/-- A recovery, which ends after `stop` of its steps: the unlocks one after the other, and
then the removal of the rows of the owners. -/
def recoverPreviousProcess (db : LockDb) (sessionId : SessionId) (targetHeight : Option Nat)
    (stop : Nat) : Except String LockDb := do
  let locks ← db.readPreviousSessionLocks sessionId
  let released := releasedLocks locks targetHeight
  let unlocks := orphanUnlocks released
  let unlocked := (unlocks.take stop).foldl (fun db unlock => db.unlockOutput unlock.2 unlock.1) db
  return if stop ≤ unlocks.length then unlocked
    else { unlocked with
      rows := deleteWhere (fun row => row.owner ∈ released.map (·.owner)) unlocked.rows }

end LockDb

end Proposal

end Vizor
