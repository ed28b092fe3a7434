import Mathlib.Algebra.Group.Nat.Defs
import Vizor.Lib.Interleave
import Vizor.Proposal.Locks

/-!
# The store of send proposals

A proposal is stored under an identifier, with a record of the lock of its inputs.  It is
executed by consuming it, reading the chain tip, and creating its transactions under the
write lock of the wallet, where the record is checked again.  Calls take turns: a step of a
call holds the mutex of the store or the write lock of the wallet, and other calls take their
steps between two of its steps.
-/

namespace Vizor

open Table Run Interleave

namespace Proposal

/-- The identifier of a proposal. -/
abbrev ProposalId := Nat

/-! ### Heights -/

/-- The bound of a block height. -/
def heightMax : Nat := 2 ^ 32 - 1

/-- The blocks for which the inputs of a proposal are locked. -/
def sendProposalLockBlocks : Nat := 40

/-- The height at which the lock of a proposal expires. -/
def sendProposalLockExpiry (minTargetHeight : Nat) : Nat :=
  min (minTargetHeight + sendProposalLockBlocks) heightMax

/-- Whether a proposal is expired at a target height. -/
def sendProposalIsExpired (minTargetHeight currentTargetHeight : Nat) : Bool :=
  sendProposalLockExpiry minTargetHeight ≤ currentTargetHeight

/-- The expiry of transactions that are created at a chain tip. -/
def sendExpiryHeightForLiveTip (minTargetHeight liveTip : Nat) : Except String Nat := do
  let liveTarget := liveTip + 1
  ensure (liveTarget ≤ heightMax) "Live transaction target height overflow"
  ensure (liveTarget < sendProposalLockExpiry minTargetHeight) <|
    "Send proposal expired against the live chain tip; review the payment and create a "
      ++ "new proposal"
  let expiry := max liveTarget minTargetHeight + sendProposalLockBlocks
  ensure (expiry ≤ heightMax) "Live transaction expiry height overflow"
  return expiry

/-! ### The store -/

/-- A proposal. -/
structure StoredProposal where
  proposalId : ProposalId
  inputs : List OutputRef
  minTargetHeight : Nat
  sendFlowId : String
  deriving DecidableEq, Repr

/-- The record of the lock of a proposal. -/
structure StoredProposalLock where
  proposalId : ProposalId
  inputs : List OutputRef
  dbPath : String
  owner : LockOwner
  sendFlowId : String
  deriving DecidableEq, Repr

/-- The proposals and the records, by identifier. -/
structure ProposalStore where
  proposals : List StoredProposal := []
  locks : List StoredProposalLock := []
  nextId : ProposalId := 1
  deriving DecidableEq, Repr

/-- A proposal whose inputs are selected and whose lock owner is drawn. -/
structure Draft where
  sendFlowId : String
  inputs : List OutputRef
  minTargetHeight : Nat
  owner : LockOwner
  deriving DecidableEq, Repr

namespace ProposalStore

/-- The proposal of an identifier. -/
def proposal? (store : ProposalStore) (id : ProposalId) : Option StoredProposal :=
  store.proposals.find? fun stored => stored.proposalId = id

/-- The record of an identifier. -/
def lock? (store : ProposalStore) (id : ProposalId) : Option StoredProposalLock :=
  store.locks.find? fun lock => lock.proposalId = id

/-- Remove a proposal. -/
def removeProposal (store : ProposalStore) (id : ProposalId) : ProposalStore :=
  { store with proposals := deleteWhere (fun stored => stored.proposalId = id) store.proposals }

/-- Remove a record. -/
def removeLock (store : ProposalStore) (id : ProposalId) : ProposalStore :=
  { store with locks := deleteWhere (fun lock => lock.proposalId = id) store.locks }

/-- The record of a draft under the next identifier. -/
def nextLock (store : ProposalStore) (dbPath : String) (draft : Draft) : StoredProposalLock where
  proposalId := store.nextId
  inputs := draft.inputs
  dbPath := dbPath
  owner := draft.owner
  sendFlowId := draft.sendFlowId

/-- The proposal of a draft under the next identifier. -/
def nextProposal (store : ProposalStore) (draft : Draft) : StoredProposal where
  proposalId := store.nextId
  inputs := draft.inputs
  minTargetHeight := draft.minTargetHeight
  sendFlowId := draft.sendFlowId

/-- Store a proposal and its record. -/
def insert (store : ProposalStore) (dbPath : String) (draft : Draft) : ProposalStore where
  proposals := upsert (·.proposalId) (store.nextProposal draft) store.proposals
  locks := upsert (·.proposalId) (store.nextLock dbPath draft) store.locks
  nextId := store.nextId + 1

/-- The record that a flow has for an identifier. -/
def storedProposalLock (store : ProposalStore) (id : ProposalId) (sendFlowId : String) :
    Except String StoredProposalLock :=
  match store.lock? id with
  | some lock => if lock.sendFlowId = sendFlowId then .ok lock else .error "Send flow mismatch"
  | none => .error "Proposal input lock not found"

end ProposalStore

/-! ### What calls share -/

/-- The store, the wallet and its write lock, with the history of the calls: the inputs for
which an owner was drawn, the records that were stored, what was consumed by which flow, the
owners whose record a retain call found, and the owners that a call gave up without releasing
their locks. -/
structure ProposalWallet where
  store : ProposalStore := {}
  db : LockDb
  dbPath : String
  sessionId : SessionId
  writing : Bool := false
  drawn : List (LockOwner × List OutputRef) := []
  known : List StoredProposalLock := []
  consumed : List (ProposalId × String) := []
  retained : List LockOwner := []
  untracked : List LockOwner := []

/-- What a step gets from outside: the errors of what it calls, what is selected and drawn,
what is read, and the locks that have expired. -/
structure Answer where
  error : Option String := none
  mutexError : Option String := none
  unlockError : Option (Nat × String) := none
  cleanupError : Option String := none
  inputs : List OutputRef := []
  owner : LockOwner := 0
  height : Nat := 0
  expired : OutputRef → Bool := fun _ => false

/-- The result of what a step calls. -/
def Answer.run {α : Type} (a : Answer) (result : Except String α) : Except String α :=
  match a.error with
  | some error => .error error
  | none => result

namespace LockDb

/-- Release the locks of inputs; with an error, after the first of them. -/
def unlockProposalInputs (db : LockDb) (inputs : List OutputRef) (owner : LockOwner) :
    Option (Nat × String) → LockDb
  | none => db.unlockOutputs inputs owner
  | some (unlocked, _) => db.unlockOutputs (inputs.take unlocked) owner

/-- Remove the rows of an owner, unless there is an error. -/
def removeUnless (db : LockDb) (owner : LockOwner) : Option String → LockDb
  | none => db.remove owner
  | some _ => db

/-- The locks of inputs are cleared when the transactions that spend them are stored. -/
def clearSpent (db : LockDb) (inputs : List OutputRef) : LockDb :=
  { db with holder := fun output => if output ∈ inputs then none else db.holder output }

end LockDb

/-! ### Calls -/

/-- Where a call stands. -/
inductive Point where
  | propose (sendFlowId : String)
  | proposeLock (draft : Draft)
  | proposeStore (draft : Draft)
  | consume (id : ProposalId) (sendFlowId : String) (dbPath : Option String)
  | loadSeed (stored : StoredProposal) (dbPath : String)
  | readLock (stored : StoredProposal) (dbPath : String)
  | readTip (stored : StoredProposal) (lock : StoredProposalLock)
  | recheck (stored : StoredProposal) (lock : StoredProposalLock) (expiryHeight : Nat)
  | relock (stored : StoredProposal) (current : StoredProposalLock) (expiryHeight : Nat)
  | updateExpiry (stored : StoredProposal) (current : StoredProposalLock) (expiryHeight : Nat)
  | create (stored : StoredProposal) (current : StoredProposalLock)
  | created (stored : StoredProposal) (current : StoredProposalLock)
  | finish (id : ProposalId) (sendFlowId : String) (releaseInputs : Bool) (cause : Option String)
  | unlock (id : ProposalId) (sendFlowId : String) (cause : Option String)
  | removeRows (owner : LockOwner) (logged : Bool)
  | discard (id : ProposalId) (sendFlowId : String)
  | retain (id : ProposalId) (sendFlowId : String)
  | retainMark (id : ProposalId) (sendFlowId : String) (owner : LockOwner)
  | returned (result : Except String Unit)
  deriving DecidableEq

namespace Point

/-- What a call returns that ends an execution with an error. -/
def settle (cause : Option String) (result : Except String Unit) : Point :=
  .returned (match cause, result with
    | none, result => result
    | some error, .ok _ => .error error
    | some error, .error cleanup =>
      .error s!"{error}; additionally failed to release proposal inputs: {cleanup}")

/-- An execution ends with an error, and releases the inputs of its proposal. -/
def fail (stored : StoredProposal) (error : String) : Point :=
  .finish stored.proposalId stored.sendFlowId true (some error)

end Point

namespace ProposalWallet

/-! ### Proposing -/

/-- Store the rows of a draft, under the write lock. -/
def propose (a : Answer) (w : ProposalWallet) (sendFlowId : String) : ProposalWallet × Point :=
  if sendFlowId = "" then (w, .returned (.error "Send flow id is required"))
  else if w.writing then (w, .propose sendFlowId)
  else match a.error with
    | some error => (w, .returned (.error error))
    | none =>
      let expiryHeight := sendProposalLockExpiry a.height
      ({ w with
          writing := true
          db := w.db.persist w.sessionId a.owner a.inputs expiryHeight
          drawn := (a.owner, a.inputs) :: w.drawn },
        .proposeLock ⟨sendFlowId, a.inputs, a.height, a.owner⟩)

/-- Lock the inputs of a draft, or remove its rows. -/
def proposeLock (a : Answer) (w : ProposalWallet) (draft : Draft) : ProposalWallet × Point :=
  match a.run (w.db.lockOutputs draft.inputs draft.owner a.expired) with
  | .ok db => ({ w with db := db }, .proposeStore draft)
  | .error error =>
    ({ w with db := w.db.removeUnless draft.owner a.cleanupError, writing := false },
      .returned (.error (match a.cleanupError with
        | none => s!"Lock send proposal inputs: {error}"
        | some cleanup => s!"Lock send proposal inputs: {error}; " ++
            s!"also failed to remove recovery rows: {cleanup}")))

/-- Why a draft could not be stored. -/
def storeError (a : Answer) (error : String) : String :=
  s!"Lock proposal store: {error}"
    ++ (match a.unlockError with
      | none => ""
      | some (_, unlock) => s!"; also failed to release proposal inputs: {unlock}")
    ++ (match a.cleanupError with
      | none => ""
      | some cleanup => s!"; also failed to remove recovery rows: {cleanup}")

/-- Store a draft under the next identifier, or release its inputs and remove its rows. -/
def proposeStore (a : Answer) (w : ProposalWallet) (draft : Draft) : ProposalWallet × Point :=
  match a.mutexError with
  | none =>
    ({ w with
        store := w.store.insert w.dbPath draft
        known := w.store.nextLock w.dbPath draft :: w.known
        writing := false },
      .returned (.ok ()))
  | some error =>
    let unlocked := w.db.unlockProposalInputs draft.inputs draft.owner a.unlockError
    ({ w with
        db := unlocked.removeUnless draft.owner a.cleanupError
        untracked := if a.unlockError.isSome then draft.owner :: w.untracked else w.untracked
        writing := false },
      .returned (.error (storeError a error)))

/-! ### Finishing -/

/-- Take the record away, or go on to release the inputs. -/
def finishStoredProposal (a : Answer) (w : ProposalWallet) (id : ProposalId) (sendFlowId : String)
    (releaseInputs : Bool) (cause : Option String) : ProposalWallet × Point :=
  match a.mutexError with
  | some error => (w, .settle cause (.error s!"Lock proposal store for finish: {error}"))
  | none =>
    match w.store.lock? id with
    | none => (w, .settle cause (.ok ()))
    | some lock =>
      if lock.sendFlowId ≠ sendFlowId then (w, .settle cause (.error "Send flow mismatch"))
      else if releaseInputs then (w, .unlock id sendFlowId cause)
      else
        ({ w with store := w.store.removeLock id, untracked := lock.owner :: w.untracked },
          .removeRows lock.owner false)

/-- Release the inputs of a record, remove its rows and take it away, under the write lock. -/
def unlockStoredProposal (a : Answer) (w : ProposalWallet) (id : ProposalId) (sendFlowId : String)
    (cause : Option String) : ProposalWallet × Point :=
  if w.writing then (w, .unlock id sendFlowId cause)
  else match a.mutexError with
    | some error =>
      (w, .settle cause (.error s!"Lock proposal store before DB unlock: {error}"))
    | none =>
      match w.store.lock? id with
      | none => (w, .settle cause (.ok ()))
      | some current =>
        if current.sendFlowId ≠ sendFlowId then
          (w, .settle cause (.error "Send flow mismatch before DB unlock"))
        else
          let db := w.db.unlockProposalInputs current.inputs current.owner a.unlockError
          match a.unlockError, a.cleanupError with
          | some (_, error), _ =>
            ({ w with db := db },
              .settle cause (.error s!"Unlock abandoned send proposal inputs: {error}"))
          | none, some error => ({ w with db := db }, .settle cause (.error error))
          | none, none =>
            ({ w with db := db.remove current.owner, store := w.store.removeLock id },
              .settle cause (.ok ()))

/-- Discard a proposal, and go on to release its inputs. -/
def discardStoredProposal (a : Answer) (w : ProposalWallet) (id : ProposalId)
    (sendFlowId : String) : ProposalWallet × Point :=
  match a.mutexError with
  | some error => (w, .returned (.error s!"Lock proposal store for discard: {error}"))
  | none =>
    match w.store.proposal? id with
    | some stored =>
      if stored.sendFlowId = sendFlowId then
        ({ w with store := w.store.removeProposal id }, .finish id sendFlowId true none)
      else (w, .returned (.error "Send flow mismatch"))
    | none =>
      match w.store.lock? id with
      | some lock =>
        if lock.sendFlowId = sendFlowId then (w, .finish id sendFlowId true none)
        else (w, .returned (.error "Send flow mismatch"))
      | none => (w, .returned (.ok ()))

/-- Find the record that is to be retained. -/
def retainStoredProposalLock (a : Answer) (w : ProposalWallet) (id : ProposalId)
    (sendFlowId : String) : ProposalWallet × Point :=
  match a.mutexError with
  | some error =>
    (w, .returned (.error s!"Lock proposal store to inspect retained DB lock: {error}"))
  | none =>
    match w.store.lock? id with
    | some lock =>
      if lock.sendFlowId = sendFlowId then (w, .retainMark id sendFlowId lock.owner)
      else (w, .returned (.error "Send flow mismatch"))
    | none => (w, .returned (.ok ()))

/-- Mark the rows of the record and take it away with its proposal, under the write lock. -/
def retainMark (a : Answer) (w : ProposalWallet) (id : ProposalId) (sendFlowId : String)
    (owner : LockOwner) : ProposalWallet × Point :=
  if w.writing then (w, .retainMark id sendFlowId owner)
  else match a.mutexError with
    | some error => (w, .returned (.error s!"Lock proposal store to retain DB lock: {error}"))
    | none =>
      match w.store.lock? id with
      | none => ({ w with retained := owner :: w.retained }, .returned (.ok ()))
      | some current =>
        if current.sendFlowId ≠ sendFlowId ∨ current.owner ≠ owner then
          (w, .returned (.error "Send flow changed before retaining DB lock"))
        else match a.run (w.db.markRetainUntilExpiry owner) with
          | .error error => (w, .returned (.error error))
          | .ok db =>
            if (w.store.proposal? id).any (·.sendFlowId ≠ sendFlowId) then
              ({ w with db := db }, .returned (.error "Send flow mismatch"))
            else
              ({ w with
                  db := db
                  store := (w.store.removeProposal id).removeLock id
                  retained := owner :: w.retained },
                .returned (.ok ()))

/-! ### Executing -/

/-- Consume a proposal, and execute it when the call is an execution. -/
def consumeStoredProposal (a : Answer) (w : ProposalWallet) (id : ProposalId)
    (sendFlowId : String) (dbPath : Option String) : ProposalWallet × Point :=
  match a.mutexError with
  | some error => (w, .returned (.error s!"Lock error: {error}"))
  | none =>
    match w.store.proposal? id with
    | none => (w, .returned (.error "Proposal not found (expired or already executed)"))
    | some stored =>
      if stored.sendFlowId ≠ sendFlowId then (w, .returned (.error "Send flow mismatch"))
      else
        ({ w with
            store := w.store.removeProposal id
            consumed := (id, sendFlowId) :: w.consumed },
          match dbPath with
          | none => .returned (.ok ())
          | some dbPath => .loadSeed stored dbPath)

/-- Load the seed. -/
def loadSeed (a : Answer) (w : ProposalWallet) (stored : StoredProposal) (dbPath : String) :
    ProposalWallet × Point :=
  match a.error with
  | some error => (w, .fail stored error)
  | none => (w, .readLock stored dbPath)

/-- Read the record of the proposal. -/
def readLock (a : Answer) (w : ProposalWallet) (stored : StoredProposal) (dbPath : String) :
    ProposalWallet × Point :=
  match a.run (w.store.storedProposalLock stored.proposalId stored.sendFlowId) with
  | .error error => (w, .fail stored error)
  | .ok lock =>
    if lock.dbPath ≠ dbPath then
      (w, .fail stored "Proposal belongs to a different wallet database")
    else (w, .readTip stored lock)

/-- Read the chain tip from the network. -/
def readTip (a : Answer) (w : ProposalWallet) (stored : StoredProposal)
    (lock : StoredProposalLock) : ProposalWallet × Point :=
  match a.run (sendExpiryHeightForLiveTip stored.minTargetHeight a.height) with
  | .error error => (w, .fail stored error)
  | .ok expiryHeight => (w, .recheck stored lock expiryHeight)

/-- Check the record again, under the write lock. -/
def recheck (a : Answer) (w : ProposalWallet) (stored : StoredProposal)
    (lock : StoredProposalLock) (expiryHeight : Nat) : ProposalWallet × Point :=
  if w.writing then (w, .recheck stored lock expiryHeight)
  else match a.run (w.store.storedProposalLock stored.proposalId stored.sendFlowId) with
    | .error error => (w, .fail stored error)
    | .ok current =>
      if current.owner ≠ lock.owner ∨ current.dbPath ≠ lock.dbPath then
        (w, .fail stored "Send proposal input lock changed while refreshing chain tip")
      else ({ w with writing := true }, .relock stored current expiryHeight)

/-- Lock the inputs again, if the proposal is not expired. -/
def relock (a : Answer) (w : ProposalWallet) (stored : StoredProposal)
    (current : StoredProposalLock) (expiryHeight : Nat) : ProposalWallet × Point :=
  if sendProposalIsExpired stored.minTargetHeight a.height then
    ({ w with writing := false }, .fail stored
      "Send proposal expired; review the payment and create a new proposal")
  else match a.run (w.db.lockOutputs stored.inputs current.owner a.expired) with
    | .error error =>
      ({ w with writing := false }, .fail stored s!"Revalidate send proposal input locks: {error}")
    | .ok db => ({ w with db := db }, .updateExpiry stored current expiryHeight)

/-- Store the new expiry of the locks. -/
def updateExpiry (a : Answer) (w : ProposalWallet) (stored : StoredProposal)
    (current : StoredProposalLock) (expiryHeight : Nat) : ProposalWallet × Point :=
  match a.run (w.db.updateExpiry current.owner expiryHeight) with
  | .error error => ({ w with writing := false }, .fail stored error)
  | .ok db => ({ w with db := db }, .create stored current)

/-- Create and store the transactions, which clears the locks of the inputs they spend. -/
def create (a : Answer) (w : ProposalWallet) (stored : StoredProposal)
    (current : StoredProposalLock) : ProposalWallet × Point :=
  match a.error with
  | some error => ({ w with writing := false }, .fail stored s!"Create TX failed: {error}")
  | none =>
    ({ w with db := w.db.clearSpent stored.inputs, writing := false }, .created stored current)

/-- Take the record away when the transactions are stored. -/
def created (a : Answer) (w : ProposalWallet) (stored : StoredProposal) :
    ProposalWallet × Point :=
  match a.mutexError, w.store.storedProposalLock stored.proposalId stored.sendFlowId with
  | none, .ok lock =>
    ({ w with store := w.store.removeLock stored.proposalId }, .removeRows lock.owner true)
  | _, _ => (w, .returned (.ok ()))

/-- Remove the rows of a record that was taken away. -/
def removeRows (a : Answer) (w : ProposalWallet) (owner : LockOwner) (logged : Bool) :
    ProposalWallet × Point :=
  ({ w with db := w.db.removeUnless owner a.cleanupError },
    .returned (match a.cleanupError with
      | some error => if logged then .ok () else .error error
      | none => .ok ()))

/-- A step of a call. -/
def advance (a : Answer) (w : ProposalWallet) : Point → ProposalWallet × Point
  | .propose sendFlowId => w.propose a sendFlowId
  | .proposeLock draft => w.proposeLock a draft
  | .proposeStore draft => w.proposeStore a draft
  | .consume id sendFlowId dbPath => w.consumeStoredProposal a id sendFlowId dbPath
  | .loadSeed stored dbPath => w.loadSeed a stored dbPath
  | .readLock stored dbPath => w.readLock a stored dbPath
  | .readTip stored lock => w.readTip a stored lock
  | .recheck stored lock expiryHeight => w.recheck a stored lock expiryHeight
  | .relock stored current expiryHeight => w.relock a stored current expiryHeight
  | .updateExpiry stored current expiryHeight => w.updateExpiry a stored current expiryHeight
  | .create stored current => w.create a stored current
  | .created stored _ => w.created a stored
  | .finish id sendFlowId release cause => w.finishStoredProposal a id sendFlowId release cause
  | .unlock id sendFlowId cause => w.unlockStoredProposal a id sendFlowId cause
  | .removeRows owner logged => w.removeRows a owner logged
  | .discard id sendFlowId => w.discardStoredProposal a id sendFlowId
  | .retain id sendFlowId => w.retainStoredProposalLock a id sendFlowId
  | .retainMark id sendFlowId owner => w.retainMark a id sendFlowId owner
  | .returned result => (w, .returned result)

/-- What is left when the process ends: the wallet and its rows.  The next process has a
store of its own and another session. -/
def crash (w : ProposalWallet) : ProposalWallet :=
  { w with
    store := {}
    writing := false
    sessionId := w.sessionId + 1
    known := []
    consumed := [] }

end ProposalWallet

/-- What can be called. -/
inductive Call where
  | proposeSend (sendFlowId : String)
  | consumeStoredProposal (id : ProposalId) (sendFlowId : String)
  | executeProposal (dbPath : String) (id : ProposalId) (sendFlowId : String)
  | finishStoredProposal (id : ProposalId) (sendFlowId : String) (releaseInputs : Bool)
  | discardStoredProposal (id : ProposalId) (sendFlowId : String)
  | retainStoredProposalLockUntilExpiry (id : ProposalId) (sendFlowId : String)

/-- Where a call starts. -/
def Call.start : Call → Point
  | .proposeSend sendFlowId => .propose sendFlowId
  | .consumeStoredProposal id sendFlowId => .consume id sendFlowId none
  | .executeProposal dbPath id sendFlowId => .consume id sendFlowId (some dbPath)
  | .finishStoredProposal id sendFlowId release => .finish id sendFlowId release none
  | .discardStoredProposal id sendFlowId => .discard id sendFlowId
  | .retainStoredProposalLockUntilExpiry id sendFlowId => .retain id sendFlowId

/-- The calls of a process, in any order of their steps. -/
def calls : Program ProposalWallet Point Call Answer where
  start := Call.start
  advance := ProposalWallet.advance
  crash := ProposalWallet.crash

end Proposal

end Vizor
