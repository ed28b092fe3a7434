import Vizor.Lib.Run
import Vizor.Lib.Table
import Mathlib.Data.List.Destutter
import Mathlib.Data.List.Sort
import Mathlib.Logic.Function.Basic

/-!
# Participation in a voting round

A note of the snapshot can vote once, under its governance key.  The wallet asks a vote chain
which keys are used, keeps what it has seen in a cache that goes through the app and back, and
stores the notes that it has not seen unused, so that the bundles of a round are planned
without them.
-/

namespace Vizor

open Run

namespace Voting

/-! ### Notes and evidence -/

/-- A governance key. -/
abbrev GovKey := Nat

structure NoteInfo where
  nullifier : Nat
  position : Nat
  value : Nat
  deriving DecidableEq, Repr

/-- What was seen of a key. -/
structure Observation where
  used : Bool
  height : Nat
  deriving DecidableEq, Repr

/-- What was seen of the keys. -/
abbrev Observations := GovKey → Option Observation

/-- The functions on which participation rests: the keys of the nullifiers, the fingerprint of
the keys, the eligibility of notes under a limit of notes in a bundle, and the verification of
headers and queries, which accepts only what is so on the vote chain. -/
structure VotingSdk (Commit Validators Query AppHash : Type) where
  govKey : Nat → GovKey
  fingerprint : List GovKey → String
  validPolicy : Option Nat → Bool
  eligible : List NoteInfo → Option Nat → Option Bool
  height : Commit → Nat
  appHash : Commit → AppHash
  verifyHeader : Commit → Validators → Int → Bool
  verifyQuery : Query → GovKey → AppHash → Nat → Option Bool
  /-- Whether a key is used on the vote chain at a height. -/
  usedAt : GovKey → Nat → Bool
  usedAt_mono : ∀ key h h', h ≤ h' → usedAt key h = true → usedAt key h' = true
  genuine : ∀ commit validators now query key h used,
    verifyHeader commit validators now = true →
    verifyQuery query key (appHash commit) h = some used → used = usedAt key h

variable {Commit Validators Query AppHash : Type}

/-- What the app hands over, as far as it can be read. -/
structure Evidence (Commit Validators Query : Type) where
  length : Nat
  cached : Option Observations
  queryKeys : Option (List GovKey)
  commit : Option Commit
  validators : Option Validators
  queries : Option (List (Option Query))

def invalid : String :=
  "Voting participation evidence could not be verified"

def maxNotes : Nat := 1024

def maxJson : Nat := 8 * 1024 * 1024

/-! ### The voting database -/

/-- A bundle of a round. -/
structure BundleRow where
  walletId : String
  roundId : String
  vanPosition : Option Nat
  notePositions : List Nat
  /-- The check of the notes against what is stored of the bundle. -/
  requireNotes : List NoteInfo → Bool

/-- The notes that are excluded from a round. -/
structure ParticipationRow where
  walletId : String
  roundId : String
  snapshot : Nat
  excluded : List Nat
  deriving DecidableEq, Repr

structure VotingDb where
  bundles : List BundleRow := []
  participation : Option (List ParticipationRow) := none

namespace VotingDb

def roundBundles (db : VotingDb) (walletId round : String) : List BundleRow :=
  db.bundles.filter fun b => b.walletId = walletId ∧ b.roundId = round

/-- The stored exclusions. -/
def exclusions (db : VotingDb) (walletId round : String) (snapshot : Nat) :
    Option (List Nat) :=
  db.participation.bind fun rows => (rows.find? fun row => row.walletId = walletId
    ∧ row.roundId = round ∧ row.snapshot = snapshot).map (·.excluded)

def saveExclusions (db : VotingDb) (walletId round : String) (snapshot : Nat)
    (excluded : List Nat) : VotingDb × Bool :=
  let rows := db.participation.getD []
  if db.roundBundles walletId round ≠ [] then ({ db with participation := some rows }, true)
  else
    ({ db with participation := some (Table.upsert (fun row => (row.walletId, row.roundId))
        { walletId := walletId, roundId := round, snapshot := snapshot, excluded := excluded }
        rows) }, false)

def filterNotes (db : VotingDb) (walletId round : String) (snapshot : Nat)
    (notes : List NoteInfo) : List NoteInfo :=
  match db.exclusions walletId round snapshot with
  | none => notes
  | some excluded => notes.filter fun n => n.nullifier ∉ excluded

end VotingDb

/-! ### Candidates -/

/-- The account, the round, and the notes of the account at the snapshot. -/
structure Selection where
  account : String
  round : String
  snapshot : Nat
  notes : List NoteInfo

/-- The first notes of each run of one nullifier. -/
def dedupByNullifier (notes : List NoteInfo) : List NoteInfo :=
  notes.destutter fun a b => a.nullifier ≠ b.nullifier

structure Candidates where
  keys : List GovKey
  fingerprint : String
  confirmed : List GovKey

/-- The keys of the notes of bundles that took part. -/
def confirmedKeys (db : VotingDb) (account round : String) (notes : List NoteInfo)
    (keys : List GovKey) : List GovKey :=
  (db.roundBundles account round).flatMap fun b =>
    let bundle := b.notePositions.filterMap fun p => notes.find? fun n => n.position = p
    if b.vanPosition.isNone || !b.requireNotes bundle then []
    else bundle.filterMap fun n =>
      (notes.findIdx? fun candidate => candidate.nullifier = n.nullifier).bind (keys[·]?)

namespace VotingSdk

variable (sdk : VotingSdk Commit Validators Query AppHash)

/-- The notes of the snapshot by their nullifiers. -/
def sortedNotes (selection : Selection) : List NoteInfo :=
  dedupByNullifier (selection.notes.insertionSort fun a b => a.nullifier ≤ b.nullifier)

def notes (selection : Selection) (db : VotingDb) (fullyScanned : Nat) :
    Except String (List NoteInfo × Candidates) := do
  ensure (selection.snapshot ≤ fullyScanned) "Voting snapshot is not synced"
  let notes := sortedNotes selection
  ensure (notes.length ≤ maxNotes) "Voting participation note limit exceeded"
  let keys := notes.map fun n => sdk.govKey n.nullifier
  return (notes,
    { keys := keys
      fingerprint := sdk.fingerprint keys
      confirmed := confirmedKeys db selection.account selection.round notes keys })

/-! ### Observations -/

/-- What a query shows of its key, if it can be read and verified. -/
def queryResult (commit : Commit) (height : Nat) (entry : GovKey × Option Query) :
    Option Bool :=
  entry.2.bind fun query => sdk.verifyQuery query entry.1 (sdk.appHash commit) height

/-- What a query adds to what was seen. -/
def recordQuery (commit : Commit) (height : Nat) (cached : Observations)
    (entry : GovKey × Option Query) : Observations :=
  match sdk.queryResult commit height entry with
  | none => cached
  | some used =>
    if (cached entry.1).any fun old => old.used || decide (height < old.height) then cached
    else Function.update cached entry.1 (some ⟨used, height⟩)

def incrementalObservations (candidates : Candidates)
    (evidence : Evidence Commit Validators Query) (now : Int) : Except String Observations := do
  let cached ← okOr evidence.cached invalid
  let cached : Observations := fun key => if key ∈ candidates.keys then cached key else none
  let keys ← okOr evidence.queryKeys invalid
  ensure (keys.length ≤ maxNotes ∧ (∀ k ∈ keys, k ∈ candidates.keys) ∧ keys.Nodup) invalid
  if keys = [] then return cached
  else do
    let commit ← okOr evidence.commit invalid
    let validators ← okOr evidence.validators invalid
    ensure (sdk.verifyHeader commit validators now = true) invalid
    let queries ← okOr evidence.queries invalid
    ensure (keys.length = queries.length) invalid
    ensure (1 ≤ sdk.height commit) invalid
    return (keys.zip queries).foldl (sdk.recordQuery commit (sdk.height commit - 1)) cached

/-- The keys of bundles that took part are used. -/
def withConfirmed (observations : Observations) (confirmed : List GovKey) : Observations :=
  confirmed.foldl (fun observations key => Function.update observations key (some ⟨true, 0⟩))
    observations

/-! ### Evaluation -/

/-- A call for an evaluation. -/
structure Request (Commit Validators Query : Type) where
  fullyScanned : Nat
  fingerprint : String
  evidence : Option (Evidence Commit Validators Query)
  now : Int
  maxRealNotes : Option Nat
  /-- The database can be written. -/
  stores : Bool

structure Evaluation where
  localState : Bool
  fingerprint : String
  usedCount : Nat
  complete : Bool
  observations : Observations
  noteCount : Nat
  remainingEligible : Bool

/-- The notes that were not seen unused. -/
def excludedBy (notes : List NoteInfo) (observations : Observations) : List Nat :=
  (notes.filter fun n =>
    ((observations (sdk.govKey n.nullifier)).map (·.used)) ≠ some false).map (·.nullifier)

/-- The steps of an evaluation before it stores the exclusions. -/
def observe (selection : Selection) (db : VotingDb)
    (request : Request Commit Validators Query) :
    Except String (List NoteInfo × Observations × Bool) := do
  let (notes, candidates) ← sdk.notes selection db request.fullyScanned
  let evidence ← okOr request.evidence invalid
  ensure (request.fingerprint = candidates.fingerprint ∧ evidence.length ≤ maxJson) invalid
  let observations ← sdk.incrementalObservations candidates evidence request.now
  let observations := withConfirmed observations candidates.confirmed
  ensure (sdk.validPolicy request.maxRealNotes = true) invalid
  let remaining := notes.filter fun n =>
    ((observations (sdk.govKey n.nullifier)).map (·.used)) = some false
  let eligible ← if remaining = [] then pure false
    else okOr (sdk.eligible remaining request.maxRealNotes) invalid
  return (notes, observations, eligible)

def evaluate (selection : Selection) (db : VotingDb)
    (request : Request Commit Validators Query) : VotingDb × Except String Evaluation :=
  match sdk.observe selection db request with
  | .error e => (db, .error e)
  | .ok (notes, observations, eligible) =>
    if request.stores = false then (db, .error invalid)
    else
      let (db', localState) := db.saveExclusions selection.account selection.round
        selection.snapshot (sdk.excludedBy notes observations)
      let used := notes.map fun n => (observations (sdk.govKey n.nullifier)).map (·.used)
      (db', .ok
        { localState := localState
          fingerprint := request.fingerprint
          usedCount := used.count (some true)
          complete := used.all Option.isSome
          observations := observations
          noteCount := used.length
          remainingEligible := eligible })

end VotingSdk

end Voting

end Vizor
