import Mathlib.Data.List.Sort
import Mathlib.Logic.Function.Basic
import Vizor.Lib.Interleave
import Vizor.Store.Rows

/-!
# The cache of receive addresses

A file next to the wallet database caches, for each account, the external transparent
addresses with the flag that they have received.  Its operations read the list of addresses
from the database, read the record of the account and write the record back, each on its own;
only a mark that the record is dirty reads and writes it in one go.  The database keeps a
record of the marks, with the addresses that had received when they were made.
-/

namespace Vizor

open Run Interleave

namespace ReceiveCache

/-- The version of the records. -/
def cacheVersion : Nat := 3

/-- An external transparent address. -/
structure CachedExternalAddress where
  childIndex : Nat
  address : String
  hasReceived : Bool
  deriving DecidableEq, Repr

/-- The height up to which an address was checked for outputs. -/
structure CachedUtxoCheck where
  childIndex : Nat
  nextStartHeight : Nat
  deriving DecidableEq, Repr

/-- The record of an account. -/
structure CacheRecord where
  version : Nat := cacheVersion
  network : WalletNetwork
  dirty : Bool := false
  refreshedScannedHeight : Option Nat := none
  externalAddresses : List CachedExternalAddress := []
  utxoSweepNextOffset : Nat := 0
  utxoCheckedHeights : List CachedUtxoCheck := []
  deriving DecidableEq, Repr

/-- The addresses of accounts in the database, the records of the cache, each with the number
of marks that were made before its addresses were read, and the marks with the addresses that
had received. -/
structure Shared where
  addresses : AccountUuid → List CachedExternalAddress
  cache : AccountUuid → Option (CacheRecord × Nat)
  marks : List (AccountUuid × List Nat) := []

/-! ### Records -/

/-- The first address that has not received. -/
def firstUnusedExternalTransparentAddress (addresses : List CachedExternalAddress) :
    Option CachedExternalAddress :=
  (addresses.filter (!·.hasReceived)).foldl
    (fun best address => match best with
      | none => some address
      | some other => if address.childIndex < other.childIndex then some address else some other)
    none

/-- The addresses by child index. -/
def sortByChildIndex (addresses : List CachedExternalAddress) : List CachedExternalAddress :=
  addresses.insertionSort fun a b => a.childIndex ≤ b.childIndex

/-- The addresses that have a text. -/
def allExternalAddresses (addresses : List CachedExternalAddress) : List CachedExternalAddress :=
  sortByChildIndex (addresses.filter (·.address ≠ ""))

/-- The addresses that have received, and the first one that has not. -/
def projectedExternalAddresses (addresses : List CachedExternalAddress) :
    List CachedExternalAddress :=
  let firstUnusedIndex := ((addresses.filter fun address =>
    address.address ≠ "" && !address.hasReceived).map (·.childIndex)).min?
  sortByChildIndex (addresses.filter fun address =>
    address.address ≠ "" && (address.hasReceived || some address.childIndex = firstUnusedIndex))

/-- Set the checked height of a child index; the heights stay in the order of the indexes. -/
def insertCheck (checks : List CachedUtxoCheck) (childIndex nextStartHeight : Nat) :
    List CachedUtxoCheck :=
  (checks.filter (·.childIndex < childIndex)) ++ [⟨childIndex, nextStartHeight⟩]
    ++ checks.filter (childIndex < ·.childIndex)

/-- The checked heights of addresses that are known. -/
def preservedUtxoCheckedHeights (record : CacheRecord)
    (externalAddresses : List CachedExternalAddress) : List CachedUtxoCheck :=
  ((record.utxoCheckedHeights.filter fun entry =>
    externalAddresses.any (·.childIndex = entry.childIndex))).foldl
      (fun checks entry => insertCheck checks entry.childIndex entry.nextStartHeight) []

/-- The record of an account, if it has the version and the network of the wallet. -/
def readCompatibleRecord (s : Shared) (network : WalletNetwork) (account : AccountUuid) :
    Option (CacheRecord × Nat) :=
  (s.cache account).filter fun record =>
    record.1.version = cacheVersion && record.1.network = network

/-- Write the record of an account, whose addresses were read after `readAt` marks. -/
def writeRecord (s : Shared) (account : AccountUuid) (record : CacheRecord) (readAt : Nat) :
    Shared :=
  { s with cache := Function.update s.cache account (some (record, readAt)) }

/-- The first unused address of a clean record. -/
def getCleanEntry (s : Shared) (network : WalletNetwork) (account : AccountUuid) :
    Option CachedExternalAddress :=
  ((s.cache account).filter fun record => record.1.version = cacheVersion
    && record.1.network = network && !record.1.dirty).bind fun record =>
      firstUnusedExternalTransparentAddress record.1.externalAddresses

/-- The address that is handed out to receive. -/
def getCleanAddress (s : Shared) (network : WalletNetwork) (account : AccountUuid) :
    Option String :=
  (getCleanEntry s network account).map (·.address)

/-- The child indexes of the addresses that have received. -/
def receivedIndexes (addresses : List CachedExternalAddress) : List Nat :=
  (addresses.filter (·.hasReceived)).map (·.childIndex)

/-- Mark the record of an account, so that it is not used before it is refreshed. -/
def markAccountDirty (s : Shared) (account : AccountUuid) : Shared :=
  { s with
    cache := Function.update s.cache account
      ((s.cache account).map fun record => ({ record.1 with dirty := true }, record.2))
    marks := s.marks ++ [(account, receivedIndexes (s.addresses account))] }

/-- Remove the record of an account. -/
def deleteAccount (s : Shared) (account : AccountUuid) : Shared :=
  { s with cache := Function.update s.cache account none }

/-! ### The batches of a refresh -/

/-- Addresses whose outputs are to be read. -/
structure TransparentUtxoRefreshBatch where
  addresses : List String
  childIndices : List Nat
  startHeight : Nat
  nextSweepOffset : Option Nat
  deriving DecidableEq, Repr

/-- How far before the checked height outputs are read again. -/
def transparentUtxoRequeryLookback : Nat := 100

/-- The checked height of a child index; the last entry counts. -/
def checkedHeight (checks : List CachedUtxoCheck) (childIndex : Nat) : Option Nat :=
  (checks.reverse.find? (·.childIndex = childIndex)).map (·.nextStartHeight)

/-- The batch of some addresses, from the lowest height that one of them needs. -/
def refreshBatch (addresses : List CachedExternalAddress) (checks : List CachedUtxoCheck)
    (accountBirthdayHeight safetyStartHeight : Nat) (nextSweepOffset : Option Nat) :
    Option TransparentUtxoRefreshBatch :=
  if addresses = [] then none
  else
    let initialStartHeight := min accountBirthdayHeight safetyStartHeight
    let starts := addresses.map fun address =>
      match checkedHeight checks address.childIndex with
      | some height => max (height - transparentUtxoRequeryLookback) initialStartHeight
      | none => initialStartHeight
    some {
      addresses := addresses.map (·.address)
      childIndices := addresses.map (·.childIndex)
      startHeight := starts.min?.getD initialStartHeight
      nextSweepOffset := nextSweepOffset }

/-- The limits of a refresh. -/
structure RefreshLimits where
  accountBirthdayHeight : Nat
  safetyStartHeight : Nat
  recentLimit : Nat
  sweepLimit : Nat
  deriving DecidableEq, Repr

/-- The recent addresses, and the next ones of a sweep over the others. -/
def externalUtxoRefreshBatches (addresses : List CachedExternalAddress)
    (checks : List CachedUtxoCheck) (utxoSweepNextOffset : Nat) (limits : RefreshLimits) :
    List TransparentUtxoRefreshBatch :=
  let eligible := addresses.insertionSort fun a b => b.childIndex ≤ a.childIndex
  let old := eligible.drop limits.recentLimit
  let recentBatch := refreshBatch (eligible.take limits.recentLimit) checks
    limits.accountBirthdayHeight limits.safetyStartHeight none
  let sweepBatch := if old = [] ∨ limits.sweepLimit = 0 then none
    else
      let offset := utxoSweepNextOffset % old.length
      let take := min limits.sweepLimit old.length
      refreshBatch ((List.range take).filterMap fun i => old[(offset + i) % old.length]?) checks
        limits.accountBirthdayHeight limits.safetyStartHeight (some ((offset + take) % old.length))
  recentBatch.toList ++ sweepBatch.toList

/-! ### Calls -/

/-- Where a call stands.  A list of addresses comes with the number of marks that were made
before it was read. -/
inductive Point where
  /-- Before the addresses for a plan are read. -/
  | planExternalUtxoRefresh (network : WalletNetwork) (account : AccountUuid)
      (limits : RefreshLimits)
  /-- Before the record for a plan is read. -/
  | planRecord (network : WalletNetwork) (account : AccountUuid) (limits : RefreshLimits)
      (addresses : List CachedExternalAddress) (readAt : Nat)
  | planWrite (account : AccountUuid) (record : CacheRecord)
      (batches : List TransparentUtxoRefreshBatch) (readAt : Nat)
  | planned (batches : List TransparentUtxoRefreshBatch)
  /-- Before the record of a completed batch is read. -/
  | markUtxoRefreshBatchComplete (network : WalletNetwork) (account : AccountUuid)
      (childIndices : List Nat) (nextStartHeight : Nat) (nextSweepOffset : Option Nat)
  | completeWrite (account : AccountUuid) (record : CacheRecord) (readAt : Nat)
  /-- Before the addresses for a refresh are read. -/
  | refreshAccountCacheFromWalletDb (network : WalletNetwork) (account : AccountUuid)
      (scannedHeight : Option Nat)
  /-- Before the record for a refresh is read. -/
  | refreshRecord (network : WalletNetwork) (account : AccountUuid) (scannedHeight : Option Nat)
      (addresses : List CachedExternalAddress) (readAt : Nat)
  | refreshWrite (account : AccountUuid) (record : CacheRecord) (readAt : Nat)
  | markAccountDirty (account : AccountUuid)
  | deleteAccount (account : AccountUuid)
  /-- Before the addresses of an account change in the database. -/
  | storeOutputs (account : AccountUuid) (addresses : List CachedExternalAddress)
  | returned
  deriving DecidableEq, Repr

/-- The kinds of calls. -/
inductive Call where
  | planExternalUtxoRefresh (network : WalletNetwork) (account : AccountUuid)
      (limits : RefreshLimits)
  | markUtxoRefreshBatchComplete (network : WalletNetwork) (account : AccountUuid)
      (childIndices : List Nat) (nextStartHeight : Nat) (nextSweepOffset : Option Nat)
  | refreshAccountCacheFromWalletDb (network : WalletNetwork) (account : AccountUuid)
      (scannedHeight : Option Nat)
  | markAccountDirty (account : AccountUuid)
  | deleteAccount (account : AccountUuid)
  | storeOutputs (account : AccountUuid) (addresses : List CachedExternalAddress)
  deriving DecidableEq, Repr

/-- The record that a plan writes. -/
def plannedRecord (network : WalletNetwork) (addresses : List CachedExternalAddress)
    (existing : Option CacheRecord) : CacheRecord :=
  let record := existing.getD { network := network }
  { record with
    version := cacheVersion
    network := network
    dirty := false
    utxoCheckedHeights := preservedUtxoCheckedHeights record (allExternalAddresses addresses)
    externalAddresses := projectedExternalAddresses addresses }

/-- The record that a completed batch writes. -/
def completedRecord (record : CacheRecord) (childIndices : List Nat) (nextStartHeight : Nat)
    (nextSweepOffset : Option Nat) : CacheRecord :=
  { record with
    utxoCheckedHeights := childIndices.foldl
      (fun checks childIndex => insertCheck checks childIndex nextStartHeight)
      (record.utxoCheckedHeights.foldl
        (fun checks entry => insertCheck checks entry.childIndex entry.nextStartHeight) [])
    utxoSweepNextOffset := nextSweepOffset.getD record.utxoSweepNextOffset }

/-- The record that a refresh writes. -/
def refreshedRecord (network : WalletNetwork) (scannedHeight : Option Nat)
    (addresses : List CachedExternalAddress) (existing : Option CacheRecord) : CacheRecord where
  network := network
  refreshedScannedHeight := scannedHeight
  externalAddresses := projectedExternalAddresses addresses
  utxoSweepNextOffset := (existing.map (·.utxoSweepNextOffset)).getD 0
  utxoCheckedHeights := (existing.map fun record =>
    preservedUtxoCheckedHeights record (allExternalAddresses addresses)).getD []

/-- The next step of a call. -/
def step (s : Shared) : Point → Shared × Point
  | .planExternalUtxoRefresh network account limits =>
    (s, .planRecord network account limits (s.addresses account) s.marks.length)
  | .planRecord network account limits addresses readAt =>
    let record := plannedRecord network addresses
      ((readCompatibleRecord s network account).map (·.1))
    (s, .planWrite account record
      (externalUtxoRefreshBatches (allExternalAddresses addresses) record.utxoCheckedHeights
        record.utxoSweepNextOffset limits)
      readAt)
  | .planWrite account record batches readAt =>
    (writeRecord s account record readAt, .planned batches)
  | .planned batches => (s, .planned batches)
  | .markUtxoRefreshBatchComplete network account childIndices nextStartHeight nextSweepOffset =>
    (s, if childIndices = [] then .returned
      else match readCompatibleRecord s network account with
      | some (record, readAt) =>
        .completeWrite account
          (completedRecord record childIndices nextStartHeight nextSweepOffset) readAt
      | none => .returned)
  | .completeWrite account record readAt => (writeRecord s account record readAt, .returned)
  | .refreshAccountCacheFromWalletDb network account scannedHeight =>
    (s, .refreshRecord network account scannedHeight (s.addresses account) s.marks.length)
  | .refreshRecord network account scannedHeight addresses readAt =>
    (s, .refreshWrite account (refreshedRecord network scannedHeight addresses
      ((readCompatibleRecord s network account).map (·.1))) readAt)
  | .refreshWrite account record readAt => (writeRecord s account record readAt, .returned)
  | .markAccountDirty account => (markAccountDirty s account, .returned)
  | .deleteAccount account => (deleteAccount s account, .returned)
  | .storeOutputs account addresses =>
    ({ s with addresses := Function.update s.addresses account addresses }, .returned)
  | .returned => (s, .returned)

/-- Where a call starts. -/
def Call.start : Call → Point
  | .planExternalUtxoRefresh network account limits =>
    .planExternalUtxoRefresh network account limits
  | .markUtxoRefreshBatchComplete network account childIndices nextStartHeight nextSweepOffset =>
    .markUtxoRefreshBatchComplete network account childIndices nextStartHeight nextSweepOffset
  | .refreshAccountCacheFromWalletDb network account scannedHeight =>
    .refreshAccountCacheFromWalletDb network account scannedHeight
  | .markAccountDirty account => .markAccountDirty account
  | .deleteAccount account => .deleteAccount account
  | .storeOutputs account addresses => .storeOutputs account addresses

/-- A call that completes a batch, with no other call between its steps. -/
def markUtxoRefreshBatchComplete (s : Shared) (network : WalletNetwork) (account : AccountUuid)
    (childIndices : List Nat) (nextStartHeight : Nat) (nextSweepOffset : Option Nat) : Shared :=
  let read := step s
    (.markUtxoRefreshBatchComplete network account childIndices nextStartHeight nextSweepOffset)
  (step read.1 read.2).1

/-- The calls on the cache; a step may fail, and the cache outlives the process. -/
def program : Program Shared Point Call Bool where
  start := Call.start
  advance fails s p := if fails then (s, .returned) else step s p
  crash s := s

/-! ### What is handed out -/

/-- The address that a record hands out, unless it is dirty. -/
def CacheRecord.offered (record : CacheRecord) : Option CachedExternalAddress :=
  if record.dirty then none
  else firstUnusedExternalTransparentAddress record.externalAddresses

/-- The account, the address and the age of the list of the clean record that a call is going
to write. -/
def Point.pending : Point → Option (AccountUuid × CachedExternalAddress × Nat)
  | .planRecord _ account _ addresses readAt | .refreshRecord _ account _ addresses readAt =>
    (firstUnusedExternalTransparentAddress (projectedExternalAddresses addresses)).map
      fun address => (account, address, readAt)
  | .planWrite account record _ readAt | .completeWrite account record readAt
  | .refreshWrite account record readAt =>
    record.offered.map fun address => (account, address, readAt)
  | _ => none

/-- No call is going to write a clean record that hands out an address which the database
marks as received when the account is marked. -/
def MarksSeen (w : World Shared Point) : Move Call Bool → Prop
  | .advance i false =>
    match w.calls[i]? with
    | some (.markAccountDirty account) => ∀ p ∈ w.calls, ∀ pending ∈ p.pending,
      pending.1 = account →
        pending.2.1.childIndex ∉ receivedIndexes (w.shared.addresses account)
    | _ => True
  | _ => True

/-- The address had not received at any mark of the account after its list was read. -/
def Safe (s : Shared) (account : AccountUuid) (address : CachedExternalAddress) (readAt : Nat) :
    Prop :=
  ∀ n received, s.marks[n]? = some (account, received) → address.childIndex ∈ received → n < readAt

/-- The records hand out addresses that are safe. -/
def Clean (s : Shared) : Prop :=
  ∀ account record readAt address, s.cache account = some (record, readAt) →
    record.offered = some address → Safe s account address readAt

/-- The call is going to write a record that hands out a safe address. -/
def WritesClean (s : Shared) (p : Point) : Prop :=
  ∀ account address readAt, p.pending = some (account, address, readAt) →
    Safe s account address readAt

variable {s s' : Shared} {account : AccountUuid}

/-- A list that is read now is read after every mark. -/
theorem safe_length {address : CachedExternalAddress} :
  Safe s account address s.marks.length
  := by
  intro n received hmark _
  apply (List.getElem?_eq_some_iff.mp hmark).1

theorem Safe.of_marks {address : CachedExternalAddress} {readAt : Nat}
    (h : Safe s account address readAt) (hmarks : s'.marks = s.marks) :
  Safe s' account address readAt
  := by
  unfold Safe
  rw [hmarks]
  apply h

/-- A mark keeps the addresses safe that had not received. -/
theorem Safe.markAccountDirty {address : CachedExternalAddress} {readAt : Nat}
    {marked : AccountUuid} (h : Safe s account address readAt)
    (hunused : account = marked →
      address.childIndex ∉ receivedIndexes (s.addresses marked)) :
  Safe (markAccountDirty s marked) account address readAt
  := by
  intro n received hmark hmem
  replace hmark : (s.marks ++ [(marked, receivedIndexes (s.addresses marked))])[n]?
    = some (account, received) := hmark
  rcases Nat.lt_or_ge n s.marks.length with hlt | hge
  · rw [List.getElem?_append_left hlt] at hmark
    apply h n received hmark hmem
  · rw [List.getElem?_append_right hge, List.getElem?_singleton] at hmark
    split at hmark
    · simp only [Option.some_inj, Prod.mk.injEq] at hmark
      obtain ⟨rfl, rfl⟩ := hmark
      exact absurd hmem (hunused rfl)
    · cases hmark

/-! ### The steps -/

theorem Clean.of_cache (h : Clean s) (hmarks : s'.marks = s.marks)
    (hcache : ∀ account record readAt, s'.cache account = some (record, readAt) →
      s.cache account = some (record, readAt)) :
  Clean s'
  := by
  intro account record readAt address hrecord hoffered
  apply (h account record readAt address (hcache _ _ _ hrecord) hoffered).of_marks hmarks

theorem Clean.writeRecord (h : Clean s) {record : CacheRecord} {readAt : Nat}
    (hsafe : ∀ address, record.offered = some address → Safe s account address readAt) :
  Clean (writeRecord s account record readAt)
  := by
  intro other written writtenAt address hrecord hoffered
  replace hrecord : Function.update s.cache account (some (record, readAt)) other
    = some (written, writtenAt) := hrecord
  by_cases hother : other = account
  · subst hother
    rw [Function.update_self, Option.some_inj, Prod.mk.injEq] at hrecord
    obtain ⟨rfl, rfl⟩ := hrecord
    apply (hsafe address hoffered).of_marks rfl
  · rw [Function.update_of_ne hother] at hrecord
    apply (h other written writtenAt address hrecord hoffered).of_marks rfl

theorem Clean.deleteAccount (h : Clean s) :
  Clean (deleteAccount s account)
  := by
  have hmarks : (ReceiveCache.deleteAccount s account).marks = s.marks := rfl
  apply h.of_cache hmarks
  intro other record readAt hrecord
  replace hrecord : Function.update s.cache account none other = some (record, readAt) := hrecord
  by_cases hother : other = account
  · subst hother
    rw [Function.update_self] at hrecord
    cases hrecord
  · rwa [Function.update_of_ne hother] at hrecord

/-- A mark takes the record of its account out of use. -/
theorem Clean.markAccountDirty (h : Clean s) :
  Clean (markAccountDirty s account)
  := by
  intro other record readAt address hrecord hoffered
  replace hrecord : Function.update s.cache account
    ((s.cache account).map fun record => ({ record.1 with dirty := true }, record.2)) other
      = some (record, readAt) := hrecord
  by_cases hother : other = account
  · subst hother
    rw [Function.update_self, Option.map_eq_some_iff] at hrecord
    obtain ⟨old, -, hsame⟩ := hrecord
    rw [Prod.mk.injEq] at hsame
    obtain ⟨rfl, -⟩ := hsame
    cases hoffered
  · rw [Function.update_of_ne hother] at hrecord
    apply (h other record readAt address hrecord hoffered).markAccountDirty
    exact fun hsame => absurd hsame hother

/-- The step of a call leaves clean records, if marks are seen. -/
theorem Clean.step (h : Clean s) {p : Point} (hp : WritesClean s p) :
  Clean (step s p).1
  := by
  cases p with
  | planWrite account record batches readAt =>
    apply h.writeRecord
    intro address hoffered
    apply hp
    simp [Point.pending, hoffered]
  | completeWrite account record readAt =>
    apply h.writeRecord
    intro address hoffered
    apply hp
    simp [Point.pending, hoffered]
  | refreshWrite account record readAt =>
    apply h.writeRecord
    intro address hoffered
    apply hp
    simp [Point.pending, hoffered]
  | markAccountDirty account => exact h.markAccountDirty
  | deleteAccount account => exact h.deleteAccount
  | storeOutputs account addresses => apply h.of_cache rfl fun _ _ _ => id
  | _ => exact h

theorem WritesClean.of_marks {p : Point} (h : WritesClean s p) (hmarks : s'.marks = s.marks) :
  WritesClean s' p
  := by
  intro account address readAt hpending
  apply (h account address readAt hpending).of_marks hmarks

/-- The step of a call does not disturb the others, if a mark finds no call that is going to
hand out an address which has received. -/
theorem WritesClean.step {p q : Point} (hq : WritesClean s q)
    (hseen : ∀ account, p = .markAccountDirty account → ∀ pending ∈ q.pending,
      pending.1 = account → pending.2.1.childIndex ∉ receivedIndexes (s.addresses account)) :
  WritesClean (step s p).1 q
  := by
  cases p with
  | markAccountDirty marked =>
    intro account address readAt hpending
    apply (hq account address readAt hpending).markAccountDirty
    intro hsame
    apply hseen marked rfl (account, address, readAt) hpending hsame
  | _ => apply hq.of_marks rfl

theorem offered_completedRecord {record : CacheRecord} {childIndices : List Nat}
    {nextStartHeight : Nat} {nextSweepOffset : Option Nat} :
  (completedRecord record childIndices nextStartHeight nextSweepOffset).offered = record.offered
  := rfl

/-- A call that has read a list or a record is going to write what is safe. -/
theorem writesClean_step (h : Clean s) {p : Point} (hp : WritesClean s p) :
  WritesClean (step s p).1 (step s p).2
  := by
  cases p with
  | planExternalUtxoRefresh network account limits =>
    intro other address readAt hpending
    dsimp only [step, Point.pending] at hpending
    obtain ⟨_, -, hsame⟩ := Option.map_eq_some_iff.mp hpending
    simp only [Prod.mk.injEq] at hsame
    obtain ⟨rfl, rfl, rfl⟩ := hsame
    apply safe_length
  | refreshAccountCacheFromWalletDb network account scannedHeight =>
    intro other address readAt hpending
    dsimp only [step, Point.pending] at hpending
    obtain ⟨_, -, hsame⟩ := Option.map_eq_some_iff.mp hpending
    simp only [Prod.mk.injEq] at hsame
    obtain ⟨rfl, rfl, rfl⟩ := hsame
    apply safe_length
  | planRecord network account limits addresses readAt => exact hp
  | refreshRecord network account scannedHeight addresses readAt => exact hp
  | markUtxoRefreshBatchComplete network account childIndices nextStartHeight nextSweepOffset =>
    intro other address readAt hpending
    dsimp only [step] at hpending
    split at hpending
    · cases hpending
    · split at hpending
      · rename_i record cachedAt hrecord
        obtain ⟨hcached, -⟩ := Option.filter_eq_some_iff.mp hrecord
        dsimp only [Point.pending] at hpending
        rw [offered_completedRecord] at hpending
        obtain ⟨_, hoffered, hsame⟩ := Option.map_eq_some_iff.mp hpending
        simp only [Prod.mk.injEq] at hsame
        obtain ⟨rfl, rfl, rfl⟩ := hsame
        apply h account record cachedAt _ hcached hoffered
      · cases hpending
  | _ =>
    intro other address readAt hpending
    cases hpending

/-! ### Runs -/

/-- The calls keep the records clean. -/
theorem program_preserves :
  Preserves program MarksSeen Clean WritesClean
  := by
  constructor
  · rintro w k - -
    intro account address readAt hpending
    cases k <;> cases hpending
  · intro w i fails p hw hm hp
    cases fails with
    | true =>
      refine ⟨hw.1, ?_⟩
      intro account address readAt hpending
      cases hpending
    | false => exact ⟨hw.1.step (hw.at hp), writesClean_step hw.1 (hw.at hp)⟩
  · intro w i fails p q hw hm hp hq
    cases fails with
    | true => apply hw.2 q hq
    | false =>
      apply (hw.2 q hq).step
      rintro account rfl
      simp only [MarksSeen, hp] at hm
      apply hm q hq
  · intro w hw
    apply hw.1

/-- A wallet with its cache, before any mark. -/
def Shared.opened (addresses : AccountUuid → List CachedExternalAddress)
    (records : AccountUuid → Option CacheRecord) : Shared where
  addresses := addresses
  cache account := (records account).map (·, 0)

/-- From any cache, along every run in which no mark comes while a call is going to write a
clean record with an address that has received, an address that is handed out had received
at no mark after which its list was not read again. -/
theorem clean_address_after_mark (addresses : AccountUuid → List CachedExternalAddress)
    (records : AccountUuid → Option CacheRecord) {moves : List (Move Call Bool)}
    (hmoves : Along program.step MarksSeen (World.idle (Shared.opened addresses records)) moves)
    {w : World Shared Point}
    (hw : w = after program.step (World.idle (Shared.opened addresses records)) moves) :
  ∀ (network : WalletNetwork) (account : AccountUuid) (address : CachedExternalAddress),
    getCleanEntry w.shared network account = some address →
      ∃ record readAt, w.shared.cache account = some (record, readAt)
        ∧ ∀ (n : Nat) (received : List Nat), w.shared.marks[n]? = some (account, received) →
          address.childIndex ∈ received → n < readAt
  := by
  subst hw
  have hstart : Clean (Shared.opened addresses records) := by
    intro account record readAt address _ _ n received hmark
    cases hmark
  have hholds := program_preserves.after (holds_idle hstart) hmoves
  intro network account address hentry
  obtain ⟨⟨record, readAt⟩, hfilter, hunused⟩ := Option.bind_eq_some_iff.mp hentry
  obtain ⟨hcached, hclean⟩ := Option.filter_eq_some_iff.mp hfilter
  simp only [Bool.and_eq_true, Bool.not_eq_true'] at hclean
  refine ⟨record, readAt, hcached, ?_⟩
  apply hholds.1 account record readAt address hcached
  unfold CacheRecord.offered
  rw [hclean.2]
  apply hunused

/-- An address that has not received, and one that follows it. -/
def sampleAddresses (account : AccountUuid) : List CachedExternalAddress :=
  if account = 1 then [⟨0, "W1a", false⟩, ⟨1, "W1b", false⟩] else []

/-- The addresses once the first one has received. -/
def sampleReceived : List CachedExternalAddress := [⟨0, "W1a", true⟩, ⟨1, "W1b", false⟩]

/-- The record of the account. -/
def sampleRecord (account : AccountUuid) : Option CacheRecord :=
  if account = 1 then some { network := .main, externalAddresses := [⟨0, "W1a", false⟩] } else none

/-- The first address receives, the account is marked, and its addresses are read again. -/
def sampleRefreshed : List (Move Call Bool) := [
  .call (.storeOutputs 1 sampleReceived), .advance 0 false,
  .call (.markAccountDirty 1), .advance 1 false,
  .call (.refreshAccountCacheFromWalletDb .main 1 none), .advance 2 false, .advance 2 false,
  .advance 2 false]

/-- The second address is handed out, from a list that was read after the mark. -/
theorem clean_address_after_mark_refreshed :
  ∃ w, w = after program.step (World.idle (Shared.opened sampleAddresses sampleRecord))
      sampleRefreshed
    ∧ getCleanEntry w.shared .main 1 = some ⟨1, "W1b", false⟩
    ∧ ∃ record readAt, w.shared.cache 1 = some (record, readAt)
      ∧ ∀ (n : Nat) (received : List Nat), w.shared.marks[n]? = some (1, received) →
        1 ∈ received → n < readAt
  := by
  refine ⟨_, rfl, by decide +kernel, ?_⟩
  have hmoves : Along program.step MarksSeen
      (World.idle (Shared.opened sampleAddresses sampleRecord)) sampleRefreshed := by
    refine ⟨trivial, trivial, trivial, ?_, trivial, trivial, trivial, trivial, trivial⟩
    intro p hp pending hpending
    replace hp : p ∈ [Point.returned, .markAccountDirty 1] := hp
    rcases List.mem_pair.mp hp with rfl | rfl <;> cases hpending
  apply clean_address_after_mark sampleAddresses sampleRecord hmoves rfl .main 1
    ⟨1, "W1b", false⟩
  decide +kernel

/-- The completion of a batch reads the record, then the first address receives and the
account is marked, and then the completion writes the record. -/
def sampleLostMark : List (Move Call Bool) := [
  .call (.markUtxoRefreshBatchComplete .main 1 [0] 51 none), .advance 0 false,
  .call (.storeOutputs 1 sampleReceived), .advance 1 false,
  .call (.markAccountDirty 1), .advance 2 false,
  .advance 0 false]

/-- The address that had received at the mark is handed out, though its list was never read
again. -/
theorem sampleLostMark_hands_out :
  getCleanAddress (after program.step
      (World.idle (Shared.opened sampleAddresses sampleRecord)) sampleLostMark).shared .main 1
      = some "W1a"
    ∧ (after program.step
      (World.idle (Shared.opened sampleAddresses sampleRecord)) sampleLostMark).shared.marks
      = [(1, [0])]
    ∧ ((after program.step (World.idle (Shared.opened sampleAddresses sampleRecord))
      sampleLostMark).shared.cache 1).map (·.2) = some 0
  := by decide +kernel

end ReceiveCache

end Vizor
