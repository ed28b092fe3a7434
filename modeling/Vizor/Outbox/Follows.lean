import Vizor.Lib.Growth
import Vizor.Outbox.Announcements
import Vizor.Outbox.Submission

/-!
# What the operations of the outbox keep

A snapshot follows another one when every item is still in its batch, with at least its
attempts, and an item that is accepted or rejected meanwhile has a receipt.  Every operation is
so, apart from a cancellation, which takes an attempt back, and from the removal of batches and
items.
-/

namespace Vizor

open Run Growth

namespace Outbox

/-! ### Attempts of an item -/

namespace Item

/-- The item has a result that came from the network. -/
def isReported (i : Item) : Bool :=
  match i.status with
  | .acceptedAwaitingReconciliation | .rejectedAwaitingReconciliation => true
  | _ => false

/-- The number of attempts of an item, with the one that is running or has a result. -/
def attempts (i : Item) : Nat :=
  i.attemptCount + if i.status = .submitting ∨ i.isReported = true then 1 else 0

theorem isAttempted_iff {i : Item} :
  Snapshot.isAttempted i = true ↔ 0 < i.attempts
  := by
  rw [Snapshot.isAttempted, attempts, isReported]
  cases i.status <;> simp

/-- A transaction that is handed over has no attempts. -/
structure Fresh (P : Platform) (i : Item) : Prop where
  lowercased : P.lowercased i.txidHex = i.txidHex
  unreported : i.isReported = false

theorem fresh_ofRaw {P : Platform} {raw : RawItem} :
  (ofRaw P raw).Fresh P
  := ⟨P.lowercased_lowercased raw.txidHex, rfl⟩

end Item

/-- The submission of an item of a batch. -/
structure Attempt where
  batchId : String
  network : String
  accountUuid : String
  runId : String
  itemId : String
  txidHex : String
  deriving DecidableEq, Repr

/-- The submission that an item stands for. -/
def Batch.attempt (b : Batch) (i : Item) : Attempt :=
  ⟨b.batchId, b.network, b.accountUuid, b.runId, i.itemId, i.txidHex⟩

/-- The submission that a receipt reports. -/
def Receipt.attempt (r : Receipt) : Attempt :=
  ⟨r.batchId, r.network, r.accountUuid, r.runId, r.itemId, r.txidHex⟩

/-- The attempts of an item that stand for a submission. -/
def Batch.itemAttempts (b : Batch) (a : Attempt) (i : Item) : Nat :=
  if b.attempt i = a then i.attempts else 0

/-- The attempts in a batch that stand for a submission. -/
def Batch.attempts (b : Batch) (a : Attempt) : Nat :=
  (b.items.map (b.itemAttempts a)).sum

/-- The attempts in a snapshot that stand for a submission. -/
def Snapshot.attempts (s : Snapshot) (a : Attempt) : Nat :=
  (s.batches.map (·.attempts a)).sum

/-! ### Items, batches and snapshots that follow others -/

/-- There is a receipt for an item of a batch. -/
def Filed (receipts : List Receipt) (batchId itemId : String) : Prop :=
  ∃ r ∈ receipts, r.batchId = batchId ∧ r.itemId = itemId

/-- An item later, with the receipts that there are then. -/
structure Item.Follows (receipts : List Receipt) (batchId : String) (i i' : Item) : Prop where
  itemId : i'.itemId = i.itemId
  txidHex : i'.txidHex = i.txidHex
  attempts : i.attempts ≤ i'.attempts
  filed : i'.isReported = true → i.isReported = true ∨ Filed receipts batchId i'.itemId

/-- A batch later. -/
structure Batch.Follows (P : Platform) (receipts : List Receipt) (b b' : Batch) : Prop where
  batchId : b'.batchId = b.batchId
  network : b'.network = b.network
  accountUuid : b'.accountUuid = b.accountUuid
  runId : b'.runId = b.runId
  items : Grows (Item.Follows receipts b.batchId) (Item.Fresh P) b.items b'.items

/-- A snapshot later. -/
structure Snapshot.Follows (P : Platform) (s s' : Snapshot) : Prop where
  batches : Grows (Batch.Follows P s'.receipts) (fun b => ∀ i ∈ b.items, i.Fresh P)
    s.batches s'.batches
  receipts : ∀ r ∈ s.receipts, r ∈ s'.receipts

variable {P : Platform} {receipts : List Receipt} {batchId : String} {i i' i'' : Item}
  {b b' : Batch} {s s' : Snapshot} {a : Attempt}

namespace Item.Follows

theorem refl :
  Item.Follows receipts batchId i i
  := ⟨rfl, rfl, Nat.le_refl _, Or.inl⟩

theorem trans (h : Item.Follows receipts batchId i i')
    (h' : Item.Follows receipts batchId i' i'') :
  Item.Follows receipts batchId i i''
  := by
  refine ⟨h'.itemId.trans h.itemId, h'.txidHex.trans h.txidHex,
    Nat.le_trans h.attempts h'.attempts, ?_⟩
  intro hr
  rcases h'.filed hr with hr | hf
  · rw [h'.itemId]
    apply h.filed hr
  · exact Or.inr hf

end Item.Follows

namespace Batch.Follows

/-- A batch whose items stay in their places. -/
theorem of_items (hid : b'.batchId = b.batchId) (hnet : b'.network = b.network)
    (hacc : b'.accountUuid = b.accountUuid) (hrun : b'.runId = b.runId)
    (hitems : b'.items = b.items) :
  Batch.Follows P receipts b b'
  := by
  refine ⟨hid, hnet, hacc, hrun, ?_⟩
  rw [hitems]
  apply Grows.refl fun _ => Item.Follows.refl

theorem refl :
  Batch.Follows P receipts b b
  := of_items rfl rfl rfl rfl rfl

/-- A batch later has at least its attempts. -/
theorem attempts_le (h : Batch.Follows P receipts b b') :
  b.attempts a ≤ b'.attempts a
  := by
  apply Nat.le_trans (h.items.sum_le (g := b.itemAttempts a) _) (Nat.le_of_eq _)
  · intro i i' hi
    rw [Batch.itemAttempts, Batch.itemAttempts, Batch.attempt, Batch.attempt, hi.itemId,
      hi.txidHex]
    split
    · apply hi.attempts
    · apply Nat.le_refl 0
  · rw [Batch.attempts]
    congr 2
    funext i
    rw [Batch.itemAttempts, Batch.itemAttempts, Batch.attempt, Batch.attempt, h.batchId,
      h.network, h.accountUuid, h.runId]

end Batch.Follows

namespace Snapshot.Follows

/-- A snapshot with the same batches and receipts. -/
theorem of_batches (hb : s'.batches = s.batches) (hr : s'.receipts = s.receipts) :
  s.Follows P s'
  := by
  constructor
  · rw [hb]
    apply Grows.refl fun _ => Batch.Follows.refl
  · rw [hr]
    exact fun r hr => hr

theorem refl :
  s.Follows P s
  := of_batches rfl rfl

/-- A snapshot with one other batch, and more receipts. -/
theorem of_modify {n : Nat} {f : Batch → Batch} (hb : s'.batches = s.batches.modify n f)
    (hr : ∀ r ∈ s.receipts, r ∈ s'.receipts)
    (h : ∀ b, s.batches[n]? = some b → Batch.Follows P s'.receipts b (f b)) :
  s.Follows P s'
  := by
  refine ⟨?_, hr⟩
  rw [hb]
  apply Grows.modify (fun _ => Batch.Follows.refl) h

theorem modifyBatch {n : Nat} {f : Batch → Batch}
    (h : ∀ b, s.batches[n]? = some b → Batch.Follows P s.receipts b (f b)) :
  s.Follows P (s.modifyBatch n f)
  := of_modify rfl (fun _ hr => hr) h

theorem attempts_le (h : s.Follows P s') :
  s.attempts a ≤ s'.attempts a
  := h.batches.sum_le fun _ _ hb => hb.attempts_le

end Snapshot.Follows

end Outbox

end Vizor
