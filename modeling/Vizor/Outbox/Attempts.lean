import Vizor.Outbox.Steps

/-!
# Attempts of the outbox

An item that was submitted, and not cancelled before it left, is listed as attempted until a
receipt for it is acknowledged.  The acknowledgement of a terminal receipt removes the whole
batch, so this holds in every run whose acknowledgements leave no attempt of such a batch
without a receipt.
-/

namespace Vizor

open Run Growth

namespace Outbox

/-! ### Runs of the outbox -/

/-- The operations on the snapshot, apart from the revocation of an account. -/
inductive Op where
  | stage (raw : RawBatch)
  | armBatch (batchId : String) (expectedDigests : List (String × String)) (date : Nat)
  | recoverBatch (batchId network accountUuid runId : String) (expectedTxids : List String)
      (lightwalletdUrl : String) (date : Nat)
  | recoverInterruptedSubmissions (date : Nat)
  | nextEndpointForInspection
  | selectDue (remoteHeight : Nat) (endpoint : Option String) (date : Nat)
  | markProofReadyIfNeeded (remoteHeight : Nat) (endpoint : String) (date : Nat)
  | recordVerifiedProofReadiness (network accountUuid runId : String) (date : Nat)
  | acknowledgeProofReadyNotification (batchId : String) (date : Nat)
  | markUnverifiedProofReadyNoticeIfNeeded (batchId : String) (date : Nat)
  | acknowledgeUnverifiedProofReadyNotice (batchId : String) (date : Nat)
  | markBroadcastCompleteIfNeeded (batchId : String) (date : Nat)
  | acknowledgeBroadcastCompleteNotification (batchId : String) (date : Nat)
  | expireItems (remoteHeight : Nat) (endpoint : String) (date : Nat)
  | markDueItemsNeedingResign (remoteHeight : Nat) (endpoint : String) (date : Nat)
  | validateReschedulingAfterAcceptance (itemId : String) (remoteHeight : Nat)
  | beginSubmission (itemId attemptId : String) (date : Nat)
  | recordUncertain (itemId error : String) (date : Nat)
  | recordCancelledBeforeSubmission (itemId error : String)
  | recordAccepted (draws : Draws) (itemId : String) (equivalent : Bool) (remoteHeight : Nat)
      (responseCode : Int) (responseMessage : String) (date : Nat)
  | recordRejected (itemId : String) (remoteHeight : Nat) (responseCode : Int)
      (responseMessage : String) (date : Nat)
  | acknowledgeReceipts (receiptIds : List String)
  | discardBatch (batchId : String)

/-- The snapshot after an operation. -/
def Snapshot.apply (P : Platform) (s : Snapshot) : Op → Except OutboxError Snapshot
  | .stage raw => s.stage P (decodeBatch P raw)
  | .armBatch batchId expectedDigests date => s.armBatch batchId expectedDigests date
  | .recoverBatch batchId network accountUuid runId expectedTxids lightwalletdUrl date =>
    (·.2) <$> s.recoverBatch P batchId network accountUuid runId expectedTxids lightwalletdUrl
      date
  | .recoverInterruptedSubmissions date => .ok (s.recoverInterruptedSubmissions date)
  | .nextEndpointForInspection => .ok s.nextEndpointForInspection.2
  | .selectDue remoteHeight endpoint date => .ok (s.selectDue remoteHeight endpoint date).2
  | .markProofReadyIfNeeded remoteHeight endpoint date =>
    .ok (s.markProofReadyIfNeeded remoteHeight endpoint date).2
  | .recordVerifiedProofReadiness network accountUuid runId date =>
    .ok (s.recordVerifiedProofReadiness network accountUuid runId date).2
  | .acknowledgeProofReadyNotification batchId date =>
    s.acknowledgeProofReadyNotification batchId date
  | .markUnverifiedProofReadyNoticeIfNeeded batchId date =>
    .ok (s.markUnverifiedProofReadyNoticeIfNeeded batchId date).2
  | .acknowledgeUnverifiedProofReadyNotice batchId date =>
    s.acknowledgeUnverifiedProofReadyNotice batchId date
  | .markBroadcastCompleteIfNeeded batchId date =>
    .ok (s.markBroadcastCompleteIfNeeded batchId date).2
  | .acknowledgeBroadcastCompleteNotification batchId date =>
    s.acknowledgeBroadcastCompleteNotification batchId date
  | .expireItems remoteHeight endpoint date => .ok (s.expireItems remoteHeight endpoint date)
  | .markDueItemsNeedingResign remoteHeight endpoint date =>
    .ok (s.markDueItemsNeedingResign remoteHeight endpoint date)
  | .validateReschedulingAfterAcceptance itemId remoteHeight =>
    (fun _ => s) <$> s.validateReschedulingAfterAcceptance itemId remoteHeight
  | .beginSubmission itemId attemptId date => s.beginSubmission itemId attemptId date
  | .recordUncertain itemId error date => s.recordUncertain itemId error date
  | .recordCancelledBeforeSubmission itemId error =>
    s.recordCancelledBeforeSubmission itemId error
  | .recordAccepted draws itemId equivalent remoteHeight responseCode responseMessage date =>
    s.recordAccepted P draws itemId equivalent remoteHeight responseCode responseMessage date
  | .recordRejected itemId remoteHeight responseCode responseMessage date =>
    s.recordRejected itemId remoteHeight responseCode responseMessage date
  | .acknowledgeReceipts receiptIds => .ok (s.acknowledgeReceipts receiptIds)
  | .discardBatch batchId => (·.2) <$> s.discardBatch batchId

/-- The submission of the item with an id. -/
def Snapshot.submission (s : Snapshot) (itemId : String) : Option Attempt :=
  match s.itemLocation itemId with
  | .ok location => some (location.owner.attempt location.found)
  | .error _ => none

/-- The submissions after an operation that succeeds: without the one that is cancelled, and
without those of the receipts that are acknowledged. -/
def Snapshot.track (s : Snapshot) (submitted : List Attempt) : Op → List Attempt
  | .beginSubmission itemId _ _ => (s.submission itemId).toList ++ submitted
  | .recordCancelledBeforeSubmission itemId _ =>
    (s.submission itemId).elim submitted fun a => submitted.erase a
  | .acknowledgeReceipts receiptIds =>
    submitted.filter (· ∉ (s.acknowledged receiptIds).map (·.attempt))
  | _ => submitted

/-- The stored snapshot, and the submissions that were not cancelled and whose receipts were
not acknowledged; no code reads the submissions. -/
structure OutboxWorld where
  snapshot : Snapshot := {}
  submitted : List Attempt := []

/-- The snapshot is stored when the operation succeeds. -/
def OutboxWorld.step (P : Platform) (w : OutboxWorld) (op : Op) : OutboxWorld :=
  match w.snapshot.apply P op with
  | .ok s => { snapshot := s, submitted := w.snapshot.track w.submitted op }
  | .error _ => w

/-! ### Acknowledgements that keep the attempts -/

/-- An acknowledgement leaves no attempt without a receipt: not in a batch that it removes, and
not of an item that has the id of an acknowledged receipt. -/
structure Snapshot.Accounted (s : Snapshot) (receiptIds : List String) : Prop where
  batch : ∀ b ∈ s.batches, s.isRemovable receiptIds b.batchId = true →
    ∀ i ∈ b.items, isAttempted i = true → ∃ r ∈ s.receipts, r.attempt = b.attempt i
  item : ∀ r ∈ s.acknowledged receiptIds, ∀ b ∈ s.batches, ∀ i ∈ b.items,
    i.itemId = r.itemId → isAttempted i = true →
    ∃ r' ∈ s.acknowledged receiptIds, r'.attempt = b.attempt i

instance {s : Snapshot} {receiptIds : List String} : Decidable (s.Accounted receiptIds) :=
  decidable_of_iff ((∀ b ∈ s.batches, s.isRemovable receiptIds b.batchId = true →
      ∀ i ∈ b.items, Snapshot.isAttempted i = true → ∃ r ∈ s.receipts, r.attempt = b.attempt i)
    ∧ ∀ r ∈ s.acknowledged receiptIds, ∀ b ∈ s.batches, ∀ i ∈ b.items,
      i.itemId = r.itemId → Snapshot.isAttempted i = true →
      ∃ r' ∈ s.acknowledged receiptIds, r'.attempt = b.attempt i)
    ⟨fun h => ⟨h.1, h.2⟩, fun h => ⟨h.batch, h.item⟩⟩

/-- An operation that loses no attempt. -/
def OutboxWorld.Accounted (w : OutboxWorld) : Op → Prop
  | .acknowledgeReceipts receiptIds => w.snapshot.Accounted receiptIds
  | _ => True

instance {w : OutboxWorld} {op : Op} : Decidable (w.Accounted op) := by
  cases op <;> unfold OutboxWorld.Accounted <;> infer_instance

/-- Every submission is listed as attempted. -/
def OutboxWorld.Listed (w : OutboxWorld) : Prop :=
  ∀ a ∈ w.submitted,
    a.txidHex ∈ w.snapshot.listAttemptedTxids a.network a.accountUuid a.runId

/-! ### What is known of a world -/

/-- The items of a snapshot are as they were handed over, and those with a result have their
receipts. -/
structure Snapshot.Sound (P : Platform) (s : Snapshot) : Prop where
  lowercased : ∀ b ∈ s.batches, ∀ i ∈ b.items, P.lowercased i.txidHex = i.txidHex
  filed : ∀ b ∈ s.batches, ∀ i ∈ b.items, i.isReported = true →
    Filed s.receipts b.batchId i.itemId

/-- Every submission counts among the attempts. -/
structure OutboxWorld.Sound (P : Platform) (w : OutboxWorld) : Prop where
  snapshot : w.snapshot.Sound P
  counted : ∀ a, w.submitted.count a ≤ w.snapshot.attempts a

variable {P : Platform} {s s' : Snapshot} {w : OutboxWorld} {a : Attempt} {b : Batch} {i : Item}

/-- A submission that counts is listed. -/
theorem mem_listAttemptedTxids (h : 0 < s.attempts a) :
  a.txidHex ∈ s.listAttemptedTxids a.network a.accountUuid a.runId
  := by
  obtain ⟨n, hn, hbatch⟩ := List.exists_mem_ne_zero_of_sum_ne_zero (Nat.pos_iff_ne_zero.mp h)
  obtain ⟨b, hb, rfl⟩ := List.mem_map.mp hn
  obtain ⟨k, hk, hpos⟩ := List.exists_mem_ne_zero_of_sum_ne_zero hbatch
  obtain ⟨i, hi, rfl⟩ := List.mem_map.mp hk
  rw [Batch.itemAttempts] at hpos
  split_ifs at hpos with ha
  · subst ha
    apply List.mem_map.mpr ⟨i, _, rfl⟩
    rw [List.mem_filter, List.mem_flatMap]
    refine ⟨⟨b, ?_, hi⟩, Item.isAttempted_iff.mpr (Nat.pos_of_ne_zero hpos)⟩
    simp [hb, Batch.attempt]
  · exact absurd rfl hpos

theorem OutboxWorld.Sound.listed (h : w.Sound P) :
  w.Listed
  := by
  intro a ha
  apply mem_listAttemptedTxids
  apply Nat.lt_of_lt_of_le (List.count_pos_iff.mpr ha) (h.counted a)

theorem Snapshot.Follows.sound (h : s.Follows P s') (hs : s.Sound P) :
  s'.Sound P
  := by
  constructor
  · apply h.batches.forall_mem (T := fun b => ∀ i ∈ b.items,
      P.lowercased i.txidHex = i.txidHex) hs.lowercased
    · intro b b' hb hl
      apply hb.items.forall_mem (T := fun i => P.lowercased i.txidHex = i.txidHex) hl
      · intro i i' hi hl
        rw [hi.txidHex]
        apply hl
      · exact fun i hi => hi.lowercased
    · exact fun b hb i hi => (hb i hi).lowercased
  · apply h.batches.forall_mem (T := fun b => ∀ i ∈ b.items, i.isReported = true →
      Filed s'.receipts b.batchId i.itemId) hs.filed
    · intro b b' hb hf
      rw [hb.batchId]
      apply hb.items.forall_mem (T := fun i => i.isReported = true →
        Filed s'.receipts b.batchId i.itemId) hf
      · intro i i' hi hf hr
        rcases hi.filed hr with hi' | hfiled
        · obtain ⟨r, hmem, hid, hitem⟩ := hf hi'
          exact ⟨r, h.receipts r hmem, hid, hitem.trans hi.itemId.symm⟩
        · apply hfiled
      · intro i hi hr
        rw [hi.unreported] at hr
        cases hr
    · intro b hb i hi hr
      rw [(hb i hi).unreported] at hr
      cases hr

/-! ### Operations that do not follow -/

/-- An armed item that is submitted has one more attempt. -/
theorem Item.attempts_submitting {attemptId : Option String} {date : Option Nat}
    (h : i.status = .armed) :
  { i with status := .submitting, attemptId := attemptId, attemptStartedAt := date }.attempts
    = i.attempts + 1
  := by
  simp [Item.attempts, Item.isReported, h]

/-- An item whose submission is cancelled has one attempt less. -/
theorem Item.attempts_cancelled (error : String) (h : i.status = .submitting) :
  { i with
      status := .armed
      nextAttemptAt := none
      lastError := some error
      attemptId := none
      attemptStartedAt := none }.attempts + 1
    = i.attempts
  := by
  simp [Item.attempts, Item.isReported, h]

namespace Snapshot

/-- The removal of a batch without attempts. -/
theorem attempts_eraseIdx {n : Nat} (hb : s.batches[n]? = some b)
    (h : ∀ i ∈ b.items, i.attempts = 0) (hs : s'.batches = s.batches.eraseIdx n) :
  s'.attempts a = s.attempts a
  := by
  have hzero : b.attempts a = 0 := by
    rw [Batch.attempts, List.sum_eq_zero]
    intro k hk
    obtain ⟨i, hi, rfl⟩ := List.mem_map.mp hk
    rw [Batch.itemAttempts, h i hi, ite_self]
  rw [attempts, attempts, hs, ← sum_map_eraseIdx (g := fun b => b.attempts a) hb, hzero,
    Nat.add_zero]

/-- Batches without some of them are as sound. -/
theorem Sound.of_subset (hs : s.Sound P) (hb : ∀ b ∈ s'.batches, b ∈ s.batches)
    (hr : s'.receipts = s.receipts) :
  s'.Sound P
  := by
  constructor
  · intro b hmem
    apply hs.lowercased b (hb b hmem)
  · rw [hr]
    intro b hmem
    apply hs.filed b (hb b hmem)

theorem discardBatch_sound {batchId : String} {discarded : Bool} (hs : s.Sound P)
    (h : s.discardBatch batchId = .ok (discarded, s')) :
  s'.Sound P ∧ ∀ a, s.attempts a ≤ s'.attempts a
  := by
  rw [discardBatch] at h
  split at h
  · cases h
    exact ⟨hs, fun _ => Nat.le_refl _⟩
  case _ batch n hfind =>
    obtain ⟨hb, hid⟩ := findBatch_eq_some hfind
    simp only [bind_eq_ok, ensure_eq_ok] at h
    obtain ⟨_, ⟨hitems, hreceipts⟩, h⟩ := h
    cases h
    refine ⟨hs.of_subset (fun b hmem => List.mem_of_mem_eraseIdx hmem) rfl, fun a => ?_⟩
    apply Nat.le_of_eq (attempts_eraseIdx hb _ rfl).symm
    intro i hi
    have hidle : ¬ (i.status = .submitting ∨ 0 < i.attemptCount) := by
      intro hidle
      apply hitems (List.any_eq_true.mpr ⟨i, hi, by simpa using hidle⟩)
    have hunreported : ¬ i.isReported = true := by
      intro hr
      obtain ⟨r, hmem, hrid, -⟩ := hs.filed batch (List.mem_of_getElem? hb) i hi hr
      apply hreceipts (List.any_eq_true.mpr ⟨r, hmem, by simp [hrid, hid]⟩)
    rw [not_or] at hidle
    rw [Item.attempts, if_neg (by simp [hidle.1, hunreported])]
    apply Nat.eq_zero_of_not_pos hidle.2

theorem acknowledgeBroadcastCompleteNotification_sound {batchId : String} {date : Nat}
    (hs : s.Sound P)
    (h : s.acknowledgeBroadcastCompleteNotification batchId date = .ok s') :
  s'.Sound P ∧ ∀ a, s.attempts a ≤ s'.attempts a
  := by
  simp only [acknowledgeBroadcastCompleteNotification, bind_eq_ok, okOr_eq_ok,
    ensure_eq_ok] at h
  obtain ⟨⟨batch, n⟩, hfind, _, -, h⟩ := h
  obtain ⟨hb, -⟩ := findBatch_eq_some hfind
  by_cases hempty : batch.items = [] ∧ batch.nextProofHeight = none
  · rw [if_pos hempty] at h
    cases h
    refine ⟨hs.of_subset (fun b hmem => List.mem_of_mem_eraseIdx hmem) rfl, fun a => ?_⟩
    apply Nat.le_of_eq (attempts_eraseIdx hb _ rfl).symm
    rw [hempty.1]
    intro item hitem
    cases hitem
  · rw [if_neg hempty] at h
    suffices hfollows : s.Follows P s' from
      ⟨hfollows.sound hs, fun _ => hfollows.attempts_le⟩
    cases h
    refine Follows.of_modify (s := s) rfl ?_ ?_
    · exact fun _ hr => hr
    · exact fun _ _ => Batch.Follows.of_items rfl rfl rfl rfl rfl

/-- A change of the item at a place changes the attempts of its submission only. -/
theorem attempts_modifyItem {location : Location} {f : Item → Item} {itemId : String}
    (hlocation : s.itemLocation itemId = .ok location)
    (hid : (f location.found).itemId = location.found.itemId)
    (htxid : (f location.found).txidHex = location.found.txidHex) :
  (s.modifyItem location f).attempts a + location.owner.itemAttempts a location.found
    = s.attempts a + if location.owner.attempt location.found = a then
        (f location.found).attempts else 0
  := by
  obtain ⟨howner, hfound, -⟩ := itemLocation_eq_ok hlocation
  have hbatches := sum_map_modify (g := fun b => b.attempts a) (f := fun b =>
    { b with items := b.items.modify location.item f }) howner
  have hitems := sum_map_modify (g := location.owner.itemAttempts a) (f := f) hfound
  have hafter : location.owner.itemAttempts a (f location.found)
      = if location.owner.attempt location.found = a then (f location.found).attempts
        else 0 := by
    rw [Batch.itemAttempts, Batch.attempt, hid, htxid]
    rfl
  rw [hafter] at hitems
  have hbatch : Batch.attempts { location.owner with
        items := location.owner.items.modify location.item f } a
      = ((location.owner.items.modify location.item f).map
          (location.owner.itemAttempts a)).sum := rfl
  rw [hbatch] at hbatches
  change ((s.batches.modify location.batch _).map _).sum + _ = (s.batches.map _).sum + _
  have howned : location.owner.attempts a
      = (location.owner.items.map (location.owner.itemAttempts a)).sum := rfl
  omega

/-- A submission that starts adds an attempt. -/
theorem beginSubmission_counted {itemId attemptId : String} {date : Nat}
    {submitted : List Attempt} (hs : ∀ a, submitted.count a ≤ s.attempts a)
    (h : s.beginSubmission itemId attemptId date = .ok s') :
  ((s.submission itemId).toList ++ submitted).count a ≤ s'.attempts a
  := by
  simp only [beginSubmission, bind_eq_ok, ensure_eq_ok] at h
  obtain ⟨location, hlocation, _, hstatus, h⟩ := h
  cases h
  have hattempts := attempts_modifyItem (a := a) (f := fun i => { i with
    status := .submitting
    attemptId := some attemptId
    attemptStartedAt := some date }) hlocation rfl rfl
  have hcount := hs a
  rw [Batch.itemAttempts] at hattempts
  rw [submission, hlocation, Option.toList_some, List.singleton_append]
  by_cases ha : location.owner.attempt location.found = a
  · rw [if_pos ha, if_pos ha, Item.attempts_submitting hstatus] at hattempts
    rw [ha, List.count_cons_self]
    omega
  · rw [if_neg ha, if_neg ha] at hattempts
    rw [List.count_cons_of_ne ha]
    omega

/-- A submission that is cancelled takes its attempt back. -/
theorem recordCancelledBeforeSubmission_counted {itemId error : String}
    {submitted : List Attempt} (hs : ∀ a, submitted.count a ≤ s.attempts a)
    (h : s.recordCancelledBeforeSubmission itemId error = .ok s') :
  ((s.submission itemId).elim submitted fun a => submitted.erase a).count a ≤ s'.attempts a
  := by
  simp only [recordCancelledBeforeSubmission, bind_eq_ok, ensure_eq_ok] at h
  obtain ⟨location, hlocation, _, hstatus, h⟩ := h
  cases h
  have hattempts := attempts_modifyItem (a := a) (f := fun i => { i with
    status := .armed
    nextAttemptAt := none
    lastError := some error
    attemptId := none
    attemptStartedAt := none }) hlocation rfl rfl
  have hcount := hs a
  rw [Batch.itemAttempts] at hattempts
  rw [submission, hlocation, Option.elim_some]
  by_cases ha : location.owner.attempt location.found = a
  · rw [if_pos ha, if_pos ha] at hattempts
    have htaken := Item.attempts_cancelled error hstatus
    rw [ha, List.count_erase_self]
    omega
  · rw [if_neg ha, if_neg ha] at hattempts
    rw [List.count_erase_of_ne (Ne.symm ha)]
    omega

/-- An item without a result from the network can be put in the place of another one. -/
theorem Sound.modifyItem {location : Location} {f : Item → Item} (hs : s.Sound P)
    (htxid : ∀ i, (f i).txidHex = i.txidHex) (hr : ∀ i, (f i).isReported = false) :
  (s.modifyItem location f).Sound P
  := by
  constructor
  · apply forall_mem_modify hs.lowercased
    intro b hb
    apply forall_mem_modify hb
    intro i hi
    rw [htxid]
    apply hi
  · apply forall_mem_modify hs.filed
    intro b hb
    apply forall_mem_modify hb
    intro i _ hi
    rw [hr] at hi
    cases hi

theorem recordCancelledBeforeSubmission_sound {itemId error : String} (hs : s.Sound P)
    (h : s.recordCancelledBeforeSubmission itemId error = .ok s') :
  s'.Sound P
  := by
  simp only [recordCancelledBeforeSubmission, bind_eq_ok, ensure_eq_ok] at h
  obtain ⟨_, -, _, -, h⟩ := h
  cases h
  exact hs.modifyItem (fun _ => rfl) fun _ => rfl

/-! ### Acknowledgement -/

/-- The items of a submission stay when the acknowledgement accounts for every attempt and
acknowledges no receipt for the submission. -/
theorem Accounted.kept {receiptIds : List String} (h : s.Accounted receiptIds)
    (ha : a ∉ (s.acknowledged receiptIds).map (·.attempt)) (hb : b ∈ s.batches)
    (hi : i ∈ b.items) (hpos : b.itemAttempts a i ≠ 0) :
  s.isRemovable receiptIds b.batchId = false
    ∧ i.itemId ∉ (s.acknowledged receiptIds).map (·.itemId)
  := by
  rw [Batch.itemAttempts] at hpos
  split_ifs at hpos with hattempt
  · subst hattempt
    have hattempted := Item.isAttempted_iff.mpr (Nat.pos_of_ne_zero hpos)
    constructor
    · by_contra hremovable
      rw [Bool.not_eq_false] at hremovable
      obtain ⟨r, hr, hra⟩ := h.batch b hb hremovable i hi hattempted
      rw [isRemovable, Bool.and_eq_true, Bool.not_eq_true'] at hremovable
      apply ha
      apply List.mem_map.mpr ⟨r, List.mem_filter.mpr ⟨hr, _⟩, hra⟩
      have hnone := List.any_eq_false.mp hremovable.2 r hr
      have hid : r.batchId = b.batchId := congrArg Attempt.batchId hra
      simpa [hid] using hnone
    · intro hmem
      obtain ⟨r, hr, hid⟩ := List.mem_map.mp hmem
      obtain ⟨r', hr', hra⟩ := h.item r hr b hb i hi hid.symm hattempted
      apply ha (List.mem_map.mpr ⟨r', hr', hra⟩)
  · exact absurd rfl hpos

/-- The acknowledgement of other receipts keeps the attempts of a submission. -/
theorem acknowledgeReceipts_attempts {receiptIds : List String} (h : s.Accounted receiptIds)
    (ha : a ∉ (s.acknowledged receiptIds).map (·.attempt)) :
  (s.acknowledgeReceipts receiptIds).attempts a = s.attempts a
  := by
  have hprune : ∀ b ∈ s.batches,
      (b.without ((s.acknowledged receiptIds).map (·.itemId))).attempts a = b.attempts a := by
    intro b hb
    apply sum_map_filter (g := b.itemAttempts a)
    intro i hi hdropped
    by_contra hpos
    simp [(h.kept ha hb hi hpos).2] at hdropped
  have hremoved : ∀ b ∈ s.batches, (!s.isRemovable receiptIds b.batchId) = false →
      b.attempts a = 0 := by
    intro b hb hremovable
    rw [Batch.attempts, List.sum_eq_zero]
    intro n hn
    obtain ⟨i, hi, rfl⟩ := List.mem_map.mp hn
    by_contra hpos
    rw [(h.kept ha hb hi hpos).1] at hremovable
    cases hremovable
  rw [attempts, attempts, acknowledgeReceipts, sum_map_filter, List.map_map]
  · rw [← sum_map_filter hremoved]
    congr 1
    apply List.map_congr_left
    intro b hb
    apply hprune b (List.mem_of_mem_filter hb)
  · intro b _ hempty
    simp only [decide_eq_false_iff_not, not_not] at hempty
    rw [Batch.attempts, hempty.1]
    rfl

theorem acknowledgeReceipts_counted {receiptIds : List String} {submitted : List Attempt}
    (hs : ∀ a, submitted.count a ≤ s.attempts a) (h : s.Accounted receiptIds) :
  (submitted.filter (· ∉ (s.acknowledged receiptIds).map (·.attempt))).count a
    ≤ (s.acknowledgeReceipts receiptIds).attempts a
  := by
  by_cases ha : a ∈ (s.acknowledged receiptIds).map (·.attempt)
  · rw [List.count_eq_zero_of_not_mem]
    · apply Nat.zero_le _
    · intro hmem
      apply of_decide_eq_true (List.mem_filter.mp hmem).2 ha
  · rw [acknowledgeReceipts_attempts h ha]
    apply Nat.le_trans (List.filter_sublist.count_le a) (hs a)

theorem acknowledgeReceipts_sound {receiptIds : List String} (hs : s.Sound P) :
  (s.acknowledgeReceipts receiptIds).Sound P
  := by
  have hmem : ∀ b ∈ (s.acknowledgeReceipts receiptIds).batches, ∃ b₀ ∈ s.batches,
      b = b₀.without ((s.acknowledged receiptIds).map (·.itemId)) := by
    intro b hb
    obtain ⟨b₀, hb₀, rfl⟩ := List.mem_map.mp (List.mem_of_mem_filter hb)
    exact ⟨b₀, List.mem_of_mem_filter hb₀, rfl⟩
  constructor
  · intro b hb
    obtain ⟨b₀, hb₀, rfl⟩ := hmem b hb
    intro i hi
    apply hs.lowercased b₀ hb₀ i (List.mem_of_mem_filter hi)
  · intro b hb
    obtain ⟨b₀, hb₀, rfl⟩ := hmem b hb
    intro i hi hr
    obtain ⟨hi, hunacknowledged⟩ := List.mem_filter.mp hi
    obtain ⟨r, hr, hid, hitem⟩ := hs.filed b₀ hb₀ i hi hr
    refine ⟨r, List.mem_filter.mpr ⟨hr, ?_⟩, hid, hitem⟩
    rw [decide_eq_true_eq]
    intro hacknowledged
    apply of_decide_eq_true hunacknowledged
    apply List.mem_map.mpr ⟨r, List.mem_filter.mpr ⟨hr, _⟩, hitem⟩
    apply decide_eq_true hacknowledged

/-! ### Steps and runs -/

/-- An operation whose snapshot follows keeps a world sound. -/
theorem Follows.world_sound {submitted : List Attempt}
    (hw : OutboxWorld.Sound P ⟨s, submitted⟩) (h : s.Follows P s') :
  OutboxWorld.Sound P ⟨s', submitted⟩
  := ⟨h.sound hw.snapshot, fun a => Nat.le_trans (hw.counted a) h.attempts_le⟩

end Snapshot

/-- Every operation that loses no attempt keeps a world sound. -/
theorem OutboxWorld.step_sound {op : Op} (hw : w.Sound P) (h : w.Accounted op) :
  (w.step P op).Sound P
  := by
  obtain ⟨s, submitted⟩ := w
  rw [step]
  split
  case _ s' hs' =>
    cases op with
    | stage => exact (Snapshot.stage_follows hs').world_sound hw
    | armBatch => exact (Snapshot.armBatch_follows hs').world_sound hw
    | recoverBatch =>
      obtain ⟨_, hrecovered, rfl⟩ := map_eq_ok.mp hs'
      apply (Snapshot.recoverBatch_follows hrecovered).world_sound hw
    | recoverInterruptedSubmissions =>
      cases hs'
      apply Snapshot.recoverInterruptedSubmissions_follows.world_sound hw
    | nextEndpointForInspection =>
      cases hs'
      apply Snapshot.nextEndpointForInspection_follows.world_sound hw
    | selectDue =>
      cases hs'
      apply Snapshot.selectDue_follows.world_sound hw
    | markProofReadyIfNeeded =>
      cases hs'
      apply Snapshot.markProofReadyIfNeeded_follows.world_sound hw
    | recordVerifiedProofReadiness =>
      cases hs'
      apply Snapshot.recordVerifiedProofReadiness_follows.world_sound hw
    | acknowledgeProofReadyNotification =>
      apply (Snapshot.acknowledgeProofReadyNotification_follows hs').world_sound hw
    | markUnverifiedProofReadyNoticeIfNeeded =>
      cases hs'
      apply Snapshot.markUnverifiedProofReadyNoticeIfNeeded_follows.world_sound hw
    | acknowledgeUnverifiedProofReadyNotice =>
      apply (Snapshot.acknowledgeUnverifiedProofReadyNotice_follows hs').world_sound hw
    | markBroadcastCompleteIfNeeded =>
      cases hs'
      apply Snapshot.markBroadcastCompleteIfNeeded_follows.world_sound hw
    | acknowledgeBroadcastCompleteNotification =>
      obtain ⟨hsound, hle⟩ :=
        Snapshot.acknowledgeBroadcastCompleteNotification_sound hw.snapshot hs'
      exact ⟨hsound, fun a => Nat.le_trans (hw.counted a) (hle a)⟩
    | expireItems =>
      cases hs'
      apply Snapshot.expireItems_follows.world_sound hw
    | markDueItemsNeedingResign =>
      cases hs'
      apply Snapshot.markDueItemsNeedingResign_follows.world_sound hw
    | validateReschedulingAfterAcceptance =>
      obtain ⟨_, -, rfl⟩ := map_eq_ok.mp hs'
      apply hw
    | beginSubmission =>
      exact ⟨(Snapshot.beginSubmission_follows hs').sound hw.snapshot,
        fun _ => Snapshot.beginSubmission_counted hw.counted hs'⟩
    | recordUncertain => exact (Snapshot.recordUncertain_follows hs').world_sound hw
    | recordCancelledBeforeSubmission =>
      exact ⟨Snapshot.recordCancelledBeforeSubmission_sound hw.snapshot hs',
        fun _ => Snapshot.recordCancelledBeforeSubmission_counted hw.counted hs'⟩
    | recordAccepted =>
      apply (Snapshot.recordAccepted_follows hw.snapshot.lowercased hs').world_sound hw
    | recordRejected => exact (Snapshot.recordRejected_follows hs').world_sound hw
    | acknowledgeReceipts receiptIds =>
      cases hs'
      refine ⟨Snapshot.acknowledgeReceipts_sound hw.snapshot, fun a => ?_⟩
      apply Snapshot.acknowledgeReceipts_counted hw.counted h
    | discardBatch =>
      obtain ⟨_, hdiscarded, rfl⟩ := map_eq_ok.mp hs'
      obtain ⟨hsound, hle⟩ := Snapshot.discardBatch_sound hw.snapshot hdiscarded
      exact ⟨hsound, fun a => Nat.le_trans (hw.counted a) (hle a)⟩
  · apply hw

theorem OutboxWorld.sound_empty :
  ({} : OutboxWorld).Sound P
  := by
  refine ⟨⟨?_, ?_⟩, fun _ => Nat.le_refl 0⟩
  · intro batch hbatch
    cases hbatch
  · intro batch hbatch
    cases hbatch

/-- In every run of the outbox whose acknowledgements leave no attempt without a receipt, a
transaction that was submitted, and not cancelled before it left, stays listed as attempted
until a receipt for it is acknowledged. -/
theorem OutboxWorld.attempts_listed {ops : List Op}
    (h : Along (OutboxWorld.step P) OutboxWorld.Accounted {} ops) :
  (after (OutboxWorld.step P) {} ops).Listed
  := by
  have hsound : (after (OutboxWorld.step P) {} ops).Sound P :=
    invariant (fun _ _ hw hop => step_sound hw hop) sound_empty h
  apply hsound.listed

/-! ### A rejection next to an unknown outcome -/

/-- The digests and lower case texts of the sample. -/
def samplePlatform : Platform where
  digestHex raw :=
    if raw = [1] then "4bf5122f344554c53bde2ebb8cd2b7e3d1600ad631c385a5d7cce23c7785459a"
    else if raw = [2] then "dbc1b4c900ffe48d575b5da5c638040125f65db0fe3e24494b76ea986457d986"
    else ""
  lowercased text := text
  lowercased_lowercased _ := rfl

/-- A transaction of the sample. -/
def sampleRaw (txidHex : String) (partIndex : Nat) (byte : UInt8) : RawItem :=
  { itemId := txidHex
    partIndex := partIndex
    txidHex := txidHex
    rawTransaction := [byte]
    anchorBoundaryHeight := 0
    scheduledHeight := 100
    scheduleStartHeight := 90
    expiryHeight := 69120 }

/-- A batch of two transactions. -/
def sampleBatch : RawBatch :=
  { batchId := "main:account:run"
    network := "main"
    accountUuid := "account"
    runId := "run"
    lightwalletdUrl := "https://wallet.example:443"
    timingMeanBlocks := 144
    timingMaxBlocks := 576
    createdAt := 0
    nextProofHeight := none
    items := [sampleRaw "aa" 0 1, sampleRaw "bb" 1 2] }

/-- The batch is staged and armed. -/
def sampleArmed : List Op :=
  [.stage sampleBatch,
    .armBatch "main:account:run"
      [("aa", "4bf5122f344554c53bde2ebb8cd2b7e3d1600ad631c385a5d7cce23c7785459a"),
        ("bb", "dbc1b4c900ffe48d575b5da5c638040125f65db0fe3e24494b76ea986457d986")] 0]

/-- The first transaction is sent, and its outcome stays unknown. -/
def sampleUncertain : List Op :=
  [.beginSubmission "aa" "first" 0, .recordUncertain "aa" "temporarily unavailable" 0]

/-- The second transaction is rejected, and its receipt is acknowledged. -/
def sampleRejected : List Op :=
  [.beginSubmission "bb" "second" 1, .recordRejected "bb" 200 (-22) "rejected" 1,
    .acknowledgeReceipts ["main:account:run:bb:rejected"]]

/-- The second transaction is accepted, and its receipt is acknowledged. -/
def sampleAccepted : List Op :=
  [.beginSubmission "bb" "second" 1,
    .recordAccepted ⟨id, fun _ => .rfl, fun _ => 0⟩ "bb" false 50 0 "accepted" 1,
    .acknowledgeReceipts ["main:account:run:bb:accepted"]]

/-- After the acknowledgement of the acceptance, the transaction with the unknown outcome is
still listed. -/
theorem OutboxWorld.attempts_listed_sample :
  ∃ a ∈ (after (OutboxWorld.step samplePlatform) {}
      (sampleArmed ++ sampleUncertain ++ sampleAccepted)).submitted,
    a.txidHex ∈ (after (OutboxWorld.step samplePlatform) {} (sampleArmed ++ sampleUncertain
      ++ sampleAccepted)).snapshot.listAttemptedTxids a.network a.accountUuid a.runId
  := by
  refine ⟨⟨"main:account:run", "main", "account", "run", "aa", "aa"⟩, by decide +kernel, ?_⟩
  apply attempts_listed (by decide +kernel) _ (by decide +kernel)

/-- After the acknowledgement of the rejection, the transaction with the unknown outcome is
not listed. -/
theorem OutboxWorld.sampleRejected_not_listed :
  ¬ (after (OutboxWorld.step samplePlatform) {}
      (sampleArmed ++ sampleUncertain ++ sampleRejected)).Listed
  := by
  intro h
  have hlisted := h ⟨"main:account:run", "main", "account", "run", "aa", "aa"⟩
    (by decide +kernel)
  revert hlisted
  decide +kernel

end Outbox

end Vizor
