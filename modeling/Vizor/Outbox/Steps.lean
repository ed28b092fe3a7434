import Vizor.Outbox.Follows

/-!
# The operations of the outbox keep attempts

The snapshot after an operation follows the one before, one lemma for each operation.
-/

namespace Vizor

open Run Growth

namespace Outbox

variable {P : Platform} {receipts : List Receipt} {i i' : Item} {b b' : Batch}
  {s s' : Snapshot}

/-! ### Places -/

namespace Snapshot

theorem findBatch_eq_some {batchId : String} {n : Nat}
    (h : s.findBatch batchId = some (b, n)) :
  s.batches[n]? = some b ∧ b.batchId = batchId
  := by
  rw [findBatch] at h
  refine ⟨?_, by simpa using List.find?_some h⟩
  apply List.mem_zipIdx_iff_getElem?.mp (List.mem_of_find?_eq_some h)

theorem itemLocation_eq_ok {itemId : String} {location : Location}
    (h : s.itemLocation itemId = .ok location) :
  s.batches[location.batch]? = some location.owner
    ∧ location.owner.items[location.item]? = some location.found
    ∧ location.found.itemId = itemId
  := by
  rw [itemLocation, okOr_eq_ok] at h
  obtain ⟨⟨owner, n⟩, howner, hlocation⟩ := List.exists_of_findSome?_eq_some h
  rw [Option.map_eq_some_iff] at hlocation
  obtain ⟨⟨found, k⟩, hfound, rfl⟩ := hlocation
  refine ⟨List.mem_zipIdx_iff_getElem?.mp howner, ?_, by simpa using List.find?_some hfound⟩
  apply List.mem_zipIdx_iff_getElem?.mp (List.mem_of_find?_eq_some hfound)

/-- A change of one item, when the item follows. -/
theorem modifyItem_follows {location : Location} {f : Item → Item} {itemId : String}
    (hlocation : s.itemLocation itemId = .ok location)
    (h : Item.Follows s.receipts location.owner.batchId location.found (f location.found)) :
  s.Follows P (s.modifyItem location f)
  := by
  obtain ⟨howner, hfound, -⟩ := itemLocation_eq_ok hlocation
  apply Follows.modifyBatch
  intro b hb
  obtain rfl := Option.some.inj (howner.symm.trans hb)
  refine ⟨rfl, rfl, rfl, rfl, Grows.modify (fun _ => Item.Follows.refl) ?_⟩
  intro i hi
  obtain rfl := Option.some.inj (hfound.symm.trans hi)
  apply h

end Snapshot

/-! ### Changes of an item -/

namespace Item.Follows

variable {batchId : String}

/-- A staged item can be armed. -/
theorem armed (h : i.status = .staged) :
  Item.Follows receipts batchId i { i with status := .armed }
  := by
  refine ⟨rfl, rfl, ?_, nofun⟩
  simp [Item.attempts, Item.isReported, h]

/-- An unknown outcome counts as an attempt. -/
theorem uncertain {error : String} {date : Nat} (h : i.status = .submitting) :
  Item.Follows receipts batchId i (i.uncertain error date)
  := by
  refine ⟨rfl, rfl, ?_, nofun⟩
  simp [Item.attempts, Item.isReported, Item.uncertain, h]

theorem interrupted {date : Nat} :
  Item.Follows receipts batchId i (Snapshot.interrupted date i)
  := by
  rw [Snapshot.interrupted]
  split_ifs with h
  · apply uncertain h
  · apply refl

theorem recovered {date : Nat} :
  Item.Follows receipts batchId i (Snapshot.recovered date i)
  := by
  rw [Snapshot.recovered]
  split_ifs with h
  · apply armed h
  · apply interrupted

/-- An armed item can be submitted, or put aside. -/
theorem of_armed {status : ItemStatus} {attemptId : Option String}
    {attemptStartedAt : Option Nat} (h : i.status = .armed)
    (hs : ∀ j : Item, j.status = status → j.isReported = false) :
  Item.Follows receipts batchId i
    { i with status := status, attemptId := attemptId, attemptStartedAt := attemptStartedAt }
  := by
  refine ⟨rfl, rfl, ?_, ?_⟩
  · simp only [Item.attempts, Item.isReported, h]
    simp
  · intro hr
    rw [hs _ rfl] at hr
    cases hr

/-- An item that is submitting can be settled with a receipt. -/
theorem settled {status : ItemStatus} (h : i.status = .submitting)
    (hs : (i.settled status).isReported = true) (hf : Filed receipts batchId i.itemId) :
  Item.Follows receipts batchId i (i.settled status)
  := by
  refine ⟨rfl, rfl, ?_, fun _ => Or.inr hf⟩
  rw [Item.attempts, Item.attempts, h, hs]
  simp [Item.settled]

/-- An item can be scheduled again. -/
theorem replacingSchedule {scheduledHeight scheduleStartHeight : Nat}
    (h : P.lowercased i.txidHex = i.txidHex) :
  Item.Follows receipts batchId i (i.replacingSchedule P scheduledHeight scheduleStartHeight)
  := ⟨rfl, h, Nat.le_refl _, Or.inl⟩

end Item.Follows

/-! ### Staging, arming and recovery -/

namespace Snapshot

theorem decodeBatch_fresh {raw : RawBatch} :
  ∀ i ∈ (decodeBatch P raw).items, i.Fresh P
  := by
  intro i hi
  obtain ⟨rawItem, -, rfl⟩ := List.mem_map.mp hi
  apply Item.fresh_ofRaw

/-- A batch that is staged again keeps its items, and gets new ones. -/
theorem restage_follows {batch : Batch} (hfresh : ∀ i ∈ batch.items, i.Fresh P)
    (h : restage b batch = .ok b') :
  Batch.Follows P receipts b b'
  := by
  simp only [restage, bind_eq_ok, ensure_eq_ok] at h
  obtain ⟨_, -, _, -, _, -, items, hitems, h⟩ := h
  have hadded : ∃ added, items = b.items ++ added ∧ ∀ i ∈ added, i.Fresh P := by
    apply foldlM_invariant (I := fun items => ∃ added, items = b.items ++ added
      ∧ ∀ i ∈ added, i.Fresh P) _ ⟨[], by simp⟩ hitems
    rintro _ items' incoming hmem ⟨added, rfl, hadded⟩ hstep
    rw [restageItem] at hstep
    split at hstep
    all_goals
      simp only [bind_eq_ok, ensure_eq_ok] at hstep
      obtain ⟨_, -, hstep⟩ := hstep
      cases hstep
    · exact ⟨added, rfl, hadded⟩
    · refine ⟨added ++ [incoming], by simp, ?_⟩
      intro i hi
      rcases List.mem_append.mp hi with hi | hi
      · apply hadded i hi
      · rw [List.mem_singleton.mp hi]
        apply hfresh incoming hmem
  obtain ⟨added, rfl, hadded⟩ := hadded
  cases h
  exact ⟨rfl, rfl, rfl, rfl, Grows.append (fun _ => Item.Follows.refl) hadded⟩

theorem stage_follows {raw : RawBatch} (h : s.stage P (decodeBatch P raw) = .ok s') :
  s.Follows P s'
  := by
  simp only [stage, bind_eq_ok, ensure_eq_ok] at h
  obtain ⟨_, -, h⟩ := h
  split at h
  case _ existing n hfind =>
    simp only [bind_eq_ok] at h
    obtain ⟨restaged, hrestaged, h⟩ := h
    cases h
    apply Follows.modifyBatch
    intro b hb
    obtain rfl := Option.some.inj ((findBatch_eq_some hfind).1.symm.trans hb)
    apply restage_follows decodeBatch_fresh hrestaged
  · cases h
    refine ⟨Grows.append (fun _ => Batch.Follows.refl) ?_, fun r hr => hr⟩
    simpa using decodeBatch_fresh

theorem armBatch_follows {batchId : String} {expectedDigests : List (String × String)}
    {date : Nat} (h : s.armBatch batchId expectedDigests date = .ok s') :
  s.Follows P s'
  := by
  simp only [armBatch, bind_eq_ok, ensure_eq_ok] at h
  obtain ⟨_, -, _, -, h⟩ := h
  cases h
  apply Follows.modifyBatch
  intro b _
  refine ⟨rfl, rfl, rfl, rfl, Grows.map ?_⟩
  intro i _
  split_ifs with hi
  · apply Item.Follows.armed hi.2
  · apply Item.Follows.refl

theorem recoverBatch_follows {batchId network accountUuid runId lightwalletdUrl : String}
    {expectedTxids : List String} {date : Nat} {recovered : Bool}
    (h : s.recoverBatch P batchId network accountUuid runId expectedTxids lightwalletdUrl date
      = .ok (recovered, s')) :
  s.Follows P s'
  := by
  simp only [recoverBatch, bind_eq_ok, ensure_eq_ok] at h
  obtain ⟨_, -, h⟩ := h
  split at h
  · cases h
    apply Follows.refl
  · simp only [bind_eq_ok, ensure_eq_ok] at h
    obtain ⟨_, -, h⟩ := h
    cases h
    apply Follows.modifyBatch
    intro b _
    exact ⟨rfl, rfl, rfl, rfl, Grows.map fun _ _ => Item.Follows.recovered⟩

theorem recoverInterruptedSubmissions_follows {date : Nat} :
  s.Follows P (s.recoverInterruptedSubmissions date)
  := by
  refine ⟨Grows.map ?_, fun r hr => hr⟩
  intro b _
  exact ⟨rfl, rfl, rfl, rfl, Grows.map fun _ _ => Item.Follows.interrupted⟩

/-! ### Selection and announcements -/

theorem nextEndpointForInspection_follows :
  s.Follows P s.nextEndpointForInspection.2
  := by
  rw [nextEndpointForInspection]
  split
  · apply Follows.refl
  · exact Follows.of_batches rfl rfl

theorem selectDue_follows {remoteHeight date : Nat} {endpoint : Option String} :
  s.Follows P (s.selectDue remoteHeight endpoint date).2
  := by
  rw [selectDue]
  split
  · apply Follows.refl
  · exact Follows.of_batches rfl rfl

/-- An announcement changes no item. -/
theorem announce_follows {n : Nat} {f : Batch → Batch}
    (h : ∀ b, (f b).batchId = b.batchId ∧ (f b).network = b.network
      ∧ (f b).accountUuid = b.accountUuid ∧ (f b).runId = b.runId ∧ (f b).items = b.items) :
  s.Follows P (s.modifyBatch n f)
  := by
  apply Follows.modifyBatch
  intro b _
  obtain ⟨hid, hnet, hacc, hrun, hitems⟩ := h b
  apply Batch.Follows.of_items hid hnet hacc hrun hitems

theorem markProofReadyIfNeeded_follows {remoteHeight date : Nat} {endpoint : String} :
  s.Follows P (s.markProofReadyIfNeeded remoteHeight endpoint date).2
  := by
  rw [markProofReadyIfNeeded]
  split
  · apply Follows.refl
  · split
    · apply Follows.refl
    · exact announce_follows fun _ => ⟨rfl, rfl, rfl, rfl, rfl⟩

theorem recordVerifiedProofReadiness_follows {network accountUuid runId : String}
    {date : Nat} :
  s.Follows P (s.recordVerifiedProofReadiness network accountUuid runId date).2
  := by
  rw [recordVerifiedProofReadiness]
  split
  · apply Follows.refl
  · exact announce_follows fun _ => ⟨rfl, rfl, rfl, rfl, rfl⟩

theorem acknowledgeProofReadyNotification_follows {batchId : String} {date : Nat}
    (h : s.acknowledgeProofReadyNotification batchId date = .ok s') :
  s.Follows P s'
  := by
  simp only [acknowledgeProofReadyNotification, bind_eq_ok, ensure_eq_ok] at h
  obtain ⟨_, -, _, -, h⟩ := h
  cases h
  exact announce_follows fun _ => ⟨rfl, rfl, rfl, rfl, rfl⟩

theorem markUnverifiedProofReadyNoticeIfNeeded_follows {batchId : String} {date : Nat} :
  s.Follows P (s.markUnverifiedProofReadyNoticeIfNeeded batchId date).2
  := by
  rw [markUnverifiedProofReadyNoticeIfNeeded]
  split
  · apply Follows.refl
  · split
    · apply Follows.refl
    · split_ifs
      · exact announce_follows fun _ => ⟨rfl, rfl, rfl, rfl, rfl⟩
      · apply Follows.refl

theorem acknowledgeUnverifiedProofReadyNotice_follows {batchId : String} {date : Nat}
    (h : s.acknowledgeUnverifiedProofReadyNotice batchId date = .ok s') :
  s.Follows P s'
  := by
  simp only [acknowledgeUnverifiedProofReadyNotice, bind_eq_ok, ensure_eq_ok] at h
  obtain ⟨_, -, _, -, h⟩ := h
  cases h
  exact announce_follows fun _ => ⟨rfl, rfl, rfl, rfl, rfl⟩

theorem markBroadcastCompleteIfNeeded_follows {batchId : String} {date : Nat} :
  s.Follows P (s.markBroadcastCompleteIfNeeded batchId date).2
  := by
  rw [markBroadcastCompleteIfNeeded]
  split
  · apply Follows.refl
  · split_ifs
    · exact announce_follows fun _ => ⟨rfl, rfl, rfl, rfl, rfl⟩
    · apply Follows.refl

/-! ### Submission and results -/

/-- The items that are put aside have no result from the network. -/
theorem putAside_follows {aside : Item → Bool} {status : ItemStatus} {outcome : ReceiptOutcome}
    {message : Option String} {remoteHeight date : Nat} {endpoint : String}
    (haside : ∀ i, aside i = true → i.status = .armed)
    (hstatus : ∀ j : Item, j.status = status → j.isReported = false) :
  s.Follows P (s.putAside aside status outcome message remoteHeight endpoint date)
  := by
  refine ⟨Grows.map ?_, fun r hr => List.mem_append_left _ hr⟩
  intro b _
  split_ifs
  · refine ⟨rfl, rfl, rfl, rfl, Grows.map ?_⟩
    intro i _
    split_ifs with hi
    · apply Item.Follows.of_armed (haside i hi) hstatus
    · apply Item.Follows.refl
  · apply Batch.Follows.refl

theorem expireItems_follows {remoteHeight date : Nat} {endpoint : String} :
  s.Follows P (s.expireItems remoteHeight endpoint date)
  := by
  apply putAside_follows
  · intro i hi
    simp only [Bool.and_eq_true, decide_eq_true_eq] at hi
    apply hi.1
  · intro j hj
    rw [Item.isReported, hj]

theorem markDueItemsNeedingResign_follows {remoteHeight date : Nat} {endpoint : String} :
  s.Follows P (s.markDueItemsNeedingResign remoteHeight endpoint date)
  := by
  rw [markDueItemsNeedingResign]
  split
  · apply Follows.refl
  · apply putAside_follows
    · intro i hi
      simp only [Bool.and_eq_true, decide_eq_true_eq] at hi
      apply hi.1.1
    · intro j hj
      rw [Item.isReported, hj]

theorem beginSubmission_follows {itemId attemptId : String} {date : Nat}
    (h : s.beginSubmission itemId attemptId date = .ok s') :
  s.Follows P s'
  := by
  simp only [beginSubmission, bind_eq_ok, ensure_eq_ok] at h
  obtain ⟨location, hlocation, _, hstatus, h⟩ := h
  cases h
  apply modifyItem_follows hlocation
  apply Item.Follows.of_armed hstatus
  intro j hj
  rw [Item.isReported, hj]

theorem recordUncertain_follows {itemId error : String} {date : Nat}
    (h : s.recordUncertain itemId error date = .ok s') :
  s.Follows P s'
  := by
  simp only [recordUncertain, bind_eq_ok, ensure_eq_ok] at h
  obtain ⟨location, hlocation, _, hstatus, h⟩ := h
  cases h
  apply modifyItem_follows hlocation (Item.Follows.uncertain hstatus)

theorem recordRejected_follows {itemId responseMessage : String} {remoteHeight date : Nat}
    {responseCode : Int}
    (h : s.recordRejected itemId remoteHeight responseCode responseMessage date = .ok s') :
  s.Follows P s'
  := by
  simp only [recordRejected, bind_eq_ok, ensure_eq_ok] at h
  obtain ⟨location, hlocation, _, hstatus, h⟩ := h
  cases h
  obtain ⟨howner, hfound, -⟩ := itemLocation_eq_ok hlocation
  apply Follows.of_modify rfl fun r hr => List.mem_append_left _ hr
  intro b hb
  obtain rfl := Option.some.inj (howner.symm.trans hb)
  refine ⟨rfl, rfl, rfl, rfl, Grows.modify (fun _ => Item.Follows.refl) ?_⟩
  intro i hi
  obtain rfl := Option.some.inj (hfound.symm.trans hi)
  apply Item.Follows.settled hstatus rfl
    ⟨_, List.mem_append_right _ (List.mem_singleton_self _), rfl, rfl⟩

theorem items_trans {batchId : String} {items items' items'' : List Item}
    (h : Grows (Item.Follows receipts batchId) (fun _ => False) items items')
    (h' : Grows (Item.Follows receipts batchId) (fun _ => False) items' items'') :
  Grows (Item.Follows receipts batchId) (fun _ => False) items items''
  := h.trans (fun _ _ _ hi hi' => hi.trans hi') (fun _ _ hx _ => hx) h'

theorem items_lowercased {batchId : String} {items items' : List Item}
    (h : Grows (Item.Follows receipts batchId) (fun _ => False) items items')
    (hlower : ∀ i ∈ items, P.lowercased i.txidHex = i.txidHex) :
  ∀ i ∈ items', P.lowercased i.txidHex = i.txidHex
  := by
  apply h.forall_mem (T := fun i => P.lowercased i.txidHex = i.txidHex) hlower
  · intro i i' hi hl
    rw [hi.txidHex]
    apply hl
  · exact fun _ hx => hx.elim

/-- The items that are scheduled again stay in their places. -/
theorem rescheduleEach_grows {draws : Draws} {maxBlocks remoteHeight offset elapsed : Nat}
    {batchId : String} {indexes : List Nat} {items items' : List Item}
    {updates updates' : List ScheduleUpdate}
    (hlower : ∀ i ∈ items, P.lowercased i.txidHex = i.txidHex)
    (h : rescheduleEach P draws maxBlocks remoteHeight indexes offset elapsed items updates
      = .ok (items', updates')) :
  Grows (Item.Follows receipts batchId) (fun _ => False) items items'
  := by
  induction indexes generalizing offset elapsed items updates with
  | nil =>
    cases h
    apply Grows.refl fun _ => Item.Follows.refl
  | cons index rest ih =>
    simp only [rescheduleEach, bind_eq_ok, okOr_eq_ok, ensure_eq_ok] at h
    obtain ⟨item, hitem, _, -, _, -, h⟩ := h
    have hfirst : ∀ k, Grows (Item.Follows receipts batchId) (fun _ => False) items
        (items.modify index fun i => i.replacingSchedule P k remoteHeight) := by
      intro k
      apply Grows.modify fun _ => Item.Follows.refl
      intro i hi
      apply Item.Follows.replacingSchedule
      apply hlower i (List.mem_of_getElem? hi)
    apply items_trans (hfirst _) (ih (items_lowercased (hfirst _) hlower) h)

theorem recordAccepted_follows {draws : Draws} {itemId responseMessage : String}
    {equivalent : Bool} {remoteHeight date : Nat} {responseCode : Int}
    (hlower : ∀ b ∈ s.batches, ∀ i ∈ b.items, P.lowercased i.txidHex = i.txidHex)
    (h : s.recordAccepted P draws itemId equivalent remoteHeight responseCode responseMessage
      date = .ok s') :
  s.Follows P s'
  := by
  simp only [recordAccepted, rescheduleOverdueItems, bind_eq_ok, ensure_eq_ok] at h
  obtain ⟨location, hlocation, _, hstatus, ⟨items, updates⟩, ⟨_, -, hitems⟩, h⟩ := h
  generalize hreceipt : makeReceipt _ _ _ _ _ _ _ _ = receipt at h
  cases h
  obtain ⟨howner, hfound, -⟩ := itemLocation_eq_ok hlocation
  apply Follows.of_modify rfl fun r hr => List.mem_append_left _ hr
  intro b hb
  obtain rfl := Option.some.inj (howner.symm.trans hb)
  have hsettled : ∀ receipts, Filed receipts location.owner.batchId location.found.itemId →
      Grows (Item.Follows receipts location.owner.batchId) (fun _ => False)
        location.owner.items (location.owner.items.modify location.item
          (·.settled .acceptedAwaitingReconciliation)) := by
    intro receipts hfiled
    apply Grows.modify fun _ => Item.Follows.refl
    intro i hi
    obtain rfl := Option.some.inj (hfound.symm.trans hi)
    apply Item.Follows.settled hstatus rfl hfiled
  have hfiled : Filed (s.receipts ++ [receipt]) location.owner.batchId
      location.found.itemId := by
    rw [← hreceipt]
    exact ⟨_, List.mem_append_right _ (List.mem_singleton_self _), rfl, rfl⟩
  have hitemsFollow := hsettled _ hfiled
  have hlowered := items_lowercased hitemsFollow
    (hlower location.owner (List.mem_of_getElem? howner))
  refine ⟨rfl, rfl, rfl, rfl, ?_⟩
  apply (items_trans hitemsFollow (rescheduleEach_grows hlowered hitems)).mono (fun _ _ => id)
  exact fun _ hx => hx.elim

end Snapshot

end Outbox

end Vizor
