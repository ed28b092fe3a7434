import Vizor.Outbox.Steps
import Vizor.Lib.Errors

/-!
# Accepted submissions can be recorded

Before an item is submitted, the outbox checks that the overdue items of its batch could be
scheduled again, and after the submission was accepted it schedules them again, by their expiry
heights and one after the other at random delays.  The check gives every item a height of its
own, but the rescheduling leaves room for all that come after it already at the first, so it
asks more than the check does.  It goes through, whatever is drawn, exactly when every overdue
item has a height for each of them before its expiry.
-/

namespace Vizor

open Run

namespace Outbox

/-! ### Delays -/

theorem one_le_sampleDelay {sampled maxBlocks : Nat} (h : 0 < maxBlocks) :
  1 ≤ sampleDelay sampled maxBlocks
  := by
  rw [sampleDelay, le_min_iff]
  exact ⟨le_max_left _ _, h⟩

theorem sampleDelay_le (sampled maxBlocks : Nat) :
  sampleDelay sampled maxBlocks ≤ maxBlocks
  := min_le_right _ _

theorem saturatingAdd_of_le {a b : Nat} (h : a + b ≤ u64Max) :
  saturatingAdd a b = a + b
  := min_eq_left h

/-! ### Overdue items -/

/-- An item other than the submitted one that waits to be sent and is past its height. -/
def Item.overdue (itemId : String) (remoteHeight : Nat) (i : Item) : Bool :=
  i.itemId ≠ itemId && i.status = .armed && i.scheduledHeight ≤ remoteHeight

/-- The places of the overdue items. -/
def overdueIndexes (itemId : String) (remoteHeight : Nat) (items : List Item) : List Nat :=
  (items.zipIdx.filter fun y => y.1.overdue itemId remoteHeight).map (·.2)

/-- The expiry height of the item at a place. -/
def expiryAt (items : List Item) (index : Nat) : Nat :=
  (items[index]?.map (·.expiryHeight)).getD 0

theorem expiryAt_of_getElem? {items : List Item} {index : Nat} {i : Item}
    (h : items[index]? = some i) :
  expiryAt items index = i.expiryHeight
  := by
  rw [expiryAt, h]
  rfl

theorem mem_overdueIndexes {itemId : String} {remoteHeight index : Nat} {items : List Item} :
  index ∈ overdueIndexes itemId remoteHeight items
    ↔ ∃ i, items[index]? = some i ∧ i.overdue itemId remoteHeight = true
  := by
  simp only [overdueIndexes, List.mem_map, List.mem_filter, Prod.exists, exists_eq_right,
    List.mem_zipIdx_iff_getElem?]

theorem nodup_overdueIndexes (itemId : String) (remoteHeight : Nat) (items : List Item) :
  (overdueIndexes itemId remoteHeight items).Nodup
  := by
  have hsub : (overdueIndexes itemId remoteHeight items).Sublist (items.zipIdx.map (·.2)) :=
    List.filter_sublist.map _
  apply hsub.nodup
  rw [List.zipIdx_map_snd]
  exact List.nodup_range'

theorem length_overdueIndexes (itemId : String) (remoteHeight : Nat) (items : List Item) :
  (overdueIndexes itemId remoteHeight items).length
    = (items.filter (Item.overdue itemId remoteHeight)).length
  := by
  rw [overdueIndexes, List.length_map, ← List.countP_eq_length_filter,
    ← List.countP_eq_length_filter]
  conv_rhs => rw [← List.zipIdx_map_fst 0 items, List.countP_map]
  rfl

/-! ### Places after a change -/

theorem zipIdx_modify {α : Type*} (xs : List α) (n : Nat) (f : α → α) :
  (xs.modify n f).zipIdx = xs.zipIdx.map fun x => (if n = x.2 then f x.1 else x.1, x.2)
  := by
  apply List.ext_getElem?
  intro k
  rw [List.getElem?_map, List.getElem?_zipIdx, List.getElem?_zipIdx, List.getElem?_modify]
  cases xs[k]? with
  | none => rfl
  | some x => simp

/-- The place of an item after a change of the item at `location`. -/
def Location.changed (location : Location) (f : Item → Item) (other : Location) : Location :=
  if location.batch = other.batch then
    { other with
      owner := { other.owner with items := other.owner.items.modify location.item f }
      found := if location.item = other.item then f other.found else other.found }
  else other

/-! ### One rescheduling after the other -/

namespace Snapshot

/-- What the rescheduling of the items at `order` makes of the items, at these heights. -/
structure Placed (P : Platform) (remoteHeight : Nat) (order heights : List Nat)
    (items items' : List Item) : Prop where
  length : heights.length = order.length
  placed {index height : Nat} (h : (index, height) ∈ order.zip heights) :
    ∃ i, items[index]? = some i ∧ height < i.expiryHeight
      ∧ items'[index]? = some (i.replacingSchedule P height remoteHeight)
  kept {index : Nat} (h : index ∉ order) : items'[index]? = items[index]?

/-- Heights that follow each other with the delays of the sampler between them. -/
def Delayed (maxBlocks height : Nat) (heights : List Nat) : Prop :=
  (height :: heights).IsChain fun h h' => h < h' ∧ h' ≤ h + maxBlocks

/-- The receipt's updates for the items at `order`. -/
def updatesAt (remoteHeight : Nat) (items : List Item) (order heights : List Nat) :
    List ScheduleUpdate :=
  (order.zip heights).map fun x =>
    ⟨(items[x.1]?.map (·.itemId)).getD "", x.2, remoteHeight⟩

section Each

variable {P : Platform} {draws : Draws} {maxBlocks remoteHeight : Nat}

/-- A field that a change at a place keeps is kept at every place. -/
theorem map_getElem?_modify {α : Type*} {items : List Item} {f : Item → Item} {field : Item → α}
    (h : ∀ i, field (f i) = field i) (index k : Nat) :
  ((items.modify index f)[k]?).map field = items[k]?.map field
  := by
  rw [List.getElem?_modify, Option.map_eq_map, Option.map_map]
  congr 1
  funext i
  simp only [Function.comp]
  split
  · apply h i
  · rfl

/-- When the first of the items has a height for each of them before its expiry, they are all
scheduled, whatever is drawn: a later item has one height more, and expires no earlier. -/
theorem rescheduleEach_spec (P : Platform) (draws : Draws) (hmax : 0 < maxBlocks)
    {order : List Nat} (hnodup : order.Nodup)
    {items : List Item} (hmem : ∀ index ∈ order, ∃ i, items[index]? = some i)
    (hsorted : order.Pairwise fun j k => expiryAt items j ≤ expiryAt items k)
    (hbound : ∀ index, expiryAt items index ≤ u64Max) {elapsed : Nat}
    (hroom : ∀ index ∈ order.head?, remoteHeight + elapsed + order.length < expiryAt items index)
    (offset : Nat) (updates : List ScheduleUpdate) :
  ∃ items' heights,
    rescheduleEach P draws maxBlocks remoteHeight order offset elapsed items updates
        = .ok (items', updates ++ updatesAt remoteHeight items order heights)
      ∧ Placed P remoteHeight order heights items items'
      ∧ Delayed maxBlocks (remoteHeight + elapsed) heights
  := by
  induction order generalizing items elapsed offset updates with
  | nil =>
    refine ⟨items, [], ?_, ⟨rfl, nofun, fun _ => rfl⟩, .singleton _⟩
    rw [rescheduleEach, updatesAt]
    simp
  | cons index rest ih =>
    obtain ⟨i, hi⟩ := hmem index List.mem_cons_self
    have hexpiry := expiryAt_of_getElem? hi
    have hfirst := hroom index rfl
    have hlimit := hbound index
    rw [hexpiry] at hfirst hlimit
    rw [List.length_cons] at hfirst
    have hcurrent : saturatingAdd remoteHeight elapsed = remoteHeight + elapsed :=
      saturatingAdd_of_le (by omega)
    generalize hbounded : min maxBlocks
      (i.expiryHeight - rest.length - 1 - (remoteHeight + elapsed)) = boundedMax
    have hboundedMax : 0 < boundedMax := by
      rw [← hbounded, lt_min_iff]
      omega
    have hboundedLe : boundedMax ≤ maxBlocks
        ∧ remoteHeight + elapsed + boundedMax + rest.length + 1 ≤ i.expiryHeight := by
      rw [← hbounded]
      have hle := min_le_right maxBlocks
        (i.expiryHeight - rest.length - 1 - (remoteHeight + elapsed))
      exact ⟨min_le_left _ _, by omega⟩
    generalize hdelay : sampleDelay (draws.sampled offset) boundedMax = delay
    have hdelayPos : 1 ≤ delay := hdelay ▸ one_le_sampleDelay hboundedMax
    have hdelayLe : delay ≤ boundedMax := hdelay ▸ sampleDelay_le _ _
    have helapsed : saturatingAdd elapsed delay = elapsed + delay :=
      saturatingAdd_of_le (by omega)
    have hscheduled : saturatingAdd remoteHeight (elapsed + delay)
        = remoteHeight + elapsed + delay := by
      rw [saturatingAdd_of_le (by omega)]
      omega
    generalize hheight : remoteHeight + elapsed + delay = height at hscheduled
    generalize hmoved : items.modify index (fun i => i.replacingSchedule P height remoteHeight)
      = moved
    have hmovedSelf : moved[index]? = some (i.replacingSchedule P height remoteHeight) := by
      rw [← hmoved, List.getElem?_modify_eq, hi]
      rfl
    have hmovedNe : ∀ k, k ≠ index → moved[k]? = items[k]? := by
      intro k hne
      rw [← hmoved, List.getElem?_modify]
      simp [hne.symm]
    have hexpiries : ∀ k, expiryAt moved k = expiryAt items k := by
      intro k
      rw [expiryAt, expiryAt, ← hmoved, map_getElem?_modify]
      intro _
      rfl
    have hids : ∀ k : Nat, moved[k]?.map (fun i : Item => i.itemId)
        = items[k]?.map (fun i : Item => i.itemId) := by
      intro k
      rw [← hmoved]
      apply map_getElem?_modify
      intro _
      rfl
    rw [List.nodup_cons] at hnodup
    rw [List.pairwise_cons] at hsorted
    have hmemRest : ∀ k ∈ rest, ∃ j, moved[k]? = some j := by
      intro k hk
      obtain ⟨j, hj⟩ := hmem k (List.mem_cons_of_mem _ hk)
      refine ⟨j, ?_⟩
      rw [hmovedNe, hj]
      rintro rfl
      apply hnodup.1 hk
    have hsortedRest : rest.Pairwise fun j k => expiryAt moved j ≤ expiryAt moved k := by
      simpa only [hexpiries] using hsorted.2
    have hboundRest : ∀ k, expiryAt moved k ≤ u64Max := by
      simpa only [hexpiries] using hbound
    have hroomRest : ∀ k ∈ rest.head?,
        remoteHeight + (elapsed + delay) + rest.length < expiryAt moved k := by
      intro k hk
      have hle := hsorted.1 k (List.mem_of_mem_head? hk)
      rw [hexpiry] at hle
      rw [hexpiries]
      omega
    obtain ⟨items', heights, hrest, hplaced, hdelayed⟩ := ih hnodup.2 hmemRest hsortedRest
      hboundRest hroomRest (offset + 1) (updates ++ [⟨i.itemId, height, remoteHeight⟩])
    refine ⟨items', height :: heights, ?_, ⟨?_, ?_, ?_⟩, ?_⟩
    · have hlater : rest.length + 1 < i.expiryHeight := by omega
      have hlatest : remoteHeight + elapsed < i.expiryHeight - rest.length - 1 := by omega
      rw [rescheduleEach, hi]
      simp only [okOr, ok_bind, ensure, hlater, if_true, hcurrent, hlatest, hbounded, hdelay,
        helapsed, hscheduled, hmoved]
      rw [hrest, updatesAt, updatesAt, List.zip_cons_cons, List.map_cons, hi]
      simp only [hids]
      simp
    · rw [List.length_cons, List.length_cons, hplaced.length]
    · intro k h hk
      rw [List.zip_cons_cons, List.mem_cons] at hk
      rcases hk with hk | hk
      · obtain ⟨rfl, rfl⟩ := Prod.mk.inj hk
        refine ⟨i, hi, by omega, ?_⟩
        rw [hplaced.kept hnodup.1, hmovedSelf]
      · obtain ⟨j, hj, hlt, hj'⟩ := hplaced.placed hk
        have hne : k ≠ index := by
          rintro rfl
          apply hnodup.1 (List.of_mem_zip hk).1
        rw [hmovedNe k hne] at hj
        exact ⟨j, hj, hlt, hj'⟩
    · intro k hk
      rw [List.mem_cons, not_or] at hk
      rw [hplaced.kept hk.2, hmovedNe k hk.1]
    · rw [Delayed, List.isChain_cons_cons]
      refine ⟨by omega, ?_⟩
      rw [← hheight]
      rw [← Nat.add_assoc] at hdelayed
      apply hdelayed

/-- The first item has a height for each of them before its expiry, when they are scheduled. -/
theorem rescheduleEach_room {order : List Nat} {items items' : List Item} {offset : Nat}
    {updates updates' : List ScheduleUpdate} (hremote : remoteHeight ≤ u64Max)
    (h : rescheduleEach P draws maxBlocks remoteHeight order offset 0 items updates
      = .ok (items', updates')) :
  ∀ index ∈ order.head?, remoteHeight + order.length < expiryAt items index
  := by
  cases order with
  | nil => nofun
  | cons index rest =>
    rintro _ ⟨⟩
    simp only [rescheduleEach, bind_eq_ok, okOr_eq_ok, ensure_eq_ok] at h
    obtain ⟨i, hi, _, hremaining, _, hcurrent, -⟩ := h
    rw [saturatingAdd_of_le (by omega)] at hcurrent
    rw [expiryAt_of_getElem? hi, List.length_cons]
    omega

end Each

/-! ### The submitted item -/

/-- A change that keeps the id of an item keeps the places. -/
theorem itemLocation_modifyItem {s : Snapshot} {location : Location} {f : Item → Item}
    (hid : ∀ i, (f i).itemId = i.itemId) (itemId : String) :
  (s.modifyItem location f).itemLocation itemId
    = (s.itemLocation itemId).map (location.changed f)
  := by
  have hsome : ∀ {x : Option Location}, okOr (x.map (location.changed f)) OutboxError.itemNotFound
      = (okOr x .itemNotFound).map (location.changed f) := by
    intro x
    cases x <;> rfl
  rw [itemLocation, itemLocation, ← hsome, modifyItem, modifyBatch, zipIdx_modify,
    List.findSome?_map, List.map_findSome?]
  congr 2
  funext entry
  obtain ⟨b, n⟩ := entry
  simp only [Function.comp]
  split
  · rename_i heq
    rw [zipIdx_modify, List.find?_map, Option.map_map, Option.map_map]
    have hfind : ((fun y : Item × Nat => decide (y.1.itemId = itemId))
        ∘ fun x : Item × Nat => (if location.item = x.2 then f x.1 else x.1, x.2))
          = fun y : Item × Nat => decide (y.1.itemId = itemId) := by
      funext y
      simp only [Function.comp]
      split
      · rw [hid]
      · rfl
    rw [hfind]
    congr 1
    funext y
    simp [Location.changed, heq]
  · rename_i hne
    rw [Option.map_map]
    congr 1
    funext y
    simp [Location.changed, hne]

/-- The submitted item is overdue in no case. -/
theorem overdueIndexes_modify {itemId : String} {remoteHeight index : Nat} {items : List Item}
    {i : Item} (hi : items[index]? = some i) (hid : i.itemId = itemId) {f : Item → Item}
    (hf : ∀ i, (f i).itemId = i.itemId) :
  overdueIndexes itemId remoteHeight (items.modify index f)
    = overdueIndexes itemId remoteHeight items
  := by
  rw [overdueIndexes, overdueIndexes, zipIdx_modify, List.filter_map, List.map_map]
  have hfilter : items.zipIdx.filter
      ((fun y => y.1.overdue itemId remoteHeight)
        ∘ fun x => (if index = x.2 then f x.1 else x.1, x.2))
      = items.zipIdx.filter fun y => y.1.overdue itemId remoteHeight := by
    apply List.filter_congr
    rintro ⟨j, k⟩ hj
    rw [List.mem_zipIdx_iff_getElem?] at hj
    simp only [Function.comp]
    split
    · rename_i heq
      subst heq
      obtain rfl := Option.some.inj (hi.symm.trans hj)
      simp [Item.overdue, hf, hid]
    · rfl
  rw [hfilter]
  rfl

/-! ### Before and after the submission -/

/-- The rescheduling that follows an accepted submission, from what it draws. -/
structure Rescheduled (P : Platform) (maxBlocks remoteHeight : Nat) (itemId : String)
    (items items' : List Item) (updates : List ScheduleUpdate) (order heights : List Nat) :
    Prop where
  overdue : order.Perm (overdueIndexes itemId remoteHeight items)
  by_expiry : order.Pairwise fun j k => expiryAt items j ≤ expiryAt items k
  length : heights.length = order.length
  delayed : Delayed maxBlocks remoteHeight heights
  placed {index height : Nat} (h : (index, height) ∈ order.zip heights) :
    ∃ i, items[index]? = some i ∧ height < i.expiryHeight
      ∧ items'[index]? = some (i.replacingSchedule P height remoteHeight)
  kept {index : Nat} (h : index ∉ order) :
    items'[index]?.map (·.scheduledHeight) = items[index]?.map (·.scheduledHeight)
  updates_eq : updates = updatesAt remoteHeight items order heights

/-- The batch has a timing policy, and each of its overdue items has a height for all of them
before its expiry. -/
def LeavesRoom (b : Batch) (itemId : String) (remoteHeight : Nat) : Prop :=
  0 < b.timingMeanBlocks ∧ 0 < b.timingMaxBlocks ∧ b.timingMeanBlocks ≤ b.timingMaxBlocks
    ∧ ∀ i ∈ b.items, i.overdue itemId remoteHeight = true
      → remoteHeight + (b.items.filter (Item.overdue itemId remoteHeight)).length < i.expiryHeight

/-- Once the item was submitted its acceptance can be recorded, whatever is drawn, and
reschedules the overdue items of its batch. -/
def Recordable (P : Platform) (s : Snapshot) (location : Location) (itemId : String)
    (remoteHeight : Nat) : Prop :=
  ∀ attemptId began submitted, s.beginSubmission itemId attemptId began = .ok submitted →
    ∀ draws equivalent responseCode responseMessage date, ∃ recorded batch receipt order heights,
      submitted.recordAccepted P draws itemId equivalent remoteHeight responseCode responseMessage
          date = .ok recorded
        ∧ recorded.batches[location.batch]? = some batch
        ∧ (∀ n, n ≠ location.batch → recorded.batches[n]? = s.batches[n]?)
        ∧ recorded.receipts = s.receipts ++ [receipt]
        ∧ Rescheduled P location.owner.timingMaxBlocks remoteHeight itemId location.owner.items
            batch.items receipt.scheduleUpdates order heights

/-! ### Recording an acceptance -/

section Recording

variable {P : Platform} {s : Snapshot} {location : Location} {itemId : String}
  {remoteHeight : Nat}

/-- What the start of a submission makes of the item. -/
def begun (attemptId : String) (began : Nat) (i : Item) : Item :=
  { i with status := .submitting, attemptId := some attemptId, attemptStartedAt := some began }

theorem beginSubmission_of_armed (hlocation : s.itemLocation itemId = .ok location)
    (harmed : location.found.status = .armed) (attemptId : String) (began : Nat) :
  s.beginSubmission itemId attemptId began
    = .ok (s.modifyItem location (begun attemptId began))
  := by
  rw [beginSubmission, hlocation]
  simp only [ok_bind, ensure, harmed, if_true]
  rfl

/-- The items of the batch once its submission was accepted. -/
def acceptedItems (location : Location) (attemptId : String) (began : Nat) : List Item :=
  (location.owner.items.modify location.item (begun attemptId began)).modify location.item
    (·.settled .acceptedAwaitingReconciliation)

/-- A field that the submission keeps. -/
theorem map_getElem?_acceptedItems {α : Type*} {field : Item → α} {attemptId : String}
    {began : Nat} (hbegun : ∀ i, field (begun attemptId began i) = field i)
    (hsettled : ∀ (i : Item) status, field (i.settled status) = field i) (k : Nat) :
  (acceptedItems location attemptId began)[k]?.map field = location.owner.items[k]?.map field
  := by
  rw [acceptedItems, map_getElem?_modify (fun i => hsettled i _), map_getElem?_modify hbegun]

theorem expiryAt_acceptedItems (attemptId : String) (began k : Nat) :
  expiryAt (acceptedItems location attemptId began) k = expiryAt location.owner.items k
  := by
  rw [expiryAt, expiryAt, map_getElem?_acceptedItems]
  · intro _
    rfl
  · intro _ _
    rfl

theorem overdueIndexes_acceptedItems (hlocation : s.itemLocation itemId = .ok location)
    (attemptId : String) (began : Nat) :
  overdueIndexes itemId remoteHeight (acceptedItems location attemptId began)
    = overdueIndexes itemId remoteHeight location.owner.items
  := by
  obtain ⟨-, hfound, hid⟩ := itemLocation_eq_ok hlocation
  rw [acceptedItems]
  have hbegun : (location.owner.items.modify location.item (begun attemptId began))[location.item]?
      = some (begun attemptId began location.found) := by
    rw [List.getElem?_modify_eq, hfound]
    rfl
  have hsettledId : ∀ i : Item, (i.settled .acceptedAwaitingReconciliation).itemId = i.itemId :=
    fun _ => rfl
  have hbegunId : ∀ i : Item, (begun attemptId began i).itemId = i.itemId := fun _ => rfl
  rw [overdueIndexes_modify hbegun hid hsettledId, overdueIndexes_modify hfound hid hbegunId]

/-- The places of the overdue items, in the order in which they are scheduled. -/
def scheduleOrder (draws : Draws) (itemId : String) (remoteHeight : Nat) (items : List Item) :
    List Nat :=
  (draws.shuffled (overdueIndexes itemId remoteHeight items)).insertionSort fun j k =>
    expiryAt items j ≤ expiryAt items k

theorem scheduleOrder_perm (draws : Draws) (items : List Item) :
  (scheduleOrder draws itemId remoteHeight items).Perm (overdueIndexes itemId remoteHeight items)
  := (List.perm_insertionSort _ _).trans (draws.shuffled_perm _)

theorem scheduleOrder_sorted (draws : Draws) (items : List Item) :
  (scheduleOrder draws itemId remoteHeight items).Pairwise fun j k =>
    expiryAt items j ≤ expiryAt items k
  := by
  have : Std.Total fun j k => expiryAt items j ≤ expiryAt items k :=
    ⟨fun j k => le_total _ _⟩
  have : IsTrans Nat fun j k => expiryAt items j ≤ expiryAt items k :=
    ⟨fun _ _ _ => le_trans⟩
  apply List.pairwise_insertionSort

/-- The rescheduling in terms of the order of the items. -/
theorem rescheduleOverdueItems_eq (draws : Draws) {b : Batch} (items : List Item)
    (hpolicy : 0 < b.timingMeanBlocks ∧ 0 < b.timingMaxBlocks
      ∧ b.timingMeanBlocks ≤ b.timingMaxBlocks) :
  rescheduleOverdueItems P draws { b with items := items } itemId remoteHeight
    = rescheduleEach P draws b.timingMaxBlocks remoteHeight
        (scheduleOrder draws itemId remoteHeight items) 0 0 items []
  := by
  rw [rescheduleOverdueItems, ensure, if_pos hpolicy]
  rfl

/-- The recording of an acceptance is the rescheduling of the other items, and a receipt. -/
theorem recordAccepted_begun (hlocation : s.itemLocation itemId = .ok location)
    (attemptId : String) (began : Nat) (draws : Draws) (equivalent : Bool) (responseCode : Int)
    (responseMessage : String) (date : Nat) :
  (s.modifyItem location (begun attemptId began)).recordAccepted P draws itemId equivalent
      remoteHeight responseCode responseMessage date
    = do
      let accepted := { location.owner with items := acceptedItems location attemptId began }
      let (items, updates) ← rescheduleOverdueItems P draws accepted itemId remoteHeight
      let receipt := makeReceipt accepted (begun attemptId began location.found)
        (if equivalent then .acceptedEquivalent else .accepted) remoteHeight (some responseCode)
        (some responseMessage) updates date
      let s' := (s.modifyItem location (begun attemptId began)).modifyBatch location.batch
        fun b => { b with items := items }
      return { s' with receipts := s.receipts ++ [receipt] }
  := by
  have hplace : (s.modifyItem location (begun attemptId began)).itemLocation itemId
      = .ok { location with
          owner := { location.owner with
            items := location.owner.items.modify location.item (begun attemptId began) }
          found := begun attemptId began location.found } := by
    rw [itemLocation_modifyItem, hlocation]
    · simp [Except.map, Location.changed]
    · intro _
      rfl
  rw [recordAccepted, hplace]
  simp only [ok_bind, ensure, begun, if_true]
  rfl

/-- The first of the items in order has room when all have. -/
theorem room_of_leavesRoom (hroom : LeavesRoom location.owner itemId remoteHeight)
    (draws : Draws) {items : List Item}
    (hoverdue : overdueIndexes itemId remoteHeight items
      = overdueIndexes itemId remoteHeight location.owner.items)
    (hexpiries : ∀ k, expiryAt items k = expiryAt location.owner.items k) :
  ∀ index ∈ (scheduleOrder draws itemId remoteHeight items).head?,
    remoteHeight + 0 + (scheduleOrder draws itemId remoteHeight items).length
      < expiryAt items index
  := by
  intro index hindex
  have hperm : (scheduleOrder draws itemId remoteHeight items).Perm
      (overdueIndexes itemId remoteHeight items) := scheduleOrder_perm draws items
  have hmem := hperm.mem_iff.1 (List.mem_of_mem_head? hindex)
  rw [hoverdue, mem_overdueIndexes] at hmem
  obtain ⟨i, hi, hlate⟩ := hmem
  rw [hperm.length_eq, hoverdue, length_overdueIndexes, hexpiries, expiryAt_of_getElem? hi]
  apply hroom.2.2.2 i (List.mem_of_getElem? hi) hlate

/-- Every item has room when the first in order has. -/
theorem leavesRoom_of_room (hpolicy : 0 < location.owner.timingMeanBlocks
      ∧ 0 < location.owner.timingMaxBlocks
      ∧ location.owner.timingMeanBlocks ≤ location.owner.timingMaxBlocks)
    (draws : Draws) {items : List Item}
    (hoverdue : overdueIndexes itemId remoteHeight items
      = overdueIndexes itemId remoteHeight location.owner.items)
    (hexpiries : ∀ k, expiryAt items k = expiryAt location.owner.items k)
    (hroom : ∀ index ∈ (scheduleOrder draws itemId remoteHeight items).head?,
      remoteHeight + (scheduleOrder draws itemId remoteHeight items).length
        < expiryAt items index) :
  LeavesRoom location.owner itemId remoteHeight
  := by
  refine ⟨hpolicy.1, hpolicy.2.1, hpolicy.2.2, ?_⟩
  intro i hi hlate
  obtain ⟨k, hk⟩ := List.mem_iff_getElem?.1 hi
  have hperm : (scheduleOrder draws itemId remoteHeight items).Perm
      (overdueIndexes itemId remoteHeight items) := scheduleOrder_perm draws items
  have hmem : k ∈ scheduleOrder draws itemId remoteHeight items := by
    rw [hperm.mem_iff, hoverdue, mem_overdueIndexes]
    exact ⟨i, hk, hlate⟩
  have hsorted : (scheduleOrder draws itemId remoteHeight items).Pairwise fun j k =>
      expiryAt items j ≤ expiryAt items k := scheduleOrder_sorted draws items
  rw [← length_overdueIndexes, ← hoverdue, ← hperm.length_eq, ← expiryAt_of_getElem? hk,
    ← hexpiries]
  cases horder : scheduleOrder draws itemId remoteHeight items with
  | nil =>
    rw [horder] at hmem
    cases hmem
  | cons first rest =>
    rw [horder] at hmem hsorted hroom
    have hfirst := hroom first rfl
    rw [List.pairwise_cons] at hsorted
    rcases List.mem_cons.1 hmem with rfl | hrest
    · apply hfirst
    · apply hfirst.trans_le (hsorted.1 k hrest)

/-- The items that are scheduled again are those of the batch before the submission. -/
theorem rescheduled_of_placed {items accepted items' : List Item} {updates : List ScheduleUpdate}
    {order heights : List Nat} {maxBlocks : Nat}
    (hperm : order.Perm (overdueIndexes itemId remoteHeight items))
    (hsorted : order.Pairwise fun j k => expiryAt accepted j ≤ expiryAt accepted k)
    (hdelayed : Delayed maxBlocks (remoteHeight + 0) heights)
    (hplaced : Placed P remoteHeight order heights accepted items')
    (hexpiries : ∀ k, expiryAt accepted k = expiryAt items k)
    (hids : ∀ k : Nat, accepted[k]?.map (fun i : Item => i.itemId)
      = items[k]?.map (fun i : Item => i.itemId))
    (hheights : ∀ k : Nat, accepted[k]?.map (fun i : Item => i.scheduledHeight)
      = items[k]?.map (fun i : Item => i.scheduledHeight))
    (hsame : ∀ k ∈ overdueIndexes itemId remoteHeight items, accepted[k]? = items[k]?)
    (hupdates : updates = updatesAt remoteHeight accepted order heights) :
  Rescheduled P maxBlocks remoteHeight itemId items items' updates order heights
  := by
  refine ⟨hperm, ?_, hplaced.length, hdelayed, ?_, ?_, ?_⟩
  · simpa only [hexpiries] using hsorted
  · intro index height h
    obtain ⟨i, hi, hlt, hi'⟩ := hplaced.placed h
    rw [hsame index (hperm.mem_iff.1 (List.of_mem_zip h).1)] at hi
    exact ⟨i, hi, hlt, hi'⟩
  · intro index hindex
    rw [hplaced.kept hindex, hheights]
  · rw [hupdates, updatesAt, updatesAt]
    simp only [hids]

/-- When every overdue item has room, the acceptance is recorded and the items are scheduled
again. -/
theorem recordable_of_leavesRoom (hlocation : s.itemLocation itemId = .ok location)
    (harmed : location.found.status = .armed)
    (hlimit : ∀ i ∈ location.owner.items, i.expiryHeight ≤ u64Max)
    (hroom : LeavesRoom location.owner itemId remoteHeight) :
  Recordable P s location itemId remoteHeight
  := by
  intro attemptId began submitted hbegin draws equivalent responseCode responseMessage date
  rw [beginSubmission_of_armed hlocation harmed] at hbegin
  cases hbegin
  obtain ⟨howner, hfound, hid⟩ := itemLocation_eq_ok hlocation
  generalize haccepted : acceptedItems location attemptId began = accepted
  have hoverdue : overdueIndexes itemId remoteHeight accepted
      = overdueIndexes itemId remoteHeight location.owner.items :=
    haccepted ▸ overdueIndexes_acceptedItems hlocation attemptId began
  have hexpiries : ∀ k, expiryAt accepted k = expiryAt location.owner.items k :=
    fun k => haccepted ▸ expiryAt_acceptedItems attemptId began k
  have hperm : (scheduleOrder draws itemId remoteHeight accepted).Perm
      (overdueIndexes itemId remoteHeight accepted) := scheduleOrder_perm draws accepted
  have hsorted : (scheduleOrder draws itemId remoteHeight accepted).Pairwise fun j k =>
      expiryAt accepted j ≤ expiryAt accepted k := scheduleOrder_sorted draws accepted
  have hfirst := room_of_leavesRoom hroom draws hoverdue hexpiries
  generalize horder : scheduleOrder draws itemId remoteHeight accepted = order at hperm hsorted hfirst
  have hmem : ∀ index ∈ order, ∃ i, accepted[index]? = some i := by
    intro index hindex
    obtain ⟨i, hi, -⟩ := mem_overdueIndexes.1 (hperm.mem_iff.1 hindex)
    exact ⟨i, hi⟩
  have hbound : ∀ index, expiryAt accepted index ≤ u64Max := by
    intro index
    rw [hexpiries, expiryAt]
    cases hi : location.owner.items[index]? with
    | none => exact Nat.zero_le _
    | some i => exact hlimit i (List.mem_of_getElem? hi)
  have hnodup := hperm.nodup_iff.2 (nodup_overdueIndexes itemId remoteHeight accepted)
  obtain ⟨items', heights, heach, hplaced, hdelayed⟩ :=
    rescheduleEach_spec P draws hroom.2.1 hnodup hmem hsorted hbound hfirst 0 []
  have hpolicy : 0 < location.owner.timingMeanBlocks ∧ 0 < location.owner.timingMaxBlocks
      ∧ location.owner.timingMeanBlocks ≤ location.owner.timingMaxBlocks :=
    ⟨hroom.1, hroom.2.1, hroom.2.2.1⟩
  have hreschedule : rescheduleOverdueItems P draws { location.owner with items := accepted }
      itemId remoteHeight = rescheduleEach P draws location.owner.timingMaxBlocks remoteHeight
        order 0 0 accepted [] := by
    rw [← horder]
    apply rescheduleOverdueItems_eq draws accepted hpolicy
  have hrecorded : ∃ receipt : Receipt,
      receipt.scheduleUpdates = updatesAt remoteHeight accepted order heights
        ∧ (s.modifyItem location (begun attemptId began)).recordAccepted P draws itemId equivalent
            remoteHeight responseCode responseMessage date
          = .ok { (s.modifyItem location (begun attemptId began)).modifyBatch location.batch
              (fun b => { b with items := items' }) with
                receipts := s.receipts ++ [receipt] } := by
    rw [recordAccepted_begun hlocation, haccepted]
    simp only [hreschedule, heach, ok_bind]
    exact ⟨_, rfl, rfl⟩
  obtain ⟨receipt, hupdates, hrecorded⟩ := hrecorded
  refine ⟨_, { location.owner with items := items' }, receipt, order, heights, hrecorded, ?_, ?_,
    rfl, ?_⟩
  · simp only [modifyItem, modifyBatch]
    rw [List.getElem?_modify_eq, List.getElem?_modify_eq, howner]
    rfl
  · intro n hne
    simp only [modifyItem, modifyBatch]
    rw [List.getElem?_modify_ne _ _ hne.symm, List.getElem?_modify_ne _ _ hne.symm]
  · apply rescheduled_of_placed (hoverdue ▸ hperm) hsorted hdelayed hplaced hexpiries
      (fun k => haccepted ▸ map_getElem?_acceptedItems (fun _ => rfl) (fun _ _ => rfl) k)
      (fun k => haccepted ▸ map_getElem?_acceptedItems (fun _ => rfl) (fun _ _ => rfl) k) _ hupdates
    intro k hk
    rw [mem_overdueIndexes] at hk
    obtain ⟨i, hi, hlate⟩ := hk
    have hne : location.item ≠ k := by
      rintro rfl
      rw [hfound] at hi
      cases hi
      simp [Item.overdue, hid] at hlate
    rw [← haccepted, acceptedItems, List.getElem?_modify_ne _ _ hne,
      List.getElem?_modify_ne _ _ hne]

/-- When the acceptance can be recorded whatever is drawn, every overdue item has room. -/
theorem leavesRoom_of_recordable (hlocation : s.itemLocation itemId = .ok location)
    (harmed : location.found.status = .armed) (hremote : remoteHeight ≤ u64Max)
    (h : Recordable P s location itemId remoteHeight) :
  LeavesRoom location.owner itemId remoteHeight
  := by
  let draws : Draws := ⟨id, fun _ => .refl _, fun _ => 0⟩
  obtain ⟨recorded, _, _, _, _, hrecorded, -⟩ := h "" 0 _
    (beginSubmission_of_armed hlocation harmed "" 0) draws false 0 "" 0
  rw [recordAccepted_begun hlocation] at hrecorded
  simp only [bind_eq_ok] at hrecorded
  obtain ⟨⟨items', updates'⟩, hreschedule, -⟩ := hrecorded
  have hpolicy : 0 < location.owner.timingMeanBlocks ∧ 0 < location.owner.timingMaxBlocks
      ∧ location.owner.timingMeanBlocks ≤ location.owner.timingMaxBlocks := by
    simp only [rescheduleOverdueItems, bind_eq_ok, ensure_eq_ok] at hreschedule
    obtain ⟨_, hpolicy, -⟩ := hreschedule
    apply hpolicy
  rw [rescheduleOverdueItems_eq draws _ hpolicy] at hreschedule
  apply leavesRoom_of_room hpolicy draws (overdueIndexes_acceptedItems hlocation "" 0)
    (expiryAt_acceptedItems "" 0)
  apply rescheduleEach_room hremote hreschedule

/-- If the check before the submission passes, the acceptance of the submission can be recorded
whatever is drawn, exactly when every overdue item has a height for each of them before its
expiry. -/
theorem validateReschedulingAfterAcceptance_recordable_iff (P : Platform)
    (hlocation : s.itemLocation itemId = .ok location) (harmed : location.found.status = .armed)
    (hlimit : ∀ i ∈ location.owner.items, i.expiryHeight ≤ u64Max)
    (hremote : remoteHeight ≤ u64Max) :
  (s.validateReschedulingAfterAcceptance itemId remoteHeight = .ok ()
      → Recordable P s location itemId remoteHeight)
    ↔ (s.validateReschedulingAfterAcceptance itemId remoteHeight = .ok ()
      → LeavesRoom location.owner itemId remoteHeight)
  := by
  constructor
  · intro h hvalid
    apply leavesRoom_of_recordable hlocation harmed hremote (h hvalid)
  · intro h hvalid
    apply recordable_of_leavesRoom hlocation harmed hlimit (h hvalid)

/-- An armed item of the samples. -/
def sampleArmedItem (itemId : String) (partIndex scheduledHeight expiryHeight : Nat) : Item :=
  { itemId, partIndex, scheduledHeight, expiryHeight
    txidHex := itemId
    rawTransaction := [1]
    anchorBoundaryHeight := 0
    scheduleStartHeight := 0
    payloadDigestHex := ""
    status := .armed }

/-- A batch with an item to submit and two items that are overdue at height 10, of which the
second one expires late. -/
def sampleOverdue (expiryHeight : Nat) : Batch :=
  { batchId := "batch"
    network := "main"
    accountUuid := "account"
    runId := "run"
    lightwalletdUrl := "https://example"
    timingMeanBlocks := 144
    timingMaxBlocks := 576
    createdAt := 0
    armedAt := some 0
    items := [sampleArmedItem "first" 0 5 69120, sampleArmedItem "second" 1 6 expiryHeight,
      sampleArmedItem "third" 2 7 69120] }

/-- The place of the item to submit. -/
def sampleFirst (expiryHeight : Nat) : Location :=
  { batch := 0
    item := 0
    owner := sampleOverdue expiryHeight
    found := sampleArmedItem "first" 0 5 69120 }

def sampleTexts : Platform where
  digestHex _ := ""
  lowercased text := text
  lowercased_lowercased _ := rfl

theorem validateReschedulingAfterAcceptance_recordable_iff_roomy :
  Snapshot.validateReschedulingAfterAcceptance { batches := [sampleOverdue 69120] } "first" 10
      = .ok ()
    ∧ Recordable sampleTexts { batches := [sampleOverdue 69120] } (sampleFirst 69120) "first" 10
  := by
  have hvalid : Snapshot.validateReschedulingAfterAcceptance
      { batches := [sampleOverdue 69120] } "first" 10 = .ok () := by decide +kernel
  refine ⟨hvalid, ?_⟩
  apply (validateReschedulingAfterAcceptance_recordable_iff sampleTexts rfl rfl
    (by decide +kernel) (by decide +kernel)).2 _ hvalid
  intro _
  unfold LeavesRoom
  decide +kernel

/-- With an overdue item that expires at height 12 the check passes, and the acceptance of the
submission is not recorded. -/
theorem validateReschedulingAfterAcceptance_crowded :
  Snapshot.validateReschedulingAfterAcceptance { batches := [sampleOverdue 12] } "first" 10
      = .ok ()
    ∧ ¬ Recordable sampleTexts { batches := [sampleOverdue 12] } (sampleFirst 12) "first" 10
  := by
  refine ⟨by decide +kernel, ?_⟩
  intro h
  have hroom := leavesRoom_of_recordable rfl rfl (by decide +kernel) h
  have hsecond := hroom.2.2.2 (sampleArmedItem "second" 1 6 12) (by decide +kernel)
    (by decide +kernel)
  revert hsecond
  decide +kernel

end Recording

end Snapshot

end Outbox

end Vizor
