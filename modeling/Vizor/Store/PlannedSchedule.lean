import Vizor.Store.Pending
import Vizor.Lib.Rank
import Mathlib.Data.List.Perm.Subperm
import Mathlib.Data.List.Range

/-!
# Planned schedules

A schedule for the parts of a plan is drawn at random: the parts are shuffled, and each of
them comes some blocks after the one before it, by a delay that is drawn again until it is
within the policy.  A schedule is read in two ways: the values of the plan come back from the
parts of its entries, and the entry of a part is found by its index or, in a schedule without
indexes, by the rank of the part among the parts of equal value.
-/

namespace Vizor

open Run

/-! ### The source functions -/

/-- The number of parts up to which the mean delay is that of the policy. -/
def denseMigrationPartThreshold : Nat := 10

/-- The mean and the maximum delay for a plan of some parts. -/
def scheduleParametersWithPolicyForPartCount (network : WalletNetwork)
    (timingPolicy : MigrationTimingPolicy) (partCount : Nat) : Nat × Nat :=
  let (meanDelayBlocks, maxDelayBlocks) := scheduleParametersWithPolicy network timingPolicy
  (if denseMigrationPartThreshold < partCount then max (meanDelayBlocks / 2) 1
    else meanDelayBlocks, maxDelayBlocks)

/-- What a random generator gives a schedule. -/
structure ScheduleDraws where
  /-- A random order. -/
  shuffled : List (Nat × Nat) → List (Nat × Nat)
  shuffled_perm : ∀ parts, (shuffled parts).Perm parts
  /-- The numbers of blocks that are sampled one after the other, for a mean. -/
  samples : Nat → List Nat

/-- The first sampled delay that is within the policy, and the samples after it. -/
def acceptedDelay (maxDelayBlocks : Nat) : List Nat → Option (Nat × List Nat)
  | [] => none
  | sampled :: samples =>
    if sampled ≤ maxDelayBlocks then some (sampled, samples)
    else acceptedDelay maxDelayBlocks samples

/-- The cumulative offsets of some parts, or nothing as long as the samples do not suffice. -/
def randomScheduleBlockOffsets (maxDelayBlocks : Nat) :
    (count elapsedBlocks : Nat) → List Nat → Option (List Nat)
  | 0, _, _ => some []
  | count + 1, elapsedBlocks, samples => do
    let (delay, samples) ← acceptedDelay maxDelayBlocks samples
    let elapsedBlocks := saturatingAdd32 elapsedBlocks delay
    let offsets ← randomScheduleBlockOffsets maxDelayBlocks count elapsedBlocks samples
    pure (elapsedBlocks :: offsets)

/-- A schedule for parts with their indexes. -/
def plannedTransferScheduleForPartsWithPolicy (parts : List (Nat × Nat)) (network : WalletNetwork)
    (timingPolicy : MigrationTimingPolicy) (draws : ScheduleDraws) :
    Option (List MigrationScheduleEntry) := do
  let parts := draws.shuffled parts
  let (meanDelayBlocks, maxDelayBlocks) :=
    scheduleParametersWithPolicyForPartCount network timingPolicy parts.length
  let offsets ←
    randomScheduleBlockOffsets maxDelayBlocks parts.length 0 (draws.samples meanDelayBlocks)
  pure ((parts.zip offsets).map fun ((partIndex, valueZatoshi), blockOffset) =>
    { partIndex := some partIndex, valueZatoshi, blockOffset })

/-- A schedule for the values of a plan, whose indexes are words of 32 bits. -/
def plannedTransferScheduleWithPolicy (values : List Nat) (network : WalletNetwork)
    (timingPolicy : MigrationTimingPolicy) (draws : ScheduleDraws) :
    Option (List MigrationScheduleEntry) :=
  plannedTransferScheduleForPartsWithPolicy
    (values.zipIdx.map fun (valueZatoshi, partIndex) => (partIndex % u32Size, valueZatoshi))
    network timingPolicy draws

/-- The values of the plan that a schedule is for. -/
def targetValuesFromSchedule (schedule : List MigrationScheduleEntry) :
    Except String (List Nat) :=
  if schedule.isEmpty then .ok []
  else if schedule.all (·.partIndex.isNone) then
    .error "Approved migration schedule does not identify migration parts"
  else if schedule.any (·.partIndex.isNone) then
    .error "Approved migration schedule part indexes are incomplete"
  else do
    let targetValues ← schedule.foldlM (fun (targetValues : List (Option Nat)) entry => do
      let partIndex ← okOr entry.partIndex "all schedule entries were checked above"
      let slot ← okOr targetValues[partIndex]?
        "Approved migration schedule part index is outside the plan"
      ensure slot.isNone "Approved migration schedule part index is duplicated"
      return targetValues.set partIndex (some entry.valueZatoshi))
      (List.replicate schedule.length none)
    targetValues.mapM fun value =>
      okOr value "Approved migration schedule part indexes are incomplete"

/-- The entry of a schedule for a pending transaction. -/
def scheduleEntryForPending (schedule : List MigrationScheduleEntry) (targetValues : List Nat)
    (pending : PendingMigrationTxInsert) : Option MigrationScheduleEntry :=
  if schedule.all (·.partIndex.isSome) then
    schedule.find? fun entry =>
      entry.partIndex = some pending.partIndex && entry.valueZatoshi = pending.valueZatoshi
  else if targetValues[pending.partIndex]? ≠ some pending.valueZatoshi then none
  else
    let equalValueRank := ((targetValues.take pending.partIndex).filter fun value =>
      value = pending.valueZatoshi).length
    (schedule.filter fun entry => entry.valueZatoshi = pending.valueZatoshi)[equalValueRank]?

/-! ### Valid schedules -/

variable {schedule : List MigrationScheduleEntry} {targetValues : List Nat}
  {network : WalletNetwork} {timingPolicy : MigrationTimingPolicy}

/-- The entries of a schedule are for different parts of the plan, with their values. -/
structure Indexed (schedule : List MigrationScheduleEntry) (targetValues : List Nat) : Prop where
  parts : ∀ entry ∈ schedule, ∃ i, entry.partIndex = some i ∧
    targetValues[i]? = some entry.valueZatoshi
  nodup : (schedule.map (·.partIndex)).Nodup

private theorem indexes_fold {seen : List Nat} :
  (∃ seen', schedule.foldlM (fun (seen : List Nat) entry => do
      let partIndex ← okOr entry.partIndex
        "Approved migration schedule part indexes are incomplete"
      let value ← okOr targetValues[partIndex]?
        "Approved migration schedule part index is outside the plan"
      ensure (partIndex ∉ seen) "Approved migration schedule part index is duplicated"
      ensure (value = entry.valueZatoshi) "Approved migration schedule part value changed"
      return partIndex :: seen) seen = Except.ok seen')
    ↔ Indexed schedule targetValues ∧ ∀ i ∈ seen, some i ∉ schedule.map (·.partIndex)
  := by
  induction schedule generalizing seen with
  | nil =>
    constructor
    · intro _
      exact ⟨⟨by simp, by simp⟩, by simp⟩
    · intro _
      exact ⟨seen, rfl⟩
  | cons entry schedule ih =>
    simp only [List.foldlM_cons, bind_eq_ok, okOr_eq_ok, ensure_eq_ok, pure_eq_ok]
    constructor
    · rintro ⟨seen', _, ⟨i, hi, v, hv, _, hnot, _, rfl, rfl⟩, hrest⟩
      obtain ⟨hindexed, hseen⟩ := ih.mp ⟨seen', hrest⟩
      have hfresh := hseen i List.mem_cons_self
      refine ⟨⟨?_, ?_⟩, ?_⟩
      · rw [List.forall_mem_cons]
        exact ⟨⟨i, hi, hv⟩, hindexed.parts⟩
      · rw [List.map_cons, List.nodup_cons, hi]
        exact ⟨hfresh, hindexed.nodup⟩
      · intro j hj hmem
        rw [List.map_cons, List.mem_cons, hi] at hmem
        rcases hmem with heq | hmem
        · cases heq
          apply hnot hj
        · apply hseen j (List.mem_cons_of_mem _ hj) hmem
    · rintro ⟨⟨hparts, hnodup⟩, hseen⟩
      rw [List.forall_mem_cons] at hparts
      obtain ⟨⟨i, hi, hv⟩, hparts⟩ := hparts
      rw [List.map_cons, List.nodup_cons, hi] at hnodup
      have hnot : i ∉ seen := by
        intro hmem
        apply hseen i hmem
        rw [List.map_cons, hi]
        apply List.mem_cons_self
      obtain ⟨seen', hrest⟩ := ih.mpr ⟨⟨hparts, hnodup.2⟩, by
        rw [List.forall_mem_cons]
        refine ⟨hnodup.1, ?_⟩
        intro j hj hmem
        apply hseen j hj (List.mem_cons_of_mem _ hmem)⟩
      exact ⟨seen', _, ⟨i, hi, _, hv, (), hnot, (), rfl, rfl⟩, hrest⟩

/-- The indexes of a schedule are accepted when there are none, or when they are right. -/
theorem validateSchedulePartIndexes_eq_ok :
  validateSchedulePartIndexes schedule targetValues = .ok ()
    ↔ schedule.all (·.partIndex.isNone) ∨ Indexed schedule targetValues
  := by
  rw [validateSchedulePartIndexes]
  split
  · rename_i hnone
    simp [hnone]
  · rename_i hnone
    split
    · rename_i hany
      constructor
      · intro h
        cases h
      · rintro (hall | hindexed)
        · exact absurd hall hnone
        · obtain ⟨entry, hentry, hmissing⟩ := List.any_eq_true.mp hany
          obtain ⟨i, hi, -⟩ := hindexed.parts entry hentry
          rw [hi] at hmissing
          cases hmissing
    · constructor
      · intro h
        obtain ⟨seen', hfold, -⟩ := bind_eq_ok.mp h
        exact .inr (indexes_fold.mp ⟨seen', hfold⟩).1
      · rintro (hall | hindexed)
        · exact absurd hall hnone
        · have hunseen : ∀ i ∈ ([] : List Nat), some i ∉ schedule.map (·.partIndex) := by simp
          obtain ⟨seen', hfold⟩ := indexes_fold.mpr ⟨hindexed, hunseen⟩
          rw [bind_eq_ok]
          exact ⟨seen', hfold, rfl⟩

/-- Every offset comes at most the maximum delay after the one before it. -/
def Paced (maxDelayBlocks : Nat) : (previousOffset : Nat) → List Nat → Prop
  | _, [] => True
  | previousOffset, offset :: offsets =>
    previousOffset ≤ offset ∧ offset - previousOffset ≤ maxDelayBlocks
      ∧ Paced maxDelayBlocks offset offsets

private theorem delays_fold {previousOffset maxDelayBlocks : Nat} :
  (∃ last, schedule.foldlM (fun (previousOffset : Nat) entry => do
      let gap ← okOr (checkedSub32 entry.blockOffset previousOffset)
        "Approved migration schedule is not ordered"
      ensure (gap ≤ maxDelayBlocks) "Approved migration schedule delay is outside policy"
      return entry.blockOffset) previousOffset = Except.ok last)
    ↔ Paced maxDelayBlocks previousOffset (schedule.map (·.blockOffset))
  := by
  induction schedule generalizing previousOffset with
  | nil =>
    constructor
    · intro _
      trivial
    · intro _
      exact ⟨previousOffset, rfl⟩
  | cons entry schedule ih =>
    simp only [List.foldlM_cons, bind_eq_ok, okOr_eq_ok, ensure_eq_ok, pure_eq_ok, List.map_cons,
      Paced]
    constructor
    · rintro ⟨last, _, ⟨gap, hgap, _, hmax, rfl⟩, hrest⟩
      rw [checkedSub32] at hgap
      split at hgap
      · rename_i hle
        cases hgap
        exact ⟨hle, hmax, ih.mp ⟨last, hrest⟩⟩
      · cases hgap
    · rintro ⟨hle, hmax, hpaced⟩
      obtain ⟨last, hrest⟩ := ih.mpr hpaced
      exact ⟨last, _, ⟨_, if_pos hle, (), hmax, rfl⟩, hrest⟩

/-- A schedule is valid when it has the values of the plan, right indexes or none, and delays
of the policy. -/
theorem validateScheduleWithPolicy_eq_ok :
  validateScheduleWithPolicy schedule targetValues network timingPolicy = .ok ()
    ↔ (schedule.map (·.valueZatoshi)).Perm targetValues
      ∧ (schedule.all (·.partIndex.isNone) ∨ Indexed schedule targetValues)
      ∧ Paced (scheduleParametersWithPolicy network timingPolicy).2 0
        (schedule.map (·.blockOffset))
  := by
  rw [validateScheduleWithPolicy]
  simp only [bind_eq_ok, ensure_eq_ok, pure_eq_ok]
  constructor
  · rintro ⟨_, hlen, _, hsorted, _, hindexes, last, hdelays, -⟩
    refine ⟨?_, validateSchedulePartIndexes_eq_ok.mp hindexes, delays_fold.mp ⟨last, hdelays⟩⟩
    have htargets := List.perm_insertionSort (· ≤ ·) targetValues
    rw [← hsorted] at htargets
    apply (List.perm_insertionSort _ _).symm.trans htargets
  · rintro ⟨hperm, hindexes, hpaced⟩
    obtain ⟨last, hdelays⟩ := delays_fold.mpr hpaced
    refine ⟨(), ?_, (), ?_, (), validateSchedulePartIndexes_eq_ok.mpr hindexes, last, hdelays,
      trivial⟩
    · rw [← hperm.length_eq, List.length_map]
    · apply List.Perm.eq_of_pairwise' (List.pairwise_insertionSort _ _)
        (List.pairwise_insertionSort _ _)
      apply (List.perm_insertionSort _ _).trans
        (hperm.trans (List.perm_insertionSort _ _).symm)

/-! ### The entries of parts -/

/-- The parts of the entries of a schedule are all those of the plan. -/
theorem Indexed.exists_entry (h : Indexed schedule targetValues)
    (hlen : schedule.length = targetValues.length) {i v : Nat}
    (hi : targetValues[i]? = some v) :
  ∃ (k : Nat) (entry : MigrationScheduleEntry), schedule[k]? = some entry ∧
    entry.partIndex = some i ∧ entry.valueZatoshi = v
  := by
  have hsub : schedule.map (·.partIndex) ⊆ (List.range targetValues.length).map some := by
    intro part hpart
    obtain ⟨entry, hentry, rfl⟩ := List.mem_map.mp hpart
    obtain ⟨j, hj, hvalue⟩ := h.parts entry hentry
    rw [hj]
    apply List.mem_map_of_mem
    rw [List.mem_range]
    apply (List.getElem?_eq_some_iff.mp hvalue).1
  have hperm := (List.subperm_of_subset h.nodup hsub).perm_of_length_le (by simp [hlen])
  have hmem : some i ∈ schedule.map (·.partIndex) := by
    rw [hperm.mem_iff]
    apply List.mem_map_of_mem
    rw [List.mem_range]
    apply (List.getElem?_eq_some_iff.mp hi).1
  obtain ⟨entry, hentry, hpart⟩ := List.mem_map.mp hmem
  obtain ⟨k, hk⟩ := List.mem_iff_getElem?.mp hentry
  obtain ⟨j, hj, hvalue⟩ := h.parts entry hentry
  refine ⟨k, entry, hk, hpart, ?_⟩
  rw [hpart] at hj
  cases hj
  rw [hi] at hvalue
  apply (Option.some.inj hvalue).symm

/-- The entry of a part of the plan is at the position of its index. -/
theorem Indexed.lookup (h : Indexed schedule targetValues)
    (hlen : schedule.length = targetValues.length) {i v : Nat}
    (hi : targetValues[i]? = some v) :
  ∃ (k : Nat) (entry : MigrationScheduleEntry), schedule[k]? = some entry ∧
    entry.partIndex = some i ∧ entry.valueZatoshi = v ∧
    scheduleEntryForPart schedule targetValues i v = some entry
  := by
  obtain ⟨k, entry, hk, hpart, hvalue⟩ := h.exists_entry hlen hi
  have hall : schedule.all (·.partIndex.isSome) := by
    rw [List.all_eq_true]
    intro other hother
    obtain ⟨j, hj, -⟩ := h.parts other hother
    rw [hj]
    rfl
  have hfound : (schedule.find? fun entry =>
      entry.partIndex = some i && entry.valueZatoshi = v).isSome := by
    rw [List.find?_isSome]
    exact ⟨entry, List.mem_of_getElem? hk, by simp [hpart, hvalue]⟩
  obtain ⟨found, hfound⟩ := Option.isSome_iff_exists.mp hfound
  have hprop := List.find?_some hfound
  simp only [Bool.and_eq_true, decide_eq_true_eq] at hprop
  obtain ⟨k', hk'⟩ := List.mem_iff_getElem?.mp (List.mem_of_find?_eq_some hfound)
  refine ⟨k', found, hk', hprop.1, hprop.2, ?_⟩
  rw [scheduleEntryForPart, if_pos hall]
  apply hfound

/-- The entry of a part of the plan, in a schedule without indexes, is at the position of the
same rank among the entries of its value. -/
theorem lookup_of_rank (hperm : (schedule.map (·.valueZatoshi)).Perm targetValues)
    (hnone : ¬ schedule.all (·.partIndex.isSome)) {i v : Nat} (hi : targetValues[i]? = some v) :
  ∃ (k : Nat) (entry : MigrationScheduleEntry), schedule[k]? = some entry ∧
    entry.valueZatoshi = v ∧
    Rank.rank (fun (entry : MigrationScheduleEntry) => decide (entry.valueZatoshi = v)) schedule k
      = Rank.rank (fun value => decide (value = v)) targetValues i ∧
    scheduleEntryForPart schedule targetValues i v = some entry
  := by
  have hrank := Rank.rank_lt_countP (p := fun value => decide (value = v)) hi (by simp)
  have hcount : targetValues.countP (fun value => decide (value = v))
      = (schedule.filter fun entry => decide (entry.valueZatoshi = v)).length := by
    rw [← hperm.countP_eq, List.countP_map, List.countP_eq_length_filter]
    rfl
  rw [hcount] at hrank
  have hget := List.getElem?_eq_getElem hrank
  obtain ⟨k, hk, hvalue, hrank'⟩ := Rank.exists_of_filter hget
  refine ⟨k, _, hk, by simpa using hvalue, hrank', ?_⟩
  rw [scheduleEntryForPart, if_neg hnone, if_neg (by simp [hi]), ← List.countP_eq_length_filter]
  apply hget

/-- Every part of the plan has an entry of its own, with its value, and both lookups find it. -/
def EntriesAssigned (schedule : List MigrationScheduleEntry) (targetValues : List Nat) : Prop :=
  ∃ position : Nat → Nat,
    (∀ i v, targetValues[i]? = some v → ∃ entry, schedule[position i]? = some entry ∧
      entry.valueZatoshi = v ∧ scheduleEntryForPart schedule targetValues i v = some entry ∧
      scheduleBlockOffsetForPart schedule targetValues i v = some entry.blockOffset) ∧
    ∀ i j, i < targetValues.length → j < targetValues.length → position i = position j → i = j

theorem entriesAssigned_of_indexed (h : Indexed schedule targetValues)
    (hlen : schedule.length = targetValues.length) :
  EntriesAssigned schedule targetValues
  := by
  have hlookup : ∀ i : Nat, ∃ k : Nat, ∀ v : Nat, targetValues[i]? = some v →
      ∃ entry : MigrationScheduleEntry, schedule[k]? = some entry ∧
      entry.partIndex = some i ∧ entry.valueZatoshi = v ∧
      scheduleEntryForPart schedule targetValues i v = some entry := by
    intro i
    cases hi : targetValues[i]? with
    | none => exact ⟨0, by simp⟩
    | some v =>
      obtain ⟨k, entry, hk, hpart, hvalue, hfound⟩ := h.lookup hlen hi
      refine ⟨k, ?_⟩
      rintro _ ⟨⟩
      exact ⟨entry, hk, hpart, hvalue, hfound⟩
  choose position hposition using hlookup
  refine ⟨position, ?_, ?_⟩
  · intro i v hi
    obtain ⟨entry, hk, -, hvalue, hfound⟩ := hposition i v hi
    refine ⟨entry, hk, hvalue, hfound, ?_⟩
    rw [scheduleBlockOffsetForPart, hfound]
    rfl
  · intro i j hi hj heq
    obtain ⟨entry, hk, hpart, -⟩ := hposition i _ (List.getElem?_eq_getElem hi)
    obtain ⟨entry', hk', hpart', -⟩ := hposition j _ (List.getElem?_eq_getElem hj)
    rw [heq, hk'] at hk
    cases hk
    rw [hpart] at hpart'
    apply Option.some.inj hpart'

theorem entriesAssigned_of_rank (hperm : (schedule.map (·.valueZatoshi)).Perm targetValues)
    (hnone : ¬ schedule.all (·.partIndex.isSome)) :
  EntriesAssigned schedule targetValues
  := by
  have hlookup : ∀ i : Nat, ∃ k : Nat, ∀ v : Nat, targetValues[i]? = some v →
      ∃ entry : MigrationScheduleEntry, schedule[k]? = some entry ∧
      entry.valueZatoshi = v ∧
      Rank.rank (fun (entry : MigrationScheduleEntry) => decide (entry.valueZatoshi = v)) schedule k
        = Rank.rank (fun value => decide (value = v)) targetValues i ∧
      scheduleEntryForPart schedule targetValues i v = some entry := by
    intro i
    cases hi : targetValues[i]? with
    | none => exact ⟨0, by simp⟩
    | some v =>
      obtain ⟨k, entry, hk, hvalue, hrank, hfound⟩ := lookup_of_rank hperm hnone hi
      refine ⟨k, ?_⟩
      rintro _ ⟨⟩
      exact ⟨entry, hk, hvalue, hrank, hfound⟩
  choose position hposition using hlookup
  refine ⟨position, ?_, ?_⟩
  · intro i v hi
    obtain ⟨entry, hk, hvalue, -, hfound⟩ := hposition i v hi
    refine ⟨entry, hk, hvalue, hfound, ?_⟩
    rw [scheduleBlockOffsetForPart, hfound]
    rfl
  · intro i j hi hj heq
    obtain ⟨entry, hk, hvalue, hrank, -⟩ := hposition i _ (List.getElem?_eq_getElem hi)
    obtain ⟨entry', hk', hvalue', hrank', -⟩ := hposition j _ (List.getElem?_eq_getElem hj)
    rw [heq, hk'] at hk
    cases hk
    rw [← hvalue] at hrank
    rw [← hvalue'] at hrank'
    rw [heq, hrank'] at hrank
    apply (Rank.rank_inj (List.getElem?_eq_getElem hi) (by simp [hvalue])
      (List.getElem?_eq_getElem hj) (by simp [hvalue']) hrank.symm)

/-- The entries of the parts of a valid schedule. -/
theorem entriesAssigned
    (h : validateScheduleWithPolicy schedule targetValues network timingPolicy = .ok ()) :
  EntriesAssigned schedule targetValues
  := by
  obtain ⟨hperm, hindexes, -⟩ := validateScheduleWithPolicy_eq_ok.mp h
  have hlen : schedule.length = targetValues.length := by
    rw [← hperm.length_eq, List.length_map]
  by_cases hall : schedule.all (·.partIndex.isSome)
  · rcases hindexes with hnone | hindexed
    · have hempty : schedule = [] := by
        cases schedule with
        | nil => rfl
        | cons entry schedule =>
          simp only [List.all_cons, Bool.and_eq_true] at hall hnone
          have := hall.1
          rw [Option.isNone_iff_eq_none.mp hnone.1] at this
          cases this
      subst hempty
      apply entriesAssigned_of_indexed ⟨by simp, by simp⟩ hlen
    · apply entriesAssigned_of_indexed hindexed hlen
  · apply entriesAssigned_of_rank hperm hall

/-- The entry of a pending transaction is that of its part. -/
theorem scheduleEntryForPending_eq (schedule : List MigrationScheduleEntry)
    (targetValues : List Nat) (pending : PendingMigrationTxInsert) :
  scheduleEntryForPending schedule targetValues pending
    = scheduleEntryForPart schedule targetValues pending.partIndex pending.valueZatoshi
  := rfl

/-! ### Planned schedules -/

variable {draws : ScheduleDraws} {values : List Nat}

theorem acceptedDelay_eq_some {maxDelayBlocks delay : Nat} {samples rest : List Nat}
    (h : acceptedDelay maxDelayBlocks samples = some (delay, rest)) :
  delay ≤ maxDelayBlocks
    ∧ samples.countP (· ≤ maxDelayBlocks) = rest.countP (· ≤ maxDelayBlocks) + 1
  := by
  induction samples with
  | nil => cases h
  | cons sampled samples ih =>
    rw [acceptedDelay] at h
    split at h
    · rename_i hle
      cases h
      exact ⟨hle, List.countP_cons_of_pos (by simpa using hle)⟩
    · rename_i hgt
      rw [List.countP_cons_of_neg (by simpa using hgt)]
      apply ih h

theorem acceptedDelay_eq_none {maxDelayBlocks : Nat} {samples : List Nat}
    (h : acceptedDelay maxDelayBlocks samples = none) :
  samples.countP (· ≤ maxDelayBlocks) = 0
  := by
  induction samples with
  | nil => rfl
  | cons sampled samples ih =>
    rw [acceptedDelay] at h
    split at h
    · cases h
    · rename_i hgt
      rw [List.countP_cons_of_neg (by simpa using hgt)]
      apply ih h

/-- The offsets are drawn when enough samples are within the policy, and they grow by delays
of the policy: an offset that is cut to the largest height does not come before the last. -/
theorem randomScheduleBlockOffsets_spec {elapsedBlocks : Nat} (helapsed : elapsedBlocks < u32Size)
    (maxDelayBlocks count : Nat) (samples : List Nat) :
  (∃ offsets, randomScheduleBlockOffsets maxDelayBlocks count elapsedBlocks samples = some offsets
      ∧ offsets.length = count ∧ Paced maxDelayBlocks elapsedBlocks offsets)
    ∧ count ≤ samples.countP (· ≤ maxDelayBlocks)
  ∨ randomScheduleBlockOffsets maxDelayBlocks count elapsedBlocks samples = none
    ∧ samples.countP (· ≤ maxDelayBlocks) < count
  := by
  induction count generalizing elapsedBlocks samples with
  | zero => exact .inl ⟨⟨[], rfl, rfl, trivial⟩, Nat.zero_le _⟩
  | succ count ih =>
    rw [randomScheduleBlockOffsets]
    cases hdelay : acceptedDelay maxDelayBlocks samples with
    | none =>
      refine .inr ⟨rfl, ?_⟩
      rw [acceptedDelay_eq_none hdelay]
      omega
    | some drawn =>
      obtain ⟨delay, rest⟩ := drawn
      obtain ⟨hdelayMax, hcount⟩ := acceptedDelay_eq_some hdelay
      have hnext : saturatingAdd32 elapsedBlocks delay < u32Size := by
        simp only [saturatingAdd32, u32Size]
        omega
      have hgap : elapsedBlocks ≤ saturatingAdd32 elapsedBlocks delay
          ∧ saturatingAdd32 elapsedBlocks delay - elapsedBlocks ≤ maxDelayBlocks := by
        simp only [saturatingAdd32, u32Size] at helapsed ⊢
        omega
      rcases ih hnext rest with
        ⟨⟨offsets, hoffsets, hlen, hpaced⟩, henough⟩ | ⟨hnone, hfew⟩
      · left
        refine ⟨⟨saturatingAdd32 elapsedBlocks delay :: offsets, ?_, ?_, hgap.1, hgap.2, hpaced⟩,
          by omega⟩
        · simp [hoffsets]
        · simp [hlen]
      · right
        refine ⟨?_, by omega⟩
        simp [hnone]

/-- The sampled delays that a plan can use. -/
def acceptedSamples (network : WalletNetwork) (timingPolicy : MigrationTimingPolicy)
    (draws : ScheduleDraws) (partCount : Nat) : Nat :=
  let (meanDelayBlocks, maxDelayBlocks) :=
    scheduleParametersWithPolicyForPartCount network timingPolicy partCount
  (draws.samples meanDelayBlocks).countP (· ≤ maxDelayBlocks)

/-- The entries of parts and offsets. -/
theorem exists_map_zip {offsets : List Nat} {parts : List (Nat × Nat)}
    (hlen : offsets.length = parts.length) :
  ∃ schedule : List MigrationScheduleEntry,
    ((parts.zip offsets).map fun ((partIndex, valueZatoshi), blockOffset) =>
      { partIndex := some partIndex, valueZatoshi, blockOffset }) = schedule
    ∧ schedule.map (fun entry => (entry.partIndex, entry.valueZatoshi))
      = parts.map (fun part => (some part.1, part.2))
    ∧ schedule.map (·.blockOffset) = offsets
  := by
  refine ⟨_, rfl, ?_, ?_⟩
  · rw [List.map_map]
    calc _ = (parts.zip offsets).map ((fun part => (some part.1, part.2)) ∘ Prod.fst) := rfl
      _ = ((parts.zip offsets).map Prod.fst).map fun part => (some part.1, part.2) := by
        rw [List.map_map]
      _ = _ := by rw [List.map_fst_zip (Nat.le_of_eq hlen.symm)]
  · rw [List.map_map]
    calc _ = (parts.zip offsets).map Prod.snd := rfl
      _ = offsets := List.map_snd_zip (Nat.le_of_eq hlen)

/-- A schedule is produced when enough sampled delays are within the policy.  Its entries are
for the parts in a random order, and its offsets grow by delays of the policy. -/
theorem plannedTransferScheduleForPartsWithPolicy_spec {parts : List (Nat × Nat)} :
  ((plannedTransferScheduleForPartsWithPolicy parts network timingPolicy draws).isSome
    ↔ parts.length ≤ acceptedSamples network timingPolicy draws parts.length)
  ∧ ∀ schedule, plannedTransferScheduleForPartsWithPolicy parts network timingPolicy draws
      = some schedule →
    (schedule.map fun entry => (entry.partIndex, entry.valueZatoshi)).Perm
      (parts.map fun part => (some part.1, part.2))
    ∧ Paced (scheduleParametersWithPolicy network timingPolicy).2 0 (schedule.map (·.blockOffset))
  := by
  have hperm := draws.shuffled_perm parts
  have hlen := hperm.length_eq
  rw [plannedTransferScheduleForPartsWithPolicy, acceptedSamples]
  dsimp only
  rw [hlen]
  rcases randomScheduleBlockOffsets_spec (by decide : 0 < u32Size)
    (scheduleParametersWithPolicyForPartCount network timingPolicy parts.length).2 parts.length
    (draws.samples (scheduleParametersWithPolicyForPartCount network timingPolicy
      parts.length).1) with
    ⟨⟨offsets, hoffsets, hcount, hpaced⟩, henough⟩ | ⟨hnone, hfew⟩
  · rw [hoffsets]
    obtain ⟨schedule, hschedule, hparts, hblocks⟩ :=
      exists_map_zip (hcount.trans hlen.symm)
    refine ⟨by simpa using henough, ?_⟩
    rintro _ ⟨⟩
    rw [hschedule, hparts, hblocks]
    exact ⟨hperm.map _, hpaced⟩
  · rw [hnone]
    refine ⟨by simpa using hfew, ?_⟩
    nofun

/-- The values of the parts of some entries, in the slots of the plan. -/
theorem values_fold (slots : List (Option Nat)) (hindexed : Indexed schedule values)
    (hlen : slots.length = values.length)
    (hfree : ∀ entry ∈ schedule, ∀ i, entry.partIndex = some i → slots[i]? = some none) :
  ∃ slots', schedule.foldlM (fun (targetValues : List (Option Nat)) entry => do
      let partIndex ← okOr entry.partIndex "all schedule entries were checked above"
      let slot ← okOr targetValues[partIndex]?
        "Approved migration schedule part index is outside the plan"
      ensure slot.isNone "Approved migration schedule part index is duplicated"
      return targetValues.set partIndex (some entry.valueZatoshi)) slots = Except.ok slots'
    ∧ slots'.length = values.length
    ∧ ∀ i : Nat, slots'[i]? = if some i ∈ schedule.map (·.partIndex) then values[i]?.map some
      else slots[i]?
  := by
  induction schedule generalizing slots with
  | nil => exact ⟨slots, rfl, hlen, by simp⟩
  | cons entry schedule ih =>
    obtain ⟨hparts, hnodup⟩ := hindexed
    rw [List.forall_mem_cons] at hparts hfree
    obtain ⟨⟨i, hi, hvalue⟩, hparts⟩ := hparts
    rw [List.map_cons, List.nodup_cons, hi] at hnodup
    have hslot := hfree.1 i hi
    have hbound : i < slots.length := (List.getElem?_eq_some_iff.mp hslot).1
    obtain ⟨slots', hfold, hlen', hget⟩ := ih (slots.set i (some entry.valueZatoshi))
      ⟨hparts, hnodup.2⟩ (by rw [List.length_set, hlen]) (by
        intro other hother j hj
        have hne : i ≠ j := by
          rintro rfl
          apply hnodup.1 (hj ▸ List.mem_map_of_mem hother)
        rw [List.getElem?_set_ne hne]
        apply hfree.2 other hother j hj)
    refine ⟨slots', ?_, hlen', ?_⟩
    · rw [List.foldlM_cons, bind_eq_ok]
      refine ⟨slots.set i (some entry.valueZatoshi), ?_, hfold⟩
      simp only [bind_eq_ok, okOr_eq_ok, ensure_eq_ok, pure_eq_ok]
      exact ⟨i, hi, none, hslot, (), rfl, rfl⟩
    · intro j
      rw [hget j]
      simp only [List.map_cons, List.mem_cons, hi]
      by_cases hmem : some j ∈ schedule.map (·.partIndex)
      · simp only [hmem, or_true, if_true]
      · by_cases hji : j = i
        · subst hji
          simp [hmem, hvalue, hbound]
        · have hne : some j ≠ some i := by
            simpa using hji
          simp only [hmem, hne, or_self, if_false]
          apply List.getElem?_set_ne (Ne.symm hji)

/-- The values of the plan come back from a schedule with all parts of the plan. -/
theorem targetValuesFromSchedule_eq (hindexed : Indexed schedule values)
    (hlen : schedule.length = values.length) :
  targetValuesFromSchedule schedule = .ok values
  := by
  cases hempty : schedule.isEmpty with
  | true =>
    rw [List.isEmpty_iff] at hempty
    subst hempty
    rw [List.eq_nil_of_length_eq_zero hlen.symm]
    rfl
  | false =>
    have hsome : ∀ entry ∈ schedule, entry.partIndex.isNone = false := by
      intro entry hentry
      obtain ⟨i, hi, -⟩ := hindexed.parts entry hentry
      rw [hi]
      rfl
    have hany : schedule.any (·.partIndex.isNone) = false := by
      rw [List.any_eq_false]
      intro entry hentry
      simp [hsome entry hentry]
    have hall : schedule.all (·.partIndex.isNone) = false := by
      obtain ⟨entry, hentry⟩ := List.exists_mem_of_ne_nil schedule (by
        rintro rfl
        cases hempty)
      rw [List.all_eq_false]
      exact ⟨entry, hentry, by simp [hsome entry hentry]⟩
    obtain ⟨slots, hfold, hslots, hget⟩ := values_fold
      (List.replicate schedule.length none) hindexed (by simp [hlen]) (by
        intro entry hentry i hi
        obtain ⟨j, hj, hvalue⟩ := hindexed.parts entry hentry
        rw [hi] at hj
        cases hj
        have := (List.getElem?_eq_some_iff.mp hvalue).1
        rw [List.getElem?_replicate, if_pos (by omega)])
    have hfull : slots = values.map some := by
      apply List.ext_getElem?
      intro i
      rw [hget i, List.getElem?_map]
      cases hvalue : values[i]? with
      | none =>
        have := List.getElem?_eq_none_iff.mp hvalue
        split
        · rfl
        · rw [List.getElem?_replicate, if_neg (by omega)]
          rfl
      | some v =>
        obtain ⟨k, entry, hk, hpart, -⟩ := hindexed.exists_entry hlen hvalue
        rw [if_pos]
        rw [← hpart]
        apply List.mem_map_of_mem (List.mem_of_getElem? hk)
    have hvalues : ∀ values : List Nat, (values.map some).mapM (fun value : Option Nat =>
        okOr value "Approved migration schedule part indexes are incomplete")
        = Except.ok values := by
      intro values
      induction values with
      | nil => rfl
      | cons v values ih =>
        rw [List.map_cons, List.mapM_cons, ih]
        rfl
    rw [targetValuesFromSchedule, hempty, hall, hany]
    simp only [Bool.false_eq_true, if_false]
    rw [hfold, hfull]
    apply hvalues values

/-- The parts of a plan with their indexes as words of 32 bits. -/
theorem indexed_iff_of_perm (h : (schedule.map fun entry =>
      (entry.partIndex, entry.valueZatoshi)).Perm
      (values.zipIdx.map fun part => (some (part.2 % u32Size), part.1))) :
  Indexed schedule values ↔ values.length ≤ u32Size
  := by
  have hparts : (schedule.map (·.partIndex)).Perm
      ((List.range values.length).map fun i => some (i % u32Size)) := by
    have hfst := h.map Prod.fst
    rw [List.map_map, List.map_map] at hfst
    have hrange : values.zipIdx.map (Prod.fst ∘ fun part => (some (part.2 % u32Size), part.1))
        = (List.range values.length).map fun i => some (i % u32Size) := by
      rw [List.range_eq_range', ← List.zipIdx_map_snd 0 values, List.map_map]
      rfl
    rw [hrange] at hfst
    apply hfst
  constructor
  · intro hindexed
    by_contra hgt
    have hzero : (0 : Nat) < values.length ∧ u32Size < values.length := by omega
    have hnodup := hparts.nodup_iff.mp hindexed.nodup
    have heq := List.inj_on_of_nodup_map hnodup (List.mem_range.mpr hzero.1)
      (List.mem_range.mpr hzero.2) (by simp)
    exact absurd heq (by decide)
  · intro hle
    refine ⟨?_, ?_⟩
    · intro entry hentry
      have hmem := (h.mem_iff).mp (List.mem_map_of_mem hentry)
      obtain ⟨part, hpart, heq⟩ := List.mem_map.mp hmem
      have hvalue := List.mem_zipIdx_iff_getElem?.mp hpart
      have hlt := (List.getElem?_eq_some_iff.mp hvalue).1
      have hentryPart : some (part.2 % u32Size) = entry.partIndex := congrArg Prod.fst heq
      have hentryValue : part.1 = entry.valueZatoshi := congrArg Prod.snd heq
      refine ⟨part.2, ?_, ?_⟩
      · rw [← hentryPart, Nat.mod_eq_of_lt (by omega)]
      · rw [hvalue, hentryValue]
    · rw [hparts.nodup_iff]
      apply List.Nodup.map_on ?_ List.nodup_range
      intro i hi j hj heq
      rw [List.mem_range] at hi hj
      have hmod : i % u32Size = j % u32Size := Option.some.inj heq
      rwa [Nat.mod_eq_of_lt (by omega), Nat.mod_eq_of_lt (by omega)] at hmod

/-- The schedule of a plan is valid, and gives back the values, when the indexes of its parts
are words of 32 bits. -/
theorem plannedTransferScheduleWithPolicy_valid_iff
    (h : plannedTransferScheduleWithPolicy values network timingPolicy draws = some schedule) :
  (validateScheduleWithPolicy schedule values network timingPolicy = .ok ()
      ∧ targetValuesFromSchedule schedule = .ok values)
    ↔ values.length ≤ u32Size
  := by
  rw [plannedTransferScheduleWithPolicy] at h
  obtain ⟨hperm, hpaced⟩ := plannedTransferScheduleForPartsWithPolicy_spec.2 schedule h
  rw [List.map_map] at hperm
  have hvalues : (schedule.map (·.valueZatoshi)).Perm values := by
    have hsnd := hperm.map Prod.snd
    rw [List.map_map, List.map_map] at hsnd
    have hfst : values.zipIdx.map Prod.fst = values := List.zipIdx_map_fst 0 values
    rw [← hfst]
    apply hsnd
  have hlen : schedule.length = values.length := by
    rw [← hvalues.length_eq, List.length_map]
  rw [← indexed_iff_of_perm hperm]
  constructor
  · rintro ⟨hvalid, -⟩
    obtain ⟨-, hnone | hindexed, -⟩ := validateScheduleWithPolicy_eq_ok.mp hvalid
    · cases schedule with
      | nil => exact ⟨by simp, by simp⟩
      | cons entry schedule =>
        exfalso
        have hmem := hperm.mem_iff.mp (List.mem_map_of_mem List.mem_cons_self)
        obtain ⟨part, -, heq⟩ := List.mem_map.mp hmem
        have hpart : some (part.2 % u32Size) = entry.partIndex := congrArg Prod.fst heq
        rw [List.all_cons, ← hpart] at hnone
        cases hnone
    · apply hindexed
  · intro hindexed
    exact ⟨validateScheduleWithPolicy_eq_ok.mpr ⟨hvalues, .inr hindexed, hpaced⟩,
      targetValuesFromSchedule_eq hindexed hlen⟩

theorem plannedTransferScheduleWithPolicy_isSome :
  (plannedTransferScheduleWithPolicy values network timingPolicy draws).isSome
    ↔ values.length ≤ acceptedSamples network timingPolicy draws values.length
  := by
  rw [plannedTransferScheduleWithPolicy, plannedTransferScheduleForPartsWithPolicy_spec.1]
  simp

/-- A schedule is produced once enough sampled delays are within the policy.  It is valid, and
the values of the plan come back from it, when the plan has no more parts than indexes.  A
valid schedule, with indexes or without, has an entry of its own and of the same value for
every part, and the two lookups of an entry agree. -/
theorem plannedTransferSchedule_exact (values : List Nat) (network : WalletNetwork)
    (timingPolicy : MigrationTimingPolicy) (draws : ScheduleDraws) :
  ((plannedTransferScheduleWithPolicy values network timingPolicy draws).isSome
    ↔ values.length ≤ acceptedSamples network timingPolicy draws values.length)
  ∧ (∀ schedule, plannedTransferScheduleWithPolicy values network timingPolicy draws
        = some schedule →
      ((validateScheduleWithPolicy schedule values network timingPolicy = .ok ()
          ∧ targetValuesFromSchedule schedule = .ok values)
        ↔ values.length ≤ u32Size))
  ∧ (∀ schedule targetValues,
      validateScheduleWithPolicy schedule targetValues network timingPolicy = .ok () →
      EntriesAssigned schedule targetValues)
  ∧ ∀ schedule targetValues pending,
      (scheduleEntryForPending schedule targetValues pending).map (·.blockOffset)
        = scheduleBlockOffsetForPart schedule targetValues pending.partIndex pending.valueZatoshi
  := by
  refine ⟨plannedTransferScheduleWithPolicy_isSome, ?_, ?_, ?_⟩
  · intro schedule hschedule
    apply plannedTransferScheduleWithPolicy_valid_iff hschedule
  · intro schedule targetValues hvalid
    apply entriesAssigned hvalid
  · intro schedule targetValues pending
    rw [scheduleEntryForPending_eq, scheduleBlockOffsetForPart]

/-- Draws that keep the order of the parts and sample some delays. -/
def orderedDraws (samples : List Nat) : ScheduleDraws where
  shuffled parts := parts
  shuffled_perm _ := List.Perm.refl _
  samples _ := samples

/-- Two parts of equal value are scheduled once a sampled delay that is too long is drawn
again. -/
theorem plannedTransferSchedule_exact_pair :
  (plannedTransferScheduleWithPolicy [5, 5] .regtest .standard90Minutes
      (orderedDraws [3, 9, 4])).isSome
    ∧ EntriesAssigned [⟨some 0, 5, 3⟩, ⟨some 1, 5, 7⟩] [5, 5]
  := by
  have h := plannedTransferSchedule_exact [5, 5] .regtest .standard90Minutes
    (orderedDraws [3, 9, 4])
  exact ⟨h.1.mpr (by decide), h.2.2.1 _ _ (by decide)⟩

/-- The part after all indexes gets the index of the first part. -/
theorem plannedTransferSchedule_wraps :
  ∃ schedule, plannedTransferScheduleWithPolicy (List.replicate (u32Size + 1) 0) .regtest
      .standard90Minutes (orderedDraws (List.replicate (u32Size + 1) 0)) = some schedule
    ∧ ¬ (validateScheduleWithPolicy schedule (List.replicate (u32Size + 1) 0) .regtest
          .standard90Minutes = .ok ()
        ∧ targetValuesFromSchedule schedule = .ok (List.replicate (u32Size + 1) 0))
  := by
  have hsome : (plannedTransferScheduleWithPolicy (List.replicate (u32Size + 1) 0) .regtest
      .standard90Minutes (orderedDraws (List.replicate (u32Size + 1) 0))).isSome := by
    rw [plannedTransferScheduleWithPolicy_isSome, acceptedSamples, orderedDraws]
    dsimp only
    rw [List.countP_replicate, List.length_replicate, if_pos (by simp)]
  obtain ⟨schedule, hschedule⟩ := Option.isSome_iff_exists.mp hsome
  refine ⟨schedule, hschedule, ?_⟩
  rw [plannedTransferScheduleWithPolicy_valid_iff hschedule, List.length_replicate]
  omega

end Vizor
