import Vizor.Store.Rows
import Mathlib.Data.List.Sort

/-!
# Broadcast schedules

A transaction expires at the end of the window after the one of its broadcast height, and
its signature covers this expiry height.  An approved schedule assigns to every part of the
plan a number of blocks after an origin shared by the run.
-/

namespace Vizor

open Run

/-! ### Heights -/

/-- The number of heights. -/
def u32Size : Nat := 4294967296

/-- The sum of two heights, if it is a height. -/
def checkedAdd32 (a b : Nat) : Option Nat :=
  if a + b < u32Size then some (a + b) else none

/-- The difference of two heights, if it is a height. -/
def checkedSub32 (a b : Nat) : Option Nat :=
  if b ≤ a then some (a - b) else none

/-- The sum of two heights, or the largest height. -/
def saturatingAdd32 (a b : Nat) : Nat :=
  min (a + b) (u32Size - 1)

/-- The length of an expiry window. -/
def zip318ExpiryModulus : Nat := 34560

/-- The expiry height of a transaction that is broadcast at `scheduledHeight`. -/
def zip318CanonicalMigrationExpiryHeight (scheduledHeight : Nat) : Except String Nat :=
  okOr (checkedAdd32 (scheduledHeight - scheduledHeight % zip318ExpiryModulus)
      (zip318ExpiryModulus * 2))
    "ZIP 318 canonical expiry height overflow"

/-- A transaction expires after its broadcast height. -/
theorem lt_of_canonicalExpiry {h expiry : Nat}
    (he : zip318CanonicalMigrationExpiryHeight h = .ok expiry) :
  h < expiry
  := by
  rw [zip318CanonicalMigrationExpiryHeight, okOr_eq_ok, checkedAdd32] at he
  split at he
  · cases he
    have := Nat.mod_lt h (by decide : 0 < zip318ExpiryModulus)
    simp only [zip318ExpiryModulus] at *
    omega
  · cases he

/-! ### Delays -/

/-- The mean and the maximum number of blocks between two broadcasts. -/
def scheduleParametersWithPolicy :
    WalletNetwork → MigrationTimingPolicy → Nat × Nat
  | .regtest, .fastTestnet => (12, 48)
  | .regtest, _ => (1, 4)
  | .test, .fastTestnet => (12, 48)
  | _, .standard90Minutes | _, .standard90MinutesLatestAnchor => (66, 576)
  | _, _ => (144, 576)

/-! ### Approved schedules -/

/-- The parts of a schedule are all absent, or distinct parts of the plan with their values. -/
def validateSchedulePartIndexes (schedule : List MigrationScheduleEntry)
    (targetValues : List Nat) : Except String Unit :=
  if schedule.all (·.partIndex.isNone) then .ok ()
  else if schedule.any (·.partIndex.isNone) then
    .error "Approved migration schedule part indexes are incomplete"
  else do
    let _ ← schedule.foldlM (fun (seen : List Nat) entry => do
      let partIndex ← okOr entry.partIndex
        "Approved migration schedule part indexes are incomplete"
      let value ← okOr targetValues[partIndex]?
        "Approved migration schedule part index is outside the plan"
      ensure (partIndex ∉ seen) "Approved migration schedule part index is duplicated"
      ensure (value = entry.valueZatoshi) "Approved migration schedule part value changed"
      return partIndex :: seen) []
    return ()

/-- A schedule has the values of the plan, and its offsets grow by delays of the policy. -/
def validateScheduleWithPolicy (schedule : List MigrationScheduleEntry)
    (targetValues : List Nat) (network : WalletNetwork)
    (timingPolicy : MigrationTimingPolicy) : Except String Unit := do
  ensure (schedule.length = targetValues.length) "Approved migration schedule count changed"
  ensure ((schedule.map (·.valueZatoshi)).insertionSort (· ≤ ·)
      = targetValues.insertionSort (· ≤ ·))
    "Approved migration schedule values changed"
  validateSchedulePartIndexes schedule targetValues
  let _ ← schedule.foldlM (fun (previousOffset : Nat) entry => do
    let gap ← okOr (checkedSub32 entry.blockOffset previousOffset)
      "Approved migration schedule is not ordered"
    ensure (gap ≤ (scheduleParametersWithPolicy network timingPolicy).2)
      "Approved migration schedule delay is outside policy"
    return entry.blockOffset) 0
  return ()

/-- The entry of a schedule for a part: by its index or, in a schedule without indexes, by
the rank of the part among the parts of equal value. -/
def scheduleEntryForPart (schedule : List MigrationScheduleEntry) (targetValues : List Nat)
    (partIndex valueZatoshi : Nat) : Option MigrationScheduleEntry :=
  if schedule.all (·.partIndex.isSome) then
    schedule.find? fun entry =>
      entry.partIndex = some partIndex && entry.valueZatoshi = valueZatoshi
  else if targetValues[partIndex]? ≠ some valueZatoshi then none
  else
    (schedule.filter fun entry => entry.valueZatoshi = valueZatoshi)[
      ((targetValues.take partIndex).filter fun value => value = valueZatoshi).length]?

/-- The number of blocks after the origin for a part. -/
def scheduleBlockOffsetForPart (schedule : List MigrationScheduleEntry)
    (targetValues : List Nat) (partIndex valueZatoshi : Nat) : Option Nat :=
  (scheduleEntryForPart schedule targetValues partIndex valueZatoshi).map (·.blockOffset)

/-- Every part of a valid schedule with indexes is a part of the plan. -/
theorem lt_of_validateSchedulePartIndexes {schedule : List MigrationScheduleEntry}
    {targetValues : List Nat} (h : validateSchedulePartIndexes schedule targetValues = .ok ())
    {entry : MigrationScheduleEntry} (hentry : entry ∈ schedule) {partIndex : Nat}
    (hpart : entry.partIndex = some partIndex) :
  partIndex < targetValues.length
  := by
  rw [validateSchedulePartIndexes] at h
  split at h
  · rename_i hall
    have := List.all_eq_true.mp hall entry hentry
    simp [hpart] at this
  · split at h
    · cases h
    · obtain ⟨seen, hseen, -⟩ := bind_eq_ok.mp h
      clear h
      generalize ([] : List Nat) = start at hseen
      induction schedule generalizing start with
      | nil => cases hentry
      | cons first schedule ih =>
        rw [List.foldlM_cons, bind_eq_ok] at hseen
        obtain ⟨next, hnext, hrest⟩ := hseen
        rcases List.mem_cons.mp hentry with rfl | hentry
        · rw [bind_eq_ok] at hnext
          obtain ⟨p, hp, hnext⟩ := hnext
          rw [bind_eq_ok] at hnext
          obtain ⟨value, hvalue, -⟩ := hnext
          rw [okOr_eq_ok] at hp hvalue
          obtain rfl : partIndex = p := by simpa [hpart] using hp
          apply (List.getElem?_eq_some_iff.mp hvalue).1
        · by_cases hall : schedule.all (·.partIndex.isNone)
          · have := List.all_eq_true.mp hall entry hentry
            simp [hpart] at this
          · apply ih hentry hall _ next hrest
            rename_i hany
            simp only [List.any_cons, Bool.or_eq_true, not_or] at hany
            apply hany.2

/-- The part of an entry of a valid schedule is a part of the plan. -/
theorem lt_of_scheduleEntryForPart {schedule : List MigrationScheduleEntry}
    {targetValues : List Nat} (h : validateSchedulePartIndexes schedule targetValues = .ok ())
    {partIndex valueZatoshi : Nat} {entry : MigrationScheduleEntry}
    (hentry : scheduleEntryForPart schedule targetValues partIndex valueZatoshi = some entry) :
  partIndex < targetValues.length
  := by
  rw [scheduleEntryForPart] at hentry
  split at hentry
  · have hmem := List.mem_of_find?_eq_some hentry
    have hfound := List.find?_some hentry
    simp only [Bool.and_eq_true, decide_eq_true_eq] at hfound
    apply lt_of_validateSchedulePartIndexes h hmem hfound.1
  · split at hentry
    · cases hentry
    · rename_i hvalue
      rw [ne_eq, not_not] at hvalue
      apply (List.getElem?_eq_some_iff.mp hvalue).1

end Vizor
