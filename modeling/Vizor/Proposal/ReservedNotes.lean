import Mathlib.Algebra.BigOperators.Group.List.Basic
import Mathlib.Algebra.GroupWithZero.Nat
import Mathlib.Algebra.Order.BigOperators.Group.List
import Mathlib.Algebra.Order.Group.Nat
import Mathlib.Data.List.Dedup
import Mathlib.Data.List.Perm.Subperm
import Mathlib.Data.List.Sort
import Vizor.Lib.Run

/-!
# Notes of a batch of proposals

A batch of proposals selects the notes of each proposal without those that earlier proposals
reserved and those that a migration locked.  Reserved notes are excluded from the query of
the wallet.  Locked notes are known by transaction and output only: a selection for
consolidation excludes those that came and asks again, and a selection for a payment drops
them from the answer.
-/

namespace Vizor

open Run

namespace ReservedNotes

/-! ### Notes -/

inductive ShieldedPool where
  | sapling
  | orchard
  | ironwood
  deriving DecidableEq, Repr

/-- The number of a note in the wallet. -/
abbrev NoteRef := Nat

/-- A note that was received. -/
structure ReceivedNote where
  internalNoteId : NoteRef
  pool : ShieldedPool
  txid : String
  outputIndex : Nat
  value : Nat
  deriving DecidableEq, Repr

/-- The notes of a selection, by pool. -/
structure ReceivedNotes where
  sapling : List ReceivedNote
  orchard : List ReceivedNote
  ironwood : List ReceivedNote
  sapling_pool : ∀ note ∈ sapling, note.pool = .sapling
  orchard_pool : ∀ note ∈ orchard, note.pool = .orchard
  ironwood_pool : ∀ note ∈ ironwood, note.pool = .ironwood
  deriving DecidableEq

def ReceivedNotes.notes (selected : ReceivedNotes) : List ReceivedNote :=
  selected.sapling ++ selected.orchard ++ selected.ironwood

/-- The notes that fund a proposal, and further ones that it consolidates. -/
structure ConsolidationNotes where
  funding : ReceivedNotes
  additional : ReceivedNotes
  deriving DecidableEq

inductive TargetValue where
  | atLeast (value : Nat)
  | allFunds
  deriving DecidableEq, Repr

def totalValue (notes : List ReceivedNote) : Nat :=
  (notes.map (·.value)).sum

/-- Some of the notes that are available cover the target. -/
def Covers (available : List ReceivedNote) (target : TargetValue) (selected : List ReceivedNote) :
    Prop :=
  match target with
  | .atLeast value => value ≤ totalValue selected
  | .allFunds => ∀ note ∈ available, note ∈ selected

/-- The notes that are not excluded. -/
def notExcluded (notes : List ReceivedNote) (exclude : List NoteRef) : List ReceivedNote :=
  notes.filter fun note => note.internalNoteId ∉ exclude

/-- A source of notes.  For a query of an account, pools, a height, a policy and a filter it
knows the notes that can be spent.  A selection holds no note that is excluded, and covers the
target when the others can. -/
structure InputSource (Query Err : Type) where
  spendable : Query → List ReceivedNote
  selectSpendableNotes : Query → TargetValue → List NoteRef → Except Err ReceivedNotes
  selectSpendableNotesForConsolidation :
    Query → Nat → List NoteRef → Nat → Except Err ConsolidationNotes
  distinct : ∀ query, ((spendable query).map (·.internalNoteId)).Nodup
  select_subperm : ∀ query target exclude selected,
    selectSpendableNotes query target exclude = .ok selected →
    selected.notes.Subperm (notExcluded (spendable query) exclude)
  select_covers : ∀ query target exclude selected,
    selectSpendableNotes query target exclude = .ok selected →
    Covers (notExcluded (spendable query) exclude) target
      (notExcluded (spendable query) exclude) →
    Covers (notExcluded (spendable query) exclude) target selected.notes
  consolidation_subperm : ∀ query value exclude maxAdditionalNotes selected,
    selectSpendableNotesForConsolidation query value exclude maxAdditionalNotes = .ok selected →
    (selected.funding.notes ++ selected.additional.notes).Subperm
      (notExcluded (spendable query) exclude)
  consolidation_covers : ∀ query value exclude maxAdditionalNotes selected,
    selectSpendableNotesForConsolidation query value exclude maxAdditionalNotes = .ok selected →
    value ≤ totalValue (notExcluded (spendable query) exclude) →
    value ≤ totalValue selected.funding.notes

variable {Query Err : Type}

/-! ### Reserved and locked notes -/

/-- Sort the numbers of notes, and keep each of them once. -/
def sortDedup (ids : List NoteRef) : List NoteRef :=
  (ids.insertionSort (· ≤ ·)).dedup

def mergedExcludes (reserved exclude : List NoteRef) : List NoteRef :=
  sortDedup (exclude ++ reserved)

/-- A note is locked by its transaction and output. -/
def noteIsLocked (migrationLocks : List (String × Nat)) (note : ReceivedNote) : Bool :=
  (note.txid.toLower, note.outputIndex % 2 ^ 32) ∈ migrationLocks

def migrationLockedNoteIds (migrationLocks : List (String × Nat)) (selected : ReceivedNotes) :
    List NoteRef :=
  ((selected.orchard ++ selected.ironwood).filter (noteIsLocked migrationLocks)).map
    (·.internalNoteId)

/-- Drop the locked notes of a selection. -/
def withoutLocked (migrationLocks : List (String × Nat)) (selected : ReceivedNotes) :
    ReceivedNotes where
  sapling := selected.sapling
  orchard := selected.orchard.filter fun note => !noteIsLocked migrationLocks note
  ironwood := selected.ironwood.filter fun note => !noteIsLocked migrationLocks note
  sapling_pool := selected.sapling_pool
  orchard_pool note h := selected.orchard_pool note (List.mem_filter.mp h).1
  ironwood_pool note h := selected.ironwood_pool note (List.mem_filter.mp h).1

/-- Select notes for a payment. -/
def selectSpendableNotes (source : InputSource Query Err) (reserved : List NoteRef)
    (migrationLocks : List (String × Nat)) (query : Query) (target : TargetValue)
    (exclude : List NoteRef) : Except Err ReceivedNotes := do
  let selected ← source.selectSpendableNotes query target (mergedExcludes reserved exclude)
  return withoutLocked migrationLocks selected

@[simp]
theorem mem_sortDedup {ids : List NoteRef} {id : NoteRef} :
  id ∈ sortDedup ids ↔ id ∈ ids
  := by
  rw [sortDedup, List.mem_dedup, List.mem_insertionSort]

theorem mem_migrationLockedNoteIds {migrationLocks : List (String × Nat)}
    {selected : ReceivedNotes} {id : NoteRef}
    (h : id ∈ migrationLockedNoteIds migrationLocks selected) :
  ∃ note ∈ selected.notes, note.internalNoteId = id ∧ note.pool ≠ .sapling
    ∧ noteIsLocked migrationLocks note = true
  := by
  obtain ⟨note, hnote, rfl⟩ := List.mem_map.mp h
  obtain ⟨hmem, hlocked⟩ := List.mem_filter.mp hnote
  obtain hmem | hmem := List.mem_append.mp hmem
  · refine ⟨note, ?_, rfl, by simp [selected.orchard_pool note hmem], hlocked⟩
    simp [ReceivedNotes.notes, hmem]
  · refine ⟨note, ?_, rfl, by simp [selected.ironwood_pool note hmem], hlocked⟩
    simp [ReceivedNotes.notes, hmem]

/-- Excluding further notes leaves fewer. -/
theorem length_notExcluded_lt {notes : List ReceivedNote} {exclude more : List NoteRef}
    {note : ReceivedNote} (h : note ∈ notExcluded notes exclude)
    (hmore : note.internalNoteId ∈ more) :
  (notExcluded notes (sortDedup (exclude ++ more))).length < (notExcluded notes exclude).length
  := by
  have hfilter : notExcluded notes (sortDedup (exclude ++ more))
      = (notExcluded notes exclude).filter fun note => note.internalNoteId ∉ more := by
    unfold notExcluded
    rw [List.filter_filter]
    apply List.filter_congr
    intro other _
    simp [Bool.and_comm]
  rw [hfilter]
  apply List.length_filter_lt_length_iff_exists.mpr
  exact ⟨note, h, by simpa using hmore⟩

/-- Select notes for a consolidation, and exclude locked ones until none comes. -/
def consolidateFrom (source : InputSource Query Err) (migrationLocks : List (String × Nat))
    (query : Query) (value maxAdditionalNotes : Nat) (excludes : List NoteRef) :
    Except Err ConsolidationNotes :=
  match _h : source.selectSpendableNotesForConsolidation query value excludes
    maxAdditionalNotes with
  | .error e => .error e
  | .ok selected =>
    let newlyExcluded := migrationLockedNoteIds migrationLocks selected.funding
      ++ migrationLockedNoteIds migrationLocks selected.additional
    if _hnone : newlyExcluded = [] then .ok selected
    else consolidateFrom source migrationLocks query value maxAdditionalNotes
      (sortDedup (excludes ++ newlyExcluded))
termination_by (notExcluded (source.spendable query) excludes).length
decreasing_by
  obtain ⟨id, hid⟩ := List.exists_mem_of_ne_nil _ _hnone
  have hnote : ∃ note ∈ selected.funding.notes ++ selected.additional.notes,
      note.internalNoteId = id := by
    obtain hid | hid := List.mem_append.mp hid
    · obtain ⟨note, hnote, heq, _⟩ := mem_migrationLockedNoteIds hid
      exact ⟨note, List.mem_append_left _ hnote, heq⟩
    · obtain ⟨note, hnote, heq, _⟩ := mem_migrationLockedNoteIds hid
      exact ⟨note, List.mem_append_right _ hnote, heq⟩
  obtain ⟨note, hnote, rfl⟩ := hnote
  apply length_notExcluded_lt ((source.consolidation_subperm _ _ _ _ _ _h).subset hnote) hid

/-- Select notes for a consolidation. -/
def selectSpendableNotesForConsolidation (source : InputSource Query Err)
    (reserved : List NoteRef) (migrationLocks : List (String × Nat)) (query : Query)
    (value : Nat) (exclude : List NoteRef) (maxAdditionalNotes : Nat) :
    Except Err ConsolidationNotes :=
  consolidateFrom source migrationLocks query value maxAdditionalNotes
    (mergedExcludes reserved exclude)

/-! ### What a selection should do -/

/-- A note that a migration locked; the locks are those of Orchard and Ironwood notes. -/
def MigrationLocked (migrationLocks : List (String × Nat)) (note : ReceivedNote) : Prop :=
  note.pool ≠ .sapling ∧ noteIsLocked migrationLocks note = true

instance {migrationLocks : List (String × Nat)} :
    DecidablePred (MigrationLocked migrationLocks) :=
  fun note => inferInstanceAs (Decidable (note.pool ≠ .sapling ∧ _ = true))

/-- The notes that are not excluded and not reserved. -/
def eligible (notes : List ReceivedNote) (reserved exclude : List NoteRef) : List ReceivedNote :=
  notExcluded notes (mergedExcludes reserved exclude)

/-- The notes that can be selected: those that are not excluded, reserved or locked. -/
def free (notes : List ReceivedNote) (reserved : List NoteRef)
    (migrationLocks : List (String × Nat)) (exclude : List NoteRef) : List ReceivedNote :=
  (eligible notes reserved exclude).filter fun note => ¬ MigrationLocked migrationLocks note

/-- The locked notes that the wallet may select. -/
def locked (notes : List ReceivedNote) (reserved : List NoteRef)
    (migrationLocks : List (String × Nat)) (exclude : List NoteRef) : List ReceivedNote :=
  (eligible notes reserved exclude).filter fun note => MigrationLocked migrationLocks note

/-- The selections hold no reserved or locked note, and cover a target that the free notes can
cover. -/
structure SelectsFree (source : InputSource Query Err) (reserved : List NoteRef)
    (migrationLocks : List (String × Nat)) (query : Query) (target : TargetValue)
    (exclude : List NoteRef) : Prop where
  spendable_free : ∀ selected,
    selectSpendableNotes source reserved migrationLocks query target exclude = .ok selected →
    ∀ note ∈ selected.notes,
      note.internalNoteId ∉ reserved ∧ ¬ MigrationLocked migrationLocks note
  spendable_covers : ∀ selected,
    selectSpendableNotes source reserved migrationLocks query target exclude = .ok selected →
    Covers (free (source.spendable query) reserved migrationLocks exclude) target
      (free (source.spendable query) reserved migrationLocks exclude) →
    Covers (free (source.spendable query) reserved migrationLocks exclude) target selected.notes
  consolidation_free : ∀ value maxAdditionalNotes selected,
    selectSpendableNotesForConsolidation source reserved migrationLocks query value exclude
      maxAdditionalNotes = .ok selected →
    ∀ note ∈ selected.funding.notes ++ selected.additional.notes,
      note.internalNoteId ∉ reserved ∧ ¬ MigrationLocked migrationLocks note
  consolidation_covers : ∀ value maxAdditionalNotes selected,
    selectSpendableNotesForConsolidation source reserved migrationLocks query value exclude
      maxAdditionalNotes = .ok selected →
    value ≤ totalValue (free (source.spendable query) reserved migrationLocks exclude) →
    value ≤ totalValue selected.funding.notes

/-- No free notes fall short of the target by at most the value of the locked ones. -/
def NoShortfall (notes : List ReceivedNote) (reserved : List NoteRef)
    (migrationLocks : List (String × Nat)) (target : TargetValue) (exclude : List NoteRef) :
    Prop :=
  match target with
  | .atLeast value =>
    value ≤ totalValue (free notes reserved migrationLocks exclude) →
    ∀ taken, taken.Subperm (free notes reserved migrationLocks exclude) →
      value ≤ totalValue taken + totalValue (locked notes reserved migrationLocks exclude) →
      value ≤ totalValue taken
  | .allFunds => True

section

variable {source : InputSource Query Err} {reserved exclude : List NoteRef}
  {migrationLocks : List (String × Nat)} {query : Query}

@[simp]
theorem totalValue_append {xs ys : List ReceivedNote} :
  totalValue (xs ++ ys) = totalValue xs + totalValue ys
  := by
  simp [totalValue]

theorem totalValue_perm {xs ys : List ReceivedNote} (h : xs.Perm ys) :
  totalValue xs = totalValue ys
  := (h.map _).sum_eq

theorem totalValue_le_of_subperm {xs ys : List ReceivedNote} (h : xs.Subperm ys) :
  totalValue xs ≤ totalValue ys
  := by
  obtain ⟨zs, hperm, hsub⟩ := h
  rw [← totalValue_perm hperm]
  apply (hsub.map _).sum_le_sum (by simp)

theorem not_mem_reserved_of_mem_eligible {notes : List ReceivedNote} {note : ReceivedNote}
    (h : note ∈ eligible notes reserved exclude) :
  note.internalNoteId ∉ reserved
  := by
  have hnot := (List.mem_filter.mp h).2
  rw [decide_eq_true_iff, mergedExcludes, mem_sortDedup, List.mem_append, not_or] at hnot
  apply hnot.2

/-- What is left of a selection are its notes that are not locked. -/
theorem notes_withoutLocked {selected : ReceivedNotes} :
  (withoutLocked migrationLocks selected).notes
    = selected.notes.filter fun note => ¬ MigrationLocked migrationLocks note
  := by
  have hkeep : ∀ notes : List ReceivedNote, (∀ note ∈ notes, note.pool ≠ .sapling) →
      notes.filter (fun note => !noteIsLocked migrationLocks note)
        = notes.filter fun note => ¬ MigrationLocked migrationLocks note := by
    intro notes hpool
    apply List.filter_congr
    intro note hnote
    simp [MigrationLocked, hpool note hnote]
  have hsapling : selected.sapling
      = selected.sapling.filter fun note => ¬ MigrationLocked migrationLocks note := by
    rw [eq_comm, List.filter_eq_self]
    intro note hnote
    simp [MigrationLocked, selected.sapling_pool note hnote]
  simp only [ReceivedNotes.notes, withoutLocked, List.filter_append]
  rw [← hsapling, hkeep _ fun note h => by simp [selected.orchard_pool note h],
    hkeep _ fun note h => by simp [selected.ironwood_pool note h]]

/-- A selection holds free notes only. -/
theorem subperm_free {target : TargetValue} {selected : ReceivedNotes}
    (h : selectSpendableNotes source reserved migrationLocks query target exclude
      = .ok selected) :
  selected.notes.Subperm (free (source.spendable query) reserved migrationLocks exclude)
  := by
  obtain ⟨answer, hanswer, h⟩ := bind_eq_ok.mp h
  obtain rfl := pure_eq_ok.mp h
  rw [notes_withoutLocked]
  apply (source.select_subperm _ _ _ _ hanswer).filter _

/-! ### Consolidation -/

/-- What the loop excludes are ids that are merged at first, and ids of locked notes. -/
def Excludes (notes : List ReceivedNote) (reserved : List NoteRef)
    (migrationLocks : List (String × Nat)) (exclude excludes : List NoteRef) : Prop :=
  (∀ id ∈ mergedExcludes reserved exclude, id ∈ excludes)
    ∧ ∀ note ∈ free notes reserved migrationLocks exclude, note.internalNoteId ∉ excludes

theorem mem_notExcluded {notes : List ReceivedNote} {note : ReceivedNote} :
  note ∈ notExcluded notes exclude ↔ note ∈ notes ∧ note.internalNoteId ∉ exclude
  := by
  rw [notExcluded, List.mem_filter, decide_eq_true_iff]

theorem mem_free {notes : List ReceivedNote} {note : ReceivedNote} :
  note ∈ free notes reserved migrationLocks exclude
    ↔ note ∈ eligible notes reserved exclude ∧ ¬ MigrationLocked migrationLocks note
  := by
  rw [free, List.mem_filter, decide_eq_true_iff]

/-- Excluding the locked notes of an answer excludes no free note. -/
theorem Excludes.step {notes : List ReceivedNote}
    (hdistinct : (notes.map (·.internalNoteId)).Nodup) {excludes : List NoteRef}
    (h : Excludes notes reserved migrationLocks exclude excludes) {more : List NoteRef}
    (hmore : ∀ id ∈ more, ∃ note ∈ notes, note.internalNoteId = id
      ∧ MigrationLocked migrationLocks note) :
  Excludes notes reserved migrationLocks exclude (sortDedup (excludes ++ more))
  := by
  constructor
  · intro id hid
    rw [mem_sortDedup]
    apply List.mem_append_left _ (h.1 id hid)
  · intro note hnote hid
    rw [mem_sortDedup, List.mem_append] at hid
    obtain hid | hid := hid
    · apply h.2 note hnote hid
    · obtain ⟨other, hother, hsame, hlocked⟩ := hmore _ hid
      obtain ⟨heligible, hfree⟩ := mem_free.mp hnote
      have hmem := (mem_notExcluded.mp heligible).1
      rw [List.inj_on_of_nodup_map hdistinct hother hmem hsame] at hlocked
      apply hfree hlocked

theorem not_locked_of_migrationLockedNoteIds_eq_nil {selected : ReceivedNotes}
    (h : migrationLockedNoteIds migrationLocks selected = []) :
  ∀ note ∈ selected.notes, ¬ MigrationLocked migrationLocks note
  := by
  rintro note hnote ⟨hpool, hlocked⟩
  have hmem : note ∈ selected.orchard ++ selected.ironwood := by
    obtain hnote | hnote := List.mem_append.mp hnote
    · obtain hnote | hnote := List.mem_append.mp hnote
      · exact absurd (selected.sapling_pool note hnote) hpool
      · apply List.mem_append_left _ hnote
    · apply List.mem_append_right _ hnote
  rw [migrationLockedNoteIds, List.map_eq_nil_iff, List.filter_eq_nil_iff] at h
  apply h note hmem hlocked

/-- The free notes are not excluded. -/
theorem Excludes.free_sublist {notes : List ReceivedNote} {excludes : List NoteRef}
    (h : Excludes notes reserved migrationLocks exclude excludes) :
  (free notes reserved migrationLocks exclude).Sublist (notExcluded notes excludes)
  := by
  have hfilter : free notes reserved migrationLocks exclude
      = (notExcluded notes excludes).filter fun note =>
        note.internalNoteId ∉ mergedExcludes reserved exclude
          ∧ ¬ MigrationLocked migrationLocks note := by
    unfold free eligible notExcluded
    rw [List.filter_filter, List.filter_filter]
    apply List.filter_congr
    intro note hnote
    have hkept : note.internalNoteId ∉ mergedExcludes reserved exclude →
        ¬ MigrationLocked migrationLocks note → note.internalNoteId ∉ excludes := by
      intro hmerged hfree
      apply h.2 note
      apply mem_free.mpr ⟨mem_notExcluded.mpr ⟨hnote, hmerged⟩, hfree⟩
    rw [Bool.eq_iff_iff]
    simp only [Bool.and_eq_true, decide_eq_true_iff]
    constructor
    · rintro ⟨hfree, hmerged⟩
      exact ⟨⟨hmerged, hfree⟩, hkept hmerged hfree⟩
    · rintro ⟨⟨hmerged, hfree⟩, _⟩
      exact ⟨hfree, hmerged⟩
  rw [hfilter]
  apply List.filter_sublist

/-- The selection for a consolidation holds free notes only, and covers the value when the free
notes can. -/
theorem consolidateFrom_spec {value maxAdditionalNotes : Nat} {excludes : List NoteRef}
    (hexcludes : Excludes (source.spendable query) reserved migrationLocks exclude excludes)
    {selected : ConsolidationNotes}
    (h : consolidateFrom source migrationLocks query value maxAdditionalNotes excludes
      = .ok selected) :
  (∀ note ∈ selected.funding.notes ++ selected.additional.notes,
      note.internalNoteId ∉ reserved ∧ ¬ MigrationLocked migrationLocks note)
    ∧ (value ≤ totalValue (free (source.spendable query) reserved migrationLocks exclude) →
      value ≤ totalValue selected.funding.notes)
  := by
  induction hleft : (notExcluded (source.spendable query) excludes).length
    using Nat.strong_induction_on generalizing excludes with
  | _ left ih =>
    rw [consolidateFrom] at h
    split at h
    · cases h
    case h_2 answer hanswer =>
      have hsub := source.consolidation_subperm _ _ _ _ _ hanswer
      have hmore : ∀ id ∈ migrationLockedNoteIds migrationLocks answer.funding
          ++ migrationLockedNoteIds migrationLocks answer.additional,
          ∃ note ∈ notExcluded (source.spendable query) excludes, note.internalNoteId = id
            ∧ MigrationLocked migrationLocks note := by
        intro id hid
        obtain hid | hid := List.mem_append.mp hid
        · obtain ⟨note, hnote, heq, hlocked⟩ := mem_migrationLockedNoteIds hid
          exact ⟨note, hsub.subset (List.mem_append_left _ hnote), heq, hlocked⟩
        · obtain ⟨note, hnote, heq, hlocked⟩ := mem_migrationLockedNoteIds hid
          exact ⟨note, hsub.subset (List.mem_append_right _ hnote), heq, hlocked⟩
      dsimp only at h
      split at h
      case isTrue hnone =>
        cases h
        obtain ⟨hfunding, hadditional⟩ := List.append_eq_nil_iff.mp hnone
        constructor
        · intro note hnote
          constructor
          · intro hreserved
            apply (mem_notExcluded.mp (hsub.subset hnote)).2
            apply hexcludes.1
            rw [mergedExcludes, mem_sortDedup]
            apply List.mem_append_right _ hreserved
          · obtain hnote | hnote := List.mem_append.mp hnote
            · apply not_locked_of_migrationLockedNoteIds_eq_nil hfunding note hnote
            · apply not_locked_of_migrationLockedNoteIds_eq_nil hadditional note hnote
        · intro hcovers
          apply source.consolidation_covers _ _ _ _ _ hanswer
          apply hcovers.trans (totalValue_le_of_subperm hexcludes.free_sublist.subperm)
      case isFalse hsome =>
        obtain ⟨id, hid⟩ := List.exists_mem_of_ne_nil _ hsome
        obtain ⟨note, hnote, rfl, _⟩ := hmore id hid
        apply ih _ _ _ h rfl
        · rw [← hleft]
          apply length_notExcluded_lt hnote hid
        · apply hexcludes.step (source.distinct query)
          intro id hid
          obtain ⟨note, hnote, heq, hlocked⟩ := hmore id hid
          exact ⟨note, (mem_notExcluded.mp hnote).1, heq, hlocked⟩

theorem excludes_mergedExcludes {notes : List ReceivedNote} :
  Excludes notes reserved migrationLocks exclude (mergedExcludes reserved exclude)
  := by
  refine ⟨fun _ h => h, ?_⟩
  intro note hnote
  apply (mem_notExcluded.mp (mem_free.mp hnote).1).2

/-! ### When a payment is covered -/

theorem eligible_perm {notes : List ReceivedNote} :
  (free notes reserved migrationLocks exclude ++ locked notes reserved migrationLocks exclude).Perm
    (eligible notes reserved exclude)
  := by
  have h := List.filter_append_perm (fun note => decide ¬ MigrationLocked migrationLocks note)
    (eligible notes reserved exclude)
  simpa [free, locked] using h

/-- Without a shortfall, what is left of an answer covers what the free notes can. -/
theorem covers_of_noShortfall {target : TargetValue}
    (h : NoShortfall (source.spendable query) reserved migrationLocks target exclude)
    {selected : ReceivedNotes}
    (hselected : selectSpendableNotes source reserved migrationLocks query target exclude
      = .ok selected)
    (hfree : Covers (free (source.spendable query) reserved migrationLocks exclude) target
      (free (source.spendable query) reserved migrationLocks exclude)) :
  Covers (free (source.spendable query) reserved migrationLocks exclude) target selected.notes
  := by
  have hsub := subperm_free hselected
  obtain ⟨answer, hanswer, hselected⟩ := bind_eq_ok.mp hselected
  obtain rfl := pure_eq_ok.mp hselected
  have hanswered := source.select_covers _ _ _ _ hanswer
  rw [notes_withoutLocked] at hsub ⊢
  cases target with
  | allFunds =>
    intro note hnote
    obtain ⟨heligible, hnot⟩ := mem_free.mp hnote
    apply List.mem_filter.mpr ⟨hanswered (fun _ h => h) note heligible, by simpa using hnot⟩
  | atLeast value =>
    apply h hfree _ hsub
    have hall : value ≤ totalValue answer.notes := by
      apply hanswered
      apply hfree.trans (totalValue_le_of_subperm List.filter_sublist.subperm)
    have hsplit := totalValue_perm
      (List.filter_append_perm (fun note => decide ¬ MigrationLocked migrationLocks note)
        answer.notes)
    rw [totalValue_append] at hsplit
    have hlocked : totalValue (answer.notes.filter fun note =>
        !decide ¬ MigrationLocked migrationLocks note)
          ≤ totalValue (locked (source.spendable query) reserved migrationLocks exclude) := by
      have := (source.select_subperm _ _ _ _ hanswer).filter
        fun note => !decide ¬ MigrationLocked migrationLocks note
      simpa [locked, eligible] using totalValue_le_of_subperm this
    omega

theorem selectsFree_of_noShortfall {target : TargetValue}
    (h : NoShortfall (source.spendable query) reserved migrationLocks target exclude) :
  SelectsFree source reserved migrationLocks query target exclude
  := by
  refine ⟨?_, ?_, ?_, ?_⟩
  · intro selected hselected note hnote
    obtain ⟨heligible, hfree⟩ := mem_free.mp ((subperm_free hselected).subset hnote)
    exact ⟨not_mem_reserved_of_mem_eligible heligible, hfree⟩
  · intro selected hselected hfree
    apply covers_of_noShortfall h hselected hfree
  · intro value maxAdditionalNotes selected hselected
    apply (consolidateFrom_spec excludes_mergedExcludes hselected).1
  · intro value maxAdditionalNotes selected hselected
    apply (consolidateFrom_spec excludes_mergedExcludes hselected).2

end

/-! ### A source that selects some notes first -/

/-- Some notes by pool. -/
def ofNotes (notes : List ReceivedNote) : ReceivedNotes where
  sapling := notes.filter (·.pool = .sapling)
  orchard := notes.filter (·.pool = .orchard)
  ironwood := notes.filter (·.pool = .ironwood)
  sapling_pool note h := by simpa using (List.mem_filter.mp h).2
  orchard_pool note h := by simpa using (List.mem_filter.mp h).2
  ironwood_pool note h := by simpa using (List.mem_filter.mp h).2

theorem notes_ofNotes_perm {notes : List ReceivedNote} :
  (ofNotes notes).notes.Perm notes
  := by
  induction notes with
  | nil => exact List.Perm.nil
  | cons note notes ih =>
    simp only [ReceivedNotes.notes, ofNotes, List.filter_cons] at ih ⊢
    cases hpool : note.pool with
    | sapling => simpa using ih
    | orchard =>
      simp only [reduceCtorEq, decide_false, decide_true, if_true, Bool.false_eq_true, if_false]
      rw [List.append_assoc] at ih ⊢
      apply List.perm_middle.trans
      apply ih.cons note
    | ironwood =>
      simp only [reduceCtorEq, decide_false, decide_true, if_true, Bool.false_eq_true, if_false]
      apply List.perm_middle.trans
      apply ih.cons note

/-- The notes `first`, when they cover the value and none is excluded, and else all notes that
are not excluded. -/
def choose (notes first : List ReceivedNote) (target : TargetValue) (exclude : List NoteRef) :
    List ReceivedNote :=
  match target with
  | .atLeast value =>
    if value ≤ totalValue first ∧ ∀ note ∈ first, note.internalNoteId ∉ exclude then first
    else notExcluded notes exclude
  | .allFunds => notExcluded notes exclude

theorem choose_subperm {notes first : List ReceivedNote} (hfirst : first.Subperm notes)
    {target : TargetValue} {exclude : List NoteRef} :
  (choose notes first target exclude).Subperm (notExcluded notes exclude)
  := by
  unfold choose
  split
  · split
    case isTrue h =>
      have hself : first.filter (fun note => note.internalNoteId ∉ exclude) = first := by
        rw [List.filter_eq_self]
        intro note hnote
        simpa using h.2 note hnote
      rw [← hself]
      apply hfirst.filter _
    case isFalse => exact List.Subperm.refl _
  · apply List.Subperm.refl _

theorem covers_congr {available xs ys : List ReceivedNote} {target : TargetValue}
    (h : xs.Perm ys) :
  Covers available target xs ↔ Covers available target ys
  := by
  cases target with
  | atLeast value => simp [Covers, totalValue_perm h]
  | allFunds => simp [Covers, h.mem_iff]

theorem choose_covers {notes first : List ReceivedNote} {target : TargetValue}
    {exclude : List NoteRef}
    (h : Covers (notExcluded notes exclude) target (notExcluded notes exclude)) :
  Covers (notExcluded notes exclude) target (choose notes first target exclude)
  := by
  cases target with
  | allFunds => exact h
  | atLeast value =>
    dsimp only [choose]
    split
    case isTrue hfirst => exact hfirst.1
    case isFalse => exact h

/-- The source that selects the notes `first` whenever they cover the value. -/
def firstChoice (Query Err : Type) (notes first : List ReceivedNote)
    (hdistinct : (notes.map (·.internalNoteId)).Nodup) (hfirst : first.Subperm notes) :
    InputSource Query Err where
  spendable _ := notes
  selectSpendableNotes _ target exclude := .ok (ofNotes (choose notes first target exclude))
  selectSpendableNotesForConsolidation _ _ exclude _ :=
    .ok ⟨ofNotes (notExcluded notes exclude), ofNotes []⟩
  distinct _ := hdistinct
  select_subperm _ target exclude selected h := by
    cases h
    apply (notes_ofNotes_perm.subperm).trans (choose_subperm hfirst)
  select_covers _ target exclude selected h hcovers := by
    cases h
    apply (covers_congr notes_ofNotes_perm).mpr (choose_covers hcovers)
  consolidation_subperm _ _ exclude _ selected h := by
    cases h
    rw [show (ofNotes []).notes = [] from rfl, List.append_nil]
    apply notes_ofNotes_perm.subperm
  consolidation_covers _ value exclude _ selected h hcovers := by
    cases h
    rwa [totalValue_perm notes_ofNotes_perm]

/-! ### Exactly when a payment is covered -/

/-- The selections over some notes hold no reserved or locked note and cover what the free
notes can, whichever notes the source selects first, exactly when no free notes fall short of
the target by at most the value of the locked ones. -/
theorem selectsFree_iff_noShortfall (source : InputSource Query Err) (reserved : List NoteRef)
    (migrationLocks : List (String × Nat)) (query : Query) (target : TargetValue)
    (exclude : List NoteRef) :
  (∀ other : InputSource Query Err, other.spendable query = source.spendable query →
      SelectsFree other reserved migrationLocks query target exclude)
    ↔ NoShortfall (source.spendable query) reserved migrationLocks target exclude
  := by
  constructor
  · intro h
    cases target with
    | allFunds => trivial
    | atLeast value =>
      intro hfree taken htaken hcovers
      set notes := source.spendable query with hnotes
      have hfirst : (taken ++ locked notes reserved migrationLocks exclude).Subperm
          (eligible notes reserved exclude) :=
        ((List.subperm_append_right _).mpr htaken).trans eligible_perm.subperm
      let other := firstChoice Query Err notes
        (taken ++ locked notes reserved migrationLocks exclude) (source.distinct query)
        (hfirst.trans List.filter_sublist.subperm)
      have hchoose : choose notes (taken ++ locked notes reserved migrationLocks exclude)
          (.atLeast value) (mergedExcludes reserved exclude)
            = taken ++ locked notes reserved migrationLocks exclude := by
        apply if_pos
        refine ⟨by rwa [totalValue_append], ?_⟩
        intro note hnote
        apply (mem_notExcluded.mp (hfirst.subset hnote)).2
      have hcovered : value ≤ totalValue (withoutLocked migrationLocks
          (ofNotes (choose notes (taken ++ locked notes reserved migrationLocks exclude)
            (.atLeast value) (mergedExcludes reserved exclude)))).notes :=
        (h other rfl).spendable_covers _ rfl hfree
      have hleft : ((taken ++ locked notes reserved migrationLocks exclude).filter
          fun note => ¬ MigrationLocked migrationLocks note) = taken := by
        have htaken' : taken.filter (fun note => ¬ MigrationLocked migrationLocks note) = taken := by
          rw [List.filter_eq_self]
          intro note hnote
          simpa using (mem_free.mp (htaken.subset hnote)).2
        have hlocked : (locked notes reserved migrationLocks exclude).filter
            (fun note => ¬ MigrationLocked migrationLocks note) = [] := by
          rw [List.filter_eq_nil_iff]
          intro note hnote
          simpa using (List.mem_filter.mp hnote).2
        rw [List.filter_append, htaken', hlocked, List.append_nil]
      rwa [notes_withoutLocked, hchoose, totalValue_perm (notes_ofNotes_perm.filter _),
        hleft] at hcovered
  · intro h other hsame
    apply selectsFree_of_noShortfall
    rw [hsame]
    apply h

/-! ### A locked note that is selected first -/

/-- A locked note, and a free one of the same value. -/
def sampleNotes : List ReceivedNote :=
  [⟨1, .orchard, "aa", 0, 5⟩, ⟨2, .orchard, "bb", 0, 5⟩]

/-- The source that selects the locked note first. -/
def sampleSource : InputSource Unit Unit :=
  firstChoice Unit Unit sampleNotes [⟨1, .orchard, "aa", 0, 5⟩] (by decide) (by decide)

/-- The free note covers the value, but the answer is the locked one, and nothing is left. -/
theorem selectsFree_locked_first :
  ¬ SelectsFree sampleSource [] [("aa", 0)] () (.atLeast 5) []
  := by
  intro h
  have hanswer : selectSpendableNotes sampleSource [] [("aa", 0)] () (.atLeast 5) []
      = .ok (ofNotes []) := by
    decide +kernel
  have hfree : 5 ≤ totalValue (free sampleNotes [] [("aa", 0)] []) := by
    decide +kernel
  have hcovers : (5 : Nat) ≤ 0 := h.spendable_covers _ hanswer hfree
  omega

end ReservedNotes

end Vizor
