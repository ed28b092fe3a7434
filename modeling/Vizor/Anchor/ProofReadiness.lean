import Vizor.Anchor.Candidates
import Vizor.Amount
import Vizor.Lib.Errors
import Mathlib.Data.List.Infix

/-!
# Whether a prepared note can be proved

Before a proof is made, the status of a migration asks whether the note has a witness at the
checkpoint of a candidate boundary.  The proof itself reads the anchor and the witness at
each candidate, and draws one of the boundaries that have both.  On a regtest network it also
searches older checkpoints of a boundary, which the status does not.
-/

namespace Vizor

open Run Store

namespace ProofReadiness

/-! ### The wallet -/

inductive NoteVersion where
  | v2
  | v3
  deriving DecidableEq, Repr

/-- An Orchard note that was received. -/
structure OrchardReceivedNote where
  txid : Txid
  outputIndex : Nat
  version : NoteVersion
  value : Nat
  noteCommitmentTreePosition : Nat
  minedHeight : Option Nat
  deriving DecidableEq, Repr

variable {Anchor MerklePath : Type}

/-- What the wallet database answers.  The witness of a position at a checkpoint is the same
with and without caching. -/
structure WalletDatabase (Anchor MerklePath : Type) where
  getAccount : AccountUuid → Except String Bool
  targetAndAnchorHeights : Except String (Option (Nat × Nat))
  unspentOrchardNotes : AccountUuid → Nat → Except String (List OrchardReceivedNote)
  checkpoints : Except String (Finset Nat)
  rootAtCheckpointId : Nat → Except String (Option Anchor)
  witnessAtCheckpointId : Nat → Nat → Except String (Option MerklePath)
  nu63ActivationHeight : Option Nat

/-- An error of a query of the tree. -/
inductive WitnessError where
  | commitmentTree (error : String)
  | anchorNotFound (height : Nat)
  deriving DecidableEq, Repr

/-- The text of an error in a message. -/
def WitnessError.debug : WitnessError → String
  | .commitmentTree error => "CommitmentTree(" ++ error ++ ")"
  | .anchorNotFound height => "Proposal(AnchorNotFound(BlockHeight(" ++ toString height ++ ")))"

/-- The message of an error of a query of the tree. -/
def WitnessError.message (error : WitnessError) : String :=
  "Read Orchard witnesses: " ++ error.debug

/-- A text occurs in another. -/
def contains (text part : List Char) : Bool :=
  part <:+: text

/-- An error that goes away when the wallet has scanned more blocks. -/
def isOrchardWitnessNotReadyError (error : String) : Bool :=
  let lower := error.toList.map Char.toLower
  contains lower "wallet must sync before finalizing migration".toList
    || contains lower "prepared migration note witness missing".toList
    || (contains lower "read orchard witnesses".toList
      && (contains lower "anchornotfound".toList
        || contains lower "notcontained".toList
        || contains lower "checkpoint".toList
        || contains lower "commitmenttree".toList))

/-! ### Witnesses -/

/-- The anchor and the witnesses of some notes at a checkpoint. -/
def orchardWitnesses (db : WalletDatabase Anchor MerklePath) (anchorHeight : Nat)
    (orchardNotes : List OrchardReceivedNote) :
    Except String (Anchor × List (OrchardReceivedNote × MerklePath)) :=
  Except.mapError WitnessError.message do
    let anchor ← match db.rootAtCheckpointId anchorHeight with
      | .error error => .error (.commitmentTree error)
      | .ok none => .error (.anchorNotFound anchorHeight)
      | .ok (some anchor) => .ok anchor
    let inputs ← orchardNotes.mapM fun selected =>
      match db.witnessAtCheckpointId selected.noteCommitmentTreePosition anchorHeight with
      | .error error => .error (.commitmentTree error)
      | .ok none => .error (.commitmentTree "Query(CheckpointPruned)")
      | .ok (some merklePath) => .ok (selected, merklePath)
    return (anchor, inputs)

/-- Whether a note has a witness at a checkpoint. -/
def orchardWitnessIsAvailable (db : WalletDatabase Anchor MerklePath) (anchorHeight : Nat)
    (orchardNote : OrchardReceivedNote) : Except String Bool :=
  Except.mapError WitnessError.message
    (match db.rootAtCheckpointId anchorHeight with
    | .error error => .error (.commitmentTree error)
    | .ok none => .ok false
    | .ok (some _) =>
      match db.witnessAtCheckpointId orchardNote.noteCommitmentTreePosition anchorHeight with
      | .error error => .error (.commitmentTree error)
      | .ok witness => .ok witness.isSome)

/-- The witnesses at the first of some checkpoints that has them. -/
def firstWitnesses (db : WalletDatabase Anchor MerklePath)
    (orchardNotes : List OrchardReceivedNote) :
    Option String → List Nat → Except String (Anchor × List (OrchardReceivedNote × MerklePath))
  | lastError, [] => .error (lastError.getD
    "Read Orchard witnesses: no regtest checkpoint at or before anchor boundary")
  | _, checkpoint :: checkpoints =>
    match orchardWitnesses db checkpoint orchardNotes with
    | .ok result => .ok result
    | .error error =>
      if isOrchardWitnessNotReadyError error then
        firstWitnesses db orchardNotes (some error) checkpoints
      else .error error

/-- The witnesses at a checkpoint; on a regtest network, at the last one from it on back that
has them. -/
def migrationOrchardWitnesses (db : WalletDatabase Anchor MerklePath) (network : WalletNetwork)
    (anchorBoundaryHeight : Nat) (orchardNotes : List OrchardReceivedNote) :
    Except String (Anchor × List (OrchardReceivedNote × MerklePath)) :=
  if network ≠ .regtest then orchardWitnesses db anchorBoundaryHeight orchardNotes
  else do
    let newestNoteHeight ← okOr (orchardNotes.filterMap (·.minedHeight)).max?
      "Prepared migration note mined height unavailable"
    let oldestCandidate := max (anchorBoundaryHeight - zip318AnchorAgeCap) newestNoteHeight
    firstWitnesses db orchardNotes none
      (List.range' oldestCandidate (anchorBoundaryHeight + 1 - oldestCandidate)).reverse

/-! ### Candidates -/

/-- The boundaries that have a checkpoint, with it; a checkpoint is used for the first boundary
that it represents. -/
def availableOrchardAnchorCandidates (checkpoints : Finset Nat) (noteMinedHeight : Nat) :
    List Nat → List Nat → List (Nat × Nat)
  | _, [] => []
  | seen, boundary :: boundaries =>
    match representativeOrchardCheckpoint checkpoints boundary noteMinedHeight with
    | none => availableOrchardAnchorCandidates checkpoints noteMinedHeight seen boundaries
    | some checkpoint =>
      if checkpoint ∈ seen then
        availableOrchardAnchorCandidates checkpoints noteMinedHeight seen boundaries
      else
        (boundary, checkpoint) :: availableOrchardAnchorCandidates checkpoints noteMinedHeight
          (checkpoint :: seen) boundaries

/-- The unspent notes of version 2. -/
def selectSpendableOrchardV2Notes (db : WalletDatabase Anchor MerklePath)
    (account : AccountUuid) (anchorHeight : Nat) : Except String (List OrchardReceivedNote) := do
  let notes ← db.unspentOrchardNotes account anchorHeight
  return notes.filter (·.version = .v2)

/-- The wallet's note that was prepared. -/
def findPrepared (notes : List OrchardReceivedNote) (noteRef : PreparedOrchardNoteRef) :
    Option OrchardReceivedNote :=
  notes.find? fun selected => selected.txid = noteRef.txid
    ∧ selected.outputIndex % u32Size = noteRef.outputIndex

/-- The checks of the wallet's note. -/
def checkPrepared (selected : OrchardReceivedNote) (noteRef : PreparedOrchardNoteRef) :
    Except String Unit := do
  ensure (selected.version = .v2) "Prepared note revalidated as non-V2 Orchard"
  ensure (selected.value ≤ maxMoney)
    "Prepared note value invalid: ZatBalance addition resulted in a value outside the valid range."
  ensure (selected.value = noteRef.valueZatoshi) "Prepared note value changed during revalidation"

/-! ### The proof -/

/-- The candidates that have an anchor and a witness. -/
def witnessableCandidates (db : WalletDatabase Anchor MerklePath) (network : WalletNetwork)
    (selected : OrchardReceivedNote) :
    List (Nat × Nat) → Except String (List (Nat × Anchor × MerklePath))
  | [] => .ok []
  | (boundary, checkpoint) :: candidates =>
    match migrationOrchardWitnesses db network checkpoint [selected] with
    | .ok (anchor, inputs) => do
      let (_, witness) ← okOr inputs.getLast? "Prepared migration note witness missing"
      return (boundary, anchor, witness)
        :: (← witnessableCandidates db network selected candidates)
    | .error error =>
      if isOrchardWitnessNotReadyError error then
        witnessableCandidates db network selected candidates
      else .error error

/-- The preferred boundary or one that is drawn, with its anchor and its witness. -/
def selectWitness (db : WalletDatabase Anchor MerklePath)
    (genRange : (bound : Nat) → 0 < bound → Fin bound) (network : WalletNetwork)
    (timingPolicy : MigrationTimingPolicy) (anchorHeight : Nat) (preferred : Option Nat)
    (selected : OrchardReceivedNote) (candidates : List (Nat × Nat)) :
    Except String (Option (Nat × Anchor × MerklePath)) := do
  let witnessable ← witnessableCandidates db network selected candidates
  let boundaries := witnessable.map (·.1)
  match (preferred.filter (· ∈ boundaries)).or
    (zip318DrawAnchorBoundaryFromAvailableWithPolicy network timingPolicy genRange anchorHeight
      boundaries) with
  | none => return none
  | some selectedBoundary =>
    let chosen ← okOr (witnessable.find? (·.1 = selectedBoundary))
      "Selected Orchard migration witness disappeared"
    return some chosen

/-- The anchor and the witness with which a prepared note is proved. -/
def orchardAnchorAndWitnessForPreparedNote (db : WalletDatabase Anchor MerklePath)
    (genRange : (bound : Nat) → 0 < bound → Fin bound) (network : WalletNetwork)
    (account : AccountUuid) (noteRef : PreparedOrchardNoteRef)
    (preferredAnchorBoundaryHeight : Option Nat) (timingPolicy : MigrationTimingPolicy) :
    Except String (Option (Nat × Anchor × MerklePath)) := do
  ensure (noteRef.noteVersion = 2) "Prepared migration note is not an Orchard V2 note"
  let found ← db.getAccount account
  ensure (found = true) "Account not found"
  let heights ← db.targetAndAnchorHeights
  let (_, anchorHeight) ← okOr heights "Wallet must sync before finalizing migration"
  let availableNotes ← selectSpendableOrchardV2Notes db account anchorHeight
  match findPrepared availableNotes noteRef with
  | none => return none
  | some selected => do
    checkPrepared selected noteRef
    let activation ← okOr db.nu63ActivationHeight "NU6.3 activation height unavailable"
    let mined ← okOr selected.minedHeight "Prepared migration note mined height unavailable"
    let checkpoints ← db.checkpoints
    let policyCandidates := zip318AnchorCandidateBoundariesWithPolicy network timingPolicy
      anchorHeight mined activation
    let candidates := availableOrchardAnchorCandidates checkpoints mined [] policyCandidates
    let preferred := preferredAnchorBoundaryHeight.filter fun boundary =>
      zip318AnchorBoundaryIsCandidateWithPolicy network timingPolicy boundary anchorHeight mined
        activation && candidates.any (·.1 = boundary)
    selectWitness db genRange network timingPolicy anchorHeight preferred selected candidates

/-! ### The status -/

/-- Whether one of the candidates has a witness. -/
def anyWitnessAvailable (db : WalletDatabase Anchor MerklePath)
    (selected : OrchardReceivedNote) : List (Nat × Nat) → Except String Bool
  | [] => .ok false
  | (_, checkpoint) :: candidates =>
    match orchardWitnessIsAvailable db checkpoint selected with
    | .ok true => .ok true
    | .ok false => anyWitnessAvailable db selected candidates
    | .error error =>
      if isOrchardWitnessNotReadyError error then anyWitnessAvailable db selected candidates
      else .error error

/-- Swap the candidate with a boundary to the front. -/
def preferFirst (candidates : List (Nat × Nat)) (boundary : Nat) : List (Nat × Nat) :=
  match candidates with
  | [] => []
  | first :: rest =>
    match candidates.findIdx? (·.1 = boundary) with
    | none => candidates
    | some 0 => candidates
    | some (index + 1) =>
      match rest[index]? with
      | none => candidates
      | some candidate => candidate :: rest.set index first

/-- Whether a prepared note can be proved. -/
def orchardWitnessIsAvailableForPreparedNote (db : WalletDatabase Anchor MerklePath)
    (network : WalletNetwork) (account : AccountUuid) (noteRef : PreparedOrchardNoteRef)
    (preferredAnchorBoundaryHeight : Option Nat) (timingPolicy : MigrationTimingPolicy) :
    Except String Bool := do
  ensure (noteRef.noteVersion = 2) "Prepared migration note is not an Orchard V2 note"
  let found ← db.getAccount account
  ensure (found = true) "Account not found"
  match ← db.targetAndAnchorHeights with
  | none => return false
  | some (_, anchorHeight) => do
    let availableNotes ← selectSpendableOrchardV2Notes db account anchorHeight
    match findPrepared availableNotes noteRef with
    | none => return false
    | some selected => do
      checkPrepared selected noteRef
      let mined ← okOr selected.minedHeight "Prepared migration note mined height unavailable"
      let checkpoints ← db.checkpoints
      let activation ← okOr db.nu63ActivationHeight "NU6.3 activation height unavailable"
      let policyCandidates := zip318AnchorCandidateBoundariesWithPolicy network timingPolicy
        anchorHeight mined activation
      let candidates := availableOrchardAnchorCandidates checkpoints mined [] policyCandidates
      let candidates := match preferredAnchorBoundaryHeight with
        | none => candidates
        | some preferred => preferFirst candidates preferred
      anyWitnessAvailable db selected candidates

/-! ### Errors of the tree -/

section

variable {db : WalletDatabase Anchor MerklePath} {network : WalletNetwork}
  {selected : OrchardReceivedNote} {mined height : Nat}

theorem notReady_of_isInfix {error part : String}
    (hread : "read orchard witnesses".toList <:+: error.toList.map Char.toLower)
    (hpart : part = "anchornotfound" ∨ part = "checkpoint" ∨ part = "commitmenttree")
    (hkind : part.toList <:+: error.toList.map Char.toLower) :
  isOrchardWitnessNotReadyError error = true
  := by
  unfold isOrchardWitnessNotReadyError contains
  obtain rfl | rfl | rfl := hpart
  · simp only [hread, hkind, decide_true, Bool.true_or, Bool.or_true, Bool.and_true]
  · simp only [hread, hkind, decide_true, Bool.true_or, Bool.or_true, Bool.and_true]
  · simp only [hread, hkind, decide_true, Bool.or_true, Bool.and_true]

/-- A text that occurs in the beginning of a message occurs in the message. -/
theorem infix_of_append_left {part first rest : String}
    (h : part.toList <:+: first.toList.map Char.toLower) :
  part.toList <:+: (first ++ rest).toList.map Char.toLower
  := by
  rw [String.toList_append, List.map_append]
  apply h.trans (List.prefix_append _ _).isInfix

/-- A text that occurs in the end of a message occurs in the message. -/
theorem infix_of_append_right {part first rest : String}
    (h : part.toList <:+: rest.toList.map Char.toLower) :
  part.toList <:+: (first ++ rest).toList.map Char.toLower
  := by
  rw [String.toList_append, List.map_append]
  apply h.trans (List.suffix_append _ _).isInfix

/-- Every error of a query of the tree goes away. -/
theorem notReady_message (error : WitnessError) :
  isOrchardWitnessNotReadyError error.message = true
  := by
  have hread : "read orchard witnesses".toList <:+: error.message.toList.map Char.toLower := by
    apply infix_of_append_left
    decide +kernel
  cases error with
  | commitmentTree error =>
    apply @notReady_of_isInfix _ "commitmenttree" hread (.inr (.inr rfl))
    apply infix_of_append_right
    apply infix_of_append_left
    apply infix_of_append_left
    decide +kernel
  | anchorNotFound height =>
    apply @notReady_of_isInfix _ "anchornotfound" hread (.inl rfl)
    apply infix_of_append_right
    apply infix_of_append_left
    apply infix_of_append_left
    decide +kernel

/-- A note has an anchor and a witness at a checkpoint. -/
def HasWitness (db : WalletDatabase Anchor MerklePath) (selected : OrchardReceivedNote)
    (height : Nat) : Prop :=
  ∃ anchor merklePath, db.rootAtCheckpointId height = .ok (some anchor)
    ∧ db.witnessAtCheckpointId selected.noteCommitmentTreePosition height = .ok (some merklePath)

/-! ### One checkpoint -/

/-- The status finds a witness exactly when there is one, and else only errors that go away. -/
theorem orchardWitnessIsAvailable_cases :
  (HasWitness db selected height ∧ orchardWitnessIsAvailable db height selected = .ok true)
    ∨ ¬ HasWitness db selected height
      ∧ (orchardWitnessIsAvailable db height selected = .ok false
        ∨ ∃ error : WitnessError,
          orchardWitnessIsAvailable db height selected = .error error.message)
  := by
  unfold HasWitness orchardWitnessIsAvailable
  cases db.rootAtCheckpointId height with
  | error error => exact .inr ⟨by simp, .inr ⟨.commitmentTree error, rfl⟩⟩
  | ok root =>
    cases root with
    | none => exact .inr ⟨by simp, .inl rfl⟩
    | some anchor =>
      cases db.witnessAtCheckpointId selected.noteCommitmentTreePosition height with
      | error error => exact .inr ⟨by simp, .inr ⟨.commitmentTree error, rfl⟩⟩
      | ok witness =>
        cases witness with
        | none => exact .inr ⟨by simp, .inl rfl⟩
        | some merklePath => exact .inl ⟨⟨anchor, merklePath, rfl, rfl⟩, rfl⟩

/-- The proof reads an anchor and a witness exactly when there are, and else only errors that
go away. -/
theorem orchardWitnesses_cases :
  (HasWitness db selected height ∧ ∃ anchor merklePath,
      orchardWitnesses db height [selected] = .ok (anchor, [(selected, merklePath)]))
    ∨ ¬ HasWitness db selected height
      ∧ ∃ error : WitnessError, orchardWitnesses db height [selected] = .error error.message
  := by
  unfold HasWitness orchardWitnesses
  cases db.rootAtCheckpointId height with
  | error error => exact .inr ⟨by simp, .commitmentTree error, rfl⟩
  | ok root =>
    cases root with
    | none => exact .inr ⟨by simp, .anchorNotFound height, rfl⟩
    | some anchor =>
      simp only [List.mapM_cons, List.mapM_nil]
      cases db.witnessAtCheckpointId selected.noteCommitmentTreePosition height with
      | error error => exact .inr ⟨by simp, .commitmentTree error, rfl⟩
      | ok witness =>
        cases witness with
        | none => exact .inr ⟨by simp, .commitmentTree "Query(CheckpointPruned)", rfl⟩
        | some merklePath =>
          exact .inl ⟨⟨anchor, merklePath, rfl, rfl⟩, anchor, merklePath, rfl⟩

/-- A checkpoint from which on back the proof finds a witness. -/
def Witnessed (db : WalletDatabase Anchor MerklePath) (network : WalletNetwork)
    (selected : OrchardReceivedNote) (mined checkpoint : Nat) : Prop :=
  if network ≠ .regtest then HasWitness db selected checkpoint
  else ∃ height, max (checkpoint - zip318AnchorAgeCap) mined ≤ height ∧ height ≤ checkpoint
    ∧ HasWitness db selected height

theorem firstWitnesses_cases {heights : List Nat} {lastError : Option String}
    (hlast : ∀ error ∈ lastError, isOrchardWitnessNotReadyError error = true) :
  ((∃ h ∈ heights, HasWitness db selected h) ∧ ∃ anchor merklePath,
      firstWitnesses db [selected] lastError heights = .ok (anchor, [(selected, merklePath)]))
    ∨ ¬ (∃ h ∈ heights, HasWitness db selected h)
      ∧ ∃ error, firstWitnesses db [selected] lastError heights = .error error
        ∧ isOrchardWitnessNotReadyError error = true
  := by
  induction heights generalizing lastError with
  | nil =>
    right
    refine ⟨by simp, _, rfl, ?_⟩
    cases lastError with
    | none =>
      apply @notReady_of_isInfix _ "checkpoint" _ (.inr (.inl rfl))
      · decide +kernel
      · decide +kernel
    | some error => exact hlast error rfl
  | cons h heights ih =>
    rw [firstWitnesses]
    obtain ⟨hhas, anchor, merklePath, hok⟩ | ⟨hnot, error, herror⟩ :=
      @orchardWitnesses_cases _ _ db selected h
    · rw [hok]
      exact .inl ⟨⟨h, List.mem_cons_self, hhas⟩, anchor, merklePath, rfl⟩
    · rw [herror]
      dsimp only
      rw [if_pos (notReady_message error)]
      have hlast : ∀ e ∈ some error.message, isOrchardWitnessNotReadyError e = true := by
        simpa using notReady_message error
      simpa [hnot] using ih hlast

/-- The proof finds a witness from a checkpoint on back exactly when there is one, and else only
errors that go away. -/
theorem migrationOrchardWitnesses_cases {checkpoint : Nat}
    (hmined : selected.minedHeight = some mined) :
  (Witnessed db network selected mined checkpoint ∧ ∃ anchor merklePath,
      migrationOrchardWitnesses db network checkpoint [selected]
        = .ok (anchor, [(selected, merklePath)]))
    ∨ ¬ Witnessed db network selected mined checkpoint
      ∧ ∃ error, migrationOrchardWitnesses db network checkpoint [selected] = .error error
        ∧ isOrchardWitnessNotReadyError error = true
  := by
  unfold Witnessed migrationOrchardWitnesses
  split
  · obtain ⟨hhas, hok⟩ | ⟨hnot, error, herror⟩ :=
      @orchardWitnesses_cases _ _ db selected checkpoint
    · exact .inl ⟨hhas, hok⟩
    · exact .inr ⟨hnot, _, herror, notReady_message error⟩
  · have hnewest : ([selected].filterMap (·.minedHeight)).max? = some mined := by
      simp [hmined]
    rw [hnewest]
    have hmem : ∀ h, h ∈ (List.range' (max (checkpoint - zip318AnchorAgeCap) mined)
        (checkpoint + 1 - max (checkpoint - zip318AnchorAgeCap) mined)).reverse
          ↔ max (checkpoint - zip318AnchorAgeCap) mined ≤ h ∧ h ≤ checkpoint := by
      intro h
      rw [List.mem_reverse, List.mem_range'_1]
      omega
    have hcases := @firstWitnesses_cases _ _ db selected
      (List.range' (max (checkpoint - zip318AnchorAgeCap) mined)
        (checkpoint + 1 - max (checkpoint - zip318AnchorAgeCap) mined)).reverse none (by simp)
    simp only [hmem, and_assoc] at hcases
    apply hcases

/-! ### Every candidate -/

/-- The status finds a witness exactly when a candidate has one. -/
theorem anyWitnessAvailable_eq (candidates : List (Nat × Nat)) :
  ∃ ready, anyWitnessAvailable db selected candidates = .ok ready
    ∧ (ready = true ↔ ∃ c ∈ candidates, HasWitness db selected c.2)
  := by
  induction candidates with
  | nil => exact ⟨false, rfl, by simp⟩
  | cons c candidates ih =>
    obtain ⟨ready, hready, hiff⟩ := ih
    rw [anyWitnessAvailable]
    obtain ⟨hhas, hok⟩ | ⟨hnot, hfalse | ⟨error, herror⟩⟩ :=
      @orchardWitnessIsAvailable_cases _ _ db selected c.2
    · rw [hok]
      exact ⟨true, rfl, by simp [hhas]⟩
    · rw [hfalse]
      refine ⟨ready, hready, ?_⟩
      rw [hiff]
      simp [hnot]
    · rw [herror]
      dsimp only
      rw [if_pos (notReady_message error)]
      refine ⟨ready, hready, ?_⟩
      rw [hiff]
      simp [hnot]

/-- A swap keeps the candidates. -/
theorem mem_preferFirst {candidates : List (Nat × Nat)} {boundary : Nat} {c : Nat × Nat} :
  c ∈ preferFirst candidates boundary ↔ c ∈ candidates
  := by
  cases candidates with
  | nil => rfl
  | cons first rest =>
    rw [preferFirst]
    split
    · rfl
    · rfl
    · rename_i index hindex
      cases hrest : rest[index]? with
      | none => rfl
      | some candidate =>
        obtain ⟨hlt, rfl⟩ := List.getElem?_eq_some_iff.mp hrest
        dsimp only
        apply List.Perm.mem_iff
        apply (List.set_perm_cons_eraseIdx hlt first).cons _ |>.trans
          ((List.Perm.swap _ _ _).trans (List.getElem_cons_eraseIdx_perm hlt |>.cons _))

/-- The proof collects the candidates that have a witness. -/
theorem witnessableCandidates_eq (hmined : selected.minedHeight = some mined)
    (candidates : List (Nat × Nat)) :
  ∃ witnessable, witnessableCandidates db network selected candidates = .ok witnessable
    ∧ (witnessable.map (·.1)).Sublist (candidates.map (·.1))
    ∧ (witnessable ≠ [] ↔ ∃ c ∈ candidates, Witnessed db network selected mined c.2)
  := by
  induction candidates with
  | nil => exact ⟨[], rfl, List.Sublist.refl _, by simp⟩
  | cons c candidates ih =>
    obtain ⟨witnessable, hwitnessable, hsub, hiff⟩ := ih
    rw [witnessableCandidates]
    obtain ⟨hhas, anchor, merklePath, hok⟩ | ⟨hnot, error, herror, hready⟩ :=
      @migrationOrchardWitnesses_cases _ _ db network selected mined c.2 hmined
    · rw [hok, hwitnessable]
      exact ⟨(c.1, anchor, merklePath) :: witnessable, rfl, hsub.cons_cons _, by simp [hhas]⟩
    · rw [herror]
      dsimp only
      rw [if_pos hready]
      refine ⟨witnessable, hwitnessable, hsub.cons _, ?_⟩
      rw [hiff]
      simp [hnot]

theorem availableOrchardAnchorCandidates_sublist {checkpoints : Finset Nat}
    {seen boundaries : List Nat} :
  ((availableOrchardAnchorCandidates checkpoints mined seen boundaries).map (·.1)).Sublist
    boundaries
  := by
  induction boundaries generalizing seen with
  | nil => exact List.Sublist.refl _
  | cons boundary boundaries ih =>
    rw [availableOrchardAnchorCandidates]
    split
    · apply ih.cons _
    · split
      · apply ih.cons _
      · apply ih.cons_cons _

/-- The checkpoint of a candidate contains the note. -/
theorem mined_le_of_mem_availableOrchardAnchorCandidates {checkpoints : Finset Nat}
    {seen boundaries : List Nat} {c : Nat × Nat}
    (hc : c ∈ availableOrchardAnchorCandidates checkpoints mined seen boundaries) :
  mined ≤ c.2
  := by
  induction boundaries generalizing seen with
  | nil => simp [availableOrchardAnchorCandidates] at hc
  | cons boundary boundaries ih =>
    rw [availableOrchardAnchorCandidates] at hc
    split at hc
    · apply ih hc
    · rename_i checkpoint hcheckpoint
      split at hc
      · apply ih hc
      · obtain rfl | hc := List.mem_cons.mp hc
        · have hmem := Finset.mem_of_max hcheckpoint
          apply (Finset.mem_filter.mp hmem).2.1
        · apply ih hc

/-- One of the candidates that have a witness is selected, whatever is drawn. -/
theorem selectWitness_cases {timingPolicy : MigrationTimingPolicy}
    {anchorHeight activation : Nat} {candidates : List (Nat × Nat)}
    (hmined : selected.minedHeight = some mined)
    (hsub : (candidates.map (·.1)).Sublist (zip318AnchorCandidateBoundariesWithPolicy network
      timingPolicy anchorHeight mined activation))
    (genRange : (bound : Nat) → 0 < bound → Fin bound) (preferred : Option Nat) :
  ((∃ c ∈ candidates, Witnessed db network selected mined c.2) ∧ ∃ r,
      selectWitness db genRange network timingPolicy anchorHeight preferred selected candidates
        = .ok (some r))
    ∨ (¬ ∃ c ∈ candidates, Witnessed db network selected mined c.2)
      ∧ selectWitness db genRange network timingPolicy anchorHeight preferred selected candidates
        = .ok none
  := by
  obtain ⟨witnessable, hok, hwsub, hiff⟩ :=
    @witnessableCandidates_eq _ _ db network selected mined hmined candidates
  rw [← hiff, selectWitness, hok]
  by_cases hempty : witnessable = []
  · right
    subst hempty
    refine ⟨fun h => h rfl, ?_⟩
    have hnone : preferred.filter (· ∈ ([] : List Nat)) = none := by
      simp
    have hdraw : zip318DrawAnchorBoundaryFromAvailableWithPolicy network timingPolicy genRange
        anchorHeight [] = none := by
      simp [zip318DrawAnchorBoundaryFromAvailableWithPolicy]
    simp only [List.map_nil, ok_bind]
    rw [hnone, hdraw]
    rfl
  · left
    refine ⟨hempty, ?_⟩
    have hboundaries : witnessable.map (·.1) ≠ [] := by
      simpa using hempty
    obtain ⟨b, hb, hdraw⟩ :=
      draw_mem_available genRange hboundaries (hwsub.trans hsub)
    have hselected : ∃ b ∈ witnessable.map (·.1),
        (preferred.filter (· ∈ witnessable.map (·.1))).or
          (zip318DrawAnchorBoundaryFromAvailableWithPolicy network timingPolicy genRange
            anchorHeight (witnessable.map (·.1))) = some b := by
      cases hfilter : preferred.filter (· ∈ witnessable.map (·.1)) with
      | none => exact ⟨b, hb, hdraw⟩
      | some b' =>
        obtain ⟨-, hmem⟩ := Option.filter_eq_some_iff.mp hfilter
        exact ⟨b', by simpa using hmem, rfl⟩
    obtain ⟨b, hb, hor⟩ := hselected
    obtain ⟨w, hw, hwb⟩ := List.mem_map.mp hb
    obtain ⟨r, hr⟩ := Option.isSome_iff_exists.mp
      (List.find?_isSome.mpr ⟨w, hw, by simpa using hwb⟩ :
        (witnessable.find? (·.1 = b)).isSome)
    refine ⟨r, ?_⟩
    simp only [ok_bind]
    rw [hor]
    dsimp only
    rw [hr]
    rfl

/-! ### Both paths -/

/-- What both paths look at: the wallet's note, where it was mined and its candidates. -/
def inspected (db : WalletDatabase Anchor MerklePath) (network : WalletNetwork)
    (account : AccountUuid) (noteRef : PreparedOrchardNoteRef)
    (timingPolicy : MigrationTimingPolicy) :
    Option (OrchardReceivedNote × Nat × List (Nat × Nat)) := do
  guard (noteRef.noteVersion = 2)
  guard ((db.getAccount account).toOption = some true)
  let heights ← db.targetAndAnchorHeights.toOption
  let (_, anchorHeight) ← heights
  let availableNotes ← (selectSpendableOrchardV2Notes db account anchorHeight).toOption
  let selected ← findPrepared availableNotes noteRef
  (checkPrepared selected noteRef).toOption
  let mined ← selected.minedHeight
  let checkpoints ← db.checkpoints.toOption
  let activation ← db.nu63ActivationHeight
  return (selected, mined, availableOrchardAnchorCandidates checkpoints mined []
    (zip318AnchorCandidateBoundariesWithPolicy network timingPolicy anchorHeight mined
      activation))

variable {account : AccountUuid} {noteRef : PreparedOrchardNoteRef}
  {timingPolicy : MigrationTimingPolicy} {preferred : Option Nat} {candidates : List (Nat × Nat)}

/-- Both paths end alike before they come to the candidates, or come to the same ones. -/
theorem paths_cases (db : WalletDatabase Anchor MerklePath) (network : WalletNetwork)
    (account : AccountUuid) (noteRef : PreparedOrchardNoteRef) (preferred : Option Nat)
    (timingPolicy : MigrationTimingPolicy) :
  (inspected db network account noteRef timingPolicy = none
      ∧ orchardWitnessIsAvailableForPreparedNote db network account noteRef preferred timingPolicy
        ≠ .ok true
      ∧ ∀ genRange r, orchardAnchorAndWitnessForPreparedNote db genRange network account noteRef
        preferred timingPolicy ≠ .ok (some r))
    ∨ ∃ selected mined candidates anchorHeight activation candidates' preferred',
      inspected db network account noteRef timingPolicy = some (selected, mined, candidates)
      ∧ selected.minedHeight = some mined
      ∧ (candidates.map (·.1)).Sublist (zip318AnchorCandidateBoundariesWithPolicy network
        timingPolicy anchorHeight mined activation)
      ∧ (∀ c ∈ candidates, mined ≤ c.2)
      ∧ (∀ c, c ∈ candidates' ↔ c ∈ candidates)
      ∧ orchardWitnessIsAvailableForPreparedNote db network account noteRef preferred timingPolicy
        = anyWitnessAvailable db selected candidates'
      ∧ ∀ genRange, orchardAnchorAndWitnessForPreparedNote db genRange network account noteRef
        preferred timingPolicy
        = selectWitness db genRange network timingPolicy anchorHeight preferred' selected
          candidates
  := by
  unfold inspected orchardWitnessIsAvailableForPreparedNote orchardAnchorAndWitnessForPreparedNote
  by_cases hversion : noteRef.noteVersion = 2
  swap
  · left
    simp [hversion, ensure]
  rcases db.getAccount account with error | found
  · left
    simp [hversion, ensure, Except.toOption]
  cases found with
  | false =>
    left
    simp [hversion, ensure, Except.toOption]
  | true =>
  rcases db.targetAndAnchorHeights with error | heights
  · left
    simp [hversion, ensure, Except.toOption]
  rcases heights with _ | ⟨target, anchorHeight⟩
  · left
    simp [hversion, ensure, Except.toOption, okOr]
  rcases hnotes : selectSpendableOrchardV2Notes db account anchorHeight with error | notes
  · left
    simp [hversion, ensure, Except.toOption, okOr, hnotes]
  rcases hfind : findPrepared notes noteRef with _ | selected
  · left
    simp [hversion, ensure, Except.toOption, okOr, hnotes, hfind]
  rcases hcheck : checkPrepared selected noteRef with error | _
  · left
    simp [hversion, ensure, Except.toOption, okOr, hnotes, hfind, hcheck]
  rcases hmined : selected.minedHeight with _ | mined
  · left
    rcases db.nu63ActivationHeight with _ | activation <;>
      simp [hversion, ensure, Except.toOption, okOr, hnotes, hfind, hcheck, hmined]
  rcases db.checkpoints with error | checkpoints
  · left
    rcases db.nu63ActivationHeight with _ | activation <;>
      simp [hversion, ensure, Except.toOption, okOr, hnotes, hfind, hcheck, hmined]
  rcases db.nu63ActivationHeight with _ | activation
  · left
    simp [hversion, ensure, Except.toOption, okOr, hnotes, hfind, hcheck, hmined]
  right
  let candidates := availableOrchardAnchorCandidates checkpoints mined []
    (zip318AnchorCandidateBoundariesWithPolicy network timingPolicy anchorHeight mined activation)
  refine ⟨selected, mined, candidates, anchorHeight, activation,
    match preferred with
    | none => candidates
    | some preferred => preferFirst candidates preferred,
    preferred.filter fun boundary => zip318AnchorBoundaryIsCandidateWithPolicy network
      timingPolicy boundary anchorHeight mined activation && candidates.any (·.1 = boundary),
    ?_, hmined, availableOrchardAnchorCandidates_sublist,
    fun c hc => mined_le_of_mem_availableOrchardAnchorCandidates hc, ?_, ?_, ?_⟩
  · simp [hversion, Except.toOption, hnotes, hfind, hcheck, hmined, candidates]
  · intro c
    cases preferred with
    | none => rfl
    | some preferred => exact mem_preferFirst
  · simp [hversion, ensure, okOr, hnotes, hfind, hcheck, hmined, candidates]
  · simp [hversion, ensure, okOr, hnotes, hfind, hcheck, hmined, candidates]

/-- The status says that a note can be proved. -/
def SaysReady (db : WalletDatabase Anchor MerklePath) (network : WalletNetwork)
    (account : AccountUuid) (noteRef : PreparedOrchardNoteRef) (preferred : Option Nat)
    (timingPolicy : MigrationTimingPolicy) : Prop :=
  orchardWitnessIsAvailableForPreparedNote db network account noteRef preferred timingPolicy
    = .ok true

/-- With some draw, the proof has an anchor and a witness. -/
def Finalises (db : WalletDatabase Anchor MerklePath) (network : WalletNetwork)
    (account : AccountUuid) (noteRef : PreparedOrchardNoteRef) (preferred : Option Nat)
    (timingPolicy : MigrationTimingPolicy)
    (genRange : (bound : Nat) → 0 < bound → Fin bound) : Prop :=
  ∃ r, orchardAnchorAndWitnessForPreparedNote db genRange network account noteRef preferred
    timingPolicy = .ok (some r)

/-- The status says that a note can be proved exactly when a candidate has a witness. -/
theorem saysReady_iff :
  SaysReady db network account noteRef preferred timingPolicy
    ↔ ∃ selected mined candidates,
      inspected db network account noteRef timingPolicy = some (selected, mined, candidates)
      ∧ ∃ c ∈ candidates, HasWitness db selected c.2
  := by
  unfold SaysReady
  obtain ⟨hnone, hready, -⟩ | ⟨selected, mined, candidates, -, -, candidates', -, hsome, -, -, -,
      hmem, hready, -⟩ := paths_cases db network account noteRef preferred timingPolicy
  · simp [hnone, hready]
  · obtain ⟨ready, hok, hiff⟩ :=
      @anyWitnessAvailable_eq _ _ db selected candidates'
    rw [hready, hok, hsome]
    simp only [hmem] at hiff
    simpa using hiff

/-- Whatever is drawn, a note is proved exactly when a candidate has a witness from its
checkpoint on back. -/
theorem finalises_iff {genRange : (bound : Nat) → 0 < bound → Fin bound} :
  Finalises db network account noteRef preferred timingPolicy genRange
    ↔ ∃ selected mined candidates,
      inspected db network account noteRef timingPolicy = some (selected, mined, candidates)
      ∧ ∃ c ∈ candidates, Witnessed db network selected mined c.2
  := by
  unfold Finalises
  obtain ⟨hnone, -, hproof⟩ | ⟨selected, mined, candidates, anchorHeight, activation, -,
      preferred', hsome, hmined, hsub, -, -, -, hproof⟩ :=
    paths_cases db network account noteRef preferred timingPolicy
  · simp [hnone, hproof]
  · rw [hproof, hsome]
    obtain ⟨hhas, hok⟩ | ⟨hnot, hok⟩ :=
      @selectWitness_cases _ _ db _ _ _ _ _ _ _ hmined hsub genRange preferred'
    · constructor
      · intro _
        exact ⟨selected, mined, candidates, rfl, hhas⟩
      · intro _
        apply hok
    · rw [hok]
      simpa using hnot

/-- The status and the proof agree: the status says that a note can be proved exactly when some
draw proves it, and then every draw does. -/
def Agree (db : WalletDatabase Anchor MerklePath) (network : WalletNetwork)
    (account : AccountUuid) (noteRef : PreparedOrchardNoteRef) (preferred : Option Nat)
    (timingPolicy : MigrationTimingPolicy) : Prop :=
  (SaysReady db network account noteRef preferred timingPolicy
    ↔ ∃ genRange, Finalises db network account noteRef preferred timingPolicy genRange)
  ∧ (SaysReady db network account noteRef preferred timingPolicy →
    ∀ genRange, Finalises db network account noteRef preferred timingPolicy genRange)

/-- Of a regtest candidate whose checkpoint has no witness, no older checkpoint has one, unless
the checkpoint of another candidate has. -/
def NoOlderWitness (db : WalletDatabase Anchor MerklePath) (network : WalletNetwork)
    (account : AccountUuid) (noteRef : PreparedOrchardNoteRef)
    (timingPolicy : MigrationTimingPolicy) : Prop :=
  network = .regtest → ∀ selected mined candidates,
    inspected db network account noteRef timingPolicy = some (selected, mined, candidates) →
    (∃ c ∈ candidates, ∃ height, max (c.2 - zip318AnchorAgeCap) mined ≤ height ∧ height ≤ c.2
      ∧ HasWitness db selected height) →
    ∃ c ∈ candidates, HasWitness db selected c.2

/-- The checkpoints of the inspected candidates contain the note. -/
theorem mined_le_of_inspected
    (h : inspected db network account noteRef timingPolicy = some (selected, mined, candidates)) :
  ∀ c ∈ candidates, mined ≤ c.2
  := by
  obtain ⟨hnone, -⟩ | ⟨selected', mined', candidates', -, -, -, -, hsome, -, -, hle, -⟩ :=
    paths_cases db network account noteRef none timingPolicy
  · rw [hnone] at h
    contradiction
  · rw [hsome] at h
    cases h
    apply hle

theorem witnessed_of_hasWitness (hmined : mined ≤ height) (h : HasWitness db selected height) :
  Witnessed db network selected mined height
  := by
  unfold Witnessed
  split
  · apply h
  · exact ⟨height, by omega, le_rfl, h⟩

/-- A note of which the status says that it can be proved is proved, whatever is drawn. -/
theorem finalises_of_saysReady (genRange : (bound : Nat) → 0 < bound → Fin bound)
    (h : SaysReady db network account noteRef preferred timingPolicy) :
  Finalises db network account noteRef preferred timingPolicy genRange
  := by
  obtain ⟨selected, mined, candidates, hinspected, c, hc, hhas⟩ := saysReady_iff.mp h
  apply finalises_iff.mpr
  have hle := mined_le_of_inspected hinspected c hc
  exact ⟨selected, mined, candidates, hinspected, c, hc, witnessed_of_hasWitness hle hhas⟩

/-- Without a witness that is only at an older checkpoint, the status says of every note that is
proved that it can be. -/
theorem saysReady_of_finalises {genRange : (bound : Nat) → 0 < bound → Fin bound}
    (hnone : NoOlderWitness db network account noteRef timingPolicy)
    (h : Finalises db network account noteRef preferred timingPolicy genRange) :
  SaysReady db network account noteRef preferred timingPolicy
  := by
  obtain ⟨selected, mined, candidates, hinspected, c, hc, hwitnessed⟩ := finalises_iff.mp h
  apply saysReady_iff.mpr
  refine ⟨selected, mined, candidates, hinspected, ?_⟩
  unfold Witnessed at hwitnessed
  split at hwitnessed
  · exact ⟨c, hc, hwitnessed⟩
  · rename_i hregtest
    apply hnone (not_not.mp hregtest) selected mined candidates hinspected ⟨c, hc, hwitnessed⟩

theorem noOlderWitness_of_agree (h : Agree db network account noteRef preferred timingPolicy) :
  NoOlderWitness db network account noteRef timingPolicy
  := by
  rintro rfl selected mined candidates hinspected ⟨c, hc, hwitnessed⟩
  have hfinalises : Finalises db .regtest account noteRef preferred timingPolicy
      fun _ hpos => ⟨0, hpos⟩ := by
    apply finalises_iff.mpr
    refine ⟨selected, mined, candidates, hinspected, c, hc, ?_⟩
    unfold Witnessed
    rwa [if_neg (not_not.mpr rfl)]
  obtain ⟨selected', mined', candidates', hinspected', hhas⟩ :=
    saysReady_iff.mp (h.1.mpr ⟨_, hfinalises⟩)
  rw [hinspected] at hinspected'
  cases hinspected'
  apply hhas

/-- The status and the proof agree exactly where no regtest candidate has a witness only at a
checkpoint older than its own. -/
theorem readiness_agrees_iff (db : WalletDatabase Anchor MerklePath) (network : WalletNetwork)
    (account : AccountUuid) (noteRef : PreparedOrchardNoteRef) (preferred : Option Nat)
    (timingPolicy : MigrationTimingPolicy) :
  Agree db network account noteRef preferred timingPolicy
    ↔ NoOlderWitness db network account noteRef timingPolicy
  := by
  constructor
  · apply noOlderWitness_of_agree
  · intro hnone
    refine ⟨⟨fun h => ⟨fun _ hpos => ⟨0, hpos⟩, finalises_of_saysReady _ h⟩, ?_⟩,
      fun h genRange => finalises_of_saysReady genRange h⟩
    rintro ⟨genRange, h⟩
    apply saysReady_of_finalises hnone h

end

/-- A regtest wallet with a note that was mined at 50.  The newest checkpoints lie above a gap of
the tree, so that the note has a witness only at the checkpoint 92. -/
def walletWithGap : WalletDatabase Nat Nat where
  getAccount _ := .ok true
  targetAndAnchorHeights := .ok (some (101, 100))
  unspentOrchardNotes _ _ := .ok [⟨1, 0, .v2, 100000, 7, some 50⟩]
  checkpoints := .ok {92, 96, 97, 98, 99, 100}
  rootAtCheckpointId height := .ok (if height = 92 then some 1 else none)
  witnessAtCheckpointId _ height := .ok (if height = 92 then some 2 else none)
  nu63ActivationHeight := some 10

/-- The proof of a note in a wallet with a gap finds the witness at the older checkpoint, the
status does not. -/
theorem readiness_differs_with_gap :
  ¬ Agree walletWithGap .regtest 0 ⟨1, 0, 100000, 2, none⟩ none .standard
  := by
  intro h
  have hinspected : inspected walletWithGap .regtest 0 ⟨1, 0, 100000, 2, none⟩ .standard
      = some (⟨1, 0, .v2, 100000, 7, some 50⟩, 50,
        [(100, 100), (99, 99), (98, 98), (97, 97), (96, 96)]) := by
    decide
  obtain ⟨c, hc, anchor, merklePath, hroot, -⟩ :=
    noOlderWitness_of_agree h rfl _ _ _ hinspected
      ⟨(96, 96), by decide, 92, by decide, by decide, 1, 2, rfl, rfl⟩
  simp at hc
  obtain rfl | rfl | rfl | rfl | rfl := hc <;> simp [walletWithGap] at hroot

end ProofReadiness

end Vizor
