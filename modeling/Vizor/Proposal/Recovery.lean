import Vizor.Proposal.Locks

/-!
# Recovery of the locks of earlier processes

A process may end at any point: after the rows of a proposal are stored and before its inputs
are locked, after they are locked and before the proposal is known, and while a recovery
releases locks.  A recovery reads the rows of other sessions, which agree for each owner, and
releases what they list, unless the owner is retained and its locks have not expired.
-/

namespace Vizor

open Table Run

namespace Proposal

/-! ### Rows -/

/-- The rows of an owner agree, and every row names a pool. -/
structure LockDb.Consistent (rows : List LockRow) : Prop where
  pool : ∀ row ∈ rows, ∃ pool, row.poolCode = poolCode pool
  session : ∀ a ∈ rows, ∀ b ∈ rows, a.owner = b.owner → a.sessionId = b.sessionId
  expiry : ∀ a ∈ rows, ∀ b ∈ rows, a.owner = b.owner → a.expiryHeight = b.expiryHeight
  retain : ∀ a ∈ rows, ∀ b ∈ rows, a.owner = b.owner → a.retainUntilExpiry = b.retainUntilExpiry

namespace LockDb

variable {db db' : LockDb} {rows rows' : List LockRow} {owner : LockOwner}
  {sessionId : SessionId} {expiryHeight : Nat} {outputs : List OutputRef}

/-- Every row that is stored is one that was there or the row of an input. -/
theorem mem_foldl_upsert_lockRow {row : LockRow}
    (h : row ∈ outputs.foldl (fun rows output =>
      upsert LockRow.key (lockRow owner sessionId expiryHeight output) rows) rows) :
  row ∈ rows ∨ ∃ output ∈ outputs, row = lockRow owner sessionId expiryHeight output
  := by
  induction outputs generalizing rows with
  | nil => exact .inl h
  | cons output outputs ih =>
    rcases ih h with hrow | ⟨other, hother, rfl⟩
    · rcases mem_upsert.mp hrow with ⟨hrow, -⟩ | rfl
      · exact .inl hrow
      · exact .inr ⟨output, List.mem_cons_self, rfl⟩
    · exact .inr ⟨other, List.mem_cons_of_mem _ hother, rfl⟩

/-- The rows of an owner that is new agree with each other. -/
theorem Consistent.persist (h : Consistent db.rows) (hnew : ∀ row ∈ db.rows, row.owner ≠ owner) :
  Consistent (db.persist sessionId owner outputs expiryHeight).rows
  := by
  have hrows : ∀ row ∈ (db.persist sessionId owner outputs expiryHeight).rows, row ∈ db.rows
      ∨ ∃ output ∈ outputs, row = lockRow owner sessionId expiryHeight output :=
    fun row => mem_foldl_upsert_lockRow
  have hpair (f : LockRow → Nat) (hf : ∀ output output' : OutputRef,
        f (lockRow owner sessionId expiryHeight output)
          = f (lockRow owner sessionId expiryHeight output'))
      (hold : ∀ a ∈ db.rows, ∀ b ∈ db.rows, a.owner = b.owner → f a = f b) :
      ∀ a ∈ (db.persist sessionId owner outputs expiryHeight).rows,
        ∀ b ∈ (db.persist sessionId owner outputs expiryHeight).rows, a.owner = b.owner →
          f a = f b := by
    intro a ha b hb hsame
    rcases hrows a ha with ha | ⟨_, -, rfl⟩
    · rcases hrows b hb with hb | ⟨_, -, rfl⟩
      · apply hold a ha b hb hsame
      · exact absurd hsame (hnew a ha)
    · rcases hrows b hb with hb | ⟨_, -, rfl⟩
      · exact absurd hsame.symm (hnew b hb)
      · apply hf
  constructor
  · intro row hrow
    rcases hrows row hrow with hrow | ⟨output, -, rfl⟩
    · apply h.pool row hrow
    · exact ⟨output.pool, rfl⟩
  · apply hpair (·.sessionId) (fun _ _ => rfl) h.session
  · apply hpair (·.expiryHeight) (fun _ _ => rfl) h.expiry
  · intro a ha b hb hsame
    have hbits := hpair (fun row => row.retainUntilExpiry.toNat) (fun _ _ => rfl)
      (fun a ha b hb hsame => by rw [h.retain a ha b hb hsame]) a ha b hb hsame
    revert hbits
    cases a.retainUntilExpiry <;> cases b.retainUntilExpiry <;> simp

theorem Consistent.of_subset (h : Consistent rows) (hsub : rows' ⊆ rows) :
  Consistent rows'
  := ⟨fun row hrow => h.pool row (hsub hrow),
    fun a ha b hb => h.session a (hsub ha) b (hsub hb),
    fun a ha b hb => h.expiry a (hsub ha) b (hsub hb),
    fun a ha b hb => h.retain a (hsub ha) b (hsub hb)⟩

/-- A change of all the rows of an owner keeps the rows in agreement. -/
theorem Consistent.updateOwner (h : Consistent rows) {f : LockRow → LockRow}
    (howner : ∀ row, (f row).owner = row.owner) (hpool : ∀ row, (f row).poolCode = row.poolCode)
    (hsession : ∀ row, (f row).sessionId = row.sessionId)
    (hexpiry : ∀ a b, a.expiryHeight = b.expiryHeight → (f a).expiryHeight = (f b).expiryHeight)
    (hretain : ∀ a b, a.retainUntilExpiry = b.retainUntilExpiry →
      (f a).retainUntilExpiry = (f b).retainUntilExpiry) :
  Consistent (updateWhere (fun row => row.owner = owner) f rows)
  := by
  have hkept : ∀ row, (if decide (row.owner = owner) = true then f row else row).owner
      = row.owner := by
    intro row
    split
    · apply howner
    · rfl
  constructor
  · intro row' hrow'
    obtain ⟨row, hrow, rfl⟩ := mem_updateWhere.mp hrow'
    obtain ⟨pool, hcode⟩ := h.pool row hrow
    refine ⟨pool, ?_⟩
    split
    · rw [hpool, hcode]
    · apply hcode
  · intro a' ha' b' hb' hsame
    obtain ⟨a, ha, rfl⟩ := mem_updateWhere.mp ha'
    obtain ⟨b, hb, rfl⟩ := mem_updateWhere.mp hb'
    rw [hkept, hkept] at hsame
    have hagree := h.session a ha b hb hsame
    rw [hsame]
    split <;> simp [hsession, hagree]
  · intro a' ha' b' hb' hsame
    obtain ⟨a, ha, rfl⟩ := mem_updateWhere.mp ha'
    obtain ⟨b, hb, rfl⟩ := mem_updateWhere.mp hb'
    rw [hkept, hkept] at hsame
    have hagree := h.expiry a ha b hb hsame
    rw [hsame]
    split
    · apply hexpiry a b hagree
    · apply hagree
  · intro a' ha' b' hb' hsame
    obtain ⟨a, ha, rfl⟩ := mem_updateWhere.mp ha'
    obtain ⟨b, hb, rfl⟩ := mem_updateWhere.mp hb'
    rw [hkept, hkept] at hsame
    have hagree := h.retain a ha b hb hsame
    rw [hsame]
    split
    · apply hretain a b hagree
    · apply hagree

/-! ### Reading the locks of other sessions -/

/-- Every output of the locks is listed by a row of their owner, with their expiry and their
retention. -/
def ListedBy (rows : List LockRow) (locks : List OrphanLocks) : Prop :=
  ∀ entry ∈ locks, entry.outputs ≠ [] ∧ ∀ output ∈ entry.outputs, ∃ row ∈ rows,
    row.owner = entry.owner ∧ row.expiryHeight = entry.expiryHeight
      ∧ row.retainUntilExpiry = entry.retainUntilExpiry ∧ row.txid = output.txid
      ∧ row.poolCode = poolCode output.pool ∧ row.outputIndex = output.outputIndex

/-- A row of consistent rows is added to locks that they list. -/
theorem addOrphanRow_listedBy (h : Consistent rows) {locks : List OrphanLocks}
    (hlocks : ListedBy rows locks) {row : LockRow} (hrow : row ∈ rows) :
  ∃ locks', addOrphanRow locks row = .ok locks' ∧ ListedBy rows locks'
  := by
  have hagree : ∀ entry ∈ locks, entry.owner = row.owner →
      entry.expiryHeight = row.expiryHeight
        ∧ entry.retainUntilExpiry = row.retainUntilExpiry := by
    intro entry hentry howner
    obtain ⟨hne, hlisted⟩ := hlocks entry hentry
    obtain ⟨output, houtput⟩ := List.exists_mem_of_ne_nil _ hne
    obtain ⟨first, hfirst, hfirstOwner, hexpiry, hretain, -⟩ := hlisted output houtput
    rw [← hexpiry, ← hretain]
    have hsame := hfirstOwner.trans howner
    exact ⟨h.expiry first hfirst row hrow hsame, h.retain first hfirst row hrow hsame⟩
  obtain ⟨pool, hcode⟩ := h.pool row hrow
  have hpool : poolFromCode row.poolCode = .ok pool := by
    rw [hcode, poolFromCode_poolCode]
  rw [addOrphanRow, ensure, if_pos hagree, hpool]
  refine ⟨_, rfl, ?_⟩
  split
  · intro entry' hentry'
    obtain ⟨entry, hentry, rfl⟩ := mem_updateWhere.mp hentry'
    split
    · rename_i howner
      rw [decide_eq_true_eq] at howner
      obtain ⟨hexpiry, hretain⟩ := hagree entry hentry howner
      refine ⟨by simp, ?_⟩
      intro output houtput
      rcases List.mem_append.mp houtput with houtput | houtput
      · apply (hlocks entry hentry).2 output houtput
      · rw [List.mem_singleton] at houtput
        subst houtput
        exact ⟨row, hrow, howner.symm, hexpiry.symm, hretain.symm, rfl, hcode, rfl⟩
    · apply hlocks entry hentry
  · intro entry hentry
    rcases List.mem_append.mp hentry with hentry | hentry
    · apply hlocks entry hentry
    · rw [List.mem_singleton] at hentry
      subst hentry
      refine ⟨List.cons_ne_nil _ _, ?_⟩
      intro output houtput
      rw [List.mem_singleton] at houtput
      subst houtput
      exact ⟨row, hrow, rfl, rfl, rfl, rfl, hcode, rfl⟩

/-- The locks of other sessions are read from consistent rows without an error. -/
theorem readPreviousSessionLocks_listedBy (sessionId : SessionId) (h : Consistent db.rows) :
  ∃ locks, db.readPreviousSessionLocks sessionId = .ok locks
    ∧ ListedBy (db.rows.filter (·.sessionId ≠ sessionId)) locks
  := by
  have hothers : Consistent (db.rows.filter (·.sessionId ≠ sessionId)) :=
    h.of_subset (List.filter_subset_self _)
  have hloop : ∀ (rows : List LockRow) (locks : List OrphanLocks),
      rows ⊆ db.rows.filter (·.sessionId ≠ sessionId) →
      ListedBy (db.rows.filter (·.sessionId ≠ sessionId)) locks →
      ∃ locks', rows.foldlM addOrphanRow locks = .ok locks'
        ∧ ListedBy (db.rows.filter (·.sessionId ≠ sessionId)) locks' := by
    intro rows
    induction rows with
    | nil => exact fun locks _ hlocks => ⟨locks, rfl, hlocks⟩
    | cons row rows ih =>
      intro locks hrows hlocks
      obtain ⟨hrow, hrest⟩ := List.cons_subset.mp hrows
      obtain ⟨locks', hadd, hlocks'⟩ := addOrphanRow_listedBy hothers hlocks hrow
      obtain ⟨locks'', hloop, hlocks''⟩ := ih locks' hrest hlocks'
      refine ⟨locks'', ?_, hlocks''⟩
      rw [List.foldlM_cons, hadd]
      apply hloop
  apply hloop
  · intro row hrow
    rwa [List.mem_insertionSort] at hrow
  · intro entry hentry
    cases hentry

/-! ### Releasing the locks of other sessions -/

/-- An unlock releases the lock of the owner only. -/
theorem holder_unlockOutput {output other : OutputRef} {o : LockOwner}
    (hheld : db.holder other = some o) (hreleased : (db.unlockOutput output owner).holder other
      ≠ some o) :
  other = output ∧ o = owner
  := by
  unfold unlockOutput at hreleased
  dsimp only at hreleased
  split at hreleased
  · rename_i hmatch
    obtain ⟨hsame, howner⟩ := hmatch
    rw [hheld, Option.some_inj] at howner
    exact ⟨hsame, howner⟩
  · exact absurd hheld hreleased

/-- Unlocks release what they list. -/
theorem holder_foldl_unlockOutput {unlocks : List (LockOwner × OutputRef)} {output : OutputRef}
    {o : LockOwner} (hheld : db.holder output = some o)
    (hreleased : (unlocks.foldl (fun db unlock => db.unlockOutput unlock.2 unlock.1) db).holder
      output ≠ some o) :
  (o, output) ∈ unlocks
  := by
  induction unlocks generalizing db with
  | nil => exact absurd hheld hreleased
  | cons unlock unlocks ih =>
    by_cases hstill : (db.unlockOutput unlock.2 unlock.1).holder output = some o
    · apply List.mem_cons_of_mem
      apply ih hstill hreleased
    · obtain ⟨rfl, rfl⟩ := holder_unlockOutput hheld hstill
      apply List.mem_cons_self

theorem mem_orphanUnlocks {released : List OrphanLocks} {o : LockOwner} {output : OutputRef} :
  (o, output) ∈ orphanUnlocks released
    ↔ ∃ entry ∈ released, entry.owner = o ∧ output ∈ entry.outputs
  := by
  simp only [orphanUnlocks, List.mem_flatMap, List.mem_map, Prod.mk.injEq]
  constructor
  · rintro ⟨entry, hentry, other, hother, rfl, rfl⟩
    exact ⟨entry, hentry, rfl, hother⟩
  · rintro ⟨entry, hentry, rfl, houtput⟩
    exact ⟨entry, hentry, output, houtput, rfl, rfl⟩

/-- A recovery releases locks whose owner has rows of another session and is not retained, or
has expired. -/
theorem recoverPreviousProcess_releases (h : Consistent db.rows) (targetHeight : Option Nat)
    (stop : Nat) :
  ∃ db', db.recoverPreviousProcess sessionId targetHeight stop = .ok db'
    ∧ ∀ output o, db.holder output = some o → db'.holder output ≠ some o →
      (∃ row ∈ db.rows, row.owner = o) ∧ ∀ row ∈ db.rows, row.owner = o →
        row.sessionId ≠ sessionId
          ∧ (row.retainUntilExpiry = true → ∃ height, targetHeight = some height
            ∧ row.expiryHeight ≤ height)
  := by
  obtain ⟨locks, hread, hlisted⟩ := readPreviousSessionLocks_listedBy sessionId h
  rw [recoverPreviousProcess, hread]
  refine ⟨_, rfl, ?_⟩
  intro output o hheld hreleased
  set released := releasedLocks locks targetHeight with hreleasedLocks
  have hunlocked : (((orphanUnlocks released).take stop).foldl
      (fun db unlock => db.unlockOutput unlock.2 unlock.1) db).holder output ≠ some o := by
    split at hreleased <;> exact hreleased
  have hmem := List.mem_of_mem_take (holder_foldl_unlockOutput hheld hunlocked)
  obtain ⟨entry, hentry, rfl, houtput⟩ := mem_orphanUnlocks.mp hmem
  obtain ⟨hlock, hshould⟩ := List.mem_filter.mp hentry
  obtain ⟨first, hfirst, howner, hexpiry, hretain, -⟩ := (hlisted entry hlock).2 output houtput
  obtain ⟨hfirstMem, hfirstSession⟩ := List.mem_filter.mp hfirst
  rw [decide_eq_true_eq] at hfirstSession
  refine ⟨⟨first, hfirstMem, howner⟩, ?_⟩
  intro row hrow hrowOwner
  have hsame := hrowOwner.trans howner.symm
  constructor
  · rw [h.session row hrow first hfirstMem hsame]
    apply hfirstSession
  · intro hretained
    rw [h.retain row hrow first hfirstMem hsame, hretain] at hretained
    rw [h.expiry row hrow first hfirstMem hsame, hexpiry]
    simpa [shouldReleaseAfterRestart, hretained, Option.any_eq_true] using hshould

end LockDb

/-! ### Processes -/

/-- The rows and the locks, and the session of the process. -/
structure LockSession where
  db : LockDb
  sessionId : SessionId

/-- What a process does to the rows and the locks, and its end. -/
inductive LockStep where
  | persist (owner : LockOwner) (outputs : List OutputRef) (expiryHeight : Nat)
  | lockOutputs (outputs : List OutputRef) (owner : LockOwner) (expired : OutputRef → Bool)
  | unlockOutputs (outputs : List OutputRef) (owner : LockOwner)
  | remove (owner : LockOwner)
  | markRetainUntilExpiry (owner : LockOwner)
  | updateExpiry (owner : LockOwner) (expiryHeight : Nat)
  | recoverPreviousProcess (targetHeight : Option Nat) (stop : Nat)
  /-- The process ends, and the next one draws its session. -/
  | crash (sessionId : SessionId)

namespace LockSession

variable {s s' : LockSession} {migration : LockOwner → Prop}

/-- Run a step. -/
def apply (s : LockSession) : LockStep → Except String LockSession
  | .persist owner outputs expiryHeight =>
    .ok { s with db := s.db.persist s.sessionId owner outputs expiryHeight }
  | .lockOutputs outputs owner expired => do
    return { s with db := ← s.db.lockOutputs outputs owner expired }
  | .unlockOutputs outputs owner => .ok { s with db := s.db.unlockOutputs outputs owner }
  | .remove owner => .ok { s with db := s.db.remove owner }
  | .markRetainUntilExpiry owner => do
    return { s with db := ← s.db.markRetainUntilExpiry owner }
  | .updateExpiry owner expiryHeight => do
    return { s with db := ← s.db.updateExpiry owner expiryHeight }
  | .recoverPreviousProcess targetHeight stop => do
    return { s with db := ← s.db.recoverPreviousProcess s.sessionId targetHeight stop }
  | .crash sessionId => .ok { s with sessionId := sessionId }

/-- The state after a step; one that fails changes nothing. -/
def step (s : LockSession) (op : LockStep) : LockSession :=
  committed s (s.apply op)

/-- Owners are drawn at random for each proposal, and sessions for each process; a migration
run does not own a proposal. -/
def Drawn (migration : LockOwner → Prop) (s : LockSession) : LockStep → Prop
  | .persist owner _ _ => ¬migration owner ∧ ∀ row ∈ s.db.rows, row.owner ≠ owner
  | .crash sessionId => ∀ row ∈ s.db.rows, row.sessionId ≠ sessionId
  | _ => True

/-- The rows agree for each owner, and belong to no migration run. -/
structure Sound (migration : LockOwner → Prop) (s : LockSession) : Prop where
  consistent : LockDb.Consistent s.db.rows
  proposals : ∀ row ∈ s.db.rows, ¬migration row.owner

theorem Sound.of_rows_subset (h : Sound migration s) (hrows : s'.db.rows ⊆ s.db.rows) :
  Sound migration s'
  := ⟨h.consistent.of_subset hrows, fun row hrow => h.proposals row (hrows hrow)⟩

theorem rows_foldl_unlockOutput {db : LockDb} {unlocks : List (LockOwner × OutputRef)} :
  (unlocks.foldl (fun db unlock => db.unlockOutput unlock.2 unlock.1) db).rows = db.rows
  := by
  induction unlocks generalizing db with
  | nil => rfl
  | cons unlock unlocks ih =>
    rw [List.foldl_cons, ih]
    rfl

theorem apply_sound {op : LockStep} (h : Sound migration s) (hop : Drawn migration s op)
    (happly : s.apply op = .ok s') :
  Sound migration s'
  := by
  cases op with
  | persist owner outputs expiryHeight =>
    cases happly
    refine ⟨h.consistent.persist hop.2, ?_⟩
    intro row hrow
    rcases LockDb.mem_foldl_upsert_lockRow hrow with hrow | ⟨output, -, rfl⟩
    · apply h.proposals row hrow
    · apply hop.1
  | lockOutputs outputs owner expired =>
    simp only [apply, LockDb.lockOutputs, bind_eq_ok, pure_eq_ok] at happly
    obtain ⟨_, ⟨_, -, rfl⟩, rfl⟩ := happly
    exact ⟨h.consistent, h.proposals⟩
  | unlockOutputs outputs owner =>
    cases happly
    apply h.of_rows_subset
    rw [LockDb.rows_unlockOutputs]
    apply List.Subset.refl
  | remove owner =>
    cases happly
    apply h.of_rows_subset (List.filter_subset_self _)
  | markRetainUntilExpiry owner =>
    simp only [apply, LockDb.markRetainUntilExpiry, bind_eq_ok, pure_eq_ok] at happly
    obtain ⟨_, ⟨_, -, rfl⟩, rfl⟩ := happly
    constructor
    · apply h.consistent.updateOwner <;> intros <;> first | rfl | assumption
    · intro row' hrow'
      obtain ⟨row, hrow, rfl⟩ := mem_updateWhere.mp hrow'
      split <;> exact h.proposals row hrow
  | updateExpiry owner expiryHeight =>
    simp only [apply, LockDb.updateExpiry, bind_eq_ok, pure_eq_ok] at happly
    obtain ⟨_, ⟨_, -, rfl⟩, rfl⟩ := happly
    constructor
    · apply h.consistent.updateOwner <;> intros <;> first | rfl | assumption
    · intro row' hrow'
      obtain ⟨row, hrow, rfl⟩ := mem_updateWhere.mp hrow'
      split <;> exact h.proposals row hrow
  | recoverPreviousProcess targetHeight stop =>
    simp only [apply, LockDb.recoverPreviousProcess, bind_eq_ok, pure_eq_ok] at happly
    obtain ⟨_, ⟨locks, -, rfl⟩, rfl⟩ := happly
    apply h.of_rows_subset
    dsimp only
    split
    · rw [rows_foldl_unlockOutput]
      apply List.Subset.refl
    · apply List.Subset.trans (List.filter_subset_self _)
      rw [rows_foldl_unlockOutput]
      apply List.Subset.refl
  | crash sessionId =>
    cases happly
    exact ⟨h.consistent, h.proposals⟩

theorem step_sound {op : LockStep} (h : Sound migration s) (hop : Drawn migration s op) :
  Sound migration (s.step op)
  := by
  unfold step committed
  split
  · apply apply_sound h hop ‹_›
  · apply h

/-- A process that starts without rows, with any locks in the wallet. -/
def started (holder : OutputRef → Option LockOwner) (sessionId : SessionId) : LockSession where
  db := { holder := holder }
  sessionId := sessionId

/-- In every state that is reached from a wallet without rows, a recovery reads the rows
without an error.  A lock that it releases, up to any point, is not the lock of a migration
run; its owner has rows, which are all of other sessions, and if the owner is retained then
its expiry height is reached. -/
theorem recovery_releases_orphans (migration : LockOwner → Prop)
    (holder : OutputRef → Option LockOwner) (sessionId : SessionId) {ops : List LockStep}
    (hops : Along step (Drawn migration) (started holder sessionId) ops)
    (targetHeight : Option Nat) (stop : Nat) :
  ∃ db', (after step (started holder sessionId) ops).db.recoverPreviousProcess
      (after step (started holder sessionId) ops).sessionId targetHeight stop = .ok db'
    ∧ ∀ output o, (after step (started holder sessionId) ops).db.holder output = some o →
      db'.holder output ≠ some o →
        ¬migration o
          ∧ (∃ row ∈ (after step (started holder sessionId) ops).db.rows, row.owner = o)
          ∧ ∀ row ∈ (after step (started holder sessionId) ops).db.rows, row.owner = o →
            row.sessionId ≠ (after step (started holder sessionId) ops).sessionId
              ∧ (row.retainUntilExpiry = true → ∃ height, targetHeight = some height
                ∧ row.expiryHeight ≤ height)
  := by
  have hstart : Sound migration (started holder sessionId) := by
    constructor
    · constructor <;> intro row hrow <;> cases hrow
    · intro row hrow
      cases hrow
  have hsound := Run.invariant (I := Sound migration) (fun _ _ => step_sound) hstart hops
  obtain ⟨db', hrecover, hreleases⟩ :=
    LockDb.recoverPreviousProcess_releases hsound.consistent targetHeight stop
  refine ⟨db', hrecover, ?_⟩
  intro output o hheld hreleased
  obtain ⟨⟨row, hrow, howner⟩, hrows⟩ := hreleases output o hheld hreleased
  refine ⟨?_, ⟨row, hrow, howner⟩, hrows⟩
  rw [← howner]
  apply hsound.proposals row hrow

/-- An input of a proposal. -/
def sampleOutput : OutputRef := ⟨5, .orchard, 0⟩

/-- The input is locked for owner 1 up to height 100, and the process ends. -/
def sampleLost : List LockStep := [
  .persist 1 [sampleOutput] 100, .lockOutputs [sampleOutput] 1 (fun _ => false), .crash 12]

/-- The input is locked and retained, and the process ends. -/
def sampleRetained : List LockStep := [
  .persist 1 [sampleOutput] 100, .lockOutputs [sampleOutput] 1 (fun _ => false),
  .markRetainUntilExpiry 1, .crash 12]

/-- The state after steps from a wallet without locks. -/
def sampleAfter (ops : List LockStep) : LockSession :=
  after step (started (fun _ => none) 11) ops

/-- The lock of the lost process is released. -/
theorem recovery_releases_orphans_lost :
  ∃ db', (sampleAfter sampleLost).db.recoverPreviousProcess (sampleAfter sampleLost).sessionId
      (some 50) 2 = .ok db'
    ∧ ((sampleAfter sampleLost).db.holder sampleOutput = some 1 →
      db'.holder sampleOutput ≠ some 1 →
        ∀ row ∈ (sampleAfter sampleLost).db.rows, row.owner = 1 → row.sessionId ≠ 12)
  := by
  have hops : Along step (Drawn fun _ => False) (started (fun _ => none) 11) sampleLost :=
    ⟨⟨id, fun row hrow => by cases hrow⟩, trivial,
      show ∀ row ∈ [lockRow 1 11 100 sampleOutput], row.sessionId ≠ 12 by decide, trivial⟩
  obtain ⟨db', hrecover, hreleases⟩ :=
    recovery_releases_orphans (fun _ => False) (fun _ => none) 11 hops (some 50) 2
  refine ⟨db', hrecover, ?_⟩
  intro hheld hreleased row hrow howner
  obtain ⟨-, -, hrows⟩ := hreleases sampleOutput 1 hheld hreleased
  apply (hrows row hrow howner).1

/-- The owner of the input after a recovery. -/
def sampleRecovered (ops : List LockStep) (targetHeight : Nat) : Except String (Option LockOwner) :=
  ((sampleAfter ops).db.recoverPreviousProcess 12 (some targetHeight) 2).map
    (·.holder sampleOutput)

/-- A lock that is not retained is released inside its expiry, and one that is retained is
released after it. -/
theorem sampleRecovered_released :
  (sampleAfter sampleLost).db.holder sampleOutput = some 1
    ∧ (sampleRecovered sampleLost 50).toOption = some none
    ∧ (sampleAfter sampleRetained).db.holder sampleOutput = some 1
    ∧ (sampleRecovered sampleRetained 50).toOption = some (some 1)
    ∧ (sampleRecovered sampleRetained 100).toOption = some none
  := by decide +kernel

end LockSession

end Proposal

end Vizor
