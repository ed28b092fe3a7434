import Vizor.Proposal.Store

/-!
# Records, rows and locks of send proposals

What holds between the steps of the calls that share the store of proposals: every record is
known under its own identifier and owner, the inputs of a record have rows, and a lock of an
owner that was drawn has a row until the owner is given up.  Each change of the store, of the
rows and of the locks keeps this.
-/

namespace Vizor

open Table Run Interleave

namespace Proposal

/-! ### Rows and locks -/

namespace LockDb

variable {db : LockDb} {owner o : LockOwner} {output : OutputRef} {outputs : List OutputRef}

/-- The key of the row of an input. -/
def rowKey (owner : LockOwner) (output : OutputRef) : LockOwner × Nat × Nat × Nat :=
  (owner, output.txid, poolCode output.pool, output.outputIndex)

/-- An owner has a row for an input. -/
def Lists (db : LockDb) (owner : LockOwner) (output : OutputRef) : Prop :=
  ∃ row ∈ db.rows, row.key = rowKey owner output

/-- The rows of the other keys stay, and each input gets its row. -/
theorem mem_keys_foldl_upsert {sessionId : SessionId} {expiryHeight : Nat} {rows : List LockRow}
    {k : LockOwner × Nat × Nat × Nat}
    (h : (∃ row ∈ rows, row.key = k) ∨ ∃ output ∈ outputs, rowKey owner output = k) :
  ∃ row ∈ outputs.foldl (fun rows output =>
    upsert LockRow.key (lockRow owner sessionId expiryHeight output) rows) rows, row.key = k
  := by
  induction outputs generalizing rows with
  | nil =>
    rcases h with h | ⟨_, hmem, -⟩
    · apply h
    · cases hmem
  | cons first outputs ih =>
    apply ih
    have hfirst : (lockRow owner sessionId expiryHeight first).key = rowKey owner first := rfl
    by_cases hkey : rowKey owner first = k
    · exact .inl ⟨_, mem_upsert.mpr (.inr rfl), hfirst.trans hkey⟩
    · rcases h with ⟨row, hrow, rfl⟩ | ⟨output, houtput, rfl⟩
      · exact .inl ⟨row, mem_upsert.mpr (.inl ⟨hrow, Ne.symm hkey⟩), rfl⟩
      · rcases List.mem_cons.mp houtput with rfl | houtput
        · exact absurd rfl hkey
        · exact .inr ⟨output, houtput, rfl⟩

theorem Lists.persist {sessionId : SessionId} {expiryHeight : Nat} (h : db.Lists o output) :
  (db.persist sessionId owner outputs expiryHeight).Lists o output
  := mem_keys_foldl_upsert (.inl h)

theorem lists_persist {sessionId : SessionId} {expiryHeight : Nat} (h : output ∈ outputs) :
  (db.persist sessionId owner outputs expiryHeight).Lists owner output
  := mem_keys_foldl_upsert (.inr ⟨output, h, rfl⟩)

/-- The removal of the rows of an owner keeps the rows of the others. -/
theorem Lists.removeUnless (h : db.Lists o output) (hne : o ≠ owner) (error : Option String) :
  (db.removeUnless owner error).Lists o output
  := by
  cases error with
  | some error => exact h
  | none =>
    obtain ⟨row, hrow, hkey⟩ := h
    refine ⟨row, mem_deleteWhere.mpr ⟨hrow, ?_⟩, hkey⟩
    have howner : row.owner = o := congrArg Prod.fst hkey
    simpa [howner] using hne

@[simp]
theorem holder_removeUnless {error : Option String} :
  (db.removeUnless owner error).holder = db.holder
  := by
  cases error <;> rfl

/-- A change of rows that keeps their keys keeps what they list. -/
theorem Lists.updateWhere (h : db.Lists o output) {p : LockRow → Bool} {f : LockRow → LockRow}
    (hkey : ∀ row, (f row).key = row.key) :
  ({ db with rows := updateWhere p f db.rows } : LockDb).Lists o output
  := by
  obtain ⟨row, hrow, hlists⟩ := h
  refine ⟨_, mem_updateWhere.mpr ⟨row, hrow, rfl⟩, ?_⟩
  split
  · rw [hkey, hlists]
  · apply hlists

/-- What `unlockOutputs` releases. -/
theorem holder_unlockOutputs :
  (db.unlockOutputs outputs owner).holder output
    = if output ∈ outputs ∧ db.holder output = some owner then none else db.holder output
  := by
  unfold LockDb.unlockOutputs
  induction outputs generalizing db with
  | nil => simp
  | cons first outputs ih =>
    rw [List.foldl_cons, ih, unlockOutput]
    dsimp only
    by_cases hfirst : output = first ∧ db.holder output = some owner
    · simp [hfirst.1]
    · grind

@[simp]
theorem rows_unlockProposalInputs {error : Option (Nat × String)} :
  (db.unlockProposalInputs outputs owner error).rows = db.rows
  := by
  rcases error with - | ⟨unlocked, error⟩ <;> exact rows_unlockOutputs

/-- An unlock of inputs releases locks of the owner only. -/
theorem holder_unlockProposalInputs {error : Option (Nat × String)} {holder : LockOwner}
    (h : (db.unlockProposalInputs outputs owner error).holder output = some holder) :
  db.holder output = some holder
  := by
  rcases error with - | ⟨unlocked, error⟩
  · simp only [unlockProposalInputs, holder_unlockOutputs] at h
    split at h
    · cases h
    · apply h
  · simp only [unlockProposalInputs, holder_unlockOutputs] at h
    split at h
    · cases h
    · apply h

theorem holder_unlockProposalInputs_eq_none {error : Option (Nat × String)}
    (hheld : db.holder output = some o)
    (h : (db.unlockProposalInputs outputs owner error).holder output = none) :
  o = owner
  := by
  rcases error with - | ⟨unlocked, error⟩
  all_goals
    simp only [unlockProposalInputs, holder_unlockOutputs] at h
    split at h
    · rename_i hreleased
      rw [hheld, Option.some_inj] at hreleased
      apply hreleased.2
    · rw [hheld] at h
      cases h

/-- What a successful lock of inputs does. -/
theorem lockOutputs_eq_ok {db' : LockDb} {expired : OutputRef → Bool}
    (h : db.lockOutputs outputs owner expired = .ok db') :
  db' = { db with holder := fun output =>
    if output ∈ outputs then some owner else db.holder output }
  := by
  simp only [lockOutputs, bind_eq_ok, pure_eq_ok] at h
  obtain ⟨_, -, rfl⟩ := h
  rfl

/-- What a successful change of the rows of an owner does. -/
theorem updateExpiry_eq_ok {db' : LockDb} {expiryHeight : Nat}
    (h : db.updateExpiry owner expiryHeight = .ok db') :
  db'.holder = db.holder ∧ ∀ o output, db.Lists o output → db'.Lists o output
  := by
  simp only [LockDb.updateExpiry, bind_eq_ok, pure_eq_ok] at h
  obtain ⟨_, -, rfl⟩ := h
  exact ⟨rfl, fun o output hlists => hlists.updateWhere fun _ => rfl⟩

theorem markRetainUntilExpiry_eq_ok {db' : LockDb} (h : db.markRetainUntilExpiry owner = .ok db') :
  db'.holder = db.holder ∧ ∀ o output, db.Lists o output → db'.Lists o output
  := by
  simp only [LockDb.markRetainUntilExpiry, bind_eq_ok, pure_eq_ok] at h
  obtain ⟨_, -, rfl⟩ := h
  exact ⟨rfl, fun o output hlists => hlists.updateWhere fun _ => rfl⟩

end LockDb

variable {w w' : ProposalWallet} {id : ProposalId} {owner o : LockOwner} {db : LockDb}

namespace ProposalWallet

theorem run_eq_ok {α : Type} {a : Answer} {result : Except String α} {x : α}
    (h : a.run result = .ok x) :
  result = .ok x
  := by
  unfold Answer.run at h
  split at h
  · cases h
  · apply h

/-! ### What holds between the steps -/

/-- An owner was drawn for the inputs of a proposal. -/
def Drawn (w : ProposalWallet) (owner : LockOwner) : Prop :=
  ∃ d ∈ w.drawn, d.1 = owner

/-- Identifiers and owners are those of one proposal; a record is known, and its inputs have
rows; a proposal that is consumed is not there any more; a lock of a drawn owner is on an
input for which it was drawn, and has a row unless the owner was given up; an owner whose
record was retained has no record. -/
structure Sound (w : ProposalWallet) : Prop where
  ids : ∀ k ∈ w.known, ∀ k' ∈ w.known, k.proposalId = k'.proposalId → k = k'
  owners : ∀ k ∈ w.known, ∀ k' ∈ w.known, k.owner = k'.owner → k = k'
  next : ∀ k ∈ w.known, k.proposalId < w.store.nextId
  known : ∀ k ∈ w.known, (k.owner, k.inputs) ∈ w.drawn
  drawn : ∀ d ∈ w.drawn, ∀ d' ∈ w.drawn, d.1 = d'.1 → d = d'
  locks : ∀ lock ∈ w.store.locks, lock ∈ w.known
  proposals : ∀ stored ∈ w.store.proposals, ∃ k ∈ w.known, k.proposalId = stored.proposalId
    ∧ k.sendFlowId = stored.sendFlowId ∧ k.inputs = stored.inputs
  consumed : ∀ c ∈ w.consumed, (∃ k ∈ w.known, k.proposalId = c.1 ∧ k.sendFlowId = c.2)
    ∧ ∀ stored ∈ w.store.proposals, stored.proposalId ≠ c.1
  once : (w.consumed.map Prod.fst).Nodup
  held : ∀ x o, w.db.holder x = some o → ∀ d ∈ w.drawn, d.1 = o → x ∈ d.2
  rows : ∀ x o, w.db.holder x = some o → w.Drawn o → o ∉ w.untracked → w.db.Lists o x
  records : ∀ lock ∈ w.store.locks, ∀ x ∈ lock.inputs, w.db.Lists lock.owner x
  retained : ∀ o ∈ w.retained, w.Drawn o ∧ ∀ lock ∈ w.store.locks, lock.owner ≠ o

namespace Sound

/-- The write lock is taken or released. -/
theorem write (h : Sound w) (writing : Bool) : Sound { w with writing := writing }
  := ⟨h.ids, h.owners, h.next, h.known, h.drawn, h.locks, h.proposals, h.consumed, h.once, h.held,
    h.rows, h.records, h.retained⟩

/-- Locks are released, and rows keep what they list. -/
theorem of_db (h : Sound w)
    (hholder : ∀ x o, db.holder x = some o → w.db.holder x = some o)
    (hlists : ∀ o x, w.db.Lists o x → db.Lists o x) :
  Sound { w with db := db }
  := { h with
    held := fun x o hheld => h.held x o (hholder x o hheld)
    rows := fun x o hheld hdrawn htracked =>
      hlists o x (h.rows x o (hholder x o hheld) hdrawn htracked)
    records := fun lock hlock x hx => hlists lock.owner x (h.records lock hlock x hx) }

/-- The rows of an owner without record and without locks are removed. -/
theorem removeRows (h : Sound w) (hlocks : ∀ lock ∈ w.store.locks, lock.owner ≠ owner)
    (hfree : owner ∈ w.untracked ∨ ∀ x, w.db.holder x ≠ some owner) (error : Option String) :
  Sound { w with db := w.db.removeUnless owner error }
  := { h with
    held := fun x o hheld => h.held x o (by simpa using hheld)
    rows := by
      intro x o hheld hdrawn htracked
      rw [LockDb.holder_removeUnless] at hheld
      apply (h.rows x o hheld hdrawn htracked).removeUnless
      rintro rfl
      rcases hfree with hfree | hfree
      · apply htracked hfree
      · apply hfree x hheld
    records := fun lock hlock x hx =>
      (h.records lock hlock x hx).removeUnless (hlocks lock hlock) error }

/-- An owner is given up. -/
theorem untrack (h : Sound w) (owner : LockOwner) :
  Sound { w with untracked := owner :: w.untracked }
  := { h with
    rows := fun x o hheld hdrawn htracked =>
      h.rows x o hheld hdrawn fun hmem => htracked (List.mem_cons_of_mem _ hmem) }

/-- A record is taken away. -/
theorem removeLock (h : Sound w) (id : ProposalId) :
  Sound { w with store := w.store.removeLock id }
  := { h with
    locks := fun lock hlock => h.locks lock (mem_deleteWhere.mp hlock).1
    records := fun lock hlock => h.records lock (mem_deleteWhere.mp hlock).1
    retained := fun o ho => ⟨(h.retained o ho).1, fun lock hlock =>
      (h.retained o ho).2 lock (mem_deleteWhere.mp hlock).1⟩ }

/-- A proposal is removed. -/
theorem removeProposal (h : Sound w) (id : ProposalId) :
  Sound { w with store := w.store.removeProposal id }
  := { h with
    proposals := fun stored hstored => h.proposals stored (mem_deleteWhere.mp hstored).1
    consumed := fun c hc => ⟨(h.consumed c hc).1, fun stored hstored =>
      (h.consumed c hc).2 stored (mem_deleteWhere.mp hstored).1⟩ }

/-- A proposal is consumed by its flow. -/
theorem consume (h : Sound w) {stored : StoredProposal} (hmem : stored ∈ w.store.proposals) :
  Sound { w with
    store := w.store.removeProposal stored.proposalId
    consumed := (stored.proposalId, stored.sendFlowId) :: w.consumed }
  := { h.removeProposal stored.proposalId with
    consumed := by
      intro c hc
      rcases List.mem_cons.mp hc with rfl | hc
      · obtain ⟨k, hk, hid, hflow, -⟩ := h.proposals stored hmem
        refine ⟨⟨k, hk, hid, hflow⟩, ?_⟩
        intro other hother
        simpa using (mem_deleteWhere.mp hother).2
      · apply (h.removeProposal stored.proposalId).consumed c hc
    once := by
      rw [List.map_cons, List.nodup_cons]
      refine ⟨?_, h.once⟩
      intro hagain
      obtain ⟨c, hc, hid⟩ := List.mem_map.mp hagain
      apply (h.consumed c hc).2 stored hmem hid.symm }

/-- An owner without record is retained. -/
theorem retain (h : Sound w) (hdrawn : w.Drawn owner)
    (hlocks : ∀ lock ∈ w.store.locks, lock.owner ≠ owner) :
  Sound { w with retained := owner :: w.retained }
  := { h with
    retained := by
      intro o ho
      rcases List.mem_cons.mp ho with rfl | ho
      · exact ⟨hdrawn, hlocks⟩
      · apply h.retained o ho }

/-- Rows of a new owner are stored. -/
theorem persist (h : Sound w) (hdrawn : ¬w.Drawn owner) (hfree : ∀ x, w.db.holder x ≠ some owner)
    (inputs : List OutputRef) (expiryHeight : Nat) :
  Sound { w with
    db := w.db.persist w.sessionId owner inputs expiryHeight
    drawn := (owner, inputs) :: w.drawn }
  := { h with
    known := fun k hk => List.mem_cons_of_mem _ (h.known k hk)
    drawn := by
      intro d hd d' hd' hsame
      rcases List.mem_cons.mp hd with rfl | hd
      · rcases List.mem_cons.mp hd' with rfl | hd'
        · rfl
        · exact absurd ⟨d', hd', hsame.symm⟩ hdrawn
      · rcases List.mem_cons.mp hd' with rfl | hd'
        · exact absurd ⟨d, hd, hsame⟩ hdrawn
        · apply h.drawn d hd d' hd' hsame
    held := by
      intro x o hheld d hd howner
      rcases List.mem_cons.mp hd with rfl | hd
      · obtain rfl : owner = o := howner
        exact absurd hheld (hfree x)
      · apply h.held x o hheld d hd howner
    rows := by
      intro x o hheld hd htracked
      obtain ⟨d, hd, rfl⟩ := hd
      rcases List.mem_cons.mp hd with rfl | hd
      · exact absurd hheld (hfree x)
      · apply (h.rows x d.1 hheld ⟨d, hd, rfl⟩ htracked).persist
    records := fun lock hlock x hx => (h.records lock hlock x hx).persist
    retained := fun o ho => by
      obtain ⟨⟨d, hd, howner⟩, hlocks⟩ := h.retained o ho
      exact ⟨⟨d, List.mem_cons_of_mem _ hd, howner⟩, hlocks⟩ }

/-- Inputs are locked for an owner that was drawn for them and has rows for them. -/
theorem lockOutputs (h : Sound w) {inputs : List OutputRef} {expired : OutputRef → Bool}
    (hok : w.db.lockOutputs inputs owner expired = .ok db) (hdrawn : (owner, inputs) ∈ w.drawn)
    (hrows : owner ∈ w.untracked ∨ ∀ x ∈ inputs, w.db.Lists owner x) :
  Sound { w with db := db }
  := by
  obtain rfl := LockDb.lockOutputs_eq_ok hok
  have hholder : ∀ x o, (if x ∈ inputs then some owner else w.db.holder x) = some o →
      x ∈ inputs ∧ o = owner ∨ w.db.holder x = some o := by
    intro x o hheld
    split at hheld
    · exact .inl ⟨‹_›, (Option.some_inj.mp hheld).symm⟩
    · exact .inr hheld
  exact { h with
    held := by
      intro x o hheld d hd howner
      rcases hholder x o hheld with ⟨hx, rfl⟩ | hheld
      · rw [h.drawn d hd _ hdrawn howner]
        apply hx
      · apply h.held x o hheld d hd howner
    rows := by
      intro x o hheld hd htracked
      rcases hholder x o hheld with ⟨hx, rfl⟩ | hheld
      · rcases hrows with hrows | hrows
        · exact absurd hrows htracked
        · apply hrows x hx
      · apply h.rows x o hheld hd htracked }

/-- A draft is stored under the next identifier. -/
theorem insert (h : Sound w) {draft : Draft} (hdrawn : (draft.owner, draft.inputs) ∈ w.drawn)
    (hnew : ∀ k ∈ w.known, k.owner ≠ draft.owner) (hretained : draft.owner ∉ w.retained)
    (hrows : ∀ x ∈ draft.inputs, w.db.Lists draft.owner x) :
  Sound { w with
    store := w.store.insert w.dbPath draft
    known := w.store.nextLock w.dbPath draft :: w.known }
  where
  ids := by
    intro k hk k' hk' hsame
    rcases List.mem_cons.mp hk with rfl | hk
    · rcases List.mem_cons.mp hk' with rfl | hk'
      · rfl
      · exact absurd hsame.symm (h.next k' hk').ne
    · rcases List.mem_cons.mp hk' with rfl | hk'
      · exact absurd hsame (h.next k hk).ne
      · apply h.ids k hk k' hk' hsame
  owners := by
    intro k hk k' hk' hsame
    rcases List.mem_cons.mp hk with rfl | hk
    · rcases List.mem_cons.mp hk' with rfl | hk'
      · rfl
      · exact absurd hsame.symm (hnew k' hk')
    · rcases List.mem_cons.mp hk' with rfl | hk'
      · exact absurd hsame (hnew k hk)
      · apply h.owners k hk k' hk' hsame
  next := by
    intro k hk
    rcases List.mem_cons.mp hk with rfl | hk
    · apply Nat.lt_succ_self _
    · apply Nat.lt_succ_of_lt (h.next k hk)
  known := by
    intro k hk
    rcases List.mem_cons.mp hk with rfl | hk
    · apply hdrawn
    · apply h.known k hk
  drawn := h.drawn
  locks := by
    intro lock hlock
    rcases mem_upsert.mp hlock with ⟨hlock, -⟩ | rfl
    · apply List.mem_cons_of_mem _ (h.locks lock hlock)
    · apply List.mem_cons_self
  proposals := by
    intro stored hstored
    rcases mem_upsert.mp hstored with ⟨hstored, -⟩ | rfl
    · obtain ⟨k, hk, hsame⟩ := h.proposals stored hstored
      exact ⟨k, List.mem_cons_of_mem _ hk, hsame⟩
    · exact ⟨_, List.mem_cons_self, rfl, rfl, rfl⟩
  consumed := by
    intro c hc
    obtain ⟨⟨k, hk, hid, hflow⟩, hgone⟩ := h.consumed c hc
    refine ⟨⟨k, List.mem_cons_of_mem _ hk, hid, hflow⟩, ?_⟩
    intro stored hstored
    rcases mem_upsert.mp hstored with ⟨hstored, -⟩ | rfl
    · apply hgone stored hstored
    · rw [← hid]
      apply (h.next k hk).ne'
  once := h.once
  held := h.held
  rows := h.rows
  records := by
    intro lock hlock x hx
    rcases mem_upsert.mp hlock with ⟨hlock, -⟩ | rfl
    · apply h.records lock hlock x hx
    · apply hrows x hx
  retained := by
    intro o ho
    obtain ⟨hd, hlocks⟩ := h.retained o ho
    refine ⟨hd, ?_⟩
    intro lock hlock
    rcases mem_upsert.mp hlock with ⟨hlock, -⟩ | rfl
    · apply hlocks lock hlock
    · rintro rfl
      apply hretained ho

/-- The process ends. -/
theorem crash (h : Sound w) : Sound w.crash
  where
  ids := fun k hk => by cases hk
  owners := fun k hk => by cases hk
  next := fun k hk => by cases hk
  known := fun k hk => by cases hk
  drawn := h.drawn
  locks := fun lock hlock => by cases hlock
  proposals := fun stored hstored => by cases hstored
  consumed := fun c hc => by cases hc
  once := List.nodup_nil
  held := h.held
  rows := h.rows
  records := fun lock hlock => by cases hlock
  retained := fun o ho => ⟨(h.retained o ho).1, fun lock hlock => by cases hlock⟩

end Sound

theorem mem_of_lock? {store : ProposalStore} {lock : StoredProposalLock}
    (h : store.lock? id = some lock) :
  lock ∈ store.locks ∧ lock.proposalId = id
  := by
  unfold ProposalStore.lock? at h
  exact ⟨List.mem_of_find?_eq_some h, by simpa using List.find?_some h⟩

theorem mem_of_proposal? {store : ProposalStore} {stored : StoredProposal}
    (h : store.proposal? id = some stored) :
  stored ∈ store.proposals ∧ stored.proposalId = id
  := by
  unfold ProposalStore.proposal? at h
  exact ⟨List.mem_of_find?_eq_some h, by simpa using List.find?_some h⟩

theorem of_storedProposalLock {store : ProposalStore} {lock : StoredProposalLock}
    {sendFlowId : String} (h : store.storedProposalLock id sendFlowId = .ok lock) :
  lock ∈ store.locks ∧ lock.proposalId = id ∧ lock.sendFlowId = sendFlowId
  := by
  unfold ProposalStore.storedProposalLock at h
  split at h
  · rename_i found hfound
    obtain ⟨hmem, hid⟩ := mem_of_lock? hfound
    split at h
    · cases h
      exact ⟨hmem, hid, ‹_›⟩
    · cases h
  · cases h

/-- When the record of an identifier is gone, a known owner of that identifier has none. -/
theorem Sound.owner_ne_of_gone (h : Sound w) {k : StoredProposalLock} (hk : k ∈ w.known)
    (hgone : ∀ lock ∈ w.store.locks, lock.proposalId ≠ k.proposalId) :
  ∀ lock ∈ w.store.locks, lock.owner ≠ k.owner
  := by
  intro lock hlock howner
  apply hgone lock hlock
  rw [h.owners lock (h.locks lock hlock) k hk howner]

end ProposalWallet

end Proposal

end Vizor
