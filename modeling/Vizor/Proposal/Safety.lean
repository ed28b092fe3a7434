import Vizor.Proposal.Steps

/-!
# Safety of the store of send proposals

While a call holds the write lock of the wallet, no other call takes or releases the lock of
an input; what it relies on can only lose its record to a call that finishes the proposal
without releasing its inputs.  A proposal is consumed under the mutex of the store, so that
it is executed by one call at most.
-/

namespace Vizor

open Table Run Interleave

namespace Proposal

variable {w w' : ProposalWallet} {id : ProposalId} {owner o : LockOwner} {db : LockDb}

namespace ProposalWallet

/-! ### Other calls -/

/-- A draft has an owner that no record and no other call has. -/
theorem Drafted.owner_ne {draft : Draft} (h : Drafted w draft) {k : StoredProposalLock}
    (hk : k ∈ w.known) :
  draft.owner ≠ k.owner
  := fun hsame => h.unknown k hk hsame.symm

/-- Calls that both hold the write lock are not apart. -/
theorem not_inWrite_of_excludes {p q : Point} (hapart : p.Excludes q) (hq : q.InWrite) :
  ¬p.InWrite
  := fun hp => hapart.1 ⟨hp, hq⟩

theorem inWrite_of_draft {p : Point} {draft : Draft} (h : p.draft? = some draft) : p.InWrite
  := .inl (by rw [h]; rfl)

theorem inWrite_of_current {p : Point} {x : StoredProposal × StoredProposalLock}
    (h : p.current? = some x) : p.InWrite
  := .inr (by rw [h]; rfl)

/-- A call that may lock inputs for an owner has a draft, or executes a proposal under the
record of the owner. -/
theorem of_locking {p : Point} (h : p.locking? = some owner) :
  (∃ draft, p.draft? = some draft ∧ draft.owner = owner)
    ∨ ∃ stored current, p.executed? = some stored ∧ p.current? = some (stored, current)
      ∧ current.owner = owner
  := by
  cases p with
  | proposeLock draft => exact .inl ⟨draft, rfl, Option.some_inj.mp h⟩
  | relock stored current expiryHeight =>
    exact .inr ⟨stored, current, rfl, rfl, Option.some_inj.mp h⟩
  | _ => cases h

theorem executed_of_current {q : Point} {stored : StoredProposal} {current : StoredProposalLock}
    (h : q.current? = some (stored, current)) :
  q.executed? = some stored
  := by
  cases q <;> simp_all [Point.current?, Point.executed?]

theorem current_of_locked {q : Point} {stored : StoredProposal} {current : StoredProposalLock}
    (h : q.locked? = some (stored, current)) :
  q.current? = some (stored, current)
  := by
  cases q <;> simp_all [Point.current?, Point.locked?]

theorem executed_of_created {q : Point} {stored : StoredProposal} {current : StoredProposalLock}
    (h : q.created? = some (stored, current)) :
  q.executed? = some stored
  := by
  cases q <;> simp_all [Point.created?, Point.executed?]

/-- What a draft relies on stays. -/
theorem Drafted.stable {p : Point} {draft : Draft} (h : Drafted w draft) (hp : Relies w p)
    (hquiet : Quiet w p w') :
  Drafted w' draft
  where
  writing := by rw [hquiet.writing, h.writing]
  drawn := by rw [hquiet.drawn]; exact h.drawn
  unknown := by rw [hquiet.known]; exact h.unknown
  retained := by rw [hquiet.retained]; exact h.retained
  rows := by
    intro x hx
    rcases hquiet.rows draft.owner x (h.rows x hx) with hlists | hremoving
    · apply hlists
    · obtain ⟨⟨k, hk, howner⟩, -⟩ := hp.removing draft.owner hremoving
      exact absurd howner (h.unknown k hk)

/-- What an execution under the write lock relies on stays. -/
theorem Current.stable {p : Point} {stored : StoredProposal} {current : StoredProposalLock}
    (h : Current w stored current) (hquiet : Quiet w p w')
    (huntracked : w.untracked ⊆ w'.untracked)
    (hapart : ∀ other, p.executed? = some other → other.proposalId ≠ stored.proposalId) :
  Current w' stored current
  where
  writing := by rw [hquiet.writing, h.writing]
  known := by rw [hquiet.known]; exact h.known
  id := h.id
  retained := by rw [hquiet.retained]; exact h.retained
  stored := by
    rcases h.stored with hstored | hgiven
    · rcases hquiet.locks current hstored with hkept | hgiven | ⟨other, hother, hsame⟩
      · exact .inl hkept
      · exact .inr hgiven
      · exact absurd (hsame.symm.trans h.id) (hapart other hother)
    · exact .inr (huntracked hgiven)

/-- A known owner gets locks from an execution of its proposal only. -/
theorem Relies.locking_known {p : Point} (hp : Relies w p) {k : StoredProposalLock}
    (hk : k ∈ w.known) (hlocking : p.locking? = some k.owner) :
  ∃ stored current, p.executed? = some stored ∧ Current w stored current
    ∧ current.owner = k.owner
  := by
  rcases of_locking hlocking with ⟨draft, hdraft, howner⟩ | ⟨stored, current, hexecuted,
    hcurrent, howner⟩
  · exact absurd howner ((hp.draft draft hdraft).owner_ne hk)
  · exact ⟨stored, current, hexecuted, hp.current stored current hcurrent, howner⟩

/-- What a call relies on stays when a call that is apart from it takes a step. -/
theorem Relies.stable (h : Sound w) {p q : Point} {next : ProposalWallet × Point}
    (hp : Relies w p) (hq : Relies w q) (hapart : p.Excludes q) (heffect : Effect w p next) :
  Relies next.1 q
  := by
  have hquietDraft : ∀ draft, q.draft? = some draft → Quiet w p next.1 := fun draft hdraft =>
    heffect.quiet (hq.draft draft hdraft).writing
      (not_inWrite_of_excludes hapart (inWrite_of_draft hdraft))
  have hquietCurrent : ∀ x, q.current? = some x → Quiet w p next.1 := fun x hx =>
    heffect.quiet (hq.current x.1 x.2 hx).writing
      (not_inWrite_of_excludes hapart (inWrite_of_current hx))
  constructor
  case draft =>
    intro draft hdraft
    apply (hq.draft draft hdraft).stable hp (hquietDraft draft hdraft)
  case unlocked =>
    rintro draft rfl x
    rw [(hquietDraft draft rfl).holder]
    apply hq.unlocked draft rfl
  case executed =>
    intro stored hstored
    obtain ⟨hconsumed, k, hk, hsame⟩ := hq.executed stored hstored
    exact ⟨heffect.consumed hconsumed, k, heffect.known hk, hsame⟩
  case current =>
    intro stored current hcurrent
    apply (hq.current stored current hcurrent).stable (hquietCurrent _ hcurrent)
      heffect.untracked
    intro other hother
    apply hapart.2 other hother stored (executed_of_current hcurrent)
  case locked =>
    intro stored current hlocked x hx
    rw [(hquietCurrent _ (current_of_locked hlocked)).holder]
    apply hq.locked stored current hlocked x hx
  case created =>
    intro stored current hcreated
    obtain ⟨hknown, hid, hfree⟩ := hq.created stored current hcreated
    refine ⟨heffect.known hknown, hid, ?_⟩
    intro x hheld
    rcases heffect.holder x _ hheld with hheld | hlocking
    · apply hfree x hheld
    · obtain ⟨other, mine, hother, hmine, howner⟩ := hp.locking_known hknown hlocking
      obtain rfl := h.owners mine hmine.known current hknown howner
      apply hapart.2 other hother stored (executed_of_created hcreated)
      apply hmine.id.symm.trans hid
  case removing =>
    intro owner hremoving
    obtain ⟨⟨k, hk, rfl⟩, hlocks, hfree⟩ := hq.removing owner hremoving
    refine ⟨⟨k, heffect.known hk, rfl⟩, ?_, ?_⟩
    · intro lock hlock
      rcases heffect.locks lock hlock with hlock | ⟨draft, hdraft, howner⟩
      · apply hlocks lock hlock
      · rw [howner]
        apply (hp.draft draft hdraft).owner_ne hk
    · rcases hfree with hgiven | hfree
      · exact .inl (heffect.untracked hgiven)
      by_cases hlocking : p.locking? = some k.owner
      · obtain ⟨other, mine, -, hmine, howner⟩ := hp.locking_known hk hlocking
        rcases hmine.stored with hstored | hgiven
        · exact absurd howner (hlocks mine hstored)
        · rw [howner] at hgiven
          exact .inl (heffect.untracked hgiven)
      · right
        intro x hheld
        rcases heffect.holder x _ hheld with hheld | hnow
        · apply hfree x hheld
        · apply hlocking hnow
  case retaining =>
    intro id owner hretaining
    obtain ⟨k, hk, hsame⟩ := hq.retaining id owner hretaining
    exact ⟨k, heffect.known hk, hsame⟩

theorem Excludes.stable (h : Sound w) {p q : Point} {next : ProposalWallet × Point}
    (hq : Relies w q) (hapart : p.Excludes q) (heffect : Effect w p next) :
  next.2.Excludes q
  := by
  constructor
  · rintro ⟨hnext, hin⟩
    rcases heffect.enters hnext with hp | hwriting
    · apply hapart.1 ⟨hp, hin⟩
    · have hheld : w.writing = true := by
        rcases hin with hin | hin
        · obtain ⟨draft, hdraft⟩ := Option.isSome_iff_exists.mp hin
          apply (hq.draft draft hdraft).writing
        · obtain ⟨x, hx⟩ := Option.isSome_iff_exists.mp hin
          apply (hq.current x.1 x.2 hx).writing
      rw [hwriting] at hheld
      cases hheld
  · intro stored hstored other hother
    rcases heffect.executes stored hstored with hsame | hmem
    · apply hapart.2 stored hsame other hother
    · apply (h.consumed _ (hq.executed other hother).consumed).2 stored hmem

/-! ### Retained owners -/

/-- An owner that is retained stays so. -/
theorem retained_advance {a : Answer} {p : Point} : w.retained ⊆ (w.advance a p).1.retained
  := by
  cases p <;> dsimp only [advance, propose, proposeLock, proposeStore, consumeStoredProposal,
    loadSeed, readLock, readTip, recheck, relock, updateExpiry, create, created,
    finishStoredProposal, unlockStoredProposal, removeRows, discardStoredProposal,
    retainStoredProposalLock, retainMark]
  all_goals repeat' split
  all_goals first
    | exact List.Subset.refl _
    | exact List.subset_cons_self _ _

end ProposalWallet

/-- Whether the next step of a call may change the locks in the wallet. -/
def Point.ChangesLocks : Point → Prop
  | .proposeLock _ | .proposeStore _ | .relock _ _ _ | .create _ _ | .unlock _ _ _ => True
  | _ => False

namespace ProposalWallet

/-- Other steps leave the locks in the wallet as they are. -/
theorem holder_advance {a : Answer} {p : Point} (hp : ¬p.ChangesLocks) :
  (w.advance a p).1.db.holder = w.db.holder
  := by
  cases p with
  | proposeLock draft => exact absurd trivial hp
  | proposeStore draft => exact absurd trivial hp
  | relock stored current expiryHeight => exact absurd trivial hp
  | create stored current => exact absurd trivial hp
  | unlock id sendFlowId cause => exact absurd trivial hp
  | updateExpiry stored current expiryHeight =>
    dsimp only [advance, updateExpiry]
    split
    · rfl
    · apply (LockDb.updateExpiry_eq_ok (run_eq_ok ‹_›)).1
  | retainMark id sendFlowId owner =>
    dsimp only [advance, retainMark]
    repeat' split
    all_goals first
      | rfl
      | exact (LockDb.markRetainUntilExpiry_eq_ok (run_eq_ok ‹_›)).1
  | removeRows owner logged => exact LockDb.holder_removeUnless
  | _ =>
    dsimp only [advance, propose, consumeStoredProposal, loadSeed, readLock, readTip, recheck,
      created, finishStoredProposal, discardStoredProposal, retainStoredProposalLock]
    repeat' split
    all_goals rfl

/-- A lock of an owner that is retained is not released. -/
theorem holder_advance_ne_none (h : Sound w) {a : Answer} {p : Point} (hrelies : Relies w p)
    (hretained : o ∈ w.retained) {x : OutputRef} (hheld : w.db.holder x = some o) :
  (w.advance a p).1.db.holder x ≠ none
  := by
  have hkeeps : ∀ {db : LockDb} {inputs : List OutputRef} {owner : LockOwner}
      {expired : OutputRef → Bool}, w.db.lockOutputs inputs owner expired = .ok db →
      db.holder x ≠ none := by
    intro db inputs owner expired hok
    obtain rfl := LockDb.lockOutputs_eq_ok hok
    dsimp only
    split
    · nofun
    · rw [hheld]
      nofun
  have hsame : w.db.holder x ≠ none := by
    rw [hheld]
    nofun
  by_cases hp : p.ChangesLocks
  · cases p with
    | proposeLock draft =>
      dsimp only [advance, proposeLock]
      split
      · apply hkeeps (run_eq_ok ‹_›)
      · rwa [LockDb.holder_removeUnless]
    | proposeStore draft =>
      dsimp only [advance, proposeStore]
      split
      · apply hsame
      · intro hnone
        rw [LockDb.holder_removeUnless] at hnone
        obtain rfl := LockDb.holder_unlockProposalInputs_eq_none hheld hnone
        apply (hrelies.draft draft rfl).retained hretained
    | relock stored current expiryHeight =>
      dsimp only [advance, relock]
      repeat' split
      · apply hsame
      · apply hsame
      · apply hkeeps (run_eq_ok ‹_›)
    | create stored current =>
      dsimp only [advance, create]
      split
      · apply hsame
      · dsimp only [LockDb.clearSpent]
        split
        · rename_i hx
          have hlocked := hrelies.locked stored current rfl x hx
          rw [hheld, Option.some_inj] at hlocked
          rw [hlocked] at hretained
          exact absurd hretained (hrelies.current stored current rfl).retained
        · apply hsame
    | unlock id sendFlowId cause =>
      have hreleases : ∀ {current : StoredProposalLock}, w.store.lock? id = some current →
          (w.db.unlockProposalInputs current.inputs current.owner a.unlockError).holder x
            ≠ none := by
        intro current hcurrent hnone
        obtain rfl := LockDb.holder_unlockProposalInputs_eq_none hheld hnone
        apply (h.retained _ hretained).2 current (mem_of_lock? hcurrent).1 rfl
      dsimp only [advance, unlockStoredProposal]
      repeat' split
      all_goals first
        | exact hsame
        | exact hreleases ‹_›
    | _ => exact absurd hp id
  · rw [holder_advance hp]
    apply hsame

/-! ### Runs -/

/-- Owners are drawn at random: one that a draft gets was not drawn before, and locks
nothing. -/
def OwnersDrawn (world : World ProposalWallet Point) : Move Call Answer → Prop
  | .advance i a =>
    match world.calls[i]? with
    | some (.propose _) => Fresh a world.shared
    | _ => True
  | _ => True

/-- A step of a call in a run. -/
theorem step_of_holds {world : World ProposalWallet Point} {i : Nat} {a : Answer} {p : Point}
    (h : Holds Sound Relies world) (hm : OwnersDrawn world (.advance i a))
    (hp : world.calls[i]? = some p) :
  Step world.shared p (calls.advance a world.shared p)
  := by
  apply advance_step h.1 (h.at hp)
  rintro sendFlowId rfl
  simpa only [OwnersDrawn, hp] using hm

/-- A call starts at a point where it relies on nothing. -/
theorem start_idle {k : Call} : (calls.start k).Idle
  := by
  cases k <;> exact ⟨rfl, rfl, rfl, rfl⟩

theorem calls_preserve : PreservesApart calls OwnersDrawn Sound Relies Point.Excludes
  where
  symm := fun p q hpq => ⟨fun hin => hpq.1 ⟨hin.2, hin.1⟩, fun stored hstored other hother =>
    (hpq.2 other hother stored hstored).symm⟩
  start := by
    intro world k _ _
    refine ⟨.idle start_idle, ?_⟩
    intro q _
    refine ⟨fun hin => start_idle.not_inWrite hin.1, ?_⟩
    intro stored hstored
    rw [start_idle.executed] at hstored
    cases hstored
  advance := by
    intro world i a p h hm hp
    have hstep := step_of_holds h hm hp
    exact ⟨hstep.sound, hstep.relies⟩
  stable := by
    intro world i a p q h hm hp hq hapart
    have heffect := (step_of_holds h hm hp).effect
    exact ⟨Relies.stable h.1 (h.at hp) (h.2 q hq) hapart heffect,
      Excludes.stable h.1 (h.2 q hq) hapart heffect⟩
  crash := fun world h => h.1.crash

/-- A process that starts with a wallet. -/
def opened (db : LockDb) (dbPath : String) (sessionId : SessionId) : ProposalWallet where
  db := db
  dbPath := dbPath
  sessionId := sessionId

theorem opened_sound {dbPath : String} {sessionId : SessionId} : Sound (opened db dbPath sessionId)
  := by
  constructor <;> simp [opened, Drawn]

/-- What was retained stays so in a run. -/
theorem retained_after {world : World ProposalWallet Point} {moves : List (Move Call Answer)} :
  world.shared.retained ⊆ (after calls.step world moves).shared.retained
  := by
  induction moves generalizing world with
  | nil => exact List.Subset.refl _
  | cons move moves ih =>
    rw [after_cons]
    refine List.Subset.trans ?_ ih
    cases move with
    | call k => exact List.Subset.refl _
    | crash => exact List.Subset.refl _
    | advance i a =>
      cases hp : world.calls[i]? with
      | none =>
        rw [Program.step, hp]
        apply List.Subset.refl _
      | some p =>
        rw [Program.step_advance hp]
        apply retained_advance

/-- A lock of an owner that is retained is not released by a move. -/
theorem holder_step_ne_none {world : World ProposalWallet Point} {move : Move Call Answer}
    (h : Holds Sound Relies world) (hretained : o ∈ world.shared.retained) {x : OutputRef}
    (hheld : world.shared.db.holder x = some o) :
  (calls.step world move).shared.db.holder x ≠ none
  := by
  have hsame : world.shared.db.holder x ≠ none := by
    rw [hheld]
    nofun
  cases move with
  | call k => exact hsame
  | crash => exact hsame
  | advance i a =>
    cases hp : world.calls[i]? with
    | none =>
      rw [Program.step, hp]
      apply hsame
    | some p =>
      rw [Program.step_advance hp]
      apply holder_advance_ne_none h.1 (h.at hp) hretained hheld

/-- The world after moves of calls on a wallet. -/
def worldAfter (db : LockDb) (dbPath : String) (sessionId : SessionId)
    (moves : List (Move Call Answer)) : World ProposalWallet Point :=
  after calls.step (World.idle (opened db dbPath sessionId)) moves

/-- In any order of the steps of any calls: a proposal is consumed once at most, by the flow
for which it was stored; after a retain call that found a record has returned without an
error, no move releases a lock of its owner; when transactions are created, the inputs of the
proposal are locked for the owner of its record; and a lock of an owner that was drawn has a
record or a row, unless the owner was given up, by a call that finished the proposal without
releasing its inputs, or that could neither store it nor release them. -/
theorem proposal_store_safe (db : LockDb) (dbPath : String) (sessionId : SessionId)
    {moves : List (Move Call Answer)}
    (hmoves : Along calls.step OwnersDrawn (World.idle (opened db dbPath sessionId)) moves) :
  ((worldAfter db dbPath sessionId moves).shared.consumed.map Prod.fst).Nodup
    ∧ (∀ c ∈ (worldAfter db dbPath sessionId moves).shared.consumed,
      ∃ k ∈ (worldAfter db dbPath sessionId moves).shared.known,
        k.proposalId = c.1 ∧ k.sendFlowId = c.2)
    ∧ (∀ later move, Along calls.step OwnersDrawn (worldAfter db dbPath sessionId moves) later →
      ∀ o ∈ (worldAfter db dbPath sessionId moves).shared.retained, ∀ x,
        (worldAfter db dbPath sessionId (moves ++ later)).shared.db.holder x = some o →
          (calls.step (worldAfter db dbPath sessionId (moves ++ later)) move).shared.db.holder x
            ≠ none)
    ∧ (∀ stored current,
      Point.create stored current ∈ (worldAfter db dbPath sessionId moves).calls →
        current ∈ (worldAfter db dbPath sessionId moves).shared.known
          ∧ current.proposalId = stored.proposalId ∧ current.inputs = stored.inputs
          ∧ ∀ x ∈ stored.inputs,
            (worldAfter db dbPath sessionId moves).shared.db.holder x = some current.owner)
    ∧ ∀ x o, (worldAfter db dbPath sessionId moves).shared.db.holder x = some o →
      (worldAfter db dbPath sessionId moves).shared.Drawn o →
        (∃ lock ∈ (worldAfter db dbPath sessionId moves).shared.store.locks,
          lock.owner = o ∧ x ∈ lock.inputs)
        ∨ (worldAfter db dbPath sessionId moves).shared.db.Lists o x
        ∨ o ∈ (worldAfter db dbPath sessionId moves).shared.untracked
  := by
  have hstart : Holds Sound Relies (World.idle (opened db dbPath sessionId))
      ∧ Apart Point.Excludes (World.idle (opened db dbPath sessionId)) :=
    ⟨holds_idle opened_sound, apart_idle⟩
  have hafter := calls_preserve.after hstart hmoves
  obtain ⟨hsound, hrelies⟩ := hafter.1
  refine ⟨hsound.once, fun c hc => (hsound.consumed c hc).1, ?_, ?_, ?_⟩
  · intro later move hlater o ho x hheld
    have hall := calls_preserve.after hafter hlater
    rw [worldAfter, after_append] at hheld ⊢
    apply holder_step_ne_none hall.1 (retained_after ho) hheld
  · intro stored current hcall
    have hcreate := hrelies _ hcall
    have hcurrent := hcreate.current stored current rfl
    exact ⟨hcurrent.known, hcurrent.id, hcurrent.inputs hsound (hcreate.executed stored rfl),
      hcreate.locked stored current rfl⟩
  · intro x o hheld hdrawn
    by_cases htracked : o ∈ (worldAfter db dbPath sessionId moves).shared.untracked
    · exact .inr (.inr htracked)
    · exact .inr (.inl (hsound.rows x o hheld hdrawn htracked))

/-- An input of a proposal. -/
def sampleInput : OutputRef := ⟨5, .orchard, 0⟩

/-- A proposal is stored for the input, under owner 7. -/
def sampleProposed : List (Move Call Answer) := [
  .call (.proposeSend "send"),
  .advance 0 { inputs := [sampleInput], owner := 7, height := 100 },
  .advance 0 {},
  .advance 0 {}]

/-- The proposal is executed up to the creation of its transactions. -/
def sampleExecuted : List (Move Call Answer) := sampleProposed ++ [
  .call (.executeProposal "wallet" 1 "send"),
  .advance 1 {},
  .advance 1 {},
  .advance 1 {},
  .advance 1 { height := 110 },
  .advance 1 {},
  .advance 1 { height := 111 },
  .advance 1 {}]

/-- The proposal is finished without a release of its inputs. -/
def sampleForgotten : List (Move Call Answer) := sampleProposed ++ [
  .call (.finishStoredProposal 1 "send" false),
  .advance 1 {},
  .advance 1 {}]

/-- The world after moves on a wallet without locks. -/
def sampleWorld (moves : List (Move Call Answer)) : World ProposalWallet Point :=
  worldAfter {} "wallet" 11 moves

/-- The transactions of the sample are created while its input is locked for owner 7. -/
theorem proposal_store_safe_sample :
  (sampleWorld sampleExecuted).calls[1]? = some (.create ⟨1, [sampleInput], 100, "send"⟩
      ⟨1, [sampleInput], "wallet", 7, "send"⟩)
    ∧ (sampleWorld sampleExecuted).shared.db.holder sampleInput = some 7
  := by
  have hcall : (sampleWorld sampleExecuted).calls[1]? = some (.create
      ⟨1, [sampleInput], 100, "send"⟩ ⟨1, [sampleInput], "wallet", 7, "send"⟩) := by
    decide +kernel
  have hmoves : Along calls.step OwnersDrawn (World.idle (opened {} "wallet" 11))
      sampleExecuted := by
    refine ⟨trivial, ⟨?_, ?_⟩, trivial, trivial, trivial, trivial, trivial, trivial, trivial,
      trivial, trivial, trivial, trivial⟩
    · rintro ⟨d, hd, -⟩
      cases hd
    · nofun
  obtain ⟨-, -, -, hcreate, -⟩ := proposal_store_safe {} "wallet" 11 hmoves
  refine ⟨hcall, ?_⟩
  obtain ⟨-, -, -, hlocked⟩ := hcreate _ _ (List.mem_of_getElem? hcall)
  apply hlocked sampleInput List.mem_cons_self

/-- A proposal that is finished without a release leaves a lock with neither record nor
row. -/
theorem sampleForgotten_neither :
  ¬∀ moves, Along calls.step OwnersDrawn (World.idle (opened {} "wallet" 11)) moves →
    ∀ x o, (sampleWorld moves).shared.db.holder x = some o →
      (sampleWorld moves).shared.Drawn o →
        (∃ lock ∈ (sampleWorld moves).shared.store.locks, lock.owner = o ∧ x ∈ lock.inputs)
          ∨ (sampleWorld moves).shared.db.Lists o x
  := by
  intro h
  have hmoves : Along calls.step OwnersDrawn (World.idle (opened {} "wallet" 11))
      sampleForgotten := by
    refine ⟨trivial, ⟨?_, ?_⟩, trivial, trivial, trivial, trivial, trivial, trivial⟩
    · rintro ⟨d, hd, -⟩
      cases hd
    · nofun
  have hheld : (sampleWorld sampleForgotten).shared.db.holder sampleInput = some 7 := by
    decide +kernel
  have hdrawn : ∃ d ∈ (sampleWorld sampleForgotten).shared.drawn, d.1 = 7 := by
    decide +kernel
  have hlocks : (sampleWorld sampleForgotten).shared.store.locks = [] := by
    decide +kernel
  have hrows : (sampleWorld sampleForgotten).shared.db.rows = [] := by
    decide +kernel
  rcases h sampleForgotten hmoves sampleInput 7 hheld hdrawn with ⟨lock, hlock, -⟩ | ⟨row, hrow, -⟩
  · rw [hlocks] at hlock
    cases hlock
  · rw [hrows] at hrow
    cases hrow

end ProposalWallet

end Proposal

end Vizor
