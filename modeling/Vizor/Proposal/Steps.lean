import Vizor.Proposal.Reliance

/-!
# The steps of calls on the store of send proposals

Every step of a call keeps what holds between the steps, and comes to a point at which the
call can rely on what it needs.
-/

namespace Vizor

open Table Run Interleave

namespace Proposal

variable {w w' : ProposalWallet} {id : ProposalId} {owner o : LockOwner} {db : LockDb}

namespace ProposalWallet

/-! ### The steps of a proposal -/

/-- What a draft gets from outside: an owner that nobody has. -/
def Fresh (a : Answer) (w : ProposalWallet) : Prop :=
  ¬w.Drawn a.owner ∧ ∀ x, w.db.holder x ≠ some a.owner

theorem propose_step (h : Sound w) {a : Answer} (ha : Fresh a w) {sendFlowId : String} :
  Step w (.propose sendFlowId) (w.propose a sendFlowId)
  := by
  unfold propose
  split
  · exact .quit h .returned
  split
  · exact .wait h (.idle ⟨rfl, rfl, rfl, rfl⟩)
  rename_i hwriting
  rw [Bool.not_eq_true] at hwriting
  split
  · exact .quit h .returned
  · have hsound := (h.persist ha.1 ha.2 a.inputs (sendProposalLockExpiry a.height)).write true
    refine ⟨hsound, ?_, ?_⟩
    · constructor
      · rintro _ ⟨⟩
        refine ⟨rfl, List.mem_cons_self, ?_, ?_, fun x hx => LockDb.lists_persist hx⟩
        · intro k hk howner
          apply ha.1 ⟨_, h.known k hk, howner⟩
        · intro hretained
          apply ha.1 (h.retained _ hretained).1
      · rintro _ ⟨⟩
        apply ha.2
      all_goals nofun
    · exact .write (.inr hwriting) rfl rfl (List.Subset.refl _) (fun _ _ hheld => .inl hheld)
        (List.Subset.refl _) nofun

theorem proposeLock_step (h : Sound w) {a : Answer} {draft : Draft}
    (hrelies : Relies w (.proposeLock draft)) :
  Step w (.proposeLock draft) (w.proposeLock a draft)
  := by
  obtain ⟨hwriting, hdrawn, hunknown, hretained, hrows⟩ := hrelies.draft draft rfl
  have hfree := hrelies.unlocked draft rfl
  have hin : (Point.proposeLock draft).InWrite := .inl rfl
  unfold proposeLock
  split
  · rename_i db hrun
    have hok := run_eq_ok hrun
    refine ⟨h.lockOutputs hok hdrawn (.inr hrows), ?_, ?_⟩
    · obtain rfl := LockDb.lockOutputs_eq_ok hok
      constructor
      · rintro _ ⟨⟩
        exact ⟨hwriting, hdrawn, hunknown, hretained, hrows⟩
      all_goals nofun
    · obtain rfl := LockDb.lockOutputs_eq_ok hok
      refine .write (.inl hin) rfl rfl (List.Subset.refl _) ?_ (List.Subset.refl _) nofun
      intro x o hheld
      dsimp only at hheld
      split at hheld
      · exact .inr hheld
      · exact .inl hheld
  · have hnone : ∀ lock ∈ w.store.locks, lock.owner ≠ draft.owner :=
      fun lock hlock => hunknown lock (h.locks lock hlock)
    refine ⟨(h.removeRows hnone (.inr hfree) a.cleanupError).write false, .idle .returned, ?_⟩
    refine .write (.inl hin) rfl rfl (List.Subset.refl _) ?_ (List.Subset.refl _) nofun
    intro x o hheld
    rw [LockDb.holder_removeUnless] at hheld
    exact .inl hheld

/-- After the inputs for which an owner was drawn are released, it has no locks. -/
theorem Sound.released (h : Sound w) {inputs : List OutputRef}
    (hdrawn : (owner, inputs) ∈ w.drawn) (x : OutputRef) :
  (w.db.unlockOutputs inputs owner).holder x ≠ some owner
  := by
  rw [LockDb.holder_unlockOutputs]
  split
  · nofun
  · rename_i hkept
    intro hheld
    apply hkept ⟨h.held x owner hheld _ hdrawn rfl, hheld⟩

theorem proposeStore_step (h : Sound w) {a : Answer} {draft : Draft}
    (hrelies : Relies w (.proposeStore draft)) :
  Step w (.proposeStore draft) (w.proposeStore a draft)
  := by
  obtain ⟨hwriting, hdrawn, hunknown, hretained, hrows⟩ := hrelies.draft draft rfl
  have hin : (Point.proposeStore draft).InWrite := .inl rfl
  have hnone : ∀ lock ∈ w.store.locks, lock.owner ≠ draft.owner :=
    fun lock hlock => hunknown lock (h.locks lock hlock)
  unfold proposeStore
  split
  · refine ⟨(h.insert hdrawn hunknown hretained hrows).write false, .idle .returned, ?_⟩
    refine ⟨List.subset_cons_self _ _, List.Subset.refl _, List.Subset.refl _,
      fun _ _ hheld => .inl hheld, ?_, fun _ hnot => absurd hin hnot, fun _ => .inl hin, nofun⟩
    intro lock hlock
    rcases mem_upsert.mp hlock with ⟨hlock, -⟩ | rfl
    · exact .inl hlock
    · exact .inr ⟨draft, rfl, rfl⟩
  · have hunlocked : Sound { w with
        db := w.db.unlockProposalInputs draft.inputs draft.owner a.unlockError } := by
      apply h.of_db
      · intro x o hheld
        apply LockDb.holder_unlockProposalInputs hheld
      · intro o x hlists
        simpa [LockDb.Lists] using hlists
    refine ⟨?_, .idle .returned, ?_⟩
    · cases herror : a.unlockError with
      | none =>
        rw [herror] at hunlocked
        apply (hunlocked.removeRows hnone (.inr (h.released hdrawn)) a.cleanupError).write false
      | some error =>
        rw [herror] at hunlocked
        apply ((hunlocked.untrack draft.owner).removeRows hnone (.inl List.mem_cons_self)
          a.cleanupError).write false
    · refine .write (.inl hin) rfl rfl ?_ ?_ (List.Subset.refl _) nofun
      · dsimp only
        split
        · apply List.subset_cons_self
        · apply List.Subset.refl
      · intro x o hheld
        rw [LockDb.holder_removeUnless] at hheld
        exact .inl (LockDb.holder_unlockProposalInputs hheld)

/-! ### The steps of finishing -/

/-- A record that is taken away is that of the identifier. -/
theorem mem_removeLock {store : ProposalStore} {lock : StoredProposalLock} :
  lock ∈ (store.removeLock id).locks ↔ lock ∈ store.locks ∧ lock.proposalId ≠ id
  := by
  simp [ProposalStore.removeLock]

theorem finishStoredProposal_step (h : Sound w) {a : Answer} {sendFlowId : String}
    {releaseInputs : Bool} {cause : Option String} :
  Step w (.finish id sendFlowId releaseInputs cause)
    (w.finishStoredProposal a id sendFlowId releaseInputs cause)
  := by
  unfold finishStoredProposal
  split
  · exact .quit h .settle
  split
  · exact .quit h .settle
  rename_i lock hlock
  obtain ⟨hmem, hid⟩ := mem_of_lock? hlock
  have hknown := h.locks lock hmem
  split
  · exact .quit h .settle
  split
  · exact .quit h .unlock
  · refine ⟨(h.removeLock id).untrack lock.owner, ?_, ?_⟩
    · constructor
      case removing =>
        rintro _ ⟨⟩
        refine ⟨⟨lock, hknown, rfl⟩, ?_, .inl List.mem_cons_self⟩
        apply ((h.removeLock id).untrack lock.owner).owner_ne_of_gone hknown
        intro other hother
        rw [hid]
        apply (mem_removeLock.mp hother).2
      all_goals nofun
    · refine ⟨List.Subset.refl _, List.Subset.refl _, List.subset_cons_self _ _,
        fun _ _ hheld => .inl hheld, fun other hother => .inl (mem_removeLock.mp hother).1, ?_,
        ?_, nofun⟩
      · intro _ _
        refine ⟨rfl, rfl, rfl, rfl, rfl, fun _ _ hlists => .inl hlists, ?_⟩
        intro other hother
        by_cases hsame : other.proposalId = id
        · rw [h.ids other (h.locks other hother) lock hknown (hsame.trans hid.symm)]
          exact .inr (.inl List.mem_cons_self)
        · exact .inl (mem_removeLock.mpr ⟨hother, hsame⟩)
      · rintro (hin | hin) <;> cases hin

theorem unlockStoredProposal_step (h : Sound w) {a : Answer} {sendFlowId : String}
    {cause : Option String} :
  Step w (.unlock id sendFlowId cause) (w.unlockStoredProposal a id sendFlowId cause)
  := by
  unfold unlockStoredProposal
  split
  · exact .wait h (.idle .unlock)
  rename_i hwriting
  rw [Bool.not_eq_true] at hwriting
  split
  · exact .quit h .settle
  split
  · exact .quit h .settle
  rename_i current hcurrent
  obtain ⟨hmem, hid⟩ := mem_of_lock? hcurrent
  have hknown := h.locks current hmem
  split
  · exact .quit h .settle
  have hholder : ∀ x o, (w.db.unlockProposalInputs current.inputs current.owner
      a.unlockError).holder x = some o → w.db.holder x = some o :=
    fun x o hheld => LockDb.holder_unlockProposalInputs hheld
  have hunlocked : Sound { w with
      db := w.db.unlockProposalInputs current.inputs current.owner a.unlockError } := by
    apply h.of_db hholder
    intro o x hlists
    simpa [LockDb.Lists] using hlists
  have heffect (w' : ProposalWallet) (q : Point) (hq : q.Idle) (hknown : w'.known = w.known)
      (hconsumed : w'.consumed = w.consumed) (huntracked : w'.untracked = w.untracked)
      (hkept : w'.db.holder = (w.db.unlockProposalInputs current.inputs current.owner
        a.unlockError).holder) (hlocks : w'.store.locks ⊆ w.store.locks) :
      Effect w (.unlock id sendFlowId cause) (w', q) := by
    refine .write (.inr hwriting) hknown hconsumed ?_ ?_ hlocks ?_
    · rw [huntracked]
      apply List.Subset.refl
    · intro x o hheld
      rw [hkept] at hheld
      exact .inl (hholder x o hheld)
    · intro stored hstored
      rw [hq.executed] at hstored
      cases hstored
  dsimp only
  split
  · exact ⟨hunlocked, .idle .settle, heffect _ _ .settle rfl rfl rfl rfl (List.Subset.refl _)⟩
  · exact ⟨hunlocked, .idle .settle, heffect _ _ .settle rfl rfl rfl rfl (List.Subset.refl _)⟩
  · rename_i hnone _
    refine ⟨?_, .idle .settle, heffect _ _ .settle rfl rfl rfl rfl ?_⟩
    · have hgone : ∀ lock ∈ (w.store.removeLock id).locks, lock.owner ≠ current.owner := by
        apply (hunlocked.removeLock id).owner_ne_of_gone hknown
        intro other hother
        rw [hid]
        apply (mem_removeLock.mp hother).2
      refine (hunlocked.removeLock id).removeRows hgone (.inr ?_) none
      intro x
      dsimp only
      rw [hnone]
      apply h.released (h.known current hknown)
    · intro other hother
      apply (mem_removeLock.mp hother).1

theorem removeRows_step (h : Sound w) {a : Answer} {owner : LockOwner} {logged : Bool}
    (hrelies : Relies w (.removeRows owner logged)) :
  Step w (.removeRows owner logged) (w.removeRows a owner logged)
  := by
  obtain ⟨-, hlocks, hfree⟩ := hrelies.removing owner rfl
  refine ⟨h.removeRows hlocks hfree a.cleanupError, .idle .returned, ?_⟩
  refine ⟨List.Subset.refl _, List.Subset.refl _, List.Subset.refl _, ?_,
    fun _ hlock => .inl hlock, ?_, ?_, nofun⟩
  · intro x o hheld
    rw [removeRows, LockDb.holder_removeUnless] at hheld
    exact .inl hheld
  · intro _ _
    refine ⟨rfl, rfl, rfl, rfl, LockDb.holder_removeUnless, ?_, fun _ hlock => .inl hlock⟩
    intro o x hlists
    by_cases howner : o = owner
    · exact .inr (by rw [howner]; rfl)
    · exact .inl (hlists.removeUnless howner a.cleanupError)
  · rintro (hin | hin) <;> cases hin

/-- The removal of a proposal is a change that others do not see. -/
theorem Step.removeProposal (h : Sound w) {p q : Point} (hq : q.Idle) (id : ProposalId) :
  Step w p ({ w with store := w.store.removeProposal id }, q)
  := by
  refine ⟨h.removeProposal id, .idle hq, List.Subset.refl _, List.Subset.refl _,
    List.Subset.refl _, fun _ _ hheld => .inl hheld, fun _ hlock => .inl hlock, ?_, ?_, ?_⟩
  · intro _ _
    exact ⟨rfl, rfl, rfl, rfl, rfl, fun _ _ hlists => .inl hlists, fun _ hlock => .inl hlock⟩
  · intro hin
    exact absurd hin hq.not_inWrite
  · intro stored hstored
    rw [hq.executed] at hstored
    cases hstored

theorem discardStoredProposal_step (h : Sound w) {a : Answer} {sendFlowId : String} :
  Step w (.discard id sendFlowId) (w.discardStoredProposal a id sendFlowId)
  := by
  unfold discardStoredProposal
  split
  · exact .quit h .returned
  split
  · split
    · exact .removeProposal h .finish id
    · exact .quit h .returned
  · split
    · split
      · exact .quit h .finish
      · exact .quit h .returned
    · exact .quit h .returned

theorem retainStoredProposalLock_step (h : Sound w) {a : Answer} {sendFlowId : String} :
  Step w (.retain id sendFlowId) (w.retainStoredProposalLock a id sendFlowId)
  := by
  unfold retainStoredProposalLock
  split
  · exact .quit h .returned
  split
  · rename_i lock hlock
    obtain ⟨hmem, hid⟩ := mem_of_lock? hlock
    split
    · refine .stay h ?_ ?_ nofun
      · constructor
        case retaining =>
          rintro _ _ ⟨⟩
          exact ⟨lock, h.locks lock hmem, hid, rfl⟩
        all_goals nofun
      · rintro (hin | hin) <;> cases hin
    · exact .quit h .returned
  · exact .quit h .returned

theorem retainMark_step (h : Sound w) {a : Answer} {sendFlowId : String}
    (hrelies : Relies w (.retainMark id sendFlowId owner)) :
  Step w (.retainMark id sendFlowId owner) (w.retainMark a id sendFlowId owner)
  := by
  obtain ⟨k, hk, hid, howner⟩ := hrelies.retaining id owner rfl
  subst hid howner
  have hdrawn : w.Drawn k.owner := ⟨_, h.known k hk, rfl⟩
  unfold retainMark
  split
  · exact .wait h hrelies
  rename_i hwriting
  rw [Bool.not_eq_true] at hwriting
  split
  · exact .quit h .returned
  split
  · rename_i hgone
    refine ⟨h.retain hdrawn (h.owner_ne_of_gone hk ?_), .idle .returned, ?_⟩
    · intro lock hlock hsame
      have hnone := List.find?_eq_none.mp hgone lock hlock
      simp [hsame] at hnone
    · exact .write (.inr hwriting) rfl rfl (List.Subset.refl _) (fun _ _ hheld => .inl hheld)
        (List.Subset.refl _) nofun
  split
  · exact .quit h .returned
  split
  · exact .quit h .returned
  rename_i db hrun
  obtain ⟨hholder, hlists⟩ := LockDb.markRetainUntilExpiry_eq_ok (run_eq_ok hrun)
  have hheld : ∀ x o, db.holder x = some o → w.db.holder x = some o := by
    intro x o hheld
    rwa [hholder] at hheld
  have hmarked : Sound { w with db := db } := h.of_db hheld hlists
  split
  · refine ⟨hmarked, .idle .returned, ?_⟩
    exact .write (.inr hwriting) rfl rfl (List.Subset.refl _) (fun x o hnew => .inl (hheld x o hnew))
      (List.Subset.refl _) nofun
  · have hremoved := (hmarked.removeProposal k.proposalId).removeLock k.proposalId
    refine ⟨hremoved.retain hdrawn ?_, .idle .returned, ?_⟩
    · apply hremoved.owner_ne_of_gone hk
      intro lock hlock
      apply (mem_removeLock.mp hlock).2
    · refine .write (.inr hwriting) rfl rfl (List.Subset.refl _)
        (fun x o hnew => .inl (hheld x o hnew)) ?_ nofun
      intro lock hlock
      apply (mem_removeLock.mp hlock).1

/-! ### The steps of an execution -/

theorem consumeStoredProposal_step (h : Sound w) {a : Answer} {sendFlowId : String}
    {dbPath : Option String} :
  Step w (.consume id sendFlowId dbPath) (w.consumeStoredProposal a id sendFlowId dbPath)
  := by
  unfold consumeStoredProposal
  split
  · exact .quit h .returned
  split
  · exact .quit h .returned
  rename_i stored hstored
  obtain ⟨hmem, rfl⟩ := mem_of_proposal? hstored
  split
  · exact .quit h .returned
  rename_i hflow
  rw [ne_eq, Decidable.not_not] at hflow
  subst hflow
  have hsound := h.consume hmem
  have heffect (q : Point) (henters : ¬q.InWrite)
      (hexecutes : ∀ other, q.executed? = some other → other = stored) :
      Effect w (.consume stored.proposalId stored.sendFlowId dbPath) ({ w with
        store := w.store.removeProposal stored.proposalId
        consumed := (stored.proposalId, stored.sendFlowId) :: w.consumed }, q) := by
    refine ⟨List.Subset.refl _, List.subset_cons_self _ _, List.Subset.refl _,
      fun _ _ hheld => .inl hheld, fun _ hlock => .inl hlock, ?_,
      fun hin => absurd hin henters, ?_⟩
    · intro _ _
      exact ⟨rfl, rfl, rfl, rfl, rfl, fun _ _ hlists => .inl hlists, fun _ hlock => .inl hlock⟩
    · intro other hother
      rw [hexecutes other hother]
      exact .inr hmem
  split
  · refine ⟨hsound, .idle .returned, heffect _ (Point.Idle.not_inWrite .returned) nofun⟩
  · refine ⟨hsound, ?_, heffect _ ?_ ?_⟩
    · constructor
      case executed =>
        rintro _ ⟨⟩
        obtain ⟨k, hk, hid, -, hinputs⟩ := h.proposals stored hmem
        exact ⟨List.mem_cons_self, k, hk, hid, hinputs⟩
      all_goals nofun
    · rintro (hin | hin) <;> cases hin
    · rintro _ ⟨⟩
      rfl

/-- An execution goes on to a point before it takes the write lock. -/
theorem Step.execute (h : Sound w) {p q : Point} {stored : StoredProposal}
    (hp : p.executed? = some stored) (hrelies : Relies w p) (hq : q.executed? = some stored)
    (hcurrent : q.current? = none) (hcreated : q.created? = none) :
  Step w p (w, q)
  := by
  have hnot : ¬q.InWrite := by
    rintro (hin | hin)
    · cases q <;> simp_all [Point.draft?, Point.executed?]
    · simp [hcurrent] at hin
  apply Step.stay h
  · have hown : ∀ other, q.executed? = some other → Executed w other := by
      intro other hother
      rw [hq, Option.some_inj] at hother
      subst hother
      apply hrelies.executed stored hp
    constructor
    case executed => exact hown
    all_goals cases q <;> simp_all [Point.draft?, Point.executed?, Point.removing?,
      Point.retaining?, Point.current?, Point.locked?, Point.created?]
  · intro hin
    exact absurd hin hnot
  · intro other hother
    rw [hp, ← hq, hother]

theorem loadSeed_step (h : Sound w) {a : Answer} {stored : StoredProposal} {dbPath : String}
    (hrelies : Relies w (.loadSeed stored dbPath)) :
  Step w (.loadSeed stored dbPath) (w.loadSeed a stored dbPath)
  := by
  unfold loadSeed
  split
  · exact .quit h .fail
  · exact .execute h rfl hrelies rfl rfl rfl

theorem readLock_step (h : Sound w) {a : Answer} {stored : StoredProposal} {dbPath : String}
    (hrelies : Relies w (.readLock stored dbPath)) :
  Step w (.readLock stored dbPath) (w.readLock a stored dbPath)
  := by
  unfold readLock
  split
  · exact .quit h .fail
  · split
    · exact .quit h .fail
    · exact .execute h rfl hrelies rfl rfl rfl

theorem readTip_step (h : Sound w) {a : Answer} {stored : StoredProposal}
    {lock : StoredProposalLock} (hrelies : Relies w (.readTip stored lock)) :
  Step w (.readTip stored lock) (w.readTip a stored lock)
  := by
  unfold readTip
  split
  · exact .quit h .fail
  · exact .execute h rfl hrelies rfl rfl rfl

theorem recheck_step (h : Sound w) {a : Answer} {stored : StoredProposal}
    {lock : StoredProposalLock} {expiryHeight : Nat}
    (hrelies : Relies w (.recheck stored lock expiryHeight)) :
  Step w (.recheck stored lock expiryHeight) (w.recheck a stored lock expiryHeight)
  := by
  unfold recheck
  split
  · exact .wait h hrelies
  rename_i hwriting
  rw [Bool.not_eq_true] at hwriting
  split
  · exact .quit h .fail
  rename_i current hrun
  obtain ⟨hmem, hid, -⟩ := of_storedProposalLock (run_eq_ok hrun)
  split
  · exact .quit h .fail
  · refine ⟨h.write true, ?_, ?_⟩
    · obtain ⟨hconsumed, hknown⟩ := hrelies.executed stored rfl
      constructor
      case executed =>
        rintro _ ⟨⟩
        exact ⟨hconsumed, hknown⟩
      case current =>
        rintro _ _ ⟨⟩
        refine ⟨rfl, h.locks current hmem, hid, ?_, .inl hmem⟩
        intro hretained
        apply (h.retained current.owner hretained).2 current hmem rfl
      all_goals nofun
    · refine .write (.inr hwriting) rfl rfl (List.Subset.refl _) (fun _ _ hheld => .inl hheld)
        (List.Subset.refl _) ?_
      rintro _ ⟨⟩
      rfl

/-- The inputs of the record are those of the proposal. -/
theorem Current.inputs (h : Sound w) {stored : StoredProposal} {current : StoredProposalLock}
    (hcurrent : Current w stored current) (hexecuted : Executed w stored) :
  current.inputs = stored.inputs
  := by
  obtain ⟨k, hk, hid, hinputs⟩ := hexecuted.known
  rw [← hinputs, h.ids current hcurrent.known k hk (hcurrent.id.trans hid.symm)]

theorem relock_step (h : Sound w) {a : Answer} {stored : StoredProposal}
    {current : StoredProposalLock} {expiryHeight : Nat}
    (hrelies : Relies w (.relock stored current expiryHeight)) :
  Step w (.relock stored current expiryHeight) (w.relock a stored current expiryHeight)
  := by
  have hin : (Point.relock stored current expiryHeight).InWrite := .inr rfl
  have hcurrent := hrelies.current stored current rfl
  have hexecuted := hrelies.executed stored rfl
  have hinputs := hcurrent.inputs h hexecuted
  unfold relock
  split
  · exact .release h hin .fail
  split
  · exact .release h hin .fail
  rename_i db hrun
  have hok := run_eq_ok hrun
  have hdrawn := h.known current hcurrent.known
  rw [hinputs] at hdrawn
  refine ⟨h.lockOutputs hok hdrawn ?_, ?_, ?_⟩
  · rcases hcurrent.stored with hstored | huntracked
    · right
      intro x hx
      apply h.records current hstored
      rw [hinputs]
      apply hx
    · exact .inl huntracked
  · obtain rfl := LockDb.lockOutputs_eq_ok hok
    constructor
    case executed =>
      rintro _ ⟨⟩
      exact ⟨hexecuted.consumed, hexecuted.known⟩
    case current =>
      rintro _ _ ⟨⟩
      exact ⟨hcurrent.writing, hcurrent.known, hcurrent.id, hcurrent.retained, hcurrent.stored⟩
    case locked =>
      rintro _ _ ⟨⟩ x hx
      apply if_pos hx
    all_goals nofun
  · obtain rfl := LockDb.lockOutputs_eq_ok hok
    refine .write (.inl hin) rfl rfl (List.Subset.refl _) ?_ (List.Subset.refl _) ?_
    · intro x o hheld
      dsimp only at hheld
      split at hheld
      · exact .inr hheld
      · exact .inl hheld
    · rintro _ ⟨⟩
      rfl

theorem updateExpiry_step (h : Sound w) {a : Answer} {stored : StoredProposal}
    {current : StoredProposalLock} {expiryHeight : Nat}
    (hrelies : Relies w (.updateExpiry stored current expiryHeight)) :
  Step w (.updateExpiry stored current expiryHeight)
    (w.updateExpiry a stored current expiryHeight)
  := by
  have hin : (Point.updateExpiry stored current expiryHeight).InWrite := .inr rfl
  have hcurrent := hrelies.current stored current rfl
  have hexecuted := hrelies.executed stored rfl
  have hlocked := hrelies.locked stored current rfl
  unfold updateExpiry
  split
  · exact .release h hin .fail
  rename_i db hrun
  obtain ⟨hholder, hlists⟩ := LockDb.updateExpiry_eq_ok (run_eq_ok hrun)
  have hheld : ∀ x o, db.holder x = some o → w.db.holder x = some o := by
    intro x o hheld
    rwa [hholder] at hheld
  refine ⟨h.of_db hheld hlists, ?_, ?_⟩
  · constructor
    case executed =>
      rintro _ ⟨⟩
      exact ⟨hexecuted.consumed, hexecuted.known⟩
    case current =>
      rintro _ _ ⟨⟩
      exact ⟨hcurrent.writing, hcurrent.known, hcurrent.id, hcurrent.retained, hcurrent.stored⟩
    case locked =>
      rintro _ _ ⟨⟩ x hx
      dsimp only
      rw [hholder]
      apply hlocked x hx
    all_goals nofun
  · refine .write (.inl hin) rfl rfl (List.Subset.refl _) (fun x o hnew => .inl (hheld x o hnew))
      (List.Subset.refl _) ?_
    rintro _ ⟨⟩
    rfl

theorem create_step (h : Sound w) {a : Answer} {stored : StoredProposal}
    {current : StoredProposalLock} (hrelies : Relies w (.create stored current)) :
  Step w (.create stored current) (w.create a stored current)
  := by
  have hin : (Point.create stored current).InWrite := .inr rfl
  have hcurrent := hrelies.current stored current rfl
  have hexecuted := hrelies.executed stored rfl
  have hinputs := hcurrent.inputs h hexecuted
  unfold create
  split
  · exact .release h hin .fail
  have hheld : ∀ x o, (w.db.clearSpent stored.inputs).holder x = some o →
      x ∉ stored.inputs ∧ w.db.holder x = some o := by
    intro x o hheld
    unfold LockDb.clearSpent at hheld
    dsimp only at hheld
    split at hheld
    · cases hheld
    · exact ⟨‹_›, hheld⟩
  refine ⟨(h.of_db (fun x o hnew => (hheld x o hnew).2) fun _ _ hlists => hlists).write false,
    ?_, ?_⟩
  · constructor
    case executed =>
      rintro _ ⟨⟩
      exact ⟨hexecuted.consumed, hexecuted.known⟩
    case created =>
      rintro _ _ ⟨⟩
      refine ⟨hcurrent.known, hcurrent.id, ?_⟩
      intro x hx
      obtain ⟨hnot, hold⟩ := hheld x current.owner hx
      apply hnot
      rw [← hinputs]
      apply h.held x current.owner hold _ (h.known current hcurrent.known) rfl
    all_goals nofun
  · refine .write (.inl hin) rfl rfl (List.Subset.refl _)
      (fun x o hnew => .inl (hheld x o hnew).2) (List.Subset.refl _) ?_
    rintro _ ⟨⟩
    rfl

theorem created_step (h : Sound w) {a : Answer} {stored : StoredProposal}
    {current : StoredProposalLock} (hrelies : Relies w (.created stored current)) :
  Step w (.created stored current) (w.created a stored)
  := by
  obtain ⟨hknown, hid, hfree⟩ := hrelies.created stored current rfl
  unfold created
  split
  · rename_i lock _ hlock
    obtain ⟨hmem, hlockId, -⟩ := of_storedProposalLock hlock
    obtain rfl : lock = current :=
      h.ids lock (h.locks lock hmem) current hknown (hlockId.trans hid.symm)
    refine ⟨h.removeLock stored.proposalId, ?_, ?_⟩
    · constructor
      case removing =>
        rintro _ ⟨⟩
        refine ⟨⟨lock, hknown, rfl⟩, ?_, .inr hfree⟩
        apply (h.removeLock stored.proposalId).owner_ne_of_gone hknown
        intro other hother
        rw [hid]
        apply (mem_removeLock.mp hother).2
      all_goals nofun
    · refine ⟨List.Subset.refl _, List.Subset.refl _, List.Subset.refl _,
        fun _ _ hheld => .inl hheld, fun other hother => .inl (mem_removeLock.mp hother).1, ?_,
        ?_, nofun⟩
      · intro _ _
        refine ⟨rfl, rfl, rfl, rfl, rfl, fun _ _ hlists => .inl hlists, ?_⟩
        intro other hother
        by_cases hsame : other.proposalId = stored.proposalId
        · exact .inr (.inr ⟨stored, rfl, hsame⟩)
        · exact .inl (mem_removeLock.mpr ⟨hother, hsame⟩)
      · rintro (hin | hin) <;> cases hin
  · exact .quit h .returned

/-! ### Any step -/

/-- A step of a call, with what it gets from outside. -/
theorem advance_step (h : Sound w) {a : Answer} {p : Point} (hrelies : Relies w p)
    (ha : ∀ sendFlowId, p = .propose sendFlowId → Fresh a w) :
  Step w p (w.advance a p)
  := by
  cases p with
  | propose sendFlowId => exact propose_step h (ha sendFlowId rfl)
  | proposeLock draft => exact proposeLock_step h hrelies
  | proposeStore draft => exact proposeStore_step h hrelies
  | consume id sendFlowId dbPath => exact consumeStoredProposal_step h
  | loadSeed stored dbPath => exact loadSeed_step h hrelies
  | readLock stored dbPath => exact readLock_step h hrelies
  | readTip stored lock => exact readTip_step h hrelies
  | recheck stored lock expiryHeight => exact recheck_step h hrelies
  | relock stored current expiryHeight => exact relock_step h hrelies
  | updateExpiry stored current expiryHeight => exact updateExpiry_step h hrelies
  | create stored current => exact create_step h hrelies
  | created stored current => exact created_step h hrelies
  | finish id sendFlowId release cause => exact finishStoredProposal_step h
  | unlock id sendFlowId cause => exact unlockStoredProposal_step h
  | removeRows owner logged => exact removeRows_step h hrelies
  | discard id sendFlowId => exact discardStoredProposal_step h
  | retain id sendFlowId => exact retainStoredProposalLock_step h
  | retainMark id sendFlowId owner => exact retainMark_step h hrelies
  | returned result => exact .wait h hrelies

end ProposalWallet

end Proposal

end Vizor
