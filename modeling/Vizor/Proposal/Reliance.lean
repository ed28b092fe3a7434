import Vizor.Proposal.Sound

/-!
# What calls on the store of send proposals rely on

At each point a call relies on facts that the steps of other calls must keep.  A call that
holds the write lock of the wallet relies on the rows and locks of its own owner; a call that
executes a proposal relies on being the only one that does.  A step is judged by what it
keeps, by the point to which it comes, and by its effect on the others.
-/

namespace Vizor

open Table Run Interleave

namespace Proposal

variable {w w' : ProposalWallet} {id : ProposalId} {owner o : LockOwner} {db : LockDb}

/-! ### Points -/

namespace Point

/-- The draft that a call holds. -/
def draft? : Point → Option Draft
  | .proposeLock draft | .proposeStore draft => some draft
  | _ => none

/-- The proposal that a call executes. -/
def executed? : Point → Option StoredProposal
  | .loadSeed stored _ | .readLock stored _ | .readTip stored _ | .recheck stored _ _
  | .relock stored _ _ | .updateExpiry stored _ _ | .create stored _ | .created stored _ =>
    some stored
  | _ => none

/-- The record under which a call executes its proposal, holding the write lock. -/
def current? : Point → Option (StoredProposal × StoredProposalLock)
  | .relock stored current _ | .updateExpiry stored current _ | .create stored current =>
    some (stored, current)
  | _ => none

/-- The record under which the inputs of a proposal are locked again. -/
def locked? : Point → Option (StoredProposal × StoredProposalLock)
  | .updateExpiry stored current _ | .create stored current => some (stored, current)
  | _ => none

/-- The record under which transactions were created. -/
def created? : Point → Option (StoredProposal × StoredProposalLock)
  | .created stored current => some (stored, current)
  | _ => none

/-- The owner whose rows a call removes. -/
def removing? : Point → Option LockOwner
  | .removeRows owner _ => some owner
  | _ => none

/-- What a call is about to retain. -/
def retaining? : Point → Option (ProposalId × LockOwner)
  | .retainMark id _ owner => some (id, owner)
  | _ => none

/-- Whether a call holds the write lock of the wallet. -/
def InWrite (p : Point) : Prop :=
  p.draft?.isSome ∨ p.current?.isSome

/-- The owner for which the next step of a call may lock inputs. -/
def locking? : Point → Option LockOwner
  | .proposeLock draft => some draft.owner
  | .relock _ current _ => some current.owner
  | _ => none

/-- Calls keep each other out: one of them holds the write lock, and no two execute the same
proposal. -/
def Excludes (p q : Point) : Prop :=
  ¬(p.InWrite ∧ q.InWrite) ∧ ∀ stored ∈ p.executed?, ∀ other ∈ q.executed?,
    stored.proposalId ≠ other.proposalId

end Point

namespace ProposalWallet

/-- What a draft relies on: it was drawn, and is not known. -/
structure Drafted (w : ProposalWallet) (draft : Draft) : Prop where
  writing : w.writing = true
  drawn : (draft.owner, draft.inputs) ∈ w.drawn
  unknown : ∀ k ∈ w.known, k.owner ≠ draft.owner
  retained : draft.owner ∉ w.retained
  rows : ∀ x ∈ draft.inputs, w.db.Lists draft.owner x

/-- What an execution relies on: its proposal is consumed and known. -/
structure Executed (w : ProposalWallet) (stored : StoredProposal) : Prop where
  consumed : (stored.proposalId, stored.sendFlowId) ∈ w.consumed
  known : ∃ k ∈ w.known, k.proposalId = stored.proposalId ∧ k.inputs = stored.inputs

/-- What an execution under the write lock relies on: its record is that of its proposal and
is not retained; and it is stored, unless it was given up. -/
structure Current (w : ProposalWallet) (stored : StoredProposal) (current : StoredProposalLock) :
    Prop where
  writing : w.writing = true
  known : current ∈ w.known
  id : current.proposalId = stored.proposalId
  retained : current.owner ∉ w.retained
  stored : current ∈ w.store.locks ∨ current.owner ∈ w.untracked

/-- What a call relies on at its point. -/
structure Relies (w : ProposalWallet) (p : Point) : Prop where
  draft : ∀ draft, p.draft? = some draft → Drafted w draft
  unlocked : ∀ draft, p = .proposeLock draft → ∀ x, w.db.holder x ≠ some draft.owner
  executed : ∀ stored, p.executed? = some stored → Executed w stored
  current : ∀ stored current, p.current? = some (stored, current) → Current w stored current
  locked : ∀ stored current, p.locked? = some (stored, current) →
    ∀ x ∈ stored.inputs, w.db.holder x = some current.owner
  created : ∀ stored current, p.created? = some (stored, current) →
    current ∈ w.known ∧ current.proposalId = stored.proposalId
      ∧ ∀ x, w.db.holder x ≠ some current.owner
  removing : ∀ owner, p.removing? = some owner → (∃ k ∈ w.known, k.owner = owner)
    ∧ (∀ lock ∈ w.store.locks, lock.owner ≠ owner)
    ∧ (owner ∈ w.untracked ∨ ∀ x, w.db.holder x ≠ some owner)
  retaining : ∀ id owner, p.retaining? = some (id, owner) →
    ∃ k ∈ w.known, k.proposalId = id ∧ k.owner = owner

/-- What a step of another call keeps while a call holds the write lock. -/
structure Quiet (w : ProposalWallet) (p : Point) (w' : ProposalWallet) : Prop where
  writing : w'.writing = w.writing
  drawn : w'.drawn = w.drawn
  known : w'.known = w.known
  retained : w'.retained = w.retained
  holder : w'.db.holder = w.db.holder
  rows : ∀ o x, w.db.Lists o x → w'.db.Lists o x ∨ p.removing? = some o
  locks : ∀ lock ∈ w.store.locks, lock ∈ w'.store.locks ∨ lock.owner ∈ w'.untracked
    ∨ ∃ stored, p.executed? = some stored ∧ lock.proposalId = stored.proposalId

/-- What a step of a call does, as far as others can see it. -/
structure Effect (w : ProposalWallet) (p : Point) (next : ProposalWallet × Point) : Prop where
  known : w.known ⊆ next.1.known
  consumed : w.consumed ⊆ next.1.consumed
  untracked : w.untracked ⊆ next.1.untracked
  holder : ∀ x o, next.1.db.holder x = some o → w.db.holder x = some o ∨ p.locking? = some o
  locks : ∀ lock ∈ next.1.store.locks, lock ∈ w.store.locks
    ∨ ∃ draft, p.draft? = some draft ∧ lock.owner = draft.owner
  quiet : w.writing = true → ¬p.InWrite → Quiet w p next.1
  enters : next.2.InWrite → p.InWrite ∨ w.writing = false
  executes : ∀ stored, next.2.executed? = some stored →
    p.executed? = some stored ∨ stored ∈ w.store.proposals

/-- A step keeps what holds between the steps, comes to a point on which the call can rely,
and has an effect that others allow. -/
structure Step (w : ProposalWallet) (p : Point) (next : ProposalWallet × Point) : Prop where
  sound : Sound next.1
  relies : Relies next.1 next.2
  effect : Effect w p next

end ProposalWallet

/-- A call that relies on nothing. -/
structure Point.Idle (p : Point) : Prop where
  draft : p.draft? = none
  executed : p.executed? = none
  removing : p.removing? = none
  retaining : p.retaining? = none

namespace Point

theorem Idle.returned {result : Except String Unit} : (Point.returned result).Idle
  := ⟨rfl, rfl, rfl, rfl⟩

theorem Idle.settle {cause : Option String} {result : Except String Unit} :
  (Point.settle cause result).Idle
  := ⟨rfl, rfl, rfl, rfl⟩

theorem Idle.finish {id : ProposalId} {sendFlowId : String} {release : Bool}
    {cause : Option String} :
  (Point.finish id sendFlowId release cause).Idle
  := ⟨rfl, rfl, rfl, rfl⟩

theorem Idle.unlock {id : ProposalId} {sendFlowId : String} {cause : Option String} :
  (Point.unlock id sendFlowId cause).Idle
  := ⟨rfl, rfl, rfl, rfl⟩

theorem Idle.fail {stored : StoredProposal} {error : String} : (Point.fail stored error).Idle
  := ⟨rfl, rfl, rfl, rfl⟩

/-- A call that holds the write lock has a draft or executes a proposal. -/
theorem Idle.not_inWrite {p : Point} (h : p.Idle) : ¬p.InWrite
  := by
  obtain ⟨hdraft, hexecuted, -, -⟩ := h
  rintro (hin | hin)
  · simp [hdraft] at hin
  · cases p <;> simp_all [Point.current?, Point.executed?]

end Point

namespace ProposalWallet

theorem Relies.idle {q : Point} (hq : q.Idle) : Relies w q
  := by
  obtain ⟨hdraft, hexecuted, hremoving, hretaining⟩ := hq
  constructor
  all_goals cases q <;> simp_all [Point.draft?, Point.executed?, Point.removing?,
    Point.retaining?, Point.current?, Point.locked?, Point.created?]

/-- A change that others do not see. -/
theorem Quiet.refl {p : Point} : Quiet w p w
  := ⟨rfl, rfl, rfl, rfl, rfl, fun _ _ h => .inl h, fun _ h => .inl h⟩

/-- A step of a call that changes nothing. -/
theorem Step.stay (h : Sound w) {p q : Point} (hq : Relies w q) (henters : q.InWrite → p.InWrite)
    (hexecutes : ∀ stored, q.executed? = some stored → p.executed? = some stored) :
  Step w p (w, q)
  := ⟨h, hq, List.Subset.refl _, List.Subset.refl _, List.Subset.refl _,
    fun _ _ hheld => .inl hheld, fun _ hlock => .inl hlock, fun _ _ => .refl,
    fun hin => .inl (henters hin), fun stored hstored => .inl (hexecutes stored hstored)⟩

/-- A call waits for the write lock. -/
theorem Step.wait (h : Sound w) {p : Point} (hp : Relies w p) : Step w p (w, p)
  := .stay h hp id fun _ => id

/-- A call goes on to a point where it relies on nothing. -/
theorem Step.quit (h : Sound w) {p q : Point} (hq : q.Idle) : Step w p (w, q)
  := .stay h (.idle hq) (fun hin => absurd hin hq.not_inWrite) fun stored hstored => by
    rw [hq.executed] at hstored
    cases hstored

/-- The effect of a step under the write lock that leaves the store as it is. -/
theorem Effect.write {p q : Point} (hp : p.InWrite ∨ w.writing = false)
    (hknown : w'.known = w.known) (hconsumed : w'.consumed = w.consumed)
    (huntracked : w.untracked ⊆ w'.untracked)
    (hholder : ∀ x o, w'.db.holder x = some o → w.db.holder x = some o ∨ p.locking? = some o)
    (hlocks : w'.store.locks ⊆ w.store.locks)
    (hexecutes : ∀ stored, q.executed? = some stored → p.executed? = some stored) :
  Effect w p (w', q)
  where
  known := by rw [hknown]; apply List.Subset.refl
  consumed := by rw [hconsumed]; apply List.Subset.refl
  untracked := huntracked
  holder := hholder
  locks := fun lock hlock => .inl (hlocks hlock)
  quiet := by
    intro hwriting hnot
    rcases hp with hp | hp
    · exact absurd hp hnot
    · rw [hp] at hwriting
      cases hwriting
  enters := fun _ => hp
  executes := fun stored hstored => .inl (hexecutes stored hstored)

/-- A call that holds the write lock gives it back, and relies on nothing. -/
theorem Step.release (h : Sound w) {p q : Point} (hp : p.InWrite) (hq : q.Idle) :
  Step w p ({ w with writing := false }, q)
  where
  sound := h.write false
  relies := .idle hq
  effect := .write (.inl hp) rfl rfl (List.Subset.refl _) (fun _ _ hheld => .inl hheld)
    (List.Subset.refl _) fun stored hstored => by
      rw [hq.executed] at hstored
      cases hstored

end ProposalWallet

end Proposal

end Vizor
