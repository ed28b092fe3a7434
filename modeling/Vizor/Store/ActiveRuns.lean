import Vizor.Store.Absorbing

/-!
# Active runs of an account

An account has at most one run in an active phase on a network.  A creation looks for an
active run before its transaction begins, and the recovery of a failed run reads the run
before the transaction that makes it active again, so that another call may commit between
the two.  When every such transaction still finds no active run, there is never more than
one.
-/

namespace Vizor

open Table Run

/-- The run is in a phase in which it is active. -/
def MigrationRun.Active (run : MigrationRun) : Prop :=
  run.phase ≠ .noOrchardFunds ∧ run.phase.releasesWalletLocks = false

namespace Store

/-! ### Active runs -/

/-- The active runs of an account. -/
def activeRuns (s : Store) (account : AccountUuid) (network : WalletNetwork) :
    List MigrationRun :=
  s.runs.filter fun run => run.accountUuid = account && run.network = network
    && run.phase ≠ .noOrchardFunds && !run.phase.releasesWalletLocks

/-- There is never more than one active run. -/
def AtMostOneActive (s : Store) : Prop :=
  ∀ account network, (s.activeRuns account network).length ≤ 1

/-- No run is in the phase of an account without funds, which is not stored. -/
def Funded (s : Store) : Prop :=
  ∀ run ∈ s.runs, run.phase ≠ .noOrchardFunds

/-- Active runs of one account have one identifier. -/
def OneActive (s : Store) : Prop :=
  ∀ run ∈ s.runs, ∀ other ∈ s.runs, run.Active → other.Active →
    run.accountUuid = other.accountUuid → run.network = other.network →
    run.runId = other.runId

variable {l : Licence} {s s' t : Store} {r : RunId}

theorem mem_activeRuns {account : AccountUuid} {network : WalletNetwork} {run : MigrationRun} :
  run ∈ s.activeRuns account network
    ↔ run ∈ s.runs ∧ run.accountUuid = account ∧ run.network = network ∧ run.Active
  := by
  simp only [activeRuns, List.mem_filter, Bool.and_eq_true, decide_eq_true_eq,
    Bool.not_eq_true', MigrationRun.Active]
  tauto

theorem foldl_latest_isSome (runs : List MigrationRun) (best : MigrationRun) :
  ∃ run, runs.foldl (fun best run => match best with
      | none => some run
      | some other => if other.createdAtMs < run.createdAtMs then some run else some other)
    (some best) = some run
  := by
  induction runs generalizing best with
  | nil => exact ⟨best, rfl⟩
  | cons run runs ih =>
    rw [List.foldl_cons]
    dsimp only
    split
    · apply ih
    · apply ih

/-- The query finds no active run when there is none. -/
theorem activeRun_eq_none {account : AccountUuid} {network : WalletNetwork} :
  s.activeRun account network = none ↔ s.activeRuns account network = []
  := by
  have hquery : s.activeRun account network = (s.activeRuns account network).foldl
      (fun best run => match best with
        | none => some run
        | some other => if other.createdAtMs < run.createdAtMs then some run else some other)
      none := rfl
  rw [hquery]
  cases s.activeRuns account network with
  | nil => simp
  | cons run runs =>
    obtain ⟨latest, hlatest⟩ := foldl_latest_isSome runs run
    rw [List.foldl_cons]
    simp only [reduceCtorEq, iff_false]
    rw [hlatest]
    simp

/-- With keys, one identifier is one row. -/
theorem OneActive.atMostOneActive (h : s.OneActive) (hruns : s.RunsUnique) :
  s.AtMostOneActive
  := by
  intro account network
  have hnodup : ((s.activeRuns account network).map (·.runId)).Nodup :=
    List.Nodup.sublist (List.Sublist.map _ List.filter_sublist) hruns
  cases hactive : s.activeRuns account network with
  | nil => simp
  | cons run runs =>
    cases runs with
    | nil => simp
    | cons other runs =>
      have hrun : run ∈ s.activeRuns account network := by simp [hactive]
      have hother : other ∈ s.activeRuns account network := by simp [hactive]
      obtain ⟨hrun, haccount, hnetwork, hrunActive⟩ := mem_activeRuns.mp hrun
      obtain ⟨hother, haccount', hnetwork', hotherActive⟩ := mem_activeRuns.mp hother
      have hid := h run hrun other hother hrunActive hotherActive
        (haccount.trans haccount'.symm) (hnetwork.trans hnetwork'.symm)
      rw [hactive] at hnodup
      simp [hid] at hnodup

theorem AtMostOneActive.oneActive (h : s.AtMostOneActive) :
  s.OneActive
  := by
  intro run hrun other hother hactive hactive' haccount hnetwork
  have hmem := mem_activeRuns.mpr ⟨hrun, haccount, hnetwork, hactive⟩
  have hmem' := mem_activeRuns.mpr ⟨hother, rfl, rfl, hactive'⟩
  have hlength := h other.accountUuid other.network
  obtain ⟨single, hsingle⟩ : ∃ single,
      s.activeRuns other.accountUuid other.network = [single] := by
    apply List.length_eq_one_iff.mp
    have := List.length_pos_of_mem hmem
    omega
  rw [hsingle, List.mem_singleton] at hmem hmem'
  rw [hmem, hmem']

/-! ### Transactions that activate no run -/

/-- The runs of `t` are runs of `s`, and are active only if they were. -/
def Descends (s t : Store) : Prop :=
  ∀ run ∈ t.runs, ∃ old ∈ s.runs, old.runId = run.runId
    ∧ old.accountUuid = run.accountUuid ∧ old.network = run.network
    ∧ (run.Active → old.Active)

theorem Descends.refl :
  s.Descends s
  := fun run hrun => ⟨run, hrun, rfl, rfl, rfl, id⟩

theorem Descends.oneActive (h : s.Descends t) (hone : s.OneActive) :
  t.OneActive
  := by
  intro run hrun other hother hactive hactive' haccount hnetwork
  obtain ⟨old, hold, hid, hacc, hnet, hrunActive⟩ := h run hrun
  obtain ⟨old', hold', hid', hacc', hnet', hotherActive⟩ := h other hother
  rw [← hid, ← hid']
  apply hone old hold old' hold' (hrunActive hactive) (hotherActive hactive')
  · rw [hacc, hacc', haccount]
  · rw [hnet, hnet', hnetwork]

/-- The licence only writes the phases of runs that are active in `s`. -/
structure OnlyActive (l : Licence) (s : Store) : Prop where
  rephase : ∀ r, l.rephase r → ∀ run ∈ s.runs, run.runId = r →
    run.phase.releasesWalletLocks = false
  unfund : ∀ r, ¬l.unfund r
  recover : ∀ r, ¬l.recover r
  create : ∀ r, ¬l.create r

/-- A statement under such a licence activates no run. -/
theorem Change.descends (hchange : Change l t s') (hl : OnlyActive l s) (hs : s.Funded)
    (ht : s.Descends t ∧ t.Funded) :
  s.Descends s' ∧ s'.Funded
  := by
  obtain ⟨hdescends, hfunded⟩ := ht
  cases hchange with
  | runs f hruns _ hf =>
    unfold Descends Funded
    rw [hruns]
    constructor
    · intro run hrun
      obtain ⟨before, hbefore, rfl⟩ := List.mem_map.mp hrun
      obtain ⟨old, hold, hid, hacc, hnet, hactive⟩ := hdescends before hbefore
      have htouched := hf before hbefore
      refine ⟨old, hold, hid.trans htouched.runId.symm, hacc.trans htouched.owner.1.symm,
        hnet.trans htouched.owner.2.symm, ?_⟩
      intro hafter
      rcases htouched.phase with hsame | ⟨hwrite, -, -⟩
      · apply hactive
        rw [MigrationRun.Active, ← hsame]
        apply hafter
      · rcases hwrite with hlive | hrephase | ⟨-, hrecover⟩
        · apply hactive ⟨hfunded before hbefore, hlive⟩
        · exact ⟨hs old hold, hl.rephase _ hrephase old hold hid⟩
        · exact absurd hrecover (hl.recover _)
    · intro run hrun hphase
      obtain ⟨before, hbefore, rfl⟩ := List.mem_map.mp hrun
      rcases (hf before hbefore).phase with hsame | ⟨-, -, hunfund⟩
      · apply hfunded before hbefore (hsame.symm.trans hphase)
      · apply hl.unfund _ (hunfund hphase)
  | pending f hruns _ _ => exact ⟨by rwa [Descends, hruns], by rwa [Funded, hruns]⟩
  | discard q hruns _ => exact ⟨by rwa [Descends, hruns], by rwa [Funded, hruns]⟩
  | insert row hruns _ _ _ _ => exact ⟨by rwa [Descends, hruns], by rwa [Funded, hruns]⟩
  | replace old row q hruns _ _ _ _ _ _ => exact ⟨by rwa [Descends, hruns], by rwa [Funded, hruns]⟩
  | create run _ _ _ _ hcreate => exact absurd hcreate (hl.create _)
  | drop q hruns _ _ =>
    unfold Descends Funded
    rw [hruns]
    constructor
    · intro run hrun
      apply hdescends run (mem_deleteWhere.mp hrun).1
    · intro run hrun
      apply hfunded run (mem_deleteWhere.mp hrun).1

theorem Evolves.descends (h : Evolves l s s') (hl : OnlyActive l s) (hs : s.Funded) :
  s.Descends s' ∧ s'.Funded
  := h.invariant (fun _ _ hchange ht => hchange.descends hl hs ht) ⟨Descends.refl, hs⟩

/-! ### Transactions that activate a run -/

/-- A new run is the only active one where the query found none. -/
theorem insertRun_oneActive {run : MigrationRun} {what : String}
    (hnone : s.activeRun run.accountUuid run.network = none)
    (hphase : run.phase ≠ .noOrchardFunds) (hone : s.OneActive) (hs : s.Funded)
    (h : s.insertRun run what = .ok s') :
  s'.OneActive ∧ s'.Funded
  := by
  simp only [insertRun, bind_eq_ok, pure_eq_ok, ensure_eq_ok] at h
  obtain ⟨_, -, rfl⟩ := h
  rw [activeRun_eq_none] at hnone
  have hother : ∀ other ∈ s.runs, other.Active → other.accountUuid = run.accountUuid →
      other.network = run.network → False := by
    intro other hmem hactive haccount hnetwork
    have hmem := mem_activeRuns.mpr ⟨hmem, haccount, hnetwork, hactive⟩
    rw [hnone] at hmem
    cases hmem
  constructor
  · intro a ha b hb hactive hactive' haccount hnetwork
    rcases List.mem_append.mp ha with hold | hnew
    · rcases List.mem_append.mp hb with hold' | hnew'
      · apply hone a hold b hold' hactive hactive' haccount hnetwork
      · rw [List.mem_singleton.mp hnew'] at haccount hnetwork
        apply (hother a hold hactive haccount hnetwork).elim
    · rw [List.mem_singleton.mp hnew] at haccount hnetwork ⊢
      rcases List.mem_append.mp hb with hold' | hnew'
      · apply (hother b hold' hactive' haccount.symm hnetwork.symm).elim
      · rw [List.mem_singleton.mp hnew']
  · intro other hmem
    rcases List.mem_append.mp hmem with hmem | hmem
    · apply hs other hmem
    · obtain rfl := List.mem_singleton.mp hmem
      apply hphase

theorem onlyActive_none : OnlyActive .none s where
  rephase _ h := h.elim
  unfund _ h := h
  recover _ h := h
  create _ h := h

/-- The transaction of a creation keeps one active run where the query finds none. -/
theorem insertCreatedRun_oneActive {new : NewRun} {preparedNotes : List PreparedOrchardNoteRef}
    {signedChildren : List SignedMigrationPcztInsert}
    {denominationStages : List DenominationStageInsert}
    {approvedSchedule : Option (List MigrationScheduleEntry)}
    (hnone : s.activeRun new.accountUuid new.network = none)
    (hone : s.OneActive) (hs : s.Funded)
    (h : s.insertCreatedRun new preparedNotes signedChildren denominationStages approvedSchedule
      = .ok s') :
  s'.OneActive ∧ s'.Funded
  := by
  obtain ⟨t, ht, hafter⟩ := insertCreatedRun_evolves_after (l := .none) h
  obtain ⟨htone, htfunded⟩ := insertRun_oneActive hnone initialPhase_ne_noOrchardFunds hone hs ht
  obtain ⟨hdescends, hfunded⟩ := hafter.descends onlyActive_none htfunded
  exact ⟨hdescends.oneActive htone, hfunded⟩

/-- A draft is only added where the query of the same transaction finds no active run. -/
theorem createOrResumePrivateMigrationDraft_oneActive {new : NewRun}
    {approvedSchedule : List MigrationScheduleEntry} {r' : RunId}
    (hone : s.OneActive) (hs : s.Funded)
    (h : s.createOrResumePrivateMigrationDraft new approvedSchedule = .ok (s', r')) :
  s'.OneActive ∧ s'.Funded
  := by
  rw [createOrResumePrivateMigrationDraft] at h
  split at h
  · split at h
    · simp only [bind_eq_ok, pure_eq_ok, Prod.mk.injEq] at h
      obtain ⟨_, -, rfl, -⟩ := h
      exact ⟨hone, hs⟩
    · cases h
  · rename_i hnone
    obtain ⟨_, -, h⟩ := bind_eq_ok.mp h
    obtain ⟨_, -, h⟩ := bind_eq_ok.mp h
    obtain ⟨t, ht, h⟩ := bind_eq_ok.mp h
    rw [pure_eq_ok, Prod.mk.injEq] at h
    obtain ⟨rfl, -⟩ := h
    apply insertRun_oneActive _ _ hone hs ht
    · apply hnone
    · simp [NewRun.row]

/-- The transaction of a recovery: the run that was read is active again, if it still is the
failed run with the same error. -/
def restoreRun (s : Store) (r : RunId) (lastError : String) : Store :=
  let selected (run : MigrationRun) : Bool := run.runId = r && run.phase = .failedTerminal
    && run.lastError = some lastError
  if s.runs.countP selected = 0 then s
  else (s.updateRuns selected
    fun run => { run with phase := .broadcastScheduled, lastError := none }).updatePreparedNotes
      (fun row => row.runId = r) fun row => { row with locked := true }

/-- A recovery reads the latest run, and restores it. -/
theorem recoverLatestIdempotentBroadcastFailure_eq {account : AccountUuid}
    {network : WalletNetwork} :
  s.recoverLatestIdempotentBroadcastFailure account network
    = match s.latestIdempotentBroadcastFailure account network with
      | none => s
      | some (r, lastError) => s.restoreRun r lastError
  := rfl

/-- The run that would be restored finds no other active run. -/
def RestoresAlone (s : Store) (r : RunId) (lastError : String) : Prop :=
  ∀ run ∈ s.runs, run.runId = r → run.phase = .failedTerminal →
    run.lastError = some lastError → s.activeRun run.accountUuid run.network = none

theorem restoreRun_evolves {lastError : String} (hrecover : l.recover r) :
  Evolves l s (s.restoreRun r lastError)
  := by
  unfold restoreRun
  dsimp only
  split
  · apply Evolves.refl
  · have hruns : Evolves l s (s.updateRuns
        (fun run => run.runId = r && run.phase = .failedTerminal
          && run.lastError = some lastError)
        fun run => { run with phase := .broadcastScheduled, lastError := none }) := by
      apply evolves_updateRuns
      intro run _ hrun
      simp only [Bool.and_eq_true, decide_eq_true_eq] at hrun
      refine ⟨rfl, ⟨rfl, rfl⟩, rfl, .inr ⟨.inr (.inr ⟨hrun.1.2, ?_⟩), by simp⟩⟩
      rw [hrun.1.1]
      apply hrecover
    apply Evolves.trans hruns
    apply evolves_of_eq <;> rfl

/-- The transaction of a recovery keeps one active run where the query finds none. -/
theorem restoreRun_oneActive {lastError : String} (halone : s.RestoresAlone r lastError)
    (hone : s.OneActive) (hs : s.Funded) :
  (s.restoreRun r lastError).OneActive ∧ (s.restoreRun r lastError).Funded
  := by
  unfold restoreRun
  dsimp only
  split
  · exact ⟨hone, hs⟩
  · have hrow : ∀ run ∈ (s.updateRuns
        (fun run => run.runId = r && run.phase = .failedTerminal
          && run.lastError = some lastError)
        fun run => { run with phase := .broadcastScheduled, lastError := none }).runs,
        run ∈ s.runs ∨ (run.runId = r ∧ run.phase = .broadcastScheduled
          ∧ s.activeRun run.accountUuid run.network = none) := by
      intro run hrun
      obtain ⟨old, hold, rfl⟩ := mem_updateWhere.mp hrun
      split
      · rename_i hsel
        simp only [Bool.and_eq_true, decide_eq_true_eq] at hsel
        exact .inr ⟨hsel.1.1, rfl, halone old hold hsel.1.1 hsel.1.2 hsel.2⟩
      · exact .inl hold
    have hclash : ∀ run ∈ s.runs, run.Active →
        s.activeRun run.accountUuid run.network ≠ none := by
      intro run hrun hactive hnone
      rw [activeRun_eq_none] at hnone
      have hmem := mem_activeRuns.mpr ⟨hrun, rfl, rfl, hactive⟩
      rw [hnone] at hmem
      cases hmem
    constructor
    · intro a ha b hb hactive hactive' haccount hnetwork
      rcases hrow a ha with ha | ⟨hid, -, hnone⟩
      · rcases hrow b hb with hb | ⟨-, -, hnone⟩
        · apply hone a ha b hb hactive hactive' haccount hnetwork
        · rw [← haccount, ← hnetwork] at hnone
          exact absurd hnone (hclash a ha hactive)
      · rcases hrow b hb with hb | ⟨hid', -, -⟩
        · rw [haccount, hnetwork] at hnone
          exact absurd hnone (hclash b hb hactive')
        · rw [hid, hid']
    · intro run hrun
      rcases hrow run hrun with hrun | ⟨-, hphase, -⟩
      · apply hs run hrun
      · rw [hphase]
        decide

end Store

/-! ### Calls in progress -/

/-- A call between what it reads and its transaction. -/
inductive RunCall where
  | creating (new : Store.NewRun) (preparedNotes : List PreparedOrchardNoteRef)
      (signedChildren : List SignedMigrationPcztInsert)
      (denominationStages : List DenominationStageInsert)
      (approvedSchedule : Option (List MigrationScheduleEntry))
  | restoring (r : RunId) (lastError : String)

/-- The store and the calls in progress. -/
structure RunWorld where
  store : Store := {}
  calls : List RunCall := []

/-- What happens next: a call reads, a call commits its transaction, or another operation
runs. -/
inductive RunOp where
  | beginCreation (new : Store.NewRun) (preparedNotes : List PreparedOrchardNoteRef)
      (signedChildren : List SignedMigrationPcztInsert)
      (denominationStages : List DenominationStageInsert)
      (approvedSchedule : Option (List MigrationScheduleEntry))
  | beginRecovery (account : AccountUuid) (network : WalletNetwork)
  | commit (i : Nat)
  | op (op : Op)

namespace RunWorld

open Store

/-- The transaction of a call. -/
def write (s : Store) : RunCall → Except String Store
  | .creating new preparedNotes signedChildren denominationStages approvedSchedule =>
    s.insertCreatedRun new preparedNotes signedChildren denominationStages approvedSchedule
  | .restoring r lastError => .ok (s.restoreRun r lastError)

/-- What happens next. -/
def step (w : RunWorld) : RunOp → RunWorld
  | .beginCreation new preparedNotes signedChildren denominationStages approvedSchedule =>
    match w.store.checkCreation new preparedNotes denominationStages approvedSchedule with
    | .ok _ => { w with
        calls := w.calls
          ++ [.creating new preparedNotes signedChildren denominationStages approvedSchedule] }
    | .error _ => w
  | .beginRecovery account network =>
    match w.store.latestIdempotentBroadcastFailure account network with
    | some (r, lastError) => { w with calls := w.calls ++ [.restoring r lastError] }
    | none => w
  | .commit i =>
    match w.calls[i]? with
    | some call =>
      { store := committed w.store (write w.store call), calls := w.calls.eraseIdx i }
    | none => w
  | .op op => { w with store := w.store.step op }

/-- The transaction of a call finds no active run. -/
def CallAlone (s : Store) : RunCall → Prop
  | .creating new preparedNotes signedChildren denominationStages approvedSchedule =>
    ∀ s', s.insertCreatedRun new preparedNotes signedChildren denominationStages
      approvedSchedule = .ok s' → s.activeRun new.accountUuid new.network = none
  | .restoring r lastError => s.RestoresAlone r lastError

/-- An operation activates no finished run, but for a recovery that finds no active run. -/
structure OpAlone (s : Store) (op : Op) : Prop where
  rephase : ∀ r, (s.licence op).rephase r → ∀ run ∈ s.runs, run.runId = r →
    run.phase.releasesWalletLocks = false
  unfund : ∀ r, ¬(s.licence op).unfund r
  recover : ∀ account network r lastError,
    op = .recoverLatestIdempotentBroadcastFailure account network →
    s.latestIdempotentBroadcastFailure account network = some (r, lastError) →
    s.RestoresAlone r lastError

/-- What happens next activates a run only where there is no active one. -/
def ActivatesAlone (w : RunWorld) : RunOp → Prop
  | .beginCreation _ _ _ _ _ | .beginRecovery _ _ => True
  | .commit i => ∀ call, w.calls[i]? = some call → CallAlone w.store call
  | .op op => OpAlone w.store op

/-! ### At most one active run -/

variable {s : Store} {w : RunWorld}

theorem OpAlone.oneActive {op : Op} (hop : OpAlone s op) (hkeys : s.Keys) (hone : s.OneActive)
    (hfunded : s.Funded) :
  (s.step op).OneActive ∧ (s.step op).Funded
  := by
  have hothers : (∀ r, ¬(s.licence op).recover r) → (∀ r, ¬(s.licence op).create r) →
      (s.step op).OneActive ∧ (s.step op).Funded := by
    intro hrecover hcreate
    have hl : OnlyActive (s.licence op) s := ⟨hop.rephase, hop.unfund, hrecover, hcreate⟩
    have hevolves : Evolves (s.licence op) s (s.step op) := step_evolves hkeys.runs hkeys.txids
    obtain ⟨hdescends, hafter⟩ := hevolves.descends hl hfunded
    exact ⟨hdescends.oneActive hone, hafter⟩
  cases op with
  | createRunWithStagedDenominationsAndSignedChildren new preparedNotes signedChildren
      denominationStages approvedSchedule =>
    rw [Store.step, Store.apply, createRun_eq]
    cases hresult : (do
        s.checkCreation new preparedNotes denominationStages approvedSchedule
        s.insertCreatedRun new preparedNotes signedChildren denominationStages
          approvedSchedule) with
    | error e => exact ⟨hone, hfunded⟩
    | ok s' =>
      obtain ⟨_, hcheck, hinsert⟩ := bind_eq_ok.mp hresult
      simp only [checkCreation, bind_eq_ok, refuse_eq_ok] at hcheck
      obtain ⟨_, -, _, hnone, -⟩ := hcheck
      apply insertCreatedRun_oneActive hnone hone hfunded hinsert
  | createOrResumePrivateMigrationDraft new approvedSchedule =>
    rw [Store.step, Store.apply]
    cases hresult : s.createOrResumePrivateMigrationDraft new approvedSchedule with
    | error e => exact ⟨hone, hfunded⟩
    | ok result => exact createOrResumePrivateMigrationDraft_oneActive hone hfunded hresult
  | recoverLatestIdempotentBroadcastFailure account network =>
    have hstep : s.step (.recoverLatestIdempotentBroadcastFailure account network)
        = s.recoverLatestIdempotentBroadcastFailure account network := rfl
    rw [hstep, recoverLatestIdempotentBroadcastFailure_eq]
    split
    · exact ⟨hone, hfunded⟩
    · rename_i r lastError hlatest
      apply restoreRun_oneActive (hop.recover account network r lastError rfl hlatest) hone
        hfunded
  | _ => exact hothers (fun _ h => h) (fun _ h => h)

theorem CallAlone.oneActive {call : RunCall} (hcall : CallAlone s call) (hone : s.OneActive)
    (hfunded : s.Funded) :
  (committed s (write s call)).OneActive ∧ (committed s (write s call)).Funded
  := by
  cases call with
  | creating new preparedNotes signedChildren denominationStages approvedSchedule =>
    rw [write]
    cases hresult : s.insertCreatedRun new preparedNotes signedChildren denominationStages
        approvedSchedule with
    | error e => exact ⟨hone, hfunded⟩
    | ok s' => exact insertCreatedRun_oneActive (hcall s' hresult) hone hfunded hresult
  | restoring r lastError => exact restoreRun_oneActive hcall hone hfunded

/-- The transaction of a call keeps the keys. -/
theorem keys_write {call : RunCall} (hkeys : s.Keys) :
  (committed s (write s call)).Keys
  := by
  obtain ⟨l, hevolves⟩ : ∃ l, Evolves l s (committed s (write s call)) := by
    cases call with
    | creating new preparedNotes signedChildren denominationStages approvedSchedule =>
      use { Licence.none with create := fun r => r = new.runId }
      rw [write]
      cases hresult : s.insertCreatedRun new preparedNotes signedChildren denominationStages
          approvedSchedule with
      | error e => exact Evolves.refl
      | ok s' =>
        apply insertCreatedRun_evolves _ hresult
        rfl
    | restoring r lastError =>
      use { Licence.none with recover := fun r' => r' = r }
      apply restoreRun_evolves
      rfl
  exact ⟨hevolves.runsUnique hkeys.runs, hevolves.txidsUnique hkeys.txids⟩

/-- What happens next keeps one active run. -/
theorem step_oneActive {op : RunOp} (hop : ActivatesAlone w op)
    (h : w.store.Keys ∧ w.store.OneActive ∧ w.store.Funded) :
  (w.step op).store.Keys ∧ (w.step op).store.OneActive ∧ (w.step op).store.Funded
  := by
  obtain ⟨hkeys, hone, hfunded⟩ := h
  cases op with
  | beginCreation new preparedNotes signedChildren denominationStages approvedSchedule =>
    rw [step]
    split
    all_goals exact ⟨hkeys, hone, hfunded⟩
  | beginRecovery account network =>
    rw [step]
    split
    all_goals exact ⟨hkeys, hone, hfunded⟩
  | commit i =>
    rw [step]
    split
    · rename_i call hcall
      exact ⟨keys_write hkeys, (hop call hcall).oneActive hone hfunded⟩
    · exact ⟨hkeys, hone, hfunded⟩
  | op op => exact ⟨hkeys.step, OpAlone.oneActive hop hkeys hone hfunded⟩

/-- Along every interleaving in which each transaction that activates a run finds no active
one of its account and network, there is never more than one. -/
theorem atMostOneActive_after {ops : List RunOp} (hkeys : w.store.Keys)
    (hone : w.store.AtMostOneActive) (hfunded : w.store.Funded)
    (hops : Along step ActivatesAlone w ops) :
  (after step w ops).store.AtMostOneActive
  := by
  have hstart : w.store.Keys ∧ w.store.OneActive ∧ w.store.Funded :=
    ⟨hkeys, hone.oneActive, hfunded⟩
  have hstep : ∀ v op, (v.store.Keys ∧ v.store.OneActive ∧ v.store.Funded) →
      ActivatesAlone v op →
        (v.step op).store.Keys ∧ (v.step op).store.OneActive ∧ (v.step op).store.Funded :=
    fun _ _ h hop => step_oneActive hop h
  have hend := Run.invariant hstep hstart hops
  apply hend.2.1.atMostOneActive hend.1.runs

/-! ### Two calls at once -/

/-- A second run of the account. -/
def sampleSecondRun : NewRun :=
  { sampleRun with runId := 2, now := 1 }

/-- A creation of `new` with one prepared note. -/
def sampleCreation (new : NewRun) : RunOp :=
  .beginCreation new [sampleNote] [] [] (some [⟨some 0, 100, 10⟩])

/-- One creation after the other: the second finds the run of the first. -/
theorem atMostOneActive_after_creations :
  (after step {} [sampleCreation sampleRun, .commit 0, sampleCreation sampleSecondRun,
    .commit 0]).store.AtMostOneActive
  := by
  apply atMostOneActive_after keys_empty
  · intro account network
    simp [activeRuns]
  · intro run hrun
    cases hrun
  · refine ⟨trivial, ?_, trivial, ?_, trivial⟩
    · intro call hcall
      cases hcall
      exact fun _ _ => rfl
    · intro call hcall
      cases hcall

/-- Both creations look for an active run before either adds its own. -/
def sampleCreations : List RunOp :=
  [sampleCreation sampleRun, sampleCreation sampleSecondRun, .commit 0, .commit 0]

/-- A run fails with a transaction that was accepted already; the recovery reads it, and a
creation that looked for an active run before adds its own first. -/
def sampleRecovery : List RunOp :=
  sampleInsertion.map .op ++ [.op (.retireRunForRebuild 1 "already known"),
    .beginRecovery 1 .main, sampleCreation sampleSecondRun, .commit 1, .commit 0]

/-- Two creations, or a creation and a recovery, leave two active runs. -/
theorem sampleCreations_both_active :
  ((after step {} sampleCreations).store.activeRuns 1 .main).map (·.runId) = [1, 2]
    ∧ ((after step {} sampleRecovery).store.activeRuns 1 .main).map (·.runId) = [1, 2]
    ∧ ¬(after step {} sampleCreations).store.AtMostOneActive
    ∧ ¬(after step {} sampleRecovery).store.AtMostOneActive
  := by
  have hcreations : ((after step {} sampleCreations).store.activeRuns 1 .main).map (·.runId)
      = [1, 2] := by decide +kernel
  have hrecovery : ((after step {} sampleRecovery).store.activeRuns 1 .main).map (·.runId)
      = [1, 2] := by decide +kernel
  refine ⟨hcreations, hrecovery, fun h => ?_, fun h => ?_⟩
  · have hlength := congrArg List.length hcreations
    rw [List.length_map] at hlength
    exact absurd (h 1 .main) (by rw [hlength]; decide)
  · have hlength := congrArg List.length hrecovery
    rw [List.length_map] at hlength
    exact absurd (h 1 .main) (by rw [hlength]; decide)

end RunWorld

end Vizor
