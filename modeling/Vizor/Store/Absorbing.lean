import Vizor.Store.Expiry

/-!
# Terminal phases

A run that is complete, failed or abandoned releases its locks in the wallet.  Some
operations write the phase of a run whatever it was, so that a callback or a receipt that
comes late revives a run that was stopped.  Along the runs without such a write the phases
of completion and abandonment stay, and a run that failed is only revived by the recovery
for transactions that were already accepted.
-/

namespace Vizor

open Run Table

namespace Store

/-- The operation does not write the phase of `r` when it is terminal, and does not use the
identifier `r` for a new run. -/
def KeepsTerminal (r : RunId) (s : Store) (op : Op) : Prop :=
  ¬((s.licence op).rephase r
      ∧ ∃ run ∈ s.runs, run.runId = r ∧ run.phase.releasesWalletLocks = true)
    ∧ ¬(s.licence op).create r

/-- The operation is not the recovery of `r`. -/
def DoesNotRecover (r : RunId) (s : Store) (op : Op) : Prop :=
  ¬(s.licence op).recover r

/-- The rows of `r` are in the phase `p`. -/
def InPhase (r : RunId) (p : Phase) (s : Store) : Prop :=
  ∀ run ∈ s.runs, run.runId = r → run.phase = p

variable {l : Licence} {s s' : Store} {r : RunId} {p : Phase}

/-- A statement without the licence to write a terminal phase keeps it. -/
theorem Change.inPhase (hchange : Change l s s') (hp : p.releasesWalletLocks = true)
    (hrephase : ¬l.rephase r) (hrecover : p = .failedTerminal → ¬l.recover r)
    (hcreate : ¬l.create r) (h : InPhase r p s) :
  InPhase r p s'
  := by
  unfold InPhase at *
  cases hchange with
  | runs f hruns _ hf =>
    intro run hrun hid
    rw [hruns] at hrun
    obtain ⟨old, hold, rfl⟩ := List.mem_map.mp hrun
    have htouched := hf old hold
    have hidOld : old.runId = r := htouched.runId.symm.trans hid
    have hphase := h old hold hidOld
    rcases htouched.phase with hsame | ⟨hwrite, -⟩
    · apply hsame.trans hphase
    · rw [hphase, hidOld] at hwrite
      rcases hwrite with hwrite | hwrite | ⟨hfailed, hwrite⟩
      · rw [hp] at hwrite
        cases hwrite
      · exact absurd hwrite hrephase
      · exact absurd hwrite (hrecover hfailed)
  | pending f hruns _ _ => rwa [hruns]
  | discard q hruns _ => rwa [hruns]
  | insert row hruns _ _ _ _ => rwa [hruns]
  | replace old row q hruns _ _ _ _ _ _ => rwa [hruns]
  | create run hruns _ _ _ hlicence =>
    intro other hother hid
    rw [hruns, List.mem_append, List.mem_singleton] at hother
    rcases hother with hother | rfl
    · apply h other hother hid
    · rw [hid] at hlicence
      exact absurd hlicence hcreate
  | drop q hruns _ _ =>
    intro run hrun hid
    rw [hruns] at hrun
    apply h run (mem_deleteWhere.mp hrun).1 hid

/-- A statement without the licence to add a run does not. -/
theorem Change.absent (hchange : Change l s s') (hcreate : ¬l.create r)
    (h : ∀ run ∈ s.runs, run.runId ≠ r) :
  ∀ run ∈ s'.runs, run.runId ≠ r
  := by
  cases hchange with
  | runs f hruns _ hf =>
    intro run hrun
    rw [hruns] at hrun
    obtain ⟨old, hold, rfl⟩ := List.mem_map.mp hrun
    rw [(hf old hold).runId]
    apply h old hold
  | pending f hruns _ _ => rwa [hruns]
  | discard q hruns _ => rwa [hruns]
  | insert row hruns _ _ _ _ => rwa [hruns]
  | replace old row q hruns _ _ _ _ _ _ => rwa [hruns]
  | create run hruns _ _ _ hlicence =>
    intro other hother hid
    rw [hruns, List.mem_append, List.mem_singleton] at hother
    rcases hother with hother | rfl
    · apply h other hother hid
    · rw [hid] at hlicence
      exact absurd hlicence hcreate
  | drop q hruns _ _ =>
    intro run hrun
    rw [hruns] at hrun
    apply h run (mem_deleteWhere.mp hrun).1

/-- An operation that does not write over a terminal phase keeps it. -/
theorem step_inPhase {op : Op} (hkeys : s.Keys) (hp : p.releasesWalletLocks = true)
    (hop : KeepsTerminal r s op) (hrecover : p = .failedTerminal → DoesNotRecover r s op)
    (h : InPhase r p s) :
  InPhase r p (s.step op)
  := by
  have hevolves : Evolves (s.licence op) s (s.step op) := step_evolves hkeys.runs hkeys.txids
  by_cases hpresent : ∃ run ∈ s.runs, run.runId = r
  · obtain ⟨run, hrun, hid⟩ := hpresent
    have hrephase : ¬(s.licence op).rephase r := by
      intro hrephase
      apply hop.1
      use hrephase, run, hrun, hid
      rw [h run hrun hid]
      apply hp
    apply hevolves.invariant (I := InPhase r p) _ h
    intro t t' hchange
    apply hchange.inPhase hp hrephase hrecover hop.2
  · push Not at hpresent
    have habsent := hevolves.invariant (I := fun t => ∀ run ∈ t.runs, run.runId ≠ r)
      (fun t t' hchange => hchange.absent hop.2) hpresent
    intro run hrun hid
    exact absurd hid (habsent run hrun)

/-- A run that does not write over a terminal phase keeps it. -/
theorem after_inPhase {ops : List Op} (hkeys : s.Keys) (hp : p.releasesWalletLocks = true)
    (hops : Along step (KeepsTerminal r) s ops)
    (hrecover : p = .failedTerminal → Along step (DoesNotRecover r) s ops)
    (h : InPhase r p s) :
  InPhase r p (after step s ops)
  := by
  induction ops generalizing s with
  | nil => exact h
  | cons op ops ih =>
    rw [after_cons]
    apply ih hkeys.step hops.2 fun hfailed => (hrecover hfailed).2
    apply step_inPhase hkeys hp hops.1 (fun hfailed => (hrecover hfailed).1) h

theorem InPhase.phaseOf (h : InPhase r p s) :
  s.phaseOf r = some p ∨ s.phaseOf r = none
  := by
  unfold Store.phaseOf
  cases hrun : s.run? r with
  | none => exact .inr rfl
  | some run =>
    left
    have hid : run.runId = r := by simpa using List.find?_some hrun
    rw [Option.map_some, h run (List.mem_of_find?_eq_some hrun) hid]

theorem Keys.inPhase (hkeys : s.Keys) (h : s.phaseOf r = some p) :
  InPhase r p s
  := by
  intro run hrun hid
  rw [Store.phaseOf, hkeys.runs.run?_eq_some.mpr ⟨hrun, hid⟩, Option.map_some] at h
  cases h
  rfl

/-- Along every run of operations that do not write over a terminal phase of `r`, an
abandoned or complete run stays so, and a run that failed stays so without a recovery, until
its row is deleted. -/
theorem terminal_absorbing {ops : List Op} (hkeys : s.Keys)
    (hops : Along step (KeepsTerminal r) s ops) :
  (∀ p, p = .abandoned ∨ p = .complete → s.phaseOf r = some p →
      (after step s ops).phaseOf r = some p ∨ (after step s ops).phaseOf r = none)
    ∧ (s.phaseOf r = some .failedTerminal → Along step (DoesNotRecover r) s ops →
      (after step s ops).phaseOf r = some .failedTerminal ∨ (after step s ops).phaseOf r = none)
  := by
  constructor
  · intro p hp hphase
    apply InPhase.phaseOf
    have hterminal : p.releasesWalletLocks = true ∧ p ≠ .failedTerminal := by
      rcases hp with rfl | rfl <;> decide
    apply after_inPhase hkeys hterminal.1 hops _ (hkeys.inPhase hphase)
    intro hfailed
    exact absurd hfailed hterminal.2
  · intro hphase hrecover
    apply InPhase.phaseOf
    apply after_inPhase hkeys rfl hops (fun _ => hrecover) (hkeys.inPhase hphase)

/-! ### Late receipts -/

/-- The transaction is broadcast, and the run is stopped. -/
def sampleStop : List Op := sampleBroadcast ++ [.abandonRun 1 .main 1]

/-- A reconciliation and a second stop keep a stopped run stopped. -/
theorem terminal_absorbing_stop :
  (after step {} sampleStop).phaseOf 1 = some .abandoned
    ∧ ((after step (after step {} sampleStop)
        [.reconcileRunConfirmations (sampleView [] 1) 1, .abandonRun 1 .main 1]).phaseOf 1
          = some .abandoned
      ∨ (after step (after step {} sampleStop)
        [.reconcileRunConfirmations (sampleView [] 1) 1, .abandonRun 1 .main 1]).phaseOf 1 = none)
  := by
  have hkeys : (after step {} sampleStop).Keys := keys_empty.after
  have hphase : (after step {} sampleStop).phaseOf 1 = some .abandoned := by decide +kernel
  have hops : Along step (KeepsTerminal 1) (after step {} sampleStop)
      [.reconcileRunConfirmations (sampleView [] 1) 1, .abandonRun 1 .main 1] :=
    ⟨⟨fun h => h.1.2, fun h => h⟩, ⟨fun h => h.1, fun h => h⟩, trivial⟩
  exact ⟨hphase, (terminal_absorbing hkeys hops).1 _ (.inl rfl) hphase⟩

/-- After the stop, a late rejection makes the abandoned run a failed one, and a late
callback of the broadcast makes it an active one. -/
theorem sampleStop_revived :
  (after step {} sampleStop).phaseOf 1 = some .abandoned
    ∧ (after step {} (sampleStop ++ [.retireRunForRebuild 1 "rejected"])).phaseOf 1
      = some .failedTerminal
    ∧ (after step {} (sampleStop ++ [.markPendingBroadcasted 1 7])).phaseOf 1
      = some .waitingMigrationConfirmations
  := by
  decide +kernel

end Store

end Vizor
