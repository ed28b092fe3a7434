import Mathlib.Data.List.Perm.Subperm
import Mathlib.Data.List.Count
import Vizor.Store.Absorbing

/-!
# Completion

A reconciliation completes a run by counting its rows.  The count is exact, because along
every run of operations each pending transaction is for a part of its plan, and no two
transactions of a run are for the same part.
-/

namespace Vizor

open Run Table

namespace Store

/-- What the callers of an operation promise: the identifier of a new run is fresh, the
phase of completion is only written again, and a replacement is for the same part. -/
def Promised (s : Store) : Op → Prop
  | .createRunWithStagedDenominationsAndSignedChildren new _ _ _ _
  | .createOrResumePrivateMigrationDraft new _ => ∀ row ∈ s.pendingTxs, row.runId ≠ new.runId
  | .markRunPhase r phase _ => phase = .complete → s.phaseOf r = some .complete
  | .replaceResignedPendingParts r replacements _ => ∀ replacement ∈ replacements,
    ∀ old ∈ s.pendingTxs, old.runId = r → old.txid = replacement.oldTxid →
      old.partIndex = some replacement.replacement.partIndex
  | _ => True

/-! ### Parts -/

/-- The pending transactions are for distinct parts of the plans of their runs. -/
structure Assigned (s : Store) : Prop where
  planned : ∀ row ∈ s.pendingTxs, ∃ i, row.partIndex = some i
    ∧ ∀ run ∈ s.runs, run.runId = row.runId → i < run.targetValues.length
  unique : s.PartsUnique

/-- The runs that an operation may add have no transactions before they are added. -/
def Fresh (l : Licence) (s : Store) : Prop :=
  ∀ row ∈ s.pendingTxs, l.create row.runId → ∃ run ∈ s.runs, run.runId = row.runId

variable {l : Licence} {s s' : Store} {r : RunId}

/-- An update keeps the parts distinct. -/
theorem partsUnique_map {f : PendingTx → PendingTx} (h : s.Assigned)
    (hf : ∀ row ∈ s.pendingTxs, row.Touched l (f row)) (hpending : s'.pendingTxs = s.pendingTxs.map f) :
  s'.PartsUnique
  := by
  have hpart : ∀ row ∈ s.pendingTxs, (f row).partIndex = row.partIndex := by
    intro row hrow
    obtain ⟨i, hi, -⟩ := h.planned row hrow
    apply (hf row hrow).partIndex
    rw [hi]
    rfl
  unfold PartsUnique
  rw [hpending, List.pairwise_map]
  apply h.unique.imp_of_mem
  intro a b ha hb hab
  rw [hpart a ha, hpart b hb, (hf a ha).runId, (hf b hb).runId]
  apply hab

/-- The transactions of a run are for distinct parts. -/
theorem Assigned.nodup_partIndexes (h : s.Assigned) :
  ((s.pendingOf r).map (·.partIndex)).Nodup
  := by
  have hpairs : (s.pendingOf r).Pairwise fun a b =>
      ¬(a.partIndex.isSome ∧ a.runId = b.runId ∧ a.partIndex = b.partIndex) :=
    h.unique.sublist List.filter_sublist
  rw [List.Nodup, List.pairwise_map]
  apply hpairs.imp_of_mem
  intro a b ha hb hab hsame
  obtain ⟨hmem, hidA⟩ := List.mem_filter.mp ha
  have hidB := (List.mem_filter.mp hb).2
  rw [decide_eq_true_eq] at hidA hidB
  obtain ⟨j, hj, -⟩ := h.planned a hmem
  apply hab
  rw [hj]
  exact ⟨rfl, hidA.trans hidB.symm, by rw [← hj, hsame]⟩

/-- The transactions of a run are for parts of its plan. -/
theorem Assigned.partIndex_lt (h : s.Assigned) {run : MigrationRun} (hrun : run ∈ s.runs)
    {row : PendingTx} (hrow : row ∈ s.pendingOf run.runId) :
  ∃ i < run.targetValues.length, row.partIndex = some i
  := by
  obtain ⟨hmem, hid⟩ := List.mem_filter.mp hrow
  rw [decide_eq_true_eq] at hid
  obtain ⟨i, hi, hplanned⟩ := h.planned row hmem
  exact ⟨i, hplanned run hrun hid.symm, hi⟩

/-- Adding an unused row keeps the parts distinct. -/
theorem partsUnique_append {t : List PendingTx} {row : PendingTx}
    (ht : t.Sublist s.pendingTxs) (h : s.PartsUnique) (hunused : row.Unused t)
    (hpending : s'.pendingTxs = t ++ [row]) :
  s'.PartsUnique
  := by
  unfold PartsUnique
  rw [hpending, List.pairwise_append]
  refine ⟨h.sublist ht, List.pairwise_singleton _ _, ?_⟩
  intro a ha b hb hab
  rw [List.mem_singleton] at hb
  subst hb
  apply (hunused a ha).2 hab.2

/-- Every statement keeps the transactions assigned to parts. -/
theorem Change.assigned (hchange : Change l s s') (hruns : s.RunsUnique)
    (hreplace : ∀ old row, l.replace old row → row.partIndex = old.partIndex)
    (h : s.Assigned) (hfresh : s.Fresh l) :
  s'.Assigned
  := by
  cases hchange with
  | runs f hf hpending hkeep =>
    constructor
    · intro row hrow
      rw [hpending] at hrow
      obtain ⟨i, hi, hplanned⟩ := h.planned row hrow
      use i, hi
      intro run hrun hid
      rw [hf] at hrun
      obtain ⟨old, hold, rfl⟩ := List.mem_map.mp hrun
      rw [(hkeep old hold).targetValues]
      apply hplanned old hold
      rw [← (hkeep old hold).runId]
      apply hid
    · unfold PartsUnique
      rw [hpending]
      apply h.unique
  | pending f hsame hpending hf =>
    constructor
    · intro row hrow
      rw [hpending] at hrow
      obtain ⟨old, hold, rfl⟩ := List.mem_map.mp hrow
      obtain ⟨i, hi, hplanned⟩ := h.planned old hold
      use i
      rw [hsame, (hf old hold).runId, (hf old hold).partIndex (by rw [hi]; rfl)]
      exact ⟨hi, hplanned⟩
    · apply partsUnique_map h hf hpending
  | discard p hsame hpending =>
    constructor
    · intro row hrow
      rw [hpending] at hrow
      rw [hsame]
      apply h.planned row (mem_deleteWhere.mp hrow).1
    · unfold PartsUnique
      rw [hpending]
      apply h.unique.sublist List.filter_sublist
  | insert new hsame hpending hnew hunused hplanned =>
    constructor
    · intro row hrow
      rw [hpending, List.mem_append, List.mem_singleton] at hrow
      rw [hsame]
      rcases hrow with hrow | rfl
      · apply h.planned row hrow
      · obtain ⟨i, hi⟩ := Option.isSome_iff_exists.mp hnew.partIndex
        obtain ⟨run, hrun, hplanned⟩ := hplanned
        use i, hi
        intro other hother hid
        have hmem := hruns.run?_eq_some.mp hrun
        rw [hruns.eq hother hmem.1 (hid.trans hmem.2.symm)]
        apply hplanned i hi
    · apply partsUnique_append (List.Sublist.refl _) h.unique hunused hpending
  | replace old new p hsame hpending hold hrun hnew hunused hlicence =>
    constructor
    · intro row hrow
      rw [hpending, List.mem_append, List.mem_singleton] at hrow
      rw [hsame]
      rcases hrow with hrow | rfl
      · apply h.planned row (mem_deleteWhere.mp hrow).1
      · rw [hreplace old row hlicence, hrun]
        apply h.planned old hold
    · apply partsUnique_append List.filter_sublist h.unique hunused hpending
  | create new hsame hpending hunused _ hlicence =>
    constructor
    · intro row hrow
      rw [hpending] at hrow
      obtain ⟨i, hi, hplanned⟩ := h.planned row hrow
      use i, hi
      intro run hrun hid
      rw [hsame, List.mem_append, List.mem_singleton] at hrun
      rcases hrun with hrun | rfl
      · apply hplanned run hrun hid
      · rw [hid] at hlicence
        obtain ⟨other, hother, hsameId⟩ := hfresh row hrow hlicence
        exact absurd (hsameId.trans hid.symm) (hunused other hother)
    · unfold PartsUnique
      rw [hpending]
      apply h.unique
  | drop p hsame hpending _ =>
    constructor
    · intro row hrow
      rw [hpending] at hrow
      obtain ⟨i, hi, hplanned⟩ := h.planned row hrow
      use i, hi
      intro run hrun hid
      rw [hsame] at hrun
      apply hplanned run (mem_deleteWhere.mp hrun).1 hid
    · unfold PartsUnique
      rw [hpending]
      apply h.unique

/-- Every statement keeps the runs that an operation may add without transactions. -/
theorem Change.fresh (hchange : Change l s s')
    (hdrop : ∀ r, l.create r → ∀ r', ¬l.drop r') (hfresh : s.Fresh l) :
  s'.Fresh l
  := by
  cases hchange with
  | runs f hruns hpending hkeep =>
    intro row hrow hcreate
    rw [hpending] at hrow
    obtain ⟨run, hrun, hid⟩ := hfresh row hrow hcreate
    use f run
    rw [hruns, (hkeep run hrun).runId]
    exact ⟨List.mem_map_of_mem hrun, hid⟩
  | pending f hruns hpending hf =>
    intro row hrow hcreate
    rw [hpending] at hrow
    obtain ⟨old, hold, rfl⟩ := List.mem_map.mp hrow
    rw [(hf old hold).runId] at hcreate ⊢
    rw [hruns]
    apply hfresh old hold hcreate
  | discard p hruns hpending =>
    intro row hrow hcreate
    rw [hpending] at hrow
    rw [hruns]
    apply hfresh row (mem_deleteWhere.mp hrow).1 hcreate
  | insert new hruns hpending _ _ hplanned =>
    intro row hrow hcreate
    rw [hpending, List.mem_append, List.mem_singleton] at hrow
    rw [hruns]
    rcases hrow with hrow | rfl
    · apply hfresh row hrow hcreate
    · obtain ⟨run, hrun, -⟩ := hplanned
      use run, List.mem_of_find?_eq_some hrun
      simpa using List.find?_some hrun
  | replace old new p hruns hpending hold hrun _ _ _ =>
    intro row hrow hcreate
    rw [hpending, List.mem_append, List.mem_singleton] at hrow
    rw [hruns]
    rcases hrow with hrow | rfl
    · apply hfresh row (mem_deleteWhere.mp hrow).1 hcreate
    · rw [hrun] at hcreate ⊢
      apply hfresh old hold hcreate
  | create new hruns hpending _ _ _ =>
    intro row hrow hcreate
    rw [hpending] at hrow
    obtain ⟨run, hrun, hid⟩ := hfresh row hrow hcreate
    use run
    rw [hruns]
    exact ⟨List.mem_append_left _ hrun, hid⟩
  | drop p hruns hpending hlicence =>
    intro row hrow hcreate
    rw [hpending] at hrow
    obtain ⟨run, hrun, hid⟩ := hfresh row hrow hcreate
    use run
    rw [hruns, mem_deleteWhere]
    refine ⟨⟨hrun, ?_⟩, hid⟩
    by_contra hp
    rw [Bool.not_eq_false] at hp
    apply hdrop _ hcreate _ (hlicence run hrun hp)

/-- An operation does not both add and remove runs. -/
theorem licence_create_drop {op : Op} {r : RunId} (h : (s.licence op).create r) (r' : RunId) :
  ¬(s.licence op).drop r'
  := by
  cases op <;> first | exact id | exact False.elim h

theorem Promised.create {op : Op} (h : s.Promised op) {row : PendingTx}
    (hrow : row ∈ s.pendingTxs) :
  ¬(s.licence op).create row.runId
  := by
  cases op <;> first | exact h row hrow | exact id

theorem Promised.replace {op : Op} (h : s.Promised op) {old row : PendingTx}
    (hreplace : (s.licence op).replace old row) :
  row.partIndex = old.partIndex
  := by
  cases op with
  | replaceResignedPendingParts r replacements _ =>
    obtain ⟨replacement, hreplacement, hold, hrun, htxid, hpart⟩ := hreplace
    rw [hpart, h replacement hreplacement old hold hrun htxid]
  | _ => exact False.elim hreplace

/-- Every operation keeps the transactions assigned to parts. -/
theorem step_assigned {op : Op} (hkeys : s.Keys) (hop : s.Promised op) (h : s.Assigned) :
  (s.step op).Assigned
  := by
  have hevolves : Evolves (s.licence op) s (s.step op) := step_evolves hkeys.runs hkeys.txids
  have hstart : s.RunsUnique ∧ s.Assigned ∧ s.Fresh (s.licence op) := by
    refine ⟨hkeys.runs, h, ?_⟩
    intro row hrow hcreate
    exact absurd hcreate (hop.create hrow)
  have hend := hevolves.invariant
    (I := fun t => t.RunsUnique ∧ t.Assigned ∧ t.Fresh (s.licence op)) (by
      rintro t t' hchange ⟨hruns, hassigned, hfresh⟩
      refine ⟨hchange.runsUnique hruns, ?_, ?_⟩
      · apply hchange.assigned hruns (fun _ _ => hop.replace) hassigned hfresh
      · apply hchange.fresh (fun _ => licence_create_drop) hfresh) hstart
  apply hend.2.1

/-- Along every run of operations the transactions are assigned to parts. -/
theorem after_assigned {ops : List Op} (hkeys : s.Keys) (hops : Along step Promised s ops)
    (h : s.Assigned) :
  (after step s ops).Assigned
  := by
  induction ops generalizing s with
  | nil => exact h
  | cons op ops ih => exact ih hkeys.step hops.2 (step_assigned hkeys hops.1 h)

theorem assigned_empty : Assigned {}
  := ⟨by simp, List.Pairwise.nil⟩

/-! ### The step of completion -/

/-- The chain that a reconciliation of pending transactions reads. -/
def chainViewOf : Op → Option ChainView
  | .reconcileRunConfirmations view _
  | .markDuePartsWithNoncanonicalBroadcastHeightForResign view _ _
  | .markExpiredPendingPartsForResign view _ _ => some view
  | _ => none

/-- No row of `r` is complete. -/
def NotComplete (r : RunId) (s : Store) : Prop :=
  ∀ run ∈ s.runs, run.runId = r → run.phase ≠ .complete

/-- A statement without the licence to complete a run does not. -/
theorem Change.notComplete (hchange : Change l s s') (hcomplete : ¬l.complete r)
    (h : NotComplete r s) :
  NotComplete r s'
  := by
  unfold NotComplete at *
  cases hchange with
  | runs f hruns _ hf =>
    intro run hrun hid
    rw [hruns] at hrun
    obtain ⟨old, hold, rfl⟩ := List.mem_map.mp hrun
    have hidOld : old.runId = r := (hf old hold).runId.symm.trans hid
    rcases (hf old hold).phase with hsame | ⟨-, hlicence, -⟩
    · rw [hsame]
      apply h old hold hidOld
    · intro hphase
      apply hcomplete
      rw [← hidOld]
      apply hlicence hphase
  | pending f hruns _ _ => rwa [hruns]
  | discard q hruns _ => rwa [hruns]
  | insert row hruns _ _ _ _ => rwa [hruns]
  | replace old row q hruns _ _ _ _ _ _ => rwa [hruns]
  | create run hruns _ _ hphase _ =>
    intro other hother hid
    rw [hruns, List.mem_append, List.mem_singleton] at hother
    rcases hother with hother | rfl
    · apply h other hother hid
    · apply hphase
  | drop q hruns _ _ =>
    intro run hrun hid
    rw [hruns] at hrun
    apply h run (mem_deleteWhere.mp hrun).1 hid

theorem RunsUnique.notComplete_iff (h : s.RunsUnique) :
  NotComplete r s ↔ s.phaseOf r ≠ some .complete
  := by
  unfold NotComplete phaseOf
  constructor
  · intro hnot hphase
    obtain ⟨run, hrun, hcomplete⟩ := Option.map_eq_some_iff.mp hphase
    obtain ⟨hmem, hid⟩ := h.run?_eq_some.mp hrun
    apply hnot run hmem hid hcomplete
  · intro hnot run hrun hid hcomplete
    apply hnot
    rw [h.run?_eq_some.mpr ⟨hrun, hid⟩, Option.map_some, hcomplete]

variable {view : ChainView}

/-- A reconciliation that completes a run does so with all its parts confirmed. -/
theorem reconcileRunConfirmations_complete (hruns : s'.RunsUnique)
    (hbefore : s.phaseOf r ≠ some .complete)
    (h : s.reconcileRunConfirmations view r = .ok s') (hafter : s'.phaseOf r = some .complete) :
  Completed view s s' r
  := by
  by_cases hlive : s.isLive r = true
  · rcases reconcileRunConfirmations_completed hlive h with hlive' | hcompleted
    · obtain ⟨run, hrun, hcomplete⟩ := Option.map_eq_some_iff.mp hafter
      obtain ⟨hmem, hid⟩ := hruns.run?_eq_some.mp hrun
      have hphase := hruns.live_phase hlive' hmem hid
      rw [hcomplete] at hphase
      cases hphase
    · apply hcompleted
  · rw [Bool.not_eq_true] at hlive
    rw [reconcileRunConfirmations_of_not_live hlive h] at hafter
    exact absurd hafter hbefore

/-- A run that is complete after the marking of transactions was completed by the
reconciliation, and no transaction was marked. -/
theorem reconcileAndMarkForResign_complete {selected : PendingTx → Bool} {message : String}
    {affected : Nat} (h : s.reconcileAndMarkForResign view r selected message = .ok (s', affected))
    (hafter : s'.phaseOf r = some .complete) :
  s.reconcileRunConfirmations view r = .ok s'
  := by
  simp only [reconcileAndMarkForResign, bind_eq_ok, pure_eq_ok, Prod.mk.injEq] at h
  obtain ⟨t, ht, rfl, -⟩ := h
  split at hafter
  · rw [phaseOf, run?_updateRuns (by simp), Option.map_map] at hafter
    obtain ⟨run, hrun, hphase⟩ := Option.map_eq_some_iff.mp hafter
    have hid : run.runId = r := by simpa using List.find?_some hrun
    simp [hid] at hphase
  · rename_i hnone
    rw [if_neg hnone, updatePendingTxs_eq_self]
    · apply ht
    · intro row hrow
      rw [Nat.not_lt, Nat.le_zero, List.countP_eq_zero] at hnone
      simpa using hnone row hrow

/-- Only a reconciliation completes a run. -/
theorem complete_of_step {op : Op} (hkeys : s.Keys) (hop : s.Promised op)
    (hbefore : s.phaseOf r ≠ some .complete) (hafter : (s.step op).phaseOf r = some .complete) :
  ∃ view, chainViewOf op = some view ∧ Completed view s (s.step op) r
  := by
  have hevolves : Evolves (s.licence op) s (s.step op) := step_evolves hkeys.runs hkeys.txids
  have hkeys' : (s.step op).Keys := hkeys.step
  have hruns := hkeys'.runs
  have hlicence : (s.licence op).complete r := by
    by_contra hcomplete
    have hend := hevolves.invariant (I := NotComplete r)
      (fun _ _ hchange => hchange.notComplete hcomplete) (hkeys.runs.notComplete_iff.mpr hbefore)
    apply hruns.notComplete_iff.mp hend hafter
  unfold step committed at hafter hruns ⊢
  split at hafter
  · rename_i s' hs'
    rw [hs'] at hruns
    dsimp only at hruns
    cases op with
    | markRunPhase r' phase message =>
      obtain ⟨rfl, hphase⟩ := hlicence
      exact absurd (hop hphase) hbefore
    | reconcileRunConfirmations view r' =>
      cases hlicence
      exact ⟨view, rfl, reconcileRunConfirmations_complete hruns hbefore hs' hafter⟩
    | markDuePartsWithNoncanonicalBroadcastHeightForResign view r' chainTipHeight =>
      cases hlicence
      obtain ⟨affected, h⟩ := map_fst_eq_ok
        (x := s.markDuePartsWithNoncanonicalBroadcastHeightForResign view r chainTipHeight) hs'
      obtain ⟨canonicalExpiry, -, h⟩ := bind_eq_ok.mp h
      have hreconcile := reconcileAndMarkForResign_complete h hafter
      exact ⟨view, rfl, reconcileRunConfirmations_complete hruns hbefore hreconcile hafter⟩
    | markExpiredPendingPartsForResign view r' chainTipHeight =>
      cases hlicence
      obtain ⟨affected, h⟩ := map_fst_eq_ok
        (x := s.markExpiredPendingPartsForResign view r chainTipHeight) hs'
      have hreconcile := reconcileAndMarkForResign_complete h hafter
      exact ⟨view, rfl, reconcileRunConfirmations_complete hruns hbefore hreconcile hafter⟩
    | _ => exact False.elim hlicence
  · exact absurd hafter hbefore

/-- Distinct numbers below `n` are all of them when there are `n`. -/
theorem count_eq_one_of_nodup {parts : List (Option Nat)} {n : Nat} (hnodup : parts.Nodup)
    (hlt : ∀ part ∈ parts, ∃ i < n, part = some i) (hlength : parts.length = n) {i : Nat}
    (hi : i < n) :
  parts.count (some i) = 1
  := by
  apply List.count_eq_one_of_mem hnodup
  have hsub : parts.toFinset ⊆ (Finset.range n).image some := by
    intro part hpart
    obtain ⟨j, hj, rfl⟩ := hlt part (List.mem_toFinset.mp hpart)
    apply Finset.mem_image_of_mem _ (Finset.mem_range.mpr hj)
  have hcard : ((Finset.range n).image some).card ≤ parts.toFinset.card := by
    rw [List.toFinset_card_of_nodup hnodup, hlength]
    apply Finset.card_image_le.trans
    rw [Finset.card_range]
  rw [← List.mem_toFinset, Finset.eq_of_subset_of_card_le hsub hcard]
  apply Finset.mem_image_of_mem _ (Finset.mem_range.mpr hi)

/-- When a run with assigned transactions completes, every part has exactly one of them. -/
theorem Completed.count_eq_one (hcompleted : Completed view s s' r) (h : s'.Assigned) :
  ∃ run ∈ s'.runs, run.runId = r ∧ run.targetValues ≠ []
    ∧ (∀ row ∈ s'.pendingOf r, ∃ i < run.targetValues.length, row.partIndex = some i)
    ∧ ∀ i < run.targetValues.length,
      (s'.pendingOf r).countP (fun row => row.partIndex = some i) = 1
  := by
  obtain ⟨run, hrun, hid, hne, hlength⟩ := hcompleted.planned
  have hparts : ∀ row ∈ s'.pendingOf r, ∃ i < run.targetValues.length, row.partIndex = some i := by
    intro row hrow
    rw [← hid] at hrow
    apply h.partIndex_lt hrun hrow
  refine ⟨run, hrun, hid, hne, hparts, ?_⟩
  intro i hi
  have hcount := count_eq_one_of_nodup h.nodup_partIndexes (by simpa using hparts)
    (by simpa using hlength) hi
  rw [List.count, List.countP_map] at hcount
  rw [← hcount]
  congr 1
  funext row
  rw [Function.comp_apply, Bool.eq_iff_iff, decide_eq_true_eq, beq_iff_eq]

/-- In every run of operations from the empty store whose callers keep their promises, a run
becomes complete only in a reconciliation: then every planned part has exactly one pending
transaction, all of them are confirmed and trusted in the chain of the reconciliation, every
signed child was promoted, the prepared notes are released and the signed children removed. -/
theorem complete_sound {ops : List Op} {op : Op} (hops : Along step Promised {} (ops ++ [op]))
    (hbefore : (after step {} ops).phaseOf r ≠ some .complete)
    (hafter : (after step {} (ops ++ [op])).phaseOf r = some .complete) :
  ∃ view, chainViewOf op = some view
    ∧ (∃ run ∈ (after step {} (ops ++ [op])).runs, run.runId = r ∧ run.targetValues ≠ []
      ∧ (∀ row ∈ (after step {} (ops ++ [op])).pendingOf r,
        ∃ i < run.targetValues.length, row.partIndex = some i)
      ∧ ∀ i < run.targetValues.length,
        ((after step {} (ops ++ [op])).pendingOf r).countP (fun row => row.partIndex = some i) = 1)
    ∧ (∀ row ∈ (after step {} (ops ++ [op])).pendingOf r,
      row.status = .confirmed ∧ view.trusts row.txid = true)
    ∧ (after step {} ops).unpromotedSignedChildNoteOutpoints r = []
    ∧ (∀ row ∈ (after step {} (ops ++ [op])).preparedOf r, row.locked = false)
    ∧ (after step {} (ops ++ [op])).childrenOf r = []
  := by
  have hassigned := after_assigned keys_empty hops assigned_empty
  obtain ⟨hpre, hop, -⟩ := along_append.mp hops
  rw [after_append, after_cons, after_nil] at hafter hassigned ⊢
  obtain ⟨view, hview, hcompleted⟩ := complete_of_step keys_empty.after hop hbefore hafter
  refine ⟨view, hview, hcompleted.count_eq_one hassigned, ?_, hcompleted.promoted,
    hcompleted.unlocked, hcompleted.removed⟩
  intro row hrow
  exact ⟨hcompleted.confirmed row hrow, hcompleted.trusted row hrow⟩

/-- The broadcast transaction is mined and trusted, which completes the run. -/
theorem complete_sound_broadcast :
  (after step {} (sampleBroadcast
      ++ [.reconcileRunConfirmations (sampleView [(7, ⟨34566, 1⟩)] 10) 1])).phaseOf 1
    = some .complete
    ∧ ∃ view : ChainView, ∀ row ∈ (after step {} (sampleBroadcast
      ++ [.reconcileRunConfirmations (sampleView [(7, ⟨34566, 1⟩)] 10) 1])).pendingOf 1,
      row.status = .confirmed ∧ view.trusts row.txid = true
  := by
  have hops : Along step Promised {} (sampleBroadcast
      ++ [.reconcileRunConfirmations (sampleView [(7, ⟨34566, 1⟩)] 10) 1]) := by
    refine ⟨fun row hrow => ?_, trivial, trivial, trivial, trivial⟩
    cases hrow
  have hbefore : (after step {} sampleBroadcast).phaseOf 1 ≠ some .complete := by
    decide +kernel
  have hafter : (after step {} (sampleBroadcast
      ++ [.reconcileRunConfirmations (sampleView [(7, ⟨34566, 1⟩)] 10) 1])).phaseOf 1
      = some .complete := by
    decide +kernel
  obtain ⟨view, -, -, hrows, -⟩ := complete_sound hops hbefore hafter
  exact ⟨hafter, view, hrows⟩

end Store

end Vizor
