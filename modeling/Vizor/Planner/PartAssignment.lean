import Vizor.Planner.Replay

/-!
# Part assignment

Every funding note of a padded plan carries the index of a migration part.  The parts not
yet assigned are kept as a list of funding values with their part indices; assigning the
funding notes of a preparation plan that meets its request uses up exactly this list.
-/

namespace Vizor.Planner

open Layered

/-! ### What a padded plan must satisfy -/

/-- The part and the value of an output that becomes a migration note. -/
def SplitStageOutput.partNote? (output : SplitStageOutput) : Option (Nat × Nat) :=
  if output.kind = .migration then
    output.partIndex.map fun part => (part, output.valueZatoshi)
  else none

/-- The parts and the values of the funding notes of a plan: its direct inputs and the
migration outputs of its stages. -/
def PaddedDenominationPlan.partNotes (plan : PaddedDenominationPlan) : List (Nat × Nat) :=
  plan.directMigrationInputs.map (fun input => (input.partIndex, input.valueZatoshi)) ++
    plan.stages.flatMap fun stage => stage.outputs.filterMap SplitStageOutput.partNote?

/-- What a padded plan promises: its denominations are canonical and in part order; its
funding notes are a bijection with the parts and are worth what the parts need; its values
add up; and its stages spend outputs of earlier stages. -/
structure PartsAssigned (plan : PaddedDenominationPlan) : Prop where
  ordered : plan.denominations.migrationOutputs.Pairwise (· ≥ ·)
  canonical : ∀ v ∈ plan.denominations.migrationOutputs, isZip318CanonicalDenomination v
  parts :
    (plan.partNotes.map Prod.fst).Perm (List.range plan.denominations.migrationOutputs.length)
  worth : ∀ note ∈ plan.partNotes, ∃ denomination,
    plan.denominations.migrationOutputs[note.1]? = some denomination ∧
      note.2 = denomination + plan.denominations.migrationFeeZatoshi
  balance : plan.denominations.totalInputZatoshi
    = (plan.denominations.migrationOutputs.map
        fun v => v + plan.denominations.migrationFeeZatoshi).sum
      + (plan.stages.map SplitStagePlan.feeZatoshi).sum
      + plan.denominations.orchardChange.getD 0
  splitFee : plan.denominations.splitFeeZatoshi
    = (plan.stages.map SplitStagePlan.feeZatoshi).sum
  priorEarlier : ∀ (s : Nat) stage, plan.stages[s]? = some stage →
    ∀ k output value, SplitStageInput.prior k output value ∈ stage.inputs → k < s

/-! ### Parts -/

variable {parts : AvailableParts} {rest : List (Nat × Nat)} {values more : List Nat}

/-- A map from values to stacks holds a list of values with parts. -/
def Holds (parts : AvailableParts) (rest : List (Nat × Nat)) : Prop :=
  ∀ value, parts value = (rest.filter fun entry => entry.1 = value).map Prod.snd

/-- At first every part is available for its funding value. -/
theorem availableParts_holds (fundingValues : List Nat) :
  Holds (availableParts fundingValues) fundingValues.zipIdx
  := by
  unfold availableParts
  generalize fundingValues.zipIdx = entries
  induction entries with
  | nil =>
    intro value
    rfl
  | cons entry entries ih =>
    intro value
    obtain ⟨v, part⟩ := entry
    rw [List.foldr_cons, List.filter_cons]
    by_cases hv : v = value
    · subst hv
      simp [ih v]
    · simp [Function.update_of_ne (Ne.symm hv), ih value, hv]

private theorem exists_first_of_mem {value : Nat} (h : value ∈ rest.map Prod.fst) :
  ∃ part rest', (rest.filter fun entry => entry.1 = value).map Prod.snd
      = part :: (rest'.filter fun entry => entry.1 = value).map Prod.snd ∧
    (∀ w, w ≠ value → rest'.filter (fun entry => entry.1 = w)
      = rest.filter fun entry => entry.1 = w) ∧
    rest.Perm ((value, part) :: rest')
  := by
  induction rest with
  | nil => simp at h
  | cons entry rest ih =>
    obtain ⟨v, part⟩ := entry
    by_cases hv : v = value
    · subst hv
      refine ⟨part, rest, by simp, ?_, List.Perm.refl _⟩
      intro w hw
      simp [Ne.symm hw]
    · have hmem : value ∈ rest.map Prod.fst := by
        simpa [Ne.symm hv] using h
      obtain ⟨p, rest', hfirst, hother, hperm⟩ := ih hmem
      refine ⟨p, (v, part) :: rest', ?_, ?_, ?_⟩
      · simpa [hv] using hfirst
      · intro w hw
        rw [List.filter_cons, List.filter_cons, hother w hw]
      · apply (hperm.cons _).trans (List.Perm.swap _ _ _)

/-- A part can be taken for every value that still has one. -/
theorem takePartIndex_of_mem {value : Nat} (h : Holds parts rest)
    (hmem : value ∈ rest.map Prod.fst) :
  ∃ part parts' rest', takePartIndex parts value = .ok (part, parts') ∧ Holds parts' rest' ∧
    rest.Perm ((value, part) :: rest')
  := by
  obtain ⟨part, rest', hfirst, hother, hperm⟩ := exists_first_of_mem hmem
  refine ⟨part, Function.update parts value
    ((rest'.filter fun entry => entry.1 = value).map Prod.snd), rest', ?_, ?_, hperm⟩
  · rw [takePartIndex, h value, hfirst]
  · intro w
    by_cases hw : w = value
    · subst hw
      simp
    · rw [Function.update_of_ne hw, h w, hother w hw]

/-- Taking a part for the first of the values that the parts are for. -/
theorem takePartIndex_cons {value : Nat} (h : Holds parts rest)
    (hvalues : (value :: values).Perm (rest.map Prod.fst)) :
  ∃ part parts' rest', takePartIndex parts value = .ok (part, parts') ∧ Holds parts' rest' ∧
    rest.Perm ((value, part) :: rest') ∧ values.Perm (rest'.map Prod.fst)
  := by
  obtain ⟨part, parts', rest', htake, hholds, hperm⟩ :=
    takePartIndex_of_mem h (hvalues.mem_iff.mp List.mem_cons_self)
  exact ⟨part, parts', rest', htake, hholds, hperm,
    (hvalues.trans (hperm.map Prod.fst)).cons_inv⟩

/-! ### Direct notes -/

/-- The value and the part of a direct input. -/
def DirectMigrationInput.entry (input : DirectMigrationInput) : Nat × Nat :=
  (input.valueZatoshi, input.partIndex)

/-- Parts can be assigned to direct funding notes whose values have parts. -/
theorem assignDirect_ok {indices : List Nat} {notes : List (Nat × Zatoshis)}
    (hnotes : ∀ note ∈ notes, note.1 < indices.length) (h : Holds parts rest)
    (hvalues : (notes.map (fun note => note.2.value) ++ more).Perm (rest.map Prod.fst)) :
  ∃ inputs parts' rest', assignDirect indices notes parts = .ok (inputs, parts') ∧
    Holds parts' rest' ∧ rest.Perm (inputs.map DirectMigrationInput.entry ++ rest') ∧
    more.Perm (rest'.map Prod.fst)
  := by
  induction notes generalizing parts rest with
  | nil => exact ⟨[], parts, rest, rfl, h, List.Perm.refl _, by simpa using hvalues⟩
  | cons note notes ih =>
    obtain ⟨index, value⟩ := note
    rw [List.forall_mem_cons] at hnotes
    obtain ⟨part, parts₁, rest₁, htake, hholds, hperm, hvalues₁⟩ := takePartIndex_cons h hvalues
    obtain ⟨inputs, parts', rest', hassign, hholds', hperm', hmore⟩ :=
      ih hnotes.2 hholds hvalues₁
    refine ⟨⟨indices.get ⟨index, hnotes.1⟩, part, value.value⟩ :: inputs, parts', rest', ?_, hholds', ?_,
      hmore⟩
    · rw [assignDirect, List.getElem?_eq_getElem hnotes.1]
      simp only [htake, hassign, bind, Except.bind, pure, Except.pure]
      rfl
    · apply hperm.trans (hperm'.cons _)

/-! ### Outputs -/

/-- The value and the part of an output that becomes a migration note. -/
def SplitStageOutput.entry? (output : SplitStageOutput) : Option (Nat × Nat) :=
  output.partNote?.map Prod.swap

/-- Parts can be assigned to the funding outputs of a transaction. -/
theorem translateOutputs_ok {outputs : List PrepOutput} (h : Holds parts rest)
    (hvalues : ((outputs.filterMap PrepOutput.funding?).map Zatoshis.value ++ more).Perm
      (rest.map Prod.fst)) :
  ∃ translated parts' rest', translateOutputs outputs parts = .ok (translated, parts') ∧
    Holds parts' rest' ∧ rest.Perm (translated.filterMap SplitStageOutput.entry? ++ rest') ∧
    more.Perm (rest'.map Prod.fst) ∧
    translated.map SplitStageOutput.valueZatoshi = outputs.map fun o => o.value.value
  := by
  induction outputs generalizing parts rest with
  | nil => exact ⟨[], parts, rest, rfl, h, List.Perm.refl _, by simpa using hvalues, rfl⟩
  | cons output outputs ih =>
    cases output with
    | funding value =>
      obtain ⟨part, parts₁, rest₁, htake, hholds, hperm, hvalues₁⟩ := takePartIndex_cons h hvalues
      obtain ⟨translated, parts', rest', htranslate, hholds', hperm', hmore, hsame⟩ :=
        ih hholds hvalues₁
      refine ⟨⟨value.value, .migration, some part⟩ :: translated, parts', rest', ?_, hholds', ?_,
        hmore, ?_⟩
      · simp only [translateOutputs, htake, htranslate, bind, Except.bind, pure, Except.pure]
      · apply hperm.trans (hperm'.cons _)
      · rw [List.map_cons, List.map_cons, hsame]
        rfl
    | intermediate value =>
      obtain ⟨translated, parts', rest', htranslate, hholds', hperm', hmore, hsame⟩ :=
        ih h hvalues
      refine ⟨⟨value.value, .continuation, none⟩ :: translated, parts', rest', ?_, hholds',
        hperm', hmore, ?_⟩
      · simp only [translateOutputs, htranslate, bind, Except.bind, pure, Except.pure]
      · rw [List.map_cons, List.map_cons, hsame]
        rfl
    | change value =>
      obtain ⟨translated, parts', rest', htranslate, hholds', hperm', hmore, hsame⟩ :=
        ih h hvalues
      refine ⟨⟨value.value, .orchardChange, none⟩ :: translated, parts', rest', ?_, hholds',
        hperm', hmore, ?_⟩
      · simp only [translateOutputs, htranslate, bind, Except.bind, pure, Except.pure]
      · rw [List.map_cons, List.map_cons, hsame]
        rfl

/-! ### Inputs -/

/-- The transactions of a plan are those it has at their addresses. -/
theorem mem_addressed {layers : List (List PrepTransaction)} {l t : Nat} {tx : PrepTransaction} :
  ((l, t), tx) ∈ addressed layers ↔ at? layers l t = some tx
  := by
  simp only [addressed, List.mem_flatMap, List.mem_map, Prod.exists,
    List.mem_zipIdx_iff_getElem?, Prod.mk.injEq, at?_eq_some]
  constructor
  · rintro ⟨txs, l', hl, tx', t', ht, ⟨rfl, rfl⟩, rfl⟩
    exact ⟨txs, hl, ht⟩
  · rintro ⟨txs, hl, ht⟩
    exact ⟨txs, l, hl, tx, t, ht, ⟨rfl, rfl⟩, rfl⟩

private theorem map_snd_flatMap_zipIdx (layers : List (List PrepTransaction)) (k : Nat) :
  ((layers.zipIdx k).flatMap fun (txs, layer) =>
    txs.zipIdx.map fun (tx, transaction) => ((layer, transaction), tx)).map Prod.snd
    = layers.flatten
  := by
  induction layers generalizing k with
  | nil => rfl
  | cons txs layers ih =>
    rw [List.zipIdx_cons, List.flatMap_cons, List.map_append, ih, List.flatten_cons, List.map_map]
    congr 1
    apply List.zipIdx_map_fst 0 txs

theorem map_snd_addressed (layers : List (List PrepTransaction)) :
  (addressed layers).map Prod.snd = layers.flatten
  := map_snd_flatMap_zipIdx layers 0

/-- The transactions of a plan are in the order of their layers. -/
theorem addressed_pairwise (layers : List (List PrepTransaction)) :
  (addressed layers).Pairwise fun a b => a.1.1 ≤ b.1.1
  := by
  rw [addressed, List.pairwise_flatMap]
  constructor
  · rintro ⟨txs, layer⟩ -
    rw [List.pairwise_map]
    exact List.pairwise_of_forall fun a b => le_rfl
  · have hidx : layers.zipIdx.Pairwise fun a b => a.2 < b.2 := by
      rw [← List.pairwise_map (f := Prod.snd) (R := (· < ·)), List.zipIdx_map_snd]
      exact List.pairwise_lt_range'
    apply hidx.imp
    rintro ⟨txs, l⟩ ⟨txs', l'⟩ hlt a ha b hb
    obtain ⟨_, -, rfl⟩ := List.mem_map.mp ha
    obtain ⟨_, -, rfl⟩ := List.mem_map.mp hb
    exact hlt.le

/-- The stages of the transactions translated so far. -/
def stagesOf (done : List ((Nat × Nat) × PrepTransaction)) : Coordinates :=
  (done.map Prod.fst).zipIdx

theorem stageAt_of_mem {done : List ((Nat × Nat) × PrepTransaction)} {l t : Nat}
    {tx : PrepTransaction} (h : ((l, t), tx) ∈ done) :
  ∃ stage, stageAt (stagesOf done) l t = some stage ∧ stage < done.length
  := by
  have hmem : (l, t) ∈ done.map Prod.fst := List.mem_map_of_mem h
  obtain ⟨k, hk⟩ := List.mem_iff_getElem?.mp hmem
  have hzip : ((l, t), k) ∈ stagesOf done := List.mem_zipIdx_iff_getElem?.mpr hk
  have hfound : ((stagesOf done).find? fun entry => entry.1 == (l, t)).isSome :=
    List.find?_isSome.mpr ⟨_, hzip, by simp⟩
  obtain ⟨⟨key, stage⟩, hfind⟩ := Option.isSome_iff_exists.mp hfound
  refine ⟨stage, by rw [stageAt, hfind]; rfl, ?_⟩
  have hget := List.mem_zipIdx_iff_getElem?.mp (List.mem_of_find?_eq_some hfind)
  have hlt := (List.getElem?_eq_some_iff.mp hget).1
  rwa [List.length_map] at hlt

/-- A translated input keeps the value of its input and spends an earlier stage. -/
def TranslatedInput (stages : Nat) (input : PrepInput) (translated : SplitStageInput) : Prop :=
  translated.valueZatoshi = input.value.value ∧
    ∀ k output value, translated = .prior k output value → k < stages

theorem exists_mapM_of_forall {α β : Type} {ε : Type} {f : α → Outcome ε β} {P : α → β → Prop}
    {xs : List α} (h : ∀ x ∈ xs, ∃ y, f x = .ok y ∧ P x y) :
  ∃ ys, xs.mapM f = .ok ys ∧ List.Forall₂ P xs ys
  := by
  induction xs with
  | nil => exact ⟨[], rfl, .nil⟩
  | cons x xs ih =>
    rw [List.forall_mem_cons] at h
    obtain ⟨y, hy, hP⟩ := h.1
    obtain ⟨ys, hys, hPs⟩ := ih h.2
    refine ⟨y :: ys, ?_, .cons hP hPs⟩
    rw [List.mapM_cons, hy, hys]
    rfl

variable {available : List Zatoshis} {feePerTx : Zatoshis} {requested : List Zatoshis}
  {preparation : PreparationPlan} {indices fundingValues : List Nat}
  {done todo : List ((Nat × Nat) × PrepTransaction)} {address : Nat × Nat} {tx : PrepTransaction}

/-- The inputs of the next transaction of a plan can be translated. -/
private theorem translateInputs_ok (hm : Meets available feePerTx requested preparation)
    (hindices : indices.length = available.length)
    (hsplit : addressed preparation.layers = done ++ (address, tx) :: todo) :
  ∃ inputs, tx.inputs.mapM (translateInput indices (stagesOf done)) = .ok inputs ∧
    List.Forall₂ (TranslatedInput done.length) tx.inputs inputs
  := by
  obtain ⟨layer, transaction⟩ := address
  have hat : at? preparation.layers layer transaction = some tx := by
    rw [← mem_addressed, hsplit]
    simp
  have hin : tx ∈ preparation.layers.flatten := mem_flatten_iff.mpr ⟨_, _, hat⟩
  apply exists_mapM_of_forall
  intro input hinput
  cases input with
  | wallet index value =>
    have hnote : (index, value) ∈ walletNotes (allInputs preparation.layers) := by
      rw [walletNotes, List.mem_filterMap]
      exact ⟨_, mem_allInputs.mpr ⟨tx, hin, hinput⟩, rfl⟩
    have hav := hm.walletValue _ (List.mem_append_right _ hnote)
    have hlt : index < indices.length := by
      rw [hindices]
      apply (List.getElem?_eq_some_iff.mp hav).1
    refine ⟨.original indices[index] value.value, ?_, rfl, by simp⟩
    rw [translateInput, List.getElem?_eq_getElem hlt]
  | prior l t o value =>
    obtain ⟨hlt, hout⟩ := hm.priorEarlier _ _ _ hat l t o value hinput
    obtain ⟨tx', hat', -⟩ := Option.bind_eq_some_iff.mp hout
    have hmem : ((l, t), tx') ∈ done := by
      have hall := mem_addressed.mpr hat'
      rw [hsplit, List.mem_append, List.mem_cons] at hall
      have hpair := addressed_pairwise preparation.layers
      rw [hsplit, List.pairwise_append, List.pairwise_cons] at hpair
      rcases hall with hall | hall | hall
      · apply hall
      · cases hall
        omega
      · have := hpair.2.1.1 _ hall
        dsimp only at this
        omega
    obtain ⟨stage, hstage, hbound⟩ := stageAt_of_mem hmem
    refine ⟨.prior stage o value.value, ?_, rfl, ?_⟩
    · rw [translateInput, hstage]
    · intro k output v heq
      cases heq
      apply hbound

/-! ### Stages -/

private theorem forall₂_values {stages : Nat} {inputs : List PrepInput}
    {translated : List SplitStageInput} (h : List.Forall₂ (TranslatedInput stages) inputs translated) :
  translated.map SplitStageInput.valueZatoshi = inputs.map fun i => i.value.value
  := by
  induction h with
  | nil => rfl
  | cons hxy _ ih => rw [List.map_cons, List.map_cons, ih, hxy.1]

private theorem forall₂_priors {stages : Nat} {inputs : List PrepInput}
    {translated : List SplitStageInput} (h : List.Forall₂ (TranslatedInput stages) inputs translated) :
  ∀ k output value, SplitStageInput.prior k output value ∈ translated → k < stages
  := by
  induction h with
  | nil => simp
  | cons hxy _ ih =>
    intro k output value hmem
    rcases List.mem_cons.mp hmem with heq | hmem
    · apply hxy.2 k output value heq.symm
    · apply ih k output value hmem

/-- A transaction within the action limit that conserves value passes the checks. -/
private theorem checkStage_ok {inputs : List SplitStageInput} {outputs : List SplitStageOutput}
    (hin : inputs.map SplitStageInput.valueZatoshi = tx.inputs.map fun i => i.value.value)
    (hout : outputs.map SplitStageOutput.valueZatoshi = tx.outputs.map fun o => o.value.value)
    (hactions : tx.actionCount ≤ 16)
    (hconserves : tx.inputTotal = tx.outputTotal + feePerTx.value) :
  checkStage inputs outputs feePerTx.value = .ok ()
  := by
  have hinlen : inputs.length = tx.inputs.length := by
    simpa using congrArg List.length hin
  have houtlen : outputs.length = tx.outputs.length := by
    simpa using congrArg List.length hout
  rw [PrepTransaction.actionCount] at hactions
  have hbound : tx.inputTotal ≤ tx.inputs.length * maxMoney := by
    rw [← List.length_map (fun i : PrepInput => i.value.value)]
    apply sum_le_length_mul
    intro m hm
    obtain ⟨i, -, rfl⟩ := List.mem_map.mp hm
    apply i.value.le_maxMoney
  have hsmall : tx.inputTotal < u64Size := by
    calc tx.inputTotal
      _ ≤ tx.inputs.length * maxMoney := hbound
      _ ≤ 16 * maxMoney := Nat.mul_le_mul_right _ (by omega)
      _ < u64Size := by decide
  rw [PrepTransaction.inputTotal, PrepTransaction.outputTotal] at *
  rw [checkStage, if_neg (by rw [hinlen, houtlen]; exact not_lt.mpr hactions), hin, hout]
  simp only [checkedSum, checkedAdd]
  rw [if_pos hsmall]
  simp only [bind, Except.bind]
  rw [if_pos (by omega)]
  simp only
  rw [if_pos (by omega)]
  simp only
  rw [if_neg (by omega)]
  rfl

/-- The values and the parts of the migration notes of stages. -/
def stageEntries (stages : List SplitStagePlan) : List (Nat × Nat) :=
  stages.flatMap fun stage => stage.outputs.filterMap SplitStageOutput.entry?

/-- The stages of the transactions `todo` of a plan, of which `done` are translated. -/
structure Translated (fee start : Nat) (todo : List ((Nat × Nat) × PrepTransaction))
    (stages : List SplitStagePlan) : Prop where
  count : stages.length = todo.length
  fees : ∀ stage ∈ stages, stage.feeZatoshi = fee
  priorEarlier : ∀ (s : Nat) stage, stages[s]? = some stage →
    ∀ k output value, SplitStageInput.prior k output value ∈ stage.inputs → k < start + s

/-- The transactions of a plan that meets its request can be translated, and use up the
parts of the funding values that they mint. -/
theorem translateStages_ok {done todo : List ((Nat × Nat) × PrepTransaction)}
    {stages : List SplitStagePlan} (hm : Meets available feePerTx requested preparation)
    (hindices : indices.length = available.length)
    (hsplit : addressed preparation.layers = done ++ todo)
    (hstages : stages.length = done.length) (h : Holds parts rest)
    (hvalues : ((mintedFunding (todo.map Prod.snd)).map Zatoshis.value).Perm
      (rest.map Prod.fst)) :
  ∃ translated parts',
    translateStages indices feePerTx.value todo (stagesOf done) stages parts
      = .ok (stages ++ translated, parts') ∧
    Holds parts' [] ∧ rest.Perm (stageEntries translated) ∧
    Translated feePerTx.value done.length todo translated
  := by
  induction todo generalizing done stages parts rest with
  | nil =>
    have hnil : rest = [] := by
      simpa [mintedFunding] using hvalues.symm
    subst hnil
    exact ⟨[], parts, by simp [translateStages], h, List.Perm.refl _, ⟨rfl, by simp, by simp⟩⟩
  | cons entry todo ih =>
    obtain ⟨address, tx⟩ := entry
    have hin : tx ∈ preparation.layers.flatten := by
      rw [← map_snd_addressed, hsplit]
      simp
    obtain ⟨inputs, hinputs, htranslated⟩ := translateInputs_ok hm hindices hsplit
    have hvalues' : ((tx.outputs.filterMap PrepOutput.funding?).map Zatoshis.value ++
        (mintedFunding (todo.map Prod.snd)).map Zatoshis.value).Perm (rest.map Prod.fst) := by
      rw [← List.map_append]
      apply hvalues
    obtain ⟨outputs, parts₁, rest₁, houtputs, hholds, hperm, hmore, hsame⟩ :=
      translateOutputs_ok h hvalues'
    have hcheck := checkStage_ok (forall₂_values htranslated) hsame (hm.actions tx hin)
      (hm.conserves tx hin)
    have hdone : stagesOf done ++ [(address, stages.length)] = stagesOf (done ++ [(address, tx)]) := by
      simp [stagesOf, List.zipIdx_append, hstages]
    have hsplit' : addressed preparation.layers = (done ++ [(address, tx)]) ++ todo := by
      simpa using hsplit
    set stage : SplitStagePlan := {
      layerIndex := address.1
      inputs
      outputs
      feeZatoshi := feePerTx.value
      requestedActions := inputs.length + outputs.length } with hstage
    have hlength : (stages ++ [stage]).length = (done ++ [(address, tx)]).length := by
      simp [hstages]
    obtain ⟨translated, parts', hrest, hholds', hperm', hspec⟩ := ih hsplit' hlength hholds hmore
    refine ⟨stage :: translated, parts', ?_, hholds', ?_, ?_, ?_, ?_⟩
    · rw [translateStages, hinputs]
      simp only [bind, Except.bind, houtputs, hcheck, hdone]
      rw [← hstage, hrest]
      simp
    · rw [stageEntries, List.flatMap_cons]
      apply hperm.trans (hperm'.append_left _)
    · rw [List.length_cons, hspec.count, List.length_cons]
    · rw [List.forall_mem_cons]
      exact ⟨rfl, hspec.fees⟩
    · intro s stage hs k output value hprior
      cases s with
      | zero =>
        cases hs
        apply forall₂_priors htranslated k output value hprior
      | succ s =>
        have := hspec.priorEarlier s stage hs k output value hprior
        rw [List.length_append, List.length_singleton] at this
        omega

/-! ### Whole plans -/

/-- The funding notes of a padded plan as funding values with parts. -/
private theorem partNotes_swap (plan : PaddedDenominationPlan) :
  plan.partNotes.map Prod.swap
    = plan.directMigrationInputs.map DirectMigrationInput.entry ++ stageEntries plan.stages
  := by
  rw [PaddedDenominationPlan.partNotes, List.map_append, List.map_map, List.map_flatMap,
    stageEntries]
  congr 1
  congr 1
  funext stage
  rw [List.map_filterMap]
  rfl

/-- A preparation plan that meets its request can always be translated, and its funding
notes are then assigned to the parts one to one. -/
theorem translatePreparationPlan_ok (hm : Meets available feePerTx requested preparation)
    (hindices : indices.length = available.length)
    (hfunding : fundingValues.Perm (requested.map Zatoshis.value))
    (denominations : DenominationPlan) :
  ∃ plan, translatePreparationPlan preparation denominations indices fundingValues
      feePerTx.value = .ok plan ∧
    plan.denominations = denominations ∧
    fundingValues.zipIdx.Perm (plan.partNotes.map Prod.swap) ∧
    (plan.stages.map SplitStagePlan.feeZatoshi).sum
      = feePerTx.value * preparation.transactionCount ∧
    ∀ (s : Nat) stage, plan.stages[s]? = some stage →
      ∀ k output value, SplitStageInput.prior k output value ∈ stage.inputs → k < s
  := by
  have hvalues : (preparation.directFunding.map (fun note => note.2.value) ++
      (mintedFunding preparation.layers.flatten).map Zatoshis.value).Perm
        (fundingValues.zipIdx.map Prod.fst) := by
    rw [List.zipIdx_map_fst]
    apply List.Perm.trans _ hfunding.symm
    have := (hm.funding.map Zatoshis.value)
    rw [PreparationPlan.fundingNotes, List.map_append, List.map_map] at this
    apply List.perm_append_comm.trans this
  have hdirect : ∀ note ∈ preparation.directFunding, note.1 < indices.length := by
    intro note hnote
    rw [hindices]
    apply (List.getElem?_eq_some_iff.mp
      (hm.walletValue note (List.mem_append_left _ hnote))).1
  obtain ⟨inputs, parts₁, rest₁, hassign, hholds, hperm, hmore⟩ :=
    assignDirect_ok hdirect (availableParts_holds fundingValues) hvalues
  have hsplit : addressed preparation.layers = [] ++ addressed preparation.layers := rfl
  have hstart : ([] : List SplitStagePlan).length
      = ([] : List ((Nat × Nat) × PrepTransaction)).length := rfl
  rw [← map_snd_addressed] at hmore
  obtain ⟨stages, parts₂, hstages, hempty, hperm', hspec⟩ :=
    translateStages_ok hm hindices hsplit hstart hholds hmore
  have hnone : (fundingValues.any fun value => !(parts₂ value).isEmpty) = false := by
    rw [List.any_eq_false]
    intro value _
    rw [hempty value]
    simp
  refine ⟨{
      denominations
      stages
      layerCount := preparation.layers.length
      directMigrationInputs := inputs.insertionSort fun a b => a.partIndex ≤ b.partIndex },
    ?_, rfl, ?_, ?_, ?_⟩
  · rw [translatePreparationPlan, hassign]
    simp only [bind, Except.bind]
    rw [show ([] : Coordinates) = stagesOf [] from rfl, hstages]
    simp [hnone, pure, Except.pure]
  · rw [partNotes_swap]
    have hsorted := (List.perm_insertionSort
      (fun a b : DirectMigrationInput => a.partIndex ≤ b.partIndex) inputs).map
        DirectMigrationInput.entry
    apply (hperm.trans (hperm'.append_left _)).trans (hsorted.symm.append_right _)
  · have hsum : ∀ ss : List SplitStagePlan, (∀ stage ∈ ss, stage.feeZatoshi = feePerTx.value) →
        (ss.map SplitStagePlan.feeZatoshi).sum = feePerTx.value * ss.length := by
      intro ss hss
      rw [List.map_congr_left hss, List.map_const', List.sum_replicate_nat, Nat.mul_comm]
    rw [hsum stages hspec.fees, hspec.count, PreparationPlan.transactionCount,
      ← List.length_flatten, ← map_snd_addressed, List.length_map]
  · simpa using hspec.priorEarlier

theorem planningContext_eq_ok {inputValues : List Nat} {feePerStage minimumOutput : Nat}
    {context : PlanningContext}
    (h : planningContext inputValues feePerStage minimumOutput = .ok (some context)) :
  context.positiveInputIndices.length = context.available.length ∧
    context.prepFee.value = feePerStage ∧ minimumOutput = 1
  := by
  rw [planningContext] at h
  split at h
  · cases h
  · split at h
    · cases h
    · split at h
      · cases h
      · rename_i hminimum
        obtain ⟨total, -, h⟩ := Outcome.bind_eq_ok.mp h
        obtain ⟨available, havailable, h⟩ := Outcome.bind_eq_ok.mp h
        obtain ⟨prepFee, hfee, h⟩ := Outcome.bind_eq_ok.mp h
        cases h
        refine ⟨?_, toZatoshis_eq_ok.mp hfee, by simpa using hminimum⟩
        have := Outcome.length_of_mapM_eq_ok havailable
        rw [List.length_map] at this
        apply this.symm

/-- The funding notes of canonical crossings are positive. -/
theorem requestedNotes_of_canonical {crossings : List Nat} {migrationFee : Nat}
    {typed : List Zatoshis} (hc : Canonical crossings)
    (htyped : typed.map Zatoshis.value = crossings.map (fundingOf migrationFee)) :
  requestedNotes typed = typed
  := by
  rw [requestedNotes, List.filter_eq_self]
  intro v hv
  have hmem : v.value ∈ crossings.map (fundingOf migrationFee) := by
    rw [← htyped]
    apply List.mem_map_of_mem hv
  obtain ⟨c, hcmem, hcv⟩ := List.mem_map.mp hmem
  have hmin := le_of_isZip318CanonicalDenomination (hc c hcmem)
  have hpos : 0 < zip318MaxResidualValueZatoshi := by decide
  rw [fundingOf] at hcv
  apply decide_eq_true (by omega)

/-- The preparation of canonical crossings meets the request for their funding values. -/
theorem meets_of_preparationForCrossings {context : PlanningContext} {crossings : List Nat}
    {feePerStage migrationFee : Nat} {S : NoteSort} (hc : Canonical crossings)
    (h : preparationForCrossings S context crossings feePerStage migrationFee
      = .ok (some (fundingValues, preparation))) :
  ∃ requested : List Zatoshis,
    requested.map Zatoshis.value = crossings.map (fundingOf migrationFee) ∧
    Meets context.available context.prepFee requested preparation
  := by
  obtain ⟨typed, htyped, outcome, houtcome, hresult⟩ := preparationForCrossings_eq_ok.mp h
  cases outcome with
  | none => cases hresult
  | some plan =>
    obtain ⟨committed, -, hresult⟩ := hresult
    split at hresult
    · cases hresult
      refine ⟨typed, htyped, ?_⟩
      have hplan : planPreparation S context.available typed context.prepFee
          = .ok preparation := by
        revert houtcome
        generalize planPreparation S context.available typed context.prepFee = planned
        intro houtcome
        match planned with
        | .ok candidate =>
          cases houtcome
          rfl
        | .error (.error .insufficientFunds) => cases houtcome
        | .error (.error .balanceInvalid) => cases houtcome
        | .error .panic => cases houtcome
        | .error .outOfFuel => cases houtcome
      have hmeets := Meets.of_planPreparation hplan
      rwa [requestedNotes_of_canonical hc htyped] at hmeets
    · cases hresult

/-- The plans of the forward planner, with any refiner, assign their parts. -/
theorem PartsAssigned.of_refiner {σ : Type} {S : NoteSort} {inputValues : List Nat}
    {feePerStage migrationFee minimumOutput : Nat}
    {refine : Nat → StateM σ DenominationRefinement} {state : σ} {plan : PaddedDenominationPlan}
    (h : planPaddedDenominationsWithRefiner S inputValues feePerStage migrationFee minimumOutput
      refine state = .ok (some plan)) :
  PartsAssigned plan
  := by
  obtain ⟨context, crossings, preparation, hcontext, hprepared, -, hfinish⟩ :=
    planPaddedDenominationsWithRefiner_spec h
  obtain ⟨hne, remaining, total, hbalance, htranslate⟩ := finishPlan_eq_ok hfinish
  obtain ⟨hindices, hfee, hminimum⟩ := planningContext_eq_ok hcontext
  obtain ⟨requested, hrequested, hmeets⟩ :=
    meets_of_preparationForCrossings hprepared.canonical (hprepared.prepared hne)
  have hsorted := sortDescending_perm crossings
  have hfunding : ((sortDescending crossings).map (fundingOf migrationFee)).Perm
      (requested.map Zatoshis.value) := by
    rw [hrequested]
    apply hsorted.map _
  obtain ⟨plan', hplan', hdenominations, hparts, hfees, hprior⟩ :=
    translatePreparationPlan_ok hmeets hindices hfunding _
  rw [hfee, htranslate] at hplan'
  cases hplan'
  exact {
    ordered := by
      rw [hdenominations]
      apply sortDescending_pairwise crossings
    canonical := by
      rw [hdenominations]
      intro v hv
      apply hprepared.canonical v (hsorted.mem_iff.mp hv)
    parts := by
      have := hparts.map Prod.snd
      rw [List.zipIdx_map_snd, List.map_map, List.length_map] at this
      rw [hdenominations, List.range_eq_range']
      apply this.symm
    worth := by
      intro note hnote
      have hmem := hparts.mem_iff.mpr (List.mem_map_of_mem hnote)
      have hget := List.mem_zipIdx_iff_getElem?.mp hmem
      rw [List.getElem?_map, Option.map_eq_some_iff] at hget
      obtain ⟨denomination, hd, hworth⟩ := hget
      rw [hdenominations]
      exact ⟨denomination, hd, hworth.symm⟩
    balance := by
      rw [hfees, hfee, hdenominations]
      dsimp only
      rw [hbalance]
      congr 1
      subst hminimum
      split
      · rfl
      · rw [Option.getD_none]
        omega
    splitFee := by
      rw [hfees, hfee, hdenominations]
    priorEarlier := hprior }

/-- A plan for canonical crossings can be translated where the padded planner does so. -/
theorem translatePreparationPlan_of_crossings {S : NoteSort} {context : PlanningContext}
    {inputValues crossings : List Nat} {feePerStage migrationFee minimumOutput : Nat}
    (hcontext : planningContext inputValues feePerStage minimumOutput = .ok (some context))
    (hc : Canonical crossings)
    (h : preparationForCrossings S context crossings feePerStage migrationFee
      = .ok (some (fundingValues, preparation)))
    (denominations : DenominationPlan) :
  ∃ plan, translatePreparationPlan preparation denominations context.positiveInputIndices
    ((sortDescending crossings).map (fundingOf migrationFee)) feePerStage = .ok plan
  := by
  obtain ⟨hindices, hfee, -⟩ := planningContext_eq_ok hcontext
  obtain ⟨requested, hrequested, hmeets⟩ := meets_of_preparationForCrossings hc h
  have hfunding : ((sortDescending crossings).map (fundingOf migrationFee)).Perm
      (requested.map Zatoshis.value) := by
    rw [hrequested]
    apply (sortDescending_perm crossings).map _
  obtain ⟨plan, hplan, -⟩ := translatePreparationPlan_ok hmeets hindices hfunding denominations
  rw [hfee] at hplan
  exact ⟨plan, hplan⟩

/-- Whenever the planner returns a plan, its funding notes are assigned to its parts one
to one and its values add up.  A plan of the preparation planner for positive funding
values can always be translated, and so can the plans that the padded planner translates. -/
theorem planPaddedDenominations_assigns_parts (S : NoteSort) :
  (∀ {σ : Type} (inputValues : List Nat) (feePerStage migrationFee minimumOutput : Nat)
      (policy : DenominationRefinementPolicy) (nextU32 : StateM σ Nat) (rng : σ)
      (plan : PaddedDenominationPlan),
    planPaddedDenominationsWithPolicyAndRng S inputValues feePerStage migrationFee minimumOutput
      policy nextU32 rng = .ok (some plan) → PartsAssigned plan) ∧
  (∀ (available funding : List Zatoshis) (feePerTx : Zatoshis) (preparation : PreparationPlan)
      (denominations : DenominationPlan) (positiveInputIndices fundingValues : List Nat),
    planPreparation S available funding feePerTx = .ok preparation →
    (∀ v ∈ funding, 0 < v.value) → positiveInputIndices.length = available.length →
    fundingValues.Perm (funding.map Zatoshis.value) →
    ∃ plan, translatePreparationPlan preparation denominations positiveInputIndices fundingValues
      feePerTx.value = .ok plan) ∧
  (∀ (inputValues crossings fundingValues : List Nat)
      (feePerStage migrationFee minimumOutput : Nat) (context : PlanningContext)
      (preparation : PreparationPlan) (denominations : DenominationPlan),
    planningContext inputValues feePerStage minimumOutput = .ok (some context) →
    (∀ v ∈ crossings, isZip318CanonicalDenomination v) →
    preparationForCrossings S context crossings feePerStage migrationFee
      = .ok (some (fundingValues, preparation)) →
    ∃ plan, translatePreparationPlan preparation denominations context.positiveInputIndices
      ((sortDescending crossings).map (fundingOf migrationFee)) feePerStage = .ok plan)
  := by
  refine ⟨?_, ?_, ?_⟩
  · intro σ inputValues feePerStage migrationFee minimumOutput policy nextU32 rng plan h
    apply PartsAssigned.of_refiner h
  · intro available funding feePerTx preparation denominations indices fundingValues h hpositive
      hindices hfunding
    have hmeets := Meets.of_planPreparation h
    have hall : requestedNotes funding = funding := by
      rw [requestedNotes, List.filter_eq_self]
      intro v hv
      apply decide_eq_true (hpositive v hv)
    rw [hall] at hmeets
    obtain ⟨plan, hplan, -⟩ := translatePreparationPlan_ok hmeets hindices hfunding denominations
    exact ⟨plan, hplan⟩
  · intro inputValues crossings fundingValues feePerStage migrationFee minimumOutput context
      preparation denominations hcontext hc h
    apply translatePreparationPlan_of_crossings hcontext hc h denominations

/-- The two parts of the consolidation of two notes carry the indices of their parts. -/
theorem planPaddedDenominations_assigns_parts_two_notes :
  PartsAssigned twoNotesPlan
  := (planPaddedDenominations_assigns_parts .insertion).1 [1015000, 3300000] 80000 15000 1
    ⟨80, 55, 35, by decide⟩ (fun s : Nat => (s, s + 1)) 0 twoNotesPlan rfl

end Vizor.Planner
