import Vizor.Planner.Meets
import Mathlib.Algebra.Order.BigOperators.Group.List
import Mathlib.Algebra.Order.Group.Nat

/-!
# The flow of value through a plan

Notes that a plan can spend are wallet notes and intermediate outputs.  Notes of different
addresses are worth at most the wallet notes and the intermediate outputs together, and
every transaction conserves value up to its fee.  So the funding notes, the change, the
fees and any notes left unspent are together worth at most the wallet notes.
-/

namespace Vizor.Planner

variable {available : List Zatoshis} {fee : Nat} {direct : List (Nat × Zatoshis)}
  {layers : List (List PrepTransaction)} {live notes : List PrepInput}

/-! ### Totals -/

/-- The total of a list of amounts. -/
def zatTotal (values : List Zatoshis) : Nat :=
  (values.map Zatoshis.value).sum

@[simp]
theorem zatTotal_nil :
  zatTotal [] = 0
  := rfl

@[simp]
theorem zatTotal_cons (v : Zatoshis) (vs : List Zatoshis) :
  zatTotal (v :: vs) = v.value + zatTotal vs
  := List.sum_cons

@[simp]
theorem zatTotal_append (vs ws : List Zatoshis) :
  zatTotal (vs ++ ws) = zatTotal vs + zatTotal ws
  := by
  rw [zatTotal, List.map_append, List.sum_append]
  rfl

theorem zatTotal_perm {vs ws : List Zatoshis} (h : vs.Perm ws) :
  zatTotal vs = zatTotal ws
  := (h.map _).sum_eq

theorem totalValue_append (notes notes' : List PrepInput) :
  totalValue (notes ++ notes') = totalValue notes + totalValue notes'
  := by
  rw [totalValue, List.map_append, List.sum_append]
  rfl

/-- Some of the notes are worth at most all of them. -/
theorem totalValue_le_of_subperm {notes notes' : List PrepInput} (h : notes.Subperm notes') :
  totalValue notes ≤ totalValue notes'
  := by
  obtain ⟨sub, hperm, hsub⟩ := h
  calc totalValue notes
    _ = totalValue sub := (hperm.symm.map _).sum_eq
    _ ≤ totalValue notes' := (hsub.map _).sum_le_sum fun _ _ => Nat.zero_le _

/-! ### The outputs of a transaction -/

/-- The value of an intermediate output. -/
def PrepOutput.intermediate? : PrepOutput → Option Zatoshis
  | .intermediate value => some value
  | _ => none

/-- The value of a change output. -/
def PrepOutput.change? : PrepOutput → Option Zatoshis
  | .change value => some value
  | _ => none

/-- The intermediate notes that a list of transactions produces. -/
def mintedFeeders (txs : List PrepTransaction) : List Zatoshis :=
  txs.flatMap fun tx => tx.outputs.filterMap PrepOutput.intermediate?

/-- The change that a list of transactions returns. -/
def mintedChange (txs : List PrepTransaction) : List Zatoshis :=
  txs.flatMap fun tx => tx.outputs.filterMap PrepOutput.change?

private theorem outputTotal_split (outputs : List PrepOutput) :
  (outputs.map fun o => o.value.value).sum
    = zatTotal (outputs.filterMap PrepOutput.funding?)
      + zatTotal (outputs.filterMap PrepOutput.intermediate?)
      + zatTotal (outputs.filterMap PrepOutput.change?)
  := by
  induction outputs with
  | nil => rfl
  | cons o outputs ih =>
    rw [List.map_cons, List.sum_cons, ih]
    cases o with
    | funding v =>
      simp only [List.filterMap_cons, PrepOutput.funding?, PrepOutput.intermediate?,
        PrepOutput.change?, zatTotal_cons, PrepOutput.value]
      omega
    | intermediate v =>
      simp only [List.filterMap_cons, PrepOutput.funding?, PrepOutput.intermediate?,
        PrepOutput.change?, zatTotal_cons, PrepOutput.value]
      omega
    | change v =>
      simp only [List.filterMap_cons, PrepOutput.funding?, PrepOutput.intermediate?,
        PrepOutput.change?, zatTotal_cons, PrepOutput.value]
      omega

/-- Transactions that conserve value spend what they produce and their fees. -/
theorem totalValue_inputs {txs : List PrepTransaction}
    (h : ∀ tx ∈ txs, tx.inputTotal = tx.outputTotal + fee) :
  totalValue (txs.flatMap PrepTransaction.inputs)
    = zatTotal (mintedFunding txs) + zatTotal (mintedFeeders txs) + zatTotal (mintedChange txs)
      + fee * txs.length
  := by
  induction txs with
  | nil => rfl
  | cons tx txs ih =>
    rw [List.forall_mem_cons] at h
    have hin : totalValue tx.inputs = tx.inputTotal := rfl
    have hout : tx.outputTotal = _ := outputTotal_split tx.outputs
    rw [List.flatMap_cons, totalValue_append, ih h.2, hin, h.1, hout]
    simp only [mintedFunding, mintedFeeders, mintedChange, List.flatMap_cons, zatTotal_append,
      List.length_cons, Nat.mul_succ]
    omega

/-! ### The notes that can be spent -/

/-- The wallet notes as inputs. -/
def walletPool (available : List Zatoshis) : List PrepInput :=
  available.zipIdx.map fun (value, index) => .wallet index value

theorem mem_walletPool {i : PrepInput} :
  i ∈ walletPool available ↔ ∃ index value, available[index]? = some value ∧
    i = .wallet index value
  := by
  simp only [walletPool, List.mem_map, Prod.exists, List.mem_zipIdx_iff_getElem?]
  constructor
  · rintro ⟨value, index, hav, rfl⟩
    exact ⟨index, value, hav, rfl⟩
  · rintro ⟨index, value, hav, rfl⟩
    exact ⟨value, index, hav, rfl⟩

theorem totalValue_walletPool (available : List Zatoshis) :
  totalValue (walletPool available) = zatTotal available
  := by
  have hmap : (walletPool available).map (fun i => i.value.value)
      = available.map Zatoshis.value := by
    rw [walletPool, List.map_map]
    have hfst : available.map Zatoshis.value
        = (available.zipIdx.map Prod.fst).map Zatoshis.value := by
      rw [List.zipIdx_map_fst]
    rw [hfst, List.map_map]
    rfl
  rw [totalValue, hmap, zatTotal]

private theorem totalValue_feeders (l t : Nat) (outputs : List PrepOutput) (k : Nat) :
  totalValue ((outputs.zipIdx k).filterMap (feeder? l t))
    = zatTotal (outputs.filterMap PrepOutput.intermediate?)
  := by
  induction outputs generalizing k with
  | nil => rfl
  | cons o outputs ih =>
    rw [List.zipIdx_cons]
    cases o with
    | funding v => exact ih (k + 1)
    | change v => exact ih (k + 1)
    | intermediate v =>
      have := ih (k + 1)
      simp only [List.filterMap_cons, feeder?, PrepOutput.intermediate?, zatTotal_cons]
      rw [← this]
      rfl

private theorem totalValue_layer (l : Nat) (txs : List PrepTransaction) (k : Nat) :
  totalValue ((txs.zipIdx k).flatMap fun (tx, t) => feeders l t tx.outputs)
    = zatTotal (mintedFeeders txs)
  := by
  induction txs generalizing k with
  | nil => rfl
  | cons tx txs ih =>
    have hsplit : mintedFeeders (tx :: txs)
        = tx.outputs.filterMap PrepOutput.intermediate? ++ mintedFeeders txs := List.flatMap_cons
    rw [List.zipIdx_cons, List.flatMap_cons, totalValue_append, ih, hsplit, zatTotal_append]
    congr 1
    apply totalValue_feeders l k tx.outputs 0

private theorem totalValue_layers (layers : List (List PrepTransaction)) (k : Nat) :
  totalValue ((layers.zipIdx k).flatMap fun (txs, l) =>
      txs.zipIdx.flatMap fun (tx, t) => feeders l t tx.outputs)
    = zatTotal (mintedFeeders layers.flatten)
  := by
  induction layers generalizing k with
  | nil => rfl
  | cons txs layers ih =>
    have hsplit : mintedFeeders (txs ++ layers.flatten)
        = mintedFeeders txs ++ mintedFeeders layers.flatten := List.flatMap_append
    rw [List.zipIdx_cons, List.flatMap_cons, totalValue_append, ih, List.flatten_cons, hsplit,
      zatTotal_append]
    congr 1
    apply totalValue_layer k txs 0

theorem totalValue_allFeeders (layers : List (List PrepTransaction)) :
  totalValue (allFeeders layers) = zatTotal (mintedFeeders layers.flatten)
  := totalValue_layers layers 0

/-- Backed notes of different addresses are among the wallet notes and the feeders. -/
theorem subperm_of_backed (hn : (notes.map PrepInput.source).Nodup)
    (hb : ∀ i ∈ notes, Backed available layers i) :
  notes.Subperm (walletPool available ++ allFeeders layers)
  := by
  apply List.subperm_of_subset (hn.of_map _)
  intro i hi
  rw [List.mem_append]
  have := hb i hi
  cases i with
  | wallet index value => exact .inl (mem_walletPool.mpr ⟨index, value, this, rfl⟩)
  | prior l t o value => exact .inr (mem_allFeeders.mpr ⟨l, t, o, value, this, rfl⟩)

/-- What a plan produces, its fees and its unspent notes are worth at most the wallet
notes. -/
theorem flow_le (notes : List PrepInput)
    (hc : ∀ tx ∈ layers.flatten, tx.inputTotal = tx.outputTotal + fee)
    (hn : ((allInputs layers ++ notes).map PrepInput.source).Nodup)
    (hb : ∀ i ∈ allInputs layers ++ notes, Backed available layers i) :
  zatTotal (mintedFunding layers.flatten) + zatTotal (mintedChange layers.flatten)
    + fee * layers.flatten.length + totalValue notes ≤ zatTotal available
  := by
  have hle := totalValue_le_of_subperm (subperm_of_backed hn hb)
  have hin : totalValue (allInputs layers) = _ := totalValue_inputs hc
  rw [totalValue_append, totalValue_append, totalValue_walletPool, totalValue_allFeeders,
    hin] at hle
  omega

/-! ### Plans under construction -/

/-- The notes used directly, as inputs. -/
def directInputs (direct : List (Nat × Zatoshis)) : List PrepInput :=
  direct.map fun note => .wallet note.1 note.2

private theorem totalValue_directInputs (direct : List (Nat × Zatoshis)) :
  totalValue (directInputs direct) = zatTotal (direct.map Prod.snd)
  := by
  simp [totalValue, directInputs, zatTotal, List.map_map, Function.comp_def, PrepInput.value]

/-- What a plan under construction mints, its fees and its live notes are worth at most
the wallet notes. -/
theorem Sound.flow_le (h : Sound available fee direct layers live) :
  zatTotal (mintedFunding layers.flatten) + fee * layers.flatten.length
    + zatTotal (direct.map Prod.snd) + totalValue live ≤ zatTotal available
  := by
  have hflow := Planner.flow_le (directInputs direct ++ live) h.conserves
    (by
      have hsources : (directInputs direct).map PrepInput.source
          = direct.map fun note => (Sum.inl note.1 : Nat ⊕ OutputRef) := by
        rw [directInputs, List.map_map]
        rfl
      have hn := h.nodup
      rw [usedSources] at hn
      rw [List.map_append, List.map_append, hsources]
      refine (List.Perm.nodup_iff ?_).mpr hn
      rw [List.append_assoc, ← List.append_assoc, ← List.append_assoc]
      apply List.perm_append_comm.append_right _)
    (by
      intro i hi
      rcases List.mem_append.mp hi with hi | hi
      · apply h.backed i hi
      · rcases List.mem_append.mp hi with hi | hi
        · obtain ⟨note, hnote, rfl⟩ := List.mem_map.mp hi
          apply h.direct_backed note hnote
        · apply h.live_backed i hi)
  rw [totalValue_append, totalValue_directInputs] at hflow
  omega

/-- The live notes of a plan under construction are worth at most the wallet notes. -/
theorem Sound.live_le (h : Sound available fee direct layers live) :
  totalValue live ≤ zatTotal available
  := by
  have := h.flow_le
  omega

/-! ### Finished plans -/

/-- The wallet notes that a plan uses, by their index. -/
def PreparationPlan.usedIndices (plan : PreparationPlan) : List Nat :=
  (plan.directFunding ++ walletNotes (allInputs plan.layers)).map Prod.fst

/-- The wallet notes that a plan does not use, by their index. -/
def PreparationPlan.unusedInputs (plan : PreparationPlan) (available : List Zatoshis) :
    List (Nat × Zatoshis) :=
  (available.zipIdx.filter fun entry => entry.2 ∉ plan.usedIndices).map Prod.swap

/-- The notes that remain once a plan is executed: the wallet notes that it does not use
and its change. -/
def PreparationPlan.remainingNotes (plan : PreparationPlan) (available : List Zatoshis) :
    List Zatoshis :=
  (plan.unusedInputs available).map Prod.snd ++ mintedChange plan.layers.flatten

theorem mem_unusedInputs {plan : PreparationPlan} {note : Nat × Zatoshis} :
  note ∈ plan.unusedInputs available
    ↔ available[note.1]? = some note.2 ∧ note.1 ∉ plan.usedIndices
  := by
  obtain ⟨index, value⟩ := note
  simp [PreparationPlan.unusedInputs, List.mem_zipIdx_iff_getElem?]

theorem unusedInputs_nodup (plan : PreparationPlan) (available : List Zatoshis) :
  ((plan.unusedInputs available).map Prod.fst).Nodup
  := by
  rw [PreparationPlan.unusedInputs, List.map_map]
  have hs : ((available.zipIdx.filter fun entry => entry.2 ∉ plan.usedIndices).map
      Prod.snd).Sublist (available.zipIdx.map Prod.snd) := List.filter_sublist.map _
  apply hs.nodup
  rw [List.zipIdx_map_snd]
  exact List.nodup_range'

private theorem mem_walletNotes {inputs : List PrepInput} {note : Nat × Zatoshis} :
  note ∈ walletNotes inputs ↔ PrepInput.wallet note.1 note.2 ∈ inputs
  := by
  rw [walletNotes, List.mem_filterMap]
  constructor
  · rintro ⟨i, hi, hw⟩
    cases i with
    | wallet index value =>
      cases hw
      exact hi
    | prior l t o value => cases hw
  · intro hi
    exact ⟨_, hi, rfl⟩

/-- The addresses of a list of inputs are those of its wallet notes and the outputs that it
spends. -/
private theorem sources_perm (inputs : List PrepInput) :
  (inputs.map PrepInput.source).Perm
    ((walletNotes inputs).map (fun note => (Sum.inl note.1 : Nat ⊕ OutputRef))
      ++ (inputs.filterMap PrepInput.priorRef?).map Sum.inr)
  := by
  induction inputs with
  | nil => exact List.Perm.refl _
  | cons i inputs ih =>
    cases i with
    | wallet index value => exact ih.cons _
    | prior l t o value => exact (ih.cons _).trans List.perm_middle.symm

private theorem spentOutputs_eq (layers : List (List PrepTransaction)) :
  spentOutputs layers = (allInputs layers).filterMap PrepInput.priorRef?
  := by
  rw [spentOutputs, allInputs, List.filterMap_flatMap]

/-- The inputs of a finished plan are backed. -/
private theorem Meets.backed {feePerTx : Zatoshis} {requested : List Zatoshis}
    {plan : PreparationPlan} (h : Meets available feePerTx requested plan) {i : PrepInput}
    (hi : i ∈ allInputs plan.layers) :
  Backed available plan.layers i
  := by
  cases i with
  | wallet index value =>
    apply h.walletValue (index, value) (List.mem_append_right _ (mem_walletNotes.mpr hi))
  | prior l t o value =>
    obtain ⟨tx, htx, hin⟩ := mem_allInputs.mp hi
    obtain ⟨layer, transaction, hat⟩ := Layered.mem_flatten_iff.mp htx
    apply (h.priorEarlier layer transaction tx hat l t o value hin).2

/-- A finished plan spends no output twice. -/
private theorem Meets.spent_nodup {feePerTx : Zatoshis} {requested : List Zatoshis}
    {plan : PreparationPlan} (h : Meets available feePerTx requested plan) :
  (spentOutputs plan.layers).Nodup
  := by
  rw [List.nodup_iff_count_eq_one]
  rintro ⟨l, t, o⟩ hmem
  rw [mem_spentOutputs] at hmem
  obtain ⟨i, hi, hs⟩ := List.mem_map.mp hmem
  have hb := h.backed hi
  cases i with
  | wallet index value => cases hs
  | prior l' t' o' value =>
    cases hs
    apply h.spentOnce _ _ _ _ hb

/-- What a finished plan produces, its fees and the notes that remain are worth at most
the wallet notes. -/
theorem Meets.flow_le {feePerTx : Zatoshis} {requested : List Zatoshis} {plan : PreparationPlan}
    (h : Meets available feePerTx requested plan) :
  zatTotal requested + feePerTx.value * plan.layers.flatten.length
    + zatTotal (plan.remainingNotes available) ≤ zatTotal available
  := by
  have hnodup : ((allInputs plan.layers ++ (directInputs plan.directFunding
      ++ directInputs (plan.unusedInputs available))).map PrepInput.source).Nodup := by
    have hdirect : ∀ notes : List (Nat × Zatoshis), (directInputs notes).map PrepInput.source
        = notes.map fun note => (Sum.inl note.1 : Nat ⊕ OutputRef) := by
      intro notes
      rw [directInputs, List.map_map]
      rfl
    have hwallets : (((plan.directFunding ++ walletNotes (allInputs plan.layers))
        ++ plan.unusedInputs available).map Prod.fst).Nodup := by
      rw [List.map_append, List.nodup_append']
      refine ⟨h.walletOnce, unusedInputs_nodup _ _, ?_⟩
      intro index hused hunused
      obtain ⟨note, hnote, rfl⟩ := List.mem_map.mp hunused
      apply (mem_unusedInputs.mp hnote).2 hused
    have hperm : ((allInputs plan.layers ++ (directInputs plan.directFunding
          ++ directInputs (plan.unusedInputs available))).map PrepInput.source).Perm
        ((((plan.directFunding ++ walletNotes (allInputs plan.layers))
          ++ plan.unusedInputs available).map Prod.fst).map Sum.inl
            ++ (spentOutputs plan.layers).map Sum.inr) := by
      rw [List.map_append, List.map_append, hdirect, hdirect, List.map_map, List.map_append,
        List.map_append, spentOutputs_eq]
      refine ((sources_perm _).append_right _).trans (List.perm_append_comm.trans ?_)
      simp only [List.append_assoc]
      apply List.Perm.append_left
      rw [← List.append_assoc, ← List.append_assoc]
      apply List.perm_append_comm.append_right _
    rw [hperm.nodup_iff, List.nodup_append']
    refine ⟨hwallets.map Sum.inl_injective, h.spent_nodup.map Sum.inr_injective, ?_⟩
    intro s hs hs'
    obtain ⟨index, -, rfl⟩ := List.mem_map.mp hs
    obtain ⟨ref, -, href⟩ := List.mem_map.mp hs'
    cases href
  have hbacked : ∀ i ∈ allInputs plan.layers ++ (directInputs plan.directFunding
      ++ directInputs (plan.unusedInputs available)), Backed available plan.layers i := by
    intro i hi
    simp only [List.mem_append, directInputs, List.mem_map] at hi
    rcases hi with hi | ⟨note, hnote, rfl⟩ | ⟨note, hnote, rfl⟩
    · apply h.backed hi
    · apply h.walletValue note (List.mem_append_left _ hnote)
    · apply (mem_unusedInputs.mp hnote).1
  have hflow := Planner.flow_le _ h.conserves hnodup hbacked
  rw [totalValue_append, totalValue_directInputs, totalValue_directInputs] at hflow
  have hrequested : zatTotal requested = zatTotal (mintedFunding plan.layers.flatten)
      + zatTotal (plan.directFunding.map Prod.snd) := by
    rw [← zatTotal_perm h.funding, PreparationPlan.fundingNotes, zatTotal_append]
  rw [hrequested, PreparationPlan.remainingNotes, zatTotal_append]
  omega

end Vizor.Planner
