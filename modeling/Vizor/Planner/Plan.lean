import Vizor.Amount
import Vizor.Lib.Layered
import Mathlib.Data.List.Nodup

/-!
# Preparation plans

A preparation plan is a layered list of note-preparation transactions together with the
wallet notes that already are funding notes.  A transaction spends wallet notes and
intermediate notes of earlier layers.

`Sound` is the invariant of a plan under construction: besides what holds of the
transactions placed so far, it says of a list of *live* notes that they exist and that
nothing has spent them.  Placing a transaction that spends live notes keeps it, and makes
the intermediate outputs of the transaction live.
-/

namespace Vizor.Planner

open Layered

/-- The number of Orchard actions of every note-preparation transaction. -/
def prepTxActions : Nat := 16

/-- The most funding or feeder outputs that one transaction produces from one input. -/
def fundingOutputsPerTx : Nat := prepTxActions - 2

/-- The most notes that one transaction consolidates. -/
def consolidationInputsPerTx : Nat := prepTxActions - 1

/-- A note that a preparation transaction spends. -/
inductive PrepInput where
  /-- The wallet note at `index` of the available notes. -/
  | wallet (index : Nat) (value : Zatoshis)
  /-- The output at `output` of the transaction at `transaction` of an earlier `layer`. -/
  | prior (layer transaction output : Nat) (value : Zatoshis)
  deriving DecidableEq

/-- The value of a spent note. -/
def PrepInput.value : PrepInput → Zatoshis
  | .wallet _ value => value
  | .prior _ _ _ value => value

/-- A note that a preparation transaction produces. -/
inductive PrepOutput where
  /-- One of the requested funding notes. -/
  | funding (value : Zatoshis)
  /-- A feeder, spent by a later layer. -/
  | intermediate (value : Zatoshis)
  /-- Leftover value returned to the source pool. -/
  | change (value : Zatoshis)
  deriving DecidableEq

/-- The value of a produced note. -/
def PrepOutput.value : PrepOutput → Zatoshis
  | .funding value => value
  | .intermediate value => value
  | .change value => value

/-- A note-preparation transaction. -/
structure PrepTransaction where
  inputs : List PrepInput
  outputs : List PrepOutput
  deriving DecidableEq

namespace PrepTransaction

/-- The logical number of Orchard actions, before padding. -/
def actionCount (tx : PrepTransaction) : Nat :=
  tx.inputs.length + tx.outputs.length

/-- The total value of the spent notes. -/
def inputTotal (tx : PrepTransaction) : Nat :=
  (tx.inputs.map fun i => i.value.value).sum

/-- The total value of the produced notes. -/
def outputTotal (tx : PrepTransaction) : Nat :=
  (tx.outputs.map fun o => o.value.value).sum

end PrepTransaction

/-- A schedule of note-preparation transactions in sequential layers. -/
structure PreparationPlan where
  layers : List (List PrepTransaction)
  /-- The wallet notes used directly as funding notes, by their index. -/
  directFunding : List (Nat × Zatoshis)
  deriving DecidableEq

/-- Why a preparation plan could not be produced. -/
inductive PrepError where
  /-- The available notes cannot fund the requested notes and the fees. -/
  | insufficientFunds
  /-- The available or the requested total exceeds the money supply. -/
  | balanceInvalid
  deriving DecidableEq

/-- The value of a funding output. -/
def PrepOutput.funding? : PrepOutput → Option Zatoshis
  | .funding value => some value
  | _ => none

/-- The funding notes that a list of transactions mints. -/
def mintedFunding (txs : List PrepTransaction) : List Zatoshis :=
  txs.flatMap fun tx => tx.outputs.filterMap PrepOutput.funding?

/-- The funding notes of a plan: those it mints and those it uses directly. -/
def PreparationPlan.fundingNotes (plan : PreparationPlan) : List Zatoshis :=
  mintedFunding plan.layers.flatten ++ plan.directFunding.map Prod.snd

/-! ### Spent outputs and feeders -/

/-- The address of an output: its layer, its transaction and its place there. -/
abbrev OutputRef : Type := Nat × Nat × Nat

/-- The output that an input spends, when it is not a wallet note. -/
def PrepInput.priorRef? : PrepInput → Option OutputRef
  | .wallet _ _ => none
  | .prior layer transaction output _ => some (layer, transaction, output)

/-- The outputs that the transactions of a plan spend. -/
def spentOutputs (layers : List (List PrepTransaction)) : List OutputRef :=
  layers.flatten.flatMap fun tx => tx.inputs.filterMap PrepInput.priorRef?

/-- An output of the transaction at position `transaction` of `layer`, as a note to spend
when it is an intermediate. -/
def feeder? (layer transaction : Nat) : PrepOutput × Nat → Option PrepInput
  | (.intermediate value, index) => some (.prior layer transaction index value)
  | (.funding _, _) => none
  | (.change _, _) => none

/-- The intermediate outputs of the transaction at position `transaction` of `layer`, as
notes to spend. -/
def feeders (layer transaction : Nat) (outputs : List PrepOutput) : List PrepInput :=
  outputs.zipIdx.filterMap (feeder? layer transaction)

/-- The intermediate outputs of a plan, as notes to spend. -/
def allFeeders (layers : List (List PrepTransaction)) : List PrepInput :=
  layers.zipIdx.flatMap fun (txs, layer) =>
    txs.zipIdx.flatMap fun (tx, transaction) => feeders layer transaction tx.outputs

/-- The intermediate outputs that no transaction spends. -/
def unconsumedFeeders (layers : List (List PrepTransaction)) : List PrepInput :=
  (allFeeders layers).filter fun feeder =>
    match feeder.priorRef? with
    | some ref => ref ∉ spentOutputs layers
    | none => false

/-- An output relabelled as change when it is an intermediate that is not spent. -/
def relabelOutput (spent : List OutputRef) (layer transaction index : Nat) :
    PrepOutput → PrepOutput
  | .intermediate value =>
    if (layer, transaction, index) ∈ spent then .intermediate value else .change value
  | output => output

/-- Relabelling every unspent intermediate output of a plan as change. -/
def relabelUnspent (layers : List (List PrepTransaction)) : List (List PrepTransaction) :=
  layers.mapIdx fun layer txs =>
    txs.mapIdx fun transaction tx =>
      { tx with
        outputs := tx.outputs.mapIdx (relabelOutput (spentOutputs layers) layer transaction) }

/-! ### What a plan must satisfy -/

/-- The output at an address. -/
def outputAt? (layers : List (List PrepTransaction)) (layer transaction output : Nat) :
    Option PrepOutput :=
  (at? layers layer transaction).bind fun tx => tx.outputs[output]?

/-- The wallet notes that a list of inputs spends. -/
def walletNotes (inputs : List PrepInput) : List (Nat × Zatoshis) :=
  inputs.filterMap fun
    | .wallet index value => some (index, value)
    | .prior _ _ _ _ => none

/-- All inputs of the transactions of a plan. -/
def allInputs (layers : List (List PrepTransaction)) : List PrepInput :=
  layers.flatten.flatMap PrepTransaction.inputs

/-- What a finished plan promises: every transaction is within the action budget and
conserves value up to its fee; a wallet note is used at most once, at its value; a prior
input names an intermediate output of a strictly earlier layer, at its value; every
intermediate output is spent exactly once; and the funding notes are the requested ones. -/
structure Meets (available : List Zatoshis) (fee : Zatoshis) (requested : List Zatoshis)
    (plan : PreparationPlan) : Prop where
  actions : ∀ tx ∈ plan.layers.flatten, tx.actionCount ≤ 16
  conserves : ∀ tx ∈ plan.layers.flatten, tx.inputTotal = tx.outputTotal + fee.value
  walletOnce :
    ((plan.directFunding ++ walletNotes (allInputs plan.layers)).map Prod.fst).Nodup
  walletValue :
    ∀ note ∈ plan.directFunding ++ walletNotes (allInputs plan.layers),
      available[note.1]? = some note.2
  priorEarlier : ∀ layer transaction tx, at? plan.layers layer transaction = some tx →
    ∀ l t o value, PrepInput.prior l t o value ∈ tx.inputs →
      l < layer ∧ outputAt? plan.layers l t o = some (.intermediate value)
  spentOnce : ∀ l t o value, outputAt? plan.layers l t o = some (.intermediate value) →
    (spentOutputs plan.layers).count (l, t, o) = 1
  funding : plan.fundingNotes.Perm requested

/-! ### The invariant of a plan under construction -/

/-- The note that an input spends, without its value. -/
def PrepInput.source : PrepInput → Nat ⊕ OutputRef
  | .wallet index _ => .inl index
  | .prior layer transaction output _ => .inr (layer, transaction, output)

/-- The first layer that can spend a note. -/
def PrepInput.readyAt : PrepInput → Nat
  | .wallet _ _ => 0
  | .prior layer _ _ _ => layer + 1

/-- An input is backed when the note it names exists and has the value it names. -/
def Backed (available : List Zatoshis) (layers : List (List PrepTransaction)) :
    PrepInput → Prop
  | .wallet index value => available[index]? = some value
  | .prior layer transaction output value =>
    outputAt? layers layer transaction output = some (.intermediate value)

/-- The notes used by a plan: those used directly and those its transactions spend. -/
def usedSources (direct : List (Nat × Zatoshis)) (layers : List (List PrepTransaction)) :
    List (Nat ⊕ OutputRef) :=
  direct.map (fun note => .inl note.1) ++ (allInputs layers).map PrepInput.source

/-- The invariant of a plan under construction with the live notes `live`. -/
structure Sound (available : List Zatoshis) (fee : Nat) (direct : List (Nat × Zatoshis))
    (layers : List (List PrepTransaction)) (live : List PrepInput) : Prop where
  nodup : (usedSources direct layers ++ live.map PrepInput.source).Nodup
  actions : ∀ tx ∈ layers.flatten, tx.actionCount ≤ prepTxActions
  conserves : ∀ tx ∈ layers.flatten, tx.inputTotal = tx.outputTotal + fee
  noChange : ∀ tx ∈ layers.flatten, ∀ value, .change value ∉ tx.outputs
  ready : ∀ l t tx, at? layers l t = some tx → ∀ i ∈ tx.inputs, i.readyAt ≤ l
  backed : ∀ i ∈ allInputs layers, Backed available layers i
  direct_backed : ∀ note ∈ direct, available[note.1]? = some note.2
  live_backed : ∀ i ∈ live, Backed available layers i

variable {available : List Zatoshis} {fee : Nat} {direct : List (Nat × Zatoshis)}
  {layers : List (List PrepTransaction)} {live pool : List PrepInput} {l t o : Nat}
  {tx : PrepTransaction}

/-! ### Feeders -/

theorem feeder?_eq_some {output : PrepOutput} {index : Nat} {i : PrepInput} :
  feeder? l t (output, index) = some i
    ↔ ∃ value, output = .intermediate value ∧ i = .prior l t index value
  := by
  cases output <;> simp [feeder?, eq_comm]

theorem mem_feeders {i : PrepInput} {outputs : List PrepOutput} :
  i ∈ feeders l t outputs ↔ ∃ o value, outputs[o]? = some (.intermediate value) ∧
    i = .prior l t o value
  := by
  simp only [feeders, List.mem_filterMap, Prod.exists, List.mem_zipIdx_iff_getElem?,
    feeder?_eq_some]
  constructor
  · rintro ⟨output, o, ho, value, rfl, rfl⟩
    exact ⟨o, value, ho, rfl⟩
  · rintro ⟨o, value, ho, rfl⟩
    exact ⟨.intermediate value, o, ho, value, rfl, rfl⟩

/-- The images of what a list yields form a sublist of the images of the list. -/
theorem map_filterMap_sublist {α β γ : Type} {f : α → Option β} {g : β → γ} {k : α → γ}
    (h : ∀ a b, f a = some b → g b = k a) (xs : List α) :
  ((xs.filterMap f).map g).Sublist (xs.map k)
  := by
  induction xs with
  | nil => simp
  | cons x xs ih =>
    rw [List.map_cons]
    cases hx : f x with
    | none =>
      rw [List.filterMap_cons_none hx]
      exact ih.cons _
    | some b =>
      rw [List.filterMap_cons_some hx, List.map_cons, h x b hx]
      exact ih.cons_cons _

/-- The indices that a list is numbered with are distinct. -/
private theorem zipIdx_pairwise {α : Type} (xs : List α) :
  xs.zipIdx.Pairwise fun a b => a.2 ≠ b.2
  := by
  rw [← List.pairwise_map (f := Prod.snd) (R := (· ≠ ·)), List.zipIdx_map_snd]
  exact List.nodup_range'

/-- A transaction has no two feeders with one address. -/
theorem feeders_nodup (l t : Nat) (outputs : List PrepOutput) :
  ((feeders l t outputs).map PrepInput.source).Nodup
  := by
  have hs : ((feeders l t outputs).map PrepInput.source).Sublist
      (outputs.zipIdx.map fun p => .inr (l, t, p.2)) := by
    apply map_filterMap_sublist
    rintro ⟨output, index⟩ i hi
    obtain ⟨value, -, rfl⟩ := feeder?_eq_some.mp hi
    rfl
  apply hs.nodup
  rw [List.Nodup, List.pairwise_map]
  apply (zipIdx_pairwise outputs).imp
  intro a b hab h
  simp only [Sum.inr.injEq, Prod.mk.injEq, true_and] at h
  exact hab h

theorem mem_allFeeders {i : PrepInput} :
  i ∈ allFeeders layers
    ↔ ∃ l t o value, outputAt? layers l t o = some (.intermediate value) ∧ i = .prior l t o value
  := by
  simp only [allFeeders, List.mem_flatMap, Prod.exists, List.mem_zipIdx_iff_getElem?, mem_feeders,
    outputAt?, Option.bind_eq_some_iff, at?_eq_some]
  constructor
  · rintro ⟨txs, l, hl, tx, t, ht, o, value, ho, rfl⟩
    exact ⟨l, t, o, value, ⟨tx, ⟨txs, hl, ht⟩, ho⟩, rfl⟩
  · rintro ⟨l, t, o, value, ⟨tx, ⟨txs, hl, ht⟩, ho⟩, rfl⟩
    exact ⟨txs, l, hl, tx, t, ht, o, value, ho, rfl⟩

/-- A plan has no two feeders with one address. -/
theorem allFeeders_nodup (layers : List (List PrepTransaction)) :
  ((allFeeders layers).map PrepInput.source).Nodup
  := by
  rw [allFeeders, List.map_flatMap, List.nodup_flatMap]
  constructor
  · rintro ⟨txs, l⟩ -
    rw [List.map_flatMap, List.nodup_flatMap]
    constructor
    · rintro ⟨tx, t⟩ -
      apply feeders_nodup
    · apply (zipIdx_pairwise txs).imp
      intro a b hab s ha hb
      simp only [List.mem_map, mem_feeders] at ha hb
      obtain ⟨_, ⟨_, _, -, rfl⟩, rfl⟩ := ha
      obtain ⟨_, ⟨_, _, -, rfl⟩, h⟩ := hb
      simp only [PrepInput.source, Sum.inr.injEq, Prod.mk.injEq, true_and] at h
      apply hab h.1.symm
  · apply (zipIdx_pairwise layers).imp
    intro a b hab s ha hb
    simp only [List.mem_map, List.mem_flatMap, mem_feeders] at ha hb
    obtain ⟨_, ⟨_, -, _, _, -, rfl⟩, rfl⟩ := ha
    obtain ⟨_, ⟨_, -, _, _, -, rfl⟩, h⟩ := hb
    simp only [PrepInput.source, Sum.inr.injEq, Prod.mk.injEq] at h
    apply hab h.1.symm

theorem priorRef?_eq_some {i : PrepInput} {ref : OutputRef} :
  i.priorRef? = some ref ↔ i.source = .inr ref
  := by
  cases i <;> simp [PrepInput.priorRef?, PrepInput.source]

theorem mem_allInputs {i : PrepInput} :
  i ∈ allInputs layers ↔ ∃ tx ∈ layers.flatten, i ∈ tx.inputs
  := List.mem_flatMap

theorem mem_spentOutputs {ref : OutputRef} :
  ref ∈ spentOutputs layers ↔ .inr ref ∈ (allInputs layers).map PrepInput.source
  := by
  simp only [spentOutputs, List.mem_flatMap, List.mem_filterMap, priorRef?_eq_some, List.mem_map,
    mem_allInputs]
  constructor
  · rintro ⟨tx, htx, i, hi, hs⟩
    exact ⟨i, ⟨tx, htx, hi⟩, hs⟩
  · rintro ⟨i, ⟨tx, htx, hi⟩, hs⟩
    exact ⟨tx, htx, i, hi, hs⟩

theorem mem_unconsumedFeeders {i : PrepInput} :
  i ∈ unconsumedFeeders layers
    ↔ i ∈ allFeeders layers ∧ i.source ∉ (allInputs layers).map PrepInput.source
  := by
  rw [unconsumedFeeders, List.mem_filter]
  apply and_congr_right
  intro hi
  obtain ⟨l, t, o, value, -, rfl⟩ := mem_allFeeders.mp hi
  simp [PrepInput.priorRef?, mem_spentOutputs, PrepInput.source]

end Vizor.Planner
