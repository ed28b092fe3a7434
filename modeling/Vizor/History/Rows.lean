import Mathlib.Algebra.Order.Ring.Nat
import Mathlib.Algebra.BigOperators.Group.List.Basic

/-!
# Rows of the transaction history

A transaction of an account is shown as rows: one for what was sent, one for what was received,
or one for a shielding or a migration.  The outputs of the transaction are summed up for that
under each heading, and the row takes its amount from the sum, or from the balance of the account
when no output counts.  The details of a row list outputs, which a separate predicate selects.
-/

namespace Vizor

namespace History

/-! ### Transactions and outputs -/

def u64Max : Nat := 18446744073709551615

def saturatingAdd (a b : Nat) : Nat :=
  min (a + b) u64Max

def ironwoodNoteVersion : Int := 3

def transparentPool : Int := 0

def saplingPool : Int := 2

def orchardPool : Int := 3

def ironwoodPool : Int := 4

/-- A transaction of an account. -/
structure TxBase (Txid : Type) where
  txid : Txid
  transactionId : Int
  minedHeight : Option Nat
  expiredUnmined : Bool
  accountBalanceDelta : Int
  fee : Nat
  blockTime : Nat
  totalSpent : Nat
  totalReceived : Nat
  isShielding : Bool
  expiryHeight : Option Int
  txIndex : Int
  created : Option String
  createdTime : Nat
  spentOrchardNote : Bool
  deriving DecidableEq, Repr

/-- An output of a transaction. -/
structure TxOutput where
  outputPool : Int
  outputIndex : Int
  fromAccountUuid : Option Nat
  toAccountUuid : Option Nat
  toAddress : Option String
  sentToAddress : Option String
  transparentReceiverAddress : Option String
  toKeyScope : Option Int
  value : Nat
  memo : Option (List UInt8)
  noteVersion : Option Int
  deriving DecidableEq, Repr

inductive TxKind where
  | shielded
  | migration
  | sent
  | received
  | receiving
  | unknown
  deriving DecidableEq, Repr

inductive DisplayPool where
  | transparent
  | shielded
  | ironwood
  | mixed
  | unknown
  deriving DecidableEq, Repr

/-- A row of the list. -/
structure TransactionInfo (Txid : Type) where
  txidHex : Txid
  minedHeight : Nat
  expiredUnmined : Bool
  accountBalanceDelta : Int
  fee : Nat
  blockTime : Nat
  isTransparent : Bool
  txKind : TxKind
  displayAmount : Nat
  displayPool : DisplayPool
  createdTime : Nat
  deriving DecidableEq, Repr

/-- A row with what it is sorted by. -/
structure ClassifiedTx (Txid : Type) where
  info : TransactionInfo Txid
  sortPendingRank : Nat
  sortTimestamp : Nat
  sortMinedHeight : Nat
  txIndex : Int
  rowOrder : Nat
  deriving DecidableEq, Repr

/-! ### Predicates on outputs -/

def isShieldedPool (outputPool : Int) : Bool :=
  outputPool = saplingPool || outputPool = orchardPool || outputPool = ironwoodPool

namespace TxOutput

variable (output : TxOutput)

def isIronwoodOutput : Bool :=
  output.outputPool = ironwoodPool || output.noteVersion = some ironwoodNoteVersion

/-- An output to the own account that is not change. -/
def isUserVisibleSelfOutput : Bool :=
  let hasExternalOrForeignScope := output.toKeyScope = some 0 || output.toKeyScope = some (-1)
  if output.outputPool = transparentPool then hasExternalOrForeignScope
  else if isShieldedPool output.outputPool then
    hasExternalOrForeignScope || output.sentToAddress.isSome
  else false

def fromOwn (accountUuid : Nat) : Bool :=
  output.fromAccountUuid = some accountUuid

def toOwn (accountUuid : Nat) : Bool :=
  output.toAccountUuid = some accountUuid

end TxOutput

/-! ### Sums -/

structure ActivityAmounts where
  amount : Nat := 0
  hasTransparent : Bool := false
  hasShielded : Bool := false
  hasIronwood : Bool := false
  deriving DecidableEq, Repr

namespace ActivityAmounts

def addOutput (amounts : ActivityAmounts) (output : TxOutput) : ActivityAmounts :=
  let added := { amounts with amount := saturatingAdd amounts.amount output.value }
  if output.outputPool = transparentPool then { added with hasTransparent := true }
  else if output.outputPool = saplingPool ∨ output.outputPool = orchardPool then
    { added with hasShielded := true }
  else if output.outputPool = ironwoodPool then { added with hasIronwood := true }
  else added

def displayPool (amounts : ActivityAmounts) : DisplayPool :=
  match amounts.hasTransparent, amounts.hasShielded, amounts.hasIronwood with
  | true, false, false => .transparent
  | false, true, false => .shielded
  | false, false, true => .ironwood
  | false, false, false => .unknown
  | _, _, _ => .mixed

/-- The sum over some outputs. -/
def ofOutputs (outputs : List TxOutput) : ActivityAmounts :=
  outputs.foldl addOutput {}

end ActivityAmounts

structure ActivitySummary where
  sent : ActivityAmounts := {}
  received : ActivityAmounts := {}
  shielded : ActivityAmounts := {}
  internalIronwoodTransition : ActivityAmounts := {}
  ownTransparentOutputAmount : Nat := 0
  hasOwnTransparentOutput : Bool := false
  hasExternalTransparentSend : Bool := false
  deriving DecidableEq, Repr

variable {Txid : Type}

/-- Count one output. -/
def summarizeOutput (base : TxBase Txid) (accountUuid : Nat) (summary : ActivitySummary)
    (output : TxOutput) : ActivitySummary :=
  let fromOwn := output.fromOwn accountUuid
  let toOwn := output.toOwn accountUuid
  if base.isShielding then
    if toOwn && isShieldedPool output.outputPool then
      { summary with shielded := summary.shielded.addOutput output }
    else summary
  else if fromOwn && toOwn && base.spentOrchardNote && output.isIronwoodOutput then
    { summary with
      internalIronwoodTransition := summary.internalIronwoodTransition.addOutput output }
  else
    let summary :=
      if output.outputPool = 0 && fromOwn && toOwn then
        { summary with
          hasOwnTransparentOutput := true
          ownTransparentOutputAmount :=
            saturatingAdd summary.ownTransparentOutputAmount output.value }
      else summary
    let visibleSelfOutput := fromOwn && toOwn && output.isUserVisibleSelfOutput
    let visibleSent := fromOwn && (!toOwn || visibleSelfOutput)
    let visibleReceived := toOwn && (!fromOwn || visibleSelfOutput)
    let summary :=
      if visibleSent then
        { summary with
          sent := summary.sent.addOutput output
          hasExternalTransparentSend := summary.hasExternalTransparentSend
            || output.outputPool = 0 && !toOwn }
      else summary
    if visibleReceived then { summary with received := summary.received.addOutput output }
    else summary

def summarizeActivityOutputs (base : TxBase Txid) (outputs : List TxOutput) (accountUuid : Nat) :
    ActivitySummary :=
  outputs.foldl (summarizeOutput base accountUuid) {}

/-! ### Rows -/

namespace TxBase

variable (base : TxBase Txid)

def expiryKey : Int :=
  base.expiryHeight.getD (-1)

def displayTimestamp : Nat :=
  if 0 < base.blockTime then base.blockTime else base.createdTime

def receivingTxKind : TxKind :=
  if base.minedHeight.isNone && !base.expiredUnmined then .receiving else .received

def buildClassifiedTxWithFee (txKind : TxKind) (displayAmount : Nat) (displayPool : DisplayPool)
    (isTransparent : Bool) (rowOrder fee : Nat) : ClassifiedTx Txid :=
  { info :=
      { txidHex := base.txid
        minedHeight := base.minedHeight.getD 0
        expiredUnmined := base.expiredUnmined
        accountBalanceDelta := base.accountBalanceDelta
        fee := fee
        blockTime := base.blockTime
        isTransparent := isTransparent
        txKind := txKind
        displayAmount := displayAmount
        displayPool := displayPool
        createdTime := base.createdTime }
    sortPendingRank := if base.minedHeight.isNone && !base.expiredUnmined then 1 else 0
    sortTimestamp := base.displayTimestamp
    sortMinedHeight := base.minedHeight.getD 0
    txIndex := base.txIndex
    rowOrder := rowOrder }

def buildClassifiedTx (txKind : TxKind) (displayAmount : Nat) (displayPool : DisplayPool)
    (isTransparent : Bool) (rowOrder : Nat) : ClassifiedTx Txid :=
  base.buildClassifiedTxWithFee txKind displayAmount displayPool isTransparent rowOrder base.fee

def isInternalIronwoodTransition (summary : ActivitySummary) : Bool :=
  !base.isShielding && base.spentOrchardNote && 0 < base.totalSpent
    && 0 < summary.internalIronwoodTransition.amount && summary.sent.amount = 0
    && summary.received.amount = 0

/-- The rows with an amount from outputs. -/
def outputRows (summary : ActivitySummary) (extraSentFee : Nat) : List (ClassifiedTx Txid) :=
  (if 0 < summary.sent.amount then
    [base.buildClassifiedTxWithFee .sent summary.sent.amount summary.sent.displayPool
      summary.sent.hasTransparent 1 (saturatingAdd base.fee extraSentFee)]
  else [])
    ++ (if 0 < summary.received.amount then
      [base.buildClassifiedTx base.receivingTxKind summary.received.amount
        summary.received.displayPool summary.received.hasTransparent 2]
    else [])

/-- The rows when no output was counted. -/
def balanceRows : List (ClassifiedTx Txid) :=
  let sentAmount := base.accountBalanceDelta.natAbs - base.fee
  if base.minedHeight.isNone ∧ base.accountBalanceDelta < 0 ∧ 0 < base.totalSpent
      ∧ 0 < sentAmount then
    [base.buildClassifiedTx .sent sentAmount .unknown false 1]
  else if 0 < base.totalSpent ∧ 0 < base.totalReceived then []
  else if 0 < base.accountBalanceDelta then
    [base.buildClassifiedTx base.receivingTxKind base.accountBalanceDelta.toNat .unknown false 2]
  else [base.buildClassifiedTx .unknown 0 .unknown false 3]

def classifyHistoryTx (summary : ActivitySummary) (extraSentFee : Nat) :
    List (ClassifiedTx Txid) :=
  if base.isShielding then
    let amount := if 0 < summary.shielded.amount then summary.shielded.amount
      else base.totalReceived
    [base.buildClassifiedTx .shielded amount .shielded false 0]
  else if base.isInternalIronwoodTransition summary then
    [base.buildClassifiedTx .migration summary.internalIronwoodTransition.amount .ironwood false 1]
  else
    let rows := base.outputRows summary extraSentFee
    if rows = [] then base.balanceRows else rows

variable {base}

theorem outputRows_eq_nil {summary : ActivitySummary} {extraSentFee : Nat} :
  base.outputRows summary extraSentFee = []
    ↔ summary.sent.amount = 0 ∧ summary.received.amount = 0
  := by
  simp [outputRows]

/-- The rows of a transaction that pays or is paid have their amounts from outputs. -/
theorem classifyHistoryTx_eq_outputRows {summary : ActivitySummary} {extraSentFee : Nat}
    (hs : base.isShielding = false)
    (h : 0 < summary.sent.amount ∨ 0 < summary.received.amount) :
  base.classifyHistoryTx summary extraSentFee = base.outputRows summary extraSentFee
  := by
  have ht : base.isInternalIronwoodTransition summary = false := by
    simp only [isInternalIronwoodTransition, Bool.and_eq_false_iff, decide_eq_false_iff_not]
    omega
  have hrows : base.outputRows summary extraSentFee ≠ [] := by
    rw [ne_eq, outputRows_eq_nil]
    omega
  simp [classifyHistoryTx, hs, ht, hrows]

end TxBase

/-! ### Sums of amounts -/

theorem saturatingAdd_le (a b : Nat) :
  saturatingAdd a b ≤ u64Max
  := Nat.min_le_right _ _

theorem foldl_saturatingAdd (values : List Nat) (start : Nat) (h : start ≤ u64Max) :
  values.foldl saturatingAdd start = min (start + values.sum) u64Max
  := by
  induction values generalizing start with
  | nil => simp [h]
  | cons value values ih =>
    rw [List.foldl_cons, ih _ (saturatingAdd_le start value), List.sum_cons, saturatingAdd]
    omega

theorem foldl_saturatingAdd_perm {values values' : List Nat} (h : values.Perm values') :
  values.foldl saturatingAdd 0 = values'.foldl saturatingAdd 0
  := by
  rw [foldl_saturatingAdd _ _ (Nat.zero_le _), foldl_saturatingAdd _ _ (Nat.zero_le _), h.sum_eq]

/-- A saturating sum is positive when a summand is. -/
theorem foldl_saturatingAdd_pos_iff (values : List Nat) :
  0 < values.foldl saturatingAdd 0 ↔ ∃ value ∈ values, 0 < value
  := by
  rw [← List.sum_pos_iff_exists_pos_nat, foldl_saturatingAdd _ _ (Nat.zero_le _), Nat.zero_add]
  simp only [u64Max]
  omega

namespace ActivityAmounts

@[simp]
theorem addOutput_amount (amounts : ActivityAmounts) (output : TxOutput) :
  (amounts.addOutput output).amount = saturatingAdd amounts.amount output.value
  := by
  simp only [addOutput]
  split_ifs <;> rfl

theorem foldl_addOutput_amount (outputs : List TxOutput) (amounts : ActivityAmounts) :
  (outputs.foldl addOutput amounts).amount
    = (outputs.map TxOutput.value).foldl saturatingAdd amounts.amount
  := by
  induction outputs generalizing amounts with
  | nil => rfl
  | cons output outputs ih => simp [ih]

theorem ofOutputs_amount (outputs : List TxOutput) :
  (ofOutputs outputs).amount = (outputs.map TxOutput.value).foldl saturatingAdd 0
  := foldl_addOutput_amount outputs {}

theorem ofOutputs_amount_pos_iff (outputs : List TxOutput) :
  0 < (ofOutputs outputs).amount ↔ ∃ output ∈ outputs, 0 < output.value
  := by
  rw [ofOutputs_amount, foldl_saturatingAdd_pos_iff]
  simp

end ActivityAmounts

/-! ### What is counted -/

/-- The amounts from which rows of some kind are made. -/
def ActivitySummary.ofKind (summary : ActivitySummary) : TxKind → ActivityAmounts
  | .shielded => summary.shielded
  | .migration => summary.internalIronwoodTransition
  | .sent => summary.sent
  | .received => summary.received
  | .receiving => summary.received
  | .unknown => {}

namespace TxBase

variable (base : TxBase Txid) (accountUuid : Nat)

/-- Whether the transaction moves value of the account between its own pools by the output. -/
def isTransition (output : TxOutput) : Bool :=
  output.fromOwn accountUuid && output.toOwn accountUuid && base.spentOrchardNote
    && output.isIronwoodOutput

/-- Whether an output is counted for the rows of some kind. -/
def counts : TxKind → TxOutput → Bool
  | .shielded, output =>
    base.isShielding && output.toOwn accountUuid && isShieldedPool output.outputPool
  | .migration, output => !base.isShielding && base.isTransition accountUuid output
  | .sent, output =>
    !base.isShielding && !base.isTransition accountUuid output && output.fromOwn accountUuid
      && (!output.toOwn accountUuid || output.isUserVisibleSelfOutput)
  | .received, output | .receiving, output =>
    !base.isShielding && !base.isTransition accountUuid output && output.toOwn accountUuid
      && (!output.fromOwn accountUuid || output.isUserVisibleSelfOutput)
  | .unknown, _ => false

theorem summarizeOutput_ofKind (kind : TxKind) (summary : ActivitySummary) (output : TxOutput) :
  (summarizeOutput base accountUuid summary output).ofKind kind
    = if base.counts accountUuid kind output then (summary.ofKind kind).addOutput output
      else summary.ofKind kind
  := by
  cases hs : base.isShielding <;> cases hf : output.fromOwn accountUuid <;>
    cases ht : output.toOwn accountUuid <;> cases kind <;>
    simp only [summarizeOutput, counts, isTransition, ActivitySummary.ofKind, hs, hf, ht] <;>
    grind

theorem foldl_summarizeOutput_ofKind (kind : TxKind) (outputs : List TxOutput)
    (summary : ActivitySummary) :
  (outputs.foldl (summarizeOutput base accountUuid) summary).ofKind kind
    = (outputs.filter (base.counts accountUuid kind)).foldl ActivityAmounts.addOutput
        (summary.ofKind kind)
  := by
  induction outputs generalizing summary with
  | nil => rfl
  | cons output outputs ih =>
    rw [List.foldl_cons, ih, summarizeOutput_ofKind, List.filter_cons]
    split_ifs with h
    · rfl
    · rfl

/-- The amounts of a kind are the sum over the outputs that are counted for it. -/
theorem summarizeActivityOutputs_ofKind (kind : TxKind) (outputs : List TxOutput) :
  (summarizeActivityOutputs base outputs accountUuid).ofKind kind
    = ActivityAmounts.ofOutputs (outputs.filter (base.counts accountUuid kind))
  := by
  rw [summarizeActivityOutputs, foldl_summarizeOutput_ofKind, ActivityAmounts.ofOutputs]
  cases kind <;> rfl

/-- A kind has an amount when an output of positive value is counted for it. -/
theorem amount_pos_iff (kind : TxKind) (outputs : List TxOutput) :
  0 < ((summarizeActivityOutputs base outputs accountUuid).ofKind kind).amount
    ↔ ∃ output ∈ outputs, base.counts accountUuid kind output ∧ 0 < output.value
  := by
  rw [summarizeActivityOutputs_ofKind, ActivityAmounts.ofOutputs_amount_pos_iff]
  simp [and_assoc]

end TxBase

end History

end Vizor
