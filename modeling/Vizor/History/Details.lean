import Vizor.History.Rows

/-!
# Details of a row

The details of a row of the history list the outputs of the transaction that belong to the row.
They are selected by a predicate of their own, which does not know of the outputs that move value
between the pools of the account when the transaction also pays or is paid.
-/

namespace Vizor

namespace History

/-! ### Details -/

namespace TxOutput

variable (output : TxOutput)

/-- The address that the details show for an output. -/
def detailAddress (txKind : TxKind) : Option String :=
  match txKind with
  | .migration => none
  | .sent =>
    if output.outputPool = 0 then
      output.transparentReceiverAddress.or (output.sentToAddress.or output.toAddress)
    else output.sentToAddress.or output.toAddress
  | _ =>
    if output.outputPool = 0 then output.transparentReceiverAddress.or output.toAddress
    else output.toAddress

end TxOutput

def outputPoolLabel (outputPool : Int) : DisplayPool :=
  if outputPool = transparentPool then .transparent
  else if outputPool = saplingPool ∨ outputPool = orchardPool then .shielded
  else if outputPool = ironwoodPool then .ironwood
  else .unknown

structure TransactionDetailOutput where
  address : Option String
  amountZatoshi : Nat
  pool : DisplayPool
  deriving DecidableEq, Repr

structure TransactionDetail (Txid : Type) where
  txidHex : Txid
  txKind : TxKind
  primaryAddress : Option String
  sourceAddress : Option String
  sourcePool : Option DisplayPool
  memo : Option String
  outputs : List TransactionDetailOutput
  deriving DecidableEq, Repr

/-- What the details read besides the outputs: the text of a memo, and where the raw transaction
comes from. -/
structure Decoders where
  decodeTextMemo : Option (List UInt8) → Option String
  receivedSource : Option String × DisplayPool

variable {Txid : Type}

namespace TxBase

variable (base : TxBase Txid) (accountUuid : Nat)

def detailIncludesOutput (txKind : TxKind) (output : TxOutput) : Bool :=
  let fromOwn := output.fromOwn accountUuid
  let toOwn := output.toOwn accountUuid
  match txKind with
  | .shielded => base.isShielding && toOwn && isShieldedPool output.outputPool
  | .sent => !base.isShielding && fromOwn && (!toOwn || output.isUserVisibleSelfOutput)
  | .received | .receiving =>
    !base.isShielding && toOwn && (!fromOwn || output.isUserVisibleSelfOutput)
  | .migration =>
    !base.isShielding && fromOwn && toOwn && base.spentOrchardNote && output.isIronwoodOutput
  | .unknown => false

/-- By the index of the output, then by its pool. -/
def detailOrder (a b : TxOutput) : Bool :=
  a.outputIndex < b.outputIndex || a.outputIndex = b.outputIndex && a.outputPool ≤ b.outputPool

def visibleOutputs (outputs : List TxOutput) (txKind : TxKind) : List TxOutput :=
  (outputs.mergeSort detailOrder).filter (base.detailIncludesOutput accountUuid txKind)

def getTransactionDetail (decoders : Decoders) (outputs : List TxOutput) (txKind : TxKind) :
    TransactionDetail Txid :=
  let visibleOutputs := base.visibleOutputs accountUuid outputs txKind
  let source :=
    if (txKind = .received ∨ txKind = .receiving) ∧ visibleOutputs ≠ [] then
      some decoders.receivedSource
    else none
  { txidHex := base.txid
    txKind := txKind
    primaryAddress :=
      if txKind = .sent then visibleOutputs.findSome? fun output => output.detailAddress txKind
      else none
    sourceAddress := source.bind Prod.fst
    sourcePool := source.map Prod.snd
    memo := visibleOutputs.findSome? fun output => decoders.decodeTextMemo output.memo
    outputs := visibleOutputs.map fun output =>
      { address := output.detailAddress txKind
        amountZatoshi := output.value
        pool := outputPoolLabel output.outputPool } }

/-! ### Rows and details -/

/-- Every row with an amount from outputs has just the counted outputs in its details, which sum
up to the amount. -/
def DetailsAgree (outputs : List TxOutput) : Prop :=
  ∀ (extraSentFee : Nat) (decoders : Decoders),
    let summary := summarizeActivityOutputs base outputs accountUuid
    ∀ row ∈ base.classifyHistoryTx summary extraSentFee,
      0 < (summary.ofKind row.info.txKind).amount →
      outputs.filter (base.detailIncludesOutput accountUuid row.info.txKind)
          = outputs.filter (base.counts accountUuid row.info.txKind)
        ∧ ((base.getTransactionDetail accountUuid decoders outputs row.info.txKind).outputs.map
            TransactionDetailOutput.amountZatoshi).foldl saturatingAdd 0
          = row.info.displayAmount

/-- An output between the pools of the account that the details take for a payment. -/
def isVisibleTransition (output : TxOutput) : Bool :=
  !base.isShielding && base.isTransition accountUuid output && output.isUserVisibleSelfOutput

/-- An output of positive value that pays someone else, comes from someone else, or goes to a
receiver of the own account that is not change, and moves nothing between pools. -/
def isPayment (output : TxOutput) : Bool :=
  0 < output.value && !base.isShielding && !base.isTransition accountUuid output
    && (output.fromOwn accountUuid && (!output.toOwn accountUuid || output.isUserVisibleSelfOutput)
      || output.toOwn accountUuid && !output.fromOwn accountUuid)

variable {base accountUuid}

/-- A row with an amount from outputs shows the amount of its kind. -/
theorem mem_outputRows {summary : ActivitySummary} {extraSentFee : Nat} {row : ClassifiedTx Txid}
    (hrow : row ∈ base.outputRows summary extraSentFee) :
  row.info.displayAmount = (summary.ofKind row.info.txKind).amount
  := by
  simp only [outputRows, List.mem_append, List.mem_ite_nil_right, List.mem_singleton] at hrow
  rcases hrow with ⟨-, rfl⟩ | ⟨-, rfl⟩
  · rfl
  · simp only [buildClassifiedTx, buildClassifiedTxWithFee, receivingTxKind]
    split_ifs <;> rfl

/-- The rows from the balance are neither of shielded nor of migrated funds. -/
theorem mem_balanceRows {row : ClassifiedTx Txid} (hrow : row ∈ base.balanceRows) :
  row.info.txKind = .sent ∨ row.info.txKind = .received ∨ row.info.txKind = .receiving
    ∨ row.info.txKind = .unknown
  := by
  unfold balanceRows at hrow
  simp only at hrow
  split_ifs at hrow with h h' h''
  · rw [List.mem_singleton] at hrow
    exact Or.inl (hrow ▸ rfl)
  · cases hrow
  · rw [List.mem_singleton] at hrow
    subst hrow
    simp only [buildClassifiedTx, buildClassifiedTxWithFee, receivingTxKind]
    split_ifs <;> simp
  · rw [List.mem_singleton] at hrow
    exact Or.inr (Or.inr (Or.inr (hrow ▸ rfl)))

/-- The row of a kind that has an amount from outputs shows that amount. -/
theorem displayAmount_eq {summary : ActivitySummary} {extraSentFee : Nat}
    {row : ClassifiedTx Txid} (hrow : row ∈ base.classifyHistoryTx summary extraSentFee)
    (hamount : 0 < (summary.ofKind row.info.txKind).amount) :
  row.info.displayAmount = (summary.ofKind row.info.txKind).amount
  := by
  unfold classifyHistoryTx at hrow
  simp only at hrow
  split_ifs at hrow with hs hp ht hr
  · rw [List.mem_singleton] at hrow
    subst hrow
    rfl
  · rw [List.mem_singleton] at hrow
    subst hrow
    exact absurd hamount hp
  · rw [List.mem_singleton] at hrow
    subst hrow
    rfl
  · obtain ⟨hsent, hreceived⟩ := outputRows_eq_nil.mp hr
    rcases mem_balanceRows hrow with hk | hk | hk | hk <;>
      simp [hk, ActivitySummary.ofKind, hsent, hreceived] at hamount
  · apply mem_outputRows hrow

/-! ### When they agree -/

/-- The details have the counted outputs, unless they take one between pools for a payment. -/
theorem detailIncludesOutput_eq_counts (txKind : TxKind) (output : TxOutput) :
  base.detailIncludesOutput accountUuid txKind output = base.counts accountUuid txKind output
    ↔ ¬ (txKind = .sent ∨ txKind = .received ∨ txKind = .receiving)
      ∨ base.isVisibleTransition accountUuid output = false
  := by
  cases hs : base.isShielding <;> cases hf : output.fromOwn accountUuid <;>
    cases ht : output.toOwn accountUuid <;> cases hv : output.isUserVisibleSelfOutput <;>
    cases txKind <;>
    simp [detailIncludesOutput, counts, isVisibleTransition, isTransition, hs, hf, ht, hv,
      imp_iff_not_or]

theorem filter_eq_filter_iff {α : Type} {p q : α → Bool} (values : List α) :
  values.filter p = values.filter q ↔ ∀ value ∈ values, p value = q value
  := by
  constructor
  · intro h value hvalue
    have hmem : value ∈ values.filter p ↔ value ∈ values.filter q := by rw [h]
    rw [List.mem_filter, List.mem_filter] at hmem
    rw [Bool.eq_iff_iff]
    exact ⟨fun hp => (hmem.mp ⟨hvalue, hp⟩).2, fun hq => (hmem.mpr ⟨hvalue, hq⟩).2⟩
  · apply List.filter_congr

theorem filter_detail_eq_iff (txKind : TxKind) (outputs : List TxOutput) :
  outputs.filter (base.detailIncludesOutput accountUuid txKind)
      = outputs.filter (base.counts accountUuid txKind)
    ↔ ¬ (txKind = .sent ∨ txKind = .received ∨ txKind = .receiving)
      ∨ ∀ output ∈ outputs, base.isVisibleTransition accountUuid output = false
  := by
  simp only [filter_eq_filter_iff, detailIncludesOutput_eq_counts]
  exact ⟨fun h => or_iff_not_imp_left.mpr fun hk output ho => (h output ho).resolve_left hk,
    fun h output ho => h.imp_right fun h => h output ho⟩

/-- The amounts in the details sum up over the outputs in any order. -/
theorem sum_details (decoders : Decoders) (outputs : List TxOutput) (txKind : TxKind) :
  ((base.getTransactionDetail accountUuid decoders outputs txKind).outputs.map
      TransactionDetailOutput.amountZatoshi).foldl saturatingAdd 0
    = ((outputs.filter (base.detailIncludesOutput accountUuid txKind)).map
        TxOutput.value).foldl saturatingAdd 0
  := by
  apply foldl_saturatingAdd_perm
  simp only [getTransactionDetail, visibleOutputs, List.map_map]
  apply List.Perm.map
  apply List.Perm.filter
  apply List.mergeSort_perm

theorem isPayment_eq (output : TxOutput) :
  base.isPayment accountUuid output
    = ((base.counts accountUuid .sent output || base.counts accountUuid .received output)
        && 0 < output.value)
  := by
  cases hs : base.isShielding <;> cases hf : output.fromOwn accountUuid <;>
    cases ht : output.toOwn accountUuid <;> cases hv : output.isUserVisibleSelfOutput <;>
    simp [isPayment, counts, hs, hf, ht, hv, Bool.and_comm]

theorem isPayment_iff (outputs : List TxOutput) :
  (∃ output ∈ outputs, base.isPayment accountUuid output)
    ↔ let summary := summarizeActivityOutputs base outputs accountUuid
      0 < summary.sent.amount ∨ 0 < summary.received.amount
  := by
  have hsent := base.amount_pos_iff accountUuid .sent outputs
  have hreceived := base.amount_pos_iff accountUuid .received outputs
  simp only [ActivitySummary.ofKind] at hsent hreceived
  simp only [hsent, hreceived, isPayment_eq, Bool.and_eq_true, Bool.or_eq_true, decide_eq_true_eq]
  grind

/-- A payment makes a row that is sent or received, if the transaction does not shield. -/
theorem exists_row_of_payment {summary : ActivitySummary} (hs : base.isShielding = false)
    (h : 0 < summary.sent.amount ∨ 0 < summary.received.amount) (extraSentFee : Nat) :
  ∃ row ∈ base.classifyHistoryTx summary extraSentFee,
    (row.info.txKind = .sent ∨ row.info.txKind = .received ∨ row.info.txKind = .receiving)
      ∧ 0 < (summary.ofKind row.info.txKind).amount
  := by
  rw [classifyHistoryTx_eq_outputRows hs h]
  rcases h with h | h
  · use base.buildClassifiedTxWithFee .sent summary.sent.amount summary.sent.displayPool
      summary.sent.hasTransparent 1 (saturatingAdd base.fee extraSentFee)
    exact ⟨by simp [outputRows, h], Or.inl rfl, h⟩
  · use base.buildClassifiedTx base.receivingTxKind summary.received.amount
      summary.received.displayPool summary.received.hasTransparent 2
    refine ⟨by simp [outputRows, h], Or.inr ?_, ?_⟩
    · simp only [buildClassifiedTx, buildClassifiedTxWithFee, receivingTxKind]
      split_ifs <;> simp
    · simp only [buildClassifiedTx, buildClassifiedTxWithFee, receivingTxKind]
      split_ifs <;> exact h

/-- Rows and details agree unless the transaction has both a payment and an output between the
pools of the account that the details take for a payment. -/
theorem detailsAgree_iff (base : TxBase Txid) (accountUuid : Nat) (outputs : List TxOutput) :
  base.DetailsAgree accountUuid outputs
    ↔ ¬ ((∃ output ∈ outputs, base.isVisibleTransition accountUuid output)
        ∧ ∃ output ∈ outputs, base.isPayment accountUuid output)
  := by
  rw [isPayment_iff]
  constructor
  · rintro hagree ⟨⟨output, houtput, hvisible⟩, hpayment⟩
    have hs : base.isShielding = false := by
      simp only [isVisibleTransition, Bool.and_eq_true, Bool.not_eq_true'] at hvisible
      apply hvisible.1.1
    obtain ⟨row, hrow, hkind, hamount⟩ := exists_row_of_payment hs hpayment 0
    have hfilter := (hagree 0 ⟨fun _ => none, none, .unknown⟩ row hrow hamount).1
    rcases (filter_detail_eq_iff _ _).mp hfilter with hnot | hall
    · apply hnot hkind
    · simp [hall output houtput] at hvisible
  · intro h extraSentFee decoders summary row hrow hamount
    have hfilter : outputs.filter (base.detailIncludesOutput accountUuid row.info.txKind)
        = outputs.filter (base.counts accountUuid row.info.txKind) := by
      rw [filter_detail_eq_iff]
      by_contra hcon
      obtain ⟨hkind, hall⟩ := not_or.mp hcon
      rw [not_not] at hkind
      simp only [not_forall, Bool.not_eq_false] at hall
      obtain ⟨output, houtput, hvisible⟩ := hall
      apply h
      refine ⟨⟨output, houtput, hvisible⟩, ?_⟩
      rcases hkind with hk | hk | hk <;> rw [hk] at hamount
      · exact Or.inl hamount
      · exact Or.inr hamount
      · exact Or.inr hamount
    refine ⟨hfilter, ?_⟩
    rw [sum_details, hfilter, displayAmount_eq hrow hamount, summarizeActivityOutputs_ofKind,
      ActivityAmounts.ofOutputs_amount]

/-- A payment of 5 from an Orchard note to someone else, with 7 to an own Ironwood receiver whose
address the wallet recorded: the row shows 5 and the details show 5 and 7. -/
theorem details_of_mixed :
  ¬ (⟨0, 1, none, false, -6, 1, 0, 13, 7, false, none, 0, none, 0, true⟩ : TxBase Nat).DetailsAgree
      9
      [⟨orchardPool, 0, some 9, none, some "friend", some "friend", none, none, 5, none, none⟩,
        ⟨ironwoodPool, 0, some 9, some 9, some "self", some "self", none, some 0, 7, none,
          some ironwoodNoteVersion⟩]
  := by
  intro h
  have hrow := (h 0 ⟨fun _ => none, none, .unknown⟩ _ (List.mem_singleton_self _) (by decide)).1
  revert hrow
  decide

end TxBase

end History

end Vizor
