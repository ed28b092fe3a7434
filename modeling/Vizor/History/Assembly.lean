import Vizor.History.Rows
import Vizor.Lib.InOrderMatching
import Mathlib.Data.List.Dedup
import Mathlib.Data.Prod.Lex
import Mathlib.Order.Lex

/-!
# Assembly of the history

A payment to a transparent address may be made in two transactions: one that funds an ephemeral
receiver of the wallet, and one that sends from there.  The history hides the first and adds its
fee to the row of the second.  The two are matched by their time of creation, expiry and amount,
in the order of their ids.
-/

namespace Vizor

namespace History

/-! ### Matching of funding steps -/

abbrev FundingStepMatchKey : Type := String × Int × Nat

/-- The order in which a hash map gives out its keys. -/
structure HashOrder where
  order : List FundingStepMatchKey → List FundingStepMatchKey
  perm (keys : List FundingStepMatchKey) : (order keys).Perm keys

/-- A transaction with the summary of its outputs. -/
structure Summarized (Txid : Type) where
  base : TxBase Txid
  summary : ActivitySummary

variable {Txid : Type}

namespace Summarized

variable (entry : Summarized Txid)

def externalSendKey : Option FundingStepMatchKey :=
  if !entry.summary.hasExternalTransparentSend || entry.base.totalSpent = 0
      || entry.base.transactionId < 0 then none
  else
    entry.base.created.map fun created => (created, entry.base.expiryKey, entry.base.totalSpent)

def fundingStepKey : Option FundingStepMatchKey :=
  if entry.summary.ownTransparentOutputAmount = 0 || entry.base.transactionId < 0 then none
  else
    entry.base.created.map fun created =>
      (created, entry.base.expiryKey, entry.summary.ownTransparentOutputAmount)

def shouldSuppressFundingStep (externalSendKeys : List FundingStepMatchKey) : Bool :=
  !entry.base.isShielding && 0 < entry.base.totalSpent && 0 < entry.base.totalReceived
    && entry.base.accountBalanceDelta ≤ 0 && entry.base.created.isSome
    && entry.summary.sent.amount = 0 && entry.summary.received.amount = 0
    && entry.summary.hasOwnTransparentOutput
    && entry.fundingStepKey.any fun key => externalSendKeys.contains key

end Summarized

section

variable (entries : List (Summarized Txid))

def buildExternalSendKeys : List FundingStepMatchKey :=
  entries.filterMap Summarized.externalSendKey

/-- The keys of the map of funding steps. -/
def fundingKeys : List FundingStepMatchKey :=
  (entries.filterMap fun entry =>
    if entry.shouldSuppressFundingStep (buildExternalSendKeys entries) then entry.fundingStepKey
    else none).dedup

/-- The funding steps with a key, each with its fee. -/
def fundingSteps (key : FundingStepMatchKey) : List (Int × Nat) :=
  (entries.filter fun entry =>
    entry.shouldSuppressFundingStep (buildExternalSendKeys entries)
      && entry.fundingStepKey = some key).map
    fun entry => (entry.base.transactionId, entry.base.fee)

/-- The external sends with a key. -/
def externalSends (key : FundingStepMatchKey) : List Int :=
  (entries.filter fun entry => entry.externalSendKey = some key).map
    fun entry => entry.base.transactionId

def matchKey (key : FundingStepMatchKey) : List ((Int × Nat) × Int) :=
  InOrderMatching.pair Prod.fst
    ((fundingSteps entries key).mergeSort fun a b => a.1 ≤ b.1)
    ((externalSends entries key).mergeSort fun a b => a ≤ b)

variable (hash : HashOrder)

/-- The funding steps that are matched, each with its fee and its external send. -/
def matchedFundingSteps : List ((Int × Nat) × Int) :=
  (hash.order (fundingKeys entries)).flatMap (matchKey entries)

def suppressedFundingTxids : List Int :=
  (matchedFundingSteps entries hash).map fun matched => matched.1.1

def extraFeeByExternalTxid (transactionId : Int) : Nat :=
  (((matchedFundingSteps entries hash).filter fun matched => matched.2 = transactionId).map
    fun matched => matched.1.2).foldl saturatingAdd 0

/-! ### The list -/

/-- The rows of a transaction, none when it is hidden. -/
def rowsOf (entry : Summarized Txid) : List (ClassifiedTx Txid) :=
  if entry.base.transactionId ∈ suppressedFundingTxids entries hash then []
  else
    let extraSentFee :=
      if entry.summary.hasExternalTransparentSend then
        extraFeeByExternalTxid entries hash entry.base.transactionId
      else 0
    entry.base.classifyHistoryTx entry.summary extraSentFee

def isRetained (row : ClassifiedTx Txid) : Bool :=
  0 < row.info.displayAmount || row.info.txKind = .unknown || row.info.txKind = .shielded

def visibleRows : List (ClassifiedTx Txid) :=
  (entries.flatMap (rowsOf entries hash)).filter isRetained

/-- Pending rows first, then by falling time, height, place in the block and id; the rows of one
transaction are in the order of their kinds. -/
def sortKey [LinearOrder Txid] (row : ClassifiedTx Txid) :
    Natᵒᵈ ×ₗ Natᵒᵈ ×ₗ Natᵒᵈ ×ₗ Intᵒᵈ ×ₗ Txidᵒᵈ ×ₗ Nat :=
  toLex (.toDual row.sortPendingRank, toLex (.toDual row.sortTimestamp,
    toLex (.toDual row.sortMinedHeight, toLex (.toDual row.txIndex,
      toLex (.toDual row.info.txidHex, row.rowOrder)))))

end

section

variable [LinearOrder Txid] (outputsByTxid : Txid → Option (List TxOutput)) (accountUuid : Nat)

def outputsOf (txid : Txid) : List TxOutput :=
  (outputsByTxid txid).getD []

def summaries (bases : List (TxBase Txid)) : List (Txid × ActivitySummary) :=
  bases.map fun base =>
    (base.txid, summarizeActivityOutputs base (outputsOf outputsByTxid base.txid) accountUuid)

/-- The transactions with the summaries that are found under their ids; of several under one id
the last one is kept. -/
def summarized (bases : List (TxBase Txid)) : List (Summarized Txid) :=
  bases.map fun base =>
    ⟨base, ((summaries outputsByTxid accountUuid bases).reverse.lookup base.txid).getD {}⟩

def assembleHistory (hash : HashOrder) (bases : List (TxBase Txid)) (limit : Option Nat) :
    List (TransactionInfo Txid) :=
  let visible := (visibleRows (summarized outputsByTxid accountUuid bases) hash).mergeSort
    fun a b => sortKey a ≤ sortKey b
  let visible := match limit with
    | none => visible
    | some limit => visible.take limit
  visible.map ClassifiedTx.info

end

/-! ### The property -/

/-- The row of what a transaction sent. -/
def isSentRowOf (txid : Txid) [DecidableEq Txid] (row : TransactionInfo Txid) : Bool :=
  row.txidHex = txid && row.txKind = .sent

section

variable [LinearOrder Txid] (outputsByTxid : Txid → Option (List TxOutput)) (accountUuid : Nat)
  (bases : List (TxBase Txid))

/-- The transaction with its own summary. -/
def ownSummary (base : TxBase Txid) : Summarized Txid :=
  ⟨base, summarizeActivityOutputs base (outputsOf outputsByTxid base.txid) accountUuid⟩

/-- The pairs of a hidden funding step and the external send it was matched to. -/
def Matched (hash : HashOrder) (funding external : TxBase Txid) : Prop :=
  funding ∈ bases ∧ external ∈ bases
    ∧ ((funding.transactionId, funding.fee), external.transactionId)
        ∈ matchedFundingSteps (summarized outputsByTxid accountUuid bases) hash

/-- What the list promises about the transactions that it hides: they sent nothing, and their
fees are shown with the sends that they fund. -/
structure HistoryAssembled : Prop where
  hidden (hash : HashOrder) {funding : TxBase Txid} (hfunding : funding ∈ bases)
    (h : funding.transactionId
      ∈ suppressedFundingTxids (summarized outputsByTxid accountUuid bases) hash) :
    (ownSummary outputsByTxid accountUuid funding).summary.sent.amount = 0
      ∧ ∃ external, Matched outputsByTxid accountUuid bases hash funding external
  later {hash : HashOrder} {funding external : TxBase Txid}
    (h : Matched outputsByTxid accountUuid bases hash funding external) :
    funding.transactionId < external.transactionId
      ∧ (ownSummary outputsByTxid accountUuid external).summary.hasExternalTransparentSend
      ∧ funding.created.isSome ∧ funding.created = external.created
      ∧ funding.expiryKey = external.expiryKey
      ∧ (ownSummary outputsByTxid accountUuid funding).summary.ownTransparentOutputAmount
          = external.totalSpent
  absorbsOne {hash : HashOrder} {funding funding' external external' : TxBase Txid}
    (h : Matched outputsByTxid accountUuid bases hash funding external)
    (h' : Matched outputsByTxid accountUuid bases hash funding' external') :
    funding = funding' ↔ external = external'
  feeShown {hash : HashOrder} {funding external : TxBase Txid}
    (h : Matched outputsByTxid accountUuid bases hash funding external) :
    ∃ row,
      (assembleHistory outputsByTxid accountUuid hash bases none).filter
          (isSentRowOf external.txid) = [row]
        ∧ row.fee = saturatingAdd external.fee funding.fee
        ∧ row.displayAmount = (ownSummary outputsByTxid accountUuid external).summary.sent.amount
  anyOrder (hash hash' : HashOrder) {bases' : List (TxBase Txid)} (h : bases'.Perm bases)
    (limit : Option Nat) :
    assembleHistory outputsByTxid accountUuid hash' bases' limit
      = assembleHistory outputsByTxid accountUuid hash bases limit
  limited (hash : HashOrder) (limit : Nat) :
    assembleHistory outputsByTxid accountUuid hash bases (some limit)
      = (assembleHistory outputsByTxid accountUuid hash bases none).take limit

/-- An external send of nothing, for which a funding step waits. -/
def LosesFee : Prop :=
  ∃ external ∈ bases, ∃ key,
    (ownSummary outputsByTxid accountUuid external).externalSendKey = some key
      ∧ (∀ output ∈ outputsOf outputsByTxid external.txid,
          external.counts accountUuid .sent output → output.value = 0)
      ∧ InOrderMatching.Waiting Prod.fst
          (fundingSteps (bases.map (ownSummary outputsByTxid accountUuid)) key)
          (externalSends (bases.map (ownSummary outputsByTxid accountUuid)) key)
          external.transactionId

end

/-! ### Any order -/

section

variable {α β : Type} [LinearOrder β]

theorem pairwise_mergeSort_le (f : α → β) (values : List α) :
  (values.mergeSort fun a b => f a ≤ f b).Pairwise fun a b => f a ≤ f b
  := by
  have h : (values.mergeSort fun a b => f a ≤ f b).Pairwise fun a b => decide (f a ≤ f b) := by
    apply List.pairwise_mergeSort
    · intro a b c hab hbc
      rw [decide_eq_true_eq] at *
      apply hab.trans hbc
    · intro a b
      simpa using le_total (f a) (f b)
  apply h.imp of_decide_eq_true

/-- The sorted list does not depend on the order before, when the key tells the values apart. -/
theorem mergeSort_le_congr {f : α → β} {values values' : List α} (h : values.Perm values')
    (hinj : ∀ a ∈ values, ∀ b ∈ values, f a = f b → a = b) :
  (values.mergeSort fun a b => f a ≤ f b) = values'.mergeSort fun a b => f a ≤ f b
  := by
  apply List.Perm.eq_of_pairwise _ (pairwise_mergeSort_le f values)
    (pairwise_mergeSort_le f values')
  · apply (List.mergeSort_perm _ _).trans (h.trans (List.mergeSort_perm _ _).symm)
  · intro a b ha hb hab hba
    rw [List.mem_mergeSort] at ha hb
    apply hinj a ha b (h.mem_iff.mpr hb) (le_antisymm hab hba)

end

section

variable {entries entries' : List (Summarized Txid)}

theorem mem_buildExternalSendKeys_congr (h : entries.Perm entries') (entry : Summarized Txid) :
  entry.shouldSuppressFundingStep (buildExternalSendKeys entries)
    = entry.shouldSuppressFundingStep (buildExternalSendKeys entries')
  := by
  have hkeys : (buildExternalSendKeys entries).Perm (buildExternalSendKeys entries') :=
    h.filterMap _
  simp only [Summarized.shouldSuppressFundingStep, List.contains_eq_mem, hkeys.mem_iff]

theorem fundingKeys_perm (h : entries.Perm entries') :
  (fundingKeys entries).Perm (fundingKeys entries')
  := by
  unfold fundingKeys
  simp only [mem_buildExternalSendKeys_congr h]
  apply (h.filterMap _).dedup

theorem fundingSteps_perm (h : entries.Perm entries') (key : FundingStepMatchKey) :
  (fundingSteps entries key).Perm (fundingSteps entries' key)
  := by
  unfold fundingSteps
  simp only [mem_buildExternalSendKeys_congr h]
  apply (h.filter _).map _

theorem externalSends_perm (h : entries.Perm entries') (key : FundingStepMatchKey) :
  (externalSends entries key).Perm (externalSends entries' key)
  := (h.filter _).map _

/-- The ids of the transactions are distinct. -/
def DistinctIds (entries : List (Summarized Txid)) : Prop :=
  (entries.map fun entry => entry.base.transactionId).Nodup

theorem DistinctIds.eq_of_id (hids : DistinctIds entries) {entry entry' : Summarized Txid}
    (h : entry ∈ entries) (h' : entry' ∈ entries)
    (heq : entry.base.transactionId = entry'.base.transactionId) :
  entry = entry'
  := List.inj_on_of_nodup_map hids h h' heq

theorem mem_fundingSteps {key : FundingStepMatchKey} {step : Int × Nat} :
  step ∈ fundingSteps entries key
    ↔ ∃ entry ∈ entries,
        entry.shouldSuppressFundingStep (buildExternalSendKeys entries)
          ∧ entry.fundingStepKey = some key
          ∧ (entry.base.transactionId, entry.base.fee) = step
  := by
  simp [fundingSteps, and_assoc]

theorem mem_externalSends {key : FundingStepMatchKey} {transactionId : Int} :
  transactionId ∈ externalSends entries key
    ↔ ∃ entry ∈ entries,
        entry.externalSendKey = some key ∧ entry.base.transactionId = transactionId
  := by
  simp [externalSends, and_assoc]

theorem fundingSteps_eq_of_fst (hids : DistinctIds entries) {key key' : FundingStepMatchKey}
    {step step' : Int × Nat} (h : step ∈ fundingSteps entries key)
    (h' : step' ∈ fundingSteps entries key') (heq : step.1 = step'.1) :
  step = step' ∧ key = key'
  := by
  obtain ⟨entry, hentry, -, hkey, rfl⟩ := mem_fundingSteps.mp h
  obtain ⟨entry', hentry', -, hkey', rfl⟩ := mem_fundingSteps.mp h'
  obtain rfl := hids.eq_of_id hentry hentry' heq
  rw [hkey] at hkey'
  exact ⟨rfl, Option.some.inj hkey'⟩

theorem externalSends_eq (hids : DistinctIds entries) {key key' : FundingStepMatchKey}
    {transactionId : Int} (h : transactionId ∈ externalSends entries key)
    (h' : transactionId ∈ externalSends entries key') :
  key = key'
  := by
  obtain ⟨entry, hentry, hkey, rfl⟩ := mem_externalSends.mp h
  obtain ⟨entry', hentry', hkey', heq⟩ := mem_externalSends.mp h'
  obtain rfl := hids.eq_of_id hentry' hentry heq
  rw [hkey] at hkey'
  apply Option.some.inj hkey'

theorem nodup_externalSends (hids : DistinctIds entries) (key : FundingStepMatchKey) :
  (externalSends entries key).Nodup
  := hids.sublist (List.filter_sublist.map _)

theorem nodup_fundingSteps (hids : DistinctIds entries) (key : FundingStepMatchKey) :
  ((fundingSteps entries key).map Prod.fst).Nodup
  := by
  unfold fundingSteps
  rw [List.map_map]
  apply hids.sublist (List.filter_sublist.map _)

/-! ### The matched funding steps -/

theorem sorted_externalSends (hids : DistinctIds entries) (key : FundingStepMatchKey) :
  ((externalSends entries key).mergeSort fun a b => a ≤ b).Pairwise (· < ·)
  := by
  have hnodup : ((externalSends entries key).mergeSort fun a b => a ≤ b).Nodup :=
    (List.mergeSort_perm _ _).nodup_iff.mpr (nodup_externalSends hids key)
  apply ((pairwise_mergeSort_le id (externalSends entries key)).and hnodup).imp
  rintro a b ⟨hle, hne⟩
  apply lt_of_le_of_ne hle hne

theorem matchKey_congr (hids : DistinctIds entries) (h : entries.Perm entries')
    (key : FundingStepMatchKey) :
  matchKey entries key = matchKey entries' key
  := by
  unfold matchKey
  congr 1
  · apply mergeSort_le_congr (fundingSteps_perm h key)
    intro a ha b hb heq
    exact (fundingSteps_eq_of_fst hids ha hb heq).1
  · apply mergeSort_le_congr (externalSends_perm h key) fun _ _ _ _ heq => heq

/-- The external sends with a key that are matched are those for which a funding step waits. -/
theorem mem_map_snd_matchKey_iff (hids : DistinctIds entries) {key : FundingStepMatchKey}
    {transactionId : Int} :
  transactionId ∈ (matchKey entries key).map Prod.snd
    ↔ transactionId ∈ externalSends entries key
      ∧ InOrderMatching.Waiting Prod.fst (fundingSteps entries key) (externalSends entries key)
          transactionId
  := by
  rw [matchKey, InOrderMatching.mem_map_snd_pair_iff
      (pairwise_mergeSort_le Prod.fst (fundingSteps entries key)) (sorted_externalSends hids key),
    List.mem_mergeSort,
    InOrderMatching.waiting_congr (List.mergeSort_perm _ _) (List.mergeSort_perm _ _)]

theorem matchedFundingSteps_perm (hids : DistinctIds entries) (h : entries.Perm entries')
    (hash hash' : HashOrder) :
  (matchedFundingSteps entries hash).Perm (matchedFundingSteps entries' hash')
  := by
  unfold matchedFundingSteps
  simp only [funext (matchKey_congr hids h)]
  apply List.Perm.flatMap_right
  apply (hash.perm _).trans ((fundingKeys_perm h).trans (hash'.perm _).symm)

theorem mem_matchKey {key : FundingStepMatchKey} {matched : (Int × Nat) × Int}
    (h : matched ∈ matchKey entries key) :
  matched.1 ∈ fundingSteps entries key ∧ matched.2 ∈ externalSends entries key
    ∧ matched.1.1 < matched.2
  := by
  refine ⟨?_, ?_, InOrderMatching.lt_of_mem_pair h⟩
  · rw [← List.mem_mergeSort]
    apply (InOrderMatching.map_fst_pair_sublist _ _).subset (List.mem_map_of_mem h)
  · rw [← List.mem_mergeSort]
    apply (InOrderMatching.map_snd_pair_sublist _ _).subset (List.mem_map_of_mem h)

theorem mem_fundingKeys_of_step {key : FundingStepMatchKey} {step : Int × Nat}
    (h : step ∈ fundingSteps entries key) :
  key ∈ fundingKeys entries
  := by
  obtain ⟨entry, hentry, hsuppress, hkey, -⟩ := mem_fundingSteps.mp h
  unfold fundingKeys
  rw [List.mem_dedup, List.mem_filterMap]
  exact ⟨entry, hentry, by rw [if_pos hsuppress, hkey]⟩

variable {hash : HashOrder}

theorem mem_matchedFundingSteps {matched : (Int × Nat) × Int} :
  matched ∈ matchedFundingSteps entries hash ↔ ∃ key, matched ∈ matchKey entries key
  := by
  unfold matchedFundingSteps
  simp only [List.mem_flatMap, (hash.perm _).mem_iff]
  constructor
  · rintro ⟨key, -, h⟩
    exact ⟨key, h⟩
  · rintro ⟨key, h⟩
    exact ⟨key, mem_fundingKeys_of_step (mem_matchKey h).1, h⟩

theorem nodup_matched (hids : DistinctIds entries) :
  ((matchedFundingSteps entries hash).map Prod.snd).Nodup
  := by
  unfold matchedFundingSteps
  rw [List.map_flatMap, List.nodup_flatMap]
  constructor
  · intro key _
    apply List.Nodup.sublist (InOrderMatching.map_snd_pair_sublist _ _)
    apply (List.mergeSort_perm _ _).nodup_iff.mpr (nodup_externalSends hids key)
  · have hnodup : (hash.order (fundingKeys entries)).Nodup :=
      (hash.perm _).nodup_iff.mpr (List.nodup_dedup _)
    apply hnodup.imp
    intro key key' hne
    apply List.disjoint_left.mpr
    intro transactionId h h'
    obtain ⟨matched, hm, rfl⟩ := List.mem_map.mp h
    obtain ⟨matched', hm', heq⟩ := List.mem_map.mp h'
    rw [← heq] at h
    apply hne (externalSends_eq hids (mem_matchKey hm).2.1 (heq ▸ (mem_matchKey hm').2.1))

/-- Pairs with one external send are the same. -/
theorem matched_eq_of_external (hids : DistinctIds entries) {matched matched' : (Int × Nat) × Int}
    (h : matched ∈ matchedFundingSteps entries hash)
    (h' : matched' ∈ matchedFundingSteps entries hash) (heq : matched.2 = matched'.2) :
  matched = matched'
  := List.inj_on_of_nodup_map (nodup_matched hids) h h' heq

/-- Pairs with one funding step are the same. -/
theorem matched_eq_of_funding (hids : DistinctIds entries) {matched matched' : (Int × Nat) × Int}
    (h : matched ∈ matchedFundingSteps entries hash)
    (h' : matched' ∈ matchedFundingSteps entries hash) (heq : matched.1.1 = matched'.1.1) :
  matched = matched'
  := by
  obtain ⟨key, hm⟩ := mem_matchedFundingSteps.mp h
  obtain ⟨key', hm'⟩ := mem_matchedFundingSteps.mp h'
  obtain ⟨-, rfl⟩ := fundingSteps_eq_of_fst hids (mem_matchKey hm).1 (mem_matchKey hm').1 heq
  have hnodup : ((matchKey entries key).map fun matched => matched.1.1).Nodup := by
    have hsub : ((matchKey entries key).map Prod.fst).Sublist
        ((fundingSteps entries key).mergeSort fun a b => a.1 ≤ b.1) :=
      InOrderMatching.map_fst_pair_sublist _ _
    have hsub' := hsub.map Prod.fst
    rw [List.map_map] at hsub'
    apply List.Nodup.sublist hsub'
    apply ((List.mergeSort_perm _ _).map _).nodup_iff.mpr (nodup_fundingSteps hids key)
  apply List.inj_on_of_nodup_map hnodup hm hm' heq

theorem filter_eq_singleton {α : Type} {values : List α} {p : α → Bool} {value : α}
    (hnodup : values.Nodup) (hmem : value ∈ values) (hp : p value)
    (hunique : ∀ other ∈ values, p other → other = value) :
  values.filter p = [value]
  := by
  rw [← List.perm_singleton, List.perm_ext_iff_of_nodup (hnodup.filter p) (List.nodup_singleton _)]
  intro other
  rw [List.mem_filter, List.mem_singleton]
  constructor
  · rintro ⟨h, hother⟩
    apply hunique other h hother
  · rintro rfl
    exact ⟨hmem, hp⟩

/-- The fee of the funding step is what its external send pays more. -/
theorem extraFee_of_matched (hids : DistinctIds entries) {matched : (Int × Nat) × Int}
    (h : matched ∈ matchedFundingSteps entries hash) :
  extraFeeByExternalTxid entries hash matched.2 = saturatingAdd 0 matched.1.2
  := by
  have hfilter : (matchedFundingSteps entries hash).filter (fun other => other.2 = matched.2)
      = [matched] := by
    apply filter_eq_singleton (nodup_matched hids).of_map h (by simp)
    intro other hother heq
    apply matched_eq_of_external hids hother h (of_decide_eq_true heq)
  rw [extraFeeByExternalTxid, hfilter]
  rfl

theorem suppressed_congr (hids : DistinctIds entries) (h : entries.Perm entries')
    (hash hash' : HashOrder) (transactionId : Int) :
  transactionId ∈ suppressedFundingTxids entries hash
    ↔ transactionId ∈ suppressedFundingTxids entries' hash'
  := ((matchedFundingSteps_perm hids h hash hash').map _).mem_iff

theorem extraFee_congr (hids : DistinctIds entries) (h : entries.Perm entries')
    (hash hash' : HashOrder) (transactionId : Int) :
  extraFeeByExternalTxid entries hash transactionId
    = extraFeeByExternalTxid entries' hash' transactionId
  := foldl_saturatingAdd_perm (((matchedFundingSteps_perm hids h hash hash').filter _).map _)

theorem rowsOf_congr (hids : DistinctIds entries) (h : entries.Perm entries')
    (hash hash' : HashOrder) (entry : Summarized Txid) :
  rowsOf entries hash entry = rowsOf entries' hash' entry
  := by
  simp only [rowsOf, suppressed_congr hids h hash hash', extraFee_congr hids h hash hash']

theorem visibleRows_perm (hids : DistinctIds entries) (h : entries.Perm entries')
    (hash hash' : HashOrder) :
  (visibleRows entries hash).Perm (visibleRows entries' hash')
  := by
  unfold visibleRows
  rw [funext (rowsOf_congr hids h hash hash')]
  apply (h.flatMap_right _).filter _

end

/-! ### The rows of a transaction -/

section

variable {base : TxBase Txid} {summary : ActivitySummary} {extraSentFee : Nat}

/-- A row is of the transaction. -/
theorem mem_classifyHistoryTx {row : ClassifiedTx Txid}
    (h : row ∈ base.classifyHistoryTx summary extraSentFee) :
  ∃ txKind displayAmount displayPool isTransparent rowOrder fee,
    row = base.buildClassifiedTxWithFee txKind displayAmount displayPool isTransparent rowOrder fee
  := by
  unfold TxBase.classifyHistoryTx at h
  simp only at h
  split_ifs at h
  · exact ⟨_, _, _, _, _, _, List.mem_singleton.mp h⟩
  · exact ⟨_, _, _, _, _, _, List.mem_singleton.mp h⟩
  · exact ⟨_, _, _, _, _, _, List.mem_singleton.mp h⟩
  · unfold TxBase.balanceRows at h
    simp only at h
    split_ifs at h
    · exact ⟨_, _, _, _, _, _, List.mem_singleton.mp h⟩
    · cases h
    · exact ⟨_, _, _, _, _, _, List.mem_singleton.mp h⟩
    · exact ⟨_, _, _, _, _, _, List.mem_singleton.mp h⟩
  · simp only [TxBase.outputRows, List.mem_append, List.mem_ite_nil_right,
      List.mem_singleton] at h
    rcases h with ⟨-, h⟩ | ⟨-, h⟩
    · exact ⟨_, _, _, _, _, _, h⟩
    · exact ⟨_, _, _, _, _, _, h⟩

/-- The rows of a transaction are in the order of their kinds. -/
theorem pairwise_rowOrder :
  (base.classifyHistoryTx summary extraSentFee).Pairwise fun a b => a.rowOrder < b.rowOrder
  := by
  unfold TxBase.classifyHistoryTx TxBase.balanceRows TxBase.outputRows
  simp only
  split_ifs <;>
    simp [TxBase.buildClassifiedTx, TxBase.buildClassifiedTxWithFee]

theorem eq_of_rowOrder {row row' : ClassifiedTx Txid}
    (h : row ∈ base.classifyHistoryTx summary extraSentFee)
    (h' : row' ∈ base.classifyHistoryTx summary extraSentFee) (heq : row.rowOrder = row'.rowOrder) :
  row = row'
  := by
  have hnodup : ((base.classifyHistoryTx summary extraSentFee).map ClassifiedTx.rowOrder).Nodup :=
    List.Pairwise.map _ (fun _ _ hlt => Nat.ne_of_lt hlt) pairwise_rowOrder
  apply List.inj_on_of_nodup_map hnodup h h' heq

/-- A transaction that sent something has one row of it. -/
theorem filter_sent_classifyHistoryTx (hs : base.isShielding = false)
    (hsent : 0 < summary.sent.amount) :
  ((base.classifyHistoryTx summary extraSentFee).filter fun row => row.info.txKind = .sent)
    = [base.buildClassifiedTxWithFee .sent summary.sent.amount summary.sent.displayPool
        summary.sent.hasTransparent 1 (saturatingAdd base.fee extraSentFee)]
  := by
  have hreceiving : base.receivingTxKind ≠ .sent := by
    unfold TxBase.receivingTxKind
    split_ifs <;> simp
  rw [TxBase.classifyHistoryTx_eq_outputRows hs (Or.inl hsent), TxBase.outputRows, if_pos hsent,
    List.filter_append]
  split_ifs
  · simp [TxBase.buildClassifiedTx, TxBase.buildClassifiedTxWithFee, hreceiving]
  · simp [TxBase.buildClassifiedTxWithFee]

end

/-! ### The list -/

section

variable {entries entries' : List (Summarized Txid)} {hash : HashOrder}

/-- The ids by which the transactions are listed are distinct. -/
def DistinctTxids (entries : List (Summarized Txid)) : Prop :=
  (entries.map fun entry => entry.base.txid).Nodup

theorem mem_visibleRows {row : ClassifiedTx Txid} (h : row ∈ visibleRows entries hash) :
  ∃ entry ∈ entries, row ∈ rowsOf entries hash entry ∧ isRetained row
  := by
  obtain ⟨hrow, hretained⟩ := List.mem_filter.mp h
  obtain ⟨entry, hentry, hmem⟩ := List.mem_flatMap.mp hrow
  exact ⟨entry, hentry, hmem, hretained⟩

theorem mem_rowsOf {entry : Summarized Txid} {row : ClassifiedTx Txid}
    (h : row ∈ rowsOf entries hash entry) :
  ∃ extraSentFee, row ∈ entry.base.classifyHistoryTx entry.summary extraSentFee
  := by
  unfold rowsOf at h
  split at h
  · cases h
  · exact ⟨_, h⟩

theorem txid_of_mem_rowsOf {entry : Summarized Txid} {row : ClassifiedTx Txid}
    (h : row ∈ rowsOf entries hash entry) :
  row.info.txidHex = entry.base.txid
  := by
  obtain ⟨extraSentFee, h⟩ := mem_rowsOf h
  obtain ⟨_, _, _, _, _, _, rfl⟩ := mem_classifyHistoryTx h
  rfl

variable [LinearOrder Txid]

/-- Visible rows are told apart by what they are sorted by. -/
theorem visibleRows_eq_of_sortKey (htxids : DistinctTxids entries) {row row' : ClassifiedTx Txid}
    (h : row ∈ visibleRows entries hash) (h' : row' ∈ visibleRows entries hash)
    (heq : sortKey row = sortKey row') :
  row = row'
  := by
  obtain ⟨entry, hentry, hrow, -⟩ := mem_visibleRows h
  obtain ⟨entry', hentry', hrow', -⟩ := mem_visibleRows h'
  have hkey : row.info.txidHex = row'.info.txidHex ∧ row.rowOrder = row'.rowOrder := by
    simp only [sortKey, EmbeddingLike.apply_eq_iff_eq, Prod.mk.injEq] at heq
    apply heq.2.2.2.2
  have hbase : entry = entry' := by
    apply List.inj_on_of_nodup_map htxids hentry hentry'
    rw [← txid_of_mem_rowsOf hrow, ← txid_of_mem_rowsOf hrow', hkey.1]
  subst hbase
  unfold rowsOf at hrow hrow'
  by_cases hhidden : entry.base.transactionId ∈ suppressedFundingTxids entries hash
  · rw [if_pos hhidden] at hrow
    cases hrow
  · rw [if_neg hhidden] at hrow hrow'
    apply eq_of_rowOrder hrow hrow' hkey.2

theorem sorted_visibleRows_congr (htxids : DistinctTxids entries) (hids : DistinctIds entries)
    (h : entries.Perm entries') (hash hash' : HashOrder) :
  ((visibleRows entries hash).mergeSort fun a b => sortKey a ≤ sortKey b)
    = (visibleRows entries' hash').mergeSort fun a b => sortKey a ≤ sortKey b
  := by
  apply mergeSort_le_congr (visibleRows_perm hids h hash hash')
  intro row hrow row' hrow' heq
  apply visibleRows_eq_of_sortKey htxids hrow hrow' heq

/-- The rows of one transaction in the list. -/
theorem filter_visibleRows (htxids : DistinctTxids entries) {entry : Summarized Txid}
    (hentry : entry ∈ entries) :
  ((visibleRows entries hash).filter fun row => row.info.txidHex = entry.base.txid)
    = (rowsOf entries hash entry).filter isRetained
  := by
  have hown : ∀ other, other.base.txid = entry.base.txid →
      ((rowsOf entries hash other).filter isRetained).filter
          (fun row => row.info.txidHex = entry.base.txid)
        = (rowsOf entries hash other).filter isRetained := by
    intro other heq
    rw [List.filter_eq_self]
    intro row hrow
    rw [decide_eq_true_eq, ← heq]
    apply txid_of_mem_rowsOf (List.mem_filter.mp hrow).1
  have hother : ∀ other, other.base.txid ≠ entry.base.txid →
      ((rowsOf entries hash other).filter isRetained).filter
        (fun row => row.info.txidHex = entry.base.txid) = [] := by
    intro other hne
    rw [List.filter_eq_nil_iff]
    intro row hrow heq
    apply hne
    rw [← txid_of_mem_rowsOf (List.mem_filter.mp hrow).1]
    apply of_decide_eq_true heq
  unfold visibleRows
  rw [List.filter_flatMap, List.filter_flatMap]
  generalize rowsOf entries hash = rows at hown hother
  obtain ⟨before, after, rfl⟩ := List.append_of_mem hentry
  have hdistinct : ∀ other ∈ before ++ after, other.base.txid ≠ entry.base.txid := by
    intro other hmem heq
    rw [DistinctTxids, List.map_append, List.map_cons, List.nodup_middle, List.nodup_cons,
      ← List.map_append] at htxids
    apply htxids.1 (heq ▸ List.mem_map_of_mem hmem)
  have hnone : ∀ others : List (Summarized Txid), others ⊆ before ++ after →
      (others.flatMap fun other => ((rows other).filter isRetained).filter
        fun row => row.info.txidHex = entry.base.txid) = [] := by
    intro others hsub
    rw [List.flatMap_eq_nil_iff]
    intro other hmem
    apply hother other (hdistinct other (hsub hmem))
  rw [List.flatMap_append, List.flatMap_cons, hnone before (List.subset_append_left _ _),
    hnone after (List.subset_append_right _ _), hown entry rfl, List.nil_append, List.append_nil]

theorem lookup_of_mem {α : Type} {values : List (Txid × α)} {txid : Txid} {value : α}
    (hnodup : (values.map Prod.fst).Nodup) (h : (txid, value) ∈ values) :
  values.lookup txid = some value
  := by
  induction values with
  | nil => cases h
  | cons first rest ih =>
    rw [List.map_cons, List.nodup_cons] at hnodup
    rcases List.mem_cons.mp h with rfl | h
    · apply List.lookup_cons_self
    · have hne : txid ≠ first.1 := fun heq => hnodup.1 (heq ▸ List.mem_map_of_mem h)
      rw [List.lookup_cons, beq_false_of_ne hne]
      apply ih hnodup.2 h

theorem summarized_eq (outputsByTxid : Txid → Option (List TxOutput)) (accountUuid : Nat)
    {bases : List (TxBase Txid)} (htxids : (bases.map TxBase.txid).Nodup) :
  summarized outputsByTxid accountUuid bases = bases.map (ownSummary outputsByTxid accountUuid)
  := by
  apply List.map_congr_left
  intro base hbase
  have hlookup : (summaries outputsByTxid accountUuid bases).reverse.lookup base.txid
      = some (ownSummary outputsByTxid accountUuid base).summary := by
    apply lookup_of_mem
    · rw [List.map_reverse, List.nodup_reverse, summaries, List.map_map]
      apply htxids
    · rw [List.mem_reverse]
      apply List.mem_map_of_mem hbase
  rw [hlookup]
  rfl

end

/-! ### What the list promises -/

theorem fundingStepKey_eq_some {entry : Summarized Txid} {key : FundingStepMatchKey}
    (h : entry.fundingStepKey = some key) :
  entry.base.created = some key.1 ∧ entry.base.expiryKey = key.2.1
    ∧ entry.summary.ownTransparentOutputAmount = key.2.2
  := by
  unfold Summarized.fundingStepKey at h
  split_ifs at h
  obtain ⟨created, hcreated, rfl⟩ := Option.map_eq_some_iff.mp h
  exact ⟨hcreated, rfl, rfl⟩

theorem externalSendKey_eq_some {entry : Summarized Txid} {key : FundingStepMatchKey}
    (h : entry.externalSendKey = some key) :
  entry.summary.hasExternalTransparentSend ∧ entry.base.created = some key.1
    ∧ entry.base.expiryKey = key.2.1 ∧ entry.base.totalSpent = key.2.2
  := by
  unfold Summarized.externalSendKey at h
  split_ifs at h with hnone
  obtain ⟨created, hcreated, rfl⟩ := Option.map_eq_some_iff.mp h
  simp only [Bool.or_eq_true, Bool.not_eq_true', not_or, Bool.not_eq_false] at hnone
  exact ⟨hnone.1.1, hcreated, rfl, rfl⟩

section

variable {outputsByTxid : Txid → Option (List TxOutput)} {accountUuid : Nat}
  {bases : List (TxBase Txid)}

/-- The transactions of the list have distinct ids of both kinds. -/
structure DistinctBases (bases : List (TxBase Txid)) : Prop where
  txids : (bases.map TxBase.txid).Nodup
  ids : (bases.map TxBase.transactionId).Nodup

namespace DistinctBases

variable (hd : DistinctBases bases)

include hd

theorem distinctTxids :
  DistinctTxids (bases.map (ownSummary outputsByTxid accountUuid))
  := by
  rw [DistinctTxids, List.map_map]
  apply hd.txids

theorem distinctIds :
  DistinctIds (bases.map (ownSummary outputsByTxid accountUuid))
  := by
  rw [DistinctIds, List.map_map]
  apply hd.ids

theorem perm {bases' : List (TxBase Txid)} (h : bases'.Perm bases) :
  DistinctBases bases'
  := ⟨(h.map _).nodup_iff.mpr hd.txids, (h.map _).nodup_iff.mpr hd.ids⟩

theorem eq_of_id {base base' : TxBase Txid} (h : base ∈ bases) (h' : base' ∈ bases)
    (heq : base.transactionId = base'.transactionId) :
  base = base'
  := List.inj_on_of_nodup_map hd.ids h h' heq

/-- What is known of a matched funding step and its external send. -/
theorem keys_of_mem_matchKey {funding external : TxBase Txid} {key : FundingStepMatchKey}
    (hfunding : funding ∈ bases) (hexternal : external ∈ bases)
    (h : ((funding.transactionId, funding.fee), external.transactionId)
      ∈ matchKey (bases.map (ownSummary outputsByTxid accountUuid)) key) :
  (ownSummary outputsByTxid accountUuid funding).fundingStepKey = some key
    ∧ (ownSummary outputsByTxid accountUuid external).externalSendKey = some key
    ∧ funding.transactionId < external.transactionId
  := by
  obtain ⟨hstep, hsend, hlt⟩ := mem_matchKey h
  obtain ⟨entry, hentry, -, hkey, hid⟩ := mem_fundingSteps.mp hstep
  obtain ⟨entry', hentry', hkey', hid'⟩ := mem_externalSends.mp hsend
  obtain ⟨base, hbase, rfl⟩ := List.mem_map.mp hentry
  obtain ⟨base', hbase', rfl⟩ := List.mem_map.mp hentry'
  obtain rfl := hd.eq_of_id hbase hfunding (congrArg Prod.fst hid)
  obtain rfl := hd.eq_of_id hbase' hexternal hid'
  exact ⟨hkey, hkey', hlt⟩

/-- A hidden transaction sent nothing that is shown. -/
theorem sent_of_hidden {hash : HashOrder} {base : TxBase Txid} (hbase : base ∈ bases)
    (h : base.transactionId
      ∈ suppressedFundingTxids (bases.map (ownSummary outputsByTxid accountUuid)) hash) :
  (ownSummary outputsByTxid accountUuid base).summary.sent.amount = 0
  := by
  obtain ⟨matched, hmatched, hid⟩ := List.mem_map.mp h
  obtain ⟨key, hkey⟩ := mem_matchedFundingSteps.mp hmatched
  obtain ⟨entry, hentry, hsuppress, -, hstep⟩ := mem_fundingSteps.mp (mem_matchKey hkey).1
  obtain ⟨base', hbase', rfl⟩ := List.mem_map.mp hentry
  obtain rfl := hd.eq_of_id hbase' hbase (by rw [← hid, ← hstep]; rfl)
  simp only [Summarized.shouldSuppressFundingStep, Bool.and_eq_true, decide_eq_true_eq]
    at hsuppress
  apply hsuppress.1.1.1.2

variable [LinearOrder Txid]

theorem matched_iff {hash : HashOrder} {funding external : TxBase Txid} :
  Matched outputsByTxid accountUuid bases hash funding external
    ↔ funding ∈ bases ∧ external ∈ bases
      ∧ ∃ key, ((funding.transactionId, funding.fee), external.transactionId)
          ∈ matchKey (bases.map (ownSummary outputsByTxid accountUuid)) key
  := by
  rw [Matched, summarized_eq _ _ hd.txids, mem_matchedFundingSteps]

/-- The transaction of a hidden id was matched. -/
theorem exists_matched_of_hidden {hash : HashOrder} {funding : TxBase Txid}
    (hfunding : funding ∈ bases)
    (h : funding.transactionId
      ∈ suppressedFundingTxids (bases.map (ownSummary outputsByTxid accountUuid)) hash) :
  ∃ external, Matched outputsByTxid accountUuid bases hash funding external
  := by
  obtain ⟨⟨⟨id, fee⟩, sendId⟩, hmatched, rfl⟩ := List.mem_map.mp h
  obtain ⟨key, hkey⟩ := mem_matchedFundingSteps.mp hmatched
  obtain ⟨hstep, hsend, -⟩ := mem_matchKey hkey
  obtain ⟨entry, hentry, -, -, hid⟩ := mem_fundingSteps.mp hstep
  obtain ⟨entry', hentry', -, hid'⟩ := mem_externalSends.mp hsend
  obtain ⟨base, hbase, rfl⟩ := List.mem_map.mp hentry
  obtain ⟨base', hbase', rfl⟩ := List.mem_map.mp hentry'
  obtain rfl := hd.eq_of_id hbase hfunding (congrArg Prod.fst hid)
  refine ⟨base', hd.matched_iff.mpr ⟨hbase, hbase', key, ?_⟩⟩
  have hpair : ((base.transactionId, base.fee), base'.transactionId)
      = ((base.transactionId, fee), sendId) := Prod.ext hid hid'
  rw [hpair]
  apply hkey

/-- An external send is matched when a funding step waits for it. -/
theorem exists_matched_iff {hash : HashOrder} {external : TxBase Txid} (hexternal : external ∈ bases) :
  (∃ funding, Matched outputsByTxid accountUuid bases hash funding external)
    ↔ ∃ key, (ownSummary outputsByTxid accountUuid external).externalSendKey = some key
      ∧ InOrderMatching.Waiting Prod.fst
          (fundingSteps (bases.map (ownSummary outputsByTxid accountUuid)) key)
          (externalSends (bases.map (ownSummary outputsByTxid accountUuid)) key)
          external.transactionId
  := by
  constructor
  · rintro ⟨funding, hmatched⟩
    obtain ⟨hfunding, -, key, hmem⟩ := hd.matched_iff.mp hmatched
    use key, (hd.keys_of_mem_matchKey hfunding hexternal hmem).2.1
    apply ((mem_map_snd_matchKey_iff hd.distinctIds).mp (List.mem_map_of_mem hmem)).2
  · rintro ⟨key, hkey, hwait⟩
    have hsend : external.transactionId
        ∈ externalSends (bases.map (ownSummary outputsByTxid accountUuid)) key :=
      mem_externalSends.mpr ⟨_, List.mem_map_of_mem hexternal, hkey, rfl⟩
    have htaken := (mem_map_snd_matchKey_iff hd.distinctIds).mpr ⟨hsend, hwait⟩
    obtain ⟨⟨⟨id, fee⟩, sendId⟩, hmem, rfl⟩ := List.mem_map.mp htaken
    obtain ⟨entry, hentry, -, -, hid⟩ := mem_fundingSteps.mp (mem_matchKey hmem).1
    obtain ⟨funding, hfunding, rfl⟩ := List.mem_map.mp hentry
    refine ⟨funding, hd.matched_iff.mpr ⟨hfunding, hexternal, key, ?_⟩⟩
    have hpair : ((funding.transactionId, funding.fee), external.transactionId)
        = ((id, fee), external.transactionId) := Prod.ext hid rfl
    rw [hpair]
    apply hmem

/-- The rows of what a transaction sent, up to their order. -/
theorem filter_assembleHistory_perm {hash : HashOrder} {base : TxBase Txid}
    (hbase : base ∈ bases) :
  ((assembleHistory outputsByTxid accountUuid hash bases none).filter
      (isSentRowOf base.txid)).Perm
    ((((rowsOf (bases.map (ownSummary outputsByTxid accountUuid)) hash
        (ownSummary outputsByTxid accountUuid base)).filter
          fun row => row.info.txKind = .sent).filter isRetained).map ClassifiedTx.info)
  := by
  have hown : ((visibleRows (bases.map (ownSummary outputsByTxid accountUuid)) hash).filter
      fun row => row.info.txidHex = base.txid)
      = (rowsOf (bases.map (ownSummary outputsByTxid accountUuid)) hash
          (ownSummary outputsByTxid accountUuid base)).filter isRetained :=
    filter_visibleRows hd.distinctTxids (List.mem_map_of_mem hbase)
  rw [List.filter_comm, ← hown, List.filter_comm, List.filter_filter]
  unfold assembleHistory
  rw [summarized_eq _ _ hd.txids, List.filter_map]
  apply ((List.mergeSort_perm _ _).filter _).map _

/-- The fee of a funding step is shown when its external send has a row of what it sent. -/
theorem feeShown_of_pos {hash : HashOrder} {funding external : TxBase Txid}
    (h : Matched outputsByTxid accountUuid bases hash funding external)
    (hsent : 0 < (ownSummary outputsByTxid accountUuid external).summary.sent.amount) :
  ∃ row,
    (assembleHistory outputsByTxid accountUuid hash bases none).filter
        (isSentRowOf external.txid) = [row]
      ∧ row.fee = saturatingAdd external.fee funding.fee
      ∧ row.displayAmount = (ownSummary outputsByTxid accountUuid external).summary.sent.amount
  := by
  obtain ⟨hfunding, hexternal, key, hmem⟩ := hd.matched_iff.mp h
  have hsend : (ownSummary outputsByTxid accountUuid external).summary.hasExternalTransparentSend :=
    (externalSendKey_eq_some (hd.keys_of_mem_matchKey hfunding hexternal hmem).2.1).1
  have hshown : (ownSummary outputsByTxid accountUuid external).base.transactionId
      ∉ suppressedFundingTxids (bases.map (ownSummary outputsByTxid accountUuid)) hash := by
    intro hidden
    have hzero := hd.sent_of_hidden hexternal hidden
    omega
  have hs : external.isShielding = false := by
    obtain ⟨output, -, hcounts, -⟩ := (external.amount_pos_iff accountUuid .sent _).mp hsent
    simp only [TxBase.counts, Bool.and_eq_true, Bool.not_eq_true'] at hcounts
    apply hcounts.1.1.1
  have hextra : extraFeeByExternalTxid (bases.map (ownSummary outputsByTxid accountUuid)) hash
      external.transactionId = saturatingAdd 0 funding.fee :=
    extraFee_of_matched hd.distinctIds (mem_matchedFundingSteps.mpr ⟨key, hmem⟩)
  have hfee : saturatingAdd external.fee (saturatingAdd 0 funding.fee)
      = saturatingAdd external.fee funding.fee := by
    simp only [saturatingAdd]
    omega
  have hrows : rowsOf (bases.map (ownSummary outputsByTxid accountUuid)) hash
      (ownSummary outputsByTxid accountUuid external)
      = external.classifyHistoryTx (ownSummary outputsByTxid accountUuid external).summary
          (saturatingAdd 0 funding.fee) := by
    unfold rowsOf
    rw [if_neg hshown, if_pos hsend, ← hextra]
    rfl
  use (external.buildClassifiedTxWithFee .sent
    (ownSummary outputsByTxid accountUuid external).summary.sent.amount
    (ownSummary outputsByTxid accountUuid external).summary.sent.displayPool
    (ownSummary outputsByTxid accountUuid external).summary.sent.hasTransparent 1
    (saturatingAdd external.fee (saturatingAdd 0 funding.fee))).info
  refine ⟨?_, hfee, rfl⟩
  rw [← List.perm_singleton]
  apply (hd.filter_assembleHistory_perm hexternal).trans
  rw [hrows, filter_sent_classifyHistoryTx hs hsent,
    List.filter_cons_of_pos (by simp [isRetained, TxBase.buildClassifiedTxWithFee, hsent])]
  rfl

theorem pos_of_feeShown {hash : HashOrder} {external : TxBase Txid} (hexternal : external ∈ bases)
    {row : TransactionInfo Txid}
    (hrow : row ∈ (assembleHistory outputsByTxid accountUuid hash bases none).filter
      (isSentRowOf external.txid)) :
  0 < row.displayAmount
  := by
  rw [(hd.filter_assembleHistory_perm hexternal).mem_iff] at hrow
  obtain ⟨row, hmem, rfl⟩ := List.mem_map.mp hrow
  simp only [List.mem_filter, isRetained, Bool.or_eq_true, decide_eq_true_eq] at hmem
  obtain ⟨⟨-, hkind⟩, hretained⟩ := hmem
  simpa [hkind] using hretained

/-- A funding step agrees with the external send that it was matched to. -/
theorem agree_of_matched {hash : HashOrder} {funding external : TxBase Txid}
    (h : Matched outputsByTxid accountUuid bases hash funding external) :
  funding.transactionId < external.transactionId
    ∧ (ownSummary outputsByTxid accountUuid external).summary.hasExternalTransparentSend
    ∧ funding.created.isSome ∧ funding.created = external.created
    ∧ funding.expiryKey = external.expiryKey
    ∧ (ownSummary outputsByTxid accountUuid funding).summary.ownTransparentOutputAmount
        = external.totalSpent
  := by
  obtain ⟨hfunding, hexternal, key, hmem⟩ := hd.matched_iff.mp h
  obtain ⟨hstep, hsend, hlt⟩ := hd.keys_of_mem_matchKey hfunding hexternal hmem
  obtain ⟨hcreated, hexpiry, hamount⟩ := fundingStepKey_eq_some hstep
  obtain ⟨htransparent, hcreated', hexpiry', hspent⟩ := externalSendKey_eq_some hsend
  exact ⟨hlt, htransparent, Option.isSome_of_eq_some hcreated, hcreated.trans hcreated'.symm,
    hexpiry.trans hexpiry'.symm, hamount.trans hspent.symm⟩

/-- No transaction is matched twice. -/
theorem matched_inj {hash : HashOrder} {funding funding' external external' : TxBase Txid}
    (h : Matched outputsByTxid accountUuid bases hash funding external)
    (h' : Matched outputsByTxid accountUuid bases hash funding' external') :
  funding = funding' ↔ external = external'
  := by
  have hmem := h.2.2
  have hmem' := h'.2.2
  rw [summarized_eq _ _ hd.txids] at hmem hmem'
  constructor
  · rintro rfl
    have heq := matched_eq_of_funding hd.distinctIds hmem hmem' rfl
    apply hd.eq_of_id h.2.1 h'.2.1 (congrArg Prod.snd heq)
  · rintro rfl
    have heq := matched_eq_of_external hd.distinctIds hmem hmem' rfl
    apply hd.eq_of_id h.1 h'.1 (congrArg (fun matched => matched.1.1) heq)

/-- The order of the transactions and of the hash map does not matter. -/
theorem assembleHistory_perm (hash hash' : HashOrder) {bases' : List (TxBase Txid)}
    (h : bases'.Perm bases) (limit : Option Nat) :
  assembleHistory outputsByTxid accountUuid hash' bases' limit
    = assembleHistory outputsByTxid accountUuid hash bases limit
  := by
  have hsorted : ((visibleRows (summarized outputsByTxid accountUuid bases') hash').mergeSort
      fun a b => sortKey a ≤ sortKey b)
      = (visibleRows (summarized outputsByTxid accountUuid bases) hash).mergeSort
          fun a b => sortKey a ≤ sortKey b := by
    rw [summarized_eq _ _ hd.txids, summarized_eq _ _ (hd.perm h).txids]
    apply sorted_visibleRows_congr (hd.perm h).distinctTxids (hd.perm h).distinctIds
      (h.map _) hash' hash
  simp only [assembleHistory, hsorted]

end DistinctBases

section

variable [LinearOrder Txid]

/-- A fee is lost when a funding step was matched to an external send of nothing. -/
theorem losesFee_iff (hd : DistinctBases bases) (hash : HashOrder) :
  LosesFee outputsByTxid accountUuid bases
    ↔ ∃ funding external, Matched outputsByTxid accountUuid bases hash funding external
        ∧ (ownSummary outputsByTxid accountUuid external).summary.sent.amount = 0
  := by
  have hzero (external : TxBase Txid) :
      (ownSummary outputsByTxid accountUuid external).summary.sent.amount = 0
        ↔ ∀ output ∈ outputsOf outputsByTxid external.txid,
            external.counts accountUuid .sent output → output.value = 0 := by
    have hpos := external.amount_pos_iff accountUuid .sent (outputsOf outputsByTxid external.txid)
    rw [← not_iff_not]
    apply Iff.trans (Nat.pos_iff_ne_zero.symm.trans hpos)
    simp [Nat.pos_iff_ne_zero]
  constructor
  · rintro ⟨external, hexternal, key, hkey, hvalues, hwaiting⟩
    obtain ⟨funding, hmatched⟩ :
        ∃ funding, Matched outputsByTxid accountUuid bases hash funding external :=
      (hd.exists_matched_iff hexternal).mpr ⟨key, hkey, hwaiting⟩
    exact ⟨funding, external, hmatched, (hzero external).mpr hvalues⟩
  · rintro ⟨funding, external, hmatched, hsent⟩
    obtain ⟨key, hkey, hwaiting⟩ := (hd.exists_matched_iff hmatched.2.1).mp ⟨funding, hmatched⟩
    exact ⟨external, hmatched.2.1, key, hkey, (hzero external).mp hsent, hwaiting⟩

/-- The hash map may give out its keys in the order in which they were put in. -/
def HashOrder.inserted : HashOrder :=
  ⟨fun keys => keys, fun _ => List.Perm.refl _⟩

theorem not_assembled_of_losesFee (hd : DistinctBases bases)
    (h : LosesFee outputsByTxid accountUuid bases) :
  ¬ HistoryAssembled outputsByTxid accountUuid bases
  := by
  intro hassembled
  obtain ⟨funding, external, hmatched, hzero⟩ := (losesFee_iff hd .inserted).mp h
  obtain ⟨row, hrow, -, hamount⟩ := hassembled.feeShown hmatched
  have hpos : 0 < row.displayAmount :=
    hd.pos_of_feeShown hmatched.2.1 (hrow ▸ List.mem_singleton_self row)
  omega

/-- The list keeps its promises unless a funding step waits for an external send of nothing. -/
theorem historyAssembled_iff (outputsByTxid : Txid → Option (List TxOutput)) (accountUuid : Nat)
    (bases : List (TxBase Txid)) (htxids : (bases.map TxBase.txid).Nodup)
    (hids : (bases.map TxBase.transactionId).Nodup) :
  HistoryAssembled outputsByTxid accountUuid bases ↔ ¬ LosesFee outputsByTxid accountUuid bases
  := by
  have hd : DistinctBases bases := ⟨htxids, hids⟩
  constructor
  · intro hassembled h
    apply not_assembled_of_losesFee hd h hassembled
  · intro hnot
    constructor
    · intro hash funding hfunding h
      rw [summarized_eq _ _ htxids] at h
      exact ⟨hd.sent_of_hidden hfunding h, hd.exists_matched_of_hidden hfunding h⟩
    · intro hash funding external h
      apply hd.agree_of_matched h
    · intro hash funding funding' external external' h h'
      apply hd.matched_inj h h'
    · intro hash funding external h
      apply hd.feeShown_of_pos h
      rw [Nat.pos_iff_ne_zero]
      intro hzero
      apply hnot ((losesFee_iff hd hash).mpr ⟨funding, external, h, hzero⟩)
    · intro hash hash' bases' h limit
      apply hd.assembleHistory_perm hash hash' h limit
    · intro hash limit
      simp only [assembleHistory, List.map_take]

end

/-- A transaction of account 9 that puts 100 on an ephemeral receiver, for a fee of 10. -/
def sampleFunding : TxBase Nat :=
  ⟨0, 1, some 5, false, -10, 10, 7, 110, 100, false, none, 0, some "noon", 7, false⟩

/-- The transaction that spends the 100 of the ephemeral receiver. -/
def sampleExternal : TxBase Nat :=
  ⟨1, 2, some 5, false, -100, 100, 7, 100, 0, false, none, 1, some "noon", 7, false⟩

/-- The outputs of the two transactions, the second one paying some value to someone else. -/
def sampleOutputs (paid : Nat) (txid : Nat) : Option (List TxOutput) :=
  if txid = 0 then
    some [⟨transparentPool, 0, some 9, some 9, none, none, none, some 2, 100, none, none⟩]
  else if txid = 1 then
    some [⟨transparentPool, 0, some 9, none, some "shop", some "shop", some "shop", none, paid,
      none, none⟩]
  else none

theorem historyAssembled_iff_paid :
  HistoryAssembled (sampleOutputs 90) 9 [sampleFunding, sampleExternal]
  := by
  rw [historyAssembled_iff _ _ _ (by decide) (by decide)]
  rintro ⟨external, hexternal, key, hkey, hvalues, -⟩
  rcases List.mem_cons.mp hexternal with rfl | hexternal
  · have hnone : (ownSummary (sampleOutputs 90) 9 sampleFunding).externalSendKey = none := by
      decide
    rw [hnone] at hkey
    cases hkey
  · obtain rfl := List.mem_singleton.mp hexternal
    revert hvalues
    decide

/-- When nothing is paid, the second transaction has no row to which the fee of 10 could be
added. -/
theorem not_assembled_of_unpaid :
  ¬ HistoryAssembled (sampleOutputs 0) 9 [sampleFunding, sampleExternal]
  := by
  apply not_assembled_of_losesFee ⟨by decide, by decide⟩
  refine ⟨sampleExternal, by simp, ("noon", -1, 100), by decide, by decide, (1, 10), ?_, ?_, ?_⟩
  · decide
  · decide
  · decide

end

end History

end Vizor
