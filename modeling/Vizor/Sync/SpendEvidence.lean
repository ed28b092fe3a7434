import Vizor.Sync.PaymentLink

/-!
# What spend evidence says

The money of a gift card is reported as spent elsewhere just when each of its notes was, in a
transaction that settled and is no claim of the card.  More claims can only take such a report
back.  Only pending claims that lost a note to another settled transaction are in conflict, and
no others are kept from being sent again.
-/

namespace Vizor

open Resubmit (ResubmittableTx)
open ScanQueue (ScanRange)

namespace PaymentLink

/-! ### What is promised -/

namespace WalletDb

variable (db : WalletDb)

/-- A transaction that was asked for, or was made here from the account. -/
def IsClaim (account : Nat) (claimTxids : List Char) (t : TransactionRow) : Prop :=
  Hex.encode t.txid ∈ requestedTxids claimTxids
    ∨ ∃ t' ∈ db.localClaims account, t'.txid = t.txid

/-- Some settled transaction spends a note that a transaction with the txid spends. -/
def HasSettledRival (txid : List UInt8) : Prop :=
  ∃ note : Note, (∃ t ∈ db.spenders note, t.txid = txid) ∧ ∃ t ∈ db.spenders note, db.Settled t

end WalletDb

/-- What spend evidence promises. -/
structure EvidenceSound (limitOne : LimitOne) (db : WalletDb) : Prop where
  found {account : AccountRow} (h : account ∈ db.accounts) (claimTxids : List Char) :
    ∃ evidence, inspect limitOne db account.uuid claimTxids = .ok evidence
  spent {account : AccountRow} {uuid : List UInt8} {claimTxids : List Char}
    {evidence : SpendEvidence} (haccount : db.accounts.find? (·.uuid = uuid) = some account)
    (h : inspect limitOne db uuid claimTxids = .ok evidence) :
    evidence.allFundsSpentElsewhere = true ↔ db.fundingNotes account.id ≠ []
      ∧ ∀ note ∈ db.fundingNotes account.id,
          ∃ spender, limitOne.pick (db.settledSpenders note) = some spender
            ∧ ¬ db.IsClaim account.id claimTxids spender
  conflicted {account : AccountRow} {uuid : List UInt8} {claimTxids : List Char}
    {evidence : SpendEvidence} (haccount : db.accounts.find? (·.uuid = uuid) = some account)
    (h : inspect limitOne db uuid claimTxids = .ok evidence) :
    ∀ id ∈ evidence.conflictedTxids, ∃ note ∈ db.fundingNotes account.id,
      ∃ loser ∈ db.spenders note, loser.minedHeight = none ∧ Hex.encode loser.txid = id
        ∧ db.IsClaim account.id claimTxids loser
        ∧ ∃ winner ∈ db.spenders note, db.Settled winner ∧ winner.txid ≠ loser.txid
  verified {uuid : List UInt8} {claimTxids : List Char} {evidence : SpendEvidence}
    (h : inspect limitOne db uuid claimTxids = .ok evidence) :
    (∀ t, db.Settled t ↔ ∃ height ∈ t.minedHeight, 1 ≤ height ∧ height ≤ evidence.verifiedHeight - 5)
      ∧ (evidence.verifiedHeight = 0 ∨ ∃ height ∈ db.blocks, evidence.verifiedHeight ≤ height)
      ∧ ∀ range ∈ db.scanQueue, 10 < range.priority →
          evidence.verifiedHeight < range.blockRangeStart ∨ evidence.verifiedHeight = 0
  monotone {uuid : List UInt8} {claimTxids moreTxids : List Char} {evidence evidence' : SpendEvidence}
    (hmore : requestedTxids claimTxids ⊆ requestedTxids moreTxids)
    (h : inspect limitOne db uuid claimTxids = .ok evidence)
    (h' : inspect limitOne db uuid moreTxids = .ok evidence')
    (hspent : evidence'.allFundsSpentElsewhere = true) :
    evidence.allFundsSpentElsewhere = true
  excluded : ∃ excluded, paymentLinkResubmitExclusions limitOne db = .ok excluded
    ∧ ∀ txid ∈ excluded, db.HasSettledRival txid

/-! ### The loop over the notes -/

section

variable (limitOne : LimitOne) (db : WalletDb) (requested : List (List Char))

/-- The settled spender of a note that is read is no claim. -/
def SpentElsewhere (note : Note) : Prop :=
  ∃ spender, limitOne.pick (db.settledSpenders note) = some spender
    ∧ Hex.encode spender.txid ∉ requested

/-- The text is that of a pending claim that lost a note. -/
def LostAt (note : Note) (id : List Char) : Prop :=
  ∃ spender, limitOne.pick (db.settledSpenders note) = some spender
    ∧ id ∈ requested ∧ id ≠ Hex.encode spender.txid
    ∧ ∃ loser ∈ db.pendingSpenders note, Hex.encode loser.txid = id

variable {limitOne db requested}

theorem inspectNote_fst {found : Bool × List (List Char)} {note : Note} :
  (inspectNote limitOne db requested found note).1 = true
    ↔ found.1 = true ∧ SpentElsewhere limitOne db requested note
  := by
  unfold inspectNote SpentElsewhere
  cases limitOne.pick (db.settledSpenders note) with
  | none => simp
  | some spender =>
    by_cases hclaim : Hex.encode spender.txid ∈ requested <;> simp [hclaim]

theorem mem_inspectNote_snd {found : Bool × List (List Char)} {note : Note} {id : List Char} :
  id ∈ (inspectNote limitOne db requested found note).2
    ↔ id ∈ found.2 ∨ LostAt limitOne db requested note id
  := by
  unfold inspectNote LostAt
  cases limitOne.pick (db.settledSpenders note) with
  | none => simp
  | some spender =>
    simp only [Option.map_some, List.mem_append, List.mem_filter, List.mem_map,
      decide_eq_true_eq, Option.some.injEq, exists_eq_left']
    tauto

/-- All notes are spent elsewhere when no step found another one. -/
theorem foldl_inspectNote_fst {notes : List Note} :
  ∀ {found : Bool × List (List Char)},
    (notes.foldl (inspectNote limitOne db requested) found).1 = true
      ↔ found.1 = true ∧ ∀ note ∈ notes, SpentElsewhere limitOne db requested note
  := by
  induction notes with
  | nil => simp
  | cons note rest ih =>
    intro found
    rw [List.foldl_cons, ih, inspectNote_fst, List.forall_mem_cons, and_assoc]

theorem mem_foldl_inspectNote_snd {notes : List Note} {id : List Char} :
  ∀ {found : Bool × List (List Char)},
    id ∈ (notes.foldl (inspectNote limitOne db requested) found).2
      ↔ id ∈ found.2 ∨ ∃ note ∈ notes, LostAt limitOne db requested note id
  := by
  induction notes with
  | nil => simp
  | cons note rest ih =>
    intro found
    rw [List.foldl_cons, ih, mem_inspectNote_snd, List.exists_mem_cons_iff, or_assoc]

/-- A note is spent elsewhere for fewer claims. -/
theorem SpentElsewhere.subset {requested' : List (List Char)} {note : Note}
    (h : SpentElsewhere limitOne db requested' note) (hsubset : requested ⊆ requested') :
  SpentElsewhere limitOne db requested note
  := by
  obtain ⟨spender, hpick, hclaim⟩ := h
  exact ⟨spender, hpick, fun hmem => hclaim (hsubset hmem)⟩

end

/-! ### What is read for an account -/

section

variable {limitOne : LimitOne} {db : WalletDb} {uuid : List UInt8} {claimTxids : List Char}
  {account : AccountRow} {evidence : SpendEvidence}

/-- The txids that count as claims of an account. -/
def allRequested (db : WalletDb) (account : Nat) (claimTxids : List Char) : List (List Char) :=
  requestedTxids claimTxids ++ distinctTxids (db.localClaims account)

theorem mem_distinctTxids {rows : List TransactionRow} {t : TransactionRow} :
  Hex.encode t.txid ∈ distinctTxids rows ↔ ∃ t' ∈ rows, t'.txid = t.txid
  := by
  simp only [distinctTxids, List.mem_insertionSort, List.mem_dedup, List.mem_map,
    Hex.encode_injective.eq_iff]

theorem mem_allRequested {account : Nat} {t : TransactionRow} :
  Hex.encode t.txid ∈ allRequested db account claimTxids ↔ db.IsClaim account claimTxids t
  := by
  rw [allRequested, List.mem_append, mem_distinctTxids, WalletDb.IsClaim]

/-- What was reported for an account. -/
structure Inspected (limitOne : LimitOne) (db : WalletDb) (account : AccountRow)
    (claimTxids : List Char) (evidence : SpendEvidence) : Prop where
  spent : evidence.allFundsSpentElsewhere = true ↔ db.fundingNotes account.id ≠ []
    ∧ ∀ note ∈ db.fundingNotes account.id,
        SpentElsewhere limitOne db (allRequested db account.id claimTxids) note
  conflicted (id : List Char) : id ∈ evidence.conflictedTxids
    ↔ ∃ note ∈ db.fundingNotes account.id,
        LostAt limitOne db (allRequested db account.id claimTxids) note id
  verified : evidence.verifiedHeight = db.verifiedHeight

theorem exists_of_inspect (h : inspect limitOne db uuid claimTxids = .ok evidence) :
  ∃ account, db.accounts.find? (·.uuid = uuid) = some account
    ∧ Inspected limitOne db account claimTxids evidence
  := by
  unfold inspect at h
  obtain ⟨account, haccount, h⟩ := Run.bind_eq_ok.mp h
  obtain rfl := Except.ok.inj h
  refine ⟨account, Run.okOr_eq_ok.mp haccount, ?_, ?_, rfl⟩
  · rw [foldl_inspectNote_fst, decide_eq_true_eq]
    rfl
  · intro id
    simp only [List.mem_insertionSort, List.mem_dedup, mem_foldl_inspectNote_snd,
      List.not_mem_nil, false_or]
    rfl

theorem inspected_of_inspect (haccount : db.accounts.find? (·.uuid = uuid) = some account)
    (h : inspect limitOne db uuid claimTxids = .ok evidence) :
  Inspected limitOne db account claimTxids evidence
  := by
  obtain ⟨account', haccount', hinspected⟩ := exists_of_inspect h
  rw [haccount] at haccount'
  obtain rfl := Option.some.inj haccount'
  apply hinspected

theorem exists_inspect (limitOne : LimitOne) (h : account ∈ db.accounts)
    (claimTxids : List Char) :
  ∃ evidence, inspect limitOne db account.uuid claimTxids = .ok evidence
  := by
  have hsome : (db.accounts.find? (·.uuid = account.uuid)).isSome := by
    rw [List.find?_isSome]
    exact ⟨account, h, by simp⟩
  obtain ⟨account', haccount'⟩ := Option.isSome_iff_exists.mp hsome
  simp only [inspect, haccount', Run.okOr, Run.ok_bind]
  exact ⟨_, rfl⟩

/-- A claim that lost a note lost it to another settled transaction. -/
theorem LostAt.exists_winner {requested : List (List Char)} {note : Note} {id : List Char}
    (h : LostAt limitOne db requested note id) :
  ∃ loser ∈ db.spenders note, loser.minedHeight = none ∧ Hex.encode loser.txid = id
    ∧ Hex.encode loser.txid ∈ requested
    ∧ ∃ winner ∈ db.spenders note, db.Settled winner ∧ winner.txid ≠ loser.txid
  := by
  obtain ⟨spender, hpick, hrequested, hne, loser, hloser, rfl⟩ := h
  obtain ⟨hwinner, hsettled⟩ := List.mem_filter.mp (limitOne.mem _ _ hpick)
  obtain ⟨hmem, hpending⟩ := List.mem_filter.mp hloser
  refine ⟨loser, hmem, of_decide_eq_true hpending, rfl, hrequested, spender, hwinner,
    of_decide_eq_true hsettled, ?_⟩
  intro heq
  apply hne (by rw [heq])

/-! ### The verified height -/

theorem verifiedHeight_le (db : WalletDb) :
  db.verifiedHeight ≤ db.blocks.max?.getD 0
  := by
  unfold WalletDb.verifiedHeight
  simp only
  omega

theorem verifiedHeight_lt {range : ScanRange} (hmem : range ∈ db.scanQueue)
    (hpriority : 10 < range.priority) :
  db.verifiedHeight < range.blockRangeStart ∨ db.verifiedHeight = 0
  := by
  have hstart : range.blockRangeStart
      ∈ (db.scanQueue.filter (10 < ·.priority)).map (·.blockRangeStart) := by
    apply List.mem_map_of_mem
    rw [List.mem_filter]
    exact ⟨hmem, decide_eq_true hpriority⟩
  unfold WalletDb.verifiedHeight
  generalize (db.scanQueue.filter (10 < ·.priority)).map (·.blockRangeStart) = starts at hstart ⊢
  cases hmin : starts.min? with
  | none =>
    rw [List.min?_eq_none_iff] at hmin
    rw [hmin] at hstart
    cases hstart
  | some start =>
    have hle := (List.min?_eq_some_iff.mp hmin).2 _ hstart
    simp only [Option.elim_some]
    omega

theorem verifiedHeight_eq_zero_or :
  db.verifiedHeight = 0 ∨ ∃ height ∈ db.blocks, db.verifiedHeight ≤ height
  := by
  have hle := verifiedHeight_le db
  cases hmax : db.blocks.max? with
  | none =>
    rw [hmax, Option.getD_none] at hle
    exact Or.inl (Nat.le_zero.mp hle)
  | some height =>
    rw [hmax, Option.getD_some] at hle
    exact Or.inr ⟨height, List.max?_mem hmax, hle⟩

end

/-! ### The exclusions -/

section

variable {limitOne : LimitOne} {db : WalletDb}

/-- What an account is reported to be in conflict with are txids of its claims that lost. -/
theorem Inspected.exists_txid {account : AccountRow} {claimTxids : List Char}
    {evidence : SpendEvidence} (h : Inspected limitOne db account claimTxids evidence)
    {id : List Char} (hid : id ∈ evidence.conflictedTxids) :
  ∃ txid, Hex.encode txid = id ∧ db.HasSettledRival txid
  := by
  obtain ⟨note, -, hlost⟩ := (h.conflicted id).mp hid
  obtain ⟨loser, hloser, -, hencode, -, winner, hwinner, hsettled, -⟩ := hlost.exists_winner
  exact ⟨loser.txid, hencode, note, ⟨loser, hloser, rfl⟩, winner, hwinner, hsettled⟩

/-- The texts of the conflicts are decoded to txids that lost. -/
theorem exists_mapM_decode {ids : List (List Char)}
    (h : ∀ id ∈ ids, ∃ txid, Hex.encode txid = id ∧ db.HasSettledRival txid) :
  ∃ txids, ids.mapM (fun id => (Hex.decode id).mapError Hex.FromHexError.message) = .ok txids
    ∧ ∀ txid ∈ txids, db.HasSettledRival txid
  := by
  induction ids with
  | nil => exact ⟨[], rfl, by simp⟩
  | cons id rest ih =>
    obtain ⟨⟨txid, rfl, hrival⟩, hrest⟩ := List.forall_mem_cons.mp h
    obtain ⟨txids, hok, hrivals⟩ := ih hrest
    refine ⟨txid :: txids, ?_, ?_⟩
    · rw [List.mapM_cons, Hex.decode_encode, hok]
      rfl
    · apply List.forall_mem_cons.mpr ⟨hrival, hrivals⟩

/-- Collecting the conflicts of some accounts does not fail. -/
theorem exists_foldlM_exclusions {accounts : List AccountRow} (hsubset : accounts ⊆ db.accounts) :
  ∀ (excluded : List (List UInt8)), (∀ txid ∈ excluded, db.HasSettledRival txid) →
    ∃ excluded', accounts.foldlM (fun excluded account => do
        let evidence ← inspect limitOne db account.uuid []
        let txids ← evidence.conflictedTxids.mapM fun id =>
          (Hex.decode id).mapError Hex.FromHexError.message
        .ok (excluded ++ txids)) excluded = .ok excluded'
      ∧ ∀ txid ∈ excluded', db.HasSettledRival txid
  := by
  induction accounts with
  | nil =>
    intro excluded hexcluded
    exact ⟨excluded, rfl, hexcluded⟩
  | cons account rest ih =>
    intro excluded hexcluded
    obtain ⟨hmem, hrest⟩ := List.cons_subset.mp hsubset
    obtain ⟨evidence, hevidence⟩ := exists_inspect limitOne hmem []
    obtain ⟨_, _, hinspected⟩ := exists_of_inspect hevidence
    obtain ⟨txids, hok, htxids⟩ :=
      exists_mapM_decode fun _ hid => hinspected.exists_txid hid
    have happend : ∀ txid ∈ excluded ++ txids, db.HasSettledRival txid := by
      intro txid htxid
      rcases List.mem_append.mp htxid with htxid | htxid
      · apply hexcluded txid htxid
      · apply htxids txid htxid
    obtain ⟨excluded', hrun, hexcluded'⟩ := ih hrest _ happend
    refine ⟨excluded', ?_, hexcluded'⟩
    rw [List.foldlM_cons, hevidence, Run.ok_bind, hok, Run.ok_bind, Run.ok_bind]
    apply hrun

end

/-! ### The evidence -/

/-- Spend evidence is sound for every wallet. -/
theorem evidenceSound (limitOne : LimitOne) (db : WalletDb) :
  EvidenceSound limitOne db
  := by
  constructor
  · intro account haccount claimTxids
    apply exists_inspect limitOne haccount claimTxids
  · intro account uuid claimTxids evidence haccount h
    rw [(inspected_of_inspect haccount h).spent]
    simp only [SpentElsewhere, mem_allRequested]
  · intro account uuid claimTxids evidence haccount h id hid
    obtain ⟨note, hnote, hlost⟩ := ((inspected_of_inspect haccount h).conflicted id).mp hid
    obtain ⟨loser, hloser, hpending, hencode, hclaim, hwinner⟩ := hlost.exists_winner
    exact ⟨note, hnote, loser, hloser, hpending, hencode, mem_allRequested.mp hclaim, hwinner⟩
  · intro uuid claimTxids evidence h
    obtain ⟨account, -, hinspected⟩ := exists_of_inspect h
    rw [hinspected.verified]
    refine ⟨fun t => Iff.rfl, verifiedHeight_eq_zero_or, ?_⟩
    intro range hrange hpriority
    apply verifiedHeight_lt hrange hpriority
  · intro uuid claimTxids moreTxids evidence evidence' hmore h h' hspent
    obtain ⟨account, haccount, hinspected⟩ := exists_of_inspect h
    obtain ⟨hnotes, helsewhere⟩ := (inspected_of_inspect haccount h').spent.mp hspent
    rw [hinspected.spent]
    refine ⟨hnotes, ?_⟩
    intro note hnote
    apply (helsewhere note hnote).subset
    apply List.append_subset.mpr ⟨List.subset_append_of_subset_left _ hmore,
      List.subset_append_right _ _⟩
  · apply exists_foldlM_exclusions (fun _ h => h) [] (by simp)

/-! ### What is sent again -/

/-- A pending transaction without a settled rival is sent again. -/
theorem exists_resubmitted {limitOne : LimitOne} {db : WalletDb} {currentHeight : Nat}
    {excluded : List (List UInt8)} {txs : List (ResubmittableTx (List UInt8))}
    {row : ViewTransaction}
    (hexcluded : paymentLinkResubmitExclusions limitOne db = .ok excluded)
    (htxs : getResubmittableTxsExcluding db currentHeight excluded = .ok txs)
    (htable : ∃ t ∈ db.transactions,
      isPendingAt currentHeight t.minedHeight t.expiryHeight t.raw)
    (hrow : row ∈ pendingRows db currentHeight) (hrival : ¬ db.HasSettledRival row.txid) :
  ∃ tx ∈ txs, tx.txidBytes = row.txid
  := by
  have hskip : ¬ shouldSkipResubmissionView db currentHeight := by
    obtain ⟨t, ht, hpending⟩ := htable
    rw [shouldSkipResubmissionView, List.all_eq_true]
    intro hall
    apply of_decide_eq_true (hall t ht) hpending
  have hkept : row.txid ∉ excluded := by
    intro hmem
    obtain ⟨excluded', hok, hrivals⟩ := (evidenceSound limitOne db).excluded
    rw [hexcluded] at hok
    obtain rfl := Except.ok.inj hok
    apply hrival (hrivals row.txid hmem)
  unfold getResubmittableTxsExcluding at htxs
  by_cases hnil : excluded = []
  · rw [if_pos hnil] at htxs
    obtain rfl := Except.ok.inj htxs
    rw [getResubmittableTxs, if_neg hskip]
    refine ⟨⟨row.txid, row.raw.getD [], row.expiryHeight.getD 0⟩, ?_, rfl⟩
    rw [List.mem_dedup]
    apply List.mem_map_of_mem hrow
  · rw [if_neg hnil, if_neg hskip] at htxs
    have hcandidate : (row.txid, row.expiryHeight.getD 0)
        ∈ (((pendingRows db currentHeight).map fun t =>
            (t.txid, t.expiryHeight.getD 0)).dedup).filter (·.1 ∉ excluded) := by
      rw [List.mem_filter, List.mem_dedup]
      exact ⟨List.mem_map_of_mem hrow, decide_eq_true hkept⟩
    obtain ⟨tx, htx, hread⟩ := Run.mem_of_mapM_eq_ok htxs _ hcandidate
    obtain ⟨raw, -, hread⟩ := Run.bind_eq_ok.mp hread
    obtain rfl := Except.ok.inj hread
    exact ⟨_, htx, rfl⟩

/-! ### Two settled spenders, and ignored ranges -/

/-- A card with one note, which two transactions spend that both settled.  The first of them is a
claim, and the ranges below the birthday are ignored. -/
def twiceSpent : WalletDb where
  accounts := [⟨1, [1]⟩]
  blocks := [110]
  scanQueue := [⟨0, 50, 0⟩, ⟨50, 111, 10⟩]
  transactions := [⟨1, [170], none, some 100, none, none⟩, ⟨2, [187], none, some 101, none, none⟩]
  sentNotes := []
  receivedOutputs := [⟨1, 3, 1, 10010000⟩]
  receivedOutputSpends := [⟨3, 1, 1⟩, ⟨3, 1, 2⟩]
  viewTransactions := []

/-- The only note of the card has a settled spender that is no claim, but it is not the one that
is read.  The verified height is not below the range that is ignored. -/
theorem inspect_twiceSpent :
  ∃ evidence, inspect .first twiceSpent [1] ['a', 'a'] = .ok evidence
    ∧ evidence.allFundsSpentElsewhere = false
    ∧ twiceSpent.fundingNotes 1 = [⟨3, 1⟩]
    ∧ (∃ t ∈ twiceSpent.spenders ⟨3, 1⟩,
        twiceSpent.Settled t ∧ ¬ twiceSpent.IsClaim 1 ['a', 'a'] t)
    ∧ ∃ range ∈ twiceSpent.scanQueue, range.priority < 10
        ∧ ¬ evidence.verifiedHeight < range.blockRangeStart
  := by
  refine ⟨⟨false, [], [], 110⟩, by decide +kernel, rfl, by decide +kernel, ?_, ?_⟩
  · refine ⟨⟨2, [187], none, some 101, none, none⟩, by decide +kernel, by decide +kernel, ?_⟩
    rintro (hrequested | ⟨t, ht, -⟩)
    · revert hrequested
      decide +kernel
    · have hlocal : twiceSpent.localClaims 1 = [] := by decide +kernel
      rw [hlocal] at ht
      cases ht
  · exact ⟨⟨0, 50, 0⟩, by decide, by decide, by decide⟩

end PaymentLink

end Vizor
