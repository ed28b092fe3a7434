import Vizor.Resubmit.Order

/-!
# A pass over the pending transactions

A pass sends the pending transactions in their order, and tries each of them again once.  A
transaction waits for another pass when one that it spends from was not accepted in this one.
With distinct txids the order does not depend on the order in which the candidates come.
-/

namespace Vizor

open Topological

namespace Resubmit

variable {Txid : Type} [LinearOrder Txid]

/-! ### The pass -/

/-- What comes back while a candidate is sent: whether to exit, and whether the transaction is
accepted, at first and when it is sent again. -/
structure Answers where
  exitBefore : Bool
  first : Bool
  exitBeforeRetry : Bool
  retry : Bool

structure ResubmitStats where
  attempted : Nat := 0
  succeeded : Nat := 0
  failed : Nat := 0
  deriving DecidableEq, Repr

/-- A transaction was sent, and accepted or not. -/
structure Sent (Txid : Type) where
  tx : ResubmittableTx Txid
  accepted : Bool
  deriving DecidableEq, Repr

/-- All parents of a candidate were accepted. -/
def resubmitDependenciesSucceeded (candidate : OrderedResubmittableTx Txid)
    (succeededTxids : List Txid) : Bool :=
  candidate.parentTxids.all (· ∈ succeededTxids)

/-- Send the candidates, where some txids were accepted already. -/
def resubmitFrom (answers : Nat → Answers) :
    Nat → List Txid → ResubmitStats → List (OrderedResubmittableTx Txid) →
      ResubmitStats × List (Sent Txid)
  | _, _, stats, [] => (stats, [])
  | index, succeededTxids, stats, candidate :: rest =>
    if (answers index).exitBefore then (stats, [])
    else if ¬ resubmitDependenciesSucceeded candidate succeededTxids then
      resubmitFrom answers (index + 1) succeededTxids { stats with failed := stats.failed + 1 } rest
    else if (answers index).first then
      let later := resubmitFrom answers (index + 1) (candidate.tx.txidBytes :: succeededTxids)
        { stats with succeeded := stats.succeeded + 1 } rest
      (later.1, ⟨candidate.tx, true⟩ :: later.2)
    else if (answers index).exitBeforeRetry then
      ({ stats with failed := stats.failed + 1 }, [⟨candidate.tx, false⟩])
    else if (answers index).retry then
      let later := resubmitFrom answers (index + 1) (candidate.tx.txidBytes :: succeededTxids)
        { stats with succeeded := stats.succeeded + 1 } rest
      (later.1, ⟨candidate.tx, false⟩ :: ⟨candidate.tx, true⟩ :: later.2)
    else
      let later := resubmitFrom answers (index + 1) succeededTxids
        { stats with failed := stats.failed + 1 } rest
      (later.1, ⟨candidate.tx, false⟩ :: ⟨candidate.tx, false⟩ :: later.2)

/-- Send the pending transactions that the wallet reads. -/
def resubmitPendingTransactions (read : List UInt8 → Option (Transaction Txid))
    (exitBeforeQuery : Bool) (query : Except String (List (ResubmittableTx Txid)))
    (answers : Nat → Answers) : ResubmitStats × List (Sent Txid) :=
  if exitBeforeQuery then ({}, [])
  else match query with
  | .error _ => ({}, [])
  | .ok candidates =>
    let candidates := orderResubmittableTransactions read candidates
    if candidates = [] then ({}, [])
    else resubmitFrom answers 0 [] { attempted := candidates.length } candidates

/-! ### What a candidate spends from -/

/-- The txids that a candidate spends from; none when its transaction cannot be read or has
another txid. -/
def spentTxids (read : List UInt8 → Option (Transaction Txid))
    (candidate : ResubmittableTx Txid) : List Txid :=
  (((parsed read candidate).bind (·.transparentBundle)).getD []).map (·.hash)

section

variable {read : List UInt8 → Option (Transaction Txid)}
  {candidates others : List (ResubmittableTx Txid)}

/-- The parents of a candidate are the first ones with the txids that it spends from. -/
theorem mem_parents_iff {index parentIndex : Nat} {candidate : ResubmittableTx Txid}
    (h : candidates[index]? = some candidate) :
  parentIndex ∈ parents read candidates index
    ↔ ∃ txid ∈ spentTxids read candidate, byTxid candidates txid = some parentIndex
  := by
  simp only [parents, h, spentTxids]
  cases parsed read candidate with
  | none => simp
  | some transaction =>
    cases htransparent : transaction.transparentBundle with
    | none => simp [htransparent]
    | some vin => simp [htransparent]

theorem txid_of_byTxid {txid : Txid} {index : Nat} (h : byTxid candidates txid = some index) :
  candidates[index]?.map (·.txidBytes) = some txid
  := by
  obtain ⟨hlt, htxid, _⟩ := List.findIdx?_eq_some_iff_getElem.mp h
  rw [List.getElem?_eq_getElem hlt, Option.map_some, of_decide_eq_true htxid]

theorem exists_byTxid_iff {txid : Txid} :
  (∃ index, byTxid candidates txid = some index) ↔ ∃ d ∈ candidates, d.txidBytes = txid
  := by
  rw [← Option.isSome_iff_exists, byTxid, List.findIdx?_isSome, List.any_eq_true]
  simp

theorem mem_parentTxids_iff {index : Nat} {candidate : ResubmittableTx Txid} {txid : Txid}
    (h : candidates[index]? = some candidate) :
  txid ∈ parentTxids read candidates index
    ↔ txid ∈ spentTxids read candidate ∧ ∃ d ∈ candidates, d.txidBytes = txid
  := by
  rw [parentTxids, List.mem_insertionSort, List.mem_filterMap, ← exists_byTxid_iff]
  constructor
  · rintro ⟨parentIndex, hparent, htxid⟩
    obtain ⟨spent, hspent, hby⟩ := (mem_parents_iff h).mp hparent
    rw [txid_of_byTxid hby, Option.some.injEq] at htxid
    subst htxid
    exact ⟨hspent, parentIndex, hby⟩
  · rintro ⟨hspent, parentIndex, hby⟩
    exact ⟨parentIndex, (mem_parents_iff h).mpr ⟨txid, hspent, hby⟩, txid_of_byTxid hby⟩

/-- A candidate has each of its parents' txids once. -/
theorem nodup_parentTxids {index : Nat} :
  (parentTxids read candidates index).Nodup
  := by
  rw [parentTxids, (List.perm_insertionSort _ _).nodup_iff]
  rw [List.Nodup, List.pairwise_filterMap]
  apply List.Pairwise.imp_of_mem _ (@nodup_parents _ _ read candidates index)
  intro p q hp hq hne txid hp' _ hq'
  rintro rfl
  have hlt := child_lt_of_mem_parents hp
  obtain ⟨spent, _, hby⟩ := (mem_parents_iff (List.getElem?_eq_getElem hlt)).mp hp
  obtain ⟨spent', _, hby'⟩ := (mem_parents_iff (List.getElem?_eq_getElem hlt)).mp hq
  rw [txid_of_byTxid hby, Option.some.injEq] at hp'
  rw [txid_of_byTxid hby', Option.some.injEq] at hq'
  rw [hp', ← hq', hby', Option.some.injEq] at hby
  apply hne hby.symm

/-- The txids of the parents do not depend on the order of the candidates. -/
theorem parentTxids_congr (hperm : candidates.Perm others) {index other : Nat}
    {candidate : ResubmittableTx Txid} (h : candidates[index]? = some candidate)
    (h' : others[other]? = some candidate) :
  parentTxids read candidates index = parentTxids read others other
  := by
  have hsame : (parentTxids read candidates index).Perm (parentTxids read others other) := by
    rw [List.perm_ext_iff_of_nodup nodup_parentTxids nodup_parentTxids]
    intro txid
    rw [mem_parentTxids_iff h, mem_parentTxids_iff h']
    simp only [hperm.mem_iff]
  apply List.Perm.eq_of_pairwise' (r := (· ≤ ·)) (List.pairwise_insertionSort _ _)
    (List.pairwise_insertionSort _ _) hsame

/-! ### Candidates with distinct txids -/

/-- The candidates in the order in which they are emitted. -/
def named (candidates : List (ResubmittableTx Txid)) (index : Nat) :
    Option (ResubmittableTx Txid) :=
  candidates[index]?

/-- The parents of a candidate, as candidates. -/
def parentCandidates (read : List UInt8 → Option (Transaction Txid))
    (candidates : List (ResubmittableTx Txid)) (child : Option (ResubmittableTx Txid)) :
    Set (Option (ResubmittableTx Txid)) :=
  {parent | ∃ c d, child = some c ∧ parent = some d ∧ d ∈ candidates
    ∧ d.txidBytes ∈ spentTxids read c}

/-- Candidates wait in the order of their txids. -/
def TxidBefore (a b : Option (ResubmittableTx Txid)) : Prop :=
  ∀ c ∈ a, ∀ d ∈ b, c.txidBytes ≤ d.txidBytes

omit [LinearOrder Txid] in
theorem image_named :
  named candidates '' nodes candidates = {c | ∃ d ∈ candidates, c = some d}
  := by
  ext c
  constructor
  · rintro ⟨index, hindex, rfl⟩
    exact ⟨_, List.getElem_mem hindex, List.getElem?_eq_getElem hindex⟩
  · rintro ⟨d, hd, rfl⟩
    obtain ⟨index, hindex, rfl⟩ := List.getElem_of_mem hd
    exact ⟨index, hindex, List.getElem?_eq_getElem hindex⟩

omit [LinearOrder Txid] in
/-- With distinct txids an index is known from the txid of its candidate. -/
theorem index_inj (hdistinct : (candidates.map (·.txidBytes)).Nodup) {i j : Nat}
    {c d : ResubmittableTx Txid} (hi : candidates[i]? = some c) (hj : candidates[j]? = some d)
    (htxid : c.txidBytes = d.txidBytes) :
  i = j
  := by
  obtain ⟨hlt, rfl⟩ := List.getElem?_eq_some_iff.mp hi
  obtain ⟨hlt', rfl⟩ := List.getElem?_eq_some_iff.mp hj
  apply (@List.Nodup.getElem_inj_iff _ _ hdistinct _ (by simpa) _ (by simpa)).mp (by simpa)

theorem byTxid_eq_iff (hdistinct : (candidates.map (·.txidBytes)).Nodup) {index : Nat}
    {c : ResubmittableTx Txid} (h : candidates[index]? = some c) {txid : Txid} :
  byTxid candidates txid = some index ↔ txid = c.txidBytes
  := by
  constructor
  · intro hby
    have := txid_of_byTxid hby
    rw [h, Option.map_some, Option.some.injEq] at this
    apply this.symm
  · rintro rfl
    obtain ⟨other, hother⟩ := exists_byTxid_iff.mpr ⟨c, List.mem_of_getElem? h, rfl⟩
    have htxid := txid_of_byTxid hother
    obtain ⟨d, hd, hsame⟩ := Option.map_eq_some_iff.mp htxid
    rw [hother, index_inj hdistinct h hd hsame.symm]

/-- With distinct txids the emitted candidates are a greedy order of the candidates. -/
theorem greedy_named (hdistinct : (candidates.map (·.txidBytes)).Nodup) :
  Greedy {c | ∃ d ∈ candidates, c = some d} (parentCandidates read candidates) TxidBefore
      ((emitted read candidates).map (named candidates))
    ∧ ∀ c, ¬ Available {c | ∃ d ∈ candidates, c = some d} (parentCandidates read candidates)
      ((emitted read candidates).map (named candidates)) c
  := by
  have hinj : Set.InjOn (named candidates) (nodes candidates) := by
    intro i hi j hj heq
    rw [named, named, List.getElem?_eq_getElem hi, List.getElem?_eq_getElem hj,
      Option.some.injEq] at heq
    apply index_inj hdistinct (List.getElem?_eq_getElem hi) (List.getElem?_eq_getElem hj)
      (congrArg _ heq)
  have hparents : ∀ i ∈ nodes candidates, parentSet read candidates i ⊆ nodes candidates :=
    fun _ _ _ hp => lt_of_mem_parents hp
  have hparents' : ∀ i ∈ nodes candidates, parentCandidates read candidates (named candidates i)
      = named candidates '' parentSet read candidates i := by
    intro i hi
    have hc := List.getElem?_eq_getElem hi
    ext parent
    constructor
    · rintro ⟨c, d, hchild, rfl, hd, hspent⟩
      rw [named, hc, Option.some.injEq] at hchild
      subst hchild
      obtain ⟨p, hp, rfl⟩ := List.getElem_of_mem hd
      have hd' := List.getElem?_eq_getElem hp
      exact ⟨p, (mem_parents_iff hc).mpr ⟨_, hspent, (byTxid_eq_iff hdistinct hd').mpr rfl⟩, hd'⟩
    · rintro ⟨p, hp, rfl⟩
      have hd := List.getElem?_eq_getElem (lt_of_mem_parents hp)
      obtain ⟨txid, hspent, hby⟩ := (mem_parents_iff hc).mp hp
      rw [(byTxid_eq_iff hdistinct hd).mp hby] at hspent
      exact ⟨_, _, hc, hd, List.getElem_mem _, hspent⟩
  have hbefore : ∀ i ∈ nodes candidates, ∀ j ∈ nodes candidates, Before candidates i j →
      TxidBefore (named candidates i) (named candidates j) := by
    intro i _ j _ h c hc d hd
    rw [named, Option.mem_def] at hc hd
    have hle := h (toLex (c.txidBytes, i)) (by simp [entryAt, hc]) (toLex (d.txidBytes, j))
      (by simp [entryAt, hd])
    apply (Prod.Lex.toLex_le_toLex.mp hle).elim le_of_lt fun h => h.1.le
  rw [← image_named]
  refine ⟨greedy_emitted.map hinj hparents hparents' hbefore, ?_⟩
  intro c hc
  obtain ⟨index, _, hindex⟩ :=
    (available_map_iff hinj hparents hparents' greedy_emitted.subset).mp hc
  apply not_available_emitted index hindex

/-- With distinct txids the same candidates are emitted in the same order. -/
theorem emitted_congr (hdistinct : (candidates.map (·.txidBytes)).Nodup)
    (hperm : candidates.Perm others) :
  (emitted read candidates).map (named candidates) = (emitted read others).map (named others)
  := by
  have hdistinct' : (others.map (·.txidBytes)).Nodup := (hperm.map _).nodup_iff.mp hdistinct
  have hnodes : {c | ∃ d ∈ others, c = some d} = {c | ∃ d ∈ candidates, c = some d} := by
    simp only [hperm.mem_iff]
  have hparents : parentCandidates read others = parentCandidates read candidates := by
    unfold parentCandidates
    simp only [hperm.mem_iff]
  obtain ⟨hgreedy, hdone⟩ := @greedy_named _ _ read _ hdistinct
  obtain ⟨hgreedy', hdone'⟩ := @greedy_named _ _ read _ hdistinct'
  rw [hnodes, hparents] at hgreedy' hdone'
  refine hgreedy.unique ?_ hdone hgreedy' hdone'
  rintro _ ⟨c, hc, rfl⟩ _ ⟨d, hd, rfl⟩ hcd hdc
  have htxid := le_antisymm (hcd c rfl d rfl) (hdc d rfl c rfl)
  rw [List.inj_on_of_nodup_map hdistinct hc hd htxid]

theorem map_named_sendOrder_perm :
  ((sendOrder read candidates).map (named candidates)).Perm (candidates.map some)
  := by
  apply (sendOrder_perm.map _).trans
  apply List.Perm.of_eq
  apply List.ext_getElem
  · simp
  · intro i hi hi'
    simp only [List.length_map, List.length_range] at hi
    simp [named, hi]

theorem lt_of_mem_unresolved {order : List Nat} {index : Nat}
    (h : index ∈ unresolved candidates order) :
  index < candidates.length
  := List.mem_range.mp (List.mem_filter.mp (unresolved_perm.mem_iff.mp h)).1

/-- The candidates of a cycle and after one come by txid. -/
theorem pairwise_unresolved {order : List Nat} :
  ((unresolved candidates order).map (named candidates)).Pairwise TxidBefore
  := by
  dsimp only [unresolved]
  rw [List.map_map, List.pairwise_map]
  apply List.Pairwise.imp_of_mem _ (List.pairwise_insertionSort _ _)
  intro a b ha hb hab c hc d hd
  obtain ⟨i, _, ha⟩ := List.mem_filterMap.mp ((List.mem_insertionSort _).mp ha)
  obtain ⟨j, _, hb⟩ := List.mem_filterMap.mp ((List.mem_insertionSort _).mp hb)
  obtain ⟨c', hc', rfl⟩ := Option.map_eq_some_iff.mp ha
  obtain ⟨d', hd', rfl⟩ := Option.map_eq_some_iff.mp hb
  rw [Function.comp_apply, named, hc', Option.mem_def, Option.some.injEq] at hc
  rw [Function.comp_apply, named, hd', Option.mem_def, Option.some.injEq] at hd
  subst hc hd
  apply hab

/-- With distinct txids the candidates are sent in the same order, whatever the order in which
they come. -/
theorem sendOrder_congr (hdistinct : (candidates.map (·.txidBytes)).Nodup)
    (hperm : candidates.Perm others) :
  (sendOrder read candidates).map (named candidates) = (sendOrder read others).map (named others)
  := by
  have hall : ((sendOrder read candidates).map (named candidates)).Perm
      ((sendOrder read others).map (named others)) :=
    map_named_sendOrder_perm.trans ((hperm.map some).trans map_named_sendOrder_perm.symm)
  rw [sendOrder_eq, sendOrder_eq, List.map_append, List.map_append,
    emitted_congr hdistinct hperm] at hall ⊢
  congr 1
  apply List.Perm.eq_of_pairwise _ pairwise_unresolved pairwise_unresolved
    ((List.perm_append_left_iff _).mp hall)
  intro c d hc hd hcd hdc
  obtain ⟨i, hi, rfl⟩ := List.mem_map.mp hc
  obtain ⟨j, hj, rfl⟩ := List.mem_map.mp hd
  have hi' := List.getElem?_eq_getElem (lt_of_mem_unresolved hi)
  have hj' := List.getElem?_eq_getElem (lt_of_mem_unresolved hj)
  have htxid := le_antisymm (hcd _ hi' _ hj') (hdc _ hj' _ hi')
  rw [named, named, hi', hj', Option.some.injEq]
  apply List.inj_on_of_nodup_map hdistinct (List.getElem_mem _) _ htxid
  apply hperm.mem_iff.mpr (List.getElem_mem _)

/-- With distinct txids the result does not depend on the order of the candidates. -/
theorem orderResubmittableTransactions_congr (hdistinct : (candidates.map (·.txidBytes)).Nodup)
    (hperm : candidates.Perm others) :
  orderResubmittableTransactions read candidates = orderResubmittableTransactions read others
  := by
  have hsame := List.forall₂_eq_eq_eq ▸ @sendOrder_congr _ _ read _ _ hdistinct hperm
  rw [List.forall₂_map_left_iff, List.forall₂_map_right_iff] at hsame
  have hentries : (sendOrder read candidates).map (orderedAt read candidates)
      = (sendOrder read others).map (orderedAt read others) := by
    rw [← List.forall₂_eq_eq_eq, List.forall₂_map_left_iff, List.forall₂_map_right_iff]
    apply hsame.imp
    intro i j hij
    unfold named at hij
    unfold orderedAt
    cases hi : candidates[i]? with
    | none => rw [← hij, hi, Option.map_none, Option.map_none]
    | some candidate =>
      have hj := hij.symm.trans hi
      rw [hj, Option.map_some, Option.map_some, parentTxids_congr hperm hi hj]
  have hreduce := congrArg (List.filterMap id) hentries
  rwa [List.filterMap_map, List.filterMap_map] at hreduce

/-! ### What is sent -/

/-- What a pass does with its first candidate: it sends the candidate some times, if all its
parents were accepted, and stops or goes on with the others. -/
theorem resubmitFrom_cons {answers : Nat → Answers} {index : Nat} {succeededTxids : List Txid}
    {stats : ResubmitStats} {candidate : OrderedResubmittableTx Txid}
    {rest : List (OrderedResubmittableTx Txid)} :
  ∃ own tail,
    (resubmitFrom answers index succeededTxids stats (candidate :: rest)).2 = own ++ tail
    ∧ (∀ sent ∈ own, sent.tx = candidate.tx ∧ ∀ txid ∈ candidate.parentTxids,
      txid ∈ succeededTxids)
    ∧ (tail = [] ∨ ∃ succeededTxids' stats',
      tail = (resubmitFrom answers (index + 1) succeededTxids' stats' rest).2
        ∧ ∀ txid ∈ succeededTxids', txid ∈ succeededTxids
          ∨ ∃ sent ∈ own, sent.accepted = true ∧ sent.tx.txidBytes = txid)
  := by
  rw [resubmitFrom]
  split
  · exact ⟨[], [], rfl, by simp, .inl rfl⟩
  · split
    · exact ⟨[], _, rfl, by simp, .inr ⟨_, _, rfl, fun _ h => .inl h⟩⟩
    case isFalse hall =>
      have hparents : ∀ txid ∈ candidate.parentTxids, txid ∈ succeededTxids := by
        intro txid htxid
        simpa using List.all_eq_true.mp (not_not.mp hall) txid htxid
      have hsucceeded : ∀ (own : List (Sent Txid)), ⟨candidate.tx, true⟩ ∈ own →
          ∀ txid ∈ candidate.tx.txidBytes :: succeededTxids, txid ∈ succeededTxids
            ∨ ∃ sent ∈ own, sent.accepted = true ∧ sent.tx.txidBytes = txid := by
        intro own hown txid htxid
        obtain rfl | hmem := List.mem_cons.mp htxid
        · exact .inr ⟨_, hown, rfl, rfl⟩
        · exact .inl hmem
      split
      · refine ⟨[⟨candidate.tx, true⟩], _, rfl, by simpa using hparents, .inr ⟨_, _, rfl, ?_⟩⟩
        apply hsucceeded
        simp
      · split
        · exact ⟨[⟨candidate.tx, false⟩], [], rfl, by simpa using hparents, .inl rfl⟩
        · split
          · refine ⟨[⟨candidate.tx, false⟩, ⟨candidate.tx, true⟩], _, rfl, by simpa using hparents,
              .inr ⟨_, _, rfl, ?_⟩⟩
            apply hsucceeded
            simp
          · exact ⟨[⟨candidate.tx, false⟩, ⟨candidate.tx, false⟩], _, rfl, by simpa using hparents,
              .inr ⟨_, _, rfl, fun _ h => .inl h⟩⟩

/-- A transaction is sent after all its parents were accepted. -/
theorem accepted_of_resubmitFrom {answers : Nat → Answers} {index : Nat}
    {succeededTxids : List Txid} {stats : ResubmitStats}
    {ordered : List (OrderedResubmittableTx Txid)} {before later : List (Sent Txid)}
    {sent : Sent Txid}
    (h : (resubmitFrom answers index succeededTxids stats ordered).2 = before ++ sent :: later) :
  ∃ candidate ∈ ordered, candidate.tx = sent.tx ∧ ∀ txid ∈ candidate.parentTxids,
    txid ∈ succeededTxids
      ∨ ∃ earlier ∈ before, earlier.accepted = true ∧ earlier.tx.txidBytes = txid
  := by
  induction ordered generalizing index succeededTxids stats before with
  | nil => simp [resubmitFrom] at h
  | cons candidate rest ih =>
    obtain ⟨own, tail, hevents, hown, htail⟩ := @resubmitFrom_cons Txid _ answers index
      succeededTxids stats candidate rest
    rw [hevents] at h
    have hsplit : (∃ before', before = own ++ before' ∧ tail = before' ++ sent :: later)
        ∨ sent ∈ own := by
      obtain hlater | ⟨rest', rfl, hrest⟩ := List.append_eq_append_iff.mp h
      · exact .inl hlater
      · cases rest' with
        | nil => exact .inl ⟨[], by simp, hrest.symm⟩
        | cons first rest' =>
          obtain ⟨rfl, _⟩ := List.cons.inj hrest
          right
          simp
    obtain ⟨before', rfl, hlater⟩ | hnow := hsplit
    · obtain rfl | ⟨succeededTxids', stats', rfl, hsucceeded⟩ := htail
      · simp at hlater
      · obtain ⟨c, hc, htx, hparents⟩ := ih hlater
        refine ⟨c, List.mem_cons_of_mem _ hc, htx, ?_⟩
        intro txid htxid
        obtain hmem | ⟨earlier, hearlier, hfound⟩ := hparents txid htxid
        · obtain hmem | ⟨earlier, hearlier, hfound⟩ := hsucceeded txid hmem
          · exact .inl hmem
          · exact .inr ⟨earlier, List.mem_append_left _ hearlier, hfound⟩
        · exact .inr ⟨earlier, List.mem_append_right _ hearlier, hfound⟩
    · obtain ⟨htx, hparents⟩ := hown sent hnow
      exact ⟨candidate, List.mem_cons_self, htx.symm, fun txid htxid => .inl (hparents txid htxid)⟩

/-- In a pass, a transaction is sent after a transaction with each in-set txid that it spends
from was accepted. -/
theorem accepted_of_resubmitPending {exitBeforeQuery : Bool} {answers : Nat → Answers}
    {before later : List (Sent Txid)} {sent : Sent Txid}
    (h : (resubmitPendingTransactions read exitBeforeQuery (.ok candidates) answers).2
      = before ++ sent :: later) :
  ∀ txid ∈ spentTxids read sent.tx, (∃ d ∈ candidates, d.txidBytes = txid) →
    ∃ earlier ∈ before, earlier.accepted = true ∧ earlier.tx.txidBytes = txid
  := by
  unfold resubmitPendingTransactions at h
  split at h
  · simp at h
  · dsimp only at h
    split at h
    · simp at h
    · obtain ⟨ordered, hordered, htx, hparents⟩ := accepted_of_resubmitFrom h
      obtain ⟨index, _, hindex⟩ := List.mem_filterMap.mp hordered
      obtain ⟨candidate, hcandidate, rfl⟩ := Option.map_eq_some_iff.mp hindex
      dsimp only at htx hparents
      subst htx
      intro txid hspent hinset
      have hmem := (mem_parentTxids_iff hcandidate).mpr ⟨hspent, hinset⟩
      simpa using hparents txid hmem

end

/-! ### The order and the pass -/

/-- The candidates are sent in another order, in which each that does not depend on a cycle
comes after the first candidate with each txid that it spends from.  With distinct txids the
order does not depend on the one in which they come.  In every pass, a transaction is sent
after one with each in-set txid that it spends from was accepted. -/
theorem orderResubmittableTransactions_spec (read : List UInt8 → Option (Transaction Txid))
    (candidates : List (ResubmittableTx Txid)) :
  ((orderResubmittableTransactions read candidates).map (·.tx)).Perm candidates
    ∧ (∃ order : List Nat, order.Perm (List.range candidates.length)
      ∧ orderResubmittableTransactions read candidates = order.filterMap (orderedAt read candidates)
      ∧ ∀ (index : Nat) (candidate : ResubmittableTx Txid), candidates[index]? = some candidate →
        ¬ DependsOnCycle (parentSet read candidates) index →
        ∃ before after, order = before ++ index :: after
          ∧ ∀ txid ∈ spentTxids read candidate, ∀ parentIndex ∈ byTxid candidates txid,
            parentIndex ∈ before)
    ∧ (∀ others, candidates.Perm others → (candidates.map (·.txidBytes)).Nodup →
      orderResubmittableTransactions read candidates = orderResubmittableTransactions read others)
    ∧ ∀ exitBeforeQuery answers before sent later,
      (resubmitPendingTransactions read exitBeforeQuery (.ok candidates) answers).2
          = before ++ sent :: later →
        ∀ txid ∈ spentTxids read sent.tx, (∃ d ∈ candidates, d.txidBytes = txid) →
          ∃ earlier ∈ before, earlier.accepted = true ∧ earlier.tx.txidBytes = txid
  := by
  refine ⟨map_tx_perm, ⟨sendOrder read candidates, sendOrder_perm, rfl, ?_⟩, ?_, ?_⟩
  · intro index candidate hcandidate hacyclic
    obtain ⟨hlt, _⟩ := List.getElem?_eq_some_iff.mp hcandidate
    obtain ⟨before, after, horder, hbefore⟩ := sendOrder_topological hlt hacyclic
    refine ⟨before, after, horder, ?_⟩
    intro txid hspent parentIndex hby
    apply hbefore parentIndex ((mem_parents_iff hcandidate).mpr ⟨txid, hspent, hby⟩)
  · intro others hperm hdistinct
    apply orderResubmittableTransactions_congr hdistinct hperm
  · intro exitBeforeQuery answers before sent later h
    apply accepted_of_resubmitPending h

/-! ### A txid that occurs twice -/

/-- A transaction without parents, and one that spends from it. -/
def sampleRead (raw : List UInt8) : Option (Transaction Nat) :=
  if raw = [2] then some ⟨2, none⟩ else if raw = [1] then some ⟨1, some [⟨2, 0⟩]⟩ else none

/-- The parent occurs twice. -/
def sampleCandidates : List (ResubmittableTx Nat) :=
  [⟨2, [2], 100⟩, ⟨2, [2], 100⟩, ⟨1, [1], 100⟩]

/-- The child is sent between the two candidates with the txid that it spends from. -/
theorem orderResubmittableTransactions_twice :
  (orderResubmittableTransactions sampleRead sampleCandidates).map (·.tx)
      = [⟨2, [2], 100⟩, ⟨1, [1], 100⟩, ⟨2, [2], 100⟩]
    ∧ 2 ∈ spentTxids sampleRead ⟨1, [1], 100⟩
    ∧ ¬ DependsOnCycle (parentSet sampleRead sampleCandidates) 2
  := by
  refine ⟨by decide, by decide, ?_⟩
  have hdown : ∀ child parent, parent ∈ parents sampleRead sampleCandidates child →
      parent < child := by
    intro child parent h
    have hlt : child < 3 := child_lt_of_mem_parents h
    match child with
    | 0 => simp [show parents sampleRead sampleCandidates 0 = [] by decide] at h
    | 1 => simp [show parents sampleRead sampleCandidates 1 = [] by decide] at h
    | 2 =>
      obtain rfl : parent = 0 := by
        simpa [show parents sampleRead sampleCandidates 2 = [0] by decide] using h
      decide
    | n + 3 => omega
  have hless : ∀ i j, Relation.TransGen
      (fun c p => p ∈ parentSet sampleRead sampleCandidates c) i j → j < i := by
    intro i j h
    induction h with
    | single h => exact hdown _ _ h
    | tail _ h ih => exact (hdown _ _ h).trans ih
  rintro ⟨index, _, hcycle⟩
  apply lt_irrefl index (hless index index hcycle)

end Resubmit

end Vizor
