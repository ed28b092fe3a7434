import Mathlib.Data.List.Sort
import Mathlib.Data.Prod.Lex
import Vizor.Lib.Topological

/-!
# The order of a resubmission

The pending transactions of a wallet are sent again, each after the pending ones whose
transparent outputs it spends.  The transactions that are ready wait in the order of their
txids; those of a cycle come last.
-/

namespace Vizor

open Topological

namespace Resubmit

/-! ### Candidates -/

/-- A pending transaction of the wallet, with the serialized transaction. -/
structure ResubmittableTx (Txid : Type) where
  txidBytes : Txid
  rawTx : List UInt8
  expiryHeight : Nat
  deriving DecidableEq, Repr

/-- An output of a transaction. -/
structure OutPoint (Txid : Type) where
  hash : Txid
  n : Nat
  deriving DecidableEq, Repr

/-- A transaction; the transparent bundle is the list of the outputs that it spends. -/
structure Transaction (Txid : Type) where
  txid : Txid
  transparentBundle : Option (List (OutPoint Txid))
  deriving DecidableEq, Repr

/-- A candidate in the order, with the in-set transactions it spends from. -/
structure OrderedResubmittableTx (Txid : Type) where
  tx : ResubmittableTx Txid
  parentTxids : List Txid
  deriving DecidableEq, Repr

variable {Txid : Type} [LinearOrder Txid]

/-- The index of the first candidate with a txid. -/
def byTxid (candidates : List (ResubmittableTx Txid)) (txid : Txid) : Option Nat :=
  candidates.findIdx? (·.txidBytes = txid)

/-- The transaction of a candidate, unless it cannot be read or has another txid. -/
def parsed (read : List UInt8 → Option (Transaction Txid)) (candidate : ResubmittableTx Txid) :
    Option (Transaction Txid) :=
  match read candidate.rawTx with
  | none => none
  | some transaction =>
    if transaction.txid ≠ candidate.txidBytes then none else some transaction

/-- The indexes of the candidates that a candidate spends from, each of them once. -/
def parents (read : List UInt8 → Option (Transaction Txid))
    (candidates : List (ResubmittableTx Txid)) (childIndex : Nat) : List Nat :=
  match candidates[childIndex]? with
  | none => []
  | some candidate =>
    match parsed read candidate with
    | none => []
    | some transaction =>
      match transaction.transparentBundle with
      | none => []
      | some vin => (vin.filterMap fun input => byTxid candidates input.hash).dedup

/-- The txids of the candidates that a candidate spends from. -/
def parentTxids (read : List UInt8 → Option (Transaction Txid))
    (candidates : List (ResubmittableTx Txid)) (childIndex : Nat) : List Txid :=
  ((parents read candidates childIndex).filterMap fun parentIndex =>
    candidates[parentIndex]?.map (·.txidBytes)).insertionSort (· ≤ ·)

/-- The indexes of the candidates that spend from a candidate. -/
def children (read : List UInt8 → Option (Transaction Txid))
    (candidates : List (ResubmittableTx Txid)) (parentIndex : Nat) : List Nat :=
  (List.range candidates.length).filter fun childIndex =>
    parentIndex ∈ parents read candidates childIndex

/-! ### The order -/

/-- What the loop keeps: the order so far, the number of parents that an index waits for, and
the indexes that are ready, by the txids of their candidates. -/
structure Progress (Txid : Type) where
  order : List Nat
  indegree : Nat → Nat
  ready : List (Txid ×ₗ Nat)

/-- Insert the index of a candidate into those that are ready. -/
def insertReady (candidates : List (ResubmittableTx Txid)) (ready : List (Txid ×ₗ Nat))
    (index : Nat) : List (Txid ×ₗ Nat) :=
  match candidates[index]? with
  | none => ready
  | some candidate =>
    let entry := toLex (candidate.txidBytes, index)
    if entry ∈ ready then ready else ready.orderedInsert (· ≤ ·) entry

/-- An index waits for one parent less. -/
def release (candidates : List (ResubmittableTx Txid)) (s : Progress Txid) (childIndex : Nat) :
    Progress Txid :=
  let waits := s.indegree childIndex - 1
  { s with
    indegree := Function.update s.indegree childIndex waits
    ready := if waits = 0 then insertReady candidates s.ready childIndex else s.ready }

/-- The indexes without parents are ready at first. -/
def initialProgress (read : List UInt8 → Option (Transaction Txid))
    (candidates : List (ResubmittableTx Txid)) : Progress Txid where
  order := []
  indegree index := (parents read candidates index).length
  ready := (List.range candidates.length).foldl
    (fun ready index =>
      if (parents read candidates index).length = 0 then insertReady candidates ready index
      else ready)
    []

/-- Take the first index that is ready, as long as there is one. -/
def drain (read : List UInt8 → Option (Transaction Txid))
    (candidates : List (ResubmittableTx Txid)) : Nat → Progress Txid → Progress Txid
  | 0, s => s
  | fuel + 1, s =>
    match s.ready with
    | [] => s
    | entry :: ready =>
      let index := (ofLex entry).2
      drain read candidates fuel
        ((children read candidates index).foldl (release candidates)
          { s with ready := ready, order := s.order ++ [index] })

/-- The order of the candidates that are not part of or after a cycle. -/
def emitted (read : List UInt8 → Option (Transaction Txid))
    (candidates : List (ResubmittableTx Txid)) : List Nat :=
  (drain read candidates candidates.length (initialProgress read candidates)).order

/-- The candidates of a cycle and after one, by txid. -/
def unresolved (candidates : List (ResubmittableTx Txid)) (order : List Nat) : List Nat :=
  let left := (List.range candidates.length).filter fun index => index ∉ order
  let entries := left.filterMap fun index =>
    candidates[index]?.map fun candidate => (candidate.txidBytes, index)
  (entries.insertionSort fun a b => a.1 ≤ b.1).map (·.2)

/-- The indexes of the candidates in the order in which they are sent. -/
def sendOrder (read : List UInt8 → Option (Transaction Txid))
    (candidates : List (ResubmittableTx Txid)) : List Nat :=
  let order := emitted read candidates
  if order.length ≠ candidates.length then order ++ unresolved candidates order else order

/-- The candidate of an index, with the txids of its parents. -/
def orderedAt (read : List UInt8 → Option (Transaction Txid))
    (candidates : List (ResubmittableTx Txid)) (index : Nat) :
    Option (OrderedResubmittableTx Txid) :=
  candidates[index]?.map fun tx => ⟨tx, parentTxids read candidates index⟩

/-- Order the candidates. -/
def orderResubmittableTransactions (read : List UInt8 → Option (Transaction Txid))
    (candidates : List (ResubmittableTx Txid)) : List (OrderedResubmittableTx Txid) :=
  (sendOrder read candidates).filterMap (orderedAt read candidates)

/-! ### Parents and children -/

section

variable {read : List UInt8 → Option (Transaction Txid)}
  {candidates : List (ResubmittableTx Txid)}

theorem lt_of_byTxid {txid : Txid} {index : Nat} (h : byTxid candidates txid = some index) :
  index < candidates.length
  := (List.findIdx?_eq_some_iff_getElem.mp h).1

theorem lt_of_mem_parents {childIndex parentIndex : Nat}
    (h : parentIndex ∈ parents read candidates childIndex) :
  parentIndex < candidates.length
  := by
  unfold parents at h
  split at h
  · simp at h
  · split at h
    · simp at h
    · split at h
      · simp at h
      · obtain ⟨input, _, hindex⟩ := List.mem_filterMap.mp (List.mem_dedup.mp h)
        apply lt_of_byTxid hindex

theorem child_lt_of_mem_parents {childIndex parentIndex : Nat}
    (h : parentIndex ∈ parents read candidates childIndex) :
  childIndex < candidates.length
  := by
  by_contra hnot
  rw [parents, List.getElem?_eq_none (Nat.le_of_not_lt hnot)] at h
  simp at h

theorem nodup_parents {childIndex : Nat} :
  (parents read candidates childIndex).Nodup
  := by
  unfold parents
  split
  · simp
  · split
    · simp
    · split
      · simp
      · apply List.nodup_dedup

theorem mem_children {childIndex parentIndex : Nat} :
  childIndex ∈ children read candidates parentIndex
    ↔ parentIndex ∈ parents read candidates childIndex
  := by
  rw [children, List.mem_filter, List.mem_range, decide_eq_true_iff]
  exact ⟨fun h => h.2, fun h => ⟨child_lt_of_mem_parents h, h⟩⟩

theorem nodup_children {parentIndex : Nat} :
  (children read candidates parentIndex).Nodup
  := List.nodup_range.filter _

/-! ### What is ready -/

/-- The entry of an index among those that are ready. -/
def entryAt (candidates : List (ResubmittableTx Txid)) (index : Nat) : Option (Txid ×ₗ Nat) :=
  candidates[index]?.map fun candidate => toLex (candidate.txidBytes, index)

omit [LinearOrder Txid] in
theorem index_of_entryAt {index : Nat} {entry : Txid ×ₗ Nat}
    (h : entryAt candidates index = some entry) :
  (ofLex entry).2 = index
  := by
  obtain ⟨candidate, _, rfl⟩ := Option.map_eq_some_iff.mp h
  rfl

omit [LinearOrder Txid] in
theorem exists_entryAt {index : Nat} (h : index < candidates.length) :
  ∃ entry, entryAt candidates index = some entry
  := ⟨_, by rw [entryAt, List.getElem?_eq_getElem h]; rfl⟩

theorem mem_insertReady {ready : List (Txid ×ₗ Nat)} {index : Nat} {entry : Txid ×ₗ Nat} :
  entry ∈ insertReady candidates ready index
    ↔ entry ∈ ready ∨ entryAt candidates index = some entry
  := by
  unfold insertReady entryAt
  split
  case h_1 hnone => simp [hnone]
  case h_2 candidate hsome =>
    dsimp only
    split
    case isTrue hmem =>
      simp only [hsome, Option.map_some, Option.some.injEq]
      constructor
      · exact .inl
      · rintro (h | rfl)
        · apply h
        · apply hmem
    case isFalse =>
      rw [List.mem_orderedInsert, hsome, Option.map_some, Option.some.injEq, or_comm, eq_comm]

theorem pairwise_orderedInsert {α : Type} [LinearOrder α] {xs : List α} {x : α}
    (h : xs.Pairwise (· < ·)) (hfresh : x ∉ xs) :
  (xs.orderedInsert (· ≤ ·) x).Pairwise (· < ·)
  := by
  induction xs with
  | nil => simp
  | cons y ys ih =>
    obtain ⟨hy, hys⟩ := List.pairwise_cons.mp h
    rw [List.mem_cons, not_or] at hfresh
    rw [List.orderedInsert_cons]
    split
    case isTrue hle =>
      have hlt := lt_of_le_of_ne hle hfresh.1
      rw [List.pairwise_cons]
      refine ⟨?_, h⟩
      intro z hz
      obtain rfl | hz := List.mem_cons.mp hz
      · apply hlt
      · apply hlt.trans (hy z hz)
    case isFalse hle =>
      rw [List.pairwise_cons]
      refine ⟨?_, ih hys hfresh.2⟩
      intro z hz
      obtain rfl | hz := (List.mem_orderedInsert (· ≤ ·)).mp hz
      · apply lt_of_not_ge hle
      · apply hy z hz

theorem pairwise_insertReady {ready : List (Txid ×ₗ Nat)} {index : Nat}
    (h : ready.Pairwise (· < ·)) :
  (insertReady candidates ready index).Pairwise (· < ·)
  := by
  unfold insertReady
  split
  · apply h
  · dsimp only
    split
    · apply h
    case isFalse hfresh =>
      apply pairwise_orderedInsert h hfresh

/-! ### One index after the other -/

/-- The candidates as a graph of their indexes. -/
def nodes (candidates : List (ResubmittableTx Txid)) : Set Nat :=
  {index | index < candidates.length}

/-- The parents of an index as a set. -/
def parentSet (read : List UInt8 → Option (Transaction Txid))
    (candidates : List (ResubmittableTx Txid)) (index : Nat) : Set Nat :=
  {parentIndex | parentIndex ∈ parents read candidates index}

/-- An index waits before another. -/
def Before (candidates : List (ResubmittableTx Txid)) (i j : Nat) : Prop :=
  ∀ a ∈ entryAt candidates i, ∀ b ∈ entryAt candidates j, a ≤ b

/-- What holds between two indexes of the order. -/
structure Sound (read : List UInt8 → Option (Transaction Txid))
    (candidates : List (ResubmittableTx Txid)) (s : Progress Txid) : Prop where
  greedy : Greedy (nodes candidates) (parentSet read candidates) (Before candidates) s.order
  sorted : s.ready.Pairwise (· < ·)
  mem_ready : ∀ entry, entry ∈ s.ready ↔ ∃ index, entryAt candidates index = some entry
    ∧ Available (nodes candidates) (parentSet read candidates) s.order index
  waits : ∀ index, s.indegree index
    = ((parents read candidates index).filter (· ∉ s.order)).length

theorem foldl_insertReady {p : Nat → Prop} [DecidablePred p] {indexes : List Nat}
    {ready : List (Txid ×ₗ Nat)} (hsorted : ready.Pairwise (· < ·)) :
  (indexes.foldl
    (fun ready index => if p index then insertReady candidates ready index else ready)
    ready).Pairwise (· < ·)
    ∧ ∀ entry, entry ∈ indexes.foldl
        (fun ready index => if p index then insertReady candidates ready index else ready) ready
      ↔ entry ∈ ready ∨ ∃ index ∈ indexes, p index ∧ entryAt candidates index = some entry
  := by
  induction indexes generalizing ready with
  | nil => exact ⟨hsorted, by simp⟩
  | cons index indexes ih =>
    rw [List.foldl_cons]
    split
    case isTrue hp =>
      obtain ⟨hnext, hmem⟩ := ih (@pairwise_insertReady _ _ _ _ index hsorted)
      refine ⟨hnext, ?_⟩
      intro entry
      rw [hmem, mem_insertReady]
      simp [hp, or_assoc]
    case isFalse hp =>
      obtain ⟨hnext, hmem⟩ := ih hsorted
      refine ⟨hnext, ?_⟩
      intro entry
      rw [hmem]
      simp [hp]

theorem sound_initialProgress :
  Sound read candidates (initialProgress read candidates)
  := by
  obtain ⟨hsorted, hmem⟩ := @foldl_insertReady Txid _ candidates
    (fun index => (parents read candidates index).length = 0) _
    (List.range candidates.length) [] List.Pairwise.nil
  refine ⟨.nil, hsorted, ?_, ?_⟩
  · intro entry
    rw [show entry ∈ (initialProgress read candidates).ready ↔ _ from hmem entry]
    constructor
    · rintro (h | ⟨index, hindex, hparents, hentry⟩)
      · simp at h
      · refine ⟨index, hentry, List.mem_range.mp hindex, List.not_mem_nil, ?_⟩
        intro p hp
        simp [parentSet, List.length_eq_zero_iff.mp hparents] at hp
    · rintro ⟨index, hentry, hnode, _, hready⟩
      refine .inr ⟨index, List.mem_range.mpr hnode, ?_, hentry⟩
      rw [List.length_eq_zero_iff, List.eq_nil_iff_forall_not_mem]
      intro p hp
      exact absurd (hready p hp) List.not_mem_nil
  · intro index
    simp [initialProgress]

/-- What releasing some indexes does. -/
theorem foldl_release {indexes : List Nat} (hnodup : indexes.Nodup) {s : Progress Txid}
    (hsorted : s.ready.Pairwise (· < ·)) :
  (indexes.foldl (release candidates) s).order = s.order
    ∧ (indexes.foldl (release candidates) s).ready.Pairwise (· < ·)
    ∧ (∀ index, (indexes.foldl (release candidates) s).indegree index
      = if index ∈ indexes then s.indegree index - 1 else s.indegree index)
    ∧ ∀ entry, entry ∈ (indexes.foldl (release candidates) s).ready
      ↔ entry ∈ s.ready ∨ ∃ index ∈ indexes, s.indegree index - 1 = 0
        ∧ entryAt candidates index = some entry
  := by
  induction indexes generalizing s with
  | nil => exact ⟨rfl, hsorted, by simp, by simp⟩
  | cons index indexes ih =>
    obtain ⟨hfresh, hnodup⟩ := List.nodup_cons.mp hnodup
    have hnext : (release candidates s index).ready.Pairwise (· < ·) := by
      dsimp only [release]
      split
      · apply pairwise_insertReady hsorted
      · apply hsorted
    obtain ⟨horder, hpairwise, hindegree, hmem⟩ := ih hnodup hnext
    refine ⟨horder, hpairwise, ?_, ?_⟩
    · intro other
      rw [List.foldl_cons, hindegree]
      obtain rfl | hne := eq_or_ne other index
      · simp [hfresh, release]
      · simp [hne, release]
    · intro entry
      have hothers : ∀ other ∈ indexes, (release candidates s index).indegree other
          = s.indegree other := by
        intro other hother
        have hne : other ≠ index := by
          rintro rfl
          apply hfresh hother
        simp [release, hne]
      have hready : entry ∈ (release candidates s index).ready
          ↔ entry ∈ s.ready ∨ s.indegree index - 1 = 0
            ∧ entryAt candidates index = some entry := by
        dsimp only [release]
        split
        case isTrue hzero => simp [mem_insertReady, hzero]
        case isFalse hzero => simp [hzero]
      rw [List.foldl_cons, hmem, hready, or_assoc]
      apply or_congr_right
      rw [List.exists_mem_cons_iff]
      apply or_congr_right
      apply exists_congr
      intro other
      apply and_congr_right
      intro hother
      rw [hothers other hother]

/-- A parent that is taken is waited for no more. -/
theorem length_filter_snoc {order : List Nat} {index child : Nat} (hfresh : index ∉ order) :
  ((parents read candidates child).filter (· ∉ order ++ [index])).length
    = if index ∈ parents read candidates child then
        ((parents read candidates child).filter (· ∉ order)).length - 1
      else ((parents read candidates child).filter (· ∉ order)).length
  := by
  have hfilter : (parents read candidates child).filter (· ∉ order ++ [index])
      = ((parents read candidates child).filter (· ∉ order)).erase index := by
    rw [(nodup_parents.filter _).erase_eq_filter, List.filter_filter]
    apply List.filter_congr
    intro p _
    simp [bne, Bool.and_comm, Bool.beq_eq_decide_eq]
  rw [hfilter]
  split
  case isTrue hmem =>
    apply List.length_erase_of_mem
    simp [hmem, hfresh]
  case isFalse hmem =>
    rw [List.erase_of_not_mem]
    simp [hmem]

/-- Taking the first index that is ready keeps what holds. -/
theorem Sound.step {s : Progress Txid} (h : Sound read candidates s) {entry : Txid ×ₗ Nat}
    {ready : List (Txid ×ₗ Nat)} (hready : s.ready = entry :: ready) :
  Sound read candidates
    ((children read candidates (ofLex entry).2).foldl (release candidates)
      { s with ready := ready, order := s.order ++ [(ofLex entry).2] })
  := by
  obtain ⟨index, hentry, havailable⟩ :=
    (h.mem_ready entry).mp (by rw [hready]; exact List.mem_cons_self)
  rw [index_of_entryAt hentry]
  have hsorted := h.sorted
  rw [hready, List.pairwise_cons] at hsorted
  obtain ⟨hleast, hrest⟩ := hsorted
  have hother : ∀ {other e}, entryAt candidates other = some e → e ≠ entry → other ≠ index := by
    rintro other e hother hne rfl
    rw [hentry] at hother
    apply hne (Option.some.inj hother).symm
  have hgreedy : Greedy (nodes candidates) (parentSet read candidates) (Before candidates)
      (s.order ++ [index]) := by
    apply Greedy.snoc h.greedy havailable
    intro other hav a ha b hb
    rw [Option.mem_def, hentry, Option.some.injEq] at ha
    subst ha
    have hmem := (h.mem_ready b).mpr ⟨other, hb, hav⟩
    rw [hready] at hmem
    obtain rfl | hmem := List.mem_cons.mp hmem
    · exact le_rfl
    · apply (hleast b hmem).le
  obtain ⟨horder, hpairwise, hindegree, hmem⟩ := @foldl_release Txid _ candidates _
    (@nodup_children _ _ read _ _) { s with ready := ready, order := s.order ++ [index] } hrest
  dsimp only at horder hindegree hmem
  have hwaits : ∀ child, (if child ∈ children read candidates index then s.indegree child - 1
      else s.indegree child)
        = ((parents read candidates child).filter (· ∉ s.order ++ [index])).length := by
    intro child
    rw [length_filter_snoc havailable.fresh, h.waits child]
    simp only [mem_children]
  refine ⟨?_, hpairwise, ?_, ?_⟩
  · rw [horder]
    apply hgreedy
  · intro e
    rw [hmem, horder]
    constructor
    · rintro (he | ⟨child, hchild, hzero, he⟩)
      · obtain ⟨other, hentry', hav⟩ :=
          (h.mem_ready e).mp (by rw [hready]; exact List.mem_cons_of_mem _ he)
        have hne := hother hentry' (hleast e he).ne'
        refine ⟨other, hentry', hav.node, ?_, ?_⟩
        · simp [hav.fresh, hne]
        · intro p hp
          apply List.mem_append_left _ (hav.ready p hp)
      · have hparent := mem_children.mp hchild
        have hall := hwaits child
        rw [if_pos hchild, hzero, eq_comm, List.length_eq_zero_iff, List.filter_eq_nil_iff] at hall
        refine ⟨child, he, child_lt_of_mem_parents hparent, ?_, ?_⟩
        · rw [List.mem_append, List.mem_singleton, not_or]
          constructor
          · intro hmem
            apply havailable.fresh (h.greedy.parents_mem hmem index hparent)
          · rintro rfl
            apply havailable.fresh (havailable.ready _ hparent)
        · intro p hp
          simpa [or_iff_not_imp_left] using hall p hp
    · rintro ⟨child, he, hnode, hfresh, hall⟩
      rw [List.mem_append, List.mem_singleton, not_or] at hfresh
      by_cases hparent : index ∈ parents read candidates child
      · right
        have hchild := mem_children.mpr hparent
        refine ⟨child, hchild, ?_, he⟩
        have hzero := hwaits child
        rw [if_pos hchild] at hzero
        rw [hzero, List.length_eq_zero_iff, List.filter_eq_nil_iff]
        intro p hp
        simpa [or_iff_not_imp_left] using hall p hp
      · left
        have hav : Available (nodes candidates) (parentSet read candidates) s.order child := by
          refine ⟨hnode, hfresh.1, ?_⟩
          intro p hp
          obtain hmem | hmem := List.mem_append.mp (hall p hp)
          · apply hmem
          · obtain rfl := List.mem_singleton.mp hmem
            exact absurd hp hparent
        have hmem := (h.mem_ready e).mpr ⟨child, he, hav⟩
        rw [hready] at hmem
        obtain rfl | hmem := List.mem_cons.mp hmem
        · rw [← index_of_entryAt hentry, index_of_entryAt he] at hfresh
          exact absurd rfl hfresh.2
        · apply hmem
  · intro child
    rw [hindegree, hwaits, horder]

/-! ### The whole order -/

theorem sound_drain {fuel : Nat} {s : Progress Txid} (h : Sound read candidates s) :
  Sound read candidates (drain read candidates fuel s)
  := by
  induction fuel generalizing s with
  | zero => exact h
  | succ fuel ih =>
    rw [drain]
    split
    · apply h
    case h_2 entry ready hready => exact ih (h.step hready)

/-- The loop ends, or it has taken as many indexes as it had fuel. -/
theorem drain_ends {fuel : Nat} {s : Progress Txid} (h : Sound read candidates s) :
  (drain read candidates fuel s).ready = []
    ∨ (drain read candidates fuel s).order.length = s.order.length + fuel
  := by
  induction fuel generalizing s with
  | zero => exact .inr rfl
  | succ fuel ih =>
    rw [drain]
    split
    case h_1 hready => exact .inl hready
    case h_2 entry ready hready =>
      have hsorted := h.sorted
      rw [hready] at hsorted
      obtain ⟨horder, _⟩ := @foldl_release Txid _ candidates _
        (@nodup_children _ _ read _ (ofLex entry).2)
        { s with ready := ready, order := s.order ++ [(ofLex entry).2] } hsorted.tail
      obtain hdone | hlength := ih (h.step hready)
      · exact .inl hdone
      · right
        rw [hlength, horder, List.length_append, List.length_singleton]
        omega

theorem greedy_emitted :
  Greedy (nodes candidates) (parentSet read candidates) (Before candidates)
    (emitted read candidates)
  := (sound_drain sound_initialProgress).greedy

theorem emitted_lt {index : Nat} (h : index ∈ emitted read candidates) :
  index < candidates.length
  := greedy_emitted.subset index h

omit [LinearOrder Txid] in
/-- A list of all the indexes has each of them. -/
theorem mem_of_length {order : List Nat} (hnodup : order.Nodup)
    (hlt : ∀ index ∈ order, index < candidates.length)
    (hlength : order.length = candidates.length) {index : Nat} (h : index < candidates.length) :
  index ∈ order
  := by
  have hsubperm : order.Subperm (List.range candidates.length) :=
    List.subperm_of_subset hnodup fun i hi => List.mem_range.mpr (hlt i hi)
  have hperm := hsubperm.perm_of_length_le (by rw [List.length_range, hlength])
  apply hperm.mem_iff.mpr (List.mem_range.mpr h)

/-- The order goes on until nothing is ready. -/
theorem not_available_emitted (index : Nat) :
  ¬ Available (nodes candidates) (parentSet read candidates) (emitted read candidates) index
  := by
  intro havailable
  have hsound : Sound read candidates
      (drain read candidates candidates.length (initialProgress read candidates)) :=
    sound_drain sound_initialProgress
  obtain hdone | hlength := @drain_ends _ _ _ _ candidates.length _
    (@sound_initialProgress _ _ read candidates)
  · obtain ⟨entry, hentry⟩ := exists_entryAt havailable.node
    have hmem := (hsound.mem_ready entry).mpr ⟨index, hentry, havailable⟩
    rw [hdone] at hmem
    simp at hmem
  · apply havailable.fresh
    apply mem_of_length hsound.greedy.nodup hsound.greedy.subset _ havailable.node
    rw [hlength]
    simp [initialProgress]

theorem sendOrder_eq :
  sendOrder read candidates
    = emitted read candidates ++ unresolved candidates (emitted read candidates)
  := by
  dsimp only [sendOrder]
  split
  · rfl
  case isFalse hlength =>
    have hnone : (List.range candidates.length).filter (· ∉ emitted read candidates) = [] := by
      rw [List.filter_eq_nil_iff]
      intro index hindex
      simpa using mem_of_length greedy_emitted.nodup greedy_emitted.subset
        (not_not.mp hlength) (List.mem_range.mp hindex)
    dsimp only [unresolved]
    rw [hnone, List.filterMap_nil, List.insertionSort_nil, List.map_nil, List.append_nil]

theorem unresolved_perm {order : List Nat} :
  (unresolved candidates order).Perm
    ((List.range candidates.length).filter fun index => index ∉ order)
  := by
  dsimp only [unresolved]
  apply ((List.perm_insertionSort _ _).map _).trans
  rw [List.map_filterMap]
  apply List.Perm.of_eq
  apply Eq.trans _ List.filterMap_some
  apply List.filterMap_congr
  intro index hindex
  have hlt := List.mem_range.mp (List.mem_filter.mp hindex).1
  simp [hlt]

/-- Every index is sent once. -/
theorem sendOrder_perm :
  (sendOrder read candidates).Perm (List.range candidates.length)
  := by
  have hunresolved := @unresolved_perm _ _ candidates (emitted read candidates)
  rw [sendOrder_eq, List.perm_ext_iff_of_nodup _ List.nodup_range]
  · intro index
    rw [List.mem_append, hunresolved.mem_iff, List.mem_filter]
    constructor
    · rintro (h | h)
      · apply List.mem_range.mpr (emitted_lt h)
      · apply h.1
    · intro h
      by_cases hmem : index ∈ emitted read candidates
      · exact .inl hmem
      · exact .inr ⟨h, by simpa using hmem⟩
  · rw [List.nodup_append]
    refine ⟨greedy_emitted.nodup, hunresolved.nodup_iff.mpr (List.nodup_range.filter _), ?_⟩
    rintro index hindex _ hother rfl
    have hnot := (List.mem_filter.mp (hunresolved.mem_iff.mp hother)).2
    simp [hindex] at hnot

/-- An index that does not depend on a cycle comes after its parents. -/
theorem sendOrder_topological {index : Nat} (h : index < candidates.length)
    (hacyclic : ¬ DependsOnCycle (parentSet read candidates) index) :
  ∃ before after, sendOrder read candidates = before ++ index :: after
    ∧ ∀ parentIndex ∈ parents read candidates index, parentIndex ∈ before
  := by
  obtain ⟨before, after, horder, hbefore⟩ :=
    (@greedy_emitted _ _ read candidates).topological
    (Set.finite_lt_nat candidates.length) (fun _ _ _ hp => lt_of_mem_parents hp)
    not_available_emitted h hacyclic
  refine ⟨before, after ++ unresolved candidates (emitted read candidates), ?_, hbefore⟩
  rw [sendOrder_eq, horder, List.append_assoc, List.cons_append]

theorem filterMap_getElem?_range {α : Type} (xs : List α) :
  (List.range xs.length).filterMap (fun i => xs[i]?) = xs
  := by
  induction xs with
  | nil => rfl
  | cons x xs ih =>
    rw [List.length_cons, List.range_succ_eq_map, List.filterMap_cons]
    simpa [List.filterMap_map, Function.comp_def] using ih

/-- The candidates are sent in another order. -/
theorem map_tx_perm :
  ((orderResubmittableTransactions read candidates).map (·.tx)).Perm candidates
  := by
  have htx : (fun index => (orderedAt read candidates index).map (·.tx))
      = fun index => candidates[index]? := by
    funext index
    simp [orderedAt, Function.comp_def]
  rw [orderResubmittableTransactions, List.map_filterMap, htx]
  conv_rhs => rw [← filterMap_getElem?_range candidates]
  apply sendOrder_perm.filterMap _

end

end Resubmit

end Vizor
