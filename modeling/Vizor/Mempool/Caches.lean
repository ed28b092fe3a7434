import Vizor.Lib.QueueMap

/-!
# Caches of transaction ids

One cache keeps the last transactions that were told about.  Another one keeps those that are
nobody's, each for a while.
-/

namespace Vizor

namespace Mempool

/-- The bytes of a transaction id. -/
abbrev Txid := List UInt8

/-- Transaction ids are compared by their bytes. -/
scoped instance lawfulBEq_txid : LawfulBEq Txid := inferInstance

/-- The transactions that were told about. -/
structure TxidSeenCache extends QueueMap Txid Unit where
  maxLen : Nat

namespace TxidSeenCache

variable (c : TxidSeenCache) (txid : Txid)

def contains : Bool :=
  (c.entries txid).isSome

def insert : TxidSeenCache :=
  if c.maxLen = 0 ∨ c.contains txid then c
  else { c with toQueueMap := (c.toQueueMap.push txid ()).shrink c.maxLen }

end TxidSeenCache

/-- The transactions that are nobody's, and when they expire. -/
structure TxidTtlCache extends QueueMap Txid Nat where
  maxLen : Nat
  ttl : Nat

namespace TxidTtlCache

variable (c : TxidTtlCache) (txid : Txid) (now : Nat)

def pruneExpired : TxidTtlCache :=
  { c with toQueueMap := c.toQueueMap.prune (· ≤ now) }

def containsUnexpired : Bool × TxidTtlCache :=
  let pruned := c.pruneExpired now
  match pruned.entries txid with
  | some expiresAt =>
    if expiresAt > now then (true, pruned)
    else (false, { pruned with entries := Function.update pruned.entries txid none })
  | none => (false, pruned)

def insert : TxidTtlCache :=
  if c.maxLen = 0 then c
  else
    let pruned := c.pruneExpired now
    let expiresAt := now + c.ttl
    let inserted :=
      if (pruned.entries txid).isNone then pruned.toQueueMap.push txid expiresAt
      else { pruned.toQueueMap with
        entries := Function.update pruned.entries txid (some expiresAt) }
    { pruned with toQueueMap := inserted.shrink c.maxLen }

end TxidTtlCache

/-! ### Caches as ends of logs -/

/-- The cache holds the end of the log of what was told about. -/
structure TxidSeenCache.Holds (c : TxidSeenCache) (log : List Txid) : Prop where
  represents : c.toQueueMap.Represents ((Log.recent c.maxLen log).map fun txid => (txid, ()))
  spaced : Log.Spaced c.maxLen log

/-- The cache holds what was alive at a time of the end of the log of what is nobody's. -/
structure TxidTtlCache.Holds (c : TxidTtlCache) (log : List (Txid × Nat)) (now : Nat) : Prop where
  represents : c.toQueueMap.Represents
    (((Log.recent c.maxLen log).filter (Log.alive c.ttl now)).map fun e => (e.1, e.2 + c.ttl))
  timed : Log.Timed log
  past : ∀ e ∈ log, e.2 ≤ now

namespace TxidSeenCache

variable {c : TxidSeenCache} {log : List Txid} {txid : Txid}

theorem Holds.contains_iff (h : c.Holds log) :
  c.contains txid = true ↔ txid ∈ Log.recent c.maxLen log
  := by
  rw [contains, h.represents.isSome_iff, List.map_map]
  simp

theorem maxLen_insert :
  (c.insert txid).maxLen = c.maxLen
  := by
  rw [TxidSeenCache.insert]
  split_ifs <;> rfl

theorem Holds.insert (h : c.Holds log) (htxid : txid ∉ Log.recent c.maxLen log) :
  (c.insert txid).Holds (log ++ [txid])
  := by
  have hspaced := h.spaced.concat htxid
  rw [TxidSeenCache.insert]
  by_cases hc : c.maxLen = 0
  · rw [if_pos (.inl hc)]
    refine ⟨?_, hspaced⟩
    have hrepresents := h.represents
    rw [hc, Log.recent_zero] at hrepresents ⊢
    apply hrepresents
  · rw [if_neg (by rw [h.contains_iff, not_or]; exact ⟨hc, htxid⟩)]
    refine ⟨?_, hspaced⟩
    have hpushed := (h.represents.push (v := ()) (by simpa using htxid)).shrink c.maxLen
    have hlast : [(txid, ())] = [txid].map fun txid => (txid, ()) := rfl
    rw [hlast, ← List.map_append, ← Log.map_recent, Log.recent_append] at hpushed
    apply hpushed

end TxidSeenCache

namespace TxidTtlCache

variable {c : TxidTtlCache} {log : List (Txid × Nat)} {txid : Txid} {last now : Nat}

/-- What is dead at a time stays dead. -/
theorem alive_of_alive {ttl : Nat} {e : Txid × Nat} (h : last ≤ now)
    (he : Log.alive ttl now e = true) :
  Log.alive ttl last e = true
  := by
  simp only [Log.alive, decide_eq_true_eq] at he ⊢
  omega

theorem Holds.pruneExpired (h : c.Holds log last) (hnow : last ≤ now) :
  (c.pruneExpired now).Holds log now
  := by
  refine ⟨?_, h.timed, fun e he => Nat.le_trans (h.past e he) hnow⟩
  have hpruned := h.represents.prune (· ≤ now)
  rw [List.dropWhile_map] at hpruned
  have hdead : ((fun e : Txid × Nat => decide (e.2 ≤ now)) ∘ fun e : Txid × Nat =>
      (e.1, e.2 + c.ttl)) = fun e => !Log.alive c.ttl now e := by
    funext e
    simp only [Function.comp_apply, Log.alive, ← decide_not, Nat.not_lt]
  have htimed : Log.Timed ((Log.recent c.maxLen log).filter (Log.alive c.ttl last)) :=
    (h.timed.sublist Log.recent_sublist).sublist List.filter_sublist
  rw [hdead, Log.dropWhile_eq_filter htimed, List.filter_filter] at hpruned
  have halive : (Log.recent c.maxLen log).filter (fun e =>
        Log.alive c.ttl now e && Log.alive c.ttl last e)
      = (Log.recent c.maxLen log).filter (Log.alive c.ttl now) := by
    apply List.filter_congr
    intro e _
    cases he : Log.alive c.ttl now e with
    | true => rw [alive_of_alive hnow he, Bool.and_self]
    | false => rfl
  rw [halive] at hpruned
  apply hpruned

/-- A transaction is remembered as long as it is alive and among the last ones. -/
def isRemembered (maxLen ttl now : Nat) (log : List (Txid × Nat)) (txid : Txid) : Bool :=
  (Log.recent maxLen log).any fun e => e.1 = txid && Log.alive ttl now e

theorem maxLen_insert :
  (c.insert txid now).maxLen = c.maxLen
  := by
  rw [TxidTtlCache.insert]
  split_ifs <;> rfl

theorem ttl_insert :
  (c.insert txid now).ttl = c.ttl
  := by
  rw [TxidTtlCache.insert]
  split_ifs <;> rfl

theorem isRemembered_iff {maxLen ttl : Nat} :
  isRemembered maxLen ttl now log txid = true
    ↔ ∃ t, (txid, t) ∈ (Log.recent maxLen log).filter (Log.alive ttl now)
  := by
  rw [isRemembered, List.any_eq_true]
  constructor
  · rintro ⟨e, he, halive⟩
    rw [Bool.and_eq_true, decide_eq_true_eq] at halive
    obtain ⟨rfl, halive⟩ := halive
    exact ⟨e.2, List.mem_filter.mpr ⟨he, halive⟩⟩
  · rintro ⟨t, ht⟩
    obtain ⟨hmem, halive⟩ := List.mem_filter.mp ht
    exact ⟨(txid, t), hmem, by simpa using halive⟩

/-- What is forgotten stays forgotten. -/
theorem isRemembered_of_le {maxLen ttl : Nat} (h : last ≤ now)
    (hlast : isRemembered maxLen ttl last log txid = false) :
  isRemembered maxLen ttl now log txid = false
  := by
  rw [← Bool.not_eq_true, isRemembered_iff] at hlast ⊢
  rintro ⟨t, ht⟩
  obtain ⟨hmem, halive⟩ := List.mem_filter.mp ht
  apply hlast ⟨t, List.mem_filter.mpr ⟨hmem, alive_of_alive h halive⟩⟩

/-- What the cache has of a transaction. -/
theorem Holds.entry_iff (h : c.Holds log now) {expiresAt : Nat} :
  c.entries txid = some expiresAt
    ↔ ∃ t, (txid, t) ∈ (Log.recent c.maxLen log).filter (Log.alive c.ttl now)
      ∧ t + c.ttl = expiresAt
  := by
  rw [h.represents.entries, List.mem_map]
  constructor
  · rintro ⟨e, he, hsame⟩
    cases hsame
    exact ⟨e.2, he, rfl⟩
  · rintro ⟨t, ht, rfl⟩
    exact ⟨(txid, t), ht, rfl⟩

theorem Holds.containsUnexpired (h : c.Holds log last) (hnow : last ≤ now) :
  c.containsUnexpired txid now
    = (isRemembered c.maxLen c.ttl now log txid, c.pruneExpired now)
  := by
  have hpruned := h.pruneExpired hnow
  rw [TxidTtlCache.containsUnexpired]
  split
  case h_1 expiresAt hentry =>
    obtain ⟨t, ht, rfl⟩ := hpruned.entry_iff.mp hentry
    have hremembered : isRemembered c.maxLen c.ttl now log txid = true :=
      isRemembered_iff.mpr ⟨t, ht⟩
    have halive := (List.mem_filter.mp ht).2
    rw [Log.alive, decide_eq_true_eq] at halive
    rw [if_pos halive, hremembered]
  case h_2 hentry =>
    have hforgotten : isRemembered c.maxLen c.ttl now log txid = false := by
      rw [← Bool.not_eq_true, isRemembered_iff]
      rintro ⟨t, ht⟩
      rw [hpruned.entry_iff.mpr ⟨t, ht, rfl⟩] at hentry
      cases hentry
    rw [hforgotten]

theorem Holds.insert (h : c.Holds log last) (hnow : last ≤ now) (httl : 0 < c.ttl)
    (htxid : isRemembered c.maxLen c.ttl now log txid = false) :
  (c.insert txid now).Holds (log ++ [(txid, now)]) now
  := by
  have htimed : Log.Timed (log ++ [(txid, now)]) := by
    apply List.pairwise_append.mpr ⟨h.timed, List.pairwise_singleton _ _, _⟩
    intro e he e' he'
    rw [List.mem_singleton.mp he']
    apply Nat.le_trans (h.past e he) hnow
  have hpast : ∀ e ∈ log ++ [(txid, now)], e.2 ≤ now := by
    intro e he
    rcases List.mem_append.mp he with he | he
    · apply Nat.le_trans (h.past e he) hnow
    · apply Nat.le_of_eq (congrArg Prod.snd (List.mem_singleton.mp he))
  rw [TxidTtlCache.insert]
  by_cases hc : c.maxLen = 0
  · rw [if_pos hc]
    refine ⟨?_, htimed, hpast⟩
    have hrepresents := h.represents
    rw [hc, Log.recent_zero] at hrepresents ⊢
    apply hrepresents
  · rw [if_neg hc]
    refine ⟨?_, htimed, hpast⟩
    have hpruned := h.pruneExpired hnow
    have hrepresents : (c.pruneExpired now).toQueueMap.Represents
        (((Log.recent c.maxLen log).filter (Log.alive c.ttl now)).map
          fun e => (e.1, e.2 + c.ttl)) := hpruned.represents
    rw [← Bool.not_eq_true, isRemembered_iff] at htxid
    have hnone : (c.pruneExpired now).entries txid = none := by
      rw [Option.eq_none_iff_forall_ne_some]
      intro expiresAt hentry
      obtain ⟨t, ht, -⟩ := hpruned.entry_iff.mp hentry
      apply htxid ⟨t, ht⟩
    have hnew : txid ∉ (((Log.recent c.maxLen log).filter (Log.alive c.ttl now)).map
        fun e => (e.1, e.2 + c.ttl)).map (·.1) := by
      rw [List.map_map, List.mem_map]
      rintro ⟨e, he, rfl⟩
      apply htxid ⟨e.2, he⟩
    have hpushed := (hrepresents.push (v := now + c.ttl) hnew).shrink c.maxLen
    have hlast : [(txid, now + c.ttl)] = [(txid, now)].map fun e => (e.1, e.2 + c.ttl) := rfl
    have halive : Log.alive c.ttl now (txid, now) = true := by
      rw [Log.alive, decide_eq_true_eq]
      omega
    rw [hlast, ← List.map_append, ← Log.map_recent, Log.recent_filter_concat h.timed halive]
      at hpushed
    dsimp only
    rw [if_pos (by rw [hnone, Option.isNone_none])]
    apply hpushed

end TxidTtlCache

end Mempool

end Vizor
