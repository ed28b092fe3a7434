import Vizor.Lib.Hex
import Vizor.Mempool.Caches
import Mathlib.Data.List.Dedup
import Mathlib.Data.List.Sort

/-!
# The mempool observer

Every transaction of the mempool is looked up in the wallet, and decrypted on trial if the wallet
does not know it.  One cache keeps what was told about from being told again, another keeps what
is nobody's from being decrypted again for a while.
-/

namespace Vizor

namespace Mempool

/-! ### Messages and events -/

/-- The id as it is shown: the last byte comes first. -/
def txidHex (txid : Txid) : String :=
  String.ofList (Hex.encode txid.reverse)

structure MempoolTxEvent where
  txidHex : String
  accountUuids : List String
  isMatched : Bool
  deriving DecidableEq, Repr

structure KnownPendingTx where
  isMatched : Bool
  accountUuids : List String
  deriving DecidableEq, Repr

/-- A message, and what the wallet and the clock answer to it. -/
structure Message where
  /-- The id, where the transaction can be read. -/
  txid : Option Txid
  known : Except String KnownPendingTx
  /-- The accounts for which something is decrypted. -/
  trialDecrypt : Except String (List String)
  store : Except String Unit
  /-- When the cache is asked. -/
  now : Nat
  /-- When the decryption is done. -/
  later : Nat

/-- The accounts of two lists, and whether the second one has a new one. -/
def mergeAccountUuids (known decrypted : List String) : List String × Bool :=
  ((known ++ decrypted).dedup.insertionSort (· ≤ ·), decrypted.any (· ∉ known))

/-- The accounts that are told where the wallet knows the transaction. -/
def Message.knownAccountUuids (m : Message) (known : KnownPendingTx) : List String :=
  let decrypted := match m.trialDecrypt with
    | .ok accounts => accounts
    | .error _ => []
  let (accountUuids, hasNewAccount) := mergeAccountUuids known.accountUuids decrypted
  if hasNewAccount && m.store.isOk then accountUuids else known.accountUuids

/-! ### The observer -/

/-- The caches of an observer. -/
structure Observer where
  seen : TxidSeenCache
  unmatched : TxidTtlCache

/-- Ten seconds, in nanoseconds. -/
def unmatchedTxidTtl : Nat := 10000000000

/-- How many transactions a cache keeps. -/
def cacheLen : Nat := 2048

/-- The caches at the start. -/
def Observer.new : Observer :=
  { seen := { maxLen := cacheLen }
    unmatched := { maxLen := cacheLen, ttl := unmatchedTxidTtl } }

namespace Observer

variable (o : Observer)

def emitWalletRelevantTx (txid : Txid) (accountUuids : List String) :
    Observer × Option MempoolTxEvent :=
  ({ o with seen := o.seen.insert txid },
    some { txidHex := txidHex txid, accountUuids, isMatched := true })

/-- A transaction that the wallet knows. -/
def handleKnown (txid : Txid) (known : KnownPendingTx) (m : Message) :
    Observer × Option MempoolTxEvent :=
  o.emitWalletRelevantTx txid (m.knownAccountUuids known)

/-- A transaction that the wallet does not know. -/
def handleUnknown (txid : Txid) (m : Message) : Observer × Option MempoolTxEvent :=
  let (isSkipped, unmatched) := o.unmatched.containsUnexpired txid m.now
  let o := { o with unmatched }
  if isSkipped then (o, none)
  else
    match m.trialDecrypt with
    | .error _ => (o, none)
    | .ok [] => ({ o with unmatched := o.unmatched.insert txid m.later }, none)
    | .ok accountUuids =>
      match m.store with
      | .error _ => (o, none)
      | .ok _ => o.emitWalletRelevantTx txid accountUuids

def handleMempoolTx (m : Message) : Observer × Option MempoolTxEvent :=
  match m.txid with
  | none => (o, none)
  | some txid =>
    if o.seen.contains txid then (o, none)
    else
      match m.known with
      | .error _ => (o, none)
      | .ok known =>
        if known.isMatched || known.accountUuids ≠ [] then o.handleKnown txid known m
        else o.handleUnknown txid m

/-- The events of messages, one after the other. -/
def events (o : Observer) : List Message → List (Option MempoolTxEvent)
  | [] => []
  | m :: ms => (o.handleMempoolTx m).2 :: events (o.handleMempoolTx m).1 ms

/-- The caches after messages. -/
def afterMessages (ms : List Message) : Observer :=
  ms.foldl (fun o m => (o.handleMempoolTx m).1) o

end Observer

/-! ### An observer that forgets nothing -/

/-- What a transaction turns out to be. -/
inductive Verdict where
  /-- The wallet knew it. -/
  | known (accountUuids : List String)
  /-- The wallet did not know it, and stored it. -/
  | found (accountUuids : List String)
  | nobodys
  | failed
  deriving DecidableEq

def Message.unknownVerdict (m : Message) : Verdict :=
  match m.trialDecrypt, m.store with
  | .error _, _ => .failed
  | .ok [], _ => .nobodys
  | .ok _, .error _ => .failed
  | .ok accountUuids, .ok _ => .found accountUuids

def Message.verdict (m : Message) : Verdict :=
  match m.known with
  | .error _ => .failed
  | .ok known =>
    if known.isMatched || known.accountUuids ≠ [] then .known (m.knownAccountUuids known)
    else m.unknownVerdict

theorem Message.unknownVerdict_ne_known {m : Message} {accountUuids : List String} :
  m.unknownVerdict ≠ .known accountUuids
  := by
  unfold Message.unknownVerdict
  split <;> exact fun h => by cases h

/-- Everything that was told, and everything that was nobody's. -/
structure History where
  told : List Txid := []
  nobodys : List (Txid × Nat) := []

namespace History

variable (h : History)

def tell (txid : Txid) (accountUuids : List String) : History × Option MempoolTxEvent :=
  ({ h with told := h.told ++ [txid] },
    some { txidHex := txidHex txid, accountUuids, isMatched := true })

/-- The transaction is left alone, as it was nobody's a short while ago. -/
def isNobodys (txid : Txid) (now : Nat) : Bool :=
  TxidTtlCache.isRemembered cacheLen unmatchedTxidTtl now h.nobodys txid

/-- Nothing is told that is among the last transactions that were told. -/
def handle (m : Message) : History × Option MempoolTxEvent :=
  match m.txid with
  | none => (h, none)
  | some txid =>
    if txid ∈ Log.recent cacheLen h.told then (h, none)
    else
      match m.verdict with
      | .failed => (h, none)
      | .known accountUuids => h.tell txid accountUuids
      | .found accountUuids => if h.isNobodys txid m.now then (h, none) else h.tell txid accountUuids
      | .nobodys =>
        if h.isNobodys txid m.now then (h, none)
        else ({ h with nobodys := h.nobodys ++ [(txid, m.later)] }, none)

def events (h : History) : List Message → List (Option MempoolTxEvent)
  | [] => []
  | m :: ms => (h.handle m).2 :: events (h.handle m).1 ms

end History

/-! ### Refinement -/

/-- The caches hold the ends of the history. -/
structure Refines (o : Observer) (h : History) (now : Nat) : Prop where
  seenLen : o.seen.maxLen = cacheLen
  unmatchedLen : o.unmatched.maxLen = cacheLen
  ttl : o.unmatched.ttl = unmatchedTxidTtl
  seen : o.seen.Holds h.told
  unmatched : ∃ t ≤ now, o.unmatched.Holds h.nobodys t

variable {o : Observer} {h : History} {last : Nat} {m : Message} {txid : Txid}

theorem refines_new :
  Refines Observer.new {} 0
  := by
  refine ⟨rfl, rfl, rfl, ⟨QueueMap.represents_nil, ?_⟩, 0, Nat.le_refl 0,
    QueueMap.represents_nil, List.Pairwise.nil, ?_⟩
  · intro i j x _ hi
    cases hi
  · intro e he
    cases he

theorem Refines.mono (h' : Refines o h last) {now : Nat} (hnow : last ≤ now) :
  Refines o h now
  := by
  obtain ⟨t, ht, hholds⟩ := h'.unmatched
  exact ⟨h'.seenLen, h'.unmatchedLen, h'.ttl, h'.seen, t, Nat.le_trans ht hnow, hholds⟩

/-- What is told is put in the cache. -/
theorem Refines.tell (h' : Refines o h last) (htxid : txid ∉ Log.recent cacheLen h.told)
    (accountUuids : List String) :
  (o.emitWalletRelevantTx txid accountUuids).2 = (h.tell txid accountUuids).2
    ∧ Refines (o.emitWalletRelevantTx txid accountUuids).1 (h.tell txid accountUuids).1 last
  := by
  rw [← h'.seenLen] at htxid
  refine ⟨rfl, ?_, h'.unmatchedLen, h'.ttl, h'.seen.insert htxid, h'.unmatched⟩
  rw [← h'.seenLen]
  apply TxidSeenCache.maxLen_insert

/-- The cache of what is nobody's is pruned. -/
theorem Refines.prune (h' : Refines o h last) {now : Nat} (hnow : last ≤ now) :
  Refines { o with unmatched := o.unmatched.pruneExpired now } h now
  := by
  obtain ⟨t, ht, hholds⟩ := h'.unmatched
  exact ⟨h'.seenLen, h'.unmatchedLen, h'.ttl, h'.seen, now, Nat.le_refl now,
    hholds.pruneExpired (Nat.le_trans ht hnow)⟩

/-- A transaction that the wallet does not know is handled as the history says. -/
theorem Refines.handleUnknown (h' : Refines o h last) (hnow : last ≤ m.now) :
  o.handleUnknown txid m
    = let o' := { o with unmatched := o.unmatched.pruneExpired m.now }
      if h.isNobodys txid m.now then (o', none)
      else
        match m.unknownVerdict with
        | .nobodys => ({ o' with unmatched := o'.unmatched.insert txid m.later }, none)
        | .found accountUuids => o'.emitWalletRelevantTx txid accountUuids
        | _ => (o', none)
  := by
  obtain ⟨t, ht, hholds⟩ := h'.unmatched
  unfold Observer.handleUnknown
  rw [hholds.containsUnexpired (Nat.le_trans ht hnow), h'.unmatchedLen, h'.ttl,
    ← History.isNobodys, Message.unknownVerdict]
  dsimp only
  split_ifs
  · rfl
  · cases m.trialDecrypt with
    | error _ => rfl
    | ok accountUuids =>
      cases accountUuids with
      | nil => rfl
      | cons _ _ => cases m.store <;> rfl

/-- A transaction that is nobody's is put in the cache. -/
theorem Refines.record (h' : Refines o h last) {later : Nat} (hlater : last ≤ later)
    (hnobodys : h.isNobodys txid last = false) :
  Refines { o with unmatched := o.unmatched.insert txid later }
    { h with nobodys := h.nobodys ++ [(txid, later)] } later
  := by
  obtain ⟨t, ht, hholds⟩ := h'.unmatched
  have hforgotten : TxidTtlCache.isRemembered o.unmatched.maxLen o.unmatched.ttl later h.nobodys
      txid = false := by
    rw [h'.unmatchedLen, h'.ttl]
    apply TxidTtlCache.isRemembered_of_le hlater hnobodys
  have httl : 0 < o.unmatched.ttl := by
    rw [h'.ttl]
    decide
  refine ⟨h'.seenLen, ?_, ?_, h'.seen, later, Nat.le_refl later,
    hholds.insert (Nat.le_trans ht hlater) httl hforgotten⟩
  · rw [← h'.unmatchedLen]
    apply TxidTtlCache.maxLen_insert
  · rw [← h'.ttl]
    apply TxidTtlCache.ttl_insert

/-- The caches say what the history says. -/
theorem Refines.handle (h' : Refines o h last) (hnow : last ≤ m.now) (hlater : m.now ≤ m.later) :
  (o.handleMempoolTx m).2 = (h.handle m).2
    ∧ Refines (o.handleMempoolTx m).1 (h.handle m).1 m.later
  := by
  have hsame := h'.mono (Nat.le_trans hnow hlater)
  have hpruned := h'.prune hnow
  rw [Observer.handleMempoolTx, History.handle]
  cases m.txid with
  | none => exact ⟨rfl, hsame⟩
  | some txid =>
    dsimp only
    have hcontains : o.seen.contains txid = true ↔ txid ∈ Log.recent o.seen.maxLen h.told :=
      h'.seen.contains_iff
    rw [h'.seenLen] at hcontains
    by_cases hseen : txid ∈ Log.recent cacheLen h.told
    · rw [if_pos hseen, if_pos (hcontains.mpr hseen)]
      exact ⟨rfl, hsame⟩
    · rw [if_neg hseen, if_neg (fun hin => hseen (hcontains.mp hin)), Message.verdict]
      cases m.known with
      | error _ => exact ⟨rfl, hsame⟩
      | ok known =>
        dsimp only
        by_cases hknown : (known.isMatched || known.accountUuids ≠ []) = true
        · rw [if_pos hknown, if_pos hknown]
          apply hsame.tell hseen
        · rw [if_neg hknown, if_neg hknown, h'.handleUnknown hnow]
          dsimp only
          have hleft := hpruned.mono hlater
          cases hverdict : m.unknownVerdict with
          | known accountUuids => apply (Message.unknownVerdict_ne_known hverdict).elim
          | failed =>
            rw [ite_self]
            exact ⟨rfl, hleft⟩
          | found accountUuids =>
            dsimp only
            by_cases hnobodys : h.isNobodys txid m.now = true
            · rw [if_pos hnobodys, if_pos hnobodys]
              exact ⟨rfl, hleft⟩
            · rw [if_neg hnobodys, if_neg hnobodys]
              apply hleft.tell hseen
          | nobodys =>
            dsimp only
            by_cases hnobodys : h.isNobodys txid m.now = true
            · rw [if_pos hnobodys, if_pos hnobodys]
              exact ⟨rfl, hleft⟩
            · rw [if_neg hnobodys, if_neg hnobodys]
              exact ⟨rfl, hpruned.record hlater (by simpa using hnobodys)⟩

/-! ### Runs -/

/-- The clock does not go back. -/
def Clocked : Nat → List Message → Prop
  | _, [] => True
  | last, m :: ms => last ≤ m.now ∧ m.now ≤ m.later ∧ Clocked m.later ms

theorem Clocked.left {ms ms' : List Message} (h : Clocked last (ms ++ ms')) :
  Clocked last ms
  := by
  induction ms generalizing last with
  | nil => trivial
  | cons m ms ih => exact ⟨h.1, h.2.1, ih h.2.2⟩

/-- Neither cache has more transactions than it may keep, and each of them stands in its queue. -/
structure Observer.Bounded (o : Observer) : Prop where
  seen : o.seen.order.length ≤ cacheLen
  seenEntries : ∀ txid, (o.seen.entries txid).isSome = true → txid ∈ o.seen.order
  unmatched : o.unmatched.order.length ≤ cacheLen
  unmatchedEntries : ∀ txid, (o.unmatched.entries txid).isSome = true → txid ∈ o.unmatched.order

theorem Refines.bounded (h' : Refines o h last) :
  o.Bounded
  := by
  obtain ⟨t, -, hholds⟩ := h'.unmatched
  constructor
  · rw [h'.seen.represents.length_eq, List.length_map, ← h'.seenLen]
    apply Log.length_recent_le
  · intro txid htxid
    rw [h'.seen.represents.order]
    apply h'.seen.represents.isSome_iff.mp htxid
  · rw [hholds.represents.length_eq, List.length_map, ← h'.unmatchedLen]
    apply Nat.le_trans (List.length_filter_le _ _) Log.length_recent_le
  · intro txid htxid
    rw [hholds.represents.order]
    apply hholds.represents.isSome_iff.mp htxid

theorem Refines.events {ms : List Message} (h' : Refines o h last) (hms : Clocked last ms) :
  o.events ms = h.events ms ∧ (o.afterMessages ms).Bounded
  := by
  induction ms generalizing o h last with
  | nil => exact ⟨rfl, h'.bounded⟩
  | cons m ms ih =>
    obtain ⟨hnow, hlater, hms⟩ := hms
    obtain ⟨hevent, hnext⟩ := h'.handle hnow hlater
    obtain ⟨hevents, hbounded⟩ := ih hnext hms
    rw [Observer.events, History.events, hevent, hevents]
    exact ⟨rfl, hbounded⟩

/-- Whatever the messages are and the wallet answers, as long as the clock does not go back, the
observer tells what one tells that forgets nothing, with caches that never hold more than they
may. -/
theorem events_eq {ms : List Message} (h : Clocked 0 ms) :
  Observer.new.events ms = ({} : History).events ms ∧ (Observer.new.afterMessages ms).Bounded
  := refines_new.events h

/-- A transaction that nothing is decrypted of. -/
def sampleForeign (now : Nat) : Message :=
  { txid := some [1]
    known := .ok { isMatched := false, accountUuids := [] }
    trialDecrypt := .ok []
    store := .ok ()
    now := now
    later := now + 1 }

/-- A payment to an account, which the wallet does not know yet. -/
def samplePayment (now : Nat) : Message :=
  { sampleForeign now with
    txid := some [2]
    trialDecrypt := .ok ["account"] }

/-- Each of them comes twice. -/
def sampleMessages : List Message :=
  [sampleForeign 0, samplePayment 2, sampleForeign 4, samplePayment 6]

theorem events_eq_sample :
  Observer.new.events sampleMessages = ({} : History).events sampleMessages
    ∧ (Observer.new.afterMessages sampleMessages).Bounded
  := events_eq (by simp [sampleMessages, samplePayment, sampleForeign, Clocked])

/-! ### What a run tells -/

/-- The events that were told. -/
def Observer.told (o : Observer) (ms : List Message) : List MempoolTxEvent :=
  (o.events ms).filterMap id

namespace History

def afterMessages (h : History) (ms : List Message) : History :=
  ms.foldl (fun h m => (h.handle m).1) h

/-- A message tells nothing, or something new, or is of what is nobody's. -/
theorem handle_cases :
  h.handle m = (h, none)
    ∨ (∃ txid accountUuids, m.txid = some txid ∧ h.handle m = h.tell txid accountUuids)
    ∨ ∃ txid, m.txid = some txid ∧ m.verdict = .nobodys
      ∧ h.handle m = ({ h with nobodys := h.nobodys ++ [(txid, m.later)] }, none)
  := by
  rw [handle]
  cases htxid : m.txid with
  | none => exact .inl rfl
  | some txid =>
    dsimp only
    by_cases hseen : txid ∈ Log.recent cacheLen h.told
    · exact .inl (if_pos hseen)
    · rw [if_neg hseen]
      cases hverdict : m.verdict with
      | failed => exact .inl rfl
      | known accountUuids => exact .inr (.inl ⟨txid, accountUuids, rfl, rfl⟩)
      | found accountUuids =>
        dsimp only
        by_cases hnobodys : h.isNobodys txid m.now = true
        · exact .inl (if_pos hnobodys)
        · exact .inr (.inl ⟨txid, accountUuids, rfl, if_neg hnobodys⟩)
      | nobodys =>
        dsimp only
        by_cases hnobodys : h.isNobodys txid m.now = true
        · exact .inl (if_pos hnobodys)
        · exact .inr (.inr ⟨txid, rfl, rfl, if_neg hnobodys⟩)

/-- What was told are the events. -/
theorem told_eq {ms : List Message} :
  (h.afterMessages ms).told.map txidHex
    = h.told.map txidHex ++ ((h.events ms).filterMap id).map (·.txidHex)
  := by
  induction ms generalizing h with
  | nil => simp [afterMessages, events]
  | cons m ms ih =>
    have hstep : (h.handle m).1.told.map txidHex
        = h.told.map txidHex ++ (h.handle m).2.toList.map (·.txidHex) := by
      rcases handle_cases (h := h) (m := m) with hm | ⟨txid, accountUuids, -, hm⟩ | ⟨txid, -, -, hm⟩
      · simp [hm]
      · simp [hm, tell]
      · simp [hm]
    rw [afterMessages, List.foldl_cons, ← afterMessages, ih, hstep, events, List.append_assoc]
    congr 1
    cases (h.handle m).2 <;> simp

/-- What is nobody's was found to be so by a message. -/
theorem exists_of_mem_nobodys {ms : List Message} {e : Txid × Nat}
    (he : e ∈ (h.afterMessages ms).nobodys) :
  e ∈ h.nobodys ∨ ∃ m ∈ ms, m.txid = some e.1 ∧ m.verdict = .nobodys ∧ m.later = e.2
  := by
  induction ms generalizing h with
  | nil => exact .inl he
  | cons m ms ih =>
    rcases ih he with hbefore | ⟨m', hm', hfound⟩
    · change e ∈ (h.handle m).1.nobodys at hbefore
      rcases handle_cases (h := h) (m := m) with hm | ⟨txid, accountUuids, -, hm⟩
          | ⟨txid, htxid, hverdict, hm⟩
      · rw [hm] at hbefore
        exact .inl hbefore
      · rw [hm] at hbefore
        exact .inl hbefore
      · rw [hm] at hbefore
        rcases List.mem_append.mp hbefore with hbefore | hnew
        · exact .inl hbefore
        · rw [List.mem_singleton.mp hnew]
          exact .inr ⟨m, List.mem_cons_self, htxid, hverdict, rfl⟩
    · exact .inr ⟨m', List.mem_cons_of_mem m hm', hfound⟩

end History

theorem Refines.after {ms ms' : List Message} (h' : Refines o h last)
    (hms : Clocked last (ms ++ ms')) :
  ∃ last', Refines (o.afterMessages ms) (h.afterMessages ms) last' ∧ Clocked last' ms'
  := by
  induction ms generalizing o h last with
  | nil => exact ⟨last, h', hms⟩
  | cons m ms ih =>
    obtain ⟨hnow, hlater, hms⟩ := hms
    apply ih (h'.handle hnow hlater).2 hms

theorem txidHex_injective :
  Function.Injective txidHex
  := by
  intro txid txid' h
  apply List.reverse_injective (Hex.encode_injective (String.ofList_injective h))

/-- A run of the observer, and the history of it. -/
theorem refines_run {ms ms' : List Message} (h : Clocked 0 (ms ++ ms')) :
  ∃ (history : History) (last : Nat), Refines (Observer.new.afterMessages ms) history last
    ∧ Clocked last ms'
    ∧ (Observer.new.told ms).map (·.txidHex) = history.told.map txidHex
    ∧ ∀ e ∈ history.nobodys, ∃ m ∈ ms, m.txid = some e.1 ∧ m.verdict = .nobodys ∧ m.later = e.2
  := by
  obtain ⟨last, hrefines, hlast⟩ := refines_new.after h
  refine ⟨_, last, hrefines, hlast, ?_, fun e he => ?_⟩
  · rw [Observer.told, (refines_new.events h.left).1, History.told_eq]
    rfl
  · rcases History.exists_of_mem_nobodys he with he | hfound
    · cases he
    · apply hfound

/-- No transaction is told again before as many others as a cache keeps. -/
theorem told_spaced {ms : List Message} (h : Clocked 0 ms) :
  Log.Spaced cacheLen ((Observer.new.told ms).map (·.txidHex))
  := by
  rw [← List.append_nil ms] at h
  obtain ⟨history, last, hrefines, -, htold, -⟩ := refines_run h
  have hspaced := hrefines.seen.spaced
  rw [hrefines.seenLen] at hspaced
  rw [htold]
  apply hspaced.map txidHex_injective

theorem told_spaced_sample :
  Log.Spaced cacheLen ((Observer.new.told sampleMessages).map (·.txidHex))
  := told_spaced (by simp [sampleMessages, samplePayment, sampleForeign, Clocked])

/-- A transaction that the wallet knows, or stores, is told, unless it is among the last ones that
were told, or was nobody's a short while ago. -/
theorem relevant_told {ms : List Message} {txid : Txid} {accountUuids : List String}
    (h : Clocked 0 (ms ++ [m])) (htxid : m.txid = some txid)
    (hrelevant : m.verdict = .known accountUuids ∨ m.verdict = .found accountUuids) :
  ((Observer.new.afterMessages ms).handleMempoolTx m).2
      = some { txidHex := txidHex txid, accountUuids, isMatched := true }
    ∨ txidHex txid ∈ Log.recent cacheLen ((Observer.new.told ms).map (·.txidHex))
    ∨ ∃ m' ∈ ms, m'.txid = some txid ∧ m'.verdict = .nobodys
      ∧ m.now < m'.later + unmatchedTxidTtl
  := by
  obtain ⟨history, last, hrefines, ⟨hnow, hlater, -⟩, htold, hnobodys⟩ := refines_run h
  rw [(hrefines.handle hnow hlater).1, htold, ← Log.map_recent]
  by_cases hseen : txid ∈ Log.recent cacheLen history.told
  · exact .inr (.inl (List.mem_map_of_mem hseen))
  · rw [History.handle, htxid]
    dsimp only
    rw [if_neg hseen]
    rcases hrelevant with hknown | hfound
    · rw [hknown]
      exact .inl rfl
    · rw [hfound]
      dsimp only
      by_cases hremembered : history.isNobodys txid m.now = true
      · obtain ⟨t, ht⟩ := TxidTtlCache.isRemembered_iff.mp hremembered
        obtain ⟨hmem, halive⟩ := List.mem_filter.mp ht
        obtain ⟨m', hm', hsame, hverdict, hlater'⟩ := hnobodys _ (Log.recent_sublist.subset hmem)
        rw [Log.alive, decide_eq_true_eq, ← hlater'] at halive
        exact .inr (.inr ⟨m', hm', hsame, hverdict, halive⟩)
      · rw [if_neg hremembered]
        exact .inl rfl

theorem relevant_told_sample :
  ((Observer.new.afterMessages sampleMessages).handleMempoolTx (samplePayment 8)).2
      = some { txidHex := txidHex [2], accountUuids := ["account"], isMatched := true }
    ∨ txidHex [2] ∈ Log.recent cacheLen ((Observer.new.told sampleMessages).map (·.txidHex))
    ∨ ∃ m ∈ sampleMessages, m.txid = some [2] ∧ m.verdict = .nobodys
      ∧ (samplePayment 8).now < m.later + unmatchedTxidTtl
  := relevant_told (by simp [sampleMessages, samplePayment, sampleForeign, Clocked]) rfl
    (.inr (by decide))

end Mempool

end Vizor
