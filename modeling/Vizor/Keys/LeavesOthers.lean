import Vizor.Keys.DeleteAccount

/-!
# The deletion of an account leaves the others whole

A deletion that fails changes nothing.  One that succeeds removes the account and the
transactions in which it took part and no other account did; what other accounts received and
spent stays with its transactions, and so do the notes that they sent, unless their transaction
is removed or they still name the account as their recipient.
-/

namespace Vizor

open Run Table

open ScanQueue (ScanRange Queue)

namespace Keys

/-! ### What a deletion leaves -/

namespace WalletTables

/-- The account that received the output of a sent note did so at an address with this text. -/
def PaidAt (db : WalletTables) (n : SentNote) (text : String) : Prop :=
  ∃ o ∈ db.receivedOutputs, pays n o = true
    ∧ ∃ a ∈ db.addresses, o.addressId = some a.id ∧ a.toAddress = some text

/-- What a deletion keeps of a transaction: it is there, if it was. -/
def KeepsTransaction (db db' : WalletTables) (t : Nat) : Prop :=
  t ∈ db.transactions → t ∈ db'.transactions

/-- Some row of the migration tables belongs to the run. -/
def NamesRun (s : Store) (r : RunId) : Prop :=
  (∃ row ∈ s.preparedNotes, row.runId = r) ∨ (∃ row ∈ s.pendingTxs, row.runId = r)
    ∨ (∃ row ∈ s.signedChildren, row.runId = r) ∨ (∃ row ∈ s.stages, row.runId = r)
    ∨ (∃ row ∈ s.stageInputs, row.runId = r) ∨ ∃ row ∈ s.stageOutputs, row.runId = r

/-- No row of the tables names the account, or an address, an output or a run of it. -/
structure Unreferenced (uuid : AccountUuid) (db db' : WalletTables) : Prop where
  accounts : ∀ a ∈ db'.accounts, a.uuid ≠ uuid ∧ db.hasAccount (· = uuid) a.id = false
  addresses : ∀ a ∈ db'.addresses, db.hasAccount (· = uuid) a.accountId = false
  receivedOutputs : ∀ o ∈ db'.receivedOutputs,
    db.hasAccount (· = uuid) o.accountId = false ∧ db.receivedAt uuid o = false
  receivedOutputSpends : ∀ s ∈ db'.receivedOutputSpends, ∀ o ∈ db.receivedOutputs,
    o.key = s.key → db.hasAccount (· = uuid) o.accountId = false
  sentNotes : ∀ n ∈ db'.sentNotes,
    db.hasAccount (· = uuid) n.fromAccountId = false ∧ db.sentTo uuid n = false
  runs : ∀ s', db'.migration = some s' → ∀ run ∈ s'.runs, run.accountUuid ≠ uuid
  ofRuns : ∀ s s', db.migration = some s → db'.migration = some s' →
    ∀ run ∈ s.runs, run.accountUuid = uuid → ¬NamesRun s' run.runId

/-- The tables after the deletion of an account. -/
structure Deleted (uuid : AccountUuid) (db db' : WalletTables) : Prop where
  accounts : db'.accounts = db.accounts.filter fun a => a.uuid ≠ uuid
  transactions : db'.transactions
    = db.transactions.filter fun t => !(db.takesPart (· = uuid) t && !db.takesPart (· ≠ uuid) t)
  receivedOutputs : ∀ o ∈ db.receivedOutputs, db.hasAccount (· ≠ uuid) o.accountId = true →
    db.receivedAt uuid o = false →
    o ∈ db'.receivedOutputs ∧ KeepsTransaction db db' o.transactionId
  receivedOutputSpends : ∀ s ∈ db.receivedOutputSpends, ∀ o ∈ db.receivedOutputs,
    o.key = s.key → db.hasAccount (· ≠ uuid) o.accountId = true → db.receivedAt uuid o = false →
    s ∈ db'.receivedOutputSpends ∧ KeepsTransaction db db' s.transactionId
  sentNotes : ∀ n ∈ db.sentNotes, db.hasAccount (· ≠ uuid) n.fromAccountId = true →
    db.ownTransaction uuid n.transactionId = false →
    KeepsTransaction db db' n.transactionId
      ∧ (db.sentTo uuid n = false → n ∈ db'.sentNotes)
      ∧ ∀ text, db.sentTo uuid n = true → db.PaidAt n text → ∃ text', db.PaidAt n text'
        ∧ { n with toAddress := some text', toAccountId := none } ∈ db'.sentNotes
  destinations : ∀ n ∈ db.sentNotes, db.sentTo uuid n = true →
    ∀ n' ∈ db'.sentNotes, n'.id = n.id → n'.toAddress.isSome = true
  unreferenced : Unreferenced uuid db db'

end WalletTables

/-- The priorities with which a height is to be scanned. -/
def prioritiesAt (queue : List ScanRange) (height : Nat) : List Nat :=
  (queue.filter fun r => r.blockRangeStart ≤ height && height < r.blockRangeEnd).map (·.priority)

/-- The scan queue above the smallest birthday of the accounts is as before. -/
def SameAbove (accounts : List Account) (queue queue' : Queue) : Prop :=
  match (accounts.map (·.birthdayHeight)).min? with
  | none => queue' = queue
  | some minBirthday => ∀ height, minBirthday ≤ height →
    prioritiesAt queue'.rows height = prioritiesAt queue.rows height

variable {db db' : WalletTables} {uuid : AccountUuid}

namespace WalletTables

/-! ### Accounts and their rows -/

/-- An id of another account is none of the account. -/
theorem hasAccount_of_other {i : Nat} (h : db.hasAccount (· ≠ uuid) i = true) :
  db.hasAccount (· = uuid) i = false
  := by
  rw [Bool.eq_false_iff]
  intro hown
  obtain ⟨a, ha, hai⟩ := List.any_eq_true.mp h
  obtain ⟨b, hb, hbi⟩ := List.any_eq_true.mp hown
  simp only [Bool.and_eq_true, decide_eq_true_eq] at hai hbi
  have hab : a = b := List.inj_on_of_nodup_map db.accounts_keyed ha hb (hai.1.trans hbi.1.symm)
  subst hab
  apply hai.2 hbi.2

/-- An account has its id. -/
theorem hasAccount_id {a : Account} (ha : a ∈ db.accounts) (h : a.uuid ≠ uuid) :
  db.hasAccount (· = uuid) a.id = false
  := by
  apply hasAccount_of_other
  rw [hasAccount, List.any_eq_true]
  exact ⟨a, ha, by simp [h]⟩

/-- Outputs with one key are one output. -/
theorem eq_of_key {o o' : ReceivedOutput} (ho : o ∈ db.receivedOutputs)
    (ho' : o' ∈ db.receivedOutputs) (h : o.key = o'.key) :
  o = o'
  := List.inj_on_of_nodup_map db.receivedOutputs_keyed ho ho' h

theorem ownTransaction_of_other {t : Nat} (h : db.takesPart (· ≠ uuid) t = true) :
  db.ownTransaction uuid t = false
  := by
  rw [ownTransaction, h, Bool.not_true, Bool.and_false]

theorem ownTransaction_of_output {o : ReceivedOutput} (ho : o ∈ db.receivedOutputs)
    (hother : db.hasAccount (· ≠ uuid) o.accountId = true) :
  db.ownTransaction uuid o.transactionId = false
  := by
  apply ownTransaction_of_other
  rw [takesPart, Bool.or_eq_true]
  left
  rw [List.any_eq_true]
  exact ⟨o, ho, by simp only [decide_true, Bool.true_and, hother]⟩

theorem ownTransaction_of_spend {s : ReceivedOutputSpend} {o : ReceivedOutput}
    (hs : s ∈ db.receivedOutputSpends) (ho : o ∈ db.receivedOutputs) (hkey : o.key = s.key)
    (hother : db.hasAccount (· ≠ uuid) o.accountId = true) :
  db.ownTransaction uuid s.transactionId = false
  := by
  apply ownTransaction_of_other
  rw [takesPart, Bool.or_eq_true]
  right
  rw [List.any_eq_true]
  refine ⟨s, hs, ?_⟩
  rw [decide_eq_true rfl, Bool.true_and, List.any_eq_true]
  exact ⟨o, ho, by simp only [decide_eq_true hkey, Bool.true_and, hother]⟩

/-! ### Rewritten notes -/

/-- A note is rewritten to the text of one of its rows, if one has a text. -/
theorem rewriteNote_cases (rows : List (Nat × Option String)) (n : SentNote) :
  (∀ text, (n.id, some text) ∉ rows) ∧ rewriteNote rows n = n
    ∨ ∃ text, (n.id, some text) ∈ rows
      ∧ rewriteNote rows n = { n with toAddress := some text, toAccountId := none }
  := by
  induction rows generalizing n with
  | nil => exact Or.inl ⟨fun _ => List.not_mem_nil, rfl⟩
  | cons row rows ih =>
    rw [rewriteNote, List.foldl_cons, ← rewriteNote]
    by_cases hrow : (row.2.isSome && decide (row.1 = n.id)) = true
    · rw [if_pos hrow]
      rw [Bool.and_eq_true, decide_eq_true_eq] at hrow
      obtain ⟨text, htext⟩ := Option.isSome_iff_exists.mp hrow.1
      right
      rcases ih { n with toAddress := row.2, toAccountId := none } with ⟨-, heq⟩ | ⟨text', hmem, heq⟩
      · refine ⟨text, ?_, ?_⟩
        · rw [← htext, ← hrow.2]
          apply List.mem_cons_self
        · rw [heq, htext]
      · exact ⟨text', List.mem_cons_of_mem _ hmem, heq⟩
    · rw [if_neg hrow]
      rcases ih n with ⟨hnone, heq⟩ | ⟨text, hmem, heq⟩
      · refine Or.inl ⟨fun text hmem => ?_, heq⟩
        rcases List.mem_cons.mp hmem with hhead | hmem
        · apply hrow
          rw [← hhead]
          simp
        · apply hnone text hmem
      · exact Or.inr ⟨text, List.mem_cons_of_mem _ hmem, heq⟩

theorem rewriteNote_transactionId {rows : List (Nat × Option String)} {n : SentNote} :
  (rewriteNote rows n).transactionId = n.transactionId
  := by
  rcases rewriteNote_cases rows n with ⟨-, heq⟩ | ⟨_, -, heq⟩ <;> rw [heq]

/-- The rows of a sent note are those of its outputs, if it was sent to the account. -/
theorem mem_toAccountTx {n : SentNote} (hn : n ∈ db.sentNotes) {text : String} :
  (n.id, some text) ∈ db.toAccountTx uuid ↔ db.sentTo uuid n = true ∧ db.PaidAt n text
  := by
  rw [toAccountTx, List.mem_flatMap]
  constructor
  · rintro ⟨m, hm, hrow⟩
    rw [List.mem_filter] at hm
    obtain ⟨o, ho, hrow⟩ := List.mem_flatMap.mp hrow
    obtain ⟨a, ha, hrow⟩ := List.mem_map.mp hrow
    rw [List.mem_filter] at ho ha
    rw [Prod.mk.injEq] at hrow
    have hmn : m = n := List.inj_on_of_nodup_map db.sentNotes_keyed hm.1 hn hrow.1
    subst hmn
    exact ⟨hm.2, o, ho.1, ho.2, a, ha.1, of_decide_eq_true ha.2, hrow.2⟩
  · rintro ⟨hsent, o, ho, hpays, a, ha, haddress, htext⟩
    refine ⟨n, List.mem_filter.mpr ⟨hn, hsent⟩, List.mem_flatMap.mpr ?_⟩
    refine ⟨o, List.mem_filter.mpr ⟨ho, hpays⟩, List.mem_map.mpr ?_⟩
    exact ⟨a, List.mem_filter.mpr ⟨ha, decide_eq_true haddress⟩, by rw [htext]⟩

/-- A note that was not sent to the account is not rewritten. -/
theorem rewriteNote_of_not_sentTo {n : SentNote} (hn : n ∈ db.sentNotes)
    (h : db.sentTo uuid n = false) :
  rewriteNote (db.toAccountTx uuid) n = n
  := by
  rcases rewriteNote_cases (db.toAccountTx uuid) n with ⟨-, heq⟩ | ⟨text, hmem, -⟩
  · apply heq
  · rw [mem_toAccountTx hn, h] at hmem
    cases hmem.1

/-- A note to the account that was received at an address is rewritten to such an address. -/
theorem rewriteNote_of_paidAt {n : SentNote} {text : String} (hn : n ∈ db.sentNotes)
    (hsent : db.sentTo uuid n = true) (h : db.PaidAt n text) :
  ∃ text', db.PaidAt n text' ∧ rewriteNote (db.toAccountTx uuid) n
    = { n with toAddress := some text', toAccountId := none }
  := by
  rcases rewriteNote_cases (db.toAccountTx uuid) n with ⟨hnone, -⟩ | ⟨text', hmem, heq⟩
  · exact absurd ((mem_toAccountTx hn).mpr ⟨hsent, h⟩) (hnone text)
  · exact ⟨text', ((mem_toAccountTx hn).mp hmem).2, heq⟩

/-! ### Migrations -/

/-- No row is left of a run of the account. -/
theorem not_namesRun_deleteAccountMigrationRows {s : Store} {run : MigrationRun}
    (hrun : run ∈ s.runs) (h : run.accountUuid = uuid) :
  ¬NamesRun (deleteAccountMigrationRows s uuid) run.runId
  := by
  have howned : (s.runs.any fun other => other.accountUuid = uuid && other.runId = run.runId)
      = true := List.any_eq_true.mpr ⟨run, hrun, by simp [h]⟩
  rintro (⟨row, hrow, hid⟩ | ⟨row, hrow, hid⟩ | ⟨row, hrow, hid⟩ | ⟨row, hrow, hid⟩ |
    ⟨row, hrow, hid⟩ | ⟨row, hrow, hid⟩)
  all_goals
    have hkept := (List.mem_filter.mp hrow).2
    rw [hid] at hkept
    dsimp only at hkept
    rw [howned] at hkept
    cases hkept

/-! ### The tables without the transactions of the account -/

/-- The tables when the transactions and the migrations of the account are gone. -/
def separated (db : WalletTables) (uuid : AccountUuid) : WalletTables :=
  ((db.rewriteSentNotes uuid).deleteTransactions uuid).deleteMigrationRows uuid

@[simp]
theorem separated_accounts :
  (db.separated uuid).accounts = db.accounts
  := List.filter_true _

@[simp]
theorem separated_addresses :
  (db.separated uuid).addresses = db.addresses
  := List.filter_true _

@[simp]
theorem separated_hasAccount :
  (db.separated uuid).hasAccount = db.hasAccount
  := by
  funext p i
  rw [hasAccount, hasAccount, separated_accounts]

@[simp]
theorem separated_sentTo {n : SentNote} :
  (db.separated uuid).sentTo uuid n = db.sentTo uuid n
  := by
  rw [sentTo, sentTo, separated_hasAccount]

@[simp]
theorem separated_receivedAt {o : ReceivedOutput} :
  (db.separated uuid).receivedAt uuid o = db.receivedAt uuid o
  := by
  have haddress : (db.separated uuid).hasAddress uuid = db.hasAddress uuid := by
    funext i
    rw [hasAddress, hasAddress, separated_hasAccount, separated_addresses]
  rw [receivedAt, receivedAt, haddress]

@[simp]
theorem rewriteSentNotes_receivedOutputs :
  (db.rewriteSentNotes uuid).receivedOutputs = db.receivedOutputs
  := List.map_id _

@[simp]
theorem rewriteSentNotes_receivedOutputSpends :
  (db.rewriteSentNotes uuid).receivedOutputSpends = db.receivedOutputSpends
  := rfl

@[simp]
theorem rewriteSentNotes_ownTransaction {t : Nat} :
  (db.rewriteSentNotes uuid).ownTransaction uuid t = db.ownTransaction uuid t
  := by
  simp only [ownTransaction, takesPart, rewriteSentNotes_receivedOutputs]
  rfl

theorem separated_transactions :
  (db.separated uuid).transactions
    = db.transactions.filter fun t => !db.ownTransaction uuid t
  := by
  rw [separated, deleteMigrationRows, deleteTransactions, keep]
  simp only [rewriteSentNotes_ownTransaction]
  rfl

theorem mem_separated_receivedOutputs {o : ReceivedOutput} :
  o ∈ (db.separated uuid).receivedOutputs
    ↔ o ∈ db.receivedOutputs ∧ db.ownTransaction uuid o.transactionId = false
  := by
  rw [separated, deleteMigrationRows, deleteTransactions, keep]
  simp

theorem mem_separated_receivedOutputSpends {s : ReceivedOutputSpend} :
  s ∈ (db.separated uuid).receivedOutputSpends
    ↔ s ∈ db.receivedOutputSpends ∧ db.ownTransaction uuid s.transactionId = false
      ∧ ∀ o ∈ db.receivedOutputs, o.key = s.key → db.ownTransaction uuid o.transactionId = false
  := by
  rw [separated, deleteMigrationRows, deleteTransactions, keep]
  simp

theorem mem_separated_sentNotes {n' : SentNote} :
  n' ∈ (db.separated uuid).sentNotes
    ↔ ∃ n ∈ db.sentNotes, db.ownTransaction uuid n.transactionId = false
      ∧ rewriteNote (db.toAccountTx uuid) n = n'
  := by
  rw [separated, deleteMigrationRows, deleteTransactions, keep]
  simp only [List.mem_filter, rewriteSentNotes_ownTransaction, Bool.not_eq_true']
  rw [rewriteSentNotes, update, List.mem_map]
  constructor
  · rintro ⟨⟨n, hn, rfl⟩, hown⟩
    rw [rewriteNote_transactionId] at hown
    exact ⟨n, hn, hown, rfl⟩
  · rintro ⟨n, hn, hown, rfl⟩
    rw [rewriteNote_transactionId]
    exact ⟨⟨n, hn, rfl⟩, hown⟩

/-! ### The tables without the rows of the account -/

/-- What the deletion of the row of an account does, with the foreign keys. -/
structure AccountDeleted (uuid : AccountUuid) (db db' : WalletTables) : Prop where
  accounts : db'.accounts = db.accounts.filter fun a => a.uuid ≠ uuid
  addresses : ∀ a ∈ db'.addresses, db.hasAccount (· = uuid) a.accountId = false
  transactions : db'.transactions = db.transactions
  migration : db'.migration = db.migration
  scanQueue : db'.scanQueue = db.scanQueue
  keepsOutput : ∀ o ∈ db.receivedOutputs, db.hasAccount (· = uuid) o.accountId = false →
    db.receivedAt uuid o = false → o ∈ db'.receivedOutputs
  output : ∀ o ∈ db'.receivedOutputs,
    db.hasAccount (· = uuid) o.accountId = false ∧ db.receivedAt uuid o = false
  keepsSpend : ∀ s ∈ db.receivedOutputSpends, (∀ o ∈ db.receivedOutputs, o.key = s.key →
      db.hasAccount (· = uuid) o.accountId = false ∧ db.receivedAt uuid o = false) →
    s ∈ db'.receivedOutputSpends
  spend : ∀ s ∈ db'.receivedOutputSpends, s ∈ db.receivedOutputSpends
    ∧ ∀ o ∈ db.receivedOutputs, o.key = s.key → db.hasAccount (· = uuid) o.accountId = false
  keepsNote : ∀ n ∈ db.sentNotes, db.hasAccount (· = uuid) n.fromAccountId = false →
    db.sentTo uuid n = false → n ∈ db'.sentNotes
  note : ∀ n' ∈ db'.sentNotes, db.hasAccount (· = uuid) n'.fromAccountId = false
    ∧ db.sentTo uuid n' = false
    ∧ ∃ n ∈ db.sentNotes, n.id = n'.id ∧ n.toAddress = n'.toAddress
      ∧ (db.sentTo uuid n = true → n.toAddress.isSome = true)

theorem deleteAccounts_eq_ok {schema : Schema} (h : deleteAccounts schema db uuid = .ok db') :
  AccountDeleted uuid db db'
  := by
  simp only [deleteAccounts, bind_eq_ok, ensure_eq_ok, pure_eq_ok] at h
  obtain ⟨_, -, _, -, _, hcheck, rfl⟩ := h
  refine ⟨rfl, fun a ha => ?_, List.filter_true _, rfl, rfl, fun o ho hown hat => ?_, fun o' ho' => ?_,
    fun s hs hkeep => ?_, fun s hs => ?_, fun n hn hown hsent => ?_, fun n' hn' => ?_⟩
  · apply (Bool.not_eq_true' _).mp (List.mem_filter.mp ha).2
  · apply List.mem_map.mpr
    refine ⟨o, List.mem_filter.mpr ⟨ho, ?_⟩, ?_⟩
    · rw [hown, hat, Bool.and_false]
      rfl
    · rw [hat]
      rfl
  · obtain ⟨o, ho, rfl⟩ := List.mem_map.mp ho'
    have hown := (List.mem_filter.mp ho).2
    rw [Bool.and_eq_true, Bool.not_eq_true'] at hown
    split
    · exact ⟨hown.1, rfl⟩
    case isFalse hat => exact ⟨hown.1, Bool.eq_false_iff.mpr hat⟩
  · apply List.mem_filter.mpr
    refine ⟨hs, ?_⟩
    rw [Bool.true_and, Bool.not_eq_true', List.any_eq_false]
    intro o ho hgone
    dsimp only at hgone
    rw [Bool.and_eq_true, decide_eq_true_eq] at hgone
    obtain ⟨hown, hat⟩ := hkeep o ho hgone.1
    rw [hown, hat, Bool.and_false] at hgone
    cases hgone.2
  · obtain ⟨hs, hkept⟩ := List.mem_filter.mp hs
    refine ⟨hs, fun o ho hkey => ?_⟩
    rw [Bool.true_and, Bool.not_eq_true', List.any_eq_false] at hkept
    have hkeep := hkept o ho
    rw [decide_eq_true hkey, Bool.true_and, Bool.not_eq_true', Bool.not_eq_false,
      Bool.and_eq_true, Bool.not_eq_true'] at hkeep
    apply hkeep.1
  · apply List.mem_map.mpr
    refine ⟨n, List.mem_filter.mpr ⟨hn, ?_⟩, ?_⟩
    · rw [hown, hsent, Bool.and_false]
      rfl
    · rw [hsent]
      rfl
  · obtain ⟨n, hn, rfl⟩ := List.mem_map.mp hn'
    obtain ⟨hmem, hown⟩ := List.mem_filter.mp hn
    rw [Bool.and_eq_true, Bool.not_eq_true'] at hown
    have hsome := hcheck n hn
    split
    · exact ⟨hown.1, rfl, n, hmem, rfl, rfl, hsome⟩
    case isFalse hsent => exact ⟨hown.1, Bool.eq_false_iff.mpr hsent, n, hmem, rfl, rfl, hsome⟩

end WalletTables

/-! ### The scan queue -/

/-- A change of ranges that keeps whether they have a height, and the priorities of those that
do, keeps the priorities at the height. -/
theorem prioritiesAt_map {rows : List ScanRange} {f : ScanRange → ScanRange} {height : Nat}
    (hhas : ∀ r, (f r).Has height ↔ r.Has height)
    (hpriority : ∀ r, r.Has height → (f r).priority = r.priority) :
  prioritiesAt (rows.map f) height = prioritiesAt rows height
  := by
  rw [prioritiesAt, prioritiesAt, List.filter_map, List.map_map]
  have hfilter : rows.filter
        ((fun r => r.blockRangeStart ≤ height && height < r.blockRangeEnd) ∘ f)
      = rows.filter fun r => r.blockRangeStart ≤ height && height < r.blockRangeEnd := by
    apply List.filter_congr
    intro r _
    rw [Bool.eq_iff_iff, Function.comp_apply, Bool.and_eq_true, Bool.and_eq_true]
    simp only [decide_eq_true_eq]
    apply hhas r
  rw [hfilter]
  apply List.map_congr_left
  intro r hr
  have hcovers := (List.mem_filter.mp hr).2
  rw [Bool.and_eq_true, decide_eq_true_eq, decide_eq_true_eq] at hcovers
  apply hpriority r hcovers

/-- Above the birthday, the split keeps the priorities. -/
theorem prioritiesAt_splitStraddling {minBirthday height demoted : Nat} {queue split : Queue}
    (hheight : minBirthday ≤ height)
    (h : ScanQueue.splitStraddling minBirthday queue = .ok (demoted, split)) :
  prioritiesAt split.rows height = prioritiesAt queue.rows height
  := by
  rw [ScanQueue.splitStraddling] at h
  split at h
  · cases h
    rfl
  case _ straddling hfind =>
    obtain ⟨hstart, -, -⟩ := ScanRange.straddles_iff.mp (List.find?_some hfind)
    simp only [bind_eq_ok] at h
    obtain ⟨shrunk, hshrunk, split, hsplit, heq⟩ := h
    cases heq
    rw [ScanQueue.rows_of_commitRows hsplit, ScanQueue.rows_of_commitRows hshrunk, prioritiesAt,
      List.filter_append, List.map_append, ← prioritiesAt, prioritiesAt_map]
    · rw [List.filter_singleton, decide_eq_false (Nat.not_lt.mpr hheight), Bool.and_false]
      apply List.append_nil _
    · intro r
      rw [ScanRange.moveStart]
      split
      · simp only [ScanRange.Has]
        omega
      · rfl
    · intro r _
      rw [ScanRange.moveStart]
      split <;> rfl

theorem sameAbove_prune {accounts : List Account} {queue : Queue} {pruned : Nat × Queue}
    (h : ScanQueue.pruneOrphanedScanRangesInConn (accounts.map (·.birthdayHeight)) queue
      = .ok pruned) :
  SameAbove accounts queue pruned.2
  := by
  rw [ScanQueue.pruneOrphanedScanRangesInConn] at h
  split at h
  case _ hmin =>
    cases h
    rw [SameAbove, hmin]
  case _ minBirthday hmin =>
    simp only [bind_eq_ok] at h
    obtain ⟨⟨demoted, split⟩, hsplit, queue', hqueue, heq⟩ := h
    cases heq
    rw [SameAbove, hmin]
    intro height hheight
    rw [ScanQueue.rows_of_commitRows hqueue, prioritiesAt_map,
      prioritiesAt_splitStraddling hheight hsplit]
    · intro r
      apply ScanRange.has_demote
    · intro r hhas
      rw [ScanRange.demote, if_neg]
      rw [ScanRange.orphaned_iff]
      exact fun horphaned => absurd (hhas.2.trans_le horphaned.1) (Nat.not_lt.mpr hheight)

/-! ### The deletion -/

theorem failing_eq_ok {ε α : Type} [ToString ε] {statement : Statement} {x : Except ε α} {a : α}
    (h : statement.failing x = .ok a) :
  x = .ok a
  := by
  cases x with
  | ok b =>
    cases h
    rfl
  | error e => cases h

theorem deleteAccountRows_eq_ok {schema : Schema} {faults : Faults}
    (h : deleteAccountRows schema faults db uuid = .ok db') :
  ∃ remaining pruned, WalletTables.AccountDeleted uuid (db.separated uuid) remaining
    ∧ ScanQueue.pruneOrphanedScanRangesInConn (remaining.accounts.map (·.birthdayHeight))
      remaining.scanQueue = .ok pruned
    ∧ db' = { remaining with scanQueue := pruned.2 }
  := by
  simp only [deleteAccountRows, bind_eq_ok, pure_eq_ok] at h
  obtain ⟨_, -, _, -, _, -, _, -, _, -, _, -, _, -, _, -, _, -, _, -, _, -, _, -, _, -, _, -, _, -,
    _, -, remaining, hremaining, _, -, pruned, hpruned, _, -, rfl⟩ := h
  exact ⟨remaining, pruned, WalletTables.deleteAccounts_eq_ok (failing_eq_ok hremaining),
    failing_eq_ok hpruned, rfl⟩

namespace WalletTables

/-- The tables after the deletion of an account whose transactions are gone. -/
theorem AccountDeleted.deleted {remaining : WalletTables} {queue : Queue}
    (h : AccountDeleted uuid (db.separated uuid) remaining) :
  Deleted uuid db { remaining with scanQueue := queue }
  := by
  obtain ⟨haccounts, haddresses, htransactions, hmigration, -, hkeepsOutput, houtput, hkeepsSpend,
    hspend, hkeepsNote, hnote⟩ := h
  simp only [separated_accounts, separated_hasAccount, separated_receivedAt,
    separated_sentTo] at haccounts haddresses hkeepsOutput houtput hkeepsSpend hspend hkeepsNote hnote
  rw [separated_transactions] at htransactions
  have hkeeps : ∀ t, db.ownTransaction uuid t = false →
      KeepsTransaction db { remaining with scanQueue := queue } t := by
    intro t hown ht
    dsimp only
    rw [htransactions]
    apply List.mem_filter.mpr ⟨ht, by rw [hown]; rfl⟩
  refine ⟨haccounts, htransactions, fun o ho hother hat => ?_, fun s hs o ho hkey hother hat => ?_,
    fun n hn hother hown => ?_, fun n hn hsent n' hn' hid => ?_, ?_⟩
  · have hown := ownTransaction_of_output ho hother
    refine ⟨?_, hkeeps _ hown⟩
    apply hkeepsOutput o (mem_separated_receivedOutputs.mpr ⟨ho, hown⟩) (hasAccount_of_other hother)
      hat
  · have hown := ownTransaction_of_spend hs ho hkey hother
    refine ⟨hkeepsSpend s (mem_separated_receivedOutputSpends.mpr ⟨hs, hown, ?_⟩) ?_, hkeeps _ hown⟩
    · intro o' ho' hkey'
      rw [eq_of_key ho' ho (hkey'.trans hkey.symm)]
      apply ownTransaction_of_output ho hother
    · intro o' ho' hkey'
      rw [eq_of_key (mem_separated_receivedOutputs.mp ho').1 ho (hkey'.trans hkey.symm)]
      exact ⟨hasAccount_of_other hother, hat⟩
  · refine ⟨hkeeps _ hown, fun hsent => ?_, fun text hsent hpaid => ?_⟩
    · apply hkeepsNote n (mem_separated_sentNotes.mpr ⟨n, hn, hown, ?_⟩)
        (hasAccount_of_other hother) hsent
      apply rewriteNote_of_not_sentTo hn hsent
    · obtain ⟨text', hpaid', heq⟩ := rewriteNote_of_paidAt hn hsent hpaid
      refine ⟨text', hpaid', ?_⟩
      apply hkeepsNote _ (mem_separated_sentNotes.mpr ⟨n, hn, hown, heq⟩)
        (hasAccount_of_other hother) rfl
  · obtain ⟨-, -, m, hm, hmid, haddress, hsome⟩ := hnote n' hn'
    obtain ⟨n₂, hn₂, -, rfl⟩ := mem_separated_sentNotes.mp hm
    rw [rewriteNote_id] at hmid
    have hsame : n₂ = n := List.inj_on_of_nodup_map db.sentNotes_keyed hn₂ hn (hmid.trans hid)
    subst hsame
    rw [← haddress]
    rcases rewriteNote_cases (db.toAccountTx uuid) n₂ with ⟨-, heq⟩ | ⟨text, -, heq⟩
    · rw [heq] at hsome ⊢
      apply hsome hsent
    · rw [heq]
      rfl
  · refine ⟨fun a ha => ?_, haddresses, houtput, fun s hs o ho hkey => ?_, fun n hn => ?_,
      fun s' hs' run hrun => ?_, fun s s' hs hs' run hrun hown => ?_⟩
    · dsimp only at ha
      rw [haccounts, List.mem_filter, decide_eq_true_eq] at ha
      exact ⟨ha.2, hasAccount_id ha.1 ha.2⟩
    · obtain ⟨hs, hown⟩ := hspend s hs
      obtain ⟨-, -, hkept⟩ := mem_separated_receivedOutputSpends.mp hs
      apply hown o (mem_separated_receivedOutputs.mpr ⟨ho, hkept o ho hkey⟩) hkey
    · obtain ⟨hfrom, hto, -⟩ := hnote n hn
      exact ⟨hfrom, hto⟩
    · dsimp only at hs'
      rw [hmigration] at hs'
      obtain ⟨s, -, rfl⟩ := Option.map_eq_some_iff.mp hs'
      apply of_decide_eq_true (List.mem_filter.mp hrun).2
    · dsimp only at hs'
      rw [hmigration] at hs'
      obtain ⟨s₂, hs₂, rfl⟩ := Option.map_eq_some_iff.mp hs'
      cases hs.symm.trans hs₂
      apply not_namesRun_deleteAccountMigrationRows hrun hown

end WalletTables

/-- For every state of the tables and every account: a deletion that fails changes nothing, and
one that succeeds removes the account and its own transactions, keeps what other accounts
received, spent and sent, leaves no reference to the account, and keeps the scan queue above
the smallest birthday that remains. -/
theorem deleteAccount_leaves_others (schema : Schema) (faults : Faults) (db : WalletTables)
    (uuid : AccountUuid) :
  (∀ e, (deleteAccount schema faults db uuid).2 = .error e →
      (deleteAccount schema faults db uuid).1 = db)
    ∧ ((deleteAccount schema faults db uuid).2 = .ok () →
      WalletTables.Deleted uuid db (deleteAccount schema faults db uuid).1
      ∧ SameAbove (deleteAccount schema faults db uuid).1.accounts db.scanQueue
        (deleteAccount schema faults db uuid).1.scanQueue)
  := by
  rw [deleteAccount]
  split
  · cases h : deleteAccountRows schema faults db uuid with
    | error e => exact ⟨fun _ _ => rfl, nofun⟩
    | ok db' =>
      refine ⟨nofun, fun _ => ?_⟩
      obtain ⟨remaining, pruned, hdeleted, hpruned, rfl⟩ := deleteAccountRows_eq_ok h
      have hsame := sameAbove_prune hpruned
      rw [hdeleted.scanQueue] at hsame
      exact ⟨hdeleted.deleted, hsame⟩
  · exact ⟨fun _ _ => rfl, nofun⟩

/-! ### A note whose spend is known, or not known yet -/

/-- A note from the second account to the first. -/
def sampleNote : SentNote :=
  ⟨7, 10, 3, 0, 2, none, some 1⟩

/-- The second account has sent a note to the first, and what it spent has not been found. -/
def sampleWallet : WalletTables where
  accounts := [⟨1, 1, 100⟩, ⟨2, 2, 100⟩]
  addresses := [⟨5, 1, some "u1recipient", none⟩]
  transactions := [10]
  receivedOutputs := [⟨3, 1, 10, 0, 1, some 5⟩]
  receivedOutputSpends := []
  sentNotes := [sampleNote]
  scanQueue := ⟨[], by decide, by decide, by decide⟩
  migration := none
  accounts_keyed := by decide
  receivedOutputs_keyed := by decide
  sentNotes_keyed := by decide

/-- The deletion of the first account removes the note that the second has sent. -/
theorem sampleWallet_loses_sentNote :
  (deleteAccount ⟨.cascade, .cascade⟩ (fun _ => none) sampleWallet 1).2 = .ok ()
    ∧ ∃ n ∈ sampleWallet.sentNotes, sampleWallet.hasAccount (· ≠ 1) n.fromAccountId = true
      ∧ ∀ n' ∈ (deleteAccount ⟨.cascade, .cascade⟩ (fun _ => none) sampleWallet
        1).1.sentNotes, n'.id ≠ n.id
  := by
  decide

/-- What the second account spent has been found. -/
def sampleSpent : WalletTables :=
  { sampleWallet with
    transactions := [9, 10]
    receivedOutputs := [⟨3, 1, 10, 0, 1, some 5⟩, ⟨3, 2, 9, 0, 2, none⟩]
    receivedOutputSpends := [⟨3, 2, 10⟩]
    receivedOutputs_keyed := by decide }

/-- The note stays, and names the address of the first account. -/
theorem deleteAccount_leaves_others_rewritten :
  ∃ text, sampleSpent.PaidAt sampleNote text
    ∧ { sampleNote with toAddress := some text, toAccountId := none }
      ∈ (deleteAccount ⟨.cascade, .cascade⟩ (fun _ => none) sampleSpent 1).1.sentNotes
  := by
  have hpaid : sampleSpent.PaidAt sampleNote "u1recipient" :=
    ⟨_, List.mem_cons_self, by decide, _, List.mem_cons_self, rfl, rfl⟩
  have hdeleted := ((deleteAccount_leaves_others ⟨.cascade, .cascade⟩ (fun _ => none) sampleSpent
    1).2 (by decide)).1
  apply (hdeleted.sentNotes sampleNote List.mem_cons_self (by decide) (by decide)).2.2 _
    (by decide) hpaid

end Keys

end Vizor
