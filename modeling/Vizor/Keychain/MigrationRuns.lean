import Vizor.Keychain.Migrates

/-!
# Runs of the migration

The migration is started again until it completes, and each start may be cut off anywhere.  No
start loses a secret, and the first start that is not cut off leaves every secret in the new
protection class.
-/

namespace Vizor

namespace Keychain

open Device

variable {α κ : Type} {s₀ s s' : Storage α} {service : String} {key : Item α → κ}

/-! ### The names of the services -/

theorem ne_staging {other : String} (h : service ∈ keychainAccessibilityMigrationAllowedServices)
    (hother : other ∈ keychainAccessibilityMigrationAllowedServices) :
  service ≠ other ++ keychainAccessibilityMigrationStagingSuffix
  := by
  have hne : ∀ service ∈ keychainAccessibilityMigrationAllowedServices,
      ∀ other ∈ keychainAccessibilityMigrationAllowedServices,
        service ≠ other ++ keychainAccessibilityMigrationStagingSuffix := by decide
  apply hne service h other hother

theorem staging_injective {other : String}
    (h : service ++ keychainAccessibilityMigrationStagingSuffix
      = other ++ keychainAccessibilityMigrationStagingSuffix) :
  service = other
  := by
  apply (String.append_left_inj _).mp h

/-! ### One start -/

/-- The copies of every secret have only moved, and the other services are unchanged. -/
structure Advanced (key : Item α → κ) (service : String) (s₀ s : Storage α) : Prop where
  pairs : ∀ account, Reaches key (s₀.pair service account) (s.pair service account)
  others : ∀ name, name ≠ service →
    name ≠ service ++ keychainAccessibilityMigrationStagingSuffix →
    ∀ account, s.copies name account = s₀.copies name account
  defaults : s.defaults = s₀.defaults

theorem Advanced.refl :
  Advanced key service s₀ s₀
  := ⟨fun _ => .refl, fun _ _ _ _ => rfl, rfl⟩

theorem Advanced.trans (h : Advanced key service s₀ s) (h' : Advanced key service s s') :
  Advanced key service s₀ s'
  := by
  constructor
  · intro account
    apply (h.pairs account).trans (h'.pairs account)
  · intro name hservice hstaging account
    rw [h'.others name hservice hstaging, h.others name hservice hstaging]
  · rw [h'.defaults, h.defaults]

/-- The copies of the account, as the migration of one secret sees them. -/
abbrev HoldingPair (s₀ : Storage α) (service account : String) : Copies α → Storage α → Prop :=
  Holding s₀ service (service ++ keychainAccessibilityMigrationStagingSuffix) account

theorem pair_of_holding {account : String} {p : Copies α}
    (h : HoldingPair s₀ service account p s) :
  s.pair service account = p
  := by
  rw [Storage.pair, h.canonical, h.staged]

theorem pair_of_holding_ne {account other : String} {p : Copies α}
    (h : HoldingPair s₀ service account p s) (hne : other ≠ account) :
  s.pair service other = s₀.pair service other
  := by
  rw [Storage.pair, h.others _ _ fun h => hne h.1, h.others _ _ fun h => hne h.1, Storage.pair]

theorem advanced_of_holding {account : String} {p : Copies α}
    (h : HoldingPair s₀ service account p s) (hp : Reaches key (s₀.pair service account) p) :
  Advanced key service s₀ s
  := by
  constructor
  · intro other
    by_cases hother : other = account
    · rw [hother, pair_of_holding h]
      apply hp
    · rw [pair_of_holding_ne h hother]
  · intro name hservice hstaging other
    apply h.others
    rintro ⟨-, hname | hname⟩
    · apply hservice hname
    · apply hstaging hname
  · apply h.defaults

/-- The secrets of the accounts that are still to come are unchanged, the others are settled. -/
structure Underway (key : Item α → κ) (service : String) (s₀ : Storage α) (rest : List String)
    (s : Storage α) : Prop where
  advanced : Advanced key service s₀ s
  nodup : rest.Nodup
  pairs : ∀ account ∈ rest, s.pair service account = s₀.pair service account
  settled : ∀ account ∉ rest, (s.pair service account).Settled

theorem Underway.next {account : String} {rest : List String}
    (h : Underway key service s₀ (account :: rest) s)
    (hsettled : SettledAfter key s service
      (service ++ keychainAccessibilityMigrationStagingSuffix) account (s.pair service account)
      s') :
  Underway key service s₀ rest s'
  := by
  obtain ⟨p, hp, hreaches, hend⟩ := hsettled
  obtain ⟨haccount, hrest⟩ := List.nodup_cons.mp h.nodup
  constructor
  · apply h.advanced.trans (advanced_of_holding hp hreaches)
  · apply hrest
  · intro other hother
    rw [pair_of_holding_ne hp (ne_of_mem_of_not_mem hother haccount),
      h.pairs other (List.mem_cons_of_mem _ hother)]
  · intro other hother
    by_cases hne : other = account
    · rw [hne, pair_of_holding hp]
      apply hend
    · rw [pair_of_holding_ne hp hne]
      apply h.settled other
      simp [hne, hother]

/-- What a start has done where it completes. -/
inductive Completed (key : Item α → κ) (service : String) (s₀ : Storage α) : Storage α → Prop
  | before (h : s₀.isComplete service keychainAccessibilityMigrationVersion) :
    Completed key service s₀ s₀
  | now {s : Storage α} (hadvanced : Advanced key service s₀ s)
      (hsettled : ∀ account, (s.pair service account).Settled) :
    Completed key service s₀ (s.markComplete service keychainAccessibilityMigrationVersion)

/-- Some secret cannot be migrated, and no mark was set. -/
def RefusedSome (key : Item α → κ) (service : String) (s₀ s : Storage α) : Prop :=
  Advanced key service s₀ s ∧ ∃ account, ¬ (s₀.pair service account).Sound

/-- The items of a service are read by their accounts, unless an account has two of them. -/
theorem triple_readIndexed {name : String}
    (hname : ∀ account, 2 ≤ (s₀.copies name account).length →
      ¬ (s₀.pair service account).Sound) :
  Triple (fun s => s = s₀) (readIndexed name)
    (fun indexed s => (∀ account, s₀.copies name account = (indexed.lookup account).toList)
      ∧ s = s₀)
    (Advanced key service s₀) (fun _ => RefusedSome key service s₀)
  := by
  apply Triple.bind (Q := fun items s => items = s₀.items name ∧ s = s₀)
  · apply triple_call
    · rintro s rfl
      apply Advanced.refl
    · rintro s items s' rfl h
      obtain ⟨rfl, rfl⟩ := Prod.mk.inj (Except.ok.inj h)
      exact ⟨⟨rfl, rfl⟩, Advanced.refl⟩
    · rintro s error rfl h
      cases h
  intro items
  apply triple_of_and
  rintro rfl
  apply triple_value
  · rintro s indexed rfl h
    constructor
    · intro account
      rw [← Storage.filter_items, indexedItems_eq_ok h]
    · rfl
  · rintro s error rfl h
    obtain ⟨account, htwo⟩ := indexedItems_eq_error h
    rw [Storage.filter_items] at htwo
    exact ⟨Advanced.refl, account, hname account htwo⟩

theorem mem_accountsOf {canonical staged : List (String × Item α)} {account : String} :
  account ∈ accountsOf canonical staged
    ↔ account ∈ canonical.map Prod.fst ∨ account ∈ staged.map Prod.fst
  := by
  simp [accountsOf, List.mem_mergeSort]

theorem nodup_accountsOf {canonical staged : List (String × Item α)} :
  (accountsOf canonical staged).Nodup
  := by
  rw [accountsOf, (List.mergeSort_perm _ _).nodup_iff]
  apply List.nodup_dedup

/-- An account that is not listed has no copies. -/
theorem lookup_of_notMem {indexed : List (String × Item α)} {account : String}
    (h : account ∉ indexed.map Prod.fst) :
  indexed.lookup account = none
  := by
  simp only [List.mem_map, not_exists, not_and] at h
  rw [List.lookup_eq_none_iff]
  intro entry hentry
  simpa using fun heq => h entry hentry (by simpa using heq.symm)

variable [DecidableEq α]

/-- One pass of the loop. -/
theorem triple_migrateNext {canonical staged : List (String × Item α)}
    (hcanonical : ∀ account, s₀.copies service account = (canonical.lookup account).toList)
    (hstaged : ∀ account, s₀.copies (service ++ keychainAccessibilityMigrationStagingSuffix) account
      = (staged.lookup account).toList)
    (hservice : service ∈ keychainAccessibilityMigrationAllowedServices)
    (hkeyed : ∀ account, (s₀.pair service account).Keyed key)
    (hkey : ∀ x, key x.atTarget = key x) (account : String) (rest : List String) (count : Nat) :
  Triple (Underway key service s₀ (account :: rest))
    (migrateNext canonical staged service (service ++ keychainAccessibilityMigrationStagingSuffix)
      count account)
    (fun _ => Underway key service s₀ rest)
    (Advanced key service s₀) (fun _ => RefusedSome key service s₀)
  := by
  apply triple_of_state
  intro s₁ hs₁
  have hpair := hs₁.pairs account List.mem_cons_self
  have hp : s₁.pair service account
      = ⟨(canonical.lookup account).toList, (staged.lookup account).toList⟩ := by
    rw [hpair, Storage.pair, hcanonical, hstaged]
  have hc : ∀ c ∈ canonical.lookup account, c.account = account := fun c hc =>
    Storage.account_of_mem_copies (by rw [hcanonical account]; simpa using hc)
  have ht : ∀ t ∈ staged.lookup account, t.account = account := fun t ht =>
    Storage.account_of_mem_copies (by rw [hstaged account]; simpa using ht)
  have hmigrate : Triple (HoldingPair s₁ service account (s₁.pair service account)) _ _ _ _ :=
    triple_migrate (ne_staging hservice hservice) hp hc ht (hpair ▸ hkeyed account) hkey
  apply Triple.bind (hmigrate.imp _ (fun _ _ => id) _ _)
  · intro _
    apply triple_pure
    intro s hsettled
    apply hs₁.next hsettled
  · rintro s rfl
    apply holding_self
  · rintro s ⟨p, hholding, hreaches⟩
    apply hs₁.advanced.trans (advanced_of_holding hholding hreaches)
  · rintro _ s ⟨hholding, hsound⟩
    exact ⟨hs₁.advanced.trans (advanced_of_holding hholding .refl), account, hpair ▸ hsound⟩

/-- Wherever a start ends, the copies of the secrets have only moved.  It completes unless a
call fails or some secret cannot be migrated. -/
theorem triple_ensure (hservice : service ∈ keychainAccessibilityMigrationAllowedServices)
    (hkeyed : ∀ account, (s₀.pair service account).Keyed key)
    (hkey : ∀ x, key x.atTarget = key x) :
  Triple (fun s => s = s₀) (ensureFirstUnlockThisDeviceOnly service)
    (fun _ => Completed key service s₀)
    (Advanced key service s₀) (fun _ => RefusedSome key service s₀)
  := by
  rw [ensureFirstUnlockThisDeviceOnly, if_neg (not_not_intro hservice)]
  apply Triple.bind (Q := fun complete s =>
    complete = s₀.isComplete service keychainAccessibilityMigrationVersion ∧ s = s₀)
  · apply triple_look
    rintro s rfl
    use rfl
  intro complete
  apply triple_of_and
  rintro rfl
  split
  case isTrue hcomplete =>
    apply triple_pure
    rintro s rfl
    apply Completed.before hcomplete
  case isFalse hcomplete =>
    apply Triple.bind (triple_readIndexed _)
    · intro canonical
      apply triple_of_and
      intro hcanonical
      apply Triple.bind (triple_readIndexed _)
      · intro staged
        apply triple_of_and
        intro hstaged
        apply Triple.bind ((triple_foldEach (I := fun rest _ => Underway key service s₀ rest)
          (triple_migrateNext hcanonical hstaged hservice hkeyed hkey) 0 _).imp
          _ (fun _ _ => id) (fun _ => id) (fun _ _ => id))
        · intro count
          apply Triple.bind (Q := fun _ => Completed key service s₀)
          · apply triple_change
            intro s hs
            apply Completed.now hs.advanced fun account => hs.settled account (by simp)
          · intro _
            apply triple_pure
            intro s h
            apply h
        · rintro s rfl
          constructor
          · apply Advanced.refl
          · apply nodup_accountsOf
          · intro account _
            rfl
          · intro account haccount
            simp only [mem_accountsOf, not_or] at haccount
            constructor
            · simp [Storage.pair, hstaged account, lookup_of_notMem haccount.2]
            · simp [Storage.pair, hcanonical account, lookup_of_notMem haccount.1]
      · intro account htwo hsound
        have hle := hsound.staged_le
        simp only [Storage.pair] at hle
        omega
    · intro account htwo hsound
      have hle := hsound.canonical_le
      simp only [Storage.pair] at hle
      omega

theorem triple_ensure_invalid (hservice : service ∉ keychainAccessibilityMigrationAllowedServices) :
  Triple (fun s => s = s₀) (ensureFirstUnlockThisDeviceOnly service) (fun _ s => s = s₀)
    (fun s => s = s₀) (fun _ s => s = s₀)
  := by
  rw [ensureFirstUnlockThisDeviceOnly, if_pos hservice]
  apply triple_fail
  intro s h
  apply h

/-! ### Any number of starts -/

omit [DecidableEq α] in
/-- What the starts of the migration of one service do to the secrets of another service. -/
theorem Advanced.reaches {other : String}
    (h : Advanced key other s s') (hother : other ∈ keychainAccessibilityMigrationAllowedServices)
    (hservice : service ∈ keychainAccessibilityMigrationAllowedServices) (account : String) :
  Reaches key (s.pair service account) (s'.pair service account)
  := by
  by_cases hne : service = other
  · rw [hne]
    apply h.pairs
  · rw [Storage.pair, Storage.pair, h.others _ hne (ne_staging hservice hother),
      h.others _ (ne_staging hother hservice).symm fun heq => hne (staging_injective heq)]

/-- Where a service is marked as migrated, its secrets are settled. -/
def Storage.MarkedRightly (s : Storage α) : Prop :=
  ∀ service ∈ keychainAccessibilityMigrationAllowedServices,
    s.isComplete service keychainAccessibilityMigrationVersion →
      ∀ account, (s.pair service account).Settled

/-- What the starts of the migration keep. -/
structure Kept (key : Item α → κ) (s₀ s : Storage α) : Prop where
  pairs : ∀ service ∈ keychainAccessibilityMigrationAllowedServices, ∀ account,
    Reaches key (s₀.pair service account) (s.pair service account)
  marked : s₀.MarkedRightly → s.MarkedRightly

omit [DecidableEq α] in
theorem Reaches.eq_of_settled {p p' : Copies α} (h : Reaches key p p') (hp : p.Settled) :
  p' = p
  := by
  induction h with
  | refl => rfl
  | tail _ hmove ih =>
    subst ih
    cases hmove with
    | stage hc _ _ _ =>
      have htarget := hp.2 _ (List.mem_singleton_self _)
      rw [hc] at htarget
      simp [keychainAccessibilityLegacy, keychainAccessibilityTarget] at htarget
    | remove _ _ _ _ => simp [Copies.Settled] at hp
    | restore _ _ _ _ => simp [Copies.Settled] at hp
    | unstage _ _ _ _ => simp [Copies.Settled] at hp

omit [DecidableEq α] in
theorem completionKey_injective {other : String} {version : Nat}
    (h : completionKey service version = completionKey other version) :
  service = other
  := by
  apply (String.append_right_inj _).mp h

omit [DecidableEq α] in
theorem Kept.advanced {other : String} (h : Kept key s₀ s)
    (hother : other ∈ keychainAccessibilityMigrationAllowedServices)
    (hadvanced : Advanced key other s s') :
  Kept key s₀ s'
  := by
  constructor
  · intro service hservice account
    apply (h.pairs service hservice account).trans (hadvanced.reaches hother hservice account)
  · intro hs₀ service hservice hcomplete account
    rw [Storage.isComplete, hadvanced.defaults] at hcomplete
    have hsettled := h.marked hs₀ service hservice hcomplete account
    rw [(hadvanced.reaches hother hservice account).eq_of_settled hsettled]
    apply hsettled

omit [DecidableEq α] in
theorem Kept.completed {other : String} (h : Kept key s₀ s)
    (hother : other ∈ keychainAccessibilityMigrationAllowedServices)
    (hcompleted : Completed key other s s') :
  Kept key s₀ s'
  := by
  cases hcompleted with
  | before _ => apply h
  | now hadvanced hsettled =>
    have hkept := h.advanced hother hadvanced
    constructor
    · apply hkept.pairs
    · intro hs₀ service hservice hcomplete
      simp only [Storage.isComplete, Storage.markComplete, List.contains_cons,
        Bool.or_eq_true, beq_iff_eq] at hcomplete
      rcases hcomplete with heq | hcomplete
      · rw [completionKey_injective heq]
        apply hsettled
      · apply hkept.marked hs₀ service hservice hcomplete

omit [DecidableEq α] in
theorem Completed.isComplete (h : Completed key service s s') :
  s'.isComplete service keychainAccessibilityMigrationVersion
  := by
  cases h with
  | before h => apply h
  | now _ _ => simp [Storage.isComplete, Storage.markComplete]

/-- The storage after starts that may each be cut off anywhere. -/
def afterStarts (s : Storage α)
    (starts : List (String × List (Device.Outcome KeychainAccessibilityMigrationError))) :
    Storage α :=
  restarts ensureFirstUnlockThisDeviceOnly s starts

/-- Over any number of starts the copies of every secret only move. -/
theorem kept_afterStarts
    (hkeyed : ∀ service ∈ keychainAccessibilityMigrationAllowedServices, ∀ account,
      (s.pair service account).Keyed key)
    (hkey : ∀ x, key x.atTarget = key x)
    (starts : List (String × List (Device.Outcome KeychainAccessibilityMigrationError))) :
  Kept key s (afterStarts s starts)
  := by
  apply restarts_invariant (I := Kept key s)
  · intro service
    apply triple_of_state
    intro t ht
    by_cases hservice : service ∈ keychainAccessibilityMigrationAllowedServices
    · apply (triple_ensure hservice
        (fun account => (ht.pairs service hservice account).keyed (hkeyed service hservice account))
        hkey).imp (fun _ => id)
      · intro _ t' ht'
        apply ht.completed hservice ht'
      · intro t' ht'
        apply ht.advanced hservice ht'
      · intro _ t' ht'
        apply ht.advanced hservice ht'.1
    · apply (triple_ensure_invalid hservice).imp (fun _ => id)
      · rintro _ t' rfl
        apply ht
      · rintro t' rfl
        apply ht
      · rintro _ t' rfl
        apply ht
  · exact ⟨fun _ _ _ => .refl, id⟩

/-- No start of the migration loses a secret or makes one up, whatever the keychain holds and
wherever the starts are cut off: the data under an account, in its service or staged, stay the
same. -/
theorem data_afterStarts (s : Storage α)
    (starts : List (String × List (Device.Outcome KeychainAccessibilityMigrationError)))
    (hservice : service ∈ keychainAccessibilityMigrationAllowedServices) (account : String)
    (data : List UInt8) :
  data ∈ ((afterStarts s starts).pair service account).keys Item.data
    ↔ data ∈ (s.pair service account).keys Item.data
  := by
  have hkept : Kept Item.data s (afterStarts s starts) :=
    kept_afterStarts (fun _ _ _ _ _ _ _ h => h) (fun _ => rfl) starts
  apply (hkept.pairs service hservice account).mem_keys

/-- A wallet whose secrets are still of the old class. -/
def sampleStorage : Storage String where
  rows :=
    [("com.keplr.vizor.secure_store",
      ⟨"zcash_account_mnemonic_1", [7, 7], keychainAccessibilityLegacy, [(accessGroupKey, "app")]⟩)]
  defaults := []

/-- A start that is killed when it has removed the secret from its service. -/
def sampleStarts : List (String × List (Device.Outcome KeychainAccessibilityMigrationError)) :=
  [("com.keplr.vizor.secure_store",
    [.answered, .answered, .answered, .answered, .cut .protectedDataUnavailable])]

theorem data_afterStarts_sample :
  [7, 7] ∈ ((afterStarts sampleStorage sampleStarts).pair "com.keplr.vizor.secure_store"
      "zcash_account_mnemonic_1").keys Item.data
    ↔ [7, 7] ∈ (sampleStorage.pair "com.keplr.vizor.secure_store"
      "zcash_account_mnemonic_1").keys Item.data
  := by
  apply data_afterStarts sampleStorage sampleStarts (by decide)

/-! ### The completed migration -/

omit [DecidableEq α] in
/-- What a secret is, apart from its protection class. -/
def Item.identity (x : Item α) : String × List UInt8 × List (String × α) :=
  (x.account, x.data, x.attributes)

/-- The secrets can be migrated.  Every account has at most one copy in a service, in the old or
the new protection class, and at most one staged copy, in the new class; where it has both, they
hold the same secret.  The secrets of a service that is marked as migrated are settled. -/
structure Storage.Ready (s : Storage α) : Prop where
  sound : ∀ service ∈ keychainAccessibilityMigrationAllowedServices, ∀ account,
    (s.pair service account).Sound
  keyed : ∀ service ∈ keychainAccessibilityMigrationAllowedServices, ∀ account,
    (s.pair service account).Keyed Item.identity
  marked : s.MarkedRightly

/-- The copies of a secret when it is migrated. -/
def Copies.migrated (p : Copies α) : Copies α :=
  ⟨((p.canonical ++ p.staged).take 1).map Item.atTarget, []⟩

omit [DecidableEq α] in
theorem Item.eq_atTarget {c x : Item α} (hc : c.accessibility = keychainAccessibilityTarget)
    (h : c.identity = x.identity) :
  c = x.atTarget
  := by
  cases c
  cases x
  simp only [Item.identity, Prod.mk.injEq] at h
  simp_all [Item.atTarget]

omit [DecidableEq α] in
theorem Reaches.eq_migrated {p p' : Copies α} (h : Reaches Item.identity p p')
    (hp : p.Sound) (hsettled : p'.Settled) :
  p' = p.migrated
  := by
  have hsound := h.sound hp
  obtain ⟨canonical, staged⟩ := p'
  obtain ⟨rfl, htarget⟩ := hsettled
  rw [Copies.migrated]
  congr 1
  have hmem := h.mem_keys
  rcases hheld : p.canonical ++ p.staged with _ | ⟨x, rest⟩
  · rcases canonical with _ | ⟨c, _⟩
    · rfl
    · have hc := (hmem c.identity).mp (by simp [Copies.keys])
      simp [Copies.keys, hheld] at hc
  · have hx := (hmem x.identity).mpr (by simp [Copies.keys, hheld])
    simp only [Copies.keys, List.append_nil, List.mem_map] at hx
    obtain ⟨c, hc, hidentity⟩ := hx
    rcases canonical with _ | ⟨c', _ | _⟩
    · simp at hc
    · obtain rfl : c = c' := by simpa using hc
      simp [Item.eq_atTarget (htarget c (by simp)) hidentity]
    · simpa using hsound.canonical_le

/-- In a keychain whose secrets can be migrated (`Storage.Ready`): after any number of starts that
were cut off, one that is not completes.  Then the service is marked, every account holds the
same secret as at first, in the new protection class, and no copy is staged. -/
theorem ensure_afterStarts (hready : s.Ready)
    (starts : List (String × List (Device.Outcome KeychainAccessibilityMigrationError)))
    (hservice : service ∈ keychainAccessibilityMigrationAllowedServices) :
  ∃ migratedCount s',
    (ensureFirstUnlockThisDeviceOnly service).run ⟨afterStarts s starts, []⟩
      = (.ok migratedCount, ⟨s', []⟩)
    ∧ s'.isComplete service keychainAccessibilityMigrationVersion
    ∧ ∀ account, s'.pair service account = (s.pair service account).migrated
  := by
  have hkept : Kept Item.identity s (afterStarts s starts) :=
    kept_afterStarts hready.keyed (fun _ => rfl) starts
  have hensure : Triple (fun t => t = afterStarts s starts)
      (ensureFirstUnlockThisDeviceOnly service)
      (fun _ => Completed Item.identity service (afterStarts s starts))
      (Advanced Item.identity service (afterStarts s starts)) fun _ _ => False := by
    apply (triple_ensure hservice (fun account => (hkept.pairs service hservice account).keyed
      (hready.keyed service hservice account)) fun _ => rfl).imp (fun _ => id) (fun _ _ => id)
      fun _ => id
    rintro _ t ⟨-, account, hsound⟩
    apply hsound ((hkept.pairs service hservice account).sound
      (hready.sound service hservice account))
  obtain ⟨migratedCount, s', hrun, hcompleted⟩ := hensure.answers rfl
  have hkept' := hkept.completed hservice hcompleted
  have hcomplete := hcompleted.isComplete
  use migratedCount, s', hrun, hcomplete
  intro account
  apply (hkept'.pairs service hservice account).eq_migrated (hready.sound service hservice account)
  apply hkept'.marked hready.marked service hservice hcomplete

theorem sampleStorage_pair (hservice : service ∈ keychainAccessibilityMigrationAllowedServices)
    (account : String) :
  ∃ canonical, sampleStorage.pair service account = ⟨canonical, []⟩ ∧ canonical.length ≤ 1
    ∧ ∀ c ∈ canonical, c.accessibility = keychainAccessibilityLegacy
  := by
  use sampleStorage.copies service account
  have hcopies : ∀ name, sampleStorage.copies name account
      = if "com.keplr.vizor.secure_store" = name ∧ "zcash_account_mnemonic_1" = account then
        sampleStorage.items "com.keplr.vizor.secure_store" else [] :=
    fun name => Storage.copies_add ⟨[], []⟩ _ _ _ _
  constructor
  · rw [Storage.pair, hcopies (service ++ _), if_neg]
    rintro ⟨heq, -⟩
    apply ne_staging (by decide) hservice heq
  · rw [hcopies]
    split <;> decide

theorem sampleStorage_ready :
  sampleStorage.Ready
  := by
  constructor
  · intro service hservice account
    obtain ⟨canonical, hpair, hlength, hclass⟩ := sampleStorage_pair hservice account
    rw [hpair]
    constructor
    · apply hlength
    · simp
    · intro c hc
      apply Or.inr (hclass c hc)
    · simp
    · simp
  · intro service hservice account
    obtain ⟨canonical, hpair, -, -⟩ := sampleStorage_pair hservice account
    rw [hpair]
    simp [Copies.Keyed]
  · intro service _ hcomplete
    simp [Storage.isComplete, sampleStorage] at hcomplete

theorem ensure_afterStarts_sample :
  ∃ migratedCount s',
    (ensureFirstUnlockThisDeviceOnly "com.keplr.vizor.secure_store").run
        ⟨afterStarts sampleStorage sampleStarts, []⟩
      = (.ok migratedCount, ⟨s', []⟩)
    ∧ s'.isComplete "com.keplr.vizor.secure_store" keychainAccessibilityMigrationVersion
    ∧ ∀ account, s'.pair "com.keplr.vizor.secure_store" account
      = (sampleStorage.pair "com.keplr.vizor.secure_store" account).migrated
  := by
  apply ensure_afterStarts sampleStorage_ready sampleStarts (by decide)

end Keychain

end Vizor
