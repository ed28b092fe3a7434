import Vizor.Keychain.Migrator
import Mathlib.Logic.Relation

/-!
# The two copies of a secret

During the migration a secret has a copy in its service, a copy in the staging service, or both.
Each write to the keychain is one move of these two copies.  The moves keep what is held, and
they lead from a secret of the old protection class to one of the new class without a staged
copy.
-/

namespace Vizor

namespace Keychain

variable {α κ : Type}

/-- The copies of a secret in its service and in the staging service. -/
structure Copies (α : Type) where
  canonical : List (Item α)
  staged : List (Item α)

namespace Copies

/-- What the copies hold. -/
def keys (key : Item α → κ) (p : Copies α) : List κ :=
  (p.canonical ++ p.staged).map key

/-- There is no staged copy, and the secret has the new protection class. -/
def Settled (p : Copies α) : Prop :=
  p.staged = [] ∧ ∀ c ∈ p.canonical, c.accessibility = keychainAccessibilityTarget

/-- The copies are ones that the migration can go on with. -/
structure Sound (p : Copies α) : Prop where
  canonical_le : p.canonical.length ≤ 1
  staged_le : p.staged.length ≤ 1
  canonical_class : ∀ c ∈ p.canonical, c.accessibility = keychainAccessibilityTarget
    ∨ c.accessibility = keychainAccessibilityLegacy
  staged_class : ∀ t ∈ p.staged, t.accessibility = keychainAccessibilityTarget
  data_eq : ∀ c ∈ p.canonical, ∀ t ∈ p.staged, c.data = t.data

/-- Copies with the same data are the same secret. -/
def Keyed (key : Item α → κ) (p : Copies α) : Prop :=
  ∀ c ∈ p.canonical, ∀ t ∈ p.staged, c.data = t.data → key c = key t

end Copies

/-- What one write of the migration does to the copies of a secret. -/
inductive Moves (key : Item α → κ) : Copies α → Copies α → Prop
  | stage {c t : Item α} (hc : c.accessibility = keychainAccessibilityLegacy)
      (ht : t.accessibility = keychainAccessibilityTarget) (hdata : c.data = t.data)
      (hkey : key c = key t) : Moves key ⟨[c], []⟩ ⟨[c], [t]⟩
  | remove {c t : Item α} (hc : c.accessibility = keychainAccessibilityLegacy)
      (ht : t.accessibility = keychainAccessibilityTarget) (hdata : c.data = t.data)
      (hkey : key c = key t) : Moves key ⟨[c], [t]⟩ ⟨[], [t]⟩
  | restore {c t : Item α} (hc : c.accessibility = keychainAccessibilityTarget)
      (ht : t.accessibility = keychainAccessibilityTarget) (hdata : c.data = t.data)
      (hkey : key c = key t) : Moves key ⟨[], [t]⟩ ⟨[c], [t]⟩
  | unstage {c t : Item α} (hc : c.accessibility = keychainAccessibilityTarget)
      (ht : t.accessibility = keychainAccessibilityTarget) (hdata : c.data = t.data)
      (hkey : key c = key t) : Moves key ⟨[c], [t]⟩ ⟨[c], []⟩

/-- The copies after any number of moves. -/
abbrev Reaches (key : Item α → κ) : Copies α → Copies α → Prop :=
  Relation.ReflTransGen (Moves key)

section

variable {key : Item α → κ} {p p' : Copies α}

theorem Moves.mem_keys (h : Moves key p p') (k : κ) :
  k ∈ p'.keys key ↔ k ∈ p.keys key
  := by
  induction h with
  | stage hc ht hdata hkey => simp [Copies.keys, hkey]
  | remove hc ht hdata hkey => simp [Copies.keys, hkey]
  | restore hc ht hdata hkey => simp [Copies.keys, hkey]
  | unstage hc ht hdata hkey => simp [Copies.keys, hkey]

/-- The moves lose nothing and add nothing. -/
theorem Reaches.mem_keys (h : Reaches key p p') (k : κ) :
  k ∈ p'.keys key ↔ k ∈ p.keys key
  := by
  induction h with
  | refl => rfl
  | tail _ hmove ih => rw [hmove.mem_keys, ih]

theorem Moves.sound (h : Moves key p p') :
  p'.Sound ∧ p'.Keyed key
  := by
  induction h with
  | stage hc ht hdata hkey =>
    constructor
    · constructor <;> simp [hc, ht, hdata]
    · simp [Copies.Keyed, hkey]
  | remove hc ht hdata hkey =>
    constructor
    · constructor <;> simp [ht]
    · simp [Copies.Keyed]
  | restore hc ht hdata hkey =>
    constructor
    · constructor <;> simp [hc, ht, hdata]
    · simp [Copies.Keyed, hkey]
  | unstage hc ht hdata hkey =>
    constructor
    · constructor <;> simp [hc]
    · simp [Copies.Keyed]

theorem Reaches.sound (h : Reaches key p p') (hp : p.Sound) :
  p'.Sound
  := by
  induction h with
  | refl => apply hp
  | tail _ hmove _ => apply hmove.sound.1

theorem Reaches.keyed (h : Reaches key p p') (hp : p.Keyed key) :
  p'.Keyed key
  := by
  induction h with
  | refl => apply hp
  | tail _ hmove _ => apply hmove.sound.2

end

/-! ### The copies in the keychain -/

namespace Storage

/-- The copies of an account in a service and in its staging service. -/
def pair (s : Storage α) (service account : String) : Copies α :=
  ⟨s.copies service account,
    s.copies (service ++ keychainAccessibilityMigrationStagingSuffix) account⟩

theorem filter_items (s : Storage α) (service account : String) :
  (s.items service).filter (fun item => item.account = account) = s.copies service account
  := by
  rw [items, copies, List.filter_map, List.filter_filter]
  congr 1
  apply List.filter_congr
  rintro row -
  simp [Bool.and_comm]

theorem account_of_mem_copies {s : Storage α} {service account : String} {item : Item α}
    (h : item ∈ s.copies service account) :
  item.account = account
  := by
  obtain ⟨row, hrow, rfl⟩ := List.mem_map.mp h
  simp only [List.mem_filter, decide_eq_true_eq] at hrow
  apply hrow.2.2

theorem copies_add (s : Storage α) (item : Item α) (name service account : String) :
  ({ s with rows := s.rows ++ [(name, item)] } : Storage α).copies service account
    = s.copies service account ++ if name = service ∧ item.account = account then [item] else []
  := by
  simp only [copies, List.filter_append, List.map_append]
  congr 1
  split
  case isTrue h => simp [h]
  case isFalse h => simp [h]

theorem copies_delete (s : Storage α) (name other service account : String) :
  (s.delete name other).copies service account
    = if name = service ∧ other = account then [] else s.copies service account
  := by
  rw [copies, delete, List.filter_filter]
  split
  case isTrue h =>
    obtain ⟨rfl, rfl⟩ := h
    simp
  case isFalse h =>
    rw [copies]
    congr 1
    apply List.filter_congr
    rintro row -
    grind

end Storage

/-! ### The index of the items -/

theorem lookup_concat (indexed : List (String × Item α)) (item : Item α) (account : String) :
  (indexed ++ [(item.account, item)]).lookup account
    = (indexed.lookup account).or (if item.account = account then some item else none)
  := by
  rw [List.lookup_append]
  by_cases h : item.account = account
  · simp [h]
  · simp [h, List.lookup_cons, beq_eq_false_iff_ne.mpr (Ne.symm h)]

theorem foldlM_indexItem_ok {items : List (Item α)} {start indexed : List (String × Item α)}
    (h : items.foldlM indexItem start = .ok indexed) (account : String) :
  (start.lookup account).toList ++ items.filter (fun item => item.account = account)
    = (indexed.lookup account).toList
  := by
  induction items generalizing start with
  | nil =>
    obtain rfl : start = indexed := by simpa using h
    simp
  | cons item items ih =>
    rw [List.foldlM_cons, Run.bind_eq_ok] at h
    obtain ⟨next, hnext, hrest⟩ := h
    by_cases hsome : (start.lookup item.account).isSome
    · simp [indexItem, hsome] at hnext
    · obtain rfl : start ++ [(item.account, item)] = next := by
        simpa [indexItem, hsome] using hnext
      rw [← ih hrest, lookup_concat]
      by_cases haccount : item.account = account
      · have hnone : start.lookup account = none :=
          haccount ▸ Option.not_isSome_iff_eq_none.mp hsome
        simp [haccount, hnone]
      · simp [haccount]

theorem foldlM_indexItem_error {items : List (Item α)} {start : List (String × Item α)}
    {error : KeychainAccessibilityMigrationError}
    (h : items.foldlM indexItem start = .error error) :
  ∃ account, 2 ≤ ((start.lookup account).toList
    ++ items.filter fun item => item.account = account).length
  := by
  induction items generalizing start with
  | nil => cases h
  | cons item items ih =>
    by_cases hsome : (start.lookup item.account).isSome
    · obtain ⟨other, hother⟩ := Option.isSome_iff_exists.mp hsome
      use item.account
      simp [hother]
    · have hnext : indexItem start item = .ok (start ++ [(item.account, item)]) := by
        simp [indexItem, hsome]
      rw [List.foldlM_cons, hnext] at h
      obtain ⟨account, haccount⟩ := ih h
      use account
      rw [lookup_concat] at haccount
      by_cases heq : item.account = account
      · have hnone : start.lookup account = none :=
          heq ▸ Option.not_isSome_iff_eq_none.mp hsome
        simpa [heq, hnone] using haccount
      · simpa [heq] using haccount

/-- An index gives the items of every account. -/
theorem indexedItems_eq_ok {items : List (Item α)} {indexed : List (String × Item α)}
    (h : indexedItems items = .ok indexed) (account : String) :
  items.filter (fun item => item.account = account) = (indexed.lookup account).toList
  := by
  simpa using foldlM_indexItem_ok h account

/-- There is no index where an account has two items. -/
theorem indexedItems_eq_error {items : List (Item α)}
    {error : KeychainAccessibilityMigrationError} (h : indexedItems items = .error error) :
  ∃ account, 2 ≤ (items.filter fun item => item.account = account).length
  := by
  simpa using foldlM_indexItem_error h

end Keychain

end Vizor
