import Vizor.Keychain.Copies

/-!
# The migration of one secret

Wherever the migration of a secret ends, the writes that took place are moves of its two copies,
and nothing else in the keychain has changed.
-/

namespace Vizor

namespace Keychain

open Device

variable {α κ : Type}

/-! ### The copies during the migration -/

/-- The account has the copies `p`, and all else is as in `s₀`. -/
structure Holding (s₀ : Storage α) (service staging account : String) (p : Copies α)
    (s : Storage α) : Prop where
  canonical : s.copies service account = p.canonical
  staged : s.copies staging account = p.staged
  others : ∀ name other, ¬ (other = account ∧ (name = service ∨ name = staging)) →
    s.copies name other = s₀.copies name other
  defaults : s.defaults = s₀.defaults

variable {s₀ s : Storage α} {service staging account : String} {p p₀ p' : Copies α}
  {key : Item α → κ} {x : Item α}

theorem holding_self :
  Holding s₀ service staging account
    ⟨s₀.copies service account, s₀.copies staging account⟩ s₀
  := ⟨rfl, rfl, fun _ _ _ => rfl, rfl⟩

theorem Holding.delete_canonical (h : Holding s₀ service staging account p s)
    (hne : service ≠ staging) :
  Holding s₀ service staging account ⟨[], p.staged⟩ (s.delete service account)
  := by
  constructor
  · simp [Storage.copies_delete]
  · simp [Storage.copies_delete, hne, h.staged]
  · intro name other hother
    rw [Storage.copies_delete, if_neg (by rintro ⟨rfl, rfl⟩; simp at hother),
      h.others name other hother]
  · apply h.defaults

theorem Holding.delete_staged (h : Holding s₀ service staging account p s)
    (hne : service ≠ staging) :
  Holding s₀ service staging account ⟨p.canonical, []⟩ (s.delete staging account)
  := by
  constructor
  · simp [Storage.copies_delete, hne.symm, h.canonical]
  · simp [Storage.copies_delete]
  · intro name other hother
    rw [Storage.copies_delete, if_neg (by rintro ⟨rfl, rfl⟩; simp at hother),
      h.others name other hother]
  · apply h.defaults

section

variable [DecidableEq α]

theorem Storage.add_eq {name : String} (h : s.copies name x.account = []) :
  s.add x name = .ok ((), { s with rows := s.rows ++ [(name, x.atTarget)] })
  := by
  simp [Storage.add, h]

theorem Holding.add_canonical (h : Holding s₀ service staging account ⟨[], p.staged⟩ s)
    (hne : service ≠ staging) (hx : x.account = account) :
  ∃ s', s.add x service = .ok ((), s')
    ∧ Holding s₀ service staging account ⟨[x.atTarget], p.staged⟩ s'
  := by
  subst hx
  use { s with rows := s.rows ++ [(service, x.atTarget)] }, Storage.add_eq h.canonical
  constructor
  · simp [Storage.copies_add, h.canonical, Item.atTarget]
  · simp [Storage.copies_add, h.staged, hne]
  · intro name other hother
    rw [Storage.copies_add, if_neg (by rintro ⟨rfl, rfl⟩; simp [Item.atTarget] at hother),
      List.append_nil, h.others name other hother]
  · apply h.defaults

theorem Holding.add_staged (h : Holding s₀ service staging account ⟨p.canonical, []⟩ s)
    (hne : service ≠ staging) (hx : x.account = account) :
  ∃ s', s.add x staging = .ok ((), s')
    ∧ Holding s₀ service staging account ⟨p.canonical, [x.atTarget]⟩ s'
  := by
  subst hx
  use { s with rows := s.rows ++ [(staging, x.atTarget)] }, Storage.add_eq h.staged
  constructor
  · simp [Storage.copies_add, h.canonical, hne.symm]
  · simp [Storage.copies_add, h.staged, Item.atTarget]
  · intro name other hother
    rw [Storage.copies_add, if_neg (by rintro ⟨rfl, rfl⟩; simp [Item.atTarget] at hother),
      List.append_nil, h.others name other hother]
  · apply h.defaults

end

/-! ### The calls -/

/-- What holds wherever the migration of the secret is left. -/
def Left (key : Item α → κ) (s₀ : Storage α) (service staging account : String)
    (p₀ : Copies α) (s : Storage α) : Prop :=
  ∃ p, Holding s₀ service staging account p s ∧ Reaches key p₀ p

variable {E : KeychainAccessibilityMigrationError → Storage α → Prop}

theorem triple_write {f : Storage α → Except KeychainAccessibilityMigrationError (Unit × Storage α)}
    (hp : Reaches key p₀ p) (hmove : Moves key p p')
    (hf : ∀ s, Holding s₀ service staging account p s →
      ∃ s', f s = .ok ((), s') ∧ Holding s₀ service staging account p' s') :
  Triple (Holding s₀ service staging account p) (call f)
    (fun _ => Holding s₀ service staging account p')
    (Left key s₀ service staging account p₀) E
  := by
  apply triple_call
  · intro s h
    use p, h, hp
  · intro s u s' h hs'
    obtain ⟨t, ht, hholding⟩ := hf s h
    obtain ⟨-, rfl⟩ := Prod.mk.inj (Except.ok.inj (hs'.symm.trans ht))
    use hholding, p', hholding, hp.tail hmove
  · intro s error h herror
    obtain ⟨t, ht, -⟩ := hf s h
    cases ht.symm.trans herror

theorem requireTarget_eq_ok {u : Unit} :
  requireTarget x = .ok u ↔ x.accessibility = keychainAccessibilityTarget
  := by
  simp [requireTarget]

theorem requireMatchingData_eq_ok {y : Item α} {u : Unit} :
  requireMatchingData x y = .ok u ↔ x.data = y.data
  := by
  simp [requireMatchingData]

/-- An item that was added is found. -/
theorem triple_verify {y : Item α} {name : String} (hp : Reaches key p₀ p)
    (hcopies : ∀ s, Holding s₀ service staging account p s → s.copies name x.account = [y])
    (hy : y.accessibility = keychainAccessibilityTarget) (hdata : x.data = y.data) :
  Triple (Holding s₀ service staging account p) (verify x name)
    (fun _ => Holding s₀ service staging account p)
    (Left key s₀ service staging account p₀) E
  := by
  apply Triple.bind (Q := fun items s =>
    items.filter (fun item => item.account = x.account) = [y]
      ∧ Holding s₀ service staging account p s)
  · apply triple_call
    · intro s h
      use p, h, hp
    · intro s items s' h hs'
      obtain ⟨rfl, rfl⟩ := Prod.mk.inj (Except.ok.inj hs')
      use ⟨by rw [Storage.filter_items, hcopies s h], h⟩, p, h, hp
    · intro s error h herror
      cases herror
  · intro items
    apply triple_of_and
    intro hfilter
    rw [hfilter]
    apply Triple.bind (Q := fun _ => Holding s₀ service staging account p)
    · apply triple_value
      · intro s u h _
        apply h
      · intro s error h herror
        rw [requireTarget, if_pos hy] at herror
        cases herror
    · intro _
      apply triple_value
      · intro s u h _
        apply h
      · intro s error h herror
        rw [requireMatchingData, if_pos hdata] at herror
        cases herror

/-! ### The migration of a secret -/

/-- The copies are settled after moves. -/
def SettledAfter (key : Item α → κ) (s₀ : Storage α) (service staging account : String)
    (p₀ : Copies α) (s : Storage α) : Prop :=
  ∃ p, Holding s₀ service staging account p s ∧ Reaches key p₀ p ∧ p.Settled

/-- The copies cannot be migrated, and nothing has changed. -/
def Refused (s₀ : Storage α) (service staging account : String) (p₀ : Copies α)
    (s : Storage α) : Prop :=
  Holding s₀ service staging account p₀ s ∧ ¬ p₀.Sound

variable [DecidableEq α]

omit [DecidableEq α] in
/-- With both copies at hand, the secret of the new class is unstaged. -/
theorem triple_unstage {c t : Item α} (hne : service ≠ staging) (hp : Reaches key p₀ ⟨[c], [t]⟩)
    (hc : c.accessibility = keychainAccessibilityTarget)
    (ht : t.accessibility = keychainAccessibilityTarget) (hdata : c.data = t.data)
    (hkey : key c = key t) (moved : Bool) :
  Triple (Holding s₀ service staging account ⟨[c], [t]⟩)
    (do
      deleteItem staging account
      pure moved)
    (fun _ => SettledAfter key s₀ service staging account p₀)
    (Left key s₀ service staging account p₀) E
  := by
  have hmove : Moves key ⟨[c], [t]⟩ ⟨[c], []⟩ := .unstage hc ht hdata hkey
  apply Triple.bind (triple_write hp hmove fun s h => ⟨_, rfl, h.delete_staged hne⟩)
  intro _
  apply triple_pure
  intro s h
  use ⟨[c], []⟩, h, hp.tail hmove, rfl
  simpa using hc

/-- A secret that is only staged is added again. -/
theorem triple_restore {x t : Item α} (hne : service ≠ staging) (hp : Reaches key p₀ ⟨[], [t]⟩)
    (hx : x.account = account) (ht : t.accessibility = keychainAccessibilityTarget)
    (hdata : x.data = t.data) (hkey : key x.atTarget = key t) :
  Triple (Holding s₀ service staging account ⟨[], [t]⟩)
    (do
      addItem x service
      verify x service
      deleteItem staging account
      pure true)
    (fun _ => SettledAfter key s₀ service staging account p₀)
    (Left key s₀ service staging account p₀) E
  := by
  have hmove : Moves key ⟨[], [t]⟩ ⟨[x.atTarget], [t]⟩ := .restore rfl ht hdata hkey
  apply Triple.bind (triple_write hp hmove fun s h =>
    h.add_canonical (p := ⟨[], [t]⟩) hne hx)
  intro _
  apply Triple.bind (triple_verify (y := x.atTarget) (hp.tail hmove)
    (fun s h => hx ▸ h.canonical) rfl rfl)
  intro _
  apply triple_unstage hne (hp.tail hmove) rfl ht hdata hkey

/-- `t` is a staged copy of `c`. -/
structure StagedCopy (key : Item α → κ) (p₀ : Copies α) (c t : Item α) : Prop where
  target : t.accessibility = keychainAccessibilityTarget
  data : c.data = t.data
  same : key c = key t
  reaches : Reaches key p₀ ⟨[c], [t]⟩

/-- A secret of the old class gets a staged copy, or has one. -/
theorem triple_stageCopy {c : Item α} {staged : Option (Item α)} (hne : service ≠ staging)
    (hc : c.accessibility = keychainAccessibilityLegacy) (haccount : c.account = account)
    (htarget : ∀ t ∈ staged, t.accessibility = keychainAccessibilityTarget)
    (hkeyed : (⟨[c], staged.toList⟩ : Copies α).Keyed key) (hkey : ∀ x, key x.atTarget = key x) :
  Triple (Holding s₀ service staging account ⟨[c], staged.toList⟩)
    (stageCopy c staged staging)
    (fun _ s => ∃ t, StagedCopy key ⟨[c], staged.toList⟩ c t
      ∧ Holding s₀ service staging account ⟨[c], [t]⟩ s)
    (Left key s₀ service staging account ⟨[c], staged.toList⟩)
    (fun _ => Refused s₀ service staging account ⟨[c], staged.toList⟩)
  := by
  cases staged with
  | none =>
    have hmove : Moves key ⟨[c], []⟩ ⟨[c], [c.atTarget]⟩ := .stage hc rfl rfl (hkey c).symm
    apply Triple.bind (triple_write .refl hmove fun s h =>
      h.add_staged (p := ⟨[c], []⟩) hne haccount)
    intro _
    apply (triple_verify (y := c.atTarget) (.single hmove)
      (fun s h => haccount ▸ h.staged) rfl rfl).imp (fun _ => id) _ (fun _ => id) (fun _ _ => id)
    intro _ s h
    exact ⟨c.atTarget, ⟨rfl, rfl, (hkey c).symm, .single hmove⟩, h⟩
  | some t =>
    apply triple_value
    · intro s u h hu
      have hdata := requireMatchingData_eq_ok.mp hu
      exact ⟨t, ⟨htarget t rfl, hdata, hkeyed c (by simp) t (by simp) hdata, .refl⟩, h⟩
    · intro s error h herror
      use h
      intro hsound
      rw [requireMatchingData, if_pos (hsound.data_eq c (by simp) t (by simp))] at herror
      cases herror

/-- Wherever the migration of a secret ends, what it wrote are moves of the copies.  It refuses
only copies that it cannot migrate, and else it settles them. -/
theorem triple_migrate {canonical staged : Option (Item α)} (hne : service ≠ staging)
    (hp₀ : p₀ = ⟨canonical.toList, staged.toList⟩)
    (hcanonical : ∀ c ∈ canonical, c.account = account)
    (hstaged : ∀ t ∈ staged, t.account = account) (hkeyed : p₀.Keyed key)
    (hkey : ∀ x, key x.atTarget = key x) :
  Triple (Holding s₀ service staging account p₀)
    (migrate account canonical staged service staging)
    (fun _ => SettledAfter key s₀ service staging account p₀)
    (Left key s₀ service staging account p₀)
    (fun _ => Refused s₀ service staging account p₀)
  := by
  subst hp₀
  unfold migrate
  apply Triple.bind (Q := fun _ s =>
    (∀ t ∈ staged, t.accessibility = keychainAccessibilityTarget)
      ∧ Holding s₀ service staging account ⟨canonical.toList, staged.toList⟩ s)
  · cases staged with
    | none => apply triple_value <;> simp [requireStagedTarget]
    | some t =>
      apply triple_value
      · intro s u h hu
        exact ⟨by simpa using requireTarget_eq_ok.mp hu, h⟩
      · intro s error h herror
        use h
        intro hsound
        rw [requireStagedTarget, requireTarget, if_pos (hsound.staged_class t (by simp))] at herror
        cases herror
  intro _
  apply triple_of_and
  intro htarget
  cases canonical with
  | none =>
    cases staged with
    | none =>
      apply triple_pure
      intro s h
      use ⟨[], []⟩, h, .refl, rfl
      simp
    | some t =>
      apply triple_restore hne .refl (hstaged t rfl) (htarget t rfl) rfl (hkey t)
  | some c =>
    simp only
    split
    case isTrue hc =>
      cases staged with
      | none =>
        apply triple_pure
        intro s h
        use ⟨[c], []⟩, h, .refl, rfl
        simpa using hc
      | some t =>
        apply Triple.bind (Q := fun _ s =>
          c.data = t.data ∧ Holding s₀ service staging account ⟨[c], [t]⟩ s)
        · apply triple_value
          · intro s u h hu
            exact ⟨requireMatchingData_eq_ok.mp hu, h⟩
          · intro s error h herror
            use h
            intro hsound
            rw [requireMatchingData, if_pos (hsound.data_eq c (by simp) t (by simp))] at herror
            cases herror
        intro _
        apply triple_of_and
        intro hdata
        apply triple_unstage hne .refl hc (htarget t rfl) hdata
          (hkeyed c (by simp) t (by simp) hdata)
    case isFalse hc =>
      split
      case isTrue hlegacy =>
        apply Triple.bind (triple_stageCopy hne hlegacy (hcanonical c rfl) htarget hkeyed hkey)
        intro _
        apply triple_of_exists
        intro t
        apply triple_of_and
        intro ht
        have hmove : Moves key ⟨[c], [t]⟩ ⟨[], [t]⟩ := .remove hlegacy ht.target ht.data ht.same
        apply Triple.bind (triple_write ht.reaches hmove fun s h =>
          ⟨_, rfl, h.delete_canonical hne⟩)
        intro _
        apply triple_restore hne (ht.reaches.tail hmove) (hcanonical c rfl) ht.target ht.data
          ((hkey c).trans ht.same)
      case isFalse hlegacy =>
        apply triple_fail
        intro s h
        use h
        intro hsound
        apply (hsound.canonical_class c (by simp)).elim hc hlegacy

end Keychain

end Vizor
