import Mathlib.Data.Finset.Card
import Mathlib.Data.Finset.Insert
import Mathlib.Data.Finset.SDiff
import Mathlib.Tactic.Common

/-!
# Saturation of a set along dependencies

Each item has a key and depends on the keys of other items.  Passes over the items add to a
set the key of every item that depends on a member of the set, until a pass adds nothing.
The set then contains the keys that can be reached.  The passes also collect the keys of
the marked items that depend on a member.
-/

namespace Closure

variable {ι α : Type*} [DecidableEq α]
  (key : ι → α) (parents : ι → List α) (mark : ι → Bool) (items : List ι)

/-- The keys that can be reached from the members of `A` along the dependencies. -/
inductive Reached (A : Finset α) : α → Prop where
  | base {a : α} (h : a ∈ A) : Reached A a
  | step {x : ι} {a : α} (hx : x ∈ items) (ha : a ∈ parents x) (h : Reached A a) :
      Reached A (key x)

/-- Add the key of an item that depends on a member of the first set to it, and to the
second set if it is marked. -/
def visit (found : Finset α × Finset α) (x : ι) : Finset α × Finset α :=
  if (parents x).any (· ∈ found.1) then
    (insert (key x) found.1, if mark x then insert (key x) found.2 else found.2)
  else found

/-- Visit all items. -/
def pass (found : Finset α × Finset α) : Finset α × Finset α :=
  items.foldl (visit key parents mark) found

variable {key parents mark items}

/-! ### Passes -/

variable (key parents mark) in
/-- A visit removes no member. -/
theorem subset_visit (found : Finset α × Finset α) (x : ι) :
  found.1 ⊆ (visit key parents mark found x).1 ∧ found.2 ⊆ (visit key parents mark found x).2
  := by
  unfold visit
  split
  · constructor
    · apply Finset.subset_insert
    · dsimp only
      split
      · apply Finset.subset_insert
      · apply Finset.Subset.refl
  · exact ⟨Finset.Subset.refl _, Finset.Subset.refl _⟩

variable (key parents mark items) in
/-- A pass removes no member. -/
theorem subset_pass (found : Finset α × Finset α) :
  found.1 ⊆ (pass key parents mark items found).1
    ∧ found.2 ⊆ (pass key parents mark items found).2
  := by
  unfold pass
  induction items generalizing found with
  | nil => exact ⟨Finset.Subset.refl _, Finset.Subset.refl _⟩
  | cons x items ih =>
    obtain ⟨h₁, h₂⟩ := subset_visit key parents mark found x
    obtain ⟨h₁', h₂'⟩ := ih (visit key parents mark found x)
    exact ⟨h₁.trans h₁', h₂.trans h₂'⟩

/-- A visit adds the key of the item at most. -/
theorem mem_of_mem_visit {found : Finset α × Finset α} {x : ι} {a : α}
    (h : a ∈ (visit key parents mark found x).1) :
  a ∈ found.1 ∨ a = key x
  := by
  unfold visit at h
  split at h
  · rcases Finset.mem_insert.mp h with rfl | h
    · exact .inr rfl
    · exact .inl h
  · exact .inl h

/-- A pass adds keys of the items only. -/
theorem mem_of_mem_pass {found : Finset α × Finset α} {a : α}
    (h : a ∈ (pass key parents mark items found).1) :
  a ∈ found.1 ∨ a ∈ items.map key
  := by
  unfold pass at h
  induction items generalizing found with
  | nil => exact .inl h
  | cons x items ih =>
    rw [List.map_cons, List.mem_cons]
    rcases ih h with h | h
    · rcases mem_of_mem_visit h with h | h
      · exact .inl h
      · exact .inr (.inl h)
    · exact .inr (.inr h)

/-- A pass that adds something leaves fewer keys to be added. -/
theorem card_lt_of_pass {found : Finset α × Finset α}
    (h : (pass key parents mark items found).1.card ≠ found.1.card) :
  ((items.map key).toFinset \ (pass key parents mark items found).1).card
    < ((items.map key).toFinset \ found.1).card
  := by
  have hsub := (subset_pass key parents mark items found).1
  have hlt : found.1.card < (pass key parents mark items found).1.card := by
    apply Nat.lt_of_le_of_ne (Finset.card_le_card hsub)
    exact fun heq => h heq.symm
  obtain ⟨a, ha, hnew⟩ := Finset.exists_mem_notMem_of_card_lt_card hlt
  have hkey : a ∈ items.map key := by
    rcases mem_of_mem_pass ha with h | h
    · exact absurd h hnew
    · apply h
  apply Finset.card_lt_card
  rw [Finset.ssubset_iff_of_subset (Finset.sdiff_subset_sdiff (Finset.Subset.refl _) hsub)]
  use a
  simp [hkey, hnew, ha]

variable (key mark) in
/-- A visit of an item that depends on a member adds its key. -/
theorem mem_visit {found : Finset α × Finset α} {x : ι} {a : α} (ha : a ∈ parents x)
    (hfound : a ∈ found.1) :
  key x ∈ (visit key parents mark found x).1
    ∧ (mark x = true → key x ∈ (visit key parents mark found x).2)
  := by
  have hany : (parents x).any (· ∈ found.1) = true := by
    rw [List.any_eq_true]
    exact ⟨a, ha, by simpa using hfound⟩
  unfold visit
  rw [if_pos hany]
  constructor
  · apply Finset.mem_insert_self
  · intro hmark
    simp [hmark]

/-- A pass adds the keys of all items that depend on a member. -/
theorem mem_pass {found : Finset α × Finset α} {x : ι} (hx : x ∈ items) {a : α}
    (ha : a ∈ parents x) (hfound : a ∈ found.1) :
  key x ∈ (pass key parents mark items found).1
    ∧ (mark x = true → key x ∈ (pass key parents mark items found).2)
  := by
  unfold pass
  induction items generalizing found with
  | nil => cases hx
  | cons y items ih =>
    rw [List.foldl_cons]
    rcases List.mem_cons.mp hx with rfl | hx
    · obtain ⟨h₁, h₂⟩ := mem_visit key mark ha hfound
      obtain ⟨hs₁, hs₂⟩ := subset_pass key parents mark items (visit key parents mark found x)
      exact ⟨hs₁ h₁, fun hmark => hs₂ (h₂ hmark)⟩
    · apply ih hx
      apply (subset_visit key parents mark found y).1 hfound

/-- What can be reached with a pass can be reached without it. -/
structure Sound (key : ι → α) (parents : ι → List α) (mark : ι → Bool) (items : List ι)
    (start found : Finset α × Finset α) : Prop where
  reached : ∀ a ∈ found.1, Reached key parents items start.1 a
  marked : ∀ a ∈ found.2, a ∈ start.2 ∨ ∃ x ∈ items, key x = a ∧ mark x = true
    ∧ ∃ b ∈ parents x, Reached key parents items start.1 b

theorem Sound.pass {start found : Finset α × Finset α}
    (h : Sound key parents mark items start found) :
  Sound key parents mark items start (pass key parents mark items found)
  := by
  unfold Closure.pass
  suffices hsub : ∀ rest : List ι, (∀ x ∈ rest, x ∈ items) → ∀ found,
      Sound key parents mark items start found →
      Sound key parents mark items start (rest.foldl (visit key parents mark) found) from
    hsub items (fun _ => id) found h
  clear h found
  intro rest
  induction rest with
  | nil => exact fun _ _ h => h
  | cons x rest ih =>
    intro hrest found h
    apply ih fun y hy => hrest y (List.mem_cons_of_mem _ hy)
    have hx := hrest x List.mem_cons_self
    unfold visit
    split
    · rename_i hany
      obtain ⟨b, hb, hmem⟩ := List.any_eq_true.mp hany
      have hreached := h.reached b (by simpa using hmem)
      constructor
      · intro a ha
        rcases Finset.mem_insert.mp ha with rfl | ha
        · exact .step hx hb hreached
        · apply h.reached a ha
      · intro a ha
        dsimp only at ha
        split at ha
        · rename_i hmark
          rcases Finset.mem_insert.mp ha with rfl | ha
          · exact .inr ⟨x, hx, rfl, hmark, b, hb, hreached⟩
          · apply h.marked a ha
        · apply h.marked a ha
    · apply h

/-! ### The saturation -/

variable (key parents mark items) in
/-- Repeat the passes until one adds nothing to the first set. -/
def saturate (found : Finset α × Finset α) : Finset α × Finset α :=
  let next := pass key parents mark items found
  if next.1.card = found.1.card then next else saturate next
termination_by ((items.map key).toFinset \ found.1).card
decreasing_by exact card_lt_of_pass ‹_›

omit [DecidableEq α] in
/-- A start is sound for itself. -/
theorem Sound.refl {start : Finset α × Finset α} :
  Sound key parents mark items start start
  := ⟨fun _ => .base, fun _ => .inl⟩

/-- The result of a saturation is what a pass makes of a set to which it adds nothing. -/
theorem saturate_sound {start found : Finset α × Finset α}
    (h : Sound key parents mark items start found)
    (hsub : start.1 ⊆ found.1 ∧ start.2 ⊆ found.2) :
  ∃ last : Finset α × Finset α, Sound key parents mark items start last
    ∧ start.1 ⊆ last.1 ∧ start.2 ⊆ last.2
    ∧ (pass key parents mark items last).1 = last.1
    ∧ saturate key parents mark items found = pass key parents mark items last
  := by
  induction found using saturate.induct key parents mark items with
  | case1 found next hcard =>
    use found, h, hsub.1, hsub.2
    constructor
    · symm
      apply Finset.eq_of_subset_of_card_le (subset_pass key parents mark items found).1
      apply Nat.le_of_eq hcard
    · rw [saturate, if_pos hcard]
  | case2 found next hcard ih =>
    rw [saturate, if_neg hcard]
    apply ih h.pass
    have hpass := subset_pass key parents mark items found
    exact ⟨hsub.1.trans hpass.1, hsub.2.trans hpass.2⟩

/-- The first set becomes what can be reached from it. -/
theorem mem_saturate_fst {start : Finset α × Finset α} {a : α} :
  a ∈ (saturate key parents mark items start).1 ↔ Reached key parents items start.1 a
  := by
  have hrefl : Sound key parents mark items start start := Sound.refl
  obtain ⟨last, hsound, hsub, -, hlast, heq⟩ :=
    saturate_sound hrefl ⟨Finset.Subset.refl _, Finset.Subset.refl _⟩
  rw [heq, hlast]
  constructor
  · apply hsound.reached a
  · intro h
    induction h with
    | base h => exact hsub h
    | step hx ha _ ih =>
      rw [← hlast]
      apply (mem_pass hx ha ih).1

/-- The second set gains the marked items that depend on what can be reached. -/
theorem mem_saturate_snd {start : Finset α × Finset α} {a : α} :
  a ∈ (saturate key parents mark items start).2
    ↔ a ∈ start.2 ∨ ∃ x ∈ items, key x = a ∧ mark x = true
      ∧ ∃ b ∈ parents x, Reached key parents items start.1 b
  := by
  have hrefl : Sound key parents mark items start start := Sound.refl
  obtain ⟨last, hsound, hsub, hsub', hlast, heq⟩ :=
    saturate_sound hrefl ⟨Finset.Subset.refl _, Finset.Subset.refl _⟩
  constructor
  · intro h
    rw [heq] at h
    apply hsound.pass.marked a h
  · rintro (h | ⟨x, hx, rfl, hmark, b, hb, hreached⟩)
    · rw [heq]
      apply (subset_pass key parents mark items last).2 (hsub' h)
    · rw [heq]
      apply (mem_pass hx hb _).2 hmark
      rw [← hlast, ← heq]
      apply mem_saturate_fst.mpr hreached

end Closure
