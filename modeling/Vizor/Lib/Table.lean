import Mathlib.Data.List.Nodup
import Mathlib.Tactic.Common

/-!
# Tables of rows

A table is the list of its rows.  The statements that change a table update the rows that
meet a condition, delete them, or add a row; a column list of the table is the list of the
values of a column.
-/

namespace Table

variable {ρ κ α : Type*}

/-! ### Statements -/

/-- Change the rows that meet `p` by `f`. -/
def updateWhere (p : ρ → Bool) (f : ρ → ρ) (t : List ρ) : List ρ :=
  t.map fun row => if p row then f row else row

/-- Remove the rows that meet `p`. -/
def deleteWhere (p : ρ → Bool) (t : List ρ) : List ρ :=
  t.filter fun row => !p row

/-- Add `row`, after the removal of the rows with its key. -/
def upsert [DecidableEq κ] (key : ρ → κ) (row : ρ) (t : List ρ) : List ρ :=
  deleteWhere (fun other => decide (key other = key row)) t ++ [row]

/-! ### Membership -/

theorem mem_updateWhere {p : ρ → Bool} {f : ρ → ρ} {t : List ρ} {row' : ρ} :
  row' ∈ updateWhere p f t ↔ ∃ row ∈ t, (if p row then f row else row) = row'
  := by
  simp [updateWhere]

@[simp]
theorem mem_deleteWhere {p : ρ → Bool} {t : List ρ} {row : ρ} :
  row ∈ deleteWhere p t ↔ row ∈ t ∧ p row = false
  := by
  simp [deleteWhere]

theorem mem_upsert [DecidableEq κ] {key : ρ → κ} {row : ρ} {t : List ρ} {row' : ρ} :
  row' ∈ upsert key row t ↔ row' ∈ t ∧ key row' ≠ key row ∨ row' = row
  := by
  simp [upsert]

/-! ### Changes that do nothing -/

/-- An update that meets no row changes nothing. -/
theorem updateWhere_eq_self {p : ρ → Bool} {f : ρ → ρ} {t : List ρ}
    (h : ∀ row ∈ t, p row = true → f row = row) :
  updateWhere p f t = t
  := by
  unfold updateWhere
  rw [List.map_congr_left (g := id), List.map_id]
  intro row hrow
  by_cases hp : p row
  · simp [hp, h row hrow hp]
  · simp [hp]

/-- A deletion that meets no row changes nothing. -/
theorem deleteWhere_eq_self {p : ρ → Bool} {t : List ρ} (h : ∀ row ∈ t, p row = false) :
  deleteWhere p t = t
  := by
  unfold deleteWhere
  rw [List.filter_eq_self]
  intro row hrow
  simp [h row hrow]

/-- An update that has been made changes nothing. -/
theorem updateWhere_updateWhere_self {p : ρ → Bool} {f : ρ → ρ} {t : List ρ}
    (h : ∀ row ∈ t, p row = true → p (f row) = true → f (f row) = f row) :
  updateWhere p f (updateWhere p f t) = updateWhere p f t
  := by
  apply updateWhere_eq_self
  intro row' hrow' hp
  obtain ⟨row, hrow, rfl⟩ := mem_updateWhere.mp hrow'
  by_cases hrowp : p row
  · simp only [hrowp, if_true] at hp ⊢
    apply h row hrow hrowp hp
  · simp only [hrowp] at hp
    exact absurd hp hrowp

/-- Two deletions are one. -/
theorem deleteWhere_deleteWhere {p q : ρ → Bool} {t : List ρ} :
  deleteWhere p (deleteWhere q t) = deleteWhere (fun row => q row || p row) t
  := by
  unfold deleteWhere
  rw [List.filter_filter]
  congr 1
  funext row
  cases hp : p row <;> cases hq : q row <;> simp [hp, hq]

/-- Two updates by the same change are one, when the change keeps the second condition. -/
theorem updateWhere_updateWhere {p q : ρ → Bool} {f : ρ → ρ} {t : List ρ}
    (hp : ∀ row, p (f row) = p row) (hf : ∀ row, f (f row) = f row) :
  updateWhere p f (updateWhere q f t) = updateWhere (fun row => q row || p row) f t
  := by
  unfold updateWhere
  rw [List.map_map]
  apply List.map_congr_left
  intro row _
  rw [Function.comp_apply]
  cases hq : q row <;> cases hpr : p row <;> simp [hp, hpr, hq, hf]

/-- Updates one after the other change each row by itself. -/
theorem foldl_updateWhere {p : α → ρ → Bool} {f : α → ρ → ρ} {xs : List α} {t : List ρ} :
  xs.foldl (fun t x => updateWhere (p x) (f x) t) t
    = t.map fun row => xs.foldl (fun row x => if p x row then f x row else row) row
  := by
  induction xs generalizing t with
  | nil => simp
  | cons x xs ih =>
    rw [List.foldl_cons, ih, updateWhere, List.map_map]
    rfl

/-! ### Columns -/

/-- An update that keeps a column keeps the column list. -/
theorem map_updateWhere {p : ρ → Bool} {f : ρ → ρ} {t : List ρ} {col : ρ → α}
    (h : ∀ row ∈ t, p row = true → col (f row) = col row) :
  (updateWhere p f t).map col = t.map col
  := by
  unfold updateWhere
  rw [List.map_map]
  apply List.map_congr_left
  intro row hrow
  by_cases hp : p row
  · simp [hp, h row hrow hp]
  · simp [hp]

/-- An update that keeps a condition keeps the number of rows that meet it. -/
theorem countP_updateWhere {p q : ρ → Bool} {f : ρ → ρ} {t : List ρ}
    (h : ∀ row, q (f row) = q row) :
  (updateWhere p f t).countP q = t.countP q
  := by
  unfold updateWhere
  rw [List.countP_map]
  congr 1
  funext row
  rw [Function.comp_apply]
  split
  · apply h
  · rfl

/-- A deletion leaves a part of a column list. -/
theorem map_deleteWhere_sublist {p : ρ → Bool} {t : List ρ} {col : ρ → α} :
  ((deleteWhere p t).map col).Sublist (t.map col)
  := List.filter_sublist.map col

/-- Selecting by a kept column commutes with an update. -/
theorem filter_updateWhere {p q : ρ → Bool} {f : ρ → ρ} {t : List ρ}
    (h : ∀ row ∈ t, p row = true → q (f row) = q row) :
  (updateWhere p f t).filter q = updateWhere p f (t.filter q)
  := by
  induction t with
  | nil => rfl
  | cons row t ih =>
    have ht := ih fun r hr => h r (List.mem_cons_of_mem _ hr)
    have hq : q (if p row then f row else row) = q row := by
      by_cases hp : p row
      · simp [hp, h row List.mem_cons_self hp]
      · simp [hp]
    unfold updateWhere at ht ⊢
    rw [List.map_cons, List.filter_cons, List.filter_cons, hq, ht]
    by_cases hr : q row <;> simp [hr]

/-- The rows of a table next to their changed rows. -/
theorem mem_zip_map {f : ρ → ρ} {t : List ρ} {row row' : ρ} (h : (row, row') ∈ t.zip (t.map f)) :
  row ∈ t ∧ row' = f row
  := by
  induction t with
  | nil => cases h
  | cons first t ih =>
    rw [List.map_cons, List.zip_cons_cons] at h
    rcases List.mem_cons.mp h with heq | h
    · cases heq
      exact ⟨List.mem_cons_self, rfl⟩
    · obtain ⟨hrow, hrow'⟩ := ih h
      exact ⟨List.mem_cons_of_mem _ hrow, hrow'⟩

end Table
