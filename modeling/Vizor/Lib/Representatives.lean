import Mathlib.Data.List.Basic
import Mathlib.Data.List.Nodup
import Mathlib.Logic.Function.Basic
import Mathlib.Tactic.Common

/-!
# One entry for each key

Some entries of a list have a key.  The list is gone through once, and the place of one entry
is kept for each key: the first one, which a later one replaces when it is live and the one
before is not.  The other entries with the key are left out, and the entries without a key stay.
-/

namespace Representatives

universe u v

variable {α : Type u} {κ : Type v}

/-- The place of the entry kept for each key, and the places left out. -/
structure Choice (κ : Type v) where
  representative : κ → Option Nat
  duplicates : List Nat

variable (key : α → Option κ) (live : α → Bool) (source : List α)

/-- The choice after one more entry. -/
def choose [DecidableEq κ] (choice : Choice κ) (index : Nat) (entry : α) : Choice κ :=
  match key entry with
  | none => choice
  | some k =>
    match choice.representative k with
    | none =>
      { choice with representative := Function.update choice.representative k (some index) }
    | some previous =>
      if !source[previous]?.any live && live entry then
        { representative := Function.update choice.representative k (some index)
          duplicates := choice.duplicates ++ [previous] }
      else { choice with duplicates := choice.duplicates ++ [index] }

/-- The choice after all entries. -/
def choice [DecidableEq κ] : Choice κ :=
  source.zipIdx.foldl (fun choice x => choose key live source choice x.2 x.1)
    { representative := fun _ => none, duplicates := [] }

/-- The entries that are not left out. -/
def distinct [DecidableEq κ] : List α :=
  (source.zipIdx.filter fun x => x.2 ∉ (choice key live source).duplicates).map (·.1)

/-! ### What is chosen -/

/-- The entry at a place has the key. -/
def HasKey (source : List α) (index : Nat) (k : κ) : Prop :=
  ∃ entry, source[index]? = some entry ∧ key entry = some k

/-- The entry at a place is live. -/
def IsLive (source : List α) (index : Nat) : Prop :=
  source[index]?.any live = true

/-- What was chosen among the first `n` entries. -/
structure Chosen (n : Nat) (choice : Choice κ) : Prop where
  represents {k : κ} {index : Nat} (h : choice.representative k = some index) :
    index < n ∧ HasKey key source index k
  represented {k : κ} {index : Nat} (hlt : index < n) (h : HasKey key source index k) :
    ∃ representative, choice.representative k = some representative
  prefers {k : κ} {index other : Nat} (h : choice.representative k = some index)
    (hlt : other < n) (hother : HasKey key source other k) (hlive : IsLive live source other) :
    IsLive live source index
  duplicate {index : Nat} : index ∈ choice.duplicates
    ↔ index < n ∧ ∃ k, HasKey key source index k ∧ choice.representative k ≠ some index

variable {key live source}

theorem HasKey.inj {index : Nat} {k k' : κ} (h : HasKey key source index k)
    (h' : HasKey key source index k') :
  k = k'
  := by
  obtain ⟨entry, hentry, hk⟩ := h
  obtain ⟨entry', hentry', hk'⟩ := h'
  rw [hentry] at hentry'
  cases hentry'
  apply Option.some.inj (hk.symm.trans hk')

/-- An entry without a key changes nothing. -/
theorem Chosen.keyless {n : Nat} {choice : Choice κ} (h : Chosen key live source n choice)
    (hnone : ∀ k, ¬ HasKey key source n k) :
  Chosen key live source (n + 1) choice
  := by
  have hlt : ∀ {index k}, index < n + 1 → HasKey key source index k → index < n := by
    intro index k hindex hk
    apply Nat.lt_of_le_of_ne (Nat.le_of_lt_succ hindex)
    rintro rfl
    apply hnone k hk
  constructor
  · intro k index hrep
    obtain ⟨hindex, hk⟩ := h.represents hrep
    exact ⟨Nat.lt_succ_of_lt hindex, hk⟩
  · intro k index hindex hk
    apply h.represented (hlt hindex hk) hk
  · intro k index other hrep hother hk hlive
    apply h.prefers hrep (hlt hother hk) hk hlive
  · intro index
    rw [h.duplicate]
    constructor
    · rintro ⟨hindex, hdup⟩
      exact ⟨Nat.lt_succ_of_lt hindex, hdup⟩
    · rintro ⟨hindex, k, hk, hne⟩
      exact ⟨hlt hindex hk, k, hk, hne⟩

/-- A further entry with its key is left out. -/
theorem Chosen.leave {n previous : Nat} {choice : Choice κ} {k : κ}
    (h : Chosen key live source n choice) (hk : HasKey key source n k)
    (hprevious : choice.representative k = some previous)
    (hlive : IsLive live source n → IsLive live source previous) :
  Chosen key live source (n + 1) { choice with duplicates := choice.duplicates ++ [n] }
  := by
  constructor
  · intro k' index hrep
    obtain ⟨hindex, hk'⟩ := h.represents hrep
    exact ⟨Nat.lt_succ_of_lt hindex, hk'⟩
  · intro k' index hindex hk'
    rcases Nat.lt_succ_iff_lt_or_eq.1 hindex with hindex | rfl
    · apply h.represented hindex hk'
    · rw [hk'.inj hk]
      exact ⟨previous, hprevious⟩
  · intro k' index other hrep hother hk' hother'
    rcases Nat.lt_succ_iff_lt_or_eq.1 hother with hother | rfl
    · apply h.prefers hrep hother hk' hother'
    · obtain rfl := hk'.inj hk
      obtain rfl := Option.some.inj (hprevious.symm.trans hrep)
      apply hlive hother'
  · intro index
    rw [List.mem_append, List.mem_singleton, h.duplicate]
    constructor
    · rintro (⟨hindex, hdup⟩ | rfl)
      · exact ⟨Nat.lt_succ_of_lt hindex, hdup⟩
      · refine ⟨Nat.lt_succ_self _, k, hk, ?_⟩
        intro hself
        apply Nat.lt_irrefl _ (h.represents hself).1
    · rintro ⟨hindex, hdup⟩
      rcases Nat.lt_succ_iff_lt_or_eq.1 hindex with hindex | rfl
      · exact .inl ⟨hindex, hdup⟩
      · exact .inr rfl

/-- The entry becomes the representative of its key, and the one before is left out. -/
theorem Chosen.take {n : Nat} {choice choice' : Choice κ} {k : κ}
    (h : Chosen key live source n choice) (hk : HasKey key source n k)
    (hlive : (∃ previous, choice.representative k = some previous) → IsLive live source n)
    (hself : choice'.representative k = some n)
    (hothers : ∀ k', k' ≠ k → choice'.representative k' = choice.representative k')
    (hduplicates : choice'.duplicates = choice.duplicates ++ (choice.representative k).toList) :
  Chosen key live source (n + 1) choice'
  := by
  constructor
  · intro k' index hrep
    by_cases heq : k' = k
    · subst heq
      rw [hself] at hrep
      cases hrep
      exact ⟨Nat.lt_succ_self _, hk⟩
    · rw [hothers _ heq] at hrep
      obtain ⟨hindex, hk'⟩ := h.represents hrep
      exact ⟨Nat.lt_succ_of_lt hindex, hk'⟩
  · intro k' index hindex hk'
    by_cases heq : k' = k
    · subst heq
      exact ⟨n, hself⟩
    · rw [hothers _ heq]
      rcases Nat.lt_succ_iff_lt_or_eq.1 hindex with hindex | rfl
      · apply h.represented hindex hk'
      · exact absurd (hk'.inj hk) heq
  · intro k' index other hrep hother hk' hother'
    by_cases heq : k' = k
    · subst heq
      rw [hself] at hrep
      cases hrep
      rcases Nat.lt_succ_iff_lt_or_eq.1 hother with hother | rfl
      · apply hlive (h.represented hother hk')
      · apply hother'
    · rw [hothers _ heq] at hrep
      rcases Nat.lt_succ_iff_lt_or_eq.1 hother with hother | rfl
      · apply h.prefers hrep hother hk' hother'
      · exact absurd (hk'.inj hk) heq
  · intro index
    rw [hduplicates, List.mem_append, Option.mem_toList, h.duplicate]
    constructor
    · rintro (⟨hindex, k', hk', hne⟩ | hrep)
      · refine ⟨Nat.lt_succ_of_lt hindex, k', hk', ?_⟩
        by_cases heq : k' = k
        · subst heq
          rw [hself]
          rintro ⟨⟩
          apply Nat.lt_irrefl _ hindex
        · rwa [hothers _ heq]
      · obtain ⟨hindex, hk'⟩ := h.represents hrep
        refine ⟨Nat.lt_succ_of_lt hindex, k, hk', ?_⟩
        rw [hself]
        rintro ⟨⟩
        apply Nat.lt_irrefl _ hindex
    · rintro ⟨hindex, k', hk', hne⟩
      rcases Nat.lt_succ_iff_lt_or_eq.1 hindex with hindex | rfl
      · by_cases hrep : choice.representative k' = some index
        · by_cases heq : k' = k
          · subst heq
            exact .inr hrep
          · rw [hothers _ heq] at hne
            exact absurd hrep hne
        · exact .inl ⟨hindex, k', hk', hrep⟩
      · rw [hk'.inj hk, hself] at hne
        exact absurd rfl hne

variable [DecidableEq κ]

/-- One more entry. -/
theorem Chosen.step {n : Nat} {choice : Choice κ} {entry : α}
    (h : Chosen key live source n choice) (hentry : source[n]? = some entry) :
  Chosen key live source (n + 1) (choose key live source choice n entry)
  := by
  have hlive : IsLive live source n ↔ live entry = true := by
    rw [IsLive, hentry]
    rfl
  rw [choose]
  cases hkey : key entry with
  | none =>
    apply h.keyless
    rintro k ⟨entry', hentry', hk⟩
    rw [hentry] at hentry'
    cases hentry'
    rw [hkey] at hk
    cases hk
  | some k =>
    have hk : HasKey key source n k := ⟨entry, hentry, hkey⟩
    simp only
    cases hprevious : choice.representative k with
    | none =>
      apply h.take hk (by simp [hprevious]) (Function.update_self ..)
      · intro k' hne
        apply Function.update_of_ne hne ..
      · simp [hprevious]
    | some previous =>
      simp only
      split
      · rename_i hbetter
        rw [Bool.and_eq_true] at hbetter
        apply h.take hk (fun _ => hlive.2 hbetter.2) (Function.update_self ..)
        · intro k' hne
          apply Function.update_of_ne hne ..
        · simp [hprevious]
      · rename_i hworse
        apply h.leave hk hprevious
        intro hentryLive
        rw [hlive] at hentryLive
        simpa [hentryLive, IsLive] using hworse

theorem chosen_choice (key : α → Option κ) (live : α → Bool) (source : List α) :
  Chosen key live source source.length (choice key live source)
  := by
  have hprefix : ∀ (rest : List α) (n : Nat) (c : Choice κ), source.drop n = rest
      → Chosen key live source n c → n ≤ source.length
      → Chosen key live source source.length
          ((rest.zipIdx n).foldl (fun c x => choose key live source c x.2 x.1) c) := by
    intro rest
    induction rest with
    | nil =>
      intro n c hdrop hchosen hle
      rw [List.drop_eq_nil_iff] at hdrop
      rw [Nat.le_antisymm hle hdrop] at hchosen
      apply hchosen
    | cons entry rest ih =>
      intro n c hdrop hchosen hle
      have hentry : source[n]? = some entry := by
        rw [← List.head?_drop, hdrop, List.head?_cons]
      have hlt : n < source.length := (List.getElem?_eq_some_iff.1 hentry).1
      rw [List.zipIdx_cons, List.foldl_cons]
      apply ih (n + 1)
      · rw [← List.tail_drop, hdrop, List.tail_cons]
      · apply hchosen.step hentry
      · apply hlt
  apply hprefix source 0 _ rfl _ (Nat.zero_le _)
  constructor <;> simp

/-! ### What is left -/

/-- The entries without a key stay, in order. -/
theorem filter_keyless_distinct (key : α → Option κ) (live : α → Bool) (source : List α) :
  (distinct key live source).filter (fun entry => key entry = none)
    = source.filter fun entry => key entry = none
  := by
  have hchosen := chosen_choice key live source
  conv_rhs => rw [← List.zipIdx_map_fst 0 source]
  rw [distinct, List.filter_map, List.filter_map, List.filter_filter]
  congr 1
  apply List.filter_congr
  rintro ⟨entry, index⟩ hmem
  rw [List.mem_zipIdx_iff_getElem?] at hmem
  by_cases hkey : key entry = none
  · have hkept : index ∉ (choice key live source).duplicates := by
      rw [hchosen.duplicate]
      rintro ⟨-, k, ⟨entry', hentry', hk⟩, -⟩
      rw [hmem] at hentry'
      cases hentry'
      rw [hkey] at hk
      cases hk
    simp [hkey, hkept]
  · simp [hkey]

theorem distinct_subset :
  distinct key live source ⊆ source
  := by
  intro entry hentry
  rw [distinct, List.mem_map] at hentry
  obtain ⟨⟨_, index⟩, hmem, rfl⟩ := hentry
  rw [List.mem_filter, List.mem_zipIdx_iff_getElem?] at hmem
  apply List.mem_of_getElem? hmem.1

/-- The place of an entry is the only one with its number. -/
theorem filter_zipIdx_index {index : Nat} {entry : α} (h : source[index]? = some entry) :
  source.zipIdx.filter (fun x => x.2 = index) = [(entry, index)]
  := by
  classical
  have heq : source.zipIdx.filter (fun x => decide (x.2 = index))
      = source.zipIdx.filter fun x => decide (x = (entry, index)) := by
    apply List.filter_congr
    rintro ⟨other, i⟩ hmem
    rw [List.mem_zipIdx_iff_getElem?] at hmem
    rw [decide_eq_decide]
    constructor
    · rintro rfl
      rw [h] at hmem
      cases hmem
      rfl
    · rintro ⟨⟩
      rfl
  have hnodup : source.zipIdx.Nodup := by
    apply List.Nodup.of_map Prod.snd
    rw [List.zipIdx_map_snd]
    exact List.nodup_range'
  have hmem : (entry, index) ∈ source.zipIdx := List.mem_zipIdx_iff_getElem?.2 h
  rw [heq, List.filter_eq, List.count_eq_one_of_mem hnodup hmem]
  rfl

/-- One entry is left for every key of the list, and it is live when one with the key is. -/
theorem filter_key_distinct {k : κ} (h : ∃ entry ∈ source, key entry = some k) :
  ∃ entry, (distinct key live source).filter (fun entry => key entry = some k) = [entry]
    ∧ entry ∈ source ∧ key entry = some k
    ∧ ∀ other ∈ source, key other = some k → live other = true → live entry = true
  := by
  have hchosen := chosen_choice key live source
  obtain ⟨first, hfirst, hkey⟩ := h
  obtain ⟨at_first, hat⟩ := List.mem_iff_getElem?.1 hfirst
  have hlength : ∀ {index : Nat} {entry : α}, source[index]? = some entry
      → index < source.length := fun h => (List.getElem?_eq_some_iff.1 h).1
  obtain ⟨index, hrep⟩ := hchosen.represented (hlength hat) ⟨first, hat, hkey⟩
  obtain ⟨hlt, entry, hentry, hk⟩ := hchosen.represents hrep
  refine ⟨entry, ?_, List.mem_of_getElem? hentry, hk, ?_⟩
  · rw [distinct, List.filter_map, List.filter_filter]
    have hfilter : source.zipIdx.filter
        (fun x => ((fun entry => decide (key entry = some k)) ∘ Prod.fst) x
          && decide (x.2 ∉ (choice key live source).duplicates))
        = source.zipIdx.filter fun x => x.2 = index := by
      apply List.filter_congr
      rintro ⟨other, i⟩ hmem
      rw [List.mem_zipIdx_iff_getElem?] at hmem
      simp only [Function.comp, ← Bool.decide_and]
      rw [decide_eq_decide, hchosen.duplicate]
      constructor
      · rintro ⟨hother, hkept⟩
        by_contra hne
        apply hkept
        refine ⟨hlength hmem, k, ⟨other, hmem, hother⟩, ?_⟩
        rw [hrep]
        rintro ⟨⟩
        exact hne rfl
      · rintro rfl
        rw [hentry] at hmem
        cases hmem
        refine ⟨hk, ?_⟩
        rintro ⟨-, k', hk', hne⟩
        rw [hk'.inj ⟨_, hentry, hk⟩] at hne
        apply hne hrep
    rw [hfilter, filter_zipIdx_index hentry]
    rfl
  · intro other hother hkOther hlive
    obtain ⟨i, hi⟩ := List.mem_iff_getElem?.1 hother
    have hliveAt := hchosen.prefers hrep (hlength hi) ⟨other, hi, hkOther⟩
      (by rw [IsLive, hi]; exact hlive)
    rw [IsLive, hentry] at hliveAt
    apply hliveAt

/-- A list with at most one entry for each key stays as it is. -/
theorem distinct_eq_self
    (h : ∀ k, (source.filter fun entry => key entry = some k).length ≤ 1) :
  distinct key live source = source
  := by
  have hchosen := chosen_choice key live source
  conv_rhs => rw [← List.zipIdx_map_fst 0 source]
  rw [distinct]
  congr 1
  rw [List.filter_eq_self]
  rintro ⟨entry, index⟩ hmem
  rw [decide_eq_true_iff, hchosen.duplicate]
  rintro ⟨hlt, k, hk, hne⟩
  obtain ⟨other, hother⟩ := hchosen.represented hlt hk
  obtain ⟨-, otherEntry, hotherEntry, hotherKey⟩ := hchosen.represents hother
  obtain ⟨entry', hentry', hkey⟩ := hk
  have hplaces : (source.zipIdx.filter fun x => key x.1 = some k).length ≤ 1 := by
    have hle := h k
    conv at hle => rw [← List.zipIdx_map_fst 0 source]
    rw [List.filter_map, List.length_map] at hle
    apply hle
  have hfirst : (entry', index) ∈ source.zipIdx.filter fun x => key x.1 = some k := by
    rw [List.mem_filter, List.mem_zipIdx_iff_getElem?]
    exact ⟨hentry', by simpa using hkey⟩
  have hsecond : (otherEntry, other) ∈ source.zipIdx.filter fun x => key x.1 = some k := by
    rw [List.mem_filter, List.mem_zipIdx_iff_getElem?]
    exact ⟨hotherEntry, by simpa using hotherKey⟩
  apply hne
  rw [hother]
  rcases hlist : source.zipIdx.filter fun x => key x.1 = some k with _ | ⟨x, _ | ⟨y, rest⟩⟩
  · rw [hlist] at hfirst
    cases hfirst
  · rw [hlist, List.mem_singleton] at hfirst hsecond
    apply congrArg (fun x => some x.2) (hsecond.trans hfirst.symm)
  · rw [hlist] at hplaces
    simp at hplaces

/-- Leaving out duplicates again changes nothing. -/
theorem distinct_distinct :
  distinct key live (distinct key live source) = distinct key live source
  := by
  apply distinct_eq_self
  intro k
  by_cases h : ∃ entry ∈ source, key entry = some k
  · obtain ⟨entry, hfilter, -⟩ := filter_key_distinct h
    rw [hfilter]
    apply Nat.le_refl 1
  · rw [List.filter_eq_nil_iff.2]
    · apply Nat.zero_le _
    · intro entry hentry
      rw [decide_eq_true_iff]
      intro hk
      apply h ⟨entry, distinct_subset hentry, hk⟩

end Representatives
