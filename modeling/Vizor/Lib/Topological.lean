import Mathlib.Data.Fintype.Pigeonhole
import Mathlib.Data.List.Nodup
import Mathlib.Data.Set.Finite.Basic
import Mathlib.Logic.Relation

/-!
# Topological orders

The nodes of a graph are taken one after the other, each after its parents.  An order is
greedy when it takes the least node, in a given relation, of those whose parents were all
taken.  A greedy order that cannot go on leaves out only nodes that depend on a cycle.
-/

namespace Topological

universe u v

variable {α : Type u}

/-- A node that was not taken, whose parents were all taken. -/
structure Available (nodes : Set α) (parents : α → Set α) (taken : List α) (a : α) : Prop where
  node : a ∈ nodes
  fresh : a ∉ taken
  ready : ∀ p ∈ parents a, p ∈ taken

/-- An order that always takes the least node that is available. -/
inductive Greedy (nodes : Set α) (parents : α → Set α) (r : α → α → Prop) : List α → Prop
  | nil : Greedy nodes parents r []
  | snoc {taken : List α} {a : α} (htaken : Greedy nodes parents r taken)
      (ha : Available nodes parents taken a)
      (hleast : ∀ b, Available nodes parents taken b → r a b) :
    Greedy nodes parents r (taken ++ [a])

/-- There is a way from a node along parents to a cycle. -/
def DependsOnCycle (parents : α → Set α) (a : α) : Prop :=
  ∃ b, Relation.ReflTransGen (fun c p => p ∈ parents c) a b
    ∧ Relation.TransGen (fun c p => p ∈ parents c) b b

variable {nodes : Set α} {parents : α → Set α} {r : α → α → Prop} {order : List α}

/-! ### What a greedy order takes -/

theorem Greedy.subset (h : Greedy nodes parents r order) :
  ∀ a ∈ order, a ∈ nodes
  := by
  induction h with
  | nil => simp
  | snoc _ ha _ ih =>
    intro b hb
    obtain hb | rfl := by simpa using hb
    · apply ih b hb
    · apply ha.node

theorem Greedy.nodup (h : Greedy nodes parents r order) :
  order.Nodup
  := by
  induction h with
  | nil => simp
  | snoc _ ha _ ih =>
    rw [List.nodup_append]
    refine ⟨ih, List.nodup_singleton _, ?_⟩
    rintro b hb _ hmem rfl
    obtain rfl := List.mem_singleton.mp hmem
    apply ha.fresh hb

/-- A node of a greedy order was the least one that was available after those before it. -/
theorem Greedy.split (h : Greedy nodes parents r order) {before after : List α} {a : α}
    (horder : order = before ++ a :: after) :
  Greedy nodes parents r before
    ∧ Available nodes parents before a
    ∧ ∀ b, Available nodes parents before b → r a b
  := by
  induction h generalizing after with
  | nil => simp at horder
  | @snoc taken b htaken hb hleast ih =>
    obtain rfl | ⟨after, last, rfl⟩ := after.eq_nil_or_concat
    · obtain ⟨rfl, hlast⟩ := List.append_inj' horder rfl
      obtain rfl : b = a := by simpa using hlast
      exact ⟨htaken, hb, hleast⟩
    · rw [List.concat_eq_append, ← List.cons_append, ← List.append_assoc] at horder
      obtain ⟨hinit, _⟩ := List.append_inj' horder rfl
      apply ih hinit

/-- The parents of a node come before it. -/
theorem Greedy.parents_before (h : Greedy nodes parents r order) {before after : List α} {a : α}
    (horder : order = before ++ a :: after) :
  ∀ p ∈ parents a, p ∈ before
  := (h.split horder).2.1.ready

theorem Greedy.parents_mem (h : Greedy nodes parents r order) {a : α} (ha : a ∈ order) :
  ∀ p ∈ parents a, p ∈ order
  := by
  obtain ⟨before, after, rfl⟩ := List.append_of_mem ha
  intro p hp
  apply List.mem_append_left _ (h.parents_before rfl p hp)

/-! ### What it leaves out -/

/-- When nothing is available, a node that was not taken has a parent that was not. -/
theorem exists_parent_not_mem (hparents : ∀ a ∈ nodes, parents a ⊆ nodes)
    (hdone : ∀ a, ¬ Available nodes parents order a) {a : α} (ha : a ∈ nodes)
    (hnot : a ∉ order) :
  ∃ p ∈ parents a, p ∈ nodes ∧ p ∉ order
  := by
  by_contra hnone
  apply hdone a
  refine ⟨ha, hnot, ?_⟩
  intro p hp
  by_contra hmissing
  apply hnone ⟨p, hp, hparents a ha hp, hmissing⟩

/-- When nothing is available, a node that was not taken depends on a cycle: a walk along
parents that were not taken comes back to one of finitely many nodes. -/
theorem dependsOnCycle_of_not_mem (hfinite : nodes.Finite)
    (hparents : ∀ a ∈ nodes, parents a ⊆ nodes)
    (hdone : ∀ a, ¬ Available nodes parents order a) {a : α} (ha : a ∈ nodes)
    (hnot : a ∉ order) :
  DependsOnCycle parents a
  := by
  have hnext : ∀ b : {b // b ∈ nodes ∧ b ∉ order}, ∃ p : {b // b ∈ nodes ∧ b ∉ order},
      p.1 ∈ parents b.1 := by
    rintro ⟨b, hb, hmissing⟩
    obtain ⟨p, hp, hleft⟩ := exists_parent_not_mem hparents hdone hb hmissing
    exact ⟨⟨p, hleft⟩, hp⟩
  choose next hnext using hnext
  let walk : ℕ → {b // b ∈ nodes ∧ b ∉ order} := fun n => next^[n] ⟨a, ha, hnot⟩
  have hstep : ∀ n, (walk (n + 1)).1 ∈ parents (walk n).1 := by
    intro n
    simp only [walk, Function.iterate_succ_apply']
    apply hnext
  have hwalk : ∀ m n, Relation.ReflTransGen (fun c p => p ∈ parents c) (walk m).1
      (walk (m + n)).1 := by
    intro m n
    induction n with
    | zero => exact .refl
    | succ n ih => exact ih.tail (hstep (m + n))
  have : Finite {b // b ∈ nodes ∧ b ∉ order} := (hfinite.subset fun _ h => h.1).to_subtype
  obtain ⟨m, n, hlt, hback⟩ : ∃ m n, m < n ∧ walk m = walk n := by
    obtain ⟨m, n, hne, hback⟩ := Finite.exists_ne_map_eq_of_infinite walk
    obtain hlt | hlt := Nat.lt_or_gt_of_ne hne
    · exact ⟨m, n, hlt, hback⟩
    · exact ⟨n, m, hlt, hback.symm⟩
  obtain ⟨d, rfl⟩ := Nat.exists_eq_add_of_lt hlt
  have hcycle := Relation.TransGen.tail' (hwalk m d) (hstep (m + d))
  rw [← hback] at hcycle
  exact ⟨(walk m).1, by simpa [walk] using hwalk 0 m, hcycle⟩

/-- A greedy order that cannot go on holds every node that does not depend on a cycle, after
the parents of the node. -/
theorem Greedy.topological (h : Greedy nodes parents r order) (hfinite : nodes.Finite)
    (hparents : ∀ a ∈ nodes, parents a ⊆ nodes)
    (hdone : ∀ a, ¬ Available nodes parents order a) {a : α} (ha : a ∈ nodes)
    (hacyclic : ¬ DependsOnCycle parents a) :
  ∃ before after, order = before ++ a :: after ∧ ∀ p ∈ parents a, p ∈ before
  := by
  have hmem : a ∈ order := by
    by_contra hnot
    apply hacyclic (dependsOnCycle_of_not_mem hfinite hparents hdone ha hnot)
  obtain ⟨before, after, horder⟩ := List.append_of_mem hmem
  exact ⟨before, after, horder, h.parents_before horder⟩

/-! ### There is one greedy order -/

/-- Of two greedy orders, one goes on where the other stops. -/
theorem Greedy.prefix_or_prefix (hanti : ∀ a ∈ nodes, ∀ b ∈ nodes, r a b → r b a → a = b)
    (h : Greedy nodes parents r order) {other : List α} (hother : Greedy nodes parents r other) :
  order <+: other ∨ other <+: order
  := by
  induction h with
  | nil => exact .inl (List.nil_prefix)
  | @snoc taken a htaken ha hleast ih =>
    obtain ⟨rest, rfl⟩ | hshort := ih
    · cases rest with
      | nil =>
        right
        simp
      | cons b rest =>
        left
        obtain ⟨_, hb, hleast'⟩ := hother.split rfl
        obtain rfl : a = b := hanti a ha.node b hb.node (hleast b hb) (hleast' a ha)
        exact ⟨rest, by simp⟩
    · right
      apply hshort.trans (List.prefix_append _ _)

/-- There is one greedy order that cannot go on. -/
theorem Greedy.unique (hanti : ∀ a ∈ nodes, ∀ b ∈ nodes, r a b → r b a → a = b)
    (h : Greedy nodes parents r order) (hdone : ∀ a, ¬ Available nodes parents order a)
    {other : List α} (hother : Greedy nodes parents r other)
    (hdone' : ∀ a, ¬ Available nodes parents other a) :
  order = other
  := by
  obtain ⟨rest, rfl⟩ | ⟨rest, rfl⟩ := h.prefix_or_prefix hanti hother
  · cases rest with
    | nil => simp
    | cons b rest => exact absurd (hother.split rfl).2.1 (hdone b)
  · cases rest with
    | nil => simp
    | cons b rest => exact absurd (h.split rfl).2.1 (hdone' b)

/-! ### Other names for the nodes -/

section

universe w

variable {β : Type w} {f : α → β} {parents' : β → Set β} {r' : β → β → Prop}

/-- What is available does not depend on the names of the nodes. -/
theorem available_map_iff (hf : Set.InjOn f nodes) (hparents : ∀ a ∈ nodes, parents a ⊆ nodes)
    (hparents' : ∀ a ∈ nodes, parents' (f a) = f '' parents a) {taken : List α}
    (htaken : ∀ a ∈ taken, a ∈ nodes) {b : β} :
  Available (f '' nodes) parents' (taken.map f) b
    ↔ ∃ a, f a = b ∧ Available nodes parents taken a
  := by
  have hmem : ∀ a ∈ nodes, f a ∈ taken.map f ↔ a ∈ taken := by
    intro a ha
    constructor
    · intro h
      obtain ⟨c, hc, heq⟩ := List.mem_map.mp h
      rwa [← hf (htaken c hc) ha heq]
    · apply List.mem_map_of_mem
  constructor
  · rintro ⟨⟨a, ha, rfl⟩, hfresh, hready⟩
    refine ⟨a, rfl, ha, fun h => hfresh ((hmem a ha).mpr h), ?_⟩
    intro p hp
    apply (hmem p (hparents a ha hp)).mp
    apply hready
    rw [hparents' a ha]
    apply Set.mem_image_of_mem f hp
  · rintro ⟨a, rfl, ha⟩
    refine ⟨Set.mem_image_of_mem f ha.node, fun h => ha.fresh ((hmem a ha.node).mp h), ?_⟩
    rw [hparents' a ha.node]
    rintro _ ⟨p, hp, rfl⟩
    apply (hmem p (hparents a ha.node hp)).mpr (ha.ready p hp)

/-- A greedy order stays one under other names. -/
theorem Greedy.map (hf : Set.InjOn f nodes) (hparents : ∀ a ∈ nodes, parents a ⊆ nodes)
    (hparents' : ∀ a ∈ nodes, parents' (f a) = f '' parents a)
    (hr : ∀ a ∈ nodes, ∀ b ∈ nodes, r a b → r' (f a) (f b))
    (h : Greedy nodes parents r order) :
  Greedy (f '' nodes) parents' r' (order.map f)
  := by
  induction h with
  | nil => exact .nil
  | @snoc taken a htaken ha hleast ih =>
    rw [List.map_append, List.map_singleton]
    apply Greedy.snoc ih
    · apply (available_map_iff hf hparents hparents' htaken.subset).mpr ⟨a, rfl, ha⟩
    · intro _ hother
      obtain ⟨b, rfl, hb⟩ := (available_map_iff hf hparents hparents' htaken.subset).mp hother
      apply hr a ha.node b hb.node (hleast b hb)

end

end Topological
