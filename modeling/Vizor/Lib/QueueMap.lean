import Mathlib.Data.List.Nodup
import Mathlib.Logic.Function.Basic

/-!
# Maps with a queue of their keys

The keys of a map stand in a queue.  What is put in stands at the end of the queue, and what is
removed is taken from its front, so that the map holds the end of the log of what was put in:
as much of it as the map may hold, or as much of it as is still alive.
-/

universe u v

variable {α : Type u} {β : Type v}

/-! ### The end of a log -/

namespace Log

/-- The last entries of a log. -/
def recent (n : Nat) (l : List α) : List α :=
  l.drop (l.length - n)

variable {n : Nat} {l m : List α} {x : α}

theorem length_recent_le :
  (recent n l).length ≤ n
  := by
  rw [recent, List.length_drop]
  omega

theorem recent_eq_self (h : l.length ≤ n) :
  recent n l = l
  := by
  rw [recent, Nat.sub_eq_zero_of_le h, List.drop_zero]

theorem recent_zero :
  recent 0 l = []
  := List.eq_nil_of_length_eq_zero (Nat.le_zero.mp length_recent_le)

theorem recent_cons (h : n ≤ l.length) :
  recent n (x :: l) = recent n l
  := by
  rw [recent, recent, List.length_cons, Nat.succ_sub h, List.drop_succ_cons]

/-- What is kept of what was kept before. -/
theorem recent_append :
  recent n (recent n l ++ m) = recent n (l ++ m)
  := by
  rw [recent, recent, recent, ← List.drop_append_of_le_length (Nat.sub_le _ _), List.drop_drop,
    List.length_drop, List.length_append]
  congr 1
  omega

theorem recent_sublist :
  (recent n l).Sublist l
  := List.drop_sublist _ _

theorem map_recent {f : α → β} :
  (recent n l).map f = recent n (l.map f)
  := by
  rw [recent, recent, List.map_drop, List.length_map]

/-- Equal entries of a log are more than `n` places apart. -/
def Spaced (n : Nat) (l : List α) : Prop :=
  ∀ (i j : Nat) (x : α), i < j → l[i]? = some x → l[j]? = some x → n < j - i

/-- An entry that is not among the last ones is put at the end. -/
theorem Spaced.concat (h : Spaced n l) (hx : x ∉ recent n l) :
  Spaced n (l ++ [x])
  := by
  intro i j y hij hi hj
  obtain ⟨hlt, -⟩ := List.getElem?_eq_some_iff.mp hj
  rw [List.length_append, List.length_singleton] at hlt
  rw [List.getElem?_append_left (by omega)] at hi
  by_cases hlast : j < l.length
  · rw [List.getElem?_append_left hlast] at hj
    apply h i j y hij hi hj
  · have hy : y = x := by
      rw [List.getElem?_append_right (by omega), List.getElem?_singleton] at hj
      split_ifs at hj
      apply (Option.some.inj hj).symm
    subst hy
    by_contra hnear
    apply hx
    apply List.mem_of_getElem? (i := i - (l.length - n))
    rw [recent, List.getElem?_drop, ← hi]
    congr 1
    omega

theorem Spaced.map {f : α → β} (h : Spaced n l) (hf : Function.Injective f) :
  Spaced n (l.map f)
  := by
  intro i j y hij hi hj
  rw [List.getElem?_map, Option.map_eq_some_iff] at hi hj
  obtain ⟨x, hi, rfl⟩ := hi
  obtain ⟨x', hj, hsame⟩ := hj
  obtain rfl := hf hsame
  apply h i j x' hij hi hj

/-! ### Entries that are alive -/

/-- The time of an entry is less than `ttl` ago. -/
def alive (ttl now : Nat) (e : α × Nat) : Bool :=
  now < e.2 + ttl

/-- The entries are in the order of their times. -/
def Timed (l : List (α × Nat)) : Prop :=
  l.Pairwise fun e e' => e.2 ≤ e'.2

variable {ttl now : Nat} {log : List (α × Nat)} {e : α × Nat}

theorem filter_alive_of_head (h : Timed (e :: log)) (he : alive ttl now e = true) :
  (e :: log).filter (alive ttl now) = e :: log
  := by
  rw [List.filter_eq_self]
  intro e' he'
  rcases List.mem_cons.mp he' with rfl | he'
  · apply he
  · have hle := List.rel_of_pairwise_cons h he'
    simp only [alive, decide_eq_true_eq] at he ⊢
    omega

/-- The entries that are alive are those from the first one on that is. -/
theorem dropWhile_eq_filter (h : Timed log) :
  log.dropWhile (fun e => !alive ttl now e) = log.filter (alive ttl now)
  := by
  induction log with
  | nil => rfl
  | cons e log ih =>
    cases he : alive ttl now e with
    | true => rw [List.dropWhile_cons_of_neg (by simp [he]), filter_alive_of_head h he]
    | false =>
      rw [List.dropWhile_cons_of_pos (by simp [he]), List.filter_cons_of_neg (by simp [he])]
      apply ih h.of_cons

/-- What is alive of the last entries stays the end of the log. -/
theorem recent_filter_concat (h : Timed log) (he : alive ttl now e = true) :
  recent n ((recent n log).filter (alive ttl now) ++ [e])
    = (recent n (log ++ [e])).filter (alive ttl now)
  := by
  rw [← recent_append (l := log)]
  have htimed : Timed (recent n log) := h.sublist recent_sublist
  generalize hl : recent n log = l at htimed
  have hlen : l.length ≤ n := by
    rw [← hl]
    apply length_recent_le
  rcases Nat.lt_or_ge l.length n with hlt | hge
  · have hfilter := List.length_filter_le (alive ttl now) l
    rw [recent_eq_self, recent_eq_self, List.filter_append, List.filter_singleton, he]
    · rfl
    · rw [List.length_append, List.length_singleton]
      omega
    · rw [List.length_append, List.length_singleton]
      omega
  · cases l with
    | nil =>
      have hn : n = 0 := Nat.le_zero.mp hge
      subst hn
      simp [recent]
    | cons first rest =>
      have hn : n = rest.length + 1 := Nat.le_antisymm hge hlen
      have hlast : (rest ++ [e]).length = n := by
        rw [List.length_append, List.length_singleton, hn]
      have hright : recent n (first :: (rest ++ [e])) = rest ++ [e] := by
        rw [recent_cons (Nat.le_of_eq hlast.symm), recent_eq_self (Nat.le_of_eq hlast)]
      rw [List.cons_append, hright, List.filter_append, List.filter_singleton, he]
      cases hfirst : alive ttl now first with
      | true =>
        have hrest := filter_alive_of_head htimed hfirst
        rw [List.filter_cons_of_pos hfirst] at hrest
        rw [List.filter_cons_of_pos hfirst, (List.cons.inj hrest).2, List.cons_append, hright]
        rfl
      | false =>
        have hfilter := List.length_filter_le (alive ttl now) rest
        rw [List.filter_cons_of_neg (by simp [hfirst]), recent_eq_self]
        · rfl
        · rw [List.length_append, List.length_singleton]
          omega

end Log

/-! ### Queues and maps -/

/-- A map, and a queue of its keys. -/
structure QueueMap (α : Type u) (β : Type v) where
  order : List α := []
  entries : α → Option β := fun _ => none

namespace QueueMap

variable [DecidableEq α]

/-- Put a key at the end of the queue. -/
def push (q : QueueMap α β) (x : α) (v : β) : QueueMap α β :=
  { order := q.order ++ [x], entries := Function.update q.entries x (some v) }

/-- Take keys from the front of the queue as long as the test holds of it. -/
def popWhile (test : List α → (α → Option β) → Bool) : List α → (α → Option β) → QueueMap α β
  | [], entries => { order := [], entries }
  | x :: order, entries =>
    if test (x :: order) entries then popWhile test order (Function.update entries x none)
    else { order := x :: order, entries }

/-- Take keys from the front until at most `n` are left. -/
def shrink (n : Nat) (q : QueueMap α β) : QueueMap α β :=
  popWhile (fun order _ => n < order.length) q.order q.entries

/-- Take keys from the front as long as their values are dead, or missing. -/
def prune (dead : β → Bool) (q : QueueMap α β) : QueueMap α β :=
  popWhile (fun order entries => (order.head?.bind entries).all dead) q.order q.entries

/-- The queue and the map hold the entries of a list, in their order. -/
structure Represents (q : QueueMap α β) (l : List (α × β)) : Prop where
  order : q.order = l.map (·.1)
  nodup : q.order.Nodup
  entries : ∀ x v, q.entries x = some v ↔ (x, v) ∈ l

variable {q : QueueMap α β} {l : List (α × β)} {x : α} {v : β}

omit [DecidableEq α] in
theorem represents_nil :
  (({} : QueueMap α β)).Represents []
  := ⟨rfl, List.nodup_nil, fun _ _ => by simp⟩

omit [DecidableEq α] in
theorem Represents.isSome_iff (h : q.Represents l) :
  (q.entries x).isSome = true ↔ x ∈ l.map (·.1)
  := by
  rw [Option.isSome_iff_exists, List.mem_map]
  constructor
  · rintro ⟨v, hv⟩
    exact ⟨(x, v), (h.entries x v).mp hv, rfl⟩
  · rintro ⟨e, he, rfl⟩
    exact ⟨e.2, (h.entries _ _).mpr he⟩

omit [DecidableEq α] in
theorem Represents.length_eq (h : q.Represents l) :
  q.order.length = l.length
  := by
  rw [h.order, List.length_map]

theorem Represents.push (h : q.Represents l) (hx : x ∉ l.map (·.1)) :
  (q.push x v).Represents (l ++ [(x, v)])
  := by
  constructor
  · rw [QueueMap.push, h.order, List.map_append]
    rfl
  · rw [QueueMap.push, h.order]
    apply List.nodup_append.mpr
    refine ⟨h.order ▸ h.nodup, List.nodup_singleton x, ?_⟩
    intro y hy z hz
    rw [List.mem_singleton.mp hz]
    rintro rfl
    apply hx hy
  · intro y w
    rw [QueueMap.push, List.mem_append, List.mem_singleton, Prod.mk.injEq]
    dsimp only
    by_cases hy : y = x
    · subst hy
      rw [Function.update_self, Option.some.injEq]
      constructor
      · exact fun hw => .inr ⟨rfl, hw.symm⟩
      · rintro (hmem | ⟨-, hw⟩)
        · apply (hx (List.mem_map_of_mem hmem)).elim
        · apply hw.symm
    · rw [Function.update_of_ne hy, h.entries]
      simp [hy]

theorem Represents.pop {e : α × β} {entries : α → Option β} {order : List α}
    (h : (⟨order, entries⟩ : QueueMap α β).Represents (e :: l)) :
  (⟨order.tail, Function.update entries e.1 none⟩ : QueueMap α β).Represents l
  := by
  obtain ⟨horder, hnodup, hentries⟩ := h
  dsimp only at horder hnodup hentries
  subst horder
  rw [List.map_cons, List.nodup_cons] at hnodup
  refine ⟨rfl, hnodup.2, fun y w => ?_⟩
  dsimp only
  by_cases hy : y = e.1
  · subst hy
    rw [Function.update_self]
    constructor
    · intro hnone
      cases hnone
    · intro hmem
      apply (hnodup.1 (List.mem_map.mpr ⟨_, hmem, rfl⟩)).elim
  · rw [Function.update_of_ne hy, hentries, List.mem_cons]
    constructor
    · rintro (rfl | hmem)
      · apply (hy rfl).elim
      · apply hmem
    · exact .inr

/-- What is left when keys were taken from the front, where the test is one of the list. -/
theorem Represents.popWhile {test : List α → (α → Option β) → Bool}
    {kept : List (α × β) → List (α × β)} {order : List α} {entries : α → Option β}
    (h : (⟨order, entries⟩ : QueueMap α β).Represents l) (hnil : kept [] = [])
    (hpos : ∀ (e : α × β) (l : List (α × β)) (order : List α) (entries : α → Option β),
      (⟨order, entries⟩ : QueueMap α β).Represents (e :: l) → test order entries = true →
        kept (e :: l) = kept l)
    (hneg : ∀ (e : α × β) (l : List (α × β)) (order : List α) (entries : α → Option β),
      (⟨order, entries⟩ : QueueMap α β).Represents (e :: l) → test order entries = false →
        kept (e :: l) = e :: l) :
  (QueueMap.popWhile test order entries).Represents (kept l)
  := by
  induction l generalizing order entries with
  | nil =>
    have horder : order = [] := h.order
    subst horder
    rw [hnil]
    apply h
  | cons e l ih =>
    have horder : order = e.1 :: l.map (·.1) := h.order
    subst horder
    rw [QueueMap.popWhile]
    split_ifs with htest
    · rw [hpos e l _ entries h htest]
      apply ih h.pop
    · rw [hneg e l _ entries h (by simpa using htest)]
      apply h

theorem Represents.shrink (h : q.Represents l) (n : Nat) :
  (q.shrink n).Represents (Log.recent n l)
  := by
  apply h.popWhile
  · rw [Log.recent, List.drop_nil]
  · intro e l order entries h htest
    have hlength : order.length = (e :: l).length := h.length_eq
    rw [decide_eq_true_eq, hlength, List.length_cons] at htest
    apply Log.recent_cons (Nat.le_of_lt_succ htest)
  · intro e l order entries h htest
    have hlength : order.length = (e :: l).length := h.length_eq
    rw [decide_eq_false_iff_not, hlength, Nat.not_lt] at htest
    apply Log.recent_eq_self htest

theorem Represents.prune (h : q.Represents l) (dead : β → Bool) :
  (q.prune dead).Represents (l.dropWhile fun e => dead e.2)
  := by
  have hhead : ∀ {e : α × β} {order : List α} {entries : α → Option β} {l : List (α × β)},
      (⟨order, entries⟩ : QueueMap α β).Represents (e :: l) →
        (order.head?.bind entries).all dead = dead e.2 := by
    intro e order entries l h
    have horder : order = e.1 :: l.map (·.1) := h.order
    have hentry : entries e.1 = some e.2 := (h.entries e.1 e.2).mpr List.mem_cons_self
    rw [horder, List.head?_cons, Option.bind_some, hentry, Option.all_some]
  apply h.popWhile
  · rfl
  · intro e l order entries h htest
    apply List.dropWhile_cons_of_pos
    rw [← hhead h, htest]
  · intro e l order entries h htest
    apply List.dropWhile_cons_of_neg
    rw [← hhead h, htest]
    exact Bool.false_ne_true

end QueueMap
