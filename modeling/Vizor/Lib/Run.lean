import Mathlib.Logic.Relation
import Mathlib.Tactic.Common

/-!
# Runs of a transition system

A run of a machine applies a list of operations one after the other.  A condition holds
along a run when every operation meets it in the state in which it starts.  A fallible
operation returns the new state or an error, and changes nothing when it fails.
-/

namespace Run

universe u v w

variable {σ : Type u} {ι : Type v}

/-! ### States after a run -/

/-- The state after `ops` from `s`. -/
def after (step : σ → ι → σ) (s : σ) (ops : List ι) : σ :=
  ops.foldl step s

/-- Every operation of `ops` meets `C` in the state in which it starts. -/
def Along (step : σ → ι → σ) (C : σ → ι → Prop) : σ → List ι → Prop
  | _, [] => True
  | s, op :: ops => C s op ∧ Along step C (step s op) ops

variable {step : σ → ι → σ} {C : σ → ι → Prop}

/-- A condition that can be decided for every operation can be decided along a run. -/
def decidableAlong [∀ s op, Decidable (C s op)] : ∀ (s : σ) (ops : List ι),
    Decidable (Along step C s ops)
  | _, [] => isTrue trivial
  | s, op :: ops =>
    have := decidableAlong (step s op) ops
    inferInstanceAs (Decidable (C s op ∧ Along step C (step s op) ops))

instance [∀ s op, Decidable (C s op)] {s : σ} {ops : List ι} : Decidable (Along step C s ops) :=
  decidableAlong s ops

@[simp]
theorem after_nil {s : σ} :
  after step s [] = s
  := rfl

@[simp]
theorem after_cons {s : σ} {op : ι} {ops : List ι} :
  after step s (op :: ops) = after step (step s op) ops
  := rfl

theorem after_append {s : σ} {ops ops' : List ι} :
  after step s (ops ++ ops') = after step (after step s ops) ops'
  := by
  simp [after]

theorem along_append {s : σ} {ops ops' : List ι} :
  Along step C s (ops ++ ops')
    ↔ Along step C s ops ∧ Along step C (after step s ops) ops'
  := by
  induction ops generalizing s with
  | nil => simp [Along]
  | cons op ops ih => simp [Along, ih, and_assoc]

/-- What every step that meets the condition preserves holds after every run along which
the condition holds. -/
theorem invariant {I : σ → Prop} (hI : ∀ s op, I s → C s op → I (step s op))
    {s : σ} {ops : List ι} (hs : I s) (hops : Along step C s ops) :
  I (after step s ops)
  := by
  induction ops generalizing s with
  | nil => exact hs
  | cons op ops ih =>
    obtain ⟨hop, hrest⟩ := hops
    apply ih _ hrest
    apply hI s op hs hop

/-- A condition that holds in every state holds along every run. -/
theorem along_of_forall {s : σ} {ops : List ι} (h : ∀ s, ∀ op ∈ ops, C s op) :
  Along step C s ops
  := by
  induction ops generalizing s with
  | nil => trivial
  | cons op ops ih =>
    constructor
    · apply h s op List.mem_cons_self
    · apply ih
      intro s' op' hop'
      apply h s' op' (List.mem_cons_of_mem _ hop')

/-- Two conditions agree along a run when they agree in every state with an invariant that
the steps which meet the first one preserve. -/
theorem along_congr {D : σ → ι → Prop} {I : σ → Prop} (hCD : ∀ s op, I s → (C s op ↔ D s op))
    (hI : ∀ s op, I s → C s op → I (step s op)) {s : σ} {ops : List ι} (hs : I s) :
  Along step C s ops ↔ Along step D s ops
  := by
  induction ops generalizing s with
  | nil => exact Iff.rfl
  | cons op ops ih =>
    calc C s op ∧ Along step C (step s op) ops
      _ ↔ C s op ∧ Along step D (step s op) ops := by
        apply and_congr_right
        intro hop
        apply ih (hI s op hs hop)
      _ ↔ D s op ∧ Along step D (step s op) ops := and_congr_left' (hCD s op hs)

/-! ### Fallible operations -/

variable {ε : Type w} {α β : Type u}

/-- The value of an option, or the error `e`. -/
def okOr (x : Option α) (e : ε) : Except ε α :=
  match x with
  | some a => .ok a
  | none => .error e

/-- The error `e` unless `c` holds. -/
def ensure (c : Prop) [Decidable c] (e : ε) : Except ε Unit :=
  if c then .ok () else .error e

/-- The error for the value of an option, if it has one. -/
def refuse (x : Option α) (e : α → ε) : Except ε Unit :=
  match x with
  | some a => .error (e a)
  | none => .ok ()

/-- The state after an operation that changes nothing when it fails. -/
def committed (s : σ) (result : Except ε σ) : σ :=
  match result with
  | .ok s' => s'
  | .error _ => s

/-- Commit fallible operations one after the other, up to the first failure. -/
def commitAll : List (σ → Except ε σ) → σ → σ × Option ε
  | [], s => (s, none)
  | f :: fs, s =>
    match f s with
    | .ok s' => commitAll fs s'
    | .error e => (s, some e)

/-- Continue after operations that did not fail. -/
def andThen (p : σ × Option ε) (f : σ → σ × Option ε) : σ × Option ε :=
  match p with
  | (s, none) => f s
  | (s, some e) => (s, some e)

/-- Continue after a call that returned; what a call that failed has committed stays. -/
def afterOk {γ δ : Type*} (p : σ × Except ε γ) (f : σ → γ → σ × Except ε δ) : σ × Except ε δ :=
  match p with
  | (s, .ok c) => f s c
  | (s, .error e) => (s, .error e)

theorem bind_eq_ok {x : Except ε α} {f : α → Except ε β} {b : β} :
  (x >>= f) = .ok b ↔ ∃ a, x = .ok a ∧ f a = .ok b
  := by
  cases x with
  | error e => simp [bind, Except.bind]
  | ok a => simp [bind, Except.bind]

theorem map_eq_ok {x : Except ε α} {f : α → β} {b : β} :
  f <$> x = .ok b ↔ ∃ a, x = .ok a ∧ f a = b
  := by
  cases x with
  | error e => simp [Functor.map, Except.map]
  | ok a => simp [Functor.map, Except.map]

@[simp]
theorem pure_eq_ok {a b : α} :
  (pure a : Except ε α) = .ok b ↔ a = b
  := by
  simp [pure, Except.pure]

@[simp]
theorem okOr_eq_ok {x : Option α} {e : ε} {a : α} :
  okOr x e = .ok a ↔ x = some a
  := by
  cases x <;> simp [okOr]

@[simp]
theorem ensure_eq_ok {c : Prop} [Decidable c] {e : ε} {u : Unit} :
  ensure c e = .ok u ↔ c
  := by
  by_cases hc : c <;> simp [ensure, hc]

@[simp]
theorem refuse_eq_ok {x : Option α} {e : α → ε} {u : Unit} :
  refuse x e = .ok u ↔ x = none
  := by
  cases x <;> simp [refuse]

/-- A relation that every step of a fallible loop respects relates the ends of the loop. -/
theorem foldlM_rel {R : σ → σ → Prop} (hrefl : ∀ s, R s s)
    (htrans : ∀ {s s' s''}, R s s' → R s' s'' → R s s'')
    {f : σ → α → Except ε σ} {xs : List α}
    (hf : ∀ s s', ∀ x ∈ xs, f s x = .ok s' → R s s') {s s' : σ}
    (h : xs.foldlM f s = .ok s') :
  R s s'
  := by
  induction xs generalizing s with
  | nil =>
    obtain rfl : s = s' := by simpa using h
    apply hrefl s
  | cons x xs ih =>
    rw [List.foldlM_cons, bind_eq_ok] at h
    obtain ⟨t, ht, h⟩ := h
    apply htrans (hf s t x List.mem_cons_self ht)
    apply ih _ h
    intro u u' y hy
    apply hf u u' y (List.mem_cons_of_mem _ hy)

/-- What every step of a fallible loop preserves holds at its end. -/
theorem foldlM_invariant {I : σ → Prop} {f : σ → α → Except ε σ} {xs : List α}
    (hf : ∀ s s', ∀ x ∈ xs, I s → f s x = .ok s' → I s') {s s' : σ} (hs : I s)
    (h : xs.foldlM f s = .ok s') :
  I s'
  := by
  apply foldlM_rel (R := fun s s' => I s → I s') (fun _ hs => hs)
    (fun h₁ h₂ hs => h₂ (h₁ hs)) _ h hs
  intro u u' x hx hu hI
  apply hf u u' x hx hI hu

/-- A loop whose steps change nothing changes nothing. -/
theorem foldlM_eq_self {f : σ → α → Except ε σ} {xs : List α} {s : σ}
    (h : ∀ x ∈ xs, f s x = .ok s) :
  xs.foldlM f s = .ok s
  := by
  induction xs with
  | nil => rfl
  | cons x xs ih =>
    rw [List.foldlM_cons, h x List.mem_cons_self]
    apply ih
    intro y hy
    apply h y (List.mem_cons_of_mem _ hy)

/-- A loop fails in one of its steps. -/
theorem exists_of_foldlM_eq_error {f : σ → α → Except ε σ} {xs : List α} {s : σ} {e : ε}
    (h : xs.foldlM f s = .error e) :
  ∃ s', ∃ x ∈ xs, f s' x = .error e
  := by
  induction xs generalizing s with
  | nil => cases h
  | cons x xs ih =>
    rw [List.foldlM_cons] at h
    cases hx : f s x with
    | error e' =>
      rw [hx] at h
      cases h
      exact ⟨s, x, List.mem_cons_self, hx⟩
    | ok s' =>
      rw [hx] at h
      obtain ⟨s'', y, hy, hfy⟩ := ih h
      exact ⟨s'', y, List.mem_cons_of_mem _ hy, hfy⟩

/-- A relation that every committed operation respects relates the ends of the sequence. -/
theorem commitAll_rel {R : σ → σ → Prop} (hrefl : ∀ s, R s s)
    (htrans : ∀ {s s' s''}, R s s' → R s' s'' → R s s'')
    {fs : List (σ → Except ε σ)} (hf : ∀ f ∈ fs, ∀ s s', f s = .ok s' → R s s') {s : σ} :
  R s (commitAll fs s).1
  := by
  induction fs generalizing s with
  | nil => exact hrefl s
  | cons f fs ih =>
    rw [commitAll]
    split
    · rename_i s' hs'
      apply htrans (hf f List.mem_cons_self s s' hs')
      apply ih
      intro g hg
      apply hf g (List.mem_cons_of_mem _ hg)
    · apply hrefl s

/-- What every committed operation preserves holds at the end of the sequence. -/
theorem commitAll_invariant {I : σ → Prop} {fs : List (σ → Except ε σ)}
    (hf : ∀ f ∈ fs, ∀ s s', I s → f s = .ok s' → I s') {s : σ} (hs : I s) :
  I (commitAll fs s).1
  := by
  apply commitAll_rel (R := fun s s' => I s → I s') (fun _ hs => hs)
    (fun h₁ h₂ hs => h₂ (h₁ hs)) _ hs
  intro f hmem u u' hu hI
  apply hf f hmem u u' hI hu

/-- An operation that succeeds is followed by the others. -/
theorem commitAll_cons_ok {f : σ → Except ε σ} {fs : List (σ → Except ε σ)} {s s' : σ}
    (h : f s = .ok s') :
  commitAll (f :: fs) s = commitAll fs s'
  := by
  rw [commitAll, h]

/-- An operation that fails ends the sequence. -/
theorem commitAll_cons_error {f : σ → Except ε σ} {fs : List (σ → Except ε σ)} {s : σ} {e : ε}
    (h : f s = .error e) :
  commitAll (f :: fs) s = (s, some e)
  := by
  rw [commitAll, h]

theorem andThen_rel {R : σ → σ → Prop}
    (htrans : ∀ {s s' s''}, R s s' → R s' s'' → R s s'')
    {s : σ} {p : σ × Option ε} {f : σ → σ × Option ε} (hp : R s p.1)
    (hf : R p.1 (f p.1).1) :
  R s (andThen p f).1
  := by
  obtain ⟨s', e⟩ := p
  cases e with
  | none => exact htrans hp hf
  | some e => exact hp

/-- Calls one after the other keep a relation that each of them keeps. -/
theorem afterOk_rel {γ δ : Type*} {R : σ → σ → Prop}
    (htrans : ∀ {s s' s''}, R s s' → R s' s'' → R s s'')
    {s : σ} {p : σ × Except ε γ} {f : σ → γ → σ × Except ε δ} (hp : R s p.1)
    (hf : ∀ s c, R s (f s c).1) :
  R s (afterOk p f).1
  := by
  obtain ⟨s', x⟩ := p
  cases x with
  | error e => exact hp
  | ok c => exact htrans hp (hf s' c)

/-- After a call that returned comes the next one. -/
theorem afterOk_of_ok {γ δ : Type*} {p : σ × Except ε γ} {f : σ → γ → σ × Except ε δ} {c : γ}
    (h : p.2 = .ok c) :
  afterOk p f = f p.1 c
  := by
  obtain ⟨s, x⟩ := p
  obtain rfl : x = .ok c := h
  rfl

/-- Calls one after the other return when both do. -/
theorem afterOk_eq_ok {γ δ : Type*} {p : σ × Except ε γ} {f : σ → γ → σ × Except ε δ} {d : δ} :
  (afterOk p f).2 = .ok d ↔ ∃ c, p.2 = .ok c ∧ (f p.1 c).2 = .ok d
  := by
  obtain ⟨s, x⟩ := p
  cases x with
  | error e => simp [afterOk]
  | ok c => simp [afterOk]

/-- A loop that only checks has checked every element. -/
theorem forM_eq_ok {f : α → Except ε PUnit} {xs : List α} {u : PUnit} (h : xs.forM f = .ok u) :
  ∀ x ∈ xs, f x = .ok ⟨⟩
  := by
  induction xs with
  | nil => nofun
  | cons x xs ih =>
    obtain ⟨_, hx, h⟩ := bind_eq_ok.mp h
    intro y hy
    rcases List.mem_cons.mp hy with rfl | hy
    · apply hx
    · apply ih h y hy

/-- A traversal succeeds when it does on every element. -/
theorem exists_mapM_eq_ok {γ : Type*} {δ : Type u} {f : γ → Except ε δ} {xs : List γ}
    (h : ∀ x ∈ xs, ∃ y, f x = .ok y) :
  ∃ ys, xs.mapM f = .ok ys
  := by
  induction xs with
  | nil => exact ⟨[], rfl⟩
  | cons x xs ih =>
    obtain ⟨y, hy⟩ := h x List.mem_cons_self
    obtain ⟨ys, hys⟩ := ih fun z hz => h z (List.mem_cons_of_mem _ hz)
    use y :: ys
    rw [List.mapM_cons, hy, hys]
    rfl

/-- A traversal that succeeds has a result for every element. -/
theorem mem_of_mapM_eq_ok {γ : Type*} {δ : Type u} {f : γ → Except ε δ} {xs : List γ}
    {ys : List δ} (h : xs.mapM f = .ok ys) :
  ∀ x ∈ xs, ∃ y ∈ ys, f x = .ok y
  := by
  induction xs generalizing ys with
  | nil => nofun
  | cons x xs ih =>
    rw [List.mapM_cons, bind_eq_ok] at h
    obtain ⟨y, hy, h⟩ := h
    obtain ⟨rest, hrest, h⟩ := bind_eq_ok.mp h
    obtain rfl := pure_eq_ok.mp h
    intro z hz
    rcases List.mem_cons.mp hz with rfl | hz
    · exact ⟨y, List.mem_cons_self, hy⟩
    · obtain ⟨y', hmem, hy'⟩ := ih hrest z hz
      exact ⟨y', List.mem_cons_of_mem _ hmem, hy'⟩

/-- A traversal that succeeds has no other results. -/
theorem exists_of_mem_mapM_eq_ok {γ : Type*} {δ : Type u} {f : γ → Except ε δ} {xs : List γ}
    {ys : List δ} (h : xs.mapM f = .ok ys) :
  ∀ y ∈ ys, ∃ x ∈ xs, f x = .ok y
  := by
  induction xs generalizing ys with
  | nil =>
    obtain rfl : [] = ys := by simpa using h
    nofun
  | cons x xs ih =>
    rw [List.mapM_cons, bind_eq_ok] at h
    obtain ⟨y, hy, h⟩ := h
    obtain ⟨rest, hrest, h⟩ := bind_eq_ok.mp h
    obtain rfl := pure_eq_ok.mp h
    intro z hz
    rcases List.mem_cons.mp hz with rfl | hz
    · exact ⟨x, List.mem_cons_self, hy⟩
    · obtain ⟨x', hmem, hx'⟩ := ih hrest z hz
      exact ⟨x', List.mem_cons_of_mem _ hmem, hx'⟩

/-- A traversal that succeeds has its results in the order of the elements. -/
theorem forall₂_of_mapM_eq_ok {γ : Type*} {δ : Type u} {f : γ → Except ε δ} {xs : List γ}
    {ys : List δ} (h : xs.mapM f = .ok ys) :
  List.Forall₂ (fun x y => f x = .ok y) xs ys
  := by
  induction xs generalizing ys with
  | nil =>
    obtain rfl : [] = ys := by simpa using h
    apply List.Forall₂.nil
  | cons x xs ih =>
    rw [List.mapM_cons, bind_eq_ok] at h
    obtain ⟨y, hy, h⟩ := h
    obtain ⟨rest, hrest, h⟩ := bind_eq_ok.mp h
    obtain rfl := pure_eq_ok.mp h
    exact List.Forall₂.cons hy (ih hrest)

/-- A traversal that succeeds is a map with a function that agrees with it. -/
theorem exists_map_of_mapM_eq_ok {f : α → Except ε α} {xs ys : List α}
    (h : xs.mapM f = .ok ys) :
  ∃ g : α → α, ys = xs.map g ∧ ∀ x ∈ xs, f x = .ok (g x)
  := by
  use fun x => match f x with | .ok y => y | .error _ => x
  induction xs generalizing ys with
  | nil =>
    obtain rfl : [] = ys := by simpa using h
    simp
  | cons x xs ih =>
    rw [List.mapM_cons, bind_eq_ok] at h
    obtain ⟨y, hy, h⟩ := h
    rw [bind_eq_ok] at h
    obtain ⟨rest, hrest, h⟩ := h
    obtain rfl := pure_eq_ok.mp h
    obtain ⟨hmap, hall⟩ := ih hrest
    constructor
    · rw [List.map_cons, ← hmap, hy]
    · intro z hz
      rcases List.mem_cons.mp hz with rfl | hz
      · simp [hy]
      · apply hall z hz

end Run
