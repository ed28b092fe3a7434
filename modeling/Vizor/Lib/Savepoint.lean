import Mathlib.Tactic.Common

/-!
# Savepoints

A script is a list of statements of a database.  A statement that fails changes nothing, but
what the statements before it wrote stays.  A session keeps the states at its savepoints, so
that a script which fails can be undone.
-/

namespace Savepoint

variable {σ : Type} {α β γ : Type}

/-! ### Scripts -/

/-- A script returns a value or an error, and the state that it leaves. -/
def Script (σ α : Type) := σ → Except String α × σ

/-- Continue after a script that returned a value. -/
def Script.next (script : Script σ α) (f : α → Script σ β) : Script σ β := fun s =>
  match script s with
  | (.ok a, s') => f a s'
  | (.error error, s') => (.error error, s')

instance : Monad (Script σ) where
  pure a := fun s => (.ok a, s)
  bind := Script.next

/-- One statement. -/
def statement (write : σ → Except String σ) : Script σ Unit := fun s =>
  match write s with
  | .ok s' => (.ok (), s')
  | .error error => (.error error, s)

/-- A value that is found without a statement. -/
def value (result : Except String α) : Script σ α := fun s => (result, s)

/-- The result of a script, also where it is an error. -/
def attempt (script : Script σ α) : Script σ (Except String α) := fun s =>
  (.ok (script s).1, (script s).2)

/-- A value that is read off the state. -/
def readState (get : σ → α) : Script σ α := fun s => (.ok (get s), s)

/-- A call that may change the state also where its answer is an error. -/
def call (answer : σ → Except String α × σ) : Script σ α := answer

/-- A script for every element of a list, one after the other. -/
def forEach (f : β → Script σ Unit) : List β → Script σ Unit
  | [] => pure ()
  | x :: xs => do
    f x
    forEach f xs

/-- The value or the error of a script from a state, and the state that it leaves. -/
def Script.run (script : Script σ α) (s : σ) : Except String α × σ := script s

@[simp]
theorem run_pure {a : α} {s : σ} :
  (pure a : Script σ α).run s = (.ok a, s)
  := rfl

theorem run_bind {script : Script σ α} {f : α → Script σ β} {s : σ} :
  (script >>= f).run s
    = match script.run s with
      | (.ok a, s') => (f a).run s'
      | (.error error, s') => (.error error, s')
  := rfl

theorem run_statement {write : σ → Except String σ} {s : σ} :
  (statement write).run s
    = match write s with
      | .ok s' => (.ok (), s')
      | .error error => (.error error, s)
  := rfl

@[simp]
theorem run_value {result : Except String α} {s : σ} :
  (value result).run s = (result, s)
  := rfl

@[simp]
theorem run_attempt {script : Script σ α} {s : σ} :
  (attempt script).run s = (.ok (script.run s).1, (script.run s).2)
  := rfl

/-- A value that is found after a script does not change the state. -/
theorem run_bind_value {script : Script σ α} {f : α → Except String β} {s : σ} :
  ((script >>= fun a => value (f a)).run s).2 = (script.run s).2
  := by
  rw [run_bind]
  rcases script.run s with ⟨error | a, t⟩ <;> rfl

/-- What holds before the script holds after it, also where it fails. -/
def Maintains (I : σ → Prop) (script : Script σ α) : Prop :=
  ∀ s, I s → I (script.run s).2

section

variable {I : σ → Prop}

theorem maintains_pure {a : α} : Maintains I (pure a : Script σ α) :=
  fun _ h => h

theorem maintains_value {result : Except String α} : Maintains I (value result) :=
  fun _ h => h

theorem maintains_call {answer : σ → Except String α × σ} (h : ∀ s, I s → I (answer s).2) :
  Maintains I (call answer)
  := h

theorem Maintains.bind {script : Script σ α} {f : α → Script σ β} (h : Maintains I script)
    (hf : ∀ a, Maintains I (f a)) :
  Maintains I (script >>= f)
  := by
  intro s hs
  have hscript := h s hs
  rw [run_bind]
  revert hscript
  rcases script.run s with ⟨error | a, t⟩
  · apply id
  · apply hf a t

/-- After a value was read off the state, the script goes on with the value of a state in which
`I` holds. -/
theorem maintains_readState_bind {get : σ → α} {f : α → Script σ β}
    (h : ∀ s, I s → Maintains I (f (get s))) :
  Maintains I (readState get >>= f)
  := by
  intro s hs
  apply h s hs s hs

end

/-- A script ends in a state with a value. -/
def Ends (script : Script σ α) (s : σ) (a : α) (s' : σ) : Prop :=
  script.run s = (.ok a, s')

theorem ends_pure {a b : α} {s s' : σ} :
  Ends (pure a : Script σ α) s b s' ↔ a = b ∧ s = s'
  := by
  simp [Ends]

theorem ends_bind {script : Script σ α} {f : α → Script σ β} {s s' : σ} {b : β} :
  Ends (script >>= f) s b s' ↔ ∃ a t, Ends script s a t ∧ Ends (f a) t b s'
  := by
  unfold Ends
  rw [run_bind]
  rcases script.run s with ⟨error | a, t⟩
  · simp
  · constructor
    · intro h
      exact ⟨a, t, rfl, h⟩
    · rintro ⟨_, _, h, hnext⟩
      cases h
      apply hnext

theorem ends_statement {write : σ → Except String σ} {s s' : σ} {u : Unit} :
  Ends (statement write) s u s' ↔ write s = .ok s'
  := by
  rw [Ends, run_statement]
  cases write s with
  | error error => simp
  | ok t => simp

theorem ends_value {result : Except String α} {s s' : σ} {a : α} :
  Ends (value result) s a s' ↔ result = .ok a ∧ s = s'
  := by
  simp [Ends]

/-- What the script for each element adds, the script for a list adds one after the other. -/
theorem appends_of_ends_forEach {get : σ → List γ} {rows : β → List γ}
    {f : β → Script σ Unit} {xs : List β}
    (hf : ∀ x ∈ xs, ∀ t t', Ends (f x) t () t' → get t' = get t ++ rows x) {s s' : σ}
    (h : Ends (forEach f xs) s () s') :
  get s' = get s ++ xs.flatMap rows
  := by
  induction xs generalizing s with
  | nil =>
    obtain ⟨-, rfl⟩ := ends_pure.mp h
    simp
  | cons x xs ih =>
    obtain ⟨⟨⟩, t, hx, hxs⟩ := ends_bind.mp h
    rw [ih (fun y hy => hf y (List.mem_cons_of_mem _ hy)) hxs,
      hf x List.mem_cons_self _ _ hx, List.flatMap_cons, List.append_assoc]

/-- Where the script for each element adds one row that is right for it, the script for a list
adds one row for each element. -/
theorem appendsRow_of_ends_forEach {get : σ → List γ} {R : β → γ → Prop}
    {f : β → Script σ Unit} {xs : List β}
    (hf : ∀ x ∈ xs, ∀ t t', Ends (f x) t () t' → ∃ row, R x row ∧ get t' = get t ++ [row])
    {s s' : σ} (h : Ends (forEach f xs) s () s') :
  ∃ rows, List.Forall₂ R xs rows ∧ get s' = get s ++ rows
  := by
  induction xs generalizing s with
  | nil =>
    obtain ⟨-, rfl⟩ := ends_pure.mp h
    exact ⟨[], List.Forall₂.nil, by simp⟩
  | cons x xs ih =>
    obtain ⟨⟨⟩, t, hx, hxs⟩ := ends_bind.mp h
    obtain ⟨row, hrow, ht⟩ := hf x List.mem_cons_self _ _ hx
    obtain ⟨rows, hrows, hs'⟩ := ih (fun y hy => hf y (List.mem_cons_of_mem _ hy)) hxs
    exact ⟨row :: rows, .cons hrow hrows, by simp [hs', ht]⟩

/-- What the script for each element keeps, the script for a list keeps. -/
theorem keeps_of_ends_forEach {get : σ → γ} {f : β → Script σ Unit} {xs : List β}
    (hf : ∀ x ∈ xs, ∀ t t', Ends (f x) t () t' → get t' = get t) {s s' : σ}
    (h : Ends (forEach f xs) s () s') :
  get s' = get s
  := by
  induction xs generalizing s with
  | nil =>
    obtain ⟨-, rfl⟩ := ends_pure.mp h
    rfl
  | cons x xs ih =>
    obtain ⟨⟨⟩, t, hx, hxs⟩ := ends_bind.mp h
    rw [ih (fun y hy => hf y (List.mem_cons_of_mem _ hy)) hxs, hf x List.mem_cons_self _ _ hx]

/-! ### Sessions -/

/-- The state of a database within a transaction, and the states at its savepoints. -/
structure Session (σ : Type) where
  state : σ
  savepoints : List (String × σ)

/-- A script of the state of a session. -/
def within (script : Script σ α) : Script (Session σ) α := fun session =>
  ((script.run session.state).1, { session with state := (script.run session.state).2 })

@[simp]
theorem run_within {script : Script σ α} {session : Session σ} :
  (within script).run session
    = ((script.run session.state).1, { session with state := (script.run session.state).2 })
  := rfl

/-- Mark the state. -/
def savepoint (name : String) (session : Session σ) : Session σ :=
  { session with savepoints := (name, session.state) :: session.savepoints }

/-- The last savepoint of a name and those before it. -/
def fromSavepoint (name : String) (session : Session σ) : Except String (σ × List (String × σ)) :=
  match session.savepoints.dropWhile (·.1 ≠ name) with
  | [] => .error s!"no such savepoint: {name}"
  | (_, state) :: older => .ok (state, older)

/-- Forget the last savepoint of a name. -/
def release (name : String) (session : Session σ) : Except String (Session σ) := do
  let (_, older) ← fromSavepoint name session
  return { session with savepoints := older }

/-- Return to the last savepoint of a name. -/
def rollbackTo (name : String) (session : Session σ) : Except String (Session σ) := do
  let (state, older) ← fromSavepoint name session
  return ⟨state, (name, state) :: older⟩

/-- A savepoint that is the last one is released. -/
theorem release_savepoint {name : String} {session : Session σ} {state : σ} :
  release name { savepoint name session with state := state } = .ok { session with state := state }
  := by
  simp [release, fromSavepoint, savepoint, bind, Except.bind, pure, Except.pure]

/-- What was written since the last savepoint is undone. -/
theorem rollbackTo_savepoint {name : String} {session : Session σ} {state : σ} :
  rollbackTo name { savepoint name session with state := state } = .ok (savepoint name session)
  := by
  simp [rollbackTo, fromSavepoint, savepoint, bind, Except.bind, pure, Except.pure]

end Savepoint
