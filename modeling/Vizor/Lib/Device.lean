import Vizor.Lib.Run
import Mathlib.Tactic.Common

/-!
# Programs of devices that fail

A program calls a device.  A call may be refused, and then changes nothing; or it takes place
but the program is cut off before its answer, as when the process is killed after the call.  A
triple tells what holds when a program ends with a value, and what holds wherever it is cut off.
-/

namespace Device

variable {σ ε α β : Type}

/-! ### Calls and their outcomes -/

/-- What becomes of a call. -/
inductive Outcome (ε : Type) where
  /-- The call takes place and its answer arrives. -/
  | answered
  /-- The call changes nothing. -/
  | refused (error : ε)
  /-- The call takes place, but its answer does not arrive. -/
  | cut (error : ε)
  deriving DecidableEq, Repr

/-- The state of a device, and what becomes of the next calls; those beyond the list are
answered. -/
structure World (σ ε : Type) where
  state : σ
  outcomes : List (Outcome ε)

/-- A program ends with a value or an error. -/
def Program (σ ε α : Type) := World σ ε → Except ε α × World σ ε

/-- Continue after a program that ended with a value. -/
def Program.next (program : Program σ ε α) (f : α → Program σ ε β) : Program σ ε β := fun w =>
  match program w with
  | (.ok a, w') => f a w'
  | (.error error, w') => (.error error, w')

instance : Monad (Program σ ε) where
  pure a := fun w => (.ok a, w)
  bind := Program.next

/-- The program ends with an error of its own. -/
def fail (error : ε) : Program σ ε α := fun w => (.error error, w)

/-- A value that is found without a call. -/
def value (result : Except ε α) : Program σ ε α := fun w => (result, w)

/-- A value that is read off the state, by a call that cannot fail. -/
def look (get : σ → α) : Program σ ε α := fun w => (.ok (get w.state), w)

/-- A change of the state by a call that cannot fail. -/
def change (f : σ → σ) : Program σ ε Unit := fun w => (.ok (), { w with state := f w.state })

/-- The answer of a call that takes place. -/
def perform (f : σ → Except ε (α × σ)) (s : σ) : Except ε α × σ :=
  match f s with
  | .ok (a, s') => (.ok a, s')
  | .error error => (.error error, s)

/-- One call. -/
def call (f : σ → Except ε (α × σ)) : Program σ ε α := fun w =>
  match w.outcomes with
  | [] => ((perform f w.state).1, { w with state := (perform f w.state).2 })
  | .answered :: rest => ((perform f w.state).1, ⟨(perform f w.state).2, rest⟩)
  | .refused error :: rest => (.error error, ⟨w.state, rest⟩)
  | .cut error :: rest => (.error error, ⟨(perform f w.state).2, rest⟩)

/-- The value or the error of a program, and the world that it leaves. -/
def Program.run (program : Program σ ε α) (w : World σ ε) : Except ε α × World σ ε := program w

/-- The state that a program leaves. -/
def Program.leaves (program : Program σ ε α) (s : σ) (outcomes : List (Outcome ε)) : σ :=
  (program.run ⟨s, outcomes⟩).2.state

/-- A loop over the elements of a list that carries a value. -/
def foldEach (f : α → β → Program σ ε α) (a : α) : List β → Program σ ε α
  | [] => pure a
  | x :: xs => do
    let a' ← f a x
    foldEach f a' xs

/-! ### Triples -/

/-- From every state in which `P` holds, the program ends with a value for which `Q` holds, or
is cut off in a state in which `C` holds, or ends with an error of its own for which `E` holds.
It is cut off only where some call is not answered. -/
def Triple (P : σ → Prop) (program : Program σ ε α) (Q : α → σ → Prop) (C : σ → Prop)
    (E : ε → σ → Prop) : Prop :=
  ∀ w, P w.state →
    (∃ a, (program.run w).1 = .ok a ∧ Q a (program.run w).2.state ∧
      (w.outcomes = [] → (program.run w).2.outcomes = []))
    ∨ (∃ error, (program.run w).1 = .error error ∧
      (w.outcomes ≠ [] ∧ C (program.run w).2.state ∨ E error (program.run w).2.state))

variable {P : σ → Prop} {program : Program σ ε α} {Q : α → σ → Prop} {C : σ → Prop}
  {E : ε → σ → Prop}

theorem triple_pure {a : α} (h : ∀ s, P s → Q a s) :
  Triple P (pure a) Q C E
  := by
  intro w hP
  left
  use a, rfl, h w.state hP, id

theorem triple_fail {error : ε} (h : ∀ s, P s → E error s) :
  Triple P (fail error) Q C E
  := by
  intro w hP
  right
  use error, rfl, .inr (h w.state hP)

theorem triple_look {get : σ → α} (h : ∀ s, P s → Q (get s) s) :
  Triple P (look get) Q C E
  := by
  intro w hP
  left
  use get w.state, rfl, h w.state hP, id

theorem triple_change {f : σ → σ} {Q : Unit → σ → Prop} (h : ∀ s, P s → Q () (f s)) :
  Triple P (change f) Q C E
  := by
  intro w hP
  left
  use (), rfl, h w.state hP, id

/-- A call is right if its answer is, and if the states before and after it may be left
behind. -/
theorem triple_call {f : σ → Except ε (α × σ)} (hbefore : ∀ s, P s → C s)
    (hanswer : ∀ s a s', P s → f s = .ok (a, s') → Q a s' ∧ C s')
    (herror : ∀ s error, P s → f s = .error error → E error s) :
  Triple P (call f) Q C E
  := by
  rintro ⟨s, outcomes⟩ hP
  rcases outcomes with _ | ⟨_ | error | error, rest⟩
  · rcases hf : f s with error | ⟨a, s'⟩
    · right
      use error
      simp [Program.run, call, perform, hf, herror s error hP hf]
    · left
      use a
      simp [Program.run, call, perform, hf, (hanswer s a s' hP hf).1]
  · rcases hf : f s with error | ⟨a, s'⟩
    · right
      use error
      simp [Program.run, call, perform, hf, herror s error hP hf]
    · left
      use a
      simp [Program.run, call, perform, hf, (hanswer s a s' hP hf).1]
  · right
    use error
    simp [Program.run, call, hbefore s hP]
  · right
    use error
    rcases hf : f s with error' | ⟨a, s'⟩
    · simp [Program.run, call, perform, hf, hbefore s hP]
    · simp [Program.run, call, perform, hf, (hanswer s a s' hP hf).2]

theorem Triple.bind {R : β → σ → Prop} {f : α → Program σ ε β} (h : Triple P program Q C E)
    (hf : ∀ a, Triple (Q a) (f a) R C E) :
  Triple P (program >>= f) R C E
  := by
  intro w hP
  have hrun : (program >>= f).run w
      = match program.run w with
        | (.ok a, w') => (f a).run w'
        | (.error error, w') => (.error error, w') := rfl
  rcases h w hP with ⟨a, ha, hQ, hkept⟩ | ⟨error, herror, hC⟩
  · rw [hrun, show program.run w = (.ok a, (program.run w).2) by rw [← ha]]
    rcases hf a (program.run w).2 hQ with ⟨b, hb, hR, hkept'⟩ | ⟨error, herror, hC⟩
    · left
      use b, hb, hR
      intro hw
      apply hkept' (hkept hw)
    · right
      use error, herror
      apply hC.imp_left
      rintro ⟨hne, hC⟩
      use fun hw => hne (hkept hw)
  · right
    use error
    rw [hrun, show program.run w = (.error error, (program.run w).2) by rw [← herror]]
    use rfl

theorem Triple.imp {P' : σ → Prop} {Q' : α → σ → Prop} {C' : σ → Prop} {E' : ε → σ → Prop}
    (h : Triple P program Q C E) (hP : ∀ s, P' s → P s) (hQ : ∀ a s, Q a s → Q' a s)
    (hC : ∀ s, C s → C' s) (hE : ∀ error s, E error s → E' error s) :
  Triple P' program Q' C' E'
  := by
  intro w hw
  rcases h w (hP w.state hw) with ⟨a, ha, hQ', hkept⟩ | ⟨error, herror, ⟨hne, hC'⟩ | hE'⟩
  · left
    use a, ha, hQ a _ hQ', hkept
  · right
    use error, herror, .inl ⟨hne, hC _ hC'⟩
  · right
    use error, herror, .inr (hE error _ hE')

theorem triple_value {result : Except ε α} (h : ∀ s a, P s → result = .ok a → Q a s)
    (herror : ∀ s error, P s → result = .error error → E error s) :
  Triple P (value result) Q C E
  := by
  intro w hP
  rcases hresult : result with error | a
  · right
    use error, rfl, .inr (herror w.state error hP hresult)
  · left
    use a, rfl, h w.state a hP hresult, id

/-- A fact of the precondition that does not speak of the state. -/
theorem triple_of_and {φ : Prop} (h : φ → Triple P program Q C E) :
  Triple (fun s => φ ∧ P s) program Q C E
  := by
  rintro w ⟨hφ, hP⟩
  apply h hφ w hP

theorem triple_of_exists {γ : Type} {R : γ → σ → Prop} (h : ∀ c, Triple (R c) program Q C E) :
  Triple (fun s => ∃ c, R c s) program Q C E
  := by
  rintro w ⟨c, hR⟩
  apply h c w hR

/-- A triple may be proved for one state at a time. -/
theorem triple_of_state (h : ∀ s, P s → Triple (fun s' => s' = s) program Q C E) :
  Triple P program Q C E
  := by
  intro w hP
  apply h w.state hP w rfl

/-- A loop keeps what each of its passes keeps; the invariant may name the elements that are
still to come. -/
theorem triple_foldEach {I : List β → α → σ → Prop} {f : α → β → Program σ ε α}
    (h : ∀ x rest a, Triple (I (x :: rest) a) (f a x) (I rest) C E) (a : α) (xs : List β) :
  Triple (I xs a) (foldEach f a xs) (I []) C E
  := by
  induction xs generalizing a with
  | nil => apply triple_pure fun _ => id
  | cons x xs ih => apply (h x xs a).bind ih

/-- Where every call is answered, a program with no error of its own ends with a value. -/
theorem Triple.answers (h : Triple P program Q C fun _ _ => False) {s : σ} (hP : P s) :
  ∃ a s', program.run ⟨s, []⟩ = (.ok a, ⟨s', []⟩) ∧ Q a s'
  := by
  rcases h ⟨s, []⟩ hP with ⟨a, ha, hQ, hkept⟩ | ⟨_, _, ⟨hne, -⟩ | hfalse⟩
  · use a, (program.run ⟨s, []⟩).2.state
    constructor
    · calc program.run ⟨s, []⟩
        _ = ((program.run ⟨s, []⟩).1,
              ⟨(program.run ⟨s, []⟩).2.state, (program.run ⟨s, []⟩).2.outcomes⟩) := rfl
        _ = (.ok a, ⟨(program.run ⟨s, []⟩).2.state, []⟩) := by rw [ha, hkept rfl]
    · apply hQ
  · apply absurd rfl hne
  · apply hfalse.elim

/-! ### Programs that are started again -/

variable {ι : Type}

/-- The state after programs were started one after the other, each with its own outcomes. -/
def restarts (programs : ι → Program σ ε α) (s : σ) (starts : List (ι × List (Outcome ε))) : σ :=
  Run.after (fun s start => (programs start.1).leaves s start.2) s starts

/-- What every program keeps wherever it ends, holds after any number of starts. -/
theorem restarts_invariant {I : σ → Prop} {programs : ι → Program σ ε α}
    (h : ∀ i, Triple I (programs i) (fun _ => I) I fun _ => I) {s : σ} (hs : I s)
    (starts : List (ι × List (Outcome ε))) :
  I (restarts programs s starts)
  := by
  apply Run.invariant (C := fun _ _ => True) _ hs (Run.along_of_forall fun _ _ _ => trivial)
  intro s start hs _
  rcases h start.1 ⟨s, start.2⟩ hs with ⟨_, _, hI, -⟩ | ⟨_, _, ⟨-, hI⟩ | hI⟩
  · apply hI
  · apply hI
  · apply hI

end Device
