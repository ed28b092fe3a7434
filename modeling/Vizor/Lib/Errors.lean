import Vizor.Lib.Run

/-!
# Errors

What the errors of a fallible operation can be.  The errors of operations one after the other
are those of the first one and those of what comes after it, and the errors of a loop are
those of its steps.
-/

namespace Run

universe u w

variable {ε : Type w} {α β : Type u} {E : ε → Prop}

/-- Every error of the operation meets `E`. -/
def FailsWith (E : ε → Prop) (x : Except ε α) : Prop :=
  ∀ e, x = .error e → E e

/-- An operation returns what comes after its first part returns. -/
theorem exists_bind_eq_ok {P : β → Prop} {x : Except ε α} {f : α → Except ε β} {a : α}
    (hx : x = .ok a) (hf : ∃ b, f a = .ok b ∧ P b) :
  ∃ b, (x >>= f) = .ok b ∧ P b
  := by
  obtain ⟨b, hb, hP⟩ := hf
  exact ⟨b, bind_eq_ok.mpr ⟨a, hx, hb⟩, hP⟩

@[simp]
theorem ok_bind {a : α} {f : α → Except ε β} :
  ((Except.ok a : Except ε α) >>= f) = f a
  := rfl

@[simp]
theorem error_bind {e : ε} {f : α → Except ε β} :
  ((Except.error e : Except ε α) >>= f) = .error e
  := rfl

/-- An operation returns what it returns with other errors. -/
theorem mapError_eq_ok {ε' : Type*} {x : Except ε α} {f : ε → ε'} {a : α} :
  x.mapError f = .ok a ↔ x = .ok a
  := by
  cases x <;> simp [Except.mapError]

theorem failsWith_pure {a : α} :
  FailsWith E (pure a)
  := nofun

theorem FailsWith.bind {x : Except ε α} {f : α → Except ε β} (hx : FailsWith E x)
    (hf : ∀ a, x = .ok a → FailsWith E (f a)) :
  FailsWith E (x >>= f)
  := by
  intro e h
  cases x with
  | error e' =>
    cases h
    apply hx _ rfl
  | ok a => apply hf a rfl e h

theorem failsWith_okOr {x : Option α} {e : ε} (he : E e) :
  FailsWith E (okOr x e)
  := by
  intro e' h
  cases x with
  | none =>
    cases h
    apply he
  | some a => cases h

theorem ensure_of {c : Prop} [Decidable c] {e : ε} (h : c) :
  ensure c e = .ok ()
  := if_pos h

theorem ensure_of_not {c : Prop} [Decidable c] {e : ε} (h : ¬ c) :
  ensure c e = .error e
  := if_neg h

theorem failsWith_ensure {c : Prop} [Decidable c] {e : ε} (he : ¬ c → E e) :
  FailsWith E (ensure c e)
  := by
  intro e' h
  rw [ensure] at h
  split at h
  · cases h
  · rename_i hc
    cases h
    apply he hc

theorem FailsWith.foldlM {f : α → β → Except ε α} {xs : List β}
    (hf : ∀ a, ∀ x ∈ xs, FailsWith E (f a x)) (a : α) :
  FailsWith E (xs.foldlM f a)
  := by
  induction xs generalizing a with
  | nil => exact failsWith_pure
  | cons x xs ih =>
    rw [List.foldlM_cons]
    apply FailsWith.bind (hf a x List.mem_cons_self)
    intro b _
    apply ih
    intro c y hy
    apply hf c y (List.mem_cons_of_mem _ hy)

theorem FailsWith.mapM {f : α → Except ε β} {xs : List α}
    (hf : ∀ x ∈ xs, FailsWith E (f x)) :
  FailsWith E (xs.mapM f)
  := by
  induction xs with
  | nil => exact failsWith_pure
  | cons x xs ih =>
    rw [List.mapM_cons]
    apply FailsWith.bind (hf x List.mem_cons_self)
    intro y _
    apply FailsWith.bind
    · apply ih
      intro z hz
      apply hf z (List.mem_cons_of_mem _ hz)
    · intro ys _
      apply failsWith_pure

end Run
