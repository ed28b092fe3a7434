import Vizor.Coordinator.Registry

/-!
# The revocation barrier

In every run, operations of one key start one after the other in the order of their calls,
whatever the end of the operations before them.  When the wait of a revocation ends, the key
is idle, and no operation of it starts until this revocation is undone, and none at all when
it is made final.
-/

namespace Vizor

open Run

namespace Registry

universe u v

variable {α : Type u} {ε : Type v}

/-! ### What an event does -/

/-- The operation can end: it runs, or its wait is over and its account is revoked. -/
def CanEnd (r : Registry α ε) (op : Operation α ε) : Prop :=
  op.phase = .running
    ∨ ∃ previous, op.phase = .waiting previous ∧ r.isReleased previous = true
      ∧ r.revocations op.key ≠ none

/-- What an event does to the registry. -/
inductive Does (r : Registry α ε) : Event α ε → Registry α ε → Prop where
  | nothing {e} : Does r e r
  | refuse {network accountUuid} (h : r.revocations (keyOf network accountUuid) ≠ none) :
      Does r (.run network accountUuid)
        { r with
          operations := r.operations
            ++ [⟨keyOf network accountUuid, accountUuid, .refused accountUuid⟩] }
  | queue {network accountUuid} (h : r.revocations (keyOf network accountUuid) = none) :
      Does r (.run network accountUuid)
        { r with
          operations := r.operations ++ [⟨keyOf network accountUuid, accountUuid,
            .waiting (r.tails (keyOf network accountUuid))⟩]
          tails := Function.update r.tails (keyOf network accountUuid)
            (some r.operations.length) }
  | start {i key accountUuid previous}
      (hop : r.operations[i]? = some ⟨key, accountUuid, .waiting previous⟩)
      (hreleased : r.isReleased previous = true) (h : r.revocations key = none) :
      Does r (.resume i)
        { r with
          operations := r.operations.set i ⟨key, accountUuid, .running⟩
          started := r.started ++ [i] }
  | release {e i op outcome} (hop : r.operations[i]? = some op) (hend : r.CanEnd op) :
      Does r e (r.release i op outcome)
  | refuseRevocation {network accountUuid token}
      (h : r.revocations (keyOf network accountUuid) = some token) :
      Does r (.revokeAndWait network accountUuid)
        { r with
          calls := r.calls ++ [⟨keyOf network accountUuid, accountUuid, token, .stopping⟩] }
  | joinCommitted {network accountUuid token}
      (h : r.revocations (keyOf network accountUuid) = some token)
      (hcommitted : r.committedRevocations (keyOf network accountUuid) = true) :
      Does r (.revokeAndWait network accountUuid)
        { r with
          calls := r.calls ++ [⟨keyOf network accountUuid, accountUuid, token,
            .waiting (r.tails (keyOf network accountUuid)) true⟩] }
  | revoke {network accountUuid} (h : r.revocations (keyOf network accountUuid) = none) :
      Does r (.revokeAndWait network accountUuid)
        { r with
          revocations := Function.update r.revocations (keyOf network accountUuid)
            (some r.calls.length)
          calls := r.calls ++ [⟨keyOf network accountUuid, accountUuid, r.calls.length,
            .waiting (r.tails (keyOf network accountUuid)) false⟩] }
  | complete {j key accountUuid token tail finished}
      (hcall : r.calls[j]? = some ⟨key, accountUuid, token, .waiting tail finished⟩)
      (hreleased : r.isReleased tail = true) :
      Does r (.revoked j)
        { r with calls := r.calls.set j ⟨key, accountUuid, token, .completed finished⟩ }
  | commit {j key accountUuid token}
      (hcall : r.calls[j]? = some ⟨key, accountUuid, token, .completed false⟩) :
      Does r (.commit j)
        ({ r with calls := r.calls.set j ⟨key, accountUuid, token, .completed true⟩
          }.commitRevocation key token)
  | rollback {j key accountUuid token}
      (hcall : r.calls[j]? = some ⟨key, accountUuid, token, .completed false⟩) :
      Does r (.rollback j)
        ({ r with calls := r.calls.set j ⟨key, accountUuid, token, .completed true⟩
          }.rollbackRevocation key token)

variable {r : Registry α ε} {e : Event α ε} {key : String} {ops ops' : List (Operation α ε)}
  {op op' : Operation α ε} {i j n : Nat} {f : Option Nat}

theorem does_step :
  Does r e (r.step e)
  := by
  cases e with
  | run network accountUuid =>
    rw [step, run]
    split
    case _ h => exact .refuse (Option.isSome_iff_ne_none.mp h)
    case _ h => exact .queue (Option.not_isSome_iff_eq_none.mp h)
  | resume i =>
    rw [step, resume]
    split
    case _ hop =>
      split
      case _ hreleased =>
        split
        case _ h =>
          apply Does.release hop
          exact .inr ⟨_, rfl, hreleased, Option.isSome_iff_ne_none.mp h⟩
        case _ h => exact .start hop hreleased (Option.not_isSome_iff_eq_none.mp h)
      case _ => exact .nothing
    case _ => exact .nothing
  | finish i result =>
    rw [step, finish.eq_def]
    split
    case _ hop => exact .release hop (.inl rfl)
    case _ => exact .nothing
  | revokeAndWait network accountUuid =>
    rw [step, revokeAndWait]
    dsimp only
    split
    case _ h =>
      split
      case _ hcommitted => exact .joinCommitted h hcommitted
      case _ => exact .refuseRevocation h
    case _ h => exact .revoke h
  | revoked j =>
    rw [step, revoked]
    split
    case _ hcall =>
      split
      case _ hreleased => exact .complete hcall hreleased
      case _ => exact .nothing
    case _ => exact .nothing
  | commit j =>
    rw [step, commit]
    split
    case _ hcall => exact .commit hcall
    case _ => exact .nothing
  | rollback j =>
    rw [step, rollback]
    split
    case _ hcall => exact .rollback hcall
    case _ => exact .nothing

/-! ### Operations that follow one another -/

/-- The call is over. -/
def Phase.Ended : Phase α ε → Prop
  | .refused _ | .released _ => True
  | _ => False

/-- The call has gone past its wait. -/
def Phase.Past : Phase α ε → Prop
  | .running | .released _ => True
  | _ => False

/-- The call has a future in the chain. -/
def Phase.Queued : Phase α ε → Prop
  | .refused _ => False
  | _ => True

theorem Phase.Past.queued {p : Phase α ε} (h : p.Past) :
  p.Queued
  := by
  cases p with
  | refused _ => exact h
  | _ => trivial

/-- The operations are those from before, each at its place and gone on, and there may be
new ones. -/
def Follows (ops ops' : List (Operation α ε)) : Prop :=
  ∀ (i : Nat) (op : Operation α ε), ops[i]? = some op →
    ∃ op' : Operation α ε, ops'[i]? = some op' ∧ op'.key = op.key
      ∧ (op.phase.Ended → op'.phase.Ended) ∧ (op.phase.Past → op'.phase.Past)
      ∧ (op.phase.Queued → op'.phase.Queued)

/-- An operation that has gone past its wait is in the place of one that had not ended. -/
theorem follows_set (op' : Operation α ε) (hop : ops[i]? = some op) (hkey : op'.key = op.key) (hpast : op'.phase.Past)
    (hended : ¬op.phase.Ended) :
  Follows ops (ops.set i op')
  := by
  intro j old hold
  by_cases hij : i = j
  · subst hij
    rw [hop, Option.some_inj] at hold
    subst hold
    refine ⟨op', ?_, hkey, fun h => absurd h hended, fun _ => hpast, fun _ => hpast.queued⟩
    apply List.getElem?_set_self
    apply (List.getElem?_eq_some_iff.mp hop).1
  · refine ⟨old, ?_, rfl, id, id, id⟩
    rw [List.getElem?_set_ne hij, hold]

theorem follows_append :
  Follows ops (ops ++ [op])
  := by
  intro j old hold
  refine ⟨old, ?_, rfl, id, id, id⟩
  rw [List.getElem?_append_left (List.getElem?_eq_some_iff.mp hold).1, hold]

theorem getElem?_append_new {op' : Operation α ε} (h : (ops ++ [op])[i]? = some op') :
  ops[i]? = some op' ∨ i = ops.length ∧ op' = op
  := by
  rcases Nat.lt_or_ge i ops.length with hlt | hge
  · rw [List.getElem?_append_left hlt] at h
    exact .inl h
  · rw [List.getElem?_append_right hge, List.getElem?_singleton] at h
    split at h
    · cases h
      exact .inr ⟨by omega, rfl⟩
    · cases h

/-- Of the first `n` operations of the key, those that are not over are the one of the future
or before it. -/
structure Covers (ops : List (Operation α ε)) (key : String) (n : Nat) (f : Option Nat) :
    Prop where
  pending : ∀ i < n, ∀ op : Operation α ε, ops[i]? = some op → op.key = key →
    ¬op.phase.Ended → ∃ t, f = some t ∧ i ≤ t
  queued : ∀ t, f = some t → t < n
    ∧ ∃ op : Operation α ε, ops[t]? = some op ∧ op.key = key ∧ op.phase.Queued

/-- The first `n` operations of the key are over. -/
def OverBelow (ops : List (Operation α ε)) (key : String) (n : Nat) : Prop :=
  ∀ i < n, ∀ op : Operation α ε, ops[i]? = some op → op.key = key → op.phase.Ended

theorem Covers.follows (h : Covers ops key n f) (hfollows : Follows ops ops')
    (hn : n ≤ ops.length) :
  Covers ops' key n f
  := by
  constructor
  · intro i hi op' hop' hkey hended
    obtain ⟨op, hop⟩ : ∃ op, ops[i]? = some op := by
      rw [List.getElem?_eq_getElem (by omega)]
      exact ⟨_, rfl⟩
    obtain ⟨_, hsame, hkey', hended', -, -⟩ := hfollows i op hop
    rw [hop', Option.some_inj] at hsame
    subst hsame
    apply h.pending i hi op hop (hkey' ▸ hkey)
    intro hover
    apply hended (hended' hover)
  · intro t ht
    obtain ⟨hlt, op, hop, hkey, hqueued⟩ := h.queued t ht
    obtain ⟨op', hop', hkey', -, -, hqueued'⟩ := hfollows t op hop
    exact ⟨hlt, op', hop', hkey'.trans hkey, hqueued' hqueued⟩

theorem OverBelow.follows (h : OverBelow ops key n) (hfollows : Follows ops ops')
    (hn : n ≤ ops.length) :
  OverBelow ops' key n
  := by
  intro i hi op' hop' hkey
  obtain ⟨op, hop⟩ : ∃ op, ops[i]? = some op := by
    rw [List.getElem?_eq_getElem (by omega)]
    exact ⟨_, rfl⟩
  obtain ⟨_, hsame, hkey', hended', -, -⟩ := hfollows i op hop
  rw [hop', Option.some_inj] at hsame
  subst hsame
  apply hended' (h i hi op hop (hkey' ▸ hkey))

/-! ### The order of operations -/

/-- The operations of each key follow one another. -/
structure InOrder (r : Registry α ε) : Prop where
  tails : ∀ key, Covers r.operations key r.operations.length (r.tails key)
  waiting : ∀ i op previous, r.operations[i]? = some op → op.phase = .waiting previous →
    Covers r.operations op.key i previous
  past : ∀ i op, r.operations[i]? = some op → op.phase.Past → OverBelow r.operations op.key i
  started : ∀ i ∈ r.started, ∃ op, r.operations[i]? = some op ∧ op.phase.Past
  sorted : ∀ key, (r.startedOf key).Pairwise (· < ·)

/-- A future that has completed has left no operation unfinished among those that it covers. -/
theorem Covers.overBelow (h : Covers r.operations key n f)
    (hpast : ∀ i op, r.operations[i]? = some op → op.phase.Past →
      OverBelow r.operations op.key i)
    (hreleased : r.isReleased f = true) :
  OverBelow r.operations key n
  := by
  intro i hi op hop hkey
  by_contra hended
  obtain ⟨t, rfl, hit⟩ := h.pending i hi op hop hkey hended
  obtain ⟨-, last, hlast, hlastKey, -⟩ := h.queued t rfl
  rw [isReleased, hlast] at hreleased
  dsimp only [Option.map_some] at hreleased
  split at hreleased
  case _ outcome hphase =>
    rw [Option.some_inj] at hphase
    rcases Nat.lt_or_eq_of_le hit with hlt | rfl
    · apply hended
      apply hpast t last hlast _ i hlt op hop (hkey.trans hlastKey.symm)
      rw [hphase]
      trivial
    · rw [hop, Option.some_inj] at hlast
      subst hlast
      rw [hphase] at hended
      apply hended trivial
  case _ => cases hreleased

variable {r' : Registry α ε} {new : List Nat}

/-- Operations that go on keep their places among those that were started. -/
theorem InOrder.startedOf_follows (h : InOrder r) (hfollows : Follows r.operations r'.operations)
    (hstarted : r'.started = r.started ++ new) :
  r'.startedOf key
    = r.startedOf key ++ new.filter fun i => r'.operations[i]?.map Operation.key = some key
  := by
  rw [startedOf, hstarted, List.filter_append, startedOf]
  congr 1
  apply List.filter_congr
  intro i hi
  obtain ⟨op, hop, -⟩ := h.started i hi
  obtain ⟨op', hop', hkey, -⟩ := hfollows i op hop
  rw [hop, hop', Option.map_some, Option.map_some, hkey]

/-- Operations that go on keep their order, when those that wait and the last ones cover what
was called before them. -/
theorem InOrder.follows (h : InOrder r) (hfollows : Follows r.operations r'.operations)
    (htails : ∀ key, Covers r'.operations key r'.operations.length (r'.tails key))
    (hwaiting : ∀ i op previous, r'.operations[i]? = some op → op.phase = .waiting previous →
      Covers r'.operations op.key i previous)
    (hpast : ∀ i op, r'.operations[i]? = some op → op.phase.Past →
      OverBelow r'.operations op.key i)
    (hstarted : r'.started = r.started) :
  InOrder r'
  := by
  refine ⟨htails, hwaiting, hpast, ?_, ?_⟩
  · intro i hi
    rw [hstarted] at hi
    obtain ⟨op, hop, hopPast⟩ := h.started i hi
    obtain ⟨op', hop', -, -, hpast', -⟩ := hfollows i op hop
    exact ⟨op', hop', hpast' hopPast⟩
  · intro key
    have hnone : r'.started = r.started ++ [] := by
      rw [hstarted, List.append_nil]
    rw [h.startedOf_follows hfollows hnone, List.filter_nil, List.append_nil]
    apply h.sorted key

/-- A new call keeps the order, when it covers what was called before it and is the last one
if it is queued. -/
theorem InOrder.append (op : Operation α ε) (h : InOrder r) (hops : r'.operations = r.operations ++ [op])
    (hwaiting : ∀ previous, op.phase = .waiting previous →
      Covers r.operations op.key r.operations.length previous)
    (hpast : ¬op.phase.Past)
    (htails : ∀ key, key ≠ op.key ∨ op.phase.Ended → r'.tails key = r.tails key)
    (htail : ¬op.phase.Ended → r'.tails op.key = some r.operations.length)
    (hqueued : ¬op.phase.Ended → op.phase.Queued) (hstarted : r'.started = r.started) :
  InOrder r'
  := by
  have hfollows : Follows r.operations r'.operations := by
    rw [hops]
    apply follows_append
  have hlength : r'.operations.length = r.operations.length + 1 := by
    rw [hops, List.length_append, List.length_singleton]
  have hold : ∀ {i : Nat} {old : Operation α ε}, r'.operations[i]? = some old →
      r.operations[i]? = some old ∨ i = r.operations.length ∧ old = op := by
    intro i old hi
    rw [hops] at hi
    apply getElem?_append_new hi
  apply h.follows hfollows _ _ _ hstarted
  · intro key
    by_cases hkey : key ≠ op.key ∨ op.phase.Ended
    · have hcovers := (h.tails key).follows hfollows (Nat.le_refl _)
      rw [htails key hkey, hlength]
      constructor
      · intro i hi old hi' holdKey hended
        rcases hold hi' with hi' | ⟨-, rfl⟩
        · apply hcovers.pending i (List.getElem?_eq_some_iff.mp hi').1 old _ holdKey hended
          rw [hops, List.getElem?_append_left (List.getElem?_eq_some_iff.mp hi').1, hi']
        · rcases hkey with hne | hover
          · exact absurd holdKey.symm hne
          · exact absurd hover hended
      · intro t ht
        obtain ⟨hlt, hqueued⟩ := hcovers.queued t ht
        exact ⟨by omega, hqueued⟩
    · rw [not_or, not_not] at hkey
      obtain ⟨rfl, hended⟩ := hkey
      rw [htail hended, hlength]
      constructor
      · intro i hi old _ _ _
        exact ⟨_, rfl, by omega⟩
      · rintro t ht
        cases ht
        refine ⟨by omega, op, ?_, rfl, hqueued hended⟩
        rw [hops, List.getElem?_concat_length]
  · intro i old previous hi hphase
    rcases hold hi with hi | ⟨rfl, rfl⟩
    · apply (h.waiting i old previous hi hphase).follows hfollows
      apply Nat.le_of_lt (List.getElem?_eq_some_iff.mp hi).1
    · apply (hwaiting previous hphase).follows hfollows (Nat.le_refl _)
  · intro i old hi holdPast
    rcases hold hi with hi | ⟨rfl, rfl⟩
    · apply (h.past i old hi holdPast).follows hfollows
      apply Nat.le_of_lt (List.getElem?_eq_some_iff.mp hi).1
    · exact absurd holdPast hpast

/-- An operation that goes past its wait keeps the order, when those before it are over. -/
theorem InOrder.set (op' : Operation α ε) (h : InOrder r) (hop : r.operations[i]? = some op)
    (hops : r'.operations = r.operations.set i op') (hkey : op'.key = op.key)
    (hpast : op'.phase.Past) (hended : ¬op.phase.Ended)
    (hbelow : OverBelow r.operations op.key i)
    (htails : ∀ key, r'.tails key = r.tails key
      ∨ key = op.key ∧ op'.phase.Ended ∧ r.tails key = some i ∧ r'.tails key = none)
    (hstarted : r'.started = r.started) :
  InOrder r'
  := by
  have hfollows : Follows r.operations r'.operations := by
    rw [hops]
    apply follows_set op' hop hkey hpast hended
  have hlt : i < r.operations.length := (List.getElem?_eq_some_iff.mp hop).1
  have hlength : r'.operations.length = r.operations.length := by
    rw [hops, List.length_set]
  have hold : ∀ {j : Nat} {old : Operation α ε}, r'.operations[j]? = some old →
      j ≠ i ∧ r.operations[j]? = some old ∨ j = i ∧ old = op' := by
    intro j old hj
    rw [hops] at hj
    by_cases hij : i = j
    · subst hij
      rw [List.getElem?_set_self hlt, Option.some_inj] at hj
      exact .inr ⟨rfl, hj.symm⟩
    · rw [List.getElem?_set_ne hij] at hj
      exact .inl ⟨Ne.symm hij, hj⟩
  apply h.follows hfollows _ _ _ hstarted
  · intro key
    have hcovers := (h.tails key).follows hfollows (Nat.le_refl _)
    rcases htails key with hsame | ⟨rfl, hover, htail, hnone⟩
    · rw [hsame, hlength]
      apply hcovers
    · rw [hnone]
      constructor
      · intro j hj old hjOld holdKey holdEnded
        rw [hlength] at hj
        obtain ⟨t, ht, hjt⟩ := hcovers.pending j hj old hjOld holdKey holdEnded
        rw [htail, Option.some_inj] at ht
        subst ht
        rcases hold hjOld with ⟨hne, hjOld⟩ | ⟨-, rfl⟩
        · have hji : j < i := by omega
          exact absurd (hbelow j hji old hjOld holdKey) holdEnded
        · exact absurd hover holdEnded
      · intro t ht
        cases ht
  · intro j old previous hj hphase
    rcases hold hj with ⟨-, hj⟩ | ⟨-, rfl⟩
    · apply (h.waiting j old previous hj hphase).follows hfollows
      apply Nat.le_of_lt (List.getElem?_eq_some_iff.mp hj).1
    · rw [hphase] at hpast
      apply hpast.elim
  · intro j old hj holdPast
    rcases hold hj with ⟨-, hj⟩ | ⟨rfl, rfl⟩
    · apply (h.past j old hj holdPast).follows hfollows
      apply Nat.le_of_lt (List.getElem?_eq_some_iff.mp hj).1
    · rw [hkey]
      apply hbelow.follows hfollows (Nat.le_of_lt hlt)

/-- What is over when the wait of an operation ends. -/
theorem InOrder.overBelow (h : InOrder r) {previous : Option Nat}
    (hop : r.operations[i]? = some op) (hphase : op.phase = .waiting previous)
    (hreleased : r.isReleased previous = true) :
  OverBelow r.operations op.key i
  := (h.waiting i op previous hop hphase).overBelow h.past hreleased

theorem CanEnd.not_ended (h : r.CanEnd op) :
  ¬op.phase.Ended
  := by
  rcases h with h | ⟨previous, h, -, -⟩
  · rw [h]
    apply id
  · rw [h]
    apply id

theorem InOrder.overBelow_of_canEnd (h : InOrder r) (hop : r.operations[i]? = some op)
    (hend : r.CanEnd op) :
  OverBelow r.operations op.key i
  := by
  rcases hend with hphase | ⟨previous, hphase, hreleased, -⟩
  · apply h.past i op hop
    rw [hphase]
    trivial
  · apply h.overBelow hop hphase hreleased

theorem InOrder.release {outcome : Outcome α ε} (h : InOrder r)
    (hop : r.operations[i]? = some op) (hend : r.CanEnd op) :
  InOrder (r.release i op outcome)
  := by
  have htails : ∀ key, (r.release i op outcome).tails key = r.tails key
      ∨ key = op.key ∧ r.tails key = some i ∧ (r.release i op outcome).tails key = none := by
    intro key
    dsimp only [Registry.release]
    split
    case _ htail =>
      by_cases hkey : key = op.key
      · subst hkey
        exact .inr ⟨rfl, htail, Function.update_self ..⟩
      · exact .inl (Function.update_of_ne hkey ..)
    case _ => exact .inl rfl
  apply h.set { op with phase := .released outcome } hop rfl rfl trivial hend.not_ended
    (h.overBelow_of_canEnd hop hend)
    (fun key => (htails key).imp_right fun ⟨hkey, htail, hnone⟩ => ⟨hkey, trivial, htail, hnone⟩)
    rfl

theorem InOrder.start {accountUuid : String} {previous : Option Nat} (h : InOrder r)
    (hop : r.operations[i]? = some ⟨key, accountUuid, .waiting previous⟩)
    (hreleased : r.isReleased previous = true) :
  InOrder
    { r with
      operations := r.operations.set i ⟨key, accountUuid, .running⟩
      started := r.started ++ [i] }
  := by
  have hbelow := h.overBelow hop rfl hreleased
  have hlt : i < r.operations.length := (List.getElem?_eq_some_iff.mp hop).1
  have hset : InOrder { r with operations := r.operations.set i ⟨key, accountUuid, .running⟩ } := by
    exact h.set ⟨key, accountUuid, .running⟩ hop rfl rfl trivial id hbelow (fun key => .inl rfl) rfl
  have hfollows : Follows r.operations (r.operations.set i ⟨key, accountUuid, .running⟩) := by
    apply follows_set ⟨key, accountUuid, .running⟩ hop rfl trivial id
  refine ⟨hset.tails, hset.waiting, hset.past, ?_, ?_⟩
  · intro j hj
    rcases List.mem_append.mp hj with hj | hj
    · apply hset.started j hj
    · rw [List.mem_singleton.mp hj]
      exact ⟨_, List.getElem?_set_self hlt, trivial⟩
  · intro key'
    rw [h.startedOf_follows hfollows rfl, List.pairwise_append]
    refine ⟨h.sorted key', ?_, ?_⟩
    · apply List.Pairwise.filter
      apply List.pairwise_singleton ..
    · intro j hj k hk
      obtain ⟨hk, hkey⟩ := List.mem_filter.mp hk
      rw [List.mem_singleton] at hk
      subst hk
      dsimp only at hkey
      rw [List.getElem?_set_self hlt, decide_eq_true_eq, Option.map_some, Option.some_inj] at hkey
      subst hkey
      obtain ⟨hj, hjKey⟩ := List.mem_filter.mp hj
      obtain ⟨old, hold, holdPast⟩ := h.started j hj
      rw [hold, decide_eq_true_eq, Option.map_some, Option.some_inj] at hjKey
      by_contra hge
      rcases Nat.lt_or_eq_of_le (Nat.le_of_not_lt hge) with hlt | rfl
      · apply h.past j old hold holdPast k hlt _ hop hjKey.symm
      · rw [hop, Option.some_inj] at hold
        subst hold
        apply holdPast

theorem InOrder.of_same (h : InOrder r) (hops : r'.operations = r.operations)
    (htails : r'.tails = r.tails) (hstarted : r'.started = r.started) :
  InOrder r'
  := by
  apply h.follows _ _ _ _ hstarted
  · rw [hops]
    intro i op hop
    exact ⟨op, hop, rfl, id, id, id⟩
  · rw [hops, htails]
    apply h.tails
  · rw [hops]
    apply h.waiting
  · rw [hops]
    apply h.past

/-- An event keeps the order. -/
theorem InOrder.does (h : InOrder r) (hdoes : Does r e r') :
  InOrder r'
  := by
  cases hdoes with
  | nothing => exact h
  | @refuse network accountUuid hrevoked =>
    apply h.append ⟨keyOf network accountUuid, accountUuid, .refused accountUuid⟩
    · rfl
    · intro previous hphase
      cases hphase
    · apply id
    · intro key hkey
      rfl
    · intro hended
      exact absurd trivial hended
    · intro hended
      exact absurd trivial hended
    · rfl
  | @queue network accountUuid hrevoked =>
    apply h.append ⟨keyOf network accountUuid, accountUuid,
      .waiting (r.tails (keyOf network accountUuid))⟩
    · rfl
    · rintro previous hphase
      cases hphase
      apply h.tails
    · apply id
    · rintro key (hkey | hended)
      · apply Function.update_of_ne hkey ..
      · apply hended.elim
    · intro hended
      apply Function.update_self ..
    · intro hended
      trivial
    · rfl
  | start hop hreleased hrevoked => exact h.start hop hreleased
  | release hop hend => exact h.release hop hend
  | refuseRevocation hrevoked => exact h.of_same rfl rfl rfl
  | joinCommitted hrevoked hcommitted => exact h.of_same rfl rfl rfl
  | revoke hrevoked => exact h.of_same rfl rfl rfl
  | complete hcall hreleased => exact h.of_same rfl rfl rfl
  | commit hcall =>
    rw [commitRevocation]
    split <;> exact h.of_same rfl rfl rfl
  | rollback hcall =>
    rw [rollbackRevocation]
    split <;> exact h.of_same rfl rfl rfl

/-! ### Revoked keys -/

/-- Operations go on at their places. -/
theorem Does.follows (h : Does r e r') :
  Follows r.operations r'.operations
  := by
  have hsame : Follows r.operations r.operations := fun i op hop => ⟨op, hop, rfl, id, id, id⟩
  cases h with
  | refuse hrevoked => exact follows_append
  | queue hrevoked => exact follows_append
  | start hop hreleased hrevoked => exact follows_set _ hop rfl trivial id
  | release hop hend => exact follows_set _ hop rfl trivial hend.not_ended
  | commit hcall =>
    rw [commitRevocation]
    split <;> exact hsame
  | rollback hcall =>
    rw [rollbackRevocation]
    split <;> exact hsame
  | _ => exact hsame

/-- A new operation of a revoked key is over. -/
theorem Does.new_ended (h : Does r e r') (hop : r'.operations[i]? = some op)
    (hnew : r.operations.length ≤ i) (hrevoked : r.revocations op.key ≠ none) :
  op.phase.Ended
  := by
  have hold : r.operations[i]? ≠ some op := by
    rw [List.getElem?_eq_none hnew]
    nofun
  cases h with
  | refuse _ =>
    rcases getElem?_append_new hop with hop | ⟨-, rfl⟩
    · exact absurd hop hold
    · trivial
  | queue hnone =>
    rcases getElem?_append_new hop with hop | ⟨-, rfl⟩
    · exact absurd hop hold
    · exact absurd hnone hrevoked
  | start _ _ _ =>
    have hlt := (List.getElem?_eq_some_iff.mp hop).1
    rw [List.length_set] at hlt
    omega
  | release _ _ =>
    have hlt := (List.getElem?_eq_some_iff.mp hop).1
    rw [Registry.release, List.length_set] at hlt
    omega
  | commit _ =>
    rw [commitRevocation] at hop
    split at hop <;> exact absurd hop hold
  | rollback _ =>
    rw [rollbackRevocation] at hop
    split at hop <;> exact absurd hop hold
  | _ => exact absurd hop hold

/-- The future that covers the operations of a revoked key covers them after an event. -/
theorem Covers.does (h : Covers r.operations key r.operations.length f) (hdoes : Does r e r')
    (hrevoked : r.revocations key ≠ none) :
  Covers r'.operations key r'.operations.length f
  := by
  have hcovers := h.follows hdoes.follows (Nat.le_refl _)
  have hlength : ∀ {t : Nat} {op : Operation α ε}, r'.operations[t]? = some op →
      t < r'.operations.length := fun hop => (List.getElem?_eq_some_iff.mp hop).1
  constructor
  · intro i hi op hop hkey hended
    rcases Nat.lt_or_ge i r.operations.length with hlt | hge
    · apply hcovers.pending i hlt op hop hkey hended
    · subst hkey
      exact absurd (hdoes.new_ended hop hge hrevoked) hended
  · intro t ht
    obtain ⟨-, op, hop, hqueued⟩ := hcovers.queued t ht
    exact ⟨hlength hop, op, hop, hqueued⟩

/-- All operations of the key are over. -/
def Idle (r : Registry α ε) (key : String) : Prop :=
  OverBelow r.operations key r.operations.length

theorem covers_none :
  Covers r.operations key r.operations.length none ↔ r.Idle key
  := by
  constructor
  · intro h i hi op hop hkey
    by_contra hended
    obtain ⟨t, ht, -⟩ := h.pending i hi op hop hkey hended
    cases ht
  · intro h
    constructor
    · intro i hi op hop hkey hended
      exact absurd (h i hi op hop hkey) hended
    · intro t ht
      cases ht

/-- A revoked key that is idle stays idle. -/
theorem Idle.does (h : r.Idle key) (hdoes : Does r e r') (hrevoked : r.revocations key ≠ none) :
  r'.Idle key
  := covers_none.mp ((covers_none.mpr h).does hdoes hrevoked)

/-! ### Handles -/

/-- The handle is not finished, or will not be when it is returned. -/
def RevocationPhase.Open : RevocationPhase → Prop
  | .waiting _ finished | .completed finished => finished = false
  | .stopping => False

/-- What is known of a call of `revokeAndWait`. -/
structure Revocation.Sound (r : Registry α ε) (j : Nat) (c : Revocation) : Prop where
  own : c.phase.Open →
    c.token = j ∧ r.revocations c.key = some j ∧ r.committedRevocations c.key = false
  waiting : ∀ tail finished, c.phase = .waiting tail finished →
    r.revocations c.key ≠ none ∧ Covers r.operations c.key r.operations.length tail
  joined : ∀ tail, c.phase = .waiting tail true → r.committedRevocations c.key = true
  idle : c.phase = .completed false → r.Idle c.key

/-- What is known of the revocations. -/
structure Barred (r : Registry α ε) : Prop where
  calls : ∀ (j : Nat) (c : Revocation), r.calls[j]? = some c → c.Sound r j
  committed : ∀ key, r.committedRevocations key = true →
    r.revocations key ≠ none ∧ r.Idle key

variable {c : Revocation}

/-- Of a call that was refused, or whose handle is finished, nothing is asked. -/
theorem Revocation.sound_closed (hphase : c.phase = .stopping ∨ c.phase = .completed true) :
  c.Sound r j
  := by
  constructor
  · intro hopen
    rcases hphase with hphase | hphase <;> rw [hphase] at hopen <;> cases hopen
  · intro tail finished hwaiting
    rcases hphase with hphase | hphase <;> rw [hphase] at hwaiting <;> cases hwaiting
  · intro tail hwaiting
    rcases hphase with hphase | hphase <;> rw [hphase] at hwaiting <;> cases hwaiting
  · intro hcompleted
    rcases hphase with hphase | hphase <;> rw [hphase] at hcompleted <;> cases hcompleted

/-- A call stays sound when its key keeps its revocation. -/
theorem Revocation.Sound.does (h : c.Sound r j) (hdoes : Does r e r')
    (hrevocations : r'.revocations c.key = r.revocations c.key)
    (hcommitted : r'.committedRevocations c.key = r.committedRevocations c.key) :
  c.Sound r' j
  := by
  constructor
  · rw [hrevocations, hcommitted]
    apply h.own
  · intro tail finished hphase
    obtain ⟨hrevoked, hcovers⟩ := h.waiting tail finished hphase
    rw [hrevocations]
    exact ⟨hrevoked, hcovers.does hdoes hrevoked⟩
  · rw [hcommitted]
    apply h.joined
  · intro hphase
    have hopen : c.phase.Open := by
      rw [hphase]
      rfl
    apply (h.idle hphase).does hdoes
    rw [(h.own hopen).2.1]
    nofun

/-- The calls for a key that is not revoked were refused or have finished handles. -/
theorem Revocation.Sound.closed (h : c.Sound r j) (hnone : r.revocations c.key = none) :
  c.phase = .stopping ∨ c.phase = .completed true
  := by
  cases hphase : c.phase with
  | stopping => exact .inl rfl
  | waiting tail finished => exact absurd hnone (h.waiting tail finished hphase).1
  | completed finished =>
    cases finished with
    | true => exact .inr rfl
    | false =>
      have hopen : c.phase.Open := by
        rw [hphase]
        rfl
      rw [(h.own hopen).2.1] at hnone
      cases hnone

/-- While a handle is not finished, the other calls for its key were refused or have finished
handles. -/
theorem Revocation.Sound.closed_of_open {c' : Revocation} (h : c.Sound r j)
    (h' : c'.Sound r i) (hopen : c.phase.Open) (hkey : c'.key = c.key) (hne : i ≠ j) :
  c'.phase = .stopping ∨ c'.phase = .completed true
  := by
  obtain ⟨-, hrevocation, huncommitted⟩ := h.own hopen
  have hclosed : ¬c'.phase.Open := by
    intro hopen'
    obtain ⟨-, hrevocation', -⟩ := h'.own hopen'
    rw [hkey, hrevocation, Option.some_inj] at hrevocation'
    apply hne hrevocation'.symm
  cases hphase : c'.phase with
  | stopping => exact .inl rfl
  | waiting tail finished =>
    rw [hphase] at hclosed
    rw [RevocationPhase.Open, Bool.not_eq_false] at hclosed
    subst hclosed
    have hcommitted := h'.joined tail hphase
    rw [hkey, huncommitted] at hcommitted
    cases hcommitted
  | completed finished =>
    rw [hphase] at hclosed
    rw [RevocationPhase.Open, Bool.not_eq_false] at hclosed
    rw [hclosed]
    exact .inr rfl

/-- The revocations stay sound when no revocation changes and the new calls are sound. -/
theorem Barred.of_calls (h : Barred r) (hdoes : Does r e r')
    (hcommitted : r'.committedRevocations = r.committedRevocations)
    (hrevocations : ∀ key, r.revocations key ≠ none → r'.revocations key = r.revocations key)
    (hcalls : ∀ (j : Nat) (c : Revocation), r'.calls[j]? = some c →
      r.calls[j]? = some c ∨ c.Sound r' j) :
  Barred r'
  := by
  constructor
  · intro j c hc
    rcases hcalls j c hc with hc | hsound
    · have hsound := h.calls j c hc
      by_cases hnone : r.revocations c.key = none
      · apply Revocation.sound_closed (hsound.closed hnone)
      · apply hsound.does hdoes (hrevocations c.key hnone)
        rw [hcommitted]
    · apply hsound
  · intro key hkey
    rw [hcommitted] at hkey
    obtain ⟨hrevoked, hidle⟩ := h.committed key hkey
    rw [hrevocations key hrevoked]
    exact ⟨hrevoked, hidle.does hdoes hrevoked⟩

/-- The revocations stay sound when a handle is finished and only the revocation of its key
changes. -/
theorem Barred.of_finished (h : Barred r) (hdoes : Does r e r')
    (hcall : r.calls[j]? = some c) (hphase : c.phase = .completed false)
    (hcalls : r'.calls = r.calls.set j { c with phase := .completed true })
    (hrevocations : ∀ key, key ≠ c.key → r'.revocations key = r.revocations key
      ∧ r'.committedRevocations key = r.committedRevocations key)
    (hown : r'.committedRevocations c.key = true → r'.revocations c.key ≠ none ∧ r'.Idle c.key) :
  Barred r'
  := by
  have hsound := h.calls j c hcall
  have hopen : c.phase.Open := by
    rw [hphase]
    rfl
  constructor
  · intro i c' hc'
    rw [hcalls] at hc'
    by_cases hij : j = i
    · subst hij
      rw [List.getElem?_set_self (List.getElem?_eq_some_iff.mp hcall).1, Option.some_inj] at hc'
      subst hc'
      apply Revocation.sound_closed (.inr rfl)
    · rw [List.getElem?_set_ne hij] at hc'
      have hsound' := h.calls i c' hc'
      by_cases hkey : c'.key = c.key
      · apply Revocation.sound_closed (hsound.closed_of_open hsound' hopen hkey (Ne.symm hij))
      · obtain ⟨hsame, hsame'⟩ := hrevocations c'.key hkey
        apply hsound'.does hdoes hsame hsame'
  · intro key hkey
    by_cases hne : key = c.key
    · subst hne
      apply hown hkey
    · obtain ⟨hsame, hsame'⟩ := hrevocations key hne
      rw [hsame'] at hkey
      obtain ⟨hrevoked, hidle⟩ := h.committed key hkey
      rw [hsame]
      exact ⟨hrevoked, hidle.does hdoes hrevoked⟩

theorem getElem?_append_call {calls : List Revocation} {c' : Revocation}
    (h : (calls ++ [c])[i]? = some c') :
  calls[i]? = some c' ∨ i = calls.length ∧ c' = c
  := by
  rcases Nat.lt_or_ge i calls.length with hlt | hge
  · rw [List.getElem?_append_left hlt] at h
    exact .inl h
  · rw [List.getElem?_append_right hge, List.getElem?_singleton] at h
    split at h
    · cases h
      exact .inr ⟨by omega, rfl⟩
    · cases h

/-- An event keeps the revocations sound. -/
theorem Barred.does (h : Barred r) (horder : InOrder r) (hdoes : Does r e r') :
  Barred r'
  := by
  cases hdoes with
  | nothing => exact h
  | refuse hrevoked =>
    apply h.of_calls (.refuse hrevoked) rfl (fun key _ => rfl) fun j c hc => .inl hc
  | queue hrevoked =>
    apply h.of_calls (.queue hrevoked) rfl (fun key _ => rfl) fun j c hc => .inl hc
  | start hop hreleased hrevoked =>
    apply h.of_calls (.start hop hreleased hrevoked) rfl (fun key _ => rfl) fun j c hc => .inl hc
  | release hop hend =>
    apply h.of_calls (Does.release (e := e) hop hend) rfl (fun key _ => rfl) fun j c hc => .inl hc
  | refuseRevocation hrevoked =>
    apply h.of_calls (.refuseRevocation hrevoked) rfl (fun key _ => rfl)
    intro j c hc
    apply (getElem?_append_call hc).imp_right
    rintro ⟨rfl, rfl⟩
    apply Revocation.sound_closed (.inl rfl)
  | joinCommitted hrevoked hcommitted =>
    apply h.of_calls (.joinCommitted hrevoked hcommitted) rfl (fun key _ => rfl)
    intro j c hc
    apply (getElem?_append_call hc).imp_right
    rintro ⟨rfl, rfl⟩
    constructor
    · intro hopen
      cases hopen
    · rintro tail finished hphase
      cases hphase
      refine ⟨?_, horder.tails _⟩
      rw [hrevoked]
      nofun
    · intro tail hphase
      apply hcommitted
    · intro hphase
      cases hphase
  | @revoke network accountUuid hrevoked =>
    apply h.of_calls (.revoke hrevoked) rfl
    · intro key hkey
      apply Function.update_of_ne
      rintro rfl
      apply hkey hrevoked
    intro j c hc
    apply (getElem?_append_call hc).imp_right
    rintro ⟨rfl, rfl⟩
    constructor
    · intro _
      refine ⟨rfl, Function.update_self .., ?_⟩
      rw [← Bool.not_eq_true]
      intro hcommitted
      apply (h.committed _ hcommitted).1 hrevoked
    · rintro tail finished hphase
      cases hphase
      refine ⟨?_, horder.tails _⟩
      dsimp only
      rw [Function.update_self]
      nofun
    · intro tail hphase
      cases hphase
    · intro hphase
      cases hphase
  | @complete j key accountUuid token tail finished hcall hreleased =>
    apply h.of_calls (.complete hcall hreleased) rfl (fun key _ => rfl)
    intro i c hc
    by_cases hij : j = i
    · subst hij
      rw [List.getElem?_set_self (List.getElem?_eq_some_iff.mp hcall).1, Option.some_inj] at hc
      subst hc
      have hsound := h.calls j _ hcall
      right
      constructor
      · apply hsound.own
      · intro tail' finished' hphase
        cases hphase
      · intro tail' hphase
        cases hphase
      · intro hphase
        apply (hsound.waiting tail finished rfl).2.overBelow horder.past hreleased
    · rw [List.getElem?_set_ne hij] at hc
      exact .inl hc
  | @commit j key accountUuid token hcall =>
    have hsound := h.calls j _ hcall
    obtain ⟨rfl, hrevocation, -⟩ := hsound.own rfl
    apply h.of_finished (.commit hcall) hcall rfl
    · rw [commitRevocation]
      split <;> rfl
    · intro key' hne
      rw [commitRevocation, if_pos hrevocation]
      exact ⟨rfl, Function.update_of_ne hne ..⟩
    · intro _
      rw [commitRevocation, if_pos hrevocation]
      refine ⟨?_, hsound.idle rfl⟩
      dsimp only
      rw [hrevocation]
      nofun
  | @rollback j key accountUuid token hcall =>
    have hsound := h.calls j _ hcall
    obtain ⟨rfl, hrevocation, -⟩ := hsound.own rfl
    apply h.of_finished (.rollback hcall) hcall rfl
    · rw [rollbackRevocation]
      split <;> rfl
    · intro key' hne
      rw [rollbackRevocation, if_pos hrevocation]
      exact ⟨Function.update_of_ne hne .., Function.update_of_ne hne ..⟩
    · rw [rollbackRevocation, if_pos hrevocation]
      intro hcommitted
      dsimp only at hcommitted
      rw [Function.update_self] at hcommitted
      cases hcommitted

/-! ### Runs -/

/-- What holds of the registry in every run. -/
structure Sound (r : Registry α ε) : Prop where
  order : InOrder r
  barred : Barred r

theorem sound_empty :
  (empty : Registry α ε).Sound
  := by
  have hnone : ∀ {i : Nat} {op : Operation α ε}, ([] : List (Operation α ε))[i]? ≠ some op := nofun
  constructor
  · constructor
    · intro key
      constructor
      · intro i hi op hop
        exact absurd hop hnone
      · intro t ht
        cases ht
    · intro i op previous hop
      exact absurd hop hnone
    · intro i op hop
      exact absurd hop hnone
    · intro i hi
      cases hi
    · intro key
      apply List.Pairwise.nil
  · constructor
    · intro j c hc
      cases hc
    · intro key hkey
      cases hkey

theorem Sound.step (h : r.Sound) :
  (r.step e).Sound
  := ⟨h.order.does does_step, h.barred.does h.order does_step⟩

theorem Sound.after {events : List (Event α ε)} (h : r.Sound) :
  (Run.after Registry.step r events).Sound
  := by
  apply Run.invariant (C := fun _ _ => True) _ h
  · apply along_of_forall
    intro _ _ _
    trivial
  · intro r e h _
    apply h.step

/-- No operation of the key starts until the call's handle is rolled back. -/
structure Shut (r : Registry α ε) (key : String) (j : Nat) : Prop where
  idle : r.Idle key
  revoked : r.committedRevocations key = true
    ∨ ∃ c, r.calls[j]? = some c ∧ c.key = key ∧ c.phase = .completed false

theorem Shut.revocation (h : r.Shut key j) (hsound : r.Sound) :
  r.revocations key ≠ none
  := by
  rcases h.revoked with hcommitted | ⟨c, hcall, rfl, hphase⟩
  · apply (hsound.barred.committed key hcommitted).1
  · have hopen : c.phase.Open := by
      rw [hphase]
      rfl
    rw [((hsound.barred.calls j c hcall).own hopen).2.1]
    nofun

/-- An event starts no operation of a revoked key. -/
theorem Does.startedOf (h : Does r e r') (horder : InOrder r) (hrevoked : r.revocations key ≠ none) :
  r'.startedOf key = r.startedOf key
  := by
  have hsame : r'.started = r.started → r'.startedOf key = r.startedOf key := by
    intro hstarted
    have hnone : r'.started = r.started ++ [] := by
      rw [hstarted, List.append_nil]
    rw [horder.startedOf_follows h.follows hnone, List.filter_nil, List.append_nil]
  cases h with
  | @start i key' accountUuid previous hop hreleased hnone =>
    rw [horder.startedOf_follows (Does.start hop hreleased hnone).follows rfl]
    have hlt : i < r.operations.length := (List.getElem?_eq_some_iff.mp hop).1
    rw [List.filter_eq_nil_iff.mpr, List.append_nil]
    intro k hk
    rw [List.mem_singleton] at hk
    subst hk
    dsimp only
    rw [List.getElem?_set_self hlt, decide_eq_true_eq, Option.map_some, Option.some_inj]
    rintro rfl
    apply hrevoked hnone
  | commit hcall =>
    apply hsame
    rw [commitRevocation]
    split <;> rfl
  | rollback hcall =>
    apply hsame
    rw [rollbackRevocation]
    split <;> rfl
  | _ => exact hsame rfl

/-- A revocation that was made final stays. -/
theorem Does.committed (h : Does r e r') (hbarred : Barred r)
    (hcommitted : r.committedRevocations key = true) :
  r'.committedRevocations key = true
  := by
  cases h with
  | @commit j key' accountUuid token hcall =>
    rw [commitRevocation]
    split
    · by_cases hkey : key = key'
      · subst hkey
        apply Function.update_self ..
      · apply (Function.update_of_ne hkey ..).trans hcommitted
    · apply hcommitted
  | @rollback j key' accountUuid token hcall =>
    have hne : key ≠ key' := by
      rintro rfl
      have huncommitted := ((hbarred.calls j _ hcall).own rfl).2.2
      rw [hcommitted] at huncommitted
      cases huncommitted
    rw [rollbackRevocation]
    split
    · apply (Function.update_of_ne hne ..).trans hcommitted
    · apply hcommitted
  | _ => exact hcommitted

/-- A handle that is not finished stays so until it is committed or rolled back. -/
theorem Does.handle (h : Does r e r') (hbarred : Barred r) (hcall : r.calls[j]? = some c)
    (hphase : c.phase = .completed false) (hrollback : ∀ i, e = .rollback i → i ≠ j) :
  r'.calls[j]? = some c ∨ r'.committedRevocations c.key = true
  := by
  have happend : ∀ c', (r.calls ++ [c'])[j]? = some c := by
    intro c'
    rw [List.getElem?_append_left (List.getElem?_eq_some_iff.mp hcall).1, hcall]
  cases h with
  | refuseRevocation _ => exact .inl (happend _)
  | joinCommitted _ _ => exact .inl (happend _)
  | revoke _ => exact .inl (happend _)
  | @complete i key accountUuid token tail finished hwaiting hreleased =>
    left
    dsimp only
    rw [List.getElem?_set_ne, hcall]
    rintro rfl
    rw [hwaiting, Option.some_inj] at hcall
    subst hcall
    cases hphase
  | @commit i key accountUuid token hcommit =>
    obtain ⟨htoken, hrevocation, -⟩ := (hbarred.calls i _ hcommit).own rfl
    dsimp only at htoken hrevocation
    rw [← htoken] at hrevocation
    rw [commitRevocation, if_pos hrevocation]
    by_cases hij : i = j
    · subst hij
      rw [hcommit, Option.some_inj] at hcall
      subst hcall
      exact .inr (Function.update_self ..)
    · left
      dsimp only
      rw [List.getElem?_set_ne hij, hcall]
  | @rollback i key accountUuid token hcall' =>
    left
    have hcalls : ({ r with calls := r.calls.set i ⟨key, accountUuid, token, .completed true⟩
        }.rollbackRevocation key token).calls
          = r.calls.set i ⟨key, accountUuid, token, .completed true⟩ := by
      rw [rollbackRevocation]
      split <;> rfl
    rw [hcalls, List.getElem?_set_ne (hrollback i rfl), hcall]
  | _ => exact .inl hcall

/-- What is shut stays so until the handle is rolled back. -/
theorem Shut.step (h : r.Shut key j) (hsound : r.Sound) (he : e ≠ .rollback j) :
  (r.step e).Shut key j
  := by
  have hdoes : Does r e (r.step e) := does_step
  refine ⟨h.idle.does hdoes (h.revocation hsound), ?_⟩
  rcases h.revoked with hcommitted | ⟨c, hcall, rfl, hphase⟩
  · exact .inl (hdoes.committed hsound.barred hcommitted)
  · have hrollback : ∀ i, e = .rollback i → i ≠ j := by
      rintro i rfl rfl
      apply he rfl
    rcases hdoes.handle hsound.barred hcall hphase hrollback with hcall | hcommitted
    · exact .inr ⟨c, hcall, rfl, hphase⟩
    · exact .inl hcommitted

/-- While the handle is not rolled back, no operation of the key starts. -/
theorem Shut.after {events : List (Event α ε)} (h : r.Shut key j) (hsound : r.Sound)
    (hevents : .rollback j ∉ events) :
  (after Registry.step r events).Shut key j
    ∧ (Run.after Registry.step r events).startedOf key = r.startedOf key
  := by
  induction events generalizing r with
  | nil => exact ⟨h, rfl⟩
  | cons e events ih =>
    rw [List.mem_cons, not_or] at hevents
    obtain ⟨hshut, hstarted⟩ := ih (h.step hsound (Ne.symm hevents.1)) hsound.step hevents.2
    refine ⟨hshut, hstarted.trans ?_⟩
    apply does_step.startedOf hsound.order (h.revocation hsound)

/-- Once the revocation is final, no operation of the key starts. -/
theorem Sound.after_committed {events : List (Event α ε)} (h : r.Sound)
    (hcommitted : r.committedRevocations key = true) :
  (Run.after Registry.step r events).startedOf key = r.startedOf key
  := by
  induction events generalizing r with
  | nil => rfl
  | cons e events ih =>
    have hdoes : Does r e (r.step e) := does_step
    rw [after_cons, ih h.step (hdoes.committed h.barred hcommitted)]
    apply hdoes.startedOf h.order (h.barred.committed key hcommitted).1

/-- A handle that is committed makes the revocation final. -/
theorem Shut.commit (h : r.Shut key j) (hsound : r.Sound) :
  (r.step (.commit j)).committedRevocations key = true
  := by
  have hdoes : Does r (.commit j) (r.step (.commit j)) := does_step
  rcases h.revoked with hcommitted | ⟨c, hcall, rfl, hphase⟩
  · apply hdoes.committed hsound.barred hcommitted
  · obtain ⟨rfl, hrevocation, -⟩ : c.token = j ∧ _ := by
      apply (hsound.barred.calls j c hcall).own
      rw [hphase]
      rfl
    obtain ⟨key, accountUuid, token, phase⟩ := c
    dsimp only at hphase
    subst hphase
    rw [Registry.step, Registry.commit, hcall]
    dsimp only
    rw [commitRevocation, if_pos hrevocation]
    apply Function.update_self ..

/-! ### The barrier -/

/-- Operations of one key do not overlap, and they start in the order of their calls. -/
structure Serial (r : Registry α ε) : Prop where
  alone : ∀ (i j : Nat) (a b : Operation α ε), i ≠ j → r.operations[i]? = some a →
    r.operations[j]? = some b → a.key = b.key → a.phase = .running → b.phase ≠ .running
  inOrder : ∀ key, (r.startedOf key).Pairwise (· < ·)

/-- An operation that returns or throws is over, and an operation whose key has no other one
before it that is not over goes past its wait: it runs, or it is refused for a revocation. -/
structure NotHeld (r : Registry α ε) : Prop where
  finishes : ∀ (i : Nat) (op : Operation α ε) (result : Except ε α),
    r.operations[i]? = some op → op.phase = .running →
      ∃ outcome, (r.step (.finish i result)).operations[i]?
        = some { op with phase := .released outcome }
  resumes : ∀ (i : Nat) (op : Operation α ε) (previous : Option Nat),
    r.operations[i]? = some op → op.phase = .waiting previous →
      OverBelow r.operations op.key i →
        (r.step (.resume i)).operations[i]? = some { op with
          phase := if (r.revocations op.key).isSome then .released (.revoked op.accountUuid)
            else .running }

/-- The wait of the call of `revokeAndWait` for the key ends with the event. -/
def Completes (r : Registry α ε) (e : Event α ε) (j : Nat) (key : String) : Prop :=
  ∃ c tail finished finished', r.calls[j]? = some c ∧ c.key = key
    ∧ c.phase = .waiting tail finished
    ∧ (r.step e).calls[j]? = some { c with phase := .completed finished' }

/-- No operation of the key runs, none starts before the handle of the call is rolled back,
and none at all when the handle was finished or is committed before. -/
structure BarredBy (r : Registry α ε) (key : String) (j : Nat) : Prop where
  quiet : ∀ op ∈ r.operations, op.key = key → op.phase ≠ .running
  untilRollback : ∀ events : List (Event α ε), .rollback j ∉ events →
    (after step r events).startedOf key = r.startedOf key
  committed : ∀ events events' : List (Event α ε), .rollback j ∉ events →
    (after step r (events ++ .commit j :: events')).startedOf key = r.startedOf key
  finished : ∀ c, r.calls[j]? = some c → c.phase = .completed true →
    ∀ events : List (Event α ε), (after step r events).startedOf key = r.startedOf key

theorem Sound.serial (h : r.Sound) :
  r.Serial
  := by
  refine ⟨?_, h.order.sorted⟩
  have hordered : ∀ (i j : Nat) (a b : Operation α ε), i < j → r.operations[i]? = some a →
      r.operations[j]? = some b → a.key = b.key → a.phase = .running → b.phase ≠ .running := by
    intro i j a b hij ha hb hkey hrunning hrunning'
    have hpast : b.phase.Past := by
      rw [hrunning']
      trivial
    have hended := h.order.past j b hb hpast i hij a ha hkey
    rw [hrunning] at hended
    apply hended
  intro i j a b hij ha hb hkey hrunning hrunning'
  rcases Nat.lt_or_gt_of_ne hij with hlt | hgt
  · apply hordered i j a b hlt ha hb hkey hrunning hrunning'
  · apply hordered j i b a hgt hb ha hkey.symm hrunning' hrunning

theorem Sound.notHeld (h : r.Sound) :
  r.NotHeld
  := by
  constructor
  · rintro i ⟨key, accountUuid, phase⟩ result hop hphase
    dsimp only at hphase
    subst hphase
    rw [Registry.step, finish.eq_def, hop]
    dsimp only
    rw [Registry.release]
    dsimp only
    rw [List.getElem?_set_self (List.getElem?_eq_some_iff.mp hop).1]
    exact ⟨_, rfl⟩
  · rintro i ⟨key, accountUuid, phase⟩ previous hop hphase hover
    dsimp only at hphase
    subst hphase
    have hlt := (List.getElem?_eq_some_iff.mp hop).1
    have hreleased : r.isReleased previous = true := by
      cases previous with
      | none => rfl
      | some t =>
        obtain ⟨hti, old, hold, hkey, hqueued⟩ :=
          (h.order.waiting i _ (some t) hop rfl).queued t rfl
        have hended := hover t hti old hold hkey
        rw [isReleased, hold, Option.map_some]
        cases hphase : old.phase with
        | refused _ =>
          rw [hphase] at hqueued
          apply hqueued.elim
        | released outcome => rfl
        | _ =>
          rw [hphase] at hended
          apply hended.elim
    rw [Registry.step, resume, hop]
    dsimp only
    rw [if_pos hreleased]
    split
    · rw [Registry.release]
      dsimp only
      rw [List.getElem?_set_self hlt]
    · dsimp only
      rw [List.getElem?_set_self hlt]

/-- The handle of a call that waits is returned as it was made. -/
theorem Does.waiting (h : Does r e r') {tail : Option Nat} {finished : Bool}
    (hcall : r.calls[j]? = some c) (hphase : c.phase = .waiting tail finished) :
  r'.calls[j]? = some c ∨ r'.calls[j]? = some { c with phase := .completed finished }
  := by
  have happend : ∀ c', (r.calls ++ [c'])[j]? = some c := by
    intro c'
    rw [List.getElem?_append_left (List.getElem?_eq_some_iff.mp hcall).1, hcall]
  have hset : ∀ {i : Nat} {old : Revocation} (new : Revocation), r.calls[i]? = some old →
      old.phase = .completed false → (r.calls.set i new)[j]? = some c := by
    intro i old new hold holdPhase
    rw [List.getElem?_set_ne, hcall]
    rintro rfl
    rw [hcall, Option.some_inj] at hold
    subst hold
    rw [hphase] at holdPhase
    cases holdPhase
  cases h with
  | refuseRevocation _ => exact .inl (happend _)
  | joinCommitted _ _ => exact .inl (happend _)
  | revoke _ => exact .inl (happend _)
  | @complete i key accountUuid token tail' finished' hwaiting hreleased =>
    dsimp only
    by_cases hij : i = j
    · subst hij
      rw [hwaiting, Option.some_inj] at hcall
      subst hcall
      cases hphase
      exact .inr (List.getElem?_set_self (List.getElem?_eq_some_iff.mp hwaiting).1)
    · rw [List.getElem?_set_ne hij, hcall]
      exact .inl rfl
  | commit hcommit =>
    rw [commitRevocation]
    split <;> exact .inl (hset _ hcommit rfl)
  | rollback hrollback =>
    rw [rollbackRevocation]
    split <;> exact .inl (hset _ hrollback rfl)
  | _ => exact .inl hcall

/-- When the wait of a call ends, its key is shut. -/
theorem Sound.shut (h : r.Sound) (hcompletes : r.Completes e j key) :
  (r.step e).Shut key j
  := by
  obtain ⟨c, tail, finished, finished', hcall, rfl, hphase, hcompleted⟩ := hcompletes
  have hdoes : Does r e (r.step e) := does_step
  have hsame : finished' = finished := by
    rcases hdoes.waiting hcall hphase with hkept | hreturned
    · rw [hcompleted, Option.some_inj] at hkept
      rw [← hkept] at hphase
      cases hphase
    · rw [hcompleted, Option.some_inj] at hreturned
      cases hreturned
      rfl
  subst hsame
  cases finished' with
  | false =>
    have hsound := h.step.barred.calls j _ hcompleted
    exact ⟨hsound.idle rfl, .inr ⟨_, hcompleted, rfl, rfl⟩⟩
  | true =>
    have hcommitted := hdoes.committed h.barred ((h.barred.calls j c hcall).joined tail hphase)
    exact ⟨(h.step.barred.committed c.key hcommitted).2, .inl hcommitted⟩

theorem Shut.barredBy (h : r.Shut key j) (hsound : r.Sound) :
  r.BarredBy key j
  := by
  constructor
  · intro op hop hkey hrunning
    obtain ⟨i, hi⟩ := List.mem_iff_getElem?.mp hop
    have hended := h.idle i (List.getElem?_eq_some_iff.mp hi).1 op hi hkey
    rw [hrunning] at hended
    apply hended
  · intro events hevents
    apply (h.after hsound hevents).2
  · intro events events' hevents
    obtain ⟨hshut, hstarted⟩ := h.after hsound hevents
    rw [after_append, after_cons, ← hstarted]
    rw [hsound.after.step.after_committed (hshut.commit hsound.after)]
    apply does_step.startedOf hsound.after.order (hshut.revocation hsound.after)
  · intro c hcall hphase events
    rcases h.revoked with hcommitted | ⟨c', hcall', -, hphase'⟩
    · apply hsound.after_committed hcommitted
    · rw [hcall, Option.some_inj] at hcall'
      subst hcall'
      rw [hphase] at hphase'
      cases hphase'

/-- In every run, operations of one key do not overlap and start in the order of their calls,
a revocation shuts its key when its wait ends, a finished handle changes nothing, and no
operation is held by one that is over. -/
theorem revocation_barrier (events : List (Event α ε)) :
  let r := after step empty events
  r.Serial
    ∧ (∀ e j key, r.Completes e j key → (r.step e).BarredBy key j)
    ∧ (∀ j c, r.calls[j]? = some c → c.phase = .completed true → r.step (.rollback j) = r)
    ∧ r.NotHeld
  := by
  intro r
  have h : r.Sound := sound_empty.after
  refine ⟨h.serial, ?_, ?_, h.notHeld⟩
  · intro e j key hcompletes
    apply (h.shut hcompletes).barredBy h.step
  · rintro j ⟨key, accountUuid, token, phase⟩ hcall hphase
    dsimp only at hphase
    subst hphase
    rw [step, rollback, hcall]

end Registry

end Vizor
