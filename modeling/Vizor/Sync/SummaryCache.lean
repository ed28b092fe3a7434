import Vizor.Lib.Interleave
import Vizor.Store.Rows

/-!
# The cache of wallet summaries

Callers for the same database and network share one load by holding the mutex of its slot.  A
writer holds the write lock and makes the epoch odd while it writes, and even again at every
exit.  A summary is kept when the epoch was even and the same before and after the load, and
is served as long as the epoch has not moved.  An eviction detaches slots that callers may
still hold.
-/

namespace Vizor

open Run Interleave

namespace SummaryCache

/-- What a summary is about. -/
structure CacheKey where
  dbPath : String
  network : WalletNetwork
  deriving DecidableEq, Repr

/-- A loaded summary, with the number of locked writes that had ended when the load began and
that had started when it ended; no code reads the numbers. -/
structure Loaded (α : Type) where
  key : CacheKey
  value : α
  endedBefore : Nat
  startedBefore : Nat

/-- A summary that is kept, with the epoch in which it was published. -/
structure CacheEntry (α : Type) where
  epoch : Nat
  summary : Loaded α

/-- A slot with its mutex.  While the mutex is held, its holder has what is cached. -/
structure EntrySlot (α : Type) where
  key : CacheKey
  locked : Bool
  cached : Option (CacheEntry α)

/-- The state of the process.  Its epoch has 64 bits, which only 2^63 writes would exhaust; here
it has no bound. -/
structure Shared (α : Type) where
  epoch : Nat := 0
  writeLocked : Bool := false
  entryMap : List (CacheKey × Nat) := []
  slots : List (EntrySlot α) := []
  /-- The locked writes that have started, ended and returned; no code reads the numbers. -/
  started : Nat := 0
  ended : Nat := 0
  returned : Nat := 0

/-- A call for a summary. -/
structure Caller where
  key : CacheKey
  slot : Nat
  /-- The locked writes that had returned when the call began; no code reads the number. -/
  returned : Nat

/-- Where a call stands. -/
inductive Point (α : Type) where
  /-- The call begins. -/
  | getOrLoad (key : CacheKey)
  /-- The slot is known, and its mutex is to be locked. -/
  | lockSlot (c : Caller)
  /-- The mutex is held, and what is cached is to be compared with the epoch. -/
  | compareEpoch (c : Caller) (cached : Option (CacheEntry α))
  /-- The epoch was the same, and the file is to be looked for. -/
  | lookForFile (c : Caller) (entry : CacheEntry α)
  /-- The epoch is to be read before the load. -/
  | readEpochBefore (c : Caller)
  /-- The load is to begin. -/
  | load (c : Caller) (epochBefore : Nat)
  | loading (c : Caller) (epochBefore endedBefore : Nat)
  /-- The epoch is to be read after the load. -/
  | readEpochAfter (c : Caller) (epochBefore : Nat) (summary : Loaded α)
  /-- The result is to be kept or dropped, and the mutex released. -/
  | publish (c : Caller) (epochBefore epochAfter : Nat) (summary : Loaded α)
  /-- The call has returned a summary. -/
  | served (c : Caller) (fromCache : Bool) (summary : Loaded α)
  /-- The call has failed, or its loader has panicked. -/
  | failed
  /-- The slots of a database are to be evicted. -/
  | evictDb (dbPath : String)
  /-- A writer waits for the write lock. -/
  | lockWrite
  /-- The lock is held, and the epoch is to be made odd. -/
  | enter
  /-- The write is to start. -/
  | startWrite
  /-- The write runs, and returns or panics. -/
  | writing
  /-- The epoch is to be made even. -/
  | leave
  /-- The lock is to be released. -/
  | unlockWrite
  | done

/-- What a loader comes to. -/
inductive LoadOutcome (α : Type) where
  | ok (value : α)
  | error (e : String)
  | panic

/-- What a step gets from outside. -/
structure Answer (α : Type) where
  outcome : LoadOutcome α
  fileExists : Bool

/-- The calls. -/
inductive Call where
  | getOrLoad (key : CacheKey)
  | write
  | evictDb (dbPath : String)

namespace Shared

variable {α : Type}

/-- The slot of a key, which is new if there is none. -/
def slotFor (s : Shared α) (key : CacheKey) : Shared α × Nat :=
  match s.entryMap.find? fun row => row.1 = key with
  | some row => (s, row.2)
  | none =>
    ({ s with
      entryMap := (key, s.slots.length) :: s.entryMap
      slots := s.slots ++ [⟨key, false, none⟩] }, s.slots.length)

/-- Drop the slots of a database from the map. -/
def evictDb (s : Shared α) (dbPath : String) : Shared α :=
  { s with entryMap := s.entryMap.filter fun row => row.1.dbPath ≠ dbPath }

/-- Release the mutex of a slot, with what is to be cached. -/
def unlock (s : Shared α) (slot : Nat) (cached : Option (CacheEntry α)) : Shared α :=
  { s with slots := s.slots.modify slot fun entry =>
      { entry with locked := false, cached := cached } }

/-- Lock the mutex of a slot, if it is free. -/
def lock (s : Shared α) (slot : Nat) : Option (Shared α × Option (CacheEntry α)) :=
  match s.slots[slot]? with
  | none => none
  | some entry =>
    if entry.locked then none
    else some ({ s with slots := s.slots.modify slot fun entry =>
      { entry with locked := true, cached := none } }, entry.cached)

/-- The next step of a call. -/
def advance (a : Answer α) (s : Shared α) : Point α → Shared α × Point α
  | .getOrLoad key =>
    let (s', slot) := s.slotFor key
    (s', .lockSlot ⟨key, slot, s.returned⟩)
  | .lockSlot c =>
    match s.lock c.slot with
    | none => (s, .lockSlot c)
    | some (s', cached) => (s', .compareEpoch c cached)
  | .compareEpoch c none => (s, .readEpochBefore c)
  | .compareEpoch c (some entry) =>
    if s.epoch = entry.epoch ∧ s.epoch % 2 = 0 then (s, .lookForFile c entry)
    else (s, .readEpochBefore c)
  | .lookForFile c entry =>
    if a.fileExists then (s.unlock c.slot (some entry), .served c true entry.summary)
    else (s, .readEpochBefore c)
  | .readEpochBefore c => (s, .load c s.epoch)
  | .load c epochBefore => (s, .loading c epochBefore s.ended)
  | .loading c epochBefore endedBefore =>
    match a.outcome with
    | .ok value => (s, .readEpochAfter c epochBefore ⟨c.key, value, endedBefore, s.started⟩)
    | .error _ => (s.unlock c.slot none, .failed)
    | .panic => (s.unlock c.slot none, .failed)
  | .readEpochAfter c epochBefore summary => (s, .publish c epochBefore s.epoch summary)
  | .publish c epochBefore epochAfter summary =>
    let cached := if epochBefore = epochAfter ∧ epochBefore % 2 = 0 then
      some ⟨epochBefore, summary⟩ else none
    (s.unlock c.slot cached, .served c false summary)
  | .evictDb dbPath => (s.evictDb dbPath, .done)
  | .lockWrite =>
    if s.writeLocked then (s, .lockWrite) else ({ s with writeLocked := true }, .enter)
  | .enter => ({ s with epoch := s.epoch + 1 }, .startWrite)
  | .startWrite => ({ s with started := s.started + 1 }, .writing)
  | .writing => ({ s with ended := s.ended + 1 }, .leave)
  | .leave => ({ s with epoch := s.epoch + 1 }, .unlockWrite)
  | .unlockWrite => ({ s with writeLocked := false, returned := s.returned + 1 }, .done)
  | .served c fromCache summary => (s, .served c fromCache summary)
  | .failed => (s, .failed)
  | .done => (s, .done)

end Shared

variable {α : Type}

/-- Where a call begins. -/
def Call.start : Call → Point α
  | .getOrLoad key => .getOrLoad key
  | .write => .lockWrite
  | .evictDb dbPath => .evictDb dbPath

/-- The calls of a process, in any order of their steps. -/
def calls : Program (Shared α) (Point α) Call (Answer α) where
  start := Call.start
  advance := Shared.advance
  crash _ := {}

/-! ### What a call relies on -/

/-- The epoch and the numbers of writes do not go back, and slots keep their keys. -/
structure Grows (s s' : Shared α) : Prop where
  epoch : s.epoch ≤ s'.epoch
  returned : s.returned ≤ s'.returned
  slots : ∀ (i : Nat) key, (s.slots[i]?).map EntrySlot.key = some key →
    (s'.slots[i]?).map EntrySlot.key = some key

/-- A summary for a key that was loaded while the epoch was `epoch`, and nobody wrote. -/
structure LoadedIn (epoch : Nat) (key : CacheKey) (summary : Loaded α) : Prop where
  key : summary.key = key
  ended : summary.endedBefore = epoch / 2
  started : summary.startedBefore = epoch / 2

/-- An entry was loaded in its epoch. -/
structure CacheEntry.Valid (s : Shared α) (key : CacheKey) (entry : CacheEntry α) : Prop where
  epoch_le : entry.epoch ≤ s.epoch
  even : entry.epoch % 2 = 0
  loaded : LoadedIn entry.epoch key entry.summary

/-- What holds of the state of the process. -/
structure Sound (s : Shared α) : Prop where
  map : ∀ row ∈ s.entryMap, (s.slots[row.2]?).map EntrySlot.key = some row.1
  entries : ∀ slot ∈ s.slots, ∀ entry, slot.cached = some entry → entry.Valid s slot.key
  even : s.epoch % 2 = 0 → s.ended = s.epoch / 2 ∧ s.started = s.epoch / 2
  returned : s.returned ≤ s.ended
  free : s.writeLocked = false → s.epoch = 2 * s.ended

/-- The call has the slot of its key, and began when it did. -/
structure Caller.Valid (s : Shared α) (c : Caller) : Prop where
  slot : (s.slots[c.slot]?).map EntrySlot.key = some c.key
  returned : c.returned ≤ s.returned

/-- What a call relies on at its point. -/
def Relies (s : Shared α) : Point α → Prop
  | .lockSlot c | .readEpochBefore c => c.Valid s
  | .compareEpoch c cached => c.Valid s ∧ ∀ entry, cached = some entry → entry.Valid s c.key
  | .lookForFile c entry =>
    c.Valid s ∧ entry.Valid s c.key ∧ c.returned ≤ entry.summary.endedBefore
  | .load c epochBefore => c.Valid s ∧ epochBefore ≤ s.epoch
  | .loading c epochBefore endedBefore =>
    c.Valid s ∧ epochBefore ≤ s.epoch ∧ c.returned ≤ endedBefore
      ∧ (s.epoch = epochBefore → epochBefore % 2 = 0 → endedBefore = epochBefore / 2)
  | .readEpochAfter c epochBefore summary =>
    c.Valid s ∧ epochBefore ≤ s.epoch ∧ summary.key = c.key ∧ c.returned ≤ summary.endedBefore
      ∧ (s.epoch = epochBefore → epochBefore % 2 = 0 → LoadedIn epochBefore c.key summary)
  | .publish c epochBefore epochAfter summary =>
    c.Valid s ∧ epochBefore ≤ s.epoch ∧ summary.key = c.key ∧ c.returned ≤ summary.endedBefore
      ∧ (epochBefore = epochAfter → epochBefore % 2 = 0 → LoadedIn epochBefore c.key summary)
  | .served c fromCache summary =>
    summary.key = c.key ∧ c.returned ≤ summary.endedBefore
      ∧ (fromCache = true → summary.startedBefore = summary.endedBefore)
  | .enter => s.writeLocked = true ∧ s.epoch = 2 * s.ended ∧ s.started = s.ended
  | .startWrite => s.writeLocked = true ∧ s.epoch = 2 * s.ended + 1 ∧ s.started = s.ended
  | .writing => s.writeLocked = true ∧ s.epoch = 2 * s.ended + 1 ∧ s.started = s.ended + 1
  | .leave =>
    s.writeLocked = true ∧ s.epoch + 1 = 2 * s.ended ∧ s.started = s.ended
      ∧ s.returned < s.ended
  | .unlockWrite =>
    s.writeLocked = true ∧ s.epoch = 2 * s.ended ∧ s.started = s.ended ∧ s.returned < s.ended
  | .getOrLoad _ | .failed | .evictDb _ | .lockWrite | .done => True

/-- The writer has the lock. -/
def Point.InWrite : Point α → Prop
  | .enter | .startWrite | .writing | .leave | .unlockWrite => True
  | _ => False

/-- Only one writer has the lock. -/
def Point.Excludes (p q : Point α) : Prop :=
  ¬(p.InWrite ∧ q.InWrite)

/-! ### What a step does -/

variable {s s' : Shared α} {c : Caller} {entry : CacheEntry α} {p q : Point α} {a : Answer α}
  {key : CacheKey} {slot : Nat} {cached : Option (CacheEntry α)}

theorem Grows.refl :
  Grows s s
  := ⟨Nat.le_refl _, Nat.le_refl _, fun _ _ h => h⟩

theorem CacheEntry.Valid.grows (h : entry.Valid s key) (hgrows : s.epoch ≤ s'.epoch) :
  entry.Valid s' key
  := ⟨Nat.le_trans h.epoch_le hgrows, h.even, h.loaded⟩

theorem Caller.Valid.grows (h : c.Valid s) (hgrows : Grows s s') :
  c.Valid s'
  := ⟨hgrows.slots _ _ h.slot, Nat.le_trans h.returned hgrows.returned⟩

/-- A change of a slot keeps the keys. -/
theorem key_modify {slots : List (EntrySlot α)} {f : EntrySlot α → EntrySlot α}
    (hf : ∀ entry, (f entry).key = entry.key) (i : Nat) :
  ((slots.modify slot f)[i]?).map EntrySlot.key = (slots[i]?).map EntrySlot.key
  := by
  rw [List.getElem?_modify]
  cases slots[i]? with
  | none => rfl
  | some entry =>
    by_cases hi : slot = i
    · simp [hi, hf]
    · simp [hi]

theorem grows_modify {f : EntrySlot α → EntrySlot α} (hf : ∀ entry, (f entry).key = entry.key) :
  Grows s { s with slots := s.slots.modify slot f }
  := ⟨Nat.le_refl _, Nat.le_refl _, fun i _ h => (key_modify hf i).trans h⟩

theorem grows_slotFor :
  Grows s (s.slotFor key).1
  := by
  unfold Shared.slotFor
  split
  · exact .refl
  · refine ⟨Nat.le_refl _, Nat.le_refl _, ?_⟩
    intro i key h
    cases hi : s.slots[i]? with
    | none =>
      rw [hi] at h
      cases h
    | some entry =>
      have hlt : i < s.slots.length := (List.getElem?_eq_some_iff.mp hi).1
      rw [List.getElem?_append_left hlt]
      apply h

/-- A slot is locked when its mutex is free. -/
theorem lock_eq_some {slot : Nat} (h : s.lock slot = some (s', cached)) :
  ∃ entry, s.slots[slot]? = some entry ∧ entry.cached = cached
    ∧ s' = { s with slots := s.slots.modify slot fun entry =>
      { entry with locked := true, cached := none } }
  := by
  unfold Shared.lock at h
  split at h
  · cases h
  · rename_i entry hentry
    split at h
    · cases h
    · cases h
      exact ⟨entry, hentry, rfl, rfl⟩

/-- Nothing goes back in a step. -/
theorem grows_advance :
  Grows s (s.advance a p).1
  := by
  cases p with
  | getOrLoad key => exact grows_slotFor
  | lockSlot c =>
    rw [Shared.advance]
    split
    · exact .refl
    · rename_i s' cached hlock
      obtain ⟨entry, -, -, rfl⟩ := lock_eq_some hlock
      exact grows_modify fun _ => rfl
  | compareEpoch c cached =>
    cases cached with
    | none => exact .refl
    | some entry =>
      rw [Shared.advance]
      split <;> exact .refl
  | lookForFile c entry =>
    rw [Shared.advance]
    split
    · exact grows_modify fun _ => rfl
    · exact .refl
  | loading c epochBefore endedBefore =>
    rw [Shared.advance]
    split
    · exact .refl
    · exact grows_modify fun _ => rfl
    · exact grows_modify fun _ => rfl
  | publish c epochBefore epochAfter summary => exact grows_modify fun _ => rfl
  | evictDb dbPath => exact ⟨Nat.le_refl _, Nat.le_refl _, fun _ _ h => h⟩
  | lockWrite =>
    rw [Shared.advance]
    split
    · exact .refl
    · exact ⟨Nat.le_refl _, Nat.le_refl _, fun _ _ h => h⟩
  | enter => exact ⟨Nat.le_succ _, Nat.le_refl _, fun _ _ h => h⟩
  | leave => exact ⟨Nat.le_succ _, Nat.le_refl _, fun _ _ h => h⟩
  | startWrite => exact ⟨Nat.le_refl _, Nat.le_refl _, fun _ _ h => h⟩
  | writing => exact ⟨Nat.le_refl _, Nat.le_refl _, fun _ _ h => h⟩
  | unlockWrite => exact ⟨Nat.le_refl _, Nat.le_succ _, fun _ _ h => h⟩
  | _ => exact .refl

/-- The write lock, the epoch and the numbers of writes are the same. -/
structure SameWrites (s s' : Shared α) : Prop where
  epoch : s'.epoch = s.epoch
  writeLocked : s'.writeLocked = s.writeLocked
  started : s'.started = s.started
  ended : s'.ended = s.ended
  returned : s'.returned = s.returned

theorem SameWrites.refl :
  SameWrites s s
  := ⟨rfl, rfl, rfl, rfl, rfl⟩

theorem sameWrites_modify {f : EntrySlot α → EntrySlot α} :
  SameWrites s { s with slots := s.slots.modify slot f }
  := ⟨rfl, rfl, rfl, rfl, rfl⟩

theorem sameWrites_slotFor :
  SameWrites s (s.slotFor key).1
  := by
  unfold Shared.slotFor
  split <;> exact ⟨rfl, rfl, rfl, rfl, rfl⟩

/-- A call that does not have the write lock, and does not take it, changes nothing of it. -/
theorem sameWrites_advance (hp : ¬p.InWrite) (hlocked : p = .lockWrite → s.writeLocked = true) :
  SameWrites s (s.advance a p).1
  := by
  cases p with
  | getOrLoad key => exact sameWrites_slotFor
  | lockSlot c =>
    rw [Shared.advance]
    split
    · exact .refl
    · rename_i s' cached hlock
      obtain ⟨entry, -, -, rfl⟩ := lock_eq_some hlock
      apply sameWrites_modify
  | compareEpoch c cached =>
    cases cached with
    | none => exact .refl
    | some entry =>
      rw [Shared.advance]
      split <;> exact .refl
  | lookForFile c entry =>
    rw [Shared.advance]
    split
    · apply sameWrites_modify
    · exact .refl
  | loading c epochBefore endedBefore =>
    rw [Shared.advance]
    split
    · exact .refl
    · apply sameWrites_modify
    · apply sameWrites_modify
  | publish c epochBefore epochAfter summary => exact sameWrites_modify
  | evictDb dbPath => exact ⟨rfl, rfl, rfl, rfl, rfl⟩
  | lockWrite =>
    rw [Shared.advance, if_pos (hlocked rfl)]
    exact .refl
  | enter | startWrite | writing | leave | unlockWrite => exact absurd trivial hp
  | _ => exact .refl

/-! ### The state of the process -/

/-- A change that moves no counter of writes, and no slot from its key. -/
theorem Sound.of_sameWrites (h : Sound s) (hwrites : SameWrites s s')
    (hmap : ∀ row ∈ s'.entryMap, (s'.slots[row.2]?).map EntrySlot.key = some row.1)
    (hentries : ∀ slot ∈ s'.slots, ∀ entry, slot.cached = some entry → entry.Valid s slot.key) :
  Sound s'
  := by
  obtain ⟨hepoch, hlocked, hstarted, hended, hreturned⟩ := hwrites
  constructor
  · apply hmap
  · intro slot hslot entry hentry
    apply (hentries slot hslot entry hentry).grows (Nat.le_of_eq hepoch.symm)
  · rw [hepoch, hended, hstarted]
    apply h.even
  · rw [hreturned, hended]
    apply h.returned
  · rw [hlocked, hepoch, hended]
    apply h.free

/-- A slot gets or loses what is cached. -/
theorem Sound.modify {f : EntrySlot α → EntrySlot α} (h : Sound s)
    (hf : ∀ entry, (f entry).key = entry.key)
    (hcached : ∀ old, s.slots[slot]? = some old → ∀ entry, (f old).cached = some entry →
      entry.Valid s old.key) :
  Sound { s with slots := s.slots.modify slot f }
  := by
  apply h.of_sameWrites sameWrites_modify
  · intro row hrow
    apply (key_modify hf row.2).trans (h.map row hrow)
  · intro other hother entry hentry
    obtain ⟨i, hi⟩ := List.mem_iff_getElem?.mp hother
    rw [List.getElem?_modify] at hi
    cases hold : s.slots[i]? with
    | none =>
      rw [hold] at hi
      cases hi
    | some old =>
      rw [hold] at hi
      by_cases hslot : slot = i
      · subst hslot
        obtain rfl : f old = other := by simpa using hi
        rw [hf]
        apply hcached old hold entry hentry
      · obtain rfl : old = other := by simpa [hslot] using hi
        apply h.entries old (List.mem_of_getElem? hold) entry hentry

theorem Sound.unlock (h : Sound s)
    (hkey : (s.slots[slot]?).map EntrySlot.key = some key)
    (hcached : ∀ entry, cached = some entry → entry.Valid s key) :
  Sound (s.unlock slot cached)
  := by
  apply h.modify
  · intro entry
    rfl
  · intro old hold entry hentry
    rw [hold] at hkey
    obtain rfl : old.key = key := by simpa using hkey
    apply hcached entry hentry

theorem Sound.slotFor (h : Sound s) :
  Sound (s.slotFor key).1
    ∧ ((s.slotFor key).1.slots[(s.slotFor key).2]?).map EntrySlot.key = some key
  := by
  have hgrows : Grows s (s.slotFor key).1 := grows_slotFor
  have hwrites : SameWrites s (s.slotFor key).1 := sameWrites_slotFor
  unfold Shared.slotFor at hgrows hwrites ⊢
  split
  · rename_i row hrow
    have hkey := List.find?_some hrow
    rw [decide_eq_true_eq] at hkey
    refine ⟨h, ?_⟩
    rw [← hkey]
    apply h.map row (List.mem_of_find?_eq_some hrow)
  · rename_i hnone
    rw [hnone] at hgrows hwrites
    have hnew : ((s.slots ++ [⟨key, false, none⟩])[s.slots.length]?).map EntrySlot.key
        = some key := by simp
    refine ⟨?_, hnew⟩
    apply h.of_sameWrites hwrites
    · intro row hrow
      rcases List.mem_cons.mp hrow with rfl | hrow
      · apply hnew
      · apply hgrows.slots _ _ (h.map row hrow)
    · intro slot hslot entry hentry
      rcases List.mem_append.mp hslot with hslot | hslot
      · apply h.entries slot hslot entry hentry
      · obtain rfl := List.mem_singleton.mp hslot
        cases hentry

/-- Evicted slots stay where they are. -/
theorem Sound.evictDb {dbPath : String} (h : Sound s) :
  Sound (s.evictDb dbPath)
  := by
  have hwrites : SameWrites s (s.evictDb dbPath) := ⟨rfl, rfl, rfl, rfl, rfl⟩
  apply h.of_sameWrites hwrites
  · intro row hrow
    apply h.map row (List.mem_filter.mp hrow).1
  · apply h.entries

/-- Entries do not look at the write lock or at the numbers of writes. -/
theorem Sound.of_write (h : Sound s) (hepoch : s.epoch ≤ s'.epoch)
    (hmap : s'.entryMap = s.entryMap) (hslots : s'.slots = s.slots)
    (heven : s'.epoch % 2 = 0 → s'.ended = s'.epoch / 2 ∧ s'.started = s'.epoch / 2)
    (hreturned : s'.returned ≤ s'.ended)
    (hfree : s'.writeLocked = false → s'.epoch = 2 * s'.ended) :
  Sound s'
  where
  map := by
    rw [hmap, hslots]
    apply h.map
  entries := by
    rw [hslots]
    intro slot hslot entry hentry
    apply (h.entries slot hslot entry hentry).grows hepoch
  even := heven
  returned := hreturned
  free := hfree

/-- A writer's step keeps the state of the process well, and leads where the next step may
rely on it. -/
theorem advance_write (h : Sound s) (hp : Relies s p) (hwrite : p = .lockWrite ∨ p.InWrite) :
  Sound (s.advance a p).1 ∧ Relies (s.advance a p).1 (s.advance a p).2
  := by
  have hreturned := h.returned
  cases p with
  | lockWrite =>
    rw [Shared.advance]
    split
    · exact ⟨h, trivial⟩
    · rename_i hfree
      rw [Bool.not_eq_true] at hfree
      have hepoch := h.free hfree
      have heven := h.even (by omega)
      refine ⟨h.of_write (Nat.le_refl _) rfl rfl h.even hreturned nofun, rfl, hepoch, ?_⟩
      dsimp only
      omega
  | enter =>
    obtain ⟨hlocked, hepoch, hstarted⟩ := hp
    refine ⟨h.of_write (Nat.le_succ _) rfl rfl ?_ hreturned ?_, hlocked, ?_, hstarted⟩
    · dsimp only [Shared.advance]
      omega
    · intro hfree
      rw [Shared.advance, hlocked] at hfree
      cases hfree
    · dsimp only [Shared.advance]
      omega
  | startWrite =>
    obtain ⟨hlocked, hepoch, hstarted⟩ := hp
    refine ⟨h.of_write (Nat.le_refl _) rfl rfl ?_ hreturned h.free, hlocked, hepoch, ?_⟩
    · dsimp only [Shared.advance]
      omega
    · dsimp only [Shared.advance]
      omega
  | writing =>
    obtain ⟨hlocked, hepoch, hstarted⟩ := hp
    refine ⟨h.of_write (Nat.le_refl _) rfl rfl ?_ ?_ ?_, hlocked, ?_, ?_, ?_⟩
    all_goals dsimp only [Shared.advance]
    · omega
    · omega
    · rw [hlocked]
      nofun
    · omega
    · omega
    · omega
  | leave =>
    obtain ⟨hlocked, hepoch, hstarted, hlt⟩ := hp
    refine ⟨h.of_write (Nat.le_succ _) rfl rfl ?_ hreturned ?_, hlocked, ?_, hstarted, hlt⟩
    all_goals dsimp only [Shared.advance]
    · omega
    · rw [hlocked]
      nofun
    · omega
  | unlockWrite =>
    obtain ⟨hlocked, hepoch, hstarted, hlt⟩ := hp
    exact ⟨h.of_write (Nat.le_refl _) rfl rfl h.even hlt fun _ => hepoch, trivial⟩
  | _ => exact absurd hwrite (by simp [Point.InWrite])

/-- A step of a call for a summary, or of an eviction. -/
theorem advance_read (h : Sound s) (hp : Relies s p) (hread : p ≠ .lockWrite ∧ ¬p.InWrite) :
  Sound (s.advance a p).1 ∧ Relies (s.advance a p).1 (s.advance a p).2
  := by
  have hreturned := h.returned
  cases p with
  | getOrLoad key =>
    obtain ⟨hsound, hslot⟩ := @Sound.slotFor _ s key h
    have hwrites : SameWrites s (s.slotFor key).1 := sameWrites_slotFor
    exact ⟨hsound, hslot, Nat.le_of_eq hwrites.returned.symm⟩
  | lockSlot c =>
    rw [Shared.advance]
    split
    · exact ⟨h, hp⟩
    · rename_i s' cached hlock
      obtain ⟨old, hold, hcached, rfl⟩ := lock_eq_some hlock
      refine ⟨h.modify (fun _ => rfl) (fun _ _ => nofun), hp.grows (grows_modify fun _ => rfl), ?_⟩
      intro entry hentry
      have hkey := hp.slot
      rw [hold] at hkey
      have hsame : old.key = c.key := by simpa using hkey
      rw [← hsame]
      exact (h.entries old (List.mem_of_getElem? hold) entry (hcached.trans hentry)).grows
        (Nat.le_refl _)
  | compareEpoch c cached =>
    obtain ⟨hc, hcached⟩ := hp
    cases cached with
    | none => exact ⟨h, hc⟩
    | some entry =>
      have hentry := hcached entry rfl
      rw [Shared.advance]
      split
      · rename_i hsame
        refine ⟨h, hc, hentry, ?_⟩
        have hended := (h.even hsame.2).1
        have hcalled := hc.returned
        rw [hentry.loaded.ended, ← hsame.1, ← hended]
        omega
      · exact ⟨h, hc⟩
  | lookForFile c entry =>
    obtain ⟨hc, hentry, hcalled⟩ := hp
    rw [Shared.advance]
    split
    · refine ⟨h.unlock hc.slot ?_, hentry.loaded.key, hcalled, ?_⟩
      · intro other hother
        cases hother
        apply hentry
      · intro _
        rw [hentry.loaded.started, hentry.loaded.ended]
    · exact ⟨h, hc⟩
  | readEpochBefore c => exact ⟨h, hp, Nat.le_refl _⟩
  | load c epochBefore =>
    obtain ⟨hc, hepoch⟩ := hp
    have hcalled := hc.returned
    refine ⟨h, hc, hepoch, ?_, ?_⟩
    · apply Nat.le_trans hcalled hreturned
    · intro hsame heven
      rw [← hsame] at heven ⊢
      apply (h.even heven).1
  | loading c epochBefore endedBefore =>
    obtain ⟨hc, hepoch, hcalled, hended⟩ := hp
    rw [Shared.advance]
    split
    · refine ⟨h, hc, hepoch, rfl, hcalled, ?_⟩
      intro hsame heven
      refine ⟨rfl, hended hsame heven, ?_⟩
      rw [← hsame] at heven ⊢
      apply (h.even heven).2
    · exact ⟨h.unlock hc.slot nofun, trivial⟩
    · exact ⟨h.unlock hc.slot nofun, trivial⟩
  | readEpochAfter c epochBefore summary =>
    obtain ⟨hc, hepoch, hkey, hcalled, hloaded⟩ := hp
    refine ⟨h, hc, hepoch, hkey, hcalled, ?_⟩
    intro hsame heven
    apply hloaded hsame.symm heven
  | publish c epochBefore epochAfter summary =>
    obtain ⟨hc, hepoch, hkey, hcalled, hloaded⟩ := hp
    refine ⟨h.unlock hc.slot ?_, hkey, hcalled, nofun⟩
    intro entry hentry
    split at hentry
    · rename_i hsame
      cases hentry
      exact ⟨hepoch, hsame.2, hloaded hsame.1 hsame.2⟩
    · cases hentry
  | served c fromCache summary => exact ⟨h, hp⟩
  | failed => exact ⟨h, trivial⟩
  | evictDb dbPath => exact ⟨h.evictDb, trivial⟩
  | done => exact ⟨h, trivial⟩
  | lockWrite => exact absurd rfl hread.1
  | _ => exact absurd trivial hread.2

/-- A step keeps the state of the process well. -/
theorem advance_sound (h : Sound s) (hp : Relies s p) :
  Sound (s.advance a p).1 ∧ Relies (s.advance a p).1 (s.advance a p).2
  := by
  by_cases hwrite : p = .lockWrite ∨ p.InWrite
  · apply advance_write h hp hwrite
  · rw [not_or] at hwrite
    apply advance_read h hp hwrite

/-! ### Other calls -/

/-- What a call that does not have the write lock relies on outlasts the steps of others. -/
theorem Relies.grows (h : Relies s q) (hq : ¬q.InWrite) (hgrows : Grows s s') :
  Relies s' q
  := by
  have hback : ∀ epoch, epoch ≤ s.epoch → s'.epoch = epoch → s.epoch = epoch := by
    intro epoch hle hsame
    have hepoch := hgrows.epoch
    omega
  cases q with
  | lockSlot c => exact Caller.Valid.grows h hgrows
  | readEpochBefore c => exact Caller.Valid.grows h hgrows
  | compareEpoch c cached =>
    refine ⟨h.1.grows hgrows, ?_⟩
    intro entry hentry
    apply (h.2 entry hentry).grows hgrows.epoch
  | lookForFile c entry => exact ⟨h.1.grows hgrows, h.2.1.grows hgrows.epoch, h.2.2⟩
  | load c epochBefore => exact ⟨h.1.grows hgrows, Nat.le_trans h.2 hgrows.epoch⟩
  | loading c epochBefore endedBefore =>
    obtain ⟨hc, hepoch, hcalled, hended⟩ := h
    refine ⟨hc.grows hgrows, Nat.le_trans hepoch hgrows.epoch, hcalled, ?_⟩
    intro hsame
    apply hended (hback epochBefore hepoch hsame)
  | readEpochAfter c epochBefore summary =>
    obtain ⟨hc, hepoch, hkey, hcalled, hloaded⟩ := h
    refine ⟨hc.grows hgrows, Nat.le_trans hepoch hgrows.epoch, hkey, hcalled, ?_⟩
    intro hsame
    apply hloaded (hback epochBefore hepoch hsame)
  | publish c epochBefore epochAfter summary =>
    exact ⟨h.1.grows hgrows, Nat.le_trans h.2.1 hgrows.epoch, h.2.2⟩
  | served c fromCache summary => exact h
  | enter | startWrite | writing | leave | unlockWrite => exact absurd trivial hq
  | _ => trivial

/-- What a writer relies on outlasts the steps of calls that leave the write lock alone. -/
theorem Relies.sameWrites (h : Relies s q) (hq : q.InWrite) (hwrites : SameWrites s s') :
  Relies s' q
  := by
  obtain ⟨hepoch, hlocked, hstarted, hended, hreturned⟩ := hwrites
  cases q with
  | enter | startWrite | writing | leave | unlockWrite =>
    rw [Relies] at h ⊢
    rw [hlocked, hepoch, hstarted, hended]
    first
      | exact h
      | rw [hreturned]; exact h
  | _ => exact absurd hq id

/-- A writer that has the lock finds it taken. -/
theorem Relies.writeLocked (h : Relies s q) (hq : q.InWrite) :
  s.writeLocked = true
  := by
  cases q with
  | enter | startWrite | writing | leave | unlockWrite => exact h.1
  | _ => exact absurd hq id

/-- A call gets the write lock by taking it. -/
theorem inWrite_advance (h : (s.advance a p).2.InWrite) :
  p.InWrite ∨ p = .lockWrite ∧ s.writeLocked = false
  := by
  cases p with
  | enter | startWrite | writing | leave | unlockWrite => exact .inl trivial
  | lockWrite =>
    rw [Shared.advance] at h
    split at h
    · exact absurd h id
    · rename_i hfree
      exact .inr ⟨rfl, by simpa using hfree⟩
  | lockSlot c =>
    rw [Shared.advance] at h
    split at h <;> exact absurd h id
  | compareEpoch c cached =>
    cases cached with
    | none => exact absurd h id
    | some entry =>
      rw [Shared.advance] at h
      split at h <;> exact absurd h id
  | lookForFile c entry =>
    rw [Shared.advance] at h
    split at h <;> exact absurd h id
  | loading c epochBefore endedBefore =>
    rw [Shared.advance] at h
    split at h <;> exact absurd h id
  | _ => exact absurd h id

/-- A step of a call does not disturb the others, and takes no lock that another one has. -/
theorem advance_stable (hq : Relies s q) (hpq : p.Excludes q) :
  Relies (s.advance a p).1 q ∧ (s.advance a p).2.Excludes q
  := by
  by_cases hwrite : q.InWrite
  · have hlocked := hq.writeLocked hwrite
    have hp : ¬p.InWrite := fun hin => hpq ⟨hin, hwrite⟩
    refine ⟨hq.sameWrites hwrite (sameWrites_advance hp fun _ => hlocked), ?_⟩
    rintro ⟨hin, -⟩
    rcases inWrite_advance hin with hin | ⟨-, hfree⟩
    · apply hp hin
    · rw [hlocked] at hfree
      cases hfree
  · exact ⟨hq.grows hwrite grows_advance, fun hin => hwrite hin.2⟩

theorem sound_empty :
  Sound ({} : Shared α)
  := by
  constructor
  · nofun
  · nofun
  · intro _
    exact ⟨(Nat.zero_div 2).symm, (Nat.zero_div 2).symm⟩
  · apply Nat.le_refl _
  · intro _
    rfl

theorem calls_preserve :
  PreservesApart (calls : Program (Shared α) (Point α) Call (Answer α)) (fun _ _ => True) Sound
    Relies Point.Excludes
  where
  symm := fun p q hpq hin => hpq ⟨hin.2, hin.1⟩
  start := by
    intro world k _ _
    cases k <;> exact ⟨trivial, fun q _ hin => hin.1⟩
  advance := by
    intro world i a p h _ hp
    apply advance_sound h.1 (h.at hp)
  stable := by
    intro world i a p q h _ _ hq hpq
    apply advance_stable (h.2 q hq) hpq
  crash := fun _ _ => sound_empty

/-- Whatever calls are made and in whatever order they take their steps: a summary that a call
returns is for its database and network, and its load began when at least those writes had
ended that had returned when the call began.  One that comes from the cache was loaded while
nobody wrote: the writes that had started when the load ended had ended when it began. -/
theorem summary_fresh (moves : List (Move Call (Answer α))) (c : Caller) (fromCache : Bool)
    (summary : Loaded α)
    (h : .served c fromCache summary ∈ (after calls.step (World.idle {}) moves).calls) :
  summary.key = c.key ∧ c.returned ≤ summary.endedBefore
    ∧ (fromCache = true → summary.startedBefore = summary.endedBefore)
  := by
  have hholds := (calls_preserve.after ⟨holds_idle sound_empty, apart_idle⟩
    (along_of_forall fun _ _ _ => trivial) :
    Holds Sound Relies (after calls.step (World.idle ({} : Shared α)) moves) ∧ _).1
  apply hholds.2 _ h

/-! ### A write and two calls -/

/-- A loader that returns, and a file that is there. -/
def sampleAnswer : Answer Nat :=
  ⟨.ok 5, true⟩

/-- A write, a call that loads a summary, and a call that is served from the cache. -/
def sampleMoves : List (Move Call (Answer Nat)) :=
  .call .write :: List.replicate 6 (.advance 0 sampleAnswer)
    ++ .call (.getOrLoad ⟨"wallet.db", .main⟩) :: List.replicate 8 (.advance 1 sampleAnswer)
    ++ .call (.getOrLoad ⟨"wallet.db", .main⟩) :: List.replicate 4 (.advance 2 sampleAnswer)

/-- The caller that is served, which began after one write had returned. -/
def sampleCaller : Caller :=
  ⟨⟨"wallet.db", .main⟩, 0, 1⟩

/-- The summary that was loaded after the write. -/
def sampleLoaded : Loaded Nat :=
  ⟨⟨"wallet.db", .main⟩, 5, 1, 1⟩

/-- The second call is served what the first one loaded after the write. -/
theorem summary_fresh_sample :
  .served sampleCaller true sampleLoaded ∈ (after calls.step (World.idle {}) sampleMoves).calls
    ∧ sampleLoaded.key = sampleCaller.key
    ∧ sampleCaller.returned ≤ sampleLoaded.endedBefore
    ∧ (true = true → sampleLoaded.startedBefore = sampleLoaded.endedBefore)
  := by
  have hserved : .served sampleCaller true sampleLoaded
      ∈ (after calls.step (World.idle {}) sampleMoves).calls :=
    List.mem_of_getElem? (i := 2) rfl
  exact ⟨hserved, summary_fresh sampleMoves sampleCaller true sampleLoaded hserved⟩

end SummaryCache

end Vizor
