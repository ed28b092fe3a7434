import Mathlib.Data.List.Perm.Subperm
import Vizor.Sync.ReceiveCache

/-!
# Refreshes of transparent outputs

The outputs of transparent addresses are downloaded in groups of at most four refreshes.  A
group whose downloads all succeeded is stored in one transaction of the wallet database, and
then marked in the cache of receive addresses.  Between groups the refreshes of the active
account move to the front.  A signal to exit is looked for before each group, and again
before the group is stored.
-/

namespace Vizor

open Run ReceiveCache

namespace TransparentRefreshes

/-! ### Refreshes -/

def maxConcurrentTransparentUtxoStreams : Nat := 4

/-- What the cache learns when a refresh is complete. -/
structure TransparentRefreshCompletion where
  childIndices : List Nat
  nextSweepOffset : Option Nat
  deriving DecidableEq, Repr

/-- Addresses of an account whose outputs are to be read. -/
structure TransparentRefresh where
  addresses : List String
  startHeight : Nat
  label : String
  accountUuid : AccountUuid
  completion : Option TransparentRefreshCompletion
  deriving DecidableEq, Repr

/-- A refresh with the outputs that came for it. -/
structure DownloadedTransparentRefresh (Output : Type) where
  refresh : TransparentRefresh
  outputs : List Output
  deriving DecidableEq

inductive TransparentRefreshOutcome where
  | completed
  | cancelled
  deriving DecidableEq, Repr

variable {Db Output E : Type}

/-- How the wallet database answers.  A transaction keeps what its body did, or it is rolled
back. -/
structure Storage (Db Output E : Type) where
  transactionally : (Db → Db × Except E Unit) → Db → Db × Except E Unit
  putReceivedTransparentUtxo : Output → Db → Db × Except E Unit
  commits : ∀ body db, (transactionally body db).2 = .ok () →
    (body db).2 = .ok () ∧ (transactionally body db).1 = (body db).1
  rollsBack : ∀ body db e, (transactionally body db).2 = .error e →
    (transactionally body db).1 = db

/-- The wallet database and the cache next to it. -/
structure Wallet (Db : Type) where
  db : Db
  cache : Shared

/-! ### What happens in a round -/

/-- The answers from outside in one round of the loop, by the position in the group. -/
structure Round (Db Output E : Type) where
  /-- Whether to exit, before a group is taken and before it is stored. -/
  exitBefore : Bool
  exitAfter : Bool
  activeAccount : Option AccountUuid
  /-- What a stream of outputs ends with; none when it saw the signal to exit. -/
  stream : Nat → Except E (Option (List Output))
  /-- When a download finishes. -/
  finishes : Nat → Nat
  storage : Storage Db Output E
  /-- Whether the two writes of the cache fail. -/
  dirtyFails : Nat → Bool
  completeFails : Nat → Bool

/-- Move the refreshes of the active account to the front. -/
def prioritizePendingTransparentRefreshes (activeAccount : Option AccountUuid)
    (pending : List TransparentRefresh) : List TransparentRefresh :=
  match activeAccount with
  | none => pending
  | some account =>
    if pending.any (·.accountUuid = account) then
      pending.filter (·.accountUuid = account) ++ pending.filter (·.accountUuid ≠ account)
    else pending

/-- Read the outputs of a refresh. -/
def downloadTransparentOutputs (refresh : TransparentRefresh)
    (stream : Except E (Option (List Output))) :
    Except E (Option (DownloadedTransparentRefresh Output)) :=
  match stream with
  | .ok none => .ok none
  | .ok (some outputs) =>
    if refresh.addresses = [] then .ok (some ⟨refresh, []⟩)
    else .ok (some ⟨{ refresh with addresses := [] }, outputs⟩)
  | .error e => if refresh.addresses = [] then .ok (some ⟨refresh, []⟩) else .error e

/-- The refreshes of a group, with their positions, in the order in which their downloads
finish. -/
def arrivals (round : Round Db Output E) (group : List TransparentRefresh) :
    List (TransparentRefresh × Nat) :=
  group.zipIdx.insertionSort fun a b => round.finishes a.2 ≤ round.finishes b.2

/-- Download a group: the first error ends it, and the downloads come in the order of the
group. -/
def downloadTransparentRefreshGroup (round : Round Db Output E)
    (group : List TransparentRefresh) :
    Except E (List (Option (DownloadedTransparentRefresh Output))) := do
  let downloaded ← (arrivals round group).mapM fun (refresh, position) => do
    let downloaded ← downloadTransparentOutputs refresh (round.stream position)
    return (position, downloaded)
  return (downloaded.insertionSort fun a b => a.1 ≤ b.1).map (·.2)

/-- Store the outputs of a group in one transaction. -/
def storeTransparentOutputs (storage : Storage Db Output E)
    (downloaded : List (DownloadedTransparentRefresh Output)) (db : Db) : Db × Except E Unit :=
  if downloaded.all (·.outputs.isEmpty) then (db, .ok ())
  else
    storage.transactionally
      (fun db => (downloaded.flatMap (·.outputs)).foldl
        (fun state output => afterOk state fun db _ => storage.putReceivedTransparentUtxo output db)
        (db, .ok ()))
      db

/-- Mark a refresh in the cache; a write that fails is only logged. -/
def updateTransparentRefreshCacheMetadata (round : Round Db Output E) (network : WalletNetwork)
    (tipHeight : Nat) (s : Shared) (position : Nat)
    (downloaded : DownloadedTransparentRefresh Output) : Shared :=
  let s := if downloaded.outputs = [] || round.dirtyFails position then s
    else markAccountDirty s downloaded.refresh.accountUuid
  match downloaded.refresh.completion with
  | none => s
  | some completion =>
    if round.completeFails position then s
    else markUtxoRefreshBatchComplete s network downloaded.refresh.accountUuid
      completion.childIndices (tipHeight + 1) completion.nextSweepOffset

/-- Store a group, and mark it in the cache when that succeeded. -/
def storeThenMarkTransparentRefreshes (round : Round Db Output E) (network : WalletNetwork)
    (tipHeight : Nat) (wallet : Wallet Db)
    (downloaded : List (DownloadedTransparentRefresh Output)) : Wallet Db × Except E Unit :=
  match storeTransparentOutputs round.storage downloaded wallet.db with
  | (db, .error e) => ({ wallet with db := db }, .error e)
  | (db, .ok ()) =>
    ({ db := db
       cache := downloaded.zipIdx.foldl
        (fun s item => updateTransparentRefreshCacheMetadata round network tipHeight s item.2
          item.1)
        wallet.cache }, .ok ())

/-! ### The loop -/

/-- What can be seen of the loop. -/
inductive Event (Output E : Type) where
  | shouldExit (answer : Bool)
  /-- The downloads of a group ended. -/
  | downloaded (result : Except E (List (Option (DownloadedTransparentRefresh Output))))
  /-- A group was stored and marked. -/
  | persisted (group : List TransparentRefresh)
      (downloaded : List (DownloadedTransparentRefresh Output))

/-- What the loop did, and what it returned. -/
structure Pass (Db Output E : Type) where
  events : List (Event Output E)
  wallet : Wallet Db
  result : Except E TransparentRefreshOutcome

def Pass.after (pass : Pass Db Output E) (events : List (Event Output E)) : Pass Db Output E :=
  { pass with events := events ++ pass.events }

theorem prioritizePending_perm {activeAccount : Option AccountUuid}
    {pending : List TransparentRefresh} :
  (prioritizePendingTransparentRefreshes activeAccount pending).Perm pending
  := by
  unfold prioritizePendingTransparentRefreshes
  split
  · rfl
  · split
    · simpa using List.filter_append_perm _ pending
    · rfl

/-- Take groups of pending refreshes, download them, store them and mark them. -/
def processBoundedTransparentRefreshes (rounds : Nat → Round Db Output E)
    (network : WalletNetwork) (tipHeight index : Nat) (wallet : Wallet Db)
    (pending : List TransparentRefresh) : Pass Db Output E :=
  if (rounds index).exitBefore then ⟨[.shouldExit true], wallet, .ok .cancelled⟩
  else
    let queue := prioritizePendingTransparentRefreshes (rounds index).activeAccount pending
    let group := queue.take maxConcurrentTransparentUtxoStreams
    if _hgroup : group = [] then ⟨[.shouldExit false], wallet, .ok .completed⟩
    else
      let downloaded := downloadTransparentRefreshGroup (rounds index) group
      if (rounds index).exitAfter then
        ⟨[.shouldExit false, .downloaded downloaded, .shouldExit true], wallet, .ok .cancelled⟩
      else
        let seen := [.shouldExit false, .downloaded downloaded, .shouldExit false]
        match downloaded with
        | .error e => ⟨seen, wallet, .error e⟩
        | .ok downloaded =>
          match downloaded.mapM id with
          | none => ⟨seen, wallet, .ok .cancelled⟩
          | some downloaded =>
            match storeThenMarkTransparentRefreshes (rounds index) network tipHeight wallet
              downloaded with
            | (wallet, .error e) => ⟨seen, wallet, .error e⟩
            | (wallet, .ok ()) =>
              (processBoundedTransparentRefreshes rounds network tipHeight (index + 1) wallet
                (queue.drop maxConcurrentTransparentUtxoStreams)).after
                (seen ++ [.persisted group downloaded])
termination_by pending.length
decreasing_by
  have hlength := (@prioritizePending_perm (rounds index).activeAccount pending).length_eq
  have hnonempty := List.length_pos_of_ne_nil _hgroup
  simp only [group, queue, List.length_take, List.length_drop] at hnonempty ⊢
  omega

/-! ### Downloads -/

theorem mapM_id_eq_some {α : Type} {xs : List (Option α)} {ys : List α} :
  xs.mapM id = some ys ↔ xs = ys.map some
  := by
  induction xs generalizing ys with
  | nil => cases ys <;> simp
  | cons x xs ih =>
    cases x with
    | none => cases ys <;> simp
    | some x =>
      cases ys with
      | nil => simp [Option.bind_eq_some_iff]
      | cons y ys => simp [Option.bind_eq_some_iff, ih, and_comm]

/-- The downloads of a group are those of its refreshes, in their order. -/
theorem downloadGroup_forall₂ {round : Round Db Output E} {group : List TransparentRefresh}
    {downloaded : List (Option (DownloadedTransparentRefresh Output))}
    (h : downloadTransparentRefreshGroup round group = .ok downloaded) :
  List.Forall₂
    (fun entry d => downloadTransparentOutputs entry.1 (round.stream entry.2) = .ok d)
    group.zipIdx downloaded
  := by
  obtain ⟨collected, hcollected, h⟩ := bind_eq_ok.mp h
  obtain rfl := pure_eq_ok.mp h
  obtain ⟨ordered, hordered, hperm⟩ := List.perm_comp_forall₂
    (List.perm_insertionSort _ _).symm (forall₂_of_mapM_eq_ok hcollected)
  have heach : List.Forall₂
      (fun entry d => d.1 = entry.2
        ∧ downloadTransparentOutputs entry.1 (round.stream entry.2) = .ok d.2)
      group.zipIdx ordered := by
    apply hordered.imp
    intro entry d hd
    obtain ⟨value, hvalue, hd⟩ := bind_eq_ok.mp hd
    obtain rfl := pure_eq_ok.mp hd
    exact ⟨rfl, hvalue⟩
  have hfirst : ordered.map (·.1) = List.range' 0 group.length := by
    rw [← List.zipIdx_map_snd, ← List.forall₂_eq_eq_eq, List.forall₂_map_left_iff,
      List.forall₂_map_right_iff]
    apply heach.flip.imp fun _ _ hd => hd.1
  have hsorted : ordered.Pairwise fun a b => a.1 ≤ b.1 := by
    rw [← List.pairwise_map (R := (· ≤ ·)), hfirst]
    apply List.pairwise_le_range'
  have hsort : collected.insertionSort (fun a b => a.1 ≤ b.1) = ordered := by
    apply List.Perm.eq_of_pairwise _ (List.pairwise_insertionSort _ _) hsorted
      ((List.perm_insertionSort _ _).trans hperm.symm)
    intro a b ha hb hab hba
    apply List.inj_on_of_nodup_map (by rw [hfirst]; exact List.nodup_range') _ hb
      (Nat.le_antisymm hab hba)
    apply hperm.symm.subset ((List.mem_insertionSort _).mp ha)
  rw [hsort, List.forall₂_map_right_iff]
  apply heach.imp fun _ _ hd => hd.2

/-- What is downloaded for a refresh. -/
def Fulfils (refresh : TransparentRefresh) (downloaded : DownloadedTransparentRefresh Output) :
    Prop :=
  downloaded.refresh = { refresh with addresses := [] }

theorem downloadTransparentOutputs_fulfils {refresh : TransparentRefresh}
    {stream : Except E (Option (List Output))} {downloaded : DownloadedTransparentRefresh Output}
    (h : downloadTransparentOutputs refresh stream = .ok (some downloaded)) :
  Fulfils refresh downloaded
  := by
  have hempty : refresh.addresses = [] → refresh = { refresh with addresses := [] } := by
    intro hnone
    rw [← hnone]
  unfold downloadTransparentOutputs at h
  split at h
  · cases h
  · split at h
    case isTrue hnone =>
      cases h
      apply hempty hnone
    case isFalse =>
      cases h
      rfl
  · split at h
    case isTrue hnone =>
      cases h
      apply hempty hnone
    case isFalse => cases h

/-- A group of which all downloads succeeded was downloaded in its order. -/
theorem downloadGroup_fulfils {round : Round Db Output E} {group : List TransparentRefresh}
    {downloaded : List (DownloadedTransparentRefresh Output)}
    (h : downloadTransparentRefreshGroup round group = .ok (downloaded.map some)) :
  List.Forall₂ Fulfils group downloaded
  := by
  have heach := downloadGroup_forall₂ h
  rw [List.forall₂_map_right_iff] at heach
  have hfulfils := heach.imp fun _ _ hd => downloadTransparentOutputs_fulfils hd
  rwa [← List.forall₂_map_left_iff (f := Prod.fst), List.zipIdx_map_fst] at hfulfils

/-! ### Storing a group -/

/-- The wallet after a group was stored and marked as a whole. -/
def keptWallet (round : Round Db Output E) (network : WalletNetwork) (tipHeight : Nat)
    (wallet : Wallet Db) (downloaded : List (DownloadedTransparentRefresh Output)) :
    Wallet Db where
  db := (downloaded.flatMap (·.outputs)).foldl
    (fun db output => (round.storage.putReceivedTransparentUtxo output db).1) wallet.db
  cache := downloaded.zipIdx.foldl
    (fun s item => updateTransparentRefreshCacheMetadata round network tipHeight s item.2 item.1)
    wallet.cache

/-- Outputs that could all be put were put one after the other. -/
theorem foldl_put_eq {storage : Storage Db Output E} {outputs : List Output} {db : Db}
    {result : Except E Unit}
    (h : (outputs.foldl
      (fun state output => afterOk state fun db _ => storage.putReceivedTransparentUtxo output db)
      (db, result)).2 = .ok ()) :
  result = .ok () ∧ (outputs.foldl
    (fun state output => afterOk state fun db _ => storage.putReceivedTransparentUtxo output db)
    (db, result)).1
      = outputs.foldl (fun db output => (storage.putReceivedTransparentUtxo output db).1) db
  := by
  induction outputs generalizing db result with
  | nil => exact ⟨h, rfl⟩
  | cons output outputs ih =>
    rw [List.foldl_cons] at h ⊢
    cases result with
    | error e => exact absurd (ih h).1 (by simp)
    | ok u => exact ⟨rfl, (ih h).2⟩

/-- A group is stored and marked as a whole, or nothing changes. -/
theorem storeThenMark_cases {round : Round Db Output E} {network : WalletNetwork}
    {tipHeight : Nat} {wallet wallet' : Wallet Db}
    {downloaded : List (DownloadedTransparentRefresh Output)} {result : Except E Unit}
    (h : storeThenMarkTransparentRefreshes round network tipHeight wallet downloaded
      = (wallet', result)) :
  (result = .ok () ∧ wallet' = keptWallet round network tipHeight wallet downloaded)
    ∨ (∃ e, result = .error e) ∧ wallet' = wallet
  := by
  unfold storeThenMarkTransparentRefreshes at h
  have hdb : ∀ db stored, storeTransparentOutputs round.storage downloaded wallet.db
      = (db, stored) →
      (stored = .ok () → db = (keptWallet round network tipHeight wallet downloaded).db)
        ∧ ∀ e, stored = .error e → db = wallet.db := by
    intro db stored hstore
    unfold storeTransparentOutputs at hstore
    split at hstore
    case isTrue hempty =>
      cases hstore
      have hnone : downloaded.flatMap (·.outputs) = [] := by simpa using hempty
      simp [keptWallet, hnone]
    case isFalse =>
      constructor
      · rintro rfl
        obtain ⟨hbody, hkept⟩ := round.storage.commits _ wallet.db (congrArg Prod.snd hstore)
        rw [hstore] at hkept
        rw [show db = _ from hkept, (foldl_put_eq hbody).2]
        rfl
      · rintro e rfl
        have hback := round.storage.rollsBack _ wallet.db e (congrArg Prod.snd hstore)
        rwa [hstore] at hback
  split at h
  case h_1 db e hstore =>
    cases h
    right
    refine ⟨⟨e, rfl⟩, ?_⟩
    rw [(hdb _ _ hstore).2 e rfl]
  case h_2 db hstore =>
    cases h
    left
    refine ⟨rfl, ?_⟩
    rw [(hdb _ _ hstore).1 rfl]
    rfl

/-! ### The loop -/

section

variable {rounds : Nat → Round Db Output E} {network : WalletNetwork} {tipHeight : Nat}

/-- What the loop does: it returns before a group is stored, or it stores a group and goes
on. -/
theorem process_induction
    {motive : Nat → Wallet Db → List TransparentRefresh → Pass Db Output E → Prop}
    (exits : ∀ index wallet pending,
      motive index wallet pending ⟨[.shouldExit true], wallet, .ok .cancelled⟩)
    (done : ∀ index wallet, motive index wallet [] ⟨[.shouldExit false], wallet, .ok .completed⟩)
    (stops : ∀ index wallet pending downloaded answer result, pending ≠ [] →
      result ≠ .ok .completed →
      motive index wallet pending
        ⟨[.shouldExit false, .downloaded downloaded, .shouldExit answer], wallet, result⟩)
    (stores : ∀ index wallet pending group rest downloaded pass, (group ++ rest).Perm pending →
      group.length = min maxConcurrentTransparentUtxoStreams pending.length →
      List.Forall₂ Fulfils group downloaded →
      motive (index + 1) (keptWallet (rounds index) network tipHeight wallet downloaded) rest
        pass →
      motive index wallet pending (pass.after [.shouldExit false,
        .downloaded (.ok (downloaded.map some)), .shouldExit false,
        .persisted group downloaded]))
    (index : Nat) (wallet : Wallet Db) (pending : List TransparentRefresh) :
  motive index wallet pending
    (processBoundedTransparentRefreshes rounds network tipHeight index wallet pending)
  := by
  induction hlength : pending.length using Nat.strong_induction_on
    generalizing index wallet pending with
  | _ length ih =>
    set queue := prioritizePendingTransparentRefreshes (rounds index).activeAccount pending
      with hqueue
    have hperm : queue.Perm pending := prioritizePending_perm
    rw [processBoundedTransparentRefreshes, ← hqueue]
    split
    · apply exits
    · dsimp only
      split
      case isTrue hgroup =>
        have hnone : pending = [] := by
          rw [← List.length_eq_zero_iff, ← hperm.length_eq]
          have := congrArg List.length hgroup
          rw [List.length_take, List.length_nil, maxConcurrentTransparentUtxoStreams] at this
          omega
        subst hnone
        apply done
      case isFalse hgroup =>
        have hpending : pending ≠ [] := by
          rintro rfl
          rw [hperm.eq_nil, List.take_nil] at hgroup
          apply hgroup rfl
        split
        · apply stops _ _ _ _ _ _ hpending (by simp)
        · split
          · apply stops _ _ _ _ _ _ hpending (by simp)
          case h_2 answers hanswers =>
            split
            · apply stops _ _ _ _ _ _ hpending (by simp)
            case h_2 downloaded hdownloaded =>
              split
              case h_1 wallet' e hstore =>
                obtain ⟨hok, _⟩ | ⟨_, rfl⟩ := storeThenMark_cases hstore
                · cases hok
                · apply stops _ _ _ _ _ _ hpending (by simp)
              case h_2 wallet' hstore =>
                obtain ⟨_, rfl⟩ | ⟨⟨_, herror⟩, _⟩ := storeThenMark_cases hstore
                · have hsome := mapM_id_eq_some.mp hdownloaded
                  subst hsome
                  rw [hanswers]
                  apply stores
                  · rw [List.take_append_drop]
                    apply hperm
                  · rw [List.length_take, hperm.length_eq]
                  · apply downloadGroup_fulfils hanswers
                  · apply ih _ _ _ _ _ rfl
                    have hpositive := List.length_pos_of_ne_nil hpending
                    rw [← hlength, List.length_drop, hperm.length_eq,
                      maxConcurrentTransparentUtxoStreams]
                    omega
                · cases herror

/-! ### What is persisted -/

/-- The refreshes of an event that were stored and marked. -/
def Event.refreshes : Event Output E → List TransparentRefresh
  | .persisted group _ => group
  | _ => []

/-- The downloads of an event that were stored and marked. -/
def Event.stored : Event Output E → List (List (DownloadedTransparentRefresh Output))
  | .persisted _ items => [items]
  | _ => []

/-- The signal to exit was seen, by the loop or by a download. -/
def Event.SeesExit : Event Output E → Prop
  | .shouldExit answer => answer = true
  | .downloaded (.ok items) => none ∈ items
  | _ => False

@[simp]
theorem Event.seesExit_shouldExit {answer : Bool} :
  (shouldExit answer : Event Output E).SeesExit ↔ answer = true
  := Iff.rfl

@[simp]
theorem Event.not_seesExit_downloaded {items : List (DownloadedTransparentRefresh Output)} :
  ¬ (downloaded (.ok (items.map some)) : Event Output E).SeesExit
  := by
  simp [SeesExit]

@[simp]
theorem Event.not_seesExit_persisted {group : List TransparentRefresh}
    {items : List (DownloadedTransparentRefresh Output)} :
  ¬ (persisted group items : Event Output E).SeesExit
  := id

/-- The wallet after groups were stored and marked, each of them as a whole. -/
def afterGroups (rounds : Nat → Round Db Output E) (network : WalletNetwork) (tipHeight : Nat) :
    Nat → Wallet Db → List (List (DownloadedTransparentRefresh Output)) → Wallet Db
  | _, wallet, [] => wallet
  | index, wallet, downloaded :: rest =>
    afterGroups rounds network tipHeight (index + 1)
      (keptWallet (rounds index) network tipHeight wallet downloaded) rest

/-- The refreshes that the loop persisted. -/
def Pass.persisted (pass : Pass Db Output E) : List TransparentRefresh :=
  pass.events.flatMap Event.refreshes

/-- Each group that is persisted holds the greatest number of refreshes, or all that are left,
with what was downloaded for each of them. -/
def Pass.WholeGroups (pass : Pass Db Output E) (count : Nat) : Prop :=
  ∀ before group items later, pass.events = before ++ .persisted group items :: later →
    group.length = min maxConcurrentTransparentUtxoStreams
        (count - (before.flatMap Event.refreshes).length)
      ∧ List.Forall₂ Fulfils group items

@[simp]
theorem Pass.persisted_after {pass : Pass Db Output E} {events : List (Event Output E)} :
  (pass.after events).persisted = events.flatMap Event.refreshes ++ pass.persisted
  := by
  simp [Pass.persisted, Pass.after]

/-- Each refresh is persisted at most once. -/
theorem process_persisted_perm (index : Nat) (wallet : Wallet Db)
    (pending : List TransparentRefresh) :
  ∃ rest, ((processBoundedTransparentRefreshes rounds network tipHeight index wallet
    pending).persisted ++ rest).Perm pending
  := by
  apply process_induction (motive := fun _ _ pending pass =>
    ∃ rest, (pass.persisted ++ rest).Perm pending)
  case exits => exact fun _ _ pending => ⟨pending, by simp [Pass.persisted, Event.refreshes]⟩
  case done => exact fun _ _ => ⟨[], by simp [Pass.persisted, Event.refreshes]⟩
  case stops =>
    intro _ _ pending _ _ _ _ _
    exact ⟨pending, by simp [Pass.persisted, Event.refreshes]⟩
  case stores =>
    intro _ _ pending group later _ pass hperm _ _ ⟨rest, hrest⟩
    use rest
    simp only [Pass.persisted_after, List.flatMap_cons, Event.refreshes, List.flatMap_nil,
      List.nil_append, List.append_nil, List.append_assoc]
    apply (hrest.append_left group).trans hperm

/-- The loop completes exactly when every refresh was persisted and it did not see the signal
to exit. -/
theorem process_completed_iff (index : Nat) (wallet : Wallet Db)
    (pending : List TransparentRefresh) :
  (processBoundedTransparentRefreshes rounds network tipHeight index wallet pending).result
      = .ok .completed
    ↔ (processBoundedTransparentRefreshes rounds network tipHeight index wallet
        pending).persisted.Perm pending
      ∧ Event.shouldExit true ∉ (processBoundedTransparentRefreshes rounds network tipHeight
        index wallet pending).events
  := by
  apply process_induction (motive := fun _ _ pending pass =>
    pass.result = .ok .completed
      ↔ pass.persisted.Perm pending ∧ Event.shouldExit true ∉ pass.events)
  case exits => simp
  case done => simp [Pass.persisted, Event.refreshes]
  case stops =>
    intro _ _ pending _ _ _ hpending hresult
    have hnone : ¬ ([] : List TransparentRefresh).Perm pending := by
      rw [List.nil_perm]
      apply hpending
    simp [hresult, Pass.persisted, Event.refreshes, hnone]
  case stores =>
    intro _ _ pending group rest _ pass hperm _ _ ih
    have hpersisted : (group ++ pass.persisted).Perm pending ↔ pass.persisted.Perm rest := by
      constructor
      · intro h
        apply (List.perm_append_left_iff group).1 (h.trans hperm.symm)
      · intro h
        apply ((List.perm_append_left_iff group).2 h).trans hperm
    simp only [Pass.persisted_after, List.flatMap_cons, Event.refreshes, List.flatMap_nil,
      List.nil_append, List.append_nil, hpersisted]
    simp [Pass.after, ih]

/-- Nothing is persisted after the signal to exit was seen. -/
theorem process_exit (index : Nat) (wallet : Wallet Db) (pending : List TransparentRefresh) :
  (processBoundedTransparentRefreshes rounds network tipHeight index wallet
    pending).events.Pairwise fun event later => event.SeesExit → later.stored = []
  := by
  apply process_induction (motive := fun _ _ _ pass =>
    pass.events.Pairwise fun event later => event.SeesExit → later.stored = [])
  case exits => simp
  case done => simp
  case stops =>
    intro _ _ _ _ _ _ _ _
    simp [Event.stored]
  case stores =>
    intro _ _ _ _ _ _ pass _ _ _ ih
    simp [Pass.after, ih]

/-- Groups are persisted as a whole: a group holds four of the refreshes that are pending, or
all of them, with what was downloaded for each. -/
theorem process_wholeGroups (index : Nat) (wallet : Wallet Db)
    (pending : List TransparentRefresh) :
  (processBoundedTransparentRefreshes rounds network tipHeight index wallet
    pending).WholeGroups pending.length
  := by
  apply process_induction (motive := fun _ _ pending pass => pass.WholeGroups pending.length)
  case exits =>
    intro _ _ _ before group downloaded later h
    cases before <;> simp at h
  case done =>
    intro _ _ before group downloaded later h
    cases before <;> simp at h
  case stops =>
    intro _ _ _ _ _ _ _ _ before group downloaded later h
    rcases before with _ | ⟨_, _ | ⟨_, _ | ⟨_, before⟩⟩⟩ <;> simp at h
  case stores =>
    intro _ _ pending group rest downloaded pass hperm hlength hfulfils ih before group'
      downloaded' later h
    rcases before with _ | ⟨_, _ | ⟨_, _ | ⟨_, _ | ⟨_, before⟩⟩⟩⟩
    case cons.cons.cons.nil =>
      obtain ⟨rfl, rfl, rfl, ⟨rfl, rfl⟩, rfl⟩ := by simpa [Pass.after] using h
      exact ⟨by simpa [Event.refreshes] using hlength, hfulfils⟩
    case cons.cons.cons.cons =>
      obtain ⟨rfl, rfl, rfl, rfl, hlater⟩ := by simpa [Pass.after] using h
      obtain ⟨hlength', hfulfils'⟩ := ih before group' downloaded' later hlater
      refine ⟨?_, hfulfils'⟩
      rw [hlength']
      have hall := hperm.length_eq
      rw [List.length_append] at hall
      simp only [List.flatMap_cons, Event.refreshes, List.nil_append, List.length_append]
      omega
    all_goals simp [Pass.after] at h

/-- The wallet at the end is the one after the groups that were persisted: nothing of another
group is stored or marked. -/
theorem process_wallet (index : Nat) (wallet : Wallet Db) (pending : List TransparentRefresh) :
  (processBoundedTransparentRefreshes rounds network tipHeight index wallet pending).wallet
    = afterGroups rounds network tipHeight index wallet
      ((processBoundedTransparentRefreshes rounds network tipHeight index wallet
        pending).events.flatMap Event.stored)
  := by
  apply process_induction (motive := fun index wallet _ pass =>
    pass.wallet = afterGroups rounds network tipHeight index wallet
      (pass.events.flatMap Event.stored))
  case exits => simp [Event.stored, afterGroups]
  case done => simp [Event.stored, afterGroups]
  case stops => simp [Event.stored, afterGroups]
  case stores =>
    intro _ _ _ _ _ _ pass _ _ _ ih
    simp [Pass.after, Event.stored, afterGroups, ih]

/-- Each refresh is persisted at most once, in whole groups, and none after the signal to exit
was seen.  The loop completes exactly when every refresh was persisted and it did not see the
signal.  The wallet holds what was persisted, and nothing of another group. -/
theorem processBoundedTransparentRefreshes_spec (wallet : Wallet Db)
    (pending : List TransparentRefresh) :
  let pass := processBoundedTransparentRefreshes rounds network tipHeight 0 wallet pending
  (∃ rest, (pass.persisted ++ rest).Perm pending)
    ∧ pass.WholeGroups pending.length
    ∧ (pass.events.Pairwise fun event later => event.SeesExit → later.stored = [])
    ∧ (pass.result = .ok .completed
      ↔ pass.persisted.Perm pending ∧ Event.shouldExit true ∉ pass.events)
    ∧ pass.wallet = afterGroups rounds network tipHeight 0 wallet
      (pass.events.flatMap Event.stored)
  := by
  intro pass
  refine ⟨?_, ?_, ?_, ?_, ?_⟩
  · apply process_persisted_perm
  · apply process_wholeGroups
  · apply process_exit
  · apply process_completed_iff
  · apply process_wallet

end

/-! ### A signal after the last group -/

/-- A database without content, whose transactions all commit. -/
def emptyStorage : Storage Unit Unit Unit where
  transactionally body db := body db
  putReceivedTransparentUtxo _ db := (db, .ok ())
  commits _ _ h := ⟨h, rfl⟩
  rollsBack _ _ _ _ := rfl

/-- The signal to exit comes after the first group was persisted. -/
def signalledRounds (index : Nat) : Round Unit Unit Unit where
  exitBefore := index ≠ 0
  exitAfter := index ≠ 0
  activeAccount := none
  stream _ := .ok (some [()])
  finishes position := position
  storage := emptyStorage
  dirtyFails _ := false
  completeFails _ := false

/-- The refresh of a batch of the address with child index 0. -/
def sampleRefresh : TransparentRefresh :=
  ⟨["t1"], 100, "transparent external UTXOs recent batch", 0, some ⟨[0], none⟩⟩

/-- The only refresh is persisted, but the loop sees the signal before it looks for another
group, and does not complete. -/
theorem processBoundedTransparentRefreshes_signalled :
  let pass := processBoundedTransparentRefreshes signalledRounds .main 200 0 ⟨(), ⟨fun _ => [],
    fun _ => none, []⟩⟩ [sampleRefresh]
  pass.persisted.Perm [sampleRefresh] ∧ pass.result = .ok .cancelled
  := by
  have hlast : ∀ wallet pending,
      processBoundedTransparentRefreshes signalledRounds .main 200 1 wallet pending
        = ⟨[.shouldExit true], wallet, .ok .cancelled⟩ := by
    intro wallet pending
    rw [processBoundedTransparentRefreshes, if_pos (by decide)]
  have hdownloaded : downloadTransparentRefreshGroup (signalledRounds 0) [sampleRefresh]
      = .ok [some ⟨{ sampleRefresh with addresses := [] }, [()]⟩] := rfl
  obtain ⟨wallet', hstored⟩ : ∃ wallet', storeThenMarkTransparentRefreshes (signalledRounds 0)
      .main 200 ⟨(), ⟨fun _ => [], fun _ => none, []⟩⟩
      [⟨{ sampleRefresh with addresses := [] }, [()]⟩] = (wallet', .ok ()) := ⟨_, rfl⟩
  rw [processBoundedTransparentRefreshes, if_neg (by decide)]
  dsimp only
  rw [dif_neg (by decide), if_neg (by decide),
    show (prioritizePendingTransparentRefreshes _ _).take _ = [sampleRefresh] from rfl,
    hdownloaded]
  dsimp only
  rw [show [some _].mapM id = some [_] from rfl]
  dsimp only
  rw [hstored]
  simp [hlast, Event.refreshes, Pass.persisted, Pass.after]

end TransparentRefreshes

end Vizor
