import Vizor.Voting.Participation

/-!
# Participation never forgets a used note

A key that was verified or confirmed as used stays used in what goes through the app, the
height of an unused key does not go back, and the notes that an evaluation has not seen unused
are excluded as long as its exclusions are stored.  An evaluation of a round that has bundles
stores nothing.
-/

namespace Vizor

open Run

namespace Voting

variable {Commit Validators Query AppHash : Type}

/-! ### Runs of evaluations -/

/-- The voting database and what the app got from the last evaluation. -/
structure World where
  db : VotingDb
  observations : Observations := fun _ => none
  /-- The keys that evaluations have verified or confirmed as used; no code reads them. -/
  knownUsed : List GovKey := []
  /-- What was seen by the evaluation that stored its exclusions last; no code reads it. -/
  storedFrom : Option Observations := none

/-- An evaluation, or a change of the bundles of the wallet. -/
inductive Op (Commit Validators Query : Type) where
  | evaluate (request : VotingSdk.Request Commit Validators Query)
  | plan (bundles : List BundleRow)

variable (sdk : VotingSdk Commit Validators Query AppHash) (selection : Selection)

namespace VotingSdk

/-- The request with the observations of the evaluation before. -/
def Request.fed (request : Request Commit Validators Query) (observations : Observations) :
    Request Commit Validators Query :=
  { request with
    evidence := request.evidence.map fun e => { e with cached := some observations } }

/-- The keys that the evidence verifies as used. -/
def verifiedUsed (evidence : Evidence Commit Validators Query) : List GovKey :=
  match evidence.commit with
  | none => []
  | some commit =>
    (((evidence.queryKeys.getD []).zip (evidence.queries.getD [])).filter fun entry =>
      sdk.queryResult commit (sdk.height commit - 1) entry = some true).map (·.1)

/-- The keys that an evaluation verifies or confirms as used. -/
def usedIn (db : VotingDb) (request : Request Commit Validators Query) : List GovKey :=
  let notes := sortedNotes selection
  (request.evidence.map sdk.verifiedUsed).getD []
    ++ confirmedKeys db selection.account selection.round notes
      (notes.map fun n => sdk.govKey n.nullifier)

end VotingSdk

/-- The world after an operation. -/
def step (w : World) : Op Commit Validators Query → World
  | .evaluate request =>
    let request := request.fed w.observations
    match sdk.evaluate selection w.db request with
    | (db, .ok evaluation) =>
      { db := db
        observations := evaluation.observations
        knownUsed := sdk.usedIn selection w.db request ++ w.knownUsed
        storedFrom := if evaluation.localState then w.storedFrom
          else some evaluation.observations }
    | (db, .error _) => { w with db := db }
  | .plan bundles => { w with db := { w.db with bundles := bundles } }

/-! ### What participation remembers -/

/-- A note was seen unused. -/
def SeenUnused (observations : Observations) (n : NoteInfo) : Prop :=
  ∃ o, observations (sdk.govKey n.nullifier) = some o ∧ o.used = false

/-- What holds of every world of a run from a database: the keys that are known to be used are
so, and once an evaluation has stored exclusions, the notes that remain were seen unused by the
evaluation that stored them. -/
structure Remembers (db : VotingDb) (w : World) : Prop where
  used : ∀ key ∈ w.knownUsed, ∃ o, w.observations key = some o ∧ o.used = true
  excluded : ∀ observations, w.storedFrom = some observations →
    ∃ excluded, w.db.exclusions selection.account selection.round selection.snapshot
        = some excluded
      ∧ ∀ n ∈ selection.notes, ¬SeenUnused sdk observations n → n.nullifier ∈ excluded
  filtered : ∀ observations, w.storedFrom = some observations → ∀ notes : List NoteInfo,
    (∀ n ∈ notes, n ∈ selection.notes) →
    ∀ n ∈ w.db.filterNotes selection.account selection.round selection.snapshot notes,
      SeenUnused sdk observations n
  unstored : w.storedFrom = none →
    w.db.exclusions selection.account selection.round selection.snapshot
      = db.exclusions selection.account selection.round selection.snapshot

/-- What an operation keeps: a key that was seen unused is used afterwards, or unused at a
height that is not lower, and while the round has bundles an evaluation changes no stored
exclusions. -/
structure Keeps (w w' : World) (op : Op Commit Validators Query) : Prop where
  height : ∀ key o, w.observations key = some o →
    ∃ o', w'.observations key = some o' ∧ (o'.used = false → o.used = false ∧ o.height ≤ o'.height)
  planned : ∀ request, op = .evaluate request →
    w.db.roundBundles selection.account selection.round ≠ [] →
      ∀ snapshot, w'.db.exclusions selection.account selection.round snapshot
        = w.db.exclusions selection.account selection.round snapshot

/-- The evidence with another query, or one that cannot be read, at a place. -/
def Evidence.withQuery (evidence : Evidence Commit Validators Query) (i : Nat)
    (query : Option Query) : Evidence Commit Validators Query :=
  { evidence with queries := evidence.queries.map (·.set i query) }

/-- What a query does to the keys of other queries: nothing. -/
structure Isolates (db : VotingDb) : Prop where
  observed : ∀ candidates evidence now observations i query,
    sdk.incrementalObservations candidates evidence now = .ok observations →
    ∃ observations',
      sdk.incrementalObservations candidates (evidence.withQuery i query) now = .ok observations'
      ∧ ∀ key, (evidence.queryKeys.getD [])[i]? ≠ some key →
        observations' key = observations key
  evaluated : ∀ (request : VotingSdk.Request Commit Validators Query) evidence i query,
    request.evidence = some evidence →
    ∀ db' evaluation, sdk.evaluate selection db request = (db', .ok evaluation) →
    ∀ db'' evaluation', sdk.evaluate selection db
        { request with evidence := some (evidence.withQuery i query) } = (db'', .ok evaluation') →
    ∀ key, (evidence.queryKeys.getD [])[i]? ≠ some key →
      evaluation'.observations key = evaluation.observations key

variable {sdk selection} {observations : Observations} {key : GovKey} {commit : Commit}
  {height : Nat} {entry : GovKey × Option Query} {w : World} {db : VotingDb}
  {request : VotingSdk.Request Commit Validators Query}

/-! ### One query -/

namespace VotingSdk

/-- What a query does: nothing, when it shows nothing or what was seen stands against it, or
else it records what it shows. -/
theorem recordQuery_cases (sdk : VotingSdk Commit Validators Query AppHash) (commit : Commit)
    (height : Nat) (observations : Observations) (entry : GovKey × Option Query) :
  sdk.recordQuery commit height observations entry = observations
      ∧ (∀ used, sdk.queryResult commit height entry = some used →
        ∃ old, observations entry.1 = some old ∧ (old.used = true ∨ height < old.height))
    ∨ ∃ used, sdk.queryResult commit height entry = some used
      ∧ (∀ old, observations entry.1 = some old → old.used = false ∧ old.height ≤ height)
      ∧ sdk.recordQuery commit height observations entry
        = Function.update observations entry.1 (some ⟨used, height⟩)
  := by
  unfold recordQuery
  cases hresult : sdk.queryResult commit height entry with
  | none => exact Or.inl ⟨rfl, nofun⟩
  | some used =>
    dsimp only
    split_ifs with hold
    · left
      refine ⟨rfl, fun _ _ => ?_⟩
      rw [Option.any_eq_true] at hold
      obtain ⟨old, hmem, hstands⟩ := hold
      rw [Bool.or_eq_true, decide_eq_true_eq] at hstands
      exact ⟨old, hmem, hstands⟩
    · right
      refine ⟨used, rfl, fun old hmem => ?_, rfl⟩
      rw [hmem, Option.any_some, Bool.or_eq_true, not_or, Bool.not_eq_true,
        decide_eq_true_eq] at hold
      exact ⟨hold.1, Nat.le_of_not_lt hold.2⟩

/-- A query changes only what was seen of its key. -/
theorem recordQuery_of_ne (h : key ≠ entry.1) :
  sdk.recordQuery commit height observations entry key = observations key
  := by
  rcases recordQuery_cases sdk commit height observations entry with ⟨hsame, -⟩ | ⟨used, -, -, hupdate⟩
  · rw [hsame]
  · rw [hupdate, Function.update_of_ne h]

/-- What was seen of a key, before and after. -/
def Later (o o' : Option Observation) : Prop :=
  ∀ x, o = some x → ∃ x', o' = some x'
    ∧ (x'.used = false → x.used = false ∧ x.height ≤ x'.height)

theorem Later.refl {o : Option Observation} :
  Later o o
  := fun x hx => ⟨x, hx, fun hu => ⟨hu, Nat.le_refl _⟩⟩

theorem Later.trans {o o' o'' : Option Observation} (h : Later o o') (h' : Later o' o'') :
  Later o o''
  := by
  intro x hx
  obtain ⟨x', hx', hkeep⟩ := h x hx
  obtain ⟨x'', hx'', hkeep'⟩ := h' x' hx'
  refine ⟨x'', hx'', fun hu => ?_⟩
  obtain ⟨hu', hle'⟩ := hkeep' hu
  obtain ⟨hu'', hle⟩ := hkeep hu'
  exact ⟨hu'', Nat.le_trans hle hle'⟩

/-- A key that is used stays used. -/
theorem Later.used {o o' : Option Observation} (h : Later o o')
    (ho : ∃ x, o = some x ∧ x.used = true) :
  ∃ x, o' = some x ∧ x.used = true
  := by
  obtain ⟨x, hx, hused⟩ := ho
  obtain ⟨x', hx', hkeep⟩ := h x hx
  refine ⟨x', hx', ?_⟩
  by_contra hunused
  rw [Bool.not_eq_true] at hunused
  rw [(hkeep hunused).1] at hused
  cases hused

theorem later_recordQuery (sdk : VotingSdk Commit Validators Query AppHash) (commit : Commit)
    (height : Nat) (entry : GovKey × Option Query) (key : GovKey) :
  Later (observations key) (sdk.recordQuery commit height observations entry key)
  := by
  rcases recordQuery_cases sdk commit height observations entry with ⟨hsame, -⟩ | ⟨used, -, hold, hupdate⟩
  · rw [hsame]
    apply Later.refl
  · rw [hupdate]
    by_cases hkey : key = entry.1
    · subst hkey
      rw [Function.update_self]
      exact fun o ho => ⟨_, rfl, fun _ => hold o ho⟩
    · rw [Function.update_of_ne hkey]
      apply Later.refl

/-- What was seen unused is unused on the vote chain. -/
def Genuine (sdk : VotingSdk Commit Validators Query AppHash) (observations : Observations) :
    Prop :=
  ∀ key o, observations key = some o → o.used = false → sdk.usedAt key o.height = false

/-- What a query shows under a verified header is so on the vote chain. -/
theorem queryResult_genuine {validators : Validators} {now : Int} {used : Bool}
    (hheader : sdk.verifyHeader commit validators now = true)
    (h : sdk.queryResult commit height entry = some used) :
  used = sdk.usedAt entry.1 height
  := by
  obtain ⟨query, -, hquery⟩ := Option.bind_eq_some_iff.mp h
  apply sdk.genuine commit validators now query entry.1 height used hheader hquery

theorem genuine_recordQuery {validators : Validators} {now : Int}
    (hheader : sdk.verifyHeader commit validators now = true)
    (h : sdk.Genuine observations) :
  sdk.Genuine (sdk.recordQuery commit height observations entry)
  := by
  rcases recordQuery_cases sdk commit height observations entry with ⟨hsame, -⟩ | ⟨used, hused, -, hupdate⟩
  · rw [hsame]
    apply h
  · rw [hupdate]
    intro key o ho hunused
    by_cases hkey : key = entry.1
    · subst hkey
      rw [Function.update_self] at ho
      cases ho
      rw [← queryResult_genuine hheader hused]
      apply hunused
    · rw [Function.update_of_ne hkey] at ho
      apply h key o ho hunused

/-- A key that a query verifies as used is used afterwards: no genuine evidence has shown it
unused at a greater height. -/
theorem used_recordQuery {validators : Validators} {now : Int}
    (hheader : sdk.verifyHeader commit validators now = true)
    (h : sdk.Genuine observations)
    (hused : sdk.queryResult commit height entry = some true) :
  ∃ o, sdk.recordQuery commit height observations entry entry.1 = some o ∧ o.used = true
  := by
  rcases recordQuery_cases sdk commit height observations entry with ⟨hsame, hold⟩ | ⟨used, hresult, -, hupdate⟩
  · rw [hsame]
    obtain ⟨old, hmem, hstands⟩ := hold true hused
    refine ⟨old, hmem, ?_⟩
    by_contra hunused
    rw [Bool.not_eq_true] at hunused
    rcases hstands with hstands | hlt
    · rw [hunused] at hstands
      cases hstands
    · have hlater := sdk.usedAt_mono entry.1 height old.height (Nat.le_of_lt hlt)
        (queryResult_genuine hheader hused).symm
      rw [h entry.1 old hmem hunused] at hlater
      cases hlater
  · rw [hused] at hresult
    cases hresult
    rw [hupdate, Function.update_self]
    exact ⟨_, rfl, rfl⟩

/-! ### The queries of a call -/

variable {entries : List (GovKey × Option Query)}

theorem later_recordQueries (key : GovKey) :
  Later (observations key) (entries.foldl (sdk.recordQuery commit height) observations key)
  := by
  induction entries generalizing observations with
  | nil => exact Later.refl
  | cons entry entries ih =>
    rw [List.foldl_cons]
    apply (later_recordQuery sdk commit height entry key).trans ih

theorem genuine_recordQueries {validators : Validators} {now : Int}
    (hheader : sdk.verifyHeader commit validators now = true)
    (h : sdk.Genuine observations) :
  sdk.Genuine (entries.foldl (sdk.recordQuery commit height) observations)
  := by
  induction entries generalizing observations with
  | nil => exact h
  | cons entry entries ih =>
    rw [List.foldl_cons]
    apply ih (genuine_recordQuery hheader h)

theorem used_recordQueries {validators : Validators} {now : Int}
    (hheader : sdk.verifyHeader commit validators now = true)
    (h : sdk.Genuine observations) (hmem : entry ∈ entries)
    (hused : sdk.queryResult commit height entry = some true) :
  ∃ o, entries.foldl (sdk.recordQuery commit height) observations entry.1 = some o
    ∧ o.used = true
  := by
  induction entries generalizing observations with
  | nil => cases hmem
  | cons first entries ih =>
    rw [List.foldl_cons]
    rcases List.mem_cons.mp hmem with rfl | hmem
    · apply (later_recordQueries entry.1).used (used_recordQuery hheader h hused)
    · apply ih (genuine_recordQuery hheader h) hmem

theorem support_recordQueries {keys : List GovKey} (hentries : ∀ e ∈ entries, e.1 ∈ keys)
    (h : ∀ key o, observations key = some o → key ∈ keys) :
  ∀ key o, entries.foldl (sdk.recordQuery commit height) observations key = some o → key ∈ keys
  := by
  induction entries generalizing observations with
  | nil => exact h
  | cons entry entries ih =>
    rw [List.foldl_cons]
    apply ih fun e he => hentries e (List.mem_cons_of_mem _ he)
    intro key o ho
    by_cases hkey : key = entry.1
    · rw [hkey]
      apply hentries entry List.mem_cons_self
    · rw [recordQuery_of_ne hkey] at ho
      apply h key o ho

/-- Queries for other keys change nothing. -/
theorem recordQueries_congr {entries entries' : List (GovKey × Option Query)}
    {observations' : Observations} (hstart : observations key = observations' key)
    (hentries : List.Forall₂ (fun e e' => e = e' ∨ e.1 ≠ key ∧ e'.1 ≠ key) entries entries') :
  entries.foldl (sdk.recordQuery commit height) observations key
    = entries'.foldl (sdk.recordQuery commit height) observations' key
  := by
  induction hentries generalizing observations observations' with
  | nil => exact hstart
  | @cons e e' _ _ he _ ih =>
    rw [List.foldl_cons, List.foldl_cons]
    apply ih
    rcases he with rfl | ⟨hne, hne'⟩
    · by_cases hkey : key = e.1
      · subst hkey
        unfold recordQuery
        rw [hstart]
        cases sdk.queryResult commit height e with
        | none => exact hstart
        | some used =>
          dsimp only
          split_ifs
          · apply hstart
          · rw [Function.update_self, Function.update_self]
      · rw [recordQuery_of_ne hkey, recordQuery_of_ne hkey]
        apply hstart
    · rw [recordQuery_of_ne (Ne.symm hne), recordQuery_of_ne (Ne.symm hne')]
      apply hstart

/-- With another query at a place, every other key keeps its query. -/
theorem forall₂_zip_set {keys : List GovKey} {queries : List (Option Query)} {i : Nat}
    {query : Option Query} (hkey : keys[i]? ≠ some key) :
  List.Forall₂ (fun e e' => e = e' ∨ e.1 ≠ key ∧ e'.1 ≠ key)
    (keys.zip (queries.set i query)) (keys.zip queries)
  := by
  rw [List.forall₂_iff_get]
  refine ⟨by simp, fun j hj hj' => ?_⟩
  have hjkeys : j < keys.length := by
    rw [List.length_zip] at hj
    omega
  simp only [List.get_eq_getElem, List.getElem_zip]
  by_cases hji : i = j
  · subst hji
    right
    rw [List.getElem?_eq_getElem hjkeys] at hkey
    exact ⟨fun heq => hkey (congrArg some heq), fun heq => hkey (congrArg some heq)⟩
  · left
    rw [List.getElem_set_ne hji]

/-! ### The observations of a call -/

/-- What was seen of the keys of the candidates. -/
def retained (cached : Observations) (keys : List GovKey) : Observations :=
  fun key => if key ∈ keys then cached key else none

theorem incrementalObservations_eq_ok {candidates : Candidates} {now : Int}
    {evidence : Evidence Commit Validators Query}
    (h : sdk.incrementalObservations candidates evidence now = .ok observations) :
  ∃ cached keys, evidence.cached = some cached ∧ evidence.queryKeys = some keys
    ∧ (∀ k ∈ keys, k ∈ candidates.keys)
    ∧ (keys = [] ∧ observations = retained cached candidates.keys
      ∨ ∃ commit validators queries, evidence.commit = some commit
        ∧ evidence.validators = some validators
        ∧ sdk.verifyHeader commit validators now = true
        ∧ evidence.queries = some queries ∧ keys.length = queries.length
        ∧ observations = (keys.zip queries).foldl
          (sdk.recordQuery commit (sdk.height commit - 1)) (retained cached candidates.keys))
  := by
  simp only [incrementalObservations, bind_eq_ok, okOr_eq_ok, ensure_eq_ok] at h
  obtain ⟨cached, hcached, keys, hkeys, _, ⟨-, hsubset, -⟩, h⟩ := h
  refine ⟨cached, keys, hcached, hkeys, hsubset, ?_⟩
  by_cases hempty : keys = []
  · rw [if_pos hempty] at h
    cases h
    exact Or.inl ⟨hempty, rfl⟩
  · rw [if_neg hempty] at h
    simp only [bind_eq_ok, okOr_eq_ok, ensure_eq_ok] at h
    obtain ⟨commit, hcommit, validators, hvalidators, _, hheader, queries, hqueries, _, hlength,
      _, -, h⟩ := h
    cases h
    exact Or.inr ⟨commit, validators, queries, hcommit, hvalidators, hheader, hqueries, hlength,
      rfl⟩

/-- A query at one place changes only what is seen of its key. -/
theorem incrementalObservations_withQuery {candidates : Candidates} {now : Int} {i : Nat}
    {evidence : Evidence Commit Validators Query} {query : Option Query}
    (h : sdk.incrementalObservations candidates evidence now = .ok observations) :
  ∃ observations',
    sdk.incrementalObservations candidates (evidence.withQuery i query) now = .ok observations'
    ∧ ∀ key, (evidence.queryKeys.getD [])[i]? ≠ some key → observations' key = observations key
  := by
  simp only [incrementalObservations, bind_eq_ok, okOr_eq_ok, ensure_eq_ok] at h ⊢
  obtain ⟨cached, hcached, keys, hkeys, _, hvalid, h⟩ := h
  by_cases hempty : keys = []
  · rw [if_pos hempty] at h
    refine ⟨observations, ⟨cached, hcached, keys, hkeys, (), hvalid, ?_⟩, fun _ _ => rfl⟩
    rw [if_pos hempty]
    apply h
  · rw [if_neg hempty] at h
    simp only [bind_eq_ok, okOr_eq_ok, ensure_eq_ok] at h
    obtain ⟨commit, hcommit, validators, hvalidators, _, hheader, queries, hqueries, _, hlength,
      _, hheight, h⟩ := h
    refine ⟨(keys.zip (queries.set i query)).foldl
        (sdk.recordQuery commit (sdk.height commit - 1)) (retained cached candidates.keys),
      ⟨cached, hcached, keys, hkeys, (), hvalid, ?_⟩, fun key hkey => ?_⟩
    · rw [if_neg hempty]
      simp only [bind_eq_ok, okOr_eq_ok, ensure_eq_ok]
      refine ⟨commit, hcommit, validators, hvalidators, (), hheader, queries.set i query, ?_, (),
        ?_, (), hheight, rfl⟩
      · rw [Evidence.withQuery, hqueries, Option.map_some]
      · rw [List.length_set]
        apply hlength
    · cases h
      rw [hkeys, Option.getD_some] at hkey
      apply recordQueries_congr rfl
      apply forall₂_zip_set hkey

/-- What a call for the keys of a selection has seen, from what was seen before. -/
structure Sees (sdk : VotingSdk Commit Validators Query AppHash) (keys : List GovKey)
    (before after : Observations) (used : List GovKey) : Prop where
  genuine : sdk.Genuine after
  support : ∀ key o, after key = some o → key ∈ keys
  later : ∀ key, Later (before key) (after key)
  used : ∀ key ∈ used, ∃ o, after key = some o ∧ o.used = true

theorem incrementalObservations_sees {candidates : Candidates} {now : Int}
    {evidence : Evidence Commit Validators Query} {before : Observations}
    (hgenuine : sdk.Genuine before)
    (hsupport : ∀ key o, before key = some o → key ∈ candidates.keys)
    (hcached : evidence.cached = some before)
    (h : sdk.incrementalObservations candidates evidence now = .ok observations) :
  sdk.Sees candidates.keys before observations (sdk.verifiedUsed evidence)
  := by
  obtain ⟨cached, keys, hcached', hkeys, hsubset, hcases⟩ := incrementalObservations_eq_ok h
  rw [hcached] at hcached'
  cases hcached'
  have hretained : retained before candidates.keys = before := by
    funext key
    rw [retained]
    split_ifs with hmem
    · rfl
    · cases hbefore : before key with
      | none => rfl
      | some o => exact absurd (hsupport key o hbefore) hmem
  rw [hretained] at hcases
  rcases hcases with ⟨rfl, rfl⟩ | ⟨commit, validators, queries, hcommit, -, hheader, hqueries, -,
    rfl⟩
  · refine ⟨hgenuine, hsupport, fun _ => Later.refl, fun key hkey => ?_⟩
    rw [verifiedUsed, hkeys] at hkey
    split at hkey <;> cases hkey
  · refine ⟨genuine_recordQueries hheader hgenuine, fun key o ho => ?_, later_recordQueries,
      fun key hkey => ?_⟩
    · apply support_recordQueries _ hsupport key o ho
      exact fun entry hentry => hsubset _ (List.of_mem_zip hentry).1
    · rw [verifiedUsed, hcommit, hkeys, hqueries] at hkey
      obtain ⟨entry, hentry, rfl⟩ := List.mem_map.mp hkey
      obtain ⟨hmem, hused⟩ := List.mem_filter.mp hentry
      apply used_recordQueries hheader hgenuine hmem (of_decide_eq_true hused)

/-! ### Confirmed keys -/

/-- Keys that are confirmed count as seen used. -/
theorem Sees.withConfirmed {keys confirmed used : List GovKey} {before after : Observations}
    (h : sdk.Sees keys before after used) (hconfirmed : ∀ key ∈ confirmed, key ∈ keys) :
  sdk.Sees keys before (withConfirmed after confirmed) (used ++ confirmed)
  := by
  induction confirmed generalizing after used with
  | nil =>
    rw [List.append_nil]
    apply h
  | cons first confirmed ih =>
    have hfirst : sdk.Sees keys before (Function.update after first (some ⟨true, 0⟩))
        (used ++ [first]) := by
      refine ⟨fun key o ho hunused => ?_, fun key o ho => ?_, fun key => ?_, fun key hkey => ?_⟩
      · by_cases hkey : key = first
        · subst hkey
          rw [Function.update_self] at ho
          cases ho
          cases hunused
        · rw [Function.update_of_ne hkey] at ho
          apply h.genuine key o ho hunused
      · by_cases hkey : key = first
        · rw [hkey]
          apply hconfirmed first List.mem_cons_self
        · rw [Function.update_of_ne hkey] at ho
          apply h.support key o ho
      · by_cases hkey : key = first
        · subst hkey
          rw [Function.update_self]
          exact fun _ _ => ⟨_, rfl, nofun⟩
        · rw [Function.update_of_ne hkey]
          apply h.later key
      · by_cases hfirst : key = first
        · subst hfirst
          rw [Function.update_self]
          exact ⟨_, rfl, rfl⟩
        · rw [Function.update_of_ne hfirst]
          apply h.used
          rcases List.mem_append.mp hkey with hkey | hkey
          · apply hkey
          · exact absurd (List.mem_singleton.mp hkey) hfirst
    have hrest := ih hfirst fun key hkey => hconfirmed key (List.mem_cons_of_mem _ hkey)
    rw [List.append_assoc, List.singleton_append] at hrest
    apply hrest

/-- Confirmed keys keep what agrees elsewhere in agreement. -/
theorem withConfirmed_congr {confirmed : List GovKey} {observations' : Observations}
    (h : observations' key = observations key) :
  withConfirmed observations' confirmed key = withConfirmed observations confirmed key
  := by
  induction confirmed generalizing observations observations' with
  | nil => exact h
  | cons first confirmed ih =>
    apply ih
    dsimp only
    by_cases hkey : key = first
    · subst hkey
      rw [Function.update_self, Function.update_self]
    · rw [Function.update_of_ne hkey, Function.update_of_ne hkey]
      apply h

theorem mem_keys_of_mem_confirmedKeys {account round : String} {notes : List NoteInfo}
    {keys : List GovKey} (h : key ∈ confirmedKeys db account round notes keys) :
  key ∈ keys
  := by
  obtain ⟨b, -, hkey⟩ := List.mem_flatMap.mp h
  dsimp only at hkey
  split_ifs at hkey
  · cases hkey
  · obtain ⟨n, -, hkey⟩ := List.mem_filterMap.mp hkey
    obtain ⟨j, -, hj⟩ := Option.bind_eq_some_iff.mp hkey
    apply List.mem_of_getElem? hj

/-! ### Notes -/

/-- What stands first, or further on, keeps a note of its nullifier. -/
theorem exists_mem_destutter' {first n : NoteInfo} {rest : List NoteInfo}
    (h : n ∈ first :: rest) :
  ∃ m ∈ rest.destutter' (fun a b : NoteInfo => a.nullifier ≠ b.nullifier) first,
    m.nullifier = n.nullifier
  := by
  induction rest generalizing first n with
  | nil =>
    rw [List.mem_singleton] at h
    exact ⟨first, List.mem_singleton_self first, congrArg NoteInfo.nullifier h.symm⟩
  | cons second rest ih =>
    by_cases hne : first.nullifier ≠ second.nullifier
    · rw [List.destutter'_cons, if_pos hne]
      rcases List.mem_cons.mp h with rfl | h
      · exact ⟨n, List.mem_cons_self, rfl⟩
      · obtain ⟨m, hm, hmn⟩ := ih h
        exact ⟨m, List.mem_cons_of_mem _ hm, hmn⟩
    · rw [List.destutter'_cons, if_neg hne]
      rw [ne_eq, not_not] at hne
      rcases List.mem_cons.mp h with rfl | h
      · apply ih List.mem_cons_self
      · rcases List.mem_cons.mp h with rfl | h
        · rw [← hne]
          apply ih List.mem_cons_self
        · apply ih (List.mem_cons_of_mem _ h)

theorem exists_mem_dedupByNullifier {notes : List NoteInfo} {n : NoteInfo} (h : n ∈ notes) :
  ∃ m ∈ dedupByNullifier notes, m.nullifier = n.nullifier
  := by
  cases notes with
  | nil => cases h
  | cons first rest => exact exists_mem_destutter' h

theorem exists_mem_sortedNotes {selection : Selection} {n : NoteInfo}
    (h : n ∈ selection.notes) :
  ∃ m ∈ sortedNotes selection, m.nullifier = n.nullifier
  := exists_mem_dedupByNullifier ((List.mem_insertionSort _).mpr h)

/-- A note that was not seen unused is excluded. -/
theorem mem_excludedBy {n : NoteInfo} (hn : n ∈ selection.notes)
    (h : ¬SeenUnused sdk observations n) :
  n.nullifier ∈ sdk.excludedBy (sortedNotes selection) observations
  := by
  obtain ⟨m, hm, hmn⟩ := exists_mem_sortedNotes hn
  rw [← hmn]
  apply List.mem_map_of_mem
  rw [List.mem_filter, decide_eq_true_eq]
  refine ⟨hm, fun hunused => h ?_⟩
  obtain ⟨o, ho, hfalse⟩ := Option.map_eq_some_iff.mp hunused
  rw [hmn] at ho
  exact ⟨o, ho, hfalse⟩

end VotingSdk

/-! ### Stored exclusions -/

namespace VotingDb

/-- An evaluation is told whether the round has bundles. -/
theorem saveExclusions_snd {account round : String} {snapshot : Nat} {excluded : List Nat} :
  (db.saveExclusions account round snapshot excluded).2
    = decide (db.roundBundles account round ≠ [])
  := by
  rw [saveExclusions]
  by_cases h : db.roundBundles account round ≠ []
  · rw [if_pos h, decide_eq_true h]
  · rw [if_neg h, decide_eq_false h]

theorem exclusions_saveExclusions_of_bundles {account round : String} {snapshot : Nat}
    {excluded : List Nat} (h : db.roundBundles account round ≠ []) (walletId roundId : String)
    (height : Nat) :
  (db.saveExclusions account round snapshot excluded).1.exclusions walletId roundId height
    = db.exclusions walletId roundId height
  := by
  rw [saveExclusions]
  rw [if_pos h]
  unfold exclusions
  cases db.participation <;> rfl

theorem exclusions_saveExclusions {account round : String} {snapshot : Nat}
    {excluded : List Nat} (h : ¬db.roundBundles account round ≠ []) :
  (db.saveExclusions account round snapshot excluded).1.exclusions account round snapshot
    = some excluded
  := by
  rw [saveExclusions]
  rw [if_neg h, exclusions]
  dsimp only
  rw [Option.bind_some, Table.upsert, List.find?_append, List.find?_eq_none.mpr]
  · simp
  · intro row hrow hsame
    rw [decide_eq_true_eq] at hsame
    obtain ⟨-, hother⟩ := Table.mem_deleteWhere.mp hrow
    simp [hsame.1, hsame.2.1] at hother

end VotingDb

/-! ### An evaluation -/

namespace VotingSdk

/-- The keys of the notes of a selection. -/
def selectionKeys (sdk : VotingSdk Commit Validators Query AppHash) (selection : Selection) :
    List GovKey :=
  (sortedNotes selection).map fun n => sdk.govKey n.nullifier

theorem notes_eq_ok {fullyScanned : Nat} {notes : List NoteInfo} {candidates : Candidates}
    (h : sdk.notes selection db fullyScanned = .ok (notes, candidates)) :
  notes = sortedNotes selection
    ∧ candidates.keys = sdk.selectionKeys selection
    ∧ candidates.confirmed = confirmedKeys db selection.account selection.round
      (sortedNotes selection) (sdk.selectionKeys selection)
  := by
  simp only [VotingSdk.notes, bind_eq_ok, ensure_eq_ok, pure_eq_ok] at h
  obtain ⟨_, -, _, -, h⟩ := h
  cases h
  exact ⟨rfl, rfl, rfl⟩

/-- An evaluation sees what the evidence shows of the keys of the notes, and confirms keys. -/
theorem observe_eq_ok {notes : List NoteInfo} {eligible : Bool}
    (h : sdk.observe selection db request = .ok (notes, observations, eligible)) :
  notes = sortedNotes selection
    ∧ ∃ candidates evidence seen, candidates.keys = sdk.selectionKeys selection
      ∧ candidates.confirmed = confirmedKeys db selection.account selection.round
        (sortedNotes selection) (sdk.selectionKeys selection)
      ∧ request.evidence = some evidence
      ∧ sdk.incrementalObservations candidates evidence request.now = .ok seen
      ∧ sdk.notes selection db request.fullyScanned = .ok (notes, candidates)
      ∧ observations = withConfirmed seen candidates.confirmed
  := by
  simp only [observe, bind_eq_ok, okOr_eq_ok, ensure_eq_ok] at h
  obtain ⟨⟨_, candidates⟩, hnotes, evidence, hevidence, _, -, seen, hseen, _, -, h⟩ := h
  obtain ⟨rfl, hkeys, hconfirmed⟩ := notes_eq_ok hnotes
  have hshape : (sortedNotes selection, withConfirmed seen candidates.confirmed, eligible)
      = (notes, observations, eligible) := by
    split_ifs at h
    · simp only [bind_eq_ok, pure_eq_ok] at h
      obtain ⟨_, -, h⟩ := h
      cases h
      rfl
    · simp only [bind_eq_ok, pure_eq_ok] at h
      obtain ⟨_, -, h⟩ := h
      cases h
      rfl
  cases hshape
  exact ⟨rfl, candidates, evidence, seen, hkeys, hconfirmed, hevidence, hseen, hnotes, rfl⟩

/-- What an evaluation has seen before it stores anything. -/
theorem observe_sees {before : Observations} {notes : List NoteInfo} {eligible : Bool}
    (hgenuine : sdk.Genuine before)
    (hsupport : ∀ key o, before key = some o → key ∈ sdk.selectionKeys selection)
    (h : sdk.observe selection db (request.fed before) = .ok (notes, observations, eligible)) :
  sdk.Sees (sdk.selectionKeys selection) before observations
    (sdk.usedIn selection db (request.fed before))
  := by
  obtain ⟨-, candidates, evidence, seen, hkeys, hconfirmed, hevidence, hseen, -, rfl⟩ :=
    observe_eq_ok h
  have hcached : evidence.cached = some before := by
    obtain ⟨_, -, rfl⟩ := Option.map_eq_some_iff.mp hevidence
    rfl
  rw [← hkeys] at hsupport
  have hsees := incrementalObservations_sees hgenuine hsupport hcached hseen
  rw [hkeys] at hsees
  rw [hconfirmed, usedIn, hevidence]
  apply hsees.withConfirmed fun key hkey => mem_keys_of_mem_confirmedKeys hkey

end VotingSdk

/-! ### Runs -/

/-- What holds of every world of a run from a database. -/
structure Sound (sdk : VotingSdk Commit Validators Query AppHash) (selection : Selection)
    (db : VotingDb) (w : World) : Prop where
  genuine : sdk.Genuine w.observations
  support : ∀ key o, w.observations key = some o → key ∈ sdk.selectionKeys selection
  used : ∀ key ∈ w.knownUsed, ∃ o, w.observations key = some o ∧ o.used = true
  stored : w.db.exclusions selection.account selection.round selection.snapshot
    = (w.storedFrom.map (sdk.excludedBy (VotingSdk.sortedNotes selection))).or
      (db.exclusions selection.account selection.round selection.snapshot)

/-- An evaluation that succeeds has made its observations. -/
theorem observe_of_evaluate {db' : VotingDb} {evaluation : VotingSdk.Evaluation}
    (h : sdk.evaluate selection db request = (db', .ok evaluation)) :
  ∃ notes eligible,
    sdk.observe selection db request = .ok (notes, evaluation.observations, eligible)
  := by
  rw [VotingSdk.evaluate] at h
  split at h
  · cases h
  case _ notes observations eligible hobserve =>
    split at h
    · cases h
    · cases h
      exact ⟨notes, eligible, hobserve⟩

/-- An evaluation that succeeds. -/
theorem evaluate_eq_ok {before : Observations} {db' : VotingDb}
    {evaluation : VotingSdk.Evaluation} (hgenuine : sdk.Genuine before)
    (hsupport : ∀ key o, before key = some o → key ∈ sdk.selectionKeys selection)
    (h : sdk.evaluate selection db (request.fed before) = (db', .ok evaluation)) :
  sdk.Sees (sdk.selectionKeys selection) before evaluation.observations
      (sdk.usedIn selection db (request.fed before))
    ∧ (db', evaluation.localState) = db.saveExclusions selection.account selection.round
      selection.snapshot (sdk.excludedBy (VotingSdk.sortedNotes selection)
        evaluation.observations)
  := by
  rw [VotingSdk.evaluate] at h
  split at h
  · cases h
  case _ notes observations eligible hobserve =>
    obtain ⟨rfl, -⟩ := VotingSdk.observe_eq_ok hobserve
    have hsees := VotingSdk.observe_sees hgenuine hsupport hobserve
    split at h
    · cases h
    · cases h
      exact ⟨hsees, rfl⟩

/-- What an evaluation has seen of a key, it sees with another query at the place of another
key. -/
theorem evaluate_withQuery {evidence : Evidence Commit Validators Query} {i : Nat}
    {query : Option Query} {db' db'' : VotingDb} {evaluation evaluation' : VotingSdk.Evaluation}
    (hevidence : request.evidence = some evidence)
    (h : sdk.evaluate selection db request = (db', .ok evaluation))
    (h' : sdk.evaluate selection db
        { request with evidence := some (evidence.withQuery i query) } = (db'', .ok evaluation'))
    (hkey : (evidence.queryKeys.getD [])[i]? ≠ some key) :
  evaluation'.observations key = evaluation.observations key
  := by
  obtain ⟨notes, eligible, hobserve⟩ := observe_of_evaluate h
  obtain ⟨notes', eligible', hobserve'⟩ := observe_of_evaluate h'
  obtain ⟨rfl, candidates, _, seen, -, -, hsame, hseen, hnotes, hobservations⟩ :=
    VotingSdk.observe_eq_ok hobserve
  obtain ⟨rfl, candidates', _, seen', -, -, hsame', hseen', hnotes', hobservations'⟩ :=
    VotingSdk.observe_eq_ok hobserve'
  rw [hevidence] at hsame
  cases hsame
  cases hsame'
  rw [hnotes] at hnotes'
  cases hnotes'
  obtain ⟨other, hother, hagree⟩ := VotingSdk.incrementalObservations_withQuery hseen
  rw [hother] at hseen'
  cases hseen'
  rw [hobservations, hobservations']
  apply VotingSdk.withConfirmed_congr (hagree key hkey)

theorem isolates :
  Isolates sdk selection db
  := by
  constructor
  · intro candidates evidence now observations i query h
    apply VotingSdk.incrementalObservations_withQuery h
  · intro request evidence i query hevidence db' evaluation h db'' evaluation' h' key hkey
    apply evaluate_withQuery hevidence h h' hkey

/-- An evaluation that fails leaves the database as it is. -/
theorem evaluate_eq_error {db' : VotingDb} {e : String}
    (h : sdk.evaluate selection db request = (db', .error e)) :
  db' = db
  := by
  rw [VotingSdk.evaluate] at h
  split at h
  · cases h
    rfl
  · split at h
    · cases h
      rfl
    · cases h

theorem Sound.step (hw : Sound sdk selection db w) (op : Op Commit Validators Query) :
  Sound sdk selection db (step sdk selection w op)
    ∧ Keeps selection w (step sdk selection w op) op
  := by
  cases op with
  | plan bundles =>
    refine ⟨⟨hw.genuine, hw.support, hw.used, hw.stored⟩, fun key o ho => ?_, nofun⟩
    exact ⟨o, ho, fun hunused => ⟨hunused, Nat.le_refl _⟩⟩
  | evaluate request =>
    rw [Voting.step]
    split
    case _ db' evaluation h =>
      obtain ⟨hsees, hsaved⟩ := evaluate_eq_ok hw.genuine hw.support h
      have hdb := congrArg Prod.fst hsaved
      have hlocal := congrArg Prod.snd hsaved
      dsimp only at hdb hlocal
      rw [VotingDb.saveExclusions_snd] at hlocal
      refine ⟨⟨hsees.genuine, hsees.support, fun key hkey => ?_, ?_⟩, hsees.later, ?_⟩
      · rcases List.mem_append.mp hkey with hkey | hkey
        · apply hsees.used key hkey
        · apply (hsees.later key).used (hw.used key hkey)
      · by_cases hbundles : w.db.roundBundles selection.account selection.round ≠ []
        · rw [decide_eq_true hbundles] at hlocal
          dsimp only
          rw [if_pos hlocal, hdb, VotingDb.exclusions_saveExclusions_of_bundles hbundles]
          apply hw.stored
        · rw [decide_eq_false hbundles] at hlocal
          dsimp only
          rw [if_neg (Bool.eq_false_iff.mp hlocal), hdb,
            VotingDb.exclusions_saveExclusions hbundles]
          rfl
      · rintro _ - hbundles snapshot
        dsimp only
        rw [hdb]
        apply VotingDb.exclusions_saveExclusions_of_bundles hbundles _ _ _
    case _ db' e h =>
      cases evaluate_eq_error h
      refine ⟨⟨hw.genuine, hw.support, hw.used, hw.stored⟩, fun key o ho => ?_,
        fun _ _ _ _ => rfl⟩
      exact ⟨o, ho, fun hunused => ⟨hunused, Nat.le_refl _⟩⟩

theorem sound_start :
  Sound sdk selection db { db := db }
  := ⟨nofun, nofun, nofun, rfl⟩

theorem sound_after (ops : List (Op Commit Validators Query)) :
  Sound sdk selection db (after (step sdk selection) { db := db } ops)
  := invariant (C := fun _ _ => True) (fun _ op hw _ => (hw.step op).1) sound_start
    (along_of_forall fun _ _ _ => trivial)

theorem Sound.remembers (hw : Sound sdk selection db w) :
  Remembers sdk selection db w
  := by
  have hexcluded : ∀ observations, w.storedFrom = some observations →
      w.db.exclusions selection.account selection.round selection.snapshot
        = some (sdk.excludedBy (VotingSdk.sortedNotes selection) observations) := by
    intro observations hstored
    rw [hw.stored, hstored, Option.map_some, Option.some_or]
  refine ⟨hw.used, fun observations hstored => ?_, fun observations hstored notes hnotes n hn => ?_,
    fun hstored => ?_⟩
  · exact ⟨_, hexcluded observations hstored, fun n => VotingSdk.mem_excludedBy⟩
  · rw [VotingDb.filterNotes, hexcluded observations hstored] at hn
    obtain ⟨hmem, hkept⟩ := List.mem_filter.mp hn
    rw [decide_eq_true_eq] at hkept
    by_contra hunseen
    apply hkept (VotingSdk.mem_excludedBy (hnotes n hmem) hunseen)
  · rw [hw.stored, hstored, Option.map_none, Option.none_or]

/-- In every run of evaluations from any database, each with the observations of the one
before, used keys stay used, the notes that remain under the exclusions of an evaluation are
those that it saw unused, every operation keeps the heights of unused keys and the exclusions
of a round with bundles, and a query changes nothing of the keys of other queries. -/
theorem never_forgets (sdk : VotingSdk Commit Validators Query AppHash) (selection : Selection)
    (db : VotingDb) (ops : List (Op Commit Validators Query)) :
  Remembers sdk selection db (after (step sdk selection) { db := db } ops)
    ∧ (∀ op, Keeps selection (after (step sdk selection) { db := db } ops)
        (step sdk selection (after (step sdk selection) { db := db } ops) op) op)
    ∧ Isolates sdk selection (after (step sdk selection) { db := db } ops).db
  := by
  have hsound : Sound sdk selection db _ := sound_after ops
  exact ⟨hsound.remembers, fun op => (hsound.step op).2, isolates⟩

/-! ### A round that has bundles already -/

/-- A vote chain on which the key 8 is used from height 10 on. -/
def sampleSdk : VotingSdk Nat Unit Unit Unit where
  govKey := id
  fingerprint := fun _ => "keys"
  validPolicy := fun _ => true
  eligible := fun _ _ => some true
  height := id
  appHash := fun _ => ()
  verifyHeader := fun _ _ _ => true
  verifyQuery := fun _ key _ height => some (key = 8 ∧ 10 ≤ height)
  usedAt := fun key height => key = 8 ∧ 10 ≤ height
  usedAt_mono := by
    intro key h h' hle hused
    rw [decide_eq_true_eq] at hused ⊢
    exact ⟨hused.1, hused.2.trans hle⟩
  genuine := by
    intro _ _ _ _ _ _ _ _ hquery
    exact (Option.some.inj hquery).symm

def sampleSelection : Selection where
  account := "account"
  round := "round"
  snapshot := 5
  notes := [⟨7, 0, 1⟩, ⟨8, 1, 1⟩]

/-- The round has been planned. -/
def samplePlan : Op Nat Unit Unit :=
  .plan [⟨"account", "round", none, [0], fun _ => true⟩]

/-- An evaluation that could ask about the key 8 only. -/
def sampleRequest : VotingSdk.Request Nat Unit Unit where
  fullyScanned := 9
  fingerprint := "keys"
  evidence := some ⟨100, none, some [8], some 11, some (), some [some ()]⟩
  now := 0
  maxRealNotes := none
  stores := true

/-- After an evaluation of a round that has bundles, the notes of the round hold one that was
seen used and one that was not seen. -/
theorem sampleRequest_not_filtered :
  ∃ db evaluation,
    sampleSdk.evaluate sampleSelection
        (after (step sampleSdk sampleSelection) { db := {} } [samplePlan]).db
        (sampleRequest.fed fun _ => none) = (db, .ok evaluation)
      ∧ evaluation.observations 8 = some ⟨true, 10⟩
      ∧ ∀ n ∈ sampleSelection.notes,
        n ∈ db.filterNotes sampleSelection.account sampleSelection.round sampleSelection.snapshot
          sampleSelection.notes
        ∧ ¬SeenUnused sampleSdk evaluation.observations n
  := by
  refine ⟨_, _, rfl, rfl, fun n hn => ⟨hn, ?_⟩⟩
  rintro ⟨o, ho, hunused⟩
  rcases List.mem_cons.mp hn with rfl | hn
  · cases ho
  · obtain rfl := List.mem_singleton.mp hn
    cases ho
    cases hunused

end Voting

end Vizor
