import Vizor.AddressBook.Updates
import Vizor.Lib.Run

/-!
# No update of the address book is lost

Calls that do not overlap, and whose contacts are read as they were written, act one after the
other on the list that is stored and on the list in memory.  Calls that overlap copy the same
list, and the last of them to be stored replaces what the others wrote.
-/

namespace Vizor

open Run

namespace AddressBook

variable {order : ContactSort} {p : LowerCase} {contacts : List Contact} {request : Request}

/-! ### When an update is read back -/

/-- The label and the address that are written are read back. -/
def Clean (label address : Text) : Prop :=
  (trim (cleanLabel label) = cleanLabel label ∧ cleanLabel label ≠ []) ∧ trim address ≠ []

instance (label address : Text) : Decidable (Clean label address) :=
  inferInstanceAs (Decidable (_ ∧ _))

/-- The labels of the contacts to import are not cut before white space, and the ids that are
generated are new. -/
def Import.Fits (p : LowerCase) (s : Import) (imported : List (Contact × Draw)) : Prop :=
  (∀ x ∈ imported, trim x.1.address ≠ [] → contactKey p x.1 ∉ s.existingKeys
    → trim (cleanLabel x.1.label) = cleanLabel x.1.label)
  ∧ (imported.map fun x => x.2.newContactId).Nodup
  ∧ ∀ x ∈ imported, x.2.newContactId ∉ s.existingIds
    ∧ x.2.newContactId ∉ imported.map fun y => trim y.1.id

instance (s : Import) (imported : List (Contact × Draw)) : Decidable (s.Fits p imported) :=
  inferInstanceAs (Decidable (_ ∧ _ ∧ _))

/-- A call writes contacts that are read back, under new ids. -/
def Request.Fits (p : LowerCase) (contacts : List Contact) : Request → Prop
  | .addContact label _ address _ draw =>
    Clean label address ∧ draw.newContactId ∉ contacts.map (·.id)
  | .updateContact id label _ address _ _ => id ∈ contacts.map (·.id) → Clean label address
  | .removeContact _ => True
  | .importContacts imported => (Import.start p contacts).Fits p imported

instance (contacts : List Contact) : ∀ request : Request, Decidable (request.Fits p contacts)
  | .addContact _ _ _ _ _ => inferInstanceAs (Decidable (_ ∧ _))
  | .updateContact _ _ _ _ _ _ => inferInstanceAs (Decidable (_ → _))
  | .removeContact _ => inferInstanceAs (Decidable True)
  | .importContacts imported =>
    inferInstanceAs (Decidable ((Import.start p contacts).Fits p imported))

/-! ### What an update keeps -/

/-- A list that is read as it was written. -/
def Storable (contacts : List Contact) : Prop :=
  ∀ contact ∈ contacts, contact.Storable

/-- No two contacts have one id. -/
def UniqueIds (contacts : List Contact) : Prop :=
  (contacts.map (·.id)).Nodup

theorem storable_sortedContacts :
  Storable (order.sortedContacts contacts) ↔ Storable contacts
  := by
  apply forall_congr'
  intro contact
  rw [(order.perm contacts).mem_iff]

theorem uniqueIds_sortedContacts :
  UniqueIds (order.sortedContacts contacts) ↔ UniqueIds contacts
  := ((order.perm contacts).map _).nodup_iff

/-- A contact that is written is read back. -/
theorem storable_written {contact : Contact} {label address profilePictureId : Text}
    (hid : trim contact.id = contact.id ∧ contact.id ≠ []) (hclean : Clean label address)
    (hlabel : contact.label = cleanLabel label) (haddress : contact.address = trim address)
    (hpicture : contact.profilePictureId = normalizeProfilePictureId profilePictureId) :
  contact.Storable
  := by
  constructor
  case id => exact hid
  case label =>
    rw [hlabel]
    exact hclean.1
  case address =>
    rw [haddress]
    exact ⟨trim_trim address, hclean.2⟩
  case profilePictureId =>
    rw [hpicture]
    exact normalizeProfilePictureId_normalize profilePictureId

section AddContact

variable {label address profilePictureId : Text} {network : AddressBookNetwork} {draw : Draw}

theorem addContact_storable (h : Storable contacts) (hclean : Clean label address) :
  Storable (addContact order label network address profilePictureId draw contacts)
  := by
  rw [addContact, storable_sortedContacts]
  intro contact hcontact
  obtain hold | hnew := List.mem_append.mp hcontact
  · exact h contact hold
  · rw [List.mem_singleton] at hnew
    subst hnew
    exact storable_written ⟨trim_newContactId draw, newContactId_ne_nil draw⟩ hclean rfl rfl rfl

theorem addContact_uniqueIds (h : UniqueIds contacts)
    (hfresh : draw.newContactId ∉ contacts.map (·.id)) :
  UniqueIds (addContact order label network address profilePictureId draw contacts)
  := by
  rw [addContact, uniqueIds_sortedContacts, UniqueIds, List.map_append, List.map_singleton]
  apply List.Nodup.append h (List.nodup_singleton _)
  rw [List.disjoint_singleton]
  exact hfresh

variable {id : Text} {nowMs : Nat → Nat}

theorem updateContact_storable (h : Storable contacts)
    (hclean : id ∈ contacts.map (·.id) → Clean label address) :
  Storable (updateContact order id label network address profilePictureId nowMs contacts)
  := by
  rw [updateContact, storable_sortedContacts]
  intro contact hcontact
  obtain ⟨i, hi, rfl⟩ := List.mem_mapIdx.mp hcontact
  have hmem := List.getElem_mem hi
  split
  case isTrue hid =>
    have hin : id ∈ contacts.map (·.id) := List.mem_map.mpr ⟨_, hmem, hid⟩
    exact storable_written (h _ hmem).id (hclean hin) rfl rfl rfl
  case isFalse => exact h _ hmem

theorem updateContact_uniqueIds (h : UniqueIds contacts) :
  UniqueIds (updateContact order id label network address profilePictureId nowMs contacts)
  := by
  have hids : ∀ f : Nat → Contact → Contact, (∀ i contact, (f i contact).id = contact.id) →
      (contacts.mapIdx f).map (·.id) = contacts.map (·.id) := by
    intro f hf
    ext i
    rw [List.getElem?_map, List.getElem?_mapIdx, List.getElem?_map, Option.map_map]
    cases contacts[i]? with
    | none => rfl
    | some contact => rw [Option.map_some, Function.comp_apply, hf, Option.map_some]
  rw [updateContact, uniqueIds_sortedContacts, UniqueIds, hids]
  · exact h
  · intro i contact
    split
    · rfl
    · rfl

end AddContact

theorem removeContact_storable {id : Text} (h : Storable contacts) :
  Storable (removeContact id contacts)
  := by
  intro contact hcontact
  apply h contact (List.mem_of_mem_filter hcontact)

theorem removeContact_uniqueIds {id : Text} (h : UniqueIds contacts) :
  UniqueIds (removeContact id contacts)
  := List.Nodup.sublist (List.Sublist.map _ List.filter_sublist) h

/-! ### The loop of an import -/

/-- What holds of the variables of the loop. -/
structure Import.Good (s : Import) : Prop where
  ids : ∀ id, id ∈ s.existingIds ↔ id ∈ s.contacts.map (·.id)
  storable : Storable s.contacts

theorem Import.good_start (h : Storable contacts) :
  (Import.start p contacts).Good
  := ⟨fun _ => Iff.rfl, h⟩

section Turn

variable {s : Import} {imported : Contact} {draw : Draw} {rest : List (Contact × Draw)}

/-- The variables after a contact is added. -/
def Import.add (p : LowerCase) (s : Import) (imported : Contact) (draw : Draw) : Import :=
  { contacts := s.contacts ++ [importedContact imported (s.nextId imported draw) draw.nowMs]
    existingIds := s.nextId imported draw :: s.existingIds
    existingKeys := contactKey p imported :: s.existingKeys
    added := s.added + 1 }

/-- A turn changes nothing, or adds a contact whose key is new. -/
theorem Import.turn_cases (s : Import) (p : LowerCase) (imported : Contact) (draw : Draw) :
  s.turn p (imported, draw) = s
    ∨ s.turn p (imported, draw) = s.add p imported draw
      ∧ cleanLabel imported.label ≠ [] ∧ trim imported.address ≠ []
      ∧ contactKey p imported ∉ s.existingKeys
  := by
  rw [Import.turn]
  split
  case isTrue => exact .inl rfl
  case isFalse hblank =>
    rw [not_or] at hblank
    split
    case isTrue => exact .inl rfl
    case isFalse hkey => exact .inr ⟨rfl, hblank.1, hblank.2, hkey⟩

theorem Import.nextId_cases (s : Import) (imported : Contact) (draw : Draw) :
  s.nextId imported draw = draw.newContactId
    ∨ s.nextId imported draw = trim imported.id ∧ trim imported.id ≠ []
      ∧ trim imported.id ∉ s.existingIds
  := by
  rw [Import.nextId]
  split
  case isTrue => exact .inl rfl
  case isFalse hid =>
    rw [not_or] at hid
    exact .inr ⟨rfl, hid.1, hid.2⟩

theorem Import.nextId_storable :
  trim (s.nextId imported draw) = s.nextId imported draw ∧ s.nextId imported draw ≠ []
  := by
  obtain hnew | ⟨hid, hne, -⟩ := s.nextId_cases imported draw
  · rw [hnew]
    exact ⟨trim_newContactId draw, newContactId_ne_nil draw⟩
  · rw [hid]
    exact ⟨trim_trim imported.id, hne⟩

theorem Import.nextId_not_mem (hfits : s.Fits p ((imported, draw) :: rest)) :
  s.nextId imported draw ∉ s.existingIds
  := by
  obtain hnew | ⟨hid, -, hfresh⟩ := s.nextId_cases imported draw
  · rw [hnew]
    exact (hfits.2.2 _ List.mem_cons_self).1
  · rw [hid]
    exact hfresh

/-- The rest of the contacts fits after a turn. -/
theorem Import.fits_turn (hfits : s.Fits p ((imported, draw) :: rest)) :
  (s.turn p (imported, draw)).Fits p rest
  := by
  obtain ⟨hlabel, hdistinct, hfresh⟩ := hfits
  rw [List.map_cons, List.nodup_cons] at hdistinct
  have hrest : s.Fits p rest := by
    refine ⟨fun x hx => hlabel x (List.mem_cons_of_mem _ hx), hdistinct.2, ?_⟩
    intro x hx
    obtain ⟨hids, htrims⟩ := hfresh x (List.mem_cons_of_mem _ hx)
    rw [List.map_cons, List.mem_cons, not_or] at htrims
    exact ⟨hids, htrims.2⟩
  obtain hsame | ⟨hadd, -, -, -⟩ := s.turn_cases p imported draw
  · rw [hsame]
    exact hrest
  · rw [hadd]
    obtain ⟨hlabels, hnodup, hnews⟩ := hrest
    refine ⟨?_, hnodup, ?_⟩
    · intro x hx haddress hkey
      rw [Import.add, List.mem_cons, not_or] at hkey
      exact hlabels x hx haddress hkey.2
    · intro x hx
      obtain ⟨hids, htrims⟩ := hnews x hx
      refine ⟨?_, htrims⟩
      rw [Import.add, List.mem_cons, not_or]
      refine ⟨?_, hids⟩
      obtain hnew | ⟨hid, -, -⟩ := s.nextId_cases imported draw
      · rw [hnew]
        intro heq
        apply hdistinct.1
        rw [← heq]
        exact List.mem_map_of_mem (f := fun x : Contact × Draw => x.2.newContactId) hx
      · rw [hid]
        intro heq
        obtain ⟨-, hall⟩ := hfresh x (List.mem_cons_of_mem _ hx)
        apply hall
        rw [heq, List.map_cons]
        exact List.mem_cons_self

theorem Import.good_turn (h : s.Good) (hfits : s.Fits p ((imported, draw) :: rest)) :
  (s.turn p (imported, draw)).Good
  := by
  obtain hsame | ⟨hadd, hlabel, haddress, hkey⟩ :=
    s.turn_cases p imported draw
  · rw [hsame]
    exact h
  · rw [hadd]
    constructor
    case ids =>
      intro id
      rw [Import.add, List.map_append, List.mem_cons, List.mem_append, List.map_singleton,
        List.mem_singleton, h.ids id, or_comm]
      rfl
    case storable =>
      intro contact hcontact
      obtain hold | hnew := List.mem_append.mp hcontact
      · exact h.storable contact hold
      · rw [List.mem_singleton] at hnew
        subst hnew
        have htrim := hfits.1 _ List.mem_cons_self haddress hkey
        have hclean : Clean imported.label imported.address := ⟨⟨htrim, hlabel⟩, haddress⟩
        exact storable_written Import.nextId_storable hclean rfl rfl rfl

theorem Import.uniqueIds_turn (h : s.Good) (hunique : UniqueIds s.contacts)
    (hfits : s.Fits p ((imported, draw) :: rest)) :
  UniqueIds (s.turn p (imported, draw)).contacts
  := by
  obtain hsame | ⟨hadd, -⟩ := s.turn_cases p imported draw
  · rw [hsame]
    exact hunique
  · have hnew := Import.nextId_not_mem hfits
    rw [h.ids] at hnew
    rw [hadd, Import.add, UniqueIds, List.map_append, List.map_singleton]
    apply List.Nodup.append hunique (List.nodup_singleton _)
    rw [List.disjoint_singleton]
    exact hnew

/-- The loop keeps the list storable. -/
theorem Import.good_loop (h : s.Good) (hfits : s.Fits p rest) :
  (rest.foldl (Import.turn p) s).Good
  := by
  induction rest generalizing s with
  | nil => exact h
  | cons x rest ih =>
    apply ih
    · exact Import.good_turn h hfits
    · exact Import.fits_turn hfits

/-- The loop keeps the ids unique. -/
theorem Import.uniqueIds_loop (h : s.Good) (hunique : UniqueIds s.contacts)
    (hfits : s.Fits p rest) :
  UniqueIds (rest.foldl (Import.turn p) s).contacts
  := by
  induction rest generalizing s with
  | nil => exact hunique
  | cons x rest ih =>
    apply ih
    · exact Import.good_turn h hfits
    · exact Import.uniqueIds_turn h hunique hfits
    · exact Import.fits_turn hfits

/-- Contacts that are present add nothing. -/
theorem Import.loop_of_present (h : ∀ x ∈ rest, contactKey p x.1 ∈ s.existingKeys) :
  rest.foldl (Import.turn p) s = s
  := by
  induction rest generalizing s with
  | nil => rfl
  | cons x rest ih =>
    rw [List.forall_mem_cons] at h
    obtain hsame | ⟨-, -, -, hkey⟩ := s.turn_cases p x.1 x.2
    · rw [List.foldl_cons, hsame]
      exact ih h.2
    · exact absurd h.1 hkey

end Turn

/-! ### Every update -/

/-- A call that fits leaves a list that is read as it was written. -/
theorem Request.apply_storable (h : Storable contacts) (hfits : request.Fits p contacts) :
  Storable (request.apply order p contacts)
  := by
  cases request with
  | addContact => exact addContact_storable h hfits.1
  | updateContact => exact updateContact_storable h hfits
  | removeContact => exact removeContact_storable h
  | importContacts imported =>
    rw [Request.apply, AddressBook.importContacts, storable_sortedContacts]
    exact (Import.good_loop (Import.good_start h) hfits).storable

/-- A call that fits keeps the ids unique. -/
theorem Request.apply_uniqueIds (h : Storable contacts) (hunique : UniqueIds contacts)
    (hfits : request.Fits p contacts) :
  UniqueIds (request.apply order p contacts)
  := by
  cases request with
  | addContact => exact addContact_uniqueIds hunique hfits.2
  | updateContact => exact updateContact_uniqueIds hunique
  | removeContact => exact removeContact_uniqueIds hunique
  | importContacts imported =>
    rw [Request.apply, AddressBook.importContacts, uniqueIds_sortedContacts]
    exact Import.uniqueIds_loop (Import.good_start h) hunique hfits

/-! ### Calls that do not overlap -/

/-- A call is made when the earlier ones have returned, and fits the list that it copies. -/
def Apart (p : LowerCase) (c : AddressBook) : Event → Prop
  | .call _ => ∀ call ∈ c.calls, call.point = .returned
  | .loaded i => ∀ call ∈ c.calls[i]?, ∀ current ∈ c.loadedState call,
    call.request.Fits p current
  | _ => True

instance (c : AddressBook) : ∀ e : Event, Decidable (c.Apart p e)
  | .call _ => List.decidableBAll _ _
  | .loaded i => inferInstanceAs (Decidable (∀ call ∈ c.calls[i]?, ∀ current ∈ c.loadedState call,
    call.request.Fits p current))
  | .build | .write _ | .publish _ => inferInstanceAs (Decidable True)

variable (order p) in
/-- The list after requests that act one after the other on the list that was stored. -/
def inOrder (stored : Stored) (requests : List Request) : List Contact :=
  requests.foldl (Request.apply order p) (order.sortedContacts (loadContacts p stored))

variable {stored : Stored} {c c' : AddressBook} {done : List Request} {active : Option Call}

@[simp]
theorem inOrder_concat {r : Request} :
  inOrder order p stored (done ++ [r]) = r.apply order p (inOrder order p stored done)
  := by
  rw [inOrder, List.foldl_append]
  rfl

variable (order p) in
/-- Nothing is being stored. -/
def Quiet (stored : Stored) (c : AddressBook) (done : List Request) : Prop :=
  (done = [] → c.stored = stored)
    ∧ (done ≠ [] → loadContacts p c.stored = inOrder order p stored done)

/-- Where the call is that has not returned. -/
inductive Active (order : ContactSort) (p : LowerCase) (stored : Stored) (c : AddressBook)
    (done : List Request) : Option Call → Prop where
  | idle (hquiet : Quiet order p stored c done) : Active order p stored c done none
  | unbuilt {r : Request} (hdone : done = []) (hquiet : Quiet order p stored c done) :
      Active order p stored c done (some { request := r, point := .loading none })
  | loading {r : Request} (hbuilt : c.built ≠ none) (hquiet : Quiet order p stored c done) :
      Active order p stored c done
        (some { request := r, point := .loading (some (inOrder order p stored done)) })
  | saving {r : Request} (hbuilt : c.built ≠ none)
      (hfits : r.Fits p (inOrder order p stored done)) :
      Active order p stored c done
        (some { request := r, point := .saving (inOrder order p stored (done ++ [r])) })
  | saved {r : Request} (hbuilt : c.built ≠ none)
      (hfits : r.Fits p (inOrder order p stored done))
      (hstored : loadContacts p c.stored = inOrder order p stored (done ++ [r])) :
      Active order p stored c done
        (some { request := r, point := .saved (inOrder order p stored (done ++ [r])) })

/-- The requests of `done` have returned, in their order, and at most one call is active. -/
structure Tracks (order : ContactSort) (p : LowerCase) (stored : Stored) (c : AddressBook)
    (done : List Request) (active : Option Call) : Prop where
  calls : c.calls = done.map (fun request => { request, point := .returned }) ++ active.toList
  unbuilt : c.built = none → c.value = none ∧ done = []
  built : ∀ contacts ∈ c.built, contacts = inOrder order p stored []
    ∧ c.value = some (inOrder order p stored done)
  storable : Storable (inOrder order p stored done)
  unique : UniqueIds (inOrder order p stored []) → UniqueIds (inOrder order p stored done)
  active : Active order p stored c done active

theorem tracks_start :
  Tracks order p stored (start stored) [] none
  := by
  constructor
  case calls => rfl
  case unbuilt =>
    intro _
    exact ⟨rfl, rfl⟩
  case built =>
    intro contacts hcontacts
    cases hcontacts
  case storable =>
    apply storable_sortedContacts.mpr
    intro contact hcontact
    exact storable_of_load hcontact
  case unique => exact id
  case active => exact .idle ⟨fun _ => rfl, fun h => absurd rfl h⟩

/-- The active call has not returned. -/
theorem Active.not_returned {call : Call} (h : Active order p stored c done (some call)) :
  call.point ≠ .returned
  := by
  cases h
  all_goals exact Point.noConfusion

/-- A call that has not returned is the active one, and the last. -/
theorem Tracks.getElem? (h : Tracks order p stored c done active) {i : Nat} {call : Call}
    (hi : c.calls[i]? = some call) (hpoint : call.point ≠ .returned) :
  active = some call ∧ i = done.length
  := by
  rw [h.calls] at hi
  obtain hlt | hge := Nat.lt_or_ge i (done.map fun request =>
    ({ request, point := .returned } : Call)).length
  · rw [List.getElem?_append_left hlt, List.getElem?_map, Option.map_eq_some_iff] at hi
    obtain ⟨request, -, rfl⟩ := hi
    exact absurd rfl hpoint
  · rw [List.getElem?_append_right hge, List.length_map] at hi
    cases active with
    | none => cases hi
    | some call' =>
      rw [Option.toList_some, List.getElem?_singleton] at hi
      rw [List.length_map] at hge
      split at hi
      case isTrue hzero =>
        cases hi
        exact ⟨rfl, by omega⟩
      case isFalse => cases hi

/-- The calls when the active one moves. -/
theorem Tracks.setPoint {call : Call} (h : Tracks order p stored c done (some call))
    {point : Point} :
  (c.setPoint done.length call point).calls
    = done.map (fun request => { request, point := .returned }) ++ [{ call with point }]
  := by
  have hlength : done.length
      = (done.map fun request => ({ request, point := .returned } : Call)).length := by
    rw [List.length_map]
  rw [AddressBook.setPoint, h.calls, Option.toList_some, hlength,
    List.set_append_right _ _ (Nat.le_refl _), Nat.sub_self, List.set_cons_zero]

/-- Nothing is being stored before `build` completes. -/
theorem Tracks.stored_of_unbuilt (h : Tracks order p stored c done active)
    (hbuilt : c.built = none) :
  c.stored = stored
  := by
  have hdone := (h.unbuilt hbuilt).2
  cases h.active with
  | idle hquiet => exact hquiet.1 hdone
  | unbuilt _ hquiet => exact hquiet.1 hdone
  | loading hne | saving hne | saved hne => exact absurd hbuilt hne

/-- The list in memory once `build` completed. -/
theorem Tracks.value_of_built (h : Tracks order p stored c done active) (hbuilt : c.built ≠ none) :
  c.value = some (inOrder order p stored done)
  := by
  obtain ⟨contacts, hcontacts⟩ := Option.ne_none_iff_exists'.mp hbuilt
  exact (h.built contacts hcontacts).2

theorem tracks_build (h : Tracks order p stored c done active) :
  Tracks order p stored (c.build order p) done active
  := by
  rw [build]
  split
  case _ => exact h
  case _ hbuilt =>
    obtain ⟨-, rfl⟩ := h.unbuilt hbuilt
    constructor
    case calls => exact h.calls
    case unbuilt =>
      intro hnone
      cases hnone
    case built =>
      intro contacts hcontacts
      cases hcontacts
      dsimp only
      rw [h.stored_of_unbuilt hbuilt]
      exact ⟨rfl, rfl⟩
    case storable => exact h.storable
    case unique => exact h.unique
    case active =>
      cases h.active with
      | idle hquiet => exact .idle hquiet
      | unbuilt hdone hquiet => exact .unbuilt hdone hquiet
      | loading hne | saving hne | saved hne => exact absurd hbuilt hne

theorem tracks_call {r : Request} (h : Tracks order p stored c done active)
    (hapart : c.Apart p (.call r)) :
  ∃ call', Tracks order p stored (c.call r) done (some call')
  := by
  have hidle : active = none ∧ Quiet order p stored c done := by
    cases hactive : active with
    | none =>
      have hnone := h.active
      rw [hactive] at hnone
      cases hnone with
      | idle hquiet => exact ⟨rfl, hquiet⟩
    | some call' =>
      have hsome := h.active
      rw [hactive] at hsome
      have hmem : call' ∈ c.calls := by
        rw [h.calls, hactive]
        exact List.mem_append_right _ List.mem_cons_self
      exact absurd (hapart call' hmem) hsome.not_returned
  obtain ⟨rfl, hquiet⟩ := hidle
  use { request := r, point := .loading c.value }
  constructor
  case calls => rw [call, h.calls, Option.toList_none, List.append_nil, Option.toList_some]
  case unbuilt => exact h.unbuilt
  case built => exact h.built
  case storable => exact h.storable
  case unique => exact h.unique
  case active =>
    by_cases hbuilt : c.built = none
    · obtain ⟨hvalue, hdone⟩ := h.unbuilt hbuilt
      rw [hvalue]
      exact .unbuilt hdone hquiet
    · rw [h.value_of_built hbuilt]
      exact .loading hbuilt hquiet

theorem tracks_loaded {i : Nat} (h : Tracks order p stored c done active)
    (hapart : c.Apart p (.loaded i)) :
  ∃ active', Tracks order p stored (c.loaded order p i) done active'
  := by
  rw [loaded]
  split
  case _ call' hi =>
    split
    case _ current hcurrent =>
      have hpoint : call'.point ≠ .returned := by
        intro hreturned
        rw [loadedState, hreturned] at hcurrent
        cases hcurrent
      obtain ⟨rfl, rfl⟩ := h.getElem? hi hpoint
      have hfits := hapart call' hi current hcurrent
      have hbook : c.built ≠ none ∧ current = inOrder order p stored done := by
        cases h.active with
        | unbuilt hdone =>
          subst hdone
          rw [loadedState] at hcurrent
          dsimp only at hcurrent
          rw [Option.none_or] at hcurrent
          exact ⟨Option.ne_none_iff_exists'.mpr ⟨current, hcurrent⟩, (h.built current hcurrent).1⟩
        | loading hbuilt =>
          cases hcurrent
          exact ⟨hbuilt, rfl⟩
        | saving | saved => cases hcurrent
      obtain ⟨hbuilt, rfl⟩ := hbook
      use some { call' with
        point := .saving (call'.request.apply order p (inOrder order p stored done)) }
      constructor
      case calls => exact h.setPoint
      case unbuilt => exact h.unbuilt
      case built => exact h.built
      case storable => exact h.storable
      case unique => exact h.unique
      case active =>
        rw [← inOrder_concat]
        exact .saving hbuilt hfits
    case _ => exact ⟨active, h⟩
  case _ => exact ⟨active, h⟩

theorem tracks_write {i : Nat} (h : Tracks order p stored c done active) :
  ∃ active', Tracks order p stored (c.write i) done active'
  := by
  rw [write]
  split
  case _ call' hi =>
    split
    case _ contacts hsaving =>
      have hpoint : call'.point ≠ .returned := by
        rw [hsaving]
        exact Point.noConfusion
      obtain ⟨rfl, rfl⟩ := h.getElem? hi hpoint
      cases h.active with
      | unbuilt | loading | saved => cases hsaving
      | @saving r hbuilt hfits =>
        cases hsaving
        use some { request := r, point := .saved (inOrder order p stored (done ++ [r])) }
        constructor
        case calls => exact h.setPoint
        case unbuilt => exact h.unbuilt
        case built => exact h.built
        case storable => exact h.storable
        case unique => exact h.unique
        case active =>
          have hstorable : Storable (inOrder order p stored (done ++ [r])) := by
            rw [inOrder_concat]
            exact Request.apply_storable h.storable hfits
          exact .saved hbuilt hfits (loadContacts_saveContacts hstorable)
    case _ => exact ⟨active, h⟩
  case _ => exact ⟨active, h⟩

theorem tracks_publish {i : Nat} (h : Tracks order p stored c done active) :
  ∃ done' active', Tracks order p stored (c.publish i) done' active'
  := by
  rw [publish]
  split
  case _ call' hi =>
    split
    case _ contacts hsaved =>
      have hpoint : call'.point ≠ .returned := by
        rw [hsaved]
        exact Point.noConfusion
      obtain ⟨rfl, rfl⟩ := h.getElem? hi hpoint
      cases h.active with
      | unbuilt | loading | saving => cases hsaved
      | @saved r hbuilt hfits hstored =>
        cases hsaved
        use done ++ [r], none
        constructor
        case calls =>
          dsimp only
          rw [h.setPoint, List.map_append, Option.toList_none, List.append_nil]
          rfl
        case unbuilt =>
          intro hnone
          exact absurd hnone hbuilt
        case built =>
          intro contacts hcontacts
          exact ⟨(h.built contacts hcontacts).1, rfl⟩
        case storable =>
          rw [inOrder_concat]
          exact Request.apply_storable h.storable hfits
        case unique =>
          intro hunique
          rw [inOrder_concat]
          exact Request.apply_uniqueIds h.storable (h.unique hunique) hfits
        case active =>
          apply Active.idle
          constructor
          · intro hnil
            exact absurd hnil (List.append_ne_nil_of_right_ne_nil _ (List.cons_ne_nil _ _))
          · intro _
            exact hstored
    case _ => exact ⟨done, active, h⟩
  case _ => exact ⟨done, active, h⟩

theorem tracks_step {e : Event} (h : Tracks order p stored c done active) (hapart : c.Apart p e) :
  ∃ done' active', Tracks order p stored (c.step order p e) done' active'
  := by
  cases e with
  | build => exact ⟨done, active, tracks_build h⟩
  | call r =>
    obtain ⟨call', h'⟩ := tracks_call h hapart
    exact ⟨done, some call', h'⟩
  | loaded i => exact ⟨done, tracks_loaded h hapart⟩
  | write i => exact ⟨done, tracks_write h⟩
  | publish i => exact tracks_publish h

/-- When every call has returned, the calls that were made are the ones that acted. -/
theorem Tracks.settled (h : Tracks order p stored c done active)
    (hreturned : ∀ call ∈ c.calls, call.point = .returned) (hcalls : c.calls ≠ []) :
  done = c.calls.map (·.request)
    ∧ c.value = some (inOrder order p stored done)
    ∧ loadContacts p c.stored = inOrder order p stored done
  := by
  cases hactive : active with
  | some call' =>
    have hsome := h.active
    rw [hactive] at hsome
    have hmem : call' ∈ c.calls := by
      rw [h.calls, hactive]
      exact List.mem_append_right _ List.mem_cons_self
    exact absurd (hreturned call' hmem) hsome.not_returned
  | none =>
    have hall := h.calls
    rw [hactive, Option.toList_none, List.append_nil] at hall
    have hdone : done ≠ [] := by
      rintro rfl
      exact hcalls hall
    have hnone := h.active
    rw [hactive] at hnone
    cases hnone with
    | idle hquiet =>
      refine ⟨?_, h.value_of_built ?_, hquiet.2 hdone⟩
      · rw [hall, List.map_map]
        exact (List.map_id done).symm
      · intro hbuilt
        exact hdone (h.unbuilt hbuilt).2

/-- After calls that do not overlap, and whose contacts are read back, the stored list and the
list in memory are what the calls make in their order, and unique ids stay unique.  Contacts
whose keys are present are not imported. -/
theorem no_update_lost {stored : Stored} {events : List Event}
    (h : Along (step order p) (Apart p) (start stored) events) :
  (let c := after (step order p) (start stored) events
   c.calls ≠ [] → (∀ call ∈ c.calls, call.point = .returned) →
    let contacts := inOrder order p stored (c.calls.map (·.request))
    loadContacts p c.stored = contacts ∧ c.value = some contacts
      ∧ (UniqueIds (inOrder order p stored []) → UniqueIds contacts))
  ∧ ∀ contacts imported, (∀ x ∈ imported, contactKey p x.1 ∈ contacts.map (contactKey p)) →
      (importContacts order p imported contacts).2 = 0
        ∧ (importContacts order p imported contacts).1.Perm contacts
  := by
  constructor
  · have hstep : ∀ c e, (∃ done active, Tracks order p stored c done active) → c.Apart p e →
        ∃ done active, Tracks order p stored (c.step order p e) done active := by
      rintro c e ⟨done, active, hc⟩ hapart
      exact tracks_step hc hapart
    obtain ⟨done, active, hc⟩ := invariant hstep ⟨[], none, tracks_start⟩ h
    intro c hcalls hreturned
    obtain ⟨rfl, hvalue, hstored⟩ := hc.settled hreturned hcalls
    exact ⟨hstored, hvalue, hc.unique⟩
  · intro contacts imported hpresent
    have hloop := Import.loop_of_present (s := Import.start p contacts) hpresent
    rw [importContacts, hloop]
    exact ⟨rfl, order.perm contacts⟩

/-- A call of `addContact`. -/
def added (label : String) (microseconds : Nat) : Request :=
  .addContact (text label) .zcash (text "u1abc") defaultProfilePictureId
    { nowMs := 5, microseconds, entropy := 9 }

/-- A run in which every call has returned before the next. -/
def apartEvents : List Event :=
  [.build, .call (added "A" 1), .loaded 0, .write 0, .publish 0, .call (.removeContact (text "x")),
    .loaded 1, .write 1, .publish 1]

theorem no_update_lost_apart :
  let c := after (step .insertion .onAscii) (start none) apartEvents
  loadContacts .onAscii c.stored
      = inOrder .insertion .onAscii none (c.calls.map (·.request))
    ∧ (importContacts .insertion .onAscii [] []).2 = 0
  := by
  have h : Along (step .insertion .onAscii) (Apart .onAscii) (start none) apartEvents := by
    decide +kernel
  obtain ⟨hrun, himport⟩ := no_update_lost h
  have hcalls : (after (step .insertion .onAscii) (start none) apartEvents).calls.map (·.point)
      = [.returned, .returned] := by
    decide +kernel
  refine ⟨(hrun ?_ ?_).1, (himport [] [] ?_).1⟩
  · intro hnil
    rw [hnil] at hcalls
    cases hcalls
  · intro call hcall
    have hpoint := List.mem_map_of_mem (f := Call.point) hcall
    rw [hcalls] at hpoint
    simpa using hpoint
  · intro x hx
    cases hx

/-- A run in which the second call is made before the first has returned. -/
def overlappingEvents : List Event :=
  [.build, .call (added "A" 1), .call (added "B" 2), .loaded 0, .loaded 1, .write 0, .write 1,
    .publish 0, .publish 1]

/-- Of two contacts that are added at once, only the second is left. -/
theorem overlapping_lost :
  let c := after (step .insertion .onAscii) (start none) overlappingEvents
  c.calls.map (·.point) = [.returned, .returned]
    ∧ (loadContacts .onAscii c.stored).map (·.label) = [text "B"]
    ∧ c.value.map (·.map (·.label)) = some [text "B"]
    ∧ ∀ requests, requests.Perm (c.calls.map (·.request)) →
      c.value ≠ some (inOrder .insertion .onAscii none requests)
        ∧ loadContacts .onAscii c.stored ≠ inOrder .insertion .onAscii none requests
  := by
  refine ⟨by decide +kernel, by decide +kernel, by decide +kernel, ?_⟩
  intro requests hperm
  change requests.Perm [added "A" 1, added "B" 2] at hperm
  have hmem : ∀ request ∈ requests, request = added "A" 1 ∨ request = added "B" 2 := by
    intro request hrequest
    simpa using hperm.mem_iff.mp hrequest
  obtain ⟨r, r', rfl⟩ := List.length_eq_two.mp hperm.length_eq
  have hr := hmem r List.mem_cons_self
  have hr' := hmem r' (List.mem_cons_of_mem _ List.mem_cons_self)
  obtain rfl | rfl := hr
  · obtain rfl | rfl := hr'
    · exact ⟨by decide +kernel, by decide +kernel⟩
    · exact ⟨by decide +kernel, by decide +kernel⟩
  · obtain rfl | rfl := hr'
    · exact ⟨by decide +kernel, by decide +kernel⟩
    · exact ⟨by decide +kernel, by decide +kernel⟩

end AddressBook

end Vizor
