import Vizor.AddressBook.Contacts
import Mathlib.Data.List.Sort

/-!
# Updates of the address book

Contacts are added, updated, removed and imported.  A call copies the list that is held in
memory, waits until its own list is stored, and then publishes that list in memory.  Several
calls can wait at once.
-/

namespace Vizor

namespace AddressBook

/-! ### Sorting -/

/-- A contact may come before another. -/
def Contact.Precedes (a b : Contact) : Prop :=
  a.network.index < b.network.index
    ∨ a.network.index = b.network.index ∧ a.createdAtMs ≤ b.createdAtMs

instance (a b : Contact) : Decidable (a.Precedes b) :=
  inferInstanceAs (Decidable (_ ∨ _))

/-- `_sortedContacts`: contacts with the same network and time come in some order. -/
structure ContactSort where
  sortedContacts : List Contact → List Contact
  perm : ∀ contacts, (sortedContacts contacts).Perm contacts
  pairwise : ∀ contacts, (sortedContacts contacts).Pairwise Contact.Precedes

/-- Sorting by insertion. -/
def ContactSort.insertion : ContactSort where
  sortedContacts := List.insertionSort Contact.Precedes
  perm := List.perm_insertionSort _
  pairwise := by
    have htotal : Std.Total Contact.Precedes := by
      constructor
      intro a b
      rw [Contact.Precedes, Contact.Precedes]
      omega
    have htrans : IsTrans Contact Contact.Precedes := by
      constructor
      intro a b c
      rw [Contact.Precedes, Contact.Precedes, Contact.Precedes]
      omega
    apply List.pairwise_insertionSort

/-! ### What a call writes into a contact -/

/-- `_cleanLabel`. -/
def cleanLabel (label : Text) : Text :=
  let trimmed := trim label
  if trimmed.length ≤ 20 then trimmed else trimmed.take 20

/-- `normalizedAddressBookAddress`. -/
def normalizedAddressBookAddress (p : LowerCase) (network : AddressBookNetwork)
    (address : Text) : Text :=
  let trimmed := trim address
  if network.isEvm ∨ network = .near then p.toLowerCase trimmed else trimmed

/-- `_contactKey`. -/
def contactKey (p : LowerCase) (contact : Contact) : Text :=
  contact.network.id ++ text ":" ++ normalizedAddressBookAddress p contact.network contact.address

/-- The digits of `toRadixString`. -/
def digits (base n : Nat) : Text :=
  (Nat.toDigits base n).map Char.toNat

/-- What the clock and the random generator answer. -/
structure Draw where
  nowMs : Nat
  microseconds : Nat
  entropy : Nat
  deriving DecidableEq

/-- `_newContactId`. -/
def Draw.newContactId (draw : Draw) : Text :=
  text "contact_" ++ digits 10 draw.microseconds ++ text "_" ++ digits 16 draw.entropy

theorem isWhitespace_digitChar (d : Nat) :
  isWhitespace (Nat.digitChar d).toNat = false
  := by
  by_cases hd : d < 36
  · have hall : ∀ d < 36, isWhitespace (Nat.digitChar d).toNat = false := by
      decide
    apply hall d hd
  · have hstar : Nat.digitChar d = '*' := by
      simp only [Nat.digitChar]
      repeat rw [if_neg (by omega)]
    rw [hstar]
    rfl

theorem mem_toDigitsCore {b fuel n : Nat} {c : Char} {cs : List Char}
    (h : c ∈ Nat.toDigitsCore b fuel n cs) :
  c ∈ cs ∨ ∃ d, c = Nat.digitChar d
  := by
  induction fuel generalizing n cs with
  | zero => exact .inl h
  | succ fuel ih =>
    rw [Nat.toDigitsCore] at h
    have hcons : c ∈ Nat.digitChar (n % b) :: cs → c ∈ cs ∨ ∃ d, c = Nat.digitChar d := by
      intro hc
      obtain hhead | htail := List.mem_cons.mp hc
      · exact .inr ⟨_, hhead⟩
      · exact .inl htail
    split at h
    · apply hcons h
    · obtain hc | hd := ih h
      · apply hcons hc
      · exact .inr hd

/-- A generated id has no white space at its ends. -/
theorem trim_newContactId (draw : Draw) :
  trim draw.newContactId = draw.newContactId
  := by
  apply trim_eq_self
  constructor
  · intro c hc
    cases hc
    rfl
  · intro c hc
    have hne : digits 16 draw.entropy ≠ [] := by
      rw [digits, ne_eq, List.map_eq_nil_iff]
      apply Nat.toDigits_ne_nil
    rw [Draw.newContactId, List.getLast?_append_of_ne_nil _ hne] at hc
    obtain ⟨digit, hdigit, rfl⟩ := List.mem_map.mp (List.mem_of_getLast? hc)
    obtain hnil | ⟨d, rfl⟩ := mem_toDigitsCore hdigit
    · cases hnil
    · apply isWhitespace_digitChar d

theorem newContactId_ne_nil (draw : Draw) :
  draw.newContactId ≠ []
  := List.cons_ne_nil _ _

/-! ### The four updates -/

/-- `addContact`, of the list in memory. -/
def addContact (order : ContactSort) (label : Text) (network : AddressBookNetwork)
    (address profilePictureId : Text) (draw : Draw) (contacts : List Contact) : List Contact :=
  order.sortedContacts (contacts ++ [{
    id := draw.newContactId
    label := cleanLabel label
    network
    address := trim address
    profilePictureId := normalizeProfilePictureId profilePictureId
    createdAtMs := draw.nowMs
    updatedAtMs := draw.nowMs }])

/-- `updateContact`, of the list in memory; `nowMs i` is the time when contact `i` is
updated. -/
def updateContact (order : ContactSort) (id label : Text) (network : AddressBookNetwork)
    (address profilePictureId : Text) (nowMs : Nat → Nat) (contacts : List Contact) :
    List Contact :=
  order.sortedContacts (contacts.mapIdx fun i contact =>
    if contact.id = id then
      { contact with
        label := cleanLabel label
        network
        address := trim address
        profilePictureId := normalizeProfilePictureId profilePictureId
        updatedAtMs := nowMs i }
    else contact)

/-- `removeContact`, of the list in memory. -/
def removeContact (id : Text) (contacts : List Contact) : List Contact :=
  contacts.filter fun contact => contact.id ≠ id

/-- The variables of `importContacts`. -/
structure Import where
  contacts : List Contact
  existingIds : List Text
  existingKeys : List Text
  added : Nat

/-- The variables at the start of the loop. -/
def Import.start (p : LowerCase) (contacts : List Contact) : Import :=
  { contacts
    existingIds := contacts.map (·.id)
    existingKeys := contacts.map (contactKey p)
    added := 0 }

/-- The contact that is added for an imported contact. -/
def importedContact (imported : Contact) (nextId : Text) (nowMs : Nat) : Contact :=
  { id := nextId
    label := cleanLabel imported.label
    network := imported.network
    address := trim imported.address
    profilePictureId := normalizeProfilePictureId imported.profilePictureId
    createdAtMs := if 0 < imported.createdAtMs then imported.createdAtMs else nowMs
    updatedAtMs := if 0 < imported.updatedAtMs then imported.updatedAtMs else nowMs }

/-- The id under which an imported contact is added. -/
def Import.nextId (s : Import) (imported : Contact) (draw : Draw) : Text :=
  let id := trim imported.id
  if id = [] ∨ id ∈ s.existingIds then draw.newContactId else id

/-- A turn of the loop. -/
def Import.turn (p : LowerCase) (s : Import) : Contact × Draw → Import
  | (imported, draw) =>
    if cleanLabel imported.label = [] ∨ trim imported.address = [] then s
    else if contactKey p imported ∈ s.existingKeys then s
    else
      let nextId := s.nextId imported draw
      { contacts := s.contacts ++ [importedContact imported nextId draw.nowMs]
        existingIds := nextId :: s.existingIds
        existingKeys := contactKey p imported :: s.existingKeys
        added := s.added + 1 }

/-- `importContacts`, of the list in memory, with the number of contacts that it returns. -/
def importContacts (order : ContactSort) (p : LowerCase) (imported : List (Contact × Draw))
    (contacts : List Contact) : List Contact × Nat :=
  let s := imported.foldl (Import.turn p) (Import.start p contacts)
  (order.sortedContacts s.contacts, s.added)

/-- A call, with what the clock and the random generator answer it. -/
inductive Request where
  | addContact (label : Text) (network : AddressBookNetwork) (address profilePictureId : Text)
      (draw : Draw)
  | updateContact (id label : Text) (network : AddressBookNetwork)
      (address profilePictureId : Text) (nowMs : Nat → Nat)
  | removeContact (id : Text)
  | importContacts (imported : List (Contact × Draw))

/-- The list that a call makes of the list in memory. -/
def Request.apply (order : ContactSort) (p : LowerCase) (contacts : List Contact) :
    Request → List Contact
  | .addContact label network address profilePictureId draw =>
    AddressBook.addContact order label network address profilePictureId draw contacts
  | .updateContact id label network address profilePictureId nowMs =>
    AddressBook.updateContact order id label network address profilePictureId nowMs contacts
  | .removeContact id => AddressBook.removeContact id contacts
  | .importContacts imported => (AddressBook.importContacts order p imported contacts).1

/-! ### Calls in progress -/

/-- Where a call is: in `_loadedState`, with the list of `state.value` when the call was made;
in `_persist`, before or after its list is stored; or returned. -/
inductive Point where
  | loading (value : Option (List Contact))
  | saving (contacts : List Contact)
  | saved (contacts : List Contact)
  | returned
  deriving DecidableEq

/-- A call. -/
structure Call where
  request : Request
  point : Point

end AddressBook

open AddressBook

/-- The address book: the stored list, the list of `state.value`, the list with which `build`
completed, and the calls in the order in which they were made. -/
structure AddressBook where
  stored : Stored
  value : Option (List Contact)
  built : Option (List Contact)
  calls : List Call

namespace AddressBook

/-- The address book before it is loaded. -/
def start (stored : Stored) : AddressBook :=
  { stored, value := none, built := none, calls := [] }

/-- What happens next: `build` completes, a call is made, a call continues after
`_loadedState`, its list is stored, or it continues after `_persist`. -/
inductive Event where
  | build
  | call (request : Request)
  | loaded (i : Nat)
  | write (i : Nat)
  | publish (i : Nat)

variable (order : ContactSort) (p : LowerCase)

/-- Call `i` is at a point. -/
def setPoint (c : AddressBook) (i : Nat) (call : Call) (point : Point) : AddressBook :=
  { c with calls := c.calls.set i { call with point } }

/-- `build` completes. -/
def build (c : AddressBook) : AddressBook :=
  match c.built with
  | some _ => c
  | none =>
    let contacts := order.sortedContacts (loadContacts p c.stored)
    { c with value := some contacts, built := some contacts }

/-- A call is made. -/
def call (c : AddressBook) (request : Request) : AddressBook :=
  { c with calls := c.calls ++ [{ request, point := .loading c.value }] }

/-- `_loadedState`, which waits for `build` when there was no list. -/
def loadedState (c : AddressBook) (call : Call) : Option (List Contact) :=
  match call.point with
  | .loading value => value.or c.built
  | _ => none

/-- A call continues after `_loadedState`. -/
def loaded (c : AddressBook) (i : Nat) : AddressBook :=
  match c.calls[i]? with
  | some call =>
    match c.loadedState call with
    | some current => c.setPoint i call (.saving (call.request.apply order p current))
    | none => c
  | none => c

/-- The list of a call is stored. -/
def write (c : AddressBook) (i : Nat) : AddressBook :=
  match c.calls[i]? with
  | some call =>
    match call.point with
    | .saving contacts => { c.setPoint i call (.saved contacts) with stored := saveContacts contacts }
    | _ => c
  | none => c

/-- A call continues after `_persist` and returns. -/
def publish (c : AddressBook) (i : Nat) : AddressBook :=
  match c.calls[i]? with
  | some call =>
    match call.point with
    | .saved contacts => { c.setPoint i call .returned with value := some contacts }
    | _ => c
  | none => c

/-- What happens next, happens. -/
def step (c : AddressBook) : Event → AddressBook
  | .build => c.build order p
  | .call request => c.call request
  | .loaded i => c.loaded order p i
  | .write i => c.write i
  | .publish i => c.publish i

end AddressBook

end Vizor
