import Mathlib.Data.List.DropRight
import Mathlib.Data.List.Perm.Basic

/-!
# Contacts of the address book

A contact is written as a JSON object and read back by a decoder, which trims its fields and
drops contacts that it cannot use.  Contacts that were read are written and read again
unchanged.  Strings are lists of code units.
-/

namespace Vizor

namespace AddressBook

/-! ### Strings -/

/-- A string, by its code units. -/
abbrev Text : Type := List Nat

/-- Strings are compared by their code units. -/
scoped instance lawfulBEq_text : LawfulBEq Text := inferInstance

/-- A literal. -/
def text (s : String) : Text :=
  s.toList.map Char.toNat

/-- White space, with the byte order mark. -/
def isWhitespace (c : Nat) : Bool :=
  (9 ≤ c && c ≤ 13) || c == 0x20 || c == 0x85 || c == 0xA0 || c == 0x1680
    || (0x2000 ≤ c && c ≤ 0x200A) || c == 0x2028 || c == 0x2029 || c == 0x202F || c == 0x205F
    || c == 0x3000 || c == 0xFEFF

/-- `String.trim`. -/
def trim (t : Text) : Text :=
  (t.dropWhile isWhitespace).rdropWhile isWhitespace

/-- An ASCII letter in lower case. -/
def lowerAscii (c : Nat) : Nat :=
  if 65 ≤ c ∧ c ≤ 90 then c + 32 else c

/-- `String.toLowerCase`, of which only its effect on ASCII strings is known here. -/
structure LowerCase where
  toLowerCase : Text → Text
  ascii : ∀ t : Text, (∀ c ∈ t, c < 128) → toLowerCase t = t.map lowerAscii

/-- Lower case of ASCII letters alone. -/
def LowerCase.onAscii : LowerCase where
  toLowerCase t := t.map lowerAscii
  ascii _ _ := rfl

variable {p : LowerCase} {t : Text}

theorem isWhitespace_head_dropWhile {c : Nat} (h : (t.dropWhile isWhitespace).head? = some c) :
  isWhitespace c = false
  := by
  have hne : t.dropWhile isWhitespace ≠ [] := by
    rintro hnil
    rw [hnil] at h
    cases h
  rw [List.head?_eq_some_head hne, Option.some_inj] at h
  rw [← h]
  apply List.head_dropWhile_not isWhitespace hne

/-- A string without white space at its ends. -/
structure Trimmed (t : Text) : Prop where
  head : ∀ c, t.head? = some c → isWhitespace c = false
  last : ∀ c, t.getLast? = some c → isWhitespace c = false

theorem trim_eq_self (h : Trimmed t) :
  trim t = t
  := by
  have hdrop : t.dropWhile isWhitespace = t := by
    cases t with
    | nil => rfl
    | cons c t =>
      rw [List.dropWhile_cons_of_neg]
      rw [h.head c rfl]
      apply Bool.false_ne_true
  rw [trim, hdrop, List.rdropWhile_eq_self_iff]
  intro hne
  have hlast := h.last (t.getLast hne) (List.getLast?_eq_some_getLast hne)
  rw [hlast]
  apply Bool.false_ne_true

/-- A trimmed string has no white space at its ends. -/
theorem trimmed_trim (t : Text) :
  Trimmed (trim t)
  := by
  constructor
  · intro c hc
    apply isWhitespace_head_dropWhile (t := t)
    have hprefix := List.rdropWhile_prefix isWhitespace (t.dropWhile isWhitespace)
    obtain ⟨rest, hrest⟩ := hprefix
    rw [← hrest]
    cases htrim : trim t with
    | nil =>
      rw [htrim] at hc
      cases hc
    | cons d ds =>
      rw [htrim] at hc
      rw [trim] at htrim
      rw [htrim]
      apply hc
  · intro c hc
    have hne : trim t ≠ [] := by
      rintro hnil
      rw [hnil] at hc
      cases hc
    rw [List.getLast?_eq_some_getLast hne, Option.some_inj] at hc
    rw [← hc, ← Bool.not_eq_true]
    apply List.rdropWhile_last_not isWhitespace (t.dropWhile isWhitespace) hne

@[simp]
theorem trim_trim (t : Text) :
  trim (trim t) = trim t
  := trim_eq_self (trimmed_trim t)

/-! ### Networks -/

/-- `AddressBookNetwork`. -/
inductive AddressBookNetwork where
  | zcash | ethereum | base | arbitrum | solana | near | bitcoin | binanceSmartChain | tron | sui
  | aptos | optimism | avalanche | gnosis | polygon | ton | stellar | xLayer | plasma
  | abstractChain | adi | aleo | bitcoinCash | bera | cardano | dash | dogecoin | litecoin
  | monad | scroll | starknet | xrp
  deriving DecidableEq

namespace AddressBookNetwork

/-- The networks in their order. -/
def values : List AddressBookNetwork :=
  [zcash, ethereum, base, arbitrum, solana, near, bitcoin, binanceSmartChain, tron, sui, aptos,
    optimism, avalanche, gnosis, polygon, ton, stellar, xLayer, plasma, abstractChain, adi, aleo,
    bitcoinCash, bera, cardano, dash, dogecoin, litecoin, monad, scroll, starknet, xrp]

/-- The place of a network in their order. -/
def index (network : AddressBookNetwork) : Nat :=
  values.idxOf network

/-- The id under which a network is stored. -/
def id : AddressBookNetwork → Text
  | zcash => text "zec"
  | ethereum => text "eth"
  | base => text "base"
  | arbitrum => text "arb"
  | solana => text "sol"
  | near => text "near"
  | bitcoin => text "btc"
  | binanceSmartChain => text "bsc"
  | tron => text "tron"
  | sui => text "sui"
  | aptos => text "aptos"
  | optimism => text "op"
  | avalanche => text "avax"
  | gnosis => text "gnosis"
  | polygon => text "pol"
  | ton => text "ton"
  | stellar => text "stellar"
  | xLayer => text "xlayer"
  | plasma => text "plasma"
  | abstractChain => text "abs"
  | adi => text "adi"
  | aleo => text "aleo"
  | bitcoinCash => text "bch"
  | bera => text "bera"
  | cardano => text "cardano"
  | dash => text "dash"
  | dogecoin => text "doge"
  | litecoin => text "ltc"
  | monad => text "monad"
  | scroll => text "scroll"
  | starknet => text "starknet"
  | xrp => text "xrp"

/-- Whether addresses of the network have the shared EVM format. -/
def isEvm (network : AddressBookNetwork) : Bool :=
  network ∈ [ethereum, base, arbitrum, optimism, polygon, binanceSmartChain, avalanche, gnosis,
    scroll, xLayer, plasma, abstractChain, monad, bera]

/-- Other names of networks. -/
def aliases : List (Text × Text) :=
  [(text "zcash", text "zec"), (text "ethereum", text "eth"), (text "solana", text "sol"),
    (text "polygon", text "pol"), (text "optimism", text "op"), (text "arbitrum", text "arb"),
    (text "avalanche", text "avax"), (text "usdc", text "eth")]

/-- The network with the id. -/
def tryFromId (p : LowerCase) (id : Text) : Option AddressBookNetwork :=
  let normalized := p.toLowerCase (trim id)
  let name := (aliases.lookup normalized).getD normalized
  values.find? fun network => network.id = name

/-- A network is found under its id. -/
theorem tryFromId_id (network : AddressBookNetwork) :
  tryFromId p network.id = some network
  := by
  have hid : p.toLowerCase (trim network.id) = network.id := by
    rw [p.ascii]
    · cases network <;> decide +kernel
    · cases network <;> decide +kernel
  rw [tryFromId, hid]
  cases network <;> decide +kernel

end AddressBookNetwork

/-! ### Profile pictures -/

/-- `kDefaultProfilePictureId`. -/
def defaultProfilePictureId : Text := text "pfp-01"

/-- The ids of `kProfilePictureOptions`. -/
def profilePictureOptions : List Text :=
  [text "pfp-01", text "pfp-02", text "pfp-03", text "pfp-04", text "pfp-05", text "pfp-06",
    text "pfp-07", text "pfp-08", text "pfp-09", text "pfp-10", text "pfp-11", text "pfp-12",
    text "pfp-13", text "pfp-14", text "pfp-15"]

/-- The two digits of a legacy knight. -/
def legacyKnightVariant (id : Text) : Option Text :=
  match id.splitAt 7 with
  | (knight, [c, d]) =>
    if knight = text "knight-" ∧ 48 ≤ c ∧ c ≤ 57 ∧ 48 ≤ d ∧ d ≤ 57 then some [c, d] else none
  | _ => none

/-- `_legacyProfilePictureIdMap`. -/
def legacyProfilePictureIds : List (Text × Text) :=
  [(text "knight", text "pfp-01"), (text "viking", text "pfp-02"), (text "samurai", text "pfp-03"),
    (text "wizard", text "pfp-11"), (text "chest", defaultProfilePictureId),
    (text "dragon", defaultProfilePictureId), (text "shield-1", defaultProfilePictureId),
    (text "shield-2", defaultProfilePictureId)]

/-- `_knownProfilePictureId`. -/
def knownProfilePictureId (id : Text) : Option Text :=
  let trimmed := trim id
  if trimmed ∈ profilePictureOptions then some trimmed
  else
    match legacyKnightVariant trimmed with
    | some variant =>
      some (([(text "04", text "pfp-04"), (text "05", text "pfp-05")].lookup variant).getD
        defaultProfilePictureId)
    | none => legacyProfilePictureIds.lookup trimmed

/-- The id of `findProfilePictureOption`. -/
def findProfilePictureOption (id : Text) : Option Text :=
  (knownProfilePictureId id).bind fun known => profilePictureOptions.find? fun option =>
    option = known

/-- `normalizeProfilePictureId`, which is the id of `resolveProfilePictureOption`. -/
def normalizeProfilePictureId (id : Text) : Text :=
  (findProfilePictureOption id).getD defaultProfilePictureId

theorem normalizeProfilePictureId_mem (id : Text) :
  normalizeProfilePictureId id ∈ profilePictureOptions
  := by
  rw [normalizeProfilePictureId]
  cases hfind : findProfilePictureOption id with
  | none => exact List.mem_cons_self
  | some option =>
    obtain ⟨known, -, hoption⟩ := Option.bind_eq_some_iff.mp hfind
    apply List.mem_of_find?_eq_some hoption

/-- A normal id is its own. -/
@[simp]
theorem normalizeProfilePictureId_normalize (id : Text) :
  normalizeProfilePictureId (normalizeProfilePictureId id) = normalizeProfilePictureId id
  ∧ trim (normalizeProfilePictureId id) = normalizeProfilePictureId id
  := by
  have hall : ∀ option ∈ profilePictureOptions,
      normalizeProfilePictureId option = option ∧ trim option = option := by
    decide +kernel
  apply hall _ (normalizeProfilePictureId_mem id)

/-! ### Contacts -/

/-- `AddressBookContact`. -/
structure Contact where
  id : Text
  label : Text
  network : AddressBookNetwork
  address : Text
  profilePictureId : Text
  createdAtMs : Int
  updatedAtMs : Int
  deriving DecidableEq

/-- The value of a field of a JSON object. -/
inductive Field where
  | absent
  | string (s : Text)
  | number (n : Int)
  | other
  deriving DecidableEq

/-- The fields of a JSON object that are read. -/
structure JsonContact where
  id : Field
  label : Field
  network : Field
  address : Field
  profilePictureId : Field
  createdAtMs : Field
  updatedAtMs : Field
  deriving DecidableEq

/-- An item of the stored list. -/
inductive JsonItem where
  | map (fields : JsonContact)
  | other
  deriving DecidableEq

/-- The cast `as String?`, which throws on other values. -/
def Field.asString : Field → Option (Option Text)
  | .absent => some none
  | .string s => some (some s)
  | .number _ | .other => none

/-- The cast `as num?`, which throws on other values. -/
def Field.asNumber : Field → Option (Option Int)
  | .absent => some none
  | .number n => some (some n)
  | .string _ | .other => none

/-- `toJson`. -/
def Contact.toJson (contact : Contact) : JsonContact :=
  { id := .string contact.id
    label := .string contact.label
    network := .string contact.network.id
    address := .string contact.address
    profilePictureId := .string contact.profilePictureId
    createdAtMs := .number contact.createdAtMs
    updatedAtMs := .number contact.updatedAtMs }

/-- `tryFromJson`, with no contact where it throws. -/
def tryFromJson (p : LowerCase) (json : JsonContact) : Option Contact := do
  let network ← json.network.asString
  let network ← AddressBookNetwork.tryFromId p ((network.map trim).getD [])
  let id ← json.id.asString
  let label ← json.label.asString
  let address ← json.address.asString
  let profilePictureId ← json.profilePictureId.asString
  let createdAtMs ← json.createdAtMs.asNumber
  let updatedAtMs ← json.updatedAtMs.asNumber
  some {
    id := (id.map trim).getD []
    label := (label.map trim).getD []
    network
    address := (address.map trim).getD []
    profilePictureId := normalizeProfilePictureId
      ((profilePictureId.map trim).getD defaultProfilePictureId)
    createdAtMs := createdAtMs.getD 0
    updatedAtMs := updatedAtMs.getD 0 }

/-- `_isUsableContact`. -/
def Contact.isUsable (contact : Contact) : Bool :=
  trim contact.id ≠ [] ∧ trim contact.label ≠ [] ∧ trim contact.address ≠ []

/-- `decodeContactsJson`, of the items of the list. -/
def decodeContacts (p : LowerCase) (items : List JsonItem) : List Contact :=
  items.filterMap fun
    | .map json => (tryFromJson p json).filter Contact.isUsable
    | .other => none

/-- What is stored: nothing, or nothing that is a list, or a list of items. -/
abbrev Stored : Type := Option (List JsonItem)

/-- `loadContacts`. -/
def loadContacts (p : LowerCase) : Stored → List Contact
  | none => []
  | some items => decodeContacts p items

/-- `saveContacts`. -/
def saveContacts (contacts : List Contact) : Stored :=
  some (contacts.map fun contact => .map contact.toJson)

/-! ### Round trips -/

/-- A contact that is read as it was written. -/
structure Contact.Storable (contact : Contact) : Prop where
  id : trim contact.id = contact.id ∧ contact.id ≠ []
  label : trim contact.label = contact.label ∧ contact.label ≠ []
  address : trim contact.address = contact.address ∧ contact.address ≠ []
  profilePictureId : normalizeProfilePictureId contact.profilePictureId = contact.profilePictureId
    ∧ trim contact.profilePictureId = contact.profilePictureId

theorem Contact.Storable.isUsable {contact : Contact} (h : contact.Storable) :
  contact.isUsable = true
  := by
  rw [Contact.isUsable, decide_eq_true_eq, h.id.1, h.label.1, h.address.1]
  exact ⟨h.id.2, h.label.2, h.address.2⟩

theorem tryFromJson_toJson {contact : Contact} (h : contact.Storable) :
  tryFromJson p contact.toJson = some contact
  := by
  have hnetwork : trim contact.network.id = contact.network.id := by
    cases contact.network <;> decide +kernel
  simp only [tryFromJson, Contact.toJson, Field.asString, Field.asNumber, Option.bind_eq_bind,
    Option.bind_some, Option.map_some, Option.getD_some, hnetwork,
    AddressBookNetwork.tryFromId_id, h.id.1, h.label.1, h.address.1, h.profilePictureId.1,
    h.profilePictureId.2]

/-- Contacts that are read as they were written, are read from a list of them. -/
theorem loadContacts_saveContacts {contacts : List Contact} (h : ∀ c ∈ contacts, c.Storable) :
  loadContacts p (saveContacts contacts) = contacts
  := by
  rw [saveContacts, loadContacts, decodeContacts, List.filterMap_map]
  calc
    _ = contacts.filterMap some := by
      apply List.filterMap_congr
      intro contact hcontact
      change (tryFromJson p contact.toJson).filter Contact.isUsable = some contact
      rw [tryFromJson_toJson (h contact hcontact), Option.filter_some,
        if_pos (h contact hcontact).isUsable]
    _ = contacts := List.filterMap_some

/-- A contact that was read is storable. -/
theorem storable_of_load {stored : Stored} {contact : Contact}
    (h : contact ∈ loadContacts p stored) :
  contact.Storable
  := by
  cases stored with
  | none => cases h
  | some items =>
    obtain ⟨item, -, hitem⟩ := List.mem_filterMap.mp h
    cases item with
    | other => cases hitem
    | map json =>
      rw [Option.filter_eq_some_iff] at hitem
      obtain ⟨hjson, husable⟩ := hitem
      rw [Contact.isUsable, decide_eq_true_eq] at husable
      simp only [tryFromJson, Option.bind_eq_bind, Option.bind_eq_some_iff] at hjson
      obtain ⟨_, -, _, -, id, -, label, -, address, -, picture, -, _, -, _, -, hcontact⟩ := hjson
      cases hcontact
      have htrim : ∀ s : Option Text, trim ((s.map trim).getD []) = (s.map trim).getD [] := by
        intro s
        cases s with
        | none => rfl
        | some s => exact trim_trim s
      rw [htrim, htrim, htrim] at husable
      exact ⟨⟨htrim id, husable.1⟩, ⟨htrim label, husable.2.1⟩, ⟨htrim address, husable.2.2⟩,
        normalizeProfilePictureId_normalize _⟩

end AddressBook

end Vizor
