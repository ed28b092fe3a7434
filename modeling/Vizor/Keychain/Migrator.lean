import Vizor.Lib.Device
import Mathlib.Data.List.Dedup

/-!
# The keychain accessibility migration

The secrets of the wallet are moved to a stricter protection class of the keychain.  A class is
chosen when an item is added, so an item is copied to a staging service, removed, added again and
then unstaged.  The device may lock, and the process may be killed, at every call.
-/

namespace Vizor

namespace Keychain

open Device

def keychainAccessibilityMigrationStagingSuffix : String :=
  ".accessibility-migration-v1"

def keychainAccessibilityMigrationVersion : Nat := 1

def keychainAccessibilityMigrationAllowedServices : List String :=
  ["com.keplr.vizor.secure_store",
   "com.keplr.vizor.ironwood.secure_store",
   "com.keplr.vizor.test.secure_store",
   "com.keplr.vizor.regtest.secure_store"]

/-- `kSecAttrAccessibleAfterFirstUnlockThisDeviceOnly`. -/
def keychainAccessibilityTarget : String := "cku"

/-- `kSecAttrAccessibleAfterFirstUnlock`. -/
def keychainAccessibilityLegacy : String := "ck"

/-- `kSecAttrAccessGroup`. -/
def accessGroupKey : String := "agrp"

/-- `errSecDuplicateItem`. -/
def duplicateItemStatus : Int := -25299

inductive KeychainAccessibilityMigrationError where
  | invalidService
  | duplicateAccount (account : String)
  | conflictingCopies (account : String)
  | unexpectedAccessibility (account accessibility : String)
  | protectedDataUnavailable
  | keychain (operation : String) (status : Int)
  deriving DecidableEq, Repr

variable {α : Type}

/-- A secret with its protection class.  The values of the other attributes are only carried
along. -/
structure Item (α : Type) where
  account : String
  data : List UInt8
  accessibility : String
  attributes : List (String × α)
  deriving DecidableEq

/-- The item as it is added to the keychain. -/
def Item.atTarget (item : Item α) : Item α :=
  { item with accessibility := keychainAccessibilityTarget }

/-- The rows of the keychain, each under its service, and the keys that are set in the user
defaults. -/
structure Storage (α : Type) where
  rows : List (String × Item α)
  defaults : List String

/-- The program of a caller of the keychain. -/
abbrev Keychained (α β : Type) := Program (Storage α) KeychainAccessibilityMigrationError β

/-! ### The stores -/

namespace Storage

variable (s : Storage α)

/-- The items of an account that a service holds. -/
def copies (service account : String) : List (Item α) :=
  (s.rows.filter fun row => row.1 = service ∧ row.2.account = account).map Prod.snd

/-- The answer to `SecItemCopyMatching`. -/
def items (service : String) : List (Item α) :=
  (s.rows.filter fun row => row.1 = service).map Prod.snd

variable [DecidableEq α]

/-- The answer to `SecItemAdd`: the service must not hold the account yet in the access group of
the item. -/
def add (item : Item α) (service : String) :
    Except KeychainAccessibilityMigrationError (Unit × Storage α) :=
  if (s.copies service item.account).any fun other =>
      other.attributes.lookup accessGroupKey = item.attributes.lookup accessGroupKey then
    .error (.keychain "add" duplicateItemStatus)
  else
    .ok ((), { s with rows := s.rows ++ [(service, item.atTarget)] })

omit [DecidableEq α] in
/-- The answer to `SecItemDelete`, which is right also where there is no such item. -/
def delete (service account : String) : Storage α :=
  { s with rows := s.rows.filter fun row => ¬ (row.1 = service ∧ row.2.account = account) }

end Storage

/-- The key of the user defaults for a completed migration. -/
def completionKey (service : String) (version : Nat) : String :=
  s!"vizor_keychain_accessibility_migration_v{version}_complete." ++ service

def Storage.isComplete (s : Storage α) (service : String) (version : Nat) : Bool :=
  s.defaults.contains (completionKey service version)

def Storage.markComplete (s : Storage α) (service : String) (version : Nat) : Storage α :=
  { s with defaults := completionKey service version :: s.defaults }

/-- Read the items of a service. -/
def readItems (service : String) : Keychained α (List (Item α)) :=
  call fun s => .ok (s.items service, s)

def addItem [DecidableEq α] (item : Item α) (service : String) : Keychained α Unit :=
  call fun s => s.add item service

def deleteItem (service account : String) : Keychained α Unit :=
  call fun s => .ok ((), s.delete service account)

/-! ### The migration -/

/-- Put an item into the index. -/
def indexItem (result : List (String × Item α)) (item : Item α) :
    Except KeychainAccessibilityMigrationError (List (String × Item α)) :=
  if (result.lookup item.account).isSome then .error (.duplicateAccount item.account)
  else .ok (result ++ [(item.account, item)])

/-- The items by their accounts. -/
def indexedItems (items : List (Item α)) :
    Except KeychainAccessibilityMigrationError (List (String × Item α)) :=
  items.foldlM indexItem []

/-- Read the items of a service by their accounts. -/
def readIndexed (service : String) : Keychained α (List (String × Item α)) := do
  let items ← readItems service
  value (indexedItems items)

def requireTarget (item : Item α) : Except KeychainAccessibilityMigrationError Unit :=
  if item.accessibility = keychainAccessibilityTarget then .ok ()
  else .error (.unexpectedAccessibility item.account item.accessibility)

def requireStagedTarget : Option (Item α) → Except KeychainAccessibilityMigrationError Unit
  | some staged => requireTarget staged
  | none => .ok ()

def requireMatchingData (lhs rhs : Item α) : Except KeychainAccessibilityMigrationError Unit :=
  if lhs.data = rhs.data then .ok () else .error (.conflictingCopies lhs.account)

/-- Read an item back after it was added. -/
def verify (expected : Item α) (service : String) : Keychained α Unit := do
  let items ← readItems service
  match items.filter fun item => item.account = expected.account with
  | [actual] => do
    value (requireTarget actual)
    value (requireMatchingData expected actual)
  | _ => fail (.conflictingCopies expected.account)

variable [DecidableEq α]

/-- Copy an item to the staging service, where it has no copy yet. -/
def stageCopy (canonical : Item α) (staged : Option (Item α)) (stagingService : String) :
    Keychained α Unit :=
  match staged with
  | some staged => value (requireMatchingData canonical staged)
  | none => do
    addItem canonical stagingService
    verify canonical stagingService

/-- Migrate the item of an account, and tell whether it was moved. -/
def migrate (account : String) (canonical staged : Option (Item α))
    (service stagingService : String) : Keychained α Bool := do
  value (requireStagedTarget staged)
  match canonical, staged with
  | none, none => pure false
  | none, some staged => do
    addItem staged service
    verify staged service
    deleteItem stagingService account
    pure true
  | some canonical, staged =>
    if canonical.accessibility = keychainAccessibilityTarget then
      match staged with
      | none => pure false
      | some staged => do
        value (requireMatchingData canonical staged)
        deleteItem stagingService account
        pure false
    else if canonical.accessibility = keychainAccessibilityLegacy then do
      stageCopy canonical staged stagingService
      deleteItem service account
      addItem canonical service
      verify canonical service
      deleteItem stagingService account
      pure true
    else fail (.unexpectedAccessibility account canonical.accessibility)

/-- Migrate the item of an account, and count it if it was moved. -/
def migrateNext (canonical staged : List (String × Item α)) (service stagingService : String)
    (migratedCount : Nat) (account : String) : Keychained α Nat := do
  let didMigrate ← migrate account (canonical.lookup account) (staged.lookup account) service
    stagingService
  pure (if didMigrate then migratedCount + 1 else migratedCount)

/-- The accounts of both services in order. -/
def accountsOf (canonical staged : List (String × Item α)) : List String :=
  ((canonical.map Prod.fst ++ staged.map Prod.fst).dedup).mergeSort fun a b => decide (a ≤ b)

/-- Migrate every item of a service, and count those that were moved. -/
def ensureFirstUnlockThisDeviceOnly (service : String) : Keychained α Nat :=
  if service ∉ keychainAccessibilityMigrationAllowedServices then fail .invalidService
  else do
    let complete ← look fun s => s.isComplete service keychainAccessibilityMigrationVersion
    if complete then pure 0
    else do
      let stagingService := service ++ keychainAccessibilityMigrationStagingSuffix
      let canonical ← readIndexed service
      let staged ← readIndexed stagingService
      let migratedCount ← foldEach (migrateNext canonical staged service stagingService) 0
        (accountsOf canonical staged)
      change fun s => s.markComplete service keychainAccessibilityMigrationVersion
      pure migratedCount

end Keychain

end Vizor
