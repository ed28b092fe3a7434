import Vizor.Lib.Radix
import Vizor.Lib.Run

/-!
# Compact signatures

The signatures of a message are stored as a count and one record of a fixed size for each.
The decoder bounds the count by the signatures of one signing request; the encoder does not,
so that a longer list is written and never read again.
-/

namespace Vizor

open Radix Run

namespace Keystone

/-! ### Limits -/

/-- A spend-authorization signature has 64 bytes. -/
def zcashSigLen : Nat := 64

/-- The size of one signature in the blob: its pool, its action index and the signature. -/
def compactActionSigLen : Nat := 1 + 4 + zcashSigLen

/-- The firmware supports at most 40 messages for each request. -/
def zcashSignBatchMaxMessages : Nat := 40

/-- The signatures of a response that is scanned comfortably. -/
def zcashSignBatchMaxSignatures : Nat := 96

/-! ### Signatures -/

/-- A pool of shielded value. -/
inductive ValuePool where
  | orchard
  | ironwood
  deriving DecidableEq, Repr

/-- A signature that authorizes the spend of an action. -/
structure SpendAuthSignature where
  valuePool : ValuePool
  actionIndex : Nat
  signature : Vector UInt8 zcashSigLen
  deriving DecidableEq

def encodeSignaturePool : ValuePool → UInt8
  | .orchard => 0
  | .ironwood => 1

def decodeSignaturePool (pool : Nat) : Except String ValuePool :=
  match pool with
  | 0 => .ok .orchard
  | 1 => .ok .ironwood
  | other => .error s!"Unsupported zcash-batch-sig-result pool {other}"

/-! ### The blob -/

/-- The record of a signature. -/
def SpendAuthSignature.record (sig : SpendAuthSignature) : List UInt8 :=
  encodeSignaturePool sig.valuePool :: (leBytes 4 sig.actionIndex ++ sig.signature.toList)

/-- Write the record of a signature, whose action index must have 32 bits. -/
def encodeRecord (sig : SpendAuthSignature) : Except String (List UInt8) := do
  ensure (sig.actionIndex < 256 ^ 4) "Compact signature action index exceeds u32"
  return sig.record

/-- Write a list of signatures to a blob. -/
def encodeCompactActionSigs (sigs : List SpendAuthSignature) : Except String (List UInt8) := do
  ensure (sigs.length < 256 ^ 4) "Too many compact signatures to encode"
  ensure (sigs.length * compactActionSigLen + 4 < 2 ^ 64)
    "Compact signature blob length overflow"
  let records ← sigs.mapM encodeRecord
  return leBytes 4 sigs.length ++ records.flatten

/-- Read the signature of a record. -/
def decodeRecord (record : List UInt8) : Except String SpendAuthSignature := do
  let valuePool ← decodeSignaturePool (record.headD 0).toNat
  let actionIndex := ofLeBytes (record.tail.take 4)
  let signature := record.drop 5
  if h : signature.length = zcashSigLen then
    return ⟨valuePool, actionIndex, ⟨signature.toArray, h⟩⟩
  else .error "Compact signature record has wrong signature length"

/-- Read the signatures of a blob. -/
def decodeCompactActionSigs (bytes : List UInt8) : Except String (List SpendAuthSignature) := do
  ensure (4 ≤ bytes.length) "Compact signature blob is too short for its count header"
  let count := ofLeBytes (bytes.take 4)
  ensure (count ≤ zcashSignBatchMaxSignatures)
    s!"Compact signature blob exceeds the {zcashSignBatchMaxSignatures}-signature limit"
  let body := bytes.drop 4
  let expected := count * compactActionSigLen
  ensure (body.length = expected)
    s!"Compact signature blob has {body.length} body bytes, expected {expected} for {count} signatures"
  (groups compactActionSigLen (body.length / compactActionSigLen) body).mapM decodeRecord

/-! ### Records -/

variable {sig : SpendAuthSignature} {sigs : List SpendAuthSignature} {record : List UInt8}
  {blob : List UInt8}

@[simp]
theorem length_record : sig.record.length = compactActionSigLen
  := by
  simp [SpendAuthSignature.record, compactActionSigLen]
  omega

theorem encodeRecord_eq_ok :
  encodeRecord sig = .ok record ↔ sig.actionIndex < 256 ^ 4 ∧ record = sig.record
  := by
  simp only [encodeRecord, bind_eq_ok, ensure_eq_ok, pure_eq_ok]
  constructor
  · rintro ⟨_, hindex, rfl⟩
    exact ⟨hindex, rfl⟩
  · rintro ⟨hindex, rfl⟩
    exact ⟨(), hindex, rfl⟩

@[simp]
theorem decodeSignaturePool_encode {pool : ValuePool} :
  decodeSignaturePool (encodeSignaturePool pool).toNat = .ok pool
  := by
  cases pool <;> rfl

/-- A pool is decoded from its own byte only. -/
theorem encodeSignaturePool_of_decode {byte : UInt8} {pool : ValuePool}
    (h : decodeSignaturePool byte.toNat = .ok pool) :
  encodeSignaturePool pool = byte
  := by
  rw [← UInt8.toNat_inj]
  unfold decodeSignaturePool at h
  split at h
  · rename_i hbyte
    cases h
    rw [hbyte]
    rfl
  · rename_i hbyte
    cases h
    rw [hbyte]
    rfl
  · cases h

/-- A record is read back as its signature. -/
theorem decodeRecord_record (hindex : sig.actionIndex < 256 ^ 4) :
  decodeRecord sig.record = .ok sig
  := by
  have hdrop : sig.record.drop 5 = sig.signature.toList := by
    rw [SpendAuthSignature.record, List.drop_succ_cons, List.drop_left' length_leBytes]
  have htake : sig.record.tail.take 4 = leBytes 4 sig.actionIndex := by
    rw [SpendAuthSignature.record, List.tail_cons, List.take_left' length_leBytes]
  have hhead : sig.record.headD 0 = encodeSignaturePool sig.valuePool := rfl
  rw [decodeRecord, bind_eq_ok]
  use sig.valuePool
  rw [hhead, decodeSignaturePool_encode]
  refine ⟨rfl, ?_⟩
  simp only [hdrop, htake, ofLeBytes_leBytes hindex]
  rw [dif_pos (by simp)]
  rfl

/-- A record is the one of the signature that is read from it. -/
theorem record_of_decodeRecord (hlength : record.length = compactActionSigLen)
    (h : decodeRecord record = .ok sig) :
  sig.actionIndex < 256 ^ 4 ∧ sig.record = record
  := by
  obtain ⟨pool, hpool, h⟩ := bind_eq_ok.mp h
  dsimp only at h
  split at h
  · cases h
    cases record with
    | nil => cases hlength
    | cons byte record =>
      have hindex : (record.take 4).length = 4 := by
        rw [List.length_cons, compactActionSigLen] at hlength
        rw [List.length_take]
        omega
      refine ⟨ofLeBytes_lt hindex, ?_⟩
      rw [SpendAuthSignature.record, encodeSignaturePool_of_decode hpool]
      dsimp only [List.tail_cons, List.headD_cons]
      rw [leBytes_ofLeBytes hindex]
      have hdrop : List.drop 5 (byte :: record) = record.drop 4 := rfl
      rw [Vector.toList_mk, hdrop, List.take_append_drop]
  · cases h

/-! ### The list of records -/

theorem mapM_encodeRecord {records : List (List UInt8)} :
  sigs.mapM encodeRecord = .ok records
    ↔ (∀ sig ∈ sigs, sig.actionIndex < 256 ^ 4) ∧ records = sigs.map (·.record)
  := by
  induction sigs generalizing records with
  | nil =>
    rw [List.mapM_nil, pure_eq_ok]
    simp [eq_comm]
  | cons sig sigs ih =>
    simp only [List.mapM_cons, bind_eq_ok, pure_eq_ok, encodeRecord_eq_ok, ih, List.forall_mem_cons,
      List.map_cons]
    constructor
    · rintro ⟨_, ⟨hindex, rfl⟩, _, ⟨hindexes, rfl⟩, rfl⟩
      exact ⟨⟨hindex, hindexes⟩, rfl⟩
    · rintro ⟨⟨hindex, hindexes⟩, rfl⟩
      exact ⟨_, ⟨hindex, rfl⟩, _, ⟨hindexes, rfl⟩, rfl⟩

theorem mapM_decodeRecord_map (hindexes : ∀ sig ∈ sigs, sig.actionIndex < 256 ^ 4) :
  (sigs.map (·.record)).mapM decodeRecord = .ok sigs
  := by
  induction sigs with
  | nil => rfl
  | cons sig sigs ih =>
    rw [List.forall_mem_cons] at hindexes
    rw [List.map_cons, List.mapM_cons, decodeRecord_record hindexes.1, ih hindexes.2]
    rfl

/-- Records of the right size are those of the signatures that are read from them. -/
theorem map_record_of_mapM {records : List (List UInt8)}
    (hlength : ∀ record ∈ records, record.length = compactActionSigLen)
    (h : records.mapM decodeRecord = .ok sigs) :
  (∀ sig ∈ sigs, sig.actionIndex < 256 ^ 4) ∧ sigs.map (·.record) = records
  := by
  induction records generalizing sigs with
  | nil =>
    obtain rfl : [] = sigs := by simpa using h
    simp
  | cons record records ih =>
    rw [List.forall_mem_cons] at hlength
    rw [List.mapM_cons, bind_eq_ok] at h
    obtain ⟨sig, hsig, h⟩ := h
    obtain ⟨rest, hrest, h⟩ := bind_eq_ok.mp h
    obtain rfl := pure_eq_ok.mp h
    obtain ⟨hindex, hrecord⟩ := record_of_decodeRecord hlength.1 hsig
    obtain ⟨hindexes, hrecords⟩ := ih hlength.2 hrest
    rw [List.forall_mem_cons, List.map_cons, hrecord, hrecords]
    exact ⟨⟨hindex, hindexes⟩, rfl⟩

/-! ### The blob -/

/-- The lists that the encoder writes, and their blobs. -/
theorem encodeCompactActionSigs_eq_ok :
  encodeCompactActionSigs sigs = .ok blob
    ↔ (sigs.length < 256 ^ 4 ∧ ∀ sig ∈ sigs, sig.actionIndex < 256 ^ 4)
      ∧ blob = leBytes 4 sigs.length ++ (sigs.map (·.record)).flatten
  := by
  simp only [encodeCompactActionSigs, bind_eq_ok, ensure_eq_ok, pure_eq_ok, mapM_encodeRecord]
  constructor
  · rintro ⟨_, hlength, _, -, _, ⟨hindexes, rfl⟩, rfl⟩
    exact ⟨⟨hlength, hindexes⟩, rfl⟩
  · rintro ⟨⟨hlength, hindexes⟩, rfl⟩
    refine ⟨(), hlength, (), ?_, _, ⟨hindexes, rfl⟩, rfl⟩
    simp only [compactActionSigLen, zcashSigLen]
    omega

/-- A blob is read back as its list, unless the list is longer than a response may be. -/
theorem decode_encodeCompactActionSigs (hlength : sigs.length < 256 ^ 4)
    (hindexes : ∀ sig ∈ sigs, sig.actionIndex < 256 ^ 4) :
  decodeCompactActionSigs (leBytes 4 sigs.length ++ (sigs.map (·.record)).flatten)
    = if sigs.length ≤ zcashSignBatchMaxSignatures then .ok sigs
      else .error
        s!"Compact signature blob exceeds the {zcashSignBatchMaxSignatures}-signature limit"
  := by
  have hbody : (sigs.map (·.record)).flatten.length = sigs.length * compactActionSigLen := by
    simp [List.length_flatten, Function.comp_def]
  have hgroups : groups compactActionSigLen sigs.length (sigs.map (·.record)).flatten
      = sigs.map (·.record) := by
    rw [← List.flatMap_def, ← List.append_nil (sigs.flatMap _)]
    apply groups_flatMap_append
    intro sig
    apply length_record
  rw [decodeCompactActionSigs]
  simp only [List.take_left' length_leBytes, List.drop_left' length_leBytes,
    ofLeBytes_leBytes hlength, hbody, Nat.mul_div_cancel _ (show 0 < compactActionSigLen by decide),
    hgroups, mapM_decodeRecord_map hindexes, List.length_append, length_leBytes]
  rw [ensure, if_pos (by omega)]
  split
  · rename_i hcount
    rw [ensure, if_pos hcount, ensure, if_pos trivial]
    rfl
  · rename_i hcount
    rw [ensure, if_neg hcount]
    rfl

/-- A blob that is read is the one of the list that is read from it. -/
theorem encode_decodeCompactActionSigs (h : decodeCompactActionSigs blob = .ok sigs) :
  encodeCompactActionSigs sigs = .ok blob
  := by
  simp only [decodeCompactActionSigs, bind_eq_ok, ensure_eq_ok] at h
  obtain ⟨_, hheader, _, hcount, _, hbody, h⟩ := h
  rw [hbody, Nat.mul_div_cancel _ (show 0 < compactActionSigLen by decide)] at h
  have hlengths : ∀ record ∈ groups compactActionSigLen (ofLeBytes (blob.take 4)) (blob.drop 4),
      record.length = compactActionSigLen := by
    intro record hrecord
    apply length_of_mem_groups _ hrecord
    rw [hbody, Nat.mul_comm]
  obtain ⟨hindexes, hrecords⟩ := map_record_of_mapM hlengths h
  have hlength : sigs.length = ofLeBytes (blob.take 4) := by
    rw [← List.length_map (·.record), hrecords, length_groups]
  have hcountBytes : (blob.take 4).length = 4 := by
    rw [List.length_take]
    omega
  rw [encodeCompactActionSigs_eq_ok, hlength]
  refine ⟨⟨ofLeBytes_lt hcountBytes, hindexes⟩, ?_⟩
  rw [leBytes_ofLeBytes hcountBytes, hrecords, flatten_groups, Nat.mul_comm, ← hbody,
    List.take_length, List.take_append_drop]

/-- What the encoder writes for a list is read back as the list exactly when the list has at
most as many signatures as a response, or is not written at all; and what the decoder reads
is written back as it was. -/
theorem compactActionSigs_exact (sigs : List SpendAuthSignature) :
  ((∀ blob, encodeCompactActionSigs sigs = .ok blob → decodeCompactActionSigs blob = .ok sigs)
      ↔ sigs.length ≤ zcashSignBatchMaxSignatures ∨ 256 ^ 4 ≤ sigs.length
        ∨ ∃ sig ∈ sigs, 256 ^ 4 ≤ sig.actionIndex)
    ∧ ∀ blob, decodeCompactActionSigs blob = .ok sigs → encodeCompactActionSigs sigs = .ok blob
  := by
  constructor
  · simp only [encodeCompactActionSigs_eq_ok]
    constructor
    · intro hread
      by_contra hlong
      push Not at hlong
      obtain ⟨hlong, hlength, hindexes⟩ := hlong
      have hdecode := hread _ ⟨⟨hlength, hindexes⟩, rfl⟩
      rw [decode_encodeCompactActionSigs hlength hindexes, if_neg (by omega)] at hdecode
      cases hdecode
    · rintro hshort blob ⟨⟨hlength, hindexes⟩, rfl⟩
      rcases hshort with hshort | hlong | ⟨sig, hsig, hlarge⟩
      · rw [decode_encodeCompactActionSigs hlength hindexes, if_pos hshort]
      · omega
      · have hindex := hindexes sig hsig
        omega
  · intro blob h
    apply encode_decodeCompactActionSigs h

/-- A signature of the first action of the Orchard pool. -/
def sampleSig : SpendAuthSignature where
  valuePool := .orchard
  actionIndex := 0
  signature := Vector.replicate zcashSigLen 7

/-- A list of 97 signatures is written, and its blob is refused. -/
theorem compactActionSigs_unreadable :
  ∃ blob, encodeCompactActionSigs (List.replicate 97 sampleSig) = .ok blob
    ∧ decodeCompactActionSigs blob
      = .error "Compact signature blob exceeds the 96-signature limit"
  := by
  have hindexes : ∀ sig ∈ List.replicate 97 sampleSig, sig.actionIndex < 256 ^ 4 := by
    intro sig hsig
    rw [List.eq_of_mem_replicate hsig]
    decide
  have hlength : (List.replicate 97 sampleSig).length = 97 := List.length_replicate
  refine ⟨_, encodeCompactActionSigs_eq_ok.mpr ⟨⟨?_, hindexes⟩, rfl⟩, ?_⟩
  · rw [hlength]
    decide
  · rw [decode_encodeCompactActionSigs (by rw [hlength]; decide) hindexes, if_neg]
    · rfl
    · rw [hlength]
      decide

end Keystone

end Vizor
