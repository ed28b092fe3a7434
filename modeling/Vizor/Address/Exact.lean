import Vizor.Address.Encodings

/-!
# Exactness of the Wcash address codec

The string of an address is parsed back to it, and no string is an address in two ways.  A
string that is parsed is the string of its address when the symbols of a Bech32m string are
those of their bytes: bits that are dropped are not checked.
-/

namespace Vizor

open Radix Run

namespace Address

variable {c : Crates} {hrp : Text} {symbols : List (Fin 32)} {bytes : List UInt8}
  {encoded : Text} {codeLength : Nat} {network : NetworkType}

/-! ### Namespaces -/

theorem lowerHrp_unifiedHrp (network : NetworkType) : LowerHrp (unifiedHrp network)
  := by
  cases network <;> apply LowerHrp.of_all <;> decide

theorem lowerHrp_texHrp (network : NetworkType) : LowerHrp (texHrp network)
  := by
  cases network <;> apply LowerHrp.of_all <;> decide

theorem unifiedNetwork_unifiedHrp : unifiedNetwork (unifiedHrp network) = some network
  := by
  cases network <;> rfl

theorem unifiedHrp_of_unifiedNetwork (h : unifiedNetwork hrp = some network) :
  unifiedHrp network = hrp
  := by
  have hfound := List.find?_some h
  simpa using hfound

theorem unifiedNetwork_texHrp : unifiedNetwork (texHrp network) = none
  := by
  cases network <;> rfl

theorem texNetwork_texHrp : texNetwork (texHrp network) = some network
  := by
  cases network <;> rfl

theorem texHrp_of_texNetwork (h : texNetwork hrp = some network) :
  texHrp network = hrp
  := by
  have hfound := List.find?_some h
  simpa using hfound

theorem p2pkhNetwork_p2pkhVersion : p2pkhNetwork (p2pkhVersion network) = some network
  := by
  cases network <;> rfl

theorem p2pkhNetwork_p2shVersion : p2pkhNetwork (p2shVersion network) = none
  := by
  cases network <;> rfl

theorem p2shNetwork_p2shVersion : p2shNetwork (p2shVersion network) = some network
  := by
  cases network <;> rfl

theorem head_unifiedHrp (network : NetworkType) : ∃ rest, unifiedHrp network = 'w' :: rest
  := by
  cases network <;> exact ⟨_, rfl⟩

theorem head_texHrp (network : NetworkType) : ∃ rest, texHrp network = 'w' :: rest
  := by
  cases network <;> exact ⟨_, rfl⟩

theorem p2pkhVersion_fst : (p2pkhVersion network).1 = 0x10
  := by
  cases network <;> rfl

theorem p2shVersion_fst : (p2shVersion network).1 = 0x10
  := by
  cases network <;> rfl

/-! ### Receivers -/

/-- A receiver that a Wcash address may have. -/
def Receiver.Supported (receiver : Receiver c) : Prop :=
  receiver.typecode ≤ 1 ∨ receiver.typecode = 3

/-- Receivers that are checked are supported, and one of them is for Ironwood. -/
theorem supported_of_checkReceivers {hasIronwood : Bool} {receivers : List (Receiver c)}
    (h : checkReceivers hasIronwood receivers = .ok ()) :
  (∀ receiver ∈ receivers, receiver.Supported)
    ∧ (hasIronwood = true ∨ ∃ receiver ∈ receivers, receiver.typecode = 3)
  := by
  induction receivers generalizing hasIronwood with
  | nil =>
    rw [checkReceivers] at h
    split at h
    · exact ⟨nofun, .inl ‹_›⟩
    · cases h
  | cons receiver receivers ih =>
    rw [checkReceivers] at h
    split at h
    · rename_i hironwood
      obtain ⟨hall, -⟩ := ih h
      refine ⟨?_, .inr ⟨receiver, List.mem_cons_self, hironwood⟩⟩
      intro other hother
      rcases List.mem_cons.mp hother with rfl | hother
      · exact .inr hironwood
      · apply hall other hother
    split at h
    · cases h
    split at h
    · cases h
    · obtain ⟨hall, hfound⟩ := ih h
      refine ⟨?_, ?_⟩
      · intro other hother
        rcases List.mem_cons.mp hother with rfl | hother
        · left
          omega
        · apply hall other hother
      · rcases hfound with hfound | ⟨other, hother, hironwood⟩
        · exact .inl hfound
        · exact .inr ⟨other, List.mem_cons_of_mem _ hother, hironwood⟩

/-- The data of a supported receiver is short. -/
theorem Receiver.Supported.length_data {receiver : Receiver c} (h : receiver.Supported) :
  receiver.data.length ≤ 43
  := by
  rcases h with h | h
  · have hlength := c.length_transparent receiver.typecode h receiver.data receiver.ok
    omega
  · have hok := receiver.ok
    rw [h] at hok
    have hlength := c.length_orchard receiver.data hok
    omega

theorem Receiver.Supported.length_typedEncoding {receiver : Receiver c} (h : receiver.Supported) :
  receiver.typedEncoding.length = receiver.data.length + 2
  := by
  have htypecode : receiver.typecode < 253 := by
    rcases h with h | h <;> omega
  have hdata : receiver.data.length < 253 := by
    have := h.length_data
    omega
  rw [typedEncoding, c.writeCompactSize_small _ htypecode, c.writeCompactSize_small _ hdata]
  simp only [List.length_append, List.length_cons, List.length_nil]
  omega

theorem length_flatMap_typedEncoding {receivers : List (Receiver c)}
    (h : ∀ receiver ∈ receivers, receiver.Supported) :
  (receivers.flatMap Receiver.typedEncoding).length ≤ 45 * receivers.length
  := by
  induction receivers with
  | nil => rfl
  | cons receiver receivers ih =>
    have hfirst := h receiver List.mem_cons_self
    have hrest := ih fun other hother => h other (List.mem_cons_of_mem _ hother)
    have hdata := hfirst.length_data
    rw [List.flatMap_cons, List.length_append, hfirst.length_typedEncoding, List.length_cons]
    omega

theorem length_le_flatMap_typedEncoding {receivers : List (Receiver c)}
    (h : ∀ receiver ∈ receivers, receiver.Supported) :
  receivers.length ≤ (receivers.flatMap Receiver.typedEncoding).length
  := by
  induction receivers with
  | nil => rfl
  | cons receiver receivers ih =>
    have hfirst := h receiver List.mem_cons_self
    have hrest := ih fun other hother => h other (List.mem_cons_of_mem _ hother)
    rw [List.flatMap_cons, List.length_append, hfirst.length_typedEncoding, List.length_cons]
    omega

/-- Increasing typecodes of supported receivers are few. -/
theorem length_le_of_supported {receivers : List (Receiver c)}
    (h : ∀ receiver ∈ receivers, receiver.Supported)
    (hpairwise : (receivers.map Receiver.typecode).Pairwise (· < ·)) :
  receivers.length ≤ 4
  := by
  have hnodup : (receivers.map Receiver.typecode).Nodup := hpairwise.imp fun hlt => hlt.ne
  have hsub : receivers.map Receiver.typecode ⊆ List.range 4 := by
    intro typecode htypecode
    obtain ⟨receiver, hreceiver, rfl⟩ := List.mem_map.mp htypecode
    rw [List.mem_range]
    rcases h receiver hreceiver with h | h <;> omega
  have hlength := (hnodup.subperm hsub).length_le
  simpa using hlength

/-- The bytes of a container of supported receivers can be jumbled. -/
theorem jumblable_of_supported {receivers : List (Receiver c)} {padding : List UInt8}
    (h : ∀ receiver ∈ receivers, receiver.Supported)
    (hironwood : ∃ receiver ∈ receivers, receiver.typecode = 3)
    (hpairwise : (receivers.map Receiver.typecode).Pairwise (· < ·))
    (hpadding : padding.length = 16) :
  Jumblable (receivers.flatMap Receiver.typedEncoding ++ padding)
    ∧ (receivers.flatMap Receiver.typedEncoding ++ padding).length ≤ 200
  := by
  have hupper := length_flatMap_typedEncoding h
  have hcount := length_le_of_supported h hpairwise
  have hlower : 45 ≤ (receivers.flatMap Receiver.typedEncoding).length := by
    obtain ⟨receiver, hreceiver, htypecode⟩ := hironwood
    have hok := receiver.ok
    rw [htypecode] at hok
    have hdata := c.length_orchard receiver.data hok
    have htyped := (h receiver hreceiver).length_typedEncoding
    have hsub := (List.sublist_flatten_of_mem
      (List.mem_map_of_mem (f := Receiver.typedEncoding) hreceiver)).length_le
    rw [← List.flatMap_def] at hsub
    omega
  unfold Jumblable
  rw [List.length_append, hpadding]
  omega

/-- Receivers with increasing typecodes are read where they are written. -/
theorem readReceivers_flatMap {receivers : List (Receiver c)} {fuel : Nat}
    {previousTypecode : Option Nat} (hfuel : receivers.length ≤ fuel)
    (h : ∀ receiver ∈ receivers, receiver.Supported)
    (hprevious : ∀ previous ∈ previousTypecode, ∀ receiver ∈ receivers,
      previous < receiver.typecode)
    (hpairwise : (receivers.map Receiver.typecode).Pairwise (· < ·)) :
  readReceivers c fuel previousTypecode (receivers.flatMap Receiver.typedEncoding) = .ok receivers
  := by
  induction receivers generalizing fuel previousTypecode with
  | nil => cases fuel <;> rfl
  | cons receiver receivers ih =>
    obtain ⟨fuel, rfl⟩ : ∃ n, fuel = n + 1 := by
      rw [List.length_cons] at hfuel
      exact ⟨fuel - 1, by omega⟩
    rw [List.map_cons, List.pairwise_cons] at hpairwise
    obtain ⟨hlater, hpairwise⟩ := hpairwise
    have hfirst := h receiver List.mem_cons_self
    have hrest : ∀ other ∈ receivers, other.Supported :=
      fun other hother => h other (List.mem_cons_of_mem _ hother)
    have htypecode : receiver.typecode < 253 := by
      rcases hfirst with hfirst | hfirst <;> omega
    have hdata : receiver.data.length < 253 := by
      have := hfirst.length_data
      omega
    set rest := receivers.flatMap Receiver.typedEncoding with hrestBytes
    have hbytes : (receiver :: receivers).flatMap Receiver.typedEncoding
        = c.writeCompactSize receiver.typecode ++ (c.writeCompactSize receiver.data.length
          ++ (receiver.data ++ rest)) := by
      rw [List.flatMap_cons, Receiver.typedEncoding]
      simp only [List.append_assoc, hrestBytes]
    obtain ⟨byte, more, hcons⟩ : ∃ byte more, (receiver :: receivers).flatMap
        Receiver.typedEncoding = byte :: more := by
      rw [hbytes, c.writeCompactSize_small _ htypecode]
      exact ⟨_, _, rfl⟩
    have hnext : readReceivers c fuel (some receiver.typecode) rest = .ok receivers := by
      apply ih
      · rw [List.length_cons] at hfuel
        omega
      · apply hrest
      · rintro previous ⟨⟩ other hother
        apply hlater
        apply List.mem_map_of_mem hother
      · apply hpairwise
    have htry : Receiver.tryFrom c receiver.typecode receiver.data = .ok receiver := by
      unfold Receiver.tryFrom
      split
      · rfl
      · rename_i error herror
        rw [receiver.ok] at herror
        cases herror
    rw [hcons, readReceivers, ← hcons, hbytes, c.readCompactSize_small _ htypecode]
    case x_3 => nofun
    have hbig : receiver.typecode < 2 ^ 32 := by omega
    have horder : ∀ previous ∈ previousTypecode, previous < receiver.typecode :=
      fun previous hprev => hprevious previous hprev receiver List.mem_cons_self
    simp only [okOr, ensure, bind, Except.bind, if_pos hbig, if_pos horder,
      c.readCompactSize_small _ hdata]
    rw [if_pos (by rw [List.length_append]; omega), List.take_left, List.drop_left, htry]
    simp only [Except.mapError, hnext]
    rfl

/-- Receivers that are read are written so, and their typecodes increase. -/
theorem of_readReceivers {fuel : Nat} {previousTypecode : Option Nat}
    {receivers : List (Receiver c)}
    (h : readReceivers c fuel previousTypecode bytes = .ok receivers) :
  receivers.flatMap Receiver.typedEncoding = bytes
    ∧ (∀ previous ∈ previousTypecode, ∀ receiver ∈ receivers, previous < receiver.typecode)
    ∧ (receivers.map Receiver.typecode).Pairwise (· < ·)
  := by
  induction fuel generalizing previousTypecode bytes receivers with
  | zero =>
    cases bytes with
    | nil =>
      cases h
      exact ⟨rfl, nofun, .nil⟩
    | cons byte bytes => cases h
  | succ fuel ih =>
    cases bytes with
    | nil =>
      cases h
      exact ⟨rfl, nofun, .nil⟩
    | cons byte bytes =>
      rw [readReceivers] at h
      case x_3 => nofun
      obtain ⟨⟨typecode, raw⟩, hread, h⟩ := bind_eq_ok.mp h
      obtain ⟨_, -, h⟩ := bind_eq_ok.mp h
      obtain ⟨_, horder, h⟩ := bind_eq_ok.mp h
      obtain ⟨⟨length, raw'⟩, hlength, h⟩ := bind_eq_ok.mp h
      obtain ⟨_, hlong, h⟩ := bind_eq_ok.mp h
      obtain ⟨receiver, hreceiver, h⟩ := bind_eq_ok.mp h
      obtain ⟨rest, hrest, h⟩ := bind_eq_ok.mp h
      obtain rfl := pure_eq_ok.mp h
      rw [okOr_eq_ok] at hread hlength
      rw [ensure_eq_ok] at horder hlong
      have htry : receiver.typecode = typecode ∧ receiver.data = raw'.take length := by
        unfold Receiver.tryFrom at hreceiver
        split at hreceiver
        · cases hreceiver
          exact ⟨rfl, rfl⟩
        · cases hreceiver
      obtain ⟨rfl, hdata⟩ := htry
      obtain ⟨hbytes, hlater, hpairwise⟩ := ih hrest
      refine ⟨?_, ?_, ?_⟩
      · have hcount : receiver.data.length = length := by
          rw [hdata, List.length_take]
          omega
        rw [List.flatMap_cons, hbytes, Receiver.typedEncoding, hcount, hdata, List.append_assoc,
          List.append_assoc, List.take_append_drop, ← c.eq_of_readCompactSize _ _ _ hlength,
          ← c.eq_of_readCompactSize _ _ _ hread]
      · intro previous hprevious other hother
        have hfirst := horder previous hprevious
        rcases List.mem_cons.mp hother with rfl | hother
        · apply hfirst
        · apply hfirst.trans (hlater receiver.typecode rfl other hother)
      · rw [List.map_cons, List.pairwise_cons]
        refine ⟨?_, hpairwise⟩
        intro typecode htypecode
        obtain ⟨other, hother, rfl⟩ := List.mem_map.mp htypecode
        apply hlater receiver.typecode rfl other hother

/-! ### Containers -/

theorem UnifiedAddress.pairwise (address : UnifiedAddress c) :
  (address.items.map Receiver.typecode).Pairwise (· < ·)
  := c.pairwise_typecodes _ address.ok

/-- Receivers with increasing typecodes are sorted. -/
theorem mergeSort_eq_self {receivers : List (Receiver c)}
    (h : (receivers.map Receiver.typecode).Pairwise (· < ·)) :
  receivers.mergeSort (fun a b => a.typecode ≤ b.typecode) = receivers
  := by
  apply List.mergeSort_of_pairwise
  rw [List.pairwise_map] at h
  apply h.imp fun hlt => by simpa using hlt.le

theorem tryFromItems_items {address : UnifiedAddress c} :
  UnifiedAddress.tryFromItems address.items = .ok address
  := by
  unfold UnifiedAddress.tryFromItems
  dsimp only
  split
  · rename_i hok
    congr 1
    cases address
    simp only [UnifiedAddress.mk.injEq]
    apply mergeSort_eq_self (UnifiedAddress.pairwise ⟨_, ‹_›⟩)
  · rename_i error herror
    rw [mergeSort_eq_self address.pairwise, address.ok] at herror
    cases herror

theorem items_of_tryFromItems {receivers : List (Receiver c)} {address : UnifiedAddress c}
    (hpairwise : (receivers.map Receiver.typecode).Pairwise (· < ·))
    (h : UnifiedAddress.tryFromItems receivers = .ok address) :
  address.items = receivers
  := by
  unfold UnifiedAddress.tryFromItems at h
  dsimp only at h
  split at h
  · cases h
    apply mergeSort_eq_self hpairwise
  · cases h

theorem length_hrpPadding (h : hrp.length ≤ 16) : (hrpPadding hrp).length = 16
  := by
  rw [hrpPadding, List.length_append, List.length_map, List.length_replicate]
  omega

/-- The bytes of a container. -/
def containerBytes (hrp : Text) (address : UnifiedAddress c) : List UInt8 :=
  address.items.flatMap Receiver.typedEncoding ++ hrpPadding hrp

/-- The jumbled bytes of a container with supported receivers are decoded. -/
theorem decodeUnified_f4jumble (hrp : Text) {address : UnifiedAddress c}
    (hvalid : validateUnifiedReceivers address = .ok ()) (hhrp : hrp.length ≤ 16) :
  Jumblable (containerBytes hrp address) ∧ (containerBytes hrp address).length ≤ 200
    ∧ decodeUnified c hrp (c.f4jumble (containerBytes hrp address)) = .ok address
  := by
  obtain ⟨hsupported, hironwood⟩ := supported_of_checkReceivers hvalid
  have hfound : ∃ receiver ∈ address.items, receiver.typecode = 3 := by
    rcases hironwood with hironwood | hironwood
    · cases hironwood
    · apply hironwood
  obtain ⟨hjumblable, hshort⟩ := jumblable_of_supported hsupported hfound address.pairwise
    (length_hrpPadding hhrp)
  refine ⟨hjumblable, hshort, ?_⟩
  set raw := address.items.flatMap Receiver.typedEncoding with hraw
  have hlength := c.length_f4jumble _ hjumblable
  have hpadding := length_hrpPadding hhrp
  have hcount : (raw ++ hrpPadding hrp).length - 16 = raw.length := by
    rw [List.length_append, hpadding]
    omega
  have hfuel : address.items.length ≤ raw.length := length_le_flatMap_typedEncoding hsupported
  have hread : readReceivers c raw.length none raw = .ok address.items :=
    readReceivers_flatMap hfuel hsupported nofun address.pairwise
  unfold containerBytes
  rw [← hraw]
  rw [decodeUnified, ensure, if_pos (by unfold Jumblable at hjumblable ⊢; rw [hlength]; exact hjumblable),
    c.f4jumbleInv_f4jumble _ hjumblable]
  simp only [ensure, bind, Except.bind]
  rw [if_pos (by rw [List.length_append, hpadding]; omega), hcount, List.drop_left, if_pos rfl,
    List.take_left, hread]
  dsimp only
  rw [tryFromItems_items]
  rfl

/-- Bytes from which a container is decoded are its jumbled bytes. -/
theorem of_decodeUnified {address : UnifiedAddress c}
    (h : decodeUnified c hrp bytes = .ok address) :
  Jumblable (containerBytes hrp address) ∧ c.f4jumble (containerBytes hrp address) = bytes
  := by
  obtain ⟨_, hjumblable, h⟩ := bind_eq_ok.mp h
  obtain ⟨_, -, h⟩ := bind_eq_ok.mp h
  obtain ⟨_, hpadding, h⟩ := bind_eq_ok.mp h
  obtain ⟨receivers, hreceivers, h⟩ := bind_eq_ok.mp h
  rw [ensure_eq_ok] at hjumblable hpadding
  obtain ⟨hraw, -, hpairwise⟩ := of_readReceivers hreceivers
  have hitems : address.items = receivers := by
    apply items_of_tryFromItems hpairwise
    cases htry : UnifiedAddress.tryFromItems receivers with
    | ok other =>
      rw [htry] at h
      cases h
      rfl
    | error error =>
      rw [htry] at h
      cases h
  have hbytes : containerBytes hrp address = c.f4jumbleInv bytes := by
    rw [containerBytes, hitems, hraw, ← hpadding, List.take_append_drop]
  rw [hbytes]
  refine ⟨?_, c.f4jumble_f4jumbleInv bytes hjumblable⟩
  unfold Jumblable at hjumblable ⊢
  rw [c.length_f4jumbleInv bytes hjumblable]
  apply hjumblable

/-! ### Bech32m strings -/

theorem length_hrpstring :
  (hrpstring c hrp symbols).length = hrp.length + symbols.length + 7
  := by
  rw [hrpstring, List.length_append, List.length_cons, List.length_map, List.length_append,
    c.length_checksum]
  omega

/-- A string is that of symbols only. -/
theorem hrpstring_inj {symbols' : List (Fin 32)} (h : LowerHrp hrp) :
  hrpstring c hrp symbols = hrpstring c hrp symbols' ↔ symbols = symbols'
  := by
  constructor
  · intro hsame
    have hfirst := checkedHrpstring_hrpstring h (le_refl (hrpstring c hrp symbols).length)
    have hsecond := checkedHrpstring_hrpstring h (le_refl (hrpstring c hrp symbols').length)
    rw [hsame, hsecond, Option.some_inj, Prod.mk.injEq] at hfirst
    apply hfirst.2.symm
  · rintro rfl
    rfl

/-- The bytes of symbols are written as a string of these symbols when the fill is right. -/
theorem encodeBech32_byteIter (codeLength : Nat) (h : LowerHrp hrp)
    (hlength : (hrpstring c hrp symbols).length ≤ codeLength) :
  encodeBech32 c codeLength hrp (byteIter symbols) = some (hrpstring c hrp symbols)
    ↔ CanonicalFill symbols
  := by
  rw [← bytesToFes_byteIter, ← hrpstring_inj (c := c) h, encodeBech32]
  split
  · rw [Option.some_inj]
  · rename_i hlong
    constructor
    · nofun
    · intro hsame
      rw [hsame] at hlong
      exact absurd hlength hlong

/-- The part of a string that is checked is before its last separator. -/
theorem splitLast_of_checked (h : checkedHrpstring c codeLength encoded = some (hrp, symbols)) :
  ∃ data, splitLast encoded = some (hrp, data)
  := by
  obtain ⟨⟨part, data⟩, hsplit, h⟩ := Option.bind_eq_some_iff.mp h
  obtain ⟨all, -, h⟩ := Option.bind_eq_some_iff.mp h
  dsimp only at h
  split at h
  · cases h
    exact ⟨data, hsplit⟩
  · cases h

namespace WcashAddress

/-! ### The branches of the parser -/

theorem fromUnified_eq_ok {data : UnifiedAddress c} {address : WcashAddress c} :
  fromUnified network data = .ok address
    ↔ ∃ h : validateUnifiedReceivers data = .ok (), address = ⟨network, .unified data h⟩
  := by
  unfold fromUnified
  split
  · rename_i h
    rw [Except.ok.injEq]
    exact ⟨fun hsame => ⟨h, hsame.symm⟩, fun ⟨_, hsame⟩ => hsame.symm⟩
  · rename_i error h
    constructor
    · nofun
    · rintro ⟨hok, -⟩
      rw [h] at hok
      cases hok

theorem ofVersion_eq_some {version : UInt8 × UInt8} {data : Hash160} {address : WcashAddress c}
    (h : ofVersion version data = some address) :
  version.1 = 0x10
    ∧ address.encode = some (encodeBase58Check c (version.1 :: version.2 :: data.val))
  := by
  unfold ofVersion at h
  split at h
  · rename_i network hnetwork
    have hversion : p2pkhVersion network = version := by
      simpa using List.find?_some hnetwork
    cases h
    rw [← hversion]
    exact ⟨p2pkhVersion_fst, rfl⟩
  split at h
  · rename_i network hnetwork
    have hversion : p2shVersion network = version := by
      simpa using List.find?_some hnetwork
    cases h
    rw [← hversion]
    exact ⟨p2shVersion_fst, rfl⟩
  · cases h

/-- The symbols of a string with the human-readable part of a container. -/
def unifiedSymbols (c : Crates) (encoded : Text) : Option (List (Fin 32)) :=
  match checkedHrpstring c zip316CodeLength encoded with
  | some (hrp, symbols) => if (unifiedNetwork hrp).isSome then some symbols else none
  | none => none

/-- The symbols of a string with the human-readable part of an address for transparent inputs
only. -/
def texSymbols (c : Crates) (encoded : Text) : Option (List (Fin 32)) :=
  match checkedHrpstring c bech32mCodeLength encoded with
  | some (hrp, symbols) => if (texNetwork hrp).isSome then some symbols else none
  | none => none

/-- The symbols of a Bech32m string with the human-readable part of an address. -/
def addressSymbols (c : Crates) (encoded : Text) : Option (List (Fin 32)) :=
  (unifiedSymbols c encoded).orElse fun _ => texSymbols c encoded

theorem checked_of_unifiedSymbols (h : unifiedSymbols c encoded = some symbols) :
  ∃ network, checkedHrpstring c zip316CodeLength encoded = some (unifiedHrp network, symbols)
  := by
  unfold unifiedSymbols at h
  split at h
  · rename_i hrp found hchecked
    split at h
    · rename_i hsome
      obtain ⟨network, hnetwork⟩ := Option.isSome_iff_exists.mp hsome
      cases h
      exact ⟨network, by rw [hchecked, unifiedHrp_of_unifiedNetwork hnetwork]⟩
    · cases h
  · cases h

theorem checked_of_texSymbols (h : texSymbols c encoded = some symbols) :
  ∃ network, checkedHrpstring c bech32mCodeLength encoded = some (texHrp network, symbols)
  := by
  unfold texSymbols at h
  split at h
  · rename_i hrp found hchecked
    split at h
    · rename_i hsome
      obtain ⟨network, hnetwork⟩ := Option.isSome_iff_exists.mp hsome
      cases h
      exact ⟨network, by rw [hchecked, texHrp_of_texNetwork hnetwork]⟩
    · cases h
  · cases h

/-- A string without the human-readable part of a container has no symbols of one. -/
theorem unifiedSymbols_eq_none (h : parseUnified c encoded = none) :
  unifiedSymbols c encoded = none
  := by
  cases hsymbols : unifiedSymbols c encoded with
  | none => rfl
  | some symbols =>
    obtain ⟨network, hchecked⟩ := checked_of_unifiedSymbols hsymbols
    simp [parseUnified, hchecked, unifiedNetwork_unifiedHrp] at h

/-- What a string with the human-readable part of a container is parsed to. -/
theorem parseUnified_eq_some {result : Except WcashAddressParseError (WcashAddress c)}
    (h : parseUnified c encoded = some result) :
  ∃ network symbols, encoded = hrpstring c (unifiedHrp network) symbols
    ∧ encoded.length ≤ zip316CodeLength ∧ addressSymbols c encoded = some symbols
    ∧ result = (decodeUnified c (unifiedHrp network) (byteIter symbols)
      >>= fromUnified network)
  := by
  obtain ⟨⟨hrp, symbols⟩, hchecked, hbranch⟩ := Option.bind_eq_some_iff.mp h
  obtain ⟨network, hnetwork, hresult⟩ := Option.bind_eq_some_iff.mp hbranch
  obtain rfl := unifiedHrp_of_unifiedNetwork hnetwork
  cases hresult
  obtain ⟨hencoded, hlength⟩ := eq_hrpstring_of_checked (lowerHrp_unifiedHrp _) hchecked
  refine ⟨network, symbols, hencoded, hlength, ?_, rfl⟩
  simp [addressSymbols, unifiedSymbols, hchecked, hnetwork]

/-- What a string with the human-readable part of an address for transparent inputs only is
parsed to. -/
theorem parseTex_eq_some {result : Except WcashAddressParseError (WcashAddress c)}
    (h : parseTex c encoded = some result) :
  ∃ network symbols, encoded = hrpstring c (texHrp network) symbols
    ∧ encoded.length ≤ bech32mCodeLength
    ∧ (parseUnified c encoded = none → addressSymbols c encoded = some symbols)
    ∧ ∀ address, result = .ok address → ∃ h : (byteIter symbols).length = 20,
      address = ⟨network, .tex ⟨byteIter symbols, h⟩⟩
  := by
  obtain ⟨⟨hrp, symbols⟩, hchecked, hbranch⟩ := Option.bind_eq_some_iff.mp h
  obtain ⟨network, hnetwork, hresult⟩ := Option.bind_eq_some_iff.mp hbranch
  obtain rfl := texHrp_of_texNetwork hnetwork
  obtain ⟨hencoded, hlength⟩ := eq_hrpstring_of_checked (lowerHrp_texHrp _) hchecked
  refine ⟨network, symbols, hencoded, hlength, ?_, ?_⟩
  · intro hnone
    simp [addressSymbols, unifiedSymbols_eq_none hnone, texSymbols, hchecked, hnetwork]
  · rintro address rfl
    rw [Option.some_inj] at hresult
    split at hresult
    · rename_i hcount
      cases hresult
      exact ⟨hcount, rfl⟩
    · cases hresult

/-- A string that is parsed to a transparent address is its string, and does not start with
`w`. -/
theorem parseTransparent_eq_some {address : WcashAddress c}
    (h : parseTransparent c encoded = some address) :
  address.encode = some encoded ∧ ∀ rest, encoded ≠ 'w' :: rest
  := by
  unfold parseTransparent at h
  split at h
  · rename_i first second data hdecode
    split at h
    · rename_i hlength
      obtain ⟨hfirst, hencode⟩ := ofVersion_eq_some h
      have hencoded := encodeBase58Check_of_decode hdecode
      dsimp only at hfirst hencode
      rw [hencode, hencoded]
      refine ⟨rfl, ?_⟩
      rw [← hencoded, hfirst]
      intro rest
      apply head_encodeBase58Check hlength
    · cases h
  · cases h

theorem head_hrpstring_unifiedHrp (c : Crates) (network : NetworkType)
    (symbols : List (Fin 32)) :
  ∃ rest, hrpstring c (unifiedHrp network) symbols = 'w' :: rest
  := by
  obtain ⟨rest, hrest⟩ := head_unifiedHrp network
  rw [hrpstring, hrest]
  exact ⟨_, rfl⟩

theorem head_hrpstring_texHrp (c : Crates) (network : NetworkType) (symbols : List (Fin 32)) :
  ∃ rest, hrpstring c (texHrp network) symbols = 'w' :: rest
  := by
  obtain ⟨rest, hrest⟩ := head_texHrp network
  rw [hrpstring, hrest]
  exact ⟨_, rfl⟩

/-- A string that starts without `w` is not a Bech32m string of an address. -/
theorem parseUnified_eq_none (h : ∀ rest, encoded ≠ 'w' :: rest) :
  parseUnified c encoded = none
  := by
  cases hparse : parseUnified c encoded with
  | none => rfl
  | some result =>
    obtain ⟨network, symbols, hencoded, -⟩ := parseUnified_eq_some hparse
    obtain ⟨rest, hrest⟩ := head_hrpstring_unifiedHrp c network symbols
    exact absurd (hencoded.trans hrest) (h rest)

theorem parseTex_eq_none (h : ∀ rest, encoded ≠ 'w' :: rest) :
  parseTex c encoded = none
  := by
  cases hparse : parseTex c encoded with
  | none => rfl
  | some result =>
    obtain ⟨network, symbols, hencoded, -⟩ := parseTex_eq_some hparse
    obtain ⟨rest, hrest⟩ := head_hrpstring_texHrp c network symbols
    exact absurd (hencoded.trans hrest) (h rest)

/-- No string has two human-readable parts. -/
theorem parseTex_eq_none_of_parseUnified
    {result : Except WcashAddressParseError (WcashAddress c)}
    (h : parseUnified c encoded = some result) :
  parseTex c encoded = none
  := by
  cases hparse : parseTex c encoded with
  | none => rfl
  | some other =>
    obtain ⟨⟨hrp, symbols⟩, hchecked, h⟩ := Option.bind_eq_some_iff.mp h
    obtain ⟨network, hnetwork, -⟩ := Option.bind_eq_some_iff.mp h
    obtain ⟨⟨hrp', symbols'⟩, hchecked', hparse⟩ := Option.bind_eq_some_iff.mp hparse
    obtain ⟨network', hnetwork', -⟩ := Option.bind_eq_some_iff.mp hparse
    obtain ⟨data, hsplit⟩ := splitLast_of_checked hchecked
    obtain ⟨data', hsplit'⟩ := splitLast_of_checked hchecked'
    rw [hsplit, Option.some_inj, Prod.mk.injEq] at hsplit'
    obtain ⟨rfl, -⟩ := hsplit'
    rw [← texHrp_of_texNetwork hnetwork', unifiedNetwork_texHrp] at hnetwork
    cases hnetwork

/-! ### The codec -/

/-- The string of an address is parsed to it. -/
theorem tryFromEncoded_encode (address : WcashAddress c) :
  ∃ encoded, address.encode = some encoded ∧ tryFromEncoded c encoded = .ok address
  := by
  obtain ⟨network, kind⟩ := address
  have htransparent : ∀ (version : UInt8 × UInt8) (data : Hash160) (address : WcashAddress c),
      version.1 = 0x10 → ofVersion version data = some address →
      tryFromEncoded c (encodeBase58Check c (version.1 :: version.2 :: data.val))
        = .ok address := by
    intro version data address hfirst hversion
    have hhead : ∀ rest, encodeBase58Check c (version.1 :: version.2 :: data.val)
        ≠ 'w' :: rest := by
      intro rest
      rw [hfirst]
      apply head_encodeBase58Check data.property
    have hparse : parseTransparent c (encodeBase58Check c (version.1 :: version.2 :: data.val))
        = some address := by
      simp only [parseTransparent, decodeBase58Check_encode, data.property, dite_true]
      apply hversion
    rw [tryFromEncoded, parseUnified_eq_none hhead, parseTex_eq_none hhead, hparse]
  cases kind with
  | unified data valid =>
    have hhrp : (unifiedHrp network).length ≤ 9 := by cases network <;> decide
    obtain ⟨hjumblable, hshort, hdecode⟩ :=
      decodeUnified_f4jumble (unifiedHrp network) valid (by omega)
    have hjumbled := c.length_f4jumble _ hjumblable
    have hlength : (hrpstring c (unifiedHrp network)
        (bytesToFes (c.f4jumble (containerBytes (unifiedHrp network) data)))).length
          ≤ zip316CodeLength := by
      have hfill := (fillLength_spec
        (c.f4jumble (containerBytes (unifiedHrp network) data)).length).2
      rw [length_hrpstring, length_bytesToFes, zip316CodeLength]
      omega
    refine ⟨hrpstring c (unifiedHrp network)
      (bytesToFes (c.f4jumble (containerBytes (unifiedHrp network) data))), ?_, ?_⟩
    · unfold containerBytes at hjumblable hlength
      simp only [encode, encodeUnifiedWithHrp, encodeBech32, if_pos hjumblable]
      rw [if_pos hlength]
      rfl
    · have hparse : parseUnified c (hrpstring c (unifiedHrp network)
          (bytesToFes (c.f4jumble (containerBytes (unifiedHrp network) data))))
          = some (.ok ⟨network, .unified data valid⟩) := by
        simp only [parseUnified, checkedHrpstring_hrpstring (lowerHrp_unifiedHrp _) hlength,
          Option.bind_eq_bind, Option.bind_some, unifiedNetwork_unifiedHrp, byteIter_bytesToFes,
          hdecode]
        rw [Option.some_inj]
        apply fromUnified_eq_ok.mpr ⟨valid, rfl⟩
      rw [tryFromEncoded, hparse]
  | p2pkh data =>
    refine ⟨_, rfl, ?_⟩
    apply htransparent _ data _ p2pkhVersion_fst
    rw [ofVersion, p2pkhNetwork_p2pkhVersion]
  | p2sh data =>
    refine ⟨_, rfl, ?_⟩
    apply htransparent _ data _ p2shVersion_fst
    rw [ofVersion, p2pkhNetwork_p2shVersion]
    dsimp only
    rw [p2shNetwork_p2shVersion]
  | tex data =>
    have hhrp : (texHrp network).length ≤ 11 := by cases network <;> decide
    have hlength : (hrpstring c (texHrp network) (bytesToFes data.val)).length
        ≤ bech32mCodeLength := by
      have hfill := (fillLength_spec data.val.length).2
      rw [length_hrpstring, length_bytesToFes, bech32mCodeLength, data.property]
      rw [data.property] at hfill
      omega
    have hzip : (hrpstring c (texHrp network) (bytesToFes data.val)).length
        ≤ zip316CodeLength := hlength.trans (by decide)
    refine ⟨hrpstring c (texHrp network) (bytesToFes data.val), ?_, ?_⟩
    · simp only [encode, encodeBech32, if_pos hlength]
    · have hunified : parseUnified c (hrpstring c (texHrp network) (bytesToFes data.val))
          = none := by
        simp only [parseUnified, checkedHrpstring_hrpstring (lowerHrp_texHrp _) hzip,
          Option.bind_eq_bind, Option.bind_some, unifiedNetwork_texHrp, Option.bind_none]
      have hparse : parseTex c (hrpstring c (texHrp network) (bytesToFes data.val))
          = some (.ok ⟨network, .tex data⟩) := by
        simp only [parseTex, checkedHrpstring_hrpstring (lowerHrp_texHrp _) hlength,
          Option.bind_eq_bind, Option.bind_some, texNetwork_texHrp, byteIter_bytesToFes,
          data.property, dite_true]
      rw [tryFromEncoded, hunified, hparse]

/-- The symbols of a string, if it is a Bech32m string of an address, are those of their
bytes. -/
def CanonicalSymbols (c : Crates) (encoded : Text) : Prop :=
  ∀ symbols, addressSymbols c encoded = some symbols → CanonicalFill symbols

/-- One of the branches of the parser reads an address from a string. -/
def Parses (c : Crates) (encoded : Text) (address : WcashAddress c) : Prop :=
  parseUnified c encoded = some (.ok address) ∨ parseTex c encoded = some (.ok address)
    ∨ parseTransparent c encoded = some address

theorem parses_of_tryFromEncoded {address : WcashAddress c}
    (h : tryFromEncoded c encoded = .ok address) :
  Parses c encoded address
  := by
  unfold tryFromEncoded at h
  split at h
  · rename_i result hparse
    rw [h] at hparse
    exact .inl hparse
  split at h
  · rename_i result hparse
    rw [h] at hparse
    exact .inr (.inl hparse)
  split at h
  · rename_i result hparse
    cases h
    exact .inr (.inr hparse)
  · split at h <;> cases h

/-- No string is an address in two ways. -/
theorem Parses.unique {a b : WcashAddress c} (ha : Parses c encoded a) (hb : Parses c encoded b) :
  a = b
  := by
  have hunified : ∀ {a b : WcashAddress c}, parseUnified c encoded = some (.ok a) →
      Parses c encoded b → a = b := by
    intro a b ha hb
    rcases hb with hb | hb | hb
    · rw [ha] at hb
      cases hb
      rfl
    · rw [parseTex_eq_none_of_parseUnified ha] at hb
      cases hb
    · rw [parseUnified_eq_none (parseTransparent_eq_some hb).2] at ha
      cases ha
  have htex : ∀ {a b : WcashAddress c}, parseTex c encoded = some (.ok a) →
      parseTransparent c encoded = some b → a = b := by
    intro a b ha hb
    rw [parseTex_eq_none (parseTransparent_eq_some hb).2] at ha
    cases ha
  rcases ha with ha | ha | ha
  · apply hunified ha hb
  · rcases hb with hb | hb | hb
    · apply (hunified hb (.inr (.inl ha))).symm
    · rw [ha] at hb
      cases hb
      rfl
    · apply htex ha hb
  · rcases hb with hb | hb | hb
    · apply (hunified hb (.inr (.inr ha))).symm
    · apply (htex hb ha).symm
    · rw [ha] at hb
      cases hb
      rfl

/-- The string of an address is the string from which it is parsed when the symbols are
canonical. -/
theorem encode_tryFromEncoded {address : WcashAddress c}
    (h : tryFromEncoded c encoded = .ok address) :
  address.encode = some encoded ↔ CanonicalSymbols c encoded
  := by
  have hiff : ∀ {symbols : List (Fin 32)}, addressSymbols c encoded = some symbols →
      (CanonicalSymbols c encoded ↔ CanonicalFill symbols) := by
    intro symbols hsymbols
    constructor
    · intro hcanonical
      apply hcanonical symbols hsymbols
    · intro hfill other hother
      rw [hsymbols, Option.some_inj] at hother
      rwa [← hother]
  unfold tryFromEncoded at h
  split at h
  · rename_i result hparse
    rw [h] at hparse
    obtain ⟨network, symbols, hencoded, hlength, hsymbols, hresult⟩ := parseUnified_eq_some hparse
    obtain ⟨data, hdata, hfrom⟩ := bind_eq_ok.mp hresult.symm
    obtain ⟨valid, rfl⟩ := fromUnified_eq_ok.mp hfrom
    obtain ⟨hjumblable, hjumbled⟩ := of_decodeUnified hdata
    rw [hiff hsymbols, ← encodeBech32_byteIter (c := c) zip316CodeLength (lowerHrp_unifiedHrp network)
      (hencoded ▸ hlength), ← hjumbled, hencoded]
    unfold containerBytes at hjumblable ⊢
    simp only [encode, encodeUnifiedWithHrp, if_pos hjumblable]
  rename_i hunified
  split at h
  · rename_i result hparse
    rw [h] at hparse
    obtain ⟨network, symbols, hencoded, hlength, hsymbols, hresult⟩ := parseTex_eq_some hparse
    obtain ⟨hcount, rfl⟩ := hresult address rfl
    rw [hiff (hsymbols hunified), ← encodeBech32_byteIter (c := c) bech32mCodeLength
      (lowerHrp_texHrp network) (hencoded ▸ hlength), hencoded]
    rfl
  rename_i htex
  split at h
  · rename_i found hparse
    cases h
    refine ⟨fun _ => ?_, fun _ => (parseTransparent_eq_some hparse).1⟩
    intro symbols hsymbols
    have hhead := (parseTransparent_eq_some hparse).2
    exfalso
    rw [addressSymbols, unifiedSymbols_eq_none hunified] at hsymbols
    obtain ⟨network, hchecked⟩ := checked_of_texSymbols hsymbols
    obtain ⟨rest, hrest⟩ := head_hrpstring_texHrp c network symbols
    apply hhead rest ((eq_hrpstring_of_checked (lowerHrp_texHrp _) hchecked).1.trans hrest)
  · split at h <;> cases h

/-- Every address has a string, from which it is parsed; a string that is parsed is that of
its address exactly when the bits that are dropped from its symbols are those of the fill;
and no string is an address in two ways. -/
theorem codec_exact (c : Crates) :
  (∀ address : WcashAddress c, ∃ encoded, address.encode = some encoded
      ∧ tryFromEncoded c encoded = .ok address)
    ∧ (∀ encoded address, tryFromEncoded c encoded = .ok address →
      (address.encode = some encoded ↔ CanonicalSymbols c encoded))
    ∧ (∀ encoded address, tryFromEncoded c encoded = .ok address → Parses c encoded address)
    ∧ ∀ encoded a b, Parses c encoded a → Parses c encoded b → a = b
  := ⟨tryFromEncoded_encode, fun _ _ => encode_tryFromEncoded, fun _ _ => parses_of_tryFromEncoded,
    fun _ _ _ => Parses.unique⟩

end WcashAddress

/-! ### A sample -/

/-- A step of the checksum of Bech32m. -/
def polymodStep (checksum symbol : Nat) : Nat :=
  let top := checksum >>> 25
  [(0, 0x3b6a57b2), (1, 0x26508e6d), (2, 0x1ea119fa), (3, 0x3d4233dd), (4, 0x2a1462b3)].foldl
    (fun checksum (bit, generator) =>
      if top.testBit bit then checksum ^^^ generator else checksum)
    (((checksum &&& 0x1ffffff) <<< 5) ^^^ symbol)

/-- The checksum of Bech32m. -/
def bech32mChecksum (hrp : Text) (symbols : List (Fin 32)) : List (Fin 32) :=
  let expanded := hrp.map (fun ch => ch.toNat >>> 5) ++ [0] ++ hrp.map fun ch => ch.toNat &&& 31
  let residue := (expanded ++ symbols.map Fin.val ++ List.replicate 6 0).foldl polymodStep 1
    ^^^ 0x2bc830a3
  [25, 20, 15, 10, 5, 0].map fun shift => Fin.ofNat 32 (residue >>> shift)

/-- Libraries with the checksum of Bech32m, compact sizes of one byte, the receivers that are
supported, and no jumbling. -/
def sampleCrates : Crates where
  checksum := bech32mChecksum
  length_checksum := fun _ _ => rfl
  baseCheck := fun _ => [0, 0, 0, 0]
  length_baseCheck := fun _ => rfl
  f4jumble := id
  f4jumbleInv := id
  length_f4jumble := fun _ _ => rfl
  length_f4jumbleInv := fun _ _ => rfl
  f4jumbleInv_f4jumble := fun _ _ => rfl
  f4jumble_f4jumbleInv := fun _ _ => rfl
  writeCompactSize := fun n => [UInt8.ofNat n]
  readCompactSize
    | [] => none
    | byte :: rest => some (byte.toNat, rest)
  writeCompactSize_small := fun _ _ => rfl
  writeCompactSize_ne_nil := fun _ => nofun
  readCompactSize_small := by
    intro n hn rest
    simp only [List.cons_append, List.nil_append, UInt8.toNat_ofNat']
    rw [Nat.mod_eq_of_lt (by omega)]
  eq_of_readCompactSize := by
    intro bytes n rest h
    cases bytes with
    | nil => cases h
    | cons byte bytes =>
      cases h
      rw [UInt8.ofNat_toNat]
      rfl
  receiverError := fun typecode data =>
    if typecode ≤ 1 ∧ data.length = 20 ∨ typecode = 3 ∧ data.length = 43 then none
    else some "invalid receiver"
  length_transparent := by
    intro typecode htypecode data h
    split at h
    · omega
    · cases h
  length_orchard := by
    intro data h
    split at h
    · omega
    · cases h
  containerError := fun typecodes =>
    if typecodes.Pairwise (· < ·) then none else some "invalid container"
  pairwise_typecodes := by
    intro typecodes h
    split at h
    · assumption
    · cases h

/-- The string of a hash of zeros that transparent inputs may pay. -/
def sampleTex : Text :=
  hrpstring sampleCrates (texHrp .main) (List.replicate 32 0)

/-- The same bytes with one more symbol. -/
def sampleLongTex : Text :=
  hrpstring sampleCrates (texHrp .main) (List.replicate 33 0)

instance (symbols : List (Fin 32)) : Decidable (CanonicalFill symbols) :=
  inferInstanceAs (Decidable (_ ∧ _))

/-- The string without the additional symbol is parsed, to an address with this string. -/
theorem codec_exact_sample :
  ∃ address, WcashAddress.tryFromEncoded sampleCrates sampleTex = .ok address
    ∧ address.encode = some sampleTex
  := by
  have hok : (WcashAddress.tryFromEncoded sampleCrates sampleTex).toOption.isSome := by
    decide +kernel
  have hsymbols : WcashAddress.addressSymbols sampleCrates sampleTex
      = some (List.replicate 32 0) := by
    decide +kernel
  have hfill : CanonicalFill (List.replicate 32 0) := by
    decide +kernel
  cases hparse : WcashAddress.tryFromEncoded sampleCrates sampleTex with
  | error error =>
    rw [hparse] at hok
    cases hok
  | ok address =>
    refine ⟨address, rfl, ?_⟩
    obtain ⟨-, hcanonical, -⟩ := WcashAddress.codec_exact sampleCrates
    rw [hcanonical sampleTex address hparse]
    intro symbols hsome
    rw [hsymbols, Option.some_inj] at hsome
    rwa [← hsome]

/-- The string with the additional symbol is parsed to an address with another string. -/
theorem sampleLongTex_parsed :
  ¬∀ encoded address, WcashAddress.tryFromEncoded sampleCrates encoded = .ok address →
    address.encode = some encoded
  := by
  intro h
  have hencode : (WcashAddress.tryFromEncoded sampleCrates sampleLongTex).toOption.map
      WcashAddress.encode = some (some sampleTex) := by
    decide +kernel
  have hne : sampleTex ≠ sampleLongTex := by
    decide +kernel
  cases hparse : WcashAddress.tryFromEncoded sampleCrates sampleLongTex with
  | error error =>
    rw [hparse] at hencode
    cases hencode
  | ok address =>
    rw [hparse] at hencode
    have hsame : some address.encode = some (some sampleTex) := hencode
    rw [h sampleLongTex address hparse, Option.some_inj, Option.some_inj] at hsame
    apply hne hsame.symm

end Address

end Vizor
