import Vizor.Planner.Totality

/-!
# When the preparation planner succeeds

The exact-match pass matches as many funding values as the wallet notes allow.  The
planner succeeds when one of the notes can pay for all values that could be left
unmatched.
-/

namespace Vizor.Planner

variable {available funding : List Zatoshis} {fee : Nat} {direct : List (Nat × Zatoshis)}
  {used used' : List Bool} {remaining targets : List Nat} {S : NoteSort}

/-! ### The exact-match pass -/

/-- The values of the wallet notes that are not used. -/
def unusedValues (available : List Zatoshis) (used : List Bool) : List Nat :=
  (unusedNotes (available.map Zatoshis.value) used).map Prod.snd

/-- Using a note takes it from the unused ones. -/
theorem unusedNotes_set_perm {target index : Nat}
    (h : findUnused (available.map Zatoshis.value) used target = some index) :
  (unusedNotes (available.map Zatoshis.value) used).Perm
    ((index, target) :: unusedNotes (available.map Zatoshis.value) (used.set index true))
  := by
  obtain ⟨value, hav, hvalue, hfree⟩ := findUnused_eq_some h
  have hlt : index < used.length := (List.getElem?_eq_some_iff.mp hfree).1
  rw [List.perm_ext_iff_of_nodup ((unusedNotes_nodup _ _).of_map _)]
  · rintro ⟨i, v⟩
    rw [List.mem_cons, mem_unusedNotes, mem_unusedNotes]
    by_cases hi : i = index
    · subst hi
      rw [List.getElem?_set_self hlt, hav, hfree]
      simp [hvalue, eq_comm]
    · rw [List.getElem?_set_ne (Ne.symm hi)]
      simp [hi]
  · rw [List.nodup_cons]
    refine ⟨?_, (unusedNotes_nodup _ _).of_map _⟩
    intro hmem
    have := (mem_unusedNotes.mp hmem).2
    rw [List.getElem?_set_self hlt] at this
    cases this

theorem findUnused_eq_none {target : Nat}
    (h : findUnused (available.map Zatoshis.value) used target = none) :
  target ∉ unusedValues available used
  := by
  intro hmem
  obtain ⟨⟨index, v⟩, hnote, rfl⟩ := List.mem_map.mp hmem
  obtain ⟨⟨value, hav, hvalue⟩, hfree⟩ := mem_unusedNotes.mp hnote
  rw [findUnused, List.findIdx?_eq_none_iff] at h
  have hzip : (value.value, false) ∈ (available.map Zatoshis.value).zip used := by
    rw [List.mem_iff_getElem?]
    use index
    rw [List.getElem?_zip_eq_some, List.getElem?_map, hav]
    exact ⟨rfl, hfree⟩
  have := h _ hzip
  simp [hvalue] at this

/-- The exact-match pass matches every value as often as there are unused notes of that
value. -/
theorem extractDirectFunding_count
    (h : extractDirectFunding (available.map Zatoshis.value) targets used
      = .ok (used', direct, remaining)) (v : Nat) :
  remaining.count v = targets.count v - (unusedValues available used).count v ∧
    (unusedValues available used').count v
      = (unusedValues available used).count v - targets.count v
  := by
  induction targets generalizing used direct remaining with
  | nil =>
    cases h
    simp
  | cons t targets ih =>
    rw [extractDirectFunding] at h
    split at h
    · rename_i index hfind
      obtain ⟨value, -, h⟩ := Outcome.bind_eq_ok.mp h
      obtain ⟨⟨u, d, r⟩, hrec, h⟩ := Outcome.bind_eq_ok.mp h
      cases h
      obtain ⟨hremaining, hunused⟩ := ih hrec
      have hperm := ((unusedNotes_set_perm hfind).map Prod.snd).count_eq v
      rw [List.map_cons] at hperm
      have hcount : (unusedValues available used).count v
          = ([t].count v) + (unusedValues available (used.set index true)).count v := by
        rw [unusedValues, hperm, unusedValues, ← List.count_append, List.singleton_append]
      have htargets : (t :: targets).count v = [t].count v + targets.count v := by
        rw [← List.count_append, List.singleton_append]
      omega
    · rename_i hfind
      obtain ⟨⟨u, d, r⟩, hrec, h⟩ := Outcome.bind_eq_ok.mp h
      cases h
      obtain ⟨hremaining, hunused⟩ := ih hrec
      have hnone := List.count_eq_zero.mpr (findUnused_eq_none hfind)
      simp only [List.count_cons]
      by_cases htv : t = v
      · subst htv
        simp only [BEq.rfl, if_true]
        omega
      · have : (t == v) = false := by simpa using htv
        simp only [this, if_false, Bool.false_eq_true]
        omega

/-- Before the exact-match pass every note is unused. -/
theorem unusedValues_replicate (available : List Zatoshis) :
  (unusedValues available
      (List.replicate (available.map Zatoshis.value).length false)).Perm
    (available.map Zatoshis.value)
  := by
  have hperm : (unusedNotes (available.map Zatoshis.value)
      (List.replicate (available.map Zatoshis.value).length false)).Perm
        ((available.map Zatoshis.value).zipIdx.map Prod.swap) := by
    rw [List.perm_ext_iff_of_nodup ((unusedNotes_nodup _ _).of_map _)]
    · rintro ⟨index, v⟩
      rw [mem_unusedNotes]
      simp only [List.mem_map, Prod.exists, List.mem_zipIdx_iff_getElem?, List.getElem?_map,
        Option.map_eq_some_iff, Prod.swap_prod_mk, Prod.mk.injEq]
      constructor
      · rintro ⟨⟨value, hav, hvalue⟩, -⟩
        exact ⟨v, index, ⟨value, hav, hvalue⟩, rfl, rfl⟩
      · rintro ⟨v', index', ⟨value, hav, hvalue⟩, rfl, rfl⟩
        refine ⟨⟨value, hav, hvalue⟩, ?_⟩
        have hlt := (List.getElem?_eq_some_iff.mp hav).1
        rw [List.getElem?_replicate, List.length_map, if_pos hlt]
    · have hfst : (((available.map Zatoshis.value).zipIdx.map Prod.swap).map Prod.fst).Nodup := by
        rw [List.map_map]
        have : (Prod.fst ∘ Prod.swap : Nat × Nat → Nat) = Prod.snd := rfl
        rw [this, List.zipIdx_map_snd]
        exact List.nodup_range'
      exact hfst.of_map _
  have hsnd := hperm.map Prod.snd
  rw [List.map_map] at hsnd
  have hswap : (Prod.snd ∘ Prod.swap : Nat × Nat → Nat) = Prod.fst := rfl
  rwa [hswap, List.zipIdx_map_fst] at hsnd

/-- The exact-match pass of a request, starting from all wallet notes. -/
structure Extracted (available funding : List Zatoshis) (used : List Bool)
    (direct : List (Nat × Zatoshis)) (remaining : List Nat) : Prop where
  eq : extractDirectFunding (available.map Zatoshis.value) (positiveFunding funding)
    (List.replicate (available.map Zatoshis.value).length false) = .ok (used, direct, remaining)
  left : ∀ v, remaining.count v
    = (positiveFunding funding).count v - (available.map Zatoshis.value).count v
  free : ∀ v, (unusedValues available used).count v
    = (available.map Zatoshis.value).count v - (positiveFunding funding).count v

theorem exists_extracted (available : List Zatoshis) (hfund : zatTotal funding ≤ maxMoney) :
  ∃ used direct remaining, Extracted available funding used direct remaining
  := by
  have hsum := sum_positiveFunding_le funding
  obtain ⟨⟨used, direct, remaining⟩, hextract⟩ : ∃ r, extractDirectFunding
      (available.map Zatoshis.value) (positiveFunding funding)
      (List.replicate (available.map Zatoshis.value).length false) = .ok r := by
    apply extractDirectFunding_ok
    intro v hv
    have := List.single_le_sum (fun _ _ => Nat.zero_le _) v hv
    omega
  have hall := (unusedValues_replicate available).count_eq
  refine ⟨used, direct, remaining, hextract, fun v => ?_, fun v => ?_⟩
  · rw [(extractDirectFunding_count hextract v).1, hall]
  · rw [(extractDirectFunding_count hextract v).2, hall]

/-! ### One note pays -/

private theorem foldl_largest_le (notes : List (Nat × Nat)) (note : Nat × Nat) :
  ∀ n ∈ note :: notes, n.2 ≤ (notes.foldl (fun best n => if n.2 < best.2 then best else n) note).2
  := by
  induction notes generalizing note with
  | nil => simp
  | cons m notes ih =>
    intro n hn
    rw [List.foldl_cons]
    have hchoice : note.2 ≤ (if m.2 < note.2 then note else m).2 ∧
        m.2 ≤ (if m.2 < note.2 then note else m).2 := by
      split <;> omega
    have hbest := ih (if m.2 < note.2 then note else m)
    have hstart := hbest _ List.mem_cons_self
    rcases List.mem_cons.mp hn with rfl | hn
    · apply hchoice.1.trans hstart
    · rcases List.mem_cons.mp hn with rfl | hn
      · apply hchoice.2.trans hstart
      · apply hbest n (List.mem_cons_of_mem _ hn)

/-- The largest note is at least as large as every note. -/
theorem lastLargest_le {notes : List (Nat × Nat)} {note : Nat × Nat}
    (h : lastLargest notes = some note) :
  ∀ n ∈ notes, n.2 ≤ note.2
  := by
  cases notes with
  | nil => cases h
  | cons n notes =>
    rw [lastLargest, Option.some_inj] at h
    subst h
    apply foldl_largest_le notes n

/-- A few values within the money supply fit. -/
theorem Fits.of_short {values : List Nat} (hlen : values.length ≤ 14)
    (hsum : values.sum ≤ maxMoney) (hfee : fee ≤ maxMoney) :
  Fits values fee
  := by
  have hmul : (fee + 1) * (2 * values.length) ≤ (fee + 1) * 28 :=
    Nat.mul_le_mul_left _ (by omega)
  unfold Fits u64Size
  unfold maxMoney at hsum hfee
  omega

/-- The cost of a few values is their sum and one fee. -/
theorem subtreeCost_short (hlen : targets.length ≤ 14) (hsum : targets.sum ≤ maxMoney)
    (hfee : fee ≤ maxMoney) :
  subtreeCost targets fee = .ok (1, targets.sum + fee) ∧ splitCount targets fee = 1
  := by
  have hbig : maxMoney + maxMoney < u64Size := by decide
  have hcost : subtreeCost targets fee = .ok (1, targets.sum + fee) := by
    rw [subtreeCost_leaf (leaf_of_length_le hlen), Nat.mod_eq_of_lt (by omega)]
  refine ⟨hcost, ?_⟩
  rw [splitCount, hcost]

/-- A source that is worth a few values and one fee can be split into them. -/
theorem buildSplit_short {sourceValue layer : Nat} {source : PrepInput}
    {layers : List (List PrepTransaction)} (hne : targets ≠ []) (hlen : targets.length ≤ 14)
    (hcost : targets.sum + fee ≤ sourceValue) (hmax : sourceValue ≤ maxMoney) :
  ∃ layers', buildSplit source sourceValue targets fee layer layers = .ok layers'
  := by
  have hcount := (subtreeCost_short hlen (by omega) (by omega : fee ≤ maxMoney)).2
  have hfits : Fits targets fee := Fits.of_short hlen (by omega) (by omega)
  apply buildSplitWith_ok (Nat.lt_succ_self _) hne (twice_length_le hfits) _ hmax
  rw [hcount, Nat.mul_one]
  apply hcost

/-- The fast path applies when an unused note is worth the remaining values and a fee. -/
theorem fanOut_of_note (hne : remaining ≠ []) (hlen : remaining.length ≤ 14)
    (hnote : ∃ v ∈ unusedValues available used, remaining.sum + fee ≤ v) :
  ∃ layers, fanOut (unusedNotes (available.map Zatoshis.value) used) remaining fee
    = .ok (some layers)
  := by
  obtain ⟨v, hv, hcost⟩ := hnote
  obtain ⟨note, hmem, rfl⟩ := List.mem_map.mp hv
  rw [fanOut]
  split
  · rename_i hnone
    cases hnotes : unusedNotes (available.map Zatoshis.value) used with
    | nil => simp [hnotes] at hmem
    | cons n notes => simp [hnotes, lastLargest] at hnone
  · rename_i index big hlargest
    have hbig : big ≤ maxMoney := unusedNotes_le (lastLargest_mem hlargest)
    have hle := lastLargest_le hlargest note hmem
    dsimp only at hle
    obtain ⟨value, -, hvalue⟩ := exists_zat (ε := PrepError) hbig
    obtain ⟨layers, hlayers⟩ : ∃ layers, buildSplit (.wallet index value) big remaining fee 0 []
        = .ok layers := buildSplit_short hne hlen (by omega) hbig
    rw [(subtreeCost_short hlen (by omega) (by omega : fee ≤ maxMoney)).1]
    simp only [bind, Except.bind, if_pos (show remaining.sum + fee ≤ big by omega), hvalue, hlayers]
    exact ⟨_, rfl⟩

/-- The greedy succeeds when the funding values are in part worth distinct wallet notes, a
further wallet note is worth the others and a fee, and the others are few. -/
theorem planPreparationGreedy_of_cover {feePerTx : Zatoshis} {matched others : List Nat}
    {source : Nat} (hmax : zatTotal available ≤ maxMoney) (hfund : zatTotal funding ≤ maxMoney)
    (hperm : (positiveFunding funding).Perm (matched ++ others))
    (hcover : (matched ++ [source]).Subperm (available.map Zatoshis.value))
    (hsource : others.sum + feePerTx.value ≤ source) (hlen : others.length ≤ 14)
    (hfee : 0 < feePerTx.value) :
  ∃ plan, planPreparationGreedy S available funding feePerTx = .ok plan
  := by
  obtain ⟨used, direct, remaining, hextract⟩ := exists_extracted available hfund
  have hcounts : ∀ v, (positiveFunding funding).count v = matched.count v + others.count v ∧
      matched.count v + [source].count v ≤ (available.map Zatoshis.value).count v := by
    intro v
    have := hcover.count_le v
    rw [List.count_append] at this
    rw [hperm.count_eq, List.count_append]
    exact ⟨rfl, this⟩
  have hsub : remaining.Subperm others := by
    rw [List.subperm_ext_iff]
    intro v _
    have := hextract.left v
    have := hcounts v
    omega
  obtain ⟨sub, hsubperm, hsublist⟩ := hsub
  have hsum : remaining.sum ≤ others.sum := by
    rw [← hsubperm.sum_eq]
    apply hsublist.sum_le_sum fun _ _ => Nat.zero_le _
  have hshort : remaining.length ≤ 14 := by
    rw [← hsubperm.length_eq]
    apply hsublist.length_le.trans hlen
  have hfree : source ∈ unusedValues available used := by
    have hnot : others.count source = 0 := by
      rw [List.count_eq_zero]
      intro hmem
      have := List.single_le_sum (fun _ _ => Nat.zero_le _) source hmem
      omega
    have hself : [source].count source = 1 := by simp
    have := hcounts source
    rw [← List.count_pos_iff, hextract.free source]
    omega
  rw [planPreparationGreedy, checkTotals_ok hmax hfund]
  simp only [hextract.eq, bind, Except.bind]
  split
  · exact ⟨_, rfl⟩
  · rename_i hempty
    have hne : remaining ≠ [] := by simpa using hempty
    obtain ⟨layers, hfan⟩ : ∃ layers, fanOut (unusedNotes (available.map Zatoshis.value) used)
        remaining feePerTx.value = .ok (some layers) :=
      fanOut_of_note hne hshort ⟨source, hfree, by omega⟩
    obtain ⟨current, hcurrent⟩ : ∃ inputs,
        walletInputs (unusedNotes (available.map Zatoshis.value) used) = .ok inputs :=
      walletInputs_ok fun note hnote => unusedNotes_le hnote
    have hm := extractDirectFunding_spec hextract.eq
    have hs := (fanOut_sound feePerTx.le_maxMoney hm rfl hfan).1
    obtain ⟨layers', hlayers'⟩ : ∃ layers', residualLoop S feePerTx.value
        ((unconsumedFeeders layers).length + 1) layers = .ok layers' :=
      residualLoop_ok hmax hs (Nat.lt_succ_self _)
    simp only [hfan, hcurrent, mintingLayers, hlayers', pure, Except.pure]
    exact ⟨_, rfl⟩

end Vizor.Planner
