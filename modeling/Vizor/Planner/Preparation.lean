import Vizor.Planner.BalancedSplit
import Vizor.Planner.Denomination

/-!
# The preparation planner

`planPreparation` tries the largest-first layered greedy and, when that runs out of funds,
the consolidation fallback.  Both first use the wallet notes that already are funding
notes.
-/

namespace Vizor.Planner

open Layered

/-! ### Direct funding -/

/-- The funding values still to produce: the positive ones, in decreasing order. -/
def positiveFunding (funding : List Zatoshis) : List Nat :=
  sortDescending ((funding.map Zatoshis.value).filter fun v => 0 < v)

/-- The first available note that is not used and is worth `funding`. -/
def findUnused (available : List Nat) (used : List Bool) (funding : Nat) : Option Nat :=
  (available.zip used).findIdx? fun (value, used) => !used && value == funding

/-- Matching each funding value with the first unused wallet note of that value: the
wallet notes used afterwards, the matched notes, and the values that were not matched. -/
def extractDirectFunding (available : List Nat) :
    List Nat → List Bool → Outcome PrepError (List Bool × List (Nat × Zatoshis) × List Nat)
  | [], used => .ok (used, [], [])
  | funding :: rest, used =>
    match findUnused available used funding with
    | some index => do
      let value ← zat funding
      let (used, direct, remaining) ← extractDirectFunding available rest (used.set index true)
      pure (used, (index, value) :: direct, remaining)
    | none => do
      let (used, direct, remaining) ← extractDirectFunding available rest used
      pure (used, direct, funding :: remaining)

/-- The wallet notes that are not used, by their index. -/
def unusedNotes (available : List Nat) (used : List Bool) : List (Nat × Nat) :=
  (available.zip used).zipIdx.filterMap fun ((value, used), index) =>
    if used then none else some (index, value)

/-- The last of the notes of largest value. -/
def lastLargest : List (Nat × Nat) → Option (Nat × Nat)
  | [] => none
  | note :: notes => some (notes.foldl (fun best n => if n.2 < best.2 then best else n) note)

/-- Wallet notes as inputs. -/
def walletInputs (notes : List (Nat × Nat)) : Outcome PrepError (List PrepInput) :=
  notes.mapM fun (index, value) => do
    let value ← zat value
    pure (.wallet index value)

/-! ### The layered greedy -/

/-- A note with the funding values it mints and the leftover of its budget. -/
structure Assignment where
  input : PrepInput
  assigned : List Nat
  leftover : Nat

/-- The values that fit, from the largest on, into what is left of `budget`, at most
`fundingOutputsPerTx` with the `count` taken so far; and the values not taken. -/
def takeFitting (budget : Nat) : (used count : Nat) → List Nat → List Nat × List Nat
  | _, _, [] => ([], [])
  | used, count, v :: vs =>
    if count < fundingOutputsPerTx ∧ used + v ≤ budget then
      let (assigned, kept) := takeFitting budget (used + v) (count + 1) vs
      (v :: assigned, kept)
    else
      let (assigned, kept) := takeFitting budget used count vs
      (assigned, v :: kept)

/-- The first pass over the notes of a layer: the assignments, the notes too small to fund
any remaining value, and the values that remain.  Once nothing remains, the other notes
stay unspent. -/
def assignFunding (fee : Nat) :
    List PrepInput → List Nat → List Assignment × List PrepInput × List Nat
  | [], remaining => ([], [], remaining)
  | input :: inputs, remaining =>
    match remaining.getLast? with
    | none => assignFunding fee inputs remaining
    | some smallest =>
      let value := input.value.value
      if value ≤ fee ∨ value - fee < smallest then
        let (partials, consolidatable, remaining) := assignFunding fee inputs remaining
        (partials, input :: consolidatable, remaining)
      else
        let budget := value - fee
        let (assigned, kept) := takeFitting budget 0 0 remaining
        let (partials, consolidatable, remaining) := assignFunding fee inputs kept
        (⟨input, assigned, budget - assigned.sum⟩ :: partials, consolidatable, remaining)

/-- The second pass: minting the assigned funding values and routing every leftover
forward as a feeder. -/
def mintAssignments (layer : Nat) : List Assignment → Round → Outcome PrepError Round
  | [], round => pure round
  | ⟨input, assigned, leftover⟩ :: assignments, round => do
    let values ← assigned.mapM zat
    if 0 < leftover then
      let value ← zat leftover
      mintAssignments layer assignments {
        txs := round.txs ++ [⟨[input], values.map .funding ++ [.intermediate value]⟩]
        next := round.next ++ [.prior layer round.txs.length values.length value] }
    else
      mintAssignments layer assignments {
        txs := round.txs ++ [⟨[input], values.map .funding⟩]
        next := round.next }

/-- The layers of the greedy until nothing remains, in at most `fuel` rounds. -/
def greedyLoop (S : NoteSort) (fee : Nat) : (fuel : Nat) → List (List PrepTransaction) →
    List PrepInput → List Nat → Outcome PrepError (List (List PrepTransaction))
  | 0, _, _, _ => .error .outOfFuel
  | fuel + 1, layers, current, remaining =>
    if remaining.isEmpty then .ok layers
    else if current.isEmpty then .error (.error .insufficientFunds)
    else do
      let (partials, consolidatable, remaining) := assignFunding fee (S.sort current) remaining
      let round ← mintAssignments layers.length partials Round.empty
      let (_, round) ← consolidate S consolidatable layers.length fee round
      if round.txs.isEmpty then .error (.error .insufficientFunds)
      else greedyLoop S fee fuel (layers ++ [round.txs]) round.next remaining

/-- Consolidating the feeders that no layer spends, in at most `fuel` rounds. -/
def residualLoop (S : NoteSort) (fee : Nat) : (fuel : Nat) → List (List PrepTransaction) →
    Outcome PrepError (List (List PrepTransaction))
  | 0, _ => .error .outOfFuel
  | fuel + 1, layers =>
    let pool := unconsumedFeeders layers
    if pool.length ≤ 1 then .ok layers
    else do
      let (_, round) ← consolidate S pool layers.length fee Round.empty
      if round.txs.isEmpty then .ok layers
      else residualLoop S fee fuel (layers ++ [round.txs])

/-- The fan-out fast path: when the largest unused note can produce every remaining value,
the layers of its balanced split. -/
def fanOut (notes : List (Nat × Nat)) (remaining : List Nat) (fee : Nat) :
    Outcome PrepError (Option (List (List PrepTransaction))) :=
  match lastLargest notes with
  | none => pure none
  | some (index, big) => do
    let (_, cost) ← subtreeCost remaining fee
    if cost ≤ big then
      let value ← zat big
      let layers ← buildSplit (.wallet index value) big remaining fee 0 []
      pure (some layers)
    else pure none

/-- The layers that mint the remaining values: those of the fast path, or those of the
greedy. -/
def mintingLayers (S : NoteSort) (fee : Nat) (current : List PrepInput) (remaining : List Nat) :
    Option (List (List PrepTransaction)) → Outcome PrepError (List (List PrepTransaction))
  | some layers => pure layers
  | none => greedyLoop S fee (remaining.length + current.length + 1) [] current remaining

/-- The checks that the available and the requested totals are amounts. -/
def checkTotals (available funding : List Zatoshis) : Outcome PrepError Unit :=
  match Zatoshis.sum available with
  | none => .error (.error .balanceInvalid)
  | some _ =>
    match Zatoshis.sum funding with
    | none => .error (.error .balanceInvalid)
    | some _ => .ok ()

/-- The largest-first layered greedy. -/
def planPreparationGreedy (S : NoteSort) (available funding : List Zatoshis)
    (feePerTx : Zatoshis) : Outcome PrepError PreparationPlan := do
  checkTotals available funding
  let values := available.map Zatoshis.value
  let fee := feePerTx.value
  let (used, directFunding, remaining) ←
    extractDirectFunding values (positiveFunding funding) (List.replicate values.length false)
  if remaining.isEmpty then pure ⟨[], directFunding⟩
  else
    let split ← fanOut (unusedNotes values used) remaining fee
    let current ← walletInputs (unusedNotes values used)
    let layers ← mintingLayers S fee current remaining split
    let layers ← residualLoop S fee ((unconsumedFeeders layers).length + 1) layers
    pure ⟨relabelUnspent layers, directFunding⟩

/-! ### The consolidation fallback -/

/-- Consolidating the notes `current` into one, in at most `fuel` rounds. -/
def consolidateAll (S : NoteSort) (fee : Nat) : (fuel : Nat) → List (List PrepTransaction) →
    List PrepInput → Outcome PrepError (List (List PrepTransaction) × List PrepInput)
  | 0, _, _ => .error .outOfFuel
  | fuel + 1, layers, current =>
    if current.length ≤ 1 then .ok (layers, current)
    else do
      let (leftover, round) ← consolidate S current layers.length fee Round.empty
      if round.txs.isEmpty then .error (.error .insufficientFunds)
      else consolidateAll S fee fuel (layers ++ [round.txs]) (round.next ++ leftover)

/-- The fallback: consolidating every other positive wallet note into one feeder and
splitting that. -/
def planPreparationViaConsolidation (S : NoteSort) (available funding : List Zatoshis)
    (feePerTx : Zatoshis) : Outcome PrepError PreparationPlan := do
  checkTotals available funding
  let values := available.map Zatoshis.value
  let fee := feePerTx.value
  let (used, directFunding, targets) ←
    extractDirectFunding values (positiveFunding funding) (List.replicate values.length false)
  if targets.isEmpty then pure ⟨[], directFunding⟩
  else
    let current ← walletInputs ((unusedNotes values used).filter fun note => 0 < note.2)
    if current.isEmpty then .error (.error .insufficientFunds)
    else
      let (layers, current) ← consolidateAll S fee current.length [] current
      match current.getLast? with
      | none => .error .panic
      | some source =>
        let (_, cost) ← subtreeCost targets fee
        if source.value.value < cost then .error (.error .insufficientFunds)
        else
          let layers ← buildSplit source source.value.value targets fee layers.length layers
          pure ⟨relabelUnspent layers, directFunding⟩

/-- Planning the transactions that mint the `funding` notes from the `available` notes,
with a fee of `feePerTx` for each. -/
def planPreparation (S : NoteSort) (available funding : List Zatoshis)
    (feePerTx : Zatoshis) : Outcome PrepError PreparationPlan :=
  match planPreparationGreedy S available funding feePerTx with
  | .error (.error .insufficientFunds) =>
    planPreparationViaConsolidation S available funding feePerTx
  | outcome => outcome

end Vizor.Planner
