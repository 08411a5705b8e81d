import Mathlib
import MidnightNode.Offchain.Costs

/-!
# Inputs of the transactions of the smart contract tools

The inputs are added to a map by their ids, those of a script with a redeemer that has the cost of the
script. The cost is taken from the table before the UTXO is looked at, so that a missing cost panics
first.
-/

namespace MidnightNode.Offchain
open CNight (PlutusData)
open Fallible KeyedList

variable {U I H O : Type} [LinearOrder I]

/-- The CSL for a payment key: which UTXOs and which protocol parameters it takes, and how it balances.
-/
structure TransactionContext (U I H O : Type) [LinearOrder I] where
  toCslTxInput : U → I
  builderConfig : Except String Unit
  valueToCsl : U → Except String Unit
  addRegularUtxo : U → Except String Unit
  balancing : Balancing I H O

namespace TransactionContext

def addScriptUtxoInput (ctx : TransactionContext U I H O) (inputs : List (I × Option Redeemer)) (utxo : U)
    (data : PlutusData) (exUnits : ExUnits) : Except Failure (List (I × Option Redeemer)) := do
  let _ ← (ctx.valueToCsl utxo).mapError .error
  .ok (insertKey (ctx.toCslTxInput utxo) (some ⟨data, exUnits⟩) inputs)

def addRegularInput (ctx : TransactionContext U I H O) (inputs : List (I × Option Redeemer)) (utxo : U) :
    Except Failure (List (I × Option Redeemer)) := do
  let _ ← (ctx.addRegularUtxo utxo).mapError .error
  .ok (insertKey (ctx.toCslTxInput utxo) none inputs)

/-- The loop over the UTXOs of a script, where `cost` gives the cost of the one at a position. -/
def addScriptUtxoInputs (ctx : TransactionContext U I H O) (data : PlutusData)
    (cost : Nat → Except Failure ExUnits) :
    Nat → List U → List (I × Option Redeemer) → Except Failure (List (I × Option Redeemer))
  | _, [], inputs => .ok inputs
  | ix, utxo :: utxos, inputs => do
    let exUnits ← cost ix
    let inputs ← ctx.addScriptUtxoInput inputs utxo data exUnits
    ctx.addScriptUtxoInputs data cost (ix + 1) utxos inputs

variable {ctx : TransactionContext U I H O} {data : PlutusData} {cost : Nat → Except Failure ExUnits}
  {inputs inputs' : List (I × Option Redeemer)} {utxo : U} {utxos : List U} {exUnits : ExUnits} {ix : Nat}

theorem of_addScriptUtxoInput (h : ctx.addScriptUtxoInput inputs utxo data exUnits = .ok inputs') :
    inputs' = insertKey (ctx.toCslTxInput utxo) (some ⟨data, exUnits⟩) inputs := by
  obtain ⟨-, -, h⟩ := of_bind h
  cases h
  rfl

theorem of_addRegularInput (h : ctx.addRegularInput inputs utxo = .ok inputs') :
    inputs' = insertKey (ctx.toCslTxInput utxo) none inputs := by
  obtain ⟨-, -, h⟩ := of_bind h
  cases h
  rfl

theorem not_panics_addScriptUtxoInput : ¬ Panics (ctx.addScriptUtxoInput inputs utxo data exUnits) := by
  rw [addScriptUtxoInput, panics_bind_iff]
  rintro (hpanics | ⟨_, -, hpanics⟩)
  · exact not_panics_mapError _ hpanics
  · exact not_panics_ok _ hpanics

theorem not_panics_addRegularInput : ¬ Panics (ctx.addRegularInput inputs utxo) := by
  rw [addRegularInput, panics_bind_iff]
  rintro (hpanics | ⟨_, -, hpanics⟩)
  · exact not_panics_mapError _ hpanics
  · exact not_panics_ok _ hpanics

theorem lookup_addScriptUtxoInputs_of_notMem
    (h : ctx.addScriptUtxoInputs data cost ix utxos inputs = .ok inputs')
    (hi : i ∉ utxos.map ctx.toCslTxInput) : inputs'.lookup i = inputs.lookup i := by
  induction utxos generalizing ix inputs with
  | nil =>
    cases h
    rfl
  | cons utxo utxos ih =>
    obtain ⟨exUnits, -, h⟩ := of_bind h
    obtain ⟨next, hnext, h⟩ := of_bind h
    rw [List.map_cons, List.mem_cons, not_or] at hi
    rw [ih h hi.2, of_addScriptUtxoInput hnext, lookup_insertKey_ne hi.1]

theorem lookup_addScriptUtxoInputs (h : ctx.addScriptUtxoInputs data cost ix utxos inputs = .ok inputs')
    (hnodup : (utxos.map ctx.toCslTxInput).Nodup) (hn : utxos[n]? = some utxo) :
    ∃ exUnits, cost (ix + n) = .ok exUnits ∧
      inputs'.lookup (ctx.toCslTxInput utxo) = some (some ⟨data, exUnits⟩) := by
  induction utxos generalizing ix inputs n with
  | nil => simp at hn
  | cons first utxos ih =>
    obtain ⟨exUnits, hcost, hrest⟩ := of_bind h
    obtain ⟨next, hnext, htail⟩ := of_bind hrest
    rw [List.map_cons, List.nodup_cons] at hnodup
    cases n with
    | zero =>
      cases hn
      refine ⟨exUnits, hcost, ?_⟩
      rw [lookup_addScriptUtxoInputs_of_notMem htail hnodup.1, of_addScriptUtxoInput hnext,
        lookup_insertKey_self]
    | succ n =>
      rw [Nat.add_comm n 1, ← Nat.add_assoc]
      exact ih htail hnodup.2 hn

theorem panics_addScriptUtxoInputs_iff :
    Panics (ctx.addScriptUtxoInputs data (fun _ => one) ix utxos inputs) ↔ utxos ≠ [] ∧ Panics one := by
  induction utxos generalizing ix inputs with
  | nil => exact iff_of_false (not_panics_ok _) fun h => h.1 rfl
  | cons utxo utxos ih =>
    rw [addScriptUtxoInputs, panics_bind_iff, and_iff_right (List.cons_ne_nil utxo utxos)]
    refine or_iff_left ?_
    rintro ⟨exUnits, hone, hpanics⟩
    rcases panics_bind_iff.mp hpanics with hpanics | ⟨next, -, hpanics⟩
    · exact not_panics_addScriptUtxoInput hpanics
    · rw [hone] at ih
      exact not_panics_ok _ (ih.mp (hone ▸ hpanics)).2

end TransactionContext

/-! ## What a transaction spends -/

structure SpendsExactly (payment own regular : List I) (tx : Transaction I H O) : Prop where
  isScriptInput_iff : ∀ i, IsScriptInput tx i ↔ i ∈ own
  regular_mem : ∀ i ∈ regular, (i, none) ∈ tx.inputs.entries
  mem_payment : ∀ i redeemer, (i, redeemer) ∈ tx.inputs.entries → i ∈ own ∨ i ∈ regular ∨ i ∈ payment

theorem Balancing.spendsExactly {balancing : Balancing I H O} (h : balancing.build b = .ok tx)
    (hown : ∀ i ∈ own, ∃ redeemer, b.inputs.lookup i = some (some redeemer))
    (hregular : ∀ i ∈ regular, b.inputs.lookup i = some none)
    (hother : ∀ i, i ∉ own → i ∉ regular → b.inputs.lookup i = none) :
    SpendsExactly balancing.paymentKeyUtxos own regular tx where
  isScriptInput_iff i := by
    constructor
    · rintro ⟨redeemer, hmem⟩
      by_contra hi
      rcases balancing.of_mem_inputs h i _ hmem with hlookup | ⟨-, hnone, -⟩
      · by_cases hreg : i ∈ regular
        · rw [hregular i hreg] at hlookup
          cases hlookup
        · rw [hother i hi hreg] at hlookup
          cases hlookup
      · cases hnone
    · intro hi
      obtain ⟨redeemer, hlookup⟩ := hown i hi
      exact ⟨redeemer, balancing.mem_inputs h i _ hlookup⟩
  regular_mem i hi := balancing.mem_inputs h i none (hregular i hi)
  mem_payment i redeemer hmem := by
    rcases balancing.of_mem_inputs h i redeemer hmem with hlookup | ⟨-, -, hpayment⟩
    · by_contra hi
      rw [not_or, not_or] at hi
      rw [hother i hi.1 hi.2.1] at hlookup
      cases hlookup
    · exact .inr (.inr hpayment)

/-! ## Transactions that need no balancing -/

def Balancing.unchanged (payment : List I) : Balancing I H O where
  paymentKeyUtxos := payment
  IsChange _ := False
  build b := .ok ⟨.ofList b.inputs, b.mints, b.outputs⟩
  mem_inputs h i redeemer hlookup := by
    cases h
    exact SortedMap.mem_ofList.mpr hlookup
  of_mem_inputs h i redeemer hmem := by
    cases h
    exact .inl (SortedMap.mem_ofList.mp hmem)
  mints_perm h := by
    cases h
    exact .refl _
  outputs_eq h := by
    cases h
    exact ⟨[], (List.append_nil _).symm, nofun⟩

/-- The answer for the input at a position. -/
def evaluateInput (cost : I → ExUnits) (tx : Transaction I H O) (n : Nat) :
    Option EvaluateTransactionResponse :=
  match tx.inputs.entries[n]? with
  | some (i, some _) => some ⟨.spend, n, cost i⟩
  | _ => none

/-- One answer for each script input, with a cost for its id, and one for each mint. -/
def Ogmios.ofCost (cost : I → ExUnits) : Ogmios I H O :=
  ⟨fun tx => .ok ((List.range tx.inputs.entries.length).filterMap (evaluateInput cost tx) ++
    (List.range tx.mints.length).map fun n => ⟨.mint, n, ⟨0, 0⟩⟩)⟩

theorem of_evaluateInput {tx : Transaction I H O} (h : evaluateInput cost tx n = some er) :
    ∃ i redeemer, tx.inputs.entries[n]? = some (i, some redeemer) ∧ er = ⟨.spend, n, cost i⟩ := by
  unfold evaluateInput at h
  split at h
  case h_1 i redeemer hn =>
    cases h
    exact ⟨i, redeemer, hn, rfl⟩
  case h_2 => cases h

theorem isSome_evaluateInput_iff {tx : Transaction I H O} :
    (evaluateInput cost tx n).isSome ↔ ∃ i redeemer, tx.inputs.entries[n]? = some (i, some redeemer) := by
  constructor
  · intro h
    obtain ⟨er, her⟩ := Option.isSome_iff_exists.mp h
    obtain ⟨i, redeemer, hn, -⟩ := of_evaluateInput her
    exact ⟨i, redeemer, hn⟩
  · rintro ⟨i, redeemer, hn⟩
    rw [evaluateInput, hn]
    rfl

theorem spendIndices_filterMap_evaluateInput (cost : I → ExUnits) (tx : Transaction I H O) (l : List Nat) :
    spendIndices (l.filterMap (evaluateInput cost tx)) = l.filter fun n => (evaluateInput cost tx n).isSome := by
  induction l with
  | nil => rfl
  | cons n l ih =>
    cases hn : evaluateInput cost tx n with
    | none => rw [List.filterMap_cons_none hn, List.filter_cons_of_neg (by simp [hn]), ih]
    | some er =>
      obtain ⟨i, redeemer, -, rfl⟩ := of_evaluateInput hn
      rw [List.filterMap_cons_some hn, List.filter_cons_of_pos (by simp [hn]), spendIndices_cons, if_pos rfl, ih]

theorem spendIndices_append_mints (response : List EvaluateTransactionResponse) (n : Nat) :
    spendIndices (response ++ (List.range n).map fun m => ⟨.mint, m, ⟨0, 0⟩⟩) = spendIndices response := by
  rw [spendIndices, List.filter_append, List.map_append, ← spendIndices, List.append_right_eq_self,
    List.map_eq_nil_iff, List.filter_eq_nil_iff]
  intro er her
  obtain ⟨m, -, rfl⟩ := List.mem_map.mp her
  exact Bool.false_ne_true

theorem Ogmios.ofCost_oneSpendPerScriptInput (cost : I → ExUnits) (tx : Transaction I H O)
    (response : List EvaluateTransactionResponse)
    (h : (Ogmios.ofCost cost).evaluateTransaction tx = .ok response) : OneSpendPerScriptInput tx response := by
  cases h
  refine ⟨?_, fun n => ?_, fun er her hmint => ?_⟩
  · rw [spendIndices_append_mints, spendIndices_filterMap_evaluateInput]
    exact List.nodup_range.filter _
  · rw [spendIndices_append_mints, spendIndices_filterMap_evaluateInput, List.mem_filter, List.mem_range,
      isSome_evaluateInput_iff]
    refine and_iff_right_of_imp ?_
    rintro ⟨i, redeemer, hn⟩
    exact (List.getElem?_eq_some_iff.mp hn).1
  · rcases List.mem_append.mp her with her | her
    · obtain ⟨n, -, hn⟩ := List.mem_filterMap.mp her
      obtain ⟨i, redeemer, -, rfl⟩ := of_evaluateInput hn
      cases hmint
    · obtain ⟨n, hn, rfl⟩ := List.mem_map.mp her
      exact List.mem_range.mp hn

end MidnightNode.Offchain
