import Mathlib
import MidnightNode.Offchain.Inputs

/-!
# Costs of several script inputs

The governed map and the reserve spend several script inputs in one transaction. The governed map gives the
UTXO at a position of its own list the cost at the index that the hash map has at this position. The reserve
release gives the larger one of two costs to the reserve, and the smaller one to the illiquid supply.
-/

namespace MidnightNode.Offchain
open CNight (PlutusData)
open Fallible KeyedList

variable {U I H O : Type} [LinearOrder I]

/-! ## Transactions -/

inductive Script (H : Type)
  | plutus (hash : H)
  | native (hash : H)

structure MintContext (U I H O : Type) [LinearOrder I] extends TransactionContext U I H O where
  addAsset : H → Mint → List (H × Mint) → Except String (List (H × Mint))

def unitPlutusData : PlutusData := .constr 0 []

section
variable [DecidableEq H] (ctx : MintContext U I H O) (order : HashOrder)

def addMintScriptTokenUsingReferenceScript (script : Script H) (amount : Int) (costs : Costs H)
    (mints : List (H × Mint)) : Except Failure (List (H × Mint)) :=
  match script with
  | .plutus hash => do
    let exUnits ← costs.getMint hash
    (ctx.addAsset hash ⟨amount, some ⟨unitPlutusData, exUnits⟩⟩ mints).mapError .error
  | .native hash => (ctx.addAsset hash ⟨amount, none⟩ mints).mapError .error

def addMintScriptTokens (policy : H) (amount : Int) (costs : Costs H) (mints : List (H × Mint)) :
    Except Failure (List (H × Mint)) := do
  let exUnits ← costs.getMint policy
  (ctx.addAsset policy ⟨amount, some ⟨unitPlutusData, exUnits⟩⟩ mints).mapError .error

/-- The cost for the UTXO at a position, where a missing index counts as zero. -/
def spendAt (costs : Costs H) (ix : Nat) : Except Failure ExUnits :=
  costs.getSpend ((costs.getSpendIndices order)[ix]?.getD 0)

/-- The tokens of all UTXOs but one are burnt. -/
def burnAllButOne (policy : H) (utxosForKey : List U) (costs : Costs H) (mints : List (H × Mint)) :
    Except Failure (List (H × Mint)) :=
  if utxosForKey.length > 1 then
    addMintScriptTokens ctx policy (-((utxosForKey.length : Int) - 1)) costs mints
  else .ok mints

/-- `output` makes the output with the datum. -/
def updateKeyValueTx (policy : H) (governancePolicy : Script H) (utxosForKey : List U)
    (output : Except String O) (costs : Costs H) : Except Failure (Transaction I H O) := do
  let _ ← ctx.builderConfig.mapError .error
  let mints ← addMintScriptTokenUsingReferenceScript ctx governancePolicy 1 costs []
  let inputs ← ctx.addScriptUtxoInputs (.bytes []) (spendAt order costs) 0 utxosForKey []
  let mints ← burnAllButOne ctx policy utxosForKey costs mints
  let output ← output.mapError .error
  (ctx.balancing.build ⟨inputs, mints, [output]⟩).mapError .error

def removeKeyValueTx (policy : H) (governancePolicy : Script H) (utxosForKey : List U) (costs : Costs H) :
    Except Failure (Transaction I H O) := do
  let _ ← ctx.builderConfig.mapError .error
  let mints ← addMintScriptTokenUsingReferenceScript ctx governancePolicy 1 costs []
  let inputs ← ctx.addScriptUtxoInputs unitPlutusData (spendAt order costs) 0 utxosForKey []
  let mints ← addMintScriptTokens ctx policy (-(utxosForKey.length : Int)) costs mints
  (ctx.balancing.build ⟨inputs, mints, []⟩).mapError .error

/-- Costs are compared by memory first. -/
def ExUnits.le (a b : ExUnits) : Prop := a.mem < b.mem ∨ a.mem = b.mem ∧ a.steps ≤ b.steps

instance ExUnits.decidableLe (a b : ExUnits) : Decidable (a.le b) :=
  inferInstanceAs (Decidable (a.mem < b.mem ∨ a.mem = b.mem ∧ a.steps ≤ b.steps))

def sortCosts (a b : ExUnits) : ExUnits × ExUnits := if a.le b then (a, b) else (b, a)

structure Release (U H O : Type) where
  reserveUtxo : U
  icsUtxo : U
  reserveBalance : Nat
  tokenTotalAmountTransferred : Nat
  amountToTransfer : Nat
  vFunction : Except String H
  outputs : Except Failure (List O)

/-- The number of v-function tokens, which must fit into 64 bits. -/
def Release.cumulativeTotalTransfer (r : Release U H O) : Except Failure Nat :=
  if r.tokenTotalAmountTransferred + r.amountToTransfer < 2 ^ 64 then
    .ok (r.tokenTotalAmountTransferred + r.amountToTransfer)
  else .error (.panicked "cumulative_total_transfer can't overflow u64")

def Release.checkReserve (r : Release U H O) : Except Failure Unit :=
  if r.amountToTransfer ≤ r.reserveBalance then .ok ()
  else .error (.error ("Not enough funds in the reserve to transfer " ++ toString r.amountToTransfer ++
    " tokens (reserve balance: " ++ toString r.reserveBalance ++ ")"))

def releaseFromReserve : PlutusData := .constr 1 []

def reserveReleaseTx (r : Release U H O) (costs : Costs H) : Except Failure (Transaction I H O) := do
  let _ ← ctx.builderConfig.mapError .error
  let cumulativeTotalTransfer ← r.cumulativeTotalTransfer
  let _ ← r.checkReserve
  let vFunction ← r.vFunction.mapError .error
  let mints ← addMintScriptTokenUsingReferenceScript ctx (.plutus vFunction) cumulativeTotalTransfer costs []
  let second ← spendAt order costs 1
  let first ← spendAt order costs 0
  let spendCosts := sortCosts second first
  let inputs ← ctx.addScriptUtxoInput [] r.reserveUtxo releaseFromReserve spendCosts.2
  let inputs ← ctx.addScriptUtxoInput inputs r.icsUtxo (.integer 0) spendCosts.1
  let outputs ← r.outputs
  (ctx.balancing.build ⟨inputs, mints, outputs⟩).mapError .error

end

/-! ## The last evaluation -/

section
variable [DecidableEq H] (makeTx : Costs H → Except Failure (Transaction I H O)) (client : Ogmios I H O)

/-- The transaction with the costs of the first evaluation, which is evaluated last. -/
def evaluatedTx : Except Failure (Transaction I H O) := do
  let tx ← makeTx .zeroCosts
  let costs ← Costs.fromOgmios 0 client tx
  makeTx costs

structure LastEvaluation (evaluated : Transaction I H O) (response : List EvaluateTransactionResponse) : Prop where
  built : evaluatedTx makeTx client = .ok evaluated
  evaluates : client.evaluateTransaction evaluated = .ok response

variable {makeTx client} {tx evaluated : Transaction I H O} {response : List EvaluateTransactionResponse}

theorem calculateCosts_eq : Costs.calculateCosts makeTx client =
    evaluatedTx makeTx client >>= fun tx => Costs.fromOgmios 1 client tx >>= makeTx := by
  simp only [Costs.calculateCosts, evaluatedTx, bind_assoc]

theorem LastEvaluation.of_calculateCosts (hlast : LastEvaluation makeTx client evaluated response)
    (h : Costs.calculateCosts makeTx client = .ok tx) :
    ∃ mints, makeTx (.costs 1 mints (spendsOf response)) = .ok tx := by
  rw [calculateCosts_eq, hlast.built] at h
  change Costs.fromOgmios 1 client evaluated >>= makeTx = .ok tx at h
  obtain ⟨costs, hcosts, h⟩ := of_bind h
  obtain ⟨response', mints, hresponse, rfl⟩ := Costs.of_fromOgmios hcosts
  rw [hlast.evaluates] at hresponse
  cases hresponse
  exact ⟨mints, h⟩

theorem LastEvaluation.exists_costs (hlast : LastEvaluation makeTx client evaluated response) :
    ∃ costs, makeTx costs = .ok evaluated := by
  obtain ⟨_, -, h⟩ := of_bind hlast.built
  obtain ⟨costs, -, h⟩ := of_bind h
  exact ⟨costs, h⟩

end

/-- Every script input has the cost that was reported for it. -/
def Carries (evaluated : Transaction I H O) (response : List EvaluateTransactionResponse)
    (tx : Transaction I H O) : Prop :=
  ∀ i redeemer, (i, some redeemer) ∈ tx.inputs.entries →
    Reports evaluated (spendsOf response) i redeemer.exUnits

theorem Reports.unique {tx : Transaction I H O} {spends : List (Nat × ExUnits)} {i : I} {u u' : ExUnits}
    (h : Reports tx spends i u) (h' : Reports tx spends i u') : u = u' := by
  obtain ⟨n, redeemer, hn, hu⟩ := h
  obtain ⟨n', redeemer', hn', hu'⟩ := h'
  rw [tx.inputs.position_unique hn hn'] at hu
  exact Option.some.inj (hu.symm.trans hu')

/-- The reported cost at the index that the hash map of the last evaluation has at a position. -/
def costAt (order : HashOrder) (response : List EvaluateTransactionResponse) (n : Nat) : Option ExUnits :=
  (spendsOf response).lookup (((order.iter 1 (spendsOf response)).map Prod.fst)[n]?.getD 0)

theorem spendAt_costs_iff {order : HashOrder} {mints : List (H × ExUnits)}
    {response : List EvaluateTransactionResponse} {n : Nat} {u : ExUnits} :
    spendAt order (.costs 1 mints (spendsOf response)) n = .ok u ↔ costAt order response n = some u := by
  refine ⟨of_okOr, fun h => ?_⟩
  show okOr _ (costAt order response n) = _
  rw [h]
  rfl

/-! ## The governed map -/

section
variable {ctx : MintContext U I H O} {order : HashOrder} {policy : H}
  {governancePolicy : Script H} {utxosForKey : List U} {output : Except String O} {costs : Costs H}
  {tx evaluated : Transaction I H O} {response : List EvaluateTransactionResponse} {data : PlutusData}

variable (ctx order utxosForKey costs data tx) in
/-- The UTXOs are added one after the other. -/
def SpendsInOrder : Prop :=
  ∃ inputs mints outputs, ctx.addScriptUtxoInputs data (spendAt order costs) 0 utxosForKey [] = .ok inputs ∧
    ctx.balancing.build ⟨inputs, mints, outputs⟩ = .ok tx

theorem of_updateKeyValueTx [DecidableEq H]
    (h : updateKeyValueTx ctx order policy governancePolicy utxosForKey output costs = .ok tx) :
    SpendsInOrder ctx order utxosForKey costs tx (.bytes []) := by
  obtain ⟨-, -, h⟩ := of_bind h
  obtain ⟨minted, -, h⟩ := of_bind h
  obtain ⟨inputs, hinputs, h⟩ := of_bind h
  obtain ⟨mints, -, h⟩ := of_bind h
  obtain ⟨output, -, h⟩ := of_bind h
  exact ⟨inputs, mints, [output], hinputs, of_mapError h⟩

theorem of_removeKeyValueTx [DecidableEq H]
    (h : removeKeyValueTx ctx order policy governancePolicy utxosForKey costs = .ok tx) :
    SpendsInOrder ctx order utxosForKey costs tx unitPlutusData := by
  obtain ⟨-, -, h⟩ := of_bind h
  obtain ⟨minted, -, h⟩ := of_bind h
  obtain ⟨inputs, hinputs, h⟩ := of_bind h
  obtain ⟨mints, -, h⟩ := of_bind h
  exact ⟨inputs, mints, [], hinputs, of_mapError h⟩

theorem SpendsInOrder.exists_mem_inputs (h : SpendsInOrder ctx order utxosForKey costs tx data)
    (hnodup : (utxosForKey.map ctx.toCslTxInput).Nodup) (hn : utxosForKey[n]? = some utxo) :
    ∃ u, spendAt order costs n = .ok u ∧
      (ctx.toCslTxInput utxo, some ⟨data, u⟩) ∈ tx.inputs.entries := by
  obtain ⟨inputs, mints, outputs, hinputs, hbuild⟩ := h
  obtain ⟨u, hu, hlookup⟩ := TransactionContext.lookup_addScriptUtxoInputs hinputs hnodup hn
  exact ⟨u, Nat.zero_add n ▸ hu, ctx.balancing.mem_inputs hbuild _ _ hlookup⟩

theorem SpendsInOrder.mem_inputs_iff (h : SpendsInOrder ctx order utxosForKey costs tx data)
    (hnodup : (utxosForKey.map ctx.toCslTxInput).Nodup) :
    (i, some redeemer) ∈ tx.inputs.entries ↔ ∃ n utxo u, utxosForKey[n]? = some utxo ∧
      ctx.toCslTxInput utxo = i ∧ spendAt order costs n = .ok u ∧ redeemer = ⟨data, u⟩ := by
  constructor
  · intro hmem
    have hin : i ∈ utxosForKey.map ctx.toCslTxInput := by
      obtain ⟨inputs, mints, outputs, hinputs, hbuild⟩ := h
      by_contra hin
      rcases ctx.balancing.of_mem_inputs hbuild i _ hmem with hi | ⟨-, hnone, -⟩
      · have hnone := TransactionContext.lookup_addScriptUtxoInputs_of_notMem hinputs hin
        exact nomatch hi.symm.trans hnone
      · cases hnone
    obtain ⟨utxo, hutxo, rfl⟩ := List.mem_map.mp hin
    obtain ⟨n, hn⟩ := List.mem_iff_getElem?.mp hutxo
    obtain ⟨u, hu, hmem'⟩ := h.exists_mem_inputs hnodup hn
    exact ⟨n, utxo, u, hn, rfl, hu, Option.some.inj (tx.inputs.unique hmem hmem')⟩
  · rintro ⟨n, utxo, u, hn, rfl, hu, rfl⟩
    obtain ⟨u', hu', hmem⟩ := h.exists_mem_inputs hnodup hn
    cases hu.symm.trans hu'
    exact hmem

variable (ctx order utxosForKey evaluated response) in
/-- The cost for each position of the list is the one that was reported for the UTXO. -/
def CostsInPlace : Prop :=
  ∀ n utxo u, utxosForKey[n]? = some utxo → costAt order response n = some u →
    Reports evaluated (spendsOf response) (ctx.toCslTxInput utxo) u

variable (evaluated) in
theorem SpendsInOrder.carries_iff
    (h : SpendsInOrder ctx order utxosForKey (.costs 1 mints (spendsOf response)) tx data)
    (hnodup : (utxosForKey.map ctx.toCslTxInput).Nodup) :
    Carries evaluated response tx ↔ CostsInPlace ctx order utxosForKey evaluated response := by
  constructor
  · intro hcarries n utxo u hn hu
    exact hcarries _ _ ((h.mem_inputs_iff hnodup).mpr ⟨n, utxo, u, hn, rfl, spendAt_costs_iff.mpr hu, rfl⟩)
  · intro hplace i redeemer hmem
    obtain ⟨n, utxo, u, hn, rfl, hu, rfl⟩ := (h.mem_inputs_iff hnodup).mp hmem
    exact hplace n utxo u hn (spendAt_costs_iff.mp hu)

end

/-! ## One cost for each script input -/

theorem OneSpendPerScriptInput.exists_reports {tx : Transaction I H O}
    {response : List EvaluateTransactionResponse} (hone : OneSpendPerScriptInput tx response) {i : I}
    {redeemer : Redeemer} (hi : (i, some redeemer) ∈ tx.inputs.entries) :
    ∃ n u, tx.inputs.entries[n]? = some (i, some redeemer) ∧ (spendsOf response).lookup n = some u ∧
      Reports tx (spendsOf response) i u := by
  obtain ⟨n, hn⟩ := List.mem_iff_getElem?.mp hi
  obtain ⟨⟨m, u⟩, hu, rfl⟩ := List.mem_map.mp (mem_keys_spendsOf.mpr ((hone.mem_iff n).mpr ⟨i, redeemer, hn⟩))
  have hlookup := lookup_of_mem (nodup_keys_spendsOf response) hu
  exact ⟨m, u, hn, hlookup, m, some redeemer, hn, hlookup⟩

/-- The indices in the order of the hash map are the positions of the script inputs. -/
theorem OneSpendPerScriptInput.indices_perm {tx : Transaction I H O}
    (hone : OneSpendPerScriptInput tx response) (order : HashOrder) (hnodup : positions.Nodup)
    (hpositions : ∀ n, n ∈ positions ↔ ∃ i redeemer, tx.inputs.entries[n]? = some (i, some redeemer)) :
    ((order.iter 1 (spendsOf response)).map Prod.fst).Perm positions := by
  refine ((order.perm 1 (spendsOf response)).map Prod.fst).trans ?_
  refine (List.perm_ext_iff_of_nodup (nodup_keys_spendsOf response) hnodup).mpr fun n => ?_
  rw [mem_keys_spendsOf, hone.mem_iff, hpositions]

theorem SpendsInOrder.costsInPlace_one {ctx : MintContext U I H O}
    (h : SpendsInOrder ctx order utxosForKey costs evaluated data) (hlength : utxosForKey.length = 1)
    (hone : OneSpendPerScriptInput evaluated response) :
    CostsInPlace ctx order utxosForKey evaluated response := by
  obtain ⟨utxo, rfl⟩ := List.length_eq_one_iff.mp hlength
  have hnodup : ([utxo].map ctx.toCslTxInput).Nodup := List.nodup_singleton _
  obtain ⟨_, -, hmem⟩ := h.exists_mem_inputs hnodup (List.getElem?_cons_zero ..)
  obtain ⟨p, cost, hp, hcost, hreports⟩ := hone.exists_reports hmem
  have hperm := hone.indices_perm order (List.nodup_singleton p) fun n => by
    rw [List.mem_singleton]
    constructor
    · rintro rfl
      exact ⟨_, _, hp⟩
    · rintro ⟨i, redeemer, hn⟩
      obtain ⟨m, utxo', u, hm, rfl, -, -⟩ :=
        (h.mem_inputs_iff hnodup).mp (List.mem_iff_getElem?.mpr ⟨n, hn⟩)
      obtain rfl := List.mem_singleton.mp (List.mem_iff_getElem?.mpr ⟨m, hm⟩)
      exact evaluated.inputs.position_unique hn hp
  intro n utxo' u hn hu
  obtain rfl := List.mem_singleton.mp (List.mem_iff_getElem?.mpr ⟨n, hn⟩)
  obtain rfl : n = 0 := by simpa using (List.getElem?_eq_some_iff.mp hn).1
  rw [costAt, List.perm_singleton.mp hperm] at hu
  cases hcost.symm.trans hu
  exact hreports

/-! ## The reserve release -/

theorem ExUnits.le_refl (a : ExUnits) : a.le a := .inr ⟨rfl, Nat.le_refl _⟩

theorem ExUnits.le_of_not_le {b : ExUnits} (h : ¬ a.le b) : b.le a := by
  unfold ExUnits.le at h ⊢
  omega

theorem ExUnits.le_antisymm {b : ExUnits} (hab : a.le b) (hba : b.le a) : a = b := by
  obtain ⟨mem, steps⟩ := a
  obtain ⟨mem', steps'⟩ := b
  unfold ExUnits.le at hab hba
  rw [ExUnits.mk.injEq]
  dsimp only at hab hba
  omega

theorem sortCosts_comm (a b : ExUnits) : sortCosts a b = sortCosts b a := by
  unfold sortCosts
  split
  case isTrue hab =>
    split
    case isTrue hba => rw [ExUnits.le_antisymm hab hba]
    case isFalse => rfl
  case isFalse hab => rw [if_pos (ExUnits.le_of_not_le hab)]

theorem sortCosts_eq_iff : sortCosts a b = (a, b) ↔ a.le b := by
  unfold sortCosts
  split
  case isTrue hab => exact iff_of_true rfl hab
  case isFalse hab =>
    refine iff_of_false (fun heq => ?_) hab
    obtain ⟨rfl, -⟩ := Prod.mk.inj heq
    exact hab (ExUnits.le_refl _)

section
variable {ctx : MintContext U I H O} {order : HashOrder} {r : Release U H O} {costs : Costs H}
  {tx evaluated : Transaction I H O} {response : List EvaluateTransactionResponse}

variable (ctx order r evaluated response) in
/-- Of the costs at the first two positions, the reserve reports the larger one and the illiquid supply the
smaller one. -/
def SortedInPlace : Prop :=
  ∀ second first, costAt order response 1 = some second → costAt order response 0 = some first →
    Reports evaluated (spendsOf response) (ctx.toCslTxInput r.reserveUtxo) (sortCosts second first).2 ∧
      Reports evaluated (spendsOf response) (ctx.toCslTxInput r.icsUtxo) (sortCosts second first).1

section

variable [DecidableEq H] (hne : ctx.toCslTxInput r.reserveUtxo ≠ ctx.toCslTxInput r.icsUtxo)

include hne

/-- The reserve gets the larger of the two costs. -/
theorem of_reserveReleaseTx (h : reserveReleaseTx ctx order r costs = .ok tx) :
    ∃ second first, spendAt order costs 1 = .ok second ∧ spendAt order costs 0 = .ok first ∧
      ∀ i redeemer, (i, some redeemer) ∈ tx.inputs.entries ↔
        i = ctx.toCslTxInput r.reserveUtxo ∧ redeemer = ⟨releaseFromReserve, (sortCosts second first).2⟩ ∨
        i = ctx.toCslTxInput r.icsUtxo ∧ redeemer = ⟨.integer 0, (sortCosts second first).1⟩ := by
  obtain ⟨-, -, h⟩ := of_bind h
  obtain ⟨cumulative, -, h⟩ := of_bind h
  obtain ⟨-, -, h⟩ := of_bind h
  obtain ⟨vFunction, -, h⟩ := of_bind h
  obtain ⟨mints, -, h⟩ := of_bind h
  obtain ⟨second, hsecond, h⟩ := of_bind h
  obtain ⟨first, hfirst, h⟩ := of_bind h
  obtain ⟨inputs, hinputs, h⟩ := of_bind h
  obtain ⟨inputs', hinputs', h⟩ := of_bind h
  obtain ⟨outputs, -, h⟩ := of_bind h
  have hbuild := of_mapError h
  obtain rfl := TransactionContext.of_addScriptUtxoInput hinputs
  obtain rfl := TransactionContext.of_addScriptUtxoInput hinputs'
  refine ⟨second, first, hsecond, hfirst, fun i redeemer => ⟨fun hmem => ?_, ?_⟩⟩
  · rcases ctx.balancing.of_mem_inputs hbuild i _ hmem with hi | ⟨-, hnone, -⟩
    · dsimp only at hi
      by_cases hics : i = ctx.toCslTxInput r.icsUtxo
      · subst hics
        rw [lookup_insertKey_self] at hi
        exact .inr ⟨rfl, (Option.some.inj (Option.some.inj hi)).symm⟩
      rw [lookup_insertKey_ne hics] at hi
      by_cases hreserve : i = ctx.toCslTxInput r.reserveUtxo
      · subst hreserve
        rw [lookup_insertKey_self] at hi
        exact .inl ⟨rfl, (Option.some.inj (Option.some.inj hi)).symm⟩
      · rw [lookup_insertKey_ne hreserve] at hi
        cases hi
    · cases hnone
  · rintro (⟨rfl, rfl⟩ | ⟨rfl, rfl⟩)
    · refine ctx.balancing.mem_inputs hbuild _ _ ?_
      exact (lookup_insertKey_ne hne _ _).trans (lookup_insertKey_self _ _ _)
    · exact ctx.balancing.mem_inputs hbuild _ _ (lookup_insertKey_self _ _ _)

variable (evaluated) in
theorem reserveReleaseTx_carries_iff
    (h : reserveReleaseTx ctx order r (.costs 1 mints (spendsOf response)) = .ok tx) :
    Carries evaluated response tx ↔ SortedInPlace ctx order r evaluated response := by
  obtain ⟨second, first, hsecond, hfirst, hmem⟩ := of_reserveReleaseTx hne h
  rw [spendAt_costs_iff] at hsecond hfirst
  constructor
  · intro hcarries second' first' hsecond' hfirst'
    cases hsecond.symm.trans hsecond'
    cases hfirst.symm.trans hfirst'
    exact ⟨hcarries _ _ ((hmem _ _).mpr (.inl ⟨rfl, rfl⟩)), hcarries _ _ ((hmem _ _).mpr (.inr ⟨rfl, rfl⟩))⟩
  · intro hplace i redeemer hi
    obtain ⟨hreserve, hics⟩ := hplace second first hsecond hfirst
    rcases (hmem i redeemer).mp hi with ⟨rfl, rfl⟩ | ⟨rfl, rfl⟩
    · exact hreserve
    · exact hics

/-- With one cost for each of the two inputs, they are in place when the reserve has the larger one. -/
theorem sortedInPlace_iff_le (hevaluated : reserveReleaseTx ctx order r costs = .ok evaluated)
    (hone : OneSpendPerScriptInput evaluated response) :
    SortedInPlace ctx order r evaluated response ↔ ∃ reserveCost icsCost,
      Reports evaluated (spendsOf response) (ctx.toCslTxInput r.reserveUtxo) reserveCost ∧
      Reports evaluated (spendsOf response) (ctx.toCslTxInput r.icsUtxo) icsCost ∧ icsCost.le reserveCost := by
  obtain ⟨_, _, -, -, hmem⟩ := of_reserveReleaseTx hne hevaluated
  obtain ⟨p, cost, hp, hcost, hreserve⟩ := hone.exists_reports ((hmem _ _).mpr (.inl ⟨rfl, rfl⟩))
  obtain ⟨q, cost', hq, hcost', hics⟩ := hone.exists_reports ((hmem _ _).mpr (.inr ⟨rfl, rfl⟩))
  have hpq : p ≠ q := by
    rintro rfl
    exact hne (congrArg Prod.fst (Option.some.inj (hp.symm.trans hq)))
  have hnodup : [p, q].Nodup := by simpa using hpq
  have hperm := hone.indices_perm order hnodup fun n => by
    simp only [List.mem_cons, List.not_mem_nil, or_false]
    constructor
    · rintro (rfl | rfl)
      · exact ⟨_, _, hp⟩
      · exact ⟨_, _, hq⟩
    · rintro ⟨i, redeemer, hn⟩
      rcases (hmem i redeemer).mp (List.mem_iff_getElem?.mpr ⟨n, hn⟩) with ⟨rfl, -⟩ | ⟨rfl, -⟩
      · exact .inl (evaluated.inputs.position_unique hn hp)
      · exact .inr (evaluated.inputs.position_unique hn hq)
  -- the hash map has the two positions in either order, and sorting forgets which
  obtain ⟨second, first, hsecond, hfirst, hsorted⟩ : ∃ second first, costAt order response 1 = some second ∧
      costAt order response 0 = some first ∧ sortCosts second first = sortCosts cost' cost := by
    unfold costAt
    obtain ⟨x, y, hindices⟩ := List.length_eq_two.mp hperm.length_eq
    rw [hindices] at hperm ⊢
    have hx : x = p ∨ x = q := by simpa using hperm.mem_iff.mp (List.mem_cons_self ..)
    rcases hx with rfl | rfl
    · cases List.singleton_perm_singleton.mp ((List.perm_cons x).mp hperm)
      exact ⟨cost', cost, hcost', hcost, rfl⟩
    · cases List.singleton_perm_singleton.mp ((List.perm_cons x).mp (hperm.trans (.swap x p [])))
      exact ⟨cost, cost', hcost, hcost', sortCosts_comm _ _⟩
  constructor
  · intro hplace
    obtain ⟨hlarger, hsmaller⟩ := hplace second first hsecond hfirst
    refine ⟨cost, cost', hreserve, hics, sortCosts_eq_iff.mp (Prod.ext ?_ ?_)⟩
    · exact hsorted ▸ hsmaller.unique hics
    · exact hsorted ▸ hlarger.unique hreserve
  · rintro ⟨reserveCost, icsCost, hreserve', hics', hle⟩ second' first' hsecond' hfirst'
    cases hsecond.symm.trans hsecond'
    cases hfirst.symm.trans hfirst'
    cases hreserve.unique hreserve'
    cases hics.unique hics'
    rw [hsorted, sortCosts_eq_iff.mpr hle]
    exact ⟨hreserve, hics⟩

end

end

/-! ## Costs and the inputs they were computed for -/

section
variable [DecidableEq H] (ctx : MintContext U I H O) (order : HashOrder) (client : Ogmios I H O) (policy : H)
  (governancePolicy : Script H) (utxosForKey : List U) (output : Except String O) (r : Release U H O)

/-- The governed map gives each UTXO the cost reported for it exactly when the hash map happens to have the
indices in their order, or costs are equal; so it does for one UTXO. The reserve release does so exactly when
the illiquid supply does not cost more than the reserve. -/
theorem script_costs_carried_iff (hnodup : (utxosForKey.map ctx.toCslTxInput).Nodup)
    (hne : ctx.toCslTxInput r.reserveUtxo ≠ ctx.toCslTxInput r.icsUtxo) :
    (∀ evaluated response tx,
      LastEvaluation (updateKeyValueTx ctx order policy governancePolicy utxosForKey output) client
        evaluated response →
      Costs.calculateCosts (updateKeyValueTx ctx order policy governancePolicy utxosForKey output) client =
        .ok tx →
      (Carries evaluated response tx ↔ CostsInPlace ctx order utxosForKey evaluated response) ∧
        (utxosForKey.length = 1 → OneSpendPerScriptInput evaluated response →
          Carries evaluated response tx)) ∧
    (∀ evaluated response tx,
      LastEvaluation (removeKeyValueTx ctx order policy governancePolicy utxosForKey) client
        evaluated response →
      Costs.calculateCosts (removeKeyValueTx ctx order policy governancePolicy utxosForKey) client = .ok tx →
      (Carries evaluated response tx ↔ CostsInPlace ctx order utxosForKey evaluated response) ∧
        (utxosForKey.length = 1 → OneSpendPerScriptInput evaluated response →
          Carries evaluated response tx)) ∧
    ∀ evaluated response tx, LastEvaluation (reserveReleaseTx ctx order r) client evaluated response →
      Costs.calculateCosts (reserveReleaseTx ctx order r) client = .ok tx →
      (Carries evaluated response tx ↔ SortedInPlace ctx order r evaluated response) ∧
        (OneSpendPerScriptInput evaluated response →
          (Carries evaluated response tx ↔ ∃ reserveCost icsCost,
            Reports evaluated (spendsOf response) (ctx.toCslTxInput r.reserveUtxo) reserveCost ∧
            Reports evaluated (spendsOf response) (ctx.toCslTxInput r.icsUtxo) icsCost ∧
            icsCost.le reserveCost)) := by
  refine ⟨fun evaluated response tx hlast h => ?_, fun evaluated response tx hlast h => ?_,
    fun evaluated response tx hlast h => ?_⟩
  · obtain ⟨mints, htx⟩ := hlast.of_calculateCosts h
    obtain ⟨costs, hevaluated⟩ := hlast.exists_costs
    have hiff := (of_updateKeyValueTx htx).carries_iff evaluated hnodup
    exact ⟨hiff, fun hlength hone => hiff.mpr ((of_updateKeyValueTx hevaluated).costsInPlace_one hlength hone)⟩
  · obtain ⟨mints, htx⟩ := hlast.of_calculateCosts h
    obtain ⟨costs, hevaluated⟩ := hlast.exists_costs
    have hiff := (of_removeKeyValueTx htx).carries_iff evaluated hnodup
    exact ⟨hiff, fun hlength hone => hiff.mpr ((of_removeKeyValueTx hevaluated).costsInPlace_one hlength hone)⟩
  · obtain ⟨mints, htx⟩ := hlast.of_calculateCosts h
    obtain ⟨costs, hevaluated⟩ := hlast.exists_costs
    have hiff := reserveReleaseTx_carries_iff evaluated hne htx
    exact ⟨hiff, fun hone => hiff.trans (sortedInPlace_iff_le hne hevaluated hone)⟩

end

namespace SpendExample

def ctx : MintContext Nat Nat Unit Unit where
  toCslTxInput := id
  builderConfig := .ok ()
  valueToCsl _ := .ok ()
  addRegularUtxo _ := .ok ()
  balancing := .unchanged []
  addAsset hash mint mints := .ok (mints ++ [(hash, mint)])

/-- The order in which the list has the entries. -/
def order : HashOrder := ⟨fun _ => id, fun _ => .refl⟩

def release : Release Nat Unit Unit := ⟨1, 2, 100, 0, 10, .ok (), .ok []⟩

def update (utxos : List Nat) : Costs Unit → Except Failure (Transaction Nat Unit Unit) :=
  updateKeyValueTx ctx order () (.native ()) utxos (.ok ())

def remove (utxos : List Nat) : Costs Unit → Except Failure (Transaction Nat Unit Unit) :=
  removeKeyValueTx ctx order () (.native ()) utxos

def Carried (makeTx : Costs Unit → Except Failure (Transaction Nat Unit Unit)) (cost : Nat → ExUnits) : Prop :=
  ∀ evaluated response tx, LastEvaluation makeTx (.ofCost cost) evaluated response →
    Costs.calculateCosts makeTx (.ofCost cost) = .ok tx → Carries evaluated response tx

def largerFirst (i : Nat) : ExUnits := if i = 1 then ⟨20, 20⟩ else ⟨10, 10⟩

def smallerFirst (i : Nat) : ExUnits := if i = 1 then ⟨10, 10⟩ else ⟨20, 20⟩

end SpendExample

open SpendExample in
theorem script_costs_carried_one :
    (∃ tx, Costs.calculateCosts (update [1]) (.ofCost largerFirst) = .ok tx) ∧
      Carried (update [1]) largerFirst ∧
      (∃ tx, Costs.calculateCosts (remove [1]) (.ofCost largerFirst) = .ok tx) ∧
      Carried (remove [1]) largerFirst ∧
      (∃ tx, Costs.calculateCosts (reserveReleaseTx ctx order release) (.ofCost largerFirst) = .ok tx) ∧
      Carried (reserveReleaseTx ctx order release) largerFirst := by
  have h := script_costs_carried_iff ctx order (.ofCost largerFirst) () (.native ()) [1] (.ok ()) release
    (by decide) (by decide)
  refine ⟨⟨_, rfl⟩, fun evaluated response tx hlast htx => ?_, ⟨_, rfl⟩,
    fun evaluated response tx hlast htx => ?_, ⟨_, rfl⟩, fun evaluated response tx hlast htx => ?_⟩
  · exact (h.1 evaluated response tx hlast htx).2 rfl (Ogmios.ofCost_oneSpendPerScriptInput _ _ _ hlast.evaluates)
  · exact (h.2.1 evaluated response tx hlast htx).2 rfl
      (Ogmios.ofCost_oneSpendPerScriptInput _ _ _ hlast.evaluates)
  · refine ((h.2.2 evaluated response tx hlast htx).2
      (Ogmios.ofCost_oneSpendPerScriptInput _ _ _ hlast.evaluates)).mpr ?_
    cases hlast.built
    cases hlast.evaluates
    exact ⟨⟨20, 20⟩, ⟨10, 10⟩, ⟨0, _, rfl, rfl⟩, ⟨1, _, rfl, rfl⟩, by decide⟩

open SpendExample in
/-- The first input has the first position, and is given the cost of the second one. -/
theorem script_costs_swapped :
    ¬ Carried (update [1, 2]) largerFirst ∧ ¬ Carried (remove [1, 2]) largerFirst ∧
      ¬ Carried (reserveReleaseTx ctx order release) smallerFirst := by
  have hposition : ∀ {tx : Transaction Nat Unit Unit} {spends u u'} {redeemer redeemer' : Redeemer},
      tx.inputs.entries = [(1, some redeemer), (2, some redeemer')] → spends.lookup 0 = some u' → u' ≠ u →
        ¬ Reports tx spends 1 u := by
    rintro tx spends u u' redeemer redeemer' hentries hlookup hne ⟨n, redeemer'', hn, hu⟩
    rw [tx.inputs.position_unique hn (j := 0) (by rw [hentries]; rfl)] at hu
    exact hne (Option.some.inj (hlookup.symm.trans hu))
  refine ⟨fun h => ?_, fun h => ?_, fun h => ?_⟩
  · exact hposition rfl rfl (by decide) (h _ _ _ ⟨rfl, rfl⟩ rfl 1 _ (.head _))
  · exact hposition rfl rfl (by decide) (h _ _ _ ⟨rfl, rfl⟩ rfl 1 _ (.head _))
  · exact hposition rfl rfl (by decide) (h _ _ _ ⟨rfl, rfl⟩ rfl 1 _ (.head _))

end MidnightNode.Offchain
