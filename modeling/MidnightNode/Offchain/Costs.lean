import Mathlib
import MidnightNode.CNight.DbSync
import MidnightNode.Lib.Fallible
import MidnightNode.Lib.KeyedList
import MidnightNode.Lib.SortedMap

/-!
# Transactions of the smart contract tools and the costs of their scripts

A transaction that runs scripts states their costs, which Ogmios evaluates on the transaction itself. So
`Costs::calculate_costs` builds a transaction three times: with no costs, with those of the first
evaluation and with those of the second.

The inputs of a transaction are in the order of their ids, and Ogmios names a script input by its
position. A hash map is the list of its entries; the order in which it is iterated is a parameter.
-/

namespace MidnightNode.Offchain
open CNight (PlutusData)
open Fallible KeyedList

/-! ## Transactions -/

structure ExUnits where
  mem : Nat
  steps : Nat
deriving DecidableEq

inductive Failure
  | error (message : String)
  | panicked (message : String)
deriving DecidableEq

structure Redeemer where
  data : PlutusData
  exUnits : ExUnits

/-- Tokens that are minted or burnt, by a Plutus script with its redeemer or by a native one. -/
structure Mint where
  amount : Int
  redeemer : Option Redeemer

/-- What is added to a transaction before it is balanced. The input of a script has a redeemer. -/
structure TransactionBuilder (I H O : Type) where
  inputs : List (I × Option Redeemer)
  mints : List (H × Mint)
  outputs : List O

structure Transaction (I H O : Type) [LinearOrder I] where
  inputs : SortedMap I (Option Redeemer)
  mints : List (H × Mint)
  outputs : List O

variable {I H O : Type} [LinearOrder I]

/-- `balance_update_and_build` over the builder of the CSL: the inputs, mints and outputs that were
added are kept; what balancing adds are inputs of the payment key and outputs that are change. -/
structure Balancing (I H O : Type) [LinearOrder I] where
  paymentKeyUtxos : List I
  IsChange : O → Prop
  build : TransactionBuilder I H O → Except String (Transaction I H O)
  mem_inputs : ∀ {b tx}, build b = .ok tx → ∀ i redeemer,
    b.inputs.lookup i = some redeemer → (i, redeemer) ∈ tx.inputs.entries
  of_mem_inputs : ∀ {b tx}, build b = .ok tx → ∀ i redeemer, (i, redeemer) ∈ tx.inputs.entries →
    b.inputs.lookup i = some redeemer ∨
      b.inputs.lookup i = none ∧ redeemer = none ∧ i ∈ paymentKeyUtxos
  mints_perm : ∀ {b tx}, build b = .ok tx → tx.mints.Perm b.mints
  outputs_eq : ∀ {b tx}, build b = .ok tx → ∃ change, tx.outputs = b.outputs ++ change ∧
    ∀ o ∈ change, IsChange o

/-! ## Costs -/

inductive Purpose
  | spend
  | mint
  | other
deriving DecidableEq

structure EvaluateTransactionResponse where
  purpose : Purpose
  index : Nat
  budget : ExUnits

structure Ogmios (I H O : Type) [LinearOrder I] where
  evaluateTransaction : Transaction I H O → Except String (List EvaluateTransactionResponse)

/-- Any order of iteration over a hash map. The maps are numbered: two of them with the same entries may be
iterated differently. -/
structure HashOrder where
  iter : Nat → List (Nat × ExUnits) → List (Nat × ExUnits)
  perm : ∀ map spends, (iter map spends).Perm spends

inductive Costs (H : Type)
  | zeroCosts
  | costs (map : Nat) (mints : List (H × ExUnits)) (spends : List (Nat × ExUnits))

namespace Costs

variable [DecidableEq H]

def getMint (script : H) : Costs H → Except Failure ExUnits
  | zeroCosts => .ok ⟨0, 0⟩
  | costs _ mints _ =>
    okOr (.panicked "get_mint should not be called with an unknown script") (mints.lookup script)

def getSpend (spendIx : Nat) : Costs H → Except Failure ExUnits
  | zeroCosts => .ok ⟨0, 0⟩
  | costs _ _ spends =>
    okOr (.panicked "get_spend should not be called with an unknown spend index") (spends.lookup spendIx)

def getOneSpend : Costs H → Except Failure ExUnits
  | zeroCosts => .ok ⟨0, 0⟩
  | costs _ _ [(_, x)] => .ok x
  | costs _ _ _ => .error (.panicked
    "get_one_spend should only be called when exactly one spend is expected to be present")

def getSpendIndices (order : HashOrder) : Costs H → List Nat
  | zeroCosts => []
  | costs map _ spends => (order.iter map spends).map (·.1)

/-- One answer of an evaluation is added to the costs. -/
def addResponse (tx : Transaction I H O) (collected : List (H × ExUnits) × List (Nat × ExUnits))
    (er : EvaluateTransactionResponse) : Except Failure (List (H × ExUnits) × List (Nat × ExUnits)) :=
  match er.purpose with
  | .mint =>
    if tx.mints.isEmpty then .error (.panicked
      "tx.body.mint() should not be empty if we received a 'mint' response from Ogmios")
    else match tx.mints[er.index]? with
      | some (script, _) => .ok (insertKey script er.budget collected.1, collected.2)
      | none => .error (.panicked "index out of bounds")
  | .spend => .ok (collected.1, insertKey er.index er.budget collected.2)
  | .other => .ok collected

def fromOgmios (map : Nat) (client : Ogmios I H O) (tx : Transaction I H O) :
    Except Failure (Costs H) := do
  let evaluateResponse ← (client.evaluateTransaction tx).mapError .error
  let collected ← evaluateResponse.foldlM (addResponse tx) ([], [])
  return .costs map collected.1 collected.2

def calculateCosts (makeTx : Costs H → Except Failure (Transaction I H O)) (client : Ogmios I H O) :
    Except Failure (Transaction I H O) := do
  let tx ← makeTx .zeroCosts
  let costs ← fromOgmios 0 client tx
  let tx ← makeTx costs
  let costs ← fromOgmios 1 client tx
  makeTx costs

end Costs

/-! ## What an evaluation reports -/

/-- One answer changes the cost at its index, if it is for a spend. -/
def addSpend (spends : List (Nat × ExUnits)) (er : EvaluateTransactionResponse) : List (Nat × ExUnits) :=
  if er.purpose = .spend then insertKey er.index er.budget spends else spends

def spendsOf (response : List EvaluateTransactionResponse) : List (Nat × ExUnits) :=
  response.foldl addSpend []

def spendIndices (response : List EvaluateTransactionResponse) : List Nat :=
  (response.filter (·.purpose = .spend)).map (·.index)

/-- The costs for the input at the position that it has in the transaction. -/
def Reports (tx : Transaction I H O) (spends : List (Nat × ExUnits)) (i : I) (u : ExUnits) : Prop :=
  ∃ n redeemer, tx.inputs.entries[n]? = some (i, redeemer) ∧ spends.lookup n = some u

/-- One spend cost for each input of a script, and mint costs only for mints of the transaction. -/
structure OneSpendPerScriptInput (tx : Transaction I H O) (response : List EvaluateTransactionResponse) :
    Prop where
  nodup : (spendIndices response).Nodup
  mem_iff : ∀ n, n ∈ spendIndices response ↔ ∃ i redeemer, tx.inputs.entries[n]? = some (i, some redeemer)
  mint_lt : ∀ er ∈ response, er.purpose = .mint → er.index < tx.mints.length

theorem spendIndices_cons (er : EvaluateTransactionResponse) (response : List EvaluateTransactionResponse) :
    spendIndices (er :: response) =
      if er.purpose = .spend then er.index :: spendIndices response else spendIndices response := by
  unfold spendIndices
  split
  case isTrue hspend => rw [List.filter_cons_of_pos (by simpa using hspend), List.map_cons]
  case isFalse hspend => rw [List.filter_cons_of_neg (by simpa using hspend)]

theorem mem_keys_foldl_addSpend (response : List EvaluateTransactionResponse)
    (spends : List (Nat × ExUnits)) (n : Nat) :
    n ∈ (response.foldl addSpend spends).map Prod.fst ↔
      n ∈ spends.map Prod.fst ∨ n ∈ spendIndices response := by
  induction response generalizing spends with
  | nil => simp [spendIndices]
  | cons er response ih =>
    rw [List.foldl_cons, ih, addSpend, spendIndices_cons]
    split
    case isTrue => rw [mem_keys_insertKey, List.mem_cons, or_comm (a := n = er.index), or_assoc]
    case isFalse => rfl

theorem mem_keys_spendsOf : n ∈ (spendsOf response).map Prod.fst ↔ n ∈ spendIndices response := by
  rw [spendsOf, mem_keys_foldl_addSpend]
  exact or_iff_right List.not_mem_nil

theorem nodup_keys_foldl_addSpend (response : List EvaluateTransactionResponse)
    (h : (spends.map Prod.fst).Nodup) : ((response.foldl addSpend spends).map Prod.fst).Nodup := by
  induction response generalizing spends with
  | nil => exact h
  | cons er response ih =>
    refine ih ?_
    rw [addSpend]
    split
    case isTrue => exact nodup_insertKey h _ _
    case isFalse => exact h

theorem nodup_keys_spendsOf (response : List EvaluateTransactionResponse) :
    ((spendsOf response).map Prod.fst).Nodup :=
  nodup_keys_foldl_addSpend response .nil

namespace Costs

variable [DecidableEq H] {client : Ogmios I H O} {tx : Transaction I H O} {response : List EvaluateTransactionResponse}
  {collected collected' : List (H × ExUnits) × List (Nat × ExUnits)}

theorem addResponse_snd (h : addResponse tx collected er = .ok collected') :
    collected'.2 = addSpend collected.2 er := by
  rw [addSpend]
  unfold addResponse at h
  cases hpurpose : er.purpose with
  | spend | other =>
    rw [hpurpose] at h
    cases h
    rfl
  | mint =>
    rw [hpurpose] at h
    obtain ⟨-, h⟩ := of_check h
    split at h
    · cases h
      rfl
    · cases h

theorem foldlM_addResponse_snd (h : response.foldlM (addResponse tx) collected = .ok collected') :
    collected'.2 = response.foldl addSpend collected.2 := by
  induction response generalizing collected with
  | nil =>
    cases h
    rfl
  | cons er response ih =>
    rw [List.foldlM_cons] at h
    obtain ⟨next, hnext, h⟩ := of_bind h
    rw [List.foldl_cons, ih h, addResponse_snd hnext]

theorem of_fromOgmios {costs : Costs H} (h : fromOgmios map client tx = .ok costs) :
    ∃ response mints, client.evaluateTransaction tx = .ok response ∧
      costs = .costs map mints (spendsOf response) := by
  obtain ⟨response, hresponse, h⟩ := of_bind h
  obtain ⟨collected, hcollected, h⟩ := of_bind h
  cases h
  exact ⟨response, collected.1, of_mapError hresponse,
    congrArg (Costs.costs map collected.1) (foldlM_addResponse_snd hcollected)⟩

theorem foldlM_addResponse_ok (h : ∀ er ∈ response, er.purpose = .mint → er.index < tx.mints.length)
    (collected : List (H × ExUnits) × List (Nat × ExUnits)) :
    ∃ collected', response.foldlM (addResponse tx) collected = .ok collected' := by
  induction response generalizing collected with
  | nil => exact ⟨_, rfl⟩
  | cons er response ih =>
    obtain ⟨next, hnext⟩ : ∃ next, addResponse tx collected er = .ok next := by
      unfold addResponse
      cases hpurpose : er.purpose with
      | spend => exact ⟨_, rfl⟩
      | other => exact ⟨_, rfl⟩
      | mint =>
        have hlt := h er List.mem_cons_self hpurpose
        have hne : tx.mints ≠ [] := List.ne_nil_of_length_pos (Nat.zero_lt_of_lt hlt)
        dsimp only
        rw [if_neg (by simpa using hne), List.getElem?_eq_getElem hlt]
        exact ⟨_, rfl⟩
    obtain ⟨collected', hcollected⟩ := ih (fun er' her' => h er' (List.mem_cons_of_mem _ her')) next
    refine ⟨collected', ?_⟩
    rw [List.foldlM_cons, hnext]
    exact hcollected

theorem fromOgmios_ok (hresponse : client.evaluateTransaction tx = .ok response)
    (hone : OneSpendPerScriptInput tx response) :
    ∃ mints, fromOgmios map client tx = .ok (.costs map mints (spendsOf response)) := by
  obtain ⟨collected, hcollected⟩ := foldlM_addResponse_ok hone.mint_lt ([], [])
  refine ⟨collected.1, ?_⟩
  have hspends : spendsOf response = collected.2 := (foldlM_addResponse_snd hcollected).symm
  rw [fromOgmios, hresponse, hspends]
  show (response.foldlM (addResponse tx) ([], []) >>= _) = _
  rw [hcollected]
  rfl

theorem of_calculateCosts (h : calculateCosts makeTx client = .ok tx) :
    ∃ costs evaluated response mints, makeTx costs = .ok evaluated ∧
      client.evaluateTransaction evaluated = .ok response ∧
      makeTx (.costs 1 mints (spendsOf response)) = .ok tx := by
  obtain ⟨tx₀, -, h⟩ := of_bind h
  obtain ⟨costs, -, h⟩ := of_bind h
  obtain ⟨evaluated, hevaluated, h⟩ := of_bind h
  obtain ⟨last, hlast, h⟩ := of_bind h
  obtain ⟨response, mints, hresponse, rfl⟩ := of_fromOgmios hlast
  exact ⟨costs, evaluated, response, mints, hevaluated, hresponse, h⟩

end Costs

/-! ## One script input -/

def Panics {α : Type} (x : Except Failure α) : Prop := ∃ message, x = .error (.panicked message)

/-- The inputs of a transaction that are spent with a script. -/
def IsScriptInput (tx : Transaction I H O) (i : I) : Prop :=
  ∃ redeemer, (i, some redeemer) ∈ tx.inputs.entries

theorem OneSpendPerScriptInput.exists_mem_keys {tx : Transaction I H O}
    {response : List EvaluateTransactionResponse} (hone : OneSpendPerScriptInput tx response) {i : I}
    (hi : IsScriptInput tx i) : ∃ n redeemer, tx.inputs.entries[n]? = some (i, some redeemer) ∧
      n ∈ (spendsOf response).map Prod.fst := by
  obtain ⟨redeemer, hmem⟩ := hi
  obtain ⟨n, hn⟩ := List.mem_iff_getElem?.mp hmem
  exact ⟨n, redeemer, hn, mem_keys_spendsOf.mpr ((hone.mem_iff n).mpr ⟨i, redeemer, hn⟩)⟩

theorem OneSpendPerScriptInput.length_eq_one_iff {tx : Transaction I H O}
    (hone : OneSpendPerScriptInput tx response) :
    (spendsOf response).length = 1 ↔ ∃! i, IsScriptInput tx i := by
  rw [← List.length_map Prod.fst]
  constructor
  · intro hlength
    obtain ⟨n, hn⟩ := List.length_eq_one_iff.mp hlength
    obtain ⟨i, redeemer, hi⟩ := (hone.mem_iff n).mp (mem_keys_spendsOf.mp (hn ▸ List.mem_singleton_self n))
    refine ⟨i, ⟨redeemer, List.mem_iff_getElem?.mpr ⟨n, hi⟩⟩, fun j hj => ?_⟩
    obtain ⟨m, redeemer', hm, hmem⟩ := hone.exists_mem_keys hj
    rw [hn, List.mem_singleton] at hmem
    rw [hmem, hi] at hm
    cases hm
    rfl
  · rintro ⟨i, hi, hunique⟩
    obtain ⟨n, redeemer, hn, hmem⟩ := hone.exists_mem_keys hi
    have hall : ∀ m ∈ (spendsOf response).map Prod.fst, m = n := by
      intro m hm
      obtain ⟨j, redeemer', hj⟩ := (hone.mem_iff m).mp (mem_keys_spendsOf.mp hm)
      obtain rfl := hunique j ⟨redeemer', List.mem_iff_getElem?.mpr ⟨m, hj⟩⟩
      exact tx.inputs.position_unique hj hn
    have hperm := (List.perm_ext_iff_of_nodup (nodup_keys_spendsOf response) (List.nodup_singleton n)).mpr
      fun m => ⟨fun hm => List.mem_singleton.mpr (hall m hm), fun hm => List.mem_singleton.mp hm ▸ hmem⟩
    rw [hperm.length_eq]
    rfl

theorem Costs.getOneSpend_ok {mints : List (H × ExUnits)} {spends : List (Nat × ExUnits)}
    (h : spends.length = 1) : ∃ u, (Costs.costs map mints spends).getOneSpend = .ok u := by
  obtain ⟨⟨n, u⟩, rfl⟩ := List.length_eq_one_iff.mp h
  exact ⟨u, rfl⟩

theorem Costs.getOneSpend_panicked {mints : List (H × ExUnits)} {spends : List (Nat × ExUnits)}
    (h : spends.length ≠ 1) : Panics (Costs.costs map mints spends).getOneSpend := by
  match spends, h with
  | [], _ => exact ⟨_, rfl⟩
  | _ :: _ :: _, _ => exact ⟨_, rfl⟩

/-! ## Panics -/

theorem not_panics_ok {α : Type} (a : α) : ¬ Panics (.ok a) := fun ⟨_, h⟩ => nomatch h

theorem not_panics_mapError {α : Type} (x : Except String α) : ¬ Panics (x.mapError .error) := by
  rintro ⟨message, h⟩
  match x, h with
  | .ok _, h => cases h
  | .error _, h => cases h

theorem panics_bind_iff {α β : Type} {x : Except Failure α} {f : α → Except Failure β} :
    Panics (x >>= f) ↔ Panics x ∨ ∃ a, x = .ok a ∧ Panics (f a) := by
  match x with
  | .ok a =>
    refine ⟨fun h => .inr ⟨a, rfl, h⟩, ?_⟩
    rintro (h | ⟨a', ha', h⟩)
    · exact absurd h (not_panics_ok a)
    · cases ha'
      exact h
  | .error e =>
    refine ⟨fun ⟨message, h⟩ => .inl ⟨message, ?_⟩, ?_⟩
    · cases h
      rfl
    · rintro (⟨message, h⟩ | ⟨a, ha, -⟩)
      · cases h
        exact ⟨message, rfl⟩
      · cases ha

/-- A transaction that gives each of its script inputs, those of `own`, the one spend cost. -/
structure SpendsWithOneCost (makeTx : Costs H → Except Failure (Transaction I H O)) (own : List I) : Prop where
  isScriptInput_iff : ∀ {costs tx}, makeTx costs = .ok tx → ∀ i, IsScriptInput tx i ↔ i ∈ own
  panics_iff : ∀ {tx₀}, makeTx .zeroCosts = .ok tx₀ → ∀ costs,
    Panics (makeTx costs) ↔ own ≠ [] ∧ Panics costs.getOneSpend
  not_panics_zeroCosts : ¬ Panics (makeTx .zeroCosts)

section
variable {makeTx : Costs H → Except Failure (Transaction I H O)} {own : List I} {client : Ogmios I H O}

theorem not_panics_fromOgmios [DecidableEq H] {tx : Transaction I H O}
    (hclient : ∀ response, client.evaluateTransaction tx = .ok response → OneSpendPerScriptInput tx response) :
    ¬ Panics (Costs.fromOgmios map client tx) := by
  intro h
  cases hresponse : client.evaluateTransaction tx with
  | error e =>
    rw [Costs.fromOgmios, hresponse] at h
    obtain ⟨message, h⟩ := h
    cases h
  | ok response =>
    obtain ⟨mints, hcosts⟩ := Costs.fromOgmios_ok hresponse (hclient response hresponse)
    rw [hcosts] at h
    exact not_panics_ok _ h

/-- Costs of a transaction that was built make the next one panic when it has two script inputs. -/
theorem SpendsWithOneCost.panics_next_iff (h : SpendsWithOneCost makeTx own) (hnodup : own.Nodup)
    (hzero : makeTx .zeroCosts = .ok tx₀) (htx : makeTx costs = .ok tx)
    (hone : OneSpendPerScriptInput tx response) (mints : List (H × ExUnits)) :
    Panics (makeTx (.costs map mints (spendsOf response))) ↔ 2 ≤ own.length := by
  have hunique : (∃! i, IsScriptInput tx i) ↔ own.length = 1 := by
    simp only [h.isScriptInput_iff htx]
    constructor
    · rintro ⟨i, hi, hall⟩
      have hperm := (List.perm_ext_iff_of_nodup hnodup (List.nodup_singleton i)).mpr fun j =>
        ⟨fun hj => List.mem_singleton.mpr (hall j hj), fun hj => List.mem_singleton.mp hj ▸ hi⟩
      rw [hperm.length_eq]
      rfl
    · intro hlength
      obtain ⟨i, rfl⟩ := List.length_eq_one_iff.mp hlength
      exact ⟨i, List.mem_singleton_self i, fun j hj => List.mem_singleton.mp hj⟩
  rw [h.panics_iff hzero]
  rcases eq_or_ne (spendsOf response).length 1 with hlength | hlength
  · obtain ⟨u, hu⟩ : ∃ u, (Costs.costs map mints (spendsOf response)).getOneSpend = .ok u :=
      Costs.getOneSpend_ok hlength
    have hown := hunique.mp (hone.length_eq_one_iff.mp hlength)
    rw [hu]
    exact iff_of_false (fun hp => not_panics_ok u hp.2) (by omega)
  · have hown : own.length ≠ 1 := fun hown => hlength (hone.length_eq_one_iff.mpr (hunique.mpr hown))
    rw [and_iff_left (Costs.getOneSpend_panicked hlength), ← List.length_pos_iff]
    omega

/-- With one spend cost per script input, a transaction panics when there are two script inputs and its
first build and evaluation succeed. -/
theorem SpendsWithOneCost.panics_calculateCosts_iff [DecidableEq H] (h : SpendsWithOneCost makeTx own)
    (hnodup : own.Nodup) (hclient : ∀ tx response, client.evaluateTransaction tx = .ok response →
      OneSpendPerScriptInput tx response) :
    Panics (Costs.calculateCosts makeTx client) ↔ 2 ≤ own.length ∧
      ∃ tx response, makeTx .zeroCosts = .ok tx ∧ client.evaluateTransaction tx = .ok response := by
  simp only [Costs.calculateCosts, panics_bind_iff]
  constructor
  · rintro (hpanics | ⟨tx₀, hzero, hpanics | ⟨costs, hcosts, hnext⟩⟩)
    · exact absurd hpanics h.not_panics_zeroCosts
    · exact absurd hpanics (not_panics_fromOgmios (hclient tx₀))
    · obtain ⟨response, mints, hresponse, rfl⟩ := Costs.of_fromOgmios hcosts
      refine ⟨?_, tx₀, response, hzero, hresponse⟩
      rcases hnext with hpanics | ⟨tx₁, hfirst, hpanics | ⟨costs', hcosts', hpanics⟩⟩
      · exact (h.panics_next_iff hnodup hzero hzero (hclient _ _ hresponse) mints).mp hpanics
      · exact absurd hpanics (not_panics_fromOgmios (hclient tx₁))
      · obtain ⟨response', mints', hresponse', rfl⟩ := Costs.of_fromOgmios hcosts'
        exact (h.panics_next_iff hnodup hzero hfirst (hclient _ _ hresponse') mints').mp hpanics
  · rintro ⟨hlength, tx₀, response, hzero, hresponse⟩
    have hone := hclient _ _ hresponse
    obtain ⟨mints, hcosts⟩ := Costs.fromOgmios_ok hresponse hone
    exact .inr ⟨tx₀, hzero, .inr ⟨_, hcosts, .inl
      ((h.panics_next_iff hnodup hzero hzero hone mints).mpr hlength)⟩⟩

end

end MidnightNode.Offchain
