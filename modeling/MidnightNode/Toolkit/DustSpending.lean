import MidnightNode.Lib.KeyedList

/-!
# Paying fees from shared wallets

The transactions of a batch are built concurrently from one context
(`tx_generator/builder/builders/common/batches.rs`). Each of them pays its fees with dust outputs of its
funding wallets (`pay_fees` in `ledger/helpers/src/versions/common/transaction.rs`): it chooses outputs
wallet by wallet, computes what is still missing, starts again with more, and in the end marks the chosen
outputs as spent, again wallet by wallet. Only the single accesses to a wallet hold a lock.
-/

namespace MidnightNode.Toolkit

open KeyedList

/-! ## Wallets -/

/-- The fields of a spend that are read here. -/
structure DustSpend (Nullifier : Type) where
  oldNullifier : Nullifier
  vFee : Nat

/-- The dust state of the ledger library, at the time and with the parameters of the last block. A spend
has the nullifier and the fee it was made for, and a state does not list an output twice. -/
structure DustLibrary where
  State : Type
  Output : Type
  Key : Type
  Nullifier : Type
  GenerationInfo : Type
  decidableEqNullifier : DecidableEq Nullifier
  utxos : State → List Output
  nullifier : Key → Output → Nullifier
  generationInfo : State → Output → Option GenerationInfo
  updatedValue : Output → GenerationInfo → Nat
  spend : Key → State → Output → Nat → Option (State × DustSpend Nullifier)
  utxos_nodup : ∀ key state, ((utxos state).map (nullifier key)).Nodup
  spend_eq : ∀ {key state output vFee state' s}, spend key state output vFee = some (state', s) →
    s.oldNullifier = nullifier key output ∧ s.vFee = vFee

instance instDecidableEqNullifier (lib : DustLibrary) : DecidableEq lib.Nullifier :=
  lib.decidableEqNullifier

inductive DustSpendError
  | missingLocalState
  | unrecognizedDustOutput
  | internal
deriving DecidableEq, Repr

structure DustWallet (lib : DustLibrary) where
  secretKey : Option lib.Key
  dustLocalState : Option lib.State
  spentUtxos : List lib.Nullifier

section

variable {lib : DustLibrary}

/-- The loop over the outputs. An output that is worth nothing is passed over. -/
def spendLoop (key : lib.Key) (spentUtxos : List lib.Nullifier) :
    List lib.Output → lib.State → Nat →
      Except DustSpendError (List (DustSpend lib.Nullifier) × lib.State)
  | [], state, _ => .ok ([], state)
  | qdo :: qdos, state, remaining =>
    if lib.nullifier key qdo ∈ spentUtxos then spendLoop key spentUtxos qdos state remaining
    else
      match lib.generationInfo state qdo with
      | none => .error .unrecognizedDustOutput
      | some info =>
        let vFee := min remaining (lib.updatedValue qdo info)
        if vFee = 0 then spendLoop key spentUtxos qdos state remaining
        else
          match lib.spend key state qdo vFee with
          | none => .error .internal
          | some (state, spend) =>
            if remaining - vFee = 0 then .ok ([spend], state)
            else (spendLoop key spentUtxos qdos state (remaining - vFee)).map fun x =>
              (spend :: x.1, x.2)

namespace DustWallet

def speculativeSpend (wallet : DustWallet lib) (amount : Nat) :
    Except DustSpendError (List (DustSpend lib.Nullifier) × lib.State) :=
  match wallet.dustLocalState, wallet.secretKey with
  | some state, some key => spendLoop key wallet.spentUtxos (lib.utxos state) state amount
  | _, _ => .error .missingLocalState

/-- The whole local state is replaced. -/
def markSpent (wallet : DustWallet lib) (spends : List (DustSpend lib.Nullifier))
    (updatedState : lib.State) : DustWallet lib :=
  { wallet with
    dustLocalState := some updatedState
    spentUtxos := spends.map DustSpend.oldNullifier ++ wallet.spentUtxos }

end DustWallet

/-- The output a choice begins with, if it has any. -/
def firstSpent (key : lib.Key) (spentUtxos : List lib.Nullifier) (state : lib.State) :
    List lib.Output → Option lib.Nullifier
  | [] => none
  | qdo :: qdos =>
    if lib.nullifier key qdo ∈ spentUtxos then firstSpent key spentUtxos state qdos
    else
      match lib.generationInfo state qdo with
      | none => none
      | some info =>
        if lib.updatedValue qdo info = 0 then firstSpent key spentUtxos state qdos
        else some (lib.nullifier key qdo)

def DustWallet.firstSpent (wallet : DustWallet lib) : Option lib.Nullifier :=
  match wallet.dustLocalState, wallet.secretKey with
  | some state, some key => Toolkit.firstSpent key wallet.spentUtxos state (lib.utxos state)
  | _, _ => none

/-- What a choice has: outputs of the list that are not spent, each once, and the first that is worth
anything. -/
structure Chosen (key : lib.Key) (spentUtxos : List lib.Nullifier) (qdos : List lib.Output)
    (first : Option lib.Nullifier) (spends : List (DustSpend lib.Nullifier)) : Prop where
  sublist : (spends.map DustSpend.oldNullifier).Sublist (qdos.map (lib.nullifier key))
  fresh : ∀ s ∈ spends, s.oldNullifier ∉ spentUtxos
  first : spends ≠ [] → ∃ s ∈ spends, first = some s.oldNullifier

theorem Chosen.cons_of_skip {first : Option lib.Nullifier} (h : Chosen key spentUtxos qdos first spends)
    (qdo : lib.Output) : Chosen key spentUtxos (qdo :: qdos) first spends :=
  ⟨h.sublist.cons _, h.fresh, h.first⟩

theorem spendLoop_chosen {spends : List (DustSpend lib.Nullifier)} (hpos : remaining ≠ 0)
    (h : spendLoop key spentUtxos qdos state remaining = .ok (spends, state')) :
    Chosen key spentUtxos qdos (firstSpent key spentUtxos state qdos) spends := by
  induction qdos generalizing state remaining spends with
  | nil =>
    cases h
    exact ⟨.slnil, (fun _ h => nomatch h), fun h => absurd rfl h⟩
  | cons qdo qdos ih =>
    rw [spendLoop] at h
    rw [firstSpent]
    by_cases hspent : lib.nullifier key qdo ∈ spentUtxos
    · rw [if_pos hspent] at h ⊢
      exact (ih hpos h).cons_of_skip qdo
    rw [if_neg hspent] at h ⊢
    cases hinfo : lib.generationInfo state qdo with
    | none =>
      rw [hinfo] at h
      cases h
    | some info =>
      simp only [hinfo] at h ⊢
      by_cases hzero : lib.updatedValue qdo info = 0
      · rw [if_pos (by omega)] at h
        rw [if_pos hzero]
        exact (ih hpos h).cons_of_skip qdo
      · rw [if_neg (by omega)] at h
        rw [if_neg hzero]
        cases hspend : lib.spend key state qdo (min remaining (lib.updatedValue qdo info)) with
        | none =>
          rw [hspend] at h
          cases h
        | some x =>
          obtain ⟨state₁, spend⟩ := x
          have hnullifier := (lib.spend_eq hspend).1
          simp only [hspend] at h
          by_cases hdone : remaining - min remaining (lib.updatedValue qdo info) = 0
          · rw [if_pos hdone] at h
            cases h
            refine ⟨?_, fun s hs => ?_, fun _ => ⟨spend, List.mem_singleton_self _, ?_⟩⟩
            · rw [List.map_cons, List.map_cons, hnullifier]
              exact (List.nil_sublist _).cons_cons _
            · rw [List.mem_singleton.mp hs, hnullifier]
              exact hspent
            · rw [hnullifier]
          · rw [if_neg hdone] at h
            cases hrest : spendLoop key spentUtxos qdos state₁ _ with
            | error e =>
              rw [hrest] at h
              cases h
            | ok rest =>
              rw [hrest] at h
              cases h
              have hchosen := ih hdone hrest
              refine ⟨?_, fun s hs => ?_, fun _ => ⟨spend, List.mem_cons_self, ?_⟩⟩
              · rw [List.map_cons, List.map_cons, hnullifier]
                exact hchosen.sublist.cons_cons _
              · rcases List.mem_cons.mp hs with rfl | hs
                · rw [hnullifier]
                  exact hspent
                · exact hchosen.fresh s hs
              · rw [hnullifier]

/-- One access to a wallet chooses outputs of its key that are not spent, each once. -/
theorem DustWallet.speculativeSpend_spec {wallet : DustWallet lib} (hpos : amount ≠ 0)
    (h : wallet.speculativeSpend amount = .ok (spends, state)) :
    ∃ key, wallet.secretKey = some key ∧ (∀ s ∈ spends, ∃ qdo, s.oldNullifier = lib.nullifier key qdo) ∧
      (∀ s ∈ spends, s.oldNullifier ∉ wallet.spentUtxos) ∧
      (spends.map DustSpend.oldNullifier).Nodup ∧
      (spends ≠ [] → ∃ s ∈ spends, wallet.firstSpent = some s.oldNullifier) := by
  rw [speculativeSpend] at h
  rw [firstSpent]
  cases hstate : wallet.dustLocalState with
  | none =>
    rw [hstate] at h
    cases h
  | some state₀ =>
    cases hkey : wallet.secretKey with
    | none =>
      rw [hstate, hkey] at h
      cases h
    | some key =>
      rw [hstate, hkey] at h
      have hchosen := spendLoop_chosen hpos h
      refine ⟨key, rfl, fun s hs => ?_, hchosen.fresh, (lib.utxos_nodup key state₀).sublist
        hchosen.sublist, hchosen.first⟩
      obtain ⟨qdo, -, hqdo⟩ := List.mem_map.mp (hchosen.sublist.subset (List.mem_map_of_mem hs))
      exact ⟨qdo, hqdo.symm⟩

end

/-! ## One transaction -/

section

variable (Seed : Type) (lib : DustLibrary)

/-- A transaction to be paid for. `computeMissingDust` is the dust that is missing once the transaction
has the spends of an iteration, and `none` where it cannot be computed. -/
structure TxInfo where
  fundingSeeds : List Seed
  computeMissingDust : Nat → List (DustSpend lib.Nullifier) → Option (Option Nat)

/-- Where `pay_fees` is. The source does not keep the seed of a spend. -/
inductive PayPhase
  | gathering (iteration missingDust : Nat) (seeds : List Seed) (remaining : Nat)
    (spends : List (Seed × DustSpend lib.Nullifier)) (updatedStates : List (Seed × lib.State))
  | confirming (iteration : Nat) (seeds : List Seed) (spends : List (Seed × DustSpend lib.Nullifier))
    (updatedStates : List (Seed × lib.State))
  | finished (iteration : Nat) (spends : List (Seed × DustSpend lib.Nullifier))
  | failed

variable {Seed lib}

def maxIterations : Nat := 10

namespace PayPhase

def start (tx : TxInfo Seed lib) (iteration missingDust : Nat) : PayPhase Seed lib :=
  .gathering iteration missingDust tx.fundingSeeds missingDust [] []

/-- The spends are complete: they are confirmed, or more is gathered in the next iteration. -/
def gathered (tx : TxInfo Seed lib) (iteration missingDust : Nat)
    (spends : List (Seed × DustSpend lib.Nullifier)) (updatedStates : List (Seed × lib.State)) :
    PayPhase Seed lib :=
  match tx.computeMissingDust iteration (spends.map Prod.snd) with
  | none => .failed
  | some none => .confirming iteration tx.fundingSeeds spends updatedStates
  | some (some dust) =>
    if iteration = maxIterations then .failed else start tx (iteration + 1) (missingDust + dust)

def iteration? : PayPhase Seed lib → Option Nat
  | gathering iteration _ _ _ _ _ => some iteration
  | confirming iteration _ _ _ => some iteration
  | finished iteration _ => some iteration
  | failed => none

def spends : PayPhase Seed lib → List (Seed × DustSpend lib.Nullifier)
  | gathering _ _ _ _ spends _ => spends
  | confirming _ _ spends _ => spends
  | finished _ spends => spends
  | failed => []

def updatedStates : PayPhase Seed lib → List (Seed × lib.State)
  | gathering _ _ _ _ _ updatedStates => updatedStates
  | confirming _ _ _ updatedStates => updatedStates
  | _ => []

/-- The spends of a transaction that is paid. -/
def paid : PayPhase Seed lib → List (Seed × DustSpend lib.Nullifier)
  | finished _ spends => spends
  | _ => []

def finishedIn : PayPhase Seed lib → Option Nat
  | finished iteration _ => some iteration
  | _ => none

def Done : PayPhase Seed lib → Prop
  | finished _ _ => True
  | failed => True
  | _ => False

variable [DecidableEq Seed]

/-- The loop of `gather_dust_spends`. -/
def gatherDustSpends (tx : TxInfo Seed lib) (wallets : Seed → DustWallet lib)
    (iteration missingDust : Nat) (seeds : List Seed) (remaining : Nat)
    (spends : List (Seed × DustSpend lib.Nullifier)) (updatedStates : List (Seed × lib.State)) :
    PayPhase Seed lib :=
  if remaining = 0 then gathered tx iteration missingDust spends updatedStates
  else
    match seeds with
    | [] => failed
    | seed :: seeds =>
      match (wallets seed).speculativeSpend remaining with
      | .error _ => failed
      | .ok (newSpends, updatedState) =>
        gathering iteration missingDust seeds (remaining - (newSpends.map DustSpend.vFee).sum)
          (spends ++ newSpends.map (seed, ·))
          (if newSpends.isEmpty then updatedStates else insertKey seed updatedState updatedStates)

/-- The loop of `confirm_dust_spends`. -/
def confirmDustSpends (wallets : Seed → DustWallet lib) (iteration : Nat) (seeds : List Seed)
    (spends : List (Seed × DustSpend lib.Nullifier)) (updatedStates : List (Seed × lib.State)) :
    PayPhase Seed lib × (Seed → DustWallet lib) :=
  match seeds with
  | [] => (finished iteration spends, wallets)
  | seed :: seeds =>
    match updatedStates.lookup seed with
    | none => (confirming iteration seeds spends updatedStates, wallets)
    | some updatedState =>
      (confirming iteration seeds spends (updatedStates.filter fun x => x.1 ≠ seed),
        Function.update wallets seed ((wallets seed).markSpent (spends.map Prod.snd) updatedState))

/-- One access to a wallet, or what a transaction does between two of them. -/
def step (tx : TxInfo Seed lib) (wallets : Seed → DustWallet lib) :
    PayPhase Seed lib → PayPhase Seed lib × (Seed → DustWallet lib)
  | gathering iteration missingDust seeds remaining spends updatedStates =>
    (gatherDustSpends tx wallets iteration missingDust seeds remaining spends updatedStates, wallets)
  | confirming iteration seeds spends updatedStates =>
    confirmDustSpends wallets iteration seeds spends updatedStates
  | finished iteration spends => (finished iteration spends, wallets)
  | failed => (failed, wallets)

/-- What a step can do. -/
inductive Moves (tx : TxInfo Seed lib) (wallets : Seed → DustWallet lib) :
    PayPhase Seed lib → PayPhase Seed lib → (Seed → DustWallet lib) → Prop
  | stay {phase} (hdone : phase.Done) : Moves tx wallets phase phase wallets
  | fail {k missing seeds remaining spends states} :
    Moves tx wallets (gathering k missing seeds remaining spends states) failed wallets
  | restart {k missing seeds remaining spends states missing'} :
    Moves tx wallets (gathering k missing seeds remaining spends states) (start tx (k + 1) missing')
      wallets
  | ready {k missing seeds spends states} :
    Moves tx wallets (gathering k missing seeds 0 spends states)
      (confirming k tx.fundingSeeds spends states) wallets
  | take {k missing seed seeds remaining spends states newSpends state remaining'}
    (hpos : remaining ≠ 0) (hspend : (wallets seed).speculativeSpend remaining = .ok (newSpends, state)) :
    Moves tx wallets (gathering k missing (seed :: seeds) remaining spends states)
      (gathering k missing seeds remaining' (spends ++ newSpends.map (seed, ·))
        (if newSpends.isEmpty then states else insertKey seed state states)) wallets
  | skip {k seed seeds spends states} (hnone : states.lookup seed = none) :
    Moves tx wallets (confirming k (seed :: seeds) spends states) (confirming k seeds spends states)
      wallets
  | mark {k seed seeds spends states state} (hsome : states.lookup seed = some state) :
    Moves tx wallets (confirming k (seed :: seeds) spends states)
      (confirming k seeds spends (states.filter fun x => x.1 ≠ seed))
      (Function.update wallets seed ((wallets seed).markSpent (spends.map Prod.snd) state))
  | finish {k spends states} :
    Moves tx wallets (confirming k [] spends states) (finished k spends) wallets

theorem step_moves (tx : TxInfo Seed lib) (wallets : Seed → DustWallet lib) (phase : PayPhase Seed lib) :
    Moves tx wallets phase (phase.step tx wallets).1 (phase.step tx wallets).2 := by
  cases phase with
  | gathering k missing seeds remaining spends states =>
    rw [step, gatherDustSpends.eq_def]
    split
    case isTrue hzero =>
      subst hzero
      rw [gathered]
      split
      · exact .fail
      · exact .ready
      · split
        · exact .fail
        · exact .restart
    case isFalse hpos =>
      cases seeds with
      | nil => exact .fail
      | cons seed seeds =>
        cases hspend : (wallets seed).speculativeSpend remaining with
        | error e =>
          simp only [hspend]
          exact .fail
        | ok x =>
          simp only [hspend]
          exact .take hpos hspend
  | confirming k seeds spends states =>
    rw [step, confirmDustSpends.eq_def]
    cases seeds with
    | nil => exact .finish
    | cons seed seeds =>
      cases hlookup : states.lookup seed with
      | none =>
        simp only [hlookup]
        exact .skip hlookup
      | some state =>
        simp only [hlookup]
        exact .mark hlookup
  | finished k spends => exact .stay trivial
  | failed => exact .stay trivial

end PayPhase

end

end MidnightNode.Toolkit
