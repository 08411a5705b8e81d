import MidnightNode.Ledger.Errors
import MidnightNode.Lib.Bytes
import MidnightNode.Lib.Fallible
import MidnightNode.Lib.SortedMap

/-!
# Reporting an applied transaction

`apply_transaction` of the ledger bridge (`ledger/versions/common`): the ledger applies a
transaction and tells for each segment whether it failed; the bridge then reports the contract
operations and the unshielded UTXOs of the segments that took effect. What the ledger itself does is
a parameter (`LedgerHost`); modelled is what the bridge makes of its answer.

Two filters are made from the same result map. The UTXOs of a segment are dropped when its result is
an error, the operations of a segment when it has a result at all.
-/

namespace MidnightNode.Ledger

abbrev SegmentId := Fin 65536
abbrev Hash := Bytes 32
abbrev ContractAddress := Bytes 32

/-! ## Transactions -/

structure UtxoInfo where
  address : Hash
  tokenType : Hash
  intentHash : Hash
  value : Nat
  outputNo : Nat
deriving DecidableEq, Repr

structure UtxoOutput where
  owner : Hash
  type_ : Hash
  value : Nat

structure UtxoSpend where
  utxo : UtxoInfo

structure Intent where
  guaranteedOutputs : List UtxoOutput
  guaranteedInputs : List UtxoSpend
  fallibleOutputs : List UtxoOutput
  fallibleInputs : List UtxoSpend
  intentHash : SegmentId → Hash

inductive ContractAction
  | call (address : ContractAddress) (entryPoint : List UInt8)
  | deploy (address : ContractAddress)
  | maintain (address : ContractAddress)
deriving DecidableEq, Repr

structure StandardTransaction where
  segments : List SegmentId
  intents : SortedMap SegmentId Intent
  /-- The contract actions with the segments they belong to, in the order of the transaction. -/
  actions : List (SegmentId × ContractAction)

inductive ClaimKind
  | reward
  | cardanoBridge
deriving DecidableEq, Repr

structure ClaimRewardsTransaction where
  value : Nat
  kind : ClaimKind
  address : Hash
  intentHash : Hash
  nightTokenType : Hash

inductive Transaction
  | standard (tx : StandardTransaction)
  | claimRewards (tx : ClaimRewardsTransaction)

inductive Operation
  | call (address : ContractAddress) (entryPoint : List UInt8)
  | deploy (address : ContractAddress)
  | maintain (address : ContractAddress)
  | claimRewards (value : Nat)
  | claimBridgeTransfer (value : Nat)
deriving DecidableEq, Repr

def ContractAction.toOperation : ContractAction → Operation
  | .call address entryPoint => .call address entryPoint
  | .deploy address => .deploy address
  | .maintain address => .maintain address

/-- The operations of a transaction, without those of the filtered segments. -/
def Transaction.callsAndDeploys (tx : Transaction) (filterSegments : Option (List SegmentId)) :
    List Operation :=
  let filteredSegments := filterSegments.getD []
  match tx with
  | .standard tx => tx.actions.filterMap fun (segment, action) =>
      if filteredSegments.contains segment then none else some action.toOperation
  | .claimRewards tx =>
    match tx.kind with
    | .reward => [.claimRewards tx.value]
    | .cardanoBridge => [.claimBridgeTransfer tx.value]

/-! ## Unshielded UTXOs -/

structure UnshieldedUtxos where
  outputs : SortedMap SegmentId (List UtxoInfo)
  inputs : SortedMap SegmentId (List UtxoInfo)

namespace UnshieldedUtxos

def empty : UnshieldedUtxos := ⟨.empty, .empty⟩

/-- Append to the outputs and inputs of a segment; empty lists make no entry. -/
def update (u : UnshieldedUtxos) (segment : SegmentId) (outputs inputs : List UtxoInfo) :
    UnshieldedUtxos where
  outputs := if outputs.isEmpty then u.outputs
    else u.outputs.alter segment fun o => o.getD [] ++ outputs
  inputs := if inputs.isEmpty then u.inputs
    else u.inputs.alter segment fun o => o.getD [] ++ inputs

end UnshieldedUtxos

/-- Number the outputs of an intent; fails past `u32::MAX` outputs. -/
def utxosInfoFromOutput (outputs : List UtxoOutput) (intentHash : Hash) : Option (List UtxoInfo) :=
  outputs.zipIdx.mapM fun (output, outputNo) =>
    if outputNo < 2 ^ 32 then
      some { address := output.owner, tokenType := output.type_, intentHash, value := output.value
             outputNo }
    else none

def utxosInfoFromInputs (inputs : List UtxoSpend) : List UtxoInfo := inputs.map (·.utxo)

/-- The UTXOs one segment contributes: those of the guaranteed part of every intent for segment
`0`, those of the fallible part of its own intent for another one. -/
def StandardTransaction.addSegment (tx : StandardTransaction) (u : UnshieldedUtxos)
    (segment : SegmentId) : Option UnshieldedUtxos :=
  if segment = 0 then
    tx.intents.values.foldlM (fun u intent => do
      let outputs ← utxosInfoFromOutput intent.guaranteedOutputs (intent.intentHash segment)
      some (u.update segment outputs (utxosInfoFromInputs intent.guaranteedInputs))) u
  else
    match tx.intents.find? segment with
    | none => some u
    | some intent => do
      let outputs ← utxosInfoFromOutput intent.fallibleOutputs (intent.intentHash segment)
      some (u.update segment outputs (utxosInfoFromInputs intent.fallibleInputs))

/-- All UTXOs of a transaction by segment; none when an output index is out of range. -/
def Transaction.unshieldedUtxos : Transaction → UnshieldedUtxos
  | .standard tx => (tx.segments.foldlM tx.addSegment .empty).getD .empty
  | .claimRewards tx =>
    UnshieldedUtxos.empty.update 0 [{ address := tx.address, tokenType := tx.nightTokenType
                                      intentHash := tx.intentHash, value := tx.value, outputNo := 0 }]
      []

/-! ## Results of the ledger -/

/-- The result of a segment; the reason of a failure is not looked at. -/
abbrev SegmentResult := Except Nat Unit

def SegmentResult.isErr : SegmentResult → Bool
  | .ok _ => false
  | .error _ => true

inductive AppliedStage
  | allApplied
  | partialSuccess (segments : SortedMap SegmentId SegmentResult)

/-- Drop the UTXOs of the segments with an error. -/
def UnshieldedUtxos.removeFailedSegments (u : UnshieldedUtxos)
    (segments : SortedMap SegmentId SegmentResult) : UnshieldedUtxos :=
  segments.entries.foldl (fun u (segment, result) =>
    if SegmentResult.isErr result then ⟨u.outputs.erase segment, u.inputs.erase segment⟩ else u) u

structure UtxoOrdering where
  created : List (Hash × Nat)
  spent : List (Hash × Nat)

structure LedgerHost where
  State : Type
  decodeTransaction : List UInt8 → Except LedgerApiError Transaction
  getLedger : List UInt8 → Except LedgerApiError State
  /-- Verification and application of a transaction. -/
  applyVerifiedTransaction : State → Transaction → Except LedgerApiError (State × AppliedStage)
  utxos : State → List UtxoInfo
  transactionHash : Transaction → Hash
  serializeKey : State → Except LedgerApiError (List UInt8)
  serializeAddress : ContractAddress → Except LedgerApiError (List UInt8)
  orderingOverride : Hash → Option UtxoOrdering

/-- The UTXO lists, if the ledger's new state agrees with them. -/
def UnshieldedUtxos.checkIntegrity (host : LedgerHost) (u : UnshieldedUtxos) (initialSize : Nat)
    (state : host.State) : Except LedgerApiError (List UtxoInfo × List UtxoInfo) :=
  let outputs := u.outputs.values.flatten
  let inputs := u.inputs.values.flatten
  if outputs.all (host.utxos state).contains && inputs.all (fun i => !(host.utxos state).contains i) &&
      decide ((host.utxos state).length = initialSize + outputs.length - inputs.length) then
    .ok (outputs, inputs)
  else .error .hostApiError

/-- `Vec::swap_remove`: the last element takes the place of the removed one. -/
def swapRemove (l : List α) (i : Nat) : List α :=
  match l.getLast? with
  | none => l
  | some last => (l.set i last).dropLast

/-- The loop of `reorder`; when an entry is missing, what is left of the list is returned. -/
def reorderLoop : (utxos reordered : List UtxoInfo) → List (Hash × Nat) → List UtxoInfo
  | _, reordered, [] => reordered
  | utxos, reordered, (intentHash, outputNo) :: expected =>
    match utxos.findIdx? fun u => u.intentHash == intentHash && u.outputNo == outputNo with
    | some pos =>
      match utxos[pos]? with
      | some u => reorderLoop (swapRemove utxos pos) (reordered ++ [u]) expected
      | none => utxos
    | none => utxos

def reorder (utxos : List UtxoInfo) (expected : List (Hash × Nat)) : List UtxoInfo :=
  if expected.isEmpty || utxos.length != expected.length then utxos
  else reorderLoop utxos [] expected

def UtxoOrdering.apply (o : UtxoOrdering) (outputs : List UtxoInfo) (outputSegments : Nat)
    (inputs : List UtxoInfo) (inputSegments : Nat) : List UtxoInfo × List UtxoInfo :=
  (if outputSegments > 1 then reorder outputs o.created else outputs,
    if inputSegments > 1 then reorder inputs o.spent else inputs)

structure TransactionAppliedStateRoot where
  stateRoot : List UInt8
  txHash : Hash
  allApplied : Bool
  callAddresses : List (List UInt8)
  deployAddresses : List (List UInt8)
  maintainAddresses : List (List UInt8)
  claimRewards : List Nat
  unshieldedUtxosCreated : List UtxoInfo
  unshieldedUtxosSpent : List UtxoInfo
deriving DecidableEq

def pushOperation (host : LedgerHost) (event : TransactionAppliedStateRoot) :
    Operation → Except LedgerApiError TransactionAppliedStateRoot
  | .call address _ => do
    let a ← host.serializeAddress address
    pure { event with callAddresses := event.callAddresses ++ [a] }
  | .deploy address => do
    let a ← host.serializeAddress address
    pure { event with deployAddresses := event.deployAddresses ++ [a] }
  | .maintain address => do
    let a ← host.serializeAddress address
    pure { event with maintainAddresses := event.maintainAddresses ++ [a] }
  | .claimRewards value => pure { event with claimRewards := event.claimRewards ++ [value] }
  | .claimBridgeTransfer value => pure { event with claimRewards := event.claimRewards ++ [value] }

/-- The UTXOs and the filtered segments that follow from the result of the ledger. -/
def AppliedStage.filters (stage : AppliedStage) (utxos : UnshieldedUtxos) :
    UnshieldedUtxos × Option (List SegmentId) :=
  match stage with
  | .partialSuccess segments => (utxos.removeFailedSegments segments, some segments.keys)
  | .allApplied => (utxos, none)

/-- `apply_transaction`: the event, and the ledger that is persisted. -/
def applyTransaction (host : LedgerHost) (stateKey txSerialized : List UInt8)
    (shouldSkipFailedSegments : Bool) :
    Except LedgerApiError (TransactionAppliedStateRoot × host.State) := do
  let tx ← host.decodeTransaction txSerialized
  let ledger ← host.getLedger stateKey
  let (newLedger, stage) ← host.applyVerifiedTransaction ledger tx
  let (utxos, failedSegments) := stage.filters tx.unshieldedUtxos
  let operations := tx.callsAndDeploys (if shouldSkipFailedSegments then failedSegments else none)
  let (outputs, inputs) ← utxos.checkIntegrity host (host.utxos ledger).length newLedger
  let (created, spent) :=
    match host.orderingOverride (host.transactionHash tx) with
    | some ordering =>
      ordering.apply outputs utxos.outputs.entries.length inputs utxos.inputs.entries.length
    | none => (outputs, inputs)
  let stateRoot ← host.serializeKey newLedger
  let event : TransactionAppliedStateRoot :=
    { stateRoot, txHash := host.transactionHash tx
      allApplied := match stage with
        | .allApplied => true
        | .partialSuccess _ => false
      callAddresses := [], deployAddresses := [], maintainAddresses := [], claimRewards := []
      unshieldedUtxosCreated := created, unshieldedUtxosSpent := spent }
  let event ← operations.foldlM (pushOperation host) event
  pure (event, newLedger)

/-! ## The segments that are dropped -/

/-- Whether the ledger reported an error for the segment. -/
def failed (segments : SortedMap SegmentId SegmentResult) (segment : SegmentId) : Bool :=
  segments.entries.any fun (s, result) => decide (s = segment) && SegmentResult.isErr result

/-- The UTXOs kept are those of the segments without an error. -/
theorem removeFailedSegments_entries (u : UnshieldedUtxos)
    (segments : SortedMap SegmentId SegmentResult) :
    (u.removeFailedSegments segments).outputs.entries =
        u.outputs.entries.filter (fun e => !failed segments e.1) ∧
      (u.removeFailedSegments segments).inputs.entries =
        u.inputs.entries.filter (fun e => !failed segments e.1) := by
  unfold UnshieldedUtxos.removeFailedSegments failed
  generalize segments.entries = l
  induction l generalizing u with
  | nil => simp
  | cons r l ih =>
    obtain ⟨segment, result⟩ := r
    rw [List.foldl_cons]
    obtain ⟨ho, hi⟩ := ih (if SegmentResult.isErr result then
      ⟨u.outputs.erase segment, u.inputs.erase segment⟩ else u)
    rw [ho, hi]
    cases hr : SegmentResult.isErr result with
    | false => simp [hr]
    | true =>
      simp only [if_true, SortedMap.erase, List.filter_filter, List.any_cons, hr, Bool.and_true,
        Bool.not_or]
      constructor <;>
      · refine List.filter_congr fun e _ => ?_
        rw [Bool.and_comm, ← decide_not]
        congr 2
        exact propext ne_comm

theorem failed_eq_false_of_ok {segment : SegmentId} (h : (segment, .ok ()) ∈ segments.entries) :
    failed segments segment = false := by
  refine List.any_eq_false.mpr ?_
  rintro ⟨s, result⟩ hr
  simp only [Bool.and_eq_true, decide_eq_true_eq, not_and]
  rintro rfl
  rw [segments.unique hr h]
  simp [SegmentResult.isErr]

theorem mem_keys_of_failed {segment : SegmentId} (h : failed segments segment = true) :
    segment ∈ segments.keys := by
  obtain ⟨⟨s, result⟩, hr, hs⟩ := List.any_eq_true.mp h
  simp only [Bool.and_eq_true, decide_eq_true_eq] at hs
  exact List.mem_map.mpr ⟨_, hr, hs.1⟩

/-! ## Counting reported operations -/

def TransactionAppliedStateRoot.numOperations (event : TransactionAppliedStateRoot) : Nat :=
  event.callAddresses.length + event.deployAddresses.length + event.maintainAddresses.length +
    event.claimRewards.length

/-- The event before any operation is added to it. -/
def TransactionAppliedStateRoot.withoutOperations (event : TransactionAppliedStateRoot) :
    TransactionAppliedStateRoot :=
  { event with callAddresses := [], deployAddresses := [], maintainAddresses := [],
               claimRewards := [] }

theorem pushOperation_spec (h : pushOperation host event op = .ok event') :
    event'.numOperations = event.numOperations + 1 ∧
      event'.withoutOperations = event.withoutOperations := by
  cases op with
  | call | deploy | maintain =>
    obtain ⟨a, -, h⟩ := Fallible.of_bind h
    cases h
    exact ⟨by simp [TransactionAppliedStateRoot.numOperations]; omega, rfl⟩
  | claimRewards | claimBridgeTransfer =>
    cases h
    exact ⟨by simp [TransactionAppliedStateRoot.numOperations]; omega, rfl⟩

theorem pushOperations_spec {ops : List Operation}
    (h : ops.foldlM (pushOperation host) event = .ok event') :
    event'.numOperations = event.numOperations + ops.length ∧
      event'.withoutOperations = event.withoutOperations := by
  induction ops generalizing event with
  | nil =>
    cases h
    exact ⟨rfl, rfl⟩
  | cons op ops ih =>
    rw [List.foldlM_cons] at h
    obtain ⟨mid, hop, h⟩ := Fallible.of_bind h
    obtain ⟨hcount, hrest⟩ := ih h
    obtain ⟨hcount', hrest'⟩ := pushOperation_spec hop
    rw [List.length_cons]
    exact ⟨by omega, hrest.trans hrest'⟩

/-! ## What is reported -/

section Report
variable {host : LedgerHost} {stateKey txSerialized : List UInt8} {tx : StandardTransaction}
  {ledger newLedger persisted : host.State} {segments : SortedMap SegmentId SegmentResult}
  {event : TransactionAppliedStateRoot}

/-- A host for which the transaction is a standard one and succeeds in part. -/
structure PartlyApplied (host : LedgerHost) (stateKey txSerialized : List UInt8)
    (tx : StandardTransaction) (segments : SortedMap SegmentId SegmentResult) : Prop where
  decoded : host.decodeTransaction txSerialized = .ok (.standard tx)
  applied : ∃ ledger newLedger, host.getLedger stateKey = .ok ledger ∧
    host.applyVerifiedTransaction ledger (.standard tx) =
      .ok (newLedger, .partialSuccess segments)

/-- How the event of a partly applied transaction comes about. -/
theorem applyTransaction_inv (h : PartlyApplied host stateKey txSerialized tx segments)
    (hrun : applyTransaction host stateKey txSerialized true = .ok (event, persisted)) :
    ((Transaction.standard tx).callsAndDeploys (some segments.keys)).foldlM (pushOperation host)
        event.withoutOperations = .ok event ∧
      (host.orderingOverride (host.transactionHash (.standard tx)) = none →
        event.unshieldedUtxosCreated = ((Transaction.standard tx).unshieldedUtxos.removeFailedSegments
            segments).outputs.values.flatten ∧
          event.unshieldedUtxosSpent = ((Transaction.standard tx).unshieldedUtxos.removeFailedSegments
            segments).inputs.values.flatten) := by
  obtain ⟨hdecode, ledger, newLedger, hledger, happly⟩ := h
  simp only [applyTransaction, hdecode, hledger, happly, AppliedStage.filters, if_true, bind,
    Except.bind] at hrun
  generalize hutxos : (Transaction.standard tx).unshieldedUtxos.removeFailedSegments segments = utxos
    at hrun ⊢
  cases hcheck : utxos.checkIntegrity host (host.utxos ledger).length newLedger with
  | error e => simp [hcheck] at hrun
  | ok lists =>
    obtain ⟨outputs, inputs⟩ := lists
    have hlists : outputs = utxos.outputs.values.flatten ∧ inputs = utxos.inputs.values.flatten := by
      unfold UnshieldedUtxos.checkIntegrity at hcheck
      dsimp only at hcheck
      split at hcheck
      · cases hcheck
        exact ⟨rfl, rfl⟩
      · cases hcheck
    simp only [hcheck] at hrun
    cases hkey : host.serializeKey newLedger with
    | error e => simp [hkey] at hrun
    | ok stateRoot =>
      simp only [hkey] at hrun
      split at hrun
      · cases hrun
      · rename_i event' hpush
        cases hrun
        obtain ⟨_, hframe⟩ := pushOperations_spec hpush
        refine ⟨?_, fun hnone => ?_⟩
        · rw [hframe]
          exact hpush
        · have hcreated := congrArg (·.unshieldedUtxosCreated) hframe
          have hspent := congrArg (·.unshieldedUtxosSpent) hframe
          simp only [TransactionAppliedStateRoot.withoutOperations, hnone] at hcreated hspent
          rw [hcreated, hspent]
          exact hlists

/-- The operations of the segments without an error, in the order of the transaction. -/
def succeededOperations (tx : StandardTransaction) (segments : SortedMap SegmentId SegmentResult) :
    List Operation :=
  (tx.actions.filter fun a => !failed segments a.1).map (·.2.toOperation)

/-- The event reports exactly the operations of the segments without an error and, unless the order
of an old block is restored, exactly the UTXOs of these segments. -/
structure ReportsSucceeded (host : LedgerHost) (tx : StandardTransaction)
    (segments : SortedMap SegmentId SegmentResult) (event : TransactionAppliedStateRoot) : Prop where
  operations : (succeededOperations tx segments).foldlM (pushOperation host)
    event.withoutOperations = .ok event
  utxos : host.orderingOverride (host.transactionHash (.standard tx)) = none →
    event.unshieldedUtxosCreated = ((Transaction.standard tx).unshieldedUtxos.outputs.entries.filter
        fun e => !failed segments e.1).flatMap Prod.snd ∧
      event.unshieldedUtxosSpent = ((Transaction.standard tx).unshieldedUtxos.inputs.entries.filter
        fun e => !failed segments e.1).flatMap Prod.snd

theorem callsAndDeploys_keys (tx : StandardTransaction)
    (segments : SortedMap SegmentId SegmentResult) :
    (Transaction.standard tx).callsAndDeploys (some segments.keys) =
      (tx.actions.filter fun a => !segments.keys.contains a.1).map (·.2.toOperation) := by
  simp only [Transaction.callsAndDeploys, Option.getD_some]
  induction tx.actions with
  | nil => rfl
  | cons a l ih =>
    obtain ⟨segment, action⟩ := a
    by_cases hc : segment ∈ segments.keys
    · simpa [List.filterMap_cons, List.filter_cons, hc] using ih
    · simpa [List.filterMap_cons, List.filter_cons, hc] using ih

/-- Filtering by the keys drops a part of what filtering by errors keeps: the actions of segments
that succeeded. -/
theorem filter_keys_eq_iff (tx : StandardTransaction)
    (segments : SortedMap SegmentId SegmentResult) :
    (tx.actions.filter fun a => !segments.keys.contains a.1).Sublist
        (tx.actions.filter fun a => !failed segments a.1) ∧
      ((tx.actions.filter fun a => !segments.keys.contains a.1).length =
          (tx.actions.filter fun a => !failed segments a.1).length ↔
        ∀ a ∈ tx.actions, (a.1, .ok ()) ∉ segments.entries) := by
  have hsub : (tx.actions.filter fun a => !segments.keys.contains a.1).Sublist
      (tx.actions.filter fun a => !failed segments a.1) := by
    refine List.monotone_filter_right _ fun a ha => ?_
    cases hf : failed segments a.1 with
    | false => rfl
    | true => simp [mem_keys_of_failed hf] at ha
  refine ⟨hsub, fun hlen a ha hok => ?_, fun hnone => ?_⟩
  · have heq := hsub.eq_of_length hlen
    have hmem : a ∈ tx.actions.filter fun a => !failed segments a.1 :=
      List.mem_filter.mpr ⟨ha, by simp [failed_eq_false_of_ok hok]⟩
    rw [← heq, List.mem_filter] at hmem
    have hkey : a.1 ∈ segments.keys := List.mem_map.mpr ⟨_, hok, rfl⟩
    simp [hkey] at hmem
  · refine congrArg List.length (List.filter_congr fun a ha => congrArg Bool.not ?_)
    cases hf : failed segments a.1 with
    | true => simpa using mem_keys_of_failed hf
    | false =>
      -- a segment with a result that did not fail has succeeded
      rw [← Bool.not_eq_true, List.contains_iff_mem]
      intro hkey
      obtain ⟨⟨s, result⟩, hr, heq⟩ := List.mem_map.mp hkey
      cases result with
      | ok _ => exact hnone a ha (heq ▸ hr)
      | error e =>
        have := List.any_eq_false.mp hf ⟨s, .error e⟩ hr
        simp [SegmentResult.isErr] at this
        exact this heq

/-- **The operations of succeeded segments are reported iff there are none.** For a standard
transaction that is applied in part, the event reports exactly the operations and the UTXOs of the
segments whose result is not an error iff no contract action of the transaction belongs to a segment
that succeeded. -/
theorem reports_succeeded_iff (host : LedgerHost) (stateKey txSerialized : List UInt8)
    (tx : StandardTransaction) (segments : SortedMap SegmentId SegmentResult)
    (h : PartlyApplied host stateKey txSerialized tx segments)
    (event : TransactionAppliedStateRoot) (persisted : host.State)
    (hrun : applyTransaction host stateKey txSerialized true = .ok (event, persisted)) :
    ReportsSucceeded host tx segments event ↔
      ∀ a ∈ tx.actions, (a.1, .ok ()) ∉ segments.entries := by
  obtain ⟨hops, hutxos⟩ := applyTransaction_inv h hrun
  rw [callsAndDeploys_keys] at hops
  obtain ⟨hsub, hiff⟩ := filter_keys_eq_iff tx segments
  rw [← hiff]
  constructor
  · intro hreports
    have hcount := (pushOperations_spec hops).1
    have hcount' := (pushOperations_spec hreports.operations).1
    rw [succeededOperations, List.length_map] at hcount'
    rw [List.length_map] at hcount
    omega
  · intro hlen
    refine ⟨?_, fun hnone => ?_⟩
    · rw [succeededOperations, ← hsub.eq_of_length hlen]
      exact hops
    · obtain ⟨houtputs, hinputs⟩ := removeFailedSegments_entries
        (Transaction.standard tx).unshieldedUtxos segments
      rw [(hutxos hnone).1, (hutxos hnone).2, SortedMap.values, SortedMap.values, houtputs, hinputs]
      exact ⟨rfl, rfl⟩

end Report

/-- Segment `1` succeeds and segment `2` fails. -/
def sampleSegments : SortedMap SegmentId SegmentResult :=
  ⟨[(1, .ok ()), (2, .error 0)], by decide⟩

/-- A transaction without UTXOs that calls one contract in each of the given segments. -/
def sampleTx (calls : List SegmentId) : StandardTransaction :=
  { segments := [0, 1, 2], intents := .empty
    actions := calls.map fun s => (s, .call (.fill 32 (UInt8.ofNat s.val)) []) }

/-- A host that knows one transaction and applies it with `sampleSegments`. -/
def sampleHost (calls : List SegmentId) : LedgerHost where
  State := Unit
  decodeTransaction _ := .ok (.standard (sampleTx calls))
  getLedger _ := .ok ()
  applyVerifiedTransaction _ _ := .ok ((), .partialSuccess sampleSegments)
  utxos _ := []
  transactionHash _ := .fill 32 0
  serializeKey _ := .ok []
  serializeAddress a := .ok a.data
  orderingOverride _ := none

theorem sampleHost_partlyApplied (calls : List SegmentId) :
    PartlyApplied (sampleHost calls) [] [] (sampleTx calls) sampleSegments :=
  ⟨rfl, (), (), rfl, rfl⟩

theorem reports_succeeded_when_all_fail :
    ∃ event, applyTransaction (sampleHost [2]) [] [] true = .ok (event, ()) ∧
      ReportsSucceeded (sampleHost [2]) (sampleTx [2]) sampleSegments event :=
  ⟨_, rfl, (reports_succeeded_iff (sampleHost [2]) [] [] (sampleTx [2]) sampleSegments
    (sampleHost_partlyApplied [2]) _ () rfl).mpr (by decide)⟩

/-- The call of the segment that succeeded is missing from the event. -/
theorem call_of_succeeded_segment_dropped :
    ∃ event, applyTransaction (sampleHost [1, 2]) [] [] true = .ok (event, ()) ∧
      event.callAddresses = [] ∧
      succeededOperations (sampleTx [1, 2]) sampleSegments = [.call (.fill 32 1) []] ∧
      ¬ ReportsSucceeded (sampleHost [1, 2]) (sampleTx [1, 2]) sampleSegments event :=
  ⟨_, rfl, rfl, by decide, fun h => absurd h.operations (by decide)⟩

end MidnightNode.Ledger
