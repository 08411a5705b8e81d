import MidnightNode.Ledger.ApplyTransaction
import MidnightNode.Lib.Memo

/-!
# Transaction validation and its caches

The calls the runtime makes into the ledger bridge (`ledger/versions/common/mod.rs`): application of
a transaction, validation for the mempool, the check before dispatch, and the cost estimate. Each
call decodes the transaction behind the memo activation gate and loads the ledger of its own state
key; the verification work is shared between calls through two process-wide caches. The strict cache
holds verified transactions under the ledger state, the transaction and the block time; the soft cache
holds mempool verdicts under the transaction alone.

The ledger itself is a parameter (`VerifierHost`). A call is a function of the arena of ledgers and
of the caches, so histories with calls for blocks of any branches are lists of calls; entries also
leave the caches by themselves (capacity, idle time, age), which is a step of its own.
-/

namespace MidnightNode.Ledger

/-! ## Contexts -/

structure BlockContext where
  tblock : Nat
  tblockErr : Nat
  parentBlockHash : List UInt8
  lastBlockTime : Nat
deriving DecidableEq

/-- The time of the parent block, which contexts carry from ledger 8 on. -/
def BlockContext.parentBlockTime (ctx : BlockContext) : Option Nat := some ctx.lastBlockTime

structure ConsensusContext where
  blockHeight : Nat
  memoActivationHeight : Nat
deriving DecidableEq

namespace ConsensusContext

def memoActive (c : ConsensusContext) : Bool := decide (c.memoActivationHeight ≤ c.blockHeight)

end ConsensusContext

inductive TxWireEra
  | preMemo
  | memoCapable
deriving DecidableEq

structure TBlockCorrection where
  offset : Int
  disableAfter : Nat
deriving DecidableEq

structure SyntheticCost where
  readTime : Nat
  computeTime : Nat
  blockUsage : Nat
  bytesWritten : Nat
  bytesChurned : Nat
deriving DecidableEq

def SyntheticCost.isZero (c : SyntheticCost) : Bool :=
  c.readTime == 0 && c.computeTime == 0 && c.blockUsage == 0 && c.bytesWritten == 0 &&
    c.bytesChurned == 0

structure BlockLedger (LedgerState : Type) where
  state : LedgerState
  blockFullness : SyntheticCost

def BlockLedger.isBlockStart (ledger : BlockLedger LedgerState) : Bool := ledger.blockFullness.isZero

structure TransactionContext (LedgerState : Type) where
  refState : LedgerState
  tblock : Nat
  tblockErr : Nat
  parentBlockHash : Hash
  lastBlockTime : Nat

structure NormalizedCost where
  readTime : Int
  computeTime : Int
  blockUsage : Int
  bytesWritten : Int
  bytesChurned : Int

structure VerifierHost where
  LedgerState : Type
  VerifiedTransaction : Type
  TransactionDetails : Type
  /-- The transaction, and whether it came in the wire version without memos. -/
  versionedDeserialize : List UInt8 → Option (Transaction × Bool)
  isTypedArenaKey : List UInt8 → Bool
  twox128 : List UInt8 → Bytes 16
  stateHash : LedgerState → Hash
  /-- Well-formedness at a time in seconds; a malformed transaction has an error code. -/
  wellFormed : Transaction → LedgerState → Int → Except Nat VerifiedTransaction
  validateGuaranteedExecution :
    LedgerState → VerifiedTransaction → TransactionContext LedgerState → Except Nat Unit
  applyVerifiedTransaction : BlockLedger LedgerState → Transaction → VerifiedTransaction →
    TransactionContext LedgerState → Except LedgerApiError (BlockLedger LedgerState × AppliedStage)
  cost : Transaction → LedgerState → Option SyntheticCost
  normalize : LedgerState → SyntheticCost → Option NormalizedCost
  intoAtomicUnits : Int → Nat → Nat
  getTransactionDetails : Transaction → Nat → Except LedgerApiError TransactionDetails
  utxos : LedgerState → List UtxoInfo
  transactionHash : Transaction → Hash
  serializeKey : BlockLedger LedgerState → Except LedgerApiError (List UInt8)
  serializeAddress : ContractAddress → Except LedgerApiError (List UInt8)
  orderingOverride : Hash → Option UtxoOrdering

structure StrictTxValidationKey where
  stateHash : Hash
  txHash : Hash
  blockContextTblock : Nat
deriving DecidableEq

structure SoftTxValidationKey where
  txHash : Hash
deriving DecidableEq

structure Caches (host : VerifierHost) where
  strict : Memo.Table StrictTxValidationKey host.VerifiedTransaction
  soft : Memo.Table SoftTxValidationKey (Except LedgerApiError Unit)

structure Node (host : VerifierHost) where
  arena : AList fun _ : List UInt8 => BlockLedger host.LedgerState
  caches : Caches host

/-! ## Decoding -/

section

variable (host : VerifierHost)

def decodeVersioned (bytes : List UInt8) : Except LedgerApiError (Transaction × TxWireEra) :=
  match host.versionedDeserialize bytes with
  | none => .error (.deserialization .transaction)
  | some (tx, isV12) => .ok (tx, if isV12 then .preMemo else .memoCapable)

def decodeTransaction (consensus : ConsensusContext) (bytes : List UInt8) :
    Except LedgerApiError Transaction := do
  let (tx, era) ← decodeVersioned host bytes
  if era = .memoCapable ∧ ¬ consensus.memoActive then
    throw .transactionVersionNotActive
  pure tx

/-- Decoding as it would be without the activation gate. -/
def decodeUngated (bytes : List UInt8) : Except LedgerApiError Transaction := do
  let (tx, _) ← decodeVersioned host bytes
  pure tx

def getLedger (arena : AList fun _ : List UInt8 => BlockLedger host.LedgerState)
    (stateKey : List UInt8) : Except LedgerApiError (BlockLedger host.LedgerState) :=
  if host.isTypedArenaKey stateKey then
    match arena.lookup stateKey with
    | some ledger => .ok ledger
    | none => .error .noLedgerState
  else .error (.deserialization .typedArenaKey)

/-- A 16-byte hash as a 32-byte one, filled up with zeros. -/
def wrapHash (h : Bytes 16) : Hash :=
  ⟨h.data ++ List.replicate 16 0, by simp [h.length_eq]⟩

def txValidationCacheKey (runtimeVersion : UInt32) (txSerialized : List UInt8) : Hash :=
  wrapHash (host.twox128 (leBytes runtimeVersion ++ txSerialized))

end

/-! ## Verification -/

section

variable {host : VerifierHost}

def BlockLedger.getTransactionContext (ledger : BlockLedger LedgerState) (ctx : BlockContext) :
    Except LedgerApiError (TransactionContext LedgerState) :=
  match Bytes.ofList? 32 ctx.parentBlockHash with
  | some parentBlockHash =>
    .ok ⟨ledger.state, ctx.tblock, ctx.tblockErr, parentBlockHash, ctx.lastBlockTime⟩
  | none => .error .getTransactionContextError

/-- The time a transaction is verified at. -/
def wellFormedTblock (ledger : BlockLedger LedgerState) (ctx : BlockContext)
    (correction : Option TBlockCorrection) : Int :=
  match correction, ctx.parentBlockTime with
  | some tc, some parentBlockTime =>
    if ctx.tblock < tc.disableAfter ∧ ledger.isBlockStart then parentBlockTime + tc.offset
    else ctx.tblock
  | _, _ => ctx.tblock

/-- Verification without the cache. -/
def verifyFresh (ledger : BlockLedger host.LedgerState) (tx : Transaction) (ctx : BlockContext)
    (correction : Option TBlockCorrection) : Except LedgerApiError host.VerifiedTransaction := do
  let txCtx ← ledger.getTransactionContext ctx
  match host.wellFormed tx txCtx.refState (wellFormedTblock ledger ctx correction) with
  | .ok verified => pure verified
  | .error code => throw (.transaction code)

def strictKey (ledger : BlockLedger host.LedgerState) (ctx : BlockContext) (txHash : Hash) :
    StrictTxValidationKey :=
  ⟨host.stateHash ledger.state, txHash, ctx.tblock⟩

def getVerifiedTransaction (ledger : BlockLedger host.LedgerState) (tx : Transaction)
    (ctx : BlockContext) (txHash : Hash) (correction : Option TBlockCorrection)
    (caches : Caches host) : Except LedgerApiError host.VerifiedTransaction × Caches host :=
  let (verified, strict) := Memo.getOrCompute caches.strict (strictKey ledger ctx txHash)
    (verifyFresh ledger tx ctx correction)
  (verified, { caches with strict })

def dryRun (ledger : BlockLedger host.LedgerState) (verified : host.VerifiedTransaction)
    (ctx : BlockContext) : Except LedgerApiError Unit := do
  let txCtx ← ledger.getTransactionContext ctx
  match host.validateGuaranteedExecution ledger.state verified txCtx with
  | .ok () => pure ()
  | .error reason => throw (.transaction reason)

/-- The validation for the mempool; tells whether the soft cache answered. -/
def doValidateTransaction (ledger : BlockLedger host.LedgerState) (tx : Transaction) (ctx : BlockContext)
    (txHash : Hash) (caches : Caches host) : Except LedgerApiError Bool × Caches host :=
  match caches.soft.lookup ⟨txHash⟩ with
  | some cached => (cached.map fun _ => true, caches)
  | none =>
    match getVerifiedTransaction ledger tx ctx txHash none caches with
    | (.error e, caches) => (.error e, caches)
    | (.ok verified, caches) =>
      match dryRun ledger verified ctx with
      -- only successes are cached
      | .ok () => (.ok false, { caches with soft := caches.soft.insert ⟨txHash⟩ (.ok ()) })
      | .error e => (.error e, caches)

/-- The check before dispatch; tells whether the strict cache answered. -/
def doValidateGuaranteedExecution (ledger : BlockLedger host.LedgerState) (tx : Transaction)
    (ctx : BlockContext) (txHash : Hash) (correction : Option TBlockCorrection)
    (caches : Caches host) : Except LedgerApiError Bool × Caches host :=
  let caches := { caches with soft := caches.soft.erase ⟨txHash⟩ }
  let wasCached := (caches.strict.lookup (strictKey ledger ctx txHash)).isSome
  match getVerifiedTransaction ledger tx ctx txHash correction caches with
  | (.error e, caches) => (.error e, caches)
  | (.ok verified, caches) => ((dryRun ledger verified ctx).map fun _ => wasCached, caches)

end

/-! ## The calls of the runtime -/

/-- A decoder for the transactions of a candidate block. -/
abbrev Decoder := ConsensusContext → List UInt8 → Except LedgerApiError Transaction

structure CallContext where
  stateKey : List UInt8
  txSerialized : List UInt8
  blockContext : BlockContext
  consensus : ConsensusContext
  runtimeVersion : UInt32
  /-- The correction the node has registered, if any. -/
  tblockCorrection : Option TBlockCorrection

section

variable {host : VerifierHost}

/-- The largest of the shares, as a weight. -/
def scaleNormalizedCost (host : VerifierHost) (c : NormalizedCost) (maxWeight : Nat) : Nat :=
  let maxFp := [c.computeTime, c.blockUsage, c.bytesWritten, c.bytesChurned].foldl max c.readTime
  min (host.intoAtomicUnits maxFp maxWeight) maxWeight

def getTransactionCost (decode : Decoder) (cc : CallContext) (maxWeight : Nat) (node : Node host) :
    Except LedgerApiError Nat := do
  let tx ← decode cc.consensus cc.txSerialized
  let ledger ← getLedger host node.arena cc.stateKey
  match host.cost tx ledger.state with
  | none => throw .feeCalculationError
  | some cost =>
    match host.normalize ledger.state cost with
    | none => throw .blockLimitExceededError
    | some normalized => pure (scaleNormalizedCost host normalized maxWeight)

/-- The details of a transaction, when they are asked for. -/
def txDetails (decode : Decoder) (cc : CallContext) (tx : Transaction) (maxWeight : Nat)
    (getTxDetails : Bool) (node : Node host) :
    Except LedgerApiError (Option host.TransactionDetails) := do
  if getTxDetails then
    let gasCost ← getTransactionCost decode cc maxWeight node
    let details ← host.getTransactionDetails tx gasCost
    pure (some details)
  else pure none

def validateTransaction (decode : Decoder) (cc : CallContext) (maxWeight : Nat)
    (getTxDetails : Bool) (node : Node host) :
    Except LedgerApiError (Hash × Option host.TransactionDetails) × Node host :=
  match decode cc.consensus cc.txSerialized, getLedger host node.arena cc.stateKey with
  | .error e, _ => (.error e, node)
  | .ok _, .error e => (.error e, node)
  | .ok tx, .ok ledger =>
    let key := txValidationCacheKey host cc.runtimeVersion cc.txSerialized
    -- no correction here: the caller has already moved the block time of the context
    match doValidateTransaction ledger tx cc.blockContext key node.caches with
    | (.error e, caches) => (.error e, { node with caches })
    | (.ok _, caches) =>
      ((txDetails decode cc tx maxWeight getTxDetails node).map fun details => (key, details),
        { node with caches })

def validateGuaranteedExecution (decode : Decoder) (cc : CallContext) (node : Node host) :
    Except LedgerApiError Unit × Node host :=
  match decode cc.consensus cc.txSerialized, getLedger host node.arena cc.stateKey with
  | .error e, _ => (.error e, node)
  | .ok _, .error e => (.error e, node)
  | .ok tx, .ok ledger =>
    let key := txValidationCacheKey host cc.runtimeVersion cc.txSerialized
    let (checked, caches) := doValidateGuaranteedExecution ledger tx cc.blockContext key
      cc.tblockCorrection node.caches
    (checked.map fun _ => (), { node with caches })

/-- The ledger as the rest of `apply_transaction` sees it: decoded, loaded and verified. -/
def VerifierHost.ledgerHost (host : VerifierHost) (tx : Transaction)
    (ledger : BlockLedger host.LedgerState) (verified : host.VerifiedTransaction)
    (txCtx : TransactionContext host.LedgerState) : LedgerHost where
  State := BlockLedger host.LedgerState
  decodeTransaction _ := .ok tx
  getLedger _ := .ok ledger
  applyVerifiedTransaction ledger tx := host.applyVerifiedTransaction ledger tx verified txCtx
  utxos ledger := host.utxos ledger.state
  transactionHash := host.transactionHash
  serializeKey := host.serializeKey
  serializeAddress := host.serializeAddress
  orderingOverride := host.orderingOverride

/-- `apply_transaction`, from the verification to the ledger that is persisted. -/
def verifyAndApply (decode : Decoder) (cc : CallContext) (shouldSkipFailedSegments : Bool)
    (node : Node host) : Except LedgerApiError TransactionAppliedStateRoot × Node host :=
  match decode cc.consensus cc.txSerialized, getLedger host node.arena cc.stateKey with
  | .error e, _ => (.error e, node)
  | .ok _, .error e => (.error e, node)
  | .ok tx, .ok ledger =>
    let key := txValidationCacheKey host cc.runtimeVersion cc.txSerialized
    match getVerifiedTransaction ledger tx cc.blockContext key cc.tblockCorrection node.caches with
    | (.error e, caches) => (.error e, { node with caches })
    | (.ok verified, caches) =>
      let node := { node with caches }
      match ledger.getTransactionContext cc.blockContext with
      | .error e => (.error e, node)
      | .ok txCtx =>
        match applyTransaction (host.ledgerHost tx ledger verified txCtx) cc.stateKey cc.txSerialized
          shouldSkipFailedSegments with
        | .error e => (.error e, node)
        | .ok (event, newLedger) =>
          (.ok event, { node with arena := node.arena.insert event.stateRoot newLedger })

end

inductive Call
  | apply (cc : CallContext) (shouldSkipFailedSegments : Bool)
  | validate (cc : CallContext) (maxWeight : Nat) (getTxDetails : Bool)
  | validateGuaranteed (cc : CallContext)
  | cost (cc : CallContext) (maxWeight : Nat)

def Call.context : Call → CallContext
  | .apply cc _ | .validate cc _ _ | .validateGuaranteed cc | .cost cc _ => cc

inductive Outcome (host : VerifierHost)
  | applied (event : TransactionAppliedStateRoot)
  | validated (key : Hash) (details : Option host.TransactionDetails)
  | guaranteed
  | cost (gas : Nat)

/-- One call, with a given decoder. -/
def Call.execWith (decode : Decoder) (node : Node host) :
    Call → Except LedgerApiError (Outcome host) × Node host
  | .apply cc skip => (verifyAndApply decode cc skip node).map (·.map .applied) id
  | .validate cc maxWeight getTxDetails =>
    (validateTransaction decode cc maxWeight getTxDetails node).map
      (·.map fun r => .validated r.1 r.2) id
  | .validateGuaranteed cc =>
    (validateGuaranteedExecution decode cc node).map (·.map fun _ => .guaranteed) id
  | .cost cc maxWeight => ((getTransactionCost decode cc maxWeight node).map .cost, node)

def Call.exec (node : Node host) (call : Call) : Except LedgerApiError (Outcome host) × Node host :=
  call.execWith (decodeTransaction host) node

/-- The call as it would run if there were no activation gate. -/
def Call.execUngated (node : Node host) (call : Call) :
    Except LedgerApiError (Outcome host) × Node host :=
  call.execWith (fun _ => decodeUngated host) node

/-- A step of the process: a call, or an entry that leaves a cache. -/
inductive NodeStep
  | call (c : Call)
  | evictStrict (key : StrictTxValidationKey)
  | evictSoft (key : SoftTxValidationKey)

namespace Node

/-- One step; `exec` is how a call runs. -/
def stepWith (exec : Node host → Call → Except LedgerApiError (Outcome host) × Node host)
    (node : Node host) : NodeStep → Node host
  | .call c => (exec node c).2
  | .evictStrict key =>
    { node with caches := { node.caches with strict := node.caches.strict.erase key } }
  | .evictSoft key =>
    { node with caches := { node.caches with soft := node.caches.soft.erase key } }

def step (node : Node host) : NodeStep → Node host := node.stepWith Call.exec

def run (node : Node host) (history : List NodeStep) : Node host := history.foldl step node

/-- A history of the process without the activation gate. -/
def runUngated (node : Node host) (history : List NodeStep) : Node host :=
  history.foldl (stepWith Call.execUngated) node

end Node

/-! ## The activation gate -/

section

variable {host : VerifierHost} {decode decode' : Decoder} {tx : Transaction} {bytes : List UInt8}
  {consensus : ConsensusContext} {call : Call} {node : Node host}

theorem decodeTransaction_of_memoCapable (htx : decodeVersioned host bytes = .ok (tx, .memoCapable))
    (hheight : consensus.blockHeight < consensus.memoActivationHeight) :
    decodeTransaction host consensus bytes = .error .transactionVersionNotActive := by
  have hactive : consensus.memoActive = false := decide_eq_false (not_le_of_gt hheight)
  simp [decodeTransaction, htx, hactive, bind, Except.bind, throw, throwThe, MonadExceptOf.throw]

theorem decodeTransaction_of_preMemo (htx : decodeVersioned host bytes = .ok (tx, .preMemo)) :
    decodeTransaction host consensus bytes = decodeUngated host bytes := by
  simp [decodeTransaction, decodeUngated, htx, bind, Except.bind]

theorem Call.execWith_of_error (h : decode call.context.consensus call.context.txSerialized = .error e) :
    call.execWith decode node = (.error e, node) := by
  cases call <;> rw [Call.context] at h
  case apply cc skip => simp [Call.execWith, verifyAndApply, h, Except.map]
  case validate cc maxWeight details => simp [Call.execWith, validateTransaction, h, Except.map]
  case validateGuaranteed cc => simp [Call.execWith, validateGuaranteedExecution, h, Except.map]
  case cost cc maxWeight =>
    simp [Call.execWith, getTransactionCost, h, Except.map, bind, Except.bind]

theorem Call.execWith_congr
    (h : decode call.context.consensus call.context.txSerialized =
      decode' call.context.consensus call.context.txSerialized) :
    call.execWith decode node = call.execWith decode' node := by
  cases call <;> rw [Call.context] at h
  case apply cc skip => simp only [Call.execWith, verifyAndApply, h]
  case validate cc maxWeight details =>
    simp only [Call.execWith, validateTransaction, txDetails, getTransactionCost, h]
  case validateGuaranteed cc => simp only [Call.execWith, validateGuaranteedExecution, h]
  case cost cc maxWeight => simp only [Call.execWith, getTransactionCost, h]

end

/-- The gate refuses the call. -/
def Call.isGated (host : VerifierHost) (call : Call) : Bool :=
  match decodeVersioned host call.context.txSerialized with
  | .ok (_, .memoCapable) => !call.context.consensus.memoActive
  | _ => false

def NodeStep.isGated (host : VerifierHost) : NodeStep → Bool
  | .call c => c.isGated host
  | _ => false

section

variable {host : VerifierHost} {call : Call} {node : Node host}

theorem Call.exec_of_isGated (h : call.isGated host = true) :
    call.exec node = (.error .transactionVersionNotActive, node) := by
  unfold Call.isGated at h
  split at h
  case h_1 tx htx =>
    have hheight : call.context.consensus.blockHeight < call.context.consensus.memoActivationHeight := by
      simpa [ConsensusContext.memoActive] using h
    exact Call.execWith_of_error (decodeTransaction_of_memoCapable htx hheight)
  case h_2 => cases h

theorem Call.exec_of_not_isGated (h : call.isGated host = false) :
    call.exec node = call.execUngated node := by
  refine Call.execWith_congr ?_
  unfold Call.isGated at h
  split at h
  case h_1 tx htx =>
    have hactive : call.context.consensus.memoActive = true := by simpa using h
    simp [decodeTransaction, decodeUngated, htx, hactive, bind, Except.bind]
  case h_2 hne =>
    match hd : decodeVersioned host call.context.txSerialized with
    | .error e => simp [decodeTransaction, decodeUngated, hd, bind, Except.bind]
    | .ok (tx, .preMemo) => exact decodeTransaction_of_preMemo hd
    | .ok (tx, .memoCapable) => exact absurd hd (hne tx)

theorem Node.step_of_isGated (h : s.isGated host = true) : node.step s = node := by
  cases s with
  | call c =>
    have hexec : c.exec node = (.error .transactionVersionNotActive, node) := Call.exec_of_isGated h
    exact congrArg Prod.snd hexec
  | evictStrict key => cases h
  | evictSoft key => cases h

theorem Node.step_of_not_isGated (h : s.isGated host = false) :
    node.step s = node.stepWith Call.execUngated s := by
  cases s with
  | call c =>
    have hexec : c.exec node = c.execUngated node := Call.exec_of_not_isGated h
    exact congrArg Prod.snd hexec
  | evictStrict key => rfl
  | evictSoft key => rfl

/-- The process evolves as if the calls the gate refuses had not been made. -/
theorem Node.run_eq_runUngated (history : List NodeStep) :
    node.run history = node.runUngated (history.filter fun s => !s.isGated host) := by
  induction history generalizing node with
  | nil => rfl
  | cons s history ih =>
    have hcons : node.run (s :: history) = (node.step s).run history := rfl
    cases hs : s.isGated host with
    | true =>
      rw [hcons, Node.step_of_isGated hs, ih, List.filter_cons_of_neg (by simp [hs])]
    | false =>
      rw [hcons, Node.step_of_not_isGated hs, ih, List.filter_cons_of_pos (by simp [hs])]
      rfl

end

/-- The gate holds on every branch, whatever calls have filled the caches. A memo-capable transaction
below its activation height is refused and leaves the node as it was; a transaction in the old
encoding gets the answer the bridge would give without the gate, from a node that is as the refused
calls had never been made. -/
theorem memo_gate_not_bypassed (host : VerifierHost) (start : Node host) (history : List NodeStep)
    (call : Call) (tx : Transaction) (era : TxWireEra)
    (hdecoded : decodeVersioned host call.context.txSerialized = .ok (tx, era)) :
    (era = .memoCapable →
      call.context.consensus.blockHeight < call.context.consensus.memoActivationHeight →
      call.exec (start.run history) =
        (.error .transactionVersionNotActive, start.run history)) ∧
    (era = .preMemo → call.exec (start.run history) = call.execUngated (start.run history)) ∧
    start.run history = start.runUngated (history.filter fun s => !s.isGated host) := by
  refine ⟨?_, ?_, Node.run_eq_runUngated history⟩
  · rintro rfl hheight
    exact Call.execWith_of_error (decodeTransaction_of_memoCapable hdecoded hheight)
  · rintro rfl
    exact Call.execWith_congr (decodeTransaction_of_preMemo hdecoded)

/-- A host whose transactions are valid from second `95` on; `[12]` is the old encoding. -/
def sampleVerifier : VerifierHost where
  LedgerState := Unit
  VerifiedTransaction := Unit
  TransactionDetails := Unit
  versionedDeserialize bytes := some (.standard (sampleTx []), bytes == [12])
  isTypedArenaKey _ := true
  twox128 bytes := .fill 16 (bytes.getLast?.getD 0)
  stateHash _ := .fill 32 0
  wellFormed _ _ time := if 95 ≤ time then .ok () else .error 0
  validateGuaranteedExecution _ _ _ := .ok ()
  applyVerifiedTransaction ledger _ _ _ := .ok (ledger, .allApplied)
  cost _ _ := some ⟨0, 0, 0, 0, 0⟩
  normalize _ _ := some ⟨0, 0, 0, 0, 0⟩
  intoAtomicUnits _ _ := 0
  getTransactionDetails _ _ := .ok ()
  utxos _ := []
  transactionHash _ := .fill 32 0
  serializeKey _ := .ok []
  serializeAddress a := .ok a.data
  orderingOverride _ := none

/-- A node with one ledger, at the start of a block, and empty caches. -/
def sampleNode : Node sampleVerifier :=
  { arena := (∅ : AList _).insert [] ⟨(), ⟨0, 0, 0, 0, 0⟩⟩, caches := ⟨∅, ∅⟩ }

/-- A call about the memo-capable encoding at a height, where memos activate at height `10`. -/
def sampleContext (height : Nat) (correction : Option TBlockCorrection) : CallContext :=
  ⟨[], [13], ⟨100, 0, List.replicate 32 0, 80⟩, ⟨height, 10⟩, 1, correction⟩

/-- Admitted at height `10`, the transaction is in both caches; a branch at height `9` still refuses
it. -/
theorem memo_gate_not_bypassed_after_admission :
    let warm := sampleNode.run [.call (.validate (sampleContext 10 none) 0 false)]
    warm.caches.soft.keys.length = 1 ∧ warm.caches.strict.keys.length = 1 ∧
      (Call.apply (sampleContext 9 none) true).exec warm =
        (.error .transactionVersionNotActive, warm) :=
  ⟨by decide +kernel, by decide +kernel,
    (memo_gate_not_bypassed sampleVerifier sampleNode _ (.apply (sampleContext 9 none) true)
      (.standard (sampleTx [])) .memoCapable rfl).1 rfl (by decide)⟩

end MidnightNode.Ledger
