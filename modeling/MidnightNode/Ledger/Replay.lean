import MidnightNode.Ledger.StrictCache

/-!
# Replay of a block outside the node

A block's transactions are applied twice by separately written code: by the node, through the ledger bridge
(`ledger/versions/common/api/ledger.rs`), and by the toolkit, which replays blocks from the chain in a
`LedgerContext` (`ledger/helpers/versions/common/context.rs`).

The node checks the limits after each transaction and finalises with an update that cannot fail, the replay
adds up the costs and makes the update that can. The node may verify a transaction at a corrected time,
while nothing has been accrued in the block; the replay always takes the time of the block.
`replay_agrees_iff` says when the two end in the same ledger state.
-/

namespace MidnightNode.Ledger
open Fallible

/-! ## The ledger library -/

structure OnchainContext where
  tblock : Nat
  tblockErr : Nat
  parentBlockHash : Hash
  lastBlockTime : Nat
deriving DecidableEq

def BlockContext.ofOnchain (c : OnchainContext) : BlockContext :=
  ⟨c.tblock, c.tblockErr, c.parentBlockHash.data, c.lastBlockTime⟩

inductive TransactionResult (Event : Type)
  | success (events : List Event)
  | partialSuccess (segments : SortedMap SegmentId SegmentResult) (events : List Event)
  | failure (reason : Nat)

def SyntheticCost.zero : SyntheticCost := ⟨0, 0, 0, 0, 0⟩

/-- The operations that change a ledger state, and what they cost. Costs and limits are functions of the
parameters in the state. -/
structure ExecutionLibrary (host : VerifierHost) where
  SystemTransaction : Type
  Event : Type
  /-- Well-formedness without the check that a transaction is balanced. -/
  wellFormedUnbalanced : Transaction → host.LedgerState → Int → Except Nat host.VerifiedTransaction
  apply : host.LedgerState → host.VerifiedTransaction → TransactionContext host.LedgerState →
    host.LedgerState × TransactionResult Event
  /-- The cost; with the flag set, the time to dismiss the transaction is enforced. -/
  cost : Transaction → host.LedgerState → Bool → Except Nat SyntheticCost
  systemCost : SystemTransaction → host.LedgerState → SyntheticCost
  applySystemTx : host.LedgerState → SystemTransaction → Nat → Except Nat (host.LedgerState × List Event)
  addCost : SyntheticCost → SyntheticCost → SyntheticCost
  blockLimits : host.LedgerState → SyntheticCost
  /-- The cost as shares of limits, none if it exceeds one of them. -/
  normalize : SyntheticCost → SyntheticCost → Option NormalizedCost
  prevalidatePostBlockUpdate : host.LedgerState → NormalizedCost → Int → Bool
  postBlockUpdate : host.LedgerState → Nat → NormalizedCost → Int → Except Nat host.LedgerState
  applyPostBlockUpdate : host.LedgerState → Nat → NormalizedCost → Int → host.LedgerState
  deserializeState : List UInt8 → Option host.LedgerState

variable {host : VerifierHost}

structure ExecutionLibrary.Lawful (lib : ExecutionLibrary host) : Prop where
  /-- A verified transaction does not tell the time it was verified at. -/
  wellFormed_time : ∀ {tx st t t' v v'}, host.wellFormed tx st t = .ok v →
    host.wellFormed tx st t' = .ok v' → v = v'
  cost_dismissal : ∀ {tx st c}, lib.cost tx st true = .ok c → lib.cost tx st false = .ok c
  addCost_comm : ∀ c c', lib.addCost c c' = lib.addCost c' c
  /-- The two updates agree when the fallible one succeeds. -/
  postBlockUpdate_ok : ∀ {st t n o st'}, lib.postBlockUpdate st t n o = .ok st' →
    st' = lib.applyPostBlockUpdate st t n o

inductive SerdeTransaction (lib : ExecutionLibrary host)
  | midnight (tx : Transaction)
  | system (tx : lib.SystemTransaction)

def OnchainContext.transactionContext (ctx : OnchainContext) (st : host.LedgerState) :
    TransactionContext host.LedgerState :=
  ⟨st, ctx.tblock, ctx.tblockErr, ctx.parentBlockHash, ctx.lastBlockTime⟩

/-- The share of the most used dimension. -/
def computeOverallFullness (n : NormalizedCost) : Int :=
  max (max (max n.readTime n.computeTime) n.blockUsage) (max n.bytesWritten n.bytesChurned)

namespace ExecutionLibrary

variable (lib : ExecutionLibrary host)

/-- Costs above the limits count as full; none is the panic. -/
def clampAndNormalize (cost limits : SyntheticCost) : Option NormalizedCost :=
  lib.normalize
    ⟨min cost.readTime limits.readTime, min cost.computeTime limits.computeTime,
      min cost.blockUsage limits.blockUsage, min cost.bytesWritten limits.bytesWritten,
      min cost.bytesChurned limits.bytesChurned⟩
    limits

/-! ## The node -/

def prevalidate (state : host.LedgerState) (blockFullness blockLimits : SyntheticCost) :
    Except LedgerApiError Unit :=
  match lib.normalize blockFullness blockLimits with
  | none => .error .blockLimitExceededError
  | some n =>
    if lib.prevalidatePostBlockUpdate state n (computeOverallFullness n) then .ok ()
    else .error .blockLimitExceededError

def applyVerifiedTransaction (ledger : BlockLedger host.LedgerState) (tx : Transaction)
    (verified : host.VerifiedTransaction) (ctx : TransactionContext host.LedgerState) :
    Except LedgerApiError (BlockLedger host.LedgerState × AppliedStage) := do
  let txCost ← (lib.cost tx ledger.state true).mapError fun _ => LedgerApiError.feeCalculationError
  let nextBlockFullness := lib.addCost txCost ledger.blockFullness
  lib.prevalidate ledger.state nextBlockFullness (lib.blockLimits ledger.state)
  match lib.apply ledger.state verified ctx with
  | (nextState, .success _) => .ok (⟨nextState, nextBlockFullness⟩, .allApplied)
  | (nextState, .partialSuccess segments _) =>
    .ok (⟨nextState, nextBlockFullness⟩, .partialSuccess segments)
  | (_, .failure reason) => .error (.transaction reason)

/-- The cost is that of the old parameters, the limits are the new ones. -/
def applySystemTxTo (ledger : BlockLedger host.LedgerState) (tx : lib.SystemTransaction) (tblock : Nat) :
    Except LedgerApiError (BlockLedger host.LedgerState) := do
  let nextBlockFullness := lib.addCost (lib.systemCost tx ledger.state) ledger.blockFullness
  let (nextState, _) ← (lib.applySystemTx ledger.state tx tblock).mapError .transaction
  lib.prevalidate nextState nextBlockFullness (lib.blockLimits nextState)
  .ok ⟨nextState, nextBlockFullness⟩

/-- `apply_transaction` and `apply_system_transaction`, as far as they change the ledger. -/
def applyTransaction (correction : Option TBlockCorrection) (ctx : BlockContext)
    (ledger : BlockLedger host.LedgerState) :
    SerdeTransaction lib → Except LedgerApiError (BlockLedger host.LedgerState)
  | .midnight tx => do
    let verified ← verifyFresh ledger tx ctx correction
    let txCtx ← ledger.getTransactionContext ctx
    let (ledger, _) ← lib.applyVerifiedTransaction ledger tx verified txCtx
    pure ledger
  | .system tx => lib.applySystemTxTo ledger tx ctx.tblock

/-- The update of `on_finalize`. -/
def finalize (ctx : BlockContext) (ledger : BlockLedger host.LedgerState) :
    Option (BlockLedger host.LedgerState) := do
  let n ← lib.clampAndNormalize ledger.blockFullness (lib.blockLimits ledger.state)
  pure ⟨lib.applyPostBlockUpdate ledger.state ctx.tblock n (computeOverallFullness n), .zero⟩

end ExecutionLibrary

/-! ## The replay -/

inductive LedgerContextError
  | invalidTransaction (code : Nat)
  | costCalculation (code : Nat)
  | blockUpdate (code : Nat)
  | stateRootMismatch (expected actual : List UInt8) (parentBlockHash : Hash)
  | deserialization
  /-- The panic of `clamp_and_normalize`. -/
  | panic

structure LedgerContext (host : VerifierHost) where
  ledgerState : host.LedgerState
  latestBlockContext : Option OnchainContext

namespace ExecutionLibrary

variable (lib : ExecutionLibrary host)

/-- The well-formedness check of the replay; the transactions of genesis need not balance. -/
def replayWellFormed (ctx : OnchainContext) (tx : Transaction) (st : host.LedgerState) :
    Except Nat host.VerifiedTransaction :=
  if ctx.parentBlockHash = .fill 32 0 then lib.wellFormedUnbalanced tx st ctx.tblock
  else host.wellFormed tx st ctx.tblock

def updateFromTx (ctx : OnchainContext) (st : host.LedgerState) :
    SerdeTransaction lib → Except LedgerContextError (host.LedgerState × List lib.Event × SyntheticCost)
  | .midnight tx => do
    let validTx ← (lib.replayWellFormed ctx tx st).mapError .invalidTransaction
    let cost ← (lib.cost tx st false).mapError .costCalculation
    match lib.apply st validTx (ctx.transactionContext st) with
    | (newState, .success events) => .ok (newState, events, cost)
    | (newState, .partialSuccess _ events) => .ok (newState, events, cost)
    | (newState, .failure _) => .ok (newState, [], .zero)
  | .system tx =>
    let cost := lib.systemCost tx st
    match lib.applySystemTx st tx ctx.tblock with
    | .ok (newState, events) => .ok (newState, events, cost)
    | .error _ => .ok (st, [], cost)

/-- The loop over the transactions: the state, the events and the total cost. -/
def updateFromTxs (ctx : OnchainContext) (acc : host.LedgerState × List lib.Event × SyntheticCost)
    (txs : List (SerdeTransaction lib)) :
    Except LedgerContextError (host.LedgerState × List lib.Event × SyntheticCost) :=
  txs.foldlM (fun acc tx => do
    let (st, events, cost) ← lib.updateFromTx ctx acc.1 tx
    pure (st, acc.2.1 ++ events, lib.addCost acc.2.2 cost)) acc

/-- The update at the end of the block; the ledger has the total cost. -/
def replayPostBlockUpdate (ctx : OnchainContext) (ledger : BlockLedger host.LedgerState) :
    Except LedgerContextError host.LedgerState := do
  let n ← okOr .panic (lib.clampAndNormalize ledger.blockFullness (lib.blockLimits ledger.state))
  (lib.postBlockUpdate ledger.state ctx.tblock n (computeOverallFullness n)).mapError .blockUpdate

def applyTxsCollectEvents (ctx : OnchainContext) (txs : List (SerdeTransaction lib))
    (st : host.LedgerState) : Except LedgerContextError (host.LedgerState × List lib.Event) := do
  let (st, events, totalCost) ← lib.updateFromTxs ctx (st, [], .zero) txs
  let st ← lib.replayPostBlockUpdate ctx ⟨st, totalCost⟩
  pure (st, events)

end ExecutionLibrary

/-- The root of a state, as that of a ledger at the start of a block. -/
def computeStateRoot (st : host.LedgerState) : Option (List UInt8) :=
  (host.serializeKey ⟨st, .zero⟩).toOption

/-- A root that cannot be computed is only reported. -/
def verifyStateRoot (ctx : OnchainContext) (stateRoot : Option (List UInt8)) (st : host.LedgerState) :
    Except LedgerContextError Unit :=
  match stateRoot, computeStateRoot st with
  | some expected, some actual =>
    if actual ≠ expected then .error (.stateRootMismatch expected actual ctx.parentBlockHash) else .ok ()
  | _, _ => .ok ()

namespace ExecutionLibrary

variable (lib : ExecutionLibrary host)

/-- Replay of a block. The state of a genesis block is given with it. -/
def updateFromBlock (txs : List (SerdeTransaction lib)) (ctx : OnchainContext)
    (stateRoot state : Option (List UInt8)) (context : LedgerContext host) :
    Except LedgerContextError (List lib.Event × LedgerContext host) := do
  let (st, events) ← lib.applyTxsCollectEvents ctx txs context.ledgerState
  let st ← match state with
    | some bytes => okOr .deserialization (lib.deserializeState bytes)
    | none => pure st
  verifyStateRoot ctx stateRoot st
  pure (events, ⟨st, some ctx⟩)

/-! ## One transaction -/

/-- The transaction passes the verification at the time of the block. -/
def VerifiesAtBlockTime (ctx : OnchainContext) (st : host.LedgerState) : SerdeTransaction lib → Prop
  | .midnight tx => ∃ verified, host.wellFormed tx st ctx.tblock = .ok verified
  | .system _ => True

/-- What a transaction that the node applies does to the ledger. -/
inductive Applied (correction : Option TBlockCorrection) (ctx : OnchainContext)
    (ledger : BlockLedger host.LedgerState) : SerdeTransaction lib → BlockLedger host.LedgerState → Prop
  | midnight {tx : Transaction} {verified : host.VerifiedTransaction} {cost : SyntheticCost}
    {state : host.LedgerState} {result : TransactionResult lib.Event}
    (hverified : host.wellFormed tx ledger.state
      (wellFormedTblock ledger (.ofOnchain ctx) correction) = .ok verified)
    (hcost : lib.cost tx ledger.state true = .ok cost)
    (happly : lib.apply ledger.state verified (ctx.transactionContext ledger.state) = (state, result))
    (hresult : ∀ reason, result ≠ .failure reason) :
    Applied correction ctx ledger (.midnight tx) ⟨state, lib.addCost cost ledger.blockFullness⟩
  | system {tx : lib.SystemTransaction} {state : host.LedgerState} {events : List lib.Event}
    (happly : lib.applySystemTx ledger.state tx ctx.tblock = .ok (state, events)) :
    Applied correction ctx ledger (.system tx)
      ⟨state, lib.addCost (lib.systemCost tx ledger.state) ledger.blockFullness⟩

variable {lib} {correction : Option TBlockCorrection} {ctx : OnchainContext}
  {ledger ledger' : BlockLedger host.LedgerState} {tx : SerdeTransaction lib}
  {txs : List (SerdeTransaction lib)}

theorem wellFormedTblock_of_disabled (hoff : ∀ tc ∈ correction, tc.disableAfter ≤ ctx.tblock) :
    wellFormedTblock ledger (.ofOnchain ctx) correction = ctx.tblock := by
  cases correction with
  | none => rfl
  | some tc =>
    have htblock : ¬ ctx.tblock < tc.disableAfter := Nat.not_lt.mpr (hoff tc rfl)
    simp only [wellFormedTblock, BlockContext.ofOnchain, BlockContext.parentBlockTime, htblock, false_and,
      if_false]

theorem getTransactionContext_ofOnchain : ledger.getTransactionContext (.ofOnchain ctx) =
    .ok (ctx.transactionContext ledger.state) := by
  simp only [BlockLedger.getTransactionContext, BlockContext.ofOnchain, Bytes.ofList?_data]
  rfl

theorem verifyFresh_ok {tx : Transaction}
    (h : verifyFresh ledger tx (.ofOnchain ctx) correction = .ok verified) :
    host.wellFormed tx ledger.state (wellFormedTblock ledger (.ofOnchain ctx) correction) =
      .ok verified := by
  unfold verifyFresh at h
  rw [getTransactionContext_ofOnchain] at h
  obtain ⟨txCtx, hctx, h⟩ := of_bind h
  cases hctx
  split at h
  case h_1 v hv =>
    cases h
    exact hv
  case h_2 => cases h

theorem applyVerifiedTransaction_ok {tx : Transaction}
    (h : lib.applyVerifiedTransaction ledger tx verified txCtx = .ok (ledger', stage)) :
    ∃ cost state result, lib.cost tx ledger.state true = .ok cost ∧
      lib.apply ledger.state verified txCtx = (state, result) ∧ (∀ reason, result ≠ .failure reason) ∧
      ledger' = ⟨state, lib.addCost cost ledger.blockFullness⟩ := by
  unfold applyVerifiedTransaction at h
  obtain ⟨cost, hcost, h1⟩ := of_bind h
  obtain ⟨-, -, h2⟩ := of_bind h1
  refine ⟨cost, (lib.apply ledger.state verified txCtx).1, (lib.apply ledger.state verified txCtx).2,
    of_mapError hcost, rfl, ?_⟩
  split at h2
  case h_1 state events heq =>
    cases h2
    simp [heq]
  case h_2 state segments events heq =>
    cases h2
    simp [heq]
  case h_3 => cases h2

theorem applyTransaction_ok
    (h : lib.applyTransaction correction (.ofOnchain ctx) ledger tx = .ok ledger') :
    lib.Applied correction ctx ledger tx ledger' := by
  cases tx with
  | midnight tx =>
    obtain ⟨verified, hverified, h1⟩ := of_bind h
    obtain ⟨txCtx, hctx, h2⟩ := of_bind h1
    rw [getTransactionContext_ofOnchain] at hctx
    cases hctx
    obtain ⟨⟨ledger₂, stage⟩, hstage, h3⟩ := of_bind h2
    cases h3
    obtain ⟨cost, state, result, hcost, happly, hresult, rfl⟩ := applyVerifiedTransaction_ok hstage
    exact .midnight (verifyFresh_ok hverified) hcost happly hresult
  | system tx =>
    obtain ⟨⟨state, events⟩, happly, h1⟩ := of_bind h
    obtain ⟨-, -, h2⟩ := of_bind h1
    cases h2
    exact .system (of_mapError happly)

theorem verifiesAtBlockTime_of_updateFromTx (hgenesis : ctx.parentBlockHash ≠ .fill 32 0)
    (h : lib.updateFromTx ctx st tx = .ok r) : lib.VerifiesAtBlockTime ctx st tx := by
  cases tx with
  | midnight tx =>
    obtain ⟨verified, hverified, -⟩ := of_bind h
    have hverified := of_mapError hverified
    rw [replayWellFormed, if_neg hgenesis] at hverified
    exact ⟨verified, hverified⟩
  | system tx => trivial

/-- The replay of a transaction that the node applied and that also passes at the time of the block. -/
theorem Applied.updateFromTx (h : lib.Applied correction ctx ledger tx ledger') (hlib : lib.Lawful)
    (hgenesis : ctx.parentBlockHash ≠ .fill 32 0) (hv : lib.VerifiesAtBlockTime ctx ledger.state tx) :
    ∃ events cost, lib.updateFromTx ctx ledger.state tx = .ok (ledger'.state, events, cost) ∧
      lib.addCost ledger.blockFullness cost = ledger'.blockFullness := by
  cases h with
  | @midnight tx verified cost state result hverified hcost happly hresult =>
    obtain ⟨verified', hverified'⟩ := hv
    cases hlib.wellFormed_time hverified hverified'
    have hreplay : lib.replayWellFormed ctx tx ledger.state = .ok verified := by
      rw [replayWellFormed, if_neg hgenesis, hverified']
    simp only [ExecutionLibrary.updateFromTx, hreplay, hlib.cost_dismissal hcost, Except.mapError, bind,
      Except.bind, happly]
    cases result with
    | success events | partialSuccess segments events => exact ⟨events, cost, rfl, hlib.addCost_comm _ _⟩
    | failure reason => exact absurd rfl (hresult reason)
  | @system tx state events happly =>
    refine ⟨events, lib.systemCost tx ledger.state, ?_, hlib.addCost_comm _ _⟩
    simp only [ExecutionLibrary.updateFromTx, happly]

/-! ## Blocks -/

/-- Every transaction passes the verification at the time of the block, in the state it is applied to. -/
def AllVerifyAtBlockTime (correction : Option TBlockCorrection) (ctx : OnchainContext) :
    BlockLedger host.LedgerState → List (SerdeTransaction lib) → Prop
  | _, [] => True
  | ledger, tx :: txs => lib.VerifiesAtBlockTime ctx ledger.state tx ∧
    ∀ ledger', lib.applyTransaction correction (.ofOnchain ctx) ledger tx = .ok ledger' →
      AllVerifyAtBlockTime correction ctx ledger' txs

theorem updateFromTxs_of_allVerify (hlib : lib.Lawful) (hgenesis : ctx.parentBlockHash ≠ .fill 32 0)
    (hrun : txs.foldlM (lib.applyTransaction correction (.ofOnchain ctx)) ledger = .ok ledger')
    (hall : AllVerifyAtBlockTime correction ctx ledger txs) (events : List lib.Event) :
    ∃ events', lib.updateFromTxs ctx (ledger.state, events, ledger.blockFullness) txs =
      .ok (ledger'.state, events', ledger'.blockFullness) := by
  induction txs generalizing ledger events with
  | nil =>
    cases hrun
    exact ⟨events, rfl⟩
  | cons tx txs ih =>
    rw [List.foldlM_cons] at hrun
    obtain ⟨next, hnext, hrest⟩ := of_bind hrun
    obtain ⟨new, cost, hstep, hcost⟩ := (applyTransaction_ok hnext).updateFromTx hlib hgenesis hall.1
    obtain ⟨events', hloop⟩ := ih hrest (hall.2 next hnext) (events ++ new)
    refine ⟨events', ?_⟩
    rw [updateFromTxs, List.foldlM_cons, hstep, ← hloop, ← hcost]
    rfl

/-- A loop without an error has verified every transaction at the time of the block. -/
theorem allVerify_of_updateFromTxs (hlib : lib.Lawful) (hgenesis : ctx.parentBlockHash ≠ .fill 32 0)
    (h : lib.updateFromTxs ctx (ledger.state, events, ledger.blockFullness) txs = .ok acc) :
    AllVerifyAtBlockTime correction ctx ledger txs := by
  induction txs generalizing ledger events with
  | nil => trivial
  | cons tx txs ih =>
    rw [updateFromTxs, List.foldlM_cons] at h
    obtain ⟨acc', hacc', hrest⟩ := of_bind h
    obtain ⟨⟨st, new, cost⟩, hstep, hacc⟩ := of_bind hacc'
    have hverifies := verifiesAtBlockTime_of_updateFromTx hgenesis hstep
    refine ⟨hverifies, fun next hnext => ?_⟩
    obtain ⟨new', cost', hstep', hcost⟩ :=
      (applyTransaction_ok hnext).updateFromTx hlib hgenesis hverifies
    cases hstep.symm.trans hstep'
    cases hacc
    rw [hcost] at hrest
    exact ih hrest

/-- A node that does not correct the time verifies every transaction at the time of the block. -/
theorem allVerify_of_uncorrected (hoff : ∀ tc ∈ correction, tc.disableAfter ≤ ctx.tblock)
    (hrun : txs.foldlM (lib.applyTransaction correction (.ofOnchain ctx)) ledger = .ok ledger') :
    AllVerifyAtBlockTime correction ctx ledger txs := by
  induction txs generalizing ledger with
  | nil => trivial
  | cons tx txs ih =>
    rw [List.foldlM_cons] at hrun
    obtain ⟨next, hnext, hrest⟩ := of_bind hrun
    refine ⟨?_, fun next' hnext' => ?_⟩
    · cases applyTransaction_ok hnext with
      | midnight hverified =>
        rw [wellFormedTblock_of_disabled hoff] at hverified
        exact ⟨_, hverified⟩
      | system => trivial
    · cases hnext.symm.trans hnext'
      exact ih hrest

theorem finalize_of_replayPostBlockUpdate (hlib : lib.Lawful)
    (h : lib.replayPostBlockUpdate ctx ledger = .ok st)
    (hfinal : lib.finalize (.ofOnchain ctx) ledger = some final) : final = ⟨st, .zero⟩ := by
  obtain ⟨n, hn, hupdate⟩ := of_bind h
  rw [hlib.postBlockUpdate_ok (of_mapError hupdate)]
  rw [finalize, of_okOr hn] at hfinal
  exact (Option.some.inj hfinal).symm

/-- For transactions that a node applies and finalises, the replay of the block succeeds and ends in the
same ledger state exactly when every transaction passes the verification at the time of the block, in the
state it is applied to, and the fallible update at the end succeeds. -/
theorem replay_agrees_iff (hlib : lib.Lawful) (hgenesis : ctx.parentBlockHash ≠ .fill 32 0)
    (context : LedgerContext host) {final : BlockLedger host.LedgerState}
    (hrun : txs.foldlM (lib.applyTransaction correction (.ofOnchain ctx)) ⟨context.ledgerState, .zero⟩ =
      .ok ledger)
    (hfinal : lib.finalize (.ofOnchain ctx) ledger = some final) {stateRoot : Option (List UInt8)}
    (hroot : ∀ root ∈ stateRoot, host.serializeKey final = .ok root) :
    (∃ events context', lib.updateFromBlock txs ctx stateRoot none context = .ok (events, context') ∧
        context'.ledgerState = final.state) ↔
      AllVerifyAtBlockTime correction ctx ⟨context.ledgerState, .zero⟩ txs ∧
        ∃ st, lib.replayPostBlockUpdate ctx ledger = .ok st := by
  constructor
  · rintro ⟨events, context', h, -⟩
    obtain ⟨⟨st, events'⟩, htxs, -⟩ := of_bind h
    obtain ⟨acc, hloop, h1⟩ := of_bind htxs
    have hall : AllVerifyAtBlockTime correction ctx ⟨context.ledgerState, .zero⟩ txs :=
      allVerify_of_updateFromTxs hlib hgenesis hloop
    obtain ⟨events₂, hloop'⟩ := updateFromTxs_of_allVerify hlib hgenesis hrun hall []
    cases hloop.symm.trans hloop'
    obtain ⟨st, hupdate, -⟩ := of_bind h1
    exact ⟨hall, st, hupdate⟩
  · rintro ⟨hall, st, hupdate⟩
    obtain ⟨events, hloop⟩ := updateFromTxs_of_allVerify hlib hgenesis hrun hall []
    have hfinal := finalize_of_replayPostBlockUpdate hlib hupdate hfinal
    refine ⟨events, ⟨st, some ctx⟩, ?_, by rw [hfinal]⟩
    have htxs : lib.applyTxsCollectEvents ctx txs context.ledgerState = .ok (st, events) := by
      rw [applyTxsCollectEvents, hloop]
      simp only [bind, Except.bind, hupdate]
      rfl
    have hverify : verifyStateRoot ctx stateRoot st = .ok () := by
      cases stateRoot with
      | none => rfl
      | some root =>
        have hkey := hroot root rfl
        rw [hfinal] at hkey
        simp [verifyStateRoot, computeStateRoot, hkey, Except.toOption]
    rw [updateFromBlock, htxs]
    simp only [bind, Except.bind, pure, Except.pure, hverify]

end ExecutionLibrary

/-! ## A block with a corrected transaction -/

/-- A library in which every transaction costs one unit of block space. -/
def sampleExecution : ExecutionLibrary sampleVerifier where
  SystemTransaction := Unit
  Event := Unit
  wellFormedUnbalanced _ _ _ := .ok ()
  apply st _ _ := (st, .success [])
  cost _ _ _ := .ok ⟨0, 0, 1, 0, 0⟩
  systemCost _ _ := ⟨0, 0, 1, 0, 0⟩
  applySystemTx st _ _ := .ok (st, [])
  addCost c c' := ⟨c.readTime + c'.readTime, c.computeTime + c'.computeTime,
    c.blockUsage + c'.blockUsage, c.bytesWritten + c'.bytesWritten, c.bytesChurned + c'.bytesChurned⟩
  blockLimits _ := ⟨10, 10, 10, 10, 10⟩
  normalize c limits :=
    if c.blockUsage ≤ limits.blockUsage then some ⟨0, 0, c.blockUsage, 0, 0⟩ else none
  prevalidatePostBlockUpdate _ _ _ := true
  postBlockUpdate st _ _ _ := .ok st
  applyPostBlockUpdate st _ _ _ := st
  deserializeState _ := none

theorem sampleExecution_lawful : sampleExecution.Lawful where
  wellFormed_time _ _ := rfl
  cost_dismissal h := h
  addCost_comm c c' := by simp [sampleExecution, Nat.add_comm]
  postBlockUpdate_ok h := (Except.ok.inj h).symm

def sampleBlock : List (SerdeTransaction sampleExecution) :=
  [.midnight (.standard (sampleTx [])), .system ()]

def sampleOnchain (tblock : Nat) : OnchainContext := ⟨tblock, 0, .fill 32 1, 80⟩

/-- In a block of second `100` the corrected time and the time of the block both are late enough. -/
theorem replay_agrees_iff_sample :
    ExecutionLibrary.AllVerifyAtBlockTime (some ⟨20, 1000⟩) (sampleOnchain 100) ⟨(), .zero⟩ sampleBlock ∧
      ∃ st, sampleExecution.replayPostBlockUpdate (sampleOnchain 100) ⟨(), ⟨0, 0, 2, 0, 0⟩⟩ = .ok st := by
  have hrun : sampleBlock.foldlM
      (sampleExecution.applyTransaction (some ⟨20, 1000⟩) (.ofOnchain (sampleOnchain 100))) ⟨(), .zero⟩ =
        .ok ⟨(), ⟨0, 0, 2, 0, 0⟩⟩ := rfl
  have hfinal : sampleExecution.finalize (.ofOnchain (sampleOnchain 100)) ⟨(), ⟨0, 0, 2, 0, 0⟩⟩ =
      some ⟨(), .zero⟩ := rfl
  have hroot : ∀ root ∈ some ([] : List UInt8), sampleVerifier.serializeKey ⟨(), .zero⟩ = .ok root := by
    simp [sampleVerifier]
  exact (ExecutionLibrary.replay_agrees_iff sampleExecution_lawful (by decide) ⟨(), none⟩ hrun hfinal
    hroot).mp ⟨[], ⟨(), some _⟩, rfl, rfl⟩

/-- The first transaction is well-formed from second `95` on. With a correction of `20` seconds the node
verifies it at second `100`, in a block of second `90`; the replay refuses the block. -/
theorem corrected_block_not_replayed :
    (sampleBlock.foldlM
        (sampleExecution.applyTransaction (some ⟨20, 1000⟩) (.ofOnchain (sampleOnchain 90)))
        ⟨(), .zero⟩ = .ok ⟨(), ⟨0, 0, 2, 0, 0⟩⟩) ∧
      sampleExecution.finalize (.ofOnchain (sampleOnchain 90)) ⟨(), ⟨0, 0, 2, 0, 0⟩⟩ =
        some ⟨(), .zero⟩ ∧
      sampleExecution.updateFromBlock sampleBlock (sampleOnchain 90) none none ⟨(), none⟩ =
        .error (.invalidTransaction 0) :=
  ⟨rfl, rfl, rfl⟩

end MidnightNode.Ledger
