import MidnightNode.Ledger.Replay

/-!
# The limits of a block

A block applies transactions to the ledger through the pallets: user transactions by `send_mn_transaction`
of `pallets/midnight`, system transactions by `pallets/midnight-system`. The pallet keeps the state key of
a ledger, the process the ledgers themselves; a call loads the ledger, applies the transaction with the
checks of ledger 9 (`versions/post_block_update/ledger_9.rs`), and stores the key of what it persisted.
`on_finalize` closes the block with an update that cannot fail on limits, since it cuts the costs off at
them (`clamp_and_normalize`).
-/

namespace MidnightNode.Ledger
open Fallible

/-! ## Costs -/

structure SyntheticCost.Within (cost limits : SyntheticCost) : Prop where
  readTime : cost.readTime ≤ limits.readTime
  computeTime : cost.computeTime ≤ limits.computeTime
  blockUsage : cost.blockUsage ≤ limits.blockUsage
  bytesWritten : cost.bytesWritten ≤ limits.bytesWritten
  bytesChurned : cost.bytesChurned ≤ limits.bytesChurned

/-- The cost that `clamp_and_normalize` goes on with. -/
def SyntheticCost.clamp (cost limits : SyntheticCost) : SyntheticCost :=
  ⟨min cost.readTime limits.readTime, min cost.computeTime limits.computeTime,
    min cost.blockUsage limits.blockUsage, min cost.bytesWritten limits.bytesWritten,
    min cost.bytesChurned limits.bytesChurned⟩

theorem SyntheticCost.Within.clamp_eq {cost : SyntheticCost} (h : cost.Within limits) :
    cost.clamp limits = cost := by
  rw [clamp, min_eq_left h.readTime, min_eq_left h.computeTime, min_eq_left h.blockUsage,
    min_eq_left h.bytesWritten, min_eq_left h.bytesChurned]

theorem BlockLedger.within_of_isBlockStart {LedgerState : Type} {ledger : BlockLedger LedgerState}
    (h : ledger.isBlockStart) (limits : SyntheticCost) : ledger.blockFullness.Within limits := by
  simp only [isBlockStart, SyntheticCost.isZero, Bool.and_eq_true, beq_iff_eq] at h
  obtain ⟨⟨⟨⟨hread, hcompute⟩, husage⟩, hwritten⟩, hchurned⟩ := h
  exact ⟨hread.trans_le (Nat.zero_le _), hcompute.trans_le (Nat.zero_le _),
    husage.trans_le (Nat.zero_le _), hwritten.trans_le (Nat.zero_le _), hchurned.trans_le (Nat.zero_le _)⟩

/-! ## A block -/

variable {host : VerifierHost}

structure SystemTxApi (lib : ExecutionLibrary host) where
  deserialize : List UInt8 → Option lib.SystemTransaction
  /-- `get_system_tx_type`; an unsupported type is an error. -/
  txType : lib.SystemTransaction → Except Nat String
  transactionHash : lib.SystemTransaction → Hash

structure SystemTransactionAppliedStateRoot where
  stateRoot : List UInt8
  txHash : Hash
  txType : String

structure BlockEnv where
  blockContext : BlockContext
  consensus : ConsensusContext
  runtimeVersion : UInt32
  tblockCorrection : Option TBlockCorrection

structure BlockState (host : VerifierHost) where
  stateKey : List UInt8
  node : Node host

inductive BlockCall
  | sendMnTransaction (midnightTx : List UInt8)
  | executeSystemTransaction (systemTx : List UInt8)

namespace BlockState

def getLedger (s : BlockState host) : Except LedgerApiError (BlockLedger host.LedgerState) :=
  Ledger.getLedger host s.node.arena s.stateKey

def persist (s : BlockState host) (stateRoot : List UInt8) (ledger : BlockLedger host.LedgerState) :
    BlockState host :=
  ⟨stateRoot, { s.node with arena := s.node.arena.insert stateRoot ledger }⟩

def sendMnTransaction (env : BlockEnv) (s : BlockState host) (midnightTx : List UInt8) :
    Except LedgerApiError TransactionAppliedStateRoot × BlockState host :=
  match verifyAndApply (decodeTransaction host) ⟨s.stateKey, midnightTx, env.blockContext, env.consensus,
    env.runtimeVersion, env.tblockCorrection⟩ true s.node with
  | (.error e, node) => (.error e, { s with node })
  | (.ok event, node) => (.ok event, ⟨event.stateRoot, node⟩)

variable {lib : ExecutionLibrary host} (api : SystemTxApi lib) (env : BlockEnv) (s : BlockState host)

/-- `apply_system_transaction` of the bridge: the event, and the ledger that is persisted. -/
def applySystemTransaction (txSerialized : List UInt8) :
    Except LedgerApiError (SystemTransactionAppliedStateRoot × BlockLedger host.LedgerState) := do
  let tx ← okOr (.deserialization .systemTransaction) (api.deserialize txSerialized)
  let txType ← (api.txType tx).mapError LedgerApiError.transaction
  let ledger ← s.getLedger
  let newLedger ← lib.applySystemTxTo ledger tx env.blockContext.tblock
  let stateRoot ← host.serializeKey newLedger
  pure (⟨stateRoot, api.transactionHash tx, txType⟩, newLedger)

def executeSystemTransaction (systemTx : List UInt8) :
    Except LedgerApiError SystemTransactionAppliedStateRoot × BlockState host :=
  match s.applySystemTransaction api env systemTx with
  | .error e => (.error e, s)
  | .ok (event, ledger) => (.ok event, s.persist event.stateRoot ledger)

/-- One call, and whether it succeeded. -/
def call : BlockCall → Except LedgerApiError Unit × BlockState host
  | .sendMnTransaction tx => (s.sendMnTransaction env tx).map (·.map fun _ => ()) id
  | .executeSystemTransaction tx => (s.executeSystemTransaction api env tx).map (·.map fun _ => ()) id

def run (calls : List BlockCall) : BlockState host :=
  calls.foldl (fun s c => (s.call api env c).2) s

/-- The hook at the end of a block; none is a panic. -/
def onFinalize (lib : ExecutionLibrary host) (env : BlockEnv) (s : BlockState host) :
    Option (BlockState host) := do
  let ledger ← s.getLedger.toOption
  let final ← lib.finalize env.blockContext ledger
  let stateRoot ← (host.serializeKey final).toOption
  pure (s.persist stateRoot final)

end BlockState

/-! ## What a call does -/

/-- What is known of the library: a cost can be normalised exactly when it is within the limits, user
transactions leave the parameters alone, and keys of ledgers can be read. The bridge applies user
transactions as in the node. -/
structure ExecutionLibrary.Metered (lib : ExecutionLibrary host) : Prop where
  normalize_isSome_iff : ∀ cost limits, (lib.normalize cost limits).isSome ↔ cost.Within limits
  apply_blockLimits : ∀ st verified ctx,
    lib.blockLimits (lib.apply st verified ctx).1 = lib.blockLimits st
  serializeKey_typed : ∀ {ledger key}, host.serializeKey ledger = .ok key → host.isTypedArenaKey key
  applyVerifiedTransaction_eq : host.applyVerifiedTransaction = lib.applyVerifiedTransaction

/-- The ledger is within the limits of its own parameters. -/
def BlockLedger.WithinLimits (lib : ExecutionLibrary host) (ledger : BlockLedger host.LedgerState) : Prop :=
  ledger.blockFullness.Within (lib.blockLimits ledger.state)

variable {lib : ExecutionLibrary host} {env : BlockEnv} {s s' : BlockState host}

namespace ExecutionLibrary.Metered

theorem within_of_prevalidate (hlib : lib.Metered) {cost : SyntheticCost}
    (h : lib.prevalidate st cost limits = .ok ()) : cost.Within limits := by
  rw [← hlib.normalize_isSome_iff]
  rw [prevalidate] at h
  split at h
  case h_1 => cases h
  case h_2 n hn => exact Option.isSome_of_eq_some hn

theorem withinLimits_of_applyVerifiedTransaction (hlib : lib.Metered)
    {ledger' : BlockLedger host.LedgerState}
    (h : lib.applyVerifiedTransaction ledger tx verified ctx = .ok (ledger', stage)) :
    ledger'.WithinLimits lib := by
  obtain ⟨cost, -, hchecked⟩ := of_bind h
  obtain ⟨⟨⟩, hwithin, hresult⟩ := of_bind hchecked
  replace hwithin := hlib.within_of_prevalidate hwithin
  rw [← hlib.apply_blockLimits ledger.state verified ctx] at hwithin
  split at hresult
  case h_1 state events heq =>
    cases hresult
    rwa [heq] at hwithin
  case h_2 state segments events heq =>
    cases hresult
    rwa [heq] at hwithin
  case h_3 => cases hresult

theorem withinLimits_of_applySystemTxTo (hlib : lib.Metered)
    (h : lib.applySystemTxTo ledger tx tblock = .ok ledger') : ledger'.WithinLimits lib := by
  obtain ⟨⟨state, events⟩, -, hchecked⟩ := of_bind h
  obtain ⟨⟨⟩, hwithin, hresult⟩ := of_bind hchecked
  cases hresult
  exact hlib.within_of_prevalidate hwithin

end ExecutionLibrary.Metered

theorem applyTransaction_persisted {host : LedgerHost} {newLedger : host.State}
    (h : applyTransaction host stateKey txSerialized skip = .ok (event, newLedger)) :
    ∃ tx ledger stage, host.getLedger stateKey = .ok ledger ∧
      host.applyVerifiedTransaction ledger tx = .ok (newLedger, stage) ∧
      host.serializeKey newLedger = .ok event.stateRoot := by
  obtain ⟨tx, -, h1⟩ := of_bind h
  obtain ⟨ledger, hledger, h2⟩ := of_bind h1
  obtain ⟨⟨ledger', stage⟩, happly, h3⟩ := of_bind h2
  obtain ⟨⟨outputs, inputs⟩, -, h4⟩ := of_bind h3
  obtain ⟨stateRoot, hkey, h5⟩ := of_bind h4
  obtain ⟨event', hpush, h6⟩ := of_bind h5
  cases h6
  have hroot : event.stateRoot = stateRoot :=
    congrArg TransactionAppliedStateRoot.stateRoot (pushOperations_spec hpush).2
  exact ⟨tx, ledger, stage, hledger, happly, hroot ▸ hkey⟩

/-- What a call can do: fail and leave the key and the ledgers alone, or persist a ledger within its
limits under the key it stores. -/
inductive Called (lib : ExecutionLibrary host) (s : BlockState host) :
    Except LedgerApiError Unit → BlockState host → Prop
  | failed {e s'} (hkey : s'.stateKey = s.stateKey) (harena : s'.node.arena = s.node.arena) :
    Called lib s (.error e) s'
  | applied {ledger s'} (hwithin : ledger.WithinLimits lib)
    (hkey : host.serializeKey ledger = .ok s'.stateKey)
    (harena : s'.node.arena = s.node.arena.insert s'.stateKey ledger) : Called lib s (.ok ()) s'

theorem sendMnTransaction_called (hlib : lib.Metered) (env : BlockEnv) (s : BlockState host)
    (midnightTx : List UInt8) :
    Called lib s ((s.sendMnTransaction env midnightTx).1.map fun _ => ())
      (s.sendMnTransaction env midnightTx).2 := by
  rw [BlockState.sendMnTransaction, verifyAndApply]
  cases decodeTransaction host env.consensus midnightTx with
  | error e => exact .failed rfl rfl
  | ok tx =>
    cases Ledger.getLedger host s.node.arena s.stateKey with
    | error e => exact .failed rfl rfl
    | ok ledger =>
      dsimp only
      -- the caches may have changed from here on
      cases getVerifiedTransaction ledger tx env.blockContext _ env.tblockCorrection s.node.caches with
      | mk verified caches =>
        cases verified with
        | error e => exact .failed rfl rfl
        | ok verified =>
          cases ledger.getTransactionContext env.blockContext with
          | error e => exact .failed rfl rfl
          | ok txCtx =>
            dsimp only
            cases happly : applyTransaction (host.ledgerHost tx ledger verified txCtx) s.stateKey
                midnightTx true with
            | error e => exact .failed rfl rfl
            | ok x =>
              obtain ⟨tx', ledger', stage, -, happlied, hkey⟩ := applyTransaction_persisted happly
              have happlied : lib.applyVerifiedTransaction ledger' tx' verified txCtx = .ok (x.2, stage) :=
                hlib.applyVerifiedTransaction_eq ▸ happlied
              exact .applied (hlib.withinLimits_of_applyVerifiedTransaction happlied) hkey rfl

theorem executeSystemTransaction_called (hlib : lib.Metered) (api : SystemTxApi lib) (env : BlockEnv)
    (s : BlockState host) (systemTx : List UInt8) :
    Called lib s ((s.executeSystemTransaction api env systemTx).1.map fun _ => ())
      (s.executeSystemTransaction api env systemTx).2 := by
  rw [BlockState.executeSystemTransaction]
  cases h : s.applySystemTransaction api env systemTx with
  | error e => exact .failed rfl rfl
  | ok x =>
    obtain ⟨tx, -, h1⟩ := of_bind h
    obtain ⟨txType, -, h2⟩ := of_bind h1
    obtain ⟨ledger, -, h3⟩ := of_bind h2
    obtain ⟨newLedger, happly, h4⟩ := of_bind h3
    obtain ⟨stateRoot, hkey, h5⟩ := of_bind h4
    cases h5
    exact .applied (hlib.withinLimits_of_applySystemTxTo happly) hkey rfl

theorem call_called (hlib : lib.Metered) (api : SystemTxApi lib) (env : BlockEnv) (s : BlockState host)
    (c : BlockCall) : Called lib s (s.call api env c).1 (s.call api env c).2 := by
  cases c with
  | sendMnTransaction tx => exact sendMnTransaction_called hlib env s tx
  | executeSystemTransaction tx => exact executeSystemTransaction_called hlib api env s tx

/-! ## The invariant -/

/-- The key leads to a ledger within its limits. -/
def BlockState.WithinLimits (lib : ExecutionLibrary host) (s : BlockState host) : Prop :=
  ∃ ledger, s.getLedger = .ok ledger ∧ ledger.WithinLimits lib

theorem Called.getLedger_eq (h : Called lib s (.error e) s') : s'.getLedger = s.getLedger := by
  cases h with
  | failed hkey harena => rw [BlockState.getLedger, BlockState.getLedger, hkey, harena]

theorem Called.withinLimits (h : Called lib s result s') (hlib : lib.Metered) (hs : s.WithinLimits lib) :
    s'.WithinLimits lib := by
  cases h with
  | failed hkey harena =>
    obtain ⟨ledger, hledger, hwithin⟩ := hs
    exact ⟨ledger, by rwa [BlockState.getLedger, hkey, harena], hwithin⟩
  | applied hwithin hkey harena =>
    refine ⟨_, ?_, hwithin⟩
    rw [BlockState.getLedger, Ledger.getLedger, if_pos (hlib.serializeKey_typed hkey), harena,
      AList.lookup_insert]

theorem BlockState.WithinLimits.run (hlib : lib.Metered) (api : SystemTxApi lib) (env : BlockEnv)
    (calls : List BlockCall) (hs : s.WithinLimits lib) : (s.run api env calls).WithinLimits lib := by
  induction calls generalizing s with
  | nil => exact hs
  | cons c calls ih => exact ih ((call_called hlib api env s c).withinLimits hlib hs)

/-- Within the limits, the costs that the update is made with are those of the block. -/
theorem finalize_of_withinLimits (hlib : lib.Metered) (h : ledger.WithinLimits lib) (ctx : BlockContext) :
    ∃ n, lib.normalize ledger.blockFullness (lib.blockLimits ledger.state) = some n ∧
      lib.finalize ctx ledger =
        some ⟨lib.applyPostBlockUpdate ledger.state ctx.tblock n (computeOverallFullness n), .zero⟩ := by
  obtain ⟨n, hn⟩ := Option.isSome_iff_exists.mp ((hlib.normalize_isSome_iff _ _).mpr h)
  have hclamp : lib.clampAndNormalize ledger.blockFullness (lib.blockLimits ledger.state) = some n := by
    change lib.normalize (ledger.blockFullness.clamp (lib.blockLimits ledger.state)) _ = some n
    rw [h.clamp_eq, hn]
  refine ⟨n, hn, ?_⟩
  rw [ExecutionLibrary.finalize, hclamp]
  rfl

/-- From the start of a block on, after any calls, successful or not: the block is within the limits in
force in every dimension; a call that fails leaves the ledger and what the block has accrued as they
were; and the update at the end has nothing to cut off, and fails only if the key of the ledger it leads
to cannot be written. -/
theorem block_within_limits {host : VerifierHost} {lib : ExecutionLibrary host} (hlib : lib.Metered)
    (api : SystemTxApi lib) (env : BlockEnv) (start : BlockState host)
    {ledger₀ : BlockLedger host.LedgerState} (hledger : start.getLedger = .ok ledger₀)
    (hstart : ledger₀.isBlockStart) (calls : List BlockCall) :
    let s := start.run api env calls
    (∀ c e, (s.call api env c).1 = .error e → (s.call api env c).2.getLedger = s.getLedger) ∧
      ∃ ledger, s.getLedger = .ok ledger ∧
        ledger.blockFullness.Within (lib.blockLimits ledger.state) ∧
        ledger.blockFullness.clamp (lib.blockLimits ledger.state) = ledger.blockFullness ∧
        ∃ n, lib.normalize ledger.blockFullness (lib.blockLimits ledger.state) = some n ∧
          let final : BlockLedger host.LedgerState :=
            ⟨lib.applyPostBlockUpdate ledger.state env.blockContext.tblock n (computeOverallFullness n),
              .zero⟩
          s.onFinalize lib env = (host.serializeKey final).toOption.map (s.persist · final) := by
  intro s
  have hs : s.WithinLimits lib :=
    BlockState.WithinLimits.run hlib api env calls ⟨ledger₀, hledger, ledger₀.within_of_isBlockStart hstart _⟩
  obtain ⟨ledger, hledger, hwithin⟩ := hs
  obtain ⟨n, hn, hfinalize⟩ := finalize_of_withinLimits hlib hwithin env.blockContext
  refine ⟨fun c e hfailed => ?_, ledger, hledger, hwithin, hwithin.clamp_eq, n, hn, ?_⟩
  · exact Called.getLedger_eq (hfailed ▸ call_called hlib api env s c)
  · rw [BlockState.onFinalize, hledger]
    simp only [Except.toOption, bind, Option.bind, hfinalize]
    cases host.serializeKey _ <;> rfl

/-! ## A block that lowers its limits -/

/-- A host whose ledger state is the limit of block space. -/
def limitHost (apply : BlockLedger Nat → Transaction → Unit → TransactionContext Nat →
    Except LedgerApiError (BlockLedger Nat × AppliedStage)) : VerifierHost where
  LedgerState := Nat
  VerifiedTransaction := Unit
  TransactionDetails := Unit
  versionedDeserialize _ := some (.standard (sampleTx []), false)
  isTypedArenaKey _ := true
  twox128 bytes := .fill 16 (bytes.getLast?.getD 0)
  stateHash _ := .fill 32 0
  wellFormed _ _ _ := .ok ()
  validateGuaranteedExecution _ _ _ := .ok ()
  applyVerifiedTransaction := apply
  cost _ _ := some ⟨0, 0, 0, 0, 0⟩
  normalize _ _ := some ⟨0, 0, 0, 0, 0⟩
  intoAtomicUnits _ _ := 0
  getTransactionDetails _ _ := .ok ()
  utxos _ := []
  transactionHash _ := .fill 32 0
  serializeKey _ := .ok []
  serializeAddress a := .ok a.data
  orderingOverride _ := none

instance instDecidableWithin (cost limits : SyntheticCost) : Decidable (cost.Within limits) :=
  decidable_of_iff (cost.readTime ≤ limits.readTime ∧ cost.computeTime ≤ limits.computeTime ∧
      cost.blockUsage ≤ limits.blockUsage ∧ cost.bytesWritten ≤ limits.bytesWritten ∧
      cost.bytesChurned ≤ limits.bytesChurned)
    ⟨fun ⟨h1, h2, h3, h4, h5⟩ => ⟨h1, h2, h3, h4, h5⟩, fun ⟨h1, h2, h3, h4, h5⟩ => ⟨h1, h2, h3, h4, h5⟩⟩

/-- Every transaction costs one unit of block space, and a system transaction sets the limit. -/
def limitLibrary (apply : BlockLedger Nat → Transaction → Unit → TransactionContext Nat →
    Except LedgerApiError (BlockLedger Nat × AppliedStage)) : ExecutionLibrary (limitHost apply) where
  SystemTransaction := Nat
  Event := Unit
  wellFormedUnbalanced _ _ _ := .ok ()
  apply st _ _ := (st, .success [])
  cost _ _ _ := .ok ⟨0, 0, 1, 0, 0⟩
  systemCost _ _ := ⟨0, 0, 1, 0, 0⟩
  applySystemTx _ limit _ := .ok (limit, [])
  addCost c c' := ⟨0, 0, c.blockUsage + c'.blockUsage, 0, 0⟩
  blockLimits limit := ⟨10, 10, limit, 10, 10⟩
  normalize cost limits := if cost.Within limits then some ⟨0, 0, cost.blockUsage, 0, 0⟩ else none
  prevalidatePostBlockUpdate _ _ _ := true
  postBlockUpdate st _ _ _ := .ok st
  applyPostBlockUpdate st _ _ _ := st
  deserializeState _ := none

/-- A node that applies transactions with this library. -/
abbrev sampleLimitLibrary : ExecutionLibrary (limitHost
    (limitLibrary fun _ _ _ _ => .error .hostApiError).applyVerifiedTransaction) :=
  limitLibrary _

theorem sampleLimitLibrary_metered : sampleLimitLibrary.Metered where
  normalize_isSome_iff cost limits := by
    simp [sampleLimitLibrary, limitLibrary]
  apply_blockLimits _ _ _ := rfl
  serializeKey_typed _ := rfl
  applyVerifiedTransaction_eq := rfl

/-- The limit is the first byte of a system transaction. -/
def sampleSystemTxApi : SystemTxApi sampleLimitLibrary where
  deserialize bytes := bytes.head?.map UInt8.toNat
  txType _ := .ok "overwrite_parameters"
  transactionHash _ := .fill 32 0

def sampleEnv : BlockEnv := ⟨⟨100, 0, List.replicate 32 0, 80⟩, ⟨10, 10⟩, 1, none⟩

/-- A ledger with the limit `5`, at the start of a block. -/
def sampleBlockState : BlockState (limitHost
    (limitLibrary fun _ _ _ _ => .error .hostApiError).applyVerifiedTransaction) :=
  ⟨[], { arena := (∅ : AList _).insert [] ⟨(5 : Nat), ⟨0, 0, 0, 0, 0⟩⟩, caches := ⟨∅, ∅⟩ }⟩

/-- Two user transactions, a limit of `2` that comes too late and one of `3`, and a transaction for which
there is no space any more. -/
theorem block_within_limits_lowered :
    let s := sampleBlockState.run sampleSystemTxApi sampleEnv [.sendMnTransaction [1],
      .sendMnTransaction [2], .executeSystemTransaction [2], .executeSystemTransaction [3],
      .sendMnTransaction [3]]
    s.getLedger = .ok ⟨(3 : Nat), ⟨0, 0, 3, 0, 0⟩⟩ ∧
      ∃ ledger, s.getLedger = .ok ledger ∧
        ledger.blockFullness.Within (sampleLimitLibrary.blockLimits ledger.state) := by
  refine ⟨rfl, ?_⟩
  obtain ⟨-, ledger, hledger, hwithin, -⟩ := block_within_limits sampleLimitLibrary_metered
    sampleSystemTxApi sampleEnv sampleBlockState rfl rfl [.sendMnTransaction [1], .sendMnTransaction [2],
      .executeSystemTransaction [2], .executeSystemTransaction [3], .sendMnTransaction [3]]
  exact ⟨ledger, hledger, hwithin⟩

end MidnightNode.Ledger
