import MidnightNode.Bridge.Observation
import MidnightNode.Ledger.Errors
import MidnightNode.Lib.MachineInts

/-!
# The Cardano-to-Midnight bridge pallet

`pallets/c2m-bridge`, the handler of the transfers that `pallet-partner-chains-bridge` delivers. A
transfer below the minimum of the ledger is added to an accumulator, which is flushed to the treasury
when it exceeds a threshold. All other transfers become a system transaction each: for the reserve, for
the recipient if governance has approved the Cardano transaction, for the treasury otherwise.

Building and executing a system transaction can fail; the handler then only writes a line to the log.
The answers of the ledger come with each transfer (`LedgerAnswers`), so nothing is assumed about them.
`State` has the storage of both pallets, the deposited events, and the log of the system transactions.
-/

namespace MidnightNode.C2MBridge
open Bridge Ledger

abbrev MidnightTxHash := Bytes 32
abbrev BridgeRecipient := List UInt8
abbrev Transfer := BridgeTransferV1 BridgeRecipient

def maxApprovalsPerBatch : Nat := 32

inductive SystemTx
  | unlockToTreasury (amount : Nat)
  | distributeReserve (amount : Nat)
  | distributeNightCardanoBridge (amount : Nat) (recipient : BridgeRecipient) (nonce : Bytes 32)
deriving DecidableEq

def SystemTx.amount : SystemTx → Nat
  | .unlockToTreasury amount | .distributeReserve amount
  | .distributeNightCardanoBridge amount _ _ => amount

inductive Event
  | userTransfer (mcTxHash : McTxHash) (amount : Nat) (recipient : BridgeRecipient)
      (midnightTxHash : MidnightTxHash)
  | reserveTransfer (mcTxHash : McTxHash) (amount : Nat) (midnightTxHash : MidnightTxHash)
  | invalidTransfer (mcTxHash : McTxHash) (amount : Nat) (midnightTxHash : MidnightTxHash)
  | unapprovedTransfer (mcTxHash : McTxHash) (amount : Nat) (recipient : BridgeRecipient)
      (midnightTxHash : MidnightTxHash)
  | subminimalFlushTransfer (amount count : Nat) (midnightTxHash : MidnightTxHash)
deriving DecidableEq

structure SubminimalTransfersState where
  count : Nat
  sum : Nat
deriving DecidableEq

inductive Description
  | flush
  | transfer (mcTxHash : McTxHash)
deriving DecidableEq

structure LogLine where
  description : Description
  tx : SystemTx
  executed : Bool
deriving DecidableEq

structure LedgerAnswers where
  minAmount : Except LedgerApiError Nat
  construct : SystemTx → Except LedgerApiError (List UInt8)
  execute : List UInt8 → Except Nat MidnightTxHash

structure Config where
  Origin : Type
  isNone : Origin → Bool
  isGovernance : Origin → Bool
  maxTransfersPerBlock : UInt32
  blake2_256 : List UInt8 → Bytes 32

structure State where
  parentHash : Bytes 32
  flushThreshold : Nat
  subminimalTransfers : SubminimalTransfersState
  transferCounter : UInt32
  approvedMcTxHashes : Finset McTxHash
  inherentExecutedThisBlock : Bool
  dataCheckpoint : Option BridgeDataCheckpoint
  events : List Event
  log : List LogLine
deriving DecidableEq

def approveAll (approved : Finset McTxHash) (hashes : List McTxHash) : Finset McTxHash :=
  hashes.foldl (fun approved hash => insert hash approved) approved

def genesisBuild (flushThreshold : Nat) (approvedTxs : List McTxHash) : State :=
  { parentHash := .fill 32 0
    flushThreshold
    subminimalTransfers := ⟨0, 0⟩
    transferCounter := 0
    approvedMcTxHashes := approveAll ∅ approvedTxs
    inherentExecutedThisBlock := false
    dataCheckpoint := none
    events := []
    log := [] }

/-! ## The handler -/

def LedgerAnswers.succeeds (answers : LedgerAnswers) (tx : SystemTx) : Bool :=
  match answers.construct tx with
  | .ok serializedTx => (answers.execute serializedTx).isOk
  | .error _ => false

def executeSerializedTx (answers : LedgerAnswers) (tx : SystemTx) (makeEvent : MidnightTxHash → Event)
    (description : Description) (s : State) : State :=
  match answers.construct tx with
  | .ok serializedTx =>
    match answers.execute serializedTx with
    | .ok txHash =>
      { s with events := s.events ++ [makeEvent txHash], log := s.log ++ [⟨description, tx, true⟩] }
    | .error _ => { s with log := s.log ++ [⟨description, tx, false⟩] }
  | .error _ => { s with log := s.log ++ [⟨description, tx, false⟩] }

def handleSubminimalTransfer (answers : LedgerAnswers) (transfer : Transfer) (s : State) : State :=
  let sum := min (s.subminimalTransfers.sum + transfer.amount) u64Max
  let count := min (s.subminimalTransfers.count + 1) u32Max
  if sum > s.flushThreshold then
    let s := executeSerializedTx answers (.unlockToTreasury sum) (.subminimalFlushTransfer sum count)
      .flush s
    { s with subminimalTransfers := ⟨0, 0⟩ }
  else { s with subminimalTransfers := ⟨count, sum⟩ }

/-- What the nonce of a transfer is the hash of. -/
def noncePreimage (parentHash : Bytes 32) (counter : UInt32) : List UInt8 :=
  "midnight:bridge-transfer-nonce:".toUTF8.toList ++ parentHash.data ++ leBytes counter

def generateNonce (cfg : Config) (s : State) : Bytes 32 × State :=
  (cfg.blake2_256 (noncePreimage s.parentHash s.transferCounter),
    { s with transferCounter := s.transferCounter + 1 })

def handleInvalidTransfer (answers : LedgerAnswers) (mcTxHash : McTxHash) (amount : Nat) (s : State) :
    State :=
  executeSerializedTx answers (.unlockToTreasury amount) (.invalidTransfer mcTxHash amount)
    (.transfer mcTxHash) s

def handleReserveTransfer (answers : LedgerAnswers) (mcTxHash : McTxHash) (amount : Nat) (s : State) :
    State :=
  executeSerializedTx answers (.distributeReserve amount) (.reserveTransfer mcTxHash amount)
    (.transfer mcTxHash) s

def handleUserTransfer (cfg : Config) (answers : LedgerAnswers) (mcTxHash : McTxHash) (amount : Nat)
    (recipient : BridgeRecipient) (s : State) : State :=
  if mcTxHash ∈ s.approvedMcTxHashes then
    -- the approval is taken before the ledger is called
    let s := { s with approvedMcTxHashes := s.approvedMcTxHashes.erase mcTxHash }
    let (nonce, s) := generateNonce cfg s
    executeSerializedTx answers (.distributeNightCardanoBridge amount recipient nonce)
      (.userTransfer mcTxHash amount recipient) (.transfer mcTxHash) s
  else
    executeSerializedTx answers (.unlockToTreasury amount)
      (.unapprovedTransfer mcTxHash amount recipient) (.transfer mcTxHash) s

def handleRegularTransfer (cfg : Config) (answers : LedgerAnswers) (transfer : Transfer) (s : State) :
    State :=
  match transfer.recipient with
  | .invalid => handleInvalidTransfer answers transfer.mcTxHash transfer.amount s
  | .reserve => handleReserveTransfer answers transfer.mcTxHash transfer.amount s
  | .address recipient =>
    handleUserTransfer cfg answers transfer.mcTxHash transfer.amount recipient s

/-- The transfer is below the minimum the ledger has given. -/
def isSubminimal (answers : LedgerAnswers) (transfer : Transfer) : Bool :=
  match answers.minAmount with
  | .ok minAmount => decide (transfer.amount < minAmount)
  -- if the minimum cannot be read, no transfer is subminimal
  | .error _ => false

def handleIncomingTransfer (cfg : Config) (answers : LedgerAnswers) (transfer : Transfer) (s : State) :
    State :=
  if isSubminimal answers transfer then handleSubminimalTransfer answers transfer s
  else handleRegularTransfer cfg answers transfer s

/-! ## Calls and blocks -/

inductive CallError
  | badOrigin
  | inherentAlreadyExecuted
deriving DecidableEq

/-- `handle_transfers` of `pallet-partner-chains-bridge`; each transfer comes with the answers of the
ledger. -/
def handleTransfers (cfg : Config) (origin : cfg.Origin) (transfers : List (LedgerAnswers × Transfer))
    (dataCheckpoint : BridgeDataCheckpoint) (s : State) : Except CallError State := do
  if !cfg.isNone origin then
    throw .badOrigin
  if s.inherentExecutedThisBlock then
    throw .inherentAlreadyExecuted
  let s := { s with inherentExecutedThisBlock := true }
  let s := transfers.foldl (fun s (answers, transfer) => handleIncomingTransfer cfg answers transfer s) s
  pure { s with dataCheckpoint := some dataCheckpoint }

def setSubminimalTransfersConfig (cfg : Config) (origin : cfg.Origin) (flushThreshold : Nat)
    (s : State) : Except CallError State := do
  if !cfg.isGovernance origin then
    throw .badOrigin
  pure { s with flushThreshold }

def addApprovedMcTxHashes (cfg : Config) (origin : cfg.Origin) (hashes : List McTxHash) (s : State) :
    Except CallError State := do
  if !cfg.isGovernance origin then
    throw .badOrigin
  pure { s with approvedMcTxHashes := approveAll s.approvedMcTxHashes hashes }

/-- A call, with the bounds of its argument types. -/
inductive Call (cfg : Config)
  | handleTransfers (origin : cfg.Origin) (transfers : List (LedgerAnswers × Transfer))
      (length_le : transfers.length ≤ cfg.maxTransfersPerBlock.toNat)
      (dataCheckpoint : BridgeDataCheckpoint)
  | setSubminimalTransfersConfig (origin : cfg.Origin) (flushThreshold : Nat)
  | addApprovedMcTxHashes (origin : cfg.Origin) (hashes : List McTxHash)
      (length_le : hashes.length ≤ maxApprovalsPerBatch)

def Call.dispatch {cfg : Config} (s : State) : Call cfg → Except CallError State
  | .handleTransfers origin transfers _ dataCheckpoint =>
    C2MBridge.handleTransfers cfg origin transfers dataCheckpoint s
  | .setSubminimalTransfersConfig origin flushThreshold =>
    C2MBridge.setSubminimalTransfersConfig cfg origin flushThreshold s
  | .addApprovedMcTxHashes origin hashes _ => C2MBridge.addApprovedMcTxHashes cfg origin hashes s

/-- A step of the chain. -/
inductive Step (cfg : Config)
  | onInitialize (parentHash : Bytes 32)
  | call (c : Call cfg)
  | onFinalize

def Step.run {cfg : Config} (s : State) : Step cfg → State
  | .onInitialize parentHash => { s with parentHash }
  | .call c =>
    match c.dispatch s with
    | .ok s' => s'
    | .error _ => s
  | .onFinalize => { s with transferCounter := 0, inherentExecutedThisBlock := false }

def run {cfg : Config} (s : State) (steps : List (Step cfg)) : State := steps.foldl Step.run s

structure Block (cfg : Config) where
  parentHash : Bytes 32
  calls : List (Call cfg)

def Block.steps {cfg : Config} (b : Block cfg) : List (Step cfg) :=
  .onInitialize b.parentHash :: b.calls.map .call ++ [.onFinalize]

/-! ## The transfers of a run -/

structure Handling where
  before : State
  answers : LedgerAnswers
  transfer : Transfer

def handleAll (cfg : Config) (s : State) (transfers : List (LedgerAnswers × Transfer)) : State :=
  transfers.foldl (fun s (answers, transfer) => handleIncomingTransfer cfg answers transfer s) s

def handlings (cfg : Config) : State → List (LedgerAnswers × Transfer) → List Handling
  | _, [] => []
  | s, (answers, transfer) :: transfers =>
    ⟨s, answers, transfer⟩ :: handlings cfg (handleIncomingTransfer cfg answers transfer s) transfers

/-- The transfers a step hands to the handler: those of an accepted `handle_transfers`. -/
def Step.handlings {cfg : Config} (s : State) : Step cfg → List Handling
  | .call (.handleTransfers origin transfers _ dataCheckpoint) =>
    match C2MBridge.handleTransfers cfg origin transfers dataCheckpoint s with
    | .ok _ => C2MBridge.handlings cfg { s with inherentExecutedThisBlock := true } transfers
    | .error _ => []
  | _ => []

def runHandlings {cfg : Config} : State → List (Step cfg) → List Handling
  | _, [] => []
  | s, step :: steps => step.handlings s ++ runHandlings (step.run s) steps

/-! ## What handling a transfer does -/

section

variable {cfg : Config} {answers : LedgerAnswers} {transfer : Transfer} {s : State}

theorem executeSerializedTx_eq (answers : LedgerAnswers) (tx : SystemTx)
    (makeEvent : MidnightTxHash → Event) (description : Description) (s : State) :
    ∃ events, executeSerializedTx answers tx makeEvent description s =
      { s with events, log := s.log ++ [⟨description, tx, answers.succeeds tx⟩] } := by
  unfold executeSerializedTx LedgerAnswers.succeeds
  cases answers.construct tx with
  | error e => exact ⟨s.events, rfl⟩
  | ok serializedTx =>
    simp only
    cases answers.execute serializedTx with
    | error e => exact ⟨s.events, rfl⟩
    | ok txHash => exact ⟨_, rfl⟩

/-- The accumulated sum with a transfer. -/
def State.accumulated (s : State) (transfer : Transfer) : Nat :=
  min (s.subminimalTransfers.sum + transfer.amount) u64Max

/-- The nonce of the next transfer to a user. -/
def State.nextNonce (cfg : Config) (s : State) : Bytes 32 :=
  cfg.blake2_256 (noncePreimage s.parentHash s.transferCounter)

/-- The state after a transfer: it was accumulated, it caused a flush, it was credited to its recipient,
or it went elsewhere. -/
inductive Handled (cfg : Config) (answers : LedgerAnswers) (transfer : Transfer) (s : State) :
    State → Prop
  | accumulated (count : Nat) (hsub : isSubminimal answers transfer = true)
      (hle : s.accumulated transfer ≤ s.flushThreshold) :
      Handled cfg answers transfer s
        { s with subminimalTransfers := ⟨count, s.accumulated transfer⟩ }
  | flushed (events : List Event) (hsub : isSubminimal answers transfer = true)
      (hgt : s.flushThreshold < s.accumulated transfer) :
      Handled cfg answers transfer s
        { s with
          events, subminimalTransfers := ⟨0, 0⟩
          log := s.log ++ [⟨.flush, .unlockToTreasury (s.accumulated transfer),
            answers.succeeds (.unlockToTreasury (s.accumulated transfer))⟩] }
  | credited (events : List Event) (recipient : BridgeRecipient)
      (hsub : isSubminimal answers transfer = false) (hr : transfer.recipient = .address recipient)
      (happroved : transfer.mcTxHash ∈ s.approvedMcTxHashes) :
      Handled cfg answers transfer s
        { s with
          events, transferCounter := s.transferCounter + 1
          approvedMcTxHashes := s.approvedMcTxHashes.erase transfer.mcTxHash
          log := s.log ++ [⟨.transfer transfer.mcTxHash,
            .distributeNightCardanoBridge transfer.amount recipient (s.nextNonce cfg),
            answers.succeeds
              (.distributeNightCardanoBridge transfer.amount recipient (s.nextNonce cfg))⟩] }
  | redirected (events : List Event) (tx : SystemTx) (hsub : isSubminimal answers transfer = false)
      (htx : tx = .unlockToTreasury transfer.amount ∨ tx = .distributeReserve transfer.amount) :
      Handled cfg answers transfer s
        { s with
          events, log := s.log ++ [⟨.transfer transfer.mcTxHash, tx, answers.succeeds tx⟩] }

/-- The ways in which a transfer can be handled. -/
theorem handleIncomingTransfer_handled :
    Handled cfg answers transfer s (handleIncomingTransfer cfg answers transfer s) := by
  unfold handleIncomingTransfer
  split
  case isTrue hsub =>
    unfold handleSubminimalTransfer
    simp only
    split
    case isTrue hgt =>
      obtain ⟨events, he⟩ := executeSerializedTx_eq answers (.unlockToTreasury (s.accumulated transfer))
        (.subminimalFlushTransfer (s.accumulated transfer)
          (min (s.subminimalTransfers.count + 1) u32Max)) .flush s
      rw [show min (s.subminimalTransfers.sum + transfer.amount) u64Max = s.accumulated transfer
        from rfl, he]
      exact .flushed events hsub hgt
    case isFalse hle => exact .accumulated _ hsub (not_lt.mp hle)
  case isFalse hsub =>
    have hsub : isSubminimal answers transfer = false := by simpa using hsub
    unfold handleRegularTransfer
    split
    case h_1 =>
      obtain ⟨events, he⟩ := executeSerializedTx_eq answers (.unlockToTreasury transfer.amount)
        (.invalidTransfer transfer.mcTxHash transfer.amount) (.transfer transfer.mcTxHash) s
      rw [handleInvalidTransfer, he]
      exact .redirected events _ hsub (.inl rfl)
    case h_2 =>
      obtain ⟨events, he⟩ := executeSerializedTx_eq answers (.distributeReserve transfer.amount)
        (.reserveTransfer transfer.mcTxHash transfer.amount) (.transfer transfer.mcTxHash) s
      rw [handleReserveTransfer, he]
      exact .redirected events _ hsub (.inr rfl)
    case h_3 recipient hr =>
      unfold handleUserTransfer
      split
      case isTrue happroved =>
        obtain ⟨events, he⟩ := executeSerializedTx_eq answers
          (.distributeNightCardanoBridge transfer.amount recipient (s.nextNonce cfg))
          (.userTransfer transfer.mcTxHash transfer.amount recipient) (.transfer transfer.mcTxHash)
          { s with
            approvedMcTxHashes := s.approvedMcTxHashes.erase transfer.mcTxHash
            transferCounter := s.transferCounter + 1 }
        simp only [generateNonce]
        rw [State.nextNonce] at he
        rw [he]
        exact .credited events recipient hsub hr happroved
      case isFalse =>
        obtain ⟨events, he⟩ := executeSerializedTx_eq answers (.unlockToTreasury transfer.amount)
          (.unapprovedTransfer transfer.mcTxHash transfer.amount recipient)
          (.transfer transfer.mcTxHash) s
        rw [he]
        exact .redirected events _ hsub (.inl rfl)

theorem handleTransfers_eq (cfg : Config) (origin : cfg.Origin)
    (transfers : List (LedgerAnswers × Transfer)) (dataCheckpoint : BridgeDataCheckpoint)
    (s : State) :
    handleTransfers cfg origin transfers dataCheckpoint s =
      if cfg.isNone origin = false then .error .badOrigin
      else if s.inherentExecutedThisBlock then .error .inherentAlreadyExecuted
      else .ok { handleAll cfg { s with inherentExecutedThisBlock := true } transfers with
        dataCheckpoint := some dataCheckpoint } := by
  unfold handleTransfers
  cases cfg.isNone origin <;> cases s.inherentExecutedThisBlock <;> rfl

theorem setSubminimalTransfersConfig_eq (cfg : Config) (origin : cfg.Origin) (flushThreshold : Nat)
    (s : State) :
    setSubminimalTransfersConfig cfg origin flushThreshold s =
      if cfg.isGovernance origin = false then .error .badOrigin else .ok { s with flushThreshold } := by
  unfold setSubminimalTransfersConfig
  cases cfg.isGovernance origin <;> rfl

theorem addApprovedMcTxHashes_eq (cfg : Config) (origin : cfg.Origin) (hashes : List McTxHash)
    (s : State) :
    addApprovedMcTxHashes cfg origin hashes s =
      if cfg.isGovernance origin = false then .error .badOrigin
      else .ok { s with approvedMcTxHashes := approveAll s.approvedMcTxHashes hashes } := by
  unfold addApprovedMcTxHashes
  cases cfg.isGovernance origin <;> rfl

/-- What a step does, with the transfers it hands to the handler. -/
inductive Step.Ran (s : State) : Step cfg → State → List Handling → Prop
  | onInitialize (parentHash : Bytes 32) : Ran s (.onInitialize parentHash) { s with parentHash } []
  | onFinalize :
      Ran s .onFinalize { s with transferCounter := 0, inherentExecutedThisBlock := false } []
  | failed (c : Call cfg) : Ran s (.call c) s []
  | configured (origin : cfg.Origin) (flushThreshold : Nat) :
      Ran s (.call (.setSubminimalTransfersConfig origin flushThreshold)) { s with flushThreshold } []
  | approved (origin : cfg.Origin) (hashes : List McTxHash)
      (hlen : hashes.length ≤ maxApprovalsPerBatch) :
      Ran s (.call (.addApprovedMcTxHashes origin hashes hlen))
        { s with approvedMcTxHashes := approveAll s.approvedMcTxHashes hashes } []
  | handled (origin : cfg.Origin) (transfers : List (LedgerAnswers × Transfer))
      (hlen : transfers.length ≤ cfg.maxTransfersPerBlock.toNat) (checkpoint : BridgeDataCheckpoint)
      (hfirst : s.inherentExecutedThisBlock = false) :
      Ran s (.call (.handleTransfers origin transfers hlen checkpoint))
        { handleAll cfg { s with inherentExecutedThisBlock := true } transfers with
          dataCheckpoint := some checkpoint }
        (C2MBridge.handlings cfg { s with inherentExecutedThisBlock := true } transfers)

theorem Step.ran (s : State) (step : Step cfg) : step.Ran s (step.run s) (step.handlings s) := by
  cases step with
  | onInitialize parentHash => exact .onInitialize parentHash
  | onFinalize => exact .onFinalize
  | call c =>
    cases c with
    | handleTransfers origin transfers hlen checkpoint =>
      rw [Step.run, Call.dispatch, Step.handlings, handleTransfers_eq]
      cases cfg.isNone origin with
      | false => exact .failed _
      | true =>
        cases hfirst : s.inherentExecutedThisBlock with
        | true => exact .failed _
        | false => exact .handled origin transfers hlen checkpoint hfirst
    | setSubminimalTransfersConfig origin flushThreshold =>
      rw [Step.run, Call.dispatch, setSubminimalTransfersConfig_eq]
      cases cfg.isGovernance origin with
      | false => exact .failed _
      | true => exact .configured origin flushThreshold
    | addApprovedMcTxHashes origin hashes hlen =>
      rw [Step.run, Call.dispatch, addApprovedMcTxHashes_eq]
      cases cfg.isGovernance origin with
      | false => exact .failed _
      | true => exact .approved origin hashes hlen

end

/-! ## Value -/

namespace LogLine

def executedAmount (line : LogLine) : Nat := if line.executed then line.tx.amount else 0

/-- The amount of a transfer whose own transaction failed. -/
def failedAmount (line : LogLine) : Nat :=
  if !line.executed && line.description != .flush then line.tx.amount else 0

/-- The amount of a flush that failed. -/
def lostAmount (line : LogLine) : Nat :=
  if !line.executed && line.description == .flush then line.tx.amount else 0

theorem amount_eq (line : LogLine) :
    line.executedAmount + line.failedAmount + line.lostAmount = line.tx.amount := by
  unfold executedAmount failedAmount lostAmount
  by_cases hd : line.description = .flush <;> cases line.executed <;> simp [hd]

end LogLine

namespace State

def executedAmount (s : State) : Nat := (s.log.map LogLine.executedAmount).sum

def failedAmount (s : State) : Nat := (s.log.map LogLine.failedAmount).sum

def lostAmount (s : State) : Nat := (s.log.map LogLine.lostAmount).sum

/-- All value the pallet knows of. -/
def totalAmount (s : State) : Nat :=
  s.executedAmount + s.failedAmount + s.lostAmount + s.subminimalTransfers.sum

end State

/-- If the transfer causes a flush, the transaction of the flush is executed. -/
def Handling.FlushSucceeds (h : Handling) : Prop :=
  isSubminimal h.answers h.transfer = true → h.before.flushThreshold < h.before.accumulated h.transfer →
    h.answers.succeeds (.unlockToTreasury (h.before.accumulated h.transfer)) = true

section

variable {cfg : Config} {answers : LedgerAnswers} {transfer : Transfer} {s s' : State}

theorem totalAmount_log (hlog : s'.log = s.log ++ [line]) :
    s'.totalAmount = s.executedAmount + s.failedAmount + s.lostAmount + line.tx.amount +
      s'.subminimalTransfers.sum := by
  have hline := line.amount_eq
  simp only [State.totalAmount, State.executedAmount, State.failedAmount, State.lostAmount, hlog,
    List.map_append, List.map_cons, List.map_nil, List.sum_append, List.sum_cons, List.sum_nil]
  omega

theorem lostAmount_log {P : Prop} (hlog : s'.log = s.log ++ [line]) (hline : line.lostAmount = 0 ↔ P) :
    s.lostAmount ≤ s'.lostAmount ∧ (s'.lostAmount = s.lostAmount ↔ P) := by
  have hlost : s'.lostAmount = s.lostAmount + line.lostAmount := by
    simp [State.lostAmount, hlog]
  rw [hlost, ← hline]
  omega

theorem Handled.totalAmount (h : Handled cfg answers transfer s s')
    (hfits : s.subminimalTransfers.sum + transfer.amount ≤ u64Max) :
    s'.totalAmount = s.totalAmount + transfer.amount := by
  have hacc : s.accumulated transfer = s.subminimalTransfers.sum + transfer.amount :=
    min_eq_left hfits
  cases h with
  | accumulated count hsub hle =>
    simp only [State.totalAmount, State.executedAmount, State.failedAmount, State.lostAmount, hacc]
    omega
  | flushed events hsub hgt =>
    refine (totalAmount_log rfl).trans ?_
    rw [SystemTx.amount, hacc, State.totalAmount]
    dsimp only
    omega
  | credited events recipient hsub hr happroved =>
    refine (totalAmount_log rfl).trans ?_
    rw [SystemTx.amount, State.totalAmount]
    dsimp only
    omega
  | redirected events tx hsub htx =>
    have hamount : tx.amount = transfer.amount := by
      rcases htx with rfl | rfl <;> rfl
    refine (totalAmount_log rfl).trans ?_
    rw [hamount, State.totalAmount]
    dsimp only
    omega

/-- A transfer loses value exactly if it causes a flush that fails. -/
theorem Handled.lostAmount (h : Handled cfg answers transfer s s') :
    s.lostAmount ≤ s'.lostAmount ∧
      (s'.lostAmount = s.lostAmount ↔ Handling.FlushSucceeds ⟨s, answers, transfer⟩) := by
  cases h with
  | accumulated count hsub hle =>
    refine ⟨le_rfl, fun _ _ hgt => absurd hgt (not_lt.mpr hle), fun _ => rfl⟩
  | flushed events hsub hgt =>
    refine lostAmount_log rfl ?_
    -- what is flushed exceeds the threshold, so it is not nothing
    have hpos : s.accumulated transfer ≠ 0 := Nat.ne_zero_of_lt hgt
    cases hok : answers.succeeds (.unlockToTreasury (s.accumulated transfer)) with
    | true => simp [LogLine.lostAmount, Handling.FlushSucceeds, hok]
    | false => simp [LogLine.lostAmount, SystemTx.amount, Handling.FlushSucceeds, hok, hsub, hgt, hpos]
  | credited events recipient hsub hr happroved | redirected events tx hsub htx =>
    refine lostAmount_log rfl ?_
    simp [LogLine.lostAmount, Handling.FlushSucceeds, hsub]

/-- How value moved between two states that handled some transfers. -/
structure Accounted (s s' : State) (hs : List Handling) : Prop where
  total : s'.totalAmount = s.totalAmount + (hs.map fun h => h.transfer.amount).sum
  lost_le : s.lostAmount ≤ s'.lostAmount
  lost_iff : s'.lostAmount = s.lostAmount ↔ ∀ h ∈ hs, h.FlushSucceeds

theorem Accounted.same (hlog : s'.log = s.log) (hsum : s'.subminimalTransfers = s.subminimalTransfers) :
    Accounted s s' [] := by
  have hlost : s'.lostAmount = s.lostAmount := by rw [State.lostAmount, hlog, State.lostAmount]
  refine ⟨?_, hlost.ge, iff_of_true hlost (List.forall_mem_nil _)⟩
  simp [State.totalAmount, State.executedAmount, State.failedAmount, State.lostAmount, hlog, hsum]

theorem Accounted.trans (h : Accounted s s' hs) (h' : Accounted s' s'' hs') :
    Accounted s s'' (hs ++ hs') := by
  refine ⟨?_, h.lost_le.trans h'.lost_le, ?_⟩
  · rw [h'.total, h.total, List.map_append, List.sum_append, Nat.add_assoc]
  · have hsplit : s''.lostAmount = s.lostAmount ↔
        s'.lostAmount = s.lostAmount ∧ s''.lostAmount = s'.lostAmount := by
      have h1 := h.lost_le
      have h2 := h'.lost_le
      omega
    rw [hsplit, h.lost_iff, h'.lost_iff]
    simp only [List.mem_append]
    constructor
    · rintro ⟨h1, h2⟩ x (hx | hx)
      · exact h1 x hx
      · exact h2 x hx
    · intro hall
      exact ⟨fun x hx => hall x (.inl hx), fun x hx => hall x (.inr hx)⟩

theorem sum_le_totalAmount (s : State) : s.subminimalTransfers.sum ≤ s.totalAmount :=
  Nat.le_add_left _ _

theorem Handled.accounted (h : Handled cfg answers transfer s s')
    (hfits : s.totalAmount + transfer.amount ≤ u64Max) :
    Accounted s s' [⟨s, answers, transfer⟩] := by
  have hsum := sum_le_totalAmount s
  refine ⟨?_, h.lostAmount.1, ?_⟩
  · simpa using h.totalAmount (by omega)
  · simpa using h.lostAmount.2

theorem handleAll_accounted (transfers : List (LedgerAnswers × Transfer))
    (hfits : s.totalAmount + ((handlings cfg s transfers).map fun h => h.transfer.amount).sum ≤ u64Max) :
    Accounted s (handleAll cfg s transfers) (handlings cfg s transfers) := by
  induction transfers generalizing s with
  | nil => exact .same rfl rfl
  | cons x transfers ih =>
    obtain ⟨answers, transfer⟩ := x
    simp only [handlings, List.map_cons, List.sum_cons] at hfits
    have hone : Accounted s (handleIncomingTransfer cfg answers transfer s)
        [⟨s, answers, transfer⟩] := handleIncomingTransfer_handled.accounted (by omega)
    refine hone.trans (ih ?_)
    have htotal := hone.total
    simp only [List.map_cons, List.map_nil, List.sum_cons, List.sum_nil] at htotal
    omega

theorem Step.accounted (step : Step cfg)
    (hfits : s.totalAmount + ((step.handlings s).map fun h => h.transfer.amount).sum ≤ u64Max) :
    Accounted s (step.run s) (step.handlings s) := by
  have hran := step.ran s
  generalize step.run s = s' at hran ⊢
  generalize step.handlings s = hs at hran hfits ⊢
  cases hran with
  | handled origin transfers hlen checkpoint hfirst =>
    -- neither the flag before nor the checkpoint after is counted
    obtain ⟨htotal, hle, hiff⟩ :=
      handleAll_accounted (s := { s with inherentExecutedThisBlock := true }) transfers hfits
    exact ⟨htotal, hle, hiff⟩
  | onInitialize | onFinalize | failed | configured | approved => exact .same rfl rfl

theorem run_accounted (steps : List (Step cfg))
    (hfits : s.totalAmount + ((runHandlings s steps).map fun h => h.transfer.amount).sum ≤ u64Max) :
    Accounted s (run s steps) (runHandlings s steps) := by
  induction steps generalizing s with
  | nil => exact .same rfl rfl
  | cons step steps ih =>
    rw [runHandlings, List.map_append, List.sum_append] at hfits
    have hone := step.accounted (s := s) (by omega)
    have htotal := hone.total
    exact hone.trans (ih (by omega))

end

/-- The bridge conserves value exactly as long as every flush succeeds: the accumulator is emptied
whatever becomes of the transaction that pays it out. -/
theorem value_conserved_iff (cfg : Config) (flushThreshold : Nat) (approvedTxs : List McTxHash)
    (steps : List (Step cfg))
    (hfits : ((runHandlings (genesisBuild flushThreshold approvedTxs) steps).map
      fun h => h.transfer.amount).sum ≤ u64Max) :
    ((runHandlings (genesisBuild flushThreshold approvedTxs) steps).map
        fun h => h.transfer.amount).sum =
      (run (genesisBuild flushThreshold approvedTxs) steps).executedAmount +
      (run (genesisBuild flushThreshold approvedTxs) steps).subminimalTransfers.sum +
      (run (genesisBuild flushThreshold approvedTxs) steps).failedAmount ↔
    ∀ h ∈ runHandlings (genesisBuild flushThreshold approvedTxs) steps, h.FlushSucceeds := by
  have hstart : (genesisBuild flushThreshold approvedTxs).totalAmount = 0 := rfl
  have hlost : (genesisBuild flushThreshold approvedTxs).lostAmount = 0 := rfl
  have hacc := run_accounted steps (by rw [hstart, Nat.zero_add]; exact hfits)
  have htotal := hacc.total
  rw [hstart, State.totalAmount] at htotal
  rw [← hacc.lost_iff, hlost]
  omega

/-- The origin `true` is governance, `false` is no origin. -/
def sampleConfig : Config where
  Origin := Bool
  isNone origin := !origin
  isGovernance origin := origin
  maxTransfersPerBlock := 10
  blake2_256 l := (Bytes.ofList? 32 (l.drop 35)).getD (.fill 32 0)

/-- A ledger that executes all transactions, or none. -/
def sampleAnswers (executes : Bool) : LedgerAnswers where
  minAmount := .ok 1000
  construct _ := .ok []
  execute _ := if executes then .ok (.fill 32 0) else .error 1

/-- Two transfers below the minimum that exceed the threshold of 1000 together. -/
def sampleSubminimalSteps (executes : Bool) : List (Step sampleConfig) :=
  [.call (.handleTransfers false
    [(sampleAnswers executes, ⟨.fill 32 1, 400, .reserve⟩),
      (sampleAnswers executes, ⟨.fill 32 2, 700, .invalid⟩)] (by change 2 ≤ _; decide) (.block 7))]

theorem value_conserved_iff_flush_executed :
    ((runHandlings (genesisBuild 1000 []) (sampleSubminimalSteps true)).map
      fun h => h.transfer.amount).sum = 1100 ∧
    ∀ h ∈ runHandlings (genesisBuild 1000 []) (sampleSubminimalSteps true), h.FlushSucceeds := by
  refine ⟨by decide +kernel, ?_⟩
  exact (value_conserved_iff sampleConfig 1000 [] (sampleSubminimalSteps true) (by decide +kernel)).mp
    (by decide +kernel)

/-- The ledger rejects the flush: 1100 units have come in, and nothing is executed, held or counted
as a failed transfer. -/
theorem failed_flush_loses_value :
    let s := run (genesisBuild 1000 []) (sampleSubminimalSteps false)
    ((runHandlings (genesisBuild 1000 []) (sampleSubminimalSteps false)).map
      fun h => h.transfer.amount).sum = 1100 ∧
    s.executedAmount = 0 ∧ s.subminimalTransfers.sum = 0 ∧ s.failedAmount = 0 := by
  decide +kernel

end MidnightNode.C2MBridge
