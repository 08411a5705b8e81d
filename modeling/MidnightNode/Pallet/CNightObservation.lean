import MidnightNode.CNight.Observation
import MidnightNode.Ledger.DustEvents
import MidnightNode.Lib.DoubleMap
import MidnightNode.Lib.Fallible
import MidnightNode.Lib.MachineInts

/-!
# The cNIGHT observation pallet

`pallets/cnight-observation`: the mandatory inherent `process_tokens` takes the UTXOs observed on
Cardano, keeps the mapping from reward addresses to DUST keys, and turns created and spent cNIGHT of
registered owners into a system transaction for the ledger. An address counts as registered while
exactly one mapping entry exists for it.

`State` is the storage the call reads and writes, together with what it leaves behind: the deposited
events and the system transactions the executor has applied. The hash function, the ledger's
serialization and the executor's answers are parameters.
-/

namespace MidnightNode.Pallet
open CNight Ledger

abbrev H256 := Bytes 32
abbrev LedgerHash := Bytes 32

/-- Upper bound on the ratio of UTXOs to transactions the runtime accepts. -/
def utxoPerTxOverestimate : Nat := 64

/-- The version of the storage layout the pallet is written for. -/
def currentStorageVersion : Nat := 1

/-- `u32::saturating_mul`. -/
def saturatingMul (a b : Nat) : Nat := min (a * b) u32Max

structure UtxoId where
  txHash : McTxHash
  index : UInt16
deriving DecidableEq, Repr

structure MappingEntry where
  cardanoRewardAddress : CardanoRewardAddressBytes
  dustPublicKey : DustPublicKeyBytes
  utxoId : UtxoId
deriving DecidableEq, Repr

structure CmstHeader where
  blockHash : McBlockHash
  txIndexInBlock : Nat
deriving DecidableEq, Repr

inductive Event
  | registration (cardanoRewardAddress : CardanoRewardAddressBytes)
      (dustPublicKey : DustPublicKeyBytes)
  | deregistration (cardanoRewardAddress : CardanoRewardAddressBytes)
      (dustPublicKey : DustPublicKeyBytes)
  | mappingAdded (entry : MappingEntry)
  | mappingRemoved (entry : MappingEntry)
  | systemTransactionApplied (header : CmstHeader) (systemTransactionHash : LedgerHash)
deriving DecidableEq, Repr

inductive Error
  | inherentAlreadyExecuted
  | cardanoPositionRegression
  | tooManyUtxos
deriving DecidableEq, Repr

inductive DispatchError
  | badOrigin
  | cnightObservation (error : Error)
  /-- An error of the system transaction executor. -/
  | executor (code : Nat)
deriving DecidableEq, Repr

inductive Origin
  | none
  | signed
  | root
deriving DecidableEq, Repr

inductive UtxoActionType
  | create
  | destroy

/-- The enumeration as a number (`as u8`). -/
def UtxoActionType.toU8 : UtxoActionType → UInt8
  | .create => 0
  | .destroy => 1

abbrev Mapping := DoubleMap CardanoRewardAddressBytes UtxoId DustPublicKeyBytes

structure State where
  mapping : Mapping
  utxoOwners : AList fun _ : H256 => DustPublicKeyBytes
  nextCardanoPosition : CardanoPosition
  cardanoTxCapacityPerBlock : Nat
  inherentExecutedThisBlock : Bool
  storageVersion : Nat
  /-- The events deposited so far. -/
  events : List Event
  /-- The system transactions the executor has applied so far. -/
  executed : List (List UInt8)

structure Runtime (Owner : Type) where
  hashing : List UInt8 → H256
  ledgerApi : Api Owner

/-- What `execute_system_transaction` answers; its own errors are kept as a code. -/
abbrev Executor := List UInt8 → Except Nat LedgerHash

def utxoIdOf (header : ObservedUtxoHeader) : UtxoId := ⟨header.utxoTxHash, header.utxoIndex⟩

/-- The dust key of an address with exactly one mapping. -/
def uniqueDustKey (mapping : Mapping) (addr : CardanoRewardAddressBytes) :
    Option DustPublicKeyBytes :=
  match mapping.iterPrefixValues addr with
  | [only] => some only
  | _ => none

namespace State

def depositEvent (s : State) (e : Event) : State := { s with events := s.events ++ [e] }

def getRegistration (s : State) (wallet : CardanoRewardAddressBytes) : Option DustPublicKeyBytes :=
  uniqueDustKey s.mapping wallet

/-! ## Registrations -/

def handleRegistration (s : State) (header : ObservedUtxoHeader) (data : RegistrationData) :
    State :=
  let utxoId := utxoIdOf header
  let previousDustKey := uniqueDustKey s.mapping data.cardanoRewardAddress
  let s := { s with
    mapping := s.mapping.insert (data.cardanoRewardAddress, utxoId) data.dustPublicKey }
  let newDustKey := uniqueDustKey s.mapping data.cardanoRewardAddress
  let s := match previousDustKey, newDustKey with
    | none, some soleDustKey => s.depositEvent (.registration data.cardanoRewardAddress soleDustKey)
    | some prevDustKey, none =>
      s.depositEvent (.deregistration data.cardanoRewardAddress prevDustKey)
    | _, _ => s
  s.depositEvent (.mappingAdded ⟨data.cardanoRewardAddress, data.dustPublicKey, utxoId⟩)

def handleRegistrationRemoval (s : State) (header : ObservedUtxoHeader)
    (data : DeregistrationData) : State :=
  let utxoId := utxoIdOf header
  let regEntry : MappingEntry := ⟨data.cardanoRewardAddress, data.dustPublicKey, utxoId⟩
  let previousDustKey := uniqueDustKey s.mapping data.cardanoRewardAddress
  -- an entry that is missing or holds another key is only logged
  let s := { s with mapping := s.mapping.erase (data.cardanoRewardAddress, utxoId) }
  let newDustKey := uniqueDustKey s.mapping data.cardanoRewardAddress
  let s := match previousDustKey, newDustKey with
    | none, some soleDustKey => s.depositEvent (.registration data.cardanoRewardAddress soleDustKey)
    | some _, none =>
      s.depositEvent (.deregistration data.cardanoRewardAddress data.dustPublicKey)
    | _, _ => s
  s.depositEvent (.mappingRemoved regEntry)

end State

/-! ## Created and spent cNIGHT -/

section
variable {Owner : Type} (rt : Runtime Owner)

/-- `b"asset_create"`. -/
def assetCreateTag : List UInt8 := [97, 115, 115, 101, 116, 95, 99, 114, 101, 97, 116, 101]

/-- What is hashed to the nonce of a UTXO. -/
def noncePreimage (utxoTxHash : McTxHash) (utxoTxIndex : UInt16) : List UInt8 :=
  assetCreateTag ++ (utxoTxHash.data ++ beBytes utxoTxIndex)

def handleCreate (s : State) (curTime : Nat) (data : CreateData) : State × Option (List UInt8) :=
  match s.getRegistration data.owner with
  | none => (s, none)
  | some dustPublicKey =>
    let nonce := rt.hashing (noncePreimage data.utxoTxHash data.utxoTxIndex)
    match rt.ledgerApi.constructCnightGeneratesDustEvent data.value dustPublicKey.data curTime
        UtxoActionType.create.toU8 nonce with
    | .ok eventBytes =>
      ({ s with utxoOwners := s.utxoOwners.insert nonce dustPublicKey }, some eventBytes)
    | .error _ => (s, none)

def handleSpend (s : State) (curTime : Nat) (data : SpendData) : State × Option (List UInt8) :=
  let nonce := rt.hashing (noncePreimage data.utxoTxHash data.utxoTxIndex)
  match s.utxoOwners.lookup nonce with
  | none => (s, none)
  | some dustPublicKey =>
    let s := { s with utxoOwners := s.utxoOwners.erase nonce }
    match rt.ledgerApi.constructCnightGeneratesDustEvent data.value dustPublicKey.data curTime
        UtxoActionType.destroy.toU8 nonce with
    | .ok eventBytes => (s, some eventBytes)
    | .error _ => (s, none)

/-- The timestamp of an observation in seconds, from the milliseconds of its block read as `u64`. -/
def blockTimeSecs (header : ObservedUtxoHeader) : Nat :=
  (header.txPosition.blockTimestamp % 2 ^ 64).toNat / 1000

/-- One turn of the loop of `process_tokens`: the storage, and the events for the ledger. -/
def processUtxo (acc : State × List (List UInt8)) (utxo : ObservedUtxo) :
    State × List (List UInt8) :=
  let now := blockTimeSecs utxo.header
  match utxo.data with
  | .registration data => (acc.1.handleRegistration utxo.header data, acc.2)
  | .deregistration data => (acc.1.handleRegistrationRemoval utxo.header data, acc.2)
  | .assetCreate data =>
    let (s, event) := handleCreate rt acc.1 now data
    (s, acc.2 ++ event.toList)
  | .assetSpend data =>
    let (s, event) := handleSpend rt acc.1 now data
    (s, acc.2 ++ event.toList)

def processUtxos (s : State) (utxos : List ObservedUtxo) : State × List (List UInt8) :=
  utxos.foldl (processUtxo rt) (s, [])

/-! ## The call -/

/-- The end of `process_tokens`: hand the collected events to the ledger. -/
def applyDustEvents (exec : Executor) (s : State) (events : List (List UInt8))
    (nextCardanoPosition : CardanoPosition) : Except DispatchError State :=
  if events.isEmpty then .ok s
  else
    match rt.ledgerApi.constructCnightGeneratesDustSystemTx events with
    | .ok midnightSystemTx =>
      match exec midnightSystemTx with
      | .ok systemTransactionHash =>
        let s := { s with executed := s.executed ++ [midnightSystemTx] }
        .ok (s.depositEvent (.systemTransactionApplied
          ⟨nextCardanoPosition.blockHash, nextCardanoPosition.txIndexInBlock⟩
          systemTransactionHash))
      | .error code => .error (.executor code)
    -- only logged
    | .error _ => .ok s

def processTokens (exec : Executor) (s : State) (origin : Origin) (utxos : List ObservedUtxo)
    (nextCardanoPosition : CardanoPosition) : Except DispatchError State := do
  if origin ≠ .none then
    throw .badOrigin
  let utxoCount := utxos.length % 2 ^ 32
  if ¬ utxoCount ≤ saturatingMul s.cardanoTxCapacityPerBlock utxoPerTxOverestimate then
    throw (.cnightObservation .tooManyUtxos)
  if s.inherentExecutedThisBlock then
    throw (.cnightObservation .inherentAlreadyExecuted)
  let s := { s with inherentExecutedThisBlock := true }
  if s.storageVersion < currentStorageVersion then
    return s
  if ¬ s.nextCardanoPosition ≤ nextCardanoPosition then
    throw (.cnightObservation .cardanoPositionRegression)
  let (s, events) := processUtxos rt s utxos
  let s := { s with nextCardanoPosition }
  applyDustEvents rt exec s events nextCardanoPosition

end

def State.onFinalize (s : State) : State := { s with inherentExecutedThisBlock := false }

structure Call where
  exec : Executor
  origin : Origin
  utxos : List ObservedUtxo
  nextCardanoPosition : CardanoPosition

/-- A call that fails leaves no trace. -/
def State.dispatch {Owner : Type} (rt : Runtime Owner) (s : State) (c : Call) : State :=
  match processTokens rt c.exec s c.origin c.utxos c.nextCardanoPosition with
  | .ok s' => s'
  | .error _ => s

inductive BlockAction
  | processTokens (c : Call)
  | onFinalize

def State.step {Owner : Type} (rt : Runtime Owner) (s : State) : BlockAction → State
  | .processTokens c => s.dispatch rt c
  | .onFinalize => s.onFinalize

def State.run {Owner : Type} (rt : Runtime Owner) (s : State) (actions : List BlockAction) : State :=
  actions.foldl (State.step rt) s

/-! ## What each part does -/

theorem uniqueDustKey_eq_some : uniqueDustKey m a = some k ↔ m.Sole a k := by
  rw [← DoubleMap.iterPrefixValues_eq_singleton_iff]
  unfold uniqueDustKey
  split
  · rename_i only h
    rw [h, Option.some.injEq, List.singleton_inj]
  · rename_i hne
    exact ⟨fun h => (nomatch h), fun h => absurd h (hne k)⟩

theorem uniqueDustKey_eq_none (h : ∀ k, ¬ m.Sole a k) : uniqueDustKey m a = none :=
  Option.eq_none_iff_forall_ne_some.mpr fun k hk => h k (uniqueDustKey_eq_some.mp hk)

/-- The event that tells of a change of an address's valid key; a key that ceases to be valid is
reported as `cleared` says. -/
def keyChangeEvents (addr : CardanoRewardAddressBytes)
    (cleared : DustPublicKeyBytes → DustPublicKeyBytes) :
    Option DustPublicKeyBytes → Option DustPublicKeyBytes → List Event
  | none, some sole => [.registration addr sole]
  | some prev, none => [.deregistration addr (cleared prev)]
  | _, _ => []

theorem State.handleRegistration_eq (s : State) (header : ObservedUtxoHeader)
    (data : RegistrationData) :
    s.handleRegistration header data =
      let addr := data.cardanoRewardAddress
      let mapping := s.mapping.insert (addr, utxoIdOf header) data.dustPublicKey
      { s with
        mapping
        events := s.events ++ (keyChangeEvents addr id (uniqueDustKey s.mapping addr)
          (uniqueDustKey mapping addr) ++
            [.mappingAdded ⟨addr, data.dustPublicKey, utxoIdOf header⟩]) } := by
  simp only [State.handleRegistration]
  generalize uniqueDustKey s.mapping _ = prev
  generalize uniqueDustKey (s.mapping.insert _ _) _ = new
  cases prev <;> cases new <;> simp [keyChangeEvents, State.depositEvent]

theorem State.handleRegistrationRemoval_eq (s : State) (header : ObservedUtxoHeader)
    (data : DeregistrationData) :
    s.handleRegistrationRemoval header data =
      let addr := data.cardanoRewardAddress
      let mapping := s.mapping.erase (addr, utxoIdOf header)
      { s with
        mapping
        events := s.events ++ (keyChangeEvents addr (fun _ => data.dustPublicKey)
          (uniqueDustKey s.mapping addr) (uniqueDustKey mapping addr) ++
            [.mappingRemoved ⟨addr, data.dustPublicKey, utxoIdOf header⟩]) } := by
  simp only [State.handleRegistrationRemoval]
  generalize uniqueDustKey s.mapping _ = prev
  generalize uniqueDustKey (s.mapping.erase _) _ = new
  cases prev <;> cases new <;> simp [keyChangeEvents, State.depositEvent]

section
variable {Owner : Type} {rt : Runtime Owner} {exec : Executor} {s s' : State}

theorem handleCreate_frame : (handleCreate rt s now data).1 =
    { s with utxoOwners := (handleCreate rt s now data).1.utxoOwners } := by
  unfold handleCreate
  split
  · rfl
  · dsimp only
    split <;> rfl

theorem handleSpend_frame : (handleSpend rt s now data).1 =
    { s with utxoOwners := (handleSpend rt s now data).1.utxoOwners } := by
  unfold handleSpend
  dsimp only
  split
  · rfl
  · split <;> rfl

theorem processUtxo_frame (acc : State × List (List UInt8)) (u : ObservedUtxo) :
    (processUtxo rt acc u).1 = { acc.1 with
      mapping := (processUtxo rt acc u).1.mapping
      utxoOwners := (processUtxo rt acc u).1.utxoOwners
      events := (processUtxo rt acc u).1.events } := by
  obtain ⟨header, data⟩ := u
  cases data with
  | registration data => simp only [processUtxo, State.handleRegistration_eq]
  | deregistration data => simp only [processUtxo, State.handleRegistrationRemoval_eq]
  | assetCreate data =>
    simp only [processUtxo]
    rw [handleCreate_frame]
  | assetSpend data =>
    simp only [processUtxo]
    rw [handleSpend_frame]

theorem processUtxos_concat (us : List ObservedUtxo) (u : ObservedUtxo) :
    processUtxos rt s (us ++ [u]) = processUtxo rt (processUtxos rt s us) u := by
  unfold processUtxos
  rw [List.foldl_append]
  rfl

theorem processUtxos_frame (rt : Runtime Owner) (s : State) (us : List ObservedUtxo) :
    (processUtxos rt s us).1 = { s with
      mapping := (processUtxos rt s us).1.mapping
      utxoOwners := (processUtxos rt s us).1.utxoOwners
      events := (processUtxos rt s us).1.events } := by
  induction us using List.reverseRecOn with
  | nil => rfl
  | append_singleton us u ih =>
    rw [processUtxos_concat, processUtxo_frame, ih]

/-- What a call that succeeds has done: nothing while the storage has an old layout, otherwise it
has processed all UTXOs and handed the events for the ledger over. -/
theorem processTokens_inv (h : processTokens rt exec s origin utxos next = .ok s') :
    (s.storageVersion < currentStorageVersion ∧
      s' = { s with inherentExecutedThisBlock := true }) ∨
    (¬ s.storageVersion < currentStorageVersion ∧ s.nextCardanoPosition ≤ next ∧
      ∃ s₁ events, processUtxos rt { s with inherentExecutedThisBlock := true } utxos
          = (s₁, events) ∧
        applyDustEvents rt exec { s₁ with nextCardanoPosition := next } events next = .ok s') := by
  unfold processTokens at h
  simp only [bind, Except.bind, pure, Except.pure, throw, throwThe, MonadExceptOf.throw] at h
  obtain ⟨_, h⟩ := Fallible.of_check h
  obtain ⟨_, h⟩ := Fallible.of_check h
  obtain ⟨_, h⟩ := Fallible.of_check h
  split at h
  case isTrue hversion => exact .inl ⟨hversion, (Except.ok.inj h).symm⟩
  case isFalse hversion =>
    obtain ⟨hnext, h⟩ := Fallible.of_check h
    exact .inr ⟨hversion, not_not.mp hnext, _, _, rfl, h⟩

theorem applyDustEvents_inv (h : applyDustEvents rt exec s events next = .ok s') :
    (s' = s ∧ (events = [] ∨
      ∃ e, rt.ledgerApi.constructCnightGeneratesDustSystemTx events = .error e)) ∨
    ∃ tx hash, events ≠ [] ∧ rt.ledgerApi.constructCnightGeneratesDustSystemTx events = .ok tx ∧
      exec tx = .ok hash ∧
      s' = { s with
        executed := s.executed ++ [tx]
        events := s.events ++
          [.systemTransactionApplied ⟨next.blockHash, next.txIndexInBlock⟩ hash] } := by
  unfold applyDustEvents at h
  split at h
  · rename_i hempty
    exact .inl ⟨(Except.ok.inj h).symm, .inl (List.isEmpty_iff.mp hempty)⟩
  · rename_i hne
    split at h
    · rename_i tx htx
      split at h
      · rename_i hash hexec
        cases h
        exact .inr ⟨tx, hash, fun h => hne (List.isEmpty_iff.mpr h), htx, hexec, rfl⟩
      · cases h
    · rename_i e he
      exact .inl ⟨(Except.ok.inj h).symm, .inr ⟨e, he⟩⟩

end
end MidnightNode.Pallet
