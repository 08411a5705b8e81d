import MidnightNode.CNight.Observation
import MidnightNode.Lib.MachineInts

/-!
# The db-sync rows behind the observation

What the four observation queries read from the Cardano database, and how their rows become
observed UTXOs (`primitives/mainchain-follower`, `db` and `data_source/cnight_observation`). Of the
SQL layer only this is kept: each query yields the rows of its kind with a position in a half-open
range, in `(block_no, block_index)` order, and at most `LIMIT` of them. The id bounds that only
speed the joins up are not modelled, except that the upper one is missing when the database has no
block with the number asked for.
-/

namespace MidnightNode.CNight

open SortedSlice

/-! ## Datums and addresses -/

inductive PlutusData
  | constr (alternative : Nat) (fields : List PlutusData)
  | map (entries : List (PlutusData × PlutusData))
  | list (items : List PlutusData)
  | integer (i : Int)
  | bytes (b : List UInt8)

namespace PlutusData

def asConstr? : PlutusData → Option (Nat × List PlutusData)
  | constr alternative fields => some (alternative, fields)
  | _ => none

def asBytes? : PlutusData → Option (List UInt8)
  | bytes b => some b
  | _ => none

end PlutusData

inductive Credential
  | keyHash (hash : Bytes 28)
  | scriptHash (hash : Bytes 28)
deriving DecidableEq, Repr

inductive CardanoAddress
  | base (network : UInt8) (payment stake : Credential)
  | enterprise (network : UInt8) (payment : Credential)
  /-- Pointer, reward, Byron and malformed addresses. -/
  | other (network : Except String UInt8)

namespace CardanoAddress

def networkId : CardanoAddress → Except String UInt8
  | base network _ _ => .ok network
  | enterprise network _ => .ok network
  | other network => network

/-- `EnterpriseAddress::from_address`, as far as its payment credential. -/
def enterprisePayment? : CardanoAddress → Option Credential
  | enterprise _ payment => some payment
  | _ => none

/-- `BaseAddress::from_address`, as far as its stake credential. -/
def baseStake? : CardanoAddress → Option Credential
  | base _ _ stake => some stake
  | _ => none

end CardanoAddress

def Credential.toScriptHash? : Credential → Option (Bytes 28)
  | scriptHash hash => some hash
  | keyHash _ => none

/-- What the Cardano serialization library computes: the bech32 decoding of an address and the
29 bytes of a reward address. Nothing is assumed about either. -/
structure CardanoLib where
  fromBech32 : String → Except String CardanoAddress
  rewardAddress : UInt8 → Credential → CardanoRewardAddressBytes

inductive RegistrationDatumDecodeError
  | cardanoCredentialNotBytes
  | cardanoCredentialInvalidTag (tag : Nat)
  | cardanoCredentialInvalidKeyHash
  | cardanoCredentialInvalidScriptHash
  | dustAddressNotBytes
  | dustAddressInvalidLength (length : Nat)
deriving DecidableEq, Repr

/-- The first field of a credential, read as a 28-byte hash. -/
def credentialHash? (fields : List PlutusData) : Option (Bytes 28) := do
  let d ← fields.head?
  let b ← d.asBytes?
  Bytes.ofList? 28 b

def decodeRegistrationDatum (list : List PlutusData) :
    Except RegistrationDatumDecodeError (Credential × DustPublicKeyBytes) := do
  let some (tag, fields) := list.head?.bind PlutusData.asConstr?
    | throw .cardanoCredentialNotBytes
  let credential ← match tag with
    | 0 => match credentialHash? fields with
      | some hash => pure (.keyHash hash)
      | none => throw .cardanoCredentialInvalidKeyHash
    | 1 => match credentialHash? fields with
      | some hash => pure (.scriptHash hash)
      | none => throw .cardanoCredentialInvalidScriptHash
    | tag => throw (.cardanoCredentialInvalidTag tag)
  let some dustAddress := list[1]?.bind PlutusData.asBytes? | throw .dustAddressNotBytes
  let some dustAddress' := DustPublicKeyBytes.ofList? dustAddress
    | throw (.dustAddressInvalidLength dustAddress.length)
  pure (credential, dustAddress')

/-! ## Rows -/

/-- A block of the database; `tx_count` is far below the bound of the `u32` it is cast to. -/
structure Block where
  blockNumber : Nat
  hash : McBlockHash
  time : Int
  txCount : Nat
  txCount_lt : txCount < i32Max

/-- The position of a block is just past its last transaction. -/
def Block.toPosition (b : Block) : CardanoPosition :=
  { blockHash := b.hash, blockNumber := b.blockNumber, blockTimestamp := b.time
    txIndexInBlock := b.txCount % 2 ^ 32 }

/-- The columns that place a row on the chain. The index of a transaction in its block is an
`INT4`, and no block holds enough transactions to reach its maximum. -/
structure RowPosition where
  blockNumber : Nat
  blockHash : McBlockHash
  blockTimestamp : Int
  txIndexInBlock : Nat
  txIndexInBlock_lt : txIndexInBlock < i32Max

def RowPosition.toPosition (r : RowPosition) : CardanoPosition :=
  { blockHash := r.blockHash, blockNumber := r.blockNumber, blockTimestamp := r.blockTimestamp
    txIndexInBlock := r.txIndexInBlock }

def RowPosition.key (r : RowPosition) : ℕ ×ₗ ℕ := r.toPosition.key

structure RegistrationRow extends RowPosition where
  fullDatum : PlutusData
  txHash : McTxHash
  utxoIndex : UInt16

structure DeregistrationRow extends RowPosition where
  fullDatum : PlutusData
  txHash : McTxHash
  utxoTxHash : McTxHash
  utxoIndex : UInt16

structure AssetCreateRow extends RowPosition where
  quantity : Int
  holderAddress : String
  txHash : McTxHash
  utxoIndex : UInt16

structure AssetSpendRow extends RowPosition where
  quantity : Int
  holderAddress : String
  utxoTxHash : McTxHash
  utxoIndex : UInt16
  spendingTxHash : McTxHash

/-- The database as the observation queries see it: for each kind, the joined rows in the order
of the query. -/
structure DbSync where
  blocks : List Block
  multiAssetId : List UInt8 → List UInt8 → Option Int
  registrations : String → Int → List RegistrationRow
  deregistrations : String → List DeregistrationRow
  assetCreates : Int → List AssetCreateRow
  assetSpends : Int → List AssetSpendRow
  registrations_sorted : ∀ address ident,
    SortedBy (·.toRowPosition.key) (registrations address ident)
  deregistrations_sorted : ∀ address, SortedBy (·.toRowPosition.key) (deregistrations address)
  assetCreates_sorted : ∀ ident, SortedBy (·.toRowPosition.key) (assetCreates ident)
  assetSpends_sorted : ∀ ident, SortedBy (·.toRowPosition.key) (assetSpends ident)

namespace DbSync

def getBlockByHash (db : DbSync) (hash : McBlockHash) : Option Block :=
  db.blocks.find? fun b => b.hash == hash

/-- Whether `get_high_bounds` finds the block it starts from. -/
def hasBlock (db : DbSync) (blockNumber : Nat) : Bool :=
  db.blocks.any fun b => b.blockNumber == blockNumber

/-- The largest block number that is at most `upper`. -/
def maxBlockLe (db : DbSync) (upper : Nat) : Option Nat :=
  ((db.blocks.map (·.blockNumber)).filter (· ≤ upper)).max?

def getHighestStableBlockLe (db : DbSync) (upper stabilityMargin : Nat) : Option Nat :=
  match (db.blocks.map (·.blockNumber)).max? with
  | none => none
  | some latest =>
    -- `u32::try_from(latest).unwrap_or(u32::MAX)`, then a saturating subtraction
    db.maxBlockLe (min upper (min latest u32Max - stabilityMargin))

end DbSync

/-! ## Queries -/

inductive BulkPullError
  | invalidMappingValidatorAddress (message : String)
  | networkId (message : String)
  | notEnterpriseAddress
  | missingScriptHash
  | missingHighBounds (blockNumber : Nat)
  /-- The `assert!` on `limit` and `offset` in front of each query. -/
  | limitAssertion
deriving DecidableEq, Repr

structure PagedQuery where
  start : CardanoPosition
  end_ : CardanoPosition
  limit : Nat
  offset : Nat

/-- A query: the rows of the half-open range, from `offset` on and at most `limit` of them. -/
def PagedQuery.page (q : PagedQuery) (key : ρ → ℕ ×ₗ ℕ) (rows : List ρ) :
    Except BulkPullError (List ρ) :=
  if q.limit < i32Max ∧ q.offset < i32Max then
    .ok (((slice key q.start.key q.end_.key rows).drop q.offset).take q.limit)
  else .error .limitAssertion

def getRegistrations (db : DbSync) (address : String) (ident : Int) (q : PagedQuery) :=
  q.page (·.toRowPosition.key) (db.registrations address ident)

def getDeregistrations (db : DbSync) (address : String) (q : PagedQuery) :=
  q.page (·.toRowPosition.key) (db.deregistrations address)

def getAssetCreates (db : DbSync) (ident : Int) (q : PagedQuery) :=
  q.page (·.toRowPosition.key) (db.assetCreates ident)

def getAssetSpends (db : DbSync) (ident : Int) (q : PagedQuery) :=
  q.page (·.toRowPosition.key) (db.assetSpends ident)

/-! ## From rows to observed UTXOs

A row that does not decode is logged and skipped. -/

section Decode
variable (lib : CardanoLib) (network : UInt8)

/-- The registration a datum describes. -/
def datumRegistration (datum : PlutusData) : Option (CardanoRewardAddressBytes × DustPublicKeyBytes) :=
  match datum.asConstr? with
  | none => none
  | some (_, fields) =>
    match decodeRegistrationDatum fields with
    | .error _ => none
    | .ok (credential, dustPublicKey) => some (lib.rewardAddress network credential, dustPublicKey)

/-- The reward address of the stake credential of a base address. -/
def holderOwner (holderAddress : String) : Option CardanoRewardAddressBytes :=
  match lib.fromBech32 holderAddress with
  | .error _ => none
  | .ok address => address.baseStake?.map (lib.rewardAddress network)

/-- The cast of an `i64` to `u128`. -/
def toU128 (quantity : Int) : Nat := (quantity % 2 ^ 128).toNat

def RegistrationRow.toUtxo (row : RegistrationRow) : Option ObservedUtxo :=
  (datumRegistration lib network row.fullDatum).map fun (address, key) =>
    { header := { txPosition := row.toPosition, txHash := row.txHash, utxoTxHash := row.txHash
                  utxoIndex := row.utxoIndex }
      data := .registration { cardanoRewardAddress := address, dustPublicKey := key } }

def DeregistrationRow.toUtxo (row : DeregistrationRow) : Option ObservedUtxo :=
  (datumRegistration lib network row.fullDatum).map fun (address, key) =>
    { header := { txPosition := row.toPosition, txHash := row.txHash
                  utxoTxHash := row.utxoTxHash, utxoIndex := row.utxoIndex }
      data := .deregistration { cardanoRewardAddress := address, dustPublicKey := key } }

def AssetCreateRow.toUtxo (row : AssetCreateRow) : Option ObservedUtxo :=
  (holderOwner lib network row.holderAddress).map fun owner =>
    { header := { txPosition := row.toPosition, txHash := row.txHash, utxoTxHash := row.txHash
                  utxoIndex := row.utxoIndex }
      data := .assetCreate { value := toU128 row.quantity, owner, utxoTxHash := row.txHash
                             utxoTxIndex := row.utxoIndex } }

def AssetSpendRow.toUtxo (row : AssetSpendRow) : Option ObservedUtxo :=
  (holderOwner lib network row.holderAddress).map fun owner =>
    { header := { txPosition := row.toPosition, txHash := row.spendingTxHash
                  utxoTxHash := row.utxoTxHash, utxoIndex := row.utxoIndex }
      data := .assetSpend { value := toU128 row.quantity, owner, utxoTxHash := row.utxoTxHash
                            utxoTxIndex := row.utxoIndex, spendingTxHash := row.spendingTxHash } }

end Decode

section Fetch
variable (lib : CardanoLib) (db : DbSync) (network : UInt8)

def getRegistrationUtxos (ident : Int) (address : String) (q : PagedQuery) :
    Except BulkPullError (List ObservedUtxo) := do
  let rows ← getRegistrations db address ident q
  pure (rows.filterMap (·.toUtxo lib network))

def getDeregistrationUtxos (address : String) (q : PagedQuery) :
    Except BulkPullError (List ObservedUtxo) := do
  let rows ← getDeregistrations db address q
  pure (rows.filterMap (·.toUtxo lib network))

def getAssetCreateUtxos (ident : Int) (q : PagedQuery) :
    Except BulkPullError (List ObservedUtxo) := do
  let rows ← getAssetCreates db ident q
  pure (rows.filterMap (·.toUtxo lib network))

def getAssetSpendUtxos (ident : Int) (q : PagedQuery) :
    Except BulkPullError (List ObservedUtxo) := do
  let rows ← getAssetSpends db ident q
  pure (rows.filterMap (·.toUtxo lib network))

end Fetch

end MidnightNode.CNight
