import Mathlib

/-!
# Errors of the ledger bridge

The errors a call into the ledger can end with (`ledger/versions/common/types.rs`). Which
transaction error it is does not matter to the modelled callers; it is kept as its code.
-/

namespace MidnightNode.Ledger

inductive DeserializationError
  | networkId
  | transaction
  | ledgerState
  | contractAddress
  | publicKey
  | typedArenaKey
  | versionedArenaKey
  | userAddress
  | systemTransaction
  | dustPublicKey
  | cNightGeneratesDustActionType
  | cNightGeneratesDustEvent
deriving DecidableEq, Repr

inductive SerializationError
  | transactionIdentifier
  | zswapState
  | ledgerState
  | ledgerParameters
  | contractAddress
  | contractState
  | contractStateToJson
  | unknownType
  | merkleTreeDigest
  | typedArenaKey
  | versionedArenaKey
  | cNightGeneratesDustEvent
  | systemTransaction
  | arenaHash
deriving DecidableEq, Repr

inductive LedgerApiError
  | deserialization (error : DeserializationError)
  | serialization (error : SerializationError)
  | transaction (code : Nat)
  | ledgerCacheError
  | noLedgerState
  | ledgerStateScaleDecodingError
  | contractCallCostError
  | blockLimitExceededError
  | feeCalculationError
  | hostApiError
  | getTransactionContextError
  | contractNotPresent
  | beneficiaryNotFound
  | transactionVersionNotActive
deriving DecidableEq, Repr

end MidnightNode.Ledger
