import MidnightNode.Committee.CandidateDatums
import MidnightNode.Committee.Selection

/-!
# Valid candidates

`authority-selection-inherents/filter_invalid_candidates`: of each registered candidate the latest valid
registration counts, with the stake of its pool as weight; permissioned candidates only need valid keys. The
signature schemes, the encoding of the signed message and the keys of the runtime are parameters
(`CandidateLib`).
-/

namespace MidnightNode.Committee

/-! ## Observed data -/

structure UtxoInfo where
  utxoId : McUtxoId
  epochNumber : Nat
  blockNumber : Nat
  slotNumber : Nat
  txIndexWithinBlock : Nat
deriving DecidableEq

/-- Block, transaction and output, compared in this order. -/
abbrev UtxoInfoOrderingKey := Nat ×ₗ Nat ×ₗ Nat

def UtxoInfo.orderingKey (u : UtxoInfo) : UtxoInfoOrderingKey :=
  toLex (u.blockNumber, toLex (u.txIndexWithinBlock, u.utxoId.index.toNat))

structure RegistrationData where
  registrationUtxo : McUtxoId
  sidechainSignature : List UInt8
  mainchainSignature : Bytes 64
  sidechainPubKey : List UInt8
  utxoInfo : UtxoInfo
  txInputs : List McUtxoId
  keys : CandidateKeys
deriving DecidableEq

structure CandidateRegistrations where
  stakePoolPublicKey : Bytes 32
  registrations : List RegistrationData
  stakeDelegation : Option UInt64

/-! ## Candidates -/

structure CandidateWithStake (AccountId AccountKeys : Type) where
  stakePoolPubKey : Bytes 32
  stakeDelegation : UInt64
  accountId : AccountId
  accountKeys : AccountKeys
deriving DecidableEq

structure PermissionedCandidate (AccountId AccountKeys : Type) where
  accountId : AccountId
  accountKeys : AccountKeys
deriving DecidableEq

inductive Candidate (AccountId AccountKeys : Type)
  | permissioned (candidate : PermissionedCandidate AccountId AccountKeys)
  | registered (candidate : CandidateWithStake AccountId AccountKeys)
deriving DecidableEq

inductive CommitteeMember (AccountId AccountKeys : Type)
  | permissioned (id : AccountId) (keys : AccountKeys)
  | registered (id : AccountId) (keys : AccountKeys) (stakePoolPubKey : Bytes 32)
deriving DecidableEq

namespace Candidate

variable {AccountId AccountKeys : Type}

def toCommitteeMember : Candidate AccountId AccountKeys → CommitteeMember AccountId AccountKeys
  | permissioned c => .permissioned c.accountId c.accountKeys
  | registered c => .registered c.accountId c.accountKeys c.stakePoolPubKey

/-- The derived order compares the variants and then the fields in their order. -/
abbrev SortKey (AccountId AccountKeys : Type) :=
  (AccountId ×ₗ AccountKeys) ⊕ₗ (List Nat ×ₗ Nat ×ₗ AccountId ×ₗ AccountKeys)

def sortKey : Candidate AccountId AccountKeys → SortKey AccountId AccountKeys
  | permissioned c => Sum.inlₗ (toLex (c.accountId, c.accountKeys))
  | registered c => Sum.inrₗ (toLex (c.stakePoolPubKey.data.map UInt8.toNat,
      toLex (c.stakeDelegation.toNat, toLex (c.accountId, c.accountKeys))))

theorem sortKey_injective :
    Function.Injective (sortKey : Candidate AccountId AccountKeys → SortKey AccountId AccountKeys) := by
  rintro (⟨id, keys⟩ | ⟨pool, stake, id, keys⟩) (⟨id', keys'⟩ | ⟨pool', stake', id', keys'⟩) h <;>
    simp only [sortKey, Sum.inlₗ, Sum.inrₗ, toLex_inj, Sum.inl.injEq, Sum.inr.injEq, reduceCtorEq,
      Prod.mk.injEq] at h
  case permissioned.permissioned =>
    obtain ⟨rfl, rfl⟩ := h
    rfl
  case registered.registered =>
    obtain ⟨hpool, hstake, rfl, rfl⟩ := h
    have hdata := (List.map_injective_iff.mpr fun _ _ => UInt8.toNat_inj.mp) hpool
    rw [Bytes.ext hdata, UInt64.toNat_inj.mp hstake]

instance instLinearOrder [LinearOrder AccountId] [LinearOrder AccountKeys] :
    LinearOrder (Candidate AccountId AccountKeys) :=
  LinearOrder.lift' sortKey sortKey_injective

end Candidate

/-! ## Validation -/

inductive StakeError
  | invalidStake
  | unknownStake
deriving DecidableEq

inductive RegistrationDataError
  | invalidMainchainSignature
  | invalidSidechainSignature
  | invalidTxInput
  | invalidMainchainPubKey
  | invalidSidechainPubKey
  | invalidAccountKeys
deriving DecidableEq

inductive PermissionedCandidateDataError
  | invalidSidechainPubKey
  | invalidAccountKeys
deriving DecidableEq

/-- The keys of the runtime, the signature schemes and the encoding of the message that a registration signs. -/
structure CandidateLib (AccountId AccountKeys : Type) where
  keyIds : List (Bytes 4)
  decodeKeys : List UInt8 → Option AccountKeys
  accountId : Bytes 33 → AccountId
  signedMessage : (genesisUtxo : McUtxoId) → (sidechainPubKey : List UInt8) →
    (registrationUtxo : McUtxoId) → List UInt8
  ed25519Verify : (signature : Bytes 64) → List UInt8 → (pubKey : Bytes 32) → Bool
  ecdsaVerify : (signature : Bytes 65) → List UInt8 → (pubKey : Bytes 33) → Bool

section

variable {AccountId AccountKeys : Type} (lib : CandidateLib AccountId AccountKeys)

/-- `MaybeFromCandidateKeys::maybe_from`. -/
def maybeFrom (keys : CandidateKeys) : Option AccountKeys := do
  let encoded ← lib.keyIds.foldlM (fun encoded id => do
    let key ← keys.find? (·.id = id)
    if encoded.length + key.bytes.length ≤ 1024 then some (encoded ++ key.bytes) else none) []
  lib.decodeKeys encoded

def validateStake : Option UInt64 → Except StakeError UInt64
  | none => .error .unknownStake
  | some stake => if stake = 0 then .error .invalidStake else .ok stake

def verifyStakePoolSignature (stakePoolPubKey : Bytes 32) (registration : RegistrationData)
    (message : List UInt8) : Except RegistrationDataError Unit :=
  if lib.ed25519Verify registration.mainchainSignature message stakePoolPubKey then .ok ()
  else .error .invalidMainchainSignature

/-- The signature is stored without its last byte, of which both values are tried. -/
def verifySidechainSignature (pubKey : Bytes 33) (signature message : List UInt8) :
    Except RegistrationDataError Unit :=
  match Bytes.ofList? 64 signature with
  | none => .error .invalidSidechainSignature
  | some signature =>
    if [27, 28].any fun v => (Bytes.ofList? 65 (signature.data ++ [v])).any (lib.ecdsaVerify · message pubKey)
    then .ok () else .error .invalidSidechainSignature

def verifyTxInputs (registration : RegistrationData) : Except RegistrationDataError Unit :=
  if registration.txInputs.contains registration.registrationUtxo then .ok () else .error .invalidTxInput

def validateRegistrationData (stakePoolPubKey : Bytes 32) (registration : RegistrationData)
    (genesisUtxo : McUtxoId) : Except RegistrationDataError (Bytes 33 × AccountKeys) := do
  let accountKeys ← (maybeFrom lib registration.keys).elim (.error .invalidAccountKeys) .ok
  let sidechainPubKey ←
    (Bytes.ofList? 33 registration.sidechainPubKey).elim (.error .invalidSidechainPubKey) .ok
  let message := lib.signedMessage genesisUtxo registration.sidechainPubKey registration.registrationUtxo
  verifyStakePoolSignature lib stakePoolPubKey registration message
  verifySidechainSignature lib sidechainPubKey registration.sidechainSignature message
  verifyTxInputs registration
  .ok (sidechainPubKey, accountKeys)

def validatePermissionedCandidateData (candidate : PermissionedCandidateData) :
    Except PermissionedCandidateDataError (Bytes 33 × AccountKeys) := do
  let key ← (Bytes.ofList? 33 candidate.sidechainPublicKey).elim (.error .invalidSidechainPubKey) .ok
  let accountKeys ← (maybeFrom lib candidate.keys).elim (.error .invalidAccountKeys) .ok
  .ok (key, accountKeys)

/-! ## Filters -/

/-- The registrations that are valid for the pool, with what they register. -/
def validRegistrations (genesisUtxo : McUtxoId) (stakePoolPubKey : Bytes 32)
    (registrations : List RegistrationData) : List ((Bytes 33 × AccountKeys) × UtxoInfo) :=
  registrations.filterMap fun registration =>
    (validateRegistrationData lib stakePoolPubKey registration genesisUtxo).toOption.map
      fun candidate => (candidate, registration.utxoInfo)

/-- `max_by_key` gives the last one of the elements with the largest key. -/
def selectLatestValidCandidate (genesisUtxo : McUtxoId) (candidate : CandidateRegistrations) :
    Option (CandidateWithStake AccountId AccountKeys) := do
  let stakeDelegation ← (validateStake candidate.stakeDelegation).toOption
  let stakePoolPubKey := candidate.stakePoolPublicKey
  let valid := validRegistrations lib genesisUtxo stakePoolPubKey candidate.registrations
  let ((pubKey, accountKeys), _) ← valid.reverse.argmax (·.2.orderingKey)
  some ⟨stakePoolPubKey, stakeDelegation, lib.accountId pubKey, accountKeys⟩

def filterTrustlessCandidatesRegistrations (genesisUtxo : McUtxoId)
    (candidates : List CandidateRegistrations) : List (Candidate AccountId AccountKeys × Nat) :=
  (candidates.filterMap (selectLatestValidCandidate lib genesisUtxo)).map fun c =>
    (.registered c, c.stakeDelegation.toNat)

def filterInvalidPermissionedCandidates (candidates : List PermissionedCandidateData) :
    List (Candidate AccountId AccountKeys) :=
  candidates.filterMap fun candidate =>
    (validatePermissionedCandidateData lib candidate).toOption.map fun (key, accountKeys) =>
      .permissioned ⟨lib.accountId key, accountKeys⟩

def candidateFilters (genesisUtxo : McUtxoId) :
    CandidateFilters CandidateRegistrations PermissionedCandidateData (Candidate AccountId AccountKeys) :=
  ⟨filterTrustlessCandidatesRegistrations lib genesisUtxo, filterInvalidPermissionedCandidates lib⟩

end

end MidnightNode.Committee
