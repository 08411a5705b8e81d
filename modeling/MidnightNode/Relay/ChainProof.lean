import Mathlib
import MidnightNode.Lib.Fallible

/-!
# The relay's proof of a BEEFY commitment

The relay turns a signed BEEFY commitment into a proof for Cardano: the votes, and a Merkle proof for the
validators that voted in a tree whose leaves are all validators with their stakes.

Signature verification, hashing, decoding and the Merkle tree come from other crates and are parameters.
The tree stands for its leaves.
-/

namespace MidnightNode.Relay
open Fallible

/-! ## Commitments -/

abbrev BeefyId := Vector UInt8 33

abbrev Signature := Vector UInt8 65

abbrev Hash := Vector UInt8 32

/-- The two bytes that name an entry of a payload. -/
structure BeefyPayloadId where
  (b₀ b₁ : UInt8)
deriving DecidableEq

def mmrRootId : BeefyPayloadId := ⟨109, 104⟩
def currentBeefyStakesId : BeefyPayloadId := ⟨99, 115⟩
def currentBeefyAuthoritySet : BeefyPayloadId := ⟨99, 98⟩
def nextBeefyStakesId : BeefyPayloadId := ⟨110, 115⟩
def nextBeefyAuthoritySet : BeefyPayloadId := ⟨110, 98⟩

abbrev BeefyPayload := List (BeefyPayloadId × List UInt8)

structure BeefyCommitment where
  payload : BeefyPayload
  blockNumber : UInt32
  validatorSetId : UInt64

structure BeefySignedCommitment where
  commitment : BeefyCommitment
  signatures : List (Option Signature)

/-- A set of validators is not empty. -/
structure BeefyValidatorSet where
  validators : List BeefyId
  id : UInt64
  nonempty : validators ≠ []

abbrev BeefyStakes := List (BeefyId × UInt64)

inductive Error
  | noMatchingSignature (blockNumber : UInt32) (code : UInt32)
  | invalidAuthoritiesProofCreation
  | missingCurrentBeefyStakes
  | missingCurrentAuthoritySet
  | missingNextBeefyStakes
  | missingNextAuthoritySet

/-- What the relay uses of other crates. A proof tree for indices of leaves, given in order, covers
exactly these leaves. -/
structure Crates (AuthoritySet ProofNode : Type) where
  verify : BeefyId → Signature → BeefyCommitment → Bool
  keccak256 : List UInt8 → Hash
  decodeStakes : List UInt8 → Option BeefyStakes
  decodeAuthoritySet : List UInt8 → Option AuthoritySet
  root : List Hash → Option Hash
  orderedProofTree : List Hash → List Nat → ProofNode
  covered : ProofNode → List Nat
  covered_orderedProofTree : ∀ leaves indices, indices.Pairwise (· < ·) →
    (∀ i ∈ indices, i < leaves.length) → covered (orderedProofTree leaves indices) = indices

variable {AuthoritySet ProofNode : Type}

/-- `verify_signatures` of `sp_consensus_beefy`. -/
def verifySignatures (crates : Crates AuthoritySet ProofNode) (signed : BeefySignedCommitment)
    (targetNumber : UInt32) (validatorSet : BeefyValidatorSet) :
    Except UInt32 (List (BeefyId × Signature)) :=
  if signed.signatures.length ≠ validatorSet.validators.length ∨
      signed.commitment.validatorSetId ≠ validatorSet.id ∨
      signed.commitment.blockNumber ≠ targetNumber then
    .error 0
  else
    .ok ((validatorSet.validators.zip signed.signatures).filterMap fun (id, signature) =>
      (signature.filter (crates.verify id · signed.commitment)).map (id, ·))

/-! ## The proof -/

section
variable (crates : Crates AuthoritySet ProofNode)

structure BeefyStakesInfo (AuthoritySet : Type) where
  currentStakes : BeefyStakes
  currentAuthoritySet : AuthoritySet
  nextStakes : BeefyStakes
  nextAuthoritySet : AuthoritySet

def BeefyStakesInfo.tryFrom (value : BeefyPayload) : Except Error (BeefyStakesInfo AuthoritySet) := do
  let currentStakes ← okOr .missingCurrentBeefyStakes
    ((value.lookup currentBeefyStakesId).bind crates.decodeStakes)
  let currentAuthoritySet ← okOr .missingCurrentAuthoritySet
    ((value.lookup currentBeefyAuthoritySet).bind crates.decodeAuthoritySet)
  let nextStakes ← okOr .missingNextBeefyStakes
    ((value.lookup nextBeefyStakesId).bind crates.decodeStakes)
  let nextAuthoritySet ← okOr .missingNextAuthoritySet
    ((value.lookup nextBeefyAuthoritySet).bind crates.decodeAuthoritySet)
  return ⟨currentStakes, currentAuthoritySet, nextStakes, nextAuthoritySet⟩

/-- The eight bytes of a stake, lowest first. -/
def toLeBytes (stake : UInt64) : List UInt8 :=
  (List.range 8).map fun i => .ofNat (stake.toNat / 256 ^ i)

def prepLeafHash (beefyStake : BeefyId × UInt64) : Hash :=
  crates.keccak256 (beefyStake.1.toList ++ toLeBytes beefyStake.2)

def prepMerkleLeaves (beefyStakes : BeefyStakes) : List Hash :=
  beefyStakes.map (prepLeafHash crates)

/-- The result of the verification is dropped. -/
def collectSignatureIndices (signed : BeefySignedCommitment) (validatorSet : BeefyValidatorSet) :
    Except Error (List Nat) := do
  let blockNumber := signed.commitment.blockNumber
  let _ ← (verifySignatures crates signed blockNumber validatorSet).mapError
    (.noMatchingSignature blockNumber)
  return signed.signatures.zipIdx.filterMap fun (signature, index) => signature.map fun _ => index

structure AuthoritiesProof (ProofNode : Type) where
  root : Hash
  totalLeaves : UInt32
  proof : ProofNode

def AuthoritiesProof.tryNew (signed : BeefySignedCommitment) (validatorSet : BeefyValidatorSet) :
    Except Error (AuthoritiesProof ProofNode) := do
  let sigIndices ← collectSignatureIndices crates signed validatorSet
  let stakesInfo ← BeefyStakesInfo.tryFrom crates signed.commitment.payload
  let keccakHashes := prepMerkleLeaves crates stakesInfo.currentStakes
  let root ← okOr .invalidAuthoritiesProofCreation (crates.root keccakHashes)
  return ⟨root, .ofNat validatorSet.validators.length, crates.orderedProofTree keccakHashes sigIndices⟩

end

structure Vote where
  signature : List UInt8
  authorityIndex : Nat
  publicKey : List UInt8

structure Payload where
  id : BeefyPayloadId
  data : List UInt8

structure Commitment where
  payloads : List Payload
  blockNumber : Nat
  validatorSetId : Nat

structure SignedCommitment where
  commitment : Commitment
  votes : List Vote

/-- The last byte of a signature is removed. -/
def voteOf (signature : Signature) (index : Nat) (pk : BeefyId) : Vote :=
  ⟨signature.toList.dropLast, index, pk.toList⟩

def SignedCommitment.fromSignedCommitmentAndValidators (signed : BeefySignedCommitment)
    (validators : List BeefyId) : SignedCommitment where
  commitment := {
    payloads :=
      (signed.commitment.payload.filter (·.1 = mmrRootId)).map fun entry => ⟨mmrRootId, entry.2⟩
    blockNumber := signed.commitment.blockNumber.toNat
    validatorSetId := signed.commitment.validatorSetId.toNat }
  votes := (signed.signatures.zipIdx.zip validators).filterMap fun ((signature, i), pk) =>
    signature.map (voteOf · i pk)

structure RelayChainProof (ProofNode : Type) where
  signedCommitment : SignedCommitment
  proof : AuthoritiesProof ProofNode

def RelayChainProof.generate (crates : Crates AuthoritySet ProofNode) (signed : BeefySignedCommitment)
    (validatorSet : BeefyValidatorSet) : Except Error (RelayChainProof ProofNode) := do
  let proof ← AuthoritiesProof.tryNew crates signed validatorSet
  return ⟨.fromSignedCommitmentAndValidators signed validatorSet.validators, proof⟩

/-! ## Votes and indices -/

/-- The indices of the present signatures, counted from `k`. -/
def indicesFrom (k : Nat) (signatures : List (Option Signature)) : List Nat :=
  (signatures.zipIdx k).filterMap fun (signature, index) => signature.map fun _ => index

theorem mem_indicesFrom (h : i ∈ indicesFrom k signatures) : k ≤ i ∧ i < k + signatures.length := by
  obtain ⟨⟨signature, index⟩, hmem, hi⟩ := List.mem_filterMap.mp h
  obtain ⟨s, -, rfl⟩ := Option.map_eq_some_iff.mp hi
  exact ⟨List.le_snd_of_mem_zipIdx hmem, List.snd_lt_add_of_mem_zipIdx hmem⟩

theorem pairwise_indicesFrom (k : Nat) (signatures : List (Option Signature)) :
    (indicesFrom k signatures).Pairwise (· < ·) := by
  induction signatures generalizing k with
  | nil => exact .nil
  | cons signature signatures ih =>
    cases signature with
    | none => exact ih (k + 1)
    | some s => exact .cons (fun i hi => (mem_indicesFrom hi).1) (ih (k + 1))

/-- The votes, counted from `k`. -/
def votesFrom (k : Nat) (signatures : List (Option Signature)) (validators : List BeefyId) : List Vote :=
  ((signatures.zipIdx k).zip validators).filterMap fun ((signature, i), pk) =>
    signature.map (voteOf · i pk)

theorem votesFrom_map_index (k : Nat) (h : signatures.length = validators.length) :
    (votesFrom k signatures validators).map (·.authorityIndex) = indicesFrom k signatures := by
  induction signatures generalizing k validators with
  | nil => rfl
  | cons signature signatures ih =>
    obtain ⟨pk, validators, rfl⟩ := List.exists_cons_of_length_eq_add_one h.symm
    have ih := ih (k + 1) (Nat.succ.inj h)
    cases signature with
    | none => exact ih
    | some s => exact congrArg (k :: ·) ih

theorem mem_votesFrom_zero :
    v ∈ votesFrom 0 signatures validators ↔ ∃ i s pk, signatures[i]? = some (some s) ∧
      validators[i]? = some pk ∧ v = voteOf s i pk := by
  constructor
  · intro h
    obtain ⟨⟨⟨signature, index⟩, pk⟩, hmem, hv⟩ := List.mem_filterMap.mp h
    obtain ⟨s, rfl, rfl⟩ := Option.map_eq_some_iff.mp hv
    obtain ⟨i, hi⟩ := List.mem_iff_getElem?.mp hmem
    obtain ⟨hsignature, hpk⟩ := List.getElem?_zip_eq_some.mp hi
    rw [List.getElem?_zipIdx, Option.map_eq_some_iff] at hsignature
    obtain ⟨o, ho, heq⟩ := hsignature
    cases heq
    exact ⟨_, s, pk, ho, hpk, by rw [Nat.zero_add]⟩
  · rintro ⟨i, s, pk, hs, hpk, rfl⟩
    refine List.mem_filterMap.mpr ⟨((some s, i), pk), List.mem_iff_getElem?.mpr ⟨i, ?_⟩, rfl⟩
    refine List.getElem?_zip_eq_some.mpr ⟨?_, hpk⟩
    rw [List.getElem?_zipIdx, hs, Nat.zero_add]
    rfl

/-! ## What a proof contains -/

/-- The vote is a signature of the validator at its index over the commitment. -/
def Genuine (crates : Crates AuthoritySet ProofNode) (signed : BeefySignedCommitment)
    (validators : List BeefyId) (v : Vote) : Prop :=
  ∃ s pk, signed.signatures[v.authorityIndex]? = some (some s) ∧ v.signature = s.toList.dropLast ∧
    validators[v.authorityIndex]? = some pk ∧ v.publicKey = pk.toList ∧
    crates.verify pk s signed.commitment = true

theorem of_collectSignatureIndices {crates : Crates AuthoritySet ProofNode}
    {signed : BeefySignedCommitment} {validatorSet : BeefyValidatorSet} {indices : List Nat}
    (h : collectSignatureIndices crates signed validatorSet = .ok indices) :
    signed.signatures.length = validatorSet.validators.length ∧
      indices = indicesFrom 0 signed.signatures := by
  obtain ⟨verified, hverified, h⟩ := of_bind h
  obtain ⟨hmatch, -⟩ := of_check (of_mapError hverified)
  cases h
  exact ⟨not_not.mp fun hne => hmatch (.inl hne), rfl⟩

theorem of_generate {crates : Crates AuthoritySet ProofNode} {signed : BeefySignedCommitment}
    {validatorSet : BeefyValidatorSet} {proof : RelayChainProof ProofNode}
    (h : RelayChainProof.generate crates signed validatorSet = .ok proof) :
    ∃ stakes,
      (signed.commitment.payload.lookup currentBeefyStakesId).bind crates.decodeStakes = some stakes ∧
      signed.signatures.length = validatorSet.validators.length ∧
      proof.signedCommitment.votes = votesFrom 0 signed.signatures validatorSet.validators ∧
      crates.root (prepMerkleLeaves crates stakes) = some proof.proof.root ∧
      proof.proof.proof =
        crates.orderedProofTree (prepMerkleLeaves crates stakes) (indicesFrom 0 signed.signatures) := by
  obtain ⟨authorities, hauthorities, h⟩ := of_bind h
  obtain ⟨indices, hindices, hauthorities⟩ := of_bind hauthorities
  obtain ⟨info, hinfo, hauthorities⟩ := of_bind hauthorities
  obtain ⟨root, hroot, hauthorities⟩ := of_bind hauthorities
  obtain ⟨hlength, rfl⟩ := of_collectSignatureIndices hindices
  obtain ⟨stakes, hstakes, hinfo⟩ := of_bind hinfo
  obtain ⟨currentSet, -, hinfo⟩ := of_bind hinfo
  obtain ⟨nextStakes, -, hinfo⟩ := of_bind hinfo
  obtain ⟨nextSet, -, hinfo⟩ := of_bind hinfo
  cases hinfo
  cases hauthorities
  cases h
  exact ⟨stakes, of_okOr hstakes, hlength, rfl, of_okOr hroot, rfl⟩

/-- A signature verifies when it begins with the first byte of the public key. -/
def sampleCrates : Crates Unit (List Nat) where
  verify pk s _ := pk.head = s.head
  keccak256 data := .replicate 32 (data.headD 0)
  decodeStakes data := some (data.map fun b => (.replicate 33 b, b.toUInt64))
  decodeAuthoritySet _ := some ()
  root leaves := leaves.head?
  orderedProofTree _ indices := indices
  covered indices := indices
  covered_orderedProofTree _ _ _ _ := rfl

/-- A commitment of two validators, signed with signatures that begin with the given bytes. -/
def sampleSigned (first second : UInt8) : BeefySignedCommitment where
  commitment := {
    payload := [(currentBeefyAuthoritySet, []), (currentBeefyStakesId, [1, 2]),
      (nextBeefyAuthoritySet, []), (nextBeefyStakesId, [])]
    blockNumber := 7
    validatorSetId := 3 }
  signatures := [some (.replicate 65 first), some (.replicate 65 second)]

def sampleValidators : BeefyValidatorSet where
  validators := [.replicate 33 1, .replicate 33 2]
  id := 3
  nonempty := List.cons_ne_nil _ _

theorem sampleValidators_eq (first second : UInt8) (stakes : BeefyStakes)
    (h : ((sampleSigned first second).commitment.payload.lookup currentBeefyStakesId).bind
      sampleCrates.decodeStakes = some stakes) : stakes.map (·.1) = sampleValidators.validators := by
  cases h
  rfl

end MidnightNode.Relay
