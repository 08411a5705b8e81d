import MidnightNode.CNight.DbSync
import MidnightNode.Lib.Fallible

/-!
# Candidates in Plutus data

The datums in which permissioned candidates and registrations are kept on Cardano
(`smart-contracts/plutus-data`). Both have an old format with an AURA and a GRANDPA key at fixed
positions and a generic one with key ids; datums from before versions existed are read too.
-/

namespace MidnightNode.CNight.PlutusData

def asList? : PlutusData → Option (List PlutusData)
  | list items => some items
  | _ => none

def asInteger? : PlutusData → Option Int
  | integer i => some i
  | _ => none

def asU64? (data : PlutusData) : Option Nat := do
  let i ← data.asInteger?
  if 0 ≤ i ∧ i.toNat < 2 ^ 64 then some i.toNat else none

def asU16? (data : PlutusData) : Option UInt16 := do
  let i ← data.asU64?
  if i < 2 ^ 16 then some (.ofNat i) else none

/-- The fields of a constructor with the alternative zero. -/
def asConstrZero? (data : PlutusData) : Option (List PlutusData) :=
  match data.asConstr? with
  | some (0, fields) => some fields
  | _ => none

end MidnightNode.CNight.PlutusData

namespace MidnightNode.Committee

open CNight (PlutusData)

/-! ## Versioned datums -/

structure VersionedGenericDatum where
  datum : PlutusData
  appendix : PlutusData
  version : UInt64

def VersionedGenericDatum.toPlutusData (v : VersionedGenericDatum) : PlutusData :=
  .list [v.datum, v.appendix, .integer v.version.toNat]

def plutusDataVersionAndPayload (data : PlutusData) : Option VersionedGenericDatum :=
  match data.asList? with
  | some [datum, appendix, version] => do
    let version ← version.asU64?
    some ⟨datum, appendix, .ofNat version⟩
  | _ => none

structure DataDecodingError where
  datum : PlutusData
  target : String
  msg : String

/-- A type of datums with a format from before versions. -/
structure VersionedDatumWithLegacy (Datum : Type) where
  name : String
  decodeLegacy : PlutusData → Except String Datum
  decodeVersioned : UInt64 → PlutusData → PlutusData → Except String Datum

def VersionedDatumWithLegacy.decode {Datum : Type} (t : VersionedDatumWithLegacy Datum)
    (data : PlutusData) : Except DataDecodingError Datum :=
  (match plutusDataVersionAndPayload data with
    | none => t.decodeLegacy data
    | some v => t.decodeVersioned v.version v.datum v.appendix).mapError fun msg => ⟨data, t.name, msg⟩

/-! ## Keys -/

structure CandidateKey where
  id : Bytes 4
  bytes : List UInt8
deriving DecidableEq

abbrev CandidateKeys := List CandidateKey

theorem aura_length : ([97, 117, 114, 97] : List UInt8).length = 4 := rfl

def aura : Bytes 4 := ⟨[97, 117, 114, 97], aura_length⟩

def grandpa : Bytes 4 := ⟨[103, 114, 97, 110], rfl⟩

namespace CandidateKeys

def find (keys : CandidateKeys) (id : Bytes 4) : Option (List UInt8) :=
  keys.findSome? fun e => if e.id = id then some e.bytes else none

def findOrEmpty (keys : CandidateKeys) (id : Bytes 4) : List UInt8 := (find keys id).getD []

def hasOnlyAuraAndGrandpaKeys (keys : CandidateKeys) : Bool :=
  keys.length == 2 && (find keys aura).isSome && (find keys grandpa).isSome

end CandidateKeys

open CandidateKeys

def candidateKeyToPlutus (key : CandidateKey) : PlutusData := .list [.bytes key.id.data, .bytes key.bytes]

def candidateKeysToPlutus (keys : CandidateKeys) : PlutusData := .list (keys.map candidateKeyToPlutus)

def decodeCandidateKey (data : PlutusData) : Option CandidateKey :=
  match data.asList? with
  | some [id, bytes] => do
    let id ← id.asBytes?
    let id ← Bytes.ofList? 4 id
    let bytes ← bytes.asBytes?
    some ⟨id, bytes⟩
  | _ => none

def decodeCandidateKeys (data : PlutusData) : Option CandidateKeys := do
  let items ← data.asList?
  items.mapM decodeCandidateKey

/-! ## Permissioned candidates -/

structure PermissionedCandidateData where
  sidechainPublicKey : List UInt8
  keys : CandidateKeys
deriving DecidableEq

structure PermissionedCandidateDatumV0 where
  sidechainPublicKey : List UInt8
  auraPublicKey : List UInt8
  grandpaPublicKey : List UInt8
deriving DecidableEq

structure PermissionedCandidateDatumV1 where
  partnerChainsKey : List UInt8
  keys : CandidateKeys
deriving DecidableEq

inductive PermissionedCandidateDatums
  | v0 (candidates : List PermissionedCandidateDatumV0)
  | v1 (candidates : List PermissionedCandidateDatumV1)
deriving DecidableEq

def PermissionedCandidateDatumV0.toData (d : PermissionedCandidateDatumV0) : PermissionedCandidateData :=
  ⟨d.sidechainPublicKey, [⟨aura, d.auraPublicKey⟩, ⟨grandpa, d.grandpaPublicKey⟩]⟩

def PermissionedCandidateDatumV1.toData (d : PermissionedCandidateDatumV1) : PermissionedCandidateData :=
  ⟨d.partnerChainsKey, d.keys⟩

def PermissionedCandidateDatums.toData : PermissionedCandidateDatums → List PermissionedCandidateData
  | v0 candidates => candidates.map (·.toData)
  | v1 candidates => candidates.map (·.toData)

/-- The keys are written in their own order. -/
def candidateToPlutusDataV0 (c : PermissionedCandidateData) : PlutusData :=
  .list (.bytes c.sidechainPublicKey :: c.keys.map fun key => .bytes key.bytes)

def candidateToPlutusDataV1 (c : PermissionedCandidateData) : PlutusData :=
  .list [.bytes c.sidechainPublicKey, candidateKeysToPlutus c.keys]

def permissionedCandidatesToPlutusData (candidates : List PermissionedCandidateData) : PlutusData :=
  if candidates.all fun c => hasOnlyAuraAndGrandpaKeys c.keys then
    VersionedGenericDatum.toPlutusData
      ⟨.constr 0 [], .list (candidates.map candidateToPlutusDataV0), 0⟩
  else
    VersionedGenericDatum.toPlutusData
      ⟨.constr 0 [], .list (candidates.map candidateToPlutusDataV1), 1⟩

def decodeLegacyCandidateDatum (datum : PlutusData) : Option PermissionedCandidateDatumV0 :=
  match datum.asList? with
  | some [sc, auraKey, grandpaKey] => do
    let sc ← sc.asBytes?
    let auraKey ← auraKey.asBytes?
    let grandpaKey ← grandpaKey.asBytes?
    some ⟨sc, auraKey, grandpaKey⟩
  | _ => none

def decodeV1CandidateDatum (datum : PlutusData) : Option PermissionedCandidateDatumV1 :=
  match datum.asList? with
  | some [key, keys] => do
    let partnerChainsKey ← key.asBytes?
    let keys ← decodeCandidateKeys keys
    some ⟨partnerChainsKey, keys⟩
  | _ => none

/-- Every element of a list, or the text of an error. -/
def decodeEach {α : Type} (decodeOne : PlutusData → Option α) (expected : String) (data : PlutusData) :
    Except String (List α) :=
  match data.asList?.bind fun items => items.mapM decodeOne with
  | some l => .ok l
  | none => .error expected

namespace PermissionedCandidateDatums

def decodeLegacy (data : PlutusData) : Except String PermissionedCandidateDatums :=
  (decodeEach decodeLegacyCandidateDatum "Expected [[ByteString, ByteString, ByteString]]" data).map v0

def decodeV1Appendix (data : PlutusData) : Except String PermissionedCandidateDatums :=
  (decodeEach decodeV1CandidateDatum
    "Expected [[ByteString, ByteString], [[ByteString, ByteString], ... ]]" data).map v1

/-- The text of the error of an unknown version names it. -/
def decodeVersioned (version : UInt64) (_datum appendix : PlutusData) :
    Except String PermissionedCandidateDatums :=
  if version = 0 then (decodeLegacy appendix).mapError ("Cannot parse appendix: " ++ ·)
  else if version = 1 then (decodeV1Appendix appendix).mapError ("Cannot parse appendix: " ++ ·)
  else .error ("Unknown version: " ++ toString version)

def versionedDatum : VersionedDatumWithLegacy PermissionedCandidateDatums :=
  ⟨"PermissionedCandidateDatums", decodeLegacy, decodeVersioned⟩

def tryFrom (data : PlutusData) : Except DataDecodingError PermissionedCandidateDatums :=
  versionedDatum.decode data

end PermissionedCandidateDatums

/-! ## Registrations -/

structure AdaBasedStaking where
  pubKey : Bytes 32
  signature : Bytes 64
deriving DecidableEq

structure McUtxoId where
  txHash : Bytes 32
  index : UInt16
deriving DecidableEq

structure CandidateRegistration where
  stakeOwnership : AdaBasedStaking
  partnerChainPubKey : List UInt8
  partnerChainSignature : List UInt8
  ownPkh : Bytes 28
  registrationUtxo : McUtxoId
  keys : CandidateKeys
deriving DecidableEq

inductive RegisterValidatorDatum
  | v0 (stakeOwnership : AdaBasedStaking) (sidechainPubKey sidechainSignature : List UInt8)
    (registrationUtxo : McUtxoId) (ownPkh : Bytes 28) (auraPubKey grandpaPubKey : List UInt8)
  | v1 (stakeOwnership : AdaBasedStaking) (sidechainPubKey sidechainSignature : List UInt8)
    (registrationUtxo : McUtxoId) (ownPkh : Bytes 28) (keys : CandidateKeys)
deriving DecidableEq

def stakeOwnershipToPlutusData (v : AdaBasedStaking) : PlutusData :=
  .constr 0 [.bytes v.pubKey.data, .bytes v.signature.data]

def txHashToPlutusData (hash : Bytes 32) : PlutusData := .constr 0 [.bytes hash.data]

def utxoIdToPlutusData (v : McUtxoId) : PlutusData :=
  .constr 0 [txHashToPlutusData v.txHash, .integer v.index.toNat]

def decodeAdaBasedStakingDatum (datum : PlutusData) : Option AdaBasedStaking :=
  match datum.asConstrZero? with
  | some (pubKey :: signature :: _) => do
    let pubKey ← pubKey.asBytes?
    let pubKey ← Bytes.ofList? 32 pubKey
    let signature ← signature.asBytes?
    let signature ← Bytes.ofList? 64 signature
    some ⟨pubKey, signature⟩
  | _ => none

def decodeTxHashDatum (datum : PlutusData) : Option (Bytes 32) :=
  match datum.asConstrZero? with
  | some (hash :: _) => do
    let hash ← hash.asBytes?
    Bytes.ofList? 32 hash
  | _ => none

def decodeUtxoIdDatum (datum : PlutusData) : Option McUtxoId :=
  match datum.asConstrZero? with
  | some (hash :: index :: _) => do
    let txHash ← decodeTxHashDatum hash
    let index ← index.asU16?
    some ⟨txHash, index⟩
  | _ => none

def decodeMainchainKeyHash (datum : PlutusData) : Option (Bytes 28) := do
  let bytes ← datum.asBytes?
  Bytes.ofList? 28 bytes

def decodeV0RegisterValidatorDatum (datum appendix : PlutusData) : Option RegisterValidatorDatum :=
  match appendix.asConstrZero? with
  | some (staking :: pubKey :: signature :: utxo :: auraKey :: grandpaKey :: _) => do
    let stakeOwnership ← decodeAdaBasedStakingDatum staking
    let sidechainPubKey ← pubKey.asBytes?
    let sidechainSignature ← signature.asBytes?
    let registrationUtxo ← decodeUtxoIdDatum utxo
    let auraPubKey ← auraKey.asBytes?
    let grandpaPubKey ← grandpaKey.asBytes?
    let ownPkh ← decodeMainchainKeyHash datum
    some (.v0 stakeOwnership sidechainPubKey sidechainSignature registrationUtxo ownPkh auraPubKey
      grandpaPubKey)
  | _ => none

def decodeV1RegisterValidatorDatum (datum appendix : PlutusData) : Option RegisterValidatorDatum :=
  match appendix.asConstrZero? with
  | some [staking, pubKey, signature, utxo, keys] => do
    let stakeOwnership ← decodeAdaBasedStakingDatum staking
    let sidechainPubKey ← pubKey.asBytes?
    let sidechainSignature ← signature.asBytes?
    let registrationUtxo ← decodeUtxoIdDatum utxo
    let keys ← decodeCandidateKeys keys
    let ownPkh ← decodeMainchainKeyHash datum
    some (.v1 stakeOwnership sidechainPubKey sidechainSignature registrationUtxo ownPkh keys)
  | _ => none

def decodeLegacyRegisterValidatorDatum (datum : PlutusData) : Option RegisterValidatorDatum :=
  match datum.asConstrZero? with
  | some (staking :: pubKey :: signature :: utxo :: pkh :: auraKey :: grandpaKey :: _) => do
    let stakeOwnership ← decodeAdaBasedStakingDatum staking
    let sidechainPubKey ← pubKey.asBytes?
    let sidechainSignature ← signature.asBytes?
    let registrationUtxo ← decodeUtxoIdDatum utxo
    let ownPkh ← decodeMainchainKeyHash pkh
    let auraPubKey ← auraKey.asBytes?
    let grandpaPubKey ← grandpaKey.asBytes?
    some (.v0 stakeOwnership sidechainPubKey sidechainSignature registrationUtxo ownPkh auraPubKey
      grandpaPubKey)
  | _ => none

namespace RegisterValidatorDatum

def decodeVersioned (version : UInt64) (datum appendix : PlutusData) :
    Except String RegisterValidatorDatum :=
  if version = 0 then
    Fallible.okOr "Can not parse appendix" (decodeV0RegisterValidatorDatum datum appendix)
  else if version = 1 then
    Fallible.okOr "Can not parse appendix" (decodeV1RegisterValidatorDatum datum appendix)
  else .error ("Unknown version: " ++ toString version)

def versionedDatum : VersionedDatumWithLegacy RegisterValidatorDatum :=
  ⟨"RegisterValidatorDatum", fun data => Fallible.okOr "Invalid data"
    (decodeLegacyRegisterValidatorDatum data), decodeVersioned⟩

def tryFrom (data : PlutusData) : Except DataDecodingError RegisterValidatorDatum :=
  versionedDatum.decode data

def toPlutusData : RegisterValidatorDatum → PlutusData
  | v0 stakeOwnership sidechainPubKey sidechainSignature registrationUtxo ownPkh auraPubKey
      grandpaPubKey =>
    VersionedGenericDatum.toPlutusData ⟨.bytes ownPkh.data, .constr 0
      [stakeOwnershipToPlutusData stakeOwnership, .bytes sidechainPubKey, .bytes sidechainSignature,
        utxoIdToPlutusData registrationUtxo, .bytes auraPubKey, .bytes grandpaPubKey], 0⟩
  | v1 stakeOwnership sidechainPubKey sidechainSignature registrationUtxo ownPkh keys =>
    VersionedGenericDatum.toPlutusData ⟨.bytes ownPkh.data, .constr 0
      [stakeOwnershipToPlutusData stakeOwnership, .bytes sidechainPubKey, .bytes sidechainSignature,
        utxoIdToPlutusData registrationUtxo, candidateKeysToPlutus keys], 1⟩

def toRegistration : RegisterValidatorDatum → CandidateRegistration
  | v0 stakeOwnership sidechainPubKey sidechainSignature registrationUtxo ownPkh auraPubKey
      grandpaPubKey =>
    ⟨stakeOwnership, sidechainPubKey, sidechainSignature, ownPkh, registrationUtxo,
      [⟨aura, auraPubKey⟩, ⟨grandpa, grandpaPubKey⟩]⟩
  | v1 stakeOwnership sidechainPubKey sidechainSignature registrationUtxo ownPkh keys =>
    ⟨stakeOwnership, sidechainPubKey, sidechainSignature, ownPkh, registrationUtxo, keys⟩

/-- The keys of the old format are taken by their ids. -/
def ofRegistration (r : CandidateRegistration) : RegisterValidatorDatum :=
  if hasOnlyAuraAndGrandpaKeys r.keys then
    .v0 r.stakeOwnership r.partnerChainPubKey r.partnerChainSignature r.registrationUtxo r.ownPkh
      (findOrEmpty r.keys aura) (findOrEmpty r.keys grandpa)
  else
    .v1 r.stakeOwnership r.partnerChainPubKey r.partnerChainSignature r.registrationUtxo r.ownPkh r.keys

end RegisterValidatorDatum

def candidateRegistrationToPlutusData (r : CandidateRegistration) : PlutusData :=
  (RegisterValidatorDatum.ofRegistration r).toPlutusData

/-! ## What is read back -/

theorem asU64?_integer {n : Nat} (h : n < 2 ^ 64) : (PlutusData.integer n).asU64? = some n := by
  have hrange : 0 ≤ (n : Int) ∧ n < 2 ^ 64 := ⟨Int.natCast_nonneg n, h⟩
  simp only [PlutusData.asU64?, PlutusData.asInteger?, Option.bind_eq_bind, Option.bind_some,
    if_pos hrange, Int.toNat_natCast]

@[simp]
theorem asU64?_uInt64 (n : UInt64) : (PlutusData.integer n.toNat).asU64? = some n.toNat :=
  asU64?_integer n.toNat_lt

@[simp]
theorem asU16?_uInt16 (n : UInt16) : (PlutusData.integer n.toNat).asU16? = some n := by
  have hlt : n.toNat < 2 ^ 16 := n.toNat_lt
  have hlarge : n.toNat < 2 ^ 64 := by omega
  simp only [PlutusData.asU16?, asU64?_integer hlarge, Option.bind_eq_bind, Option.bind_some,
    if_pos hlt, UInt16.ofNat_toNat]

@[simp]
theorem plutusDataVersionAndPayload_toPlutusData (v : VersionedGenericDatum) :
    plutusDataVersionAndPayload v.toPlutusData = some v := by
  simp [plutusDataVersionAndPayload, VersionedGenericDatum.toPlutusData, PlutusData.asList?]

theorem VersionedDatumWithLegacy.decode_toPlutusData {Datum : Type} (t : VersionedDatumWithLegacy Datum)
    (v : VersionedGenericDatum) : t.decode v.toPlutusData =
      (t.decodeVersioned v.version v.datum v.appendix).mapError fun msg =>
        ⟨v.toPlutusData, t.name, msg⟩ := by
  rw [decode, plutusDataVersionAndPayload_toPlutusData]

theorem mapM_map_eq_some {α β γ : Type} {f : β → Option γ} {g : α → β} {h : α → γ} {l : List α}
    (heach : ∀ a ∈ l, f (g a) = some (h a)) : (l.map g).mapM f = some (l.map h) := by
  induction l with
  | nil => rfl
  | cons a l ih =>
    rw [List.map_cons, List.mapM_cons, heach a List.mem_cons_self,
      ih fun b hb => heach b (List.mem_cons_of_mem _ hb)]
    rfl

@[simp]
theorem decodeCandidateKey_toPlutus (key : CandidateKey) :
    decodeCandidateKey (candidateKeyToPlutus key) = some key := by
  simp [decodeCandidateKey, candidateKeyToPlutus, PlutusData.asList?, PlutusData.asBytes?,
    Bytes.ofList?_data]

@[simp]
theorem decodeCandidateKeys_toPlutus (keys : CandidateKeys) :
    decodeCandidateKeys (candidateKeysToPlutus keys) = some keys := by
  have hkeys := mapM_map_eq_some (f := decodeCandidateKey) (g := candidateKeyToPlutus) (h := id)
    fun key (_ : key ∈ keys) => decodeCandidateKey_toPlutus key
  rwa [List.map_id] at hkeys

theorem decodeV1CandidateDatum_toPlutusData (c : PermissionedCandidateData) :
    decodeV1CandidateDatum (candidateToPlutusDataV1 c) = some ⟨c.sidechainPublicKey, c.keys⟩ := by
  simp [decodeV1CandidateDatum, candidateToPlutusDataV1, PlutusData.asList?, PlutusData.asBytes?]

theorem RegisterValidatorDatum.tryFrom_toPlutusData (d : RegisterValidatorDatum) :
    tryFrom d.toPlutusData = .ok d := by
  have hstaking : ∀ v, decodeAdaBasedStakingDatum (stakeOwnershipToPlutusData v) = some v := by
    intro v
    simp [decodeAdaBasedStakingDatum, stakeOwnershipToPlutusData, PlutusData.asConstrZero?,
      PlutusData.asConstr?, PlutusData.asBytes?, Bytes.ofList?_data]
  have hutxo : ∀ v, decodeUtxoIdDatum (utxoIdToPlutusData v) = some v := by
    intro v
    simp [decodeUtxoIdDatum, decodeTxHashDatum, utxoIdToPlutusData, txHashToPlutusData,
      PlutusData.asConstrZero?, PlutusData.asConstr?, PlutusData.asBytes?, Bytes.ofList?_data]
  cases d with
  | v0 =>
    rw [tryFrom, toPlutusData, VersionedDatumWithLegacy.decode_toPlutusData]
    simp [versionedDatum, decodeVersioned, decodeV0RegisterValidatorDatum, hstaking, hutxo,
      decodeMainchainKeyHash, PlutusData.asConstrZero?, PlutusData.asConstr?, PlutusData.asBytes?,
      Bytes.ofList?_data, Fallible.okOr, Except.mapError]
  | v1 =>
    rw [tryFrom, toPlutusData, VersionedDatumWithLegacy.decode_toPlutusData]
    simp [versionedDatum, decodeVersioned, decodeV1RegisterValidatorDatum, hstaking, hutxo,
      decodeMainchainKeyHash, PlutusData.asConstrZero?, PlutusData.asConstr?, PlutusData.asBytes?,
      Bytes.ofList?_data, Fallible.okOr, Except.mapError]

/-! ## AURA and GRANDPA -/

theorem find_nil (id : Bytes 4) : find [] id = none := rfl

theorem find_cons (key : CandidateKey) (keys : CandidateKeys) (id : Bytes 4) :
    find (key :: keys) id = if key.id = id then some key.bytes else find keys id := by
  rw [find, List.findSome?_cons]
  split_ifs <;> rfl

theorem aura_ne_grandpa : aura ≠ grandpa := by decide

theorem hasOnlyAuraAndGrandpaKeys_iff :
    hasOnlyAuraAndGrandpaKeys keys ↔
      ∃ a g, keys = [⟨aura, a⟩, ⟨grandpa, g⟩] ∨ keys = [⟨grandpa, g⟩, ⟨aura, a⟩] := by
  constructor
  · intro h
    simp only [hasOnlyAuraAndGrandpaKeys, Bool.and_eq_true, beq_iff_eq] at h
    obtain ⟨⟨hlength, haura⟩, hgrandpa⟩ := h
    obtain ⟨⟨i, x⟩, ⟨j, y⟩, rfl⟩ := List.length_eq_two.mp hlength
    rw [find_cons, find_cons, find_nil] at haura hgrandpa
    dsimp only at haura hgrandpa
    by_cases hi : i = aura
    · subst hi
      rw [if_neg aura_ne_grandpa] at hgrandpa
      by_cases hj : j = grandpa
      · exact ⟨x, y, .inl (by rw [hj])⟩
      · rw [if_neg hj] at hgrandpa
        cases hgrandpa
    · rw [if_neg hi] at haura
      by_cases hj : j = aura
      · subst hj
        by_cases hi' : i = grandpa
        · exact ⟨y, x, .inr (by rw [hi'])⟩
        · rw [if_neg hi', if_neg aura_ne_grandpa] at hgrandpa
          cases hgrandpa
      · rw [if_neg hj] at haura
        cases haura
  · rintro ⟨a, g, rfl | rfl⟩ <;> rfl

end MidnightNode.Committee
