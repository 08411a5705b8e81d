import MidnightNode.Committee.CandidateDatums

/-!
# Storing candidates on Cardano

What the lists of candidates written by `smart-contracts/plutus-data` are when they are read again, and
`upsert_permissioned_candidates` (`smart-contracts/offchain`), which sorts a list, compares it with the one
that is stored, and submits a transaction if they differ.

The old format has no key ids. It is written in the order of the keys and read as AURA before GRANDPA.
-/

namespace MidnightNode.Committee

open Fallible
open CNight (PlutusData)
open CandidateKeys
open PermissionedCandidateDatums (tryFrom versionedDatum decodeVersioned decodeLegacy decodeV1Appendix)

/-! ## Permissioned candidates read again -/

/-- The two keys by their positions. -/
def PermissionedCandidateData.positional (c : PermissionedCandidateData) : PermissionedCandidateDatumV0 :=
  match c.keys with
  | [key, key'] => ⟨c.sidechainPublicKey, key.bytes, key'.bytes⟩
  | _ => ⟨c.sidechainPublicKey, [], []⟩

variable (candidates : List PermissionedCandidateData)

/-- The candidates that are read from what was written for a list. -/
def readBack : List PermissionedCandidateData :=
  if candidates.all fun c => hasOnlyAuraAndGrandpaKeys c.keys then
    candidates.map fun c => c.positional.toData
  else candidates

theorem decodeLegacyCandidateDatum_toPlutusData (h : hasOnlyAuraAndGrandpaKeys c.keys) :
    decodeLegacyCandidateDatum (candidateToPlutusDataV0 c) = some c.positional := by
  obtain ⟨key, keys⟩ := c
  obtain ⟨a, g, rfl | rfl⟩ := hasOnlyAuraAndGrandpaKeys_iff.mp h <;> rfl

theorem tryFrom_permissionedCandidatesToPlutusData :
    ∃ datums, tryFrom (permissionedCandidatesToPlutusData candidates) =
      .ok datums ∧ datums.toData = readBack candidates := by
  rw [permissionedCandidatesToPlutusData, readBack]
  by_cases hall : candidates.all fun c => hasOnlyAuraAndGrandpaKeys c.keys
  · rw [if_pos hall, if_pos hall]
    have hdecode : (candidates.map candidateToPlutusDataV0).mapM decodeLegacyCandidateDatum =
        some (candidates.map PermissionedCandidateData.positional) :=
      mapM_map_eq_some fun c hc =>
        decodeLegacyCandidateDatum_toPlutusData (List.all_eq_true.mp hall c hc)
    refine ⟨.v0 (candidates.map PermissionedCandidateData.positional), ?_, List.map_map⟩
    rw [tryFrom, VersionedDatumWithLegacy.decode_toPlutusData]
    simp [versionedDatum, decodeVersioned,
      decodeLegacy, decodeEach, PlutusData.asList?, hdecode, Except.map,
      Except.mapError]
  · rw [if_neg hall, if_neg hall]
    have hdecode : (candidates.map candidateToPlutusDataV1).mapM decodeV1CandidateDatum =
        some (candidates.map fun c => ⟨c.sidechainPublicKey, c.keys⟩) :=
      mapM_map_eq_some fun c _ => decodeV1CandidateDatum_toPlutusData c
    refine ⟨.v1 (candidates.map fun c => ⟨c.sidechainPublicKey, c.keys⟩), ?_, ?_⟩
    · rw [tryFrom, VersionedDatumWithLegacy.decode_toPlutusData]
      simp [versionedDatum, decodeVersioned,
        decodeV1Appendix, decodeEach, PlutusData.asList?, hdecode,
        Except.map, Except.mapError]
    · exact List.map_map.trans (List.map_id candidates)

/-- The same partner chain key, and the same bytes for every key id. -/
def SameCandidate (c d : PermissionedCandidateData) : Prop :=
  d.sidechainPublicKey = c.sidechainPublicKey ∧ ∀ id, find d.keys id = find c.keys id

/-- The first key is the AURA key. -/
def AuraFirst (keys : CandidateKeys) : Prop := ∀ key ∈ keys.head?, key.id = aura

/-- The keys stand where the old format has them, or cannot be told apart. -/
def LegacyPositions (keys : CandidateKeys) : Prop :=
  AuraFirst keys ∨ ∀ key ∈ keys, ∀ key' ∈ keys, key.bytes = key'.bytes

theorem not_auraFirst_grandpa (g : List UInt8) (keys : CandidateKeys) :
    ¬ AuraFirst (⟨grandpa, g⟩ :: keys) := fun h => aura_ne_grandpa (h _ rfl).symm

theorem positional_toData_same_iff (h : hasOnlyAuraAndGrandpaKeys c.keys) :
    SameCandidate c c.positional.toData ↔ LegacyPositions c.keys := by
  obtain ⟨key, keys⟩ := c
  obtain ⟨a, g, rfl | rfl⟩ := hasOnlyAuraAndGrandpaKeys_iff.mp h
  · exact ⟨fun _ => .inl fun key hkey => by cases hkey; rfl, fun _ => ⟨rfl, fun _ => rfl⟩⟩
  constructor
  · rintro ⟨-, hfind⟩
    -- the bytes of the first key are read as those of the AURA key
    have hbytes : g = a := Option.some.inj (hfind aura)
    subst hbytes
    refine .inr ?_
    simp
  · intro hpositions
    have hbytes : g = a := by
      rcases hpositions with hfirst | hequal
      · exact absurd hfirst (not_auraFirst_grandpa g _)
      · exact hequal ⟨grandpa, g⟩ (by simp) ⟨aura, a⟩ (by simp)
    subst hbytes
    refine ⟨rfl, fun id => ?_⟩
    change find [⟨aura, g⟩, ⟨grandpa, g⟩] id = find [⟨grandpa, g⟩, ⟨aura, g⟩] id
    simp only [find_cons, find_nil]
    split_ifs <;> rfl

theorem positional_toData_eq_iff {c : PermissionedCandidateData}
    (h : hasOnlyAuraAndGrandpaKeys c.keys) : c.positional.toData = c ↔ AuraFirst c.keys := by
  obtain ⟨key, keys⟩ := c
  obtain ⟨a, g, rfl | rfl⟩ := hasOnlyAuraAndGrandpaKeys_iff.mp h
  · exact ⟨fun _ key hkey => by cases hkey; rfl, fun _ => rfl⟩
  · refine ⟨fun heq => ?_, fun hfirst => absurd hfirst (not_auraFirst_grandpa g _)⟩
    have hhead := congrArg (fun d => d.keys.head?.map CandidateKey.id) heq
    exact absurd (Option.some.inj hhead) aura_ne_grandpa

/-- The list is written in the generic format, or each candidate satisfies `p`. -/
def GenericOr (p : CandidateKeys → Prop) (candidates : List PermissionedCandidateData) : Prop :=
  (∃ c ∈ candidates, ¬ hasOnlyAuraAndGrandpaKeys c.keys) ∨ ∀ c ∈ candidates, p c.keys

theorem readBack_same_iff :
    List.Forall₂ SameCandidate candidates (readBack candidates) ↔
      GenericOr LegacyPositions candidates := by
  rw [readBack]
  by_cases hall : candidates.all fun c => hasOnlyAuraAndGrandpaKeys c.keys
  · have hkeys := List.all_eq_true.mp hall
    rw [if_pos hall, List.forall₂_map_right_iff, List.forall₂_same]
    constructor
    · intro h
      exact .inr fun c hc => (positional_toData_same_iff (hkeys c hc)).mp (h c hc)
    · rintro (⟨c, hc, hother⟩ | h)
      · exact absurd (hkeys c hc) hother
      · exact fun c hc => (positional_toData_same_iff (hkeys c hc)).mpr (h c hc)
  · rw [if_neg hall, List.forall₂_same]
    refine ⟨fun _ => .inl ?_, fun _ c _ => ⟨rfl, fun _ => rfl⟩⟩
    simpa using hall

/-! ## Registrations read again -/

/-- The same registration, with the same bytes for every key id. -/
def SameRegistration (r r' : CandidateRegistration) : Prop :=
  { r' with keys := r.keys } = r ∧ ∀ id, find r'.keys id = find r.keys id

theorem tryFrom_candidateRegistrationToPlutusData (r : CandidateRegistration) :
    ∃ d, RegisterValidatorDatum.tryFrom (candidateRegistrationToPlutusData r) = .ok d ∧
      SameRegistration r d.toRegistration := by
  refine ⟨_, RegisterValidatorDatum.tryFrom_toPlutusData _, ?_⟩
  rw [RegisterValidatorDatum.ofRegistration]
  by_cases honly : hasOnlyAuraAndGrandpaKeys r.keys
  · rw [if_pos honly]
    refine ⟨rfl, fun id => ?_⟩
    obtain ⟨a, g, hkeys | hkeys⟩ := hasOnlyAuraAndGrandpaKeys_iff.mp honly
    · rw [hkeys]
      rfl
    · rw [hkeys]
      change find [⟨aura, a⟩, ⟨grandpa, g⟩] id = find [⟨grandpa, g⟩, ⟨aura, a⟩] id
      simp only [find_cons, find_nil]
      split_ifs with haura hgrandpa
      · exact absurd (haura.trans hgrandpa.symm) aura_ne_grandpa
      all_goals rfl
  · rw [if_neg honly]
    exact ⟨rfl, fun _ => rfl⟩

/-! ## Upserting -/

def byteValues (bytes : List UInt8) : List Nat := bytes.map UInt8.toNat

/-- The derived order: the partner chain key first, then the keys one by one. -/
def PermissionedCandidateData.sortKey (c : PermissionedCandidateData) :
    List Nat ×ₗ List (List Nat ×ₗ List Nat) :=
  toLex (byteValues c.sidechainPublicKey,
    c.keys.map fun key => toLex (byteValues key.id.data, byteValues key.bytes))

def PermissionedCandidateData.le (a b : PermissionedCandidateData) : Bool :=
  decide (a.sortKey ≤ b.sortKey)

def sortCandidates : List PermissionedCandidateData :=
  candidates.mergeSort PermissionedCandidateData.le

/-- The serialization of datums, as `Raw`. -/
structure PlutusCodec (Raw : Type) where
  toBytes : PlutusData → Raw
  fromBytes : Raw → Except String PlutusData
  fromBytes_toBytes : ∀ data, fromBytes (toBytes data) = .ok data

structure OgmiosUtxo (Raw : Type) where
  id : McUtxoId
  nativeTokens : List (Bytes 28)
  datum : Option Raw

inductive UpsertError
  | multipleUtxos
  | missingDatum
  | invalidBytes (e : String)
  | invalidDatum (e : DataDecodingError)

inductive UpsertTx (Raw : Type)
  | update (current : OgmiosUtxo Raw) (candidates : List PermissionedCandidateData)
  | insert (candidates : List PermissionedCandidateData)

section

variable {Raw : Type} (codec : PlutusCodec Raw) (policyId : Bytes 28)

/-- The UTXO with the token, and the candidates in its datum, sorted. -/
def getCurrentPermissionedCandidates (validatorUtxos : List (OgmiosUtxo Raw)) :
    Except UpsertError (Option (OgmiosUtxo Raw × List PermissionedCandidateData)) :=
  match validatorUtxos.filter fun utxo => policyId ∈ utxo.nativeTokens with
  | [] => .ok none
  | [utxo] => do
    let bytes ← okOr .missingDatum utxo.datum
    let data ← (codec.fromBytes bytes).mapError UpsertError.invalidBytes
    let datums ← (tryFrom data).mapError UpsertError.invalidDatum
    .ok (some (utxo, sortCandidates datums.toData))
  | _ => .error .multipleUtxos

/-- The transaction to be submitted, if any. -/
def upsertPermissionedCandidates (validatorUtxos : List (OgmiosUtxo Raw))
    (candidates : List PermissionedCandidateData) : Except UpsertError (Option (UpsertTx Raw)) := do
  let candidates := sortCandidates candidates
  match ← getCurrentPermissionedCandidates codec policyId validatorUtxos with
  | some (utxo, current) =>
    if current = candidates then .ok none else .ok (some (.update utxo candidates))
  | none => .ok (some (.insert candidates))

/-- The output with the token and the datum. -/
def candidatesUtxo (id : McUtxoId) (candidates : List PermissionedCandidateData) : OgmiosUtxo Raw :=
  ⟨id, [policyId], some (codec.toBytes (permissionedCandidatesToPlutusData candidates))⟩

/-- The UTXOs at the validator after the transaction. -/
def UpsertTx.applyTo (tx : UpsertTx Raw) (id : McUtxoId) (validatorUtxos : List (OgmiosUtxo Raw)) :
    List (OgmiosUtxo Raw) :=
  match tx with
  | update current candidates =>
    validatorUtxos.filter (fun utxo => utxo.id ≠ current.id) ++
      [candidatesUtxo codec policyId id candidates]
  | insert candidates => validatorUtxos ++ [candidatesUtxo codec policyId id candidates]

end

theorem sortCandidates_perm :
    (sortCandidates candidates).Perm candidates := List.mergeSort_perm _ _

theorem sortCandidates_idem :
    sortCandidates (sortCandidates candidates) = sortCandidates candidates := by
  apply List.mergeSort_of_pairwise
  apply List.pairwise_mergeSort
  · intro a b c hab hbc
    exact decide_eq_true ((of_decide_eq_true hab).trans (of_decide_eq_true hbc))
  · intro a b
    rw [Bool.or_eq_true]
    exact (le_total a.sortKey b.sortKey).imp decide_eq_true decide_eq_true

theorem genericOr_perm {p : CandidateKeys → Prop} (h : l.Perm l') : GenericOr p l ↔ GenericOr p l' := by
  simp only [GenericOr, h.mem_iff]

/-- A sorted list is read back as it was written exactly when the old format fits it. -/
theorem sortCandidates_readBack_iff :
    sortCandidates (readBack (sortCandidates candidates)) = sortCandidates candidates ↔
      GenericOr AuraFirst candidates := by
  rw [← genericOr_perm (sortCandidates_perm candidates)]
  generalize hsorted : sortCandidates candidates = sorted
  have hidem : sortCandidates sorted = sorted := hsorted ▸ sortCandidates_idem candidates
  rw [readBack]
  by_cases hall : sorted.all fun c => hasOnlyAuraAndGrandpaKeys c.keys
  · have hkeys := List.all_eq_true.mp hall
    rw [if_pos hall]
    constructor
    · intro h
      refine .inr fun c hc => ?_
      -- every candidate is one that was read back
      have hperm : (sorted.map fun c => c.positional.toData).Perm sorted :=
        (sortCandidates_perm _).symm.trans (.of_eq h)
      obtain ⟨c', hc', rfl⟩ := List.mem_map.mp (hperm.mem_iff.mpr hc)
      exact fun key hkey => by cases hkey; rfl
    · rintro (⟨c, hc, hother⟩ | hfirst)
      · exact absurd (hkeys c hc) hother
      · have hmap : sorted.map (fun c => c.positional.toData) = sorted := by
          refine (List.map_congr_left fun c hc => ?_).trans (List.map_id sorted)
          exact (positional_toData_eq_iff (hkeys c hc)).mpr (hfirst c hc)
        rw [hmap, hidem]
  · rw [if_neg hall]
    refine ⟨fun _ => .inl ?_, fun _ => hidem⟩
    simpa using hall

section

variable {candidates} {Raw : Type} {codec : PlutusCodec Raw} {policyId : Bytes 28}

theorem upsertPermissionedCandidates_submits
    (h : upsertPermissionedCandidates codec policyId utxos candidates = .ok (some tx)) :
    (tx = .insert (sortCandidates candidates) ∧
        utxos.filter (fun utxo => policyId ∈ utxo.nativeTokens) = []) ∨
      ∃ current, tx = .update current (sortCandidates candidates) ∧
        utxos.filter (fun utxo => policyId ∈ utxo.nativeTokens) = [current] := by
  obtain ⟨stored, hstored, h⟩ := of_bind h
  rw [getCurrentPermissionedCandidates] at hstored
  split at hstored
  case h_1 hfilter =>
    cases hstored
    cases h
    exact .inl ⟨rfl, hfilter⟩
  case h_2 utxo hfilter =>
    obtain ⟨bytes, -, hstored⟩ := of_bind hstored
    obtain ⟨data, -, hstored⟩ := of_bind hstored
    obtain ⟨datums, -, hstored⟩ := of_bind hstored
    cases hstored
    refine .inr ⟨utxo, ?_, hfilter⟩
    dsimp only at h
    split_ifs at h
    · cases h
    · exact (Option.some.inj (Except.ok.inj h)).symm
  case h_3 => cases hstored

/-- After the transaction there is one UTXO with the token, with the sorted list in its datum. -/
theorem filter_applyTo (id : McUtxoId)
    (h : upsertPermissionedCandidates codec policyId utxos candidates = .ok (some tx)) :
    (tx.applyTo codec policyId id utxos).filter (fun utxo => policyId ∈ utxo.nativeTokens) =
      [candidatesUtxo codec policyId id (sortCandidates candidates)] := by
  have houtput : [candidatesUtxo codec policyId id (sortCandidates candidates)].filter
      (fun utxo => policyId ∈ utxo.nativeTokens) =
        [candidatesUtxo codec policyId id (sortCandidates candidates)] := by
    simp [candidatesUtxo]
  obtain ⟨rfl, hfilter⟩ | ⟨current, rfl, hfilter⟩ := upsertPermissionedCandidates_submits h
  · rw [UpsertTx.applyTo, List.filter_append, hfilter, houtput, List.nil_append]
  · -- the only UTXO with the token is spent
    have hspent : (utxos.filter fun utxo => utxo.id ≠ current.id).filter
        (fun utxo => policyId ∈ utxo.nativeTokens) = [] := by
      rw [List.filter_comm, hfilter]
      simp
    rw [UpsertTx.applyTo, List.filter_append, hspent, houtput, List.nil_append]

theorem getCurrentPermissionedCandidates_stored {id : McUtxoId}
    (h : utxos.filter (fun utxo => policyId ∈ utxo.nativeTokens) =
      [candidatesUtxo codec policyId id candidates]) :
    getCurrentPermissionedCandidates codec policyId utxos =
      .ok (some (candidatesUtxo codec policyId id candidates,
        sortCandidates (readBack candidates))) := by
  obtain ⟨datums, hdatums, hdata⟩ := tryFrom_permissionedCandidatesToPlutusData candidates
  rw [getCurrentPermissionedCandidates, h, ← hdata]
  simp [candidatesUtxo, okOr, codec.fromBytes_toBytes, hdatums, Except.mapError, bind,
    Except.bind]

theorem upsert_applyTo_iff {candidates : List PermissionedCandidateData} (id : McUtxoId)
    (h : upsertPermissionedCandidates codec policyId utxos candidates = .ok (some tx)) :
    upsertPermissionedCandidates codec policyId (tx.applyTo codec policyId id utxos) candidates =
      .ok none ↔ GenericOr AuraFirst candidates := by
  have hstored := getCurrentPermissionedCandidates_stored (filter_applyTo id h)
  rw [← sortCandidates_readBack_iff, upsertPermissionedCandidates, hstored]
  by_cases heq : sortCandidates (readBack (sortCandidates candidates)) = sortCandidates candidates
  · simp [heq, bind, Except.bind]
  · simp [heq, bind, Except.bind]

end

/-- Permissioned candidates come back from Cardano unless the old format misplaces a key, registrations
always do, a versioned datum is never read by the decoder of the old format, and a list that was stored
just now is not submitted again unless the old format reorders a candidate's keys. -/
theorem candidates_survive_iff {Raw : Type} (codec : PlutusCodec Raw) (policyId : Bytes 28) :
    (∀ candidates, ∃ datums, tryFrom
        (permissionedCandidatesToPlutusData candidates) = .ok datums ∧
      (List.Forall₂ SameCandidate candidates datums.toData ↔ GenericOr LegacyPositions candidates)) ∧
    (∀ registration, ∃ datum, RegisterValidatorDatum.tryFrom
        (candidateRegistrationToPlutusData registration) = .ok datum ∧
      SameRegistration registration datum.toRegistration) ∧
    (∀ (Datum : Type) (t : VersionedDatumWithLegacy Datum) (v : VersionedGenericDatum),
      t.decode v.toPlutusData = (t.decodeVersioned v.version v.datum v.appendix).mapError
        fun msg => ⟨v.toPlutusData, t.name, msg⟩) ∧
    ∀ utxos candidates tx id,
      upsertPermissionedCandidates codec policyId utxos candidates = .ok (some tx) →
      (upsertPermissionedCandidates codec policyId (tx.applyTo codec policyId id utxos) candidates =
        .ok none ↔ GenericOr AuraFirst candidates) := by
  refine ⟨fun candidates => ?_, tryFrom_candidateRegistrationToPlutusData,
    fun _ t v => t.decode_toPlutusData v, fun _ _ _ id h => upsert_applyTo_iff id h⟩
  obtain ⟨datums, hdatums, hdata⟩ := tryFrom_permissionedCandidatesToPlutusData candidates
  exact ⟨datums, hdatums, hdata ▸ readBack_same_iff candidates⟩

/-- A candidate with the AURA key before the GRANDPA key. -/
def auraFirst : PermissionedCandidateData := ⟨[3], [⟨aura, [2]⟩, ⟨grandpa, [1]⟩]⟩

/-- Datums that are not serialized. -/
def plainCodec : PlutusCodec PlutusData := ⟨id, .ok, fun _ => rfl⟩

theorem sortCandidates_singleton (c : PermissionedCandidateData) : sortCandidates [c] = [c] :=
  List.mergeSort_singleton c

theorem upsert_nil_singleton {Raw : Type} (codec : PlutusCodec Raw) (policyId : Bytes 28)
    (c : PermissionedCandidateData) :
    upsertPermissionedCandidates codec policyId [] [c] = .ok (some (.insert [c])) := by
  rw [upsertPermissionedCandidates, sortCandidates_singleton]
  rfl

theorem candidates_survive_iff_auraFirst :
    upsertPermissionedCandidates plainCodec (.fill 28 7) [] [auraFirst] =
        .ok (some (.insert [auraFirst])) ∧
      upsertPermissionedCandidates plainCodec (.fill 28 7)
        ((UpsertTx.insert [auraFirst]).applyTo plainCodec (.fill 28 7) ⟨.fill 32 1, 0⟩ [])
        [auraFirst] = .ok none := by
  have hinsert := upsert_nil_singleton plainCodec (.fill 28 7) auraFirst
  have hfirst : GenericOr AuraFirst [auraFirst] :=
    .inr fun c hc key hkey => by
      cases List.mem_singleton.mp hc
      cases hkey
      rfl
  obtain ⟨-, -, -, hupsert⟩ := candidates_survive_iff plainCodec (.fill 28 7)
  exact ⟨hinsert, (hupsert [] [auraFirst] _ _ hinsert).mpr hfirst⟩

/-- A candidate with the GRANDPA key before the AURA key. -/
def grandpaFirst : PermissionedCandidateData := ⟨[3], [⟨grandpa, [1]⟩, ⟨aura, [2]⟩]⟩

/-- The two keys are swapped, and the list is submitted again right after it was stored. -/
theorem grandpaFirst_swapped :
    (tryFrom (permissionedCandidatesToPlutusData [grandpaFirst]) =
        .ok (.v0 [⟨[3], [1], [2]⟩]) ∧
      (PermissionedCandidateDatums.v0 [⟨[3], [1], [2]⟩]).toData =
        [⟨[3], [⟨aura, [1]⟩, ⟨grandpa, [2]⟩]⟩]) ∧
    ∀ (Raw : Type) (codec : PlutusCodec Raw) (policyId : Bytes 28) (id : McUtxoId),
      upsertPermissionedCandidates codec policyId [] [grandpaFirst] =
        .ok (some (.insert [grandpaFirst])) ∧
      upsertPermissionedCandidates codec policyId
          ((UpsertTx.insert [grandpaFirst]).applyTo codec policyId id []) [grandpaFirst] =
        .ok (some (.update (candidatesUtxo codec policyId id [grandpaFirst]) [grandpaFirst])) := by
  refine ⟨⟨rfl, rfl⟩, fun Raw codec policyId id => ?_⟩
  have hinsert := upsert_nil_singleton codec policyId grandpaFirst
  refine ⟨hinsert, ?_⟩
  have hstored := getCurrentPermissionedCandidates_stored (filter_applyTo id hinsert)
  have hread : readBack [grandpaFirst] = [⟨[3], [⟨aura, [1]⟩, ⟨grandpa, [2]⟩]⟩] := rfl
  simp only [sortCandidates_singleton, hread] at hstored
  rw [upsertPermissionedCandidates, hstored, sortCandidates_singleton]
  rfl

end MidnightNode.Committee
