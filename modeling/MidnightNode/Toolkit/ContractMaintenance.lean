import Mathlib
import MidnightNode.Lib.Fallible

/-!
# Contract maintenance

`ContractMaintenanceBuilder` checks the keys of the given wallets against the authority of the contract,
and `MaintenanceUpdateInfo` signs the update with them. The funding wallet signs too if it is a member.
The ledger checks a signature against the member whose index it is added under.

`load` reads a key file. A signature shows its signer and what was signed.
-/

namespace MidnightNode.ContractMaintenance
open Fallible

structure Types where
  Address : Type
  Wallet : Type
  Key : Type
  EntryPoint : Type
  Version : Type
  VerifierKey : Type
  Path : Type

variable {T : Types}

structure Authority (T : Types) where
  committee : List T.Key
  threshold : UInt32
  counter : UInt32

structure ContractState (T : Types) where
  maintenanceAuthority : Authority T
  /-- The version of the key of an entry point. -/
  operations : T.EntryPoint → Option T.Version

inductive SingleUpdate (T : Types)
  | replaceAuthority (authority : Authority T)
  | verifierKeyRemove (entrypoint : T.EntryPoint) (version : T.Version)
  | verifierKeyInsert (entrypoint : T.EntryPoint) (key : T.VerifierKey)

/-- What `data_to_sign` covers. -/
structure UpdateData (T : Types) where
  address : T.Address
  updates : List (SingleUpdate T)
  counter : UInt32

structure Signature (T : Types) where
  signer : T.Key
  data : UpdateData T

structure MaintenanceUpdate (T : Types) extends UpdateData T where
  signatures : List (UInt32 × Signature T)

inductive BuilderError (T : Types)
  | providedCommitteeNotSubset (provided committee : List T.Key)
  | thresholdMissed (provided threshold : Nat) (committee : List T.Key)
  | contractNotPresent (address : T.Address)
  | removingMissingEntrypoint (entrypoint : T.EntryPoint)
  | verifierKeyLoadError
  | deserializationError (path : T.Path)
  | invalidVerifierKeyName (path : T.Path)
  | noChange

structure ContractMaintenanceBuilder (T : Types) where
  currentCommittee : List T.Wallet
  newCommittee : List T.Wallet
  upsertEntrypoints : List T.Path
  removeEntrypoints : List T.EntryPoint
  threshold : Option UInt32
  counter : UInt32
  fundingWallet : T.Wallet
  contractAddress : T.Address

/-- Wallets and key files. -/
structure Context (T : Types) where
  verifyingKey : T.Wallet → T.Key
  load : T.Path → Except (BuilderError T) (T.EntryPoint × T.VerifierKey)

def Context.build (ctx : Context T) (committee : List T.Wallet) (data : UpdateData T) :
    MaintenanceUpdate T :=
  { data with
    signatures := committee.mapIdx fun idx wallet => (.ofNat idx, ⟨ctx.verifyingKey wallet, data⟩) }

variable [DecidableEq T.Key]

def checkCommittee (provided : List T.Key) (authority : Authority T) : Except (BuilderError T) Unit :=
  if ¬ ∀ key ∈ provided, key ∈ authority.committee then
    .error (.providedCommitteeNotSubset provided authority.committee)
  else if provided.length < authority.threshold.toNat then
    .error (.thresholdMissed provided.length authority.threshold.toNat authority.committee)
  else .ok ()

namespace ContractMaintenanceBuilder

variable (b : ContractMaintenanceBuilder T) (ctx : Context T)

def signingCommittee (authority : Authority T) : List T.Wallet :=
  let key := ctx.verifyingKey b.fundingWallet
  if key ∉ b.currentCommittee.map ctx.verifyingKey ∧ key ∈ authority.committee then
    b.currentCommittee ++ [b.fundingWallet]
  else b.currentCommittee

def signingKeys (authority : Authority T) : List T.Key :=
  (b.signingCommittee ctx authority).map ctx.verifyingKey

/-- The updates of `create_intent_info`: keys to remove, keys to insert, the new authority. -/
def createUpdates (remove : List (T.EntryPoint × T.Version))
    (insert : List (T.EntryPoint × T.VerifierKey)) : List (SingleUpdate T) :=
  remove.map (fun (e, version) => .verifierKeyRemove e version) ++
    insert.map (fun (e, key) => .verifierKeyInsert e key) ++
    if b.newCommittee = [] then []
    else
      [.replaceAuthority
        { committee := b.newCommittee.map ctx.verifyingKey
          threshold := b.threshold.getD (.ofNat b.newCommittee.length)
          counter := b.counter + 1 }]

def buildTxsFrom (state : Option (ContractState T)) : Except (BuilderError T) (MaintenanceUpdate T) := do
  let state ← okOr (.contractNotPresent b.contractAddress) state
  let committee := b.signingCommittee ctx state.maintenanceAuthority
  checkCommittee (committee.map ctx.verifyingKey) state.maintenanceAuthority
  let toRemove ← b.removeEntrypoints.mapM fun e => do
    let version ← okOr (.removingMissingEntrypoint e) (state.operations e)
    return (e, version)
  let toInsert ← b.upsertEntrypoints.mapM ctx.load
  let toRemove := toRemove ++ toInsert.filterMap fun (e, _) => (state.operations e).map (e, ·)
  if toRemove = [] ∧ toInsert = [] ∧ b.newCommittee = [] then
    .error .noChange
  else
    .ok (ctx.build committee ⟨b.contractAddress, b.createUpdates ctx toRemove toInsert, b.counter⟩)

end ContractMaintenanceBuilder

/-- What the ledger asks of the signatures of an update. -/
structure Authorised (authority : Authority T) (update : MaintenanceUpdate T) : Prop where
  index : ∀ s ∈ update.signatures, authority.committee[s.1.toNat]? = some s.2.signer
  nodup : (update.signatures.map (·.1)).Nodup
  members : authority.threshold.toNat ≤
    ((update.signatures.map (·.2.signer)).dedup.filter (· ∈ authority.committee)).length

variable {authority : Authority T} {ctx : Context T} {b : ContractMaintenanceBuilder T}

theorem checkCommittee_ok :
    checkCommittee provided authority = .ok () ↔
      (∀ key ∈ provided, key ∈ authority.committee) ∧ authority.threshold.toNat ≤ provided.length := by
  unfold checkCommittee
  split_ifs with hmem hlen
  · exact iff_of_false nofun fun h => absurd h.2 (Nat.not_le.mpr hlen)
  · exact iff_of_true rfl ⟨hmem, Nat.not_lt.mp hlen⟩
  · exact iff_of_false nofun fun h => hmem h.1

section Signatures

omit [DecidableEq T.Key]

variable {committee : List T.Wallet} {data : UpdateData T}

theorem signers_build :
    (ctx.build committee data).signatures.map (·.2.signer) = committee.map ctx.verifyingKey :=
  List.ext_getElem (by simp [Context.build]) (by simp [Context.build])

theorem indices_build :
    (ctx.build committee data).signatures.map (·.1) = (List.range committee.length).map UInt32.ofNat :=
  List.ext_getElem (by simp [Context.build]) (by simp [Context.build])

/-- Signature numbers are 32-bit, so the numbers of more signatures repeat. -/
theorem nodup_ofNat_range : ((List.range n).map UInt32.ofNat).Nodup ↔ n ≤ 2 ^ 32 := by
  constructor
  · intro h
    by_contra hn
    have := List.inj_on_of_nodup_map h (x := 0) (List.mem_range.mpr (by omega)) (y := 2 ^ 32)
      (List.mem_range.mpr (by omega)) rfl
    cases this
  · intro hn
    refine List.Nodup.map_on ?_ List.nodup_range
    intro i hi j hj hij
    have := congrArg UInt32.toNat hij
    have hlt {k : Nat} (hk : k ∈ List.range n) : k < UInt32.size := (List.mem_range.mp hk).trans_le hn
    rwa [UInt32.toNat_ofNat_of_lt' (hlt hi), UInt32.toNat_ofNat_of_lt' (hlt hj)] at this

end Signatures

theorem authorised_build_iff (hnodup : authority.committee.Nodup)
    (hcheck : checkCommittee (committee.map ctx.verifyingKey) authority = .ok ()) :
    Authorised authority (ctx.build committee data) ↔
      committee.map ctx.verifyingKey <+: authority.committee ∧ committee.length ≤ 2 ^ 32 := by
  obtain ⟨hmem, hlen⟩ := checkCommittee_ok.mp hcheck
  have hindex (hsize : committee.length ≤ 2 ^ 32) :
      (∀ s ∈ (ctx.build committee data).signatures, authority.committee[s.1.toNat]? = some s.2.signer) ↔
        committee.map ctx.verifyingKey <+: authority.committee := by
    simp only [Context.build, List.mem_mapIdx, List.prefix_iff_getElem?, List.length_map,
      List.getElem_map, forall_exists_index]
    have hi {i : Nat} (h : i < committee.length) : (UInt32.ofNat i).toNat = i :=
      UInt32.toNat_ofNat_of_lt' (h.trans_le hsize)
    constructor
    · intro h i hlt
      have := h _ i hlt rfl
      rwa [hi hlt] at this
    · rintro h _ i hlt rfl
      rw [hi hlt]
      exact h i hlt
  constructor
  · intro h
    have hsize := nodup_ofNat_range.mp (indices_build ▸ h.nodup)
    exact ⟨(hindex hsize).mp h.index, hsize⟩
  · rintro ⟨hpre, hsize⟩
    refine ⟨(hindex hsize).mpr hpre, indices_build ▸ nodup_ofNat_range.mpr hsize, ?_⟩
    rw [signers_build, (hnodup.sublist hpre.sublist).dedup,
      List.filter_eq_self.mpr fun key hkey => decide_eq_true (hmem key hkey)]
    exact hlen

/-- Members that are given twice, or that the funding wallet is too, are counted once. -/
theorem checkCommittee_signingKeys
    (hmembers : ∀ wallet ∈ b.currentCommittee, ctx.verifyingKey wallet ∈ authority.committee)
    (hthreshold : authority.threshold.toNat ≤ (((b.currentCommittee ++ [b.fundingWallet]).map
      ctx.verifyingKey).dedup.filter (· ∈ authority.committee)).length) :
    checkCommittee (b.signingKeys ctx authority) authority = .ok () := by
  have hsigning (key : T.Key) : key ∈ b.signingKeys ctx authority ↔
      key ∈ b.currentCommittee.map ctx.verifyingKey ∨
        key = ctx.verifyingKey b.fundingWallet ∧ key ∈ authority.committee := by
    unfold ContractMaintenanceBuilder.signingKeys ContractMaintenanceBuilder.signingCommittee
    dsimp only
    split_ifs with h <;> grind
  refine checkCommittee_ok.mpr ⟨?_, hthreshold.trans ?_⟩
  · intro key hkey
    rcases (hsigning key).mp hkey with h | h
    · obtain ⟨wallet, hwallet, rfl⟩ := List.mem_map.mp h
      exact hmembers wallet hwallet
    · exact h.2
  · refine (List.Nodup.subperm ((List.nodup_dedup _).filter _) ?_).length_le
    intro key hkey
    obtain ⟨hkey, hmem⟩ := List.mem_filter.mp hkey
    rw [List.mem_dedup, List.map_append, List.mem_append] at hkey
    exact (hsigning key).mpr (hkey.imp_right fun h => ⟨List.mem_singleton.mp h, of_decide_eq_true hmem⟩)

/-- The update built is authorised exactly when its signers are the first committee members, in order. The check
before it asks only for enough signers of the committee, wherever they stand. -/
theorem maintenance_authorised_iff (b : ContractMaintenanceBuilder T) (ctx : Context T)
    (state : ContractState T) (hnodup : state.maintenanceAuthority.committee.Nodup) :
    (∀ update, b.buildTxsFrom ctx (some state) = .ok update →
      (Authorised state.maintenanceAuthority update ↔
        b.signingKeys ctx state.maintenanceAuthority <+: state.maintenanceAuthority.committee ∧
          (b.signingKeys ctx state.maintenanceAuthority).length ≤ 2 ^ 32)) ∧
    ((∀ wallet ∈ b.currentCommittee, ctx.verifyingKey wallet ∈ state.maintenanceAuthority.committee) →
      state.maintenanceAuthority.threshold.toNat ≤ (((b.currentCommittee ++ [b.fundingWallet]).map
        ctx.verifyingKey).dedup.filter (· ∈ state.maintenanceAuthority.committee)).length →
      checkCommittee (b.signingKeys ctx state.maintenanceAuthority) state.maintenanceAuthority =
        .ok ()) := by
  refine ⟨?_, checkCommittee_signingKeys⟩
  intro update h
  obtain ⟨_, hstate, h⟩ := of_bind h
  cases hstate
  obtain ⟨_, hcheck, h⟩ := of_bind h
  obtain ⟨_, -, h⟩ := of_bind h
  obtain ⟨_, -, h⟩ := of_bind h
  obtain ⟨-, h⟩ := of_check h
  cases h
  rw [authorised_build_iff hnodup hcheck, ContractMaintenanceBuilder.signingKeys, List.length_map]

/-! ## A committee of two -/

abbrev sampleTypes : Types := ⟨Unit, Nat, Nat, Nat, Nat, Nat, Nat⟩

def sampleContext : Context sampleTypes := ⟨id, fun path => .error (.invalidVerifierKeyName path)⟩

def sampleState (threshold : UInt32) : ContractState sampleTypes :=
  ⟨⟨[1, 2], threshold, 0⟩, fun _ => some 3⟩

/-- The first entry point is removed. -/
def sampleBuilder (wallets : List Nat) (funding : Nat) : ContractMaintenanceBuilder sampleTypes :=
  ⟨wallets, [], [], [0], none, 0, funding, ()⟩

def sampleUpdate (signatures : List (UInt32 × Nat)) : MaintenanceUpdate sampleTypes :=
  let data : UpdateData sampleTypes := ⟨(), [.verifierKeyRemove 0 3], 0⟩
  { data with signatures := signatures.map fun (i, signer) => (i, ⟨signer, data⟩) }

/-- The first member is given and the second one funds the transaction. -/
theorem maintenance_authorised_iff_both :
    (sampleBuilder [1] 2).buildTxsFrom sampleContext (some (sampleState 2)) =
        .ok (sampleUpdate [(0, 1), (1, 2)]) ∧
      Authorised (sampleState 2).maintenanceAuthority (sampleUpdate [(0, 1), (1, 2)]) := by
  refine ⟨rfl, ?_⟩
  have h := maintenance_authorised_iff (sampleBuilder [1] 2) sampleContext (sampleState 2) (by decide)
  exact (h.1 _ rfl).mpr ⟨by decide, by decide⟩

/-- The second member alone: its signature is added under the index of the first. -/
theorem signature_under_other_index :
    checkCommittee ((sampleBuilder [2] 7).signingKeys sampleContext (sampleState 1).maintenanceAuthority)
        (sampleState 1).maintenanceAuthority = .ok () ∧
      (sampleBuilder [2] 7).buildTxsFrom sampleContext (some (sampleState 1)) =
        .ok (sampleUpdate [(0, 2)]) ∧
      ¬ Authorised (sampleState 1).maintenanceAuthority (sampleUpdate [(0, 2)]) := by
  refine ⟨rfl, rfl, ?_⟩
  intro h
  have hindex := h.index (0, ⟨2, _⟩) (List.mem_singleton.mpr rfl)
  cases hindex

end MidnightNode.ContractMaintenance
