import MidnightNode.Committee.CandidateFilters
import MidnightNode.Lib.SortedSlice

/-!
# The order of observation does not matter

The data source groups registrations in a hash map, so that validators see the candidates, and the
registrations of a candidate, in different orders. They still select the same committee: of the registrations
of a candidate the latest counts, by its position on Cardano, and the candidates are sorted before seats are
assigned and drawn.
-/

namespace MidnightNode.Committee

/-! ## The latest registration -/

section

variable {α β : Type} [LinearOrder β] {f : α → β} {l l' : List α}

theorem argmax_eq_of_perm (h : l.Perm l') (hinj : ∀ a ∈ l, ∀ b ∈ l, f a = f b → a = b) :
    l.argmax f = l'.argmax f := by
  cases hmax : l.argmax f with
  | none =>
    rw [List.argmax_eq_none] at hmax
    subst hmax
    rw [List.nil_perm.mp h]
    rfl
  | some a =>
    have ha := List.argmax_mem hmax
    obtain ⟨b, hb⟩ : ∃ b, l'.argmax f = some b := by
      refine Option.ne_none_iff_exists'.mp fun hnone => ?_
      rw [List.argmax_eq_none.mp hnone] at h
      simp [List.perm_nil.mp h] at ha
    have hbl := h.symm.subset (List.argmax_mem hb)
    have hle := List.le_of_mem_argmax hbl hmax
    have hge := List.le_of_mem_argmax (h.subset ha) hb
    rw [hb, hinj a ha b hbl (le_antisymm hge hle)]

end

namespace CandidateRegistrations

/-- The registrations as Cardano shows them: a block and an index in it name one transaction, and no UTXO
occurs twice. -/
structure Observed (txAt : Nat → Nat → Bytes 32) (c : CandidateRegistrations) : Prop where
  txHash : ∀ r ∈ c.registrations,
    r.utxoInfo.utxoId.txHash = txAt r.utxoInfo.blockNumber r.utxoInfo.txIndexWithinBlock
  distinct : (c.registrations.map (·.utxoInfo.utxoId)).Nodup

structure Reordered (c c' : CandidateRegistrations) : Prop where
  stakePoolPublicKey : c.stakePoolPublicKey = c'.stakePoolPublicKey
  stakeDelegation : c.stakeDelegation = c'.stakeDelegation
  registrations : c.registrations.Perm c'.registrations

theorem Observed.eq_of_orderingKey {c : CandidateRegistrations} (h : c.Observed txAt)
    (hr : r ∈ c.registrations) (hr' : r' ∈ c.registrations)
    (hkey : r.utxoInfo.orderingKey = r'.utxoInfo.orderingKey) : r = r' := by
  simp only [UtxoInfo.orderingKey, toLex_inj, Prod.mk.injEq] at hkey
  obtain ⟨hblock, htx, hindex⟩ := hkey
  have hhash : r.utxoInfo.utxoId.txHash = r'.utxoInfo.utxoId.txHash := by
    rw [h.txHash r hr, h.txHash r' hr', hblock, htx]
  have hid : r.utxoInfo.utxoId = r'.utxoInfo.utxoId := by
    rw [McUtxoId.mk.injEq]
    exact ⟨hhash, UInt16.toNat_inj.mp hindex⟩
  exact List.inj_on_of_nodup_map h.distinct hr hr' hid

variable {AccountId AccountKeys : Type} {lib : CandidateLib AccountId AccountKeys}
  {txAt : Nat → Nat → Bytes 32} {genesisUtxo : McUtxoId} {c c' : CandidateRegistrations}

theorem Observed.valid_eq_of_orderingKey (h : c.Observed txAt)
    (hv : v ∈ validRegistrations lib genesisUtxo stakePoolPubKey c.registrations)
    (hv' : v' ∈ validRegistrations lib genesisUtxo stakePoolPubKey c.registrations)
    (hkey : v.2.orderingKey = v'.2.orderingKey) : v = v' := by
  obtain ⟨r, hr, hrv⟩ := List.mem_filterMap.mp hv
  obtain ⟨r', hr', hrv'⟩ := List.mem_filterMap.mp hv'
  obtain ⟨candidate, hvalid, rfl⟩ := Option.map_eq_some_iff.mp hrv
  obtain ⟨candidate', hvalid', rfl⟩ := Option.map_eq_some_iff.mp hrv'
  obtain rfl := h.eq_of_orderingKey hr hr' hkey
  rw [Option.some.inj (hvalid.symm.trans hvalid')]

theorem Reordered.selectLatestValidCandidate (h : c.Reordered c') (hobserved : c.Observed txAt) :
    selectLatestValidCandidate lib genesisUtxo c = selectLatestValidCandidate lib genesisUtxo c' := by
  have hperm := h.registrations.filterMap fun registration =>
    (validateRegistrationData lib c.stakePoolPublicKey registration genesisUtxo).toOption.map
      fun candidate => (candidate, registration.utxoInfo)
  have hmax : (validRegistrations lib genesisUtxo c.stakePoolPublicKey c.registrations).reverse.argmax
        (·.2.orderingKey) =
      (validRegistrations lib genesisUtxo c.stakePoolPublicKey c'.registrations).reverse.argmax
        (·.2.orderingKey) := by
    refine argmax_eq_of_perm ((List.reverse_perm _).trans (hperm.trans (List.reverse_perm _).symm)) ?_
    intro v hv v' hv' hkey
    exact hobserved.valid_eq_of_orderingKey (List.mem_reverse.mp hv) (List.mem_reverse.mp hv') hkey
  unfold Committee.selectLatestValidCandidate
  dsimp only
  rw [hmax, ← h.stakePoolPublicKey, ← h.stakeDelegation]

end CandidateRegistrations

/-- The registered candidates in another order, each with its registrations in another order. -/
def ReorderedCandidates (candidates candidates' : List CandidateRegistrations) : Prop :=
  ∃ between, List.Forall₂ CandidateRegistrations.Reordered candidates between ∧ between.Perm candidates'

section

variable {AccountId AccountKeys : Type} (lib : CandidateLib AccountId AccountKeys)
  {txAt : Nat → Nat → Bytes 32} (genesisUtxo : McUtxoId)

theorem filterTrustless_perm (h : ReorderedCandidates candidates candidates')
    (hobserved : ∀ c ∈ candidates, c.Observed txAt) :
    (filterTrustlessCandidatesRegistrations lib genesisUtxo candidates).Perm
      (filterTrustlessCandidatesRegistrations lib genesisUtxo candidates') := by
  obtain ⟨between, hinner, houter⟩ := h
  have hsame : candidates.filterMap (selectLatestValidCandidate lib genesisUtxo) =
      between.filterMap (selectLatestValidCandidate lib genesisUtxo) := by
    clear houter
    induction hinner with
    | nil => rfl
    | cons hc _ ih =>
      rw [List.forall_mem_cons] at hobserved
      rw [List.filterMap_cons, List.filterMap_cons, hc.selectLatestValidCandidate hobserved.1,
        ih hobserved.2]
  rw [filterTrustlessCandidatesRegistrations, hsame]
  exact (houter.filterMap _).map _

end

/-! ## Seats -/

section

variable {Seed : Type} {lib : RandomLibrary Seed} {SC : Type} [LinearOrder SC]

theorem candidateLe_iff {b : SC × Nat} : CandidateLe a b ↔ toLex a ≤ toLex b := Prod.Lex.le_iff.symm

instance CandidateLe.total : Std.Total (@CandidateLe SC _) :=
  ⟨fun a b => by simpa only [candidateLe_iff] using le_total (toLex a) (toLex b)⟩

instance CandidateLe.trans : IsTrans (SC × Nat) CandidateLe :=
  ⟨fun _ _ _ hab hbc => candidateLe_iff.mpr ((candidateLe_iff.mp hab).trans (candidateLe_iff.mp hbc))⟩

theorem CandidateLe.antisymm {b : SC × Nat} (hab : CandidateLe a b) (hba : CandidateLe b a) : a = b :=
  toLex.injective (le_antisymm (candidateLe_iff.mp hab) (candidateLe_iff.mp hba))

theorem weighted_eq_of_perm {candidates' : List (SC × Nat)} (h : candidates.Perm candidates')
    (n : UInt16) (rng : lib.Rng) :
    weightedWithGuaranteedAssignment lib candidates n rng =
      weightedWithGuaranteedAssignment lib candidates' n rng := by
  unfold weightedWithGuaranteedAssignment
  rw [h.isEmpty_eq, SortedSlice.insertionSort_eq_of_perm (fun _ _ _ _ hab hba => hab.antisymm hba) h]

namespace AriadneV2

variable {registered registered' : List (SC × Nat)}

theorem selectSeats_eq_of_perm (hreg : registered.Perm registered')
    (hper : permissioned.Perm permissioned') (r p : UInt16) (rng : lib.Rng) :
    selectSeats lib r p registered permissioned rng = selectSeats lib r p registered' permissioned' rng := by
  unfold selectSeats
  rw [hreg.isEmpty_eq, hper.isEmpty_eq]
  simp only [weighted_eq_of_perm hreg, weighted_eq_of_perm hper]

theorem selectAuthorities_eq_of_perm (hreg : registered.Perm registered')
    (hper : permissioned.Perm permissioned') (r p : UInt16) (seed : Seed) :
    selectAuthorities lib r p registered permissioned seed =
      selectAuthorities lib r p registered' permissioned' seed := by
  have hunit : (unitWeights permissioned).Perm (unitWeights permissioned') := hper.map _
  unfold selectAuthorities
  dsimp only
  rw [selectSeats_eq_of_perm hreg hunit]

end AriadneV2

end

/-- **Validators that observe the candidates in different orders select the same committee**, in the same
order. -/
theorem selection_order_independent {AccountId AccountKeys : Type} [LinearOrder AccountId]
    [LinearOrder AccountKeys] (random : RandomLibrary Nat) (lib : CandidateLib AccountId AccountKeys)
    (genesisUtxo : McUtxoId) (maxAuthorities : Nat) (dParameter : DParameter)
    (epochNonce sidechainEpoch : Nat) {txAt : Nat → Nat → Bytes 32}
    {registered registered' : List CandidateRegistrations}
    {permissioned permissioned' : List PermissionedCandidateData}
    (hobserved : ∀ c ∈ registered, c.Observed txAt) (hreg : ReorderedCandidates registered registered')
    (hper : permissioned.Perm permissioned') :
    selectAuthorities random (candidateFilters lib genesisUtxo) Candidate.toCommitteeMember maxAuthorities
        ⟨dParameter, permissioned, registered, epochNonce⟩ sidechainEpoch =
      selectAuthorities random (candidateFilters lib genesisUtxo) Candidate.toCommitteeMember
        maxAuthorities ⟨dParameter, permissioned', registered', epochNonce⟩ sidechainEpoch := by
  have hregistered := filterTrustless_perm lib genesisUtxo hreg hobserved
  have hpermissioned : (filterInvalidPermissionedCandidates lib permissioned).Perm
      (filterInvalidPermissionedCandidates lib permissioned') := hper.filterMap _
  unfold selectAuthorities candidateFilters
  dsimp only
  rw [AriadneV2.selectAuthorities_eq_of_perm hregistered hpermissioned]

/-- Every signature is accepted; the last byte of a key is the account. -/
def sampleCandidateLib : CandidateLib Nat Nat where
  keyIds := []
  decodeKeys _ := some 0
  accountId key := (key.data.getLast?.getD 0).toNat
  signedMessage _ _ _ := []
  ed25519Verify _ _ _ := true
  ecdsaVerify _ _ _ := true

/-- The registration of a key in the first transaction of a block. -/
def sampleRegistration (block : UInt8) (key : UInt8) : RegistrationData where
  registrationUtxo := ⟨.fill 32 0, 0⟩
  sidechainSignature := List.replicate 64 0
  mainchainSignature := .fill 64 0
  sidechainPubKey := List.replicate 33 key
  utxoInfo := ⟨⟨.fill 32 block, 0⟩, 0, block.toNat, 0, 0⟩
  txInputs := [⟨.fill 32 0, 0⟩]
  keys := []

/-- Two pools, one of which has registered a second time. -/
def sampleRegistered : List CandidateRegistrations :=
  [⟨.fill 32 1, [sampleRegistration 5 11, sampleRegistration 6 12], some 300⟩,
    ⟨.fill 32 2, [sampleRegistration 7 13], some 100⟩]

/-- The same in another order. -/
def sampleReordered : List CandidateRegistrations :=
  [⟨.fill 32 2, [sampleRegistration 7 13], some 100⟩,
    ⟨.fill 32 1, [sampleRegistration 6 12, sampleRegistration 5 11], some 300⟩]

theorem sampleRegistered_reordered : ReorderedCandidates sampleRegistered sampleReordered :=
  ⟨[⟨.fill 32 1, [sampleRegistration 6 12, sampleRegistration 5 11], some 300⟩,
      ⟨.fill 32 2, [sampleRegistration 7 13], some 100⟩],
    .cons ⟨rfl, rfl, .swap ..⟩ (.cons ⟨rfl, rfl, .rfl⟩ .nil), .swap ..⟩

theorem sampleRegistered_observed :
    ∀ c ∈ sampleRegistered, c.Observed fun block _ => .fill 32 (.ofNat block) := by
  intro c hc
  simp only [sampleRegistered, List.mem_cons, List.not_mem_nil, or_false] at hc
  rcases hc with rfl | rfl
  · exact ⟨by decide, by decide⟩
  · exact ⟨by decide, by decide⟩

/-- The second registration of the first pool counts, in whatever order it is seen. -/
theorem selection_order_independent_two_pools :
    selectAuthorities (AriadneV2.sampleLibrary Nat) (candidateFilters sampleCandidateLib ⟨.fill 32 0, 0⟩)
        Candidate.toCommitteeMember 10000 ⟨⟨0, 4⟩, [], sampleRegistered, 7⟩ 1 =
      .ok (some [.registered 12 0 (.fill 32 1), .registered 12 0 (.fill 32 1),
        .registered 12 0 (.fill 32 1), .registered 13 0 (.fill 32 2)]) :=
  (selection_order_independent _ _ _ _ _ _ _ sampleRegistered_observed sampleRegistered_reordered .nil).trans
    (by decide +kernel)

end MidnightNode.Committee
