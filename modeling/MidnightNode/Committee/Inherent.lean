import MidnightNode.Committee.Pipeline
import MidnightNode.Committee.Selection

/-!
# The committee inherent

`ProvideInherent` of the committee pallet. A block author calls `createInherent` on the state after the
hooks of the new block, an importing node calls `checkInherent` and `isInherentRequired` on the state of the
parent. Both sides select again; a selection that fails keeps the committee that is queued when the author
asks.

The runtime's selection reads the D-parameter from the storage of the system parameters. A call that was
scheduled for the block runs in its hooks too, so the two sides can select with two D-parameters.
-/

namespace MidnightNode.Committee

inductive InherentError
  | committeeNeedsToBeStoredOneEpochInAdvance
  | invalidValidatorsMatchingHash (computed : List UInt8)
  | invalidValidatorsHashMismatch (computed given : List UInt8)
deriving DecidableEq

structure InherentConfig (Member Inputs : Type) where
  selectAuthorities : DParameter → Inputs → Nat → Option (List Member)
  selectionInputsHash : Inputs → List UInt8

structure RuntimeState (Member : Type) where
  pipeline : State Member
  dParameter : DParameter

variable {Member Inputs : Type}

namespace RuntimeState

def storage (rs : RuntimeState Member) : Storage Member := rs.pipeline.storage

/-- The hooks of a block in an epoch, with the D-parameter that a scheduled call sets. -/
def initializeBlock (epoch : Nat) (scheduled : Option DParameter) (rs : RuntimeState Member) :
    RuntimeState Member :=
  ⟨rs.pipeline.initializeBlock epoch, scheduled.getD rs.dParameter⟩

end RuntimeState

variable (cfg : InherentConfig Member Inputs)

def createInherent (data : Inputs) (rs : RuntimeState Member) : Option (SetCall Member) :=
  if rs.storage.nextCommittee.isSome then none
  else
    let forEpochNumber := rs.storage.queuedCommittee.epoch + 1
    match cfg.selectAuthorities rs.dParameter data forEpochNumber with
    | some validators => some ⟨validators, forEpochNumber, cfg.selectionInputsHash data⟩
    | none => some ⟨rs.storage.queuedCommittee.committee, forEpochNumber, cfg.selectionInputsHash data⟩

def checkInherent [DecidableEq Member] (call : SetCall Member) (data : Inputs) (rs : RuntimeState Member) :
    Except InherentError Unit :=
  let computed := cfg.selectionInputsHash data
  let validators := (cfg.selectAuthorities rs.dParameter data call.forEpochNumber).getD
    (rs.storage.nextCommittee.getD rs.storage.queuedCommittee).committee
  if call.validators ≠ validators then
    if call.selectionInputsHash = computed then .error (.invalidValidatorsMatchingHash computed)
    else .error (.invalidValidatorsHashMismatch computed call.selectionInputsHash)
  else .ok ()

def isInherentRequired (rs : RuntimeState Member) : Option InherentError :=
  if rs.storage.nextCommittee.isNone then some .committeeNeedsToBeStoredOneEpochInAdvance else none

/-- The committee of a selection that may fail. -/
def InherentConfig.committeeFor (dParameter : DParameter) (data : Inputs) (epoch : Nat)
    (kept : List Member) : List Member :=
  (cfg.selectAuthorities dParameter data epoch).getD kept

section

variable {cfg} {data : Inputs} {rs : RuntimeState Member} {call : SetCall Member}

theorem createInherent_some (h : createInherent cfg data rs = some call) :
    rs.storage.nextCommittee = none ∧
      call = ⟨cfg.committeeFor rs.dParameter data (rs.storage.queuedCommittee.epoch + 1)
        rs.storage.queuedCommittee.committee, rs.storage.queuedCommittee.epoch + 1,
        cfg.selectionInputsHash data⟩ := by
  unfold createInherent at h
  split at h
  case isTrue => cases h
  case isFalse hnext =>
    refine ⟨by simpa using hnext, ?_⟩
    unfold InherentConfig.committeeFor
    dsimp only at h
    split at h
    case h_1 validators hselect =>
      cases h
      simp [hselect]
    case h_2 hselect =>
      cases h
      simp [hselect]

theorem createInherent_none (h : createInherent cfg data rs = none) :
    rs.storage.nextCommittee.isSome = true := by
  unfold createInherent at h
  split at h
  case isTrue hnext => exact hnext
  case isFalse =>
    dsimp only at h
    split at h <;> cases h

theorem checkInherent_ok_iff [DecidableEq Member] :
    checkInherent cfg call data rs = .ok () ↔
      call.validators = cfg.committeeFor rs.dParameter data call.forEpochNumber
        (rs.storage.nextCommittee.getD rs.storage.queuedCommittee).committee := by
  unfold checkInherent InherentConfig.committeeFor
  dsimp only
  split
  case isTrue h =>
    refine iff_of_false (fun hok => ?_) h
    split at hok <;> cases hok
  case isFalse h => exact iff_of_true rfl (not_not.mp h)

/-- When no committee is stored after the hooks, the queued one is the one that the parent state has next
in line. -/
theorem queued_after_initializeBlock
    (h : (rs.initializeBlock epoch scheduled).storage.nextCommittee = none) :
    (rs.initializeBlock epoch scheduled).storage.queuedCommittee.committee =
      (rs.storage.nextCommittee.getD rs.storage.queuedCommittee).committee := by
  have hinit : rs.pipeline.Initialized epoch _ := State.initializeBlock_initialized
  unfold RuntimeState.initializeBlock RuntimeState.storage at h ⊢
  dsimp only at h ⊢
  generalize rs.pipeline.initializeBlock epoch = st at hinit h
  cases hinit with
  | stamped => simp_all
  | kept => simp_all
  | rotated _ hnext => simp [hnext]

theorem next_before_initializeBlock
    (h : (rs.initializeBlock epoch scheduled).storage.nextCommittee.isSome = true) :
    rs.storage.nextCommittee.isSome = true := by
  have hinit : rs.pipeline.Initialized epoch _ := State.initializeBlock_initialized
  unfold RuntimeState.initializeBlock RuntimeState.storage at h
  dsimp only at h
  generalize rs.pipeline.initializeBlock epoch = st at hinit h
  cases hinit with
  | stamped => exact h
  | kept => exact h
  | rotated => cases h

end

/-- The call that an author creates after the hooks of a block passes the check against the parent state
exactly when both select the same committee, so always if the hooks leave the D-parameter as it is; its
dispatch succeeds; and when no call is created, none is required. -/
theorem inherent_agreement [DecidableEq Member] (data : Inputs) (rs : RuntimeState Member) (epoch : Nat)
    (scheduled : Option DParameter) :
    let rs' := rs.initializeBlock epoch scheduled
    (∀ call, createInherent cfg data rs' = some call →
      (checkInherent cfg call data rs = .ok () ↔
        cfg.committeeFor rs'.dParameter data call.forEpochNumber rs'.storage.queuedCommittee.committee =
          cfg.committeeFor rs.dParameter data call.forEpochNumber
            rs'.storage.queuedCommittee.committee) ∧
      (rs'.dParameter = rs.dParameter → checkInherent cfg call data rs = .ok ()) ∧
      ∃ s, rs'.storage.set .none call = .ok s) ∧
    (createInherent cfg data rs' = none → isInherentRequired rs = none) := by
  intro rs'
  refine ⟨fun call hcall => ?_, fun hnone => ?_⟩
  · obtain ⟨hnext, heq⟩ := createInherent_some hcall
    have hcheck : checkInherent cfg call data rs = .ok () ↔ _ := checkInherent_ok_iff
    rw [← queued_after_initializeBlock hnext] at hcheck
    subst heq
    exact ⟨hcheck, fun hsame => hcheck.mpr (by rw [hsame]), _, Storage.set_of_none hnext rfl⟩
  · have hnext := next_before_initializeBlock (createInherent_none hnone)
    rw [isInherentRequired, if_neg]
    simpa [Option.isSome_iff_ne_none] using hnext

/-- `select_authorities_optionally_overriding`: the stored D-parameter replaces the observed one. -/
def runtimeConfig {SC Registration Permissioned : Type} [LinearOrder SC] (lib : RandomLibrary Nat)
    (filters : CandidateFilters Registration Permissioned SC) (toMember : SC → Member)
    (hash : AuthoritySelectionInputs Registration Permissioned → List UInt8) :
    InherentConfig Member (AuthoritySelectionInputs Registration Permissioned) where
  selectAuthorities dParameter input epoch :=
    match selectAuthorities lib filters toMember 10000 { input with dParameter := dParameter } epoch with
    | .ok committee => committee
    | .error _ => none
  selectionInputsHash := hash

/-- Candidates that are all valid, the registered ones of weight one. -/
def sampleConfig : InherentConfig Nat (AuthoritySelectionInputs Nat Nat) :=
  runtimeConfig (AriadneV2.sampleLibrary Nat) ⟨unitWeights, id⟩ id fun _ => []

def sampleInputs : AuthoritySelectionInputs Nat Nat := ⟨⟨0, 0⟩, [20], [], 0⟩

/-- The state after block 1 of epoch 5, which stored a committee for epoch 6. -/
def sampleParent : RuntimeState Nat :=
  ⟨(State.genesis 10000 [1]).run [⟨5, [(.none, ⟨[7], 6, []⟩)]⟩], ⟨1, 0⟩⟩

theorem inherent_agreement_sample :
    checkInherent sampleConfig ⟨[20], 7, []⟩ sampleInputs sampleParent = .ok () :=
  (((inherent_agreement sampleConfig sampleInputs sampleParent 6 none).1 ⟨[20], 7, []⟩
    (by decide +kernel)).2.1) rfl

/-- A scheduled call doubles the seats in the block of the rotation: the author selects two seats, the
check selects one. -/
theorem scheduled_d_parameter_rejected :
    createInherent sampleConfig sampleInputs (sampleParent.initializeBlock 6 (some ⟨2, 0⟩)) =
        some ⟨[20, 20], 7, []⟩ ∧
      checkInherent sampleConfig ⟨[20, 20], 7, []⟩ sampleInputs sampleParent =
        .error (.invalidValidatorsMatchingHash []) := by
  decide +kernel

end MidnightNode.Committee
