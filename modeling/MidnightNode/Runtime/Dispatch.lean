import MidnightNode.Lib.Bytes
import MidnightNode.Pallet.FederatedAuthority

/-!
# Dispatch in the runtime

The calls of the runtime, the origins that its configuration names for them (`runtime/src/lib.rs`), the
filter for signed extrinsics (`runtime/src/check_call_filter.rs`), and dispatch through the collectives
and the motions.

The calls that can be reached with an origin other than Root, or that dispatch other calls, have a
constructor of their own. All others check their origin and then change the storage of their pallet
(`GatedCall`). Storage is split in two: `Outside` is what signed extrinsics should change through motions
only, the rest of `World` belongs to the collectives and to `frame_system`.
-/

namespace MidnightNode.Runtime
open FederatedAuthority

abbrev AccountId := Nat
abbrev Hash := Bytes 32
abbrev StateKey := List UInt8

inductive Body
  | council
  | technicalCommittee
deriving DecidableEq

def Body.palletIndex : Body → AuthId
  | .council => 40
  | .technicalCommittee => 42

/-- `pallet_collective::RawOrigin`. -/
inductive CollectiveOrigin
  | member (who : AccountId)
  | members (yes seats : Nat)
deriving DecidableEq

inductive Origin
  | root
  | signed (who : AccountId)
  | none
  | collective (body : Body) (origin : CollectiveOrigin)
deriving DecidableEq

/-- `pallet_collective::EnsureProportionAtLeast`. -/
def ensureProportionAtLeast (n d : Nat) (body : Body) : Origin → Bool
  | .collective b (.members yes seats) => decide (b = body) && decide (yes * d ≥ n * seats)
  | _ => false

/-! ## Calls -/

/-- The origins that a call accepts. -/
inductive Gate
  | root
  | none
  | signed
  | signedOrRoot
  | never
deriving DecidableEq

def Gate.accepts : Gate → Origin → Bool
  | .root, .root | .none, .none | .signed, .signed _ => true
  | .signedOrRoot, .signed _ | .signedOrRoot, .root => true
  | _, _ => false

inductive MembershipCall
  | addMember
  | removeMember
  | swapMember
  | resetMembers
  | changeKey
  | setPrime
  | clearPrime
deriving DecidableEq

inductive GatedCall
  | systemRemarkWithEvent | systemSetHeapPages | systemSetStorage | systemKillStorage | systemKillPrefix
  | timestampSet
  | babePlanConfigChange
  | grandpaNoteStalled
  | beefySetNewGenesis
  | migrationsForceSetCursor | migrationsForceSetActiveCursor | migrationsForceOnboardMbms
  | migrationsClearHistoric
  | midnightSetTxSizeWeight
  | midnightSystemSendMnSystemTransaction
  | sessionCommitteeSet | sessionCommitteeSetMainChainScripts
  | consensusEngineArmBabe | consensusEngineScheduleFlip
  | cNightProcessTokens | cNightSetMappingValidatorContractAddress | cNightSetCnightIdentifier
  | cNightSetAuthTokenAssetName
  | preimageNotePreimage | preimageUnnotePreimage | preimageRequestPreimage | preimageUnrequestPreimage
  | preimageEnsureUpdated
  | schedulerSetRetry | schedulerSetRetryNamed | schedulerCancelRetry | schedulerCancelRetryNamed
  | bridgeHandleTransfers | bridgeSetMainChainScripts
  | c2mSetSubminimalTransfersConfig | c2mAddApprovedMcTxHashes
  | membership (body : Body) (call : MembershipCall)
  | observationResetMembers | observationSetCouncilAddress | observationSetTechnicalCommitteeAddress
  | observationSetCouncilPolicyId | observationSetTechnicalCommitteePolicyId
  | parametersUpdateTermsAndConditions | parametersUpdateDParameter
deriving DecidableEq

def MembershipCall.gate : MembershipCall → Gate
  | .addMember | .removeMember | .swapMember | .setPrime | .clearPrime => .never
  | .resetMembers => .none
  | .changeKey => .signed

def GatedCall.gate : GatedCall → Gate
  | .systemRemarkWithEvent | .preimageEnsureUpdated => .signed
  | .preimageNotePreimage | .preimageUnnotePreimage => .signedOrRoot
  | .timestampSet | .sessionCommitteeSet | .cNightProcessTokens | .bridgeHandleTransfers
  | .observationResetMembers => .none
  | .membership _ call => call.gate
  | .systemSetHeapPages | .systemSetStorage | .systemKillStorage | .systemKillPrefix
  | .babePlanConfigChange | .grandpaNoteStalled | .beefySetNewGenesis
  | .migrationsForceSetCursor | .migrationsForceSetActiveCursor | .migrationsForceOnboardMbms
  | .migrationsClearHistoric | .midnightSetTxSizeWeight | .midnightSystemSendMnSystemTransaction
  | .sessionCommitteeSetMainChainScripts | .consensusEngineArmBabe | .consensusEngineScheduleFlip
  | .cNightSetMappingValidatorContractAddress | .cNightSetCnightIdentifier
  | .cNightSetAuthTokenAssetName | .preimageRequestPreimage | .preimageUnrequestPreimage
  | .schedulerSetRetry | .schedulerSetRetryNamed | .schedulerCancelRetry | .schedulerCancelRetryNamed
  | .bridgeSetMainChainScripts | .c2mSetSubminimalTransfersConfig | .c2mAddApprovedMcTxHashes
  | .observationSetCouncilAddress | .observationSetTechnicalCommitteeAddress
  | .observationSetCouncilPolicyId | .observationSetTechnicalCommitteePolicyId
  | .parametersUpdateTermsAndConditions | .parametersUpdateDParameter => .root

inductive ScheduleKind
  | schedule
  | scheduleNamed
  | scheduleAfter
  | scheduleNamedAfter
deriving DecidableEq

inductive CallName
  | remark
  | setCode (withoutChecks : Bool)
  | authorizeUpgrade (withoutChecks : Bool)
  | applyAuthorizedUpgrade
  | sendMnTransaction
  | execute (body : Body)
  | propose (body : Body)
  | vote (body : Body)
  | close (body : Body)
  | disapproveProposal (body : Body)
  | kill (body : Body)
  | releaseProposalCost (body : Body)
  | setMembers (body : Body)
  | motionApprove
  | motionRevoke
  | motionClose
  | schedule (kind : ScheduleKind)
  | cancel (named : Bool)
  | pause
  | unpause
  | gated (call : GatedCall)
deriving DecidableEq

inductive RuntimeCall
  | remark
  | setCode (withoutChecks : Bool) (code : List UInt8)
  | authorizeUpgrade (withoutChecks : Bool) (codeHash : Hash)
  | applyAuthorizedUpgrade (code : List UInt8)
  | sendMnTransaction (midnightTx : List UInt8)
  | execute (body : Body) (proposal : RuntimeCall) (lengthBound : Nat)
  | propose (body : Body) (threshold : Nat) (proposal : RuntimeCall) (lengthBound : Nat)
  | vote (body : Body) (proposalHash : Hash) (index : Nat) (approve : Bool)
  | close (body : Body) (proposalHash : Hash) (index : Nat) (proposalWeightBound : Weight)
      (lengthBound : Nat)
  | disapproveProposal (body : Body) (proposalHash : Hash)
  | kill (body : Body) (proposalHash : Hash)
  | releaseProposalCost (body : Body) (proposalHash : Hash)
  | setMembers (body : Body) (newMembers : List AccountId)
  | motionApprove (call : RuntimeCall)
  | motionRevoke (motionHash : Hash)
  | motionClose (motionHash : Hash) (proposalWeightBound : Weight)
  | schedule (kind : ScheduleKind) (call : RuntimeCall)
  | cancel (named : Bool) (index : Nat)
  | pause (name : CallName)
  | unpause (name : CallName)
  | gated (call : GatedCall) (args : List UInt8)
deriving DecidableEq

def RuntimeCall.name : RuntimeCall → CallName
  | .remark => .remark
  | .setCode withoutChecks _ => .setCode withoutChecks
  | .authorizeUpgrade withoutChecks _ => .authorizeUpgrade withoutChecks
  | .applyAuthorizedUpgrade _ => .applyAuthorizedUpgrade
  | .sendMnTransaction _ => .sendMnTransaction
  | .execute body _ _ => .execute body
  | .propose body _ _ _ => .propose body
  | .vote body _ _ _ => .vote body
  | .close body _ _ _ _ => .close body
  | .disapproveProposal body _ => .disapproveProposal body
  | .kill body _ => .kill body
  | .releaseProposalCost body _ => .releaseProposalCost body
  | .setMembers body _ => .setMembers body
  | .motionApprove _ => .motionApprove
  | .motionRevoke _ => .motionRevoke
  | .motionClose _ _ => .motionClose
  | .schedule kind _ => .schedule kind
  | .cancel named _ => .cancel named
  | .pause _ => .pause
  | .unpause _ => .unpause
  | .gated call _ => .gated call

/-- `GovernanceAuthorityCallFilter::contains`. -/
def callFilter : RuntimeCall → Bool
  | .execute _ _ _ | .propose _ _ _ _ | .vote _ _ _ _ | .close _ _ _ _ _ | .disapproveProposal _ _
  | .kill _ _ | .releaseProposalCost _ _ | .setMembers _ _ => true
  | .motionClose _ _ => true
  | .applyAuthorizedUpgrade _ => true
  | _ => false

/-! ## Storage -/

structure Proposal where
  call : RuntimeCall
  index : Nat
  threshold : Nat
  ayes : List AccountId
  nays : List AccountId
  endBlock : Nat

/-- The proposal with the vote of a member, unless the member has already voted so. -/
def Proposal.vote (p : Proposal) (who : AccountId) : Bool → Option Proposal
  | true =>
    if who ∈ p.ayes then none else some { p with ayes := p.ayes ++ [who], nays := p.nays.erase who }
  | false =>
    if who ∈ p.nays then none else some { p with ayes := p.ayes.erase who, nays := p.nays ++ [who] }

structure Collective where
  members : List AccountId
  proposals : AList fun _ : Hash => Proposal
  proposalCount : Nat

/-- The storage that signed extrinsics should change through motions only; `rest` is the storage of all
pallets that have no field here. -/
structure Outside (Rest : Type) where
  stateKey : StateKey
  code : List UInt8
  pausedCalls : List CallName
  agenda : List RuntimeCall
  rest : Rest

structure CodeUpgradeAuthorization where
  codeHash : Hash
  checkVersion : Bool
deriving DecidableEq

structure World (Rest : Type) where
  outside : Outside Rest
  council : Collective
  technicalCommittee : Collective
  authorizedUpgrade : Option CodeUpgradeAuthorization

namespace World

variable {Rest : Type}

def collective (w : World Rest) : Body → Collective
  | .council => w.council
  | .technicalCommittee => w.technicalCommittee

def setCollective (w : World Rest) : Body → Collective → World Rest
  | .council, council => { w with council }
  | .technicalCommittee, technicalCommittee => { w with technicalCommittee }

def setOutside (w : World Rest) (outside : Outside Rest) : World Rest := { w with outside }

def removeProposal (w : World Rest) (body : Body) (proposalHash : Hash) : World Rest :=
  let c := w.collective body
  w.setCollective body { c with proposals := c.proposals.erase proposalHash }

end World

/-- What a gated call or a hook changes. A change of the membership changes the collectives as well. -/
structure Changes (Rest : Type) where
  stateKey : StateKey
  rest : Rest
  council : Collective
  technicalCommittee : Collective

def World.apply {Rest : Type} (w : World Rest) (c : Changes Rest) : World Rest :=
  { w with
    outside := { w.outside with stateKey := c.stateKey, rest := c.rest }
    council := c.council
    technicalCommittee := c.technicalCommittee }

/-- The ledger, the pallets behind the gated calls, and the parameters of the collectives. The ledger and
the pallets also read the block number. -/
structure Env (Rest : Type) where
  hashOf : RuntimeCall → Hash
  callWeight : RuntimeCall → Weight
  encodedSize : RuntimeCall → Nat
  maxProposalWeight : Weight
  codeHash : List UInt8 → Hash
  canSetCode : List UInt8 → Bool → Bool
  applyTransaction : Nat → World Rest → List UInt8 → Except Nat StateKey
  effect : GatedCall → List UInt8 → Nat → World Rest → Except Nat (Changes Rest)

def minutes : Nat := 60000 / 6000

def hours : Nat := minutes * 60

def days : Nat := hours * 24

def motionDuration : Nat := 5 * days

def maxProposals : Nat := 100

def authorityBody (body : Body) : AuthorityBody Origin :=
  ⟨body.palletIndex, ensureProportionAtLeast 2 3 body⟩

theorem numerator_fits : (1 : UInt32).toNat * (2 : UInt32).toNat < 2 ^ 32 := by decide

theorem denominator_fits : (2 : UInt32).toNat * (1 : UInt32).toNat < 2 ^ 32 := by decide

theorem one_body_not_enough : (1 : UInt32).toNat < (1 : UInt32).toNat * (2 : UInt32).toNat := by decide

/-- `pallet_federated_authority::Config for Runtime`. -/
def Env.config {Rest : Type} (env : Env Rest) : Config Origin RuntimeCall Hash where
  hashOf := env.hashOf
  callWeight := env.callWeight
  isSigned
    | .signed _ => true
    | _ => false
  maxAuthorityBodies := 2
  motionDuration
  maxBlockNumber := 2 ^ 32 - 1
  numerator := 1
  denominator := 1
  approvalBodies := [authorityBody .council, authorityBody .technicalCommittee]
  revokeBodies := [authorityBody .council, authorityBody .technicalCommittee]
  numerator_fits := Runtime.numerator_fits
  denominator_fits := Runtime.denominator_fits
  several := one_body_not_enough

/-! ## Dispatch -/

inductive RuntimeError
  | callFiltered
  | notMember
  | wrongProposalLength
  | wrongProposalWeight
  | duplicateProposal
  | tooManyProposals
  | proposalMissing
  | wrongIndex
  | duplicateVote
  | tooEarly
  | nothingAuthorized
  | unauthorized
  | invalidCode
  | isPaused
  | isUnpaused
  | unpausable
  | notFound
  | ledger
  | failed
deriving DecidableEq

def fail {α : Type} (e : RuntimeError) : Except DispatchError α := .error (.other e.ctorIdx)

section

variable {Rest : Type} (env : Env Rest)

abbrev Env.State : Type := FederatedAuthority.State env.config (World Rest)

/-- How calls are dispatched: by an origin, from a state. -/
abbrev Env.Dispatcher : Type :=
  Origin → RuntimeCall → env.State → Except DispatchError env.State

variable {env}

/-- A dispatch that may fail: only its own changes are then undone. -/
def tryDispatch (inner : env.Dispatcher) (origin : Origin) (proposal : RuntimeCall)
    (s : env.State) : env.State :=
  match inner origin proposal s with
  | .ok s' => s'
  | .error _ => s

def execute (inner : env.Dispatcher) (body : Body) (proposal : RuntimeCall) (lengthBound : Nat)
    (origin : Origin) (s : env.State) : Except DispatchError env.State :=
  match origin with
  | .signed who =>
    if who ∉ (s.world.collective body).members then fail .notMember
    else if env.encodedSize proposal > lengthBound then fail .wrongProposalLength
    else .ok (tryDispatch inner (.collective body (.member who)) proposal s)
  | _ => .error .badOrigin

def propose (inner : env.Dispatcher) (body : Body) (threshold : Nat) (proposal : RuntimeCall)
    (lengthBound : Nat) (origin : Origin) (s : env.State) : Except DispatchError env.State :=
  match origin with
  | .signed who =>
    let c := s.world.collective body
    if who ∉ c.members then fail .notMember
    else if env.encodedSize proposal > lengthBound then fail .wrongProposalLength
    else if !(env.callWeight proposal).allLte env.maxProposalWeight then fail .wrongProposalWeight
    else if env.hashOf proposal ∈ c.proposals then fail .duplicateProposal
    else if threshold < 2 then
      .ok (tryDispatch inner (.collective body (.members 1 c.members.length)) proposal s)
    else if c.proposals.keys.length ≥ maxProposals then fail .tooManyProposals
    else
      let p : Proposal :=
        { call := proposal, index := c.proposalCount, threshold, ayes := [], nays := []
          endBlock := s.blockNumber + motionDuration }
      let c := { c with
        proposals := c.proposals.insert (env.hashOf proposal) p
        proposalCount := c.proposalCount + 1 }
      .ok { s with world := s.world.setCollective body c }
  | _ => .error .badOrigin

def vote (body : Body) (proposalHash : Hash) (index : Nat) (approve : Bool) (origin : Origin)
    (s : env.State) : Except DispatchError env.State :=
  match origin with
  | .signed who =>
    let c := s.world.collective body
    if who ∉ c.members then fail .notMember
    else
      match c.proposals.lookup proposalHash with
      | none => fail .proposalMissing
      | some p =>
        if p.index ≠ index then fail .wrongIndex
        else
          match p.vote who approve with
          | none => fail .duplicateVote
          | some p =>
            let c := { c with proposals := c.proposals.insert proposalHash p }
            .ok { s with world := s.world.setCollective body c }
  | _ => .error .badOrigin

/-- Members that have not voted count as nays (`AlwaysNo`), so a proposal is approved by its ayes or
not at all. -/
def close (inner : env.Dispatcher) (body : Body) (proposalHash : Hash) (index : Nat)
    (proposalWeightBound : Weight) (lengthBound : Nat) (origin : Origin) (s : env.State) :
    Except DispatchError env.State :=
  match origin with
  | .signed _ =>
    let c := s.world.collective body
    match c.proposals.lookup proposalHash with
    | none => fail .proposalMissing
    | some p =>
      if p.index ≠ index then fail .wrongIndex
      else if p.ayes.length ≥ p.threshold then
        if env.encodedSize p.call > lengthBound then fail .wrongProposalLength
        else if !(env.callWeight p.call).allLte proposalWeightBound then fail .wrongProposalWeight
        else
          let s := tryDispatch inner
            (.collective body (.members p.ayes.length c.members.length)) p.call s
          .ok { s with world := s.world.removeProposal body proposalHash }
      else if c.members.length - p.nays.length < p.threshold ∨ s.blockNumber ≥ p.endBlock then
        .ok { s with world := s.world.removeProposal body proposalHash }
      else fail .tooEarly
  | _ => .error .badOrigin

/-- `send_mn_transaction` does not look at its origin. -/
def sendMnTransaction (midnightTx : List UInt8) (_origin : Origin) (s : env.State) :
    Except DispatchError env.State :=
  match env.applyTransaction s.blockNumber s.world midnightTx with
  | .error _ => fail .ledger
  | .ok newStateKey =>
    .ok { s with world := s.world.setOutside { s.world.outside with stateKey := newStateKey } }

/-- Nor does `apply_authorized_upgrade`. Code that is authorised but not valid only uses up the
authorisation. -/
def applyAuthorizedUpgrade (code : List UInt8) (_origin : Origin) (s : env.State) :
    Except DispatchError env.State :=
  match s.world.authorizedUpgrade with
  | none => fail .nothingAuthorized
  | some authorization =>
    if env.codeHash code ≠ authorization.codeHash then fail .unauthorized
    else if env.canSetCode code authorization.checkVersion then
      let world := s.world.setOutside { s.world.outside with code }
      .ok { s with world := { world with authorizedUpgrade := none } }
    else .ok { s with world := { s.world with authorizedUpgrade := none } }

/-- A call that changes the world if its origin is accepted. -/
def gatedBy (gate : Gate) (origin : Origin) (s : env.State)
    (f : World Rest → Except DispatchError (World Rest)) : Except DispatchError env.State :=
  if gate.accepts origin then
    match f s.world with
    | .ok world => .ok { s with world }
    | .error e => .error e
  else .error .badOrigin

/-- A call, with `inner` for the calls it dispatches. `TxPause` is the base filter of all origins but
Root. -/
def dispatchWith (inner : env.Dispatcher) : env.Dispatcher := fun origin call s =>
  if origin ≠ .root ∧ call.name ∈ s.world.outside.pausedCalls then fail .callFiltered
  else
    match call with
    | .remark => .ok s
    | .setCode withoutChecks code => gatedBy .root origin s fun w =>
        if withoutChecks || env.canSetCode code true then .ok (w.setOutside { w.outside with code })
        else fail .invalidCode
    | .authorizeUpgrade withoutChecks codeHash => gatedBy .root origin s fun w =>
        .ok { w with authorizedUpgrade := some ⟨codeHash, !withoutChecks⟩ }
    | .applyAuthorizedUpgrade code => applyAuthorizedUpgrade code origin s
    | .sendMnTransaction midnightTx => sendMnTransaction midnightTx origin s
    | .execute body proposal lengthBound => execute inner body proposal lengthBound origin s
    | .propose body threshold proposal lengthBound =>
      propose inner body threshold proposal lengthBound origin s
    | .vote body proposalHash index approve => vote body proposalHash index approve origin s
    | .close body proposalHash index weightBound lengthBound =>
      close inner body proposalHash index weightBound lengthBound origin s
    | .disapproveProposal body proposalHash | .kill body proposalHash =>
      gatedBy .root origin s fun w => .ok (w.removeProposal body proposalHash)
    | .releaseProposalCost _ _ => gatedBy .signedOrRoot origin s .ok
    | .setMembers _ _ => gatedBy .never origin s .ok
    | .motionApprove call => motionApprove origin call s
    | .motionRevoke motionHash => motionRevoke origin motionHash s
    | .motionClose motionHash weightBound => motionClose (inner .root) origin motionHash weightBound s
    | .schedule _ call => gatedBy .root origin s fun w =>
        .ok (w.setOutside { w.outside with agenda := w.outside.agenda ++ [call] })
    | .cancel _ index => gatedBy .root origin s fun w =>
        if index < w.outside.agenda.length then
          .ok (w.setOutside { w.outside with agenda := w.outside.agenda.eraseIdx index })
        else fail .notFound
    | .pause name => gatedBy .root origin s fun w =>
        if name = .pause ∨ name = .unpause then fail .unpausable
        else if name ∈ w.outside.pausedCalls then fail .isPaused
        else .ok (w.setOutside { w.outside with pausedCalls := name :: w.outside.pausedCalls })
    | .unpause name => gatedBy .root origin s fun w =>
        if name ∈ w.outside.pausedCalls then
          .ok (w.setOutside { w.outside with pausedCalls := w.outside.pausedCalls.erase name })
        else fail .isUnpaused
    | .gated call args => gatedBy call.gate origin s fun w =>
        match env.effect call args s.blockNumber w with
        | .ok changes => .ok (w.apply changes)
        | .error _ => fail .failed

/-- Dispatch of a call that dispatches no other. -/
def dispatchLeaf : env.Dispatcher := dispatchWith fun _ _ _ => .error .badOrigin

/-- Dispatch. A call is dispatched by another one only with an origin that is not signed, and such a
call dispatches no other (`dispatch_eq`). -/
def dispatch : env.Dispatcher := dispatchWith dispatchLeaf

/-! ## What dispatch can do -/

def Origin.isSigned : Origin → Bool
  | .signed _ => true
  | _ => false

theorem motionClose_of_not_signed {dispatch : RuntimeCall → env.State → Except DispatchError env.State}
    {origin : Origin} {motionHash : Hash} {bound : Weight} {s : env.State}
    (h : origin.isSigned = false) :
    motionClose dispatch origin motionHash bound s = .error .badOrigin := by
  unfold motionClose
  cases origin with
  | signed who => cases h
  | root | none | collective => rfl

theorem dispatchWith_of_not_signed {inner : env.Dispatcher} (h : origin.isSigned = false)
    (call : RuntimeCall) (s : env.State) :
    dispatchWith inner origin call s = dispatchWith inner' origin call s := by
  unfold dispatchWith
  split
  case isTrue => rfl
  case isFalse =>
    cases call with
    | execute | propose | close =>
      cases origin with
      | signed who => cases h
      | root | none | collective => rfl
    | motionClose motionHash bound =>
      simp only
      rw [motionClose_of_not_signed h, motionClose_of_not_signed h]
    | _ => rfl

theorem tryDispatch_congr {inner : env.Dispatcher} (h : inner origin call s = inner' origin call s) :
    tryDispatch inner origin call s = tryDispatch inner' origin call s := by
  unfold tryDispatch
  rw [h]

theorem dispatchWith_congr {inner : env.Dispatcher}
    (h : ∀ origin, origin.isSigned = false → ∀ call s, inner origin call s = inner' origin call s) :
    dispatchWith inner = dispatchWith inner' := by
  funext origin call s
  unfold dispatchWith
  split
  case isTrue => rfl
  case isFalse =>
    cases call with
    | execute body proposal lengthBound =>
      simp only [execute, tryDispatch_congr (h (.collective body _) rfl _ _)]
    | propose body threshold proposal lengthBound =>
      simp only [propose, tryDispatch_congr (h (.collective body _) rfl _ _)]
    | close body proposalHash index weightBound lengthBound =>
      simp only [close, tryDispatch_congr (h (.collective body _) rfl _ _)]
    | motionClose motionHash bound =>
      have hroot : inner .root = inner' .root := by
        funext call s
        exact h .root rfl call s
      simp only [hroot]
    | _ => rfl

theorem dispatch_of_not_signed (h : origin.isSigned = false) (call : RuntimeCall) (s : env.State) :
    dispatch origin call s = dispatchLeaf origin call s :=
  dispatchWith_of_not_signed h call s

/-- `dispatch` follows calls to any depth. -/
theorem dispatch_eq : (dispatch : env.Dispatcher) = dispatchWith dispatch := by
  refine dispatchWith_congr ?_
  intro origin h call s
  exact (dispatch_of_not_signed h call s).symm

end

end MidnightNode.Runtime
