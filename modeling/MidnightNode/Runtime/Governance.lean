import MidnightNode.Runtime.Dispatch

/-!
# Signed extrinsics act through motions

The filter for signed extrinsics lets calls of the collectives pass whatever they carry. A collective
dispatches what it carries with an origin of its own, which almost no call accepts: a motion can be
approved or revoked, and two calls do not look at their origin.
-/

namespace MidnightNode.Runtime
open Fallible FederatedAuthority

variable {Rest : Type} {env : Env Rest}

/-! ## Calls whose origin is not signed -/

section

variable {origin : Origin} {call : RuntimeCall} {s s' : env.State}

theorem gatedBy_inv (h : gatedBy gate origin s f = .ok s') :
    gate.accepts origin = true ∧ ∃ world, f s.world = .ok world ∧ s' = { s with world } := by
  unfold gatedBy at h
  obtain ⟨haccepts, h⟩ := of_condition h
  split at h
  case h_1 world hf =>
    cases h
    exact ⟨haccepts, world, hf, rfl⟩
  case h_2 => cases h

theorem Gate.root_accepts (h : Gate.root.accepts origin = true) : origin = .root := by
  cases origin with
  | root => rfl
  | signed | none | collective => cases h

structure Provenance (origin : Origin) (call : RuntimeCall) (w w' : World Rest) : Prop where
  agenda : ∀ c ∈ w'.outside.agenda,
    c ∈ w.outside.agenda ∨ origin = .root ∧ ∃ kind, call = .schedule kind c
  upgrade : ∀ authorization, w'.authorizedUpgrade = some authorization →
    w.authorizedUpgrade = some authorization ∨
      origin = .root ∧ ∃ withoutChecks, call = .authorizeUpgrade withoutChecks authorization.codeHash

theorem Provenance.of_eq {w w' : World Rest} (hagenda : w'.outside.agenda = w.outside.agenda)
    (hupgrade : w'.authorizedUpgrade = w.authorizedUpgrade) : Provenance origin call w w' := by
  refine ⟨fun c hc => .inl ?_, fun a ha => .inl ?_⟩
  · rw [← hagenda]
    exact hc
  · rw [← hupgrade]
    exact ha

/-- What a call does whose origin is not signed. -/
inductive LeafStep (origin : Origin) (call : RuntimeCall) (s : env.State) : env.State → Prop
  | approve (c : RuntimeCall) (s' : env.State) (h : motionApprove origin c s = .ok s') :
      LeafStep origin call s s'
  | revoke (motionHash : Hash) (s' : env.State) (h : motionRevoke origin motionHash s = .ok s') :
      LeafStep origin call s s'
  | world (world : World Rest) (h : Provenance origin call s.world world) :
      LeafStep origin call s { s with world }

theorem World.removeProposal_outside (w : World Rest) (body : Body) (proposalHash : Hash) :
    (w.removeProposal body proposalHash).outside = w.outside := by
  cases body <;> rfl

theorem World.removeProposal_upgrade (w : World Rest) (body : Body) (proposalHash : Hash) :
    (w.removeProposal body proposalHash).authorizedUpgrade = w.authorizedUpgrade := by
  cases body <;> rfl

theorem sendMnTransaction_inv (h : sendMnTransaction midnightTx origin s = .ok s') :
    ∃ key, env.applyTransaction s.blockNumber s.world midnightTx = .ok key ∧
      s' = { s with world := s.world.setOutside { s.world.outside with stateKey := key } } := by
  unfold sendMnTransaction at h
  split at h
  case h_1 => cases h
  case h_2 key hkey =>
    cases h
    exact ⟨key, hkey, rfl⟩

theorem applyAuthorizedUpgrade_inv (h : applyAuthorizedUpgrade code origin s = .ok s') :
    ∃ authorization, s.world.authorizedUpgrade = some authorization ∧
      env.codeHash code = authorization.codeHash ∧
      ∃ outside, (outside = { s.world.outside with code } ∨ outside = s.world.outside) ∧
        s' = { s with world := { s.world with outside, authorizedUpgrade := none } } := by
  unfold applyAuthorizedUpgrade at h
  split at h
  case h_1 => cases h
  case h_2 authorization hauth =>
    obtain ⟨hcode, h⟩ := of_check h
    rw [not_not] at hcode
    split at h
    case isTrue =>
      cases h
      exact ⟨authorization, hauth, hcode, _, .inl rfl, rfl⟩
    case isFalse =>
      cases h
      exact ⟨authorization, hauth, hcode, _, .inr rfl, rfl⟩

theorem dispatchLeaf_step (horigin : origin.isSigned = false)
    (h : dispatchLeaf origin call s = .ok s') : LeafStep origin call s s' := by
  unfold dispatchLeaf dispatchWith at h
  split at h
  case isTrue => cases h
  case isFalse =>
    cases call with
    | remark =>
      cases h
      exact .world s.world (.of_eq rfl rfl)
    | motionApprove c => exact .approve c s' h
    | motionRevoke motionHash => exact .revoke motionHash s' h
    | motionClose motionHash bound => cases (motionClose_of_not_signed horigin).symm.trans h
    | execute | propose | vote | close =>
      cases origin with
      | signed who => cases horigin
      | root | none | collective => cases h
    | sendMnTransaction midnightTx =>
      obtain ⟨key, _, rfl⟩ := sendMnTransaction_inv h
      exact .world _ (.of_eq rfl rfl)
    | applyAuthorizedUpgrade code =>
      obtain ⟨authorization, _, _, outside, houtside, rfl⟩ := applyAuthorizedUpgrade_inv h
      refine .world _ ⟨fun c hc => .inl ?_, fun a ha => by cases ha⟩
      rcases houtside with rfl | rfl <;> exact hc
    | setCode withoutChecks code | unpause name =>
      obtain ⟨_, world, hf, rfl⟩ := gatedBy_inv h
      obtain ⟨_, hf⟩ := of_condition hf
      cases hf
      exact .world _ (.of_eq rfl rfl)
    | authorizeUpgrade withoutChecks codeHash =>
      obtain ⟨haccepts, world, hf, rfl⟩ := gatedBy_inv h
      cases hf
      refine .world _ ⟨fun c hc => .inl hc, fun a ha => .inr ⟨Gate.root_accepts haccepts, ?_⟩⟩
      cases ha
      exact ⟨withoutChecks, rfl⟩
    | disapproveProposal body proposalHash | kill body proposalHash =>
      obtain ⟨_, world, hf, rfl⟩ := gatedBy_inv h
      cases hf
      refine .world _ (.of_eq ?_ (World.removeProposal_upgrade _ _ _))
      rw [World.removeProposal_outside]
    | releaseProposalCost | setMembers =>
      obtain ⟨_, world, hf, rfl⟩ := gatedBy_inv h
      cases hf
      exact .world _ (.of_eq rfl rfl)
    | schedule kind c =>
      obtain ⟨haccepts, world, hf, rfl⟩ := gatedBy_inv h
      cases hf
      refine .world _ ⟨fun c' hc' => ?_, fun a ha => .inl ha⟩
      rcases List.mem_append.mp hc' with hc' | hc'
      · exact .inl hc'
      · rw [List.mem_singleton.mp hc']
        exact .inr ⟨Gate.root_accepts haccepts, kind, rfl⟩
    | cancel named index =>
      obtain ⟨_, world, hf, rfl⟩ := gatedBy_inv h
      obtain ⟨_, hf⟩ := of_condition hf
      cases hf
      exact .world _ ⟨fun c hc => .inl (List.mem_of_mem_eraseIdx hc), fun a ha => .inl ha⟩
    | pause name =>
      obtain ⟨_, world, hf, rfl⟩ := gatedBy_inv h
      obtain ⟨_, hf⟩ := of_check hf
      obtain ⟨_, hf⟩ := of_check hf
      cases hf
      exact .world _ (.of_eq rfl rfl)
    | gated c args =>
      obtain ⟨_, world, hf, rfl⟩ := gatedBy_inv h
      split at hf
      case h_1 changes _ =>
        cases hf
        exact .world _ (.of_eq rfl rfl)
      case h_2 => cases hf

theorem motionApprove_world (h : motionApprove origin c s = .ok s') : s'.world = s.world := by
  obtain ⟨authId, motion, _, _, rfl⟩ := motionApprove_inv h
  rfl

theorem motionRevoke_world (h : motionRevoke origin motionHash s = .ok s') : s'.world = s.world := by
  obtain ⟨authId, old, motion, _, rfl⟩ := motionRevoke_inv h
  split <;> rfl

theorem gatedBy_collective : gatedBy gate (.collective body o) s f = .error .badOrigin := by
  unfold gatedBy
  cases gate <;> rfl

/-- What a collective can change outside. -/
inductive CollectiveEffect (call : RuntimeCall) (s : env.State) (outside : Outside Rest) : Prop
  | none (h : outside = s.world.outside)
  | sent (midnightTx : List UInt8) (key : StateKey) (hcall : call = .sendMnTransaction midnightTx)
      (hactive : CallName.sendMnTransaction ∉ s.world.outside.pausedCalls)
      (hkey : env.applyTransaction s.blockNumber s.world midnightTx = .ok key)
      (h : outside = { s.world.outside with stateKey := key })
  | upgraded (code : List UInt8) (authorization : CodeUpgradeAuthorization)
      (hcall : call = .applyAuthorizedUpgrade code)
      (hauth : s.world.authorizedUpgrade = some authorization)
      (hcode : env.codeHash code = authorization.codeHash)
      (h : outside = { s.world.outside with code })

theorem dispatchLeaf_collective (h : dispatchLeaf (.collective body o) call s = .ok s') :
    CollectiveEffect call s s'.world.outside := by
  unfold dispatchLeaf dispatchWith at h
  split at h
  case isTrue => cases h
  case isFalse hactive =>
    cases call with
    | remark =>
      cases h
      exact .none rfl
    | motionApprove c => exact .none (by rw [motionApprove_world h])
    | motionRevoke motionHash => exact .none (by rw [motionRevoke_world h])
    | motionClose motionHash bound =>
      have horigin : (Origin.collective body o).isSigned = false := rfl
      cases (motionClose_of_not_signed horigin).symm.trans h
    | sendMnTransaction midnightTx =>
      obtain ⟨key, hkey, rfl⟩ := sendMnTransaction_inv h
      exact .sent midnightTx key rfl (fun hp => hactive ⟨nofun, hp⟩) hkey rfl
    | applyAuthorizedUpgrade code =>
      obtain ⟨authorization, hauth, hcode, outside, houtside | houtside, rfl⟩ :=
        applyAuthorizedUpgrade_inv h
      · exact .upgraded code authorization rfl hauth hcode houtside
      · exact .none houtside
    | execute | propose | vote | close => cases h
    | setCode | authorizeUpgrade | disapproveProposal | kill | releaseProposalCost | setMembers
    | schedule | cancel | pause | unpause | gated =>
      cases gatedBy_collective.symm.trans h

end

/-! ## Runs -/

/-- What happens in the runtime. Hooks change the storage of their pallets, and the scheduler dispatches
what is on the agenda. -/
inductive Step (Rest : Type)
  | signed (who : AccountId) (call : RuntimeCall)
  | unsigned (call : RuntimeCall)
  | hook (blocks : Nat) (changes : Changes Rest)
  | service (index : Nat)

/-- A signed extrinsic that the filter does not let pass is not part of a block. -/
def step (s : env.State) : Step Rest → env.State
  | .signed who call => if callFilter call then tryDispatch dispatch (.signed who) call s else s
  | .unsigned call => tryDispatch dispatch .none call s
  | .hook blocks changes =>
    { s with blockNumber := s.blockNumber + blocks, world := s.world.apply changes }
  | .service index =>
    match s.world.outside.agenda[index]? with
    | none => s
    | some call =>
      let outside := { s.world.outside with agenda := s.world.outside.agenda.eraseIdx index }
      tryDispatch dispatch .root call { s with world := s.world.setOutside outside }

def run (s : env.State) (steps : List (Step Rest)) : env.State := steps.foldl step s

/-- Nothing is scheduled and no upgrade is authorised at genesis. -/
def genesis (env : Env Rest) (stateKey : StateKey) (code : List UInt8) (rest : Rest)
    (council technicalCommittee : Collective) : env.State :=
  .genesis env.config
    { outside := { stateKey, code, pausedCalls := [], agenda := [], rest }
      council, technicalCommittee, authorizedUpgrade := none }

/-! ## Where changes come from -/

/-- The calls that a call dispatched with the Root origin leads to. -/
inductive Carries (root : RuntimeCall) : RuntimeCall → Prop
  | self : Carries root root
  | scheduled {kind : ScheduleKind} {call : RuntimeCall} (h : Carries root (.schedule kind call)) :
      Carries root call

/-- The call was dispatched by the close of a motion that had a quorum. -/
def ApprovedDispatch (env : Env Rest) (log : List (Entry RuntimeCall Hash)) (call : RuntimeCall) : Prop :=
  ∃ before motionHash after life, log = before ++ .rootDispatch motionHash call :: after ∧
    lifeOf motionHash before = some life ∧ StandingQuorum env.config life

/-- Every scheduled call and every authorised upgrade goes back to the close of a motion. -/
structure Sourced (s : env.State) : Prop where
  agenda : ∀ call ∈ s.world.outside.agenda,
    ∃ motionHash root, .rootDispatch motionHash root ∈ s.log ∧ Carries root call
  upgrade : ∀ authorization, s.world.authorizedUpgrade = some authorization →
    ∃ motionHash root withoutChecks, .rootDispatch motionHash root ∈ s.log ∧
      Carries root (.authorizeUpgrade withoutChecks authorization.codeHash)

/-- The invariant of reachable states. -/
structure Governed (s : env.State) : Prop where
  motions : Inv env.config (fun _ => 0) s
  sourced : Sourced s

/-! ## What a collective dispatches -/

/-- The call that a signed call of a collective dispatches, and its origin. -/
inductive Dispatches (s : env.State) (who : AccountId) :
    RuntimeCall → Body → CollectiveOrigin → RuntimeCall → Prop
  | execute {body : Body} {proposal : RuntimeCall} {lengthBound : Nat}
      (hactive : CallName.execute body ∉ s.world.outside.pausedCalls)
      (hmember : who ∈ (s.world.collective body).members)
      (hlength : env.encodedSize proposal ≤ lengthBound) :
      Dispatches s who (.execute body proposal lengthBound) body (.member who) proposal
  | propose {body : Body} {threshold : Nat} {proposal : RuntimeCall} {lengthBound : Nat}
      (hactive : CallName.propose body ∉ s.world.outside.pausedCalls)
      (hmember : who ∈ (s.world.collective body).members) (hthreshold : threshold < 2)
      (hlength : env.encodedSize proposal ≤ lengthBound)
      (hweight : (env.callWeight proposal).allLte env.maxProposalWeight = true)
      (hnew : env.hashOf proposal ∉ (s.world.collective body).proposals) :
      Dispatches s who (.propose body threshold proposal lengthBound) body
        (.members 1 (s.world.collective body).members.length) proposal
  | close {body : Body} {proposalHash : Hash} {weightBound : Weight} {lengthBound : Nat} {p : Proposal}
      (hactive : CallName.close body ∉ s.world.outside.pausedCalls)
      (hlookup : (s.world.collective body).proposals.lookup proposalHash = some p)
      (happroved : p.threshold ≤ p.ayes.length)
      (hlength : env.encodedSize p.call ≤ lengthBound)
      (hweight : (env.callWeight p.call).allLte weightBound = true) :
      Dispatches s who (.close body proposalHash p.index weightBound lengthBound) body
        (.members p.ayes.length (s.world.collective body).members.length) p.call

/-- What a signed call that the filter lets pass can do. -/
inductive SignedStep (s : env.State) (who : AccountId) (call : RuntimeCall) : env.State → Prop
  | collective (body : Body) (o : CollectiveOrigin) (inner : RuntimeCall)
      (hdispatches : Dispatches s who call body o inner) (t : env.State)
      (ht : t = tryDispatch dispatchLeaf (.collective body o) inner s) (world : World Rest)
      (houtside : world.outside = t.world.outside)
      (hupgrade : world.authorizedUpgrade = t.world.authorizedUpgrade) :
      SignedStep s who call { t with world }
  | bookkeeping (world : World Rest) (houtside : world.outside = s.world.outside)
      (hupgrade : world.authorizedUpgrade = s.world.authorizedUpgrade) :
      SignedStep s who call { s with world }
  | closed (motionHash : Hash) (bound : Weight) (hcall : call = .motionClose motionHash bound)
      (s' : env.State)
      (h : motionClose (dispatchLeaf .root) (.signed who) motionHash bound s = .ok s') :
      SignedStep s who call s'
  | upgraded (code : List UInt8) (hcall : call = .applyAuthorizedUpgrade code) (s' : env.State)
      (h : applyAuthorizedUpgrade code (.signed who) s = .ok s') : SignedStep s who call s'

section

variable {s s' : env.State} {who : AccountId} {call inner : RuntimeCall} {body : Body}
  {o : CollectiveOrigin}

theorem World.setCollective_outside (w : World Rest) (body : Body) (c : Collective) :
    (w.setCollective body c).outside = w.outside := by
  cases body <;> rfl

theorem World.setCollective_upgrade (w : World Rest) (body : Body) (c : Collective) :
    (w.setCollective body c).authorizedUpgrade = w.authorizedUpgrade := by
  cases body <;> rfl

theorem execute_signed (hactive : CallName.execute body ∉ s.world.outside.pausedCalls)
    (h : execute dispatchLeaf body proposal lengthBound (.signed who) s = .ok s') :
    SignedStep s who (.execute body proposal lengthBound) s' := by
  unfold execute at h
  dsimp only at h
  obtain ⟨hmember, h⟩ := of_check h
  obtain ⟨hlength, h⟩ := of_check h
  cases h
  exact .collective body _ proposal (.execute hactive (not_not.mp hmember) (not_lt.mp hlength)) _ rfl
    _ rfl rfl

theorem propose_signed (hactive : CallName.propose body ∉ s.world.outside.pausedCalls)
    (h : propose dispatchLeaf body threshold proposal lengthBound (.signed who) s = .ok s') :
    SignedStep s who (.propose body threshold proposal lengthBound) s' := by
  unfold propose at h
  dsimp only at h
  obtain ⟨hmember, h⟩ := of_check h
  obtain ⟨hlength, h⟩ := of_check h
  obtain ⟨hweight, h⟩ := of_check h
  obtain ⟨hnew, h⟩ := of_check h
  split at h
  case isTrue hthreshold =>
    cases h
    exact .collective body _ proposal (.propose hactive (not_not.mp hmember) hthreshold
      (not_lt.mp hlength) (by simpa using hweight) hnew) _ rfl _ rfl rfl
  case isFalse =>
    obtain ⟨_, h⟩ := of_check h
    cases h
    exact .bookkeeping _ (World.setCollective_outside _ _ _) (World.setCollective_upgrade _ _ _)

theorem vote_signed (h : vote body proposalHash index approve (.signed who) s = .ok s') :
    SignedStep s who call s' := by
  unfold vote at h
  dsimp only at h
  obtain ⟨_, h⟩ := of_check h
  split at h
  case h_1 => cases h
  case h_2 =>
    obtain ⟨_, h⟩ := of_check h
    split at h
    case h_1 => cases h
    case h_2 =>
      cases h
      exact .bookkeeping _ (World.setCollective_outside _ _ _) (World.setCollective_upgrade _ _ _)

theorem close_signed (hactive : CallName.close body ∉ s.world.outside.pausedCalls)
    (h : close dispatchLeaf body proposalHash index weightBound lengthBound (.signed who) s = .ok s') :
    SignedStep s who (.close body proposalHash index weightBound lengthBound) s' := by
  unfold close at h
  dsimp only at h
  split at h
  case h_1 => cases h
  case h_2 p hlookup =>
    obtain ⟨hindex, hrest⟩ := of_check h
    rw [not_not] at hindex
    clear h
    subst hindex
    split at hrest
    case isTrue happroved =>
      obtain ⟨hlength, h⟩ := of_check hrest
      obtain ⟨hweight, h⟩ := of_check h
      cases h
      exact .collective body _ p.call
        (.close hactive hlookup happroved (not_lt.mp hlength) (by simpa using hweight)) _ rfl _
        (World.removeProposal_outside _ _ _) (World.removeProposal_upgrade _ _ _)
    case isFalse =>
      obtain ⟨_, h⟩ := of_condition hrest
      cases h
      exact .bookkeeping _ (World.removeProposal_outside _ _ _) (World.removeProposal_upgrade _ _ _)

theorem dispatch_signed_step (hfilter : callFilter call = true)
    (h : dispatch (.signed who) call s = .ok s') : SignedStep s who call s' := by
  unfold dispatch dispatchWith at h
  split at h
  case isTrue => cases h
  case isFalse hactive =>
    have hactive : call.name ∉ s.world.outside.pausedCalls := fun hp => hactive ⟨nofun, hp⟩
    cases call with
    | execute body proposal lengthBound => exact execute_signed hactive h
    | propose body threshold proposal lengthBound => exact propose_signed hactive h
    | vote body proposalHash index approve => exact vote_signed h
    | close body proposalHash index weightBound lengthBound => exact close_signed hactive h
    | motionClose motionHash bound => exact .closed motionHash bound rfl s' h
    | applyAuthorizedUpgrade code => exact .upgraded code rfl s' h
    | releaseProposalCost body proposalHash =>
      obtain ⟨_, world, hf, rfl⟩ := gatedBy_inv h
      cases hf
      exact .bookkeeping _ rfl rfl
    | disapproveProposal | kill | setMembers =>
      obtain ⟨haccepts, _⟩ := gatedBy_inv h
      cases haccepts
    | _ => cases hfilter

/-- A collective that dispatches a call accepts the extrinsic, and changes what the call changes. -/
theorem Dispatches.dispatch_eq_ok (h : Dispatches s who call body o inner) :
    ∃ s', dispatch (.signed who) call s = .ok s' ∧
      s'.world.outside =
        (tryDispatch dispatchLeaf (.collective body o) inner s).world.outside := by
  cases h with
  | execute hactive hmember hlength =>
    refine ⟨_, ?_, rfl⟩
    unfold dispatch dispatchWith
    rw [if_neg (fun hp => hactive hp.2)]
    simp only [Runtime.execute, if_neg (not_not.mpr hmember), if_neg (not_lt.mpr hlength)]
  | propose hactive hmember hthreshold hlength hweight hnew =>
    refine ⟨_, ?_, rfl⟩
    unfold dispatch dispatchWith
    rw [if_neg (fun hp => hactive hp.2)]
    simp [Runtime.propose, hmember, hlength, hweight, hnew, hthreshold]
  | @close body proposalHash weightBound lengthBound p hactive hlookup happroved hlength hweight =>
    let t := tryDispatch dispatchLeaf
      (.collective body (.members p.ayes.length (s.world.collective body).members.length)) p.call s
    refine ⟨{ t with world := t.world.removeProposal body proposalHash }, ?_,
      World.removeProposal_outside _ _ _⟩
    unfold dispatch dispatchWith
    rw [if_neg (fun hp => hactive hp.2)]
    simp [Runtime.close, hlookup, happroved, hlength, hweight, t]

end

/-! ## Reachable states -/

section

variable {s s' : env.State} {origin : Origin} {call : RuntimeCall}

theorem LeafStep.palletStep (h : LeafStep origin call s s') : PalletStep env.config s s' := by
  cases h with
  | approve c _ h => exact .approve h
  | revoke motionHash _ h => exact .revoke h
  | world world h => exact .world s world

/-- The runtime dispatches the call of a motion. -/
def rootDispatch (env : Env Rest) : RootDispatch env.config (World Rest) where
  dispatch := dispatchLeaf .root
  reaches h := .single (dispatchLeaf_step rfl h).palletStep

theorem Sourced.of_log (h : Sourced s) (hagenda : s'.world.outside.agenda = s.world.outside.agenda)
    (hupgrade : s'.world.authorizedUpgrade = s.world.authorizedUpgrade)
    (hlog : ∀ e ∈ s.log, e ∈ s'.log) : Sourced s' := by
  constructor
  · intro call hcall
    rw [hagenda] at hcall
    obtain ⟨motionHash, root, hmem, hcarries⟩ := h.agenda call hcall
    exact ⟨motionHash, root, hlog _ hmem, hcarries⟩
  · intro authorization hauth
    rw [hupgrade] at hauth
    obtain ⟨motionHash, root, withoutChecks, hmem, hcarries⟩ := h.upgrade authorization hauth
    exact ⟨motionHash, root, withoutChecks, hlog _ hmem, hcarries⟩

theorem motionApprove_log (h : motionApprove origin c s = .ok s') : ∀ e ∈ s.log, e ∈ s'.log := by
  obtain ⟨authId, motion, _, _, rfl⟩ := motionApprove_inv h
  exact fun e he => List.mem_append_left _ he

theorem motionRevoke_log (h : motionRevoke origin motionHash s = .ok s') : ∀ e ∈ s.log, e ∈ s'.log := by
  obtain ⟨authId, old, motion, _, rfl⟩ := motionRevoke_inv h
  intro e he
  split
  · exact List.mem_append_left _ (List.mem_append_left _ he)
  · exact List.mem_append_left _ he

theorem Sourced.leaf (h : Sourced s) (hstep : LeafStep origin call s s')
    (hroot : origin = .root → ∃ motionHash root, .rootDispatch motionHash root ∈ s.log ∧
      Carries root call) : Sourced s' := by
  cases hstep with
  | approve c _ hc =>
    have hworld := motionApprove_world hc
    exact h.of_log (by rw [hworld]) (by rw [hworld]) (motionApprove_log hc)
  | revoke motionHash _ hc =>
    have hworld := motionRevoke_world hc
    exact h.of_log (by rw [hworld]) (by rw [hworld]) (motionRevoke_log hc)
  | world world hprov =>
    constructor
    · intro c hc
      rcases hprov.agenda c hc with hc | ⟨horigin, kind, rfl⟩
      · exact h.agenda c hc
      · obtain ⟨motionHash, root, hmem, hcarries⟩ := hroot horigin
        exact ⟨motionHash, root, hmem, hcarries.scheduled⟩
    · intro authorization hauth
      rcases hprov.upgrade authorization hauth with hauth | ⟨horigin, withoutChecks, rfl⟩
      · exact h.upgrade authorization hauth
      · obtain ⟨motionHash, root, hmem, hcarries⟩ := hroot horigin
        exact ⟨motionHash, root, withoutChecks, hmem, hcarries⟩

theorem Governed.tryLeaf (h : Governed s) (horigin : origin.isSigned = false)
    (hroot : origin = .root → ∃ motionHash root, .rootDispatch motionHash root ∈ s.log ∧
      Carries root call) : Governed (tryDispatch dispatchLeaf origin call s) := by
  unfold tryDispatch
  cases hd : dispatchLeaf origin call s with
  | error e => exact h
  | ok s' =>
    have hstep := dispatchLeaf_step horigin hd
    exact ⟨h.motions.palletStep hstep.palletStep, h.sourced.leaf hstep hroot⟩

theorem Governed.setWorld (h : Governed s)
    (hagenda : ∀ c ∈ world.outside.agenda, c ∈ s.world.outside.agenda)
    (hupgrade : world.authorizedUpgrade = s.world.authorizedUpgrade) : Governed { s with world } := by
  refine ⟨h.motions.palletStep (.world s world), fun c hc => h.sourced.agenda c (hagenda c hc), ?_⟩
  intro authorization hauth
  exact h.sourced.upgrade authorization (hupgrade ▸ hauth)

theorem Sourced.close (h : Sourced s)
    (hc : motionClose (dispatchLeaf .root) (.signed who) motionHash bound s = .ok s') : Sourced s' := by
  cases motionClose_inv hc with
  | dispatched motion hlookup happroved result t ht =>
    let s₁ : env.State := { s with log := s.log ++ [.rootDispatch motionHash motion.call] }
    have hstart : Sourced s₁ := h.of_log rfl rfl fun e he => List.mem_append_left _ he
    have hinner : Sourced t := by
      rcases ht with rfl | ht
      · exact hstart
      · refine hstart.leaf (dispatchLeaf_step rfl ht) fun _ => ?_
        exact ⟨motionHash, motion.call, List.mem_append_right _ List.mem_cons_self, .self⟩
    exact hinner.of_log rfl rfl fun e he => List.mem_append_left _ (List.mem_append_left _ he)
  | expired motion hlookup =>
    exact h.of_log rfl rfl fun e he => List.mem_append_left _ (List.mem_append_left _ he)

theorem Governed.signed (h : Governed s) (hstep : SignedStep s who call s') : Governed s' := by
  cases hstep with
  | collective body o inner hdispatches t ht world houtside hupgrade =>
    have hinner : Governed t := by
      rw [ht]
      exact h.tryLeaf rfl nofun
    exact hinner.setWorld (fun c hc => houtside ▸ hc) hupgrade
  | bookkeeping world houtside hupgrade => exact h.setWorld (fun c hc => houtside ▸ hc) hupgrade
  | closed motionHash bound hcall _ hc =>
    exact ⟨h.motions.close (rootDispatch env) hc, h.sourced.close hc⟩
  | upgraded code hcall _ hc =>
    obtain ⟨authorization, _, _, outside, houtside, rfl⟩ := applyAuthorizedUpgrade_inv hc
    refine ⟨h.motions.palletStep (.world s _), fun c hc => h.sourced.agenda c ?_, nofun⟩
    rcases houtside with rfl | rfl <;> exact hc

theorem tryDispatch_congr_leaf (horigin : origin.isSigned = false) :
    tryDispatch dispatch origin call s = tryDispatch dispatchLeaf origin call s :=
  tryDispatch_congr (dispatch_of_not_signed horigin call s)

theorem Governed.step (h : Governed s) (st : Step Rest) : Governed (step s st) := by
  cases st with
  | signed who call =>
    rw [Runtime.step]
    split
    case isFalse => exact h
    case isTrue hfilter =>
      unfold tryDispatch
      cases hd : dispatch (.signed who) call s with
      | error e => exact h
      | ok s' => exact h.signed (dispatch_signed_step hfilter hd)
  | unsigned call =>
    rw [Runtime.step, tryDispatch_congr_leaf rfl]
    exact h.tryLeaf rfl nofun
  | hook blocks changes =>
    have hadvance : Governed { s with blockNumber := s.blockNumber + blocks } :=
      ⟨h.motions.advance blocks, h.sourced.of_log rfl rfl fun _ he => he⟩
    exact hadvance.setWorld (fun _ hc => hc) rfl
  | service index =>
    rw [Runtime.step]
    split
    case h_1 => exact h
    case h_2 call hcall =>
      obtain ⟨motionHash, root, hmem, hcarries⟩ :=
        h.sourced.agenda call (List.mem_of_getElem? hcall)
      rw [tryDispatch_congr_leaf rfl]
      refine Governed.tryLeaf ?_ rfl fun _ => ⟨motionHash, root, hmem, hcarries⟩
      exact h.setWorld (fun c hc => List.mem_of_mem_eraseIdx hc) rfl

theorem Governed.run (h : Governed s) (steps : List (Step Rest)) : Governed (run s steps) := by
  induction steps generalizing s with
  | nil => exact h
  | cons st steps ih => exact ih (h.step st)

theorem Governed.genesis (env : Env Rest) (stateKey : StateKey) (code : List UInt8) (rest : Rest)
    (council technicalCommittee : Collective) :
    Governed (genesis env stateKey code rest council technicalCommittee) :=
  ⟨Inv.genesis env.config _, nofun, nofun⟩

end

/-! ## Signed extrinsics -/

/-- The change outside that a signed call makes, if any, is made by a call that `motion_close` dispatches
with the Root origin for both bodies, or it is the upgrade to code authorised by such a call. -/
inductive ActsThroughMotion (s : env.State) (who : AccountId) (call : RuntimeCall) (s' : env.State) : Prop
  | unchanged (houtside : s'.world.outside = s.world.outside)
  | motion (motionHash : Hash) (bound : Weight) (motion : MotionInfo env.config) (life : MotionLife)
      (t : env.State) (hcall : call = .motionClose motionHash bound)
      (hlookup : s.motions.lookup motionHash = some motion)
      (hbodies : motion.approvals.elems =
        {Body.council.palletIndex, Body.technicalCommittee.palletIndex})
      (hlife : lifeOf motionHash s.log = some life) (hquorum : StandingQuorum env.config life)
      (hroot : dispatch .root motion.call
        { s with log := s.log ++ [.rootDispatch motionHash motion.call] } = .ok t)
      (houtside : s'.world.outside = t.world.outside)
  | upgrade (code : List UInt8) (authorization : CodeUpgradeAuthorization) (root : RuntimeCall)
      (withoutChecks : Bool)
      (hcall : call = .applyAuthorizedUpgrade code ∨
        ∃ body o, Dispatches s who call body o (.applyAuthorizedUpgrade code))
      (hauth : s.world.authorizedUpgrade = some authorization)
      (hcode : env.codeHash code = authorization.codeHash)
      (happroved : ApprovedDispatch env s.log root)
      (hcarries : Carries root (.authorizeUpgrade withoutChecks authorization.codeHash))
      (houtside : s'.world.outside = { s.world.outside with code })

/-- A collective dispatches a Midnight transaction, which is not paused and leads to a new ledger
state. -/
def SendsTransaction (s : env.State) (who : AccountId) (call : RuntimeCall) : Prop :=
  ∃ body o midnightTx key, Dispatches s who call body o (.sendMnTransaction midnightTx) ∧
    CallName.sendMnTransaction ∉ s.world.outside.pausedCalls ∧
    env.applyTransaction s.blockNumber s.world midnightTx = .ok key ∧
    key ≠ s.world.outside.stateKey

section

variable {s s' : env.State} {who : AccountId} {call : RuntimeCall}

theorem approvals_eq_both (h : Inv env.config pending s)
    (hlookup : s.motions.lookup motionHash = some motion)
    (happroved : env.config.isMotionApproved (.ofNat motion.approvals.elems.card) = true) :
    motion.approvals.elems = {Body.council.palletIndex, Body.technicalCommittee.palletIndex} := by
  obtain ⟨life, _, hm⟩ := h.lookup_some hlookup
  refine Finset.eq_of_subset_of_card_le ?_ ?_
  · intro authId hmem
    rw [hm.approvals, List.mem_toFinset] at hmem
    obtain ⟨p, hp, rfl⟩ := List.mem_map.mp hmem
    obtain ⟨body, hbody, hindex⟩ := hm.bodies p hp
    rw [← hindex]
    rcases List.mem_cons.mp hbody with rfl | hbody
    · exact Finset.mem_insert_self _ _
    · rw [List.mem_singleton.mp hbody]
      exact Finset.mem_insert_of_mem (Finset.mem_singleton_self _)
  · have hcard := (Config.isMotionApproved_iff motion.approvals.card_le).mp happroved
    change 1 * 2 ≤ _ * 1 at hcard
    rw [Finset.card_pair (by decide)]
    omega

theorem Governed.approvedDispatch (h : Governed s) (hmem : .rootDispatch motionHash root ∈ s.log) :
    ApprovedDispatch env s.log root := by
  obtain ⟨before, after, hlog⟩ := List.append_of_mem hmem
  obtain ⟨_, life, hlife, hquorum⟩ := h.motions.justified.at_rootDispatch hlog
  exact ⟨before, motionHash, after, life, hlog, hlife, hquorum⟩

/-- Whatever was called since genesis, a call on the agenda and an authorised upgrade go back to a call
that a motion with a quorum dispatched. -/
theorem scheduled_calls_approved (env : Env Rest) (stateKey : StateKey) (code : List UInt8) (rest : Rest)
    (council technicalCommittee : Collective) (steps : List (Step Rest)) :
    let s := run (genesis env stateKey code rest council technicalCommittee) steps
    (∀ call ∈ s.world.outside.agenda,
      ∃ root, ApprovedDispatch env s.log root ∧ Carries root call) ∧
    ∀ authorization, s.world.authorizedUpgrade = some authorization → ∃ root withoutChecks,
      ApprovedDispatch env s.log root ∧
        Carries root (.authorizeUpgrade withoutChecks authorization.codeHash) := by
  intro s
  have h : Governed s := (Governed.genesis env stateKey code rest council technicalCommittee).run steps
  constructor
  · intro call hcall
    obtain ⟨motionHash, root, hmem, hcarries⟩ := h.sourced.agenda call hcall
    exact ⟨root, h.approvedDispatch hmem, hcarries⟩
  · intro authorization hauth
    obtain ⟨motionHash, root, withoutChecks, hmem, hcarries⟩ := h.sourced.upgrade authorization hauth
    exact ⟨root, withoutChecks, h.approvedDispatch hmem, hcarries⟩

theorem Governed.upgrade (h : Governed s)
    (hcall : call = .applyAuthorizedUpgrade code ∨
      ∃ body o, Dispatches s who call body o (.applyAuthorizedUpgrade code))
    (hauth : s.world.authorizedUpgrade = some authorization)
    (hcode : env.codeHash code = authorization.codeHash)
    (houtside : s'.world.outside = { s.world.outside with code }) : ActsThroughMotion s who call s' := by
  obtain ⟨motionHash, root, withoutChecks, hmem, hcarries⟩ := h.sourced.upgrade authorization hauth
  exact .upgrade code authorization root withoutChecks hcall hauth hcode (h.approvedDispatch hmem)
    hcarries houtside

theorem Governed.actsThroughMotion (h : Governed s) (hstep : SignedStep s who call s')
    (hsends : ¬ SendsTransaction s who call) : ActsThroughMotion s who call s' := by
  cases hstep with
  | collective body o inner hdispatches t ht world houtside hupgrade =>
    unfold tryDispatch at ht
    cases hd : dispatchLeaf (.collective body o) inner s with
    | error e =>
      rw [hd] at ht
      rw [ht] at houtside
      exact .unchanged houtside
    | ok t' =>
      rw [hd] at ht
      subst ht
      cases dispatchLeaf_collective hd with
      | none hsame => exact .unchanged (houtside.trans hsame)
      | sent midnightTx key hcall hactive hkey hsent =>
        subst hcall
        have hsame : key = s.world.outside.stateKey := by
          by_contra hne
          exact hsends ⟨body, o, midnightTx, key, hdispatches, hactive, hkey, hne⟩
        subst hsame
        exact .unchanged (houtside.trans hsent)
      | upgraded code authorization hcall hauth hcode hcoded =>
        subst hcall
        exact h.upgrade (.inr ⟨body, o, hdispatches⟩) hauth hcode (houtside.trans hcoded)
  | bookkeeping world houtside hupgrade => exact .unchanged houtside
  | closed motionHash bound hcall _ hc =>
    cases motionClose_inv hc with
    | dispatched motion hlookup happroved result t ht =>
      rcases ht with rfl | ht
      · exact .unchanged rfl
      · obtain ⟨life, hlife, hm⟩ := h.motions.lookup_some hlookup
        have hzero : life.dispatches = 0 := Nat.le_zero.mp (h.motions.dispatches _ life hlife)
        refine .motion motionHash bound motion life t hcall hlookup
          (approvals_eq_both h.motions hlookup happroved) hlife (hm.standingQuorum happroved hzero) ?_ rfl
        rw [dispatch_of_not_signed rfl]
        exact ht
    | expired motion hlookup => exact .unchanged rfl
  | upgraded code hcall _ hc =>
    obtain ⟨authorization, hauth, hcode, outside, houtside | houtside, rfl⟩ :=
      applyAuthorizedUpgrade_inv hc
    · exact h.upgrade (.inl hcall) hauth hcode houtside
    · exact .unchanged houtside

/-- A transaction that a collective sends is no act through a motion. -/
theorem SendsTransaction.not_actsThroughMotion (h : SendsTransaction s who call)
    (hd : dispatch (.signed who) call s = .ok s') : ¬ ActsThroughMotion s who call s' := by
  obtain ⟨body, o, midnightTx, key, hdispatches, hactive, hkey, hne⟩ := h
  obtain ⟨s'', hd', houtside⟩ := hdispatches.dispatch_eq_ok
  cases hd.symm.trans hd'
  have hsent : dispatchLeaf (.collective body o) (.sendMnTransaction midnightTx) s =
      .ok { s with world := s.world.setOutside { s.world.outside with stateKey := key } } := by
    unfold dispatchLeaf dispatchWith
    rw [if_neg (fun hp => hactive hp.2)]
    simp only [sendMnTransaction, hkey]
  have hstateKey : s'.world.outside.stateKey = key := by
    rw [houtside, tryDispatch, hsent]
    rfl
  intro hacts
  cases hacts with
  | unchanged hsame =>
    rw [hsame] at hstateKey
    exact hne hstateKey.symm
  | motion motionHash bound motion life t hcall =>
    subst hcall
    cases hdispatches
  | upgrade code authorization root withoutChecks hcall hauth hcode happroved hcarries hcoded =>
    rw [hcoded] at hstateKey
    exact hne hstateKey.symm

end

/-- Signed extrinsics act through motions alone, unless a collective dispatches a Midnight transaction:
`send_mn_transaction` does not look at its origin. -/
theorem signed_acts_through_motion_iff (env : Env Rest) (stateKey : StateKey) (code : List UInt8)
    (rest : Rest) (council technicalCommittee : Collective) (steps : List (Step Rest))
    (who : AccountId) (call : RuntimeCall) (hfilter : callFilter call = true) :
    let s := run (genesis env stateKey code rest council technicalCommittee) steps
    ActsThroughMotion s who call (step s (.signed who call)) ↔ ¬ SendsTransaction s who call := by
  intro s
  have hgoverned : Governed s := (Governed.genesis env _ _ _ _ _).run steps
  rw [step, if_pos hfilter, tryDispatch]
  cases hd : dispatch (.signed who) call s with
  | error e =>
    refine iff_of_true (.unchanged rfl) ?_
    rintro ⟨body, o, midnightTx, key, hdispatches, _⟩
    obtain ⟨s', hd', _⟩ := hdispatches.dispatch_eq_ok
    cases hd.symm.trans hd'
  | ok s' =>
    refine ⟨fun hacts hsends => hsends.not_actsThroughMotion hd hacts, fun hsends => ?_⟩
    exact hgoverned.actsThroughMotion (dispatch_signed_step hfilter hd) hsends

/-- A ledger whose new state is the transaction; the gated calls set the ledger state to their
arguments. -/
def sampleEnv : Env Unit where
  hashOf _ := .fill 32 1
  callWeight _ := ⟨1, 1⟩
  encodedSize _ := 1
  maxProposalWeight := ⟨1, 1⟩
  codeHash _ := .fill 32 2
  canSetCode _ _ := true
  applyTransaction _ _ midnightTx := .ok midnightTx
  effect _ args _ w := .ok ⟨args, (), w.council, w.technicalCommittee⟩

def sampleGenesis : sampleEnv.State := genesis sampleEnv [1] [] () ⟨[7], ∅, 0⟩ ⟨[8], ∅, 0⟩

/-- Both bodies approve a system transaction. -/
def sampleApprovals : List (Step Unit) :=
  [.signed 7 (.propose .council 1
      (.motionApprove (.gated .midnightSystemSendMnSystemTransaction [5])) 1),
    .signed 8 (.propose .technicalCommittee 1
      (.motionApprove (.gated .midnightSystemSendMnSystemTransaction [5])) 1)]

theorem signed_acts_through_motion_iff_close :
    (step (run sampleGenesis sampleApprovals)
      (.signed 3 (.motionClose (.fill 32 1) ⟨1, 1⟩))).world.outside.stateKey = [5] ∧
    ActsThroughMotion (run sampleGenesis sampleApprovals) 3 (.motionClose (.fill 32 1) ⟨1, 1⟩)
      (step (run sampleGenesis sampleApprovals) (.signed 3 (.motionClose (.fill 32 1) ⟨1, 1⟩))) := by
  refine ⟨by decide +kernel, ?_⟩
  refine (signed_acts_through_motion_iff sampleEnv [1] [] () ⟨[7], ∅, 0⟩ ⟨[8], ∅, 0⟩ sampleApprovals 3
    (.motionClose (.fill 32 1) ⟨1, 1⟩) rfl).mpr ?_
  rintro ⟨body, o, midnightTx, key, hdispatches, _⟩
  cases hdispatches

/-- One member of the council changes the state of the ledger, and no motion was ever approved. -/
theorem member_changes_state_key :
    callFilter (.execute .council (.sendMnTransaction [2]) 1) = true ∧
    sampleGenesis.world.outside.stateKey = [1] ∧
    (step sampleGenesis
      (.signed 7 (.execute .council (.sendMnTransaction [2]) 1))).world.outside.stateKey = [2] ∧
    ¬ ActsThroughMotion sampleGenesis 7 (.execute .council (.sendMnTransaction [2]) 1)
      (step sampleGenesis (.signed 7 (.execute .council (.sendMnTransaction [2]) 1))) := by
  refine ⟨rfl, rfl, by decide +kernel, ?_⟩
  have hsends : SendsTransaction sampleGenesis 7 (.execute .council (.sendMnTransaction [2]) 1) :=
    ⟨.council, .member 7, [2], [2], .execute List.not_mem_nil List.mem_cons_self le_rfl,
      List.not_mem_nil, rfl, by decide⟩
  exact hsends.not_actsThroughMotion rfl

end MidnightNode.Runtime
