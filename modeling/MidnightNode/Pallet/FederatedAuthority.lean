import Mathlib
import MidnightNode.Lib.Fallible

/-!
# Motions of the federated authority

`pallets/federated-authority`. The authority bodies approve a call, which then is a motion; a motion
that enough bodies have approved is closed by dispatching its call with the Root origin.

`State.log` has the deposited events with their blocks, and the calls that were dispatched. `lifeOf`
reads from it what became of a motion since its latest creation, without the storage of the pallet.
-/

namespace MidnightNode.FederatedAuthority

abbrev AuthId := Nat

structure BoundedSet (α : Type) (bound : Nat) where
  elems : Finset α
  card_le : elems.card ≤ bound

namespace BoundedSet

variable {α : Type} [DecidableEq α] {bound : Nat}

def empty : BoundedSet α bound := ⟨∅, Nat.zero_le _⟩

/-- `none` if the set is full; otherwise whether the element is new. -/
def tryInsert (s : BoundedSet α bound) (a : α) : Option (Bool × BoundedSet α bound) :=
  if a ∈ s.elems then some (false, s)
  else if h : s.elems.card < bound then
    some (true, ⟨insert a s.elems, (Finset.card_insert_le a s.elems).trans h⟩)
  else none

def remove (s : BoundedSet α bound) (a : α) : Bool × BoundedSet α bound :=
  (decide (a ∈ s.elems), ⟨s.elems.erase a, Finset.card_erase_le.trans s.card_le⟩)

theorem tryInsert_eq_true {s : BoundedSet α bound} (h : s.tryInsert a = some (true, s')) :
    a ∉ s.elems ∧ s'.elems = insert a s.elems := by
  unfold tryInsert at h
  split at h
  case isTrue => cases h
  case isFalse hmem =>
    split at h
    case isTrue hcard =>
      cases h
      exact ⟨hmem, rfl⟩
    case isFalse => cases h

theorem tryInsert_empty {s : BoundedSet α bound} (h : empty.tryInsert a = some (new, s)) :
    s.elems = {a} := by
  have hempty : a ∉ (empty : BoundedSet α bound).elems := Finset.notMem_empty a
  unfold tryInsert at h
  rw [if_neg hempty] at h
  split at h
  case isTrue =>
    cases h
    exact insert_empty_eq a
  case isFalse => cases h

theorem remove_eq_true {s : BoundedSet α bound} (h : s.remove a = (true, s')) :
    s'.elems = s.elems.erase a := by
  rw [← (Prod.mk.inj h).2]

end BoundedSet

/-! ## The pallet -/

structure Weight where
  refTime : Nat
  proofSize : Nat
deriving DecidableEq

def Weight.allLte (w w' : Weight) : Bool := w.refTime ≤ w'.refTime && w.proofSize ≤ w'.proofSize

inductive Error
  | motionAlreadyApproved
  | motionApprovalMissing
  | motionApprovalExceedsBounds
  | motionNotFound
  | motionNotEnded
  | motionHasEnded
  | motionWeightBoundTooLow
deriving DecidableEq

inductive DispatchError
  | badOrigin
  | pallet (e : Error)
  | other (code : Nat)
deriving DecidableEq

structure AuthorityBody (Origin : Type) where
  index : AuthId
  ensureProportion : Origin → Bool

def AuthorityBody.ensureFromBodies {Origin : Type} (body : AuthorityBody Origin) (origin : Origin) :
    Option AuthId :=
  if body.ensureProportion origin then some body.index else none

/-- `FederatedAuthorityOriginManager`: the first body that accepts the origin. -/
def ensureFromBodies {Origin : Type} (bodies : List (AuthorityBody Origin)) (origin : Origin) :
    Option AuthId :=
  bodies.findSome? fun body => body.ensureFromBodies origin

theorem ensureFromBodies_inv {Origin : Type} {bodies : List (AuthorityBody Origin)} {origin : Origin}
    (h : ensureFromBodies bodies origin = some authId) : ∃ body ∈ bodies, body.index = authId := by
  obtain ⟨body, hmem, hbody⟩ := List.exists_of_findSome?_eq_some h
  unfold AuthorityBody.ensureFromBodies at hbody
  split at hbody
  case isTrue =>
    cases hbody
    exact ⟨body, hmem, rfl⟩
  case isFalse => cases hbody

/-- `FederatedAuthorityEnsureProportionAtLeast::reached_proportion`. -/
def reachedProportion (numerator denominator n d : UInt32) : Bool :=
  decide (n * denominator ≥ numerator * d)

structure Config (Origin Call Hash : Type) where
  hashOf : Call → Hash
  callWeight : Call → Weight
  isSigned : Origin → Bool
  maxAuthorityBodies : UInt32
  motionDuration : Nat
  maxBlockNumber : Nat
  numerator : UInt32
  denominator : UInt32
  approvalBodies : List (AuthorityBody Origin)
  revokeBodies : List (AuthorityBody Origin)
  numerator_fits : numerator.toNat * maxAuthorityBodies.toNat < 2 ^ 32
  denominator_fits : maxAuthorityBodies.toNat * denominator.toNat < 2 ^ 32
  /-- One body is not enough. -/
  several : denominator.toNat < numerator.toNat * maxAuthorityBodies.toNat

variable {Origin Call Hash W : Type} [DecidableEq Hash]

structure MotionInfo (cfg : Config Origin Call Hash) where
  approvals : BoundedSet AuthId cfg.maxAuthorityBodies.toNat
  endsBlock : Nat
  call : Call

inductive Event (Hash : Type)
  | motionApproved (motionHash : Hash) (authId : AuthId)
  | motionDispatched (motionHash : Hash) (motionResult : Except DispatchError Unit)
  | motionExpired (motionHash : Hash)
  | motionRevoked (motionHash : Hash) (authId : AuthId)
  | motionRemoved (motionHash : Hash)

/-- An event with its block, or the dispatch of the call of a motion with the Root origin. -/
inductive Entry (Call Hash : Type)
  | event (block : Nat) (e : Event Hash)
  | rootDispatch (motionHash : Hash) (call : Call)

def Entry.motionHash {Call Hash : Type} : Entry Call Hash → Hash
  | .event _ (.motionApproved motionHash _) | .event _ (.motionDispatched motionHash _)
  | .event _ (.motionExpired motionHash) | .event _ (.motionRevoked motionHash _)
  | .event _ (.motionRemoved motionHash) | .rootDispatch motionHash _ => motionHash

structure State (cfg : Config Origin Call Hash) (W : Type) where
  motions : AList fun _ : Hash => MotionInfo cfg
  blockNumber : Nat
  log : List (Entry Call Hash)
  world : W

variable {cfg : Config Origin Call Hash}

namespace State

def genesis (cfg : Config Origin Call Hash) (world : W) : State cfg W := ⟨∅, 0, [], world⟩

def depositEvent (s : State cfg W) (e : Event Hash) : State cfg W :=
  { s with log := s.log ++ [.event s.blockNumber e] }

def motionRemove (s : State cfg W) (motionHash : Hash) : State cfg W :=
  { s with motions := s.motions.erase motionHash }.depositEvent (.motionRemoved motionHash)

def hasEnded (s : State cfg W) (motion : MotionInfo cfg) : Bool :=
  decide (s.blockNumber ≥ motion.endsBlock)

end State

/-- The last block of a motion that is created in a block. -/
def Config.endsBlock (cfg : Config Origin Call Hash) (block : Nat) : Nat :=
  min (block + cfg.motionDuration) cfg.maxBlockNumber

def Config.isMotionApproved (cfg : Config Origin Call Hash) (totalApprovals : UInt32) : Bool :=
  reachedProportion cfg.numerator cfg.denominator totalApprovals cfg.maxAuthorityBodies

/-- The motion of a call with the approval of a body; a new motion if there is none. -/
def insertApproval (authId : AuthId) (call : Call) (s : State cfg W) :
    Except DispatchError (MotionInfo cfg) :=
  match s.motions.lookup (cfg.hashOf call) with
  | some motion =>
    if s.hasEnded motion then .error (.pallet .motionHasEnded)
    else
      match motion.approvals.tryInsert authId with
      | some (true, approvals) => .ok { motion with approvals }
      | some (false, _) => .error (.pallet .motionAlreadyApproved)
      | none => .error (.pallet .motionApprovalExceedsBounds)
  | none =>
    match BoundedSet.empty.tryInsert authId with
    | some (_, approvals) => .ok { approvals, endsBlock := cfg.endsBlock s.blockNumber, call }
    | none => .error (.pallet .motionApprovalExceedsBounds)

def motionApprove (origin : Origin) (call : Call) (s : State cfg W) :
    Except DispatchError (State cfg W) :=
  match ensureFromBodies cfg.approvalBodies origin with
  | none => .error .badOrigin
  | some authId =>
    match insertApproval authId call s with
    | .error e => .error e
    | .ok motion =>
      .ok ({ s with motions := s.motions.insert (cfg.hashOf call) motion }.depositEvent
        (.motionApproved (cfg.hashOf call) authId))

def removeApproval (authId : AuthId) (motionHash : Hash) (s : State cfg W) :
    Except DispatchError (MotionInfo cfg) :=
  match s.motions.lookup motionHash with
  | none => .error (.pallet .motionNotFound)
  | some motion =>
    if s.hasEnded motion then .error (.pallet .motionHasEnded)
    else
      match motion.approvals.remove authId with
      | (true, approvals) => .ok { motion with approvals }
      | (false, _) => .error (.pallet .motionApprovalMissing)

def motionRevoke (origin : Origin) (motionHash : Hash) (s : State cfg W) :
    Except DispatchError (State cfg W) :=
  match ensureFromBodies cfg.revokeBodies origin with
  | none => .error .badOrigin
  | some authId =>
    match removeApproval authId motionHash s with
    | .error e => .error e
    | .ok motion =>
      let s := { s with motions := s.motions.insert motionHash motion }.depositEvent
        (.motionRevoked motionHash authId)
      .ok (if motion.approvals.elems.card = 0 then s.motionRemove motionHash else s)

/-- The dispatch has a storage layer of its own: if it fails, only its own changes are undone. -/
def dispatchAsRoot (dispatch : Call → State cfg W → Except DispatchError (State cfg W))
    (motionHash : Hash) (call : Call) (s : State cfg W) : Except DispatchError Unit × State cfg W :=
  let s := { s with log := s.log ++ [.rootDispatch motionHash call] }
  match dispatch call s with
  | .ok s' => (.ok (), s')
  | .error e => (.error e, s)

def motionClose (dispatch : Call → State cfg W → Except DispatchError (State cfg W))
    (origin : Origin) (motionHash : Hash) (proposalWeightBound : Weight) (s : State cfg W) :
    Except DispatchError (State cfg W) :=
  if !cfg.isSigned origin then .error .badOrigin
  else
    match s.motions.lookup motionHash with
    | none => .error (.pallet .motionNotFound)
    | some motion =>
      if cfg.isMotionApproved (.ofNat motion.approvals.elems.card) then
        if !(cfg.callWeight motion.call).allLte proposalWeightBound then
          .error (.pallet .motionWeightBoundTooLow)
        else
          let (motionResult, s) := dispatchAsRoot dispatch motionHash motion.call s
          .ok ((s.depositEvent (.motionDispatched motionHash motionResult)).motionRemove motionHash)
      else if !s.hasEnded motion then .error (.pallet .motionNotEnded)
      else .ok ((s.depositEvent (.motionExpired motionHash)).motionRemove motionHash)

/-! ## What the calls do -/

section

variable {s s' : State cfg W} {authId : AuthId} {call : Call} {motionHash : Hash}
  {motion : MotionInfo cfg} {origin : Origin}

omit [DecidableEq Hash] in
theorem State.hasEnded_eq_false : s.hasEnded motion = false ↔ s.blockNumber < motion.endsBlock := by
  simp [State.hasEnded]

/-- The motion exists and gets one more approval, or it is new. -/
inductive Inserted (cfg : Config Origin Call Hash) (s : State cfg W) (authId : AuthId) (call : Call)
    (motion : MotionInfo cfg) : Prop
  | existing (old : MotionInfo cfg) (hlookup : s.motions.lookup (cfg.hashOf call) = some old)
      (hopen : s.blockNumber < old.endsBlock) (hnew : authId ∉ old.approvals.elems)
      (happrovals : motion.approvals.elems = insert authId old.approvals.elems)
      (hends : motion.endsBlock = old.endsBlock) (hcall : motion.call = old.call)
  | created (hlookup : s.motions.lookup (cfg.hashOf call) = none)
      (happrovals : motion.approvals.elems = {authId})
      (hends : motion.endsBlock = cfg.endsBlock s.blockNumber) (hcall : motion.call = call)

theorem insertApproval_inv (h : insertApproval authId call s = .ok motion) :
    Inserted cfg s authId call motion := by
  unfold insertApproval at h
  split at h
  case h_1 old hlookup =>
    obtain ⟨hopen, h⟩ := Fallible.of_check h
    rw [Bool.not_eq_true, State.hasEnded_eq_false] at hopen
    split at h
    case h_1 approvals hins =>
      cases h
      obtain ⟨hnew, happrovals⟩ := BoundedSet.tryInsert_eq_true hins
      exact .existing old hlookup hopen hnew happrovals rfl rfl
    case h_2 => cases h
    case h_3 => cases h
  case h_2 hlookup =>
    split at h
    case h_1 approvals hins =>
      cases h
      exact .created hlookup (BoundedSet.tryInsert_empty hins) rfl rfl
    case h_2 => cases h

theorem motionApprove_inv (h : motionApprove origin call s = .ok s') :
    ∃ authId motion, (∃ body ∈ cfg.approvalBodies, body.index = authId) ∧
      Inserted cfg s authId call motion ∧
      s' = { s with motions := s.motions.insert (cfg.hashOf call) motion }.depositEvent
        (.motionApproved (cfg.hashOf call) authId) := by
  unfold motionApprove at h
  split at h
  case h_1 => cases h
  case h_2 authId horigin =>
    split at h
    case h_1 => cases h
    case h_2 motion hins =>
      cases h
      exact ⟨authId, motion, ensureFromBodies_inv horigin, insertApproval_inv hins, rfl⟩

/-- The motion exists and loses an approval. -/
structure Removed (cfg : Config Origin Call Hash) (s : State cfg W) (authId : AuthId)
    (motionHash : Hash) (old motion : MotionInfo cfg) : Prop where
  lookup : s.motions.lookup motionHash = some old
  isOpen : s.blockNumber < old.endsBlock
  approvals : motion.approvals.elems = old.approvals.elems.erase authId
  endsBlock : motion.endsBlock = old.endsBlock
  call : motion.call = old.call

theorem removeApproval_inv (h : removeApproval authId motionHash s = .ok motion) :
    ∃ old, Removed cfg s authId motionHash old motion := by
  unfold removeApproval at h
  split at h
  case h_1 => cases h
  case h_2 old hlookup =>
    obtain ⟨hopen, h⟩ := Fallible.of_check h
    rw [Bool.not_eq_true, State.hasEnded_eq_false] at hopen
    split at h
    case h_1 approvals hrem =>
      cases h
      exact ⟨old, hlookup, hopen, BoundedSet.remove_eq_true hrem, rfl, rfl⟩
    case h_2 => cases h

theorem motionRevoke_inv (h : motionRevoke origin motionHash s = .ok s') :
    ∃ authId old motion, Removed cfg s authId motionHash old motion ∧
      s' = if motion.approvals.elems.card = 0 then
          ({ s with motions := s.motions.insert motionHash motion }.depositEvent
            (.motionRevoked motionHash authId)).motionRemove motionHash
        else { s with motions := s.motions.insert motionHash motion }.depositEvent
          (.motionRevoked motionHash authId) := by
  unfold motionRevoke at h
  split at h
  case h_1 => cases h
  case h_2 authId horigin =>
    split at h
    case h_1 => cases h
    case h_2 motion hrem =>
      obtain ⟨old, hremoved⟩ := removeApproval_inv hrem
      cases h
      exact ⟨authId, old, motion, hremoved, rfl⟩

/-- The motion is approved and its call is dispatched, which leads to the state `t`; or it has ended
without enough approvals. -/
inductive Closed (dispatch : Call → State cfg W → Except DispatchError (State cfg W))
    (motionHash : Hash) (s : State cfg W) : State cfg W → Prop
  | dispatched (motion : MotionInfo cfg) (hlookup : s.motions.lookup motionHash = some motion)
      (happroved : cfg.isMotionApproved (.ofNat motion.approvals.elems.card) = true)
      (result : Except DispatchError Unit) (t : State cfg W)
      (ht : t = { s with log := s.log ++ [.rootDispatch motionHash motion.call] } ∨
        dispatch motion.call { s with log := s.log ++ [.rootDispatch motionHash motion.call] } = .ok t) :
      Closed dispatch motionHash s
        ((t.depositEvent (.motionDispatched motionHash result)).motionRemove motionHash)
  | expired (motion : MotionInfo cfg) (hlookup : s.motions.lookup motionHash = some motion) :
      Closed dispatch motionHash s
        ((s.depositEvent (.motionExpired motionHash)).motionRemove motionHash)

theorem motionClose_inv (h : motionClose dispatch origin motionHash bound s = .ok s') :
    Closed dispatch motionHash s s' := by
  unfold motionClose at h
  obtain ⟨_, h⟩ := Fallible.of_check h
  split at h
  case h_1 => cases h
  case h_2 motion hlookup =>
    split at h
    case isTrue happroved =>
      obtain ⟨_, h⟩ := Fallible.of_check h
      unfold dispatchAsRoot at h
      dsimp only at h
      cases hd : dispatch motion.call
          { s with log := s.log ++ [.rootDispatch motionHash motion.call] } with
      | ok t =>
        rw [hd] at h
        cases h
        exact .dispatched motion hlookup happroved _ t (.inr hd)
      | error e =>
        rw [hd] at h
        cases h
        exact .dispatched motion hlookup happroved _ _ (.inl rfl)
    case isFalse =>
      obtain ⟨_, h⟩ := Fallible.of_check h
      cases h
      exact .expired motion hlookup

end

/-! ## Runs -/

/-- What a call dispatched with the Root origin can do to the pallet: change the rest of the storage,
and make calls of the pallet. It closes no motion, since Root is not a signed origin. -/
inductive PalletStep (cfg : Config Origin Call Hash) : State cfg W → State cfg W → Prop
  | world (s : State cfg W) (world : W) : PalletStep cfg s { s with world }
  | approve {s s' : State cfg W} {origin : Origin} {call : Call}
      (h : motionApprove origin call s = .ok s') : PalletStep cfg s s'
  | revoke {s s' : State cfg W} {origin : Origin} {motionHash : Hash}
      (h : motionRevoke origin motionHash s = .ok s') : PalletStep cfg s s'

/-- How the runtime dispatches the call of a motion. -/
structure RootDispatch (cfg : Config Origin Call Hash) (W : Type) where
  dispatch : Call → State cfg W → Except DispatchError (State cfg W)
  reaches : ∀ {call : Call} {s s' : State cfg W}, dispatch call s = .ok s' →
    Relation.ReflTransGen (PalletStep cfg) s s'

inductive Step (Origin Call Hash : Type)
  | advance (blocks : Nat)
  | motionApprove (origin : Origin) (call : Call)
  | motionRevoke (origin : Origin) (motionHash : Hash)
  | motionClose (origin : Origin) (motionHash : Hash) (proposalWeightBound : Weight)

namespace RootDispatch

variable (root : RootDispatch cfg W)

def dispatchStep (s : State cfg W) : Step Origin Call Hash → Except DispatchError (State cfg W)
  | .advance blocks => .ok { s with blockNumber := s.blockNumber + blocks }
  | .motionApprove origin call => FederatedAuthority.motionApprove origin call s
  | .motionRevoke origin motionHash => FederatedAuthority.motionRevoke origin motionHash s
  | .motionClose origin motionHash bound =>
    FederatedAuthority.motionClose root.dispatch origin motionHash bound s

/-- A failed call leaves the storage as it was. -/
def step (s : State cfg W) (st : Step Origin Call Hash) : State cfg W :=
  match root.dispatchStep s st with
  | .ok s' => s'
  | .error _ => s

def run (s : State cfg W) (steps : List (Step Origin Call Hash)) : State cfg W :=
  steps.foldl root.step s

end RootDispatch

/-! ## The life of a motion -/

structure MotionLife where
  createdAt : Nat
  /-- The approvals that have not been revoked, with the block they were given in. -/
  approvals : List (AuthId × Nat)
  dispatches : Nat
deriving DecidableEq

def MotionLife.approve (authId : AuthId) (block : Nat) : Option MotionLife → MotionLife
  | none => ⟨block, [(authId, block)], 0⟩
  | some life => { life with approvals := life.approvals ++ [(authId, block)] }

def MotionLife.revoke (authId : AuthId) (life : MotionLife) : MotionLife :=
  { life with approvals := life.approvals.filter (·.1 ≠ authId) }

def MotionLife.next (hash : Hash) (life : Option MotionLife) : Entry Call Hash → Option MotionLife
  | .event block (.motionApproved motionHash authId) =>
    if motionHash = hash then some (approve authId block life) else life
  | .event _ (.motionRevoked motionHash authId) =>
    if motionHash = hash then life.map (revoke authId) else life
  | .event _ (.motionRemoved motionHash) => if motionHash = hash then none else life
  | .event _ (.motionDispatched _ _) | .event _ (.motionExpired _) => life
  | .rootDispatch motionHash _ =>
    if motionHash = hash then life.map fun l => { l with dispatches := l.dispatches + 1 } else life

/-- The life of the motion of a hash, from the log alone. -/
def lifeOf (hash : Hash) (log : List (Entry Call Hash)) : Option MotionLife :=
  log.foldl (MotionLife.next hash) none

@[simp] theorem lifeOf_append_singleton (hash : Hash) (log : List (Entry Call Hash))
    (entry : Entry Call Hash) :
    lifeOf hash (log ++ [entry]) = MotionLife.next hash (lifeOf hash log) entry := by
  simp [lifeOf]

theorem lifeOf_append_of_ne {hash : Hash} {log : List (Entry Call Hash)} {entry : Entry Call Hash}
    (hne : hash ≠ entry.motionHash) : lifeOf hash (log ++ [entry]) = lifeOf hash log := by
  rw [lifeOf_append_singleton]
  cases entry with
  | rootDispatch motionHash call => exact if_neg hne.symm
  | event block e =>
    cases e with
    | motionApproved motionHash authId | motionRevoked motionHash authId | motionRemoved motionHash =>
      exact if_neg hne.symm
    | motionDispatched motionHash motionResult => rfl
    | motionExpired motionHash => rfl

/-- Enough distinct bodies approve the motion, each gave its approval in time, and the call was not
dispatched before. -/
structure StandingQuorum (cfg : Config Origin Call Hash) (life : MotionLife) : Prop where
  undispatched : life.dispatches = 0
  distinct : (life.approvals.map Prod.fst).Nodup
  bodies : ∀ p ∈ life.approvals, ∃ body ∈ cfg.approvalBodies, body.index = p.1
  proportion : cfg.numerator.toNat * cfg.maxAuthorityBodies.toNat ≤
    life.approvals.length * cfg.denominator.toNat
  inTime : ∀ p ∈ life.approvals, p.2 < cfg.endsBlock life.createdAt

/-- Every dispatch in the log has the call of its hash, and a quorum that stands at that point. -/
inductive Justified (cfg : Config Origin Call Hash) : List (Entry Call Hash) → Prop
  | nil : Justified cfg []
  | event {log : List (Entry Call Hash)} (block : Nat) (e : Event Hash) (h : Justified cfg log) :
      Justified cfg (log ++ [.event block e])
  | rootDispatch {log : List (Entry Call Hash)} {motionHash : Hash} {call : Call} {life : MotionLife}
      (h : Justified cfg log) (hcall : cfg.hashOf call = motionHash)
      (hlife : lifeOf motionHash log = some life) (hquorum : StandingQuorum cfg life) :
      Justified cfg (log ++ [.rootDispatch motionHash call])

theorem Justified.at_rootDispatch (h : Justified cfg log)
    (hlog : log = before ++ .rootDispatch motionHash call :: after) :
    cfg.hashOf call = motionHash ∧
      ∃ life, lifeOf motionHash before = some life ∧ StandingQuorum cfg life := by
  induction h generalizing after with
  | nil => simp at hlog
  | event block e h ih =>
    rcases List.eq_nil_or_concat after with rfl | ⟨after', x, rfl⟩
    · cases (List.append_inj' hlog rfl).2
    · rw [List.concat_eq_append, ← List.cons_append, ← List.append_assoc] at hlog
      exact ih (List.append_inj' hlog rfl).1
  | rootDispatch h hcall hlife hquorum ih =>
    rcases List.eq_nil_or_concat after with rfl | ⟨after', x, rfl⟩
    · obtain ⟨rfl, hentry⟩ := List.append_inj' hlog rfl
      cases hentry
      exact ⟨hcall, _, hlife, hquorum⟩
    · rw [List.concat_eq_append, ← List.cons_append, ← List.append_assoc] at hlog
      exact ih (List.append_inj' hlog rfl).1

/-! ## The storage follows the log -/

structure Matches (cfg : Config Origin Call Hash) (block : Nat) (hash : Hash)
    (motion : MotionInfo cfg) (life : MotionLife) : Prop where
  key : cfg.hashOf motion.call = hash
  endsBlock : motion.endsBlock = cfg.endsBlock life.createdAt
  approvals : motion.approvals.elems = (life.approvals.map Prod.fst).toFinset
  distinct : (life.approvals.map Prod.fst).Nodup
  nonempty : life.approvals ≠ []
  bodies : ∀ p ∈ life.approvals, ∃ body ∈ cfg.approvalBodies, body.index = p.1
  created_le : life.createdAt ≤ block
  inTime : ∀ p ∈ life.approvals, p.2 = life.createdAt ∨ p.2 < motion.endsBlock
  -- a motion created in the last possible block has ended at once, and gets no second approval
  early : life.createdAt < motion.endsBlock ∨ life.approvals.length = 1

section

omit [DecidableEq Hash]

variable {block block' : Nat} {hash : Hash} {motion old : MotionInfo cfg} {life : MotionLife}
  {authId : AuthId}

theorem Matches.mono (h : Matches cfg block hash motion life) (hle : block ≤ block') :
    Matches cfg block' hash motion life :=
  { h with created_le := h.created_le.trans hle }

theorem Matches.card_eq (h : Matches cfg block hash motion life) :
    motion.approvals.elems.card = life.approvals.length := by
  rw [h.approvals, List.toFinset_card_of_nodup h.distinct, List.length_map]

theorem Matches.approve (h : Matches cfg block hash old life) (hopen : block < old.endsBlock)
    (hbody : ∃ body ∈ cfg.approvalBodies, body.index = authId)
    (hnew : authId ∉ old.approvals.elems)
    (happrovals : motion.approvals.elems = insert authId old.approvals.elems)
    (hends : motion.endsBlock = old.endsBlock) (hcall : motion.call = old.call) :
    Matches cfg block hash motion (MotionLife.approve authId block (some life)) where
  key := by rw [hcall, h.key]
  endsBlock := hends.trans h.endsBlock
  approvals := by
    rw [happrovals, h.approvals]
    simp [MotionLife.approve]
  distinct := by
    rw [h.approvals, List.mem_toFinset] at hnew
    simp only [MotionLife.approve, List.map_append, List.map_cons, List.map_nil]
    rw [← List.concat_eq_append]
    exact h.distinct.concat hnew
  nonempty := by simp [MotionLife.approve]
  bodies := by
    intro p hp
    rcases List.mem_append.mp hp with hp | hp
    · exact h.bodies p hp
    · rw [List.mem_singleton.mp hp]
      exact hbody
  created_le := h.created_le
  inTime := by
    intro p hp
    rw [hends]
    rcases List.mem_append.mp hp with hp | hp
    · exact h.inTime p hp
    · rw [List.mem_singleton.mp hp]
      exact .inr hopen
  early := .inl (h.created_le.trans_lt (hends ▸ hopen))

theorem Matches.create (hbody : ∃ body ∈ cfg.approvalBodies, body.index = authId)
    (happrovals : motion.approvals.elems = {authId}) (hends : motion.endsBlock = cfg.endsBlock block)
    (hcall : motion.call = call) :
    Matches cfg block (cfg.hashOf call) motion (MotionLife.approve authId block none) where
  key := by rw [hcall]
  endsBlock := hends
  approvals := by rw [happrovals]; rfl
  distinct := List.nodup_singleton _
  nonempty := List.cons_ne_nil _ _
  bodies := by
    intro p hp
    rw [List.mem_singleton.mp hp]
    exact hbody
  created_le := le_rfl
  inTime := by
    intro p hp
    rw [List.mem_singleton.mp hp]
    exact .inl rfl
  early := .inr rfl

theorem Matches.revoke_approvals (h : Matches cfg block hash old life)
    (happrovals : motion.approvals.elems = old.approvals.elems.erase authId) :
    motion.approvals.elems = ((life.revoke authId).approvals.map Prod.fst).toFinset := by
  rw [happrovals, h.approvals]
  ext a
  simp only [MotionLife.revoke, Finset.mem_erase, List.mem_toFinset, List.mem_map, List.mem_filter]
  constructor
  · rintro ⟨hne, p, hp, rfl⟩
    exact ⟨p, ⟨hp, by simpa using hne⟩, rfl⟩
  · rintro ⟨p, ⟨hp, hne⟩, rfl⟩
    exact ⟨by simpa using hne, p, hp, rfl⟩

theorem Matches.revoke (h : Matches cfg block hash old life) (hopen : block < old.endsBlock)
    (happrovals : motion.approvals.elems = old.approvals.elems.erase authId)
    (hends : motion.endsBlock = old.endsBlock) (hcall : motion.call = old.call)
    (hnonempty : motion.approvals.elems.card ≠ 0) :
    Matches cfg block hash motion (life.revoke authId) where
  key := by rw [hcall, h.key]
  endsBlock := hends.trans h.endsBlock
  approvals := h.revoke_approvals happrovals
  distinct := h.distinct.sublist (List.filter_sublist.map _)
  nonempty := by
    intro hnil
    rw [h.revoke_approvals happrovals, hnil] at hnonempty
    exact hnonempty rfl
  bodies := fun p hp => h.bodies p (List.mem_of_mem_filter hp)
  created_le := h.created_le
  inTime := fun p hp => hends ▸ h.inTime p (List.mem_of_mem_filter hp)
  early := .inl (h.created_le.trans_lt (hends ▸ hopen))

theorem Config.isMotionApproved_iff (hn : n ≤ cfg.maxAuthorityBodies.toNat) :
    cfg.isMotionApproved (.ofNat n) = true ↔
      cfg.numerator.toNat * cfg.maxAuthorityBodies.toNat ≤ n * cfg.denominator.toNat := by
  have hlt : n < 2 ^ 32 := hn.trans_lt cfg.maxAuthorityBodies.toNat_lt
  have hfits : n * cfg.denominator.toNat < 2 ^ 32 :=
    (Nat.mul_le_mul_right _ hn).trans_lt cfg.denominator_fits
  rw [Config.isMotionApproved, reachedProportion, decide_eq_true_iff, ge_iff_le,
    UInt32.le_iff_toNat_le, UInt32.toNat_mul, UInt32.toNat_mul, UInt32.toNat_ofNat',
    Nat.mod_eq_of_lt hlt, Nat.mod_eq_of_lt cfg.numerator_fits, Nat.mod_eq_of_lt hfits]

theorem Matches.dispatched (h : Matches cfg block hash motion life) (n : Nat) :
    Matches cfg block hash motion { life with dispatches := n } :=
  ⟨h.key, h.endsBlock, h.approvals, h.distinct, h.nonempty, h.bodies, h.created_le, h.inTime, h.early⟩

theorem Matches.standingQuorum (h : Matches cfg block hash motion life)
    (happroved : cfg.isMotionApproved (.ofNat motion.approvals.elems.card) = true)
    (hzero : life.dispatches = 0) : StandingQuorum cfg life := by
  rw [Config.isMotionApproved_iff motion.approvals.card_le, h.card_eq] at happroved
  refine ⟨hzero, h.distinct, h.bodies, happroved, ?_⟩
  intro p hp
  rw [← h.endsBlock]
  rcases h.inTime p hp with hcreated | hlt
  · rw [hcreated]
    refine h.early.resolve_right fun hone => ?_
    rw [hone, Nat.one_mul] at happroved
    exact absurd happroved (not_le.mpr cfg.several)
  · exact hlt

end

/-- The storage follows the log; a motion has been dispatched at most `pending` times. -/
structure Inv (cfg : Config Origin Call Hash) (pending : Hash → Nat) (s : State cfg W) : Prop where
  motions : ∀ hash, Option.Rel (Matches cfg s.blockNumber hash) (s.motions.lookup hash)
    (lifeOf hash s.log)
  dispatches : ∀ hash life, lifeOf hash s.log = some life → life.dispatches ≤ pending hash
  justified : Justified cfg s.log

section

variable {pending : Hash → Nat} {s s' : State cfg W} {hash motionHash : Hash} {origin : Origin}
  {call : Call}

theorem Inv.lookup_some (h : Inv cfg pending s) (hlookup : s.motions.lookup hash = some motion) :
    ∃ life, lifeOf hash s.log = some life ∧ Matches cfg s.blockNumber hash motion life := by
  have hrel := h.motions hash
  rw [hlookup] at hrel
  generalize hlife : lifeOf hash s.log = life at hrel
  cases hrel with
  | some hm => exact ⟨_, rfl, hm⟩

theorem Inv.lookup_none (h : Inv cfg pending s) (hlookup : s.motions.lookup hash = none) :
    lifeOf hash s.log = none := by
  have hrel := h.motions hash
  rw [hlookup] at hrel
  generalize hlife : lifeOf hash s.log = life at hrel
  cases hrel with
  | none => rfl

/-- A step that touches one motion only has to say what becomes of that one. -/
theorem Inv.of_frame (h : Inv cfg pending s) (motionHash : Hash)
    (hblock : s'.blockNumber = s.blockNumber)
    (hlookup : ∀ hash ≠ motionHash, s'.motions.lookup hash = s.motions.lookup hash)
    (hlife : ∀ hash ≠ motionHash, lifeOf hash s'.log = lifeOf hash s.log)
    (hpending : ∀ hash ≠ motionHash, pending hash ≤ pending' hash)
    (hself : Option.Rel (Matches cfg s.blockNumber motionHash) (s'.motions.lookup motionHash)
      (lifeOf motionHash s'.log))
    (hdispatches : ∀ life, lifeOf motionHash s'.log = some life → life.dispatches ≤ pending' motionHash)
    (hjustified : Justified cfg s'.log) : Inv cfg pending' s' := by
  refine ⟨?_, ?_, hjustified⟩
  · intro hash
    rw [hblock]
    by_cases heq : hash = motionHash
    · rw [heq]
      exact hself
    · rw [hlookup hash heq, hlife hash heq]
      exact h.motions hash
  · intro hash life hl
    by_cases heq : hash = motionHash
    · rw [heq] at hl ⊢
      exact hdispatches life hl
    · rw [hlife hash heq] at hl
      exact (h.dispatches hash life hl).trans (hpending hash heq)

theorem Inv.approve (h : Inv cfg pending s) (hcall : motionApprove origin call s = .ok s') :
    Inv cfg pending s' := by
  obtain ⟨authId, motion, hbody, hins, rfl⟩ := motionApprove_inv hcall
  have hself : Matches cfg s.blockNumber (cfg.hashOf call) motion
      (MotionLife.approve authId s.blockNumber (lifeOf (cfg.hashOf call) s.log)) ∧
      (MotionLife.approve authId s.blockNumber (lifeOf (cfg.hashOf call) s.log)).dispatches ≤
        pending (cfg.hashOf call) := by
    cases hins with
    | existing old hlookup hopen hnew happrovals hends hold =>
      obtain ⟨life, hlife, hm⟩ := h.lookup_some hlookup
      rw [hlife]
      exact ⟨hm.approve hopen hbody hnew happrovals hends hold, h.dispatches _ life hlife⟩
    | created hlookup happrovals hends hnew =>
      rw [h.lookup_none hlookup]
      exact ⟨.create hbody happrovals hends hnew, Nat.zero_le _⟩
  refine h.of_frame (cfg.hashOf call) rfl (fun hash hne => AList.lookup_insert_ne hne)
    (fun hash hne => lifeOf_append_of_ne hne) (fun _ _ => le_rfl) ?_ ?_ (.event _ _ h.justified)
  · rw [State.depositEvent, lifeOf_append_singleton, MotionLife.next, if_pos rfl, AList.lookup_insert]
    exact .some hself.1
  · intro life hlife
    rw [State.depositEvent, lifeOf_append_singleton, MotionLife.next, if_pos rfl] at hlife
    cases hlife
    exact hself.2

theorem Inv.remove {t : State cfg W} (h : Inv cfg pending s) (motionHash : Hash)
    (hblock : t.blockNumber = s.blockNumber)
    (hlookup : ∀ hash ≠ motionHash, t.motions.lookup hash = s.motions.lookup hash)
    (hlife : ∀ hash ≠ motionHash, lifeOf hash t.log = lifeOf hash s.log)
    (hpending : ∀ hash ≠ motionHash, pending hash ≤ pending' hash) (hjustified : Justified cfg t.log) :
    Inv cfg pending' (t.motionRemove motionHash) := by
  have hnone : lifeOf motionHash (t.motionRemove motionHash).log = none := by
    rw [State.motionRemove, State.depositEvent, lifeOf_append_singleton, MotionLife.next, if_pos rfl]
  refine h.of_frame motionHash hblock ?_ ?_ hpending ?_ ?_ (.event _ _ hjustified)
  · intro hash hne
    rw [State.motionRemove, State.depositEvent, AList.lookup_erase_ne hne, hlookup hash hne]
  · intro hash hne
    rw [State.motionRemove, State.depositEvent, lifeOf_append_of_ne hne, hlife hash hne]
  · rw [hnone, State.motionRemove, State.depositEvent, AList.lookup_erase]
    exact .none
  · intro life hlife
    rw [hnone] at hlife
    cases hlife

theorem Inv.revoke (h : Inv cfg pending s) (hcall : motionRevoke origin motionHash s = .ok s') :
    Inv cfg pending s' := by
  obtain ⟨authId, old, motion, hrem, rfl⟩ := motionRevoke_inv hcall
  obtain ⟨life, hlife, hm⟩ := h.lookup_some hrem.lookup
  have hother : ∀ hash ≠ motionHash,
      lifeOf hash (s.log ++ [.event s.blockNumber (.motionRevoked motionHash authId)]) =
        lifeOf hash s.log := fun hash hne => lifeOf_append_of_ne hne
  split
  case isTrue hempty =>
    exact h.remove motionHash rfl (fun hash hne => AList.lookup_insert_ne hne) hother
      (fun _ _ => le_rfl) (.event _ _ h.justified)
  case isFalse hnonempty =>
    have hself : lifeOf motionHash
        (s.log ++ [.event s.blockNumber (.motionRevoked motionHash authId)]) =
          some (life.revoke authId) := by
      rw [lifeOf_append_singleton, MotionLife.next, if_pos rfl, hlife, Option.map_some]
    refine h.of_frame motionHash rfl (fun hash hne => AList.lookup_insert_ne hne) hother
      (fun _ _ => le_rfl) ?_ ?_ (.event _ _ h.justified)
    · rw [State.depositEvent, hself, AList.lookup_insert]
      exact .some (hm.revoke hrem.isOpen hrem.approvals hrem.endsBlock hrem.call hnonempty)
    · intro life' hlife'
      rw [State.depositEvent, hself] at hlife'
      cases hlife'
      exact h.dispatches motionHash life hlife

theorem Inv.palletStep (h : Inv cfg pending s) (hstep : PalletStep cfg s s') : Inv cfg pending s' := by
  cases hstep with
  | world world => exact ⟨h.motions, h.dispatches, h.justified⟩
  | approve hcall => exact h.approve hcall
  | revoke hcall => exact h.revoke hcall

theorem Inv.palletSteps (h : Inv cfg pending s)
    (hsteps : Relation.ReflTransGen (PalletStep cfg) s s') : Inv cfg pending s' := by
  induction hsteps with
  | refl => exact h
  | tail _ hstep ih => exact ih.palletStep hstep

theorem Inv.rootDispatch (h : Inv cfg (fun _ => 0) s)
    (hlookup : s.motions.lookup motionHash = some motion)
    (happroved : cfg.isMotionApproved (.ofNat motion.approvals.elems.card) = true) :
    Inv cfg (Function.update (fun _ => 0) motionHash 1)
      { s with log := s.log ++ [.rootDispatch motionHash motion.call] } := by
  obtain ⟨life, hlife, hm⟩ := h.lookup_some hlookup
  have hzero : life.dispatches = 0 := Nat.le_zero.mp (h.dispatches motionHash life hlife)
  have hself : lifeOf motionHash (s.log ++ [.rootDispatch motionHash motion.call]) =
      some { life with dispatches := life.dispatches + 1 } := by
    rw [lifeOf_append_singleton, MotionLife.next, if_pos rfl, hlife, Option.map_some]
  refine h.of_frame motionHash rfl (fun _ _ => rfl) (fun hash hne => lifeOf_append_of_ne hne)
    (fun _ _ => Nat.zero_le _) ?_ ?_
    (.rootDispatch h.justified hm.key hlife (hm.standingQuorum happroved hzero))
  · rw [hself, hlookup]
    exact .some (hm.dispatched _)
  · intro life' hlife'
    rw [hself] at hlife'
    cases hlife'
    rw [Function.update_self, hzero]

theorem Inv.close (root : RootDispatch cfg W) (h : Inv cfg (fun _ => 0) s)
    (hcall : motionClose root.dispatch origin motionHash bound s = .ok s') :
    Inv cfg (fun _ => 0) s' := by
  cases motionClose_inv hcall with
  | dispatched motion hlookup happroved result t ht =>
    have hdispatch := h.rootDispatch hlookup happroved
    have hinv : Inv cfg (Function.update (fun _ => 0) motionHash 1) t := by
      rcases ht with rfl | ht
      · exact hdispatch
      · exact hdispatch.palletSteps (root.reaches ht)
    refine hinv.remove motionHash rfl (fun _ _ => rfl) (fun hash hne => lifeOf_append_of_ne hne) ?_
      (.event _ _ hinv.justified)
    intro hash hne
    rw [Function.update_of_ne hne]
  | expired motion hlookup =>
    exact h.remove motionHash rfl (fun _ _ => rfl) (fun hash hne => lifeOf_append_of_ne hne)
      (fun _ _ => le_rfl) (.event _ _ h.justified)

theorem Inv.advance (h : Inv cfg pending s) (blocks : Nat) :
    Inv cfg pending { s with blockNumber := s.blockNumber + blocks } := by
  refine ⟨?_, h.dispatches, h.justified⟩
  intro hash
  have hrel := h.motions hash
  dsimp only
  generalize s.motions.lookup hash = motion? at hrel ⊢
  generalize lifeOf hash s.log = life? at hrel ⊢
  cases hrel with
  | none => exact .none
  | some hm => exact .some (hm.mono (Nat.le_add_right _ _))

theorem Inv.step (root : RootDispatch cfg W) (h : Inv cfg (fun _ => 0) s)
    (st : Step Origin Call Hash) : Inv cfg (fun _ => 0) (root.step s st) := by
  unfold RootDispatch.step
  cases hd : root.dispatchStep s st with
  | error e => exact h
  | ok s' =>
    cases st with
    | advance blocks =>
      cases hd
      exact h.advance blocks
    | motionApprove origin call => exact h.approve hd
    | motionRevoke origin motionHash => exact h.revoke hd
    | motionClose origin motionHash bound => exact h.close root hd

theorem Inv.run (root : RootDispatch cfg W) (h : Inv cfg (fun _ => 0) s)
    (steps : List (Step Origin Call Hash)) : Inv cfg (fun _ => 0) (root.run s steps) := by
  induction steps generalizing s with
  | nil => exact h
  | cons st steps ih => exact ih (h.step root st)

theorem Inv.genesis (cfg : Config Origin Call Hash) (world : W) :
    Inv cfg (fun _ => 0) (State.genesis cfg world) :=
  ⟨fun _ => .none, (fun _ _ h => nomatch h), .nil⟩

end

/-- A call is dispatched with the Root origin only while a quorum stands, and once for each creation of
its motion; and the stored motions are well formed. -/
theorem motions_dispatch_with_quorum (cfg : Config Origin Call Hash) (root : RootDispatch cfg W)
    (world : W) (steps : List (Step Origin Call Hash)) :
    let s := root.run (State.genesis cfg world) steps
    (∀ before motionHash call after, s.log = before ++ .rootDispatch motionHash call :: after →
      cfg.hashOf call = motionHash ∧
        ∃ life, lifeOf motionHash before = some life ∧ StandingQuorum cfg life) ∧
    (∀ hash motion, s.motions.lookup hash = some motion →
      cfg.hashOf motion.call = hash ∧ 1 ≤ motion.approvals.elems.card ∧
        motion.approvals.elems.card ≤ cfg.maxAuthorityBodies.toNat) := by
  intro s
  have hinv : Inv cfg (fun _ => 0) s := (Inv.genesis cfg world).run root steps
  constructor
  · intro before motionHash call after hlog
    exact hinv.justified.at_rootDispatch hlog
  · intro hash motion hlookup
    obtain ⟨life, _, hm⟩ := hinv.lookup_some hlookup
    refine ⟨hm.key, ?_, motion.approvals.card_le⟩
    rw [hm.card_eq]
    exact List.length_pos_of_ne_nil hm.nonempty

end MidnightNode.FederatedAuthority
