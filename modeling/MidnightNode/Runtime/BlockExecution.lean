import MidnightNode.Lib.TaggedPieces
import MidnightNode.Runtime.Governance

/-!
# Transactions that a block applies

Midnight transactions are applied by `send_mn_transaction`, system transactions by
`send_mn_system_transaction` and by the inherents of the observation and of the bridge. Such a call can be
an extrinsic of its own, it can be dispatched by a collective or by the close of a motion, or the scheduler
dispatches it before the first extrinsic. A dispatch that fails applies nothing.
-/

namespace MidnightNode.Runtime
open FederatedAuthority TaggedPieces

/-- A transaction as the toolkit stores it. -/
inductive RawTransaction
  | midnight (tx : List UInt8)
  | system (tx : List UInt8)
deriving DecidableEq, Repr

def RawTransaction.system? : RawTransaction → Option (List UInt8)
  | .midnight _ => none
  | .system tx => some tx

/-- `frame_system::Phase`. -/
inductive Phase
  | initialization
  | applyExtrinsic (index : Nat)
  | finalization
deriving DecidableEq, Repr

/-- The phases in which calls are dispatched. -/
def phaseOf : Nat → Phase
  | 0 => .initialization
  | index + 1 => .applyExtrinsic index

theorem phaseOf_injective : Function.Injective phaseOf := by
  intro i j h
  cases i with
  | zero =>
    cases j with
    | zero => rfl
    | succ j => cases h
  | succ i =>
    cases j with
    | zero => cases h
    | succ j =>
      cases h
      rfl

section

variable {Rest : Type} {env : Env Rest}

/-! ## The call that a call dispatches -/

/-- With its origin and the state it starts from. -/
def innerCall (origin : Origin) (call : RuntimeCall) (s : env.State) :
    Option (Origin × RuntimeCall × env.State) :=
  match origin, call with
  | .signed who, .execute body proposal lengthBound =>
    if who ∈ (s.world.collective body).members ∧ env.encodedSize proposal ≤ lengthBound then
      some (.collective body (.member who), proposal, s)
    else none
  | .signed who, .propose body threshold proposal lengthBound =>
    let c := s.world.collective body
    if who ∈ c.members ∧ env.encodedSize proposal ≤ lengthBound ∧
        (env.callWeight proposal).allLte env.maxProposalWeight = true ∧
        env.hashOf proposal ∉ c.proposals ∧ threshold < 2 then
      some (.collective body (.members 1 c.members.length), proposal, s)
    else none
  | .signed _, .close body proposalHash index weightBound lengthBound =>
    let c := s.world.collective body
    match c.proposals.lookup proposalHash with
    | none => none
    | some p =>
      if p.index = index ∧ p.ayes.length ≥ p.threshold ∧ env.encodedSize p.call ≤ lengthBound ∧
          (env.callWeight p.call).allLte weightBound = true then
        some (.collective body (.members p.ayes.length c.members.length), p.call, s)
      else none
  | .signed _, .motionClose motionHash weightBound =>
    match s.motions.lookup motionHash with
    | none => none
    | some motion =>
      if env.config.isMotionApproved (.ofNat motion.approvals.elems.card) = true ∧
          (env.callWeight motion.call).allLte weightBound = true then
        some (.root, motion.call, { s with log := s.log ++ [.rootDispatch motionHash motion.call] })
      else none
  | _, _ => none

/-! ## What a dispatch applies -/

/-- The system transactions that the inherents execute: `process_tokens` and the transfers of the bridge
make them from their arguments and the storage. -/
abbrev InherentTxs (Rest : Type) : Type := GatedCall → List UInt8 → Nat → World Rest → List (List UInt8)

variable (inherentTxs : InherentTxs Rest)

/-- The argument of `send_mn_system_transaction` is the transaction. -/
def executedBy (call : GatedCall) (args : List UInt8) (s : env.State) : List (List UInt8) :=
  match call with
  | .midnightSystemSendMnSystemTransaction => [args]
  | .cNightProcessTokens | .bridgeHandleTransfers => inherentTxs call args s.blockNumber s.world
  | _ => []

/-- What a call applies itself if it succeeds. -/
def ownTransactions (call : RuntimeCall) (s : env.State) : List RawTransaction :=
  match call with
  | .sendMnTransaction midnightTx => [.midnight midnightTx]
  | .gated call args => (executedBy inherentTxs call args s).map .system
  | _ => []

/-- What the dispatch of a call that dispatches no other applies. -/
def appliedLeaf (origin : Origin) (call : RuntimeCall) (s : env.State) : List RawTransaction :=
  match dispatchLeaf origin call s with
  | .error _ => []
  | .ok _ => ownTransactions inherentTxs call s

/-- What a dispatch applies, in order. -/
def applied (origin : Origin) (call : RuntimeCall) (s : env.State) : List RawTransaction :=
  match dispatch origin call s with
  | .error _ => []
  | .ok _ =>
    match innerCall origin call s with
    | none => ownTransactions inherentTxs call s
    | some (o, c, t) => appliedLeaf inherentTxs o c t

theorem innerCall_sendMnTransaction (origin : Origin) (midnightTx : List UInt8) (s : env.State) :
    innerCall origin (.sendMnTransaction midnightTx) s = none := by
  cases origin <;> rfl

theorem applied_of_error {origin : Origin} {call : RuntimeCall} {s : env.State} {e : DispatchError}
    (h : dispatch origin call s = .error e) : applied inherentTxs origin call s = [] := by
  rw [applied, h]

theorem applied_sendMnTransaction {origin : Origin} {midnightTx : List UInt8} {s s' : env.State}
    (h : dispatch origin (.sendMnTransaction midnightTx) s = .ok s') :
    applied inherentTxs origin (.sendMnTransaction midnightTx) s = [.midnight midnightTx] := by
  rw [applied, h]
  simp only [innerCall_sendMnTransaction, ownTransactions]

/-! ## Blocks -/

inductive Extrinsic
  | signed (who : AccountId) (call : RuntimeCall)
  | bare (call : RuntimeCall)
deriving DecidableEq

namespace Extrinsic

def call : Extrinsic → RuntimeCall
  | .signed _ call | .bare call => call

def origin : Extrinsic → Origin
  | .signed who _ => .signed who
  | .bare _ => .none

def toStep : Extrinsic → Step Rest
  | .signed who call => .signed who call
  | .bare call => .unsigned call

end Extrinsic

/-- What happens before the extrinsics. The scheduler is one of the hooks; the others apply no
transaction. -/
inductive Hook (Rest : Type)
  | changes (blocks : Nat) (changes : Changes Rest)
  | service (index : Nat)

namespace Hook

def toStep : Hook Rest → Step Rest
  | .changes blocks c => .hook blocks c
  | .service index => .service index

def applied (s : env.State) : Hook Rest → List RawTransaction
  | .changes _ _ => []
  | .service index =>
    match s.world.outside.agenda[index]? with
    | none => []
    | some call =>
      let outside := { s.world.outside with agenda := s.world.outside.agenda.eraseIdx index }
      Runtime.applied inherentTxs .root call { s with world := s.world.setOutside outside }

end Hook

/-- The hooks at the end of a block apply no transaction. -/
structure Block (Rest : Type) where
  onInitialize : List (Hook Rest)
  extrinsics : List Extrinsic
  filtered : ∀ who call, .signed who call ∈ extrinsics → callFilter call = true

def appliedByHooks : env.State → List (Hook Rest) → List RawTransaction
  | _, [] => []
  | s, hook :: hooks => hook.applied inherentTxs s ++ appliedByHooks (step s hook.toStep) hooks

/-- The extrinsics, each with the state it is applied to. -/
def withStates : env.State → List Extrinsic → List (Extrinsic × env.State)
  | _, [] => []
  | s, ext :: exts => (ext, s) :: withStates (step s ext.toStep) exts

theorem map_fst_withStates (s : env.State) (exts : List Extrinsic) :
    (withStates s exts).map Prod.fst = exts := by
  induction exts generalizing s with
  | nil => rfl
  | cons ext exts ih => rw [withStates, List.map_cons, ih]

namespace Block

/-- The extrinsics with their states, in a block on top of a state. -/
def executed (block : Block Rest) (s : env.State) : List (Extrinsic × env.State) :=
  withStates (run s (block.onInitialize.map Hook.toStep)) block.extrinsics

def pieces (block : Block Rest) (s : env.State) : List (List RawTransaction) :=
  appliedByHooks inherentTxs s block.onInitialize ::
    (block.executed s).map fun (ext, t) => applied inherentTxs ext.origin ext.call t

/-- What a block applies, in order, with the phases. -/
def applied (block : Block Rest) (s : env.State) : List (Phase × RawTransaction) :=
  tagPieces phaseOf 0 (block.pieces inherentTxs s)

end Block

end

end MidnightNode.Runtime
