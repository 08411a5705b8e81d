import Mathlib
import MidnightNode.Lib.Fallible

/-!
# The committee pipeline

The storage of `pallet_session_validator_management` and its session manager: the inherent `set` stores the
next committee, a session rotation moves it to the queue and promotes the queued committee to the current
one. A block first runs the hooks of the pallet and of the session pallet, which rotates when
`shouldEndSession` says so, and then its calls of `set`, of any origin and with any arguments.

`State` keeps the history of the three moves beside the storage. `Inv` relates the two: every stored
committee is queued and then promoted in its turn, and the labels count the stored committees.
-/

namespace MidnightNode.Committee

@[ext]
structure CommitteeInfo (Member : Type) where
  epoch : Nat
  committee : List Member
deriving DecidableEq

structure Storage (Member : Type) where
  currentCommittee : CommitteeInfo Member
  queuedCommittee : CommitteeInfo Member
  nextCommittee : Option (CommitteeInfo Member)
deriving DecidableEq

variable {Member : Type}

def genesisBuild (maxValidators : Nat) (initialAuthorities : List Member) : Storage Member :=
  let committeeInfo := ⟨0, initialAuthorities.take maxValidators⟩
  ⟨committeeInfo, committeeInfo, none⟩

inductive Origin
  | none
  | other
deriving DecidableEq

inductive Error
  | badOrigin
  | invalidEpoch
  | nextCommitteeAlreadySet
deriving DecidableEq

structure SetCall (Member : Type) where
  validators : List Member
  forEpochNumber : Nat
  selectionInputsHash : List UInt8
deriving DecidableEq

/-- The committee with the label of the epoch in which it is due to serve. -/
def CommitteeInfo.promote (c : CommitteeInfo Member) : CommitteeInfo Member :=
  { c with epoch := c.epoch + 1 }

namespace Storage

/-- The genesis committees get the label of the first epoch in block 1. -/
def onInitialize (blockNr currentEpochNumber : Nat) (s : Storage Member) : Storage Member :=
  if blockNr = 1 then
    { s with
      currentCommittee := { s.currentCommittee with epoch := currentEpochNumber }
      queuedCommittee := { s.queuedCommittee with epoch := currentEpochNumber } }
  else s

def set (origin : Origin) (call : SetCall Member) (s : Storage Member) :
    Except Error (Storage Member) :=
  if origin ≠ .none then .error .badOrigin
  else if call.forEpochNumber ≠ s.queuedCommittee.epoch + 1 then .error .invalidEpoch
  else if s.nextCommittee.isSome then .error .nextCommitteeAlreadySet
  else .ok { s with nextCommittee := some ⟨call.forEpochNumber, call.validators⟩ }

/-- The members of the committee that was taken from the next one, and the storage. -/
def rotateCommitteeToNextEpoch (s : Storage Member) : Option (List Member) × Storage Member :=
  let s := { s with currentCommittee := s.queuedCommittee.promote }
  match s.nextCommittee with
  | none => (none, s)
  | some next => (some next.committee, { s with queuedCommittee := next, nextCommittee := none })

def shouldEndSession (currentEpochNumber : Nat) (s : Storage Member) : Bool :=
  if currentEpochNumber > s.queuedCommittee.epoch then s.nextCommittee.isSome else false

end Storage

/-! ## Blocks -/

structure Block (Member : Type) where
  epoch : Nat
  calls : List (Origin × SetCall Member)

/-- The storage after a number of blocks, with the committees stored by `set`, those that became queued
and the epochs of the blocks in which they did, and those that became current. -/
structure State (Member : Type) where
  blockNumber : Nat
  storage : Storage Member
  stored : List (CommitteeInfo Member)
  queued : List (CommitteeInfo Member × Nat)
  current : List (CommitteeInfo Member)

namespace State

def genesis (maxValidators : Nat) (initialAuthorities : List Member) : State Member :=
  ⟨0, genesisBuild maxValidators initialAuthorities, [], [], []⟩

def rotateSession (epoch : Nat) (st : State Member) : State Member :=
  let (rotated, s) := st.storage.rotateCommitteeToNextEpoch
  { st with
    storage := s
    queued := if rotated.isSome then st.queued ++ [(s.queuedCommittee, epoch)] else st.queued
    current := st.current ++ [s.currentCommittee] }

def initializeBlock (epoch : Nat) (st : State Member) : State Member :=
  let st :=
    { st with
      blockNumber := st.blockNumber + 1
      storage := st.storage.onInitialize (st.blockNumber + 1) epoch }
  if st.storage.shouldEndSession epoch then st.rotateSession epoch else st

def dispatch (st : State Member) (call : Origin × SetCall Member) : State Member :=
  match st.storage.set call.1 call.2 with
  | .ok s => { st with storage := s, stored := st.stored ++ s.nextCommittee.toList }
  | .error _ => st

def applyBlock (st : State Member) (b : Block Member) : State Member :=
  b.calls.foldl dispatch (st.initializeBlock b.epoch)

def run (st : State Member) (blocks : List (Block Member)) : State Member := blocks.foldl applyBlock st

end State

/-! ## What a call and a rotation do -/

section

variable {s s' : Storage Member} {origin : Origin} {call : SetCall Member} {epoch : Nat}

theorem Storage.set_ok (h : s.set origin call = .ok s') :
    origin = .none ∧ call.forEpochNumber = s.queuedCommittee.epoch + 1 ∧ s.nextCommittee = none ∧
      s' = { s with nextCommittee := some ⟨call.forEpochNumber, call.validators⟩ } := by
  obtain ⟨horigin, h1⟩ := Fallible.of_check h
  obtain ⟨hepoch, h2⟩ := Fallible.of_check h1
  obtain ⟨hnext, h3⟩ := Fallible.of_check h2
  cases h3
  exact ⟨not_not.mp horigin, not_not.mp hepoch, by simpa using hnext, rfl⟩

theorem Storage.set_of_none (hnext : s.nextCommittee = none)
    (hepoch : call.forEpochNumber = s.queuedCommittee.epoch + 1) :
    s.set .none call = .ok { s with nextCommittee := some ⟨call.forEpochNumber, call.validators⟩ } := by
  simp [set, hepoch, hnext]

theorem Storage.shouldEndSession_iff :
    s.shouldEndSession epoch = true ↔
      s.queuedCommittee.epoch < epoch ∧ ∃ next, s.nextCommittee = some next := by
  rw [shouldEndSession, ← Option.isSome_iff_exists]
  split <;> simp_all

theorem Storage.rotate_of_some (h : s.nextCommittee = some next) :
    s.rotateCommitteeToNextEpoch =
      (some next.committee, ⟨s.queuedCommittee.promote, next, none⟩) := by
  simp only [rotateCommitteeToNextEpoch, h]

end

theorem Storage.onInitialize_current {s : Storage Member} :
    (s.onInitialize nr epoch).currentCommittee.committee = s.currentCommittee.committee := by
  unfold onInitialize
  split <;> rfl

theorem Storage.onInitialize_queued {s : Storage Member} :
    (s.onInitialize nr epoch).queuedCommittee.committee = s.queuedCommittee.committee := by
  unfold onInitialize
  split <;> rfl

/-- What the hooks of a block do: nothing, or a rotation; in block 1 they give the genesis committees
their label, and there is no rotation. -/
inductive State.Initialized (epoch : Nat) (st : State Member) : State Member → Prop
  | stamped (hnr : st.blockNumber = 0) :
    Initialized epoch st
      { st with
        blockNumber := 1
        storage :=
          { st.storage with
            currentCommittee := { st.storage.currentCommittee with epoch := epoch }
            queuedCommittee := { st.storage.queuedCommittee with epoch := epoch } } }
  | kept (hnr : st.blockNumber ≠ 0) (hend : st.storage.shouldEndSession epoch = false) :
    Initialized epoch st { st with blockNumber := st.blockNumber + 1 }
  | rotated (hnr : st.blockNumber ≠ 0) {next : CommitteeInfo Member}
    (hnext : st.storage.nextCommittee = some next) (hlt : st.storage.queuedCommittee.epoch < epoch) :
    Initialized epoch st
      { blockNumber := st.blockNumber + 1
        storage := ⟨st.storage.queuedCommittee.promote, next, none⟩
        stored := st.stored
        queued := st.queued ++ [(next, epoch)]
        current := st.current ++ [st.storage.queuedCommittee.promote] }

namespace State

variable {st st' : State Member} {epoch : Nat} {first : CommitteeInfo Member}

theorem initializeBlock_initialized : st.Initialized epoch (st.initializeBlock epoch) := by
  unfold initializeBlock
  by_cases hnr : st.blockNumber = 0
  · have hkeep : (st.storage.onInitialize (st.blockNumber + 1) epoch).shouldEndSession epoch =
        false := by
      simp [Storage.onInitialize, Storage.shouldEndSession, hnr]
    simp only [hkeep, Bool.false_eq_true, if_false]
    simp only [Storage.onInitialize, hnr, Nat.zero_add, if_true]
    exact .stamped hnr
  · have hinit : st.storage.onInitialize (st.blockNumber + 1) epoch = st.storage := by
      simp [Storage.onInitialize, hnr]
    simp only [hinit]
    split
    case isFalse hend => exact .kept hnr (by simpa using hend)
    case isTrue hend =>
      obtain ⟨hlt, next, hnext⟩ := Storage.shouldEndSession_iff.mp hend
      simp only [rotateSession, Storage.rotate_of_some hnext, Option.isSome_some, if_true]
      exact .rotated hnr hnext hlt

/-- The history of a run after block 1 whose genesis committee got the label of the first epoch. -/
structure Inv (first : CommitteeInfo Member) (st : State Member) : Prop where
  started : st.blockNumber ≠ 0
  stored_eq : st.stored = st.queued.map Prod.fst ++ st.storage.nextCommittee.toList
  labels : st.stored.map (·.epoch) = List.range' (first.epoch + 1) st.stored.length
  queued_eq : st.storage.queuedCommittee = (first :: st.queued.map Prod.fst).getLast (by simp)
  queued_epoch : st.storage.queuedCommittee.epoch = first.epoch + st.queued.length
  current_eq : st.storage.currentCommittee = (first :: st.current).getLast (by simp)
  current_epoch : st.storage.currentCommittee.epoch = first.epoch + st.queued.length
  current_log : st.current = ((first :: st.queued.map Prod.fst).dropLast).map CommitteeInfo.promote
  due : ∀ p ∈ st.queued, p.1.epoch ≤ p.2

theorem Inv.next_epoch (h : Inv first st) (hnext : st.storage.nextCommittee = some next) :
    next.epoch = st.storage.queuedCommittee.epoch + 1 := by
  have hlabels := h.labels
  rw [h.stored_eq, hnext] at hlabels
  simp only [Option.toList_some, List.map_append, List.map_cons, List.map_nil, List.length_append,
    List.length_map, List.length_singleton, List.range'_concat] at hlabels
  have hlast := (List.append_inj' hlabels rfl).2
  simp only [List.cons.injEq, and_true] at hlast
  rw [h.queued_epoch]
  omega

theorem Inv.first_block (maxValidators : Nat) (initialAuthorities : List Member) (epoch : Nat) :
    Inv ⟨epoch, initialAuthorities.take maxValidators⟩
      ((genesis maxValidators initialAuthorities).initializeBlock epoch) := by
  have hinit : (genesis maxValidators initialAuthorities).Initialized epoch _ :=
    initializeBlock_initialized
  generalize (genesis maxValidators initialAuthorities).initializeBlock epoch = st at hinit ⊢
  cases hinit with
  | stamped =>
    exact ⟨Nat.succ_ne_zero _, rfl, rfl, rfl, rfl, rfl, rfl, rfl, fun _ h => nomatch h⟩
  | kept hnr | rotated hnr => exact absurd rfl hnr

theorem Inv.initialized (h : Inv first st) (hinit : st.Initialized epoch st') : Inv first st' := by
  cases hinit with
  | stamped hnr => exact absurd hnr h.started
  | kept => exact { h with started := Nat.succ_ne_zero _ }
  | @rotated _ next hnext hlt =>
    have hepoch := h.next_epoch hnext
    have hqueued := h.queued_epoch
    refine ⟨Nat.succ_ne_zero _, ?_, h.labels, ?_, ?_, ?_, ?_, ?_, ?_⟩
    · simp [h.stored_eq, hnext]
    · simp
    · simp only [List.length_append, List.length_singleton]
      omega
    · simp
    · simp only [CommitteeInfo.promote, List.length_append, List.length_singleton]
      omega
    · -- the promoted committee is the last one of those that were queued before
      have hsplit := List.dropLast_append_getLast (l := first :: st.queued.map Prod.fst) (by simp)
      rw [← h.queued_eq] at hsplit
      rw [h.current_log, List.map_append, ← List.cons_append, List.map_cons, List.map_nil,
        List.dropLast_concat]
      conv_rhs => rw [← hsplit]
      simp
    · intro p hp
      rcases List.mem_append.mp hp with hp | hp
      · exact h.due p hp
      · rw [List.mem_singleton.mp hp]
        dsimp only
        omega

theorem Inv.dispatch (h : Inv first st) (call : Origin × SetCall Member) :
    Inv first (st.dispatch call) := by
  unfold State.dispatch
  split
  case h_2 => exact h
  case h_1 s hs =>
    obtain ⟨-, hepoch, hnone, rfl⟩ := Storage.set_ok hs
    have hstored : st.stored = st.queued.map Prod.fst := by
      rw [h.stored_eq, hnone]
      simp
    refine { h with stored_eq := ?_, labels := ?_ }
    · simp [hstored]
    · have hlen : st.stored.length = st.queued.length := by simp [hstored]
      rw [Option.toList_some, List.map_append, h.labels, List.length_append, List.length_singleton,
        List.range'_concat]
      simp only [List.map_cons, List.map_nil, hepoch, h.queued_epoch, hlen]
      congr 2
      omega

theorem Inv.calls (h : Inv first st) (calls : List (Origin × SetCall Member)) :
    Inv first (calls.foldl State.dispatch st) := by
  induction calls generalizing st with
  | nil => exact h
  | cons call calls ih => exact ih (h.dispatch call)

theorem Inv.applyBlock (h : Inv first st) (b : Block Member) : Inv first (st.applyBlock b) :=
  (h.initialized initializeBlock_initialized).calls b.calls

theorem Inv.run (h : Inv first st) (blocks : List (Block Member)) : Inv first (st.run blocks) := by
  induction blocks generalizing st with
  | nil => exact h
  | cons b blocks ih => exact ih (h.applyBlock b)

/-- The queued and the current committee, with their histories. -/
def committees (st : State Member) :
    CommitteeInfo Member × CommitteeInfo Member × List (CommitteeInfo Member × Nat) ×
      List (CommitteeInfo Member) :=
  (st.storage.queuedCommittee, st.storage.currentCommittee, st.queued, st.current)

theorem calls_committees (calls : List (Origin × SetCall Member)) :
    (calls.foldl State.dispatch st).committees = st.committees := by
  induction calls generalizing st with
  | nil => rfl
  | cons call calls ih =>
    rw [List.foldl_cons, ih]
    unfold dispatch
    split
    case h_2 => rfl
    case h_1 s hs =>
      obtain ⟨-, -, -, rfl⟩ := Storage.set_ok hs
      rfl

theorem Inv.shouldEndSession_iff (h : Inv first st) :
    st.storage.shouldEndSession epoch = true ↔
      ∃ next, st.storage.nextCommittee = some next ∧ next.epoch ≤ epoch := by
  rw [Storage.shouldEndSession_iff]
  constructor
  · rintro ⟨hlt, next, hnext⟩
    exact ⟨next, hnext, by rw [h.next_epoch hnext]; omega⟩
  · rintro ⟨next, hnext, hle⟩
    rw [h.next_epoch hnext] at hle
    exact ⟨by omega, next, hnext⟩

/-- In the block in which the next committee is due it is queued, and the queued one becomes current. -/
theorem Inv.applyBlock_rotates (h : Inv first st) (hnext : st.storage.nextCommittee = some next)
    (b : Block Member) (hdue : next.epoch ≤ b.epoch) :
    (st.applyBlock b).committees = (next, st.storage.queuedCommittee.promote,
      st.queued ++ [(next, b.epoch)], st.current ++ [st.storage.queuedCommittee.promote]) := by
  have hend := h.shouldEndSession_iff.mpr ⟨next, hnext, hdue⟩
  have hinit : st.Initialized b.epoch _ := initializeBlock_initialized
  rw [State.applyBlock, calls_committees]
  generalize st.initializeBlock b.epoch = st' at hinit
  cases hinit with
  | stamped hnr => exact absurd hnr h.started
  | kept _ hkeep => exact nomatch hend.symm.trans hkeep
  | rotated _ hnext' =>
    cases hnext.symm.trans hnext'
    rfl

theorem Inv.applyBlock_keeps (h : Inv first st) (b : Block Member)
    (hkeep : st.storage.shouldEndSession b.epoch = false) :
    (st.applyBlock b).committees = st.committees := by
  have hinit : st.Initialized b.epoch _ := initializeBlock_initialized
  rw [State.applyBlock, calls_committees]
  generalize st.initializeBlock b.epoch = st' at hinit
  cases hinit with
  | stamped hnr => exact absurd hnr h.started
  | kept => rfl
  | rotated _ hnext hlt =>
    exact nomatch hkeep.symm.trans (Storage.shouldEndSession_iff.mpr ⟨hlt, _, hnext⟩)

/-- Stored committees are never taken back. -/
theorem stored_prefix_calls {calls : List (Origin × SetCall Member)} :
    st.stored <+: (calls.foldl dispatch st).stored := by
  induction calls generalizing st with
  | nil => exact List.prefix_rfl
  | cons call calls ih =>
    refine List.IsPrefix.trans ?_ ih
    unfold dispatch
    split
    · exact List.prefix_append _ _
    · exact List.prefix_rfl

theorem stored_prefix_run : st.stored <+: (st.run blocks).stored := by
  induction blocks generalizing st with
  | nil => exact List.prefix_rfl
  | cons b blocks ih =>
    have hinit : st.Initialized b.epoch _ := initializeBlock_initialized
    have hstored : (st.initializeBlock b.epoch).stored = st.stored := by
      generalize st.initializeBlock b.epoch = st' at hinit
      cases hinit <;> rfl
    exact List.IsPrefix.trans (hstored ▸ stored_prefix_calls) ih

theorem inv_run (maxValidators : Nat) (initialAuthorities : List Member) (b : Block Member)
    (blocks : List (Block Member)) :
    Inv ⟨b.epoch, initialAuthorities.take maxValidators⟩
      ((genesis maxValidators initialAuthorities).run (b :: blocks)) :=
  ((Inv.first_block maxValidators initialAuthorities b.epoch).calls b.calls).run blocks

end State

end MidnightNode.Committee
