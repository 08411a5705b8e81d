import MidnightNode.Committee.Pipeline
import MidnightNode.Sidechain.BlockSearch

/-!
# Queries for the committee of an epoch

`get_epoch_committee` answers for the epoch after the best block's from the next committee, and for an
earlier epoch from the current committee at some block of that epoch, which a binary search finds.

The committee that `set` stores for an epoch is queued in that epoch and becomes the current one a rotation
later, so the two sources answer with different committees (`query_stable_iff`).
-/

namespace MidnightNode.Committee
open Fallible

/-! ## The query -/

structure Chain (Member : Type) where
  maxValidators : Nat
  initialAuthorities : List Member
  blocks : List (Block Member)

inductive QueryError
  | onlyGenesisBlock
  | earlierThanInitialEpoch (epoch : Nat)
  | unknownCommittee (epoch : Nat)
  | unknownNextCommittee (epoch : Nat)
  | unknownBlock (number : Nat)
  | blockNotFound
deriving DecidableEq

namespace Chain

variable {Member : Type}

/-- The chain at an earlier height. -/
def atHeight (c : Chain Member) (height : Nat) : Chain Member :=
  { c with blocks := c.blocks.take height }

def bestNumber (c : Chain Member) : Nat := c.blocks.length

def stateAt (c : Chain Member) (number : Nat) : State Member :=
  (State.genesis c.maxValidators c.initialAuthorities).run (c.blocks.take number)

/-- `get_epoch_of_block`, from the state of the block. -/
def getEpochOfBlock (c : Chain Member) : Nat → Option Nat
  | 0 => some 0
  | number + 1 => (c.blocks[number]?).map (·.epoch)

/-- `AnyBlockInEpoch`. -/
def compareBlock (c : Chain Member) (epoch : Nat) (number : UInt32) : Except QueryError Ordering := do
  let epochBlock ← okOr (.unknownBlock number.toNat) (c.getEpochOfBlock number.toNat)
  return compare epochBlock epoch

/-- `find_block` for any block of an epoch. Each round of the search leaves out a block. -/
def findBlock (c : Chain Member) (epoch : Nat) : Option Nat :=
  (Sidechain.binarySearchBy (c.compareBlock epoch) (c.bestNumber + 2) 1
    (UInt32.ofNat c.bestNumber + 1)).join.map UInt32.toNat

def getEpochCommittee (c : Chain Member) (epochNumber : Nat) :
    Except QueryError (CommitteeInfo Member) := do
  if epochNumber = 0 then
    .ok { (c.stateAt 0).storage.currentCommittee with epoch := 0 }
  else
    let firstEpoch ← okOr .onlyGenesisBlock (c.getEpochOfBlock 1)
    if epochNumber < firstEpoch then .error (.earlierThanInitialEpoch epochNumber)
    else
      let epochOfLatestBlock ← okOr (.unknownBlock c.bestNumber)
        (c.getEpochOfBlock c.bestNumber)
      if epochNumber > epochOfLatestBlock + 1 then .error (.unknownCommittee epochNumber)
      else if epochNumber = epochOfLatestBlock + 1 then
        okOr (.unknownNextCommittee epochNumber)
          (c.stateAt c.bestNumber).storage.nextCommittee
      else
        let number ← okOr .blockNotFound (c.findBlock epochNumber)
        .ok (c.stateAt number).storage.currentCommittee

/-- The storage that a query reads. -/
inductive Slot
  | next
  | current
deriving DecidableEq

/-- Where a query for an epoch reads: the storage and the block. -/
def readFrom (c : Chain Member) (epochNumber : Nat) : Option (Slot × Nat) :=
  if (c.getEpochOfBlock c.bestNumber).map (· + 1) = some epochNumber then some (.next, c.bestNumber)
  else (c.findBlock epochNumber).map fun number => (.current, number)

/-- The answers that are read from a block. -/
inductive Answered (c : Chain Member) (epochNumber number : Nat) : Slot → CommitteeInfo Member → Prop
  | next {answer : CommitteeInfo Member} {epoch : Nat} (hpos : 0 < number)
    (hepoch : c.getEpochOfBlock number = some epoch) (heq : epochNumber = epoch + 1)
    (hnext : (c.stateAt number).storage.nextCommittee = some answer) :
    Answered c epochNumber number .next answer
  | current (hpos : 0 < number) (hepoch : c.getEpochOfBlock number = some epochNumber) :
    Answered c epochNumber number .current (c.stateAt number).storage.currentCommittee

theorem findBlock_some {c : Chain Member} (hpos : 1 ≤ epoch) (h : c.findBlock epoch = some number) :
    0 < number ∧ c.getEpochOfBlock number = some epoch := by
  obtain ⟨b, hb, rfl⟩ := Option.map_eq_some_iff.mp h
  have hepoch : c.getEpochOfBlock b.toNat = some epoch := by
    obtain ⟨e, he, hcompare⟩ :=
      of_bind (Sidechain.of_binarySearchBy (Option.join_eq_some_iff.mp hb)).1
    rw [Nat.compare_eq_eq.mp (Except.ok.inj hcompare)] at he
    exact of_okOr he
  refine ⟨Nat.pos_of_ne_zero fun hzero => ?_, hepoch⟩
  -- the genesis block is of epoch 0
  rw [hzero, getEpochOfBlock, Option.some_inj] at hepoch
  omega

theorem getEpochCommittee_ok {answer : CommitteeInfo Member} (hpos : 1 ≤ epochNumber)
    (h : c.getEpochCommittee epochNumber = .ok answer) :
    ∃ slot number, c.readFrom epochNumber = some (slot, number) ∧
      Answered c epochNumber number slot answer := by
  unfold getEpochCommittee at h
  rw [if_neg (Nat.pos_iff_ne_zero.mp hpos)] at h
  obtain ⟨first, hfirst, h1⟩ := of_bind h
  obtain ⟨-, h2⟩ := of_check h1
  obtain ⟨latest, hlatest, h3⟩ := of_bind h2
  obtain ⟨-, h4⟩ := of_check h3
  have hfirst := of_okOr hfirst
  have hlatest := of_okOr hlatest
  unfold readFrom
  rw [hlatest, Option.map_some]
  split at h4
  case isTrue heq =>
    refine ⟨.next, c.bestNumber, by rw [heq, if_pos rfl], .next ?_ hlatest heq (of_okOr h4)⟩
    obtain ⟨b, hb, -⟩ := Option.map_eq_some_iff.mp hfirst
    exact Nat.zero_lt_of_lt (List.getElem?_eq_some_iff.mp hb).1
  case isFalse hne =>
    obtain ⟨number, hnumber, h5⟩ := of_bind h4
    have hnumber := of_okOr hnumber
    obtain ⟨hnpos, hepoch⟩ := findBlock_some hpos hnumber
    cases h5
    refine ⟨.current, number, ?_, .current hnpos hepoch⟩
    rw [if_neg fun heq => hne (Option.some.inj heq).symm, hnumber]
    rfl

/-! ## The committees of a chain -/

/-- The label of the genesis committee. -/
def firstEpoch (c : Chain Member) : Nat := ((c.blocks.head?).map (·.epoch)).getD 0

/-- The genesis committee and the committees that the blocks stored, in their order. -/
def selected (c : Chain Member) : List (CommitteeInfo Member) :=
  ⟨c.firstEpoch, c.initialAuthorities.take c.maxValidators⟩ :: (c.stateAt c.bestNumber).stored

/-- The members that were selected for an epoch. -/
def selectedFor (c : Chain Member) (epoch : Nat) : Option (List Member) :=
  (c.selected[epoch - c.firstEpoch]?).map (·.committee)

/-- The queued committee of a block has the label of the block's epoch. -/
def CaughtUp (c : Chain Member) (number : Nat) : Prop :=
  c.getEpochOfBlock number = some (c.stateAt number).storage.queuedCommittee.epoch

variable {c : Chain Member} {number epochNumber : Nat} {slot : Slot} {answer : CommitteeInfo Member}

theorem getEpochOfBlock_atHeight (h : (c.atHeight height).getEpochOfBlock number = some epoch) :
    c.getEpochOfBlock number = some epoch ∧ number ≤ height := by
  cases number with
  | zero => exact ⟨h, Nat.zero_le _⟩
  | succ number =>
    obtain ⟨b, hb, rfl⟩ := Option.map_eq_some_iff.mp h
    rw [atHeight, List.getElem?_take] at hb
    split at hb
    case isTrue hlt => exact ⟨by simp [getEpochOfBlock, hb], hlt⟩
    case isFalse => cases hb

theorem stateAt_atHeight (h : number ≤ height) :
    (c.atHeight height).stateAt number = c.stateAt number := by
  simp only [stateAt, atHeight, List.take_take, Nat.min_eq_left h]

theorem Answered.of_atHeight (h : (c.atHeight height).Answered epochNumber number slot answer) :
    c.Answered epochNumber number slot answer := by
  cases h with
  | next hpos hepoch heq hnext =>
    obtain ⟨hepoch, hle⟩ := getEpochOfBlock_atHeight hepoch
    rw [stateAt_atHeight hle] at hnext
    exact .next hpos hepoch heq hnext
  | current hpos hepoch =>
    obtain ⟨hepoch, hle⟩ := getEpochOfBlock_atHeight hepoch
    rw [stateAt_atHeight hle]
    exact .current hpos hepoch

theorem Answered.of_read (hpos : 1 ≤ epochNumber)
    (hok : (c.atHeight height).getEpochCommittee epochNumber = .ok answer)
    (hread : (c.atHeight height).readFrom epochNumber = some (slot, number)) :
    c.Answered epochNumber number slot answer := by
  obtain ⟨slot', number', hread', h⟩ := getEpochCommittee_ok hpos hok
  cases hread.symm.trans hread'
  exact h.of_atHeight

theorem stateAt_inv (hpos : 0 < number) (hepoch : c.getEpochOfBlock number = some epoch) :
    State.Inv ⟨c.firstEpoch, c.initialAuthorities.take c.maxValidators⟩ (c.stateAt number) := by
  obtain ⟨number, rfl⟩ := Nat.exists_eq_succ_of_ne_zero hpos.ne'
  obtain ⟨b, hb, -⟩ := Option.map_eq_some_iff.mp hepoch
  obtain ⟨first, blocks, hblocks⟩ := List.exists_cons_of_length_pos
    (Nat.zero_lt_of_lt (List.getElem?_eq_some_iff.mp hb).1)
  simp only [stateAt, firstEpoch, hblocks, List.take_succ_cons, List.head?_cons, Option.map_some,
    Option.getD_some]
  exact State.inv_run _ _ _ _

theorem stored_selected (number : Nat) :
    (⟨c.firstEpoch, c.initialAuthorities.take c.maxValidators⟩ :: (c.stateAt number).stored) <+:
      c.selected := by
  refine (List.prefix_cons_inj _).mpr ?_
  have hsplit : c.stateAt c.bestNumber = (c.stateAt number).run (c.blocks.drop number) := by
    rw [stateAt, stateAt, bestNumber, List.take_length, State.run, State.run, State.run,
      ← List.foldl_append, List.take_append_drop]
  rw [hsplit]
  exact State.stored_prefix_run

theorem getElem?_mono {α : Type} {l l' : List α} {i : Nat} {a : α} (hpre : l <+: l')
    (h : l[i]? = some a) : l'[i]? = some a := by
  obtain ⟨hi, rfl⟩ := List.getElem?_eq_some_iff.mp h
  exact List.prefix_iff_getElem?.mp hpre i hi

/-- The rotations up to a block are those of its queue. -/
def rotations (c : Chain Member) (number : Nat) : Nat := (c.stateAt number).queued.length

theorem next_selected (hpos : 0 < number) (hepoch : c.getEpochOfBlock number = some epoch)
    (hnext : (c.stateAt number).storage.nextCommittee = some answer) :
    answer.epoch = c.firstEpoch + c.rotations number + 1 ∧
      c.selected[c.rotations number + 1]? = some answer := by
  have hinv := stateAt_inv hpos hepoch
  refine ⟨?_, getElem?_mono (stored_selected number) ?_⟩
  · rw [hinv.next_epoch hnext, hinv.queued_epoch]
    rfl
  · rw [List.getElem?_cons_succ, hinv.stored_eq, hnext, rotations]
    simp

/-- The current committee of a block is the one before the queued one, which at first is the genesis
committee too. -/
theorem current_selected (hpos : 0 < number) (hepoch : c.getEpochOfBlock number = some epoch) :
    (c.stateAt number).storage.currentCommittee.epoch = c.firstEpoch + c.rotations number ∧
      (c.selected[c.rotations number - 1]?).map (·.committee) =
        some (c.stateAt number).storage.currentCommittee.committee := by
  have hinv := stateAt_inv hpos hepoch
  refine ⟨hinv.current_epoch, ?_⟩
  have hpre : ((⟨c.firstEpoch, c.initialAuthorities.take c.maxValidators⟩ : CommitteeInfo Member) ::
      (c.stateAt number).queued.map Prod.fst) <+: c.selected := by
    refine List.IsPrefix.trans ((List.prefix_cons_inj _).mpr ?_) (stored_selected number)
    rw [hinv.stored_eq]
    exact List.prefix_append _ _
  have hcurrent := List.getLast?_eq_some_getLast
    (List.cons_ne_nil ⟨c.firstEpoch, c.initialAuthorities.take c.maxValidators⟩
      (c.stateAt number).current)
  rw [← hinv.current_eq, List.getLast?_eq_getElem?, hinv.current_log] at hcurrent
  unfold rotations
  cases hqueued : (c.stateAt number).queued with
  | nil =>
    rw [hqueued] at hcurrent hpre
    have hselected : c.selected[0]? = some _ := getElem?_mono hpre hcurrent
    rw [List.length_nil, Nat.zero_sub, hselected]
    rfl
  | cons head queued =>
    rw [hqueued] at hcurrent hpre
    simp only [List.map_cons, List.length_cons, List.length_map, List.length_dropLast,
      Nat.add_sub_cancel, List.getElem?_cons_succ, List.getElem?_map, List.getElem?_dropLast,
      Nat.lt_succ_self, if_true] at hcurrent
    obtain ⟨info, hinfo, hpromote⟩ := Option.map_eq_some_iff.mp hcurrent
    rw [List.length_cons, Nat.add_sub_cancel, getElem?_mono hpre hinfo, ← hpromote]
    rfl

theorem caughtUp_iff (hpos : 0 < number) (hepoch : c.getEpochOfBlock number = some epoch) :
    c.CaughtUp number ↔ epoch = c.firstEpoch + c.rotations number := by
  rw [CaughtUp, hepoch, (stateAt_inv hpos hepoch).queued_epoch, Option.some_inj]
  rfl

/-- The epoch whose selection a storage holds in the blocks of an epoch or just before it. -/
def Slot.selectionOf (epochNumber : Nat) : Slot → Nat
  | .next => epochNumber
  | .current => epochNumber - 1

/-- An answer is labelled with its epoch exactly when the block it is read from is caught up. -/
theorem Answered.epoch_iff (h : c.Answered epochNumber number slot answer) :
    answer.epoch = epochNumber ↔ c.CaughtUp number := by
  cases h with
  | next hpos hepoch heq hnext =>
    rw [caughtUp_iff hpos hepoch, (next_selected hpos hepoch hnext).1, heq]
    omega
  | current hpos hepoch =>
    rw [caughtUp_iff hpos hepoch, (current_selected hpos hepoch).1]
    exact eq_comm

theorem Answered.committee_eq (h : c.Answered epochNumber number slot answer) (hup : c.CaughtUp number) :
    c.selectedFor (slot.selectionOf epochNumber) = some answer.committee := by
  cases h with
  | next hpos hepoch heq hnext =>
    have hindex : epochNumber - c.firstEpoch = c.rotations number + 1 := by
      rw [heq, (caughtUp_iff hpos hepoch).mp hup]
      omega
    rw [selectedFor, Slot.selectionOf, hindex, (next_selected hpos hepoch hnext).2]
    rfl
  | current hpos hepoch =>
    have hindex : epochNumber - 1 - c.firstEpoch = c.rotations number - 1 := by
      rw [(caughtUp_iff hpos hepoch).mp hup]
      omega
    rw [selectedFor, Slot.selectionOf, hindex, (current_selected hpos hepoch).2]

/-- Two answers for an epoch, at any two heights, are the same committee labelled with the epoch exactly
when both blocks they are read from are caught up, and the two are read from the same storage or the
selection did not change from the epoch before. -/
theorem query_stable_iff (c : Chain Member) {epochNumber height₁ height₂ number₁ number₂ : Nat}
    {slot₁ slot₂ : Slot} {answer₁ answer₂ : CommitteeInfo Member} (hpos : 1 ≤ epochNumber)
    (hok₁ : (c.atHeight height₁).getEpochCommittee epochNumber = .ok answer₁)
    (hok₂ : (c.atHeight height₂).getEpochCommittee epochNumber = .ok answer₂)
    (hread₁ : (c.atHeight height₁).readFrom epochNumber = some (slot₁, number₁))
    (hread₂ : (c.atHeight height₂).readFrom epochNumber = some (slot₂, number₂)) :
    (answer₁ = answer₂ ∧ answer₁.epoch = epochNumber) ↔
      c.CaughtUp number₁ ∧ c.CaughtUp number₂ ∧
        (slot₁ = slot₂ ∨ c.selectedFor epochNumber = c.selectedFor (epochNumber - 1)) := by
  have h₁ := Answered.of_read hpos hok₁ hread₁
  have h₂ := Answered.of_read hpos hok₂ hread₂
  constructor
  · rintro ⟨rfl, hepoch⟩
    have hup₁ := h₁.epoch_iff.mp hepoch
    have hup₂ := h₂.epoch_iff.mp hepoch
    refine ⟨hup₁, hup₂, ?_⟩
    have hsame := (h₁.committee_eq hup₁).trans (h₂.committee_eq hup₂).symm
    cases slot₁ <;> cases slot₂
    case next.next => exact .inl rfl
    case next.current => exact .inr hsame
    case current.next => exact .inr hsame.symm
    case current.current => exact .inl rfl
  · rintro ⟨hup₁, hup₂, hcase⟩
    have hepoch₁ := h₁.epoch_iff.mpr hup₁
    have hepoch₂ := h₂.epoch_iff.mpr hup₂
    have hsame : c.selectedFor (slot₁.selectionOf epochNumber) =
        c.selectedFor (slot₂.selectionOf epochNumber) := by
      rcases hcase with rfl | hcase
      · rfl
      · cases slot₁ <;> cases slot₂ <;> simp only [Slot.selectionOf, hcase]
    rw [h₁.committee_eq hup₁, h₂.committee_eq hup₂, Option.some_inj] at hsame
    exact ⟨CommitteeInfo.ext (hepoch₁.trans hepoch₂.symm) hsame, hepoch₁⟩

/-- The genesis committee is selected again for every epoch. -/
theorem query_stable_iff_sample :
    let c : Chain Nat := ⟨1, [1], [⟨5, [(.none, ⟨[1], 6, []⟩)]⟩, ⟨6, [(.none, ⟨[1], 7, []⟩)]⟩]⟩
    (c.atHeight 1).readFrom 6 = some (.next, 1) ∧ (c.atHeight 2).readFrom 6 = some (.current, 2) ∧
      c.CaughtUp 1 ∧ c.CaughtUp 2 ∧ c.selectedFor 6 = c.selectedFor 5 := by
  intro c
  have hread₁ : (c.atHeight 1).readFrom 6 = some (.next, 1) := by decide +kernel
  have hread₂ : (c.atHeight 2).readFrom 6 = some (.current, 2) := by decide +kernel
  have hok₁ : (c.atHeight 1).getEpochCommittee 6 = .ok ⟨6, [1]⟩ := by decide +kernel
  have hok₂ : (c.atHeight 2).getEpochCommittee 6 = .ok ⟨6, [1]⟩ := by decide +kernel
  obtain ⟨hup₁, hup₂, hcase⟩ :=
    (query_stable_iff c (by decide) hok₁ hok₂ hread₁ hread₂).mp ⟨rfl, rfl⟩
  exact ⟨hread₁, hread₂, hup₁, hup₂, hcase.resolve_left (by decide)⟩

/-- While 6 is the next epoch the answer is the committee selected for it, and in a block of the epoch it is
the genesis committee, with the same label. -/
theorem next_and_current_answers_differ :
    let c : Chain Nat := ⟨1, [1], [⟨5, [(.none, ⟨[7], 6, []⟩)]⟩, ⟨6, []⟩]⟩
    (c.atHeight 1).getEpochCommittee 6 = .ok ⟨6, [7]⟩ ∧
      (c.atHeight 2).getEpochCommittee 6 = .ok ⟨6, [1]⟩ ∧
      ¬ ∃ answer, (c.atHeight 1).getEpochCommittee 6 = .ok answer ∧
        (c.atHeight 2).getEpochCommittee 6 = .ok answer := by
  intro c
  have h₁ : (c.atHeight 1).getEpochCommittee 6 = .ok ⟨6, [7]⟩ := by decide +kernel
  have h₂ : (c.atHeight 2).getEpochCommittee 6 = .ok ⟨6, [1]⟩ := by decide +kernel
  refine ⟨h₁, h₂, ?_⟩
  rintro ⟨answer, ha₁, ha₂⟩
  rw [h₁] at ha₁
  rw [h₂] at ha₂
  cases ha₁
  cases ha₂

end Chain

end MidnightNode.Committee
