import Mathlib
import MidnightNode.Lib.Fallible
import MidnightNode.MainChain.Epochs

/-!
# Main chain slots, epochs and times

`MainchainEpochConfig` derives an epoch from a time, from a slot, and the other way round; the status RPC
reports when the next epoch begins. Times and slots are unsigned and their sums wrap around, as in a
release build.
-/

namespace MidnightNode.MainChain.Epochs
open Periods Fallible

/-! ## Derivations -/

structure MainchainSlotConfig extends MainchainEpochConfig where
  firstSlotNumber : UInt64

namespace MainchainSlotConfig

variable (c : MainchainSlotConfig)

/-- The length of a slot is not the configured one. -/
def slotsPerEpoch : UInt64 := c.epochDurationMillis / 1000

def timestampToMainchainSlotNumber (timestamp : UInt64) : Except EpochDerivationError UInt64 :=
  if timestamp < c.firstEpochTimestampMillis then .error .timestampTooSmall
  else .ok (c.firstSlotNumber + (timestamp - c.firstEpochTimestampMillis) / c.slotDurationMillis)

def firstSlotOfEpoch (epoch : UInt32) : Except EpochDerivationError UInt64 :=
  if epoch < c.firstEpochNumber then .error .epochTooSmall
  else .ok ((epoch - c.firstEpochNumber).toUInt64 * c.slotsPerEpoch + c.firstSlotNumber)

def epochForSlot (slot : UInt64) : Except EpochDerivationError UInt32 :=
  if slot < c.firstSlotNumber then .error .slotTooSmall
  else
    let epochsSinceFirstEpoch := (slot - c.firstSlotNumber) / c.slotsPerEpoch
    -- the conversion to 32 bits
    if u32Max < epochsSinceFirstEpoch.toNat then .error .epochTooBig
    else .ok (c.firstEpochNumber + epochsSinceFirstEpoch.toUInt32)

end MainchainSlotConfig

/-- The number of the first epoch is not subtracted. -/
def MainchainEpochConfig.mainchainEpochToTimestamp (c : MainchainEpochConfig) (epoch : UInt32) :
    UInt64 :=
  c.firstEpochTimestampMillis + c.epochDurationMillis * epoch.toUInt64

/-! ## The status RPC -/

structure MainchainBlock where
  epoch : UInt32
  slot : UInt64

structure SidechainData where
  epoch : UInt64
  slot : UInt64
  nextEpochTimestamp : UInt64

structure MainchainData where
  epoch : UInt32
  slot : UInt64
  nextEpochTimestamp : UInt64

structure GetStatusResponse where
  sidechain : SidechainData
  mainchain : MainchainData

inductive GetStatusError
  /-- An error of the runtime API or of the data source, with its text. -/
  | internal (message : String)
  | cannotConvertSidechainSlotToTimestamp

/-- `get_status`, over the answers of the runtime, the clock and the data source. -/
def getStatus (mcEpochConfig : MainchainEpochConfig) (slotConfig : Except String ScSlotConfig)
    (currentTimestamp : UInt64) (latestBlockInfo : Except String MainchainBlock) :
    Except GetStatusError GetStatusResponse := do
  let slotConfig ← slotConfig.mapError .internal
  let currentSidechainSlot := slotConfig.slotFromTimestamp currentTimestamp
  let currentSidechainEpoch := slotConfig.epochNumber currentSidechainSlot
  let nextSidechainEpochTimestamp ← okOr .cannotConvertSidechainSlotToTimestamp
    (slotConfig.epochStartTime (currentSidechainEpoch + 1))
  let latestMainchainBlock ← latestBlockInfo.mapError GetStatusError.internal
  let nextMainchainEpochTimestamp :=
    mcEpochConfig.mainchainEpochToTimestamp (latestMainchainBlock.epoch + 1)
  return {
    sidechain := ⟨currentSidechainEpoch, currentSidechainSlot, nextSidechainEpochTimestamp⟩
    mainchain := ⟨latestMainchainBlock.epoch, latestMainchainBlock.slot, nextMainchainEpochTimestamp⟩ }

/-! ## Accepted configurations -/

structure Accepted (c : MainchainEpochConfig) : Prop where
  pos : 0 < c.epochDurationMillis.toNat
  slot_eq : c.slotDurationMillis = 1000
  dvd : 1000 ∣ c.epochDurationMillis.toNat

theorem accepted_of_check (h : checkMainchainEpochInvariants c = .ok ()) : Accepted c := by
  obtain ⟨hzero, h⟩ := of_check h
  obtain ⟨-, h⟩ := of_check h
  obtain ⟨-, h⟩ := of_check h
  obtain ⟨hmod, h⟩ := of_check h
  obtain ⟨hslot, -⟩ := of_check h
  have hslot := not_not.mp hslot
  refine ⟨Nat.pos_of_ne_zero fun heq => hzero (UInt64.toNat_inj.mp heq), hslot, ?_⟩
  have hmod := congrArg UInt64.toNat (not_not.mp hmod)
  rw [hslot, UInt64.toNat_mod] at hmod
  exact Nat.dvd_of_mod_eq_zero hmod

theorem lt_size_of_le_i32Max (h : n ≤ i32Max) : n < UInt32.size :=
  h.trans_lt (by decide)

/-! ## Slots as periods -/

namespace MainchainSlotConfig

variable {c : MainchainSlotConfig}

theorem toNat_slotsPerEpoch (c : MainchainSlotConfig) :
    c.slotsPerEpoch.toNat = c.epochDurationMillis.toNat / 1000 :=
  UInt64.toNat_div _ _

theorem slotsPerEpoch_pos (h : Accepted c.toMainchainEpochConfig) : 0 < c.slotsPerEpoch.toNat := by
  rw [toNat_slotsPerEpoch]
  exact Nat.div_pos (Nat.le_of_dvd h.pos h.dvd) (by decide)

theorem epochForSlot_eq_ok_iff (hepoch : c.firstEpochNumber ≤ epoch) :
    c.epochForSlot slot = .ok epoch ↔ c.firstSlotNumber ≤ slot ∧
      period c.firstSlotNumber.toNat c.slotsPerEpoch.toNat slot.toNat =
        epoch.toNat - c.firstEpochNumber.toNat := by
  have hle := UInt32.le_iff_toNat_le.mp hepoch
  have hlt := epoch.toNat_lt
  have hperiod : c.firstSlotNumber ≤ slot → ((slot - c.firstSlotNumber) / c.slotsPerEpoch).toNat =
      period c.firstSlotNumber.toNat c.slotsPerEpoch.toNat slot.toNat := by
    intro hslot
    rw [UInt64.toNat_div, UInt64.toNat_sub_of_le _ _ hslot, period]
  constructor
  · intro h
    obtain ⟨hslot, h⟩ := of_check h
    have hslot := UInt64.not_lt.mp hslot
    obtain ⟨hsmall, h⟩ := of_check h
    refine ⟨hslot, ?_⟩
    have hsum := congrArg UInt32.toNat (Except.ok.inj h)
    rw [UInt32.toNat_add, UInt64.toNat_toUInt32, hperiod hslot] at hsum
    rw [hperiod hslot] at hsmall
    unfold u32Max at hsmall
    omega
  · rintro ⟨hslot, hnumber⟩
    rw [epochForSlot, if_neg (UInt64.not_lt.mpr hslot)]
    simp only [hperiod hslot, hnumber]
    rw [if_neg (by unfold u32Max; omega)]
    refine congrArg Except.ok (UInt32.toNat_inj.mp ?_)
    rw [UInt32.toNat_add, UInt64.toNat_toUInt32, hperiod hslot, hnumber]
    omega

/-- No number that is computed for the time is too big. -/
structure InRange (c : MainchainSlotConfig) (t : UInt64) : Prop where
  first : c.firstEpochTimestampMillis ≤ t
  slot : c.firstSlotNumber.toNat +
    (t.toNat - c.firstEpochTimestampMillis.toNat) / c.slotDurationMillis.toNat < 2 ^ 64
  passed : period c.firstEpochTimestampMillis.toNat c.epochDurationMillis.toNat t.toNat ≤ i32Max
  epoch : c.firstEpochNumber.toNat +
    period c.firstEpochTimestampMillis.toNat c.epochDurationMillis.toNat t.toNat ≤ u32Max

theorem InRange.exists_slot_epoch (h : c.InRange t) :
    ∃ slot epoch, c.timestampToMainchainSlotNumber t = .ok slot ∧
      c.timestampToMainchainEpoch t = .ok epoch ∧
      slot.toNat = c.firstSlotNumber.toNat +
        (t.toNat - c.firstEpochTimestampMillis.toNat) / c.slotDurationMillis.toNat ∧
      epoch.toNat = c.firstEpochNumber.toNat +
        period c.firstEpochTimestampMillis.toNat c.epochDurationMillis.toNat t.toNat := by
  have hok : c.timestampToMainchainEpoch t = .ok (saturatingAddEpoch c.firstEpochNumber (UInt32.ofNat
      (period c.firstEpochTimestampMillis.toNat c.epochDurationMillis.toNat t.toNat))) := by
    rw [MainchainEpochConfig.timestampToMainchainEpoch_eq _ h.first, epochAfter,
      if_neg (Nat.not_lt.mpr h.passed)]
  refine ⟨_, _, if_neg (UInt64.not_lt.mpr h.first), hok, ?_, ?_⟩
  · rw [UInt64.toNat_add, UInt64.toNat_div, UInt64.toNat_sub_of_le _ _ h.first]
    exact Nat.mod_eq_of_lt h.slot
  · rw [saturatingAddEpoch_toNat, UInt32.toNat_ofNat_of_lt' (lt_size_of_le_i32Max h.passed),
      saturatingAdd]
    exact Nat.min_eq_left h.epoch

/-- The slot computed is the first of its epoch as long as it fits in 64 bits. -/
theorem isLeast_firstSlot_iff (h : Accepted c.toMainchainEpochConfig)
    (hepoch : c.firstEpochNumber ≤ epoch) :
    ∃ slot, c.firstSlotOfEpoch epoch = .ok slot ∧
      (IsLeast { s | c.epochForSlot s = .ok epoch } slot ↔
        c.firstSlotNumber.toNat +
          c.slotsPerEpoch.toNat * (epoch.toNat - c.firstEpochNumber.toNat) < 2 ^ 64) := by
  refine ⟨_, if_neg (UInt32.not_lt.mpr hepoch), ?_⟩
  generalize hslot : (epoch - c.firstEpochNumber).toUInt64 * c.slotsPerEpoch + c.firstSlotNumber = slot
  -- every slot of the epoch is at least the first one, as a number
  have hbound : ∀ s, c.epochForSlot s = .ok epoch →
      c.firstSlotNumber.toNat +
        c.slotsPerEpoch.toNat * (epoch.toNat - c.firstEpochNumber.toNat) ≤ s.toNat := by
    intro s hs
    obtain ⟨hle, hperiod⟩ := (epochForSlot_eq_ok_iff hepoch).mp hs
    exact le_of_period_eq (UInt64.le_iff_toNat_le.mp hle) hperiod
  constructor
  · intro hleast
    exact (hbound slot hleast.1).trans_lt slot.toNat_lt
  · intro hfits
    have hnumber : slot.toNat =
        c.firstSlotNumber.toNat + c.slotsPerEpoch.toNat * (epoch.toNat - c.firstEpochNumber.toNat) := by
      rw [← hslot, UInt64.toNat_add, UInt64.toNat_mul, UInt32.toNat_toUInt64,
        UInt32.toNat_sub_of_le _ _ hepoch, Nat.mod_add_mod, Nat.add_comm, Nat.mul_comm,
        Nat.mod_eq_of_lt hfits]
    refine ⟨(epochForSlot_eq_ok_iff hepoch).mpr ⟨?_, ?_⟩, fun s hs => ?_⟩
    · rw [UInt64.le_iff_toNat_le, hnumber]
      exact Nat.le_add_right _ _
    · rw [hnumber, period_start (slotsPerEpoch_pos h)]
    · rw [UInt64.le_iff_toNat_le, hnumber]
      exact hbound s hs

end MainchainSlotConfig

/-- Slots, epochs and times agree: the epoch of a time's slot is the time's epoch, and an epoch begins
with its first slot, as long as the number of that slot fits. -/
theorem slot_epoch_time_agree (c : MainchainSlotConfig)
    (hcheck : checkMainchainEpochInvariants c.toMainchainEpochConfig = .ok ()) :
    (∀ t, c.InRange t → ∃ slot epoch, c.timestampToMainchainSlotNumber t = .ok slot ∧
      c.epochForSlot slot = .ok epoch ∧ c.timestampToMainchainEpoch t = .ok epoch) ∧
    (∀ epoch, epoch < c.firstEpochNumber → c.firstSlotOfEpoch epoch = .error .epochTooSmall) ∧
    ∀ epoch, c.firstEpochNumber ≤ epoch → ∃ slot, c.firstSlotOfEpoch epoch = .ok slot ∧
      (IsLeast { s | c.epochForSlot s = .ok epoch } slot ↔
        c.firstSlotNumber.toNat +
          c.slotsPerEpoch.toNat * (epoch.toNat - c.firstEpochNumber.toNat) < 2 ^ 64) := by
  have h := accepted_of_check hcheck
  refine ⟨fun t ht => ?_, fun epoch hepoch => if_pos hepoch,
    fun epoch hepoch => MainchainSlotConfig.isLeast_firstSlot_iff h hepoch⟩
  obtain ⟨slot, epoch, hslot, hepoch, hslotNat, hepochNat⟩ := ht.exists_slot_epoch
  refine ⟨slot, epoch, hslot, ?_, hepoch⟩
  have hfirst : c.firstEpochNumber ≤ epoch := by
    rw [UInt32.le_iff_toNat_le, hepochNat]
    exact Nat.le_add_right _ _
  refine (MainchainSlotConfig.epochForSlot_eq_ok_iff hfirst).mpr ⟨?_, ?_⟩
  · rw [UInt64.le_iff_toNat_le, hslotNat]
    exact Nat.le_add_right _ _
  · rw [hslotNat, hepochNat, period, Nat.add_sub_cancel_left, Nat.add_sub_cancel_left,
      MainchainSlotConfig.toNat_slotsPerEpoch, h.slot_eq]
    exact period_div (by decide) h.dvd _ _

/-- Mainnet, with the slot that its first epoch begins with. -/
theorem slot_epoch_time_agree_mainnet :
    ∃ slot epoch, MainchainSlotConfig.timestampToMainchainSlotNumber ⟨mainnetMcEpochConfig, 4492800⟩
        1722400000000 = .ok slot ∧
      MainchainSlotConfig.epochForSlot ⟨mainnetMcEpochConfig, 4492800⟩ slot = .ok epoch ∧
      mainnetMcEpochConfig.timestampToMainchainEpoch 1722400000000 = .ok epoch :=
  (slot_epoch_time_agree ⟨mainnetMcEpochConfig, 4492800⟩ rfl).1 1722400000000
    ⟨by decide, by decide, by decide, by decide⟩

/-! ## Times of epochs -/

namespace MainchainEpochConfig

variable {c : MainchainEpochConfig} {epoch : UInt32}

structure EpochInRange (c : MainchainEpochConfig) (epoch : UInt32) : Prop where
  first : c.firstEpochNumber ≤ epoch
  passed : epoch.toNat - c.firstEpochNumber.toNat ≤ i32Max
  time : c.firstEpochTimestampMillis.toNat + c.epochDurationMillis.toNat * epoch.toNat < 2 ^ 64

theorem EpochInRange.toNat_mainchainEpochToTimestamp (h : c.EpochInRange epoch) :
    (c.mainchainEpochToTimestamp epoch).toNat =
      c.firstEpochTimestampMillis.toNat + c.epochDurationMillis.toNat * epoch.toNat := by
  rw [mainchainEpochToTimestamp, UInt64.toNat_add, UInt64.toNat_mul, UInt32.toNat_toUInt64,
    Nat.add_mod_mod, Nat.mod_eq_of_lt h.time]

theorem le_of_timestampToMainchainEpoch (h : c.timestampToMainchainEpoch t = .ok epoch) :
    c.firstEpochTimestampMillis.toNat +
      c.epochDurationMillis.toNat * (epoch.toNat - c.firstEpochNumber.toNat) ≤ t.toNat := by
  have hfirst : c.firstEpochTimestampMillis ≤ t := by
    refine UInt64.not_lt.mp fun hlt => ?_
    rw [timestampToMainchainEpoch, epochsPassed, if_pos hlt] at h
    cases h
  rw [timestampToMainchainEpoch_eq c hfirst] at h
  obtain ⟨hpassed, h⟩ := of_check h
  have hnumber := congrArg UInt32.toNat (Except.ok.inj h)
  rw [saturatingAddEpoch_toNat, UInt32.toNat_ofNat_of_lt' (lt_size_of_le_i32Max (Nat.not_lt.mp hpassed)),
    saturatingAdd] at hnumber
  have hle := le_of_period_eq (UInt64.le_iff_toNat_le.mp hfirst) (Eq.refl
    (period c.firstEpochTimestampMillis.toNat c.epochDurationMillis.toNat t.toNat))
  refine le_trans (Nat.add_le_add_left (Nat.mul_le_mul_left _ ?_) _) hle
  omega

theorem EpochInRange.timestampToMainchainEpoch_eq_ok (haccepted : Accepted c) (h : c.EpochInRange epoch)
    (ht : t.toNat = c.firstEpochTimestampMillis.toNat +
      c.epochDurationMillis.toNat * (epoch.toNat - c.firstEpochNumber.toNat)) :
    c.timestampToMainchainEpoch t = .ok epoch := by
  have hfirst : c.firstEpochTimestampMillis ≤ t := by
    rw [UInt64.le_iff_toNat_le, ht]
    exact Nat.le_add_right _ _
  have hle := UInt32.le_iff_toNat_le.mp h.first
  have hlt := epoch.toNat_lt
  rw [timestampToMainchainEpoch_eq c hfirst, ht, period_start haccepted.pos, epochAfter,
    if_neg (Nat.not_lt.mpr h.passed)]
  refine congrArg Except.ok (UInt32.toNat_inj.mp ?_)
  rw [saturatingAddEpoch_toNat, UInt32.toNat_ofNat_of_lt' (lt_size_of_le_i32Max h.passed), saturatingAdd,
    u32Max]
  omega

theorem EpochInRange.isLeast_iff (haccepted : Accepted c) (h : c.EpochInRange epoch) :
    IsLeast { t | c.timestampToMainchainEpoch t = .ok epoch } t ↔ t.toNat =
      c.firstEpochTimestampMillis.toNat +
        c.epochDurationMillis.toNat * (epoch.toNat - c.firstEpochNumber.toNat) := by
  have hrange : c.firstEpochTimestampMillis.toNat +
      c.epochDurationMillis.toNat * (epoch.toNat - c.firstEpochNumber.toNat) < 2 ^ 64 :=
    (Nat.add_le_add_left (Nat.mul_le_mul_left _ (Nat.sub_le _ _)) _).trans_lt h.time
  constructor
  · intro hleast
    refine le_antisymm ?_ (le_of_timestampToMainchainEpoch hleast.1)
    have hstart := UInt64.toNat_ofNat_of_lt' hrange
    rw [← hstart]
    exact UInt64.le_iff_toNat_le.mp (hleast.2 (h.timestampToMainchainEpoch_eq_ok haccepted hstart))
  · intro ht
    refine ⟨h.timestampToMainchainEpoch_eq_ok haccepted ht, fun t' ht' => ?_⟩
    rw [UInt64.le_iff_toNat_le, ht]
    exact le_of_timestampToMainchainEpoch ht'

/-- The start that is computed is the first instant when the epochs are counted from zero. -/
theorem EpochInRange.isLeast_mainchainEpochToTimestamp_iff (haccepted : Accepted c)
    (h : c.EpochInRange epoch) :
    IsLeast { t | c.timestampToMainchainEpoch t = .ok epoch } (c.mainchainEpochToTimestamp epoch) ↔
      c.firstEpochNumber = 0 := by
  have hle := UInt32.le_iff_toNat_le.mp h.first
  rw [h.isLeast_iff haccepted, h.toNat_mainchainEpochToTimestamp, Nat.add_left_cancel_iff,
    Nat.mul_right_inj haccepted.pos.ne', ← UInt32.toNat_inj, UInt32.toNat_zero]
  omega

end MainchainEpochConfig

theorem getStatus_nextEpochTimestamp (h : getStatus c slotConfig now (.ok block) = .ok response) :
    response.mainchain.nextEpochTimestamp = c.mainchainEpochToTimestamp (block.epoch + 1) := by
  obtain ⟨sc, -, h⟩ := of_bind h
  obtain ⟨next, -, h⟩ := of_bind h
  obtain ⟨latest, hlatest, h⟩ := of_bind h
  cases hlatest
  cases h
  rfl

/-- The time computed from an epoch, and the one that the status reports for the epoch after the latest
block's, are first instants when the epochs are counted from zero. -/
theorem epoch_start_is_first_instant_iff (c : MainchainEpochConfig)
    (hcheck : checkMainchainEpochInvariants c = .ok ()) :
    (∀ epoch, c.EpochInRange epoch →
      (IsLeast { t | c.timestampToMainchainEpoch t = .ok epoch } (c.mainchainEpochToTimestamp epoch) ↔
        c.firstEpochNumber = 0)) ∧
    ∀ slotConfig now (block : MainchainBlock) response,
      getStatus c slotConfig now (.ok block) = .ok response → c.EpochInRange (block.epoch + 1) →
      (IsLeast { t | c.timestampToMainchainEpoch t = .ok (block.epoch + 1) }
        response.mainchain.nextEpochTimestamp ↔ c.firstEpochNumber = 0) := by
  have h := accepted_of_check hcheck
  refine ⟨fun epoch hrange => hrange.isLeast_mainchainEpochToTimestamp_iff h, ?_⟩
  intro slotConfig now block response hstatus hrange
  rw [getStatus_nextEpochTimestamp hstatus]
  exact hrange.isLeast_mainchainEpochToTimestamp_iff h

theorem epoch_start_is_first_instant_iff_default :
    IsLeast { t | defaultMcEpochConfig.timestampToMainchainEpoch t = .ok 3 }
      (defaultMcEpochConfig.mainchainEpochToTimestamp 3) :=
  ((epoch_start_is_first_instant_iff defaultMcEpochConfig rfl).1 3
    ⟨by decide, by decide, by decide⟩).mpr rfl

/-- The time computed for the first epoch of mainnet lies in epoch 416, and the status of a node whose
latest block is of epoch 500 reports a time of epoch 709. -/
theorem mainnet_epoch_start_too_late :
    checkMainchainEpochInvariants mainnetMcEpochConfig = .ok () ∧
    mainnetMcEpochConfig.EpochInRange 208 ∧ mainnetMcEpochConfig.EpochInRange 501 ∧
    mainnetMcEpochConfig.timestampToMainchainEpoch 1596059091000 = .ok 208 ∧
    mainnetMcEpochConfig.mainchainEpochToTimestamp 208 = 1685915091000 ∧
    mainnetMcEpochConfig.timestampToMainchainEpoch 1685915091000 = .ok 416 ∧
    ∃ response, getStatus mainnetMcEpochConfig (.ok scSlotConfig) 1722400000000
        (.ok ⟨500, 130000000⟩) = .ok response ∧
      mainnetMcEpochConfig.timestampToMainchainEpoch response.mainchain.nextEpochTimestamp =
        .ok 709 := by
  have hfirst : mainnetMcEpochConfig.EpochInRange 208 := ⟨by decide, by decide, by decide⟩
  have hnext : mainnetMcEpochConfig.EpochInRange 501 := ⟨by decide, by decide, by decide⟩
  exact ⟨rfl, hfirst, hnext, rfl, rfl, rfl, _, rfl, rfl⟩

end MidnightNode.MainChain.Epochs
