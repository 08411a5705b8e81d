import Mathlib
import MidnightNode.Lib.Periods
import MidnightNode.MainChain.BlockSource

/-!
# Main chain epochs and sidechain epochs

The node derives the epoch of the main chain from a time (`sidechain_domain::mainchain_epoch`) and the
epoch of its own chain from a slot (`sidechain_slots`). At start-up it accepts a configuration whose
durations fit (`cfg/midnight_cfg/invariants.rs`, `CreateInherentDataConfig::new`).

Times are milliseconds. A quotient by zero, where the source panics, is zero here; the checks exclude it.
-/

namespace MidnightNode.MainChain.Epochs

open Periods

/-! ## The main chain -/

structure MainchainEpochConfig where
  epochDurationMillis : UInt64
  slotDurationMillis : UInt64
  firstEpochTimestampMillis : UInt64
  firstEpochNumber : UInt32
deriving DecidableEq

inductive EpochDerivationError
  | timestampTooSmall
  | epochTooBig
  | epochTooSmall
  | slotTooSmall
deriving DecidableEq, Repr

def i32Max : Nat := 2 ^ 31 - 1

/-- `saturating_add` of epoch numbers. -/
def saturatingAddEpoch (a b : UInt32) : UInt32 := .ofNat (saturatingAdd u32Max a.toNat b.toNat)

namespace MainchainEpochConfig

variable (c : MainchainEpochConfig)

def epochsPassed (timestamp : UInt64) : Except EpochDerivationError UInt32 :=
  if timestamp < c.firstEpochTimestampMillis then .error .timestampTooSmall
  else
    let res := (timestamp - c.firstEpochTimestampMillis) / c.epochDurationMillis
    -- the conversion to 32 bits
    if u32Max < res.toNat then .error .epochTooBig
    else if i32Max < res.toNat then .error .epochTooBig
    else .ok res.toUInt32

def timestampToMainchainEpoch (timestamp : UInt64) : Except EpochDerivationError UInt32 :=
  (c.epochsPassed timestamp).map (saturatingAddEpoch c.firstEpochNumber)

end MainchainEpochConfig

/-! ## The sidechain -/

structure ScSlotConfig where
  slotsPerEpoch : UInt32
  slotDuration : UInt64
deriving DecidableEq

namespace ScSlotConfig

variable (sc : ScSlotConfig)

def epochNumber (slot : UInt64) : UInt64 := slot / sc.slotsPerEpoch.toUInt64

def firstSlotNumber (epoch : UInt64) : UInt64 := epoch * sc.slotsPerEpoch.toUInt64

def slotFromTimestamp (timestamp : UInt64) : UInt64 := timestamp / sc.slotDuration

/-- `Slot::timestamp`, a checked product. -/
def slotTimestamp (slot : UInt64) : Option UInt64 :=
  if slot.toNat * sc.slotDuration.toNat < 2 ^ 64 then some (slot * sc.slotDuration) else none

def epochStartTime (epoch : UInt64) : Option UInt64 := sc.slotTimestamp (sc.firstSlotNumber epoch)

end ScSlotConfig

inductive InherentProviderCreationError
  | slotTooBig
  | mcEpochDerivationError (e : EpochDerivationError)
deriving DecidableEq, Repr

/-- The main chain epoch that a node observes for a sidechain epoch. -/
def scEpochToMcEpoch (scEpoch : UInt64) (sc : ScSlotConfig) (c : MainchainEpochConfig) :
    Except InherentProviderCreationError UInt32 :=
  match sc.epochStartTime scEpoch with
  | none => .error .slotTooBig
  | some timestamp => (c.timestampToMainchainEpoch timestamp).mapError .mcEpochDerivationError

/-! ## The checks -/

inductive MainchainEpochConfigError
  | epochDurationZero
  | slotDurationZero
  | epochDurationBelowMinimum (epochDurationMillis minimumMillis : UInt64)
  | epochNotDivisibleBySlot (epochDurationMillis slotDurationMillis : UInt64)
  | unsupportedSlotDuration (slotDurationMillis : UInt64)
deriving DecidableEq, Repr

inductive ConsensusConfigCoherenceError
  | mainchainEpochNotDivisibleBySidechainEpoch (mcEpochDurationMillis : UInt64)
    (scEpochDurationMillis : Nat)
  | sidechainEpochZero (slotsPerEpoch : UInt32) (scSlotDurationMillis : UInt64)
deriving DecidableEq, Repr

def minEpochDurationMillis : UInt64 := 1000

def checkMainchainEpochInvariants (c : MainchainEpochConfig) : Except MainchainEpochConfigError Unit :=
  if c.epochDurationMillis = 0 then .error .epochDurationZero
  else if c.slotDurationMillis = 0 then .error .slotDurationZero
  else if c.epochDurationMillis < minEpochDurationMillis then
    .error (.epochDurationBelowMinimum c.epochDurationMillis minEpochDurationMillis)
  else if c.epochDurationMillis % c.slotDurationMillis ≠ 0 then
    .error (.epochNotDivisibleBySlot c.epochDurationMillis c.slotDurationMillis)
  else if c.slotDurationMillis ≠ 1000 then .error (.unsupportedSlotDuration c.slotDurationMillis)
  else .ok ()

/-- The span of a sidechain epoch, a product of 128 bits. -/
def ScSlotConfig.epochDurationMillis (sc : ScSlotConfig) : Nat :=
  sc.slotsPerEpoch.toNat * sc.slotDuration.toNat

def checkSidechainMainchainCoherence (c : MainchainEpochConfig) (sc : ScSlotConfig) :
    Except ConsensusConfigCoherenceError Unit :=
  if sc.epochDurationMillis = 0 then .error (.sidechainEpochZero sc.slotsPerEpoch sc.slotDuration)
  else if c.epochDurationMillis.toNat % sc.epochDurationMillis ≠ 0 then
    .error (.mainchainEpochNotDivisibleBySidechainEpoch c.epochDurationMillis sc.epochDurationMillis)
  else .ok ()

structure CreateInherentDataConfig where
  mcEpochConfig : MainchainEpochConfig
  scSlotConfig : ScSlotConfig
  mainchain_ok : checkMainchainEpochInvariants mcEpochConfig = .ok ()
  coherence_ok : checkSidechainMainchainCoherence mcEpochConfig scSlotConfig = .ok ()

inductive InherentConfigError
  | mainchainEpoch (e : MainchainEpochConfigError)
  | coherence (e : ConsensusConfigCoherenceError)
deriving DecidableEq, Repr

def CreateInherentDataConfig.new (c : MainchainEpochConfig) (sc : ScSlotConfig) :
    Except InherentConfigError CreateInherentDataConfig :=
  match hmainchain : checkMainchainEpochInvariants c with
  | .error e => .error (.mainchainEpoch e)
  | .ok () =>
    match hcoherence : checkSidechainMainchainCoherence c sc with
    | .error e => .error (.coherence e)
    | .ok () => .ok ⟨c, sc, hmainchain, hcoherence⟩

/-! ## Epochs as periods of time -/

/-- The epoch that begins after a number of epochs. -/
def epochAfter (first : UInt32) (passed : Nat) : Except EpochDerivationError UInt32 :=
  if i32Max < passed then .error .epochTooBig
  else .ok (saturatingAddEpoch first (.ofNat passed))

theorem MainchainEpochConfig.timestampToMainchainEpoch_eq (c : MainchainEpochConfig)
    (ht : c.firstEpochTimestampMillis ≤ t) :
    c.timestampToMainchainEpoch t = epochAfter c.firstEpochNumber
      (period c.firstEpochTimestampMillis.toNat c.epochDurationMillis.toNat t.toNat) := by
  have hres : ((t - c.firstEpochTimestampMillis) / c.epochDurationMillis).toNat =
      period c.firstEpochTimestampMillis.toNat c.epochDurationMillis.toNat t.toNat := by
    rw [UInt64.toNat_div, UInt64.toNat_sub_of_le _ _ ht, period]
  rw [timestampToMainchainEpoch, epochsPassed, if_neg (UInt64.not_lt.mpr ht), epochAfter]
  simp only [hres]
  by_cases hbig : i32Max < period c.firstEpochTimestampMillis.toNat c.epochDurationMillis.toNat t.toNat
  · rw [if_pos hbig, if_pos hbig]
    split <;> rfl
  · have hsmall : ¬ u32Max < period c.firstEpochTimestampMillis.toNat c.epochDurationMillis.toNat
        t.toNat := by
      unfold u32Max i32Max at *
      omega
    rw [if_neg hsmall, if_neg hbig, if_neg hbig, ← hres]
    rfl

theorem saturatingAddEpoch_toNat (a b : UInt32) :
    (saturatingAddEpoch a b).toNat = saturatingAdd u32Max a.toNat b.toNat := by
  apply UInt32.toNat_ofNat_of_lt'
  unfold saturatingAdd u32Max UInt32.size
  omega

theorem ScSlotConfig.epochNumber_eq (sc : ScSlotConfig) (t : UInt64) :
    (sc.epochNumber (sc.slotFromTimestamp t)).toNat = period 0 sc.epochDurationMillis t.toNat := by
  rw [epochNumber, slotFromTimestamp, UInt64.toNat_div, UInt64.toNat_div, UInt32.toNat_toUInt64,
    Nat.div_div_eq_div_mul, period, Nat.sub_zero, epochDurationMillis, Nat.mul_comm]

theorem ScSlotConfig.epochStartTime_eq {sc : ScSlotConfig} (hpos : 0 < sc.epochDurationMillis)
    (t : UInt64) :
    ∃ start, sc.epochStartTime (sc.epochNumber (sc.slotFromTimestamp t)) = some start ∧
      start.toNat = sc.epochDurationMillis * period 0 sc.epochDurationMillis t.toNat := by
  have hduration : 0 < sc.slotDuration.toNat := Nat.pos_of_mul_pos_left hpos
  have hle : sc.epochDurationMillis * period 0 sc.epochDurationMillis t.toNat ≤ t.toNat :=
    Nat.mul_div_le _ _
  have hslot : (sc.firstSlotNumber (sc.epochNumber (sc.slotFromTimestamp t))).toNat =
      period 0 sc.epochDurationMillis t.toNat * sc.slotsPerEpoch.toNat := by
    rw [firstSlotNumber, UInt64.toNat_mul, sc.epochNumber_eq, UInt32.toNat_toUInt64]
    apply Nat.mod_eq_of_lt
    calc period 0 sc.epochDurationMillis t.toNat * sc.slotsPerEpoch.toNat
      _ ≤ period 0 sc.epochDurationMillis t.toNat * sc.slotsPerEpoch.toNat * sc.slotDuration.toNat :=
        Nat.le_mul_of_pos_right _ hduration
      _ = sc.epochDurationMillis * period 0 sc.epochDurationMillis t.toNat := by
        rw [epochDurationMillis, Nat.mul_assoc, Nat.mul_comm]
      _ < 2 ^ 64 := hle.trans_lt t.toNat_lt
  have hproduct : (sc.firstSlotNumber (sc.epochNumber (sc.slotFromTimestamp t))).toNat *
      sc.slotDuration.toNat = sc.epochDurationMillis * period 0 sc.epochDurationMillis t.toNat := by
    rw [hslot, Nat.mul_assoc, Nat.mul_comm]
    rfl
  have hrange := hproduct.trans_lt (hle.trans_lt t.toNat_lt)
  refine ⟨_, if_pos hrange, ?_⟩
  rw [UInt64.toNat_mul, Nat.mod_eq_of_lt hrange, hproduct]

namespace CreateInherentDataConfig

variable (cfg : CreateInherentDataConfig)

theorem epochDurationMillis_pos : 0 < cfg.mcEpochConfig.epochDurationMillis.toNat := by
  have h := cfg.mainchain_ok
  rw [checkMainchainEpochInvariants] at h
  split at h
  case isTrue => cases h
  case isFalse hzero => exact Nat.pos_of_ne_zero fun heq => hzero (UInt64.toNat_inj.mp heq)

theorem scEpochDurationMillis_pos : 0 < cfg.scSlotConfig.epochDurationMillis := by
  have h := cfg.coherence_ok
  rw [checkSidechainMainchainCoherence] at h
  split at h
  case isTrue => cases h
  case isFalse hzero => exact Nat.pos_of_ne_zero hzero

theorem dvd_epochDurationMillis :
    cfg.scSlotConfig.epochDurationMillis ∣ cfg.mcEpochConfig.epochDurationMillis.toNat := by
  have h := cfg.coherence_ok
  rw [checkSidechainMainchainCoherence] at h
  split at h
  case isTrue => cases h
  case isFalse =>
    split at h
    case isTrue => cases h
    case isFalse hmod => exact Nat.dvd_of_mod_eq_zero (not_not.mp hmod)

/-- A sidechain epoch begins at the reference point of the main chain. -/
def Aligned : Prop :=
  cfg.scSlotConfig.epochDurationMillis ∣ cfg.mcEpochConfig.firstEpochTimestampMillis.toNat

/-- No two main chain epochs can be told apart: no second one begins in 64 bits, or all their numbers
are cut off to the same one. -/
def SingleEpoch : Prop :=
  2 ^ 64 ≤ cfg.mcEpochConfig.firstEpochTimestampMillis.toNat +
      cfg.mcEpochConfig.epochDurationMillis.toNat ∨
    cfg.mcEpochConfig.firstEpochNumber.toNat = u32Max ∧
      2 ^ 64 ≤ cfg.mcEpochConfig.firstEpochTimestampMillis.toNat +
        cfg.mcEpochConfig.epochDurationMillis.toNat * (i32Max + 1)

/-- The times of a sidechain epoch have one main chain epoch. -/
def Coincide : Prop :=
  ∀ t t', cfg.mcEpochConfig.firstEpochTimestampMillis ≤ t →
    cfg.mcEpochConfig.firstEpochTimestampMillis ≤ t' →
    cfg.scSlotConfig.epochNumber (cfg.scSlotConfig.slotFromTimestamp t) =
      cfg.scSlotConfig.epochNumber (cfg.scSlotConfig.slotFromTimestamp t') →
    cfg.mcEpochConfig.timestampToMainchainEpoch t = cfg.mcEpochConfig.timestampToMainchainEpoch t'

variable {cfg}

theorem Aligned.coincide (h : cfg.Aligned) : cfg.Coincide := by
  intro t t' ht ht' hepoch
  have hperiod : period 0 cfg.scSlotConfig.epochDurationMillis t.toNat =
      period 0 cfg.scSlotConfig.epochDurationMillis t'.toNat := by
    rw [← ScSlotConfig.epochNumber_eq, ← ScSlotConfig.epochNumber_eq, hepoch]
  rw [MainchainEpochConfig.timestampToMainchainEpoch_eq _ ht,
    MainchainEpochConfig.timestampToMainchainEpoch_eq _ ht',
    period_eq_of_dvd cfg.dvd_epochDurationMillis h hperiod]

theorem epochAfter_of_eq_u32Max (hfirst : first.toNat = u32Max) (h : passed ≤ i32Max) :
    epochAfter first passed = .ok (.ofNat u32Max) := by
  rw [epochAfter, if_neg (Nat.not_lt.mpr h), saturatingAddEpoch, saturatingAdd, hfirst,
    Nat.min_eq_right (Nat.le_add_right _ _)]

theorem SingleEpoch.coincide (h : cfg.SingleEpoch) : cfg.Coincide := by
  intro t t' ht ht' _
  rw [MainchainEpochConfig.timestampToMainchainEpoch_eq _ ht,
    MainchainEpochConfig.timestampToMainchainEpoch_eq _ ht']
  rcases h with hnone | ⟨hfirst, hcut⟩
  · have hzero : ∀ u : UInt64, cfg.mcEpochConfig.firstEpochTimestampMillis ≤ u →
        period cfg.mcEpochConfig.firstEpochTimestampMillis.toNat
          cfg.mcEpochConfig.epochDurationMillis.toNat u.toNat = 0 := by
      intro u hu
      have hlt := u.toNat_lt
      exact Nat.lt_one_iff.mp (period_lt hu (by omega))
    rw [hzero t ht, hzero t' ht']
  · have hle : ∀ u : UInt64, cfg.mcEpochConfig.firstEpochTimestampMillis ≤ u →
        period cfg.mcEpochConfig.firstEpochTimestampMillis.toNat
          cfg.mcEpochConfig.epochDurationMillis.toNat u.toNat ≤ i32Max := by
      intro u hu
      exact Nat.lt_succ_iff.mp (period_lt hu (u.toNat_lt.trans_le hcut))
    rw [epochAfter_of_eq_u32Max hfirst (hle t ht), epochAfter_of_eq_u32Max hfirst (hle t' ht')]

/-- Where no sidechain epoch begins at the reference point, the start of each main chain epoch lies within
a sidechain epoch. -/
theorem Coincide.epochAfter_eq (h : cfg.Coincide) (hnot : ¬ cfg.Aligned)
    (hrange : cfg.mcEpochConfig.firstEpochTimestampMillis.toNat +
      cfg.mcEpochConfig.epochDurationMillis.toNat * (k + 1) < 2 ^ 64) :
    epochAfter cfg.mcEpochConfig.firstEpochNumber (k + 1) =
      epochAfter cfg.mcEpochConfig.firstEpochNumber k := by
  have hpos := cfg.epochDurationMillis_pos
  have hmul : cfg.mcEpochConfig.epochDurationMillis.toNat ≤
      cfg.mcEpochConfig.epochDurationMillis.toNat * (k + 1) := Nat.le_mul_of_pos_right _ k.succ_pos
  -- the start of an epoch, and the millisecond before it
  obtain ⟨t, ht⟩ : ∃ t : UInt64, t.toNat = cfg.mcEpochConfig.firstEpochTimestampMillis.toNat +
      cfg.mcEpochConfig.epochDurationMillis.toNat * (k + 1) :=
    ⟨.ofNat _, UInt64.toNat_ofNat_of_lt' hrange⟩
  obtain ⟨t', ht'⟩ : ∃ t' : UInt64, t'.toNat = t.toNat - 1 :=
    ⟨.ofNat _, UInt64.toNat_ofNat_of_lt' (by unfold UInt64.size; omega)⟩
  have hfirst : cfg.mcEpochConfig.firstEpochTimestampMillis ≤ t :=
    UInt64.le_iff_toNat_le.mpr (by omega)
  have hfirst' : cfg.mcEpochConfig.firstEpochTimestampMillis ≤ t' :=
    UInt64.le_iff_toNat_le.mpr (by omega)
  have hwithin : ¬ cfg.scSlotConfig.epochDurationMillis ∣ t.toNat := by
    rw [ht, Nat.dvd_add_left (cfg.dvd_epochDurationMillis.mul_right _)]
    exact hnot
  have hsame := h t t' hfirst hfirst' <| UInt64.toNat_inj.mp <| by
    rw [ScSlotConfig.epochNumber_eq, ScSlotConfig.epochNumber_eq, ht', period_pred_of_not_dvd hwithin]
  rwa [MainchainEpochConfig.timestampToMainchainEpoch_eq _ hfirst,
    MainchainEpochConfig.timestampToMainchainEpoch_eq _ hfirst', ht', ht, period_start hpos,
    period_before_start hpos] at hsame

theorem epochAfter_one_ne (hfirst : first.toNat ≠ u32Max) : epochAfter first 1 ≠ epochAfter first 0 := by
  intro h
  have hlt := first.toNat_lt
  have hnumbers := congrArg UInt32.toNat (Except.ok.inj h)
  rw [saturatingAddEpoch_toNat, saturatingAddEpoch_toNat, saturatingAdd, saturatingAdd] at hnumbers
  have hone : (UInt32.ofNat 1).toNat = 1 := rfl
  have hzero : (UInt32.ofNat 0).toNat = 0 := rfl
  unfold u32Max at *
  omega

theorem Coincide.aligned_or (h : cfg.Coincide) : cfg.Aligned ∨ cfg.SingleEpoch := by
  by_contra hnot
  obtain ⟨haligned, hsingle⟩ := not_or.mp hnot
  obtain ⟨hsecond, hcut⟩ := not_or.mp hsingle
  by_cases hfirst : cfg.mcEpochConfig.firstEpochNumber.toNat = u32Max
  · -- the numbers are all cut off, up to the one that is too big
    have heq := h.epochAfter_eq haligned (k := i32Max) (Nat.lt_of_not_le fun hle => hcut ⟨hfirst, hle⟩)
    rw [epochAfter_of_eq_u32Max hfirst le_rfl, epochAfter, if_pos i32Max.lt_succ_self] at heq
    cases heq
  · refine epochAfter_one_ne hfirst (h.epochAfter_eq haligned (k := 0) ?_)
    rw [Nat.zero_add, Nat.mul_one]
    exact Nat.lt_of_not_le hsecond

/-- The start of a sidechain epoch has the main chain epoch of all its times exactly where both chains
begin an epoch together. -/
theorem scEpochToMcEpoch_eq_iff :
    (∀ t, cfg.mcEpochConfig.firstEpochTimestampMillis ≤ t →
      scEpochToMcEpoch (cfg.scSlotConfig.epochNumber (cfg.scSlotConfig.slotFromTimestamp t))
          cfg.scSlotConfig cfg.mcEpochConfig =
        (cfg.mcEpochConfig.timestampToMainchainEpoch t).mapError .mcEpochDerivationError) ↔
      cfg.Aligned := by
  have hpos := cfg.scEpochDurationMillis_pos
  constructor
  · intro h
    have hfirst := h cfg.mcEpochConfig.firstEpochTimestampMillis (UInt64.le_refl _)
    obtain ⟨start, hstart, hmul⟩ := ScSlotConfig.epochStartTime_eq hpos
      cfg.mcEpochConfig.firstEpochTimestampMillis
    rw [scEpochToMcEpoch, hstart] at hfirst
    by_cases hlt : start < cfg.mcEpochConfig.firstEpochTimestampMillis
    · -- the epoch began before the reference point, so no main chain epoch is found
      rw [MainchainEpochConfig.timestampToMainchainEpoch_eq _ (UInt64.le_refl _), period, Nat.sub_self,
        Nat.zero_div] at hfirst
      simp only [MainchainEpochConfig.timestampToMainchainEpoch, MainchainEpochConfig.epochsPassed,
        if_pos hlt] at hfirst
      cases hfirst
    · have hle := UInt64.le_iff_toNat_le.mp (UInt64.not_lt.mp hlt)
      rw [hmul] at hle
      exact ⟨_, le_antisymm hle (Nat.mul_div_le _ _)⟩
  · intro h t ht
    obtain ⟨start, hstart, hmul⟩ := ScSlotConfig.epochStartTime_eq hpos t
    have hfirst : cfg.mcEpochConfig.firstEpochTimestampMillis ≤ start := by
      obtain ⟨m, hm⟩ := h
      rw [UInt64.le_iff_toNat_le, hm, hmul]
      apply Nat.mul_le_mul_left
      rw [period, Nat.sub_zero, Nat.le_div_iff_mul_le hpos, Nat.mul_comm, ← hm]
      exact UInt64.le_iff_toNat_le.mp ht
    have hepoch : cfg.scSlotConfig.epochNumber (cfg.scSlotConfig.slotFromTimestamp start) =
        cfg.scSlotConfig.epochNumber (cfg.scSlotConfig.slotFromTimestamp t) := by
      apply UInt64.toNat_inj.mp
      rw [ScSlotConfig.epochNumber_eq, ScSlotConfig.epochNumber_eq, hmul]
      exact Nat.mul_div_cancel_left _ hpos
    simp only [scEpochToMcEpoch, hstart, h.coincide start t hfirst ht hepoch]

end CreateInherentDataConfig

/-- For every accepted configuration: the times of each sidechain epoch, from the first main chain epoch
on, have one main chain epoch exactly when a sidechain epoch begins at the reference point or no two main
chain epochs can be told apart; and it is the one that nodes derive from the start of the sidechain epoch
exactly in the first case. -/
theorem mainchain_epoch_of_sidechain_epoch_iff (cfg : CreateInherentDataConfig) :
    (cfg.Coincide ↔ cfg.Aligned ∨ cfg.SingleEpoch) ∧
      ((∀ t, cfg.mcEpochConfig.firstEpochTimestampMillis ≤ t →
        scEpochToMcEpoch (cfg.scSlotConfig.epochNumber (cfg.scSlotConfig.slotFromTimestamp t))
            cfg.scSlotConfig cfg.mcEpochConfig =
          (cfg.mcEpochConfig.timestampToMainchainEpoch t).mapError .mcEpochDerivationError) ↔
        cfg.Aligned) := by
  refine ⟨⟨fun h => h.aligned_or, ?_⟩, CreateInherentDataConfig.scEpochToMcEpoch_eq_iff⟩
  rintro (haligned | hsingle)
  · exact haligned.coincide
  · exact hsingle.coincide

/-! ## Samples -/

/-- `res/cfg/default.toml`. -/
def defaultMcEpochConfig : MainchainEpochConfig := ⟨86400000, 1000, 1666656000000, 0⟩

/-- `res/cfg/mainnet.toml`. -/
def mainnetMcEpochConfig : MainchainEpochConfig := ⟨432000000, 1000, 1596059091000, 208⟩

/-- The slots per epoch of the chain specifications and the slot duration of the runtime. -/
def scSlotConfig : ScSlotConfig := ⟨300, 6000⟩

/-- An accepted configuration in which both chains begin an epoch together. -/
theorem mainchain_epoch_of_sidechain_epoch_iff_default :
    ∃ cfg : CreateInherentDataConfig, CreateInherentDataConfig.new defaultMcEpochConfig scSlotConfig =
      .ok cfg ∧ cfg.Coincide :=
  ⟨⟨defaultMcEpochConfig, scSlotConfig, rfl, rfl⟩, rfl,
    (mainchain_epoch_of_sidechain_epoch_iff _).1.mpr (.inl ⟨925920, rfl⟩)⟩

/-- Two slots of one sidechain epoch begin in different main chain epochs. -/
theorem mainchain_epoch_within_sidechain_epoch :
    ∃ cfg : CreateInherentDataConfig, CreateInherentDataConfig.new mainnetMcEpochConfig scSlotConfig =
        .ok cfg ∧ ¬ cfg.Coincide ∧
      scSlotConfig.epochNumber 266081700 = scSlotConfig.epochNumber 266081849 ∧
      scSlotConfig.slotTimestamp 266081700 = some 1596490200000 ∧
      scSlotConfig.slotTimestamp 266081849 = some 1596491094000 ∧
      mainnetMcEpochConfig.timestampToMainchainEpoch 1596490200000 = .ok 208 ∧
      mainnetMcEpochConfig.timestampToMainchainEpoch 1596491094000 = .ok 209 := by
  refine ⟨⟨mainnetMcEpochConfig, scSlotConfig, rfl, rfl⟩, rfl, ?_, rfl, rfl, rfl, rfl, rfl⟩
  intro h
  have hsame : mainnetMcEpochConfig.timestampToMainchainEpoch 1596490200000 =
      mainnetMcEpochConfig.timestampToMainchainEpoch 1596491094000 := h _ _ (by decide) (by decide) rfl
  exact absurd hsame (by decide)

end MidnightNode.MainChain.Epochs
