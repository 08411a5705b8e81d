import MidnightNode.Lib.Bytes
import MidnightNode.Lib.Codec
import MidnightNode.Lib.Fallible

/-!
# The change of the consensus engine

The pallet that takes the chain from AURA to BABE. From the moment governance arms the change, every block
carries a BABE pre-digest behind its AURA pre-digest, and `on_initialize` refuses a block whose two items do
not agree. `has_aura_pre_digest_before_babe_pre_digest` is one scan over the logs; `transitionScan_iff` says
which lists of logs it accepts (`BridgingDigest`).

The payloads of the items are SCALE-encoded. Of a VRF signature only its codec is known here.
-/

namespace MidnightNode.Consensus
open Fallible

/-! ## Digest items -/

abbrev ConsensusEngineId := Bytes 4

def auraEngineId : ConsensusEngineId := ⟨[0x61, 0x75, 0x72, 0x61], rfl⟩

def babeEngineId : ConsensusEngineId := ⟨[0x42, 0x41, 0x42, 0x45], rfl⟩

inductive DigestItem
  | preRuntime (engineId : ConsensusEngineId) (data : List UInt8)
  | consensus (engineId : ConsensusEngineId) (data : List UInt8)
  | seal (engineId : ConsensusEngineId) (data : List UInt8)
  | other (data : List UInt8)
  | runtimeEnvironmentUpdated
deriving DecidableEq

/-- A BABE pre-digest. -/
inductive PreDigest (VrfSignature : Type)
  | primary (authorityIndex : UInt32) (slot : UInt64) (vrfSignature : VrfSignature)
  | secondaryPlain (authorityIndex : UInt32) (slot : UInt64)
  | secondaryVrf (authorityIndex : UInt32) (slot : UInt64) (vrfSignature : VrfSignature)

namespace PreDigest

variable {VrfSignature : Type}

def authorityIndex : PreDigest VrfSignature → UInt32
  | primary authorityIndex _ _ | secondaryPlain authorityIndex _ | secondaryVrf authorityIndex _ _ =>
    authorityIndex

/-- The number of the variant, then its fields. -/
def codec (vrf : Codec VrfSignature) : Codec (PreDigest VrfSignature) where
  encode
    | primary authorityIndex slot signature =>
      1 :: ((Codec.u32.pair Codec.u64).pair vrf).encode ((authorityIndex, slot), signature)
    | secondaryPlain authorityIndex slot => 2 :: (Codec.u32.pair Codec.u64).encode (authorityIndex, slot)
    | secondaryVrf authorityIndex slot signature =>
      3 :: ((Codec.u32.pair Codec.u64).pair vrf).encode ((authorityIndex, slot), signature)
  decode
    | 1 :: bytes => (((Codec.u32.pair Codec.u64).pair vrf).decode bytes).map
        fun (((authorityIndex, slot), signature), rest) => (primary authorityIndex slot signature, rest)
    | 2 :: bytes => ((Codec.u32.pair Codec.u64).decode bytes).map
        fun ((authorityIndex, slot), rest) => (secondaryPlain authorityIndex slot, rest)
    | 3 :: bytes => (((Codec.u32.pair Codec.u64).pair vrf).decode bytes).map
        fun (((authorityIndex, slot), signature), rest) => (secondaryVrf authorityIndex slot signature, rest)
    | _ => none
  decode_encode d rest := by cases d <;> simp

end PreDigest

namespace DigestItem

variable {α VrfSignature : Type}

def asPreRuntime : DigestItem → Option (ConsensusEngineId × List UInt8)
  | preRuntime engineId data => some (engineId, data)
  | _ => none

/-- The payload of a pre-runtime item of an engine, with no bytes left over. -/
def preRuntimeTryTo (c : Codec α) (id : ConsensusEngineId) : DigestItem → Option α
  | preRuntime engineId data => if engineId = id then c.decodeAll data else none
  | _ => none

def asAuraPreDigest : DigestItem → Option UInt64 := preRuntimeTryTo Codec.u64 auraEngineId

def asBabePreDigest (vrf : Codec VrfSignature) : DigestItem → Option (PreDigest VrfSignature) :=
  preRuntimeTryTo (PreDigest.codec vrf) babeEngineId

/-- Whether the item is a pre-runtime item of the engine, whatever its payload. -/
def isPreRuntimeFor (id : ConsensusEngineId) (log : DigestItem) : Bool :=
  match log.asPreRuntime with
  | some (engineId, _) => engineId == id
  | none => false

end DigestItem

/-! ## The pallet -/

inductive State
  | aura
  | armedBabe
  | scheduledFlip
  | babe
deriving DecidableEq

inductive ActiveEngine
  | aura
  | babe
deriving DecidableEq

namespace State

def activeEngine : State → ActiveEngine
  | aura | armedBabe | scheduledFlip => .aura
  | babe => .babe

def shouldEmitBabePreruntimeDigest : State → Bool
  | armedBabe | scheduledFlip => true
  | _ => false

end State

section

variable {VrfSignature : Type} (vrf : Codec VrfSignature)

def hasPreRuntimeFor (id : ConsensusEngineId) (logs : List DigestItem) : Bool :=
  logs.any (·.isPreRuntimeFor id)

def currentSlotFromAuraDigest (logs : List DigestItem) : Option UInt64 :=
  logs.findSome? DigestItem.asAuraPreDigest

/-- One round of the check's loop, with the loop's two variables; `none` is a return of `false`. The number
of authorities is the length of a vector in storage, which is written with 32 bits. -/
def transitionStep (authoritiesLen : UInt32) (auraSlot : Option UInt64) (babeOk : Bool)
    (log : DigestItem) : Option (Option UInt64 × Bool) :=
  match log.asPreRuntime with
  | none => some (auraSlot, babeOk)
  | some (engineId, _) =>
    if engineId = auraEngineId then do
      let slot ← log.asAuraPreDigest
      if auraSlot.isSome then none
      else some (some slot, babeOk)
    else if engineId = babeEngineId then
      if babeOk then none
      else do
        let babe ← log.asBabePreDigest vrf
        let slot ← auraSlot
        match babe with
        | .secondaryPlain authorityIndex babeSlot =>
          if babeSlot ≠ slot then none
          else if authoritiesLen = 0 then none
          else if authorityIndex ≠ (slot % authoritiesLen.toUInt64).toUInt32 then none
          else some (auraSlot, true)
        | _ => none
    else some (auraSlot, babeOk)

def transitionScan (authoritiesLen : UInt32) : Option UInt64 → Bool → List DigestItem → Bool
  | _, babeOk, [] => babeOk
  | auraSlot, babeOk, log :: logs =>
    match transitionStep vrf authoritiesLen auraSlot babeOk log with
    | some (auraSlot, babeOk) => transitionScan authoritiesLen auraSlot babeOk logs
    | none => false

def hasAuraPreDigestBeforeBabePreDigest (authoritiesLen : UInt32) (logs : List DigestItem) : Bool :=
  transitionScan vrf authoritiesLen none false logs

structure Context where
  /-- The number of AURA authorities. -/
  authoritiesLen : UInt32
  /-- Whether there are no BABE authorities. -/
  babeAuthoritiesEmpty : Bool
  epochDuration : UInt64

def Context.isLastSlotOfEpoch (ctx : Context) (slot : UInt64) : Bool :=
  (slot + 1) % max ctx.epochDuration 1 == 0

/-- The migration ends in a panic, which takes back what it has written. -/
def migrateToBabe : Except String State :=
  .error "Issue #1742 adds BABE keys to the runtime"

/-- A failed assertion rejects the block. -/
def onInitialize (ctx : Context) (logs : List DigestItem) : State → Except String State
  | .aura =>
    if hasPreRuntimeFor babeEngineId logs then
      .error "BABE pre-runtime digest present in state 'Aura'"
    else .ok .aura
  | .armedBabe =>
    if hasAuraPreDigestBeforeBabePreDigest vrf ctx.authoritiesLen logs then .ok .armedBabe
    else .error "BABE pre-runtime digest required in state 'ArmedBabe'"
  | .scheduledFlip =>
    if hasAuraPreDigestBeforeBabePreDigest vrf ctx.authoritiesLen logs then
      match currentSlotFromAuraDigest logs with
      | some slot =>
        if ctx.isLastSlotOfEpoch slot then
          if ctx.babeAuthoritiesEmpty then .ok .scheduledFlip else migrateToBabe
        else .ok .scheduledFlip
      | none => .ok .scheduledFlip
    else .error "BABE pre-runtime digest required in state 'ScheduledFlip'"
  | .babe =>
    if hasPreRuntimeFor auraEngineId logs then
      .error "AURA pre-runtime digest present in state 'Babe'"
    else .ok .babe

end

inductive CallError
  | badOrigin
  | invalidEngineState
deriving DecidableEq

def armBabe (governance : Bool) (state : State) : Except CallError State :=
  if !governance then .error .badOrigin
  else if state ≠ .aura then .error .invalidEngineState
  else .ok .armedBabe

def scheduleFlip (governance : Bool) (state : State) : Except CallError State :=
  if !governance then .error .badOrigin
  else if state ≠ .armedBabe then .error .invalidEngineState
  else .ok .scheduledFlip

/-! ## Authors -/

/-- The author of a slot. A remainder by zero is a panic. -/
def authorIndex (slot : UInt64) (authoritiesLen : UInt32) : Except String UInt32 :=
  if authoritiesLen = 0 then .error "attempt to calculate the remainder with a divisor of zero"
  else .ok (slot % authoritiesLen.toUInt64).toUInt32

/-- The `find_author` of pallet-aura and pallet-babe. The first item of the engine decides; bytes that are left
over do not matter to them. -/
structure EnginePallets {VrfSignature : Type} (vrf : Codec VrfSignature) (authoritiesLen : UInt32) where
  auraFindAuthor : List (ConsensusEngineId × List UInt8) → Option UInt32
  babeFindAuthor : List (ConsensusEngineId × List UInt8) → Option UInt32
  aura_eq : ∀ {digests data slot rest author},
    digests.find? (·.1 == auraEngineId) = some (auraEngineId, data) →
    Codec.u64.decode data = some (slot, rest) → authorIndex slot authoritiesLen = .ok author →
      auraFindAuthor digests = some author
  babe_eq : ∀ {digests data preDigest rest},
    digests.find? (·.1 == babeEngineId) = some (babeEngineId, data) →
    (PreDigest.codec vrf).decode data = some (preDigest, rest) →
      babeFindAuthor digests = some preDigest.authorityIndex

def findAuthor {VrfSignature : Type} {vrf : Codec VrfSignature} {authoritiesLen : UInt32}
    (pallets : EnginePallets vrf authoritiesLen) (digests : List (ConsensusEngineId × List UInt8))
    (state : State) : Option UInt32 :=
  match state.activeEngine with
  | .aura => pallets.auraFindAuthor digests
  | .babe => pallets.babeFindAuthor digests

/-! ## What the scan accepts -/

theorem babeEngineId_ne : babeEngineId ≠ auraEngineId := by decide

namespace DigestItem

variable {α : Type} {log : DigestItem} {id : ConsensusEngineId}

@[simp]
theorem isPreRuntimeFor_preRuntime :
    (preRuntime engineId data).isPreRuntimeFor id = true ↔ engineId = id := beq_iff_eq

theorem of_tryTo {c : Codec α} {a : α} (h : log.preRuntimeTryTo c id = some a) :
    ∃ data, log = preRuntime id data ∧ c.decode data = some (a, []) := by
  unfold preRuntimeTryTo at h
  split at h
  next engineId data =>
    split at h
    next hid => exact ⟨data, hid ▸ rfl, Codec.decodeAll_eq_some.mp h⟩
    next => cases h
  next => cases h

theorem isPreRuntimeFor_of_tryTo {c : Codec α} {a : α} (h : log.preRuntimeTryTo c id = some a) :
    log.isPreRuntimeFor id = true := by
  obtain ⟨data, rfl, -⟩ := of_tryTo h
  exact isPreRuntimeFor_preRuntime.mpr rfl

/-- An item that is no pre-runtime item of one of the two engines. -/
structure Foreign (log : DigestItem) : Prop where
  aura : log.isPreRuntimeFor auraEngineId = false
  babe : log.isPreRuntimeFor babeEngineId = false

theorem engine_cases (log : DigestItem) :
    log.Foreign ∨ (∃ data, log = preRuntime auraEngineId data) ∨
      ∃ data, log = preRuntime babeEngineId data := by
  cases log with
  | preRuntime engineId data =>
    rcases eq_or_ne engineId auraEngineId with rfl | haura
    · exact .inr (.inl ⟨data, rfl⟩)
    rcases eq_or_ne engineId babeEngineId with rfl | hbabe
    · exact .inr (.inr ⟨data, rfl⟩)
    exact .inl ⟨beq_eq_false_iff_ne.mpr haura, beq_eq_false_iff_ne.mpr hbabe⟩
  | _ => exact .inl ⟨rfl, rfl⟩

end DigestItem

section

variable {VrfSignature : Type} {vrf : Codec VrfSignature} {n : UInt32} {auraSlot : Option UInt64}
  {slot : UInt64} {babeOk : Bool} {log : DigestItem} {logs : List DigestItem}

open DigestItem

/-- The remainder fits into 32 bits, like the number of authorities. -/
theorem authorityIndex_eq_iff (hn : n ≠ 0) :
    authorityIndex = (slot % n.toUInt64).toUInt32 ↔ authorityIndex.toNat = slot.toNat % n.toNat := by
  have hpos : 0 < n.toNat := Nat.pos_of_ne_zero fun h => hn (UInt32.toNat_inj.mp h)
  have hlt : slot.toNat % n.toNat < 2 ^ 32 := (Nat.mod_lt _ hpos).trans n.toNat_lt
  have hmod : ((slot % n.toUInt64).toUInt32).toNat = slot.toNat % n.toNat := by
    simpa using hlt
  rw [← UInt32.toNat_inj, hmod]

/-- The item is a secondary plain pre-digest for the slot and for the author that AURA has there. -/
structure BabeItem (vrf : Codec VrfSignature) (n : UInt32) (slot : UInt64) (log : DigestItem) : Prop where
  pos : n ≠ 0
  decodes : ∃ authorityIndex : UInt32, authorityIndex.toNat = slot.toNat % n.toNat ∧
    log.asBabePreDigest vrf = some (.secondaryPlain authorityIndex slot)

theorem BabeItem.isPreRuntimeFor (h : BabeItem vrf n slot log) :
    log.isPreRuntimeFor babeEngineId = true := by
  obtain ⟨_, _, hlog⟩ := h.decodes
  exact isPreRuntimeFor_of_tryTo hlog

theorem transitionStep_foreign (h : log.Foreign) :
    transitionStep vrf n auraSlot babeOk log = some (auraSlot, babeOk) := by
  obtain ⟨haura, hbabe⟩ := h
  cases log with
  | preRuntime engineId data =>
    simp only [transitionStep, asPreRuntime, if_neg (beq_eq_false_iff_ne.mp haura),
      if_neg (beq_eq_false_iff_ne.mp hbabe)]
  | _ => rfl

theorem transitionStep_aura :
    transitionStep vrf n auraSlot babeOk (preRuntime auraEngineId data) = some next ↔
      auraSlot = none ∧ ∃ slot, (preRuntime auraEngineId data).asAuraPreDigest = some slot ∧
        (some slot, babeOk) = next := by
  cases auraSlot <;> simp [transitionStep, asPreRuntime, Option.bind_eq_some_iff]

theorem babeItem_iff : BabeItem vrf n slot log ↔
    ∃ authorityIndex, log.asBabePreDigest vrf = some (.secondaryPlain authorityIndex slot) ∧ n ≠ 0 ∧
      authorityIndex = (slot % n.toUInt64).toUInt32 := by
  constructor
  · rintro ⟨hn, authorityIndex, hindex, hlog⟩
    exact ⟨authorityIndex, hlog, hn, (authorityIndex_eq_iff hn).mpr hindex⟩
  · rintro ⟨authorityIndex, hlog, hn, hindex⟩
    exact ⟨hn, authorityIndex, (authorityIndex_eq_iff hn).mp hindex, hlog⟩

theorem transitionStep_babe :
    transitionStep vrf n auraSlot babeOk (preRuntime babeEngineId data) = some next ↔
      babeOk = false ∧ ∃ slot, auraSlot = some slot ∧
        BabeItem vrf n slot (preRuntime babeEngineId data) ∧ (some slot, true) = next := by
  simp only [babeItem_iff, transitionStep, asPreRuntime, if_neg babeEngineId_ne, if_true]
  cases babeOk with
  | true => simp
  | false =>
    cases auraSlot with
    | none => simp
    | some slot =>
      rcases (preRuntime babeEngineId data).asBabePreDigest vrf with _ | babe
      · simp
      · cases babe <;> simp [and_comm, and_left_comm]

theorem transitionScan_cons : transitionScan vrf n auraSlot babeOk (log :: logs) = true ↔
    ∃ next, transitionStep vrf n auraSlot babeOk log = some next ∧
      transitionScan vrf n next.1 next.2 logs = true := by
  rw [transitionScan]
  rcases transitionStep vrf n auraSlot babeOk log with _ | next <;> simp

/-- Behind both items the scan accepts what has no third. -/
theorem transitionScan_both : transitionScan vrf n (some slot) true logs = true ↔
    logs.countP (·.isPreRuntimeFor auraEngineId) = 0 ∧
      logs.countP (·.isPreRuntimeFor babeEngineId) = 0 := by
  induction logs with
  | nil => simp [transitionScan]
  | cons log logs ih =>
    rw [transitionScan_cons]
    rcases engine_cases log with hforeign | ⟨data, rfl⟩ | ⟨data, rfl⟩
    · simp [transitionStep_foreign hforeign, ih, hforeign.aura, hforeign.babe]
    · simp [transitionStep_aura]
    · simp [transitionStep_babe]

/-- Behind the AURA item the scan accepts what has one BABE item, for the same slot. -/
theorem transitionScan_aura : transitionScan vrf n (some slot) false logs = true ↔
    logs.countP (·.isPreRuntimeFor auraEngineId) = 0 ∧
      logs.countP (·.isPreRuntimeFor babeEngineId) = 1 ∧ ∃ babe ∈ logs, BabeItem vrf n slot babe := by
  induction logs with
  | nil => simp [transitionScan]
  | cons log logs ih =>
    rw [transitionScan_cons]
    rcases engine_cases log with hforeign | ⟨data, rfl⟩ | ⟨data, rfl⟩
    · have hlog : ¬ BabeItem vrf n slot log := fun h => nomatch hforeign.babe.symm.trans h.isPreRuntimeFor
      simp [transitionStep_foreign hforeign, ih, hforeign.aura, hforeign.babe, hlog]
    · simp [transitionStep_aura]
    · simp only [transitionStep_babe, List.countP_cons, isPreRuntimeFor_preRuntime, babeEngineId_ne, if_false,
        if_true, Nat.add_zero, Nat.add_eq_right, List.exists_mem_cons_iff]
      constructor
      · rintro ⟨_, ⟨-, _, ⟨⟩, hitem, rfl⟩, hscan⟩
        obtain ⟨haura, hbabe⟩ := transitionScan_both.mp hscan
        exact ⟨haura, hbabe, .inl hitem⟩
      · rintro ⟨haura, hbabe, hitem⟩
        -- a BABE item further down would be a second one
        have hitem := hitem.resolve_right fun ⟨babe, hmem, h⟩ =>
          List.countP_eq_zero.mp hbabe babe hmem h.isPreRuntimeFor
        exact ⟨_, ⟨trivial, slot, rfl, hitem, rfl⟩, transitionScan_both.mpr ⟨haura, hbabe⟩⟩

/-- The logs have one AURA and one BABE pre-runtime item. Both decode, the BABE item comes second, and it is
for the slot of the AURA item and the author that AURA has there. -/
structure BridgingDigest (vrf : Codec VrfSignature) (n : UInt32) (logs : List DigestItem) : Prop where
  auraUnique : logs.countP (·.isPreRuntimeFor auraEngineId) = 1
  babeUnique : logs.countP (·.isPreRuntimeFor babeEngineId) = 1
  items : ∃ aura babe slot, [aura, babe].Sublist logs ∧ aura.asAuraPreDigest = some slot ∧
    BabeItem vrf n slot babe

namespace BridgingDigest

/-- The two items are the first one and one further down, or both are further down. -/
theorem items_cons : (∃ aura babe slot, [aura, babe].Sublist (log :: logs) ∧
      aura.asAuraPreDigest = some slot ∧ BabeItem vrf n slot babe) ↔
    (∃ aura babe slot, [aura, babe].Sublist logs ∧ aura.asAuraPreDigest = some slot ∧
      BabeItem vrf n slot babe) ∨
    ∃ slot, log.asAuraPreDigest = some slot ∧ ∃ babe ∈ logs, BabeItem vrf n slot babe := by
  constructor
  · rintro ⟨aura, babe, slot, hsub, haura, hbabe⟩
    rcases List.sublist_cons_iff.mp hsub with hsub | ⟨_, ⟨⟩, hsub⟩
    · exact .inl ⟨aura, babe, slot, hsub, haura, hbabe⟩
    · exact .inr ⟨slot, haura, babe, List.singleton_sublist.mp hsub, hbabe⟩
  · rintro (⟨aura, babe, slot, hsub, haura, hbabe⟩ | ⟨slot, haura, babe, hmem, hbabe⟩)
    · exact ⟨aura, babe, slot, hsub.cons log, haura, hbabe⟩
    · exact ⟨log, babe, slot, (List.singleton_sublist.mpr hmem).cons_cons log, haura, hbabe⟩

theorem foreign_cons (h : log.Foreign) :
    BridgingDigest vrf n (log :: logs) ↔ BridgingDigest vrf n logs := by
  have hlog (slot : UInt64) : log.asAuraPreDigest ≠ some slot :=
    fun hslot => nomatch h.aura.symm.trans (isPreRuntimeFor_of_tryTo hslot)
  constructor
  · rintro ⟨haura, hbabe, hitems⟩
    simp only [List.countP_cons, h.aura, h.babe, Bool.false_eq_true, if_false, Nat.add_zero] at haura hbabe
    exact ⟨haura, hbabe, (items_cons.mp hitems).resolve_right fun ⟨slot, hslot, _⟩ => hlog slot hslot⟩
  · rintro ⟨haura, hbabe, hitems⟩
    refine ⟨?_, ?_, items_cons.mpr (.inl hitems)⟩
    · rw [List.countP_cons, h.aura, haura]; rfl
    · rw [List.countP_cons, h.babe, hbabe]; rfl

theorem aura_cons : BridgingDigest vrf n (preRuntime auraEngineId data :: logs) ↔
    ∃ slot, (preRuntime auraEngineId data).asAuraPreDigest = some slot ∧
      logs.countP (·.isPreRuntimeFor auraEngineId) = 0 ∧
      logs.countP (·.isPreRuntimeFor babeEngineId) = 1 ∧ ∃ babe ∈ logs, BabeItem vrf n slot babe := by
  constructor
  · rintro ⟨haura, hbabe, hitems⟩
    simp only [List.countP_cons, isPreRuntimeFor_preRuntime, babeEngineId_ne.symm, if_true, if_false,
      Nat.add_zero, Nat.add_eq_right] at haura hbabe
    rcases items_cons.mp hitems with ⟨aura, _, _, hsub, hslot, _⟩ | ⟨slot, hslot, hitem⟩
    · -- an AURA item further down would be a second one
      have hmem : aura ∈ logs := hsub.subset List.mem_cons_self
      exact (List.countP_eq_zero.mp haura aura hmem (isPreRuntimeFor_of_tryTo hslot)).elim
    · exact ⟨slot, hslot, haura, hbabe, hitem⟩
  · rintro ⟨slot, hslot, haura, hbabe, hitem⟩
    refine ⟨?_, ?_, items_cons.mpr (.inr ⟨slot, hslot, hitem⟩)⟩
    · simpa using haura
    · simpa [babeEngineId_ne.symm] using hbabe

theorem not_babe_cons : ¬ BridgingDigest vrf n (preRuntime babeEngineId data :: logs) := by
  rintro ⟨-, hbabe, aura, babe, slot, hsub, hslot, hitem⟩
  simp only [List.countP_cons, isPreRuntimeFor_preRuntime, if_true, Nat.add_eq_right] at hbabe
  have hmem : babe ∈ logs := by
    rcases List.sublist_cons_iff.mp hsub with hsub | ⟨_, ⟨⟩, hsub⟩
    · exact hsub.subset (by simp)
    · exact List.singleton_sublist.mp hsub
  exact List.countP_eq_zero.mp hbabe babe hmem hitem.isPreRuntimeFor

end BridgingDigest

theorem transitionScan_iff : transitionScan vrf n none false logs = true ↔ BridgingDigest vrf n logs := by
  induction logs with
  | nil => exact iff_of_false nofun fun h => nomatch h.auraUnique
  | cons log logs ih =>
    rw [transitionScan_cons]
    rcases engine_cases log with hforeign | ⟨data, rfl⟩ | ⟨data, rfl⟩
    · rw [BridgingDigest.foreign_cons hforeign, ← ih]
      simp [transitionStep_foreign hforeign]
    · rw [BridgingDigest.aura_cons]
      simp [transitionStep_aura, transitionScan_aura]
    · refine iff_of_false ?_ BridgingDigest.not_babe_cons
      simp [transitionStep_babe]

/-! ## One author -/

/-- The items that `find_author` looks at. -/
def preRuntimeDigests (logs : List DigestItem) : List (ConsensusEngineId × List UInt8) :=
  logs.filterMap DigestItem.asPreRuntime

theorem find?_preRuntimeDigests {id : ConsensusEngineId}
    (hunique : logs.countP (·.isPreRuntimeFor id) = 1) (hmem : preRuntime id data ∈ logs) :
    (preRuntimeDigests logs).find? (·.1 == id) = some (id, data) := by
  induction logs with
  | nil => cases hmem
  | cons log logs ih =>
    rcases List.mem_cons.mp hmem with rfl | hmem
    · simp [preRuntimeDigests, asPreRuntime]
    have hpos : 0 < logs.countP (·.isPreRuntimeFor id) :=
      List.countP_pos_iff.mpr ⟨_, hmem, isPreRuntimeFor_preRuntime.mpr rfl⟩
    have hlog : log.isPreRuntimeFor id = false := by
      rw [List.countP_cons] at hunique
      exact Bool.eq_false_iff.mpr fun h => by simp only [h, if_true] at hunique; omega
    have hrest := ih (by simpa [List.countP_cons, hlog] using hunique) hmem
    cases log with
    | preRuntime engineId data' =>
      have hne : (engineId == id) = false := hlog
      simpa [preRuntimeDigests, asPreRuntime, List.find?_cons, hne] using hrest
    | _ => exact hrest

/-- The author is the same, whichever engine is active. -/
theorem BridgingDigest.findAuthor (h : BridgingDigest vrf n logs) (pallets : EnginePallets vrf n) :
    ∃ author, ∀ state, findAuthor pallets (preRuntimeDigests logs) state = some author := by
  obtain ⟨aura, babe, slot, hsub, haura, hbabe⟩ := h.items
  obtain ⟨auraData, rfl, hauraData⟩ := of_tryTo haura
  obtain ⟨author, hitem, hn, hauthor⟩ := babeItem_iff.mp hbabe
  obtain ⟨babeData, rfl, hbabeData⟩ := of_tryTo hitem
  have hfindAura := find?_preRuntimeDigests h.auraUnique (hsub.subset List.mem_cons_self)
  have hfindBabe := find?_preRuntimeDigests h.babeUnique
    (hsub.subset (List.mem_cons_of_mem _ List.mem_cons_self))
  have hindex : authorIndex slot n = .ok author := by rw [authorIndex, if_neg hn, hauthor]
  refine ⟨author, fun state => ?_⟩
  unfold Consensus.findAuthor
  split
  · exact pallets.aura_eq hfindAura hauraData hindex
  · exact pallets.babe_eq hfindBabe hbabeData

/-! ## Runs -/

theorem hasAuraPreDigestBeforeBabePreDigest_iff :
    hasAuraPreDigestBeforeBabePreDigest vrf n logs = true ↔ BridgingDigest vrf n logs :=
  transitionScan_iff

variable {ctx : Context} {s s' : State}

/-- A block that is not rejected leaves the state as it is; from arming on it has a bridging digest. -/
theorem of_onInitialize (h : onInitialize vrf ctx logs s = .ok s') :
    s' = s ∧ (s.shouldEmitBabePreruntimeDigest = true → BridgingDigest vrf ctx.authoritiesLen logs) := by
  cases s with
  | aura | babe =>
    obtain ⟨-, h⟩ := of_check h
    cases h
    exact ⟨rfl, nofun⟩
  | armedBabe =>
    obtain ⟨hdigest, h⟩ := of_condition h
    cases h
    exact ⟨rfl, fun _ => hasAuraPreDigestBeforeBabePreDigest_iff.mp hdigest⟩
  | scheduledFlip =>
    obtain ⟨hdigest, h⟩ := of_condition h
    refine ⟨?_, fun _ => hasAuraPreDigestBeforeBabePreDigest_iff.mp hdigest⟩
    split at h
    case h_1 slot _ =>
      split at h
      · exact (Except.ok.inj (of_condition h).2).symm
      · exact (Except.ok.inj h).symm
    case h_2 => exact (Except.ok.inj h).symm

end

/-- The states of a chain that started on AURA: blocks with any logs, and calls of anyone. -/
inductive Reachable {VrfSignature : Type} (vrf : Codec VrfSignature) : State → Prop
  | genesis : Reachable vrf .aura
  | block {ctx : Context} {logs : List DigestItem} {s s' : State} :
    Reachable vrf s → onInitialize vrf ctx logs s = .ok s' → Reachable vrf s'
  | armBabe {governance : Bool} {s s' : State} :
    Reachable vrf s → armBabe governance s = .ok s' → Reachable vrf s'
  | scheduleFlip {governance : Bool} {s s' : State} :
    Reachable vrf s → scheduleFlip governance s = .ok s' → Reachable vrf s'

/-- As long as the migration panics, the chain stays on AURA. -/
theorem Reachable.ne_babe {VrfSignature : Type} {vrf : Codec VrfSignature} {s : State}
    (h : Reachable vrf s) : s ≠ .babe := by
  induction h with
  | genesis => nofun
  | block _ hok ih =>
    rw [(of_onInitialize hok).1]
    exact ih
  | armBabe _ hok _ | scheduleFlip _ hok _ =>
    obtain ⟨-, hok⟩ := of_check hok
    obtain ⟨-, hok⟩ := of_check hok
    cases hok
    nofun

end MidnightNode.Consensus
