import MidnightNode.MainChain.BlockSource

/-!
# Main-chain references of partner-chain blocks

`McHashInherentDataProvider` of `sidechain-mc-hash`: a block author references the latest stable Cardano
block (`newProposal`), an importing node checks the reference (`newVerification`). The author stays
behind its tip by the security parameter and a margin, and it repeats the parent's reference when its own
selection is older.

The selection of an author whose tip is lower than that offset is the first Cardano block, however few
confirmations it has.
-/

namespace MidnightNode.MainChain
open Fallible

def slotTimestamp (slot slotDuration : Nat) : Option Nat :=
  if slot * slotDuration ≤ u64Max then some (slot * slotDuration) else none

/-! ## The digest of a block -/

inductive DigestItem
  | preRuntime (id data : List UInt8)
  | other
deriving DecidableEq

/-- The bytes of `mcsh`. -/
def mcHashDigestId : List UInt8 := [109, 99, 115, 104]

inductive DigestError
  | multiple
  | invalid (data : List UInt8)
  | missing
deriving DecidableEq

def McBlockHash.ofBytes (data : List UInt8) : Option McBlockHash :=
  if h : data.length = 32 then some ⟨data, h⟩ else none

namespace McHashInherentDigest

def valueFromDigestLoop (found : Option McBlockHash) :
    List DigestItem → Except DigestError McBlockHash
  | [] => okOr .missing found
  | .other :: digest => valueFromDigestLoop found digest
  | .preRuntime id data :: digest =>
    if id = mcHashDigestId then
      if found.isSome then .error .multiple
      else
        match McBlockHash.ofBytes data with
        | none => .error (.invalid data)
        | some hash => valueFromDigestLoop (some hash) digest
    else valueFromDigestLoop found digest

def valueFromDigest (digest : List DigestItem) : Except DigestError McBlockHash :=
  valueFromDigestLoop none digest

end McHashInherentDigest

open McHashInherentDigest

/-! ## Proposal and verification -/

structure McHashInherentDataProvider where
  mcBlock : MainchainBlock
  previousMcBlock : Option MainchainBlock
deriving DecidableEq

def McHashInherentDataProvider.mcHash (p : McHashInherentDataProvider) : McBlockHash := p.mcBlock.hash

/-- `McHashInherentError`; the last one is the failed `expect`. -/
inductive McHashInherentError
  | dataSourceError (e : DataSourceError)
  | stableBlockNotFound (timestamp : Nat)
  | slotTooBig
  | mcStateReferenceInvalid (hash : McBlockHash) (slot timestamp : Nat)
  | mcStateReferenceRegressed (hash : McBlockHash) (slot number parentNumber : Nat)
  | digestError (e : DigestError)
  | stableBlockNotFoundByHash (hash : McBlockHash)
  | awaitingCardanoData (hash : McBlockHash)
  | parentNotFound
deriving DecidableEq

def newProposal (parentLogs : List DigestItem) (ds : DataSource) (slot slotDuration : Nat) :
    Except McHashInherentError McHashInherentDataProvider := do
  let slotStartTimestamp ← okOr .slotTooBig (slotTimestamp slot slotDuration)
  let found ← (ds.getLatestStableBlockFor slotStartTimestamp).mapError .dataSourceError
  let mcBlock ← okOr (.stableBlockNotFound slotStartTimestamp) found
  match valueFromDigest parentLogs with
  | .ok parentMcHash => do
    let parentStableMcBlock ← okOr (.stableBlockNotFoundByHash parentMcHash)
      (ds.getBlockByHash parentMcHash)
    if mcBlock.number ≥ parentStableMcBlock.number then .ok ⟨mcBlock, some parentStableMcBlock⟩
    else .ok ⟨parentStableMcBlock, some parentStableMcBlock⟩
  | .error _ => .ok ⟨mcBlock, none⟩

inductive BlockHashClassification
  | stable (info : MainchainBlock)
  | awaitingCardano
  | invalid

def classifyBlockHash (mcHash : McBlockHash) (timestamp : Nat) (ds : DataSource) :
    Except McHashInherentError BlockHashClassification × DataSource :=
  match ds.getStableBlockFor mcHash timestamp with
  | (.error e, ds) => (.error (.dataSourceError e), ds)
  | (.ok (.blockStable info), ds) => (.ok (.stable info), ds)
  | (.ok (.blockTimestampOutRange _), ds) => (.ok .invalid, ds)
  | (.ok (.notEnoughConfirmations _), ds) =>
    (do
      let fresh ← ds.isCardanoTipFresh.mapError .dataSourceError
      .ok (if fresh then .invalid else .awaitingCardano), ds)
  | (.ok .blockNotFound, ds) =>
    (do
      let ok ← ds.isCardanoOk.mapError .dataSourceError
      .ok (if ok then .invalid else .awaitingCardano), ds)

/-- The part of `new_verification` after the classification. -/
def checkParent (parentLogs : List DigestItem) (parentSlot : Option Nat)
    (verifiedBlockSlot timestamp : Nat) (hash : McBlockHash) (ds : DataSource) :
    BlockHashClassification → Except McHashInherentError McHashInherentDataProvider
  | .awaitingCardano => .error (.awaitingCardanoData hash)
  | .invalid => .error (.mcStateReferenceInvalid hash verifiedBlockSlot timestamp)
  | .stable info =>
    if parentSlot.isNone then .ok ⟨info, none⟩
    else do
      let parentMcHash ← (valueFromDigest parentLogs).mapError .digestError
      let parentBlock ← okOr .parentNotFound (ds.getBlockByHash parentMcHash)
      if info.number < parentBlock.number then
        .error (.mcStateReferenceRegressed hash verifiedBlockSlot info.number parentBlock.number)
      else .ok ⟨info, some parentBlock⟩

/-- The result, and the source with the cache that the call leaves. -/
def newVerification (parentLogs : List DigestItem) (parentSlot : Option Nat) (verifiedBlockSlot : Nat)
    (mcStateReferenceHash : McBlockHash) (slotDuration : Nat) (ds : DataSource) :
    Except McHashInherentError McHashInherentDataProvider × DataSource :=
  match slotTimestamp verifiedBlockSlot slotDuration with
  | none => (.error .slotTooBig, ds)
  | some timestamp =>
    let (classification, ds) := classifyBlockHash mcStateReferenceHash timestamp ds
    (classification >>= checkParent parentLogs parentSlot verifiedBlockSlot timestamp
      mcStateReferenceHash ds, ds)

theorem slotTimestamp_some (h : slotTimestamp slot slotDuration = some ts) :
    ts = slot * slotDuration := by
  unfold slotTimestamp at h
  split at h
  case isTrue => exact (Option.some.inj h).symm
  case isFalse => cases h

/-! ## What a proposal and a verification say -/

structure InRange (ds : DataSource) (slot slotDuration : Nat) (b : Block) : Prop where
  mem : b ∈ ds.db
  timestamp : slotTimestamp slot slotDuration = some (slot * slotDuration)
  representable : timestampToDbType (slot * slotDuration) = .ok ((slot * slotDuration : Nat) : Int)
  timeValid : ds.config.isStableBlockTimeValid b ((slot * slotDuration : Nat) : Int) = true

/-- The three outcomes of a proposal: the selection without a parent reference, the selection, and the
parent's reference when the selection is older. -/
inductive Proposed (parentLogs : List DigestItem) (ds : DataSource) (b : Block) :
    McHashInherentDataProvider → Prop
  | first {e : DigestError} (hlogs : valueFromDigest parentLogs = .error e) :
    Proposed parentLogs ds b ⟨b.toMainchainBlock, none⟩
  | selected {hash : McBlockHash} {parentBlock : MainchainBlock}
    (hlogs : valueFromDigest parentLogs = .ok hash) (hparent : ds.getBlockByHash hash = some parentBlock)
    (hle : parentBlock.number ≤ b.blockNo) :
    Proposed parentLogs ds b ⟨b.toMainchainBlock, some parentBlock⟩
  | clamped {hash : McBlockHash} {parentBlock : MainchainBlock}
    (hlogs : valueFromDigest parentLogs = .ok hash) (hparent : ds.getBlockByHash hash = some parentBlock)
    (hlt : b.blockNo < parentBlock.number) : Proposed parentLogs ds b ⟨parentBlock, some parentBlock⟩

section

variable {ds : DataSource} {parentLogs : List DigestItem} {parentSlot : Option Nat}
  {slot slotDuration : Nat} {p : McHashInherentDataProvider} {hash : McBlockHash} {b : Block}

theorem newProposal_ok (h : newProposal parentLogs ds slot slotDuration = .ok p) :
    ∃ b, InRange ds slot slotDuration b ∧
      (b.blockNo + ds.config.securityParameter ≤ tipNumber ds.db ∨ b.blockNo = 0) ∧
      Proposed parentLogs ds b p := by
  obtain ⟨ts, hts, h1⟩ := of_bind h
  obtain ⟨found, hfound, h2⟩ := of_bind h1
  obtain ⟨info, hinfo, h3⟩ := of_bind h2
  have hts := of_okOr hts
  cases slotTimestamp_some hts
  have hfound := of_mapError hfound
  rw [of_okOr hinfo] at hfound
  obtain ⟨b, hb, rfl, hrep, htime, hdepth⟩ := DataSource.of_getLatestStableBlockFor hfound
  refine ⟨b, ⟨hb, hts, hrep, htime⟩, hdepth, ?_⟩
  split at h3
  case h_1 hash hlogs =>
    obtain ⟨parentBlock, hparent, h4⟩ := of_bind h3
    have hparent := of_okOr hparent
    split at h4
    case isTrue hle =>
      cases h4
      exact .selected hlogs hparent hle
    case isFalse hlt =>
      cases h4
      exact .clamped hlogs hparent (Nat.lt_of_not_le hlt)
  case h_2 e hlogs =>
    cases h3
    exact .first hlogs

theorem classifyBlockHash_stable (h : (classifyBlockHash hash ts ds).1 = .ok (.stable info)) :
    (ds.getStableBlockFor hash ts).1 = .ok (.blockStable info) := by
  unfold classifyBlockHash at h
  split at h
  case h_2 heq =>
    cases h
    rw [heq]
  case h_4 =>
    obtain ⟨fresh, -, hinfo⟩ := of_bind h
    cases fresh <;> cases hinfo
  case h_5 =>
    obtain ⟨ok, -, hinfo⟩ := of_bind h
    cases ok <;> cases hinfo
  all_goals cases h

theorem classifyBlockHash_of_blockStable (h : (ds.getStableBlockFor hash ts).1 = .ok (.blockStable info)) :
    classifyBlockHash hash ts ds = (.ok (.stable info), (ds.getStableBlockFor hash ts).2) := by
  unfold classifyBlockHash
  generalize ds.getStableBlockFor hash ts = answer at h
  obtain ⟨result, ds'⟩ := answer
  cases h
  rfl

theorem newVerification_ok (hvalid : ds.Valid)
    (h : (newVerification parentLogs parentSlot slot hash slotDuration ds).1 = .ok p) :
    ∃ b, InRange ds slot slotDuration b ∧ b.hash = hash ∧ p.mcBlock = b.toMainchainBlock ∧
      IsStable ds.config ds.db b := by
  unfold newVerification at h
  split at h
  case h_1 => cases h
  case h_2 ts hts =>
    cases slotTimestamp_some hts
    obtain ⟨classification, hclass, h1⟩ := of_bind h
    cases classification with
    | awaitingCardano => cases h1
    | invalid => cases h1
    | stable info =>
      obtain ⟨b, hb, hhash, rfl, hrep, htime, hstable⟩ :=
        hvalid.of_blockStable (classifyBlockHash_stable hclass)
      refine ⟨b, ⟨hb, hts, hrep, htime⟩, hhash, ?_, hstable⟩
      rw [checkParent] at h1
      split at h1
      case isTrue =>
        cases h1
        rfl
      case isFalse =>
        obtain ⟨parentHash, -, h2⟩ := of_bind h1
        obtain ⟨parentBlock, -, h3⟩ := of_bind h2
        obtain ⟨-, h4⟩ := of_check h3
        cases h4
        rfl

/-- A stable block in the range of the slot passes up to the check against the parent. -/
theorem newVerification_eq (hvalid : ds.Valid) (hb : InRange ds slot slotDuration b)
    (hstable : IsStable ds.config ds.db b) :
    ∃ ds', ds'.Valid ∧ ds'.db = ds.db ∧
      (newVerification parentLogs parentSlot slot b.hash slotDuration ds).1 =
        checkParent parentLogs parentSlot slot (slot * slotDuration) b.hash ds'
          (.stable b.toMainchainBlock) := by
  have hfound := hvalid.getStableBlockFor_of_mem hb.representable hb.mem hb.timeValid hstable
  obtain ⟨cache, hcache, hvalid'⟩ := hvalid.getStableBlockFor b.hash (slot * slotDuration)
  refine ⟨_, hvalid', rfl, ?_⟩
  simp only [newVerification, hb.timestamp, classifyBlockHash_of_blockStable hfound, hcache]
  rfl

end

/-! ## An author and an importing node -/

structure SameNetwork (a b : Config) : Prop where
  securityParameter : a.securityParameter = b.securityParameter
  minSlotBoundary : a.minSlotBoundary = b.minSlotBoundary
  maxSlotBoundary : a.maxSlotBoundary = b.maxSlotBoundary

structure Parent where
  slot : Option Nat
  logs : List DigestItem

/-- The parent is genesis, which has no reference, or its reference was accepted at an earlier view. -/
inductive ParentAccepted (slotDuration : Nat) (verifier : DataSource) (parent : Parent) : Prop
  | genesis {e : DigestError} (hslot : parent.slot = none)
    (hlogs : valueFromDigest parent.logs = .error e)
  | accepted {grandparent : Parent} {slot : Nat} {hash : McBlockHash} {earlier : DataSource}
    {p : McHashInherentDataProvider} (hreach : earlier.Reachable)
    (hnetwork : SameNetwork earlier.config verifier.config) (hsub : earlier.db ⊆ verifier.db)
    (hslot : parent.slot = some slot) (hlogs : valueFromDigest parent.logs = .ok hash)
    (hok : (newVerification grandparent.logs grandparent.slot slot hash slotDuration earlier).1 = .ok p)

/-- A block proposed by a node whose view the verifier extends, in a slot that is not before the
parent's. -/
structure HonestProposal (slotDuration : Nat) (proposer verifier : DataSource) (parent : Parent)
    (slot : Nat) (p : McHashInherentDataProvider) : Prop where
  proposer_reachable : proposer.Reachable
  verifier_reachable : verifier.Reachable
  network : SameNetwork proposer.config verifier.config
  extended : proposer.db ⊆ verifier.db
  slot_le : ∀ parentSlot, parent.slot = some parentSlot → parentSlot ≤ slot
  proposed : newProposal parent.logs proposer slot slotDuration = .ok p

section

variable {proposer verifier ds : DataSource} {parent : Parent} {slot slotDuration : Nat}
  {p : McHashInherentDataProvider} {b c : Block}

theorem InRange.extend (h : InRange ds slot slotDuration b)
    (hnetwork : SameNetwork ds.config verifier.config) (hsub : ds.db ⊆ verifier.db) :
    InRange verifier slot slotDuration b := by
  refine ⟨hsub h.mem, h.timestamp, h.representable, ?_⟩
  have htime := h.timeValid
  rwa [Config.isStableBlockTimeValid, Config.minBlockAllowedTime, Config.maxAllowedBlockTime,
    hnetwork.minSlotBoundary, hnetwork.maxSlotBoundary] at htime

theorem IsStable.extend (h : IsStable ds.config ds.db b)
    (hnetwork : SameNetwork ds.config verifier.config) (hsub : ds.db ⊆ verifier.db) :
    IsStable verifier.config verifier.db b := by
  rw [IsStable, hnetwork.securityParameter] at h
  exact h.trans (tipNumber_mono hsub)

theorem IsStable.securityParameter_le (h : IsStable ds.config ds.db b) :
    ds.config.securityParameter ≤ tipNumber ds.db := by
  have hle := ds.config.offset_le
  rw [IsStable, saturatingAdd] at h
  omega

theorem isStable_of_depth
    (h : b.blockNo + ds.config.securityParameter ≤ tipNumber ds.db ∨ b.blockNo = 0)
    (htip : ds.config.securityParameter ≤ tipNumber ds.db) : IsStable ds.config ds.db b := by
  rw [IsStable, saturatingAdd]
  omega

/-- What an accepted parent is to the verifier: a stable block of its view in the range of the
parent's slot. -/
inductive ParentKnown (slotDuration : Nat) (verifier : DataSource) (parent : Parent) : Prop
  | genesis {e : DigestError} (hslot : parent.slot = none)
    (hlogs : valueFromDigest parent.logs = .error e)
  | block {slot : Nat} {c : Block} (hslot : parent.slot = some slot)
    (hlogs : valueFromDigest parent.logs = .ok c.hash) (hrange : InRange verifier slot slotDuration c)
    (hstable : IsStable verifier.config verifier.db c)

theorem ParentAccepted.known (h : ParentAccepted slotDuration verifier parent) :
    ParentKnown slotDuration verifier parent := by
  cases h with
  | genesis hslot hlogs => exact .genesis hslot hlogs
  | accepted hreach hnetwork hsub hslot hlogs hok =>
    obtain ⟨c, hrange, rfl, -, hstable⟩ := newVerification_ok hreach.valid hok
    exact .block hslot hlogs (hrange.extend hnetwork hsub) (hstable.extend hnetwork hsub)

/-- A parent's reference that is above a block in the range of a later slot is in that range too: it is
not older than the block, and it was old enough for the parent. -/
theorem InRange.of_parent (hwf : ChainWF verifier.db) (hb : InRange verifier slot slotDuration b)
    (hc : InRange verifier parentSlot slotDuration c) (hslot : parentSlot ≤ slot)
    (hlt : b.blockNo < c.blockNo) : InRange verifier slot slotDuration c := by
  refine ⟨hc.mem, hb.timestamp, hb.representable, ?_⟩
  have hmono := hwf.time_mono b hb.mem c hc.mem hlt
  have hts : parentSlot * slotDuration ≤ slot * slotDuration := Nat.mul_le_mul_right _ hslot
  have hbtime := of_decide_eq_true hb.timeValid
  have hctime := of_decide_eq_true hc.timeValid
  refine decide_eq_true ⟨hbtime.1.trans (by exact_mod_cast hmono), hctime.2.trans ?_⟩
  simp only [Config.maxAllowedBlockTime]
  omega

/-- The lookup of the parent's reference by a node with a smaller view. -/
theorem DataSource.Valid.getBlockByHash_eq (hds : ds.Valid) (hwf : ChainWF verifier.db)
    (hsub : ds.db ⊆ verifier.db) (hc : c ∈ verifier.db) (h : ds.getBlockByHash c.hash = some info) :
    info = c.toMainchainBlock := by
  obtain ⟨c', hc', hhash, rfl⟩ := hds.mem_of_getBlockByHash h
  rw [hwf.hash_inj c' (hsub hc') c hc hhash]

theorem checkParent_of_le (hvalid : ds.Valid) (hc : c ∈ ds.db)
    (hlogs : valueFromDigest logs = .ok c.hash) (hle : c.blockNo ≤ b.blockNo) :
    checkParent logs (some parentSlot) slot ts b.hash ds (.stable b.toMainchainBlock) =
      .ok ⟨b.toMainchainBlock, some c.toMainchainBlock⟩ := by
  have hnlt : ¬ b.toMainchainBlock.number < c.toMainchainBlock.number := Nat.not_lt.mpr hle
  simp only [checkParent, hlogs, hvalid.getBlockByHash_of_mem hc, okOr, Except.mapError,
    Option.isNone_some, Bool.false_eq_true, if_false, bind, Except.bind, if_neg hnlt]

/-- The verifier's tip is high enough for every proposal on a known parent but the first one. -/
theorem ParentKnown.securityParameter_le (h : ParentKnown slotDuration verifier parent)
    (htip : parent.slot = none → verifier.config.securityParameter ≤ tipNumber verifier.db) :
    verifier.config.securityParameter ≤ tipNumber verifier.db := by
  cases h with
  | genesis hslot _ => exact htip hslot
  | block _ _ _ hstable => exact hstable.securityParameter_le

/-- The verifier derives the reference that the proposer chose. -/
theorem HonestProposal.accepted (h : HonestProposal slotDuration proposer verifier parent slot p)
    (hparent : ParentKnown slotDuration verifier parent)
    (htip : parent.slot = none → verifier.config.securityParameter ≤ tipNumber verifier.db) :
    (newVerification parent.logs parent.slot slot p.mcHash slotDuration verifier).1 = .ok p := by
  have hP := h.proposer_reachable.valid
  have hV := h.verifier_reachable.valid
  obtain ⟨b, hrange, hdepth, hprop⟩ := newProposal_ok h.proposed
  have hb := hrange.extend h.network h.extended
  have hstable : IsStable verifier.config verifier.db b := by
    refine isStable_of_depth (hdepth.imp_left fun hle => ?_) (hparent.securityParameter_le htip)
    rw [← h.network.securityParameter]
    exact hle.trans (tipNumber_mono h.extended)
  cases hparent with
  | genesis hslot hlogs =>
    cases hprop with
    | first =>
      obtain ⟨ds', -, -, heq⟩ := newVerification_eq hV hb hstable
      simp only [McHashInherentDataProvider.mcHash, Block.toMainchainBlock] at heq ⊢
      rw [heq, hslot]
      rfl
    | selected hlogs' | clamped hlogs' => simp [hlogs] at hlogs'
  | @block parentSlot c hslot hlogs hc hcstable =>
    cases hprop with
    | first hlogs' => simp [hlogs] at hlogs'
    | selected hlogs' hget hle =>
      cases hlogs.symm.trans hlogs'
      cases hP.getBlockByHash_eq hV.wf h.extended hc.mem hget
      obtain ⟨ds', hds', hdb, heq⟩ := newVerification_eq hV hb hstable
      refine heq.trans ?_
      rw [hslot]
      exact checkParent_of_le hds' (by rw [hdb]; exact hc.mem) hlogs hle
    | clamped hlogs' hget hlt =>
      cases hlogs.symm.trans hlogs'
      cases hP.getBlockByHash_eq hV.wf h.extended hc.mem hget
      have hc' := hb.of_parent hV.wf hc (h.slot_le _ hslot) hlt
      obtain ⟨ds', hds', hdb, heq⟩ := newVerification_eq hV hc' hcstable
      refine heq.trans ?_
      rw [hslot]
      exact checkParent_of_le hds' (by rw [hdb]; exact hc.mem) hlogs (Nat.le_refl _)

theorem HonestProposal.le_number (h : HonestProposal slotDuration proposer verifier parent slot p)
    (hlogs : valueFromDigest parent.logs = .ok c.hash) (hc : InRange verifier parentSlot slotDuration c) :
    c.blockNo ≤ p.mcBlock.number := by
  obtain ⟨b, -, -, hprop⟩ := newProposal_ok h.proposed
  have heq : ∀ info, proposer.getBlockByHash c.hash = some info → info = c.toMainchainBlock :=
    fun _ => h.proposer_reachable.valid.getBlockByHash_eq h.verifier_reachable.valid.wf h.extended
      hc.mem
  cases hprop with
  | first hlogs' => simp [hlogs] at hlogs'
  | selected hlogs' hget hle =>
    cases hlogs.symm.trans hlogs'
    cases heq _ hget
    exact hle
  | clamped hlogs' hget hlt =>
    cases hlogs.symm.trans hlogs'
    cases heq _ hget
    exact Nat.le_refl _

end

/-! ## Chains of blocks -/

structure Entry where
  parent : Parent
  slot : Nat
  provider : McHashInherentDataProvider
  verifier : DataSource

/-- Chains of honest proposals, with the last block and the last view. Only the first block needs a tip
that confirms the first Cardano block. -/
inductive Built (slotDuration : Nat) : Parent → DataSource → List Entry → Prop
  | genesis {parent : Parent} {verifier : DataSource} {e : DigestError} (hslot : parent.slot = none)
    (hlogs : valueFromDigest parent.logs = .error e) : Built slotDuration parent verifier []
  | block {parent : Parent} {last proposer verifier : DataSource} {entries : List Entry} {slot : Nat}
    {logs : List DigestItem} {p : McHashInherentDataProvider}
    (h : Built slotDuration parent last entries)
    (hnetwork : SameNetwork last.config verifier.config) (hsub : last.db ⊆ verifier.db)
    (hproposal : HonestProposal slotDuration proposer verifier parent slot p)
    (htip : parent.slot = none → verifier.config.securityParameter ≤ tipNumber verifier.db)
    (hlogs : valueFromDigest logs = .ok p.mcHash) :
    Built slotDuration ⟨some slot, logs⟩ verifier (entries ++ [⟨parent, slot, p, verifier⟩])

def Entry.Accepted (slotDuration : Nat) (e : Entry) : Prop :=
  (newVerification e.parent.logs e.parent.slot e.slot e.provider.mcHash slotDuration e.verifier).1 =
    .ok e.provider

/-- The last block of a chain is known to the last verifier, and no reference is above it. -/
inductive ChainEnd (slotDuration : Nat) (parent : Parent) (verifier : DataSource)
    (entries : List Entry) : Prop
  | genesis {e : DigestError} (hslot : parent.slot = none)
    (hlogs : valueFromDigest parent.logs = .error e) (hentries : entries = [])
  | block {slot : Nat} {c : Block} (hslot : parent.slot = some slot)
    (hlogs : valueFromDigest parent.logs = .ok c.hash) (hrange : InRange verifier slot slotDuration c)
    (hstable : IsStable verifier.config verifier.db c)
    (hle : ∀ e ∈ entries, e.provider.mcBlock.number ≤ c.blockNo)

section

variable {slotDuration : Nat} {parent : Parent} {last verifier : DataSource} {entries : List Entry}

theorem ChainEnd.known (h : ChainEnd slotDuration parent last entries)
    (hnetwork : SameNetwork last.config verifier.config) (hsub : last.db ⊆ verifier.db) :
    ParentKnown slotDuration verifier parent := by
  cases h with
  | genesis hslot hlogs => exact .genesis hslot hlogs
  | block hslot hlogs hrange hstable =>
    exact .block hslot hlogs (hrange.extend hnetwork hsub) (hstable.extend hnetwork hsub)

/-- Every block of the chain is accepted, and the numbers of the references do not decrease. -/
theorem Built.inv (h : Built slotDuration parent verifier entries) :
    ChainEnd slotDuration parent verifier entries ∧ (∀ e ∈ entries, e.Accepted slotDuration) ∧
      entries.Pairwise fun a b => a.provider.mcBlock.number ≤ b.provider.mcBlock.number := by
  induction h with
  | genesis hslot hlogs => exact ⟨.genesis hslot hlogs rfl, by simp, .nil⟩
  | @block parent last proposer verifier entries slot logs p _ hnetwork hsub hproposal htip hlogs ih =>
    obtain ⟨hend, haccepted, hsorted⟩ := ih
    have hknown := hend.known hnetwork hsub
    have hok := hproposal.accepted hknown htip
    -- no reference of the chain so far is above the new one
    have hle : ∀ e ∈ entries, e.provider.mcBlock.number ≤ p.mcBlock.number := by
      cases hend with
      | genesis _ _ hentries => simp [hentries]
      | block _ hparentLogs hrange _ hall =>
        exact fun e he => (hall e he).trans
          (hproposal.le_number hparentLogs (hrange.extend hnetwork hsub))
    refine ⟨?_, ?_, ?_⟩
    · obtain ⟨c, hrange, hhash, hblock, hstable⟩ :=
        newVerification_ok hproposal.verifier_reachable.valid hok
      refine .block rfl (by rw [hhash]; exact hlogs) hrange hstable fun e he => ?_
      have hnumber : p.mcBlock.number = c.blockNo := by
        rw [hblock]
        rfl
      rcases List.mem_append.mp he with he | he
      · exact hnumber ▸ hle e he
      · rw [List.mem_singleton.mp he, hnumber]
    · intro e he
      rcases List.mem_append.mp he with he | he
      · exact haccepted e he
      · rw [List.mem_singleton.mp he]
        exact hok
    · refine List.pairwise_append.mpr ⟨hsorted, List.pairwise_singleton _ _, fun a ha b hb => ?_⟩
      rw [List.mem_singleton.mp hb]
      exact hle a ha

end

/-- An honest reference is accepted with the same data, unless it is the first one and the verifier's
tip is below the security parameter. Along a chain of such blocks every reference is accepted, and the
referenced numbers do not decrease. -/
theorem honest_references_accepted (slotDuration : Nat) :
    (∀ (proposer verifier : DataSource) (parent : Parent) (slot : Nat) (p : McHashInherentDataProvider),
      HonestProposal slotDuration proposer verifier parent slot p →
      ParentAccepted slotDuration verifier parent →
      ((newVerification parent.logs parent.slot slot p.mcHash slotDuration verifier).1 = .ok p ↔
        (parent.slot = none → verifier.config.securityParameter ≤ tipNumber verifier.db))) ∧
    ∀ (parent : Parent) (verifier : DataSource) (entries : List Entry),
      Built slotDuration parent verifier entries →
      (∀ e ∈ entries, e.Accepted slotDuration) ∧
        entries.Pairwise fun a b => a.provider.mcBlock.number ≤ b.provider.mcBlock.number := by
  refine ⟨fun proposer verifier parent slot p h hparent => ⟨fun hok _ => ?_, h.accepted hparent.known⟩,
    fun parent verifier entries h => h.inv.2⟩
  obtain ⟨b, -, -, -, hstable⟩ := newVerification_ok h.verifier_reachable.valid hok
  exact hstable.securityParameter_le

theorem sampleHash_length (n : UInt8) : (List.replicate 32 n).length = 32 := List.length_replicate

def sampleHash (n : UInt8) : McBlockHash := ⟨List.replicate 32 n, sampleHash_length n⟩

/-- Two blocks, at 10 and 11 seconds. -/
def sampleDb : List Block := [⟨0, sampleHash 0, 0, 10, 10000⟩, ⟨1, sampleHash 1, 0, 11, 11000⟩]

theorem sampleSlot_pos : 0 < 1000 := Nat.succ_pos _

theorem sampleOffset_le (securityParameter : Fin 3) : securityParameter + 0 ≤ u32Max :=
  securityParameter.isLt.le.trans (Nat.le_of_ble_eq_true rfl)

/-- A source of these blocks whose range of times is from 6 to 2 seconds ago. -/
def sampleSource (securityParameter : Fin 3) : DataSource where
  config :=
    { securityParameter, minSlotBoundary := 2000, maxSlotBoundary := 6000,
      mainchainEpochConfig := ⟨0, 0, 1000, sampleSlot_pos⟩, blockStabilityMargin := 0,
      maxLatestBlockAgeSeconds := 20, cacheSize := 100,
      offset_le := sampleOffset_le securityParameter }
  db := sampleDb
  cache := some []
  currentTimeMillis := 13000

def sampleGenesis : Parent := ⟨none, []⟩

def sampleProvider : McHashInherentDataProvider := ⟨⟨0, sampleHash 0, 0, 10, 10⟩, none⟩

theorem sampleProposal (securityParameter : Fin 3) (hpos : 0 < securityParameter) :
    HonestProposal 1000 (sampleSource securityParameter) (sampleSource securityParameter) sampleGenesis 13
      sampleProvider where
  proposer_reachable := .start _ _ _ ⟨by decide, by decide⟩
  verifier_reachable := .start _ _ _ ⟨by decide, by decide⟩
  network := ⟨rfl, rfl, rfl⟩
  extended := List.Subset.refl _
  slot_le := fun _ h => nomatch h
  proposed := by
    revert securityParameter
    decide

theorem honest_references_accepted_sample :
    (newVerification sampleGenesis.logs sampleGenesis.slot 13 sampleProvider.mcHash 1000
      (sampleSource 1)).1 = .ok sampleProvider :=
  ((honest_references_accepted 1000).1 _ _ _ _ _ (sampleProposal 1 (by decide))
    (.genesis rfl rfl)).mpr fun _ => by decide

/-- The first Cardano block is proposed with one block on top of it, where two are needed. -/
theorem first_reference_rejected :
    HonestProposal 1000 (sampleSource 2) (sampleSource 2) sampleGenesis 13 sampleProvider ∧
      ParentAccepted 1000 (sampleSource 2) sampleGenesis ∧
      (newVerification sampleGenesis.logs sampleGenesis.slot 13 sampleProvider.mcHash 1000
        (sampleSource 2)).1 = .error (.mcStateReferenceInvalid (sampleHash 0) 13 13000) :=
  ⟨sampleProposal 2 (by decide), .genesis rfl rfl, by decide⟩

end MidnightNode.MainChain
