import MidnightNode.Bridge.Cache
import MidnightNode.MainChain.BlockSource

/-!
# How far the cache of the bridge looks ahead

On a miss `fill_cache` caches a range that is meant to reach beyond the referenced block, by the lookahead or
up to the latest stable block. For the latter it asks the block data source for the stable block at the time
of the latest block (`get_latest_stable_block`).

The time is that of a `MainchainBlock`, in seconds, and the block data source takes milliseconds. It searches
for blocks from the first weeks of 1970, finds none, and `fill_cache` falls back to the referenced block: there
is no lookahead.
-/

namespace MidnightNode.Bridge

open MainChain (DataSource DataSourceError)

/-- `get_latest_stable_block`. The seconds of the latest block become a timestamp as they are. -/
def getLatestStableBlock (blocks : DataSource) : Except DataSourceError (Option Nat) := do
  let latest ← blocks.getLatestBlockInfo
  let block ← blocks.getLatestStableBlockFor latest.timestamp
  .ok (block.map (·.number))

/-- The answers about the latest stable block come from the block data source. -/
def CardanoDb.AnsweredBy (db : CardanoDb) (blocks : DataSource) : Prop :=
  ∀ stable, db.latestStable = .ok stable → getLatestStableBlock blocks = .ok stable

/-! ## What is meant -/

/-- The number of the highest block that is stable with respect to the time of the latest block. -/
def stableTip (blocks : DataSource) : Option Nat := do
  let latest ← MainChain.Db.getLatestBlockInfo blocks.db
  let offset := blocks.config.securityParameter + blocks.config.blockStabilityMargin
  let stable := blocks.db.filter fun b =>
    decide (b.blockNo ≤ latest.blockNo - offset) && blocks.config.isStableBlockTimeValid b latest.time
  (stable.argmax (·.blockNo)).map (·.blockNo)

/-- Where the range ends, given the latest stable block. Without one it ends at the referenced block. -/
def rangeEnd (cacheLookahead toBlock : Nat) (stable : Option Nat) : Nat :=
  min (saturatingAdd u32Max toBlock cacheLookahead) (stable.getD toBlock)

structure TokenUtxoCache.ReachesTo (cache : TokenUtxoCache) (checkpoint : ResolvedBridgeDataCheckpoint)
    (bound : Nat) : Prop where
  endBlock : cache.endBlock = bound
  hits : ∀ later : ResolvedBridgeDataCheckpoint, checkpoint.getBlockNumber ≤ later.getBlockNumber →
    later.getBlockNumber ≤ u32Max → ∀ toBlock ≤ bound, ∀ maxTransfers,
      (cache.serveFromCache later toBlock maxTransfers).isSome

/-- No block is so old that its time in milliseconds is that of the latest block in seconds. -/
def Recent (blocks : DataSource) : Prop :=
  ∀ latest ∈ MainChain.Db.getLatestBlockInfo blocks.db, ∀ b ∈ blocks.db,
    ((latest.time / 1000 : Nat) : Int) - blocks.config.minSlotBoundary < b.time

/-! ## What happens -/

section

variable {cacheLookahead toBlock : Nat} {stable : Option Nat} {blocks : DataSource}
  {cache : TokenUtxoCache} {checkpoint later : ResolvedBridgeDataCheckpoint}

theorem rangeEnd_eq_self_iff (h : toBlock ≤ u32Max) :
    rangeEnd cacheLookahead toBlock stable = toBlock ↔
      stable.getD toBlock = toBlock ∨
        (cacheLookahead = 0 ∨ toBlock = u32Max) ∧ toBlock ≤ stable.getD toBlock := by
  unfold rangeEnd saturatingAdd
  omega

theorem rangeEnd_none (h : toBlock ≤ u32Max) : rangeEnd cacheLookahead toBlock none = toBlock := by
  rw [rangeEnd, saturatingAdd, Option.getD_none]
  omega

theorem TokenUtxoCache.serveFromCache_isSome (hstart : cache.startBlock ≤ later.getBlockNumber)
    (hlater : later.getBlockNumber ≤ u32Max) (hend : toBlock ≤ cache.endBlock) (maxTransfers : Nat) :
    (cache.serveFromCache later toBlock maxTransfers).isSome := by
  have hskip : (cache.skipPred later).isSome := by
    cases later with
    | block number =>
      have hle : cache.startBlock ≤ saturatingAdd u32Max number 1 := by
        simp only [ResolvedBridgeDataCheckpoint.getBlockNumber] at hstart hlater
        rw [saturatingAdd]
        omega
      rw [skipPred, if_pos hle, Option.isSome_some]
    | tx blockNumber txIx =>
      have hle : cache.startBlock ≤ blockNumber := hstart
      rw [skipPred, if_pos hle, Option.isSome_some]
  rw [serveFromCache, if_neg (Nat.not_lt.mpr hend), Option.isSome_map, hskip]

theorem fetchRange_startBlock (h : fetchRange cacheLookahead s scripts checkpoint toBlock = .ok filled) :
    filled.startBlock = checkpoint.getBlockNumber := by
  unfold fetchRange at h
  obtain ⟨stable, -, h⟩ := Fallible.of_bind h
  obtain ⟨rows, -, h⟩ := Fallible.of_bind h
  cases h
  rfl

theorem reachesTo_iff (hstart : filled.startBlock = checkpoint.getBlockNumber) :
    (cache.install filled).ReachesTo checkpoint bound ↔ filled.endBlock = bound := by
  refine ⟨fun h => h.endBlock, fun h => ⟨h, ?_⟩⟩
  intro later hlater hmax toBlock hto maxTransfers
  exact TokenUtxoCache.serveFromCache_isSome (hstart.trans_le hlater) hmax (hto.trans_eq h.symm) maxTransfers

/-- What `get_latest_stable_block` finds is no younger than the seconds of the latest block, read as
milliseconds. -/
theorem getLatestStableBlock_eq_none (hrecent : Recent blocks)
    (h : getLatestStableBlock blocks = .ok stable) : stable = none := by
  obtain ⟨info, hinfo, h⟩ := Fallible.of_bind h
  obtain ⟨found, hfound, h⟩ := Fallible.of_bind h
  cases h
  cases found with
  | none => rfl
  | some block =>
    obtain ⟨b, hb, -, -, htime, -⟩ := DataSource.of_getLatestStableBlockFor hfound
    have hold : (b.time : Int) ≤ info.timestamp - blocks.config.minSlotBoundary :=
      (of_decide_eq_true htime).2
    unfold DataSource.getLatestBlockInfo at hinfo
    split at hinfo
    next latest hlatest =>
      cases hinfo
      exact absurd hold (not_le.mpr (hrecent latest hlatest b hb))
    next => cases hinfo

end

/-- **The range reaches up to the lookahead or the stable tip** exactly if that is the referenced block: if the
stable tip is the referenced block, or it is stable and there is no lookahead. Any range ends there, unless
the chain has blocks from the first weeks of 1970. -/
theorem lookahead_reaches_iff {cacheLookahead toBlock : Nat} {s : Snapshots} {blocks : DataSource}
    {cache : TokenUtxoCache} {scripts : MainChainScripts} {checkpoint : ResolvedBridgeDataCheckpoint}
    {filled : Filled} (hblocks : s.stable.AnsweredBy blocks) (hrecent : Recent blocks)
    (hto : toBlock ≤ u32Max)
    (hfill : fetchRange cacheLookahead s scripts checkpoint toBlock = .ok filled) :
    filled.endBlock = toBlock ∧
    ((cache.install filled).ReachesTo checkpoint (rangeEnd cacheLookahead toBlock (stableTip blocks)) ↔
      (stableTip blocks).getD toBlock = toBlock ∨
        (cacheLookahead = 0 ∨ toBlock = u32Max) ∧ toBlock ≤ (stableTip blocks).getD toBlock) := by
  obtain ⟨stable, hstable, hend, -⟩ := fetchRange_spec hfill
  have hendBlock : filled.endBlock = toBlock := by
    rw [hend, getLatestStableBlock_eq_none hrecent (hblocks stable hstable)]
    exact rangeEnd_none hto
  refine ⟨hendBlock, ?_⟩
  rw [reachesTo_iff (fetchRange_startBlock hfill), hendBlock, eq_comm, rangeEnd_eq_self_iff hto]

/-- Block `i` of a chain from November 2023, with a block every 20 seconds. -/
def recentBlock (i : UInt8) : MainChain.Block :=
  ⟨i.toNat, ⟨List.replicate 32 i, List.length_replicate⟩, 0, 1700000000 + 20 * i.toNat,
    1700000000000 + 20000 * i.toNat⟩

/-- One confirmation is enough, and a stable block is at most 36 hours old. -/
def recentSource : DataSource where
  config := ⟨1, 0, 129600000, ⟨0, 0, 1000, Nat.succ_pos _⟩, 0, 60, 10, Nat.le_of_ble_eq_true rfl⟩
  db := [recentBlock 10, recentBlock 11, recentBlock 12, recentBlock 13]
  cache := some []
  currentTimeMillis := 1700000300000

theorem recentHashes_nodup :
    ([⟨.fill 32 10, 10⟩, ⟨.fill 32 11, 11⟩, ⟨.fill 32 12, 12⟩, ⟨.fill 32 13, 13⟩] : List Block).map
      Block.hash |>.Nodup := by decide

def recentDb : CardanoDb where
  blocks := [⟨.fill 32 10, 10⟩, ⟨.fill 32 11, 11⟩, ⟨.fill 32 12, 12⟩, ⟨.fill 32 13, 13⟩]
  txs := []
  latestStable := .ok none
  blockHashes_nodup := recentHashes_nodup
  txHashes_nodup := List.nodup_nil
  sorted := .nil
  stable_mem := nofun

def recentSnapshots : Snapshots := ⟨recentDb, recentDb, recentDb, recentDb, .refl _, .refl _, .refl _⟩

theorem recentSnapshots_answeredBy : recentSnapshots.stable.AnsweredBy recentSource := by
  intro stable h
  cases h
  decide +kernel

theorem stableTip_recentSource : stableTip recentSource = some 12 := by decide +kernel

theorem recentSource_recent : Recent recentSource := by
  unfold Recent
  decide +kernel

/-- With a lookahead of two blocks, the range of a query about the stable tip reaches as far as it should. -/
theorem lookahead_reaches_stable_tip :
    (TokenUtxoCache.new.install ⟨10, 12, []⟩).ReachesTo (.block 10)
      (rangeEnd 2 12 (stableTip recentSource)) := by
  have hfill : fetchRange 2 recentSnapshots sampleScripts (.block 10) 12 = .ok ⟨10, 12, []⟩ := rfl
  refine (lookahead_reaches_iff recentSnapshots_answeredBy recentSource_recent (by decide) hfill).2.mpr
    (.inl ?_)
  rw [stableTip_recentSource]
  rfl

/-- With a lookahead of two blocks the range should reach block 12, which is stable. It ends at block 10, and a
query about block 11 is a miss. -/
theorem lookahead_lost :
    recentSnapshots.stable.AnsweredBy recentSource ∧
      fetchRange 2 recentSnapshots sampleScripts (.block 10) 10 = .ok ⟨10, 10, []⟩ ∧
      rangeEnd 2 10 (stableTip recentSource) = 12 ∧
      (TokenUtxoCache.new.install ⟨10, 10, []⟩).serveFromCache (.block 10) 11 100 = none ∧
      ¬(TokenUtxoCache.new.install ⟨10, 10, []⟩).ReachesTo (.block 10)
        (rangeEnd 2 10 (stableTip recentSource)) := by
  rw [stableTip_recentSource]
  exact ⟨recentSnapshots_answeredBy, rfl, rfl, rfl, fun h => absurd h.endBlock (by decide)⟩

end MidnightNode.Bridge
