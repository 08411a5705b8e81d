import Mathlib
import MidnightNode.Lib.Fallible
import MidnightNode.Lib.MachineInts

/-!
# Stable Cardano blocks in Db-Sync

`BlockDataSourceImpl` of the Db-Sync data sources: the latest block that is old enough to be
referenced (`getLatestStableBlockFor`), the classification of a referenced block
(`getStableBlockFor`) and the lookup by hash. `db` is the table of blocks that a node has observed.

The source caches blocks that it found to be stable. A cached block is served without a look at the
tip, so the cache has to hold stable blocks of the table only (`Valid`), and every reachable source
keeps to that (`Reachable.valid`).
-/

namespace MidnightNode.MainChain
open Fallible

structure McBlockHash where
  bytes : List UInt8
  length_eq : bytes.length = 32
deriving DecidableEq

structure Block where
  blockNo : Nat
  hash : McBlockHash
  epochNo : Nat
  slotNo : Nat
  time : Nat
deriving DecidableEq

structure MainchainBlock where
  number : Nat
  hash : McBlockHash
  epoch : Nat
  slot : Nat
  timestamp : Nat
deriving DecidableEq

def Block.toMainchainBlock (b : Block) : MainchainBlock :=
  ⟨b.blockNo, b.hash, b.epochNo, b.slotNo, b.time / 1000⟩

structure MainchainEpochConfig where
  firstEpochTimestampMillis : Nat
  firstSlotNumber : Nat
  slotDurationMillis : Nat
  slotDurationMillis_pos : 0 < slotDurationMillis

def MainchainEpochConfig.timestampToMainchainSlotNumber (c : MainchainEpochConfig) (millis : Nat) :
    Option Nat :=
  if c.firstEpochTimestampMillis ≤ millis then
    some (c.firstSlotNumber + (millis - c.firstEpochTimestampMillis) / c.slotDurationMillis)
  else none

/-- The configuration of a source, its boundaries in milliseconds. The offset of the selection is a
32-bit number. -/
structure Config where
  securityParameter : Nat
  minSlotBoundary : Int
  maxSlotBoundary : Int
  mainchainEpochConfig : MainchainEpochConfig
  blockStabilityMargin : Nat
  maxLatestBlockAgeSeconds : Nat
  cacheSize : Nat
  offset_le : securityParameter + blockStabilityMargin ≤ u32Max

/-- `BlockDataSourceImpl`. A poisoned lock leaves no cache. -/
structure DataSource where
  config : Config
  db : List Block
  cache : Option (List Block)
  currentTimeMillis : Nat

inductive DataSourceError
  | timestampOutOfRange (timestamp : Nat)
  | datetimeOutOfRange (dt : Int)
  | expectedDataNotFound (what : String)
  | internalDataSourceError (what : String)
  | latestBlockUnavailable (hash : McBlockHash)
deriving DecidableEq

/-! ## The queries of the table -/

namespace Db

def getLatestBlockInfo (db : List Block) : Option Block := db.argmax (·.blockNo)

def getBlockByHash (db : List Block) (hash : McBlockHash) : Option Block :=
  db.find? (·.hash = hash)

def getHighestBlock (db : List Block) (maxBlockNumber : Nat) (minTime : Int) (minSlot : Nat)
    (maxTime : Int) (maxSlot : Nat) : Option Block :=
  (db.filter fun b => b.blockNo ≤ maxBlockNumber ∧ minSlot ≤ b.slotNo ∧ b.slotNo ≤ maxSlot ∧
    minTime ≤ b.time ∧ b.time ≤ maxTime).argmax (·.blockNo)

/-- `ORDER BY block_no ASC` is left out: the blocks are searched by their hash. -/
def getBlocksByNumbers (db : List Block) (fromNo toNo : Nat) : List Block :=
  db.filter fun b => fromNo ≤ b.blockNo ∧ b.blockNo ≤ toNo

end Db

/-! ## Times -/

namespace Config

variable (cfg : Config)

def minBlockAllowedTime (referenceTimestamp : Int) : Int := referenceTimestamp - cfg.maxSlotBoundary

def maxAllowedBlockTime (referenceTimestamp : Int) : Int := referenceTimestamp - cfg.minSlotBoundary

def isStableBlockTimeValid (b : Block) (timestamp : Int) : Bool :=
  decide (cfg.minBlockAllowedTime timestamp ≤ b.time ∧ b.time ≤ cfg.maxAllowedBlockTime timestamp)

def dateTimeToSlot (dt : Int) : Except DataSourceError Nat :=
  if dt < 0 then .error (.datetimeOutOfRange dt)
  else .ok ((cfg.mainchainEpochConfig.timestampToMainchainSlotNumber dt.toNat).getD
    cfg.mainchainEpochConfig.firstSlotNumber)

end Config

/-- The last millisecond of the calendar that `DateTime::from_timestamp_millis` accepts. -/
def maxDateTimeMillis : Nat := 8210266876799999

def timestampToDbType (timestamp : Nat) : Except DataSourceError Int :=
  if timestamp ≤ maxDateTimeMillis then .ok timestamp else .error (.timestampOutOfRange timestamp)

/-! ## The queries of the source -/

namespace DataSource

variable (ds : DataSource)

def getLatestBlockInfo : Except DataSourceError MainchainBlock :=
  match Db.getLatestBlockInfo ds.db with
  | some b => .ok b.toMainchainBlock
  | none => .error (.expectedDataNotFound "No latest block on chain.")

def getLatestBlock (maxBlock : Nat) (referenceTimestamp : Int) :
    Except DataSourceError (Option Block) := do
  let minTime := ds.config.minBlockAllowedTime referenceTimestamp
  let minSlot ← ds.config.dateTimeToSlot minTime
  let maxTime := ds.config.maxAllowedBlockTime referenceTimestamp
  let maxSlot ← ds.config.dateTimeToSlot maxTime
  .ok (Db.getHighestBlock ds.db maxBlock minTime minSlot maxTime maxSlot)

def getLatestStableBlockFor (referenceTimestamp : Nat) :
    Except DataSourceError (Option MainchainBlock) := do
  let referenceTimestamp ← timestampToDbType referenceTimestamp
  let latest ← ds.getLatestBlockInfo
  let offset := ds.config.securityParameter + ds.config.blockStabilityMargin
  let stable := latest.number - offset
  let block ← ds.getLatestBlock stable referenceTimestamp
  .ok (block.map Block.toMainchainBlock)

/-- `BlocksCache::find_by_hash` under the lock. -/
def findByHash (hash : McBlockHash) : Option Block :=
  match ds.cache with
  | some blocks => blocks.find? (·.hash = hash)
  | none => none

def getBlockByHash (hash : McBlockHash) : Option MainchainBlock :=
  match ds.findByHash hash with
  | some b => some b.toMainchainBlock
  | none => (Db.getBlockByHash ds.db hash).map Block.toMainchainBlock

def isBlockFresh (b : MainchainBlock) : Bool :=
  decide (ds.currentTimeMillis / 1000 - b.timestamp < ds.config.maxLatestBlockAgeSeconds)

def isCardanoTipFresh : Except DataSourceError Bool := do
  let b ← ds.getLatestBlockInfo
  .ok (ds.isBlockFresh b)

def isCardanoOk : Except DataSourceError Bool := do
  let currentTime ← timestampToDbType ds.currentTimeMillis
  match Db.getLatestBlockInfo ds.db with
  | none => .ok false
  | some latest =>
    if currentTime - ds.config.minSlotBoundary > latest.time then .ok false
    else
      let block ← ds.getLatestBlock (latest.blockNo - ds.config.securityParameter) currentTime
      .ok block.isSome

end DataSource

inductive StableBlockByHashResult
  | blockNotFound
  | blockTimestampOutRange (info : MainchainBlock)
  | notEnoughConfirmations (info : MainchainBlock)
  | blockStable (info : MainchainBlock)
deriving DecidableEq

inductive StableBlockByHashError
  | blockNotFound (hash : McBlockHash)
  | latestBlockUnavailable (hash : McBlockHash)
  | notStableYet (hash : McBlockHash) (blockNo requiredLatestBlockNo latestBlockNo : Nat) (block : Block)
  | timestampOutOfRange (hash : McBlockHash) (blockTime : Nat) (minAllowedTime maxAllowedTime : Int)
      (referenceTimestamp : Int) (block : Block)
deriving DecidableEq

namespace DataSource

variable (ds : DataSource)

def getStableBlockByHashFromCache (hash : McBlockHash) (referenceTimestamp : Int) : Option Block :=
  (ds.findByHash hash).filter (ds.config.isStableBlockTimeValid · referenceTimestamp)

def getStableBlockByHashFromDb (hash : McBlockHash) (referenceTimestamp : Int) :
    Except StableBlockByHashError Block :=
  match Db.getLatestBlockInfo ds.db with
  | none => .error (.latestBlockUnavailable hash)
  | some latestBlock =>
    match Db.getBlockByHash ds.db hash with
    | none => .error (.blockNotFound hash)
    | some block =>
      let required := saturatingAdd u32Max block.blockNo ds.config.securityParameter
      -- the check of the times comes first, its failure is final
      if ¬ ds.config.isStableBlockTimeValid block referenceTimestamp then
        .error (.timestampOutOfRange hash block.time (ds.config.minBlockAllowedTime referenceTimestamp)
          (ds.config.maxAllowedBlockTime referenceTimestamp) referenceTimestamp block)
      else if ¬ required ≤ latestBlock.blockNo then
        .error (.notStableYet hash block.blockNo required latestBlock.blockNo block)
      else .ok block

def fillCache (fromBlock : Block) : Except DataSourceError DataSource :=
  match Db.getLatestBlockInfo ds.db with
  | none => .error (.internalDataSourceError "No latest block when filling the caches.")
  | some latestBlock =>
    let stableBlockNum := latestBlock.blockNo - ds.config.securityParameter
    let toBlockNo := min (saturatingAdd u32Max fromBlock.blockNo ds.config.cacheSize) stableBlockNum
    let blocks :=
      if toBlockNo > fromBlock.blockNo then Db.getBlocksByNumbers ds.db fromBlock.blockNo toBlockNo
      else [fromBlock]
    .ok { ds with cache := ds.cache.map fun _ => blocks }

/-- The result, and the source with the cache that the call leaves. -/
def getStableBlockByHash (hash : McBlockHash) (referenceTimestamp : Int) :
    Except DataSourceError StableBlockByHashResult × DataSource :=
  match ds.getStableBlockByHashFromCache hash referenceTimestamp with
  | some block => (.ok (.blockStable block.toMainchainBlock), ds)
  | none =>
    match ds.getStableBlockByHashFromDb hash referenceTimestamp with
    | .ok block =>
      match ds.fillCache block with
      | .ok ds' => (.ok (.blockStable block.toMainchainBlock), ds')
      | .error e => (.error e, ds)
    | .error (.blockNotFound _) => (.ok .blockNotFound, ds)
    | .error (.timestampOutOfRange _ _ _ _ _ block) =>
      (.ok (.blockTimestampOutRange block.toMainchainBlock), ds)
    | .error (.notStableYet _ _ _ _ block) =>
      (.ok (.notEnoughConfirmations block.toMainchainBlock), ds)
    | .error (.latestBlockUnavailable hash) => (.error (.latestBlockUnavailable hash), ds)

def getStableBlockFor (hash : McBlockHash) (referenceTimestamp : Nat) :
    Except DataSourceError StableBlockByHashResult × DataSource :=
  match timestampToDbType referenceTimestamp with
  | .ok referenceTimestamp => ds.getStableBlockByHash hash referenceTimestamp
  | .error e => (.error e, ds)

end DataSource

/-! ## Facts about the table -/

/-- One Cardano chain: a hash names one block, and a later block is not older. -/
structure ChainWF (db : List Block) : Prop where
  hash_inj : ∀ a ∈ db, ∀ b ∈ db, a.hash = b.hash → a = b
  time_mono : ∀ a ∈ db, ∀ b ∈ db, a.blockNo < b.blockNo → a.time ≤ b.time

/-- The number of the latest block, zero without a block. -/
def tipNumber (db : List Block) : Nat := ((Db.getLatestBlockInfo db).map (·.blockNo)).getD 0

section

variable {db db' : List Block} {b : Block} {hash : McBlockHash}

theorem tipNumber_eq (h : Db.getLatestBlockInfo db = some b) : tipNumber db = b.blockNo := by
  rw [tipNumber, h]
  rfl

theorem Db.getLatestBlockInfo_of_mem (h : b ∈ db) : ∃ latest, Db.getLatestBlockInfo db = some latest := by
  refine Option.ne_none_iff_exists'.mp fun hnone => ?_
  rw [List.argmax_eq_none.mp hnone] at h
  exact List.not_mem_nil h

theorem le_tipNumber (h : b ∈ db) : b.blockNo ≤ tipNumber db := by
  obtain ⟨latest, hlatest⟩ := Db.getLatestBlockInfo_of_mem h
  rw [tipNumber_eq hlatest]
  exact List.le_of_mem_argmax h hlatest

theorem tipNumber_mono (hsub : db ⊆ db') : tipNumber db ≤ tipNumber db' := by
  cases hlatest : Db.getLatestBlockInfo db with
  | none => simp [tipNumber, hlatest]
  | some latest =>
    rw [tipNumber_eq hlatest]
    exact le_tipNumber (hsub (List.argmax_mem hlatest))

theorem mem_of_find_hash (h : db.find? (·.hash = hash) = some b) : b ∈ db ∧ b.hash = hash :=
  ⟨List.mem_of_find?_eq_some h, by simpa using List.find?_some h⟩

theorem ChainWF.getBlockByHash (hwf : ChainWF db) (h : b ∈ db) :
    Db.getBlockByHash db b.hash = some b := by
  cases hfind : Db.getBlockByHash db b.hash with
  | none => simpa using List.find?_eq_none.mp hfind b h
  | some c =>
    obtain ⟨hc, hhash⟩ := mem_of_find_hash hfind
    rw [hwf.hash_inj c hc b h hhash]

end

/-! ## The cache -/

/-- The block has its confirmations, as the source counts them. -/
def IsStable (cfg : Config) (db : List Block) (b : Block) : Prop :=
  saturatingAdd u32Max b.blockNo cfg.securityParameter ≤ tipNumber db

structure DataSource.Valid (ds : DataSource) : Prop where
  wf : ChainWF ds.db
  cache_mem : ∀ blocks, ds.cache = some blocks → ∀ b ∈ blocks, b ∈ ds.db
  cache_stable : ∀ blocks, ds.cache = some blocks → ∀ b ∈ blocks, IsStable ds.config ds.db b

/-- Blocks are observed, time goes on, a lock is poisoned and references are classified. -/
inductive DataSource.Reachable : DataSource → Prop
  | start (config : Config) (db : List Block) (now : Nat) (hwf : ChainWF db) :
    Reachable ⟨config, db, some [], now⟩
  | observe {ds : DataSource} (h : Reachable ds) (db : List Block) (hwf : ChainWF db)
    (hsub : ds.db ⊆ db) : Reachable { ds with db := db }
  | tick {ds : DataSource} (h : Reachable ds) (now : Nat) :
    Reachable { ds with currentTimeMillis := now }
  | poison {ds : DataSource} (h : Reachable ds) : Reachable { ds with cache := none }
  | getStableBlockFor {ds : DataSource} (h : Reachable ds) (hash : McBlockHash)
    (referenceTimestamp : Nat) : Reachable (ds.getStableBlockFor hash referenceTimestamp).2

namespace DataSource

variable {ds : DataSource} {hash : McBlockHash} {b : Block} {ref : Int}

theorem getStableBlockByHashFromDb_ok (h : ds.getStableBlockByHashFromDb hash ref = .ok b) :
    b ∈ ds.db ∧ b.hash = hash ∧ ds.config.isStableBlockTimeValid b ref = true ∧
      IsStable ds.config ds.db b := by
  unfold getStableBlockByHashFromDb at h
  split at h
  case h_1 => cases h
  case h_2 latest hlatest =>
    split at h
    case h_1 => cases h
    case h_2 block hblock =>
      obtain ⟨htime, h1⟩ := of_check h
      obtain ⟨hstable, h2⟩ := of_check h1
      cases h2
      obtain ⟨hmem, hhash⟩ := mem_of_find_hash hblock
      rw [not_not] at htime hstable
      exact ⟨hmem, hhash, htime, by rwa [IsStable, tipNumber_eq hlatest]⟩

theorem getStableBlockByHashFromDb_of_mem (hwf : ChainWF ds.db) (hb : b ∈ ds.db)
    (htime : ds.config.isStableBlockTimeValid b ref = true) (hstable : IsStable ds.config ds.db b) :
    ds.getStableBlockByHashFromDb b.hash ref = .ok b := by
  obtain ⟨latest, hlatest⟩ := Db.getLatestBlockInfo_of_mem hb
  rw [IsStable, tipNumber_eq hlatest] at hstable
  simp only [getStableBlockByHashFromDb, hlatest, hwf.getBlockByHash hb, htime, hstable, not_true,
    if_false]

/-- The blocks that `fill_cache` caches, once it has read the latest block. -/
def blocksToCache (config : Config) (db : List Block) (fromBlock latestBlock : Block) : List Block :=
  let stableBlockNum := latestBlock.blockNo - config.securityParameter
  let toBlockNo := min (saturatingAdd u32Max fromBlock.blockNo config.cacheSize) stableBlockNum
  if toBlockNo > fromBlock.blockNo then Db.getBlocksByNumbers db fromBlock.blockNo toBlockNo
  else [fromBlock]

theorem fillCache_of_latest (hlatest : Db.getLatestBlockInfo ds.db = some latest) :
    ds.fillCache b =
      .ok { ds with cache := ds.cache.map fun _ => blocksToCache ds.config ds.db b latest } := by
  simp only [fillCache, hlatest, blocksToCache]

theorem blocksToCache_stable {config : Config} {db : List Block} (hb : b ∈ db)
    (hstable : IsStable config db b) (hlatest : latest.blockNo ≤ tipNumber db)
    (hc : c ∈ blocksToCache config db b latest) : c ∈ db ∧ IsStable config db c := by
  unfold blocksToCache at hc
  dsimp only at hc
  split at hc
  case isFalse =>
    rw [List.mem_singleton.mp hc]
    exact ⟨hb, hstable⟩
  case isTrue hlt =>
    obtain ⟨hmem, hrange⟩ := List.mem_filter.mp hc
    simp only [decide_eq_true_eq] at hrange
    refine ⟨hmem, ?_⟩
    rw [IsStable, saturatingAdd]
    omega

theorem fillCache_ok (hb : b ∈ ds.db) (hstable : IsStable ds.config ds.db b)
    (h : ds.fillCache b = .ok ds') :
    ∃ blocks, ds' = { ds with cache := ds.cache.map fun _ => blocks } ∧
      (∀ c ∈ blocks, c ∈ ds.db) ∧ ∀ c ∈ blocks, IsStable ds.config ds.db c := by
  obtain ⟨latest, hlatest⟩ := Db.getLatestBlockInfo_of_mem hb
  have hall (c : Block) (hc : c ∈ blocksToCache ds.config ds.db b latest) :=
    blocksToCache_stable hb hstable (tipNumber_eq hlatest).ge hc
  rw [fillCache_of_latest hlatest] at h
  exact ⟨_, (Except.ok.inj h).symm, fun c hc => (hall c hc).1, fun c hc => (hall c hc).2⟩

theorem fillCache_eq_ok (hb : b ∈ ds.db) (c : Block) : ∃ ds', ds.fillCache c = .ok ds' := by
  obtain ⟨latest, hlatest⟩ := Db.getLatestBlockInfo_of_mem hb
  exact ⟨_, fillCache_of_latest hlatest⟩

theorem getStableBlockByHashFromCache_some (hvalid : ds.Valid)
    (h : ds.getStableBlockByHashFromCache hash ref = some b) :
    b ∈ ds.db ∧ b.hash = hash ∧ ds.config.isStableBlockTimeValid b ref = true ∧
      IsStable ds.config ds.db b := by
  obtain ⟨hfind, htime⟩ := Option.filter_eq_some_iff.mp h
  unfold findByHash at hfind
  split at hfind
  case h_1 blocks hcache =>
    obtain ⟨hmem, hhash⟩ := mem_of_find_hash hfind
    exact ⟨hvalid.cache_mem blocks hcache b hmem, hhash, htime,
      hvalid.cache_stable blocks hcache b hmem⟩
  case h_2 => cases hfind

theorem Valid.getStableBlockByHash (hvalid : ds.Valid) :
    ∃ cache, (ds.getStableBlockByHash hash ref).2 = { ds with cache := cache } ∧
      Valid { ds with cache := cache } := by
  unfold DataSource.getStableBlockByHash
  split
  case h_1 => exact ⟨ds.cache, rfl, hvalid⟩
  case h_2 =>
    split
    case h_1 b hok =>
      obtain ⟨hb, -, -, hstable⟩ := getStableBlockByHashFromDb_ok hok
      split
      case h_1 ds' hfill =>
        obtain ⟨blocks, rfl, hmem, hall⟩ := fillCache_ok hb hstable hfill
        refine ⟨_, rfl, hvalid.wf, fun cached hcached => ?_, fun cached hcached => ?_⟩
        all_goals
          obtain ⟨_, _, rfl⟩ := Option.map_eq_some_iff.mp hcached
          assumption
      case h_2 => exact ⟨ds.cache, rfl, hvalid⟩
    all_goals exact ⟨ds.cache, rfl, hvalid⟩

theorem Valid.getStableBlockFor (hvalid : ds.Valid) (hash : McBlockHash) (ts : Nat) :
    ∃ cache, (ds.getStableBlockFor hash ts).2 = { ds with cache := cache } ∧
      Valid { ds with cache := cache } := by
  unfold DataSource.getStableBlockFor
  split
  · exact hvalid.getStableBlockByHash
  · exact ⟨ds.cache, rfl, hvalid⟩

theorem Valid.observe {db : List Block} (hvalid : ds.Valid) (hwf : ChainWF db) (hsub : ds.db ⊆ db) :
    Valid { ds with db := db } :=
  ⟨hwf, fun blocks h b hb => hsub (hvalid.cache_mem blocks h b hb),
    fun blocks h b hb => (hvalid.cache_stable blocks h b hb).trans (tipNumber_mono hsub)⟩

theorem Reachable.valid (h : ds.Reachable) : ds.Valid := by
  induction h with
  | start config db now hwf =>
    refine ⟨hwf, fun blocks h b hb => ?_, fun blocks h b hb => ?_⟩
    all_goals
      cases h
      cases hb
  | observe _ db hwf hsub ih => exact ih.observe hwf hsub
  | tick _ now ih => exact ⟨ih.wf, ih.cache_mem, ih.cache_stable⟩
  | poison _ ih => exact ⟨ih.wf, by simp, by simp⟩
  | getStableBlockFor _ hash ts ih =>
    obtain ⟨cache, heq, hvalid⟩ := ih.getStableBlockFor hash ts
    rw [heq]
    exact hvalid

/-! ## What the queries find -/

theorem Valid.getBlockByHash (hvalid : ds.Valid) :
    ds.getBlockByHash hash = (Db.getBlockByHash ds.db hash).map Block.toMainchainBlock := by
  unfold DataSource.getBlockByHash
  split
  case h_2 => rfl
  case h_1 b hfind =>
    unfold findByHash at hfind
    split at hfind
    case h_2 => cases hfind
    case h_1 blocks hcache =>
      obtain ⟨hmem, rfl⟩ := mem_of_find_hash hfind
      rw [hvalid.wf.getBlockByHash (hvalid.cache_mem blocks hcache b hmem)]
      rfl

theorem Valid.getBlockByHash_of_mem (hvalid : ds.Valid) (hb : b ∈ ds.db) :
    ds.getBlockByHash b.hash = some b.toMainchainBlock := by
  rw [hvalid.getBlockByHash, hvalid.wf.getBlockByHash hb]
  rfl

theorem Valid.mem_of_getBlockByHash (hvalid : ds.Valid) (h : ds.getBlockByHash hash = some info) :
    ∃ b ∈ ds.db, b.hash = hash ∧ info = b.toMainchainBlock := by
  rw [hvalid.getBlockByHash, Option.map_eq_some_iff] at h
  obtain ⟨b, hfind, rfl⟩ := h
  obtain ⟨hb, hhash⟩ := mem_of_find_hash hfind
  exact ⟨b, hb, hhash, rfl⟩

theorem timestampToDbType_ok (h : timestampToDbType ts = .ok ref) : ref = ts := by
  obtain ⟨-, h⟩ := of_condition h
  cases h
  rfl

/-- A block is classified as stable when it is in the table, its time is in the range, and the tip
confirms it; with or without the cache. -/
theorem Valid.getStableBlockFor_of_mem (hvalid : ds.Valid) (hts : timestampToDbType ts = .ok ref)
    (hb : b ∈ ds.db) (htime : ds.config.isStableBlockTimeValid b ref = true)
    (hstable : IsStable ds.config ds.db b) :
    (ds.getStableBlockFor b.hash ts).1 = .ok (.blockStable b.toMainchainBlock) := by
  simp only [DataSource.getStableBlockFor, hts, DataSource.getStableBlockByHash]
  split
  case h_1 c hcache =>
    obtain ⟨hc, hhash, -⟩ := getStableBlockByHashFromCache_some hvalid hcache
    rw [hvalid.wf.hash_inj c hc b hb hhash]
  case h_2 =>
    obtain ⟨ds', hfill⟩ := fillCache_eq_ok hb b
    simp only [getStableBlockByHashFromDb_of_mem hvalid.wf hb htime hstable, hfill]

theorem Valid.of_blockStable (hvalid : ds.Valid)
    (h : (ds.getStableBlockFor hash ts).1 = .ok (.blockStable info)) :
    ∃ b ∈ ds.db, b.hash = hash ∧ info = b.toMainchainBlock ∧ timestampToDbType ts = .ok (ts : Int) ∧
      ds.config.isStableBlockTimeValid b ts = true ∧ IsStable ds.config ds.db b := by
  unfold DataSource.getStableBlockFor at h
  split at h
  case h_2 => cases h
  case h_1 ref hts =>
    cases timestampToDbType_ok hts
    unfold DataSource.getStableBlockByHash at h
    split at h
    case h_1 b hcache =>
      cases h
      obtain ⟨hb, hhash, htime, hstable⟩ := getStableBlockByHashFromCache_some hvalid hcache
      exact ⟨b, hb, hhash, rfl, hts, htime, hstable⟩
    case h_2 =>
      split at h
      case h_1 b hok =>
        obtain ⟨hb, hhash, htime, hstable⟩ := getStableBlockByHashFromDb_ok hok
        split at h
        case h_1 =>
          cases h
          exact ⟨b, hb, hhash, rfl, hts, htime, hstable⟩
        case h_2 => cases h
      all_goals cases h

theorem getLatestBlockInfo_ok (h : ds.getLatestBlockInfo = .ok latest) :
    tipNumber ds.db = latest.number := by
  unfold getLatestBlockInfo at h
  split at h
  case h_1 b hb =>
    cases h
    exact tipNumber_eq hb
  case h_2 => cases h

theorem getLatestBlock_some (h : ds.getLatestBlock maxBlock ref = .ok (some b)) :
    b ∈ ds.db ∧ b.blockNo ≤ maxBlock ∧ ds.config.isStableBlockTimeValid b ref = true := by
  obtain ⟨minSlot, -, h1⟩ := of_bind h
  obtain ⟨maxSlot, -, h2⟩ := of_bind h1
  have hmem := List.mem_filter.mp (List.argmax_mem (Except.ok.inj h2))
  simp only [decide_eq_true_eq] at hmem
  obtain ⟨hb, hno, -, -, hmin, hmax⟩ := hmem
  exact ⟨hb, hno, decide_eq_true ⟨hmin, hmax⟩⟩

/-- The selected block: it is in the table and in the range of times, and it is behind the tip by the
security parameter unless the tip is so low that the first block is selected. -/
theorem of_getLatestStableBlockFor (h : ds.getLatestStableBlockFor ts = .ok (some info)) :
    ∃ b ∈ ds.db, info = b.toMainchainBlock ∧ timestampToDbType ts = .ok (ts : Int) ∧
      ds.config.isStableBlockTimeValid b ts = true ∧
      (b.blockNo + ds.config.securityParameter ≤ tipNumber ds.db ∨ b.blockNo = 0) := by
  obtain ⟨ref, hts, h1⟩ := of_bind h
  cases timestampToDbType_ok hts
  obtain ⟨latest, hlatest, h2⟩ := of_bind h1
  obtain ⟨block, hblock, h3⟩ := of_bind h2
  obtain ⟨b, rfl, hinfo⟩ := Option.map_eq_some_iff.mp (Except.ok.inj h3)
  obtain ⟨hb, hno, htime⟩ := getLatestBlock_some hblock
  refine ⟨b, hb, hinfo.symm, hts, htime, ?_⟩
  rw [getLatestBlockInfo_ok hlatest]
  omega

end DataSource

end MidnightNode.MainChain
