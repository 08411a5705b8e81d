import MidnightNode.Bridge.Observation
import MidnightNode.Lib.MachineInts

/-!
# The caching token bridge source

`CachedTokenBridgeDataSourceImpl` (`data-sources/db-sync/src/bridge/cache.rs`) keeps the bridge
transactions of one range of blocks under one configuration of scripts. A query the range does not
cover replaces it: the new range starts at the block of the checkpoint and reaches beyond the referenced
block, up to the latest stable one. Positions of transactions it has seen are kept to resolve
checkpoints.

All databases the calls read are earlier states of one final database; what the cache holds is a slice
of that one's bridge transactions (`CacheInv`), so it does not matter when a range was read.
-/

namespace MidnightNode.Bridge

open SortedSlice

structure TokenUtxoCache where
  mcScripts : MainChainScripts
  startBlock : Nat
  endBlock : Nat
  transfers : List BridgeTx
  /-- Entries by transaction hash; a later one replaces an earlier one. -/
  txCache : List BridgeTx

namespace TokenUtxoCache

def new : TokenUtxoCache := ⟨⟨[], [], [], []⟩, 0, 0, [], []⟩

def setMcScripts (cache : TokenUtxoCache) (mcScripts : MainChainScripts) : TokenUtxoCache :=
  if cache.mcScripts ≠ mcScripts then
    { cache with mcScripts, transfers := [], startBlock := 0, endBlock := 0 }
  else cache

def setCachedTransfers (cache : TokenUtxoCache) (startBlock endBlock : Nat)
    (transfers : List BridgeTx) : TokenUtxoCache :=
  { cache with startBlock, endBlock, txCache := transfers, transfers }

/-- The transactions that `serve_from_cache` skips, if the range starts early enough. -/
def skipPred (cache : TokenUtxoCache) :
    ResolvedBridgeDataCheckpoint → Option (BridgeTx → Bool)
  | .block number =>
    if cache.startBlock ≤ saturatingAdd u32Max number 1 then
      some fun utxo => decide (number ≥ utxo.blockNumber)
    else none
  | .tx blockNumber txIx =>
    if cache.startBlock ≤ blockNumber then
      some fun utxo => decide (utxo.orderingKey ≤ toLex (blockNumber, txIx))
    else none

def serveFromCache (cache : TokenUtxoCache) (checkpoint : ResolvedBridgeDataCheckpoint)
    (toBlock maxTransfers : Nat) : Option (List BridgeTx) :=
  if cache.endBlock < toBlock then none
  else (cache.skipPred checkpoint).map fun skip =>
    ((cache.transfers.dropWhile skip).takeWhile fun utxo =>
      decide (toBlock ≥ utxo.blockNumber)).take maxTransfers

def tryResolveCheckpointFromCache (cache : TokenUtxoCache) (txId : McTxHash) :
    Option ResolvedBridgeDataCheckpoint :=
  (cache.txCache.reverse.find? fun tx => tx.txHash == txId).map fun tx =>
    .tx tx.blockNumber tx.txIx

end TokenUtxoCache

/-- `resolve_data_checkpoint`: from the cache, or else from the database. -/
def resolveDataCheckpoint (cache : TokenUtxoCache) (db : CardanoDb) :
    BridgeDataCheckpoint → Except SourceError ResolvedBridgeDataCheckpoint
  | .block number => .ok (.block number)
  | .tx hash =>
    match cache.tryResolveCheckpointFromCache hash with
    | some checkpoint => .ok checkpoint
    | none => db.resolveTxHash hash

/-- What `fill_cache` installs: the first and the last block of the new range, and its rows. -/
structure Filled where
  startBlock : Nat
  endBlock : Nat
  transfers : List BridgeTx

/-- The queries of `fill_cache`. -/
def fetchRange (cacheLookahead : Nat) (s : Snapshots) (scripts : MainChainScripts)
    (checkpoint : ResolvedBridgeDataCheckpoint) (toBlock : Nat) : Except SourceError Filled := do
  let fromBlock := checkpoint.getBlockNumber
  -- one block back, so that all of the block of the checkpoint is read
  let effectiveCheckpoint := ResolvedBridgeDataCheckpoint.block (fromBlock - 1)
  let stable ← s.stable.latestStable
  let toBlock := min (saturatingAdd u32Max toBlock cacheLookahead) (stable.getD toBlock)
  let utxos ← s.rows.getBridgeTxs scripts effectiveCheckpoint toBlock none
  pure ⟨fromBlock, toBlock, utxos⟩

def TokenUtxoCache.install (cache : TokenUtxoCache) (f : Filled) : TokenUtxoCache :=
  cache.setCachedTransfers f.startBlock f.endBlock f.transfers

section

variable {R : Type} (tryFrom : List UInt8 → Option R)

/-- `get_transfers` of the caching source, with the cache it leaves. -/
def getTransfersCached (cacheLookahead : Nat) (s : Snapshots) (q : Query) (cache : TokenUtxoCache) :
    Except SourceError (List (BridgeTransferV1 R) × BridgeDataCheckpoint) × TokenUtxoCache :=
  let cache := cache.setMcScripts q.mainChainScripts
  match s.block.getBlockByHash q.currentMcBlockHash with
  | .error e => (.error e, cache)
  | .ok block =>
    let toBlock := block.number
    match resolveDataCheckpoint cache s.checkpoint q.dataCheckpoint with
    | .error e => (.error e, cache)
    | .ok dataCheckpoint =>
      match cache.serveFromCache dataCheckpoint toBlock q.maxTransfers with
      | some txs => (.ok (txsToTransfers tryFrom txs q.maxTransfers toBlock), cache)
      | none =>
        match fetchRange cacheLookahead s q.mainChainScripts dataCheckpoint toBlock with
        | .error e => (.error e, cache)
        | .ok filled =>
          let cache := cache.install filled
          match cache.serveFromCache dataCheckpoint toBlock q.maxTransfers with
          | some txs => (.ok (txsToTransfers tryFrom txs q.maxTransfers toBlock), cache)
          | none => (.error .notCached, cache)

def runCached (cacheLookahead : Nat) (cache : TokenUtxoCache) (history : List (Snapshots × Query)) :
    TokenUtxoCache :=
  history.foldl (fun cache c => (getTransfersCached tryFrom cacheLookahead c.1 c.2 cache).2) cache

end

/-! ## What the cache holds -/

/-- The cache holds the bridge transactions of its range, and positions of transactions. -/
structure CacheInv (final : CardanoDb) (cache : TokenUtxoCache) : Prop where
  transfers : cache.transfers = slice BridgeTx.orderingKey (toLex (cache.startBlock, 0))
    (endOfBlock cache.endBlock) (final.bridgeTxs cache.mcScripts)
  txCache : ∀ tx ∈ cache.txCache,
    final.resolveTxHash tx.txHash = .ok (.tx tx.blockNumber tx.txIx)

/-- No bridge transaction lies in block `0`. -/
def NoneInGenesis (final : CardanoDb) : Prop :=
  ∀ scripts, ∀ tx ∈ final.bridgeTxs scripts, tx.blockNumber ≠ 0

section

variable {final : CardanoDb} {cache : TokenUtxoCache}

theorem NoneInGenesis.slice_zero (h : NoneInGenesis final) (scripts : MainChainScripts)
    (b : Position) :
    slice BridgeTx.orderingKey (toLex (0, 0)) b (final.bridgeTxs scripts) =
      slice BridgeTx.orderingKey (endOfBlock 0) b (final.bridgeTxs scripts) := by
  refine List.filter_congr fun tx htx => ?_
  have hne := h scripts tx htx
  have hiff : toLex (0, 0) ≤ tx.orderingKey ↔ endOfBlock 0 ≤ tx.orderingKey := by
    simp only [endOfBlock, BridgeTx.orderingKey, Prod.Lex.toLex_le_toLex]
    omega
  rw [decide_eq_decide, hiff]

theorem NoneInGenesis.slice_genesis (h : NoneInGenesis final) (scripts : MainChainScripts) :
    slice BridgeTx.orderingKey (toLex (0, 0)) (endOfBlock 0) (final.bridgeTxs scripts) = [] := by
  rw [h.slice_zero]
  exact slice_eq_nil_iff.mpr fun _ _ hx => hx

theorem CacheInv.new (h : NoneInGenesis final) : CacheInv final .new :=
  ⟨(h.slice_genesis _).symm, by rintro tx ⟨⟩⟩

theorem CacheInv.setMcScripts (hcache : CacheInv final cache) (h : NoneInGenesis final)
    (scripts : MainChainScripts) : CacheInv final (cache.setMcScripts scripts) := by
  unfold TokenUtxoCache.setMcScripts
  split
  · exact ⟨(h.slice_genesis scripts).symm, hcache.txCache⟩
  · exact hcache

@[simp] theorem mcScripts_setMcScripts (cache : TokenUtxoCache) (scripts : MainChainScripts) :
    (cache.setMcScripts scripts).mcScripts = scripts := by
  unfold TokenUtxoCache.setMcScripts
  split
  · rfl
  · next h => exact not_not.mp h

theorem CacheInv.resolve (hcache : CacheInv final cache) (hdb : db.GrowsTo final)
    (h : resolveDataCheckpoint cache db checkpoint = .ok resolved) :
    final.resolve checkpoint = .ok resolved := by
  cases checkpoint with
  | block number => exact h
  | tx hash =>
    rw [resolveDataCheckpoint] at h
    cases hc : cache.tryResolveCheckpointFromCache hash with
    | none =>
      rw [hc] at h
      have hdb' : db.resolve (.tx hash) = .ok resolved := h
      exact hdb.resolve hdb'
    | some c =>
      rw [hc] at h
      cases h
      obtain ⟨tx, htx, rfl⟩ := Option.map_eq_some_iff.mp hc
      have hhash : tx.txHash = hash := by simpa using List.find?_some htx
      have hmem : tx ∈ cache.txCache := List.mem_reverse.mp (List.mem_of_find?_eq_some htx)
      rw [← hhash]
      exact hcache.txCache tx hmem

/-- The skipped transactions are those before the checkpoint, and none of these is missing. -/
theorem TokenUtxoCache.skipPred_inv (h : cache.skipPred checkpoint = some skip) :
    toLex (cache.startBlock, 0) ≤ checkpoint.next ∧
      skip = fun tx => decide (tx.orderingKey < checkpoint.next) := by
  cases checkpoint with
  | block number =>
    rw [skipPred] at h
    split at h
    case isFalse => cases h
    case isTrue hstart =>
      cases h
      constructor
      · simp only [saturatingAdd] at hstart
        simp only [ResolvedBridgeDataCheckpoint.next, endOfBlock, Prod.Lex.toLex_le_toLex]
        omega
      · funext tx
        rw [decide_eq_decide, ResolvedBridgeDataCheckpoint.next, lt_endOfBlock]
  | tx blockNumber txIx =>
    rw [skipPred] at h
    split at h
    case isFalse => cases h
    case isTrue hstart =>
      cases h
      constructor
      · simp only [ResolvedBridgeDataCheckpoint.next, Prod.Lex.toLex_le_toLex]
        omega
      · funext tx
        simp only [ResolvedBridgeDataCheckpoint.next, BridgeTx.orderingKey, Prod.Lex.toLex_le_toLex,
          Prod.Lex.toLex_lt_toLex, decide_eq_decide]
        omega

theorem takeWhile_dropWhile_eq_slice (h : SortedBy BridgeTx.orderingKey l) :
    (l.dropWhile fun tx => decide (tx.orderingKey < a)).takeWhile
        (fun tx => decide (n ≥ tx.blockNumber)) =
      slice BridgeTx.orderingKey a (endOfBlock n) l := by
  have hpred : (fun tx : BridgeTx => decide (n ≥ tx.blockNumber)) =
      fun tx => decide (tx.orderingKey < endOfBlock n) := by
    funext tx
    rw [decide_eq_decide, lt_endOfBlock]
  rw [dropWhile_eq_filter (h.pairwise_lt a), hpred,
    takeWhile_eq_filter ((h.filter _).pairwise_lt (endOfBlock n)), List.filter_filter]
  refine List.filter_congr fun tx _ => ?_
  simp only [← decide_not, not_lt, Bool.and_eq_decide, decide_eq_true_eq, and_comm]

theorem CacheInv.serveFromCache (hcache : CacheInv final cache)
    (h : cache.serveFromCache checkpoint toBlock maxTransfers = some txs) :
    txs = (slice BridgeTx.orderingKey checkpoint.next (endOfBlock toBlock)
      (final.bridgeTxs cache.mcScripts)).take maxTransfers := by
  unfold TokenUtxoCache.serveFromCache at h
  split at h
  · cases h
  · next hend =>
    obtain ⟨skip, hskip, rfl⟩ := Option.map_eq_some_iff.mp h
    obtain ⟨hstart, rfl⟩ := TokenUtxoCache.skipPred_inv hskip
    have hsorted : SortedBy BridgeTx.orderingKey cache.transfers := by
      rw [hcache.transfers]
      exact (final.bridgeTxs_sorted _).slice
    have hle : endOfBlock toBlock ≤ endOfBlock cache.endBlock :=
      endOfBlock_le_endOfBlock.mpr (not_lt.mp hend)
    rw [takeWhile_dropWhile_eq_slice hsorted, hcache.transfers, slice_slice hstart hle]

theorem fetchRange_spec (h : fetchRange cacheLookahead s scripts checkpoint toBlock = .ok f) :
    ∃ stable, s.stable.latestStable = .ok stable ∧
      f.endBlock = min (saturatingAdd u32Max toBlock cacheLookahead) (stable.getD toBlock) ∧
      f.transfers = slice BridgeTx.orderingKey (endOfBlock (f.startBlock - 1))
        (endOfBlock f.endBlock) (s.rows.bridgeTxs scripts) := by
  unfold fetchRange at h
  obtain ⟨stable, hstable, h⟩ := Fallible.of_bind h
  obtain ⟨rows, hrows, h⟩ := Fallible.of_bind h
  cases h
  exact ⟨stable, hstable, rfl, CardanoDb.getBridgeTxs_inv hrows⟩

theorem fetchRange_inv (hs : s.rows.GrowsTo final) (hgenesis : NoneInGenesis final)
    (hblock : block ∈ s.block.blocks)
    (h : fetchRange cacheLookahead s scripts checkpoint block.number = .ok f) :
    f.transfers = slice BridgeTx.orderingKey (toLex (f.startBlock, 0)) (endOfBlock f.endBlock)
      (final.bridgeTxs scripts) := by
  obtain ⟨stable, hstable, hend, hrows⟩ := fetchRange_spec h
  have hknown : ∃ b ∈ s.rows.blocks, f.endBlock ≤ b.number := by
    rw [hend]
    cases stable with
    | none => exact ⟨block, s.block_grows_rows.mem_blocks hblock, min_le_right _ _⟩
    | some n =>
      obtain ⟨b, hb, rfl⟩ := s.stable.stable_mem n hstable
      exact ⟨b, s.stable_grows.mem_blocks hb, min_le_right _ _⟩
  rw [hrows, hs.slice_bridgeTxs hknown]
  cases f.startBlock with
  | zero => exact (hgenesis.slice_zero scripts _).symm
  | succ n => rfl

theorem CacheInv.install (hs : s.rows.GrowsTo final) (hgenesis : NoneInGenesis final)
    (hblock : block ∈ s.block.blocks)
    (h : fetchRange cacheLookahead s cache.mcScripts checkpoint block.number = .ok f) :
    CacheInv final (cache.install f) := by
  have hrows := fetchRange_inv hs hgenesis hblock h
  refine ⟨hrows, fun tx htx => ?_⟩
  have htx : tx ∈ f.transfers := htx
  rw [hrows] at htx
  exact CardanoDb.resolveTxHash_of_mem (mem_slice.mp htx).1

/-! ## Calls -/

variable {R : Type} {tryFrom : List UInt8 → Option R}

/-- The answer to a query that the final database determines. -/
def Answers (tryFrom : List UInt8 → Option R) (final : CardanoDb) (q : Query)
    (result : List (BridgeTransferV1 R) × BridgeDataCheckpoint) : Prop :=
  ∃ b start, final.getBlockByHash q.currentMcBlockHash = .ok b ∧
    final.resolve q.dataCheckpoint = .ok start ∧
    result = txsToTransfers tryFrom ((slice BridgeTx.orderingKey start.next (endOfBlock b.number)
      (final.bridgeTxs q.mainChainScripts)).take q.maxTransfers) q.maxTransfers b.number

theorem Answers.unique (h : Answers tryFrom final q r) (h' : Answers tryFrom final q r') : r = r' := by
  obtain ⟨b, start, hb, hstart, rfl⟩ := h
  obtain ⟨b', start', hb', hstart', rfl⟩ := h'
  obtain rfl : b = b' := Except.ok.inj (hb.symm.trans hb')
  obtain rfl : start = start' := Except.ok.inj (hstart.symm.trans hstart')
  rfl

/-- A call keeps the invariant, and its answer is the one of the final database. -/
theorem CacheInv.getTransfersCached (hcache : CacheInv final cache) (hgenesis : NoneInGenesis final)
    (hs : s.rows.GrowsTo final) (cacheLookahead : Nat) (q : Query) :
    CacheInv final (getTransfersCached tryFrom cacheLookahead s q cache).2 ∧
      ∀ r, (getTransfersCached tryFrom cacheLookahead s q cache).1 = .ok r →
        Answers tryFrom final q r := by
  have hset := hcache.setMcScripts hgenesis q.mainChainScripts
  have hlabel := mcScripts_setMcScripts cache q.mainChainScripts
  unfold Bridge.getTransfersCached
  generalize cache.setMcScripts q.mainChainScripts = cache at hset hlabel ⊢
  cases hb : s.block.getBlockByHash q.currentMcBlockHash with
  | error e => exact ⟨hset, by rintro r ⟨⟩⟩
  | ok b =>
    simp only
    have hblock := (s.block_grows_rows.trans hs).getBlockByHash hb
    cases hc : resolveDataCheckpoint cache s.checkpoint q.dataCheckpoint with
    | error e => exact ⟨hset, by rintro r ⟨⟩⟩
    | ok start =>
      have hstart := hset.resolve (s.checkpoint_grows_rows.trans hs) hc
      -- whichever range the rows are served from, they are those of the final database
      have hserve {cache : TokenUtxoCache} (hcache : CacheInv final cache)
          (hlabel : cache.mcScripts = q.mainChainScripts) {txs : List BridgeTx}
          (h : cache.serveFromCache start b.number q.maxTransfers = some txs) :
          Answers tryFrom final q (txsToTransfers tryFrom txs q.maxTransfers b.number) := by
        refine ⟨b, start, hblock, hstart, ?_⟩
        rw [hcache.serveFromCache h, hlabel]
      simp only
      split
      case h_1 txs htxs =>
        refine ⟨hset, ?_⟩
        rintro r ⟨⟩
        exact hserve hset hlabel htxs
      case h_2 =>
        cases hf : fetchRange cacheLookahead s q.mainChainScripts start b.number with
        | error e => exact ⟨hset, by rintro r ⟨⟩⟩
        | ok f =>
          rw [← hlabel] at hf
          have hinstall : CacheInv final (cache.install f) :=
            .install hs hgenesis (CardanoDb.mem_of_getBlockByHash hb) hf
          simp only
          split
          case h_1 txs htxs =>
            refine ⟨hinstall, ?_⟩
            rintro r ⟨⟩
            exact hserve hinstall hlabel htxs
          case h_2 => exact ⟨hinstall, by rintro r ⟨⟩⟩

theorem CacheInv.run (hgenesis : NoneInGenesis final) (cacheLookahead : Nat)
    (history : List (Snapshots × Query)) (hgrow : ∀ c ∈ history, c.1.rows.GrowsTo final)
    (hcache : CacheInv final cache) :
    CacheInv final (runCached tryFrom cacheLookahead cache history) := by
  induction history generalizing cache with
  | nil => exact hcache
  | cons c history ih =>
    refine ih (fun d hd => hgrow d (List.mem_cons_of_mem c hd)) ?_
    exact (hcache.getTransfersCached hgenesis (hgrow c List.mem_cons_self) cacheLookahead c.2).1

end

/-- After any sequence of calls over a growing database, the caching source and the uncached one give
the same answer to a query whenever both give one. -/
theorem cached_bridge_source_refines {R : Type} (tryFrom : List UInt8 → Option R)
    (final : CardanoDb) (hgenesis : NoneInGenesis final) (cacheLookahead : Nat)
    (history : List (Snapshots × Query)) (hgrow : ∀ c ∈ history, c.1.rows.GrowsTo final)
    (s s' : Snapshots) (hs : s.rows.GrowsTo final) (hs' : s'.rows.GrowsTo final) (q : Query)
    (r r' : List (BridgeTransferV1 R) × BridgeDataCheckpoint)
    (hcached : (getTransfersCached tryFrom cacheLookahead s q
      (runCached tryFrom cacheLookahead .new history)).1 = .ok r)
    (huncached : getTransfers tryFrom s' q = .ok r') : r = r' := by
  have hinv : CacheInv final (runCached tryFrom cacheLookahead .new history) :=
    .run hgenesis cacheLookahead history hgrow (.new hgenesis)
  have hanswer := (hinv.getTransfersCached hgenesis hs cacheLookahead q).2 r hcached
  exact hanswer.unique (getTransfers_inv hs' huncached)

theorem sampleDb_noneInGenesis : NoneInGenesis sampleDb := by
  intro scripts x hx
  obtain ⟨-, tx, htx, rfl⟩ := CardanoDb.mem_bridgeTxs hx
  have hblock : ∀ tx ∈ sampleDb.txs, tx.blockNumber ≠ 0 := by decide
  exact hblock tx htx

/-- A query from the first transaction on, up to the second block. -/
def sampleQuery : Query := ⟨sampleScripts, .tx (.fill 32 11), 2, .fill 32 2⟩

/-- The cache has been filled by a call about the first block, with a lookahead of one block. -/
theorem cached_bridge_source_refines_lookahead :
    ∃ r, (getTransfersCached sampleTryFrom 1 sampleSnapshots sampleQuery
        (runCached sampleTryFrom 1 .new
          [(sampleSnapshots, ⟨sampleScripts, .block 0, 2, .fill 32 1⟩)])).1 = .ok r ∧
      getTransfers sampleTryFrom sampleSnapshots sampleQuery = .ok r ∧
      r.1.map BridgeTransferV1.amount = [3, 4] := by
  obtain ⟨r, hr⟩ : ∃ r, (getTransfersCached sampleTryFrom 1 sampleSnapshots sampleQuery
      (runCached sampleTryFrom 1 .new
        [(sampleSnapshots, ⟨sampleScripts, .block 0, 2, .fill 32 1⟩)])).1 = .ok r := ⟨_, rfl⟩
  obtain ⟨r', hr'⟩ : ∃ r', getTransfers sampleTryFrom sampleSnapshots sampleQuery = .ok r' :=
    ⟨_, rfl⟩
  have hgrow : ∀ c ∈ [(sampleSnapshots, (⟨sampleScripts, .block 0, 2, .fill 32 1⟩ : Query))],
      c.1.rows.GrowsTo sampleDb := by
    intro c hc
    rw [List.mem_singleton.mp hc]
    exact .refl _
  obtain rfl : r = r' := cached_bridge_source_refines sampleTryFrom sampleDb sampleDb_noneInGenesis 1
    _ hgrow sampleSnapshots sampleSnapshots (.refl _) (.refl _) sampleQuery r r' hr hr'
  have hamounts : (getTransfers sampleTryFrom sampleSnapshots sampleQuery).map
      (fun r => r.1.map BridgeTransferV1.amount) = .ok [3, 4] := by decide +kernel
  rw [hr'] at hamounts
  exact ⟨r, hr, hr', Except.ok.inj hamounts⟩

end MidnightNode.Bridge
