import MidnightNode.Toolkit.WalletReplay

/-!
# The cache of wallet states

A build of a context can start from what earlier builds have saved: ledger snapshots by height, and the
state of each wallet at the height of its last build (`tx_generator/builder/mod.rs`,
`fetcher/wallet_state_cache.rs`, `fetcher/fetch_storage/file_backend.rs`). Only contexts of ledger 9 are
saved. Snapshots that no wallet refers to are collected after each save.
-/

namespace MidnightNode.Toolkit

open Fallible KeyedList PartitionPoint MidnightNode.Runtime

/-! ## Contexts across versions -/

/-- The translation of a context to the next version. -/
structure Fork {Seed : Type} (lib lib' : LedgerLibrary Seed) where
  state : lib.State → Option lib'.State
  shielded : lib.Shielded → Option lib'.Shielded
  dust : lib.Dust → Option lib'.Dust
  blockContext : BlockContext → BlockContext

/-- The versions of the ledger, and the keys of the cache: a hash of the scheme and the seed. -/
structure Ledgers (Seed : Type) where
  l7 : LedgerLibrary Seed
  l8 : LedgerLibrary Seed
  l9 : LedgerLibrary Seed
  fork78 : Fork l7 l8
  fork89 : Fork l8 l9
  walletCacheKey : Seed → UnshieldedSignatureScheme → Bytes 32
  walletCacheKey_inj : ∀ {seed seed' scheme scheme'},
    walletCacheKey seed scheme = walletCacheKey seed' scheme' → seed = seed' ∧ scheme = scheme'

inductive ForkAwareLedgerContext {Seed : Type} (ls : Ledgers Seed)
  | ledger7 (ctx : LedgerContext ls.l7)
  | ledger8 (ctx : LedgerContext ls.l8)
  | ledger9 (ctx : LedgerContext ls.l9)

section

variable {Seed : Type}

def Fork.wallet {lib lib' : LedgerLibrary Seed} (fork : Fork lib lib') (w : Wallet lib) :
    Option (Wallet lib') := do
  let shielded ← fork.shielded w.shielded
  let dust ← fork.dust w.dust
  return ⟨shielded, dust⟩

/-- `fork_context_7_to_8` and `fork_context_8_to_9`. A context that has seen no block gets one of the
current time. -/
def Fork.context {lib lib' : LedgerLibrary Seed} (fork : Fork lib lib') (now : BlockContext)
    (ctx : LedgerContext lib) : Option (LedgerContext lib') := do
  let ledgerState ← fork.state ctx.ledgerState
  let wallets ← mapValuesM (fun _ w => fork.wallet w) ctx.wallets
  return ⟨ledgerState, some (fork.blockContext (ctx.latestBlockContext.getD now)), wallets⟩

variable [DecidableEq Seed]

def LedgerContext.newFromWalletSeeds (lib : LedgerLibrary Seed) (seeds : List Seed) :
    LedgerContext lib where
  ledgerState := lib.newState
  latestBlockContext := none
  wallets := seeds.foldl (fun wallets seed => insertKey seed (.new seed lib.newState) wallets) []

variable (ls : Ledgers Seed)

/-- ECDSA identities exist from ledger 9 on. -/
def newFromWalletSeedsWithSchemes (version : LedgerVersion) (seeds : List Seed)
    (schemes : Seed → UnshieldedSignatureScheme) : Option (ForkAwareLedgerContext ls) :=
  match version with
  | .ledger9 => some (.ledger9 (.newFromWalletSeeds ls.l9 seeds))
  | .ledger8 =>
    if ∀ seed ∈ seeds, schemes seed = .schnorr then some (.ledger8 (.newFromWalletSeeds ls.l8 seeds))
    else none
  | .ledger7 =>
    if ∀ seed ∈ seeds, schemes seed = .schnorr then some (.ledger7 (.newFromWalletSeeds ls.l7 seeds))
    else none

def replayBlocks7 (ctx : LedgerContext ls.l7) (blocks : List ExtractedBlock) :
    Option (LedgerContext ls.l7) := replayBlocksOf ctx blocks []

def replayBlocks8 (ctx : LedgerContext ls.l8) (blocks : List ExtractedBlock) :
    Option (LedgerContext ls.l8) := replayBlocksOf ctx blocks []

def replayBlocks9 (ctx : LedgerContext ls.l9) (blocks : List ExtractedBlock)
    (cached : CachedWallets ls.l9) : Option (LedgerContext ls.l9) :=
  replayBlocksOf ctx blocks cached

def fork8To9IfNeeded (now : BlockContext) (ctx8 : LedgerContext ls.l8) (l9Blocks : List ExtractedBlock)
    (cached : CachedWallets ls.l9) : Option (ForkAwareLedgerContext ls) :=
  if l9Blocks.isEmpty then some (.ledger8 ctx8)
  else do
    let ctx9 ← ls.fork89.context now ctx8
    let ctx9 ← replayBlocks9 ls ctx9 l9Blocks cached
    return .ledger9 ctx9

/-- The blocks of each version, by the versions at which a binary search ends. -/
def splitVersions (blocks : List ExtractedBlock) :
    List ExtractedBlock × List ExtractedBlock × List ExtractedBlock :=
  let fork7To8Idx := partitionPoint (fun b => b.ledgerVersion = .ledger7) blocks
  let l8AndL9Blocks := blocks.drop fork7To8Idx
  let fork8To9Idx := partitionPoint (fun b => b.ledgerVersion = .ledger8) l8AndL9Blocks
  (blocks.take fork7To8Idx, l8AndL9Blocks.take fork8To9Idx, l8AndL9Blocks.drop fork8To9Idx)

def replayBlocks (now : BlockContext) (forkCtx : ForkAwareLedgerContext ls)
    (blocks : List ExtractedBlock) (cached : CachedWallets ls.l9) :
    Option (ForkAwareLedgerContext ls) :=
  let (l7Blocks, l8Blocks, l9Blocks) := splitVersions blocks
  match forkCtx with
  | .ledger7 ctx7 => do
    let ctx7 ← replayBlocks7 ls ctx7 l7Blocks
    if l8Blocks.isEmpty && l9Blocks.isEmpty then
      if cached.isEmpty then some (.ledger7 ctx7) else none
    else do
      let ctx8 ← ls.fork78.context now ctx7
      let ctx8 ← replayBlocks8 ls ctx8 l8Blocks
      fork8To9IfNeeded ls now ctx8 l9Blocks cached
  | .ledger8 ctx8 =>
    if l7Blocks.isEmpty then do
      let ctx8 ← replayBlocks8 ls ctx8 l8Blocks
      fork8To9IfNeeded ls now ctx8 l9Blocks cached
    else none
  | .ledger9 ctx9 =>
    if l7Blocks.isEmpty && l8Blocks.isEmpty then do
      let ctx9 ← replayBlocks9 ls ctx9 l9Blocks cached
      return .ledger9 ctx9
    else none

/-- The version of the first block. -/
def initialVersion (blocks : List ExtractedBlock) : LedgerVersion :=
  (blocks.head?.map ExtractedBlock.ledgerVersion).getD .ledger9

def buildForkAwareContextRaw (now : BlockContext) (blocks : List ExtractedBlock) (seeds : List Seed)
    (schemes : Seed → UnshieldedSignatureScheme) : Option (ForkAwareLedgerContext ls) := do
  let ctx ← newFromWalletSeedsWithSchemes ls (initialVersion blocks) seeds schemes
  replayBlocks ls now ctx blocks []

/-! ## The store -/

structure LedgerSnapshot where
  ledgerState : ls.l9.State
  latestBlockContext : BlockContext

/-- The files of one chain. -/
structure WalletStateCache where
  snapshots : List (Nat × LedgerSnapshot ls)
  wallets : List (Bytes 32 × CachedWalletState ls.l9)

variable {ls}

namespace WalletStateCache

def empty : WalletStateCache ls := ⟨[], []⟩

def getLedgerSnapshot (store : WalletStateCache ls) (blockHeight : Nat) : Option (LedgerSnapshot ls) :=
  store.snapshots.lookup blockHeight

def setLedgerSnapshot (store : WalletStateCache ls) (blockHeight : Nat) (snapshot : LedgerSnapshot ls) :
    WalletStateCache ls :=
  { store with snapshots := insertKey blockHeight snapshot store.snapshots }

def getWalletState (store : WalletStateCache ls) (seedHash : Bytes 32) :
    Option (CachedWalletState ls.l9) := store.wallets.lookup seedHash

def writeWalletIfNewer (store : WalletStateCache ls) (seedHash : Bytes 32)
    (state : CachedWalletState ls.l9) : WalletStateCache ls :=
  match store.getWalletState seedHash with
  | some existing =>
    if existing.blockHeight ≥ state.blockHeight then store
    else { store with wallets := insertKey seedHash state store.wallets }
  | none => { store with wallets := insertKey seedHash state store.wallets }

def setWalletStates (store : WalletStateCache ls)
    (states : List (Bytes 32 × CachedWalletState ls.l9)) : WalletStateCache ls :=
  states.foldl (fun store x => store.writeWalletIfNewer x.1 x.2) store

def getAllCachedWalletHeights (store : WalletStateCache ls) : List Nat :=
  store.wallets.map fun x => x.2.blockHeight

/-- Snapshots that are young are kept too. -/
def gcLedgerSnapshots (store : WalletStateCache ls) (keepHeights : List Nat) (young : Nat → Bool) :
    WalletStateCache ls :=
  { store with snapshots := store.snapshots.filter fun x => keepHeights.contains x.1 || young x.1 }

end WalletStateCache

/-- A call of the build: its wallets, the current time, and the snapshots within the grace period. -/
structure CacheRun (Seed : Type) where
  seeds : List Seed
  seeds_nodup : seeds.Nodup
  schemes : Seed → UnshieldedSignatureScheme
  now : BlockContext
  young : Nat → Bool

def trySaveCacheV2 (run : CacheRun Seed) (forkCtx : ForkAwareLedgerContext ls) (blockHeight : Nat)
    (store : WalletStateCache ls) : WalletStateCache ls :=
  match forkCtx with
  | .ledger9 ctx =>
    let store := store.setLedgerSnapshot blockHeight
      ⟨ctx.ledgerState, ctx.latestBlockContext.getD run.now⟩
    let store := store.setWalletStates (run.seeds.filterMap fun seed =>
      (ctx.walletOf seed).map fun w =>
        (ls.walletCacheKey seed (run.schemes seed), ⟨blockHeight, w⟩))
    let keepHeights := store.getAllCachedWalletHeights
    let keepHeights :=
      if keepHeights.contains blockHeight then keepHeights else keepHeights ++ [blockHeight]
    store.gcLedgerSnapshots keepHeights run.young
  | _ => store

/-! ## The build with a cache -/

inductive Panic
  | snapshotMissing (height : Nat)
  | other
deriving DecidableEq, Repr

/-- The cached wallets, in order of their heights, and the other ones. -/
def loadAndPartitionCache (run : CacheRun Seed) (store : WalletStateCache ls) :
    List Seed × CachedWallets ls.l9 :=
  let stateOf := fun seed => store.getWalletState (ls.walletCacheKey seed (run.schemes seed))
  (run.seeds.filter fun seed => (stateOf seed).isNone,
    (run.seeds.filterMap fun seed => (stateOf seed).map (seed, ·)).mergeSort
      fun x y => x.2.blockHeight ≤ y.2.blockHeight)

def initializeContext (run : CacheRun Seed) (blocks : List ExtractedBlock) (uncached : List Seed)
    (startHeight : Nat) (store : WalletStateCache ls) : Except Panic (ForkAwareLedgerContext ls) :=
  if startHeight = 0 then
    okOr .other (newFromWalletSeedsWithSchemes ls (initialVersion blocks) uncached run.schemes)
  else
    match store.getLedgerSnapshot startHeight with
    | none => .error (.snapshotMissing startHeight)
    | some snapshot => .ok (.ledger9 ⟨snapshot.ledgerState, some snapshot.latestBlockContext, []⟩)

/-- A last block with number 0, if other blocks have numbers. -/
def syntheticDustWarp (blocks : List ExtractedBlock) : Option ExtractedBlock :=
  blocks.getLast?.filter fun last => last.number = 0 && blocks.any fun b => b.number > 0

/-- The block is applied to the context only, without its events. -/
def applySynthetic (block : ExtractedBlock) :
    ForkAwareLedgerContext ls → Option (ForkAwareLedgerContext ls)
  | .ledger9 ctx => (ctx.applyBlock block).map fun x =>
      .ledger9 (x.1.updateDustFromBlock (blockContextFromRaw ls.l9 block))
  | .ledger8 ctx => (ctx.applyBlock block).map fun x =>
      .ledger8 (x.1.updateDustFromBlock (blockContextFromRaw ls.l8 block))
  | .ledger7 ctx => (ctx.applyBlock block).map fun x =>
      .ledger7 (x.1.updateDustFromBlock (blockContextFromRaw ls.l7 block))

/-- The result, and the store after the call. -/
def buildForkAwareContextCached (run : CacheRun Seed) (blocks : List ExtractedBlock)
    (store : WalletStateCache ls) :
    Except Panic (ForkAwareLedgerContext ls) × WalletStateCache ls :=
  if run.seeds.isEmpty || (blocks.find? fun b => b.number = 1).isNone then
    (okOr .other (buildForkAwareContextRaw ls run.now blocks run.seeds run.schemes), store)
  else
    let (uncached, cached) := loadAndPartitionCache run store
    let startHeight :=
      if uncached.isEmpty then (cached.head?.map fun c => c.2.blockHeight).getD 0 else 0
    match initializeContext run blocks uncached startHeight store with
    | .error e => (.error e, store)
    | .ok forkCtx =>
      let synthetic := syntheticDustWarp blocks
      let realBlocks := if synthetic.isSome then blocks.dropLast else blocks
      let toReplay := if startHeight = 0 then realBlocks
        else realBlocks.drop (partitionPoint (fun b => b.number ≤ startHeight) realBlocks)
      match replayBlocks ls run.now forkCtx toReplay cached with
      | none => (.error .other, store)
      | some forkCtx =>
        let store :=
          match toReplay.getLast? with
          | none => store
          | some finalBlock => trySaveCacheV2 run forkCtx finalBlock.number store
        match synthetic with
        | none => (.ok forkCtx, store)
        | some block => (okOr .other (applySynthetic block forkCtx), store)

end

/-! ## Sources -/

/-- `RawBlockData::new_from_timestamp` as the source uses it for a dust warp: without transactions, and
with the version of the first block. -/
def dustWarpBlock (chain : List ExtractedBlock) (timestamp : Nat) : ExtractedBlock where
  hash := zeroHash
  parentHash := zeroHash
  number := 0
  ledgerVersion := initialVersion chain
  transactions := []
  tblockSecs := timestamp
  tblockErr := 30
  parentBlockHash := zeroHash
  lastBlockTimeSecs := 0
  stateRoot := none
  state := none

/-- `SourceTransactions::from_blocks`. -/
def fromBlocks (chain : List ExtractedBlock) (dustWarp : Option Nat) : List ExtractedBlock :=
  chain ++ (dustWarp.map (dustWarpBlock chain)).toList

end MidnightNode.Toolkit
