import MidnightNode.Toolkit.ChainPositions

/-!
# Transparency of the cache

A build with a cache gives what a build from the first block gives, whatever builds came before: what is
stored for a wallet is the wallet at a position of the chain, and a snapshot at its height is there. The
exception is a chain that goes from ledger 7 to ledger 8 and ends there. A dust warp block has the
version of the first block, so the replay without a cache takes it for a block of ledger 9.
-/

namespace MidnightNode.Toolkit

open Fallible KeyedList PartitionPoint MidnightNode.Runtime

/-! ## The store -/

section

variable {Seed : Type} {ls : Ledgers Seed}

namespace WalletStateCache

/-- The snapshots and the wallets are those of the chain, and the snapshot of each wallet is there. -/
structure Sound (chain : Chain) (now : BlockContext) (store : WalletStateCache ls) : Prop where
  snapshot : ∀ height snapshot, store.getLedgerSnapshot height = some snapshot →
    (∃ b ∈ ofVersion .ledger9 chain.blocks, b.number = height) ∧
      ∃ p, chain.position ls now height = some p ∧ p.ledgerState = snapshot.ledgerState ∧
        p.latestBlockContext = some snapshot.latestBlockContext
  wallet : ∀ seed scheme c, store.getWalletState (ls.walletCacheKey seed scheme) = some c →
    chain.Saved ls now seed c
  kept : ∀ x ∈ store.wallets, (store.getLedgerSnapshot x.2.blockHeight).isSome

theorem Sound.empty (chain : Chain) (now : BlockContext) :
    (WalletStateCache.empty : WalletStateCache ls).Sound chain now :=
  ⟨(fun _ _ h => nomatch h), (fun _ _ _ h => nomatch h), fun _ h => nomatch h⟩

variable {chain : Chain} {now : BlockContext} {store : WalletStateCache ls}

theorem Sound.isSome_snapshot (h : store.Sound chain now) (hc : store.getWalletState key = some c) :
    (store.getLedgerSnapshot c.blockHeight).isSome :=
  h.kept _ (mem_of_lookup hc)

theorem Sound.blockHeight_le (h : store.Sound chain now) (hc : store.getWalletState key = some c) :
    ofVersion .ledger9 chain.blocks ≠ [] ∧ c.blockHeight ≤ chain.height := by
  obtain ⟨snapshot, hsnapshot⟩ := Option.isSome_iff_exists.mp (h.isSome_snapshot hc)
  obtain ⟨⟨b, hb, hnumber⟩, -⟩ := h.snapshot _ _ hsnapshot
  refine ⟨List.ne_nil_of_mem hb, ?_⟩
  rw [← hnumber]
  exact Chain.number_le_height (mem_ofVersion.mp hb).1

theorem Sound.setLedgerSnapshot (h : store.Sound chain now) {snapshot : LedgerSnapshot ls}
    (hb : b ∈ ofVersion .ledger9 chain.blocks) (hnumber : b.number = height)
    (hp : chain.position ls now height = some p) (hstate : p.ledgerState = snapshot.ledgerState)
    (hlatest : p.latestBlockContext = some snapshot.latestBlockContext) :
    (store.setLedgerSnapshot height snapshot).Sound chain now where
  snapshot height' snapshot' hget := by
    by_cases heq : height' = height
    · obtain rfl := heq
      cases (lookup_insertKey_self _ _ _).symm.trans hget
      exact ⟨⟨b, hb, hnumber⟩, p, hp, hstate, hlatest⟩
    · exact h.snapshot height' snapshot' ((lookup_insertKey_ne heq _ _).symm.trans hget)
  wallet := h.wallet
  kept x hx := by
    by_cases heq : x.2.blockHeight = height
    · rw [heq]
      exact Option.isSome_iff_exists.mpr ⟨snapshot, lookup_insertKey_self _ _ _⟩
    · have hkept := h.kept x hx
      rwa [getLedgerSnapshot, ← lookup_insertKey_ne heq snapshot] at hkept

theorem writeWalletIfNewer_eq (store : WalletStateCache ls) (key : Bytes 32)
    (state : CachedWalletState ls.l9) : store.writeWalletIfNewer key state =
      if ∀ c, store.getWalletState key = some c → c.blockHeight < state.blockHeight then
        { store with wallets := insertKey key state store.wallets }
      else store := by
  rw [writeWalletIfNewer]
  cases store.getWalletState key with
  | none => simp
  | some existing =>
    simp only [Option.some.injEq, forall_eq']
    by_cases hlt : existing.blockHeight < state.blockHeight
    · rw [if_pos hlt, if_neg (not_le.mpr hlt)]
    · rw [if_neg hlt, if_pos (not_lt.mp hlt)]

theorem Sound.writeWalletIfNewer (h : store.Sound chain now)
    (hsnapshot : (store.getLedgerSnapshot c.blockHeight).isSome)
    (hsaved : (∀ c', store.getWalletState (ls.walletCacheKey seed scheme) = some c' →
      c'.blockHeight < c.blockHeight) → chain.Saved ls now seed c) :
    (store.writeWalletIfNewer (ls.walletCacheKey seed scheme) c).Sound chain now := by
  rw [writeWalletIfNewer_eq]
  split
  case isFalse => exact h
  case isTrue hnewer =>
    refine ⟨h.snapshot, fun seed' scheme' c' hc' => ?_, fun x hx => ?_⟩
    · by_cases hkey : ls.walletCacheKey seed' scheme' = ls.walletCacheKey seed scheme
      · rw [hkey] at hc'
        cases (lookup_insertKey_self _ _ _).symm.trans hc'
        rw [(ls.walletCacheKey_inj hkey).1]
        exact hsaved hnewer
      · exact h.wallet seed' scheme' c' ((lookup_insertKey_ne hkey _ _).symm.trans hc')
    · rcases List.mem_cons.mp hx with rfl | hx
      · exact hsnapshot
      · exact h.kept x (List.mem_filter.mp hx).1

theorem exists_getWalletState_writeWalletIfNewer (store : WalletStateCache ls) (key : Bytes 32)
    (state : CachedWalletState ls.l9) :
    ∃ c, (store.writeWalletIfNewer key state).getWalletState key = some c ∧
      state.blockHeight ≤ c.blockHeight := by
  rw [writeWalletIfNewer_eq]
  split
  case isTrue => exact ⟨state, lookup_insertKey_self _ _ _, le_rfl⟩
  case isFalse hold =>
    push Not at hold
    exact hold

theorem getWalletState_writeWalletIfNewer_ne (store : WalletStateCache ls)
    (state : CachedWalletState ls.l9) (hne : key' ≠ key) :
    (store.writeWalletIfNewer key state).getWalletState key' = store.getWalletState key' := by
  rw [writeWalletIfNewer_eq]
  split
  case isTrue => exact lookup_insertKey_ne hne _ _
  case isFalse => rfl

@[simp] theorem getLedgerSnapshot_writeWalletIfNewer (store : WalletStateCache ls) (key : Bytes 32)
    (state : CachedWalletState ls.l9) (height : Nat) :
    (store.writeWalletIfNewer key state).getLedgerSnapshot height = store.getLedgerSnapshot height := by
  rw [writeWalletIfNewer_eq]
  split <;> rfl

theorem Sound.setWalletStates (h : store.Sound chain now)
    (hsnapshot : (store.getLedgerSnapshot height).isSome)
    (hstates : ∀ x ∈ states, x.2.blockHeight = height ∧ ∃ seed scheme,
      x.1 = ls.walletCacheKey seed scheme ∧
        ((∀ c, store.getWalletState x.1 = some c → c.blockHeight < height) →
          chain.Saved ls now seed x.2)) : (store.setWalletStates states).Sound chain now := by
  induction states generalizing store with
  | nil => exact h
  | cons x states ih =>
    obtain ⟨hheight, seed, scheme, hkey, hsaved⟩ := hstates x List.mem_cons_self
    have hwrite : (store.writeWalletIfNewer x.1 x.2).Sound chain now := by
      rw [hkey] at hsaved ⊢
      rw [← hheight] at hsaved hsnapshot
      exact h.writeWalletIfNewer hsnapshot hsaved
    refine ih hwrite (by simpa using hsnapshot) fun y hy => ?_
    obtain ⟨hheight', seed', scheme', hkey', hsaved'⟩ := hstates y (List.mem_cons_of_mem _ hy)
    refine ⟨hheight', seed', scheme', hkey', fun hold => ?_⟩
    by_cases heq : y.1 = x.1
    · -- the key has just been written
      obtain ⟨c, hc, hle⟩ := exists_getWalletState_writeWalletIfNewer store x.1 x.2
      rw [← heq] at hc
      have hlt := hold c (by rwa [heq] at hc ⊢)
      omega
    · refine hsaved' fun c hc => hold c ?_
      rwa [getWalletState_writeWalletIfNewer_ne store x.2 heq]

theorem Sound.gcLedgerSnapshots (h : store.Sound chain now) (young : Nat → Bool)
    (hkeep : ∀ height ∈ store.getAllCachedWalletHeights, height ∈ keepHeights) :
    (store.gcLedgerSnapshots keepHeights young).Sound chain now where
  snapshot height snapshot hget := by
    rw [getLedgerSnapshot, WalletStateCache.gcLedgerSnapshots,
      lookup_filter_key (fun height => keepHeights.contains height || young height)] at hget
    split at hget
    case isTrue => exact h.snapshot height snapshot hget
    case isFalse => cases hget
  wallet := h.wallet
  kept x hx := by
    have hcontains : keepHeights.contains x.2.blockHeight = true :=
      List.contains_iff_mem.mpr (hkeep _ (List.mem_map_of_mem hx))
    rw [getLedgerSnapshot, WalletStateCache.gcLedgerSnapshots,
      lookup_filter_key (fun height => keepHeights.contains height || young height), hcontains]
    exact h.kept x hx

end WalletStateCache

/-! ## Loading -/

namespace CacheRun

variable {run : CacheRun Seed} {store : WalletStateCache ls}

/-- The wallets that the store does not have. -/
abbrev missing (run : CacheRun Seed) (store : WalletStateCache ls) : List Seed :=
  (loadAndPartitionCache run store).1

/-- The wallets that it has, by height. -/
abbrev found (run : CacheRun Seed) (store : WalletStateCache ls) :
    CachedWallets ls.l9 := (loadAndPartitionCache run store).2

theorem mem_uncached : seed ∈ run.missing store ↔ seed ∈ run.seeds ∧
    store.getWalletState (ls.walletCacheKey seed (run.schemes seed)) = none := by
  simp [missing, loadAndPartitionCache]

theorem mem_cached : x ∈ run.found store ↔
    x.1 ∈ run.seeds ∧
      store.getWalletState (ls.walletCacheKey x.1 (run.schemes x.1)) = some x.2 := by
  rw [found, loadAndPartitionCache, List.mem_mergeSort, List.mem_filterMap]
  constructor
  · rintro ⟨seed, hseed, hx⟩
    obtain ⟨c, hc, rfl⟩ := Option.map_eq_some_iff.mp hx
    exact ⟨hseed, hc⟩
  · rintro ⟨hseed, hc⟩
    exact ⟨x.1, hseed, Option.map_eq_some_iff.mpr ⟨x.2, hc, rfl⟩⟩

theorem mem_uncached_or_cached (h : seed ∈ run.seeds) :
    seed ∈ run.missing store ∨ ∃ c, (seed, c) ∈ run.found store := by
  cases hc : store.getWalletState (ls.walletCacheKey seed (run.schemes seed)) with
  | none => exact .inl (mem_uncached.mpr ⟨h, hc⟩)
  | some c => exact .inr ⟨c, mem_cached.mpr ⟨h, hc⟩⟩

theorem disjoint_cached (h : seed ∈ run.missing store) :
    seed ∉ (run.found store).map Prod.fst := by
  intro hmem
  obtain ⟨x, hx, rfl⟩ := List.mem_map.mp hmem
  cases (mem_uncached.mp h).2.symm.trans (mem_cached.mp hx).2

theorem sorted_cached (run : CacheRun Seed) (store : WalletStateCache ls) :
    (run.found store).Pairwise fun x y => x.2.blockHeight ≤ y.2.blockHeight := by
  have hsorted := @List.pairwise_mergeSort (Seed × CachedWalletState ls.l9)
    (fun x y => decide (x.2.blockHeight ≤ y.2.blockHeight))
    (fun x y z hxy hyz => by simp only [decide_eq_true_eq] at *; omega)
    (fun x y => by simp only [Bool.or_eq_true, decide_eq_true_eq]; omega)
    (run.seeds.filterMap fun seed =>
      (store.getWalletState (ls.walletCacheKey seed (run.schemes seed))).map (seed, ·))
  exact hsorted.imp fun h => by simpa using h

theorem nodup_cached (run : CacheRun Seed) (store : WalletStateCache ls) :
    ((run.found store).map Prod.fst).Nodup := by
  refine ((List.mergeSort_perm _ _).map Prod.fst).nodup_iff.mpr ?_
  refine run.seeds_nodup.sublist ?_
  induction run.seeds with
  | nil => exact .slnil
  | cons seed seeds ih =>
    simp only [List.filterMap_cons]
    cases store.getWalletState (ls.walletCacheKey seed (run.schemes seed)) with
    | none => exact ih.cons seed
    | some c => exact ih.cons_cons seed

theorem mergeable_cached (h : blocks.Pairwise fun b b' => b.number < b'.number) :
    Mergeable blocks (run.found store) :=
  ⟨sorted_cached run store, nodup_cached run store, fun _ => h⟩

/-- The height from which the blocks are replayed. -/
def startHeight (run : CacheRun Seed) (store : WalletStateCache ls) : Nat :=
  if (run.missing store).isEmpty then
    ((run.found store).head?.map fun c => c.2.blockHeight).getD 0
  else 0

/-- The start is the lowest height of a wallet, if all are cached. -/
theorem startHeight_spec (h : run.startHeight store ≠ 0) : run.missing store = [] ∧
    (∃ x ∈ run.found store, x.2.blockHeight = run.startHeight store) ∧
      ∀ x ∈ run.found store, run.startHeight store ≤ x.2.blockHeight := by
  have hsorted := sorted_cached run store
  unfold startHeight at h ⊢
  split at h
  case isFalse => exact absurd rfl h
  case isTrue hempty =>
    rw [if_pos hempty]
    cases hcached : run.found store with
    | nil => simp [hcached] at h
    | cons x rest =>
      rw [hcached] at hsorted
      refine ⟨List.isEmpty_iff.mp hempty, ⟨x, List.mem_cons_self, rfl⟩, fun y hy => ?_⟩
      rcases List.mem_cons.mp hy with rfl | hy
      · exact le_rfl
      · exact (List.pairwise_cons.mp hsorted).1 y hy

/-- The blocks above the start of a replay. -/
def toReplay (run : CacheRun Seed) (pre : Chain) (store : WalletStateCache ls) : List ExtractedBlock :=
  if run.startHeight store = 0 then pre.blocks
  else pre.blocks.filter fun b => !decide (b.number ≤ run.startHeight store)

theorem getLast?_toReplay (h : (run.toReplay pre store).getLast? = some b) :
    pre.blocks.getLast? = some b := by
  rw [toReplay] at h
  split at h
  case isTrue => exact h
  case isFalse =>
    obtain ⟨last, hlast, hnumber⟩ := pre.exists_mem_height
    obtain ⟨hb, hlt⟩ := List.mem_filter.mp (List.mem_of_getLast? h)
    have hle := Chain.number_le_height hb
    have hkeep : [last].filter (fun b => !decide (b.number ≤ run.startHeight store)) = [last] := by
      rw [Bool.not_eq_true', decide_eq_false_iff_not] at hlt
      refine List.filter_eq_self.mpr fun b hb => ?_
      cases List.mem_singleton.mp hb
      rw [Bool.not_eq_true', decide_eq_false_iff_not]
      omega
    obtain ⟨init, hinit⟩ := List.getLast?_eq_some_iff.mp hlast
    rw [hinit, List.filter_append, hkeep, List.getLast?_concat] at h
    rw [hlast, h]

end CacheRun

theorem WalletStateCache.Sound.congr {store : WalletStateCache ls} (h : store.Sound chain now)
    (now' : BlockContext) : store.Sound chain now' where
  snapshot height snapshot hget := by
    rw [chain.position_congr ls now' now]
    exact h.snapshot height snapshot hget
  wallet seed scheme c hc := by
    rw [Chain.Saved, chain.position_congr ls now' now]
    exact h.wallet seed scheme c hc
  kept := h.kept

theorem WalletStateCache.Sound.saved {run : CacheRun Seed} (h : store.Sound chain now)
    (hx : x ∈ run.found store) : chain.Saved ls now x.1 x.2 :=
  h.wallet _ _ _ (CacheRun.mem_cached.mp hx).2

/-! ## Saving -/

variable [DecidableEq Seed] {chain : Chain} {now : BlockContext} {store : WalletStateCache ls}

theorem WalletStateCache.Sound.trySaveCacheV2 (h : store.Sound chain now) (run : CacheRun Seed)
    (hb : b ∈ ofVersion .ledger9 chain.blocks) (hp : chain.position ls now b.number = some p)
    (hstate : ctx.ledgerState = p.ledgerState) (hlatest : ctx.latestBlockContext = p.latestBlockContext)
    (hstarted : p.latestBlockContext ≠ none)
    (hwallet : ∀ seed ∈ run.seeds, ∀ w, ctx.walletOf seed = some w →
      (∀ c, store.getWalletState (ls.walletCacheKey seed (run.schemes seed)) = some c →
        c.blockHeight < b.number) → p.wallet seed = some w) :
    (trySaveCacheV2 run (.ledger9 ctx) b.number store).Sound chain now := by
  obtain ⟨latest, hsome⟩ := Option.ne_none_iff_exists'.mp hstarted
  have hset : (store.setLedgerSnapshot b.number
      ⟨ctx.ledgerState, ctx.latestBlockContext.getD run.now⟩).Sound chain now := by
    refine h.setLedgerSnapshot hb rfl hp hstate.symm ?_
    rw [hlatest, hsome]
    rfl
  have hsnapshot : ((store.setLedgerSnapshot b.number
      ⟨ctx.ledgerState, ctx.latestBlockContext.getD run.now⟩).getLedgerSnapshot b.number).isSome :=
    Option.isSome_iff_exists.mpr ⟨_, lookup_insertKey_self _ _ _⟩
  have hwrite : ((store.setLedgerSnapshot b.number
      ⟨ctx.ledgerState, ctx.latestBlockContext.getD run.now⟩).setWalletStates
        (run.seeds.filterMap fun seed => (ctx.walletOf seed).map fun w =>
          (ls.walletCacheKey seed (run.schemes seed), ⟨b.number, w⟩))).Sound chain now := by
    refine hset.setWalletStates hsnapshot fun x hx => ?_
    obtain ⟨seed, hseed, hx⟩ := List.mem_filterMap.mp hx
    obtain ⟨w, hw, rfl⟩ := Option.map_eq_some_iff.mp hx
    exact ⟨rfl, seed, run.schemes seed, rfl, fun hold => ⟨p, hp, hwallet seed hseed w hw hold⟩⟩
  refine hwrite.gcLedgerSnapshots run.young fun height hheight => ?_
  split
  case isTrue => exact hheight
  case isFalse => exact List.mem_append_left _ hheight

/-! ## One build -/

/-- The replay of a build with a cache, without its dust warp block. -/
def resume (run : CacheRun Seed) (pre : Chain) (store : WalletStateCache ls) :
    Except Panic (ForkAwareLedgerContext ls) :=
  match initializeContext run pre.blocks (run.missing store) (run.startHeight store)
      store with
  | .error e => .error e
  | .ok forkCtx =>
    okOr .other (replayBlocks ls run.now forkCtx (run.toReplay pre store) (run.found store))

section

variable {run : CacheRun Seed} {pre : Chain} {dustWarp : Option Nat}

theorem initialVersion_fromBlocks (pre : Chain) (dustWarp : Option Nat) :
    initialVersion (fromBlocks pre.blocks dustWarp) = initialVersion pre.blocks := by
  obtain ⟨b, rest, hb⟩ := List.exists_cons_of_ne_nil pre.nonempty
  rw [fromBlocks, hb]
  rfl

theorem isNone_find?_fromBlocks : ((fromBlocks pre.blocks dustWarp).find? fun b => b.number = 1).isNone ↔
    pre.height = 0 := by
  have hmem : ∀ b ∈ fromBlocks pre.blocks dustWarp, b ∈ pre.blocks ∨ b.number = 0 := by
    intro b hb
    rcases List.mem_append.mp hb with hb | hb
    · exact .inl hb
    · cases dustWarp with
      | none => cases hb
      | some timestamp =>
        cases List.mem_singleton.mp hb
        exact .inr rfl
  rw [Option.isNone_iff_eq_none, List.find?_eq_none]
  constructor
  · intro hnone
    by_contra hne
    have hlt : 1 < pre.blocks.length := by
      rw [Chain.height] at hne
      omega
    exact hnone pre.blocks[1] (List.mem_append_left _ (List.getElem_mem hlt))
      (decide_eq_true (pre.numbered 1 hlt))
  · intro hzero b hb hnumber
    rw [decide_eq_true_eq] at hnumber
    rcases hmem b hb with hb | hb
    · have hle := Chain.number_le_height hb
      omega
    · omega

theorem syntheticDustWarp_fromBlocks (h : pre.height ≠ 0) :
    syntheticDustWarp (fromBlocks pre.blocks dustWarp) = dustWarp.map (dustWarpBlock pre.blocks) := by
  obtain ⟨last, hlast, hnumber⟩ := pre.exists_mem_height
  cases dustWarp with
  | none =>
    rw [fromBlocks, Option.map_none, Option.toList_none, List.append_nil, syntheticDustWarp, hlast]
    simp [hnumber, h]
  | some timestamp =>
    have hany : (fromBlocks pre.blocks (some timestamp)).any (fun b => b.number > 0) = true := by
      refine List.any_eq_true.mpr ⟨last, List.mem_append_left _ (List.mem_of_getLast? hlast), ?_⟩
      rw [decide_eq_true_eq]
      omega
    rw [syntheticDustWarp, hany, fromBlocks]
    simp [dustWarpBlock]

theorem dropLast_fromBlocks (h : pre.height ≠ 0) :
    (if (syntheticDustWarp (fromBlocks pre.blocks dustWarp)).isSome then
      (fromBlocks pre.blocks dustWarp).dropLast else fromBlocks pre.blocks dustWarp) = pre.blocks := by
  rw [syntheticDustWarp_fromBlocks h]
  cases dustWarp with
  | none => exact List.append_nil _
  | some timestamp => exact List.dropLast_concat

/-- Without wallets or a block after the first one there is no cache. -/
theorem buildForkAwareContextCached_raw (h : run.seeds = [] ∨ pre.height = 0) :
    buildForkAwareContextCached run (fromBlocks pre.blocks dustWarp) store =
      (okOr .other (buildForkAwareContextRaw ls run.now (fromBlocks pre.blocks dustWarp) run.seeds
        run.schemes), store) := by
  have hcond : (run.seeds.isEmpty ||
      ((fromBlocks pre.blocks dustWarp).find? fun b => b.number = 1).isNone) = true := by
    rw [Bool.or_eq_true, isNone_find?_fromBlocks, List.isEmpty_iff]
    exact h
  rw [buildForkAwareContextCached, if_pos hcond]

theorem buildForkAwareContextCached_eq (hseeds : run.seeds ≠ []) (h : pre.height ≠ 0) :
    buildForkAwareContextCached run (fromBlocks pre.blocks dustWarp) store =
      match resume run pre store with
      | .error e => (.error e, store)
      | .ok forkCtx =>
        (match dustWarp.map (dustWarpBlock pre.blocks) with
          | none => .ok forkCtx
          | some block => okOr .other (applySynthetic block forkCtx),
        match (run.toReplay pre store).getLast? with
          | none => store
          | some finalBlock => trySaveCacheV2 run forkCtx finalBlock.number store) := by
  have hcond : ¬ (run.seeds.isEmpty ||
      ((fromBlocks pre.blocks dustWarp).find? fun b => b.number = 1).isNone) = true := by
    rw [Bool.or_eq_true, isNone_find?_fromBlocks, List.isEmpty_iff]
    exact not_or.mpr ⟨hseeds, h⟩
  have hdrop : pre.blocks.drop (partitionPoint (fun b => b.number ≤ run.startHeight store) pre.blocks) =
      pre.blocks.filter fun b => !decide (b.number ≤ run.startHeight store) := by
    refine (partitionPoint_of_pairwise pre.ascending fun b b' hlt hb' => ?_).2
    rw [decide_eq_true_eq] at hb' ⊢
    omega
  have hinit (uncached : List Seed) (height : Nat) :
      initializeContext run (fromBlocks pre.blocks dustWarp) uncached height store =
        initializeContext run pre.blocks uncached height store := by
    rw [initializeContext, initialVersion_fromBlocks]
    rfl
  have hreplay : (if run.startHeight store = 0 then pre.blocks else pre.blocks.drop
      (partitionPoint (fun b => b.number ≤ run.startHeight store) pre.blocks)) =
        run.toReplay pre store := by
    rw [hdrop]
    rfl
  rw [buildForkAwareContextCached, if_neg hcond]
  simp only [hinit, dropLast_fromBlocks h]
  rw [syntheticDustWarp_fromBlocks h, resume]
  unfold CacheRun.startHeight CacheRun.missing CacheRun.found at hreplay ⊢
  simp only [hreplay]
  cases initializeContext run pre.blocks (loadAndPartitionCache run store).1 _ store with
  | error e => rfl
  | ok forkCtx =>
    simp only
    cases replayBlocks ls run.now forkCtx (run.toReplay pre store) (loadAndPartitionCache run store).2 with
    | none => rfl
    | some forkCtx => cases dustWarp <;> rfl

theorem resumable_of_enter (h : store.Sound chain run.now) (hpre : pre.blocks <+: chain.blocks)
    (h9 : ofVersion .ledger9 pre.blocks ≠ [])
    (hctx : enterLedger9 ls run.now (initialVersion pre.blocks) (run.missing store)
      (ofVersion .ledger7 pre.blocks) (ofVersion .ledger8 pre.blocks) = some ctx) :
    ∃ entry, Resumable ls run.now chain pre.height entry entry ctx (run.missing store)
      (run.found store) [] (ofVersion .ledger9 pre.blocks) := by
  obtain ⟨entry, hentry, htracks⟩ := enterLedger9_tracks hctx
  rw [Chain.initialVersion_prefix hpre, Chain.ofVersion_prefix hpre h9 (by decide),
    Chain.ofVersion_prefix hpre h9 (by decide)] at hentry
  refine ⟨entry, hentry, Position.replay_nil entry, htracks, Chain.ofVersion_ledger9_prefix hpre,
    fun x _ hle => ?_, CacheRun.mergeable_cached (pre.ascending.sublist List.filter_sublist),
    fun x hx => h.saved hx, fun seed hseed => CacheRun.disjoint_cached hseed⟩
  rw [List.nil_append, Chain.ofVersion_ledger9_prefix hpre, Chain.upTo, Chain.upTo, List.filter_filter]
  refine List.filter_congr fun b _ => ?_
  rw [← Bool.decide_and, decide_eq_decide]
  omega

omit [DecidableEq Seed] in
theorem exists_startSnapshot (h : store.Sound chain now) (hstart : run.startHeight store ≠ 0) :
    ∃ snapshot, store.getLedgerSnapshot (run.startHeight store) = some snapshot := by
  obtain ⟨-, ⟨x, hx, hheight⟩, -⟩ := CacheRun.startHeight_spec hstart
  rw [← hheight]
  exact Option.isSome_iff_exists.mp (h.isSome_snapshot (CacheRun.mem_cached.mp hx).2)

theorem resumable_of_snapshot (h : store.Sound chain run.now) (hstart : run.startHeight store ≠ 0)
    (hle : run.startHeight store ≤ pre.height) :
    ∃ snapshot entry q, store.getLedgerSnapshot (run.startHeight store) = some snapshot ∧
      Resumable ls run.now chain pre.height entry q
        ⟨snapshot.ledgerState, some snapshot.latestBlockContext, []⟩
        (run.missing store) (run.found store)
        (chain.upTo (run.startHeight store)) (chain.between (run.startHeight store) pre.height) := by
  obtain ⟨huncached, -, hmin⟩ := CacheRun.startHeight_spec hstart
  obtain ⟨snapshot, hsnapshot⟩ := exists_startSnapshot h hstart
  obtain ⟨-, q, hq, hstate, hlatest⟩ := h.snapshot _ _ hsnapshot
  obtain ⟨entry, hentry, hq⟩ := Option.bind_eq_some_iff.mp hq
  refine ⟨snapshot, entry, q, hsnapshot, hentry, hq, ⟨⟨hstate.symm, hlatest.symm, ?_⟩, .nil, ?_⟩,
    (Chain.upTo_append hle).symm, fun y hy hyle => ?_,
    CacheRun.mergeable_cached (chain.ascending.sublist (List.filter_sublist.trans List.filter_sublist)),
    fun x hx => h.saved hx, fun seed hseed => CacheRun.disjoint_cached hseed⟩
  · rw [huncached]
    exact fun seed hseed => nomatch hseed
  · exact fun seed hseed => nomatch hseed
  · rw [Chain.upTo_append (hmin y hy)]
    congr 1
    rw [Chain.between, Chain.between, List.filter_filter]
    refine List.filter_congr fun b _ => ?_
    rw [← Bool.decide_and, decide_eq_decide]
    omega

theorem resume_eq_of_zero (h : run.startHeight store = 0) : resume run pre store =
    okOr .other ((newFromWalletSeedsWithSchemes ls (initialVersion pre.blocks)
      (run.missing store) run.schemes).bind fun ctx =>
        replayBlocks ls run.now ctx pre.blocks (run.found store)) := by
  rw [resume, initializeContext, if_pos h, CacheRun.toReplay, if_pos h]
  cases newFromWalletSeedsWithSchemes ls (initialVersion pre.blocks)
    (run.missing store) run.schemes <;> rfl

theorem resume_eq_of_snapshot (h : store.Sound chain run.now) (hpre : pre.blocks <+: chain.blocks)
    (hstart : run.startHeight store ≠ 0)
    (hsnapshot : store.getLedgerSnapshot (run.startHeight store) = some snapshot) :
    run.toReplay pre store = chain.between (run.startHeight store) pre.height ∧
    resume run pre store = okOr .other ((replayBlocksOf
      ⟨snapshot.ledgerState, some snapshot.latestBlockContext, []⟩
      (chain.between (run.startHeight store) pre.height) (run.found store)).map
        .ledger9) := by
  obtain ⟨⟨b, hb, hnumber⟩, -⟩ := h.snapshot _ _ hsnapshot
  have hreplay : run.toReplay pre store = chain.between (run.startHeight store) pre.height := by
    rw [CacheRun.toReplay, if_neg hstart]
    exact Chain.filter_prefix hpre hb hnumber
  have hsplit : splitVersions (chain.between (run.startHeight store) pre.height) =
      ([], [], chain.between (run.startHeight store) pre.height) :=
    splitVersions_of_forall fun b hb => (mem_ofVersion.mp (List.mem_filter.mp hb).1).2
  refine ⟨hreplay, ?_⟩
  rw [resume, initializeContext, if_neg hstart, hsnapshot, hreplay]
  simp only [replayBlocks, hsplit, List.isEmpty_nil, Bool.and_self, if_true, replayBlocks9]
  cases replayBlocksOf _ _ (run.found store) <;> rfl

theorem Chain.initialVersion_before (pre : Chain) :
    (initialVersion pre.blocks = .ledger8 → ofVersion .ledger7 pre.blocks = []) ∧
      (initialVersion pre.blocks = .ledger9 →
        ofVersion .ledger7 pre.blocks = [] ∧ ofVersion .ledger8 pre.blocks = []) := by
  refine ⟨fun h => ?_, fun h => ⟨?_, ?_⟩⟩ <;> exact Chain.ofVersion_eq_nil_of_lt (by rw [h]; decide)

/-- A replay that reaches ledger 9 is at the position of its height. -/
theorem resume_agrees (h : store.Sound chain run.now)
    (habsorbs : AbsorbsTtls ls.l9 (ofVersion .ledger9 chain.blocks)) (hpre : pre.blocks <+: chain.blocks)
    (hok : resume run pre store = .ok forkCtx)
    (h9 : run.startHeight store = 0 → ofVersion .ledger9 pre.blocks ≠ [])
    (hle : run.startHeight store ≤ pre.height) :
    ∃ ctx p, forkCtx = .ledger9 ctx ∧ chain.position ls run.now pre.height = some p ∧
      ∀ seeds : List Seed, (∀ seed ∈ seeds, seed ∈ run.seeds ∧ ∀ c,
        store.getWalletState (ls.walletCacheKey seed (run.schemes seed)) = some c →
          c.blockHeight ≤ pre.height) → Agrees ctx p seeds := by
  have hseeds (seeds : List Seed) (hseeds : ∀ seed ∈ seeds, seed ∈ run.seeds ∧ ∀ c,
        store.getWalletState (ls.walletCacheKey seed (run.schemes seed)) = some c →
          c.blockHeight ≤ pre.height) : ∀ seed ∈ seeds, seed ∈ run.missing store ∨
            ∃ c, (seed, c) ∈ run.found store ∧ c.blockHeight ≤ pre.height := by
    intro seed hseed
    obtain ⟨hseed, hheight⟩ := hseeds seed hseed
    rcases CacheRun.mem_uncached_or_cached hseed with huncached | ⟨c, hc⟩
    · exact .inl huncached
    · exact .inr ⟨c, hc, hheight c (CacheRun.mem_cached.mp hc).2⟩
  by_cases hstart : run.startHeight store = 0
  · rw [resume_eq_of_zero hstart] at hok
    have hreplay := of_okOr hok
    obtain ⟨-, ctx, ctx', hctx, hctx', rfl⟩ := (replayFrom_eq_some (splitVersions_eq pre.ordered)
      (h9 hstart) pre.initialVersion_before.1 pre.initialVersion_before.2).mp hreplay
    obtain ⟨entry, hresumable⟩ := resumable_of_enter h hpre (h9 hstart) hctx
    obtain ⟨p, hp, hagrees⟩ := hresumable.agrees habsorbs hctx'
    exact ⟨ctx', p, rfl, hp, fun seeds hs => hagrees seeds (hseeds seeds hs)⟩
  · obtain ⟨snapshot, entry, q, hsnapshot, hresumable⟩ := resumable_of_snapshot h hstart hle
    rw [(resume_eq_of_snapshot h hpre hstart hsnapshot).2] at hok
    obtain ⟨ctx', hctx', rfl⟩ := Option.map_eq_some_iff.mp (of_okOr hok)
    obtain ⟨p, hp, hagrees⟩ := hresumable.agrees habsorbs hctx'
    exact ⟨ctx', p, rfl, hp, fun seeds hs => hagrees seeds (hseeds seeds hs)⟩

theorem exists_resume_eq (h : store.Sound chain run.now)
    (habsorbs : AbsorbsTtls ls.l9 (ofVersion .ledger9 chain.blocks)) (hpre : pre.blocks <+: chain.blocks)
    (hp : chain.position ls run.now pre.height = some p)
    (hwallet : ∀ seed ∈ run.seeds, (p.wallet seed).isSome)
    (hschemes : SchemesAllowed (initialVersion pre.blocks) run.seeds run.schemes)
    (h9 : ofVersion .ledger9 pre.blocks ≠ [])
    (hheights : ∀ x ∈ run.found store, x.2.blockHeight ≤ pre.height) :
    ∃ forkCtx, resume run pre store = .ok forkCtx := by
  have huncached : ∀ seed ∈ run.missing store, (p.wallet seed).isSome :=
    fun seed hseed => hwallet seed (CacheRun.mem_uncached.mp hseed).1
  have hcached : ∀ x ∈ run.found store,
      x.2.blockHeight ≤ pre.height ∧ (p.wallet x.1).isSome :=
    fun x hx => ⟨hheights x hx, hwallet x.1 (CacheRun.mem_cached.mp hx).1⟩
  by_cases hstart : run.startHeight store = 0
  · obtain ⟨entry, hentry, hreplay⟩ := Option.bind_eq_some_iff.mp hp
    rw [← Chain.initialVersion_prefix hpre, ← Chain.ofVersion_prefix hpre h9 (by decide),
      ← Chain.ofVersion_prefix hpre h9 (by decide)] at hentry
    obtain ⟨ctx, hctx⟩ := exists_enterLedger9_eq hentry fun seed hseed =>
      (replay_follows _).wallet hreplay (huncached seed hseed)
    obtain ⟨entry', hresumable⟩ := resumable_of_enter h hpre h9 hctx
    obtain ⟨ctx', hctx'⟩ := hresumable.exists_replay habsorbs hp huncached hcached
    have hschemes' : SchemesAllowed (initialVersion pre.blocks) (run.missing store)
        run.schemes :=
      hschemes.imp_right fun hall seed hseed => hall seed (CacheRun.mem_uncached.mp hseed).1
    refine ⟨.ledger9 ctx', ?_⟩
    rw [resume_eq_of_zero hstart, (replayFrom_eq_some (splitVersions_eq pre.ordered) h9
      pre.initialVersion_before.1 pre.initialVersion_before.2).mpr
        ⟨hschemes', ctx, ctx', hctx, hctx', rfl⟩]
    rfl
  · obtain ⟨-, ⟨x, hx, hheight⟩, -⟩ := CacheRun.startHeight_spec hstart
    have hle : run.startHeight store ≤ pre.height := hheight ▸ hheights x hx
    obtain ⟨snapshot, entry, q, hsnapshot, hresumable⟩ := resumable_of_snapshot h hstart hle
    obtain ⟨ctx', hctx'⟩ := hresumable.exists_replay habsorbs hp huncached hcached
    refine ⟨.ledger9 ctx', ?_⟩
    rw [(resume_eq_of_snapshot h hpre hstart hsnapshot).2, hctx']
    rfl

/-- Nothing below ledger 9 ends in ledger 9. -/
theorem ledger9_of_replayFrom
    (h : ((newFromWalletSeedsWithSchemes ls (initialVersion pre.blocks) seeds schemes).bind fun ctx =>
      replayBlocks ls now ctx pre.blocks cached) = some (.ledger9 ctx)) :
    ofVersion .ledger9 pre.blocks ≠ [] := by
  intro hnone
  have hsplit := splitVersions_eq pre.ordered
  rw [hnone] at hsplit
  obtain ⟨forkCtx, hnew, h⟩ := Option.bind_eq_some_iff.mp h
  rw [replayBlocks, hsplit] at h
  cases hversion : initialVersion pre.blocks with
  | ledger9 =>
    obtain ⟨h7, h8⟩ := pre.initialVersion_before.2 hversion
    exact pre.nonempty (by rw [pre.blocks_eq, h7, h8, hnone]; rfl)
  | ledger8 =>
    rw [hversion, newFromWalletSeedsWithSchemes] at hnew
    split at hnew
    case isFalse => cases hnew
    case isTrue =>
      cases hnew
      simp [fork8To9IfNeeded, Option.bind_eq_some_iff] at h
  | ledger7 =>
    rw [hversion, newFromWalletSeedsWithSchemes] at hnew
    split at hnew
    case isFalse => cases hnew
    case isTrue =>
      cases hnew
      simp only [fork8To9IfNeeded, List.isEmpty_nil, if_true, Bool.and_true, Option.bind_eq_bind] at h
      obtain ⟨ctx7, -, h⟩ := Option.bind_eq_some_iff.mp h
      split at h
      case isTrue =>
        split at h <;> cases h
      case isFalse =>
        obtain ⟨ctx8, -, h⟩ := Option.bind_eq_some_iff.mp h
        obtain ⟨ctx8', -, h⟩ := Option.bind_eq_some_iff.mp h
        cases h

/-! ## All builds -/

theorem Chain.ledger9_of_getLast? (h9 : ofVersion .ledger9 pre.blocks ≠ [])
    (hlast : pre.blocks.getLast? = some b) : b ∈ ofVersion .ledger9 pre.blocks := by
  have hlast9 := List.getLast?_eq_some_getLast h9
  rw [pre.blocks_eq, ← List.append_assoc, List.getLast?_append, hlast9] at hlast
  cases hlast
  exact List.getLast_mem h9

/-- A build keeps the store sound, however it ends. -/
theorem WalletStateCache.Sound.build (h : store.Sound chain now)
    (habsorbs : AbsorbsTtls ls.l9 (ofVersion .ledger9 chain.blocks))
    (hpre : pre.blocks <+: chain.blocks) (run : CacheRun Seed) (dustWarp : Option Nat) :
    (buildForkAwareContextCached run (fromBlocks pre.blocks dustWarp) store).2.Sound chain now := by
  by_cases hraw : run.seeds = [] ∨ pre.height = 0
  · rw [buildForkAwareContextCached_raw hraw]
    exact h
  obtain ⟨hseeds, hheight⟩ := not_or.mp hraw
  rw [buildForkAwareContextCached_eq hseeds hheight]
  cases hresume : resume run pre store with
  | error e => exact h
  | ok forkCtx =>
  simp only
  cases hlast : (run.toReplay pre store).getLast? with
  | none => exact h
  | some b =>
  cases forkCtx with
  | ledger7 ctx => exact h
  | ledger8 ctx => exact h
  | ledger9 ctx =>
    have h' := h.congr run.now
    have hb := CacheRun.getLast?_toReplay hlast
    obtain ⟨last, hlast', hnumber⟩ := pre.exists_mem_height
    cases hb.symm.trans hlast'
    have h9 : run.startHeight store = 0 → ofVersion .ledger9 pre.blocks ≠ [] := by
      intro hstart
      rw [resume_eq_of_zero hstart] at hresume
      exact ledger9_of_replayFrom (of_okOr hresume)
    -- the replay ends with a block of ledger 9 above its start
    have hlater : run.startHeight store ≤ pre.height ∧ b ∈ ofVersion .ledger9 chain.blocks := by
      by_cases hstart : run.startHeight store = 0
      · refine ⟨by omega, ?_⟩
        exact (hpre.sublist.filter _).subset (Chain.ledger9_of_getLast? (h9 hstart) hb)
      · obtain ⟨snapshot, hsnapshot⟩ := exists_startSnapshot h hstart
        obtain ⟨⟨b₀, hb₀, hnumber₀⟩, -⟩ := h.snapshot _ _ hsnapshot
        have hmem := List.mem_of_getLast? hlast
        rw [CacheRun.toReplay, if_neg hstart] at hmem
        have hlt : run.startHeight store < b.number := by simpa using (List.mem_filter.mp hmem).2
        have hbchain := hpre.subset (List.mem_of_getLast? hb)
        exact ⟨by omega, mem_ofVersion.mpr ⟨hbchain, Chain.ledger9_of_lt hb₀ hbchain (by omega)⟩⟩
    obtain ⟨ctx', p, hctx', hp, hagrees⟩ := resume_agrees h' habsorbs hpre hresume h9 hlater.1
    cases hctx'
    have hnone := hagrees [] fun seed hseed => nomatch hseed
    have hstarted : p.latestBlockContext ≠ none := by
      obtain ⟨entry, -, hreplay⟩ := Option.bind_eq_some_iff.mp hp
      refine Position.latestBlockContext_ne_none hreplay (.inl (List.ne_nil_of_mem (a := b) ?_))
      exact List.mem_filter.mpr ⟨hlater.2, decide_eq_true hnumber.le⟩
    rw [← hnumber] at hp
    refine (h'.trySaveCacheV2 run hlater.2 hp hnone.ledgerState hnone.latest hstarted
      fun seed hseed w hw hold => ?_).congr now
    have hseed' := hagrees [seed] fun s hs => by
      cases List.mem_singleton.mp hs
      exact ⟨hseed, fun c hc => by have := hold c hc; omega⟩
    obtain ⟨w', hw', hlookup⟩ := hseed'.wallet seed (List.mem_singleton_self seed)
    cases hw.symm.trans hlookup
    exact hw'

end

/-! ## Histories -/

def Chain.take (chain : Chain) (length : Nat) (h : 0 < length) : Chain where
  blocks := chain.blocks.take length
  numbered i hi := by
    rw [List.getElem_take]
    exact chain.numbered i _
  ordered := chain.ordered.sublist (List.take_sublist _ _)
  nonempty hnil := by
    rcases List.take_eq_nil_iff.mp hnil with hzero | hnil
    · omega
    · exact chain.nonempty hnil

/-- A build on the first blocks of a chain. -/
structure EarlierBuild (Seed : Type) where
  run : CacheRun Seed
  length : Nat
  dustWarp : Option Nat

def EarlierBuild.apply (chain : Chain) (store : WalletStateCache ls) (build : EarlierBuild Seed) :
    WalletStateCache ls :=
  (buildForkAwareContextCached build.run (fromBlocks (chain.blocks.take build.length) build.dustWarp)
    store).2

/-- The store after some builds, one after another. -/
def storeAfter (ls : Ledgers Seed) (chain : Chain) (builds : List (EarlierBuild Seed)) :
    WalletStateCache ls := builds.foldl (EarlierBuild.apply chain) .empty

theorem buildForkAwareContextCached_nil (run : CacheRun Seed) (dustWarp : Option Nat) :
    (buildForkAwareContextCached run (fromBlocks [] dustWarp) store).2 = store := by
  have hfind : ((fromBlocks [] dustWarp).find? fun b => b.number = 1).isNone = true := by
    cases dustWarp <;> rfl
  rw [buildForkAwareContextCached, if_pos (by rw [hfind, Bool.or_true])]

theorem WalletStateCache.Sound.apply (h : store.Sound chain now)
    (habsorbs : AbsorbsTtls ls.l9 (ofVersion .ledger9 chain.blocks)) (build : EarlierBuild Seed) :
    (build.apply chain store).Sound chain now := by
  rw [EarlierBuild.apply]
  rcases Nat.eq_zero_or_pos build.length with hzero | hpos
  · rw [hzero, List.take_zero, buildForkAwareContextCached_nil]
    exact h
  · have hpre : (chain.take build.length hpos).blocks <+: chain.blocks := List.take_prefix _ _
    exact h.build habsorbs hpre build.run build.dustWarp

theorem sound_storeAfter (habsorbs : AbsorbsTtls ls.l9 (ofVersion .ledger9 chain.blocks))
    (now : BlockContext) (builds : List (EarlierBuild Seed)) :
    (storeAfter ls chain builds).Sound chain now := by
  induction builds using List.reverseRecOn with
  | nil => exact .empty chain now
  | append_singleton builds build ih =>
    rw [storeAfter, List.foldl_concat]
    exact ih.apply habsorbs build

/-! ## The same context -/

structure LedgerContext.Same {lib : LedgerLibrary Seed} (ctx ctx' : LedgerContext lib)
    (seeds : List Seed) : Prop where
  ledgerState : ctx.ledgerState = ctx'.ledgerState
  latest : ctx.latestBlockContext = ctx'.latestBlockContext
  wallet : ∀ seed ∈ seeds, ctx.walletOf seed = ctx'.walletOf seed

/-- The contexts have the same version, and there the same ledger and the same wallets. -/
def ForkAwareLedgerContext.Same (seeds : List Seed) :
    ForkAwareLedgerContext ls → ForkAwareLedgerContext ls → Prop
  | .ledger7 ctx, .ledger7 ctx' => ctx.Same ctx' seeds
  | .ledger8 ctx, .ledger8 ctx' => ctx.Same ctx' seeds
  | .ledger9 ctx, .ledger9 ctx' => ctx.Same ctx' seeds
  | _, _ => False

theorem ForkAwareLedgerContext.Same.refl (seeds : List Seed) (forkCtx : ForkAwareLedgerContext ls) :
    Same seeds forkCtx forkCtx := by
  cases forkCtx <;> exact ⟨rfl, rfl, fun _ _ => rfl⟩

theorem Agrees.same {lib : LedgerLibrary Seed} {ctx ctx' : LedgerContext lib} {p : Position lib}
    {seeds : List Seed} (h : Agrees ctx p seeds) (h' : Agrees ctx' p seeds) : ctx.Same ctx' seeds where
  ledgerState := h.ledgerState.trans h'.ledgerState.symm
  latest := h.latest.trans h'.latest.symm
  wallet seed hseed := by
    obtain ⟨w, hw, hlookup⟩ := h.wallet seed hseed
    obtain ⟨w', hw', hlookup'⟩ := h'.wallet seed hseed
    cases hw.symm.trans hw'
    rw [hlookup, hlookup']

/-- A last block without transactions is replayed with the others, or applied to what they give. -/
theorem replayBlocksOf_concat {seeds : List Seed} (habsorbs : AbsorbsTtls lib (blocks ++ [last]))
    (htxs : last.transactions = [])
    (h : replayBlocksOf (.newFromWalletSeeds lib seeds) (blocks ++ [last]) [] = some ctx) :
    ∃ ctx₀ ctx₁ events, replayBlocksOf (.newFromWalletSeeds lib seeds) blocks [] = some ctx₀ ∧
      ctx₀.applyBlock last = some (ctx₁, events) ∧
        ctx.Same (ctx₁.updateDustFromBlock (blockContextFromRaw lib last)) seeds := by
  obtain ⟨p, hp, htracks⟩ := (replay_follows (blocks ++ [last])).sound (.new lib seeds) h
  rw [Position.replay_append habsorbs] at hp
  obtain ⟨p₀, hp₀, hp⟩ := Option.bind_eq_some_iff.mp hp
  have hwallet : ∀ seed ∈ seeds, (p₀.wallet seed).isSome := by
    intro seed hseed
    obtain ⟨w, hw, -⟩ := htracks.wallet seed hseed
    exact (replay_follows [last]).wallet hp (Option.isSome_iff_exists.mpr ⟨w, hw⟩)
  obtain ⟨ctx₀, hctx₀⟩ := (replay_follows blocks).complete (.new lib seeds) hp₀ hwallet
  obtain ⟨p₀', hp₀', htracks₀⟩ := (replay_follows blocks).sound (.new lib seeds) hctx₀
  cases hp₀.symm.trans hp₀'
  obtain ⟨ctx₁, events, happly, hagrees⟩ := htracks₀.toAgrees.applyBlock htxs hp
  exact ⟨ctx₀, ctx₁, events, hctx₀, happly, htracks.toAgrees.same hagrees⟩

theorem Follows.same {lib : LedgerLibrary Seed} {f f' : LedgerContext lib → Option (LedgerContext lib)}
    {g : Position lib → Option (Position lib)} {ctx ctx₁ : LedgerContext lib} (hf : Follows f g)
    (hf' : Follows f' g) {p : Position lib} (htracks : Tracks ctx p seeds) (h : f ctx = some ctx₁) :
    ∃ ctx₂, f' ctx = some ctx₂ ∧ ctx₁.Same ctx₂ seeds := by
  obtain ⟨p₁, hp₁, htracks₁⟩ := hf.sound htracks h
  obtain ⟨ctx₂, h'⟩ := hf'.complete htracks hp₁ fun seed hseed => by
    obtain ⟨w, hw, -⟩ := htracks₁.wallet seed hseed
    exact Option.isSome_iff_exists.mpr ⟨w, hw⟩
  obtain ⟨p₂, hp₂, htracks₂⟩ := hf'.sound htracks h'
  cases hp₁.symm.trans hp₂
  exact ⟨ctx₂, h', htracks₁.toAgrees.same htracks₂.toAgrees⟩

/-- Blocks can be replayed in two parts, although each part flushes its dust events. -/
theorem replay_in_parts (lib : LedgerLibrary Seed) (seeds : List Seed) (blocks blocks' : List ExtractedBlock)
    (habsorbs : AbsorbsTtls lib (blocks ++ blocks')) :
    let whole := replayBlocksOf (.newFromWalletSeeds lib seeds) (blocks ++ blocks') []
    let parts := (replayBlocksOf (.newFromWalletSeeds lib seeds) blocks []).bind
      fun ctx => replayBlocksOf ctx blocks' []
    (∀ ctx, whole = some ctx → ∃ ctx', parts = some ctx' ∧ ctx.Same ctx' seeds) ∧
      ∀ ctx, parts = some ctx → ∃ ctx', whole = some ctx' ∧ ctx.Same ctx' seeds := by
  have hwhole := @replay_follows _ lib _ (blocks ++ blocks')
  have hparts := (@replay_follows _ lib _ blocks).bind (replay_follows blocks')
  simp only [Position.replay_append habsorbs] at hwhole
  exact ⟨fun _ => hwhole.same hparts (.new lib seeds), fun _ => hparts.same hwhole (.new lib seeds)⟩

/-! ## The current time -/

theorem latestBlockContext_replayBlocksOf {lib : LedgerLibrary Seed} {ctx ctx' : LedgerContext lib}
    (h : replayBlocksOf ctx blocks [] = some ctx')
    (hstarted : blocks ≠ [] ∨ ctx.latestBlockContext ≠ none) : ctx'.latestBlockContext ≠ none := by
  obtain ⟨outputs, hreplayed⟩ := replayBlocksOf_spec (.nil blocks) h
  rw [hreplayed.latest]
  cases hlast : blocks.getLast? with
  | none => exact hstarted.resolve_left fun hne => hne (List.getLast?_eq_none_iff.mp hlast)
  | some block => exact Option.some_ne_none _

theorem fork8To9IfNeeded_congr (now now' : BlockContext) (h : ctx.latestBlockContext ≠ none)
    (blocks : List ExtractedBlock) (cached : CachedWallets ls.l9) :
    fork8To9IfNeeded ls now ctx blocks cached = fork8To9IfNeeded ls now' ctx blocks cached := by
  rw [fork8To9IfNeeded, fork8To9IfNeeded, Fork.context_congr ls.fork89 now now' h]

/-- A build without a cache does not depend on the time it is made at. -/
theorem buildForkAwareContextRaw_congr (now now' : BlockContext)
    (h7 : initialVersion blocks = .ledger7 → (splitVersions blocks).1 ≠ [])
    (h8 : initialVersion blocks = .ledger8 → (splitVersions blocks).2.1 ≠ []) (seeds : List Seed)
    (schemes : Seed → UnshieldedSignatureScheme) :
    buildForkAwareContextRaw ls now blocks seeds schemes =
      buildForkAwareContextRaw ls now' blocks seeds schemes := by
  rw [buildForkAwareContextRaw, buildForkAwareContextRaw]
  cases hversion : initialVersion blocks with
  | ledger9 => rfl
  | ledger8 =>
    rw [newFromWalletSeedsWithSchemes]
    split
    case isFalse => rfl
    case isTrue =>
      simp only [Option.bind_eq_bind, Option.bind_some, replayBlocks]
      split
      case isFalse => rfl
      case isTrue =>
        refine Option.bind_congr fun ctx8 hctx8 => fork8To9IfNeeded_congr now now' ?_ _ _
        exact latestBlockContext_replayBlocksOf hctx8 (.inl (h8 hversion))
  | ledger7 =>
    rw [newFromWalletSeedsWithSchemes]
    split
    case isFalse => rfl
    case isTrue =>
      simp only [Option.bind_eq_bind, Option.bind_some, replayBlocks]
      refine Option.bind_congr fun ctx7 hctx7 => ?_
      split
      case isTrue => rfl
      case isFalse =>
        rw [Fork.context_congr ls.fork78 now now'
          (latestBlockContext_replayBlocksOf hctx7 (.inl (h7 hversion)))]
        refine Option.bind_congr fun ctx8 hctx8 => Option.bind_congr fun ctx8' hctx8' =>
          fork8To9IfNeeded_congr now now' ?_ _ _
        obtain ⟨state, -, hfork⟩ := Option.bind_eq_some_iff.mp hctx8
        obtain ⟨wallets, -, hfork⟩ := Option.bind_eq_some_iff.mp hfork
        cases hfork
        exact latestBlockContext_replayBlocksOf hctx8' (.inr (Option.some_ne_none _))

/-! ## Transparency -/

section

variable {run : CacheRun Seed} {dustWarp : Option Nat} {raw : ForkAwareLedgerContext ls}

theorem okOr_ne_snapshotMissing {α : Type} (o : Option α) (height : Nat) :
    okOr Panic.other o ≠ .error (.snapshotMissing height) := by
  cases o <;> exact fun heq => nomatch heq

theorem resume_ne_snapshotMissing (h : store.Sound chain now) (pre : Chain) (height : Nat) :
    resume run pre store ≠ .error (.snapshotMissing height) := by
  by_cases hstart : run.startHeight store = 0
  · rw [resume_eq_of_zero hstart]
    exact okOr_ne_snapshotMissing _ _
  · obtain ⟨snapshot, hsnapshot⟩ := exists_startSnapshot h hstart
    rw [resume, initializeContext, if_neg hstart, hsnapshot]
    exact okOr_ne_snapshotMissing _ _

/-- On a chain with blocks of ledger 9 both builds give the same. -/
theorem same_of_ledger9 (h : store.Sound chain run.now)
    (habsorbs : AbsorbsTtls ls.l9 (fromBlocks chain.blocks dustWarp))
    (h9 : ofVersion .ledger9 chain.blocks ≠ []) (hseeds : run.seeds ≠ []) (hheight : chain.height ≠ 0)
    (hraw : buildForkAwareContextRaw ls now (fromBlocks chain.blocks dustWarp) run.seeds run.schemes =
      some raw) :
    ∃ forkCtx, (buildForkAwareContextCached run (fromBlocks chain.blocks dustWarp) store).1 =
      .ok forkCtx ∧ raw.Same run.seeds forkCtx := by
  have habsorbs9 : AbsorbsTtls ls.l9 (ofVersion .ledger9 chain.blocks) :=
    habsorbs.sublist (List.filter_sublist.trans (List.sublist_append_left _ _))
  rw [buildForkAwareContextRaw, initialVersion_fromBlocks] at hraw
  obtain ⟨hschemes, ctx, ctx', henter, hreplay, rfl⟩ := (replayFrom_eq_some
    (splitVersions_fromBlocks (.inl h9)) (List.append_ne_nil_of_left_ne_nil h9 _) chain.initialVersion_before.1
    chain.initialVersion_before.2).mp hraw
  obtain ⟨entry, hentry, htracks⟩ := enterLedger9_tracks henter
  obtain ⟨p₁, hp₁, htracks'⟩ := (replay_follows _).sound htracks hreplay
  rw [Position.replay_append (absorbs_concat habsorbs)] at hp₁
  obtain ⟨p, hp, hp₁⟩ := Option.bind_eq_some_iff.mp hp₁
  -- the position of the chain without the dust warp block
  have hupTo : chain.upTo chain.height = ofVersion .ledger9 chain.blocks :=
    (Chain.ofVersion_ledger9_prefix (List.prefix_refl _)).symm
  have hposition : chain.position ls run.now chain.height = some p := by
    rw [chain.position_congr ls run.now now, Chain.position, hentry, Option.bind_some, hupTo]
    exact hp
  have hwallet : ∀ seed ∈ run.seeds, (p.wallet seed).isSome := by
    intro seed hseed
    obtain ⟨w, hw, -⟩ := htracks'.wallet seed hseed
    exact (replay_follows _).wallet hp₁ (Option.isSome_iff_exists.mpr ⟨w, hw⟩)
  have hheights : ∀ x ∈ run.found store, x.2.blockHeight ≤ chain.height :=
    fun x hx => (h.blockHeight_le (CacheRun.mem_cached.mp hx).2).2
  obtain ⟨forkCtx, hresume⟩ := exists_resume_eq h habsorbs9 (List.prefix_refl _) hposition hwallet
    hschemes h9 hheights
  have hstart : run.startHeight store ≤ chain.height := by
    by_cases hstart : run.startHeight store = 0
    · omega
    · obtain ⟨-, ⟨x, hx, hx'⟩, -⟩ := CacheRun.startHeight_spec hstart
      exact hx' ▸ hheights x hx
  obtain ⟨ctx₀, p', rfl, hp', hagrees⟩ := resume_agrees h habsorbs9 (List.prefix_refl _) hresume
    (fun _ => h9) hstart
  cases hposition.symm.trans hp'
  have hagrees₀ := hagrees run.seeds fun seed hseed =>
    ⟨hseed, fun c hc => (h.blockHeight_le hc).2⟩
  rw [buildForkAwareContextCached_eq hseeds hheight, hresume]
  cases dustWarp with
  | none =>
    cases (Position.replay_nil p).symm.trans hp₁
    exact ⟨_, rfl, htracks'.toAgrees.same hagrees₀⟩
  | some timestamp =>
    obtain ⟨ctx₁, events, happly, hagrees₁⟩ := hagrees₀.applyBlock rfl hp₁
    refine ⟨.ledger9 (ctx₁.updateDustFromBlock _), ?_, htracks'.toAgrees.same hagrees₁⟩
    simp only [Option.map_some, applySynthetic, happly]
    rfl

theorem resume_of_no_ledger9 (h : store.Sound chain now) (h9 : ofVersion .ledger9 chain.blocks = []) :
    resume run chain store =
      okOr .other (buildForkAwareContextRaw ls run.now chain.blocks run.seeds run.schemes) := by
  have hnone (key : Bytes 32) : store.getWalletState key = none := by
    cases hc : store.getWalletState key with
    | none => rfl
    | some c => exact absurd h9 (h.blockHeight_le hc).1
  have huncached : run.missing store = run.seeds := by
    simp [CacheRun.missing, loadAndPartitionCache, hnone]
  have hcached : run.found store = [] := by
    simp [CacheRun.found, loadAndPartitionCache, hnone]
  have hstart : run.startHeight store = 0 := by
    rw [CacheRun.startHeight, hcached]
    split <;> rfl
  rw [resume_eq_of_zero hstart, huncached, hcached]
  rfl

theorem replayBlocks_ledger8 (h : ∀ b ∈ blocks, b.ledgerVersion = .ledger8) (ctx : LedgerContext ls.l8) :
    replayBlocks ls now (.ledger8 ctx) blocks [] = (replayBlocksOf ctx blocks []).map .ledger8 := by
  rw [replayBlocks, splitVersions_of_forall h]
  cases hreplay : replayBlocksOf ctx blocks [] <;>
    simp [replayBlocks8, fork8To9IfNeeded, hreplay]

theorem replayBlocks_ledger7 (h : ∀ b ∈ blocks, b.ledgerVersion = .ledger7) (ctx : LedgerContext ls.l7) :
    replayBlocks ls now (.ledger7 ctx) blocks [] = (replayBlocksOf ctx blocks []).map .ledger7 := by
  rw [replayBlocks, splitVersions_of_forall h]
  cases hreplay : replayBlocksOf ctx blocks [] <;> simp [replayBlocks7, hreplay]

theorem same_of_one (h : store.Sound chain run.now)
    (habsorbs7 : AbsorbsTtls ls.l7 (fromBlocks chain.blocks dustWarp))
    (habsorbs8 : AbsorbsTtls ls.l8 (fromBlocks chain.blocks dustWarp))
    (hall : ∀ b ∈ chain.blocks, b.ledgerVersion = version) (hne : version ≠ .ledger9)
    (hseeds : run.seeds ≠ []) (hheight : chain.height ≠ 0)
    (hraw : buildForkAwareContextRaw ls run.now (fromBlocks chain.blocks dustWarp) run.seeds
      run.schemes = some raw) :
    ∃ forkCtx, (buildForkAwareContextCached run (fromBlocks chain.blocks dustWarp) store).1 =
      .ok forkCtx ∧ raw.Same run.seeds forkCtx := by
  have h9 : ofVersion .ledger9 chain.blocks = [] :=
    List.filter_eq_nil_iff.mpr fun b hb => by simp [hall b hb, hne]
  have hversion : initialVersion chain.blocks = version := by
    rw [← List.append_nil chain.blocks]
    exact initialVersion_append chain.nonempty hall
  rw [buildForkAwareContextCached_eq hseeds hheight, resume_of_no_ledger9 h h9]
  cases dustWarp with
  | none =>
    rw [fromBlocks, Option.map_none, Option.toList_none, List.append_nil] at hraw
    rw [hraw]
    exact ⟨raw, rfl, .refl _ _⟩
  | some timestamp =>
    rw [buildForkAwareContextRaw, initialVersion_fromBlocks, hversion] at hraw
    obtain ⟨ctx, hnew, hreplay⟩ := Option.bind_eq_some_iff.mp hraw
    rw [buildForkAwareContextRaw, hversion, hnew, Option.bind_eq_bind, Option.bind_some]
    cases version with
    | ledger9 => exact absurd rfl hne
    | ledger8 =>
      obtain ⟨-, hctx⟩ := Option.ite_none_right_eq_some.mp hnew
      cases hctx
      rw [replayBlocks_ledger8 (fromBlocks_of_forall hall)] at hreplay
      obtain ⟨ctx', hctx', rfl⟩ := Option.map_eq_some_iff.mp hreplay
      obtain ⟨ctx₀, ctx₁, events, hctx₀, happly, hsame⟩ := replayBlocksOf_concat habsorbs8 rfl hctx'
      refine ⟨.ledger8 (ctx₁.updateDustFromBlock _), ?_, hsame⟩
      rw [replayBlocks_ledger8 hall, hctx₀]
      simp only [Option.map_some, okOr, applySynthetic, happly]
    | ledger7 =>
      obtain ⟨-, hctx⟩ := Option.ite_none_right_eq_some.mp hnew
      cases hctx
      rw [replayBlocks_ledger7 (fromBlocks_of_forall hall)] at hreplay
      obtain ⟨ctx', hctx', rfl⟩ := Option.map_eq_some_iff.mp hreplay
      obtain ⟨ctx₀, ctx₁, events, hctx₀, happly, hsame⟩ := replayBlocksOf_concat habsorbs7 rfl hctx'
      refine ⟨.ledger7 (ctx₁.updateDustFromBlock _), ?_, hsame⟩
      rw [replayBlocks_ledger7 hall, hctx₀]
      simp only [Option.map_some, okOr, applySynthetic, happly]

/-- A dust warp block on a chain that goes from ledger 7 to ledger 8 and ends there. -/
def WarpMisplaced (chain : Chain) (seeds : List Seed) (dustWarp : Option Nat) : Prop :=
  seeds ≠ [] ∧ dustWarp ≠ none ∧ initialVersion chain.blocks = .ledger7 ∧
    chain.blocks.getLast?.map ExtractedBlock.ledgerVersion = some .ledger8

/-- The replay without a cache goes on to ledger 9. -/
theorem not_same_of_ledger8 (h : store.Sound chain run.now) (h7 : ofVersion .ledger7 chain.blocks ≠ [])
    (h8 : ofVersion .ledger8 chain.blocks ≠ []) (h9 : ofVersion .ledger9 chain.blocks = [])
    (hseeds : run.seeds ≠ []) (hheight : chain.height ≠ 0)
    (hraw : buildForkAwareContextRaw ls now (fromBlocks chain.blocks (some timestamp)) run.seeds
      run.schemes = some raw)
    (hcached : (buildForkAwareContextCached run (fromBlocks chain.blocks (some timestamp)) store).1 =
      .ok forkCtx) : ¬ raw.Same run.seeds forkCtx := by
  have hne : ((some timestamp).map (dustWarpBlock chain.blocks)).toList ≠ [] := List.cons_ne_nil _ _
  rw [buildForkAwareContextRaw, initialVersion_fromBlocks] at hraw
  obtain ⟨-, ctx, ctx', -, -, rfl⟩ := (replayFrom_eq_some (splitVersions_fromBlocks (.inr ⟨h7, h8⟩))
    (List.append_ne_nil_of_right_ne_nil _ hne) chain.initialVersion_before.1
    chain.initialVersion_before.2).mp hraw
  rw [buildForkAwareContextCached_eq hseeds hheight, resume_of_no_ledger9 h h9] at hcached
  cases hreal : buildForkAwareContextRaw ls run.now chain.blocks run.seeds run.schemes with
  | none =>
    rw [hreal] at hcached
    cases hcached
  | some real =>
    rw [hreal] at hcached
    have hsynthetic := of_okOr hcached
    cases real with
    | ledger9 ctx₀ => exact absurd h9 (ledger9_of_replayFrom hreal)
    | ledger8 ctx₀ | ledger7 ctx₀ =>
      obtain ⟨x, -, rfl⟩ := Option.map_eq_some_iff.mp hsynthetic
      exact id

/-- A build with a sound store gives what a build without a cache gives, except where the dust warp block
is misplaced. -/
theorem same_iff (h : store.Sound chain run.now)
    (habsorbs7 : AbsorbsTtls ls.l7 (fromBlocks chain.blocks dustWarp))
    (habsorbs8 : AbsorbsTtls ls.l8 (fromBlocks chain.blocks dustWarp))
    (habsorbs9 : AbsorbsTtls ls.l9 (fromBlocks chain.blocks dustWarp))
    (hraw : buildForkAwareContextRaw ls now (fromBlocks chain.blocks dustWarp) run.seeds run.schemes =
      some raw) :
    (∃ forkCtx, (buildForkAwareContextCached run (fromBlocks chain.blocks dustWarp) store).1 =
      .ok forkCtx ∧ raw.Same run.seeds forkCtx) ↔ ¬ WarpMisplaced chain run.seeds dustWarp := by
  have hraw' : buildForkAwareContextRaw ls run.now (fromBlocks chain.blocks dustWarp) run.seeds
      run.schemes = some raw := by
    obtain ⟨h7, h8⟩ := splitVersions_fromBlocks_ne_nil chain dustWarp
    rw [← initialVersion_fromBlocks chain dustWarp] at h7 h8
    rw [buildForkAwareContextRaw_congr run.now now h7 h8]
    exact hraw
  by_cases hempty : run.seeds = [] ∨ chain.height = 0
  · rw [buildForkAwareContextCached_raw hempty, hraw']
    refine ⟨fun _ hwarp => ?_, fun _ => ⟨raw, rfl, .refl _ _⟩⟩
    obtain ⟨hseeds, -, hfirst, hlast⟩ := hwarp
    obtain ⟨b, hb⟩ := List.length_eq_one_iff.mp (show chain.blocks.length = 1 by
      have hpos := List.length_pos_iff.mpr chain.nonempty
      have hzero := hempty.resolve_left hseeds
      rw [Chain.height] at hzero
      omega)
    rw [hb] at hfirst hlast
    cases hfirst.symm.trans (Option.some.inj hlast)
  obtain ⟨hseeds, hheight⟩ := not_or.mp hempty
  cases chain.shape with
  | ledger9 h9 =>
    refine iff_of_true (same_of_ledger9 h habsorbs9 h9 hseeds hheight hraw) fun hwarp => ?_
    obtain ⟨b, hb, hversion⟩ := Option.map_eq_some_iff.mp hwarp.2.2.2
    cases hversion.symm.trans (mem_ofVersion.mp (Chain.ledger9_of_getLast? h9 hb)).2
  | one version hall hne =>
    refine iff_of_true (same_of_one h habsorbs7 habsorbs8 hall hne hseeds hheight hraw') fun hwarp => ?_
    obtain ⟨b, hb, hversion⟩ := Option.map_eq_some_iff.mp hwarp.2.2.2
    have hfirst := hwarp.2.2.1
    rw [← List.append_nil chain.blocks, initialVersion_append chain.nonempty hall] at hfirst
    rw [hall b (List.mem_of_getLast? hb), hfirst] at hversion
    cases hversion
  | ledger8 h7 h8 h9 =>
    cases dustWarp with
    | none =>
      refine iff_of_true ?_ fun hwarp => hwarp.2.1 rfl
      rw [fromBlocks, Option.map_none, Option.toList_none, List.append_nil] at hraw'
      rw [buildForkAwareContextCached_eq hseeds hheight, resume_of_no_ledger9 h h9, hraw']
      exact ⟨raw, rfl, .refl _ _⟩
    | some timestamp =>
      refine iff_of_false ?_ (not_not.mpr ⟨hseeds, Option.some_ne_none _,
        Chain.initialVersion_ledger7 h7, ?_⟩)
      · rintro ⟨forkCtx, hcached, hsame⟩
        exact not_same_of_ledger8 h h7 h8 h9 hseeds hheight hraw hcached hsame
      · have hlast := List.getLast?_eq_some_getLast h8
        rw [chain.blocks_eq, h9, List.append_nil, List.getLast?_append, hlast]
        exact congrArg some (mem_ofVersion.mp (List.getLast_mem h8)).2

theorem ne_snapshotMissing (h : store.Sound chain now) (height : Nat) :
    (buildForkAwareContextCached run (fromBlocks chain.blocks dustWarp) store).1 ≠
      .error (.snapshotMissing height) := by
  by_cases hempty : run.seeds = [] ∨ chain.height = 0
  · rw [buildForkAwareContextCached_raw hempty]
    exact okOr_ne_snapshotMissing _ _
  · obtain ⟨hseeds, hheight⟩ := not_or.mp hempty
    rw [buildForkAwareContextCached_eq hseeds hheight]
    cases hresume : resume run chain store with
    | error e =>
      intro heq
      exact resume_ne_snapshotMissing h chain height (hresume.trans heq)
    | ok forkCtx =>
      cases dustWarp with
      | none => exact fun heq => nomatch heq
      | some timestamp => exact okOr_ne_snapshotMissing _ _

end

/-- After any builds on prefixes of the chain, a build on the whole chain does not miss a snapshot, and
it gives the context that the blocks give without a cache, except where the dust warp block is misplaced.
The snapshots of stored wallets are not collected. -/
theorem wallet_cache_transparent_iff (ls : Ledgers Seed) (chain : Chain)
    (builds : List (EarlierBuild Seed)) (run : CacheRun Seed) (dustWarp : Option Nat)
    (habsorbs7 : AbsorbsTtls ls.l7 (fromBlocks chain.blocks dustWarp))
    (habsorbs8 : AbsorbsTtls ls.l8 (fromBlocks chain.blocks dustWarp))
    (habsorbs9 : AbsorbsTtls ls.l9 (fromBlocks chain.blocks dustWarp)) :
    let build := buildForkAwareContextCached run (fromBlocks chain.blocks dustWarp)
      (storeAfter ls chain builds)
    (∀ height, build.1 ≠ .error (.snapshotMissing height)) ∧
      (∀ now raw, buildForkAwareContextRaw ls now (fromBlocks chain.blocks dustWarp) run.seeds
        run.schemes = some raw →
          ((∃ forkCtx, build.1 = .ok forkCtx ∧ raw.Same run.seeds forkCtx) ↔
            ¬ WarpMisplaced chain run.seeds dustWarp)) ∧
      ∀ x ∈ build.2.wallets, (build.2.getLedgerSnapshot x.2.blockHeight).isSome := by
  have habsorbs : AbsorbsTtls ls.l9 (ofVersion .ledger9 chain.blocks) :=
    habsorbs9.sublist (List.filter_sublist.trans (List.sublist_append_left _ _))
  have hsound := sound_storeAfter habsorbs run.now builds
  refine ⟨ne_snapshotMissing hsound, fun now raw hraw => ?_, fun x hx => ?_⟩
  · exact same_iff hsound habsorbs7 habsorbs8 habsorbs9 hraw
  · exact (hsound.build habsorbs (List.prefix_refl _) run dustWarp).kept x hx

end

/-! ## Samples -/

/-- A ledger that counts the transactions. -/
def countingLibrary (hasLastBlockTime : Bool) : LedgerLibrary Unit where
  State := Nat
  Shielded := Nat
  Dust := Nat
  Offer := Unit
  Event := Unit
  Cost := Unit
  hasLastBlockTime := hasLastBlockTime
  newState := 0
  newShielded _ := 0
  newDust _ _ := 0
  zeroCost := ()
  addCost _ _ := ()
  applyTx state _ _ := some (state + 1, [()], [()], ())
  postBlockUpdate state _ _ := some state
  deserializeState _ := none
  computeStateRoot _ := none
  applyOffer _ n _ := n + 1
  replayEvent _ n _ := some (n + 1)
  processTtls n _ := n

def schemeKey : UnshieldedSignatureScheme → Bytes 32
  | .schnorr => .fill 32 0
  | .ecdsa => .fill 32 1

theorem schemeKey_inj : ∀ scheme scheme', schemeKey scheme = schemeKey scheme' → scheme = scheme' := by
  intro scheme scheme'
  cases scheme <;> cases scheme' <;> decide

def countingLedgers : Ledgers Unit where
  l7 := countingLibrary false
  l8 := countingLibrary true
  l9 := countingLibrary true
  fork78 := ⟨some, some, some, id⟩
  fork89 := ⟨some, some, some, id⟩
  walletCacheKey _ := schemeKey
  walletCacheKey_inj h := ⟨rfl, schemeKey_inj _ _ h⟩

theorem countingLibrary_absorbs (hasLastBlockTime : Bool) (blocks : List ExtractedBlock) :
    AbsorbsTtls (countingLibrary hasLastBlockTime) blocks :=
  ⟨List.pairwise_of_forall fun _ _ _ _ _ => rfl, fun _ _ _ _ _ => rfl⟩

def versionBlock (number : Nat) (version : LedgerVersion) : ExtractedBlock :=
  { dustWarpBlock [] 0 with
    number
    ledgerVersion := version
    transactions := [.midnight []] }

def twoBlocks (first second : LedgerVersion) (h : first.toNat ≤ second.toNat) : Chain where
  blocks := [versionBlock 0 first, versionBlock 1 second]
  numbered i hi := by
    match i, hi with
    | 0, _ => rfl
    | 1, _ => rfl
  ordered := List.pairwise_pair.mpr h
  nonempty := List.cons_ne_nil _ _

def ledger8Then9 : Chain := twoBlocks .ledger8 .ledger9 (Nat.le_succ 8)

def ledger7Then8 : Chain := twoBlocks .ledger7 .ledger8 (Nat.le_succ 7)

def schnorrRun : CacheRun Unit where
  seeds := [()]
  seeds_nodup := List.nodup_singleton ()
  schemes _ := .schnorr
  now := ⟨0, 0, zeroHash, none⟩
  young _ := false

theorem replay_in_parts_two_blocks :
    let block (number : Nat) := versionBlock number .ledger9
    ∃ ctx ctx', replayBlocksOf (.newFromWalletSeeds (countingLibrary true) [()]) [block 0, block 1] [] =
        some ctx ∧
      (replayBlocksOf (.newFromWalletSeeds (countingLibrary true) [()]) [block 0] []).bind
        (replayBlocksOf · [block 1] []) = some ctx' ∧ ctx.Same ctx' [()] :=
  have h := (replay_in_parts (countingLibrary true) [()] [_] [_] (countingLibrary_absorbs _ _)).1 _ rfl
  ⟨_, _, rfl, h.choose_spec⟩

/-- An earlier build has saved the wallet that a later one starts from. -/
theorem wallet_cache_transparent_iff_two_blocks :
    ∃ raw forkCtx, buildForkAwareContextRaw countingLedgers schnorrRun.now
      (fromBlocks ledger8Then9.blocks (some 0)) [()] schnorrRun.schemes = some raw ∧
      (buildForkAwareContextCached schnorrRun (fromBlocks ledger8Then9.blocks (some 0))
        (storeAfter countingLedgers ledger8Then9 [⟨schnorrRun, 2, none⟩])).1 = .ok forkCtx ∧
      raw.Same [()] forkCtx := by
  obtain ⟨-, hsame, -⟩ := wallet_cache_transparent_iff countingLedgers ledger8Then9
    [⟨schnorrRun, 2, none⟩] schnorrRun (some 0) (countingLibrary_absorbs _ _)
    (countingLibrary_absorbs _ _) (countingLibrary_absorbs _ _)
  obtain ⟨forkCtx, hcached, hsame⟩ := (hsame schnorrRun.now _ rfl).mpr fun hwarp =>
    absurd hwarp.2.2.1 (by decide)
  exact ⟨_, forkCtx, rfl, hcached, hsame⟩

/-- The dust warp block after blocks of ledger 7 and ledger 8. -/
theorem wallet_cache_not_transparent :
    ∃ raw forkCtx, buildForkAwareContextRaw countingLedgers schnorrRun.now
      (fromBlocks ledger7Then8.blocks (some 0)) [()] schnorrRun.schemes = some raw ∧
      (buildForkAwareContextCached schnorrRun (fromBlocks ledger7Then8.blocks (some 0)) .empty).1 =
        .ok forkCtx ∧
      ¬ raw.Same [()] forkCtx :=
  ⟨.ledger9 _, .ledger8 _, rfl, rfl, id⟩

end MidnightNode.Toolkit
