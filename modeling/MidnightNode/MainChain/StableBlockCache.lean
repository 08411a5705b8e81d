import MidnightNode.MainChain.BlockSource

/-!
# The cache of stable blocks is transparent

A block that is found in the cache is served as stable after a look at its time alone; the tip is not read.
So whatever is cached has to stay confirmed. It does: a range is cached up to the security parameter below a
tip that was read earlier, and the chain only grows.

Between the queries of `fill_cache` the chain may grow and other lookups may run, and the ranges that they
install replace each other in any order. `Node` keeps the lookups that are in this state.
-/

namespace MidnightNode.MainChain

/-! ## The lookup without a cache -/

/-- What `get_stable_block_by_hash` makes of the answer from the database. -/
def classify : Except StableBlockByHashError Block → Except DataSourceError StableBlockByHashResult
  | .ok block => .ok (.blockStable block.toMainchainBlock)
  | .error (.blockNotFound _) => .ok .blockNotFound
  | .error (.timestampOutOfRange _ _ _ _ _ block) => .ok (.blockTimestampOutRange block.toMainchainBlock)
  | .error (.notStableYet _ _ _ _ block) => .ok (.notEnoughConfirmations block.toMainchainBlock)
  | .error (.latestBlockUnavailable hash) => .error (.latestBlockUnavailable hash)

/-- The lookup in a database, by `get_stable_block_by_hash_from_db` alone. -/
def lookupInDb (config : Config) (db : List Block) (hash : McBlockHash) (referenceTimestamp : Nat) :
    Except DataSourceError StableBlockByHashResult := do
  let referenceTimestamp ← timestampToDbType referenceTimestamp
  classify (DataSource.getStableBlockByHashFromDb ⟨config, db, none, 0⟩ hash referenceTimestamp)

/-! ## Lookups in flight -/

/-- How far `fill_cache` has come. -/
inductive FillStage
  | started
  | latestRead (latestBlock : Block)
  | blocksRead (blocks : List Block)

structure Lookup where
  db : List Block
  hash : McBlockHash
  referenceTimestamp : Nat

structure Call where
  lookup : Lookup
  block : Block
  stage : FillStage

structure Node where
  source : DataSource
  calls : List Call
  answers : List (Lookup × Except DataSourceError StableBlockByHashResult)

namespace Node

def answer (n : Node) (lookup : Lookup) (result : Except DataSourceError StableBlockByHashResult) : Node :=
  { n with answers := (lookup, result) :: n.answers }

/-- `get_stable_block_for` up to the answer, or up to `fill_cache`. -/
def start (n : Node) (hash : McBlockHash) (referenceTimestamp : Nat) : Node :=
  let lookup : Lookup := ⟨n.source.db, hash, referenceTimestamp⟩
  match timestampToDbType referenceTimestamp with
  | .error e => n.answer lookup (.error e)
  | .ok referenceTimestamp =>
    match n.source.getStableBlockByHashFromCache hash referenceTimestamp with
    | some block => n.answer lookup (.ok (.blockStable block.toMainchainBlock))
    | none =>
      match n.source.getStableBlockByHashFromDb hash referenceTimestamp with
      | .ok block => { n with calls := ⟨lookup, block, .started⟩ :: n.calls }
      | .error e => n.answer lookup (classify (.error e))

/-- The next query of `fill_cache`, or its write to the cache. -/
def fill (n : Node) (call : Call) : Node :=
  match call.stage with
  | .started =>
    match Db.getLatestBlockInfo n.source.db with
    | none => n.answer call.lookup
        (.error (.internalDataSourceError "No latest block when filling the caches."))
    | some latest => { n with calls := { call with stage := .latestRead latest } :: n.calls }
  | .latestRead latest =>
    let blocks := DataSource.blocksToCache n.source.config n.source.db call.block latest
    { n with calls := { call with stage := .blocksRead blocks } :: n.calls }
  | .blocksRead blocks =>
    { n with source.cache := n.source.cache.map fun _ => blocks }.answer call.lookup
      (.ok (.blockStable call.block.toMainchainBlock))

/-- The chain grows, a lock is poisoned, lookups run: at once, or with others between their queries. -/
inductive Reachable : Node → Prop
  | init (config : Config) (db : List Block) (now : Nat) (hwf : ChainWF db) :
    Reachable ⟨⟨config, db, some [], now⟩, [], []⟩
  | observe {n : Node} (h : Reachable n) (db : List Block) (hwf : ChainWF db) (hsub : n.source.db ⊆ db) :
    Reachable { n with source.db := db }
  | poison {n : Node} (h : Reachable n) : Reachable { n with source.cache := none }
  | getStableBlockFor {n : Node} (h : Reachable n) (hash : McBlockHash) (referenceTimestamp : Nat) :
    Reachable ({ n with source := (n.source.getStableBlockFor hash referenceTimestamp).2 }.answer
      ⟨n.source.db, hash, referenceTimestamp⟩ (n.source.getStableBlockFor hash referenceTimestamp).1)
  | start {n : Node} (h : Reachable n) (hash : McBlockHash) (referenceTimestamp : Nat) :
    Reachable (n.start hash referenceTimestamp)
  | fill {n : Node} (h : Reachable n) (before after : List Call) (call : Call)
    (hcalls : n.calls = before ++ call :: after) :
    Reachable ({ n with calls := before ++ after }.fill call)

end Node

/-! ## One lookup -/

namespace DataSource

variable {ds : DataSource} {hash : McBlockHash} {b : Block} {ref : Int} {ts : Nat}

theorem lookupInDb_eq (hts : timestampToDbType ts = .ok ref) :
    lookupInDb ds.config ds.db hash ts = classify (ds.getStableBlockByHashFromDb hash ref) := by
  rw [lookupInDb, hts]
  rfl

theorem Valid.lookupInDb_of_cached (hvalid : ds.Valid) (hts : timestampToDbType ts = .ok ref)
    (h : ds.getStableBlockByHashFromCache hash ref = some b) :
    lookupInDb ds.config ds.db hash ts = .ok (.blockStable b.toMainchainBlock) := by
  obtain ⟨hb, rfl, htime, hstable⟩ := getStableBlockByHashFromCache_some hvalid h
  rw [lookupInDb_eq hts, getStableBlockByHashFromDb_of_mem hvalid.wf hb htime hstable]
  rfl

theorem Valid.getStableBlockFor_eq (hvalid : ds.Valid) (hash : McBlockHash) (ts : Nat) :
    (ds.getStableBlockFor hash ts).1 = lookupInDb ds.config ds.db hash ts := by
  cases hts : timestampToDbType ts with
  | error e =>
    rw [lookupInDb, hts, DataSource.getStableBlockFor, hts]
    rfl
  | ok ref =>
    rw [DataSource.getStableBlockFor, hts]
    dsimp only
    rw [DataSource.getStableBlockByHash]
    cases hcache : ds.getStableBlockByHashFromCache hash ref with
    | some b => exact (hvalid.lookupInDb_of_cached hts hcache).symm
    | none =>
      rw [lookupInDb_eq hts]
      cases hdb : ds.getStableBlockByHashFromDb hash ref with
      | error e => cases e <;> rfl
      | ok b =>
        obtain ⟨ds', hfill⟩ := fillCache_eq_ok (getStableBlockByHashFromDb_ok hdb).1 b
        simp only [hfill, classify]

theorem Valid.setCache (hvalid : ds.Valid) (h : ∀ c ∈ blocks, c ∈ ds.db ∧ IsStable ds.config ds.db c) :
    Valid { ds with cache := ds.cache.map fun _ => blocks } := by
  refine ⟨hvalid.wf, fun cached hcached c hc => ?_, fun cached hcached c hc => ?_⟩
  all_goals obtain ⟨_, _, rfl⟩ := Option.map_eq_some_iff.mp hcached
  · exact (h c hc).1
  · exact (h c hc).2

end DataSource

/-! ## All lookups -/

/-- What a stage has read is confirmed, and stays so. -/
def FillStage.Sound (config : Config) (db : List Block) : FillStage → Prop
  | .started => True
  | .latestRead latest => latest.blockNo ≤ tipNumber db
  | .blocksRead blocks => ∀ c ∈ blocks, c ∈ db ∧ IsStable config db c

structure Call.Sound (config : Config) (db : List Block) (call : Call) : Prop where
  mem : call.block ∈ db
  stable : IsStable config db call.block
  stage : call.stage.Sound config db
  answer : lookupInDb config call.lookup.db call.lookup.hash call.lookup.referenceTimestamp =
    .ok (.blockStable call.block.toMainchainBlock)

structure Node.Sound (n : Node) : Prop where
  source : n.source.Valid
  calls : ∀ call ∈ n.calls, call.Sound n.source.config n.source.db
  answers : ∀ a ∈ n.answers,
    a.2 = lookupInDb n.source.config a.1.db a.1.hash a.1.referenceTimestamp

theorem Call.Sound.observe {call : Call} (h : call.Sound config db) (hsub : db ⊆ db') :
    call.Sound config db' := by
  refine ⟨hsub h.mem, h.stable.trans (tipNumber_mono hsub), ?_, h.answer⟩
  obtain ⟨lookup, block, stage⟩ := call
  cases stage with
  | started => trivial
  | latestRead latest => exact h.stage.trans (tipNumber_mono hsub)
  | blocksRead blocks =>
    intro c hc
    obtain ⟨hmem, hstable⟩ := h.stage c hc
    exact ⟨hsub hmem, hstable.trans (tipNumber_mono hsub)⟩

namespace Node.Sound

variable {n : Node} {hash : McBlockHash} {ts : Nat}

theorem answer (h : n.Sound)
    (hresult : result = lookupInDb n.source.config lookup.db lookup.hash lookup.referenceTimestamp) :
    (n.answer lookup result).Sound := by
  refine ⟨h.source, h.calls, fun a ha => ?_⟩
  rcases List.mem_cons.mp ha with rfl | ha
  · exact hresult
  · exact h.answers a ha

theorem call {call : Call} (h : n.Sound) (hcall : call.Sound n.source.config n.source.db) :
    Sound { n with calls := call :: n.calls } :=
  ⟨h.source, List.forall_mem_cons.mpr ⟨hcall, h.calls⟩, h.answers⟩

theorem start (h : n.Sound) (hash : McBlockHash) (ts : Nat) : (n.start hash ts).Sound := by
  unfold Node.start
  dsimp only
  split
  next e hts =>
    refine h.answer ?_
    rw [lookupInDb, hts]
    rfl
  next ref hts =>
    split
    next b hcache => exact h.answer (h.source.lookupInDb_of_cached hts hcache).symm
    next =>
      split
      next b hdb =>
        obtain ⟨hb, -, -, hstable⟩ := DataSource.getStableBlockByHashFromDb_ok hdb
        refine h.call ⟨hb, hstable, trivial, ?_⟩
        rw [DataSource.lookupInDb_eq hts, hdb, classify]
      next e hdb =>
        refine h.answer ?_
        rw [DataSource.lookupInDb_eq hts, hdb]

theorem fill {call : Call} (h : n.Sound) (hcall : call.Sound n.source.config n.source.db) :
    (n.fill call).Sound := by
  obtain ⟨lookup, block, stage⟩ := call
  cases stage with
  | started =>
    obtain ⟨latest, hlatest⟩ := Db.getLatestBlockInfo_of_mem hcall.mem
    simp only [Node.fill, hlatest]
    exact h.call ⟨hcall.mem, hcall.stable, (tipNumber_eq hlatest).ge, hcall.answer⟩
  | latestRead latest =>
    refine h.call ⟨hcall.mem, hcall.stable, fun c hc => ?_, hcall.answer⟩
    exact DataSource.blocksToCache_stable hcall.mem hcall.stable hcall.stage hc
  | blocksRead blocks =>
    have hset : Sound { n with source.cache := n.source.cache.map fun _ => blocks } :=
      ⟨h.source.setCache hcall.stage, h.calls, h.answers⟩
    exact hset.answer hcall.answer.symm

end Node.Sound

theorem Node.Reachable.sound {n : Node} (h : n.Reachable) : n.Sound := by
  induction h with
  | init config db now hwf =>
    exact ⟨(DataSource.Reachable.start config db now hwf).valid, nofun, nofun⟩
  | observe _ db hwf hsub ih =>
    exact ⟨ih.source.observe hwf hsub, fun call hcall => (ih.calls call hcall).observe hsub, ih.answers⟩
  | poison _ ih => exact ⟨⟨ih.source.wf, nofun, nofun⟩, ih.calls, ih.answers⟩
  | @getStableBlockFor n _ hash ts ih =>
    obtain ⟨cache, heq, hvalid⟩ := ih.source.getStableBlockFor hash ts
    rw [heq]
    exact Sound.answer ⟨hvalid, ih.calls, ih.answers⟩ (ih.source.getStableBlockFor_eq hash ts)
  | start _ hash ts ih => exact ih.start hash ts
  | fill _ before after call hcalls ih =>
    have hcall := ih.calls call (hcalls ▸ List.mem_append_right before List.mem_cons_self)
    have hrest := ((List.sublist_cons_self call after).append_left before).subset
    exact Sound.fill ⟨ih.source, fun c hc => ih.calls c (hcalls ▸ hrest hc), ih.answers⟩ hcall

/-- **The cache is transparent.** In every run, with a chain that only grows and lookups of any hashes and
reference timestamps, each lookup has the answer of the database at its moment. -/
theorem stable_block_cache_transparent {n : Node} (h : n.Reachable) :
    ∀ a ∈ n.answers, a.2 = lookupInDb n.source.config a.1.db a.1.hash a.1.referenceTimestamp :=
  h.sound.answers

/-- Block `i` of a chain with a block each second. -/
theorem chainHash_length (i : UInt8) : (List.replicate 32 i).length = 32 := List.length_replicate

def chainBlock (i : UInt8) : Block :=
  ⟨i.toNat, ⟨List.replicate 32 i, chainHash_length i⟩, 0, i.toNat, 1000 * i.toNat⟩

theorem chainSlot_pos : 0 < 1000 := Nat.succ_pos _

theorem chainOffset_le : 1 + 0 ≤ u32Max := Nat.le_of_ble_eq_true rfl

/-- One confirmation is enough, and a block may be referenced for 10 seconds. -/
def chainConfig : Config :=
  ⟨1, 0, 10000, ⟨0, 0, 1000, chainSlot_pos⟩, 0, 60, 10, chainOffset_le⟩

theorem chainBlocks_wf : ChainWF [chainBlock 0, chainBlock 1, chainBlock 2] := ⟨by decide, by decide⟩

/-- The lookup of block 0 leaves block 1 in the cache, from where the second lookup is answered. -/
theorem stable_block_cache_transparent_hit :
    ∃ n : Node, n.Reachable ∧ n.source.cache = some [chainBlock 0, chainBlock 1] ∧
      n.answers.map Prod.snd = [.ok (.blockStable (chainBlock 1).toMainchainBlock),
        .ok (.blockStable (chainBlock 0).toMainchainBlock)] ∧
      ∀ a ∈ n.answers, a.2 = lookupInDb n.source.config a.1.db a.1.hash a.1.referenceTimestamp :=
  have h := ((Node.Reachable.init chainConfig _ 0 chainBlocks_wf).getStableBlockFor
    (chainBlock 0).hash 2000).getStableBlockFor (chainBlock 1).hash 2000
  ⟨_, h, by decide, by decide, stable_block_cache_transparent h⟩

end MidnightNode.MainChain
