import MidnightNode.CNight.WindowCoverage

/-!
# The cached source against the live one

Validators may run either source and must build the same inherents. The node creates the cache
empty, with the block in front of its genesis position as its window; refreshes pull what comes
behind that block. So a query served from the window truncates all events of its range past the
horizon, while the live source truncates what its row limits let through. The two agree when the
limits are invisible to the truncation, when the range has no event up to the horizon, when the
query is for the addresses of the cache, and when a memo was written for the capacity it is asked
for again.
-/

namespace MidnightNode.CNight

open CardanoPosition SortedSlice

structure Query where
  config : CNightAddresses
  start : CardanoPosition
  tip : McBlockHash
  txCapacity : Nat
  utxoOverestimate : Nat

def Cache.answer (lib : CardanoLib) (db : DbSync) (c : Cache) (q : Query) : QueryOutcome :=
  c.getUtxosUpToCapacity lib db q.config q.start q.tip q.txCapacity q.utxoOverestimate

def liveAnswer (lib : CardanoLib) (db : DbSync) (q : Query) :
    Except DataSourceError ObservedUtxos :=
  liveGetUtxosUpToCapacity lib db q.config q.start q.tip q.txCapacity q.utxoOverestimate

/-! ## What refreshes pull -/

/-- The events of the database past the block up to which an empty cache claims to hold them. -/
def pulledEvents (lib : CardanoLib) (db : DbSync) (cfg : CNightAddresses) (horizon : Nat) :
    List ObservedUtxo :=
  (dbEvents lib db cfg).filter fun u => decide (horizon < u.blockNumber)

theorem pulledEvents_sorted (lib : CardanoLib) (db : DbSync) (cfg : CNightAddresses)
    (horizon : Nat) : SortedBy ObservedUtxo.key (pulledEvents lib db cfg horizon) :=
  (dbEvents_sorted lib db cfg).filter _

theorem blockRange_pulledEvents (h : horizon < lo) :
    blockRange lo hi (pulledEvents lib db cfg horizon) = blockRange lo hi (dbEvents lib db cfg) :=
  slice_filter fun _ hu => decide_eq_true (h.trans_le (mem_slice.mp hu).2.1)

theorem slice_pulledEvents
    (h : ∀ u ∈ slice ObservedUtxo.key a b (dbEvents lib db cfg), horizon < u.blockNumber) :
    slice ObservedUtxo.key a b (pulledEvents lib db cfg horizon) =
      slice ObservedUtxo.key a b (dbEvents lib db cfg) :=
  slice_filter fun u hu => decide_eq_true (h u hu)

theorem pull_eq_pulledEvents (hcomplete : PullComplete lib db c p) (hfrom : horizon < p.fromBlock)
    (h : c.pull lib db p = .ok extension) :
    extension = blockRange p.fromBlock p.targetEnd
      (pulledEvents lib db c.cnightAddresses horizon) := by
  rw [blockRange_pulledEvents hfrom]
  exact pull_eq_blockRange hcomplete h

/-- An empty cache has the window it is created with, of events past that window. -/
theorem windowInv_empty (lib : CardanoLib) (db : DbSync) (cfg : BulkCacheConfig) :
    WindowInv Eq (pulledEvents lib db cfg.cnightAddresses cfg.windowEndBlock) (.new [] cfg)
      cfg.windowStartBlock cfg.windowEndBlock where
  start_eq := rfl
  end_eq := rfl
  sorted := .nil
  le_end u hu := by cases hu
  related := by
    refine (slice_eq_nil_iff.mpr fun u hu _ => ?_).symm
    have := of_decide_eq_true (List.mem_filter.mp hu).2
    omega

/-! ## Truncating all events of a range -/

/-- The answer to a query with unlimited rows. -/
def unlimited (events : List ObservedUtxo) (start : CardanoPosition) (b : Block)
    (txCapacity : Nat) : ObservedUtxos :=
  (truncateToTxCapacity (slice ObservedUtxo.key start.key b.toPosition.increment.key events)
    txCapacity start b.toPosition.increment).1

/-- The row limits of a live call are invisible: it truncates as if it had fetched everything. -/
structure LimitsInvisible (lib : CardanoLib) (db : DbSync) (cfg : CNightAddresses) (ids : QueryIds)
    (start end_ : CardanoPosition) (txCapacity limit : Nat) : Prop where
  resolved : resolveIds lib db cfg = .ok ids
  suffice : RowLimitsSuffice (eventStreams lib db cfg ids) start end_ txCapacity limit
  /-- Without a capacity everything is returned, so nothing may be cut off. -/
  uncut : txCapacity = 0 → cutOff (eventStreams lib db cfg ids) start.key end_.key limit = []

theorem truncate_fetched_eq (hrows : RowLimitsSuffice ss start end_ txCapacity limit)
    (huncut : txCapacity = 0 → cutOff ss start.key end_.key limit = []) :
    (truncateToTxCapacity (fetched ss start.key end_.key limit) txCapacity start end_).1 =
      (truncateToTxCapacity (slice ObservedUtxo.key start.key end_.key (orderedEvents ss))
        txCapacity start end_).1 := by
  by_cases hcut : cutOff ss start.key end_.key limit = []
  · rw [fetched_eq_slice_of_cutOff hcut]
  · have hcap : 0 < txCapacity := Nat.pos_of_ne_zero fun h => hcut (huncut h)
    obtain ⟨u, hu⟩ := List.exists_mem_of_ne_nil _ hcut
    have hfirst := firstKeys_eq_of_perm (fetched_sublist ss start.key end_.key limit)
      (fetched_append_cutOff_perm ss start.key end_.key limit) hrows.behind
    have hreached := hrows.reached u hu
    have hall : txCapacity ≤ numKeys ObservedUtxo.key
        (slice ObservedUtxo.key start.key end_.key (orderedEvents ss)) :=
      hreached.trans (numKeys_le_of_subset (fetched_sublist ss start.key end_.key limit).subset)
    rw [truncateToTxCapacity_eq fetched_sorted hcap,
      truncateToTxCapacity_eq orderedEvents_sorted.slice hcap, hfirst, if_neg (not_lt.mpr hreached),
      if_neg (not_lt.mpr hall)]

theorem live_eq_unlimited (hb : db.getBlockByHash q.tip = some b)
    (h : LimitsInvisible lib db q.config ids q.start b.toPosition.increment q.txCapacity
      q.utxoOverestimate) :
    liveAnswer lib db q = .ok (unlimited (dbEvents lib db q.config) q.start b q.txCapacity) := by
  rw [liveAnswer, liveGetUtxosUpToCapacity_eq h.resolved hb, if_pos h.suffice.limit_lt,
    truncate_fetched_eq h.suffice h.uncut, unlimited, dbEvents_eq h.resolved]

/-! ## Serving from the window -/

theorem slice_filter_blocks {a : CardanoPosition} (hss : ss ≤ a.blockNumber) :
    slice ObservedUtxo.key a.key b (l.filter fun u => decide (ss ≤ u.blockNumber)) =
      slice ObservedUtxo.key a.key b l := by
  refine slice_filter fun u hu => decide_eq_true ?_
  rcases key_le_iff.mp (mem_slice.mp hu).2.1 with hlt | ⟨heq, _⟩
  · exact hss.trans hlt.le
  · exact hss.trans heq.le

theorem slice_blockRange {a b : CardanoPosition} (hss : ss ≤ a.blockNumber) (hse : b.blockNumber ≤ se) :
    slice ObservedUtxo.key a.key b.key (blockRange ss se l) =
      slice ObservedUtxo.key a.key b.key l := by
  refine slice_filter fun u hu => decide_eq_true ?_
  have hlo := key_le_iff.mp (mem_slice.mp hu).2.1
  have hhi := key_lt_iff.mp (mem_slice.mp hu).2.2
  change a.blockNumber < u.blockNumber ∨ a.blockNumber = u.blockNumber ∧ _ at hlo
  change u.blockNumber < b.blockNumber ∨ u.blockNumber = b.blockNumber ∧ _ at hhi
  omega

theorem outsideWindow_eq_false :
    Cache.outsideWindow (some ss) se start tipPos = false ↔
      tipPos.blockNumber ≤ se ∧ ss ≤ start.blockNumber := by
  simp [Cache.outsideWindow]

/-- **A query inside the window gets the events that are to be held.** -/
theorem WindowInv.serve_eq (h : WindowInv Eq events c ss se)
    (hin : c.inWindow start b.toPosition = true) (hstart : start ≤ b.toPosition) (txCapacity : Nat) :
    Cache.serve c.allEvents start b.toPosition txCapacity =
      .ok (unlimited events start b txCapacity) := by
  simp only [Cache.inWindow, h.end_eq, h.start_eq, Bool.not_eq_true'] at hin
  obtain ⟨htip, hss⟩ := outsideWindow_eq_false.mp hin
  have hle : start.key ≤ b.toPosition.increment.key :=
    (le_iff_key.mp hstart).trans (key_le_increment b.txIndex_lt)
  have hslice : slice ObservedUtxo.key start.key b.toPosition.increment.key c.allEvents =
      slice ObservedUtxo.key start.key b.toPosition.increment.key events := by
    rw [← slice_filter_blocks hss, h.related, slice_blockRange (b := b.toPosition.increment) hss htip]
  rw [Cache.serve, sliceRange_eq h.sorted hle, hslice]
  rfl

/-! ## The invariant of a run -/

/-- What holds of a cache over a fixed database, with the capacity its memo was written for: a
window of the events past the horizon, a map of tip positions that agrees with the database, and a
memo that holds the answer with unlimited rows. -/
structure CacheInv (lib : CardanoLib) (db : DbSync) (horizon : Nat) (c : Cache)
    (memoCapacity : Option Nat) : Prop where
  window : ∃ ss se, horizon ≤ se ∧
    WindowInv Eq (pulledEvents lib db c.cnightAddresses horizon) c ss se
  tips : ∀ tip pos, c.blockPositionCache.lookup tip = some pos →
    ∃ b, db.getBlockByHash tip = some b ∧ pos = b.toPosition
  memo : ∀ last ∈ c.lastObservation, ∃ b txCapacity,
    db.getBlockByHash last.currentTip = some b ∧ memoCapacity = some txCapacity ∧
      (last.startPosition ≤ b.toPosition →
        last.result = unlimited (pulledEvents lib db c.cnightAddresses horizon)
          last.startPosition b txCapacity)

/-- Queries and refreshes over a fixed database, one at a time. The second component is the
capacity of the query that wrote the memo. -/
inductive CacheStep (lib : CardanoLib) (db : DbSync) : Cache × Option Nat → Cache × Option Nat → Prop
  | query {c : Cache} {m : Option Nat} (q : Query) : CacheStep lib db (c, m)
      ((c.answer lib db q).cache,
        if (c.answer lib db q).cache.lastObservation = c.lastObservation then m
        else some q.txCapacity)
  | refresh {c : Cache} {m : Option Nat} (anchor target : Nat)
      (hcomplete : ∀ p, c.plan db anchor target = some p → PullComplete lib db c p) :
      CacheStep lib db (c, m) (c.refresh lib db anchor target, m)

section Run
variable {lib : CardanoLib} {db : DbSync} {horizon : Nat} {c c' : Cache} {m : Option Nat}

theorem CacheInv.new (lib : CardanoLib) (db : DbSync) (cfg : BulkCacheConfig) :
    CacheInv lib db cfg.windowEndBlock (.new [] cfg) none where
  window := ⟨_, _, le_rfl, windowInv_empty lib db cfg⟩
  tips _ _ h := by cases h
  memo _ h := by cases h

theorem CacheInv.resolveTip (h : CacheInv lib db horizon c m) (htip : c.resolveTip db tip = some (tipPos, c')) :
    (∃ b, db.getBlockByHash tip = some b ∧ tipPos = b.toPosition) ∧ CacheInv lib db horizon c' m ∧
      c'.lastObservation = c.lastObservation := by
  unfold Cache.resolveTip at htip
  split at htip
  · rename_i pos hpos
    cases htip
    exact ⟨h.tips tip tipPos hpos, h, rfl⟩
  · split at htip
    · cases htip
    · rename_i b hb
      cases htip
      refine ⟨⟨b, hb, rfl⟩, ⟨?_, fun tip' pos hpos => ?_, h.memo⟩, rfl⟩
      · obtain ⟨ss, se, hle, hw⟩ := h.window
        exact ⟨ss, se, hle, { hw with }⟩
      · rw [List.lookup_cons] at hpos
        split at hpos
        · rename_i heq
          cases hpos
          rw [eq_of_beq heq]
          exact ⟨b, hb, rfl⟩
        · exact h.tips tip' pos hpos

theorem memoHit_eq_some (h : c.memoHit start tip = some result) :
    ∃ last ∈ c.lastObservation, last.currentTip = tip ∧ last.startPosition = start ∧
      last.result = result := by
  unfold Cache.memoHit at h
  split at h
  · rename_i last hlast
    split at h
    · rename_i heq
      cases h
      exact ⟨last, hlast, heq.1, heq.2, rfl⟩
    · cases h
  · cases h

/-- A query that misses the memo and is served from the window writes another memo. -/
theorem lastObservation_ne_of_memoHit (h : c.memoHit start tip = none) :
    some ⟨start, tip, result⟩ ≠ c.lastObservation := by
  intro heq
  simp [Cache.memoHit, ← heq] at h

theorem answer_path (lib : CardanoLib) (db : DbSync) (c : Cache) (q : Query) :
    QueryPath lib db c q.config q.start q.tip q.txCapacity q.utxoOverestimate
      (c.answer lib db q).result (c.answer lib db q).cache :=
  queryPath ..

theorem CacheInv.query (h : CacheInv lib db horizon c m) (q : Query) :
    CacheInv lib db horizon (c.answer lib db q).cache
      (if (c.answer lib db q).cache.lastObservation = c.lastObservation then m
        else some q.txCapacity) := by
  have hpath := answer_path lib db c q
  generalize (c.answer lib db q).result = r at hpath
  generalize (c.answer lib db q).cache = c' at hpath ⊢
  cases hpath with
  | memo | noBlock => simpa using h
  | live _ htip | panic _ htip =>
    obtain ⟨_, h', hlast⟩ := h.resolveTip htip
    rw [if_pos hlast]
    exact h'
  | window hmemo htip hin hserve =>
    obtain ⟨⟨b, hb, rfl⟩, h', _⟩ := h.resolveTip htip
    obtain ⟨ss, se, hle, hw⟩ := h'.window
    rw [if_neg (lastObservation_ne_of_memoHit hmemo)]
    refine ⟨⟨ss, se, hle, { hw with }⟩, h'.tips, ?_⟩
    intro last hlast
    cases Option.mem_some_iff.mp hlast
    refine ⟨b, q.txCapacity, hb, rfl, fun hstart => ?_⟩
    rw [hw.serve_eq hin hstart] at hserve
    cases hserve
    rfl

theorem CacheInv.refresh (h : CacheInv lib db horizon c m)
    (hcomplete : ∀ p, c.plan db anchor target = some p → PullComplete lib db c p) :
    CacheInv lib db horizon (c.refresh lib db anchor target) m := by
  obtain ⟨ss, se, hle, hw⟩ := h.window
  have hslid := hw.refresh slideStable_eq (pulledEvents_sorted ..) fun p _ hp hfrom hpull =>
    pull_eq_pulledEvents (hcomplete p hp) (hle.trans_lt hfrom) hpull
  obtain ⟨es, s, e, heq⟩ := refresh_frame lib db c anchor target
  rcases hslid with hsame | ⟨ss', se', hlater, _, hw'⟩
  · rw [hsame]
    exact h
  · rw [heq] at hw' ⊢
    exact ⟨⟨ss', se', hle.trans hlater.le, hw'⟩, h.tips, h.memo⟩

theorem CacheInv.run (h : CacheInv lib db horizon s.1 s.2) (hrun : Relation.ReflTransGen (CacheStep lib db) s s') :
    CacheInv lib db horizon s'.1 s'.2 := by
  induction hrun with
  | refl => exact h
  | tail _ hstep ih =>
    cases hstep with
    | query q => exact ih.query q
    | refresh anchor target hcomplete => exact ih.refresh hcomplete

/-- The cache answers the query itself, from its memo or from its window. -/
def Query.AnsweredByCache (q : Query) (c : Cache) (b : Block) : Prop :=
  (c.memoHit q.start q.tip).isSome ∨ c.inWindow q.start b.toPosition

/-- The capacity an answer of the cache is truncated to: a memo was truncated when it was written. -/
def Query.servedCapacity (q : Query) (c : Cache) (m : Option Nat) : Nat :=
  if (c.memoHit q.start q.tip).isSome then m.getD q.txCapacity else q.txCapacity

/-- The condition under which an answer of the cache is the live one: the query is for the
addresses of the cache, its range has no event up to the horizon, the row limits of the live source
are invisible to it, and a memo it hits was written for its capacity. -/
structure Query.Comparable (q : Query) (lib : CardanoLib) (db : DbSync) (horizon : Nat) (c : Cache)
    (m : Option Nat) (b : Block) : Prop where
  config_eq : q.config = c.cnightAddresses
  pulled : ∀ u ∈ slice ObservedUtxo.key q.start.key b.toPosition.increment.key
    (dbEvents lib db q.config), horizon < u.blockNumber
  limits : ∃ ids, LimitsInvisible lib db q.config ids q.start b.toPosition.increment q.txCapacity
    q.utxoOverestimate
  memo : (c.memoHit q.start q.tip).isSome → m = some q.txCapacity

theorem resolveTip_eq_none (h : c.resolveTip db tip = none) : db.getBlockByHash tip = none := by
  unfold Cache.resolveTip at h
  split at h
  · cases h
  · split at h
    · assumption
    · cases h

theorem CacheInv.resolveTip_known (h : CacheInv lib db horizon c m) (hb : db.getBlockByHash tip = some b)
    (htip : c.resolveTip db tip = some (tipPos, c')) (start : CardanoPosition) :
    tipPos = b.toPosition ∧ c'.inWindow start tipPos = c.inWindow start b.toPosition ∧
      c'.cnightAddresses = c.cnightAddresses ∧ CacheInv lib db horizon c' m := by
  obtain ⟨⟨b', hb', hpos⟩, h', _⟩ := h.resolveTip htip
  cases hb.symm.trans hb'
  obtain ⟨_, rfl⟩ := resolveTip_frame htip
  rw [hpos]
  exact ⟨rfl, rfl, rfl, h'⟩

theorem CacheInv.answer_eq (h : CacheInv lib db horizon c m) (hb : db.getBlockByHash q.tip = some b)
    (hstart : q.start ≤ b.toPosition) (hself : q.AnsweredByCache c b) :
    (c.answer lib db q).result =
      .ok (unlimited (pulledEvents lib db c.cnightAddresses horizon) q.start b
        (q.servedCapacity c m)) := by
  have hpath := answer_path lib db c q
  generalize (c.answer lib db q).result = r at hpath ⊢
  generalize (c.answer lib db q).cache = c' at hpath
  cases hpath with
  | memo hhit =>
    obtain ⟨last, hlast, htip, hpos, rfl⟩ := memoHit_eq_some hhit
    obtain ⟨b', cap, hb', hcap, hresult⟩ := h.memo last hlast
    rw [htip, hb] at hb'
    cases hb'
    rw [hpos] at hresult
    rw [hresult hstart, Query.servedCapacity, hhit, hcap]
    rfl
  | noBlock _ htip =>
    rw [resolveTip_eq_none htip] at hb
    cases hb
  | live hmiss htip hout =>
    obtain ⟨_, hwin, _⟩ := h.resolveTip_known hb htip q.start
    simp [Query.AnsweredByCache, hmiss, ← hwin, hout] at hself
  | window hmiss htip hin hserve =>
    obtain ⟨rfl, _, hcfg, h'⟩ := h.resolveTip_known hb htip q.start
    obtain ⟨ss, se, _, hw⟩ := h'.window
    rw [hw.serve_eq hin hstart, hcfg] at hserve
    rw [Query.servedCapacity, hmiss]
    exact hserve.symm
  | panic _ htip hin hserve =>
    obtain ⟨rfl, _, _, h'⟩ := h.resolveTip_known hb htip q.start
    obtain ⟨ss, se, _, hw⟩ := h'.window
    rw [hw.serve_eq hin hstart] at hserve
    cases hserve

theorem CacheInv.answer_eq_live (h : CacheInv lib db horizon c m) (hb : db.getBlockByHash q.tip = some b)
    (hself : ¬ q.AnsweredByCache c b) : (c.answer lib db q).result = liveAnswer lib db q := by
  have hpath := answer_path lib db c q
  rw [liveAnswer]
  generalize (c.answer lib db q).result = r at hpath ⊢
  generalize (c.answer lib db q).cache = c' at hpath
  cases hpath with
  | live => rfl
  | memo hhit => exact absurd (.inl (by simp [hhit])) hself
  | noBlock _ htip =>
    rw [resolveTip_eq_none htip] at hb
    cases hb
  | window _ htip hin | panic _ htip hin =>
    exact absurd (.inr ((h.resolveTip_known hb htip q.start).2.1 ▸ hin)) hself

theorem CacheInv.answer_unknown (h : CacheInv lib db horizon c m) (hb : db.getBlockByHash q.tip = none) :
    (c.answer lib db q).result.toOption = none ∧ (liveAnswer lib db q).toOption = none := by
  constructor
  · have hmiss : c.memoHit q.start q.tip = none := by
      by_contra hhit
      obtain ⟨r, hhit⟩ := Option.ne_none_iff_exists'.mp hhit
      obtain ⟨last, hlast, htip, _⟩ := memoHit_eq_some hhit
      obtain ⟨b, _, hb', _⟩ := h.memo last hlast
      rw [htip, hb] at hb'
      cases hb'
    have htip : c.resolveTip db q.tip = none := by
      unfold Cache.resolveTip
      split
      · rename_i pos hpos
        obtain ⟨b, hb', _⟩ := h.tips _ _ hpos
        rw [hb] at hb'
        cases hb'
      · rw [hb]
    simp [Cache.answer, Cache.getUtxosUpToCapacity, hmiss, htip, Except.toOption]
  · simp [liveAnswer, liveGetUtxosUpToCapacity, hb, throw, throwThe, MonadExceptOf.throw,
      Except.toOption]

/-- **The cached source answers as the live one** after every sequence of queries and refreshes
over one database that starts with an empty cache, for every query that starts at or before its tip
and that is comparable when the cache answers it itself. -/
theorem cached_answer_eq_live (lib : CardanoLib) (db : DbSync) (cfg : BulkCacheConfig) (c : Cache)
    (m : Option Nat)
    (hrun : Relation.ReflTransGen (CacheStep lib db) (.new [] cfg, none) (c, m))
    (q : Query) (hstart : ∀ b, db.getBlockByHash q.tip = some b → q.start ≤ b.toPosition)
    (hcomparable : ∀ b, db.getBlockByHash q.tip = some b → q.AnsweredByCache c b →
      q.Comparable lib db cfg.windowEndBlock c m b) :
    (c.answer lib db q).result.toOption = (liveAnswer lib db q).toOption := by
  have h : CacheInv lib db cfg.windowEndBlock c m := (CacheInv.new lib db cfg).run hrun
  cases hb : db.getBlockByHash q.tip with
  | none =>
    obtain ⟨hcached, hlive⟩ := h.answer_unknown hb
    rw [hcached, hlive]
  | some b =>
    by_cases hself : q.AnsweredByCache c b
    · obtain ⟨hcfg, hpulled, ⟨ids, hlimits⟩, hmemo⟩ := hcomparable b hb hself
      have hcap : q.servedCapacity c m = q.txCapacity := by
        unfold Query.servedCapacity
        split
        · rename_i hhit
          rw [hmemo hhit]
          rfl
        · rfl
      rw [h.answer_eq hb (hstart b hb) hself, hcap, live_eq_unlimited hb hlimits, ← hcfg, unlimited,
        slice_pulledEvents hpulled, unlimited]
    · rw [h.answer_eq_live hb hself]

end Run

def sampleQuery (start tip txCapacity : Nat) : Query :=
  { config := sampleConfig, start := .minForBlock start, tip := (sampleBlock tip).hash, txCapacity
    utxoOverestimate := 4 * txCapacity }

/-- A cache that starts empty with block 0 as its window and pulls the blocks up to `target`. -/
def refreshedCache (outputs n target : Nat) : Cache :=
  (Cache.new [] sampleCacheConfig).refresh sampleLib (sampleDb outputs n) 0 target

theorem refreshedCache_cnightAddresses :
    (refreshedCache outputs n target).cnightAddresses = sampleConfig := by
  obtain ⟨_, _, _, h⟩ := refresh_frame sampleLib (sampleDb outputs n) (.new [] sampleCacheConfig) 0
    target
  rw [refreshedCache, h]
  rfl

theorem refreshedCache_run
    (hplan : (Cache.new [] sampleCacheConfig).plan (sampleDb outputs n) 0 target = some p)
    (hcut : cutOff (eventStreams sampleLib (sampleDb outputs n) sampleConfig sampleIds)
      (CardanoPosition.minForBlock p.fromBlock).key (CardanoPosition.maxForBlock p.targetEnd).key
      largeLimit = []) :
    Relation.ReflTransGen (CacheStep sampleLib (sampleDb outputs n)) (.new [] sampleCacheConfig, none)
      (refreshedCache outputs n target, none) := by
  refine .single (.refresh 0 target fun p' hp' ids hids => ?_)
  cases hplan.symm.trans hp'
  cases hids
  exact hcut

theorem sampleQuery_tip :
    (sampleDb 1 3).getBlockByHash (sampleQuery 1 2 2).tip = some (sampleBlock 2) := rfl

theorem sampleQuery_comparable (b : Block)
    (hb : (sampleDb 1 3).getBlockByHash (sampleQuery 1 2 2).tip = some b) :
    (sampleQuery 1 2 2).Comparable sampleLib (sampleDb 1 3) 0 (refreshedCache 1 3 2) none b := by
  cases sampleQuery_tip.symm.trans hb
  have hcut : cutOff (eventStreams sampleLib (sampleDb 1 3) sampleConfig sampleIds)
      (sampleQuery 1 2 2).start.key (sampleBlock 2).toPosition.increment.key (4 * 2) = [] := by
    decide +kernel
  have hmemo : (refreshedCache 1 3 2).lastObservation = none := by decide +kernel
  refine ⟨refreshedCache_cnightAddresses.symm, by decide +kernel,
    ⟨sampleIds, rfl, ⟨by decide, fun u hu => ?_, fun u hu => ?_⟩, fun _ => hcut⟩, fun h => ?_⟩
  · exact absurd (hcut ▸ hu) List.not_mem_nil
  · exact absurd (hcut ▸ hu) List.not_mem_nil
  · simp [Cache.memoHit, hmemo] at h

theorem cached_answer_eq_live_after_refresh :
    ((refreshedCache 1 3 2).answer sampleLib (sampleDb 1 3) (sampleQuery 1 2 2)).result.toOption =
      (liveAnswer sampleLib (sampleDb 1 3) (sampleQuery 1 2 2)).toOption :=
  have hplan : (Cache.new [] sampleCacheConfig).plan (sampleDb 1 3) 0 2 = some ⟨1, 0, 2⟩ := by decide
  cached_answer_eq_live sampleLib (sampleDb 1 3) sampleCacheConfig _ none
    (refreshedCache_run hplan (by decide +kernel)) (sampleQuery 1 2 2)
    (fun b hb => by
      cases sampleQuery_tip.symm.trans hb
      decide)
    (fun b hb _ => sampleQuery_comparable b hb)

/-- With a capacity of two transactions and one transaction of nine outputs, the cache returns all
nine and the live source the eight its row limit lets through. And the cache has nothing of the
block it started with. -/
theorem cached_answer_ne_live_nine_outputs :
    (((refreshedCache 9 2 1).answer sampleLib (sampleDb 9 2)
        (sampleQuery 1 1 2)).result.toOption.map (·.utxos.length) = some 9 ∧
      (liveAnswer sampleLib (sampleDb 9 2) (sampleQuery 1 1 2)).toOption.map (·.utxos.length) =
        some 8) ∧
    ((refreshedCache 1 2 1).answer sampleLib (sampleDb 1 2)
        (sampleQuery 0 1 3)).result.toOption.map (·.utxos.length) = some 1 ∧
      (liveAnswer sampleLib (sampleDb 1 2) (sampleQuery 0 1 3)).toOption.map (·.utxos.length) =
        some 2 := by
  decide +kernel

end MidnightNode.CNight
