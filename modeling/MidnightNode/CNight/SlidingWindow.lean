import MidnightNode.CNight.LiveSource

/-!
# The sliding-window data source

The cached source (`data_source/cnight_observation_bulk`): a window of events held in memory with
its block bounds, the memo of the last query served from it, and the refresh that slides the window
forward. A refresh is kept as the steps the code takes between its locks (`plan`, the pull, `slide`,
`writeStart`, `writeEnd`); `refresh` runs them in a row.
-/

namespace MidnightNode.CNight

open SortedSlice

/-! ## Constants -/

/-- The row limit of a refresh. -/
def largeLimit : Nat := 5000000

/-- How close to the end of the window a query may come before it asks for a refresh. -/
def refreshThreshold : Nat := 10000

/-! ## State -/

structure LastObservation where
  startPosition : CardanoPosition
  currentTip : McBlockHash
  result : ObservedUtxos
deriving DecidableEq

structure Cache where
  allEvents : List ObservedUtxo
  /-- The map from tip hashes to positions, newest entry first. -/
  blockPositionCache : List (McBlockHash × CardanoPosition)
  lastObservation : Option LastObservation
  snapshotStartBlock : Option Nat
  snapshotEndBlock : Option Nat
  cnightAddresses : CNightAddresses
  stabilityMargin : Nat
  windowSize : Nat

structure BulkCacheConfig where
  windowStartBlock : Nat
  windowEndBlock : Nat
  windowSize : Nat
  stabilityMargin : Nat
  cnightAddresses : CNightAddresses

/-- `BulkCachedCNightObservationDataSource::new`. The caller has pulled `events` from the blocks
`[windowStartBlock, windowEndBlock]`. -/
def Cache.new (events : List ObservedUtxo) (config : BulkCacheConfig) : Cache where
  allEvents := events
  blockPositionCache := []
  lastObservation := none
  snapshotStartBlock := some config.windowStartBlock
  snapshotEndBlock := some config.windowEndBlock
  cnightAddresses := config.cnightAddresses
  stabilityMargin := config.stabilityMargin
  windowSize := config.windowSize

/-! ## Refresh -/

/-- The block a refresh pulls from, and the new start of the window. -/
def planRefresh (oldEnd followerAnchor existingStart : Nat) (trimAnchor : Option Nat)
    (windowSize : Nat) : Nat × Nat :=
  let contiguousFrom := saturatingAdd u32Max oldEnd 1
  if contiguousFrom < followerAnchor then (followerAnchor, followerAnchor)
  else
    let newWindowStart := match trimAnchor with
      | some anchor => max existingStart (anchor - windowSize)
      | none => existingStart
    (contiguousFrom, newWindowStart)

/-- Drop the events before the new window, then append the extension. -/
def slideEvents (existing extension : List ObservedUtxo) (newWindowStart : Nat) :
    List ObservedUtxo :=
  existing.drop (partitionPoint (fun u => decide (u.blockNumber < newWindowStart)) existing) ++
    extension

structure RefreshPlan where
  fromBlock : Nat
  newWindowStart : Nat
  targetEnd : Nat
deriving DecidableEq, Repr

namespace Cache

/-- The part of `refresh` before the pull; `none` where it returns early. -/
def plan (c : Cache) (db : DbSync) (followerAnchor targetEnd : Nat) : Option RefreshPlan :=
  match db.getHighestStableBlockLe targetEnd c.stabilityMargin with
  | none => none
  | some targetEnd =>
    let oldEnd := c.snapshotEndBlock.getD 0
    if targetEnd ≤ oldEnd then none
    else
      let existingStart := c.snapshotStartBlock.getD (saturatingAdd u32Max oldEnd 1)
      let trimAnchor := c.lastObservation.map (·.startPosition.blockNumber)
      let (fromBlock, newWindowStart) :=
        planRefresh oldEnd followerAnchor existingStart trimAnchor c.windowSize
      if targetEnd < fromBlock then none else some { fromBlock, newWindowStart, targetEnd }

/-- The pull of a planned refresh: whole blocks, with the wide row limit. -/
def pull (lib : CardanoLib) (db : DbSync) (c : Cache) (p : RefreshPlan) :
    Except BulkPullError (List ObservedUtxo) :=
  bulkPull lib db c.cnightAddresses (.minForBlock p.fromBlock) (.maxForBlock p.targetEnd) largeLimit

def slide (c : Cache) (extension : List ObservedUtxo) (p : RefreshPlan) : Cache :=
  { c with allEvents := slideEvents c.allEvents extension p.newWindowStart }

def writeStart (c : Cache) (p : RefreshPlan) : Cache :=
  { c with snapshotStartBlock := some p.newWindowStart }

def writeEnd (c : Cache) (p : RefreshPlan) : Cache :=
  { c with snapshotEndBlock := some p.targetEnd }

/-- A refresh that nothing interrupts. An error of the pull is logged and leaves the cache as it
was. -/
def refresh (lib : CardanoLib) (db : DbSync) (c : Cache) (followerAnchor targetEnd : Nat) : Cache :=
  match c.plan db followerAnchor targetEnd with
  | none => c
  | some p =>
    match c.pull lib db p with
    | .error _ => c
    | .ok extension => ((c.slide extension p).writeStart p).writeEnd p

end Cache

/-! ## Queries -/

/-- The events of the sorted vector with a position in `[start, end)`; indexing panics when the
two partition points are in the wrong order. -/
def sliceRange (vec : List ObservedUtxo) (start end_ : CardanoPosition) :
    Option (List ObservedUtxo) :=
  let a := partitionPoint (fun u : ObservedUtxo => decide (u.position < start)) vec
  let b := partitionPoint (fun u : ObservedUtxo => decide (u.position < end_)) vec
  if a ≤ b then some ((vec.take b).drop a) else none

structure QueryOutcome where
  result : Except DataSourceError ObservedUtxos
  cache : Cache
  kicked : Option (Nat × Nat)

namespace Cache

/-- The memo of the last query, when it answers this one. -/
def memoHit (c : Cache) (startPosition : CardanoPosition) (currentTip : McBlockHash) :
    Option ObservedUtxos :=
  match c.lastObservation with
  | some last =>
    if last.currentTip = currentTip ∧ last.startPosition = startPosition then some last.result
    else none
  | none => none

/-- The position of the tip, from the map or from the database. -/
def resolveTip (c : Cache) (db : DbSync) (currentTip : McBlockHash) :
    Option (CardanoPosition × Cache) :=
  match c.blockPositionCache.lookup currentTip with
  | some pos => some (pos, c)
  | none =>
    match db.getBlockByHash currentTip with
    | none => none
    | some block =>
      some (block.toPosition,
        { c with blockPositionCache := (currentTip, block.toPosition) :: c.blockPositionCache })

/-- Whether the query lies outside the window `[snapshotStart, snapshotEnd]` it has read. -/
def outsideWindow (snapshotStart : Option Nat) (snapshotEnd : Nat) (startPosition tipPos :
    CardanoPosition) : Bool :=
  decide (snapshotEnd < tipPos.blockNumber) ||
    snapshotStart.any fun ss => decide (startPosition.blockNumber < ss)

/-- Whether the cache serves the query from the stored events. -/
def inWindow (c : Cache) (startPosition tipPos : CardanoPosition) : Bool :=
  match c.snapshotEndBlock with
  | none => false
  | some snapshotEnd => !outsideWindow c.snapshotStartBlock snapshotEnd startPosition tipPos

/-- The answer of a query that is served from the stored events. -/
def serve (allEvents : List ObservedUtxo) (startPosition tipPos : CardanoPosition)
    (txCapacity : Nat) : Except DataSourceError ObservedUtxos :=
  match sliceRange allEvents startPosition tipPos.increment with
  | none => .error .slicePanic
  | some window => .ok (truncateToTxCapacity window txCapacity startPosition tipPos.increment).1

/-- `get_utxos_up_to_capacity` of the cached source. -/
def getUtxosUpToCapacity (lib : CardanoLib) (db : DbSync) (c : Cache) (config : CNightAddresses)
    (startPosition : CardanoPosition) (currentTip : McBlockHash)
    (txCapacity utxoOverestimate : Nat) : QueryOutcome :=
  match c.memoHit startPosition currentTip with
  | some result => { result := .ok result, cache := c, kicked := none }
  | none =>
    match c.resolveTip db currentTip with
    | none => { result := .error (.missingBlockForTip currentTip), cache := c, kicked := none }
    | some (tipPos, c) =>
      let live := liveGetUtxosUpToCapacity lib db config startPosition currentTip txCapacity
        utxoOverestimate
      match c.snapshotEndBlock with
      | none => { result := live, cache := c, kicked := none }
      | some snapshotEnd =>
        let kicked :=
          if snapshotEnd ≤ saturatingAdd u32Max tipPos.blockNumber refreshThreshold then
            some (startPosition.blockNumber, saturatingAdd u32Max
              (saturatingAdd u32Max tipPos.blockNumber refreshThreshold) c.stabilityMargin)
          else none
        if outsideWindow c.snapshotStartBlock snapshotEnd startPosition tipPos then
          { result := live, cache := c, kicked }
        else
          match serve c.allEvents startPosition tipPos txCapacity with
          | .error e => { result := .error e, cache := c, kicked }
          | .ok result =>
            { result := .ok result
              cache := { c with lastObservation := some { startPosition, currentTip, result } }
              kicked }

end Cache

/-! ## Lemmas about slices and refreshes -/

section Lemmas
variable {lib : CardanoLib} {db : DbSync} {c : Cache}

theorem decide_position_lt (p : CardanoPosition) :
    (fun u : ObservedUtxo => decide (u.position < p)) = fun u => decide (u.key < p.key) := by
  funext u
  exact decide_eq_decide.mpr CardanoPosition.lt_iff_key

theorem sliceRange_eq (hs : SortedBy ObservedUtxo.key vec) (hle : start.key ≤ end_.key) :
    sliceRange vec start end_ = some (slice ObservedUtxo.key start.key end_.key vec) := by
  simp only [sliceRange, decide_position_lt]
  rw [if_pos (hs.partitionPoint_mono hle), hs.drop_take_partitionPoint hle]

/-- A query that reaches the stored events changes only the memo and the map of tip positions. -/
theorem resolveTip_frame (h : c.resolveTip db tip = some (tipPos, c')) :
    ∃ m, c' = { c with blockPositionCache := m } := by
  unfold Cache.resolveTip at h
  split at h
  · cases h
    exact ⟨_, rfl⟩
  · split at h
    · cases h
    · cases h
      exact ⟨_, rfl⟩

/-- The ways a query is answered, each with the answer and the cache it leaves. -/
inductive QueryPath (lib : CardanoLib) (db : DbSync) (c : Cache) (config : CNightAddresses)
    (start : CardanoPosition) (tip : McBlockHash) (txCapacity limit : Nat) :
    Except DataSourceError ObservedUtxos → Cache → Prop
  | memo {result : ObservedUtxos} (hmemo : c.memoHit start tip = some result) :
      QueryPath lib db c config start tip txCapacity limit (.ok result) c
  | noBlock (hmemo : c.memoHit start tip = none) (htip : c.resolveTip db tip = none) :
      QueryPath lib db c config start tip txCapacity limit (.error (.missingBlockForTip tip)) c
  | live {tipPos : CardanoPosition} {c' : Cache} (hmemo : c.memoHit start tip = none)
      (htip : c.resolveTip db tip = some (tipPos, c')) (hout : c'.inWindow start tipPos = false) :
      QueryPath lib db c config start tip txCapacity limit
        (liveGetUtxosUpToCapacity lib db config start tip txCapacity limit) c'
  | window {tipPos : CardanoPosition} {c' : Cache} {result : ObservedUtxos}
      (hmemo : c.memoHit start tip = none) (htip : c.resolveTip db tip = some (tipPos, c'))
      (hin : c'.inWindow start tipPos = true)
      (hserve : Cache.serve c'.allEvents start tipPos txCapacity = .ok result) :
      QueryPath lib db c config start tip txCapacity limit (.ok result)
        { c' with lastObservation := some ⟨start, tip, result⟩ }
  | panic {tipPos : CardanoPosition} {c' : Cache} {e : DataSourceError}
      (hmemo : c.memoHit start tip = none) (htip : c.resolveTip db tip = some (tipPos, c'))
      (hin : c'.inWindow start tipPos = true)
      (hserve : Cache.serve c'.allEvents start tipPos txCapacity = .error e) :
      QueryPath lib db c config start tip txCapacity limit (.error e) c'

theorem queryPath (lib : CardanoLib) (db : DbSync) (c : Cache) (config : CNightAddresses)
    (start : CardanoPosition) (tip : McBlockHash) (txCapacity limit : Nat) :
    QueryPath lib db c config start tip txCapacity limit
      (c.getUtxosUpToCapacity lib db config start tip txCapacity limit).result
      (c.getUtxosUpToCapacity lib db config start tip txCapacity limit).cache := by
  unfold Cache.getUtxosUpToCapacity
  split
  · rename_i hmemo
    exact .memo hmemo
  · rename_i hmemo
    split
    · rename_i htip
      exact .noBlock hmemo htip
    · rename_i tipPos c' htip
      split
      · rename_i hend
        exact .live hmemo htip (by simp [Cache.inWindow, hend])
      · rename_i hend
        dsimp only
        split
        · rename_i hout
          exact .live hmemo htip (by simp [Cache.inWindow, hend, hout])
        · rename_i hin
          have hin : c'.inWindow start tipPos = true := by
            simpa [Cache.inWindow, hend] using hin
          split
          · rename_i hserve
            exact .panic hmemo htip hin hserve
          · rename_i hserve
            exact .window hmemo htip hin hserve

/-- The frame of a query: the window and its bounds stay as they are. -/
theorem getUtxosUpToCapacity_frame (lib : CardanoLib) (db : DbSync) (c : Cache)
    (config : CNightAddresses) (start : CardanoPosition) (tip : McBlockHash)
    (txCapacity limit : Nat) :
    ∃ m o, (c.getUtxosUpToCapacity lib db config start tip txCapacity limit).cache =
      { c with blockPositionCache := m, lastObservation := o } := by
  have hpath := queryPath lib db c config start tip txCapacity limit
  generalize (c.getUtxosUpToCapacity lib db config start tip txCapacity limit).result = r at hpath
  generalize (c.getUtxosUpToCapacity lib db config start tip txCapacity limit).cache = c' at hpath ⊢
  cases hpath with
  | memo | noBlock => exact ⟨_, _, rfl⟩
  | live _ htip | window _ htip | panic _ htip =>
    obtain ⟨m, rfl⟩ := resolveTip_frame htip
    exact ⟨_, _, rfl⟩

/-- The frame of a refresh: only the window and its bounds change. -/
theorem refresh_frame (lib : CardanoLib) (db : DbSync) (c : Cache) (anchor target : Nat) :
    ∃ es s e, c.refresh lib db anchor target =
      { c with allEvents := es, snapshotStartBlock := s, snapshotEndBlock := e } := by
  unfold Cache.refresh
  split
  · exact ⟨_, _, _, rfl⟩
  · split <;> exact ⟨_, _, _, rfl⟩

end Lemmas

end MidnightNode.CNight
