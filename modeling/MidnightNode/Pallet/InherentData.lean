import MidnightNode.CNight.CacheRefinement
import MidnightNode.Lib.Fallible
import MidnightNode.Pallet.Registrations

/-!
# The observation inherent, from the data source to the pallet

A block author reads capacity and position from the runtime of the parent block, asks a data source
for the UTXOs of the next transactions and hands them to `process_tokens`
(`primitives/mainchain-follower/idp/cnight_observation.rs`). The call is mandatory: if the pallet
rejects it, the block is invalid.

The author bounds the list by transactions, and on the live path by rows; the pallet bounds it by
UTXOs. Which inherents are rejected follows from what the source reads.
-/

namespace MidnightNode.Pallet
open CNight CardanoPosition SortedSlice

/-! ## The inherent data provider -/

structure RuntimeApi where
  mappingValidatorAddress : List UInt8
  authTokenAssetName : List UInt8
  cnightTokenIdentifier : List UInt8 × List UInt8
  nextCardanoPosition : CardanoPosition
  utxoCapacityPerBlock : Nat
  apiVersion : Option Nat

inductive IDPCreationError
  | dataSourceError (error : DataSourceError)
  | stringDecodeError
  | invalidOnchainStateCNight (field : String)
  | authTokenAssetNameNotString
  | cNightObservationApiUnavailable
deriving DecidableEq, Repr

structure InherentData where
  utxos : List ObservedUtxo
  nextCardanoPosition : CardanoPosition
deriving DecidableEq

/-- How many rows are fetched for each transaction of the capacity. -/
def overestimateFactor (apiVersion : Nat) : Nat := if 2 ≤ apiVersion then 4 else 64

/-- The query an author makes; `utf8` decodes texts. -/
def observationQuery (utf8 : List UInt8 → Option String) (api : RuntimeApi) (mcHash : McBlockHash) :
    Except IDPCreationError Query := do
  let some mappingValidatorAddress := utf8 api.mappingValidatorAddress | throw .stringDecodeError
  let txCapacity := api.utxoCapacityPerBlock
  let some apiVersion := api.apiVersion | throw .cNightObservationApiUnavailable
  let utxoOverestimate := saturatingMul txCapacity (overestimateFactor apiVersion)
  let (policyId, assetName) := api.cnightTokenIdentifier
  let some authTokenAssetName := utf8 api.authTokenAssetName | throw .authTokenAssetNameNotString
  let some cnightPolicyId := Bytes.ofList? 28 policyId
    | throw (.invalidOnchainStateCNight "cnight_policy_id")
  let some cnightAssetName := utf8 assetName
    | throw (.invalidOnchainStateCNight "cnight_asset_name")
  pure {
    config := { mappingValidatorAddress, authTokenAssetName, cnightPolicyId, cnightAssetName }
    start := api.nextCardanoPosition
    tip := mcHash
    txCapacity
    utxoOverestimate }

/-- `MidnightCNightObservationInherentDataProvider::new`. -/
def newInherentData (utf8 : List UInt8 → Option String) (api : RuntimeApi)
    (getUtxosUpToCapacity : Query → Except DataSourceError ObservedUtxos) (mcHash : McBlockHash) :
    Except IDPCreationError InherentData := do
  let q ← observationQuery utf8 api mcHash
  match getUtxosUpToCapacity q with
  | .ok observed => pure ⟨observed.utxos, observed.end_⟩
  | .error e => throw (.dataSourceError e)

structure OnchainConfig where
  mappingValidatorAddress : List UInt8
  authTokenAssetName : List UInt8
  cnightIdentifier : List UInt8 × List UInt8

/-- The runtime API over the storage of the pallet. -/
def State.runtimeApi (s : State) (config : OnchainConfig) (apiVersion : Option Nat) :
    RuntimeApi where
  mappingValidatorAddress := config.mappingValidatorAddress
  authTokenAssetName := config.authTokenAssetName
  cnightTokenIdentifier := config.cnightIdentifier
  nextCardanoPosition := s.nextCardanoPosition
  utxoCapacityPerBlock := s.cardanoTxCapacityPerBlock
  apiVersion

theorem newInherentData_inv (h : newInherentData utf8 api source tip = .ok data) :
    ∃ q r, observationQuery utf8 api tip = .ok q ∧ source q = .ok r ∧
      data = ⟨r.utxos, r.end_⟩ := by
  unfold newInherentData at h
  obtain ⟨q, hq, h⟩ := Fallible.of_bind h
  split at h
  case h_1 r hr =>
    cases h
    exact ⟨q, r, hq, hr, rfl⟩
  case h_2 => cases h

theorem observationQuery_inv (h : observationQuery utf8 api tip = .ok q) :
    q.start = api.nextCardanoPosition ∧ q.tip = tip ∧ q.txCapacity = api.utxoCapacityPerBlock ∧
      ∃ version, api.apiVersion = some version ∧
        q.utxoOverestimate = saturatingMul q.txCapacity (overestimateFactor version) := by
  unfold observationQuery at h
  simp only [pure, Except.pure, throw, throwThe, MonadExceptOf.throw] at h
  split at h
  · split at h
    · rename_i version hversion
      split at h
      · split at h
        · split at h
          · cases h
            exact ⟨rfl, rfl, rfl, version, hversion, rfl⟩
          · cases h
        · cases h
      · cases h
    · cases h
  · cases h

/-! ## The checks of the pallet -/

section
variable {Owner : Type} {rt : Runtime Owner} {exec : Executor} {s : State}

theorem applyDustEvents_ne_error (e : Error) :
    applyDustEvents rt exec s events next ≠ .error (.cnightObservation e) := by
  unfold applyDustEvents
  split
  · exact fun h => nomatch h
  · split
    · split <;> exact fun h => nomatch h
    · exact fun h => nomatch h

/-- An inherent is rejected for its number of UTXOs or, where the position is looked at, for its
position. -/
theorem not_rejected_iff (rt : Runtime Owner) (exec : Executor) (s : State) (data : InherentData) :
    (processTokens rt exec s .none data.utxos data.nextCardanoPosition ≠
        .error (.cnightObservation .tooManyUtxos) ∧
      processTokens rt exec s .none data.utxos data.nextCardanoPosition ≠
        .error (.cnightObservation .cardanoPositionRegression)) ↔
    data.utxos.length % 2 ^ 32 ≤ saturatingMul s.cardanoTxCapacityPerBlock utxoPerTxOverestimate ∧
      (s.inherentExecutedThisBlock = true ∨ s.storageVersion < currentStorageVersion ∨
        s.nextCardanoPosition ≤ data.nextCardanoPosition) := by
  unfold processTokens
  generalize data.utxos.length % 2 ^ 32 = count
  generalize saturatingMul s.cardanoTxCapacityPerBlock utxoPerTxOverestimate = bound
  simp only [bind, Except.bind, pure, Except.pure, throw, throwThe, MonadExceptOf.throw]
  by_cases hcount : count ≤ bound
  · by_cases hflag : s.inherentExecutedThisBlock = true
    · simp [hcount, hflag]
    · by_cases hversion : s.storageVersion < currentStorageVersion
      · simp [hcount, hflag, hversion]
      · by_cases hnext : s.nextCardanoPosition ≤ data.nextCardanoPosition
        · simp [hcount, hflag, hversion, hnext, applyDustEvents_ne_error]
        · simp [hcount, hflag, hversion, hnext]
  · simp [hcount]

end

/-! ## What a source reads -/

/-- The database itself, or the cache, with the capacity its memo was written for and the last block
of the window it was created with. -/
inductive DataSource
  | live
  | cached (c : Cache) (memoCapacity : Option Nat) (horizon : Nat)

def DataSource.answer (lib : CardanoLib) (db : DbSync) :
    DataSource → Query → Except DataSourceError ObservedUtxos
  | live, q => liveAnswer lib db q
  | cached c _ _, q => (c.answer lib db q).result

/-- A cache has come from an empty one, which the node creates, by queries and refreshes whose pulls
reach no row limit. -/
def DataSource.Reached (lib : CardanoLib) (db : DbSync) : DataSource → Prop
  | live => True
  | cached c m horizon => ∃ cfg : BulkCacheConfig, cfg.windowEndBlock = horizon ∧
      Relation.ReflTransGen (CacheStep lib db) (.new [] cfg, none) (c, m)

/-- The events the row limits of a live query let through. -/
def liveRead (lib : CardanoLib) (db : DbSync) (q : Query) (b : Block) : List ObservedUtxo :=
  match resolveIds lib db q.config with
  | .ok ids => fetched (eventStreams lib db q.config ids) q.start.key b.toPosition.increment.key
      q.utxoOverestimate
  | .error _ => []

/-- The events a source reads for a query up to the block of its tip, and the capacity they are
truncated to. The cache reads all events of the range that lie past the horizon, for the addresses it
is configured with. -/
def DataSource.read (lib : CardanoLib) (db : DbSync) : DataSource → Query → Block →
    List ObservedUtxo × Nat
  | live, q, b => (liveRead lib db q b, q.txCapacity)
  | cached c m horizon, q, b =>
    if (c.memoHit q.start q.tip).isSome || c.inWindow q.start b.toPosition then
      (slice ObservedUtxo.key q.start.key b.toPosition.increment.key
        (pulledEvents lib db c.cnightAddresses horizon), q.servedCapacity c m)
    else (liveRead lib db q b, q.txCapacity)

section
variable {lib : CardanoLib} {db : DbSync} {q : Query} {b : Block} {r : ObservedUtxos}

theorem liveAnswer_eq (hb : db.getBlockByHash q.tip = some b) (h : liveAnswer lib db q = .ok r) :
    r = (truncateToTxCapacity (liveRead lib db q b) q.txCapacity q.start
      b.toPosition.increment).1 := by
  rw [liveAnswer] at h
  cases hids : resolveIds lib db q.config with
  | ok ids =>
    rw [liveGetUtxosUpToCapacity_eq hids hb] at h
    split at h
    · cases h
      rw [liveRead, hids]
    · cases h
  | error e =>
    simp [liveGetUtxosUpToCapacity, hb, bulkPull_of_error hids, throw, throwThe,
      MonadExceptOf.throw] at h

theorem DataSource.answer_eq {source : DataSource} (hreached : source.Reached lib db)
    (hb : db.getBlockByHash q.tip = some b) (hstart : q.start ≤ b.toPosition)
    (h : source.answer lib db q = .ok r) :
    r = (truncateToTxCapacity (source.read lib db q b).1 (source.read lib db q b).2 q.start
      b.toPosition.increment).1 := by
  cases source with
  | live => exact liveAnswer_eq hb h
  | cached c m horizon =>
    obtain ⟨cfg, rfl, hrun⟩ := hreached
    have hinv : CacheInv lib db cfg.windowEndBlock c m := (CacheInv.new lib db cfg).run hrun
    simp only [DataSource.answer, DataSource.read] at h ⊢
    split
    · rename_i hself
      rw [hinv.answer_eq hb hstart (Bool.or_eq_true_iff.mp hself)] at h
      cases h
      rfl
    · rename_i hself
      rw [hinv.answer_eq_live hb fun hc => hself (Bool.or_eq_true_iff.mpr hc)] at h
      exact liveAnswer_eq hb h

/-- Whatever the source, it reads the rows of a live query or a slice of what refreshes pull. -/
theorem DataSource.read_cases (lib : CardanoLib) (db : DbSync) (source : DataSource) (q : Query)
    (b : Block) : (source.read lib db q b).1 = liveRead lib db q b ∨
      ∃ addresses horizon, (source.read lib db q b).1 =
        slice ObservedUtxo.key q.start.key b.toPosition.increment.key
          (pulledEvents lib db addresses horizon) := by
  cases source with
  | live => exact .inl rfl
  | cached c m horizon =>
    simp only [DataSource.read]
    split
    · exact .inr ⟨c.cnightAddresses, horizon, rfl⟩
    · exact .inl rfl

theorem liveRead_sorted : SortedBy ObservedUtxo.key (liveRead lib db q b) := by
  unfold liveRead
  split
  · exact fetched_sorted
  · exact .nil

theorem read_sorted (lib : CardanoLib) (db : DbSync) (source : DataSource) (q : Query) (b : Block) :
    SortedBy ObservedUtxo.key (source.read lib db q b).1 := by
  rcases source.read_cases lib db q b with hread | ⟨addresses, horizon, hread⟩
  · rw [hread]
    exact liveRead_sorted
  · rw [hread]
    exact (pulledEvents_sorted lib db addresses horizon).slice

theorem mem_liveRead (hu : u ∈ liveRead lib db q b) :
    q.start.key ≤ u.key ∧ u.position.txIndexInBlock < i32Max := by
  unfold liveRead at hu
  split at hu
  · obtain ⟨hmem, hle, -⟩ := mem_fetched_range hu
    exact ⟨hle, txIndex_lt_of_mem_orderedEvents hmem⟩
  · cases hu

theorem mem_read {source : DataSource} (hu : u ∈ (source.read lib db q b).1) :
    q.start.key ≤ u.key ∧ u.position.txIndexInBlock < i32Max := by
  rcases source.read_cases lib db q b with hread | ⟨addresses, horizon, hread⟩
  · exact mem_liveRead (hread ▸ hu)
  · rw [hread] at hu
    obtain ⟨hmem, hle, -⟩ := mem_slice.mp hu
    exact ⟨hle, txIndex_lt_of_mem_dbEvents (List.mem_of_mem_filter hmem)⟩

end

/-! ## Which inherents are accepted -/

/-- The events of the first `txCapacity - 1` transactions; all of them without a capacity. -/
def keptEvents (txCapacity : Nat) (events : List ObservedUtxo) : List ObservedUtxo :=
  if txCapacity = 0 then events else firstKeys ObservedUtxo.key (txCapacity - 1) events

/-- The next position does not fall behind the start: the range is exhausted, something is kept, or
the transaction index can be incremented. -/
def Advances (txCapacity : Nat) (events : List ObservedUtxo) (start : CardanoPosition) : Prop :=
  numKeys ObservedUtxo.key events < txCapacity ∨ keptEvents txCapacity events ≠ [] ∨
    start.txIndexInBlock + 1 < 2 ^ 32

section
variable {events : List ObservedUtxo} {start end_ : CardanoPosition} {txCapacity : Nat}

theorem keptEvents_sublist (txCapacity : Nat) (events : List ObservedUtxo) :
    (keptEvents txCapacity events).Sublist events := by
  unfold keptEvents
  split
  · exact .refl _
  · exact List.filter_sublist

/-- The truncated list and its end, for every capacity. -/
theorem truncate_eq (hs : SortedBy ObservedUtxo.key events) :
    (truncateToTxCapacity events txCapacity start end_).1 =
      { start
        end_ := if numKeys ObservedUtxo.key events < txCapacity then end_
          else (((keptEvents txCapacity events).getLast?.map (·.position)).getD start).increment
        utxos := keptEvents txCapacity events } := by
  rcases Nat.eq_zero_or_pos txCapacity with rfl | hpos
  · rw [truncateToTxCapacity_zero hs, if_neg (Nat.not_lt_zero _)]
    rfl
  · rw [truncateToTxCapacity_eq hs hpos, keptEvents, if_neg hpos.ne']

/-- Incrementing a transaction index that cannot be incremented falls behind. -/
theorem key_le_increment_iff (p : CardanoPosition) :
    p.key ≤ p.increment.key ↔ p.txIndexInBlock + 1 < 2 ^ 32 := by
  refine ⟨fun h => ?_, key_le_increment⟩
  by_contra hge
  have hle := key_le_iff.mp h
  have hmod := Nat.mod_lt (p.txIndexInBlock + 1) (Nat.two_pow_pos 32)
  simp only [CardanoPosition.increment, lt_self_iff_false, true_and, false_or] at hle
  omega

theorem truncate_end_le_iff (txCapacity : Nat) (hs : SortedBy ObservedUtxo.key events)
    (hmem : ∀ u ∈ events, start.key ≤ u.key ∧ u.position.txIndexInBlock < i32Max)
    (hse : start.key ≤ end_.key) :
    start.key ≤ (truncateToTxCapacity events txCapacity start end_).1.end_.key ↔
      Advances txCapacity events start := by
  rw [truncate_eq hs]
  by_cases hfull : numKeys ObservedUtxo.key events < txCapacity
  · rw [if_pos hfull]
    exact ⟨fun _ => .inl hfull, fun _ => hse⟩
  · rw [if_neg hfull, Advances, or_iff_right hfull]
    cases hlast : (keptEvents txCapacity events).getLast? with
    | none =>
      rw [List.getLast?_eq_none_iff.mp hlast]
      simpa using key_le_increment_iff start
    | some u =>
      have hu : u ∈ keptEvents txCapacity events := List.mem_of_getLast? hlast
      obtain ⟨hle, hindex⟩ := hmem u ((keptEvents_sublist txCapacity events).subset hu)
      have hne : keptEvents txCapacity events ≠ [] := List.ne_nil_of_mem hu
      have hsucc : u.position.txIndexInBlock + 1 < 2 ^ 32 := by
        simp only [i32Max] at hindex
        omega
      exact ⟨fun _ => .inl hne, fun _ => hle.trans (key_le_increment hsucc)⟩

end

/-- What is read for an inherent fits the pallet: the kept transactions have at most
`utxoPerTxOverestimate` UTXOs for each transaction of the capacity, and the position advances. -/
structure InherentFits (s : State) (events : List ObservedUtxo) (txCapacity : Nat) : Prop where
  few : (keptEvents txCapacity events).length % 2 ^ 32 ≤
    saturatingMul s.cardanoTxCapacityPerBlock utxoPerTxOverestimate
  advances : s.inherentExecutedThisBlock = true ∨ s.storageVersion < currentStorageVersion ∨
    Advances txCapacity events s.nextCardanoPosition

/-- An inherent built from either source is accepted exactly when what the source reads fits. -/
theorem inherent_accepted_iff {Owner : Type} (rt : Runtime Owner) (exec : Executor)
    (utf8 : List UInt8 → Option String) (s : State) (config : OnchainConfig)
    (apiVersion : Option Nat) (lib : CardanoLib) (db : DbSync) (source : DataSource)
    (hreached : source.Reached lib db) (tip : McBlockHash) (b : Block)
    (hb : db.getBlockByHash tip = some b) (hstart : s.nextCardanoPosition ≤ b.toPosition)
    (q : Query) (hq : observationQuery utf8 (s.runtimeApi config apiVersion) tip = .ok q)
    (data : InherentData)
    (hdata : newInherentData utf8 (s.runtimeApi config apiVersion) (source.answer lib db) tip
      = .ok data) :
    (processTokens rt exec s .none data.utxos data.nextCardanoPosition ≠
        .error (.cnightObservation .tooManyUtxos) ∧
      processTokens rt exec s .none data.utxos data.nextCardanoPosition ≠
        .error (.cnightObservation .cardanoPositionRegression)) ↔
    InherentFits s (source.read lib db q b).1 (source.read lib db q b).2 := by
  obtain ⟨q', r, hq', hr, rfl⟩ := newInherentData_inv hdata
  cases hq.symm.trans hq'
  obtain ⟨hqstart, hqtip, -, -⟩ := observationQuery_inv hq
  have hqs : q.start = s.nextCardanoPosition := hqstart
  subst hqtip
  rw [← hqs] at hstart
  have hanswer := DataSource.answer_eq hreached hb hstart hr
  have hsorted := read_sorted lib db source q b
  have hle : q.start.key ≤ b.toPosition.increment.key :=
    (le_iff_key.mp hstart).trans (key_le_increment b.txIndex_lt)
  have hend := truncate_end_le_iff (source.read lib db q b).2 hsorted
    (fun u hu => mem_read hu) hle
  have hutxos : r.utxos = keptEvents (source.read lib db q b).2 (source.read lib db q b).1 := by
    rw [hanswer, truncate_eq hsorted]
  rw [← hanswer, ← le_iff_key, hqs] at hend
  rw [not_rejected_iff, hutxos, hend]
  exact ⟨fun ⟨h₁, h₂⟩ => ⟨h₁, h₂⟩, fun ⟨h₁, h₂⟩ => ⟨h₁, h₂⟩⟩

def sampleUtf8 (bytes : List UInt8) : Option String := some (if bytes = [] then "" else "script")

def sampleOnchainConfig : OnchainConfig := ⟨[1], [], (List.replicate 28 5, [])⟩

/-- The query of an author whose parent block has processed everything up to a Cardano block. -/
def sampleObservation (block : Nat) : Query where
  config := sampleConfig
  start := .minForBlock block
  tip := (sampleBlock block).hash
  txCapacity := 2
  utxoOverestimate := 8

def sampleParent : State := { sampleState with nextCardanoPosition := .minForBlock 1 }

/-- A cache that started empty at block 0 and has pulled block 1. -/
def sampleSource (outputs : Nat) : DataSource := .cached (refreshedCache outputs 2 1) none 0

/-- The inherent made of block 1, which has one transaction with a number of outputs. -/
def sampleInherent (outputs : Nat) : Except IDPCreationError InherentData :=
  newInherentData sampleUtf8 (sampleParent.runtimeApi sampleOnchainConfig (some 2))
    ((sampleSource outputs).answer sampleLib (sampleDb outputs 2)) (sampleBlock 1).hash

theorem sampleSource_reached (hcut : cutOff (eventStreams sampleLib (sampleDb outputs 2) sampleConfig
      sampleIds) (CardanoPosition.minForBlock 1).key (CardanoPosition.maxForBlock 1).key largeLimit = []) :
    (sampleSource outputs).Reached sampleLib (sampleDb outputs 2) :=
  ⟨sampleCacheConfig, rfl, refreshedCache_run (p := ⟨1, 0, 1⟩) rfl hcut⟩

def sampleData (outputs : Nat) : InherentData :=
  (sampleInherent outputs).toOption.getD ⟨[], .minForBlock 0⟩

theorem inherent_accepted_iff_three_outputs :
    sampleInherent 3 = .ok (sampleData 3) ∧
    ((processTokens silentRuntime (fun _ => .error 0) sampleParent .none (sampleData 3).utxos
          (sampleData 3).nextCardanoPosition ≠ .error (.cnightObservation .tooManyUtxos) ∧
        processTokens silentRuntime (fun _ => .error 0) sampleParent .none (sampleData 3).utxos
          (sampleData 3).nextCardanoPosition ≠
            .error (.cnightObservation .cardanoPositionRegression)) ↔
      InherentFits sampleParent
        ((sampleSource 3).read sampleLib (sampleDb 3 2) (sampleObservation 1) (sampleBlock 1)).1
        ((sampleSource 3).read sampleLib (sampleDb 3 2) (sampleObservation 1) (sampleBlock 1)).2) :=
  have hdata : sampleInherent 3 = .ok (sampleData 3) := by decide +kernel
  ⟨hdata, inherent_accepted_iff silentRuntime _ sampleUtf8 sampleParent sampleOnchainConfig (some 2)
    sampleLib (sampleDb 3 2) (sampleSource 3) (sampleSource_reached (by decide +kernel))
    (sampleBlock 1).hash (sampleBlock 1) rfl (by decide) (sampleObservation 1) rfl _ hdata⟩

/-- One transaction with 129 outputs, served from the cache to an author with a capacity of two
transactions: the pallet accepts 128 UTXOs. -/
theorem inherent_of_large_transaction_rejected :
    (sampleSource 129).Reached sampleLib (sampleDb 129 2) ∧
    sampleInherent 129 = .ok (sampleData 129) ∧
    processTokens silentRuntime (fun _ => .error 0) sampleParent .none (sampleData 129).utxos
      (sampleData 129).nextCardanoPosition = .error (.cnightObservation .tooManyUtxos) := by
  have hlength : (sampleData 129).utxos.length = 129 := by decide +kernel
  have hmany : ¬ (sampleData 129).utxos.length % 2 ^ 32 ≤
      saturatingMul sampleParent.cardanoTxCapacityPerBlock utxoPerTxOverestimate := by
    rw [hlength]
    decide
  refine ⟨sampleSource_reached (by decide +kernel), by decide +kernel, ?_⟩
  rw [processTokens]
  simp only [hmany, bind, Except.bind, throw, throwThe, MonadExceptOf.throw]
  rfl

/-- The row limits of the second version of the runtime API keep a live answer small enough. -/
theorem live_read_few (lib : CardanoLib) (db : DbSync) (b : Block)
    (hlimit : q.utxoOverestimate = saturatingMul q.txCapacity 4) :
    (keptEvents q.txCapacity (liveRead lib db q b)).length % 2 ^ 32 ≤
      saturatingMul q.txCapacity utxoPerTxOverestimate := by
  have hrows : (liveRead lib db q b).length ≤ 4 * q.utxoOverestimate := by
    unfold liveRead
    split
    · exact length_fetched_le
    · exact Nat.zero_le _
  have hkept := (keptEvents_sublist q.txCapacity (liveRead lib db q b)).length_le
  have hmod := Nat.mod_lt (keptEvents q.txCapacity (liveRead lib db q b)).length
    (Nat.two_pow_pos 32)
  have hmod' := Nat.mod_le (keptEvents q.txCapacity (liveRead lib db q b)).length (2 ^ 32)
  have hbound : q.utxoOverestimate ≤ q.txCapacity * 4 := hlimit ▸ min_le_left _ _
  refine le_min ?_ ?_
  · simp only [utxoPerTxOverestimate]
    omega
  · simp only [u32Max]
    omega

theorem live_read_few_nine_outputs :
    (keptEvents 2 (liveRead sampleLib (sampleDb 9 1) (sampleObservation 0) (sampleBlock 0))).length
      % 2 ^ 32 ≤ 128 :=
  live_read_few (q := sampleObservation 0) sampleLib (sampleDb 9 1) (sampleBlock 0) rfl

end MidnightNode.Pallet
