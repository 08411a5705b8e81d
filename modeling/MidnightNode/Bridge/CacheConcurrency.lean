import MidnightNode.Bridge.Cache
import MidnightNode.Bridge.Delivery

/-!
# Concurrent calls of the caching source

The lock of the cache is taken for each of the steps of a call separately: to set the scripts, to
resolve the checkpoint, to serve, to install a filled range, and to serve again. Between them the call
reads the database and other calls may run. Serving and installing do not look at the scripts the cache
is labelled with.

`bridge_calls_isolated` is about schedules in which a call that serves or installs still finds its own
scripts on the cache.
-/

namespace MidnightNode.Bridge

open SortedSlice

inductive Phase (R : Type)
  | start
  | labelled
  | located (toBlock : Nat)
  | resolved (checkpoint : ResolvedBridgeDataCheckpoint) (toBlock : Nat)
  | missed (checkpoint : ResolvedBridgeDataCheckpoint) (toBlock : Nat)
  | fetched (checkpoint : ResolvedBridgeDataCheckpoint) (toBlock : Nat) (filled : Filled)
  | installed (checkpoint : ResolvedBridgeDataCheckpoint) (toBlock : Nat)
  | done (result : Except SourceError (List (BridgeTransferV1 R) × BridgeDataCheckpoint))

/-- The cache, and the calls by number. -/
structure SourceState (R : Type) where
  cache : TokenUtxoCache
  phases : Nat → Phase R

namespace SourceState

variable {R : Type}

def init : SourceState R := ⟨.new, fun _ => .start⟩

def setPhase (sys : SourceState R) (i : Nat) (phase : Phase R) : SourceState R :=
  { sys with phases := Function.update sys.phases i phase }

@[simp] theorem phases_setPhase (sys : SourceState R) (i : Nat) (phase : Phase R) :
    (sys.setPhase i phase).phases = Function.update sys.phases i phase := rfl

def setCache (sys : SourceState R) (cache : TokenUtxoCache) : SourceState R := { sys with cache }

/-- The next step of call `i`; what it reads of the database it finds in `s`. -/
def step (tryFrom : List UInt8 → Option R) (cacheLookahead : Nat) (queries : Nat → Query)
    (sys : SourceState R) (i : Nat) (s : Snapshots) : SourceState R :=
  let q := queries i
  match sys.phases i with
  | .start => (sys.setCache (sys.cache.setMcScripts q.mainChainScripts)).setPhase i .labelled
  | .labelled =>
    match s.block.getBlockByHash q.currentMcBlockHash with
    | .error e => sys.setPhase i (.done (.error e))
    | .ok block => sys.setPhase i (.located block.number)
  | .located toBlock =>
    match resolveDataCheckpoint sys.cache s.checkpoint q.dataCheckpoint with
    | .error e => sys.setPhase i (.done (.error e))
    | .ok checkpoint => sys.setPhase i (.resolved checkpoint toBlock)
  | .resolved checkpoint toBlock =>
    match sys.cache.serveFromCache checkpoint toBlock q.maxTransfers with
    | some txs => sys.setPhase i (.done (.ok (txsToTransfers tryFrom txs q.maxTransfers toBlock)))
    | none => sys.setPhase i (.missed checkpoint toBlock)
  | .missed checkpoint toBlock =>
    match fetchRange cacheLookahead s q.mainChainScripts checkpoint toBlock with
    | .error e => sys.setPhase i (.done (.error e))
    | .ok filled => sys.setPhase i (.fetched checkpoint toBlock filled)
  | .fetched checkpoint toBlock filled =>
    (sys.setCache (sys.cache.install filled)).setPhase i (.installed checkpoint toBlock)
  | .installed checkpoint toBlock =>
    match sys.cache.serveFromCache checkpoint toBlock q.maxTransfers with
    | some txs => sys.setPhase i (.done (.ok (txsToTransfers tryFrom txs q.maxTransfers toBlock)))
    | none => sys.setPhase i (.done (.error .notCached))
  | .done _ => sys

/-- A schedule: whose turn it is, and the database at that time. -/
abbrev Schedule := List (Nat × Snapshots)

def run (tryFrom : List UInt8 → Option R) (cacheLookahead : Nat) (queries : Nat → Query)
    (sys : SourceState R) (schedule : Schedule) : SourceState R :=
  schedule.foldl (fun sys turn => sys.step tryFrom cacheLookahead queries turn.1 turn.2) sys

end SourceState

/-! ## Isolation -/

section

variable {R : Type}

/-- The transfers are of bridge transactions of the scripts. -/
def BelongsTo (tryFrom : List UInt8 → Option R) (final : CardanoDb) (scripts : MainChainScripts)
    (transfers : List (BridgeTransferV1 R)) : Prop :=
  ∀ t ∈ transfers, ∃ tx ∈ final.bridgeTxs scripts, t ∈ txToTransfers tryFrom tx

/-- The cache holds transactions of the scripts it is labelled with. -/
def TokenUtxoCache.LabelOk (final : CardanoDb) (cache : TokenUtxoCache) : Prop :=
  ∀ tx ∈ cache.transfers, tx ∈ final.bridgeTxs cache.mcScripts

/-- A call that is about to serve or to install finds its own scripts on the cache. -/
def SourceState.Undisturbed (queries : Nat → Query) (sys : SourceState R) (i : Nat) : Prop :=
  match sys.phases i with
  | .resolved _ _ | .fetched _ _ _ | .installed _ _ =>
    sys.cache.mcScripts = (queries i).mainChainScripts
  | _ => True

/-- All steps of the schedule are undisturbed. -/
def SourceState.UndisturbedRun (tryFrom : List UInt8 → Option R) (cacheLookahead : Nat)
    (queries : Nat → Query) : SourceState R → SourceState.Schedule → Prop
  | _, [] => True
  | sys, turn :: schedule =>
    sys.Undisturbed queries turn.1 ∧
      UndisturbedRun tryFrom cacheLookahead queries
        (sys.step tryFrom cacheLookahead queries turn.1 turn.2) schedule

variable {tryFrom : List UInt8 → Option R} {final : CardanoDb} {scripts : MainChainScripts}
  {cache : TokenUtxoCache} {queries : Nat → Query} {sys : SourceState R} {cacheLookahead : Nat}

theorem belongsTo_txsToTransfers (h : ∀ tx ∈ txs, tx ∈ final.bridgeTxs scripts) :
    BelongsTo tryFrom final scripts (txsToTransfers tryFrom txs maxTransfers toBlock).1 := by
  obtain ⟨taken, rest, rfl, hresult⟩ := txsToTransfersLoop_spec tryFrom toBlock txs [] (.block toBlock)
    (Nat.zero_le maxTransfers)
  intro t ht
  rw [txsToTransfers, hresult.transfers, List.nil_append] at ht
  obtain ⟨tx, htx, ht⟩ := List.mem_flatMap.mp ht
  exact ⟨tx, h tx (List.mem_append_left rest htx), ht⟩

theorem TokenUtxoCache.mem_of_serveFromCache
    (h : cache.serveFromCache checkpoint toBlock maxTransfers = some txs) :
    ∀ tx ∈ txs, tx ∈ cache.transfers := by
  intro tx htx
  unfold serveFromCache at h
  split at h
  · cases h
  · obtain ⟨skip, -, rfl⟩ := Option.map_eq_some_iff.mp h
    have htake := (List.takeWhile_sublist _).subset (List.mem_of_mem_take htx)
    exact (List.dropWhile_sublist skip).subset htake

theorem fetchRange_mem (hs : s.rows.GrowsTo final)
    (h : fetchRange cacheLookahead s scripts checkpoint toBlock = .ok f) :
    ∀ tx ∈ f.transfers, tx ∈ final.bridgeTxs scripts := by
  obtain ⟨stable, -, -, hrows⟩ := fetchRange_spec h
  intro tx htx
  rw [hrows] at htx
  exact hs.mem_bridgeTxs (mem_slice.mp htx).1

/-- What a call holds at its phase belongs to its scripts. -/
def Phase.Own (tryFrom : List UInt8 → Option R) (final : CardanoDb) (scripts : MainChainScripts) :
    Phase R → Prop
  | .fetched _ _ f => ∀ tx ∈ f.transfers, tx ∈ final.bridgeTxs scripts
  | .done (.ok r) => BelongsTo tryFrom final scripts r.1
  | _ => True

structure IsolationInv (tryFrom : List UInt8 → Option R) (final : CardanoDb) (queries : Nat → Query)
    (sys : SourceState R) : Prop where
  label : sys.cache.LabelOk final
  own : ∀ i, (sys.phases i).Own tryFrom final (queries i).mainChainScripts

theorem IsolationInv.init : IsolationInv tryFrom final queries .init :=
  ⟨by rintro tx ⟨⟩, fun _ => trivial⟩

theorem IsolationInv.setPhase (h : IsolationInv tryFrom final queries sys)
    (hphase : phase.Own tryFrom final (queries i).mainChainScripts) :
    IsolationInv tryFrom final queries (sys.setPhase i phase) := by
  refine ⟨h.label, fun j => ?_⟩
  by_cases hj : j = i
  · subst hj
    rw [SourceState.phases_setPhase, Function.update_self]
    exact hphase
  · rw [SourceState.phases_setPhase, Function.update_of_ne hj]
    exact h.own j

theorem IsolationInv.setCache (h : IsolationInv tryFrom final queries sys)
    (hcache : cache.LabelOk final) : IsolationInv tryFrom final queries (sys.setCache cache) :=
  ⟨hcache, h.own⟩

theorem TokenUtxoCache.LabelOk.setMcScripts (h : cache.LabelOk final) (scripts : MainChainScripts) :
    (cache.setMcScripts scripts).LabelOk final := by
  unfold TokenUtxoCache.setMcScripts
  split
  · rintro tx ⟨⟩
  · exact h

/-- An undisturbed step keeps what is cached under the label of its query. -/
theorem IsolationInv.step (h : IsolationInv tryFrom final queries sys) (i : Nat)
    (hs : s.rows.GrowsTo final) (hundisturbed : sys.Undisturbed queries i) :
    IsolationInv tryFrom final queries (sys.step tryFrom cacheLookahead queries i s) := by
  have hserve {checkpoint : ResolvedBridgeDataCheckpoint} {toBlock : Nat} {txs : List BridgeTx}
      (hlabel : sys.cache.mcScripts = (queries i).mainChainScripts)
      (htxs : sys.cache.serveFromCache checkpoint toBlock (queries i).maxTransfers = some txs) :
      BelongsTo tryFrom final (queries i).mainChainScripts
        (txsToTransfers tryFrom txs (queries i).maxTransfers toBlock).1 := by
    refine belongsTo_txsToTransfers fun tx htx => ?_
    rw [← hlabel]
    exact h.label tx (TokenUtxoCache.mem_of_serveFromCache htxs tx htx)
  have hown := h.own i
  unfold SourceState.step
  unfold SourceState.Undisturbed at hundisturbed
  cases hphase : sys.phases i <;> rw [hphase] at hundisturbed hown <;> simp only
  case start => exact (h.setCache (h.label.setMcScripts _)).setPhase trivial
  case labelled =>
    split
    · exact h.setPhase trivial
    · exact h.setPhase trivial
  case located toBlock =>
    split
    · exact h.setPhase trivial
    · exact h.setPhase trivial
  case resolved checkpoint toBlock =>
    split
    case h_1 txs htxs => exact h.setPhase (hserve hundisturbed htxs)
    case h_2 => exact h.setPhase trivial
  case missed checkpoint toBlock =>
    split
    case h_1 => exact h.setPhase trivial
    case h_2 f hf => exact h.setPhase (fetchRange_mem hs hf)
  case fetched checkpoint toBlock f =>
    refine (h.setCache ?_).setPhase trivial
    intro tx htx
    have hmem := hown tx htx
    rw [← hundisturbed] at hmem
    exact hmem
  case installed checkpoint toBlock =>
    split
    case h_1 txs htxs => exact h.setPhase (hserve hundisturbed htxs)
    case h_2 => exact h.setPhase trivial
  case done result => exact h

theorem IsolationInv.run (schedule : SourceState.Schedule)
    (hgrow : ∀ turn ∈ schedule, turn.2.rows.GrowsTo final)
    (hrun : sys.UndisturbedRun tryFrom cacheLookahead queries schedule)
    (h : IsolationInv tryFrom final queries sys) :
    IsolationInv tryFrom final queries (sys.run tryFrom cacheLookahead queries schedule) := by
  induction schedule generalizing sys with
  | nil => exact h
  | cons turn schedule ih =>
    obtain ⟨hturn, hrest⟩ := hrun
    refine ih (fun t ht => hgrow t (List.mem_cons_of_mem turn ht)) hrest ?_
    exact h.step turn.1 (hgrow turn List.mem_cons_self) hturn

end

/-! ## One configuration -/

section

variable {R : Type} {tryFrom : List UInt8 → Option R} {queries : Nat → Query} {sys : SourceState R}
  {cacheLookahead : Nat}

theorem SourceState.mcScripts_step (sys : SourceState R) (i : Nat) (s : Snapshots) :
    (sys.step tryFrom cacheLookahead queries i s).cache.mcScripts = sys.cache.mcScripts ∨
      (sys.step tryFrom cacheLookahead queries i s).cache.mcScripts =
        (queries i).mainChainScripts := by
  unfold SourceState.step
  cases sys.phases i <;> dsimp only
  case start => exact .inr (mcScripts_setMcScripts _ _)
  case fetched => exact .inl rfl
  case done => exact .inl rfl
  all_goals split <;> exact .inl rfl

/-- The calls that have begun have labelled the cache. -/
def SourceState.Labelled (scripts : MainChainScripts) (sys : SourceState R) : Prop :=
  ∀ i, sys.phases i ≠ .start → sys.cache.mcScripts = scripts

theorem SourceState.Labelled.step (hqueries : ∀ i, (queries i).mainChainScripts = scripts)
    (h : sys.Labelled scripts) (i : Nat) (s : Snapshots) :
    (sys.step tryFrom cacheLookahead queries i s).Labelled scripts := by
  intro j _
  by_cases hi : sys.phases i = .start
  · rw [SourceState.step, hi]
    exact (mcScripts_setMcScripts _ _).trans (hqueries i)
  · rcases sys.mcScripts_step i s with heq | heq
    · exact heq.trans (h i hi)
    · exact heq.trans (hqueries i)

/-- Calls with one configuration do not disturb each other. -/
theorem SourceState.Labelled.undisturbedRun (hqueries : ∀ i, (queries i).mainChainScripts = scripts)
    (schedule : SourceState.Schedule) (h : sys.Labelled scripts) :
    sys.UndisturbedRun tryFrom cacheLookahead queries schedule := by
  induction schedule generalizing sys with
  | nil => trivial
  | cons turn schedule ih =>
    refine ⟨?_, ih (h.step hqueries turn.1 turn.2)⟩
    unfold SourceState.Undisturbed
    split
    case h_4 => trivial
    all_goals
      rename_i hphase
      rw [hqueries]
      exact h turn.1 (by rw [hphase]; exact nofun)

end

/-! ## All schedules -/

/-- Calls of any scripts in any interleaving: while no call serves or installs under the label of
another configuration, every answer has only transfers of the scripts of its call, and the cache has
only transactions of the scripts it is labelled with. -/
theorem bridge_calls_isolated {R : Type} (tryFrom : List UInt8 → Option R) (final : CardanoDb)
    (cacheLookahead : Nat) (queries : Nat → Query) (schedule : SourceState.Schedule)
    (hgrow : ∀ turn ∈ schedule, turn.2.rows.GrowsTo final)
    (hundisturbed : SourceState.init.UndisturbedRun tryFrom cacheLookahead queries schedule) :
    let sys := SourceState.init.run tryFrom cacheLookahead queries schedule
    sys.cache.LabelOk final ∧
      ∀ i r, sys.phases i = .done (.ok r) →
        BelongsTo tryFrom final (queries i).mainChainScripts r.1 := by
  have h := IsolationInv.init.run schedule hgrow hundisturbed
  refine ⟨h.label, fun i r hr => ?_⟩
  have hown := h.own i
  rw [hr] at hown
  exact hown

/-- The other configuration has its supply at address `[3]`. -/
def otherScripts : MainChainScripts := ⟨[], [], [3], [2]⟩

/-- One block with one bridge transaction, of the other configuration. -/
def otherDb : CardanoDb :=
  { blocks := [⟨.fill 32 1, 1⟩]
    txs := [{ blockNumber := 1, txIx := 0, txHash := .fill 32 21, c2mMetadata := none, inputs := []
              outputs := [⟨[3], [], [], 7⟩] }]
    latestStable := .ok (some 1)
    blockHashes_nodup := by decide
    txHashes_nodup := by decide
    sorted := by decide
    stable_mem := by
      intro n hn
      cases hn
      exact ⟨⟨.fill 32 1, 1⟩, by decide, rfl⟩ }

def otherSnapshots : Snapshots :=
  ⟨otherDb, otherDb, otherDb, otherDb, .refl _, .refl _, .refl _⟩

/-- Two queries for the first block: call `0` for the sample scripts, call `1` for the others. -/
def twoQueries (i : Nat) : Query :=
  ⟨if i = 0 then sampleScripts else otherScripts, .block 0, 2, .fill 32 1⟩

/-- The turns of the calls, all over the same database. -/
def turns (calls : List Nat) : SourceState.Schedule := calls.map fun i => (i, otherSnapshots)

theorem bridge_calls_isolated_one_configuration :
    let queries := fun _ => twoQueries 1
    let sys := SourceState.init.run sampleTryFrom 0 queries (turns [0, 1, 1, 0, 0, 1, 0, 0, 0, 1])
    sys.cache.transfers.length = 1 ∧ sys.cache.LabelOk otherDb :=
  ⟨by decide +kernel, (bridge_calls_isolated sampleTryFrom otherDb 0 _ _
    (by
      intro turn hturn
      obtain ⟨i, -, rfl⟩ := List.mem_map.mp hturn
      exact .refl _)
    (SourceState.Labelled.undisturbedRun (fun _ => rfl) _ fun _ h => absurd rfl h)).1⟩

/-- Call `0` is answered from the range that call `1` has installed for its own scripts. With another
order, call `1` installs its rows after call `0` has labelled the cache for itself. -/
theorem bridge_calls_mix_configurations :
    (∃ r, (SourceState.init.run sampleTryFrom 0 twoQueries
        (turns [0, 0, 0, 1, 1, 1, 1, 1, 1, 0])).phases 0 = .done (.ok r) ∧
      r.1 = [⟨.fill 32 21, 7, .invalid⟩] ∧ otherDb.bridgeTxs sampleScripts = []) ∧
    let sys := SourceState.init.run sampleTryFrom 0 twoQueries (turns [1, 1, 1, 1, 1, 0, 1])
    sys.cache.mcScripts = sampleScripts ∧ sys.cache.transfers.map BridgeTx.txHash = [.fill 32 21] :=
  ⟨⟨_, rfl, by decide +kernel, rfl⟩, by decide +kernel⟩

end MidnightNode.Bridge
