import MidnightNode.CNight.Truncate

/-!
# The live data source

`get_utxos_up_to_capacity` of the db-backed source: resolve the tip, pull the range up to it with
the row limit, truncate by transaction capacity. Chaining the calls, each from the position the
previous one returned, is how a chain of blocks consumes the Cardano history.

A call is exact when it returns all events between its start and the end it reports. The row limit
is per query and the capacity is per transaction, so this needs `RowLimitsSuffice`: whatever a limit
cut off lies behind the transactions the call keeps, and the call knows that it was cut. Chained
calls are exact together iff each of them is.
-/

namespace MidnightNode.CNight

open CardanoPosition SortedSlice

inductive DataSourceError
  | missingBlockReference (hash : McBlockHash)
  | bulkPull (e : BulkPullError)
  /-- The cached source's text for a tip the database does not know. -/
  | missingBlockForTip (hash : McBlockHash)
  /-- A slice index that starts behind its end. -/
  | slicePanic
deriving DecidableEq, Repr

/-- `get_utxos_up_to_capacity` of the db-backed source. -/
def liveGetUtxosUpToCapacity (lib : CardanoLib) (db : DbSync) (config : CNightAddresses)
    (startPosition : CardanoPosition) (currentTip : McBlockHash) (txCapacity utxoOverestimate : Nat) :
    Except DataSourceError ObservedUtxos := do
  let some block := db.getBlockByHash currentTip | throw (.missingBlockReference currentTip)
  let end_ := block.toPosition.increment
  match bulkPull lib db config startPosition end_ utxoOverestimate with
  | .error e => throw (.bulkPull e)
  | .ok utxos => pure (truncateToTxCapacity utxos txCapacity startPosition end_).1

/-! ## One call -/

/-- The events a row limit cuts off from a call are none that the call should return: the fetched
events reach the capacity, and `txCapacity - 1` fetched transactions come before each of them. -/
structure RowLimitsSuffice (ss : List EventStream) (start end_ : CardanoPosition)
    (txCapacity limit : Nat) : Prop where
  limit_lt : limit < i32Max
  reached : ∀ u ∈ cutOff ss start.key end_.key limit,
    txCapacity ≤ numKeys ObservedUtxo.key (fetched ss start.key end_.key limit)
  behind : ∀ u ∈ cutOff ss start.key end_.key limit,
    txCapacity - 1 ≤ rank ObservedUtxo.key (fetched ss start.key end_.key limit) u.key

section Call
variable {lib : CardanoLib} {db : DbSync} {cfg : CNightAddresses} {ids : QueryIds} {b : Block}

theorem DbSync.hasBlock_of_getBlockByHash (hb : db.getBlockByHash tip = some b) :
    db.hasBlock b.blockNumber = true :=
  List.any_eq_true.mpr ⟨b, List.mem_of_find?_eq_some hb, by simp⟩

theorem Block.txIndex_lt (b : Block) : b.toPosition.txIndexInBlock + 1 < 2 ^ 32 := by
  have h := b.txCount_lt
  simp only [Block.toPosition, i32Max] at h ⊢
  omega

/-- **What a live call returns** for a usable configuration and a known tip. -/
theorem liveGetUtxosUpToCapacity_eq (hids : resolveIds lib db cfg = .ok ids)
    (hb : db.getBlockByHash tip = some b) (start : CardanoPosition) (txCapacity limit : Nat) :
    liveGetUtxosUpToCapacity lib db cfg start tip txCapacity limit =
      if limit < i32Max then
        .ok (truncateToTxCapacity (fetched (eventStreams lib db cfg ids) start.key
          b.toPosition.increment.key limit) txCapacity start b.toPosition.increment).1
      else .error (.bulkPull .limitAssertion) := by
  have hblock : db.hasBlock b.toPosition.increment.blockNumber = true :=
    DbSync.hasBlock_of_getBlockByHash hb
  by_cases hlimit : limit < i32Max
  · simp [liveGetUtxosUpToCapacity, hb, bulkPull_eq hids, hblock, hlimit, pure, Except.pure]
  · simp [liveGetUtxosUpToCapacity, hb, bulkPull_eq hids, hblock, hlimit, throw, throwThe,
      MonadExceptOf.throw]

end Call

section Exact
variable {ss : List EventStream} {start end_ : CardanoPosition} {txCapacity limit : Nat}
  {r : ObservedUtxos}

theorem mem_fetched_range (hu : u ∈ fetched ss a b limit) :
    u ∈ orderedEvents ss ∧ a ≤ u.key ∧ u.key < b :=
  mem_slice.mp ((fetched_sublist ss a b limit).subset hu)

theorem mem_cutOff_range (hu : u ∈ cutOff ss a b limit) : u ∈ orderedEvents ss ∧ a ≤ u.key ∧ u.key < b :=
  mem_slice.mp ((fetched_append_cutOff_perm ss a b limit).subset (List.mem_append_right _ hu))

theorem txIndex_succ_lt (hu : u ∈ orderedEvents ss) : u.position.txIndexInBlock + 1 < 2 ^ 32 := by
  have h := txIndex_lt_of_mem_orderedEvents hu
  simp only [i32Max] at h
  omega

theorem mem_fetched_of_cut (hevents : fetched ss a b limit = (kept ++ [p]) ++ v :: rest) :
    p ∈ fetched ss a b limit ∧ v ∈ fetched ss a b limit := by
  simp [hevents]

theorem sorted_of_cut (hevents : fetched ss a b limit = (kept ++ [p]) ++ v :: rest) :
    (∀ x ∈ kept ++ [p], x.key ≤ p.key) ∧ ∀ x ∈ v :: rest, v.key ≤ x.key := by
  obtain ⟨hkept, hrest, _⟩ := SortedBy.append_iff.mp (hevents ▸ fetched_sorted)
  exact ⟨hkept.le_last, hrest.head_le⟩

variable (h : Truncated (fetched ss start.key end_.key limit) txCapacity end_ r)

include h

theorem Truncated.end_mem (hse : start.key ≤ end_.key) : start.key ≤ r.end_.key ∧ r.end_.key ≤ end_.key := by
  cases h with
  | full _ _ hend =>
    rw [hend]
    exact ⟨hse, le_rfl⟩
  | capacity kept p v rest hevents _ hend _ hlt =>
    obtain ⟨hp, hpstart, _⟩ := mem_fetched_range (mem_fetched_of_cut hevents).1
    obtain ⟨_, _, hvend⟩ := mem_fetched_range (mem_fetched_of_cut hevents).2
    rw [hend]
    refine ⟨hpstart.trans (key_le_increment (txIndex_succ_lt hp)), ?_⟩
    exact ((increment_key_le (txIndex_succ_lt hp)).mpr
      (hlt p (by simp))).trans hvend.le

theorem Truncated.utxos_eq :
    r.utxos = slice ObservedUtxo.key start.key r.end_.key (fetched ss start.key end_.key limit) := by
  cases h with
  | full _ hutxos hend =>
    rw [hutxos, hend, slice_eq_self fun u hu => (mem_fetched_range hu).2]
  | capacity kept p v rest hevents hutxos hend _ hlt =>
    have hp := txIndex_succ_lt (mem_fetched_range (mem_fetched_of_cut hevents).1).1
    have hstart : ∀ u ∈ (kept ++ [p]) ++ v :: rest, start.key ≤ u.key :=
      fun u hu => (mem_fetched_range (hevents ▸ hu)).2.1
    obtain ⟨hkept, hrest⟩ := sorted_of_cut hevents
    rw [hutxos, hend, hevents, slice_append, slice_eq_self, slice_eq_nil_iff.mpr, List.append_nil]
    · intro u hu _
      exact (increment_key_le hp).mpr ((hlt p (by simp)).trans_le (hrest u hu))
    · intro u hu
      exact ⟨hstart u (List.mem_append_left _ hu),
        (lt_key_increment hp).mpr (hkept u hu)⟩

/-- An event in front of the tip lies behind the end a call reports iff the fetched transactions
before it fill the capacity. -/
theorem Truncated.end_le_iff {u : ObservedUtxo}
    (hu : u.key < end_.key) :
    r.end_.key ≤ u.key ↔
      txCapacity ≤ numKeys ObservedUtxo.key (fetched ss start.key end_.key limit) ∧
        txCapacity - 1 ≤ rank ObservedUtxo.key (fetched ss start.key end_.key limit) u.key := by
  cases h with
  | full hbelow _ hend =>
    rw [hend]
    exact ⟨fun h => absurd hu (not_lt.mpr h), fun h => absurd hbelow (not_lt.mpr h.1)⟩
  | capacity kept p v rest hevents _ hend hcount hlt =>
    have hp := txIndex_succ_lt (mem_fetched_range (mem_fetched_of_cut hevents).1).1
    obtain ⟨hkept, hrest⟩ := sorted_of_cut hevents
    have hcap : txCapacity - 1 = numKeys ObservedUtxo.key (kept ++ [p]) := by omega
    have hnext : p.position.increment.key ≤ u.key ↔ p.key < u.key :=
      increment_key_le hp
    rw [hend, hnext, hevents, hcap]
    constructor
    · intro hpu
      constructor
      · rw [← hcount, ← numKeys_append_cons_of_lt hlt]
        refine numKeys_le_of_subset fun x hx => ?_
        rcases List.mem_append.mp hx with hx | hx
        · exact List.mem_append_left _ hx
        · rw [List.mem_singleton.mp hx]
          simp
      · rw [rank_eq_numKeys_filter]
        refine numKeys_le_of_subset fun x hx => ?_
        exact List.mem_filter.mpr ⟨List.mem_append_left _ hx,
          decide_eq_true ((hkept x hx).trans_lt hpu)⟩
    · -- up to the last kept event there are fewer transactions than were kept
      rintro ⟨_, hrank⟩
      by_contra hpu
      have hbelow : rank ObservedUtxo.key ((kept ++ [p]) ++ v :: rest) p.key =
          rank ObservedUtxo.key (kept ++ [p]) p.key := by
        have hnil : (v :: rest).filter (fun x => decide (x.key < p.key)) = [] :=
          List.filter_eq_nil_iff.mpr fun x hx => by
            simpa using (hlt p (by simp)).le.trans (hrest x hx)
        rw [rank_eq_numKeys_filter, rank_eq_numKeys_filter, List.filter_append, hnil,
          List.append_nil]
      have hlast : rank ObservedUtxo.key (kept ++ [p]) p.key <
          numKeys ObservedUtxo.key (kept ++ [p]) := rank_lt_numKeys (by simp)
      have hmono := hrank.trans (rank_mono (not_lt.mp hpu))
      omega

theorem Truncated.utxos_sublist (hse : start.key ≤ end_.key) :
    r.utxos.Sublist (slice ObservedUtxo.key start.key r.end_.key (orderedEvents ss)) := by
  rw [h.utxos_eq, ← slice_slice le_rfl (h.end_mem hse).2 (l := orderedEvents ss)]
  exact (fetched_sublist ss start.key end_.key limit).filter _

/-- **A call is exact iff the row limits suffice for it.** -/
theorem Truncated.exact_iff (hse : start.key ≤ end_.key) (hlimit : limit < i32Max) :
    r.utxos = slice ObservedUtxo.key start.key r.end_.key (orderedEvents ss) ↔
      RowLimitsSuffice ss start end_ txCapacity limit := by
  -- the events in front of the reported end are the returned ones and the cut-off ones
  have hsplit : (r.utxos ++
      slice ObservedUtxo.key start.key r.end_.key (cutOff ss start.key end_.key limit)).Perm
      (slice ObservedUtxo.key start.key r.end_.key (orderedEvents ss)) := by
    rw [h.utxos_eq, ← slice_append, ← slice_slice le_rfl (h.end_mem hse).2 (l := orderedEvents ss)]
    exact slice_perm (fetched_append_cutOff_perm ss start.key end_.key limit)
  have hexact : r.utxos = slice ObservedUtxo.key start.key r.end_.key (orderedEvents ss) ↔
      ∀ u ∈ cutOff ss start.key end_.key limit, r.end_.key ≤ u.key := by
    constructor
    · intro heq u hu
      have hlen := hsplit.length_eq
      rw [← heq, List.length_append] at hlen
      have hnil := List.length_eq_zero_iff.mp (by omega : (slice ObservedUtxo.key start.key
        r.end_.key (cutOff ss start.key end_.key limit)).length = 0)
      exact slice_eq_nil_iff.mp hnil u hu (mem_cutOff_range hu).2.1
    · intro hcut
      rw [slice_eq_nil_iff.mpr fun u hu _ => hcut u hu, List.append_nil] at hsplit
      exact (h.utxos_sublist hse).eq_of_length hsplit.length_eq
  rw [hexact]
  constructor
  · intro hcut
    exact ⟨hlimit, fun u hu => ((h.end_le_iff (mem_cutOff_range hu).2.2).mp (hcut u hu)).1,
      fun u hu => ((h.end_le_iff (mem_cutOff_range hu).2.2).mp (hcut u hu)).2⟩
  · intro hrows u hu
    exact (h.end_le_iff (mem_cutOff_range hu).2.2).mpr ⟨hrows.reached u hu, hrows.behind u hu⟩

end Exact

/-! ## Chained calls -/

/-- Calls in a row, each from the end position the previous one returned: the concatenation of
what they return, and the last end position. -/
def chainCalls (call : CardanoPosition → McBlockHash → Except ε ObservedUtxos) :
    CardanoPosition → List McBlockHash → Except ε (List ObservedUtxo × CardanoPosition)
  | start, [] => .ok ([], start)
  | start, tip :: tips => do
    let r ← call start tip
    let (utxos, last) ← chainCalls call r.end_ tips
    pure (r.utxos ++ utxos, last)

/-- A condition on the start position and the tip of each call in a row. -/
def AlongChain (call : CardanoPosition → McBlockHash → Except ε ObservedUtxos)
    (P : CardanoPosition → McBlockHash → Prop) : CardanoPosition → List McBlockHash → Prop
  | _, [] => True
  | start, tip :: tips => P start tip ∧ ∀ r, call start tip = .ok r → AlongChain call P r.end_ tips

section Chain
variable {lib : CardanoLib} {db : DbSync} {cfg : CNightAddresses} {ids : QueryIds}
  {txCapacity limit : Nat}

/-- The tips of a chain of calls: blocks of the database, with positions that never decrease and
that no call has to go back from. -/
structure TipsFrom (db : DbSync) (start : CardanoPosition) (blocks : List Block) : Prop where
  known : ∀ b ∈ blocks, db.getBlockByHash b.hash = some b
  ordered : blocks.Pairwise fun b c => b.toPosition ≤ c.toPosition
  start_le : ∀ b ∈ blocks, start ≤ b.toPosition.increment

theorem live_truncated (hids : resolveIds lib db cfg = .ok ids) (hcap : 2 ≤ txCapacity)
    (hb : db.getBlockByHash b.hash = some b) (hlimit : limit < i32Max) (start : CardanoPosition) :
    ∃ r, liveGetUtxosUpToCapacity lib db cfg start b.hash txCapacity limit = .ok r ∧
      Truncated (fetched (eventStreams lib db cfg ids) start.key b.toPosition.increment.key limit)
        txCapacity b.toPosition.increment r := by
  rw [liveGetUtxosUpToCapacity_eq hids hb, if_pos hlimit]
  exact ⟨_, rfl, truncated_of_two_le fetched_sorted hcap⟩

theorem TipsFrom.tail (h : TipsFrom db start (b :: bs)) (hle : start'.key ≤ b.toPosition.increment.key) :
    TipsFrom db start' bs where
  known c hc := h.known c (List.mem_cons_of_mem _ hc)
  ordered := h.ordered.tail
  start_le c hc := by
    rw [le_iff_key]
    refine hle.trans (increment_key_mono b.txIndex_lt c.txIndex_lt ?_)
    exact le_iff_key.mp (List.rel_of_pairwise_cons h.ordered hc)

/-- Whatever the row limits do, chained calls advance and return events in order, each once. -/
theorem chainCalls_sublist (hids : resolveIds lib db cfg = .ok ids) (hcap : 2 ≤ txCapacity)
    (hlimit : limit < i32Max) (htips : TipsFrom db start bs) :
    ∃ utxos last, chainCalls (fun s t => liveGetUtxosUpToCapacity lib db cfg s t txCapacity limit)
        start (bs.map (·.hash)) = .ok (utxos, last) ∧ start.key ≤ last.key ∧
      utxos.Sublist (slice ObservedUtxo.key start.key last.key
        (orderedEvents (eventStreams lib db cfg ids))) := by
  induction bs generalizing start with
  | nil => exact ⟨[], start, rfl, le_rfl, List.nil_sublist _⟩
  | cons b bs ih =>
    obtain ⟨r, hr, htrunc⟩ :=
      live_truncated hids hcap (htips.known b List.mem_cons_self) hlimit start
    have hse := le_iff_key.mp (htips.start_le b List.mem_cons_self)
    obtain ⟨hstart, hend⟩ := htrunc.end_mem hse
    obtain ⟨utxos, last, hchain, hlast, hsub⟩ := ih (htips.tail hend)
    refine ⟨r.utxos ++ utxos, last, ?_, hstart.trans hlast, ?_⟩
    · simp [chainCalls, hr, hchain, bind, Except.bind, pure, Except.pure]
    · rw [← orderedEvents_sorted.slice_append_slice hstart hlast]
      exact (htrunc.utxos_sublist hse).append hsub

/-- The chained calls run to the end and return exactly the ordered events of the database between
the first start and the last end. -/
def ChainExact (lib : CardanoLib) (db : DbSync) (cfg : CNightAddresses) (ids : QueryIds)
    (txCapacity limit : Nat) (start : CardanoPosition) (tips : List McBlockHash) : Prop :=
  ∃ utxos last, chainCalls (fun s t => liveGetUtxosUpToCapacity lib db cfg s t txCapacity limit)
      start tips = .ok (utxos, last) ∧
    utxos = slice ObservedUtxo.key start.key last.key
      (orderedEvents (eventStreams lib db cfg ids))

theorem chainExact_iff_of_ok
    (h : chainCalls (fun s t => liveGetUtxosUpToCapacity lib db cfg s t txCapacity limit)
      start tips = .ok (utxos, last)) :
    ChainExact lib db cfg ids txCapacity limit start tips ↔
      utxos = slice ObservedUtxo.key start.key last.key
        (orderedEvents (eventStreams lib db cfg ids)) := by
  constructor
  · rintro ⟨utxos', last', h', heq⟩
    rw [h] at h'
    cases h'
    exact heq
  · intro heq
    exact ⟨utxos, last, h, heq⟩

theorem chainExact_cons_iff (hids : resolveIds lib db cfg = .ok ids) (hcap : 2 ≤ txCapacity)
    (hlimit : limit < i32Max) (htips : TipsFrom db start (b :: bs))
    (hr : liveGetUtxosUpToCapacity lib db cfg start b.hash txCapacity limit = .ok r)
    (htrunc : Truncated (fetched (eventStreams lib db cfg ids) start.key
      b.toPosition.increment.key limit) txCapacity b.toPosition.increment r) :
    ChainExact lib db cfg ids txCapacity limit start ((b :: bs).map (·.hash)) ↔
      r.utxos = slice ObservedUtxo.key start.key r.end_.key
        (orderedEvents (eventStreams lib db cfg ids)) ∧
      ChainExact lib db cfg ids txCapacity limit r.end_ (bs.map (·.hash)) := by
  have hse := le_iff_key.mp (htips.start_le b List.mem_cons_self)
  obtain ⟨hstart, hend⟩ := htrunc.end_mem hse
  obtain ⟨utxos, last, hchain, hlast, hsub⟩ :=
    chainCalls_sublist hids hcap hlimit (htips.tail hend)
  have hcons : chainCalls (fun s t => liveGetUtxosUpToCapacity lib db cfg s t txCapacity limit)
      start ((b :: bs).map (·.hash)) = .ok (r.utxos ++ utxos, last) := by
    simp [chainCalls, hr, hchain, bind, Except.bind, pure, Except.pure]
  rw [chainExact_iff_of_ok hcons, chainExact_iff_of_ok hchain,
    ← orderedEvents_sorted.slice_append_slice hstart hlast]
  exact append_eq_append_iff_of_sublist (htrunc.utxos_sublist hse) hsub

/-- The condition of one call of the chain. -/
def CallSuffices (lib : CardanoLib) (db : DbSync) (cfg : CNightAddresses) (ids : QueryIds)
    (txCapacity limit : Nat) (start : CardanoPosition) (tip : McBlockHash) : Prop :=
  ∀ b, db.getBlockByHash tip = some b →
    RowLimitsSuffice (eventStreams lib db cfg ids) start b.toPosition.increment txCapacity limit

/-- Chained calls are exact iff the row limits suffice in each of them. -/
theorem chainExact_iff (hids : resolveIds lib db cfg = .ok ids) (hcap : 2 ≤ txCapacity)
    (htips : TipsFrom db start bs) :
    ChainExact lib db cfg ids txCapacity limit start (bs.map (·.hash)) ↔
      AlongChain (fun s t => liveGetUtxosUpToCapacity lib db cfg s t txCapacity limit)
        (CallSuffices lib db cfg ids txCapacity limit) start (bs.map (·.hash)) := by
  induction bs generalizing start with
  | nil =>
    refine iff_of_true ⟨[], start, rfl, ?_⟩ trivial
    exact (slice_eq_nil_iff.mpr fun _ _ h => h).symm
  | cons b bs ih =>
    have hb := htips.known b List.mem_cons_self
    by_cases hlimit : limit < i32Max
    · obtain ⟨r, hr, htrunc⟩ := live_truncated hids hcap hb hlimit start
      have hse := le_iff_key.mp (htips.start_le b List.mem_cons_self)
      rw [chainExact_cons_iff hids hcap hlimit htips hr htrunc, htrunc.exact_iff hse hlimit,
        ih (htips.tail (htrunc.end_mem hse).2)]
      simp only [List.map_cons, AlongChain, CallSuffices, hb, hr, Option.some.injEq,
        Except.ok.injEq, forall_eq']
    · -- the queries refuse the limit: no call succeeds
      refine iff_of_false ?_ fun h => hlimit (h.1 b hb).limit_lt
      rintro ⟨utxos, last, hchain, _⟩
      have hcall : liveGetUtxosUpToCapacity lib db cfg start b.hash txCapacity limit =
          .error (.bulkPull .limitAssertion) := by
        rw [liveGetUtxosUpToCapacity_eq hids hb, if_neg hlimit]
      simp [chainCalls, hcall, bind, Except.bind] at hchain

/-- **Chained live calls lose and repeat nothing iff the row limits suffice in every call.** With
an over-fetch bound of four rows per transaction, chaining the calls returns exactly the ordered
events of the database between the first start and the last end, each once, iff in every call the
events beyond the row limit of their query come after `txCapacity - 1` of the fetched transactions
and the fetched transactions reach the capacity. -/
theorem live_chain_exact_iff (lib : CardanoLib) (db : DbSync) (cfg : CNightAddresses)
    (ids : QueryIds) (hids : resolveIds lib db cfg = .ok ids) (txCapacity : Nat)
    (hcap : 2 ≤ txCapacity) (start : CardanoPosition) (bs : List Block)
    (htips : TipsFrom db start bs) :
    ChainExact lib db cfg ids txCapacity (4 * txCapacity) start (bs.map (·.hash)) ↔
      AlongChain (fun s t => liveGetUtxosUpToCapacity lib db cfg s t txCapacity (4 * txCapacity))
        (CallSuffices lib db cfg ids txCapacity (4 * txCapacity)) start (bs.map (·.hash)) :=
  chainExact_iff hids hcap htips

end Chain

/-! ## A sample database -/

/-- A library that knows one script address and takes every other text for a base address. -/
def sampleLib : CardanoLib where
  fromBech32 s := .ok (if s = "script" then .enterprise 0 (.scriptHash (.fill 28 1))
    else .base 0 (.keyHash (.fill 28 2)) (.keyHash (.fill 28 3)))
  rewardAddress _ _ := .fill 29 4

def sampleConfig : CNightAddresses :=
  { mappingValidatorAddress := "script", authTokenAssetName := "", cnightPolicyId := .fill 28 5
    cnightAssetName := "" }

def sampleIds : QueryIds := { network := 0, authTokenIdent := some 0, cnightIdent := some 0 }

def sampleBlock (blockNumber : Nat) : Block :=
  { blockNumber, hash := .fill 32 (UInt8.ofNat blockNumber), time := 0, txCount := 4
    txCount_lt := by decide }

/-- Output `utxoIndex` of the first transaction of a block. -/
def sampleRow (blockNumber utxoIndex : Nat) : AssetCreateRow :=
  { blockNumber, blockHash := .fill 32 (UInt8.ofNat blockNumber), blockTimestamp := 0
    txIndexInBlock := 0, txIndexInBlock_lt := by decide, quantity := 1, holderAddress := "holder"
    txHash := .fill 32 (UInt8.ofNat blockNumber), utxoIndex := UInt16.ofNat utxoIndex }

def sampleRows (outputs n : Nat) : List AssetCreateRow :=
  (List.range n).flatMap fun b => (List.range outputs).map (sampleRow b)

theorem sampleRows_sorted (outputs n : Nat) :
    SortedBy (·.toRowPosition.key) (sampleRows outputs n) := by
  unfold sampleRows
  rw [SortedBy, List.pairwise_flatMap]
  refine ⟨fun b _ => ?_, List.pairwise_lt_range.imp fun {b c} hbc => ?_⟩
  · rw [List.pairwise_map]
    exact List.pairwise_of_forall fun _ _ => le_rfl
  · intro x hx y hy
    obtain ⟨i, _, rfl⟩ := List.mem_map.mp hx
    obtain ⟨j, _, rfl⟩ := List.mem_map.mp hy
    exact key_le_iff.mpr (.inl hbc)

/-- `n` blocks, each with one transaction that creates `outputs` asset outputs. -/
def sampleDb (outputs n : Nat) : DbSync where
  blocks := (List.range n).map sampleBlock
  multiAssetId _ _ := some 0
  registrations _ _ := []
  deregistrations _ := []
  assetCreates _ := sampleRows outputs n
  assetSpends _ := []
  registrations_sorted _ _ := .nil
  deregistrations_sorted _ := .nil
  assetCreates_sorted _ := sampleRows_sorted outputs n
  assetSpends_sorted _ := .nil

theorem sampleDb_tips : TipsFrom (sampleDb 9 2) (.minForBlock 0) [sampleBlock 0, sampleBlock 1] where
  known := by
    intro b hb
    simp only [List.mem_cons, List.not_mem_nil, or_false] at hb
    rcases hb with rfl | rfl <;> rfl
  ordered := by decide
  start_le := by decide

theorem live_chain_exact_iff_two_blocks :
    TipsFrom (sampleDb 9 2) (.minForBlock 0) [sampleBlock 0, sampleBlock 1] ∧
      (ChainExact sampleLib (sampleDb 9 2) sampleConfig sampleIds 2 (4 * 2) (.minForBlock 0)
          ([sampleBlock 0, sampleBlock 1].map (·.hash)) ↔
        AlongChain (fun s t => liveGetUtxosUpToCapacity sampleLib (sampleDb 9 2) sampleConfig s t 2
            (4 * 2)) (CallSuffices sampleLib (sampleDb 9 2) sampleConfig sampleIds 2 (4 * 2))
          (.minForBlock 0) ([sampleBlock 0, sampleBlock 1].map (·.hash))) :=
  ⟨sampleDb_tips, live_chain_exact_iff sampleLib (sampleDb 9 2) sampleConfig sampleIds rfl 2
    (by decide) (.minForBlock 0) [sampleBlock 0, sampleBlock 1] sampleDb_tips⟩

/-- With a capacity of two transactions a query returns eight rows. The ninth output of the only
transaction up to the tip is cut off, the call still reports the whole window as read, and no later
call returns that output. -/
theorem live_chain_loses_ninth_output :
    ¬ ChainExact sampleLib (sampleDb 9 2) sampleConfig sampleIds 2 (4 * 2) (.minForBlock 0)
      [(sampleBlock 0).hash, (sampleBlock 1).hash] := by
  rintro ⟨utxos, last, hchain, hexact⟩
  have hrun : (chainCalls (fun s t => liveGetUtxosUpToCapacity sampleLib (sampleDb 9 2) sampleConfig
      s t 2 (4 * 2)) (.minForBlock 0) [(sampleBlock 0).hash, (sampleBlock 1).hash]).map
      (fun r => (r.1.length, r.2)) = .ok (16, (sampleBlock 1).toPosition.increment) := by
    decide +kernel
  have hlen : utxos.length = 16 ∧ last = (sampleBlock 1).toPosition.increment := by
    rw [hchain] at hrun
    simpa [Except.map] using hrun
  rw [hlen.2] at hexact
  have hall : (slice ObservedUtxo.key (CardanoPosition.minForBlock 0).key
      (sampleBlock 1).toPosition.increment.key
      (orderedEvents (eventStreams sampleLib (sampleDb 9 2) sampleConfig sampleIds))).length = 18 := by
    decide +kernel
  rw [← hexact, hlen.1] at hall
  omega

end MidnightNode.CNight
