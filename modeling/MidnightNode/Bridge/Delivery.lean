import MidnightNode.Bridge.Observation

/-!
# Delivery of token bridge transfers

Calls of the database source, each from the checkpoint the call before has returned. A call delivers
the transfers of whole transactions, from its checkpoint on and up to the returned one (`Delivers`);
two limits are involved, since a query is cut at a number of transactions and its answer at a number of
transfers. `bridge_delivery_exactly_once` puts the calls together.
-/

namespace MidnightNode.Bridge

open SortedSlice

/-! ## The loop -/

section

variable {R : Type} (tryFrom : List UInt8 → Option R)

theorem length_txToTransfers_le (tx : BridgeTx) : (txToTransfers tryFrom tx).length ≤ 2 := by
  simp only [txToTransfers]
  split <;> split <;> simp

theorem one_le_length_txToTransfers (h : tx.qualifies = true) :
    1 ≤ (txToTransfers tryFrom tx).length := by
  have h : tx.bridgeOut > tx.bridgeIn ∨ tx.reserveIn > tx.reserveOut := by
    simpa [BridgeTx.qualifies] using h
  simp only [txToTransfers, List.length_append]
  by_cases hr : tx.reserveIn - tx.reserveOut > 0
  · rw [if_pos hr]
    simp
  · rw [if_neg hr, if_pos (by omega)]
    simp

theorem length_le_flatMap {txs : List BridgeTx} (h : ∀ tx ∈ txs, tx.qualifies = true) :
    txs.length ≤ (txs.flatMap (txToTransfers tryFrom)).length := by
  induction txs with
  | nil => simp
  | cons tx txs ih =>
    have h1 := one_le_length_txToTransfers tryFrom (h tx List.mem_cons_self)
    have h2 := ih fun x hx => h x (List.mem_cons_of_mem tx hx)
    simp only [List.flatMap_cons, List.length_append, List.length_cons]
    omega

/-- The checkpoint of the loop after some transactions. -/
def checkpointAfter (checkpoint : BridgeDataCheckpoint) (taken : List BridgeTx) :
    BridgeDataCheckpoint :=
  taken.foldl (fun _ tx => .tx tx.txHash) checkpoint

/-- What the loop makes of its rows: the transfers of the transactions `taken`, within the limit. Either
all rows are taken and there is room left, or there is no room for another transaction. -/
structure LoopResult (maxTransfers blockBound : Nat) (start : List (BridgeTransferV1 R))
    (checkpoint : BridgeDataCheckpoint) (txs taken : List BridgeTx)
    (result : List (BridgeTransferV1 R) × BridgeDataCheckpoint) : Prop where
  transfers : result.1 = start ++ taken.flatMap (txToTransfers tryFrom)
  length_le : result.1.length ≤ maxTransfers
  ends : (taken = txs ∧ result.1.length < maxTransfers ∧ result.2 = .block blockBound) ∨
    (maxTransfers < result.1.length + 2 ∧ result.2 = checkpointAfter checkpoint taken)

/-- The loop takes a first part of the transactions, as long as there is room. -/
theorem txsToTransfersLoop_spec (blockBound : Nat) (txs : List BridgeTx)
    (start : List (BridgeTransferV1 R)) (checkpoint : BridgeDataCheckpoint)
    (hstart : start.length ≤ maxTransfers) :
    ∃ taken rest, txs = taken ++ rest ∧
      LoopResult tryFrom maxTransfers blockBound start checkpoint txs taken
        (txsToTransfersLoop tryFrom maxTransfers blockBound start checkpoint txs) := by
  induction txs generalizing start checkpoint with
  | nil =>
    refine ⟨[], [], rfl, by simp [txsToTransfersLoop], by simpa [txsToTransfersLoop], ?_⟩
    by_cases h : start.length = maxTransfers
    · exact .inr ⟨by simp [txsToTransfersLoop, h], by simp [txsToTransfersLoop, h, checkpointAfter]⟩
    · exact .inl ⟨rfl, lt_of_le_of_ne hstart h, by simp [txsToTransfersLoop, h]⟩
  | cons tx txs ih =>
    by_cases h : start.length + (txToTransfers tryFrom tx).length > maxTransfers
    · have hloop : txsToTransfersLoop tryFrom maxTransfers blockBound start checkpoint (tx :: txs) =
          (start, checkpoint) := by
        simp only [txsToTransfersLoop, if_pos h]
      have htwo := length_txToTransfers_le tryFrom tx
      rw [hloop]
      exact ⟨[], tx :: txs, rfl, by simp, hstart, .inr ⟨by simp only; omega, rfl⟩⟩
    · have hloop : txsToTransfersLoop tryFrom maxTransfers blockBound start checkpoint (tx :: txs) =
          txsToTransfersLoop tryFrom maxTransfers blockBound (start ++ txToTransfers tryFrom tx)
            (.tx tx.txHash) txs := by
        simp only [txsToTransfersLoop, if_neg h]
      obtain ⟨taken, rest, rfl, hresult⟩ := ih (start ++ txToTransfers tryFrom tx) (.tx tx.txHash)
        (by simpa using h)
      rw [hloop]
      refine ⟨tx :: taken, rest, rfl, ?_, hresult.length_le, ?_⟩
      · rw [hresult.transfers, List.flatMap_cons, List.append_assoc]
      · exact hresult.ends.imp_left fun ⟨he, hlt, hc⟩ => ⟨congrArg (tx :: ·) he, hlt, hc⟩

end

/-! ## One call -/

section

variable {R : Type} {tryFrom : List UInt8 → Option R} {final : CardanoDb} {scripts : MainChainScripts}

/-- What one successful call delivers: the transactions from its checkpoint to the returned one. -/
structure Delivers (tryFrom : List UInt8 → Option R) (final : CardanoDb) (scripts : MainChainScripts)
    (maxTransfers blockBound : Nat) (start stop : Position) (taken : List BridgeTx)
    (result : List (BridgeTransferV1 R) × BridgeDataCheckpoint) : Prop where
  transfers : result.1 = taken.flatMap (txToTransfers tryFrom)
  length_le : result.1.length ≤ maxTransfers
  taken_eq : taken = slice BridgeTx.orderingKey (min start (endOfBlock blockBound)) stop
    (final.bridgeTxs scripts)
  resolves : ∃ checkpoint, final.resolve result.2 = .ok checkpoint ∧ checkpoint.next = stop
  stop_le : stop ≤ endOfBlock blockBound
  le_stop : min start (endOfBlock blockBound) ≤ stop

theorem checkpointAfter_concat (checkpoint : BridgeDataCheckpoint) (taken : List BridgeTx)
    (tx : BridgeTx) : checkpointAfter checkpoint (taken ++ [tx]) = .tx tx.txHash := by
  simp [checkpointAfter]

theorem slice_next_tx
    (h : slice BridgeTx.orderingKey a b (final.bridgeTxs scripts) = init ++ [x] ++ rest)
    (hb : (ResolvedBridgeDataCheckpoint.tx x.blockNumber x.txIx).next ≤ b) :
    slice BridgeTx.orderingKey a (ResolvedBridgeDataCheckpoint.tx x.blockNumber x.txIx).next
      (final.bridgeTxs scripts) = init ++ [x] := by
  have hsorted := (final.bridgeTxs_pairwise scripts).filter fun x =>
    decide (a ≤ x.orderingKey ∧ x.orderingKey < b)
  change (slice BridgeTx.orderingKey a b (final.bridgeTxs scripts)).Pairwise _ at hsorted
  rw [← slice_slice le_rfl hb, h]
  refine slice_append_cut ?_ ?_
  · intro y hy
    have hmem : y ∈ slice BridgeTx.orderingKey a b (final.bridgeTxs scripts) :=
      h ▸ List.mem_append_left rest hy
    refine ⟨(mem_slice.mp hmem).2.1, lt_next_tx.mpr ?_⟩
    rw [h, List.pairwise_append, List.pairwise_append] at hsorted
    rcases List.mem_append.mp hy with hy | hy
    · exact (hsorted.1.2.2 y hy x List.mem_cons_self).le
    · rw [List.mem_singleton.mp hy]
  · intro y hy
    rw [h, List.pairwise_append] at hsorted
    refine not_lt.mp fun hlt => ?_
    have hxy := hsorted.2.2 x (List.mem_append_right init List.mem_cons_self) y hy
    exact absurd (lt_next_tx.mp hlt) (not_le.mpr hxy)

theorem slice_min_eq (h : c ≤ b) :
    slice BridgeTx.orderingKey (min a b) c l = slice BridgeTx.orderingKey a c l := by
  rcases le_total a b with hab | hab
  · rw [min_eq_left hab]
  · rw [min_eq_right hab, slice_eq_nil_iff.mpr fun x _ hx => h.trans hx,
      slice_eq_nil_iff.mpr fun x _ hx => (h.trans hab).trans hx]

/-- A call delivers the transactions from its start up to where its checkpoint stands. -/
theorem txsToTransfers_delivers (start : Position) (blockBound : Nat) (hmax : 2 ≤ maxTransfers) :
    ∃ stop taken, Delivers tryFrom final scripts maxTransfers blockBound start stop taken
      (txsToTransfers tryFrom ((slice BridgeTx.orderingKey start (endOfBlock blockBound)
        (final.bridgeTxs scripts)).take maxTransfers) maxTransfers blockBound) := by
  set rows := slice BridgeTx.orderingKey start (endOfBlock blockBound) (final.bridgeTxs scripts)
    with hrows
  obtain ⟨taken, rest, htaken, hresult⟩ := txsToTransfersLoop_spec tryFrom blockBound
    (rows.take maxTransfers) [] (.block blockBound) (Nat.zero_le maxTransfers)
  rcases hresult.ends with ⟨hall, hroom, hcheckpoint⟩ | ⟨hfull, hcheckpoint⟩
  · -- with room left for a transfer, the query was not cut
    have hqualifies : ∀ tx ∈ rows.take maxTransfers, tx.qualifies = true := fun tx htx =>
      (CardanoDb.mem_bridgeTxs (mem_slice.mp (List.mem_of_mem_take htx)).1).1
    have hlen := length_le_flatMap tryFrom hqualifies
    rw [hresult.transfers, List.nil_append, hall] at hroom
    have hcut : rows.take maxTransfers = rows := by
      rw [List.take_eq_self_iff]
      rw [List.length_take] at hlen
      omega
    refine ⟨endOfBlock blockBound, taken, hresult.transfers, hresult.length_le, ?_,
      ⟨.block blockBound, ?_, rfl⟩, le_rfl, min_le_right _ _⟩
    · rw [hall, hcut, slice_min_eq le_rfl]
    · rw [txsToTransfers, hcheckpoint]
      rfl
  · have hne : taken ≠ [] := by
      rintro rfl
      rw [hresult.transfers] at hfull
      simp only [List.flatMap_nil, List.append_nil, List.length_nil] at hfull
      omega
    obtain ⟨init, x, rfl⟩ := List.eq_nil_or_concat' taken |>.resolve_left hne
    have hsplit : rows = init ++ [x] ++ (rest ++ rows.drop maxTransfers) := by
      rw [← List.append_assoc, ← htaken, List.take_append_drop]
    have hx : x ∈ rows := by
      rw [hsplit]
      simp
    obtain ⟨hmem, hstart, hend⟩ := mem_slice.mp hx
    have hnext : (ResolvedBridgeDataCheckpoint.tx x.blockNumber x.txIx).next ≤
        endOfBlock blockBound := by
      have hblock := lt_endOfBlock.mp hend
      simp only [ResolvedBridgeDataCheckpoint.next, endOfBlock, Prod.Lex.toLex_le_toLex]
      omega
    refine ⟨(ResolvedBridgeDataCheckpoint.tx x.blockNumber x.txIx).next, init ++ [x],
      hresult.transfers, hresult.length_le, ?_,
      ⟨.tx x.blockNumber x.txIx, ?_, rfl⟩, hnext, ?_⟩
    · rw [slice_min_eq hnext, slice_next_tx hsplit hnext]
    · rw [txsToTransfers, hcheckpoint, checkpointAfter_concat]
      exact CardanoDb.resolveTxHash_of_mem hmem
    · exact (min_le_left _ _).trans (hstart.trans (lt_next_tx.mpr le_rfl).le)

end

/-! ## Chains of calls -/

structure ObservationCall where
  snapshots : Snapshots
  maxTransfers : Nat
  currentMcBlockHash : McBlockHash

structure Served (R : Type) where
  call : ObservationCall
  transfers : List (BridgeTransferV1 R)
  checkpoint : BridgeDataCheckpoint

/-- The answers to calls that each start at the checkpoint of the last answer. -/
def chain {R : Type} (tryFrom : List UInt8 → Option R) (scripts : MainChainScripts) :
    BridgeDataCheckpoint → List ObservationCall → List (Served R)
  | _, [] => []
  | checkpoint, call :: calls =>
    match getTransfers tryFrom call.snapshots
      ⟨scripts, checkpoint, call.maxTransfers, call.currentMcBlockHash⟩ with
    | .ok (transfers, next) => ⟨call, transfers, next⟩ :: chain tryFrom scripts next calls
    | .error _ => chain tryFrom scripts checkpoint calls

section

variable {R : Type}

/-- The referenced blocks have non-decreasing numbers. -/
def BlocksNonDecreasing (final : CardanoDb) (calls : List ObservationCall) : Prop :=
  calls.Pairwise fun c d => ∀ b b', final.getBlockByHash c.currentMcBlockHash = .ok b →
    final.getBlockByHash d.currentMcBlockHash = .ok b' → b.number ≤ b'.number

/-- What a chain with at least one answer delivers: the transactions `parts` of its calls, one after the
other, are those between the start and the last checkpoint. -/
structure ChainDelivers (tryFrom : List UInt8 → Option R) (final : CardanoDb)
    (scripts : MainChainScripts) (start stop : Position) (served : List (Served R))
    (parts : List (List BridgeTx)) : Prop where
  transfers : served.map Served.transfers = parts.map (·.flatMap (txToTransfers tryFrom))
  length_le : ∀ s ∈ served, s.transfers.length ≤ s.call.maxTransfers
  flatten_eq : parts.flatten = slice BridgeTx.orderingKey start stop (final.bridgeTxs scripts)
  resolves : ∀ last ∈ served.getLast?,
    ∃ checkpoint, final.resolve last.checkpoint = .ok checkpoint ∧ checkpoint.next = stop
  start_le : start ≤ stop

variable {tryFrom : List UInt8 → Option R} {final : CardanoDb} {scripts : MainChainScripts}

theorem mem_of_mem_chain (h : s ∈ chain tryFrom scripts checkpoint calls) : s.call ∈ calls := by
  induction calls generalizing checkpoint with
  | nil => cases h
  | cons call calls ih =>
    unfold chain at h
    split at h
    · rcases List.mem_cons.mp h with rfl | h
      · exact List.mem_cons_self
      · exact List.mem_cons_of_mem call (ih h)
    · exact List.mem_cons_of_mem call (ih h)

theorem ChainDelivers.cons {b : Block} {transfers : List (BridgeTransferV1 R)} {served : List (Served R)}
    {parts : List (List BridgeTx)}
    (hcall : Delivers tryFrom final scripts call.maxTransfers b.number start mid taken
      (transfers, checkpoint)) (hne : served ≠ [])
    (h : ChainDelivers tryFrom final scripts mid stop served parts) :
    ChainDelivers tryFrom final scripts (min start (endOfBlock b.number)) stop
      (⟨call, transfers, checkpoint⟩ :: served) (taken :: parts) := by
  refine ⟨?_, ?_, ?_, ?_, hcall.le_stop.trans h.start_le⟩
  · rw [List.map_cons, List.map_cons, h.transfers]
    exact congrArg (· :: _) hcall.transfers
  · intro s hs
    rcases List.mem_cons.mp hs with rfl | hs
    · exact hcall.length_le
    · exact h.length_le s hs
  · rw [List.flatten_cons, hcall.taken_eq, h.flatten_eq]
    exact (final.bridgeTxs_sorted scripts).slice_append_slice hcall.le_stop h.start_le
  · obtain ⟨s, served, rfl⟩ := List.exists_cons_of_ne_nil hne
    rw [List.getLast?_cons_cons]
    exact h.resolves

theorem ChainDelivers.single {b : Block} {transfers : List (BridgeTransferV1 R)}
    (hcall : Delivers tryFrom final scripts call.maxTransfers b.number start stop taken
      (transfers, checkpoint)) :
    ChainDelivers tryFrom final scripts (min start (endOfBlock b.number)) stop
      [⟨call, transfers, checkpoint⟩] [taken] := by
  refine ⟨congrArg (· :: []) hcall.transfers, ?_, ?_, ?_, hcall.le_stop⟩
  · intro s hs
    rw [List.mem_singleton.mp hs]
    exact hcall.length_le
  · rw [List.flatten_singleton, hcall.taken_eq]
  · intro last hlast
    cases hlast
    exact hcall.resolves

/-- The induction over the calls: each starts where the checkpoint of the one before stands. -/
theorem chain_delivers (calls : List ObservationCall) (checkpoint : BridgeDataCheckpoint)
    (hgrow : ∀ c ∈ calls, c.snapshots.rows.GrowsTo final) (hmax : ∀ c ∈ calls, 2 ≤ c.maxTransfers)
    (hmono : BlocksNonDecreasing final calls) :
    ∀ first ∈ (chain tryFrom scripts checkpoint calls).head?, ∃ b start stop parts,
      final.getBlockByHash first.call.currentMcBlockHash = .ok b ∧
      final.resolve checkpoint = .ok start ∧
      ChainDelivers tryFrom final scripts (min start.next (endOfBlock b.number)) stop
        (chain tryFrom scripts checkpoint calls) parts := by
  induction calls generalizing checkpoint with
  | nil => rintro first ⟨⟩
  | cons call calls ih =>
    have hgrow' : ∀ c ∈ calls, c.snapshots.rows.GrowsTo final := fun c hc =>
      hgrow c (List.mem_cons_of_mem call hc)
    have hmax' : ∀ c ∈ calls, 2 ≤ c.maxTransfers := fun c hc => hmax c (List.mem_cons_of_mem call hc)
    obtain ⟨hhead, hmono'⟩ := List.pairwise_cons.mp hmono
    unfold chain
    split
    case h_2 => exact ih checkpoint hgrow' hmax' hmono'
    case h_1 transfers next hok =>
      rintro first ⟨⟩
      obtain ⟨b, start, hb, hstart, hresult⟩ := getTransfers_inv (hgrow call List.mem_cons_self) hok
      obtain ⟨mid, taken, hcall⟩ := txsToTransfers_delivers start.next b.number
        (hmax call List.mem_cons_self)
      rw [← hresult] at hcall
      cases hrest : chain tryFrom scripts next calls with
      | nil => exact ⟨b, start, mid, [taken], hb, hstart, .single hcall⟩
      | cons s served =>
        obtain ⟨b', start', stop, parts, hb', hstart', h⟩ := ih next hgrow' hmax' hmono' s
          (by rw [hrest]; rfl)
        have hs : s.call ∈ calls := mem_of_mem_chain (hrest ▸ List.mem_cons_self)
        -- the next call goes on where this one has stopped
        have hmid : min start'.next (endOfBlock b'.number) = mid := by
          obtain ⟨c, hc, rfl⟩ := hcall.resolves
          obtain rfl : start' = c := Except.ok.inj (hstart'.symm.trans hc)
          have hle := endOfBlock_le_endOfBlock.mpr (hhead s.call hs b b' hb hb')
          exact min_eq_left (hcall.stop_le.trans hle)
        rw [hmid, hrest] at h
        exact ⟨b, start, stop, taken :: parts, hb, hstart, .cons hcall (List.cons_ne_nil s served) h⟩

end

/-- Over any history and any sequence of referenced blocks with non-decreasing numbers, the calls of a
chain deliver every transfer up to the last checkpoint exactly once and in order. The transfers of a
call are those of whole transactions, no more than the limit. The delivered transactions are all from
the start of the chain on, which is its first checkpoint, or the first referenced block if that lies
before it; after a block checkpoint they are all up to this block. -/
theorem bridge_delivery_exactly_once {R : Type} (tryFrom : List UInt8 → Option R)
    (final : CardanoDb) (scripts : MainChainScripts) (checkpoint : BridgeDataCheckpoint)
    (calls : List ObservationCall) (hgrow : ∀ c ∈ calls, c.snapshots.rows.GrowsTo final)
    (hmax : ∀ c ∈ calls, 2 ≤ c.maxTransfers) (hmono : BlocksNonDecreasing final calls)
    (first last : Served R) (hfirst : (chain tryFrom scripts checkpoint calls).head? = some first)
    (hlast : (chain tryFrom scripts checkpoint calls).getLast? = some last) :
    ∃ (b : Block) (start stop : ResolvedBridgeDataCheckpoint) (parts : List (List BridgeTx)),
      final.getBlockByHash first.call.currentMcBlockHash = .ok b ∧
      final.resolve checkpoint = .ok start ∧ final.resolve last.checkpoint = .ok stop ∧
      (chain tryFrom scripts checkpoint calls).map Served.transfers =
        parts.map (·.flatMap (txToTransfers tryFrom)) ∧
      (∀ s ∈ chain tryFrom scripts checkpoint calls, s.transfers.length ≤ s.call.maxTransfers) ∧
      parts.flatten = slice BridgeTx.orderingKey (min start.next (endOfBlock b.number)) stop.next
        (final.bridgeTxs scripts) ∧
      parts.flatten.Nodup ∧
      ∀ n, last.checkpoint = .block n → parts.flatten = (final.bridgeTxs scripts).filter fun tx =>
        min start.next (endOfBlock b.number) ≤ tx.orderingKey ∧ tx.blockNumber ≤ n := by
  obtain ⟨b, start, stop, parts, hb, hstart, h⟩ :=
    chain_delivers calls checkpoint hgrow hmax hmono first hfirst
  obtain ⟨c, hc, rfl⟩ := h.resolves last hlast
  refine ⟨b, start, c, parts, hb, hstart, hc, h.transfers, h.length_le, h.flatten_eq, ?_, ?_⟩
  · rw [h.flatten_eq]
    have hlt := (final.bridgeTxs_pairwise scripts).imp fun {x y} hxy => ne_of_apply_ne _ hxy.ne
    exact List.Nodup.filter _ hlt
  · intro n hn
    rw [hn] at hc
    cases hc
    rw [h.flatten_eq]
    refine List.filter_congr fun tx _ => ?_
    rw [decide_eq_decide, ResolvedBridgeDataCheckpoint.next, lt_endOfBlock]

/-- Three calls with a limit of two transfers that refer to the last block. -/
def sampleCalls : List ObservationCall := List.replicate 3 ⟨sampleSnapshots, 2, .fill 32 2⟩

theorem bridge_delivery_exactly_once_three_calls :
    ((chain sampleTryFrom sampleScripts (.block 0) sampleCalls).map fun s =>
      (s.transfers.map BridgeTransferV1.amount, s.checkpoint)) =
        [([5], .tx (.fill 32 11)), ([3, 4], .tx (.fill 32 12)), ([6], .block 2)] ∧
      ∃ parts : List (List BridgeTx),
        (chain sampleTryFrom sampleScripts (.block 0) sampleCalls).map Served.transfers =
          parts.map (·.flatMap (txToTransfers sampleTryFrom)) ∧ parts.flatten.Nodup := by
  refine ⟨by decide +kernel, ?_⟩
  obtain ⟨b, start, stop, parts, -, -, -, htransfers, -, -, hnodup, -⟩ :=
    bridge_delivery_exactly_once sampleTryFrom sampleDb sampleScripts (.block 0) sampleCalls
      (by
        intro c hc
        rw [List.eq_of_mem_replicate hc]
        exact .refl _)
      (by decide +kernel)
      (List.pairwise_replicate.mpr (.inr fun b b' h h' => by
        rw [Except.ok.inj (h.symm.trans h')]))
      _ _ rfl rfl
  exact ⟨parts, htransfers, hnodup⟩

end MidnightNode.Bridge
