import MidnightNode.CNight.DbSync
import MidnightNode.Lib.Relational

/-!
# Bounds on row ids

The observation queries join tables with hundreds of millions of rows. To keep the scans short, each query
also restricts the ids of the rows it reads, by bounds that `get_low_bounds` and `get_high_bounds` look up
around the blocks of the range. Here the queries are translated with their joins, with and without bounds.

The low bounds are ids of rows in front of the start block and the high bounds ids of rows behind the end
block, or no restriction where there is no such row. Ids grow along the chain, so no row of the range is cut
off.
-/

namespace MidnightNode.CNight.Sql

open Relational

/-! ## Tables -/

/-- The largest `bigint`, which stands for "no bound". -/
def i64Max : Nat := 9223372036854775807

/-- A value of an id column, counted up from 1. -/
abbrev RowId := { n : Nat // 0 < n ∧ n < i64Max }

structure Block where
  id : RowId
  blockNo : Option Nat
  hash : McBlockHash
  time : Int

structure Tx where
  id : RowId
  blockId : RowId
  blockIndex : Nat
  hash : McTxHash
  blockIndex_lt : blockIndex < i32Max

structure TxOut where
  id : RowId
  txId : RowId
  index : UInt16
  address : String
  dataHash : Option (Bytes 32)

structure MaTxOut where
  id : RowId
  txOutId : RowId
  ident : Int
  quantity : Int

/-- The transaction `txInId` spends the output `txOutIndex` of `txOutId`. -/
structure TxIn where
  id : RowId
  txInId : RowId
  txOutId : RowId
  txOutIndex : UInt16

structure Datum where
  hash : Bytes 32
  value : PlutusData

/-- The tables, with ids that grow along the chain. A block may have no rows in any of the other tables, and
no number. -/
structure Tables where
  blocks : List Block
  txs : List Tx
  txOuts : List TxOut
  maTxOuts : List MaTxOut
  txIns : List TxIn
  datums : List Datum
  blocks_grow : ∀ a ∈ blocks, ∀ b ∈ blocks, ∀ m ∈ a.blockNo, ∀ n ∈ b.blockNo, m ≤ n → a.id ≤ b.id
  txs_grow : ∀ a ∈ txs, ∀ b ∈ txs, a.blockId < b.blockId → a.id < b.id
  txOuts_grow : ∀ a ∈ txOuts, ∀ b ∈ txOuts, a.txId < b.txId → a.id < b.id
  maTxOuts_grow : ∀ a ∈ maTxOuts, ∀ b ∈ maTxOuts, a.txOutId < b.txOutId → a.id < b.id
  txIns_grow : ∀ a ∈ txIns, ∀ b ∈ txIns, a.txInId < b.txInId → a.id < b.id

/-! ## Bounds -/

structure QueryBounds where
  txId : Nat
  txOutId : Nat
  maTxOutId : Nat
  txInId : Nat
deriving DecidableEq

/-- The cast of a `u32` to `i32`. -/
def asI32 (n : Nat) : Int := (BitVec.ofNat 32 n).toInt

def hasNumber (blockNo : Nat) (b : Block) : Bool :=
  b.blockNo.any fun (n : Nat) => (n : Int) = asI32 blockNo

/-- The answers `get_low_bounds` can give. -/
def getLowBounds (t : Tables) (blockNo : Nat) : List QueryBounds :=
  (coalesce 0 ((t.blocks.filter (hasNumber blockNo)).map (·.id.val))).flatMap fun blockId =>
  (coalesce 0 ((lastBy (·.blockId) (t.txs.filter (·.blockId.val < blockId))).map
    (·.id.val))).flatMap fun txId =>
  (coalesce 0 ((lastBy (·.txId) (t.txOuts.filter (·.txId.val ≤ txId))).map
    (·.id.val))).flatMap fun txOutId =>
  (coalesce 0 ((lastBy (·.txOutId) (t.maTxOuts.filter (·.txOutId.val ≤ txOutId))).map
    (·.id.val))).flatMap fun maTxOutId =>
  (coalesce 0 ((lastBy (·.txInId) (t.txIns.filter (·.txInId.val ≤ txId))).map (·.id.val))).map
    fun txInId => { txId, txOutId, maTxOutId, txInId }

/-- The answers `get_high_bounds` can give; none without the block. -/
def getHighBounds (t : Tables) (blockNo : Nat) : List QueryBounds :=
  ((t.blocks.filter (hasNumber blockNo)).map (·.id.val)).flatMap fun blockId =>
  (coalesce i64Max ((firstBy (·.blockId) (t.txs.filter (blockId < ·.blockId.val))).map
    (·.id.val))).flatMap fun txId =>
  (coalesce i64Max ((firstBy (·.txId) (t.txOuts.filter (txId ≤ ·.txId.val))).map
    (·.id.val))).flatMap fun txOutId =>
  (coalesce i64Max ((firstBy (·.txOutId) (t.maTxOuts.filter (txOutId ≤ ·.txOutId.val))).map
    (·.id.val))).flatMap fun maTxOutId =>
  (coalesce i64Max ((firstBy (·.txInId) (t.txIns.filter (txId ≤ ·.txInId.val))).map (·.id.val))).map
    fun txInId => { txId, txOutId, maTxOutId, txInId }

/-! ## Queries -/

/-- The bounds on one id column; `none` for a query without bounds. -/
def within (bounds : Option (QueryBounds × QueryBounds)) (column : QueryBounds → Nat) (id : RowId) :
    Bool :=
  bounds.all fun (low, high) => column low ≤ id.val && id.val ≤ column high

/-- The conditions on the position of the transaction. -/
def inRange (q : PagedQuery) (b : Block) (tx : Tx) : Bool :=
  let startNo := asI32 q.start.blockNumber
  let endNo := asI32 q.end_.blockNumber
  b.blockNo.any fun (n : Nat) =>
    startNo ≤ n && n ≤ endNo &&
      (startNo < n || n = startNo && asI32 q.start.txIndexInBlock ≤ tx.blockIndex) &&
      (n < endNo || n = endNo && tx.blockIndex < asI32 q.end_.txIndexInBlock)

def rowPosition (b : Block) (tx : Tx) : Option RowPosition :=
  b.blockNo.map fun n => ⟨n, b.hash, b.time, tx.blockIndex, tx.blockIndex_lt⟩

/-- `ORDER BY key LIMIT limit OFFSET offset`, behind the assertions on the two numbers. -/
def orderLimit {ρ κ : Type} [LinearOrder κ] (q : PagedQuery) (key : ρ → κ) (rows : List ρ) :
    Except BulkPullError (List ρ) :=
  if q.limit < i32Max ∧ q.offset < i32Max then
    .ok (((rows.insertionSort fun a b => key a ≤ key b).drop q.offset).take q.limit)
  else .error .limitAssertion

section

variable (t : Tables) (bounds : Option (QueryBounds × QueryBounds))

/-- `block JOIN tx ON tx.block_id = block.id`. -/
def blockTx : List (Block × Tx) := join t.blocks t.txs fun block tx => tx.blockId = block.id

/-- The rows `get_registrations` selects. -/
def selectRegistrations (smartContractAddress : String) (authTokenIdent : Int) (q : PagedQuery) :
    List ((((Block × Tx) × TxOut) × Datum) × MaTxOut) :=
  let outs := join (blockTx t) t.txOuts fun (_, tx) out => out.txId = tx.id
  let data := join outs t.datums fun (_, out) datum => out.dataHash = some datum.hash
  let rows := join data t.maTxOuts fun ((_, out), _) ma => ma.txOutId = out.id
  rows.filter fun ((((block, tx), out), _), ma) =>
    within bounds (·.txId) tx.id && within bounds (·.txOutId) out.id &&
      within bounds (·.maTxOutId) ma.id && out.address = smartContractAddress &&
      ma.ident = authTokenIdent && ma.quantity = 1 && inRange q block tx

def getRegistrations (smartContractAddress : String) (authTokenIdent : Int) (q : PagedQuery) :
    Except BulkPullError (List RegistrationRow) :=
  orderLimit q (·.toRowPosition.key) <|
    (selectRegistrations t bounds smartContractAddress authTokenIdent q).filterMap
      fun ((((block, tx), out), datum), _) => (rowPosition block tx).map fun position =>
        { position with fullDatum := datum.value, txHash := tx.hash, utxoIndex := out.index }

/-- Joined to a transaction: its inputs with the outputs they spend. -/
def spentOuts : List (((Block × Tx) × TxIn) × TxOut) :=
  let ins := join (blockTx t) t.txIns fun (_, tx) txIn => txIn.txInId = tx.id
  join ins t.txOuts fun (_, txIn) out => out.txId = txIn.txOutId ∧ out.index = txIn.txOutIndex

/-- The rows `get_deregistrations` selects. -/
def selectDeregistrations (smartContractAddress : String) (q : PagedQuery) :
    List (((((Block × Tx) × TxIn) × TxOut) × Tx) × Datum) :=
  let txs := join (spentOuts t) t.txs fun (_, out) txTxOut => out.txId = txTxOut.id
  let rows := join txs t.datums fun ((_, out), _) datum => some datum.hash = out.dataHash
  rows.filter fun (((((block, tx), txIn), out), _), _) =>
    out.address = smartContractAddress && inRange q block tx &&
      within bounds (·.txId) tx.id && within bounds (·.txInId) txIn.id

def getDeregistrations (smartContractAddress : String) (q : PagedQuery) :
    Except BulkPullError (List DeregistrationRow) :=
  orderLimit q (·.toRowPosition.key) <|
    (selectDeregistrations t bounds smartContractAddress q).filterMap
      fun (((((block, tx), _), out), txTxOut), datum) => (rowPosition block tx).map fun position =>
        { position with
          fullDatum := datum.value, txHash := tx.hash, utxoTxHash := txTxOut.hash
          utxoIndex := out.index }

/-- The rows `get_asset_creates` selects. -/
def selectAssetCreates (ident : Int) (q : PagedQuery) :
    List (((Block × Tx) × TxOut) × MaTxOut) :=
  let outs := join (blockTx t) t.txOuts fun (_, tx) out => out.txId = tx.id
  let rows := join outs t.maTxOuts fun (_, out) ma => ma.txOutId = out.id
  rows.filter fun (((block, tx), out), ma) =>
    within bounds (·.txId) tx.id && within bounds (·.txOutId) out.id &&
      within bounds (·.maTxOutId) ma.id && ma.ident = ident && inRange q block tx

def getAssetCreates (ident : Int) (q : PagedQuery) : Except BulkPullError (List AssetCreateRow) :=
  orderLimit q (fun row => toLex (row.toRowPosition.key, row.utxoIndex.toNat)) <|
    (selectAssetCreates t bounds ident q).filterMap
      fun (((block, tx), out), ma) => (rowPosition block tx).map fun position =>
        { position with
          quantity := ma.quantity, holderAddress := out.address, txHash := tx.hash
          utxoIndex := out.index }

/-- The rows `get_asset_spends` selects. -/
def selectAssetSpends (ident : Int) (q : PagedQuery) :
    List (((((Block × Tx) × TxIn) × TxOut) × Tx) × MaTxOut) :=
  let txs := join (spentOuts t) t.txs fun (_, out) tx => out.txId = tx.id
  let rows := join txs t.maTxOuts fun ((_, out), _) ma => ma.txOutId = out.id
  rows.filter fun (((((spendingBlock, spendingTx), txIn), _), _), ma) =>
    ma.ident = ident && inRange q spendingBlock spendingTx &&
      within bounds (·.txId) spendingTx.id && within bounds (·.txInId) txIn.id

def getAssetSpends (ident : Int) (q : PagedQuery) : Except BulkPullError (List AssetSpendRow) :=
  orderLimit q (fun row => toLex (row.toRowPosition.key, row.utxoIndex.toNat)) <|
    (selectAssetSpends t bounds ident q).filterMap
      fun (((((spendingBlock, spendingTx), _), out), tx), ma) =>
        (rowPosition spendingBlock spendingTx).map fun position =>
          { position with
            quantity := ma.quantity, holderAddress := out.address, utxoTxHash := tx.hash
            utxoIndex := out.index, spendingTxHash := spendingTx.hash }

end

/-! ## No row of the range is cut off -/

/-- The bounds lie on one side of every row of a transaction. -/
structure Beside (r : Nat → Nat → Prop) (t : Tables) (bounds : QueryBounds) (tx : Tx) : Prop where
  txId : r bounds.txId tx.id.val
  txOutId : ∀ out ∈ t.txOuts, out.txId = tx.id → r bounds.txOutId out.id.val
  maTxOutId : ∀ out ∈ t.txOuts, out.txId = tx.id →
    ∀ ma ∈ t.maTxOuts, ma.txOutId = out.id → r bounds.maTxOutId ma.id.val
  txInId : ∀ txIn ∈ t.txIns, txIn.txInId = tx.id → r bounds.txInId txIn.id.val

theorem Beside.of_txId {bounds : QueryBounds} (htx : r bounds.txId tx.id.val)
    (hout : ∀ out ∈ t.txOuts, r bounds.txId out.txId.val → r bounds.txOutId out.id.val)
    (hma : ∀ ma ∈ t.maTxOuts, r bounds.txOutId ma.txOutId.val → r bounds.maTxOutId ma.id.val)
    (hin : ∀ txIn ∈ t.txIns, r bounds.txId txIn.txInId.val → r bounds.txInId txIn.id.val) :
    Beside r t bounds tx where
  txId := htx
  txOutId out hmem heq := hout out hmem (heq ▸ htx)
  maTxOutId out hmem heq ma hmaMem hmaOut := hma ma hmaMem (hmaOut ▸ hout out hmem (heq ▸ htx))
  txInId txIn hmem heq := hin txIn hmem (heq ▸ htx)

section

variable {t : Tables} {low high : QueryBounds} {blockNo : Nat} {block : Block} {tx : Tx} {n : Nat}

theorem hasNumber_iff : hasNumber blockNo b = true ↔ ∃ m ∈ b.blockNo, (m : Int) = asI32 blockNo := by
  cases h : b.blockNo <;> simp [hasNumber, h]

section

variable {ρ : Type} {rows : List ρ} {id parent : ρ → RowId} {p : ρ → Bool} {r : ρ} {v : Nat}
  (hgrow : ∀ a ∈ rows, ∀ b ∈ rows, parent a < parent b → id a < id b) (hr : r ∈ rows)

include hgrow hr

theorem low_lt (hp : ∀ a, p a = true → parent a < parent r)
    (hv : v ∈ coalesce 0 ((lastBy parent (rows.filter p)).map fun a => (id a).val)) :
    v < (id r).val := by
  apply of_mem_coalesce (p := (· < (id r).val)) hv (id r).2.1
  intro a ha
  obtain ⟨hmem, hbefore⟩ := List.mem_filter.mp (mem_of_mem_lastBy ha)
  exact hgrow a hmem r hr (hp a hbefore)

theorem lt_high (hp : ∀ a, p a = true → parent r < parent a)
    (hv : v ∈ coalesce i64Max ((firstBy parent (rows.filter p)).map fun a => (id a).val)) :
    (id r).val < v := by
  apply of_mem_coalesce (p := ((id r).val < ·)) hv (id r).2.2
  intro a ha
  obtain ⟨hmem, hafter⟩ := List.mem_filter.mp (mem_of_mem_firstBy ha)
  exact hgrow r hr a hmem (hp a hafter)

end

theorem below_of_mem (hlow : low ∈ getLowBounds t blockNo) (hblock : block ∈ t.blocks)
    (hn : n ∈ block.blockNo) (hle : asI32 blockNo ≤ n) (htx : tx ∈ t.txs)
    (hjoin : tx.blockId = block.id) : Beside (· < ·) t low tx := by
  simp only [getLowBounds, List.mem_flatMap] at hlow
  obtain ⟨blockId, hblockId, txId, htxId, txOutId, htxOutId, maTxOutId, hmaTxOutId, hlow⟩ := hlow
  obtain ⟨txInId, htxInId, rfl⟩ := List.mem_map.mp hlow
  have hstart : blockId ≤ block.id.val := by
    apply of_mem_coalesce (p := (· ≤ block.id.val)) hblockId (Nat.zero_le _)
    intro b hb
    obtain ⟨hmem, hnumber⟩ := List.mem_filter.mp hb
    obtain ⟨m, hm, heq⟩ := hasNumber_iff.mp hnumber
    exact t.blocks_grow b hmem block hblock m hm n hn (by omega)
  refine .of_txId ?_ (fun out hout hlt => ?_) (fun ma hma hlt => ?_) fun txIn htxIn hlt => ?_
  · refine low_lt t.txs_grow htx (fun a ha => ?_) htxId
    rw [hjoin]
    exact (of_decide_eq_true ha).trans_le hstart
  · exact low_lt t.txOuts_grow hout (fun a ha => (of_decide_eq_true ha).trans_lt hlt) htxOutId
  · exact low_lt t.maTxOuts_grow hma (fun a ha => (of_decide_eq_true ha).trans_lt hlt) hmaTxOutId
  · exact low_lt t.txIns_grow htxIn (fun a ha => (of_decide_eq_true ha).trans_lt hlt) htxInId

theorem above_of_mem (hhigh : high ∈ getHighBounds t blockNo) (hblock : block ∈ t.blocks)
    (hn : n ∈ block.blockNo) (hle : n ≤ asI32 blockNo) (htx : tx ∈ t.txs)
    (hjoin : tx.blockId = block.id) : Beside (· > ·) t high tx := by
  simp only [getHighBounds, List.mem_flatMap] at hhigh
  obtain ⟨blockId, hblockId, txId, htxId, txOutId, htxOutId, maTxOutId, hmaTxOutId, hhigh⟩ := hhigh
  obtain ⟨txInId, htxInId, rfl⟩ := List.mem_map.mp hhigh
  have hend : block.id.val ≤ blockId := by
    obtain ⟨b, hb, rfl⟩ := List.mem_map.mp hblockId
    obtain ⟨hmem, hnumber⟩ := List.mem_filter.mp hb
    obtain ⟨m, hm, heq⟩ := hasNumber_iff.mp hnumber
    exact t.blocks_grow block hblock b hmem n hn m hm (by omega)
  refine .of_txId ?_ (fun out hout hlt => ?_) (fun ma hma hlt => ?_) fun txIn htxIn hlt => ?_
  · refine lt_high t.txs_grow htx (fun a ha => ?_) htxId
    rw [hjoin]
    exact hend.trans_lt (of_decide_eq_true ha)
  · exact lt_high t.txOuts_grow hout (fun a ha => hlt.trans_le (of_decide_eq_true ha)) htxOutId
  · exact lt_high t.maTxOuts_grow hma (fun a ha => hlt.trans_le (of_decide_eq_true ha)) hmaTxOutId
  · exact lt_high t.txIns_grow htxIn (fun a ha => hlt.trans_le (of_decide_eq_true ha)) htxInId

theorem between_of_inRange (hlow : low ∈ getLowBounds t q.start.blockNumber)
    (hhigh : high ∈ getHighBounds t q.end_.blockNumber) (hjoin : (block, tx) ∈ blockTx t)
    (hrange : inRange q block tx = true) :
    Beside (· < ·) t low tx ∧ Beside (· > ·) t high tx := by
  obtain ⟨hblock, htx, heq⟩ := mem_join.mp hjoin
  obtain ⟨n, hn, hbounds⟩ : ∃ n ∈ block.blockNo,
      asI32 q.start.blockNumber ≤ n ∧ (n : Int) ≤ asI32 q.end_.blockNumber := by
    rw [inRange] at hrange
    cases hno : block.blockNo with
    | none => simp [hno] at hrange
    | some n =>
      simp only [hno, Option.any_some, Bool.and_eq_true, decide_eq_true_eq] at hrange
      exact ⟨n, rfl, hrange.1.1⟩
  have hblockId : tx.blockId = block.id := of_decide_eq_true heq
  exact ⟨below_of_mem hlow hblock hn hbounds.1 htx hblockId,
    above_of_mem hhigh hblock hn hbounds.2 htx hblockId⟩

theorem within_of_lt {id : RowId} (hlow : column low < id.val) (hhigh : id.val < column high) :
    within (some (low, high)) column id = true := by
  simp [within, hlow.le, hhigh.le]

@[simp] theorem within_none (column : QueryBounds → Nat) (id : RowId) :
    within none column id = true := rfl

section

variable {q : PagedQuery} (hlow : low ∈ getLowBounds t q.start.blockNumber)
  (hhigh : high ∈ getHighBounds t q.end_.blockNumber)

include hlow hhigh

theorem within_created (hjoin : (block, tx) ∈ blockTx t) (hrange : inRange q block tx = true)
    (hout : out ∈ t.txOuts) (houtTx : out.txId = tx.id) (hma : ma ∈ t.maTxOuts)
    (hmaOut : ma.txOutId = out.id) :
    within (some (low, high)) (·.txId) tx.id = true ∧
      within (some (low, high)) (·.txOutId) out.id = true ∧
      within (some (low, high)) (·.maTxOutId) ma.id = true := by
  obtain ⟨hbelow, habove⟩ := between_of_inRange hlow hhigh hjoin hrange
  exact ⟨within_of_lt hbelow.txId habove.txId,
    within_of_lt (hbelow.txOutId out hout houtTx) (habove.txOutId out hout houtTx),
    within_of_lt (hbelow.maTxOutId out hout houtTx ma hma hmaOut)
      (habove.maTxOutId out hout houtTx ma hma hmaOut)⟩

/-- The rows of an input in the range; the output it spends may lie far in front of it. -/
theorem within_spent (hjoin : (block, tx) ∈ blockTx t) (hrange : inRange q block tx = true)
    (htxIn : txIn ∈ t.txIns) (heq : txIn.txInId = tx.id) :
    within (some (low, high)) (·.txId) tx.id = true ∧
      within (some (low, high)) (·.txInId) txIn.id = true := by
  obtain ⟨hbelow, habove⟩ := between_of_inRange hlow hhigh hjoin hrange
  exact ⟨within_of_lt hbelow.txId habove.txId,
    within_of_lt (hbelow.txInId txIn htxIn heq) (habove.txInId txIn htxIn heq)⟩

theorem selectRegistrations_bounds (address : String) (ident : Int) :
    selectRegistrations t (some (low, high)) address ident q =
      selectRegistrations t none address ident q := by
  apply List.filter_congr
  rintro ⟨⟨⟨⟨block, tx⟩, out⟩, datum⟩, ma⟩ hrow
  simp only [mem_join, decide_eq_true_eq] at hrow
  obtain ⟨⟨⟨hjoin, hout, houtTx⟩, -⟩, hma, hmaOut⟩ := hrow
  cases hrange : inRange q block tx with
  | false => simp [hrange]
  | true =>
    obtain ⟨htxId, houtId, hmaId⟩ := within_created hlow hhigh hjoin hrange hout houtTx hma hmaOut
    simp [htxId, houtId, hmaId]

theorem selectDeregistrations_bounds (address : String) :
    selectDeregistrations t (some (low, high)) address q = selectDeregistrations t none address q := by
  apply List.filter_congr
  rintro ⟨⟨⟨⟨⟨block, tx⟩, txIn⟩, out⟩, txTxOut⟩, datum⟩ hrow
  simp only [spentOuts, mem_join, decide_eq_true_eq] at hrow
  obtain ⟨⟨⟨⟨hjoin, htxIn, heq⟩, -⟩, -⟩, -⟩ := hrow
  cases hrange : inRange q block tx with
  | false => simp [hrange]
  | true =>
    obtain ⟨htxId, htxInId⟩ := within_spent hlow hhigh hjoin hrange htxIn heq
    simp [htxId, htxInId]

theorem selectAssetCreates_bounds (ident : Int) :
    selectAssetCreates t (some (low, high)) ident q = selectAssetCreates t none ident q := by
  apply List.filter_congr
  rintro ⟨⟨⟨block, tx⟩, out⟩, ma⟩ hrow
  simp only [mem_join, decide_eq_true_eq] at hrow
  obtain ⟨⟨hjoin, hout, houtTx⟩, hma, hmaOut⟩ := hrow
  cases hrange : inRange q block tx with
  | false => simp [hrange]
  | true =>
    obtain ⟨htxId, houtId, hmaId⟩ := within_created hlow hhigh hjoin hrange hout houtTx hma hmaOut
    simp [htxId, houtId, hmaId]

theorem selectAssetSpends_bounds (ident : Int) :
    selectAssetSpends t (some (low, high)) ident q = selectAssetSpends t none ident q := by
  apply List.filter_congr
  rintro ⟨⟨⟨⟨⟨spendingBlock, spendingTx⟩, txIn⟩, out⟩, tx⟩, ma⟩ hrow
  simp only [spentOuts, mem_join, decide_eq_true_eq] at hrow
  obtain ⟨⟨⟨⟨hjoin, htxIn, heq⟩, -⟩, -⟩, -⟩ := hrow
  cases hrange : inRange q spendingBlock spendingTx with
  | false => simp [hrange]
  | true =>
    obtain ⟨htxId, htxInId⟩ := within_spent hlow hhigh hjoin hrange htxIn heq
    simp [htxId, htxInId]

end

end

/-- **The bounds on row ids do not change what the observation queries return**, whichever of their
possible values the lookups give. -/
theorem bounds_irrelevant (t : Tables) (q : PagedQuery) (low high : QueryBounds)
    (hlow : low ∈ getLowBounds t q.start.blockNumber)
    (hhigh : high ∈ getHighBounds t q.end_.blockNumber) :
    (∀ address ident, getRegistrations t (some (low, high)) address ident q =
      getRegistrations t none address ident q) ∧
    (∀ address, getDeregistrations t (some (low, high)) address q =
      getDeregistrations t none address q) ∧
    (∀ ident, getAssetCreates t (some (low, high)) ident q = getAssetCreates t none ident q) ∧
    ∀ ident, getAssetSpends t (some (low, high)) ident q = getAssetSpends t none ident q := by
  refine ⟨fun address ident => ?_, fun address => ?_, fun ident => ?_, fun ident => ?_⟩
  · rw [getRegistrations, selectRegistrations_bounds hlow hhigh, getRegistrations]
  · rw [getDeregistrations, selectDeregistrations_bounds hlow hhigh, getDeregistrations]
  · rw [getAssetCreates, selectAssetCreates_bounds hlow hhigh, getAssetCreates]
  · rw [getAssetSpends, selectAssetSpends_bounds hlow hhigh, getAssetSpends]

theorem rowId_range (n : Nat) : 0 < min n 5 + 1 ∧ min n 5 + 1 < i64Max := by
  simp only [i64Max]
  omega

def rowId (n : Nat) : RowId := ⟨min n 5 + 1, rowId_range n⟩

theorem grow_singleton {ρ : Type} (r : ρ) (id parent : ρ → RowId) :
    ∀ a ∈ [r], ∀ b ∈ [r], parent a < parent b → id a < id b := by
  intro a ha b hb hlt
  rw [List.mem_singleton.mp ha, List.mem_singleton.mp hb] at hlt
  exact absurd hlt (lt_irrefl _)

def sampleTx (n : Nat) : Tx := ⟨rowId n, rowId n, 0, .fill 32 1, Nat.zero_lt_succ _⟩

theorem sampleTx_grow : ∀ a ∈ [sampleTx 0, sampleTx 1], ∀ b ∈ [sampleTx 0, sampleTx 1],
    a.blockId < b.blockId → a.id < b.id := by
  intro a ha b hb hlt
  simp only [List.mem_cons, List.not_mem_nil, or_false] at ha hb
  rcases ha with rfl | rfl <;> rcases hb with rfl | rfl <;> exact hlt

def sampleBlock (n : Nat) : Block := ⟨rowId n, some (7 + n), .fill 32 0, 0⟩

theorem sampleBlock_grow : ∀ a ∈ [sampleBlock 0, sampleBlock 1], ∀ b ∈ [sampleBlock 0, sampleBlock 1],
    ∀ m ∈ a.blockNo, ∀ n ∈ b.blockNo, m ≤ n → a.id ≤ b.id := by
  decide

/-- Two blocks, the second with an output that holds an asset. -/
def sampleTables : Tables where
  blocks := [sampleBlock 0, sampleBlock 1]
  txs := [sampleTx 0, sampleTx 1]
  txOuts := [⟨rowId 0, rowId 1, 0, "holder", none⟩]
  maTxOuts := [⟨rowId 0, rowId 0, 3, 100⟩]
  txIns := []
  datums := []
  blocks_grow := sampleBlock_grow
  txs_grow := sampleTx_grow
  txOuts_grow := grow_singleton _ TxOut.id TxOut.txId
  maTxOuts_grow := grow_singleton _ MaTxOut.id MaTxOut.txOutId
  txIns_grow _ ha := absurd ha List.not_mem_nil

def sampleQuery : PagedQuery := ⟨.minForBlock 8, .maxForBlock 8, 10, 0⟩

theorem bounds_irrelevant_second_block :
    ⟨1, 0, 0, 0⟩ ∈ getLowBounds sampleTables 8 ∧
      ⟨i64Max, i64Max, i64Max, i64Max⟩ ∈ getHighBounds sampleTables 8 ∧
      getAssetCreates sampleTables (some (⟨1, 0, 0, 0⟩, ⟨i64Max, i64Max, i64Max, i64Max⟩)) 3
        sampleQuery = getAssetCreates sampleTables none 3 sampleQuery := by
  have hlow : ⟨1, 0, 0, 0⟩ ∈ getLowBounds sampleTables 8 := by
    decide
  have hhigh : ⟨i64Max, i64Max, i64Max, i64Max⟩ ∈ getHighBounds sampleTables 8 := by
    decide
  obtain ⟨-, -, hcreates, -⟩ := bounds_irrelevant sampleTables sampleQuery _ _ hlow hhigh
  exact ⟨hlow, hhigh, hcreates 3⟩

end MidnightNode.CNight.Sql
