import MidnightNode.Lib.Fallible
import MidnightNode.Lib.Bytes
import MidnightNode.Lib.SortedSlice

/-!
# Observation of token bridge transfers

The database source of the token bridge (`data-sources/db-sync/src/bridge/mod.rs`). A call reads the
bridge transactions after a checkpoint and up to a referenced block, at most `max_transfers` of them,
and turns them into transfers, one or two for each transaction. It returns the checkpoint from which
the next call goes on: the last transaction it delivered when it stopped because of the limit, the
referenced block otherwise.

Positions of a chain are pairs of a block and an index in it, in lexicographic order; the rows a call
reads are a slice of the chain between two positions.
-/

namespace MidnightNode.Bridge

open SortedSlice

abbrev McTxHash := Bytes 32
abbrev McBlockHash := Bytes 32

/-- A place in the chain: a block number and an index in the block. -/
abbrev Position := ℕ ×ₗ ℕ

/-- The first position after a block. -/
def endOfBlock (n : Nat) : Position := toLex (n + 1, 0)

/-! ## The database -/

structure MainChainScripts where
  tokenPolicyId : List UInt8
  tokenAssetName : List UInt8
  illiquidCirculationSupplyValidatorAddress : List UInt8
  reserveValidatorAddress : List UInt8
deriving DecidableEq

inductive JsonValue
  | null
  | bool (b : Bool)
  | number (n : Int)
  | string (s : String)
  | array (values : List JsonValue)
  | object (fields : List (String × JsonValue))

structure TokenAmount where
  address : List UInt8
  policyId : List UInt8
  assetName : List UInt8
  quantity : Nat

structure CardanoTx where
  blockNumber : Nat
  txIx : Nat
  txHash : McTxHash
  /-- The metadata under the key of the bridge. -/
  c2mMetadata : Option JsonValue
  inputs : List TokenAmount
  outputs : List TokenAmount

def CardanoTx.position (tx : CardanoTx) : Position := toLex (tx.blockNumber, tx.txIx)

structure Block where
  hash : McBlockHash
  number : Nat
deriving DecidableEq

inductive SourceError
  | blockNotFound (hash : McBlockHash)
  | checkpointNotFound (hash : McTxHash)
  | query
  | notCached
deriving DecidableEq

/-- The database at some time, with its transactions in chain order. -/
structure CardanoDb where
  blocks : List Block
  txs : List CardanoTx
  /-- The answer of the block data source about the latest stable block. -/
  latestStable : Except SourceError (Option Nat)
  blockHashes_nodup : (blocks.map Block.hash).Nodup
  txHashes_nodup : (txs.map CardanoTx.txHash).Nodup
  sorted : txs.Pairwise fun x y => x.position < y.position
  stable_mem : ∀ n, latestStable = .ok (some n) → ∃ b ∈ blocks, b.number = n

structure BridgeTx where
  blockNumber : Nat
  txIx : Nat
  txHash : McTxHash
  c2mMetadata : Option JsonValue
  bridgeIn : Nat
  bridgeOut : Nat
  reserveIn : Nat
  reserveOut : Nat

def BridgeTx.orderingKey (tx : BridgeTx) : Position := toLex (tx.blockNumber, tx.txIx)

/-- The amount is of the bridged token and lies at the address. -/
def TokenAmount.isAt (scripts : MainChainScripts) (address : List UInt8) (a : TokenAmount) : Bool :=
  a.policyId == scripts.tokenPolicyId && a.assetName == scripts.tokenAssetName &&
    a.address == address

def sumAt (scripts : MainChainScripts) (address : List UInt8) (amounts : List TokenAmount) : Nat :=
  ((amounts.filter (·.isAt scripts address)).map TokenAmount.quantity).sum

namespace CardanoTx

/-- The transaction creates an output of the token at the illiquid supply address. -/
def isRelevant (scripts : MainChainScripts) (tx : CardanoTx) : Bool :=
  tx.outputs.any (·.isAt scripts scripts.illiquidCirculationSupplyValidatorAddress)

/-- The row of the transaction, with its totals. -/
def toBridgeTx (scripts : MainChainScripts) (tx : CardanoTx) : BridgeTx :=
  { blockNumber := tx.blockNumber
    txIx := tx.txIx
    txHash := tx.txHash
    c2mMetadata := tx.c2mMetadata
    bridgeIn := sumAt scripts scripts.illiquidCirculationSupplyValidatorAddress tx.inputs
    bridgeOut := sumAt scripts scripts.illiquidCirculationSupplyValidatorAddress tx.outputs
    reserveIn := sumAt scripts scripts.reserveValidatorAddress tx.inputs
    reserveOut := sumAt scripts scripts.reserveValidatorAddress tx.outputs }

end CardanoTx

namespace BridgeTx

def qualifies (tx : BridgeTx) : Bool :=
  decide (tx.bridgeOut > tx.bridgeIn ∨ tx.reserveIn > tx.reserveOut)

/-- The totals are 64-bit numbers, as the row type asks. -/
def fits (tx : BridgeTx) : Bool :=
  decide (tx.bridgeIn < 2 ^ 64 ∧ tx.bridgeOut < 2 ^ 64 ∧ tx.reserveIn < 2 ^ 64 ∧
    tx.reserveOut < 2 ^ 64)

end BridgeTx

/-- The bridge transactions of a configuration, in chain order. -/
def CardanoDb.bridgeTxs (db : CardanoDb) (scripts : MainChainScripts) : List BridgeTx :=
  ((db.txs.filter (·.isRelevant scripts)).map (·.toBridgeTx scripts)).filter (·.qualifies)

/-! ## Queries -/

inductive BridgeDataCheckpoint
  | tx (hash : McTxHash)
  | block (number : Nat)
deriving DecidableEq

inductive ResolvedBridgeDataCheckpoint
  | tx (blockNumber txIx : Nat)
  | block (number : Nat)
deriving DecidableEq

namespace ResolvedBridgeDataCheckpoint

def getBlockNumber : ResolvedBridgeDataCheckpoint → Nat
  | .block number => number
  | .tx blockNumber _ => blockNumber

/-- The row lies after the checkpoint. -/
def isBefore (tx : BridgeTx) : ResolvedBridgeDataCheckpoint → Bool
  | .block number => decide (tx.blockNumber > number)
  | .tx blockNumber txIx => decide (tx.orderingKey > toLex (blockNumber, txIx))

def next : ResolvedBridgeDataCheckpoint → Position
  | .block number => endOfBlock number
  | .tx blockNumber txIx => toLex (blockNumber, txIx + 1)

end ResolvedBridgeDataCheckpoint

namespace CardanoDb

def getBlockByHash (db : CardanoDb) (hash : McBlockHash) : Except SourceError Block :=
  match db.blocks.find? fun b => b.hash == hash with
  | some b => .ok b
  | none => .error (.blockNotFound hash)

/-- `get_block_info_for_tx_hash`, as a checkpoint. -/
def resolveTxHash (db : CardanoDb) (hash : McTxHash) :
    Except SourceError ResolvedBridgeDataCheckpoint :=
  match db.txs.find? fun tx => tx.txHash == hash with
  | some tx => .ok (.tx tx.blockNumber tx.txIx)
  | none => .error (.checkpointNotFound hash)

def resolve (db : CardanoDb) : BridgeDataCheckpoint →
    Except SourceError ResolvedBridgeDataCheckpoint
  | .tx hash => db.resolveTxHash hash
  | .block number => .ok (.block number)

def getBridgeTxs (db : CardanoDb) (scripts : MainChainScripts)
    (checkpoint : ResolvedBridgeDataCheckpoint) (toBlock : Nat) (maxTransfers : Option Nat) :
    Except SourceError (List BridgeTx) :=
  let rows := (db.bridgeTxs scripts).filter fun tx =>
    decide (tx.blockNumber ≤ toBlock) && checkpoint.isBefore tx
  let rows := match maxTransfers with
    | some n => rows.take n
    | none => rows
  if rows.all (·.fits) then .ok rows else .error .query

end CardanoDb

structure CardanoDb.GrowsTo (db final : CardanoDb) : Prop where
  blocks : ∃ more, final.blocks = db.blocks ++ more
  txs : ∃ more, final.txs = db.txs ++ more ∧ ∀ tx ∈ more, ∀ b ∈ db.blocks, b.number < tx.blockNumber

/-- The database as the queries of one call find it, one after the other. -/
structure Snapshots where
  block : CardanoDb
  checkpoint : CardanoDb
  stable : CardanoDb
  rows : CardanoDb
  block_grows : block.GrowsTo checkpoint
  checkpoint_grows : checkpoint.GrowsTo stable
  stable_grows : stable.GrowsTo rows

/-! ## Transfers -/

inductive TransferRecipient (R : Type)
  | address (recipient : R)
  | reserve
  | invalid
deriving DecidableEq

structure BridgeTransferV1 (R : Type) where
  mcTxHash : McTxHash
  amount : Nat
  recipient : TransferRecipient R
deriving DecidableEq

def hexDigit (c : Char) : Option Nat :=
  if '0' ≤ c ∧ c ≤ '9' then some (c.toNat - '0'.toNat)
  else if 'a' ≤ c ∧ c ≤ 'f' then some (c.toNat - 'a'.toNat + 10)
  else if 'A' ≤ c ∧ c ≤ 'F' then some (c.toNat - 'A'.toNat + 10)
  else none

/-- `hex::decode`. -/
def hexDecode : List Char → Option (List UInt8)
  | [] => some []
  | [_] => none
  | high :: low :: rest => do
    let h ← hexDigit high
    let l ← hexDigit low
    let bytes ← hexDecode rest
    pure (UInt8.ofNat (16 * h + l) :: bytes)

section

variable {R : Type} (tryFrom : List UInt8 → Option R)

/-- The recipient is a list of one text, `0x` and the address in hexadecimal. -/
def metadataToRecipient : Option JsonValue → TransferRecipient R
  | some (.array [.string s]) =>
    match s.toList with
    | '0' :: 'x' :: digits =>
      match (hexDecode digits).bind tryFrom with
      | some recipient => .address recipient
      | none => .invalid
    | _ => .invalid
  | _ => .invalid

/-- What left the reserve goes to the illiquid supply; the rest of the surplus there is a transfer of
a user. -/
def txToTransfers (tx : BridgeTx) : List (BridgeTransferV1 R) :=
  let reserveDebit := tx.reserveIn - tx.reserveOut
  let icsCredit := tx.bridgeOut - tx.bridgeIn
  let lockedAmount := icsCredit - reserveDebit
  (if reserveDebit > 0 then [⟨tx.txHash, reserveDebit, .reserve⟩] else []) ++
    if lockedAmount > 0 then
      [⟨tx.txHash, lockedAmount, metadataToRecipient tryFrom tx.c2mMetadata⟩] else []

/-- The loop of `txs_to_transfers`: a transaction is added only with all its transfers. -/
def txsToTransfersLoop (maxTransfers blockBound : Nat) :
    List (BridgeTransferV1 R) → BridgeDataCheckpoint → List BridgeTx →
      List (BridgeTransferV1 R) × BridgeDataCheckpoint
  | transfers, checkpoint, [] =>
    (transfers, if transfers.length = maxTransfers then checkpoint else .block blockBound)
  | transfers, checkpoint, tx :: txs =>
    let txTransfers := txToTransfers tryFrom tx
    if transfers.length + txTransfers.length > maxTransfers then (transfers, checkpoint)
    else txsToTransfersLoop maxTransfers blockBound (transfers ++ txTransfers) (.tx tx.txHash) txs

def txsToTransfers (txs : List BridgeTx) (maxTransfers blockBound : Nat) :
    List (BridgeTransferV1 R) × BridgeDataCheckpoint :=
  txsToTransfersLoop tryFrom maxTransfers blockBound [] (.block blockBound) txs

structure Query where
  mainChainScripts : MainChainScripts
  dataCheckpoint : BridgeDataCheckpoint
  maxTransfers : Nat
  currentMcBlockHash : McBlockHash

def getTransfers (s : Snapshots) (q : Query) :
    Except SourceError (List (BridgeTransferV1 R) × BridgeDataCheckpoint) := do
  let currentMcBlock ← s.block.getBlockByHash q.currentMcBlockHash
  let dataCheckpoint ← s.checkpoint.resolve q.dataCheckpoint
  let txs ← s.rows.getBridgeTxs q.mainChainScripts dataCheckpoint currentMcBlock.number
    (some q.maxTransfers)
  pure (txsToTransfers tryFrom txs q.maxTransfers currentMcBlock.number)

end

/-! ## Positions -/

@[simp] theorem lt_endOfBlock {tx : BridgeTx} : tx.orderingKey < endOfBlock n ↔ tx.blockNumber ≤ n := by
  simp only [BridgeTx.orderingKey, endOfBlock, Prod.Lex.toLex_lt_toLex]
  omega

theorem endOfBlock_le_endOfBlock : endOfBlock m ≤ endOfBlock n ↔ m ≤ n := by
  simp only [endOfBlock, Prod.Lex.toLex_le_toLex]
  omega

@[simp] theorem isBefore_iff {checkpoint : ResolvedBridgeDataCheckpoint} :
    checkpoint.isBefore tx = true ↔ checkpoint.next ≤ tx.orderingKey := by
  cases checkpoint with
  | block number =>
    simp only [ResolvedBridgeDataCheckpoint.isBefore, ResolvedBridgeDataCheckpoint.next, endOfBlock,
      BridgeTx.orderingKey, Prod.Lex.toLex_le_toLex, decide_eq_true_eq]
    omega
  | tx blockNumber txIx =>
    simp only [ResolvedBridgeDataCheckpoint.isBefore, ResolvedBridgeDataCheckpoint.next,
      BridgeTx.orderingKey, gt_iff_lt, Prod.Lex.toLex_le_toLex, Prod.Lex.toLex_lt_toLex,
      decide_eq_true_eq]
    omega

theorem lt_next_tx {x tx : BridgeTx} :
    x.orderingKey < (ResolvedBridgeDataCheckpoint.tx tx.blockNumber tx.txIx).next ↔
      x.orderingKey ≤ tx.orderingKey := by
  simp only [ResolvedBridgeDataCheckpoint.next, BridgeTx.orderingKey, Prod.Lex.toLex_le_toLex,
    Prod.Lex.toLex_lt_toLex]
  omega

namespace CardanoDb

variable {db mid final : CardanoDb} {scripts : MainChainScripts}

theorem bridgeTxs_pairwise (db : CardanoDb) (scripts : MainChainScripts) :
    (db.bridgeTxs scripts).Pairwise fun x y => x.orderingKey < y.orderingKey := by
  refine List.Pairwise.filter _ (List.pairwise_map.mpr ?_)
  exact db.sorted.filter _

theorem bridgeTxs_sorted (db : CardanoDb) (scripts : MainChainScripts) :
    SortedBy BridgeTx.orderingKey (db.bridgeTxs scripts) :=
  (db.bridgeTxs_pairwise scripts).imp le_of_lt

theorem mem_bridgeTxs (h : x ∈ db.bridgeTxs scripts) :
    x.qualifies = true ∧ ∃ tx ∈ db.txs, tx.toBridgeTx scripts = x := by
  obtain ⟨h, hq⟩ := List.mem_filter.mp h
  obtain ⟨tx, htx, rfl⟩ := List.mem_map.mp h
  exact ⟨hq, tx, (List.mem_filter.mp htx).1, rfl⟩

theorem find?_eq_some_of_nodup {α β : Type} [DecidableEq β] {f : α → β} {l : List α} {x : α}
    (h : (l.map f).Nodup) (hx : x ∈ l) : l.find? (fun y => f y == f x) = some x := by
  have hsome : (l.find? fun y => f y == f x).isSome := by
    rw [List.find?_isSome]
    exact ⟨x, hx, beq_self_eq_true _⟩
  obtain ⟨y, hy⟩ := Option.isSome_iff_exists.mp hsome
  have hf : f y = f x := by simpa using List.find?_some hy
  rw [hy, List.inj_on_of_nodup_map h (List.mem_of_find?_eq_some hy) hx hf]

theorem resolveTxHash_of_mem {x : BridgeTx} (h : x ∈ db.bridgeTxs scripts) :
    db.resolveTxHash x.txHash = .ok (.tx x.blockNumber x.txIx) := by
  obtain ⟨-, tx, htx, rfl⟩ := mem_bridgeTxs h
  have hfind := find?_eq_some_of_nodup db.txHashes_nodup htx
  simp only [resolveTxHash, CardanoTx.toBridgeTx, hfind]

theorem getBlockByHash_inv {hash : McBlockHash} (h : db.getBlockByHash hash = .ok b) :
    db.blocks.find? (fun b => b.hash == hash) = some b := by
  unfold getBlockByHash at h
  split at h
  · cases h
    assumption
  · cases h

theorem resolveTxHash_inv {hash : McTxHash} (h : db.resolveTxHash hash = .ok checkpoint) :
    ∃ tx, db.txs.find? (fun tx => tx.txHash == hash) = some tx ∧
      checkpoint = .tx tx.blockNumber tx.txIx := by
  unfold resolveTxHash at h
  split at h
  case h_1 tx htx =>
    cases h
    exact ⟨tx, htx, rfl⟩
  case h_2 => cases h

theorem GrowsTo.refl (db : CardanoDb) : db.GrowsTo db :=
  ⟨⟨[], (List.append_nil _).symm⟩, [], (List.append_nil _).symm, by rintro tx ⟨⟩⟩

theorem GrowsTo.trans (h : db.GrowsTo mid) (h' : mid.GrowsTo final) : db.GrowsTo final := by
  obtain ⟨⟨bs, hbs⟩, ts, hts, hlt⟩ := h
  obtain ⟨⟨bs', hbs'⟩, ts', hts', hlt'⟩ := h'
  refine ⟨⟨bs ++ bs', by rw [hbs', hbs, List.append_assoc]⟩, ts ++ ts',
    by rw [hts', hts, List.append_assoc], ?_⟩
  intro tx htx b hb
  rcases List.mem_append.mp htx with htx | htx
  · exact hlt tx htx b hb
  · exact hlt' tx htx b (hbs ▸ List.mem_append_left bs hb)

theorem GrowsTo.mem_blocks (h : db.GrowsTo final) (hb : b ∈ db.blocks) : b ∈ final.blocks := by
  obtain ⟨more, hmore⟩ := h.blocks
  rw [hmore]
  exact List.mem_append_left more hb

theorem GrowsTo.getBlockByHash (h : db.GrowsTo final) {hash : McBlockHash}
    (hb : db.getBlockByHash hash = .ok b) : final.getBlockByHash hash = .ok b := by
  obtain ⟨more, hmore⟩ := h.blocks
  rw [CardanoDb.getBlockByHash, hmore, List.find?_append, getBlockByHash_inv hb]
  rfl

theorem GrowsTo.resolve (h : db.GrowsTo final) (hr : db.resolve checkpoint = .ok resolved) :
    final.resolve checkpoint = .ok resolved := by
  cases checkpoint with
  | block number => exact hr
  | tx hash =>
    obtain ⟨tx, htx, rfl⟩ := resolveTxHash_inv hr
    obtain ⟨more, hmore, -⟩ := h.txs
    rw [CardanoDb.resolve, resolveTxHash, hmore, List.find?_append, htx]
    rfl

theorem GrowsTo.bridgeTxs (h : db.GrowsTo final) (scripts : MainChainScripts) :
    ∃ more, final.bridgeTxs scripts = db.bridgeTxs scripts ++ more ∧
      ∀ tx ∈ more, ∀ b ∈ db.blocks, b.number < tx.blockNumber := by
  obtain ⟨more, hmore, hlt⟩ := h.txs
  refine ⟨((more.filter (·.isRelevant scripts)).map (·.toBridgeTx scripts)).filter (·.qualifies),
    ?_, ?_⟩
  · simp only [CardanoDb.bridgeTxs, hmore, List.filter_append, List.map_append]
  · intro x hx b hb
    obtain ⟨tx, htx, rfl⟩ := List.mem_map.mp (List.mem_filter.mp hx).1
    exact hlt tx (List.mem_filter.mp htx).1 b hb

theorem GrowsTo.mem_bridgeTxs (h : db.GrowsTo final) (htx : tx ∈ db.bridgeTxs scripts) :
    tx ∈ final.bridgeTxs scripts := by
  obtain ⟨more, hmore, -⟩ := h.bridgeTxs scripts
  rw [hmore]
  exact List.mem_append_left more htx

/-- Up to a block the database knows, it has all bridge transactions there will ever be. -/
theorem GrowsTo.slice_bridgeTxs (h : db.GrowsTo final) {n : Nat}
    (hn : ∃ b ∈ db.blocks, n ≤ b.number) (scripts : MainChainScripts) (a : Position) :
    slice BridgeTx.orderingKey a (endOfBlock n) (db.bridgeTxs scripts) =
      slice BridgeTx.orderingKey a (endOfBlock n) (final.bridgeTxs scripts) := by
  obtain ⟨b, hb, hle⟩ := hn
  obtain ⟨more, hmore, hlt⟩ := h.bridgeTxs scripts
  rw [hmore, slice_append]
  refine (List.append_right_eq_self.mpr (slice_eq_nil_iff.mpr ?_)).symm
  intro x hx _
  have hblock := hlt x hx b hb
  refine not_lt.mp fun hkey => ?_
  have hle' := lt_endOfBlock.mp hkey
  omega

theorem getBridgeTxs_inv (h : db.getBridgeTxs scripts checkpoint toBlock maxTransfers = .ok rows) :
    rows = match maxTransfers with
      | some n => (slice BridgeTx.orderingKey checkpoint.next (endOfBlock toBlock)
          (db.bridgeTxs scripts)).take n
      | none => slice BridgeTx.orderingKey checkpoint.next (endOfBlock toBlock)
          (db.bridgeTxs scripts) := by
  have hslice : ((db.bridgeTxs scripts).filter fun tx =>
      decide (tx.blockNumber ≤ toBlock) && checkpoint.isBefore tx) =
      slice BridgeTx.orderingKey checkpoint.next (endOfBlock toBlock) (db.bridgeTxs scripts) := by
    refine List.filter_congr fun tx _ => ?_
    rw [Bool.eq_iff_iff, Bool.and_eq_true, isBefore_iff, decide_eq_true_eq, decide_eq_true_eq,
      lt_endOfBlock, and_comm]
  have hok {xs : List BridgeTx}
      (h : (if xs.all (·.fits) then .ok xs else .error .query) = Except.ok (ε := SourceError) rows) :
      rows = xs := by
    obtain ⟨_, h⟩ := Fallible.of_condition h
    exact (Except.ok.inj h).symm
  unfold getBridgeTxs at h
  simp only [hslice] at h
  cases maxTransfers with
  | some n => exact hok h
  | none => exact hok h

end CardanoDb

/-! ## One call -/

section

variable {R : Type} {tryFrom : List UInt8 → Option R} {final : CardanoDb}

theorem Snapshots.block_grows_rows (s : Snapshots) : s.block.GrowsTo s.rows :=
  s.block_grows.trans (s.checkpoint_grows.trans s.stable_grows)

theorem Snapshots.checkpoint_grows_rows (s : Snapshots) : s.checkpoint.GrowsTo s.rows :=
  s.checkpoint_grows.trans s.stable_grows

theorem CardanoDb.mem_of_getBlockByHash {db : CardanoDb} {hash : McBlockHash}
    (h : db.getBlockByHash hash = .ok b) : b ∈ db.blocks :=
  List.mem_of_find?_eq_some (getBlockByHash_inv h)

/-- A call answers from the final database: later blocks do not change what it returns. -/
theorem getTransfers_inv (hs : s.rows.GrowsTo final) (h : getTransfers tryFrom s q = .ok result) :
    ∃ b start, final.getBlockByHash q.currentMcBlockHash = .ok b ∧
      final.resolve q.dataCheckpoint = .ok start ∧
      result = txsToTransfers tryFrom ((slice BridgeTx.orderingKey start.next (endOfBlock b.number)
        (final.bridgeTxs q.mainChainScripts)).take q.maxTransfers) q.maxTransfers b.number := by
  unfold getTransfers at h
  obtain ⟨b, hb, h⟩ := Fallible.of_bind h
  obtain ⟨start, hc, h⟩ := Fallible.of_bind h
  obtain ⟨rows, hr, h⟩ := Fallible.of_bind h
  cases h
  have hmem : b ∈ s.rows.blocks := s.block_grows_rows.mem_blocks (CardanoDb.mem_of_getBlockByHash hb)
  have hrows : rows = (slice BridgeTx.orderingKey start.next (endOfBlock b.number)
      (s.rows.bridgeTxs q.mainChainScripts)).take q.maxTransfers :=
    CardanoDb.getBridgeTxs_inv hr
  refine ⟨b, start, (s.block_grows_rows.trans hs).getBlockByHash hb,
    (s.checkpoint_grows_rows.trans hs).resolve hc, ?_⟩
  rw [hrows, hs.slice_bridgeTxs ⟨b, hmem, le_rfl⟩]

end

/-- The supply lies at address `[1]`, the reserve at address `[2]`. -/
def sampleScripts : MainChainScripts := ⟨[], [], [1], [2]⟩

/-- A transaction that moves amounts from the reserve and from users to the supply. -/
def sampleTx (block ix : Nat) (hash : UInt8) (fromReserve fromUser : Nat) : CardanoTx :=
  { blockNumber := block, txIx := ix, txHash := .fill 32 hash, c2mMetadata := none
    inputs := [⟨[2], [], [], fromReserve⟩], outputs := [⟨[1], [], [], fromReserve + fromUser⟩] }

/-- Three transactions in two blocks; the second has two transfers. -/
def sampleDb : CardanoDb :=
  { blocks := [⟨.fill 32 1, 1⟩, ⟨.fill 32 2, 2⟩]
    txs := [sampleTx 1 0 11 0 5, sampleTx 1 1 12 3 4, sampleTx 2 0 13 0 6]
    latestStable := .ok (some 2)
    blockHashes_nodup := by decide
    txHashes_nodup := by decide
    sorted := by decide
    stable_mem := by
      intro n hn
      cases hn
      exact ⟨⟨.fill 32 2, 2⟩, by decide, rfl⟩ }

def sampleSnapshots : Snapshots :=
  ⟨sampleDb, sampleDb, sampleDb, sampleDb, .refl _, .refl _, .refl _⟩

/-- No address is valid. -/
def sampleTryFrom : List UInt8 → Option Unit := fun _ => none

end MidnightNode.Bridge
