import MidnightNode.Lib.KeyedList
import MidnightNode.Lib.PartitionPoint
import MidnightNode.Toolkit.BlockExtraction

/-!
# Replay of blocks for a set of wallets

The toolkit builds the state of the ledger and of its wallets by replaying the blocks of a chain
(`tx_generator/builder/mod.rs`, `ledger/helpers/src/versions/common/context.rs`). Each version of the
ledger replays its own blocks, and the context is translated between the versions. Dust events are
collected over several blocks before the wallets replay them, and wallets whose state at some height is
known join when the replay has reached that height.
-/

namespace MidnightNode.Toolkit

open Fallible KeyedList PartitionPoint MidnightNode.Runtime

/-! ## One version of the ledger -/

inductive UnshieldedSignatureScheme
  | schnorr
  | ecdsa
deriving DecidableEq, Repr

/-- The contexts of ledger 7 have no last block time. -/
structure BlockContext where
  tblock : Nat
  tblockErr : Nat
  parentBlockHash : Bytes 32
  lastBlockTime : Option Nat
deriving DecidableEq, Repr

/-- What the replay uses of a version of the ledger. A function returns `none` where the toolkit stops
because of its error. -/
structure LedgerLibrary (Seed : Type) where
  State : Type
  Shielded : Type
  Dust : Type
  Offer : Type
  Event : Type
  Cost : Type
  hasLastBlockTime : Bool
  newState : State
  newShielded : Seed → Shielded
  newDust : Seed → State → Dust
  zeroCost : Cost
  addCost : Cost → Cost → Cost
  /-- With the shielded offers that succeeded, the events and the cost. -/
  applyTx : State → BlockContext → RawTransaction → Option (State × List Offer × List Event × Cost)
  postBlockUpdate : State → BlockContext → Cost → Option State
  deserializeState : List UInt8 → Option State
  computeStateRoot : State → Option (List UInt8)
  applyOffer : Seed → Shielded → Offer → Shielded
  replayEvent : Seed → Dust → Event → Option Dust
  processTtls : Dust → Nat → Dust

section

variable {Seed : Type} (lib : LedgerLibrary Seed)

def blockContextFromRaw (block : ExtractedBlock) : BlockContext where
  tblock := block.tblockSecs
  tblockErr := 30
  parentBlockHash := block.parentBlockHash
  lastBlockTime := if lib.hasLastBlockTime then some block.lastBlockTimeSecs else none

/-- The shielded and the dust state; the unshielded wallet has keys only. -/
structure Wallet where
  shielded : lib.Shielded
  dust : lib.Dust

structure LedgerContext where
  ledgerState : lib.State
  latestBlockContext : Option BlockContext
  wallets : List (Seed × Wallet lib)

structure Output where
  offers : List lib.Offer
  events : List lib.Event

variable {lib}

def Wallet.new (seed : Seed) (ledgerState : lib.State) : Wallet lib :=
  ⟨lib.newShielded seed, lib.newDust seed ledgerState⟩

def Wallet.updateStateFromOffers (seed : Seed) (wallet : Wallet lib) (offers : List lib.Offer) :
    Wallet lib :=
  { wallet with shielded := offers.foldl (lib.applyOffer seed) wallet.shielded }

/-- The replay of events goes through them one after the other. -/
def Wallet.updateDustFromTx (seed : Seed) (wallet : Wallet lib) (events : List lib.Event) :
    Option (Wallet lib) :=
  (events.foldlM (lib.replayEvent seed) wallet.dust).map fun dust => { wallet with dust }

def Wallet.updateDustFromBlock (wallet : Wallet lib) (context : BlockContext) : Wallet lib :=
  { wallet with dust := lib.processTtls wallet.dust context.tblock }

/-! ## Blocks -/

/-- The transactions of a block, one after the other. -/
def applyTxs (context : BlockContext) :
    List RawTransaction → lib.State → lib.Cost → Option (lib.State × Output lib × lib.Cost)
  | [], state, total => some (state, ⟨[], []⟩, total)
  | tx :: txs, state, total => do
    let (state, offers, events, cost) ← lib.applyTx state context tx
    let (state, rest, total) ← applyTxs context txs state (lib.addCost total cost)
    return (state, ⟨offers ++ rest.offers, events ++ rest.events⟩, total)

/-- The root is compared where the block has one and it can be computed. -/
def verifyStateRoot (state : lib.State) (stateRoot : Option (List UInt8)) : Bool :=
  match stateRoot, lib.computeStateRoot state with
  | some expected, some actual => actual == expected
  | _, _ => true

/-- The ledger of a context after a block. A first block brings its state along. -/
def ledgerStep (state : lib.State) (block : ExtractedBlock) : Option (lib.State × Output lib) := do
  let context := blockContextFromRaw lib block
  let (state, output, total) ← applyTxs context block.transactions state lib.zeroCost
  let state ← lib.postBlockUpdate state context total
  let state ←
    match block.state with
    | none => some state
    | some bytes => lib.deserializeState bytes
  if verifyStateRoot state block.stateRoot then some (state, output) else none

namespace LedgerContext

/-- `apply_block_7`, `apply_block_8` and `apply_block_9`: with the events. -/
def applyBlock (ctx : LedgerContext lib) (block : ExtractedBlock) :
    Option (LedgerContext lib × List lib.Event) := do
  let (ledgerState, output) ← ledgerStep ctx.ledgerState block
  return ({ ledgerState
            latestBlockContext := some (blockContextFromRaw lib block)
            wallets := mapValues (fun seed w => w.updateStateFromOffers seed output.offers) ctx.wallets },
    output.events)

def updateDustFromEvents (ctx : LedgerContext lib) (events : List lib.Event) :
    Option (LedgerContext lib) :=
  (mapValuesM (fun seed w => w.updateDustFromTx seed events) ctx.wallets).map
    fun wallets => { ctx with wallets }

def updateDustFromBlock (ctx : LedgerContext lib) (context : BlockContext) : LedgerContext lib :=
  { ctx with wallets := mapValues (fun _ w => w.updateDustFromBlock context) ctx.wallets }

end LedgerContext

/-! ## Events block by block -/

/-- What a block does to a wallet. -/
def Wallet.step (seed : Seed) (wallet : Wallet lib) (output : Output lib) : Option (Wallet lib) :=
  (wallet.updateStateFromOffers seed output.offers).updateDustFromTx seed output.events

def Wallet.advance (seed : Seed) (wallet : Wallet lib) (outputs : List (Output lib)) :
    Option (Wallet lib) := outputs.foldlM (Wallet.step seed) wallet

/-- A block whose events are replayed at once. -/
def LedgerContext.step (ctx : LedgerContext lib) (block : ExtractedBlock) :
    Option (LedgerContext lib) := do
  let (ctx, events) ← ctx.applyBlock block
  ctx.updateDustFromEvents events

theorem Wallet.updateDustFromTx_append (seed : Seed) (w : Wallet lib) (events new : List lib.Event)
    (offers : List lib.Offer) :
    (w.updateStateFromOffers seed offers).updateDustFromTx seed (events ++ new) =
      (w.updateDustFromTx seed events).bind fun w => w.step seed ⟨offers, new⟩ := by
  simp only [updateDustFromTx, updateStateFromOffers, step, List.foldlM_append]
  cases events.foldlM (lib.replayEvent seed) w.dust with
  | none => rfl
  | some dust => rfl

namespace LedgerContext

@[simp] theorem updateDustFromEvents_nil (ctx : LedgerContext lib) :
    ctx.updateDustFromEvents [] = some ctx := by
  have hwallets : mapValuesM (fun seed w => Wallet.updateDustFromTx seed w []) ctx.wallets =
      some ctx.wallets := by
    refine (mapValuesM_some (fun _ w => w) ctx.wallets).trans ?_
    rw [mapValues_self (fun _ w => w) (fun _ _ => rfl)]
  rw [updateDustFromEvents, hwallets]
  rfl

/-- The wallets replay the events of earlier blocks before or together with those of a block. -/
theorem applyBlock_updateDustFromEvents (ctx : LedgerContext lib) (events : List lib.Event)
    (block : ExtractedBlock) :
    ((ctx.applyBlock block).bind fun x => x.1.updateDustFromEvents (events ++ x.2)) =
      (ctx.updateDustFromEvents events).bind fun ctx => ctx.step block := by
  simp only [applyBlock, updateDustFromEvents, step]
  cases hstep : ledgerStep ctx.ledgerState block with
  | none =>
    cases mapValuesM (fun seed w => Wallet.updateDustFromTx seed w events) ctx.wallets with
    | none => rfl
    | some wallets => simp [hstep]
  | some x =>
    obtain ⟨state, output⟩ := x
    simp only [Option.bind_eq_bind, Option.bind_some, Option.pure_def, mapValuesM_mapValues,
      Wallet.updateDustFromTx_append]
    rw [← mapValuesM_bind (fun seed w => Wallet.updateDustFromTx seed w events)]
    cases mapValuesM (fun seed w => Wallet.updateDustFromTx seed w events) ctx.wallets with
    | none => rfl
    | some wallets =>
      simp only [Option.map_some, Option.bind_some, hstep, mapValuesM_mapValues]
      rfl

end LedgerContext

/-! ## The ledger of a replay -/

section

variable {ctx ctx' : LedgerContext lib} {block : ExtractedBlock} {blocks : List ExtractedBlock}

/-- The ledger after some blocks, which does not depend on the wallets, and what the blocks have for
these. -/
def ledgerRun (state : lib.State) :
    List ExtractedBlock → Option (lib.State × List (Output lib))
  | [] => some (state, [])
  | block :: blocks => do
    let (state, output) ← ledgerStep state block
    let (state, outputs) ← ledgerRun state blocks
    return (state, output :: outputs)

/-- The outputs of the blocks above a height. -/
def outputsAfter (height : Nat) : List ExtractedBlock → List (Output lib) → List (Output lib)
  | block :: blocks, output :: outputs =>
    if height < block.number then output :: outputsAfter height blocks outputs
    else outputsAfter height blocks outputs
  | _, _ => []

theorem outputsAfter_of_forall {height : Nat} {outputs : List (Output lib)}
    (hlength : outputs.length = blocks.length) (h : ∀ block ∈ blocks, height < block.number) :
    outputsAfter height blocks outputs = outputs := by
  induction blocks generalizing outputs with
  | nil =>
    rw [List.eq_nil_of_length_eq_zero hlength]
    rfl
  | cons block blocks ih =>
    match outputs, hlength with
    | output :: outputs, hlength =>
      rw [outputsAfter, if_pos (h block List.mem_cons_self),
        ih (Nat.succ.inj hlength) fun b hb => h b (List.mem_cons_of_mem _ hb)]

theorem outputsAfter_eq_nil {height : Nat} {outputs : List (Output lib)}
    (h : ∀ block ∈ blocks, block.number ≤ height) : outputsAfter height blocks outputs = [] := by
  induction blocks generalizing outputs with
  | nil => rfl
  | cons block blocks ih =>
    cases outputs with
    | nil => rfl
    | cons output outputs =>
      rw [outputsAfter, if_neg (not_lt.mpr (h block List.mem_cons_self))]
      exact ih fun b hb => h b (List.mem_cons_of_mem _ hb)

theorem ledgerRun_length {state state' : lib.State} {outputs : List (Output lib)}
    (h : ledgerRun state blocks = some (state', outputs)) : outputs.length = blocks.length := by
  induction blocks generalizing state outputs with
  | nil =>
    cases h
    rfl
  | cons block blocks ih =>
    obtain ⟨⟨state₁, output⟩, -, h⟩ := Option.bind_eq_some_iff.mp h
    obtain ⟨⟨state₂, rest⟩, hrest, h⟩ := Option.bind_eq_some_iff.mp h
    cases h
    exact congrArg Nat.succ (ih hrest)

theorem LedgerContext.step_eq_some : ctx.step block = some ctx' ↔
    ∃ state output wallets, ledgerStep ctx.ledgerState block = some (state, output) ∧
      mapValuesM (fun seed w => w.step seed output) ctx.wallets = some wallets ∧
      ctx' = ⟨state, some (blockContextFromRaw lib block), wallets⟩ := by
  simp only [step, applyBlock, updateDustFromEvents, Option.bind_eq_bind]
  constructor
  · intro h
    obtain ⟨⟨ctx₁, events⟩, happly, h⟩ := Option.bind_eq_some_iff.mp h
    obtain ⟨⟨state, output⟩, hstep, happly⟩ := Option.bind_eq_some_iff.mp happly
    cases happly
    obtain ⟨wallets, hwallets, rfl⟩ := Option.map_eq_some_iff.mp h
    rw [mapValuesM_mapValues] at hwallets
    exact ⟨state, output, wallets, hstep, hwallets, rfl⟩
  · rintro ⟨state, output, wallets, hstep, hwallets, rfl⟩
    simp only [hstep, Option.bind_some, Option.pure_def, mapValuesM_mapValues]
    exact congrArg (Option.map _) hwallets

end

/-! ## Wallets that join -/

/-- A wallet of the cache, with the height it was saved at. -/
structure CachedWalletState (lib : LedgerLibrary Seed) where
  blockHeight : Nat
  wallet : Wallet lib

abbrev CachedWallets (lib : LedgerLibrary Seed) := List (Seed × CachedWalletState lib)

section

variable {remaining : CachedWallets lib} {block : ExtractedBlock}
  {blocks : List ExtractedBlock}

/-- The wallets that join are in order of their heights, and so are the blocks. -/
structure Mergeable (blocks : List ExtractedBlock) (remaining : CachedWallets lib) :
    Prop where
  sorted : remaining.Pairwise fun x y => x.2.blockHeight ≤ y.2.blockHeight
  nodup : (remaining.map Prod.fst).Nodup
  ascending : remaining ≠ [] → blocks.Pairwise fun b b' => b.number < b'.number

namespace Mergeable

theorem nil (blocks : List ExtractedBlock) :
    Mergeable blocks ([] : CachedWallets lib) :=
  ⟨.nil, .nil, fun h => absurd rfl h⟩

theorem split (h : Mergeable (block :: blocks) remaining) :
    remaining.take (partitionPoint (fun x => x.2.blockHeight < block.number) remaining) =
        remaining.filter (fun x => x.2.blockHeight < block.number) ∧
      remaining.drop (partitionPoint (fun x => x.2.blockHeight < block.number) remaining) =
        remaining.filter (fun x => !decide (x.2.blockHeight < block.number)) := by
  refine partitionPoint_of_pairwise h.sorted fun x y hxy hy => ?_
  rw [decide_eq_true_iff] at hy ⊢
  exact hxy.trans_lt hy

theorem filter (h : Mergeable (block :: blocks) remaining)
    (p : Seed × CachedWalletState lib → Bool) : Mergeable blocks (remaining.filter p) where
  sorted := h.sorted.filter p
  nodup := h.nodup.sublist (List.filter_sublist.map _)
  ascending hne := by
    refine (List.pairwise_cons.mp (h.ascending fun hnil => hne ?_)).2
    rw [hnil]
    rfl

theorem lt (h : Mergeable (block :: blocks) remaining) (hx : x ∈ remaining)
    (hlt : x.2.blockHeight < block.number) : ∀ b ∈ block :: blocks, x.2.blockHeight < b.number := by
  have hasc := h.ascending (List.ne_nil_of_mem hx)
  intro b hb
  rcases List.mem_cons.mp hb with rfl | hb
  · exact hlt
  · exact hlt.trans ((List.pairwise_cons.mp hasc).1 b hb)

end Mergeable

end

variable [DecidableEq Seed]

def LedgerContext.walletOf (ctx : LedgerContext lib) (seed : Seed) : Option (Wallet lib) := ctx.wallets.lookup seed

/-- The wallet is made anew, and then its states are those of the cache. -/
def injectCachedWallets (ctx : LedgerContext lib) (cached : CachedWallets lib) :
    LedgerContext lib :=
  cached.foldl (fun ctx x => { ctx with wallets := insertKey x.1 x.2.wallet ctx.wallets }) ctx

def dustBatchSize : Nat := 1000

/-! ## Replay -/

/-- The events are replayed before wallets join. -/
def injectBefore (ctx : LedgerContext lib) (events : List lib.Event)
    (cached : CachedWallets lib) (n : Nat) :
    Option (LedgerContext lib × List lib.Event) :=
  if n > 0 then do
    let ctx ← if events.isEmpty then some ctx else ctx.updateDustFromEvents events
    return (injectCachedWallets ctx (cached.take n), [])
  else some (ctx, events)

/-- The loop over the blocks, with the events that are not replayed yet and the wallets that have not
joined. -/
def replayLoop (ctx : LedgerContext lib) (events : List lib.Event)
    (remaining : CachedWallets lib) :
    List ExtractedBlock → Option (LedgerContext lib × CachedWallets lib)
  | [] => some (ctx, remaining)
  | block :: blocks => do
    let n := partitionPoint (fun x => x.2.blockHeight < block.number) remaining
    let (ctx, events) ← injectBefore ctx events remaining n
    let (ctx, new) ← ctx.applyBlock block
    let events := events ++ new
    if events.length ≥ dustBatchSize ∨ blocks = [] then do
      let ctx ← ctx.updateDustFromEvents events
      replayLoop ctx [] (remaining.drop n) blocks
    else replayLoop ctx events (remaining.drop n) blocks

/-- The replay of one version. The wallets that have not joined join at the end. -/
def replayBlocksOf (ctx : LedgerContext lib) (blocks : List ExtractedBlock)
    (cached : CachedWallets lib) : Option (LedgerContext lib) := do
  let (ctx, remaining) ← replayLoop ctx [] cached blocks
  let ctx := injectCachedWallets ctx remaining
  match blocks.getLast? with
  | none => return ctx
  | some block => return ctx.updateDustFromBlock (blockContextFromRaw lib block)

/-- The replay without batches of events. -/
def mergeLoop (ctx : LedgerContext lib) (remaining : CachedWallets lib) :
    List ExtractedBlock → Option (LedgerContext lib × CachedWallets lib)
  | [] => some (ctx, remaining)
  | block :: blocks => do
    let n := partitionPoint (fun x => x.2.blockHeight < block.number) remaining
    let ctx ← (injectCachedWallets ctx (remaining.take n)).step block
    mergeLoop ctx (remaining.drop n) blocks

section

variable {ctx ctx' : LedgerContext lib} {events : List lib.Event}
  {remaining remaining' : CachedWallets lib} {block : ExtractedBlock}
  {blocks : List ExtractedBlock}

theorem injectBefore_eq (n : Nat) : injectBefore ctx events remaining n =
    if n > 0 then (ctx.updateDustFromEvents events).map fun ctx =>
      (injectCachedWallets ctx (remaining.take n), [])
    else some (ctx, events) := by
  unfold injectBefore
  split
  case isFalse => rfl
  case isTrue =>
    cases events with
    | nil =>
      rw [LedgerContext.updateDustFromEvents_nil]
      rfl
    | cons e events =>
      simp only [List.isEmpty_cons, Bool.false_eq_true, if_false]
      cases ctx.updateDustFromEvents (e :: events) <;> rfl

/-- Batches make no difference. -/
theorem replayLoop_eq (h : blocks ≠ [] ∨ events = []) : replayLoop ctx events remaining blocks =
    (ctx.updateDustFromEvents events).bind fun ctx => mergeLoop ctx remaining blocks := by
  induction blocks generalizing ctx events remaining with
  | nil =>
    obtain rfl := h.resolve_left (fun hne => hne rfl)
    rw [LedgerContext.updateDustFromEvents_nil]
    rfl
  | cons block blocks ih =>
    have hbody (ctx : LedgerContext lib) (events : List lib.Event)
        (rest : CachedWallets lib) :
        ((ctx.applyBlock block).bind fun x =>
          if (events ++ x.2).length ≥ dustBatchSize ∨ blocks = [] then
            (x.1.updateDustFromEvents (events ++ x.2)).bind fun ctx => replayLoop ctx [] rest blocks
          else replayLoop x.1 (events ++ x.2) rest blocks) =
        (ctx.updateDustFromEvents events).bind fun ctx =>
          (ctx.step block).bind fun ctx => mergeLoop ctx rest blocks := by
      rw [← Option.bind_assoc, ← ctx.applyBlock_updateDustFromEvents, Option.bind_assoc]
      congr 1
      funext x
      split
      case isTrue => simp only [ih (.inr rfl), LedgerContext.updateDustFromEvents_nil, Option.bind_some]
      case isFalse hbatch => exact ih (.inl fun hnil => hbatch (.inr hnil))
    simp only [replayLoop, injectBefore_eq, Option.bind_eq_bind, mergeLoop]
    generalize partitionPoint _ remaining = n
    split
    case isTrue =>
      rw [Option.bind_map]
      congr 1
      funext ctx
      have hnew := hbody (injectCachedWallets ctx (remaining.take n)) [] (remaining.drop n)
      rw [LedgerContext.updateDustFromEvents_nil] at hnew
      exact hnew
    case isFalse hn =>
      obtain rfl : n = 0 := by omega
      exact hbody ctx events (remaining.drop 0)

/-! ## Joining -/

@[simp] theorem injectCachedWallets_nil (ctx : LedgerContext lib) : injectCachedWallets ctx [] = ctx := rfl

@[simp] theorem injectCachedWallets_ledgerState (ctx : LedgerContext lib)
    (cached : CachedWallets lib) :
    (injectCachedWallets ctx cached).ledgerState = ctx.ledgerState := by
  induction cached generalizing ctx with
  | nil => rfl
  | cons x cached ih => exact ih _

@[simp] theorem injectCachedWallets_latestBlockContext (ctx : LedgerContext lib)
    (cached : CachedWallets lib) :
    (injectCachedWallets ctx cached).latestBlockContext = ctx.latestBlockContext := by
  induction cached generalizing ctx with
  | nil => rfl
  | cons x cached ih => exact ih _

theorem walletOf_injectCachedWallets_of_not_mem (h : seed ∉ cached.map Prod.fst) :
    (injectCachedWallets ctx cached).walletOf seed = ctx.walletOf seed := by
  induction cached generalizing ctx with
  | nil => rfl
  | cons x cached ih =>
    rw [List.map_cons, List.mem_cons, not_or] at h
    exact (ih h.2).trans (lookup_insertKey_ne h.1 _ _)

theorem walletOf_injectCachedWallets (hnodup : (cached.map Prod.fst).Nodup) (h : (seed, c) ∈ cached) :
    (injectCachedWallets ctx cached).walletOf seed = some c.wallet := by
  induction cached generalizing ctx with
  | nil => cases h
  | cons x cached ih =>
    obtain ⟨hx, hnodup⟩ := List.nodup_cons.mp hnodup
    rcases List.mem_cons.mp h with rfl | h
    · exact (walletOf_injectCachedWallets_of_not_mem hx).trans (lookup_insertKey_self _ _ _)
    · exact ih hnodup h

theorem mem_wallets_injectCachedWallets (h : x ∈ (injectCachedWallets ctx cached).wallets) :
    x ∈ ctx.wallets ∨ ∃ c, (x.1, c) ∈ cached ∧ x.2 = c.wallet := by
  induction cached generalizing ctx with
  | nil => exact .inl h
  | cons y cached ih =>
    rcases ih h with h | ⟨c, hc, hx⟩
    · rcases List.mem_cons.mp h with rfl | h
      · exact .inr ⟨y.2, List.mem_cons_self, rfl⟩
      · exact .inl (List.mem_filter.mp h).1
    · exact .inr ⟨c, List.mem_cons_of_mem _ hc, hx⟩

/-! ## What a replay does to the wallets -/

/-- The result of a replay without the wallets that have not joined. -/
structure Merged (ctx ctx' : LedgerContext lib)
    (remaining remaining' : CachedWallets lib) (blocks : List ExtractedBlock)
    (outputs : List (Output lib)) : Prop where
  run : ledgerRun ctx.ledgerState blocks = some (ctx'.ledgerState, outputs)
  latest : ctx'.latestBlockContext =
    (blocks.getLast?.map (blockContextFromRaw lib)).or ctx.latestBlockContext
  rest : ∀ x ∈ remaining', x ∈ remaining ∧ ∀ block ∈ blocks, block.number ≤ x.2.blockHeight
  nodup : (remaining'.map Prod.fst).Nodup
  present : ∀ seed w, ctx.walletOf seed = some w → seed ∉ remaining.map Prod.fst →
    ∃ w', w.advance seed outputs = some w' ∧ ctx'.walletOf seed = some w'
  joined : ∀ seed c, (seed, c) ∈ remaining → (seed, c) ∈ remaining' ∨
    seed ∉ remaining'.map Prod.fst ∧ ∃ w',
      c.wallet.advance seed (outputsAfter c.blockHeight blocks outputs) = some w' ∧
        ctx'.walletOf seed = some w'

/-- A cached wallet joins at its height and then goes on with the others. -/
theorem mergeLoop_spec (hm : Mergeable blocks remaining)
    (h : mergeLoop ctx remaining blocks = some (ctx', remaining')) :
    ∃ outputs, Merged ctx ctx' remaining remaining' blocks outputs := by
  induction blocks generalizing ctx remaining with
  | nil =>
    cases h
    refine ⟨[], rfl, rfl, fun x hx => ⟨hx, fun b hb => nomatch hb⟩, hm.nodup, fun seed w hw _ => ?_,
      fun seed c hc => .inl hc⟩
    exact ⟨w, rfl, hw⟩
  | cons block blocks ih =>
    obtain ⟨ctx₁, hstep, h⟩ := Option.bind_eq_some_iff.mp h
    obtain ⟨htake, hdrop⟩ := hm.split
    rw [htake] at hstep
    rw [hdrop] at h
    obtain ⟨state, output, wallets, hledger, hwallets, rfl⟩ := LedgerContext.step_eq_some.mp hstep
    rw [injectCachedWallets_ledgerState] at hledger
    obtain ⟨outputs, hmerged⟩ := ih (hm.filter _) h
    have hlength := ledgerRun_length hmerged.run
    refine ⟨output :: outputs, ?_, ?_, fun x hx => ?_, hmerged.nodup, fun seed w hw hseed => ?_,
      fun seed c hc => ?_⟩
    · rw [ledgerRun, hledger]
      simp only [Option.bind_eq_bind, Option.bind_some, hmerged.run]
      rfl
    · rw [hmerged.latest]
      cases blocks with
      | nil => rfl
      | cons b blocks => rw [List.getLast?_cons_cons, List.getLast?_cons, Option.map_some]; rfl
    · obtain ⟨hmem, hrest⟩ := hmerged.rest x hx
      obtain ⟨hmem, hge⟩ := List.mem_filter.mp hmem
      refine ⟨hmem, fun b hb => ?_⟩
      rcases List.mem_cons.mp hb with rfl | hb
      · simpa using hge
      · exact hrest b hb
    · -- a wallet that is there already makes the step of this block
      have hseed₁ : seed ∉ (remaining.filter fun x => x.2.blockHeight < block.number).map Prod.fst :=
        fun hmem => hseed (List.filter_sublist.map _ |>.subset hmem)
      have hw₁ := (walletOf_injectCachedWallets_of_not_mem hseed₁).trans hw
      obtain ⟨w₁, hw₁step, hlookup⟩ := exists_lookup_mapValuesM hwallets hw₁
      obtain ⟨w', hadvance, hw'⟩ := hmerged.present seed w₁ hlookup
        fun hmem => hseed (List.filter_sublist.map _ |>.subset hmem)
      refine ⟨w', ?_, hw'⟩
      rw [Wallet.advance, List.foldlM_cons, hw₁step]
      exact hadvance
    · by_cases hlt : c.blockHeight < block.number
      · -- it joins before this block
        right
        have hmem : (seed, c) ∈ remaining.filter fun x => x.2.blockHeight < block.number :=
          List.mem_filter.mpr ⟨hc, decide_eq_true hlt⟩
        have hother : ∀ c', (seed, c') ∈ remaining → ¬ c'.blockHeight < block.number → False := by
          intro c' hc' hge
          cases List.inj_on_of_nodup_map hm.nodup hc hc' rfl
          exact hge hlt
        have hnodup₁ := hm.nodup.sublist
          (List.filter_sublist (p := fun x => x.2.blockHeight < block.number).map Prod.fst)
        have hw₁ : (injectCachedWallets ctx _).walletOf seed = some c.wallet :=
          walletOf_injectCachedWallets hnodup₁ hmem
        obtain ⟨w₁, hw₁step, hlookup⟩ := exists_lookup_mapValuesM hwallets hw₁
        have hlater : seed ∉ (remaining.filter
            fun x => !decide (x.2.blockHeight < block.number)).map Prod.fst := by
          intro hmem
          obtain ⟨⟨_, c'⟩, hc', rfl⟩ := List.mem_map.mp hmem
          obtain ⟨hc', hge⟩ := List.mem_filter.mp hc'
          exact hother c' hc' (by simpa using hge)
        obtain ⟨w', hadvance, hw'⟩ := hmerged.present seed w₁ hlookup hlater
        refine ⟨fun hmem => hlater ?_, w', ?_, hw'⟩
        · obtain ⟨x, hx, hxseed⟩ := List.mem_map.mp hmem
          exact List.mem_map.mpr ⟨x, (hmerged.rest x hx).1, hxseed⟩
        · have hlength' : (output :: outputs).length = (block :: blocks).length :=
            congrArg Nat.succ hlength
          rw [outputsAfter_of_forall hlength' (hm.lt hc hlt), Wallet.advance, List.foldlM_cons, hw₁step]
          exact hadvance
      · have hmem : (seed, c) ∈ remaining.filter
            fun x => !decide (x.2.blockHeight < block.number) := by
          exact List.mem_filter.mpr ⟨hc, by simpa using hlt⟩
        rw [outputsAfter, if_neg hlt]
        exact hmerged.joined seed c hmem

/-- The loop runs through if the ledger and every wallet do. -/
theorem exists_mergeLoop_eq (hm : Mergeable blocks remaining)
    (hrun : ledgerRun ctx.ledgerState blocks = some (state, outputs))
    (hpresent : ∀ x ∈ ctx.wallets, ∃ w', x.2.advance x.1 outputs = some w')
    (hjoined : ∀ x ∈ remaining, ∃ w',
      x.2.wallet.advance x.1 (outputsAfter x.2.blockHeight blocks outputs) = some w') :
    ∃ ctx' remaining', mergeLoop ctx remaining blocks = some (ctx', remaining') := by
  induction blocks generalizing ctx remaining outputs with
  | nil => exact ⟨ctx, remaining, rfl⟩
  | cons block blocks ih =>
    obtain ⟨⟨state₁, output⟩, hledger, hrun⟩ := Option.bind_eq_some_iff.mp hrun
    obtain ⟨⟨state₂, rest⟩, hrest, hrun⟩ := Option.bind_eq_some_iff.mp hrun
    cases hrun
    obtain ⟨htake, hdrop⟩ := hm.split
    have hlength : (output :: rest).length = (block :: blocks).length :=
      congrArg Nat.succ (ledgerRun_length hrest)
    -- every wallet that is there for this block can go on to the end
    have hall : ∀ x ∈ (injectCachedWallets ctx
        (remaining.filter fun x => x.2.blockHeight < block.number)).wallets,
        ∃ w', x.2.advance x.1 (output :: rest) = some w' := by
      intro x hx
      rcases mem_wallets_injectCachedWallets hx with hx | ⟨c, hc, hxc⟩
      · exact hpresent x hx
      · obtain ⟨hc, hlt⟩ := List.mem_filter.mp hc
        have hjoin := hjoined _ hc
        rw [outputsAfter_of_forall hlength (hm.lt hc (by simpa using hlt))] at hjoin
        rw [hxc]
        exact hjoin
    have hfirst : ∀ x ∈ (injectCachedWallets ctx
        (remaining.filter fun x => x.2.blockHeight < block.number)).wallets,
        ∃ w, x.2.step x.1 output = some w := by
      intro x hx
      obtain ⟨w', hw'⟩ := hall x hx
      obtain ⟨w, hw, -⟩ := Option.bind_eq_some_iff.mp hw'
      exact ⟨w, hw⟩
    obtain ⟨wallets, hwallets⟩ := exists_mapValuesM_eq (f := fun seed (w : Wallet lib) => w.step seed output)
      hfirst
    have hstep := LedgerContext.step_eq_some.mpr ⟨state₁, output, wallets,
      (injectCachedWallets_ledgerState ctx _).symm ▸ hledger, hwallets, rfl⟩
    have hpresent' : ∀ x ∈ wallets, ∃ w', x.2.advance x.1 rest = some w' := by
      intro x hx
      obtain ⟨y, hy, hkey, hval⟩ := mem_mapValuesM hwallets hx
      obtain ⟨w', hw'⟩ := hall y hy
      obtain ⟨w, hw, hrest'⟩ := Option.bind_eq_some_iff.mp hw'
      cases hval.symm.trans hw
      rw [hkey]
      exact ⟨w', hrest'⟩
    have hjoined' : ∀ x ∈ remaining.filter (fun x => !decide (x.2.blockHeight < block.number)), ∃ w',
        x.2.wallet.advance x.1 (outputsAfter x.2.blockHeight blocks rest) = some w' := by
      intro x hx
      obtain ⟨hx, hge⟩ := List.mem_filter.mp hx
      have hjoin := hjoined x hx
      rwa [outputsAfter, if_neg (by simpa using hge)] at hjoin
    obtain ⟨ctx', remaining', hloop⟩ := @ih ⟨state₁, some (blockContextFromRaw lib block), wallets⟩
      _ _ (hm.filter _) hrest hpresent' hjoined'
    refine ⟨ctx', remaining', ?_⟩
    rw [mergeLoop]
    simp only [htake, hdrop, hstep, Option.bind_eq_bind, Option.bind_some, hloop]

/-- What a replay leaves of a wallet: the TTLs are those of the last block. -/
def Wallet.expire (wallet : Wallet lib) (blocks : List ExtractedBlock) : Wallet lib :=
  match blocks.getLast? with
  | none => wallet
  | some block => wallet.updateDustFromBlock (blockContextFromRaw lib block)

structure Replayed (ctx ctx' : LedgerContext lib) (cached : CachedWallets lib)
    (blocks : List ExtractedBlock) (outputs : List (Output lib)) : Prop where
  run : ledgerRun ctx.ledgerState blocks = some (ctx'.ledgerState, outputs)
  latest : ctx'.latestBlockContext =
    (blocks.getLast?.map (blockContextFromRaw lib)).or ctx.latestBlockContext
  present : ∀ seed w, ctx.walletOf seed = some w → seed ∉ cached.map Prod.fst →
    ∃ w', w.advance seed outputs = some w' ∧ ctx'.walletOf seed = some (w'.expire blocks)
  joined : ∀ seed c, (seed, c) ∈ cached → ∃ w',
    c.wallet.advance seed (outputsAfter c.blockHeight blocks outputs) = some w' ∧
      ctx'.walletOf seed = some (w'.expire blocks)

theorem walletOf_updateDustFromBlock (ctx : LedgerContext lib) (context : BlockContext) (seed : Seed) :
    (ctx.updateDustFromBlock context).walletOf seed =
      (ctx.walletOf seed).map (·.updateDustFromBlock context) :=
  lookup_mapValues (fun _ (w : Wallet lib) => w.updateDustFromBlock context) seed ctx.wallets

theorem replayBlocksOf_eq (cached : CachedWallets lib) :
    replayBlocksOf ctx blocks cached = (mergeLoop ctx cached blocks).map fun x =>
      match blocks.getLast? with
      | none => injectCachedWallets x.1 x.2
      | some block =>
        (injectCachedWallets x.1 x.2).updateDustFromBlock (blockContextFromRaw lib block) := by
  rw [replayBlocksOf, replayLoop_eq (.inr rfl), LedgerContext.updateDustFromEvents_nil,
    Option.bind_some]
  cases mergeLoop ctx cached blocks with
  | none => rfl
  | some x =>
    simp only [Option.bind_eq_bind, Option.bind_some, Option.map_some]
    cases blocks.getLast? <;> rfl

theorem replayBlocksOf_spec (hm : Mergeable blocks cached)
    (h : replayBlocksOf ctx blocks cached = some ctx') :
    ∃ outputs, Replayed ctx ctx' cached blocks outputs := by
  rw [replayBlocksOf_eq] at h
  obtain ⟨⟨ctx₁, rest⟩, hloop, h⟩ := Option.map_eq_some_iff.mp h
  obtain ⟨outputs, hmerged⟩ := mergeLoop_spec hm hloop
  have hwallet : ∀ seed, ctx'.walletOf seed =
      ((injectCachedWallets ctx₁ rest).walletOf seed).map (·.expire blocks) := by
    intro seed
    cases hlast : blocks.getLast? with
    | none =>
      rw [hlast] at h
      rw [← h]
      simp [Wallet.expire, hlast]
    | some block =>
      rw [hlast] at h
      rw [← h]
      simp [Wallet.expire, hlast, walletOf_updateDustFromBlock]
  have hfields : ctx'.ledgerState = ctx₁.ledgerState ∧
      ctx'.latestBlockContext = ctx₁.latestBlockContext := by
    rw [← h]
    cases blocks.getLast? with
    | none => exact ⟨injectCachedWallets_ledgerState _ _, injectCachedWallets_latestBlockContext _ _⟩
    | some block =>
      exact ⟨injectCachedWallets_ledgerState _ _, injectCachedWallets_latestBlockContext _ _⟩
  refine ⟨outputs, ?_, ?_, fun seed w hw hseed => ?_, fun seed c hc => ?_⟩
  · rw [hfields.1]
    exact hmerged.run
  · rw [hfields.2]
    exact hmerged.latest
  · obtain ⟨w', hadvance, hw'⟩ := hmerged.present seed w hw hseed
    refine ⟨w', hadvance, ?_⟩
    have hrest : seed ∉ rest.map Prod.fst := by
      intro hmem
      obtain ⟨x, hx, hxseed⟩ := List.mem_map.mp hmem
      exact hseed (List.mem_map.mpr ⟨x, (hmerged.rest x hx).1, hxseed⟩)
    rw [hwallet, walletOf_injectCachedWallets_of_not_mem hrest, hw']
    rfl
  · rcases hmerged.joined seed c hc with hrest | ⟨hrest, w', hadvance, hw'⟩
    · refine ⟨c.wallet, ?_, ?_⟩
      · rw [outputsAfter_eq_nil (hmerged.rest _ hrest).2]
        rfl
      · rw [hwallet, walletOf_injectCachedWallets hmerged.nodup hrest]
        rfl
    · refine ⟨w', hadvance, ?_⟩
      rw [hwallet, walletOf_injectCachedWallets_of_not_mem hrest, hw']
      rfl

theorem exists_replayBlocksOf_eq (hm : Mergeable blocks cached)
    (hrun : ledgerRun ctx.ledgerState blocks = some (state, outputs))
    (hpresent : ∀ x ∈ ctx.wallets, ∃ w', x.2.advance x.1 outputs = some w')
    (hjoined : ∀ x ∈ cached, ∃ w',
      x.2.wallet.advance x.1 (outputsAfter x.2.blockHeight blocks outputs) = some w') :
    ∃ ctx', replayBlocksOf ctx blocks cached = some ctx' := by
  obtain ⟨ctx₁, rest, hloop⟩ := exists_mergeLoop_eq hm hrun hpresent hjoined
  rw [replayBlocksOf_eq, hloop]
  exact ⟨_, rfl⟩

end

end

end MidnightNode.Toolkit
