import MidnightNode.Ledger.BlockLimits
import MidnightNode.Lib.Fallible

/-!
# The generator of a genesis state

`GenesisGenerator::new` fills the three pools from the configured totals, funds wallets if seeds are given,
applies the cNIGHT system transaction and closes the block. The ledger's types and operations are parameters
(`LedgerTypes`, `LedgerCrate`); of its states the parts are modelled that generator and verifier read.
-/

namespace MidnightNode.Genesis

open Fallible
open Ledger (SyntheticCost NormalizedCost)

/-! ## Ledger states -/

structure TimeFilterMap (Root : Type) where
  entries : List (Nat × Root)

namespace TimeFilterMap

variable {Root : Type}

def empty : TimeFilterMap Root := ⟨[]⟩

def insert (m : TimeFilterMap Root) (time : Nat) (root : Root) : TimeFilterMap Root :=
  ⟨(time, root) :: m.entries⟩

def get (m : TimeFilterMap Root) (time : Nat) : Option Root :=
  ((m.entries.filter (·.1 ≤ time)).argmax Prod.fst).map Prod.snd

end TimeFilterMap

inductive TokenType
  | unshielded (id : Bytes 32)
  | shielded (id : Bytes 32)
  | dust
deriving DecidableEq

/-- `TokenType::Unshielded(NIGHT)` -/
def TokenType.night : TokenType := .unshielded (.fill 32 0)

structure FeePrices where
  overallPrice : Int
  readFactor : Int
  computeFactor : Int
  blockUsageFactor : Int
  writeFactor : Int
deriving DecidableEq

structure LedgerTypes where
  Limits : Type
  DustParameters : Type
  CostModel : Type
  /-- The parameters that are neither compared nor changed here. -/
  OtherParameters : Type
  Root : Type
  Delegation : Type
  /-- The rest of a dust state. -/
  DustRest : Type
  /-- Hashes of dust states, without collisions. -/
  DustHash : Type
  Nullifier : Type
  /-- The rest of a zswap state. -/
  ZswapRest : Type
  Utxo : Type
  Contract : Type
  Address : Type
  /-- The rest of a ledger state: replay protection, amounts received over the bridge. -/
  StateRest : Type
  CNightEvent : Type
  Nonce : Type
  StandardTransaction : Type

variable (T : LedgerTypes)

structure LedgerParameters where
  limits : T.Limits
  dust : T.DustParameters
  costModel : T.CostModel
  feePrices : FeePrices
  globalTtl : Nat
  cardanoToMidnightBridgeFeeBasisPoints : Nat
  cToMBridgeMinAmount : Nat
  other : T.OtherParameters

structure DustState where
  addressDelegation : List T.Delegation
  generatingTreeFirstFree : Nat
  utxoRootHistory : TimeFilterMap T.Root
  generationRootHistory : TimeFilterMap T.Root
  rest : T.DustRest

structure ZswapState where
  nullifiers : List T.Nullifier
  pastRoots : TimeFilterMap T.Root
  rest : T.ZswapRest

structure LedgerState where
  networkId : String
  parameters : LedgerParameters T
  lockedPool : Nat
  reservePool : Nat
  blockRewardPool : Nat
  treasury : List (TokenType × Nat)
  unclaimedBlockRewards : List (T.Address × Nat)
  zswap : ZswapState T
  utxos : List T.Utxo
  contract : List T.Contract
  dust : DustState T
  rest : T.StateRest

inductive ClaimKind
  | reward
  | cardanoBridge
deriving DecidableEq

structure OutputInstructionUnshielded where
  amount : Nat
  targetAddress : T.Address
  nonce : T.Nonce

inductive SystemTransaction
  | overwriteParameters (parameters : LedgerParameters T)
  | distributeNight (kind : ClaimKind) (instructions : List (OutputInstructionUnshielded T))
  | distributeReserve (amount : Nat)
  | cNightGeneratesDustUpdate (events : List T.CNightEvent)

inductive TransactionResult
  | success
  | partialSuccess (failures : String)
  | failure (failures : String)

structure BlockContext where
  tblock : Nat
  tblockErr : Nat
  parentBlockHash : Bytes 32
  lastBlockTime : Nat
deriving DecidableEq

structure FundingArgs where
  shieldedMintAmount : Nat
  shieldedNumFundingOutputs : Nat
  shieldedAltTokenTypes : List (Bytes 32)
  unshieldedMintAmount : Nat
  unshieldedNumFundingOutputs : Nat
  unshieldedAltTokenTypes : List (Bytes 32)

/-- The operations of the ledger. An error is its text. -/
structure LedgerCrate where
  initialParameters : LedgerParameters T
  /-- An empty ledger. -/
  new : String → LedgerState T
  withGenesisSettings : String → LedgerParameters T → Nat → Nat → Nat → Except String (LedgerState T)
  applySystemTx : LedgerState T → SystemTransaction T → Nat → Except String (LedgerState T)
  systemCost : SystemTransaction T → LedgerParameters T → SyntheticCost
  wellFormed : T.StandardTransaction → LedgerState T → (enforceBalancing : Bool) → Nat → Except String Unit
  cost : T.StandardTransaction → LedgerParameters T → Except String SyntheticCost
  apply : LedgerState T → T.StandardTransaction → BlockContext → LedgerState T × TransactionResult
  addCost : SyntheticCost → SyntheticCost → SyntheticCost
  blockLimits : T.Limits → SyntheticCost
  normalize : SyntheticCost → SyntheticCost → Option NormalizedCost
  postBlockUpdate : LedgerState T → Nat → NormalizedCost → Int → Except String (LedgerState T)
  serializeSystem : SystemTransaction T → Except String (List UInt8)
  serializeStandard : T.StandardTransaction → Except String (List UInt8)
  systemHash : SystemTransaction T → Bytes 32
  standardHash : T.StandardTransaction → Bytes 32
  /-- The NIGHT in the annotation of the UTXOs and of the contracts. -/
  utxoNight : T.Utxo → Nat
  contractNight : T.Contract → Nat
  dustHash : DustState T → T.DustHash

structure WalletCrate where
  WalletSeed : Type
  Wallet : Type
  Rng : Type
  wallet : WalletSeed → LedgerState T → Wallet
  userAddress : Wallet → T.Address
  fromSeed : Bytes 32 → Rng
  genNonce : Rng → T.Nonce × Rng
  /-- The proven transaction of `register_dust_addresses`. -/
  registerDustTx : LedgerState T → String → Option String → FundingArgs → List Wallet → Nat → Rng →
    T.StandardTransaction × Rng
  /-- `build_claim_rewards_tx` -/
  claimRewardsTx : LedgerState T → Wallet → Nat → Rng → T.StandardTransaction × Rng

/-! ## The generator -/

inductive GenesisGeneratorError
  | genesisSystemValidation (error : String)
  | genesisValidation (error : String)
  | txPartialSuccess (failures : String)
  | txFailed (failures : String)
  | feeCalculationError (error : String)
  | blockLimitExceeded (error : String)
  | serializationError (error : String)
  | invalidPoolsAmounts (message : String)
  /-- A panic: a cost that does not normalize. -/
  | panic
deriving DecidableEq

inductive RawTransaction
  | midnight (bytes : List UInt8)
  | system (bytes : List UInt8)
deriving DecidableEq

structure SerializedTx where
  tx : RawTransaction
  context : BlockContext
  txHash : Bytes 32
deriving DecidableEq

/-- `txs` is the one batch of transactions. -/
structure GenesisGenerator where
  state : LedgerState T
  txs : List SerializedTx
  fullness : SyntheticCost

def maxSupply : Nat := 24000000000 * 1000000

/-- `GLACIER_DROP_START_UNIX_EPOC` -/
def beginning : Nat := 1754395200

def checkedMul (a b : Nat) : Option Nat := if a * b < 2 ^ 128 then some (a * b) else none

def checkedAdd (a b : Nat) : Option Nat := if a + b < 2 ^ 128 then some (a + b) else none

def checkedSub (a b : Nat) : Option Nat := if b ≤ a then some (a - b) else none

variable {T} (crate : LedgerCrate T) (wallets : WalletCrate T)

/-- The arguments of `GenesisGenerator::new`. Of the two observed configurations only the totals are read. -/
structure GenesisConfig where
  seed : Bytes 32
  networkId : String
  proofServer : Option String
  funding : FundingArgs
  seeds : Option (List wallets.WalletSeed)
  cnightSystemTx : Option (SystemTransaction T)
  icsTotalAmount : Option Nat
  reserveTotalAmount : Option Nat
  ledgerParameters : Option (LedgerParameters T)
  genesisTimestamp : Option Nat
  allowEmptyPools : Bool

namespace GenesisGenerator

def applySystemTx (me : GenesisGenerator T) (tx : SystemTransaction T) (ctx : BlockContext) :
    Except GenesisGeneratorError (GenesisGenerator T) := do
  let fullness := crate.addCost me.fullness (crate.systemCost tx me.state.parameters)
  let state ← (crate.applySystemTx me.state tx ctx.tblock).mapError .genesisSystemValidation
  let bytes ← (crate.serializeSystem tx).mapError .serializationError
  return ⟨state, me.txs ++ [⟨.system bytes, ctx, crate.systemHash tx⟩], fullness⟩

/-- The first block has no parent, and its transactions need not be balanced. -/
def applyStandardTx (me : GenesisGenerator T) (tx : T.StandardTransaction) (ctx : BlockContext) :
    Except GenesisGeneratorError (GenesisGenerator T) := do
  let enforceBalancing := ctx.parentBlockHash ≠ .fill 32 0
  (crate.wellFormed tx me.state enforceBalancing ctx.tblock).mapError .genesisValidation
  let cost ← (crate.cost tx me.state.parameters).mapError .feeCalculationError
  match crate.apply me.state tx ctx with
  | (state, .success) => do
    let bytes ← (crate.serializeStandard tx).mapError .serializationError
    return ⟨state, me.txs ++ [⟨.midnight bytes, ctx, crate.standardHash tx⟩],
      crate.addCost me.fullness cost⟩
  | (_, .partialSuccess failures) => .error (.txPartialSuccess failures)
  | (_, .failure failures) => .error (.txFailed failures)

/-- Every wallet as often as it gets an output. -/
def outputs (funding : FundingArgs) (ws : List wallets.Wallet) : List wallets.Wallet :=
  ws.flatMap fun w => List.replicate funding.unshieldedNumFundingOutputs w

def distributeNight (me : GenesisGenerator T) (ctx : BlockContext) (funding : FundingArgs)
    (ws : List wallets.Wallet) (rng : wallets.Rng) :
    Except GenesisGeneratorError (GenesisGenerator T × wallets.Rng) := do
  let amount := funding.unshieldedMintAmount * funding.unshieldedNumFundingOutputs * ws.length
  let me ← me.applySystemTx crate (.distributeReserve amount) ctx
  let (instructions, rng) := (outputs wallets funding ws).foldl
    (fun (instructions, rng) w =>
      let (nonce, rng) := wallets.genNonce rng
      (instructions ++ [⟨funding.unshieldedMintAmount, wallets.userAddress w, nonce⟩], rng))
    ([], rng)
  let me ← me.applySystemTx crate (.distributeNight .reward instructions) ctx
  return (me, rng)

def setParameters (me : GenesisGenerator T) (parameters : LedgerParameters T) (ctx : BlockContext) :
    Except GenesisGeneratorError (GenesisGenerator T) :=
  me.applySystemTx crate (.overwriteParameters parameters) ctx

def registerDustAddresses (me : GenesisGenerator T) (ctx : BlockContext) (cfg : GenesisConfig wallets)
    (ws : List wallets.Wallet) (rng : wallets.Rng) :
    Except GenesisGeneratorError (GenesisGenerator T × wallets.Rng) := do
  let (tx, rng) := wallets.registerDustTx me.state cfg.networkId cfg.proofServer cfg.funding ws ctx.tblock rng
  let me ← me.applyStandardTx crate tx ctx
  return (me, rng)

def claimRewards (me : GenesisGenerator T) (ctx : BlockContext) (funding : FundingArgs)
    (ws : List wallets.Wallet) (rng : wallets.Rng) :
    Except GenesisGeneratorError (GenesisGenerator T × wallets.Rng) :=
  (outputs wallets funding ws).foldlM
    (fun (me, rng) w => do
      let (tx, rng) := wallets.claimRewardsTx me.state w funding.unshieldedMintAmount rng
      let me ← me.applyStandardTx crate tx ctx
      return (me, rng))
    (me, rng)

/-- The unit of fixed-point numbers. -/
def fixedPointOne : Int := 2 ^ 64

def withoutFees (params : LedgerParameters T) : LedgerParameters T :=
  { params with feePrices := ⟨0, fixedPointOne, fixedPointOne, fixedPointOne, fixedPointOne⟩ }

/-- The part of `init` for wallets: NIGHT as rewards, claimed while there are no fees. -/
def fundWallets (me : GenesisGenerator T) (ctx : BlockContext) (cfg : GenesisConfig wallets)
    (originalParameters : LedgerParameters T) (ws : List wallets.Wallet) :
    Except GenesisGeneratorError (GenesisGenerator T) := do
  let (me, rng) ← me.distributeNight crate wallets ctx cfg.funding ws (wallets.fromSeed cfg.seed)
  let me ← me.setParameters crate (withoutFees originalParameters) ctx
  let (me, rng) ← me.registerDustAddresses crate wallets ctx cfg ws rng
  let (me, _) ← me.claimRewards crate wallets ctx cfg.funding ws rng
  me.setParameters crate originalParameters ctx

def clampAndNormalize (cost limits : SyntheticCost) : Except GenesisGeneratorError NormalizedCost :=
  okOr .panic (crate.normalize (cost.clamp limits) limits)

def blockContext (cfg : GenesisConfig wallets) : BlockContext :=
  let beginning := cfg.genesisTimestamp.getD beginning
  ⟨beginning, 30, .fill 32 0, beginning⟩

/-- The part of `init` for the cNIGHT system transaction. -/
def applyCNight (me : GenesisGenerator T) (ctx : BlockContext) :
    Option (SystemTransaction T) → Except GenesisGeneratorError (GenesisGenerator T)
  | some tx => me.applySystemTx crate tx ctx
  | none => .ok me

/-- The end of `init`. -/
def closeBlock (me : GenesisGenerator T) (ctx : BlockContext) :
    Except GenesisGeneratorError (GenesisGenerator T) := do
  let normalized ← clampAndNormalize crate me.fullness (crate.blockLimits me.state.parameters.limits)
  let state ← (crate.postBlockUpdate me.state ctx.tblock normalized
    (Ledger.computeOverallFullness normalized)).mapError .blockLimitExceeded
  return { me with state }

def init (me : GenesisGenerator T) (cfg : GenesisConfig wallets) (originalParameters : LedgerParameters T) :
    Except GenesisGeneratorError (GenesisGenerator T) := do
  let ws := (cfg.seeds.getD []).map fun seed => wallets.wallet seed me.state
  let ctx := blockContext wallets cfg
  let me ← if ws.isEmpty then .ok me else me.fundWallets crate wallets ctx cfg originalParameters ws
  let me ← me.applyCNight crate ctx cfg.cnightSystemTx
  me.closeBlock crate ctx

/-- The three pools: locked, reserve with what the seeds are funded from, treasury. -/
def pools (cfg : GenesisConfig wallets) : Except GenesisGeneratorError (Nat × Nat × Nat) :=
  let treasury := cfg.icsTotalAmount.getD 0
  let reservePool := cfg.reserveTotalAmount.getD 0
  if treasury = 0 ∧ !cfg.allowEmptyPools then .error (.invalidPoolsAmounts "Treasury is empty")
  else if reservePool = 0 ∧ !cfg.allowEmptyPools then .error (.invalidPoolsAmounts "Reserve is empty")
  else do
    let fundedSeedsAmount ← okOr (.invalidPoolsAmounts "Pool for funded seeds exceeds u128")
      ((checkedMul cfg.funding.unshieldedMintAmount cfg.funding.unshieldedNumFundingOutputs).bind
        (checkedMul · (cfg.seeds.getD []).length))
    let reservePlusFundedSeeds ←
      okOr (.invalidPoolsAmounts "Reserve Pool plus pool for funded seeds exceeds u128")
        (checkedAdd reservePool fundedSeedsAmount)
    let lockedPool ← okOr (.invalidPoolsAmounts "Tresury and Reserve exceed MAX_SUPPLY")
      ((checkedSub maxSupply reservePlusFundedSeeds).bind (checkedSub · treasury))
    if lockedPool = 0 ∧ !cfg.allowEmptyPools then .error (.invalidPoolsAmounts "Locked is empty")
    else .ok (lockedPool, reservePlusFundedSeeds, treasury)

def new (cfg : GenesisConfig wallets) : Except GenesisGeneratorError (GenesisGenerator T) := do
  let (lockedPool, reservePlusFundedSeeds, treasury) ← pools wallets cfg
  let originalParameters := cfg.ledgerParameters.getD crate.initialParameters
  let state ← (crate.withGenesisSettings cfg.networkId originalParameters lockedPool reservePlusFundedSeeds
    treasury).mapError .genesisSystemValidation
  init crate wallets ⟨state, [], .zero⟩ cfg originalParameters

end GenesisGenerator

/-! ## What is known of the ledger -/

/-- The ledger as documented: which parts of a state its operations change. -/
structure LedgerCrate.Lawful (crate : LedgerCrate T) : Prop where
  new_dust : ∀ networkId, (crate.new networkId).dust.utxoRootHistory = .empty ∧
    (crate.new networkId).dust.generationRootHistory = .empty
  /-- The pools are filled as given, the rest is empty. -/
  withGenesisSettings : ∀ {networkId parameters locked reserve treasury s},
    crate.withGenesisSettings networkId parameters locked reserve treasury = .ok s →
    s.parameters = parameters ∧ s.lockedPool = locked ∧ s.reservePool = reserve ∧
    (s.treasury.lookup .night).getD 0 = treasury ∧ s.blockRewardPool = 0 ∧ s.unclaimedBlockRewards = [] ∧
    s.utxos = [] ∧ s.contract = [] ∧ s.zswap.nullifiers = [] ∧ s.zswap.pastRoots = .empty ∧
    s.dust.addressDelegation = [] ∧ s.dust.generatingTreeFirstFree = 0 ∧
    s.dust.utxoRootHistory = .empty ∧ s.dust.generationRootHistory = .empty
  /-- A cNIGHT system transaction changes the dust state only, and not its root histories. -/
  applySystemTx : ∀ {s events time s'},
    crate.applySystemTx s (.cNightGeneratesDustUpdate events) time = .ok s' →
    ∃ dust, s' = { s with dust } ∧ dust.utxoRootHistory = s.dust.utxoRootHistory ∧
      dust.generationRootHistory = s.dust.generationRootHistory
  /-- The end of a block moves the fee prices and records the current roots. -/
  postBlockUpdate : ∀ {s time normalized overall s'},
    crate.postBlockUpdate s time normalized overall = .ok s' →
    ∃ feePrices zswapRoot utxoRoot generationRoot, s' = { s with
      parameters := { s.parameters with feePrices }
      zswap := { s.zswap with pastRoots := s.zswap.pastRoots.insert time zswapRoot }
      dust := { s.dust with
        utxoRootHistory := s.dust.utxoRootHistory.insert time utxoRoot
        generationRootHistory := s.dust.generationRootHistory.insert time generationRoot } }
  /-- The hash of a dust state covers its root histories. -/
  dustHash : ∀ {d d'}, crate.dustHash d = crate.dustHash d' →
    d.utxoRootHistory = d'.utxoRootHistory ∧ d.generationRootHistory = d'.generationRootHistory

/-! ## A generated state -/

section

variable {crate wallets} {cfg : GenesisConfig wallets}

theorem of_checkedMul (h : checkedMul a b = some c) : c = a * b :=
  (Option.some.inj (Option.ite_none_right_eq_some.mp h).2).symm

theorem of_checkedAdd (h : checkedAdd a b = some c) : c = a + b :=
  (Option.some.inj (Option.ite_none_right_eq_some.mp h).2).symm

theorem of_checkedSub (h : checkedSub a b = some c) : a = c + b := by
  obtain ⟨hle, hc⟩ := Option.ite_none_right_eq_some.mp h
  have := Option.some.inj hc
  omega

/-- The three pools of a genesis without wallet seeds add up to the whole supply. -/
theorem of_pools (hseeds : cfg.seeds.getD [] = [])
    (h : GenesisGenerator.pools wallets cfg = .ok (locked, reserve, treasury)) :
    reserve = cfg.reserveTotalAmount.getD 0 ∧ treasury = cfg.icsTotalAmount.getD 0 ∧
      locked + reserve + treasury = maxSupply := by
  obtain ⟨-, h⟩ := of_check h
  obtain ⟨-, h⟩ := of_check h
  obtain ⟨funded, hfunded, h⟩ := of_bind h
  obtain ⟨reserve', hreserve, h⟩ := of_bind h
  obtain ⟨locked', hlocked, h⟩ := of_bind h
  obtain ⟨-, h⟩ := of_check h
  cases h
  rw [hseeds] at hfunded
  obtain ⟨_, -, hfunded⟩ := Option.bind_eq_some_iff.mp (of_okOr hfunded)
  have hfunded : funded = 0 := of_checkedMul hfunded
  have hreserve := of_checkedAdd (of_okOr hreserve)
  obtain ⟨rest, hrest, hlocked⟩ := Option.bind_eq_some_iff.mp (of_okOr hlocked)
  have hrest := of_checkedSub hrest
  have hlocked := of_checkedSub hlocked
  omega

structure Opened (crate : LedgerCrate T) (cfg : GenesisConfig wallets) (s : LedgerState T) : Prop where
  parameters : s.parameters = cfg.ledgerParameters.getD crate.initialParameters
  reservePool : s.reservePool = cfg.reserveTotalAmount.getD 0
  treasury : (s.treasury.lookup .night).getD 0 = cfg.icsTotalAmount.getD 0
  supply : s.lockedPool + s.reservePool + (s.treasury.lookup .night).getD 0 = maxSupply
  blockRewardPool : s.blockRewardPool = 0
  unclaimedBlockRewards : s.unclaimedBlockRewards = []
  utxos : s.utxos = []
  contract : s.contract = []
  nullifiers : s.zswap.nullifiers = []
  pastRoots : s.zswap.pastRoots = .empty
  utxoRootHistory : s.dust.utxoRootHistory = .empty
  generationRootHistory : s.dust.generationRootHistory = .empty

theorem opened_of_settings (hlaw : crate.Lawful) (hseeds : cfg.seeds.getD [] = [])
    (hpools : GenesisGenerator.pools wallets cfg = .ok (locked, reserve, treasury))
    (h : crate.withGenesisSettings cfg.networkId (cfg.ledgerParameters.getD crate.initialParameters) locked
      reserve treasury = .ok s) :
    Opened crate cfg s ∧ s.dust.addressDelegation = [] ∧ s.dust.generatingTreeFirstFree = 0 := by
  obtain ⟨hreserve, htreasury, hsupply⟩ := of_pools hseeds hpools
  obtain ⟨hparameters, hlocked, hreservePool, hnight, hrewards, hunclaimed, hutxos, hcontract, hnullifiers,
    hroots, hdelegation, hfree, hutxoRoots, hgenerationRoots⟩ := hlaw.withGenesisSettings h
  refine ⟨?_, hdelegation, hfree⟩
  exact {
    parameters := hparameters
    reservePool := hreservePool.trans hreserve
    treasury := hnight.trans htreasury
    supply := by rw [hlocked, hreservePool, hnight, hsupply]
    blockRewardPool := hrewards
    unclaimedBlockRewards := hunclaimed
    utxos := hutxos
    contract := hcontract
    nullifiers := hnullifiers
    pastRoots := hroots
    utxoRootHistory := hutxoRoots
    generationRootHistory := hgenerationRoots }

theorem Opened.applySystemTx (hlaw : crate.Lawful) (h : Opened crate cfg s)
    (hok : crate.applySystemTx s (.cNightGeneratesDustUpdate events) time = .ok s') :
    Opened crate cfg s' := by
  obtain ⟨dust, rfl, hutxoRoots, hgenerationRoots⟩ := hlaw.applySystemTx hok
  exact { h with
    utxoRootHistory := hutxoRoots.trans h.utxoRootHistory
    generationRootHistory := hgenerationRoots.trans h.generationRootHistory }

theorem of_new (hlaw : crate.Lawful) (hseeds : cfg.seeds.getD [] = [])
    (htx : ∀ tx, cfg.cnightSystemTx = some tx → ∃ events, tx = .cNightGeneratesDustUpdate events)
    (h : GenesisGenerator.new crate wallets cfg = .ok g) :
    ∃ s normalized overall, Opened crate cfg s ∧
      (cfg.cnightSystemTx = none →
        s.dust.addressDelegation = [] ∧ s.dust.generatingTreeFirstFree = 0) ∧
      crate.postBlockUpdate s (cfg.genesisTimestamp.getD beginning) normalized overall = .ok g.state := by
  obtain ⟨⟨locked, reserve, treasury⟩, hpools, h⟩ := of_bind h
  obtain ⟨s₀, hs₀, h⟩ := of_bind h
  obtain ⟨hopened, hdust⟩ := opened_of_settings hlaw hseeds hpools (of_mapError hs₀)
  unfold GenesisGenerator.init at h
  simp only [hseeds, List.map_nil, List.isEmpty_nil, if_true] at h
  obtain ⟨me, hme, h⟩ := of_bind h
  cases hme
  obtain ⟨me, hme, h⟩ := of_bind h
  obtain ⟨normalized, -, h⟩ := of_bind h
  obtain ⟨s', hs', h⟩ := of_bind h
  cases h
  refine ⟨me.state, normalized, _, ?_, ?_, of_mapError hs'⟩
  · cases hcnight : cfg.cnightSystemTx with
    | none =>
      rw [hcnight] at hme
      cases hme
      exact hopened
    | some tx =>
      rw [hcnight] at hme
      obtain ⟨events, rfl⟩ := htx tx hcnight
      obtain ⟨s₁, hs₁, hme⟩ := of_bind hme
      obtain ⟨_, -, hme⟩ := of_bind hme
      cases hme
      exact hopened.applySystemTx hlaw (of_mapError hs₁)
  · intro hnone
    rw [hnone] at hme
    cases hme
    exact hdust

end

end MidnightNode.Genesis
