import MidnightNode.Genesis.Generator
import MidnightNode.Lib.MachineInts

/-!
# The verification of a genesis state

`verify_ledger_state_genesis` makes five checks of a genesis state against the configuration it was generated
from. The dust check applies the cNIGHT system transaction to an empty ledger and compares hashes of dust
states. The generator has closed its block by then and the verifier has not, so for a configuration with a
system transaction the hashes differ (`verification_iff`).
-/

namespace MidnightNode.Genesis

variable {T : LedgerTypes} (crate : LedgerCrate T)

/-! ## The verifier -/

/-- `MAX_SUPPLY` of the verifier. -/
def verifierMaxSupply : Nat := 24000000000 * 1000000

def expectedReserveValue : Nat := 6000000000873988

def expectedIcsValue : Nat := 1200000000000000

/-- The texts of values in messages, and the conversion of fixed-point numbers to floating point. -/
structure Formats (T : LedgerTypes) where
  hash : T.DustHash → String
  limits : T.Limits → String
  dustParameters : T.DustParameters → String
  costModel : T.CostModel → String
  duration : Nat → String
  float : Float → String
  /-- With two decimals. -/
  percent : Float → String
  toFloat : Int → Float

structure VerifierConfig (T : LedgerTypes) where
  cnightSystemTx : Option (Except String (Option (SystemTransaction T)))
  ledgerParameters : Option (Except String (LedgerParameters T))
  network : Option String
  genesisTimestamp : Nat

/-- The issues of a check as its result. -/
def report (issues : List String) (separator passed failed : String) : Bool × String :=
  if issues.isEmpty then (true, passed) else (false, failed ++ separator.intercalate issues)

/-- An issue unless the values are equal. -/
def mismatch {α : Type} [DecidableEq α] (actual expected : α) (text : String) : List String :=
  if actual ≠ expected then [text] else []

section

variable (formats : Formats T) (cfg : VerifierConfig T) (state : LedgerState T)

def verifyDustState [DecidableEq T.DustHash] : Bool × String :=
  match cfg.cnightSystemTx with
  | none => (false, "No cnight-config.json provided")
  | some (.ok (some systemTx)) =>
    match crate.applySystemTx (crate.new state.networkId) systemTx cfg.genesisTimestamp with
    | .error e => (false, s!"Failed to apply system_tx to fresh state: {e}")
    | .ok expectedState =>
      let delegations := state.dust.addressDelegation.length
      let expectedDelegations := expectedState.dust.addressDelegation.length
      let firstFree := state.dust.generatingTreeFirstFree
      let expectedFirstFree := expectedState.dust.generatingTreeFirstFree
      if cfg.network = some "mainnet" then
        let genesisHash := crate.dustHash state.dust
        let expectedHash := crate.dustHash expectedState.dust
        let hash := formats.hash genesisHash
        let otherHash := formats.hash expectedHash
        report
          (mismatch delegations expectedDelegations
              s!"address_delegation count mismatch: genesis={delegations}, expected={expectedDelegations}" ++
            mismatch firstFree expectedFirstFree
              s!"generating_tree_first_free mismatch: genesis={firstFree}, expected={expectedFirstFree}" ++
            mismatch genesisHash expectedHash
              s!"DustState hash mismatch:\n  genesis:  {hash}\n  expected: {otherHash}")
          "\n"
          s!"DustState exactly matches system_tx. Delegations: {delegations}, TreeFirstFree: {firstFree}"
          "DustState mismatch:\n"
      else
        report
          (if firstFree < expectedFirstFree then
            [s!"generating_tree_first_free is less than expected from system_tx: genesis={firstFree}, " ++
              s!"expected>={expectedFirstFree}"]
          else [])
          "\n"
          (s!"DustState includes system_tx data. Genesis: delegations={delegations}, " ++
            s!"tree_first_free={firstFree}. System_tx baseline: delegations={expectedDelegations}, " ++
            s!"tree_first_free={expectedFirstFree}")
          "DustState verification failed:\n"
  | some (.ok none) =>
    let delegations := state.dust.addressDelegation.length
    let firstFree := state.dust.generatingTreeFirstFree
    if cfg.network = some "mainnet" then
      if !state.dust.addressDelegation.isEmpty || 0 < firstFree then
        (false, s!"No system_tx but DustState is not empty. Delegations: {delegations}, " ++
          s!"TreeFirstFree: {firstFree}")
      else (true, "No system_tx in cnight-config.json - DustState is correctly empty")
    else
      (true, s!"No system_tx in cnight-config.json. DustState has delegations={delegations}, " ++
        s!"tree_first_free={firstFree} (from faucet wallets)")
  | some (.error e) => (false, s!"Failed to load cnight-config.json: {e}")

def utxoValue : Nat := (state.utxos.map crate.utxoNight).sum

def contractValue : Nat := (state.contract.map crate.contractNight).sum

def verifyEmptyState : Bool × String :=
  match cfg.network with
  | none => (false, "No network specified")
  | some net =>
    if net ≠ "mainnet" then
      (true, s!"Skipped - empty state check only applies to mainnet, got {net}")
    else
      let utxo := utxoValue crate state
      let contract := contractValue crate state
      report
        (mismatch state.utxos.isEmpty true "UTXO state is not empty" ++
          mismatch utxo 0 s!"UTXO NIGHT value is not zero: {utxo}" ++
          mismatch state.zswap.nullifiers.isEmpty true "Zswap nullifiers is not empty" ++
          mismatch state.contract.isEmpty true "Contract state is not empty" ++
          mismatch contract 0 s!"Contract NIGHT value is not zero: {contract}")
        "; " "All state components are empty (no faucet funding)" "State is not empty: "

def verifySupplyInvariant : Bool × String :=
  let treasury := (state.treasury.lookup .night).getD 0
  let reserve := state.reservePool
  let rewards := state.blockRewardPool
  let locked := state.lockedPool
  let unclaimed := (state.unclaimedBlockRewards.map Prod.snd).sum
  let utxo := utxoValue crate state
  let contract := contractValue crate state
  let total := [locked, reserve, rewards, treasury, unclaimed, contract].foldl (saturatingAdd u128Max) utxo
  let detail := s!"Reserve: {reserve}, Treasury: {treasury}, UTXOs: {utxo}, Contracts: {contract}, " ++
    s!"Block Rewards: {rewards}, Unclaimed: {unclaimed}, Locked: {locked}"
  let (ok, message) := report
    (mismatch total verifierMaxSupply s!"NIGHT supply mismatch! Expected {verifierMaxSupply}, got {total}" ++
      mismatch reserve expectedReserveValue
        s!"Reserve pool mismatch: expected {expectedReserveValue}, got {reserve}" ++
      mismatch treasury expectedIcsValue
        s!"Treasury (ICS) mismatch: expected {expectedIcsValue}, got {treasury}")
    "\n" s!"Total NIGHT supply = {verifierMaxSupply} (24B). " ""
  (ok, if ok then message ++ detail else message ++ "\n" ++ detail)

def maxDeviationPct : Float := 5.0

/-- The difference in percent, as the verifier computes it. -/
def deviationPct (actual expected : Float) : Float :=
  if expected == 0.0 then
    if actual == 0.0 then 0.0 else 1.0 / 0.0
  else ((actual - expected) / expected).abs * 100.0

/-- A price that moved by five percent exceeds the threshold by a rounding error. -/
example : deviationPct 1.05 1.0 > maxDeviationPct := by decide

/-- The names and values of the fee prices. -/
def FeePrices.fields (prices : FeePrices) : List (String × Int) :=
  [("overall_price", prices.overallPrice), ("read_factor", prices.readFactor),
    ("compute_factor", prices.computeFactor), ("block_usage_factor", prices.blockUsageFactor),
    ("write_factor", prices.writeFactor)]

def feeIssues (actual expected : FeePrices) : List String :=
  (actual.fields.zip expected.fields).flatMap fun ((name, a), (_, e)) =>
    let actual := formats.toFloat a
    let expected := formats.toFloat e
    let deviation := deviationPct actual expected
    if deviation > maxDeviationPct then
      let percent := formats.percent deviation
      let actual := formats.float actual
      let expected := formats.float expected
      [s!"fee_prices.{name} deviation {percent}% exceeds 5% threshold:\n  state:    {actual}\n" ++
        s!"  expected: {expected}"]
    else []

/-- The text of a parameter that differs. -/
def parameterMismatch (name actual expected : String) : String :=
  s!"{name} mismatch:\n  state:    {actual}\n  expected: {expected}"

variable [DecidableEq T.Limits] [DecidableEq T.DustParameters] [DecidableEq T.CostModel]

def verifyLedgerParameters : Bool × String :=
  match cfg.ledgerParameters with
  | none => (false, "No ledger-parameters-config.json provided")
  | some (.error e) => (false, s!"Failed to load ledger-parameters-config.json: {e}")
  | some (.ok expected) =>
    let actual := state.parameters
    report
      (feeIssues formats actual.feePrices expected.feePrices ++
        mismatch actual.limits expected.limits
          (parameterMismatch "limits" (formats.limits actual.limits) (formats.limits expected.limits)) ++
        mismatch actual.dust expected.dust (parameterMismatch "dust parameters"
          (formats.dustParameters actual.dust) (formats.dustParameters expected.dust)) ++
        mismatch actual.costModel expected.costModel (parameterMismatch "cost_model"
          (formats.costModel actual.costModel) (formats.costModel expected.costModel)) ++
        mismatch actual.globalTtl expected.globalTtl (parameterMismatch "global_ttl"
          (formats.duration actual.globalTtl) (formats.duration expected.globalTtl)) ++
        mismatch actual.cardanoToMidnightBridgeFeeBasisPoints
          expected.cardanoToMidnightBridgeFeeBasisPoints
          (parameterMismatch "cardano_to_midnight_bridge_fee_basis_points"
            (toString actual.cardanoToMidnightBridgeFeeBasisPoints)
            (toString expected.cardanoToMidnightBridgeFeeBasisPoints)) ++
        mismatch actual.cToMBridgeMinAmount expected.cToMBridgeMinAmount
          (parameterMismatch "c_to_m_bridge_min_amount" (toString actual.cToMBridgeMinAmount)
            (toString expected.cToMBridgeMinAmount)))
      "\n" "All LedgerParameters match" "Parameter mismatches:\n"

/-- The issue of one of the root histories. -/
def historyIssue (time : Nat) (name : String) (history : TimeFilterMap T.Root) : List String :=
  if (history.get time).isNone then [s!"{name}: no entry at timestamp {time}"]
  else if (history.get (time - 1)).isSome then
    [s!"{name}: unexpected predecessor before timestamp {time} (entry may not be exact)"]
  else []

def verifyGenesisTimestampInState : Bool × String :=
  let time := cfg.genesisTimestamp
  report
    (historyIssue time "zswap.past_roots" state.zswap.pastRoots ++
      historyIssue time "dust.utxo.root_history" state.dust.utxoRootHistory ++
      historyIssue time "dust.generation.root_history" state.dust.generationRootHistory)
    "\n"
    (s!"Genesis timestamp {time} confirmed in zswap.past_roots, dust.utxo.root_history, " ++
      "dust.generation.root_history")
    "Timestamp verification failed:\n"

structure VerificationResult where
  dustState : Bool × String
  emptyState : Bool × String
  supplyInvariant : Bool × String
  ledgerParameters : Bool × String
  timestampInState : Bool × String

def VerificationResult.allPassed (r : VerificationResult) : Bool :=
  r.dustState.1 && r.emptyState.1 && r.supplyInvariant.1 && r.ledgerParameters.1 && r.timestampInState.1

def verifyLedgerStateGenesis [DecidableEq T.DustHash] : VerificationResult where
  dustState := verifyDustState crate formats cfg state
  emptyState := verifyEmptyState crate cfg state
  supplyInvariant := verifySupplyInvariant crate state
  ledgerParameters := verifyLedgerParameters formats cfg state
  timestampInState := verifyGenesisTimestampInState cfg state

end

/-! ## The checks of a generated state -/

theorem report_passed : (report issues separator passed failed).1 = true ↔ issues = [] := by
  cases issues <;> simp [report]

@[simp]
theorem mismatch_eq_nil {α : Type} [DecidableEq α] {actual expected : α} :
    mismatch actual expected text = [] ↔ actual = expected := by
  simp [mismatch]

theorem historyIssue_insert_empty (hpos : 0 < time) (name : String) (root : T.Root) :
    historyIssue time name (TimeFilterMap.empty.insert time root) = [] := by
  have hafter : ¬ time ≤ time - 1 := by omega
  simp [historyIssue, TimeFilterMap.get, TimeFilterMap.insert, TimeFilterMap.empty, hafter]

theorem verifierMaxSupply_lt : verifierMaxSupply < 2 ^ 128 := by decide

theorem foldl_saturatingAdd {l : List Nat} (h : a + l.sum < 2 ^ 128) :
    l.foldl (saturatingAdd u128Max) a = a + l.sum := by
  induction l generalizing a with
  | nil => rfl
  | cons b l ih =>
    rw [List.sum_cons, ← Nat.add_assoc] at h
    have hadd : saturatingAdd u128Max a b = a + b :=
      min_eq_left (Nat.le_sub_one_of_lt ((Nat.le_add_right _ _).trans_lt h))
    rw [List.foldl_cons, hadd, ih h, List.sum_cons, Nat.add_assoc]

section

variable {crate} {wallets : WalletCrate T} {cfg : GenesisConfig wallets} {s s' : LedgerState T}
  {params : LedgerParameters T} {time : Nat} {normalized : Ledger.NormalizedCost} {overall : Int}

/-- A mainnet configuration: no funded seeds, the totals that the verifier expects. -/
structure GenesisConfig.Mainnet (cfg : GenesisConfig wallets) (params : LedgerParameters T) (time : Nat) :
    Prop where
  seeds : cfg.seeds.getD [] = []
  ics : cfg.icsTotalAmount = some expectedIcsValue
  reserve : cfg.reserveTotalAmount = some expectedReserveValue
  systemTx : ∀ tx, cfg.cnightSystemTx = some tx → ∃ events, tx = .cNightGeneratesDustUpdate events
  parameters : cfg.ledgerParameters = some params
  timestamp : cfg.genesisTimestamp = some time
  time_pos : 0 < time

/-- The files of the same configuration. -/
def GenesisConfig.verifierConfig (cfg : GenesisConfig wallets) (params : LedgerParameters T) (time : Nat) :
    VerifierConfig T :=
  ⟨some (.ok cfg.cnightSystemTx), some (.ok params), some "mainnet", time⟩

/-- No fee price deviates by more than five percent, as the verifier computes it. -/
def FeesWithin (formats : Formats T) (actual expected : FeePrices) : Prop :=
  ∀ p ∈ actual.fields.zip expected.fields,
    ¬ deviationPct (formats.toFloat p.1.2) (formats.toFloat p.2.2) > maxDeviationPct

theorem feeIssues_eq_nil {formats : Formats T} {actual expected : FeePrices} :
    feeIssues formats actual expected = [] ↔ FeesWithin formats actual expected := by
  rw [feeIssues, List.flatMap_eq_nil_iff]
  refine forall₂_congr ?_
  intro p _
  simp

section

variable (hlaw : crate.Lawful) (hcfg : cfg.Mainnet params time) (h : Opened crate cfg s)
  (hclose : crate.postBlockUpdate s time normalized overall = .ok s')

include hlaw hclose

include h in
theorem verifyEmptyState_passed :
    (verifyEmptyState crate (cfg.verifierConfig params time) s').1 = true := by
  obtain ⟨_, _, _, _, rfl⟩ := hlaw.postBlockUpdate hclose
  simp [verifyEmptyState, GenesisConfig.verifierConfig, report_passed, utxoValue, contractValue, h.utxos,
    h.contract, h.nullifiers]

include hcfg h in
theorem verifySupplyInvariant_passed : (verifySupplyInvariant crate s').1 = true := by
  obtain ⟨_, _, _, _, rfl⟩ := hlaw.postBlockUpdate hclose
  have hreserve : s.reservePool = expectedReserveValue := by rw [h.reservePool, hcfg.reserve]; rfl
  have htreasury : (s.treasury.lookup .night).getD 0 = expectedIcsValue := by
    rw [h.treasury, hcfg.ics]; rfl
  have hsupply : s.lockedPool + expectedReserveValue + expectedIcsValue = verifierMaxSupply := by
    rw [← hreserve, ← htreasury]
    exact h.supply
  have htotal : [s.lockedPool, expectedReserveValue, 0, expectedIcsValue, 0, 0].foldl (saturatingAdd u128Max) 0 =
      verifierMaxSupply := by
    have hsum : 0 + [s.lockedPool, expectedReserveValue, 0, expectedIcsValue, 0, 0].sum =
        verifierMaxSupply := by
      simpa [Nat.add_assoc] using hsupply
    rw [foldl_saturatingAdd (hsum ▸ verifierMaxSupply_lt), hsum]
  unfold verifySupplyInvariant
  dsimp only
  simp only [utxoValue, contractValue, h.utxos, h.contract, h.blockRewardPool, h.unclaimedBlockRewards,
    hreserve, htreasury, List.map_nil, List.sum_nil, htotal, report_passed]
  simp

include hcfg h in
theorem verifyLedgerParameters_iff [DecidableEq T.Limits] [DecidableEq T.DustParameters]
    [DecidableEq T.CostModel] {formats : Formats T} :
    (verifyLedgerParameters formats (cfg.verifierConfig params time) s').1 = true ↔
      FeesWithin formats s'.parameters.feePrices params.feePrices := by
  obtain ⟨_, _, _, _, rfl⟩ := hlaw.postBlockUpdate hclose
  have hparameters : s.parameters = params := by rw [h.parameters, hcfg.parameters]; rfl
  simp [verifyLedgerParameters, GenesisConfig.verifierConfig, report_passed, feeIssues_eq_nil, hparameters]

include hcfg h in
theorem verifyGenesisTimestampInState_passed :
    (verifyGenesisTimestampInState (cfg.verifierConfig params time) s').1 = true := by
  obtain ⟨_, _, _, _, rfl⟩ := hlaw.postBlockUpdate hclose
  simp [verifyGenesisTimestampInState, GenesisConfig.verifierConfig, report_passed, h.pastRoots,
    h.utxoRootHistory, h.generationRootHistory, historyIssue_insert_empty hcfg.time_pos]

/-- A system transaction leaves the root histories of an empty ledger empty, and the generator has written
into them. -/
theorem dustHash_ne
    (hexpected : crate.applySystemTx (crate.new s'.networkId) (.cNightGeneratesDustUpdate events) time =
      .ok expected) : crate.dustHash s'.dust ≠ crate.dustHash expected.dust := by
  intro hhash
  obtain ⟨hroots, -⟩ := hlaw.dustHash hhash
  obtain ⟨_, _, _, _, rfl⟩ := hlaw.postBlockUpdate hclose
  obtain ⟨dust, rfl, hdust, -⟩ := hlaw.applySystemTx hexpected
  have hempty : dust.utxoRootHistory = .empty := hdust.trans (hlaw.new_dust _).1
  have hentries := congrArg TimeFilterMap.entries (hroots.trans hempty)
  exact List.cons_ne_nil _ _ hentries

include hcfg in
theorem verifyDustState_iff [DecidableEq T.DustHash]
    (hdust : cfg.cnightSystemTx = none →
      s.dust.addressDelegation = [] ∧ s.dust.generatingTreeFirstFree = 0) :
    (verifyDustState crate formats (cfg.verifierConfig params time) s').1 = true ↔
      cfg.cnightSystemTx = none := by
  cases hcnight : cfg.cnightSystemTx with
  | none =>
    obtain ⟨_, _, _, _, rfl⟩ := hlaw.postBlockUpdate hclose
    obtain ⟨hdelegation, hfree⟩ := hdust hcnight
    simp [verifyDustState, GenesisConfig.verifierConfig, hcnight, hdelegation, hfree]
  | some tx =>
    obtain ⟨events, rfl⟩ := hcfg.systemTx tx hcnight
    refine iff_of_false ?_ nofun
    simp only [verifyDustState, GenesisConfig.verifierConfig, hcnight]
    split
    next => simp
    next expected hexpected =>
      have hne := dustHash_ne hlaw hclose hexpected
      simp [report_passed, hne]

end

end

/-- **Verification of generated states.** A state that was generated from a mainnet configuration passes all
five checks exactly if the configuration has no cNIGHT system transaction and the end of the block has moved no
fee price by more than the verifier allows. -/
theorem verification_iff {T : LedgerTypes} [DecidableEq T.Limits] [DecidableEq T.DustParameters]
    [DecidableEq T.CostModel] [DecidableEq T.DustHash] {crate : LedgerCrate T} {wallets : WalletCrate T}
    (hlaw : crate.Lawful) (formats : Formats T) {cfg : GenesisConfig wallets} {params : LedgerParameters T}
    {time : Nat} (hcfg : cfg.Mainnet params time) {g : GenesisGenerator T}
    (h : GenesisGenerator.new crate wallets cfg = .ok g) :
    (verifyLedgerStateGenesis crate formats (cfg.verifierConfig params time) g.state).allPassed = true ↔
      cfg.cnightSystemTx = none ∧ FeesWithin formats g.state.parameters.feePrices params.feePrices := by
  obtain ⟨s, normalized, overall, hopened, hdust, hclose⟩ := of_new hlaw hcfg.seeds hcfg.systemTx h
  rw [hcfg.timestamp, Option.getD_some] at hclose
  simp only [VerificationResult.allPassed, verifyLedgerStateGenesis, Bool.and_eq_true,
    verifyDustState_iff hlaw hcfg hclose hdust, verifyEmptyState_passed hlaw hopened hclose,
    verifySupplyInvariant_passed hlaw hcfg hopened hclose,
    verifyLedgerParameters_iff hlaw hcfg hopened hclose,
    verifyGenesisTimestampInState_passed hlaw hcfg hopened hclose, and_true]

/-! ## A small ledger -/

abbrev sampleTypes : LedgerTypes where
  Limits := Unit
  DustParameters := Unit
  CostModel := Unit
  OtherParameters := Unit
  Root := Nat
  Delegation := Nat
  DustRest := Unit
  DustHash := List (Nat × Nat) × List (Nat × Nat)
  Nullifier := Unit
  ZswapRest := Unit
  Utxo := Unit
  Contract := Unit
  Address := Unit
  StateRest := Unit
  CNightEvent := Nat
  Nonce := Unit
  StandardTransaction := Unit

def sampleParameters : LedgerParameters sampleTypes := ⟨(), (), (), ⟨1, 1, 1, 1, 1⟩, 3600, 0, 0, ()⟩

def sampleEmpty (networkId : String) (parameters : LedgerParameters sampleTypes)
    (locked reserve treasury : Nat) : LedgerState sampleTypes where
  networkId := networkId
  parameters := parameters
  lockedPool := locked
  reservePool := reserve
  blockRewardPool := 0
  treasury := [(.night, treasury)]
  unclaimedBlockRewards := []
  zswap := ⟨[], .empty, ()⟩
  utxos := []
  contract := []
  dust := ⟨[], 0, .empty, .empty, ()⟩
  rest := ()

/-- A ledger without costs, whose system transactions record their events as delegations. -/
def sampleCrate : LedgerCrate sampleTypes where
  initialParameters := sampleParameters
  new networkId := sampleEmpty networkId sampleParameters maxSupply 0 0
  withGenesisSettings networkId parameters locked reserve treasury :=
    .ok (sampleEmpty networkId parameters locked reserve treasury)
  applySystemTx
    | s, .cNightGeneratesDustUpdate events, _ => .ok { s with dust := { s.dust with
        addressDelegation := s.dust.addressDelegation ++ events
        generatingTreeFirstFree := s.dust.generatingTreeFirstFree + events.length } }
    | _, _, _ => .error "unsupported"
  systemCost _ _ := .zero
  wellFormed _ _ _ _ := .ok ()
  cost _ _ := .ok .zero
  apply s _ _ := (s, .success)
  addCost _ c := c
  blockLimits _ := .zero
  normalize _ _ := some ⟨0, 0, 0, 0, 0⟩
  postBlockUpdate s time _ _ := .ok { s with
    zswap := { s.zswap with pastRoots := s.zswap.pastRoots.insert time 0 }
    dust := { s.dust with
      utxoRootHistory := s.dust.utxoRootHistory.insert time 0
      generationRootHistory := s.dust.generationRootHistory.insert time 0 } }
  serializeSystem _ := .ok []
  serializeStandard _ := .ok []
  systemHash _ := .fill 32 0
  standardHash _ := .fill 32 0
  utxoNight _ := 0
  contractNight _ := 0
  dustHash d := (d.utxoRootHistory.entries, d.generationRootHistory.entries)

theorem sampleCrate_lawful : sampleCrate.Lawful where
  new_dust _ := ⟨rfl, rfl⟩
  withGenesisSettings h := by
    cases h
    exact ⟨rfl, rfl, rfl, rfl, rfl, rfl, rfl, rfl, rfl, rfl, rfl, rfl, rfl, rfl⟩
  applySystemTx h := by
    cases h
    exact ⟨_, rfl, rfl, rfl⟩
  postBlockUpdate h := by
    cases h
    exact ⟨_, _, _, _, rfl⟩
  dustHash {d d'} h := by
    obtain ⟨hutxo, hgeneration⟩ := Prod.mk.inj h
    cases hu : d.utxoRootHistory; cases hu' : d'.utxoRootHistory
    cases hg : d.generationRootHistory; cases hg' : d'.generationRootHistory
    simp_all

def sampleWallets : WalletCrate sampleTypes where
  WalletSeed := Unit
  Wallet := Unit
  Rng := Unit
  wallet _ _ := ()
  userAddress := id
  fromSeed _ := ()
  genNonce _ := ((), ())
  registerDustTx _ _ _ _ _ _ _ := ((), ())
  claimRewardsTx _ _ _ _ := ((), ())

def sampleFormats : Formats sampleTypes where
  hash _ := ""
  limits _ := ""
  dustParameters _ := ""
  costModel _ := ""
  duration _ := ""
  float _ := ""
  percent _ := ""
  toFloat _ := 1.0

def sampleGenesis (systemTx : Option (SystemTransaction sampleTypes)) : GenesisConfig sampleWallets where
  seed := .fill 32 0x37
  networkId := "mainnet"
  proofServer := none
  funding := ⟨0, 0, [], 0, 0, []⟩
  seeds := none
  cnightSystemTx := systemTx
  icsTotalAmount := some expectedIcsValue
  reserveTotalAmount := some expectedReserveValue
  ledgerParameters := some sampleParameters
  genesisTimestamp := some 1700000000
  allowEmptyPools := false

theorem sampleGenesis_mainnet (events : Option (List Nat)) :
    (sampleGenesis (events.map .cNightGeneratesDustUpdate)).Mainnet sampleParameters 1700000000 where
  seeds := rfl
  ics := rfl
  reserve := rfl
  systemTx tx h := by
    obtain ⟨events, -, rfl⟩ := Option.map_eq_some_iff.mp h
    exact ⟨events, rfl⟩
  parameters := rfl
  timestamp := rfl
  time_pos := Nat.succ_pos _

theorem sampleFormats_within (actual expected : FeePrices) : FeesWithin sampleFormats actual expected := by
  intro _ _
  have h : ¬ deviationPct 1.0 1.0 > maxDeviationPct := by decide
  exact h

theorem verification_without_system_tx : ∃ g,
    GenesisGenerator.new sampleCrate sampleWallets (sampleGenesis none) = .ok g ∧
      (verifyLedgerStateGenesis sampleCrate sampleFormats
        ((sampleGenesis none).verifierConfig sampleParameters 1700000000) g.state).allPassed = true :=
  ⟨_, rfl, (verification_iff sampleCrate_lawful sampleFormats (sampleGenesis_mainnet none) rfl).mpr
    ⟨rfl, sampleFormats_within _ _⟩⟩

/-- With a system transaction the state is generated, and the dust check rejects it. -/
theorem verification_rejects_system_tx : ∃ g,
    GenesisGenerator.new sampleCrate sampleWallets (sampleGenesis (some (.cNightGeneratesDustUpdate [1]))) =
      .ok g ∧
    let result := verifyLedgerStateGenesis sampleCrate sampleFormats
      ((sampleGenesis (some (.cNightGeneratesDustUpdate [1]))).verifierConfig sampleParameters 1700000000)
      g.state
    result.dustState.1 = false ∧ result.allPassed = false :=
  ⟨_, rfl, by decide +kernel⟩

end MidnightNode.Genesis
