import Mathlib
import MidnightNode.Ledger.Verification
import MidnightNode.Lib.CachedTranslation
import MidnightNode.Lib.Fallible
import MidnightNode.Lib.KeyedList
import MidnightNode.Lib.PatriciaTrie

/-!
# Translation of ledger states from version 8 to version 9

`StateTranslationTable`: eight translations, each under the tags of the types it goes between. A ledger state
is taken apart into its parameters and the tries of `contract` and `bridge_receiving`, and a trie into its
nodes and their values; everything else is copied, or read from the arena again where both versions store it
under the same tag. A translation builds an object from the translations of its parts, which it finds in the
driver's cache.
-/

namespace MidnightNode.StateTranslation
open Fallible

/-! ## Ledger states of the two versions -/

/-- Objects in the arena that both versions store under the same tag. -/
inductive StoredPart
  | unclaimedBlockRewards
  | treasury
  | zswap
  | utxo
  | replayProtection
  | dust
  | chargedState
  | balance

/-- Values that both versions serialize under the same tag. -/
inductive BasePart
  | runtimeCostModel
  | baselineCost
  | dustParameters
  | feePrices

/-- Types of the ledger crates that the translation does not look into. An `Sp` to a stored part is the key of
the part in the arena, which addresses objects by their contents. -/
structure CrateTypes where
  ArenaKey : Type
  Base : BasePart → Type
  FixedPoint : Type
  Duration : Type
  CostDuration : Type
  /-- `verifier-key[v6]`, which both versions have. -/
  VerifierKey : Type
  /-- `verifier-key[v7]`, new in version 9. -/
  VerifierKey7 : Type
  Ir : Type
  VerifyingKey : Type
  EcdsaKey : Type
  /-- Annotations of the tries: `SizeAnn` and the `NightAnn` of either version. -/
  SizeAnn : Type
  NightAnn8 : Type
  NightAnn9 : Type
  monoid : AddMonoid NightAnn9

variable {T : CrateTypes}

instance CrateTypes.instAddMonoid : AddMonoid T.NightAnn9 := T.monoid

structure TransactionCostModel8 (T : CrateTypes) where
  runtimeCostModel : T.Base .runtimeCostModel
  parallelismFactor : Nat
  baselineCost : T.Base .baselineCost

structure TransactionCostModel9 (T : CrateTypes) where
  runtimeCostModel : T.Base .runtimeCostModel
  baselineCost : T.Base .baselineCost
  validationFactor : T.FixedPoint
  guaranteedFactor : T.FixedPoint
  fallibleFactor : T.FixedPoint

structure TransactionLimits8 (T : CrateTypes) where
  transactionByteLimit : Nat
  timeToDismissPerByte : T.CostDuration
  minTimeToDismiss : T.CostDuration
  blockLimits : Ledger.SyntheticCost
  blockWithdrawalMinimumMultiple : T.FixedPoint

structure TransactionLimits9 (T : CrateTypes) extends TransactionLimits8 T where
  maxContractMetadataSize : Nat

structure LedgerParameters8 (T : CrateTypes) where
  costModel : TransactionCostModel8 T
  limits : TransactionLimits8 T
  dust : T.Base .dustParameters
  feePrices : T.Base .feePrices
  globalTtl : T.Duration
  costDimensionMinRatio : T.FixedPoint
  priceAdjustmentAParameter : T.FixedPoint
  cardanoToMidnightBridgeFeeBasisPoints : Nat
  cToMBridgeMinAmount : Nat

structure LedgerParameters9 (T : CrateTypes) where
  costModel : TransactionCostModel9 T
  limits : TransactionLimits9 T
  dust : T.Base .dustParameters
  feePrices : T.Base .feePrices
  globalTtl : T.Duration
  costDimensionMinRatio : T.FixedPoint
  priceAdjustmentAParameter : T.FixedPoint
  cardanoToMidnightBridgeFeeBasisPoints : Nat
  cToMBridgeMinAmount : Nat
  minBlockPrice : T.FixedPoint

structure HashMap (κ α : Type) where
  entries : List (κ × α)
  nodup : (entries.map Prod.fst).Nodup

namespace HashMap

variable {κ α : Type} [DecidableEq κ]

def empty : HashMap κ α := ⟨[], List.nodup_nil⟩

def insert (m : HashMap κ α) (k : κ) (a : α) : HashMap κ α :=
  ⟨KeyedList.insertKey k a m.entries, KeyedList.nodup_insertKey m.nodup k a⟩

def get (m : HashMap κ α) (k : κ) : Option α := m.entries.lookup k

end HashMap

abbrev EntryPointBuf := List UInt8

structure ContractOperation8 (T : CrateTypes) where
  v2 : Option T.VerifierKey

structure ContractOperation9 (T : CrateTypes) where
  v2 : Option T.VerifierKey
  v3 : Option T.VerifierKey7
  ir : Option T.Ir

/-- `ContractOperation::new` of version 9, which leaves the old slot empty. -/
def ContractOperation9.new (vk : Option T.VerifierKey7) (ir : Option T.Ir) : ContractOperation9 T where
  v2 := none
  v3 := vk
  ir := ir

inductive ContractMaintenanceVerifyingKey (T : CrateTypes)
  | schnorr (vk : T.VerifyingKey)
  | ecdsa (vk : T.EcdsaKey)

structure ContractMaintenanceAuthority (VerifyingKey : Type) where
  committee : List VerifyingKey
  threshold : Nat
  counter : Nat

structure ContractState8 (T : CrateTypes) where
  data : T.ArenaKey
  operations : HashMap EntryPointBuf (ContractOperation8 T)
  maintenanceAuthority : ContractMaintenanceAuthority T.VerifyingKey
  balance : T.ArenaKey

structure ContractState9 (T : CrateTypes) where
  data : T.ArenaKey
  operations : HashMap EntryPointBuf (ContractOperation9 T)
  maintenanceAuthority : ContractMaintenanceAuthority (ContractMaintenanceVerifyingKey T)
  balance : T.ArenaKey

structure MerklePatriciaTrie (α Ann : Type) where
  root : TrieNode α Ann

/-- What the two versions of a ledger state have in common: their fields, but not the types of the
parameters and of the two tries. -/
structure LedgerState (T : CrateTypes) (Parameters BridgeReceiving Contract : Type) where
  networkId : String
  parameters : Parameters
  lockedPool : Nat
  bridgeReceiving : BridgeReceiving
  reservePool : Nat
  blockRewardPool : Nat
  unclaimedBlockRewards : T.ArenaKey
  treasury : T.ArenaKey
  zswap : T.ArenaKey
  contract : Contract
  utxo : T.ArenaKey
  replayProtection : T.ArenaKey
  dust : T.ArenaKey

abbrev LedgerState8 (T : CrateTypes) :=
  LedgerState T (LedgerParameters8 T) (MerklePatriciaTrie Nat T.SizeAnn)
    (MerklePatriciaTrie (ContractState8 T) T.NightAnn8)

abbrev LedgerState9 (T : CrateTypes) :=
  LedgerState T (LedgerParameters9 T) (MerklePatriciaTrie Nat T.NightAnn9)
    (MerklePatriciaTrie (ContractState9 T) T.NightAnn9)

/-! ## Objects and their tags -/

/-- The types that the table translates. -/
inductive Kind
  | ledgerState
  | ledgerParameters
  | contractState
  | contractMpt
  | contractNode
  | u128
  | bridgeReceivingMpt
  | bridgeReceivingNode
deriving DecidableEq

@[reducible] def Kind.Source (T : CrateTypes) : Kind → Type
  | ledgerState => LedgerState8 T
  | ledgerParameters => LedgerParameters8 T
  | contractState => ContractState8 T
  | contractMpt => MerklePatriciaTrie (ContractState8 T) T.NightAnn8
  | contractNode => TrieNode (ContractState8 T) T.NightAnn8
  | u128 => Nat
  | bridgeReceivingMpt => MerklePatriciaTrie Nat T.SizeAnn
  | bridgeReceivingNode => TrieNode Nat T.SizeAnn

@[reducible] def Kind.Target (T : CrateTypes) : Kind → Type
  | ledgerState => LedgerState9 T
  | ledgerParameters => LedgerParameters9 T
  | contractState => ContractState9 T
  | contractMpt => MerklePatriciaTrie (ContractState9 T) T.NightAnn9
  | contractNode => TrieNode (ContractState9 T) T.NightAnn9
  | u128 => Nat
  | bridgeReceivingMpt => MerklePatriciaTrie Nat T.NightAnn9
  | bridgeReceivingNode => TrieNode Nat T.NightAnn9

/-- `Sp<dyn Any>`: an object with its type. -/
structure Object (F : Kind → Type) where
  kind : Kind
  value : F kind

def Object.downcast {F : Kind → Type} (k : Kind) (o : Object F) : Option (F k) :=
  if h : o.kind = k then some (h ▸ o.value) else none

structure TranslationId where
  source : String
  target : String
deriving DecidableEq

def mptTag (entry ann : String) : String := "mpt(" ++ entry ++ "," ++ ann ++ ")"

def nodeTag (entry ann : String) : String := "mpt-node(" ++ entry ++ "," ++ ann ++ ")"

/-- `TABLE`: the keys are literals. -/
def table : List (TranslationId × Kind) :=
  [(⟨"ledger-state[v13]", "ledger-state[v18]"⟩, .ledgerState),
    (⟨"ledger-parameters[v5]", "ledger-parameters[v8]"⟩, .ledgerParameters),
    (⟨"contract-state[v6]", "contract-state[v8]"⟩, .contractState),
    (⟨"mpt(contract-state[v6],night-annotation)", "mpt(contract-state[v8],night-annotation)"⟩,
      .contractMpt),
    (⟨"mpt-node(contract-state[v6],night-annotation)", "mpt-node(contract-state[v8],night-annotation)"⟩,
      .contractNode),
    (⟨"u128", "u128"⟩, .u128),
    (⟨"mpt(u128,size-annotation)", "mpt(u128,night-annotation)"⟩, .bridgeReceivingMpt),
    (⟨"mpt-node(u128,size-annotation)", "mpt-node(u128,night-annotation)"⟩, .bridgeReceivingNode)]

/-- The tags of the types themselves. -/
def Kind.id : Kind → TranslationId
  | ledgerState => ⟨"ledger-state[v13]", "ledger-state[v18]"⟩
  | ledgerParameters => ⟨"ledger-parameters[v5]", "ledger-parameters[v8]"⟩
  | contractState => ⟨"contract-state[v6]", "contract-state[v8]"⟩
  | contractMpt =>
    ⟨mptTag "contract-state[v6]" "night-annotation", mptTag "contract-state[v8]" "night-annotation"⟩
  | contractNode =>
    ⟨nodeTag "contract-state[v6]" "night-annotation", nodeTag "contract-state[v8]" "night-annotation"⟩
  | u128 => ⟨"u128", "u128"⟩
  | bridgeReceivingMpt => ⟨mptTag "u128" "size-annotation", mptTag "u128" "night-annotation"⟩
  | bridgeReceivingNode => ⟨nodeTag "u128" "size-annotation", nodeTag "u128" "night-annotation"⟩

/-- `table_tags_match_types`: every type is found under its own tags. -/
theorem table_lookup_id (k : Kind) : table.lookup k.id = some k := by
  cases k <;> decide

abbrev TranslationCache (T : CrateTypes) :=
  Translation.Cache TranslationId (Object (Kind.Source T)) (Object (Kind.Target T))

abbrev Child (T : CrateTypes) := TranslationId × Object (Kind.Source T)

/-! ## Crates -/

/-- Why there is no translation: a part is missing so far (`Ok(None)`), an `io::Error`, or a panic. -/
inductive Stop
  | pending
  | io (message : String)
  | panic (message : String)

/-- What the translation calls of the ledger and storage crates. -/
structure LedgerCrates (T : CrateTypes) where
  storedTag8 : StoredPart → String
  storedTag9 : StoredPart → String
  baseTag8 : BasePart → String
  baseTag9 : BasePart → String
  /-- `get_lazy`: the object under a key. -/
  getLazy : T.ArenaKey → Except String T.ArenaKey
  serialize : (part : BasePart) → T.Base part → Except String (List UInt8)
  deserialize : (part : BasePart) → List UInt8 → Except String (T.Base part)
  initialParameters : LedgerParameters9 T
  /-- `NightAnn::from_value` for contracts and for amounts. -/
  contractAnn : ContractState9 T → T.NightAnn9
  amountAnn : Nat → T.NightAnn9

def recast (C : LedgerCrates T) (part : StoredPart) (a : T.ArenaKey) : Except Stop T.ArenaKey :=
  if C.storedTag8 part ≠ C.storedTag9 part then .error (.io "tags do not match")
  else (C.getLazy a).mapError .io

/-- `recast_base`: through the bytes. -/
def recastBase (C : LedgerCrates T) (part : BasePart) (a : T.Base part) : Except Stop (T.Base part) :=
  if C.baseTag8 part ≠ C.baseTag9 part then .error (.io "tags do not match")
  else do
    let buf ← (C.serialize part a).mapError .io
    (C.deserialize part buf).mapError .io

/-- `cache.resolve`: the translation of a child, at its type. -/
def resolve {β : Type} (downcast : Object (Kind.Target T) → Option β) (cache : TranslationCache T)
    (child : Child T) : Except Stop β := do
  let o ← okOr .pending (cache child.1 child.2)
  okOr (.io "downcast") (downcast o)

def index (tls : List (Child T)) (i : Nat) : Except Stop (Child T) :=
  okOr (.panic "index out of bounds") tls[i]?

def forceDowncast (k : Kind) (o : Object (Kind.Target T)) : Except Stop (k.Target T) :=
  okOr (.panic "downcast") (o.downcast k)

/-! ## Translations -/

structure DirectTranslation (T : CrateTypes) (α β : Type) where
  requiredTranslations : List TranslationId
  childTranslations : α → List (Child T)
  finalize : α → TranslationCache T → Except Stop β

/-- The types that `MptTl` goes between: their tags, their objects, and the new annotation of a value. -/
structure MptTl (T : CrateTypes) (A B AnnA AnnB : Type) where
  entryTags : TranslationId
  annTags : TranslationId
  upcastValue : A → Object (Kind.Source T)
  upcastNode : TrieNode A AnnA → Object (Kind.Source T)
  downcastValue : Object (Kind.Target T) → Option B
  downcastNode : Object (Kind.Target T) → Option (TrieNode B AnnB)
  fromValue : B → AnnB

namespace MptTl

variable {A B AnnA AnnB : Type} [AddMonoid AnnB] (m : MptTl T A B AnnA AnnB)

def entryTl : TranslationId := m.entryTags

def selfTl : TranslationId :=
  ⟨nodeTag m.entryTags.source m.annTags.source, nodeTag m.entryTags.target m.annTags.target⟩

def childTranslations : TrieNode A AnnA → List (Child T)
  | .empty => []
  | .branch _ children => List.ofFn fun i => (m.selfTl, m.upcastNode (children i))
  | .extension _ _ child => [(m.selfTl, m.upcastNode child)]
  | .midBranchLeaf _ value child => [(m.entryTl, m.upcastValue value), (m.selfTl, m.upcastNode child)]
  | .leaf _ value => [(m.entryTl, m.upcastValue value)]

/-- The loop over the children of a branch, which go into an array of empty nodes. -/
def newChildren (tls : List (Child T)) (cache : TranslationCache T) :
    Except Stop (Fin 16 → TrieNode B AnnB) :=
  (tls.zip (List.finRange 16)).foldlM
    (fun children x => do
      let newChild ← resolve m.downcastNode cache x.1
      return Function.update children x.2 newChild)
    fun _ => .empty

def finalize (source : TrieNode A AnnA) (cache : TranslationCache T) : Except Stop (TrieNode B AnnB) :=
  let tls := m.childTranslations source
  match source with
  | .empty => return .empty
  | .branch _ _ => do
    let children ← m.newChildren tls cache
    return .branch ((List.ofFn children).foldl (fun acc x => acc + x.ann) 0) children
  | .extension _ compressedPath _ => do
    let child ← resolve m.downcastNode cache (← index tls 0)
    return .extension child.ann compressedPath child
  | .leaf _ _ => do
    let value ← resolve m.downcastValue cache (← index tls 0)
    return .leaf (m.fromValue value) value
  | .midBranchLeaf _ _ _ => do
    let value ← resolve m.downcastValue cache (← index tls 0)
    let child ← resolve m.downcastNode cache (← index tls 1)
    return .midBranchLeaf (m.fromValue value + child.ann) value child

def node : DirectTranslation T (TrieNode A AnnA) (TrieNode B AnnB) where
  requiredTranslations := [m.entryTl, m.selfTl]
  childTranslations := m.childTranslations
  finalize := m.finalize

def mpt : DirectTranslation T (MerklePatriciaTrie A AnnA) (MerklePatriciaTrie B AnnB) where
  requiredTranslations := [m.selfTl]
  childTranslations source := [(m.selfTl, m.upcastNode source.root)]
  finalize source cache := do
    let tls := [(m.selfTl, m.upcastNode source.root)]
    return ⟨← resolve m.downcastNode cache (← index tls 0)⟩

end MptTl

def identityTl (α : Type) : DirectTranslation T α α where
  requiredTranslations := []
  childTranslations _ := []
  finalize source _ := .ok source

/-! ### The ledger state -/

namespace LedgerStateTl

def childTranslations (source : LedgerState8 T) : List (Child T) :=
  [(Kind.ledgerParameters.id, ⟨.ledgerParameters, source.parameters⟩),
    (Kind.bridgeReceivingMpt.id, ⟨.bridgeReceivingMpt, source.bridgeReceiving⟩),
    (Kind.contractMpt.id, ⟨.contractMpt, source.contract⟩)]

def finalize (C : LedgerCrates T) (source : LedgerState8 T) (cache : TranslationCache T) :
    Except Stop (LedgerState9 T) := do
  let parameters ← okOr .pending
    (cache Kind.ledgerParameters.id ⟨.ledgerParameters, source.parameters⟩)
  let bridgeRecvMpt ← okOr .pending
    (cache Kind.bridgeReceivingMpt.id ⟨.bridgeReceivingMpt, source.bridgeReceiving⟩)
  let contractMpt ← okOr .pending (cache Kind.contractMpt.id ⟨.contractMpt, source.contract⟩)
  return {
    networkId := source.networkId
    parameters := ← forceDowncast .ledgerParameters parameters
    lockedPool := source.lockedPool
    bridgeReceiving := ← forceDowncast .bridgeReceivingMpt bridgeRecvMpt
    reservePool := source.reservePool
    blockRewardPool := source.blockRewardPool
    unclaimedBlockRewards := ← recast C .unclaimedBlockRewards source.unclaimedBlockRewards
    treasury := ← recast C .treasury source.treasury
    zswap := ← recast C .zswap source.zswap
    contract := ← forceDowncast .contractMpt contractMpt
    utxo := ← recast C .utxo source.utxo
    replayProtection := ← recast C .replayProtection source.replayProtection
    dust := ← recast C .dust source.dust }

end LedgerStateTl

def ledgerStateTl (C : LedgerCrates T) : DirectTranslation T (LedgerState8 T) (LedgerState9 T) where
  requiredTranslations := [Kind.ledgerParameters.id, Kind.bridgeReceivingMpt.id, Kind.contractMpt.id]
  childTranslations := LedgerStateTl.childTranslations
  finalize := LedgerStateTl.finalize C

/-! ### Its parameters -/

/-- What is new in version 9 gets the initial values. -/
def LedgerParametersTl.finalize (C : LedgerCrates T) (source : LedgerParameters8 T) :
    Except Stop (LedgerParameters9 T) := do
  return {
    costModel := {
      runtimeCostModel := ← recastBase C .runtimeCostModel source.costModel.runtimeCostModel
      baselineCost := ← recastBase C .baselineCost source.costModel.baselineCost
      validationFactor := C.initialParameters.costModel.validationFactor
      guaranteedFactor := C.initialParameters.costModel.guaranteedFactor
      fallibleFactor := C.initialParameters.costModel.fallibleFactor }
    limits := {
      transactionByteLimit := source.limits.transactionByteLimit
      timeToDismissPerByte := source.limits.timeToDismissPerByte
      minTimeToDismiss := source.limits.minTimeToDismiss
      blockLimits := source.limits.blockLimits
      blockWithdrawalMinimumMultiple := source.limits.blockWithdrawalMinimumMultiple
      maxContractMetadataSize := C.initialParameters.limits.maxContractMetadataSize }
    dust := ← recastBase C .dustParameters source.dust
    feePrices := ← recastBase C .feePrices source.feePrices
    globalTtl := source.globalTtl
    costDimensionMinRatio := source.costDimensionMinRatio
    priceAdjustmentAParameter := source.priceAdjustmentAParameter
    cardanoToMidnightBridgeFeeBasisPoints := source.cardanoToMidnightBridgeFeeBasisPoints
    cToMBridgeMinAmount := source.cToMBridgeMinAmount
    minBlockPrice := C.initialParameters.minBlockPrice }

def ledgerParametersTl (C : LedgerCrates T) :
    DirectTranslation T (LedgerParameters8 T) (LedgerParameters9 T) where
  requiredTranslations := []
  childTranslations _ := []
  finalize source _ := LedgerParametersTl.finalize C source

/-! ### Contracts -/

/-- The old key stays in its slot; the new ones are empty. -/
def translateContractOperation (source : ContractOperation8 T) : ContractOperation9 T :=
  { ContractOperation9.new none none with v2 := source.v2 }

namespace ContractStateTl

def operations (source : HashMap EntryPointBuf (ContractOperation8 T)) :
    HashMap EntryPointBuf (ContractOperation9 T) :=
  source.entries.foldl (fun operations entry => operations.insert entry.1 (translateContractOperation entry.2))
    .empty

def maintenanceAuthority (source : ContractMaintenanceAuthority T.VerifyingKey) :
    ContractMaintenanceAuthority (ContractMaintenanceVerifyingKey T) where
  committee := source.committee.map .schnorr
  threshold := source.threshold
  counter := source.counter

def finalize (C : LedgerCrates T) (source : ContractState8 T) : Except Stop (ContractState9 T) := do
  return {
    data := ← recast C .chargedState source.data
    operations := operations source.operations
    maintenanceAuthority := maintenanceAuthority source.maintenanceAuthority
    balance := ← recast C .balance source.balance }

end ContractStateTl

def contractStateTl (C : LedgerCrates T) : DirectTranslation T (ContractState8 T) (ContractState9 T) where
  requiredTranslations := []
  childTranslations _ := []
  finalize source _ := ContractStateTl.finalize C source

/-! ### The table -/

def contractMptTl (C : LedgerCrates T) :
    MptTl T (ContractState8 T) (ContractState9 T) T.NightAnn8 T.NightAnn9 where
  entryTags := ⟨"contract-state[v6]", "contract-state[v8]"⟩
  annTags := ⟨"night-annotation", "night-annotation"⟩
  upcastValue c := ⟨.contractState, c⟩
  upcastNode n := ⟨.contractNode, n⟩
  downcastValue := Object.downcast .contractState
  downcastNode := Object.downcast .contractNode
  fromValue := C.contractAnn

def bridgeReceivingMptTl (C : LedgerCrates T) : MptTl T Nat Nat T.SizeAnn T.NightAnn9 where
  entryTags := ⟨"u128", "u128"⟩
  annTags := ⟨"size-annotation", "night-annotation"⟩
  upcastValue v := ⟨.u128, v⟩
  upcastNode n := ⟨.bridgeReceivingNode, n⟩
  downcastValue := Object.downcast .u128
  downcastNode := Object.downcast .bridgeReceivingNode
  fromValue := C.amountAnn

/-- The translation behind each entry of the table. -/
def translation (C : LedgerCrates T) : (k : Kind) → DirectTranslation T (k.Source T) (k.Target T)
  | .ledgerState => ledgerStateTl C
  | .ledgerParameters => ledgerParametersTl C
  | .contractState => contractStateTl C
  | .contractMpt => (contractMptTl C).mpt
  | .contractNode => (contractMptTl C).node
  | .u128 => identityTl Nat
  | .bridgeReceivingMpt => (bridgeReceivingMptTl C).mpt
  | .bridgeReceivingNode => (bridgeReceivingMptTl C).node

/-- What the driver calls: an object is given to the translation under its id, at that translation's type. -/
def rules (C : LedgerCrates T) :
    Translation.Rules TranslationId (Object (Kind.Source T)) (Object (Kind.Target T)) Stop where
  children id o :=
    match table.lookup id with
    | none => []
    | some k =>
      match o.downcast k with
      | none => []
      | some source => (translation C k).childTranslations source
  finalize id o cache := do
    let k ← okOr (.io "no translation") (table.lookup id)
    let source ← okOr (.io "downcast") (o.downcast k)
    let target ← (translation C k).finalize source cache
    return ⟨k, target⟩

end MidnightNode.StateTranslation
