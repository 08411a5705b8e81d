import Mathlib
import MidnightNode.Ledger.StateTranslation

/-!
# What the translation of a ledger state keeps

`Preserved` says of two ledger states what must be the same in both: pools, stored parts, paths and values of
the two tries. Every result that the driver can find for a state is such a state, wherever it was stopped and
went on, and the driver can always go on to a result.
-/

namespace MidnightNode.StateTranslation
open Fallible Translation

variable {T : CrateTypes} {C : LedgerCrates T}

/-- What the ledger and storage crates document: the parts read again have the same tag in both versions, a
stored object is found under its key, and bytes are read as what was written. -/
structure LedgerCrates.Lawful (C : LedgerCrates T) : Prop where
  storedTag : ∀ part, C.storedTag8 part = C.storedTag9 part
  baseTag : ∀ part, C.baseTag8 part = C.baseTag9 part
  getLazy : ∀ key, C.getLazy key = .ok key
  deserialize : ∀ part a, ∃ buf, C.serialize part a = .ok buf ∧ C.deserialize part buf = .ok a

theorem LedgerCrates.Lawful.recast_eq (hC : C.Lawful) (part : StoredPart) (a : T.ArenaKey) :
    recast C part a = .ok a := by
  rw [recast, if_neg (not_not_intro (hC.storedTag part)), hC.getLazy]
  rfl

theorem LedgerCrates.Lawful.recastBase_eq (hC : C.Lawful) (part : BasePart) (a : T.Base part) :
    recastBase C part a = .ok a := by
  obtain ⟨buf, hbuf, ha⟩ := hC.deserialize part a
  rw [recastBase, if_neg (not_not_intro (hC.baseTag part)), hbuf]
  exact congrArg (Except.mapError Stop.io) ha

/-! ## What is preserved -/

structure ContractPreserved (source : ContractState8 T) (target : ContractState9 T) : Prop where
  data : target.data = source.data
  balance : target.balance = source.balance
  operations : ∀ entryPoint, target.operations.get entryPoint =
    (source.operations.get entryPoint).map fun op => ⟨op.v2, none, none⟩
  committee : target.maintenanceAuthority.committee =
    source.maintenanceAuthority.committee.map .schnorr
  threshold : target.maintenanceAuthority.threshold = source.maintenanceAuthority.threshold
  counter : target.maintenanceAuthority.counter = source.maintenanceAuthority.counter

structure ParametersPreserved (source : LedgerParameters8 T) (target : LedgerParameters9 T) : Prop where
  runtimeCostModel : target.costModel.runtimeCostModel = source.costModel.runtimeCostModel
  baselineCost : target.costModel.baselineCost = source.costModel.baselineCost
  limits : target.limits.toTransactionLimits8 = source.limits
  dust : target.dust = source.dust
  feePrices : target.feePrices = source.feePrices
  globalTtl : target.globalTtl = source.globalTtl
  costDimensionMinRatio : target.costDimensionMinRatio = source.costDimensionMinRatio
  priceAdjustmentAParameter : target.priceAdjustmentAParameter = source.priceAdjustmentAParameter
  cardanoToMidnightBridgeFeeBasisPoints : target.cardanoToMidnightBridgeFeeBasisPoints =
    source.cardanoToMidnightBridgeFeeBasisPoints
  cToMBridgeMinAmount : target.cToMBridgeMinAmount = source.cToMBridgeMinAmount

/-- A trie of the same shape, with the same paths to values that correspond, and annotated from its leaves. -/
structure TriePreserved {A B AnnA AnnB : Type} [AddMonoid AnnB] (R : A → B → Prop) (fromValue : B → AnnB)
    (source : TrieNode A AnnA) (target : TrieNode B AnnB) : Prop where
  shape : target.shape = source.shape
  entries : List.Forall₂ (fun e e' => e'.1 = e.1 ∧ R e.2 e'.2) source.entries target.entries
  annotated : target.Annotated fromValue

structure Preserved (C : LedgerCrates T) (source : LedgerState8 T) (target : LedgerState9 T) : Prop where
  networkId : target.networkId = source.networkId
  lockedPool : target.lockedPool = source.lockedPool
  reservePool : target.reservePool = source.reservePool
  blockRewardPool : target.blockRewardPool = source.blockRewardPool
  unclaimedBlockRewards : target.unclaimedBlockRewards = source.unclaimedBlockRewards
  treasury : target.treasury = source.treasury
  zswap : target.zswap = source.zswap
  utxo : target.utxo = source.utxo
  replayProtection : target.replayProtection = source.replayProtection
  dust : target.dust = source.dust
  parameters : ParametersPreserved source.parameters target.parameters
  contract : TriePreserved ContractPreserved C.contractAnn source.contract.root target.contract.root
  bridgeReceiving : TriePreserved (· = ·) C.amountAnn source.bridgeReceiving.root
    target.bridgeReceiving.root

/-! ## The specified translations -/

def translateContract (source : ContractState8 T) : ContractState9 T where
  data := source.data
  operations := ContractStateTl.operations source.operations
  maintenanceAuthority := ContractStateTl.maintenanceAuthority source.maintenanceAuthority
  balance := source.balance

def translateParameters (C : LedgerCrates T) (source : LedgerParameters8 T) : LedgerParameters9 T where
  costModel := {
    runtimeCostModel := source.costModel.runtimeCostModel
    baselineCost := source.costModel.baselineCost
    validationFactor := C.initialParameters.costModel.validationFactor
    guaranteedFactor := C.initialParameters.costModel.guaranteedFactor
    fallibleFactor := C.initialParameters.costModel.fallibleFactor }
  limits := { source.limits with
    maxContractMetadataSize := C.initialParameters.limits.maxContractMetadataSize }
  dust := source.dust
  feePrices := source.feePrices
  globalTtl := source.globalTtl
  costDimensionMinRatio := source.costDimensionMinRatio
  priceAdjustmentAParameter := source.priceAdjustmentAParameter
  cardanoToMidnightBridgeFeeBasisPoints := source.cardanoToMidnightBridgeFeeBasisPoints
  cToMBridgeMinAmount := source.cToMBridgeMinAmount
  minBlockPrice := C.initialParameters.minBlockPrice

def translateLedgerState (C : LedgerCrates T) (source : LedgerState8 T) : LedgerState9 T where
  networkId := source.networkId
  parameters := translateParameters C source.parameters
  lockedPool := source.lockedPool
  bridgeReceiving := ⟨source.bridgeReceiving.root.translate id C.amountAnn⟩
  reservePool := source.reservePool
  blockRewardPool := source.blockRewardPool
  unclaimedBlockRewards := source.unclaimedBlockRewards
  treasury := source.treasury
  zswap := source.zswap
  contract := ⟨source.contract.root.translate translateContract C.contractAnn⟩
  utxo := source.utxo
  replayProtection := source.replayProtection
  dust := source.dust

def translate (C : LedgerCrates T) : (k : Kind) → k.Source T → k.Target T
  | .ledgerState, source => translateLedgerState C source
  | .ledgerParameters, source => translateParameters C source
  | .contractState, source => translateContract source
  | .contractMpt, source => ⟨source.root.translate translateContract C.contractAnn⟩
  | .contractNode, source => source.translate translateContract C.contractAnn
  | .u128, source => source
  | .bridgeReceivingMpt, source => ⟨source.root.translate id C.amountAnn⟩
  | .bridgeReceivingNode, source => source.translate id C.amountAnn

/-- What is to be found in the cache for an object. -/
def spec (C : LedgerCrates T) (id : TranslationId) (o : Object (Kind.Source T)) :
    Option (Object (Kind.Target T)) :=
  (table.lookup id).bind fun k => (o.downcast k).map fun source => ⟨k, translate C k source⟩

/-! ### It preserves ledger states -/

theorem HashMap.get_foldl_insert {κ α β : Type} [DecidableEq κ] (f : α → β) {l : List (κ × α)}
    (hnodup : (l.map Prod.fst).Nodup) (m : HashMap κ β) (k : κ) :
    (l.foldl (fun m e => m.insert e.1 (f e.2)) m).get k = ((l.lookup k).map f).or (m.get k) := by
  induction l generalizing m with
  | nil => rfl
  | cons e l ih =>
    obtain ⟨he, hnodup⟩ := List.nodup_cons.mp hnodup
    rw [List.foldl_cons, ih hnodup, List.lookup_cons]
    rcases eq_or_ne k e.1 with rfl | hne
    · -- the key is not met again
      have hnone : l.lookup e.1 = none := by
        refine Option.eq_none_iff_forall_ne_some.mpr fun a ha => he ?_
        exact List.mem_map.mpr ⟨_, KeyedList.mem_of_lookup ha, rfl⟩
      rw [hnone, beq_self_eq_true]
      exact KeyedList.lookup_insertKey_self e.1 (f e.2) m.entries
    · rw [beq_false_of_ne hne]
      exact congrArg (Option.or _) (KeyedList.lookup_insertKey_ne hne (f e.2) m.entries)

theorem contractPreserved_translate (source : ContractState8 T) :
    ContractPreserved source (translateContract source) where
  data := rfl
  balance := rfl
  operations entryPoint :=
    (HashMap.get_foldl_insert translateContractOperation source.operations.nodup .empty entryPoint).trans
      (Option.or_none ..)
  committee := rfl
  threshold := rfl
  counter := rfl

/-- A trie translated value by value keeps its paths. -/
theorem triePreserved_translate {A B AnnA AnnB : Type} [AddMonoid AnnB] {R : A → B → Prop}
    {fromValue : B → AnnB} {f : A → B} (hf : ∀ a, R a (f a)) (node : TrieNode A AnnA) :
    TriePreserved R fromValue node (node.translate f fromValue) where
  shape := node.shape_translate
  entries := by
    rw [node.entries_translate, List.forall₂_map_right_iff, List.forall₂_same]
    exact fun e _ => ⟨rfl, hf e.2⟩
  annotated := node.annotated_translate

/-- The specified translation keeps what `Preserved` lists. -/
theorem preserved_translate (source : LedgerState8 T) :
    Preserved C source (translateLedgerState C source) where
  networkId := rfl
  lockedPool := rfl
  reservePool := rfl
  blockRewardPool := rfl
  unclaimedBlockRewards := rfl
  treasury := rfl
  zswap := rfl
  utxo := rfl
  replayProtection := rfl
  dust := rfl
  parameters := ⟨rfl, rfl, rfl, rfl, rfl, rfl, rfl, rfl, rfl, rfl⟩
  contract := triePreserved_translate contractPreserved_translate source.contract.root
  bridgeReceiving := triePreserved_translate (fun _ => rfl) source.bridgeReceiving.root

/-! ## The table follows the specification -/

@[simp] theorem Object.downcast_mk {F : Kind → Type} (k : Kind) (a : F k) :
    Object.downcast k (⟨k, a⟩ : Object F) = some a :=
  dif_pos rfl

theorem Object.eq_of_downcast {F : Kind → Type} {o : Object F} {a : F k} (h : o.downcast k = some a) :
    o = ⟨k, a⟩ := by
  obtain ⟨k', a'⟩ := o
  unfold downcast at h
  split at h
  case isTrue heq =>
    cases heq
    cases h
    rfl
  case isFalse => cases h

/-- An entry of the table stands under the identifier of its kind. -/
theorem eq_id_of_lookup {id : TranslationId} (h : table.lookup id = some k) : id = k.id := by
  have hmem := KeyedList.mem_of_lookup h
  simp only [table, List.mem_cons, Prod.mk.injEq, List.not_mem_nil, or_false] at hmem
  rcases hmem with ⟨rfl, rfl⟩ | ⟨rfl, rfl⟩ | ⟨rfl, rfl⟩ | ⟨rfl, rfl⟩ | ⟨rfl, rfl⟩ | ⟨rfl, rfl⟩ |
    ⟨rfl, rfl⟩ | ⟨rfl, rfl⟩ <;> rfl

theorem spec_id (k : Kind) (source : k.Source T) :
    spec C k.id ⟨k, source⟩ = some ⟨k, translate C k source⟩ := by
  rw [spec, table_lookup_id, Option.bind_some, Object.downcast_mk, Option.map_some]

theorem of_spec {id : TranslationId} (h : spec C id o = some d) :
    ∃ k source, id = k.id ∧ o = ⟨k, source⟩ ∧ d = ⟨k, translate C k source⟩ := by
  obtain ⟨k, hk, h⟩ := Option.bind_eq_some_iff.mp h
  obtain ⟨source, hsource, rfl⟩ := Option.map_eq_some_iff.mp h
  exact ⟨k, source, eq_id_of_lookup hk, Object.eq_of_downcast hsource, rfl⟩

theorem rules_children (k : Kind) (source : k.Source T) :
    (rules C).children k.id ⟨k, source⟩ = (translation C k).childTranslations source := by
  simp only [rules, table_lookup_id, Object.downcast_mk]

theorem rules_finalize (k : Kind) (source : k.Source T) (cache : TranslationCache T) :
    (rules C).finalize k.id ⟨k, source⟩ cache =
      (translation C k).finalize source cache >>= fun target => .ok ⟨k, target⟩ := by
  simp only [rules, table_lookup_id, okOr, bind, Except.bind, Object.downcast_mk]
  rfl

/-- In a sound cache a child that is found is found as its translation. -/
theorem resolve_eq {β : Type} {downcast : Object (Kind.Target T) → Option β} {cache : TranslationCache T}
    {c : Child T} {o : Object (Kind.Target T)} {b : β} (hsound : Sound (spec C) cache)
    (hc : (cache c.1 c.2).isSome) (ho : spec C c.1 c.2 = some o) (hb : downcast o = some b) :
    resolve downcast cache c = .ok b := by
  obtain ⟨o', ho'⟩ := Option.isSome_iff_exists.mp hc
  obtain rfl : o = o' := Option.some.inj (ho.symm.trans (hsound ho'))
  rw [resolve, ho']
  exact congrArg (okOr _) hb

/-! ### Tries -/

namespace MptTl

variable {A B AnnA AnnB : Type} [AddMonoid AnnB] {m : MptTl T A B AnnA AnnB} {f : A → B}
  {cache : TranslationCache T}

/-- The table has the values of a trie and its nodes. -/
structure Registered (C : LedgerCrates T) (m : MptTl T A B AnnA AnnB) (f : A → B) : Prop where
  value : ∀ a, ∃ o, spec C m.entryTl (m.upcastValue a) = some o ∧ m.downcastValue o = some (f a)
  node : ∀ n, ∃ o, spec C m.selfTl (m.upcastNode n) = some o ∧
    m.downcastNode o = some (n.translate f m.fromValue)
  children : ∀ n, (rules C).children m.selfTl (m.upcastNode n) = m.childTranslations n

omit [AddMonoid AnnB] in
theorem newChildren_eq (h : ∀ i, resolve m.downcastNode cache (g i) = .ok (children i)) :
    m.newChildren (List.ofFn g) cache = .ok children := by
  have hzip : (List.ofFn g).zip (List.finRange 16) = (List.finRange 16).map fun i => (g i, i) := by
    rw [List.ofFn_eq_map]
    conv_lhs => rw [← List.map_id (List.finRange 16), List.map_map]
    exact List.zip_map'
  rw [newChildren, hzip, List.foldlM_map]
  refine (foldlM_update (fun i _ => h i) _).trans (congrArg Except.ok ?_)
  funext i
  exact if_pos (List.mem_finRange i)

namespace Registered

variable (hm : m.Registered C f)
include hm

theorem resolve_value (hsound : Sound (spec C) cache) (h : (cache m.entryTl (m.upcastValue a)).isSome) :
    resolve m.downcastValue cache (m.entryTl, m.upcastValue a) = .ok (f a) := by
  obtain ⟨o, ho, ha⟩ := hm.value a
  exact resolve_eq hsound h ho ha

theorem resolve_node (hsound : Sound (spec C) cache) (h : (cache m.selfTl (m.upcastNode n)).isSome) :
    resolve m.downcastNode cache (m.selfTl, m.upcastNode n) = .ok (n.translate f m.fromValue) := by
  obtain ⟨o, ho, hn⟩ := hm.node n
  exact resolve_eq hsound h ho hn

/-- A node is put together from the translations of its value and its children. -/
theorem finalize_eq (hsound : Sound (spec C) cache) {n : TrieNode A AnnA}
    (h : ∀ c ∈ m.childTranslations n, (cache c.1 c.2).isSome) :
    m.finalize n cache = .ok (n.translate f m.fromValue) := by
  cases n with
  | empty => rfl
  | leaf _ value =>
    have hvalue := hm.resolve_value hsound (h _ List.mem_cons_self)
    simp only [finalize, childTranslations, index, List.getElem?_cons_zero, okOr, bind, Except.bind, hvalue]
    rfl
  | branch ann children =>
    have hchildren : m.newChildren (m.childTranslations (.branch ann children)) cache =
        .ok fun i => (children i).translate f m.fromValue :=
      newChildren_eq fun i => hm.resolve_node hsound (h _ (List.mem_ofFn.mpr ⟨i, rfl⟩))
    simp only [finalize, bind, Except.bind, hchildren]
    rfl
  | extension _ _ child =>
    have hchild := hm.resolve_node hsound (h _ List.mem_cons_self)
    simp only [finalize, childTranslations, index, List.getElem?_cons_zero, okOr, bind, Except.bind, hchild]
    rfl
  | midBranchLeaf _ value child =>
    have hvalue := hm.resolve_value hsound (h _ List.mem_cons_self)
    have hchild := hm.resolve_node hsound (h _ (List.mem_cons_of_mem _ List.mem_cons_self))
    simp only [finalize, childTranslations, index, List.getElem?_cons_zero, List.getElem?_cons_succ, okOr,
      bind, Except.bind, hvalue, hchild]
    rfl

theorem mpt_finalize_eq (hsound : Sound (spec C) cache)
    (h : ∀ c ∈ m.mpt.childTranslations trie, (cache c.1 c.2).isSome) :
    m.mpt.finalize trie cache = .ok ⟨trie.root.translate f m.fromValue⟩ := by
  have hroot := hm.resolve_node hsound (h _ List.mem_cons_self)
  simp only [mpt, index, List.getElem?_cons_zero, okOr, bind, Except.bind, hroot]
  rfl

/-- The driver gets to every node: the induction is over the trie, bottom up. -/
theorem reaches_node (hr : Meets (rules C) (spec C))
    (hvalue : ∀ a, Reaches (rules C) (spec C) (m.entryTl, m.upcastValue a)) (n : TrieNode A AnnA) :
    Reaches (rules C) (spec C) (m.selfTl, m.upcastNode n) := by
  have step : ∀ n, (∀ c ∈ m.childTranslations n, Reaches (rules C) (spec C) c) →
      Reaches (rules C) (spec C) (m.selfTl, m.upcastNode n) := by
    intro n h
    obtain ⟨o, ho, -⟩ := hm.node n
    rw [← hm.children] at h
    exact reaches_of_children hr (Option.isSome_of_eq_some ho) h
  induction n with
  | empty => exact step _ fun _ hc => nomatch hc
  | leaf _ value => exact step _ (List.forall_mem_singleton.mpr (hvalue value))
  | branch _ children ih =>
    refine step _ fun c hc => ?_
    obtain ⟨i, rfl⟩ := List.mem_ofFn.mp hc
    exact ih i
  | extension _ _ child ih => exact step _ (List.forall_mem_singleton.mpr ih)
  | midBranchLeaf _ value child ih =>
    exact step _ (List.forall_mem_cons.mpr ⟨hvalue value, List.forall_mem_singleton.mpr ih⟩)

end Registered

end MptTl

/-! ### The whole table -/

theorem contractMptTl_registered : (contractMptTl C).Registered C translateContract where
  value a := ⟨_, spec_id .contractState a, rfl⟩
  node n := ⟨_, spec_id .contractNode n, rfl⟩
  children n := rules_children .contractNode n

theorem bridgeReceivingMptTl_registered : (bridgeReceivingMptTl C).Registered C id where
  value a := ⟨_, spec_id .u128 a, rfl⟩
  node n := ⟨_, spec_id .bridgeReceivingNode n, rfl⟩
  children n := rules_children .bridgeReceivingNode n

theorem LedgerParametersTl.finalize_eq (hC : C.Lawful) (source : LedgerParameters8 T) :
    finalize C source = .ok (translateParameters C source) := by
  simp only [finalize, hC.recastBase_eq, bind, Except.bind]
  rfl

theorem ContractStateTl.finalize_eq (hC : C.Lawful) (source : ContractState8 T) :
    finalize C source = .ok (translateContract source) := by
  simp only [finalize, hC.recast_eq, bind, Except.bind]
  rfl

theorem LedgerStateTl.finalize_eq (hC : C.Lawful) {source : LedgerState8 T} {cache : TranslationCache T}
    (hsound : Sound (spec C) cache) (h : ∀ c ∈ childTranslations source, (cache c.1 c.2).isSome) :
    finalize C source cache = .ok (translateLedgerState C source) := by
  have found : ∀ k (a : k.Source T), (cache k.id ⟨k, a⟩).isSome →
      cache k.id ⟨k, a⟩ = some ⟨k, translate C k a⟩ := by
    intro k a hsome
    obtain ⟨o, ho⟩ := Option.isSome_iff_exists.mp hsome
    rw [ho, ← hsound ho, spec_id]
  simp only [childTranslations, List.forall_mem_cons] at h
  obtain ⟨hparameters, hbridge, hcontract, -⟩ := h
  simp only [finalize, found _ _ hparameters, found _ _ hbridge, found _ _ hcontract, okOr, forceDowncast,
    Object.downcast_mk, hC.recast_eq, bind, Except.bind]
  rfl

/-- With its children in the cache, each kind of object is finalised as specified. -/
theorem translation_finalize_eq (hC : C.Lawful) {k : Kind} {source : k.Source T} {cache : TranslationCache T}
    (hsound : Sound (spec C) cache)
    (h : ∀ c ∈ (translation C k).childTranslations source, (cache c.1 c.2).isSome) :
    (translation C k).finalize source cache = .ok (translate C k source) := by
  cases k with
  | ledgerState => exact LedgerStateTl.finalize_eq hC hsound h
  | ledgerParameters => exact LedgerParametersTl.finalize_eq hC source
  | contractState => exact ContractStateTl.finalize_eq hC source
  | contractMpt => exact contractMptTl_registered.mpt_finalize_eq hsound h
  | contractNode => exact contractMptTl_registered.finalize_eq hsound h
  | u128 => rfl
  | bridgeReceivingMpt => exact bridgeReceivingMptTl_registered.mpt_finalize_eq hsound h
  | bridgeReceivingNode => exact bridgeReceivingMptTl_registered.finalize_eq hsound h

/-- The table does to every object what `spec` says, and nothing to an object without an entry. -/
theorem rules_meets (hC : C.Lawful) : Meets (rules C) (spec C) := by
  intro cache id o dst hsound hchildren
  constructor
  · intro h
    simp only [rules] at h
    obtain ⟨k, hk, h⟩ := of_bind h
    obtain ⟨source, hsource, h⟩ := of_bind h
    obtain ⟨target, htarget, h⟩ := of_bind h
    cases h
    obtain rfl := eq_id_of_lookup (of_okOr hk)
    obtain rfl := Object.eq_of_downcast (of_okOr hsource)
    rw [rules_children] at hchildren
    rw [translation_finalize_eq hC hsound hchildren] at htarget
    cases htarget
    exact spec_id k source
  · intro h
    obtain ⟨k, source, rfl, rfl, rfl⟩ := of_spec h
    rw [rules_children] at hchildren
    rw [rules_finalize, translation_finalize_eq hC hsound hchildren]
    rfl

/-- From every sound cache the driver gets to the result for any object. -/
theorem reaches (hC : C.Lawful) (k : Kind) (source : k.Source T) :
    Reaches (rules C) (spec C) (k.id, ⟨k, source⟩) := by
  have hr := rules_meets hC
  have step : ∀ k (a : k.Source T), (∀ c ∈ (translation C k).childTranslations a,
      Reaches (rules C) (spec C) c) → Reaches (rules C) (spec C) (k.id, ⟨k, a⟩) := by
    intro k a h
    rw [← rules_children] at h
    exact reaches_of_children hr (Option.isSome_of_eq_some (spec_id k a)) h
  have hleaf : ∀ k (a : k.Source T), (translation C k).childTranslations a = [] →
      Reaches (rules C) (spec C) (k.id, ⟨k, a⟩) :=
    fun k a h => step k a fun c hc => nomatch h ▸ hc
  have hcontractNode := contractMptTl_registered.reaches_node hr fun a => hleaf .contractState a rfl
  have hbridgeNode := bridgeReceivingMptTl_registered.reaches_node hr fun a => hleaf .u128 a rfl
  have hcontract : ∀ a, Reaches (rules C) (spec C) (Kind.contractMpt.id, ⟨.contractMpt, a⟩) :=
    fun a => step .contractMpt a (List.forall_mem_singleton.mpr (hcontractNode a.root))
  have hbridge : ∀ a, Reaches (rules C) (spec C) (Kind.bridgeReceivingMpt.id, ⟨.bridgeReceivingMpt, a⟩) :=
    fun a => step .bridgeReceivingMpt a (List.forall_mem_singleton.mpr (hbridgeNode a.root))
  cases k with
  | ledgerState =>
    refine step .ledgerState source ?_
    exact List.forall_mem_cons.mpr ⟨hleaf .ledgerParameters source.parameters rfl,
      List.forall_mem_cons.mpr ⟨hbridge source.bridgeReceiving,
        List.forall_mem_singleton.mpr (hcontract source.contract)⟩⟩
  | ledgerParameters => exact hleaf .ledgerParameters source rfl
  | contractState => exact hleaf .contractState source rfl
  | contractMpt => exact hcontract source
  | contractNode => exact hcontractNode source
  | u128 => exact hleaf .u128 source rfl
  | bridgeReceivingMpt => exact hbridge source
  | bridgeReceivingNode => exact hbridgeNode source

end MidnightNode.StateTranslation
