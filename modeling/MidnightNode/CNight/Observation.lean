import MidnightNode.Lib.Bytes
import MidnightNode.Lib.SortedSlice

/-!
# Cardano positions and observed UTXOs

The data the cNIGHT observation moves around (`primitives/cnight-observation`): positions on the
Cardano chain, the four kinds of observed events, and the order in which validators must agree to
process them. Only `(block_number, tx_index_in_block)` of a position takes part in comparisons;
block hash and timestamp ride along, which is why `≤` is a preorder and not an order. `key` is the
part that is compared, in a linear order.
-/

namespace MidnightNode.CNight

abbrev McBlockHash := Bytes 32
abbrev McTxHash := Bytes 32
abbrev CardanoRewardAddressBytes := Bytes 29

/-- `i32::MAX`, the largest value that survives the casts on the SQL bind path. -/
def i32Max : Nat := 2147483647

structure DustPublicKeyBytes where
  data : List UInt8
  length_le : data.length ≤ 33
deriving DecidableEq, Repr

/-- `DustPublicKeyBytes::try_from`. -/
def DustPublicKeyBytes.ofList? (l : List UInt8) : Option DustPublicKeyBytes :=
  if h : l.length ≤ 33 then some ⟨l, h⟩ else none

/-! ## Positions -/

structure CardanoPosition where
  blockHash : McBlockHash
  blockNumber : Nat
  blockTimestamp : Int
  txIndexInBlock : Nat
deriving DecidableEq, Repr

namespace CardanoPosition

/-- The part of a position that comparisons look at. -/
def key (p : CardanoPosition) : ℕ ×ₗ ℕ := toLex (p.blockNumber, p.txIndexInBlock)

def partialCmp (p q : CardanoPosition) : Option Ordering :=
  match some (compare p.blockNumber q.blockNumber) with
  | some .eq => some (compare p.txIndexInBlock q.txIndexInBlock)
  | ord => ord

instance : LT CardanoPosition := ⟨fun p q => p.partialCmp q = some .lt⟩
instance : LE CardanoPosition := ⟨fun p q => p.partialCmp q = some .lt ∨ p.partialCmp q = some .eq⟩

instance : DecidableLT CardanoPosition := fun p q =>
  inferInstanceAs (Decidable (p.partialCmp q = some .lt))
instance : DecidableLE CardanoPosition := fun p q =>
  inferInstanceAs (Decidable (p.partialCmp q = some .lt ∨ p.partialCmp q = some .eq))

/-- The next transaction index of the same block; the index is a `u32`. -/
def increment (p : CardanoPosition) : CardanoPosition :=
  { p with txIndexInBlock := (p.txIndexInBlock + 1) % 2 ^ 32 }

def minForBlock (blockNumber : Nat) : CardanoPosition :=
  { blockHash := .fill 32 0, blockNumber, blockTimestamp := 0, txIndexInBlock := 0 }

def maxForBlock (blockNumber : Nat) : CardanoPosition :=
  { blockHash := .fill 32 0, blockNumber, blockTimestamp := 0, txIndexInBlock := i32Max }

theorem partialCmp_eq (p q : CardanoPosition) :
    p.partialCmp q = some ((compare p.blockNumber q.blockNumber).then
      (compare p.txIndexInBlock q.txIndexInBlock)) := by
  unfold partialCmp
  cases h : compare p.blockNumber q.blockNumber <;> simp

theorem key_le_iff {p q : CardanoPosition} : p.key ≤ q.key ↔
    p.blockNumber < q.blockNumber ∨
      p.blockNumber = q.blockNumber ∧ p.txIndexInBlock ≤ q.txIndexInBlock :=
  Prod.Lex.toLex_le_toLex

theorem key_lt_iff {p q : CardanoPosition} : p.key < q.key ↔
    p.blockNumber < q.blockNumber ∨
      p.blockNumber = q.blockNumber ∧ p.txIndexInBlock < q.txIndexInBlock :=
  Prod.Lex.toLex_lt_toLex

theorem lt_iff_key {q : CardanoPosition} : p < q ↔ p.key < q.key := by
  change p.partialCmp q = some .lt ↔ _
  rw [partialCmp_eq, Option.some.injEq, Ordering.then_eq_lt, Nat.compare_eq_lt,
    Nat.compare_eq_eq, Nat.compare_eq_lt, key_lt_iff]

theorem le_iff_key {q : CardanoPosition} : p ≤ q ↔ p.key ≤ q.key := by
  change p.partialCmp q = some .lt ∨ p.partialCmp q = some .eq ↔ _
  rw [partialCmp_eq, Option.some.injEq, Option.some.injEq, Ordering.then_eq_lt,
    Ordering.then_eq_eq, Nat.compare_eq_lt, Nat.compare_eq_eq, Nat.compare_eq_lt,
    Nat.compare_eq_eq, key_le_iff]
  omega

theorem lt_key_increment {p q : CardanoPosition} (h : p.txIndexInBlock + 1 < 2 ^ 32) :
    q.key < p.increment.key ↔ q.key ≤ p.key := by
  rw [key_lt_iff, key_le_iff]
  simp only [increment, Nat.mod_eq_of_lt h]
  omega

theorem increment_key_le {p q : CardanoPosition} (h : p.txIndexInBlock + 1 < 2 ^ 32) :
    p.increment.key ≤ q.key ↔ p.key < q.key := by
  rw [← not_lt, lt_key_increment h, not_le]

theorem key_le_increment {p : CardanoPosition} (h : p.txIndexInBlock + 1 < 2 ^ 32) :
    p.key ≤ p.increment.key :=
  ((lt_key_increment h).mpr le_rfl).le

theorem increment_key_mono {p q : CardanoPosition} (hp : p.txIndexInBlock + 1 < 2 ^ 32)
    (hq : q.txIndexInBlock + 1 < 2 ^ 32) (h : p.key ≤ q.key) :
    p.increment.key ≤ q.increment.key := by
  rw [key_le_iff] at h ⊢
  simp only [increment, Nat.mod_eq_of_lt hp, Nat.mod_eq_of_lt hq]
  omega

end CardanoPosition

/-! ## Observed UTXOs -/

structure RegistrationData where
  cardanoRewardAddress : CardanoRewardAddressBytes
  dustPublicKey : DustPublicKeyBytes
deriving DecidableEq, Repr

structure DeregistrationData where
  cardanoRewardAddress : CardanoRewardAddressBytes
  dustPublicKey : DustPublicKeyBytes
deriving DecidableEq, Repr

structure CreateData where
  value : Nat
  owner : CardanoRewardAddressBytes
  utxoTxHash : McTxHash
  utxoTxIndex : UInt16
deriving DecidableEq, Repr

structure SpendData where
  value : Nat
  owner : CardanoRewardAddressBytes
  utxoTxHash : McTxHash
  utxoTxIndex : UInt16
  spendingTxHash : McTxHash
deriving DecidableEq, Repr

inductive ObservedUtxoData
  | registration (data : RegistrationData)
  | deregistration (data : DeregistrationData)
  | assetCreate (data : CreateData)
  | assetSpend (data : SpendData)
deriving DecidableEq, Repr

structure ObservedUtxoHeader where
  txPosition : CardanoPosition
  txHash : McTxHash
  utxoTxHash : McTxHash
  utxoIndex : UInt16
deriving DecidableEq, Repr

structure ObservedUtxo where
  header : ObservedUtxoHeader
  data : ObservedUtxoData
deriving DecidableEq, Repr

structure ObservedUtxos where
  start : CardanoPosition
  end_ : CardanoPosition
  utxos : List ObservedUtxo
deriving DecidableEq, Repr

structure CNightAddresses where
  mappingValidatorAddress : String
  authTokenAssetName : String
  cnightPolicyId : Bytes 28
  cnightAssetName : String
deriving DecidableEq, Repr

namespace ObservedUtxoHeader

def isCreate (h : ObservedUtxoHeader) : Bool := h.txHash == h.utxoTxHash

def partialCmp (a b : ObservedUtxoHeader) : Option Ordering :=
  match a.txPosition.partialCmp b.txPosition with
  | some .eq =>
    if a.isCreate && !b.isCreate then some .lt
    else if !a.isCreate && b.isCreate then some .gt
    else
      match some (compare a.utxoTxHash b.utxoTxHash) with
      | some .eq => some (compare a.utxoIndex b.utxoIndex)
      | ord => ord
  | ord => ord

/-- The comparison as a lexicographic one: position, creates before spends, hash, index. -/
def lexCmp : ObservedUtxoHeader → ObservedUtxoHeader → Ordering :=
  compareLex (compareOn (·.txPosition.blockNumber))
    (compareLex (compareOn (·.txPosition.txIndexInBlock))
      (compareLex (compareOn (!·.isCreate))
        (compareLex (compareOn (·.utxoTxHash)) (compareOn (·.utxoIndex)))))

instance : Std.TransCmp lexCmp := by unfold lexCmp; infer_instance

theorem partialCmp_eq (a b : ObservedUtxoHeader) : a.partialCmp b = some (lexCmp a b) := by
  unfold partialCmp lexCmp
  rw [CardanoPosition.partialCmp_eq]
  simp only [compareLex, compareOn]
  cases compare a.txPosition.blockNumber b.txPosition.blockNumber <;>
    cases compare a.txPosition.txIndexInBlock b.txPosition.txIndexInBlock <;>
    cases a.isCreate <;> cases b.isCreate <;>
    cases compare a.utxoTxHash b.utxoTxHash <;> rfl

theorem partialCmp_isSome (a b : ObservedUtxoHeader) : (a.partialCmp b).isSome := by
  rw [partialCmp_eq, Option.isSome_some]

end ObservedUtxoHeader

namespace ObservedUtxo

def position (u : ObservedUtxo) : CardanoPosition := u.header.txPosition

/-- What the position of an observed UTXO is compared by. -/
def key (u : ObservedUtxo) : ℕ ×ₗ ℕ := u.position.key

def blockNumber (u : ObservedUtxo) : Nat := u.position.blockNumber

/-- `Ord::cmp`; the header comparison it unwraps is always `Some`. -/
def cmp (u v : ObservedUtxo) : Ordering :=
  (u.header.partialCmp v.header).get (ObservedUtxoHeader.partialCmp_isSome ..)

theorem cmp_eq (u v : ObservedUtxo) : u.cmp v = ObservedUtxoHeader.lexCmp u.header v.header := by
  unfold cmp
  simp only [ObservedUtxoHeader.partialCmp_eq, Option.get_some]

/-- The order in which `sort` puts observed UTXOs. -/
def le (u v : ObservedUtxo) : Prop := (u.cmp v).isLE

instance : DecidableRel le := fun u v => inferInstanceAs (Decidable ((u.cmp v).isLE = true))

instance : IsTrans ObservedUtxo le where
  trans u v w huv hvw := by
    unfold le at *
    rw [cmp_eq] at *
    exact Std.TransCmp.isLE_trans huv hvw

instance : Std.Total le where
  total u v := by
    unfold le
    have hswap : v.cmp u = (u.cmp v).swap := by
      rw [cmp_eq, cmp_eq]
      exact Std.OrientedCmp.eq_swap
    rw [hswap]
    cases u.cmp v <;> simp

theorem le.key_le (h : le u v) : u.key ≤ v.key := by
  unfold le at h
  rw [cmp_eq] at h
  simp only [ObservedUtxoHeader.lexCmp, compareLex, compareOn] at h
  rw [Ordering.isLE_then_iff_or, Nat.compare_eq_lt, Nat.compare_eq_eq] at h
  refine CardanoPosition.key_le_iff.mpr (h.imp_right fun ⟨hb, ht⟩ => ⟨hb, ?_⟩)
  exact Nat.isLE_compare.mp (Ordering.isLE_left_of_isLE_then ht)

end ObservedUtxo

/-- The list in the order of `all.sort()`. -/
def sortUtxos (l : List ObservedUtxo) : List ObservedUtxo := l.insertionSort ObservedUtxo.le

theorem sortUtxos_sorted (l : List ObservedUtxo) :
    SortedSlice.SortedBy ObservedUtxo.key (sortUtxos l) :=
  (List.pairwise_insertionSort ObservedUtxo.le l).imp ObservedUtxo.le.key_le

theorem sortUtxos_perm (l : List ObservedUtxo) : (sortUtxos l).Perm l :=
  List.perm_insertionSort _ l

end MidnightNode.CNight
