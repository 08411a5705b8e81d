import Mathlib
import MidnightNode.Lib.Bisection
import MidnightNode.Lib.Fallible

/-!
# Block search by epoch and slot

`sidechain-block-search` looks for a block of an epoch or of a range of slots by a binary search over the
block numbers. The search compares a block with its target, and an error of a comparison ends it.

Block numbers have 32 bits and their sums wrap around, as in a release build.
-/

namespace MidnightNode.Sidechain
open Fallible Bisection

variable {T ε H : Type}

/-! ## The search -/

/-- The loop, for a number of rounds; without a result when it has not ended by then. -/
def binarySearchBy [Add T] [Sub T] [Div T] [LE T] [DecidableLE T] [OfNat T 1] [OfNat T 2]
    (f : T → Except ε Ordering) : Nat → T → T → Option (Option T)
  | 0, _, _ => none
  | rounds + 1, left, right =>
    if left ≤ right then
      let middle := (left + right) / 2
      match f middle with
      | .error _ => some none
      | .ok .eq => some (some middle)
      | .ok .lt => binarySearchBy f rounds (middle + 1) right
      | .ok .gt => binarySearchBy f rounds left (middle - 1)
    else some none

inductive ApiError
  | unknownBlock (message : String)
  | application (message : String)
deriving DecidableEq

structure SidechainStatus where
  epoch : Nat
  slot : Nat
deriving DecidableEq

structure Client (H : Type) where
  bestNumber : UInt32
  hash : UInt32 → Except ApiError (Option H)
  getSidechainStatus : H → Except ApiError SidechainStatus

namespace Client

variable (client : Client H)

def statusOfBlock (blockNumber : UInt32) : Except ApiError SidechainStatus := do
  let blockHash ← client.hash blockNumber
  let blockHash ← okOr (.unknownBlock s!"Block Number {blockNumber} does not exist") blockHash
  client.getSidechainStatus blockHash

def getSlotOfBlock (blockNumber : UInt32) : Except ApiError Nat :=
  SidechainStatus.slot <$> client.statusOfBlock blockNumber

def getEpochOfBlock (blockNumber : UInt32) : Except ApiError Nat :=
  SidechainStatus.epoch <$> client.statusOfBlock blockNumber

end Client

/-- The predicates of the crate that a search can be for. -/
inductive CompareStrategy
  | anyBlockInEpoch (epoch : Nat)
  | lastBlockInEpoch (epoch : Nat)
  | anyBlockInSlotRange (start stop : Nat)
  | latestBlockInSlotRange (start stop : Nat) (latestBlock : UInt32)

namespace CompareStrategy

variable (client : Client H)

def compareEpoch (epoch : Nat) (block : UInt32) : Except ApiError Ordering := do
  let epochBlock ← client.getEpochOfBlock block
  return compare epochBlock epoch

def compareLast (epoch : Nat) (block : UInt32) : Except ApiError Ordering := do
  let epochBlock ← client.getEpochOfBlock block
  match compare epochBlock epoch with
  | .eq =>
    let nextEpoch ← client.getEpochOfBlock (block + 1)
    match compare nextEpoch epoch with
    | .gt => return .eq
    | _ => return .lt
  | ordering => return ordering

def compareSlot (start stop : Nat) (block : UInt32) : Except ApiError Ordering := do
  let slotOfBlock ← client.getSlotOfBlock block
  return if slotOfBlock < start then .lt else if stop ≤ slotOfBlock then .gt else .eq

def compareLatest (start stop : Nat) (latestBlock block : UInt32) : Except ApiError Ordering := do
  let currentBlockOrdering ← compareSlot client start stop block
  match currentBlockOrdering with
  | .eq =>
    if block < latestBlock then
      let nextBlockOrdering ← compareSlot client start stop (block + 1)
      match nextBlockOrdering with
      | .gt => return .eq
      | _ => return .lt
    else return .eq
  | ordering => return ordering

def compareBlock : CompareStrategy → UInt32 → Except ApiError Ordering
  | anyBlockInEpoch epoch => compareEpoch client epoch
  | lastBlockInEpoch epoch => compareLast client epoch
  | anyBlockInSlotRange start stop => compareSlot client start stop
  | latestBlockInSlotRange start stop latestBlock => compareLatest client start stop latestBlock

end CompareStrategy

open CompareStrategy

def couldNotFindBlock : ApiError := .application "Could not find block"

def findBlockNumber (client : Client H) (strategy : CompareStrategy) (rounds : Nat) :
    Option (Except ApiError UInt32) :=
  (binarySearchBy (strategy.compareBlock client) rounds 1 (client.bestNumber + 1)).map
    (okOr couldNotFindBlock)

/-! ## What a search meets -/

section
variable {f : UInt32 → Except ε Ordering} {lo hi last rounds : Nat} {left right : UInt32}

theorem toNat_middle (h : left.toNat + right.toNat < 2 ^ 32) :
    ((left + right) / 2).toNat = (left.toNat + right.toNat) / 2 := by
  rw [UInt32.toNat_div, UInt32.toNat_add, Nat.mod_eq_of_lt h]
  rfl

theorem toNat_succ {b : UInt32} (h : b.toNat + 1 < 2 ^ 32) : (b + 1).toNat = b.toNat + 1 := by
  rw [UInt32.toNat_add]
  exact Nat.mod_eq_of_lt h

theorem toNat_pred {b : UInt32} (h : 1 ≤ b.toNat) : (b - 1).toNat = b.toNat - 1 :=
  UInt32.toNat_sub_of_le _ _ (UInt32.le_iff_toNat_le.mpr h)

structure Targets (f : UInt32 → Except ε Ordering) (lo hi last : Nat) : Prop where
  pos : 1 ≤ lo
  nonempty : lo ≤ hi
  le_last : hi ≤ last
  below : ∀ b : UInt32, 1 ≤ b.toNat → b.toNat < lo → f b = .ok .lt
  inside : ∀ b : UInt32, lo ≤ b.toNat → b.toNat ≤ hi → f b = .ok .eq
  above : ∀ b : UInt32, hi < b.toNat → b.toNat ≤ last → f b = .ok .gt

theorem Targets.binarySearchBy_eq (ht : Targets f lo hi last) (hlast : last + 1 < 2 ^ 31)
    (hpos : 1 ≤ left.toNat) (hleft : left.toNat ≤ lo) (hright : hi ≤ right.toNat)
    (hbound : right.toNat ≤ last + 1) (hrounds : right.toNat + 1 - left.toNat < rounds) :
    binarySearchBy f rounds left right =
      some ((meeting lo hi left.toNat right.toNat).map UInt32.ofNat) := by
  have hne := ht.nonempty
  have hle_last := ht.le_last
  induction rounds generalizing left right with
  | zero => omega
  | succ rounds ih =>
    have hmiddle : ((left + right) / 2).toNat = (left.toNat + right.toNat) / 2 := toNat_middle (by omega)
    have hle : left.toNat ≤ right.toNat := by omega
    rw [binarySearchBy, if_pos (UInt32.le_iff_toNat_le.mpr hle), meeting, if_pos hle, ← hmiddle]
    dsimp only
    generalize (left + right) / 2 = middle at hmiddle
    rcases Nat.lt_or_ge middle.toNat lo with hlt | hge
    · have hnext := toNat_succ (b := middle) (by omega)
      rw [ht.below middle (by omega) hlt, if_pos hlt, ← hnext]
      exact ih (by omega) (by omega) hright hbound (by omega)
    · rw [if_neg (Nat.not_lt.mpr hge)]
      rcases Nat.lt_or_ge hi middle.toNat with hgt | hhi
      · have hprev := toNat_pred (b := middle) (by omega)
        rw [ht.above middle hgt (by omega), if_pos hgt, ← hprev]
        exact ih hpos hleft (by omega) (by omega) (by omega)
      · rw [ht.inside middle hge hhi, if_neg (Nat.not_lt.mpr hhi), Option.map_some, UInt32.ofNat_toNat]

theorem binarySearchBy_eq_none (hf : ∀ b : UInt32, 1 ≤ b.toNat → f b ≠ .ok .eq)
    (hlast : last + 1 < 2 ^ 31) (hpos : 1 ≤ left.toNat) (hbound : right.toNat ≤ last + 1)
    (hrounds : right.toNat + 1 - left.toNat < rounds) :
    binarySearchBy f rounds left right = some none := by
  induction rounds generalizing left right with
  | zero => omega
  | succ rounds ih =>
    rw [binarySearchBy]
    split
    case isFalse => rfl
    case isTrue hle =>
      have hle := UInt32.le_iff_toNat_le.mp hle
      have hmiddle : ((left + right) / 2).toNat = (left.toNat + right.toNat) / 2 :=
        toNat_middle (by omega)
      dsimp only
      generalize (left + right) / 2 = middle at hmiddle
      have hmiddlePos : 1 ≤ middle.toNat := by omega
      match h : f middle with
      | .error _ => rfl
      | .ok .eq => exact absurd h (hf middle hmiddlePos)
      | .ok .lt =>
        have hnext := toNat_succ (b := middle) (by omega)
        exact ih (by omega) hbound (by omega)
      | .ok .gt =>
        have hprev := toNat_pred hmiddlePos
        exact ih hpos (by omega) (by omega)

theorem of_binarySearchBy (h : binarySearchBy f rounds left right = some (some b)) :
    f b = .ok .eq ∧ b.toNat < 2 ^ 31 := by
  induction rounds generalizing left right with
  | zero => cases h
  | succ rounds ih =>
    rw [binarySearchBy] at h
    split at h
    case isFalse => cases h
    case isTrue =>
      dsimp only at h
      split at h
      case h_1 => cases h
      case h_2 heq =>
        cases h
        refine ⟨heq, ?_⟩
        rw [UInt32.toNat_div]
        exact Nat.div_lt_of_lt_mul (left + right).toNat_lt
      case h_3 => exact ih h
      case h_4 => exact ih h

/-- Behind `2 ^ 31 - 1` blocks in front of the target the sum wraps to zero, and the search starts again. -/
theorem binarySearchBy_endless (hf : ∀ b : UInt32, b.toNat < 2 ^ 31 → f b = .ok .lt)
    (hleft : left.toNat ≤ 2 ^ 31) (hright : right.toNat = 2 ^ 31) :
    binarySearchBy f rounds left right = none := by
  induction rounds generalizing left with
  | zero => rfl
  | succ rounds ih =>
    have hmiddle : ((left + right) / 2).toNat = (left.toNat + right.toNat) % 2 ^ 32 / 2 := by
      rw [UInt32.toNat_div, UInt32.toNat_add]
      rfl
    rw [binarySearchBy, if_pos (UInt32.le_iff_toNat_le.mpr (hleft.trans_eq hright.symm))]
    dsimp only
    generalize (left + right) / 2 = middle at hmiddle
    have hlt : middle.toNat < 2 ^ 31 := by omega
    rw [hf middle hlt]
    exact ih (by rw [toNat_succ (by omega)]; exact hlt)

theorem binarySearchBy_mono (h : binarySearchBy f rounds left right = some r) (hle : rounds ≤ rounds') :
    binarySearchBy f rounds' left right = some r := by
  induction rounds generalizing left right rounds' with
  | zero => cases h
  | succ rounds ih =>
    obtain ⟨rounds', rfl⟩ : ∃ n, rounds' = n + 1 := Nat.exists_eq_succ_of_ne_zero (by omega)
    have hle := Nat.le_of_succ_le_succ hle
    rw [binarySearchBy] at h ⊢
    split at h
    case isFalse hempty =>
      rw [if_neg hempty]
      exact h
    case isTrue hne =>
      rw [if_pos hne]
      dsimp only at h ⊢
      split at h
      · exact h
      · exact h
      · exact ih h hle
      · exact ih h hle

end

/-- What the search returns, after some number of rounds. -/
def Returns (client : Client H) (strategy : CompareStrategy) (result : Except ApiError UInt32) : Prop :=
  ∃ rounds, findBlockNumber client strategy rounds = some result

section
variable {client : Client H} {strategy : CompareStrategy}

theorem Returns.unique (h : Returns client strategy r) (h' : Returns client strategy r') : r = r' := by
  obtain ⟨rounds, h⟩ := h
  obtain ⟨rounds', h'⟩ := h'
  obtain ⟨o, ho, rfl⟩ := Option.map_eq_some_iff.mp h
  obtain ⟨o', ho', rfl⟩ := Option.map_eq_some_iff.mp h'
  have hmax := binarySearchBy_mono ho (le_max_left rounds rounds')
  rw [binarySearchBy_mono ho' (le_max_right rounds rounds')] at hmax
  cases hmax
  rfl

theorem Returns.toNat_lt (h : Returns client strategy (.ok b)) : b.toNat < 2 ^ 31 := by
  obtain ⟨rounds, h⟩ := h
  obtain ⟨o, ho, hb⟩ := Option.map_eq_some_iff.mp h
  rw [of_okOr hb] at ho
  exact (of_binarySearchBy ho).2

/-- A block of the set is found if there is one, and otherwise the error is returned. -/
structure FindsIn (client : Client H) (strategy : CompareStrategy) (blocks : Set UInt32) : Prop where
  mem : ∀ n, Returns client strategy (.ok n) → n ∈ blocks
  found : blocks.Nonempty → ∃ n, Returns client strategy (.ok n)
  notFound : blocks = ∅ → Returns client strategy (.error couldNotFindBlock)

theorem FindsIn.of_mem (h : Returns client strategy (.ok n)) (hn : n ∈ blocks) :
    FindsIn client strategy blocks where
  mem m hm := by
    cases hm.unique h
    exact hn
  found _ := ⟨n, h⟩
  notFound hempty := by
    rw [hempty] at hn
    exact hn.elim

theorem FindsIn.of_empty (h : Returns client strategy (.error couldNotFindBlock)) (hempty : blocks = ∅) :
    FindsIn client strategy blocks where
  mem m hm := by cases hm.unique h
  found hne := absurd hempty hne.ne_empty
  notFound _ := h

theorem findsIn_iff_mem (h : Returns client strategy (.ok n)) :
    FindsIn client strategy blocks ↔ n ∈ blocks :=
  ⟨fun hfinds => hfinds.mem n h, .of_mem h⟩

theorem returns_of_binarySearchBy
    (h : binarySearchBy (strategy.compareBlock client) rounds 1 (client.bestNumber + 1) = some o) :
    Returns client strategy (okOr couldNotFindBlock o) :=
  ⟨rounds, by rw [findBlockNumber, h, Option.map_some]⟩

variable (hbest : client.bestNumber.toNat + 1 < 2 ^ 31) (strategy)
include hbest

theorem Targets.returns (ht : Targets (strategy.compareBlock client) lo hi client.bestNumber.toNat) :
    ∃ n : UInt32, Returns client strategy (.ok n) ∧
      meeting lo hi 1 (client.bestNumber.toNat + 1) = some n.toNat ∧ lo ≤ n.toNat ∧ n.toNat ≤ hi := by
  have hright := toNat_succ (b := client.bestNumber) (by omega)
  have hle := ht.le_last
  obtain ⟨m, hm⟩ := exists_meeting ht.nonempty ht.pos (hle.trans (Nat.le_succ _))
  obtain ⟨hlo, hhi⟩ := mem_of_meeting hm
  have hnat : (UInt32.ofNat m).toNat = m := UInt32.toNat_ofNat_of_lt' (by unfold UInt32.size; omega)
  have hsearch : binarySearchBy (strategy.compareBlock client) _ 1 (client.bestNumber + 1) = _ :=
    ht.binarySearchBy_eq hbest (Nat.le_refl 1) ht.pos (by omega) hright.le (Nat.lt_succ_self _)
  rw [hright, UInt32.toNat_one, hm] at hsearch
  exact ⟨.ofNat m, returns_of_binarySearchBy hsearch, hnat.symm ▸ hm, by omega, by omega⟩

theorem returns_notFound (hf : ∀ b : UInt32, 1 ≤ b.toNat → strategy.compareBlock client b ≠ .ok .eq) :
    Returns client strategy (.error couldNotFindBlock) := by
  have hright := toNat_succ (b := client.bestNumber) (by omega)
  exact returns_of_binarySearchBy
    (binarySearchBy_eq_none hf hbest (Nat.le_refl 1) hright.le (Nat.lt_succ_self _))

end

/-! ## Targets of a chain -/

/-- A comparison of a key with an interval. -/
def place (start stop key : Nat) : Ordering :=
  if key < start then .lt else if stop ≤ key then .gt else .eq

theorem compare_eq_place (key epoch : Nat) : compare key epoch = place epoch (epoch + 1) key := by
  unfold place
  rcases Nat.lt_trichotomy key epoch with hlt | heq | hgt
  · rw [if_pos hlt, compare_lt_iff_lt.mpr hlt]
  · rw [if_neg (Nat.not_lt.mpr heq.ge), if_neg (by omega), compare_eq_iff_eq.mpr heq]
  · rw [if_neg (Nat.lt_asymm hgt), if_pos (Nat.succ_le_of_lt hgt), compare_gt_iff_gt.mpr hgt]

theorem place_eq_eq_iff : place start stop key = .eq ↔ start ≤ key ∧ key < stop := by
  unfold place
  split_ifs <;> simp <;> omega

section
variable {f : UInt32 → Except ε Ordering} {lo hi last bound : Nat}

/-- The blocks whose keys are in a range follow one another, as the keys never decrease. -/
theorem exists_targets {key : Nat → Nat}
    (hf : ∀ b : UInt32, 1 ≤ b.toNat → b.toNat ≤ last → f b = .ok (place start stop (key b.toNat)))
    (hmono : ∀ m n, 1 ≤ m → m ≤ n → n ≤ last → key m ≤ key n)
    (hex : ∃ n, (1 ≤ n ∧ n ≤ last) ∧ start ≤ key n ∧ key n < stop) :
    ∃ lo hi, Targets f lo hi last ∧
      ∀ n, (1 ≤ n ∧ n ≤ last) ∧ start ≤ key n ∧ key n < stop ↔ lo ≤ n ∧ n ≤ hi := by
  obtain ⟨lo, hi, hmem⟩ := exists_interval hmono hex
  obtain ⟨m, hm⟩ := hex
  have hne := ((hmem m).mp hm).1.trans ((hmem m).mp hm).2
  obtain ⟨⟨hpos, -⟩, hloStart, hloStop⟩ := (hmem lo).mpr ⟨Nat.le_refl lo, hne⟩
  obtain ⟨⟨-, hlast⟩, hhiStart, hhiStop⟩ := (hmem hi).mpr ⟨hne, Nat.le_refl hi⟩
  refine ⟨lo, hi, ⟨hpos, hne, hlast, fun b hb hlt => ?_, fun b hlo hhi => ?_, fun b hgt hb => ?_⟩, hmem⟩
  · have hkey := hmono b.toNat lo hb hlt.le (hne.trans hlast)
    have hout : ¬ start ≤ key b.toNat := fun hstart => absurd
      ((hmem b.toNat).mp ⟨⟨hb, hlt.le.trans (hne.trans hlast)⟩, hstart, hkey.trans_lt hloStop⟩).1
      (Nat.not_le.mpr hlt)
    rw [hf b hb (hlt.le.trans (hne.trans hlast)), place, if_pos (Nat.not_le.mp hout)]
  · obtain ⟨⟨hb, hle⟩, hin⟩ := (hmem b.toNat).mpr ⟨hlo, hhi⟩
    rw [hf b hb hle, place_eq_eq_iff.mpr hin]
  · have hpos' := (hpos.trans hne).trans hgt.le
    have hkey := hmono hi b.toNat (hpos.trans hne) hgt.le hb
    have hout : ¬ key b.toNat < stop := fun hstop => absurd
      ((hmem b.toNat).mp ⟨⟨hpos', hb⟩, hhiStart.trans hkey, hstop⟩).2 (Nat.not_le.mpr hgt)
    rw [hf b hpos' hb, place, if_neg (Nat.not_lt.mpr (hhiStart.trans hkey)), if_pos (Nat.not_lt.mp hout)]

/-- A block on the target is taken when the bound is reached or the next block is behind the target. -/
def ahead (f : UInt32 → Except ε Ordering) (bound : Nat) (b : UInt32) : Except ε Ordering := do
  match ← f b with
  | .eq =>
    if b.toNat < bound then
      match ← f (b + 1) with
      | .gt => return .eq
      | _ => return .lt
    else return .eq
  | ordering => return ordering

theorem of_ahead_eq (h : ahead f bound b = .ok .eq) :
    f b = .ok .eq ∧ (b.toNat < bound → f (b + 1) = .ok .gt) := by
  obtain ⟨ordering, hb, h⟩ := of_bind h
  cases ordering with
  | lt => cases h
  | gt => cases h
  | eq =>
    refine ⟨hb, fun hlt => ?_⟩
    dsimp only at h
    rw [if_pos hlt] at h
    obtain ⟨next, hnext, h⟩ := of_bind h
    cases next with
    | lt => cases h
    | eq => cases h
    | gt => exact hnext

/-- Of a target up to the bound the last block remains; of a target across the bound what is not before
it. -/
theorem Targets.ahead (ht : Targets f lo hi last) (bound : Nat) (hread : hi < bound → hi < last)
    (hlast : last < 2 ^ 31) :
    Targets (ahead f bound) (max lo (min bound hi)) hi last where
  pos := ht.pos.trans (le_max_left _ _)
  nonempty := max_le ht.nonempty (min_le_right _ _)
  le_last := ht.le_last
  below b hb hlt := by
    have hle := ht.le_last
    rcases Nat.lt_or_ge b.toNat lo with hlo | hlo
    · rw [Sidechain.ahead, ht.below b hb hlo]
      rfl
    · have hnext := toNat_succ (b := b) (by omega)
      rw [Sidechain.ahead, ht.inside b hlo (by omega)]
      show (if b.toNat < bound then _ else _) = _
      rw [if_pos (by omega), ht.inside (b + 1) (by omega) (by omega)]
      rfl
  inside b hlo hhi := by
    have hle := ht.le_last
    rw [Sidechain.ahead, ht.inside b (by omega) hhi]
    show (if b.toNat < bound then _ else _) = _
    split
    case isFalse => rfl
    case isTrue hlt =>
      have hnext := toNat_succ (b := b) (by omega)
      have hhi : hi < last := hread (by omega)
      rw [ht.above (b + 1) (by omega) (by omega)]
      rfl
  above b hgt hb := by
    rw [Sidechain.ahead, ht.above b hgt hb]
    rfl

end

theorem compareLast_eq_ahead (client : Client H) (epoch : Nat) :
    compareLast client epoch =
      ahead (compareEpoch client epoch) (2 ^ 32) := by
  funext b
  -- the bound is above every block number
  simp only [compareLast, ahead, compareEpoch, bind_assoc, pure_bind,
    if_pos b.toNat_lt]

theorem compareLatest_eq_ahead (client : Client H) (start stop : Nat) (latestBlock : UInt32) :
    compareLatest client start stop latestBlock =
      ahead (compareSlot client start stop) latestBlock.toNat :=
  rfl

/-! ## Blocks of a range -/

/-- The blocks up to `bound` whose key is in the range. -/
def blocksWithin (key : Nat → Nat) (start stop : Nat) (bound : UInt32) : Set UInt32 :=
  { b | (1 ≤ b.toNat ∧ b.toNat ≤ bound.toNat) ∧ start ≤ key b.toNat ∧ key b.toNat < stop }

/-- A comparison of the blocks' keys with a range, which fails above the best block. -/
structure Places (client : Client H) (f : UInt32 → Except ε Ordering) (key : Nat → Nat)
    (start stop : Nat) : Prop where
  eq_place : ∀ b : UInt32, 1 ≤ b.toNat → b.toNat ≤ client.bestNumber.toNat →
    f b = .ok (place start stop (key b.toNat))
  le_best : ∀ (b : UInt32) o, f b = .ok o → b.toNat ≤ client.bestNumber.toNat
  mono : ∀ m n, 1 ≤ m → m ≤ n → n ≤ client.bestNumber.toNat → key m ≤ key n

theorem isGreatest_iff (hS : ∀ b, b ∈ S ↔ lo ≤ b.toNat ∧ b.toNat ≤ hi) (hne : lo ≤ hi)
    (hhi : hi < 2 ^ 32) {b : UInt32} : IsGreatest S b ↔ b.toNat = hi := by
  constructor
  · intro hb
    have hnat : (UInt32.ofNat hi).toNat = hi := UInt32.toNat_ofNat_of_lt' hhi
    have hle := UInt32.le_iff_toNat_le.mp (hb.2 ((hS (.ofNat hi)).mpr (by omega)))
    exact Nat.le_antisymm ((hS b).mp hb.1).2 (hnat ▸ hle)
  · intro hb
    refine ⟨(hS b).mpr (by omega), fun b' hb' => UInt32.le_iff_toNat_le.mpr ?_⟩
    rw [hb]
    exact ((hS b').mp hb').2

namespace Places

variable {client : Client H} {f : UInt32 → Except ε Ordering} {key : Nat → Nat} {start stop : Nat}

theorem mem_of_eq (h : Places client f key start stop) (hpos : 1 ≤ b.toNat) (hb : f b = .ok .eq) :
    b ∈ blocksWithin key start stop client.bestNumber := by
  have hle := h.le_best b .eq hb
  have hplace := Except.ok.inj ((h.eq_place b hpos hle).symm.trans hb)
  exact ⟨⟨hpos, hle⟩, place_eq_eq_iff.mp hplace⟩

theorem exists_targets (h : Places client f key start stop)
    (hne : (blocksWithin key start stop client.bestNumber).Nonempty) :
    ∃ lo hi, Targets f lo hi client.bestNumber.toNat ∧
      ∀ b, b ∈ blocksWithin key start stop client.bestNumber ↔ lo ≤ b.toNat ∧ b.toNat ≤ hi := by
  obtain ⟨b, hb⟩ := hne
  obtain ⟨lo, hi, ht, hmem⟩ := Sidechain.exists_targets h.eq_place h.mono ⟨b.toNat, hb⟩
  exact ⟨lo, hi, ht, fun b => hmem b.toNat⟩

theorem isGreatest_of_gt (h : Places client f key start stop) {b : UInt32} (hpos : 1 ≤ b.toNat)
    (hb : f b = .ok .eq) (hlt : b.toNat + 1 < 2 ^ 32) (hnext : f (b + 1) = .ok .gt) :
    IsGreatest (blocksWithin key start stop client.bestNumber) b ∧
      b.toNat + 1 ≤ client.bestNumber.toNat ∧ stop ≤ key (b.toNat + 1) := by
  have hle := h.le_best _ _ hnext
  have hpos' : 1 ≤ (b + 1).toNat := by
    rw [toNat_succ hlt]
    exact Nat.le_add_left 1 _
  have hplace := Except.ok.inj ((h.eq_place (b + 1) hpos' hle).symm.trans hnext)
  rw [toNat_succ hlt] at hle hplace
  have hstop : stop ≤ key (b.toNat + 1) := by
    unfold place at hplace
    split_ifs at hplace with hstart hstop
    exact hstop
  refine ⟨⟨h.mem_of_eq hpos hb, fun b' hb' => UInt32.le_iff_toNat_le.mpr ?_⟩, hle, hstop⟩
  refine Nat.not_lt.mp fun hlt' => ?_
  have hkey := h.mono (b.toNat + 1) b'.toNat (by omega) hlt' hb'.1.2
  exact absurd hb'.2.2 (Nat.not_lt.mpr (hstop.trans hkey))

variable {epoch : Nat → Nat} {e : Nat} {latest : UInt32} (hbest : client.bestNumber.toNat + 1 < 2 ^ 31)
include hbest

theorem findsIn (strategy : CompareStrategy)
    (h : Places client (strategy.compareBlock client) key start stop) :
    FindsIn client strategy (blocksWithin key start stop client.bestNumber) := by
  rcases Set.eq_empty_or_nonempty (blocksWithin key start stop client.bestNumber) with hempty | hne
  · refine .of_empty (returns_notFound strategy hbest fun b hpos hb => ?_) hempty
    exact Set.eq_empty_iff_forall_notMem.mp hempty b (h.mem_of_eq hpos hb)
  · obtain ⟨lo, hi, ht, hmem⟩ := h.exists_targets hne
    obtain ⟨n, hn, -, hlo, hhi⟩ := ht.returns strategy hbest
    exact .of_mem hn ((hmem n).mpr ⟨hlo, hhi⟩)

/-- The last block of an epoch is found when a block of a greater epoch follows. -/
theorem findsIn_last (h : Places client (compareEpoch client e) epoch e (e + 1)) :
    FindsIn client (.lastBlockInEpoch e)
      { b | IsGreatest (blocksWithin epoch e (e + 1) client.bestNumber) b ∧
        ∃ n, b.toNat < n ∧ n ≤ client.bestNumber.toNat ∧ e < epoch n } := by
  rcases Set.eq_empty_or_nonempty { b | IsGreatest (blocksWithin epoch e (e + 1) client.bestNumber) b ∧
    ∃ n, b.toNat < n ∧ n ≤ client.bestNumber.toNat ∧ e < epoch n } with hempty | ⟨b, hb⟩
  · refine .of_empty (returns_notFound (.lastBlockInEpoch e) hbest fun b hpos hb => ?_) hempty
    rw [compareBlock, compareLast_eq_ahead] at hb
    obtain ⟨hb, hnext⟩ := of_ahead_eq hb
    have hle := h.le_best b .eq hb
    obtain ⟨hgreatest, hle, hstop⟩ := h.isGreatest_of_gt hpos hb (by omega) (hnext b.toNat_lt)
    exact Set.eq_empty_iff_forall_notMem.mp hempty b ⟨hgreatest, _, Nat.lt_succ_self _, hle, hstop⟩
  · obtain ⟨hgreatest, n, hlt, hn, -⟩ := id hb
    obtain ⟨lo, hi, ht, hmem⟩ := h.exists_targets ⟨b, hgreatest.1⟩
    have hle := ht.le_last
    have hne := ht.nonempty
    have hbhi := (isGreatest_iff hmem hne (by omega)).mp hgreatest
    have hlast := ht.ahead (2 ^ 32) (by omega) (by omega)
    rw [← compareLast_eq_ahead, min_eq_right (by omega), max_eq_right hne] at hlast
    obtain ⟨m, hm, -, hlo, hhi⟩ := hlast.returns (.lastBlockInEpoch e) hbest
    obtain rfl : m = b := UInt32.toNat_inj.mp (by omega)
    exact .of_mem hm hb

/-- The block that is found under a bound is the latest one when no block above the bound is in the
range, or the bound is met first. -/
theorem findsIn_latest_iff
    (h : Places client (compareSlot client start stop) key start stop)
    (hlatest : latest.toNat ≤ client.bestNumber.toNat) :
    FindsIn client (.latestBlockInSlotRange start stop latest)
        { b | IsGreatest (blocksWithin key start stop latest) b } ↔
      ∀ last, IsGreatest (blocksWithin key start stop client.bestNumber) last → latest < last →
        latest ∈ blocksWithin key start stop latest ∧
          meeting latest.toNat last.toNat 1 (client.bestNumber.toNat + 1) = some latest.toNat := by
  have hsub : blocksWithin key start stop latest ⊆ blocksWithin key start stop client.bestNumber :=
    fun b hb => ⟨⟨hb.1.1, hb.1.2.trans hlatest⟩, hb.2⟩
  rcases Set.eq_empty_or_nonempty (blocksWithin key start stop client.bestNumber) with hempty | hne
  · rw [hempty] at hsub ⊢
    rw [Set.subset_empty_iff.mp hsub]
    refine ⟨fun _ last hlast => hlast.1.elim, fun _ => .of_empty ?_ ?_⟩
    · refine returns_notFound (.latestBlockInSlotRange start stop latest) hbest fun b hpos hb => ?_
      rw [compareBlock, compareLatest_eq_ahead] at hb
      exact Set.eq_empty_iff_forall_notMem.mp hempty b (h.mem_of_eq hpos (of_ahead_eq hb).1)
    · exact Set.eq_empty_iff_forall_notMem.mpr fun b hb => hb.1
  · obtain ⟨lo, hi, ht, hmem⟩ := h.exists_targets hne
    have hle := ht.le_last
    have hgreatest := fun b => isGreatest_iff hmem ht.nonempty (by omega) (b := b)
    have hmemLatest : ∀ b, b ∈ blocksWithin key start stop latest ↔
        lo ≤ b.toNat ∧ b.toNat ≤ min latest.toNat hi := by
      intro b
      rw [le_min_iff, ← and_assoc, and_right_comm, ← hmem b]
      exact ⟨fun hb => ⟨hsub hb, hb.1.2⟩, fun hb => ⟨⟨hb.1.1.1, hb.2⟩, hb.1.2⟩⟩
    have htLatest := ht.ahead latest.toNat (by omega) (by omega)
    rw [← compareLatest_eq_ahead] at htLatest
    obtain ⟨n, hn, hmeet, hlo, hhi⟩ := htLatest.returns (.latestBlockInSlotRange start stop latest) hbest
    rw [findsIn_iff_mem hn]
    rcases Nat.lt_or_ge latest.toNat hi with hlt | hge
    · rw [min_eq_left hlt.le] at hmemLatest hmeet hlo
      constructor
      · intro hfound last hlast _
        obtain ⟨hlo', hle'⟩ := (hmemLatest n).mp hfound.1
        obtain rfl : n = latest := UInt32.toNat_inj.mp (by omega)
        rw [max_eq_right hlo'] at hmeet
        rw [(hgreatest last).mp hlast]
        exact ⟨hfound.1, hmeet⟩
      · intro hfirst
        have hnat : (UInt32.ofNat hi).toNat = hi :=
          UInt32.toNat_ofNat_of_lt' (by unfold UInt32.size; omega)
        obtain ⟨hin, hmeet'⟩ := hfirst (.ofNat hi) ((hgreatest _).mpr hnat)
          (UInt32.lt_iff_toNat_lt.mpr (by omega))
        have hlo' := ((hmemLatest latest).mp hin).1
        rw [hnat] at hmeet'
        rw [max_eq_right hlo', hmeet', Option.some_inj] at hmeet
        exact (isGreatest_iff hmemLatest hlo' latest.toNat_lt).mpr hmeet.symm
    · rw [min_eq_right hge] at hmemLatest hlo
      refine iff_of_true ((isGreatest_iff hmemLatest ht.nonempty (by omega)).mpr (by omega)) ?_
      intro last hlast hlt
      rw [UInt32.lt_iff_toNat_lt, (hgreatest last).mp hlast] at hlt
      exact absurd hlt (Nat.not_lt.mpr hge)

end Places

/-! ## Chains -/

/-- The blocks up to the best one can be read, their epochs never decrease and their slots increase;
reading a block above the best one fails. -/
structure Chain (client : Client H) (epoch slot : Nat → Nat) : Prop where
  status : ∀ b : UInt32, 1 ≤ b.toNat → b.toNat ≤ client.bestNumber.toNat →
    client.statusOfBlock b = .ok ⟨epoch b.toNat, slot b.toNat⟩
  above : ∀ b : UInt32, client.bestNumber.toNat < b.toNat → ∃ e, client.statusOfBlock b = .error e
  epoch_mono : ∀ m n, 1 ≤ m → m ≤ n → n ≤ client.bestNumber.toNat → epoch m ≤ epoch n
  slot_lt : ∀ m n, 1 ≤ m → m < n → n ≤ client.bestNumber.toNat → slot m < slot n

namespace Chain

variable {client : Client H} {epoch slot : Nat → Nat}

theorem le_best (hc : Chain client epoch slot) {field : SidechainStatus → Nat}
    (h : field <$> client.statusOfBlock b = .ok key) : b.toNat ≤ client.bestNumber.toNat := by
  refine Nat.not_lt.mp fun hlt => ?_
  obtain ⟨err, herr⟩ := hc.above b hlt
  rw [herr] at h
  cases h

theorem placesEpoch (hc : Chain client epoch slot) (e : Nat) :
    Places client (compareEpoch client e) epoch e (e + 1) where
  eq_place b hpos hle := by
    rw [compareEpoch, Client.getEpochOfBlock, hc.status b hpos hle, ← compare_eq_place]
    rfl
  le_best b o h := by
    obtain ⟨epochBlock, hread, -⟩ := of_bind h
    exact hc.le_best hread
  mono := hc.epoch_mono

theorem placesSlot (hc : Chain client epoch slot) (start stop : Nat) :
    Places client (compareSlot client start stop) slot start stop where
  eq_place b hpos hle := by
    rw [compareSlot, Client.getSlotOfBlock, hc.status b hpos hle]
    rfl
  le_best b o h := by
    obtain ⟨slotBlock, hread, -⟩ := of_bind h
    exact hc.le_best hread
  mono m n hm hle hn := by
    rcases hle.eq_or_lt with rfl | hlt
    · exact Nat.le_refl _
    · exact (hc.slot_lt m n hm hlt hn).le

end Chain

/-- On a chain whose block numbers have sums of 32 bits, the searches for a block of an epoch, for the
last one and for a block of a slot range are exact. The search for the latest block under a bound is
exact when no block above the bound is in the range, or the bisection meets the bound before any of
them. With `2 ^ 31` blocks or more the best block is not found, and with `2 ^ 31 - 1` a search for slots
behind them never ends. -/
theorem block_search_exact {client : Client H} {epoch slot : Nat → Nat} (hc : Chain client epoch slot) :
    (client.bestNumber.toNat + 1 < 2 ^ 31 →
      (∀ e, FindsIn client (.anyBlockInEpoch e) (blocksWithin epoch e (e + 1) client.bestNumber)) ∧
      (∀ start stop, FindsIn client (.anyBlockInSlotRange start stop)
        (blocksWithin slot start stop client.bestNumber)) ∧
      (∀ e, FindsIn client (.lastBlockInEpoch e)
        { b | IsGreatest (blocksWithin epoch e (e + 1) client.bestNumber) b ∧
          ∃ n, b.toNat < n ∧ n ≤ client.bestNumber.toNat ∧ e < epoch n }) ∧
      ∀ start stop (latest : UInt32), latest.toNat ≤ client.bestNumber.toNat →
        (FindsIn client (.latestBlockInSlotRange start stop latest)
            { b | IsGreatest (blocksWithin slot start stop latest) b } ↔
          ∀ last, IsGreatest (blocksWithin slot start stop client.bestNumber) last → latest < last →
            latest ∈ blocksWithin slot start stop latest ∧
              meeting latest.toNat last.toNat 1 (client.bestNumber.toNat + 1) = some latest.toNat)) ∧
    (2 ^ 31 ≤ client.bestNumber.toNat → ∀ stop, slot client.bestNumber.toNat < stop →
      ¬ FindsIn client (.anyBlockInSlotRange (slot client.bestNumber.toNat) stop)
        (blocksWithin slot (slot client.bestNumber.toNat) stop client.bestNumber)) ∧
    (client.bestNumber.toNat + 1 = 2 ^ 31 → ∀ genesis start stop, client.statusOfBlock 0 = .ok genesis →
      genesis.slot < start → slot client.bestNumber.toNat < start →
        ¬ ∃ result, Returns client (.anyBlockInSlotRange start stop) result) := by
  refine ⟨fun hbest => ⟨fun e => ?_, fun start stop => ?_, fun e => ?_, fun start stop latest hle => ?_⟩,
    fun hbest stop hstop hfinds => ?_, fun hbest genesis start stop hgenesis hbefore hbehind => ?_⟩
  · exact Places.findsIn hbest (.anyBlockInEpoch e) (hc.placesEpoch e)
  · exact Places.findsIn hbest (.anyBlockInSlotRange start stop) (hc.placesSlot start stop)
  · exact (hc.placesEpoch e).findsIn_last hbest
  · exact (hc.placesSlot start stop).findsIn_latest_iff hbest hle
  · obtain ⟨n, hn⟩ := hfinds.found ⟨client.bestNumber, ⟨by omega, Nat.le_refl _⟩, Nat.le_refl _, hstop⟩
    obtain ⟨⟨hpos, hle⟩, hstart, -⟩ := hfinds.mem n hn
    have hsmall := hn.toNat_lt
    have hslot := hc.slot_lt n.toNat client.bestNumber.toNat hpos (by omega) (Nat.le_refl _)
    exact absurd hstart (Nat.not_le.mpr hslot)
  · rintro ⟨result, rounds, h⟩
    obtain ⟨o, ho, -⟩ := Option.map_eq_some_iff.mp h
    have hf : ∀ b : UInt32, b.toNat < 2 ^ 31 → compareSlot client start stop b = .ok .lt := by
      intro b hb
      rcases Nat.eq_zero_or_pos b.toNat with hzero | hpos
      · obtain rfl : b = 0 := UInt32.toNat_inj.mp hzero
        rw [compareSlot, Client.getSlotOfBlock, hgenesis]
        exact congrArg Except.ok (if_pos hbefore)
      · have hle := (hc.placesSlot start stop).mono b.toNat client.bestNumber.toNat hpos (by omega) le_rfl
        rw [(hc.placesSlot start stop).eq_place b hpos (by omega), place, if_pos (hle.trans_lt hbehind)]
    have hright := toNat_succ (b := client.bestNumber) (by omega)
    rw [compareBlock, binarySearchBy_endless hf (by decide) (hright.trans hbest)] at ho
    cases ho

/-- Ten blocks, three to an epoch and one in ten slots. -/
def tenBlocks : Client UInt32 where
  bestNumber := 10
  hash n := .ok (if n ≤ 10 then some n else none)
  getSidechainStatus n := .ok ⟨n.toNat / 3, 10 * n.toNat⟩

theorem tenBlocks_chain : Chain tenBlocks (· / 3) (10 * ·) where
  status b _ hle := by
    have hread : tenBlocks.hash b = .ok (some b) := congrArg Except.ok (if_pos hle)
    rw [Client.statusOfBlock, hread]
    rfl
  above b hlt := by
    have hread : tenBlocks.hash b = .ok none := congrArg Except.ok (if_neg (Nat.not_le.mpr hlt))
    rw [Client.statusOfBlock, hread]
    exact ⟨_, rfl⟩
  epoch_mono _ _ _ hle _ := Nat.div_le_div_right hle
  slot_lt _ _ _ hlt _ := Nat.mul_lt_mul_of_pos_left hlt (by decide)

theorem block_search_exact_ten_blocks :
    FindsIn tenBlocks (.lastBlockInEpoch 2)
      { b | IsGreatest (blocksWithin (· / 3) 2 3 10) b ∧ ∃ n, b.toNat < n ∧ n ≤ 10 ∧ 2 < n / 3 } ∧
    FindsIn tenBlocks (.latestBlockInSlotRange 25 95 10)
      { b | IsGreatest (blocksWithin (10 * ·) 25 95 10) b } := by
  obtain ⟨-, -, hlast, hlatest⟩ := (block_search_exact tenBlocks_chain).1 (by decide)
  refine ⟨hlast 2, (hlatest 25 95 10 (Nat.le_refl 10)).mpr fun last hgreatest hlt => ?_⟩
  exact absurd (UInt32.lt_iff_toNat_lt.mp hlt) (Nat.not_lt.mpr hgreatest.1.1.2)

/-- The bound is overrun: the search for the latest block up to block 3 finds block 6, both when block 3
is in the range and when no block up to it is. -/
theorem latest_block_beyond_bound :
    IsGreatest (blocksWithin (10 * ·) 0 100 3) 3 ∧
    Returns tenBlocks (.latestBlockInSlotRange 0 100 3) (.ok 6) ∧
    blocksWithin (10 * ·) 60 70 3 = ∅ ∧
    Returns tenBlocks (.latestBlockInSlotRange 60 70 3) (.ok 6) := by
  refine ⟨⟨?_, fun b hb => ?_⟩, ⟨2, rfl⟩, ?_, ⟨2, rfl⟩⟩
  · exact ⟨⟨by decide, by decide⟩, by decide, by decide⟩
  · exact UInt32.le_iff_toNat_le.mpr hb.1.2
  · refine Set.eq_empty_iff_forall_notMem.mpr fun b hb => ?_
    have hle : b.toNat ≤ 3 := hb.1.2
    have hstart : 60 ≤ 10 * b.toNat := hb.2.1
    omega

end MidnightNode.Sidechain
