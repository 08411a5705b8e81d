import MidnightNode.Lib.Bytes
import MidnightNode.Lib.Fallible
import MidnightNode.Lib.LinkedRange

/-!
# Block cache and tasks of the fetcher

The toolkit keeps the blocks of a chain in a storage, by number, with the height up to which it has
verified them. The tasks of the fetcher work on ranges `min..max` of numbers: a range is fetched as far
as it is not in the storage, inserted, verified inside, and at the end verified at its borders.
-/

namespace MidnightNode.Toolkit

open Fallible LinkedRange

structure RawBlockData where
  hash : Bytes 32
  parentHash : Bytes 32
  number : Nat
  tblockSecs : Nat
  lastBlockTimeSecs : Nat
deriving DecidableEq, Repr

/-- The child names the parent. -/
def IsParent (parent child : RawBlockData) : Prop := child.parentHash = parent.hash

/-- The parent hash of a first block. -/
def zeroHash : Bytes 32 := Bytes.fill 32 0

/-! ## Storage -/

structure FetchStorage where
  blocks : Nat → Option RawBlockData
  highestVerified : Option Nat

namespace FetchStorage

def getBlockData (storage : FetchStorage) (blockNumber : Nat) : Option RawBlockData :=
  storage.blocks blockNumber

def getBlockDataRange (storage : FetchStorage) (range : List Nat) : List (Option RawBlockData) :=
  range.map storage.getBlockData

def insertBlockData (storage : FetchStorage) (blockNumber : Nat) (block : RawBlockData) :
    FetchStorage :=
  { storage with blocks := Function.update storage.blocks blockNumber (some block) }

def insertBlockDataRange (storage : FetchStorage) (blocks : List RawBlockData) : FetchStorage :=
  blocks.foldl (fun storage block => storage.insertBlockData block.number block) storage

def setHighestVerifiedBlock (storage : FetchStorage) (height : Nat) : FetchStorage :=
  { storage with highestVerified := some height }

/-- Each block is stored under its number. -/
def Numbered (storage : FetchStorage) : Prop :=
  ∀ i block, storage.blocks i = some block → block.number = i

structure VerifiedTo (storage : FetchStorage) (height : Nat) : Prop where
  linked : LinkedOn IsParent storage.blocks 0 (height + 1)
  genesis : ∀ block, storage.blocks 0 = some block → block.parentHash = zeroHash

variable {storage storage' : FetchStorage} {blocks : List RawBlockData} {i height : Nat}

theorem VerifiedTo.mono (h : storage.VerifiedTo height)
    (hext : Extends storage.blocks storage'.blocks) : storage'.VerifiedTo height where
  linked := h.linked.mono hext
  genesis block hblock := by
    obtain ⟨first, hfirst⟩ := h.linked.defined 0 (Nat.zero_le _) (Nat.succ_pos _)
    cases (hext hfirst).symm.trans hblock
    exact h.genesis block hfirst

@[simp] theorem insertBlockData_blocks (storage : FetchStorage) (blockNumber : Nat)
    (block : RawBlockData) : (storage.insertBlockData blockNumber block).blocks =
      Function.update storage.blocks blockNumber (some block) := rfl

@[simp] theorem insertBlockDataRange_highestVerified (storage : FetchStorage)
    (blocks : List RawBlockData) :
    (storage.insertBlockDataRange blocks).highestVerified = storage.highestVerified := by
  induction blocks generalizing storage with
  | nil => rfl
  | cons block blocks ih => exact ih _

theorem insertBlockDataRange_of_not_mem (h : ∀ block ∈ blocks, block.number ≠ i) :
    (storage.insertBlockDataRange blocks).blocks i = storage.blocks i := by
  induction blocks generalizing storage with
  | nil => rfl
  | cons block blocks ih =>
    have hhead : i ≠ block.number := (h block List.mem_cons_self).symm
    calc ((storage.insertBlockData block.number block).insertBlockDataRange blocks).blocks i
        = (storage.insertBlockData block.number block).blocks i :=
          ih fun b hb => h b (List.mem_cons_of_mem _ hb)
      _ = storage.blocks i := Function.update_of_ne hhead _ _

theorem Numbered.insertBlockDataRange (h : storage.Numbered) (blocks : List RawBlockData) :
    (storage.insertBlockDataRange blocks).Numbered := by
  induction blocks generalizing storage with
  | nil => exact h
  | cons block blocks ih =>
    refine ih fun i b hb => ?_
    simp only [insertBlockData_blocks, Function.update_apply] at hb
    split at hb
    case isTrue hi =>
      cases hb
      exact hi.symm
    case isFalse => exact h i b hb

theorem extends_insertBlockDataRange (h : ∀ block ∈ blocks, storage.blocks block.number = none) :
    Extends storage.blocks (storage.insertBlockDataRange blocks).blocks := by
  intro i b hb
  rw [insertBlockDataRange_of_not_mem, hb]
  rintro block hblock rfl
  exact Option.some_ne_none b (hb.symm.trans (h block hblock))

end FetchStorage

open FetchStorage (getBlockData getBlockDataRange insertBlockData_blocks)

/-! ## Reading the cache -/

/-- Each block but the first gets the time of the one before it. -/
def setLastBlockTimes (blocks : List RawBlockData) : List RawBlockData :=
  blocks.take 1 ++ List.zipWith
    (fun previous block => { block with lastBlockTimeSecs := previous.tblockSecs })
    blocks (blocks.drop 1)

theorem setLastBlockTimes_getElem? {i : Nat} (h : (setLastBlockTimes blocks)[i]? = some block) :
    ∃ stored time, blocks[i]? = some stored ∧ block = { stored with lastBlockTimeSecs := time } := by
  match blocks, i with
  | first :: rest, 0 => exact ⟨first, _, rfl, (Option.some.inj h).symm⟩
  | first :: rest, i + 1 =>
    have h' : (List.zipWith (fun previous block : RawBlockData =>
        { block with lastBlockTimeSecs := previous.tblockSecs }) (first :: rest) rest)[i]? =
          some block := h
    obtain ⟨previous, stored, _, hstored, rfl⟩ := List.getElem?_zipWith_eq_some.mp h'
    exact ⟨stored, _, hstored, rfl⟩

@[simp] theorem length_setLastBlockTimes (blocks : List RawBlockData) :
    (setLastBlockTimes blocks).length = blocks.length := by
  cases blocks <;> simp [setLastBlockTimes]

/-- The blocks up to the height that is verified; a block that is missing there is an error that
carries its number. -/
def readBlocksFromCache (storage : FetchStorage) : Except Nat (List RawBlockData) := do
  let maxHeight := storage.highestVerified.getD 0
  let blocks ← (storage.getBlockDataRange (List.range (maxHeight + 1))).zipIdx.mapM
    fun (block, i) => okOr i block
  return setLastBlockTimes blocks

/-- The blocks read are those stored up to the verified height; only their times are set. -/
theorem readBlocksFromCache_ok (h : readBlocksFromCache storage = .ok blocks) :
    blocks.length = storage.highestVerified.getD 0 + 1 ∧
      ∀ i block, blocks[i]? = some block → ∃ stored time, storage.blocks i = some stored ∧
        block = { stored with lastBlockTimeSecs := time } := by
  obtain ⟨read, hread, h⟩ := of_bind h
  cases h
  obtain ⟨hlength, hget⟩ := List.forall₂_iff_get.mp (of_mapM hread)
  simp only [getBlockDataRange, List.length_zipIdx, List.length_map,
    List.length_range] at hlength
  refine ⟨by rw [length_setLastBlockTimes, hlength], fun i block hblock => ?_⟩
  obtain ⟨stored, time, hstored, rfl⟩ := setLastBlockTimes_getElem? hblock
  obtain ⟨hi, rfl⟩ := List.getElem?_eq_some_iff.mp hstored
  refine ⟨_, time, ?_, rfl⟩
  have hok := of_okOr (hget i (by simpa [getBlockDataRange, hlength] using hi) hi)
  simpa [getBlockDataRange, getBlockData] using hok

/-! ## Tasks -/

inductive ComputeError
  | subxtError
  | eventsError
  | blockError
  | blockMissing (blockNumber : Nat)
  | runtimeVersionError
  | childBlockVerificationFailed (blockNumber : Nat)
  | ledgerVersionMissing (blockNumber : Nat)
deriving DecidableEq, Repr

structure FetchedBlock where
  blockNumber : Nat
  extractData : Except ComputeError RawBlockData
  number_eq : ∀ block, extractData = .ok block → block.number = blockNumber

inductive ComputeTask
  | extractBlockData (min max : Nat) (blocks : List FetchedBlock)
  | verify (min max : Nat)
  | finalVerify (min max : Nat)
  | noOp

def blockRange (min max : Nat) : List Nat := List.range' min (max - min)

/-- The numbers of `min..max` that a fetch task asks the node for. -/
def uncached (storage : FetchStorage) (min max : Nat) : List Nat :=
  ((blockRange min max).zip (storage.getBlockDataRange (blockRange min max))).filterMap
    fun (i, block) => if block.isNone then some i else none

/-- The check of a final task at the lower border, for the first block only. -/
def checkMin (storage : FetchStorage) (min : Nat) : Except ComputeError Unit :=
  if min = 0 then do
    let block ← okOr (.blockMissing 0) (storage.getBlockData 0)
    if block.parentHash ≠ zeroHash then .error (.childBlockVerificationFailed 0) else .ok ()
  else .ok ()

/-- The check of a final task at the upper border, when the next block is there. -/
def checkMax (storage : FetchStorage) (max : Nat) : Except ComputeError Unit :=
  match storage.getBlockDataRange [max - 1, max] with
  | [some parent, some child] =>
    if child.parentHash ≠ parent.hash then
      .error (.childBlockVerificationFailed child.number)
    else .ok ()
  | _ => .ok ()

/-- The task that follows, and the storage after this one. -/
def ComputeTask.work (storage : FetchStorage) :
    ComputeTask → Except ComputeError (ComputeTask × FetchStorage)
  | .extractBlockData min max blocks => do
    let blocksToInsert ← blocks.mapM FetchedBlock.extractData
    return (.verify min max, storage.insertBlockDataRange blocksToInsert)
  | .verify min max => do
    let blocks ← ((blockRange min max).zip (storage.getBlockDataRange (blockRange min max))).mapM
      fun (i, block) => okOr (.blockMissing i) block
    let someFailingPair := (blocks.zip (blocks.drop 1)).find?
      fun (parent, child) => parent.hash ≠ child.parentHash
    match someFailingPair with
    | some (_, child) => throw (.childBlockVerificationFailed child.number)
    | none => return (.finalVerify min max, storage)
  | .finalVerify min max => do
    checkMin storage min
    checkMax storage max
    return (.noOp, storage)
  | .noOp => return (.noOp, storage)

section

variable {storage storage' : FetchStorage} {task : ComputeTask} {min max i : Nat}

theorem mem_uncached : i ∈ uncached storage min max ↔
    (min ≤ i ∧ i < max) ∧ storage.blocks i = none := by
  simp only [uncached, getBlockDataRange, getBlockData,
    ← List.map_prod_left_eq_zip, List.filterMap_map, List.mem_filterMap, blockRange,
    List.mem_range'_1]
  constructor
  · rintro ⟨j, hj, h⟩
    obtain ⟨hnone, rfl⟩ : storage.blocks j = none ∧ j = i := by simpa using h
    exact ⟨by omega, hnone⟩
  · rintro ⟨hi, hnone⟩
    exact ⟨i, by omega, by simp [hnone]⟩

theorem work_extractBlockData
    (h : (ComputeTask.extractBlockData min max blocks).work storage = .ok (task, storage')) :
    task = .verify min max ∧ ∃ inserted, storage' = storage.insertBlockDataRange inserted ∧
      ∀ block ∈ inserted, ∃ fetched ∈ blocks, fetched.blockNumber = block.number := by
  obtain ⟨inserted, hinserted, h⟩ := of_bind h
  cases h
  refine ⟨rfl, inserted, rfl, fun block hblock => ?_⟩
  obtain ⟨hlength, hget⟩ := List.forall₂_iff_get.mp (of_mapM hinserted)
  obtain ⟨k, hk, rfl⟩ := List.getElem_of_mem hblock
  have hk' : k < blocks.length := by omega
  exact ⟨blocks[k], List.getElem_mem hk', (blocks[k].number_eq _ (hget k hk' hk)).symm⟩

/-- What a passed verification task has checked: the blocks of the job are linked. -/
theorem work_verify (h : (ComputeTask.verify min max).work storage = .ok (task, storage')) :
    task = .finalVerify min max ∧ storage' = storage ∧
      LinkedOn IsParent storage.blocks min max := by
  obtain ⟨blocks, hblocks, h⟩ := of_bind h
  dsimp only at h
  split at h
  case h_1 => cases h
  case h_2 hnone =>
    cases h
    refine ⟨rfl, rfl, ?_⟩
    rw [getBlockDataRange, ← List.map_prod_left_eq_zip] at hblocks
    obtain ⟨hlength, hget⟩ := List.forall₂_iff_get.mp
      (List.forall₂_map_left_iff.mp (of_mapM hblocks))
    rw [blockRange, List.length_range'] at hlength
    refine .ofList (l := blocks) (fun k hk => ?_) (by omega) fun pair hpair => ?_
    · have hok := of_okOr (hget k (by simpa [blockRange, hlength] using hk) hk)
      simpa [blockRange, getBlockData] using hok
    · have hpass := List.find?_eq_none.mp hnone pair hpair
      exact (show pair.1.hash = pair.2.parentHash by simpa using hpass).symm

theorem checkMin_ok (h : checkMin storage 0 = .ok ()) :
    ∃ block, storage.blocks 0 = some block ∧ block.parentHash = zeroHash := by
  obtain ⟨block, hblock, h⟩ := of_bind h
  exact ⟨block, of_okOr hblock, not_not.mp (of_check h).1⟩

theorem checkMax_ok (h : checkMax storage max = .ok ()) :
    JoinedAt IsParent storage.blocks max := by
  intro parent child hparent hchild
  simp only [checkMax, getBlockDataRange, getBlockData, List.map_cons,
    List.map_nil, hparent, hchild] at h
  exact not_not.mp (of_check h).1

/-- What the last task of a job has checked: the border to the next job, and the genesis block. -/
theorem work_finalVerify
    (h : (ComputeTask.finalVerify min max).work storage = .ok (task, storage')) :
    storage' = storage ∧ JoinedAt IsParent storage.blocks max ∧
      (min = 0 → ∃ block, storage.blocks 0 = some block ∧ block.parentHash = zeroHash) := by
  obtain ⟨⟨⟩, hmin, h⟩ := of_bind h
  obtain ⟨⟨⟩, hmax, h⟩ := of_bind h
  cases h
  refine ⟨rfl, checkMax_ok hmax, ?_⟩
  rintro rfl
  exact checkMin_ok hmin

/-! ## When a task succeeds -/

theorem mem_of_insertBlockDataRange (h : (storage.insertBlockDataRange inserted).blocks i = some block) :
    storage.blocks i = some block ∨ block ∈ inserted ∧ block.number = i := by
  induction inserted generalizing storage with
  | nil => exact .inl h
  | cons head inserted ih =>
    rcases ih h with hstored | ⟨hmem, hnumber⟩
    · simp only [insertBlockData_blocks, Function.update_apply] at hstored
      split at hstored
      case isTrue hi =>
        cases hstored
        exact .inr ⟨List.mem_cons_self, hi.symm⟩
      case isFalse => exact .inl hstored
    · exact .inr ⟨List.mem_cons_of_mem _ hmem, hnumber⟩

theorem stored_insertBlockDataRange (h : ∃ block, storage.blocks i = some block) :
    ∃ block, (storage.insertBlockDataRange inserted).blocks i = some block := by
  induction inserted generalizing storage with
  | nil => exact h
  | cons head inserted ih =>
    apply ih
    simp only [insertBlockData_blocks, Function.update_apply]
    split
    case isTrue => exact ⟨head, rfl⟩
    case isFalse => exact h

theorem stored_of_mem_inserted (h : block ∈ inserted) :
    ∃ stored, (storage.insertBlockDataRange inserted).blocks block.number = some stored := by
  induction inserted generalizing storage with
  | nil => exact absurd h List.not_mem_nil
  | cons head inserted ih =>
    rcases List.mem_cons.mp h with rfl | h
    · have hself : ∃ stored, (storage.insertBlockData block.number block).blocks block.number =
          some stored := ⟨block, Function.update_self _ _ _⟩
      have hkept : ∃ stored, ((storage.insertBlockData block.number block).insertBlockDataRange
          inserted).blocks block.number = some stored := stored_insertBlockDataRange hself
      exact hkept
    · exact ih h

theorem work_extractBlockData_inserted
    (h : (ComputeTask.extractBlockData min max blocks).work storage = .ok (task, storage')) :
    ∃ inserted, storage' = storage.insertBlockDataRange inserted ∧
      List.Forall₂ (fun fetched block => fetched.extractData = .ok block) blocks inserted := by
  obtain ⟨inserted, hinserted, h⟩ := of_bind h
  cases h
  exact ⟨inserted, rfl, of_mapM hinserted⟩

theorem work_extractBlockData_of_ok (h : ∀ fetched ∈ blocks, ∃ block, fetched.extractData = .ok block) :
    ∃ storage', (ComputeTask.extractBlockData min max blocks).work storage =
      .ok (.verify min max, storage') := by
  have hget : ∀ fetched ∈ blocks, fetched.extractData =
      .ok (fetched.extractData.toOption.getD ⟨zeroHash, zeroHash, 0, 0, 0⟩) := by
    intro fetched hfetched
    obtain ⟨block, hblock⟩ := h fetched hfetched
    rw [hblock]
    rfl
  rw [ComputeTask.work, mapM_ok hget]
  exact ⟨_, rfl⟩

theorem work_verify_of_linked (h : LinkedOn IsParent storage.blocks min max) :
    (ComputeTask.verify min max).work storage = .ok (.finalVerify min max, storage) := by
  obtain ⟨stored, hstored⟩ : ∃ stored : Nat → RawBlockData, ∀ i, min ≤ i → i < max →
      storage.blocks i = some (stored i) :=
    ⟨fun i => (storage.blocks i).getD ⟨zeroHash, zeroHash, 0, 0, 0⟩, fun i hmin hmax => by
      obtain ⟨block, hblock⟩ := h.defined i hmin hmax
      simp [hblock]⟩
  have hread : ((blockRange min max).zip (storage.getBlockDataRange (blockRange min max))).mapM
      (fun (i, block) => okOr (ComputeError.blockMissing i) block) =
        .ok ((blockRange min max).map stored) := by
    rw [getBlockDataRange, ← List.map_prod_left_eq_zip, mapM_ok (g := fun p => stored p.1)]
    · rw [List.map_map]
      rfl
    · intro p hp
      obtain ⟨i, hi, rfl⟩ := List.mem_map.mp hp
      rw [blockRange, List.mem_range'_1] at hi
      simp only [getBlockData, hstored i hi.1 (by omega), okOr]
  have hpairs : (((blockRange min max).map stored).zip (((blockRange min max).map stored).drop 1)).find?
      (fun (parent, child) => parent.hash ≠ child.parentHash) = none := by
    refine List.find?_eq_none.mpr fun pair hpair => ?_
    obtain ⟨k, hk, rfl⟩ := List.getElem_of_mem hpair
    simp only [List.length_zip, List.length_drop, List.length_map, blockRange, List.length_range']
      at hk
    have hjoined := h.joined (min + k) (Nat.le_add_right _ _) (by omega) _ _
      (hstored (min + k) (by omega) (by omega)) (hstored (min + k + 1) (by omega) (by omega))
    have hparent : (stored (min + k + 1)).parentHash = (stored (min + k)).hash := hjoined
    simp only [List.getElem_zip, List.getElem_drop, List.getElem_map, blockRange, List.getElem_range',
      Nat.one_mul, Nat.add_comm 1 k, ← Nat.add_assoc]
    simp [hparent]
  rw [ComputeTask.work, hread]
  simp only [bind, Except.bind, hpairs]
  rfl

theorem work_finalVerify_of_joined (hmax : JoinedAt IsParent storage.blocks max)
    (hmin : min = 0 → ∃ block, storage.blocks 0 = some block ∧ block.parentHash = zeroHash) :
    (ComputeTask.finalVerify min max).work storage = .ok (.noOp, storage) := by
  have hcheckMin : checkMin storage min = .ok () := by
    rw [checkMin]
    split
    case isTrue hzero =>
      obtain ⟨block, hblock, hparent⟩ := hmin hzero
      rw [getBlockData, hblock]
      simp [okOr, hparent, bind, Except.bind]
    case isFalse => rfl
  have hcheckMax : checkMax storage max = .ok () := by
    rw [checkMax]
    split
    case h_1 parent child heq =>
      simp only [getBlockDataRange, getBlockData, List.map_cons,
        List.map_nil, List.cons.injEq, and_true] at heq
      have hparent : child.parentHash = parent.hash := hmax parent child heq.1 heq.2
      rw [if_neg (not_not.mpr hparent)]
    case h_2 => rfl
  rw [ComputeTask.work, hcheckMin, hcheckMax]
  rfl

end

end MidnightNode.Toolkit
