import MidnightNode.Runtime.BlockExecution
import MidnightNode.Toolkit.FetchTasks

/-!
# Extraction of transactions from a block

The toolkit reads the transactions of a block from two records of its execution
(`fetcher/compute_task.rs`): Midnight transactions from the calls of the extrinsics, system transactions
from the events in the phases of the extrinsics. The calls do not tell whether a dispatch succeeded or what
it dispatched, and the phases of the extrinsics are not all there are.
-/

namespace MidnightNode.Toolkit

open Fallible MidnightNode.Runtime TaggedPieces

/-! ## Versions -/

inductive RuntimeVersion
  | v0_21_0
  | v0_22_0
  | v1_0_0
  | v2_0_0
  | v2_1_0
  | v2_2_0
deriving DecidableEq, Repr

namespace RuntimeVersion

def toSpecVersion : RuntimeVersion → Nat
  | .v0_21_0 => 21000
  | .v0_22_0 => 22000
  | .v1_0_0 => 1000000
  | .v2_0_0 => 2000000
  | .v2_1_0 => 2001000
  | .v2_2_0 => 2002000

def ofSpecVersion? : Nat → Option RuntimeVersion
  | 21000 => some .v0_21_0
  | 22000 => some .v0_22_0
  | 1000000 => some .v1_0_0
  | 2000000 => some .v2_0_0
  | 2001000 => some .v2_1_0
  | 2002000 => some .v2_2_0
  | _ => none

/-- A version in the digest of a header: a `u32`, least significant byte first. -/
def decode? : List UInt8 → Option RuntimeVersion
  | a :: b :: c :: d :: _ =>
    ofSpecVersion? (a.toNat + 256 * (b.toNat + 256 * (c.toNat + 256 * d.toNat)))
  | _ => none

end RuntimeVersion

inductive LedgerVersion
  | ledger7
  | ledger8
  | ledger9
deriving DecidableEq, Repr

def LedgerVersion.fromSpecVersion (specVersion : Nat) : Option LedgerVersion :=
  if 17000 ≤ specVersion ∧ specVersion ≤ 21999 then some .ledger7
  else if 22000 ≤ specVersion ∧ specVersion ≤ 1999999 then some .ledger8
  else if 2000000 ≤ specVersion then some .ledger9
  else none

/-! ## Blocks of the node -/

/-- An event of the runtime; the toolkit looks for those of the system transactions. -/
inductive Event
  | systemTransactionApplied (serializedSystemTransaction : List UInt8)
  | other
deriving DecidableEq

structure EventRecord where
  phase : Phase
  event : Event
deriving DecidableEq

/-- The system transaction that an event reports, with its phase. -/
def EventRecord.applied? (record : EventRecord) : Option (Phase × List UInt8) :=
  match record.event with
  | .systemTransactionApplied tx => some (record.phase, tx)
  | .other => none

inductive DigestItem
  | consensus (engine : List UInt8) (data : List UInt8)
  | other
deriving DecidableEq

/-- `MNSV`. -/
def versionId : List UInt8 := [77, 78, 83, 86]

structure NodeBlock where
  blockHash : Bytes 32
  parentHash : Bytes 32
  digest : List DigestItem
  blockNumber : Nat
  rawBody : List Extrinsic
  events : List EventRecord
  stateRoot : Option (List UInt8)
  state : Option (List UInt8)

/-- The types that were generated for a version: which extrinsics they decode, and how they read the
argument of `timestamp.set`. -/
structure MidnightMetadata where
  decodes : RuntimeCall → Bool
  now : List UInt8 → Nat

namespace MidnightMetadata

def sendMnTransaction : RuntimeCall → Option (List UInt8)
  | .sendMnTransaction midnightTx => some midnightTx
  | _ => none

def sendMnSystemTransaction : RuntimeCall → Option (List UInt8)
  | .gated .midnightSystemSendMnSystemTransaction midnightSystemTx => some midnightSystemTx
  | _ => none

def timestampSet (metadata : MidnightMetadata) : RuntimeCall → Option Nat
  | .gated .timestampSet args => some (metadata.now args)
  | _ => none

theorem sendMnTransaction_eq_some (h : sendMnTransaction call = some tx) :
    call = .sendMnTransaction tx := by
  cases call with
  | sendMnTransaction midnightTx =>
    cases h
    rfl
  | _ => cases h

end MidnightMetadata

/-! ## Extraction -/

/-- The extraction of a block returns an error or panics. -/
inductive ExtractionFailure
  | error (e : ComputeError)
  | panicked (message : String)
deriving DecidableEq, Repr

structure ExtractedBlock extends RawBlockData where
  ledgerVersion : LedgerVersion
  transactions : List RawTransaction
  tblockErr : Nat
  parentBlockHash : Bytes 32
  stateRoot : Option (List UInt8)
  state : Option (List UInt8)
deriving DecidableEq, Repr

structure Found where
  timestampMs : Option Nat
  transactions : List RawTransaction

/-- What is read from the call of an extrinsic. -/
def readCall (metadata : MidnightMetadata) (blockNumber : Nat) (found : Found) (call : RuntimeCall) :
    Except ExtractionFailure Found :=
  match metadata.timestampSet call with
  | some ts =>
    if found.timestampMs.isSome then .error (.panicked "this block has two timestamps")
    else .ok { found with timestampMs := some ts }
  | none =>
    match MidnightMetadata.sendMnTransaction call with
    | some bytes => .ok { found with transactions := found.transactions ++ [.midnight bytes] }
    | none =>
      if blockNumber = 0 then
        match MidnightMetadata.sendMnSystemTransaction call with
        | some bytes => .ok { found with transactions := found.transactions ++ [.system bytes] }
        | none => .ok found
      else .ok found

/-- The system transactions that the events of one extrinsic report. -/
def readEvents (events : List EventRecord) (extIndex : Nat) : List RawTransaction :=
  events.filterMap fun ev =>
    if ev.phase ≠ .applyExtrinsic extIndex then none
    else
      match ev.event with
      | .systemTransactionApplied tx => some (.system tx)
      | .other => none

def readExtrinsic (metadata : MidnightMetadata) (block : NodeBlock) (found : Found)
    (ext : Extrinsic × Nat) : Except ExtractionFailure Found :=
  if !metadata.decodes ext.1.call then .ok found
  else do
    let found ← readCall metadata block.blockNumber found ext.1.call
    return { found with transactions := found.transactions ++ readEvents block.events ext.2 }

def processBlockWithProtocol (metadata : MidnightMetadata) (block : NodeBlock)
    (version : RuntimeVersion) : Except ExtractionFailure ExtractedBlock := do
  let found ← block.rawBody.zipIdx.foldlM (readExtrinsic metadata block) ⟨none, []⟩
  let timestampMs ← okOr (.panicked "failed to find a timestamp extrinsic in block") found.timestampMs
  let tblockSecs := timestampMs / 1000
  let ledgerVersion ← okOr (.error (.ledgerVersionMissing block.blockNumber))
    (LedgerVersion.fromSpecVersion version.toSpecVersion)
  return {
    hash := block.blockHash
    parentHash := block.parentHash
    number := block.blockNumber
    tblockSecs
    lastBlockTimeSecs := tblockSecs
    ledgerVersion
    transactions := found.transactions
    tblockErr := 30
    parentBlockHash := block.parentHash
    stateRoot := block.stateRoot
    state := block.state }

/-- The version is that of the first digest item that carries one. -/
def extractData (metadata : RuntimeVersion → MidnightMetadata) (block : NodeBlock) :
    Except ExtractionFailure ExtractedBlock := do
  let data ← okOr (.panicked "no runtime version found") <| block.digest.findSome? fun
    | .consensus engine data => if engine = versionId then some data else none
    | .other => none
  let version ← okOr (.error .runtimeVersionError) (RuntimeVersion.decode? data)
  processBlockWithProtocol (metadata version) block version

/-! ## What is extracted -/

section

variable {metadata : MidnightMetadata} {block : NodeBlock} {found found' : Found}

def stamp? (metadata : MidnightMetadata) (ext : Extrinsic) : Option Nat :=
  if metadata.decodes ext.call then metadata.timestampSet ext.call else none

/-- The transactions that are read for an extrinsic of a block after the first one. -/
def readPiece (metadata : MidnightMetadata) (events : List EventRecord) (ext : Extrinsic × Nat) :
    List RawTransaction :=
  if metadata.decodes ext.1.call then
    (MidnightMetadata.sendMnTransaction ext.1.call).toList.map .midnight ++ readEvents events ext.2
  else []

theorem sendMnTransaction_of_timestampSet (h : metadata.timestampSet call = some ts) :
    MidnightMetadata.sendMnTransaction call = none := by
  cases call with
  | gated => rfl
  | _ => cases h

theorem readExtrinsic_eq (hnumber : block.blockNumber ≠ 0) (ext : Extrinsic × Nat) :
    readExtrinsic metadata block found ext =
      if found.timestampMs.isSome ∧ (stamp? metadata ext.1).isSome then
        .error (.panicked "this block has two timestamps")
      else .ok ⟨found.timestampMs.or (stamp? metadata ext.1),
        found.transactions ++ readPiece metadata block.events ext⟩ := by
  unfold readExtrinsic stamp? readPiece
  cases hdecodes : metadata.decodes ext.1.call with
  | false => simp
  | true =>
    cases hts : metadata.timestampSet ext.1.call with
    | some ts =>
      have hsend := sendMnTransaction_of_timestampSet hts
      cases hfound : found.timestampMs with
      | some ms =>
        simp only [readCall, hts, hfound]
        rfl
      | none => simp [readCall, hts, hsend, hfound, bind, Except.bind, pure, Except.pure]
    | none =>
      cases hsend : MidnightMetadata.sendMnTransaction ext.1.call with
      | some tx => simp [readCall, hts, hsend, bind, Except.bind, pure, Except.pure]
      | none => simp [readCall, hts, hsend, hnumber, bind, Except.bind, pure, Except.pure]

theorem readExtrinsics_eq_ok_iff (hnumber : block.blockNumber ≠ 0) (exts : List (Extrinsic × Nat)) :
    exts.foldlM (readExtrinsic metadata block) found = .ok found' ↔
      (found.timestampMs.toList ++ exts.filterMap fun ext => stamp? metadata ext.1) =
          found'.timestampMs.toList ∧
        found'.transactions =
          found.transactions ++ (exts.map (readPiece metadata block.events)).flatten := by
  induction exts generalizing found with
  | nil =>
    obtain ⟨ms, txs⟩ := found
    obtain ⟨ms', txs'⟩ := found'
    cases ms <;> cases ms' <;> simp [pure, Except.pure, eq_comm]
  | cons ext exts ih =>
    rw [List.foldlM_cons, readExtrinsic_eq hnumber]
    cases hfound : found.timestampMs with
    | none =>
      rw [if_neg (by simp)]
      refine ih.trans ?_
      cases hstamp : stamp? metadata ext.1 with
      | none => simp [hstamp]
      | some ts => simp [hstamp]
    | some ms =>
      cases hstamp : stamp? metadata ext.1 with
      | none =>
        rw [if_neg (by simp)]
        refine ih.trans ?_
        simp [hstamp]
      | some ts =>
        rw [if_pos (by simp)]
        refine iff_of_false (fun h => by cases h) ?_
        rintro ⟨h, -⟩
        have hlength := congrArg List.length h
        have hle : found'.timestampMs.toList.length ≤ 1 := by
          cases found'.timestampMs <;> simp
        simp [hstamp] at hlength
        omega

theorem processBlockWithProtocol_ok_iff (hnumber : block.blockNumber ≠ 0) (version : RuntimeVersion) :
    (∃ data, processBlockWithProtocol metadata block version = .ok data) ↔
      ∃ ts, block.rawBody.filterMap (stamp? metadata) = [ts] := by
  have hstamps : (block.rawBody.zipIdx.filterMap fun ext => stamp? metadata ext.1) =
      block.rawBody.filterMap (stamp? metadata) := by
    conv_rhs => rw [← List.zipIdx_map_fst 0 block.rawBody, List.filterMap_map]
    rfl
  constructor
  · rintro ⟨data, h⟩
    obtain ⟨found, hfound, h⟩ := of_bind h
    obtain ⟨ts, hts, -⟩ := of_bind h
    have hts := of_okOr hts
    obtain ⟨hread, -⟩ := (readExtrinsics_eq_ok_iff hnumber _).mp hfound
    rw [hts, hstamps] at hread
    exact ⟨ts, hread⟩
  · rintro ⟨ts, hts⟩
    have hfound : block.rawBody.zipIdx.foldlM (readExtrinsic metadata block) ⟨none, []⟩ =
        .ok ⟨some ts, [] ++ (block.rawBody.zipIdx.map (readPiece metadata block.events)).flatten⟩ :=
      (readExtrinsics_eq_ok_iff hnumber _).mpr ⟨by simpa [hstamps] using hts, rfl⟩
    cases version <;> exact ⟨_, by rw [processBlockWithProtocol, hfound]; rfl⟩

end

/-! ## Extraction and execution -/

theorem readEvents_eq (events : List EventRecord) (extIndex : Nat) :
    readEvents events extIndex =
      (withTag (.applyExtrinsic extIndex) (events.filterMap EventRecord.applied?)).map .system := by
  induction events with
  | nil => rfl
  | cons record events ih =>
    obtain ⟨phase, event⟩ := record
    rw [readEvents, List.filterMap_cons, ← readEvents, ih, List.filterMap_cons]
    cases event with
    | other => simp [EventRecord.applied?]
    | systemTransactionApplied tx =>
      by_cases hphase : phase = .applyExtrinsic extIndex
      · simp [EventRecord.applied?, hphase, withTag]
      · simp [EventRecord.applied?, hphase, withTag]

section

variable {Rest : Type} {env : Env Rest} (metadata : MidnightMetadata) (inherentTxs : InherentTxs Rest)
  (exec : Runtime.Block Rest) (s : env.State)

/-- The block that the node sends for an execution. Each system transaction that is applied is reported by
one event, in the phase in which it is applied. -/
structure Produces (block : NodeBlock) : Prop where
  number_ne : block.blockNumber ≠ 0
  body_eq : block.rawBody = exec.extrinsics
  events_eq : block.events.filterMap EventRecord.applied? =
    (exec.applied inherentTxs s).filterMap fun x => x.2.system?.map (x.1, ·)

/-- The transactions that are extracted, with the phases of the extrinsics they are read for. -/
def extracted (block : NodeBlock) : List (Phase × RawTransaction) :=
  tagPieces phaseOf 0 ([] :: block.rawBody.zipIdx.map (readPiece metadata block.events))

/-- What is extracted for an extrinsic that applies the given transactions. -/
def expectedPiece (call : RuntimeCall) (txs : List RawTransaction) : List RawTransaction :=
  if metadata.decodes call then
    (MidnightMetadata.sendMnTransaction call).toList.map .midnight ++
      (txs.filterMap RawTransaction.system?).map .system
  else []

/-- The extraction gets an extrinsic right. -/
structure ExactAt (ext : Extrinsic) (t : env.State) : Prop where
  succeeds : metadata.decodes ext.call = true → ∀ tx, ext.call = .sendMnTransaction tx →
    ∃ t', dispatch ext.origin ext.call t = .ok t'
  direct : metadata.decodes ext.call = true → (∀ tx, ext.call ≠ .sendMnTransaction tx) →
    ∀ tx, .midnight tx ∉ applied inherentTxs ext.origin ext.call t
  read : metadata.decodes ext.call = false → applied inherentTxs ext.origin ext.call t = []

/-- The scheduler applies no transaction, and the extraction gets each extrinsic right. -/
structure Exact : Prop where
  hooks : appliedByHooks inherentTxs s exec.onInitialize = []
  extrinsics : ∀ x ∈ exec.executed s, ExactAt metadata inherentTxs x.1 x.2

/-- All extrinsics are decoded, and Midnight transactions are applied by extrinsics of their own only. -/
structure Direct : Prop where
  hooks : ∀ tx, .midnight tx ∉ appliedByHooks inherentTxs s exec.onInitialize
  decodes : ∀ x ∈ exec.executed s, metadata.decodes x.1.call = true
  extrinsics : ∀ x ∈ exec.executed s, (∀ tx, x.1.call ≠ .sendMnTransaction tx) →
    ∀ tx, .midnight tx ∉ applied inherentTxs x.1.origin x.1.call x.2

variable {metadata inherentTxs exec s} {block : NodeBlock}

theorem system?_of_map_system (txs : List (List UInt8)) :
    (txs.map RawTransaction.system).filterMap RawTransaction.system? = txs := by
  induction txs with
  | nil => rfl
  | cons tx txs ih => exact congrArg (tx :: ·) ih

theorem map_system_eq_self_iff {txs : List RawTransaction} :
    (txs.filterMap RawTransaction.system?).map .system = txs ↔ ∀ tx, .midnight tx ∉ txs := by
  constructor
  · intro h tx htx
    rw [← h] at htx
    obtain ⟨_, -, heq⟩ := List.mem_map.mp htx
    cases heq
  · intro h
    induction txs with
    | nil => rfl
    | cons tx txs ih =>
      cases tx with
      | midnight tx => exact absurd List.mem_cons_self (h tx)
      | system tx =>
        exact congrArg (.system tx :: ·) (ih fun tx' htx' => h tx' (List.mem_cons_of_mem _ htx'))

theorem expectedPiece_eq_iff {ext : Extrinsic} {t : env.State} :
    expectedPiece metadata ext.call (applied inherentTxs ext.origin ext.call t) =
      applied inherentTxs ext.origin ext.call t ↔ ExactAt metadata inherentTxs ext t := by
  unfold expectedPiece
  cases hdecodes : metadata.decodes ext.call with
  | false =>
    rw [if_neg Bool.false_ne_true]
    refine ⟨fun h => ⟨?_, ?_, fun _ => h.symm⟩, fun h => (h.read hdecodes).symm⟩
    · intro htrue
      cases hdecodes.symm.trans htrue
    · intro htrue
      cases hdecodes.symm.trans htrue
  | true =>
    rw [if_pos rfl]
    cases hsend : MidnightMetadata.sendMnTransaction ext.call with
    | some tx =>
      have hcall := MidnightMetadata.sendMnTransaction_eq_some hsend
      cases hdispatch : dispatch ext.origin ext.call t with
      | ok t' =>
        have happlied : applied inherentTxs ext.origin ext.call t = [.midnight tx] := by
          rw [hcall] at hdispatch ⊢
          exact applied_sendMnTransaction inherentTxs hdispatch
        rw [happlied]
        refine iff_of_true rfl ⟨fun _ _ _ => ⟨t', hdispatch⟩, fun _ hne => ?_, fun hfalse => ?_⟩
        · exact absurd hcall (hne tx)
        · cases hdecodes.symm.trans hfalse
      | error e =>
        rw [applied_of_error inherentTxs hdispatch]
        refine iff_of_false (List.cons_ne_nil _ _) fun h => ?_
        obtain ⟨t', ht'⟩ := h.succeeds hdecodes tx hcall
        cases hdispatch.symm.trans ht'
    | none =>
      have hne : ∀ tx, ext.call ≠ .sendMnTransaction tx := by
        intro tx hcall
        rw [hcall] at hsend
        cases hsend
      refine map_system_eq_self_iff.trans ⟨fun h => ⟨?_, fun _ _ => h, ?_⟩, fun h => h.direct hdecodes hne⟩
      · intro _ tx hcall
        exact absurd hcall (hne tx)
      · intro hfalse
        cases hdecodes.symm.trans hfalse

/-- What is read for the extrinsics of a block is what follows from what they apply. -/
theorem Produces.readPieces (h : Produces inherentTxs exec s block) :
    block.rawBody.zipIdx.map (readPiece metadata block.events) =
      (exec.executed s).map fun x =>
        expectedPiece metadata x.1.call (applied inherentTxs x.1.origin x.1.call x.2) := by
  have hbody : block.rawBody = (exec.executed s).map Prod.fst := by
    rw [h.body_eq, Runtime.Block.executed, map_fst_withStates]
  have hlength : block.rawBody.length = (exec.executed s).length := by
    rw [hbody, List.length_map]
  refine List.ext_getElem (by simpa using hlength) fun k hk hk' => ?_
  have hk'' : k < (exec.executed s).length := by simpa using hk'
  have hevents : readEvents block.events k = ((applied inherentTxs (exec.executed s)[k].1.origin
      (exec.executed s)[k].1.call (exec.executed s)[k].2).filterMap RawTransaction.system?).map
        .system := by
    have hphase : Phase.applyExtrinsic k = phaseOf (0 + (k + 1)) := by rw [Nat.zero_add, phaseOf]
    rw [readEvents_eq, h.events_eq, Runtime.Block.applied, filterMap_tagPieces, hphase,
      withTag_tagPieces phaseOf_injective]
    simp [Runtime.Block.pieces, hk'']
  simp only [List.getElem_map, List.getElem_zipIdx, Nat.zero_add, readPiece, expectedPiece, hevents,
    hbody]

theorem Produces.extracted_eq_iff (h : Produces inherentTxs exec s block) :
    extracted metadata block = exec.applied inherentTxs s ↔ Exact metadata inherentTxs exec s := by
  rw [extracted, Runtime.Block.applied, tagPieces_inj phaseOf_injective
    (by simp [Runtime.Block.pieces, h.readPieces]), h.readPieces, Runtime.Block.pieces, List.cons.injEq,
    List.map_inj_left]
  constructor
  · rintro ⟨hhooks, hpieces⟩
    exact ⟨hhooks.symm, fun x hx => expectedPiece_eq_iff.mp (hpieces x hx)⟩
  · intro hexact
    exact ⟨hexact.hooks.symm, fun x hx => expectedPiece_eq_iff.mpr (hexact.extrinsics x hx)⟩

theorem Produces.transactions_eq (h : Produces inherentTxs exec s block)
    (hok : processBlockWithProtocol metadata block version = .ok data) :
    data.transactions = (extracted metadata block).map Prod.snd := by
  obtain ⟨found, hfound, hok⟩ := of_bind hok
  obtain ⟨ts, -, hok⟩ := of_bind hok
  obtain ⟨ledgerVersion, -, hok⟩ := of_bind hok
  cases hok
  obtain ⟨-, hread⟩ := (readExtrinsics_eq_ok_iff h.number_ne _).mp hfound
  rw [extracted, map_snd_tagPieces]
  exact hread

namespace Direct

variable {x : Extrinsic × env.State}

theorem sublist (h : Direct metadata inherentTxs exec s) (hx : x ∈ exec.executed s) :
    (applied inherentTxs x.1.origin x.1.call x.2).Sublist
      (expectedPiece metadata x.1.call (applied inherentTxs x.1.origin x.1.call x.2)) := by
  cases hsend : MidnightMetadata.sendMnTransaction x.1.call with
  | none =>
    have hne : ∀ tx, x.1.call ≠ .sendMnTransaction tx := by
      intro tx hcall
      rw [hcall] at hsend
      cases hsend
    rw [expectedPiece, if_pos (h.decodes x hx), hsend, Option.toList_none, List.map_nil, List.nil_append,
      map_system_eq_self_iff.mpr (h.extrinsics x hx hne)]
  | some tx =>
    have hcall := MidnightMetadata.sendMnTransaction_eq_some hsend
    cases hdispatch : dispatch x.1.origin x.1.call x.2 with
    | error e =>
      rw [applied_of_error inherentTxs hdispatch]
      exact List.nil_sublist _
    | ok t' =>
      have hexact : ExactAt metadata inherentTxs x.1 x.2 :=
        { succeeds := fun _ _ _ => ⟨t', hdispatch⟩
          direct := fun _ hne => absurd hcall (hne tx)
          read := fun hfalse => nomatch (h.decodes x hx).symm.trans hfalse }
      rw [expectedPiece_eq_iff.mpr hexact]

theorem filterMap_system (h : Direct metadata inherentTxs exec s) (hx : x ∈ exec.executed s) :
    (expectedPiece metadata x.1.call
      (applied inherentTxs x.1.origin x.1.call x.2)).filterMap RawTransaction.system? =
        (applied inherentTxs x.1.origin x.1.call x.2).filterMap RawTransaction.system? := by
  rw [expectedPiece, if_pos (h.decodes x hx), List.filterMap_append, system?_of_map_system]
  cases MidnightMetadata.sendMnTransaction x.1.call with
  | none => rfl
  | some tx => rfl

/-- Equal lists are equal extrinsic by extrinsic. -/
theorem exact_of_eq (h : Direct metadata inherentTxs exec s)
    (hproduces : Produces inherentTxs exec s block)
    (heq : (extracted metadata block).map Prod.snd = (exec.applied inherentTxs s).map Prod.snd) :
    Exact metadata inherentTxs exec s := by
  rw [extracted, Runtime.Block.applied, map_snd_tagPieces, map_snd_tagPieces, hproduces.readPieces,
    Runtime.Block.pieces, List.flatten_cons, List.flatten_cons, List.nil_append] at heq
  have hhooks : appliedByHooks inherentTxs s exec.onInitialize = [] := by
    have hsystem := congrArg (List.filterMap RawTransaction.system?) heq
    rw [List.filterMap_append, List.filterMap_flatten, List.filterMap_flatten, List.map_map,
      List.map_map] at hsystem
    have hsame : (exec.executed s).map (List.filterMap RawTransaction.system? ∘ fun x =>
        expectedPiece metadata x.1.call (applied inherentTxs x.1.origin x.1.call x.2)) =
          (exec.executed s).map (List.filterMap RawTransaction.system? ∘ fun x =>
            applied inherentTxs x.1.origin x.1.call x.2) :=
      List.map_congr_left fun x hx => h.filterMap_system hx
    rw [hsame] at hsystem
    have hnil := List.self_eq_append_left.mp hsystem
    rw [← map_system_eq_self_iff.mpr h.hooks, hnil]
    rfl
  rw [hhooks, List.nil_append] at heq
  refine ⟨hhooks, fun x hx => expectedPiece_eq_iff.mp ?_⟩
  exact eq_of_flatten_map_eq (fun x hx => h.sublist hx) heq x hx

end Direct

/-- What is extracted from a block is what the block applied, extrinsic by extrinsic, exactly when each
`send_mn_transaction` extrinsic succeeds, no such call is dispatched by another one, the scheduler applies
nothing and what does not decode applies nothing. The lists of transactions are then the same; in a block
without nested Midnight transactions that decodes they are the same only then. -/
theorem extraction_exact_iff {version : RuntimeVersion} {data : ExtractedBlock}
    (h : Produces inherentTxs exec s block)
    (hok : processBlockWithProtocol metadata block version = .ok data) :
    data.transactions = (extracted metadata block).map Prod.snd ∧
    (extracted metadata block = exec.applied inherentTxs s ↔ Exact metadata inherentTxs exec s) ∧
    (Exact metadata inherentTxs exec s →
      data.transactions = (exec.applied inherentTxs s).map Prod.snd) ∧
    (Direct metadata inherentTxs exec s →
      (data.transactions = (exec.applied inherentTxs s).map Prod.snd ↔
        Exact metadata inherentTxs exec s)) := by
  have htransactions := h.transactions_eq hok
  have hexact : Exact metadata inherentTxs exec s →
      data.transactions = (exec.applied inherentTxs s).map Prod.snd := by
    intro hexact
    rw [htransactions, h.extracted_eq_iff.mpr hexact]
  refine ⟨htransactions, h.extracted_eq_iff, hexact, fun hdirect => ⟨fun heq => ?_, hexact⟩⟩
  exact hdirect.exact_of_eq h (htransactions.symm.trans heq)

end

/-! ## Blocks that are extracted otherwise -/

/-- The block number 1 that the node sends for an execution. -/
def nodeBlock {Rest : Type} {env : Env Rest} (inherentTxs : InherentTxs Rest)
    (exec : Runtime.Block Rest) (s : env.State) : NodeBlock where
  blockHash := .fill 32 2
  parentHash := .fill 32 1
  digest := []
  blockNumber := 1
  rawBody := exec.extrinsics
  events := (exec.applied inherentTxs s).filterMap fun x =>
    x.2.system?.map fun tx => ⟨x.1, .systemTransactionApplied tx⟩
  stateRoot := none
  state := none

theorem produces_nodeBlock {Rest : Type} {env : Env Rest} (inherentTxs : InherentTxs Rest)
    (exec : Runtime.Block Rest) (s : env.State) :
    Produces inherentTxs exec s (nodeBlock inherentTxs exec s) where
  number_ne := Nat.one_ne_zero
  body_eq := rfl
  events_eq := by
    rw [nodeBlock, List.filterMap_filterMap]
    refine List.filterMap_congr fun x _ => ?_
    cases x.2.system? with
    | none => rfl
    | some tx => rfl

def sampleMetadata : MidnightMetadata := ⟨fun _ => true, fun _ => 6000⟩

def noInherentTxs : InherentTxs Unit := fun _ _ _ _ => []

/-- A block with the timestamp and one more extrinsic. -/
def timedBlock (hooks : List (Hook Unit)) (ext : Extrinsic)
    (h : ∀ who call, ext = .signed who call → callFilter call = true) : Runtime.Block Unit where
  onInitialize := hooks
  extrinsics := [.bare (.gated .timestampSet []), ext]
  filtered who call hmem := by
    rcases List.mem_cons.mp hmem with hmem | hmem
    · cases hmem
    · exact h who call (List.mem_singleton.mp hmem).symm

def sendBlock (hooks : List (Hook Unit)) : Runtime.Block Unit :=
  timedBlock hooks (.bare (.sendMnTransaction [2])) fun _ _ h => nomatch h

/-- A member of the council dispatches the transaction. -/
def executeBlock : Runtime.Block Unit :=
  timedBlock [] (.signed 7 (.execute .council (.sendMnTransaction [2]) 1)) fun who call h => by
    cases h
    rfl

/-- Both bodies approve a call, and the motion is closed. -/
def motionSteps (call : RuntimeCall) : List (Step Unit) :=
  [.signed 7 (.propose .council 1 (.motionApprove call) 1),
    .signed 8 (.propose .technicalCommittee 1 (.motionApprove call) 1),
    .signed 3 (.motionClose (.fill 32 1) ⟨1, 1⟩)]

def pausedState : sampleEnv.State := Runtime.run sampleGenesis (motionSteps (.pause .sendMnTransaction))

def scheduledState : sampleEnv.State :=
  Runtime.run sampleGenesis
    (motionSteps (.schedule .schedule (.gated .midnightSystemSendMnSystemTransaction [5])))

/-- What is extracted from the block of an execution. -/
def transactionsOf (exec : Runtime.Block Unit) (s : sampleEnv.State) : Option (List RawTransaction) :=
  (processBlockWithProtocol sampleMetadata (nodeBlock noInherentTxs exec s) .v2_2_0).toOption.map
    ExtractedBlock.transactions

/-- A transaction that is paused is extracted; one that a member of the council dispatches and a system
transaction that was scheduled are not. -/
theorem extraction_inexact :
    (transactionsOf (sendBlock []) pausedState = some [.midnight [2]] ∧
      ((sendBlock []).applied noInherentTxs pausedState).map Prod.snd = []) ∧
    (transactionsOf executeBlock sampleGenesis = some [] ∧
      (executeBlock.applied noInherentTxs sampleGenesis).map Prod.snd = [.midnight [2]]) ∧
    (transactionsOf (sendBlock [.service 0]) scheduledState = some [.midnight [2]] ∧
      ((sendBlock [.service 0]).applied noInherentTxs scheduledState).map Prod.snd =
        [.system [5], .midnight [2]]) := by
  refine ⟨⟨?_, ?_⟩, ⟨?_, ?_⟩, ?_, ?_⟩ <;> decide +kernel

theorem extraction_exact_iff_send : ∃ data,
    processBlockWithProtocol sampleMetadata (nodeBlock noInherentTxs (sendBlock []) sampleGenesis)
      .v2_2_0 = .ok data ∧
    data.transactions =
      ((sendBlock []).applied noInherentTxs sampleGenesis).map Prod.snd := by
  have hproduces := produces_nodeBlock noInherentTxs (sendBlock []) sampleGenesis
  have hreturns := @processBlockWithProtocol_ok_iff sampleMetadata _ hproduces.number_ne .v2_2_0
  obtain ⟨data, hdata⟩ := hreturns.mpr ⟨6000, by decide +kernel⟩
  obtain ⟨-, hiff, htransactions, -⟩ := extraction_exact_iff hproduces hdata
  exact ⟨data, hdata, htransactions (hiff.mp (by decide +kernel))⟩

end MidnightNode.Toolkit
