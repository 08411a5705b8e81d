import MidnightNode.Ledger.Verification
import MidnightNode.Lib.Fallible

/-!
# Transparency of the strict cache

An entry of the strict cache is written by the first call that verifies a transaction and read by all
later calls with the same key. The key has the ledger state, the transaction and the time of the block
context. The verification itself is made at `wellFormedTblock`, which for the first transaction of a
block also depends on the time of the parent block and on the correction the node has registered; and
it fails for a context whose parent hash is not a hash, which an entry no longer tells.

`strict_cache_transparent` is what remains true: the cache answers as a fresh verification would, in
histories where the calls under one key agree on these two.
-/

namespace MidnightNode.Ledger

/-! ## What a verification depends on -/

/-- The input of one verification. Its transaction is the one its bytes decode to. -/
structure VerificationInput (host : VerifierHost) where
  ledger : BlockLedger host.LedgerState
  runtimeVersion : UInt32
  txSerialized : List UInt8
  tx : Transaction
  decodes : ∃ era, decodeVersioned host txSerialized = .ok (tx, era)
  blockContext : BlockContext
  tblockCorrection : Option TBlockCorrection

variable {host : VerifierHost}

namespace VerificationInput

variable (x y : VerificationInput host)

def txHash : Hash := txValidationCacheKey host x.runtimeVersion x.txSerialized

def key : StrictTxValidationKey := strictKey x.ledger x.blockContext x.txHash

def fresh : Except LedgerApiError host.VerifiedTransaction :=
  verifyFresh x.ledger x.tx x.blockContext x.tblockCorrection

def getVerified (caches : Caches host) :
    Except LedgerApiError host.VerifiedTransaction × Caches host :=
  getVerifiedTransaction x.ledger x.tx x.blockContext x.txHash x.tblockCorrection caches

def time : Int := wellFormedTblock x.ledger x.blockContext x.tblockCorrection

def HasParentHash : Prop := x.blockContext.parentBlockHash.length = 32

theorem fresh_of_hasParentHash {x : VerificationInput host} (h : x.HasParentHash) :
    x.fresh = (host.wellFormed x.tx x.ledger.state x.time).mapError .transaction := by
  have hctx : ∃ c, x.ledger.getTransactionContext x.blockContext = .ok c ∧
      c.refState = x.ledger.state := by
    unfold HasParentHash at h
    unfold BlockLedger.getTransactionContext Bytes.ofList?
    rw [dif_pos h]
    exact ⟨_, rfl, rfl⟩
  obtain ⟨c, hc, hstate⟩ := hctx
  simp only [fresh, verifyFresh, hc, bind, Except.bind, hstate, time]
  cases host.wellFormed x.tx x.ledger.state
    (wellFormedTblock x.ledger x.blockContext x.tblockCorrection) <;> rfl

theorem fresh_of_not_hasParentHash {x : VerificationInput host} (h : ¬ x.HasParentHash) :
    x.fresh = .error .getTransactionContextError := by
  have hctx : x.ledger.getTransactionContext x.blockContext = .error .getTransactionContextError := by
    unfold HasParentHash at h
    unfold BlockLedger.getTransactionContext Bytes.ofList?
    rw [dif_neg h]
  simp only [fresh, verifyFresh, hctx, bind, Except.bind]

end VerificationInput

theorem decodeVersioned_of_decodeTransaction (h : decodeTransaction host consensus bytes = .ok tx) :
    ∃ era, decodeVersioned host bytes = .ok (tx, era) := by
  unfold decodeTransaction at h
  obtain ⟨⟨tx', era⟩, hd, h⟩ := Fallible.of_bind h
  dsimp only at h
  split at h
  case isTrue => cases h
  case isFalse =>
    cases h
    exact ⟨era, hd⟩

/-- The input of the verification that a call of the block path or of the mempool path makes. -/
def CallContext.input (cc : CallContext) (correction : Option TBlockCorrection) (node : Node host) :
    Option (VerificationInput host) :=
  match h : decodeTransaction host cc.consensus cc.txSerialized,
    getLedger host node.arena cc.stateKey with
  | .ok tx, .ok ledger =>
    some { ledger, runtimeVersion := cc.runtimeVersion, txSerialized := cc.txSerialized, tx,
           decodes := decodeVersioned_of_decodeTransaction h, blockContext := cc.blockContext,
           tblockCorrection := correction }
  | _, _ => none

/-- The verification a call asks for at a node, if it gets as far. -/
def Call.verifies (node : Node host) : Call → Option (VerificationInput host)
  | .apply cc _ => cc.input cc.tblockCorrection node
  | .validateGuaranteed cc => cc.input cc.tblockCorrection node
  | .validate cc _ _ =>
    -- the soft cache answers first
    if (node.caches.soft.lookup ⟨txValidationCacheKey host cc.runtimeVersion cc.txSerialized⟩).isSome
    then none else cc.input none node
  | .cost _ _ => none

def NodeStep.verifies (node : Node host) : NodeStep → Option (VerificationInput host)
  | .call c => c.verifies node
  | _ => none

/-- The verifications of a history, in order. -/
def Node.inputs : Node host → List NodeStep → List (VerificationInput host)
  | _, [] => []
  | node, s :: history => (s.verifies node).toList ++ (node.step s).inputs history

/-! ## One call -/

/-- How far a call gets on its way to the verification. -/
inductive CallContext.Reached (cc : CallContext) (correction : Option TBlockCorrection)
    (node : Node host) : Option (VerificationInput host) → Prop
  | undecodable (e : LedgerApiError)
      (htx : decodeTransaction host cc.consensus cc.txSerialized = .error e) :
      Reached cc correction node none
  | unloaded (tx : Transaction) (e : LedgerApiError)
      (htx : decodeTransaction host cc.consensus cc.txSerialized = .ok tx)
      (hledger : getLedger host node.arena cc.stateKey = .error e) : Reached cc correction node none
  | verifies (tx : Transaction) (ledger : BlockLedger host.LedgerState)
      (htx : decodeTransaction host cc.consensus cc.txSerialized = .ok tx)
      (hledger : getLedger host node.arena cc.stateKey = .ok ledger) :
      Reached cc correction node
        (some { ledger, runtimeVersion := cc.runtimeVersion, txSerialized := cc.txSerialized, tx,
                decodes := decodeVersioned_of_decodeTransaction htx, blockContext := cc.blockContext,
                tblockCorrection := correction })

theorem CallContext.input_reached (cc : CallContext) (correction : Option TBlockCorrection)
    (node : Node host) : cc.Reached correction node (cc.input correction node) := by
  unfold CallContext.input
  split
  case h_1 tx ledger htx hledger => exact .verifies tx ledger htx hledger
  case h_2 hne =>
    cases htx : decodeTransaction host cc.consensus cc.txSerialized with
    | error e => exact .undecodable e htx
    | ok tx =>
      cases hledger : getLedger host node.arena cc.stateKey with
      | error e => exact .unloaded tx e htx hledger
      | ok ledger => exact absurd hledger (hne tx ledger htx)

/-- The strict cache after a verification. -/
def afterVerification (strict : Memo.Table StrictTxValidationKey host.VerifiedTransaction) :
    Option (VerificationInput host) → Memo.Table StrictTxValidationKey host.VerifiedTransaction
  | some x => (Memo.getOrCompute strict x.key x.fresh).2
  | none => strict

section

variable {cc : CallContext} {node : Node host} {tx : Transaction}
  {ledger : BlockLedger host.LedgerState} {ctx : BlockContext} {txHash : Hash}
  {correction : Option TBlockCorrection} {caches : Caches host}

theorem doValidateTransaction_strict_of_cached
    (h : (caches.soft.lookup ⟨txHash⟩).isSome) :
    (doValidateTransaction ledger tx ctx txHash caches).2.strict = caches.strict := by
  obtain ⟨cached, hc⟩ := Option.isSome_iff_exists.mp h
  simp only [doValidateTransaction, hc]

theorem doValidateTransaction_strict_of_not_cached (h : caches.soft.lookup ⟨txHash⟩ = none) :
    (doValidateTransaction ledger tx ctx txHash caches).2.strict =
      (getVerifiedTransaction ledger tx ctx txHash none caches).2.strict := by
  simp only [doValidateTransaction, h]
  rcases getVerifiedTransaction ledger tx ctx txHash none caches with ⟨_ | verified, caches'⟩
  · rfl
  · simp only
    cases dryRun ledger verified ctx <;> rfl

theorem doValidateGuaranteedExecution_strict :
    (doValidateGuaranteedExecution ledger tx ctx txHash correction caches).2.strict =
      (getVerifiedTransaction ledger tx ctx txHash correction caches).2.strict := by
  simp only [doValidateGuaranteedExecution, getVerifiedTransaction]
  rcases Memo.getOrCompute caches.strict (strictKey ledger ctx txHash)
    (verifyFresh ledger tx ctx correction) with ⟨_ | verified, strict⟩ <;> rfl

theorem verifyAndApply_strict :
    (verifyAndApply (decodeTransaction host) cc skip node).2.caches.strict =
      afterVerification node.caches.strict (cc.input cc.tblockCorrection node) := by
  have hreached := cc.input_reached cc.tblockCorrection node
  generalize cc.input cc.tblockCorrection node = x at hreached ⊢
  cases hreached with
  | undecodable e htx => simp only [verifyAndApply, htx, afterVerification]
  | unloaded tx e htx hledger => simp only [verifyAndApply, htx, hledger, afterVerification]
  | verifies tx ledger htx hledger =>
    simp only [verifyAndApply, htx, hledger, getVerifiedTransaction]
    change _ = (Memo.getOrCompute _ (strictKey ledger cc.blockContext
      (txValidationCacheKey host cc.runtimeVersion cc.txSerialized))
      (verifyFresh ledger tx cc.blockContext cc.tblockCorrection)).2
    -- whatever becomes of the application, the cache is the one of the verification
    rcases Memo.getOrCompute _ _ _ with ⟨_ | verified, strict⟩
    · rfl
    · simp only
      cases ledger.getTransactionContext cc.blockContext with
      | error e => rfl
      | ok txCtx =>
        simp only
        split <;> rfl

theorem validateTransaction_strict :
    (validateTransaction (decodeTransaction host) cc maxWeight getTxDetails node).2.caches.strict =
      afterVerification node.caches.strict
        ((Call.validate cc maxWeight getTxDetails).verifies node) := by
  have hreached := cc.input_reached none node
  rw [Call.verifies]
  generalize cc.input none node = x at hreached ⊢
  cases hreached with
  | undecodable e htx => simp only [validateTransaction, htx, ite_self, afterVerification]
  | unloaded tx e htx hledger =>
    simp only [validateTransaction, htx, hledger, ite_self, afterVerification]
  | verifies tx ledger htx hledger =>
    have hinner : (validateTransaction (decodeTransaction host) cc maxWeight getTxDetails node).2.caches =
        (doValidateTransaction ledger tx cc.blockContext
          (txValidationCacheKey host cc.runtimeVersion cc.txSerialized) node.caches).2 := by
      simp only [validateTransaction, htx, hledger]
      rcases doValidateTransaction ledger tx cc.blockContext _ node.caches with ⟨_ | _, caches⟩ <;> rfl
    rw [hinner]
    split
    case isTrue hcached => exact doValidateTransaction_strict_of_cached hcached
    case isFalse hmiss =>
      rw [doValidateTransaction_strict_of_not_cached (Option.not_isSome_iff_eq_none.mp hmiss)]
      rfl

theorem validateGuaranteedExecution_strict :
    (validateGuaranteedExecution (decodeTransaction host) cc node).2.caches.strict =
      afterVerification node.caches.strict (cc.input cc.tblockCorrection node) := by
  have hreached := cc.input_reached cc.tblockCorrection node
  generalize cc.input cc.tblockCorrection node = x at hreached ⊢
  cases hreached with
  | undecodable e htx => simp only [validateGuaranteedExecution, htx, afterVerification]
  | unloaded tx e htx hledger =>
    simp only [validateGuaranteedExecution, htx, hledger, afterVerification]
  | verifies tx ledger htx hledger =>
    simp only [validateGuaranteedExecution, htx, hledger]
    exact doValidateGuaranteedExecution_strict

end

/-- What a call does to the strict cache: the verification it asks for, and nothing else. -/
theorem Call.exec_strict (call : Call) (node : Node host) :
    (call.exec node).2.caches.strict =
      afterVerification node.caches.strict (call.verifies node) := by
  cases call with
  | apply cc skip => exact verifyAndApply_strict
  | validate cc maxWeight getTxDetails => exact validateTransaction_strict
  | validateGuaranteed cc => exact validateGuaranteedExecution_strict
  | cost cc maxWeight => rfl

/-! ## Histories -/

/-- The hashes in the keys do not collide on these inputs. -/
structure NoCollision (xs : List (VerificationInput host)) : Prop where
  state : ∀ x ∈ xs, ∀ y ∈ xs,
    host.stateHash x.ledger.state = host.stateHash y.ledger.state → x.ledger.state = y.ledger.state
  tx : ∀ x ∈ xs, ∀ y ∈ xs, x.txHash = y.txHash →
    x.runtimeVersion = y.runtimeVersion ∧ x.txSerialized = y.txSerialized

/-- Two verifications of one transaction over one ledger state, in block contexts with one time, are
made at one time and both have a parent hash, or neither has. -/
def Agree (xs : List (VerificationInput host)) : Prop :=
  ∀ x ∈ xs, ∀ y ∈ xs, x.ledger.state = y.ledger.state → x.runtimeVersion = y.runtimeVersion →
    x.txSerialized = y.txSerialized → x.blockContext.tblock = y.blockContext.tblock →
    x.time = y.time ∧ (x.HasParentHash ↔ y.HasParentHash)

theorem VerificationInput.fresh_congr {x y : VerificationInput host}
    (hstate : x.ledger.state = y.ledger.state) (hbytes : x.txSerialized = y.txSerialized)
    (htime : x.time = y.time) (hparent : x.HasParentHash ↔ y.HasParentHash) :
    x.fresh = y.fresh := by
  obtain ⟨era, hx⟩ := x.decodes
  obtain ⟨era', hy⟩ := y.decodes
  rw [hbytes, hy] at hx
  have htx : y.tx = x.tx := congrArg Prod.fst (Except.ok.inj hx)
  by_cases h : x.HasParentHash
  · rw [fresh_of_hasParentHash h, fresh_of_hasParentHash (hparent.mp h), htx, hstate, htime]
  · rw [fresh_of_not_hasParentHash h, fresh_of_not_hasParentHash (mt hparent.mpr h)]

theorem Agree.determines {xs : List (VerificationInput host)} (h : Agree xs)
    (hhash : NoCollision xs) :
    Memo.Determines VerificationInput.key VerificationInput.fresh {x | x ∈ xs} := by
  intro x hx y hy hkey
  injection hkey with hstate htx htblock
  have hstate := hhash.state x hx y hy hstate
  obtain ⟨hversion, hbytes⟩ := hhash.tx x hx y hy htx
  obtain ⟨htime, hparent⟩ := h x hx y hy hstate hversion hbytes htblock
  exact VerificationInput.fresh_congr hstate hbytes htime hparent

section

variable {s : Set (VerificationInput host)} {node : Node host}

/-- No input of `s` gets a wrong answer from the strict cache. -/
abbrev Node.Faithful (s : Set (VerificationInput host)) (node : Node host) : Prop :=
  Memo.Faithful VerificationInput.key VerificationInput.fresh s node.caches.strict

theorem Node.Faithful.step (h : node.Faithful s)
    (hs : Memo.Determines VerificationInput.key VerificationInput.fresh s) (a : NodeStep)
    (ha : ∀ x ∈ a.verifies node, x ∈ s) : (node.step a).Faithful s := by
  cases a with
  | evictStrict key => exact Memo.Faithful.erase h key
  | evictSoft key => exact h
  | call c =>
    have hstrict : (node.step (.call c)).caches.strict =
        afterVerification node.caches.strict (c.verifies node) := c.exec_strict node
    rw [Node.Faithful, hstrict]
    cases hx : c.verifies node with
    | none => exact h
    | some x => exact Memo.Faithful.getOrCompute_snd h hs (ha x hx)

theorem Node.Faithful.run (hs : Memo.Determines VerificationInput.key VerificationInput.fresh s)
    (history : List NodeStep) (h : node.Faithful s)
    (hhistory : ∀ x ∈ node.inputs history, x ∈ s) : (node.run history).Faithful s := by
  induction history generalizing node with
  | nil => exact h
  | cons a history ih =>
    simp only [Node.inputs, List.mem_append, Option.mem_toList] at hhistory
    exact ih (h.step hs a fun x hx => hhistory x (.inl hx)) fun x hx => hhistory x (.inr hx)

end

/-- After any history of calls and evictions, a lookup in the strict cache returns what verification
returns with an empty cache, if the verifications of the history and this one agree. -/
theorem strict_cache_transparent (host : VerifierHost) (start : Node host) (history : List NodeStep)
    (x : VerificationInput host) (hstart : start.caches.strict = ∅)
    (hhash : NoCollision (x :: start.inputs history)) (hagree : Agree (x :: start.inputs history)) :
    (x.getVerified (start.run history).caches).1 = x.fresh := by
  have hfaithful : start.Faithful {y | y ∈ x :: start.inputs history} := by
    rw [Node.Faithful, hstart]
    exact Memo.Faithful.empty
  have hrun := hfaithful.run (hagree.determines hhash) history
    fun y hy => List.mem_cons_of_mem x hy
  exact hrun.getOrCompute_fst List.mem_cons_self

/-- The sample transaction, in a context of time `100` after a parent of time `80`. -/
def sampleInput (correction : Option TBlockCorrection) : VerificationInput sampleVerifier :=
  { ledger := ⟨(), ⟨0, 0, 0, 0, 0⟩⟩, runtimeVersion := 1, txSerialized := [13]
    tx := .standard (sampleTx []), decodes := ⟨.memoCapable, rfl⟩
    blockContext := ⟨100, 0, List.replicate 32 0, 80⟩, tblockCorrection := correction }

/-- The mempool verifies the sample transaction. -/
def sampleHistory : List NodeStep := [.call (.validate (sampleContext 10 none) 0 false)]

theorem sampleNode_inputs : sampleNode.inputs sampleHistory = [sampleInput none] := rfl

theorem strict_cache_transparent_uncorrected :
    ((sampleInput none).getVerified (sampleNode.run sampleHistory).caches).1 = .ok () ∧
      (sampleInput none).fresh = .ok () := by
  have hfresh : (sampleInput none).fresh = .ok () := rfl
  refine ⟨?_, hfresh⟩
  rw [← hfresh]
  refine strict_cache_transparent sampleVerifier sampleNode sampleHistory (sampleInput none) rfl ?_ ?_
  · exact ⟨by simp [sampleNode_inputs], by simp [sampleNode_inputs]⟩
  · rw [sampleNode_inputs]
    simp [Agree]

/-- With a correction of `12` seconds the first transaction of the block is to be verified at second
`92`, where it is malformed; the entry the mempool left for second `100` answers instead. -/
theorem corrected_block_served_mempool_entry :
    (Call.validateGuaranteed (sampleContext 10 (some ⟨12, 1000⟩))).verifies
        (sampleNode.run sampleHistory) = some (sampleInput (some ⟨12, 1000⟩)) ∧
      (sampleInput (some ⟨12, 1000⟩)).fresh = .error (.transaction 0) ∧
      ((sampleInput (some ⟨12, 1000⟩)).getVerified (sampleNode.run sampleHistory).caches).1 =
        .ok () :=
  ⟨rfl, rfl, rfl⟩

end MidnightNode.Ledger
