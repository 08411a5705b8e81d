import MidnightNode.Pallet.C2MBridge

/-!
# Approvals and nonces of the Cardano-to-Midnight bridge

An approval pays for one credit: the handler takes it out of the storage with the transfer it approves.
`State.claimable` counts the credits of a Cardano transaction together with its approval, and grows only
when the hash is approved anew.

The nonce of a credit is the hash of the parent block and of a counter that starts at zero in every
block. The counter does not wrap, since a block has at most `maxTransfersPerBlock` transfers.
-/

namespace MidnightNode.C2MBridge
open Bridge Ledger

/-- The user in whose favour a transaction is. -/
def SystemTx.recipient? : SystemTx → Option BridgeRecipient
  | .distributeNightCardanoBridge _ recipient _ => some recipient
  | .unlockToTreasury _ | .distributeReserve _ => none

def SystemTx.nonce? : SystemTx → Option (Bytes 32)
  | .distributeNightCardanoBridge _ _ nonce => some nonce
  | .unlockToTreasury _ | .distributeReserve _ => none

/-- The line is an executed transaction in favour of the user of a Cardano transaction. -/
def LogLine.credits (hash : McTxHash) (line : LogLine) : Bool :=
  line.executed && line.description == .transfer hash && line.tx.recipient?.isSome

namespace State

/-- The number of times a Cardano transaction was credited. -/
def credits (s : State) (hash : McTxHash) : Nat := s.log.countP (·.credits hash)

/-- The nonces of all system transactions, whether they were executed or not. -/
def nonces (s : State) : List (Bytes 32) := s.log.filterMap (·.tx.nonce?)

def claimable (s : State) (hash : McTxHash) : Nat :=
  s.credits hash + if hash ∈ s.approvedMcTxHashes then 1 else 0

end State

/-- The number of steps of a run at which a hash was newly approved. -/
def newApprovals {cfg : Config} (hash : McTxHash) : State → List (Step cfg) → Nat
  | _, [] => 0
  | s, step :: steps =>
    (if hash ∉ s.approvedMcTxHashes ∧ hash ∈ (step.run s).approvedMcTxHashes then 1 else 0) +
      newApprovals hash (step.run s) steps

/-- The lines that handling a transfer adds to the log. -/
def Handling.lines (cfg : Config) (h : Handling) : List LogLine :=
  (handleIncomingTransfer cfg h.answers h.transfer h.before).log.drop h.before.log.length

section

variable {cfg : Config} {answers : LedgerAnswers} {transfer : Transfer} {s s' : State}
  {hash : McTxHash}

/-! ## Approvals are used up -/

theorem mem_approveAll : hash ∈ approveAll approved hashes ↔ hash ∈ approved ∨ hash ∈ hashes := by
  unfold approveAll
  induction hashes generalizing approved with
  | nil => simp
  | cons x hashes ih =>
    rw [List.foldl_cons, ih, Finset.mem_insert, List.mem_cons]
    tauto

theorem State.credits_of_log (h : s'.log = s.log ++ [line]) :
    s'.credits hash = s.credits hash + if line.credits hash then 1 else 0 := by
  simp [State.credits, h, List.countP_cons]

theorem Handled.claimable_le (h : Handled cfg answers transfer s s') (hash : McTxHash) :
    s'.claimable hash ≤ s.claimable hash := by
  cases h with
  | accumulated count hsub hle => exact le_rfl
  | flushed events hsub hgt =>
    rw [State.claimable, State.credits_of_log rfl]
    simp [LogLine.credits, State.claimable]
  | credited events recipient hsub hr happroved =>
    rw [State.claimable, State.credits_of_log rfl, State.claimable]
    by_cases heq : hash = transfer.mcTxHash
    · subst heq
      -- at most one credit more, and the approval is gone
      rw [if_pos happroved, if_neg (Finset.notMem_erase _ _)]
      split <;> omega
    · simp [LogLine.credits, heq, Ne.symm heq]
  | redirected events tx hsub htx =>
    rw [State.claimable, State.credits_of_log rfl]
    have hnone : tx.recipient? = none := by rcases htx with rfl | rfl <;> rfl
    simp [LogLine.credits, State.claimable, hnone]

theorem handleAll_claimable_le (transfers : List (LedgerAnswers × Transfer)) (hash : McTxHash) :
    (handleAll cfg s transfers).claimable hash ≤ s.claimable hash := by
  induction transfers generalizing s with
  | nil => exact le_rfl
  | cons x transfers ih => exact ih.trans (handleIncomingTransfer_handled.claimable_le hash)

theorem Step.claimable_le (step : Step cfg) (hash : McTxHash) :
    (step.run s).claimable hash ≤ s.claimable hash +
      if hash ∉ s.approvedMcTxHashes ∧ hash ∈ (step.run s).approvedMcTxHashes then 1 else 0 := by
  have hran := step.ran s
  generalize step.run s = s' at hran ⊢
  generalize step.handlings s = hs at hran
  cases hran with
  | handled origin transfers hlen checkpoint hfirst =>
    exact (handleAll_claimable_le transfers hash).trans (Nat.le_add_right _ _)
  | approved origin hashes hlen =>
    simp only [State.claimable, State.credits]
    split <;> split <;> simp_all
  | onInitialize | onFinalize | failed | configured => exact Nat.le_add_right _ _

theorem run_claimable_le (steps : List (Step cfg)) (hash : McTxHash) :
    (run s steps).claimable hash ≤ s.claimable hash + newApprovals hash s steps := by
  induction steps generalizing s with
  | nil => exact le_rfl
  | cons step steps ih =>
    have hstep := step.claimable_le (s := s) hash
    have hrest := ih (s := step.run s)
    rw [newApprovals]
    change (run (step.run s) steps).claimable hash ≤ _
    omega

/-! ## Who is credited -/

theorem Handling.of_mem_lines {h : Handling} (hline : line ∈ h.lines cfg)
    (hcredit : line.tx.recipient?.isSome) :
    isSubminimal h.answers h.transfer = false ∧ h.transfer.mcTxHash ∈ h.before.approvedMcTxHashes ∧
      ∃ recipient, h.transfer.recipient = .address recipient := by
  obtain ⟨before, answers, transfer⟩ := h
  have hh : Handled cfg answers transfer before _ := handleIncomingTransfer_handled
  unfold Handling.lines at hline
  dsimp only at hline ⊢
  generalize handleIncomingTransfer cfg answers transfer before = s' at hh hline
  cases hh with
  | accumulated count hsub hle => simp at hline
  | flushed events hsub hgt =>
    simp only [List.drop_left, List.mem_singleton] at hline
    subst hline
    cases hcredit
  | credited events recipient hsub hr happroved => exact ⟨hsub, happroved, recipient, hr⟩
  | redirected events tx hsub htx =>
    simp only [List.drop_left, List.mem_singleton] at hline
    subst hline
    rcases htx with rfl | rfl <;> cases hcredit

/-! ## Nonces are fresh -/

structure NoncesOf (cfg : Config) (parents : List (Bytes 32)) (s : State)
    (used : List (Bytes 32 × UInt32)) : Prop where
  nonces_eq : s.nonces = used.map fun (parent, counter) => cfg.blake2_256 (noncePreimage parent counter)
  nodup : used.Nodup
  mem_parents : ∀ p ∈ used, p.1 ∈ parents

structure NoncesBelow (cfg : Config) (parents : List (Bytes 32)) (s : State)
    (used : List (Bytes 32 × UInt32)) : Prop extends NoncesOf cfg parents s used where
  lt_counter : ∀ p ∈ used, p.1 = s.parentHash → p.2 < s.transferCounter

variable {parents : List (Bytes 32)} {used : List (Bytes 32 × UInt32)}

theorem NoncesBelow.congr (h : NoncesBelow cfg parents s used) (hnonces : s'.nonces = s.nonces)
    (hparent : s'.parentHash = s.parentHash) (hcounter : s'.transferCounter = s.transferCounter) :
    NoncesBelow cfg parents s' used := by
  refine ⟨⟨hnonces.trans h.nonces_eq, h.nodup, h.mem_parents⟩, ?_⟩
  rw [hparent, hcounter]
  exact h.lt_counter

theorem State.nonces_of_log_none (h : s'.log = s.log ++ [line]) (hn : line.tx.nonce? = none) :
    s'.nonces = s.nonces := by
  simp [State.nonces, h, hn]

theorem State.nonces_of_log_some (h : s'.log = s.log ++ [line]) (hn : line.tx.nonce? = some nonce) :
    s'.nonces = s.nonces ++ [nonce] := by
  simp [State.nonces, h, hn]

theorem toNat_counter_add_one {counter : UInt32} (hlt : counter.toNat + 1 < 2 ^ 32) :
    (counter + 1).toNat = counter.toNat + 1 := by
  rw [UInt32.toNat_add, UInt32.toNat_one, Nat.mod_eq_of_lt hlt]

theorem NoncesBelow.next (h : NoncesBelow cfg parents s used) (hparent : s.parentHash ∈ parents)
    (hlt : s.transferCounter.toNat + 1 < 2 ^ 32)
    (hnonces : s'.nonces = s.nonces ++ [s.nextNonce cfg]) (hsame : s'.parentHash = s.parentHash)
    (hcounter : s'.transferCounter = s.transferCounter + 1) :
    NoncesBelow cfg parents s' (used ++ [(s.parentHash, s.transferCounter)]) := by
  have hincr : s.transferCounter < s'.transferCounter := by
    rw [hcounter, UInt32.lt_iff_toNat_lt, toNat_counter_add_one hlt]
    exact Nat.lt_succ_self _
  have hnotMem : (s.parentHash, s.transferCounter) ∉ used := fun hmem =>
    UInt32.lt_irrefl _ (h.lt_counter _ hmem rfl)
  refine ⟨⟨?_, ?_, ?_⟩, ?_⟩
  · rw [hnonces, h.nonces_eq, List.map_append]
    rfl
  · rw [← List.concat_eq_append]
    exact h.nodup.concat hnotMem
  · intro p hp
    rcases List.mem_append.mp hp with hp | hp
    · exact h.mem_parents p hp
    · rw [List.mem_singleton.mp hp]
      exact hparent
  · intro p hp heq
    rcases List.mem_append.mp hp with hp | hp
    · exact UInt32.lt_trans (h.lt_counter p hp (heq.trans hsame)) hincr
    · rw [List.mem_singleton.mp hp]
      exact hincr

structure InBlock (cfg : Config) (parents : List (Bytes 32)) (s : State) : Prop where
  parent_mem : s.parentHash ∈ parents
  counter_zero : s.inherentExecutedThisBlock = false → s.transferCounter = 0
  nonces : ∃ used, NoncesBelow cfg parents s used

theorem Handled.counter_le (h : Handled cfg answers transfer s s')
    (hlt : s.transferCounter.toNat + 1 < 2 ^ 32) :
    s'.transferCounter.toNat ≤ s.transferCounter.toNat + 1 := by
  cases h with
  | credited => exact (toNat_counter_add_one hlt).le
  | accumulated | flushed | redirected => exact Nat.le_succ _

theorem Handled.inherentExecuted (h : Handled cfg answers transfer s s') :
    s'.inherentExecutedThisBlock = s.inherentExecutedThisBlock := by
  cases h <;> rfl

theorem Handled.inBlock (h : Handled cfg answers transfer s s') (hs : InBlock cfg parents s)
    (hexecuted : s.inherentExecutedThisBlock = true) (hlt : s.transferCounter.toNat + 1 < 2 ^ 32) :
    InBlock cfg parents s' := by
  obtain ⟨used, hused⟩ := hs.nonces
  have hflag := h.inherentExecuted.trans hexecuted
  refine ⟨?_, fun hfalse => absurd (hfalse.symm.trans hflag) Bool.false_ne_true, ?_⟩
  · cases h <;> exact hs.parent_mem
  · cases h with
    | accumulated count hsub hle => exact ⟨used, hused.congr rfl rfl rfl⟩
    | flushed events hsub hgt =>
      exact ⟨used, hused.congr (State.nonces_of_log_none rfl rfl) rfl rfl⟩
    | credited events recipient hsub hr happroved =>
      refine ⟨_, hused.next hs.parent_mem hlt ?_ rfl rfl⟩
      exact State.nonces_of_log_some rfl rfl
    | redirected events tx hsub htx =>
      have hnonce : tx.nonce? = none := by rcases htx with rfl | rfl <;> rfl
      exact ⟨used, hused.congr (State.nonces_of_log_none rfl hnonce) rfl rfl⟩

theorem handleAll_inBlock (transfers : List (LedgerAnswers × Transfer)) (hs : InBlock cfg parents s)
    (hexecuted : s.inherentExecutedThisBlock = true)
    (hlt : s.transferCounter.toNat + transfers.length < 2 ^ 32) :
    InBlock cfg parents (handleAll cfg s transfers) := by
  induction transfers generalizing s with
  | nil => exact hs
  | cons x transfers ih =>
    obtain ⟨answers, transfer⟩ := x
    rw [List.length_cons] at hlt
    have hh : Handled cfg answers transfer s (handleIncomingTransfer cfg answers transfer s) :=
      handleIncomingTransfer_handled
    have hle := hh.counter_le (by omega)
    refine ih (hh.inBlock hs hexecuted (by omega)) (hh.inherentExecuted.trans hexecuted) ?_
    dsimp only
    omega

theorem Step.call_inBlock (c : Call cfg) (hs : InBlock cfg parents s) :
    InBlock cfg parents ((Step.call c).run s) := by
  obtain ⟨used, hused⟩ := hs.nonces
  have hran := (Step.call c).ran s
  generalize (Step.call c).run s = s' at hran ⊢
  generalize (Step.call c).handlings s = hs' at hran
  cases hran with
  | failed => exact hs
  | configured | approved => exact ⟨hs.parent_mem, hs.counter_zero, used, hused.congr rfl rfl rfl⟩
  | handled origin transfers hlen checkpoint hfirst =>
    have hzero := hs.counter_zero hfirst
    have hstart : InBlock cfg parents { s with inherentExecutedThisBlock := true } :=
      ⟨hs.parent_mem, fun h => absurd h.symm Bool.false_ne_true, used, hused.congr rfl rfl rfl⟩
    -- the counter starts at zero and a block has fewer than `2 ^ 32` transfers
    have hlt : s.transferCounter.toNat + transfers.length < 2 ^ 32 := by
      have hmax := cfg.maxTransfersPerBlock.toNat_lt
      rw [hzero, UInt32.toNat_zero]
      omega
    obtain ⟨hparent, hcounter, used', hused'⟩ := handleAll_inBlock transfers hstart rfl hlt
    exact ⟨hparent, hcounter, used', hused'.congr rfl rfl rfl⟩

theorem run_calls_inBlock (calls : List (Call cfg)) (hs : InBlock cfg parents s) :
    InBlock cfg parents (run s (calls.map .call)) := by
  induction calls generalizing s with
  | nil => exact hs
  | cons c calls ih => exact ih (Step.call_inBlock c hs)

structure BetweenBlocks (cfg : Config) (parents : List (Bytes 32)) (s : State) : Prop where
  not_executed : s.inherentExecutedThisBlock = false
  counter_zero : s.transferCounter = 0
  nonces : ∃ used, NoncesOf cfg parents s used

theorem run_append (s : State) (steps steps' : List (Step cfg)) :
    run s (steps ++ steps') = run (run s steps) steps' := List.foldl_append

theorem Block.run_steps (b : Block cfg) (s : State) :
    run s b.steps = (Step.onFinalize : Step cfg).run
      (run { s with parentHash := b.parentHash } (b.calls.map .call)) := by
  simp only [run, Block.steps, List.cons_append, List.foldl_cons, List.foldl_append, List.foldl_nil]
  rfl

theorem BetweenBlocks.block (hs : BetweenBlocks cfg parents s) (b : Block cfg)
    (hnew : b.parentHash ∉ parents) :
    BetweenBlocks cfg (parents ++ [b.parentHash]) (run s b.steps) := by
  obtain ⟨used, hused⟩ := hs.nonces
  have hstart : InBlock cfg (parents ++ [b.parentHash]) { s with parentHash := b.parentHash } := by
    refine ⟨List.mem_append_right _ List.mem_cons_self, fun _ => hs.counter_zero, used,
      ⟨hused.nonces_eq, hused.nodup, ?_⟩, ?_⟩
    · exact fun p hp => List.mem_append_left _ (hused.mem_parents p hp)
    · intro p hp heq
      have hmem := hused.mem_parents p hp
      rw [heq] at hmem
      exact absurd hmem hnew
  obtain ⟨used', hused'⟩ := (run_calls_inBlock b.calls hstart).nonces
  rw [Block.run_steps]
  exact ⟨rfl, rfl, used', hused'.nonces_eq, hused'.nodup, hused'.mem_parents⟩

theorem BetweenBlocks.blocks (blocks : List (Block cfg)) (hs : BetweenBlocks cfg parents s)
    (hnodup : (blocks.map (·.parentHash)).Nodup)
    (hnew : ∀ b ∈ blocks, b.parentHash ∉ parents) :
    ∃ used, NoncesOf cfg (parents ++ blocks.map (·.parentHash))
      (run s (blocks.flatMap Block.steps)) used := by
  induction blocks generalizing s parents with
  | nil =>
    rw [List.map_nil, List.append_nil]
    exact hs.nonces
  | cons b blocks ih =>
    obtain ⟨hb, hnodup⟩ := List.nodup_cons.mp hnodup
    rw [List.flatMap_cons, run_append, List.map_cons, List.append_cons]
    refine ih (hs.block b (hnew b List.mem_cons_self)) hnodup ?_
    intro b' hb' hmem
    rcases List.mem_append.mp hmem with hmem | hmem
    · exact hnew b' (List.mem_cons_of_mem _ hb') hmem
    · exact hb (List.mem_map.mpr ⟨b', hb', List.mem_singleton.mp hmem⟩)

theorem genesisBuild_betweenBlocks (flushThreshold : Nat) (approvedTxs : List McTxHash) :
    BetweenBlocks cfg [] (genesisBuild flushThreshold approvedTxs) :=
  ⟨rfl, rfl, [], rfl, .nil, fun _ hp => nomatch hp⟩

theorem noncePreimage_inj (h : noncePreimage parent counter = noncePreimage parent' counter') :
    parent = parent' ∧ counter = counter' := by
  unfold noncePreimage at h
  rw [List.append_assoc, List.append_assoc] at h
  obtain ⟨hparent, hcounter⟩ := Bytes.data_append_inj (List.append_cancel_left h)
  exact ⟨hparent, leBytes_injective hcounter⟩

theorem NoncesOf.nonces_nodup (h : NoncesOf cfg parents s used)
    (hinj : ∀ parent ∈ parents, ∀ parent' ∈ parents, ∀ counter counter' : UInt32,
      cfg.blake2_256 (noncePreimage parent counter) = cfg.blake2_256 (noncePreimage parent' counter') →
      noncePreimage parent counter = noncePreimage parent' counter') :
    s.nonces.Nodup := by
  rw [h.nonces_eq]
  refine h.nodup.map_on ?_
  intro p hp p' hp' heq
  obtain ⟨hparent, hcounter⟩ :=
    noncePreimage_inj (hinj _ (h.mem_parents p hp) _ (h.mem_parents p' hp') _ _ heq)
  exact Prod.ext hparent hcounter

end

/-- An approval of a Cardano transaction pays for at most one credit; only an approved transfer to an
address, not below the minimum, is credited; and no two system transactions have the same nonce. -/
theorem approvals_single_use (cfg : Config) (flushThreshold : Nat) (approvedTxs : List McTxHash)
    (blocks : List (Block cfg)) (hparents : (blocks.map (·.parentHash)).Nodup)
    (hinj : ∀ parent ∈ blocks.map (·.parentHash), ∀ parent' ∈ blocks.map (·.parentHash),
      ∀ counter counter' : UInt32,
        cfg.blake2_256 (noncePreimage parent counter) =
          cfg.blake2_256 (noncePreimage parent' counter') →
        noncePreimage parent counter = noncePreimage parent' counter') :
    let genesis := genesisBuild flushThreshold approvedTxs
    let steps := blocks.flatMap Block.steps
    (∀ hash, (run genesis steps).credits hash ≤
      (if hash ∈ approvedTxs then 1 else 0) + newApprovals hash genesis steps) ∧
    (∀ h ∈ runHandlings genesis steps,
      h.transfer.recipient = .invalid ∨ h.transfer.mcTxHash ∉ h.before.approvedMcTxHashes ∨
        isSubminimal h.answers h.transfer = true →
      ∀ line ∈ h.lines cfg, line.tx.recipient? = none) ∧
    (run genesis steps).nonces.Nodup := by
  intro genesis steps
  refine ⟨?_, ?_, ?_⟩
  · intro hash
    have hrun := run_claimable_le (s := genesis) steps hash
    have hgenesis : genesis.claimable hash = if hash ∈ approvedTxs then 1 else 0 := by
      simp [genesis, State.claimable, State.credits, genesisBuild, mem_approveAll]
    rw [hgenesis] at hrun
    exact (Nat.le_add_right _ _).trans hrun
  · intro h _ hcase line hline
    by_contra hcredit
    obtain ⟨hsub, happroved, recipient, hr⟩ :=
      Handling.of_mem_lines hline (Option.isSome_iff_ne_none.mpr hcredit)
    rcases hcase with hinvalid | hunapproved | hsubminimal
    · rw [hr] at hinvalid
      cases hinvalid
    · exact hunapproved happroved
    · rw [hsub] at hsubminimal
      cases hsubminimal
  · have hgenesis : BetweenBlocks cfg [] genesis := genesisBuild_betweenBlocks _ _
    obtain ⟨used, hused⟩ := hgenesis.blocks blocks hparents (fun _ _ hmem => nomatch hmem)
    rw [List.nil_append] at hused
    exact hused.nonces_nodup hinj

/-- Two blocks that approve the same Cardano transaction and deliver a transfer of it. -/
def sampleBlocks : List (Block sampleConfig) :=
  [.fill 32 1, .fill 32 2].map fun parentHash =>
    { parentHash
      calls := [.addApprovedMcTxHashes true [.fill 32 9] (by decide),
        .handleTransfers false
          [(sampleAnswers true, ⟨.fill 32 9, 5000, .address [7]⟩),
            (sampleAnswers true, ⟨.fill 32 9, 6000, .address [7]⟩)] (by change 2 ≤ _; decide)
          (.block 7)] }

/-- The sample hash drops the tag and the first four bytes of the parent hash. -/
theorem sampleConfig_blake2_256 (parent : Bytes 32) (counter : UInt32) :
    (sampleConfig.blake2_256 (noncePreimage parent counter)).data =
      parent.data.drop 4 ++ leBytes counter := by
  have htag : "midnight:bridge-transfer-nonce:".toUTF8.toList.length = 31 := by decide +kernel
  have hdrop : (noncePreimage parent counter).drop 35 = parent.data.drop 4 ++ leBytes counter := by
    rw [noncePreimage, List.append_assoc, List.drop_append, htag, List.drop_eq_nil_of_le (by omega),
      List.nil_append, List.drop_append_of_le_length (by rw [parent.length_eq]; omega)]
  have hlen : (parent.data.drop 4 ++ leBytes counter).length = 32 := by
    rw [List.length_append, List.length_drop, parent.length_eq]
    rfl
  have hhash : sampleConfig.blake2_256 (noncePreimage parent counter) =
      (Bytes.ofList? 32 ((noncePreimage parent counter).drop 35)).getD (.fill 32 0) := rfl
  rw [hhash, hdrop, Bytes.ofList?, dif_pos hlen]
  rfl

theorem approvals_single_use_two_blocks :
    (run (genesisBuild 1000 []) (sampleBlocks.flatMap Block.steps)).credits (.fill 32 9) = 2 ∧
    (run (genesisBuild 1000 []) (sampleBlocks.flatMap Block.steps)).nonces.Nodup := by
  refine ⟨by decide +kernel, ?_⟩
  refine (approvals_single_use sampleConfig 1000 [] sampleBlocks (by decide +kernel) ?_).2.2
  intro parent hparent parent' hparent' counter counter' heq
  have hdata := congrArg Bytes.data heq
  rw [sampleConfig_blake2_256, sampleConfig_blake2_256] at hdata
  obtain ⟨hdrop, hcounter⟩ := List.append_inj hdata
    (by rw [List.length_drop, List.length_drop, parent.length_eq, parent'.length_eq])
  -- the two parent hashes differ in their last bytes
  have hdistinct : ∀ p ∈ sampleBlocks.map (·.parentHash), ∀ p' ∈ sampleBlocks.map (·.parentHash),
      p.data.drop 4 = p'.data.drop 4 → p = p' := by decide +kernel
  rw [hdistinct parent hparent parent' hparent' hdrop, leBytes_injective hcounter]

end MidnightNode.C2MBridge
