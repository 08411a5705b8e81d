import MidnightNode.Lib.Fallible
import MidnightNode.Lib.FixedWindow
import MidnightNode.Lib.MachineInts

/-!
# Throttling of signed transactions

`CheckThrottle` of `pallets/throttle`: a transaction extension that counts the bytes and the
transactions of each account in a window of blocks. `validate` reads the counters and rejects, `prepare`
writes them; a block runs `prepare` right after `validate` succeeded, the mempool runs `validate` alone.

A window starts with the first transaction after the last window has expired, so an account can spend
two limits in a row. `State.accepted` is the history of the transactions that `validate` let pass in a block.
-/

namespace MidnightNode.Throttle

open FixedWindow

/-- The constants of the pallet. A limit is below the largest number, so a saturated counter exceeds
it. -/
structure Config where
  maxBytes : Nat
  maxTxs : Nat
  windowSize : Nat
  maxBytes_lt : maxBytes < u64Max
  maxTxs_lt : maxTxs < u64Max
  windowSize_pos : 0 < windowSize

/-- `pallet_throttle::Config for Runtime`: 10 MB and 100 transactions in an hour of 6-second blocks. -/
def runtimeConfig : Config where
  maxBytes := 10 * 1024 * 1024
  maxTxs := 100
  windowSize := 60 * (60000 / 6000)
  maxBytes_lt := by decide
  maxTxs_lt := by decide
  windowSize_pos := by decide

structure UsageStats where
  bytesUsed : Nat
  txsUsed : Nat
  windowStart : Nat
deriving DecidableEq

def UsageStats.default : UsageStats := ⟨0, 0, 0⟩

inductive Origin (AccountId : Type)
  | signed (who : AccountId)
  | other

def Origin.asSystemOriginSigner {AccountId : Type} : Origin AccountId → Option AccountId
  | .signed who => some who
  | .other => none

inductive InvalidTransaction
  | exhaustsResources
deriving DecidableEq

structure Accepted (AccountId : Type) where
  who : AccountId
  block : Nat
  len : Nat

structure State (AccountId : Type) where
  blockNumber : Nat
  accountUsage : AccountId → UsageStats
  accepted : List (Accepted AccountId)

variable {AccountId : Type}

def State.genesis : State AccountId := ⟨0, fun _ => .default, []⟩

def Config.expired (cfg : Config) (currentBlock : Nat) (usage : UsageStats) : Bool :=
  decide (currentBlock - usage.windowStart ≥ cfg.windowSize)

def validate (cfg : Config) (origin : Origin AccountId) (len : Nat) (s : State AccountId) :
    Except InvalidTransaction (Option AccountId) :=
  match origin.asSystemOriginSigner with
  | none => .ok none
  | some who =>
    let usage := s.accountUsage who
    let (effectiveBytes, effectiveTxs) :=
      if cfg.expired s.blockNumber usage then (0, 0) else (usage.bytesUsed, usage.txsUsed)
    if saturatingAdd u64Max effectiveBytes len > cfg.maxBytes then .error .exhaustsResources
    else if saturatingAdd u64Max effectiveTxs 1 > cfg.maxTxs then .error .exhaustsResources
    else .ok (some who)

/-- What `prepare` does to the stored usage of an account. -/
def UsageStats.update (cfg : Config) (currentBlock len : Nat) (usage : UsageStats) : UsageStats :=
  let usage := if cfg.expired currentBlock usage then ⟨0, 0, currentBlock⟩ else usage
  { usage with
    bytesUsed := saturatingAdd u64Max usage.bytesUsed len
    txsUsed := saturatingAdd u64Max usage.txsUsed 1 }

/-- The history with a transaction of the signer that `validate` returned. -/
def State.record (val : Option AccountId) (len : Nat) (s : State AccountId) : State AccountId :=
  { s with accepted := s.accepted ++ val.toList.map (⟨·, s.blockNumber, len⟩) }

variable [DecidableEq AccountId]

def prepare (cfg : Config) (val : Option AccountId) (len : Nat) (s : State AccountId) :
    State AccountId :=
  match val with
  | none => s
  | some who =>
    { s with
      accountUsage := Function.update s.accountUsage who
        ((s.accountUsage who).update cfg s.blockNumber len) }

/-- The mempool validates, a block validates and prepares, and blocks go on. -/
inductive Step (AccountId : Type)
  | advance (blocks : Nat)
  | validate (origin : Origin AccountId) (len : Nat)
  | validateAndPrepare (origin : Origin AccountId) (len : Nat)

def step (cfg : Config) (s : State AccountId) : Step AccountId → State AccountId
  | .advance blocks => { s with blockNumber := s.blockNumber + blocks }
  | .validate _ _ => s
  | .validateAndPrepare origin len =>
    match validate cfg origin len s with
    | .ok val => (prepare cfg val len s).record val len
    | .error _ => s

def run (cfg : Config) (s : State AccountId) (steps : List (Step AccountId)) : State AccountId :=
  steps.foldl (step cfg) s

/-! ## What an accepted transaction does -/

section

omit [DecidableEq AccountId]

variable {cfg : Config} {s : State AccountId} {who : AccountId} {origin : Origin AccountId} {len : Nat}

theorem Config.expired_iff :
    cfg.expired currentBlock usage = true ↔ usage.windowStart + cfg.windowSize ≤ currentBlock := by
  have hpos := cfg.windowSize_pos
  rw [Config.expired, decide_eq_true_iff]
  omega

theorem saturatingAdd_eq (hle : ¬ saturatingAdd u64Max a b > limit) (hlimit : limit < u64Max) :
    saturatingAdd u64Max a b = a + b ∧ a + b ≤ limit := by
  unfold saturatingAdd at hle ⊢
  omega

/-- The usage after an accepted transaction: it opens a window, or it goes on in the current one. -/
inductive Admitted (cfg : Config) (currentBlock len : Nat) (usage : UsageStats) : UsageStats → Prop
  | opens (hend : usage.windowStart + cfg.windowSize ≤ currentBlock) (hbytes : len ≤ cfg.maxBytes)
      (htxs : 1 ≤ cfg.maxTxs) : Admitted cfg currentBlock len usage ⟨len, 1, currentBlock⟩
  | continues (hend : currentBlock < usage.windowStart + cfg.windowSize)
      (hbytes : usage.bytesUsed + len ≤ cfg.maxBytes) (htxs : usage.txsUsed + 1 ≤ cfg.maxTxs) :
      Admitted cfg currentBlock len usage
        ⟨usage.bytesUsed + len, usage.txsUsed + 1, usage.windowStart⟩

/-- A signed transaction that is validated is within the limits of its sender. -/
theorem validate_inv (h : validate cfg origin len s = .ok val) :
    ∀ who ∈ val, Admitted cfg s.blockNumber len (s.accountUsage who)
      ((s.accountUsage who).update cfg s.blockNumber len) := by
  unfold validate at h
  split at h
  case h_1 =>
    cases h
    exact fun who hwho => nomatch hwho
  case h_2 signer hsigner =>
    unfold UsageStats.update
    cases hexpired : cfg.expired s.blockNumber (s.accountUsage signer) with
    | true =>
      simp only [hexpired, if_true] at h
      obtain ⟨hbytes, h⟩ := Fallible.of_check h
      obtain ⟨htxs, h⟩ := Fallible.of_check h
      cases h
      rintro who ⟨⟩
      obtain ⟨hbytesEq, hbytes⟩ := saturatingAdd_eq hbytes cfg.maxBytes_lt
      obtain ⟨htxsEq, htxs⟩ := saturatingAdd_eq htxs cfg.maxTxs_lt
      rw [Nat.zero_add] at hbytesEq hbytes
      simp only [hexpired, if_true, hbytesEq, htxsEq]
      exact .opens (Config.expired_iff.mp hexpired) hbytes htxs
    | false =>
      simp only [hexpired, Bool.false_eq_true, if_false] at h
      obtain ⟨hbytes, h⟩ := Fallible.of_check h
      obtain ⟨htxs, h⟩ := Fallible.of_check h
      cases h
      rintro who ⟨⟩
      obtain ⟨hbytesEq, hbytes⟩ := saturatingAdd_eq hbytes cfg.maxBytes_lt
      obtain ⟨htxsEq, htxs⟩ := saturatingAdd_eq htxs cfg.maxTxs_lt
      simp only [hexpired, Bool.false_eq_true, if_false, hbytesEq, htxsEq]
      refine .continues ?_ hbytes htxs
      rw [← not_le, ← Config.expired_iff, hexpired]
      exact Bool.false_ne_true

end

/-! ## The counters and the history -/

def State.acceptedBy (s : State AccountId) (who : AccountId) : List (Accepted AccountId) :=
  s.accepted.filter fun a => a.who = who

structure AccountInv (cfg : Config) (s : State AccountId) (who : AccountId)
    (closed opened : List (Accepted AccountId)) : Prop where
  history : s.acceptedBy who = closed ++ opened
  bytes : Windowed Accepted.block Accepted.len cfg.windowSize cfg.maxBytes
    (s.accountUsage who).windowStart closed opened
  txs : Windowed Accepted.block (fun _ => 1) cfg.windowSize cfg.maxTxs
    (s.accountUsage who).windowStart closed opened
  bytesUsed : (s.accountUsage who).bytesUsed = total Accepted.len opened
  txsUsed : (s.accountUsage who).txsUsed = total (fun _ => 1) opened
  start_le : (s.accountUsage who).windowStart ≤ s.blockNumber

def Inv (cfg : Config) (s : State AccountId) : Prop :=
  ∀ who, ∃ closed opened, AccountInv cfg s who closed opened

section

variable {cfg : Config} {s : State AccountId} {who : AccountId} {len : Nat}

theorem Inv.genesis : Inv cfg (State.genesis : State AccountId) :=
  fun _ => ⟨[], [], rfl, .nil, .nil, rfl, rfl, le_rfl⟩

theorem acceptedBy_record_self :
    ((prepare cfg (some who) len s).record (some who) len).acceptedBy who =
      s.acceptedBy who ++ [⟨who, s.blockNumber, len⟩] := by
  simp [State.acceptedBy, State.record, prepare]

theorem acceptedBy_record_of_ne (hne : other ≠ who) :
    ((prepare cfg (some who) len s).record (some who) len).acceptedBy other = s.acceptedBy other := by
  simp [State.acceptedBy, State.record, prepare, hne.symm]

theorem accountUsage_prepare_self :
    (prepare cfg (some who) len s).accountUsage who =
      (s.accountUsage who).update cfg s.blockNumber len :=
  Function.update_self _ _ _

theorem accountUsage_prepare_of_ne (hne : other ≠ who) :
    (prepare cfg (some who) len s).accountUsage other = s.accountUsage other :=
  Function.update_of_ne hne _ _

theorem AccountInv.prepare (h : AccountInv cfg s who closed opened)
    (hadmitted : Admitted cfg s.blockNumber len (s.accountUsage who)
      ((s.accountUsage who).update cfg s.blockNumber len)) :
    ∃ closed opened, AccountInv cfg ((Throttle.prepare cfg (some who) len s).record (some who) len) who
      closed opened := by
  let a : Accepted AccountId := ⟨who, s.blockNumber, len⟩
  have husage : ((Throttle.prepare cfg (some who) len s).record (some who) len).accountUsage who = _ :=
    accountUsage_prepare_self
  have hhistory : ((Throttle.prepare cfg (some who) len s).record (some who) len).acceptedBy who = _ :=
    acceptedBy_record_self
  rw [h.history] at hhistory
  generalize (s.accountUsage who).update cfg s.blockNumber len = usage at hadmitted husage
  cases hadmitted with
  | opens hend hbytes htxs =>
    refine ⟨closed ++ opened, [a], hhistory, ?_, ?_, ?_, ?_, ?_⟩ <;> rw [husage]
    · exact h.bytes.reopen (a := a) cfg.windowSize_pos hend hbytes
    · exact h.txs.reopen (a := a) cfg.windowSize_pos hend htxs
    · simp [total, a]
    · simp [total]
    · exact le_rfl
  | continues hend hbytes htxs =>
    rw [List.append_assoc] at hhistory
    rw [h.bytesUsed] at hbytes husage
    rw [h.txsUsed] at htxs husage
    refine ⟨closed, opened ++ [a], hhistory, ?_, ?_, ?_, ?_, ?_⟩ <;> rw [husage]
    · exact h.bytes.extend (a := a) h.start_le hend hbytes
    · exact h.txs.extend (a := a) h.start_le hend htxs
    · rw [total_append]
      simp [total, a]
    · rw [total_append]
      simp [total]
    · exact h.start_le

theorem Inv.prepare (h : Inv cfg s)
    (hadmitted : ∀ who ∈ val, Admitted cfg s.blockNumber len (s.accountUsage who)
      ((s.accountUsage who).update cfg s.blockNumber len)) :
    Inv cfg ((prepare cfg val len s).record val len) := by
  cases val with
  | none => simpa [State.record, Throttle.prepare] using h
  | some who =>
    intro other
    obtain ⟨closed, opened, ha⟩ := h other
    by_cases hne : other = who
    · subst hne
      exact ha.prepare (hadmitted other rfl)
    · -- nothing of another account changes
      have husage : ((Throttle.prepare cfg (some who) len s).record (some who) len).accountUsage other =
          _ := accountUsage_prepare_of_ne hne
      have hhistory : ((Throttle.prepare cfg (some who) len s).record (some who) len).acceptedBy other =
          _ := acceptedBy_record_of_ne hne
      refine ⟨closed, opened, hhistory.trans ha.history, ?_, ?_, ?_, ?_, ?_⟩ <;> rw [husage]
      · exact ha.bytes
      · exact ha.txs
      · exact ha.bytesUsed
      · exact ha.txsUsed
      · exact ha.start_le

theorem Inv.step (h : Inv cfg s) (st : Step AccountId) : Inv cfg (step cfg s st) := by
  cases st with
  | advance blocks =>
    intro who
    obtain ⟨closed, opened, ha⟩ := h who
    exact ⟨closed, opened, { ha with start_le := ha.start_le.trans (Nat.le_add_right _ _) }⟩
  | validate origin len => exact h
  | validateAndPrepare origin len =>
    rw [Throttle.step]
    split
    case h_1 val hval => exact h.prepare (validate_inv hval)
    case h_2 => exact h

theorem Inv.run (h : Inv cfg s) (steps : List (Step AccountId)) : Inv cfg (run cfg s steps) := by
  induction steps generalizing s with
  | nil => exact h
  | cons st steps ih => exact ih (h.step st)

end

/-- The counters of an account are the totals of what was accepted since the start of its window, within
the limits; and in any span of blocks as long as a window no account gets more than twice the limits
accepted. -/
theorem throttle_accounts_exactly (cfg : Config) (steps : List (Step AccountId)) (who : AccountId) :
    let s := run cfg State.genesis steps
    let usage := s.accountUsage who
    let sinceStart := (s.acceptedBy who).filter fun a => usage.windowStart ≤ a.block
    (usage.bytesUsed = (sinceStart.map Accepted.len).sum ∧ usage.txsUsed = sinceStart.length ∧
      usage.bytesUsed ≤ cfg.maxBytes ∧ usage.txsUsed ≤ cfg.maxTxs) ∧
    ∀ n, let span := (s.acceptedBy who).filter fun a => n ≤ a.block ∧ a.block < n + cfg.windowSize
      (span.map Accepted.len).sum ≤ 2 * cfg.maxBytes ∧ span.length ≤ 2 * cfg.maxTxs := by
  intro s usage sinceStart
  obtain ⟨closed, opened, h⟩ := (Inv.genesis : Inv cfg State.genesis).run steps who
  have hlength : ∀ events : List (Accepted AccountId), total (fun _ => 1) events = events.length := by
    simp [total]
  have hsince : sinceStart = opened := by
    dsimp only [sinceStart]
    rw [h.history]
    exact h.bytes.filter_eq
  have htxsUsed : usage.txsUsed = opened.length := h.txsUsed.trans (hlength opened)
  have htxs := h.txs.opened_le
  rw [hlength] at htxs
  rw [hsince]
  refine ⟨⟨h.bytesUsed, htxsUsed, h.bytesUsed.trans_le h.bytes.opened_le, htxsUsed.trans_le htxs⟩, ?_⟩
  intro n
  have hspanBytes := h.bytes.span_le n
  have hspanTxs := h.txs.span_le n
  rw [← h.history] at hspanBytes hspanTxs
  rw [hlength] at hspanTxs
  exact ⟨hspanBytes, hspanTxs⟩

/-- Two limits in a row: the last block of a window, and the first block of the next one. -/
example :
    let s := run runtimeConfig (State.genesis : State Nat)
      [.advance 599, .validateAndPrepare (.signed 1) (10 * 1024 * 1024), .advance 1,
        .validateAndPrepare (.signed 1) (10 * 1024 * 1024), .validateAndPrepare (.signed 1) 1]
    s.accepted.map Accepted.block = [599, 600] ∧ (s.accountUsage 1).windowStart = 600 := by
  decide

end MidnightNode.Throttle
