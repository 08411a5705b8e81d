import Mathlib
import MidnightNode.Ledger.Errors
import MidnightNode.Ledger.Replay
import MidnightNode.Ledger.TranslationCorrectness

/-!
# Migration of the ledger state from version 8 to version 9

`migrate_state_v8_to_v9`: a state key of version 8 is decoded, its ledger loaded from the arena, and the
state of the ledger translated, in runs of a fixed budget until there is a result. The result is stored, and
its key returned. A key of version 9 is returned as it is.
-/

namespace MidnightNode.StateTranslation
open Fallible Translation Ledger

variable {T : CrateTypes} {C : LedgerCrates T}

/-! ## The driver and the arena -/

/-- `TypedTranslationState` of the storage crate. A run gets a budget in picoseconds. The object that a
state works on and what it has found are there for the laws. -/
structure Driver (T : CrateTypes) where
  State : Type
  start : LedgerState8 T → Except String State
  run : Nat → State → Except String State
  result : State → Except String (Option (LedgerState9 T))
  source : State → LedgerState8 T
  cache : State → TranslationCache T

/-- The object that a state works on. -/
def Driver.root (D : Driver T) (tl : D.State) : Child T :=
  (Kind.ledgerState.id, ⟨.ledgerState, D.source tl⟩)

/-- What the storage crate documents: a run translates objects whose children have been translated, and fails
only where a translation does; the result is what has been found for the ledger state. -/
structure Driver.Lawful (D : Driver T) (C : LedgerCrates T) : Prop where
  start : ∀ s, (table.lookup Kind.ledgerState.id).isSome →
    ∃ tl, D.start s = .ok tl ∧ D.source tl = s ∧ D.cache tl = fun _ _ => none
  run : ∀ {budget tl tl'}, D.run budget tl = .ok tl' →
    D.source tl' = D.source tl ∧ Steps (rules C) (D.cache tl) (D.cache tl')
  run_error : ∀ {budget tl e}, D.run budget tl = .error e →
    ∃ c cache, Within (rules C) (D.root tl) c ∧ Steps (rules C) (D.cache tl) cache ∧
      (∀ d ∈ (rules C).children c.1 c.2, (cache d.1 d.2).isSome) ∧
      ∀ target, (rules C).finalize c.1 c.2 cache ≠ .ok target
  result : ∀ tl, D.result tl =
    match D.cache tl (D.root tl).1 (D.root tl).2 with
    | none => .ok none
    | some o => (okOr "downcast" (o.downcast .ledgerState)).map some

structure Storage (T : CrateTypes) where
  Arena : Type
  Key8 : Type
  Key9 : Type
  /-- `tagged_deserialize` at either version. -/
  decode8 : List UInt8 → Option Key8
  decode9 : List UInt8 → Option Key9
  encode9 : Key9 → Option (List UInt8)
  load8 : Arena → Key8 → Option (BlockLedger (LedgerState8 T))
  load9 : Arena → Key9 → Option (BlockLedger (LedgerState9 T))
  /-- `alloc`, `persist` and `flush_all_changes_to_db`. -/
  store9 : Arena → BlockLedger (LedgerState9 T) → Arena × Key9

/-- A key is decoded only at its own version; what is stored can be loaded. -/
structure Storage.Lawful (S : Storage T) : Prop where
  encode9 : ∀ key, ∃ bytes, S.encode9 key = some bytes ∧ S.decode9 bytes = some key
  own_version : ∀ {bytes key}, S.decode8 bytes = some key → S.decode9 bytes = none
  load9_store9 : ∀ arena ledger,
    S.load9 (S.store9 arena ledger).1 (S.store9 arena ledger).2 = some ledger

/-! ## The migration -/

def runBudgetPs : Nat := 10000000000

def maxSteps : Nat := 100000

/-- The loop over `run`; `steps` counts the runs made so far. -/
def runToResult (D : Driver T) (tl : D.State) (steps : Nat) :
    Except LedgerApiError (LedgerState9 T × Nat) :=
  if steps + 1 > maxSteps then .error .hostApiError
  else
    match D.run runBudgetPs tl with
    | .error _ => .error .hostApiError
    | .ok tl =>
      match D.result tl with
      | .error _ => .error .hostApiError
      | .ok (some result) => .ok (result, steps + 1)
      | .ok none => runToResult D tl (steps + 1)
termination_by maxSteps - steps

def migrateStateV8ToV9 (S : Storage T) (D : Driver T) (arena : S.Arena) (stateKeyV8 : List UInt8) :
    Except LedgerApiError ((List UInt8 × Nat) × S.Arena) :=
  if (S.decode9 stateKeyV8).isSome then .ok ((stateKeyV8, 0), arena)
  else do
    let key8 ← okOr (.deserialization .typedArenaKey) (S.decode8 stateKeyV8)
    let ledger8 ← okOr .noLedgerState (S.load8 arena key8)
    let tl ← (D.start ledger8.state).mapError fun _ => LedgerApiError.hostApiError
    let translated ← runToResult D tl 0
    let consumedCostPs := translated.2 * runBudgetPs
    let stored := S.store9 arena ⟨translated.1, .zero⟩
    let bytes ← okOr (.serialization .typedArenaKey) (S.encode9 stored.2)
    return ((bytes, consumedCostPs), stored.1)

/-! ## Runs -/

def Driver.runs (D : Driver T) : Nat → D.State → Except String D.State
  | 0, tl => .ok tl
  | n + 1, tl => do D.runs n (← D.run runBudgetPs tl)

/-- There is a result after at most as many runs as the migration makes. -/
def Driver.Converges (D : Driver T) (s : LedgerState8 T) : Prop :=
  ∃ tl n tl' result, D.start s = .ok tl ∧ n ≤ maxSteps ∧ D.runs n tl = .ok tl' ∧
    D.result tl' = .ok (some result)

/-- What holds of a driver's state between runs. -/
structure Driver.Inv (D : Driver T) (C : LedgerCrates T) (s : LedgerState8 T) (tl : D.State) : Prop where
  source : D.source tl = s
  sound : Sound (spec C) (D.cache tl)

namespace Driver.Inv

variable {D : Driver T} {s : LedgerState8 T} {tl tl' : D.State} {budget : Nat}

theorem run (hC : C.Lawful) (hD : D.Lawful C) (h : D.Inv C s tl) (hrun : D.run budget tl = .ok tl') :
    D.Inv C s tl' := by
  obtain ⟨hsource, hsteps⟩ := hD.run hrun
  exact ⟨hsource.trans h.source, h.sound.steps (rules_meets hC) hsteps⟩

theorem result (hD : D.Lawful C) (h : D.Inv C s tl) :
    D.cache tl (D.root tl).1 (D.root tl).2 = none ∧ D.result tl = .ok none ∨
      D.result tl = .ok (some (translateLedgerState C s)) := by
  rw [hD.result]
  cases ho : D.cache tl (D.root tl).1 (D.root tl).2 with
  | none => exact .inl ⟨rfl, rfl⟩
  | some o =>
    have hspec := h.sound ho
    rw [root, h.source, spec_id] at hspec
    cases hspec
    exact .inr rfl

end Driver.Inv

theorem exists_start {D : Driver T} (hD : D.Lawful C) (s : LedgerState8 T) :
    ∃ tl, D.start s = .ok tl ∧ D.Inv C s tl ∧ D.result tl = .ok none := by
  obtain ⟨tl, htl, hsource, hcache⟩ := hD.start s (by rw [table_lookup_id]; rfl)
  refine ⟨tl, htl, ⟨hsource, hcache ▸ Sound.empty⟩, ?_⟩
  rw [hD.result, hcache]

section

variable {D : Driver T} {s : LedgerState8 T} (hC : C.Lawful) (hD : D.Lawful C)
include hC hD

theorem of_runToResult (h : D.Inv C s tl) (hrun : runToResult D tl steps = .ok (result, n)) :
    result = translateLedgerState C s ∧ steps < n ∧ n ≤ maxSteps := by
  fun_induction runToResult D tl steps with
  | case1 | case2 | case3 => cases hrun
  | case4 tl steps hsteps tl' htl' result' hresult =>
    cases hrun
    rcases (h.run hC hD htl').result hD with ⟨-, hnone⟩ | hsome
    · cases hresult.symm.trans hnone
    · cases hresult.symm.trans hsome
      exact ⟨rfl, Nat.lt_succ_self _, Nat.le_of_not_lt hsteps⟩
  | case5 tl steps hsteps tl' htl' hresult ih =>
    obtain ⟨heq, hlt, hle⟩ := ih (h.run hC hD htl') hrun
    exact ⟨heq, Nat.lt_of_succ_lt hlt, hle⟩

theorem exists_runToResult (h : D.Inv C s tl) (hn : steps + (n + 1) ≤ maxSteps)
    (hruns : D.runs (n + 1) tl = .ok tl') (hresult : D.result tl' = .ok (some result)) :
    ∃ x, runToResult D tl steps = .ok x := by
  induction n generalizing tl steps with
  | zero =>
    obtain ⟨tl₁, htl₁, hruns⟩ := of_bind hruns
    cases hruns
    rw [runToResult, if_neg (by omega)]
    simp only [htl₁, hresult]
    exact ⟨_, rfl⟩
  | succ n ih =>
    obtain ⟨tl₁, htl₁, hruns⟩ := of_bind hruns
    have h₁ := h.run hC hD htl₁
    rw [runToResult, if_neg (by omega)]
    simp only [htl₁]
    rcases h₁.result hD with ⟨-, hnone⟩ | hsome
    · simp only [hnone]
      exact ih h₁ (by omega) hruns
    · simp only [hsome]
      exact ⟨_, rfl⟩

end

/-! ## Migrations -/

section

variable {S : Storage T} {D : Driver T} {arena arena' : S.Arena} {bytes bytes' : List UInt8} {cost : Nat}

theorem migrate_of_decode9 (h : (S.decode9 bytes).isSome) :
    migrateStateV8ToV9 S D arena bytes = .ok ((bytes, 0), arena) :=
  if_pos h

theorem of_migrate (hC : C.Lawful) (hD : D.Lawful C)
    (h : migrateStateV8ToV9 S D arena bytes = .ok ((bytes', cost), arena')) :
    ((S.decode9 bytes).isSome ∧ bytes' = bytes ∧ cost = 0 ∧ arena' = arena) ∨
      ∃ key ledger n, S.decode8 bytes = some key ∧ S.load8 arena key = some ledger ∧
        0 < n ∧ n ≤ maxSteps ∧ cost = n * runBudgetPs ∧
        arena' = (S.store9 arena ⟨translateLedgerState C ledger.state, .zero⟩).1 ∧
        S.encode9 (S.store9 arena ⟨translateLedgerState C ledger.state, .zero⟩).2 = some bytes' := by
  unfold migrateStateV8ToV9 at h
  split at h
  case isTrue hkey =>
    cases h
    exact .inl ⟨hkey, rfl, rfl, rfl⟩
  case isFalse =>
    obtain ⟨key, hkey, h⟩ := of_bind h
    obtain ⟨ledger, hledger, h⟩ := of_bind h
    obtain ⟨tl, htl, h⟩ := of_bind h
    obtain ⟨⟨state, n⟩, hstate, h⟩ := of_bind h
    obtain ⟨bytes₁, hbytes, h⟩ := of_bind h
    cases h
    obtain ⟨tl₁, htl₁, hinv, -⟩ := exists_start hD ledger.state
    obtain rfl : tl₁ = tl := Except.ok.inj (htl₁.symm.trans (of_mapError htl))
    obtain ⟨rfl, hpos, hmax⟩ := of_runToResult hC hD hinv hstate
    exact .inr ⟨key, ledger, n, of_okOr hkey, of_okOr hledger, hpos, hmax, rfl, rfl, of_okOr hbytes⟩

theorem exists_migrate (hC : C.Lawful) (hD : D.Lawful C) (hS : S.Lawful)
    (hkey : S.decode8 bytes = some key) (hledger : S.load8 arena key = some ledger)
    (hconverges : D.Converges ledger.state) : ∃ x, migrateStateV8ToV9 S D arena bytes = .ok x := by
  obtain ⟨tl, n, tl', result, htl, hn, hruns, hresult⟩ := hconverges
  obtain ⟨tl₁, htl₁, hinv, hnone⟩ := exists_start hD ledger.state
  obtain rfl : tl₁ = tl := Except.ok.inj (htl₁.symm.trans htl)
  have htranslated : ∃ x, runToResult D tl₁ 0 = .ok x := by
    cases n with
    | zero =>
      cases hruns
      cases hnone.symm.trans hresult
    | succ n => exact exists_runToResult hC hD hinv (by omega) hruns hresult
  obtain ⟨translated, htranslated⟩ := htranslated
  obtain ⟨bytes', hbytes', -⟩ := hS.encode9 (S.store9 arena ⟨translated.1, .zero⟩).2
  refine ⟨((bytes', translated.2 * runBudgetPs), (S.store9 arena ⟨translated.1, .zero⟩).1), ?_⟩
  rw [migrateStateV8ToV9, hS.own_version hkey, if_neg (by simp), hkey]
  simp only [okOr, bind, Except.bind, hledger, htl, Except.mapError, htranslated, hbytes']
  rfl

end

/-! A driver that does all the work in one run, and a storage of its results. -/

namespace OneRun

noncomputable def cache (hC : C.Lawful) (tl : LedgerState8 T × Bool) : TranslationCache T :=
  if tl.2 then Classical.choose (reaches hC .ledgerState tl.1 _ Sound.empty) else fun _ _ => none

noncomputable def driver (hC : C.Lawful) : Driver T where
  State := LedgerState8 T × Bool
  start s := .ok (s, false)
  run _ tl := .ok (tl.1, true)
  source := Prod.fst
  cache := cache hC
  result tl :=
    match cache hC tl Kind.ledgerState.id ⟨.ledgerState, tl.1⟩ with
    | none => .ok none
    | some o => (okOr "downcast" (o.downcast .ledgerState)).map some

theorem driver_lawful (hC : C.Lawful) : (driver hC).Lawful C where
  start s _ := ⟨(s, false), rfl, rfl, rfl⟩
  run {_ tl _} h := by
    cases h
    refine ⟨rfl, ?_⟩
    obtain ⟨s, _ | _⟩ := tl
    · exact (Classical.choose_spec (reaches hC .ledgerState s _ Sound.empty)).1
    · exact .refl
  run_error := nofun
  result _ := rfl

theorem driver_converges (hC : C.Lawful) (s : LedgerState8 T) : (driver hC).Converges s := by
  have hsome := (Classical.choose_spec (reaches hC .ledgerState s _ Sound.empty)).2
  have hD := driver_lawful hC
  obtain ⟨tl, htl, hinv, -⟩ := exists_start hD s
  cases htl
  have hrun : (driver hC).run runBudgetPs (s, false) = .ok (s, true) := rfl
  refine ⟨(s, false), 1, (s, true), translateLedgerState C s, rfl, Nat.le_of_ble_eq_true rfl, rfl, ?_⟩
  rcases (hinv.run hC hD hrun).result hD with ⟨hnone, -⟩ | hresult
  · cases (congrArg Option.isSome hnone).symm.trans hsome
  · exact hresult

/-- Keys count what has been stored; the one key of version 8 has the ledger that is given. -/
def storage (ledger : BlockLedger (LedgerState8 T)) : Storage T where
  Arena := List (BlockLedger (LedgerState9 T))
  Key8 := Unit
  Key9 := Nat
  decode8 bytes := if bytes = [8] then some () else none
  decode9 bytes := if bytes.head? = some 9 then some bytes.tail.length else none
  encode9 key := some (9 :: List.replicate key 0)
  load8 _ _ := some ledger
  load9 arena key := arena[key]?
  store9 arena stored := (arena ++ [stored], arena.length)

theorem storage_lawful (ledger : BlockLedger (LedgerState8 T)) : (storage ledger).Lawful where
  encode9 _ := ⟨_, rfl, congrArg some List.length_replicate⟩
  own_version {bytes key} h := by
    simp only [storage] at h ⊢
    split at h
    case isTrue hbytes =>
      subst hbytes
      rfl
    case isFalse => cases h
  load9_store9 _ _ := List.getElem?_concat_length

@[reducible] def types : CrateTypes where
  ArenaKey := Nat
  Base _ := Nat
  FixedPoint := Nat
  Duration := Nat
  CostDuration := Nat
  VerifierKey := Nat
  VerifierKey7 := Nat
  Ir := Nat
  VerifyingKey := Nat
  EcdsaKey := Nat
  SizeAnn := Nat
  NightAnn8 := Nat
  NightAnn9 := Nat
  monoid := inferInstance

def crates : LedgerCrates types where
  storedTag8 _ := "stored"
  storedTag9 _ := "stored"
  baseTag8 _ := "base"
  baseTag9 _ := "base"
  getLazy := .ok
  serialize _ a := .ok (List.replicate a 0)
  deserialize _ buf := .ok buf.length
  initialParameters :=
    ⟨⟨0, 0, 1, 1, 1⟩, ⟨⟨0, 0, 0, ⟨0, 0, 0, 0, 0⟩, 0⟩, 1⟩, 0, 0, 0, 0, 0, 0, 0, 1⟩
  contractAnn _ := 1
  amountAnn amount := amount

theorem crates_lawful : crates.Lawful where
  storedTag _ := rfl
  baseTag _ := rfl
  getLazy _ := rfl
  deserialize _ _ := ⟨_, rfl, congrArg Except.ok List.length_replicate⟩

/-- A contract below an extension, another one on the way to it, and an amount in the other trie. -/
def state : LedgerState8 types where
  networkId := "undeployed"
  parameters := ⟨⟨1, 4, 2⟩, ⟨3, 0, 0, ⟨0, 0, 0, 0, 0⟩, 0⟩, 5, 6, 7, 0, 0, 0, 0⟩
  lockedPool := 1
  bridgeReceiving := ⟨.branch 1 fun i => if i = 3 then .leaf 1 25 else .empty⟩
  reservePool := 2
  blockRewardPool := 3
  unclaimedBlockRewards := 4
  treasury := 5
  zswap := 6
  contract := ⟨.midBranchLeaf 2 ⟨1, (HashMap.empty.insert [1] ⟨some 7⟩).insert [2] ⟨none⟩, ⟨[1, 2], 2, 0⟩, 8⟩
    (.extension 1 [4, 2] (.leaf 1 ⟨2, .empty, ⟨[], 0, 0⟩, 9⟩))⟩
  utxo := 7
  replayProtection := 8
  dust := 9

end OneRun

/-- Nothing is lost. Wherever the driver is stopped, what it has found for a ledger state preserves it, and it
can go on until it finds something. A migration returns the key of such a state, or the key it got if that is
one of version 9; it succeeds for every stored state for which the driver needs no more runs than it is given;
and migrating the returned key again returns it, at no cost. -/
theorem state_migration_preserves (hC : C.Lawful) {D : Driver T} (hD : D.Lawful C) {S : Storage T}
    (hS : S.Lawful) :
    (∀ s cache, Steps (rules C) (fun _ _ => none) cache →
      (∀ o, cache Kind.ledgerState.id ⟨.ledgerState, s⟩ = some o →
        ∃ s', o = ⟨.ledgerState, s'⟩ ∧ Preserved C s s') ∧
      ∃ cache', Steps (rules C) cache cache' ∧
        (cache' Kind.ledgerState.id ⟨.ledgerState, s⟩).isSome) ∧
    (∀ arena bytes key ledger, S.decode8 bytes = some key → S.load8 arena key = some ledger →
      D.Converges ledger.state → ∃ x, migrateStateV8ToV9 S D arena bytes = .ok x) ∧
    ∀ arena bytes arena' bytes' cost,
      migrateStateV8ToV9 S D arena bytes = .ok ((bytes', cost), arena') →
      (((S.decode9 bytes).isSome ∧ bytes' = bytes ∧ cost = 0 ∧ arena' = arena) ∨
        ∃ key ledger key' ledger', S.decode8 bytes = some key ∧ S.load8 arena key = some ledger ∧
          S.decode9 bytes' = some key' ∧ S.load9 arena' key' = some ledger' ∧
          Preserved C ledger.state ledger'.state ∧ runBudgetPs ≤ cost ∧ cost < 2 ^ 64) ∧
      migrateStateV8ToV9 S D arena' bytes' = .ok ((bytes', 0), arena') := by
  have hr := rules_meets hC
  refine ⟨fun s cache hsteps => ⟨fun o ho => ?_, ?_⟩,
    fun arena bytes key ledger hkey hledger hconverges => exists_migrate hC hD hS hkey hledger hconverges,
    fun arena bytes arena' bytes' cost h => ?_⟩
  · have hspec := Sound.steps hr Sound.empty hsteps ho
    rw [spec_id] at hspec
    exact ⟨translateLedgerState C s, (Option.some.inj hspec).symm, preserved_translate s⟩
  · exact reaches hC .ledgerState s cache (Sound.steps hr Sound.empty hsteps)
  · rcases of_migrate hC hD h with ⟨hkey, rfl, rfl, rfl⟩ |
      ⟨key, ledger, n, hkey, hledger, hpos, hmax, rfl, rfl, hbytes⟩
    · exact ⟨.inl ⟨hkey, rfl, rfl, rfl⟩, migrate_of_decode9 hkey⟩
    · obtain ⟨bytes₁, hbytes₁, hkey'⟩ :=
        hS.encode9 (S.store9 arena ⟨translateLedgerState C ledger.state, .zero⟩).2
      obtain rfl : bytes₁ = bytes' := Option.some.inj (hbytes₁.symm.trans hbytes)
      refine ⟨.inr ⟨key, ledger, _, _, hkey, hledger, hkey', hS.load9_store9 arena _,
        preserved_translate ledger.state, ?_, ?_⟩, migrate_of_decode9 (Option.isSome_of_eq_some hkey')⟩
      · exact Nat.le_mul_of_pos_left runBudgetPs hpos
      · simp only [maxSteps, runBudgetPs] at hmax ⊢
        omega

/-- A state with two contracts and an amount. -/
theorem state_migration_preserves_two_contracts :
    ∃ bytes cost arena',
      migrateStateV8ToV9 (OneRun.storage ⟨OneRun.state, .zero⟩) (OneRun.driver OneRun.crates_lawful) [] [8] =
        .ok ((bytes, cost), arena') ∧
      (∃ key' ledger', (OneRun.storage ⟨OneRun.state, .zero⟩).load9 arena' key' = some ledger' ∧
        Preserved OneRun.crates OneRun.state ledger'.state) ∧
      migrateStateV8ToV9 (OneRun.storage ⟨OneRun.state, .zero⟩) (OneRun.driver OneRun.crates_lawful) arena'
        bytes = .ok ((bytes, 0), arena') := by
  obtain ⟨-, hok, h⟩ := state_migration_preserves OneRun.crates_lawful
    (OneRun.driver_lawful OneRun.crates_lawful) (OneRun.storage_lawful ⟨OneRun.state, .zero⟩)
  obtain ⟨⟨⟨bytes, cost⟩, arena'⟩, hx⟩ := hok [] [8] () _ rfl rfl (OneRun.driver_converges _ _)
  obtain ⟨hcase, hagain⟩ := h [] [8] arena' bytes cost hx
  refine ⟨bytes, cost, arena', hx, ?_, hagain⟩
  rcases hcase with ⟨hkey, -⟩ | ⟨key, ledger, key', ledger', -, hledger, -, hledger', hpreserved, -⟩
  · cases hkey
  · cases hledger
    exact ⟨key', ledger', hledger', hpreserved⟩

end MidnightNode.StateTranslation
