import MidnightNode.Lib.CursorIteration
import MidnightNode.Pallet.Registrations

/-!
# The migration of the mapping

`pallets/cnight-observation/migrations/v1.rs`: the first layout of the mapping held a vector of
entries for each address; a multi-block migration drains it row by row into the double map, in the
order of the hashed storage keys, as far as the weight of each step goes. `process_tokens` skips its
work until the migration has raised the storage version.

`Chain` runs both against each other: steps of the migration with any weight meters, calls and ends
of blocks, in any order.
-/

namespace MidnightNode.Pallet
open CNight CursorIteration

/-- Worst-case number of entries of one address. -/
def maxEntriesPerAddr : Nat := 100

/-! ## Weights -/

structure Weight where
  refTime : Nat
  proofSize : Nat
deriving DecidableEq, Repr

namespace Weight

def anyLt (a b : Weight) : Bool := decide (a.refTime < b.refTime) || decide (a.proofSize < b.proofSize)

def add (a b : Weight) : Weight := ⟨a.refTime + b.refTime, a.proofSize + b.proofSize⟩

def saturatingSub (a b : Weight) : Weight := ⟨a.refTime - b.refTime, a.proofSize - b.proofSize⟩

theorem anyLt_eq_false {a : Weight} :
    a.anyLt b = false ↔ b.refTime ≤ a.refTime ∧ b.proofSize ≤ a.proofSize := by
  simp [anyLt]

end Weight

structure RuntimeDbWeight where
  read : Nat
  write : Nat

def RuntimeDbWeight.readsWrites (w : RuntimeDbWeight) (reads writes : Nat) : Weight :=
  ⟨min (min (w.read * reads) u64Max + min (w.write * writes) u64Max) u64Max, 0⟩

structure WeightMeter where
  consumed : Weight
  limit : Weight
  within : limit.anyLt consumed = false

namespace WeightMeter

def remaining (m : WeightMeter) : Weight := m.limit.saturatingSub m.consumed

/-- `try_consume`; a sum that overflows is beyond the limit. -/
def tryConsume (m : WeightMeter) (w : Weight) : Option WeightMeter :=
  if h : m.limit.anyLt (m.consumed.add w) = false then some ⟨m.consumed.add w, m.limit, h⟩ else none

theorem tryConsume_ne_none (m : WeightMeter) (w : Weight) (h : m.remaining.anyLt w = false) :
    m.tryConsume w ≠ none := by
  have hwithin := Weight.anyLt_eq_false.mp m.within
  have hrest := Weight.anyLt_eq_false.mp h
  have hfits : m.limit.anyLt (m.consumed.add w) = false := by
    rw [Weight.anyLt_eq_false]
    simp only [remaining, Weight.saturatingSub, Weight.add] at hrest ⊢
    omega
  rw [tryConsume, dif_pos hfits]
  exact Option.some_ne_none _

end WeightMeter

/-! ## The migration -/

/-- The first layout: the entries of an address in one vector. -/
abbrev MappingsV0 := AList fun _ : CardanoRewardAddressBytes => List MappingEntry

structure MigrationConfig where
  blake2128 : List UInt8 → Bytes 16
  dbWeight : RuntimeDbWeight

/-- `Blake2_128Concat`: rows are iterated in the lexicographic order of these keys. -/
def MigrationConfig.hashedKeyFor (cfg : MigrationConfig) (addr : CardanoRewardAddressBytes) :
    List Nat :=
  ((cfg.blake2128 addr.data).data ++ addr.data).map UInt8.toNat

def MigrationConfig.required (cfg : MigrationConfig) : Weight :=
  cfg.dbWeight.readsWrites 1 (1 + maxEntriesPerAddr)

inductive SteppedMigrationError
  | insufficientWeight (required : Weight)
deriving DecidableEq, Repr

/-- How far the migration has come, as its caller knows it. -/
inductive Progress
  | running (cursor : Option CardanoRewardAddressBytes)
  | completed
deriving DecidableEq, Repr

structure Chain where
  pallet : State
  mappingsV0 : MappingsV0
  progress : Progress

namespace Chain

/-- Write the entries of one row into the double map. -/
def insertEntries (mapping : Mapping) (addr : CardanoRewardAddressBytes)
    (entries : List MappingEntry) : Mapping :=
  entries.foldl (fun m entry => m.insert (addr, entry.utxoId) entry.dustPublicKey) mapping

def moveRow (c : Chain) (addr : CardanoRewardAddressBytes) (entries : List MappingEntry) : Chain :=
  { c with
    pallet := { c.pallet with mapping := insertEntries c.pallet.mapping addr entries }
    mappingsV0 := c.mappingsV0.erase addr }

/-- The loop of `step`. Each turn but the last removes a row, so a turn for each row and one more
are enough. -/
def drain (cfg : MigrationConfig) : Nat → Option CardanoRewardAddressBytes → WeightMeter → Chain →
    Option CardanoRewardAddressBytes × Chain
  | 0, cursor, _, c => (cursor, c)
  | fuel + 1, cursor, meter, c =>
    match meter.tryConsume cfg.required with
    | none => (cursor, c)
    | some meter =>
      match nextRow cfg.hashedKeyFor cursor c.mappingsV0 with
      | some ⟨addr, entries⟩ => drain cfg fuel (some addr) meter (c.moveRow addr entries)
      | none =>
        (none, { c with pallet := { c.pallet with storageVersion := currentStorageVersion } })

def migrateV0ToV1 (cfg : MigrationConfig) (cursor : Option CardanoRewardAddressBytes)
    (meter : WeightMeter) (c : Chain) :
    Except SteppedMigrationError (Option CardanoRewardAddressBytes × Chain) :=
  if meter.remaining.anyLt cfg.required then .error (.insufficientWeight cfg.required)
  else .ok (drain cfg (c.mappingsV0.entries.length + 1) cursor meter c)

inductive Action
  | migrationStep (meter : WeightMeter)
  | pallet (a : BlockAction)

/-- One step of the chain. The migration is called until it returns no cursor; a step without
enough weight is called again. -/
def step {Owner : Type} (rt : Runtime Owner) (cfg : MigrationConfig) (c : Chain) : Action → Chain
  | .pallet a => { c with pallet := c.pallet.step rt a }
  | .migrationStep meter =>
    match c.progress with
    | .completed => c
    | .running cursor =>
      match migrateV0ToV1 cfg cursor meter c with
      | .error _ => c
      | .ok (none, c) => { c with progress := .completed }
      | .ok (some cursor, c) => { c with progress := .running (some cursor) }

def run {Owner : Type} (rt : Runtime Owner) (cfg : MigrationConfig) (c : Chain)
    (actions : List Action) : Chain :=
  actions.foldl (step rt cfg) c

end Chain

/-! ## What is drained so far -/

theorem MigrationConfig.hashedKeyFor_injective (cfg : MigrationConfig) :
    Function.Injective cfg.hashedKeyFor := by
  intro a b h
  have hbytes := List.map_injective_iff.mpr (fun _ _ => UInt8.toNat_inj.mp) h
  exact Bytes.ext (Bytes.data_append_inj hbytes).2

/-- The entry a UTXO has in the first layout; where there are several, the last one counts. -/
def migratedEntry (v0 : MappingsV0) (addr : CardanoRewardAddressBytes) (utxoId : UtxoId) :
    Option DustPublicKeyBytes :=
  (((v0.lookup addr).getD []).reverse.find? fun e => decide (e.utxoId = utxoId)).map
    MappingEntry.dustPublicKey

/-- The state while the migration is under way: the rows up to the cursor have been moved, the
others are untouched, and so is everything else. -/
structure DrainInv (cfg : MigrationConfig) (c₀ : Chain)
    (cursor : Option CardanoRewardAddressBytes) (c : Chain) : Prop where
  version : c.pallet.storageVersion = 0
  owners : c.pallet.utxoOwners = c₀.pallet.utxoOwners
  position : c.pallet.nextCardanoPosition = c₀.pallet.nextCardanoPosition
  rows : ∀ a, c.mappingsV0.lookup a =
    if Passed cfg.hashedKeyFor cursor a then none else c₀.mappingsV0.lookup a
  mapping : ∀ a u, c.pallet.mapping.lookup (a, u) =
    if Passed cfg.hashedKeyFor cursor a then migratedEntry c₀.mappingsV0 a u else none

structure Migrated (c₀ c : Chain) : Prop where
  version : c.pallet.storageVersion = currentStorageVersion
  owners : c.pallet.utxoOwners = c₀.pallet.utxoOwners
  position : c.pallet.nextCardanoPosition = c₀.pallet.nextCardanoPosition
  rows : c.mappingsV0 = ∅
  mapping : ∀ a u, c.pallet.mapping.lookup (a, u) = migratedEntry c₀.mappingsV0 a u

section
variable {cfg : MigrationConfig} {c₀ c : Chain} {cursor : Option CardanoRewardAddressBytes}

theorem lookup_insertEntries (m : Mapping) (addr a : CardanoRewardAddressBytes) (u : UtxoId)
    (entries : List MappingEntry) : (Chain.insertEntries m addr entries).lookup (a, u) =
      if a = addr then
        ((entries.reverse.find? fun e => decide (e.utxoId = u)).map
          MappingEntry.dustPublicKey).or (m.lookup (a, u))
      else m.lookup (a, u) := by
  unfold Chain.insertEntries
  induction entries using List.reverseRecOn with
  | nil => simp
  | append_singleton entries e ih =>
    rw [List.foldl_append, List.foldl_cons, List.foldl_nil, DoubleMap.lookup_insert_eq, ih,
      List.reverse_append, List.reverse_singleton, List.singleton_append, List.find?_cons]
    by_cases ha : a = addr
    · by_cases hu : e.utxoId = u
      · simp [ha, hu]
      · simp [ha, hu, Ne.symm hu]
    · simp [ha]

/-- A step of the migration moves a whole row. -/
theorem DrainInv.moveRow (h : DrainInv cfg c₀ cursor c)
    (hnext : nextRow cfg.hashedKeyFor cursor c.mappingsV0 = some ⟨addr, entries⟩) :
    DrainInv cfg c₀ (some addr) (c.moveRow addr entries) := by
  obtain ⟨hrow, hafter, -⟩ := nextRow_eq_some hnext
  have hrow₀ : c₀.mappingsV0.lookup addr = some entries := by
    have hrows := h.rows addr
    rw [if_neg hafter] at hrows
    exact hrows.symm.trans hrow
  -- an address other than the moved one is passed as before, unless it has no row at all
  have hother (a) (hne : a ≠ addr) :
      (Passed cfg.hashedKeyFor (some addr) a ↔ Passed cfg.hashedKeyFor cursor a) ∨
      (¬ Passed cfg.hashedKeyFor cursor a ∧ c₀.mappingsV0.lookup a = none) := by
    by_cases hpassed : Passed cfg.hashedKeyFor cursor a
    · exact .inl ⟨fun _ => hpassed, fun _ => hpassed.of_nextRow hnext⟩
    · by_cases hmem : a ∈ c.mappingsV0
      · exact .inl (passed_iff_of_nextRow cfg.hashedKeyFor_injective hnext hmem hne)
      · have hrows := h.rows a
        rw [if_neg hpassed, AList.lookup_eq_none.mpr hmem] at hrows
        exact .inr ⟨hpassed, hrows.symm⟩
  have hself : Passed cfg.hashedKeyFor (some addr) addr := le_refl (cfg.hashedKeyFor addr)
  refine ⟨h.version, h.owners, h.position, fun a => ?_, fun a u => ?_⟩
  · by_cases heq : a = addr
    · subst heq
      rw [if_pos hself]
      exact AList.lookup_erase a c.mappingsV0
    · refine (AList.lookup_erase_ne heq).trans ?_
      rcases hother a heq with hiff | ⟨hpassed, hnone⟩
      · rw [h.rows a, if_congr hiff rfl rfl]
      · rw [h.rows a, if_neg hpassed, hnone, ite_self]
  · refine (lookup_insertEntries _ _ _ _ _).trans ?_
    by_cases heq : a = addr
    · subst heq
      rw [if_pos rfl, if_pos hself, h.mapping, if_neg hafter, Option.or_none, migratedEntry, hrow₀]
      rfl
    · rw [if_neg heq, h.mapping]
      rcases hother a heq with hiff | ⟨hpassed, hnone⟩
      · rw [if_congr hiff rfl rfl]
      · rw [if_neg hpassed, migratedEntry, hnone]
        exact (ite_self _).symm

theorem eq_empty_of_forall_notMem {m : MappingsV0} (h : ∀ a, a ∉ m) : m = ∅ := by
  apply AList.ext
  refine List.eq_nil_iff_forall_not_mem.mpr fun row hrow => ?_
  exact h row.1 (AList.lookup_isSome.mp (Option.isSome_of_mem (AList.mem_lookup_iff.mpr hrow)))

theorem DrainInv.migrated (h : DrainInv cfg c₀ cursor c)
    (hnext : nextRow cfg.hashedKeyFor cursor c.mappingsV0 = none) :
    Migrated c₀ { c with pallet := { c.pallet with storageVersion := currentStorageVersion } } := by
  have hempty (a) : a ∉ c.mappingsV0 := by
    intro ha
    have hrows := h.rows a
    rw [if_pos (nextRow_eq_none hnext ha)] at hrows
    exact AList.lookup_eq_none.mp hrows ha
  refine ⟨rfl, h.owners, h.position, eq_empty_of_forall_notMem hempty, fun a u => ?_⟩
  refine (h.mapping a u).trans ?_
  split
  · rfl
  · rename_i hpassed
    -- an address that was not passed has never had a row
    have hrows := h.rows a
    rw [if_neg hpassed, AList.lookup_eq_none.mpr (hempty a)] at hrows
    rw [migratedEntry, ← hrows]
    rfl

/-- The loop either completes the migration or stops at a cursor; it returns no cursor before the
end only if it did not take a single turn. -/
theorem DrainInv.drain (h : DrainInv cfg c₀ cursor c) (fuel : Nat) (meter : WeightMeter) :
    ((Chain.drain cfg fuel cursor meter c).1 = none ∧
      Migrated c₀ (Chain.drain cfg fuel cursor meter c).2) ∨
    (DrainInv cfg c₀ (Chain.drain cfg fuel cursor meter c).1
        (Chain.drain cfg fuel cursor meter c).2 ∧
      ((Chain.drain cfg fuel cursor meter c).1 = none →
        cursor = none ∧ (fuel = 0 ∨ meter.tryConsume cfg.required = none))) := by
  induction fuel generalizing cursor meter c with
  | zero => exact .inr ⟨h, fun hnone => ⟨hnone, .inl rfl⟩⟩
  | succ fuel ih =>
    rw [Chain.drain]
    split
    · rename_i hmeter
      exact .inr ⟨h, fun hnone => ⟨hnone, .inr hmeter⟩⟩
    · split
      · rename_i addr entries hnext
        rcases ih (h.moveRow hnext) _ with hdone | ⟨hinv, hnone⟩
        · exact .inl hdone
        · exact .inr ⟨hinv, fun hc => nomatch (hnone hc).1⟩
      · rename_i hnext
        exact .inl ⟨rfl, h.migrated hnext⟩

/-- A step that is not refused can pay for the first turn of its loop. -/
theorem migrateV0ToV1_inv (hstep : Chain.migrateV0ToV1 cfg cursor meter c = .ok r) :
    meter.tryConsume cfg.required ≠ none ∧
      Chain.drain cfg (c.mappingsV0.entries.length + 1) cursor meter c = r := by
  unfold Chain.migrateV0ToV1 at hstep
  split at hstep
  · cases hstep
  · rename_i hweight
    exact ⟨meter.tryConsume_ne_none cfg.required (Bool.eq_false_iff.mpr hweight),
      Except.ok.inj hstep⟩

/-- A step of the migration that reports completion has moved everything, another one has moved the
rows up to the cursor it returns. -/
theorem DrainInv.migrateV0ToV1 (h : DrainInv cfg c₀ cursor c)
    (hstep : Chain.migrateV0ToV1 cfg cursor meter c = .ok (cursor', c')) :
    (cursor' = none → Migrated c₀ c') ∧ (cursor' ≠ none → DrainInv cfg c₀ cursor' c') := by
  obtain ⟨hmeter, hresult⟩ := migrateV0ToV1_inv hstep
  have hdrain := h.drain (c.mappingsV0.entries.length + 1) meter
  rw [hresult] at hdrain
  rcases hdrain with ⟨hnone, hdone⟩ | ⟨hinv, hnone⟩
  · exact ⟨fun _ => hdone, fun hne => absurd hnone hne⟩
  · refine ⟨fun hc => ?_, fun _ => hinv⟩
    rcases (hnone hc).2 with hfuel | hconsume
    · cases hfuel
    · exact absurd hconsume hmeter

/-! ## The loop ends -/

theorem length_erase {m : MappingsV0} (h : addr ∈ m) :
    (m.erase addr).entries.length + 1 = m.entries.length := by
  obtain ⟨b, l₁, l₂, -, hentries, herase⟩ := List.exists_of_kerase h
  change (m.entries.kerase addr).length + 1 = _
  rw [herase, hentries]
  simp only [List.length_append, List.length_cons]
  omega

theorem length_moveRow
    (hnext : nextRow cfg.hashedKeyFor cursor c.mappingsV0 = some ⟨addr, entries⟩) :
    (c.moveRow addr entries).mappingsV0.entries.length + 1 = c.mappingsV0.entries.length := by
  obtain ⟨hrow, -, -⟩ := nextRow_eq_some hnext
  exact length_erase (AList.lookup_isSome.mp (Option.isSome_of_eq_some hrow))

/-- The bound on the turns of the loop is never what ends it. -/
theorem drain_fuel (hfuel : c.mappingsV0.entries.length < fuel) (meter : WeightMeter) :
    Chain.drain cfg (fuel + 1) cursor meter c = Chain.drain cfg fuel cursor meter c := by
  induction fuel generalizing cursor meter c with
  | zero => cases hfuel
  | succ fuel ih =>
    rw [Chain.drain, Chain.drain]
    split
    · rfl
    · split
      · rename_i addr entries hnext
        have hlength := length_moveRow hnext
        exact ih (by omega) _
      · rfl

/-! ## Any scheduling -/

variable {Owner : Type} {rt : Runtime Owner}

/-- While the layout is old, the pallet does nothing but remember that it was called. -/
theorem State.step_of_old {s : State} (h : s.storageVersion < currentStorageVersion)
    (a : BlockAction) : s.step rt a =
      { s with inherentExecutedThisBlock := (s.step rt a).inherentExecutedThisBlock } := by
  cases a with
  | onFinalize => rfl
  | processTokens call =>
    simp only [State.step, State.dispatch]
    split
    · rename_i s' hcall
      rcases processTokens_inv hcall with ⟨-, rfl⟩ | ⟨hversion, -⟩
      · rfl
      · exact absurd h hversion
    · rfl

theorem DrainInv.old (h : DrainInv cfg c₀ cursor c) :
    c.pallet.storageVersion < currentStorageVersion := by
  rw [h.version]
  exact Nat.zero_lt_one

theorem DrainInv.pallet (h : DrainInv cfg c₀ cursor c) (a : BlockAction) :
    DrainInv cfg c₀ cursor { c with pallet := c.pallet.step rt a } := by
  rw [State.step_of_old h.old a]
  exact ⟨h.version, h.owners, h.position, h.rows, h.mapping⟩

/-- As long as the migration is not completed, the rows up to its cursor have been moved. -/
def MigrationInv (cfg : MigrationConfig) (c₀ c : Chain) : Prop :=
  ∀ cursor, c.progress = .running cursor → DrainInv cfg c₀ cursor c

theorem DrainInv.congr_progress (h : DrainInv cfg c₀ cursor c) (p : Progress) :
    DrainInv cfg c₀ cursor { c with progress := p } :=
  ⟨h.version, h.owners, h.position, h.rows, h.mapping⟩

theorem MigrationInv.step (h : MigrationInv cfg c₀ c) (a : Chain.Action) :
    MigrationInv cfg c₀ (c.step rt cfg a) := by
  cases a with
  | pallet a => exact fun cursor hcursor => (h cursor hcursor).pallet a
  | migrationStep meter =>
    simp only [Chain.step]
    split
    · exact h
    · rename_i cursor hcursor
      split
      · exact h
      · exact fun _ hc => nomatch hc
      · rename_i last c' hstep
        intro cursor' hc
        cases hc
        have hinv := ((h cursor hcursor).migrateV0ToV1 hstep).2 (Option.some_ne_none _)
        exact hinv.congr_progress _

theorem MigrationInv.run (h : MigrationInv cfg c₀ c) (actions : List Chain.Action) :
    MigrationInv cfg c₀ (c.run rt cfg actions) := by
  induction actions generalizing c with
  | nil => exact h
  | cons a actions ih => exact ih (h.step a)

theorem MigrationInv.init (hstart : c₀.progress = .running none)
    (hversion : c₀.pallet.storageVersion = 0) (hmapping : c₀.pallet.mapping = ∅) :
    MigrationInv cfg c₀ c₀ := by
  intro cursor hcursor
  cases hstart.symm.trans hcursor
  refine ⟨hversion, rfl, rfl, fun a => (if_neg id).symm, fun a u => ?_⟩
  rw [hmapping]
  exact (if_neg id).symm

theorem MigrationInv.migrated (h : MigrationInv cfg c₀ c) (hrunning : c.progress ≠ .completed)
    (hdone : (c.step rt cfg a).progress = .completed) : Migrated c₀ (c.step rt cfg a) := by
  cases a with
  | pallet a => exact absurd hdone hrunning
  | migrationStep meter =>
    simp only [Chain.step] at hdone ⊢
    split at hdone
    · exact absurd ‹_› hrunning
    · rename_i cursor hcursor
      split at hdone
      · exact absurd hdone hrunning
      · rename_i c' hstep
        obtain ⟨hv, ho, hp, hr, hm⟩ := ((h cursor hcursor).migrateV0ToV1 hstep).1 rfl
        exact ⟨hv, ho, hp, hr, hm⟩
      · cases hdone

/-- A step of the migration that its meter can pay for. -/
def Chain.Action.paid (cfg : MigrationConfig) : Chain.Action → Bool
  | .migrationStep meter => !meter.remaining.anyLt cfg.required
  | .pallet _ => false

theorem length_drain_le (fuel : Nat) (meter : WeightMeter) :
    (Chain.drain cfg fuel cursor meter c).2.mappingsV0.entries.length ≤ c.mappingsV0.entries.length := by
  induction fuel generalizing cursor meter c with
  | zero => exact le_rfl
  | succ fuel ih =>
    rw [Chain.drain]
    split
    · exact le_rfl
    · split
      · rename_i addr entries hnext
        have hlength := length_moveRow hnext
        exact (ih _).trans (by omega)
      · exact le_rfl

/-- A step that is not refused moves a row, or finds that there is none left. -/
theorem migrateV0ToV1_progress (hstep : Chain.migrateV0ToV1 cfg cursor meter c = .ok (cursor', c')) :
    c'.mappingsV0.entries.length ≤ c.mappingsV0.entries.length ∧
      (cursor' ≠ none → c'.mappingsV0.entries.length < c.mappingsV0.entries.length) := by
  obtain ⟨hmeter, hresult⟩ := migrateV0ToV1_inv hstep
  obtain ⟨meter', hconsume⟩ := Option.ne_none_iff_exists'.mp hmeter
  rw [Chain.drain, hconsume] at hresult
  cases hnext : nextRow cfg.hashedKeyFor cursor c.mappingsV0 with
  | none =>
    simp only [hnext] at hresult
    cases hresult
    exact ⟨le_rfl, fun hne => absurd rfl hne⟩
  | some row =>
    simp only [hnext] at hresult
    have hlength := length_moveRow hnext
    obtain rfl : _ = c' := congrArg Prod.snd hresult
    refine (fun hlt => ⟨le_of_lt hlt, fun _ => hlt⟩) ?_
    exact lt_of_le_of_lt (length_drain_le _ _) (Nat.lt_of_succ_le hlength.le)

/-- For every scheduling of steps, calls and ends of blocks: the step that completes the migration
leaves exactly the entries of the first layout, the last one of each UTXO, and until then no call
touches the mapping, the owners or the position. -/
theorem migration_lossless (rt : Runtime Owner) (cfg : MigrationConfig) (c₀ : Chain)
    (hstart : c₀.progress = .running none) (hversion : c₀.pallet.storageVersion = 0)
    (hmapping : c₀.pallet.mapping = ∅) (actions : List Chain.Action)
    (hrunning : (c₀.run rt cfg actions).progress ≠ .completed) (a : Chain.Action) :
    let c := c₀.run rt cfg actions
    ((c.step rt cfg a).progress = .completed → Migrated c₀ (c.step rt cfg a)) ∧
    (∀ call, a = .pallet (.processTokens call) →
      (c.step rt cfg a).pallet.mapping = c.pallet.mapping ∧
      (c.step rt cfg a).pallet.utxoOwners = c.pallet.utxoOwners ∧
      (c.step rt cfg a).pallet.nextCardanoPosition = c.pallet.nextCardanoPosition) := by
  intro c
  have hinv : MigrationInv cfg c₀ c := (MigrationInv.init hstart hversion hmapping).run actions
  refine ⟨fun hdone => hinv.migrated hrunning hdone, ?_⟩
  rintro call rfl
  cases hprogress : c.progress with
  | completed => exact absurd hprogress hrunning
  | running cursor =>
    simp only [Chain.step]
    rw [State.step_of_old (hinv cursor hprogress).old]
    exact ⟨rfl, rfl, rfl⟩

/-- No action adds an old row, and a step that is paid for takes one away or ends. -/
theorem Chain.step_progress (rt : Runtime Owner) (cfg : MigrationConfig) (c : Chain) (a : Chain.Action) :
    (c.step rt cfg a).mappingsV0.entries.length ≤ c.mappingsV0.entries.length ∧
    (c.progress = .completed → (c.step rt cfg a).progress = .completed) ∧
    (a.paid cfg = true → (c.step rt cfg a).progress = .completed ∨
      (c.step rt cfg a).mappingsV0.entries.length < c.mappingsV0.entries.length) := by
  cases a with
  | pallet a => exact ⟨le_rfl, id, nofun⟩
  | migrationStep meter =>
    cases hprogress : c.progress with
    | completed =>
      have hsame : c.step rt cfg (.migrationStep meter) = c := by simp only [Chain.step, hprogress]
      rw [hsame]
      exact ⟨le_rfl, fun _ => hprogress, fun _ => .inl hprogress⟩
    | running cursor =>
      cases hstep : Chain.migrateV0ToV1 cfg cursor meter c with
      | error e =>
        have hsame : c.step rt cfg (.migrationStep meter) = c := by
          simp only [Chain.step, hprogress, hstep]
        rw [hsame]
        refine ⟨le_rfl, nofun, fun hpaid => ?_⟩
        rw [Chain.migrateV0ToV1, if_neg (by simpa [Chain.Action.paid] using hpaid)] at hstep
        cases hstep
      | ok r =>
        obtain ⟨cursor', c'⟩ := r
        obtain ⟨hle, hlt⟩ := migrateV0ToV1_progress hstep
        cases cursor' with
        | none =>
          simp only [Chain.step, hprogress, hstep]
          exact ⟨hle, nofun, fun _ => .inl trivial⟩
        | some next =>
          simp only [Chain.step, hprogress, hstep]
          exact ⟨hle, nofun, fun _ => .inr (hlt (Option.some_ne_none next))⟩

/-- The migration ends: whatever calls the steps are interleaved with, and however little weight
some of them are given, once more steps were paid for than there were old rows it has completed. -/
theorem migration_completes (rt : Runtime Owner) (cfg : MigrationConfig) (c : Chain)
    (actions : List Chain.Action)
    (henough : c.mappingsV0.entries.length < actions.countP (Chain.Action.paid cfg)) :
    (c.run rt cfg actions).progress = .completed := by
  suffices hrun : ∀ c : Chain, c.progress = .completed ∨
      c.mappingsV0.entries.length < actions.countP (Chain.Action.paid cfg) →
      (c.run rt cfg actions).progress = .completed from hrun c (.inr henough)
  clear henough c
  -- the measure of the run is the rows still to move, against the paid steps still to come
  induction actions with
  | nil => exact fun c h => h.elim id nofun
  | cons a actions ih =>
    intro c h
    obtain ⟨hle, hstays, hpays⟩ := Chain.step_progress rt cfg c a
    refine ih (c.step rt cfg a) ?_
    rcases h with hdone | hrows
    · exact .inl (hstays hdone)
    · cases hpaid : a.paid cfg with
      | false =>
        rw [List.countP_cons_of_neg (by simp [hpaid])] at hrows
        exact .inr (by omega)
      | true =>
        rw [List.countP_cons_of_pos hpaid] at hrows
        exact (hpays hpaid).imp_right fun hlt => by omega

end

/-- Two entries for one UTXO and one for another, in the vector of one address. -/
def sampleMappingsV0 : MappingsV0 :=
  AList.insert sampleAddress
    [⟨sampleAddress, sampleKey 1, ⟨.fill 32 1, 0⟩⟩, ⟨sampleAddress, sampleKey 2, ⟨.fill 32 2, 0⟩⟩,
      ⟨sampleAddress, sampleKey 3, ⟨.fill 32 1, 0⟩⟩] ∅

def sampleChain : Chain where
  pallet := { sampleState with storageVersion := 0 }
  mappingsV0 := sampleMappingsV0
  progress := .running none

def sampleMigrationConfig : MigrationConfig := ⟨fun _ => .fill 16 0, ⟨1, 1⟩⟩

/-- A meter that pays for one row. -/
def sampleMeter : WeightMeter := ⟨⟨0, 0⟩, ⟨102, 0⟩, rfl⟩

def sampleRegistrationCall : Call where
  exec _ := .ok (.fill 32 0)
  origin := .none
  utxos := [sampleRegistration 1 4 4]
  nextCardanoPosition := .minForBlock 2

theorem migration_lossless_one_row_per_step :
    let c := sampleChain.run silentRuntime sampleMigrationConfig
      [.migrationStep sampleMeter, .pallet (.processTokens sampleRegistrationCall)]
    Migrated sampleChain
      (c.step silentRuntime sampleMigrationConfig (.migrationStep sampleMeter)) ∧
    migratedEntry sampleMappingsV0 sampleAddress ⟨.fill 32 1, 0⟩ = some (sampleKey 3) :=
  ⟨(migration_lossless silentRuntime sampleMigrationConfig sampleChain rfl rfl rfl _
    (by decide +kernel) (.migrationStep sampleMeter)).1 (by decide +kernel), by decide +kernel⟩

theorem migration_completes_one_row :
    sampleChain.mappingsV0.entries.length = 1 ∧
    (sampleChain.run silentRuntime sampleMigrationConfig
      [.migrationStep sampleMeter, .pallet (.processTokens sampleRegistrationCall),
        .migrationStep sampleMeter]).progress = .completed :=
  ⟨by decide, migration_completes silentRuntime sampleMigrationConfig sampleChain _ (by decide)⟩

end MidnightNode.Pallet
