import MidnightNode.CNight.LiveSource
import MidnightNode.Lib.Fallible

/-!
# The order of observed UTXOs

Validators have to agree on the list a pull returns. Neither the database nor the order of the four queries
fixes it: the rows of a transaction come in any order, and `bulk_pull` sorts what it collects. The
comparison looks at `sortKey`, so rows with different keys have one sorted list.
-/

namespace MidnightNode.CNight

/-! ## What the comparison looks at -/

namespace ObservedUtxoHeader

/-- Block, transaction, spends after creates, and the UTXO. -/
def sortKey (h : ObservedUtxoHeader) : Nat × Nat × Bool × McTxHash × UInt16 :=
  (h.txPosition.blockNumber, h.txPosition.txIndexInBlock, h.isCreate, h.utxoTxHash, h.utxoIndex)

theorem lexCmp_eq_iff : lexCmp a b = .eq ↔ a.sortKey = b.sortKey := by
  simp [lexCmp, compareLex, compareOn, Ordering.then_eq_eq, sortKey]

end ObservedUtxoHeader

namespace ObservedUtxo

variable {u v : ObservedUtxo}

theorem le_refl (u : ObservedUtxo) : le u u := (Std.Total.total (r := le) u u).elim id id

theorem sortKey_eq_of_le_of_le (huv : le u v) (hvu : le v u) :
    u.header.sortKey = v.header.sortKey := by
  unfold le at huv hvu
  rw [cmp_eq] at huv hvu
  exact ObservedUtxoHeader.lexCmp_eq_iff.mp (Std.OrientedCmp.isLE_antisymm huv hvu)

theorem cmp_eq_lt_of_isCreate (hkey : u.key = v.key) (hu : u.header.isCreate = true)
    (hv : v.header.isCreate = false) : u.cmp v = .lt := by
  have hposition : u.header.txPosition.blockNumber = v.header.txPosition.blockNumber ∧
      u.header.txPosition.txIndexInBlock = v.header.txPosition.txIndexInBlock :=
    Prod.mk.inj (toLex.injective hkey)
  have hbool : compare false true = .lt := rfl
  rw [cmp_eq]
  simp [ObservedUtxoHeader.lexCmp, compareLex, compareOn, hposition.1, hposition.2, hu, hv, hbool]

end ObservedUtxo

theorem sortUtxos_eq_of_perm (hdistinct : (l.map (·.header.sortKey)).Nodup) (hperm : l.Perm l') :
    sortUtxos l = sortUtxos l' := by
  refine SortedSlice.insertionSort_eq_of_perm (fun u hu v hv huv hvu => ?_) hperm
  exact List.inj_on_of_nodup_map hdistinct hu hv (ObservedUtxo.sortKey_eq_of_le_of_le huv hvu)

/-! ## The rows of a pull -/

structure QueryRows where
  registrations : List RegistrationRow
  deregistrations : List DeregistrationRow
  assetCreates : List AssetCreateRow
  assetSpends : List AssetSpendRow

/-- The queries of a pull; those for an asset the database does not know are not run. -/
def queryRows (db : DbSync) (cfg : CNightAddresses) (ids : QueryIds) (paged : PagedQuery) :
    Except BulkPullError QueryRows := do
  let registrations ← match ids.authTokenIdent with
    | some ident => getRegistrations db cfg.mappingValidatorAddress ident paged
    | none => pure []
  let deregistrations ← getDeregistrations db cfg.mappingValidatorAddress paged
  let (assetCreates, assetSpends) ← match ids.cnightIdent with
    | some ident => do
      let creates ← getAssetCreates db ident paged
      let spends ← getAssetSpends db ident paged
      pure (creates, spends)
    | none => pure ([], [])
  pure { registrations, deregistrations, assetCreates, assetSpends }

namespace QueryRows

/-- The UTXOs of the rows that decode. -/
def utxos (lib : CardanoLib) (network : UInt8) (rows : QueryRows) : List ObservedUtxo :=
  rows.registrations.filterMap (·.toUtxo lib network) ++
    rows.deregistrations.filterMap (·.toUtxo lib network) ++
    rows.assetCreates.filterMap (·.toUtxo lib network) ++
    rows.assetSpends.filterMap (·.toUtxo lib network)

structure Reordered (rows rows' : QueryRows) : Prop where
  registrations : rows.registrations.Perm rows'.registrations
  deregistrations : rows.deregistrations.Perm rows'.deregistrations
  assetCreates : rows.assetCreates.Perm rows'.assetCreates
  assetSpends : rows.assetSpends.Perm rows'.assetSpends

theorem Reordered.utxos_perm {rows : QueryRows} (h : rows.Reordered rows') (lib : CardanoLib)
    (network : UInt8) : (rows.utxos lib network).Perm (rows'.utxos lib network) :=
  (((h.registrations.filterMap _).append (h.deregistrations.filterMap _)).append
    (h.assetCreates.filterMap _)).append (h.assetSpends.filterMap _)

end QueryRows

section

variable {lib : CardanoLib} {db : DbSync} {cfg : CNightAddresses} {ids : QueryIds}
  {start end_ : CardanoPosition} {limit : Nat}

theorem bulkPull_eq_map (hids : resolveIds lib db cfg = .ok ids) :
    bulkPull lib db cfg start end_ limit =
      if db.hasBlock end_.blockNumber then
        (queryRows db cfg ids { start, end_, limit, offset := 0 }).map fun rows =>
          sortUtxos (rows.utxos lib ids.network)
      else .error (.missingHighBounds end_.blockNumber) := by
  have hoffset : 0 < i32Max := by decide
  obtain ⟨network, authTokenIdent, cnightIdent⟩ := ids
  unfold bulkPull queryRows
  rw [hids]
  by_cases hblock : db.hasBlock end_.blockNumber
  · by_cases hlimit : limit < i32Max
    all_goals
      cases authTokenIdent <;> cases cnightIdent <;>
        simp [hblock, hlimit, hoffset, getRegistrationUtxos, getDeregistrationUtxos, getAssetCreateUtxos,
          getAssetSpendUtxos, getRegistrations, getDeregistrations, getAssetCreates, getAssetSpends,
          PagedQuery.page, QueryRows.utxos, bind, Except.bind, pure, Except.pure, Except.map]
  · simp [hblock, bind, Except.bind, throw, throwThe, MonadExceptOf.throw]

theorem bulkPull_ok (h : bulkPull lib db cfg start end_ limit = .ok l) :
    ∃ ids rows, resolveIds lib db cfg = .ok ids ∧
      queryRows db cfg ids { start, end_, limit, offset := 0 } = .ok rows ∧
      l = sortUtxos (rows.utxos lib ids.network) := by
  cases hids : resolveIds lib db cfg with
  | error e =>
    rw [bulkPull_of_error hids] at h
    cases h
  | ok ids =>
    rw [bulkPull_eq_map hids] at h
    obtain ⟨-, h⟩ := Fallible.of_condition h
    cases hrows : queryRows db cfg ids { start, end_, limit, offset := 0 } with
    | error e =>
      rw [hrows] at h
      cases h
    | ok rows =>
      rw [hrows] at h
      cases h
      exact ⟨ids, rows, rfl, hrows, rfl⟩

end

/-- **The order of observed UTXOs is a total preorder** that is always defined and puts the creates of a
transaction before its spends, and **a pull returns one list** for all orders of the rows its queries
return, if their UTXOs differ in what is compared. -/
theorem consensus_order_independent :
    (∀ u v : ObservedUtxo, u.header.partialCmp v.header = some (u.cmp v)) ∧
    (∀ u, ObservedUtxo.le u u) ∧
    (∀ u v w, ObservedUtxo.le u v → ObservedUtxo.le v w → ObservedUtxo.le u w) ∧
    (∀ u v, ObservedUtxo.le u v ∨ ObservedUtxo.le v u) ∧
    (∀ u v : ObservedUtxo, u.key = v.key → u.header.isCreate = true → v.header.isCreate = false →
      u.cmp v = .lt) ∧
    ∀ lib db cfg start end_ limit l, bulkPull lib db cfg start end_ limit = .ok l →
      ∃ ids rows, resolveIds lib db cfg = .ok ids ∧
        queryRows db cfg ids { start, end_, limit, offset := 0 } = .ok rows ∧
        l = sortUtxos (rows.utxos lib ids.network) ∧
        (((rows.utxos lib ids.network).map (·.header.sortKey)).Nodup →
          ∀ rows', rows.Reordered rows' → sortUtxos (rows'.utxos lib ids.network) = l) := by
  refine ⟨fun u v => (Option.some_get _).symm, ObservedUtxo.le_refl, fun u v w => IsTrans.trans u v w,
    Std.Total.total, fun u v => ObservedUtxo.cmp_eq_lt_of_isCreate, ?_⟩
  intro lib db cfg start end_ limit l h
  obtain ⟨ids, rows, hids, hrows, rfl⟩ := bulkPull_ok h
  refine ⟨ids, rows, hids, hrows, rfl, fun hdistinct rows' hreordered => ?_⟩
  exact (sortUtxos_eq_of_perm hdistinct (hreordered.utxos_perm lib ids.network)).symm

/-- The rows of two outputs of a transaction, the other way round. -/
theorem consensus_order_independent_two_outputs :
    ∃ l, bulkPull sampleLib (sampleDb 2 1) sampleConfig (.minForBlock 0) (.maxForBlock 0) 8 = .ok l ∧
      sortUtxos (QueryRows.utxos sampleLib 0 ⟨[], [], [sampleRow 0 1, sampleRow 0 0], []⟩) = l := by
  obtain ⟨-, -, -, -, -, hpull⟩ := consensus_order_independent
  obtain ⟨ids, rows, hids, hrows, -, hreorder⟩ := hpull sampleLib (sampleDb 2 1) sampleConfig
    (.minForBlock 0) (.maxForBlock 0) 8 _ rfl
  cases hids
  cases hrows
  exact ⟨_, rfl, hreorder (by decide +kernel) _ ⟨.refl _, .refl _, .swap .., .refl _⟩⟩

end MidnightNode.CNight
