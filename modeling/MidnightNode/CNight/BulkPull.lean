import MidnightNode.CNight.DbSync

/-!
# `bulk_pull`

One pull runs the four observation queries over the same range and with the same row limit, and
sorts what they return together. Above the code, an `EventStream` is what one query could return
if nothing limited it: its rows in order, each with the observed UTXO it decodes to, if any. The
ordered events of the database are the events of the four streams in the order of `sort`, and a
pull splits the events of its range in two: those it fetched, and those a row limit cut off.
-/

namespace MidnightNode.CNight

open SortedSlice

/-! ## The pull -/

structure QueryIds where
  network : UInt8
  authTokenIdent : Option Int
  cnightIdent : Option Int

section Pull
variable (lib : CardanoLib) (db : DbSync) (cfg : CNightAddresses)

/-- The part of a pull that depends on its configuration alone. -/
def resolveIds : Except BulkPullError QueryIds := do
  let address ← match lib.fromBech32 cfg.mappingValidatorAddress with
    | .ok address => pure address
    | .error e => throw (.invalidMappingValidatorAddress e)
  let network ← match address.networkId with
    | .ok network => pure network
    | .error e => throw (.networkId e)
  let some payment := address.enterprisePayment? | throw .notEnterpriseAddress
  let some policyId := payment.toScriptHash? | throw .missingScriptHash
  pure { network
         authTokenIdent := db.multiAssetId policyId.data cfg.authTokenAssetName.toUTF8.data.toList
         cnightIdent :=
           db.multiAssetId cfg.cnightPolicyId.data cfg.cnightAssetName.toUTF8.data.toList }

def bulkPull (start end_ : CardanoPosition) (limit : Nat) :
    Except BulkPullError (List ObservedUtxo) := do
  let ids ← resolveIds lib db cfg
  unless db.hasBlock end_.blockNumber do throw (.missingHighBounds end_.blockNumber)
  let paged : PagedQuery := { start, end_, limit, offset := 0 }
  let registrations ← match ids.authTokenIdent with
    | some ident => getRegistrationUtxos lib db ids.network ident cfg.mappingValidatorAddress paged
    | none => pure []
  let deregistrations ←
    getDeregistrationUtxos lib db ids.network cfg.mappingValidatorAddress paged
  let (creates, spends) ← match ids.cnightIdent with
    | some ident => do
      let creates ← getAssetCreateUtxos lib db ids.network ident paged
      let spends ← getAssetSpendUtxos lib db ids.network ident paged
      pure (creates, spends)
    | none => pure ([], [])
  pure (sortUtxos (registrations ++ deregistrations ++ creates ++ spends))

end Pull

/-! ## Event streams -/

/-- The rows one query reads, with the observed UTXO of each row that decodes. -/
structure EventStream where
  rows : List (CardanoPosition × Option ObservedUtxo)
  sorted : SortedBy (·.1.key) rows
  position_eq : ∀ r ∈ rows, ∀ u, r.2 = some u → u.position = r.1
  txIndex_lt : ∀ r ∈ rows, r.1.txIndexInBlock < i32Max

namespace EventStream

def ofRows (toPos : ρ → RowPosition) (decode : ρ → Option ObservedUtxo) (rows : List ρ)
    (sorted : SortedBy (fun r => (toPos r).key) rows)
    (position_eq : ∀ r u, decode r = some u → u.position = (toPos r).toPosition) :
    EventStream where
  rows := rows.map fun r => ((toPos r).toPosition, decode r)
  sorted := List.Pairwise.map _ (fun _ _ h => h) sorted
  position_eq := by
    intro r hr u hu
    obtain ⟨row, _, rfl⟩ := List.mem_map.mp hr
    exact position_eq row u hu
  txIndex_lt := by
    intro r hr
    obtain ⟨row, _, rfl⟩ := List.mem_map.mp hr
    exact (toPos row).txIndexInBlock_lt

def empty : EventStream := ⟨[], .nil, by simp, by simp⟩

variable (s : EventStream)

def events : List ObservedUtxo := s.rows.filterMap Prod.snd

/-- What a query with a row limit returns. -/
def page (a b : ℕ ×ₗ ℕ) (limit : Nat) : List ObservedUtxo :=
  ((slice (·.1.key) a b s.rows).take limit).filterMap Prod.snd

/-- What the row limit cuts off. -/
def cut (a b : ℕ ×ₗ ℕ) (limit : Nat) : List ObservedUtxo :=
  ((slice (·.1.key) a b s.rows).drop limit).filterMap Prod.snd

variable {s}

theorem filterMap_slice (a b : ℕ ×ₗ ℕ) :
    (slice (·.1.key) a b s.rows).filterMap Prod.snd = slice ObservedUtxo.key a b s.events := by
  unfold events
  have hpos := s.position_eq
  generalize s.rows = rows at hpos
  induction rows with
  | nil => rfl
  | cons r rows ih =>
    have ih := ih fun r' hr' => hpos r' (List.mem_cons_of_mem _ hr')
    obtain ⟨p, o⟩ := r
    cases o with
    | none =>
      rw [List.filterMap_cons_none rfl, ← ih, slice, List.filter_cons]
      split
      · rw [List.filterMap_cons_none rfl, slice]
      · rw [slice]
    | some u =>
      have hu : u.key = p.key := congrArg CardanoPosition.key (hpos _ List.mem_cons_self u rfl)
      have hcons : ∀ l, List.filterMap Prod.snd ((p, some u) :: l) = u :: l.filterMap Prod.snd :=
        fun _ => rfl
      rw [hcons, slice, slice, List.filter_cons, List.filter_cons, hu]
      split
      · rw [hcons]
        exact congrArg (u :: ·) ih
      · exact ih

theorem page_append_cut (a b : ℕ ×ₗ ℕ) (limit : Nat) :
    s.page a b limit ++ s.cut a b limit = slice ObservedUtxo.key a b s.events := by
  rw [page, cut, ← List.filterMap_append, List.take_append_drop, filterMap_slice]

theorem page_sublist (a b : ℕ ×ₗ ℕ) (limit : Nat) :
    (s.page a b limit).Sublist (slice ObservedUtxo.key a b s.events) :=
  page_append_cut (s := s) a b limit ▸ List.sublist_append_left ..

theorem length_page_le (a b : ℕ ×ₗ ℕ) (limit : Nat) : (s.page a b limit).length ≤ limit :=
  (List.length_filterMap_le ..).trans (List.length_take_le ..)

theorem txIndex_lt_of_mem_events (hu : u ∈ s.events) : u.position.txIndexInBlock < i32Max := by
  obtain ⟨r, hr, hru⟩ := List.mem_filterMap.mp hu
  rw [s.position_eq r hr u hru]
  exact s.txIndex_lt r hr

theorem page_ofRows {rows : List ρ} {hs hp} (start end_ : CardanoPosition) (limit : Nat) :
    (ofRows toPos decode rows hs hp).page start.key end_.key limit =
      ((slice (fun r => (toPos r).key) start.key end_.key rows).take limit).filterMap decode := by
  have hmap : slice (·.1.key) start.key end_.key
      (rows.map fun r => ((toPos r).toPosition, decode r)) =
      (slice (fun r => (toPos r).key) start.key end_.key rows).map
        fun r => ((toPos r).toPosition, decode r) := by
    rw [slice, List.filter_map]
    rfl
  rw [page, ofRows, hmap, ← List.map_take, List.filterMap_map]
  rfl

end EventStream

/-! ## The four streams of a pull -/

section Streams
variable (lib : CardanoLib) (db : DbSync) (cfg : CNightAddresses) (ids : QueryIds)

def registrationStream (ident : Int) : EventStream :=
  .ofRows (·.toRowPosition) (·.toUtxo lib ids.network)
    (db.registrations cfg.mappingValidatorAddress ident) (db.registrations_sorted ..) <| by
    intro r u h
    obtain ⟨_, _, rfl⟩ := Option.map_eq_some_iff.mp h
    rfl

def deregistrationStream : EventStream :=
  .ofRows (·.toRowPosition) (·.toUtxo lib ids.network)
    (db.deregistrations cfg.mappingValidatorAddress) (db.deregistrations_sorted ..) <| by
    intro r u h
    obtain ⟨_, _, rfl⟩ := Option.map_eq_some_iff.mp h
    rfl

def assetCreateStream (ident : Int) : EventStream :=
  .ofRows (·.toRowPosition) (·.toUtxo lib ids.network)
    (db.assetCreates ident) (db.assetCreates_sorted ..) <| by
    intro r u h
    obtain ⟨_, _, rfl⟩ := Option.map_eq_some_iff.mp h
    rfl

def assetSpendStream (ident : Int) : EventStream :=
  .ofRows (·.toRowPosition) (·.toUtxo lib ids.network)
    (db.assetSpends ident) (db.assetSpends_sorted ..) <| by
    intro r u h
    obtain ⟨_, _, rfl⟩ := Option.map_eq_some_iff.mp h
    rfl

/-- The streams of the queries of a pull, in the order in which it runs them. -/
def eventStreams : List EventStream :=
  [ids.authTokenIdent.elim .empty (registrationStream lib db cfg ids),
    deregistrationStream lib db cfg ids,
    ids.cnightIdent.elim .empty (assetCreateStream lib db ids),
    ids.cnightIdent.elim .empty (assetSpendStream lib db ids)]

end Streams

/-! ## What a pull fetches -/

/-- The events of some streams, in the order validators process them. -/
def orderedEvents (ss : List EventStream) : List ObservedUtxo := sortUtxos (ss.flatMap (·.events))

/-- The events a pull of the range `[a, b)` returns. -/
def fetched (ss : List EventStream) (a b : ℕ ×ₗ ℕ) (limit : Nat) : List ObservedUtxo :=
  sortUtxos (ss.flatMap (·.page a b limit))

/-- The events of the range `[a, b)` that the row limit hides from a pull. -/
def cutOff (ss : List EventStream) (a b : ℕ ×ₗ ℕ) (limit : Nat) : List ObservedUtxo :=
  ss.flatMap (·.cut a b limit)

section Fetched
variable {ss : List EventStream} {a b : ℕ ×ₗ ℕ} {limit : Nat}

theorem orderedEvents_sorted : SortedBy ObservedUtxo.key (orderedEvents ss) := sortUtxos_sorted _

theorem fetched_sorted : SortedBy ObservedUtxo.key (fetched ss a b limit) := sortUtxos_sorted _

theorem txIndex_lt_of_mem_orderedEvents (hu : u ∈ orderedEvents ss) :
    u.position.txIndexInBlock < i32Max := by
  obtain ⟨s, _, hs⟩ := List.mem_flatMap.mp ((sortUtxos_perm _).mem_iff.mp hu)
  exact s.txIndex_lt_of_mem_events hs

/-- Sorting is stable, so it commutes with choosing events. -/
theorem filter_orderedEvents (p : ObservedUtxo → Bool) :
    (orderedEvents ss).filter p = sortUtxos (ss.flatMap fun s => s.events.filter p) := by
  rw [orderedEvents, sortUtxos, filter_insertionSort, List.filter_flatMap, sortUtxos]

theorem slice_orderedEvents :
    slice ObservedUtxo.key a b (orderedEvents ss) =
      sortUtxos (ss.flatMap fun s => slice ObservedUtxo.key a b s.events) :=
  filter_orderedEvents _

theorem fetched_append_cutOff_perm (ss : List EventStream) (a b : ℕ ×ₗ ℕ) (limit : Nat) :
    (fetched ss a b limit ++ cutOff ss a b limit).Perm
      (slice ObservedUtxo.key a b (orderedEvents ss)) := by
  rw [slice_orderedEvents]
  refine ((sortUtxos_perm _).append_right _).trans (.trans ?_ (sortUtxos_perm _).symm)
  unfold cutOff
  induction ss with
  | nil => exact .nil
  | cons s ss ih =>
    simp only [List.flatMap_cons, ← s.page_append_cut a b limit]
    -- the pages of the other streams move behind what is cut off from `s`
    have hswap : (ss.flatMap (·.page a b limit) ++ s.cut a b limit).Perm
        (s.cut a b limit ++ ss.flatMap (·.page a b limit)) := List.perm_append_comm
    have hrest := hswap.append_right (ss.flatMap (·.cut a b limit))
    simp only [List.append_assoc] at hrest ⊢
    exact (hrest.trans (ih.append_left _)).append_left _

theorem fetched_sublist (ss : List EventStream) (a b : ℕ ×ₗ ℕ) (limit : Nat) :
    (fetched ss a b limit).Sublist (slice ObservedUtxo.key a b (orderedEvents ss)) := by
  rw [slice_orderedEvents]
  refine insertionSort_sublist ?_
  induction ss with
  | nil => exact .slnil
  | cons s ss ih =>
    rw [List.flatMap_cons, List.flatMap_cons]
    exact (s.page_sublist a b limit).append ih

theorem fetched_eq_slice_of_cutOff (h : cutOff ss a b limit = []) :
    fetched ss a b limit = slice ObservedUtxo.key a b (orderedEvents ss) := by
  have hperm := fetched_append_cutOff_perm ss a b limit
  rw [h, List.append_nil] at hperm
  exact (fetched_sublist ss a b limit).eq_of_length hperm.length_eq

theorem length_fetched_le : (fetched ss a b limit).length ≤ ss.length * limit := by
  rw [fetched, (sortUtxos_perm _).length_eq]
  induction ss with
  | nil => simp
  | cons s ss ih =>
    have hpage := s.length_page_le a b limit
    rw [List.flatMap_cons, List.length_append, List.length_cons, Nat.succ_mul]
    omega

end Fetched

/-! ## The pull fetches from its streams -/

section Spec
variable {lib : CardanoLib} {db : DbSync} {cfg : CNightAddresses} {ids : QueryIds}

theorem EventStream.query_eq {rows : List ρ} {hs hp} (start end_ : CardanoPosition) (limit : Nat) :
    (do let rs ← PagedQuery.page ⟨start, end_, limit, 0⟩ (fun r => (toPos r).key) rows
        pure (rs.filterMap decode) : Except BulkPullError (List ObservedUtxo)) =
      if limit < i32Max then .ok ((ofRows toPos decode rows hs hp).page start.key end_.key limit)
      else .error .limitAssertion := by
  have hoffset : 0 < i32Max := by decide
  simp only [PagedQuery.page, hoffset, and_true, List.drop_zero, page_ofRows]
  split <;> rfl

/-- **What a pull returns**: it fails on an unusable configuration, on an end block the database
does not have and on a row limit the queries refuse, and otherwise fetches from its streams. -/
theorem bulkPull_eq (hids : resolveIds lib db cfg = .ok ids) (start end_ : CardanoPosition)
    (limit : Nat) :
    bulkPull lib db cfg start end_ limit =
      if db.hasBlock end_.blockNumber then
        if limit < i32Max then
          .ok (fetched (eventStreams lib db cfg ids) start.key end_.key limit)
        else .error .limitAssertion
      else .error (.missingHighBounds end_.blockNumber) := by
  have hreg : ∀ ident, getRegistrationUtxos lib db ids.network ident cfg.mappingValidatorAddress
      ⟨start, end_, limit, 0⟩ = if limit < i32Max then
        .ok ((registrationStream lib db cfg ids ident).page start.key end_.key limit)
      else .error .limitAssertion := fun ident => EventStream.query_eq start end_ limit
  have hdereg : getDeregistrationUtxos lib db ids.network cfg.mappingValidatorAddress
      ⟨start, end_, limit, 0⟩ = if limit < i32Max then
        .ok ((deregistrationStream lib db cfg ids).page start.key end_.key limit)
      else .error .limitAssertion := EventStream.query_eq start end_ limit
  have hcreate : ∀ ident, getAssetCreateUtxos lib db ids.network ident ⟨start, end_, limit, 0⟩ =
      if limit < i32Max then
        .ok ((assetCreateStream lib db ids ident).page start.key end_.key limit)
      else .error .limitAssertion := fun ident => EventStream.query_eq start end_ limit
  have hspend : ∀ ident, getAssetSpendUtxos lib db ids.network ident ⟨start, end_, limit, 0⟩ =
      if limit < i32Max then
        .ok ((assetSpendStream lib db ids ident).page start.key end_.key limit)
      else .error .limitAssertion := fun ident => EventStream.query_eq start end_ limit
  have hempty : EventStream.empty.page start.key end_.key limit = [] := by
    simp [EventStream.page, EventStream.empty, slice]
  obtain ⟨network, authTokenIdent, cnightIdent⟩ := ids
  unfold bulkPull
  rw [hids]
  by_cases hblock : db.hasBlock end_.blockNumber
  · by_cases hlimit : limit < i32Max
    · simp only [hlimit, if_true] at hreg hdereg hcreate hspend
      cases authTokenIdent <;> cases cnightIdent <;>
        simp [hreg, hdereg, hcreate, hspend, hempty, hblock, hlimit, fetched, eventStreams, bind,
          Except.bind, pure, Except.pure]
    · simp only [hlimit, if_false] at hreg hdereg
      cases authTokenIdent <;>
        simp [hreg, hdereg, hblock, hlimit, bind, Except.bind, pure, Except.pure]
  · simp [hblock, bind, Except.bind, throw, throwThe, MonadExceptOf.throw]

theorem bulkPull_of_error (he : resolveIds lib db cfg = .error e) (start end_ : CardanoPosition)
    (limit : Nat) : bulkPull lib db cfg start end_ limit = .error e := by
  unfold bulkPull
  rw [he]
  rfl

end Spec

end MidnightNode.CNight
