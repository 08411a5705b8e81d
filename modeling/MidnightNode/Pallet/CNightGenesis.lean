import MidnightNode.Pallet.DustStream

/-!
# Cutting and filtering the observed events

Two ways to feed the observed events to `process_tokens`: block by block, in batches as the data source
cuts them, and all at once when a genesis is made (`node/genesis/creation/cnight_genesis.rs`), without the
cNIGHT of addresses that never register.

A batch has no effect of its own, since the loop carries everything in the mapping and in the owners
(`Processed.append`). The filter drops events without effect: a create needs a registration that was seen
before, and a spend needs the create of its UTXO (`FilterInv`).
-/

namespace MidnightNode.Pallet
open CNight Ledger

/-! ## The genesis of the observation -/

/-- The address that an observed registration or deregistration is for. -/
def registeredAddress? (u : ObservedUtxo) : Option CardanoRewardAddressBytes :=
  match u.data with
  | .registration data => some data.cardanoRewardAddress
  | .deregistration data => some data.cardanoRewardAddress
  | .assetCreate _ | .assetSpend _ => none

def registeredAddresses (utxos : List ObservedUtxo) : List CardanoRewardAddressBytes :=
  utxos.filterMap registeredAddress?

/-- What the filter keeps. -/
def retains (registered : List CardanoRewardAddressBytes) (u : ObservedUtxo) : Bool :=
  match u.data with
  | .registration _ | .deregistration _ => true
  | .assetCreate data => registered.contains data.owner
  | .assetSpend data => registered.contains data.owner

/-- The events without the cNIGHT of addresses that have no registration or deregistration. -/
def retainRegistered (utxos : List ObservedUtxo) : List ObservedUtxo :=
  utxos.filter (retains (registeredAddresses utxos))

structure PalletExecResult where
  mappings : Mapping
  utxoOwners : AList fun _ : H256 => DustPublicKeyBytes
  nextCardanoPosition : CardanoPosition
  systemTx : Option (List UInt8)

/-- The pallet in a chain without any configuration. -/
def emptyPallet : State where
  mapping := ∅
  utxoOwners := ∅
  nextCardanoPosition := .minForBlock 0
  cardanoTxCapacityPerBlock := 200
  inherentExecutedThisBlock := false
  storageVersion := currentStorageVersion
  events := []
  executed := []

structure CNightGenesis where
  addresses : CNightAddresses
  observedUtxos : ObservedUtxos
  result : PalletExecResult

section
variable {Owner : Type} (rt : Runtime Owner)

/-- One call in an empty chain, whose executor only records; none is the failed assertion. -/
def execPallet (utxos : ObservedUtxos) : Option PalletExecResult :=
  match processTokens rt (fun _ => .ok (.fill 32 0)) emptyPallet .none utxos.utxos utxos.end_ with
  | .ok s => some ⟨s.mapping, s.utxoOwners, s.nextCardanoPosition, s.executed.getLast?⟩
  | .error _ => none

/-- The loop that fetches the events up to the tip. -/
def fetchUtxos {ε : Type} (getUtxosUpToCapacity : CardanoPosition → Except ε ObservedUtxos)
    (cardanoTip : McBlockHash) : Nat → CardanoPosition → List ObservedUtxo →
      Option (Except ε (List ObservedUtxo × CardanoPosition))
  | 0, _, _ => none
  | fuel + 1, currentPosition, allUtxos =>
    match getUtxosUpToCapacity currentPosition with
    | .error e => some (.error e)
    | .ok observed =>
      if observed.end_.blockHash = cardanoTip then
        some (.ok (allUtxos ++ observed.utxos, observed.end_))
      else fetchUtxos getUtxosUpToCapacity cardanoTip fuel observed.end_ (allUtxos ++ observed.utxos)

/-- The configuration that is written from the fetched events. -/
def cnightGenesis (addresses : CNightAddresses) (fetched : List ObservedUtxo × CardanoPosition) :
    Option CNightGenesis := do
  let observedUtxos : ObservedUtxos :=
    { start := .minForBlock 0, end_ := fetched.2, utxos := retainRegistered fetched.1 }
  let result ← execPallet rt observedUtxos
  pure { addresses, observedUtxos, result }

def generateCnightGenesis {ε : Type} (addresses : CNightAddresses)
    (getUtxosUpToCapacity : CardanoPosition → Except ε ObservedUtxos) (cardanoTip : McBlockHash)
    (fuel : Nat) : Option (Except ε CNightGenesis) :=
  match fetchUtxos getUtxosUpToCapacity cardanoTip fuel (.minForBlock 0) [] with
  | none => none
  | some (.error e) => some (.error e)
  | some (.ok fetched) => (cnightGenesis rt addresses fetched).map .ok

def State.runCalls (s : State) (calls : List Call) : Except DispatchError State :=
  calls.foldlM (fun s c =>
    (processTokens rt c.exec s c.origin c.utxos c.nextCardanoPosition).map State.onFinalize) s

end

/-! ## What the loop depends on -/

section
variable {Owner : Type} {rt : Runtime Owner} {s s' s₁ s₂ : State} {us vs : List ObservedUtxo}

structure SameTracked (s s' : State) : Prop where
  mapping : s.mapping = s'.mapping
  utxoOwners : s.utxoOwners = s'.utxoOwners

/-- One turn of the loop, with the events of this turn. -/
def utxoStep (rt : Runtime Owner) (s : State) (u : ObservedUtxo) : State × List (List UInt8) :=
  processUtxo rt (s, []) u

theorem processUtxo_eq (rt : Runtime Owner) (acc : State × List (List UInt8)) (u : ObservedUtxo) :
    processUtxo rt acc u = ((utxoStep rt acc.1 u).1, acc.2 ++ (utxoStep rt acc.1 u).2) := by
  obtain ⟨header, data⟩ := u
  cases data <;> simp [processUtxo, utxoStep]

theorem processUtxos_snoc (rt : Runtime Owner) (s : State) (us : List ObservedUtxo) (u : ObservedUtxo) :
    processUtxos rt s (us ++ [u]) =
      ((utxoStep rt (processUtxos rt s us).1 u).1,
        (processUtxos rt s us).2 ++ (utxoStep rt (processUtxos rt s us).1 u).2) := by
  rw [processUtxos_concat, processUtxo_eq]

theorem utxoStep_same (rt : Runtime Owner) (h : SameTracked s s') (u : ObservedUtxo) :
    SameTracked (utxoStep rt s u).1 (utxoStep rt s' u).1 ∧
      (utxoStep rt s u).2 = (utxoStep rt s' u).2 := by
  obtain ⟨hmapping, howners⟩ := h
  obtain ⟨header, data⟩ := u
  cases data with
  | registration data =>
    simp only [utxoStep, processUtxo, State.handleRegistration_eq, hmapping]
    exact ⟨⟨rfl, howners⟩, trivial⟩
  | deregistration data =>
    simp only [utxoStep, processUtxo, State.handleRegistrationRemoval_eq, hmapping]
    exact ⟨⟨rfl, howners⟩, trivial⟩
  | assetCreate data =>
    simp only [utxoStep, processUtxo, handleCreate, State.getRegistration, hmapping, howners]
    split
    · exact ⟨⟨hmapping, howners⟩, rfl⟩
    · split
      · exact ⟨⟨rfl, rfl⟩, rfl⟩
      · exact ⟨⟨hmapping, howners⟩, rfl⟩
  | assetSpend data =>
    simp only [utxoStep, processUtxo, handleSpend, howners]
    split
    · exact ⟨⟨hmapping, howners⟩, rfl⟩
    · split <;> exact ⟨⟨hmapping, rfl⟩, rfl⟩

theorem processUtxos_same (rt : Runtime Owner) (h : SameTracked s s') (us : List ObservedUtxo) :
    SameTracked (processUtxos rt s us).1 (processUtxos rt s' us).1 ∧
      (processUtxos rt s us).2 = (processUtxos rt s' us).2 := by
  induction us using List.reverseRecOn with
  | nil => exact ⟨h, rfl⟩
  | append_singleton us u ih =>
    obtain ⟨hsame, hevents⟩ := utxoStep_same rt ih.1 u
    rw [processUtxos_snoc, processUtxos_snoc, ih.2, hevents]
    exact ⟨hsame, rfl⟩

theorem processUtxos_append (rt : Runtime Owner) (s : State) (us vs : List ObservedUtxo) :
    processUtxos rt s (us ++ vs) =
      ((processUtxos rt (processUtxos rt s us).1 vs).1,
        (processUtxos rt s us).2 ++ (processUtxos rt (processUtxos rt s us).1 vs).2) := by
  induction vs using List.reverseRecOn with
  | nil => simp [processUtxos]
  | append_singleton vs v ih =>
    rw [← List.append_assoc, processUtxos_snoc, ih, processUtxos_snoc, List.append_assoc]

def dustEvents (rt : Runtime Owner) (s : State) (us : List ObservedUtxo) :
    List (CNightGeneratesDustEvent Owner) :=
  ((processUtxos rt s us).2.mapM rt.ledgerApi.dustEvent.deserialize).getD []

theorem dustEvents_spec (hapi : rt.ledgerApi.RoundTrips) (s : State) (us : List ObservedUtxo) :
    (processUtxos rt s us).2.mapM rt.ledgerApi.dustEvent.deserialize = some (dustEvents rt s us) := by
  have hread : ∃ decoded, (processUtxos rt s us).2.mapM rt.ledgerApi.dustEvent.deserialize =
      some decoded := by
    induction us using List.reverseRecOn with
    | nil => exact ⟨[], rfl⟩
    | append_singleton us u ih =>
      obtain ⟨decoded, hdecoded⟩ := ih
      obtain ⟨new, bytes, -, hbytes, hnew⟩ := processUtxo_dust hapi (processUtxos rt s us) u
      refine ⟨decoded ++ new, ?_⟩
      rw [processUtxos_concat, hbytes, List.mapM_append, hdecoded, hnew]
      rfl
  obtain ⟨decoded, hdecoded⟩ := hread
  rw [dustEvents, hdecoded]
  rfl

theorem dustEvents_same (h : SameTracked s s') : dustEvents rt s us = dustEvents rt s' us := by
  rw [dustEvents, dustEvents, (processUtxos_same rt h us).2]

theorem dustEvents_append (hapi : rt.ledgerApi.RoundTrips) (s : State) (us vs : List ObservedUtxo) :
    dustEvents rt s (us ++ vs) = dustEvents rt s us ++ dustEvents rt (processUtxos rt s us).1 vs := by
  have h := dustEvents_spec hapi s (us ++ vs)
  rw [processUtxos_append, List.mapM_append, dustEvents_spec hapi s us,
    dustEvents_spec hapi (processUtxos rt s us).1 vs] at h
  exact (Option.some.inj h).symm

/-! ## Batches -/

/-- The executor applies every system transaction. -/
def Executes (exec : Executor) : Prop := ∀ tx, ∃ hash, exec tx = .ok hash

structure Processed (rt : Runtime Owner) (s : State) (us : List ObservedUtxo) (next : CardanoPosition)
    (s' : State) : Prop where
  mapping : s'.mapping = (processUtxos rt s us).1.mapping
  utxoOwners : s'.utxoOwners = (processUtxos rt s us).1.utxoOwners
  nextCardanoPosition : s'.nextCardanoPosition = next
  executed : executedEvents rt s' = executedEvents rt s ++ dustEvents rt s us
  capacity : s'.cardanoTxCapacityPerBlock = s.cardanoTxCapacityPerBlock
  storageVersion : s'.storageVersion = s.storageVersion

theorem Processed.nil (rt : Runtime Owner) (s : State) : Processed rt s [] s.nextCardanoPosition s :=
  ⟨rfl, rfl, rfl, (List.append_nil _).symm, rfl, rfl⟩

theorem Processed.append (hapi : rt.ledgerApi.RoundTrips) (h : Processed rt s us next s₁)
    (h' : Processed rt s₁ vs next' s₂) : Processed rt s (us ++ vs) next' s₂ := by
  have hsame : SameTracked s₁ (processUtxos rt s us).1 := ⟨h.mapping, h.utxoOwners⟩
  obtain ⟨htracked, -⟩ := processUtxos_same rt hsame vs
  refine ⟨?_, ?_, h'.nextCardanoPosition, ?_, h'.capacity.trans h.capacity,
    h'.storageVersion.trans h.storageVersion⟩
  · rw [h'.mapping, htracked.mapping, processUtxos_append]
  · rw [h'.utxoOwners, htracked.utxoOwners, processUtxos_append]
  · rw [h'.executed, h.executed, dustEvents_append hapi, dustEvents_same hsame, List.append_assoc]

theorem applyDustEvents_ok (hapi : rt.ledgerApi.RoundTrips) (hexec : Executes exec)
    (hread : events.mapM rt.ledgerApi.dustEvent.deserialize = some decoded) (next : CardanoPosition) :
    ∃ s', applyDustEvents rt exec s events next = .ok s' := by
  obtain ⟨tx, htx, -⟩ := Api.constructCnightGeneratesDustSystemTx_spec hapi hread
  obtain ⟨hash, hhash⟩ := hexec tx
  unfold applyDustEvents
  rw [htx]
  simp only [hhash]
  split <;> exact ⟨_, rfl⟩

/-- The inherent has not run in this block, and one call may have this many UTXOs. -/
structure Admits (s : State) (us : List ObservedUtxo) : Prop where
  flag : s.inherentExecutedThisBlock = false
  size : us.length ≤ saturatingMul s.cardanoTxCapacityPerBlock utxoPerTxOverestimate

theorem Admits.count_le (h : Admits s us) :
    us.length % 4294967296 ≤ saturatingMul s.cardanoTxCapacityPerBlock utxoPerTxOverestimate :=
  (Nat.mod_le _ _).trans h.size

theorem processTokens_admitted (h : Admits s us) (hversion : ¬ s.storageVersion < currentStorageVersion)
    (hnext : s.nextCardanoPosition ≤ next) :
    processTokens rt exec s .none us next =
      applyDustEvents rt exec
        { (processUtxos rt { s with inherentExecutedThisBlock := true } us).1 with
          nextCardanoPosition := next }
        (processUtxos rt { s with inherentExecutedThisBlock := true } us).2 next := by
  simp [processTokens, h.count_le, h.flag, hversion, hnext]

theorem processTokens_skipped (h : Admits s us) (hversion : s.storageVersion < currentStorageVersion) :
    processTokens rt exec s .none us next = .ok { s with inherentExecutedThisBlock := true } := by
  simp [processTokens, h.count_le, h.flag, hversion, pure, Except.pure]

theorem processTokens_processed (hapi : rt.ledgerApi.RoundTrips) (hexec : Executes exec) (h : Admits s us)
    (hversion : ¬ s.storageVersion < currentStorageVersion) (hnext : s.nextCardanoPosition ≤ next) :
    ∃ s', processTokens rt exec s .none us next = .ok s' ∧ Processed rt s us next s' := by
  rw [processTokens_admitted h hversion hnext]
  have hsame : SameTracked { s with inherentExecutedThisBlock := true } s := ⟨rfl, rfl⟩
  obtain ⟨htracked, hevents⟩ := processUtxos_same rt hsame us
  have hframe := processUtxos_frame rt { s with inherentExecutedThisBlock := true } us
  have hread := dustEvents_spec hapi s us
  rw [← hevents] at hread
  generalize processUtxos rt { s with inherentExecutedThisBlock := true } us = r at htracked hframe hread
  obtain ⟨s', hs'⟩ := applyDustEvents_ok hapi hexec hread next
  refine ⟨s', hs', ?_⟩
  obtain ⟨hexecuted, howners⟩ := applyDustEvents_stream hapi hread hs'
  have hexecuted₀ : r.1.executed = s.executed := by rw [hframe]
  have hcapacity₀ : r.1.cardanoTxCapacityPerBlock = s.cardanoTxCapacityPerBlock := by rw [hframe]
  have hversion₀ : r.1.storageVersion = s.storageVersion := by rw [hframe]
  have hrest : s'.mapping = r.1.mapping ∧ s'.nextCardanoPosition = next ∧
      s'.cardanoTxCapacityPerBlock = r.1.cardanoTxCapacityPerBlock ∧
      s'.storageVersion = r.1.storageVersion := by
    rcases applyDustEvents_inv hs' with ⟨rfl, -⟩ | ⟨tx, hash, -, -, -, rfl⟩ <;> exact ⟨rfl, rfl, rfl, rfl⟩
  obtain ⟨hmapping, hposition, hcapacity, hstorage⟩ := hrest
  refine ⟨hmapping.trans htracked.mapping, howners.trans htracked.utxoOwners, hposition, ?_,
    hcapacity.trans hcapacity₀, hstorage.trans hversion₀⟩
  rw [hexecuted, executedEvents, executedEvents, hexecuted₀]

/-- Calls of the inherent that the chain accepts: in order of their positions, with no more UTXOs in all
than one call may have. -/
structure Accepted (s : State) (calls : List Call) : Prop where
  origin : ∀ c ∈ calls, c.origin = .none
  executes : ∀ c ∈ calls, Executes c.exec
  size : (calls.flatMap (·.utxos)).length ≤
    saturatingMul s.cardanoTxCapacityPerBlock utxoPerTxOverestimate
  positions : (s.nextCardanoPosition :: calls.map (·.nextCardanoPosition)).Pairwise (· ≤ ·)

variable {c : Call} {calls : List Call}

theorem Accepted.head (h : Accepted s (c :: calls)) (hflag : s.inherentExecutedThisBlock = false) :
    Admits s c.utxos := by
  have hsize := h.size
  rw [List.flatMap_cons, List.length_append] at hsize
  exact ⟨hflag, Nat.le_of_add_right_le hsize⟩

theorem Accepted.tail (h : Accepted s (c :: calls))
    (hcapacity : s'.cardanoTxCapacityPerBlock = s.cardanoTxCapacityPerBlock)
    (hposition : s'.nextCardanoPosition = s.nextCardanoPosition ∨
      s'.nextCardanoPosition = c.nextCardanoPosition) : Accepted s' calls := by
  refine ⟨fun d hd => h.origin d (List.mem_cons_of_mem _ hd),
    fun d hd => h.executes d (List.mem_cons_of_mem _ hd), ?_, ?_⟩
  · have hsize := h.size
    rw [List.flatMap_cons, List.length_append] at hsize
    rw [hcapacity]
    exact Nat.le_of_add_left_le hsize
  · have hpositions := h.positions
    rw [List.map_cons] at hpositions
    rcases hposition with hposition | hposition
    · rw [hposition]
      exact hpositions.sublist ((List.sublist_cons_self _ _).cons_cons _)
    · rw [hposition]
      exact (List.pairwise_cons.mp hpositions).2

/-- Calls in a row process what one call with all their UTXOs does. -/
theorem runCalls_processed (hapi : rt.ledgerApi.RoundTrips)
    (hversion : ¬ s.storageVersion < currentStorageVersion) (hflag : s.inherentExecutedThisBlock = false)
    (h : Accepted s calls) :
    ∃ s', s.runCalls rt calls = .ok s' ∧
      Processed rt s (calls.flatMap (·.utxos))
        ((calls.map (·.nextCardanoPosition)).getLastD s.nextCardanoPosition) s' := by
  induction calls generalizing s with
  | nil => exact ⟨s, rfl, .nil rt s⟩
  | cons c calls ih =>
    have hnext : s.nextCardanoPosition ≤ c.nextCardanoPosition :=
      (List.pairwise_cons.mp h.positions).1 _ List.mem_cons_self
    obtain ⟨s₁, hcall, hprocessed⟩ := processTokens_processed hapi (h.executes c List.mem_cons_self)
      (h.head hflag) hversion hnext
    have hfinal : Processed rt s c.utxos c.nextCardanoPosition s₁.onFinalize :=
      ⟨hprocessed.mapping, hprocessed.utxoOwners, hprocessed.nextCardanoPosition, hprocessed.executed,
        hprocessed.capacity, hprocessed.storageVersion⟩
    obtain ⟨s', hrun, hrest⟩ := ih (s := s₁.onFinalize) (hfinal.storageVersion ▸ hversion) rfl
      (h.tail hfinal.capacity (.inr hfinal.nextCardanoPosition))
    refine ⟨s', ?_, ?_⟩
    · rw [State.runCalls, List.foldlM_cons, h.origin c List.mem_cons_self, hcall]
      exact hrun
    · rw [List.flatMap_cons, List.map_cons, List.getLastD_cons, ← hfinal.nextCardanoPosition]
      exact hfinal.append hapi hrest

theorem runCalls_skipped (hversion : s.storageVersion < currentStorageVersion)
    (hflag : s.inherentExecutedThisBlock = false) (h : Accepted s calls) :
    s.runCalls rt calls = .ok s := by
  have hrestored : State.onFinalize { s with inherentExecutedThisBlock := true } = s := by
    rw [State.onFinalize, ← hflag]
  induction calls with
  | nil => rfl
  | cons c calls ih =>
    rw [State.runCalls, List.foldlM_cons, h.origin c List.mem_cons_self,
      processTokens_skipped (h.head hflag) hversion, Except.map, hrestored]
    exact ih (h.tail rfl (.inl rfl))

/-! ## The filter -/

/-- The UTXO of an observed creation or spend. -/
def assetUtxo? (u : ObservedUtxo) : Option UtxoId :=
  match u.data with
  | .assetCreate data => some ⟨data.utxoTxHash, data.utxoTxIndex⟩
  | .assetSpend data => some ⟨data.utxoTxHash, data.utxoTxIndex⟩
  | .registration _ | .deregistration _ => none

/-- A spend carries the same owner as the create of its UTXO. -/
def SpendsCarryOwner (us : List ObservedUtxo) : Prop :=
  ∀ u ∈ us, ∀ v ∈ us, ∀ create spend, u.data = .assetCreate create → v.data = .assetSpend spend →
    create.utxoTxHash = spend.utxoTxHash → create.utxoTxIndex = spend.utxoTxIndex →
      spend.owner = create.owner

/-- The hash tells the UTXOs of the events apart. -/
def NonceInjective (rt : Runtime Owner) (us : List ObservedUtxo) : Prop :=
  Set.InjOn rt.hashing {l | ∃ u ∈ us, ∃ id ∈ assetUtxo? u, l = id.preimage}

/-- Mappings are those of registered addresses, and the owners come from creates of such addresses. -/
structure FilterInv (rt : Runtime Owner) (us : List ObservedUtxo) (s : State) : Prop where
  mapped : ∀ a id, (a, id) ∈ s.mapping → a ∈ registeredAddresses us
  owned : ∀ n ∈ s.utxoOwners, ∃ u ∈ us, ∃ create, u.data = .assetCreate create ∧
    n = rt.nonce ⟨create.utxoTxHash, create.utxoTxIndex⟩ ∧ create.owner ∈ registeredAddresses us

variable {u : ObservedUtxo} {acc : State × List (List UInt8)}

theorem FilterInv.empty (hmapping : s.mapping = ∅) (howners : s.utxoOwners = ∅) : FilterInv rt us s where
  mapped a id h := by
    rw [hmapping] at h
    exact absurd h (AList.notMem_empty _)
  owned n h := by
    rw [howners] at h
    exact absurd h (AList.notMem_empty _)

theorem FilterInv.of_registration (h : FilterInv rt us s) (hkey : s.getRegistration a = some key) :
    a ∈ registeredAddresses us := by
  obtain ⟨id, hid, -⟩ := uniqueDustKey_eq_some.mp hkey
  exact h.mapped a id (AList.lookup_isSome.mp (by rw [hid]; rfl))

theorem mem_registeredAddresses (hu : u ∈ us) (ha : registeredAddress? u = some a) :
    a ∈ registeredAddresses us :=
  List.mem_filterMap.mpr ⟨u, hu, ha⟩

theorem FilterInv.step (h : FilterInv rt us acc.1) (hu : u ∈ us) :
    FilterInv rt us (processUtxo rt acc u).1 := by
  obtain ⟨header, data⟩ := u
  cases data with
  | registration data =>
    simp only [processUtxo, State.handleRegistration_eq]
    refine ⟨fun a id hmem => ?_, h.owned⟩
    rcases (AList.mem_insert _).mp hmem with heq | hmem
    · cases heq
      exact mem_registeredAddresses hu rfl
    · exact h.mapped a id hmem
  | deregistration data =>
    simp only [processUtxo, State.handleRegistrationRemoval_eq]
    exact ⟨fun a id hmem => h.mapped a id (AList.mem_erase.mp hmem).2, h.owned⟩
  | assetCreate data =>
    simp only [processUtxo, handleCreate]
    split
    · exact h
    case h_2 key hkey =>
      split
      · refine ⟨h.mapped, fun n hmem => ?_⟩
        rcases (AList.mem_insert _).mp hmem with rfl | hmem
        · exact ⟨_, hu, data, rfl, rfl, h.of_registration hkey⟩
        · exact h.owned n hmem
      · exact h
  | assetSpend data =>
    simp only [processUtxo, handleSpend]
    split
    · exact h
    · split <;> exact ⟨h.mapped, fun n hmem => h.owned n (AList.mem_erase.mp hmem).2⟩

/-- What the filter drops would not have done anything. -/
theorem FilterInv.dropped (h : FilterInv rt us acc.1) (howner : SpendsCarryOwner us)
    (hhash : NonceInjective rt us) (hu : u ∈ us) (hdrop : retains (registeredAddresses us) u = false) :
    processUtxo rt acc u = acc := by
  obtain ⟨header, data⟩ := u
  cases data with
  | registration data => cases hdrop
  | deregistration data => cases hdrop
  | assetCreate data =>
    have hnotMem : data.owner ∉ registeredAddresses us := by simpa [retains] using hdrop
    have hnone : acc.1.getRegistration data.owner = none :=
      Option.eq_none_iff_forall_ne_some.mpr fun key hkey => hnotMem (h.of_registration hkey)
    simp [processUtxo, handleCreate, hnone]
  | assetSpend data =>
    have hnotMem : data.owner ∉ registeredAddresses us := by simpa [retains] using hdrop
    have hnone : acc.1.utxoOwners.lookup (rt.hashing (noncePreimage data.utxoTxHash data.utxoTxIndex)) =
        none := by
      refine AList.lookup_eq_none.mpr fun hmem => hnotMem ?_
      -- an owner under the nonce would come from the create of this UTXO
      obtain ⟨v, hv, create, hcreate, hnonce, hregistered⟩ := h.owned _ hmem
      have hsame : (⟨data.utxoTxHash, data.utxoTxIndex⟩ : UtxoId) =
          ⟨create.utxoTxHash, create.utxoTxIndex⟩ :=
        UtxoId.preimage_injective (hhash ⟨_, hu, _, rfl, rfl⟩
          ⟨v, hv, _, by simp [assetUtxo?, hcreate], rfl⟩ hnonce)
      injection hsame with htx hindex
      rw [howner v hv _ hu create data hcreate rfl htx.symm hindex.symm]
      exact hregistered
    simp [processUtxo, handleSpend, hnone]

theorem processUtxos_retainRegistered (hmapping : s.mapping = ∅) (howners : s.utxoOwners = ∅)
    (howner : SpendsCarryOwner us) (hhash : NonceInjective rt us) :
    processUtxos rt s (retainRegistered us) = processUtxos rt s us := by
  have hloop : ∀ (vs : List ObservedUtxo) (acc : State × List (List UInt8)), vs ⊆ us →
      FilterInv rt us acc.1 →
      (vs.filter (retains (registeredAddresses us))).foldl (processUtxo rt) acc =
        vs.foldl (processUtxo rt) acc := by
    intro vs
    induction vs with
    | nil => intro acc _ _; rfl
    | cons v vs ih =>
      intro acc hsub hinv
      have hv := hsub List.mem_cons_self
      have hrest := ih (processUtxo rt acc v) (fun x hx => hsub (List.mem_cons_of_mem _ hx)) (hinv.step hv)
      rw [List.foldl_cons]
      cases hretains : retains (registeredAddresses us) v with
      | true =>
        rw [List.filter_cons_of_pos hretains, List.foldl_cons]
        exact hrest
      | false =>
        rw [List.filter_cons_of_neg (by simp [hretains])]
        rw [hinv.dropped howner hhash hv hretains] at hrest ⊢
        exact hrest
  exact hloop us (s, []) (List.Subset.refl _) (.empty hmapping howners)

theorem processTokens_retainRegistered (h : Admits s us) (hnext : s.nextCardanoPosition ≤ next)
    (hmapping : s.mapping = ∅) (howners : s.utxoOwners = ∅) (howner : SpendsCarryOwner us)
    (hhash : NonceInjective rt us) :
    processTokens rt exec s .none (retainRegistered us) next = processTokens rt exec s .none us next := by
  have h' : Admits s (retainRegistered us) := ⟨h.flag, (List.length_filter_le _ _).trans h.size⟩
  by_cases hversion : s.storageVersion < currentStorageVersion
  · rw [processTokens_skipped h hversion, processTokens_skipped h' hversion]
  · have hmapping' : { s with inherentExecutedThisBlock := true }.mapping = ∅ := hmapping
    rw [processTokens_admitted h hversion hnext, processTokens_admitted h' hversion hnext,
      processUtxos_retainRegistered hmapping' howners howner hhash]

/-- The genesis has what the pallet makes of all fetched events. -/
theorem cnightGenesis_eq {fetched : List ObservedUtxo × CardanoPosition}
    (hsize : fetched.1.length ≤ saturatingMul 200 utxoPerTxOverestimate)
    (howner : SpendsCarryOwner fetched.1) (hhash : NonceInjective rt fetched.1) :
    (cnightGenesis rt addresses fetched).map (·.result) =
      execPallet rt ⟨.minForBlock 0, fetched.2, fetched.1⟩ := by
  have hnext : emptyPallet.nextCardanoPosition ≤ fetched.2 := by
    rw [CardanoPosition.le_iff_key, CardanoPosition.key_le_iff]
    simp only [emptyPallet, CardanoPosition.minForBlock]
    omega
  have hcall : processTokens rt (fun _ => .ok (.fill 32 0)) emptyPallet .none (retainRegistered fetched.1)
      fetched.2 = processTokens rt (fun _ => .ok (.fill 32 0)) emptyPallet .none fetched.1 fetched.2 :=
    processTokens_retainRegistered ⟨rfl, hsize⟩ hnext rfl rfl howner hhash
  unfold cnightGenesis execPallet
  dsimp only
  rw [hcall]
  cases processTokens rt (fun _ => .ok (.fill 32 0)) emptyPallet .none fetched.1 fetched.2 <;> rfl

structure SameOutcome (rt : Runtime Owner) (s s' : State) : Prop where
  mapping : s.mapping = s'.mapping
  utxoOwners : s.utxoOwners = s'.utxoOwners
  nextCardanoPosition : s.nextCardanoPosition = s'.nextCardanoPosition
  executed : executedEvents rt s = executedEvents rt s'

/-- The calls of consecutive blocks end as one call with all their events does, and from an empty pallet
one call without the cNIGHT of addresses that never register ends so too. -/
theorem batches_and_filter_irrelevant (rt : Runtime Owner) (hapi : rt.ledgerApi.RoundTrips) (s : State)
    (calls : List Call) (exec : Executor) (stop : CardanoPosition)
    (hflag : s.inherentExecutedThisBlock = false) (haccepted : Accepted s calls)
    (hstop : (calls.map (·.nextCardanoPosition)).getLast? = some stop) (hexec : Executes exec) :
    ∃ s₁ s₂, s.runCalls rt calls = .ok s₁ ∧
      processTokens rt exec s .none (calls.flatMap (·.utxos)) stop = .ok s₂ ∧ SameOutcome rt s₁ s₂ ∧
      (s.mapping = ∅ → s.utxoOwners = ∅ → SpendsCarryOwner (calls.flatMap (·.utxos)) →
        NonceInjective rt (calls.flatMap (·.utxos)) →
        ∃ s₃, processTokens rt exec s .none (retainRegistered (calls.flatMap (·.utxos))) stop = .ok s₃ ∧
          SameOutcome rt s₂ s₃) := by
  have hnext : s.nextCardanoPosition ≤ stop :=
    (List.pairwise_cons.mp haccepted.positions).1 stop (List.mem_of_getLast? hstop)
  have hadmits : Admits s (calls.flatMap (·.utxos)) := ⟨hflag, haccepted.size⟩
  suffices hbatches : ∃ s₁ s₂, s.runCalls rt calls = .ok s₁ ∧
      processTokens rt exec s .none (calls.flatMap (·.utxos)) stop = .ok s₂ ∧ SameOutcome rt s₁ s₂ by
    obtain ⟨s₁, s₂, hrun, hcall, hsame⟩ := hbatches
    refine ⟨s₁, s₂, hrun, hcall, hsame, fun hmapping howners howner hhash => ⟨s₂, ?_, rfl, rfl, rfl, rfl⟩⟩
    rw [processTokens_retainRegistered hadmits hnext hmapping howners howner hhash, hcall]
  by_cases hversion : s.storageVersion < currentStorageVersion
  · exact ⟨s, _, runCalls_skipped hversion hflag haccepted, processTokens_skipped hadmits hversion,
      rfl, rfl, rfl, rfl⟩
  · obtain ⟨s₁, hrun, h₁⟩ := runCalls_processed hapi hversion hflag haccepted
    obtain ⟨s₂, hcall, h₂⟩ := processTokens_processed hapi hexec hadmits hversion hnext
    refine ⟨s₁, s₂, hrun, hcall, ?_, ?_, ?_, ?_⟩
    · rw [h₁.mapping, h₂.mapping]
    · rw [h₁.utxoOwners, h₂.utxoOwners]
    · rw [h₁.nextCardanoPosition, h₂.nextCardanoPosition, List.getLastD_eq_getLast?, hstop]
      rfl
    · rw [h₁.executed, h₂.executed]

end

/-- cNIGHT of an address that never registers. -/
def sampleForeignCreate (block : Nat) (utxo : UInt8) : ObservedUtxo :=
  ⟨sampleHeader block utxo, .assetCreate ⟨5, .fill 29 2, .fill 32 utxo, 0⟩⟩

/-- cNIGHT is created in one block, for the sample address and for another one, and spent in the next. -/
def sampleBatches : List Call :=
  [sampleCall 1 [sampleRegistration 1 1 7, sampleCreate 1 5, sampleForeignCreate 1 6],
    sampleCall 2 [sampleSpend 2 5]]

theorem sampleBatches_accepted : Accepted sampleState sampleBatches where
  origin := by simp [sampleBatches, sampleCall]
  executes := by simp [sampleBatches, sampleCall, Executes]
  size := by decide
  positions := by decide

theorem batches_and_filter_irrelevant_sample :
    ∃ s₁ s₂, sampleState.runCalls sampleRuntime sampleBatches = .ok s₁ ∧
      processTokens sampleRuntime (fun _ => .ok (.fill 32 0)) sampleState .none
        (sampleBatches.flatMap (·.utxos)) (.minForBlock 3) = .ok s₂ ∧
      SameOutcome sampleRuntime s₁ s₂ ∧ (retainRegistered (sampleBatches.flatMap (·.utxos))).length = 3 ∧
      ∃ s₃, processTokens sampleRuntime (fun _ => .ok (.fill 32 0)) sampleState .none
        (retainRegistered (sampleBatches.flatMap (·.utxos))) (.minForBlock 3) = .ok s₃ ∧
          SameOutcome sampleRuntime s₂ s₃ := by
  have howner : SpendsCarryOwner (sampleBatches.flatMap (·.utxos)) := by
    intro u hu v hv create spend hcreate hspend htx hindex
    simp only [sampleBatches, sampleCall, List.flatMap_cons, List.flatMap_nil, List.append_nil,
      List.cons_append, List.nil_append, List.mem_cons, List.not_mem_nil, or_false] at hu hv
    rcases hv with rfl | rfl | rfl | rfl <;> cases hspend
    rcases hu with rfl | rfl | rfl | rfl <;> cases hcreate
    · rfl
    · cases htx
  have hassets : (sampleBatches.flatMap (·.utxos)).filterMap assetUtxo? =
      [⟨.fill 32 5, 0⟩, ⟨.fill 32 6, 0⟩, ⟨.fill 32 5, 0⟩] := by decide +kernel
  have hhash : NonceInjective sampleRuntime (sampleBatches.flatMap (·.utxos)) := by
    rintro _ ⟨u, hu, id, hid, rfl⟩ _ ⟨v, hv, id', hid', rfl⟩ heq
    have hmem := List.mem_filterMap.mpr ⟨u, hu, hid⟩
    have hmem' := List.mem_filterMap.mpr ⟨v, hv, hid'⟩
    simp only [hassets, List.mem_cons, List.not_mem_nil, or_false] at hmem hmem'
    rcases hmem with rfl | rfl | rfl <;> rcases hmem' with rfl | rfl | rfl <;>
      first
      | rfl
      | exact absurd heq (by decide +kernel)
  obtain ⟨s₁, s₂, hrun, hcall, hsame, hfilter⟩ := batches_and_filter_irrelevant sampleRuntime
    sampleApi_roundTrips sampleState sampleBatches (fun _ => .ok (.fill 32 0)) (.minForBlock 3) rfl
    sampleBatches_accepted rfl fun _ => ⟨_, rfl⟩
  exact ⟨s₁, s₂, hrun, hcall, hsame, by decide +kernel, hfilter rfl rfl howner hhash⟩

end MidnightNode.Pallet
