import MidnightNode.Pallet.CNightObservation

/-!
# The registration events as a log

Two pairs of events tell of the mapping. `Registration` and `Deregistration` tell which key of an
address is valid, and an indexer that replays them knows `get_registration` at every point.
`MappingAdded` and `MappingRemoved` tell of single entries; the second is deposited for every
observed deregistration, whether or not an entry was removed.

Both results are about the loop of `process_tokens` over an arbitrary sequence of observed UTXOs, at
every prefix of the sequence.
-/

namespace MidnightNode.Pallet
open CNight

/-- Where an entry stands in the mapping. -/
def MappingEntry.key (e : MappingEntry) : CardanoRewardAddressBytes × UtxoId :=
  (e.cardanoRewardAddress, e.utxoId)

/-- The mapping entry an observed registration is about. -/
def registration? (u : ObservedUtxo) : Option MappingEntry :=
  match u.data with
  | .registration data =>
    some ⟨data.cardanoRewardAddress, data.dustPublicKey, utxoIdOf u.header⟩
  | _ => none

/-- The mapping entry an observed deregistration names. -/
def deregistration? (u : ObservedUtxo) : Option MappingEntry :=
  match u.data with
  | .deregistration data =>
    some ⟨data.cardanoRewardAddress, data.dustPublicKey, utxoIdOf u.header⟩
  | _ => none

/-- What one observed UTXO does to the mapping, and the events it deposits. -/
inductive UtxoEffect (m : Mapping) (u : ObservedUtxo) : Mapping → List Event → Prop
  | registered (e : MappingEntry) (hr : registration? u = some e) (hd : deregistration? u = none) :
    UtxoEffect m u (m.insert e.key e.dustPublicKey)
      (keyChangeEvents e.cardanoRewardAddress id (uniqueDustKey m e.cardanoRewardAddress)
        (uniqueDustKey (m.insert e.key e.dustPublicKey) e.cardanoRewardAddress) ++
        [.mappingAdded e])
  | deregistered (e : MappingEntry) (hr : registration? u = none)
      (hd : deregistration? u = some e) :
    UtxoEffect m u (m.erase e.key)
      (keyChangeEvents e.cardanoRewardAddress (fun _ => e.dustPublicKey)
        (uniqueDustKey m e.cardanoRewardAddress)
        (uniqueDustKey (m.erase e.key) e.cardanoRewardAddress) ++ [.mappingRemoved e])
  | asset (hr : registration? u = none) (hd : deregistration? u = none) : UtxoEffect m u m []

theorem processUtxo_effect {Owner : Type} (rt : Runtime Owner) (acc : State × List (List UInt8))
    (u : ObservedUtxo) : ∃ events,
      UtxoEffect acc.1.mapping u (processUtxo rt acc u).1.mapping events ∧
      (processUtxo rt acc u).1.events = acc.1.events ++ events := by
  obtain ⟨header, data⟩ := u
  cases data with
  | registration data =>
    simp only [processUtxo, State.handleRegistration_eq]
    exact ⟨_, .registered ⟨data.cardanoRewardAddress, data.dustPublicKey, utxoIdOf header⟩ rfl rfl,
      rfl⟩
  | deregistration data =>
    simp only [processUtxo, State.handleRegistrationRemoval_eq]
    exact ⟨_, .deregistered ⟨data.cardanoRewardAddress, data.dustPublicKey, utxoIdOf header⟩ rfl
      rfl, rfl⟩
  | assetCreate data =>
    simp only [processUtxo]
    rw [handleCreate_frame]
    exact ⟨[], .asset rfl rfl, (List.append_nil _).symm⟩
  | assetSpend data =>
    simp only [processUtxo]
    rw [handleSpend_frame]
    exact ⟨[], .asset rfl rfl, (List.append_nil _).symm⟩

/-! ## Replaying registrations -/

/-- One step of an indexer: a registration needs an address without a valid key, a deregistration
the key it names. -/
def replayRegistration (cur : CardanoRewardAddressBytes → Option DustPublicKeyBytes) :
    Event → Option (CardanoRewardAddressBytes → Option DustPublicKeyBytes)
  | .registration addr key =>
    if cur addr = none then some (Function.update cur addr (some key)) else none
  | .deregistration addr key =>
    if cur addr = some key then some (Function.update cur addr none) else none
  | _ => some cur

/-- The valid keys after a list of events, or `none` where the replay is stuck. -/
def replayRegistrations (cur : CardanoRewardAddressBytes → Option DustPublicKeyBytes)
    (events : List Event) : Option (CardanoRewardAddressBytes → Option DustPublicKeyBytes) :=
  events.foldlM replayRegistration cur

theorem replayRegistrations_append (h : replayRegistrations cur evs = some cur') :
    replayRegistrations cur (evs ++ evs') = replayRegistrations cur' evs' := by
  unfold replayRegistrations at h ⊢
  rw [List.foldlM_append, h]
  rfl

/-- The event of a key change takes the replay from the old keys to the new ones, if the change is
one the events can tell: the key of one address appears or disappears. -/
theorem replay_keyChange (cur new : CardanoRewardAddressBytes → Option DustPublicKeyBytes)
    (hother : ∀ a' ≠ a, new a' = cur a')
    (hone : ∀ k, cur a = some k → new a = none ∧ cleared k = k ∨ new a = some k) :
    replayRegistrations cur (keyChangeEvents a cleared (cur a) (new a)) = some new := by
  have hupdate (v) (hv : new a = v) : Function.update cur a v = new := by
    funext a'
    by_cases ha : a' = a
    · subst ha
      rw [Function.update_self, hv]
    · rw [Function.update_of_ne ha, hother a' ha]
  cases hc : cur a with
  | none =>
    cases hn : new a with
    | none =>
      have hsame : Function.update cur a none = cur := by rw [← hc, Function.update_eq_self]
      exact congrArg some (hsame.symm.trans (hupdate none hn))
    | some k =>
      simp [keyChangeEvents, replayRegistrations, replayRegistration, hc, hupdate (some k) hn]
  | some k =>
    rcases hone k hc with ⟨hn, hk⟩ | hn
    · simp [keyChangeEvents, replayRegistrations, replayRegistration, hc, hn, hk, hupdate none hn]
    · have hsame : Function.update cur a (some k) = cur := by rw [← hc, Function.update_eq_self]
      rw [hn]
      exact congrArg some (hsame.symm.trans (hupdate (some k) hn))

theorem uniqueDustKey_congr (h : ∀ k, m'.Sole a k ↔ m.Sole a k) :
    uniqueDustKey m' a = uniqueDustKey m a :=
  Option.ext fun k => by
    rw [uniqueDustKey_eq_some, uniqueDustKey_eq_some, h]

theorem replay_insert (hfresh : (a, b) ∉ m) :
    replayRegistrations (uniqueDustKey m) (keyChangeEvents a id (uniqueDustKey m a)
      (uniqueDustKey (m.insert (a, b) key) a)) = some (uniqueDustKey (m.insert (a, b) key)) := by
  refine replay_keyChange (uniqueDustKey m) (uniqueDustKey _) ?_ ?_
  · intro a' hne
    exact uniqueDustKey_congr fun k => DoubleMap.sole_insert_of_ne hne
  · intro k hk
    have hsole := uniqueDustKey_eq_some.mp hk
    exact .inl ⟨uniqueDustKey_eq_none fun _ => hsole.not_sole_insert hfresh, rfl⟩

theorem replay_erase (hkey : ∀ k, m.lookup (a, b) = some k → k = key) :
    replayRegistrations (uniqueDustKey m) (keyChangeEvents a (fun _ => key) (uniqueDustKey m a)
      (uniqueDustKey (m.erase (a, b)) a)) = some (uniqueDustKey (m.erase (a, b))) := by
  refine replay_keyChange (uniqueDustKey m) (uniqueDustKey _) ?_ ?_
  · intro a' hne
    exact uniqueDustKey_congr fun k => DoubleMap.sole_erase_of_ne hne
  · intro k hk
    have hsole := uniqueDustKey_eq_some.mp hk
    cases hb : m.lookup (a, b) with
    | none =>
      -- nothing was there, so nothing changes
      have hsame : ∀ b', (m.erase (a, b)).lookup (a, b') = m.lookup (a, b') := by
        intro b'
        rw [DoubleMap.lookup_erase_eq]
        split
        · rename_i heq
          rw [heq, hb]
        · rfl
      refine .inr ?_
      rw [uniqueDustKey_congr fun _ => DoubleMap.Sole.congr hsame, hk]
    | some k' =>
      obtain ⟨rfl, hnone⟩ := hsole.of_erase hb
      exact .inl ⟨uniqueDustKey_eq_none hnone, (hkey k' hb).symm⟩

/-! ## Observed sequences -/

/-- An entry that is in the initial mapping or is registered by the sequence. -/
def Registered (m : Mapping) (us : List ObservedUtxo) (e : MappingEntry) : Prop :=
  m.lookup e.key = some e.dustPublicKey ∨ e ∈ us.filterMap registration?

/-- Each registration UTXO appears at most once. -/
structure RegistersOnce (m : Mapping) (us : List ObservedUtxo) : Prop where
  nodup : ((us.filterMap registration?).map MappingEntry.utxoId).Nodup
  fresh : ∀ e ∈ us.filterMap registration?, ∀ addr, (addr, e.utxoId) ∉ m

/-- The deregistration of a registered UTXO names its address and key. -/
def DeregistersAsRegistered (m : Mapping) (us : List ObservedUtxo) : Prop :=
  ∀ e ∈ us.filterMap deregistration?, ∀ e', Registered m us e' → e'.utxoId = e.utxoId → e' = e

section
variable {Owner : Type} {rt : Runtime Owner} {s : State} {m : Mapping}
variable {us pre post : List ObservedUtxo} {u : ObservedUtxo} {e : MappingEntry}

theorem Registered.mono (h : Registered m pre e) (hpre : pre <+: us) : Registered m us e :=
  h.imp_right fun he => (hpre.filterMap _).subset he

theorem RegistersOnce.of_prefix (h : RegistersOnce m us) (hpre : pre <+: us) :
    RegistersOnce m pre where
  nodup := h.nodup.sublist ((hpre.filterMap _).sublist.map _)
  fresh e he := h.fresh e ((hpre.filterMap _).subset he)

theorem DeregistersAsRegistered.of_prefix (h : DeregistersAsRegistered m us) (hpre : pre <+: us) :
    DeregistersAsRegistered m pre :=
  fun e he e' he' => h e ((hpre.filterMap _).subset he) e' (he'.mono hpre)

theorem registered_of_lookup (us : List ObservedUtxo) : ∀ {e : MappingEntry},
    (processUtxos rt s us).1.mapping.lookup e.key = some e.dustPublicKey →
    Registered s.mapping us e := by
  induction us using List.reverseRecOn with
  | nil => exact fun h => .inl h
  | append_singleton us u ih =>
    intro e he
    rw [processUtxos_concat] at he
    obtain ⟨events, heffect, -⟩ := processUtxo_effect rt (processUtxos rt s us) u
    generalize (processUtxo rt (processUtxos rt s us) u).1.mapping = m' at heffect he
    cases heffect with
    | registered e₀ hr hd =>
      rw [DoubleMap.lookup_insert_eq] at he
      split at he
      · rename_i hkey
        -- the new entry itself
        obtain ⟨a, k, b⟩ := e
        obtain ⟨a₀, k₀, b₀⟩ := e₀
        cases hkey
        cases he
        exact .inr (by simp [hr])
      · exact (ih he).mono (List.prefix_append _ _)
    | deregistered e₀ hr hd =>
      rw [DoubleMap.lookup_erase_eq] at he
      split at he
      · cases he
      · exact (ih he).mono (List.prefix_append _ _)
    | asset => exact (ih he).mono (List.prefix_append _ _)

theorem RegistersOnce.notMem (h : RegistersOnce s.mapping (us ++ [u]))
    (hr : registration? u = some e) : e.key ∉ (processUtxos rt s us).1.mapping := by
  intro hmem
  obtain ⟨k, hk⟩ := Option.isSome_iff_exists.mp (AList.lookup_isSome.mpr hmem)
  have heu : e ∈ (us ++ [u]).filterMap registration? := by simp [hr]
  rcases registered_of_lookup us (e := ⟨e.cardanoRewardAddress, k, e.utxoId⟩) hk with hinit | hreg
  · exact h.fresh e heu _ (AList.lookup_isSome.mp (Option.isSome_of_eq_some hinit))
  · have hnodup := h.nodup
    rw [List.filterMap_append, List.map_append] at hnodup
    refine List.disjoint_of_nodup_append hnodup (List.mem_map_of_mem hreg) ?_
    simp [hr]

/-- The registrations after a call are those before it with its events replayed. -/
theorem replay_processUtxos (hr : RegistersOnce s.mapping us)
    (hd : DeregistersAsRegistered s.mapping us) : ∃ events,
      (processUtxos rt s us).1.events = s.events ++ events ∧
      replayRegistrations s.getRegistration events =
        some (processUtxos rt s us).1.getRegistration := by
  induction us using List.reverseRecOn with
  | nil => exact ⟨[], (List.append_nil _).symm, rfl⟩
  | append_singleton us u ih =>
    have hpre := List.prefix_append us [u]
    obtain ⟨events, hevents, hreplay⟩ := ih (hr.of_prefix hpre) (hd.of_prefix hpre)
    rw [processUtxos_concat]
    obtain ⟨new, heffect, hnew⟩ := processUtxo_effect rt (processUtxos rt s us) u
    refine ⟨events ++ new, by rw [hnew, hevents, List.append_assoc], ?_⟩
    rw [replayRegistrations_append hreplay]
    unfold State.getRegistration
    generalize (processUtxo rt (processUtxos rt s us) u).1.mapping = m' at heffect
    cases heffect with
    | registered e hreg _ =>
      exact replayRegistrations_append (replay_insert (hr.notMem hreg))
    | deregistered e _ hdereg =>
      refine replayRegistrations_append (replay_erase fun k hk => ?_)
      have hmem : e ∈ (us ++ [u]).filterMap deregistration? := by simp [hdereg]
      have hbefore := registered_of_lookup us (e := ⟨e.cardanoRewardAddress, k, e.utxoId⟩) hk
      exact congrArg MappingEntry.dustPublicKey (hd e hmem _ (hbefore.mono hpre) rfl)
    | asset => rfl

/-- An indexer that replays `Registration` and `Deregistration` is never stuck and knows the
registration of every address at every point of an observed sequence. -/
theorem replay_eq_getRegistration (rt : Runtime Owner) (s : State) (us : List ObservedUtxo)
    (hr : RegistersOnce s.mapping us) (hd : DeregistersAsRegistered s.mapping us)
    (pre : List ObservedUtxo) (hpre : pre <+: us) : ∃ events,
      (processUtxos rt s pre).1.events = s.events ++ events ∧
      replayRegistrations s.getRegistration events =
        some (processUtxos rt s pre).1.getRegistration :=
  replay_processUtxos (hr.of_prefix hpre) (hd.of_prefix hpre)

end

/-! ## Sample observations -/

def sampleState : State where
  mapping := ∅
  utxoOwners := ∅
  nextCardanoPosition := .minForBlock 0
  cardanoTxCapacityPerBlock := 2
  inherentExecutedThisBlock := false
  storageVersion := 1
  events := []
  executed := []

/-- A runtime whose ledger accepts no event. -/
def silentRuntime : Runtime Unit where
  hashing _ := .fill 32 0
  ledgerApi := ⟨fun _ => none, ⟨fun _ => none, fun _ => none⟩, ⟨fun _ => none, fun _ => none⟩⟩

def sampleHeader (block : Nat) (utxo : UInt8) : ObservedUtxoHeader where
  txPosition := .minForBlock block
  txHash := .fill 32 utxo
  utxoTxHash := .fill 32 utxo
  utxoIndex := 0

def sampleAddress : CardanoRewardAddressBytes := .fill 29 1

def sampleKey (key : UInt8) : DustPublicKeyBytes := ⟨[key], by simp⟩

def sampleRegistration (block : Nat) (utxo key : UInt8) : ObservedUtxo :=
  ⟨sampleHeader block utxo, .registration ⟨sampleAddress, sampleKey key⟩⟩

def sampleDeregistration (block : Nat) (utxo key : UInt8) : ObservedUtxo :=
  ⟨sampleHeader block utxo, .deregistration ⟨sampleAddress, sampleKey key⟩⟩

/-- Two registrations of one address, the first of which is withdrawn, and a deregistration of a
UTXO that was never registered. -/
def sampleRegistrations : List ObservedUtxo :=
  [sampleRegistration 1 1 1, sampleRegistration 2 2 2, sampleDeregistration 3 1 1,
    sampleDeregistration 4 3 3]

theorem sampleRegistrations_registersOnce : RegistersOnce ∅ sampleRegistrations where
  nodup := by decide
  fresh _ _ addr := AList.notMem_empty _

theorem sampleRegistrations_deregisters : DeregistersAsRegistered ∅ sampleRegistrations := by
  have h : ∀ e ∈ sampleRegistrations.filterMap deregistration?,
      ∀ e' ∈ sampleRegistrations.filterMap registration?, e'.utxoId = e.utxoId → e' = e := by
    decide
  rintro e he e' (hinit | hreg) hid
  · cases hinit
  · exact h e he e' hreg hid

theorem replay_eq_getRegistration_sample : ∃ events,
    (processUtxos silentRuntime sampleState sampleRegistrations).1.events = [] ++ events ∧
    replayRegistrations sampleState.getRegistration events =
      some (processUtxos silentRuntime sampleState sampleRegistrations).1.getRegistration :=
  replay_eq_getRegistration silentRuntime sampleState sampleRegistrations
    sampleRegistrations_registersOnce sampleRegistrations_deregisters _ List.prefix_rfl

/-! ## The log of mapping entries -/

/-- Replaying the events that tell of single entries. -/
def replayMapping (m : Mapping) : Event → Mapping
  | .mappingAdded e => m.insert e.key e.dustPublicKey
  | .mappingRemoved e => m.erase e.key
  | _ => m

/-- The events are an exact log of the mapping: what is reported removed was there immediately
before, and the replay gives the mapping after every step. -/
structure LogExact {Owner : Type} (rt : Runtime Owner) (s : State) (us : List ObservedUtxo) :
    Prop where
  removed_present : ∀ pre u, pre ++ [u] <+: us → ∃ events,
    (processUtxos rt s (pre ++ [u])).1.events = (processUtxos rt s pre).1.events ++ events ∧
    ∀ e, .mappingRemoved e ∈ events →
      (processUtxos rt s pre).1.mapping.lookup e.key = some e.dustPublicKey
  replay : ∀ pre, pre <+: us → ∃ events,
    (processUtxos rt s pre).1.events = s.events ++ events ∧
    events.foldl replayMapping s.mapping = (processUtxos rt s pre).1.mapping

/-- What an observed UTXO says about a key of the mapping, if anything: the value it gets. -/
def observedEntry (k : CardanoRewardAddressBytes × UtxoId) (u : ObservedUtxo) :
    Option (Option DustPublicKeyBytes) :=
  match registration? u, deregistration? u with
  | some e, _ => if k = e.key then some (some e.dustPublicKey) else none
  | _, some e => if k = e.key then some none else none
  | _, _ => none

/-- The entry at a key as the last observation about it has it. -/
def lastEntry (m : Mapping) (us : List ObservedUtxo) (k : CardanoRewardAddressBytes × UtxoId) :
    Option DustPublicKeyBytes :=
  (us.reverse.findSome? (observedEntry k)).getD (m.lookup k)

/-- Every deregistration names an entry that is registered at its turn, with the same contents. -/
def RemovesRegistered (m : Mapping) (us : List ObservedUtxo) : Prop :=
  ∀ pre u, pre ++ [u] <+: us → ∀ e, deregistration? u = some e →
    lastEntry m pre e.key = some e.dustPublicKey

theorem lastEntry_concat (m : Mapping) (us : List ObservedUtxo) (u : ObservedUtxo)
    (k : CardanoRewardAddressBytes × UtxoId) :
    lastEntry m (us ++ [u]) k = (observedEntry k u).getD (lastEntry m us k) := by
  unfold lastEntry
  rw [List.reverse_append, List.reverse_singleton, List.singleton_append, List.findSome?_cons]
  cases observedEntry k u <;> rfl

theorem UtxoEffect.lookup (h : UtxoEffect m u m' events) (k : CardanoRewardAddressBytes × UtxoId) :
    m'.lookup k = (observedEntry k u).getD (m.lookup k) := by
  cases h with
  | registered e hr hd =>
    rw [DoubleMap.lookup_insert_eq]
    simp only [observedEntry, hr]
    split <;> rfl
  | deregistered e hr hd =>
    rw [DoubleMap.lookup_erase_eq]
    simp only [observedEntry, hr, hd]
    split <;> rfl
  | asset hr hd =>
    simp only [observedEntry, hr, hd]
    rfl

theorem mem_keyChangeEvents (h : .mappingRemoved e ∈ keyChangeEvents a cleared prev new) :
    False := by
  cases prev <;> cases new <;> simp [keyChangeEvents] at h

theorem UtxoEffect.mappingRemoved_mem (h : UtxoEffect m u m' events) :
    .mappingRemoved e ∈ events ↔ deregistration? u = some e := by
  cases h with
  | registered e' hr hd =>
    rw [hd, List.mem_append, List.mem_singleton]
    exact ⟨fun h => (h.elim mem_keyChangeEvents fun h => nomatch h).elim, fun h => (nomatch h)⟩
  | deregistered e' hr hd =>
    rw [hd, List.mem_append, List.mem_singleton, Event.mappingRemoved.injEq, Option.some.injEq]
    exact ⟨fun h => (h.resolve_left mem_keyChangeEvents).symm, fun h => .inr h.symm⟩
  | asset hr hd =>
    rw [hd]
    exact ⟨fun h => (nomatch h), fun h => (nomatch h)⟩

theorem foldl_replayMapping_keyChangeEvents (m : Mapping) :
    (keyChangeEvents a cleared prev new).foldl replayMapping m = m := by
  cases prev <;> cases new <;> rfl

theorem UtxoEffect.replayMapping (h : UtxoEffect m u m' events) :
    events.foldl replayMapping m = m' := by
  cases h with
  | registered | deregistered =>
    rw [List.foldl_append, foldl_replayMapping_keyChangeEvents]
    rfl
  | asset => rfl

section
variable {Owner : Type} {rt : Runtime Owner} {s : State}

theorem lookup_processUtxos (us : List ObservedUtxo) (k : CardanoRewardAddressBytes × UtxoId) :
    (processUtxos rt s us).1.mapping.lookup k = lastEntry s.mapping us k := by
  induction us using List.reverseRecOn with
  | nil => rfl
  | append_singleton us u ih =>
    obtain ⟨events, heffect, -⟩ := processUtxo_effect rt (processUtxos rt s us) u
    rw [processUtxos_concat, heffect.lookup, ih, lastEntry_concat]

theorem replayMapping_processUtxos (us : List ObservedUtxo) : ∃ events,
    (processUtxos rt s us).1.events = s.events ++ events ∧
    events.foldl replayMapping s.mapping = (processUtxos rt s us).1.mapping := by
  induction us using List.reverseRecOn with
  | nil => exact ⟨[], (List.append_nil _).symm, rfl⟩
  | append_singleton us u ih =>
    obtain ⟨events, hevents, hreplay⟩ := ih
    obtain ⟨new, heffect, hnew⟩ := processUtxo_effect rt (processUtxos rt s us) u
    rw [processUtxos_concat]
    refine ⟨events ++ new, by rw [hnew, hevents, List.append_assoc], ?_⟩
    rw [List.foldl_append, hreplay, heffect.replayMapping]

/-- What is reported removed at a step was present before it exactly when the deregistration
observed there names a registered entry. -/
theorem removed_present_iff (pre : List ObservedUtxo) (u : ObservedUtxo) :
    (∃ events,
      (processUtxos rt s (pre ++ [u])).1.events = (processUtxos rt s pre).1.events ++ events ∧
      ∀ e, .mappingRemoved e ∈ events →
        (processUtxos rt s pre).1.mapping.lookup e.key = some e.dustPublicKey) ↔
    ∀ e, deregistration? u = some e → lastEntry s.mapping pre e.key = some e.dustPublicKey := by
  obtain ⟨new, heffect, hnew⟩ := processUtxo_effect rt (processUtxos rt s pre) u
  rw [processUtxos_concat]
  constructor
  · rintro ⟨events, hevents, h⟩ e he
    obtain rfl := List.append_cancel_left (hnew.symm.trans hevents)
    exact (lookup_processUtxos pre e.key).symm.trans (h e (heffect.mappingRemoved_mem.mpr he))
  · intro h
    refine ⟨new, hnew, fun e he => ?_⟩
    rw [lookup_processUtxos]
    exact h e (heffect.mappingRemoved_mem.mp he)

/-- The events of the mapping are an exact log of it for exactly the sequences in which every
deregistration names an entry that is registered at its turn. -/
theorem log_exact_iff (rt : Runtime Owner) (s : State) (us : List ObservedUtxo) :
    LogExact rt s us ↔ RemovesRegistered s.mapping us := by
  constructor
  · intro h pre u hpre
    exact (removed_present_iff pre u).mp (h.removed_present pre u hpre)
  · intro h
    exact ⟨fun pre u hpre => (removed_present_iff pre u).mpr (h pre u hpre),
      fun pre _ => replayMapping_processUtxos pre⟩

end

/-- The deregistration of a UTXO that was never registered is reported as a removal. -/
theorem log_reports_removal_of_nothing :
    RegistersOnce ∅ [sampleDeregistration 1 1 1] ∧
      ¬ LogExact silentRuntime sampleState [sampleDeregistration 1 1 1] := by
  refine ⟨⟨by decide, fun _ he => nomatch he⟩, fun h => ?_⟩
  have hlast := (removed_present_iff [] _).mp (h.removed_present [] _ List.prefix_rfl) _ rfl
  exact absurd hlast (by decide)

end MidnightNode.Pallet
