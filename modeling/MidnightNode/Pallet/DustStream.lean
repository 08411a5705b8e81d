import MidnightNode.Pallet.Registrations

/-!
# The stream of DUST events

What the ledger gets to see of cNIGHT: over a whole run of `process_tokens` calls, the events of the
executed system transactions are well bracketed for each nonce, and `UtxoOwners` holds the brackets
that are open. The registration of an owner may change between creation and spend; the key that
counts is the one stored at creation.
-/

namespace MidnightNode.Pallet
open CNight Ledger

/-- The events of one nonce, with the key that is stored for it: nothing, a creation, or a creation
followed by a destruction under the same key. -/
inductive Bracketed {Owner : Type} (api : Api Owner) :
    List (CNightGeneratesDustEvent Owner) → Option DustPublicKeyBytes → Prop
  | nothing : Bracketed api [] none
  | opened (hc : c.action = .create) (hk : api.dustPublicKey key.data = some c.owner) :
    Bracketed api [c] (some key)
  | closed (hc : c.action = .create) (hd : d.action = .destroy) (ho : d.owner = c.owner) :
    Bracketed api [c, d] none

/-- The UTXO of an observed creation. -/
def createdUtxo? (u : ObservedUtxo) : Option UtxoId :=
  match u.data with
  | .assetCreate data => some ⟨data.utxoTxHash, data.utxoTxIndex⟩
  | _ => none

def UtxoId.preimage (id : UtxoId) : List UInt8 := noncePreimage id.txHash id.index

theorem UtxoId.preimage_injective : Function.Injective UtxoId.preimage := by
  rintro ⟨h, i⟩ ⟨h', i'⟩ heq
  obtain ⟨hh, hi⟩ := Bytes.data_append_inj (List.append_cancel_left heq)
  exact congrArg₂ UtxoId.mk hh (beBytes_injective hi)

def Runtime.nonce {Owner : Type} (rt : Runtime Owner) (id : UtxoId) : H256 := rt.hashing id.preimage

/-! ## One observed UTXO -/

section
variable {Owner : Type} {rt : Runtime Owner} {s : State}

/-- What one observed UTXO does to the owners, with the event it contributes. -/
inductive DustEffect (rt : Runtime Owner) (owners : AList fun _ : H256 => DustPublicKeyBytes)
    (u : ObservedUtxo) : (AList fun _ : H256 => DustPublicKeyBytes) →
      List (CNightGeneratesDustEvent Owner) → Prop
  | quiet : DustEffect rt owners u owners []
  | create (id : UtxoId) (key : DustPublicKeyBytes) (e : CNightGeneratesDustEvent Owner)
      (hu : createdUtxo? u = some id) (ha : e.action = .create)
      (hn : e.nonce = rt.nonce id)
      (hk : rt.ledgerApi.dustPublicKey key.data = some e.owner) :
    DustEffect rt owners u (owners.insert e.nonce key) [e]
  | spend (key : DustPublicKeyBytes) (e : CNightGeneratesDustEvent Owner)
      (hl : owners.lookup e.nonce = some key) (ha : e.action = .destroy)
      (hk : rt.ledgerApi.dustPublicKey key.data = some e.owner) :
    DustEffect rt owners u (owners.erase e.nonce) [e]
  /-- A spend under a key the ledger cannot read. -/
  | lost (nonce : H256) (key : DustPublicKeyBytes) (hl : owners.lookup nonce = some key)
      (hk : rt.ledgerApi.dustPublicKey key.data = none) :
    DustEffect rt owners u (owners.erase nonce) []

theorem handleCreate_effect (hapi : rt.ledgerApi.RoundTrips) (hu : u.data = .assetCreate data) :
    ∃ new, DustEffect rt s.utxoOwners u (handleCreate rt s now data).1.utxoOwners new ∧
      (handleCreate rt s now data).2.toList.mapM rt.ledgerApi.dustEvent.deserialize = some new := by
  have hcode : CNightGeneratesDustActionType.ofCode? UtxoActionType.create.toU8 = some .create := rfl
  unfold handleCreate
  cases hreg : s.getRegistration data.owner with
  | none => exact ⟨[], .quiet, rfl⟩
  | some key =>
    rcases Api.constructCnightGeneratesDustEvent_spec hapi data.value key.data now
      (rt.hashing (noncePreimage data.utxoTxHash data.utxoTxIndex)) hcode with ⟨-, e, he⟩ | ⟨o, bytes, ho, hok, hde⟩
    · simp only [he]
      exact ⟨[], .quiet, rfl⟩
    · simp only [hok]
      have hid : createdUtxo? u = some ⟨data.utxoTxHash, data.utxoTxIndex⟩ := by
        simp only [createdUtxo?, hu]
      refine ⟨_, .create _ key ⟨data.value, o, now, .create, _⟩ hid rfl rfl ho, ?_⟩
      simp [hde]

theorem handleSpend_effect (hapi : rt.ledgerApi.RoundTrips) (u : ObservedUtxo) :
    ∃ new, DustEffect rt s.utxoOwners u (handleSpend rt s now data).1.utxoOwners new ∧
      (handleSpend rt s now data).2.toList.mapM rt.ledgerApi.dustEvent.deserialize = some new := by
  have hcode : CNightGeneratesDustActionType.ofCode? UtxoActionType.destroy.toU8 =
    some .destroy := rfl
  unfold handleSpend
  dsimp only
  cases hl : s.utxoOwners.lookup (rt.hashing (noncePreimage data.utxoTxHash data.utxoTxIndex)) with
  | none => exact ⟨[], .quiet, rfl⟩
  | some key =>
    rcases Api.constructCnightGeneratesDustEvent_spec hapi data.value key.data now
      (rt.hashing (noncePreimage data.utxoTxHash data.utxoTxIndex)) hcode with ⟨hk, e, he⟩ | ⟨o, bytes, ho, hok, hde⟩
    · simp only [he]
      exact ⟨[], .lost _ key hl hk, rfl⟩
    · simp only [hok]
      refine ⟨_, .spend key ⟨data.value, o, now, .destroy, _⟩ hl rfl ho, ?_⟩
      simp [hde]

theorem processUtxo_dust (hapi : rt.ledgerApi.RoundTrips) (acc : State × List (List UInt8))
    (u : ObservedUtxo) : ∃ new bytes,
      DustEffect rt acc.1.utxoOwners u (processUtxo rt acc u).1.utxoOwners new ∧
      (processUtxo rt acc u).2 = acc.2 ++ bytes ∧
      bytes.mapM rt.ledgerApi.dustEvent.deserialize = some new := by
  obtain ⟨header, data⟩ := u
  cases data with
  | registration data =>
    simp only [processUtxo, State.handleRegistration_eq]
    exact ⟨[], [], .quiet, (List.append_nil _).symm, rfl⟩
  | deregistration data =>
    simp only [processUtxo, State.handleRegistrationRemoval_eq]
    exact ⟨[], [], .quiet, (List.append_nil _).symm, rfl⟩
  | assetCreate data =>
    obtain ⟨new, heffect, hread⟩ := handleCreate_effect hapi (u := ⟨header, .assetCreate data⟩) rfl
    exact ⟨new, _, heffect, rfl, hread⟩
  | assetSpend data =>
    obtain ⟨new, heffect, hread⟩ := handleSpend_effect hapi ⟨header, .assetSpend data⟩
    exact ⟨new, _, heffect, rfl, hread⟩

structure StreamInv (rt : Runtime Owner) (created : List UtxoId)
    (stream : List (CNightGeneratesDustEvent Owner))
    (owners : AList fun _ : H256 => DustPublicKeyBytes) : Prop where
  bracketed : ∀ n, Bracketed rt.ledgerApi (stream.filter fun e => decide (e.nonce = n))
    (owners.lookup n)
  nonces : ∀ e ∈ stream, e.nonce ∈ created.map rt.nonce

variable {created : List UtxoId} {stream new : List (CNightGeneratesDustEvent Owner)}
variable {owners owners' : AList fun _ : H256 => DustPublicKeyBytes}

theorem StreamInv.init : StreamInv rt [] [] ∅ := by
  refine ⟨fun n => ?_, fun e he => nomatch he⟩
  rw [AList.lookup_empty]
  exact .nothing

/-- An event with another nonce, or none, and an unchanged owner: the bracket stays. -/
theorem StreamInv.bracketed_of_ne (h : StreamInv rt created stream owners)
    (hn : ∀ e ∈ new, e.nonce ≠ n) (ho : owners'.lookup n = owners.lookup n) :
    Bracketed rt.ledgerApi ((stream ++ new).filter fun e => decide (e.nonce = n))
      (owners'.lookup n) := by
  have hnil : new.filter (fun e => decide (e.nonce = n)) = [] :=
    List.filter_eq_nil_iff.mpr fun e he => by simpa using hn e he
  rw [List.filter_append, hnil, List.append_nil, ho]
  exact h.bracketed n

theorem Bracketed.of_stored {api : Api Owner} (h : Bracketed api l stored)
    (hkey : stored = some key) :
    ∃ c, l = [c] ∧ c.action = .create ∧ api.dustPublicKey key.data = some c.owner := by
  cases h with
  | nothing | closed => cases hkey
  | opened hc hk =>
    cases hkey
    exact ⟨_, rfl, hc, hk⟩

/-- The step lemma: an observed UTXO whose creation is seen for the first time keeps the stream
bracketed. -/
theorem StreamInv.effect (h : StreamInv rt created stream owners)
    (heffect : DustEffect rt owners u owners' new)
    (hfresh : ((created ++ (createdUtxo? u).toList).map rt.nonce).Nodup) :
    StreamInv rt (created ++ (createdUtxo? u).toList) (stream ++ new) owners' := by
  have hmono : ∀ e ∈ stream, e.nonce ∈ (created ++ (createdUtxo? u).toList).map rt.nonce :=
    fun e he => List.map_append ▸ List.mem_append_left _ (h.nonces e he)
  cases heffect with
  | quiet =>
    refine ⟨fun n => h.bracketed_of_ne (fun _ he => nomatch he) rfl, ?_⟩
    rw [List.append_nil]
    exact hmono
  | create id key e hu ha hn hk =>
    rw [hu] at hfresh hmono ⊢
    rw [List.map_append] at hfresh
    -- no event of the stream has the nonce of a UTXO that is created now
    have hnew : ∀ x ∈ stream, x.nonce ≠ e.nonce := fun x hx heq =>
      List.disjoint_of_nodup_append hfresh (h.nonces x hx) (by simp [heq, hn])
    refine ⟨fun n => ?_, fun x hx => ?_⟩
    · by_cases hne : e.nonce = n
      · subst hne
        have hnil : stream.filter (fun x => decide (x.nonce = e.nonce)) = [] :=
          List.filter_eq_nil_iff.mpr fun x hx => by simpa using hnew x hx
        rw [List.filter_append, hnil, AList.lookup_insert]
        simpa using Bracketed.opened ha hk
      · exact h.bracketed_of_ne (by simpa using hne) (AList.lookup_insert_ne (Ne.symm hne))
    · rcases List.mem_append.mp hx with hx | hx
      · exact hmono x hx
      · rw [List.mem_singleton.mp hx, hn]
        simp
  | spend key e hl ha hk =>
    obtain ⟨c, hc, hcreate, hck⟩ := (h.bracketed e.nonce).of_stored hl
    have howner : e.owner = c.owner := Option.some.inj (hk.symm.trans hck)
    refine ⟨fun n => ?_, fun x hx => ?_⟩
    · by_cases hne : e.nonce = n
      · subst hne
        rw [List.filter_append, hc, AList.lookup_erase]
        simpa using Bracketed.closed hcreate ha howner
      · exact h.bracketed_of_ne (by simpa using hne) (AList.lookup_erase_ne (Ne.symm hne))
    · rcases List.mem_append.mp hx with hx | hx
      · exact hmono x hx
      · have hmem : c ∈ stream.filter fun x => decide (x.nonce = e.nonce) := by simp [hc]
        obtain ⟨hcs, hcn⟩ := List.mem_filter.mp hmem
        rw [List.mem_singleton.mp hx, ← of_decide_eq_true hcn]
        exact hmono c hcs
  | lost nonce key hl hk =>
    obtain ⟨c, -, -, hck⟩ := (h.bracketed nonce).of_stored hl
    exact absurd (hk.symm.trans hck) (by simp)

/-! ## The loop and the call -/

theorem filterMap_createdUtxo_concat (us : List ObservedUtxo) (u : ObservedUtxo) :
    (us ++ [u]).filterMap createdUtxo? = us.filterMap createdUtxo? ++ (createdUtxo? u).toList := by
  rw [List.filterMap_append]
  cases hu : createdUtxo? u <;> simp [hu]

theorem processUtxos_stream (hapi : rt.ledgerApi.RoundTrips)
    (h : StreamInv rt created stream s.utxoOwners) (us : List ObservedUtxo)
    (hfresh : ((created ++ us.filterMap createdUtxo?).map rt.nonce).Nodup) : ∃ new,
      (processUtxos rt s us).2.mapM rt.ledgerApi.dustEvent.deserialize = some new ∧
      StreamInv rt (created ++ us.filterMap createdUtxo?) (stream ++ new)
        (processUtxos rt s us).1.utxoOwners := by
  induction us using List.reverseRecOn with
  | nil =>
    refine ⟨[], rfl, ?_⟩
    rw [List.filterMap_nil, List.append_nil, List.append_nil]
    exact h
  | append_singleton us u ih =>
    rw [filterMap_createdUtxo_concat, ← List.append_assoc] at hfresh ⊢
    have hpre := hfresh.sublist ((List.sublist_append_left _ _).map _)
    obtain ⟨new, hread, hinv⟩ := ih hpre
    obtain ⟨new', bytes, heffect, hbytes, hread'⟩ :=
      processUtxo_dust hapi (processUtxos rt s us) u
    refine ⟨new ++ new', ?_, ?_⟩
    · rw [processUtxos_concat, hbytes, List.mapM_append, hread, hread']
      rfl
    · rw [processUtxos_concat, ← List.append_assoc]
      exact hinv.effect heffect hfresh

/-- The events of the executed system transactions, in order. -/
def executedEvents (rt : Runtime Owner) (s : State) : List (CNightGeneratesDustEvent Owner) :=
  s.executed.flatMap fun tx => (rt.ledgerApi.dustUpdate.deserialize tx).getD []

/-- The UTXOs a step of the run processes: those of a call that succeeds and is not skipped. -/
def processedBy (rt : Runtime Owner) (s : State) : BlockAction → List ObservedUtxo
  | .processTokens c =>
    match processTokens rt c.exec s c.origin c.utxos c.nextCardanoPosition with
    | .ok _ => if s.storageVersion < currentStorageVersion then [] else c.utxos
    | .error _ => []
  | .onFinalize => []

/-- The sequence of observed UTXOs that a run processes. -/
def processedUtxos (rt : Runtime Owner) : State → List BlockAction → List ObservedUtxo
  | _, [] => []
  | s, a :: actions => processedBy rt s a ++ processedUtxos rt (s.step rt a) actions

/-- Handing over the events of a batch adds exactly these events to the executed ones. -/
theorem applyDustEvents_stream (hapi : rt.ledgerApi.RoundTrips)
    (hread : events.mapM rt.ledgerApi.dustEvent.deserialize = some new)
    (h : applyDustEvents rt exec s events next = .ok s') :
    executedEvents rt s' = executedEvents rt s ++ new ∧ s'.utxoOwners = s.utxoOwners := by
  obtain ⟨tx, htx, hde⟩ := Api.constructCnightGeneratesDustSystemTx_spec hapi hread
  rcases applyDustEvents_inv h with ⟨rfl, rfl | ⟨e, he⟩⟩ | ⟨tx', hash, -, htx', -, rfl⟩
  · cases hread
    exact ⟨(List.append_nil _).symm, rfl⟩
  · cases htx.symm.trans he
  · cases htx.symm.trans htx'
    refine ⟨?_, rfl⟩
    simp [executedEvents, hde]

theorem StreamInv.step (hapi : rt.ledgerApi.RoundTrips) (a : BlockAction)
    (h : StreamInv rt created (executedEvents rt s) s.utxoOwners)
    (hfresh : ((created ++ (processedBy rt s a).filterMap createdUtxo?).map rt.nonce).Nodup) :
    StreamInv rt (created ++ (processedBy rt s a).filterMap createdUtxo?)
      (executedEvents rt (s.step rt a)) (s.step rt a).utxoOwners := by
  have hskip : StreamInv rt (created ++ [].filterMap createdUtxo?) (executedEvents rt s)
      s.utxoOwners := by
    rw [List.filterMap_nil, List.append_nil]
    exact h
  cases a with
  | onFinalize => exact hskip
  | processTokens c =>
    simp only [processedBy, State.step, State.dispatch] at hfresh ⊢
    cases hcall : processTokens rt c.exec s c.origin c.utxos c.nextCardanoPosition with
    | error e => exact hskip
    | ok s' =>
      rw [hcall] at hfresh
      rcases processTokens_inv hcall with
        ⟨hversion, rfl⟩ | ⟨hversion, -, s₁, events, hloop, happly⟩
      · simp only [hversion, if_true]
        exact hskip
      · simp only [hversion, if_false] at hfresh ⊢
        have hstart : StreamInv rt created (executedEvents rt s)
          { s with inherentExecutedThisBlock := true }.utxoOwners := h
        obtain ⟨new, hread, hinv⟩ := processUtxos_stream hapi hstart c.utxos hfresh
        have hframe := processUtxos_frame rt { s with inherentExecutedThisBlock := true } c.utxos
        rw [hloop] at hread hinv hframe
        obtain ⟨hexecuted, howners⟩ := applyDustEvents_stream hapi hread happly
        have hbefore : s₁.executed = s.executed := (congrArg State.executed hframe :)
        rw [hexecuted, howners, executedEvents, hbefore]
        exact hinv

theorem StreamInv.run (hapi : rt.ledgerApi.RoundTrips) (actions : List BlockAction)
    (h : StreamInv rt created (executedEvents rt s) s.utxoOwners)
    (hfresh : ((created ++ (processedUtxos rt s actions).filterMap createdUtxo?).map
      rt.nonce).Nodup) :
    StreamInv rt (created ++ (processedUtxos rt s actions).filterMap createdUtxo?)
      (executedEvents rt (s.run rt actions)) (s.run rt actions).utxoOwners := by
  induction actions generalizing s created with
  | nil =>
    rw [processedUtxos, List.filterMap_nil, List.append_nil]
    exact h
  | cons a actions ih =>
    rw [processedUtxos, List.filterMap_append, ← List.append_assoc] at hfresh ⊢
    have hstep := h.step hapi a (hfresh.sublist ((List.sublist_append_left _ _).map _))
    exact ih hstep hfresh

/-- In every run in which each UTXO is created at most once, the events of the executed system
transactions are bracketed for every nonce, and the owners are those of the open brackets. The hash
is only asked to tell the created UTXOs of the run apart; a UTXO may be spent at any time. -/
theorem dust_stream_bracketed (rt : Runtime Owner) (hapi : rt.ledgerApi.RoundTrips) (s : State)
    (howners : s.utxoOwners = ∅) (hexecuted : s.executed = []) (actions : List BlockAction)
    (honce : ((processedUtxos rt s actions).filterMap createdUtxo?).Nodup)
    (hhash : Set.InjOn rt.hashing
      {l | ∃ id ∈ (processedUtxos rt s actions).filterMap createdUtxo?, l = id.preimage})
    (n : H256) :
    Bracketed rt.ledgerApi
      ((executedEvents rt (s.run rt actions)).filter fun e => decide (e.nonce = n))
      ((s.run rt actions).utxoOwners.lookup n) := by
  have hinit : StreamInv rt [] (executedEvents rt s) s.utxoOwners := by
    rw [executedEvents, hexecuted, howners]
    exact .init
  have hfresh : (((processedUtxos rt s actions).filterMap createdUtxo?).map rt.nonce).Nodup :=
    honce.map_on fun id hid id' hid' heq =>
      UtxoId.preimage_injective (hhash ⟨id, hid, rfl⟩ ⟨id', hid', rfl⟩ heq)
  exact (hinit.run hapi actions hfresh).bracketed n

end

/-! ## A sample run -/

/-- A serialization with numbers in unary. -/
def sampleEventCodec : Ledger.Codec (CNightGeneratesDustEvent UInt8) where
  serialize e := some ((match e.action with | .create => 0 | .destroy => 1) :: e.owner ::
    (e.nonce.data ++ (List.replicate e.value 0 ++ 1 :: List.replicate e.time 0)))
  deserialize
    | a :: owner :: rest => (Bytes.ofList? 32 (rest.take 32)).map fun nonce =>
      { value := ((rest.drop 32).takeWhile (· == 0)).length
        owner
        time := ((rest.drop 32).dropWhile (· == 0)).length - 1
        action := if a = 0 then .create else .destroy
        nonce }
    | _ => none

theorem sampleEventCodec_roundTrips : sampleEventCodec.RoundTrips := by
  rintro ⟨value, owner, time, action, nonce⟩
  refine ⟨_, rfl, ?_⟩
  have htake : (nonce.data ++ (List.replicate value 0 ++ 1 :: List.replicate time 0)).take 32
      = nonce.data := by simp [nonce.length_eq]
  have hdrop : (nonce.data ++ (List.replicate value 0 ++ 1 :: List.replicate time 0)).drop 32
      = List.replicate value 0 ++ 1 :: List.replicate time 0 := by simp [nonce.length_eq]
  simp only [sampleEventCodec, htake, hdrop]
  cases action <;> simp [Bytes.ofList?, nonce.length_eq]

/-- Byte strings in a row, each byte marked by a `1` and each string ended by a `0`. -/
def escape (l : List (List UInt8)) : List UInt8 :=
  l.flatMap fun bytes => bytes.flatMap (fun b => [1, b]) ++ [0]

def unescape : List UInt8 → List (List UInt8)
  | 0 :: rest => [] :: unescape rest
  | _ :: b :: rest => (unescape rest).modifyHead (b :: ·)
  | _ => []

theorem unescape_escape (l : List (List UInt8)) : unescape (escape l) = l := by
  have hone (bytes rest : List UInt8) : unescape (bytes.flatMap (fun b => [1, b]) ++ 0 :: rest) =
      bytes :: unescape rest := by
    induction bytes with
    | nil => rfl
    | cons b bytes ih =>
      change (unescape (bytes.flatMap (fun b => [1, b]) ++ 0 :: rest)).modifyHead (b :: ·) = _
      rw [ih]
      rfl
  induction l with
  | nil => rfl
  | cons bytes l ih =>
    rw [escape, List.flatMap_cons, List.append_assoc, List.singleton_append, hone]
    exact congrArg _ ih

def sampleApi : Api UInt8 where
  dustPublicKey := List.head?
  dustEvent := sampleEventCodec
  dustUpdate :=
    { serialize := fun events => (events.mapM sampleEventCodec.serialize).map escape
      deserialize := fun bytes => (unescape bytes).mapM sampleEventCodec.deserialize }

theorem Codec.RoundTrips.mapM {c : Ledger.Codec α} (h : c.RoundTrips) (l : List α) :
    ∃ bytes, l.mapM c.serialize = some bytes ∧ bytes.mapM c.deserialize = some l := by
  induction l with
  | nil => exact ⟨[], rfl, rfl⟩
  | cons a l ih =>
    obtain ⟨bytes, hser, hde⟩ := ih
    obtain ⟨b, hb, ha⟩ := h a
    refine ⟨b :: bytes, ?_, ?_⟩
    · rw [List.mapM_cons, hb, hser]
      rfl
    · rw [List.mapM_cons, ha, hde]
      rfl

theorem sampleApi_roundTrips : sampleApi.RoundTrips where
  dustEvent := sampleEventCodec_roundTrips
  dustUpdate events := by
    obtain ⟨bytes, hser, hde⟩ := Codec.RoundTrips.mapM sampleEventCodec_roundTrips events
    refine ⟨escape bytes, ?_, ?_⟩
    · simp only [sampleApi, hser, Option.map_some]
    · simp only [sampleApi, unescape_escape, hde]

/-- The nonce of a UTXO is the hash of its transaction. -/
def sampleRuntime : Runtime UInt8 where
  hashing l := ⟨(l.drop 12 ++ List.replicate 32 0).take 32, by simp⟩
  ledgerApi := sampleApi

def sampleCreate (block : Nat) (utxo : UInt8) : ObservedUtxo :=
  ⟨sampleHeader block utxo, .assetCreate ⟨5, sampleAddress, .fill 32 utxo, 0⟩⟩

def sampleSpend (block : Nat) (utxo : UInt8) : ObservedUtxo :=
  ⟨sampleHeader block utxo, .assetSpend ⟨5, sampleAddress, .fill 32 utxo, 0, .fill 32 9⟩⟩

def sampleCall (block : Nat) (utxos : List ObservedUtxo) : Call where
  exec _ := .ok (.fill 32 0)
  origin := .none
  utxos
  nextCardanoPosition := .minForBlock (block + 1)

/-- cNIGHT of a registered owner is created in one block and spent in the next, after the owner's
registration is gone. -/
def sampleActions : List BlockAction :=
  [.processTokens (sampleCall 1 [sampleRegistration 1 1 7, sampleCreate 1 5]), .onFinalize,
    .processTokens (sampleCall 2 [sampleDeregistration 2 1 7, sampleSpend 2 5])]

theorem dust_stream_bracketed_sample :
    (executedEvents sampleRuntime (sampleState.run sampleRuntime sampleActions)).length = 2 ∧
    Bracketed sampleApi
      ((executedEvents sampleRuntime (sampleState.run sampleRuntime sampleActions)).filter
        fun e => decide (e.nonce = .fill 32 5))
      ((sampleState.run sampleRuntime sampleActions).utxoOwners.lookup (.fill 32 5)) := by
  have hcreated : (processedUtxos sampleRuntime sampleState sampleActions).filterMap createdUtxo?
      = [⟨.fill 32 5, 0⟩] := by decide +kernel
  refine ⟨by decide +kernel, dust_stream_bracketed sampleRuntime sampleApi_roundTrips sampleState
    rfl rfl sampleActions ?_ ?_ _⟩
  · rw [hcreated]
    exact List.nodup_singleton _
  · rw [hcreated]
    rintro _ ⟨id, hid, rfl⟩ _ ⟨id', hid', rfl⟩ -
    rw [List.mem_singleton.mp hid, List.mem_singleton.mp hid']

end MidnightNode.Pallet
