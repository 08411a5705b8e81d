import MidnightNode.CNight.SlidingWindow

/-!
# The window covers its blocks

The events held between the bounds of the window are the events the database has between them,
whatever queries and refreshes have run and however far the database has grown. The step lemma is
about one refresh: it changes what is held and what should be held in the same way, by dropping a
front and appending one list. So any relation between the two that survives this is an invariant;
it is used for equality up to order (`List.Perm`) and for equality.
-/

namespace MidnightNode.CNight

open CardanoPosition SortedSlice

/-! ## Blocks -/

/-- The events of the blocks `[lo, hi]`. -/
def blockRange (lo hi : Nat) (l : List ObservedUtxo) : List ObservedUtxo :=
  slice ObservedUtxo.blockNumber lo (hi + 1) l

theorem mem_blockRange : u ∈ blockRange lo hi l ↔ u ∈ l ∧ lo ≤ u.blockNumber ∧ u.blockNumber ≤ hi := by
  rw [blockRange, mem_slice, Nat.lt_succ_iff]

theorem sorted_blockNumber (h : SortedBy ObservedUtxo.key l) : SortedBy ObservedUtxo.blockNumber l := by
  refine h.imp fun {u v} huv => ?_
  rcases key_le_iff.mp huv with hlt | ⟨heq, _⟩
  · exact hlt.le
  · exact heq.le

theorem sorted_blockRange (h : SortedBy ObservedUtxo.key l) :
    SortedBy ObservedUtxo.key (blockRange lo hi l) :=
  h.filter _

theorem slice_minForBlock_maxForBlock (h : ∀ u ∈ l, u.position.txIndexInBlock < i32Max) (lo hi : Nat) :
    slice ObservedUtxo.key (CardanoPosition.minForBlock lo).key (CardanoPosition.maxForBlock hi).key l
      = blockRange lo hi l := by
  refine List.filter_congr fun u hu => decide_eq_decide.mpr ?_
  have htx := h u hu
  rw [show u.key = u.position.key from rfl, key_le_iff, key_lt_iff]
  simp only [CardanoPosition.minForBlock, CardanoPosition.maxForBlock, ObservedUtxo.blockNumber]
  omega

theorem filter_blockRange (lo hi n : Nat) :
    (blockRange lo hi l).filter (fun u => decide (n ≤ u.blockNumber)) =
      blockRange (max lo n) hi l := by
  rw [blockRange, slice, List.filter_filter, blockRange, slice]
  refine List.filter_congr fun u _ => ?_
  rw [← Bool.decide_and]
  exact decide_eq_decide.mpr (by omega)

theorem blockRange_eq_nil (l : List ObservedUtxo) (h : hi < lo) : blockRange lo hi l = [] :=
  slice_eq_nil_iff.mpr fun _ _ _ => by omega

theorem blockRange_append (h : SortedBy ObservedUtxo.key l) (hlo : lo ≤ mid + 1) (hhi : mid ≤ hi) :
    blockRange lo mid l ++ blockRange (mid + 1) hi l = blockRange lo hi l :=
  (sorted_blockNumber h).slice_append_slice hlo (by omega)

/-! ## The events of the database -/

/-- The ordered events of the database for a configuration; none if it cannot be resolved. -/
def dbEvents (lib : CardanoLib) (db : DbSync) (cfg : CNightAddresses) : List ObservedUtxo :=
  match resolveIds lib db cfg with
  | .ok ids => orderedEvents (eventStreams lib db cfg ids)
  | .error _ => []

theorem dbEvents_eq (h : resolveIds lib db cfg = .ok ids) :
    dbEvents lib db cfg = orderedEvents (eventStreams lib db cfg ids) := by
  rw [dbEvents, h]

theorem dbEvents_sorted (lib : CardanoLib) (db : DbSync) (cfg : CNightAddresses) :
    SortedBy ObservedUtxo.key (dbEvents lib db cfg) := by
  unfold dbEvents
  split
  · exact orderedEvents_sorted
  · exact .nil

theorem txIndex_lt_of_mem_dbEvents (hu : u ∈ dbEvents lib db cfg) :
    u.position.txIndexInBlock < i32Max := by
  unfold dbEvents at hu
  split at hu
  · exact txIndex_lt_of_mem_orderedEvents hu
  · cases hu

/-- No row limit is reached in the pull of a planned refresh. -/
def PullComplete (lib : CardanoLib) (db : DbSync) (c : Cache) (p : RefreshPlan) : Prop :=
  ∀ ids, resolveIds lib db c.cnightAddresses = .ok ids →
    cutOff (eventStreams lib db c.cnightAddresses ids) (CardanoPosition.minForBlock p.fromBlock).key
      (CardanoPosition.maxForBlock p.targetEnd).key largeLimit = []

theorem pull_eq_blockRange (hcomplete : PullComplete lib db c p) (h : c.pull lib db p = .ok extension) :
    extension = blockRange p.fromBlock p.targetEnd (dbEvents lib db c.cnightAddresses) := by
  rw [← slice_minForBlock_maxForBlock fun u hu => txIndex_lt_of_mem_dbEvents hu]
  cases hids : resolveIds lib db c.cnightAddresses with
  | error e =>
    rw [Cache.pull, bulkPull_of_error hids] at h
    cases h
  | ok ids =>
    rw [Cache.pull, bulkPull_eq hids] at h
    split at h
    · split at h
      · cases h
        rw [fetched_eq_slice_of_cutOff (hcomplete ids hids), dbEvents_eq hids]
      · cases h
    · cases h

/-! ## Growth -/

/-- A block number above all blocks of the database. -/
def DbSync.Past (db : DbSync) (n : Nat) : Prop := ∀ b ∈ db.blocks, b.blockNumber < n

/-- New rows are appended, and only in blocks past the ones there. -/
def GrowsRows (past : Nat → Prop) (toPos : ρ → RowPosition) (rows rows' : List ρ) : Prop :=
  ∃ new, rows' = rows ++ new ∧ ∀ r ∈ new, past (toPos r).blockNumber

/-- The database follows the chain: blocks and their rows are added at the end, an asset keeps its
id, and an asset that was not known had no rows. -/
structure DbSync.Grows (db db' : DbSync) : Prop where
  blocks : ∃ new, db'.blocks = db.blocks ++ new ∧ ∀ b ∈ new, db.Past b.blockNumber
  registrations : ∀ address ident, GrowsRows db.Past (·.toRowPosition)
    (db.registrations address ident) (db'.registrations address ident)
  deregistrations : ∀ address, GrowsRows db.Past (·.toRowPosition)
    (db.deregistrations address) (db'.deregistrations address)
  assetCreates : ∀ ident, GrowsRows db.Past (·.toRowPosition)
    (db.assetCreates ident) (db'.assetCreates ident)
  assetSpends : ∀ ident, GrowsRows db.Past (·.toRowPosition)
    (db.assetSpends ident) (db'.assetSpends ident)
  multiAssetId : ∀ {policy name ident}, db.multiAssetId policy name = some ident →
    db'.multiAssetId policy name = some ident
  newAsset : ∀ {policy name ident}, db.multiAssetId policy name = none →
    db'.multiAssetId policy name = some ident →
    (∀ address, db.registrations address ident = []) ∧ db.assetCreates ident = [] ∧
      db.assetSpends ident = []

/-- The blocks up to `n` have been reached by the database. -/
def DbSync.Reached (db : DbSync) (n : Nat) : Prop := ∃ b ∈ db.blocks, n ≤ b.blockNumber

theorem DbSync.Reached.grows {db : DbSync} (h : db.Reached n) (hg : db.Grows db') : db'.Reached n := by
  obtain ⟨b, hb, hle⟩ := h
  obtain ⟨new, heq, _⟩ := hg.blocks
  exact ⟨b, heq ▸ List.mem_append_left _ hb, hle⟩

theorem GrowsRows.blockRange_eq {db : DbSync} {toPos : ρ → RowPosition} {rows rows' : List ρ}
    {decode : ρ → Option ObservedUtxo} {hs hp hs'} (h : GrowsRows db.Past toPos rows rows')
    (hreached : db.Reached hi) (lo : Nat) :
    blockRange lo hi (EventStream.ofRows toPos decode rows' hs' hp).events =
      blockRange lo hi (EventStream.ofRows toPos decode rows hs hp).events := by
  obtain ⟨new, rfl, hnew⟩ := h
  obtain ⟨b, hb, hle⟩ := hreached
  have hnil : blockRange lo hi
      ((new.map fun r => ((toPos r).toPosition, decode r)).filterMap Prod.snd) = [] := by
    refine slice_eq_nil_iff.mpr fun u hu _ => ?_
    obtain ⟨r, hr, hru⟩ := List.mem_filterMap.mp hu
    obtain ⟨row, hrow, rfl⟩ := List.mem_map.mp hr
    have hpos : u.blockNumber = (toPos row).blockNumber :=
      congrArg CardanoPosition.blockNumber (hp row u hru)
    have := hnew row hrow b hb
    omega
  simp only [EventStream.events, EventStream.ofRows, List.map_append, List.filterMap_append]
  rw [blockRange, slice_append]
  exact (congrArg (_ ++ ·) hnil).trans (List.append_nil _)

/-- The id of an asset as the database grows: it stays, or it belongs to a new asset. -/
def GrownIdent (db : DbSync) (o o' : Option Int) : Prop :=
  o' = o ∨ o = none ∧ ∃ ident, o' = some ident ∧ (∀ address, db.registrations address ident = []) ∧
    db.assetCreates ident = [] ∧ db.assetSpends ident = []

theorem DbSync.Grows.ident (hg : db.Grows db') (policy name : List UInt8) :
    GrownIdent db (db.multiAssetId policy name) (db'.multiAssetId policy name) := by
  cases h : db.multiAssetId policy name with
  | some ident => exact .inl (hg.multiAssetId h)
  | none =>
    cases h' : db'.multiAssetId policy name with
    | none => exact .inl rfl
    | some ident => exact .inr ⟨rfl, ident, rfl, hg.newAsset h h'⟩

theorem GrownIdent.blockRange_eq {db : DbSync} {o o' : Option Int} (h : GrownIdent db o o')
    {f f' : Int → EventStream}
    (hf : ∀ ident, blockRange lo hi (f' ident).events = blockRange lo hi (f ident).events)
    (hnew : ∀ ident, (∀ address, db.registrations address ident = []) →
      db.assetCreates ident = [] → db.assetSpends ident = [] → (f ident).rows = []) :
    blockRange lo hi (o'.elim .empty f').events = blockRange lo hi (o.elim .empty f).events := by
  rcases h with rfl | ⟨rfl, ident, rfl, hreg, hcreate, hspend⟩
  · cases o' with
    | none => rfl
    | some ident => exact hf ident
  · refine (hf ident).trans ?_
    rw [EventStream.events, hnew ident hreg hcreate hspend]
    rfl

/-- A configuration resolves in a grown database as it did before, up to new assets. -/
theorem resolveIds_grows (hg : db.Grows db') (lib : CardanoLib) (cfg : CNightAddresses) :
    (∃ e, resolveIds lib db cfg = .error e ∧ resolveIds lib db' cfg = .error e) ∨
    ∃ network auth auth' cnight cnight', resolveIds lib db cfg = .ok ⟨network, auth, cnight⟩ ∧
      resolveIds lib db' cfg = .ok ⟨network, auth', cnight'⟩ ∧ GrownIdent db auth auth' ∧
      GrownIdent db cnight cnight' := by
  unfold resolveIds
  cases lib.fromBech32 cfg.mappingValidatorAddress with
  | error e => exact .inl ⟨_, rfl, rfl⟩
  | ok address =>
    cases hnet : address.networkId with
    | error e => exact .inl ⟨.networkId e, by simp [hnet, bind, Except.bind, pure, Except.pure,
        throw, throwThe, MonadExceptOf.throw]⟩
    | ok network =>
      cases hpay : address.enterprisePayment? with
      | none => exact .inl ⟨.notEnterpriseAddress, by simp [hnet, hpay, bind, Except.bind, pure,
          Except.pure, throw, throwThe, MonadExceptOf.throw]⟩
      | some payment =>
        cases hscript : payment.toScriptHash? with
        | none => exact .inl ⟨.missingScriptHash, by simp [hnet, hpay, hscript, bind, Except.bind,
            pure, Except.pure, throw, throwThe, MonadExceptOf.throw]⟩
        | some policyId =>
          refine .inr ⟨network, _, _, _, _, ?_, ?_, hg.ident policyId.data
            cfg.authTokenAssetName.toUTF8.data.toList, hg.ident cfg.cnightPolicyId.data
            cfg.cnightAssetName.toUTF8.data.toList⟩
          all_goals simp [hnet, hpay, hscript, bind, Except.bind, pure, Except.pure]

/-- **Growth leaves the blocks that were reached alone.** -/
theorem blockRange_dbEvents_grows (hg : db.Grows db') (hreached : db.Reached hi) (lib : CardanoLib)
    (cfg : CNightAddresses) (lo : Nat) :
    blockRange lo hi (dbEvents lib db' cfg) = blockRange lo hi (dbEvents lib db cfg) := by
  rcases resolveIds_grows hg lib cfg with ⟨e, he, he'⟩ |
    ⟨network, auth, auth', cnight, cnight', hids, hids', hauth, hcnight⟩
  · rw [dbEvents, dbEvents, he, he']
  · have hreg : blockRange lo hi (auth'.elim .empty
        (registrationStream lib db' cfg ⟨network, auth', cnight'⟩)).events = blockRange lo hi
          (auth.elim .empty (registrationStream lib db cfg ⟨network, auth, cnight⟩)).events :=
      hauth.blockRange_eq (fun ident => (hg.registrations _ ident).blockRange_eq hreached lo)
        fun ident h _ _ => by simp [registrationStream, EventStream.ofRows, h]
    have hdereg : blockRange lo hi
        (deregistrationStream lib db' cfg ⟨network, auth', cnight'⟩).events = blockRange lo hi
          (deregistrationStream lib db cfg ⟨network, auth, cnight⟩).events :=
      (hg.deregistrations _).blockRange_eq hreached lo
    have hcreate : blockRange lo hi (cnight'.elim .empty
        (assetCreateStream lib db' ⟨network, auth', cnight'⟩)).events = blockRange lo hi
          (cnight.elim .empty (assetCreateStream lib db ⟨network, auth, cnight⟩)).events :=
      hcnight.blockRange_eq (fun ident => (hg.assetCreates ident).blockRange_eq hreached lo)
        fun ident _ h _ => by simp [assetCreateStream, EventStream.ofRows, h]
    have hspend : blockRange lo hi (cnight'.elim .empty
        (assetSpendStream lib db' ⟨network, auth', cnight'⟩)).events = blockRange lo hi
          (cnight.elim .empty (assetSpendStream lib db ⟨network, auth, cnight⟩)).events :=
      hcnight.blockRange_eq (fun ident => (hg.assetSpends ident).blockRange_eq hreached lo)
        fun ident _ _ h => by simp [assetSpendStream, EventStream.ofRows, h]
    rw [dbEvents_eq hids, dbEvents_eq hids']
    refine (filter_orderedEvents _).trans (.trans (congrArg sortUtxos ?_)
      (filter_orderedEvents _).symm)
    simp only [eventStreams, List.flatMap_cons, List.flatMap_nil]
    exact congr (congrArg _ hreg) (congr (congrArg _ hdereg) (congr (congrArg _ hcreate)
      (congrArg (· ++ []) hspend)))

/-! ## What one refresh does -/

/-- The plan of a refresh of the window `[ss, se]`: it ends at a later block the database has, and
either goes on behind the window or starts a new one past it. -/
structure RefreshPlan.Of (p : RefreshPlan) (db : DbSync) (ss se : Nat) : Prop where
  reached : db.Reached p.targetEnd
  later : se < p.targetEnd
  nonempty : p.fromBlock ≤ p.targetEnd
  shape : p.fromBlock = se + 1 ∧ ss ≤ p.newWindowStart ∨
    se + 1 < p.fromBlock ∧ p.newWindowStart = p.fromBlock

theorem DbSync.getHighestStableBlockLe_spec {db : DbSync}
    (h : db.getHighestStableBlockLe upper margin = some n) : db.Reached n ∧ n ≤ u32Max := by
  unfold getHighestStableBlockLe at h
  split at h
  · cases h
  · have hmem := List.max?_mem h
    rw [List.mem_filter] at hmem
    obtain ⟨b, hb, rfl⟩ := List.mem_map.mp hmem.1
    have hle := of_decide_eq_true hmem.2
    exact ⟨⟨b, hb, le_rfl⟩, by omega⟩

/-- Behind the window with a start that only moves forward, or a new window past it. -/
theorem planRefresh_spec (h : oldEnd < u32Max) (anchor start : Nat) (trim : Option Nat)
    (windowSize : Nat) :
    (planRefresh oldEnd anchor start trim windowSize).1 = oldEnd + 1 ∧
        start ≤ (planRefresh oldEnd anchor start trim windowSize).2 ∨
      oldEnd + 1 < (planRefresh oldEnd anchor start trim windowSize).1 ∧
        (planRefresh oldEnd anchor start trim windowSize).2 =
          (planRefresh oldEnd anchor start trim windowSize).1 := by
  have hsucc : saturatingAdd u32Max oldEnd 1 = oldEnd + 1 := by
    unfold saturatingAdd
    omega
  unfold planRefresh
  rw [hsucc]
  by_cases hjump : oldEnd + 1 < anchor
  · rw [if_pos hjump]
    exact .inr ⟨hjump, rfl⟩
  · rw [if_neg hjump]
    refine .inl ⟨rfl, ?_⟩
    cases trim with
    | none => exact le_rfl
    | some anchor => exact le_max_left ..

theorem Cache.plan_spec {c : Cache} (hss : c.snapshotStartBlock = some ss)
    (hse : c.snapshotEndBlock = some se) (h : c.plan db anchor target = some p) : p.Of db ss se := by
  unfold Cache.plan at h
  split at h
  · cases h
  · rename_i t ht
    obtain ⟨hreached, hmax⟩ := DbSync.getHighestStableBlockLe_spec ht
    simp only [hss, hse, Option.getD_some] at h
    split at h
    · cases h
    · rename_i hlater
      split at h
      · cases h
      · rename_i hfrom
        cases h
        exact ⟨hreached, not_le.mp hlater, not_lt.mp hfrom,
          planRefresh_spec (by omega) anchor ss _ c.windowSize⟩

theorem slideEvents_eq (hs : SortedBy ObservedUtxo.key existing) :
    slideEvents existing extension n =
      existing.filter (fun u => decide (n ≤ u.blockNumber)) ++ extension := by
  rw [slideEvents, drop_partitionPoint, dropWhile_eq_filter ((sorted_blockNumber hs).pairwise_lt n)]
  congr 1
  refine List.filter_congr fun u _ => ?_
  rw [← decide_not]
  exact decide_eq_decide.mpr not_lt

/-! ## The invariant -/

/-- A relation between what is held and what should be held that survives sliding. -/
structure SlideStable (R : List ObservedUtxo → List ObservedUtxo → Prop) : Prop where
  filter : ∀ {l m} (p : ObservedUtxo → Bool), R l m → R (l.filter p) (m.filter p)
  append : ∀ {l m} (x : List ObservedUtxo), R l m → R (l ++ x) (m ++ x)

theorem slideStable_perm : SlideStable List.Perm := ⟨fun p h => h.filter p, fun x h => h.append_right x⟩

theorem slideStable_eq : SlideStable Eq := ⟨fun _ h => h ▸ rfl, fun _ h => h ▸ rfl⟩

/-- The window `[ss, se]` of a cache that is to hold `events`: the held events are sorted, none is
past the window, and those from `ss` on are related to those that are to be held. -/
structure WindowInv (R : List ObservedUtxo → List ObservedUtxo → Prop) (events : List ObservedUtxo)
    (c : Cache) (ss se : Nat) : Prop where
  start_eq : c.snapshotStartBlock = some ss
  end_eq : c.snapshotEndBlock = some se
  sorted : SortedBy ObservedUtxo.key c.allEvents
  le_end : ∀ u ∈ c.allEvents, u.blockNumber ≤ se
  related : R (c.allEvents.filter fun u => decide (ss ≤ u.blockNumber)) (blockRange ss se events)

/-! ## Runs -/

/-- What can happen to a database and a cache, one at a time: the database grows, a query is
answered, a refresh runs whose pull reaches no row limit. -/
inductive WindowStep (lib : CardanoLib) : DbSync × Cache → DbSync × Cache → Prop
  | grow {db db' : DbSync} {c : Cache} (hg : db.Grows db') :
      WindowStep lib (db, c) (db', c)
  | query (config : CNightAddresses) (start : CardanoPosition) (tip : McBlockHash)
      (txCapacity limit : Nat) : WindowStep lib (db, c)
        (db, (c.getUtxosUpToCapacity lib db config start tip txCapacity limit).cache)
  | refresh (anchor target : Nat)
      (hcomplete : ∀ p, c.plan db anchor target = some p → PullComplete lib db c p) :
      WindowStep lib (db, c) (db, c.refresh lib db anchor target)

section Invariant
variable {R : List ObservedUtxo → List ObservedUtxo → Prop} {lib : CardanoLib} {db : DbSync}
  {events : List ObservedUtxo} {c : Cache} {ss se : Nat} {p : RefreshPlan}

/-- What should be held after a refresh is what should be held before it, without the blocks in
front of the new start, followed by the new blocks. -/
theorem RefreshPlan.Of.blockRange_eq (hp : p.Of db ss se) {l : List ObservedUtxo}
    (hl : SortedBy ObservedUtxo.key l) :
    blockRange p.newWindowStart p.targetEnd l =
      (blockRange ss se l).filter (fun u => decide (p.newWindowStart ≤ u.blockNumber)) ++
        blockRange (max p.fromBlock p.newWindowStart) p.targetEnd l := by
  have hlater := hp.later
  rw [filter_blockRange]
  rcases hp.shape with ⟨hfrom, hstart⟩ | ⟨hfrom, hstart⟩
  · rw [max_eq_right hstart, hfrom]
    rcases Nat.lt_or_ge (se + 1) p.newWindowStart with hpast | hin
    · have hnil : blockRange p.newWindowStart se l = [] := blockRange_eq_nil l (by omega)
      rw [hnil, List.nil_append, max_eq_right hpast.le]
    · rw [max_eq_left hin, blockRange_append hl hin hlater.le]
  · have hnil : blockRange (max ss p.fromBlock) se l = [] := blockRange_eq_nil l (by omega)
    rw [hstart, max_self, hnil, List.nil_append]

theorem RefreshPlan.Of.filter_eq (hp : p.Of db ss se) {l : List ObservedUtxo}
    (hle : ∀ u ∈ l, u.blockNumber ≤ se) :
    l.filter (fun u => decide (p.newWindowStart ≤ u.blockNumber)) =
      (l.filter fun u => decide (ss ≤ u.blockNumber)).filter
        fun u => decide (p.newWindowStart ≤ u.blockNumber) := by
  refine (filter_filter_of_imp fun u hu hnew => ?_).symm
  simp only [decide_eq_true_eq] at hnew ⊢
  have := hle u hu
  have := hp.shape
  omega

/-- **A refresh slides the window.** -/
theorem WindowInv.apply (hR : SlideStable R) (h : WindowInv R events c ss se) (hp : p.Of db ss se)
    (hs : SortedBy ObservedUtxo.key events)
    (hext : extension = blockRange p.fromBlock p.targetEnd events) :
    WindowInv R events (((c.slide extension p).writeStart p).writeEnd p) p.newWindowStart
      p.targetEnd := by
  have hlater := hp.later
  have hfrom : se < p.fromBlock := by
    have := hp.shape
    omega
  have hevents : (((c.slide extension p).writeStart p).writeEnd p).allEvents =
      c.allEvents.filter (fun u => decide (p.newWindowStart ≤ u.blockNumber)) ++ extension :=
    slideEvents_eq h.sorted
  have hold : ∀ u ∈ c.allEvents.filter (fun u => decide (p.newWindowStart ≤ u.blockNumber)),
      u.blockNumber ≤ se := fun u hu => h.le_end u (List.mem_of_mem_filter hu)
  have hnew : ∀ u ∈ extension, p.fromBlock ≤ u.blockNumber ∧ u.blockNumber ≤ p.targetEnd := by
    intro u hu
    rw [hext] at hu
    exact (mem_blockRange.mp hu).2
  refine ⟨rfl, rfl, ?_, ?_, ?_⟩
  · rw [hevents]
    refine SortedBy.append_iff.mpr ⟨h.sorted.filter _, ?_, fun u hu v hv => ?_⟩
    · rw [hext]
      exact sorted_blockRange hs
    · exact key_le_iff.mpr
        (.inl ((hold u hu).trans_lt (hfrom.trans_le (hnew v hv).1)))
  · intro u hu
    rw [hevents] at hu
    rcases List.mem_append.mp hu with hu | hu
    · exact (hold u hu).trans hlater.le
    · exact (hnew u hu).2
  · rw [hevents, List.filter_append, List.filter_filter, hext, filter_blockRange]
    simp only [Bool.and_self]
    rw [hp.filter_eq h.le_end, hp.blockRange_eq hs]
    exact hR.append _ (hR.filter _ h.related)

/-- A refresh leaves the cache alone or slides its window to a later block the database has. -/
theorem WindowInv.refresh (hR : SlideStable R) (h : WindowInv R events c ss se)
    (hs : SortedBy ObservedUtxo.key events)
    (hpull : ∀ p extension, c.plan db anchor target = some p → se < p.fromBlock →
      c.pull lib db p = .ok extension → extension = blockRange p.fromBlock p.targetEnd events) :
    c.refresh lib db anchor target = c ∨ ∃ ss' se', se < se' ∧ db.Reached se' ∧
      WindowInv R events (c.refresh lib db anchor target) ss' se' := by
  unfold Cache.refresh
  split
  · exact .inl rfl
  · rename_i p hp
    split
    · exact .inl rfl
    · rename_i extension hok
      have hof := Cache.plan_spec h.start_eq h.end_eq hp
      have hfrom : se < p.fromBlock := by
        have := hof.shape
        omega
      exact .inr ⟨_, _, hof.later, hof.reached, h.apply hR hof hs (hpull p extension hp hfrom hok)⟩

theorem WindowInv.grows {cfg : CNightAddresses} (h : WindowInv R (dbEvents lib db cfg) c ss se)
    (hreached : db.Reached se) (hg : db.Grows db') :
    WindowInv R (dbEvents lib db' cfg) c ss se where
  start_eq := h.start_eq
  end_eq := h.end_eq
  sorted := h.sorted
  le_end := h.le_end
  related := by
    rw [blockRange_dbEvents_grows hg hreached]
    exact h.related

theorem WindowInv.step (hR : SlideStable R)
    (h : WindowInv R (dbEvents lib db c.cnightAddresses) c ss se) (hreached : db.Reached se)
    (hstep : WindowStep lib (db, c) s') :
    ∃ ss' se', s'.1.Reached se' ∧
      WindowInv R (dbEvents lib s'.1 s'.2.cnightAddresses) s'.2 ss' se' := by
  cases hstep with
  | grow hg => exact ⟨ss, se, hreached.grows hg, h.grows hreached hg⟩
  | query config start tip txCapacity limit =>
    obtain ⟨m, o, heq⟩ := getUtxosUpToCapacity_frame lib db c config start tip txCapacity limit
    rw [heq]
    exact ⟨ss, se, hreached, h.start_eq, h.end_eq, h.sorted, h.le_end, h.related⟩
  | refresh anchor target hcomplete =>
    have hslid := h.refresh hR (dbEvents_sorted ..) fun p _ hp _ hpull =>
      pull_eq_blockRange (hcomplete p hp) hpull
    obtain ⟨es, s, e, heq⟩ := refresh_frame lib db c anchor target
    rcases hslid with hsame | ⟨ss', se', _, hreached', h'⟩
    · rw [hsame]
      exact ⟨ss, se, hreached, h⟩
    · rw [heq] at h' ⊢
      exact ⟨ss', se', hreached', h'⟩

theorem WindowInv.run (hR : SlideStable R)
    (h : WindowInv R (dbEvents lib db c.cnightAddresses) c ss se) (hreached : db.Reached se)
    (hrun : Relation.ReflTransGen (WindowStep lib) (db, c) s') :
    ∃ ss' se', s'.1.Reached se' ∧
      WindowInv R (dbEvents lib s'.1 s'.2.cnightAddresses) s'.2 ss' se' := by
  induction hrun with
  | refl => exact ⟨ss, se, hreached, h⟩
  | tail _ hstep ih =>
    obtain ⟨ss', se', hreached', h'⟩ := ih
    exact h'.step hR hreached' hstep

structure Covers (lib : CardanoLib) (db : DbSync) (c : Cache) (ss se : Nat) : Prop where
  start_eq : c.snapshotStartBlock = some ss
  end_eq : c.snapshotEndBlock = some se
  sorted : SortedBy ObservedUtxo.key c.allEvents
  exact_ : (c.allEvents.filter fun u => decide (ss ≤ u.blockNumber)).Perm
    (blockRange ss se (dbEvents lib db c.cnightAddresses))

/-- A window as the constructor gets it: pulled from a range of blocks the database has. -/
theorem Covers.windowInv (h : Covers lib db c ss se) (hbounds : ss ≤ se + 1) :
    WindowInv List.Perm (dbEvents lib db c.cnightAddresses) c ss se where
  start_eq := h.start_eq
  end_eq := h.end_eq
  sorted := h.sorted
  le_end u hu := by
    by_contra hgt
    have hmem : u ∈ c.allEvents.filter fun u => decide (ss ≤ u.blockNumber) :=
      List.mem_filter.mpr ⟨hu, decide_eq_true (by omega)⟩
    exact hgt (mem_blockRange.mp (h.exact_.subset hmem)).2.2
  related := h.exact_

theorem covers_new (lib : CardanoLib) (db : DbSync) (cfg : BulkCacheConfig) :
    Covers lib db (.new (blockRange cfg.windowStartBlock cfg.windowEndBlock
      (dbEvents lib db cfg.cnightAddresses)) cfg) cfg.windowStartBlock cfg.windowEndBlock where
  start_eq := rfl
  end_eq := rfl
  sorted := sorted_blockRange (dbEvents_sorted ..)
  exact_ := by
    change ((blockRange _ _ _).filter _).Perm (blockRange _ _ (dbEvents lib db cfg.cnightAddresses))
    rw [filter_blockRange, max_self]

/-- **Window coverage is an invariant** of queries, refreshes and growth of the database. -/
theorem window_coverage (lib : CardanoLib) (db db' : DbSync) (c c' : Cache) (ss se : Nat)
    (h : Covers lib db c ss se) (hbounds : ss ≤ se + 1) (hreached : db.Reached se)
    (hrun : Relation.ReflTransGen (WindowStep lib) (db, c) (db', c')) :
    ∃ ss' se', Covers lib db' c' ss' se' := by
  obtain ⟨ss', se', _, h'⟩ := (h.windowInv hbounds).run slideStable_perm hreached hrun
  exact ⟨ss', se', h'.start_eq, h'.end_eq, h'.sorted, h'.related⟩

end Invariant

def sampleCacheConfig : BulkCacheConfig :=
  { windowStartBlock := 0, windowEndBlock := 0, windowSize := 100, stabilityMargin := 0
    cnightAddresses := sampleConfig }

/-- A cache that holds the first block of a sample database. -/
def sampleCache (outputs n : Nat) : Cache :=
  .new (blockRange 0 0 (dbEvents sampleLib (sampleDb outputs n) sampleConfig)) sampleCacheConfig

theorem sampleCache_pullComplete (p : RefreshPlan)
    (hp : (sampleCache 1 3).plan (sampleDb 1 3) 0 2 = some p) :
    PullComplete sampleLib (sampleDb 1 3) (sampleCache 1 3) p := by
  intro ids hids
  have hplan : (sampleCache 1 3).plan (sampleDb 1 3) 0 2 = some ⟨1, 0, 2⟩ := by decide
  cases hplan.symm.trans hp
  cases hids
  decide +kernel

theorem window_coverage_contiguous_refresh :
    ((sampleCache 1 3).refresh sampleLib (sampleDb 1 3) 0 2).snapshotEndBlock = some 2 ∧
      ∃ ss' se', Covers sampleLib (sampleDb 1 3)
        ((sampleCache 1 3).refresh sampleLib (sampleDb 1 3) 0 2) ss' se' :=
  ⟨by decide +kernel, window_coverage sampleLib (sampleDb 1 3) (sampleDb 1 3) (sampleCache 1 3) _
    0 0 (covers_new sampleLib (sampleDb 1 3) sampleCacheConfig) (by decide)
    ⟨sampleBlock 0, List.mem_cons_self, by decide⟩ (.single (.refresh 0 2 sampleCache_pullComplete))⟩

end MidnightNode.CNight
