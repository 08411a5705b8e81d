import MidnightNode.Toolkit.Fetcher

/-!
# Single lookups on the shared cache

`fetch_single_block` looks a block up by its number and asks the node for a hash only when the cache has
nothing under that number. It uses the cache of `fetch_from_rpc`, for blocks that need not be finalized.

A node is a view: the hashes of its best chain, and the finalized height. Between calls the view moves on:
finalized blocks stay, the others may be replaced. What a hash stands for never changes (`Network`).
-/

namespace MidnightNode.Toolkit

open Fallible LinkedRange

/-! ## The node -/

structure Network where
  blockOf : Bytes 32 → FetchedBlock
  hash_eq : ∀ {hash block}, (blockOf hash).extractData = .ok block → block.hash = hash

/-- The best chain of a node and its finalized part. -/
structure View (net : Network) where
  hashAt : Nat → Option (Bytes 32)
  finalizedHeight : Nat
  finalized : ∀ i, i ≤ finalizedHeight → ∃ hash, hashAt i = some hash
  number_eq : ∀ {i hash}, hashAt i = some hash → (net.blockOf hash).blockNumber = i

/-- The node moves on. -/
structure View.Next {net : Network} (view view' : View net) : Prop where
  height_le : view.finalizedHeight ≤ view'.finalizedHeight
  hashAt_eq : ∀ i, i ≤ view.finalizedHeight → view'.hashAt i = view.hashAt i

section

variable {net : Network}

/-- The node sends this block for its number. -/
def View.Sends (view : View net) (fetched : FetchedBlock) : Prop :=
  ∃ hash, view.hashAt fetched.blockNumber = some hash ∧ fetched = net.blockOf hash

/-- The data of the block at a number, where it can be extracted. -/
def View.blockAt (view : View net) (i : Nat) : Option RawBlockData :=
  (view.hashAt i).bind fun hash => (net.blockOf hash).extractData.toOption

end

/-! ## Calls -/

/-- `FetchError::BlockMissing`, or a failure of the fetch. -/
inductive SingleBlockError
  | blockMissing (blockNumber : Nat)
  | fetchError (e : FetchError)
deriving DecidableEq, Repr

/-- The result, and the storage after the call. `client` is `fetch_block` of the client, if there is
one. -/
def fetchSingleBlock (blockNumber : Nat) (blockHash : Bytes 32)
    (client : Option (Bytes 32 → Except FetchTaskError FetchedBlock)) (storage : FetchStorage) :
    Except SingleBlockError RawBlockData × FetchStorage :=
  match storage.getBlockData blockNumber with
  | some block => (.ok block, storage)
  | none =>
    match client with
    | none => (.error (.blockMissing blockNumber), storage)
    | some fetchBlock =>
      match fetchBlock blockHash with
      | .error e => (.error (.fetchError (.fetchTaskError e)), storage)
      | .ok fetched =>
        match fetched.extractData with
        | .error e => (.error (.fetchError (.computeTaskError e)), storage)
        | .ok raw => (.ok raw, storage.insertBlockData blockNumber raw)

section

variable {net : Network}

/-- The blocks that wait for their extraction come from the node. -/
def FromNode (view : View net) (p : Pipeline) : Prop :=
  ∀ ticket ∈ p.tickets, ∀ min max blocks,
    ticket.stage = .computing (.extractBlockData min max blocks) → ∀ fetched ∈ blocks, view.Sends fetched

def CallStep (view : View net) (plan : Plan) (p p' : Pipeline) : Prop :=
  Step plan p p' ∧ FromNode view p'

/-- A run of `fetch_from_rpc` against the node, up to a point. -/
def CallRun (view : View net) (plan : Plan) (start : FetchStorage) (p : Pipeline) : Prop :=
  Relation.ReflTransGen (CallStep view plan) (.init plan start) p

end

def FetchStorage.empty : FetchStorage := ⟨fun _ => none, none⟩

/-- The histories of a cache: the node moves on, a block of the best chain is looked up, of those that
`Allowed` admits, a call of `fetch_from_rpc` ends at any point, or ends with the borders of all jobs
verified. -/
inductive History (net : Network) (Allowed : View net → Nat → Prop) : View net → FetchStorage → Prop
  | empty (view : View net) : History net Allowed view .empty
  | node {view view' : View net} {storage : FetchStorage} :
    History net Allowed view storage → view.Next view' → History net Allowed view' storage
  | single {view : View net} {storage : FetchStorage} {i : Nat} {hash : Bytes 32}
      {client : Option (Bytes 32 → Except FetchTaskError FetchedBlock)} :
    History net Allowed view storage → Allowed view i → view.hashAt i = some hash →
    (∀ fetchBlock ∈ client, ∀ fetched, fetchBlock hash = .ok fetched → fetched = net.blockOf hash) →
    History net Allowed view (fetchSingleBlock i hash client storage).2
  | stopped {view : View net} {storage : FetchStorage} {numWorkers numComputeWorkers : Nat}
      {p : Pipeline} : History net Allowed view storage →
    CallRun view (.new view.finalizedHeight numWorkers numComputeWorkers storage) storage p →
    History net Allowed view p.shared.storage
  | verified {view : View net} {storage storage' : FetchStorage}
      {numWorkers numComputeWorkers : Nat} {p : Pipeline} {jobs : List ComputeTask} :
    History net Allowed view storage →
    CallRun view (.new view.finalizedHeight numWorkers numComputeWorkers storage) storage p →
    jobs.Perm p.receivedJobs →
    jobs.length =
      (Plan.new view.finalizedHeight numWorkers numComputeWorkers storage).numJobs →
    finalVerifyAll p.shared.storage jobs = .ok storage' →
    History net Allowed view
      ((Plan.new view.finalizedHeight numWorkers numComputeWorkers storage).raiseVerified storage')

/-! ## What a call stores -/

/-- Every height of the job is stored or on its way. -/
def Stage.Complete (storage : FetchStorage) (job : Job) : Stage → Prop
  | .fetching numbers => ∀ i, job.Has i → i ∈ numbers ∨ ∃ block, storage.blocks i = some block
  | .computing (.extractBlockData _ _ blocks) => ∀ i, job.Has i →
    (∃ fetched ∈ blocks, fetched.blockNumber = i) ∨ ∃ block, storage.blocks i = some block
  | .computing (.verify _ _) => ∀ i, job.Has i → ∃ block, storage.blocks i = some block
  | _ => True

section

variable {net : Network} {view : View net} {plan : Plan} {start storage storage' : FetchStorage}
variable {p p' : Pipeline} {s s' : Shared} {job : Job} {stage stage' : Stage}
variable {numWorkers numComputeWorkers : Nat} {Allowed : View net → Nat → Prop}

theorem View.blockAt_eq {hash : Bytes 32} (hhash : view.hashAt i = some hash)
    (hblock : (net.blockOf hash).extractData = .ok block) : view.blockAt i = some block := by
  rw [View.blockAt, hhash, Option.bind_some, hblock]
  rfl

theorem View.hashAt_of_blockAt (h : view.blockAt i = some block) :
    view.hashAt i = some block.hash ∧ (net.blockOf block.hash).extractData = .ok block := by
  obtain ⟨hash, hhash, hblock⟩ := Option.bind_eq_some_iff.mp h
  have hok : (net.blockOf hash).extractData = .ok block := by
    cases hextract : (net.blockOf hash).extractData with
    | error e =>
      rw [hextract] at hblock
      cases hblock
    | ok block' =>
      rw [hextract] at hblock
      cases hblock
      rfl
  rw [net.hash_eq hok]
  exact ⟨hhash, hok⟩

theorem Stage.Complete.mono (h : stage.Complete storage job)
    (hgrows : Extends storage.blocks storage'.blocks) : stage.Complete storage' job := by
  have hstored : ∀ i, (∃ block, storage.blocks i = some block) →
      ∃ block, storage'.blocks i = some block := fun i hi => hi.imp fun _ hblock => hgrows hblock
  cases stage with
  | fetching numbers => exact fun i hi => (h i hi).imp_right (hstored i)
  | computing task =>
    cases task with
    | extractBlockData min max blocks => exact fun i hi => (h i hi).imp_right (hstored i)
    | verify min max => exact fun i hi => hstored i (h i hi)
    | finalVerify | noOp => trivial
  | queued | final | received | done | failed => trivial

theorem Advance.complete (h : Advance job s stage s' stage') (hok : stage.Ok s.storage job)
    (hcomplete : stage.Complete s.storage job) : stage'.Complete s'.storage job := by
  cases h with
  | take =>
    intro i hi
    cases hstored : s.storage.blocks i with
    | none => exact .inl (mem_uncached.mpr ⟨hi, hstored⟩)
    | some block => exact .inr ⟨block, rfl⟩
  | fetched blocks hnumbers =>
    intro i hi
    refine (hcomplete i hi).imp_left fun hmem => ?_
    rw [← hnumbers] at hmem
    exact List.mem_map.mp hmem
  | fetchFailed | fetchPanicked | workFailed | workPanicked | received => trivial
  | worked hworkers hwork =>
    rcases hok with ⟨blocks, rfl, hblocks⟩ | rfl
    · obtain ⟨rfl, -⟩ := work_extractBlockData hwork
      obtain ⟨inserted, rfl, hinserted⟩ := work_extractBlockData_inserted hwork
      intro i hi
      rcases hcomplete i hi with ⟨fetched, hfetched, rfl⟩ | hstored
      · obtain ⟨hlength, hget⟩ := List.forall₂_iff_get.mp hinserted
        obtain ⟨k, hk, rfl⟩ := List.getElem_of_mem hfetched
        have hk' : k < inserted.length := by omega
        have hnumber := blocks[k].number_eq _ (hget k hk hk')
        rw [← hnumber]
        exact stored_of_mem_inserted (List.get_mem _ _)
      · exact stored_insertBlockDataRange hstored
    · obtain ⟨rfl, -⟩ := work_verify hwork
      trivial

theorem Advance.stored (h : Advance job s stage s' stage') (hok : stage.Ok s.storage job)
    (hsends : ∀ min max blocks, stage = .computing (.extractBlockData min max blocks) →
      ∀ fetched ∈ blocks, view.Sends fetched) (hblock : s'.storage.blocks i = some block) :
    s.storage.blocks i = some block ∨ job.Has i ∧ view.blockAt i = some block := by
  cases h with
  | take | fetched | fetchFailed | fetchPanicked | workFailed | workPanicked | received =>
    exact .inl hblock
  | worked hworkers hwork =>
    rcases hok with ⟨blocks, rfl, hblocks⟩ | rfl
    · obtain ⟨inserted, rfl, hinserted⟩ := work_extractBlockData_inserted hwork
      rcases mem_of_insertBlockDataRange hblock with hstored | ⟨hmem, rfl⟩
      · exact .inl hstored
      · obtain ⟨hlength, hget⟩ := List.forall₂_iff_get.mp hinserted
        obtain ⟨k, hk, rfl⟩ := List.getElem_of_mem hmem
        have hk' : k < blocks.length := by omega
        have hdata : blocks[k].extractData = .ok inserted[k] := hget k hk' hk
        have hnumber := blocks[k].number_eq _ hdata
        have hfetched := List.getElem_mem hk'
        obtain ⟨hash, hhash, hsent⟩ := hsends _ _ _ rfl blocks[k] hfetched
        rw [hnumber]
        exact .inr ⟨(hblocks _ hfetched).1, View.blockAt_eq hhash (hsent ▸ hdata)⟩
    · obtain ⟨-, rfl, -⟩ := work_verify hwork
      exact .inl hblock

/-- What holds at each point of a call. -/
structure CallInv (view : View net) (plan : Plan) (start : FetchStorage) (p : Pipeline) : Prop where
  inv : Inv plan start p
  bounded : ∀ ticket ∈ p.tickets,
    ticket.job.min < ticket.job.max ∧ ticket.job.max ≤ plan.maxHeight
  complete : ∀ ticket ∈ p.tickets, ticket.stage.Complete p.shared.storage ticket.job
  stored : ∀ i block, p.shared.storage.blocks i = some block →
    start.blocks i = some block ∨ i < plan.maxHeight ∧ view.blockAt i = some block
  fromNode : FromNode view p

theorem CallInv.init (view : View net) (plan : Plan) (hstart : start.Numbered) :
    CallInv view plan start (.init plan start) where
  inv := .init plan hstart
  bounded _ h := absurd h List.not_mem_nil
  complete _ h := absurd h List.not_mem_nil
  stored _ _ h := .inl h
  fromNode _ h := absurd h List.not_mem_nil

theorem CallInv.advance (hinv : CallInv view plan start p)
    (htickets : p.tickets = before ++ ⟨job, stage⟩ :: after)
    (hadvance : Advance job p.shared stage s stage')
    (hnode : FromNode view { p with shared := s, tickets := before ++ ⟨job, stage'⟩ :: after }) :
    CallInv view plan start { p with shared := s, tickets := before ++ ⟨job, stage'⟩ :: after } := by
  have hself : ⟨job, stage⟩ ∈ p.tickets := by simp [htickets]
  have hok := hinv.inv.ok _ hself
  have hbound : job.min < job.max ∧ job.max ≤ plan.maxHeight := hinv.bounded _ hself
  obtain ⟨hwrites, -⟩ := hadvance.spec hok
  have hothers : ∀ ticket ∈ before ++ ⟨job, stage'⟩ :: after, ticket = ⟨job, stage'⟩ ∨
      ticket ∈ p.tickets := by
    intro ticket hticket
    simp only [htickets, List.mem_append, List.mem_cons] at hticket ⊢
    tauto
  refine ⟨hinv.inv.advance htickets hadvance, fun ticket hticket => ?_, fun ticket hticket => ?_,
    fun i block hblock => ?_, hnode⟩
  · rcases hothers ticket hticket with rfl | hmem
    · exact hbound
    · exact hinv.bounded ticket hmem
  · rcases hothers ticket hticket with rfl | hmem
    · exact hadvance.complete hok (hinv.complete _ hself)
    · exact (hinv.complete ticket hmem).mono hwrites.grows
  · have hsends : ∀ min max blocks, stage = .computing (.extractBlockData min max blocks) →
        ∀ fetched ∈ blocks, view.Sends fetched := fun min max blocks => hinv.fromNode _ hself min max blocks
    rcases hadvance.stored hok hsends hblock with hstored | ⟨hhas, hat⟩
    · exact hinv.stored i block hstored
    · exact .inr ⟨hhas.2.trans_le hbound.2, hat⟩

theorem CallInv.step (hinv : CallInv view plan start p) (hstep : CallStep view plan p p') :
    CallInv view plan start p' := by
  obtain ⟨hstep, hnode⟩ := hstep
  have hinv' := hinv.inv.step hstep
  cases hstep with
  | push hnext =>
    refine ⟨hinv', fun ticket hticket => ?_, fun ticket hticket => ?_, hinv.stored, hnode⟩
    · rcases List.mem_append.mp hticket with hmem | hmem
      · exact hinv.bounded ticket hmem
      · cases List.mem_singleton.mp hmem
        have hpos := plan.blocksPerJob_pos
        exact ⟨lt_min (Nat.lt_add_of_pos_right hpos) hnext, min_le_right _ _⟩
    · rcases List.mem_append.mp hticket with hmem | hmem
      · exact hinv.complete ticket hmem
      · cases List.mem_singleton.mp hmem
        trivial
  | connect | giveUp => exact ⟨hinv', hinv.bounded, hinv.complete, hinv.stored, hnode⟩
  | advance htickets hadvance => exact hinv.advance htickets hadvance hnode

theorem CallInv.run (hstart : start.Numbered) (hrun : CallRun view plan start p) :
    CallInv view plan start p := by
  induction hrun with
  | refl => exact .init view plan hstart
  | tail _ hstep ih => exact ih.step hstep

/-! ## What every history keeps -/

/-- The cache is linked up to its verified height, and each block is what its hash stands for. -/
structure CacheInv (net : Network) (storage : FetchStorage) : Prop where
  valid : storage.Valid
  known : ∀ i block, storage.blocks i = some block → (net.blockOf block.hash).extractData = .ok block

theorem CacheInv.empty (net : Network) : CacheInv net .empty :=
  ⟨⟨fun _ _ h => (nomatch h), fun _ h => (nomatch h)⟩, fun _ _ h => (nomatch h)⟩

theorem fetchSingleBlock_storage {hash : Bytes 32}
    (hclient : ∀ fetchBlock ∈ client, ∀ fetched, fetchBlock hash = .ok fetched →
      fetched = net.blockOf hash) :
    (fetchSingleBlock i hash client storage).2 = storage ∨
      ∃ block, storage.blocks i = none ∧ (net.blockOf hash).extractData = .ok block ∧
        (fetchSingleBlock i hash client storage).2 = storage.insertBlockData i block := by
  unfold fetchSingleBlock
  split
  · exact .inl rfl
  case h_2 hnone =>
    split
    · exact .inl rfl
    case h_2 fetchBlock =>
      split
      · exact .inl rfl
      case h_2 fetched hfetch =>
        cases hclient fetchBlock rfl fetched hfetch
        split
        · exact .inl rfl
        case h_2 raw hraw => exact .inr ⟨raw, hnone, hraw, rfl⟩

theorem CacheInv.insertBlockData {hash : Bytes 32} (hinv : CacheInv net storage)
    (hhash : view.hashAt i = some hash) (hnone : storage.blocks i = none)
    (hblock : (net.blockOf hash).extractData = .ok block) :
    CacheInv net (storage.insertBlockData i block) := by
  have hnumber : block.number = i :=
    ((net.blockOf hash).number_eq block hblock).trans (view.number_eq hhash)
  have hcases : ∀ j b, (storage.insertBlockData i block).blocks j = some b →
      j = i ∧ b = block ∨ storage.blocks j = some b := by
    intro j b h
    simp only [FetchStorage.insertBlockData_blocks, Function.update_apply] at h
    split at h
    case isTrue hj => exact .inl ⟨hj, (Option.some.inj h).symm⟩
    case isFalse => exact .inr h
  have hgrows : Extends storage.blocks (storage.insertBlockData i block).blocks := by
    intro j b hb
    have hj : j ≠ i := by
      rintro rfl
      rw [hnone] at hb
      cases hb
    exact (Function.update_of_ne hj _ _).trans hb
  refine ⟨hinv.valid.of_grown (fun j b h => ?_) hgrows rfl, fun j b h => ?_⟩
  · rcases hcases j b h with ⟨rfl, rfl⟩ | h
    · exact hnumber
    · exact hinv.valid.numbered j b h
  · rcases hcases j b h with ⟨rfl, rfl⟩ | h
    · rw [net.hash_eq hblock]
      exact hblock
    · exact hinv.known j b h

theorem CallInv.cacheInv (h : CallInv view plan start p) (hstart : CacheInv net start) :
    CacheInv net p.shared.storage where
  valid := hstart.valid.of_grown h.inv.numbered h.inv.grown h.inv.highestVerified
  known i block hblock := by
    rcases h.stored i block hblock with hstored | ⟨-, hat⟩
    · exact hstart.known i block hstored
    · exact (View.hashAt_of_blockAt hat).2

theorem CacheInv.raiseVerified (h : CacheInv net storage)
    (hmin : plan.minHeight = storage.highestVerified.getD 0)
    (hto : storage.VerifiedTo (max plan.minHeight plan.finalizedHeight)) :
    CacheInv net (plan.raiseVerified storage) := by
  have hblocks := plan.raiseVerified_blocks storage
  have hsame : Extends storage.blocks (plan.raiseVerified storage).blocks := by
    rw [hblocks]
    exact .refl _
  refine ⟨⟨fun i block hi => h.valid.numbered i block (hblocks ▸ hi), fun height hheight => ?_⟩,
    fun i block hi => h.known i block (hblocks ▸ hi)⟩
  have hgetD := Plan.raiseVerified_getD hmin
  rw [hheight, Option.getD_some] at hgetD
  rw [hgetD]
  exact hto.mono hsame

theorem History.cacheInv (h : History net Allowed view storage) : CacheInv net storage := by
  induction h with
  | empty => exact .empty net
  | node _ _ ih => exact ih
  | @single view storage i hash client _ _ hhash hclient ih =>
    rcases fetchSingleBlock_storage hclient with hsame | ⟨block, hnone, hblock, hinsert⟩
    · rw [hsame]
      exact ih
    · rw [hinsert]
      exact ih.insertBlockData hhash hnone hblock
  | stopped _ hrun ih => exact (CallInv.run ih.valid.numbered hrun).cacheInv ih
  | @verified view storage storage' numWorkers numComputeWorkers p jobs _ hrun hperm hall hfinal ih =>
    have hcall := CallInv.run ih.valid.numbered hrun
    have hcache := hcall.cacheInv ih
    obtain ⟨rfl, hlinked, hgenesis⟩ := hcall.inv.linked hperm hall hfinal
    have hmin : (Plan.new view.finalizedHeight numWorkers numComputeWorkers storage).minHeight =
        p.shared.storage.highestVerified.getD 0 := by
      rw [hcall.inv.highestVerified, Plan.new]
    exact hcache.raiseVerified hmin (hcache.valid.verifiedTo hmin hlinked hgenesis)

/-! ## Calls on a consistent cache -/

/-- The finalized chain can be extracted and is linked from a first block. -/
structure View.Sound (view : View net) : Prop where
  linked : LinkedOn IsParent view.blockAt 0 (view.finalizedHeight + 1)
  genesis : ∀ block, view.blockAt 0 = some block → block.parentHash = zeroHash

/-- The cached blocks up to the finalized height are those of the finalized chain, and a block cached
right above it is a child of it, unless the cache is verified further than that. -/
structure Consistent (view : View net) (storage : FetchStorage) : Prop where
  below : ∀ i, i ≤ view.finalizedHeight → ∀ block, storage.blocks i = some block →
    view.hashAt i = some block.hash
  above : storage.highestVerified.getD 0 ≤ view.finalizedHeight → ∀ block,
    storage.blocks (view.finalizedHeight + 1) = some block →
      view.hashAt view.finalizedHeight = some block.parentHash

/-- What a call finds at a height in the end. -/
def expectedAt (view : View net) (start : FetchStorage) (i : Nat) : Option RawBlockData :=
  (start.blocks i).or (view.blockAt i)

theorem CallInv.grows_expected (h : CallInv view plan start p) :
    Extends p.shared.storage.blocks (expectedAt view start) := by
  intro i block hblock
  rw [expectedAt]
  cases hstart : start.blocks i with
  | some cached =>
    cases (h.inv.grown hstart).symm.trans hblock
    rfl
  | none =>
    rcases h.stored i block hblock with hstored | ⟨-, hat⟩
    · rw [hstart] at hstored
      cases hstored
    · exact hat

theorem Consistent.expectedAt_eq (h : Consistent view start) (hcache : CacheInv net start)
    (hi : i ≤ view.finalizedHeight) : expectedAt view start i = view.blockAt i := by
  rw [expectedAt]
  cases hstart : start.blocks i with
  | none => rfl
  | some block =>
    exact (View.blockAt_eq (h.below i hi block hstart) (hcache.known i block hstart)).symm

/-- The plan of a call to a sound node, with a cache that is consistent with it. -/
structure SoundCall (view : View net) (numWorkers numComputeWorkers : Nat) (plan : Plan)
    (start : FetchStorage) : Prop where
  plan_eq : plan = .new view.finalizedHeight numWorkers numComputeWorkers start
  consistent : Consistent view start
  cache : CacheInv net start
  sound : view.Sound

section

variable (hc : SoundCall view numWorkers numComputeWorkers plan start)

include hc

theorem SoundCall.maxHeight : plan.maxHeight = view.finalizedHeight + 1 := by
  rw [hc.plan_eq, Plan.new, Plan.maxHeight]

theorem SoundCall.expected_linked :
    LinkedOn IsParent (expectedAt view start) 0 (view.finalizedHeight + 1) where
  defined i hlo hhi := by
    rw [hc.consistent.expectedAt_eq hc.cache (Nat.lt_succ_iff.mp hhi)]
    exact hc.sound.linked.defined i hlo hhi
  joined i hlo hhi parent child hparent hchild := by
    rw [hc.consistent.expectedAt_eq hc.cache (by omega)] at hparent hchild
    exact hc.sound.linked.joined i hlo hhi parent child hparent hchild

theorem CallInv.work_ok (h : CallInv view plan start p) (hticket : ticket ∈ p.tickets)
    (hstage : ticket.stage = .computing task) :
    ∃ task' storage, task.work p.shared.storage = .ok (task', storage) := by
  obtain ⟨-, hmax⟩ := h.bounded ticket hticket
  rw [hc.maxHeight] at hmax
  have hok := h.inv.ok ticket hticket
  have hcomplete := h.complete ticket hticket
  rw [hstage] at hok hcomplete
  rcases hok with ⟨blocks, rfl, hblocks⟩ | rfl
  · have hextract : ∀ fetched ∈ blocks, ∃ block, fetched.extractData = .ok block := by
      intro fetched hfetched
      obtain ⟨hash, hhash, hsent⟩ := h.fromNode ticket hticket _ _ _ hstage fetched hfetched
      obtain ⟨block, hblock⟩ := hc.sound.linked.defined fetched.blockNumber (Nat.zero_le _)
        ((hblocks fetched hfetched).1.2.trans_le hmax)
      obtain ⟨hhash', hdata⟩ := View.hashAt_of_blockAt hblock
      cases hhash.symm.trans hhash'
      exact ⟨block, hsent ▸ hdata⟩
    obtain ⟨storage', hwork⟩ := work_extractBlockData_of_ok hextract
    exact ⟨_, storage', hwork⟩
  · have hlinked := hc.expected_linked.restrict (Nat.zero_le ticket.job.min) hmax
    exact ⟨_, _, work_verify_of_linked (hlinked.anti h.grows_expected fun i hlo hhi =>
      hcomplete i ⟨hlo, hhi⟩)⟩

theorem CallInv.borders_ok (h : CallInv view plan start p) (hticket : ticket ∈ p.tickets)
    (hlinked : LinkedOn IsParent p.shared.storage.blocks ticket.job.min ticket.job.max) :
    (ComputeTask.finalVerify ticket.job.min ticket.job.max).work p.shared.storage =
      .ok (.noOp, p.shared.storage) := by
  obtain ⟨hnonempty, hmax⟩ := h.bounded ticket hticket
  have hexpected := hc.expected_linked
  have hmaxHeight := hc.maxHeight
  apply work_finalVerify_of_joined
  · by_cases hlast : ticket.job.max < plan.maxHeight
    · have hjoined := hexpected.joined (ticket.job.max - 1) (Nat.zero_le _) (by omega)
      rw [Nat.sub_add_cancel (by omega)] at hjoined
      exact hjoined.anti h.grows_expected
    · -- above the last job there is at most a block that was cached before
      have hend : ticket.job.max = view.finalizedHeight + 1 := by omega
      rw [hend]
      intro parent child hparent hchild
      have hcached : start.blocks (view.finalizedHeight + 1) = some child := by
        rcases h.stored _ _ hchild with hcached | ⟨hlt, -⟩
        · exact hcached
        · exact absurd hlt (by omega)
      have hspan : start.highestVerified.getD 0 ≤ view.finalizedHeight := by
        have hjobs : 0 < plan.numJobs := by
          have hlength := h.inv.cut.length_le
          rw [Pipeline.jobs, List.length_map] at hlength
          exact (List.length_pos_of_mem hticket).trans_le hlength
        rw [plan.lt_numJobs_iff, hc.plan_eq] at hjobs
        simp only [Plan.new, Plan.maxHeight] at hjobs
        omega
      have hhash := hc.consistent.above hspan child hcached
      have hat := h.grows_expected hparent
      rw [Nat.add_sub_cancel, hc.consistent.expectedAt_eq hc.cache (Nat.le_refl _)] at hat
      exact Option.some.inj (hhash.symm.trans (View.hashAt_of_blockAt hat).1)
  · intro hzero
    obtain ⟨block, hblock⟩ := hlinked.defined 0 (Nat.le_of_eq hzero) (by omega)
    have hat := h.grows_expected hblock
    rw [hc.consistent.expectedAt_eq hc.cache (Nat.zero_le _)] at hat
    exact ⟨block, hblock, hc.sound.genesis block hat⟩

end

theorem finalVerifyAll_of_ok (h : ∀ task ∈ jobs, task.work storage = .ok (.noOp, storage)) :
    finalVerifyAll storage jobs = .ok storage := by
  induction jobs with
  | nil => rfl
  | cons task jobs ih =>
    rw [finalVerifyAll, h task List.mem_cons_self]
    exact ih fun task htask => h task (List.mem_cons_of_mem _ htask)

/-- The blocks up to a height, as a call returns them. -/
def expectedBlocks (view : View net) (start : FetchStorage) (height : Nat) : List RawBlockData :=
  setLastBlockTimes ((List.range (height + 1)).map fun i =>
    (expectedAt view start i).getD ⟨zeroHash, zeroHash, 0, 0, 0⟩)

theorem readBlocksFromCache_of_linked
    (h : ∀ i, i ≤ storage.highestVerified.getD 0 → storage.blocks i = some (blocksAt i)) :
    readBlocksFromCache storage =
      .ok (setLastBlockTimes ((List.range (storage.highestVerified.getD 0 + 1)).map blocksAt)) := by
  have hread : (storage.getBlockDataRange
      (List.range (storage.highestVerified.getD 0 + 1))).zipIdx.mapM (fun pair => okOr pair.2 pair.1) =
        .ok ((List.range (storage.highestVerified.getD 0 + 1)).map blocksAt) := by
    rw [mapM_ok (g := fun pair => blocksAt pair.2)]
    · refine congrArg Except.ok (List.ext_getElem ?_ fun k _ _ => ?_)
      · simp [FetchStorage.getBlockDataRange]
      · simp
    · intro pair hpair
      obtain ⟨k, hk, rfl⟩ := List.getElem_of_mem hpair
      simp only [List.length_zipIdx, FetchStorage.getBlockDataRange, List.length_map,
        List.length_range] at hk
      simp [FetchStorage.getBlockDataRange, FetchStorage.getBlockData, h k (by omega), okOr]
  exact congrArg (·.map setLastBlockTimes) hread

theorem CallInv.finish_ok (h : CallInv view plan start p)
    (hc : SoundCall view numWorkers numComputeWorkers plan start)
    (hperm : jobs.Perm p.receivedJobs) (hall : jobs.length = plan.numJobs) :
    ∃ storage, plan.finish jobs p.shared.storage =
      .ok (expectedBlocks view start (max plan.minHeight plan.finalizedHeight), storage) := by
  have hwork : ∀ task ∈ jobs, task.work p.shared.storage = .ok (.noOp, p.shared.storage) := by
    intro task htask
    obtain ⟨⟨job, stage⟩, hticket, hreceived⟩ := List.mem_filterMap.mp (hperm.mem_iff.mp htask)
    cases stage with
    | received task' =>
      cases hreceived
      obtain ⟨heq, hlinked⟩ := h.inv.ok _ hticket
      rw [heq]
      exact h.borders_ok hc hticket hlinked
    | queued | fetching | computing | final | done | failed => cases hreceived
  have hfinal := finalVerifyAll_of_ok hwork
  obtain ⟨-, hlinked, hgenesis⟩ := h.inv.linked hperm hall hfinal
  have hmin : plan.minHeight = p.shared.storage.highestVerified.getD 0 := by
    rw [hc.plan_eq, h.inv.highestVerified, Plan.new]
  have hto := (h.cacheInv hc.cache).valid.verifiedTo hmin hlinked hgenesis
  have hheight := Plan.raiseVerified_getD hmin
  have hstored : ∀ i, i ≤ (plan.raiseVerified p.shared.storage).highestVerified.getD 0 →
      (plan.raiseVerified p.shared.storage).blocks i =
        some ((expectedAt view start i).getD ⟨zeroHash, zeroHash, 0, 0, 0⟩) := by
    intro i hi
    rw [hheight] at hi
    obtain ⟨block, hblock⟩ := hto.linked.defined i (Nat.zero_le _) (by omega)
    rw [Plan.raiseVerified_blocks, hblock, h.grows_expected hblock]
    rfl
  have hread := readBlocksFromCache_of_linked hstored
  rw [hheight, ← expectedBlocks] at hread
  refine ⟨plan.raiseVerified p.shared.storage, ?_⟩
  simp only [Plan.finish, hfinal, hread, Except.mapError, bind, Except.bind]
  rfl

/-! ## A schedule that gets through -/

theorem fromNode_snoc (hbefore : ∀ ticket ∈ before, ∃ task, ticket.stage = .received task)
    (hlast : ∀ min max blocks, stage = .computing (.extractBlockData min max blocks) →
      ∀ fetched ∈ blocks, view.Sends fetched) :
    FromNode view ⟨s, nextMin, before ++ [⟨job, stage⟩]⟩ := by
  intro ticket hticket min max blocks hstage
  rcases List.mem_append.mp hticket with hmem | hmem
  · obtain ⟨task, hreceived⟩ := hbefore ticket hmem
    rw [hreceived] at hstage
    cases hstage
  · cases List.mem_singleton.mp hmem
    exact hlast min max blocks hstage

theorem CallRun.advance_last (hrun : CallRun view plan start ⟨s, nextMin, before ++ [⟨job, stage⟩]⟩)
    (hadvance : Advance job s stage s' stage')
    (hbefore : ∀ ticket ∈ before, ∃ task, ticket.stage = .received task)
    (hlast : ∀ min max blocks, stage' = .computing (.extractBlockData min max blocks) →
      ∀ fetched ∈ blocks, view.Sends fetched) :
    CallRun view plan start ⟨s', nextMin, before ++ [⟨job, stage'⟩]⟩ :=
  hrun.tail ⟨@Step.advance plan ⟨s, nextMin, before ++ [⟨job, stage⟩]⟩ s' before [] job stage stage' rfl
    hadvance, fromNode_snoc hbefore hlast⟩

/-- What the node sends for some numbers. -/
def View.fetch (view : View net) (numbers : List Nat) : List FetchedBlock :=
  numbers.filterMap fun i => (view.hashAt i).map net.blockOf

theorem View.fetch_blockNumber (h : ∀ i ∈ numbers, ∃ hash, view.hashAt i = some hash) :
    (view.fetch numbers).map FetchedBlock.blockNumber = numbers := by
  induction numbers with
  | nil => rfl
  | cons i numbers ih =>
    obtain ⟨hash, hhash⟩ := h i List.mem_cons_self
    have hrest := ih fun j hj => h j (List.mem_cons_of_mem _ hj)
    rw [fetch, List.filterMap_cons, hhash]
    simp only [Option.map_some, List.map_cons, view.number_eq hhash]
    rw [← fetch, hrest]

theorem View.sends_fetch (h : fetched ∈ view.fetch numbers) : view.Sends fetched := by
  obtain ⟨i, -, hi⟩ := List.mem_filterMap.mp h
  obtain ⟨hash, hhash, rfl⟩ := Option.map_eq_some_iff.mp hi
  exact ⟨hash, (view.number_eq hhash).symm ▸ hhash, rfl⟩

/-- All jobs that were pushed have been received, and there are workers for the next one. -/
structure Settled (p : Pipeline) : Prop where
  received : ∀ ticket ∈ p.tickets, ∃ task, ticket.stage = .received task
  idle : 0 < p.shared.idle
  computeWorkers : 0 < p.shared.computeWorkers

theorem CallRun.next_job (hrun : CallRun view plan start p) (hsettled : Settled p)
    (hnext : p.nextMin < plan.maxHeight)
    (hc : SoundCall view numWorkers numComputeWorkers plan start) :
    ∃ p', CallRun view plan start p' ∧ Settled p' ∧ p'.tickets.length = p.tickets.length + 1 := by
  obtain ⟨s, nextMin, before⟩ := p
  obtain ⟨hreceived, hidle, hworkers⟩ := hsettled
  obtain ⟨k, hk⟩ : ∃ k, s.idle = k + 1 := Nat.exists_eq_add_one.mpr hidle
  generalize hjob : (⟨nextMin, min (nextMin + plan.blocksPerJob) plan.maxHeight⟩ : Job) = job
  have hjobMax : job.max ≤ view.finalizedHeight + 1 := by
    rw [← hjob, ← hc.maxHeight]
    exact min_le_right _ _
  -- the pusher, then a fetch worker
  have hpushed : CallRun view plan start
      ⟨s, nextMin + plan.blocksPerJob, before ++ [⟨job, .queued⟩]⟩ :=
    hjob ▸ hrun.tail ⟨.push hnext, fromNode_snoc hreceived (by simp)⟩
  have htaken := hpushed.advance_last (.take hk) hreceived (by simp)
  have hknown : ∀ i ∈ uncached s.storage job.min job.max, ∃ hash, view.hashAt i = some hash := by
    intro i hi
    exact view.finalized i (Nat.lt_succ_iff.mp ((mem_uncached.mp hi).1.2.trans_le hjobMax))
  have hfetched := htaken.advance_last (.fetched _ (View.fetch_blockNumber hknown)) hreceived (by
    rintro min max blocks hstage
    cases hstage
    exact fun fetched => View.sends_fetch)
  -- a compute worker, twice
  have hself : ∀ stage : Stage, (⟨job, stage⟩ : Ticket) ∈ before ++ [⟨job, stage⟩] := by simp
  have hnumbered := hc.cache.valid.numbered
  obtain ⟨task, filled, hextract⟩ := (CallInv.run hnumbered hfetched).work_ok hc (hself _) rfl
  obtain ⟨rfl, -⟩ := work_extractBlockData hextract
  have hextracted := hfetched.advance_last (.worked hworkers hextract) hreceived (by
    rintro min max blocks hstage
    cases hstage)
  obtain ⟨task, verified, hverify⟩ := (CallInv.run hnumbered hextracted).work_ok hc (hself _) rfl
  obtain ⟨rfl, -⟩ := work_verify hverify
  have hverified := hextracted.advance_last (.worked hworkers hverify) hreceived (by
    rintro min max blocks hstage
    cases hstage)
  have hdone := hverified.advance_last .received hreceived (by simp)
  refine ⟨_, hdone, ⟨fun ticket hticket => ?_, Nat.succ_pos _, hworkers⟩, by simp⟩
  rcases List.mem_append.mp hticket with hmem | hmem
  · exact hreceived ticket hmem
  · cases List.mem_singleton.mp hmem
    exact ⟨_, rfl⟩

theorem exists_callRun (hc : SoundCall view numWorkers numComputeWorkers plan start)
    (hworkers : 0 < numComputeWorkers) (k : Nat) (hk : k ≤ plan.numJobs) :
    ∃ p, CallRun view plan start p ∧ Settled p ∧ p.tickets.length = k := by
  induction k with
  | zero =>
    obtain ⟨w, hw⟩ : ∃ w, plan.fetchWorkers = w + 1 :=
      Nat.exists_eq_add_one.mpr (Nat.lt_of_lt_of_le Nat.one_pos (Nat.le_max_right _ _))
    have hconnect : CallStep view plan (.init plan start) _ :=
      ⟨.connect hw, fun ticket hticket => absurd hticket List.not_mem_nil⟩
    refine ⟨_, .single hconnect, ⟨fun ticket hticket => absurd hticket List.not_mem_nil,
      Nat.succ_pos _, ?_⟩, rfl⟩
    rw [hc.plan_eq]
    exact hworkers
  | succ k ih =>
    obtain ⟨p, hrun, hsettled, hlength⟩ := ih (Nat.le_of_succ_le hk)
    have hnext : p.nextMin < plan.maxHeight := by
      have hcut := (CallInv.run hc.cache.valid.numbered hrun).inv.cut.next_eq
      rw [Pipeline.jobs, List.length_map, hlength] at hcut
      rw [hcut, ← plan.lt_numJobs_iff]
      exact hk
    obtain ⟨p', hrun', hsettled', hlength'⟩ := hrun.next_job hsettled hnext hc
    exact ⟨p', hrun', hsettled', by rw [hlength', hlength]⟩

/-! ## Success of a call -/

/-- The call succeeds with these blocks: some interleaving returns them, no worker fails but for its
connection, and once all jobs have arrived the call ends with them. -/
structure CallSucceeds (view : View net) (plan : Plan) (start : FetchStorage)
    (blocks : List RawBlockData) : Prop where
  returns : ∃ p storage, CallRun view plan start p ∧ Returns plan p (blocks, storage)
  verified : ∀ p, CallRun view plan start p → ∀ ticket ∈ p.tickets, ∀ e,
    ticket.stage ≠ .failed (.computeTaskError e)
  ends : ∀ p jobs, CallRun view plan start p → jobs.Perm p.receivedJobs →
    jobs.length = plan.numJobs → ∃ storage, plan.finish jobs p.shared.storage = .ok (blocks, storage)

/-- What a call that returns has read. -/
structure ReadBy (plan : Plan) (p : Pipeline) (blocks : List RawBlockData) : Prop where
  jobs : ∃ jobs, jobs.Perm p.receivedJobs ∧ jobs.length = plan.numJobs ∧
    finalVerifyAll p.shared.storage jobs = .ok p.shared.storage
  length_eq : blocks.length = max plan.minHeight plan.finalizedHeight + 1
  stored : ∀ i block, blocks[i]? = some block → ∃ stored time,
    p.shared.storage.blocks i = some stored ∧ block = { stored with lastBlockTimeSecs := time }

theorem Returns.readBy (hrun : CallRun view plan start p) (hcache : CacheInv net start)
    (hplan : plan = .new view.finalizedHeight numWorkers numComputeWorkers start)
    (h : Returns plan p (blocks, storage)) : ReadBy plan p blocks := by
  obtain ⟨-, jobs, hperm, hall, hfinish⟩ := h
  obtain ⟨verified, hfinal, hfinish⟩ := of_bind hfinish
  obtain ⟨read, hread, hfinish⟩ := of_bind hfinish
  cases hfinish
  have hcall := CallInv.run hcache.valid.numbered hrun
  have hfinal := of_mapError hfinal
  obtain ⟨rfl, -⟩ := hcall.inv.linked hperm hall hfinal
  have hmin : plan.minHeight = p.shared.storage.highestVerified.getD 0 := by
    rw [hplan, hcall.inv.highestVerified, Plan.new]
  obtain ⟨hlength, hstored⟩ := readBlocksFromCache_ok (of_mapError hread)
  rw [Plan.raiseVerified_getD hmin] at hlength
  rw [Plan.raiseVerified_blocks] at hstored
  exact ⟨⟨jobs, hperm, hall, hfinal⟩, hlength, hstored⟩

/-- On a consistent cache a call can run to its end. -/
theorem SoundCall.callSucceeds (hc : SoundCall view numWorkers numComputeWorkers plan start)
    (hworkers : 0 < numComputeWorkers) :
    CallSucceeds view plan start
      (expectedBlocks view start (max plan.minHeight plan.finalizedHeight)) where
  returns := by
    obtain ⟨p, hrun, hsettled, hlength⟩ := exists_callRun hc hworkers plan.numJobs (Nat.le_refl _)
    have hall : p.receivedJobs.length = plan.numJobs := by
      rw [Pipeline.receivedJobs, ← hlength, List.filterMap_length_eq_length]
      intro ticket hticket
      obtain ⟨task, hstage⟩ := hsettled.received ticket hticket
      rw [hstage]
      rfl
    obtain ⟨storage, hfinish⟩ := (CallInv.run hc.cache.valid.numbered hrun).finish_ok hc (.refl _) hall
    refine ⟨p, storage, hrun, ?_, p.receivedJobs, .refl _, hall, hfinish⟩
    rw [hc.plan_eq]
    exact hworkers
  verified p hrun := by
    induction hrun with
    | refl => exact fun ticket hticket => absurd hticket List.not_mem_nil
    | @tail p p' hrun hstep ih =>
      obtain ⟨hstep, -⟩ := hstep
      intro ticket hticket e hfailed
      cases hstep with
      | push =>
        rcases List.mem_append.mp hticket with hmem | hmem
        · exact ih ticket hmem e hfailed
        · cases List.mem_singleton.mp hmem
          cases hfailed
      | connect | giveUp => exact ih ticket hticket e hfailed
      | @advance s before after job stage stage' htickets hadvance =>
        have hself : ⟨job, stage⟩ ∈ p.tickets := by simp [htickets]
        by_cases hmem : ticket ∈ p.tickets
        · exact ih ticket hmem e hfailed
        · have hmoved : ticket = ⟨job, stage'⟩ := by
            simp only [htickets, List.mem_append, List.mem_cons] at hmem hticket
            tauto
          rw [hmoved] at hfailed
          -- only a task that fails in itself leaves this error
          cases hadvance with
          | workFailed _ herror =>
            obtain ⟨task', storage', hwork⟩ :=
              (CallInv.run hc.cache.valid.numbered hrun).work_ok hc hself rfl
            rw [herror] at hwork
            cases hwork
          | @worked task task' storage _ hwork => cases task' <;> cases hfailed
          | take | fetched | fetchFailed | fetchPanicked | workPanicked | received => cases hfailed
  ends p jobs hrun hperm hall :=
    (CallInv.run hc.cache.valid.numbered hrun).finish_ok hc hperm hall

theorem Consistent.empty (view : View net) : Consistent view .empty :=
  ⟨fun _ _ _ h => (nomatch h), fun _ _ h => (nomatch h)⟩

theorem take_setLastBlockTimes (blocks : List RawBlockData) (n : Nat) :
    (setLastBlockTimes blocks).take n = setLastBlockTimes (blocks.take n) := by
  cases blocks with
  | nil => simp [setLastBlockTimes]
  | cons first rest =>
    cases n with
    | zero => simp [setLastBlockTimes]
    | succ n =>
      refine List.ext_getElem? fun i => ?_
      rcases i with _ | _ | i
      · rfl
      · cases n <;> cases rest <;> simp [setLastBlockTimes]
      · by_cases hi : i + 1 < n
        · have hi' : i < n := Nat.lt_of_succ_lt hi
          simp [setLastBlockTimes, List.getElem?_zipWith, hi, hi']
        · simp [setLastBlockTimes, hi]

/-- Up to the finalized height a consistent cache makes no difference. -/
theorem Consistent.take_expectedBlocks (h : Consistent view start) (hcache : CacheInv net start)
    (hheight : view.finalizedHeight ≤ height) :
    (expectedBlocks view start height).take (view.finalizedHeight + 1) =
      expectedBlocks view .empty view.finalizedHeight := by
  rw [expectedBlocks, take_setLastBlockTimes, ← List.map_take, List.take_range, expectedBlocks,
    Nat.min_eq_left (Nat.succ_le_succ hheight)]
  refine congrArg setLastBlockTimes (List.map_congr_left fun i hi => ?_)
  rw [h.expectedAt_eq hcache (Nat.lt_succ_iff.mp (List.mem_range.mp hi))]
  rfl

theorem CallSucceeds.of_empty
    (h : CallSucceeds view (.new view.finalizedHeight numWorkers numComputeWorkers .empty) .empty blocks) :
    view.Sound ∧ 0 < numComputeWorkers ∧ blocks = expectedBlocks view .empty view.finalizedHeight := by
  obtain ⟨p, storage, hrun, hreturns⟩ := h.returns
  have hcall := CallInv.run (CacheInv.empty net).valid.numbered hrun
  obtain ⟨jobs, hperm, hall, hfinal⟩ := (hreturns.readBy hrun (.empty net) rfl).jobs
  obtain ⟨-, hlinked, hgenesis⟩ := hcall.inv.linked hperm hall hfinal
  have hexpected : expectedAt view .empty = view.blockAt := rfl
  have hgrows := hcall.grows_expected
  rw [hexpected] at hgrows
  have hsound : view.Sound := by
    refine ⟨hlinked.mono hgrows, fun block hblock => ?_⟩
    obtain ⟨first, hfirst, hzero⟩ := hgenesis rfl
    cases (hgrows hfirst).symm.trans hblock
    exact hzero
  obtain ⟨storage₁, hfinish₁⟩ := h.ends p jobs hrun hperm hall
  obtain ⟨storage₂, hfinish₂⟩ := hcall.finish_ok ⟨rfl, .empty view, .empty net, hsound⟩ hperm hall
  refine ⟨hsound, hreturns.1, ?_⟩
  have hblocks := hfinish₁.symm.trans hfinish₂
  injection hblocks with hblocks
  rw [(Prod.mk.inj hblocks).1]
  congr 1

/-- A call that returns the blocks of the finalized chain has found a consistent cache. -/
theorem CallSucceeds.consistent (hcache : CacheInv net start)
    (h : CallSucceeds view (.new view.finalizedHeight numWorkers numComputeWorkers start) start blocks)
    (hsound : view.Sound)
    (hsame : blocks.take (view.finalizedHeight + 1) = expectedBlocks view .empty view.finalizedHeight) :
    Consistent view start := by
  obtain ⟨p, storage, hrun, hreturns⟩ := h.returns
  have hcall := CallInv.run hcache.valid.numbered hrun
  obtain ⟨⟨jobs, hperm, hall, hfinal⟩, hlength, hstored⟩ := hreturns.readBy hrun hcache rfl
  have hbelow : ∀ i, i ≤ view.finalizedHeight → ∀ block, start.blocks i = some block →
      view.hashAt i = some block.hash := by
    intro i hi block hblock
    have hlt : i < blocks.length := by
      rw [hlength]
      exact Nat.lt_succ_iff.mpr (hi.trans (Nat.le_max_right _ _))
    have hget : blocks[i]? = some blocks[i] := List.getElem?_eq_getElem hlt
    obtain ⟨stored, time, hat, heq⟩ := hstored i _ hget
    cases (hcall.inv.grown hblock).symm.trans hat
    have hexpected : (expectedBlocks view .empty view.finalizedHeight)[i]? = some blocks[i] := by
      rw [← hsame, List.getElem?_take, if_pos (Nat.lt_succ_iff.mpr hi), hget]
    obtain ⟨expected, time', hat', heq'⟩ := setLastBlockTimes_getElem? hexpected
    obtain ⟨sent, hsent⟩ := hsound.linked.defined i (Nat.zero_le _) (Nat.lt_succ_iff.mpr hi)
    have hmap : expected = sent := by
      have hexpectedAt : expectedAt view .empty i = some sent := hsent
      simpa [Nat.lt_succ_iff.mpr hi, hexpectedAt] using hat'.symm
    rw [(View.hashAt_of_blockAt hsent).1, ← hmap]
    have hhash := congrArg RawBlockData.hash (heq.symm.trans heq')
    exact congrArg some hhash.symm
  refine ⟨hbelow, fun hspan block hblock => ?_⟩
  obtain ⟨hjobs, hreceived⟩ := hcall.inv.all_received (hperm.length_eq ▸ hall)
  obtain ⟨job, hjob, hhas⟩ := hcall.inv.cut.covers hjobs hspan (Nat.lt_succ_self _)
  obtain ⟨ticket, hticket, rfl⟩ := List.mem_map.mp hjob
  have hend : ticket.job.max = view.finalizedHeight + 1 := by
    have hmax := (hcall.bounded ticket hticket).2
    have hlt := hhas.2
    simp only [Plan.new, Plan.maxHeight] at hmax
    omega
  obtain ⟨hfinalJob, hlinked⟩ := hreceived _ hjob
  obtain ⟨parent, hparent⟩ := hlinked.defined view.finalizedHeight hhas.1 hhas.2
  have hborders := (finalVerifyAll_ok (fun task htask => hcall.inv.received (hperm.mem_iff.mp htask))
    hfinal).2 _ _ (hperm.mem_iff.mpr hfinalJob)
  rw [hend] at hborders
  have hchild : block.parentHash = parent.hash :=
    hborders.1 parent block hparent (hcall.inv.grown hblock)
  rw [hchild]
  rcases hcall.stored _ _ hparent with hcached | ⟨-, hat⟩
  · exact hbelow _ (Nat.le_refl _) parent hcached
  · exact (View.hashAt_of_blockAt hat).1

/-! ## Lookups and calls -/

/-- What a lookup returns has the requested hash unless the cache has another block there. -/
theorem fetchSingleBlock_hash_iff {hash : Bytes 32}
    (hclient : ∀ fetchBlock ∈ client, ∀ fetched, fetchBlock hash = .ok fetched →
      fetched = net.blockOf hash) (hok : (fetchSingleBlock i hash client storage).1 = .ok block) :
    block.hash = hash ↔ ∀ cached, storage.blocks i = some cached → cached.hash = hash := by
  unfold fetchSingleBlock at hok
  split at hok
  case h_1 cached hcached =>
    cases hok
    refine ⟨fun hhash other hother => ?_, fun h => h block hcached⟩
    cases hcached.symm.trans hother
    exact hhash
  case h_2 hnone =>
    have hvacuous : ∀ cached, storage.blocks i = some cached → cached.hash = hash := by
      intro cached hcached
      cases hnone.symm.trans hcached
    refine iff_of_true ?_ hvacuous
    split at hok
    · cases hok
    case h_2 fetchBlock =>
      split at hok
      · cases hok
      case h_2 fetched hfetch =>
        cases hclient fetchBlock rfl fetched hfetch
        split at hok
        · cases hok
        case h_2 raw hraw =>
          cases hok
          exact net.hash_eq hraw

/-- The cache holds blocks of the finalized chain only. -/
def OnlyFinalized (view : View net) (storage : FetchStorage) : Prop :=
  ∀ i block, storage.blocks i = some block →
    i ≤ view.finalizedHeight ∧ view.hashAt i = some block.hash

theorem OnlyFinalized.consistent (h : OnlyFinalized view storage) : Consistent view storage where
  below i _ block hblock := (h i block hblock).2
  above _ block hblock := absurd (h _ block hblock).1 (Nat.not_succ_le_self _)

theorem CallInv.onlyFinalized (h : CallInv view plan start p)
    (hplan : plan = .new view.finalizedHeight numWorkers numComputeWorkers start)
    (hstart : OnlyFinalized view start) : OnlyFinalized view p.shared.storage := by
  intro i block hblock
  rcases h.stored i block hblock with hcached | ⟨hlt, hat⟩
  · exact hstart i block hcached
  · rw [hplan] at hlt
    exact ⟨Nat.lt_succ_iff.mp hlt, (View.hashAt_of_blockAt hat).1⟩

/-- Lookups of finalized blocks put only finalized blocks into the cache. -/
theorem History.onlyFinalized (hallowed : ∀ view i, Allowed view i → i ≤ view.finalizedHeight)
    (h : History net Allowed view storage) : OnlyFinalized view storage := by
  induction h with
  | empty => exact fun i block hblock => nomatch hblock
  | node _ hnext ih =>
    intro i block hblock
    obtain ⟨hi, hhash⟩ := ih i block hblock
    exact ⟨hi.trans hnext.height_le, (hnext.hashAt_eq i hi).trans hhash⟩
  | @single view storage i hash client _ hi hhash hclient ih =>
    rcases fetchSingleBlock_storage hclient with hsame | ⟨block, -, hblock, hinsert⟩
    · rw [hsame]
      exact ih
    · rw [hinsert]
      intro j b hb
      simp only [FetchStorage.insertBlockData_blocks, Function.update_apply] at hb
      split at hb
      case isTrue hj =>
        cases hb
        rw [hj, net.hash_eq hblock]
        exact ⟨hallowed view i hi, hhash⟩
      case isFalse => exact ih j b hb
  | stopped hbefore hrun ih =>
    exact (CallInv.run hbefore.cacheInv.valid.numbered hrun).onlyFinalized rfl ih
  | verified hbefore hrun hperm hall hfinal ih =>
    have hcall := CallInv.run hbefore.cacheInv.valid.numbered hrun
    obtain ⟨rfl, -⟩ := hcall.inv.linked hperm hall hfinal
    intro i block hblock
    rw [Plan.raiseVerified_blocks] at hblock
    exact hcall.onlyFinalized rfl ih i block hblock

/-- After any history: a lookup that succeeds returns the requested block exactly when the cache has no
other block under its number, and a call that would succeed on an empty cache succeeds with the same
blocks exactly when the cache is consistent. Both conditions hold throughout when only finalized blocks are
looked up. -/
theorem lookups_transparent_iff (h : History net Allowed view storage) :
    (∀ i hash client block,
      (∀ fetchBlock ∈ client, ∀ fetched, fetchBlock hash = .ok fetched → fetched = net.blockOf hash) →
      (fetchSingleBlock i hash client storage).1 = .ok block →
        (block.hash = hash ↔ ∀ cached, storage.blocks i = some cached → cached.hash = hash)) ∧
    (∀ numWorkers numComputeWorkers blocks₀,
      CallSucceeds view (.new view.finalizedHeight numWorkers numComputeWorkers .empty) .empty blocks₀ →
        ((∃ blocks, CallSucceeds view
            (.new view.finalizedHeight numWorkers numComputeWorkers storage) storage blocks ∧
            blocks.take (view.finalizedHeight + 1) = blocks₀) ↔ Consistent view storage)) ∧
    ((∀ view i, Allowed view i → i ≤ view.finalizedHeight) →
      Consistent view storage ∧ ∀ i hash, Allowed view i → view.hashAt i = some hash →
        ∀ cached, storage.blocks i = some cached → cached.hash = hash) := by
  have hcache := h.cacheInv
  refine ⟨fun i hash client block => fetchSingleBlock_hash_iff, fun nw nc blocks₀ hempty => ?_,
    fun hallowed => ?_⟩
  · obtain ⟨hsound, hworkers, rfl⟩ := hempty.of_empty
    constructor
    · rintro ⟨blocks, hsucceeds, hsame⟩
      exact hsucceeds.consistent hcache hsound hsame
    · intro hconsistent
      exact ⟨_, SoundCall.callSucceeds ⟨rfl, hconsistent, hcache, hsound⟩ hworkers,
        hconsistent.take_expectedBlocks hcache (Nat.le_max_right _ _)⟩
  · have honly := h.onlyFinalized hallowed
    refine ⟨honly.consistent, fun i hash _ hhash cached hcached => ?_⟩
    exact Option.some.inj ((honly i cached hcached).2.symm.trans hhash)

end

/-! ## A block that is replaced after it was looked up -/

/-- Blocks 0 and 1, another block 1, and a child of it. -/
def sampleBlocks : List RawBlockData :=
  [⟨.fill 32 1, zeroHash, 0, 0, 0⟩, ⟨.fill 32 2, .fill 32 1, 1, 6, 6⟩, ⟨.fill 32 3, .fill 32 1, 1, 7, 7⟩,
    ⟨.fill 32 4, .fill 32 3, 2, 12, 12⟩]

def sampleBlockOf (hash : Bytes 32) : Option RawBlockData := sampleBlocks.find? (·.hash = hash)

def sampleNetwork : Network where
  blockOf hash :=
    { blockNumber := ((sampleBlockOf hash).map RawBlockData.number).getD 0
      extractData := okOr .blockError (sampleBlockOf hash)
      number_eq := fun block h => by rw [of_okOr h]; rfl }
  hash_eq h := by simpa using List.find?_some (of_okOr h)

/-- The hashes of a chain, of which the first are finalized. -/
def sampleHashes (chain : List (Bytes 32)) (i : Nat) : Option (Bytes 32) := chain[i]?

def viewOf (chain : List (Bytes 32)) (finalizedHeight : Nat) (hfinalized : finalizedHeight < chain.length)
    (hnumber : ∀ i (hi : i < chain.length), (sampleNetwork.blockOf chain[i]).blockNumber = i) :
    View sampleNetwork where
  hashAt := sampleHashes chain
  finalizedHeight := finalizedHeight
  finalized i hi := ⟨chain[i], List.getElem?_eq_getElem (by omega)⟩
  number_eq h := by
    obtain ⟨hi, rfl⟩ := List.getElem?_eq_some_iff.mp h
    exact hnumber _ hi

/-- The node before the replacement, with block 0 finalized. -/
def earlyView : View sampleNetwork := viewOf [.fill 32 1, .fill 32 2] 0 (by decide) (by decide +kernel)

/-- The node after it, with all blocks finalized. -/
def lateView : View sampleNetwork :=
  viewOf [.fill 32 1, .fill 32 3, .fill 32 4] 2 (by decide) (by decide +kernel)

theorem earlyView_next : earlyView.Next lateView where
  height_le := by decide
  hashAt_eq i hi := by
    obtain rfl : i = 0 := Nat.le_zero.mp hi
    rfl

theorem lateView_sound : lateView.Sound := by
  have hblocks : ∀ k (hk : k < [0, 2, 3].length),
      lateView.blockAt k = sampleBlocks[[0, 2, 3][k]]? := by decide +kernel
  refine ⟨.ofList (l := [⟨.fill 32 1, zeroHash, 0, 0, 0⟩, ⟨.fill 32 3, .fill 32 1, 1, 7, 7⟩,
    ⟨.fill 32 4, .fill 32 3, 2, 12, 12⟩]) (fun k hk => ?_) (Nat.le_refl _) (fun pair hpair => ?_),
    fun block hblock => ?_⟩
  · rw [Nat.zero_add, hblocks k hk]
    match k, hk with
    | 0, _ | 1, _ | 2, _ => rfl
  · simp only [List.drop_one, List.tail_cons, List.zip_cons_cons, List.zip_nil_right, List.mem_cons,
      List.not_mem_nil, or_false] at hpair
    rcases hpair with rfl | rfl <;> rfl
  · cases (hblocks 0 (by decide)).symm.trans hblock
    rfl

def sampleClient : Bytes 32 → Except FetchTaskError FetchedBlock :=
  fun hash => .ok (sampleNetwork.blockOf hash)

theorem sampleClient_spec (hash : Bytes 32) : ∀ fetchBlock ∈ some sampleClient, ∀ fetched,
    fetchBlock hash = .ok fetched → fetched = sampleNetwork.blockOf hash := by
  rintro _ ⟨⟩ fetched h
  exact (Except.ok.inj h).symm

theorem lateView_callSucceeds :
    CallSucceeds lateView (.new 2 1 1 .empty) .empty (expectedBlocks lateView .empty 2) :=
  SoundCall.callSucceeds ⟨rfl, .empty lateView, .empty sampleNetwork, lateView_sound⟩ Nat.one_pos

/-- The cache after a lookup of block 1 with the given hash. -/
def lookedUp (hash : Bytes 32) : FetchStorage := (fetchSingleBlock 1 hash (some sampleClient) .empty).2

theorem lookups_transparent_iff_sample : ∃ blocks,
    CallSucceeds lateView (.new 2 1 1 (lookedUp (.fill 32 3))) (lookedUp (.fill 32 3)) blocks ∧
      blocks.take 3 = expectedBlocks lateView .empty 2 := by
  have hhistory : History sampleNetwork (fun view i => i ≤ view.finalizedHeight) lateView
      (lookedUp (.fill 32 3)) :=
    .single (.empty lateView) (by decide) rfl (sampleClient_spec _)
  obtain ⟨-, hcalls, hfinalized⟩ := lookups_transparent_iff hhistory
  exact (hcalls 1 1 _ lateView_callSucceeds).mpr (hfinalized fun _ _ h => h).1

/-- Block 1 was looked up before it was replaced. A lookup of the new block 1 returns the old one, and a
call that succeeds on an empty cache does not succeed with the same blocks. -/
theorem replaced_block_disturbs :
    History sampleNetwork (fun _ _ => True) lateView (lookedUp (.fill 32 2)) ∧
      lateView.hashAt 1 = some (.fill 32 3) ∧
      (fetchSingleBlock 1 (.fill 32 3) (some sampleClient) (lookedUp (.fill 32 2))).1 =
        .ok ⟨.fill 32 2, .fill 32 1, 1, 6, 6⟩ ∧
      ∃ blocks₀, CallSucceeds lateView (.new 2 1 1 .empty) .empty blocks₀ ∧
        ¬ ∃ blocks, CallSucceeds lateView (.new 2 1 1 (lookedUp (.fill 32 2))) (lookedUp (.fill 32 2))
          blocks ∧ blocks.take 3 = blocks₀ := by
  have hhistory : History sampleNetwork (fun _ _ => True) lateView (lookedUp (.fill 32 2)) :=
    .node (.single (.empty earlyView) trivial rfl (sampleClient_spec _)) earlyView_next
  refine ⟨hhistory, rfl, rfl, _, lateView_callSucceeds, ?_⟩
  rintro ⟨blocks, hsucceeds, hsame⟩
  have hconsistent := hsucceeds.consistent hhistory.cacheInv lateView_sound hsame
  have hhash := hconsistent.below 1 (by decide) ⟨.fill 32 2, .fill 32 1, 1, 6, 6⟩ rfl
  exact absurd hhash (by decide)

end MidnightNode.Toolkit
