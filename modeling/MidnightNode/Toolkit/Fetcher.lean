import MidnightNode.Toolkit.FetchTasks

/-!
# Fetching a chain with workers

`fetch_from_rpc` cuts the heights between the verified height of the cache and the finalized height of
the node into jobs. A pusher puts the jobs on a channel, fetch workers read the cache and ask the node for
the rest, compute workers insert and verify the blocks of a job; in the end the borders of the jobs are
verified, the verified height is raised and the chain is read from the cache.

Every access to the storage is a step of its own, and the steps of the pusher, of the workers and of the
main task interleave in any way. Heights are natural numbers: a block number of the chain is a `u32`, and
the fetcher counts in `u64`.
-/

namespace MidnightNode.Toolkit

open Fallible LinkedRange

inductive FetchTaskError
  | subxtError
  | subxtRpcError
  | nodeClientError
  | onlineClientAtBlockError
  | extrinsicError
  | blockError
  | blockHashMissing (blockNumber : Nat)
deriving DecidableEq, Repr

inductive FetchError
  | fetchTaskError (e : FetchTaskError)
  | computeTaskError (e : ComputeError)
  | workerPanic
deriving DecidableEq, Repr

/-! ## Jobs -/

/-- `BLOCKS_PER_JOB`. -/
def blocksPerJobLimit : Nat := 100

/-- Division that rounds up (`div_ceil`). -/
def divCeil (a b : Nat) : Nat := if 0 < a % b then a / b + 1 else a / b

theorem lt_divCeil_iff (hb : 0 < b) : k < divCeil a b ↔ k * b < a := by
  have hdiv := Nat.div_add_mod a b
  have hmod := Nat.mod_lt a hb
  rw [divCeil]
  split
  case isTrue hpos =>
    rw [Nat.lt_succ_iff, Nat.le_div_iff_mul_le hb]
    refine ⟨fun h => lt_of_le_of_ne h ?_, Nat.le_of_lt⟩
    rintro rfl
    rw [Nat.mul_mod_left] at hpos
    exact Nat.lt_irrefl 0 hpos
  case isFalse hzero =>
    rw [← Nat.mul_lt_mul_right hb, Nat.mul_comm (a / b)]
    have : a % b = 0 := by omega
    omega

structure Plan where
  finalizedHeight : Nat
  minHeight : Nat
  numWorkers : Nat
  numComputeWorkers : Nat

namespace Plan

/-- The plan of a call: the verified height of the cache is where it begins. -/
def new (finalizedHeight numWorkers numComputeWorkers : Nat) (storage : FetchStorage) : Plan :=
  ⟨finalizedHeight, storage.highestVerified.getD 0, numWorkers, numComputeWorkers⟩

variable (plan : Plan)

def maxHeight : Nat := plan.finalizedHeight + 1

/-- Zero when the cache is ahead of the node. -/
def fetchSpan : Nat := plan.maxHeight - plan.minHeight

def blocksPerJob : Nat :=
  if plan.fetchSpan < blocksPerJobLimit * plan.numWorkers then
    max (divCeil plan.fetchSpan plan.numWorkers) 5
  else blocksPerJobLimit

def numJobs : Nat := divCeil plan.fetchSpan plan.blocksPerJob

/-- The fetch workers that are spawned. -/
def fetchWorkers : Nat := max (min plan.numWorkers plan.numJobs) 1

theorem blocksPerJob_pos : 0 < plan.blocksPerJob := by
  rw [blocksPerJob]
  split
  · omega
  · decide

theorem lt_numJobs_iff : k < plan.numJobs ↔
    plan.minHeight + k * plan.blocksPerJob < plan.maxHeight := by
  rw [numJobs, lt_divCeil_iff plan.blocksPerJob_pos, fetchSpan]
  omega

end Plan

/-- The heights `min..max` of a job. -/
structure Job where
  min : Nat
  max : Nat

def Job.Has (job : Job) (i : Nat) : Prop := job.min ≤ i ∧ i < job.max

/-! ## The pipeline -/

inductive Stage
  /-- on the channel of the fetch workers -/
  | queued
  /-- with a fetch worker that has read the cache -/
  | fetching (uncached : List Nat)
  /-- on a channel of the compute workers -/
  | computing (task : ComputeTask)
  /-- on the channel of the main task -/
  | final (task : ComputeTask)
  /-- among the `jobs` of the main task -/
  | received (task : ComputeTask)
  /-- nothing is left to do -/
  | done
  /-- the worker that had it has ended -/
  | failed (e : FetchError)

/-- The channel a compute worker sends the next task to. -/
def Stage.ofTask : ComputeTask → Stage
  | .finalVerify min max => .final (.finalVerify min max)
  | .noOp => .done
  | task => .computing task

structure Ticket where
  job : Job
  stage : Stage

/-- What the tasks share: the storage, the fetch workers that connect and those that wait for a job,
and the compute workers. -/
structure Shared where
  storage : FetchStorage
  connecting : Nat
  idle : Nat
  computeWorkers : Nat

/-- The jobs that have been pushed stand in their order; `nextMin` is where the pusher is. -/
structure Pipeline where
  shared : Shared
  nextMin : Nat
  tickets : List Ticket

/-- A worker, or the main task, does the next thing with a job. -/
inductive Advance (job : Job) : Shared → Stage → Shared → Stage → Prop
  | take {s : Shared} {k : Nat} : s.idle = k + 1 →
    Advance job s .queued { s with idle := k } (.fetching (uncached s.storage job.min job.max))
  | fetched {s : Shared} {numbers : List Nat} (blocks : List FetchedBlock) :
    blocks.map FetchedBlock.blockNumber = numbers →
    Advance job s (.fetching numbers) { s with idle := s.idle + 1 }
      (.computing (.extractBlockData job.min job.max blocks))
  | fetchFailed {s : Shared} {numbers : List Nat} (e : FetchTaskError) :
    Advance job s (.fetching numbers) s (.failed (.fetchTaskError e))
  | fetchPanicked {s : Shared} {numbers : List Nat} :
    Advance job s (.fetching numbers) s (.failed .workerPanic)
  | worked {s : Shared} {task task' : ComputeTask} {storage : FetchStorage} :
    0 < s.computeWorkers → task.work s.storage = .ok (task', storage) →
    Advance job s (.computing task) { s with storage := storage } (.ofTask task')
  | workFailed {s : Shared} {k : Nat} {task : ComputeTask} {e : ComputeError} :
    s.computeWorkers = k + 1 → task.work s.storage = .error e →
    Advance job s (.computing task) { s with computeWorkers := k } (.failed (.computeTaskError e))
  | workPanicked {s : Shared} {k : Nat} {task : ComputeTask} :
    s.computeWorkers = k + 1 →
    Advance job s (.computing task) { s with computeWorkers := k } (.failed .workerPanic)
  | received {s : Shared} {task : ComputeTask} : Advance job s (.final task) s (.received task)

/-- A step of the pusher, of a worker, or of the main task. -/
inductive Step (plan : Plan) : Pipeline → Pipeline → Prop
  | push {p : Pipeline} : p.nextMin < plan.maxHeight →
    Step plan p
      { p with
        nextMin := p.nextMin + plan.blocksPerJob
        tickets := p.tickets ++
          [⟨⟨p.nextMin, min (p.nextMin + plan.blocksPerJob) plan.maxHeight⟩, .queued⟩] }
  | connect {p : Pipeline} {k : Nat} : p.shared.connecting = k + 1 →
    Step plan p
      { p with shared := { p.shared with connecting := k, idle := p.shared.idle + 1 } }
  | giveUp {p : Pipeline} {k : Nat} : p.shared.connecting = k + 1 →
    Step plan p { p with shared := { p.shared with connecting := k } }
  | advance {p : Pipeline} {s : Shared} {before after : List Ticket} {job : Job}
      {stage stage' : Stage} : p.tickets = before ++ ⟨job, stage⟩ :: after →
    Advance job p.shared stage s stage' →
    Step plan p { p with shared := s, tickets := before ++ ⟨job, stage'⟩ :: after }

def Pipeline.init (plan : Plan) (storage : FetchStorage) : Pipeline :=
  ⟨⟨storage, plan.fetchWorkers, 0, plan.numComputeWorkers⟩, plan.minHeight, []⟩

/-! ## The end of a call -/

/-- How a call ends without blocks once the jobs are there. -/
inductive Abort
  | error (e : FetchError)
  | missingBlock (i : Nat)

/-- The verified height is only raised. -/
def Plan.raiseVerified (plan : Plan) (storage : FetchStorage) : FetchStorage :=
  if plan.finalizedHeight > plan.minHeight then
    storage.setHighestVerifiedBlock plan.finalizedHeight
  else storage

/-- The borders of the jobs, one job after the other. -/
def finalVerifyAll (storage : FetchStorage) : List ComputeTask → Except ComputeError FetchStorage
  | [] => .ok storage
  | job :: jobs => do
    let (_, storage) ← job.work storage
    finalVerifyAll storage jobs

/-- What the main task does with the jobs. -/
def Plan.finish (plan : Plan) (jobs : List ComputeTask) (storage : FetchStorage) :
    Except Abort (List RawBlockData × FetchStorage) := do
  let storage ← (finalVerifyAll storage jobs).mapError fun e => .error (.computeTaskError e)
  let storage := plan.raiseVerified storage
  let blocks ← (readBlocksFromCache storage).mapError .missingBlock
  return (blocks, storage)

def Stage.received? : Stage → Option ComputeTask
  | .received task => some task
  | _ => none

def Pipeline.receivedJobs (p : Pipeline) : List ComputeTask :=
  p.tickets.filterMap fun ticket => ticket.stage.received?

/-- The call returns `result` from here: all jobs have arrived, in some order. Channels for no compute
worker cannot be made. -/
def Returns (plan : Plan) (p : Pipeline) (result : List RawBlockData × FetchStorage) : Prop :=
  0 < plan.numComputeWorkers ∧ ∃ jobs, jobs.Perm p.receivedJobs ∧ jobs.length = plan.numJobs ∧
    plan.finish jobs p.shared.storage = .ok result

/-! ## What a step does -/

/-- The storage changes only inside the job, and no block is replaced. -/
structure Writes (job : Job) (storage storage' : FetchStorage) : Prop where
  grows : Extends storage.blocks storage'.blocks
  outside : ∀ i, ¬ job.Has i → storage'.blocks i = storage.blocks i
  numbered : storage.Numbered → storage'.Numbered
  highestVerified : storage'.highestVerified = storage.highestVerified

theorem Writes.refl (job : Job) (storage : FetchStorage) : Writes job storage storage :=
  ⟨.refl _, fun _ _ => rfl, id, rfl⟩

/-- What is known of a job at a stage. -/
def Stage.Ok (storage : FetchStorage) (job : Job) : Stage → Prop
  | .queued | .failed _ => True
  | .fetching numbers => ∀ i ∈ numbers, job.Has i ∧ storage.blocks i = none
  | .computing task =>
    (∃ blocks, task = .extractBlockData job.min job.max blocks ∧ ∀ block ∈ blocks,
      job.Has block.blockNumber ∧ storage.blocks block.blockNumber = none) ∨
    task = .verify job.min job.max
  | .final task | .received task =>
    task = .finalVerify job.min job.max ∧ LinkedOn IsParent storage.blocks job.min job.max
  | .done => False

section

variable {plan : Plan} {p p' : Pipeline} {s s' : Shared} {job other : Job} {stage stage' : Stage}
variable {storage storage' start : FetchStorage}

theorem Stage.Ok.of_writes (hok : stage.Ok storage other) (hwrites : Writes job storage storage')
    (hapart : ∀ i, other.Has i → ¬ job.Has i) : stage.Ok storage' other := by
  cases stage with
  | queued | failed => trivial
  | fetching numbers =>
    intro i hi
    obtain ⟨hhas, hnone⟩ := hok i hi
    exact ⟨hhas, (hwrites.outside i (hapart i hhas)).trans hnone⟩
  | computing task =>
    refine hok.imp_left ?_
    rintro ⟨blocks, rfl, hblocks⟩
    refine ⟨blocks, rfl, fun block hblock => ?_⟩
    obtain ⟨hhas, hnone⟩ := hblocks block hblock
    exact ⟨hhas, (hwrites.outside _ (hapart _ hhas)).trans hnone⟩
  | final task | received task => exact ⟨hok.1, hok.2.mono hwrites.grows⟩
  | done => exact hok

/-- What a worker does with a job: it writes the blocks of the job that were missing, and the job is at
the next stage as it should be. -/
theorem Advance.spec (h : Advance job s stage s' stage') (hok : stage.Ok s.storage job) :
    Writes job s.storage s'.storage ∧ stage'.Ok s'.storage job := by
  cases h with
  | take => exact ⟨.refl _ _, fun i hi => mem_uncached.mp hi⟩
  | fetched blocks hnumbers =>
    refine ⟨.refl _ _, .inl ⟨blocks, rfl, fun block hblock => ?_⟩⟩
    exact hok _ (hnumbers ▸ List.mem_map_of_mem hblock)
  | fetchFailed | fetchPanicked | workFailed | workPanicked => exact ⟨.refl _ _, trivial⟩
  | worked hworkers hwork =>
    rcases hok with ⟨blocks, rfl, hblocks⟩ | rfl
    · obtain ⟨rfl, inserted, rfl, hinserted⟩ := work_extractBlockData hwork
      have hmissing : ∀ block ∈ inserted,
          job.Has block.number ∧ s.storage.blocks block.number = none := by
        intro block hblock
        obtain ⟨fetched, hfetched, hnumber⟩ := hinserted block hblock
        exact hnumber ▸ hblocks fetched hfetched
      refine ⟨⟨?_, fun i hi => ?_, fun h => h.insertBlockDataRange _, ?_⟩, .inr rfl⟩
      · exact FetchStorage.extends_insertBlockDataRange fun block hblock =>
          (hmissing block hblock).2
      · refine FetchStorage.insertBlockDataRange_of_not_mem ?_
        rintro block hblock rfl
        exact hi (hmissing block hblock).1
      · exact FetchStorage.insertBlockDataRange_highestVerified _ _
    · obtain ⟨rfl, rfl, hlinked⟩ := work_verify hwork
      exact ⟨.refl _ _, rfl, hlinked⟩
  | received => exact ⟨.refl _ _, hok⟩

/-! ## What a run keeps -/

/-- The jobs cut the heights the pusher has passed into pieces. -/
structure Cut (plan : Plan) (nextMin : Nat) (jobs : List Job) : Prop where
  next_eq : nextMin = plan.minHeight + jobs.length * plan.blocksPerJob
  length_le : jobs.length ≤ plan.numJobs
  covered : ∀ i, plan.minHeight ≤ i → i < nextMin → i < plan.maxHeight → ∃ job ∈ jobs, job.Has i
  max_le : ∀ job ∈ jobs, job.max ≤ nextMin
  apart : jobs.Pairwise fun a b => a.max ≤ b.min

theorem Cut.nil (plan : Plan) : Cut plan plan.minHeight [] where
  next_eq := by simp
  length_le := Nat.zero_le _
  covered _ hmin hnext := absurd hnext (Nat.not_lt.mpr hmin)
  max_le _ h := absurd h List.not_mem_nil
  apart := .nil

theorem Cut.push (hcut : Cut plan nextMin jobs) (hnext : nextMin < plan.maxHeight) :
    Cut plan (nextMin + plan.blocksPerJob)
      (jobs ++ [⟨nextMin, min (nextMin + plan.blocksPerJob) plan.maxHeight⟩]) where
  next_eq := by
    rw [List.length_append, List.length_singleton, Nat.add_mul, Nat.one_mul, ← Nat.add_assoc,
      ← hcut.next_eq]
  length_le := by
    rw [List.length_append]
    exact plan.lt_numJobs_iff.mpr (hcut.next_eq ▸ hnext)
  covered i hmin hi hmax := by
    by_cases hold : i < nextMin
    · obtain ⟨job, hjob, hhas⟩ := hcut.covered i hmin hold hmax
      exact ⟨job, List.mem_append_left _ hjob, hhas⟩
    · exact ⟨_, List.mem_append_right _ List.mem_cons_self, Nat.not_lt.mp hold, lt_min hi hmax⟩
  max_le job hjob := by
    rcases List.mem_append.mp hjob with hjob | hjob
    · exact (hcut.max_le job hjob).trans (Nat.le_add_right _ _)
    · cases List.mem_singleton.mp hjob
      exact min_le_left _ _
  apart := by
    refine List.pairwise_append.mpr ⟨hcut.apart, List.pairwise_singleton _ _, fun a ha b hb => ?_⟩
    cases List.mem_singleton.mp hb
    exact hcut.max_le a ha

theorem Cut.covers (hcut : Cut plan nextMin jobs) (hall : jobs.length = plan.numJobs)
    (hmin : plan.minHeight ≤ i) (hmax : i < plan.maxHeight) : ∃ job ∈ jobs, job.Has i := by
  have hend : ¬ nextMin < plan.maxHeight := by
    rw [hcut.next_eq, hall, ← plan.lt_numJobs_iff]
    exact Nat.lt_irrefl _
  exact hcut.covered i hmin (by omega) hmax

def Pipeline.jobs (p : Pipeline) : List Job := p.tickets.map Ticket.job

/-- Each job is at a stage as it should be, and the storage has grown from `start`. -/
structure Inv (plan : Plan) (start : FetchStorage) (p : Pipeline) : Prop where
  cut : Cut plan p.nextMin p.jobs
  ok : ∀ ticket ∈ p.tickets, ticket.stage.Ok p.shared.storage ticket.job
  numbered : p.shared.storage.Numbered
  grown : Extends start.blocks p.shared.storage.blocks
  highestVerified : p.shared.storage.highestVerified = start.highestVerified

theorem Inv.init (plan : Plan) (hstart : start.Numbered) : Inv plan start (.init plan start) where
  cut := .nil plan
  ok _ h := absurd h List.not_mem_nil
  numbered := hstart
  grown := .refl _
  highestVerified := rfl

theorem Inv.push (hinv : Inv plan start p) (hnext : p.nextMin < plan.maxHeight) :
    Inv plan start { p with
      nextMin := p.nextMin + plan.blocksPerJob
      tickets := p.tickets ++
        [⟨⟨p.nextMin, min (p.nextMin + plan.blocksPerJob) plan.maxHeight⟩, .queued⟩] } where
  cut := by
    rw [Pipeline.jobs, List.map_append]
    exact hinv.cut.push hnext
  ok ticket hticket := by
    rcases List.mem_append.mp hticket with hticket | hticket
    · exact hinv.ok ticket hticket
    · cases List.mem_singleton.mp hticket
      trivial
  numbered := hinv.numbered
  grown := hinv.grown
  highestVerified := hinv.highestVerified

theorem not_has_of_apart (h : (before ++ job :: after).Pairwise fun a b => a.max ≤ b.min)
    (hother : other ∈ before ∨ other ∈ after) (i : Nat) (hi : other.Has i) : ¬ job.Has i := by
  obtain ⟨-, hafter, hbefore⟩ := List.pairwise_append.mp h
  rintro ⟨hmin, hmax⟩
  rcases hother with hmem | hmem
  · have hle := hbefore other hmem job List.mem_cons_self
    exact absurd hi.2 (by omega)
  · have hle := (List.pairwise_cons.mp hafter).1 other hmem
    exact absurd hi.1 (by omega)

/-- A job that goes on leaves the others as they are. -/
theorem Inv.advance (hinv : Inv plan start p) (htickets : p.tickets = before ++ ⟨job, stage⟩ :: after)
    (hadvance : Advance job p.shared stage s stage') :
    Inv plan start { p with shared := s, tickets := before ++ ⟨job, stage'⟩ :: after } := by
  have hjobs : p.jobs = before.map Ticket.job ++ job :: after.map Ticket.job := by
    simp [Pipeline.jobs, htickets]
  have hok : ∀ ticket ∈ before ++ ⟨job, stage⟩ :: after,
      ticket.stage.Ok p.shared.storage ticket.job := htickets ▸ hinv.ok
  obtain ⟨hwrites, hok'⟩ := hadvance.spec (hok ⟨job, stage⟩ (by simp))
  have hother : ∀ ticket, ticket ∈ before ∨ ticket ∈ after →
      ticket.stage.Ok s.storage ticket.job := by
    intro ticket hticket
    refine (hok ticket ?_).of_writes hwrites (not_has_of_apart (hjobs ▸ hinv.cut.apart) ?_)
    · exact List.mem_append.mpr (hticket.imp_right (List.mem_cons_of_mem _))
    · exact hticket.imp List.mem_map_of_mem List.mem_map_of_mem
  refine ⟨?_, fun ticket hticket => ?_, hwrites.numbered hinv.numbered,
    hinv.grown.trans hwrites.grows, hwrites.highestVerified.trans hinv.highestVerified⟩
  · rw [Pipeline.jobs, List.map_append, List.map_cons, ← hjobs]
    exact hinv.cut
  · rcases List.mem_append.mp hticket with hbefore | hafter
    · exact hother ticket (.inl hbefore)
    · rcases List.mem_cons.mp hafter with rfl | hafter
      · exact hok'
      · exact hother ticket (.inr hafter)

theorem Inv.step (hinv : Inv plan start p) (hstep : Step plan p p') : Inv plan start p' := by
  cases hstep with
  | push hnext => exact hinv.push hnext
  | connect | giveUp =>
    exact ⟨hinv.cut, hinv.ok, hinv.numbered, hinv.grown, hinv.highestVerified⟩
  | advance htickets hadvance => exact hinv.advance htickets hadvance

theorem Inv.run (hstart : start.Numbered)
    (hrun : Relation.ReflTransGen (Step plan) (.init plan start) p) : Inv plan start p := by
  induction hrun with
  | refl => exact .init plan hstart
  | tail _ hstep ih => exact ih.step hstep

/-! ## What a call returns -/

theorem finalVerifyAll_ok (hjobs : ∀ task ∈ jobs, ∃ min max, task = .finalVerify min max)
    (h : finalVerifyAll storage jobs = .ok storage') : storage' = storage ∧
      ∀ min max, .finalVerify min max ∈ jobs → JoinedAt IsParent storage.blocks max ∧
        (min = 0 → ∃ block, storage.blocks 0 = some block ∧ block.parentHash = zeroHash) := by
  induction jobs with
  | nil =>
    cases h
    exact ⟨rfl, fun _ _ hmem => absurd hmem List.not_mem_nil⟩
  | cons task jobs ih =>
    obtain ⟨⟨next, between⟩, hwork, hjobs'⟩ := of_bind h
    obtain ⟨min, max, rfl⟩ := hjobs task List.mem_cons_self
    obtain ⟨rfl, hborders⟩ := work_finalVerify hwork
    obtain ⟨rfl, hrest⟩ := ih (fun task htask => hjobs task (List.mem_cons_of_mem _ htask)) hjobs'
    refine ⟨rfl, fun min' max' hmem => ?_⟩
    rcases List.mem_cons.mp hmem with heq | hmem
    · cases heq
      exact hborders
    · exact hrest min' max' hmem

theorem Inv.received (hinv : Inv plan start p) (htask : task ∈ p.receivedJobs) :
    ∃ min max, task = .finalVerify min max := by
  obtain ⟨⟨job, stage⟩, hticket, hreceived⟩ := List.mem_filterMap.mp htask
  cases stage with
  | received task' =>
    cases hreceived
    exact ⟨_, _, (hinv.ok _ hticket).1⟩
  | queued | fetching | computing | final | done | failed => cases hreceived

theorem Inv.all_received (hinv : Inv plan start p) (hall : p.receivedJobs.length = plan.numJobs) :
    p.jobs.length = plan.numJobs ∧ ∀ job ∈ p.jobs, .finalVerify job.min job.max ∈ p.receivedJobs ∧
      LinkedOn IsParent p.shared.storage.blocks job.min job.max := by
  have hle := hinv.cut.length_le
  have hfilter : p.receivedJobs.length ≤ p.tickets.length := List.length_filterMap_le _ _
  rw [Pipeline.jobs, List.length_map] at hle
  have hsome := List.filterMap_length_eq_length.mp
    (show p.receivedJobs.length = p.tickets.length by omega)
  refine ⟨by rw [Pipeline.jobs, List.length_map]; omega, fun job hjob => ?_⟩
  obtain ⟨⟨job, stage⟩, hticket, rfl⟩ := List.mem_map.mp hjob
  obtain ⟨task, htask⟩ := Option.isSome_iff_exists.mp (hsome _ hticket)
  cases stage with
  | received task' =>
    obtain ⟨heq, hlinked⟩ := hinv.ok _ hticket
    exact ⟨List.mem_filterMap.mpr ⟨_, hticket, congrArg some heq⟩, hlinked⟩
  | queued | fetching | computing | final | done | failed => cases htask

/-- With every job verified and the borders checked, the whole range is linked. -/
theorem Inv.linked (hinv : Inv plan start p) (hperm : jobs.Perm p.receivedJobs)
    (hall : jobs.length = plan.numJobs) (hfinal : finalVerifyAll p.shared.storage jobs = .ok storage) :
    storage = p.shared.storage ∧
      LinkedOn IsParent p.shared.storage.blocks plan.minHeight plan.maxHeight ∧
      (plan.minHeight = 0 →
        ∃ block, p.shared.storage.blocks 0 = some block ∧ block.parentHash = zeroHash) := by
  obtain ⟨hlength, hjobs⟩ := hinv.all_received (hperm.length_eq ▸ hall)
  obtain ⟨rfl, hborders⟩ := finalVerifyAll_ok
    (fun task htask => hinv.received (hperm.mem_iff.mp htask)) hfinal
  have hborders' : ∀ job ∈ p.jobs, JoinedAt IsParent p.shared.storage.blocks job.max ∧ (job.min = 0 →
      ∃ block, p.shared.storage.blocks 0 = some block ∧ block.parentHash = zeroHash) :=
    fun job hjob => hborders _ _ (hperm.mem_iff.mpr (hjobs job hjob).1)
  refine ⟨rfl, ?_, fun hzero => ?_⟩
  · exact .ofPieces (fun i hmin hmax => hinv.cut.covers hlength hmin hmax)
      (fun job hjob => (hjobs job hjob).2) fun job hjob => (hborders' job hjob).1
  · -- the job with the lowest height is the one whose lower border is checked
    have hmax : 0 < plan.maxHeight := Nat.succ_pos _
    obtain ⟨job, hjob, hhas⟩ := hinv.cut.covers hlength hzero.le hmax
    exact (hborders' job hjob).2 (Nat.le_zero.mp hhas.1)

/-- The verified height of a cache is one up to which its blocks are linked. -/
structure FetchStorage.Valid (storage : FetchStorage) : Prop where
  numbered : storage.Numbered
  verified : ∀ height, storage.highestVerified = some height → storage.VerifiedTo height

/-- The verified height has not been lowered. -/
def FetchStorage.NotLowered (storage storage' : FetchStorage) : Prop :=
  ∀ height, storage.highestVerified = some height →
    ∃ height', storage'.highestVerified = some height' ∧ height ≤ height'

/-- `n + 1` blocks with the numbers from 0 on, each the parent of the next; the first has no parent. -/
structure IsChain (blocks : List RawBlockData) (n : Nat) : Prop where
  length_eq : blocks.length = n + 1
  number_eq : ∀ i (block : RawBlockData), blocks[i]? = some block → block.number = i
  linked : ∀ i (parent child : RawBlockData), blocks[i]? = some parent → blocks[i + 1]? = some child →
    child.parentHash = parent.hash
  genesis : ∀ block : RawBlockData, blocks[0]? = some block → block.parentHash = zeroHash

theorem FetchStorage.Valid.of_grown (hvalid : start.Valid) (hnumbered : storage.Numbered)
    (hgrown : Extends start.blocks storage.blocks)
    (hverified : storage.highestVerified = start.highestVerified) : storage.Valid where
  numbered := hnumbered
  verified height hheight := (hvalid.verified height (hverified ▸ hheight)).mono hgrown

theorem FetchStorage.Valid.verifiedTo (hvalid : storage.Valid)
    (hmin : plan.minHeight = storage.highestVerified.getD 0)
    (hlinked : LinkedOn IsParent storage.blocks plan.minHeight plan.maxHeight)
    (hgenesis : plan.minHeight = 0 →
      ∃ block, storage.blocks 0 = some block ∧ block.parentHash = zeroHash) :
    storage.VerifiedTo (max plan.minHeight plan.finalizedHeight) := by
  cases hheight : storage.highestVerified with
  | none =>
    rw [hheight, Option.getD_none] at hmin
    rw [hmin] at hlinked
    rw [hmin, Nat.zero_max]
    obtain ⟨first, hfirst, hzero⟩ := hgenesis hmin
    refine ⟨hlinked, fun block hblock => ?_⟩
    cases hfirst.symm.trans hblock
    exact hzero
  | some height =>
    rw [hheight, Option.getD_some] at hmin
    have hbefore := hvalid.verified height hheight
    rw [← hmin] at hbefore
    rcases Nat.le_total plan.finalizedHeight plan.minHeight with hle | hle
    · rwa [Nat.max_eq_left hle]
    · rw [Nat.max_eq_right hle]
      exact ⟨hbefore.linked.union hlinked (Nat.lt_succ_self _), hbefore.genesis⟩

theorem Plan.raiseVerified_getD (hmin : plan.minHeight = storage.highestVerified.getD 0) :
    (plan.raiseVerified storage).highestVerified.getD 0 =
      max plan.minHeight plan.finalizedHeight := by
  by_cases hlt : plan.finalizedHeight > plan.minHeight
  · rw [raiseVerified, if_pos hlt, Nat.max_eq_right (Nat.le_of_lt hlt)]
    rfl
  · rw [raiseVerified, if_neg hlt, Nat.max_eq_left (Nat.not_lt.mp hlt), hmin]

theorem Plan.notLowered_raiseVerified (hmin : plan.minHeight = storage.highestVerified.getD 0) :
    storage.NotLowered (plan.raiseVerified storage) := by
  intro height hheight
  by_cases hlt : plan.finalizedHeight > plan.minHeight
  · refine ⟨plan.finalizedHeight, by rw [raiseVerified, if_pos hlt]; rfl, ?_⟩
    rw [hmin, hheight] at hlt
    exact Nat.le_of_lt hlt
  · exact ⟨height, by rw [raiseVerified, if_neg hlt, hheight], Nat.le_refl _⟩

@[simp] theorem Plan.raiseVerified_blocks (plan : Plan) (storage : FetchStorage) :
    (plan.raiseVerified storage).blocks = storage.blocks := by
  rw [raiseVerified]
  split <;> rfl

theorem isChain_of_read (hread : readBlocksFromCache storage = .ok blocks) (hnumbered : storage.Numbered)
    (hverified : storage.VerifiedTo (storage.highestVerified.getD 0)) :
    IsChain blocks (storage.highestVerified.getD 0) := by
  obtain ⟨hlength, hstored⟩ := readBlocksFromCache_ok hread
  refine ⟨hlength, fun i block hblock => ?_, fun i parent child hparent hchild => ?_,
    fun block hblock => ?_⟩
  · obtain ⟨stored, time, hi, rfl⟩ := hstored i block hblock
    exact hnumbered i stored hi
  · obtain ⟨parent', _, hi, rfl⟩ := hstored i parent hparent
    obtain ⟨child', _, hi', rfl⟩ := hstored (i + 1) child hchild
    have hlt := (List.getElem?_eq_some_iff.mp hchild).1
    exact hverified.linked.joined i (Nat.zero_le i) (by omega) parent' child' hi hi'
  · obtain ⟨stored, _, hi, rfl⟩ := hstored 0 block hblock
    exact hverified.genesis stored hi

end

/-- From any point of any interleaving, a call that returns returns one linked chain, up to the finalized
height and what was verified before at least. The verified height is not lowered, however the call
ends. -/
theorem fetchFromRpc_linked (finalizedHeight numWorkers numComputeWorkers : Nat)
    {start : FetchStorage} (hstart : start.Valid) {plan : Plan}
    (hplan : plan = .new finalizedHeight numWorkers numComputeWorkers start) {p : Pipeline}
    (hrun : Relation.ReflTransGen (Step plan) (.init plan start) p) :
    start.NotLowered p.shared.storage ∧ start.NotLowered (plan.raiseVerified p.shared.storage) ∧
      ∀ blocks storage, Returns plan p (blocks, storage) → ∃ n, IsChain blocks n ∧
        finalizedHeight ≤ n ∧ start.highestVerified.getD 0 ≤ n ∧ start.NotLowered storage := by
  have hinv := Inv.run hstart.numbered hrun
  have hvalid := hstart.of_grown hinv.numbered hinv.grown hinv.highestVerified
  have hmin : plan.minHeight = p.shared.storage.highestVerified.getD 0 := by
    rw [hplan, hinv.highestVerified, Plan.new]
  have hraised : start.NotLowered (plan.raiseVerified p.shared.storage) := fun height hheight =>
    Plan.notLowered_raiseVerified hmin height (hinv.highestVerified.trans hheight)
  refine ⟨fun height hheight => ⟨height, hinv.highestVerified.trans hheight, Nat.le_refl _⟩, hraised,
    ?_⟩
  rintro blocks storage ⟨-, jobs, hperm, hall, hfinish⟩
  obtain ⟨verified, hfinal, hfinish⟩ := of_bind hfinish
  obtain ⟨read, hread, hfinish⟩ := of_bind hfinish
  cases hfinish
  obtain ⟨rfl, hlinked, hgenesis⟩ := hinv.linked hperm hall (of_mapError hfinal)
  have hto := hvalid.verifiedTo hmin hlinked hgenesis
  have hheight := Plan.raiseVerified_getD hmin
  refine ⟨_, isChain_of_read (of_mapError hread) ?_ ?_, ?_, ?_, hraised⟩
  · exact fun i block hblock => hinv.numbered i block (by simpa using hblock)
  · rw [hheight]
    exact hto.mono (by rw [Plan.raiseVerified_blocks]; exact .refl _)
  · rw [hheight, hplan]
    exact Nat.le_max_right _ _
  · rw [hheight, hmin, hinv.highestVerified]
    exact Nat.le_max_left _ _

/-! ## A call on a cache that has the first block -/

def sampleBlock (number : Nat) : RawBlockData :=
  ⟨Bytes.fill 32 (UInt8.ofNat (number + 1)), Bytes.fill 32 (UInt8.ofNat number), number,
    6 * number, 6 * number⟩

def sampleFetched (number : Nat) : FetchedBlock where
  blockNumber := number
  extractData := .ok (sampleBlock number)
  number_eq _ h := by
    cases h
    rfl

def sampleCache : FetchStorage where
  blocks i := if i = 0 then some (sampleBlock 0) else none
  highestVerified := some 0

def samplePlan : Plan := .new 1 2 1 sampleCache

def samplePipeline (storage : FetchStorage) (idle : Nat) (stage : Stage) : Pipeline :=
  ⟨⟨storage, 0, idle, 1⟩, 5, [⟨⟨0, 2⟩, stage⟩]⟩

def sampleFilled : FetchStorage := sampleCache.insertBlockDataRange [sampleBlock 1]

theorem sampleCache_valid : sampleCache.Valid := by
  have hblocks : ∀ i block, sampleCache.blocks i = some block → i = 0 ∧ block = sampleBlock 0 := by
    intro i block h
    obtain ⟨hi, h⟩ := Option.ite_none_right_eq_some.mp h
    exact ⟨hi, (Option.some.inj h).symm⟩
  refine ⟨fun i block h => ?_, fun height h => ?_⟩
  · obtain ⟨rfl, rfl⟩ := hblocks i block h
    rfl
  · cases h
    refine ⟨⟨fun i _ hi => ?_, fun i _ hi => absurd hi (by omega)⟩, fun block h => ?_⟩
    · obtain rfl : i = 0 := by omega
      exact ⟨_, rfl⟩
    · obtain ⟨-, rfl⟩ := hblocks 0 block h
      rfl

theorem Step.advance_single (h : Advance job s stage s' stage') :
    Step plan ⟨s, nextMin, [⟨job, stage⟩]⟩ ⟨s', nextMin, [⟨job, stage'⟩]⟩ :=
  @Step.advance plan ⟨s, nextMin, [⟨job, stage⟩]⟩ s' [] [] job stage stage' rfl h

theorem sample_run : Relation.ReflTransGen (Step samplePlan) (.init samplePlan sampleCache)
    (samplePipeline sampleFilled 1 (.received (.finalVerify 0 2))) := by
  have connect : Step samplePlan (.init samplePlan sampleCache) ⟨⟨sampleCache, 0, 1, 1⟩, 0, []⟩ :=
    .connect rfl
  have push : Step samplePlan ⟨⟨sampleCache, 0, 1, 1⟩, 0, []⟩
      (samplePipeline sampleCache 1 .queued) := .push (by decide)
  have take : Step samplePlan (samplePipeline sampleCache 1 .queued)
      (samplePipeline sampleCache 0 (.fetching [1])) := .advance_single (.take rfl)
  have fetched : Step samplePlan (samplePipeline sampleCache 0 (.fetching [1]))
      (samplePipeline sampleCache 1 (.computing (.extractBlockData 0 2 [sampleFetched 1]))) :=
    .advance_single (.fetched _ rfl)
  have extracted : Step samplePlan
      (samplePipeline sampleCache 1 (.computing (.extractBlockData 0 2 [sampleFetched 1])))
      (samplePipeline sampleFilled 1 (.ofTask (.verify 0 2))) :=
    .advance_single (.worked Nat.one_pos rfl)
  have verified : Step samplePlan (samplePipeline sampleFilled 1 (.computing (.verify 0 2)))
      (samplePipeline sampleFilled 1 (.ofTask (.finalVerify 0 2))) :=
    .advance_single (.worked Nat.one_pos rfl)
  have received : Step samplePlan (samplePipeline sampleFilled 1 (.final (.finalVerify 0 2)))
      (samplePipeline sampleFilled 1 (.received (.finalVerify 0 2))) := .advance_single .received
  exact ((((((Relation.ReflTransGen.single connect).tail push).tail take).tail fetched).tail
    extracted).tail verified).tail received

theorem sample_returns :
    Returns samplePlan (samplePipeline sampleFilled 1 (.received (.finalVerify 0 2)))
      ([sampleBlock 0, { sampleBlock 1 with lastBlockTimeSecs := 0 }],
        sampleFilled.setHighestVerifiedBlock 1) :=
  ⟨Nat.one_pos, _, .refl _, rfl, rfl⟩

theorem fetchFromRpc_linked_sample :
    sampleCache.NotLowered (sampleFilled.setHighestVerifiedBlock 1) ∧
      ∃ n, IsChain [sampleBlock 0, { sampleBlock 1 with lastBlockTimeSecs := 0 }] n ∧ 1 ≤ n := by
  obtain ⟨-, -, hreturns⟩ := fetchFromRpc_linked 1 2 1 sampleCache_valid rfl sample_run
  obtain ⟨n, hchain, hfinal, -, hlowered⟩ := hreturns _ _ sample_returns
  exact ⟨hlowered, n, hchain, hfinal⟩

end MidnightNode.Toolkit
