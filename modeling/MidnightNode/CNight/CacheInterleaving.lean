import MidnightNode.CNight.CacheRefinement

/-!
# A query between the steps of a refresh

The bounds of the window and its events live under three locks. A query reads the end, then the
start, then slices the events; a refresh slides the events, then writes the start, then the end.
This module interleaves the two, step by step. Refreshes are single-flight, so one of them is in
progress at a time; other queries only touch the memo (`observe`).

Between the slide and the write of the start the bounds describe events that are gone. A query that
reads the start then, or has read it before the slide, may slice a window that was trimmed or moved
away in the meantime. `Undisturbed` excludes just that: no such slide drops a block the query needs.
-/

namespace MidnightNode.CNight

open SortedSlice

/-! ## The interleaved system -/

inductive RefreshPc
  | idle
  | pulled (p : RefreshPlan) (extension : List ObservedUtxo)
  | slid (p : RefreshPlan)
  | startWritten (p : RefreshPlan)

/-- Where the query has got to; `served` keeps the slice it was given, `none` for a panic. -/
inductive QueryPc
  | begin
  | readEnd (snapshotEnd : Option Nat)
  | readStart (snapshotEnd snapshotStart : Option Nat)
  | served (window : Option (List ObservedUtxo))
  | delegated
deriving DecidableEq

structure Interleaved where
  cache : Cache
  refresh : RefreshPc
  query : QueryPc

/-- The steps between two locks. The reads in front of the pull are one step: nobody else writes
what they read, the memo apart. -/
inductive Action
  | plan (followerAnchor targetEnd : Nat)
  | slide
  | writeStart
  | writeEnd
  | observe (o : Option LastObservation)
  | readEnd
  | readStart
  | slice

/-- Whether a query that has read these bounds serves from the cache. -/
def serves (snapshotEnd snapshotStart : Option Nat) (start tipPos : CardanoPosition) : Bool :=
  match snapshotEnd with
  | none => false
  | some se => !Cache.outsideWindow snapshotStart se start tipPos

section System
variable (lib : CardanoLib) (db : DbSync) (start : CardanoPosition) (tip : Block)

def Interleaved.step (s : Interleaved) : Action → Option Interleaved
  | .plan followerAnchor targetEnd =>
    match s.refresh with
    | .idle =>
      match s.cache.plan db followerAnchor targetEnd with
      | none => some s
      | some p =>
        match s.cache.pull lib db p with
        | .error _ => some s
        | .ok extension => some { s with refresh := .pulled p extension }
    | _ => none
  | .slide =>
    match s.refresh with
    | .pulled p extension =>
      some { s with cache := s.cache.slide extension p, refresh := .slid p }
    | _ => none
  | .writeStart =>
    match s.refresh with
    | .slid p => some { s with cache := s.cache.writeStart p, refresh := .startWritten p }
    | _ => none
  | .writeEnd =>
    match s.refresh with
    | .startWritten p => some { s with cache := s.cache.writeEnd p, refresh := .idle }
    | _ => none
  | .observe o => some { s with cache := { s.cache with lastObservation := o } }
  | .readEnd =>
    match s.query with
    | .begin => some { s with query := .readEnd s.cache.snapshotEndBlock }
    | _ => none
  | .readStart =>
    match s.query with
    | .readEnd se => some { s with query := .readStart se s.cache.snapshotStartBlock }
    | _ => none
  | .slice =>
    match s.query with
    | .readStart se ss =>
      if serves se ss start tip.toPosition then
        let window := sliceRange s.cache.allEvents start tip.toPosition.increment
        some { s with query := .served window }
      else some { s with query := .delegated }
    | _ => none

/-- All events of `[start, tip]` lie in the blocks from `n` on. -/
def NeedsOnlyFrom (cfg : CNightAddresses) (n : Nat) : Prop :=
  ∀ u ∈ dbEvents lib db cfg, start.key ≤ u.key → u.key ≤ tip.toPosition.key → n ≤ u.blockNumber

/-- The condition on a step: a pull reaches no row limit, and the blocks dropped by a slide that
comes between the bounds check and the slice, or between the slide's own two writes, hold nothing
the query needs. -/
def Undisturbed (s : Interleaved) : Action → Prop
  | .plan followerAnchor targetEnd => ∀ p, s.cache.plan db followerAnchor targetEnd = some p →
      PullComplete lib db s.cache p
  | .slide => ∀ p extension se ss, s.refresh = .pulled p extension → s.query = .readStart se ss →
      serves se ss start tip.toPosition = true →
      NeedsOnlyFrom lib db start tip s.cache.cnightAddresses p.newWindowStart
  | .readStart => ∀ p se, s.refresh = .slid p → s.query = .readEnd se →
      serves se s.cache.snapshotStartBlock start tip.toPosition = true →
      NeedsOnlyFrom lib db start tip s.cache.cnightAddresses p.newWindowStart
  | _ => True

def UndisturbedStep (s s' : Interleaved) : Prop :=
  ∃ a, Undisturbed lib db start tip s a ∧ s.step lib db start tip a = some s'

/-- The slice of a query that serves from the cache contains every event of `[start, tip]`. -/
def CompleteSlice (cfg : CNightAddresses) (window : Option (List ObservedUtxo)) : Prop :=
  ∀ u ∈ dbEvents lib db cfg, start.key ≤ u.key → u.key ≤ tip.toPosition.key →
    ∃ l ∈ window, u ∈ l

/-! ## The invariant -/

/-- The events of the blocks `[lo, hi]` are held, whatever the bounds say in this phase. -/
inductive PhaseInv (db : DbSync) (events : List ObservedUtxo) : Cache → RefreshPc → Nat → Nat → Prop
  | idle {c : Cache} {lo hi : Nat} (hw : WindowInv Eq events c lo hi) :
      PhaseInv db events c .idle lo hi
  | pulled {c : Cache} {lo hi : Nat} {p : RefreshPlan} {extension : List ObservedUtxo}
      (hw : WindowInv Eq events c lo hi) (hp : p.Of db lo hi)
      (hext : extension = blockRange p.fromBlock p.targetEnd events) :
      PhaseInv db events c (.pulled p extension) lo hi
  | slid {c : Cache} {p : RefreshPlan} {se : Nat}
      (hw : WindowInv Eq events ((c.writeStart p).writeEnd p) p.newWindowStart p.targetEnd)
      (hse : c.snapshotEndBlock = some se) (hle : se ≤ p.targetEnd) :
      PhaseInv db events c (.slid p) p.newWindowStart p.targetEnd
  | startWritten {c : Cache} {p : RefreshPlan} {se : Nat}
      (hw : WindowInv Eq events (c.writeEnd p) p.newWindowStart p.targetEnd)
      (hse : c.snapshotEndBlock = some se) (hle : se ≤ p.targetEnd) :
      PhaseInv db events c (.startWritten p) p.newWindowStart p.targetEnd

/-- What the query knows while the blocks `[lo, hi]` are held. -/
def QueryInv (cfg : CNightAddresses) (lo hi : Nat) : QueryPc → Prop
  | .begin => True
  | .readEnd se => ∀ e ∈ se, e ≤ hi
  | .readStart se ss => (∀ e ∈ se, e ≤ hi) ∧
      (serves se ss start tip.toPosition = true → NeedsOnlyFrom lib db start tip cfg lo)
  | .served window => CompleteSlice lib db start tip cfg window
  | .delegated => True

/-- The events past the horizon are held, and the query needs no others. -/
structure InterleavedInv (horizon : Nat) (s : Interleaved) (lo hi : Nat) : Prop where
  phase : PhaseInv db (pulledEvents lib db s.cache.cnightAddresses horizon) s.cache s.refresh lo hi
  query : QueryInv lib db start tip s.cache.cnightAddresses lo hi s.query
  horizon_le : horizon ≤ hi
  past : NeedsOnlyFrom lib db start tip s.cache.cnightAddresses (horizon + 1)

end System

section Preserved
variable {lib : CardanoLib} {db : DbSync} {start : CardanoPosition} {tip : Block} {horizon : Nat}
  {events : List ObservedUtxo} {s s' : Interleaved} {c : Cache} {pc : RefreshPc} {lo hi : Nat}

/-- What is held is in order, and contains the events of the blocks. -/
theorem PhaseInv.held (h : PhaseInv db events c pc lo hi) :
    SortedBy ObservedUtxo.key c.allEvents ∧ blockRange lo hi events ⊆ c.allEvents := by
  have hheld {c : Cache} (hw : WindowInv Eq events c lo hi) : SortedBy ObservedUtxo.key c.allEvents ∧
      blockRange lo hi events ⊆ c.allEvents :=
    ⟨hw.sorted, hw.related ▸ List.filter_subset_self _⟩
  cases h with
  | idle hw | pulled hw => exact hheld hw
  | slid hw | startWritten hw => exact (hheld hw :)

/-- The end a query reads is never past what is held. -/
theorem PhaseInv.snapshotEnd_le (h : PhaseInv db events c pc lo hi) :
    ∀ e ∈ c.snapshotEndBlock, e ≤ hi := by
  intro e he
  rw [Option.mem_def] at he
  cases h with
  | idle hw | pulled hw => exact (Option.some.inj (he.symm.trans hw.end_eq)).le
  | slid _ hse hle | startWritten _ hse hle => exact (Option.some.inj (he.symm.trans hse)).le.trans hle

theorem PhaseInv.snapshotStart_eq (h : PhaseInv db events c pc lo hi) (hpc : ∀ p, pc ≠ .slid p) :
    c.snapshotStartBlock = some lo := by
  cases h with
  | idle hw | pulled hw | startWritten hw => exact hw.start_eq
  | slid => exact absurd rfl (hpc _)

theorem PhaseInv.observe (h : PhaseInv db events c pc lo hi) (o : Option LastObservation) :
    PhaseInv db events { c with lastObservation := o } pc lo hi := by
  have hset : ∀ {c : Cache} {lo hi}, WindowInv Eq events c lo hi →
      WindowInv Eq events { c with lastObservation := o } lo hi :=
    fun hw => { hw with }
  cases h with
  | idle hw => exact .idle (hset hw)
  | pulled hw hp hext => exact .pulled (hset hw) hp hext
  | slid hw hse hle => exact .slid (hset hw) hse hle
  | startWritten hw hse hle => exact .startWritten (hset hw) hse hle

theorem needsOnlyFrom_of_le (h : n ≤ start.blockNumber) : NeedsOnlyFrom lib db start tip cfg n := by
  intro u _ hstart _
  rcases CardanoPosition.key_le_iff.mp hstart with hlt | ⟨heq, _⟩
  · exact h.trans hlt.le
  · exact h.trans heq.le

theorem serves_eq_true (h : serves se ss start tip.toPosition = true) :
    (∃ e ∈ se, tip.toPosition.blockNumber ≤ e) ∧ ∀ n ∈ ss, n ≤ start.blockNumber := by
  unfold serves at h
  split at h
  · cases h
  · rename_i e
    simp only [Cache.outsideWindow, Bool.not_or, Bool.and_eq_true, Bool.not_eq_true',
      decide_eq_false_iff_not, not_lt] at h
    refine ⟨⟨e, rfl, h.1⟩, fun n hn => ?_⟩
    rw [Option.mem_def.mp hn] at h
    simpa using h.2

/-- **The slice step.** -/
theorem PhaseInv.completeSlice
    (h : PhaseInv db (pulledEvents lib db c.cnightAddresses horizon) c pc lo hi)
    (hpast : NeedsOnlyFrom lib db start tip c.cnightAddresses (horizon + 1))
    (hneeds : NeedsOnlyFrom lib db start tip c.cnightAddresses lo)
    (hhi : tip.toPosition.blockNumber ≤ hi) :
    CompleteSlice lib db start tip c.cnightAddresses
      (sliceRange c.allEvents start tip.toPosition.increment) := by
  intro u hu hstart htip
  have hlt : u.key < tip.toPosition.increment.key :=
    (CardanoPosition.lt_key_increment tip.txIndex_lt).mpr htip
  have hblock : u.blockNumber ≤ hi := by
    rcases CardanoPosition.key_le_iff.mp htip with hlt | ⟨heq, _⟩
    · exact hlt.le.trans hhi
    · exact heq.le.trans hhi
  refine ⟨_, sliceRange_eq h.held.1 (hstart.trans hlt.le), mem_slice.mpr ⟨?_, hstart, hlt⟩⟩
  have hpulled : u ∈ pulledEvents lib db c.cnightAddresses horizon :=
    List.mem_filter.mpr ⟨hu, decide_eq_true (hpast u hu hstart htip)⟩
  exact h.held.2 (mem_blockRange.mpr ⟨hpulled, hneeds u hu hstart htip, hblock⟩)

/-- Growing what is held keeps what the query knows, if it needs nothing of what is dropped. -/
theorem QueryInv.mono (h : QueryInv lib db start tip cfg lo hi q) (hhi : hi ≤ hi')
    (hneeds : ∀ se ss, q = .readStart se ss → serves se ss start tip.toPosition = true →
      NeedsOnlyFrom lib db start tip cfg lo') : QueryInv lib db start tip cfg lo' hi' q := by
  cases q with
  | begin => trivial
  | readEnd se => exact fun e he => (h e he).trans hhi
  | readStart se ss => exact ⟨fun e he => (h.1 e he).trans hhi, hneeds se ss rfl⟩
  | served => exact h
  | delegated => trivial

theorem PhaseInv.plan
    (h : PhaseInv db (pulledEvents lib db c.cnightAddresses horizon) c .idle lo hi)
    (hle : horizon ≤ hi) (hp : c.plan db anchor target = some p)
    (hcomplete : PullComplete lib db c p) (hpull : c.pull lib db p = .ok extension) :
    PhaseInv db (pulledEvents lib db c.cnightAddresses horizon) c (.pulled p extension) lo hi := by
  cases h with
  | idle hw =>
    have hof := Cache.plan_spec hw.start_eq hw.end_eq hp
    have hfrom : horizon < p.fromBlock := by
      have := hof.shape
      omega
    exact .pulled hw hof (pull_eq_pulledEvents hcomplete hfrom hpull)

/-- The slide step moves what is held to the new window, before any bound is written. -/
theorem PhaseInv.slide (h : PhaseInv db events c (.pulled p extension) lo hi)
    (hs : SortedBy ObservedUtxo.key events) :
    PhaseInv db events (c.slide extension p) (.slid p) p.newWindowStart p.targetEnd ∧
      hi ≤ p.targetEnd := by
  cases h with
  | pulled hw hp hext =>
    exact ⟨.slid (hw.apply slideStable_eq hp hs hext) hw.end_eq hp.later.le, hp.later.le⟩

theorem PhaseInv.writeStart (h : PhaseInv db events c (.slid p) lo hi) :
    PhaseInv db events (c.writeStart p) (.startWritten p) lo hi := by
  cases h with
  | slid hw hse hle => exact .startWritten hw hse hle

theorem PhaseInv.writeEnd (h : PhaseInv db events c (.startWritten p) lo hi) :
    PhaseInv db events (c.writeEnd p) .idle lo hi := by
  cases h with
  | startWritten hw => exact .idle hw

/-- **An undisturbed step keeps the invariant**, for the blocks that are held after it. -/
theorem InterleavedInv.step (h : InterleavedInv lib db start tip horizon s lo hi)
    (hsafe : Undisturbed lib db start tip s a) (hstep : s.step lib db start tip a = some s') :
    ∃ lo' hi', InterleavedInv lib db start tip horizon s' lo' hi' ∧
      s'.cache.cnightAddresses = s.cache.cnightAddresses := by
  obtain ⟨c, pc, q⟩ := s
  obtain ⟨hphase, hquery, hle, hpast⟩ := h
  simp only at hphase hquery hpast
  cases a with
  | plan anchor target =>
    cases pc with
    | idle =>
      simp only [Interleaved.step] at hstep
      split at hstep
      · cases hstep
        exact ⟨lo, hi, ⟨hphase, hquery, hle, hpast⟩, rfl⟩
      · rename_i p hp
        split at hstep
        · cases hstep
          exact ⟨lo, hi, ⟨hphase, hquery, hle, hpast⟩, rfl⟩
        · rename_i hpull
          cases hstep
          exact ⟨lo, hi, ⟨hphase.plan hle hp (hsafe p hp) hpull, hquery, hle, hpast⟩, rfl⟩
    | _ => cases hstep
  | slide =>
    cases pc with
    | pulled p extension =>
      cases hstep
      obtain ⟨hslid, hgrown⟩ := hphase.slide (pulledEvents_sorted ..)
      refine ⟨_, _, ⟨hslid, hquery.mono hgrown fun se ss hq hserves => ?_, hle.trans hgrown, hpast⟩,
        rfl⟩
      exact hsafe p extension se ss rfl hq hserves
    | _ => cases hstep
  | writeStart =>
    cases pc with
    | slid p =>
      cases hstep
      exact ⟨lo, hi, ⟨hphase.writeStart, hquery, hle, hpast⟩, rfl⟩
    | _ => cases hstep
  | writeEnd =>
    cases pc with
    | startWritten p =>
      cases hstep
      exact ⟨lo, hi, ⟨hphase.writeEnd, hquery, hle, hpast⟩, rfl⟩
    | _ => cases hstep
  | observe o =>
    cases hstep
    exact ⟨lo, hi, ⟨hphase.observe o, hquery, hle, hpast⟩, rfl⟩
  | readEnd =>
    cases q with
    | begin =>
      cases hstep
      exact ⟨lo, hi, ⟨hphase, hphase.snapshotEnd_le, hle, hpast⟩, rfl⟩
    | _ => cases hstep
  | readStart =>
    cases q with
    | readEnd se =>
      cases hstep
      refine ⟨lo, hi, ⟨hphase, ⟨hquery, fun hserves => ?_⟩, hle, hpast⟩, rfl⟩
      by_cases hgap : ∃ p, pc = .slid p
      · -- the start is read between the slide and its write
        obtain ⟨p, rfl⟩ := hgap
        have hneeds := hsafe p se rfl rfl hserves
        cases hphase
        exact hneeds
      · have hss := hphase.snapshotStart_eq fun p hp => hgap ⟨p, hp⟩
        exact needsOnlyFrom_of_le ((serves_eq_true hserves).2 lo hss)
    | _ => cases hstep
  | slice =>
    cases q with
    | readStart se ss =>
      simp only [Interleaved.step] at hstep
      split at hstep
      · rename_i hserves
        cases hstep
        obtain ⟨⟨e, he, htip⟩, _⟩ := serves_eq_true hserves
        have hslice := hphase.completeSlice hpast (hquery.2 hserves) (htip.trans (hquery.1 e he))
        exact ⟨lo, hi, ⟨hphase, hslice, hle, hpast⟩, rfl⟩
      · cases hstep
        exact ⟨lo, hi, ⟨hphase, trivial, hle, hpast⟩, rfl⟩
    | _ => cases hstep

theorem InterleavedInv.run (h : InterleavedInv lib db start tip horizon s lo hi)
    (hrun : Relation.ReflTransGen (UndisturbedStep lib db start tip) s s') :
    ∃ lo' hi', InterleavedInv lib db start tip horizon s' lo' hi' ∧
      s'.cache.cnightAddresses = s.cache.cnightAddresses := by
  induction hrun with
  | refl => exact ⟨lo, hi, h, rfl⟩
  | tail _ hstep ih =>
    obtain ⟨lo', hi', h', hcfg⟩ := ih
    obtain ⟨a, hsafe, hstep⟩ := hstep
    obtain ⟨lo'', hi'', h'', hcfg'⟩ := h'.step hsafe hstep
    exact ⟨lo'', hi'', h'', hcfg'.trans hcfg⟩

/-- **An undisturbed query is complete.** From a cache that queries and refreshes have brought about
from an empty one, along every interleaving whose steps are undisturbed, a query with no event up to
the horizon that serves from the cache gets a slice with every event of the database between its
start and its tip. -/
theorem served_slice_complete (lib : CardanoLib) (db : DbSync) (start : CardanoPosition)
    (tip : Block) (cfg : BulkCacheConfig) (c : Cache) (m : Option Nat)
    (hreached : Relation.ReflTransGen (CacheStep lib db) (.new [] cfg, none) (c, m))
    (hpast : NeedsOnlyFrom lib db start tip c.cnightAddresses (cfg.windowEndBlock + 1))
    (s : Interleaved)
    (hrun : Relation.ReflTransGen (UndisturbedStep lib db start tip) ⟨c, .idle, .begin⟩ s)
    (window : Option (List ObservedUtxo)) (hserved : s.query = .served window) :
    CompleteSlice lib db start tip c.cnightAddresses window := by
  obtain ⟨ss, se, hle, hw⟩ := ((CacheInv.new lib db cfg).run hreached).window
  have h : InterleavedInv lib db start tip cfg.windowEndBlock ⟨c, .idle, .begin⟩ ss se :=
    ⟨.idle hw, trivial, hle, hpast⟩
  obtain ⟨lo, hi, h', hcfg⟩ := h.run hrun
  have hquery := h'.query
  rw [hserved, hcfg] at hquery
  exact hquery

end Preserved

/-- What a query about block 2 comes to, from a cache that has pulled the blocks 1 and 2. -/
def sampleRun (actions : List Action) : Option Interleaved :=
  actions.foldlM
    (fun s a => Interleaved.step sampleLib (sampleDb 1 5) (.minForBlock 2) (sampleBlock 2) s a)
    ⟨refreshedCache 1 5 2, .idle, .begin⟩

/-- A query served a hundred blocks past the one that the sample query is about. -/
def laterObservation : LastObservation :=
  ⟨.minForBlock 102, .fill 32 0, ⟨.minForBlock 102, .minForBlock 102, []⟩⟩

/-- A refresh slides the window between the bounds check and the slice, and drops block 1. -/
def slidingActions : List Action :=
  [.readEnd, .readStart, .observe (some laterObservation), .plan 0 4, .slide, .slice]

theorem served_slice_complete_across_slide : ∃ window,
    (sampleRun slidingActions).map (·.query) = some (.served window) ∧
      CompleteSlice sampleLib (sampleDb 1 5) (.minForBlock 2) (sampleBlock 2)
        (refreshedCache 1 5 2).cnightAddresses window := by
  have hplan : (Cache.new [] sampleCacheConfig).plan (sampleDb 1 5) 0 2 = some ⟨1, 0, 2⟩ := by decide
  have hslide : ({ refreshedCache 1 5 2 with lastObservation := some laterObservation }).plan
      (sampleDb 1 5) 0 4 = some ⟨3, 2, 4⟩ := by decide +kernel
  have hserved : (sampleRun slidingActions).map (·.query) =
      some (.served (some (blockRange 2 2 (dbEvents sampleLib (sampleDb 1 5) sampleConfig)))) := by
    decide +kernel
  refine ⟨_, hserved, ?_⟩
  obtain ⟨s, hrun, hquery⟩ := Option.map_eq_some_iff.mp hserved
  simp only [sampleRun, slidingActions, List.foldlM_cons, List.foldlM_nil, Option.bind_eq_bind,
    Option.bind_eq_some_iff] at hrun
  obtain ⟨_, ⟨⟩, _, ⟨⟩, _, ⟨⟩, s₄, h₄, s₅, h₅, s₆, h₆, ⟨⟩⟩ := hrun
  have hcomplete : PullComplete sampleLib (sampleDb 1 5)
      { refreshedCache 1 5 2 with lastObservation := some laterObservation } ⟨3, 2, 4⟩ := by
    intro ids hids
    rw [refreshedCache_cnightAddresses] at hids ⊢
    cases hids
    decide +kernel
  have hpulled : ∀ p extension, s₄.refresh = .pulled p extension → p.newWindowStart = 2 := by
    simp only [Interleaved.step, hslide] at h₄
    split at h₄
    · cases h₄
      exact fun _ _ h => nomatch h
    · cases h₄
      rintro _ _ ⟨⟩
      rfl
  refine served_slice_complete sampleLib (sampleDb 1 5) (.minForBlock 2) (sampleBlock 2)
    sampleCacheConfig _ none (refreshedCache_run hplan (by decide +kernel))
    (needsOnlyFrom_of_le (by decide)) s ?_ _ hquery
  refine .tail (.tail (.tail (.tail (.tail (.single ⟨.readEnd, trivial, rfl⟩)
    ⟨.readStart, ?_, rfl⟩) ⟨.observe _, trivial, rfl⟩) ⟨.plan 0 4, ?_, h₄⟩) ⟨.slide, ?_, h₅⟩)
    ⟨.slice, trivial, h₆⟩
  · exact fun _ _ h => nomatch h
  · intro p hp
    cases hslide.symm.trans hp
    exact hcomplete
  · intro p extension _ _ hp _ _
    rw [hpulled p extension hp]
    exact needsOnlyFrom_of_le le_rfl

/-- The query checks the bounds of a window that holds its only block. A refresh for a follower
further on restarts the window past it before the query slices, and the query gets nothing although
the database has an event in its range. -/
theorem slice_misses_event_after_jump :
    (sampleRun [.readEnd, .readStart, .plan 4 4, .slide, .slice]).map (·.query) =
        some (.served (some [])) ∧
      ¬ CompleteSlice sampleLib (sampleDb 1 5) (.minForBlock 2) (sampleBlock 2) sampleConfig
        (some []) := by
  refine ⟨by decide +kernel, fun h => ?_⟩
  have hevent : ∃ u ∈ dbEvents sampleLib (sampleDb 1 5) sampleConfig,
      (CardanoPosition.minForBlock 2).key ≤ u.key ∧ u.key ≤ (sampleBlock 2).toPosition.key := by
    decide +kernel
  obtain ⟨u, hu, hstart, htip⟩ := hevent
  obtain ⟨l, hl, hul⟩ := h u hu hstart htip
  cases hl
  cases hul

end MidnightNode.CNight
