import MidnightNode.Toolkit.WalletCache

/-!
# Contexts and single wallets

What a context holds for a seed does not depend on its other wallets. A context is followed through the
versions by the ledger alone and by each wallet alone.
-/

namespace MidnightNode.Toolkit

open KeyedList PartitionPoint

section

variable {Seed : Type} {lib : LedgerLibrary Seed}

/-! ## Wallets -/

theorem Wallet.advance_append (seed : Seed) (w : Wallet lib) (outputs outputs' : List (Output lib)) :
    w.advance seed (outputs ++ outputs') =
      (w.advance seed outputs).bind fun w => w.advance seed outputs' :=
  List.foldlM_append

theorem Wallet.advance_eq (seed : Seed) (w : Wallet lib) (outputs : List (Output lib)) :
    w.advance seed outputs =
      ((outputs.flatMap Output.events).foldlM (lib.replayEvent seed) w.dust).map fun dust =>
        ⟨(outputs.flatMap Output.offers).foldl (lib.applyOffer seed) w.shielded, dust⟩ := by
  induction outputs generalizing w with
  | nil => rfl
  | cons output outputs ih =>
    rw [advance, List.foldlM_cons, List.flatMap_cons, List.flatMap_cons, List.foldlM_append,
      List.foldl_append, step, updateDustFromTx, updateStateFromOffers]
    cases output.events.foldlM (lib.replayEvent seed) w.dust with
    | none => rfl
    | some dust => exact ih _

/-- Processing TTLs at one time before later events and TTLs at another time changes nothing. -/
def TtlsAbsorbed (lib : LedgerLibrary Seed) (t t' : Nat) : Prop :=
  ∀ seed dust (events : List lib.Event),
    (events.foldlM (lib.replayEvent seed) (lib.processTtls dust t)).map (lib.processTtls · t') =
      (events.foldlM (lib.replayEvent seed) dust).map (lib.processTtls · t')

theorem Wallet.expire_of_getLast? (h : blocks.getLast? = some block) (w : Wallet lib) :
    w.expire blocks = ⟨w.shielded, lib.processTtls w.dust block.tblockSecs⟩ := by
  rw [expire, h]
  rfl

theorem TtlsAbsorbed.advance (h : TtlsAbsorbed lib b.tblockSecs b'.tblockSecs)
    (hlast : blocks.getLast? = some b) (hlast' : blocks'.getLast? = some b') (seed : Seed)
    (w : Wallet lib) (outputs : List (Output lib)) :
    ((w.expire blocks).advance seed outputs).map (·.expire blocks') =
      (w.advance seed outputs).map (·.expire blocks') := by
  have hdust := h seed w.dust (outputs.flatMap Output.events)
  simp only [Wallet.advance_eq, Wallet.expire_of_getLast? hlast, Option.map_map, Function.comp_def,
    Wallet.expire_of_getLast? hlast']
  have hpair := congrArg (Option.map fun dust => Wallet.mk
    ((outputs.flatMap Output.offers).foldl (lib.applyOffer seed) w.shielded) dust) hdust
  simpa only [Option.map_map, Function.comp_def] using hpair

theorem ledgerRun_append (state : lib.State) (blocks blocks' : List ExtractedBlock) :
    ledgerRun state (blocks ++ blocks') = (ledgerRun state blocks).bind fun x =>
      (ledgerRun x.1 blocks').map fun y => (y.1, x.2 ++ y.2) := by
  induction blocks generalizing state with
  | nil =>
    simp only [List.nil_append, ledgerRun, Option.bind_some]
    cases ledgerRun state blocks' <;> rfl
  | cons block blocks ih =>
    rw [List.cons_append, ledgerRun, ledgerRun]
    cases ledgerStep state block with
    | none => rfl
    | some x =>
      simp only [Option.bind_eq_bind, Option.bind_some, ih]
      cases ledgerRun x.1 blocks with
      | none => rfl
      | some y =>
        simp only [Option.bind_some, Option.pure_def]
        cases ledgerRun y.1 blocks' <;> rfl

theorem ledgerStep_of_transactions_eq_nil {output : Output lib} (htxs : block.transactions = [])
    (h : ledgerStep state block = some (state', output)) : output = ⟨[], []⟩ := by
  rw [ledgerStep, htxs] at h
  obtain ⟨⟨state₁, output₁, total⟩, happly, h⟩ := Option.bind_eq_some_iff.mp h
  cases happly
  obtain ⟨state₂, -, h⟩ := Option.bind_eq_some_iff.mp h
  have hverified (state₃ : lib.State)
      (h : (if verifyStateRoot state₃ block.stateRoot then some (state₃, Output.mk [] []) else none) =
        some (state', output)) : output = ⟨[], []⟩ := by
    split at h
    case isTrue =>
      cases h
      rfl
    case isFalse => cases h
  cases hstate : block.state with
  | none =>
    rw [hstate] at h
    exact hverified state₂ h
  | some bytes =>
    rw [hstate] at h
    obtain ⟨state₃, -, h⟩ := Option.bind_eq_some_iff.mp h
    exact hverified state₃ h

theorem outputsAfter_append {height : Nat} {below above : List ExtractedBlock}
    {outputs outputs' : List (Output lib)} (hlength : outputs.length = below.length)
    (hlength' : outputs'.length = above.length) (hbelow : ∀ b ∈ below, b.number ≤ height)
    (habove : ∀ b ∈ above, height < b.number) :
    outputsAfter height (below ++ above) (outputs ++ outputs') = outputs' := by
  induction below generalizing outputs with
  | nil =>
    rw [List.eq_nil_of_length_eq_zero hlength]
    exact outputsAfter_of_forall hlength' habove
  | cons b below ih =>
    match outputs, hlength with
    | output :: outputs, hlength =>
      rw [List.cons_append, List.cons_append, outputsAfter,
        if_neg (not_lt.mpr (hbelow b List.mem_cons_self))]
      exact ih (Nat.succ.inj hlength) fun b hb => hbelow b (List.mem_cons_of_mem _ hb)

/-! ## Positions -/

/-- Blocks in the order of their times: the TTLs of a block are absorbed by those of a later one. -/
structure AbsorbsTtls (lib : LedgerLibrary Seed) (blocks : List ExtractedBlock) : Prop where
  later : blocks.Pairwise fun b b' => TtlsAbsorbed lib b.tblockSecs b'.tblockSecs
  self : ∀ b ∈ blocks, TtlsAbsorbed lib b.tblockSecs b.tblockSecs

namespace AbsorbsTtls

variable {blocks blocks' : List ExtractedBlock}

theorem sublist (h : AbsorbsTtls lib blocks) (hsub : blocks'.Sublist blocks) :
    AbsorbsTtls lib blocks' :=
  ⟨h.later.sublist hsub, fun b hb => h.self b (hsub.subset hb)⟩

theorem append (h : AbsorbsTtls lib (blocks ++ blocks')) (hb : b ∈ blocks) (hb' : b' ∈ blocks') :
    TtlsAbsorbed lib b.tblockSecs b'.tblockSecs :=
  (List.pairwise_append.mp h.later).2.2 b hb b' hb'

end AbsorbsTtls

/-- Where a replay is: the ledger, and each wallet that can be replayed so far. -/
structure Position (lib : LedgerLibrary Seed) where
  ledgerState : lib.State
  latestBlockContext : Option BlockContext
  wallet : Seed → Option (Wallet lib)

namespace Position

def new (lib : LedgerLibrary Seed) : Position lib :=
  ⟨lib.newState, none, fun seed => some (.new seed lib.newState)⟩

def replay (p : Position lib) (blocks : List ExtractedBlock) : Option (Position lib) :=
  (ledgerRun p.ledgerState blocks).map fun x =>
    ⟨x.1, (blocks.getLast?.map (blockContextFromRaw lib)).or p.latestBlockContext,
      fun seed => ((p.wallet seed).bind fun w => w.advance seed x.2).map (·.expire blocks)⟩

def fork {lib' : LedgerLibrary Seed} (f : Fork lib lib') (now : BlockContext) (p : Position lib) :
    Option (Position lib') :=
  (f.state p.ledgerState).map fun state =>
    ⟨state, some (f.blockContext (p.latestBlockContext.getD now)), fun seed =>
      (p.wallet seed).bind f.wallet⟩

variable {p p' : Position lib} {blocks blocks' : List ExtractedBlock}

theorem replay_eq_some : p.replay blocks = some p' ↔ ∃ outputs,
    ledgerRun p.ledgerState blocks = some (p'.ledgerState, outputs) ∧
      p'.latestBlockContext = (blocks.getLast?.map (blockContextFromRaw lib)).or p.latestBlockContext ∧
      ∀ seed, p'.wallet seed =
        ((p.wallet seed).bind fun w => w.advance seed outputs).map (·.expire blocks) := by
  rw [replay, Option.map_eq_some_iff]
  constructor
  · rintro ⟨x, hrun, rfl⟩
    exact ⟨x.2, hrun, rfl, fun _ => rfl⟩
  · rintro ⟨outputs, hrun, hlatest, hwallet⟩
    refine ⟨_, hrun, ?_⟩
    obtain ⟨state, latest, wallet⟩ := p'
    cases hlatest
    cases funext hwallet
    rfl

theorem replay_nil (p : Position lib) : p.replay [] = some p := by
  refine replay_eq_some.mpr ⟨[], rfl, rfl, fun seed => ?_⟩
  cases p.wallet seed <;> rfl

/-- A replay may be interrupted where the TTLs are absorbed. -/
theorem replay_append (h : AbsorbsTtls lib (blocks ++ blocks')) :
    p.replay (blocks ++ blocks') = (p.replay blocks).bind fun p => p.replay blocks' := by
  cases hlast' : blocks'.getLast? with
  | none =>
    obtain rfl := List.getLast?_eq_none_iff.mp hlast'
    rw [List.append_nil]
    cases p.replay blocks with
    | none => rfl
    | some q => exact (replay_nil q).symm
  | some last' =>
  cases hlast : blocks.getLast? with
  | none =>
    obtain rfl := List.getLast?_eq_none_iff.mp hlast
    rw [List.nil_append, replay_nil]
    rfl
  | some last =>
  have hlast'' : (blocks ++ blocks').getLast? = some last' := by rw [List.getLast?_append, hlast']; rfl
  have habsorbed := h.append (List.mem_of_getLast? hlast) (List.mem_of_getLast? hlast')
  have hexpire (w : Wallet lib) : w.expire (blocks ++ blocks') = w.expire blocks' := by
    rw [Wallet.expire_of_getLast? hlast'', Wallet.expire_of_getLast? hlast']
  simp only [replay, ledgerRun_append]
  cases ledgerRun p.ledgerState blocks with
  | none => rfl
  | some x =>
    simp only [Option.bind_some, Option.map_some]
    cases ledgerRun x.1 blocks' with
    | none => rfl
    | some y =>
      simp only [Option.map_some, Option.some.injEq, Position.mk.injEq, true_and]
      refine ⟨by rw [hlast', hlast'']; rfl, funext fun seed => ?_⟩
      cases p.wallet seed with
      | none => rfl
      | some w =>
        simp only [Option.bind_some, Wallet.advance_append]
        cases w.advance seed x.2 with
        | none => rfl
        | some w' =>
          simp only [Option.bind_some, Option.map_some, hexpire]
          exact (habsorbed.advance hlast hlast' seed w' y.2).symm

/-- The wallet of a position goes on from there as if it had not stopped. -/
theorem wallet_joined (habsorbs : AbsorbsTtls lib (start ++ (below ++ above)))
    (hstart : p.replay start = some q)
    (hrun : ledgerRun q.ledgerState (below ++ above) = some (state, outputs))
    (hbelow : ∀ b ∈ below, b.number ≤ height) (habove : ∀ b ∈ above, height < b.number)
    (hsaved : p.replay (start ++ below) = some r) (hw : r.wallet seed = some w)
    (hend : p.replay (start ++ (below ++ above)) = some p') :
    (w.advance seed (outputsAfter height (below ++ above) outputs)).map (·.expire (below ++ above)) =
      p'.wallet seed := by
  have habsorbs' : AbsorbsTtls lib (start ++ below ++ above) := by rwa [List.append_assoc]
  have hsaved' : q.replay below = some r := by
    rwa [replay_append (habsorbs'.sublist (List.sublist_append_left _ _)), hstart] at hsaved
  rw [← List.append_assoc, replay_append habsorbs', hsaved, Option.bind_some] at hend
  obtain ⟨outputs₂, hrun₂, -, hend⟩ := replay_eq_some.mp hend
  obtain ⟨outputs₁, hrun₁, -, -⟩ := replay_eq_some.mp hsaved'
  rw [ledgerRun_append, hrun₁, Option.bind_some, hrun₂] at hrun
  cases hrun
  rw [outputsAfter_append (ledgerRun_length hrun₁) (ledgerRun_length hrun₂) hbelow habove, hend, hw,
    Option.bind_some]
  cases hlast : above.getLast? with
  | some last =>
    have hlast' : (below ++ above).getLast? = some last := by rw [List.getLast?_append, hlast]; rfl
    congr 1
    funext w
    rw [Wallet.expire_of_getLast? hlast', Wallet.expire_of_getLast? hlast]
  | none =>
    -- the TTLs of the last block are processed again
    obtain rfl := List.getLast?_eq_none_iff.mp hlast
    obtain rfl : outputs₂ = [] := List.eq_nil_of_length_eq_zero (ledgerRun_length hrun₂)
    rw [List.append_nil]
    cases hlast : below.getLast? with
    | none => rw [List.getLast?_eq_none_iff.mp hlast]
    | some last =>
      obtain ⟨outputs, -, -, hsaved⟩ := replay_eq_some.mp hsaved'
      rw [hsaved] at hw
      obtain ⟨w', -, rfl⟩ := Option.map_eq_some_iff.mp hw
      have hself := habsorbs'.self last
        (List.mem_append_left _ (List.mem_append_right _ (List.mem_of_getLast? hlast)))
      exact (hself.advance hlast hlast seed w' [])

theorem latestBlockContext_ne_none (h : p.replay blocks = some p')
    (hstarted : blocks ≠ [] ∨ p.latestBlockContext ≠ none) : p'.latestBlockContext ≠ none := by
  obtain ⟨outputs, -, hlatest, -⟩ := replay_eq_some.mp h
  rw [hlatest]
  cases hlast : blocks.getLast? with
  | none => exact hstarted.resolve_left fun hne => hne (List.getLast?_eq_none_iff.mp hlast)
  | some block => exact Option.some_ne_none _

theorem fork_congr (f : Fork lib lib') (now now' : BlockContext) (h : p.latestBlockContext ≠ none) :
    p.fork f now = p.fork f now' := by
  obtain ⟨latest, hlatest⟩ := Option.ne_none_iff_exists'.mp h
  rw [fork, fork, hlatest]
  rfl

end Position

theorem Fork.context_congr (f : Fork lib lib') (now now' : BlockContext)
    (h : ctx.latestBlockContext ≠ none) : f.context now ctx = f.context now' ctx := by
  obtain ⟨latest, hlatest⟩ := Option.ne_none_iff_exists'.mp h
  rw [context, context, hlatest]
  rfl

/-! ## Contexts at a position -/

section

variable [DecidableEq Seed] {lib' lib'' : LedgerLibrary Seed} {seeds : List Seed}
  {ctx ctx' : LedgerContext lib} {p p' : Position lib} {blocks : List ExtractedBlock}

/-- The context is at the position, for some seeds. -/
structure Agrees (ctx : LedgerContext lib) (p : Position lib) (seeds : List Seed) : Prop where
  ledgerState : ctx.ledgerState = p.ledgerState
  latest : ctx.latestBlockContext = p.latestBlockContext
  wallet : ∀ seed ∈ seeds, ∃ w, p.wallet seed = some w ∧ ctx.walletOf seed = some w

/-- It has no other wallets. -/
structure Tracks (ctx : LedgerContext lib) (p : Position lib) (seeds : List Seed) : Prop
    extends Agrees ctx p seeds where
  nodup : (ctx.wallets.map Prod.fst).Nodup
  keys : ∀ seed ∈ ctx.wallets.map Prod.fst, seed ∈ seeds

theorem Tracks.of_mem (h : Tracks ctx p seeds) (hx : x ∈ ctx.wallets) :
    x.1 ∈ seeds ∧ p.wallet x.1 = some x.2 := by
  have hseed := h.keys x.1 (List.mem_map_of_mem hx)
  obtain ⟨w, hw, hlookup⟩ := h.wallet x.1 hseed
  obtain rfl : x.2 = w := Option.some.inj ((lookup_of_mem h.nodup hx).symm.trans hlookup)
  exact ⟨hseed, hw⟩

theorem Tracks.new (lib : LedgerLibrary Seed) (seeds : List Seed) :
    Tracks (.newFromWalletSeeds lib seeds) (.new lib) seeds := by
  -- the wallets that are already there are those of the seeds so far
  have hfold (done : List Seed) (wallets : List (Seed × Wallet lib))
      (h : Tracks ⟨lib.newState, none, wallets⟩ (.new lib) done) :
      Tracks ⟨lib.newState, none, seeds.foldl (fun wallets seed =>
        insertKey seed (.new seed lib.newState) wallets) wallets⟩ (.new lib) (seeds.reverse ++ done) := by
    induction seeds generalizing done wallets with
    | nil => exact h
    | cons seed seeds ih =>
      rw [List.reverse_cons, List.append_assoc, List.singleton_append]
      refine ih (seed :: done) _ ⟨⟨rfl, rfl, fun s hs => ⟨_, rfl, ?_⟩⟩, nodup_insertKey h.nodup _ _,
        fun s hs => ?_⟩
      · by_cases hseed : s = seed
        · obtain rfl := hseed
          exact lookup_insertKey_self _ _ _
        · obtain ⟨w, hw, hlookup⟩ := h.wallet s ((List.mem_cons.mp hs).resolve_left hseed)
          cases hw
          exact (lookup_insertKey_ne hseed _ _).trans hlookup
      · rcases List.mem_cons.mp hs with rfl | hs
        · exact List.mem_cons_self
        · exact List.mem_cons_of_mem _ (h.keys s (List.filter_sublist.map _ |>.subset hs))
  have hall := hfold [] [] ⟨⟨rfl, rfl, fun _ h => nomatch h⟩, .nil, fun _ h => nomatch h⟩
  rw [List.append_nil] at hall
  exact ⟨⟨rfl, rfl, fun seed hseed => hall.wallet seed (List.mem_reverse.mpr hseed)⟩, hall.nodup,
    fun seed hseed => List.mem_reverse.mp (hall.keys seed hseed)⟩

/-- An operation on contexts does what one on positions does, and fails only with the ledger or a
wallet. -/
structure Follows (f : LedgerContext lib → Option (LedgerContext lib'))
    (g : Position lib → Option (Position lib')) : Prop where
  sound : ∀ {ctx ctx' p seeds}, Tracks ctx p seeds → f ctx = some ctx' →
    ∃ p', g p = some p' ∧ Tracks ctx' p' seeds
  complete : ∀ {ctx p p' seeds}, Tracks ctx p seeds → g p = some p' →
    (∀ seed ∈ seeds, (p'.wallet seed).isSome) → ∃ ctx', f ctx = some ctx'
  wallet : ∀ {p p' seed}, g p = some p' → (p'.wallet seed).isSome → (p.wallet seed).isSome

theorem Follows.bind {f : LedgerContext lib → Option (LedgerContext lib')}
    {f' : LedgerContext lib' → Option (LedgerContext lib'')} {g : Position lib → Option (Position lib')}
    {g' : Position lib' → Option (Position lib'')} (h : Follows f g) (h' : Follows f' g') :
    Follows (fun ctx => (f ctx).bind f') (fun p => (g p).bind g') where
  sound htracks hf := by
    obtain ⟨ctx₁, hf₁, hf₂⟩ := Option.bind_eq_some_iff.mp hf
    obtain ⟨p₁, hg₁, htracks₁⟩ := h.sound htracks hf₁
    obtain ⟨p₂, hg₂, htracks₂⟩ := h'.sound htracks₁ hf₂
    exact ⟨p₂, Option.bind_eq_some_iff.mpr ⟨p₁, hg₁, hg₂⟩, htracks₂⟩
  complete htracks hg hwallet := by
    obtain ⟨p₁, hg₁, hg₂⟩ := Option.bind_eq_some_iff.mp hg
    obtain ⟨ctx₁, hf₁⟩ := h.complete htracks hg₁ fun seed hseed => h'.wallet hg₂ (hwallet seed hseed)
    obtain ⟨p₁', hg₁', htracks₁⟩ := h.sound htracks hf₁
    cases hg₁.symm.trans hg₁'
    obtain ⟨ctx₂, hf₂⟩ := h'.complete htracks₁ hg₂ hwallet
    exact ⟨ctx₂, Option.bind_eq_some_iff.mpr ⟨ctx₁, hf₁, hf₂⟩⟩
  wallet hg hwallet := by
    obtain ⟨p₁, hg₁, hg₂⟩ := Option.bind_eq_some_iff.mp hg
    exact h.wallet hg₁ (h'.wallet hg₂ hwallet)

theorem map_fst_mergeLoop (h : mergeLoop ctx [] blocks = some (ctx', rest)) :
    ctx'.wallets.map Prod.fst = ctx.wallets.map Prod.fst ∧ rest = [] := by
  induction blocks generalizing ctx with
  | nil =>
    cases h
    exact ⟨rfl, rfl⟩
  | cons block blocks ih =>
    rw [mergeLoop] at h
    simp only [List.take_nil, List.drop_nil, injectCachedWallets_nil] at h
    obtain ⟨ctx₁, hstep, h⟩ := Option.bind_eq_some_iff.mp h
    obtain ⟨hkeys, hrest⟩ := ih h
    obtain ⟨state, output, wallets, -, hwallets, rfl⟩ := LedgerContext.step_eq_some.mp hstep
    exact ⟨hkeys.trans (map_fst_mapValuesM hwallets), hrest⟩

theorem map_fst_replayBlocksOf (h : replayBlocksOf ctx blocks [] = some ctx') :
    ctx'.wallets.map Prod.fst = ctx.wallets.map Prod.fst := by
  rw [replayBlocksOf_eq] at h
  obtain ⟨⟨ctx₁, rest⟩, hloop, h⟩ := Option.map_eq_some_iff.mp h
  obtain ⟨hkeys, rfl⟩ := map_fst_mergeLoop hloop
  rw [← h, ← hkeys]
  cases blocks.getLast? with
  | none => rfl
  | some block => exact map_fst_mapValues (fun _ (w : Wallet lib) => w.updateDustFromBlock _) ctx₁.wallets

/-- A replay of contexts tracks the replay of positions. -/
theorem replay_follows (blocks : List ExtractedBlock) :
    Follows (fun ctx : LedgerContext lib => replayBlocksOf ctx blocks []) (·.replay blocks) where
  sound {ctx ctx' p seeds} htracks h := by
    obtain ⟨outputs, hreplayed⟩ := replayBlocksOf_spec (.nil blocks) h
    have hrun := hreplayed.run
    rw [htracks.ledgerState] at hrun
    refine ⟨⟨ctx'.ledgerState, ctx'.latestBlockContext, fun seed =>
      ((p.wallet seed).bind fun w => w.advance seed outputs).map (·.expire blocks)⟩,
      Position.replay_eq_some.mpr ⟨outputs, hrun, ?_, fun _ => rfl⟩, ⟨rfl, rfl, ?_⟩, ?_, ?_⟩
    · rw [hreplayed.latest, htracks.latest]
    · intro seed hseed
      obtain ⟨w, hw, hlookup⟩ := htracks.wallet seed hseed
      obtain ⟨w', hadvance, hlookup'⟩ := hreplayed.present seed w hlookup (fun h => nomatch h)
      refine ⟨w'.expire blocks, ?_, hlookup'⟩
      simp only [hw, Option.bind_some, hadvance, Option.map_some]
    · rw [map_fst_replayBlocksOf h]
      exact htracks.nodup
    · rw [map_fst_replayBlocksOf h]
      exact htracks.keys
  complete {ctx p p' seeds} htracks h hwallet := by
    obtain ⟨outputs, hrun, -, hwallets⟩ := Position.replay_eq_some.mp h
    rw [← htracks.ledgerState] at hrun
    refine exists_replayBlocksOf_eq (.nil blocks) hrun (fun x hx => ?_) fun x hx => nomatch hx
    obtain ⟨hseed, hw⟩ := htracks.of_mem hx
    have hsome := hwallet x.1 hseed
    rw [hwallets, hw, Option.bind_some, Option.isSome_map] at hsome
    exact Option.isSome_iff_exists.mp hsome
  wallet {p p' seed} h hsome := by
    obtain ⟨outputs, -, -, hwallets⟩ := Position.replay_eq_some.mp h
    rw [hwallets, Option.isSome_map] at hsome
    exact Option.isSome_of_isSome_bind hsome

theorem fork_follows (f : Fork lib lib') (now : BlockContext) :
    Follows (f.context now) (Position.fork f now) where
  sound {ctx ctx' p seeds} htracks h := by
    obtain ⟨state, hstate, h⟩ := Option.bind_eq_some_iff.mp h
    obtain ⟨wallets, hwallets, h⟩ := Option.bind_eq_some_iff.mp h
    cases h
    rw [htracks.ledgerState] at hstate
    refine ⟨_, Option.map_eq_some_iff.mpr ⟨state, hstate, rfl⟩, ⟨rfl, ?_, ?_⟩, ?_, ?_⟩
    · rw [htracks.latest]
    · intro seed hseed
      obtain ⟨w, hw, hlookup⟩ := htracks.wallet seed hseed
      obtain ⟨w', hfork, hlookup'⟩ := exists_lookup_mapValuesM hwallets hlookup
      refine ⟨w', ?_, hlookup'⟩
      simp only [hw, Option.bind_some, hfork]
    · rw [map_fst_mapValuesM hwallets]
      exact htracks.nodup
    · rw [map_fst_mapValuesM hwallets]
      exact htracks.keys
  complete {ctx p p' seeds} htracks h hwallet := by
    obtain ⟨state, hstate, rfl⟩ := Option.map_eq_some_iff.mp h
    rw [← htracks.ledgerState] at hstate
    have hforks : ∀ x ∈ ctx.wallets, ∃ w, f.wallet x.2 = some w := by
      intro x hx
      obtain ⟨hseed, hw⟩ := htracks.of_mem hx
      have hsome := hwallet x.1 hseed
      simp only [hw, Option.bind_some] at hsome
      exact Option.isSome_iff_exists.mp hsome
    obtain ⟨wallets, hwallets⟩ := exists_mapValuesM_eq (f := fun _ (w : Wallet lib) => f.wallet w) hforks
    rw [Fork.context, hstate]
    simp only [Option.bind_eq_bind, Option.bind_some, hwallets]
    exact ⟨_, rfl⟩
  wallet {p p' seed} h hsome := by
    obtain ⟨state, -, rfl⟩ := Option.map_eq_some_iff.mp h
    exact Option.isSome_of_isSome_bind hsome

/-- A block without transactions can be applied to a context alone. -/
theorem Agrees.applyBlock (h : Agrees ctx p seeds) (htxs : block.transactions = [])
    (hreplay : p.replay [block] = some p') :
    ∃ ctx' events, ctx.applyBlock block = some (ctx', events) ∧
      Agrees (ctx'.updateDustFromBlock (blockContextFromRaw lib block)) p' seeds := by
  obtain ⟨outputs, hrun, hlatest, hwallet⟩ := Position.replay_eq_some.mp hreplay
  obtain ⟨⟨state, output⟩, hstep, hrun⟩ := Option.bind_eq_some_iff.mp hrun
  cases hrun
  obtain rfl := ledgerStep_of_transactions_eq_nil htxs hstep
  rw [← h.ledgerState] at hstep
  have happly : ctx.applyBlock block = some (⟨p'.ledgerState, some (blockContextFromRaw lib block),
      mapValues (fun seed w => w.updateStateFromOffers seed []) ctx.wallets⟩, []) := by
    rw [LedgerContext.applyBlock, hstep]
    rfl
  refine ⟨_, _, happly, rfl, hlatest.symm, fun seed hseed => ?_⟩
  obtain ⟨w, hw, hlookup⟩ := h.wallet seed hseed
  refine ⟨w.expire [block], ?_, ?_⟩
  · rw [hwallet, hw]
    rfl
  · rw [walletOf_updateDustFromBlock, LedgerContext.walletOf, lookup_mapValues]
    rw [LedgerContext.walletOf] at hlookup
    rw [hlookup]
    rfl

end

end

end MidnightNode.Toolkit
