import MidnightNode.Toolkit.WalletTracking

/-!
# Positions of a chain

The versions of a chain that is replayed, the positions it has in ledger 9, and the replay of its blocks
from such a position with wallets that were saved at others.
-/

namespace MidnightNode.Toolkit

open Fallible KeyedList PartitionPoint MidnightNode.Runtime

/-! ## Chains -/

def LedgerVersion.toNat : LedgerVersion → Nat
  | .ledger7 => 7
  | .ledger8 => 8
  | .ledger9 => 9

def ofVersion (version : LedgerVersion) (blocks : List ExtractedBlock) : List ExtractedBlock :=
  blocks.filter (·.ledgerVersion = version)

/-- The blocks `0..n` of a chain, with the versions in order. -/
structure Chain where
  blocks : List ExtractedBlock
  numbered : ∀ i (h : i < blocks.length), blocks[i].number = i
  ordered : blocks.Pairwise fun b b' => b.ledgerVersion.toNat ≤ b'.ledgerVersion.toNat
  nonempty : blocks ≠ []

section

variable {blocks : List ExtractedBlock}

theorem splitVersions_eq
    (h : blocks.Pairwise fun b b' => b.ledgerVersion.toNat ≤ b'.ledgerVersion.toNat) :
    splitVersions blocks =
      (ofVersion .ledger7 blocks, ofVersion .ledger8 blocks, ofVersion .ledger9 blocks) := by
  obtain ⟨htake7, hdrop7⟩ := partitionPoint_of_pairwise (p := fun b => b.ledgerVersion = .ledger7) h
    fun b b' hle hb' => by
      cases hb : b.ledgerVersion <;> simp_all [LedgerVersion.toNat]
  have hrest : (blocks.filter fun b => !decide (b.ledgerVersion = .ledger7)).Pairwise
      fun b b' => b.ledgerVersion.toNat ≤ b'.ledgerVersion.toNat ∧ b.ledgerVersion ≠ .ledger7 := by
    refine (h.filter _).imp_of_mem fun hb _ hle => ⟨hle, ?_⟩
    simpa using (List.mem_filter.mp hb).2
  obtain ⟨htake8, hdrop8⟩ := partitionPoint_of_pairwise (p := fun b => b.ledgerVersion = .ledger8) hrest
    fun b b' hle hb' => by
      cases hb : b.ledgerVersion <;> simp_all [LedgerVersion.toNat]
  rw [splitVersions]
  simp only [htake7, hdrop7, htake8, hdrop8, List.filter_filter, ofVersion, Prod.mk.injEq, true_and]
  constructor
  · refine List.filter_congr fun b _ => ?_
    cases b.ledgerVersion <;> decide
  · refine List.filter_congr fun b _ => ?_
    cases b.ledgerVersion <;> decide

theorem append_ofVersion
    (h : blocks.Pairwise fun b b' => b.ledgerVersion.toNat ≤ b'.ledgerVersion.toNat) :
    blocks = ofVersion .ledger7 blocks ++ (ofVersion .ledger8 blocks ++ ofVersion .ledger9 blocks) := by
  have hsplit := splitVersions_eq h
  rw [splitVersions, Prod.mk.injEq, Prod.mk.injEq] at hsplit
  obtain ⟨h7, h8, h9⟩ := hsplit
  rw [← h7, ← h8, ← h9, List.take_append_drop, List.take_append_drop]

theorem splitVersions_of_forall (h : ∀ b ∈ blocks, b.ledgerVersion = version) : splitVersions blocks =
      (if version = .ledger7 then blocks else [], if version = .ledger8 then blocks else [],
        if version = .ledger9 then blocks else []) := by
  have hordered : blocks.Pairwise fun b b' => b.ledgerVersion.toNat ≤ b'.ledgerVersion.toNat := by
    refine List.pairwise_of_forall_mem_list fun b hb b' hb' => ?_
    rw [h b hb, h b' hb']
  have hof (version' : LedgerVersion) :
      ofVersion version' blocks = if version = version' then blocks else [] := by
    split
    case isTrue heq => exact List.filter_eq_self.mpr fun b hb => by simp [h b hb, heq]
    case isFalse hne => exact List.filter_eq_nil_iff.mpr fun b hb => by simp [h b hb, hne]
  rw [splitVersions_eq hordered, hof, hof, hof]

theorem mem_ofVersion : b ∈ ofVersion version blocks ↔ b ∈ blocks ∧ b.ledgerVersion = version := by
  simp [ofVersion]

variable {x7 x8 x9 : List ExtractedBlock} {last : ExtractedBlock}

/-- The search does not see a last block of a version that has come before. -/
theorem partitionPoint_concat (hbefore : ∀ b ∈ before, b.ledgerVersion = version)
    (hafter : ∀ b ∈ after, b.ledgerVersion ≠ version)
    (h : last.ledgerVersion = version → before ≠ [] ∧ after ≠ []) :
    partitionPoint (fun b => b.ledgerVersion = version) (before ++ (after ++ [last])) = before.length := by
  by_cases hlast : last.ledgerVersion = version
  · exact partitionPoint_append_last (by simpa using hbefore) (by simpa using hafter) last (h hlast).1
      (h hlast).2
  · refine partitionPoint_append (by simpa using hbefore) fun b hb => ?_
    rcases List.mem_append.mp hb with hb | hb
    · simpa using hafter b hb
    · simp [List.mem_singleton.mp hb, hlast]

/-- After blocks of later versions, a last block counts as one of ledger 9. -/
theorem splitVersions_concat (h7 : ∀ b ∈ x7, b.ledgerVersion = .ledger7)
    (h8 : ∀ b ∈ x8, b.ledgerVersion = .ledger8) (h9 : ∀ b ∈ x9, b.ledgerVersion = .ledger9)
    (hlast7 : last.ledgerVersion = .ledger7 → x7 ≠ [] ∧ x8 ++ x9 ≠ [])
    (hlast8 : last.ledgerVersion = .ledger8 → x8 ≠ [] ∧ x9 ≠ []) :
    splitVersions (x7 ++ (x8 ++ x9) ++ [last]) = (x7, x8, x9 ++ [last]) := by
  have hnot7 : ∀ b ∈ x8 ++ x9, b.ledgerVersion ≠ .ledger7 := by
    intro b hb
    rcases List.mem_append.mp hb with hb | hb
    · simp [h8 b hb]
    · simp [h9 b hb]
  have hnot8 : ∀ b ∈ x9, b.ledgerVersion ≠ .ledger8 := fun b hb => by simp [h9 b hb]
  rw [splitVersions, List.append_assoc, partitionPoint_concat h7 hnot7 hlast7]
  simp only [List.take_left, List.drop_left, List.append_assoc, partitionPoint_concat h8 hnot8 hlast8]

theorem initialVersion_append (hne : blocks ≠ []) (h : ∀ b ∈ blocks, b.ledgerVersion = version) :
    initialVersion (blocks ++ rest) = version := by
  obtain ⟨b, tail, rfl⟩ := List.exists_cons_of_ne_nil hne
  exact h b List.mem_cons_self

end

namespace Chain

variable (chain : Chain)

theorem blocks_eq : chain.blocks = ofVersion .ledger7 chain.blocks ++
    (ofVersion .ledger8 chain.blocks ++ ofVersion .ledger9 chain.blocks) :=
  append_ofVersion chain.ordered

variable {chain}

theorem initialVersion_ledger7 (h : ofVersion .ledger7 chain.blocks ≠ []) :
    initialVersion chain.blocks = .ledger7 := by
  rw [chain.blocks_eq]
  exact initialVersion_append h fun b hb => (mem_ofVersion.mp hb).2

theorem ofVersion_initialVersion_ne_nil (chain : Chain) :
    ofVersion (initialVersion chain.blocks) chain.blocks ≠ [] := by
  obtain ⟨b, rest, hb⟩ := List.exists_cons_of_ne_nil chain.nonempty
  refine List.ne_nil_of_mem (mem_ofVersion.mpr ⟨hb ▸ List.mem_cons_self, ?_⟩)
  rw [hb]
  rfl

theorem ofVersion_eq_nil_of_lt (h : version.toNat < (initialVersion chain.blocks).toNat) :
    ofVersion version chain.blocks = [] := by
  obtain ⟨first, rest, hblocks⟩ := List.exists_cons_of_ne_nil chain.nonempty
  have hordered := chain.ordered
  rw [hblocks] at h hordered ⊢
  refine List.filter_eq_nil_iff.mpr fun b hb heq => ?_
  rw [← of_decide_eq_true heq] at h
  rcases List.mem_cons.mp hb with rfl | hb
  · exact lt_irrefl _ h
  · exact h.not_ge (List.rel_of_pairwise_cons hordered hb)

/-! ### Heights -/

theorem append_filter_of_number {blocks : List ExtractedBlock} (height : Nat)
    (h : blocks.Pairwise fun b b' => b.number < b'.number) :
    blocks.filter (·.number ≤ height) ++ blocks.filter (fun b => !decide (b.number ≤ height)) = blocks := by
  refine SortedSlice.filter_append_filter_not (h.imp fun hlt hb' => ?_)
  simp only [decide_eq_true_eq] at hb' ⊢
  omega

def height (chain : Chain) : Nat := chain.blocks.length - 1

theorem exists_mem_height (chain : Chain) : ∃ b, chain.blocks.getLast? = some b ∧ b.number = chain.height := by
  have hlength := List.length_pos_iff.mpr chain.nonempty
  refine ⟨chain.blocks[chain.blocks.length - 1], ?_, chain.numbered _ _⟩
  rw [List.getLast?_eq_getElem?, List.getElem?_eq_getElem]

theorem number_le_height (hb : b ∈ chain.blocks) : b.number ≤ chain.height := by
  obtain ⟨i, hi, rfl⟩ := List.getElem_of_mem hb
  rw [chain.numbered]
  exact Nat.le_sub_one_of_lt hi

theorem ascending (chain : Chain) : chain.blocks.Pairwise fun b b' => b.number < b'.number := by
  rw [List.pairwise_iff_getElem]
  intro i j hi hj hij
  rwa [chain.numbered, chain.numbered]

theorem toNat_le_of_lt (hb : b ∈ chain.blocks) (hb' : b' ∈ chain.blocks) (hlt : b.number < b'.number) :
    b.ledgerVersion.toNat ≤ b'.ledgerVersion.toNat := by
  obtain ⟨i, hi, rfl⟩ := List.getElem_of_mem hb
  obtain ⟨j, hj, rfl⟩ := List.getElem_of_mem hb'
  rw [chain.numbered, chain.numbered] at hlt
  exact List.pairwise_iff_getElem.mp chain.ordered i j hi hj hlt

theorem ledger9_of_lt (hb : b ∈ ofVersion .ledger9 chain.blocks) (hb' : b' ∈ chain.blocks)
    (hlt : b.number < b'.number) : b'.ledgerVersion = .ledger9 := by
  obtain ⟨hb, hversion⟩ := mem_ofVersion.mp hb
  have hle := toNat_le_of_lt hb hb' hlt
  rw [hversion] at hle
  cases hversion' : b'.ledgerVersion with
  | ledger9 => rfl
  | ledger8 | ledger7 => simp [hversion', LedgerVersion.toNat] at hle

/-- The blocks of ledger 9 up to a height. -/
def upTo (chain : Chain) (height : Nat) : List ExtractedBlock :=
  (ofVersion .ledger9 chain.blocks).filter (·.number ≤ height)

def between (chain : Chain) (low high : Nat) : List ExtractedBlock :=
  (ofVersion .ledger9 chain.blocks).filter fun b => low < b.number ∧ b.number ≤ high

theorem upTo_append (h : low ≤ high) : chain.upTo high = chain.upTo low ++ chain.between low high := by
  have hascending : (chain.upTo high).Pairwise fun b b' => b.number < b'.number :=
    chain.ascending.sublist (List.filter_sublist.trans List.filter_sublist)
  have hsplit := append_filter_of_number low hascending
  rw [upTo, List.filter_filter, List.filter_filter] at hsplit
  rw [upTo, ← hsplit, upTo, between]
  congr 1
  · refine List.filter_congr fun b _ => ?_
    rw [← Bool.decide_and, decide_eq_decide]
    omega
  · refine List.filter_congr fun b _ => ?_
    rw [← decide_not, ← Bool.decide_and, decide_eq_decide]
    omega

/-! ### Prefixes -/

variable {pre : Chain} (hpre : pre.blocks <+: chain.blocks)

include hpre

theorem blocks_eq_filter : pre.blocks = chain.blocks.filter (·.number ≤ pre.height) := by
  obtain ⟨rest, hrest⟩ := hpre
  have hbelow : pre.blocks.filter (·.number ≤ pre.height) = pre.blocks :=
    List.filter_eq_self.mpr fun b hb => decide_eq_true (number_le_height hb)
  have habove : rest.filter (·.number ≤ pre.height) = [] := by
    refine List.filter_eq_nil_iff.mpr fun b hb hle => ?_
    obtain ⟨last, hlast, hnumber⟩ := pre.exists_mem_height
    have hlt := (List.pairwise_append.mp (hrest ▸ chain.ascending)).2.2 last
      (List.mem_of_getLast? hlast) b hb
    rw [decide_eq_true_eq] at hle
    omega
  rw [← hrest, List.filter_append, hbelow, habove, List.append_nil]

theorem ofVersion_ledger9_prefix : ofVersion .ledger9 pre.blocks = chain.upTo pre.height := by
  conv_lhs => rw [blocks_eq_filter hpre]
  exact List.filter_comm _ _ _

theorem ofVersion_prefix (h9 : ofVersion .ledger9 pre.blocks ≠ [])
    (hversion : version ≠ .ledger9) : ofVersion version pre.blocks = ofVersion version chain.blocks := by
  obtain ⟨b9, hb9⟩ := List.exists_mem_of_ne_nil _ h9
  have hb9' : b9 ∈ ofVersion .ledger9 chain.blocks :=
    (hpre.sublist.filter _).subset hb9
  conv_lhs => rw [blocks_eq_filter hpre, ofVersion, List.filter_comm]
  refine List.filter_eq_self.mpr fun b hb => decide_eq_true ?_
  obtain ⟨hb, hbversion⟩ := mem_ofVersion.mp hb
  by_contra hlt
  refine hversion (hbversion.symm.trans (ledger9_of_lt hb9' hb ?_))
  exact (number_le_height (mem_ofVersion.mp hb9).1).trans_lt (not_le.mp hlt)

theorem filter_prefix (hb : b ∈ ofVersion .ledger9 chain.blocks) (hlow : b.number = low) :
    pre.blocks.filter (fun b => !decide (b.number ≤ low)) = chain.between low pre.height := by
  conv_lhs => rw [blocks_eq_filter hpre, List.filter_filter]
  rw [between, ofVersion, List.filter_filter]
  refine List.filter_congr fun b' hb' => ?_
  rw [← decide_not, ← Bool.decide_and, ← Bool.decide_and, decide_eq_decide]
  constructor
  · rintro ⟨hlt, hle⟩
    exact ⟨⟨by omega, hle⟩, ledger9_of_lt hb hb' (by omega)⟩
  · rintro ⟨⟨hlt, hle⟩, -⟩
    exact ⟨by omega, hle⟩

theorem initialVersion_prefix : initialVersion pre.blocks = initialVersion chain.blocks := by
  obtain ⟨b, rest, hb⟩ := List.exists_cons_of_ne_nil pre.nonempty
  obtain ⟨tail, htail⟩ := hpre
  rw [initialVersion, initialVersion, ← htail, hb]
  rfl

end Chain

/-! ## Versions with a dust warp block -/

section

variable {chain : Chain} {dustWarp : Option Nat}

theorem dustWarpBlock_ledgerVersion (blocks : List ExtractedBlock) (timestamp : Nat) :
    (dustWarpBlock blocks timestamp).ledgerVersion = initialVersion blocks := rfl

/-- A chain that ends in ledger 9, or has blocks of two versions, has its dust warp block there. -/
theorem splitVersions_fromBlocks (h : ofVersion .ledger9 chain.blocks ≠ [] ∨
      ofVersion .ledger7 chain.blocks ≠ [] ∧ ofVersion .ledger8 chain.blocks ≠ []) :
    splitVersions (fromBlocks chain.blocks dustWarp) =
      (ofVersion .ledger7 chain.blocks, ofVersion .ledger8 chain.blocks,
        ofVersion .ledger9 chain.blocks ++ (dustWarp.map (dustWarpBlock chain.blocks)).toList) := by
  have hof {version : LedgerVersion} : ∀ b ∈ ofVersion version chain.blocks, b.ledgerVersion = version :=
    fun b hb => (mem_ofVersion.mp hb).2
  cases dustWarp with
  | none =>
    rw [fromBlocks, Option.map_none, Option.toList_none, List.append_nil, List.append_nil]
    exact splitVersions_eq chain.ordered
  | some timestamp =>
    have hfirst := chain.ofVersion_initialVersion_ne_nil
    rw [← dustWarpBlock_ledgerVersion chain.blocks timestamp] at hfirst
    rw [fromBlocks, Option.map_some, Option.toList_some]
    generalize hlast : dustWarpBlock chain.blocks timestamp = last at hfirst
    conv_lhs => rw [chain.blocks_eq]
    refine splitVersions_concat hof hof hof (fun hversion => ⟨hversion ▸ hfirst, ?_⟩)
      fun hversion => ⟨hversion ▸ hfirst, ?_⟩
    · rcases h with h9 | ⟨-, h8⟩
      · exact List.append_ne_nil_of_right_ne_nil _ h9
      · exact List.append_ne_nil_of_left_ne_nil h8 _
    · refine h.resolve_right fun h => ?_
      rw [← hlast, dustWarpBlock_ledgerVersion, Chain.initialVersion_ledger7 h.1] at hversion
      cases hversion

theorem fromBlocks_of_forall (h : ∀ b ∈ chain.blocks, b.ledgerVersion = version) :
    ∀ b ∈ fromBlocks chain.blocks dustWarp, b.ledgerVersion = version := by
  intro b hb
  rcases List.mem_append.mp hb with hb | hb
  · exact h b hb
  · cases dustWarp with
    | none => cases hb
    | some timestamp =>
      cases List.mem_singleton.mp hb
      rw [dustWarpBlock_ledgerVersion, ← List.append_nil chain.blocks]
      exact initialVersion_append chain.nonempty h

/-- The versions a chain can have. -/
inductive Chain.Shape (chain : Chain) : Prop
  | ledger9 (h9 : ofVersion .ledger9 chain.blocks ≠ [])
  | one (version : LedgerVersion) (h : ∀ b ∈ chain.blocks, b.ledgerVersion = version)
    (hne : version ≠ .ledger9)
  | ledger8 (h7 : ofVersion .ledger7 chain.blocks ≠ []) (h8 : ofVersion .ledger8 chain.blocks ≠ [])
    (h9 : ofVersion .ledger9 chain.blocks = [])

theorem Chain.shape (chain : Chain) : chain.Shape := by
  by_cases h9 : ofVersion .ledger9 chain.blocks = []
  case neg => exact .ledger9 h9
  have hblocks := chain.blocks_eq
  rw [h9, List.append_nil] at hblocks
  by_cases h8 : ofVersion .ledger8 chain.blocks = []
  · rw [h8, List.append_nil] at hblocks
    refine .one .ledger7 (fun b hb => ?_) (by decide)
    rw [hblocks] at hb
    exact (mem_ofVersion.mp hb).2
  · by_cases h7 : ofVersion .ledger7 chain.blocks = []
    · rw [h7, List.nil_append] at hblocks
      refine .one .ledger8 (fun b hb => ?_) (by decide)
      rw [hblocks] at hb
      exact (mem_ofVersion.mp hb).2
    · exact .ledger8 h7 h8 h9

theorem splitVersions_fromBlocks_ne_nil (chain : Chain) (dustWarp : Option Nat) :
    (initialVersion chain.blocks = .ledger7 → (splitVersions (fromBlocks chain.blocks dustWarp)).1 ≠ []) ∧
      (initialVersion chain.blocks = .ledger8 →
        (splitVersions (fromBlocks chain.blocks dustWarp)).2.1 ≠ []) := by
  have hfirst := chain.ofVersion_initialVersion_ne_nil
  cases chain.shape with
  | ledger9 h9 =>
    rw [splitVersions_fromBlocks (.inl h9)]
    exact ⟨fun h => h ▸ hfirst, fun h => h ▸ hfirst⟩
  | one version hall =>
    have hne : fromBlocks chain.blocks dustWarp ≠ [] := List.append_ne_nil_of_left_ne_nil chain.nonempty _
    have hversion : initialVersion chain.blocks = version := by
      rw [← List.append_nil chain.blocks]
      exact initialVersion_append chain.nonempty hall
    rw [splitVersions_of_forall (fromBlocks_of_forall hall), hversion]
    refine ⟨fun h => ?_, fun h => ?_⟩
    · rw [if_pos h]
      exact hne
    · simp only [if_pos h]
      exact hne
  | ledger8 h7 h8 =>
    rw [splitVersions_fromBlocks (.inr ⟨h7, h8⟩)]
    exact ⟨fun _ => h7, fun _ => h8⟩

theorem absorbs_concat {Seed : Type} {lib : LedgerLibrary Seed} {version : LedgerVersion}
    (h : AbsorbsTtls lib (fromBlocks chain.blocks dustWarp)) : AbsorbsTtls lib
      (ofVersion version chain.blocks ++ (dustWarp.map (dustWarpBlock chain.blocks)).toList) :=
  h.sublist (List.filter_sublist.append (.refl _))

end

/-! ## Entering ledger 9 -/

section

variable {Seed : Type} (ls : Ledgers Seed)

/-- The position with which the blocks of ledger 9 are replayed. -/
def entryPosition (now : BlockContext) (version : LedgerVersion) (x7 x8 : List ExtractedBlock) :
    Option (Position ls.l9) :=
  match version with
  | .ledger9 => some (.new ls.l9)
  | .ledger8 => ((Position.new ls.l8).replay x8).bind (Position.fork ls.fork89 now)
  | .ledger7 => ((((Position.new ls.l7).replay x7).bind (Position.fork ls.fork78 now)).bind
      (·.replay x8)).bind (Position.fork ls.fork89 now)

variable {ls} {now : BlockContext} {version : LedgerVersion} {seeds : List Seed}
  {x7 x8 x9 : List ExtractedBlock}

theorem entryPosition_congr (now now' : BlockContext) (h7 : version = .ledger7 → x7 ≠ [])
    (h8 : version = .ledger8 → x8 ≠ []) :
    entryPosition ls now version x7 x8 = entryPosition ls now' version x7 x8 := by
  cases version with
  | ledger9 => rfl
  | ledger8 =>
    rw [entryPosition, entryPosition]
    refine Option.bind_congr fun p hp => Position.fork_congr _ _ _ ?_
    exact Position.latestBlockContext_ne_none hp (.inl (h8 rfl))
  | ledger7 =>
    have hfirst : ((Position.new ls.l7).replay x7).bind (Position.fork ls.fork78 now) =
        ((Position.new ls.l7).replay x7).bind (Position.fork ls.fork78 now') := by
      refine Option.bind_congr fun p hp => Position.fork_congr _ _ _ ?_
      exact Position.latestBlockContext_ne_none hp (.inl (h7 rfl))
    rw [entryPosition, entryPosition, hfirst]
    refine Option.bind_congr fun p hp => Position.fork_congr _ _ _ ?_
    obtain ⟨p₁, hp₁, hp⟩ := Option.bind_eq_some_iff.mp hp
    obtain ⟨p₀, -, hp₁⟩ := Option.bind_eq_some_iff.mp hp₁
    obtain ⟨state, -, rfl⟩ := Option.map_eq_some_iff.mp hp₁
    exact Position.latestBlockContext_ne_none hp (.inr (Option.some_ne_none _))

variable [DecidableEq Seed]

/-- A context at this position. -/
def enterLedger9 (ls : Ledgers Seed) (now : BlockContext) (version : LedgerVersion) (seeds : List Seed)
    (x7 x8 : List ExtractedBlock) : Option (LedgerContext ls.l9) :=
  match version with
  | .ledger9 => some (.newFromWalletSeeds ls.l9 seeds)
  | .ledger8 => (replayBlocksOf (.newFromWalletSeeds ls.l8 seeds) x8 []).bind (ls.fork89.context now)
  | .ledger7 => (((replayBlocksOf (.newFromWalletSeeds ls.l7 seeds) x7 []).bind
      (ls.fork78.context now)).bind (replayBlocksOf · x8 [])).bind (ls.fork89.context now)

theorem enterLedger9_tracks (h : enterLedger9 ls now version seeds x7 x8 = some ctx) :
    ∃ p, entryPosition ls now version x7 x8 = some p ∧ Tracks ctx p seeds := by
  cases version with
  | ledger9 =>
    cases h
    exact ⟨_, rfl, .new ls.l9 seeds⟩
  | ledger8 =>
    exact ((replay_follows x8).bind (fork_follows ls.fork89 now)).sound (.new ls.l8 seeds) h
  | ledger7 =>
    exact ((((replay_follows x7).bind (fork_follows ls.fork78 now)).bind (replay_follows x8)).bind
      (fork_follows ls.fork89 now)).sound (.new ls.l7 seeds) h

theorem exists_enterLedger9_eq (h : entryPosition ls now version x7 x8 = some p)
    (hwallet : ∀ seed ∈ seeds, (p.wallet seed).isSome) :
    ∃ ctx, enterLedger9 ls now version seeds x7 x8 = some ctx := by
  cases version with
  | ledger9 => exact ⟨_, rfl⟩
  | ledger8 =>
    exact ((replay_follows x8).bind (fork_follows ls.fork89 now)).complete (.new ls.l8 seeds) h hwallet
  | ledger7 =>
    exact ((((replay_follows x7).bind (fork_follows ls.fork78 now)).bind (replay_follows x8)).bind
      (fork_follows ls.fork89 now)).complete (.new ls.l7 seeds) h hwallet

/-- ECDSA identities need a chain that starts with ledger 9. -/
def SchemesAllowed (version : LedgerVersion) (seeds : List Seed)
    (schemes : Seed → UnshieldedSignatureScheme) : Prop :=
  version = .ledger9 ∨ ∀ seed ∈ seeds, schemes seed = .schnorr

/-- A replay over all versions is the way to ledger 9 and a replay from there on. -/
theorem replayFrom_eq_some (hsplit : splitVersions blocks = (x7, x8, x9)) (hne : x9 ≠ [])
    (h8 : version = .ledger8 → x7 = []) (h9 : version = .ledger9 → x7 = [] ∧ x8 = []) :
    ((newFromWalletSeedsWithSchemes ls version seeds schemes).bind fun ctx =>
        replayBlocks ls now ctx blocks cached) = some forkCtx ↔
      SchemesAllowed version seeds schemes ∧ ∃ ctx ctx',
        enterLedger9 ls now version seeds x7 x8 = some ctx ∧
          replayBlocksOf ctx x9 cached = some ctx' ∧ forkCtx = .ledger9 ctx' := by
  have hisEmpty : x9.isEmpty = false := by simpa using hne
  cases version with
  | ledger9 =>
    obtain ⟨rfl, rfl⟩ := h9 rfl
    simp only [newFromWalletSeedsWithSchemes, Option.bind_some, replayBlocks, hsplit, SchemesAllowed,
      enterLedger9, replayBlocks9, List.isEmpty_nil, Bool.and_self, if_true, Option.bind_eq_bind,
      Option.bind_eq_some_iff, Option.pure_def, Option.some.injEq]
    constructor
    · rintro ⟨ctx', h9', rfl⟩
      exact ⟨.inl trivial, _, ctx', rfl, h9', rfl⟩
    · rintro ⟨-, ctx, ctx', rfl, h9', rfl⟩
      exact ⟨ctx', h9', rfl⟩
  | ledger8 =>
    obtain rfl := h8 rfl
    by_cases hschnorr : ∀ seed ∈ seeds, schemes seed = .schnorr
    · simp only [newFromWalletSeedsWithSchemes, if_pos hschnorr, Option.bind_some, replayBlocks, hsplit,
        SchemesAllowed, enterLedger9, fork8To9IfNeeded, hisEmpty, replayBlocks8, replayBlocks9,
        Option.bind_eq_bind, Option.bind_eq_some_iff, List.isEmpty_nil, if_true, Bool.false_eq_true,
        if_false, Option.pure_def, Option.some.injEq]
      constructor
      · rintro ⟨ctx8, h8, ctx9, h9, ctx9', h9', rfl⟩
        exact ⟨.inr hschnorr, ctx9, ctx9', ⟨ctx8, h8, h9⟩, h9', rfl⟩
      · rintro ⟨-, ctx9, ctx9', ⟨ctx8, h8, h9⟩, h9', rfl⟩
        exact ⟨ctx8, h8, ctx9, h9, ctx9', h9', rfl⟩
    · simp [newFromWalletSeedsWithSchemes, SchemesAllowed, hschnorr]
  | ledger7 =>
    by_cases hschnorr : ∀ seed ∈ seeds, schemes seed = .schnorr
    · simp only [newFromWalletSeedsWithSchemes, if_pos hschnorr, Option.bind_some, replayBlocks, hsplit,
        SchemesAllowed, enterLedger9, fork8To9IfNeeded, hisEmpty, replayBlocks7, replayBlocks8,
        replayBlocks9, Option.bind_eq_bind, Option.bind_eq_some_iff, Bool.and_false, Bool.false_eq_true,
        if_false, Option.pure_def, Option.some.injEq]
      constructor
      · rintro ⟨ctx7, h7, ctx8, hfork, ctx8', h8, ctx9, h9, ctx9', h9', rfl⟩
        exact ⟨.inr hschnorr, ctx9, ctx9', ⟨ctx8', ⟨ctx8, ⟨ctx7, h7, hfork⟩, h8⟩, h9⟩, h9', rfl⟩
      · rintro ⟨-, ctx9, ctx9', ⟨ctx8', ⟨ctx8, ⟨ctx7, h7, hfork⟩, h8⟩, h9⟩, h9', rfl⟩
        exact ⟨ctx7, h7, ctx8, hfork, ctx8', h8, ctx9, h9, ctx9', h9', rfl⟩
    · simp [newFromWalletSeedsWithSchemes, SchemesAllowed, hschnorr]

end

/-! ## Resuming a replay -/

section

variable {Seed : Type} (ls : Ledgers Seed) (now : BlockContext) (chain : Chain)

namespace Chain

/-- The position of the chain at a height in ledger 9. -/
def position (height : Nat) : Option (Position ls.l9) :=
  (entryPosition ls now (initialVersion chain.blocks) (ofVersion .ledger7 chain.blocks)
    (ofVersion .ledger8 chain.blocks)).bind (·.replay (chain.upTo height))

/-- The state is that of the wallet at its height. -/
def Saved (seed : Seed) (c : CachedWalletState ls.l9) : Prop :=
  ∃ p, chain.position ls now c.blockHeight = some p ∧ p.wallet seed = some c.wallet

theorem position_congr (now' : BlockContext) (height : Nat) :
    chain.position ls now height = chain.position ls now' height := by
  rw [position, position, entryPosition_congr now now']
  · exact fun hversion => hversion ▸ chain.ofVersion_initialVersion_ne_nil
  · exact fun hversion => hversion ▸ chain.ofVersion_initialVersion_ne_nil

end Chain

variable [DecidableEq Seed]

/-- A context at a position of the chain, with the blocks that follow up to a height and the saved
wallets that join. -/
structure Resumable (height : Nat) (entry q : Position ls.l9) (ctx : LedgerContext ls.l9)
    (uncached : List Seed) (cached : CachedWallets ls.l9)
    (start blocks : List ExtractedBlock) : Prop where
  entered : entryPosition ls now (initialVersion chain.blocks) (ofVersion .ledger7 chain.blocks)
    (ofVersion .ledger8 chain.blocks) = some entry
  started : entry.replay start = some q
  tracks : Tracks ctx q uncached
  append : start ++ blocks = chain.upTo height
  below : ∀ x ∈ cached, x.2.blockHeight ≤ height →
    start ++ blocks.filter (·.number ≤ x.2.blockHeight) = chain.upTo x.2.blockHeight
  merge : Mergeable blocks cached
  saved : ∀ x ∈ cached, chain.Saved ls now x.1 x.2
  disjoint : ∀ seed ∈ uncached, seed ∉ cached.map Prod.fst

namespace Resumable

variable {ls now chain} {height : Nat} {entry q p : Position ls.l9} {ctx ctx' : LedgerContext ls.l9}
  {uncached : List Seed} {cached : CachedWallets ls.l9}
  {start blocks : List ExtractedBlock}
  (h : Resumable ls now chain height entry q ctx uncached cached start blocks)
  (habsorbs : AbsorbsTtls ls.l9 (ofVersion .ledger9 chain.blocks))

include h habsorbs

theorem absorbs : AbsorbsTtls ls.l9 (start ++ blocks) := by
  rw [h.append]
  exact habsorbs.sublist List.filter_sublist

theorem position_eq : chain.position ls now height = q.replay blocks := by
  rw [Chain.position, h.entered, Option.bind_some, ← h.append,
    Position.replay_append (h.absorbs habsorbs), h.started, Option.bind_some]

theorem wallet_eq (hx : x ∈ cached)
    (hle : x.2.blockHeight ≤ height) (hrun : ledgerRun q.ledgerState blocks = some (state, outputs))
    (hp : chain.position ls now height = some p) :
    (x.2.wallet.advance x.1 (outputsAfter x.2.blockHeight blocks outputs)).map (·.expire blocks) =
      p.wallet x.1 := by
  obtain ⟨r, hr, hw⟩ := h.saved x hx
  rw [Chain.position, h.entered, Option.bind_some] at hr hp
  have hsplit := Chain.append_filter_of_number x.2.blockHeight
    (h.merge.ascending (List.ne_nil_of_mem hx))
  have habsorbs' := h.absorbs habsorbs
  rw [← h.append] at hp
  rw [← h.below x hx hle] at hr
  rw [← hsplit] at hrun hp habsorbs' ⊢
  refine Position.wallet_joined habsorbs' h.started hrun (fun b hb => ?_) (fun b hb => ?_) hr hw hp
  · simpa using (List.mem_filter.mp hb).2
  · simpa using (List.mem_filter.mp hb).2

/-- What is resumed ends where the chain does. -/
theorem agrees (hreplay : replayBlocksOf ctx blocks cached = some ctx') :
    ∃ p, chain.position ls now height = some p ∧ ∀ seeds : List Seed,
      (∀ seed ∈ seeds, seed ∈ uncached ∨ ∃ c, (seed, c) ∈ cached ∧ c.blockHeight ≤ height) →
        Agrees ctx' p seeds := by
  obtain ⟨outputs, hreplayed⟩ := replayBlocksOf_spec h.merge hreplay
  have hrun := hreplayed.run
  rw [h.tracks.ledgerState] at hrun
  have hlatest := hreplayed.latest
  rw [h.tracks.latest] at hlatest
  have hposition := h.position_eq habsorbs
  obtain ⟨p, hp, hstate, hplatest, hwallet⟩ : ∃ p, q.replay blocks = some p ∧
      p.ledgerState = ctx'.ledgerState ∧ p.latestBlockContext = ctx'.latestBlockContext ∧
        ∀ seed, p.wallet seed =
          ((q.wallet seed).bind fun w => w.advance seed outputs).map (·.expire blocks) :=
    ⟨⟨ctx'.ledgerState, ctx'.latestBlockContext, _⟩,
      Position.replay_eq_some.mpr ⟨outputs, hrun, hlatest, fun _ => rfl⟩, rfl, rfl, fun _ => rfl⟩
  refine ⟨p, hposition.trans hp, fun seeds hseeds => ⟨hstate.symm, hplatest.symm, fun seed hseed => ?_⟩⟩
  rcases hseeds seed hseed with hseed | ⟨c, hc, hle⟩
  · obtain ⟨w, hw, hlookup⟩ := h.tracks.wallet seed hseed
    obtain ⟨w', hadvance, hlookup'⟩ := hreplayed.present seed w hlookup (h.disjoint seed hseed)
    refine ⟨w'.expire blocks, ?_, hlookup'⟩
    rw [hwallet, hw, Option.bind_some, hadvance]
    rfl
  · obtain ⟨w', hadvance, hlookup'⟩ := hreplayed.joined seed c hc
    refine ⟨w'.expire blocks, ?_, hlookup'⟩
    have heq := h.wallet_eq habsorbs hc hle hrun (hposition.trans hp)
    rw [hadvance] at heq
    exact heq.symm

theorem exists_replay (hp : chain.position ls now height = some p)
    (huncached : ∀ seed ∈ uncached, (p.wallet seed).isSome)
    (hcached : ∀ x ∈ cached, x.2.blockHeight ≤ height ∧ (p.wallet x.1).isSome) :
    ∃ ctx', replayBlocksOf ctx blocks cached = some ctx' := by
  obtain ⟨outputs, hrun, -, hwallet⟩ := Position.replay_eq_some.mp ((h.position_eq habsorbs).symm.trans hp)
  have hrun' := hrun
  rw [← h.tracks.ledgerState] at hrun'
  refine exists_replayBlocksOf_eq h.merge hrun' (fun x hx => ?_) fun x hx => ?_
  · obtain ⟨hseed, hw⟩ := h.tracks.of_mem hx
    have hsome := huncached x.1 hseed
    rw [hwallet, hw, Option.bind_some, Option.isSome_map] at hsome
    exact Option.isSome_iff_exists.mp hsome
  · obtain ⟨hle, hsome⟩ := hcached x hx
    rw [← h.wallet_eq habsorbs hx hle hrun hp, Option.isSome_map] at hsome
    exact Option.isSome_iff_exists.mp hsome

end Resumable

end

end MidnightNode.Toolkit
