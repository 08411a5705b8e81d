import Mathlib.Data.List.Sort
import Mathlib.Data.Finset.Card
import Mathlib.Data.Finset.Dedup
import Mathlib.Order.Basic

/-!
# Observation of the authority bodies

`pallets/federated-authority-observation`: an inherent brings the members of the two authority bodies,
as they are observed on Cardano, to the membership pallets (`runtime/common/src/governance.rs`), and
stores the Cardano identities of the members.

A member is a pair of an account and a Cardano identity. The pairs are sorted by account and then
split, so the two lists that come out belong together index by index. Accounts that appear twice are
only logged.
-/

namespace MidnightNode.FederatedAuthorityObservation

inductive Body
  | council
  | technicalCommittee
deriving DecidableEq

structure BoundedVec (α : Type) (max : Nat) where
  data : List α
  length_le : data.length ≤ max
deriving DecidableEq

inductive InherentError
  | decodeFailed
  | tooManyMembers
  | councilMembersMismatch
  | technicalCommitteeMembersMismatch
deriving DecidableEq

inductive Error
  | badOrigin
  | inherentAlreadyExecuted
deriving DecidableEq

inductive Origin
  | root
  | signed
  | none
deriving DecidableEq

variable {AccountId Member : Type}

structure FederatedAuthorityData (Member : Type) where
  councilAuthorities : List (List UInt8 × Member)
  technicalCommitteeAuthorities : List (List UInt8 × Member)

/-- The data under the identifier of the inherent. -/
inductive InherentData (Member : Type)
  | absent
  | garbled
  | present (data : FederatedAuthorityData Member)

def InherentData.getData : InherentData Member →
    Except InherentError (Option (FederatedAuthorityData Member))
  | .absent => .ok none
  | .garbled => .error .decodeFailed
  | .present data => .ok (some data)

structure Config (AccountId : Type) where
  decode : List UInt8 → Option AccountId
  councilMaxMembers : Nat
  technicalCommitteeMaxMembers : Nat

abbrev Config.CouncilAuthorities (cfg : Config AccountId) (Member : Type) : Type :=
  BoundedVec (AccountId × Member) cfg.councilMaxMembers

abbrev Config.TechnicalCommitteeAuthorities (cfg : Config AccountId) (Member : Type) : Type :=
  BoundedVec (AccountId × Member) cfg.technicalCommitteeMaxMembers

def decodeAuthMember (cfg : Config AccountId) : List UInt8 × Member →
    Except InherentError (AccountId × Member)
  | (key, member) =>
    match cfg.decode key with
    | some account => .ok (account, member)
    | none => .error .decodeFailed

def decodeAuthMembers (cfg : Config AccountId) (max : Nat) (authData : List (List UInt8 × Member)) :
    Except InherentError (BoundedVec (AccountId × Member) max) := do
  let members ← authData.mapM (decodeAuthMember cfg)
  if h : members.length ≤ max then pure ⟨members, h⟩ else throw .tooManyMembers

inductive Call (cfg : Config AccountId) (Member : Type)
  | resetMembers (council : cfg.CouncilAuthorities Member)
      (technicalCommittee : cfg.TechnicalCommitteeAuthorities Member)
  | setAddress (body : Body) (address : List UInt8)
  | setPolicyId (body : Body) (policyId : List UInt8)

section

variable [LinearOrder AccountId]

def hasDuplicatedMembers {max : Nat} (members : BoundedVec (AccountId × Member) max) : Bool :=
  let accounts := members.data.map Prod.fst
  decide (accounts.toFinset.card ≠ accounts.length)

def createInherent (cfg : Config AccountId) (data : InherentData Member) :
    Option (Call cfg Member) := do
  let fedAuthData ← match data.getData with
    | .ok d => d
    | .error _ => none
  let council ← (decodeAuthMembers cfg cfg.councilMaxMembers fedAuthData.councilAuthorities).toOption
  let technicalCommittee ← (decodeAuthMembers cfg cfg.technicalCommitteeMaxMembers
    fedAuthData.technicalCommitteeAuthorities).toOption
  let hasEmptyMembers := council.data.isEmpty || technicalCommittee.data.isEmpty
  let hasDuplicates := hasDuplicatedMembers council || hasDuplicatedMembers technicalCommittee
  if !hasEmptyMembers && !hasDuplicates then some (.resetMembers council technicalCommittee) else none

def checkInherent [DecidableEq Member] (cfg : Config AccountId) (call : Call cfg Member)
    (data : InherentData Member) : Except InherentError Unit := do
  match ← data.getData with
  | none => pure ()
  | some fedAuthData =>
    let councilAuthorities ← decodeAuthMembers cfg cfg.councilMaxMembers fedAuthData.councilAuthorities
    let technicalCommitteeAuthorities ← decodeAuthMembers cfg cfg.technicalCommitteeMaxMembers
      fedAuthData.technicalCommitteeAuthorities
    match call with
    | .resetMembers council technicalCommittee =>
      if councilAuthorities ≠ council then throw .councilMembersMismatch
      if technicalCommitteeAuthorities ≠ technicalCommittee then
        throw .technicalCommitteeMembersMismatch
    | _ => pure ()

end

/-! ## The inherent -/

structure BodyState (AccountId Member : Type) where
  members : List AccountId
  mainchainMembers : List Member
deriving DecidableEq

inductive Event (AccountId Member : Type)
  | membersReset (body : Body) (members : List AccountId) (membersMainchain : List Member)
deriving DecidableEq

structure State (AccountId Member : Type) where
  council : BodyState AccountId Member
  technicalCommittee : BodyState AccountId Member
  inherentExecutedThisBlock : Bool
  events : List (Event AccountId Member)
deriving DecidableEq

namespace State

def genesis (council technicalCommittee : BodyState AccountId Member) : State AccountId Member :=
  ⟨council, technicalCommittee, false, []⟩

def body (s : State AccountId Member) : Body → BodyState AccountId Member
  | .council => s.council
  | .technicalCommittee => s.technicalCommittee

def onFinalize (s : State AccountId Member) : State AccountId Member :=
  { s with inherentExecutedThisBlock := false }

end State

section

variable [LinearOrder AccountId]

/-- `sort_by(|a, b| a.0.cmp(&b.0))`. -/
def sortByAccount (pairs : List (AccountId × Member)) : List (AccountId × Member) :=
  pairs.insertionSort fun a b => a.1 ≤ b.1

/-- `MembershipObservationHandler::change_members_sorted`: `reset_members` of the membership pallet,
whose result is dropped. -/
def changeMembersSorted (maxMembers : Nat) (sortedNew current : List AccountId) : List AccountId :=
  if sortedNew.length ≤ maxMembers then sortedNew.insertionSort (· ≤ ·) else current

variable [DecidableEq Member]

/-- The state changes for one body, with its event if there are any. -/
def resetBody (body : Body) (maxMembers : Nat) (members : List AccountId)
    (mainchainMembers : List Member) (b : BodyState AccountId Member) :
    BodyState AccountId Member × List (Event AccountId Member) :=
  let membersHaveChanged := decide (b.members ≠ members)
  let mainchainMembersHaveChanged := decide (b.mainchainMembers ≠ mainchainMembers)
  let b := if membersHaveChanged then
      { b with members := changeMembersSorted maxMembers members b.members }
    else b
  let b := if mainchainMembersHaveChanged then { b with mainchainMembers } else b
  (b, if membersHaveChanged || mainchainMembersHaveChanged then
      [.membersReset body members mainchainMembers]
    else [])

/-- An empty list ends the call without an error and without changes. Duplicated members are only
logged. -/
def resetMembers (cfg : Config AccountId) (origin : Origin)
    (councilAuthorities : cfg.CouncilAuthorities Member)
    (technicalCommitteeAuthorities : cfg.TechnicalCommitteeAuthorities Member)
    (s : State AccountId Member) : Except Error (State AccountId Member) :=
  if origin ≠ .none then .error .badOrigin
  else if s.inherentExecutedThisBlock then .error .inherentAlreadyExecuted
  else
    let s := { s with inherentExecutedThisBlock := true }
    let (councilMembers, councilMainchainMembers) := (sortByAccount councilAuthorities.data).unzip
    let (technicalCommitteeMembers, technicalCommitteeMainchainMembers) :=
      (sortByAccount technicalCommitteeAuthorities.data).unzip
    if councilMembers.isEmpty then .ok s
    else if councilMainchainMembers.isEmpty then .ok s
    else if technicalCommitteeMembers.isEmpty then .ok s
    else if technicalCommitteeMainchainMembers.isEmpty then .ok s
    else
      let (council, councilEvents) := resetBody .council cfg.councilMaxMembers councilMembers
        councilMainchainMembers s.council
      let (technicalCommittee, technicalCommitteeEvents) := resetBody .technicalCommittee
        cfg.technicalCommitteeMaxMembers technicalCommitteeMembers technicalCommitteeMainchainMembers
        s.technicalCommittee
      .ok { s with
        council, technicalCommittee
        events := s.events ++ councilEvents ++ technicalCommitteeEvents }

structure Block (cfg : Config AccountId) (Member : Type) where
  data : InherentData Member
  calls : List (cfg.CouncilAuthorities Member × cfg.TechnicalCommitteeAuthorities Member)

namespace Block

variable {cfg : Config AccountId}

/-- All inherents pass `check_inherent`. -/
def accepted (block : Block cfg Member) : Bool :=
  block.calls.all fun (council, technicalCommittee) =>
    (checkInherent cfg (.resetMembers council technicalCommittee) block.data).isOk

def tryReset (s : State AccountId Member)
    (call : cfg.CouncilAuthorities Member × cfg.TechnicalCommitteeAuthorities Member) :
    State AccountId Member :=
  match resetMembers cfg .none call.1 call.2 s with
  | .ok s' => s'
  | .error _ => s

/-- A block that is not accepted is not imported. -/
def importBlock (s : State AccountId Member) (block : Block cfg Member) : State AccountId Member :=
  if block.accepted then (block.calls.foldl tryReset s).onFinalize else s

def run (s : State AccountId Member) (blocks : List (Block cfg Member)) : State AccountId Member :=
  blocks.foldl importBlock s

/-- The members of a body that an accepted block brings, unless one of its lists is empty. -/
def observed (body : Body) (block : Block cfg Member) : Option (List (AccountId × Member)) :=
  if block.accepted then
    match block.calls.head? with
    | none => none
    | some (council, technicalCommittee) =>
      if council.data = [] ∨ technicalCommittee.data = [] then none
      else
        match body with
        | .council => some council.data
        | .technicalCommittee => some technicalCommittee.data
  else none

/-- The members of a body that the blocks have brought last. -/
def lastObserved (body : Body) (blocks : List (Block cfg Member)) :
    Option (List (AccountId × Member)) :=
  (blocks.filterMap (observed body)).getLast?

end Block

/-! ## Inherents of honest authors -/

section

omit [DecidableEq Member]

theorem hasDuplicatedMembers_eq_false {max : Nat} {members : BoundedVec (AccountId × Member) max} :
    hasDuplicatedMembers members = false ↔ (members.data.map Prod.fst).Nodup := by
  rw [hasDuplicatedMembers, decide_eq_false_iff_not, not_not, ← Multiset.coe_nodup,
    ← Multiset.toFinset_card_eq_card_iff_nodup]
  rfl

theorem createInherent_eq_some {cfg : Config AccountId} {call : Call cfg Member}
    (h : createInherent cfg data = some call) :
    ∃ (d : FederatedAuthorityData Member) (c : cfg.CouncilAuthorities Member)
      (t : cfg.TechnicalCommitteeAuthorities Member),
      data = .present d ∧ call = .resetMembers c t ∧
      decodeAuthMembers cfg cfg.councilMaxMembers d.councilAuthorities = .ok c ∧
      decodeAuthMembers cfg cfg.technicalCommitteeMaxMembers d.technicalCommitteeAuthorities = .ok t ∧
      c.data ≠ [] ∧ t.data ≠ [] ∧ (c.data.map Prod.fst).Nodup ∧ (t.data.map Prod.fst).Nodup := by
  cases data with
  | absent => cases h
  | garbled => cases h
  | present d =>
    unfold createInherent at h
    simp only [InherentData.getData, Option.bind_eq_bind, Option.bind_some] at h
    cases hc : decodeAuthMembers cfg cfg.councilMaxMembers d.councilAuthorities with
    | error e => rw [hc] at h; cases h
    | ok c =>
      cases ht : decodeAuthMembers cfg cfg.technicalCommitteeMaxMembers
          d.technicalCommitteeAuthorities with
      | error e => rw [hc, ht] at h; cases h
      | ok t =>
        rw [hc, ht] at h
        simp only [Except.toOption, Option.bind_some, Bool.and_eq_true,
          Bool.not_eq_true', Bool.or_eq_false_iff, List.isEmpty_eq_false_iff,
          hasDuplicatedMembers_eq_false, Option.ite_none_right_eq_some, Option.some.injEq] at h
        obtain ⟨⟨⟨hcne, htne⟩, hcnd, htnd⟩, rfl⟩ := h
        exact ⟨d, c, t, rfl, rfl, hc, ht, hcne, htne, hcnd, htnd⟩

end

theorem checkInherent_createInherent {cfg : Config AccountId} {call : Call cfg Member}
    (h : createInherent cfg data = some call) : checkInherent cfg call data = .ok () := by
  obtain ⟨d, c, t, rfl, rfl, hc, ht, -⟩ := createInherent_eq_some h
  unfold checkInherent
  simp [InherentData.getData, hc, ht, bind, Except.bind, pure, Except.pure]

/-! ## The lists belong together -/

instance isTrans_account : IsTrans (AccountId × Member) fun a b => a.1 ≤ b.1 :=
  ⟨fun _ _ _ => le_trans⟩

instance total_account : Std.Total fun a b : AccountId × Member => a.1 ≤ b.1 :=
  ⟨fun a b => le_total a.1 b.1⟩

/-- The state of a body with the given members. -/
def sortedBody (pairs : List (AccountId × Member)) : BodyState AccountId Member :=
  ⟨(sortByAccount pairs).map Prod.fst, (sortByAccount pairs).map Prod.snd⟩

section

omit [DecidableEq Member]

variable {pairs : List (AccountId × Member)}

theorem sortByAccount_perm : (sortByAccount pairs).Perm pairs := List.perm_insertionSort _ _

theorem sortedBody_members_sorted : (sortedBody pairs).members.Pairwise (· ≤ ·) :=
  List.pairwise_map.mpr (List.pairwise_insertionSort _ pairs)

theorem sortedBody_members_perm : (sortedBody pairs).members.Perm (pairs.map Prod.fst) :=
  sortByAccount_perm.map Prod.fst

theorem sortedBody_members_strict :
    (sortedBody pairs).members.Pairwise (· < ·) ↔ (pairs.map Prod.fst).Nodup := by
  rw [← sortedBody_members_perm.nodup_iff]
  constructor
  · intro h
    exact h.imp ne_of_lt
  · intro h
    exact (sortedBody_members_sorted.and h).imp fun hab => lt_of_le_of_ne hab.1 hab.2

theorem sortedBody_zip :
    (sortedBody pairs).members.zip (sortedBody pairs).mainchainMembers = sortByAccount pairs := by
  rw [sortedBody, ← List.unzip_fst, ← List.unzip_snd, List.zip_unzip]

theorem sortByAccount_eq_nil : sortByAccount pairs = [] ↔ pairs = [] := by
  rw [← List.length_eq_zero_iff, sortByAccount_perm.length_eq, List.length_eq_zero_iff]

theorem unzip_sortByAccount (pairs : List (AccountId × Member)) : (sortByAccount pairs).unzip =
    ((sortedBody pairs).members, (sortedBody pairs).mainchainMembers) :=
  List.unzip_eq_map

theorem sortedBody_members_isEmpty : (sortedBody pairs).members.isEmpty = true ↔ pairs = [] := by
  rw [List.isEmpty_iff, sortedBody, List.map_eq_nil_iff, sortByAccount_eq_nil]

theorem sortedBody_mainchainMembers_isEmpty :
    (sortedBody pairs).mainchainMembers.isEmpty = true ↔ pairs = [] := by
  rw [List.isEmpty_iff, sortedBody, List.map_eq_nil_iff, sortByAccount_eq_nil]

theorem changeMembersSorted_of_sorted {current : List AccountId} (hsorted : members.Pairwise (· ≤ ·))
    (hlen : members.length ≤ maxMembers) : changeMembersSorted maxMembers members current = members := by
  rw [changeMembersSorted, if_pos hlen, hsorted.insertionSort_eq]

end

theorem resetBody_fst {b : BodyState AccountId Member} (hlen : pairs.length ≤ maxMembers) :
    (resetBody body maxMembers (sortedBody pairs).members (sortedBody pairs).mainchainMembers b).1 =
      sortedBody pairs := by
  have hlen' : (sortedBody pairs).members.length ≤ maxMembers := by
    rw [sortedBody_members_perm.length_eq, List.length_map]
    exact hlen
  obtain ⟨members, mainchainMembers⟩ := b
  have hset : changeMembersSorted maxMembers (sortedBody pairs).members members =
      (sortedBody pairs).members := changeMembersSorted_of_sorted sortedBody_members_sorted hlen'
  unfold resetBody
  rw [hset]
  by_cases hm : members = (sortedBody pairs).members <;>
    by_cases hmc : mainchainMembers = (sortedBody pairs).mainchainMembers <;> simp [hm, hmc]

theorem resetMembers_first {s : State AccountId Member} (hfirst : s.inherentExecutedThisBlock = false) :
    ∃ s', resetMembers cfg .none c t s = .ok s' ∧ s'.inherentExecutedThisBlock = true ∧
      s'.council = (if c.data = [] ∨ t.data = [] then s.council else sortedBody c.data) ∧
      s'.technicalCommittee =
        if c.data = [] ∨ t.data = [] then s.technicalCommittee else sortedBody t.data := by
  unfold resetMembers
  simp only [hfirst, unzip_sortByAccount, sortedBody_members_isEmpty, sortedBody_mainchainMembers_isEmpty, ne_eq,
    not_true, if_false]
  by_cases hc : c.data = []
  · simp [hc]
  · by_cases ht : t.data = []
    · simp [hc, ht]
    · simp [hc, ht, resetBody_fst c.length_le, resetBody_fst t.length_le]

namespace Block

variable {cfg : Config AccountId} {s : State AccountId Member}

theorem tryReset_of_executed (hexecuted : s.inherentExecutedThisBlock = true)
    (call : cfg.CouncilAuthorities Member × cfg.TechnicalCommitteeAuthorities Member) :
    tryReset s call = s := by
  unfold tryReset resetMembers
  simp [hexecuted]

theorem foldl_tryReset_of_executed (hexecuted : s.inherentExecutedThisBlock = true)
    (calls : List (cfg.CouncilAuthorities Member × cfg.TechnicalCommitteeAuthorities Member)) :
    calls.foldl tryReset s = s := by
  induction calls with
  | nil => rfl
  | cons call calls ih => rw [List.foldl_cons, tryReset_of_executed hexecuted, ih]

/-- A block brings the members it observed, or leaves the bodies as they are. -/
theorem importBlock_body (hfirst : s.inherentExecutedThisBlock = false) (block : Block cfg Member)
    (body : Body) :
    (importBlock s block).inherentExecutedThisBlock = false ∧
      (importBlock s block).body body = ((block.observed body).map sortedBody).getD (s.body body) := by
  unfold importBlock observed
  split
  case isFalse => exact ⟨hfirst, rfl⟩
  case isTrue =>
    refine ⟨rfl, ?_⟩
    cases hcalls : block.calls with
    | nil => cases body <;> rfl
    | cons call calls =>
      obtain ⟨c, t⟩ := call
      obtain ⟨s', hok, hexecuted, hcouncil, htechnical⟩ := resetMembers_first hfirst
      have htry : tryReset s (c, t) = s' := by rw [tryReset, hok]
      rw [List.foldl_cons, htry, foldl_tryReset_of_executed hexecuted, List.head?_cons]
      dsimp only
      split
      case isTrue hempty =>
        rw [if_pos hempty] at hcouncil htechnical
        cases body
        · exact hcouncil
        · exact htechnical
      case isFalse hnonempty =>
        rw [if_neg hnonempty] at hcouncil htechnical
        cases body
        · exact hcouncil
        · exact htechnical

theorem lastObserved_cons (block : Block cfg Member) (blocks : List (Block cfg Member)) (body : Body) :
    lastObserved body (block :: blocks) =
      (lastObserved body blocks).or (block.observed body) := by
  unfold lastObserved
  rw [List.filterMap_cons]
  cases block.observed body with
  | none => exact (Option.or_none).symm
  | some pairs => rw [List.getLast?_cons, ← Option.or_some]

theorem run_body (hfirst : s.inherentExecutedThisBlock = false) (blocks : List (Block cfg Member))
    (body : Body) :
    (run s blocks).body body = ((lastObserved body blocks).map sortedBody).getD (s.body body) := by
  induction blocks generalizing s with
  | nil => rfl
  | cons block blocks ih =>
    obtain ⟨hfinal, hbody⟩ := importBlock_body hfirst block body
    have hrun : run s (block :: blocks) = run (importBlock s block) blocks := rfl
    rw [hrun, ih hfinal, hbody, lastObserved_cons]
    cases lastObserved body blocks <;> rfl

/-- The block of an author that observes the data. -/
def author (cfg : Config AccountId) (data : InherentData Member) : Block cfg Member :=
  match createInherent cfg data with
  | some (.resetMembers council technicalCommittee) => ⟨data, [(council, technicalCommittee)]⟩
  | _ => ⟨data, []⟩

theorem accepted_author (data : InherentData Member) : (author cfg data).accepted = true := by
  unfold author
  split
  case h_1 c t h =>
    rw [accepted, List.all_cons]
    dsimp only
    rw [checkInherent_createInherent h]
    rfl
  case h_2 => rfl

theorem nodup_of_observed_author {data : InherentData Member}
    (h : (author cfg data).observed body = some pairs) : (pairs.map Prod.fst).Nodup := by
  rw [observed, if_pos (accepted_author data)] at h
  cases hcreate : createInherent cfg data with
  | none =>
    rw [author, hcreate] at h
    cases h
  | some call =>
    obtain ⟨d, c, t, -, rfl, -, -, hc, ht, hcnd, htnd⟩ := createInherent_eq_some hcreate
    rw [author, hcreate, List.head?_cons] at h
    dsimp only at h
    rw [if_neg (not_or.mpr ⟨hc, ht⟩)] at h
    cases body with
    | council => cases h; exact hcnd
    | technicalCommittee => cases h; exact htnd

/-- As long as all authors create their inherents from what they observe, no account appears twice in
a body. -/
theorem run_author_members_strict (hcouncil : council.members.Pairwise (· < ·))
    (htechnical : technicalCommittee.members.Pairwise (· < ·))
    (observations : List (InherentData Member)) (body : Body) :
    ((run (State.genesis council technicalCommittee) (observations.map (author cfg))).body
      body).members.Pairwise (· < ·) := by
  rw [run_body rfl]
  cases hlast : lastObserved body (observations.map (author cfg)) with
  | none =>
    cases body
    · exact hcouncil
    · exact htechnical
  | some pairs =>
    obtain ⟨block, hblock, hobserved⟩ := List.mem_filterMap.mp (List.mem_of_getLast? hlast)
    obtain ⟨data, -, rfl⟩ := List.mem_map.mp hblock
    exact sortedBody_members_strict.mpr (nodup_of_observed_author hobserved)

end Block

/-! ## The members of the bodies -/

/-- The members that were observed last are the members of the body: sorted by account, without
repetitions exactly if the accounts that were observed are distinct, and at the positions of their
identities. -/
theorem observed_members_sorted {cfg : Config AccountId}
    (council technicalCommittee : BodyState AccountId Member) (blocks : List (Block cfg Member))
    (body : Body) (pairs : List (AccountId × Member))
    (hlast : Block.lastObserved body blocks = some pairs) :
    let b := (Block.run (State.genesis council technicalCommittee) blocks).body body
    b.members.Pairwise (· ≤ ·) ∧
      (b.members.Pairwise (· < ·) ↔ (pairs.map Prod.fst).Nodup) ∧
      b.members.length = b.mainchainMembers.length ∧
      (b.members.zip b.mainchainMembers).Perm pairs := by
  intro b
  have hb : b = sortedBody pairs := by
    dsimp only [b]
    rw [Block.run_body rfl, hlast]
    rfl
  rw [hb]
  refine ⟨sortedBody_members_sorted, sortedBody_members_strict, ?_, ?_⟩
  · rw [sortedBody, List.length_map, List.length_map]
  · rw [sortedBody_zip]
    exact sortByAccount_perm

end

/-- Accounts are one byte long. -/
def sampleConfig : Config Nat where
  decode
    | [b] => some b.toNat
    | _ => none
  councilMaxMembers := 3
  technicalCommitteeMaxMembers := 3

/-- A block with the inherent for the data. -/
def sampleBlock (council technicalCommittee : List (UInt8 × Nat))
    (hcouncil : council.length ≤ 3) (htechnical : technicalCommittee.length ≤ 3) :
    Block sampleConfig Nat where
  data := .present ⟨council.map fun p => ([p.1], p.2), technicalCommittee.map fun p => ([p.1], p.2)⟩
  calls := [(⟨council.map fun p => (p.1.toNat, p.2), by rwa [List.length_map]⟩,
    ⟨technicalCommittee.map fun p => (p.1.toNat, p.2), by rwa [List.length_map]⟩)]

theorem run_author_members_strict_repeated_account :
    let data : List (InherentData Nat) := [.present ⟨[([7], 70), ([2], 20)], [([5], 50)]⟩,
      .present ⟨[([2], 20), ([2], 21)], [([5], 50)]⟩]
    ((Block.run (State.genesis ⟨[3], [30]⟩ ⟨[], []⟩) (data.map (Block.author sampleConfig))).body
      .council).members.Pairwise (· < ·) :=
  Block.run_author_members_strict (by decide) (by decide) _ .council

theorem observed_members_sorted_two_blocks :
    let blocks := [sampleBlock [(7, 70), (2, 20)] [(5, 50)] (by decide) (by decide),
      sampleBlock [(9, 90), (4, 40), (6, 60)] [(5, 50)] (by decide) (by decide)]
    let b := (Block.run (State.genesis ⟨[], []⟩ ⟨[], []⟩) blocks).body .council
    Block.lastObserved .council blocks = some [(9, 90), (4, 40), (6, 60)] ∧
      b.members.Pairwise (· < ·) ∧ (b.members.zip b.mainchainMembers).Perm [(9, 90), (4, 40), (6, 60)] :=
  have hlast : Block.lastObserved .council
      [sampleBlock [(7, 70), (2, 20)] [(5, 50)] (by decide) (by decide),
        sampleBlock [(9, 90), (4, 40), (6, 60)] [(5, 50)] (by decide) (by decide)] =
      some [(9, 90), (4, 40), (6, 60)] := by decide +kernel
  have h := observed_members_sorted ⟨[], []⟩ ⟨[], []⟩ _ .council _ hlast
  ⟨hlast, h.2.1.mpr (by decide), h.2.2.2⟩

/-- Two identities with one account: the block is accepted, and the account is twice in the council. -/
theorem duplicated_account_accepted :
    let block := sampleBlock [(2, 20), (2, 21)] [(5, 50)] (by decide) (by decide)
    let b := (Block.run (State.genesis ⟨[], []⟩ ⟨[], []⟩) [block]).body .council
    block.accepted = true ∧ b = ⟨[2, 2], [20, 21]⟩ ∧ ¬ b.members.Pairwise (· < ·) := by
  decide +kernel

end MidnightNode.FederatedAuthorityObservation
