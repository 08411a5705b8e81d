import MidnightNode.Lib.SortedSlice
import MidnightNode.Pallet.FederatedAuthorityObservation

/-!
# Resetting the members is insensitive to order

Nodes may observe the members of a body in different orders. `reset_members` sorts them by account, and as
long as the accounts differ there is one sorted list: the bodies, the events and the calls of the membership
handlers are the same. A body that has these members already is left alone.
-/

namespace MidnightNode.FederatedAuthorityObservation

variable {AccountId Member : Type} [LinearOrder AccountId]

/-! ## Calls of the handlers -/

structure HandlerCall (AccountId : Type) where
  body : Body
  newMembers : List AccountId
  oldMembers : List AccountId
deriving DecidableEq

/-- The handler of a body is called when its members have changed. -/
def handlerCall (body : Body) (members : List AccountId) (b : BodyState AccountId Member) :
    List (HandlerCall AccountId) :=
  if b.members ≠ members then [⟨body, members, b.members⟩] else []

/-- The calls that `reset_members` makes, in their order. -/
def handlerCalls (cfg : Config AccountId) (origin : Origin)
    (councilAuthorities : cfg.CouncilAuthorities Member)
    (technicalCommitteeAuthorities : cfg.TechnicalCommitteeAuthorities Member)
    (s : State AccountId Member) : List (HandlerCall AccountId) :=
  if origin ≠ .none then []
  else if s.inherentExecutedThisBlock then []
  else
    let (councilMembers, councilMainchainMembers) := (sortByAccount councilAuthorities.data).unzip
    let (technicalCommitteeMembers, technicalCommitteeMainchainMembers) :=
      (sortByAccount technicalCommitteeAuthorities.data).unzip
    if councilMembers.isEmpty then []
    else if councilMainchainMembers.isEmpty then []
    else if technicalCommitteeMembers.isEmpty then []
    else if technicalCommitteeMainchainMembers.isEmpty then []
    else
      handlerCall .council councilMembers s.council ++
        handlerCall .technicalCommittee technicalCommitteeMembers s.technicalCommittee

/-! ## Order -/

theorem sortByAccount_eq_of_perm {pairs' : List (AccountId × Member)} (h : pairs'.Perm pairs)
    (hnodup : (pairs.map Prod.fst).Nodup) : sortByAccount pairs' = sortByAccount pairs := by
  refine (SortedSlice.insertionSort_eq_of_perm (fun a ha b hb hab hba => ?_) h.symm).symm
  exact List.inj_on_of_nodup_map hnodup ha hb (le_antisymm hab hba)

section

variable {cfg : Config AccountId} {c c' : cfg.CouncilAuthorities Member}
  {t t' : cfg.TechnicalCommitteeAuthorities Member}

theorem handlerCalls_congr (hc : sortByAccount c'.data = sortByAccount c.data)
    (ht : sortByAccount t'.data = sortByAccount t.data) (origin : Origin) (s : State AccountId Member) :
    handlerCalls cfg origin c' t' s = handlerCalls cfg origin c t s := by
  unfold handlerCalls
  rw [hc, ht]

variable [DecidableEq Member]

theorem resetMembers_congr (hc : sortByAccount c'.data = sortByAccount c.data)
    (ht : sortByAccount t'.data = sortByAccount t.data) (origin : Origin) (s : State AccountId Member) :
    resetMembers cfg origin c' t' s = resetMembers cfg origin c t s := by
  unfold resetMembers
  rw [hc, ht]

/-! ## What a call leaves alone -/

/-- The bodies have the members, or one of the lists is empty. -/
def Settled (c : cfg.CouncilAuthorities Member) (t : cfg.TechnicalCommitteeAuthorities Member)
    (s : State AccountId Member) : Prop :=
  (c.data = [] ∨ t.data = []) ∨ s.council = sortedBody c.data ∧ s.technicalCommittee = sortedBody t.data

variable {origin : Origin} {s s' : State AccountId Member}

theorem resetBody_sortedBody (body : Body) (maxMembers : Nat) (pairs : List (AccountId × Member)) :
    resetBody body maxMembers (sortedBody pairs).members (sortedBody pairs).mainchainMembers
      (sortedBody pairs) = (sortedBody pairs, []) := by
  simp [resetBody]

theorem of_resetMembers_ok (h : resetMembers cfg origin c t s = .ok s') :
    origin = .none ∧ s.inherentExecutedThisBlock = false := by
  unfold resetMembers at h
  split at h
  · cases h
  next horigin =>
    split at h
    · cases h
    next hfirst => exact ⟨not_not.mp horigin, Bool.eq_false_iff.mpr hfirst⟩

/-- The handlers are called for the bodies whose members a call changes, with the members of before and after;
a call that fails calls none. -/
theorem handlerCalls_eq :
    (∀ s', resetMembers cfg origin c t s = .ok s' → handlerCalls cfg origin c t s =
      handlerCall .council s'.council.members s.council ++
        handlerCall .technicalCommittee s'.technicalCommittee.members s.technicalCommittee) ∧
    ∀ e, resetMembers cfg origin c t s = .error e → handlerCalls cfg origin c t s = [] := by
  constructor
  · intro s' h
    obtain ⟨rfl, hfirst⟩ := of_resetMembers_ok h
    obtain ⟨s'', hok, -, hcouncil, htechnical⟩ := resetMembers_first hfirst
    cases hok.symm.trans h
    unfold handlerCalls
    simp only [hcouncil, htechnical, hfirst, unzip_sortByAccount, sortedBody_members_isEmpty,
      sortedBody_mainchainMembers_isEmpty, ne_eq, not_true, if_false]
    by_cases hc : c.data = [] <;> by_cases ht : t.data = [] <;> simp [hc, ht, handlerCall]
  · intro e h
    rcases ne_or_eq origin .none with horigin | rfl
    · simp [handlerCalls, horigin]
    cases hfirst : s.inherentExecutedThisBlock with
    | true => simp [handlerCalls, hfirst]
    | false =>
      obtain ⟨s', hok, -⟩ := resetMembers_first hfirst
      cases hok.symm.trans h

theorem Settled.resetMembers (h : Settled c t s) (hfirst : s.inherentExecutedThisBlock = false) :
    FederatedAuthorityObservation.resetMembers cfg .none c t s =
        .ok { s with inherentExecutedThisBlock := true } ∧
      handlerCalls cfg .none c t s = [] := by
  have hok : FederatedAuthorityObservation.resetMembers cfg .none c t s =
      .ok { s with inherentExecutedThisBlock := true } := by
    unfold FederatedAuthorityObservation.resetMembers
    simp only [hfirst, unzip_sortByAccount, sortedBody_members_isEmpty,
      sortedBody_mainchainMembers_isEmpty, ne_eq, not_true, if_false]
    rcases eq_or_ne c.data [] with hc | hc
    · simp [hc]
    rcases eq_or_ne t.data [] with ht | ht
    · simp [hc, ht]
    obtain ⟨hcouncil, htechnical⟩ := h.resolve_left (not_or.mpr ⟨hc, ht⟩)
    simp [hc, ht, hcouncil, htechnical, resetBody_sortedBody]
  refine ⟨hok, ?_⟩
  rw [handlerCalls_eq.1 _ hok]
  simp [handlerCall]

theorem settled_of_resetMembers (h : resetMembers cfg origin c t s = .ok s') :
    Settled c t s' ∧ s'.inherentExecutedThisBlock = true := by
  obtain ⟨rfl, hfirst⟩ := of_resetMembers_ok h
  obtain ⟨s'', hok, hexecuted, hcouncil, htechnical⟩ := resetMembers_first hfirst
  cases hok.symm.trans h
  refine ⟨?_, hexecuted⟩
  rcases Classical.em (c.data = [] ∨ t.data = []) with hempty | hnonempty
  · exact .inl hempty
  · rw [if_neg hnonempty] at hcouncil htechnical
    exact .inr ⟨hcouncil, htechnical⟩

end

/-- **Resetting the members is insensitive to order and idempotent.** Permuted lists with distinct accounts
lead to the same state, the same events and the same calls of the handlers. A second inherent in the block is
refused, and one in the next block, in any order, leaves the bodies and the events as they are. An empty list
leaves both bodies as they are. -/
theorem reset_members_order_insensitive {AccountId Member : Type} [LinearOrder AccountId]
    [DecidableEq Member] {cfg : Config AccountId} {c c' : cfg.CouncilAuthorities Member}
    {t t' : cfg.TechnicalCommitteeAuthorities Member} (hc : (c.data.map Prod.fst).Nodup)
    (ht : (t.data.map Prod.fst).Nodup) (hcperm : c'.data.Perm c.data) (htperm : t'.data.Perm t.data)
    (origin : Origin) (s : State AccountId Member) :
    resetMembers cfg origin c' t' s = resetMembers cfg origin c t s ∧
    handlerCalls cfg origin c' t' s = handlerCalls cfg origin c t s ∧
    (∀ s', resetMembers cfg origin c t s = .ok s' →
      resetMembers cfg .none c' t' s' = .error .inherentAlreadyExecuted ∧
      resetMembers cfg .none c' t' s'.onFinalize =
        .ok { s'.onFinalize with inherentExecutedThisBlock := true } ∧
      handlerCalls cfg .none c' t' s'.onFinalize = []) ∧
    (c.data = [] ∨ t.data = [] → ∀ s', resetMembers cfg origin c t s = .ok s' →
      s' = { s with inherentExecutedThisBlock := true } ∧ handlerCalls cfg origin c t s = []) := by
  have hcsort := sortByAccount_eq_of_perm hcperm hc
  have htsort := sortByAccount_eq_of_perm htperm ht
  refine ⟨resetMembers_congr hcsort htsort origin s, handlerCalls_congr hcsort htsort origin s, ?_, ?_⟩
  · intro s' hs'
    obtain ⟨hsettled, hexecuted⟩ := settled_of_resetMembers hs'
    refine ⟨?_, ?_⟩
    · simp [resetMembers, hexecuted]
    · rw [resetMembers_congr hcsort htsort, handlerCalls_congr hcsort htsort]
      exact Settled.resetMembers hsettled rfl
  · intro hempty s' hs'
    obtain ⟨rfl, hfirst⟩ := of_resetMembers_ok hs'
    obtain ⟨hok, hcalls⟩ := Settled.resetMembers (.inl hempty) hfirst
    exact ⟨Except.ok.inj (hs'.symm.trans hok), hcalls⟩

/-- Both members of the council are new; the second inherent has them the other way round. -/
theorem reset_members_order_insensitive_pair :
    let c : sampleConfig.CouncilAuthorities Nat := ⟨[(2, 20), (7, 70)], by decide⟩
    let c' : sampleConfig.CouncilAuthorities Nat := ⟨[(7, 70), (2, 20)], by decide⟩
    let t : sampleConfig.TechnicalCommitteeAuthorities Nat := ⟨[(5, 50)], by decide⟩
    let s : State Nat Nat := State.genesis ⟨[2], [20]⟩ ⟨[5], [50]⟩
    resetMembers sampleConfig .none c' t s = resetMembers sampleConfig .none c t s ∧
      handlerCalls sampleConfig .none c t s = [⟨.council, [2, 7], [2]⟩] := by
  intro c c' t s
  have hc : c'.data.Perm c.data := .swap _ _ _
  have h := reset_members_order_insensitive (by decide) (by decide) hc (.refl t.data) .none s
  exact ⟨h.1, by decide +kernel⟩

end MidnightNode.FederatedAuthorityObservation
