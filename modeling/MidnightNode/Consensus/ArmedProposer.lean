import MidnightNode.Consensus.Engine

/-!
# The proposer of an armed chain

While the change to BABE is armed, a node's proposer appends a BABE pre-digest to the logs of its block. An
honest author has one AURA pre-digest in its logs, for the slot that its inherent data name, and the count of
authorities that the parent's runtime has. The runtime accepts the block in every state of the change.
-/

namespace MidnightNode.Consensus

/-! ## The proposer -/

/-- The answers of the parent's runtime; a failed call has none. Of the authorities only their number is
used. -/
structure ParentApi where
  shouldEmitBabePreruntimeDigest : Option Bool
  authorities : Option UInt32

def babeEmitContext (api : ParentApi) : Option UInt32 :=
  if !api.shouldEmitBabePreruntimeDigest.getD false then none
  else
    match api.authorities with
    | some authoritiesLen => if authoritiesLen ≠ 0 then some authoritiesLen else none
    | none => none

structure ProposeArgs where
  /-- The slot in the inherent data, if it is there and decodes. -/
  auraSlotFromInherents : Option UInt64
  inherentDigests : List DigestItem

section

variable {VrfSignature : Type} (vrf : Codec VrfSignature)

def babeSecondaryPlainDigest (slot : UInt64) (nAuthorities : UInt32) : Except String DigestItem := do
  let authorityIndex ← authorIndex slot nAuthorities
  return .preRuntime babeEngineId ((PreDigest.codec vrf).encode (.secondaryPlain authorityIndex slot))

/-- The logs that the inner proposer is called with. -/
def propose (emitWithAuthorities : Option UInt32) (args : ProposeArgs) : Except String (List DigestItem) :=
  match emitWithAuthorities, args.auraSlotFromInherents with
  | some nAuthorities, some slot => do
    let digest ← babeSecondaryPlainDigest vrf slot nAuthorities
    return args.inherentDigests ++ [digest]
  | _, _ => .ok args.inherentDigests

end

/-! ## Honest authors -/

def auraPreDigest (slot : UInt64) : DigestItem := .preRuntime auraEngineId (Codec.u64.encode slot)

/-- The arguments of an honest author's proposer: items of other engines around one AURA pre-digest for the
slot of the block. -/
structure ProposeArgs.Honest (args : ProposeArgs) (slot : UInt64) : Prop where
  slot_eq : args.auraSlotFromInherents = some slot
  digests : ∃ before after, args.inherentDigests = before ++ auraPreDigest slot :: after ∧
    (∀ log ∈ before, log.Foreign) ∧ ∀ log ∈ after, log.Foreign

/-- The answers of a runtime in a state. -/
def State.api (state : State) (ctx : Context) : ParentApi :=
  ⟨some state.shouldEmitBabePreruntimeDigest, some ctx.authoritiesLen⟩

section

variable {VrfSignature : Type} {vrf : Codec VrfSignature} {n : UInt32} {slot : UInt64}
  {before after logs : List DigestItem}

open DigestItem

theorem asAuraPreDigest_auraPreDigest : (auraPreDigest slot).asAuraPreDigest = some slot := by
  simp [auraPreDigest, asAuraPreDigest, preRuntimeTryTo]

theorem babeSecondaryPlainDigest_ok (slot : UInt64) (hn : n ≠ 0) : ∃ data,
    babeSecondaryPlainDigest vrf slot n = .ok (.preRuntime babeEngineId data) ∧
      BabeItem vrf n slot (.preRuntime babeEngineId data) := by
  let authorityIndex := (slot % n.toUInt64).toUInt32
  refine ⟨(PreDigest.codec vrf).encode (.secondaryPlain authorityIndex slot), ?_,
    babeItem_iff.mpr ⟨authorityIndex, ?_, hn, rfl⟩⟩
  · rw [babeSecondaryPlainDigest, authorIndex, if_neg hn]
    rfl
  · simp [asBabePreDigest, preRuntimeTryTo]

theorem countP_foreign {id : ConsensusEngineId} (hid : id = auraEngineId ∨ id = babeEngineId)
    (h : ∀ log ∈ logs, log.Foreign) : logs.countP (·.isPreRuntimeFor id) = 0 := by
  refine List.countP_eq_zero.mpr ?_
  intro log hlog
  rcases hid with rfl | rfl
  · exact ne_true_of_eq_false (h log hlog).aura
  · exact ne_true_of_eq_false (h log hlog).babe

theorem bridgingDigest_append (hbefore : ∀ log ∈ before, log.Foreign)
    (hafter : ∀ log ∈ after, log.Foreign) (hbabe : BabeItem vrf n slot (.preRuntime babeEngineId data)) :
    BridgingDigest vrf n (before ++ auraPreDigest slot :: after ++ [.preRuntime babeEngineId data]) := by
  refine ⟨?_, ?_, auraPreDigest slot, _, slot, ?_, asAuraPreDigest_auraPreDigest, hbabe⟩
  · simp [List.countP_append, countP_foreign (.inl rfl) hbefore, countP_foreign (.inl rfl) hafter,
      auraPreDigest, babeEngineId_ne]
  · simp [List.countP_append, countP_foreign (.inr rfl) hbefore, countP_foreign (.inr rfl) hafter,
      auraPreDigest, babeEngineId_ne.symm]
  · have haura : [auraPreDigest slot].Sublist (before ++ auraPreDigest slot :: after) :=
      List.singleton_sublist.mpr (by simp)
    exact haura.append (.refl [preRuntime babeEngineId data])

theorem currentSlotFromAuraDigest_append (hbefore : ∀ log ∈ before, log.Foreign) :
    currentSlotFromAuraDigest (before ++ auraPreDigest slot :: after) = some slot := by
  have hnone : before.findSome? asAuraPreDigest = none := by
    refine List.findSome?_eq_none_iff.mpr ?_
    intro log hlog
    exact Option.eq_none_iff_forall_ne_some.mpr fun _ h =>
      nomatch (hbefore log hlog).aura.symm.trans (isPreRuntimeFor_of_tryTo h)
  rw [currentSlotFromAuraDigest, List.findSome?_append, hnone, Option.none_or,
    List.findSome?_cons_of_isSome] <;> simp [asAuraPreDigest_auraPreDigest]

variable {ctx : Context} {s : State} {args : ProposeArgs}

theorem ProposeArgs.Honest.hasPreRuntimeFor_babe (h : args.Honest slot) :
    hasPreRuntimeFor babeEngineId args.inherentDigests = false := by
  obtain ⟨before, after, hdigests, hbefore, hafter⟩ := h.digests
  rw [hdigests, hasPreRuntimeFor, List.any_eq_false]
  intro log hlog
  rcases List.mem_append.mp hlog with hlog | hlog
  · exact ne_true_of_eq_false (hbefore log hlog).babe
  rcases List.mem_cons.mp hlog with rfl | hlog
  · simp [auraPreDigest, babeEngineId_ne.symm]
  · exact ne_true_of_eq_false (hafter log hlog).babe

theorem propose_of_not_emit (h : s.shouldEmitBabePreruntimeDigest = false) :
    propose vrf (babeEmitContext (s.api ctx)) args = .ok args.inherentDigests := by
  simp [propose, babeEmitContext, State.api, h]

theorem propose_of_emit (h : s.shouldEmitBabePreruntimeDigest = true) (hn : ctx.authoritiesLen ≠ 0)
    (hargs : args.Honest slot) : ∃ logs, propose vrf (babeEmitContext (s.api ctx)) args = .ok logs ∧
      BridgingDigest vrf ctx.authoritiesLen logs ∧ currentSlotFromAuraDigest logs = some slot := by
  obtain ⟨hslot, before, after, hdigests, hbefore, hafter⟩ := hargs
  obtain ⟨data, hdigest, hbabe⟩ := babeSecondaryPlainDigest_ok slot hn
  have hemit : babeEmitContext (s.api ctx) = some ctx.authoritiesLen := by
    simp [babeEmitContext, State.api, h, hn]
  refine ⟨_, ?_, bridgingDigest_append hbefore hafter hbabe, ?_⟩
  · unfold propose
    simp only [hemit, hslot, hdigest, hdigests]
    rfl
  · rw [List.append_assoc, List.cons_append]
    exact currentSlotFromAuraDigest_append hbefore

/-- In a chain that started on AURA, the block of an honest author passes. The exception is the migration,
which always panics. -/
theorem honest_accepted (hs : Reachable vrf s) (hn : ctx.authoritiesLen ≠ 0) (hargs : args.Honest slot) :
    ∃ logs, propose vrf (babeEmitContext (s.api ctx)) args = .ok logs ∧
      (onInitialize vrf ctx logs s = .ok s ∨
        s = .scheduledFlip ∧ ctx.isLastSlotOfEpoch slot = true ∧ ctx.babeAuthoritiesEmpty = false) := by
  cases s with
  | aura =>
    refine ⟨_, propose_of_not_emit rfl, .inl ?_⟩
    rw [onInitialize, if_neg (ne_true_of_eq_false hargs.hasPreRuntimeFor_babe)]
  | armedBabe =>
    obtain ⟨logs, hpropose, hdigest, -⟩ := propose_of_emit (s := .armedBabe) rfl hn hargs
    refine ⟨logs, hpropose, .inl ?_⟩
    rw [onInitialize, if_pos (hasAuraPreDigestBeforeBabePreDigest_iff.mpr hdigest)]
  | scheduledFlip =>
    obtain ⟨logs, hpropose, hdigest, hslot⟩ := propose_of_emit (s := .scheduledFlip) rfl hn hargs
    refine ⟨logs, hpropose, ?_⟩
    rw [onInitialize, if_pos (hasAuraPreDigestBeforeBabePreDigest_iff.mpr hdigest), hslot]
    cases hlast : ctx.isLastSlotOfEpoch slot <;> cases hempty : ctx.babeAuthoritiesEmpty <;> simp [hlast]
  | babe => exact (hs.ne_babe rfl).elim

end

theorem honest_accepted_armed :
    ∃ logs, propose Codec.u64 (babeEmitContext (State.armedBabe.api ⟨3, true, 10⟩))
        ⟨some 7, [auraPreDigest 7]⟩ = .ok logs ∧
      onInitialize Codec.u64 ⟨3, true, 10⟩ logs .armedBabe = .ok .armedBabe := by
  have hs : Reachable Codec.u64 .armedBabe := .armBabe .genesis (rfl : armBabe true .aura = _)
  have hn : (⟨3, true, 10⟩ : Context).authoritiesLen ≠ 0 := by decide
  have hargs : ProposeArgs.Honest ⟨some 7, [auraPreDigest 7]⟩ 7 := ⟨rfl, [], [], rfl, nofun, nofun⟩
  obtain ⟨logs, hpropose, h⟩ := honest_accepted hs hn hargs
  exact ⟨logs, hpropose, h.resolve_right nofun⟩

/-- **The check of the bridging digest is exact.** It accepts the logs with one AURA and one BABE
pre-runtime item that agree on slot and author; the author found is then the same under both engines; and
what an armed honest author builds is accepted. -/
theorem transition_digest_exact {VrfSignature : Type} (vrf : Codec VrfSignature) (n : UInt32) :
    (∀ logs, hasAuraPreDigestBeforeBabePreDigest vrf n logs = true ↔ BridgingDigest vrf n logs) ∧
    (∀ logs, hasAuraPreDigestBeforeBabePreDigest vrf n logs = true →
      ∀ pallets : EnginePallets vrf n, ∃ author, ∀ state,
        findAuthor pallets (preRuntimeDigests logs) state = some author) ∧
    ∀ slot before after, n ≠ 0 → (∀ log ∈ before, log.Foreign) → (∀ log ∈ after, log.Foreign) →
      ∃ digest, babeSecondaryPlainDigest vrf slot n = .ok digest ∧
        hasAuraPreDigestBeforeBabePreDigest vrf n (before ++ auraPreDigest slot :: after ++ [digest]) =
          true := by
  refine ⟨fun logs => hasAuraPreDigestBeforeBabePreDigest_iff, ?_, ?_⟩
  · intro logs h
    exact (hasAuraPreDigestBeforeBabePreDigest_iff.mp h).findAuthor
  · intro slot before after hn hbefore hafter
    obtain ⟨data, hdigest, hbabe⟩ := babeSecondaryPlainDigest_ok slot hn
    exact ⟨_, hdigest, hasAuraPreDigestBeforeBabePreDigest_iff.mpr
      (bridgingDigest_append hbefore hafter hbabe)⟩

/-- A function of the payload of the first item of an engine. -/
def ofFirstItem {α : Type} (c : Codec α) (id : ConsensusEngineId) (author : α → Option UInt32)
    (digests : List (ConsensusEngineId × List UInt8)) : Option UInt32 :=
  (digests.find? (·.1 == id)).bind fun item => (c.decode item.2).bind (author ·.1)

theorem ofFirstItem_eq {α : Type} {c : Codec α} {id : ConsensusEngineId} {author : α → Option UInt32}
    {a : α} (hfind : digests.find? (·.1 == id) = some (id, data))
    (hdecode : c.decode data = some (a, rest)) : ofFirstItem c id author digests = author a := by
  rw [ofFirstItem, hfind, Option.bind_some, hdecode, Option.bind_some]

def slotAuthor (n : UInt32) (slot : UInt64) : Option UInt32 := (authorIndex slot n).toOption

theorem slotAuthor_eq (h : authorIndex slot n = .ok author) : slotAuthor n slot = some author := by
  rw [slotAuthor, h]
  rfl

def firstItemPallets {VrfSignature : Type} (vrf : Codec VrfSignature) (n : UInt32) :
    EnginePallets vrf n where
  auraFindAuthor := ofFirstItem Codec.u64 auraEngineId (slotAuthor n)
  babeFindAuthor := ofFirstItem (PreDigest.codec vrf) babeEngineId (some ·.authorityIndex)
  aura_eq hfind hdecode hauthor := (ofFirstItem_eq hfind hdecode).trans (slotAuthor_eq hauthor)
  babe_eq hfind hdecode := ofFirstItem_eq hfind hdecode

/-- Slot seven of three authorities, with an item of a third engine. -/
theorem transition_digest_exact_three :
    let beefy : DigestItem := .preRuntime (Bytes.fill 4 0x42) [1, 2]
    ∃ digest author, babeSecondaryPlainDigest Codec.u64 7 3 = .ok digest ∧
      hasAuraPreDigestBeforeBabePreDigest Codec.u64 3 ([] ++ auraPreDigest 7 :: [beefy] ++ [digest]) =
        true ∧
      ∀ state, findAuthor (firstItemPallets Codec.u64 3)
        (preRuntimeDigests ([] ++ auraPreDigest 7 :: [beefy] ++ [digest])) state = some author := by
  intro beefy
  have hbeefy (log : DigestItem) (h : log ∈ [beefy]) : log.Foreign := by
    rw [List.mem_singleton.mp h]
    exact ⟨rfl, rfl⟩
  obtain ⟨-, hauthors, hhonest⟩ := transition_digest_exact Codec.u64 3
  obtain ⟨digest, hdigest, haccepted⟩ := hhonest 7 [] [beefy] (by decide) nofun hbeefy
  obtain ⟨author, hauthor⟩ := hauthors _ haccepted (firstItemPallets Codec.u64 3)
  exact ⟨digest, author, hdigest, haccepted, hauthor⟩

end MidnightNode.Consensus
