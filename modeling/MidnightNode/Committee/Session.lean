import MidnightNode.Committee.Pipeline

/-!
# Committees and session keys

The session manager of the committee pallet on top of `pallet_session`: a rotation registers the keys of the
new committee's members, queues the keys that are then registered for their accounts, and applies the keys
that were queued by the rotation before.

`pallet_session` is modelled by what is known of it: `setKeys` fails if another account owns one of the
keys, and an account without keys is dropped from the queue. A key keeps its owner when the owner leaves the
committee, so the same keys under a new account are not registered.
-/

namespace MidnightNode.Committee

structure SessionMember (Account KeyType Key : Type) where
  account : Account
  keys : KeyType → Key

structure KeyRegistry (Account KeyType Key : Type) where
  nextKeys : Account → Option (KeyType → Key)
  keyOwner : KeyType → Key → Option Account

variable {Account KeyType Key : Type} [DecidableEq Account] [DecidableEq Key] [Fintype KeyType]

namespace KeyRegistry

def empty : KeyRegistry Account KeyType Key := ⟨fun _ => none, fun _ _ => none⟩

/-- `set_keys`: every key is free or the account's own; keys that the account had before become free. -/
def setKeys (who : Account) (keys : KeyType → Key) (r : KeyRegistry Account KeyType Key) :
    Option (KeyRegistry Account KeyType Key) :=
  if ∀ t, r.keyOwner t (keys t) = none ∨ r.keyOwner t (keys t) = some who then
    some
      { nextKeys := Function.update r.nextKeys who (some keys)
        keyOwner := fun t key =>
          if key = keys t then some who
          else if (r.nextKeys who).map (· t) = some key then none
          else r.keyOwner t key }
  else none

/-- The accounts with their keys; those without are dropped. -/
def loadKeys (r : KeyRegistry Account KeyType Key) (accounts : List Account) :
    List (Account × (KeyType → Key)) :=
  accounts.filterMap fun a => (r.nextKeys a).map fun keys => (a, keys)

end KeyRegistry

/-- The loop of `register_committee_keys`, with the accounts of `keys_added`. A failed call is logged. -/
def registerLoop : List Account → List (SessionMember Account KeyType Key) →
    KeyRegistry Account KeyType Key → KeyRegistry Account KeyType Key
  | _, [], r => r
  | keysAdded, m :: committee, r =>
    if m.account ∈ keysAdded then registerLoop keysAdded committee r
    else registerLoop (m.account :: keysAdded) committee ((r.setKeys m.account m.keys).getD r)

def registerCommitteeKeys (committee : List (SessionMember Account KeyType Key))
    (r : KeyRegistry Account KeyType Key) : KeyRegistry Account KeyType Key :=
  registerLoop [] committee r

/-- Every call of `set_keys` in the loop succeeds, and a member whose account came before has the same
keys as then. -/
def registrableLoop : List Account → List (SessionMember Account KeyType Key) →
    KeyRegistry Account KeyType Key → Bool
  | _, [], _ => true
  | keysAdded, m :: committee, r =>
    if m.account ∈ keysAdded then
      decide (r.nextKeys m.account = some m.keys) && registrableLoop keysAdded committee r
    else
      match r.setKeys m.account m.keys with
      | some r => registrableLoop (m.account :: keysAdded) committee r
      | none => false

/-- A committee, and the registry before its keys were registered. -/
structure Registration (Account KeyType Key : Type) where
  registry : KeyRegistry Account KeyType Key
  committee : List (SessionMember Account KeyType Key)

/-- The keys that a rotation queues for a committee. -/
def Registration.queuedKeys (g : Registration Account KeyType Key) : List (Account × (KeyType → Key)) :=
  (registerCommitteeKeys g.committee g.registry).loadKeys (g.committee.map (·.account))

def Registration.registrable (g : Registration Account KeyType Key) : Bool :=
  registrableLoop [] g.committee g.registry

/-- The session pallet, with the registrations of the applied and of the queued committee. -/
structure Session (Account KeyType Key : Type) where
  registry : KeyRegistry Account KeyType Key
  authorities : List (Account × (KeyType → Key))
  queuedKeys : List (Account × (KeyType → Key))
  applied : Registration Account KeyType Key
  queued : Registration Account KeyType Key

/-- The genesis of the session pallet: `new_session_genesis` gives the current committee for both of the
first two sessions. -/
def Session.genesis (committee : List (SessionMember Account KeyType Key)) :
    Session Account KeyType Key :=
  let registration := ⟨.empty, committee⟩
  ⟨registerCommitteeKeys committee .empty, registration.queuedKeys, registration.queuedKeys, registration,
    registration⟩

/-- `rotate_session` with the result of `new_session`; without one the validators stay. -/
def Session.rotateSession (rotated : Option (List (SessionMember Account KeyType Key)))
    (s : Session Account KeyType Key) : Session Account KeyType Key :=
  match rotated with
  | some newCommittee =>
    let registry := registerCommitteeKeys newCommittee s.registry
    { registry
      authorities := s.queuedKeys
      queuedKeys := registry.loadKeys (newCommittee.map (·.account))
      applied := s.queued
      queued := ⟨s.registry, newCommittee⟩ }
  | none =>
    { s with
      authorities := s.queuedKeys
      queuedKeys := s.registry.loadKeys (s.queuedKeys.map Prod.fst)
      applied := s.queued }

/-! ## Blocks -/

structure SessionState (Account KeyType Key : Type) where
  pipeline : State (SessionMember Account KeyType Key)
  session : Session Account KeyType Key

namespace SessionState

def genesis (maxValidators : Nat) (initialAuthorities : List (SessionMember Account KeyType Key)) :
    SessionState Account KeyType Key :=
  ⟨.genesis maxValidators initialAuthorities, .genesis (initialAuthorities.take maxValidators)⟩

def initializeBlock (epoch : Nat) (st : SessionState Account KeyType Key) :
    SessionState Account KeyType Key :=
  let storage := st.pipeline.storage.onInitialize (st.pipeline.blockNumber + 1) epoch
  { pipeline := st.pipeline.initializeBlock epoch
    session :=
      if storage.shouldEndSession epoch then
        st.session.rotateSession storage.rotateCommitteeToNextEpoch.1
      else st.session }

def applyBlock (st : SessionState Account KeyType Key) (b : Block (SessionMember Account KeyType Key)) :
    SessionState Account KeyType Key :=
  let st := st.initializeBlock b.epoch
  { st with pipeline := b.calls.foldl State.dispatch st.pipeline }

def run (st : SessionState Account KeyType Key)
    (blocks : List (Block (SessionMember Account KeyType Key))) : SessionState Account KeyType Key :=
  blocks.foldl applyBlock st

/-- The applied authorities are the members of the current committee, with their keys. -/
def Mirrors (st : SessionState Account KeyType Key) : Prop :=
  st.session.authorities =
    st.pipeline.storage.currentCommittee.committee.map fun m => (m.account, m.keys)

end SessionState

/-! ## Registration -/

namespace KeyRegistry

/-- An account owns the keys that are registered for it. -/
def WF (r : KeyRegistry Account KeyType Key) : Prop :=
  ∀ a keys, r.nextKeys a = some keys → ∀ t, r.keyOwner t (keys t) = some a

variable {r r' : KeyRegistry Account KeyType Key} {who a : Account} {keys : KeyType → Key}

omit [DecidableEq Account] [DecidableEq Key] [Fintype KeyType] in
theorem wf_empty : (empty : KeyRegistry Account KeyType Key).WF := fun _ _ h => nomatch h

theorem setKeys_some (h : r.setKeys who keys = some r') :
    (∀ t, r.keyOwner t (keys t) = none ∨ r.keyOwner t (keys t) = some who) ∧
      r' =
        { nextKeys := Function.update r.nextKeys who (some keys)
          keyOwner := fun t key =>
            if key = keys t then some who
            else if (r.nextKeys who).map (· t) = some key then none
            else r.keyOwner t key } := by
  unfold setKeys at h
  split at h
  case isTrue hfree => exact ⟨hfree, (Option.some.inj h).symm⟩
  case isFalse => cases h

theorem setKeys_nextKeys_self (h : r.setKeys who keys = some r') : r'.nextKeys who = some keys := by
  obtain ⟨-, rfl⟩ := setKeys_some h
  exact Function.update_self _ _ _

theorem setKeys_nextKeys_of_ne (h : r.setKeys who keys = some r') (ha : a ≠ who) :
    r'.nextKeys a = r.nextKeys a := by
  obtain ⟨-, rfl⟩ := setKeys_some h
  exact Function.update_of_ne ha _ _

theorem WF.ne_of_setKeys_none (hwf : r.WF) (h : r.setKeys who keys = none) :
    r.nextKeys who ≠ some keys := by
  intro hkeys
  unfold setKeys at h
  rw [if_pos fun t => .inr (hwf who keys hkeys t)] at h
  cases h

theorem WF.setKeys (hwf : r.WF) (h : r.setKeys who keys = some r') : r'.WF := by
  intro a ks ha t
  by_cases haw : a = who
  · rw [haw, setKeys_nextKeys_self h] at ha
    cases ha
    obtain ⟨-, rfl⟩ := setKeys_some h
    simp [haw]
  · rw [setKeys_nextKeys_of_ne h haw] at ha
    obtain ⟨hfree, rfl⟩ := setKeys_some h
    have howner := hwf a ks ha t
    -- the key is neither one of the new ones nor one that becomes free
    have hnew : ks t ≠ keys t := by
      intro heq
      rw [heq] at howner
      rcases hfree t with h | h
      · simp [h] at howner
      · rw [h] at howner
        exact haw (Option.some.inj howner).symm
    have hold : (r.nextKeys who).map (· t) ≠ some (ks t) := by
      intro heq
      obtain ⟨old, hold, hkey⟩ := Option.map_eq_some_iff.mp heq
      have howner' := hwf who old hold t
      rw [hkey, howner] at howner'
      exact haw (Option.some.inj howner')
    simp [hnew, hold, howner]

end KeyRegistry

section

variable {r : KeyRegistry Account KeyType Key} {committee : List (SessionMember Account KeyType Key)}
  {keysAdded : List Account} {a : Account}

theorem registerLoop_nextKeys (ha : a ∈ keysAdded) :
    (registerLoop keysAdded committee r).nextKeys a = r.nextKeys a := by
  induction committee generalizing keysAdded r with
  | nil => rfl
  | cons m committee ih =>
    unfold registerLoop
    split
    case isTrue => exact ih ha
    case isFalse hm =>
      rw [ih (List.mem_cons_of_mem _ ha)]
      have hne : a ≠ m.account := fun h => hm (h ▸ ha)
      cases hset : r.setKeys m.account m.keys with
      | none => rfl
      | some r' => exact KeyRegistry.setKeys_nextKeys_of_ne hset hne

theorem registerLoop_wf (hwf : r.WF) : (registerLoop keysAdded committee r).WF := by
  induction committee generalizing keysAdded r with
  | nil => exact hwf
  | cons m committee ih =>
    unfold registerLoop
    split
    case isTrue => exact ih hwf
    case isFalse =>
      refine ih ?_
      cases hset : r.setKeys m.account m.keys with
      | none => exact hwf
      | some r' => exact hwf.setKeys hset

/-- The registration of a committee works exactly when every member has its keys afterwards. -/
theorem registrableLoop_iff (hwf : r.WF) :
    registrableLoop keysAdded committee r = true ↔
      ∀ m ∈ committee, (registerLoop keysAdded committee r).nextKeys m.account = some m.keys := by
  induction committee generalizing keysAdded r with
  | nil => simp [registrableLoop]
  | cons m committee ih =>
    rw [List.forall_mem_cons]
    unfold registrableLoop registerLoop
    by_cases hm : m.account ∈ keysAdded
    · rw [if_pos hm, if_pos hm, Bool.and_eq_true, decide_eq_true_iff, ih hwf, registerLoop_nextKeys hm]
    · rw [if_neg hm, if_neg hm]
      cases hset : r.setKeys m.account m.keys with
      | some r' =>
        rw [Option.getD_some, registerLoop_nextKeys List.mem_cons_self, ih (hwf.setKeys hset),
          KeyRegistry.setKeys_nextKeys_self hset]
        simp
      | none =>
        rw [Option.getD_none, registerLoop_nextKeys List.mem_cons_self]
        exact iff_of_false Bool.false_ne_true fun h => hwf.ne_of_setKeys_none hset h.1

theorem Registration.queuedKeys_eq_iff {g : Registration Account KeyType Key} (hwf : g.registry.WF) :
    g.queuedKeys = g.committee.map (fun m => (m.account, m.keys)) ↔ g.registrable = true := by
  rw [registrable, registrableLoop_iff hwf, queuedKeys, KeyRegistry.loadKeys, List.filterMap_map,
    List.filterMap_eq_map_iff_forall_eq_some]
  refine forall₂_congr fun m _ => ?_
  simp only [Function.comp_apply, Option.map_eq_some_iff, Prod.mk.injEq, true_and, exists_eq_right]
  rfl

end

/-! ## Runs -/

namespace SessionState

structure Inv (st : SessionState Account KeyType Key) : Prop where
  registry_wf : st.session.registry.WF
  applied_wf : st.session.applied.registry.WF
  queued_wf : st.session.queued.registry.WF
  authorities_eq : st.session.authorities = st.session.applied.queuedKeys
  queuedKeys_eq : st.session.queuedKeys = st.session.queued.queuedKeys
  current_eq : st.pipeline.storage.currentCommittee.committee = st.session.applied.committee
  queued_eq : st.pipeline.storage.queuedCommittee.committee = st.session.queued.committee

variable {st : SessionState Account KeyType Key}

theorem inv_genesis (maxValidators : Nat)
    (initialAuthorities : List (SessionMember Account KeyType Key)) :
    (genesis maxValidators initialAuthorities).Inv :=
  ⟨registerLoop_wf KeyRegistry.wf_empty, KeyRegistry.wf_empty, KeyRegistry.wf_empty, rfl, rfl, rfl, rfl⟩

/-- A rotation applies what was queued and queues the next committee, whose registration it makes. -/
theorem Inv.initializeBlock (h : st.Inv) (epoch : Nat) : (st.initializeBlock epoch).Inv := by
  unfold SessionState.initializeBlock State.initializeBlock
  dsimp only
  by_cases hend : (st.pipeline.storage.onInitialize (st.pipeline.blockNumber + 1) epoch).shouldEndSession
      epoch = true
  · obtain ⟨-, next, hnext⟩ := Storage.shouldEndSession_iff.mp hend
    simp only [hend, if_true, State.rotateSession, Storage.rotate_of_some hnext, Session.rotateSession]
    refine ⟨registerLoop_wf h.registry_wf, h.queued_wf, h.registry_wf, h.queuedKeys_eq, rfl, ?_, rfl⟩
    exact Storage.onInitialize_queued.trans h.queued_eq
  · simp only [hend]
    exact { h with
      current_eq := Storage.onInitialize_current.trans h.current_eq
      queued_eq := Storage.onInitialize_queued.trans h.queued_eq }

theorem Inv.calls (h : st.Inv) (calls : List (Origin × SetCall (SessionMember Account KeyType Key))) :
    Inv { st with pipeline := calls.foldl State.dispatch st.pipeline } := by
  obtain ⟨pipeline, session⟩ := st
  induction calls generalizing pipeline with
  | nil => exact h
  | cons call calls ih =>
    refine ih (pipeline.dispatch call) ?_
    unfold State.dispatch
    split
    case h_1 s hs =>
      obtain ⟨-, -, -, rfl⟩ := Storage.set_ok hs
      exact { h with }
    case h_2 => exact h

theorem Inv.run (h : st.Inv) (blocks : List (Block (SessionMember Account KeyType Key))) :
    (st.run blocks).Inv := by
  induction blocks generalizing st with
  | nil => exact h
  | cons b blocks ih => exact ih ((h.initializeBlock b.epoch).calls b.calls)

theorem Inv.mirrors_iff (h : st.Inv) : st.Mirrors ↔ st.session.applied.registrable = true := by
  rw [Mirrors, h.authorities_eq, h.current_eq]
  exact Registration.queuedKeys_eq_iff h.applied_wf

end SessionState

/-- After any blocks the applied authorities are the members of the current committee with their keys
exactly when the registration of that committee's keys had worked. -/
theorem authorities_mirror_iff (maxValidators : Nat)
    (initialAuthorities : List (SessionMember Account KeyType Key))
    (blocks : List (Block (SessionMember Account KeyType Key))) :
    let st := (SessionState.genesis maxValidators initialAuthorities).run blocks
    st.pipeline.storage.currentCommittee.committee = st.session.applied.committee ∧
      (st.Mirrors ↔ st.session.applied.registrable = true) := by
  have h := (SessionState.inv_genesis maxValidators initialAuthorities).run blocks
  exact ⟨h.current_eq, h.mirrors_iff⟩

/-- Account 2 takes over the key of account 1. -/
def sampleMember (account : Fin 3) : SessionMember (Fin 3) Unit Nat := ⟨account, fun _ => 7⟩

/-- Blocks of epochs 5, 6 and 7 that store a committee of account 2 and then one of account 1. -/
def sampleTakeover : List (Block (SessionMember (Fin 3) Unit Nat)) :=
  [⟨5, [(.none, ⟨[sampleMember 2], 6, []⟩)]⟩, ⟨6, [(.none, ⟨[sampleMember 1], 7, []⟩)]⟩, ⟨7, []⟩]

/-- The recorded committee has account 2, and nobody has authority. -/
theorem takeover_not_mirrored :
    ((SessionState.genesis 10 [sampleMember 1]).run sampleTakeover).session.authorities = [] ∧
      ((SessionState.genesis 10 [sampleMember 1]).run sampleTakeover
        ).pipeline.storage.currentCommittee = ⟨7, [sampleMember 2]⟩ :=
  ⟨by decide, rfl⟩

end MidnightNode.Committee
