import MidnightNode.Toolkit.DustSpending

/-!
# Batches of transactions that share wallets

Choosing outputs and marking them as spent are separate accesses to a wallet. Two transactions that choose
from a wallet before either has marked its choice begin with the same output, so the nullifiers of a batch
are distinct exactly when the transactions that are paid use each wallet one after the other.
-/

namespace MidnightNode.Toolkit

open KeyedList

/-! ## A batch -/

structure Batch (Seed : Type) (lib : DustLibrary) (n : Nat) where
  phases : Fin n → PayPhase Seed lib
  wallets : Seed → DustWallet lib

namespace Batch

variable {Seed : Type} {lib : DustLibrary} {n : Nat}

/-- The dust nullifiers of the transactions that are paid. -/
def nullifiers (batch : Batch Seed lib n) : List lib.Nullifier :=
  (List.finRange n).flatMap fun i => (batch.phases i).paid.map fun x => x.2.oldNullifier

/-- The iterations in which transactions are paid. -/
def last (batch : Batch Seed lib n) (i : Fin n) : Option Nat := (batch.phases i).finishedIn

theorem nodup_nullifiers_iff {batch : Batch Seed lib n} : batch.nullifiers.Nodup ↔
    (∀ i, ((batch.phases i).paid.map fun x => x.2.oldNullifier).Nodup) ∧
      ∀ i j, i ≠ j → ∀ x ∈ (batch.phases i).paid, ∀ y ∈ (batch.phases j).paid,
        x.2.oldNullifier ≠ y.2.oldNullifier := by
  rw [nullifiers, List.nodup_flatMap]
  refine and_congr ⟨fun h i => h i (List.mem_finRange i), fun h i _ => h i⟩ ⟨fun h i j hij => ?_, fun h => ?_⟩
  · have hsymm : Std.Symm (Function.onFun List.Disjoint fun i =>
        (batch.phases i).paid.map fun x => x.2.oldNullifier) := ⟨fun _ _ hxy => hxy.symm⟩
    have hdisjoint := h.forall (List.mem_finRange i) (List.mem_finRange j) hij
    exact fun x hx y hy heq => hdisjoint (List.mem_map_of_mem hx) (heq ▸ List.mem_map_of_mem hy)
  · refine (List.nodup_finRange n).imp fun {i j} hij a hi hj => ?_
    obtain ⟨x, hx, rfl⟩ := List.mem_map.mp hi
    obtain ⟨y, hy, heq⟩ := List.mem_map.mp hj
    exact h i j hij x hx y hy heq.symm

variable [DecidableEq Seed]

def start (txs : Fin n → TxInfo Seed lib) (wallets : Seed → DustWallet lib) : Batch Seed lib n :=
  ⟨fun i => .start (txs i) 1 0, wallets⟩

def step (txs : Fin n → TxInfo Seed lib) (batch : Batch Seed lib n) (i : Fin n) : Batch Seed lib n :=
  let moved := (batch.phases i).step (txs i) batch.wallets
  ⟨Function.update batch.phases i moved.1, moved.2⟩

def run (txs : Fin n → TxInfo Seed lib) (batch : Batch Seed lib n) (schedule : List (Fin n)) :
    Batch Seed lib n := schedule.foldl (step txs) batch

/-! ## Steps -/

variable {txs : Fin n → TxInfo Seed lib} {batch : Batch Seed lib n} {i j : Fin n}

theorem step_phases_self : (batch.step txs i).phases i =
    ((batch.phases i).step (txs i) batch.wallets).1 := Function.update_self _ _ _

theorem step_moves (txs : Fin n → TxInfo Seed lib) (batch : Batch Seed lib n) (i : Fin n) :
    PayPhase.Moves (txs i) batch.wallets (batch.phases i) ((batch.step txs i).phases i)
      (batch.step txs i).wallets := by
  rw [step_phases_self]
  exact PayPhase.step_moves _ _ _

theorem step_phases_of_ne (h : j ≠ i) : (batch.step txs i).phases j = batch.phases j :=
  Function.update_of_ne h _ _

end Batch

namespace PayPhase

variable {Seed : Type} [DecidableEq Seed] {lib : DustLibrary} {tx : TxInfo Seed lib}
  {wallets wallets' : Seed → DustWallet lib} {phase phase' : PayPhase Seed lib} {w : Seed}

/-- The phase has chosen from a wallet and not marked the choice yet. -/
def Holds (phase : PayPhase Seed lib) (w : Seed) : Prop := (phase.updatedStates.lookup w).isSome

theorem Moves.secretKey (h : Moves tx wallets phase phase' wallets') (w : Seed) :
    (wallets' w).secretKey = (wallets w).secretKey := by
  cases h with
  | mark hsome =>
    rw [Function.update_apply]
    split
    case isTrue hw =>
      rw [hw]
      rfl
    case isFalse => rfl
  | _ => rfl

theorem Moves.spentUtxos (h : Moves tx wallets phase phase' wallets') (w : Seed) :
    (wallets w).spentUtxos ⊆ (wallets' w).spentUtxos := by
  cases h with
  | mark hsome =>
    rw [Function.update_apply]
    split
    case isTrue hw =>
      rw [hw]
      exact List.subset_append_right _ _
    case isFalse => exact List.Subset.refl _
  | _ => exact List.Subset.refl _

theorem isSome_lookup_take {states : List (Seed × lib.State)} {state : lib.State}
    {newSpends : List (DustSpend lib.Nullifier)} {seed : Seed} :
    ((if newSpends.isEmpty then states else insertKey seed state states).lookup w).isSome ↔
      (w = seed ∧ newSpends ≠ []) ∨ (states.lookup w).isSome := by
  cases newSpends with
  | nil => simp
  | cons s newSpends =>
    rw [if_neg (by simp)]
    by_cases hw : w = seed
    · rw [hw, lookup_insertKey_self]
      simp
    · rw [lookup_insertKey_ne hw]
      simp [hw]

theorem isSome_lookup_filter {states : List (Seed × lib.State)} :
    ((states.filter fun x => x.1 ≠ seed).lookup w).isSome ↔ w ≠ seed ∧ (states.lookup w).isSome := by
  rw [lookup_filter_key (fun s => decide (s ≠ seed))]
  by_cases hw : w = seed <;> simp [hw]

/-- What is held comes from a funding wallet that has been asked, and will be confirmed. -/
def Pending (tx : TxInfo Seed lib) : PayPhase Seed lib → Prop
  | gathering _ _ seeds _ _ states =>
    ∃ asked, tx.fundingSeeds = asked ++ seeds ∧ ∀ w, (states.lookup w).isSome → w ∈ asked
  | confirming _ seeds _ states =>
    seeds ⊆ tx.fundingSeeds ∧ ∀ w, (states.lookup w).isSome → w ∈ seeds
  | _ => True

theorem Moves.pending (h : Moves tx wallets phase phase' wallets') (hpending : phase.Pending tx) :
    phase'.Pending tx := by
  cases h with
  | stay hdone => exact hpending
  | fail => exact trivial
  | restart => exact ⟨[], rfl, fun _ h => nomatch h⟩
  | ready =>
    obtain ⟨asked, hseeds, hheld⟩ := hpending
    refine ⟨List.Subset.refl _, fun w hw => ?_⟩
    rw [hseeds]
    exact List.mem_append_left _ (hheld w hw)
  | @take k missing seed seeds remaining spends states newSpends state remaining' hpos hspend =>
    obtain ⟨asked, hseeds, hheld⟩ := hpending
    refine ⟨asked ++ [seed], by rw [hseeds, List.append_assoc]; rfl, fun w hw => ?_⟩
    rcases isSome_lookup_take.mp hw with ⟨rfl, -⟩ | hw
    · exact List.mem_append_right _ (List.mem_singleton_self _)
    · exact List.mem_append_left _ (hheld w hw)
  | skip hnone =>
    obtain ⟨hsub, hheld⟩ := hpending
    refine ⟨List.Subset.trans (List.subset_cons_self _ _) hsub, fun w hw => ?_⟩
    rcases List.mem_cons.mp (hheld w hw) with rfl | hmem
    · rw [hnone] at hw
      cases hw
    · exact hmem
  | mark hsome =>
    obtain ⟨hsub, hheld⟩ := hpending
    refine ⟨List.Subset.trans (List.subset_cons_self _ _) hsub, fun w hw => ?_⟩
    obtain ⟨hne, hw⟩ := isSome_lookup_filter.mp hw
    exact (List.mem_cons.mp (hheld w hw)).resolve_left hne
  | finish => exact trivial

theorem Pending.mem_of_holds (h : phase.Pending tx) (hw : phase.Holds w) : w ∈ tx.fundingSeeds := by
  cases phase with
  | gathering k missing seeds remaining spends states =>
    obtain ⟨asked, hseeds, hheld⟩ := h
    rw [hseeds]
    exact List.mem_append_left _ (hheld w hw)
  | confirming k seeds spends states => exact h.1 (h.2 w hw)
  | finished k spends => cases hw
  | failed => cases hw

/-- The spends of a phase are of the keys of their wallets, and marked there unless they are held. -/
structure Recorded (wallets : Seed → DustWallet lib) (phase : PayPhase Seed lib) : Prop where
  own : ∀ x ∈ phase.spends, ∃ key qdo, (wallets x.1).secretKey = some key ∧
    x.2.oldNullifier = lib.nullifier key qdo
  marked : ∀ x ∈ phase.spends, phase.Holds x.1 ∨ x.2.oldNullifier ∈ (wallets x.1).spentUtxos

theorem Recorded.mono (h : phase.Recorded wallets)
    (hkey : ∀ w, (wallets' w).secretKey = (wallets w).secretKey)
    (hspent : ∀ w, (wallets w).spentUtxos ⊆ (wallets' w).spentUtxos) : phase.Recorded wallets' where
  own x hx := by
    rw [hkey]
    exact h.own x hx
  marked x hx := (h.marked x hx).imp_right fun hmem => hspent x.1 hmem

theorem Moves.recorded (h : Moves tx wallets phase phase' wallets') (hpending : phase.Pending tx)
    (hrecorded : phase.Recorded wallets) : phase'.Recorded wallets' := by
  have hmono := hrecorded.mono h.secretKey h.spentUtxos
  cases h with
  | stay hdone => exact hrecorded
  | fail | restart => exact ⟨(fun _ h => nomatch h), fun _ h => nomatch h⟩
  | ready | skip hnone => exact ⟨hrecorded.own, hrecorded.marked⟩
  | @take k missing seed seeds remaining spends states newSpends state remaining' hpos hspend =>
    obtain ⟨key, hkey, hown, -⟩ := DustWallet.speculativeSpend_spec hpos hspend
    refine ⟨fun x hx => ?_, fun x hx => ?_⟩
    · rcases List.mem_append.mp hx with hx | hx
      · exact hrecorded.own x hx
      · obtain ⟨s, hs, rfl⟩ := List.mem_map.mp hx
        obtain ⟨qdo, hqdo⟩ := hown s hs
        exact ⟨key, qdo, hkey, hqdo⟩
    · rcases List.mem_append.mp hx with hx | hx
      · exact (hrecorded.marked x hx).imp_left fun hheld => isSome_lookup_take.mpr (.inr hheld)
      · obtain ⟨s, hs, rfl⟩ := List.mem_map.mp hx
        exact .inl (isSome_lookup_take.mpr (.inl ⟨rfl, List.ne_nil_of_mem hs⟩))
  | @mark k seed seeds spends states state hsome =>
    refine ⟨hmono.own, fun x hx => ?_⟩
    by_cases hseed : x.1 = seed
    · right
      rw [hseed, Function.update_self]
      exact List.mem_append_left _ (List.mem_map_of_mem (List.mem_map_of_mem hx))
    · exact (hmono.marked x hx).imp_left fun hheld => isSome_lookup_filter.mpr ⟨hseed, hheld⟩
  | finish =>
    refine ⟨hrecorded.own, fun x hx => .inr ((hrecorded.marked x hx).resolve_left fun hheld => ?_)⟩
    exact nomatch hpending.2 x.1 hheld

/-! ## The iteration that is paid -/

/-- The spends after a step: none, those before, or new ones after them. -/
theorem Moves.spends_cases (h : Moves tx wallets phase phase' wallets') :
    phase'.spends = [] ∨ phase'.iteration? = phase.iteration? ∧ phase'.spends = phase.spends ∨
      ∃ k missing seed seeds remaining spends states newSpends state,
        phase = gathering k missing (seed :: seeds) remaining spends states ∧ remaining ≠ 0 ∧
          (wallets seed).speculativeSpend remaining = .ok (newSpends, state) ∧
            phase'.iteration? = phase.iteration? ∧
              phase'.spends = phase.spends ++ newSpends.map (seed, ·) := by
  cases h with
  | fail => exact .inl rfl
  | restart => exact .inl rfl
  | take hpos hspend =>
    exact .inr (.inr ⟨_, _, _, _, _, _, _, _, _, rfl, hpos, hspend, rfl, rfl⟩)
  | _ => exact .inr (.inl ⟨rfl, rfl⟩)

theorem Moves.iteration (h : Moves tx wallets phase phase' wallets') :
    phase'.iteration? = phase.iteration? ∧ phase.spends <+: phase'.spends ∨
      phase' = failed ∨ ∃ k missing, phase.iteration? = some k ∧ phase' = start tx (k + 1) missing := by
  cases h with
  | fail => exact .inr (.inl rfl)
  | restart => exact .inr (.inr ⟨_, _, rfl, rfl⟩)
  | take => exact .inl ⟨rfl, List.prefix_append _ _⟩
  | _ => exact .inl ⟨rfl, List.prefix_refl _⟩

def committedIn : PayPhase Seed lib → Option Nat
  | confirming k _ _ _ => some k
  | finished k _ => some k
  | _ => none

/-- The next step chooses outputs of a wallet. -/
inductive Takes (wallets : Seed → DustWallet lib) :
    PayPhase Seed lib → Seed → Prop
  | intro {k missing seed seeds remaining spends states newSpends state} (hpos : remaining ≠ 0)
    (hspend : (wallets seed).speculativeSpend remaining = .ok (newSpends, state))
    (hne : newSpends ≠ []) :
    Takes wallets (gathering k missing (seed :: seeds) remaining spends states) seed

theorem Takes.step (h : phase.Takes wallets w) (tx : TxInfo Seed lib) :
    ∃ newSpends : List (DustSpend lib.Nullifier), ∃ s ∈ newSpends, (wallets w).firstSpent = some s.oldNullifier ∧
      (phase.step tx wallets).1.spends = phase.spends ++ newSpends.map (w, ·) ∧
        (phase.step tx wallets).1.iteration? = phase.iteration? := by
  cases h with
  | @intro k missing _ seeds remaining spends states newSpends state hpos hspend hne =>
    obtain ⟨-, -, -, -, -, hfirst⟩ := DustWallet.speculativeSpend_spec hpos hspend
    obtain ⟨s, hs, hfirst⟩ := hfirst hne
    refine ⟨newSpends, s, hs, hfirst, ?_⟩
    rw [PayPhase.step, gatherDustSpends, if_neg hpos, hspend]
    exact ⟨rfl, rfl⟩

/-- What is held after a step: nothing, what was held before, also what has just been chosen, or all but
what has just been marked. -/
theorem Moves.holds_cases (h : Moves tx wallets phase phase' wallets') :
    (∀ w, ¬ phase'.Holds w) ∧ wallets' = wallets ∨
      phase'.iteration? = phase.iteration? ∧ phase.spends ⊆ phase'.spends ∧
        (wallets' = wallets ∧ ((∀ w, phase'.Holds w → phase.Holds w) ∨
          ∃ seed s, phase.Takes wallets seed ∧ (seed, s) ∈ phase'.spends ∧
            (wallets seed).firstSpent = some s.oldNullifier ∧
              ∀ w, phase'.Holds w → w = seed ∨ phase.Holds w) ∨
        ∃ seed k, phase.committedIn = some k ∧ phase.iteration? = some k ∧ phase.Holds seed ∧
          (∀ w, w ≠ seed → wallets' w = wallets w) ∧ ∀ w, phase'.Holds w → w ≠ seed ∧ phase.Holds w) := by
  cases h with
  | stay hdone | ready | skip hnone => exact .inr ⟨rfl, List.Subset.refl _, .inl ⟨rfl, .inl fun _ hw => hw⟩⟩
  | fail | restart | finish => exact .inl ⟨(fun _ hw => nomatch hw), rfl⟩
  | @take k missing seed seeds remaining spends states newSpends state remaining' hpos hspend =>
    refine .inr ⟨rfl, List.subset_append_left _ _, .inl ⟨rfl, ?_⟩⟩
    by_cases hne : newSpends = []
    · subst hne
      exact .inl fun _ hw => hw
    · obtain ⟨-, -, -, -, -, hfirst⟩ := DustWallet.speculativeSpend_spec hpos hspend
      obtain ⟨s, hs, hfirst⟩ := hfirst hne
      refine .inr ⟨seed, s, .intro hpos hspend hne, ?_, hfirst, fun w hw => ?_⟩
      · exact List.mem_append_right _ (List.mem_map_of_mem hs)
      · exact (isSome_lookup_take.mp hw).imp_left And.left
  | @mark k seed seeds spends states state hsome =>
    refine .inr ⟨rfl, List.Subset.refl _, .inr ⟨seed, k, rfl, rfl,
      Option.isSome_iff_exists.mpr ⟨state, hsome⟩, fun w hw => Function.update_of_ne hw _ _,
      fun w hw => isSome_lookup_filter.mp hw⟩⟩

theorem Moves.committed (h : Moves tx wallets phase phase' wallets')
    (hcommitted : phase.committedIn = some k) : phase'.committedIn = some k := by
  cases h with
  | stay hdone => exact hcommitted
  | skip | mark | finish => exact hcommitted
  | _ => cases hcommitted

end PayPhase

namespace Batch

variable {Seed : Type} [DecidableEq Seed] {lib : DustLibrary} {n : Nat} {txs : Fin n → TxInfo Seed lib}
  {last : Fin n → Option Nat} {batch : Batch Seed lib n} {schedule : List (Fin n)} {i j : Fin n} {k : Nat}

theorem run_cons (txs : Fin n → TxInfo Seed lib) (batch : Batch Seed lib n) (i : Fin n)
    (schedule : List (Fin n)) : batch.run txs (i :: schedule) = (batch.step txs i).run txs schedule := rfl

theorem run_failed (h : batch.phases i = .failed) : (batch.run txs schedule).phases i = .failed := by
  induction schedule generalizing batch with
  | nil => exact h
  | cons j schedule ih =>
    refine ih ?_
    by_cases hij : i = j
    · subst hij
      rw [step_phases_self, h]
      rfl
    · rw [step_phases_of_ne hij, h]

theorem last_failed (h : batch.phases i = .failed) : (batch.run txs schedule).last i = none := by
  rw [last, run_failed h]
  rfl

/-- Iterations only go up, and the spends of the one in which a transaction is paid remain. -/
theorem last_spec (h : (batch.phases i).iteration? = some k)
    (hlast : (batch.run txs schedule).last i = some k') :
    k ≤ k' ∧ (k' = k → (batch.phases i).spends <+: ((batch.run txs schedule).phases i).paid) := by
  induction schedule generalizing batch k with
  | nil =>
    rw [run, List.foldl_nil, last] at hlast
    rw [run, List.foldl_nil]
    cases hphase : batch.phases i with
    | finished k₁ spends =>
      rw [hphase] at h hlast
      cases h
      cases hlast
      exact ⟨le_rfl, fun _ => List.prefix_refl _⟩
    | _ =>
      rw [hphase] at hlast
      cases hlast
  | cons j schedule ih =>
    by_cases hij : i = j
    · subst hij
      rcases (step_moves txs batch i).iteration with ⟨hsame, hpre⟩ | hfailed | ⟨k₁, missing, hk₁, hstart⟩
      · obtain ⟨hle, hpaid⟩ := ih (hsame.trans h) hlast
        exact ⟨hle, fun hk => hpre.trans (hpaid hk)⟩
      · rw [run_cons, last_failed hfailed] at hlast
        cases hlast
      · cases hk₁.symm.trans h
        have hnext : ((batch.step txs i).phases i).iteration? = some (k + 1) := by rw [hstart]; rfl
        obtain ⟨hle, -⟩ := ih hnext hlast
        exact ⟨by omega, fun hk => by omega⟩
    · have hphase : (batch.step txs j).phases i = batch.phases i := step_phases_of_ne hij
      rw [← hphase] at h ⊢
      exact ih h hlast

theorem prefix_paid (h : (batch.phases i).iteration? = some k)
    (hlast : (batch.run txs schedule).last i = some k) :
    (batch.phases i).spends <+: ((batch.run txs schedule).phases i).paid :=
  (last_spec h hlast).2 rfl

theorem run_committed (h : (batch.phases i).committedIn = some k) :
    ((batch.run txs schedule).phases i).committedIn = some k := by
  induction schedule generalizing batch with
  | nil => exact h
  | cons j schedule ih =>
    apply ih
    by_cases hij : i = j
    · subst hij
      exact (step_moves txs batch i).committed h
    · rw [step_phases_of_ne hij]
      exact h

theorem last_of_committed (h : (batch.phases i).committedIn = some k)
    (hdone : ((batch.run txs schedule).phases i).Done) : (batch.run txs schedule).last i = some k := by
  have hcommitted : ((batch.run txs schedule).phases i).committedIn = some k := run_committed h
  rw [last]
  cases hphase : (batch.run txs schedule).phases i with
  | finished k' spends =>
    rw [hphase] at hcommitted
    exact hcommitted
  | failed =>
    rw [hphase] at hcommitted
    cases hcommitted
  | _ =>
    rw [hphase] at hdone
    cases hdone

/-! ## What holds in any interleaving -/

/-- The keys of different wallets have different nullifiers. -/
def KeysDistinct (wallets : Seed → DustWallet lib) : Prop :=
  ∀ ⦃w w' key key'⦄, w ≠ w' → (wallets w).secretKey = some key → (wallets w').secretKey = some key' →
    ∀ qdo qdo', lib.nullifier key qdo ≠ lib.nullifier key' qdo'

structure Inv (txs : Fin n → TxInfo Seed lib) (batch : Batch Seed lib n) : Prop where
  keys : KeysDistinct batch.wallets
  pending : ∀ i, (batch.phases i).Pending (txs i)
  recorded : ∀ i, (batch.phases i).Recorded batch.wallets

theorem inv_start {wallets : Seed → DustWallet lib} (h : KeysDistinct wallets) :
    (start txs wallets).Inv txs where
  keys := h
  pending _ := ⟨[], rfl, fun _ h => nomatch h⟩
  recorded _ := ⟨(fun _ h => nomatch h), fun _ h => nomatch h⟩

theorem Inv.step (h : batch.Inv txs) (i : Fin n) : (batch.step txs i).Inv txs := by
  have hmoves := step_moves txs batch i
  refine ⟨fun w w' key key' hne hw hw' => ?_, fun j => ?_, fun j => ?_⟩
  · rw [hmoves.secretKey] at hw hw'
    exact h.keys hne hw hw'
  · by_cases hij : j = i
    · subst hij
      exact hmoves.pending (h.pending j)
    · rw [step_phases_of_ne hij]
      exact h.pending j
  · by_cases hij : j = i
    · subst hij
      exact hmoves.recorded (h.pending j) (h.recorded j)
    · rw [step_phases_of_ne hij]
      exact (h.recorded j).mono hmoves.secretKey hmoves.spentUtxos

theorem Inv.run (h : batch.Inv txs) (schedule : List (Fin n)) : (batch.run txs schedule).Inv txs := by
  induction schedule generalizing batch with
  | nil => exact h
  | cons i schedule ih => exact ih (h.step i)

theorem Inv.marked (h : batch.Inv txs) (hx : x ∈ (batch.phases i).paid) :
    x.2.oldNullifier ∈ (batch.wallets x.1).spentUtxos := by
  have hrecorded := h.recorded i
  cases hphase : batch.phases i with
  | finished k spends =>
    rw [hphase] at hx hrecorded
    exact (hrecorded.marked x hx).resolve_left fun hheld => nomatch hheld
  | _ =>
    rw [hphase] at hx
    cases hx

/-! ## Wallets used one after the other -/

/-- The transaction is in the iteration in which it will be paid. -/
def Counts (last : Fin n → Option Nat) (batch : Batch Seed lib n) (i : Fin n) : Prop :=
  ∃ k, last i = some k ∧ (batch.phases i).iteration? = some k

/-- A transaction chooses from a wallet, for what it will pay with, while a choice of this wallet that
will be paid with is not marked yet. -/
def Contends (last : Fin n → Option Nat) (batch : Batch Seed lib n) (i : Fin n) : Prop :=
  ∃ w j, Counts last batch i ∧ (batch.phases i).Takes batch.wallets w ∧
    Counts last batch j ∧ (batch.phases j).Holds w

/-- The choices that are paid with do not contend. -/
def Serialised (txs : Fin n → TxInfo Seed lib) (last : Fin n → Option Nat) :
    Batch Seed lib n → List (Fin n) → Prop
  | _, [] => True
  | batch, i :: schedule => ¬ batch.Contends last i ∧ Serialised txs last (batch.step txs i) schedule

/-- The spends that count are distinct. -/
structure Distinct (last : Fin n → Option Nat) (batch : Batch Seed lib n) : Prop where
  nodup : ∀ i, Counts last batch i → ((batch.phases i).spends.map fun x => x.2.oldNullifier).Nodup
  disjoint : ∀ i j, i ≠ j → Counts last batch i → Counts last batch j →
    ∀ x ∈ (batch.phases i).spends, ∀ y ∈ (batch.phases j).spends, x.2.oldNullifier ≠ y.2.oldNullifier

theorem Counts.of_step_ne (h : Counts last (batch.step txs i) j) (hij : j ≠ i) : Counts last batch j := by
  rwa [Counts, step_phases_of_ne hij] at h

theorem Counts.of_step (h : Counts last (batch.step txs i) j)
    (hiteration : ((batch.step txs i).phases i).iteration? = (batch.phases i).iteration?) :
    Counts last batch j := by
  by_cases hji : j = i
  · subst hji
    rwa [Counts, hiteration] at h
  · exact h.of_step_ne hji

/-- New spends are not those of a transaction whose choice is marked. -/
theorem Inv.ne_of_take (h : batch.Inv txs) (hnot : ¬ batch.Contends last i) (hi : Counts last batch i)
    (hj : Counts last batch j)
    (hphase : batch.phases i = .gathering k missing (seed :: seeds) remaining spends states)
    (hpos : remaining ≠ 0)
    (hspend : (batch.wallets seed).speculativeSpend remaining = .ok (newSpends, state))
    (hx : x ∈ (batch.phases j).spends) (hs : s ∈ newSpends) : x.2.oldNullifier ≠ s.oldNullifier := by
  obtain ⟨key, hkey, hown, hfresh, -⟩ := DustWallet.speculativeSpend_spec hpos hspend
  by_cases hseed : x.1 = seed
  · rcases (h.recorded j).marked x hx with hheld | hmarked
    · rw [hseed] at hheld
      refine absurd ⟨seed, j, hi, ?_, hj, hheld⟩ hnot
      rw [hphase]
      exact .intro hpos hspend (List.ne_nil_of_mem hs)
    · rw [hseed] at hmarked
      intro heq
      exact hfresh s hs (heq ▸ hmarked)
  · obtain ⟨key', qdo', hkey', hx'⟩ := (h.recorded j).own x hx
    obtain ⟨qdo, hqdo⟩ := hown s hs
    rw [hx', hqdo]
    exact h.keys hseed hkey' hkey qdo' qdo

omit [DecidableEq Seed] in
theorem Distinct.of_spends (h : batch.Distinct last)
    (hspends : ∀ j, Counts last batch' j → (batch'.phases j).spends = [] ∨
      Counts last batch j ∧ (batch'.phases j).spends = (batch.phases j).spends) :
    batch'.Distinct last := by
  refine ⟨fun j hj => ?_, fun j j' hne hj hj' => ?_⟩
  · rcases hspends j hj with hnil | ⟨hj, hsame⟩
    · rw [hnil]
      exact .nil
    · rw [hsame]
      exact h.nodup j hj
  · rcases hspends j hj with hnil | ⟨hj, hsame⟩
    · rw [hnil]
      exact fun _ hx => nomatch hx
    · rcases hspends j' hj' with hnil | ⟨hj', hsame'⟩
      · rw [hnil]
        exact fun _ _ _ hy => nomatch hy
      · rw [hsame, hsame']
        exact h.disjoint j j' hne hj hj'

/-- A step that does not contend spends nothing twice. -/
theorem Distinct.step (h : batch.Distinct last) (hinv : batch.Inv txs) (hnot : ¬ batch.Contends last i) :
    (batch.step txs i).Distinct last := by
  rcases (step_moves txs batch i).spends_cases with
    hnil | ⟨hiteration, hspends⟩ | ⟨k, missing, seed, seeds, remaining, spends, states, newSpends, state,
      hphase, hpos, hspend, hiteration, hspends⟩
  · refine h.of_spends fun j hj => ?_
    by_cases hji : j = i
    · subst hji
      exact .inl hnil
    · exact .inr ⟨hj.of_step_ne hji, by rw [step_phases_of_ne hji]⟩
  · refine h.of_spends fun j hj => .inr ⟨hj.of_step hiteration, ?_⟩
    by_cases hji : j = i
    · subst hji
      exact hspends
    · rw [step_phases_of_ne hji]
  · -- there are new ones after those before
    have hnew (hi : Counts last batch i) : ∀ j, Counts last batch j → ∀ y ∈ (batch.phases j).spends,
        ∀ s ∈ newSpends, y.2.oldNullifier ≠ s.oldNullifier :=
      fun j hj y hy s hs => hinv.ne_of_take hnot hi hj hphase hpos hspend hy hs
    have hmem (j : Fin n) : ∀ x ∈ ((batch.step txs i).phases j).spends,
        x ∈ (batch.phases j).spends ∨ j = i ∧ ∃ s ∈ newSpends, x = (seed, s) := by
      intro x hx
      by_cases hji : j = i
      · subst hji
        rw [hspends] at hx
        rcases List.mem_append.mp hx with hx | hx
        · exact .inl hx
        · obtain ⟨s, hs, rfl⟩ := List.mem_map.mp hx
          exact .inr ⟨rfl, s, hs, rfl⟩
      · rw [step_phases_of_ne hji] at hx
        exact .inl hx
    refine ⟨fun j hj => ?_, fun j j' hne hj hj' x hx y hy => ?_⟩
    · replace hj := hj.of_step hiteration
      by_cases hji : j = i
      · subst hji
        obtain ⟨-, -, -, -, hnodup, -⟩ := DustWallet.speculativeSpend_spec hpos hspend
        rw [hspends, List.map_append, List.map_map]
        refine List.nodup_append.mpr ⟨h.nodup j hj, hnodup, fun a ha b hb => ?_⟩
        obtain ⟨y, hy, rfl⟩ := List.mem_map.mp ha
        obtain ⟨s, hs, rfl⟩ := List.mem_map.mp hb
        exact hnew hj j hj y hy s hs
      · rw [step_phases_of_ne hji]
        exact h.nodup j hj
    · replace hj := hj.of_step hiteration
      replace hj' := hj'.of_step hiteration
      rcases hmem j x hx with hxold | ⟨hji, s, hs, rfl⟩
      · rcases hmem j' y hy with hyold | ⟨hji', s, hs, rfl⟩
        · exact h.disjoint j j' hne hj hj' x hxold y hyold
        · exact hnew (hji' ▸ hj') j hj x hxold s hs
      · rcases hmem j' y hy with hyold | ⟨hji', -⟩
        · exact (hnew (hji ▸ hj) j' hj' y hyold s hs).symm
        · exact absurd (hji.trans hji'.symm) hne

theorem Distinct.run (h : batch.Distinct last) (hinv : batch.Inv txs)
    (hserialised : Serialised txs last batch schedule) : (batch.run txs schedule).Distinct last := by
  induction schedule generalizing batch with
  | nil => exact h
  | cons i schedule ih => exact ih (h.step hinv hserialised.1) (hinv.step i) hserialised.2

/-- Where the wallets are used one after the other, the nullifiers are distinct. -/
theorem nodup_of_serialised (h : batch.Distinct last) (hinv : batch.Inv txs)
    (hlast : (batch.run txs schedule).last = last) (hserialised : Serialised txs last batch schedule) :
    (batch.run txs schedule).nullifiers.Nodup := by
  have hdistinct := h.run hinv hserialised
  have hpaid (i : Fin n) : ((batch.run txs schedule).phases i).paid = [] ∨
      Counts last (batch.run txs schedule) i ∧
        ((batch.run txs schedule).phases i).paid = ((batch.run txs schedule).phases i).spends := by
    rw [← hlast, Counts, Batch.last]
    cases (batch.run txs schedule).phases i with
    | finished k spends => exact .inr ⟨⟨k, rfl, rfl⟩, rfl⟩
    | _ => exact .inl rfl
  refine nodup_nullifiers_iff.mpr ⟨fun i => ?_, fun i j hij => ?_⟩
  · rcases hpaid i with hnil | ⟨hi, heq⟩
    · rw [hnil]
      exact .nil
    · rw [heq]
      exact hdistinct.nodup i hi
  · rcases hpaid i with hnil | ⟨hi, heq⟩
    · rw [hnil]
      exact fun _ hx => nomatch hx
    · rcases hpaid j with hnil | ⟨hj, heq'⟩
      · rw [hnil]
        exact fun _ _ _ hy => nomatch hy
      · rw [heq, heq']
        exact hdistinct.disjoint i j hij hi hj

/-! ## Wallets used at the same time -/

/-- Before the first contention, a wallet is held once, and a new choice would begin as the held one. -/
structure Exclusive (last : Fin n → Option Nat) (batch : Batch Seed lib n) : Prop where
  first : ∀ j w, Counts last batch j → (batch.phases j).Holds w → ∃ s, (w, s) ∈ (batch.phases j).spends ∧
    (batch.wallets w).firstSpent = some s.oldNullifier
  unique : ∀ i j w, Counts last batch i → Counts last batch j → (batch.phases i).Holds w →
    (batch.phases j).Holds w → i = j

theorem Exclusive.of_wallets (h : batch.Exclusive last)
    (hcounts : ∀ j w, Counts last (batch.step txs i) j → ((batch.step txs i).phases j).Holds w →
      Counts last batch j ∧ (batch.phases j).Holds w ∧ (batch.step txs i).wallets w = batch.wallets w ∧
        (batch.phases j).spends ⊆ ((batch.step txs i).phases j).spends) :
    (batch.step txs i).Exclusive last := by
  refine ⟨fun j w hj hw => ?_, fun i' j w hi hj hwi hwj => ?_⟩
  · obtain ⟨hj, hw, hwallet, hspends⟩ := hcounts j w hj hw
    obtain ⟨s, hs, hfirst⟩ := h.first j w hj hw
    rw [hwallet]
    exact ⟨s, hspends hs, hfirst⟩
  · obtain ⟨hi, hwi, -⟩ := hcounts i' w hi hwi
    obtain ⟨hj, hwj, -⟩ := hcounts j w hj hwj
    exact h.unique i' j w hi hj hwi hwj

/-- A step that does not contend leaves a wallet held once. -/
theorem Exclusive.step (h : batch.Exclusive last) (hnot : ¬ batch.Contends last i)
    (hcommitted : ∀ k, (batch.phases i).committedIn = some k → last i = some k) :
    (batch.step txs i).Exclusive last := by
  have hother (j : Fin n) (hji : j ≠ i) {w : Seed} (hj : Counts last (batch.step txs i) j)
      (hw : ((batch.step txs i).phases j).Holds w) : Counts last batch j ∧ (batch.phases j).Holds w ∧
        (batch.phases j).spends ⊆ ((batch.step txs i).phases j).spends := by
    rw [step_phases_of_ne hji] at hw ⊢
    exact ⟨hj.of_step_ne hji, hw, List.Subset.refl _⟩
  rcases (step_moves txs batch i).holds_cases with ⟨hnone, hwallets⟩ | ⟨hiteration, hspends,
    ⟨hwallets, hsame | ⟨seed, s, htakes, hs, hfirst, hheld⟩⟩ | ⟨seed, k, hk, hk', hseed, hwallets, hheld⟩⟩
  · refine h.of_wallets fun j w hj hw => ?_
    by_cases hji : j = i
    · subst hji
      exact absurd hw (hnone w)
    · obtain ⟨hj, hw, hsub⟩ := hother j hji hj hw
      exact ⟨hj, hw, by rw [hwallets], hsub⟩
  · refine h.of_wallets fun j w hj hw => ?_
    by_cases hji : j = i
    · subst hji
      exact ⟨hj.of_step hiteration, hsame w hw, by rw [hwallets], hspends⟩
    · obtain ⟨hj, hw, hsub⟩ := hother j hji hj hw
      exact ⟨hj, hw, by rw [hwallets], hsub⟩
  · -- no one else holds what has been chosen
    have halone (hi : Counts last batch i) (j : Fin n) (hj : Counts last batch j) :
        ¬ (batch.phases j).Holds seed :=
      fun hw => hnot ⟨seed, j, hi, htakes, hj, hw⟩
    have hunique (hi : Counts last (batch.step txs i) i) (j : Fin n) (hji : j ≠ i) (w : Seed)
        (hj : Counts last (batch.step txs i) j) (hwi : ((batch.step txs i).phases i).Holds w)
        (hwj : ((batch.step txs i).phases j).Holds w) : False := by
      obtain ⟨hj, hwj, -⟩ := hother j hji hj hwj
      rcases hheld w hwi with rfl | hwi
      · exact halone (hi.of_step hiteration) j hj hwj
      · exact hji (h.unique j i w hj (hi.of_step hiteration) hwj hwi)
    refine ⟨fun j w hj hw => ?_, fun i' j w hi hj hwi hwj => ?_⟩
    · rw [hwallets]
      by_cases hji : j = i
      · subst hji
        rcases hheld w hw with rfl | hw
        · exact ⟨s, hs, hfirst⟩
        · obtain ⟨s', hs', hfirst'⟩ := h.first j w (hj.of_step hiteration) hw
          exact ⟨s', hspends hs', hfirst'⟩
      · obtain ⟨hj, hw, hsub⟩ := hother j hji hj hw
        obtain ⟨s', hs', hfirst'⟩ := h.first j w hj hw
        exact ⟨s', hsub hs', hfirst'⟩
    · by_contra hne
      by_cases hii : i' = i
      · subst hii
        exact hunique hi j (Ne.symm hne) w hj hwi hwj
      · by_cases hji : j = i
        · subst hji
          exact hunique hj i' hii w hi hwj hwi
        · obtain ⟨hi, hwi, -⟩ := hother i' hii hi hwi
          obtain ⟨hj, hwj, -⟩ := hother j hji hj hwj
          exact hne (h.unique i' j w hi hj hwi hwj)
  · -- no one else holds what has been marked
    have hi : Counts last batch i := ⟨k, hcommitted k hk, hk'⟩
    refine h.of_wallets fun j w hj hw => ?_
    by_cases hji : j = i
    · subst hji
      obtain ⟨hne, hw⟩ := hheld w hw
      exact ⟨hj.of_step hiteration, hw, hwallets w hne, hspends⟩
    · obtain ⟨hj, hw, hsub⟩ := hother j hji hj hw
      refine ⟨hj, hw, hwallets w fun hwseed => ?_, hsub⟩
      subst hwseed
      exact hji (h.unique j i w hj hi hw hseed)

/-- Two choices that contend have the output in common with which the second one begins. -/
theorem not_nodup_of_contends (h : batch.Exclusive last) (hcontends : batch.Contends last i)
    (hlast : ((batch.step txs i).run txs schedule).last = last) :
    ¬ ((batch.step txs i).run txs schedule).nullifiers.Nodup := by
  obtain ⟨w, j, ⟨ki, hlasti, hki⟩, htakes, ⟨kj, hlastj, hkj⟩, hholds⟩ := hcontends
  obtain ⟨s, hs, hfirst⟩ := h.first j w ⟨kj, hlastj, hkj⟩ hholds
  obtain ⟨newSpends, s', hs', hfirst', hspends, hiteration⟩ := htakes.step (txs i)
  rw [← step_phases_self] at hspends hiteration
  have hcommon : s.oldNullifier = s'.oldNullifier := Option.some.inj (hfirst.symm.trans hfirst')
  intro hnodup
  obtain ⟨hself, hother⟩ := nodup_nullifiers_iff.mp hnodup
  have hpaid := prefix_paid (hiteration.trans hki) ((congrFun hlast i).trans hlasti)
  rw [hspends] at hpaid
  by_cases hji : j = i
  · subst hji
    have hnodup := (hself j).sublist (hpaid.sublist.map fun x => x.2.oldNullifier)
    rw [List.map_append, List.map_map] at hnodup
    exact (List.nodup_append.mp hnodup).2.2 _ (List.mem_map_of_mem hs) _ (List.mem_map_of_mem hs') hcommon
  · have hphase : (batch.step txs i).phases j = batch.phases j := step_phases_of_ne hji
    rw [← hphase] at hs hkj
    have hpaid' := prefix_paid hkj ((congrFun hlast j).trans hlastj)
    exact hother j i hji _ (hpaid'.subset hs) _
      (hpaid.subset (List.mem_append_right _ (List.mem_map_of_mem hs'))) hcommon

/-- Where the nullifiers are distinct, the wallets have been used one after the other. -/
theorem serialised_of_nodup (h : batch.Exclusive last)
    (hdone : ∀ i, ((batch.run txs schedule).phases i).Done) (hlast : (batch.run txs schedule).last = last)
    (hnodup : (batch.run txs schedule).nullifiers.Nodup) : Serialised txs last batch schedule := by
  induction schedule generalizing batch with
  | nil => exact trivial
  | cons i schedule ih =>
    have hnot : ¬ batch.Contends last i :=
      fun hcontends => not_nodup_of_contends h hcontends hlast hnodup
    refine ⟨hnot, ih (h.step hnot fun k hk => ?_) hdone hlast hnodup⟩
    rw [← hlast]
    exact last_of_committed hk (hdone i)

/-- Without shared funding wallets there is no contention. -/
theorem serialised_of_disjoint (hinv : batch.Inv txs) (hnodup : ∀ i, (txs i).fundingSeeds.Nodup)
    (hdisjoint : ∀ i j, i ≠ j → List.Disjoint (txs i).fundingSeeds (txs j).fundingSeeds) :
    Serialised txs last batch schedule := by
  induction schedule generalizing batch with
  | nil => exact trivial
  | cons i schedule ih =>
    refine ⟨?_, ih (hinv.step i)⟩
    rintro ⟨w, j, -, htakes, -, hholds⟩
    have hpending := hinv.pending i
    have hholding := (hinv.pending j).mem_of_holds hholds
    cases hphase : batch.phases i with
    | gathering k missing seeds remaining spends states =>
      rw [hphase] at htakes hpending
      cases htakes with
      | intro hpos hspend hne =>
        obtain ⟨asked, hseeds, hasked⟩ := hpending
        have hmem : w ∈ (txs i).fundingSeeds := by
          rw [hseeds]
          exact List.mem_append_right _ List.mem_cons_self
        by_cases hji : j = i
        · subst hji
          have hseeds' := hnodup j
          rw [hphase] at hholds
          rw [hseeds] at hseeds'
          exact (List.nodup_append.mp hseeds').2.2 w (hasked w hholds) w List.mem_cons_self rfl
        · exact hdisjoint j i hji hholding hmem
    | _ =>
      rw [hphase] at htakes
      cases htakes

end Batch

open Batch in
/-- For every interleaving of the accesses to the wallets, once all the builds have ended: the dust
nullifiers of the transactions that are paid are distinct exactly when no choice that is paid with was
made while another choice of the same wallet that is paid with was not marked yet, which is so where no
funding wallet is shared; and what is paid with is marked as spent in its wallet. -/
theorem dust_nullifiers_distinct_iff {Seed : Type} [DecidableEq Seed] {lib : DustLibrary} {n : Nat}
    (txs : Fin n → TxInfo Seed lib) (wallets : Seed → DustWallet lib) (hkeys : KeysDistinct wallets)
    (schedule : List (Fin n)) (hdone : ∀ i, (((start txs wallets).run txs schedule).phases i).Done) :
    let final := (start txs wallets).run txs schedule
    (final.nullifiers.Nodup ↔ Serialised txs final.last (start txs wallets) schedule) ∧
      ((∀ i, (txs i).fundingSeeds.Nodup) →
        (∀ i j, i ≠ j → List.Disjoint (txs i).fundingSeeds (txs j).fundingSeeds) →
          final.nullifiers.Nodup) ∧
      ∀ i, ∀ x ∈ (final.phases i).paid, x.2.oldNullifier ∈ (final.wallets x.1).spentUtxos := by
  intro final
  have hinv : (start txs wallets).Inv txs := inv_start hkeys
  have hdistinct : (start txs wallets).Distinct final.last :=
    ⟨(fun _ _ => .nil), fun _ _ _ _ _ x hx => nomatch hx⟩
  have hexclusive : (start txs wallets).Exclusive final.last :=
    ⟨(fun _ _ _ hw => nomatch hw), fun _ _ _ _ _ hw => nomatch hw⟩
  refine ⟨⟨serialised_of_nodup hexclusive hdone rfl, nodup_of_serialised hdistinct hinv rfl⟩,
    fun hnodup hdisjoint => ?_, fun i x hx => (hinv.run schedule).marked hx⟩
  exact nodup_of_serialised hdistinct hinv rfl (serialised_of_disjoint hinv hnodup hdisjoint)

/-! ## Samples -/

/-- Numbered outputs, each worth 5. -/
def numberedDust : DustLibrary where
  State := List Nat
  Output := Nat
  Key := Nat
  Nullifier := Nat × Nat
  GenerationInfo := Unit
  decidableEqNullifier := inferInstanceAs (DecidableEq (Nat × Nat))
  utxos state := state.dedup
  nullifier key qdo := (key, qdo)
  generationInfo _ _ := some ()
  updatedValue _ _ := 5
  spend key state qdo vFee := some (state.filter (· ≠ qdo), ⟨(key, qdo), vFee⟩)
  utxos_nodup key state :=
    (List.nodup_dedup state).map fun _ _ h => congrArg Prod.snd h
  spend_eq h := by
    cases h
    exact ⟨rfl, rfl⟩

def sharedWallet : Unit → DustWallet numberedDust := fun _ => ⟨some (0 : Nat), some [0, 1], []⟩

/-- Two transactions that the wallet pays 3 for. -/
def feeTxs : Fin 2 → TxInfo Unit numberedDust := fun _ =>
  ⟨[()], fun _ spends => if spends.isEmpty then some (some 3) else some none⟩

theorem keysDistinct_sharedWallet : Batch.KeysDistinct sharedWallet :=
  fun _ _ _ _ hne => absurd rfl hne

/-- One transaction after the other. -/
theorem dust_nullifiers_distinct_iff_in_turn :
    let schedule : List (Fin 2) := [0, 0, 0, 0, 0, 1, 1, 1, 1, 1]
    let final := (Batch.start feeTxs sharedWallet).run feeTxs schedule
    final.nullifiers = [((0 : Nat), (0 : Nat)), ((0 : Nat), (1 : Nat))] ∧
      Batch.Serialised feeTxs final.last (Batch.start feeTxs sharedWallet) schedule := by
  refine ⟨rfl, (dust_nullifiers_distinct_iff feeTxs sharedWallet keysDistinct_sharedWallet _ ?_).1.mp ?_⟩
  · intro i
    fin_cases i <;> exact trivial
  · decide

/-- Both choose before either marks its choice. -/
theorem dust_nullifier_spent_twice :
    let final := (Batch.start feeTxs sharedWallet).run feeTxs [0, 1, 0, 1, 0, 1, 0, 1, 0, 1]
    (∀ i, (final.phases i).Done) ∧ ¬ final.nullifiers.Nodup := by
  refine ⟨fun i => ?_, by decide⟩
  fin_cases i <;> exact trivial

end MidnightNode.Toolkit
