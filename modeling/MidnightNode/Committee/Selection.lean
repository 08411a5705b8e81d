import MidnightNode.Lib.Apportionment
import MidnightNode.Lib.Fallible

/-!
# Ariadne selection with guaranteed seats

`selection::ariadne_v2::select_authorities`: registered candidates, weighted by stake, and permissioned
ones, of weight one, get the seats of the D-parameter. A candidate gets the whole part of its expected
seats, the rest is drawn by weight. If one list is empty, the other one gets all seats.

Seat numbers are 16-bit numbers, and the sum of the two wraps around.
-/

namespace MidnightNode.Committee

open Apportionment

structure RandomLibrary (Seed : Type) where
  Rng : Type
  fromSeed : Seed → Rng
  getSeed : Rng → Seed
  randomRange : Rng → Nat → Nat × Rng
  randomRange_lt : ∀ rng total, 0 < total → (randomRange rng total).1 < total
  shuffle : {α : Type} → List α → Rng → List α
  shuffle_perm : ∀ {α : Type} (l : List α) (rng : Rng), (shuffle l rng).Perm l

inductive Panic
  | divisionByZero
  | guaranteedTooBig
  | selectedTooMany
  | emptyRange
  | noCandidate
deriving DecidableEq

/-- Sums and products of weights are 128-bit numbers. -/
def wrapWeight (w : Nat) : Nat := w % 2 ^ 128

def usizeMax : Nat := 2 ^ 32 - 1

variable {Seed : Type} (lib : RandomLibrary Seed) {T : Type}

/-! ## Random selection by weight -/

namespace WeightedRandom

def totalWeight (candidates : List (T × Nat)) : Nat := wrapWeight (candidates.map Prod.snd).sum

/-- The loop of `select_with_weight` from a cumulative weight on; it panics behind the last candidate. -/
def indexAt (randomNumber : Nat) : Nat → List (T × Nat) → Option Nat
  | _, [] => none
  | cumulativeWeight, (_, weight) :: candidates =>
    let cumulativeWeight := wrapWeight (cumulativeWeight + weight)
    if cumulativeWeight > randomNumber then some 0
    else (indexAt randomNumber cumulativeWeight candidates).map (· + 1)

def selectWithWeight (candidates : List (T × Nat)) (total : Nat) (rng : lib.Rng) :
    Except Panic (T × lib.Rng) :=
  if total = 0 then .error .emptyRange
  else
    let (randomNumber, rng) := lib.randomRange rng total
    match (indexAt randomNumber 0 candidates).bind fun index => candidates[index]? with
    | some c => .ok (c.1, rng)
    | none => .error .noCandidate

/-- The loop of `select_authorities`, for the seats that are left. -/
def draw (candidates : List (T × Nat)) (total : Nat) : Nat → lib.Rng → Except Panic (List T)
  | 0, _ => .ok []
  | seats + 1, rng => do
    let (selected, rng) ← selectWithWeight lib candidates total rng
    let committee ← draw candidates total seats rng
    .ok (selected :: committee)

def selectAuthorities (candidates : List (T × Nat)) (seed : Seed) (size : UInt16) :
    Except Panic (Option (List T)) := do
  let committee ←
    if candidates.isEmpty then .ok []
    else draw lib candidates (totalWeight candidates) size.toNat (lib.fromSeed seed)
  .ok (if size.toNat ≤ committee.length then some committee else none)

end WeightedRandom

/-! ## Guaranteed seats -/

structure SelectGuaranteedResult (T : Type) where
  selected : List T
  remaining : List (T × Nat)

/-- The loop of `select_guaranteed` over the scaled candidates. -/
def guaranteedLoop (threshold : Nat) : List (T × Nat) → Except Panic (SelectGuaranteedResult T)
  | [] => .ok ⟨[], []⟩
  | (c, weight) :: candidates =>
    if threshold = 0 then .error .divisionByZero
    else if weight / threshold > usizeMax then .error .guaranteedTooBig
    else do
      let rest ← guaranteedLoop threshold candidates
      let remainingWeight := weight % threshold
      .ok ⟨List.replicate (weight / threshold) c ++ rest.selected,
        (if remainingWeight > 0 then [(c, remainingWeight)] else []) ++ rest.remaining⟩

def selectGuaranteed (candidates : List (T × Nat)) (n : UInt16) :
    Except Panic (SelectGuaranteedResult T) :=
  guaranteedLoop (WeightedRandom.totalWeight candidates)
    ((candidates.filter (0 < ·.2)).map fun c => (c.1, wrapWeight (c.2 * n.toNat)))

def selectRemaining (candidates : List (T × Nat)) (n : UInt16) (rng : lib.Rng) :
    Except Panic (List T) := do
  let selected ← WeightedRandom.selectAuthorities lib candidates (lib.getSeed rng) n
  .ok (selected.getD [])

def unitWeights (candidates : List T) : List (T × Nat) := candidates.map fun c => (c, 1)

theorem unitWeights_pos {candidates : List T} (hne : candidates ≠ []) :
    ∃ c ∈ unitWeights candidates, 0 < c.2 := by
  obtain ⟨c, hc⟩ := List.exists_mem_of_ne_nil _ hne
  exact ⟨(c, 1), List.mem_map_of_mem hc, Nat.one_pos⟩

theorem unitWeights_sum {candidates : List T} :
    ((unitWeights candidates).map Prod.snd).sum = candidates.length := by
  simp [unitWeights, Function.comp_def]

theorem unitWeights_fst {candidates : List T} : (unitWeights candidates).map Prod.fst = candidates := by
  simp [unitWeights, Function.comp_def]

theorem unitWeights_eq_nil {candidates : List T} : unitWeights candidates = [] ↔ candidates = [] :=
  List.map_eq_nil_iff

variable {SC : Type} [LinearOrder SC]

/-- The order of pairs that `sort` uses. -/
def CandidateLe (a b : SC × Nat) : Prop := a.1 < b.1 ∨ a.1 = b.1 ∧ a.2 ≤ b.2

instance CandidateLe.decidable (a b : SC × Nat) : Decidable (CandidateLe a b) :=
  inferInstanceAs (Decidable (_ ∨ _))

def weightedWithGuaranteedAssignment (candidates : List (SC × Nat)) (n : UInt16) (rng : lib.Rng) :
    Except Panic (List SC) :=
  if candidates.isEmpty ∨ n = 0 then .ok []
  else do
    let guaranteed ← selectGuaranteed (candidates.insertionSort CandidateLe) n
    if guaranteed.selected.length ≥ 2 ^ 16 then .error .selectedTooMany
    else
      let more ← selectRemaining lib guaranteed.remaining
        (n - UInt16.ofNat guaranteed.selected.length) rng
      .ok (guaranteed.selected ++ more)

namespace AriadneV2

/-- The seats before the final shuffle. -/
def selectSeats (registeredSeats permissionedSeats : UInt16) (registeredCandidates : List (SC × Nat))
    (permissionedCandidates : List (SC × Nat)) (rng : lib.Rng) : Except Panic (List SC) :=
  if ¬ registeredCandidates.isEmpty ∧ ¬ permissionedCandidates.isEmpty then do
    let registeredSelected ← weightedWithGuaranteedAssignment lib registeredCandidates registeredSeats rng
    let permissionedSelected ←
      weightedWithGuaranteedAssignment lib permissionedCandidates permissionedSeats rng
    .ok (registeredSelected ++ permissionedSelected)
  else if registeredCandidates.isEmpty then
    weightedWithGuaranteedAssignment lib permissionedCandidates (permissionedSeats + registeredSeats) rng
  else
    weightedWithGuaranteedAssignment lib registeredCandidates (permissionedSeats + registeredSeats) rng

def selectAuthorities (registeredSeats permissionedSeats : UInt16) (registeredCandidates : List (SC × Nat))
    (permissionedCandidates : List SC) (seed : Seed) : Except Panic (Option (List SC)) := do
  let seatsTotal := permissionedSeats + registeredSeats
  let rng := lib.fromSeed seed
  let permissionedCandidates := unitWeights permissionedCandidates
  let selected ← selectSeats lib registeredSeats permissionedSeats registeredCandidates
    permissionedCandidates rng
  let selected := lib.shuffle selected rng
  .ok (if selected.isEmpty ∧ seatsTotal > 0 then none else some selected)

end AriadneV2

/-! ## Drawing by weight -/

section

variable {lib} {candidates : List (T × Nat)} {rng : lib.Rng}

theorem wrapWeight_of_lt (h : w < 2 ^ 128) : wrapWeight w = w := Nat.mod_eq_of_lt h

theorem WeightedRandom.indexAt_some (hle : cumulative ≤ randomNumber)
    (hlt : randomNumber < cumulative + (candidates.map Prod.snd).sum)
    (hfit : cumulative + (candidates.map Prod.snd).sum < 2 ^ 128) :
    ∃ index, indexAt randomNumber cumulative candidates = some index ∧ index < candidates.length := by
  induction candidates generalizing cumulative with
  | nil =>
    simp only [List.map_nil, List.sum_nil] at hlt
    omega
  | cons c candidates ih =>
    obtain ⟨c, weight⟩ := c
    simp only [List.map_cons, List.sum_cons] at hlt hfit
    have hwrap : wrapWeight (cumulative + weight) = cumulative + weight := wrapWeight_of_lt (by omega)
    simp only [indexAt, hwrap]
    split
    case isTrue => exact ⟨0, rfl, Nat.succ_pos _⟩
    case isFalse hnext =>
      obtain ⟨index, hindex, hlen⟩ := ih (Nat.le_of_not_lt hnext) (by omega) (by omega)
      exact ⟨index + 1, by simp [hindex], Nat.succ_lt_succ hlen⟩

structure Drawable (candidates : List (T × Nat)) : Prop where
  pos : 0 < (candidates.map Prod.snd).sum
  fits : (candidates.map Prod.snd).sum < 2 ^ 128

theorem Drawable.totalWeight_eq (h : Drawable candidates) :
    WeightedRandom.totalWeight candidates = (candidates.map Prod.snd).sum := wrapWeight_of_lt h.fits

theorem Drawable.selectWithWeight (h : Drawable candidates) (rng : lib.Rng) :
    ∃ c rng', WeightedRandom.selectWithWeight lib candidates (WeightedRandom.totalWeight candidates) rng =
      .ok (c, rng') ∧ c ∈ candidates.map Prod.fst := by
  have hpos := h.pos
  rw [← h.totalWeight_eq] at hpos
  have hlt : (lib.randomRange rng (WeightedRandom.totalWeight candidates)).1 <
      0 + (candidates.map Prod.snd).sum := by
    rw [Nat.zero_add, ← h.totalWeight_eq]
    exact lib.randomRange_lt rng _ hpos
  obtain ⟨index, hindex, hlen⟩ := WeightedRandom.indexAt_some (Nat.zero_le _) hlt
    (by simpa using h.fits)
  refine ⟨candidates[index].1, (lib.randomRange rng (WeightedRandom.totalWeight candidates)).2, ?_,
    List.mem_map_of_mem (List.getElem_mem hlen)⟩
  simp only [WeightedRandom.selectWithWeight, if_neg hpos.ne', hindex, Option.bind_some,
    List.getElem?_eq_getElem hlen]

theorem Drawable.draw (h : Drawable candidates) (seats : Nat) (rng : lib.Rng) :
    ∃ committee,
      WeightedRandom.draw lib candidates (WeightedRandom.totalWeight candidates) seats rng = .ok committee ∧
      committee.length = seats ∧ committee ⊆ candidates.map Prod.fst := by
  induction seats generalizing rng with
  | zero => exact ⟨[], rfl, rfl, List.nil_subset _⟩
  | succ seats ih =>
    obtain ⟨c, rng', hc, hmem⟩ := h.selectWithWeight rng
    obtain ⟨committee, hdraw, hlen, hsub⟩ := ih rng'
    refine ⟨c :: committee, ?_, by simp [hlen], List.cons_subset.mpr ⟨hmem, hsub⟩⟩
    simp only [WeightedRandom.draw, hc, hdraw, bind, Except.bind]

theorem Drawable.selectRemaining (h : Drawable candidates) (n : UInt16) (rng : lib.Rng) :
    ∃ selected, selectRemaining lib candidates n rng = .ok selected ∧ selected.length = n.toNat ∧
      selected ⊆ candidates.map Prod.fst := by
  obtain ⟨committee, hdraw, hlen, hsub⟩ := h.draw n.toNat (lib.fromSeed (lib.getSeed rng))
  refine ⟨committee, ?_, hlen, hsub⟩
  have hne : candidates.isEmpty = false := by
    have hpos := h.pos
    cases candidates with
    | nil => simp at hpos
    | cons => rfl
  simp only [Committee.selectRemaining, WeightedRandom.selectAuthorities, hne, Bool.false_eq_true,
    if_false, hdraw, bind, Except.bind, hlen, Nat.le_refl, if_true, Option.getD_some]

theorem selectRemaining_nil (n : UInt16) (rng : lib.Rng) :
    selectRemaining lib ([] : List (T × Nat)) n rng = .ok [] := by
  simp only [selectRemaining, WeightedRandom.selectAuthorities, List.isEmpty_nil, if_true, bind,
    Except.bind]
  split <;> rfl

/-! ## Whole shares -/

/-- The whole shares as seats, and the remainders that are not zero. -/
def shares (threshold : Nat) (scaled : List (T × Nat)) : SelectGuaranteedResult T :=
  ⟨scaled.flatMap fun c => List.replicate (c.2 / threshold) c.1,
    (scaled.map fun c => (c.1, c.2 % threshold)).filter (0 < ·.2)⟩

theorem guaranteedLoop_eq (hpos : 0 < threshold) {scaled : List (T × Nat)}
    (hfit : ∀ c ∈ scaled, c.2 / threshold ≤ usizeMax) :
    guaranteedLoop threshold scaled = .ok (shares threshold scaled) := by
  induction scaled with
  | nil => rfl
  | cons c scaled ih =>
    obtain ⟨c, weight⟩ := c
    have hsmall := hfit _ List.mem_cons_self
    have hrest := ih fun c hc => hfit c (List.mem_cons_of_mem _ hc)
    simp only [guaranteedLoop, if_neg hpos.ne', if_neg (Nat.not_lt.mpr hsmall), hrest, bind, Except.bind,
      shares, List.flatMap_cons, List.map_cons, List.filter_cons, gt_iff_lt, decide_eq_true_eq]
    split <;> rfl

theorem sum_filter_pos (candidates : List (T × Nat)) :
    ((candidates.filter (0 < ·.2)).map Prod.snd).sum = (candidates.map Prod.snd).sum := by
  induction candidates with
  | nil => rfl
  | cons c candidates ih =>
    by_cases hc : 0 < c.2
    · simp [hc, ih]
    · simp [Nat.eq_zero_of_not_pos hc, ih]

/-- The candidates of positive weight, with their weights times the seats. -/
def scaled (n : Nat) (candidates : List (T × Nat)) : List (T × Nat) :=
  (candidates.filter (0 < ·.2)).map fun c => (c.1, c.2 * n)

theorem mem_scaled : c ∈ scaled n candidates ↔ ∃ w, 0 < w ∧ (c.1, w) ∈ candidates ∧ c.2 = w * n := by
  simp only [scaled, List.mem_map, List.mem_filter, decide_eq_true_eq]
  constructor
  · rintro ⟨d, ⟨hd, hpos⟩, rfl⟩
    exact ⟨d.2, hpos, hd, rfl⟩
  · rintro ⟨w, hpos, hc, hw⟩
    exact ⟨(c.1, w), ⟨hc, hpos⟩, Prod.ext rfl hw.symm⟩

theorem selectGuaranteed_eq (hpos : 0 < (candidates.map Prod.snd).sum) (hn : 0 < n.toNat)
    (hfit : (candidates.map Prod.snd).sum * n.toNat < 2 ^ 128) :
    selectGuaranteed candidates n =
      .ok (shares (candidates.map Prod.snd).sum (scaled n.toNat candidates)) := by
  have hle {c : T × Nat} (hc : c ∈ candidates) :
      c.2 * n.toNat ≤ (candidates.map Prod.snd).sum * n.toNat :=
    Nat.mul_le_mul_right _ (List.le_sum_of_mem (List.mem_map_of_mem hc))
  have htotal : WeightedRandom.totalWeight candidates = (candidates.map Prod.snd).sum :=
    wrapWeight_of_lt ((Nat.le_mul_of_pos_right _ hn).trans_lt hfit)
  have hscaled : ((candidates.filter (0 < ·.2)).map fun c => (c.1, wrapWeight (c.2 * n.toNat))) =
      scaled n.toNat candidates := by
    refine List.map_congr_left fun c hc => ?_
    rw [wrapWeight_of_lt ((hle (List.mem_filter.mp hc).1).trans_lt hfit)]
  rw [selectGuaranteed, htotal, hscaled]
  refine guaranteedLoop_eq hpos fun c hc => ?_
  obtain ⟨w, -, hmem, hw⟩ := mem_scaled.mp hc
  have hdiv : c.2 / (candidates.map Prod.snd).sum ≤ n.toNat :=
    Nat.div_le_of_le_mul (hw ▸ hle hmem)
  have hlt := n.toNat_lt
  simp only [usizeMax]
  omega

structure Guaranteed (candidates : List (T × Nat)) (n : Nat) (r : SelectGuaranteedResult T) : Prop where
  length_le : r.selected.length ≤ n
  remaining_sum : (r.remaining.map Prod.snd).sum =
    (n - r.selected.length) * (candidates.map Prod.snd).sum
  selected_pos : ∀ x ∈ r.selected, ∃ w, 0 < w ∧ (x, w) ∈ candidates
  remaining_pos : ∀ x ∈ r.remaining.map Prod.fst, ∃ w, 0 < w ∧ (x, w) ∈ candidates
  whole : ∀ c ∈ candidates,
    (List.replicate (c.2 * n / (candidates.map Prod.snd).sum) c.1).Sublist r.selected

/-- The guaranteed seats are at most the seats, and what remains has the weight of the seats that are left. -/
theorem guaranteed_shares (hpos : 0 < (candidates.map Prod.snd).sum) (n : Nat) :
    Guaranteed candidates n (shares (candidates.map Prod.snd).sum (scaled n candidates)) := by
  have hws := sum_filter_pos candidates
  have hlength : (shares (candidates.map Prod.snd).sum (scaled n candidates)).selected.length =
      wholeShares n (candidates.map Prod.snd).sum ((candidates.filter (0 < ·.2)).map Prod.snd) := by
    simp [shares, scaled, wholeShares, List.length_flatMap, Function.comp_def]
  refine ⟨?_, ?_, ?_, ?_, ?_⟩
  · rw [hlength, ← hws]
    exact wholeShares_le (hws.symm ▸ hpos)
  · rw [hlength, shares, sum_filter_pos, ← hws, ← remainders_eq]
    simp [scaled, remainders, Function.comp_def]
  · intro x hx
    obtain ⟨c, hc, hmem⟩ := List.mem_flatMap.mp hx
    obtain ⟨w, hw, hcand, -⟩ := mem_scaled.mp hc
    exact ⟨w, hw, List.eq_of_mem_replicate hmem ▸ hcand⟩
  · intro x hx
    obtain ⟨c, hc, rfl⟩ := List.mem_map.mp hx
    obtain ⟨d, hd, rfl⟩ := List.mem_map.mp (List.mem_filter.mp hc).1
    obtain ⟨w, hw, hcand, -⟩ := mem_scaled.mp hd
    exact ⟨w, hw, hcand⟩
  · intro c hc
    rcases Nat.eq_zero_or_pos c.2 with hzero | hcpos
    · simp [hzero]
    · have hmem : (c.1, c.2 * n) ∈ scaled n candidates := mem_scaled.mpr ⟨c.2, hcpos, hc, rfl⟩
      rw [shares, List.flatMap_def]
      exact List.sublist_flatten_of_mem (List.mem_map_of_mem hmem)

theorem selectRemaining_zero (rng : lib.Rng) : selectRemaining lib candidates 0 rng = .ok [] := by
  cases candidates <;> rfl

theorem Guaranteed.selectRemaining (h : Guaranteed candidates n r)
    (hpos : 0 < (candidates.map Prod.snd).sum) (hfit : (candidates.map Prod.snd).sum * n < 2 ^ 128)
    (hleft : left.toNat = n - r.selected.length) (rng : lib.Rng) :
    ∃ more, selectRemaining lib r.remaining left rng = .ok more ∧ more.length = left.toNat ∧
      more ⊆ r.remaining.map Prod.fst := by
  rcases Nat.eq_zero_or_pos left.toNat with hzero | hsome
  · obtain rfl : left = 0 := UInt16.toNat_inj.mp hzero
    exact ⟨[], selectRemaining_zero rng, rfl, List.nil_subset _⟩
  · have hdraw : Drawable r.remaining := by
      have hle : (n - r.selected.length) * (candidates.map Prod.snd).sum ≤
          (candidates.map Prod.snd).sum * n := by
        rw [Nat.mul_comm]
        exact Nat.mul_le_mul_left _ (Nat.sub_le _ _)
      refine ⟨?_, ?_⟩
      · rw [h.remaining_sum, ← hleft]
        exact Nat.mul_pos hsome hpos
      · rw [h.remaining_sum]
        exact hle.trans_lt hfit
    exact hdraw.selectRemaining left rng

end

section

variable {lib} {candidates : List (SC × Nat)}

theorem weighted_of_zero (hzero : ∀ c ∈ candidates, c.2 = 0) (n : UInt16) (rng : lib.Rng) :
    weightedWithGuaranteedAssignment lib candidates n rng = .ok [] := by
  unfold weightedWithGuaranteedAssignment
  split
  case isTrue => rfl
  case isFalse =>
    have hfilter : (candidates.insertionSort CandidateLe).filter (0 < ·.2) = [] := by
      refine List.filter_eq_nil_iff.mpr fun c hc => ?_
      simp [hzero c ((List.mem_insertionSort _).mp hc)]
    simp only [selectGuaranteed, hfilter, List.map_nil, guaranteedLoop, bind, Except.bind,
      List.length_nil, selectRemaining_nil, List.append_nil]
    rfl

/-- All seats are filled, by candidates of positive weight, and each has the whole part of its share. -/
structure FairSeats (candidates : List (SC × Nat)) (n : Nat) (selected : List SC) : Prop where
  length : selected.length = n
  positive : ∀ x ∈ selected, ∃ w, 0 < w ∧ (x, w) ∈ candidates
  whole : ∀ c ∈ candidates, c.2 * n / (candidates.map Prod.snd).sum ≤ selected.count c.1

theorem FairSeats.of_perm (h : FairSeats candidates' n selected) (hperm : candidates'.Perm candidates) :
    FairSeats candidates n selected := by
  refine ⟨h.length, fun x hx => ?_, fun c hc => ?_⟩
  · obtain ⟨w, hw, hmem⟩ := h.positive x hx
    exact ⟨w, hw, hperm.subset hmem⟩
  · rw [← (hperm.map Prod.snd).sum_eq]
    exact h.whole c (hperm.symm.subset hc)

theorem Guaranteed.fairSeats (h : Guaranteed candidates n r) (hlen : more.length = n - r.selected.length)
    (hsub : more ⊆ r.remaining.map Prod.fst) : FairSeats candidates n (r.selected ++ more) := by
  refine ⟨?_, fun x hx => ?_, fun c hc => ?_⟩
  · have hle := h.length_le
    rw [List.length_append, hlen]
    omega
  · rcases List.mem_append.mp hx with hx | hx
    · exact h.selected_pos x hx
    · exact h.remaining_pos x (hsub hx)
  · exact List.replicate_sublist_iff.mp
      ((h.whole c hc).trans (List.sublist_append_left _ _))

/-- A list with weights that leave room for the number of seats fills all seats fairly. -/
theorem weighted_fair (hpos : 0 < (candidates.map Prod.snd).sum) (n : UInt16)
    (hfit : (candidates.map Prod.snd).sum * n.toNat < 2 ^ 128) (rng : lib.Rng) :
    ∃ selected, weightedWithGuaranteedAssignment lib candidates n rng = .ok selected ∧
      FairSeats candidates n.toNat selected := by
  unfold weightedWithGuaranteedAssignment
  split
  case isTrue h =>
    rcases h with h | rfl
    · simp [List.isEmpty_iff.mp h] at hpos
    · refine ⟨[], rfl, rfl, nofun, fun c _ => ?_⟩
      simp
  case isFalse hne =>
    have hperm := List.perm_insertionSort CandidateLe candidates
    have hn : 0 < n.toNat := by
      rw [Nat.pos_iff_ne_zero]
      exact fun hzero => hne (.inr (UInt16.toNat_inj.mp hzero))
    rw [← (hperm.map Prod.snd).sum_eq] at hpos hfit
    have hr := guaranteed_shares hpos n.toNat
    set r := shares _ (scaled n.toNat (candidates.insertionSort CandidateLe)) with hr_def
    have hlt := n.toNat_lt
    have hcount : (UInt16.ofNat r.selected.length).toNat = r.selected.length :=
      UInt16.toNat_ofNat_of_lt' (hr.length_le.trans_lt hlt)
    have hleft : (n - UInt16.ofNat r.selected.length).toNat = n.toNat - r.selected.length := by
      rw [UInt16.toNat_sub_of_le _ _ (UInt16.le_iff_toNat_le.mpr (hcount.trans_le hr.length_le)), hcount]
    obtain ⟨more, hmore, hlen, hsub⟩ := hr.selectRemaining hpos hfit hleft rng
    refine ⟨r.selected ++ more, ?_, (hr.fairSeats (hlen.trans hleft) hsub).of_perm hperm⟩
    simp only [selectGuaranteed_eq hpos hn hfit, ← hr_def, bind, Except.bind, ge_iff_le,
      if_neg (Nat.not_le.mpr (hr.length_le.trans_lt hlt)), hmore]

theorem weighted_of_pos (hpos : ∃ c ∈ candidates, 0 < c.2)
    (hsum : (candidates.map Prod.snd).sum < 2 ^ 112) (n : UInt16) (rng : lib.Rng) :
    ∃ selected, weightedWithGuaranteedAssignment lib candidates n rng = .ok selected ∧
      selected.length = n.toNat ∧ selected ⊆ candidates.map Prod.fst := by
  obtain ⟨c, hc, hcpos⟩ := hpos
  have hspos : 0 < (candidates.map Prod.snd).sum :=
    hcpos.trans_le (List.le_sum_of_mem (List.mem_map_of_mem hc))
  have hfit : (candidates.map Prod.snd).sum * n.toNat < 2 ^ 112 * 2 ^ 16 :=
    Nat.mul_lt_mul'' hsum n.toNat_lt
  obtain ⟨selected, hselected, hfair⟩ := weighted_fair hspos n (hfit.trans_le (by norm_num)) rng
  refine ⟨selected, hselected, hfair.length, fun x hx => ?_⟩
  obtain ⟨w, -, hmem⟩ := hfair.positive x hx
  exact List.mem_map_of_mem (f := Prod.fst) hmem

end

/-! ## Exact seats -/

namespace AriadneV2

/-- The D-parameter's seats are all filled when every non-empty list can fill seats, each list fills its
own when both are there, and no committee is returned only when nobody can fill a seat. -/
def SeatsExact (registeredSeats permissionedSeats : UInt16) (registered : List (SC × Nat))
    (permissioned : List SC) (result : Except Panic (Option (List SC))) : Prop :=
  ((registered ≠ [] ∨ permissioned ≠ []) → (registered ≠ [] → ∃ c ∈ registered, 0 < c.2) →
    ∃ committee, result = .ok (some committee) ∧
      committee.length = registeredSeats.toNat + permissionedSeats.toNat ∧
      (registered ≠ [] → permissioned ≠ [] →
        ∃ fromRegistered fromPermissioned, committee.Perm (fromRegistered ++ fromPermissioned) ∧
          fromRegistered.length = registeredSeats.toNat ∧
          fromPermissioned.length = permissionedSeats.toNat ∧
          fromRegistered ⊆ registered.map Prod.fst ∧ fromPermissioned ⊆ permissioned)) ∧
  (result = .ok none →
    0 < registeredSeats.toNat + permissionedSeats.toNat ∧ (∀ c ∈ registered, c.2 = 0) ∧ permissioned = [])

/-- One list has to fill all seats, and their number is not a 16-bit number. -/
structure Overflows (registeredSeats permissionedSeats : UInt16) (registered : List (SC × Nat))
    (permissioned : List SC) : Prop where
  one_list : registered = [] ∧ permissioned ≠ [] ∨ permissioned = [] ∧ ∃ c ∈ registered, 0 < c.2
  seats : 2 ^ 16 ≤ registeredSeats.toNat + permissionedSeats.toNat

/-- All seats are for registered candidates, and these have no weight. -/
structure Starves (registeredSeats permissionedSeats : UInt16) (registered : List (SC × Nat))
    (permissioned : List SC) : Prop where
  registered_ne : registered ≠ []
  permissioned_ne : permissioned ≠ []
  no_weight : ∀ c ∈ registered, c.2 = 0
  permissionedSeats_eq : permissionedSeats = 0
  registeredSeats_pos : 0 < registeredSeats

section

variable {lib} {r p : UInt16} {registered : List (SC × Nat)} {permissioned : List SC} {seed : Seed}
  {selected : List SC}

/-- The result is a shuffle of the seats, unless there is none although there should be. -/
theorem selectAuthorities_of_seats
    (h : selectSeats lib r p registered (unitWeights permissioned) (lib.fromSeed seed) =
      .ok selected) :
    ∃ committee, committee.Perm selected ∧
      selectAuthorities lib r p registered permissioned seed =
        .ok (if selected = [] ∧ p + r ≠ 0 then none else some committee) := by
  have hperm := lib.shuffle_perm selected (lib.fromSeed seed)
  refine ⟨_, hperm, ?_⟩
  have hempty : (lib.shuffle selected (lib.fromSeed seed)).isEmpty = true ↔ selected = [] := by
    rw [List.isEmpty_iff]
    exact ⟨fun h => List.nil_perm.mp (h ▸ hperm), fun h => List.perm_nil.mp (h ▸ hperm)⟩
  have htotal : p + r > 0 ↔ p + r ≠ 0 := UInt16.pos_iff_ne_zero
  simp only [selectAuthorities, h, bind, Except.bind, hempty, htotal]

theorem toNat_add_of_lt (h : r.toNat + p.toNat < 2 ^ 16) : (p + r).toNat = r.toNat + p.toNat := by
  rw [UInt16.toNat_add, Nat.add_comm, Nat.mod_eq_of_lt h]

theorem toNat_add_lt_of_le (h : 2 ^ 16 ≤ r.toNat + p.toNat) : (p + r).toNat < r.toNat + p.toNat := by
  have hlt := (p + r).toNat_lt
  omega

theorem seatsExact_one_list (hlist : registered = [] ∨ permissioned = [])
    (hne : registered ≠ [] ∨ permissioned ≠ [])
    (hfill : registered ≠ [] → ∃ c ∈ registered, 0 < c.2)
    (hseats : selectSeats lib r p registered (unitWeights permissioned) (lib.fromSeed seed) =
      .ok selected) (hlen : selected.length = (p + r).toNat) :
    SeatsExact r p registered permissioned (selectAuthorities lib r p registered permissioned seed) ↔
      r.toNat + p.toNat < 2 ^ 16 := by
  obtain ⟨committee, hperm, hresult⟩ := selectAuthorities_of_seats hseats
  have hsome : ¬ (selected = [] ∧ p + r ≠ 0) := by
    rintro ⟨rfl, hzero⟩
    exact hzero (UInt16.toNat_inj.mp hlen.symm)
  rw [hresult, if_neg hsome]
  have hcommittee : committee.length = (p + r).toNat := hperm.length_eq.trans hlen
  constructor
  · intro h
    obtain ⟨committee', heq, hall, -⟩ := h.1 hne hfill
    cases heq
    by_contra hge
    have hlt := toNat_add_lt_of_le (Nat.le_of_not_lt hge)
    omega
  · intro hlt
    refine ⟨fun _ _ => ⟨committee, rfl, hcommittee.trans (toNat_add_of_lt hlt), fun h1 h2 => ?_⟩,
      fun h => nomatch h⟩
    exact (hlist.elim h1 h2).elim

theorem selectSeats_both (hreg : registered ≠ []) (hper : permissioned ≠ [])
    (hlen : permissioned.length < 2 ^ 112)
    (hselected : weightedWithGuaranteedAssignment lib registered r (lib.fromSeed seed) =
      .ok fromRegistered) :
    ∃ fromPermissioned,
      selectSeats lib r p registered (unitWeights permissioned) (lib.fromSeed seed) =
        .ok (fromRegistered ++ fromPermissioned) ∧
      fromPermissioned.length = p.toNat ∧ fromPermissioned ⊆ permissioned := by
  obtain ⟨fromPermissioned, hfrom, hcount, hsub⟩ :=
    weighted_of_pos (unitWeights_pos hper) (unitWeights_sum.trans_lt hlen) p (lib.fromSeed seed)
  rw [unitWeights_fst] at hsub
  refine ⟨fromPermissioned, ?_, hcount, hsub⟩
  have hboth : ¬ registered.isEmpty = true ∧ ¬ (unitWeights permissioned).isEmpty = true := by
    simp [hreg, hper, unitWeights_eq_nil]
  simp only [selectSeats, if_pos hboth, hselected, hfrom, bind, Except.bind]

theorem seatsExact_both (hreg : registered ≠ []) (hper : permissioned ≠ [])
    (hpos : ∃ c ∈ registered, 0 < c.2) (hsum : (registered.map Prod.snd).sum < 2 ^ 112)
    (hlen : permissioned.length < 2 ^ 112) :
    SeatsExact r p registered permissioned (selectAuthorities lib r p registered permissioned seed) := by
  obtain ⟨fromRegistered, hselected, hcount, hsub⟩ := weighted_of_pos hpos hsum r (lib.fromSeed seed)
  obtain ⟨fromPermissioned, hseats, hcount', hsub'⟩ := selectSeats_both hreg hper hlen hselected
  obtain ⟨committee, hperm, hresult⟩ := selectAuthorities_of_seats hseats
  have hsome : ¬ (fromRegistered ++ fromPermissioned = [] ∧ p + r ≠ 0) := by
    rintro ⟨hnil, hne⟩
    obtain ⟨rfl, rfl⟩ := List.append_eq_nil_iff.mp hnil
    have hr : r = 0 := UInt16.toNat_inj.mp hcount.symm
    have hp : p = 0 := UInt16.toNat_inj.mp hcount'.symm
    exact hne (by rw [hr, hp]; rfl)
  rw [hresult, if_neg hsome]
  refine ⟨fun _ _ => ⟨committee, rfl, ?_, fun _ _ => ⟨_, _, hperm, hcount, hcount', hsub, hsub'⟩⟩,
    fun h => nomatch h⟩
  rw [hperm.length_eq, List.length_append, hcount, hcount']

theorem seatsExact_no_weight (hreg : registered ≠ []) (hper : permissioned ≠ [])
    (hzero : ∀ c ∈ registered, c.2 = 0) (hlen : permissioned.length < 2 ^ 112) :
    SeatsExact r p registered permissioned (selectAuthorities lib r p registered permissioned seed) ↔
      ¬ (p = 0 ∧ 0 < r) := by
  obtain ⟨fromPermissioned, hseats, hcount, -⟩ :=
    selectSeats_both hreg hper hlen (weighted_of_zero hzero r (lib.fromSeed seed))
  rw [List.nil_append] at hseats
  obtain ⟨committee, hperm, hresult⟩ := selectAuthorities_of_seats hseats
  have hnone : (fromPermissioned = [] ∧ p + r ≠ 0) ↔ p = 0 ∧ 0 < r := by
    have hnil : fromPermissioned = [] ↔ p = 0 := by
      rw [← List.length_eq_zero_iff, hcount, ← UInt16.toNat_inj]
      rfl
    rw [hnil, UInt16.pos_iff_ne_zero]
    refine and_congr_right fun hp => ?_
    rw [hp, UInt16.zero_add]
  have hnopos : ¬ ∃ c ∈ registered, 0 < c.2 := by
    rintro ⟨c, hc, hpos⟩
    exact hpos.ne' (hzero c hc)
  rw [hresult]
  constructor
  · rintro h hp
    rw [if_pos (hnone.mpr hp)] at h
    exact hper (h.2 rfl).2.2
  · intro hp
    rw [if_neg fun h => hp (hnone.mp h)]
    exact ⟨fun _ hfill => absurd (hfill hreg) hnopos, fun h => nomatch h⟩

theorem seatsExact_nobody (hzero : ∀ c ∈ registered, c.2 = 0) (hper : permissioned = []) :
    SeatsExact r p registered permissioned (selectAuthorities lib r p registered permissioned seed) := by
  have hseats : selectSeats lib r p registered (unitWeights permissioned) (lib.fromSeed seed) =
      .ok [] := by
    subst hper
    unfold selectSeats
    split
    case isTrue h => exact absurd rfl h.2
    case isFalse =>
      split
      · exact weighted_of_zero (by simp [unitWeights]) _ _
      · exact weighted_of_zero hzero _ _
  obtain ⟨committee, -, hresult⟩ := selectAuthorities_of_seats hseats
  refine ⟨fun hne hfill => ?_, fun hnone => ⟨?_, hzero, hper⟩⟩
  · obtain ⟨c, hc, hpos⟩ := hfill (hne.resolve_right fun h => h hper)
    exact absurd (hzero c hc) hpos.ne'
  · rw [hresult] at hnone
    by_contra hle
    have hr : r = 0 := UInt16.toNat_inj.mp (by simp; omega)
    have hp : p = 0 := UInt16.toNat_inj.mp (by simp; omega)
    simp [hr, hp] at hnone

theorem seatsExact_registered (hper : permissioned = []) (hpos : ∃ c ∈ registered, 0 < c.2)
    (hsum : (registered.map Prod.snd).sum < 2 ^ 112) :
    SeatsExact r p registered permissioned (selectAuthorities lib r p registered permissioned seed) ↔
      r.toNat + p.toNat < 2 ^ 16 := by
  have hreg : registered ≠ [] := by
    rintro rfl
    simp at hpos
  obtain ⟨selected, hselected, hcount, -⟩ := weighted_of_pos hpos hsum (p + r) (lib.fromSeed seed)
  refine seatsExact_one_list (.inr hper) (.inl hreg) (fun _ => hpos) ?_ hcount
  simp [selectSeats, unitWeights_eq_nil, hper, hreg, hselected]

theorem seatsExact_permissioned (hreg : registered = []) (hper : permissioned ≠ [])
    (hlen : permissioned.length < 2 ^ 112) :
    SeatsExact r p registered permissioned (selectAuthorities lib r p registered permissioned seed) ↔
      r.toNat + p.toNat < 2 ^ 16 := by
  obtain ⟨selected, hselected, hcount, -⟩ :=
    weighted_of_pos (unitWeights_pos hper) (unitWeights_sum.trans_lt hlen) (p + r) (lib.fromSeed seed)
  refine seatsExact_one_list (.inl hreg) (.inr hper) (fun h => absurd hreg h) ?_ hcount
  simp [selectSeats, hreg, hselected]

end

/-- The selection gives exactly the seats that the D-parameter asks for, unless one list has to fill a
number of seats that wraps around, or all seats are for registered candidates without weight. -/
theorem seats_exact_iff (lib : RandomLibrary Seed) (r p : UInt16) (registered : List (SC × Nat))
    (permissioned : List SC) (seed : Seed) (hsum : (registered.map Prod.snd).sum < 2 ^ 112)
    (hlen : permissioned.length < 2 ^ 112) :
    SeatsExact r p registered permissioned (selectAuthorities lib r p registered permissioned seed) ↔
      ¬ Overflows r p registered permissioned ∧ ¬ Starves r p registered permissioned := by
  have hzero : (¬ ∃ c ∈ registered, 0 < c.2) → ∀ c ∈ registered, c.2 = 0 := by simp
  by_cases hper : permissioned = []
  · have hstarve : ¬ Starves r p registered permissioned := fun h => h.permissioned_ne hper
    by_cases hpos : ∃ c ∈ registered, 0 < c.2
    · rw [seatsExact_registered hper hpos hsum, ← Nat.not_le]
      exact ⟨fun h => ⟨fun ho => h ho.seats, hstarve⟩, fun h hle => h.1 ⟨.inr ⟨hper, hpos⟩, hle⟩⟩
    · refine iff_of_true (seatsExact_nobody (hzero hpos) hper) ⟨fun ho => ?_, hstarve⟩
      exact ho.one_list.elim (fun h => h.2 hper) fun h => hpos h.2
  · by_cases hreg : registered = []
    · have hstarve : ¬ Starves r p registered permissioned := fun h => h.registered_ne hreg
      rw [seatsExact_permissioned hreg hper hlen, ← Nat.not_le]
      exact ⟨fun h => ⟨fun ho => h ho.seats, hstarve⟩, fun h hle => h.1 ⟨.inl ⟨hreg, hper⟩, hle⟩⟩
    · have hoverflow : ¬ Overflows r p registered permissioned := fun ho =>
        ho.one_list.elim (fun h => hreg h.1) fun h => hper h.1
      by_cases hpos : ∃ c ∈ registered, 0 < c.2
      · refine iff_of_true (seatsExact_both hreg hper hpos hsum hlen) ⟨hoverflow, fun hs => ?_⟩
        obtain ⟨c, hc, hcpos⟩ := hpos
        exact hcpos.ne' (hs.no_weight c hc)
      · rw [seatsExact_no_weight hreg hper (hzero hpos) hlen]
        exact ⟨fun h => ⟨hoverflow, fun hs => h ⟨hs.permissionedSeats_eq, hs.registeredSeats_pos⟩⟩,
          fun h hs => h.2 ⟨hreg, hper, hzero hpos, hs.1, hs.2⟩⟩

/-- A generator that always draws the first candidate and leaves the order. -/
def sampleLibrary (Seed : Type) : RandomLibrary Seed where
  Rng := Seed
  fromSeed := id
  getSeed := id
  randomRange := fun rng _ => (0, rng)
  randomRange_lt := fun _ _ hpos => hpos
  shuffle := fun l _ => l
  shuffle_perm := fun l _ => List.Perm.refl l

theorem seats_exact_iff_sample :
    SeatsExact 2 1 [(10, 3), (11, 1)] [20]
      (selectAuthorities (sampleLibrary Unit) 2 1 [(10, 3), (11, 1)] [20] ()) :=
  (seats_exact_iff (sampleLibrary Unit) 2 1 [(10, 3), (11, 1)] [20] () (by decide) (by decide)).mpr
    ⟨fun h => by simpa using h.one_list, fun h => by simpa using h.no_weight⟩

/-- A sum of 65536 seats gives an empty committee, and a seat for a registered candidate without weight
is not given to a permissioned one. -/
theorem seats_not_exact :
    selectAuthorities (sampleLibrary Unit) 65535 1 [] [20] () = .ok (some []) ∧
      ¬ SeatsExact 65535 1 [] [20] (selectAuthorities (sampleLibrary Unit) 65535 1 [] [20] ()) ∧
      selectAuthorities (sampleLibrary Unit) 1 0 [(10, 0)] [20] () = .ok none ∧
      ¬ SeatsExact 1 0 [(10, 0)] [20] (selectAuthorities (sampleLibrary Unit) 1 0 [(10, 0)] [20] ()) := by
  have hwrapped : selectAuthorities (sampleLibrary Unit) 65535 1 [] [20] () = .ok (some []) := by decide
  have hstarved : selectAuthorities (sampleLibrary Unit) 1 0 [(10, 0)] [20] () = .ok none := by decide
  refine ⟨hwrapped, fun h => ?_, hstarved, fun h => ?_⟩
  · obtain ⟨committee, heq, hall, -⟩ := h.1 (.inr (by decide)) (fun hne => absurd rfl hne)
    rw [hwrapped] at heq
    cases heq
    exact absurd hall (by decide)
  · exact absurd (h.2 hstarved).2.2 (by decide)

end AriadneV2

/-! ## Guaranteed assignment -/

/-- **Guaranteed assignment is fair and total**: for every random stream all seats are filled, by candidates of
positive weight only, and every candidate has the whole part of its share. -/
theorem guaranteed_assignment_fair (lib : RandomLibrary Seed) (candidates : List (SC × Nat)) (n : UInt16)
    (rng : lib.Rng) (hpos : 0 < (candidates.map Prod.snd).sum)
    (hfit : (candidates.map Prod.snd).sum * n.toNat < 2 ^ 128) :
    ∃ committee, weightedWithGuaranteedAssignment lib candidates n rng = .ok committee ∧
      committee.length = n.toNat ∧
      (∀ c ∈ committee, ∃ w, 0 < w ∧ (c, w) ∈ candidates) ∧
      ∀ c w, (c, w) ∈ candidates → w * n.toNat / (candidates.map Prod.snd).sum ≤ committee.count c := by
  obtain ⟨committee, hcommittee, hfair⟩ := weighted_fair hpos n hfit rng
  exact ⟨committee, hcommittee, hfair.length, hfair.positive, fun c w hc => hfair.whole (c, w) hc⟩

/-- Five seats for weights 3 and 1 and a candidate without weight. -/
theorem guaranteed_assignment_fair_three_to_one :
    ∃ committee, weightedWithGuaranteedAssignment (AriadneV2.sampleLibrary Unit)
        [(10, 3), (11, 1), (12, 0)] 5 () = .ok committee ∧
      committee.length = 5 ∧ 3 ≤ committee.count 10 ∧ 1 ≤ committee.count 11 := by
  obtain ⟨committee, hcommittee, hlen, -, hwhole⟩ := guaranteed_assignment_fair
    (AriadneV2.sampleLibrary Unit) [(10, 3), (11, 1), (12, 0)] 5 () (by decide) (by decide)
  exact ⟨committee, hcommittee, hlen, hwhole 10 3 (by decide), hwhole 11 1 (by decide)⟩

/-! ## The selection from observed candidates -/

structure DParameter where
  numPermissionedCandidates : UInt16
  numRegisteredCandidates : UInt16
deriving DecidableEq

structure AuthoritySelectionInputs (Registration Permissioned : Type) where
  dParameter : DParameter
  permissionedCandidates : List Permissioned
  registeredCandidates : List Registration
  epochNonce : Nat

/-- `seed_from_nonce_and_sc_epoch`. -/
def seedFromNonceAndScEpoch (epochNonce partnerChainEpochNumber : Nat) : Nat :=
  (epochNonce + partnerChainEpochNumber) % 2 ^ 256

structure CandidateFilters (Registration Permissioned SC : Type) where
  filterTrustlessCandidatesRegistrations : List Registration → List (SC × Nat)
  filterInvalidPermissionedCandidates : List Permissioned → List SC

variable {Registration Permissioned Member : Type}

/-- `select_authorities` of the runtime's crate, cut off at the largest committee. -/
def selectAuthorities (lib : RandomLibrary Nat) (filters : CandidateFilters Registration Permissioned SC)
    (toMember : SC → Member) (maxAuthorities : Nat)
    (input : AuthoritySelectionInputs Registration Permissioned) (sidechainEpoch : Nat) :
    Except Panic (Option (List Member)) := do
  let selected ← AriadneV2.selectAuthorities lib input.dParameter.numRegisteredCandidates
    input.dParameter.numPermissionedCandidates
    (filters.filterTrustlessCandidatesRegistrations input.registeredCandidates)
    (filters.filterInvalidPermissionedCandidates input.permissionedCandidates)
    (seedFromNonceAndScEpoch input.epochNonce sidechainEpoch)
  .ok (selected.map fun committee => (committee.map toMember).take maxAuthorities)

end MidnightNode.Committee
