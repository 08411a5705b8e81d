import Mathlib

/-!
# Slices of lists that are sorted by a key

A list whose elements carry a key in a linear order, kept in the order of the keys: its half-open
slices (`slice`), the index a binary search finds (`partitionPoint`), the number of distinct keys
and the rank of a key (`numKeys`, `rank`), and the elements of the first few keys (`firstKeys`).
Insertion sort stands for any stable sort; it commutes with `filter`, so a slice of a sorted merge
is the sorted merge of the slices.
-/

namespace MidnightNode.SortedSlice

/-! ## Filters that split a list -/

/-- Two filters that never overlap and never pick elements in the wrong order concatenate. -/
theorem filter_append_filter {l : List α} {p q : α → Bool}
    (hord : l.Pairwise fun x y => q x = true → p y = false)
    (hdisj : ∀ x ∈ l, p x = true → q x = false) :
    l.filter p ++ l.filter q = l.filter fun x => p x || q x := by
  induction l with
  | nil => rfl
  | cons x l ih =>
    rw [List.pairwise_cons] at hord
    have ih := ih hord.2 fun y hy => hdisj y (List.mem_cons_of_mem _ hy)
    cases hp : p x with
    | true => simp [hp, hdisj x List.mem_cons_self hp, ih]
    | false =>
      cases hq : q x with
      | false => simp [hp, hq, ih]
      | true =>
        -- everything after a `q` element fails `p`, so the first filter is empty from here on
        have hnil : l.filter p = [] :=
          List.filter_eq_nil_iff.mpr fun y hy => by simp [hord.1 y hy hq]
        simp only [hnil, List.nil_append] at ih
        simp [hp, hq, hnil, ih]

theorem filter_filter_of_imp {l : List α} {p q : α → Bool}
    (h : ∀ x ∈ l, q x = true → p x = true) : (l.filter p).filter q = l.filter q := by
  rw [List.filter_filter]
  exact List.filter_congr fun x hx => (Bool.eq_self_and.mpr (h x hx)).symm

/-- Sublists of two lists concatenate to their concatenation only when they are the lists. -/
theorem append_eq_append_iff_of_sublist {l m a b : List α} (hl : l.Sublist a) (hm : m.Sublist b) :
    l ++ m = a ++ b ↔ l = a ∧ m = b := by
  constructor
  · intro h
    have hlen := congrArg List.length h
    rw [List.length_append, List.length_append] at hlen
    have hla := hl.length_le
    have hmb := hm.length_le
    exact ⟨hl.eq_of_length (by omega), hm.eq_of_length (by omega)⟩
  · rintro ⟨rfl, rfl⟩
    rfl

/-- The number of elements in front of the first one that fails `p`: what `partition_point`
returns on a slice that is partitioned by `p`. -/
def partitionPoint (p : α → Bool) (l : List α) : Nat := (l.takeWhile p).length

theorem take_partitionPoint (p : α → Bool) (l : List α) :
    l.take (partitionPoint p l) = l.takeWhile p :=
  (List.prefix_iff_eq_take.mp (List.takeWhile_prefix p)).symm

theorem drop_partitionPoint (p : α → Bool) (l : List α) :
    l.drop (partitionPoint p l) = l.dropWhile p := by
  have h : l.takeWhile p ++ l.drop (partitionPoint p l) = l.takeWhile p ++ l.dropWhile p := by
    rw [← take_partitionPoint, List.take_append_drop, take_partitionPoint,
      List.takeWhile_append_dropWhile]
  exact List.append_cancel_left h

theorem takeWhile_eq_filter {l : List α} {p : α → Bool}
    (h : l.Pairwise fun x y => p y = true → p x = true) : l.takeWhile p = l.filter p := by
  induction l with
  | nil => rfl
  | cons x l ih =>
    rw [List.pairwise_cons] at h
    cases hp : p x with
    | true => simp [hp, ih h.2]
    | false =>
      have hnil : l.filter p = [] := List.filter_eq_nil_iff.mpr fun y hy hpy => by
        simp [h.1 y hy hpy] at hp
      simp [hp, hnil]

theorem filter_append_filter_not {l : List α} {p : α → Bool}
    (h : l.Pairwise fun x y => p y = true → p x = true) : l.filter p ++ l.filter (!p ·) = l := by
  rw [filter_append_filter (h.imp fun hxy hx => ?_) (by simp)]
  · simp
  · exact Bool.eq_false_iff.mpr fun hy => by simp [hxy hy] at hx

theorem dropWhile_eq_filter {l : List α} {p : α → Bool}
    (h : l.Pairwise fun x y => p y = true → p x = true) : l.dropWhile p = l.filter (!p ·) := by
  have hsplit : l.takeWhile p ++ l.dropWhile p = l.takeWhile p ++ l.filter (!p ·) := by
    rw [List.takeWhile_append_dropWhile, takeWhile_eq_filter h, filter_append_filter_not h]
  exact List.append_cancel_left hsplit

/-! ## Stable sorting -/

section Stable
variable {r : α → α → Prop} [DecidableRel r]

theorem filter_orderedInsert [IsTrans α r] {p : α → Bool} {a : α} {l : List α}
    (hl : l.Pairwise r) :
    (l.orderedInsert r a).filter p =
      if p a then (l.filter p).orderedInsert r a else l.filter p := by
  induction l with
  | nil => cases hp : p a <;> simp [hp]
  | cons b l ih =>
    rw [List.pairwise_cons] at hl
    have ih := ih hl.2
    by_cases hab : r a b
    · have hfront : ∀ m : List α, (∀ c ∈ m, r a c) → m.orderedInsert r a = a :: m := by
        intro m hm
        cases m with
        | nil => rfl
        | cons c m => rw [List.orderedInsert, if_pos (hm c List.mem_cons_self)]
      have hall : ∀ c ∈ (b :: l).filter p, r a c := by
        intro c hc
        rcases List.mem_cons.mp (List.mem_of_mem_filter hc) with rfl | hc
        · exact hab
        · exact IsTrans.trans _ _ _ hab (hl.1 c hc)
      rw [List.orderedInsert, if_pos hab, List.filter_cons, hfront _ hall]
    · rw [List.orderedInsert, if_neg hab]
      cases hb : p b with
      | false => simp only [hb, List.filter_cons, Bool.false_eq_true, if_false, ih]
      | true =>
        cases hp : p a <;> simp [hb, hp, ih, hab]

/-- Elements that are not equivalent are sorted into one list. -/
theorem insertionSort_eq_of_perm [IsTrans α r] [Std.Total r] {l l' : List α}
    (hanti : ∀ a ∈ l, ∀ b ∈ l, r a b → r b a → a = b) (hperm : l.Perm l') :
    l.insertionSort r = l'.insertionSort r := by
  have hsort := List.perm_insertionSort r l
  have hsort' := (List.perm_insertionSort r l').trans hperm.symm
  refine List.Perm.eq_of_pairwise (fun a b ha hb => ?_) (List.pairwise_insertionSort r l)
    (List.pairwise_insertionSort r l') (hsort.trans hsort'.symm)
  exact hanti a (hsort.subset ha) b (hsort'.subset hb)

/-- A stable sort of the elements that pass `p` is the sorted list restricted to them. -/
theorem filter_insertionSort [IsTrans α r] [Std.Total r] (p : α → Bool) (l : List α) :
    (l.insertionSort r).filter p = (l.filter p).insertionSort r := by
  induction l with
  | nil => rfl
  | cons a l ih =>
    rw [List.insertionSort_cons, filter_orderedInsert (List.pairwise_insertionSort r l), ih]
    cases hp : p a <;> simp [hp]

theorem insertionSort_sublist [IsTrans α r] [Std.Total r] {l m : List α} (h : l.Sublist m) :
    (l.insertionSort r).Sublist (m.insertionSort r) := by
  induction h with
  | slnil => exact .refl _
  | cons a _ ih => exact ih.trans (List.sublist_orderedInsert a _)
  | cons_cons a _ ih => exact ih.orderedInsert_sublist a (List.pairwise_insertionSort r _)

end Stable

/-! ## Keys -/

section Keyed
variable {κ : Type*} [LinearOrder κ] (key : α → κ)

/-- The keys never decrease along the list. -/
def SortedBy (l : List α) : Prop := l.Pairwise fun x y => key x ≤ key y

/-- The elements with a key in `[a, b)`, in the order of the list. -/
def slice (a b : κ) (l : List α) : List α := l.filter fun x => decide (a ≤ key x ∧ key x < b)

/-- The number of distinct keys of the list. -/
def numKeys (l : List α) : Nat := (l.map key).toFinset.card

/-- The number of distinct keys of the list strictly below `k`. -/
def rank (l : List α) (k : κ) : Nat := ((l.map key).toFinset.filter (· < k)).card

/-- The elements that belong to the `n` smallest keys of the list. -/
def firstKeys (n : Nat) (l : List α) : List α := l.filter fun x => decide (rank key l (key x) < n)

end Keyed

section Keyed
variable {κ : Type*} [LinearOrder κ] {key : α → κ} {l m : List α} {a b c : κ}

theorem SortedBy.filter (h : SortedBy key l) (p : α → Bool) : SortedBy key (l.filter p) :=
  List.Pairwise.filter p h

theorem SortedBy.append_iff :
    SortedBy key (l ++ m) ↔
      SortedBy key l ∧ SortedBy key m ∧ ∀ x ∈ l, ∀ y ∈ m, key x ≤ key y :=
  List.pairwise_append

theorem SortedBy.head_le {x : α} (h : SortedBy key (x :: l)) : ∀ y ∈ x :: l, key x ≤ key y := by
  intro y hy
  rcases List.mem_cons.mp hy with rfl | hy
  · exact le_rfl
  · exact List.rel_of_pairwise_cons h hy

theorem SortedBy.le_last {x : α} (h : SortedBy key (l ++ [x])) :
    ∀ y ∈ l ++ [x], key y ≤ key x := by
  intro y hy
  rcases List.mem_append.mp hy with hy | hy
  · exact (append_iff.mp h).2.2 y hy x List.mem_cons_self
  · rw [List.mem_singleton.mp hy]

@[simp] theorem mem_slice {x : α} : x ∈ slice key a b l ↔ x ∈ l ∧ a ≤ key x ∧ key x < b := by
  simp [slice]

theorem slice_append (l m : List α) :
    slice key a b (l ++ m) = slice key a b l ++ slice key a b m :=
  List.filter_append ..

theorem SortedBy.slice (h : SortedBy key l) : SortedBy key (slice key a b l) := h.filter _

theorem slice_perm (h : l.Perm m) : (SortedSlice.slice key a b l).Perm (slice key a b m) :=
  h.filter _

theorem slice_eq_self (h : ∀ x ∈ l, a ≤ key x ∧ key x < b) : slice key a b l = l :=
  List.filter_eq_self.mpr fun x hx => by simpa using h x hx

theorem slice_eq_nil_iff : slice key a b l = [] ↔ ∀ x ∈ l, a ≤ key x → b ≤ key x := by
  simp [slice, List.filter_eq_nil_iff]

theorem slice_filter {p : α → Bool} (h : ∀ x ∈ slice key a b l, p x = true) :
    slice key a b (l.filter p) = slice key a b l :=
  filter_filter_of_imp fun x hx hslice => h x (List.mem_filter.mpr ⟨hx, hslice⟩)

/-- A slice that ends between two parts of the list is the first part. -/
theorem slice_append_cut (hl : ∀ x ∈ l, a ≤ key x ∧ key x < b) (hm : ∀ x ∈ m, b ≤ key x) :
    slice key a b (l ++ m) = l := by
  have hnil : slice key a b m = [] := slice_eq_nil_iff.mpr fun x hx _ => hm x hx
  rw [slice_append, slice_eq_self hl, hnil, List.append_nil]

/-- Narrowing a slice: a slice of a slice whose bounds lie inside is the inner slice. -/
theorem slice_slice {d : κ} (ha : a ≤ c) (hb : d ≤ b) :
    slice key c d (slice key a b l) = slice key c d l := by
  refine filter_filter_of_imp fun x _ hx => ?_
  simp only [decide_eq_true_eq] at hx ⊢
  exact ⟨ha.trans hx.1, hx.2.trans_le hb⟩

/-- Consecutive slices of a sorted list concatenate. -/
theorem SortedBy.slice_append_slice (h : SortedBy key l) (hac : a ≤ c) (hcb : c ≤ b) :
    SortedSlice.slice key a c l ++ SortedSlice.slice key c b l = SortedSlice.slice key a b l := by
  unfold SortedSlice.slice
  rw [filter_append_filter]
  · refine List.filter_congr fun x _ => ?_
    simp only [Bool.or_eq_decide, decide_eq_true_eq, decide_eq_decide]
    constructor
    · rintro (⟨h1, h2⟩ | ⟨h1, h2⟩)
      · exact ⟨h1, h2.trans_le hcb⟩
      · exact ⟨hac.trans h1, h2⟩
    · rintro ⟨h1, h2⟩
      rcases lt_or_ge (key x) c with hc | hc
      · exact .inl ⟨h1, hc⟩
      · exact .inr ⟨hc, h2⟩
  · refine h.imp fun {x y} hxy hx => ?_
    simp only [decide_eq_true_eq, decide_eq_false_iff_not, not_and, not_lt] at hx ⊢
    exact fun _ => hx.1.trans hxy
  · intro x _ hx
    simp only [decide_eq_true_eq, decide_eq_false_iff_not, not_and, not_lt] at hx ⊢
    exact fun hc => absurd hx.2 (not_lt.mpr hc)

theorem SortedBy.pairwise_lt (h : SortedBy key l) (c : κ) :
    l.Pairwise fun x y => decide (key y < c) = true → decide (key x < c) = true := by
  refine h.imp fun {x y} hxy hy => ?_
  simp only [decide_eq_true_eq] at hy ⊢
  exact hxy.trans_lt hy

theorem SortedBy.partitionPoint_lt (h : SortedBy key l) (c : κ) :
    partitionPoint (fun x => decide (key x < c)) l =
      (l.filter fun x => decide (key x < c)).length := by
  rw [partitionPoint, takeWhile_eq_filter (h.pairwise_lt c)]

theorem SortedBy.partitionPoint_mono (h : SortedBy key l) (hab : a ≤ b) :
    partitionPoint (fun x => decide (key x < a)) l ≤
      partitionPoint (fun x => decide (key x < b)) l := by
  rw [h.partitionPoint_lt, h.partitionPoint_lt]
  refine List.Sublist.length_le (List.monotone_filter_right l fun x hx => ?_)
  simp only [decide_eq_true_eq] at hx ⊢
  exact hx.trans_le hab

/-- Cutting a sorted list at the two partition points of a slice gives the slice. -/
theorem SortedBy.drop_take_partitionPoint (h : SortedBy key l) (hab : a ≤ b) :
    (l.take (partitionPoint (fun x => decide (key x < b)) l)).drop
      (partitionPoint (fun x => decide (key x < a)) l) = SortedSlice.slice key a b l := by
  have hcut : (l.filter fun x => decide (key x < b)).filter (fun x => decide (key x < a)) =
      l.filter fun x => decide (key x < a) := by
    refine filter_filter_of_imp fun x _ hx => ?_
    simp only [decide_eq_true_eq] at hx ⊢
    exact hx.trans_le hab
  have hpoint : partitionPoint (fun x => decide (key x < a)) l =
      partitionPoint (fun x => decide (key x < a)) (l.filter fun x => decide (key x < b)) := by
    rw [h.partitionPoint_lt, (h.filter _).partitionPoint_lt, hcut]
  rw [take_partitionPoint, takeWhile_eq_filter (h.pairwise_lt b), hpoint, drop_partitionPoint,
    dropWhile_eq_filter ((h.filter _).pairwise_lt a), List.filter_filter, SortedSlice.slice]
  refine List.filter_congr fun x _ => ?_
  simp only [Bool.decide_and, ← not_lt, decide_not]

/-! ## Counting keys -/

theorem numKeys_append_singleton (l : List α) (x : α) :
    numKeys key (l ++ [x]) = (insert (key x) (l.map key).toFinset).card := by
  simp [numKeys, List.toFinset_append]

theorem numKeys_append_cons_of_lt {x : α} (h : ∀ y ∈ l, key y < key x) :
    numKeys key (l ++ [x]) = numKeys key l + 1 := by
  have hx : key x ∉ (l.map key).toFinset := by
    rw [List.mem_toFinset, List.mem_map]
    rintro ⟨y, hy, he⟩
    exact absurd (h y hy) (by simp [he])
  rw [numKeys_append_singleton, Finset.card_insert_of_notMem hx, numKeys]

theorem numKeys_append_cons_of_mem {x y : α} (hy : y ∈ l) (he : key y = key x) :
    numKeys key (l ++ [x]) = numKeys key l := by
  have hx : key x ∈ (l.map key).toFinset := by
    rw [List.mem_toFinset, List.mem_map]
    exact ⟨y, hy, he⟩
  rw [numKeys_append_singleton, Finset.insert_eq_of_mem hx, numKeys]

theorem numKeys_eq_zero_iff : numKeys key l = 0 ↔ l = [] := by
  simp [numKeys]

theorem numKeys_le_of_subset (h : l ⊆ m) : numKeys key l ≤ numKeys key m := by
  refine Finset.card_le_card fun k hk => ?_
  rw [List.mem_toFinset, List.mem_map] at hk ⊢
  obtain ⟨x, hx, rfl⟩ := hk
  exact ⟨x, h hx, rfl⟩

theorem numKeys_congr_perm (h : l.Perm m) : numKeys key l = numKeys key m :=
  le_antisymm (numKeys_le_of_subset h.subset) (numKeys_le_of_subset h.symm.subset)

/-- The rank of `k` counts the keys of the elements below it. -/
theorem rank_eq_numKeys_filter (k : κ) :
    rank key l k = numKeys key (l.filter fun x => decide (key x < k)) := by
  unfold rank numKeys
  congr 1
  ext j
  simp only [Finset.mem_filter, List.mem_toFinset, List.mem_map, List.mem_filter,
    decide_eq_true_eq]
  constructor
  · rintro ⟨⟨x, hx, rfl⟩, hk⟩
    exact ⟨x, ⟨hx, hk⟩, rfl⟩
  · rintro ⟨x, ⟨hx, hk⟩, rfl⟩
    exact ⟨⟨x, hx, rfl⟩, hk⟩

theorem rank_mono {j k : κ} (h : j ≤ k) : rank key l j ≤ rank key l k := by
  refine Finset.card_le_card fun i hi => ?_
  rw [Finset.mem_filter] at hi ⊢
  exact ⟨hi.1, hi.2.trans_le h⟩

theorem rank_lt_numKeys {x : α} (hx : x ∈ l) : rank key l (key x) < numKeys key l := by
  refine Finset.card_lt_card (Finset.filter_ssubset.mpr ⟨key x, ?_, lt_irrefl _⟩)
  exact List.mem_toFinset.mpr (List.mem_map_of_mem hx)

theorem firstKeys_eq_self {n : Nat} (h : numKeys key l ≤ n) : firstKeys key n l = l :=
  List.filter_eq_self.mpr fun _ hx => decide_eq_true ((rank_lt_numKeys hx).trans_le h)

/-- A prefix that ends where a new key starts holds exactly the elements of its own keys. -/
theorem firstKeys_append_cons {x : α} (hl : ∀ y ∈ l, key y < key x)
    (hm : ∀ y ∈ m, key x ≤ key y) :
    firstKeys key (numKeys key l) (l ++ x :: m) = l := by
  have hrank : ∀ k, k ≤ key x → rank key (l ++ x :: m) k = rank key l k := by
    intro k hk
    rw [rank_eq_numKeys_filter, rank_eq_numKeys_filter, List.filter_append]
    have hnil : (x :: m).filter (fun y => decide (key y < k)) = [] := by
      refine List.filter_eq_nil_iff.mpr fun y hy => ?_
      have : key x ≤ key y := by
        rcases List.mem_cons.mp hy with rfl | hy
        · exact le_rfl
        · exact hm y hy
      simp [hk.trans this]
    rw [hnil, List.append_nil]
  unfold firstKeys
  rw [List.filter_append]
  have hleft : l.filter (fun y => decide (rank key (l ++ x :: m) (key y) < numKeys key l)) = l := by
    refine List.filter_eq_self.mpr fun y hy => decide_eq_true ?_
    rw [hrank _ (hl y hy).le]
    exact rank_lt_numKeys hy
  have hright : (x :: m).filter
      (fun y => decide (rank key (l ++ x :: m) (key y) < numKeys key l)) = [] := by
    refine List.filter_eq_nil_iff.mpr fun y hy => ?_
    have hxy : key x ≤ key y := by
      rcases List.mem_cons.mp hy with rfl | hy
      · exact le_rfl
      · exact hm y hy
    have hx : numKeys key l ≤ rank key (l ++ x :: m) (key x) := by
      rw [hrank _ le_rfl, rank_eq_numKeys_filter,
        List.filter_eq_self.mpr fun z hz => decide_eq_true (hl z hz)]
    simpa using hx.trans (rank_mono hxy)
  rw [hleft, hright, List.append_nil]

/-- Elements that come after `n` keys do not matter for the first `n` keys. -/
theorem firstKeys_eq_of_perm {d : List α} {n : Nat} (hsub : l.Sublist m) (hperm : (l ++ d).Perm m)
    (hd : ∀ x ∈ d, n ≤ rank key l (key x)) : firstKeys key n l = firstKeys key n m := by
  have hrank : ∀ k, rank key m k = rank key (l ++ d) k := fun k => by
    rw [rank_eq_numKeys_filter, rank_eq_numKeys_filter, numKeys_congr_perm (hperm.filter _)]
  have hle : ∀ k, rank key l k ≤ rank key m k := fun k => by
    rw [rank_eq_numKeys_filter, rank_eq_numKeys_filter]
    exact numKeys_le_of_subset ((hsub.filter _).subset)
  have hd' : d.filter (fun x => decide (rank key m (key x) < n)) = [] :=
    List.filter_eq_nil_iff.mpr fun x hx => by simpa using (hd x hx).trans (hle _)
  have hl : l.filter (fun x => decide (rank key m (key x) < n)) = firstKeys key n l := by
    refine List.filter_congr fun x _ => decide_eq_decide.mpr ⟨(hle _).trans_lt, fun hx => ?_⟩
    -- nothing of `d` lies below a key of rank less than `n`
    have hnil : d.filter (fun y => decide (key y < key x)) = [] := by
      refine List.filter_eq_nil_iff.mpr fun y hy hyx => ?_
      exact absurd ((hd y hy).trans (rank_mono (of_decide_eq_true hyx).le)) (not_le.mpr hx)
    rw [hrank, rank_eq_numKeys_filter, List.filter_append, hnil, List.append_nil,
      ← rank_eq_numKeys_filter]
    exact hx
  have hlen := (hperm.filter fun x => decide (rank key m (key x) < n)).length_eq
  rw [List.filter_append, hd', List.append_nil] at hlen
  rw [← hl]
  exact (hsub.filter _).eq_of_length hlen

end Keyed
end MidnightNode.SortedSlice
