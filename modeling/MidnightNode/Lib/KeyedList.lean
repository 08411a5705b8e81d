import Mathlib

/-!
# Lists of values with keys

A map as a list of pairs, of which the first with a key counts. What is done to every value can fail, and
then the whole fails.
-/

namespace MidnightNode.KeyedList

universe u v

variable {κ : Type u} {α β γ : Type v}

/-- The value of a key is replaced. -/
def insertKey [DecidableEq κ] (k : κ) (a : α) (l : List (κ × α)) : List (κ × α) :=
  (k, a) :: l.filter (·.1 ≠ k)

def mapValues (f : κ → α → β) (l : List (κ × α)) : List (κ × β) := l.map fun x => (x.1, f x.1 x.2)

def mapValuesM (f : κ → α → Option β) (l : List (κ × α)) : Option (List (κ × β)) :=
  l.mapM fun x => (f x.1 x.2).map (x.1, ·)

section

variable {f : κ → α → Option β} {g : κ → β → Option γ} {l : List (κ × α)} {l' : List (κ × β)}

theorem mapValuesM_cons (f : κ → α → Option β) (x : κ × α) (l : List (κ × α)) :
    mapValuesM f (x :: l) =
      (f x.1 x.2).bind fun b => (mapValuesM f l).map ((x.1, b) :: ·) := by
  rw [mapValuesM, List.mapM_cons, ← mapValuesM]
  cases f x.1 x.2 with
  | none => rfl
  | some b => cases mapValuesM f l <;> rfl

theorem exists_mapValuesM_eq (h : ∀ x ∈ l, ∃ b, f x.1 x.2 = some b) : ∃ l', mapValuesM f l = some l' := by
  induction l with
  | nil => exact ⟨[], rfl⟩
  | cons x l ih =>
    obtain ⟨b, hb⟩ := h x List.mem_cons_self
    obtain ⟨l', hl'⟩ := ih fun y hy => h y (List.mem_cons_of_mem _ hy)
    exact ⟨(x.1, b) :: l', by rw [mapValuesM_cons, hb, hl']; rfl⟩

theorem of_mapValuesM (h : mapValuesM f l = some l') : ∀ x ∈ l, ∃ b, f x.1 x.2 = some b := by
  induction l generalizing l' with
  | nil => exact fun x hx => nomatch hx
  | cons x l ih =>
    rw [mapValuesM_cons] at h
    obtain ⟨b, hb, h⟩ := Option.bind_eq_some_iff.mp h
    obtain ⟨rest, hrest, rfl⟩ := Option.map_eq_some_iff.mp h
    intro y hy
    rcases List.mem_cons.mp hy with rfl | hy
    · exact ⟨b, hb⟩
    · exact ih hrest y hy

theorem mem_mapValuesM (h : mapValuesM f l = some l') {y : κ × β} (hy : y ∈ l') :
    ∃ x ∈ l, y.1 = x.1 ∧ f x.1 x.2 = some y.2 := by
  induction l generalizing l' with
  | nil =>
    cases h
    cases hy
  | cons x l ih =>
    rw [mapValuesM_cons] at h
    obtain ⟨b, hb, h⟩ := Option.bind_eq_some_iff.mp h
    obtain ⟨rest, hrest, rfl⟩ := Option.map_eq_some_iff.mp h
    rcases List.mem_cons.mp hy with rfl | hy
    · exact ⟨x, List.mem_cons_self, rfl, hb⟩
    · obtain ⟨z, hz, hyz⟩ := ih hrest hy
      exact ⟨z, List.mem_cons_of_mem _ hz, hyz⟩

/-- Two rounds are one. -/
theorem mapValuesM_bind (f : κ → α → Option β) (g : κ → β → Option γ) (l : List (κ × α)) :
    (mapValuesM f l).bind (mapValuesM g) = mapValuesM (fun k a => (f k a).bind (g k)) l := by
  induction l with
  | nil => rfl
  | cons x l ih =>
    rw [mapValuesM_cons, mapValuesM_cons, ← ih]
    cases f x.1 x.2 with
    | none => rfl
    | some b =>
      cases mapValuesM f l with
      | none =>
        simp only [Option.bind_some, Option.map_none, Option.bind_none]
        cases g x.1 b <;> rfl
      | some l' => exact mapValuesM_cons g (x.1, b) l'

theorem mapValuesM_mapValues (f : κ → α → β) (g : κ → β → Option γ) (l : List (κ × α)) :
    mapValuesM g (mapValues f l) = mapValuesM (fun k a => g k (f k a)) l := by
  induction l with
  | nil => rfl
  | cons x l ih =>
    rw [mapValuesM_cons, ← ih]
    exact mapValuesM_cons g (x.1, f x.1 x.2) (mapValues f l)

theorem mapValuesM_some (f : κ → α → β) (l : List (κ × α)) :
    mapValuesM (fun k a => some (f k a)) l = some (mapValues f l) := by
  induction l with
  | nil => rfl
  | cons x l ih =>
    rw [mapValuesM_cons, ih]
    rfl

theorem mapValues_self (f : κ → α → α) (h : ∀ k a, f k a = a) (l : List (κ × α)) : mapValues f l = l := by
  rw [mapValues]
  conv_rhs => rw [← List.map_id l]
  exact List.map_congr_left fun x _ => by rw [h]; rfl

end

/-! ## Keys -/

theorem map_fst_mapValues (f : κ → α → β) (l : List (κ × α)) :
    (mapValues f l).map Prod.fst = l.map Prod.fst := by
  rw [mapValues, List.map_map]
  rfl

theorem map_fst_mapValuesM {f : κ → α → Option β} {l : List (κ × α)} {l' : List (κ × β)}
    (h : mapValuesM f l = some l') : l'.map Prod.fst = l.map Prod.fst := by
  induction l generalizing l' with
  | nil =>
    cases h
    rfl
  | cons x l ih =>
    rw [mapValuesM_cons] at h
    obtain ⟨b, -, h⟩ := Option.bind_eq_some_iff.mp h
    obtain ⟨rest, hrest, rfl⟩ := Option.map_eq_some_iff.mp h
    exact congrArg (x.1 :: ·) (ih hrest)

theorem nodup_insertKey [DecidableEq κ] {l : List (κ × α)} (h : (l.map Prod.fst).Nodup) (k : κ) (a : α) :
    ((insertKey k a l).map Prod.fst).Nodup := by
  refine List.nodup_cons.mpr ⟨fun hmem => ?_, h.sublist (List.filter_sublist.map _)⟩
  obtain ⟨x, hx, hxk⟩ := List.mem_map.mp hmem
  exact absurd hxk (by simpa using (List.mem_filter.mp hx).2)

theorem mem_keys_insertKey [DecidableEq κ] {k k' : κ} {a : α} {l : List (κ × α)} :
    k' ∈ (insertKey k a l).map Prod.fst ↔ k' = k ∨ k' ∈ l.map Prod.fst := by
  rw [insertKey, List.map_cons, List.mem_cons]
  refine or_congr_right' fun hne => ?_
  simp only [List.mem_map, List.mem_filter]
  constructor
  · rintro ⟨x, ⟨hx, -⟩, rfl⟩
    exact ⟨x, hx, rfl⟩
  · rintro ⟨x, hx, rfl⟩
    exact ⟨x, ⟨hx, by simpa using hne⟩, rfl⟩

/-! ## Lookup -/

section

variable [DecidableEq κ] {k k' : κ} {a : α} {l : List (κ × α)}

@[simp] theorem lookup_insertKey_self (k : κ) (a : α) (l : List (κ × α)) :
    (insertKey k a l).lookup k = some a := by
  simp [insertKey]

theorem lookup_filter_ne (h : k' ≠ k) (l : List (κ × α)) :
    (l.filter (·.1 ≠ k)).lookup k' = l.lookup k' := by
  induction l with
  | nil => rfl
  | cons x l ih =>
    by_cases hx : x.1 = k
    · rw [List.filter_cons_of_neg (by simpa using hx), ih, List.lookup_cons,
        beq_false_of_ne (hx ▸ h)]
    · rw [List.filter_cons_of_pos (by simpa using hx), List.lookup_cons, List.lookup_cons, ih]

theorem lookup_insertKey_ne (h : k' ≠ k) (a : α) (l : List (κ × α)) :
    (insertKey k a l).lookup k' = l.lookup k' := by
  rw [insertKey, List.lookup_cons, beq_false_of_ne h]
  exact lookup_filter_ne h l

/-- Of lists with different keys, one after the other, the elements of a key are a list. -/
theorem filter_flatMap_key {β : Type*} {keys : List κ} (hnodup : keys.Nodup) {g : κ → List β} {key : β → κ}
    (hkey : ∀ k ∈ keys, ∀ x ∈ g k, key x = k) (k : κ) :
    (keys.flatMap g).filter (fun x => key x = k) = if k ∈ keys then g k else [] := by
  induction keys with
  | nil => rfl
  | cons k' keys ih =>
    obtain ⟨hk', hnodup⟩ := List.nodup_cons.mp hnodup
    obtain ⟨hfirst, hkey⟩ := List.forall_mem_cons.mp hkey
    rw [List.flatMap_cons, List.filter_append, ih hnodup hkey]
    by_cases hk : k = k'
    · subst hk
      rw [List.filter_eq_self.mpr fun x hx => decide_eq_true (hfirst x hx), if_neg hk', List.append_nil,
        if_pos List.mem_cons_self]
    · rw [List.filter_eq_nil_iff.mpr fun x hx hx' => hk ((of_decide_eq_true hx').symm.trans (hfirst x hx))]
      simp [hk]

theorem mem_of_lookup (h : l.lookup k = some a) : (k, a) ∈ l := by
  induction l with
  | nil => cases h
  | cons x l ih =>
    rw [List.lookup_cons] at h
    by_cases hx : k = x.1
    · rw [beq_iff_eq.mpr hx] at h
      cases h
      rw [hx]
      exact List.mem_cons_self
    · rw [beq_false_of_ne hx] at h
      exact List.mem_cons_of_mem _ (ih h)

theorem lookup_of_mem (hnodup : (l.map Prod.fst).Nodup) (h : (k, a) ∈ l) : l.lookup k = some a := by
  induction l with
  | nil => cases h
  | cons x l ih =>
    obtain ⟨hx, hnodup⟩ := List.nodup_cons.mp hnodup
    rcases List.mem_cons.mp h with rfl | h
    · simp
    · have hne : k ≠ x.1 := by
        rintro rfl
        exact hx (List.mem_map.mpr ⟨_, h, rfl⟩)
      rw [List.lookup_cons, beq_false_of_ne hne]
      exact ih hnodup h

theorem lookup_filter_key (p : κ → Bool) (k : κ) (l : List (κ × α)) :
    (l.filter fun x => p x.1).lookup k = if p k then l.lookup k else none := by
  induction l with
  | nil => simp
  | cons x l ih =>
    rw [List.filter_cons, List.lookup_cons]
    by_cases hk : k = x.1
    · subst hk
      cases hp : p x.1 with
      | true => rw [if_pos rfl, if_pos rfl, List.lookup_cons, beq_self_eq_true]
      | false =>
        rw [hp] at ih
        simpa using ih
    · rw [beq_false_of_ne hk, ← ih]
      cases p x.1 with
      | true => rw [if_pos rfl, List.lookup_cons, beq_false_of_ne hk]
      | false => rfl

theorem lookup_mapValues (f : κ → α → β) (k : κ) (l : List (κ × α)) :
    (mapValues f l).lookup k = (l.lookup k).map (f k) := by
  induction l with
  | nil => rfl
  | cons x l ih =>
    rw [mapValues, List.map_cons, ← mapValues, List.lookup_cons, List.lookup_cons, ih]
    by_cases hx : k = x.1
    · subst hx
      simp
    · rw [beq_false_of_ne hx]

theorem lookup_mapValuesM {f : κ → α → Option β} {l' : List (κ × β)} (h : mapValuesM f l = some l')
    (k : κ) : l'.lookup k = (l.lookup k).bind (f k) := by
  induction l generalizing l' with
  | nil =>
    cases h
    rfl
  | cons x l ih =>
    rw [mapValuesM_cons] at h
    obtain ⟨b, hb, h⟩ := Option.bind_eq_some_iff.mp h
    obtain ⟨rest, hrest, rfl⟩ := Option.map_eq_some_iff.mp h
    rw [List.lookup_cons, List.lookup_cons, ih hrest]
    by_cases hx : k = x.1
    · subst hx
      simp [hb]
    · rw [beq_false_of_ne hx]

theorem exists_lookup_mapValuesM {f : κ → α → Option β} {l' : List (κ × β)}
    (h : mapValuesM f l = some l') (ha : l.lookup k = some a) :
    ∃ b, f k a = some b ∧ l'.lookup k = some b := by
  obtain ⟨b, hb⟩ := of_mapValuesM h _ (mem_of_lookup ha)
  have hlookup := lookup_mapValuesM h k
  rw [ha, Option.bind_some] at hlookup
  exact ⟨b, hb, hlookup.trans hb⟩

end

end MidnightNode.KeyedList
