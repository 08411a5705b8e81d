import Mathlib

/-!
# Maps kept in the order of their keys

`SortedMap κ α` is a `BTreeMap`: entries in strictly increasing order of their keys, so a key occurs
once and iteration goes in key order.
-/

namespace MidnightNode

structure SortedMap (κ : Type u) [LinearOrder κ] (α : Type v) where
  entries : List (κ × α)
  sorted : entries.Pairwise fun e f => e.1 < f.1

namespace SortedMap

variable {κ : Type u} [LinearOrder κ] {α : Type v}

def empty : SortedMap κ α := ⟨[], .nil⟩

def keys (m : SortedMap κ α) : List κ := m.entries.map Prod.fst

def values (m : SortedMap κ α) : List α := m.entries.map Prod.snd

def find? (m : SortedMap κ α) (k : κ) : Option α :=
  (m.entries.find? fun e => decide (e.1 = k)).map Prod.snd

def erase (m : SortedMap κ α) (k : κ) : SortedMap κ α :=
  ⟨m.entries.filter fun e => decide (e.1 ≠ k), m.sorted.filter _⟩

/-- Write the value `f` makes of the one that is there (`entry`). -/
def alter (m : SortedMap κ α) (k : κ) (f : Option α → α) : SortedMap κ α where
  entries := m.entries.filter (fun e => decide (e.1 < k)) ++
    (k, f (m.find? k)) :: m.entries.filter fun e => decide (k < e.1)
  sorted := by
    rw [List.pairwise_append, List.pairwise_cons]
    refine ⟨m.sorted.filter _, ⟨fun e he => ?_, m.sorted.filter _⟩, fun e he f hf => ?_⟩
    · exact of_decide_eq_true (List.mem_filter.mp he).2
    · have hek : e.1 < k := of_decide_eq_true (List.mem_filter.mp he).2
      rcases List.mem_cons.mp hf with rfl | hf
      · exact hek
      · exact hek.trans (of_decide_eq_true (List.mem_filter.mp hf).2)

theorem unique (m : SortedMap κ α) {k : κ} {a b : α} (ha : (k, a) ∈ m.entries)
    (hb : (k, b) ∈ m.entries) : a = b := by
  have h := m.sorted
  generalize m.entries = l at ha hb h
  induction h with
  | nil => cases ha
  | cons hlt _ ih =>
    rcases List.mem_cons.mp ha with rfl | ha' <;> rcases List.mem_cons.mp hb with hb' | hb'
    · cases hb'
      rfl
    · exact absurd (hlt _ hb') (lt_irrefl _)
    · cases hb'
      exact absurd (hlt _ ha') (lt_irrefl _)
    · exact ih ha' hb'

theorem mem_alter {m : SortedMap κ α} {k k' : κ} {f : Option α → α} {a : α} :
    (k', a) ∈ (m.alter k f).entries ↔
      k' = k ∧ a = f (m.find? k) ∨ k' ≠ k ∧ (k', a) ∈ m.entries := by
  simp only [alter, List.mem_append, List.mem_cons, List.mem_filter, Prod.mk.injEq, decide_eq_true_eq]
  constructor
  · rintro (⟨hmem, hlt⟩ | ⟨rfl, rfl⟩ | ⟨hmem, hlt⟩)
    · exact .inr ⟨hlt.ne, hmem⟩
    · exact .inl ⟨rfl, rfl⟩
    · exact .inr ⟨hlt.ne', hmem⟩
  · rintro (⟨rfl, rfl⟩ | ⟨hne, hmem⟩)
    · exact .inr (.inl ⟨rfl, rfl⟩)
    · rcases lt_or_gt_of_ne hne with hlt | hgt
      · exact .inl ⟨hmem, hlt⟩
      · exact .inr (.inr ⟨hmem, hgt⟩)

/-- Of the entries with one key, the first is kept. -/
def ofList (l : List (κ × α)) : SortedMap κ α := l.foldr (fun e m => m.alter e.1 fun _ => e.2) empty

theorem mem_ofList {l : List (κ × α)} {k : κ} {a : α} :
    (k, a) ∈ (ofList l).entries ↔ l.lookup k = some a := by
  induction l with
  | nil => exact iff_of_false List.not_mem_nil nofun
  | cons e l ih =>
    rw [ofList, List.foldr_cons, ← ofList, mem_alter, ih, List.lookup_cons]
    rcases eq_or_ne k e.1 with heq | hne
    · rw [beq_iff_eq.mpr heq, and_iff_right heq]
      exact ⟨fun h => h.elim (fun ha => ha ▸ rfl) fun h => absurd heq h.1,
        fun h => .inl (Option.some.inj h).symm⟩
    · rw [beq_false_of_ne hne, and_iff_right hne]
      exact or_iff_right fun h => hne h.1

theorem nodup_keys (m : SortedMap κ α) : m.keys.Nodup :=
  List.Pairwise.map Prod.fst (fun _ _ h => h.ne) m.sorted

theorem position_unique (m : SortedMap κ α) {k : κ} {a b : α} {i j : Nat}
    (hi : m.entries[i]? = some (k, a)) (hj : m.entries[j]? = some (k, b)) : i = j := by
  have hkey : ∀ {n : Nat} {c : α}, m.entries[n]? = some (k, c) → m.keys[n]? = some k := by
    intro n c h
    rw [keys, List.getElem?_map, h]
    rfl
  refine (List.getElem?_inj ?_ m.nodup_keys).mp ((hkey hi).trans (hkey hj).symm)
  exact List.getElem?_eq_some_iff.mp (hkey hi) |>.1

end SortedMap
end MidnightNode
