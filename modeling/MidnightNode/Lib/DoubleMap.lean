import Mathlib

/-!
# Double maps

A map keyed by pairs, read by the first key: `iterPrefixValues m a` lists the values under `a`. The
notion everything here serves is that of the *sole* value under a key, and how it moves when an
entry is written or removed: to `0 → 1`, `1 → 2`, `2 → 1` and `1 → 0` entries.
-/

namespace MidnightNode

/-- A finite map keyed by pairs. -/
abbrev DoubleMap (κ₁ : Type u) (κ₂ : Type v) (α : Type w) := AList fun _ : κ₁ × κ₂ => α

namespace DoubleMap

variable {κ₁ : Type u} {κ₂ : Type v} {α : Type w} [DecidableEq κ₁] [DecidableEq κ₂]
variable {m : DoubleMap κ₁ κ₂ α} {a a' : κ₁} {b : κ₂} {v w : α}

/-- The values of the entries whose first key is `a`. -/
def iterPrefixValues (m : DoubleMap κ₁ κ₂ α) (a : κ₁) : List α :=
  (m.entries.filter fun e => decide (e.1.1 = a)).map (·.2)

/-- There is one entry under `a`, and it holds `v`. -/
def Sole (m : DoubleMap κ₁ κ₂ α) (a : κ₁) (v : α) : Prop :=
  ∃ b, m.lookup (a, b) = some v ∧ ∀ b', (a, b') ∈ m → b' = b

theorem iterPrefixValues_eq_singleton_iff : m.iterPrefixValues a = [v] ↔ m.Sole a v := by
  have hnodup : (m.entries.filter fun e => decide (e.1.1 = a)).Nodup :=
    m.nodupKeys.nodup.filter _
  -- an entry list without repetitions is a singleton as soon as its members are
  have hsingle (e) : m.entries.filter (fun e => decide (e.1.1 = a)) = [e] ↔
      ∀ x, x ∈ m.entries ∧ x.1.1 = a ↔ x = e := by
    rw [← List.perm_singleton, List.perm_ext_iff_of_nodup hnodup (List.nodup_singleton e)]
    simp [List.mem_filter]
  unfold iterPrefixValues Sole
  simp only [List.map_eq_singleton_iff, hsingle]
  constructor
  · rintro ⟨⟨⟨a₀, b⟩, v₀⟩, hx, rfl⟩
    obtain ⟨hmem, rfl⟩ := (hx _).mpr rfl
    refine ⟨b, AList.mem_lookup_iff.mpr hmem, fun b' hb' => ?_⟩
    obtain ⟨v', hv'⟩ := Option.isSome_iff_exists.mp (AList.lookup_isSome.mpr hb')
    have heq := (hx ⟨(a₀, b'), v'⟩).mp ⟨AList.mem_lookup_iff.mp hv', rfl⟩
    cases heq
    rfl
  · rintro ⟨b, hb, honly⟩
    refine ⟨⟨(a, b), v⟩, fun x => ⟨?_, ?_⟩, rfl⟩
    · obtain ⟨⟨a₀, b₀⟩, v₀⟩ := x
      rintro ⟨hmem, rfl⟩
      have hv₀ : m.lookup (a₀, b₀) = some v₀ := AList.mem_lookup_iff.mpr hmem
      obtain rfl := honly b₀ (AList.lookup_isSome.mp (by rw [hv₀]; rfl))
      cases hb.symm.trans hv₀
      rfl
    · rintro rfl
      exact ⟨AList.mem_lookup_iff.mp hb, rfl⟩

/-! ## Writing and removing an entry -/

theorem lookup_insert_eq (m : DoubleMap κ₁ κ₂ α) (k k' : κ₁ × κ₂) (v : α) :
    (m.insert k v).lookup k' = if k' = k then some v else m.lookup k' := by
  split
  · subst k'
    exact AList.lookup_insert m
  · exact AList.lookup_insert_ne ‹_›

theorem lookup_erase_eq (m : DoubleMap κ₁ κ₂ α) (k k' : κ₁ × κ₂) :
    (m.erase k).lookup k' = if k' = k then none else m.lookup k' := by
  split
  · subst k'
    exact AList.lookup_erase k m
  · exact AList.lookup_erase_ne ‹_›

/-- What is under `a` decides whether there is a sole value there. -/
theorem Sole.congr {m' : DoubleMap κ₁ κ₂ α} (h : ∀ b, m'.lookup (a, b) = m.lookup (a, b)) :
    m'.Sole a v ↔ m.Sole a v := by
  simp only [Sole, ← AList.lookup_isSome, h]

theorem sole_insert_of_ne (hne : a' ≠ a) : Sole (m.insert (a, b) w) a' v ↔ m.Sole a' v :=
  Sole.congr fun _ => AList.lookup_insert_ne (by simp [hne])

theorem sole_erase_of_ne (hne : a' ≠ a) : Sole (m.erase (a, b)) a' v ↔ m.Sole a' v :=
  Sole.congr fun _ => AList.lookup_erase_ne (by simp [hne])

/-- A second entry under `a` leaves no sole value. -/
theorem Sole.not_sole_insert (h : m.Sole a v) (hb : (a, b) ∉ m) :
    ¬ Sole (m.insert (a, b) w) a v' := by
  obtain ⟨b₀, hv, -⟩ := h
  rintro ⟨b₁, -, honly⟩
  have hmem : (a, b₀) ∈ m := AList.lookup_isSome.mp (by rw [hv]; rfl)
  have h₀ := honly b₀ ((AList.mem_insert m).mpr (.inr hmem))
  have h₁ := honly b ((AList.mem_insert m).mpr (.inl rfl))
  exact hb (by rwa [h₁, ← h₀])

/-- Removing an entry under `a` removes the sole value there, which is its own. -/
theorem Sole.of_erase (h : m.Sole a v) (hb : m.lookup (a, b) = some w) :
    w = v ∧ ∀ v', ¬ Sole (m.erase (a, b)) a v' := by
  obtain ⟨b₀, hv, honly⟩ := h
  have hmem {b v} (hb : m.lookup (a, b) = some v) : (a, b) ∈ m :=
    AList.lookup_isSome.mp (by rw [hb]; rfl)
  obtain rfl := honly b (hmem hb)
  refine ⟨Option.some.inj (hb.symm.trans hv), ?_⟩
  rintro v' ⟨b₁, hv', -⟩
  rw [lookup_erase_eq] at hv'
  split at hv'
  · cases hv'
  · rename_i hne
    exact hne (by rw [honly b₁ (hmem hv')])

end DoubleMap
end MidnightNode
