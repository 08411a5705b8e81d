import MidnightNode.Ledger.ApplyTransaction

/-!
# Overrides of the UTXO order

Old blocks list the UTXOs of a transaction in the order of a hash map, which a file of overrides gives back
(`ledger/versions/common/utxo_ordering_override`). `reorder` takes the UTXOs out of the list one by one, in
the order of the override, and puts the new list in place at the end.

When an entry matches no UTXO, `reorder` returns without the new list. By then the UTXOs of the entries in
front of it have left the old one, so what remains is the list of before only if it was the first entry that
had no match.
-/

namespace MidnightNode.Ledger

/-- What the entries of an override are compared with. -/
def UtxoInfo.outpoint (u : UtxoInfo) : Hash × Nat := (u.intentHash, u.outputNo)

section

variable {utxos rest reordered : List UtxoInfo} {expected : List (Hash × Nat)} {entry : Hash × Nat}

/-! ## One entry -/

theorem swapRemove_perm {α : Type} {l : List α} {a : α} (h : l[i]? = some a) :
    (a :: swapRemove l i).Perm l := by
  rcases List.eq_nil_or_concat' l with rfl | ⟨front, last, rfl⟩
  · simp at h
  obtain ⟨hi, rfl⟩ := List.getElem?_eq_some_iff.mp h
  have hle : i < front.length ∨ i = front.length := by
    rw [List.length_append] at hi
    exact Nat.lt_succ_iff_lt_or_eq.mp hi
  simp only [swapRemove, List.getLast?_concat]
  rcases hle with hlt | rfl
  · rw [List.set_append_left _ _ hlt, List.dropLast_concat, List.getElem_append_left hlt]
    calc front[i] :: front.set i last
      _ |>.Perm (front[i] :: last :: front.eraseIdx i) := (List.set_perm_cons_eraseIdx hlt last).cons _
      _ |>.Perm (last :: front[i] :: front.eraseIdx i) := .swap ..
      _ |>.Perm (last :: front) := (List.getElem_cons_eraseIdx_perm hlt).cons _
      _ |>.Perm (front ++ [last]) := (List.perm_append_singleton last front).symm
  · simpa using (List.perm_append_singleton last front).symm

theorem findIdx?_outpoint (utxos : List UtxoInfo) (entry : Hash × Nat) :
    (∃ pos u, utxos.findIdx? (fun u => u.intentHash == entry.1 && u.outputNo == entry.2) = some pos ∧
      utxos[pos]? = some u ∧ u.outpoint = entry) ∨
    (utxos.findIdx? (fun u => u.intentHash == entry.1 && u.outputNo == entry.2) = none ∧
      entry ∉ utxos.map UtxoInfo.outpoint) := by
  cases hfind : utxos.findIdx? (fun u => u.intentHash == entry.1 && u.outputNo == entry.2) with
  | none =>
    refine .inr ⟨rfl, fun hmem => ?_⟩
    obtain ⟨u, hu, rfl⟩ := List.mem_map.mp hmem
    simpa [UtxoInfo.outpoint] using List.findIdx?_eq_none_iff.mp hfind u hu
  | some pos =>
    obtain ⟨hlt, hmatch, -⟩ := List.findIdx?_eq_some_iff_getElem.mp hfind
    refine .inl ⟨pos, utxos[pos], rfl, List.getElem?_eq_getElem hlt, ?_⟩
    simpa [UtxoInfo.outpoint, Prod.ext_iff] using hmatch

/-! ## The loop -/

/-- How the loop ends: with all entries matched, or in front of the first one without a match, with what is
left of the list. -/
inductive LoopEnd (utxos reordered : List UtxoInfo) (expected : List (Hash × Nat)) :
    List UtxoInfo → Prop
  | finished (taken rest : List UtxoInfo) (perm : (taken ++ rest).Perm utxos)
      (order : taken.map UtxoInfo.outpoint = expected) :
      LoopEnd utxos reordered expected (reordered ++ taken)
  | stopped (taken rest : List UtxoInfo) (entry : Hash × Nat) (todo : List (Hash × Nat))
      (perm : (taken ++ rest).Perm utxos)
      (order : expected = taken.map UtxoInfo.outpoint ++ entry :: todo)
      (missing : entry ∉ rest.map UtxoInfo.outpoint) (untouched : taken = [] → rest = utxos) :
      LoopEnd utxos reordered expected rest

theorem LoopEnd.cons (hget : utxos[pos]? = some u)
    (h : LoopEnd (swapRemove utxos pos) (reordered ++ [u]) expected result) :
    LoopEnd utxos reordered (u.outpoint :: expected) result := by
  cases h with
  | finished taken rest perm order =>
    rw [List.append_assoc]
    exact .finished (u :: taken) rest ((perm.cons u).trans (swapRemove_perm hget))
      (congrArg (u.outpoint :: ·) order)
  | stopped taken _ entry todo perm order missing _ =>
    exact .stopped (u :: taken) result entry todo ((perm.cons u).trans (swapRemove_perm hget))
      (congrArg (u.outpoint :: ·) order) missing nofun

theorem reorderLoop_end (utxos reordered : List UtxoInfo) (expected : List (Hash × Nat)) :
    LoopEnd utxos reordered expected (reorderLoop utxos reordered expected) := by
  induction expected generalizing utxos reordered with
  | nil =>
    have h : LoopEnd utxos reordered [] (reordered ++ []) := .finished [] utxos .rfl rfl
    rwa [List.append_nil] at h
  | cons entry expected ih =>
    rw [reorderLoop]
    rcases findIdx?_outpoint utxos entry with ⟨pos, u, hfind, hget, rfl⟩ | ⟨hfind, hmissing⟩
    · rw [hfind]
      simp only [hget]
      exact .cons hget (ih ..)
    · rw [hfind]
      exact .stopped [] utxos entry expected .rfl rfl hmissing fun _ => rfl

end

/-! ## Usable overrides -/

variable (utxos : List UtxoInfo) (expected : List (Hash × Nat))

/-- The override lists the UTXOs: every entry matches one of its own, and no UTXO is left over. -/
def Matching : Prop := expected.Perm (utxos.map UtxoInfo.outpoint)

/-- The overrides that do no harm: those that match, those of another length, and those whose first entry
matches no UTXO. -/
def Harmless : Prop :=
  Matching utxos expected ∨ utxos.length ≠ expected.length ∨
    ∀ entry ∈ expected.head?, entry ∉ utxos.map UtxoInfo.outpoint

/-- What an override is meant to do to a list. -/
structure Respected (result : List UtxoInfo) : Prop where
  perm : result.Perm utxos
  order : Matching utxos expected → result.map UtxoInfo.outpoint = expected
  unchanged : ¬Matching utxos expected → result = utxos

section

variable {utxos expected} {taken rest : List UtxoInfo} {todo : List (Hash × Nat)} {entry : Hash × Nat}

theorem Matching.length (h : Matching utxos expected) : utxos.length = expected.length := by
  simpa using (List.Perm.length_eq h).symm

theorem matching_of_taken (hlength : utxos.length = expected.length) (hperm : (taken ++ rest).Perm utxos)
    (horder : taken.map UtxoInfo.outpoint = expected) : rest = [] ∧ Matching utxos expected := by
  subst horder
  have hnil : rest = [] := by
    have h := hperm.length_eq
    rw [hlength, List.length_append, List.length_map] at h
    exact List.eq_nil_of_length_eq_zero (Nat.add_eq_left.mp h)
  subst hnil
  rw [List.append_nil] at hperm
  exact ⟨rfl, hperm.map _⟩

/-- An override without an entry for one of the UTXOs in its place does not match. -/
theorem not_matching_of_missing (hperm : (taken ++ rest).Perm utxos)
    (horder : expected = taken.map UtxoInfo.outpoint ++ entry :: todo)
    (hmissing : entry ∉ rest.map UtxoInfo.outpoint) : ¬Matching utxos expected := by
  intro hmatch
  have h : (taken.map UtxoInfo.outpoint ++ entry :: todo).Perm
      (taken.map UtxoInfo.outpoint ++ rest.map UtxoInfo.outpoint) := by
    rw [← horder, ← List.map_append]
    exact hmatch.trans (hperm.map _).symm
  exact hmissing (((List.perm_append_left_iff _).mp h).subset List.mem_cons_self)

/-- Once the first entry has found a match, an override that matches no further does harm. -/
theorem not_harmless_of_taken (hlength : utxos.length = expected.length)
    (hperm : (taken ++ rest).Perm utxos) (horder : expected = taken.map UtxoInfo.outpoint ++ entry :: todo)
    (hmissing : entry ∉ rest.map UtxoInfo.outpoint) (htaken : taken ≠ []) : ¬Harmless utxos expected := by
  rintro (hmatch | hne | hhead)
  · exact not_matching_of_missing hperm horder hmissing hmatch
  · exact hne hlength
  · obtain ⟨u, taken, rfl⟩ := List.exists_cons_of_ne_nil htaken
    subst horder
    exact hhead u.outpoint rfl (List.mem_map_of_mem (hperm.subset List.mem_cons_self))

end

/-- What `reorder` does with an override that matches, and with one that does not. In the last case the UTXOs
`taken` are lost. -/
theorem reorder_cases : (Matching utxos expected ∧ (reorder utxos expected).Perm utxos ∧
      (reorder utxos expected).map UtxoInfo.outpoint = expected) ∨
    (¬Matching utxos expected ∧ Harmless utxos expected ∧ reorder utxos expected = utxos) ∨
    (¬Harmless utxos expected ∧ ∃ taken, taken ≠ [] ∧ (taken ++ reorder utxos expected).Perm utxos) := by
  rcases ne_or_eq utxos.length expected.length with hne | hlength
  · have hskip : reorder utxos expected = utxos := by simp [reorder, hne]
    exact .inr (.inl ⟨fun h => hne h.length, .inr (.inl hne), hskip⟩)
  rcases expected.eq_nil_or_concat' with rfl | hcons
  · obtain rfl := List.eq_nil_of_length_eq_zero hlength
    exact .inl ⟨.rfl, .rfl, rfl⟩
  have hloop : reorder utxos expected = reorderLoop utxos [] expected := by
    obtain ⟨front, last, rfl⟩ := hcons
    simp [reorder, hlength]
  rw [hloop]
  cases reorderLoop_end utxos [] expected with
  | finished taken rest perm order =>
    obtain ⟨rfl, hmatch⟩ := matching_of_taken hlength perm order
    rw [List.append_nil] at perm
    exact .inl ⟨hmatch, perm, order⟩
  | stopped taken _ entry todo perm order missing untouched =>
    rcases eq_or_ne taken [] with rfl | htaken
    · have hrest := untouched rfl
      refine .inr (.inl ⟨not_matching_of_missing perm order missing, .inr (.inr ?_), hrest⟩)
      rw [hrest] at missing
      simpa [order] using missing
    · exact .inr (.inr ⟨not_harmless_of_taken hlength perm order missing htaken, taken, htaken, perm⟩)

/-- **Every UTXO is kept exactly under a harmless override.** -/
theorem reorder_perm_iff : (reorder utxos expected).Perm utxos ↔ Harmless utxos expected := by
  rcases reorder_cases utxos expected with
    ⟨hmatch, hperm, -⟩ | ⟨-, hharmless, heq⟩ | ⟨hharm, taken, htaken, hlost⟩
  · exact iff_of_true hperm (.inl hmatch)
  · rw [heq]
    exact iff_of_true .rfl hharmless
  · refine iff_of_false (fun hperm => htaken ?_) hharm
    have h := hlost.length_eq.trans hperm.length_eq.symm
    rw [List.length_append] at h
    exact List.eq_nil_of_length_eq_zero (Nat.add_eq_right.mp h)

/-- **The override only permutes the list**, into its own order if it matches and not at all otherwise,
**exactly if it is harmless**. -/
theorem reorder_respected_iff (utxos : List UtxoInfo) (expected : List (Hash × Nat)) :
    Respected utxos expected (reorder utxos expected) ↔ Harmless utxos expected := by
  rcases reorder_cases utxos expected with
    ⟨hmatch, hperm, horder⟩ | ⟨hno, hharmless, heq⟩ | ⟨hharm, -⟩
  · exact iff_of_true ⟨hperm, fun _ => horder, fun hno => absurd hmatch hno⟩ (.inl hmatch)
  · rw [heq]
    exact iff_of_true ⟨.rfl, fun hmatch => absurd hmatch hno, fun _ => rfl⟩ hharmless
  · exact iff_of_false (fun h => hharm ((reorder_perm_iff utxos expected).mp h.perm)) hharm

def sampleUtxo (intent : UInt8) : UtxoInfo := ⟨.fill 32 0, .fill 32 0, .fill 32 intent, 100, 0⟩

/-- The first entry matches and the second is stale: the UTXO of the first is gone. -/
theorem reorder_loses_utxo :
    reorder [sampleUtxo 1, sampleUtxo 2] [(sampleUtxo 1).outpoint, (sampleUtxo 9).outpoint] =
        [sampleUtxo 2] ∧
      ¬Respected [sampleUtxo 1, sampleUtxo 2] [(sampleUtxo 1).outpoint, (sampleUtxo 9).outpoint]
        (reorder [sampleUtxo 1, sampleUtxo 2] [(sampleUtxo 1).outpoint, (sampleUtxo 9).outpoint]) := by
  have h : reorder [sampleUtxo 1, sampleUtxo 2] [(sampleUtxo 1).outpoint, (sampleUtxo 9).outpoint] =
      [sampleUtxo 2] := by decide
  rw [h]
  exact ⟨rfl, fun hrespected => by simpa using hrespected.perm.length_eq⟩

end MidnightNode.Ledger
