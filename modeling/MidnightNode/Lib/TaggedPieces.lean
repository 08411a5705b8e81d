import Mathlib

/-!
# Concatenated pieces with tags

The pieces of a list, one after the other, each element with the tag of its piece. With different tags
for different pieces, the concatenation determines the pieces.
-/

namespace MidnightNode.TaggedPieces

universe u v w

variable {τ : Type u} {α : Type v} {β : Type w}

/-- The pieces from the one with number `i` on. -/
def tagPieces (tag : ℕ → τ) : ℕ → List (List α) → List (τ × α)
  | _, [] => []
  | i, piece :: pieces => piece.map (tag i, ·) ++ tagPieces tag (i + 1) pieces

variable {tag : ℕ → τ} {i : ℕ} {pieces pieces' : List (List α)}

@[simp] theorem map_snd_tagPieces (tag : ℕ → τ) (i : ℕ) (pieces : List (List α)) :
    (tagPieces tag i pieces).map Prod.snd = pieces.flatten := by
  induction pieces generalizing i with
  | nil => rfl
  | cons piece pieces ih =>
    rw [tagPieces, List.map_append, ih, List.flatten_cons, List.map_map]
    exact congrArg (· ++ _) (List.map_id piece)

theorem tag_of_mem_tagPieces {x : τ × α} (h : x ∈ tagPieces tag i pieces) : ∃ j, i ≤ j ∧ x.1 = tag j := by
  induction pieces generalizing i with
  | nil => cases h
  | cons piece pieces ih =>
    rcases List.mem_append.mp h with h | h
    · obtain ⟨a, -, rfl⟩ := List.mem_map.mp h
      exact ⟨i, le_rfl, rfl⟩
    · obtain ⟨j, hj, hx⟩ := ih h
      exact ⟨j, (Nat.le_succ i).trans hj, hx⟩

/-- What is done to each element can be done to the pieces. -/
theorem filterMap_tagPieces (tag : ℕ → τ) (f : α → Option β) (i : ℕ) (pieces : List (List α)) :
    (tagPieces tag i pieces).filterMap (fun x => (f x.2).map (x.1, ·)) =
      tagPieces tag i (pieces.map (List.filterMap f)) := by
  induction pieces generalizing i with
  | nil => rfl
  | cons piece pieces ih =>
    rw [tagPieces, List.filterMap_append, ih, List.map_cons, tagPieces, List.filterMap_map,
      List.map_filterMap]
    rfl

section

variable [DecidableEq τ]

/-- The elements with a tag. -/
def withTag (t : τ) (l : List (τ × α)) : List α := (l.filter (·.1 = t)).map Prod.snd

theorem withTag_tagPieces_of_lt (htag : Function.Injective tag) {k : ℕ} (hk : k < i) :
    withTag (tag k) (tagPieces tag i pieces) = [] := by
  have hnone : (tagPieces tag i pieces).filter (·.1 = tag k) = [] := by
    refine List.filter_eq_nil_iff.mpr fun x hx => ?_
    obtain ⟨j, hj, hxj⟩ := tag_of_mem_tagPieces hx
    rw [hxj, decide_eq_true_iff, htag.eq_iff]
    omega
  rw [withTag, hnone]
  rfl

theorem withTag_tagPieces (htag : Function.Injective tag) (i k : ℕ) (pieces : List (List α)) :
    withTag (tag (i + k)) (tagPieces tag i pieces) = pieces[k]?.getD [] := by
  induction pieces generalizing i k with
  | nil => rfl
  | cons piece pieces ih =>
    have hsplit : withTag (tag (i + k)) (tagPieces tag i (piece :: pieces)) =
        withTag (tag (i + k)) (piece.map (tag i, ·)) ++
          withTag (tag (i + k)) (tagPieces tag (i + 1) pieces) := by
      rw [tagPieces, withTag, List.filter_append, List.map_append]
      rfl
    rw [hsplit]
    cases k with
    | zero =>
      rw [Nat.add_zero, withTag_tagPieces_of_lt htag (Nat.lt_add_one i), List.append_nil, withTag,
        List.filter_map, List.map_map]
      simp [Function.comp_def]
    | succ k =>
      have hpiece : withTag (tag (i + (k + 1))) (piece.map (tag i, ·)) = [] := by
        simp [withTag, List.filter_map, htag.eq_iff, Function.comp_def]
      rw [hpiece, List.nil_append, show i + (k + 1) = i + 1 + k by omega, ih]
      rfl

/-- The concatenation determines the pieces. -/
theorem tagPieces_inj (htag : Function.Injective tag) (hlength : pieces.length = pieces'.length) :
    tagPieces tag i pieces = tagPieces tag i pieces' ↔ pieces = pieces' := by
  refine ⟨fun h => List.ext_getElem hlength fun k hk hk' => ?_, fun h => by rw [h]⟩
  have hat := congrArg (withTag (tag (i + k))) h
  rw [withTag_tagPieces htag, withTag_tagPieces htag] at hat
  simpa [hk, hk'] using hat

end

/-! ## Without tags -/

variable {f g : β → List α} {l : List β}

theorem sublist_flatten_map (h : ∀ b ∈ l, (g b).Sublist (f b)) :
    (l.map g).flatten.Sublist (l.map f).flatten := by
  induction l with
  | nil => exact .slnil
  | cons b l ih =>
    exact (h b List.mem_cons_self).append (ih fun c hc => h c (List.mem_cons_of_mem _ hc))

/-- A concatenation of parts of the pieces is that of the pieces only if the parts are all there is. -/
theorem eq_of_flatten_map_eq (h : ∀ b ∈ l, (g b).Sublist (f b))
    (heq : (l.map f).flatten = (l.map g).flatten) : ∀ b ∈ l, f b = g b := by
  induction l with
  | nil => exact fun b hb => nomatch hb
  | cons b l ih =>
    have hhead := h b List.mem_cons_self
    have htail := sublist_flatten_map fun c hc => h c (List.mem_cons_of_mem _ hc)
    rw [List.map_cons, List.map_cons, List.flatten_cons, List.flatten_cons] at heq
    have hlength := congrArg List.length heq
    rw [List.length_append, List.length_append] at hlength
    have hb : g b = f b := by
      refine hhead.eq_of_length ?_
      have hle := hhead.length_le
      have hle' := htail.length_le
      omega
    rw [hb] at heq
    intro c hc
    rcases List.mem_cons.mp hc with rfl | hc
    · exact hb.symm
    · exact ih (fun d hd => h d (List.mem_cons_of_mem _ hd)) (List.append_cancel_left heq) c hc

end MidnightNode.TaggedPieces
