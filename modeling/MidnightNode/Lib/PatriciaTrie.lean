import Mathlib

/-!
# Annotated Patricia tries

Tries over paths of nibbles, with values at leaves and on the way. Every node but the empty one carries an
annotation, which is meant to be the sum over the values below it (`Annotated`). `translate` replaces the
values and computes the annotations anew from the leaves up; paths stay as they are.
-/

namespace MidnightNode

inductive TrieNode (α Ann : Type)
  | empty
  | leaf (ann : Ann) (value : α)
  | branch (ann : Ann) (children : Fin 16 → TrieNode α Ann)
  | extension (ann : Ann) (compressedPath : List UInt8) (child : TrieNode α Ann)
  | midBranchLeaf (ann : Ann) (value : α) (child : TrieNode α Ann)

namespace TrieNode

variable {α β Ann Ann' : Type}

/-- The annotation of a node; an empty one has none of its own. -/
def ann [Zero Ann] : TrieNode α Ann → Ann
  | empty => 0
  | leaf a _ | branch a _ | extension a _ _ | midBranchLeaf a _ _ => a

def entries : TrieNode α Ann → List (List UInt8 × α)
  | empty => []
  | leaf _ value => [([], value)]
  | branch _ children =>
    (List.ofFn fun i => (children i).entries.map fun e => (UInt8.ofNat i.val :: e.1, e.2)).flatten
  | extension _ path child => child.entries.map fun e => (path ++ e.1, e.2)
  | midBranchLeaf _ value child => ([], value) :: child.entries

/-- The trie without its values and annotations. -/
def shape : TrieNode α Ann → TrieNode Unit Unit
  | empty => empty
  | leaf _ _ => leaf () ()
  | branch _ children => branch () fun i => (children i).shape
  | extension _ path child => extension () path child.shape
  | midBranchLeaf _ _ child => midBranchLeaf () () child.shape

section

variable [AddMonoid Ann] (fromValue : α → Ann)

/-- The annotation that the values below a node give. -/
def total (node : TrieNode α Ann) : Ann := (node.entries.map fun e => fromValue e.2).sum

/-- Every annotation is that of the values below it. -/
def Annotated : TrieNode α Ann → Prop
  | empty => True
  | leaf a value => a = (leaf a value).total fromValue
  | branch a children => a = (branch a children).total fromValue ∧ ∀ i, (children i).Annotated
  | extension a path child => a = (extension a path child).total fromValue ∧ child.Annotated
  | midBranchLeaf a value child => a = (midBranchLeaf a value child).total fromValue ∧ child.Annotated

theorem Annotated.ann_eq {fromValue : α → Ann} {node : TrieNode α Ann} (h : node.Annotated fromValue) :
    node.ann = node.total fromValue := by
  cases node with
  | empty => rfl
  | leaf => exact h
  | branch => exact h.1
  | extension => exact h.1
  | midBranchLeaf => exact h.1

end

section

variable [AddMonoid Ann'] (f : α → β) (fromValue : β → Ann')

/-- Other values, with their annotations. -/
def translate : TrieNode α Ann → TrieNode β Ann'
  | empty => empty
  | leaf _ value => leaf (fromValue (f value)) (f value)
  | branch _ children =>
    let children := fun i => (children i).translate
    branch ((List.ofFn children).foldl (fun acc child => acc + child.ann) 0) children
  | extension _ path child => extension child.translate.ann path child.translate
  | midBranchLeaf _ value child =>
    midBranchLeaf (fromValue (f value) + child.translate.ann) (f value) child.translate

variable {f fromValue}

theorem entries_translate (node : TrieNode α Ann) :
    (node.translate f fromValue).entries = node.entries.map fun e => (e.1, f e.2) := by
  induction node with
  | empty => rfl
  | leaf => rfl
  | branch _ children ih =>
    simp only [translate, entries, ih, List.map_flatten, List.map_ofFn, List.map_map, Function.comp_def]
  | extension _ _ _ ih | midBranchLeaf _ _ _ ih => simp [translate, entries, ih]

theorem shape_translate (node : TrieNode α Ann) : (node.translate f fromValue).shape = node.shape := by
  induction node with
  | empty => rfl
  | leaf => rfl
  | branch _ children ih | extension _ _ _ ih | midBranchLeaf _ _ _ ih => simp [translate, shape, ih]

theorem total_branch (a : Ann') (children : Fin 16 → TrieNode β Ann') :
    (branch a children).total fromValue =
      (List.ofFn fun i => (children i).total fromValue).sum := by
  simp only [total, entries, List.map_flatten, List.sum_flatten, List.map_ofFn, List.map_map,
    Function.comp_def]

/-- The annotations of a translation are those of its values. -/
theorem annotated_translate (node : TrieNode α Ann) :
    (node.translate f fromValue).Annotated fromValue := by
  induction node with
  | empty => trivial
  | leaf => simp [translate, Annotated, total, entries]
  | branch _ children ih =>
    refine ⟨?_, ih⟩
    rw [total_branch, ← List.foldl_map, List.map_ofFn, ← List.sum_eq_foldl]
    congr 2
    funext i
    exact (ih i).ann_eq
  | extension _ path child ih =>
    refine ⟨?_, ih⟩
    rw [ih.ann_eq]
    simp [total, entries, Function.comp_def]
  | midBranchLeaf _ value child ih =>
    refine ⟨?_, ih⟩
    rw [ih.ann_eq]
    simp [total, entries]

end

end TrieNode

end MidnightNode
