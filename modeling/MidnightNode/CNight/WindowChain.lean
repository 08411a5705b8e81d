import MidnightNode.CNight.SlidingWindow
import MidnightNode.Lib.Fallible

/-!
# Chained windows

Queries that are served from a sorted vector one after the other, each from the position the one before
returned. The pieces they return cut the vector at transaction boundaries and leave no gap.

`increment` wraps at `u32::MAX`, which no transaction index reaches: Db-Sync keeps the index in a signed column
of 32 bits.
-/

namespace MidnightNode.CNight

open SortedSlice

/-! ## Pieces -/

def serveChain (events : List ObservedUtxo) (txCapacity : Nat) :
    CardanoPosition → List CardanoPosition → Except DataSourceError (List ObservedUtxos)
  | _, [] => .ok []
  | start, tip :: tips => do
    let piece ← Cache.serve events start tip txCapacity
    let pieces ← serveChain events txCapacity piece.end_ tips
    .ok (piece :: pieces)

structure Piece (events : List ObservedUtxo) (txCapacity : Nat) (start tip : CardanoPosition)
    (r : ObservedUtxos) : Prop where
  start_eq : r.start = start
  start_le : start.key ≤ r.end_.key
  end_le : r.end_.key ≤ tip.increment.key
  utxos_eq : r.utxos = slice ObservedUtxo.key start.key r.end_.key events
  whole : ∀ x ∈ events, ∀ y ∈ events, x.key = y.key → (x ∈ r.utxos ↔ y ∈ r.utxos)
  below : numKeys ObservedUtxo.key r.utxos < txCapacity
  ends : numKeys ObservedUtxo.key r.utxos + 1 = txCapacity ∨ r.end_ = tip.increment
  advances : start.key < tip.increment.key → start.key < r.end_.key

/-- Each piece starts where the one before ends. -/
inductive Pieces (events : List ObservedUtxo) (txCapacity : Nat) :
    CardanoPosition → List CardanoPosition → List ObservedUtxos → Prop
  | nil (start : CardanoPosition) : Pieces events txCapacity start [] []
  | cons {start tip : CardanoPosition} {tips : List CardanoPosition} {r : ObservedUtxos}
      {rs : List ObservedUtxos} (head : Piece events txCapacity start tip r)
      (tail : Pieces events txCapacity r.end_ tips rs) :
      Pieces events txCapacity start (tip :: tips) (r :: rs)

def lastEnd : CardanoPosition → List ObservedUtxos → CardanoPosition
  | start, [] => start
  | _, r :: rs => lastEnd r.end_ rs

/-- The chain runs to its end, and its pieces are the events in front of the last end. -/
def Partitioned (events : List ObservedUtxo) (txCapacity : Nat) (start : CardanoPosition)
    (tips : List CardanoPosition) : Prop :=
  ∃ pieces, serveChain events txCapacity start tips = .ok pieces ∧
    Pieces events txCapacity start tips pieces ∧
    pieces.flatMap ObservedUtxos.utxos =
      slice ObservedUtxo.key start.key (lastEnd start pieces).key events

/-! ## One window -/

section

variable {events : List ObservedUtxo} {txCapacity : Nat} {start tip : CardanoPosition}
  {r : ObservedUtxos}

theorem whole_of_slice :
    ∀ x ∈ events, ∀ y ∈ events, x.key = y.key →
      (x ∈ slice ObservedUtxo.key a b events ↔ y ∈ slice ObservedUtxo.key a b events) := by
  intro x hx y hy hkey
  simp only [mem_slice, hx, hy, hkey]

theorem serve_truncated (hs : SortedBy ObservedUtxo.key events) (hcap : 2 ≤ txCapacity)
    (hle : start.key ≤ tip.increment.key) :
    ∃ r, Cache.serve events start tip txCapacity = .ok r ∧ r.start = start ∧
      Truncated (slice ObservedUtxo.key start.key tip.increment.key events) txCapacity
        tip.increment r := by
  refine ⟨_, ?_, rfl, truncated_of_two_le hs.slice hcap⟩
  rw [Cache.serve, sliceRange_eq hs hle]

theorem piece_of_full (hle : start.key ≤ tip.increment.key) (hstart : r.start = start)
    (hbelow : numKeys ObservedUtxo.key
      (slice ObservedUtxo.key start.key tip.increment.key events) < txCapacity)
    (hutxos : r.utxos = slice ObservedUtxo.key start.key tip.increment.key events)
    (hend : r.end_ = tip.increment) : Piece events txCapacity start tip r where
  start_eq := hstart
  start_le := hend ▸ hle
  end_le := hend ▸ le_rfl
  utxos_eq := hend ▸ hutxos
  whole := hutxos ▸ whole_of_slice
  below := hutxos ▸ hbelow
  ends := .inr hend
  advances h := hend ▸ h

/-- A window that is cut behind `p`, in front of the transaction of `v` that reaches the capacity. -/
structure Cut (events : List ObservedUtxo) (txCapacity : Nat) (start tip : CardanoPosition)
    (kept : List ObservedUtxo) (p v : ObservedUtxo) (rest : List ObservedUtxo) : Prop where
  window_eq : slice ObservedUtxo.key start.key tip.increment.key events = (kept ++ [p]) ++ v :: rest
  count : numKeys ObservedUtxo.key (kept ++ [p]) + 1 = txCapacity
  lt : ∀ x ∈ kept ++ [p], x.key < v.key

namespace Cut

variable {kept rest : List ObservedUtxo} {p v : ObservedUtxo}
  (h : Cut events txCapacity start tip kept p v rest)

include h

theorem mem_window (hx : x ∈ (kept ++ [p]) ++ v :: rest) : start.key ≤ x.key ∧ x.key < tip.increment.key :=
  (mem_slice.mp (h.window_eq ▸ hx)).2

theorem sorted (hs : SortedBy ObservedUtxo.key events) :
    SortedBy ObservedUtxo.key ((kept ++ [p]) ++ v :: rest) := h.window_eq ▸ hs.slice

theorem le_rest (hs : SortedBy ObservedUtxo.key events) : ∀ x ∈ v :: rest, v.key ≤ x.key :=
  (SortedBy.append_iff.mp (h.sorted hs)).2.1.head_le

theorem increment_le (hp : p.position.txIndexInBlock + 1 < 2 ^ 32) : p.position.increment.key ≤ v.key :=
  (CardanoPosition.increment_key_le (q := v.position) hp).mpr (h.lt p (by simp))

theorem increment_le_end (hp : p.position.txIndexInBlock + 1 < 2 ^ 32) :
    p.position.increment.key ≤ tip.increment.key :=
  (h.increment_le hp).trans (h.mem_window (by simp)).2.le

theorem slice_eq (hs : SortedBy ObservedUtxo.key events) (hp : p.position.txIndexInBlock + 1 < 2 ^ 32) :
    slice ObservedUtxo.key start.key p.position.increment.key events = kept ++ [p] := by
  rw [← slice_slice le_rfl (h.increment_le_end hp), h.window_eq]
  apply slice_append_cut
  · intro x hx
    refine ⟨(h.mem_window (List.mem_append_left _ hx)).1, ?_⟩
    have hlast := (SortedBy.append_iff.mp (h.sorted hs)).1.le_last x hx
    exact (CardanoPosition.lt_key_increment (q := x.position) hp).mpr hlast
  · intro x hx
    exact (h.increment_le hp).trans (h.le_rest hs x hx)

theorem piece (hs : SortedBy ObservedUtxo.key events) (hstart : r.start = start)
    (hutxos : r.utxos = kept ++ [p]) (hend : r.end_ = p.position.increment)
    (hp : p.position.txIndexInBlock + 1 < 2 ^ 32) : Piece events txCapacity start tip r := by
  have hcount := h.count
  have hslice : r.utxos = slice ObservedUtxo.key start.key r.end_.key events := by
    rw [hutxos, hend, h.slice_eq hs hp]
  have hmem : p ∈ slice ObservedUtxo.key start.key r.end_.key events := by
    rw [← hslice, hutxos]
    simp
  have hadvance : start.key < r.end_.key := (mem_slice.mp hmem).2.1.trans_lt (mem_slice.mp hmem).2.2
  exact {
    start_eq := hstart
    start_le := hadvance.le
    end_le := hend ▸ h.increment_le_end hp
    utxos_eq := hslice
    whole := hslice ▸ whole_of_slice
    below := by rw [hutxos]; omega
    ends := .inl (hutxos ▸ hcount)
    advances := fun _ => hadvance }

end Cut

/-- A query returns a piece of its window. -/
theorem serve_piece (hs : SortedBy ObservedUtxo.key events) (hcap : 2 ≤ txCapacity)
    (hevents : ∀ u ∈ events, u.position.txIndexInBlock < i32Max)
    (hle : start.key ≤ tip.increment.key) :
    ∃ r, Cache.serve events start tip txCapacity = .ok r ∧ Piece events txCapacity start tip r := by
  obtain ⟨r, hr, hstart, htrunc⟩ := serve_truncated hs hcap hle
  refine ⟨r, hr, ?_⟩
  cases htrunc with
  | full hbelow hutxos hend => exact piece_of_full hle hstart hbelow hutxos hend
  | capacity kept p v rest hwindow hutxos hend hcount hlt =>
    have hcut : Cut events txCapacity start tip kept p v rest := ⟨hwindow, hcount, hlt⟩
    have hmem : p ∈ slice ObservedUtxo.key start.key tip.increment.key events := by
      rw [hwindow]
      simp
    have hp := hevents p (mem_slice.mp hmem).1
    rw [i32Max] at hp
    exact hcut.piece hs hstart hutxos hend (by omega)

end

/-! ## Chains -/

section

variable {events : List ObservedUtxo} {txCapacity : Nat} {start : CardanoPosition}
  {tips : List CardanoPosition} {pieces : List ObservedUtxos}

/-- Consecutive pieces are the events from the first start to the last end. -/
theorem Pieces.flatMap_eq (hs : SortedBy ObservedUtxo.key events)
    (h : Pieces events txCapacity start tips pieces) :
    start.key ≤ (lastEnd start pieces).key ∧ pieces.flatMap ObservedUtxos.utxos =
      slice ObservedUtxo.key start.key (lastEnd start pieces).key events := by
  induction h with
  | nil start =>
    refine ⟨le_rfl, (slice_eq_nil_iff.mpr ?_).symm⟩
    exact fun x _ hx => hx
  | cons head tail ih =>
    obtain ⟨hle, heq⟩ := ih
    refine ⟨head.start_le.trans hle, ?_⟩
    rw [List.flatMap_cons, head.utxos_eq, heq]
    exact hs.slice_append_slice head.start_le hle

/-- The next start is not past the end of its window, since the tips do not go back: the induction is over
the tips, a step is `serve_piece`. -/
theorem exists_pieces (hs : SortedBy ObservedUtxo.key events) (hcap : 2 ≤ txCapacity)
    (hevents : ∀ u ∈ events, u.position.txIndexInBlock < i32Max)
    (htips : ∀ tip ∈ tips, tip.txIndexInBlock ≤ i32Max)
    (hmono : tips.Pairwise fun a b => a.key ≤ b.key)
    (hstart : ∀ tip ∈ tips.head?, start.key ≤ tip.increment.key) :
    ∃ pieces, serveChain events txCapacity start tips = .ok pieces ∧
      Pieces events txCapacity start tips pieces := by
  induction tips generalizing start with
  | nil => exact ⟨[], rfl, .nil start⟩
  | cons tip tips ih =>
    obtain ⟨r, hr, hpiece⟩ := serve_piece hs hcap hevents (hstart tip rfl)
    have hnext : ∀ tip' ∈ tips.head?, r.end_.key ≤ tip'.increment.key := by
      intro tip' htip'
      have hmem : tip' ∈ tips := List.mem_of_mem_head? htip'
      have hle := htips tip List.mem_cons_self
      have hle' := htips tip' (.tail _ hmem)
      rw [i32Max] at hle hle'
      exact hpiece.end_le.trans (CardanoPosition.increment_key_mono (by omega) (by omega)
        ((List.pairwise_cons.mp hmono).1 tip' hmem))
    obtain ⟨rs, hrs, htail⟩ := ih (fun tip' htip' => htips tip' (.tail _ htip'))
      (List.pairwise_cons.mp hmono).2 hnext
    refine ⟨r :: rs, ?_, .cons hpiece htail⟩
    simp [serveChain, hr, hrs, bind, Except.bind]

end

/-- **Chained windows partition the events** between the first start and the last end, for the indices that
Db-Sync can store and a first start that is not past the end of the first window. -/
theorem windows_partition {events : List ObservedUtxo} {txCapacity : Nat}
    (hs : SortedBy ObservedUtxo.key events)
    (hevents : ∀ u ∈ events, u.position.txIndexInBlock < i32Max) (hcap : 2 ≤ txCapacity)
    (start : CardanoPosition) (tips : List CardanoPosition)
    (htips : ∀ tip ∈ tips, tip.txIndexInBlock ≤ i32Max)
    (hmono : tips.Pairwise fun a b => a.key ≤ b.key)
    (hstart : ∀ tip ∈ tips.head?, start.key ≤ tip.increment.key) :
    Partitioned events txCapacity start tips := by
  obtain ⟨pieces, hchain, hpieces⟩ := exists_pieces hs hcap hevents htips hmono hstart
  exact ⟨pieces, hchain, hpieces, (hpieces.flatMap_eq hs).2⟩

/-- A registration in the given transaction. -/
def eventAt (blockNumber txIndexInBlock : Nat) : ObservedUtxo where
  header :=
    { txPosition := { CardanoPosition.minForBlock blockNumber with txIndexInBlock }
      txHash := .fill 32 0, utxoTxHash := .fill 32 0, utxoIndex := 0 }
  data := .registration ⟨.fill 29 0, ⟨[], Nat.zero_le _⟩⟩

theorem windows_partition_two_tips :
    Partitioned [eventAt 5 0, eventAt 5 1, eventAt 6 0] 2 (.minForBlock 5)
      [.minForBlock 6, .minForBlock 7] := by
  have hs : SortedBy ObservedUtxo.key [eventAt 5 0, eventAt 5 1, eventAt 6 0] := by
    unfold SortedBy
    decide
  exact windows_partition hs (by decide) le_rfl _ _ (by decide) (by decide) (by decide)

end MidnightNode.CNight
