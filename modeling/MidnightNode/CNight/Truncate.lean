import MidnightNode.CNight.BulkPull

/-!
# `truncate_to_tx_capacity`

The loop that keeps whole transactions. It counts a transaction when it reads its first event and
stops when the count reaches the capacity, before it keeps that event: what it keeps is the events
of the first `tx_capacity - 1` transactions, and all of them when there are fewer than `tx_capacity`
transactions. A capacity of `0` is never reached, so it keeps everything.
-/

namespace MidnightNode.CNight

open SortedSlice

/-! ## The loop -/

/-- The loop over the events: what it keeps, and the final count of transactions. -/
def truncateLoop (txCapacity : Nat) :
    (numTxs : Nat) → (curTx : Option CardanoPosition) → List ObservedUtxo → List ObservedUtxo × Nat
  | numTxs, _, [] => ([], numTxs)
  | numTxs, curTx, utxo :: utxos =>
    let isNew := curTx.all fun tx => decide (tx < utxo.position)
    let numTxs := if isNew then numTxs + 1 else numTxs
    let curTx := if isNew then some utxo.position else curTx
    if numTxs = txCapacity then ([], numTxs)
    else
      let (kept, n) := truncateLoop txCapacity numTxs curTx utxos
      (utxo :: kept, n)

def truncateToTxCapacity (events : List ObservedUtxo) (txCapacity : Nat)
    (startPosition fallbackEnd : CardanoPosition) : ObservedUtxos × Bool :=
  let (truncated, numTxs) := truncateLoop txCapacity 0 none events
  let fullWindow := decide (numTxs < txCapacity)
  let end_ :=
    if fullWindow then fallbackEnd
    else ((truncated.getLast?.map (·.position)).getD startPosition).increment
  ({ start := startPosition, end_, utxos := truncated }, fullWindow)

structure Counted (txCapacity : Nat) (read : List ObservedUtxo) (numTxs : Nat)
    (curTx : Option CardanoPosition) : Prop where
  numTxs_eq : numTxs = numKeys ObservedUtxo.key read
  below : txCapacity = 0 ∨ numTxs < txCapacity
  read_nil : curTx = none → read = []
  curTx_last : ∀ tx ∈ curTx, (∃ x ∈ read, x.key = tx.key) ∧ ∀ x ∈ read, x.key ≤ tx.key

theorem Counted.init (txCapacity : Nat) : Counted txCapacity [] 0 none where
  numTxs_eq := rfl
  below := Nat.eq_zero_or_pos txCapacity
  read_nil _ := rfl
  curTx_last _ h := by cases h

/-- How the loop ends: at the end of the list, or in front of the transaction that reaches the
capacity. -/
inductive LoopEnd (txCapacity : Nat) (read kept rest : List ObservedUtxo) (n : Nat) : Prop
  | all (hrest : rest = []) (hn : n = numKeys ObservedUtxo.key (read ++ kept))
      (hbelow : txCapacity = 0 ∨ n < txCapacity)
  | capacity (v : ObservedUtxo) (rest' : List ObservedUtxo) (hrest : rest = v :: rest')
      (hn : n = txCapacity) (hcount : numKeys ObservedUtxo.key (read ++ kept) + 1 = txCapacity)
      (hlt : ∀ x ∈ read ++ kept, x.key < v.key)

section Step
variable {txCapacity numTxs : Nat} {read utxos : List ObservedUtxo} {utxo : ObservedUtxo}
  {curTx : Option CardanoPosition}

theorem Counted.new (h : Counted txCapacity read numTxs curTx)
    (hnew : curTx.all (fun tx => decide (tx < utxo.position)) = true) :
    ∀ x ∈ read, x.key < utxo.key := by
  intro x hx
  cases curTx with
  | none => simp [h.read_nil rfl] at hx
  | some tx =>
    have htx : tx.key < utxo.key :=
      CardanoPosition.lt_iff_key.mp (by simpa using hnew)
    exact ((h.curTx_last tx rfl).2 x hx).trans_lt htx

theorem Counted.same (h : Counted txCapacity read numTxs curTx)
    (hs : SortedBy ObservedUtxo.key (read ++ utxo :: utxos))
    (hold : curTx.all (fun tx => decide (tx < utxo.position)) = false) :
    ∃ tx ∈ curTx, tx.key = utxo.key := by
  cases curTx with
  | none => simp at hold
  | some tx =>
    refine ⟨tx, rfl, le_antisymm ?_ ?_⟩
    · obtain ⟨⟨x, hx, hkey⟩, _⟩ := h.curTx_last tx rfl
      rw [← hkey]
      exact (SortedBy.append_iff.mp hs).2.2 x hx utxo List.mem_cons_self
    · have htx : ¬ tx < utxo.position := by simpa using hold
      rw [CardanoPosition.lt_iff_key, not_lt] at htx
      exact htx

theorem Counted.push_new (h : Counted txCapacity read numTxs curTx)
    (hnew : curTx.all (fun tx => decide (tx < utxo.position)) = true)
    (hcap : numTxs + 1 ≠ txCapacity) :
    Counted txCapacity (read ++ [utxo]) (numTxs + 1) (some utxo.position) where
  numTxs_eq := by rw [numKeys_append_cons_of_lt (h.new hnew), h.numTxs_eq]
  below := by have := h.below; omega
  read_nil := by simp
  curTx_last := by
    intro tx htx
    obtain rfl := Option.mem_some_iff.mp htx
    refine ⟨⟨utxo, by simp, rfl⟩, fun x hx => ?_⟩
    rcases List.mem_append.mp hx with hx | hx
    · exact (h.new hnew x hx).le
    · rw [List.mem_singleton.mp hx]
      exact le_rfl

theorem Counted.push_same (h : Counted txCapacity read numTxs curTx)
    (hs : SortedBy ObservedUtxo.key (read ++ utxo :: utxos))
    (hold : curTx.all (fun tx => decide (tx < utxo.position)) = false) :
    Counted txCapacity (read ++ [utxo]) numTxs curTx := by
  obtain ⟨tx, htx, hkey⟩ := h.same hs hold
  obtain ⟨⟨x, hx, hxkey⟩, hle⟩ := h.curTx_last tx htx
  refine ⟨?_, h.below, fun hnone => ?_, fun tx' htx' => ?_⟩
  · rw [numKeys_append_cons_of_mem hx (hxkey.trans hkey), h.numTxs_eq]
  · rw [hnone] at htx
    cases htx
  · cases Option.mem_unique htx htx'
    refine ⟨⟨x, List.mem_append_left _ hx, hxkey⟩, fun y hy => ?_⟩
    rcases List.mem_append.mp hy with hy | hy
    · exact hle y hy
    · rw [List.mem_singleton.mp hy, hkey]

end Step

theorem LoopEnd.cons {read : List ObservedUtxo} (h : LoopEnd txCapacity (read ++ [utxo]) kept rest n) :
    LoopEnd txCapacity read (utxo :: kept) rest n := by
  cases h with
  | all hrest hn hbelow => exact .all hrest (by simpa using hn) hbelow
  | capacity v rest' hrest hn hcount hlt =>
    exact .capacity v rest' hrest hn (by simpa using hcount) (by simpa using hlt)

/-- **The loop keeps a prefix** and ends as `LoopEnd` says. The induction is over the events still
to be read; `read` collects those behind. -/
theorem truncateLoop_spec (utxos : List ObservedUtxo) :
    ∀ {read numTxs curTx}, Counted txCapacity read numTxs curTx →
      SortedBy ObservedUtxo.key (read ++ utxos) →
      ∃ kept rest n, truncateLoop txCapacity numTxs curTx utxos = (kept, n) ∧
        utxos = kept ++ rest ∧ LoopEnd txCapacity read kept rest n := by
  induction utxos with
  | nil =>
    intro read numTxs curTx h _
    exact ⟨[], [], numTxs, rfl, rfl, .all rfl (by simpa using h.numTxs_eq) h.below⟩
  | cons utxo utxos ih =>
    intro read numTxs curTx h hs
    have hs' : SortedBy ObservedUtxo.key ((read ++ [utxo]) ++ utxos) := by simpa using hs
    cases hnew : curTx.all (fun tx => decide (tx < utxo.position)) with
    | true =>
      by_cases hcap : numTxs + 1 = txCapacity
      · -- the transaction that reaches the capacity is not kept
        refine ⟨[], utxo :: utxos, numTxs + 1, ?_, rfl, .capacity utxo utxos rfl hcap ?_ ?_⟩
        · simp [truncateLoop, hnew, hcap]
        · rw [List.append_nil, ← h.numTxs_eq, hcap]
        · simpa using h.new hnew
      · obtain ⟨kept, rest, n, heq, happ, hend⟩ := ih (h.push_new hnew hcap) hs'
        refine ⟨utxo :: kept, rest, n, ?_, by simp [happ], hend.cons⟩
        simp [truncateLoop, hnew, hcap, heq]
    | false =>
      have hcap : numTxs ≠ txCapacity := by
        obtain ⟨tx, htx, _⟩ := h.same hs hnew
        obtain ⟨⟨x, hx, _⟩, _⟩ := h.curTx_last tx htx
        have hpos : numTxs ≠ 0 := by
          rw [h.numTxs_eq, Ne, numKeys_eq_zero_iff]
          exact List.ne_nil_of_mem hx
        have := h.below
        omega
      obtain ⟨kept, rest, n, heq, happ, hend⟩ := ih (h.push_same hs hnew) hs'
      refine ⟨utxo :: kept, rest, n, ?_, by simp [happ], hend.cons⟩
      simp [truncateLoop, hnew, hcap, heq]

/-! ## What truncation returns -/

section Truncate
variable {events : List ObservedUtxo} {txCapacity : Nat} {start end_ : CardanoPosition}

/-- **What truncation returns**: the events of the first `txCapacity - 1` transactions, up to the
fallback end when there are no more transactions than that. -/
theorem truncateToTxCapacity_eq (hs : SortedBy ObservedUtxo.key events) (hcap : 0 < txCapacity) :
    (truncateToTxCapacity events txCapacity start end_).1 =
      { start
        end_ := if numKeys ObservedUtxo.key events < txCapacity then end_
          else (((firstKeys ObservedUtxo.key (txCapacity - 1) events).getLast?.map
            (·.position)).getD start).increment
        utxos := firstKeys ObservedUtxo.key (txCapacity - 1) events } := by
  obtain ⟨kept, rest, n, heq, happ, hend⟩ := truncateLoop_spec events (.init txCapacity) hs
  cases hend with
  | all hrest hn hbelow =>
    rw [hrest, List.append_nil] at happ
    rw [List.nil_append, ← happ] at hn
    have hlt : n < txCapacity := by omega
    rw [firstKeys_eq_self (by omega), if_pos (hn ▸ hlt)]
    simpa [truncateToTxCapacity, heq, hlt] using happ.symm
  | capacity v rest' hrest hn hcount hlt =>
    rw [List.nil_append] at hcount hlt
    subst happ hrest
    have hv : ∀ y ∈ rest', v.key ≤ y.key :=
      fun _ => List.rel_of_pairwise_cons (SortedBy.append_iff.mp hs).2.1
    have hfirst : firstKeys ObservedUtxo.key (txCapacity - 1) (kept ++ v :: rest') = kept := by
      rw [show txCapacity - 1 = numKeys ObservedUtxo.key kept by omega,
        firstKeys_append_cons hlt hv]
    have hreached : txCapacity ≤ numKeys ObservedUtxo.key (kept ++ v :: rest') := by
      rw [← hcount, ← numKeys_append_cons_of_lt hlt]
      refine numKeys_le_of_subset fun x hx => ?_
      rcases List.mem_append.mp hx with hx | hx
      · exact List.mem_append_left _ hx
      · exact List.mem_append_right _ (List.mem_cons.mpr (.inl (List.mem_singleton.mp hx)))
    rw [hfirst, if_neg (not_lt.mpr hreached)]
    simp [truncateToTxCapacity, heq, hn]

theorem truncateToTxCapacity_zero (hs : SortedBy ObservedUtxo.key events) :
    (truncateToTxCapacity events 0 start end_).1 =
      { start
        end_ := ((events.getLast?.map (·.position)).getD start).increment
        utxos := events } := by
  obtain ⟨kept, rest, n, heq, happ, hend⟩ := truncateLoop_spec events (.init 0) hs
  cases hend with
  | all hrest =>
    rw [hrest, List.append_nil] at happ
    subst happ
    simp [truncateToTxCapacity, heq]
  | capacity v rest' hrest hn hcount => omega

/-- What a truncation to at least two transactions returns: everything up to the fallback end, or
the events in front of the transaction `v` that reaches the capacity. -/
inductive Truncated (events : List ObservedUtxo) (txCapacity : Nat) (end_ : CardanoPosition)
    (r : ObservedUtxos) : Prop
  | full (hbelow : numKeys ObservedUtxo.key events < txCapacity) (hutxos : r.utxos = events)
      (hend : r.end_ = end_)
  | capacity (kept : List ObservedUtxo) (p v : ObservedUtxo) (rest : List ObservedUtxo)
      (hevents : events = (kept ++ [p]) ++ v :: rest) (hutxos : r.utxos = kept ++ [p])
      (hend : r.end_ = p.position.increment)
      (hcount : numKeys ObservedUtxo.key (kept ++ [p]) + 1 = txCapacity)
      (hlt : ∀ x ∈ kept ++ [p], x.key < v.key)

theorem truncated_of_two_le (hs : SortedBy ObservedUtxo.key events) (hcap : 2 ≤ txCapacity) :
    Truncated events txCapacity end_ (truncateToTxCapacity events txCapacity start end_).1 := by
  obtain ⟨kept, rest, n, heq, happ, hloop⟩ := truncateLoop_spec events (.init txCapacity) hs
  cases hloop with
  | all hrest hn hbelow =>
    have hbelow : n < txCapacity := by omega
    rw [hrest, List.append_nil] at happ
    rw [List.nil_append, ← happ] at hn
    refine .full (hn ▸ hbelow) ?_ ?_
    · simp only [truncateToTxCapacity, heq]
      exact happ.symm
    · simp only [truncateToTxCapacity, heq, hbelow, decide_true, if_true]
  | capacity v rest' hrest hn hcount hlt =>
    rw [List.nil_append] at hcount hlt
    have hne : kept ≠ [] := by
      rintro rfl
      simp [numKeys] at hcount
      omega
    obtain ⟨kept, p, rfl⟩ := List.eq_nil_or_concat' kept |>.resolve_left hne
    refine .capacity kept p v rest' (by rw [happ, hrest]) ?_ ?_ hcount hlt
    · simp only [truncateToTxCapacity, heq]
    · simp [truncateToTxCapacity, heq, hn]

end Truncate

end MidnightNode.CNight
