import Mathlib

/-!
# Limits per window, and what they say about any span of time

Events with a time and a weight are counted in windows that are opened lazily: an event that comes at
least `size` after the start of the current window opens the next one. The weight of each window is
limited. Since a span of `size` meets at most two windows, the events of any such span weigh at most
twice the limit.
-/

namespace MidnightNode.FixedWindow

variable {α : Type*}

def total (weight : α → Nat) (events : List α) : Nat := (events.map weight).sum

def inSpan (time : α → Nat) (n size : Nat) (events : List α) : List α :=
  events.filter fun a => n ≤ time a ∧ time a < n + size

section

variable {weight time : α → Nat} {events events' : List α} {n size : Nat}

theorem total_append : total weight (events ++ events') = total weight events + total weight events' := by
  simp [total]

theorem inSpan_append :
    inSpan time n size (events ++ events') = inSpan time n size events ++ inSpan time n size events' :=
  List.filter_append _ _

theorem total_inSpan_le : total weight (inSpan time n size events) ≤ total weight events :=
  (List.filter_sublist.map weight).sum_le_sum fun _ _ => Nat.zero_le _

theorem inSpan_eq_nil (h : ∀ a ∈ events, time a < n ∨ n + size ≤ time a) :
    inSpan time n size events = [] := by
  refine List.filter_eq_nil_iff.mpr fun a ha hspan => ?_
  have hout := h a ha
  simp only [decide_eq_true_eq] at hspan
  omega

end

/-- A history in two parts: the events of all closed windows, and those of the window that is open since
`start`. -/
structure Windowed (time weight : α → Nat) (size limit start : Nat) (closed opened : List α) :
    Prop where
  lt_start : ∀ a ∈ closed, time a < start
  start_le : ∀ a ∈ opened, start ≤ time a
  lt_end : ∀ a ∈ opened, time a < start + size
  opened_le : total weight opened ≤ limit
  /-- A span that reaches into the open window meets only one closed window. -/
  closed_le : ∀ n, start < n + size → total weight (inSpan time n size closed) ≤ limit
  closed_le_two : ∀ n, total weight (inSpan time n size closed) ≤ 2 * limit

namespace Windowed

variable {time weight : α → Nat} {size limit start : Nat} {closed opened : List α} {a : α}

theorem nil : Windowed time weight size limit start [] [] where
  lt_start := by simp
  start_le := by simp
  lt_end := by simp
  opened_le := Nat.zero_le _
  closed_le _ _ := Nat.zero_le _
  closed_le_two _ := Nat.zero_le _

variable (h : Windowed time weight size limit start closed opened)

include h

/-- The events of any span weigh at most twice the limit. -/
theorem span_le (n : Nat) : total weight (inSpan time n size (closed ++ opened)) ≤ 2 * limit := by
  rw [inSpan_append, total_append]
  by_cases hn : start < n + size
  · have hclosed := h.closed_le n hn
    have hopened : total weight (inSpan time n size opened) ≤ limit :=
      total_inSpan_le.trans h.opened_le
    omega
  · -- the span ends before the open window
    rw [inSpan_eq_nil fun a ha => .inr ((not_lt.mp hn).trans (h.start_le a ha))]
    exact h.closed_le_two n

theorem extend (hstart : start ≤ time a) (hend : time a < start + size)
    (hfits : total weight opened + weight a ≤ limit) :
    Windowed time weight size limit start closed (opened ++ [a]) where
  lt_start := h.lt_start
  start_le := List.forall_mem_append.mpr ⟨h.start_le, List.forall_mem_singleton.mpr hstart⟩
  lt_end := List.forall_mem_append.mpr ⟨h.lt_end, List.forall_mem_singleton.mpr hend⟩
  opened_le := by
    rw [total_append]
    exact hfits
  closed_le := h.closed_le
  closed_le_two := h.closed_le_two

/-- An event that comes after the end of the open window opens the next one. -/
theorem reopen (hsize : 0 < size) (hend : start + size ≤ time a) (hfits : weight a ≤ limit) :
    Windowed time weight size limit (time a) (closed ++ opened) [a] where
  lt_start := by
    refine List.forall_mem_append.mpr ⟨fun b hb => ?_, fun b hb => (h.lt_end b hb).trans_le hend⟩
    exact (h.lt_start b hb).trans_le ((Nat.le_add_right _ _).trans hend)
  start_le := List.forall_mem_singleton.mpr le_rfl
  lt_end := List.forall_mem_singleton.mpr (Nat.lt_add_of_pos_right hsize)
  opened_le := by simpa [total] using hfits
  closed_le n hn := by
    -- the windows closed before lie before the span
    have hbefore : inSpan time n size closed = [] := inSpan_eq_nil fun b hb => by
      have hlt := h.lt_start b hb
      omega
    rw [inSpan_append, hbefore, List.nil_append]
    exact total_inSpan_le.trans h.opened_le
  closed_le_two := h.span_le

/-- The open window has the events since its start. -/
theorem filter_eq : ((closed ++ opened).filter fun a => start ≤ time a) = opened := by
  have hclosed : (closed.filter fun a => start ≤ time a) = [] :=
    List.filter_eq_nil_iff.mpr fun a ha => by simpa using h.lt_start a ha
  have hopened : (opened.filter fun a => start ≤ time a) = opened :=
    List.filter_eq_self.mpr fun a ha => by simpa using h.start_le a ha
  rw [List.filter_append, hclosed, hopened, List.nil_append]

end Windowed

end MidnightNode.FixedWindow
