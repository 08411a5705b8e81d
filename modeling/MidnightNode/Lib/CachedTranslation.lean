import Mathlib

/-!
# Translations through a cache

Objects are translated bottom-up. A rule names the children of an object, each with the translation it needs,
and builds the object's translation from theirs, which it finds in a cache under the child itself: equal
objects are translated once. A driver picks any object whose children have been translated; it may stop after
any number of steps and go on later.

If the rules meet a specification (`Meets`), then whatever a driver finds is as specified (`Sound.steps`),
and an object is translated in the end if its children are (`reaches_of_children`).
-/

namespace MidnightNode.Translation

variable {Id Src Dst ε : Type}

abbrev Cache (Id Src Dst : Type) := Id → Src → Option Dst

open Classical in
noncomputable def Cache.insert (cache : Cache Id Src Dst) (id : Id) (src : Src) (dst : Dst) :
    Cache Id Src Dst :=
  fun i s => if i = id ∧ s = src then some dst else cache i s

theorem Cache.insert_self (cache : Cache Id Src Dst) (id : Id) (src : Src) (dst : Dst) :
    cache.insert id src dst id src = some dst :=
  if_pos ⟨rfl, rfl⟩

theorem Cache.insert_isSome {cache : Cache Id Src Dst} {i : Id} {s : Src} (h : (cache i s).isSome)
    (id : Id) (src : Src) (dst : Dst) : (cache.insert id src dst i s).isSome := by
  unfold insert
  split
  · rfl
  · exact h

structure Rules (Id Src Dst ε : Type) where
  children : Id → Src → List (Id × Src)
  finalize : Id → Src → Cache Id Src Dst → Except ε Dst

/-- An object is translated after its children. -/
inductive Step (r : Rules Id Src Dst ε) : Cache Id Src Dst → Cache Id Src Dst → Prop
  | finalize {cache : Cache Id Src Dst} {id : Id} {src : Src} {dst : Dst} :
    (∀ c ∈ r.children id src, (cache c.1 c.2).isSome) → r.finalize id src cache = .ok dst →
    Step r cache (cache.insert id src dst)

abbrev Steps (r : Rules Id Src Dst ε) := Relation.ReflTransGen (Step r)

/-- Every translation is the specified one. -/
def Sound (spec : Id → Src → Option Dst) (cache : Cache Id Src Dst) : Prop :=
  ∀ ⦃id src dst⦄, cache id src = some dst → spec id src = some dst

/-- The rules follow the specification: once the children of an object are there, they give the object what is
specified for it. -/
def Meets (r : Rules Id Src Dst ε) (spec : Id → Src → Option Dst) : Prop :=
  ∀ ⦃cache id src dst⦄, Sound spec cache → (∀ c ∈ r.children id src, (cache c.1 c.2).isSome) →
    (r.finalize id src cache = .ok dst ↔ spec id src = some dst)

variable {r : Rules Id Src Dst ε} {spec : Id → Src → Option Dst} {cache cache' : Cache Id Src Dst}

theorem Sound.empty : Sound spec fun _ _ => none := nofun

theorem Sound.insert (h : Sound spec cache) {id : Id} {src : Src} {dst : Dst}
    (hdst : spec id src = some dst) : Sound spec (cache.insert id src dst) := by
  intro i s d hd
  unfold Cache.insert at hd
  split at hd
  case isTrue heq =>
    obtain ⟨rfl, rfl⟩ := heq
    rw [hdst, hd]
  case isFalse => exact h hd

theorem Sound.steps (hr : Meets r spec) (h : Sound spec cache) (hsteps : Steps r cache cache') :
    Sound spec cache' := by
  induction hsteps with
  | refl => exact h
  | tail _ hstep ih =>
    obtain ⟨hchildren, hdst⟩ := hstep
    exact ih.insert ((hr ih hchildren).mp hdst)

theorem Steps.isSome (hsteps : Steps r cache cache') {id : Id} {src : Src} (h : (cache id src).isSome) :
    (cache' id src).isSome := by
  induction hsteps with
  | refl => exact h
  | tail _ hstep ih =>
    obtain ⟨-, -⟩ := hstep
    exact Cache.insert_isSome ih _ _ _

/-- From every sound cache the object can be translated. -/
def Reaches (r : Rules Id Src Dst ε) (spec : Id → Src → Option Dst) (c : Id × Src) : Prop :=
  ∀ cache, Sound spec cache → ∃ cache', Steps r cache cache' ∧ (cache' c.1 c.2).isSome

theorem exists_steps_of_reaches (hr : Meets r spec) {cs : List (Id × Src)}
    (h : ∀ c ∈ cs, Reaches r spec c) (hsound : Sound spec cache) :
    ∃ cache', Steps r cache cache' ∧ ∀ c ∈ cs, (cache' c.1 c.2).isSome := by
  induction cs generalizing cache with
  | nil => exact ⟨cache, .refl, nofun⟩
  | cons c cs ih =>
    obtain ⟨cache₁, hsteps₁, hc⟩ := h c List.mem_cons_self cache hsound
    obtain ⟨cache₂, hsteps₂, hcs⟩ := ih (fun c hc => h c (List.mem_cons_of_mem _ hc))
      (hsound.steps hr hsteps₁)
    refine ⟨cache₂, hsteps₁.trans hsteps₂, ?_⟩
    intro d hd
    rcases List.mem_cons.mp hd with rfl | hd
    · exact Steps.isSome hsteps₂ hc
    · exact hcs d hd

/-- The step of an induction over objects: the children first, then the object. -/
theorem reaches_of_children (hr : Meets r spec) {id : Id} {src : Src} (hspec : (spec id src).isSome)
    (h : ∀ c ∈ r.children id src, Reaches r spec c) : Reaches r spec (id, src) := by
  intro cache hsound
  obtain ⟨cache', hsteps, hchildren⟩ := exists_steps_of_reaches hr h hsound
  obtain ⟨dst, hdst⟩ := Option.isSome_iff_exists.mp hspec
  have hfinalize := (hr (hsound.steps hr hsteps) hchildren).mpr hdst
  refine ⟨_, hsteps.tail (.finalize hchildren hfinalize), ?_⟩
  rw [Cache.insert_self]
  rfl

/-- The objects that the translation of one leads to. -/
inductive Within (r : Rules Id Src Dst ε) (root : Id × Src) : Id × Src → Prop
  | root : Within r root root
  | child {c d : Id × Src} : Within r root c → d ∈ r.children c.1 c.2 → Within r root d

end MidnightNode.Translation
