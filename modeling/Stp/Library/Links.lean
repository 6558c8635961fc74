import Mathlib.Data.List.Nodup
import Mathlib.Logic.Function.Basic

/-!
# Linked lists in memory

Nodes that lie in memory and point to each other. A pointer is an `Option` of a node, the null
pointer `none`. A chain starts at a pointer and follows the links of its nodes to a null pointer. A
segment starts at a cell, where a pointer is stored, and ends at a cell that it does not read: the
cell where its next node would be stored. Lists at several places are apart when no node is in two
of them, or twice in one.
-/

namespace Links

variable {N C : Type*}

/-- The nodes of a chain. -/
def Linked (link : N → Option N) : Option N → List N → Prop
  | p, [] => p = none
  | p, n :: ns => p = some n ∧ Linked link (link n) ns

section Linked

variable {link link' : N → Option N} {p : Option N} {n : N} {ns ns' : List N}

@[simp] theorem linked_nil : Linked link p [] ↔ p = none := Iff.rfl

@[simp] theorem linked_cons :
    Linked link p (n :: ns) ↔ p = some n ∧ Linked link (link n) ns := Iff.rfl

/-- A chain depends on the links of its nodes only. -/
theorem Linked.congr (h : Linked link p ns) (hlink : ∀ n ∈ ns, link' n = link n) :
    Linked link' p ns := by
  induction ns generalizing p with
  | nil => exact h
  | cons n ns ih =>
      refine ⟨h.1, ?_⟩
      rw [hlink n List.mem_cons_self]
      exact ih h.2 fun m hm => hlink m (List.mem_cons_of_mem n hm)

/-- A pointer is the start of one chain at most. -/
theorem Linked.unique (h : Linked link p ns) (h' : Linked link p ns') : ns = ns' := by
  induction ns generalizing p ns' with
  | nil =>
      cases ns' with
      | nil => rfl
      | cons n' ns' => exact absurd (h'.1.symm.trans h) (Option.some_ne_none n')
  | cons n ns ih =>
      cases ns' with
      | nil => exact absurd (h.1.symm.trans h') (Option.some_ne_none n)
      | cons n' ns' =>
          obtain rfl : n = n' := Option.some_inj.mp (h.1.symm.trans h'.1)
          rw [ih h.2 h'.2]

theorem Linked.none_iff (h : Linked link p ns) : p = none ↔ ns = [] := by
  cases ns with
  | nil => exact iff_of_true h rfl
  | cons n ns => exact iff_of_false (h.1 ▸ Option.some_ne_none n) (List.cons_ne_nil n ns)

/-- The first node of a chain can be taken off. -/
theorem Linked.some_inv (h : Linked link (some n) ns) :
    ∃ rest, ns = n :: rest ∧ Linked link (link n) rest := by
  cases ns with
  | nil => exact absurd h (Option.some_ne_none n)
  | cons m rest =>
      obtain rfl : n = m := Option.some_inj.mp h.1
      exact ⟨rest, rfl, h.2⟩

end Linked

/-- The nodes of a segment between two cells. -/
def Segment (next : N → C) (cells : C → Option N) : C → List N → C → Prop
  | c, [], c' => c = c'
  | c, n :: ns, c' => cells c = some n ∧ Segment next cells (next n) ns c'

section Segment

variable {next : N → C} {cells cells' : C → Option N} {c c' : C} {n : N} {ns : List N}

theorem Segment.end_mem (h : Segment next cells c ns c') : c' ∈ c :: ns.map next := by
  induction ns generalizing c with
  | nil => exact List.mem_singleton.mpr h.symm
  | cons n ns ih => exact List.mem_cons_of_mem c (ih h.2)

theorem Segment.congr (h : Segment next cells c ns c')
    (hcells : ∀ d ∈ c :: ns.map next, d ≠ c' → cells' d = cells d)
    (hnodup : (c :: ns.map next).Nodup) : Segment next cells' c ns c' := by
  induction ns generalizing c with
  | nil => exact h
  | cons n ns ih =>
      obtain ⟨hnot, hnodup⟩ := List.nodup_cons.mp hnodup
      have hne : c ≠ c' := fun heq => hnot (heq ▸ h.2.end_mem)
      refine ⟨(hcells c List.mem_cons_self hne).trans h.1, ih h.2 ?_ hnodup⟩
      exact fun d hd => hcells d (List.mem_cons_of_mem c hd)

theorem Segment.concat (h : Segment next cells c ns c') (hcell : cells c' = some n) :
    Segment next cells c (ns ++ [n]) (next n) := by
  induction ns generalizing c with
  | nil =>
      obtain rfl : c = c' := h
      exact ⟨hcell, rfl⟩
  | cons m ns ih => exact ⟨h.1, ih h.2⟩

/-- A segment whose end is a null pointer is a chain. -/
theorem Segment.linked (h : Segment next cells c ns c') (hcell : cells c' = none) :
    Linked (fun n => cells (next n)) (cells c) ns := by
  induction ns generalizing c with
  | nil =>
      obtain rfl : c = c' := h
      exact hcell
  | cons m ns ih => exact ⟨h.1, ih h.2⟩

end Segment

/-- Each node is at one place at most, and there once. -/
structure Apart {P : Type*} (q : P → List N) : Prop where
  nodup : ∀ p, (q p).Nodup
  disjoint : ∀ p p' n, n ∈ q p → n ∈ q p' → p = p'

section Apart

variable {P : Type*} [DecidableEq P] {q : P → List N} {p p' : P} {n : N} {ns : List N}

/-- A place may lose nodes, and gain nodes that are nowhere. -/
theorem Apart.update (hq : Apart q) (hnodup : ns.Nodup)
    (hns : ∀ n ∈ ns, n ∈ q p ∨ ∀ p', n ∉ q p') : Apart (Function.update q p ns) := by
  have hother {p' : P} (hne : p' ≠ p) {n : N} (hn : n ∈ ns) : n ∉ q p' := fun hn' =>
    (hns n hn).elim (fun h => hne (hq.disjoint p' p n hn' h)) fun h => h p' hn'
  refine ⟨fun p' => ?_, fun p' p'' n hn' hn'' => ?_⟩
  · by_cases hp : p' = p
    · rwa [hp, Function.update_self]
    · rw [Function.update_of_ne hp]
      exact hq.nodup p'
  · by_cases hp' : p' = p <;> by_cases hp'' : p'' = p
    · rw [hp', hp'']
    · rw [hp', Function.update_self] at hn'
      rw [Function.update_of_ne hp''] at hn''
      exact absurd hn'' (hother hp'' hn')
    · rw [hp'', Function.update_self] at hn''
      rw [Function.update_of_ne hp'] at hn'
      exact absurd hn' (hother hp' hn'')
    · rw [Function.update_of_ne hp'] at hn'
      rw [Function.update_of_ne hp''] at hn''
      exact hq.disjoint p' p'' n hn' hn''

/-- What is taken out of a place is nowhere. -/
theorem Apart.not_mem_update (hq : Apart q) (hn : n ∈ q p) (hns : n ∉ ns) :
    ∀ p', n ∉ Function.update q p ns p' := by
  intro p' hn'
  by_cases hp : p' = p
  · rw [hp, Function.update_self] at hn'
    exact hns hn'
  · rw [Function.update_of_ne hp] at hn'
    exact hp (hq.disjoint p' p n hn' hn)

end Apart

end Links
