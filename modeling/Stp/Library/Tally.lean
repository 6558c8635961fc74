import Mathlib.Algebra.BigOperators.Group.Finset.Basic
import Mathlib.Algebra.Order.Group.Multiset
import Mathlib.Algebra.BigOperators.Group.Multiset.Basic
import Mathlib.Algebra.Order.BigOperators.Group.Finset
import Mathlib.Data.Fintype.BigOperators

/-!
# Tallies

A family indexed by a finite type (the program counters of a set of threads, the buckets of a
table) is measured by summing a weight over its members. Every step of a concurrent system changes
one member, so every tally it keeps moves by the difference of two weights. That is the only fact
about sums the counting invariants need, and it is stated without subtraction so that it serves
weights in any commutative monoid: numbers of threads, and multisets of stored items alike. A table
that grows is gathered over the indices that it has had so far.
-/

open scoped BigOperators

namespace Tally

variable {ι α M : Type*} [Fintype ι] [AddCommMonoid M]

/-- The total weight of a family. A sum over a large index type is never to be unfolded. -/
@[irreducible]
def total (weight : α → M) (family : ι → α) : M := ∑ i, weight (family i)

/-- **Moving one member.** Replacing one member of a family trades its weight for the new one's. -/
theorem total_update [DecidableEq ι] (weight : α → M) (family : ι → α) (i : ι) (a : α) :
    total weight (Function.update family i a) + weight (family i)
      = total weight family + weight a := by
  have hupdate : (fun j => weight (Function.update family i a j))
      = Function.update (fun j => weight (family j)) i (weight a) := by
    funext j
    by_cases hj : j = i <;> simp [hj]
  unfold total
  rw [hupdate, Finset.sum_update_of_mem (Finset.mem_univ i), Finset.sdiff_singleton_eq_erase]
  calc weight a + ∑ j ∈ Finset.univ.erase i, weight (family j) + weight (family i)
      = weight a + (∑ j ∈ Finset.univ.erase i, weight (family j) + weight (family i)) :=
        add_assoc _ _ _
    _ = weight a + ∑ j, weight (family j) := by
        rw [Finset.sum_erase_add _ _ (Finset.mem_univ i)]
    _ = ∑ j, weight (family j) + weight a := add_comm _ _

theorem total_le_total {weight weight' : α → Nat} (hle : ∀ a, weight a ≤ weight' a)
    (family : ι → α) : total weight family ≤ total weight' family := by
  unfold total
  exact Finset.sum_le_sum fun i _ => hle (family i)

theorem total_add (weight weight' : α → M) (family : ι → α) :
    total (fun a => weight a + weight' a) family = total weight family + total weight' family := by
  unfold total
  exact Finset.sum_add_distrib

theorem total_zero {weight : α → M} {family : ι → α} (hzero : ∀ i, weight (family i) = 0) :
    total weight family = 0 := by
  unfold total
  exact Finset.sum_eq_zero fun i _ => hzero i

theorem le_total (weight : α → Nat) (family : ι → α) (i : ι) :
    weight (family i) ≤ total weight family := by
  unfold total
  exact Finset.single_le_sum (f := fun j => weight (family j)) (fun _ _ => Nat.zero_le _)
    (Finset.mem_univ i)

theorem total_le_card {weight : α → Nat} (hle : ∀ a, weight a ≤ 1) (family : ι → α) :
    total weight family ≤ Fintype.card ι := by
  unfold total
  calc ∑ i, weight (family i) ≤ ∑ _i : ι, 1 := Finset.sum_le_sum fun i _ => hle (family i)
    _ = Fintype.card ι := (Finset.card_eq_sum_ones Finset.univ).symm

theorem total_eq_card {weight : α → Nat} {family : ι → α} (hone : ∀ i, weight (family i) = 1) :
    total weight family = Fintype.card ι := by
  unfold total
  rw [Finset.sum_congr rfl fun i _ => hone i]
  exact (Finset.card_eq_sum_ones Finset.univ).symm

theorem total_eq_zero {weight : α → Nat} {family : ι → α} :
    total weight family = 0 ↔ ∀ i, weight (family i) = 0 := by
  unfold total
  rw [Finset.sum_eq_zero_iff]
  exact ⟨fun h i => h i (Finset.mem_univ i), fun h i _ => h i⟩

/-- One member weighs nothing, and none more than the bound. -/
theorem total_le_of_zero {weight : α → Nat} {family : ι → α} {i : ι} {bound : Nat}
    (hzero : weight (family i) = 0) (hle : ∀ j, weight (family j) ≤ bound) :
    total weight family ≤ (Fintype.card ι - 1) * bound := by
  classical
  unfold total
  rw [← Finset.sum_erase_add _ _ (Finset.mem_univ i), hzero, add_zero]
  calc ∑ j ∈ Finset.univ.erase i, weight (family j)
      ≤ ∑ _j ∈ Finset.univ.erase i, bound := Finset.sum_le_sum fun j _ => hle j
    _ = (Finset.univ.erase i).card * bound := Finset.sum_const_nat fun _ _ => rfl
    _ = (Fintype.card ι - 1) * bound := by
        rw [Finset.card_erase_of_mem (Finset.mem_univ i), Finset.card_univ]

omit [AddCommMonoid M] in
theorem card_total (weight : α → Multiset M) (family : ι → α) :
    (total weight family).card = total (fun a => (weight a).card) family := by
  unfold total
  exact map_sum Multiset.cardHom _ _

/-! ### Tables of lists -/

section Contents

def contents (table : ι → List α) : Multiset α := total (fun list : List α => (list : Multiset α)) table

theorem contents_empty : contents (fun _ : ι => ([] : List α)) = 0 := by
  rw [contents, total]
  exact Finset.sum_const_zero

variable [DecidableEq ι]

omit [Fintype ι] in
theorem mem_update_append {table : ι → List α} {i j : ι} {a b : α}
    (hmem : b ∈ Function.update table i (table i ++ [a]) j) : b ∈ table j ∨ (j = i ∧ b = a) := by
  by_cases hj : j = i
  · subst hj
    rw [Function.update_self] at hmem
    exact (List.mem_append.mp hmem).imp id fun hb => ⟨rfl, List.mem_singleton.mp hb⟩
  · rw [Function.update_of_ne hj] at hmem
    exact Or.inl hmem

omit [Fintype ι] in
theorem mem_update_nil {table : ι → List α} {i j : ι} {b : α}
    (hmem : b ∈ Function.update table i [] j) : j ≠ i ∧ b ∈ table j := by
  by_cases hj : j = i
  · subst hj
    simp at hmem
  · rw [Function.update_of_ne hj] at hmem
    exact ⟨hj, hmem⟩

theorem contents_append (table : ι → List α) (i : ι) (a : α) :
    contents (Function.update table i (table i ++ [a])) = a ::ₘ contents table := by
  have htotal := total_update (fun list : List α => (list : Multiset α)) table i (table i ++ [a])
  rw [← Multiset.coe_add, ← add_assoc] at htotal
  rw [← Multiset.singleton_add, add_comm]
  refine add_right_cancel (b := (table i : Multiset α)) ?_
  rw [contents, htotal, contents, Multiset.coe_singleton]
  exact add_right_comm _ _ _

theorem contents_clear (table : ι → List α) (i : ι) :
    contents (Function.update table i []) + table i = contents table :=
  (total_update (fun list : List α => (list : Multiset α)) table i []).trans (add_zero _)

omit [DecidableEq ι] in
theorem mem_contents {table : ι → List α} {a : α} :
    a ∈ contents table ↔ ∃ i, a ∈ table i := by
  simp [contents, total, Multiset.mem_sum]

omit [DecidableEq ι] in
theorem contents_map {β : Type*} (f : α → β) (table : ι → List α) :
    contents (fun i => (table i).map f) = (contents table).map f := by
  unfold contents total
  rw [← Multiset.coe_mapAddMonoidHom, map_sum]
  exact Finset.sum_congr rfl fun i _ => (Multiset.map_coe f (table i)).symm

omit [DecidableEq ι] in
theorem contents_sum {κ : Type*} [Fintype κ] (table : ι → List α) (table' : κ → List α) :
    contents (Sum.elim table table') = contents table + contents table' := by
  unfold contents total
  rw [Fintype.sum_sum_type]
  rfl

end Contents

/-! ### Tables that grow -/

section Gathered

/-- What the first `n` lists of a table hold. -/
def gathered (table : Nat → List α) (n : Nat) : Multiset α :=
  ∑ i ∈ Finset.range n, (table i : Multiset α)

theorem gathered_succ (table : Nat → List α) (n : Nat) :
    gathered table (n + 1) = gathered table n + table n :=
  Finset.sum_range_succ _ _

/-- A table that grows by empty lists. -/
theorem gathered_extend {table : Nat → List α} {n m : Nat} (hle : n ≤ m)
    (hnil : ∀ i, n ≤ i → table i = []) : gathered table m = gathered table n := by
  induction m, hle using Nat.le_induction with
  | base => rfl
  | succ m hle ih => rw [gathered_succ, hnil m hle, Multiset.coe_nil, add_zero, ih]

theorem gathered_eq_zero {table : Nat → List α} {n : Nat} (hnil : ∀ i < n, table i = []) :
    gathered table n = 0 :=
  Finset.sum_eq_zero fun i hi => by rw [hnil i (Finset.mem_range.mp hi), Multiset.coe_nil]

theorem gathered_update (table : Nat → List α) {n i : Nat} (hi : i < n) (list : List α) :
    gathered (Function.update table i list) n + table i = gathered table n + list := by
  have hmem := Finset.mem_range.mpr hi
  have hothers : ∑ j ∈ (Finset.range n).erase i, (Function.update table i list j : Multiset α)
      = ∑ j ∈ (Finset.range n).erase i, (table j : Multiset α) :=
    Finset.sum_congr rfl fun j hj => by rw [Function.update_of_ne (Finset.ne_of_mem_erase hj)]
  unfold gathered
  rw [← Finset.sum_erase_add _ _ hmem, ← Finset.sum_erase_add (Finset.range n) _ hmem, hothers,
    Function.update_self]
  exact add_right_comm _ _ _

/-- Some of the lists are taken from the table, each as often as its index is in a list. -/
theorem gathered_flatMap {table before after : Nat → List α} {n : Nat} {indices : List Nat}
    (hindices : ∀ i ∈ indices, i < n ∨ table i = [])
    (htaken : ∀ i < n, (before i : Multiset α) = after i + indices.count i • (table i : Multiset α)) :
    gathered before n = gathered after n + (indices.flatMap table : List α) := by
  have hsum : ∑ i ∈ Finset.range n, indices.count i • (table i : Multiset α)
      = (indices.flatMap table : List α) := by
    clear htaken
    induction indices with
    | nil =>
        simp only [List.count_nil, zero_nsmul, Finset.sum_const_zero, List.flatMap_nil,
          Multiset.coe_nil]
    | cons index indices ih =>
        have ih := ih fun i hi => hindices i (List.mem_cons_of_mem _ hi)
        have hone : ∑ i ∈ Finset.range n, (if index = i then 1 else 0) • (table i : Multiset α)
            = table index := by
          obtain hlt | hnil := hindices index (List.mem_cons_self ..)
          · rw [Finset.sum_eq_single index]
            · rw [if_pos rfl, one_nsmul]
            · intro i _ hne
              rw [if_neg (Ne.symm hne), zero_nsmul]
            · exact fun hnot => absurd (Finset.mem_range.mpr hlt) hnot
          · rw [hnil, Multiset.coe_nil]
            refine Finset.sum_eq_zero fun i _ => ?_
            split
            · next hi => rw [← hi, hnil, Multiset.coe_nil, nsmul_zero]
            · exact zero_nsmul _
        rw [List.flatMap_cons, ← Multiset.coe_add, ← ih, ← hone, ← Finset.sum_add_distrib]
        refine Finset.sum_congr rfl fun i _ => ?_
        rw [List.count_cons, add_nsmul, add_comm]
        by_cases hi : index = i <;> simp [hi]
  rw [← hsum]
  unfold gathered
  rw [← Finset.sum_add_distrib]
  exact Finset.sum_congr rfl fun i hi => htaken i (Finset.mem_range.mp hi)

end Gathered

end Tally
