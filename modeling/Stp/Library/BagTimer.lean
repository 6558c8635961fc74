import Mathlib.Data.Multiset.Filter

/-!
# The naive timer

A bag of items and a clock. A tick fires the items due at the present instant, all of them and
nothing else, and moves the clock by one. There is no index and nothing to keep in order, so this
is what a cleverer timer is measured against: as long as no item is added after its instant has
passed, what has fired is exactly what is due before the clock.
-/

namespace BagTimer

structure Bag (α : Type*) where
  now : Nat
  pending : Multiset α

variable {α : Type*} (due : α → Nat)

def Bag.add (bag : Bag α) (a : α) : Bag α := { bag with pending := a ::ₘ bag.pending }

def Bag.tick (bag : Bag α) : Multiset α × Bag α :=
  (bag.pending.filter fun a => due a = bag.now,
    { now := bag.now + 1, pending := bag.pending.filter fun a => due a ≠ bag.now })

def Bag.ticks : Nat → Bag α → Multiset α × Bag α
  | 0, bag => (0, bag)
  | n + 1, bag =>
      ((bag.tick due).1 + (ticks n (bag.tick due).2).1, (ticks n (bag.tick due).2).2)

def Bag.Timely (bag : Bag α) : Prop := ∀ a ∈ bag.pending, bag.now ≤ due a

variable {due}

theorem Bag.Timely.tick {bag : Bag α} (htimely : bag.Timely due) :
    (bag.tick due).2.Timely due := by
  intro a ha
  obtain ⟨hmem, hne⟩ := Multiset.mem_filter.mp ha
  have := htimely a hmem
  simp only [Bag.tick]
  omega

/-- **Ticking on time.** A timely bag fires over `n` ticks the items due before the clock it
reaches, and keeps the others. -/
theorem Bag.ticks_eq (n : Nat) {bag : Bag α} (htimely : bag.Timely due) :
    bag.ticks due n = (bag.pending.filter fun a => due a < bag.now + n,
      { now := bag.now + n, pending := bag.pending.filter fun a => ¬ due a < bag.now + n }) := by
  induction n generalizing bag with
  | zero =>
      have hnone : bag.pending.filter (fun a => due a < bag.now + 0) = 0 :=
        Multiset.filter_eq_nil.mpr fun a ha => Nat.not_lt.mpr (htimely a ha)
      have hall : bag.pending.filter (fun a => ¬ due a < bag.now + 0) = bag.pending :=
        Multiset.filter_eq_self.mpr fun a ha => Nat.not_lt.mpr (htimely a ha)
      rw [hnone, hall]
      rfl
  | succ n ih =>
      have hfired : (bag.pending.filter fun a => due a = bag.now)
          + ((bag.pending.filter fun a => due a ≠ bag.now).filter
              fun a => due a < bag.now + 1 + n)
          = bag.pending.filter fun a => due a < bag.now + (n + 1) := by
        rw [Multiset.filter_filter, Multiset.filter_add_filter,
          Multiset.filter_eq_nil (p := fun a => due a = bag.now ∧ _).mpr fun a _ h => h.2.2 h.1,
          Multiset.add_zero]
        refine Multiset.filter_congr fun a ha => ?_
        have := htimely a ha
        omega
      have hkept : (bag.pending.filter fun a => due a ≠ bag.now).filter
            (fun a => ¬ due a < bag.now + 1 + n)
          = bag.pending.filter fun a => ¬ due a < bag.now + (n + 1) := by
        rw [Multiset.filter_filter]
        refine Multiset.filter_congr fun a ha => ?_
        have := htimely a ha
        omega
      rw [Bag.ticks, ih htimely.tick, ← hfired, ← hkept, Nat.add_comm n 1, ← Nat.add_assoc]
      rfl

/-! ### Runs -/

inductive Op (α : Type*) where
  | add (a : α)
  | ticks (n : Nat)

variable (due) in
def Bag.step (bag : Bag α) : Op α → Multiset α × Bag α
  | .add a => (0, bag.add a)
  | .ticks n => bag.ticks due n

variable (due) in
def Bag.run : Bag α → List (Op α) → Multiset α × Bag α
  | bag, [] => (0, bag)
  | bag, op :: ops =>
      ((bag.step due op).1 + ((bag.step due op).2.run ops).1, ((bag.step due op).2.run ops).2)

def added : List (Op α) → Multiset α
  | [] => 0
  | .add a :: ops => a ::ₘ added ops
  | .ticks _ :: ops => added ops

variable (due) in
def TimelyOps (now : Nat) : List (Op α) → Prop
  | [] => True
  | .add a :: ops => now ≤ due a ∧ TimelyOps now ops
  | .ticks n :: ops => TimelyOps (now + n) ops

theorem filter_due_split (items : Multiset α) {early late : Nat} (hle : early ≤ late) :
    (items.filter fun a => due a < early)
        + ((items.filter fun a => ¬ due a < early).filter fun a => due a < late)
      = items.filter fun a => due a < late := by
  rw [Multiset.filter_filter, Multiset.filter_add_filter,
    Multiset.filter_eq_nil (p := fun a => due a < early ∧ _).mpr fun a _ h => h.2.2 h.1,
    Multiset.add_zero]
  exact Multiset.filter_congr fun a _ => by omega

theorem Bag.now_le_run (bag : Bag α) (ops : List (Op α)) : bag.now ≤ (bag.run due ops).2.now := by
  induction ops generalizing bag with
  | nil => exact le_rfl
  | cons op ops ih =>
      refine le_trans ?_ (ih _)
      cases op with
      | add a => exact le_rfl
      | ticks n =>
          induction n generalizing bag with
          | zero => exact le_rfl
          | succ n ihn => exact (Nat.le_succ _).trans (ihn (bag.tick due).2)

/-- **Runs of the naive timer.** What a timely run has fired is what was ever added and is due
before the clock, and the bag holds the rest. -/
theorem Bag.run_eq (ops : List (Op α)) {bag : Bag α} (htimely : bag.Timely due)
    (hops : TimelyOps due bag.now ops) :
    (bag.run due ops).1
        = (bag.pending + added ops).filter (fun a => due a < (bag.run due ops).2.now)
      ∧ (bag.run due ops).2.pending
        = (bag.pending + added ops).filter fun a => ¬ due a < (bag.run due ops).2.now := by
  induction ops generalizing bag with
  | nil =>
      have hfired : bag.pending.filter (fun a => due a < bag.now) = 0 :=
        Multiset.filter_eq_nil.mpr fun a ha => Nat.not_lt.mpr (htimely a ha)
      have hkept : bag.pending.filter (fun a => ¬ due a < bag.now) = bag.pending :=
        Multiset.filter_eq_self.mpr fun a ha => Nat.not_lt.mpr (htimely a ha)
      simp only [Bag.run, added, Multiset.add_zero]
      exact ⟨hfired.symm, hkept.symm⟩
  | cons op ops ih =>
      cases op with
      | add a =>
          have htimely' : (bag.add a).Timely due := by
            intro b hb
            rcases Multiset.mem_cons.mp hb with rfl | hold
            · exact hops.1
            · exact htimely b hold
          obtain ⟨hfired, hkept⟩ := ih htimely' hops.2
          simp only [Bag.run, Bag.step, added, Multiset.zero_add, Multiset.add_cons]
          rw [Bag.add, Multiset.cons_add] at hfired hkept
          exact ⟨hfired, hkept⟩
      | ticks n =>
          set next := (bag.ticks due n).2 with hnext
          have hticks := Bag.ticks_eq n htimely
          have hnow : next.now = bag.now + n := by rw [hnext, hticks]
          have hpending : next.pending = bag.pending.filter fun a => ¬ due a < bag.now + n := by
            rw [hnext, hticks]
          have htimely' : next.Timely due := by
            intro a ha
            rw [hpending] at ha
            rw [hnow]
            exact Nat.not_lt.mp (Multiset.mem_filter.mp ha).2
          obtain ⟨hfired, hkept⟩ := ih htimely' (by rw [hnow]; exact hops)
          have hle : bag.now + n ≤ (next.run due ops).2.now := hnow ▸ next.now_le_run ops
          rw [hpending, Multiset.filter_add] at hfired hkept
          simp only [Bag.run, Bag.step, added, ← hnext]
          constructor
          · rw [hfired, hticks, Multiset.filter_add, ← Multiset.add_assoc,
              filter_due_split bag.pending hle]
          · rw [hkept, Multiset.filter_add, Multiset.filter_filter]
            congr 1
            exact Multiset.filter_congr fun a _ => by omega

end BagTimer
