import Mathlib.Logic.Function.Basic
import Stp.Types

/-!
# The registry

`gProcsMap` and the counter in `reg`. The counter is a 32-bit word that wraps around, and `reg`
stores under the new number whatever was there before.
-/

namespace Stp.Process

structure Registry (P : Type*) where
  seq : UInt32
  procs : ProcessT → Option P

variable {P : Type*}

def Registry.empty : Registry P where
  seq := 0
  procs _ := none

def Registry.reg (r : Registry P) (p : P) : ProcessT × Registry P :=
  (r.seq + 1, { seq := r.seq + 1, procs := Function.update r.procs (r.seq + 1) (some p) })

/-- The flag says that an entry was erased. -/
def Registry.unreg (r : Registry P) (pid : ProcessT) : Bool × Registry P :=
  ((r.procs pid).isSome, { r with procs := Function.update r.procs pid none })

/-- The look-up in `find`. -/
def Registry.find (r : Registry P) (pid : ProcessT) : Option P := r.procs pid

theorem Registry.find_reg {r : Registry P} {p q : P} {pid : ProcessT}
    (hfind : (r.reg p).2.find pid = some q) :
    (pid = (r.reg p).1 ∧ q = p) ∨ r.find pid = some q := by
  by_cases hpid : pid = r.seq + 1
  · subst hpid
    refine Or.inl ⟨rfl, ?_⟩
    simp only [find, reg, Function.update_self, Option.some.injEq] at hfind
    exact hfind.symm
  · simp only [find, reg, Function.update_of_ne hpid] at hfind
    exact Or.inr hfind

theorem Registry.find_unreg {r : Registry P} {q : P} {pid id : ProcessT}
    (hfind : (r.unreg pid).2.find id = some q) : id ≠ pid ∧ r.find id = some q := by
  by_cases hid : id = pid
  · subst hid
    simp [find, unreg] at hfind
  · simp only [find, unreg, Function.update_of_ne hid] at hfind
    exact ⟨hid, hfind⟩

end Stp.Process
