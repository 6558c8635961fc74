import Mathlib.Algebra.BigOperators.Fin
import Mathlib.Tactic.Abel
import Stp.Library.FreeList
import Stp.Library.Tally
import Stp.Library.Transition

/-!
# Pools of messages and contexts

Messages and contexts are taken from free lists: each thread has one of its own, and when that is
empty there is a list that all threads share under a lock, and then `malloc`. What a thread gives back
goes to its own list, up to a limit, and to the shared list from there on. A block may be given back
by another thread than the one that got it, and `malloc` is the only source of blocks, which are never
freed.

A section under the lock is one step, and so is what a thread does to its own list.
-/

namespace Stp.Pools

open Tally

/-- Where a thread stands in `allocMessage` or `deallocMessage`. -/
inductive Pc (N : Type*) where
  | idle
  /-- Has found its own list empty. -/
  | missedOwn
  /-- Has found the shared list empty, and calls `malloc`. -/
  | missedShared
  /-- Has found its own list full, and pushes the block to the shared list. -/
  | full (node : N)

/-- The fields `live` and `allocated` are not in the program: the blocks that were handed out and not
given back, and those that `malloc` ever returned. -/
structure State (F N T : Type*) where
  own : T → F
  shared : F
  pc : T → Pc N
  live : Finset N
  allocated : Finset N

inductive Label (N T : Type*) where
  | tau
  | alloc (t : T) (node : N)
  | dealloc (t : T) (node : N)

variable {F N T : Type*} [DecidableEq N] [DecidableEq T] (frees : FreeList F N) (limit : Nat)

def State.setPc (s : State F N T) (t : T) (pc : Pc N) : State F N T :=
  { s with pc := Function.update s.pc t pc }

/-- Thread `t` returns the block to its caller. -/
def State.give (s : State F N T) (t : T) (node : N) : State F N T :=
  { s.setPc t .idle with live := insert node s.live }

inductive Step (s : State F N T) : Label N T → State F N T → Prop
  | takeOwn (t : T) (node : N) (own : F) (hpc : s.pc t = .idle)
      (htake : frees.take (s.own t) = some (node, own)) :
      Step s (.alloc t node) { s.give t node with own := Function.update s.own t own }
  | missOwn (t : T) (hpc : s.pc t = .idle) (htake : frees.take (s.own t) = none) :
      Step s .tau (s.setPc t .missedOwn)
  | takeShared (t : T) (node : N) (shared : F) (hpc : s.pc t = .missedOwn)
      (htake : frees.take s.shared = some (node, shared)) :
      Step s (.alloc t node) { s.give t node with shared := shared }
  | missShared (t : T) (hpc : s.pc t = .missedOwn) (htake : frees.take s.shared = none) :
      Step s .tau (s.setPc t .missedShared)
  | malloc (t : T) (node : N) (hpc : s.pc t = .missedShared) (hfresh : node ∉ s.allocated) :
      Step s (.alloc t node) { s.give t node with allocated := insert node s.allocated }
  | pushOwn (t : T) (node : N) (hpc : s.pc t = .idle) (hlive : node ∈ s.live)
      (hsize : frees.size (s.own t) < limit) :
      Step s (.dealloc t node)
        { s with
          own := Function.update s.own t (frees.push (s.own t) node)
          live := s.live.erase node }
  | ownFull (t : T) (node : N) (hpc : s.pc t = .idle) (hlive : node ∈ s.live)
      (hsize : limit ≤ frees.size (s.own t)) :
      Step s (.dealloc t node) { s.setPc t (.full node) with live := s.live.erase node }
  | pushShared (t : T) (node : N) (hpc : s.pc t = .full node) :
      Step s .tau { s.setPc t .idle with shared := frees.push s.shared node }

def State.fresh : State F N T where
  own _ := frees.empty
  shared := frees.empty
  pc _ := .idle
  live := ∅
  allocated := ∅

def system : Transition.System (State F N T) (Label N T) where
  init s := s = State.fresh frees
  step := Step frees limit

/-- `allocMessage` and `deallocMessage`. -/
def messages : Transition.System (State F N T) (Label N T) := system frees 10000

/-- `allocContext` and `deallocContext`; `Context::create` calls `new` where `allocContext` returns
`nullptr`. -/
def contexts : Transition.System (State F N T) (Label N T) := system frees 5000

/-! ### Where the blocks are -/

def Pc.held : Pc N → Multiset N
  | .full node => {node}
  | _ => 0

/-- Has found its own list empty, and has not got a block yet. -/
def Pc.Missed (pc : Pc N) : Prop := pc = .missedOwn ∨ pc = .missedShared

variable [Fintype T]

/-- The blocks that are free, or on their way. -/
def State.pooled (s : State F N T) : Multiset N :=
  frees.nodes s.shared + total frees.nodes s.own + total Pc.held s.pc

structure Sound (s : State F N T) : Prop where
  blocks : s.allocated.val = s.live.val + s.pooled frees
  limit : ∀ t, frees.size (s.own t) ≤ limit
  missed : ∀ t, (s.pc t).Missed → frees.nodes (s.own t) = 0

variable {frees limit} {s s' : State F N T}

omit [DecidableEq N] [DecidableEq T] in
theorem sound_fresh : Sound frees limit (State.fresh frees : State F N T) where
  blocks := by
    have hown : total frees.nodes (fun _ : T => frees.empty) = 0 :=
      total_zero fun _ => frees.nodes_empty
    have hheld : total Pc.held (fun _ : T => (.idle : Pc N)) = 0 := total_zero fun _ => rfl
    simp [State.fresh, State.pooled, frees.nodes_empty, hown, hheld]
  limit _ := by simp [State.fresh, frees.size_eq, frees.nodes_empty]
  missed _ hpc := by simp [State.fresh, Pc.Missed] at hpc

omit [DecidableEq N] in
theorem total_take {own : T → F} {t : T} {node : N} {own' : F}
    (htake : frees.take (own t) = some (node, own')) :
    total frees.nodes own = total frees.nodes (Function.update own t own') + {node} := by
  have hupdate := total_update frees.nodes own t own'
  rw [frees.nodes_take htake, ← Multiset.singleton_add, ← add_assoc] at hupdate
  exact (add_right_cancel hupdate).symm

omit [DecidableEq N] in
theorem total_push (frees : FreeList F N) (own : T → F) (t : T) (node : N) :
    total frees.nodes (Function.update own t (frees.push (own t) node))
      = total frees.nodes own + {node} := by
  have hupdate := total_update frees.nodes own t (frees.push (own t) node)
  rw [frees.nodes_push, ← Multiset.singleton_add, ← add_assoc] at hupdate
  exact add_right_cancel hupdate

omit [DecidableEq N] in
theorem total_held {pc : T → Pc N} {t : T} {old : Pc N} (hpc : pc t = old) (new : Pc N) :
    total Pc.held (Function.update pc t new) + old.held = total Pc.held pc + new.held :=
  hpc ▸ total_update Pc.held pc t new

omit [DecidableEq N] [DecidableEq T] in
theorem Sound.not_live (hs : Sound frees limit s) {node : N} (hnode : node ∈ s.pooled frees) :
    node ∉ s.live := by
  have hnodup : (s.live.val + s.pooled frees).Nodup := hs.blocks ▸ s.allocated.nodup
  intro hlive
  exact Multiset.disjoint_left.mp (Multiset.nodup_add.mp hnodup).2.2 hlive hnode

/-- A block that is given out. -/
theorem insert_val {live : Finset N} {node : N} (hnode : node ∉ live) :
    (insert node live).val = {node} + live.val := by
  rw [Finset.insert_val_of_notMem hnode, Multiset.singleton_add]

theorem Step.blocks {label : Label N T} (hstep : Step frees limit s label s')
    (hs : Sound frees limit s) : s'.allocated.val = s'.live.val + s'.pooled frees := by
  have hblocks := hs.blocks
  cases hstep with
  | takeOwn t node own hpc htake =>
      have hown := total_take htake
      have hheld := total_held hpc .idle
      have hlive : node ∉ s.live := by
        apply hs.not_live
        rw [State.pooled, hown]
        simp
      simp only [State.pooled, State.give, State.setPc, Pc.held, add_zero, insert_val hlive] at *
      rw [hblocks, hown, hheld]
      abel
  | missOwn t hpc =>
      have hheld := total_held hpc .missedOwn
      simp only [State.pooled, State.setPc, Pc.held, add_zero] at *
      rw [hblocks, hheld]
  | missShared t hpc =>
      have hheld := total_held hpc .missedShared
      simp only [State.pooled, State.setPc, Pc.held, add_zero] at *
      rw [hblocks, hheld]
  | takeShared t node shared hpc htake =>
      have hheld := total_held hpc .idle
      have hshared := frees.nodes_take htake
      have hlive : node ∉ s.live := by
        apply hs.not_live
        rw [State.pooled, hshared]
        simp
      simp only [State.pooled, State.give, State.setPc, Pc.held, add_zero, insert_val hlive,
        ← Multiset.singleton_add] at *
      rw [hblocks, hshared, hheld]
      abel
  | malloc t node hpc hfresh =>
      have hheld := total_held hpc .idle
      have hlive : node ∉ s.live := fun hlive => hfresh (by
        rw [← Finset.mem_val, hblocks]
        exact Multiset.mem_add.mpr (Or.inl hlive))
      simp only [State.pooled, State.give, State.setPc, Pc.held, add_zero, insert_val hlive,
        insert_val hfresh] at *
      rw [hblocks, hheld]
      abel
  | pushOwn t node hpc hlive =>
      have hown := total_push frees s.own t node
      have herase : s.live.val = {node} + (s.live.erase node).val := by
        rw [← insert_val (Finset.notMem_erase node s.live), Finset.insert_erase hlive]
      simp only [State.pooled] at *
      rw [hblocks, hown, herase]
      abel
  | ownFull t node hpc hlive =>
      have hheld := total_held hpc (.full node)
      have herase : s.live.val = {node} + (s.live.erase node).val := by
        rw [← insert_val (Finset.notMem_erase node s.live), Finset.insert_erase hlive]
      simp only [State.pooled, State.setPc, Pc.held, add_zero] at *
      rw [hblocks, hheld, herase]
      abel
  | pushShared t node hpc =>
      have hheld := total_held hpc .idle
      simp only [State.pooled, State.setPc, Pc.held, add_zero, frees.nodes_push,
        ← Multiset.singleton_add] at *
      rw [hblocks, ← hheld]
      abel

omit [DecidableEq N] in
/-- A thread that takes from its own list makes it shorter. -/
theorem size_take {f f' : F} {node : N} (htake : frees.take f = some (node, f')) :
    frees.size f = frees.size f' + 1 := by
  rw [frees.size_eq, frees.size_eq, frees.nodes_take htake, Multiset.card_cons]

omit [Fintype T] in
theorem Step.own {label : Label N T} (hstep : Step frees limit s label s')
    (hlimit : ∀ t, frees.size (s.own t) ≤ limit) (t : T) : frees.size (s'.own t) ≤ limit := by
  cases hstep with
  | takeOwn u node own hpc htake =>
      by_cases ht : t = u
      · subst ht
        have hsize := size_take htake
        have hbefore := hlimit t
        simp only [Function.update_self]
        omega
      · simpa [Function.update_of_ne ht] using hlimit t
  | pushOwn u node hpc hlive hsize =>
      by_cases ht : t = u
      · subst ht
        simp only [Function.update_self]
        rw [frees.size_eq, frees.nodes_push, Multiset.card_cons, ← frees.size_eq]
        exact hsize
      · simpa [Function.update_of_ne ht] using hlimit t
  | _ => exact hlimit t

omit [Fintype T] in
/-- A thread leaves its own list alone while it is in the middle of `alloc`. -/
theorem Step.missed {label : Label N T} (hstep : Step frees limit s label s')
    (hmissed : ∀ t, (s.pc t).Missed → frees.nodes (s.own t) = 0) (t : T)
    (hpc' : (s'.pc t).Missed) : frees.nodes (s'.own t) = 0 := by
  have hidle : ¬(Pc.idle : Pc N).Missed := by simp [Pc.Missed]
  have hother : ∀ {u : T} {pc : Pc N}, ¬pc.Missed → (Function.update s.pc u pc t).Missed →
      t ≠ u ∧ (s.pc t).Missed := by
    intro u pc hpc hafter
    by_cases ht : t = u
    · rw [ht, Function.update_self] at hafter
      exact absurd hafter hpc
    · rw [Function.update_of_ne ht] at hafter
      exact ⟨ht, hafter⟩
  cases hstep with
  | takeOwn u node own hpc htake =>
      obtain ⟨ht, hbefore⟩ := hother hidle hpc'
      simpa [Function.update_of_ne ht] using hmissed t hbefore
  | missOwn u hpc htake =>
      by_cases ht : t = u
      · rw [ht]
        exact frees.take_none htake
      · apply hmissed t
        simpa [State.setPc, Function.update_of_ne ht] using hpc'
  | takeShared u node shared hpc htake => exact hmissed t (hother hidle hpc').2
  | missShared u hpc htake =>
      by_cases ht : t = u
      · rw [ht]
        exact hmissed u (Or.inl hpc)
      · apply hmissed t
        simpa [State.setPc, Function.update_of_ne ht] using hpc'
  | malloc u node hpc hfresh => exact hmissed t (hother hidle hpc').2
  | pushOwn u node hpc hlive hsize =>
      have ht : t ≠ u := by
        rintro rfl
        exact hidle (hpc ▸ hpc')
      simpa [Function.update_of_ne ht] using hmissed t hpc'
  | ownFull u node hpc hlive hsize =>
      have hfull : ¬(Pc.full node).Missed := by simp [Pc.Missed]
      exact hmissed t (hother hfull hpc').2
  | pushShared u node hpc => exact hmissed t (hother hidle hpc').2

theorem sound_of_reachable (hs : (system frees limit).Reachable s) : Sound frees limit s := by
  apply hs.invariant
  · rintro s rfl
    exact sound_fresh
  · intro s label s' _ hs hstep
    exact ⟨hstep.blocks hs, hstep.own hs.limit, hstep.missed hs.missed⟩

/-- **Each block is in one place.** Whatever the threads do, and whichever of them gives a block back:
each block that `malloc` ever returned is either with a caller, or once in one of the lists or on its
way to the shared one; so `alloc` never gives out a block that a caller still has. No thread's own
list is longer than the limit. -/
theorem blocks_are_apart (hs : (system frees limit).Reachable s) :
    s.allocated.val = s.live.val
        + (frees.nodes s.shared + total frees.nodes s.own + total Pc.held s.pc)
      ∧ (∀ t, frees.size (s.own t) ≤ limit)
      ∧ ∀ t node s', Step frees limit s (.alloc t node) s' →
        node ∉ s.live ∧ node ∈ s'.live ∧ ∀ other ∈ s.live, other ∈ s'.live := by
  have hsound := sound_of_reachable hs
  refine ⟨hsound.blocks, hsound.limit, fun t node s' hstep => ?_⟩
  have hnew : node ∉ s.live := by
    cases hstep with
    | takeOwn _ _ own hpc htake =>
        apply hsound.not_live
        rw [State.pooled, total_take htake]
        simp
    | takeShared _ _ shared hpc htake =>
        apply hsound.not_live
        rw [State.pooled, frees.nodes_take htake]
        simp
    | malloc _ _ hpc hfresh =>
        intro hlive
        apply hfresh
        rw [← Finset.mem_val, hsound.blocks]
        exact Multiset.mem_add.mpr (Or.inl hlive)
  have hlive : s'.live = insert node s.live := by cases hstep <;> rfl
  refine ⟨hnew, ?_, fun other hother => ?_⟩
  · rw [hlive]
    exact Finset.mem_insert_self node s.live
  · rw [hlive]
    exact Finset.mem_insert_of_mem hother

/-- A message that one thread creates and another one destroys and creates again. -/
theorem blocks_are_apart_passed : ∃ s : State (List Nat) Nat (Fin 2),
    (messages (FreeList.stack Nat)).Reachable s ∧ s.live = {7} ∧ s.allocated = {7}
      ∧ ∀ t, (s.own t).length ≤ 10000 := by
  have h0 : (messages (FreeList.stack Nat)).Reachable
      (State.fresh (FreeList.stack Nat) : State (List Nat) Nat (Fin 2)) := .of_init rfl
  have h1 := h0.step (Step.missOwn 0 rfl rfl)
  have h2 := h1.step (Step.missShared 0 rfl rfl)
  have h3 := h2.step (Step.malloc 0 7 rfl (Finset.notMem_empty _))
  have h4 := h3.step (Step.pushOwn 1 7 rfl (Finset.mem_insert_self _ _) (by decide))
  have h5 := h4.step (Step.takeOwn 1 7 [] rfl rfl)
  exact ⟨_, h5, rfl, rfl, (blocks_are_apart h5).2.1⟩

/-! ### How many blocks there are -/

/-- In `alloc` or `dealloc`. -/
def Pc.busy : Pc N → Nat
  | .idle => 0
  | _ => 1

/-- About to call `malloc`. -/
def Pc.wants : Pc N → Nat
  | .missedShared => 1
  | _ => 0

/-- The blocks in use, and the calls under way. -/
def State.demand (s : State F N T) : Nat := s.live.card + total Pc.busy s.pc

/-- The blocks that there are or are bound to be. -/
def State.committed (s : State F N T) : Nat := s.allocated.card + total Pc.wants s.pc

omit [DecidableEq N] in
theorem total_wants {pc : T → Pc N} {t : T} {old : Pc N} (hpc : pc t = old) (new : Pc N) :
    total Pc.wants (Function.update pc t new) + old.wants = total Pc.wants pc + new.wants :=
  hpc ▸ total_update Pc.wants pc t new

omit [DecidableEq N] [DecidableEq T] in
theorem card_allocated (hs : Sound frees limit s) :
    s.allocated.card = s.live.card + ((frees.nodes s.shared).card + total frees.size s.own
      + total (fun pc => (Pc.held pc).card) s.pc) := by
  have hsize : frees.size = fun f => (frees.nodes f).card := funext frees.size_eq
  rw [Finset.card_def, hs.blocks, Multiset.card_add, State.pooled, Multiset.card_add,
    Multiset.card_add, card_total, card_total, hsize]
  rfl

theorem Step.committed {label : Label N T} (hstep : Step frees limit s label s')
    (hs : Sound frees limit s) {most : Nat} (hdemand : s.demand ≤ most)
    (hbound : s.committed ≤ most + (Fintype.card T - 1) * limit) :
    s'.committed ≤ most + (Fintype.card T - 1) * limit := by
  cases hstep with
  | missShared t hpc htake =>
      have hcard := card_allocated hs
      have hshared : (frees.nodes s.shared).card = 0 := by rw [frees.take_none htake]; rfl
      have hown : total frees.size s.own ≤ (Fintype.card T - 1) * limit := by
        refine total_le_of_zero (i := t) ?_ hs.limit
        rw [frees.size_eq, hs.missed t (Or.inl hpc), Multiset.card_zero]
      have hbusy : total Pc.busy (Function.update s.pc t .missedShared) = total Pc.busy s.pc := by
        have hupdate := total_update Pc.busy s.pc t .missedShared
        rw [hpc] at hupdate
        exact Nat.add_right_cancel hupdate
      have hheld : total (fun pc : Pc N => (Pc.held pc).card) (Function.update s.pc t .missedShared)
          = total (fun pc => (Pc.held pc).card) s.pc := by
        have hupdate := total_update (fun pc : Pc N => (Pc.held pc).card) s.pc t .missedShared
        rw [hpc] at hupdate
        exact Nat.add_right_cancel hupdate
      have hwants := total_le_total (fun pc : Pc N => show (Pc.held pc).card + pc.wants ≤ pc.busy by
        cases pc <;> simp [Pc.held, Pc.wants, Pc.busy]) (Function.update s.pc t .missedShared)
      rw [total_add] at hwants
      simp only [State.committed, State.demand, State.setPc] at *
      omega
  | malloc t node hpc hfresh =>
      have hwants := total_wants hpc .idle
      simp only [State.committed, State.give, State.setPc, Pc.wants,
        Finset.card_insert_of_notMem hfresh] at *
      omega
  | takeOwn t node own hpc =>
      have hwants := total_wants hpc .idle
      simp only [State.committed, State.give, State.setPc, Pc.wants] at *
      omega
  | missOwn t hpc =>
      have hwants := total_wants hpc .missedOwn
      simp only [State.committed, State.setPc, Pc.wants] at *
      omega
  | takeShared t node shared hpc =>
      have hwants := total_wants hpc .idle
      simp only [State.committed, State.give, State.setPc, Pc.wants] at *
      omega
  | pushOwn t node => exact hbound
  | ownFull t node hpc =>
      have hwants := total_wants hpc (.full node)
      simp only [State.committed, State.setPc, Pc.wants] at *
      omega
  | pushShared t node hpc =>
      have hwants := total_wants hpc .idle
      simp only [State.committed, State.setPc, Pc.wants] at *
      omega

/-- **Blocks are reused.** As long as there are never more than so many blocks in use and calls under
way, `malloc` never returns more blocks than that and what the lists of all threads but one may
hold. -/
theorem pool_is_bounded {most : Nat}
    (hs : ((system frees limit).restrict fun s _ => s.demand ≤ most).Reachable s) :
    s.allocated.card ≤ most + (Fintype.card T - 1) * limit := by
  have hkept : Sound frees limit s ∧ s.committed ≤ most + (Fintype.card T - 1) * limit := by
    apply hs.invariant
    · rintro s rfl
      refine ⟨sound_fresh, ?_⟩
      have hwants : total Pc.wants (fun _ : T => (.idle : Pc N)) = 0 := total_zero fun _ => rfl
      simp [State.committed, State.fresh, hwants]
    · intro s label s' _ ⟨hs, hbound⟩ ⟨hstep, hdemand⟩
      exact ⟨⟨hstep.blocks hs, hstep.own hs.limit, hstep.missed hs.missed⟩,
        hstep.committed hs hdemand hbound⟩
  exact (Nat.le_add_right _ _).trans hkept.2

omit [DecidableEq N] in
theorem demand_two (s : State F N (Fin 2)) :
    s.demand = s.live.card + ((s.pc 0).busy + (s.pc 1).busy) := by
  rw [State.demand, total, Fin.sum_univ_two]

/-- One context at a time, created by one thread and destroyed by the other. -/
theorem pool_is_bounded_passed : ∃ s : State (List Nat) Nat (Fin 2),
    ((contexts (FreeList.stack Nat)).restrict fun s _ => s.demand ≤ 1).Reachable s
      ∧ s.live = ∅ ∧ s.allocated.card ≤ 1 + (2 - 1) * 5000 := by
  have h0 : ((contexts (FreeList.stack Nat)).restrict fun s _ => s.demand ≤ 1).Reachable
      (State.fresh (FreeList.stack Nat) : State (List Nat) Nat (Fin 2)) := .of_init rfl
  have h1 := h0.step ⟨Step.missOwn 0 rfl rfl, (demand_two _).trans_le (by decide)⟩
  have h2 := h1.step ⟨Step.missShared 0 rfl rfl, (demand_two _).trans_le (by decide)⟩
  have h3 := h2.step ⟨Step.malloc 0 7 rfl (Finset.notMem_empty _),
    (demand_two _).trans_le (by decide)⟩
  have h4 := h3.step ⟨Step.pushOwn 1 7 rfl (Finset.mem_insert_self _ _) (by decide),
    (demand_two _).trans_le (by decide)⟩
  exact ⟨_, h4, rfl, pool_is_bounded h4⟩

end Stp.Pools
