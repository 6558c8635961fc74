import Mathlib.Tactic.Abel
import Mathlib.Order.Lattice.Nat
import Stp.Library.FreeList
import Stp.Time.Lists
import Stp.Time.Placement

/-!
# The timer in memory

The timer service as it is: nodes that point to each other, lists with the address of the cell that
the next node will be stored in, and a free list of the nodes that were sent. `new` gives a node when
the free list is empty, and none is ever deleted. A node comes with whatever its memory holds, and
the free list may overwrite the link of a node that it is given.

Against the wheel, where lists are sequences, the timer in memory sends the same nodes at the same
time, and stops at an assertion exactly when the wheel does. A node is in one list or free, never
both, and no more nodes are allocated than timers were pending at once. The loops over a chain go
at most as many rounds as there are nodes, and have no result where that is not enough.
-/

namespace Stp.Time

/-- The lists of `least` and those of `level`. -/
abbrev TimerList := Fin timeLeastValue ⊕ LevelSlot

def Timer.lists (t : Timer) : TimerList → List TimerNode := Sum.elim t.least t.level

def Timer.appendList (t : Timer) (node : TimerNode) : TimerList → Timer
  | .inl index => t.appendLeast index node
  | .inr slot => t.appendLevel slot node

def Timer.clearList (t : Timer) : TimerList → Timer
  | .inl index => t.clearLeast index
  | .inr slot => t.clearLevel slot

theorem Timer.contents_lists (t : Timer) : Tally.contents t.lists = t.stored :=
  Tally.contents_sum t.least t.level

theorem Timer.lists_appendList (t : Timer) (node : TimerNode) (l : TimerList) :
    (t.appendList node l).lists = Function.update t.lists l (t.lists l ++ [node]) := by
  cases l with
  | inl index => exact Sum.update_elim_inl.symm
  | inr slot => exact Sum.update_elim_inr.symm

theorem Timer.lists_clearList (t : Timer) (l : TimerList) :
    (t.clearList l).lists = Function.update t.lists l [] := by
  cases l with
  | inl index => exact Sum.update_elim_inl.symm
  | inr slot => exact Sum.update_elim_inr.symm

theorem Timer.time_appendList (t : Timer) (node : TimerNode) (l : TimerList) :
    (t.appendList node l).time = t.time := by
  cases l <;> rfl

theorem Timer.time_clearList (t : Timer) (l : TimerList) : (t.clearList l).time = t.time := by
  cases l <;> rfl

end Stp.Time

namespace Stp.Time.Memory

open Stp.Time.Lists (Heap Place Sequences Represents listAppend listClear)

/-- Where the nodes come from: `wild::FreeList`, the link that it leaves in a node, and `new`. -/
structure Allocator (F N : Type*) where
  frees : FreeList F N
  link : F → N → Option N
  new : Finset N → N
  new_fresh : ∀ nodes, new nodes ∉ nodes

/-- The fields `expire`, `source` and `session` of a node are `data`. The nodes that `new` has
given are not a field of the program. -/
structure State (F N : Type*) where
  time : UInt64
  heap : Heap TimerList N
  data : N → TimerNode
  frees : F
  nodes : Finset N

variable {F N : Type*} [DecidableEq N]

def State.append (t : State F N) (l : TimerList) (node : N) : State F N :=
  { t with heap := listAppend t.heap l node }

def State.clear (t : State F N) (l : TimerList) : State F N × Option N :=
  ({ t with heap := (listClear t.heap l).1 }, (listClear t.heap l).2)

def State.setData (t : State F N) (node : N) (data : TimerNode) : State F N :=
  { t with data := Function.update t.data node data }

theorem State.setData_self (t : State F N) (node : N) (data : TimerNode) :
    (t.setData node data).data node = data := Function.update_self _ _ _

def queue (t : State F N) (node : N) : Option (State F N) :=
  let time := t.time
  let expire := (t.data node).expire
  if expire < time then none
  else if expire - time < timeLeastValue.toUInt64 then
    some (t.append (.inl (leastIndex expire)) node)
  else
    match queueLevel time expire timeLevelCount 0 (1 <<< timeLeastShift.toUInt64) with
    | some level =>
        match levelSlot level (levelValue expire level) with
        | some slot => some (t.append (.inr slot) node)
        | none => none
    | none => none

def queueList : (fuel : Nat) → State F N → (list : Option N) → Option (State F N)
  | _, t, none => some t
  | 0, _, some _ => none
  | fuel + 1, t, some node =>
      let list := t.heap.next node
      match queue t node with
      | some t => queueList fuel t list
      | none => none

def cascade (t : State F N) : (remaining level : Nat) → (time : UInt64) → Option (State F N)
  | 0, _, _ => none
  | remaining + 1, level, time =>
      let value := time &&& timeLevelMask.toUInt64
      if value = 0 then cascade t remaining (level + 1) (time >>> timeLevelShift.toUInt64)
      else
        match levelSlot level value with
        | some slot => queueList t.nodes.card (t.clear (.inr slot)).1 (t.clear (.inr slot)).2
        | none => none

section

variable (A : Allocator F N)

def newNode (t : State F N) : N × State F N :=
  match A.frees.take t.frees with
  | some (node, frees) => (node, { t with frees := frees })
  | none => (A.new t.nodes, { t with nodes := insert (A.new t.nodes) t.nodes })

def freeNode (t : State F N) (node : N) : State F N :=
  { t with
    frees := A.frees.push t.frees node
    heap := t.heap.store (.next node) (A.link t.frees node) }

/-- The nodes that are sent, in order, and the timer after it. -/
def sendList : (fuel : Nat) → State F N → (list : Option N) →
    Option (List TimerNode × State F N)
  | _, t, none => some ([], t)
  | 0, _, some _ => none
  | fuel + 1, t, some node =>
      let list := t.heap.next node
      match sendList fuel (freeNode A t node) list with
      | some (sent, t') => some (t.data node :: sent, t')
      | none => none

def tick (t : State F N) : Option (List TimerNode × State F N) :=
  let list := t.clear (.inl (leastIndex t.time))
  match sendList A t.nodes.card list.1 list.2 with
  | some (sent, t) =>
      let t := { t with time := t.time + 1 }
      if t.time &&& timeLeastMask.toUInt64 = 0 then
        if t.time = 0 then none
        else
          match cascade t timeLevelCount 0 (t.time >>> timeLeastShift.toUInt64) with
          | some t => some (sent, t)
          | none => none
      else some (sent, t)
  | none => none

def updateLoop : (fuel : Nat) → State F N → (time : UInt64) → Option (Sent × State F N)
  | 0, t, time => if t.time < time then none else some ([], t)
  | fuel + 1, t, time =>
      if t.time < time then
        match tick A t with
        | some (sent, t') =>
            match updateLoop fuel t' time with
            | some (later, t'') => some (sent.map (t.time, ·) ++ later, t'')
            | none => none
        | none => none
      else some ([], t)

def update (t : State F N) (time : UInt64) : Option (Sent × State F N) :=
  updateLoop A (time.toNat - t.time.toNat) t time

def timeout (t : State F N) (source : ProcessT) (session : SessionT) (timeout : UInt64) :
    Option (State F N) :=
  let (node, t) := newNode A t
  queue (t.setData node { expire := t.time + timeout, source, session }) node

def State.call (t : State F N) : Call → Option (Sent × State F N)
  | .timeout source session d => (timeout A t source session d).map fun t => ([], t)
  | .update time => update A t time

def State.run (t : State F N) : List Call → Option (Sent × State F N)
  | [] => some ([], t)
  | call :: calls =>
      match t.call A call with
      | some (sent, t') => (t'.run calls).map fun (later, t'') => (sent ++ later, t'')
      | none => none

/-- There are no nodes, and the memory holds anything but the ends of the lists. -/
def State.fresh (cells : Lists.Cell TimerList N → Option N) (data : N → TimerNode) :
    State F N where
  time := 0
  heap := ⟨cells, .first⟩
  data := data
  frees := A.frees.empty
  nodes := ∅

end

/-! ### What the memory holds -/

/-- The lists have the nodes of `q`, in order, with the data that the wheel has; `list` is what a
loop has left of its chain, and `hand` is held by neither. -/
structure Holds (A : Allocator F N) (m : State F N) (list : Option N) (hand : Multiset N)
    (q : Sequences TimerList N Unit) (t : Timer) : Prop where
  represents : Represents m.heap (fun _ => list) q
  time : m.time = t.time
  lists : (fun l => (q (.list l)).map m.data) = t.lists
  nodes : m.nodes.val = A.frees.nodes m.frees + Tally.contents (fun l => q (.list l))
    + q (.walk ()) + hand

section

variable {A : Allocator F N} {m : State F N} {list : Option N} {hand : Multiset N} {n : N}
  {q : Sequences TimerList N Unit} {t : Timer}

omit [DecidableEq N] in
theorem Holds.not_mem (h : Holds A m list {n} q t) : ¬ q.Holds n := by
  rintro ⟨p, hp⟩
  have hnodup := m.nodes.nodup
  rw [h.nodes, Multiset.nodup_add] at hnodup
  refine Multiset.disjoint_singleton.mp hnodup.2.2 ?_
  cases p with
  | list l =>
      exact Multiset.mem_add.mpr (.inl (Multiset.mem_add.mpr (.inr (Tally.mem_contents.mpr ⟨l, hp⟩))))
  | walk w => exact Multiset.mem_add.mpr (.inr hp)

omit [DecidableEq N] in
theorem Holds.walk_length (h : Holds A m list hand q t) :
    (q (.walk ())).length ≤ m.nodes.card := by
  have hcard : m.nodes.card = _ := congrArg Multiset.card h.nodes
  rw [hcard, Multiset.card_add, Multiset.card_add, Multiset.coe_card]
  omega

omit [DecidableEq N] in
theorem Holds.card (h : Holds A m list hand q t) :
    m.nodes.card = (A.frees.nodes m.frees).card + t.stored.card + (q (.walk ())).length
      + hand.card := by
  have hcard : m.nodes.card = _ := congrArg Multiset.card h.nodes
  have hstored : (Tally.contents fun l => q (.list l)).map m.data = t.stored := by
    rw [← Tally.contents_map, h.lists, Timer.contents_lists]
  rw [hcard, ← hstored, Multiset.card_map]
  simp only [Multiset.card_add, Multiset.coe_card]

omit [DecidableEq N] in
theorem lists_update {l : TimerList} (ns : List N) :
    (fun l' => Function.update q (.list l) ns (.list l'))
      = Function.update (fun l' => q (.list l')) l ns := by
  funext l'
  by_cases hl : l' = l
  · subst hl
    rw [Function.update_self, Function.update_self]
  · rw [Function.update_of_ne hl, Function.update_of_ne (mt Place.list.inj hl)]

omit [DecidableEq N] in
theorem map_update {l : TimerList} (table : TimerList → List N) (data : N → TimerNode)
    (ns : List N) :
    (fun l' => (Function.update table l ns l').map data)
      = Function.update (fun l' => (table l').map data) l (ns.map data) := by
  funext l'
  by_cases hl : l' = l
  · subst hl
    rw [Function.update_self, Function.update_self]
  · rw [Function.update_of_ne hl, Function.update_of_ne hl]

theorem Holds.append (h : Holds A m list {n} q t) (l : TimerList) :
    Holds A (m.append l n) list 0 (q.append l n) (t.appendList (m.data n) l) where
  represents := h.represents.append h.not_mem
  time := h.time.trans (t.time_appendList _ l).symm
  lists := by
    have hl : (q (.list l)).map m.data = t.lists l := congrFun h.lists l
    change (fun l' => (q.append l n (.list l')).map m.data) = _
    rw [Timer.lists_appendList, ← hl, ← h.lists, ← List.map_singleton, ← List.map_append,
      ← map_update (fun l' => q (.list l')), ← lists_update]
    rfl
  nodes := by
    have hwalk : q.append l n (.walk ()) = q (.walk ()) := Sequences.append_of_ne (by simp)
    have hcontents : Tally.contents (fun l' => q.append l n (.list l'))
        = n ::ₘ Tally.contents (fun l' => q (.list l')) := by
      rw [← Tally.contents_append _ l, ← lists_update]
      rfl
    change m.nodes.val = A.frees.nodes m.frees + _ + _ + 0
    rw [h.nodes, hwalk, hcontents, ← Multiset.singleton_add]
    abel

theorem Holds.clear (h : Holds A m none 0 q t) (l : TimerList) :
    Holds A (m.clear l).1 (m.clear l).2 0 (q.clear () l) (t.clearList l)
      ∧ ((q.clear () l) (.walk ())).map (m.clear l).1.data = t.lists l := by
  have hwalk : q (.walk ()) = [] := (h.represents.linked ()).none_iff.mp rfl
  have hchain : (q.clear () l) (.walk ()) = q (.list l) := Function.update_self _ _ _
  have hlists : (fun l' => (q.clear () l) (.list l'))
      = Function.update (fun l' => q (.list l')) l [] := by
    rw [← lists_update]
    funext l'
    exact Function.update_of_ne (by simp) _ _
  refine ⟨⟨?_, h.time.trans (t.time_clearList l).symm, ?_, ?_⟩, ?_⟩
  · have hrepresents := h.represents.clear (w := ()) (l := l)
    rwa [show Function.update (fun _ => none) () (listClear m.heap l).2
      = fun _ => (listClear m.heap l).2 from funext fun _ => Function.update_self _ _ _]
      at hrepresents
  · change (fun l' => ((q.clear () l) (.list l')).map m.data) = _
    rw [Timer.lists_clearList, ← h.lists, ← List.map_nil (f := m.data),
      ← map_update (fun l' => q (.list l')), ← hlists]
  · change m.nodes.val = A.frees.nodes m.frees + _ + _ + 0
    rw [h.nodes, hwalk, hchain, hlists, ← Tally.contents_clear _ l, Multiset.coe_nil]
    abel
  · rw [hchain]
    exact congrFun h.lists l

omit [DecidableEq N] in
theorem Holds.visit (h : Holds A m (some n) 0 q t) :
    q (.walk ()) = n :: (q.visit ()) (.walk ())
      ∧ Holds A m (m.heap.next n) {n} (q.visit ()) t := by
  obtain ⟨hchain, hrepresents⟩ := h.represents.visit (w := ()) rfl
  have hlists : (fun l => (q.visit ()) (.list l)) = fun l => q (.list l) :=
    funext fun l => Function.update_of_ne (by simp) _ _
  refine ⟨hchain, ?_, h.time, ?_, ?_⟩
  · rwa [show Function.update (fun _ => some n) () (m.heap.next n) = fun _ => m.heap.next n from
      funext fun _ => Function.update_self _ _ _] at hrepresents
  · rw [← h.lists]
    exact congrArg (fun table l => (table l).map m.data) hlists
  · rw [h.nodes, hlists, hchain, ← Multiset.cons_coe, ← Multiset.singleton_add]
    abel

theorem Holds.freeNode (h : Holds A m list {n} q t) : Holds A (freeNode A m n) list 0 q t where
  represents := h.represents.store_next h.not_mem _
  time := h.time
  lists := h.lists
  nodes := by
    change m.nodes.val = A.frees.nodes (A.frees.push m.frees n) + _ + _ + 0
    rw [h.nodes, A.frees.nodes_push, ← Multiset.singleton_add]
    abel

theorem Holds.setData (h : Holds A m list {n} q t) (data : TimerNode) :
    Holds A (m.setData n data) list {n} q t where
  represents := h.represents
  time := h.time
  lists := by
    rw [← h.lists]
    funext l
    refine List.map_congr_left fun node hnode => ?_
    refine Function.update_of_ne ?_ _ _
    rintro rfl
    exact h.not_mem ⟨_, hnode⟩
  nodes := h.nodes

/-- There are no more nodes than before, or all of them are used. -/
theorem Holds.newNode (h : Holds A m none 0 q t) :
    Holds A (newNode A m).2 none {(newNode A m).1} q t
      ∧ (newNode A m).2.nodes.card = max m.nodes.card (t.stored.card + 1) := by
  have hcard := h.card
  have hwalk : q (.walk ()) = [] := (h.represents.linked ()).none_iff.mp rfl
  rw [hwalk, List.length_nil, Multiset.card_zero] at hcard
  unfold Memory.newNode
  cases htake : A.frees.take m.frees with
  | some result =>
      obtain ⟨node, frees⟩ := result
      have hnodes := A.frees.nodes_take htake
      refine ⟨⟨h.represents, h.time, h.lists, ?_⟩, ?_⟩
      · change m.nodes.val = A.frees.nodes frees + _ + _ + {node}
        rw [h.nodes, hnodes, ← Multiset.singleton_add]
        abel
      · rw [hnodes, Multiset.card_cons] at hcard
        change m.nodes.card = _
        omega
  | none =>
      have hnew := A.new_fresh m.nodes
      refine ⟨⟨h.represents, h.time, h.lists, ?_⟩, ?_⟩
      · change (insert (A.new m.nodes) m.nodes).val = A.frees.nodes m.frees + _ + _ + {A.new m.nodes}
        rw [Finset.insert_val_of_notMem hnew, h.nodes, ← Multiset.singleton_add]
        abel
      · rw [A.frees.take_none htake, Multiset.card_zero] at hcard
        change (insert (A.new m.nodes) m.nodes).card = _
        rw [Finset.card_insert_of_notMem hnew]
        omega

/-! ### The same calls -/

/-- The timer in memory is the timer of the wheel, and no loop is under way. -/
def Implements (A : Allocator F N) (m : State F N) (t : Timer) : Prop :=
  ∃ q, Holds A m none 0 q t

omit [DecidableEq N] in
theorem Holds.ended {hand : Multiset N} (h : Holds A m none hand q t) : q (.walk ()) = [] :=
  (h.represents.linked ()).none_iff.mp rfl

/-- Both stop at an assertion, or both append to the list that the expiry names. -/
theorem Holds.queue (h : Holds A m list {n} q t) :
    Option.Rel (fun m' t' => ∃ l, m' = m.append l n ∧ t' = t.appendList (m.data n) l)
      (queue m n) (Time.queue t (m.data n)) := by
  unfold Memory.queue Time.queue
  rw [h.time]
  dsimp only
  split_ifs
  · exact .none
  · exact .some ⟨.inl _, rfl, rfl⟩
  · cases queueLevel t.time (m.data n).expire timeLevelCount 0 (1 <<< timeLeastShift.toUInt64) with
    | none => exact .none
    | some level =>
        dsimp only
        cases levelSlot level (levelValue (m.data n).expire level) with
        | none => exact .none
        | some slot => exact .some ⟨.inr slot, rfl, rfl⟩

theorem Holds.queueList {chain : List N} {fuel : Nat} (hfuel : chain.length ≤ fuel)
    (h : Holds A m list 0 q t) (hchain : q (.walk ()) = chain) :
    Option.Rel (fun m' t' => Implements A m' t' ∧ m'.nodes = m.nodes)
      (queueList fuel m list) (Time.queueList t (chain.map m.data)) := by
  induction chain generalizing fuel m list q t with
  | nil =>
      obtain rfl := (h.represents.linked ()).none_iff.mpr hchain
      have hend : Memory.queueList fuel m none = some m := by
        cases fuel <;> rfl
      rw [hend]
      exact .some ⟨⟨q, h⟩, rfl⟩
  | cons n rest ih =>
      obtain rfl : list = some n := (hchain ▸ h.represents.linked ()).1
      obtain ⟨hvisit, hrest⟩ := h.visit
      have hrestChain : (q.visit ()) (.walk ()) = rest := by
        rw [hchain] at hvisit
        exact (List.cons.inj hvisit).2.symm
      cases fuel with
      | zero => exact absurd hfuel (Nat.not_succ_le_zero _)
      | succ fuel =>
          rw [Memory.queueList, List.map_cons, Time.queueList]
          obtain hqueue := hrest.queue
          generalize Memory.queue m n = result at hqueue ⊢
          generalize Time.queue t (m.data n) = result' at hqueue ⊢
          cases hqueue with
          | none => exact .none
          | some hqueue =>
              obtain ⟨l, rfl, rfl⟩ := hqueue
              have happend := hrest.append l
              have hwalk : ((q.visit ()).append l n) (.walk ()) = rest :=
                (Sequences.append_of_ne (by simp)).trans hrestChain
              exact ih (Nat.le_of_succ_le_succ hfuel) happend hwalk

theorem Holds.sendList {chain : List N} {fuel : Nat} (hfuel : chain.length ≤ fuel)
    (h : Holds A m list 0 q t) (hchain : q (.walk ()) = chain) :
    ∃ m', sendList A fuel m list = some (chain.map m.data, m') ∧ Implements A m' t
      ∧ m'.nodes = m.nodes := by
  induction chain generalizing fuel m list q with
  | nil =>
      obtain rfl := (h.represents.linked ()).none_iff.mpr hchain
      refine ⟨m, ?_, ⟨q, h⟩, rfl⟩
      cases fuel <;> rfl
  | cons n rest ih =>
      obtain rfl : list = some n := (hchain ▸ h.represents.linked ()).1
      obtain ⟨hvisit, hrest⟩ := h.visit
      have hrestChain : (q.visit ()) (.walk ()) = rest := by
        rw [hchain] at hvisit
        exact (List.cons.inj hvisit).2.symm
      cases fuel with
      | zero => exact absurd hfuel (Nat.not_succ_le_zero _)
      | succ fuel =>
          obtain ⟨m', hsend, himplements, hnodes⟩ :=
            ih (Nat.le_of_succ_le_succ hfuel) hrest.freeNode hrestChain
          refine ⟨m', ?_, himplements, hnodes⟩
          rw [Memory.sendList, hsend]
          rfl

theorem Implements.cascade (h : Implements A m t) (remaining level : Nat) (time : UInt64) :
    Option.Rel (fun m' t' => Implements A m' t' ∧ m'.nodes = m.nodes)
      (cascade m remaining level time) (Time.cascade t remaining level time) := by
  induction remaining generalizing level time with
  | zero => exact .none
  | succ remaining ih =>
      rw [Memory.cascade, Time.cascade]
      split_ifs
      · exact ih (level + 1) _
      · cases levelSlot level (time &&& timeLevelMask.toUInt64) with
        | none => exact .none
        | some slot =>
            obtain ⟨q, hq⟩ := h
            obtain ⟨hclear, hchain⟩ := hq.clear (.inr slot)
            have hloop := hclear.queueList hclear.walk_length rfl
            rw [hchain] at hloop
            exact hloop

theorem Implements.tick (h : Implements A m t) :
    Option.Rel (fun r w => r.1 = w.1 ∧ Implements A r.2 w.2 ∧ r.2.nodes = m.nodes)
      (tick A m) (Time.tick t) := by
  obtain ⟨q, hq⟩ := h
  obtain ⟨hclear, hchain⟩ := hq.clear (.inl (leastIndex m.time))
  obtain ⟨m₁, hsend, ⟨q₁, hq₁⟩, hnodes⟩ := hclear.sendList hclear.walk_length rfl
  have hsent : sendList A m.nodes.card (m.clear (.inl (leastIndex m.time))).1
      (m.clear (.inl (leastIndex m.time))).2 = some (t.least (leastIndex t.time), m₁) := by
    have hleast : t.lists (.inl (leastIndex m.time)) = t.least (leastIndex t.time) := by
      rw [hq.time]
      rfl
    rw [← hleast, ← hchain]
    exact hsend
  have htime : m₁.time = t.time := hq₁.time.trans (t.time_clearList _)
  have hadvance : Implements A { m₁ with time := m₁.time + 1 } t.advance := by
    refine ⟨q₁, hq₁.represents, congrArg (· + 1) htime, hq₁.lists.trans ?_, hq₁.nodes⟩
    rw [hq.time]
    rfl
  have htime' : t.advance.time = m₁.time + 1 := congrArg (· + 1) htime.symm
  rw [Memory.tick, Time.tick, hsent]
  dsimp only
  rw [htime']
  split_ifs
  · exact .none
  · have hcascade := hadvance.cascade timeLevelCount 0 ((m₁.time + 1) >>> timeLeastShift.toUInt64)
    generalize Memory.cascade { m₁ with time := m₁.time + 1 } timeLevelCount 0 _ = result at hcascade ⊢
    generalize Time.cascade t.advance timeLevelCount 0 _ = result' at hcascade ⊢
    cases hcascade with
    | none => exact .none
    | some hcascade => exact .some ⟨rfl, hcascade.1, hcascade.2.trans hnodes⟩
  · exact .some ⟨rfl, hadvance, hnodes⟩

theorem Implements.updateLoop (h : Implements A m t) (fuel : Nat) (time : UInt64) :
    Option.Rel (fun r w => r.1 = w.1 ∧ Implements A r.2 w.2 ∧ r.2.nodes = m.nodes)
      (updateLoop A fuel m time) (Time.updateLoop fuel t time) := by
  induction fuel generalizing m t with
  | zero =>
      obtain ⟨q, hq⟩ := h
      rw [Memory.updateLoop, Time.updateLoop, hq.time]
      split_ifs
      · exact .none
      · exact .some ⟨rfl, ⟨q, hq⟩, rfl⟩
  | succ fuel ih =>
      have htime : m.time = t.time := h.elim fun _ hq => hq.time
      rw [Memory.updateLoop, Time.updateLoop, htime]
      split_ifs
      · have htick := h.tick
        generalize Memory.tick A m = result at htick ⊢
        generalize Time.tick t = result' at htick ⊢
        cases htick with
        | none => exact .none
        | @some r w htick =>
            obtain ⟨sent, m₁⟩ := r
            obtain ⟨sent', t₁⟩ := w
            obtain ⟨rfl, himplements, hnodes⟩ := htick
            dsimp only at himplements hnodes ⊢
            have hlater := ih himplements
            generalize Memory.updateLoop A fuel m₁ time = result at hlater ⊢
            generalize Time.updateLoop fuel t₁ time = result' at hlater ⊢
            cases hlater with
            | none => exact .none
            | @some r w hlater =>
                obtain ⟨hsame, himplements, hnodes'⟩ := hlater
                exact .some ⟨congrArg _ hsame, himplements, hnodes'.trans hnodes⟩
      · exact .some ⟨rfl, h, rfl⟩

/-- The largest number of timers that are pending after one of the calls. -/
def peak (t : Timer) : List Call → Nat
  | [] => 0
  | call :: calls =>
      match t.call call with
      | some (_, t') => max t'.stored.card (peak t' calls)
      | none => 0

theorem stored_appendList (t : Timer) (node : TimerNode) (l : TimerList) :
    (t.appendList node l).stored = node ::ₘ t.stored := by
  rw [← Timer.contents_lists, Timer.lists_appendList, Tally.contents_append, Timer.contents_lists]

omit [DecidableEq N] in
theorem Implements.stored_le (h : Implements A m t) : t.stored.card ≤ m.nodes.card := by
  obtain ⟨q, hq⟩ := h
  have hcard := hq.card
  omega

theorem Implements.call (h : Implements A m t) (call : Call) :
    Option.Rel (fun r w => r.1 = w.1 ∧ Implements A r.2 w.2
        ∧ r.2.nodes.card = max m.nodes.card w.2.stored.card)
      (m.call A call) (t.call call) := by
  cases call with
  | timeout source session d =>
      obtain ⟨q, hq⟩ := h
      obtain ⟨hnode, hcard⟩ := hq.newNode
      have hset := hnode.setData { expire := (newNode A m).2.time + d, source, session }
      have hdata : ((newNode A m).2.setData (newNode A m).1
          { expire := (newNode A m).2.time + d, source, session }).data (newNode A m).1
          = { expire := t.time + d, source, session } := by
        rw [State.setData_self, hnode.time]
      have hqueue := hset.queue
      rw [hdata] at hqueue
      rw [State.call, Timer.call, timeout, Time.timeout]
      dsimp only
      generalize Memory.queue ((newNode A m).2.setData _ _) _ = result at hqueue ⊢
      generalize Time.queue t _ = result' at hqueue ⊢
      cases hqueue with
      | none => exact .none
      | some hqueue =>
          obtain ⟨l, rfl, rfl⟩ := hqueue
          have happend := hset.append l
          rw [hdata] at happend
          refine .some ⟨rfl, ⟨_, happend⟩, ?_⟩
          rw [stored_appendList, Multiset.card_cons]
          exact hcard
  | update time =>
      have hloop := h.updateLoop (time.toNat - t.time.toNat) time
      have htime : m.time = t.time := h.elim fun _ hq => hq.time
      rw [State.call, Timer.call, update, Time.update, htime]
      generalize Memory.updateLoop A _ m time = result at hloop ⊢
      generalize Time.updateLoop _ t time = result' at hloop ⊢
      cases hloop with
      | none => exact .none
      | some hloop =>
          obtain ⟨hsame, himplements, hnodes⟩ := hloop
          refine .some ⟨hsame, himplements, ?_⟩
          have hle := himplements.stored_le
          rw [hnodes] at hle ⊢
          exact (max_eq_left hle).symm

theorem Implements.run (h : Implements A m t) (calls : List Call) :
    Option.Rel (fun r w => r.1 = w.1 ∧ Implements A r.2 w.2
        ∧ r.2.nodes.card = max m.nodes.card (peak t calls))
      (m.run A calls) (t.run calls) := by
  induction calls generalizing m t with
  | nil => exact .some ⟨rfl, h, (max_eq_left (Nat.zero_le _)).symm⟩
  | cons call calls ih =>
      have hcall := h.call call
      rw [State.run, Timer.run, peak]
      generalize m.call A call = result at hcall ⊢
      generalize t.call call = result' at hcall ⊢
      cases hcall with
      | none => exact .none
      | @some r w hcall =>
          obtain ⟨sent, m₁⟩ := r
          obtain ⟨sent', t₁⟩ := w
          obtain ⟨rfl, himplements, hcard⟩ := hcall
          have hrun := ih himplements
          dsimp only at hcard hrun ⊢
          generalize m₁.run A calls = result at hrun ⊢
          generalize t₁.run calls = result' at hrun ⊢
          cases hrun with
          | none => exact .none
          | some hrun =>
              obtain ⟨hsame, himplements', hcard'⟩ := hrun
              refine .some ⟨congrArg _ hsame, himplements', ?_⟩
              rw [hcard', hcard, max_assoc]

omit [DecidableEq N] in
theorem implements_fresh (cells : Lists.Cell TimerList N → Option N) (data : N → TimerNode) :
    Implements A (State.fresh A cells data) Timer.fresh := by
  refine ⟨fun _ => [], ⟨⟨fun _ => List.nodup_nil, fun _ _ _ hn => absurd hn List.not_mem_nil⟩,
    fun _ => rfl, fun _ => rfl⟩, rfl, ?_, ?_⟩
  · funext l
    cases l <;> rfl
  · change 0 = A.frees.nodes A.frees.empty + Tally.contents (fun _ => []) + 0 + 0
    rw [A.frees.nodes_empty, Tally.contents_empty]
    rfl

/-- **The timer in memory refines the wheel.** Whatever the memory held before and whatever calls
are made, both stop at the same assertion, or both return and have sent the same nodes at the same
time. Then each list in memory is a chain of nodes with the data that the list of the wheel has; each
node is in one list or free, and there once; and the nodes that were ever allocated are as many as
the timers that were pending when there were most. -/
theorem memory_refines_wheel (A : Allocator F N) (cells : Lists.Cell TimerList N → Option N)
    (data : N → TimerNode) (calls : List Call) :
    Option.Rel (fun r w => r.1 = w.1 ∧ r.2.time = w.2.time
        ∧ r.2.nodes.card = peak Timer.fresh calls
        ∧ ∃ chains : TimerList → List N,
          (∀ l, Links.Linked (r.2.clear l).1.heap.next (r.2.clear l).2 (chains l)
            ∧ (chains l).map r.2.data = w.2.lists l)
          ∧ r.2.nodes.val = A.frees.nodes r.2.frees + Tally.contents chains)
      ((State.fresh A cells data).run A calls) (Timer.fresh.run calls) := by
  have hrun := (implements_fresh (A := A) cells data).run calls
  generalize (State.fresh A cells data).run A calls = result at hrun ⊢
  generalize Timer.fresh.run calls = result' at hrun ⊢
  cases hrun with
  | none => exact .none
  | some hrun =>
      obtain ⟨hsame, ⟨q, hq⟩, hcard⟩ := hrun
      refine .some ⟨hsame, hq.time, hcard.trans (Nat.zero_max _), fun l => q (.list l),
        fun l => ⟨hq.represents.listClear_linked l, congrFun hq.lists l⟩, ?_⟩
      rw [hq.nodes, hq.ended, Multiset.coe_nil, add_zero, add_zero]

/-- Nodes are numbered, and those that were freed are kept on a stack. -/
def Allocator.numbered : Allocator (List Nat) Nat where
  frees := FreeList.stack Nat
  link _ _ := none
  new nodes := nodes.sup id + 1
  new_fresh _ hmem := absurd (Finset.le_sup (f := id) hmem) (Nat.not_succ_le_self _)

/-- The node of a timer that was sent is used again. -/
example : ((State.fresh .numbered (fun _ => some 8) fun _ => ⟨0, 0, 0⟩).run .numbered
      [.timeout 7 1 3, .update 5, .timeout 7 2 40]).map (fun r => (r.1, r.2.nodes))
    = some ([(3, ⟨3, 7, 1⟩)], {1}) := by
  decide +kernel

end

end Stp.Time.Memory
