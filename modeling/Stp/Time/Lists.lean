import Mathlib.Data.Set.Basic
import Stp.Library.Links
import Stp.Library.Transition

/-!
# The lists of the timer

A `timer_list` has a pointer to its first node and the address of the cell that its next node will
be stored in: its own `first` or the `next` of its last node. Neither an append nor an
initialisation clears a link, so that the links of nodes are stale until a node is appended behind,
or a clear writes a null pointer through `last`.

The lists are used as sequences. Nodes are appended that are in no sequence: new ones, and ones
that a loop has stepped over in a chain that was cleared. A node in no sequence may have its link
overwritten, as the memory of a freed node. Loops may walk chains one after the other or at once.
-/

namespace Stp.Time.Lists

variable {L N W : Type*}

/-- Where a pointer to a node is stored. -/
inductive Cell (L N : Type*) where
  | first (l : L)
  | next (n : N)
deriving DecidableEq, Repr

structure Heap (L N : Type*) where
  cells : Cell L N → Option N
  last : L → Cell L N

def Heap.next (h : Heap L N) (n : N) : Option N := h.cells (.next n)

section

variable [DecidableEq L]

def Heap.setLast (h : Heap L N) (l : L) (c : Cell L N) : Heap L N :=
  { h with last := Function.update h.last l c }

theorem Heap.setLast_self {h : Heap L N} {l : L} (c : Cell L N) : (h.setLast l c).last l = c := by
  simp [Heap.setLast]

theorem Heap.setLast_of_ne {h : Heap L N} {l l' : L} (c : Cell L N) (hne : l' ≠ l) :
    (h.setLast l c).last l' = h.last l' := by
  simp [Heap.setLast, hne]

variable [DecidableEq N]

def Heap.store (h : Heap L N) (c : Cell L N) (p : Option N) : Heap L N :=
  { h with cells := Function.update h.cells c p }

theorem Heap.store_of_ne {h : Heap L N} {c d : Cell L N} (p : Option N) (hne : d ≠ c) :
    (h.store c p).cells d = h.cells d := by
  simp [Heap.store, hne]

theorem Heap.store_self {h : Heap L N} {c : Cell L N} (p : Option N) : (h.store c p).cells c = p := by
  simp [Heap.store]

def listInit (h : Heap L N) (l : L) : Heap L N := h.setLast l (.first l)

def listAppend (h : Heap L N) (l : L) (n : N) : Heap L N :=
  (h.store (h.last l) (some n)).setLast l (.next n)

def listClear (h : Heap L N) (l : L) : Heap L N × Option N :=
  let h := h.store (h.last l) none
  let list := h.cells (.first l)
  (listInit h l, list)

/-- A loop over a chain. It reads the link of a node before it does anything with the node. The
result is what it has visited, unless there are more than `fuel` nodes. -/
def walkList (body : N → Heap L N → Heap L N) :
    (fuel : Nat) → Heap L N → (list : Option N) → Option (List N × Heap L N)
  | _, h, none => some ([], h)
  | 0, _, some _ => none
  | fuel + 1, h, some node =>
      let list := h.next node
      (walkList body fuel (body node h) list).map fun (visited, h) => (node :: visited, h)

/-- `_queue_list`, where `_queue` appends a node to the list `dest` says. -/
def queueList (dest : N → L) : (fuel : Nat) → Heap L N → (list : Option N) →
    Option (List N × Heap L N) :=
  walkList fun node h => listAppend h (dest node) node

/-- `_send_list`. A node that has been sent is freed, and its memory holds anything. -/
def sendList (freed : N → Option N) : (fuel : Nat) → Heap L N → (list : Option N) →
    Option (List N × Heap L N) :=
  walkList fun node h => h.store (.next node) (freed node)

end

/-! ### Sequences -/

/-- A list, or a loop with the rest of its chain. -/
inductive Place (L W : Type*) where
  | list (l : L)
  | walk (w : W)
deriving DecidableEq, Repr

/-- What the lists and chains are for: the nodes of each place, in order. -/
abbrev Sequences (L N W : Type*) := Place L W → List N

def Sequences.Holds (q : Sequences L N W) (n : N) : Prop := ∃ p, n ∈ q p

section

variable [DecidableEq L] [DecidableEq W]

def Sequences.append (q : Sequences L N W) (l : L) (n : N) : Sequences L N W :=
  Function.update q (.list l) (q (.list l) ++ [n])

/-- The nodes of a list become the chain of a loop. -/
def Sequences.clear (q : Sequences L N W) (w : W) (l : L) : Sequences L N W :=
  Function.update (Function.update q (.list l) []) (.walk w) (q (.list l))

/-- A loop steps over the first node of its chain. -/
def Sequences.visit (q : Sequences L N W) (w : W) : Sequences L N W :=
  Function.update q (.walk w) (q (.walk w)).tail

variable {q : Sequences L N W} {l : L} {w : W} {n : N}

theorem Sequences.append_self : q.append l n (.list l) = q (.list l) ++ [n] := by
  simp [Sequences.append]

theorem Sequences.append_of_ne {p : Place L W} (hne : p ≠ .list l) : q.append l n p = q p := by
  simp [Sequences.append, hne]

theorem Sequences.apart_append (hq : Links.Apart q) (hfree : ¬ q.Holds n) :
    Links.Apart (q.append l n) := by
  refine hq.update ?_ fun m hm => ?_
  · refine List.nodup_append.mpr ⟨hq.nodup _, List.nodup_singleton n, fun a ha b hb heq => ?_⟩
    rw [List.mem_singleton] at hb
    exact hfree ⟨_, hb ▸ heq ▸ ha⟩
  · refine (List.mem_append.mp hm).imp_right fun h => ?_
    rw [List.mem_singleton.mp h]
    exact not_exists.mp hfree

theorem Sequences.apart_visit (hq : Links.Apart q) : Links.Apart (q.visit w) :=
  hq.update ((hq.nodup _).sublist (List.tail_sublist _)) fun _ hm => Or.inl (List.mem_of_mem_tail hm)

/-- What a loop has stepped over is in no place. -/
theorem Sequences.visit_free {rest : List N} (hq : Links.Apart q)
    (hw : q (.walk w) = n :: rest) : ¬ (q.visit w).Holds n := by
  have hnot : n ∉ (q (.walk w)).tail := hw ▸ (List.nodup_cons.mp (hw ▸ hq.nodup (.walk w))).1
  exact not_exists.mpr (hq.not_mem_update (hw ▸ List.mem_cons_self) hnot)

theorem Sequences.apart_clear (hq : Links.Apart q) : Links.Apart (q.clear w l) :=
  (hq.update List.nodup_nil fun _ hm => absurd hm List.not_mem_nil).update (hq.nodup _)
    fun _ hm => Or.inr (hq.not_mem_update hm List.not_mem_nil)

end

/-! ### The heap and its sequences -/

/-- The heap holds the sequences: the segment of a list ends at `last`, and the variable of a loop is
the start of its chain. -/
structure Represents (h : Heap L N) (walk : W → Option N) (q : Sequences L N W) : Prop where
  apart : Links.Apart q
  segment : ∀ l, Links.Segment Cell.next h.cells (.first l) (q (.list l)) (h.last l)
  linked : ∀ w, Links.Linked h.next (walk w) (q (.walk w))

section

variable {h : Heap L N} {walk : W → Option N} {q : Sequences L N W} {l l' : L} {w : W} {n : N}

theorem nodup_cells (l : L) {ns : List N} (hns : ns.Nodup) :
    (Cell.first l :: ns.map Cell.next).Nodup := by
  refine List.nodup_cons.mpr ⟨?_, hns.map fun _ _ heq => Cell.next.inj heq⟩
  intro hmem
  obtain ⟨n, -, heq⟩ := List.mem_map.mp hmem
  exact nomatch heq

/-- The end of a list is no link of a node elsewhere. -/
theorem Represents.next_ne_last (hrep : Represents h walk q) {p : Place L W} (hn : n ∈ q p)
    (hp : p ≠ .list l) : Cell.next n ≠ h.last l := by
  intro heq
  have hmem := (hrep.segment l).end_mem
  rw [← heq] at hmem
  obtain hfirst | hmem := List.mem_cons.mp hmem
  · exact nomatch hfirst
  · obtain ⟨m, hm, hnext⟩ := List.mem_map.mp hmem
    obtain rfl := Cell.next.inj hnext
    exact hp (hrep.apart.disjoint p _ m hn hm)

theorem Represents.first_ne_last (hrep : Represents h walk q) (hne : l' ≠ l) :
    Cell.first l' ≠ h.last l := by
  intro heq
  have hmem := (hrep.segment l).end_mem
  rw [← heq] at hmem
  obtain hfirst | hmem := List.mem_cons.mp hmem
  · exact hne (Cell.first.inj hfirst)
  · obtain ⟨m, -, hnext⟩ := List.mem_map.mp hmem
    exact nomatch hnext

variable [DecidableEq L] [DecidableEq N]

/-- A store at the end of a list leaves all segments as they are. -/
theorem Represents.segment_store_last (hrep : Represents h walk q) (p : Option N) (l' : L) :
    Links.Segment Cell.next (h.store (h.last l) p).cells (.first l') (q (.list l')) (h.last l') := by
  refine (hrep.segment l').congr (fun d hd hend => Heap.store_of_ne p ?_)
    (nodup_cells l' (hrep.apart.nodup _))
  by_cases hne : l' = l
  · exact hne ▸ hend
  · obtain rfl | hd := List.mem_cons.mp hd
    · exact hrep.first_ne_last hne
    · obtain ⟨m, hm, rfl⟩ := List.mem_map.mp hd
      exact hrep.next_ne_last hm fun heq => hne (Place.list.inj heq)

theorem Represents.linked_store_last (hrep : Represents h walk q) (p : Option N) (w : W) :
    Links.Linked (h.store (h.last l) p).next (walk w) (q (.walk w)) :=
  (hrep.linked w).congr fun _ hm => Heap.store_of_ne p (hrep.next_ne_last hm fun heq => nomatch heq)

theorem Represents.store_next (hrep : Represents h walk q) (hfree : ¬ q.Holds n) (p : Option N) :
    Represents (h.store (.next n) p) walk q := by
  have hne {p : Place L W} {m : N} (hm : m ∈ q p) : Cell.next (L := L) m ≠ .next n := by
    intro heq
    exact hfree ⟨p, Cell.next.inj heq ▸ hm⟩
  refine ⟨hrep.apart, fun l => ?_, fun w => ?_⟩
  · refine (hrep.segment l).congr (fun d hd _ => Heap.store_of_ne p ?_)
      (nodup_cells l (hrep.apart.nodup _))
    obtain rfl | hd := List.mem_cons.mp hd
    · simp
    · obtain ⟨m, hm, rfl⟩ := List.mem_map.mp hd
      exact hne hm
  · exact (hrep.linked w).congr fun m hm => Heap.store_of_ne p (hne hm)

/-- Clearing a list gives the chain of its nodes. -/
theorem Represents.listClear_linked (hrep : Represents h walk q) (l : L) :
    Links.Linked (listClear h l).1.next (listClear h l).2 (q (.list l)) :=
  (hrep.segment_store_last (l := l) none l).linked (Heap.store_self _)

variable [DecidableEq W]

theorem Represents.append (hrep : Represents h walk q) (hfree : ¬ q.Holds n) :
    Represents (listAppend h l n) walk (q.append l n) := by
  refine ⟨Sequences.apart_append hrep.apart hfree, fun l' => ?_, fun w => ?_⟩
  · have hsegment := hrep.segment_store_last (l := l) (some n) l'
    by_cases hne : l' = l
    · subst hne
      rw [Sequences.append_self, listAppend, Heap.setLast_self]
      exact hsegment.concat (Heap.store_self _)
    · rw [Sequences.append_of_ne (mt Place.list.inj hne), listAppend, Heap.setLast_of_ne _ hne]
      exact hsegment
  · rw [Sequences.append_of_ne (by simp)]
    exact hrep.linked_store_last (some n) w

theorem listClear_last (h : Heap L N) (l : L) : (listClear h l).1.last l = .first l :=
  Heap.setLast_self _

theorem Represents.clear (hrep : Represents h walk q) :
    Represents (listClear h l).1 (Function.update walk w (listClear h l).2) (q.clear w l) := by
  refine ⟨Sequences.apart_clear hrep.apart, fun l' => ?_, fun w' => ?_⟩
  · have hsegment := hrep.segment_store_last (l := l) none l'
    have hplace : Place.list l' ≠ Place.walk w := fun heq => nomatch heq
    rw [Sequences.clear, Function.update_of_ne hplace, listClear, listInit]
    by_cases hne : l' = l
    · subst hne
      rw [Function.update_self, Heap.setLast_self]
      rfl
    · rw [Function.update_of_ne (mt Place.list.inj hne), Heap.setLast_of_ne _ hne]
      exact hsegment
  · by_cases hw : w' = w
    · subst hw
      rw [Function.update_self, Sequences.clear, Function.update_self]
      exact hrep.listClear_linked l
    · rw [Function.update_of_ne hw, Sequences.clear, Function.update_of_ne (mt Place.walk.inj hw),
        Function.update_of_ne (by simp)]
      exact hrep.linked_store_last none w'

omit [DecidableEq N] in
/-- What a loop visits is the first node that is left. -/
theorem Represents.visit (hrep : Represents h walk q) (hwalk : walk w = some n) :
    q (.walk w) = n :: (q.visit w) (.walk w)
      ∧ Represents h (Function.update walk w (h.next n)) (q.visit w) := by
  obtain ⟨rest, hrest, hlinked⟩ := (hwalk ▸ hrep.linked w).some_inv
  have hvisit : (q.visit w) (.walk w) = rest := by rw [Sequences.visit, Function.update_self, hrest]; rfl
  refine ⟨by rw [hrest, hvisit], Sequences.apart_visit hrep.apart, fun l => ?_, fun w' => ?_⟩
  · rw [Sequences.visit, Function.update_of_ne (by simp)]
    exact hrep.segment l
  · by_cases hw : w' = w
    · subst hw
      rwa [Function.update_self, hvisit]
    · rw [Function.update_of_ne hw, Sequences.visit, Function.update_of_ne (mt Place.walk.inj hw)]
      exact hrep.linked w'

end

/-! ### Runs -/

structure State (L N W : Type*) where
  heap : Heap L N
  /-- The variable `list` of each loop. -/
  walk : W → Option N
  sequences : Sequences L N W

inductive Label (L N W : Type*) where
  | append (l : L) (n : N)
  | clear (w : W) (l : L)
  | visit (w : W) (n : N)
  | store (n : N) (p : Option N)

section

variable [DecidableEq L] [DecidableEq N] [DecidableEq W]

inductive State.Step (s : State L N W) : Label L N W → State L N W → Prop
  | append {l : L} {n : N} (hfree : ¬ s.sequences.Holds n) :
      State.Step s (.append l n)
        { s with heap := listAppend s.heap l n, sequences := s.sequences.append l n }
  | clear {w : W} {l : L} (hended : s.walk w = none) :
      State.Step s (.clear w l)
        { heap := (listClear s.heap l).1
          walk := Function.update s.walk w (listClear s.heap l).2
          sequences := s.sequences.clear w l }
  | visit {w : W} {n : N} (hwalk : s.walk w = some n) :
      State.Step s (.visit w n)
        { s with
          walk := Function.update s.walk w (s.heap.next n)
          sequences := s.sequences.visit w }
  | store {n : N} {p : Option N} (hfree : ¬ s.sequences.Holds n) :
      State.Step s (.store n p) { s with heap := s.heap.store (.next n) p }

/-- All cells are stale at the start, and the lists are initialised. -/
def system : Transition.System (State L N W) (Label L N W) where
  init s := (∀ l, s.heap.last l = .first l) ∧ (∀ w, s.walk w = none) ∧ s.sequences = fun _ => []
  step := State.Step

variable {s s' : State L N W}

def State.Sound (s : State L N W) : Prop := Represents s.heap s.walk s.sequences

theorem State.Sound.step (hs : s.Sound) {label : Label L N W} (hstep : s.Step label s') :
    s'.Sound := by
  cases hstep with
  | append hfree => exact Represents.append hs hfree
  | clear hended => exact Represents.clear hs
  | visit hwalk => exact (Represents.visit hs hwalk).2
  | store hfree => exact Represents.store_next hs hfree _

theorem sound_of_reachable (hs : system.Reachable s) : s.Sound := by
  refine hs.invariant ?_ fun _ _ _ _ hs hstep => hs.step hstep
  rintro s ⟨hlast, hwalk, hsequences⟩
  refine ⟨⟨fun p => ?_, fun p p' n hn => ?_⟩, fun l => ?_, fun w => ?_⟩
  · rw [hsequences]
    exact List.nodup_nil
  · rw [hsequences] at hn
    exact absurd hn List.not_mem_nil
  · rw [hsequences]
    exact (hlast l).symm
  · rw [hsequences]
    exact hwalk w

/-! ### Loops -/

/-- A body that is a step of its own, with what it appends to each list. -/
def BodyStep (body : N → Heap L N → Heap L N) (added : N → L → List N) : Prop :=
  ∀ (s : State L N W) (n : N), ¬ s.sequences.Holds n → ∃ label s', s.Step label s'
    ∧ s'.heap = body n s.heap ∧ s'.walk = s.walk
    ∧ (∀ w, s'.sequences (.walk w) = s.sequences (.walk w))
    ∧ ∀ l, s'.sequences (.list l) = s.sequences (.list l) ++ added n l

/-- A loop visits its chain and ends. -/
theorem walkList_run {body : N → Heap L N → Heap L N} {added : N → L → List N}
    (hbody : BodyStep (W := W) body added) {w : W} {chain : List N} (hs : s.Sound)
    (hchain : s.sequences (.walk w) = chain) :
    ∃ s', system.Leads s s'
      ∧ walkList body chain.length s.heap (s.walk w) = some (chain, s'.heap)
      ∧ s'.sequences (.walk w) = []
      ∧ ∀ l, s'.sequences (.list l) = s.sequences (.list l) ++ chain.flatMap (added · l) := by
  induction chain generalizing s with
  | nil =>
      have hwalk : s.walk w = none := (hs.linked w).none_iff.mpr hchain
      exact ⟨s, .refl, by rw [hwalk]; rfl, hchain, fun l => (List.append_nil _).symm⟩
  | cons n rest ih =>
      have hwalk : s.walk w = some n := (hchain ▸ hs.linked w).1
      have hvisited := State.Step.visit hwalk
      obtain ⟨label, s', hstep, hheap, hwalk', hwalks, hlists⟩ := hbody
        ⟨s.heap, Function.update s.walk w (s.heap.next n), s.sequences.visit w⟩ n
        (Sequences.visit_free hs.apart hchain)
      dsimp only at hheap hwalk' hwalks hlists
      have hrest : s'.sequences (.walk w) = rest := by
        rw [hwalks, Sequences.visit, Function.update_self, hchain]
        rfl
      obtain ⟨s'', hleads, hrun, hended, hlists'⟩ := ih ((hs.step hvisited).step hstep) hrest
      refine ⟨s'', (Relation.ReflTransGen.head ⟨_, hvisited⟩ (.head ⟨_, hstep⟩ hleads)), ?_, hended,
        fun l => ?_⟩
      · rw [hwalk, List.length_cons, walkList]
        rw [hwalk', hheap, Function.update_self] at hrun
        rw [hrun]
        rfl
      · rw [hlists', hlists, Sequences.visit, Function.update_of_ne (by simp), List.append_assoc,
          List.flatMap_cons]

theorem bodyStep_append (dest : N → L) :
    BodyStep (W := W) (fun n h => listAppend h (dest n) n)
      fun n l => [n].filter fun n => dest n = l := by
  intro s n hfree
  refine ⟨_, _, .append (l := dest n) hfree, rfl, rfl, fun w => ?_, fun l => ?_⟩
  · have hplace : Place.walk w ≠ .list (dest n) := fun heq => nomatch heq
    exact Sequences.append_of_ne (n := n) hplace
  · dsimp only
    by_cases hl : dest n = l
    · rw [← hl, Sequences.append_self, List.filter_cons_of_pos (by simp), List.filter_nil]
    · rw [List.filter_cons_of_neg (by simpa using hl), List.filter_nil, List.append_nil]
      exact Sequences.append_of_ne fun heq => hl (Place.list.inj heq).symm

theorem bodyStep_store (freed : N → Option N) :
    BodyStep (L := L) (W := W) (fun n h => h.store (.next n) (freed n)) fun _ _ => [] := by
  intro s n hfree
  exact ⟨_, _, .store (p := freed n) hfree, rfl, rfl, fun _ => rfl, fun l => (List.append_nil _).symm⟩

/-- In every run: clearing a list gives its nodes in order, each once, up to a null pointer, and
leaves it empty. A loop visits what is left of its chain, the next node first, and ends, whether it
queues the nodes into lists or frees them. -/
theorem lists_are_sequences (hs : system.Reachable s) :
    (∀ l, (s.sequences (.list l)).Nodup
        ∧ Links.Linked (listClear s.heap l).1.next (listClear s.heap l).2 (s.sequences (.list l))
        ∧ (listClear (listClear s.heap l).1 l).2 = none)
      ∧ (∀ w, (s.sequences (.walk w)).Nodup
        ∧ Links.Linked s.heap.next (s.walk w) (s.sequences (.walk w)))
      ∧ (∀ w n s', s.Step (.visit w n) s' →
        s.sequences (.walk w) = n :: s'.sequences (.walk w))
      ∧ ∀ w chain, s.sequences (.walk w) = chain →
        (∀ dest : N → L, ∃ s', system.Leads s s'
          ∧ queueList dest chain.length s.heap (s.walk w) = some (chain, s'.heap)
          ∧ s'.sequences (.walk w) = []
          ∧ ∀ l, s'.sequences (.list l)
              = s.sequences (.list l) ++ chain.filter fun n => dest n = l)
        ∧ ∀ freed : N → Option N, ∃ s', system.Leads s s'
          ∧ sendList freed chain.length s.heap (s.walk w) = some (chain, s'.heap)
          ∧ s'.sequences (.walk w) = []
          ∧ ∀ l, s'.sequences (.list l) = s.sequences (.list l) := by
  have hsound := sound_of_reachable hs
  refine ⟨fun l => ⟨hsound.apart.nodup _, hsound.listClear_linked l, ?_⟩,
    fun w => ⟨hsound.apart.nodup _, hsound.linked w⟩, fun w n s' hstep => ?_,
    fun w chain hchain => ⟨fun dest => ?_, fun freed => ?_⟩⟩
  · change ((listClear s.heap l).1.store ((listClear s.heap l).1.last l) none).cells (.first l) = none
    rw [listClear_last, Heap.store_self]
  · cases hstep with
    | visit hwalk => exact (hsound.visit hwalk).1
  · obtain ⟨s', hleads, hrun, hended, hlists⟩ := walkList_run (bodyStep_append dest) hsound hchain
    refine ⟨s', hleads, hrun, hended, fun l => ?_⟩
    rw [hlists, ← List.filter_flatMap, List.flatMap_singleton']
  · obtain ⟨s', hleads, hrun, hended, hlists⟩ := walkList_run (bodyStep_store freed) hsound hchain
    refine ⟨s', hleads, hrun, hended, fun l => ?_⟩
    rw [hlists, List.flatMap_eq_nil_iff.mpr fun _ _ => rfl, List.append_nil]

end

/-- A node is queued into the list that it has just been cleared from, over stale links. -/
theorem lists_are_sequences_walking :
    ∃ s : State Bool Nat Unit, system.Reachable s ∧ s.sequences (.list false) = [1]
      ∧ s.sequences (.walk ()) = [2, 3] ∧ s.walk () = some 2
      ∧ ∀ w, (s.sequences (.walk w)).Nodup
        ∧ Links.Linked s.heap.next (s.walk w) (s.sequences (.walk w)) := by
  have h0 : system.Reachable (⟨⟨fun _ => some 2, .first⟩, fun _ => none, fun _ => []⟩ :
      State Bool Nat Unit) := .of_init ⟨fun _ => rfl, fun _ => rfl, rfl⟩
  have h1 := h0.step (.append (l := false) (n := 1) (fun ⟨_, hp⟩ => absurd hp List.not_mem_nil))
  have h2 := h1.step (.append (l := false) (n := 2)
    (by rintro ⟨⟨⟨⟩⟩ | ⟨⟨⟩⟩, hp⟩ <;> exact absurd hp (by decide)))
  have h3 := h2.step (.append (l := false) (n := 3)
    (by rintro ⟨⟨⟨⟩⟩ | ⟨⟨⟩⟩, hp⟩ <;> exact absurd hp (by decide)))
  have h4 := h3.step (.clear (w := ()) (l := false) rfl)
  have h5 := h4.step (.visit (w := ()) (n := 1) rfl)
  have h6 := h5.step (.append (l := false) (n := 1)
    (by rintro ⟨⟨⟨⟩⟩ | ⟨⟨⟩⟩, hp⟩ <;> exact absurd hp (by decide)))
  exact ⟨_, h6, rfl, rfl, rfl, (lists_are_sequences h6).2.1⟩

end Stp.Time.Lists
