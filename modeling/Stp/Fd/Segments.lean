import Stp.Fd.Backends
import Stp.Library.Transition

/-!
# The table of filters

`fdset::selectFilter` run by any number of threads. A segment of the table is allocated by the first
calls that need it: each of them loads its pointer, allocates a segment if there is none, and tries
to exchange the null pointer for its own. A call that fails has the winner's pointer from the failed
exchange, and deletes its own segment. Steps of threads interleave, and an address may be allocated
again once it has been deleted.
-/

namespace Stp.Fd

variable {T A : Type*}

/-- A pointer to a filter, in the segment at an address. -/
structure Slot (A : Type*) where
  segment : A
  index : Fin segmentSize
  mode : Event
deriving DecidableEq, Repr

namespace Fdset

/-- Where a thread stands in a call for a descriptor and a direction. -/
inductive Pc (A : Type*) where
  | outside
  | loading (fd : Descriptor) (event : Event)
  | missed (fd : Descriptor) (event : Event)
  | exchanging (fd : Descriptor) (event : Event) (newFds : A)
  /-- The exchange has failed and left `fds`. -/
  | deleting (fd : Descriptor) (event : Event) (newFds : A) (fds : Option A)
  | returning (fd : Descriptor) (event : Event) (fds : A)

structure Memory (T A : Type*) where
  segments : Fin segmentCount → Option A
  /-- The segments that are allocated, each with the thread that did it. -/
  heap : A → Option T

structure State (T A : Type*) where
  memory : Memory T A
  pc : T → Pc A

inductive Label (T A : Type*) where
  | call (t : T) (fd : Descriptor) (event : Event)
  | load (t : T)
  | allocate (t : T) (newFds : A)
  | exchange (t : T)
  | delete (t : T)
  | ret (t : T)

/-- The segment of a descriptor. -/
def segmentOf (fd : Descriptor) : Fin segmentCount := (selectFilter fd .kRead).segment

/-- `segment::selectFilter`. -/
def slotIn (fds : A) (fd : Descriptor) (event : Event) : Slot A where
  segment := fds
  index := (selectFilter fd event).index
  mode := (selectFilter fd event).mode

def Memory.publish (m : Memory T A) (index : Fin segmentCount) (newFds : A) : Memory T A :=
  { m with segments := Function.update m.segments index (some newFds) }

section

variable [DecidableEq T] [DecidableEq A]

def Memory.allocate (m : Memory T A) (t : T) (newFds : A) : Memory T A :=
  { m with heap := Function.update m.heap newFds (some t) }

def Memory.delete (m : Memory T A) (newFds : A) : Memory T A :=
  { m with heap := Function.update m.heap newFds none }

def State.set (s : State T A) (memory : Memory T A) (t : T) (pc : Pc A) : State T A where
  memory := memory
  pc := Function.update s.pc t pc

inductive State.Step (s : State T A) : Label T A → State T A → Prop
  | call {t : T} {fd : Descriptor} {event : Event} (hpc : s.pc t = .outside) :
      State.Step s (.call t fd event) (s.set s.memory t (.loading fd event))
  | loaded {t : T} {fd : Descriptor} {event : Event} {fds : A} (hpc : s.pc t = .loading fd event)
      (hload : s.memory.segments (segmentOf fd) = some fds) :
      State.Step s (.load t) (s.set s.memory t (.returning fd event fds))
  | missed {t : T} {fd : Descriptor} {event : Event} (hpc : s.pc t = .loading fd event)
      (hload : s.memory.segments (segmentOf fd) = none) :
      State.Step s (.load t) (s.set s.memory t (.missed fd event))
  | allocate {t : T} {fd : Descriptor} {event : Event} {newFds : A}
      (hpc : s.pc t = .missed fd event) (hnew : s.memory.heap newFds = none) :
      State.Step s (.allocate t newFds)
        (s.set (s.memory.allocate t newFds) t (.exchanging fd event newFds))
  | exchanged {t : T} {fd : Descriptor} {event : Event} {newFds : A}
      (hpc : s.pc t = .exchanging fd event newFds)
      (hnull : s.memory.segments (segmentOf fd) = none) :
      State.Step s (.exchange t)
        (s.set (s.memory.publish (segmentOf fd) newFds) t (.returning fd event newFds))
  | lost {t : T} {fd : Descriptor} {event : Event} {newFds : A}
      (hpc : s.pc t = .exchanging fd event newFds)
      (hnull : s.memory.segments (segmentOf fd) ≠ none) :
      State.Step s (.exchange t)
        (s.set s.memory t (.deleting fd event newFds (s.memory.segments (segmentOf fd))))
  | delete {t : T} {fd : Descriptor} {event : Event} {newFds fds : A}
      (hpc : s.pc t = .deleting fd event newFds (some fds)) :
      State.Step s (.delete t) (s.set (s.memory.delete newFds) t (.returning fd event fds))
  | ret {t : T} {fd : Descriptor} {event : Event} {fds : A} (hpc : s.pc t = .returning fd event fds) :
      State.Step s (.ret t) (s.set s.memory t .outside)

def system : Transition.System (State T A) (Label T A) where
  init s := s = ⟨⟨fun _ => none, fun _ => none⟩, fun _ => .outside⟩
  step := State.Step

end

/-- A call and the slot that it returned. -/
structure Returned (A : Type*) where
  fd : Descriptor
  event : Event
  slot : Slot A

def returns (s : State T A) : Label T A → List (Returned A)
  | .ret t =>
      match s.pc t with
      | .returning fd event fds => [⟨fd, event, slotIn fds fd event⟩]
      | _ => []
  | _ => []

/-! ### Who knows which segment -/

def Memory.Published (m : Memory T A) (fds : A) : Prop := ∃ index, m.segments index = some fds

/-- What a thread in a call knows: its own segment is nobody else's and in no entry of the table,
and the segment it returns a slot of is the one in the table. -/
def Pc.Sound (m : Memory T A) (t : T) : Pc A → Prop
  | .outside | .loading _ _ | .missed _ _ => True
  | .exchanging _ _ newFds => m.heap newFds = some t ∧ ¬ m.Published newFds
  | .deleting fd _ newFds fds => (m.heap newFds = some t ∧ ¬ m.Published newFds)
      ∧ fds ≠ none ∧ m.segments (segmentOf fd) = fds
  | .returning fd _ fds => m.segments (segmentOf fd) = some fds

structure Memory.Sound (m : Memory T A) : Prop where
  allocated : ∀ index fds, m.segments index = some fds → m.heap fds ≠ none
  injective : ∀ index index' fds, m.segments index = some fds → m.segments index' = some fds →
    index = index'

structure State.Sound (s : State T A) : Prop where
  memory : s.memory.Sound
  pc : ∀ t, (s.pc t).Sound s.memory t

/-- What a step of one thread leaves to another. -/
structure Memory.Keeps (m m' : Memory T A) (t : T) : Prop where
  heap : ∀ fds, m.heap fds = some t → m'.heap fds = some t
  segments : ∀ index fds, m.segments index = some fds → m'.segments index = some fds
  published : ∀ fds, m.heap fds = some t → m'.Published fds → m.Published fds

theorem Pc.Sound.keeps {m m' : Memory T A} {t : T} {pc : Pc A} (hpc : pc.Sound m t)
    (hkeeps : m.Keeps m' t) : pc.Sound m' t := by
  cases pc with
  | outside | loading | missed => trivial
  | exchanging fd event newFds =>
      exact ⟨hkeeps.heap newFds hpc.1, mt (hkeeps.published newFds hpc.1) hpc.2⟩
  | deleting fd event newFds fds =>
      obtain ⟨⟨hheap, hpublished⟩, hsome, hsegment⟩ := hpc
      obtain ⟨fds, rfl⟩ := Option.ne_none_iff_exists'.mp hsome
      exact ⟨⟨hkeeps.heap newFds hheap, mt (hkeeps.published newFds hheap) hpublished⟩, hsome,
        hkeeps.segments _ fds hsegment⟩
  | returning fd event fds => exact hkeeps.segments _ fds hpc

theorem Memory.Keeps.refl (m : Memory T A) (t : T) : m.Keeps m t :=
  ⟨fun _ => id, fun _ _ => id, fun _ _ => id⟩

section

variable {m : Memory T A} {t t' : T} {newFds fds : A} {index index' : Fin segmentCount}

theorem Memory.publish_segments_self :
    (m.publish index newFds).segments index = some newFds := by
  simp [Memory.publish]

theorem Memory.publish_segments_of_ne (hne : index' ≠ index) :
    (m.publish index newFds).segments index' = m.segments index' := by
  simp [Memory.publish, hne]

/-- What is published was so before, or is the new segment. -/
theorem Memory.publish_cases (hsegment : (m.publish index newFds).segments index' = some fds) :
    (index' = index ∧ fds = newFds) ∨ m.segments index' = some fds := by
  by_cases hindex : index' = index
  · rw [hindex, Memory.publish_segments_self] at hsegment
    exact Or.inl ⟨hindex, (Option.some_inj.mp hsegment).symm⟩
  · exact Or.inr (Memory.publish_segments_of_ne hindex ▸ hsegment)

theorem Memory.keeps_publish (hnull : m.segments index = none) (hheap : m.heap newFds = some t)
    (hne : t' ≠ t) : m.Keeps (m.publish index newFds) t' := by
  refine ⟨fun _ => id, fun index' fds hsegment => ?_, fun fds hfds ⟨index', hsegment⟩ => ?_⟩
  · have hindex : index' ≠ index := by
      rintro rfl
      exact Option.some_ne_none fds (hsegment.symm.trans hnull)
    rwa [Memory.publish_segments_of_ne hindex]
  · obtain ⟨-, rfl⟩ | hold := Memory.publish_cases hsegment
    · exact absurd (Option.some_inj.mp (hfds.symm.trans hheap)) hne
    · exact ⟨index', hold⟩

theorem Memory.Sound.publish (hm : m.Sound) (hheap : m.heap newFds = some t)
    (hpublished : ¬ m.Published newFds) : (m.publish index newFds).Sound := by
  refine ⟨fun index' fds hsegment => ?_, fun index₁ index₂ fds h₁ h₂ => ?_⟩
  · obtain ⟨-, rfl⟩ | hold := Memory.publish_cases hsegment
    · exact hheap ▸ Option.some_ne_none t
    · exact hm.allocated index' fds hold
  · obtain ⟨rfl, rfl⟩ | hold₁ := Memory.publish_cases h₁ <;>
      obtain ⟨heq₂, hfds⟩ | hold₂ := Memory.publish_cases h₂
    · exact heq₂.symm
    · exact absurd ⟨index₂, hold₂⟩ hpublished
    · exact absurd ⟨index₁, hfds ▸ hold₁⟩ hpublished
    · exact hm.injective index₁ index₂ fds hold₁ hold₂

variable [DecidableEq A]

theorem Memory.allocate_heap_self : (m.allocate t newFds).heap newFds = some t := by
  simp [Memory.allocate]

theorem Memory.allocate_heap_of_ne (hne : fds ≠ newFds) :
    (m.allocate t newFds).heap fds = m.heap fds := by
  simp [Memory.allocate, hne]

theorem Memory.keeps_allocate (hnew : m.heap newFds = none) :
    m.Keeps (m.allocate t newFds) t' := by
  refine ⟨fun fds hheap => ?_, fun _ _ => id, fun _ _ => id⟩
  have hne : fds ≠ newFds := by
    rintro rfl
    exact Option.some_ne_none t' (hheap.symm.trans hnew)
  rwa [Memory.allocate_heap_of_ne hne]

theorem Memory.Sound.allocate (hm : m.Sound) : (m.allocate t newFds).Sound := by
  refine ⟨fun index fds hsegment => ?_, hm.injective⟩
  by_cases hfds : fds = newFds
  · rw [hfds, Memory.allocate_heap_self]
    exact Option.some_ne_none t
  · rw [Memory.allocate_heap_of_ne hfds]
    exact hm.allocated index fds hsegment

theorem Memory.delete_heap_of_ne (hne : fds ≠ newFds) :
    (m.delete newFds).heap fds = m.heap fds := by
  simp [Memory.delete, hne]

theorem Memory.keeps_delete (hheap : m.heap newFds = some t) (hne : t' ≠ t) :
    m.Keeps (m.delete newFds) t' := by
  refine ⟨fun fds hfds => ?_, fun _ _ => id, fun _ _ => id⟩
  have hfds' : fds ≠ newFds := by
    rintro rfl
    exact hne (Option.some_inj.mp (hfds.symm.trans hheap))
  rwa [Memory.delete_heap_of_ne hfds']

theorem Memory.Sound.delete (hm : m.Sound) (hpublished : ¬ m.Published newFds) :
    (m.delete newFds).Sound := by
  refine ⟨fun index fds hsegment => ?_, hm.injective⟩
  have hne : fds ≠ newFds := by
    rintro rfl
    exact hpublished ⟨index, hsegment⟩
  rw [Memory.delete_heap_of_ne hne]
  exact hm.allocated index fds hsegment

end

/-! ### Runs -/

/-- The slot of a call is the one of its descriptor and direction, in the segment of the table. -/
def Returned.Sound (m : Memory T A) (r : Returned A) : Prop :=
  m.segments (segmentOf r.fd) = some r.slot.segment
    ∧ r.slot = slotIn r.slot.segment r.fd r.event

theorem Returned.Sound.slot_iff {m : Memory T A} (hm : m.Sound) {r r' : Returned A}
    (hr : r.Sound m) (hr' : r'.Sound m) : r.slot = r'.slot ↔ r.fd = r'.fd ∧ r.event = r'.event := by
  constructor
  · intro hslot
    have hsegment : segmentOf r.fd = segmentOf r'.fd :=
      hm.injective _ _ r.slot.segment hr.1 (hslot ▸ hr'.1)
    rw [hr.2, hr'.2, slotIn, slotIn, Slot.mk.injEq] at hslot
    obtain ⟨-, hindex, hmode⟩ := hslot
    refine selectFilter_inj.mp ?_
    rw [selectFilter, selectFilter, FilterPtr.mk.injEq]
    exact ⟨hsegment, hindex, hmode⟩
  · rintro ⟨hfd, hevent⟩
    have hsegment : r.slot.segment = r'.slot.segment :=
      Option.some_inj.mp (hr.1.symm.trans (hfd ▸ hr'.1))
    rw [hr.2, hr'.2, hsegment, hfd, hevent]

theorem returned_of_mem {s : State T A} {label : Label T A} (hs : s.Sound) {r : Returned A}
    (hr : r ∈ returns s label) : r.Sound s.memory := by
  cases label with
  | call | load | allocate | exchange | delete => exact absurd hr List.not_mem_nil
  | ret t =>
      have hpc := hs.pc t
      rw [returns] at hr
      split at hr
      · next fd event fds heq =>
          rw [heq] at hpc
          obtain rfl := List.mem_singleton.mp hr
          exact ⟨hpc, rfl⟩
      · exact absurd hr List.not_mem_nil

section

variable [DecidableEq T] {s s' : State T A}

theorem State.Sound.set (hs : s.Sound) {m : Memory T A} {t : T} {pc : Pc A} (hm : m.Sound)
    (hpc : pc.Sound m t) (hkeeps : ∀ t', t' ≠ t → s.memory.Keeps m t') :
    (s.set m t pc).Sound := by
  refine ⟨hm, fun t' => ?_⟩
  by_cases ht : t' = t
  · subst ht
    simpa [State.set] using hpc
  · simpa [State.set, ht] using (hs.pc t').keeps (hkeeps t' ht)

variable [DecidableEq A]

theorem State.Sound.step (hs : s.Sound) {label : Label T A} (hstep : s.Step label s') :
    s'.Sound := by
  have hpcs {t : T} {pc : Pc A} (hpc : s.pc t = pc) : pc.Sound s.memory t := hpc ▸ hs.pc t
  cases hstep with
  | call | missed | ret => exact hs.set hs.memory trivial fun t' _ => .refl _ t'
  | loaded hpc hload => exact hs.set hs.memory hload fun t' _ => .refl _ t'
  | @allocate t fd event newFds hpc hnew =>
      refine hs.set hs.memory.allocate ⟨Memory.allocate_heap_self, ?_⟩ fun t' _ =>
        Memory.keeps_allocate hnew
      rintro ⟨index, hsegment⟩
      exact hs.memory.allocated index newFds hsegment hnew
  | @exchanged t fd event newFds hpc hnull =>
      obtain ⟨hheap, hpublished⟩ := hpcs hpc
      exact hs.set (hs.memory.publish hheap hpublished) Memory.publish_segments_self
        fun t' hne => Memory.keeps_publish hnull hheap hne
  | @lost t fd event newFds hpc hnull =>
      exact hs.set hs.memory ⟨hpcs hpc, hnull, rfl⟩ fun t' _ => .refl _ t'
  | @delete t fd event newFds fds hpc =>
      obtain ⟨⟨hheap, hpublished⟩, -, hsegment⟩ := hpcs hpc
      exact hs.set (hs.memory.delete hpublished) hsegment fun t' hne =>
        Memory.keeps_delete hheap hne

theorem sound_of_reachable (hs : system.Reachable s) : s.Sound := by
  refine hs.invariant ?_ fun _ _ _ _ hs hstep => hs.step hstep
  rintro _ rfl
  exact ⟨⟨fun _ _ h => absurd h (Option.some_ne_none _).symm,
    fun _ _ _ h => absurd h (Option.some_ne_none _).symm⟩, fun _ => trivial⟩

/-- A published segment is never replaced. -/
theorem State.Step.published {label : Label T A} (hstep : s.Step label s')
    {index : Fin segmentCount} {fds : A} (hfds : s.memory.segments index = some fds) :
    s'.memory.segments index = some fds := by
  cases hstep with
  | call | loaded | missed | allocate | lost | delete | ret => exact hfds
  | @exchanged t fd event newFds hpc hnull =>
      have hne : index ≠ segmentOf fd := by
        rintro rfl
        exact Option.some_ne_none fds (hfds.symm.trans hnull)
      exact (Memory.publish_segments_of_ne hne).trans hfds

/-- Only the thread that has allocated a segment deletes it, having lost the race. -/
theorem State.Step.deleted (hs : s.Sound) {label : Label T A} (hstep : s.Step label s') {fds : A}
    {t : T} (hfds : s.memory.heap fds = some t) (hdeleted : s'.memory.heap fds ≠ some t) :
    label = .delete t ∧ ∃ fd event winner, s.pc t = .deleting fd event fds winner := by
  cases hstep with
  | call | loaded | missed | exchanged | lost | ret => exact absurd hfds hdeleted
  | @allocate t' fd event newFds hpc hnew =>
      exact absurd ((Memory.keeps_allocate hnew).heap fds hfds) hdeleted
  | @delete t' fd event newFds winner hpc =>
      by_cases hne : fds = newFds
      · subst hne
        have hheap : s.memory.heap fds = some t' := ((hpc ▸ hs.pc t' :) : Pc.Sound _ _ _).1.1
        obtain rfl : t' = t := Option.some_inj.mp (hheap.symm.trans hfds)
        exact ⟨rfl, fd, event, some winner, hpc⟩
      · exact absurd ((Memory.delete_heap_of_ne hne).trans hfds) hdeleted

/-- A published segment is never deleted. -/
theorem State.Sound.published (hs : s.Sound) {index : Fin segmentCount} {fds : A}
    (hfds : s.memory.segments index = some fds) (hleads : system.Leads s s') :
    s'.memory.segments index = some fds ∧ s'.memory.heap fds = s.memory.heap fds := by
  obtain ⟨t, ht⟩ := Option.ne_none_iff_exists'.mp (hs.memory.allocated index fds hfds)
  rw [ht]
  refine (hleads.keeps (P := fun s => s.Sound ∧ s.memory.segments index = some fds
    ∧ s.memory.heap fds = some t) (fun s label s' ⟨hs, hfds, ht⟩ hstep => ?_) ⟨hs, hfds, ht⟩).2
  refine ⟨hs.step hstep, hstep.published hfds, ?_⟩
  by_contra hdeleted
  obtain ⟨-, fd, event, winner, hpc⟩ := hstep.deleted hs ht hdeleted
  have hlost : Pc.Sound s.memory t (.deleting fd event fds winner) := hpc ▸ hs.pc t
  exact hlost.1.2 ⟨index, hfds⟩

theorem returned_of_logs {log : List (Returned A)} (hlog : system.Logs returns s log) :
    ∀ r ∈ log, r.Sound s.memory := by
  induction hlog with
  | init => exact fun r hr => absurd hr List.not_mem_nil
  | step hlog hstep ih =>
      intro r hr
      have hr : r.Sound _ := (List.mem_append.mp hr).elim (ih r)
        (returned_of_mem (sound_of_reachable hlog.reachable))
      exact ⟨hstep.published hr.1, hr.2⟩

/-- Calls return the same slot for the same descriptor and direction, and for no others. What is
published stays. A segment that has lost is nobody's but its allocator's, who alone deletes it, and
no slot in it has been returned. -/
theorem slots_are_stable {log : List (Returned A)} (hlog : system.Logs returns s log) :
    (∀ r ∈ log, ∀ r' ∈ log, r.slot = r'.slot ↔ r.fd = r'.fd ∧ r.event = r'.event)
      ∧ (∀ index fds, s.memory.segments index = some fds → ∀ s', system.Leads s s' →
          s'.memory.segments index = some fds ∧ s'.memory.heap fds = s.memory.heap fds
            ∧ s.memory.heap fds ≠ none)
      ∧ (∀ label s' t fds, s.Step label s' → s.memory.heap fds = some t →
          s'.memory.heap fds ≠ some t →
          label = .delete t ∧ ∃ fd event winner, s.pc t = .deleting fd event fds winner)
      ∧ ∀ t fd event newFds fds, s.pc t = .deleting fd event newFds fds →
          s.memory.heap newFds = some t ∧ (∀ r ∈ log, r.slot.segment ≠ newFds)
            ∧ fds ≠ none ∧ s.memory.segments (segmentOf fd) = fds := by
  have hreach := hlog.reachable
  have hs := sound_of_reachable hreach
  have hreturned := returned_of_logs hlog
  refine ⟨fun r hr r' hr' => (hreturned r hr).slot_iff hs.memory (hreturned r' hr'),
    fun index fds hfds s' hleads => ?_, fun label s' t fds hstep hfds hdeleted =>
    hstep.deleted hs hfds hdeleted, fun t fd event newFds fds hpc => ?_⟩
  · obtain ⟨hsegment, hheap⟩ := hs.published hfds hleads
    exact ⟨hsegment, hheap, hs.memory.allocated index fds hfds⟩
  · have hlost : Pc.Sound s.memory t (.deleting fd event newFds fds) := hpc ▸ hs.pc t
    obtain ⟨⟨hheap, hpublished⟩, hsome, hsegment⟩ := hlost
    refine ⟨hheap, fun r hr heq => hpublished ⟨segmentOf r.fd, ?_⟩, hsome, hsegment⟩
    exact heq ▸ (hreturned r hr).1

end

/-- Two threads race for one segment, and the loser takes the winner's. -/
theorem slots_are_stable_racing :
    ∃ (s : State Bool Nat) (log : List (Returned Nat)), system.Logs returns s log
      ∧ log = [⟨5, .kRead, slotIn 1 5 .kRead⟩, ⟨5, .kRead, slotIn 1 5 .kRead⟩]
      ∧ ∀ r ∈ log, ∀ r' ∈ log, r.slot = r'.slot ↔ r.fd = r'.fd ∧ r.event = r'.event := by
  have h0 : system.Logs returns (⟨⟨fun _ => none, fun _ => none⟩, fun _ => .outside⟩ :
      State Bool Nat) [] := .init rfl
  have h1 := h0.step (.call (t := false) rfl : State.Step _ (.call _ 5 .kRead) _)
  have h2 := h1.step (.call (t := true) rfl : State.Step _ (.call _ 5 .kRead) _)
  have h3 := h2.step (.missed (t := false) rfl rfl)
  have h4 := h3.step (.missed (t := true) rfl rfl)
  have h5 := h4.step (.allocate (t := true) rfl rfl : State.Step _ (.allocate _ 0) _)
  have h6 := h5.step (.allocate (t := false) rfl rfl : State.Step _ (.allocate _ 1) _)
  have h7 := h6.step (.exchanged (t := false) rfl rfl)
  have h8 := h7.step (.lost (t := true) rfl (Option.some_ne_none 1))
  have h9 := h8.step (.delete (t := true) rfl)
  have h10 := h9.step (.ret (t := true) rfl)
  have h11 := h10.step (.ret (t := false) rfl)
  exact ⟨_, _, h11, rfl, (slots_are_stable h11).1⟩

end Fdset

end Stp.Fd
