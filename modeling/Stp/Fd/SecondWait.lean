import Stp.Fd.Backends

/-!
# A further wait

What a call of `fd::wait` does to the waits that are pending. It leaves them alone if none of them
is on the same descriptor and direction. If one is, epoll has overwritten its filter before the
kernel refuses the descriptor, and kqueue has replaced its registration, unless the kernel failed.
-/

namespace Stp.Fd

/-- A backend: the call of `fd::wait` up to its block, all that is stored for a wait, when that is a
registration naming the wait's process and session, and who an event it waits for is answered to. -/
structure Backend where
  State : Type
  Stored : Type
  wait : State → Wait → (fails : Bool) → Bool × State
  stored : State → Wait → Stored
  Naming : Wait → Stored → Prop
  answered : State → Wait → Option (ProcessT × SessionT)
  answered_of_naming : ∀ s wait, Naming wait (stored s wait) → answered s wait = some wait.key

def epoll : Backend where
  State := Epoll
  Stored := Option Interest × Filter
  wait := Epoll.wait
  stored s wait := (s.interest wait.event wait.fd, s.filters (selectFilter wait.fd wait.event))
  Naming wait stored :=
    stored.1.map Interest.ptr = some (selectFilter wait.fd wait.event)
      ∧ stored.2 = ⟨wait.pid, wait.session⟩
  answered s wait := s.answered wait.event wait.fd
  answered_of_naming s wait := by
    rintro ⟨hptr, hfilter⟩
    obtain ⟨entry, hentry, hentryPtr⟩ := Option.map_eq_some_iff.mp hptr
    exact Option.map_eq_some_iff.mpr
      ⟨entry, hentry, hentryPtr ▸ congrArg Filter.key hfilter⟩

def kqueue : Backend where
  State := Kqueue
  Stored := Option UInt64
  wait := Kqueue.wait
  stored s wait := s.knotes wait.event wait.fd
  Naming wait stored := stored = some (udata wait.pid wait.session)
  answered s wait := s.answered wait.event wait.fd
  answered_of_naming s wait hnaming := by
    rw [Kqueue.answered, hnaming, Option.map_some, udataKey_udata]
    rfl

/-- Each pending wait has a registration that names its process and session, and an event it waits
for is answered to it. -/
def Backend.Named (b : Backend) (s : b.State) (pending : List Wait) : Prop :=
  ∀ wait ∈ pending, b.Naming wait (b.stored s wait) ∧ b.answered s wait = some wait.key

def Wait.SameSlot (wait other : Wait) : Prop := wait.event = other.event ∧ wait.fd = other.fd

/-- What a call has to leave unbroken: all of the pending waits if it throws, and the names in the
registrations of those that are pending after it. -/
structure Backend.Unbroken (b : Backend) (s : b.State) (pending : List Wait) (new : Wait)
    (fails : Bool) : Prop where
  thrown : (b.wait s new fails).1 = true →
    ∀ wait ∈ pending, b.stored (b.wait s new fails).2 wait = b.stored s wait
  named : b.Named (b.wait s new fails).2
    (if (b.wait s new fails).1 then pending else new :: pending)

/-! ### epoll -/

theorem Epoll.wait_thrown (s : Epoll) (new : Wait) {fails : Bool}
    (hthrown : (s.interest new.event new.fd).isSome ∨ fails = true) :
    s.wait new fails
      = (true, s.setFilter (selectFilter new.fd new.event) ⟨new.pid, new.session⟩) := by
  have hadd : (s.setFilter (selectFilter new.fd new.event) ⟨new.pid, new.session⟩).add new.event
      new.fd (selectFilter new.fd new.event) fails = none := if_pos hthrown
  simp only [Epoll.wait, hadd]

theorem Epoll.wait_added (s : Epoll) (new : Wait) {fails : Bool}
    (hadded : ¬ ((s.interest new.event new.fd).isSome ∨ fails = true)) :
    s.wait new fails
      = (false,
        { s.setFilter (selectFilter new.fd new.event) ⟨new.pid, new.session⟩ with
          interest := s.interest.set new.event new.fd
            (some ⟨selectFilter new.fd new.event, true⟩) }) := by
  have hadd : (s.setFilter (selectFilter new.fd new.event) ⟨new.pid, new.session⟩).add new.event
      new.fd (selectFilter new.fd new.event) fails = some _ := if_neg hadded
  simp only [Epoll.wait, hadd]
  rfl

/-- Nothing stored for another descriptor or direction changes. -/
theorem Epoll.wait_stored_of_ne (s : Epoll) (new : Wait) (fails : Bool) {wait : Wait}
    (hne : ¬ wait.SameSlot new) :
    epoll.stored (s.wait new fails).2 wait = epoll.stored s wait := by
  have hptr : selectFilter wait.fd wait.event ≠ selectFilter new.fd new.event := fun h =>
    hne ⟨(selectFilter_inj.mp h).2, (selectFilter_inj.mp h).1⟩
  by_cases hthrown : (s.interest new.event new.fd).isSome ∨ fails = true
  · rw [s.wait_thrown new hthrown]
    exact Prod.ext rfl (Function.update_of_ne hptr _ _)
  · rw [s.wait_added new hthrown]
    exact Prod.ext (Table.set_of_ne _ _ hne) (Function.update_of_ne hptr _ _)

/-- Whether it throws or not, the call has written its own names into the filter. -/
theorem Epoll.wait_filter (s : Epoll) (new : Wait) (fails : Bool) :
    (s.wait new fails).2.filters (selectFilter new.fd new.event)
      = ⟨new.pid, new.session⟩ := by
  by_cases hthrown : (s.interest new.event new.fd).isSome ∨ fails = true
  · rw [s.wait_thrown new hthrown]
    exact Function.update_self _ _ _
  · rw [s.wait_added new hthrown]
    exact Function.update_self _ _ _

theorem Epoll.wait_naming (s : Epoll) (new : Wait) {fails : Bool}
    (hreturns : (s.wait new fails).1 = false) :
    epoll.Naming new (epoll.stored (s.wait new fails).2 new) := by
  by_cases hthrown : (s.interest new.event new.fd).isSome ∨ fails = true
  · rw [s.wait_thrown new hthrown] at hreturns
    cases hreturns
  · refine ⟨?_, s.wait_filter new fails⟩
    rw [s.wait_added new hthrown]
    exact congrArg (Option.map Interest.ptr) (Table.set_self _ _ _ _)

/-! ### kqueue -/

theorem Kqueue.wait_stored_of_ne (s : Kqueue) (new : Wait) (fails : Bool) {wait : Wait}
    (hne : ¬ wait.SameSlot new) :
    kqueue.stored (s.wait new fails).2 wait = kqueue.stored s wait := by
  cases fails with
  | true => rfl
  | false => exact Table.set_of_ne _ _ hne

theorem Kqueue.wait_naming (s : Kqueue) (new : Wait) {fails : Bool}
    (hreturns : (s.wait new fails).1 = false) :
    kqueue.Naming new (kqueue.stored (s.wait new fails).2 new) := by
  cases fails with
  | true => cases hreturns
  | false => exact Table.set_self _ _ _ _

/-! ### Both -/

/-- A call that changes nothing stored for the pending waits leaves them unbroken. -/
theorem Backend.Unbroken.of_stored {b : Backend} {s : b.State} {pending : List Wait} {new : Wait}
    {fails : Bool} (hnamed : b.Named s pending)
    (hstored : ∀ wait ∈ pending, b.stored (b.wait s new fails).2 wait = b.stored s wait)
    (hnew : (b.wait s new fails).1 = false → b.Naming new (b.stored (b.wait s new fails).2 new)) :
    b.Unbroken s pending new fails := by
  have hkept : b.Named (b.wait s new fails).2 pending := by
    intro wait hwait
    have hnaming : b.Naming wait (b.stored (b.wait s new fails).2 wait) := by
      rw [hstored wait hwait]
      exact (hnamed wait hwait).1
    exact ⟨hnaming, b.answered_of_naming _ _ hnaming⟩
  refine ⟨fun _ => hstored, ?_⟩
  cases hthrown : (b.wait s new fails).1 with
  | true => exact hkept
  | false =>
      intro wait hwait
      obtain rfl | hold := List.mem_cons.mp hwait
      · exact ⟨hnew hthrown, b.answered_of_naming _ _ (hnew hthrown)⟩
      · exact hkept wait hold

theorem Backend.Unbroken.naming {b : Backend} {s : b.State} {pending : List Wait} {new : Wait}
    {fails : Bool} (h : b.Unbroken s pending new fails) {wait : Wait} (hwait : wait ∈ pending) :
    b.Naming wait (b.stored (b.wait s new fails).2 wait) := by
  have hnamed := h.named
  cases hthrown : (b.wait s new fails).1 with
  | true =>
      rw [hthrown] at hnamed
      exact (hnamed wait hwait).1
  | false =>
      rw [hthrown] at hnamed
      exact (hnamed wait (List.mem_cons_of_mem _ hwait)).1

theorem epoll_unbroken_iff {s : Epoll} {pending : List Wait} {new : Wait} (fails : Bool)
    (hnamed : epoll.Named s pending) (hnew : ∀ wait ∈ pending, wait.key ≠ new.key) :
    epoll.Unbroken s pending new fails ↔ ∀ wait ∈ pending, ¬ wait.SameSlot new := by
  constructor
  · intro h wait hwait hsame
    have hfilter : (s.wait new fails).2.filters (selectFilter wait.fd wait.event)
        = ⟨wait.pid, wait.session⟩ := (h.naming hwait).2
    rw [hsame.1, hsame.2, s.wait_filter new fails] at hfilter
    exact hnew wait hwait (congrArg Filter.key hfilter).symm
  · intro hfree
    exact Backend.Unbroken.of_stored hnamed
      (fun wait hwait => s.wait_stored_of_ne new fails (hfree wait hwait)) (s.wait_naming new)

theorem kqueue_unbroken_iff {s : Kqueue} {pending : List Wait} {new : Wait} (fails : Bool)
    (hnamed : kqueue.Named s pending) (hnew : ∀ wait ∈ pending, wait.key ≠ new.key) :
    kqueue.Unbroken s pending new fails
      ↔ fails = true ∨ ∀ wait ∈ pending, ¬ wait.SameSlot new := by
  cases fails with
  | true =>
      exact ⟨fun _ => Or.inl rfl,
        fun _ => Backend.Unbroken.of_stored hnamed (fun _ _ => rfl) (s.wait_naming new)⟩
  | false =>
      constructor
      · intro h
        refine Or.inr fun wait hwait hsame => ?_
        have hknote : s.knotes.set new.event new.fd (some (udata new.pid new.session))
            wait.event wait.fd = some (udata wait.pid wait.session) := h.naming hwait
        rw [hsame.1, hsame.2, Table.set_self] at hknote
        have hkey := congrArg (Option.map udataKey) hknote
        rw [Option.map_some, Option.map_some, udataKey_udata, udataKey_udata] at hkey
        exact hnew wait hwait (Option.some.inj hkey).symm
      · rintro (hfails | hfree)
        · cases hfails
        · exact Backend.Unbroken.of_stored hnamed
            (fun wait hwait => s.wait_stored_of_ne new false (hfree wait hwait))
            (s.wait_naming new)

/-- **A further wait.** Whatever waits are pending, each with a registration that names it, a call of
`fd::wait` with names of its own leaves them unbroken just when none of them is on its descriptor
and direction, or, with kqueue, when the kernel fails. -/
theorem unbroken_iff (pending : List Wait) (new : Wait) (fails : Bool)
    (hnew : ∀ wait ∈ pending, wait.key ≠ new.key) :
    (∀ s, epoll.Named s pending →
        (epoll.Unbroken s pending new fails ↔ ∀ wait ∈ pending, ¬ wait.SameSlot new))
      ∧ ∀ s, kqueue.Named s pending →
        (kqueue.Unbroken s pending new fails
          ↔ fails = true ∨ ∀ wait ∈ pending, ¬ wait.SameSlot new) :=
  ⟨fun _ hnamed => epoll_unbroken_iff fails hnamed hnew,
    fun _ hnamed => kqueue_unbroken_iff fails hnamed hnew⟩

/-! ### Two waits -/

def Epoll.empty : Epoll where
  filters _ := ⟨0, 0⟩
  interest _ _ := none

def Kqueue.empty : Kqueue where
  knotes _ _ := none

/-- The first wait, whatever the backend. -/
theorem first_named (wait : Wait) :
    epoll.Named (Epoll.empty.wait wait false).2 [wait]
      ∧ kqueue.Named (Kqueue.empty.wait wait false).2 [wait] := by
  have hnone : ∀ {P : Wait → Prop}, ∀ other ∈ ([] : List Wait), P other := fun _ h =>
    absurd h List.not_mem_nil
  have hepoll : epoll.Unbroken Epoll.empty [] wait false :=
    (epoll_unbroken_iff false hnone hnone).mpr hnone
  have hkqueue : kqueue.Unbroken Kqueue.empty [] wait false :=
    (kqueue_unbroken_iff false hnone hnone).mpr (Or.inr hnone)
  exact ⟨hepoll.named, hkqueue.named⟩

/-- Process `2` waits to write on the descriptor that process `1` waits to read. -/
theorem unbroken_iff_other_direction :
    epoll.Unbroken (Epoll.empty.wait ⟨1, 7, 5, .kRead⟩ false).2 [⟨1, 7, 5, .kRead⟩]
        ⟨2, 9, 5, .kWrite⟩ false
      ∧ kqueue.Unbroken (Kqueue.empty.wait ⟨1, 7, 5, .kRead⟩ false).2 [⟨1, 7, 5, .kRead⟩]
        ⟨2, 9, 5, .kWrite⟩ false := by
  have hiff := unbroken_iff [⟨1, 7, 5, .kRead⟩] ⟨2, 9, 5, .kWrite⟩ false (by decide)
  have hnamed := first_named ⟨1, 7, 5, .kRead⟩
  have hfree : ∀ wait ∈ [(⟨1, 7, 5, .kRead⟩ : Wait)], ¬ wait.SameSlot ⟨2, 9, 5, .kWrite⟩ := by
    intro wait hwait hsame
    rw [List.mem_singleton.mp hwait] at hsame
    exact absurd hsame.1 (by decide)
  exact ⟨(hiff.1 _ hnamed.1).mpr hfree, (hiff.2 _ hnamed.2).mpr (Or.inr hfree)⟩

/-- Process `2` waits to read on the descriptor that process `1` waits to read. With epoll the call
throws, and an event is answered to a session that the call has released; with kqueue it is answered
to process `2`. -/
theorem second_wait_breaks :
    ((epoll.wait (Epoll.empty.wait ⟨1, 7, 5, .kRead⟩ false).2 ⟨2, 9, 5, .kRead⟩ false).1 = true
        ∧ ¬ epoll.Unbroken (Epoll.empty.wait ⟨1, 7, 5, .kRead⟩ false).2 [⟨1, 7, 5, .kRead⟩]
          ⟨2, 9, 5, .kRead⟩ false)
      ∧ ¬ kqueue.Unbroken (Kqueue.empty.wait ⟨1, 7, 5, .kRead⟩ false).2 [⟨1, 7, 5, .kRead⟩]
        ⟨2, 9, 5, .kRead⟩ false := by
  have hnamed := first_named ⟨1, 7, 5, .kRead⟩
  have hkey : ∀ wait ∈ [(⟨1, 7, 5, .kRead⟩ : Wait)],
      wait.key ≠ Wait.key ⟨2, 9, 5, .kRead⟩ := by decide
  refine ⟨⟨rfl, fun h => ?_⟩, fun h => ?_⟩
  · exact (epoll_unbroken_iff false hnamed.1 hkey).mp h _ (List.mem_singleton_self _) ⟨rfl, rfl⟩
  · obtain hfails | hfree := (kqueue_unbroken_iff false hnamed.2 hkey).mp h
    · cases hfails
    · exact hfree _ (List.mem_singleton_self _) ⟨rfl, rfl⟩

end Stp.Fd
