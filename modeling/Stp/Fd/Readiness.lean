import Stp.Fd.Poll

/-!
# Whom an event is answered to

As long as no call writes to a filter that an event in the hands of the poll thread points to, the
filter still names the call whose registration produced the event when the poll thread reads it. So
the response carries the names of that call, and as each registration produces one event and each
response is taken once, a call that returns does so on the event it registered for.
-/

namespace Stp.Fd.Poll

open Transition

/-- The calls of the events that the poll thread holds and of the responses not yet taken. -/
def State.tickets (s : State) : List Nat := s.held.map Fetched.call ++ s.mail.map Response.call

/-- A registration is of a call that is on its descriptor and direction, and its filter names it. -/
structure Registered (event : Event) (fd : Descriptor) (ptr : FilterPtr) (filter : Filter)
    (c : Call) : Prop where
  ptr_eq : ptr = selectFilter fd event
  registrant_ptr : c.ptr = selectFilter fd event
  phase : c.phase = .waiting ∨ c.phase = .leaving
  filter_eq : filter = c.names

/-- A call whose event has been fetched waits for the response, unless its process exits. -/
def State.Awaits (s : State) (i : Nat) : Prop :=
  (s.call i).phase = .waiting
    ∨ (s.exiting (s.call i).wait.pid = true
      ∧ ((s.call i).phase = .leaving ∨ (s.call i).phase = .done))

structure Faithful (s : State) : Prop where
  idle : ∀ i, s.created ≤ i → (s.call i).phase = .done
  key_inj : ∀ i j, (s.call i).phase.Active → (s.call j).phase.Active →
    (s.call i).wait.key = (s.call j).wait.key → i = j
  ptr_inj : ∀ i j, (s.call i).phase.Active → (s.call j).phase.Active →
    (s.call i).ptr = (s.call j).ptr → i = j
  sourced : ∀ i, (s.call i).phase = .sourced →
    (s.epoll.filters (s.call i).ptr).source = (s.call i).wait.pid
  named : ∀ i, (s.call i).phase = .named → s.epoll.filters (s.call i).ptr = (s.call i).names
  entry : ∀ event fd entry, s.epoll.interest event fd = some entry →
    Registered event fd entry.ptr (s.epoll.filters entry.ptr) (s.call (s.registrant event fd))
  held : ∀ f ∈ s.held, f.call < s.created ∧ s.epoll.filters f.ptr = (s.call f.call).names
  source : ∀ f source, s.reading = some (f, source) → source = (s.call f.call).wait.pid
  sent : ∀ r ∈ s.sent, r.call < s.created ∧ (s.call r.call).wait.key = (r.pid, r.session)
  mail : ∀ r ∈ s.mail, r ∈ s.sent
  once : s.tickets.Nodup
  ticket : ∀ i ∈ s.tickets, s.Awaits i
  armed : ∀ event fd, s.Armed event fd →
    s.registrant event fd ∉ s.tickets ∧ s.Awaits (s.registrant event fd)
  returned : ∀ p ∈ s.returned, p.1 = p.2

theorem Registered.active {event : Event} {fd : Descriptor} {ptr : FilterPtr} {filter : Filter}
    {c : Call} (h : Registered event fd ptr filter c) : c.phase.Active := by
  obtain hphase | hphase := h.phase <;> rw [hphase] <;> trivial

theorem faithful_fresh : Faithful State.fresh where
  idle _ _ := rfl
  key_inj _ _ hi := hi.elim
  ptr_inj _ _ hi := hi.elim
  sourced _ := nofun
  named _ := nofun
  entry _ _ _ := nofun
  held _ := nofun
  source _ _ := nofun
  sent _ := nofun
  mail _ := nofun
  once := List.nodup_nil
  ticket _ := nofun
  armed _ _ := nofun
  returned _ := nofun

/-! ### The table of calls -/

@[simp]
theorem State.setPhase_wait (s : State) (i j : Nat) (phase : Phase) :
    ((s.setPhase i phase).call j).wait = (s.call j).wait := by
  by_cases hj : j = i
  · subst hj
    simp only [setPhase, Function.update_self]
  · simp only [setPhase, Function.update_of_ne hj]

theorem State.setPhase_phase (s : State) (i j : Nat) (phase : Phase) :
    ((s.setPhase i phase).call j).phase = if j = i then phase else (s.call j).phase := by
  by_cases hj : j = i
  · subst hj
    simp only [setPhase, Function.update_self, if_true]
  · simp only [setPhase, Function.update_of_ne hj, if_neg hj]

@[simp]
theorem State.setPhase_ptr (s : State) (i j : Nat) (phase : Phase) :
    ((s.setPhase i phase).call j).ptr = (s.call j).ptr := by
  simp only [Call.ptr, setPhase_wait]

@[simp]
theorem State.setPhase_names (s : State) (i j : Nat) (phase : Phase) :
    ((s.setPhase i phase).call j).names = (s.call j).names := by
  simp only [Call.names, setPhase_wait]

theorem State.setFilter_self (s : State) (ptr : FilterPtr) (filter : Filter) :
    (s.setFilter ptr filter).epoll.filters ptr = filter := Function.update_self _ _ _

theorem Faithful.lt_created {s : State} (hs : Faithful s) {i : Nat}
    (hactive : (s.call i).phase.Active) : i < s.created := by
  by_contra hle
  rw [hs.idle i (Nat.le_of_not_lt hle)] at hactive
  exact hactive

/-! ### What keeps the invariant -/

theorem Faithful.setPhase {s : State} (hs : Faithful s) {i : Nat} {phase : Phase}
    (hactive : (s.call i).phase.Active)
    (hsourced : phase = .sourced → (s.epoll.filters (s.call i).ptr).source = (s.call i).wait.pid)
    (hnamed : phase = .named → s.epoll.filters (s.call i).ptr = (s.call i).names)
    (hentry : ∀ event fd entry, s.epoll.interest event fd = some entry →
      s.registrant event fd = i → phase = .waiting ∨ phase = .leaving)
    (hticket : (i ∈ s.tickets ∨ ∃ event fd, s.Armed event fd ∧ s.registrant event fd = i) →
      phase = .waiting
        ∨ (s.exiting (s.call i).wait.pid = true ∧ (phase = .leaving ∨ phase = .done))) :
    Faithful (s.setPhase i phase) := by
  have hbefore : ∀ j, ((s.setPhase i phase).call j).phase.Active → (s.call j).phase.Active := by
    intro j hj
    rw [s.setPhase_phase] at hj
    split_ifs at hj with heq
    · exact heq ▸ hactive
    · exact hj
  refine { hs with
    idle := ?_, key_inj := ?_, ptr_inj := ?_, sourced := ?_, named := ?_, entry := ?_, held := ?_,
    source := ?_, sent := ?_, ticket := ?_, armed := ?_ }
  · intro j hj
    have hne : j ≠ i := by
      rintro rfl
      exact absurd (hs.lt_created hactive) (Nat.not_lt.mpr hj)
    rw [s.setPhase_phase, if_neg hne]
    exact hs.idle j hj
  · intro j k hj hk hkey
    simp only [State.setPhase_wait] at hkey
    exact hs.key_inj j k (hbefore j hj) (hbefore k hk) hkey
  · intro j k hj hk hptr
    simp only [State.setPhase_ptr] at hptr
    exact hs.ptr_inj j k (hbefore j hj) (hbefore k hk) hptr
  · intro j hj
    rw [s.setPhase_phase] at hj
    rw [State.setPhase_ptr, State.setPhase_wait]
    split_ifs at hj with heq
    · subst heq
      exact hsourced hj
    · exact hs.sourced j hj
  · intro j hj
    rw [s.setPhase_phase] at hj
    rw [State.setPhase_ptr, State.setPhase_names]
    split_ifs at hj with heq
    · subst heq
      exact hnamed hj
    · exact hs.named j hj
  · intro event fd entry hinterest
    obtain ⟨hptr, hregistrant, hphase, hfilter⟩ := hs.entry event fd entry hinterest
    refine ⟨hptr, (s.setPhase_ptr _ _ _).trans hregistrant, ?_,
      hfilter.trans (s.setPhase_names _ _ _).symm⟩
    change ((s.setPhase i phase).call (s.registrant event fd)).phase = _
      ∨ ((s.setPhase i phase).call (s.registrant event fd)).phase = _
    rw [s.setPhase_phase]
    split_ifs with heq
    · exact hentry event fd entry hinterest heq
    · exact hphase
  · intro f hf
    obtain ⟨hlt, hfilter⟩ := hs.held f hf
    exact ⟨hlt, hfilter.trans (s.setPhase_names _ _ _).symm⟩
  · intro f source hreading
    rw [State.setPhase_wait]
    exact hs.source f source hreading
  · intro r hr
    rw [State.setPhase_wait]
    exact hs.sent r hr
  · intro j hj
    rw [State.Awaits, s.setPhase_phase, State.setPhase_wait]
    split_ifs with heq
    · subst heq
      exact hticket (Or.inl hj)
    · exact hs.ticket j hj
  · intro event fd harmed
    obtain ⟨hnot, hawaits⟩ := hs.armed event fd harmed
    refine ⟨hnot, ?_⟩
    change State.Awaits (s.setPhase i phase) (s.registrant event fd)
    rw [State.Awaits, s.setPhase_phase, State.setPhase_wait]
    split_ifs with heq
    · subst heq
      exact hticket (Or.inr ⟨event, fd, harmed, rfl⟩)
    · exact hawaits

theorem Faithful.setFilter {s : State} (hs : Faithful s) {ptr : FilterPtr} {filter : Filter}
    (hsourced : ∀ i, (s.call i).phase = .sourced → (s.call i).ptr = ptr →
      filter.source = (s.call i).wait.pid)
    (hnamed : ∀ i, (s.call i).phase = .named → (s.call i).ptr ≠ ptr)
    (hentry : ∀ event fd entry, s.epoll.interest event fd = some entry → entry.ptr ≠ ptr)
    (hheld : ∀ f ∈ s.held, f.ptr ≠ ptr) : Faithful (s.setFilter ptr filter) := by
  have hother : ∀ {p}, p ≠ ptr →
      (s.setFilter ptr filter).epoll.filters p = s.epoll.filters p := fun hp =>
    Function.update_of_ne hp _ _
  refine { hs with sourced := ?_, named := ?_, entry := ?_, held := ?_ }
  · intro i hi
    by_cases hptr : (s.call i).ptr = ptr
    · change ((s.setFilter ptr filter).epoll.filters (s.call i).ptr).source = (s.call i).wait.pid
      rw [hptr, s.setFilter_self]
      exact hsourced i hi hptr
    · exact (congrArg Filter.source (hother hptr)).trans (hs.sourced i hi)
  · intro i hi
    exact (hother (hnamed i hi)).trans (hs.named i hi)
  · intro event fd entry hinterest
    obtain ⟨hptr, hregistrant, hphase, hfilter⟩ := hs.entry event fd entry hinterest
    exact ⟨hptr, hregistrant, hphase, (hother (hentry event fd entry hinterest)).trans hfilter⟩
  · intro f hf
    obtain ⟨hlt, hfilter⟩ := hs.held f hf
    exact ⟨hlt, (hother (hheld f hf)).trans hfilter⟩

/-- Registrations may go. -/
theorem Faithful.unregister {s : State} (hs : Faithful s) {interest : Table (Option Interest)}
    (hfewer : ∀ event fd entry, interest event fd = some entry →
      s.epoll.interest event fd = some entry) :
    Faithful { s with epoll := { s.epoll with interest } } := by
  refine { hs with entry := ?_, armed := ?_ }
  · intro event fd entry hinterest
    obtain ⟨hptr, hregistrant, hphase, hfilter⟩ :=
      hs.entry event fd entry (hfewer event fd entry hinterest)
    exact ⟨hptr, hregistrant, hphase, hfilter⟩
  · rintro event fd ⟨entry, hinterest, harmed⟩
    exact hs.armed event fd ⟨entry, hfewer event fd entry hinterest, harmed⟩

theorem Faithful.start {s : State} (hs : Faithful s) {wait : Wait}
    (hnew : ∀ i, (s.call i).phase.Active → (s.call i).wait.key ≠ wait.key)
    (hslot : ∀ i, (s.call i).phase.Active → (s.call i).ptr ≠ selectFilter wait.fd wait.event) :
    Faithful (s.start wait) := by
  have hself : (s.start wait).call s.created = ⟨wait, .called⟩ := Function.update_self _ _ _
  have hother : ∀ {i}, i ≠ s.created → (s.start wait).call i = s.call i := fun hi =>
    Function.update_of_ne hi _ _
  have hborn : ∀ {i}, i < s.created → (s.start wait).call i = s.call i := fun hi =>
    hother (Nat.ne_of_lt hi)
  have hpast : ∀ {i}, (s.start wait).call i ≠ ⟨wait, .called⟩ →
      (s.start wait).call i = s.call i := by
    intro i hi
    exact hother fun h => hi (h ▸ hself)
  refine { hs with
    idle := ?_, key_inj := ?_, ptr_inj := ?_, sourced := ?_, named := ?_, entry := ?_, held := ?_,
    source := ?_, sent := ?_, ticket := ?_, armed := ?_ }
  · intro i hi
    rw [hother (Nat.ne_of_gt (Nat.lt_of_succ_le hi))]
    exact hs.idle i (Nat.le_of_succ_le hi)
  · intro i j hi hj hkey
    by_cases hi' : i = s.created <;> by_cases hj' : j = s.created
    · exact hi'.trans hj'.symm
    · subst hi'
      rw [hother hj'] at hj hkey
      rw [hself] at hkey
      exact absurd hkey.symm (hnew j hj)
    · subst hj'
      rw [hother hi'] at hi hkey
      rw [hself] at hkey
      exact absurd hkey (hnew i hi)
    · rw [hother hi'] at hi hkey
      rw [hother hj'] at hj hkey
      exact hs.key_inj i j hi hj hkey
  · intro i j hi hj hptr
    by_cases hi' : i = s.created <;> by_cases hj' : j = s.created
    · exact hi'.trans hj'.symm
    · subst hi'
      rw [hother hj'] at hj hptr
      rw [hself] at hptr
      exact absurd hptr.symm (hslot j hj)
    · subst hj'
      rw [hother hi'] at hi hptr
      rw [hself] at hptr
      exact absurd hptr (hslot i hi)
    · rw [hother hi'] at hi hptr
      rw [hother hj'] at hj hptr
      exact hs.ptr_inj i j hi hj hptr
  · intro i hi
    have hcall := hpast fun h => by
      rw [h] at hi
      cases hi
    rw [hcall] at hi ⊢
    exact hs.sourced i hi
  · intro i hi
    have hcall := hpast fun h => by
      rw [h] at hi
      cases hi
    rw [hcall] at hi ⊢
    exact hs.named i hi
  · intro event fd entry hinterest
    have hregistered := hs.entry event fd entry hinterest
    have hcall := hborn (hs.lt_created hregistered.active)
    obtain ⟨hptr, hregistrant, hphase, hfilter⟩ := hregistered
    rw [← hcall] at hregistrant hphase hfilter
    exact ⟨hptr, hregistrant, hphase, hfilter⟩
  · intro f hf
    obtain ⟨hlt, hfilter⟩ := hs.held f hf
    rw [hborn hlt]
    exact ⟨Nat.lt_succ_of_lt hlt, hfilter⟩
  · intro f source hreading
    have hf : f ∈ s.held := List.mem_append_right _ (by
      rw [show s.reading = some (f, source) from hreading]
      exact List.mem_singleton_self f)
    rw [hborn (hs.held f hf).1]
    exact hs.source f source hreading
  · intro r hr
    obtain ⟨hlt, hkey⟩ := hs.sent r hr
    rw [hborn hlt]
    exact ⟨Nat.lt_succ_of_lt hlt, hkey⟩
  · intro i hi
    have hawaits := hs.ticket i hi
    have hlt : i < s.created := by
      obtain hheld | hmail := List.mem_append.mp (show i ∈ s.tickets from hi)
      · obtain ⟨f, hf, rfl⟩ := List.mem_map.mp hheld
        exact (hs.held f hf).1
      · obtain ⟨r, hr, rfl⟩ := List.mem_map.mp hmail
        exact (hs.sent r (hs.mail r hr)).1
    rw [State.Awaits, hborn hlt]
    exact hawaits
  · intro event fd harmed
    obtain ⟨hnot, hawaits⟩ := hs.armed event fd harmed
    obtain ⟨entry, hinterest, -⟩ := harmed
    refine ⟨hnot, ?_⟩
    change State.Awaits (s.start wait) (s.registrant event fd)
    rw [State.Awaits, hborn (hs.lt_created (hs.entry event fd entry hinterest).active)]
    exact hawaits

/-- A call that is not registered has no registration, and none points to its filter. -/
theorem Faithful.unregistered {s : State} (hs : Faithful s) {i : Nat}
    (hactive : (s.call i).phase.Active) (hwaiting : (s.call i).phase ≠ .waiting)
    (hleaving : (s.call i).phase ≠ .leaving) {event : Event} {fd : Descriptor} {entry : Interest}
    (hinterest : s.epoll.interest event fd = some entry) :
    s.registrant event fd ≠ i ∧ entry.ptr ≠ (s.call i).ptr := by
  have hregistered := hs.entry event fd entry hinterest
  have hne : s.registrant event fd ≠ i := by
    rintro rfl
    exact hregistered.phase.elim hwaiting hleaving
  refine ⟨hne, fun heq => hne ?_⟩
  exact hs.ptr_inj _ _ hregistered.active hactive
    (hregistered.registrant_ptr.trans (hregistered.ptr_eq.symm.trans heq))

theorem Faithful.not_ticket {s : State} (hs : Faithful s) {i : Nat}
    (hactive : (s.call i).phase.Active) (hwaiting : (s.call i).phase ≠ .waiting)
    (hleaving : (s.call i).phase ≠ .leaving) :
    ¬ (i ∈ s.tickets ∨ ∃ event fd, s.Armed event fd ∧ s.registrant event fd = i) := by
  have hnot : ¬ s.Awaits i := by
    rintro (hphase | ⟨-, hphase | hphase⟩)
    · exact hwaiting hphase
    · exact hleaving hphase
    · rw [hphase] at hactive
      exact hactive
  rintro (hticket | ⟨event, fd, harmed, rfl⟩)
  · exact hnot (hs.ticket i hticket)
  · exact hnot (hs.armed event fd harmed).2

theorem Faithful.writeSource {s : State} (hs : Faithful s) {i : Nat}
    (hphase : (s.call i).phase = .called) (horderly : ∀ f ∈ s.held, f.ptr ≠ (s.call i).ptr) :
    Faithful (s.writeSource i) := by
  have hactive : (s.call i).phase.Active := by
    rw [hphase]
    trivial
  have hwaiting : (s.call i).phase ≠ .waiting := by
    rw [hphase]
    nofun
  have hleaving : (s.call i).phase ≠ .leaving := by
    rw [hphase]
    nofun
  have hother : ∀ j, (s.call j).phase.Active → (s.call j).phase ≠ .called →
      (s.call j).ptr ≠ (s.call i).ptr := fun j hj hne hptr =>
    hne (hs.ptr_inj j i hj hactive hptr ▸ hphase)
  have hwritten : Faithful (s.setFilter (s.call i).ptr
      { s.epoll.filters (s.call i).ptr with source := (s.call i).wait.pid }) := hs.setFilter
    (fun j hj hptr => by
      refine absurd hptr (hother j ?_ ?_) <;> rw [hj]
      · trivial
      · nofun)
    (fun j hj => by
      refine hother j ?_ ?_ <;> rw [hj]
      · trivial
      · nofun)
    (fun event fd entry hinterest => (hs.unregistered hactive hwaiting hleaving hinterest).2)
    horderly
  refine hwritten.setPhase hactive (fun _ => ?_) nofun
    (fun event fd entry hinterest heq =>
      absurd heq (hs.unregistered hactive hwaiting hleaving hinterest).1)
    (fun hticket => absurd hticket (hs.not_ticket hactive hwaiting hleaving))
  exact congrArg Filter.source (s.setFilter_self _ _)

theorem Faithful.writeSession {s : State} (hs : Faithful s) {i : Nat}
    (hphase : (s.call i).phase = .sourced) (horderly : ∀ f ∈ s.held, f.ptr ≠ (s.call i).ptr) :
    Faithful (s.writeSession i) := by
  have hactive : (s.call i).phase.Active := by
    rw [hphase]
    trivial
  have hwaiting : (s.call i).phase ≠ .waiting := by
    rw [hphase]
    nofun
  have hleaving : (s.call i).phase ≠ .leaving := by
    rw [hphase]
    nofun
  have hsource := hs.sourced i hphase
  have hwritten : Faithful (s.setFilter (s.call i).ptr
      { s.epoll.filters (s.call i).ptr with session := (s.call i).wait.session }) := hs.setFilter
    (fun j hj hptr => by
      have hji : j = i := hs.ptr_inj j i (by rw [hj]; trivial) hactive hptr
      rw [hji]
      exact hsource)
    (fun j hj hptr => by
      have hji : j = i := hs.ptr_inj j i (by rw [hj]; trivial) hactive hptr
      rw [hji, hphase] at hj
      cases hj)
    (fun event fd entry hinterest => (hs.unregistered hactive hwaiting hleaving hinterest).2)
    horderly
  refine hwritten.setPhase hactive nofun (fun _ => ?_)
    (fun event fd entry hinterest heq =>
      absurd heq (hs.unregistered hactive hwaiting hleaving hinterest).1)
    (fun hticket => absurd hticket (hs.not_ticket hactive hwaiting hleaving))
  exact (s.setFilter_self _ _).trans
    (congrArg (fun source => Filter.mk source (s.call i).wait.session) hsource)

/-- A call that has written its filter and blocks may be registered. -/
theorem Faithful.register {s : State} (hs : Faithful s) {i : Nat}
    (hphase : (s.call i).phase = .waiting)
    (hfilter : s.epoll.filters (s.call i).ptr = (s.call i).names) (hticket : i ∉ s.tickets) :
    Faithful
      { s with
        epoll := { s.epoll with
          interest := s.epoll.interest.set (s.call i).wait.event (s.call i).wait.fd
            (some ⟨(s.call i).ptr, true⟩) }
        registrant := s.registrant.set (s.call i).wait.event (s.call i).wait.fd i } := by
  refine { hs with entry := ?_, armed := ?_ }
  · intro event fd entry hinterest
    by_cases hslot : event = (s.call i).wait.event ∧ fd = (s.call i).wait.fd
    · obtain ⟨rfl, rfl⟩ := hslot
      simp only [Table.set_self, Option.some.injEq] at hinterest
      subst hinterest
      refine ⟨rfl, ?_, ?_, ?_⟩ <;> simp only [Table.set_self]
      · rfl
      · exact Or.inl hphase
      · exact hfilter
    · simp only [Table.set_of_ne _ _ hslot] at hinterest
      obtain ⟨hptr, hregistrant, hregistered, hnames⟩ := hs.entry event fd entry hinterest
      refine ⟨hptr, ?_, ?_, ?_⟩ <;> simp only [Table.set_of_ne _ _ hslot]
      · exact hregistrant
      · exact hregistered
      · exact hnames
  · rintro event fd ⟨entry, hinterest, harmed⟩
    by_cases hslot : event = (s.call i).wait.event ∧ fd = (s.call i).wait.fd
    · obtain ⟨rfl, rfl⟩ := hslot
      simp only [Table.set_self]
      exact ⟨hticket, Or.inl hphase⟩
    · simp only [Table.set_of_ne _ _ hslot] at hinterest ⊢
      exact hs.armed event fd ⟨entry, hinterest, harmed⟩

theorem Faithful.add {s : State} (hs : Faithful s) {i : Nat} (fails : Bool)
    (hphase : (s.call i).phase = .named) : Faithful (s.add i fails) := by
  have hactive : (s.call i).phase.Active := by
    rw [hphase]
    trivial
  have hwaiting : (s.call i).phase ≠ .waiting := by
    rw [hphase]
    nofun
  have hleaving : (s.call i).phase ≠ .leaving := by
    rw [hphase]
    nofun
  have hticket := hs.not_ticket hactive hwaiting hleaving
  by_cases hthrown : (s.epoll.interest (s.call i).wait.event (s.call i).wait.fd).isSome
      ∨ fails = true
  · have hadd : s.epoll.add (s.call i).wait.event (s.call i).wait.fd (s.call i).ptr fails = none :=
      if_pos hthrown
    simp only [State.add, hadd]
    exact hs.setPhase hactive nofun nofun
      (fun event fd entry hinterest heq =>
        absurd heq (hs.unregistered hactive hwaiting hleaving hinterest).1)
      (fun h => absurd h hticket)
  · have hadd : s.epoll.add (s.call i).wait.event (s.call i).wait.fd (s.call i).ptr fails = some _ :=
      if_neg hthrown
    have hblocked : Faithful (s.setPhase i .waiting) :=
      hs.setPhase hactive nofun nofun (fun _ _ _ _ _ => Or.inl rfl) (fun _ => Or.inl rfl)
    have hregistered := hblocked.register (i := i)
      ((s.setPhase_phase _ _ _).trans (if_pos rfl))
      (by
        rw [State.setPhase_ptr, State.setPhase_names]
        exact hs.named i hphase) (fun h => hticket (Or.inl h))
    simp only [State.setPhase_wait, State.setPhase_ptr] at hregistered
    simp only [State.add, hadd]
    exact hregistered

theorem Faithful.del {s : State} (hs : Faithful s) (event : Event) (fd : Descriptor) :
    Faithful { s with epoll := s.epoll.del event fd } := by
  refine hs.unregister fun event' fd' entry hinterest => ?_
  by_cases hslot : event' = event ∧ fd' = fd
  · obtain ⟨rfl, rfl⟩ := hslot
    rw [Table.set_self] at hinterest
    cases hinterest
  · rwa [Table.set_of_ne _ _ hslot] at hinterest

theorem Faithful.close {s : State} (hs : Faithful s) (fd : Descriptor) : Faithful (s.close fd) :=
  (hs.del .kRead fd).del .kWrite fd

theorem Faithful.leave {s : State} (hs : Faithful s) {i : Nat}
    (hphase : (s.call i).phase = .leaving) : Faithful (s.leave i) := by
  have hactive : (s.call i).phase.Active := by
    rw [hphase]
    trivial
  have hdel := hs.del (s.call i).wait.event (s.call i).wait.fd
  have hgone : ∀ event fd entry, (s.epoll.del (s.call i).wait.event (s.call i).wait.fd).interest
      event fd = some entry → s.registrant event fd ≠ i := by
    intro event fd entry hinterest heq
    have hptr : (s.call i).ptr = selectFilter fd event := by
      rw [← heq]
      exact (hdel.entry event fd entry hinterest).registrant_ptr
    obtain ⟨hfd, hevent⟩ := selectFilter_inj.mp hptr
    simp only [Epoll.del, ← hfd, ← hevent, Table.set_self] at hinterest
    cases hinterest
  refine hdel.setPhase hactive nofun nofun ?_ ?_
  · intro event fd entry hinterest heq
    exact absurd heq (hgone event fd entry hinterest)
  · rintro (hticket | ⟨event, fd, ⟨entry, hinterest, -⟩, heq⟩)
    · obtain hwaiting | ⟨hexiting, -⟩ := hs.ticket i hticket
      · rw [hphase] at hwaiting
        cases hwaiting
      · exact Or.inr ⟨hexiting, Or.inr rfl⟩
    · exact absurd heq (hgone event fd entry hinterest)

/-! ### Responses that are taken -/

theorem State.tickets_perm (s : State) (r : Response) (before after : List Response)
    (hmail : s.mail = before ++ r :: after) :
    s.tickets.Perm (r.call :: State.tickets { s with mail := before ++ after }) := by
  simp only [State.tickets, State.held, hmail, List.map_append, List.map_cons]
  rw [← List.append_assoc, ← List.append_assoc]
  exact List.perm_middle

theorem Faithful.forget {s : State} (hs : Faithful s) {r : Response} {before after : List Response}
    (hmail : s.mail = before ++ r :: after) :
    Faithful { s with mail := before ++ after }
      ∧ r.call ∉ State.tickets { s with mail := before ++ after } := by
  have hperm := s.tickets_perm r before after hmail
  obtain ⟨hnot, hnodup⟩ := List.nodup_cons.mp (hperm.nodup_iff.mp hs.once)
  have hfewer : ∀ i ∈ State.tickets { s with mail := before ++ after }, i ∈ s.tickets := fun i hi =>
    hperm.mem_iff.mpr (List.mem_cons_of_mem _ hi)
  refine ⟨{ hs with mail := ?_, once := hnodup, ticket := ?_, armed := ?_ }, hnot⟩
  · intro r' hr'
    refine hs.mail r' ?_
    rw [hmail]
    obtain hbefore | hafter := List.mem_append.mp hr'
    · exact List.mem_append_left _ hbefore
    · exact List.mem_append_right _ (List.mem_cons_of_mem _ hafter)
  · exact fun i hi => hs.ticket i (hfewer i hi)
  · intro event fd harmed
    obtain ⟨hticket, hawaits⟩ := hs.armed event fd harmed
    exact ⟨fun hi => hticket (hfewer _ hi), hawaits⟩

/-- The call that a response wakes is the one its event is of. -/
theorem Faithful.recipient {s : State} (hs : Faithful s) {r : Response}
    {before after : List Response} {i : Nat} (hmail : s.mail = before ++ r :: after)
    (hrunning : s.exiting r.pid = false) (hphase : (s.call i).phase = .waiting)
    (hkey : (s.call i).wait.key = (r.pid, r.session)) : i = r.call := by
  have hr : r ∈ s.mail := by
    rw [hmail]
    exact List.mem_append_right _ List.mem_cons_self
  have hsent := (hs.sent r (hs.mail r hr)).2
  have hticket : r.call ∈ s.tickets :=
    List.mem_append_right _ (List.mem_map_of_mem hr)
  have hwaiting : (s.call r.call).phase = .waiting := by
    obtain hwaiting | ⟨hexiting, -⟩ := hs.ticket _ hticket
    · exact hwaiting
    · rw [show (s.call r.call).wait.pid = r.pid from congrArg Prod.fst hsent, hrunning] at hexiting
      cases hexiting
  refine hs.key_inj i r.call ?_ ?_ (hkey.trans hsent.symm)
  · rw [hphase]
    trivial
  · rw [hwaiting]
    trivial

theorem Faithful.deliver {s : State} (hs : Faithful s) {r : Response}
    {before after : List Response} {i : Nat} (hmail : s.mail = before ++ r :: after)
    (hrunning : s.exiting r.pid = false) (hphase : (s.call i).phase = .waiting)
    (hkey : (s.call i).wait.key = (r.pid, r.session)) :
    Faithful { s.setPhase i .leaving with
      mail := before ++ after
      returned := s.returned ++ [(i, r.call)] } := by
  have hcall := hs.recipient hmail hrunning hphase hkey
  obtain ⟨hforgot, hnot⟩ := hs.forget hmail
  have hactive : (s.call i).phase.Active := by
    rw [hphase]
    trivial
  have hleaving : Faithful (State.setPhase { s with mail := before ++ after } i .leaving) := by
    refine hforgot.setPhase hactive nofun nofun (fun _ _ _ _ _ => Or.inr rfl) ?_
    rintro (hticket | ⟨event, fd, harmed, heq⟩)
    · exact absurd (hcall ▸ hticket) hnot
    · refine absurd ?_ (hs.armed event fd harmed).1
      rw [show s.registrant event fd = r.call from heq.trans hcall]
      exact (s.tickets_perm r before after hmail).mem_iff.mpr List.mem_cons_self
  refine { hleaving with returned := ?_ }
  intro p hp
  obtain hold | rfl := List.mem_append.mp hp |>.imp_right List.mem_singleton.mp
  · exact hs.returned p hold
  · exact hcall

theorem Faithful.exit {s : State} (hs : Faithful s) (pid : ProcessT) :
    Faithful { s with exiting := Function.update s.exiting pid true } := by
  have hexiting : ∀ other, s.exiting other = true →
      Function.update s.exiting pid true other = true := by
    intro other hother
    by_cases h : other = pid
    · rw [h, Function.update_self]
    · rwa [Function.update_of_ne h]
  have hawaits : ∀ i, s.Awaits i →
      State.Awaits { s with exiting := Function.update s.exiting pid true } i := fun i =>
    Or.imp_right fun h => ⟨hexiting _ h.1, h.2⟩
  refine { hs with ticket := ?_, armed := ?_ }
  · exact fun i hi => hawaits i (hs.ticket i hi)
  · exact fun event fd harmed => ⟨(hs.armed event fd harmed).1, hawaits _ (hs.armed event fd harmed).2⟩

theorem Faithful.interrupt {s : State} (hs : Faithful s) {i : Nat}
    (hphase : (s.call i).phase = .waiting) (hexiting : s.exiting (s.call i).wait.pid = true) :
    Faithful (s.setPhase i .leaving) := by
  refine hs.setPhase ?_ nofun nofun (fun _ _ _ _ _ => Or.inr rfl)
    (fun _ => Or.inr ⟨hexiting, Or.inl rfl⟩)
  rw [hphase]
  trivial

/-! ### The poll thread -/

theorem Faithful.readSource {s : State} (hs : Faithful s) {rest : List Fetched} {f : Fetched}
    (hbatch : s.batch = rest ++ [f]) (hreading : s.reading = none) :
    Faithful (s.readSource rest f) := by
  have hheld : (s.readSource rest f).held = s.held := by
    simp only [State.held, State.readSource, hbatch, hreading, Option.map_some, Option.map_none,
      Option.toList_some, Option.toList_none, List.append_nil]
  have hf : f ∈ s.held := by
    rw [← hheld]
    exact List.mem_append_right _ (List.mem_singleton_self f)
  have htickets : (s.readSource rest f).tickets = s.tickets :=
    congrArg (fun held => held.map Fetched.call ++ s.mail.map Response.call) hheld
  refine { hs with held := ?_, source := ?_, once := ?_, ticket := ?_, armed := ?_ }
  · rw [hheld]
    exact hs.held
  · intro f' source hread
    obtain ⟨rfl, rfl⟩ := Prod.mk.inj (Option.some.inj hread)
    exact congrArg Filter.source (hs.held f hf).2
  · rw [htickets]
    exact hs.once
  · rw [htickets]
    exact hs.ticket
  · rw [htickets]
    exact hs.armed

theorem Faithful.respond {s : State} (hs : Faithful s) {f : Fetched} {source : ProcessT}
    (hreading : s.reading = some (f, source)) : Faithful (s.respond f source) := by
  have hheld : s.held = s.batch ++ [f] := by
    rw [State.held, hreading]
    rfl
  obtain ⟨hlt, hfilter⟩ := hs.held f (by rw [hheld]; exact List.mem_concat_self)
  have hkey : (s.call f.call).wait.key = (source, (s.epoll.filters f.ptr).session) := by
    rw [hfilter, hs.source f source hreading]
    rfl
  have hperm : s.tickets.Perm (s.respond f source).tickets := by
    simp only [State.tickets, State.held, State.respond, hreading, Option.map_some, Option.map_none,
      Option.toList_some, Option.toList_none, List.append_nil, List.map_append, List.map_cons,
      List.map_nil, List.append_assoc]
    exact List.Perm.append_left _ List.perm_append_comm
  refine { hs with held := ?_, source := nofun, sent := ?_, mail := ?_, once := ?_, ticket := ?_,
                   armed := ?_ }
  · intro f' hf'
    refine hs.held f' ?_
    rw [hheld]
    exact List.mem_append_left _ (by simpa [State.held, State.respond] using hf')
  · intro r hr
    obtain hold | rfl := List.mem_append.mp hr |>.imp_right List.mem_singleton.mp
    · exact hs.sent r hold
    · exact ⟨hlt, hkey⟩
  · intro r hr
    obtain hold | rfl := List.mem_append.mp hr |>.imp_right List.mem_singleton.mp
    · exact List.mem_append_left _ (hs.mail r hold)
    · exact List.mem_concat_self
  · exact hperm.nodup_iff.mp hs.once
  · exact fun i hi => hs.ticket i (hperm.mem_iff.mpr hi)
  · exact fun event fd harmed => ⟨fun hi => (hs.armed event fd harmed).1 (hperm.mem_iff.mpr hi),
      (hs.armed event fd harmed).2⟩

/-- Fetching disarms the registrations fetched and leaves the others alone. -/
theorem State.fetch_interest (s : State) {event event' : Event} {fds : List Descriptor}
    {fd : Descriptor} {entry : Interest}
    (hinterest : (s.fetch event fds).epoll.interest event' fd = some entry) :
    ∃ old, s.epoll.interest event' fd = some old ∧ entry.ptr = old.ptr
      ∧ (entry.armed = true → old.armed = true ∧ ¬ (event' = event ∧ fd ∈ fds)) := by
  simp only [State.fetch] at hinterest
  split_ifs at hinterest with hfetched
  · obtain ⟨old, hold, rfl⟩ := Option.map_eq_some_iff.mp hinterest
    exact ⟨old, hold, rfl, nofun⟩
  · exact ⟨entry, hinterest, rfl, fun harmed => ⟨harmed, hfetched⟩⟩

theorem State.mem_fetch (s : State) {event : Event} {fds : List Descriptor} {f : Fetched}
    (hf : f ∈ (s.fetch event fds).batch) :
    ∃ fd ∈ fds, ∃ entry, s.epoll.interest event fd = some entry
      ∧ f = ⟨entry.ptr, s.registrant event fd⟩ := by
  obtain ⟨fd, hfd, hsome⟩ := List.mem_filterMap.mp hf
  obtain ⟨entry, hentry, rfl⟩ := Option.map_eq_some_iff.mp hsome
  exact ⟨fd, hfd, entry, hentry, rfl⟩

/-- Registrations of different descriptors or directions are of different calls. -/
theorem Faithful.registrant_inj {s : State} (hs : Faithful s) {event event' : Event}
    {fd fd' : Descriptor} {entry entry' : Interest}
    (hinterest : s.epoll.interest event fd = some entry)
    (hinterest' : s.epoll.interest event' fd' = some entry')
    (heq : s.registrant event fd = s.registrant event' fd') : fd = fd' ∧ event = event' := by
  have hptr := (hs.entry event fd entry hinterest).registrant_ptr
  rw [heq, (hs.entry event' fd' entry' hinterest').registrant_ptr] at hptr
  obtain ⟨rfl, rfl⟩ := selectFilter_inj.mp hptr
  exact ⟨rfl, rfl⟩

theorem Faithful.fetch_nodup {s : State} (hs : Faithful s) {event : Event} {fds : List Descriptor}
    (hnodup : fds.Nodup) : ((s.fetch event fds).batch.map Fetched.call).Nodup := by
  simp only [State.fetch, List.map_filterMap, Option.map_map]
  refine hnodup.filterMap fun fd fd' call hcall hcall' => ?_
  obtain ⟨entry, hentry, rfl⟩ := Option.map_eq_some_iff.mp hcall
  obtain ⟨entry', hentry', heq⟩ := Option.map_eq_some_iff.mp hcall'
  exact (hs.registrant_inj hentry hentry' heq.symm).1

theorem Faithful.fetch {s : State} (hs : Faithful s) {event : Event} {fds : List Descriptor}
    (hnodup : fds.Nodup) (harmed : ∀ fd ∈ fds, s.Armed event fd) (hbatch : s.batch = [])
    (hreading : s.reading = none) : Faithful (s.fetch event fds) := by
  have hheld : (s.fetch event fds).held = (s.fetch event fds).batch := by
    simp [State.held, State.fetch, hreading]
  have htickets : s.tickets = s.mail.map Response.call := by
    simp [State.tickets, State.held, hbatch, hreading]
  have htickets' : (s.fetch event fds).tickets
      = (s.fetch event fds).batch.map Fetched.call ++ s.tickets := by
    rw [State.tickets, hheld, htickets]
    rfl
  have hfetched : ∀ i ∈ (s.fetch event fds).batch.map Fetched.call,
      ∃ fd ∈ fds, s.registrant event fd = i := by
    intro i hi
    obtain ⟨f, hf, rfl⟩ := List.mem_map.mp hi
    obtain ⟨fd, hfd, entry, hentry, rfl⟩ := s.mem_fetch hf
    exact ⟨fd, hfd, rfl⟩
  refine { hs with entry := ?_, held := ?_, source := ?_, once := ?_, ticket := ?_, armed := ?_ }
  · intro event' fd entry hinterest
    obtain ⟨old, hold, hptr, -⟩ := s.fetch_interest hinterest
    rw [hptr]
    exact hs.entry event' fd old hold
  · rw [hheld]
    intro f hf
    obtain ⟨fd, hfd, entry, hentry, rfl⟩ := s.mem_fetch hf
    have hregistered := hs.entry event fd entry hentry
    exact ⟨hs.lt_created hregistered.active, hregistered.filter_eq⟩
  · intro f source hread
    rw [show (s.fetch event fds).reading = none from hreading] at hread
    cases hread
  · rw [htickets']
    refine List.nodup_append.mpr ⟨hs.fetch_nodup hnodup, hs.once, fun i hi j hj => ?_⟩
    rintro rfl
    obtain ⟨fd, hfd, rfl⟩ := hfetched i hi
    exact (hs.armed event fd (harmed fd hfd)).1 hj
  · rw [htickets']
    intro i hi
    obtain hnew | hold := List.mem_append.mp hi
    · obtain ⟨fd, hfd, rfl⟩ := hfetched i hnew
      exact (hs.armed event fd (harmed fd hfd)).2
    · exact hs.ticket i hold
  · rintro event' fd ⟨entry, hinterest, hentry⟩
    obtain ⟨old, hold, -, hsame⟩ := s.fetch_interest hinterest
    obtain ⟨holdArmed, hnot⟩ := hsame hentry
    obtain ⟨hticket, hawaits⟩ := hs.armed event' fd ⟨old, hold, holdArmed⟩
    refine ⟨?_, hawaits⟩
    rw [htickets']
    intro hi
    obtain hnew | hmail := List.mem_append.mp hi
    · obtain ⟨fd', hfd', heq⟩ := hfetched _ hnew
      obtain ⟨entry', hentry', -⟩ := harmed fd' hfd'
      obtain ⟨rfl, rfl⟩ := hs.registrant_inj hentry' hold heq
      exact hnot ⟨rfl, hfd'⟩
    · exact hticket hmail

/-! ### Runs -/

/-- A call writes to its filter only when the poll thread holds no event that points to it. -/
def Label.Orderly (s : State) : Label → Prop
  | .tau => True
  | .write i => ∀ f ∈ s.held, f.ptr ≠ (s.call i).ptr

def orderly : System State Label := system.restrict fun s label => label.Orderly s

theorem Step.faithful {s s' : State} {label : Label} (hstep : Step s label s') (hs : Faithful s)
    (horderly : label.Orderly s) : Faithful s' := by
  cases hstep with
  | start wait _ hnew hslot => exact hs.start hnew hslot
  | writeSource i hphase => exact hs.writeSource hphase horderly
  | writeSession i hphase => exact hs.writeSession hphase horderly
  | add i fails hphase => exact hs.add fails hphase
  | leave i hphase => exact hs.leave hphase
  | close fd => exact hs.close fd
  | deliver r before after i hmail hrunning hphase hkey =>
      exact hs.deliver hmail hrunning hphase hkey
  | drop r before after hmail _ => exact (hs.forget hmail).1
  | exit pid => exact hs.exit pid
  | interrupt i hphase hexiting => exact hs.interrupt hphase hexiting
  | fetch event fds hnodup harmed hbatch hreading => exact hs.fetch hnodup harmed hbatch hreading
  | readSource rest f hbatch hreading => exact hs.readSource hbatch hreading
  | respond f source hreading => exact hs.respond hreading

theorem faithful_of_reachable {s : State} (hs : orderly.Reachable s) : Faithful s := by
  refine hs.invariant ?_ ?_
  · rintro s rfl
    exact faithful_fresh
  · intro s label s' _ hs ⟨hstep, horderly⟩
    exact hstep.faithful hs horderly

/-- **Readiness.** In a run in which no call writes to a filter that the poll thread holds an event
for, every response carries the process and session of the call whose registration produced its
event, and every call that returns does so on an event of its own registration. -/
theorem answered_own_event {s : State} (hs : orderly.Reachable s) :
    (∀ r ∈ s.sent, (s.call r.call).wait.key = (r.pid, r.session))
      ∧ ∀ p ∈ s.returned, p.1 = p.2 := by
  have hfaithful := faithful_of_reachable hs
  exact ⟨fun r hr => (hfaithful.sent r hr).2, hfaithful.returned⟩

/-- One call waits for its event and returns. -/
theorem answered_own_event_one_call :
    ∃ s : State, s.sent = [⟨1, 7, 0⟩] ∧ s.returned = [(0, 0)]
      ∧ (s.call 0).wait.key = (1, 7) := by
  have hfresh : orderly.Reachable State.fresh := .of_init rfl
  have h1 := hfresh.step ⟨Step.start ⟨1, 7, 5, .kWrite⟩ (by decide) nofun nofun, trivial⟩
  have h2 := h1.step ⟨Step.writeSource 0 rfl, nofun⟩
  have h3 := h2.step ⟨Step.writeSession 0 rfl, nofun⟩
  have h4 := h3.step ⟨Step.add 0 false rfl, trivial⟩
  have h5 := h4.step ⟨Step.fetch .kWrite [5] (List.nodup_singleton _) (fun fd hfd => by
    rw [List.mem_singleton.mp hfd]
    exact ⟨_, rfl, rfl⟩) rfl rfl, trivial⟩
  have h6 := h5.step ⟨Step.readSource [] _ rfl rfl, trivial⟩
  have h7 := h6.step ⟨Step.respond _ _ rfl, trivial⟩
  have h8 := h7.step ⟨Step.deliver _ [] [] 0 rfl rfl rfl rfl, trivial⟩
  exact ⟨_, rfl, rfl, (answered_own_event h8).1 ⟨1, 7, 0⟩ (List.mem_singleton_self _)⟩

/-- The event of a call of process `1` is fetched; the process exits, its call is interrupted and the
descriptor closed; process `2` opens the same number and waits; then the event is answered. Process
`2` is told that its descriptor is ready. -/
theorem answered_other_event :
    ∃ s : State, system.Reachable s ∧ s.sent = [⟨2, 9, 0⟩] ∧ (s.call 0).wait.key = (1, 7)
      ∧ s.returned = [(1, 0)] ∧ (s.call 1).wait.key = (2, 9) := by
  have hfresh : system.Reachable State.fresh := .of_init rfl
  have h1 := hfresh.step (Step.start ⟨1, 7, 5, .kWrite⟩ (by decide) nofun nofun)
  have h2 := h1.step (Step.writeSource 0 rfl)
  have h3 := h2.step (Step.writeSession 0 rfl)
  have h4 := h3.step (Step.add 0 false rfl)
  have h5 := h4.step (Step.fetch .kWrite [5] (List.nodup_singleton _) (fun fd hfd => by
    rw [List.mem_singleton.mp hfd]
    exact ⟨_, rfl, rfl⟩) rfl rfl)
  have h6 := h5.step (Step.exit 1)
  have h7 := h6.step (Step.interrupt 0 rfl rfl)
  have h8 := h7.step (Step.leave 0 rfl)
  have h9 := h8.step (Step.close 5)
  have h10 := h9.step (Step.start ⟨2, 9, 5, .kWrite⟩ (by decide)
    (fun | 0, hi => False.elim hi | _ + 1, hi => False.elim hi)
    (fun | 0, hi => False.elim hi | _ + 1, hi => False.elim hi))
  have h11 := h10.step (Step.writeSource 1 rfl)
  have h12 := h11.step (Step.writeSession 1 rfl)
  have h13 := h12.step (Step.add 1 false rfl)
  have h14 := h13.step (Step.readSource [] _ rfl rfl)
  have h15 := h14.step (Step.respond _ _ rfl)
  have h16 := h15.step (Step.deliver _ [] [] 1 rfl rfl rfl rfl)
  exact ⟨_, h16, rfl, rfl, rfl, rfl⟩

end Stp.Fd.Poll
