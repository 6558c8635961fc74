import Stp.Fd.Readiness
import Stp.Library.Runs

/-!
# Every wait returns

While a call of `fd::wait` blocks, its registration is with the kernel, and is armed as long as its
event has not been fetched; from then on the poll thread holds the event, or the response is in the
mail. Only closing the descriptor takes the registration away under the call, and then no event comes
for it any more. If nobody does, the poll thread goes on with what it holds and the kernel reports
the descriptor at some time, then the call returns.
-/

namespace Stp.Fd.Poll

open Transition

variable {s s' : State} {i : Nat} {label : Label}

/-! ### A call that blocks -/

/-- The registration of the call. -/
def State.registration (s : State) (i : Nat) : Option Interest :=
  s.epoll.interest (s.call i).wait.event (s.call i).wait.fd

/-- The call whose registration is in the place of the one of the call. -/
def State.holder (s : State) (i : Nat) : Nat :=
  s.registrant (s.call i).wait.event (s.call i).wait.fd

theorem State.setPhase_call_of_ne (s : State) {i j : Nat} (phase : Phase) (hne : i ≠ j) :
    (s.setPhase j phase).call i = s.call i :=
  Function.update_of_ne hne _ _

theorem State.ne_of_phase {j : Nat} {phase : Phase} (hwaiting : (s.call i).phase = .waiting)
    (hphase : (s.call j).phase = phase) (hne : phase ≠ .waiting) : i ≠ j := by
  rintro rfl
  exact hne (hphase.symm.trans hwaiting)

theorem Faithful.slot_ne (hs : Faithful s) {j : Nat} (hi : (s.call i).phase.Active)
    (hj : (s.call j).phase.Active) (hne : i ≠ j) :
    ¬((s.call i).wait.event = (s.call j).wait.event ∧ (s.call i).wait.fd = (s.call j).wait.fd) := by
  rintro ⟨hevent, hfd⟩
  refine hne (hs.ptr_inj i j hi hj ?_)
  rw [Call.ptr, Call.ptr, hevent, hfd]

/-- What an `EPOLL_CTL_ADD` that does not fail leaves. -/
def State.register (s : State) (i : Nat) : State :=
  { s.setPhase i .waiting with
    epoll := { s.epoll with
      interest := s.epoll.interest.set (s.call i).wait.event (s.call i).wait.fd
        (some ⟨(s.call i).ptr, true⟩) }
    registrant := s.registrant.set (s.call i).wait.event (s.call i).wait.fd i }

theorem State.add_eq (s : State) (i : Nat) (fails : Bool) :
    s.add i fails = s.setPhase i .done ∨ s.add i fails = s.register i := by
  by_cases hthrown : (s.epoll.interest (s.call i).wait.event (s.call i).wait.fd).isSome
      ∨ fails = true
  · have hadd : s.epoll.add (s.call i).wait.event (s.call i).wait.fd (s.call i).ptr fails = none :=
      if_pos hthrown
    simp only [State.add, hadd, true_or]
  · have hadd : s.epoll.add (s.call i).wait.event (s.call i).wait.fd (s.call i).ptr fails = some _ :=
      if_neg hthrown
    simp only [State.add, hadd, State.register, or_true]

/-- What a step does to the call: nothing, or it begins to block, it returns or its process has it
return, or it does not block. -/
inductive Moved (s s' : State) (i : Nat) : Prop
  | same (hcall : s'.call i = s.call i)
  | blocks (hphase : (s.call i).phase = .named) (hregistered : s' = s.register i)
  | returns (call : Nat) (hafter : (s'.call i).phase = .leaving)
      (hreturned : s'.returned = s.returned ++ [(i, call)])
  | interrupted (hexiting : s.exiting (s.call i).wait.pid = true)
      (hafter : (s'.call i).phase = .leaving)
  | elsewhere (hbefore : (s.call i).phase ≠ .waiting) (hafter : (s'.call i).phase ≠ .waiting)

theorem State.setPhase_self (s : State) (i : Nat) (phase : Phase) :
    ((s.setPhase i phase).call i).phase = phase := by
  rw [s.setPhase_phase, if_pos rfl]

theorem Moved.of_setPhase {j : Nat} {phase phase' : Phase} (hbefore : (s.call j).phase = phase)
    (hcall : s'.call = (s.setPhase j phase').call) (hne : phase ≠ .waiting)
    (hne' : phase' ≠ .waiting) : Moved s s' i := by
  by_cases hij : i = j
  · subst hij
    refine .elsewhere (hbefore ▸ hne) ?_
    rw [hcall, State.setPhase_self]
    exact hne'
  · refine .same ?_
    rw [hcall]
    exact s.setPhase_call_of_ne _ hij

theorem Step.moved (hstep : Step s label s') (hs : Faithful s) (i : Nat) : Moved s s' i := by
  cases hstep with
  | start wait =>
      by_cases hi : i = s.created
      · subst hi
        refine .elsewhere (by simp [hs.idle s.created le_rfl]) ?_
        simp only [State.start, Function.update_self]
        exact nofun
      · exact .same (Function.update_of_ne hi _ _)
  | writeSource j hphase | writeSession j hphase => exact .of_setPhase hphase rfl nofun nofun
  | add j fails hphase =>
      obtain hadd | hadd := s.add_eq j fails <;> rw [hadd]
      · exact .of_setPhase hphase rfl nofun nofun
      · by_cases hij : i = j
        · exact .blocks (hij ▸ hphase) (hij ▸ rfl)
        · exact .same (s.setPhase_call_of_ne _ hij)
  | leave j hphase => exact .of_setPhase hphase rfl nofun nofun
  | deliver r before after j =>
      by_cases hij : i = j
      · exact .returns r.call (hij ▸ s.setPhase_self i _) (by rw [hij])
      · exact .same (s.setPhase_call_of_ne _ hij)
  | interrupt j hphase hexiting =>
      by_cases hij : i = j
      · exact .interrupted (hij ▸ hexiting) (hij ▸ s.setPhase_self i _)
      · exact .same (s.setPhase_call_of_ne _ hij)
  | close | drop | exit | fetch | readSource | respond => exact .same rfl

/-! ### Events and responses on the way -/

theorem State.mem_tickets : i ∈ s.tickets ↔ (∃ f ∈ s.held, f.call = i) ∨ ∃ r ∈ s.mail, r.call = i := by
  rw [State.tickets, List.mem_append, List.mem_map, List.mem_map]

theorem State.tickets_respond {f : Fetched} {source : ProcessT}
    (hreading : s.reading = some (f, source)) : s.tickets.Perm (s.respond f source).tickets := by
  simp only [State.tickets, State.held, State.respond, hreading, Option.map_some, Option.map_none,
    Option.toList_some, Option.toList_none, List.append_nil, List.map_append, List.map_cons,
    List.map_nil, List.append_assoc]
  exact List.Perm.append_left _ List.perm_append_comm

theorem State.tickets_readSource {rest : List Fetched} {f : Fetched}
    (hbatch : s.batch = rest ++ [f]) (hreading : s.reading = none) :
    (s.readSource rest f).tickets = s.tickets := by
  simp only [State.tickets, State.held, State.readSource, hbatch, hreading, Option.map_some,
    Option.map_none, Option.toList_some, Option.toList_none, List.append_nil]

/-- The response to a call that blocks is not dropped. -/
theorem Faithful.ne_of_drop (hs : Faithful s) {r : Response} (hr : r ∈ s.mail)
    (hnone : ∀ i, (s.call i).phase = .waiting → (s.call i).wait.key ≠ (r.pid, r.session))
    (hwaiting : (s.call i).phase = .waiting) : i ≠ r.call := by
  rintro rfl
  exact hnone _ hwaiting (hs.sent r (hs.mail r hr)).2

theorem Step.mailed (hstep : Step s label s') (hs : Faithful s)
    (hbefore : (s.call i).phase = .waiting) (hafter : (s'.call i).phase = .waiting)
    (hmailed : ∃ r ∈ s.mail, r.call = i) : ∃ r ∈ s'.mail, r.call = i := by
  have hkept : ∀ {r : Response} {before after : List Response}, s.mail = before ++ r :: after →
      i ≠ r.call → ∃ r ∈ before ++ after, r.call = i := by
    intro r before after hmail hne
    obtain ⟨r', hr', rfl⟩ := hmailed
    rw [hmail, List.mem_append, List.mem_cons] at hr'
    refine ⟨r', List.mem_append.mpr (hr'.imp_right fun h => h.resolve_left ?_), rfl⟩
    rintro rfl
    exact hne rfl
  cases hstep with
  | add j fails =>
      obtain hadd | hadd := s.add_eq j fails <;> rw [hadd] <;> exact hmailed
  | deliver r before after j hmail hrunning hphase hkey =>
      refine hkept hmail ?_
      rintro rfl
      rw [hs.recipient hmail hrunning hphase hkey] at hafter
      cases (s.setPhase_self _ _).symm.trans hafter
  | drop r before after hmail hnone =>
      have hr : r ∈ s.mail := hmail ▸ List.mem_append_right _ List.mem_cons_self
      exact hkept hmail (hs.ne_of_drop hr hnone hbefore)
  | respond f source hreading =>
      obtain ⟨r, hr, hcall⟩ := hmailed
      exact ⟨r, List.mem_append_left _ hr, hcall⟩
  | _ => exact hmailed

/-- Events and responses are not lost. -/
theorem Step.ticket (hstep : Step s label s') (hs : Faithful s)
    (hbefore : (s.call i).phase = .waiting) (hafter : (s'.call i).phase = .waiting)
    (hticket : i ∈ s.tickets) : i ∈ s'.tickets := by
  obtain hheld | hmailed := State.mem_tickets.mp hticket
  · cases hstep with
    | add j fails =>
        obtain hadd | hadd := s.add_eq j fails <;> rw [hadd] <;> exact hticket
    | deliver | drop => exact State.mem_tickets.mpr (Or.inl hheld)
    | fetch event fds hnodup harmed hbatch hreading =>
        obtain ⟨f, hf, -⟩ := hheld
        simp [State.held, hbatch, hreading] at hf
    | readSource rest f hbatch hreading =>
        rw [State.tickets_readSource hbatch hreading]
        exact hticket
    | respond f source hreading => exact (State.tickets_respond hreading).mem_iff.mp hticket
    | _ => exact hticket
  · exact State.mem_tickets.mpr (Or.inr (hstep.mailed hs hbefore hafter hmailed))

/-! ### A registration -/

/-- The call has its registration, and the event is still to come or on its way. -/
structure State.Tended (s : State) (i : Nat) : Prop where
  holder : s.holder i = i
  registered : ∃ entry, s.registration i = some entry ∧ (entry.armed = true ∨ i ∈ s.tickets)

theorem State.Tended.congr (htended : s.Tended i) (hcall : s'.call i = s.call i)
    (hinterest : s'.epoll.interest (s.call i).wait.event (s.call i).wait.fd
      = s.epoll.interest (s.call i).wait.event (s.call i).wait.fd)
    (hregistrant : s'.registrant (s.call i).wait.event (s.call i).wait.fd
      = s.registrant (s.call i).wait.event (s.call i).wait.fd)
    (hticket : i ∈ s.tickets → i ∈ s'.tickets) : s'.Tended i := by
  obtain ⟨hholder, entry, hentry, harmed⟩ := htended
  refine ⟨?_, entry, ?_, harmed.imp_right hticket⟩
  · rw [State.holder, hcall, hregistrant]
    exact hholder
  · rw [State.registration, hcall, hinterest]
    exact hentry

theorem State.mem_tickets_fetch {event : Event} {fds : List Descriptor} {fd : Descriptor}
    {entry : Interest} (hfd : fd ∈ fds) (hentry : s.epoll.interest event fd = some entry) :
    s.registrant event fd ∈ (s.fetch event fds).tickets := by
  refine State.mem_tickets.mpr (Or.inl ⟨⟨entry.ptr, s.registrant event fd⟩, ?_, rfl⟩)
  refine List.mem_append_left _ (List.mem_filterMap.mpr ⟨fd, hfd, ?_⟩)
  rw [hentry]
  rfl

/-- What a call that blocks needs is kept by every step that does not close its descriptor. -/
theorem Step.tended (hstep : Step s label s') (hs : Faithful s)
    (hopen : s' ≠ s.close (s.call i).wait.fd) (hbefore : (s.call i).phase = .waiting)
    (hcall : s'.call i = s.call i) (htended : s.Tended i) : s'.Tended i := by
  have hafter : (s'.call i).phase = .waiting := hcall ▸ hbefore
  have hactive : ∀ {j : Nat} {phase : Phase}, (s.call j).phase = phase → phase ≠ .done →
      (s.call j).phase.Active := by
    rintro j phase rfl hne
    generalize (s.call j).phase = phase at hne ⊢
    cases phase with
    | done => exact hne rfl
    | _ => trivial
  have hticket := hstep.ticket hs hbefore hafter
  cases hstep with
  | add j fails hphase =>
      have hne := State.ne_of_phase hbefore hphase nofun
      have hslot := hs.slot_ne (hactive hbefore nofun) (hactive hphase nofun) hne
      obtain hadd | hadd := s.add_eq j fails
      · rw [hadd] at hcall hticket ⊢
        exact htended.congr hcall rfl rfl hticket
      · rw [hadd] at hcall hticket ⊢
        exact htended.congr hcall (Table.set_of_ne _ _ hslot) (Table.set_of_ne _ _ hslot) hticket
  | leave j hphase =>
      have hne := State.ne_of_phase hbefore hphase nofun
      have hslot := hs.slot_ne (hactive hbefore nofun) (hactive hphase nofun) hne
      exact htended.congr hcall (Table.set_of_ne _ _ hslot) rfl hticket
  | close fd =>
      have hne : (s.call i).wait.fd ≠ fd := by
        rintro rfl
        exact hopen rfl
      refine htended.congr hcall ?_ rfl hticket
      exact (Table.set_of_ne _ _ fun h => hne h.2).trans (Table.set_of_ne _ _ fun h => hne h.2)
  | fetch event fds hnodup harmed hbatch hreading =>
      obtain ⟨hholder, entry, hentry, hwhere⟩ := htended
      by_cases hfetched : (s.call i).wait.event = event ∧ (s.call i).wait.fd ∈ fds
      · obtain ⟨rfl, hfd⟩ := hfetched
        have hmem := State.mem_tickets_fetch hfd hentry
        rw [show s.registrant _ _ = i from hholder] at hmem
        refine ⟨hholder, { entry with armed := false }, ?_, Or.inr hmem⟩
        refine (if_pos ⟨rfl, hfd⟩).trans ?_
        exact congrArg (Option.map fun entry => { entry with armed := false }) hentry
      · exact State.Tended.congr ⟨hholder, entry, hentry, hwhere⟩ rfl (if_neg hfetched) rfl hticket
  | _ => exact htended.congr hcall rfl rfl hticket

/-- No step closes the descriptor that the call waits on. -/
def tended (i : Nat) : System State Label where
  init := orderly.init
  step s label s' := orderly.step s label s'
    ∧ ((s.call i).phase = .waiting → s' ≠ s.close (s.call i).wait.fd)

theorem orderly_of_tended (hs : (tended i).Reachable s) : orderly.Reachable s := by
  refine System.Reachable.invariant (P := orderly.Reachable) ?_ ?_ hs
  · exact fun s hinit => .of_init hinit
  · exact fun s label s' _ hs hstep => hs.step hstep.1

theorem State.register_tended (s : State) (i : Nat) : (s.register i).Tended i := by
  refine ⟨?_, ⟨(s.call i).ptr, true⟩, ?_, Or.inl rfl⟩
  · simp only [State.holder, State.register, State.setPhase_wait, Table.set_self]
  · simp only [State.registration, State.register, State.setPhase_wait, Table.set_self]

theorem tended_of_reachable (hs : (tended i).Reachable s) :
    (s.call i).phase = .waiting → s.Tended i := by
  refine System.Reachable.invariant (P := fun s => (s.call i).phase = .waiting → s.Tended i) ?_ ?_ hs
  · rintro s rfl
    exact nofun
  · intro s label s' hreach htended hstep hafter
    obtain ⟨⟨hstep, -⟩, hopen⟩ := hstep
    have hfaithful := faithful_of_reachable (orderly_of_tended hreach)
    cases hstep.moved hfaithful i with
    | same hcall =>
        have hbefore : (s.call i).phase = .waiting := hcall ▸ hafter
        exact hstep.tended hfaithful (hopen hbefore) hbefore hcall (htended hbefore)
    | blocks _ hregistered => exact hregistered ▸ s.register_tended i
    | returns _ hleaving | interrupted _ hleaving => cases hleaving.symm.trans hafter
    | elsewhere _ hnot => exact absurd hafter hnot

/-- **No wait is lost.** As long as nobody closes the descriptor that a call waits on, the kernel has
the registration of the call while it blocks, and its filter names the call. The registration is
armed until the event is fetched, and from then on the event or its response is on the way, once. -/
theorem no_wait_is_lost (hs : (tended i).Reachable s) (hwaiting : (s.call i).phase = .waiting) :
    ∃ entry, s.epoll.interest (s.call i).wait.event (s.call i).wait.fd = some entry
      ∧ s.epoll.filters entry.ptr = (s.call i).names
      ∧ s.tickets.count i = if entry.armed then 0 else 1 := by
  have hfaithful := faithful_of_reachable (orderly_of_tended hs)
  obtain ⟨hholder, entry, hentry, hwhere⟩ := tended_of_reachable hs hwaiting
  rw [State.holder] at hholder
  have hregistered := hfaithful.entry _ _ entry hentry
  rw [hholder] at hregistered
  refine ⟨entry, hentry, hregistered.filter_eq, ?_⟩
  split_ifs with harmed
  · refine List.count_eq_zero.mpr fun hticket => ?_
    exact (hfaithful.armed _ _ ⟨entry, hentry, harmed⟩).1 (hholder.symm ▸ hticket)
  · exact List.count_eq_one_of_mem hfaithful.once (hwhere.resolve_left harmed)

/-- A write that waits for its descriptor. -/
theorem no_wait_is_lost_one : ∃ s : State, (tended 0).Reachable s ∧ (s.call 0).phase = .waiting
    ∧ ∃ entry, s.epoll.interest .kWrite 5 = some entry ∧ s.epoll.filters entry.ptr = ⟨1, 7⟩
      ∧ s.tickets.count 0 = if entry.armed then 0 else 1 := by
  have hfresh : (tended 0).Reachable State.fresh := .of_init rfl
  have h1 := hfresh.step ⟨⟨Step.start ⟨1, 7, 5, .kWrite⟩ (by decide) nofun nofun, trivial⟩, nofun⟩
  have h2 := h1.step ⟨⟨Step.writeSource 0 rfl, nofun⟩, nofun⟩
  have h3 := h2.step ⟨⟨Step.writeSession 0 rfl, nofun⟩, nofun⟩
  have h4 := h3.step ⟨⟨Step.add 0 false rfl, trivial⟩, nofun⟩
  exact ⟨_, h4, rfl, no_wait_is_lost h4 rfl⟩

/-! ### A descriptor that is closed -/

theorem interest_of_del {epoll : Epoll} {event event' : Event} {fd fd' : Descriptor}
    {entry : Interest} (hentry : (epoll.del event fd).interest event' fd' = some entry) :
    epoll.interest event' fd' = some entry := by
  by_cases hslot : event' = event ∧ fd' = fd
  · obtain ⟨rfl, rfl⟩ := hslot
    simp only [Epoll.del, Table.set_self, reduceCtorEq] at hentry
  · simpa only [Epoll.del, Table.set_of_ne _ _ hslot] using hentry

theorem State.close_interest (s : State) (event : Event) (fd : Descriptor) :
    (s.close fd).epoll.interest event fd = none := by
  cases event <;> simp [State.close, Epoll.del, Table.set]

/-- No registration is of the call, and no event of it is on its way. -/
structure State.Lost (s : State) (i : Nat) : Prop where
  waiting : (s.call i).phase = .waiting
  ticket : i ∉ s.tickets
  registrant : ∀ event fd entry, s.epoll.interest event fd = some entry → s.registrant event fd ≠ i

theorem Step.ticket_of_returns (hstep : Step s label s') (hs : Faithful s) {call : Nat}
    (hreturned : s'.returned = s.returned ++ [(i, call)]) : i ∈ s.tickets := by
  cases hstep with
  | add j fails =>
      obtain hadd | hadd := s.add_eq j fails <;> rw [hadd] at hreturned <;>
        exact absurd hreturned (by simp [State.setPhase, State.register])
  | deliver r before after j hmail hrunning hphase hkey =>
      obtain ⟨rfl, -⟩ := Prod.mk.inj (List.singleton_inj.mp (List.append_cancel_left hreturned))
      have hr : r ∈ s.mail := hmail ▸ List.mem_append_right _ List.mem_cons_self
      exact State.mem_tickets.mpr (Or.inr ⟨r, hr, (hs.recipient hmail hrunning hphase hkey).symm⟩)
  | _ => exact absurd hreturned (by simp [State.start, State.writeSource, State.writeSession,
      State.setPhase, State.setFilter, State.leave, State.close, State.fetch, State.readSource,
      State.respond])

theorem Step.lost (hstep : Step s label s') (hs : Faithful s) (hlost : s.Lost i)
    (hexiting : s.exiting (s.call i).wait.pid = false) : s'.Lost i ∧ s'.call i = s.call i := by
  obtain ⟨hwaiting, hticket, hregistrant⟩ := hlost
  have hcall : s'.call i = s.call i := by
    cases hstep.moved hs i with
    | same hcall => exact hcall
    | blocks hphase => cases hphase.symm.trans hwaiting
    | returns call _ hreturned => exact absurd (hstep.ticket_of_returns hs hreturned) hticket
    | interrupted htrue => cases htrue.symm.trans hexiting
    | elsewhere hnot => exact absurd hwaiting hnot
  have hafter : (s'.call i).phase = .waiting := hcall ▸ hwaiting
  refine ⟨?_, hcall⟩
  cases hstep with
  | add j fails hphase =>
      have hne := State.ne_of_phase hwaiting hphase nofun
      obtain hadd | hadd := s.add_eq j fails <;> rw [hadd] at hafter ⊢
      · exact ⟨hafter, hticket, hregistrant⟩
      · refine ⟨hafter, hticket, fun event fd entry hentry => ?_⟩
        by_cases hslot : event = (s.call j).wait.event ∧ fd = (s.call j).wait.fd
        · obtain ⟨rfl, rfl⟩ := hslot
          simp only [State.register, Table.set_self]
          exact hne.symm
        · simp only [State.register, Table.set_of_ne _ _ hslot] at hentry ⊢
          exact hregistrant event fd entry hentry
  | leave j hphase =>
      refine ⟨hafter, hticket, fun event fd entry hentry => ?_⟩
      exact hregistrant event fd entry (interest_of_del hentry)
  | close fd =>
      refine ⟨hafter, hticket, fun event fd entry hentry => ?_⟩
      exact hregistrant event fd entry (interest_of_del (interest_of_del hentry))
  | deliver r before after j hmail | drop r before after hmail =>
      refine ⟨hafter, fun hmem => hticket ?_, hregistrant⟩
      exact (s.tickets_perm r before after hmail).mem_iff.mpr (List.mem_cons_of_mem _ hmem)
  | fetch event fds hnodup harmed hbatch hreading =>
      refine ⟨hafter, fun hmem => ?_, fun event' fd entry hentry => ?_⟩
      · obtain ⟨f, hf, rfl⟩ | hmail := State.mem_tickets.mp hmem
        · simp only [State.held, State.fetch, hreading, Option.map_none, Option.toList_none,
            List.append_nil] at hf
          obtain ⟨fd, -, entry, hentry, rfl⟩ := s.mem_fetch hf
          exact hregistrant event fd entry hentry rfl
        · exact hticket (State.mem_tickets.mpr (Or.inr hmail))
      · obtain ⟨old, hold, -⟩ := s.fetch_interest hentry
        exact hregistrant event' fd old hold
  | readSource rest f hbatch hreading =>
      exact ⟨hafter, State.tickets_readSource hbatch hreading ▸ hticket, hregistrant⟩
  | respond f source hreading =>
      exact ⟨hafter, fun hmem => hticket ((State.tickets_respond hreading).mem_iff.mpr hmem),
        hregistrant⟩
  | _ => exact ⟨hafter, hticket, hregistrant⟩

theorem Step.exiting (hstep : Step s label s') {pid : ProcessT} (hexiting : s.exiting pid = true) :
    s'.exiting pid = true := by
  cases hstep with
  | add j fails =>
      obtain hadd | hadd := s.add_eq j fails <;> rw [hadd] <;> exact hexiting
  | exit pid' =>
      by_cases hpid : pid = pid'
      · exact hpid ▸ Function.update_self _ _ _
      · exact (Function.update_of_ne hpid _ _).trans hexiting
  | _ => exact hexiting

theorem Faithful.lost_of_close (hs : Faithful s) (hwaiting : (s.call i).phase = .waiting)
    (hticket : i ∉ s.tickets) : (s.close (s.call i).wait.fd).Lost i := by
  refine ⟨hwaiting, hticket, fun event fd entry hentry heq => ?_⟩
  have hptr := ((hs.close (s.call i).wait.fd).entry event fd entry hentry).registrant_ptr
  rw [heq] at hptr
  obtain rfl : (s.call i).wait.fd = fd := (selectFilter_inj.mp hptr).1
  cases hentry.symm.trans (s.close_interest event _)

/-- **A descriptor closed under a wait.** A call whose descriptor is closed before its event has been
fetched does not return any more, unless its process exits. -/
theorem closed_wait_is_lost (hs : orderly.Reachable s) (hwaiting : (s.call i).phase = .waiting)
    (hticket : i ∉ s.tickets) (hleads : orderly.Leads (s.close (s.call i).wait.fd) s') :
    s'.call i = s.call i ∨ s'.exiting (s.call i).wait.pid = true := by
  have hclosed : orderly.Reachable (s.close (s.call i).wait.fd) :=
    hs.step ⟨Step.close _, trivial⟩
  have hkept : orderly.Reachable s'
      ∧ ((s'.Lost i ∧ s'.call i = s.call i) ∨ s'.exiting (s.call i).wait.pid = true) := by
    refine System.Leads.keeps
      (P := fun t => orderly.Reachable t
        ∧ ((t.Lost i ∧ t.call i = s.call i) ∨ t.exiting (s.call i).wait.pid = true)) ?_ hleads
      ⟨hclosed, Or.inl ⟨(faithful_of_reachable hs).lost_of_close hwaiting hticket, rfl⟩⟩
    rintro t label t' ⟨ht, hlost⟩ hstep
    refine ⟨ht.step hstep, ?_⟩
    by_cases hexiting : t.exiting (s.call i).wait.pid = true
    · exact Or.inr (hstep.1.exiting hexiting)
    · obtain ⟨hlost, hcall⟩ := hlost.resolve_right hexiting
      rw [← hcall, Bool.not_eq_true] at hexiting
      obtain ⟨hlost', hcall'⟩ := hstep.1.lost (faithful_of_reachable ht) hlost hexiting
      exact Or.inl ⟨hlost', hcall'.trans hcall⟩
  exact hkept.2.imp_left And.right

/-- The descriptor `5` is closed as soon as the call waits, and another process waits on descriptor
`6`. -/
theorem closed_wait_is_lost_other : ∃ s s' : State, orderly.Reachable s
    ∧ (s.call 0).phase = .waiting ∧ 0 ∉ s.tickets ∧ orderly.Leads (s.close 5) s'
    ∧ (s'.call 1).phase = .called
    ∧ (s'.call 0 = s.call 0 ∨ s'.exiting (s.call 0).wait.pid = true) := by
  have hfresh : orderly.Reachable State.fresh := .of_init rfl
  have h1 := hfresh.step ⟨Step.start ⟨1, 7, 5, .kWrite⟩ (by decide) nofun nofun, trivial⟩
  have h2 := h1.step ⟨Step.writeSource 0 rfl, nofun⟩
  have h3 := h2.step ⟨Step.writeSession 0 rfl, nofun⟩
  have h4 := h3.step ⟨Step.add 0 false rfl, trivial⟩
  have hclosed := h4.step ⟨Step.close 5, trivial⟩
  have hhere : ∀ {s : State}, orderly.Reachable s → orderly.Leads s s := fun _ => .refl
  have hleads := (hhere hclosed).tail ⟨_, Step.start ⟨2, 9, 6, .kWrite⟩ (by decide)
    (fun | 0, _ => by decide | _ + 1, hi => False.elim hi)
    (fun | 0, _ => by decide | _ + 1, hi => False.elim hi), trivial⟩
  exact ⟨_, _, h4, rfl, List.not_mem_nil, hleads, rfl,
    closed_wait_is_lost h4 rfl List.not_mem_nil hleads⟩

/-! ### The poll thread and the process go on -/

/-- What the poll thread has left to do before it waits for events again. -/
def State.load (view : List Fetched × Option (Fetched × ProcessT)) : Nat :=
  2 * view.1.length + view.2.toList.length

def State.view (s : State) : List Fetched × Option (Fetched × ProcessT) := (s.batch, s.reading)

/-- The poll thread takes an event from its batch, or answers the one it has taken. -/
def State.Handles (s s' : State) : Prop :=
  (∃ rest f, s.batch = rest ++ [f] ∧ s.reading = none ∧ s' = s.readSource rest f)
    ∨ ∃ f source, s.reading = some (f, source) ∧ s' = s.respond f source

theorem State.Handles.load (hhandles : s.Handles s') : State.load s'.view < State.load s.view := by
  obtain ⟨rest, f, hbatch, hreading, rfl⟩ | ⟨f, source, hreading, rfl⟩ := hhandles
  · simp [State.load, State.view, State.readSource, hbatch, hreading]
    omega
  · simp [State.load, State.view, State.respond, hreading]

theorem Step.load (hstep : Step s label s') (hheld : s.held ≠ []) :
    s'.view = s.view ∨ State.load s'.view < State.load s.view := by
  cases hstep with
  | add j fails =>
      obtain hadd | hadd := s.add_eq j fails <;> rw [hadd] <;> exact Or.inl rfl
  | fetch event fds hnodup harmed hbatch hreading =>
      refine absurd ?_ hheld
      rw [State.held, hbatch, hreading]
      rfl
  | readSource rest f hbatch hreading =>
      exact Or.inr (State.Handles.load (Or.inl ⟨rest, f, hbatch, hreading, rfl⟩))
  | respond f source hreading => exact Or.inr (State.Handles.load (Or.inr ⟨f, source, hreading, rfl⟩))
  | _ => exact Or.inl rfl

/-- `epoll_wait` reports the descriptor of the call. -/
def State.Reports (i : Nat) (s s' : State) : Prop :=
  ∃ fds, (s.call i).wait.fd ∈ fds ∧ s' = s.fetch (s.call i).wait.event fds

/-- The poll thread waits for events and the registration of the call is armed. -/
def State.Awaited (i : Nat) (s : State) : Prop :=
  s.held = [] ∧ ∃ entry, s.registration i = some entry ∧ entry.armed = true

def State.Returns (i : Nat) (s s' : State) : Prop :=
  ∃ call, s'.returned = s.returned ++ [(i, call)]

/-- The process of the call can take the response. -/
def State.Answered (i : Nat) (s : State) : Prop :=
  (s.call i).phase = .waiting ∧ s.exiting (s.call i).wait.pid = false
    ∧ ∃ r ∈ s.mail, (s.call i).wait.key = (r.pid, r.session)

section Runs

variable {run : Nat → State} {n : Nat}

theorem blocks_of_run (hrun : (tended i).Run run) (hwaiting : ((run n).call i).phase = .waiting)
    (hnever : ∀ k ≥ n, (i, i) ∉ (run k).returned
      ∧ (run k).exiting ((run n).call i).wait.pid = false) {k : Nat} (hk : n ≤ k) :
    (run k).call i = (run n).call i := by
  refine hrun.keeps (P := fun s => s.call i = (run n).call i) ?_ rfl hk
  rintro k hk hcall label ⟨hstep, -⟩
  have hblocks : ((run k).call i).phase = .waiting := hcall ▸ hwaiting
  have hfaithful : ∀ k, Faithful (run k) := fun k =>
    faithful_of_reachable (orderly_of_tended (hrun.reachable k))
  cases hstep.1.moved (hfaithful k) i with
  | same hsame => exact hsame.trans hcall
  | blocks hphase => cases hphase.symm.trans hblocks
  | returns call _ hreturned =>
      have hmem : (i, call) ∈ (run (k + 1)).returned := hreturned ▸ List.mem_concat_self
      obtain rfl : i = call := (hfaithful (k + 1)).returned _ hmem
      exact absurd hmem (hnever (k + 1) (Nat.le_succ_of_le hk)).1
  | interrupted hexiting =>
      rw [hcall] at hexiting
      cases hexiting.symm.trans (hnever k hk).2
  | elsewhere hnot => exact absurd hblocks hnot

theorem idle_of_run (hrun : (tended i).Run run)
    (hpoll : WeaklyFair run (fun s => s.held ≠ []) State.Handles) (n : Nat) :
    ∃ k ≥ n, (run k).held = [] := by
  by_contra hnever
  simp only [not_exists, not_and] at hnever
  obtain ⟨m, hm, hsettled⟩ := settles (fun k => (run k).view) State.load (n := n) fun k hk => by
    obtain hsame | ⟨label, hstep, -⟩ := hrun.next k
    · exact Or.inl (congrArg State.view hsame)
    · exact hstep.1.load (hnever k hk)
  obtain ⟨k, hk, hidle⟩ := hpoll.progress State.view hsettled fun s s' hhandles hsame => by
    have hlt := hhandles.load
    rw [hsame] at hlt
    exact lt_irrefl _ hlt
  exact hidle (hnever k (hm.trans hk))

/-- The event of a call that blocks is fetched. -/
theorem fetched_of_run (hrun : (tended i).Run run)
    (hpoll : WeaklyFair run (fun s => s.held ≠ []) State.Handles)
    (hready : StronglyFair run (State.Awaited i) (State.Reports i))
    (hwaits : ∀ k ≥ n, ((run k).call i).phase = .waiting) : ∃ k ≥ n, i ∈ (run k).tickets := by
  by_contra hnever
  simp only [not_exists, not_and] at hnever
  have htended : ∀ k ≥ n, (run k).Tended i := fun k hk =>
    tended_of_reachable (hrun.reachable k) (hwaits k hk)
  obtain ⟨k, hk, fds, hfd, hfetch⟩ := hready n fun m hm => by
    obtain ⟨k, hk, hidle⟩ := idle_of_run hrun hpoll m
    obtain ⟨-, entry, hentry, hwhere⟩ := htended k (hm.trans hk)
    exact ⟨k, hk, hidle, entry, hentry, hwhere.resolve_right (hnever k (hm.trans hk))⟩
  obtain ⟨hholder, entry, hentry, -⟩ := htended k hk
  have hmem := State.mem_tickets_fetch hfd hentry
  rw [show (run k).registrant _ _ = i from hholder, ← hfetch] at hmem
  exact hnever (k + 1) (Nat.le_succ_of_le hk) hmem

/-- **Every wait returns.** In a run in which the poll thread goes on with the events it holds, a
descriptor that is registered whenever the poll thread waits is reported at some time, and a process
takes a response that is in its mail, a call of `fd::wait` whose descriptor nobody closes returns on
the event of its own registration, unless its process exits. -/
theorem every_wait_returns (hrun : (tended i).Run run)
    (hpoll : WeaklyFair run (fun s => s.held ≠ []) State.Handles)
    (hready : StronglyFair run (State.Awaited i) (State.Reports i))
    (hprocess : WeaklyFair run (State.Answered i) (State.Returns i))
    (hwaiting : ((run n).call i).phase = .waiting) :
    ∃ k ≥ n, (i, i) ∈ (run k).returned ∨ (run k).exiting ((run n).call i).wait.pid = true := by
  by_contra hnever
  simp only [not_exists, not_and, not_or, Bool.not_eq_true] at hnever
  have hfaithful : ∀ k, Faithful (run k) := fun k =>
    faithful_of_reachable (orderly_of_tended (hrun.reachable k))
  have hcall : ∀ k ≥ n, (run k).call i = (run n).call i := fun k hk =>
    blocks_of_run hrun hwaiting hnever hk
  have hwaits : ∀ k ≥ n, ((run k).call i).phase = .waiting := fun k hk => hcall k hk ▸ hwaiting
  -- once the event is fetched, the poll thread has sent the response when it waits again
  obtain ⟨m, hm, hticket⟩ := fetched_of_run hrun hpoll hready hwaits
  obtain ⟨k, hk, hidle⟩ := idle_of_run hrun hpoll m
  have hn : n ≤ k := hm.trans hk
  have hmailed : ∃ r ∈ (run k).mail, r.call = i := by
    have hlater : i ∈ (run k).tickets := by
      refine hrun.keeps (P := fun s => i ∈ s.tickets) ?_ hticket hk
      intro k hk hbefore label hstep
      exact hstep.1.1.ticket (hfaithful k) (hwaits k (hm.trans hk))
        (hwaits (k + 1) (Nat.le_succ_of_le (hm.trans hk))) hbefore
    refine (State.mem_tickets.mp hlater).resolve_left ?_
    rw [hidle]
    simp
  have hanswered : ∀ j ≥ k, State.Answered i (run j) := by
    intro j hj
    obtain ⟨r, hr, rfl⟩ : ∃ r ∈ (run j).mail, r.call = i := by
      refine hrun.keeps (P := fun s => ∃ r ∈ s.mail, r.call = i) ?_ hmailed hj
      intro j hj hbefore label hstep
      exact hstep.1.1.mailed (hfaithful j) (hwaits j (hn.trans hj))
        (hwaits (j + 1) (Nat.le_succ_of_le (hn.trans hj))) hbefore
    refine ⟨hwaits j (hn.trans hj), ?_, r, hr, ((hfaithful j).sent r ((hfaithful j).mail r hr)).2⟩
    rw [hcall j (hn.trans hj)]
    exact (hnever j (hn.trans hj)).2
  obtain ⟨j, hj, call, hreturned⟩ := hprocess k hanswered
  have hmem : (i, call) ∈ (run (j + 1)).returned := hreturned ▸ List.mem_concat_self
  obtain rfl : i = call := (hfaithful (j + 1)).returned _ hmem
  exact (hnever (j + 1) (hn.trans (Nat.le_succ_of_le hj))).1 hmem

end Runs

/-- One wait, for an event that comes at once. -/
theorem every_wait_returns_one : ∃ run : Nat → State, (tended 0).Run run
    ∧ ∃ n, ((run n).call 0).phase = .waiting
      ∧ ∃ k ≥ n, (0, 0) ∈ (run k).returned ∨ (run k).exiting ((run n).call 0).wait.pid = true := by
  have h0 : (tended 0).Leads State.fresh State.fresh := .refl
  have h1 := h0.tail
    ⟨_, ⟨Step.start ⟨1, 7, 5, .kWrite⟩ (by decide) nofun nofun, trivial⟩, nofun⟩
  have h2 := h1.tail ⟨_, ⟨Step.writeSource 0 rfl, nofun⟩, nofun⟩
  have h3 := h2.tail ⟨_, ⟨Step.writeSession 0 rfl, nofun⟩, nofun⟩
  have h4 := h3.tail ⟨_, ⟨Step.add 0 false rfl, trivial⟩, nofun⟩
  have hhere : ∀ {s : State}, (tended 0).Leads State.fresh s → (tended 0).Leads s s := fun _ => .refl
  have g5 := (hhere h4).tail ⟨_, ⟨Step.fetch .kWrite [5] (List.nodup_singleton _) (fun fd hfd => by
    rw [List.mem_singleton.mp hfd]
    exact ⟨_, rfl, rfl⟩) rfl rfl, trivial⟩, fun _ h => List.cons_ne_nil _ _ (congrArg State.batch h)⟩
  have g6 := g5.tail ⟨_, ⟨Step.readSource [] _ rfl rfl, trivial⟩,
    fun _ h => Option.some_ne_none _ (congrArg State.reading h)⟩
  have g7 := g6.tail ⟨_, ⟨Step.respond _ _ rfl, trivial⟩,
    fun _ h => List.cons_ne_nil _ _ (congrArg State.mail h)⟩
  have g8 := g7.tail ⟨_, ⟨Step.deliver _ [] [] 0 rfl rfl rfl rfl, trivial⟩,
    fun _ h => List.cons_ne_nil _ _ (congrArg State.returned h)⟩
  obtain ⟨run, hrun, ⟨n, hn⟩, m, hlast⟩ := System.Leads.exists_run h4 g8 rfl
  have hwaiting : ((run n).call 0).phase = .waiting := by
    rw [hn]
    rfl
  have hpoll : WeaklyFair run (fun s => s.held ≠ []) State.Handles := by
    intro k henabled
    have hheld := henabled (max m k) (le_max_right m k)
    rw [hlast _ (le_max_left m k)] at hheld
    exact absurd rfl hheld
  have hready : StronglyFair run (State.Awaited 0) (State.Reports 0) := by
    intro k henabled
    obtain ⟨j, hj, -, entry, hentry, harmed⟩ := henabled (max m k) (le_max_right m k)
    rw [hlast _ ((le_max_left m k).trans hj)] at hentry
    cases hentry
    cases harmed
  have hprocess : WeaklyFair run (State.Answered 0) (State.Returns 0) := by
    intro k henabled
    obtain ⟨hphase, -⟩ := henabled (max m k) (le_max_right m k)
    rw [hlast _ (le_max_left m k)] at hphase
    cases hphase
  exact ⟨run, hrun, n, hwaiting, every_wait_returns hrun hpoll hready hprocess hwaiting⟩

end Stp.Fd.Poll
