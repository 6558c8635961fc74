import Stp.Serve.Inbox

/-!
# A single server

When no other coroutine is in the loop of `serve()`, nobody but the server takes from the inbox. Then
it does not matter what else is due when the process wakes the server for a message: the message is
still there when the server gets to it, unless the server has been woken by somebody else.
-/

namespace Stp.Serve

open Process

variable {T V : Type*} [DecidableEq T]

/-- One coroutine at a time waits in `serve()` or is about to take from the inbox, nobody but the
process wakes it there unless its wait is going to throw, and no coroutine starts to wait with an
exception in its `Result`. -/
def Label.Clean (s : State T V) : Label V → Prop
  | .call (.wait co _) => (s.process.co co).result.exception = none
  | .await co => (s.process.co co).result.exception = none ∧ ∀ other, s.phase other = .away
  | .proceed _ => ∀ other, s.phase other = .away
  | .wakeup co | .loop (.destructor (some co)) => s.MayWake co
  | _ => True

structure Attended (process : Coroutines.State V) (phase : Nat → Phase) : Prop where
  slots : Coroutines.Slots process
  single : ∀ co other, phase co ≠ .away → phase other ≠ .away → other = co
  waiting : process.pc ≠ .down → ∀ co, phase co = .waiting → co ∈ process.suspendCoroutines
    ∨ (co ∈ process.wakeupCoroutines
      ∧ ((process.co co).result.exception ≠ none ∨ process.inbox ≠ []))
  taking : ∀ co, phase co = .taking → process.inbox ≠ [] ∧ process.pc.current = [co]

section Steps

variable {process process' : Coroutines.State V} {phase : Nat → Phase}
  {label : Coroutines.Label V}

theorem Attended.others (hs : Attended process phase) {co : Nat} (hco : phase co ≠ .away) {x : Nat}
    (hx : x ≠ co) : phase x = .away := by
  by_contra hphase
  exact hx (hs.single co x hco hphase)

/-- No other coroutine is in the loop of `serve()`. -/
theorem attended_update (hslots : Coroutines.Slots process) {co : Nat}
    (hothers : ∀ x, x ≠ co → phase x = .away) {next : Phase}
    (hwaiting : next = .waiting → co ∈ process.suspendCoroutines)
    (htaking : next = .taking → process.inbox ≠ [] ∧ process.pc.current = [co]) :
    Attended process (Function.update phase co next) := by
  have honly : ∀ {x}, Function.update phase co next x ≠ .away → x = co := by
    intro x hx
    by_contra hne
    rw [Function.update_of_ne hne] at hx
    exact hx (hothers x hne)
  refine ⟨hslots, fun x other hx hother => ?_, fun _ x hx => ?_, fun x hx => ?_⟩
  · rw [honly hx, honly hother]
  · obtain rfl := honly (by rw [hx]; nofun)
    rw [Function.update_self] at hx
    exact Or.inl (hwaiting hx)
  · obtain rfl := honly (by rw [hx]; nofun)
    rw [Function.update_self] at hx
    exact htaking hx

theorem Attended.moves (hs : Attended process phase)
    (hstep : Coroutines.Step process label process')
    (hspares : ∀ co, phase co = .waiting → label.Spares co)
    (hinbox : process.inbox ≠ [] → process'.inbox ≠ [])
    (hwaits : ∀ co, phase co = .waiting → co ∈ process.suspendCoroutines →
      co ∈ process'.suspendCoroutines ∨ (co ∈ process'.wakeupCoroutines
        ∧ ((process'.co co).result.exception ≠ none ∨ process'.inbox ≠ [])))
    (htaking : ∀ co, phase co ≠ .taking) : Attended process' phase where
  slots := hstep.slots hs.slots
  single := hs.single
  waiting _ co hphase := by
    obtain hsuspended | ⟨hwoken, hready⟩ := hs.waiting hstep.not_down co hphase
    · exact hwaits co hphase hsuspended
    · refine Or.inr ⟨hstep.woken_stays hwoken (hspares co hphase), ?_⟩
      rw [hstep.exception_kept (hs.slots.once co) (hspares co hphase) (Or.inl hwoken)]
      exact hready.imp_right hinbox
  taking co hphase := absurd hphase (htaking co)

theorem Attended.loop (hs : Attended process phase)
    (hstep : Coroutines.Step process label process') (hloop : process.pc.current = [])
    (hinbox : process.inbox ≠ [] → process'.inbox ≠ [])
    (hwake : ∀ co, label = .destructor (some co) → phase co = .waiting →
      co ∈ process.suspendCoroutines → (process.co co).result.exception ≠ none)
    (hspares : ∀ co, phase co = .waiting → label.Spares co) : Attended process' phase := by
  refine hs.moves hstep hspares hinbox (fun co hphase hsuspended => ?_) fun co hphase => ?_
  · refine (hstep.suspended_stays hsuspended).symm.imp_right fun hwoken => ⟨hwoken, ?_⟩
    obtain hthrows | hlabel | ⟨-, hfilled, -⟩ :=
      hstep.wakes (hs.slots.once_le co) hloop hsuspended hwoken
    · exact Or.inl hthrows
    · exact Or.inl (hlabel.2 ▸ hwake co hlabel.1 hphase hsuspended)
    · exact Or.inr (hinbox hfilled)
  · have hcurrent := (hs.taking co hphase).2
    rw [hloop] at hcurrent
    cases hcurrent

/-- The coroutine that runs does something else than `serve()`. -/
theorem Attended.call (hs : Attended process phase)
    (hstep : Coroutines.Step process label process') {co : Nat} {caller : Coroutines.Caller}
    (hpc : process.pc = .running co caller) (hphase : phase co = .away)
    (hinbox : process'.inbox = process.inbox)
    (hwaits : ∀ x, phase x = .waiting → x ∈ process.suspendCoroutines →
      x ∈ process'.suspendCoroutines
        ∨ (x ∈ process'.wakeupCoroutines ∧ (process'.co x).result.exception ≠ none)) :
    Attended process' phase := by
  refine hs.moves hstep (fun x _ => hstep.running_spares hpc x) (fun h => hinbox ▸ h)
    (fun x hx hsuspended => (hwaits x hx hsuspended).imp_right fun h => ⟨h.1, Or.inl h.2⟩)
    fun x hx => ?_
  have hcurrent := (hs.taking x hx).2
  rw [hpc, Coroutines.Pc.current, List.singleton_inj] at hcurrent
  rw [← hcurrent, hphase] at hx
  cases hx

/-- The wait of a server returns a value: there is a message. -/
theorem Attended.returned (hs : Attended process phase) {co : Nat} {value : Content V}
    (hstep : Coroutines.Step process (.resume co (some (.ok value))) process')
    (hphase : phase co = .waiting) : process.inbox ≠ [] := by
  obtain ⟨houtcome, -, -, hqueued⟩ := hstep.resume_spec
  obtain hsuspended | ⟨-, hthrows | hinbox⟩ := hs.waiting hstep.not_down co hphase
  · have honce := hs.slots.once_le co
    have hcount := List.count_pos_iff.mpr hsuspended
    rw [Coroutines.State.unanswered] at honce
    omega
  · exact absurd (Coroutines.Coroutine.switchTo_ok houtcome.symm).2 hthrows
  · exact hinbox

end Steps

theorem Step.attended {typeid : Content V → T} {s s' : State T V} {label : Label V}
    (hstep : Step typeid s label s') (hclean : label.Clean s)
    (hdown : s.stage ≠ .alive → s.process.pc = .down) (hs : Attended s.process s.phase) :
    Attended s'.process s'.phase := by
  cases hstep with
  | push | exchange | register | handled | destroy | drainMailbox | drained => exact hs
  | loop label process hstep hloop htaking hresume =>
      refine hs.loop hstep hloop (fun h => ?_) (fun co hlabel => ?_) fun co hphase outcome hlabel =>
        hresume co outcome hlabel hphase
      · exact (hstep.loop_inbox hloop htaking).symm ▸ h
      · subst hlabel
        exact hclean
  | take msg hpc htake =>
      refine hs.loop (.take msg hpc) (by rw [hpc]; rfl) (fun h => ?_) (fun _ => nofun)
        fun _ _ _ => nofun
      change (s.process.receive msg).inbox ≠ []
      rw [receive_inbox]
      exact List.append_ne_nil_of_left_ne_nil h _
  | takeNothing hpc htake =>
      exact hs.loop (.takeNothing hpc) (by rw [hpc]; rfl) id (fun _ => nofun) fun _ _ _ => nofun
  | call co caller label process hpc hphase hstep hinbox hserver hwoken =>
      exact hs.call hstep hpc hphase hinbox fun x _ hx => Or.inl (hwoken hx)
  | wakeup co other caller hpc hphase =>
      refine hs.call (.wakeup co other caller hpc) hpc hphase (s.process.wakeup_inbox other).1
        fun x hx hmem => ?_
      by_cases hother : x = other
      · subst hother
        refine Or.inr ⟨Coroutines.State.mem_wakeup_self hmem, ?_⟩
        rw [(s.process.wakeup_eq x).co]
        exact hclean hx hmem
      · exact Or.inl (Coroutines.State.wakeup_spares hother hmem)
  | finish co caller e hpc hphase =>
      refine hs.call (.finish co caller e hpc) hpc hphase
        ((s.process.finish co e).switchBack_inbox co caller).1 fun x _ hx => Or.inl ?_
      change x ∈ ((s.process.finish co e).switchBack co caller).suspendCoroutines
      rw [(s.process.finish_spec co caller e).suspended]
      exact hx
  | await co process hphase hinbox hstep =>
      cases hstep with
      | suspend co caller hpc =>
          have hlook :=
            (Coroutines.Step.awaitInbox (s := s.process) co caller hpc hinbox).slots hs.slots
          have hwait := Coroutines.Step.suspend (s := { s.process with inboxCoroutine := some co }) co
            caller hpc
          have hsuspended := (({ s.process with inboxCoroutine := some co }.suspend co).switchBack_spec
            co caller).suspended
          refine attended_update (hwait.slots hlook) (fun x _ => hclean.2 x) (fun _ => ?_) nofun
          rw [hsuspended]
          exact List.mem_insert_self
  | awaited co value process hphase hstep =>
      have hframe := hstep.resume_frame
      refine attended_update (hstep.slots hs.slots) (fun x => hs.others (by rw [hphase]; nofun)) nofun
        fun _ => ⟨?_, hframe.current⟩
      rw [hframe.inbox]
      exact hs.returned hstep hphase
  | interrupted co e process hphase hstep =>
      exact attended_update (hstep.slots hs.slots) (fun x => hs.others (by rw [hphase]; nofun)) nofun
        nofun
  | proceed co caller hpc hphase hinbox =>
      exact attended_update hs.slots (fun x _ => hclean x) nofun fun _ => ⟨hinbox, by rw [hpc]; rfl⟩
  | handle co caller msg rest hpc hphase hinbox =>
      obtain ⟨hphase', -, hprocess⟩ := s.handle_spec typeid co msg rest
      have htake := (Coroutines.Step.takeInbox co caller msg rest hpc hinbox).slots hs.slots
      rw [hphase']
      refine attended_update ?_ (fun x => hs.others (by rw [hphase]; nofun)) nofun nofun
      obtain hprocess | hprocess := hprocess <;> rw [hprocess]
      · exact htake
      · exact Coroutines.Step.slots (.spawn co caller hpc) htake
  | handleNothing co caller hpc hphase hinbox =>
      exact absurd hinbox (hs.taking co hphase).1
  | drainInbox msg rest hstage hinbox =>
      have hpc := hdown (by rw [hstage]; nofun)
      refine ⟨⟨hs.slots.once, hs.slots.slot, hs.slots.unstarted, hs.slots.unanswered⟩, hs.single,
        fun hup => absurd hpc hup, fun co hphase => ?_⟩
      have hcurrent := (hs.taking co hphase).2
      rw [hpc] at hcurrent
      cases hcurrent

end Stp.Serve
