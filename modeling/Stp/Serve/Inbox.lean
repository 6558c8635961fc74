import Stp.Coroutines.Ownership
import Stp.Coroutines.Queues
import Stp.Serve.Machine

/-!
# What a server finds in the inbox

`serve()` tests the inbox before it suspends itself and not after, and the process wakes the one
coroutine that `_inbox_coroutine` names when the inbox has been filled. A message arrives when nothing
is due, so the server is woken, and resumed, before any other coroutine runs, and finds the message.
This holds as long as no two servers wait at the same time, since the process remembers the last one
only, as long as nobody else wakes a server that waits, and as long as no coroutine gets ahead of the
server because a destructor has spawned or woken it between the loop of `run()` and the mailbox.
-/

namespace Stp.Serve

open Process

variable {T V : Type*} [DecidableEq T]

/-- If the coroutine is suspended in `serve()`, its wait is going to throw. -/
def State.MayWake (s : State T V) (co : Nat) : Prop :=
  s.phase co = .waiting → co ∈ s.process.suspendCoroutines →
    (s.process.co co).result.exception ≠ none

/-- No coroutine starts to wait in `serve()` while another one is suspended there, a coroutine that is
suspended there is woken by `coroutine::wakeup` only if its wait is going to throw, and destructors
that no coroutine calls are quiet. -/
def Label.Alone (s : State T V) : Label V → Prop
  | .await _ => ∀ other, s.phase other = .waiting → other ∉ s.process.suspendCoroutines
  | .wakeup co => s.MayWake co
  | .loop (.destructor woken) =>
    Coroutines.Label.Quiet s.process (.destructor woken) ∧ ∀ co ∈ woken, s.MayWake co
  | _ => True

/-- **The server's inbox.** A coroutine about to take from the inbox finds a message there, and one
that waits for it is remembered by the process or has been woken. -/
structure Served (s : State T V) : Prop where
  taking : ∀ co, s.phase co = .taking → s.process.inbox ≠ []
  waiting : ∀ co, s.phase co = .waiting →
    s.process.inboxCoroutine = some co ∨ co ∈ s.process.wakeupCoroutines

/-- The coroutine has been woken for a message, and nothing else is due. -/
structure Ready (process : Coroutines.State V) (co : Nat) : Prop where
  spawned : process.spawnCoroutines = []
  woken : process.wakeupCoroutines = [co]
  inbox : process.inbox ≠ []
  pc : process.pc = .outer ∨ process.pc = .spawning ∨ process.pc = .waking

structure Watched (process : Coroutines.State V) (phase : Nat → Phase) : Prop where
  slots : Coroutines.Slots process
  turned : Coroutines.Turned process
  drained : process.Drained
  waiting : ∀ co, phase co = .waiting → co ∈ process.wakeupCoroutines
    ∨ (co ∈ process.suspendCoroutines ∧ process.inboxCoroutine = some co)
  ready : ∀ co, phase co = .waiting → co ∈ process.wakeupCoroutines →
    (process.co co).result.exception = none → Ready process co
  taking : ∀ co, phase co = .taking → process.inbox ≠ [] ∧ process.pc.current = [co]

theorem watched_fresh : Watched (Coroutines.State.fresh : Coroutines.State V) fun _ => .away where
  slots := Coroutines.slots_fresh
  turned := Coroutines.turned_fresh
  drained := trivial
  waiting _ hphase := by cases hphase
  ready _ hphase := by cases hphase
  taking _ hphase := by cases hphase

omit [DecidableEq T] in
theorem Label.Alone.quiet {s : State T V} {label : Coroutines.Label V}
    (halone : Label.Alone s (.loop label)) : label.Quiet s.process := by
  cases label with
  | destructor woken => exact halone.1
  | _ => trivial

omit [DecidableEq T] in
theorem Label.Alone.mayWake {s : State T V} {label : Coroutines.Label V} {co : Nat}
    (halone : Label.Alone s (.loop label)) (hlabel : label = .destructor (some co)) :
    s.MayWake co := by
  subst hlabel
  exact halone.2 co rfl

/-- A server that is ready runs before anything else does. -/
theorem Ready.step {process process' : Coroutines.State V} {label : Coroutines.Label V} {co : Nat}
    (hready : Ready process co) (hstep : Coroutines.Step process label process')
    (hspares : label.Spares co) : Ready process' co := by
  obtain ⟨hspawned, hwoken, hinbox, hpc⟩ := hready
  have hbusy : process.Busy := Or.inr (Or.inl (by rw [hwoken]; exact List.cons_ne_nil _ _))
  cases hstep with
  | enter => exact ⟨hspawned, hwoken, hinbox, Or.inr (Or.inl rfl)⟩
  | spawningDone => exact ⟨hspawned, hwoken, hinbox, Or.inr (Or.inr rfl)⟩
  | leave _ hidle => exact absurd hbusy hidle
  | resumeSpawned other rest _ hqueue =>
      rw [hspawned] at hqueue
      cases hqueue
  | resumeWoken other rest _ hqueue =>
      rw [hwoken] at hqueue
      cases hqueue
      exact absurd rfl (hspares _)
  | wakingDone _ hqueue | wakeServer _ _ hqueue =>
      rw [hwoken] at hqueue
      cases hqueue
  | dispatch hpc' | dispatched hpc' | interrupt _ _ hpc' | unwind _ _ hpc' | abandon hpc'
  | sweep hpc' | exited hpc' | takeNothing hpc' | take _ hpc' | spawn _ _ hpc' | wakeup _ _ _ hpc'
  | awaitInbox _ _ hpc' | takeInbox _ _ _ _ hpc' | suspend _ _ hpc' | block _ _ _ hpc'
  | finish _ _ _ hpc' =>
      rw [hpc'] at hpc
      simp at hpc
  | destructorSpawn hpc' | destructorWakeup _ hpc' =>
      obtain hpc' | ⟨exiting, hpc'⟩ := hpc'.cases <;>
      · rw [hpc'] at hpc
        simp at hpc

theorem Ready.idle {process : Coroutines.State V} {co : Nat} (hready : Ready process co) :
    process.pc.current = [] := by
  obtain hpc | hpc | hpc := hready.pc <;> rw [hpc] <;> rfl

/-! ### The steps of the process -/

section Steps

variable {process process' : Coroutines.State V} {phase : Nat → Phase}
  {label : Coroutines.Label V}

theorem Watched.loop (hs : Watched process phase) (hstep : Coroutines.Step process label process')
    (hloop : process.pc.current = []) (hquiet : label.Quiet process)
    (hwake : ∀ co, label = .destructor (some co) → phase co = .waiting →
      co ∈ process.suspendCoroutines → (process.co co).result.exception ≠ none)
    (hspares : ∀ co, phase co = .waiting → label.Spares co) : Watched process' phase where
  slots := hstep.slots hs.slots
  turned := hstep.turned hquiet hs.turned
  drained := hstep.drained hs.drained
  waiting co hphase := by
    obtain hwoken | ⟨hsuspended, hserver⟩ := hs.waiting co hphase
    · exact Or.inl (hstep.woken_stays hwoken (hspares co hphase))
    · obtain hwoken | hstays := hstep.suspended_stays hsuspended
      · exact Or.inl hwoken
      · obtain hsame | ⟨other, hother, hwoken⟩ := hstep.server hloop
        · exact Or.inr ⟨hstays, hsame.trans hserver⟩
        · obtain rfl := Option.some.inj (hother.symm.trans hserver)
          exact Or.inl (hwoken hsuspended)
  ready co hphase hwoken hnone := by
    obtain hwoken' | ⟨hsuspended, hserver⟩ := hs.waiting co hphase
    · rw [hstep.exception_kept (hs.slots.once co) (hspares co hphase) (Or.inl hwoken')] at hnone
      exact (hs.ready co hphase hwoken' hnone).step hstep (hspares co hphase)
    · obtain hthrows | hlabel | ⟨-, hinbox, hpc, hqueue, rfl⟩ :=
        hstep.wakes (hs.slots.once_le co) hloop hsuspended hwoken
      · exact absurd hnone hthrows
      · exact absurd (hlabel.2 ▸ hnone) (hwake co hlabel.1 hphase hsuspended)
      · have hcalm := (hs.turned.server (by rw [hserver]; nofun)).resolve_left hinbox
        obtain ⟨-, -, -, hspawned, -, -⟩ := process.wakeup_eq co
        refine ⟨hspawned.trans hcalm.1, ?_, ?_, Or.inl rfl⟩
        · change (process.wakeup co).wakeupCoroutines = [co]
          rw [Coroutines.State.wakeup, if_pos hsuspended]
          change process.wakeupCoroutines ++ [co] = [co]
          rw [hqueue, List.nil_append]
        · change (process.wakeup co).inbox ≠ []
          rw [(process.wakeup_inbox co).1]
          exact hinbox
  taking co hphase := by
    have hcurrent := (hs.taking co hphase).2
    rw [hloop] at hcurrent
    cases hcurrent

/-- The coroutine that runs does something else than `serve()`. -/
theorem Watched.call (hs : Watched process phase) (hstep : Coroutines.Step process label process')
    {co : Nat} {caller : Coroutines.Caller} (hpc : process.pc = .running co caller)
    (hphase : phase co = .away) (hserver : process'.inboxCoroutine = process.inboxCoroutine)
    (hwoken : ∀ x, phase x = .waiting → x ∈ process.suspendCoroutines →
      x ∈ process'.suspendCoroutines
        ∨ (x ∈ process'.wakeupCoroutines ∧ (process'.co x).result.exception ≠ none)) :
    Watched process' phase := by
  have hspares : ∀ x, label.Spares x := hstep.running_spares hpc
  have hquiet : label.Quiet process :=
    Coroutines.Label.quiet fun _ => hstep.running_not_destructor hpc
  refine ⟨hstep.slots hs.slots, hstep.turned hquiet hs.turned, hstep.drained hs.drained,
    fun x hx => ?_, fun x hx hmem hnone => ?_, fun x hx => ?_⟩
  · obtain hmem | ⟨hsuspended, hrecorded⟩ := hs.waiting x hx
    · exact Or.inl (hstep.woken_stays hmem (hspares x))
    · obtain hstays | ⟨hmem, -⟩ := hwoken x hx hsuspended
      · exact Or.inr ⟨hstays, hserver.trans hrecorded⟩
      · exact Or.inl hmem
  · exfalso
    obtain hmem' | ⟨hsuspended, -⟩ := hs.waiting x hx
    · rw [hstep.exception_kept (hs.slots.once x) (hspares x) (Or.inl hmem')] at hnone
      have hidle := (hs.ready x hx hmem' hnone).idle
      rw [hpc] at hidle
      cases hidle
    · obtain hstays | ⟨-, hthrows⟩ := hwoken x hx hsuspended
      · have honce := hstep.once (hs.slots.once x)
        have hborn := Coroutines.born_le_one process'.created x
        have := List.count_pos_iff.mpr hstays
        have := List.count_pos_iff.mpr hmem
        rw [Coroutines.State.queued, Coroutines.State.unanswered] at honce
        omega
      · exact hthrows hnone
  · have hcurrent := (hs.taking x hx).2
    rw [hpc, Coroutines.Pc.current, List.singleton_inj] at hcurrent
    rw [← hcurrent, hphase] at hx
    cases hx

/-- A coroutine that waits in `serve()` is not running, and if it is woken it is not suspended. -/
theorem Watched.not_running (hs : Watched process phase) {co : Nat} (hphase : phase co = .waiting) :
    process.pc.current.count co = 0
      ∧ (co ∈ process.suspendCoroutines → process.queued co = 0) := by
  have honce := hs.slots.once_le co
  rw [Coroutines.State.unanswered] at honce
  obtain hmem | ⟨hmem, -⟩ := hs.waiting co hphase
  · have := List.count_pos_iff.mpr hmem
    rw [Coroutines.State.queued] at honce ⊢
    refine ⟨by omega, fun hsuspended => ?_⟩
    have := List.count_pos_iff.mpr hsuspended
    omega
  · have := List.count_pos_iff.mpr hmem
    exact ⟨by omega, fun _ => by omega⟩

theorem Watched.await (hs : Watched process phase) {co : Nat} {caller : Coroutines.Caller}
    (hpc : process.pc = .running co caller) (hinbox : process.inbox = [])
    (halone : ∀ other, phase other = .waiting → other ∉ process.suspendCoroutines) :
    Watched (({ process with inboxCoroutine := some co }.suspend co).switchBack co caller)
      (Function.update phase co .waiting) := by
  have hlook := Coroutines.Step.awaitInbox co caller hpc hinbox
  have hwait := Coroutines.Step.suspend (s := { process with inboxCoroutine := some co }) co caller hpc
  obtain ⟨hloops, -, -, hwoken, hsuspended, -, -⟩ :=
    ({ process with inboxCoroutine := some co }.suspend co).switchBack_spec co caller
  have hserver :=
    (({ process with inboxCoroutine := some co }.suspend co).switchBack_inbox co caller).2
  have hrunning : 0 < process.unanswered co := by
    rw [Coroutines.State.unanswered, hpc, Coroutines.Pc.current, List.count_cons_self]
    omega
  have hother : ∀ x, x ≠ co → Function.update phase co .waiting x = phase x := fun x hx =>
    Function.update_of_ne hx _ _
  refine ⟨hwait.slots (hlook.slots hs.slots), hwait.turned trivial (hlook.turned trivial hs.turned),
    hwait.drained (hlook.drained hs.drained), fun x hx => ?_, fun x hx hmem hnone => ?_,
    fun x hx => ?_⟩
  · by_cases hne : x = co
    · subst hne
      refine Or.inr ⟨?_, hserver⟩
      rw [hsuspended]
      exact List.mem_insert_self
    · rw [hother x hne] at hx
      refine Or.inl ?_
      rw [hwoken]
      exact (hs.waiting x hx).resolve_right fun h => halone x hx h.1
  · exfalso
    rw [hwoken] at hmem
    have hqueued : 0 < process.queued x := by
      have := List.count_pos_iff.mpr hmem
      rw [Coroutines.State.queued]
      exact Nat.add_pos_right _ this
    have honce := hs.slots.once_le x
    by_cases hne : x = co
    · subst hne
      omega
    · rw [hother x hne] at hx
      rw [Coroutines.State.switchBack_co _ _ hne] at hnone
      have hidle := (hs.ready x hx hmem hnone).idle
      rw [hpc] at hidle
      cases hidle
  · have hne : x ≠ co := by
      rintro rfl
      rw [Function.update_self] at hx
      cases hx
    rw [hother x hne] at hx
    have hcurrent := (hs.taking x hx).2
    rw [hpc, Coroutines.Pc.current, List.singleton_inj] at hcurrent
    exact absurd hcurrent.symm hne

/-- The wait of a server is over. -/
theorem Watched.resumed (hs : Watched process phase) {co : Nat}
    {outcome : Option (Coroutines.Outcome V)}
    (hstep : Coroutines.Step process (.resume co outcome) process') (hphase : phase co = .waiting)
    {next : Phase} (hnext : next ≠ .waiting) (htaking : next = .taking → process.inbox ≠ []) :
    Watched process' (Function.update phase co next) := by
  obtain ⟨hidle, hcurrent, hsuspended, hwoken, hinbox, hserver, hco⟩ := hstep.resume_frame
  have hother : ∀ x, x ≠ co → Function.update phase co next x = phase x := fun x hx =>
    Function.update_of_ne hx _ _
  have hspares : ∀ x, x ≠ co → Coroutines.Label.Spares (.resume co outcome) x := by
    intro x hx outcome' hlabel
    injection hlabel with hx'
    exact hx hx'.symm
  have hqueued := hstep.resume_spec.queued
  have hmem : co ∈ process.wakeupCoroutines := by
    refine (hs.waiting co hphase).resolve_right fun h => ?_
    exact absurd ((hs.not_running hphase).2 h.1) (Nat.pos_iff_ne_zero.mp hqueued)
  refine ⟨hstep.slots hs.slots, hstep.turned trivial hs.turned, hstep.drained hs.drained,
    fun x hx => ?_, fun x hx hx' hnone => ?_, fun x hx => ?_⟩
  all_goals
    by_cases hne : x = co
  · rw [hne, Function.update_self] at hx
    exact absurd hx hnext
  · rw [hother x hne] at hx
    obtain hwaits | ⟨hwaits, hrecorded⟩ := hs.waiting x hx
    · exact Or.inl (hstep.woken_stays hwaits (hspares x hne))
    · exact Or.inr ⟨hsuspended ▸ hwaits, hserver.trans hrecorded⟩
  · rw [hne, Function.update_self] at hx
    exact absurd hx hnext
  · rw [hother x hne] at hx
    rw [hco x hne] at hnone
    have honly := (hs.ready x hx (hwoken hx') hnone).woken
    rw [honly] at hmem
    exact absurd (List.mem_singleton.mp hmem).symm hne
  · rw [hne, Function.update_self] at hx
    rw [hinbox, hcurrent, hne]
    exact ⟨htaking hx, rfl⟩
  · rw [hother x hne] at hx
    have hx' := (hs.taking x hx).2
    rw [hidle] at hx'
    cases hx'

/-- A server whose wait returns a value was ready. -/
theorem Watched.returned (hs : Watched process phase) {co : Nat} {value : Content V}
    (hstep : Coroutines.Step process (.resume co (some (.ok value))) process')
    (hphase : phase co = .waiting) : process.inbox ≠ [] := by
  obtain ⟨houtcome, -, -, hqueued⟩ := hstep.resume_spec
  have hmem : co ∈ process.wakeupCoroutines := by
    refine (hs.waiting co hphase).resolve_right fun h => ?_
    exact absurd ((hs.not_running hphase).2 h.1) (Nat.pos_iff_ne_zero.mp hqueued)
  exact (hs.ready co hphase hmem (Coroutines.Coroutine.switchTo_ok houtcome.symm).2).inbox

/-- The coroutine that runs goes from one phase to another, and neither waits. -/
theorem Watched.setPhase (hs : Watched process phase) {co : Nat} {caller : Coroutines.Caller}
    (hpc : process.pc = .running co caller) {next : Phase} (hnext : next ≠ .waiting)
    (htaking : next = .taking → process.inbox ≠ []) :
    Watched process (Function.update phase co next) := by
  have hother : ∀ x, x ≠ co → Function.update phase co next x = phase x := fun x hx =>
    Function.update_of_ne hx _ _
  refine ⟨hs.slots, hs.turned, hs.drained, fun x hx => ?_, fun x hx => ?_, fun x hx => ?_⟩
  all_goals
    by_cases hne : x = co
  · rw [hne, Function.update_self] at hx
    exact absurd hx hnext
  · exact hs.waiting x (hother x hne ▸ hx)
  · rw [hne, Function.update_self] at hx
    exact absurd hx hnext
  · exact hs.ready x (hother x hne ▸ hx)
  · rw [hne, Function.update_self] at hx
    rw [hne, hpc]
    exact ⟨htaking hx, rfl⟩
  · exact hs.taking x (hother x hne ▸ hx)

end Steps

/-! ### The steps of the server -/

theorem receive_inbox (process : Coroutines.State V) (msg : Message V) :
    (process.receive msg).inbox = process.inbox ++ if inboxed msg then [msg] else [] := by
  unfold Coroutines.State.receive inboxed Message.kills
  cases htype : typeOfMessage msg with
  | kRequest => simp
  | kResponse => simp [process.answer_inbox]
  | kNotify => cases hcontent : msg.content <;> simp

omit [DecidableEq T] in
theorem State.handle_spec (typeid : Content V → T) (s : State T V) (co : Nat) (msg : Message V)
    (rest : List (Message V)) :
    (s.handle typeid co msg rest).phase = Function.update s.phase co .away
      ∧ (s.handle typeid co msg rest).stage = s.stage
      ∧ ((s.handle typeid co msg rest).process = { s.process with inbox := rest }
        ∨ (s.handle typeid co msg rest).process = { s.process with inbox := rest }.spawn) := by
  unfold State.handle
  cases s.messageHandlers (typeid msg.content) with
  | none => exact ⟨rfl, rfl, Or.inl rfl⟩
  | some handler =>
      obtain ⟨mode, func⟩ := handler
      cases mode with
      | kCallback => exact ⟨rfl, rfl, Or.inl rfl⟩
      | kCoroutine => exact ⟨rfl, rfl, Or.inr rfl⟩

theorem Watched.handle {process process' : Coroutines.State V} {phase : Nat → Phase}
    (hs : Watched process phase) {co : Nat} {caller : Coroutines.Caller} {msg : Message V}
    {rest : List (Message V)} (hpc : process.pc = .running co caller)
    (hinbox : process.inbox = msg :: rest)
    (hprocess : process' = { process with inbox := rest }
      ∨ process' = { process with inbox := rest }.spawn) :
    Watched process' (Function.update phase co .away) := by
  have haway : Watched process (Function.update phase co .away) := hs.setPhase hpc nofun nofun
  have htake := haway.call (.takeInbox co caller msg rest hpc hinbox) hpc
    (Function.update_self _ _ _) rfl fun _ _ => Or.inl
  obtain rfl | rfl := hprocess
  · exact htake
  · exact htake.call (.spawn co caller hpc) hpc (Function.update_self _ _ _) rfl fun _ _ => Or.inl

/-- The process with the phases of its coroutines; the destructor begins when it is down. -/
structure Minded (s : State T V) : Prop where
  watched : Watched s.process s.phase
  down : s.stage ≠ .alive → s.process.pc = .down

theorem Watched.drain {process : Coroutines.State V} {phase : Nat → Phase}
    (hs : Watched process phase) {msg : Message V} {rest : List (Message V)}
    (hpc : process.pc = .down) (hinbox : process.inbox = msg :: rest) :
    Watched { process with inbox := rest } phase where
  slots := ⟨hs.slots.once, hs.slots.slot, hs.slots.unstarted, hs.slots.unanswered⟩
  turned :=
    { taking := hs.turned.taking
      server := by
        intro hserver
        have hlooked := hs.turned.looked hserver (Coroutines.State.not_calm (by simp [hpc]))
        rw [hinbox] at hlooked
        cases hlooked }
  drained := hs.drained
  waiting := hs.waiting
  ready co hphase hmem hnone := by
    obtain hpc' | hpc' | hpc' := (hs.ready co hphase hmem hnone).pc <;>
    · rw [hpc] at hpc'
      cases hpc'
  taking co hphase := by
    have hcurrent := (hs.taking co hphase).2
    rw [hpc] at hcurrent
    cases hcurrent

/-- The destructor begins when the process is down. -/
theorem Step.down {typeid : Content V → T} {s s' : State T V} {label : Label V}
    (hstep : Step typeid s label s') (hs : s.stage ≠ .alive → s.process.pc = .down)
    (hstage : s'.stage ≠ .alive) : s'.process.pc = .down := by
  have hrunning : ∀ {co caller}, s.process.pc = .running co caller → s.stage = .alive := by
    intro co caller hpc
    by_contra hstage
    rw [hs hstage] at hpc
    cases hpc
  have hmoves : ∀ {label process}, Coroutines.Step s.process label process → s.stage = .alive := by
    intro label process hstep
    by_contra hstage
    exact hstep.not_down (hs hstage)
  cases hstep with
  | push | exchange | register | handled | proceed => exact hs hstage
  | loop _ _ hstep | awaited _ _ _ _ hstep | interrupted _ _ _ _ hstep =>
      exact absurd (hmoves hstep) hstage
  | take msg hpc => exact absurd (hmoves (.take msg hpc)) hstage
  | takeNothing hpc => exact absurd (hmoves (.takeNothing hpc)) hstage
  | call _ _ _ _ hpc | wakeup _ _ _ hpc | finish _ _ _ hpc | handleNothing _ _ hpc =>
      exact absurd (hrunning hpc) hstage
  | await co process _ _ hstep =>
      cases hstep with
      | suspend _ _ hpc => exact absurd (hrunning hpc) hstage
  | handle co caller msg rest hpc =>
      rw [(s.handle_spec typeid co msg rest).2.1] at hstage
      exact absurd (hrunning hpc) hstage
  | destroy hpc => exact hpc
  | drainInbox _ _ hdraining | drainMailbox _ hdraining | drained hdraining =>
      exact hs (by rw [hdraining]; nofun)

theorem Step.minded {typeid : Content V → T} {s s' : State T V} {label : Label V}
    (hstep : Step typeid s label s') (halone : label.Alone s) (hs : Minded s) : Minded s' := by
  refine ⟨?_, hstep.down hs.down⟩
  cases hstep with
  | push | exchange | register | handled | destroy | drainMailbox | drained => exact hs.watched
  | loop label process hstep hloop htaking hresume =>
      exact hs.watched.loop hstep hloop halone.quiet (fun co hlabel => halone.mayWake hlabel)
        fun co hphase outcome hlabel => hresume co outcome hlabel hphase
  | take msg hpc htake =>
      exact hs.watched.loop (.take msg hpc) (by rw [hpc]; rfl) trivial (fun _ => nofun)
        fun _ _ _ => nofun
  | takeNothing hpc htake =>
      exact hs.watched.loop (.takeNothing hpc) (by rw [hpc]; rfl) trivial (fun _ => nofun)
        fun _ _ _ => nofun
  | call co caller label process hpc hphase hstep hinbox hserver hwoken =>
      exact hs.watched.call hstep hpc hphase hserver fun x _ hx => Or.inl (hwoken hx)
  | wakeup co other caller hpc hphase =>
      refine hs.watched.call (.wakeup co other caller hpc) hpc hphase
        (s.process.wakeup_inbox other).2 fun x hx hmem => ?_
      by_cases hother : x = other
      · subst hother
        refine Or.inr ⟨Coroutines.State.mem_wakeup_self hmem, ?_⟩
        rw [(s.process.wakeup_eq x).co]
        exact halone hx hmem
      · exact Or.inl (Coroutines.State.wakeup_spares hother hmem)
  | finish co caller e hpc hphase =>
      refine hs.watched.call (.finish co caller e hpc) hpc hphase
        ((s.process.finish co e).switchBack_inbox co caller).2 fun x _ hx => Or.inl ?_
      change x ∈ ((s.process.finish co e).switchBack co caller).suspendCoroutines
      rw [(s.process.finish_spec co caller e).suspended]
      exact hx
  | await co process hphase hinbox hstep =>
      cases hstep with
      | suspend co caller hpc => exact hs.watched.await hpc hinbox halone
  | awaited co value process hphase hstep =>
      exact hs.watched.resumed hstep hphase nofun fun _ => hs.watched.returned hstep hphase
  | interrupted co e process hphase hstep => exact hs.watched.resumed hstep hphase nofun nofun
  | proceed co caller hpc hphase hinbox => exact hs.watched.setPhase hpc nofun fun _ => hinbox
  | handleNothing co caller hpc hphase hinbox =>
      exact absurd hinbox (hs.watched.taking co hphase).1
  | handle co caller msg rest hpc hphase hinbox =>
      obtain ⟨hphase', -, hprocess⟩ := s.handle_spec typeid co msg rest
      rw [hphase']
      exact hs.watched.handle hpc hinbox hprocess
  | drainInbox msg rest hstage hinbox =>
      exact hs.watched.drain (hs.down (by rw [hstage]; nofun)) hinbox

omit [DecidableEq T] in
theorem Watched.served {s : State T V} (hs : Watched s.process s.phase) : Served s where
  taking co hphase := (hs.taking co hphase).1
  waiting co hphase := (hs.waiting co hphase).elim Or.inr fun h => Or.inl h.2

/-- **`serve()` never takes from an empty inbox**, and nobody is left behind in it, in every run in
which no coroutine starts to wait there while another one is suspended there, no coroutine suspended
there is woken by `coroutine::wakeup`, unless its wait is going to throw, and destructors are quiet. -/
theorem serve_takes {typeid : Content V → T} {s : State T V}
    (hs : ((system typeid).restrict fun s label => label.Alone s).Reachable s) : Served s := by
  suffices hminded : Minded s from hminded.watched.served
  refine Transition.System.Reachable.invariant ?_ ?_ hs
  · rintro s rfl
    exact ⟨watched_fresh, fun hstage => absurd rfl hstage⟩
  · intro s label s' _ hs ⟨hstep, halone⟩
    exact hstep.minded halone hs

/-- One server waits, and another coroutine suspends itself and is woken. When both it and the one
that has woken it have ended, a message arrives. -/
theorem serve_takes_one :
    ∃ s : State Nat Nat, s.process.inbox = [⟨9, 3, .value 7⟩] ∧ s.phase 0 = .taking
      ∧ (s.process.co 1).destroyed = 1 ∧ (s.process.co 2).destroyed = 1 ∧ Served s := by
  have h0 : ((system fun _ : Content Nat => 0).restrict fun s label => label.Alone s).Reachable
      (State.fresh : State Nat Nat) := .of_init rfl
  have h1 := h0.step ⟨.loop _ _ (.dispatch rfl) rfl nofun nofun, trivial⟩
  have h2 := h1.step ⟨.loop _ _ (.enter rfl (Or.inl (List.cons_ne_nil _ _))) rfl nofun nofun,
    trivial⟩
  have h3 := h2.step ⟨.loop _ _ (.resumeSpawned 0 [] rfl rfl ⟨rfl, rfl⟩) rfl nofun
    fun _ _ _ => nofun, trivial⟩
  have h4 := h3.step ⟨.call 0 .spawning _ _ rfl rfl (.spawn 0 .spawning rfl) rfl rfl
    (fun _ => id) rfl, trivial⟩
  have h5 := h4.step ⟨.await 0 _ rfl rfl (.suspend 0 .spawning rfl), fun _ => nofun⟩
  have h6 := h5.step ⟨.loop _ _ (.resumeSpawned 1 [] rfl rfl ⟨rfl, rfl⟩) rfl nofun
    fun _ _ hlabel => by cases hlabel; nofun, trivial⟩
  have h7 := h6.step ⟨.call 1 .spawning _ _ rfl rfl (.spawn 1 .spawning rfl) rfl rfl
    (fun _ => id) rfl, trivial⟩
  have h8 := h7.step ⟨.call 1 .spawning _ _ rfl rfl (.suspend 1 .spawning rfl) rfl rfl
    (by decide) rfl, trivial⟩
  have h9 := h8.step ⟨.loop _ _ (.resumeSpawned 2 [] rfl rfl ⟨rfl, rfl⟩) rfl nofun
    fun _ _ hlabel => by cases hlabel; nofun, trivial⟩
  have h10 := h9.step ⟨.wakeup 2 1 .spawning rfl rfl, nofun⟩
  have h11 := h10.step ⟨.finish 2 .spawning .coroutineExit rfl rfl, trivial⟩
  have h12 := h11.step ⟨.loop _ _ (.spawningDone rfl rfl) rfl nofun nofun, trivial⟩
  have h13 := h12.step ⟨.loop _ _ (.resumeWoken 1 [] rfl rfl ⟨rfl, rfl⟩) rfl nofun
    fun _ _ hlabel => by cases hlabel; nofun, trivial⟩
  have h14 := h13.step ⟨.finish 1 .waking .coroutineExit rfl rfl, trivial⟩
  have h15 := h14.step ⟨.loop _ _ (.wakingDone rfl rfl (Or.inl rfl)) rfl nofun nofun, trivial⟩
  have h16 := h15.step ⟨.loop _ _ (.leave rfl (by decide)) rfl nofun nofun, trivial⟩
  have h17 := h16.step ⟨.loop _ _ (.dispatched rfl) rfl nofun nofun, trivial⟩
  have h18 := h17.step ⟨.push ⟨9, 3, .value 7⟩ rfl, trivial⟩
  have h19 := h18.step ⟨.take ⟨9, 3, .value 7⟩ rfl rfl, trivial⟩
  have h20 := h19.step ⟨.loop _ _ (.dispatch rfl) rfl nofun nofun, trivial⟩
  have h21 := h20.step ⟨.loop _ _ (.enter rfl (Or.inr (Or.inr ⟨List.cons_ne_nil _ _, rfl⟩))) rfl
    nofun nofun, trivial⟩
  have h22 := h21.step ⟨.loop _ _ (.spawningDone rfl rfl) rfl nofun nofun, trivial⟩
  have h23 := h22.step ⟨.loop _ _ (.wakeServer 0 rfl rfl (List.cons_ne_nil _ _) rfl) rfl nofun
    nofun, trivial⟩
  have h24 := h23.step ⟨.loop _ _ (.enter rfl (Or.inr (Or.inl (List.cons_ne_nil _ _)))) rfl nofun
    nofun, trivial⟩
  have h25 := h24.step ⟨.loop _ _ (.spawningDone rfl rfl) rfl nofun nofun, trivial⟩
  have h26 := h25.step ⟨.awaited 0 .empty _ rfl (.resumeWoken 0 [] rfl rfl ⟨rfl, rfl⟩), trivial⟩
  exact ⟨_, rfl, rfl, rfl, rfl, serve_takes h26⟩

/-- A server waits, and another coroutine runs. If that one wakes the server, the server takes from
an inbox that is empty; if it waits in `serve()` as well, the first server is forgotten. -/
theorem server_misled :
    (∃ s : State Nat Nat, (system fun _ => 0).Reachable s ∧ s.phase 0 = .taking
        ∧ s.process.inbox = [])
      ∧ ∃ s : State Nat Nat, (system fun _ => 0).Reachable s ∧ s.phase 0 = .waiting
        ∧ s.process.inboxCoroutine = some 1 ∧ s.process.suspendCoroutines = [1, 0]
        ∧ ¬ Served s := by
  have h0 : (system fun _ : Content Nat => 0).Reachable (State.fresh : State Nat Nat) :=
    .of_init rfl
  have h1 := h0.step (.loop _ _ (.dispatch rfl) rfl nofun nofun)
  have h2 := h1.step (.loop _ _ (.enter rfl (Or.inl (List.cons_ne_nil _ _))) rfl nofun nofun)
  have h3 := h2.step (.loop _ _ (.resumeSpawned 0 [] rfl rfl ⟨rfl, rfl⟩) rfl nofun
    fun _ _ _ => nofun)
  have h4 := h3.step (.call 0 .spawning _ _ rfl rfl (.spawn 0 .spawning rfl) rfl rfl
    (fun _ => id) rfl)
  have h5 := h4.step (.await 0 _ rfl rfl (.suspend 0 .spawning rfl))
  have h6 := h5.step (.loop _ _ (.resumeSpawned 1 [] rfl rfl ⟨rfl, rfl⟩) rfl nofun
    fun _ _ hlabel => by cases hlabel; nofun)
  have hwoken := h6.step (.wakeup 1 0 .spawning rfl rfl)
  have h7 := hwoken.step (.finish 1 .spawning .coroutineExit rfl rfl)
  have h8 := h7.step (.loop _ _ (.spawningDone rfl rfl) rfl nofun nofun)
  have h9 := h8.step (.awaited 0 .empty _ rfl (.resumeWoken 0 [] rfl rfl ⟨rfl, rfl⟩))
  have hboth := h6.step (.await 1 _ rfl rfl (.suspend 1 .spawning rfl))
  refine ⟨⟨_, h9, rfl, rfl⟩, ⟨_, hboth, rfl, rfl, rfl, fun hserved => ?_⟩⟩
  obtain hrecorded | hmem := hserved.waiting 0 rfl
  · cases hrecorded
  · exact List.not_mem_nil hmem

end Stp.Serve
