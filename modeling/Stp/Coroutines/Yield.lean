import Stp.Coroutines.Outcome
import Stp.Coroutines.Ownership
import Stp.Coroutines.Queues

/-!
# Yielding

`Process::yield` pushes a response to the process itself, on a session of its own, and blocks on that
session. The process takes one message a turn, and only after it has found nothing due. So when it
takes this one it has taken all that were pushed before, and has resumed every coroutine that was due
at the call or that one of these messages has woken.

The process takes its messages from its mailbox, to which any thread may push. The log of a run has
the coroutines resumed and the messages taken, each message with the process that took it.
-/

namespace Stp.Yield

open Process Transition

variable {V : Type*}

structure State (V : Type*) where
  process : Coroutines.State V
  mailbox : Mailbox V

inductive Label (V : Type*) where
  | push (msg : Message V)
  | exchange
  | take (msg : Message V)
  | takeNothing
  | process (label : Coroutines.Label V)

inductive Step (s : State V) : Label V → State V → Prop
  | push (msg : Message V) : Step s (.push msg) { s with mailbox := s.mailbox.append msg }
  | exchange : Step s .exchange { s with mailbox := s.mailbox.exchange.2 }
  | take (msg : Message V) (hpc : s.process.pc = .taking) (htake : s.mailbox.take.1 = some msg) :
      Step s (.take msg) ⟨s.process.receive msg, s.mailbox.take.2⟩
  | takeNothing (hpc : s.process.pc = .taking) (htake : s.mailbox.take.1 = none) :
      Step s .takeNothing ⟨{ s.process with pc := .idle }, s.mailbox.take.2⟩
  | process (label : Coroutines.Label V) (process : Coroutines.State V)
      (hstep : Coroutines.Step s.process label process) (hpc : s.process.pc ≠ .taking) :
      Step s (.process label) { s with process := process }

def system : System (State V) (Label V) where
  init s := s = ⟨.fresh, Mailbox.empty⟩
  step := Step

inductive Event (V : Type*) where
  | resumed (co : Nat)
  | taken (msg : Message V) (process : Coroutines.State V)

def ran : Coroutines.Label V → List (Event V)
  | .resume co _ => [.resumed co]
  | _ => []

def observe (s : State V) : Label V → List (Event V)
  | .process label => ran label
  | .take msg => [.taken msg s.process]
  | .push _ | .exchange | .takeNothing => []

/-- The message that `yield` pushes. -/
def own (session : SessionT) : Message V := ⟨0, sessionForResponse session, .empty⟩

/-- `Process::yield`, up to where the coroutine has switched back. Other threads have pushed some
more messages in between. -/
def State.yield (s : State V) (co : Nat) (caller : Coroutines.Caller) (session : SessionT)
    (more : List (Message V)) : State V where
  process := (s.process.block session co).switchBack co caller
  mailbox := (more.foldl Mailbox.append (s.mailbox.append (own session))).exchange.2

/-- A response on the session. -/
def Answers (session : SessionT) (msg : Message V) : Prop :=
  typeOfMessage msg = .kResponse ∧ -msg.session = session

/-- The runs after the call, in which nobody pushes another response on its session. -/
def yielding (s₀ : State V) (co : Nat) (caller : Coroutines.Caller) (session : SessionT)
    (more : List (Message V)) : System (State V) (Label V) where
  init s := s = s₀.yield co caller session more
  step s label s' := Step s label s' ∧ ∀ msg, label = .push msg → ¬ Answers session msg

def takes : List (Event V) → List (Message V) := List.filterMap fun
  | .taken msg _ => some msg
  | .resumed _ => none

/-- The message was dispatched: as a response it has woken the coroutine that waited for it, if there
is one, and that coroutine has been resumed; otherwise it has reached the inbox. -/
def Dispatched (process : Coroutines.State V) (msg : Message V) (after : List (Event V)) : Prop :=
  if typeOfMessage msg = .kResponse then
    ∀ co, (process.unblock (-msg.session)).1 = some co →
      co ∈ (process.receive msg).wakeupCoroutines ∧ .resumed co ∈ after
  else (process.receive msg).inbox = process.inbox ++ [msg]

/-- **What goes first.** All messages that were in the mailbox have been taken and dispatched, and all
coroutines that were due have been resumed. -/
structure WentFirst (s₀ : State V) (log : List (Event V)) : Prop where
  taken : takes log = s₀.mailbox.messages
  dispatched : ∀ before msg process after, log = before ++ .taken msg process :: after →
    Dispatched process msg after
  due : ∀ co ∈ s₀.process.spawnCoroutines ++ s₀.process.wakeupCoroutines, .resumed co ∈ log

/-! ### Logs -/

theorem mem_ran {label : Coroutines.Label V} {event : Event V} (hevent : event ∈ ran label) :
    ∃ co outcome, event = .resumed co ∧ label = .resume co outcome := by
  cases label with
  | resume co outcome => exact ⟨co, outcome, List.mem_singleton.mp hevent, rfl⟩
  | tau | destructor | wait => exact absurd hevent List.not_mem_nil

/-- A coroutine is resumed in a step, or spared. -/
theorem ran_or_spares (label : Coroutines.Label V) (co : Nat) :
    .resumed co ∈ ran label ∨ label.Spares co := by
  cases label with
  | resume other outcome =>
      by_cases hco : other = co
      · subst hco
        exact Or.inl (List.mem_singleton_self _)
      · refine Or.inr fun outcome' hlabel => ?_
        injection hlabel with hother
        exact hco hother
  | tau | destructor | wait => exact Or.inr fun _ => nofun

theorem takes_append (log events : List (Event V)) : takes (log ++ events) = takes log ++ takes events :=
  List.filterMap_append

theorem takes_ran (label : Coroutines.Label V) : takes (ran label) = [] := by
  cases label <;> rfl

/-- A message taken is not among the events of a step that takes none. -/
theorem split_ran {log before after : List (Event V)} {label : Coroutines.Label V}
    {msg : Message V} {process : Coroutines.State V}
    (hsplit : log ++ ran label = before ++ .taken msg process :: after) :
    ∃ middle, log = before ++ .taken msg process :: middle ∧ after = middle ++ ran label := by
  have hnot : .taken msg process ∉ ran label := by
    intro hmem
    obtain ⟨co, outcome, hevent, -⟩ := mem_ran hmem
    cases hevent
  obtain ⟨rest, -, hran⟩ | ⟨rest, hlog, hafter⟩ := List.append_eq_append_iff.mp hsplit
  · rw [hran] at hnot
    exact absurd (List.mem_append_right _ (List.mem_cons_self ..)) hnot
  · cases rest with
    | nil =>
        rw [← List.nil_append (ran label), ← hafter] at hnot
        exact absurd (List.mem_cons_self ..) hnot
    | cons event middle =>
        rw [List.cons_append, List.cons.injEq] at hafter
        obtain ⟨rfl, hafter⟩ := hafter
        exact ⟨middle, hlog, hafter⟩

/-! ### The invariant -/

structure Sane (process : Coroutines.State V) : Prop where
  slots : Coroutines.Slots process
  drained : process.Drained

theorem Sane.step {process process' : Coroutines.State V} {label : Coroutines.Label V}
    (hs : Sane process) (hstep : Coroutines.Step process label process') : Sane process' :=
  ⟨hstep.slots hs.slots, hstep.drained hs.drained⟩

theorem Step.sane {s s' : State V} {label : Label V} (hstep : Step s label s')
    (hs : Sane s.process) : Sane s'.process := by
  cases hstep with
  | push | exchange => exact hs
  | take msg hpc => exact hs.step (.take msg hpc)
  | takeNothing hpc => exact hs.step (.takeNothing hpc)
  | process label process hstep => exact hs.step hstep

theorem sane_of_reachable {s : State V} (hs : system.Reachable s) : Sane s.process := by
  refine System.Reachable.invariant (P := fun s => Sane s.process) ?_ ?_ hs
  · rintro s rfl
    exact ⟨Coroutines.slots_fresh, trivial⟩
  · intro s label s' _ hs hstep
    exact hstep.sane hs

/-- The coroutine is due, and `run()` has not found yet that none is. -/
def Due (now : Coroutines.State V) (co : Nat) : Prop :=
  ¬ now.pc.Left ∧ co ∈ now.spawnCoroutines ++ now.wakeupCoroutines

/-- How a message was dispatched, as far as it has come. -/
def Dispatching (now process : Coroutines.State V) (msg : Message V) (after : List (Event V)) :
    Prop :=
  if typeOfMessage msg = .kResponse then
    ∀ co, (process.unblock (-msg.session)).1 = some co →
      co ∈ (process.receive msg).wakeupCoroutines
        ∧ (.resumed co ∈ after ∨ Due now co)
  else (process.receive msg).inbox = process.inbox ++ [msg] ∨ now.pc.InExit

/-- The coroutine is blocked in `yield`, and its message has not been taken. -/
structure Waiting (s₀ : State V) (co : Nat) (session : SessionT) (s : State V)
    (log : List (Event V)) : Prop where
  mailbox : ∃ rest later, takes log ++ rest = s₀.mailbox.messages
    ∧ s.mailbox.messages = rest ++ own session :: later
    ∧ ∀ msg ∈ rest ++ later, ¬ Answers session msg
  blocked : co ∈ s.process.blockSessions.map Prod.snd
  session : ∀ entry ∈ s.process.blockSessions, entry.2 = co → entry.1 = session
  due : ∀ x ∈ s₀.process.spawnCoroutines ++ s₀.process.wakeupCoroutines,
    .resumed x ∈ log ∨ Due s.process x
  dispatched : ∀ before msg process after, log = before ++ .taken msg process :: after →
    Dispatching s.process process msg after

/-- The wait of the coroutine throws, or does not end. -/
structure Never (co : Nat) (process : Coroutines.State V) : Prop where
  created : co < process.created
  idle : process.spawnCoroutines.count co + process.unanswered co = 0
  throws : co ∈ process.wakeupCoroutines → (process.co co).result.exception ≠ none

/-- The message of `yield` has been taken. -/
def Taken (s₀ : State V) (session : SessionT) (log : List (Event V)) : Prop :=
  ∃ earlier process later, log = earlier ++ .taken (own session) process :: later
    ∧ WentFirst s₀ earlier

theorem Taken.append {s₀ : State V} {session : SessionT} {log : List (Event V)}
    (hlog : Taken s₀ session log) (events : List (Event V)) : Taken s₀ session (log ++ events) := by
  obtain ⟨earlier, process, later, rfl, hfirst⟩ := hlog
  exact ⟨earlier, process, later ++ events, by rw [List.append_assoc, List.cons_append], hfirst⟩

theorem Never.step {co : Nat} {process process' : Coroutines.State V}
    {label : Coroutines.Label V} (hnever : Never co process) (hs : Sane process)
    (hstep : Coroutines.Step process label process') (hspares : label.Spares co) :
    Never co process' := by
  obtain ⟨hcreated, hidle, hthrows⟩ := hnever
  have hcreated' := Nat.lt_of_lt_of_le hcreated hstep.created_le
  have honce := hs.slots.once_le co
  have honce' := (hs.step hstep).slots.once_le co
  by_cases hwoken : co ∈ process.wakeupCoroutines
  · have hwoken' := hstep.woken_stays hwoken hspares
    have hcount := List.count_pos_iff.mpr hwoken'
    rw [Coroutines.State.queued] at honce'
    refine ⟨hcreated', by omega, fun _ => ?_⟩
    rw [hstep.exception_kept (hs.slots.once co) hspares (Or.inl hwoken)]
    exact hthrows hwoken
  · -- nowhere before, so nowhere after
    have hnone : process.wakeupCoroutines.count co = 0 := List.count_eq_zero.mpr hwoken
    have hqueued : process.queued co
        = process.spawnCoroutines.count co + process.wakeupCoroutines.count co := rfl
    have hafter : process'.queued co + process'.unanswered co = 0 := by
      cases hstep.fate co with
      | stays n hco hlive => omega
      | spawned hx => omega
      | resumed hlabel => exact absurd hlabel (hspares _)
      | waits | given | finished => omega
    rw [Coroutines.State.queued] at hafter
    refine ⟨hcreated', by omega, fun hwoken' => ?_⟩
    have := List.count_pos_iff.mpr hwoken'
    omega

section Waiting

variable {s₀ s : State V} {co : Nat} {session : SessionT} {log : List (Event V)}

/-- What is due is so until it is resumed. -/
theorem Waiting.due_stays (hw : Waiting s₀ co session s log) (hs : Sane s.process)
    {process' : Coroutines.State V} {label : Coroutines.Label V}
    (hstep : Coroutines.Step s.process label process') {x : Nat} (hdue : Due s.process x)
    (hspares : label.Spares x) : Due process' x := by
  have hpc : s.process.pc ≠ .abandoning := by
    intro hpc
    have hdrained := hs.drained
    simp only [Coroutines.State.Drained, hpc] at hdrained
    have hsome := hw.blocked
    rw [hdrained.2.2] at hsome
    exact List.not_mem_nil hsome
  obtain ⟨hrunning, hmem⟩ := hdue
  refine ⟨fun hleft => ?_, hstep.due_stays hmem hspares hpc⟩
  obtain ⟨hspawned, hwoken⟩ := hstep.left hleft hrunning
  rw [hspawned, hwoken] at hmem
  exact List.not_mem_nil hmem

/-- While it is blocked the coroutine is in no other container. -/
theorem Waiting.alone (hw : Waiting s₀ co session s log) (hs : Sane s.process) :
    s.process.queued co = 0 ∧ s.process.pc.current.count co = 0
      ∧ s.process.suspendCoroutines.count co = 0 ∧ co < s.process.created := by
  have hblocked := List.count_pos_iff.mpr hw.blocked
  have honce := hs.slots.once_le co
  have hcreated : co < s.process.created := hs.slots.lt_created (by
    rw [Coroutines.State.unanswered]
    omega)
  rw [Coroutines.State.unanswered] at honce
  exact ⟨by omega, by omega, by omega, hcreated⟩

theorem Waiting.running (hw : Waiting s₀ co session s log) {process' : Coroutines.State V}
    {label : Coroutines.Label V} (hs : Sane s.process)
    (hstep : Coroutines.Step s.process label process')
    (hblocked : co ∈ process'.blockSessions.map Prod.snd)
    (hsession : ∀ entry ∈ process'.blockSessions, entry.2 = co → entry.1 = session) :
    Waiting s₀ co session { s with process := process' } (log ++ ran label) where
  mailbox := by
    rw [takes_append, takes_ran, List.append_nil]
    exact hw.mailbox
  blocked := hblocked
  session := hsession
  due x hx := by
    obtain hran | hspares := ran_or_spares label x
    · exact Or.inl (List.mem_append_right _ hran)
    · exact (hw.due x hx).imp (List.mem_append_left _) fun hdue =>
        hw.due_stays hs hstep hdue hspares
  dispatched before msg process after hsplit := by
    obtain ⟨middle, hlog, rfl⟩ := split_ran hsplit
    have hbefore := hw.dispatched before msg process middle hlog
    unfold Dispatching at hbefore ⊢
    split
    · next hresponse =>
        rw [if_pos hresponse] at hbefore
        intro x hx
        obtain ⟨hwoken, hresumed⟩ := hbefore x hx
        refine ⟨hwoken, ?_⟩
        obtain hran | hspares := ran_or_spares label x
        · exact Or.inl (List.mem_append_right _ hran)
        · exact hresumed.imp (List.mem_append_left _) fun hdue => hw.due_stays hs hstep hdue hspares
    · next hother =>
        rw [if_neg hother] at hbefore
        exact hbefore.imp_right hstep.inExit

/-- The coroutine goes on waiting, or is interrupted, or its session is taken by another one. -/
theorem Waiting.step (hw : Waiting s₀ co session s log) {process' : Coroutines.State V}
    {label : Coroutines.Label V} (hs : Sane s.process)
    (hstep : Coroutines.Step s.process label process') (htaking : s.process.pc ≠ .taking) :
    Waiting s₀ co session { s with process := process' } (log ++ ran label)
      ∨ Never co process' := by
  obtain ⟨hqueued, hcurrent, hsuspended, hcreated⟩ := hw.alone hs
  have hcreated' := Nat.lt_of_lt_of_le hcreated hstep.created_le
  obtain hsame | ⟨-, hinterrupted⟩ | ⟨x, caller, session', hpc, rfl⟩ := hstep.blocks htaking
  · exact Or.inl (hw.running hs hstep (hsame ▸ hw.blocked) (hsame ▸ hw.session))
  · right
    obtain ⟨entry, hentry, rfl⟩ := List.mem_map.mp hw.blocked
    obtain ⟨hwoken, hthrows⟩ := hinterrupted entry hentry
    have honce := (hs.step hstep).slots.once_le entry.2
    have hcount := List.count_pos_iff.mpr hwoken
    rw [Coroutines.State.queued] at honce
    exact ⟨hcreated', by omega, fun _ => hthrows⟩
  · obtain ⟨hloops, -, hspawned, hwoken, hsuspend, hblocks, -⟩ :=
      (s.process.block session' x).switchBack_spec x caller
    have hne : x ≠ co := by
      rintro rfl
      rw [hpc, Coroutines.Pc.current, List.count_cons_self] at hcurrent
      cases hcurrent
    have hentries : ((s.process.block session' x).switchBack x caller).blockSessions
        = (session', x) :: s.process.blockSessions.filter fun entry => entry.1 ≠ session' := hblocks
    by_cases hsession : session' = session
    · right
      have hnone : (((s.process.block session' x).switchBack x caller).blockSessions.map
          Prod.snd).count co = 0 := by
        rw [hentries]
        refine List.count_eq_zero.mpr fun hmem => ?_
        rw [List.map_cons, List.mem_cons] at hmem
        obtain ⟨entry, hentry, hco⟩ := List.mem_map.mp (hmem.resolve_left hne.symm)
        obtain ⟨hentry, hkept⟩ := List.mem_filter.mp hentry
        exact of_decide_eq_true hkept ((hw.session entry hentry hco).trans hsession.symm)
      rw [Coroutines.State.queued] at hqueued
      refine ⟨hcreated', ?_, fun hmem => ?_⟩
      · rw [Coroutines.State.unanswered, hloops.1, hspawned, hsuspend, hnone, List.count_nil]
        change s.process.spawnCoroutines.count co
          + (0 + s.process.suspendCoroutines.count co + 0) = 0
        omega
      · rw [hwoken] at hmem
        have hcount : 0 < s.process.wakeupCoroutines.count co := List.count_pos_iff.mpr hmem
        omega
    · left
      refine hw.running hs hstep ?_ ?_
      · rw [hentries, List.map_cons]
        obtain ⟨entry, hentry, rfl⟩ := List.mem_map.mp hw.blocked
        refine List.mem_cons_of_mem _ (List.mem_map_of_mem (List.mem_filter.mpr ⟨hentry, ?_⟩))
        refine decide_eq_true fun heq => hsession ?_
        rw [← heq]
        exact hw.session entry hentry rfl
      · rw [hentries]
        intro entry hentry hco
        obtain rfl | hentry := List.mem_cons.mp hentry
        · exact absurd hco hne
        · exact hw.session entry (List.mem_filter.mp hentry).1 hco

end Waiting

/-! ### Taking a message -/

theorem receive_response {process : Coroutines.State V} {msg : Message V}
    (hresponse : typeOfMessage msg = .kResponse) :
    process.receive msg = { process.answer (-msg.session) msg.content with pc := .idle } := by
  unfold Coroutines.State.receive
  rw [hresponse]

/-- The response wakes the coroutine that is blocked on its session. -/
theorem answer_unblock {process process' : Coroutines.State V} {session : SessionT} {co : Nat}
    (content : Content V) (hunblock : process.unblock session = (some co, process')) :
    (process.answer session content).wakeupCoroutines = process'.wakeupCoroutines ++ [co]
      ∧ (process.answer session content).blockSessions = process'.blockSessions := by
  unfold Coroutines.State.answer
  rw [hunblock]
  exact ⟨rfl, rfl⟩

/-- What `Process::resume` does with a message dispatches it. -/
theorem dispatching_receive (process : Coroutines.State V) (msg : Message V) :
    Dispatching (process.receive msg) process msg [] := by
  unfold Dispatching
  split
  · next hresponse =>
      intro co hco
      suffices hwoken : co ∈ (process.receive msg).wakeupCoroutines by
        refine ⟨hwoken, Or.inr ⟨?_, List.mem_append_right _ hwoken⟩⟩
        rw [receive_response hresponse]
        exact fun hleft => hleft.elim nofun nofun
      rw [receive_response hresponse]
      obtain ⟨hwoken, -⟩ := answer_unblock msg.content (Prod.ext hco rfl)
      change co ∈ (process.answer (-msg.session) msg.content).wakeupCoroutines
      rw [hwoken]
      exact List.mem_append_right _ (List.mem_singleton_self co)
  · next hother =>
      unfold Coroutines.State.receive
      split
      · exact Or.inl rfl
      · next hresponse => exact absurd hresponse hother
      · split
        · exact Or.inr trivial
        · exact Or.inl rfl

/-- A message that does not answer the coroutine leaves it blocked. -/
theorem blocked_receive {process : Coroutines.State V} {msg : Message V} {co : Nat}
    {session : SessionT} (hblocked : co ∈ process.blockSessions.map Prod.snd)
    (hsession : ∀ entry ∈ process.blockSessions, entry.2 = co → entry.1 = session)
    (hother : ¬ Answers session msg) :
    co ∈ (process.receive msg).blockSessions.map Prod.snd
      ∧ ∀ entry ∈ (process.receive msg).blockSessions, entry.2 = co → entry.1 = session := by
  by_cases hresponse : typeOfMessage msg = .kResponse
  · rw [receive_response hresponse]
    change co ∈ (process.answer _ _).blockSessions.map Prod.snd
      ∧ ∀ entry ∈ (process.answer _ _).blockSessions, entry.2 = co → entry.1 = session
    unfold Coroutines.State.answer Coroutines.State.unblock
    cases hfind : process.blockSessions.find? fun entry => entry.1 = -msg.session with
    | none => exact ⟨hblocked, hsession⟩
    | some found =>
        have hfound : found.1 = -msg.session := by simpa using List.find?_some hfind
        obtain ⟨entry, hentry, rfl⟩ := List.mem_map.mp hblocked
        have hne : entry ≠ found := by
          rintro rfl
          exact hother ⟨hresponse, hfound.symm.trans (hsession entry hentry rfl)⟩
        exact ⟨List.mem_map_of_mem ((List.mem_erase_of_ne hne).mpr hentry),
          fun entry' hentry' => hsession entry' (List.mem_of_mem_erase hentry')⟩
  · have hsame : (process.receive msg).blockSessions = process.blockSessions := by
      unfold Coroutines.State.receive
      split
      · rfl
      · next h => exact absurd h hresponse
      · split <;> rfl
    rw [hsame]
    exact ⟨hblocked, hsession⟩

theorem Waiting.take {s₀ s : State V} {co : Nat} {session : SessionT} {log : List (Event V)}
    (hw : Waiting s₀ co session s log) {msg : Message V}
    (hpc : s.process.pc = .taking) (htake : s.mailbox.take.1 = some msg) :
    Waiting s₀ co session ⟨s.process.receive msg, s.mailbox.take.2⟩
        (log ++ [.taken msg s.process])
      ∨ Taken s₀ session (log ++ [.taken msg s.process]) := by
  obtain ⟨rest, later, hbefore, hmessages, hunique⟩ := hw.mailbox
  -- a message is taken when nothing is due but what destructors have spawned or woken since
  have hnone : ∀ x, ¬ Due s.process x := fun x hdue => hdue.1 (Or.inr hpc)
  have hdue : ∀ x ∈ s₀.process.spawnCoroutines ++ s₀.process.wakeupCoroutines,
      .resumed x ∈ log := fun x hx => (hw.due x hx).resolve_right (hnone x)
  have hdispatched : ∀ before msg process after, log = before ++ .taken msg process :: after →
      Dispatched process msg after := by
    intro before msg process after hlog
    have hdispatching := hw.dispatched before msg process after hlog
    unfold Dispatching at hdispatching
    unfold Dispatched
    split
    · next hresponse =>
        rw [if_pos hresponse] at hdispatching
        exact fun x hx => (hdispatching x hx).imp_right fun h => h.resolve_right (hnone x)
    · next hother =>
        rw [if_neg hother] at hdispatching
        refine hdispatching.resolve_right fun hexits => ?_
        rw [hpc] at hexits
        exact hexits
  have htook := Mailbox.take_some htake
  rw [hmessages] at htook
  cases rest with
  | nil =>
      rw [List.nil_append, List.cons.injEq] at htook
      obtain ⟨rfl, -⟩ := htook
      rw [List.append_nil] at hbefore
      exact Or.inr ⟨log, s.process, [], rfl, hbefore, hdispatched, hdue⟩
  | cons next rest =>
      rw [List.cons_append, List.cons.injEq] at htook
      obtain ⟨rfl, hafter⟩ := htook
      obtain ⟨hblocked, hsession⟩ :=
        blocked_receive hw.blocked hw.session (hunique next (List.mem_cons_self ..))
      refine Or.inl ⟨⟨rest, later, ?_, hafter.symm, fun msg hmsg => ?_⟩, hblocked, hsession,
        fun x hx => Or.inl (List.mem_append_left _ (hdue x hx)), ?_⟩
      · rw [takes_append, ← hbefore, List.append_assoc]
        rfl
      · exact hunique msg (List.mem_cons_of_mem _ hmsg)
      · intro before msg process after hsplit
        obtain ⟨-, hlast, rfl⟩ | ⟨middle, hlog, rfl⟩ := split_concat hsplit
        · cases hlast
          exact dispatching_receive s.process next
        · have hold := hdispatched before msg process middle hlog
          unfold Dispatched at hold
          unfold Dispatching
          split
          · next hresponse =>
              rw [if_pos hresponse] at hold
              exact fun x hx => (hold x hx).imp_right fun h => Or.inl (List.mem_append_left _ h)
          · next hother =>
              rw [if_neg hother] at hold
              exact Or.inl hold

/-! ### The whole wait -/

theorem foldl_append_messages (messages : List (Message V)) (mailbox : Mailbox V) :
    (messages.foldl Mailbox.append mailbox).messages = mailbox.messages ++ messages := by
  induction messages generalizing mailbox with
  | nil => exact (List.append_nil _).symm
  | cons msg messages ih =>
      rw [List.foldl_cons, ih, Mailbox.append_messages, List.append_assoc, List.singleton_append]

theorem Waiting.start {s₀ : State V} (hs : Sane s₀.process) {co : Nat} {caller : Coroutines.Caller}
    {session : SessionT} {more : List (Message V)} (hpc : s₀.process.pc = .running co caller)
    (hunique : ∀ msg ∈ s₀.mailbox.messages ++ more, ¬ Answers session msg) :
    Waiting s₀ co session (s₀.yield co caller session more) [] := by
  obtain ⟨-, -, hspawned, hwoken, -, hblocks, -⟩ :=
    (s₀.process.block session co).switchBack_spec co caller
  have hentries : (s₀.yield co caller session more).process.blockSessions
      = (session, co) :: s₀.process.blockSessions.filter fun entry => entry.1 ≠ session := hblocks
  have hnone : co ∉ s₀.process.blockSessions.map Prod.snd := by
    intro hmem
    have honce := hs.slots.once_le co
    have hcount := List.count_pos_iff.mpr hmem
    rw [Coroutines.State.unanswered, hpc, Coroutines.Pc.current, List.count_cons_self] at honce
    omega
  refine ⟨⟨s₀.mailbox.messages, more, List.nil_append _, ?_, hunique⟩, ?_, ?_, fun x hx => ?_, ?_⟩
  · change (more.foldl Mailbox.append (s₀.mailbox.append (own session))).messages = _
    rw [foldl_append_messages, Mailbox.append_messages, List.append_assoc, List.singleton_append]
  · rw [hentries]
    exact List.mem_cons_self ..
  · rw [hentries]
    intro entry hentry hco
    obtain rfl | hentry := List.mem_cons.mp hentry
    · rfl
    · refine absurd ?_ hnone
      rw [← hco]
      exact List.mem_map_of_mem (List.mem_filter.mp hentry).1
  · refine Or.inr ⟨(s₀.process.block session co).switchBack_not_left co caller, ?_⟩
    change x ∈ ((s₀.process.block session co).switchBack co caller).spawnCoroutines
      ++ ((s₀.process.block session co).switchBack co caller).wakeupCoroutines
    rw [hspawned, hwoken]
    exact hx
  · intro before msg process after hsplit
    cases before <;> cases hsplit

theorem Waiting.mailbox_step {s₀ s : State V} {co : Nat} {session : SessionT}
    {log : List (Event V)} (hw : Waiting s₀ co session s log) {mailbox : Mailbox V}
    {messages : List (Message V)} (hmailbox : mailbox.messages = s.mailbox.messages ++ messages)
    (hunique : ∀ msg ∈ messages, ¬ Answers session msg) :
    Waiting s₀ co session { s with mailbox := mailbox } log := by
  obtain ⟨rest, later, hbefore, hmessages, hothers⟩ := hw.mailbox
  refine { hw with mailbox := ⟨rest, later ++ messages, hbefore, ?_, fun msg hmsg => ?_⟩ }
  · change mailbox.messages = _
    rw [hmailbox, hmessages, List.append_assoc, List.cons_append]
  · rw [← List.append_assoc] at hmsg
    exact (List.mem_append.mp hmsg).elim (hothers msg) (hunique msg)

theorem Step.waiting {s₀ s s' : State V} {co : Nat} {session : SessionT} {log : List (Event V)}
    {label : Label V} (hstep : Step s label s') (hs : Sane s.process)
    (hpush : ∀ msg, label = .push msg → ¬ Answers session msg)
    (hw : Waiting s₀ co session s log) :
    Taken s₀ session (log ++ observe s label)
      ∨ Waiting s₀ co session s' (log ++ observe s label) ∨ Never co s'.process := by
  cases hstep with
  | push msg =>
      rw [observe, List.append_nil]
      refine Or.inr (Or.inl (hw.mailbox_step (s.mailbox.append_messages msg) fun msg' hmsg => ?_))
      rw [List.mem_singleton.mp hmsg]
      exact hpush msg rfl
  | exchange =>
      rw [observe, List.append_nil]
      exact Or.inr (Or.inl (hw.mailbox_step (List.append_nil _).symm fun _ => nofun))
  | take msg hpc htake =>
      obtain hwaits | htaken := hw.take hpc htake
      · exact Or.inr (Or.inl hwaits)
      · exact Or.inl htaken
  | takeNothing hpc htake =>
      obtain ⟨rest, later, -, hmessages, -⟩ := hw.mailbox
      rw [(Mailbox.take_none htake).1] at hmessages
      cases rest <;> cases hmessages
  | process label process hstep htaking => exact Or.inr (hw.step hs hstep htaking)

theorem Step.never {s s' : State V} {co : Nat} {label : Label V} (hstep : Step s label s')
    (hs : Sane s.process) (hnever : Never co s.process) (hfirst : .resumed co ∉ observe s label) :
    Never co s'.process := by
  cases hstep with
  | push | exchange => exact hnever
  | take msg hpc => exact hnever.step hs (.take msg hpc) fun _ => nofun
  | takeNothing hpc => exact hnever.step hs (.takeNothing hpc) fun _ => nofun
  | process label process hstep =>
      exact hnever.step hs hstep ((ran_or_spares label co).resolve_left hfirst)

section Runs

variable {s₀ : State V} {co : Nat} {caller : Coroutines.Caller} {session : SessionT}
  {more : List (Message V)}

/-- Until the coroutine is resumed, its message has been taken, or it waits for it, or it does not
return. -/
theorem taken_or_waiting (hs₀ : Sane s₀.process) (hpc : s₀.process.pc = .running co caller)
    (hunique : ∀ msg ∈ s₀.mailbox.messages ++ more, ¬ Answers session msg) {s : State V}
    {log : List (Event V)} (hlog : (yielding s₀ co caller session more).Logs observe s log)
    (hfirst : .resumed co ∉ log) :
    Sane s.process
      ∧ (Taken s₀ session log ∨ Waiting s₀ co session s log ∨ Never co s.process) := by
  induction hlog with
  | init hinit =>
      obtain rfl := hinit
      exact ⟨hs₀.step (.block co caller session hpc), Or.inr (Or.inl (.start hs₀ hpc hunique))⟩
  | @step s s' log label hlog hstep ih =>
      obtain ⟨hstep, hpush⟩ := hstep
      obtain ⟨hs, hcases⟩ := ih fun hmem => hfirst (List.mem_append_left _ hmem)
      refine ⟨hstep.sane hs, ?_⟩
      obtain htaken | hwaits | hnever := hcases
      · exact Or.inl (htaken.append _)
      · exact hstep.waiting hs hpush hwaits
      · exact Or.inr (Or.inr (hstep.never hs hnever fun hmem =>
          hfirst (List.mem_append_right _ hmem)))

/-- **`yield` lets everything earlier go first.** When `yield` returns, the process has taken its
message, and before it all the messages that were in the mailbox at the call; these have been
dispatched and the coroutines that they have woken resumed, and so has every coroutine that was due at
the call. -/
theorem yield_lets_earlier_go_first (hs₀ : system.Reachable s₀)
    (hpc : s₀.process.pc = .running co caller)
    (hunique : ∀ msg ∈ s₀.mailbox.messages ++ more, ¬ Answers session msg) {s : State V}
    {log : List (Event V)} (hlog : (yielding s₀ co caller session more).Logs observe s log)
    (hfirst : .resumed co ∉ log) {value : Content V} {process : Coroutines.State V}
    (hreturns : Coroutines.Step s.process (.resume co (some (.ok value))) process) :
    ∃ earlier process later, log = earlier ++ .taken (own session) process :: later
      ∧ WentFirst s₀ earlier := by
  obtain ⟨hs, htaken | hwaits | hnever⟩ :=
    taken_or_waiting (sane_of_reachable hs₀) hpc hunique hlog hfirst
  · exact htaken
  · -- a coroutine that is blocked is not resumed
    have hqueued := hreturns.resume_spec.queued
    rw [(hwaits.alone hs).1] at hqueued
    cases hqueued
  · obtain ⟨houtcome, -, -, hqueued⟩ := hreturns.resume_spec
    have hidle := hnever.idle
    rw [Coroutines.State.queued] at hqueued
    have hthrows := hnever.throws (List.count_pos_iff.mp (by omega))
    exact absurd (Coroutines.Coroutine.switchTo_ok houtcome.symm).2 hthrows

end Runs

/-- A coroutine that runs has spawned another one, and a request has been pushed. -/
def busy : State Nat where
  process :=
    { Coroutines.State.fresh with
      pc := .running 0 .spawning
      co := Function.update (Function.update (fun _ => .create) 0
        { Coroutines.Coroutine.create with started := true }) 1 .create
      created := 2
      spawnCoroutines := [1] }
  mailbox := ⟨false, [], [⟨9, 3, .value 7⟩]⟩

theorem reachable_busy : system.Reachable busy := by
  have h0 : system.Reachable (⟨.fresh, Mailbox.empty⟩ : State Nat) := .of_init rfl
  have h1 := h0.step (.process _ _ (.dispatch rfl) nofun)
  have h2 := h1.step (.process _ _ (.enter rfl (Or.inl (List.cons_ne_nil _ _))) nofun)
  have h3 := h2.step (.process _ _ (.resumeSpawned 0 [] rfl rfl ⟨rfl, rfl⟩) nofun)
  have h4 := h3.step (.process _ _ (.spawn 0 .spawning rfl) nofun)
  exact h4.step (.push ⟨9, 3, .value 7⟩)

/-- It yields. -/
theorem yield_lets_earlier_go_first_two :
    ∃ log : List (Event Nat), takes log = [⟨9, 3, .value 7⟩] ∧ .resumed 1 ∈ log
      ∧ WentFirst busy log := by
  have hunique : ∀ msg ∈ busy.mailbox.messages ++ [], ¬ Answers 5 msg := by
    intro msg hmsg
    rw [List.mem_singleton.mp hmsg]
    exact fun h => absurd h.1 (by decide)
  have hquiet : ∀ {label : Label Nat}, (∀ msg, label ≠ .push msg) →
      ∀ msg, label = .push msg → ¬ Answers 5 msg := fun hne msg hlabel => absurd hlabel (hne msg)
  have h0 : (yielding busy 0 .spawning 5 []).Logs observe _ [] := .init rfl
  have h1 := h0.step ⟨.process _ _ (.resumeSpawned 1 [] rfl rfl ⟨rfl, rfl⟩) nofun, hquiet nofun⟩
  have h2 := h1.step ⟨.process _ _ (.finish 1 .spawning .coroutineExit rfl) nofun, hquiet nofun⟩
  have h3 := h2.step ⟨.process _ _ (.spawningDone rfl rfl) nofun, hquiet nofun⟩
  have h4 := h3.step ⟨.process _ _ (.wakingDone rfl rfl (Or.inl rfl)) nofun, hquiet nofun⟩
  have h5 := h4.step ⟨.process _ _ (.leave rfl (by decide)) nofun, hquiet nofun⟩
  have h6 := h5.step ⟨.process _ _ (.dispatched rfl) nofun, hquiet nofun⟩
  have h7 := h6.step ⟨.take ⟨9, 3, .value 7⟩ rfl rfl, hquiet nofun⟩
  have h8 := h7.step ⟨.process _ _ (.dispatch rfl) nofun, hquiet nofun⟩
  have h9 := h8.step ⟨.process _ _ (.leave rfl (by decide)) nofun, hquiet nofun⟩
  have h10 := h9.step ⟨.process _ _ (.dispatched rfl) nofun, hquiet nofun⟩
  have h11 := h10.step ⟨.take (own 5) rfl rfl, hquiet nofun⟩
  have h12 := h11.step ⟨.process _ _ (.dispatch rfl) nofun, hquiet nofun⟩
  have h13 := h12.step ⟨.process _ _ (.enter rfl (Or.inr (Or.inl (List.cons_ne_nil _ _)))) nofun,
    hquiet nofun⟩
  have h14 := h13.step ⟨.process _ _ (.spawningDone rfl rfl) nofun, hquiet nofun⟩
  obtain ⟨earlier, process, later, -, hfirst⟩ :=
    yield_lets_earlier_go_first reachable_busy rfl hunique h14 (by simp [observe, ran])
      (.resumeWoken 0 [] rfl rfl ⟨rfl, rfl⟩)
  exact ⟨earlier, hfirst.taken, hfirst.due 1 (List.mem_singleton_self 1), hfirst⟩

end Stp.Yield
