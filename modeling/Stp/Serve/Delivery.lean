import Stp.Coroutines.Ownership
import Stp.Library.Tally
import Stp.Serve.Attended

/-!
# Where the messages of a process are

The mailbox returns the messages in the order in which they were pushed, the inbox keeps the order of
those that it is given, and `serve()` takes from its front and hands a message over to the handler
that was registered last for its type. A message that was pushed is in the mailbox, in the inbox or in
the hands of one handler, or it has been destroyed: when it was taken and was not for the inbox, when
there was no handler for it, when the frame of `serve()` that had it was left, with the coroutine
whose function owned it, or by the destructor of the process. The function of a coroutine is destroyed
with it, so it must not be destroyed twice, and it is not as long as no coroutine starts to wait with
an exception in its `Result`.
-/

namespace Stp.Serve

open Process Tally Transition

variable {T V : Type*} [DecidableEq T]

/-- The messages in the frames of `serve()`. -/
def State.framed (s : State T V) : Multiset (Message V) := gathered s.frames s.process.created

/-- The message that a coroutine owns, until it is destroyed. -/
def owned (process : Coroutines.State V) (captured : Nat → List (Message V)) (co : Nat) :
    List (Message V) :=
  if (process.co co).destroyed = 0 then captured co else []

/-- The messages that the functions of coroutines own. -/
def State.possessed (s : State T V) : Multiset (Message V) :=
  gathered (owned s.process s.captured) s.process.created

/-- The message that is handed over, and the handler that gets it if any does. -/
def Event.handed : Event T V → Option (Message V × Option HandlerInfo)
  | .registered _ _ => none
  | .called func msg => some (msg, some ⟨.kCallback, func⟩)
  | .spawned func msg => some (msg, some ⟨.kCoroutine, func⟩)
  | .dropped msg => some (msg, none)

/-- The messages that `serve()` has taken from the inbox. -/
def handed (log : List (Event T V)) : List (Message V) :=
  log.filterMap fun event => event.handed.map Prod.fst

def Event.registers (type : T) : Event T V → Option HandlerInfo
  | .registered other handler => if other = type then some handler else none
  | _ => none

/-- The handler that was registered last for the type. -/
def registered (log : List (Event T V)) (type : T) : Option HandlerInfo :=
  (log.filterMap (Event.registers type)).getLast?

/-- A message that is handed over goes to the handler for its type, if there is one. -/
def ByType (typeid : Content V → T) (log : List (Event T V)) (event : Event T V) : Prop :=
  ∀ msg handler, event.handed = some (msg, handler) → handler = registered log (typeid msg.content)

/-- **Delivery.** Messages are taken from the mailbox in the order of their pushes and handed over in
that order, each to the handler registered for its type; a coroutine that is about to take one finds
it; each message that was pushed is in one place, or was destroyed; and when the process is gone, and
its coroutines, none of which was destroyed in the middle of its function, all have been destroyed
once. -/
structure Delivered (typeid : Content V → T) (s : State T V) : Prop where
  order : s.taken ++ (s.mailbox.read ++ s.mailbox.write) = s.pushed
  inOrder : handed s.log <+: s.pushed.filter inboxed
  byType : Allows (ByType typeid) s.log
  found : ∀ co, s.phase co = .taking → s.process.inbox ≠ []
  uncrashed : s.process.pc ≠ .crashed
  places : (s.pushed : Multiset (Message V)) = s.mailbox.write + s.mailbox.read + s.process.inbox
    + s.framed + s.possessed + s.destroyed
  all : s.stage = .gone → (∀ co < s.process.created, (s.process.co co).destroyed ≠ 0
      ∧ ((s.process.co co).finished = true ∨ (s.process.co co).started = false)) →
    s.destroyed.Perm s.pushed

/-! ### What the process does to its coroutines -/

section Process

variable {process process' : Coroutines.State V} {label : Coroutines.Label V}

theorem sweeps_destroys (hpc : process.pc.Destroys) : sweeps process = false := by
  obtain hpc | ⟨exiting, hpc⟩ := hpc.cases <;> simp only [sweeps, hpc]

/-- Coroutines are destroyed as zombies, as often as they are among them. -/
theorem destroyed_step (hstep : Coroutines.Step process label process') {x : Nat}
    (hx : x < process.created) :
    (process'.co x).destroyed = (process.co x).destroyed
      + if sweeps process then process.zombieCoroutines.count x else 0 := by
  have hsame : sweeps process = false → (process'.co x).destroyed = (process.co x).destroyed →
      (process'.co x).destroyed = (process.co x).destroyed
        + if sweeps process then process.zombieCoroutines.count x else 0 := by
    intro hnot hsame
    rw [hnot, hsame]
    rfl
  cases hstep with
  | leave hpc hidle =>
      have hsweeps : sweeps process = true := by
        simp only [sweeps, hpc, hidle, decide_false, Bool.not_false]
      rw [if_pos hsweeps]
      rfl
  | sweep hpc =>
      rw [if_pos (by simp only [sweeps, hpc])]
      rfl
  | enter hpc hbusy =>
      exact hsame (by simp only [sweeps, hpc, hbusy, decide_true, Bool.not_true]) rfl
  | dispatch hpc | dispatched hpc | spawningDone hpc | wakingDone hpc | takeNothing hpc
  | abandon hpc | exited hpc | awaitInbox _ _ hpc | takeInbox _ _ _ _ hpc =>
      exact hsame (by simp only [sweeps, hpc]) rfl
  | resumeSpawned co rest hpc =>
      exact hsame (by simp only [sweeps, hpc]) (process.switchTo_same co .spawning x).1
  | resumeWoken co rest hpc =>
      exact hsame (by simp only [sweeps, hpc]) (process.switchTo_same co .waking x).1
  | unwind co rest hpc =>
      exact hsame (by simp only [sweeps, hpc]) (process.switchTo_same co .unwinding x).1
  | wakeServer co hpc =>
      refine hsame (by simp only [sweeps, hpc]) ?_
      rw [← (process.wakeup_eq co).co]
  | wakeup co other caller hpc =>
      refine hsame (by simp only [sweeps, hpc]) ?_
      rw [(process.wakeup_eq other).co]
  | interrupt blocked suspended hpc =>
      exact hsame (by simp only [sweeps, hpc])
        ((process.agrees_interrupt blocked suspended .coroutineExit).destroyed x)
  | take msg hpc =>
      exact hsame (by simp only [sweeps, hpc]) ((process.receive_spec msg).agrees.destroyed x)
  | spawn co caller hpc =>
      refine hsame (by simp only [sweeps, hpc]) (congrArg Coroutines.Coroutine.destroyed ?_)
      exact Function.update_of_ne (Nat.ne_of_lt hx) _ _
  | destructorSpawn hpc =>
      refine hsame (sweeps_destroys hpc) (congrArg Coroutines.Coroutine.destroyed ?_)
      exact Function.update_of_ne (Nat.ne_of_lt hx) _ _
  | destructorWakeup other hpc =>
      refine hsame (sweeps_destroys hpc) ?_
      rw [← (process.wakeup_eq other).co]
  | suspend co caller hpc =>
      exact hsame (by simp only [sweeps, hpc])
        (((process.suspend co).switchBack_spec co caller).agrees.destroyed x)
  | block co caller session hpc =>
      exact hsame (by simp only [sweeps, hpc])
        (((process.block session co).switchBack_spec co caller).agrees.destroyed x)
  | finish co caller e hpc =>
      exact hsame (by simp only [sweeps, hpc]) (process.finish_same co caller e x).1

/-- The coroutine is in the middle of its function. -/
def InFunction (process : Coroutines.State V) (co : Nat) : Prop :=
  co < process.created ∧ (process.co co).started = true ∧ (process.co co).finished = false

/-- What the messages in the frames and functions of coroutines rely on. -/
structure Holders (process : Coroutines.State V) (captured frames : Nat → List (Message V)) :
    Prop where
  slots : Coroutines.Slots process
  unfinished : process.RunsUnfinished
  created : ∀ co, captured co ≠ [] → co < process.created
  counted : ∀ co,
    process.entries.count co + (process.co co).destroyed ≤ Coroutines.born process.created co
  uncrashed : process.pc ≠ .crashed
  framed : ∀ co, frames co ≠ [] → InFunction process co

variable {captured frames : Nat → List (Message V)}

theorem Holders.running (hs : Holders process captured frames) {co : Nat}
    {caller : Coroutines.Caller} (hpc : process.pc = .running co caller) :
    InFunction process co := by
  have hrunning : 0 < process.unanswered co := by
    rw [Coroutines.State.unanswered, hpc, Coroutines.Pc.current, List.count_cons_self]
    omega
  exact ⟨hs.slots.lt_created (Nat.add_pos_right _ hrunning),
    (hs.slots.unanswered co hrunning).1, hs.unfinished co caller hpc⟩

theorem Holders.moves (hs : Holders process captured frames)
    (hstep : Coroutines.Step process label process')
    (hclean : ∀ co session, label = .wait co session → (process.co co).result.exception = none)
    (hends : ∀ co, frames co ≠ [] → (process'.co co).finished = false) :
    Holders process' captured frames where
  slots := hstep.slots hs.slots
  unfinished := hstep.runsUnfinished hs.unfinished
  created co hco := Nat.lt_of_lt_of_le (hs.created co hco) hstep.created_le
  counted co := hstep.count_le (hs.counted co) (hclean co)
  uncrashed := hstep.uncrashed hs.counted hs.uncrashed
  framed co hco := by
    obtain ⟨hcreated, hstarted, -⟩ := hs.framed co hco
    exact ⟨Nat.lt_of_lt_of_le hcreated hstep.created_le, hstep.started_kept hcreated hstarted,
      hends co hco⟩

/-- The loops of the process end no coroutine. -/
theorem Holders.loop (hs : Holders process captured frames)
    (hstep : Coroutines.Step process label process') (hloop : process.pc.current = []) :
    Holders process' captured frames := by
  have hrunning : ∀ co caller, process.pc ≠ .running co caller := by
    intro co caller hpc
    rw [hpc] at hloop
    cases hloop
  refine hs.moves hstep (fun co session hlabel => ?_) fun co hco => ?_
  · subst hlabel
    obtain ⟨caller, hpc⟩ := hstep.wait_running
    exact absurd hpc (hrunning co caller)
  · by_contra hfinished
    obtain ⟨caller, hpc⟩ :=
      hstep.finishes (hs.framed co hco).2.2 (Bool.eq_true_of_not_eq_false hfinished)
    exact hrunning co caller hpc

/-- The coroutine that runs does not end. -/
theorem Holders.call (hs : Holders process captured frames)
    (hstep : Coroutines.Step process label process') {co : Nat} {caller : Coroutines.Caller}
    (hpc : process.pc = .running co caller)
    (hclean : ∀ x session, label = .wait x session → (process.co x).result.exception = none)
    (hfinish : (process'.co co).finished = false) : Holders process' captured frames := by
  refine hs.moves hstep hclean fun x hx => ?_
  by_contra hfinished
  have hfinished := Bool.eq_true_of_not_eq_false hfinished
  obtain ⟨caller', hrunning⟩ := hstep.finishes (hs.framed x hx).2.2 hfinished
  rw [hpc] at hrunning
  cases hrunning
  rw [hfinish] at hfinished
  cases hfinished

/-- Frames that are unwound need nothing of their coroutine. -/
theorem Holders.setFrames (hs : Holders process captured frames) {co : Nat}
    {messages : List (Message V)} (hco : messages ≠ [] → InFunction process co) :
    Holders process captured (Function.update frames co messages) where
  slots := hs.slots
  unfinished := hs.unfinished
  created := hs.created
  counted := hs.counted
  uncrashed := hs.uncrashed
  framed x hx := by
    by_cases hne : x = co
    · subst hne
      rw [Function.update_self] at hx
      exact hco hx
    · rw [Function.update_of_ne hne] at hx
      exact hs.framed x hx

/-- What coroutines have in their hands. -/
def held (process : Coroutines.State V) (captured frames : Nat → List (Message V)) :
    Multiset (Message V) :=
  gathered frames process.created + gathered (owned process captured) process.created

/-- A step of the process takes the messages that its zombies own from them. -/
theorem Holders.held_step (hs : Holders process captured frames)
    (hstep : Coroutines.Step process label process') :
    held process captured frames = held process' captured frames
      + (if sweeps process then process.zombieCoroutines.flatMap captured else [] :
        List (Message V)) := by
  have huncaptured : ∀ co, process.created ≤ co → captured co = [] := by
    intro co hco
    by_contra hne
    exact absurd (hs.created co hne) (Nat.not_lt.mpr hco)
  have hunframed : ∀ co, process.created ≤ co → frames co = [] := by
    intro co hco
    by_contra hne
    exact absurd (hs.framed co hne).1 (Nat.not_lt.mpr hco)
  have hframes := gathered_extend hstep.created_le hunframed
  have howned : gathered (owned process' captured) process'.created
      = gathered (owned process' captured) process.created := by
    refine gathered_extend hstep.created_le fun co hco => ?_
    rw [owned, huncaptured co hco, ite_self]
  set dead := if sweeps process then process.zombieCoroutines else [] with hdead
  have hcounts : ∀ co, dead.count co
      = if sweeps process then process.zombieCoroutines.count co else 0 := by
    intro co
    rw [hdead]
    split <;> rfl
  have hswept : ∀ co < process.created, (owned process captured co : Multiset (Message V))
      = owned process' captured co + dead.count co • (captured co : Multiset (Message V)) := by
    intro co hco
    by_cases hnil : captured co = []
    · simp only [owned, hnil, ite_self, Multiset.coe_nil, nsmul_zero, add_zero]
    · have hcount := hs.counted co
      rw [Coroutines.State.entries_count, Coroutines.born, if_pos hco] at hcount
      have hdestroyed := destroyed_step hstep hco
      rw [← hcounts] at hdestroyed
      have hle : dead.count co ≤ process.zombieCoroutines.count co := by
        rw [hcounts]
        split <;> omega
      obtain hzero | ⟨hbefore, hone⟩ : dead.count co = 0
          ∨ ((process.co co).destroyed = 0 ∧ dead.count co = 1) := by omega
      · rw [hzero, Nat.add_zero] at hdestroyed
        rw [hzero, zero_nsmul, add_zero, owned, owned, hdestroyed]
      · rw [hone, one_nsmul, owned, owned, if_pos hbefore, if_neg (by omega), Multiset.coe_nil,
          zero_add]
  have hgathered := gathered_flatMap
    (fun co (_ : co ∈ dead) => (Nat.lt_or_ge co process.created).imp_right (huncaptured co)) hswept
  have hflat : dead.flatMap captured
      = if sweeps process then process.zombieCoroutines.flatMap captured else [] := by
    rw [hdead]
    split <;> rfl
  rw [held, held, hframes, howned, hgathered, hflat, add_assoc]

theorem Holders.held_kept (hs : Holders process captured frames)
    (hstep : Coroutines.Step process label process') (hsweeps : sweeps process = false) :
    held process captured frames = held process' captured frames := by
  have hheld := hs.held_step hstep
  rwa [hsweeps, if_neg Bool.false_ne_true, Multiset.coe_nil, add_zero] at hheld

theorem held_setFrames (captured frames : Nat → List (Message V)) {co : Nat}
    (hco : co < process.created) (messages : List (Message V)) :
    held process captured (Function.update frames co messages) + frames co
      = held process captured frames + messages := by
  rw [held, held, add_right_comm, gathered_update frames hco messages, add_right_comm]

theorem held_push (captured frames : Nat → List (Message V)) {co : Nat}
    (hco : co < process.created) (msg : Message V) :
    held process captured (Function.update frames co (msg :: frames co))
      = held process captured frames + {msg} := by
  refine add_right_cancel (b := (frames co : Multiset (Message V))) ?_
  rw [held_setFrames captured frames hco, ← Multiset.cons_coe, ← Multiset.singleton_add, add_assoc]

theorem held_pop (captured : Nat → List (Message V)) {co : Nat} (hco : co < process.created)
    {msg : Message V} {rest : List (Message V)} (hframes : frames co = msg :: rest) :
    held process captured frames
      = held process captured (Function.update frames co rest) + {msg} := by
  rw [← held_push captured (Function.update frames co rest) hco, Function.update_self,
    Function.update_idem, ← hframes, Function.update_eq_self]

/-- A coroutine is spawned for a message. -/
theorem Holders.capture (hs : Holders process captured frames) {co : Nat}
    {caller : Coroutines.Caller} (hpc : process.pc = .running co caller) (msg : Message V) :
    Holders process.spawn (Function.update captured process.created [msg]) frames
      ∧ held process.spawn (Function.update captured process.created [msg]) frames
        = held process captured frames + {msg} := by
  have hstep := Coroutines.Step.spawn co caller hpc
  obtain ⟨hcreated, -, hunfinished⟩ := hs.running hpc
  have hspawn : Holders process.spawn captured frames := by
    refine hs.call hstep hpc (fun _ _ hlabel => by cases hlabel) ?_
    change (Function.update process.co process.created .create co).finished = false
    rw [Function.update_of_ne (Nat.ne_of_lt hcreated)]
    exact hunfinished
  refine ⟨⟨hspawn.slots, hspawn.unfinished, fun x hx => ?_, hspawn.counted, hspawn.uncrashed,
    hspawn.framed⟩, ?_⟩
  · by_cases hne : x = process.created
    · subst hne
      exact Nat.lt_succ_self _
    · rw [Function.update_of_ne hne] at hx
      exact hspawn.created x hx
  · have hnil : captured process.created = [] := by
      by_contra hne
      exact Nat.lt_irrefl _ (hs.created _ hne)
    have hnew : (process.spawn.co process.created).destroyed = 0 := by
      change (Function.update process.co process.created .create process.created).destroyed = 0
      rw [Function.update_self]
      rfl
    have howned : owned process.spawn (Function.update captured process.created [msg])
        = Function.update (owned process.spawn captured) process.created [msg] := by
      funext x
      by_cases hne : x = process.created
      · rw [hne, owned, hnew, if_pos rfl, Function.update_self, Function.update_self]
      · rw [owned, Function.update_of_ne hne, Function.update_of_ne hne, owned]
    have hupdate := gathered_update (owned process.spawn captured) (Nat.lt_succ_self process.created)
      [msg]
    rw [owned, hnil, ite_self, Multiset.coe_nil, add_zero, ← howned] at hupdate
    rw [hs.held_kept hstep (by simp only [sweeps, hpc]), held, held, add_assoc]
    exact congrArg _ hupdate

theorem sweeps_resume {co : Nat} {outcome : Option (Coroutines.Outcome V)}
    (hstep : Coroutines.Step process (.resume co outcome) process') : sweeps process = false := by
  cases hstep with
  | resumeSpawned _ _ hpc | resumeWoken _ _ hpc | unwind _ _ hpc => simp only [sweeps, hpc]

end Process

/-! ### Where each message is -/

structure Accounted (s : State T V) : Prop where
  holders : Holders s.process s.captured s.frames
  places : (s.pushed : Multiset (Message V)) = s.mailbox.messages + s.process.inbox
    + held s.process s.captured s.frames + s.destroyed

omit [DecidableEq T] in
theorem accounted_fresh : Accounted (State.fresh : State T V) where
  holders :=
    { slots := Coroutines.slots_fresh
      unfinished _ _ hpc := by cases hpc
      created _ hco := absurd rfl hco
      counted co := (Coroutines.tidy_fresh.count co).le
      uncrashed := Coroutines.tidy_fresh.uncrashed
      framed _ hco := absurd rfl hco }
  places := by
    have hnone : owned (Coroutines.State.fresh : Coroutines.State V) (fun _ => []) = fun _ => [] :=
      funext fun _ => ite_self _
    simp only [State.fresh, held, hnone, gathered_eq_zero (fun _ _ => rfl)]
    rfl

section Steps

variable {s : State T V} {process : Coroutines.State V} {label : Coroutines.Label V}

omit [DecidableEq T] in
/-- The coroutine that runs leaves the inbox alone, or the process resumes a coroutine. -/
theorem Accounted.kept (hs : Accounted s) (hstep : Coroutines.Step s.process label process)
    (hsweeps : sweeps s.process = false) (hinbox : process.inbox = s.process.inbox) :
    (s.pushed : Multiset (Message V)) = s.mailbox.messages + process.inbox
      + held process s.captured s.frames + s.destroyed := by
  rw [hs.places, hinbox, hs.holders.held_kept hstep hsweeps]

omit [DecidableEq T] in
theorem Accounted.loop (hs : Accounted s) (hstep : Coroutines.Step s.process label process)
    (hloop : s.process.pc.current = []) (htaking : s.process.pc ≠ .taking) :
    Accounted (s.loop process) where
  holders := hs.holders.loop hstep hloop
  places := by
    simp only [State.loop, State.destroy, ← Multiset.coe_add]
    rw [hs.places, hstep.loop_inbox hloop htaking, hs.holders.held_step hstep]
    abel

omit [DecidableEq T] in
theorem Accounted.receive (hs : Accounted s) {msg : Message V} (hpc : s.process.pc = .taking)
    (htake : s.mailbox.take.1 = some msg) : Accounted (s.receive msg) where
  holders := hs.holders.loop (.take msg hpc) (by rw [hpc]; rfl)
  places := by
    have hheld := hs.holders.held_kept (.take msg hpc) (by simp only [sweeps, hpc])
    simp only [State.receive, State.destroy, receive_inbox, ← Multiset.coe_add]
    rw [hs.places, Mailbox.take_some htake, hheld, ← Multiset.cons_coe, ← Multiset.singleton_add]
    cases inboxed msg with
    | false =>
        simp only [Bool.false_eq_true, if_false, Multiset.coe_nil, Multiset.coe_singleton]
        abel
    | true =>
        simp only [if_true, Multiset.coe_nil, Multiset.coe_singleton]
        abel

omit [DecidableEq T] in
theorem Accounted.finish (hs : Accounted s) {co : Nat} {caller : Coroutines.Caller}
    (hpc : s.process.pc = .running co caller) (e : Thrown) :
    Accounted (s.finish co caller e) := by
  have hstep := Coroutines.Step.finish co caller e hpc
  have hunwound : Holders s.process s.captured (Function.update s.frames co []) :=
    hs.holders.setFrames fun hnil => absurd rfl hnil
  have hended : Holders ((s.process.finish co e).switchBack co caller) s.captured
      (Function.update s.frames co []) := by
    refine hunwound.moves hstep (fun _ _ hlabel => by cases hlabel) fun x hx => ?_
    have hne : x ≠ co := by
      rintro rfl
      exact hx (Function.update_self _ _ _)
    exact ((s.process.finish_same co caller e x).2.2.trans (if_neg hne)).trans
      (hunwound.framed x hx).2.2
  have hcleared := held_setFrames s.captured s.frames (hs.holders.running hpc).1 []
  rw [Multiset.coe_nil, add_zero, hunwound.held_kept hstep (by simp only [sweeps, hpc])] at hcleared
  refine ⟨hended, ?_⟩
  simp only [State.finish, State.destroy, ← Multiset.coe_add]
  rw [hs.places, ← hcleared, ((s.process.finish co e).switchBack_inbox co caller).1]
  change _ = (s.mailbox.messages : Multiset (Message V)) + s.process.inbox + _ + _
  abel

omit [DecidableEq T] in
/-- A message is out of the inbox. -/
theorem Accounted.takeFront (hs : Accounted s) {co : Nat} {caller : Coroutines.Caller}
    {msg : Message V} {rest : List (Message V)} (hpc : s.process.pc = .running co caller)
    (hinbox : s.process.inbox = msg :: rest) :
    let s' := s.takeFront co rest
    Holders s'.process s'.captured s'.frames ∧ (s'.pushed : Multiset (Message V))
      = s'.mailbox.messages + s'.process.inbox + held s'.process s'.captured s'.frames
        + s'.destroyed + {msg} := by
  have hstep := Coroutines.Step.takeInbox co caller msg rest hpc hinbox
  refine ⟨hs.holders.call hstep hpc (fun _ _ hlabel => by cases hlabel)
    (hs.holders.running hpc).2.2, ?_⟩
  refine hs.places.trans ?_
  rw [hinbox, ← Multiset.cons_coe, ← Multiset.singleton_add]
  change _ = (s.mailbox.messages : Multiset (Message V)) + rest
    + held s.process s.captured s.frames + s.destroyed + {msg}
  abel

omit [DecidableEq T] in
/-- It is destroyed, or goes to a frame or to a coroutine. -/
theorem accounted_give {co : Nat} {caller : Coroutines.Caller} {msg : Message V}
    (hholders : Holders s.process s.captured s.frames) (hpc : s.process.pc = .running co caller)
    (hplaces : (s.pushed : Multiset (Message V)) = s.mailbox.messages + s.process.inbox
      + held s.process s.captured s.frames + s.destroyed + {msg}) (handler : Option HandlerInfo) :
    Accounted (s.give co msg handler) := by
  have hrunning := hholders.running hpc
  cases handler with
  | none =>
      refine ⟨hholders, hplaces.trans ?_⟩
      simp only [State.give, State.destroy, ← Multiset.coe_add, Multiset.coe_singleton]
      exact add_assoc _ _ _
  | some handler =>
      obtain ⟨mode, func⟩ := handler
      cases mode with
      | kCallback =>
          refine ⟨hholders.setFrames fun _ => hrunning, hplaces.trans ?_⟩
          simp only [State.give]
          rw [held_push s.captured s.frames hrunning.1]
          abel
      | kCoroutine =>
          obtain ⟨hspawned, hheld⟩ := hholders.capture hpc msg
          refine ⟨hspawned, hplaces.trans ?_⟩
          simp only [State.give]
          rw [hheld]
          change _ = (s.mailbox.messages : Multiset (Message V)) + s.process.inbox + _ + _
          abel

omit [DecidableEq T] in
theorem Accounted.await (hs : Accounted s) {co : Nat} {caller : Coroutines.Caller}
    (hpc : s.process.pc = .running co caller) (hinbox : s.process.inbox = [])
    (hclean : (s.process.co co).result.exception = none) :
    Accounted ({ s with process :=
      ({ s.process with inboxCoroutine := some co }.suspend co).switchBack co caller }.setPhase co
        .waiting) := by
  have hlook := Coroutines.Step.awaitInbox co caller hpc hinbox
  have hwait := Coroutines.Step.suspend (s := { s.process with inboxCoroutine := some co }) co caller hpc
  have hunfinished := (hs.holders.running hpc).2.2
  have hlooked : Holders { s.process with inboxCoroutine := some co } s.captured s.frames :=
    hs.holders.call hlook hpc (fun _ _ hlabel => by cases hlabel) hunfinished
  refine ⟨hlooked.call hwait hpc (fun x session hlabel => ?_) ?_, ?_⟩
  · cases hlabel
    exact hclean
  · obtain ⟨-, -, -, -, -, -, hagrees⟩ :=
      ({ s.process with inboxCoroutine := some co }.suspend co).switchBack_spec co caller
    exact (hagrees.finished co).trans hunfinished
  · have hheld := hlooked.held_kept hwait (by simp only [sweeps, hpc])
    have hinbox' := (({ s.process with inboxCoroutine := some co }.suspend co).switchBack_inbox co
      caller).1
    simp only [State.setPhase]
    rw [← hheld, hinbox']
    exact hs.places

theorem Step.accounted {typeid : Content V → T} {s' : State T V} {label : Label V}
    (hstep : Step typeid s label s') (hclean : label.Clean s)
    (hattended : Attended s.process s.phase) (hs : Accounted s) : Accounted s' := by
  have hsweeps : ∀ {co caller}, s.process.pc = .running co caller → sweeps s.process = false :=
    fun hpc => by simp only [sweeps, hpc]
  cases hstep with
  | push msg =>
      refine ⟨hs.holders, ?_⟩
      simp only [Mailbox.append_messages, ← Multiset.coe_add]
      rw [hs.places]
      abel
  | exchange | register | proceed | destroy => exact ⟨hs.holders, hs.places⟩
  | loop label process hstep hloop htaking => exact hs.loop hstep hloop htaking
  | take msg hpc htake => exact hs.receive hpc htake
  | takeNothing hpc htake =>
      have hstep := Coroutines.Step.takeNothing hpc
      obtain ⟨hbefore, hafter⟩ := Mailbox.take_none htake
      refine ⟨hs.holders.loop hstep (by rw [hpc]; rfl), ?_⟩
      refine (hs.kept hstep (by simp only [sweeps, hpc]) rfl).trans ?_
      simp only [hbefore, hafter]
  | call co caller label process hpc hphase hstep hinbox hserver hwoken hfinish =>
      refine ⟨hs.holders.call hstep hpc (fun x session hlabel => ?_) hfinish,
        hs.kept hstep (hsweeps hpc) hinbox⟩
      subst hlabel
      exact hclean
  | wakeup co other caller hpc =>
      have hstep := Coroutines.Step.wakeup co other caller hpc
      refine ⟨hs.holders.call hstep hpc (fun _ _ hlabel => by cases hlabel) ?_,
        hs.kept hstep (hsweeps hpc) (s.process.wakeup_inbox other).1⟩
      rw [(s.process.wakeup_eq other).co]
      exact (hs.holders.running hpc).2.2
  | finish co caller e hpc => exact hs.finish hpc e
  | await co process hphase hinbox hstep =>
      cases hstep with
      | suspend co caller hpc => exact hs.await hpc hinbox hclean.1
  | awaited co value process hphase hstep =>
      have hframe := hstep.resume_frame
      exact ⟨hs.holders.loop hstep hframe.idle, hs.kept hstep (sweeps_resume hstep) hframe.inbox⟩
  | interrupted co e process hphase hstep =>
      have hframe := hstep.resume_frame
      exact ⟨hs.holders.loop hstep hframe.idle, hs.kept hstep (sweeps_resume hstep) hframe.inbox⟩
  | handle co caller msg rest hpc hphase hinbox =>
      obtain ⟨hholders, hplaces⟩ := hs.takeFront hpc hinbox
      exact accounted_give hholders hpc hplaces _
  | handleNothing co caller hpc hphase hinbox =>
      exact absurd hinbox (hattended.taking co hphase).1
  | handled co caller msg rest hpc hphase hframes =>
      have hrunning := hs.holders.running hpc
      refine ⟨hs.holders.setFrames fun _ => hrunning, ?_⟩
      simp only [State.destroy, ← Multiset.coe_add, Multiset.coe_singleton]
      rw [hs.places, held_pop s.captured hrunning.1 hframes]
      abel
  | drainInbox msg rest hstage hinbox =>
      obtain ⟨⟨hslots, hunfinished, hcreated, hcounted, huncrashed, hframed⟩, hplaces⟩ := hs
      refine ⟨⟨⟨hslots.once, hslots.slot, hslots.unstarted, hslots.unanswered⟩, hunfinished,
        hcreated, hcounted, huncrashed, hframed⟩, ?_⟩
      simp only [State.destroy, ← Multiset.coe_add, Multiset.coe_singleton]
      rw [hplaces, hinbox, ← Multiset.cons_coe, ← Multiset.singleton_add]
      change _ = (s.mailbox.messages : Multiset (Message V)) + rest
        + held s.process s.captured s.frames + (s.destroyed + {msg})
      abel
  | drainMailbox msg hstage hinbox htake =>
      refine ⟨hs.holders, ?_⟩
      simp only [State.destroy, ← Multiset.coe_add, Multiset.coe_singleton]
      rw [hs.places, Mailbox.take_some htake, ← Multiset.cons_coe, ← Multiset.singleton_add]
      abel
  | drained hstage hinbox htake =>
      obtain ⟨hbefore, hafter⟩ := Mailbox.take_none htake
      refine ⟨hs.holders, hs.places.trans ?_⟩
      simp only [hbefore, hafter]

end Steps

/-! ### The order of the messages -/

structure Sequenced (s : State T V) : Prop where
  order : s.taken ++ s.mailbox.messages = s.pushed
  inOrder : handed s.log <+: s.taken.filter inboxed
  queued : s.stage = .alive → handed s.log ++ s.process.inbox = s.taken.filter inboxed
  down : s.stage ≠ .alive → s.process.pc = .down
  emptied : s.stage = .gone → s.process.inbox = [] ∧ s.mailbox.messages = []

omit [DecidableEq T] in
theorem sequenced_fresh : Sequenced (State.fresh : State T V) where
  order := rfl
  inOrder := List.nil_prefix
  queued _ := rfl
  down hstage := absurd rfl hstage
  emptied hgone := by cases hgone

omit [DecidableEq T] in
theorem State.give_spec (s : State T V) (co : Nat) (msg : Message V)
    (handler : Option HandlerInfo) :
    (s.give co msg handler).pushed = s.pushed ∧ (s.give co msg handler).taken = s.taken
      ∧ (s.give co msg handler).mailbox = s.mailbox ∧ (s.give co msg handler).stage = s.stage
      ∧ (s.give co msg handler).process.inbox = s.process.inbox
      ∧ (s.give co msg handler).messageHandlers = s.messageHandlers := by
  cases handler with
  | none => exact ⟨rfl, rfl, rfl, rfl, rfl, rfl⟩
  | some handler =>
      obtain ⟨mode, func⟩ := handler
      cases mode <;> exact ⟨rfl, rfl, rfl, rfl, rfl, rfl⟩

omit [DecidableEq T] in
/-- The handler gets the message. -/
theorem State.give_log (s : State T V) (co : Nat) (msg : Message V)
    (handler : Option HandlerInfo) :
    ∃ event, (s.give co msg handler).log = s.log ++ [event]
      ∧ event.handed = some (msg, handler) := by
  cases handler with
  | none => exact ⟨.dropped msg, rfl, rfl⟩
  | some handler =>
      obtain ⟨mode, func⟩ := handler
      cases mode with
      | kCallback => exact ⟨.called func msg, rfl, rfl⟩
      | kCoroutine => exact ⟨.spawned func msg, rfl, rfl⟩

omit [DecidableEq T] in
theorem handed_concat {log : List (Event T V)} {event : Event T V} {msg : Message V}
    {handler : Option HandlerInfo} (hevent : event.handed = some (msg, handler)) :
    handed (log ++ [event]) = handed log ++ [msg] := by
  rw [handed, List.filterMap_append, handed]
  simp [hevent]

section Steps

variable {s : State T V} {process : Coroutines.State V} {label : Coroutines.Label V}

omit [DecidableEq T] in
theorem Sequenced.alive (hs : Sequenced s) (hstep : Coroutines.Step s.process label process) :
    s.stage = .alive := by
  by_contra hstage
  exact hstep.not_down (hs.down hstage)

omit [DecidableEq T] in
/-- A step of the process that leaves the inbox alone. -/
theorem Sequenced.kept (hs : Sequenced s) (hstep : Coroutines.Step s.process label process)
    (hinbox : process.inbox = s.process.inbox) :
    handed s.log ++ process.inbox = s.taken.filter inboxed ∧ s.stage ≠ .gone := by
  have halive := hs.alive hstep
  refine ⟨?_, by rw [halive]; nofun⟩
  rw [hinbox]
  exact hs.queued halive

omit [DecidableEq T] in
theorem Sequenced.take (hs : Sequenced s) {msg : Message V}
    (htake : s.mailbox.take.1 = some msg) :
    s.taken ++ [msg] ++ s.mailbox.take.2.messages = s.pushed := by
  rw [← hs.order, Mailbox.take_some htake, List.append_assoc]
  rfl

theorem filter_inboxed (taken : List (Message V)) (msg : Message V) :
    (taken ++ [msg]).filter inboxed
      = taken.filter inboxed ++ if inboxed msg then [msg] else [] := by
  rw [List.filter_append, List.filter_singleton]
  cases inboxed msg <;> rfl

theorem Step.sequenced {typeid : Content V → T} {s' : State T V} {label : Label V}
    (hstep : Step typeid s label s') (hs : Sequenced s) : Sequenced s' := by
  have hdown := hstep.down hs.down
  cases hstep with
  | push msg hstage =>
      refine ⟨?_, hs.inOrder, hs.queued, hdown, fun hgone => ?_⟩
      · simp only [Mailbox.append_messages]
        rw [← List.append_assoc, hs.order]
      · rw [hstage] at hgone
        cases hgone
  | exchange | handled | proceed => exact ⟨hs.order, hs.inOrder, hs.queued, hdown, hs.emptied⟩
  | register type handler =>
      have hlog : handed (s.log ++ [.registered type handler]) = handed s.log := by
        rw [handed, List.filterMap_append]
        exact List.append_nil _
      refine ⟨hs.order, ?_, fun halive => ?_, hdown, hs.emptied⟩
      · rw [State.register, hlog]
        exact hs.inOrder
      · rw [State.register, hlog]
        exact hs.queued halive
  | loop label process hstep hloop htaking =>
      obtain ⟨hqueued, hgone⟩ := hs.kept hstep (hstep.loop_inbox hloop htaking)
      exact ⟨hs.order, hs.inOrder, fun _ => hqueued, hdown, fun h => absurd h hgone⟩
  | take msg hpc htake =>
      have halive := hs.alive (.take msg hpc)
      refine ⟨hs.take htake, ?_, fun _ => ?_, hdown, fun hgone => ?_⟩
      · exact hs.inOrder.trans (by rw [State.receive, filter_inboxed]; exact List.prefix_append _ _)
      · change _ ++ (s.process.receive msg).inbox = (s.taken ++ [msg]).filter inboxed
        rw [receive_inbox, filter_inboxed, ← List.append_assoc]
        exact congrArg (· ++ _) (hs.queued halive)
      · cases halive.symm.trans hgone
  | takeNothing hpc htake =>
      obtain ⟨hqueued, hgone⟩ := hs.kept (.takeNothing hpc) rfl
      obtain ⟨hbefore, hafter⟩ := Mailbox.take_none htake
      refine ⟨?_, hs.inOrder, fun _ => hqueued, hdown, fun h => absurd h hgone⟩
      simp only [hafter, ← hs.order, hbefore]
  | call co caller label process hpc hphase hstep hinbox =>
      obtain ⟨hqueued, hgone⟩ := hs.kept hstep hinbox
      exact ⟨hs.order, hs.inOrder, fun _ => hqueued, hdown, fun h => absurd h hgone⟩
  | wakeup co other caller hpc =>
      obtain ⟨hqueued, hgone⟩ :=
        hs.kept (.wakeup co other caller hpc) (s.process.wakeup_inbox other).1
      exact ⟨hs.order, hs.inOrder, fun _ => hqueued, hdown, fun h => absurd h hgone⟩
  | finish co caller e hpc =>
      obtain ⟨hqueued, hgone⟩ := hs.kept (.finish co caller e hpc)
        ((s.process.finish co e).switchBack_inbox co caller).1
      exact ⟨hs.order, hs.inOrder, fun _ => hqueued, hdown, fun h => absurd h hgone⟩
  | await co process hphase hinbox hstep =>
      cases hstep with
      | suspend co caller hpc =>
          obtain ⟨-, hgone⟩ := hs.kept (.suspend co caller hpc)
            ((s.process.suspend co).switchBack_inbox co caller).1
          refine ⟨hs.order, hs.inOrder, fun halive => ?_, hdown, fun h => absurd h hgone⟩
          have hinbox' :=
            (({ s.process with inboxCoroutine := some co }.suspend co).switchBack_inbox co caller).1
          rw [State.setPhase, hinbox']
          exact hs.queued halive
  | awaited co value process hphase hstep | interrupted co value process hphase hstep =>
      obtain ⟨hqueued, hgone⟩ := hs.kept hstep hstep.resume_frame.inbox
      exact ⟨hs.order, hs.inOrder, fun _ => hqueued, hdown, fun h => absurd h hgone⟩
  | handle co caller msg rest hpc hphase hinbox =>
      have halive := hs.alive (.wakeup co co caller hpc)
      have hqueued := hs.queued halive
      rw [hinbox, List.append_cons] at hqueued
      obtain ⟨hpushed, htaken, hmailbox, hstage, hrest, -⟩ :=
        (s.takeFront co rest).give_spec co msg (s.messageHandlers (typeid msg.content))
      obtain ⟨event, hlog, hevent⟩ :=
        (s.takeFront co rest).give_log co msg (s.messageHandlers (typeid msg.content))
      have hhanded : handed (s.handle typeid co msg rest).log = handed s.log ++ [msg] := by
        rw [State.handle, hlog, handed_concat hevent]
        rfl
      refine ⟨?_, ?_, fun _ => ?_, hdown, fun hgone => ?_⟩
      · rw [State.handle, hpushed, htaken, hmailbox]
        exact hs.order
      · rw [hhanded, State.handle, htaken]
        exact ⟨rest, hqueued⟩
      · rw [hhanded, State.handle, htaken, hrest]
        exact hqueued
      · rw [State.handle, hstage] at hgone
        cases halive.symm.trans hgone
  | handleNothing co caller hpc =>
      have halive := hs.alive (.wakeup co co caller hpc)
      exact ⟨hs.order, hs.inOrder, hs.queued, hdown, fun hgone => by cases halive.symm.trans hgone⟩
  | destroy hpc hstage =>
      exact ⟨hs.order, hs.inOrder, nofun, hdown, nofun⟩
  | drainInbox msg rest hstage hinbox =>
      refine ⟨hs.order, hs.inOrder, fun halive => ?_, hdown, fun hgone => ?_⟩
      · cases hstage.symm.trans halive
      · cases hstage.symm.trans hgone
  | drainMailbox msg hstage hinbox htake =>
      refine ⟨hs.take htake, ?_, fun halive => ?_, hdown, fun hgone => ?_⟩
      · simp only [State.destroy, filter_inboxed]
        exact hs.inOrder.trans (List.prefix_append _ _)
      · cases hstage.symm.trans halive
      · cases hstage.symm.trans hgone
  | drained hstage hinbox htake =>
      obtain ⟨hbefore, hafter⟩ := Mailbox.take_none htake
      refine ⟨?_, hs.inOrder, nofun, hdown, fun _ => ⟨hinbox, hafter⟩⟩
      simp only [hafter, ← hs.order, hbefore]

end Steps

/-! ### Who gets a message -/

/-- The table of handlers has what was registered, and every message went to the handler that it had
for its type. -/
structure Looked (typeid : Content V → T) (s : State T V) : Prop where
  handlers : ∀ type, s.messageHandlers type = registered s.log type
  byType : Allows (ByType typeid) s.log

theorem registered_handed {log : List (Event T V)} {event : Event T V} {msg : Message V}
    {handler : Option HandlerInfo} (hevent : event.handed = some (msg, handler)) (type : T) :
    registered (log ++ [event]) type = registered log type := by
  have hnone : event.registers type = none := by
    cases event with
    | registered => cases hevent
    | called | spawned | dropped => rfl
  simp only [registered, List.filterMap_append, List.filterMap_cons, hnone, List.filterMap_nil,
    List.append_nil]

theorem registered_registered (log : List (Event T V)) (type other : T) (handler : HandlerInfo) :
    registered (log ++ [.registered other handler]) type
      = if type = other then some handler else registered log type := by
  simp only [registered, List.filterMap_append, List.filterMap_cons, List.filterMap_nil,
    Event.registers]
  by_cases htype : type = other
  · simp [htype]
  · simp [htype, Ne.symm htype]

theorem Step.looked {typeid : Content V → T} {s s' : State T V} {label : Label V}
    (hstep : Step typeid s label s') (hs : Looked typeid s) : Looked typeid s' := by
  cases hstep with
  | register type handler =>
      refine ⟨fun other => ?_, hs.byType.concat fun _ _ => nofun⟩
      simp only [State.register, registered_registered, Function.update_apply, hs.handlers]
  | handle co caller msg rest =>
      obtain ⟨-, -, -, -, -, hhandlers⟩ :=
        (s.takeFront co rest).give_spec co msg (s.messageHandlers (typeid msg.content))
      obtain ⟨event, hlog, hevent⟩ :=
        (s.takeFront co rest).give_log co msg (s.messageHandlers (typeid msg.content))
      refine ⟨fun type => ?_, ?_⟩
      · rw [State.handle, hhandlers, hlog, registered_handed hevent]
        exact hs.handlers type
      · rw [State.handle, hlog]
        refine hs.byType.concat fun msg' handler hhanded => ?_
        rw [hevent, Option.some.injEq, Prod.mk.injEq] at hhanded
        obtain ⟨rfl, rfl⟩ := hhanded
        exact hs.handlers _
  | _ => exact ⟨hs.handlers, hs.byType⟩

/-! ### Delivery -/

theorem Accounted.delivered {typeid : Content V → T} {s : State T V} (hs : Accounted s)
    (hsequenced : Sequenced s) (hlooked : Looked typeid s)
    (hattended : Attended s.process s.phase) : Delivered typeid s where
  order := hsequenced.order
  inOrder := by
    refine hsequenced.inOrder.trans ?_
    rw [← hsequenced.order, List.filter_append]
    exact List.prefix_append _ _
  byType := hlooked.byType
  found co hphase := (hattended.taking co hphase).1
  uncrashed := hs.holders.uncrashed
  places := by
    rw [hs.places, Mailbox.messages, ← Multiset.coe_add, held, State.framed, State.possessed]
    abel
  all hgone hcoroutines := by
    obtain ⟨hinbox, hmessages⟩ := hsequenced.emptied hgone
    have hframed : gathered s.frames s.process.created = 0 := by
      refine gathered_eq_zero fun co hco => ?_
      by_contra hframes
      obtain ⟨-, hstarted, hunfinished⟩ := hs.holders.framed co hframes
      obtain ⟨-, hfinished | hunstarted⟩ := hcoroutines co hco
      · exact Bool.false_ne_true (hunfinished.symm.trans hfinished)
      · exact Bool.false_ne_true (hunstarted.symm.trans hstarted)
    have howned : gathered (owned s.process s.captured) s.process.created = 0 := by
      refine gathered_eq_zero fun co hco => ?_
      rw [owned, if_neg (hcoroutines co hco).1]
    have hplaces := hs.places
    rw [held, hframed, howned, hinbox, hmessages, Multiset.coe_nil, add_zero, add_zero, zero_add]
      at hplaces
    exact (Multiset.coe_eq_coe.mp hplaces).symm

/-- What is known of a run whose steps are clean. -/
structure Kept (typeid : Content V → T) (s : State T V) : Prop where
  accounted : Accounted s
  sequenced : Sequenced s
  looked : Looked typeid s
  attended : Attended s.process s.phase

theorem Step.kept {typeid : Content V → T} {s s' : State T V} {label : Label V}
    (hstep : Step typeid s label s') (hclean : label.Clean s) (hs : Kept typeid s) :
    Kept typeid s' where
  accounted := hstep.accounted hclean hs.attended hs.accounted
  sequenced := hstep.sequenced hs.sequenced
  looked := hstep.looked hs.looked
  attended := hstep.attended hclean hs.sequenced.down hs.attended

theorem kept_fresh (typeid : Content V → T) : Kept typeid (State.fresh : State T V) where
  accounted := accounted_fresh
  sequenced := sequenced_fresh
  looked := ⟨fun _ => rfl, .nil⟩
  attended := ⟨Coroutines.slots_fresh, fun _ _ h => absurd rfl h, fun _ _ => nofun, fun _ => nofun⟩

/-- **Delivery.** In a run in which one coroutine at a time serves, nobody but the process wakes it
while it waits for a message, and no coroutine starts to wait with an exception in its `Result`,
messages are delivered in order and to the handlers for their types, each is in one place, and each is
destroyed once. -/
theorem messages_delivered {typeid : Content V → T} {s : State T V}
    (hs : ((system typeid).restrict fun s label => label.Clean s).Reachable s) :
    Delivered typeid s := by
  suffices hkept : Kept typeid s from
    hkept.accounted.delivered hkept.sequenced hkept.looked hkept.attended
  refine System.Reachable.invariant ?_ ?_ hs
  · rintro s rfl
    exact kept_fresh typeid
  · intro s label s' _ hs ⟨hstep, hclean⟩
    exact hstep.kept hclean hs

/-- A request is handed over to a coroutine of its own, which blocks. The process is killed, and ends
with another request in its mailbox. -/
theorem messages_delivered_killed :
    ∃ s : State Nat Nat, s.stage = .gone
      ∧ s.pushed = [⟨9, 3, .value 7⟩, ⟨9, 0, .killProcess⟩, ⟨9, 4, .value 8⟩]
      ∧ s.log = [.registered 1 ⟨.kCallback, 2⟩, .registered 0 ⟨.kCoroutine, 1⟩,
        .spawned 1 ⟨9, 3, .value 7⟩]
      ∧ s.destroyed.Perm s.pushed ∧ Delivered (fun _ => 0) s := by
  have h0 : ((system fun _ : Content Nat => 0).restrict fun s label => label.Clean s).Reachable
      (State.fresh : State Nat Nat) := .of_init rfl
  have h1 := h0.step ⟨.loop _ _ (.dispatch rfl) rfl nofun nofun, trivial⟩
  have h2 := h1.step ⟨.loop _ _ (.enter rfl (Or.inl (List.cons_ne_nil _ _))) rfl nofun nofun,
    trivial⟩
  have h3 := h2.step ⟨.loop _ _ (.resumeSpawned 0 [] rfl rfl ⟨rfl, rfl⟩) rfl nofun
    fun _ _ _ => nofun, trivial⟩
  have h4 := h3.step ⟨.register 1 ⟨.kCallback, 2⟩ (Or.inr ⟨0, _, rfl, rfl⟩), trivial⟩
  have h5 := h4.step ⟨.register 0 ⟨.kCoroutine, 1⟩ (Or.inr ⟨0, _, rfl, rfl⟩), trivial⟩
  have h6 := h5.step ⟨.await 0 _ rfl rfl (.suspend 0 .spawning rfl), rfl, fun _ => rfl⟩
  have h7 := h6.step ⟨.loop _ _ (.spawningDone rfl rfl) rfl nofun nofun, trivial⟩
  have h8 := h7.step ⟨.loop _ _ (.wakingDone rfl rfl (Or.inl rfl)) rfl nofun nofun, trivial⟩
  have h9 := h8.step ⟨.loop _ _ (.leave rfl (by decide)) rfl nofun nofun, trivial⟩
  have h10 := h9.step ⟨.loop _ _ (.dispatched rfl) rfl nofun nofun, trivial⟩
  have h11 := h10.step ⟨.push ⟨9, 3, .value 7⟩ rfl, trivial⟩
  have h12 := h11.step ⟨.take ⟨9, 3, .value 7⟩ rfl rfl, trivial⟩
  have h13 := h12.step ⟨.loop _ _ (.dispatch rfl) rfl nofun nofun, trivial⟩
  have h14 := h13.step ⟨.loop _ _ (.enter rfl (Or.inr (Or.inr ⟨List.cons_ne_nil _ _, rfl⟩))) rfl
    nofun nofun, trivial⟩
  have h15 := h14.step ⟨.loop _ _ (.spawningDone rfl rfl) rfl nofun nofun, trivial⟩
  have h16 := h15.step ⟨.loop _ _ (.wakeServer 0 rfl rfl (List.cons_ne_nil _ _) rfl) rfl nofun
    nofun, trivial⟩
  have h17 := h16.step ⟨.loop _ _ (.enter rfl (Or.inr (Or.inl (List.cons_ne_nil _ _)))) rfl nofun
    nofun, trivial⟩
  have h18 := h17.step ⟨.loop _ _ (.spawningDone rfl rfl) rfl nofun nofun, trivial⟩
  have h19 := h18.step ⟨.awaited 0 .empty _ rfl (.resumeWoken 0 [] rfl rfl ⟨rfl, rfl⟩), trivial⟩
  have h20 := h19.step ⟨.handle 0 .waking ⟨9, 3, .value 7⟩ [] rfl rfl rfl, trivial⟩
  have haway : ∀ other, Function.update (Function.update (Function.update (fun _ => Phase.away) 0
      .waiting) 0 .taking) 0 .away other = .away := by
    intro other
    by_cases hother : other = 0
    · rw [hother, Function.update_self]
    · rw [Function.update_of_ne hother, Function.update_of_ne hother, Function.update_of_ne hother]
  have h21 := h20.step ⟨.await 0 _ rfl rfl (.suspend 0 .waking rfl), rfl, haway⟩
  have h22 := h21.step ⟨.loop _ _ (.wakingDone rfl rfl (Or.inl rfl)) rfl nofun nofun, trivial⟩
  have h23 := h22.step ⟨.loop _ _ (.enter rfl (Or.inl (List.cons_ne_nil _ _))) rfl nofun nofun,
    trivial⟩
  have h24 := h23.step ⟨.loop _ _ (.resumeSpawned 1 [] rfl rfl ⟨rfl, rfl⟩) rfl nofun
    fun _ _ hlabel => by cases hlabel; nofun, trivial⟩
  have h25 := h24.step ⟨.call 1 .spawning _ _ rfl rfl (.block 1 .spawning 5 rfl) rfl rfl
    (fun _ => id) rfl, rfl⟩
  have h26 := h25.step ⟨.loop _ _ (.spawningDone rfl rfl) rfl nofun nofun, trivial⟩
  have h27 := h26.step ⟨.loop _ _ (.wakingDone rfl rfl (Or.inl rfl)) rfl nofun nofun, trivial⟩
  have h28 := h27.step ⟨.loop _ _ (.leave rfl (by decide)) rfl nofun nofun, trivial⟩
  have h29 := h28.step ⟨.loop _ _ (.dispatched rfl) rfl nofun nofun, trivial⟩
  have h30 := h29.step ⟨.push ⟨9, 0, .killProcess⟩ rfl, trivial⟩
  have h31 := h30.step ⟨.push ⟨9, 4, .value 8⟩ rfl, trivial⟩
  have h32 := h31.step ⟨.take ⟨9, 0, .killProcess⟩ rfl rfl, trivial⟩
  have h33 := h32.step ⟨.loop _ _ (.interrupt [1] [0] rfl (List.Perm.refl _) (List.Perm.refl _)) rfl
    nofun nofun, trivial⟩
  have h34 := h33.step ⟨.loop _ _ (.unwind 1 [0] rfl rfl ⟨rfl, rfl⟩) rfl nofun
    fun _ _ hlabel => by cases hlabel; nofun, trivial⟩
  have h35 := h34.step ⟨.finish 1 .unwinding .coroutineExit rfl rfl, trivial⟩
  have h36 := h35.step ⟨.interrupted 0 .coroutineExit _ rfl (.unwind 0 [] rfl rfl ⟨rfl, rfl⟩),
    trivial⟩
  have h37 := h36.step ⟨.finish 0 .unwinding .coroutineExit rfl rfl, trivial⟩
  have h38 := h37.step ⟨.loop _ _ (.interrupt [] [] rfl (List.Perm.refl _) (List.Perm.refl _)) rfl
    nofun nofun, trivial⟩
  have h39 := h38.step ⟨.loop _ _ (.abandon rfl) rfl nofun nofun, trivial⟩
  have h40 := h39.step ⟨.loop _ _ (.sweep rfl) rfl nofun nofun, trivial⟩
  have h41 := h40.step ⟨.loop _ _ (.exited rfl) rfl nofun nofun, trivial⟩
  have h42 := h41.step ⟨.destroy rfl rfl, trivial⟩
  have h43 := h42.step ⟨.drainMailbox ⟨9, 4, .value 8⟩ rfl rfl rfl, trivial⟩
  have h44 := h43.step ⟨.drained rfl rfl rfl, trivial⟩
  have hdelivered := messages_delivered h44
  exact ⟨_, rfl, rfl, rfl, hdelivered.all rfl (by decide), hdelivered⟩

/-- A coroutine has a message, blocks, and is given an exception, which it catches. It suspends
itself, so it is among the zombies, and it is woken and ends, so it is there twice. -/
theorem message_destroyed_twice :
    ∃ s : State Nat Nat, (system fun _ => 0).Reachable s
      ∧ (∀ co < s.process.created, (s.process.co co).destroyed ≠ 0 →
        (s.process.co co).finished = true)
      ∧ s.pushed = [⟨9, 3, .value 7⟩, ⟨9, -5, .exception .abortedRequest⟩]
      ∧ s.destroyed = [⟨9, -5, .exception .abortedRequest⟩, ⟨9, 3, .value 7⟩, ⟨9, 3, .value 7⟩]
      ∧ ¬ Delivered (fun _ => 0) s := by
  have h0 : (system fun _ : Content Nat => 0).Reachable (State.fresh : State Nat Nat) :=
    .of_init rfl
  have h1 := h0.step (.loop _ _ (.dispatch rfl) rfl nofun nofun)
  have h2 := h1.step (.loop _ _ (.enter rfl (Or.inl (List.cons_ne_nil _ _))) rfl nofun nofun)
  have h3 := h2.step (.loop _ _ (.resumeSpawned 0 [] rfl rfl ⟨rfl, rfl⟩) rfl nofun
    fun _ _ _ => nofun)
  have h4 := h3.step (.register 0 ⟨.kCoroutine, 1⟩ (Or.inr ⟨0, _, rfl, rfl⟩))
  have h5 := h4.step (.await 0 _ rfl rfl (.suspend 0 .spawning rfl))
  have h6 := h5.step (.loop _ _ (.spawningDone rfl rfl) rfl nofun nofun)
  have h7 := h6.step (.loop _ _ (.wakingDone rfl rfl (Or.inl rfl)) rfl nofun nofun)
  have h8 := h7.step (.loop _ _ (.leave rfl (by decide)) rfl nofun nofun)
  have h9 := h8.step (.loop _ _ (.dispatched rfl) rfl nofun nofun)
  have h10 := h9.step (.push ⟨9, 3, .value 7⟩ rfl)
  have h11 := h10.step (.take ⟨9, 3, .value 7⟩ rfl rfl)
  have h12 := h11.step (.loop _ _ (.dispatch rfl) rfl nofun nofun)
  have h13 := h12.step (.loop _ _ (.enter rfl (Or.inr (Or.inr ⟨List.cons_ne_nil _ _, rfl⟩))) rfl
    nofun nofun)
  have h14 := h13.step (.loop _ _ (.spawningDone rfl rfl) rfl nofun nofun)
  have h15 := h14.step (.loop _ _ (.wakeServer 0 rfl rfl (List.cons_ne_nil _ _) rfl) rfl nofun
    nofun)
  have h16 := h15.step (.loop _ _ (.enter rfl (Or.inr (Or.inl (List.cons_ne_nil _ _)))) rfl nofun
    nofun)
  have h17 := h16.step (.loop _ _ (.spawningDone rfl rfl) rfl nofun nofun)
  have h18 := h17.step (.awaited 0 .empty _ rfl (.resumeWoken 0 [] rfl rfl ⟨rfl, rfl⟩))
  have h19 := h18.step (.handle 0 .waking ⟨9, 3, .value 7⟩ [] rfl rfl rfl)
  have h20 := h19.step (.await 0 _ rfl rfl (.suspend 0 .waking rfl))
  have h21 := h20.step (.loop _ _ (.wakingDone rfl rfl (Or.inl rfl)) rfl nofun nofun)
  have h22 := h21.step (.loop _ _ (.enter rfl (Or.inl (List.cons_ne_nil _ _))) rfl nofun nofun)
  have h23 := h22.step (.loop _ _ (.resumeSpawned 1 [] rfl rfl ⟨rfl, rfl⟩) rfl nofun
    fun _ _ hlabel => by cases hlabel; nofun)
  have h24 := h23.step (.call 1 .spawning _ _ rfl rfl (.block 1 .spawning 5 rfl) rfl rfl
    (fun _ => id) rfl)
  have h25 := h24.step (.loop _ _ (.spawningDone rfl rfl) rfl nofun nofun)
  have h26 := h25.step (.loop _ _ (.wakingDone rfl rfl (Or.inl rfl)) rfl nofun nofun)
  have h27 := h26.step (.loop _ _ (.leave rfl (by decide)) rfl nofun nofun)
  have h28 := h27.step (.loop _ _ (.dispatched rfl) rfl nofun nofun)
  have h29 := h28.step (.push ⟨9, -5, .exception .abortedRequest⟩ rfl)
  have h30 := h29.step (.take ⟨9, -5, .exception .abortedRequest⟩ rfl rfl)
  have h31 := h30.step (.loop _ _ (.dispatch rfl) rfl nofun nofun)
  have h32 := h31.step (.loop _ _ (.enter rfl (Or.inr (Or.inl (List.cons_ne_nil _ _)))) rfl nofun
    nofun)
  have h33 := h32.step (.loop _ _ (.spawningDone rfl rfl) rfl nofun nofun)
  have h34 := h33.step (.loop _ _ (.resumeWoken 1 [] rfl rfl ⟨rfl, rfl⟩) rfl nofun
    fun _ _ hlabel => by cases hlabel; nofun)
  have h35 := h34.step (.call 1 .waking _ _ rfl rfl (.spawn 1 .waking rfl) rfl rfl
    (fun _ => id) rfl)
  have h36 := h35.step (.call 1 .waking _ _ rfl rfl (.suspend 1 .waking rfl) rfl rfl
    (by decide) rfl)
  have h37 := h36.step (.loop _ _ (.wakingDone rfl rfl (Or.inl rfl)) rfl nofun nofun)
  have h38 := h37.step (.loop _ _ (.enter rfl (Or.inl (List.cons_ne_nil _ _))) rfl nofun nofun)
  have h39 := h38.step (.loop _ _ (.resumeSpawned 2 [] rfl rfl ⟨rfl, rfl⟩) rfl nofun
    fun _ _ hlabel => by cases hlabel; nofun)
  have h40 := h39.step (.wakeup 2 1 .spawning rfl rfl)
  have h41 := h40.step (.finish 2 .spawning .coroutineExit rfl rfl)
  have h42 := h41.step (.loop _ _ (.spawningDone rfl rfl) rfl nofun nofun)
  have h43 := h42.step (.loop _ _ (.resumeWoken 1 [] rfl rfl ⟨rfl, rfl⟩) rfl nofun
    fun _ _ hlabel => by cases hlabel; nofun)
  have h44 := h43.step (.finish 1 .waking .coroutineExit rfl rfl)
  have h45 := h44.step (.loop _ _ (.wakingDone rfl rfl (Or.inl rfl)) rfl nofun nofun)
  have h46 := h45.step (.loop _ _ (.leave rfl (by decide)) rfl nofun nofun)
  refine ⟨_, h46, by decide, rfl, rfl, fun hdelivered => ?_⟩
  have hcard := Multiset.card_le_card (Multiset.le_iff_exists_add.mpr
    ⟨_, hdelivered.places.trans (add_comm _ _)⟩)
  exact absurd hcard (by decide)

end Stp.Serve
