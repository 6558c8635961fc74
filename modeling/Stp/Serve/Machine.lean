import Stp.Coroutines.Outcome

/-!
# A process that serves

A process with its mailbox and its inbox, the coroutines of the process that call `serve()`, and the
messages in their hands. Any thread may push a message while the process has not begun to be
destroyed. A coroutine in `serve()` is suspended there or about to take from the inbox; what it took
goes to the handler registered for its type, which is called with the message in the frame of
`serve()` or is given a coroutine of its own whose function owns the message. The frames of a
coroutine are unwound when its function ends, and its function is destroyed with it. Taking from an
inbox that is empty crashes the process.

The fields `pushed`, `taken`, `destroyed` and `log` are not in the program: the messages pushed, those
that `Mailbox::take` returned, those destroyed, and what was registered and handed over, each in its
order. `std::type_index` is a type `T`, and `typeid` a function.
-/

namespace Stp.Serve

open Process

variable {T V : Type*} [DecidableEq T]

inductive HandlerMode where
  | kCallback
  | kCoroutine
deriving DecidableEq

/-- The function is a number. -/
structure HandlerInfo where
  mode : HandlerMode
  func : Nat
deriving DecidableEq

/-- Where a coroutine stands: outside the loop of `serve()` or in its handler, suspended in it, or
past its test. -/
inductive Phase where
  | away
  | waiting
  | taking
deriving DecidableEq

/-- A handler is registered for a type, and a message is handed over: the function of a handler is
called with it, or becomes the function of a coroutine that is spawned with it, or there is no handler
and the message is dropped. -/
inductive Event (T V : Type*) where
  | registered (type : T) (handler : HandlerInfo)
  | called (func : Nat) (msg : Message V)
  | spawned (func : Nat) (msg : Message V)
  | dropped (msg : Message V)

/-- How far the destructor of the process has come. -/
inductive Stage where
  | alive
  | draining
  | gone
deriving DecidableEq

structure State (T V : Type*) where
  process : Coroutines.State V
  mailbox : Mailbox V
  messageHandlers : T → Option HandlerInfo
  phase : Nat → Phase
  /-- The messages in the frames of `serve()`, the innermost first. -/
  frames : Nat → List (Message V)
  /-- The message that the function of a coroutine owns. -/
  captured : Nat → List (Message V)
  stage : Stage
  pushed : List (Message V)
  taken : List (Message V)
  destroyed : List (Message V)
  log : List (Event T V)

def State.setPhase (s : State T V) (co : Nat) (phase : Phase) : State T V :=
  { s with phase := Function.update s.phase co phase }

def State.destroy (s : State T V) (messages : List (Message V)) : State T V :=
  { s with destroyed := s.destroyed ++ messages }

/-- Requests, and notifications other than `KillProcess`. -/
def inboxed (msg : Message V) : Bool := typeOfMessage msg ≠ .kResponse && !msg.kills

/-- The next step of the process destroys its zombies. -/
def sweeps (process : Coroutines.State V) : Bool :=
  match process.pc with
  | .outer => !decide process.Busy
  | .sweeping => true
  | _ => false

/-- A step of the loops of the process. -/
def State.loop (s : State T V) (process : Coroutines.State V) : State T V :=
  { s.destroy (if sweeps s.process then s.process.zombieCoroutines.flatMap s.captured else []) with
    process := process }

/-- A message was taken from the mailbox; unless it goes to the inbox it is destroyed. -/
def State.receive (s : State T V) (msg : Message V) : State T V :=
  { s.destroy (if inboxed msg then [] else [msg]) with
    process := s.process.receive msg
    mailbox := s.mailbox.take.2
    taken := s.taken ++ [msg] }

/-- `wild::take_front(_inbox)` in `serve()`. -/
def State.takeFront (s : State T V) (co : Nat) (rest : List (Message V)) : State T V :=
  { s.setPhase co .away with process := { s.process with inbox := rest } }

/-- The rest of the body of the loop, up to where the handler runs. -/
def State.give (s : State T V) (co : Nat) (msg : Message V) : Option HandlerInfo → State T V
  | none => { s.destroy [msg] with log := s.log ++ [.dropped msg] }
  | some ⟨.kCallback, func⟩ =>
    { s with
      frames := Function.update s.frames co (msg :: s.frames co)
      log := s.log ++ [.called func msg] }
  | some ⟨.kCoroutine, func⟩ =>
    { s with
      process := s.process.spawn
      captured := Function.update s.captured s.process.created [msg]
      log := s.log ++ [.spawned func msg] }

def State.handle (typeid : Content V → T) (s : State T V) (co : Nat) (msg : Message V)
    (rest : List (Message V)) : State T V :=
  (s.takeFront co rest).give co msg (s.messageHandlers (typeid msg.content))

/-- `message_callback` and `message_coroutine`. -/
def State.register (s : State T V) (type : T) (handler : HandlerInfo) : State T V :=
  { s with
    messageHandlers := Function.update s.messageHandlers type (some handler)
    log := s.log ++ [.registered type handler] }

/-- The function of the coroutine has thrown or returned. -/
def State.finish (s : State T V) (co : Nat) (caller : Coroutines.Caller) (e : Thrown) : State T V :=
  { s.destroy (s.frames co) with
    process := (s.process.finish co e).switchBack co caller
    frames := Function.update s.frames co [] }

/-- Code of the user runs: a coroutine outside `serve()` or in its handler, or a destructor. -/
def State.Calls (s : State T V) : Prop :=
  s.process.pc.Destroys ∨ ∃ co caller, s.process.pc = .running co caller ∧ s.phase co = .away

inductive Label (V : Type*) where
  | other
  /-- A step of the loops of the process, or a call of a destructor. -/
  | loop (label : Coroutines.Label V)
  /-- A call by which a running coroutine spawns or waits. -/
  | call (label : Coroutines.Label V)
  | wakeup (co : Nat)
  /-- A coroutine starts to wait in `serve()`, or goes past its test. -/
  | await (co : Nat)
  | proceed (co : Nat)

inductive Step (typeid : Content V → T) (s : State T V) : Label V → State T V → Prop
  -- other threads
  | push (msg : Message V) (hstage : s.stage = .alive) :
      Step typeid s .other
        { s with mailbox := s.mailbox.append msg, pushed := s.pushed ++ [msg] }
  | exchange (hstage : s.stage = .alive) :
      Step typeid s .other { s with mailbox := s.mailbox.exchange.2 }
  -- `Process::resume`
  | loop (label : Coroutines.Label V) (process : Coroutines.State V)
      (hstep : Coroutines.Step s.process label process)
      (hloop : s.process.pc.current = []) (htaking : s.process.pc ≠ .taking)
      (hresume : ∀ co outcome, label = .resume co outcome → s.phase co ≠ .waiting) :
      Step typeid s (.loop label) (s.loop process)
  | take (msg : Message V) (hpc : s.process.pc = .taking) (htake : s.mailbox.take.1 = some msg) :
      Step typeid s .other (s.receive msg)
  | takeNothing (hpc : s.process.pc = .taking) (htake : s.mailbox.take.1 = none) :
      Step typeid s .other
        { s with process := { s.process with pc := .idle }, mailbox := s.mailbox.take.2 }
  -- what a coroutine outside `serve()` calls
  | call (co : Nat) (caller : Coroutines.Caller) (label : Coroutines.Label V)
      (process : Coroutines.State V) (hpc : s.process.pc = .running co caller)
      (hphase : s.phase co = .away) (hstep : Coroutines.Step s.process label process)
      (hinbox : process.inbox = s.process.inbox)
      (hserver : process.inboxCoroutine = s.process.inboxCoroutine)
      (hwoken : s.process.suspendCoroutines ⊆ process.suspendCoroutines)
      (hfinish : (process.co co).finished = false) :
      Step typeid s (.call label) { s with process := process }
  | wakeup (co other : Nat) (caller : Coroutines.Caller) (hpc : s.process.pc = .running co caller)
      (hphase : s.phase co = .away) :
      Step typeid s (.wakeup other) { s with process := s.process.wakeup other }
  | register (type : T) (handler : HandlerInfo) (hcalls : s.Calls) :
      Step typeid s .other (s.register type handler)
  | finish (co : Nat) (caller : Coroutines.Caller) (e : Thrown)
      (hpc : s.process.pc = .running co caller) (hphase : s.phase co = .away) :
      Step typeid s .other (s.finish co caller e)
  -- `serve()`: its wait, which returns or throws, its test, and the rest of its loop
  | await (co : Nat) (process : Coroutines.State V) (hphase : s.phase co = .away)
      (hinbox : s.process.inbox = [])
      (hstep : Coroutines.Step { s.process with inboxCoroutine := some co } (.wait co none) process) :
      Step typeid s (.await co) ({ s with process := process }.setPhase co .waiting)
  | awaited (co : Nat) (value : Content V) (process : Coroutines.State V)
      (hphase : s.phase co = .waiting)
      (hstep : Coroutines.Step s.process (.resume co (some (.ok value))) process) :
      Step typeid s .other ({ s with process := process }.setPhase co .taking)
  | interrupted (co : Nat) (e : Thrown) (process : Coroutines.State V)
      (hphase : s.phase co = .waiting)
      (hstep : Coroutines.Step s.process (.resume co (some (.error e))) process) :
      Step typeid s .other ({ s with process := process }.setPhase co .away)
  | proceed (co : Nat) (caller : Coroutines.Caller) (hpc : s.process.pc = .running co caller)
      (hphase : s.phase co = .away) (hinbox : s.process.inbox ≠ []) :
      Step typeid s (.proceed co) (s.setPhase co .taking)
  | handle (co : Nat) (caller : Coroutines.Caller) (msg : Message V) (rest : List (Message V))
      (hpc : s.process.pc = .running co caller) (hphase : s.phase co = .taking)
      (hinbox : s.process.inbox = msg :: rest) :
      Step typeid s .other (s.handle typeid co msg rest)
  | handleNothing (co : Nat) (caller : Coroutines.Caller) (hpc : s.process.pc = .running co caller)
      (hphase : s.phase co = .taking) (hinbox : s.process.inbox = []) :
      Step typeid s .other { s with process := { s.process with pc := .crashed } }
  -- the callback returns or throws
  | handled (co : Nat) (caller : Coroutines.Caller) (msg : Message V) (rest : List (Message V))
      (hpc : s.process.pc = .running co caller) (hphase : s.phase co = .away)
      (hframes : s.frames co = msg :: rest) :
      Step typeid s .other
        { s.destroy [msg] with frames := Function.update s.frames co rest }
  -- the destructor
  | destroy (hpc : s.process.pc = .down) (hstage : s.stage = .alive) :
      Step typeid s .other { s with stage := .draining }
  | drainInbox (msg : Message V) (rest : List (Message V)) (hstage : s.stage = .draining)
      (hinbox : s.process.inbox = msg :: rest) :
      Step typeid s .other { s.destroy [msg] with process := { s.process with inbox := rest } }
  | drainMailbox (msg : Message V) (hstage : s.stage = .draining) (hinbox : s.process.inbox = [])
      (htake : s.mailbox.take.1 = some msg) :
      Step typeid s .other
        { s.destroy [msg] with mailbox := s.mailbox.take.2, taken := s.taken ++ [msg] }
  | drained (hstage : s.stage = .draining) (hinbox : s.process.inbox = [])
      (htake : s.mailbox.take.1 = none) :
      Step typeid s .other { s with mailbox := s.mailbox.take.2, stage := .gone }

def State.fresh : State T V where
  process := .fresh
  mailbox := Mailbox.empty
  messageHandlers _ := none
  phase _ := .away
  frames _ := []
  captured _ := []
  stage := .alive
  pushed := []
  taken := []
  destroyed := []
  log := []

def system (typeid : Content V → T) : Transition.System (State T V) (Label V) where
  init s := s = State.fresh
  step := Step typeid

end Stp.Serve
