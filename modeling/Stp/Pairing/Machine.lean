import Stp.Coroutines.Queues
import Stp.Server.Answers

/-!
# Requests between processes

All processes at once, each with its mailbox, its coroutines, its session ids and its records of
requests. Coroutines make requests and yield, and `serve()` hands what arrives to handlers, which run
in the coroutine that serves or in one of their own, and may block, spawn or serve themselves before
they answer. Anyone may answer anything: `response(content)` answers what `sender()` and `session()`
name, be it what the handler was called for or not, and `response(source, session, content)` any
request. A process that is destroyed aborts requests. Whoever finds a process may push its message later, so
the process may have gone down meanwhile, but its destructor has not begun.

The registry, the run queue and the references to processes are left out: any process that is running
may move at any time, the pid of a new process is any, and a process that has gone down may be found
or not, and may be destroyed at any time. Which handler a message finds is left open. Sessions are
allocated by `request` and `Process::yield` alone: waits for files are left out. The fields `calls`,
`handling` and `unanswered` are not in the program: the source and session of the message that each
call of a handler was for, the calls in the frames of a coroutine with the innermost first, and the
calls that no response was made for.
-/

namespace Stp.Pairing

open Process
open Server (Key key requests)

variable {P V : Type*}

/-- Where a coroutine stands in `process::request` or in `Process::yield`. -/
inductive Request where
  | away
  /-- It has a session, and has pushed its message. -/
  | pushed (session : SessionT)
  /-- It has yielded in `block`. -/
  | waiting (session : SessionT)
deriving DecidableEq

/-- From before `Process::create` to past the three loops of the destructor. -/
inductive Life where
  | unborn
  | running
  | down
  | aborting (rest : Finset Key)
  | drainingInbox
  | drainingMailbox
  | destroyed

/-- The destructor has not begun. -/
def Life.Intact : Life → Prop
  | .running | .down => True
  | _ => False

structure Proc (V : Type*) where
  pid : ProcessT
  life : Life
  mailbox : Mailbox V
  machine : Coroutines.State V
  sessions : Finset SessionT
  requestsMap : Finset Key
  request : Nat → Request
  /-- `_message_sender` and `_message_session` of a coroutine. -/
  messageInfo : Nat → Key
  calls : List Key
  handling : Nat → List Nat
  unanswered : Finset Nat
  /-- The request that `Process::response` has answered and is about to close. -/
  closing : Option Key

def Proc.create (pid : ProcessT) : Proc V where
  pid := pid
  life := .running
  mailbox := Mailbox.empty
  machine := .fresh
  sessions := ∅
  requestsMap := ∅
  request _ := .away
  messageInfo _ := (0, 0)
  calls := []
  handling _ := []
  unanswered := ∅
  closing := none

def Proc.append (c : Proc V) (msg : Message V) : Proc V :=
  { c with mailbox := c.mailbox.append msg }

def Proc.setRequest (c : Proc V) (co : Nat) (request : Request) : Proc V :=
  { c with request := Function.update c.request co request }

/-- The coroutine has a session, and has pushed its message. -/
def Proc.openSession (c : Proc V) (co : Nat) (session : SessionT) : Proc V :=
  { c.setRequest co (.pushed session) with sessions := insert session c.sessions }

def Proc.releaseSession (c : Proc V) (co : Nat) (session : SessionT) : Proc V :=
  { c.setRequest co .away with sessions := c.sessions.erase session }

/-- A message was taken from the mailbox; `serve_request` records a request. -/
def Proc.receive (c : Proc V) (msg : Message V) : Proc V :=
  { c with
    mailbox := c.mailbox.take.2
    machine := c.machine.receive msg
    requestsMap :=
      if typeOfMessage msg = .kRequest then insert (key msg) c.requestsMap else c.requestsMap }

/-- `wild::take_front(_inbox)` in `serve()`. -/
def Proc.takeFront (c : Proc V) (rest : List (Message V)) : Proc V :=
  { c with machine := { c.machine with inbox := rest } }

/-- A handler is called in the coroutine, after `set_message_info`. -/
def Proc.call (c : Proc V) (co : Nat) (msg : Message V) : Proc V :=
  { c with
    messageInfo := Function.update c.messageInfo co (key msg)
    calls := c.calls ++ [key msg]
    handling := Function.update c.handling co (c.calls.length :: c.handling co)
    unanswered := insert c.calls.length c.unanswered }

/-- The handler is given a coroutine of its own, which begins with its call. -/
def Proc.spawn (c : Proc V) (msg : Message V) : Proc V :=
  { c with machine := c.machine.spawn }.call c.machine.created msg

/-- The response to the request has been pushed, for the call if there is one. -/
def Proc.answer (c : Proc V) (call : Option Nat) (request : Key) : Proc V :=
  { c with
    unanswered := call.elim c.unanswered c.unanswered.erase
    closing := some request }

/-- The end of `Process::response`. -/
def Proc.closeRequest (c : Proc V) (request : Key) : Proc V :=
  { c with requestsMap := c.requestsMap.erase request, closing := none }

/-- It moves, and is not in the middle of a response. -/
def Proc.Runs (c : Proc V) : Prop := c.life = .running ∧ c.closing = none

/-- The coroutine runs, outside `request` and `yield`. -/
def Proc.Calls (c : Proc V) (co : Nat) (caller : Coroutines.Caller) : Prop :=
  c.Runs ∧ c.machine.pc = .running co caller ∧ c.request co = .away

structure State (P V : Type*) where
  proc : P → Proc V

variable [DecidableEq P]

def State.set (s : State P V) (p : P) (c : Proc V) : State P V :=
  ⟨Function.update s.proc p c⟩

def State.push (s : State P V) (p : P) (msg : Message V) : State P V :=
  s.set p ((s.proc p).append msg)

/-- A message is pushed to whoever was found under the pid, or to nobody. -/
inductive State.Delivers (s : State P V) (pid : ProcessT) (msg : Message V) : State P V → Prop
  | found (p : P) (hpid : (s.proc p).pid = pid) (hintact : (s.proc p).life.Intact) :
      s.Delivers pid msg (s.push p msg)
  | absent (habsent : ∀ p, (s.proc p).pid = pid → (s.proc p).life ≠ .running) :
      s.Delivers pid msg s

/-- `response` and `abort_request` answer the request with the content. -/
def State.Answers (s : State P V) (source : ProcessT) (request : Key) (content : Content V)
    (s' : State P V) : Prop :=
  s.Delivers request.1 ⟨source, sessionForResponse request.2, content⟩ s'

/-- What a step does for a request or a yield, named by the pid and session of its coroutine. -/
inductive Label (P V : Type*) where
  | other
  | create (p : P) (pid : ProcessT)
  | send (msg : Message V)
  | call (p : P) (label : Coroutines.Label V)
  | block (p : P) (co : Nat) (session : SessionT)
  | destroy (p : P)
  | request (request : Key) (co : Nat) (target : P)
  | yield (request : Key) (co : Nat)
  /-- The request is taken from the mailbox. -/
  | receive (request : Key) (target : P)
  /-- It is taken from the inbox, and if there is a handler it is called. -/
  | serve (request : Key) (target : P) (call : Option Nat)
  /-- A response is made to it, for a call of a handler if there is one. -/
  | answer (request : Key) (target : P) (call : Option Nat) (content : Content V)
  | abort (request : Key) (target : P)
  /-- A response is taken from the mailbox, and wakes a coroutine. -/
  | take (request : Key) (content : Content V) (woken : Option Nat)
  | resume (request : Key) (co : Nat) (outcome : Option (Coroutines.Outcome V))
  /-- The wait ends in `exit()`. -/
  | unwind (request : Key) (co : Nat)

inductive Step (s : State P V) : Label P V → State P V → Prop
  | create (p : P) (pid : ProcessT) (hunborn : (s.proc p).life = .unborn) :
      Step s (.create p pid) (s.set p (.create pid))
  -- `process::send`, by anyone
  | send (p : P) (msg : Message V) (hintact : (s.proc p).life.Intact) :
      Step s (.send msg) (s.push p msg)
  | exchange (p : P) (hintact : (s.proc p).life.Intact) :
      Step s .other (s.set p { s.proc p with mailbox := (s.proc p).mailbox.exchange.2 })
  -- `Process::resume`
  | loop (p : P) (label : Coroutines.Label V) (machine : Coroutines.State V)
      (hruns : (s.proc p).Runs) (hstep : Coroutines.Step (s.proc p).machine label machine)
      (hloop : (s.proc p).machine.pc.current = []) (htaking : (s.proc p).machine.pc ≠ .taking)
      (hresume : ∀ co outcome, label = .resume co outcome → (s.proc p).request co = .away) :
      Step s .other (s.set p { s.proc p with machine := machine })
  | takeRequest (p : P) (msg : Message V) (hruns : (s.proc p).Runs)
      (hpc : (s.proc p).machine.pc = .taking) (htake : (s.proc p).mailbox.take.1 = some msg)
      (htype : typeOfMessage msg = .kRequest) :
      Step s (.receive (key msg) p) (s.set p ((s.proc p).receive msg))
  | takeResponse (p : P) (msg : Message V) (hruns : (s.proc p).Runs)
      (hpc : (s.proc p).machine.pc = .taking) (htake : (s.proc p).mailbox.take.1 = some msg)
      (htype : typeOfMessage msg = .kResponse) :
      Step s (.take ((s.proc p).pid, -msg.session) msg.content
          ((s.proc p).machine.unblock (-msg.session)).1)
        (s.set p ((s.proc p).receive msg))
  | takeNotify (p : P) (msg : Message V) (hruns : (s.proc p).Runs)
      (hpc : (s.proc p).machine.pc = .taking) (htake : (s.proc p).mailbox.take.1 = some msg)
      (htype : typeOfMessage msg = .kNotify) : Step s .other (s.set p ((s.proc p).receive msg))
  | takeNothing (p : P) (hruns : (s.proc p).Runs) (hpc : (s.proc p).machine.pc = .taking)
      (htake : (s.proc p).mailbox.take.1 = none) :
      Step s .other (s.set p
        { s.proc p with
          mailbox := (s.proc p).mailbox.take.2
          machine := { (s.proc p).machine with pc := .idle } })
  | down (p : P) (hruns : (s.proc p).Runs) (hpc : (s.proc p).machine.pc = .down) :
      Step s .other (s.set p { s.proc p with life := .down })
  -- what a running coroutine calls that concerns the coroutines of its process
  | call (p : P) (co : Nat) (caller : Coroutines.Caller) (label : Coroutines.Label V)
      (machine : Coroutines.State V) (hcalls : (s.proc p).Calls co caller)
      (hstep : Coroutines.Step (s.proc p).machine label machine)
      (hinbox : machine.inbox = (s.proc p).machine.inbox)
      (hfinish : (machine.co co).finished = false) :
      Step s (.call p label) (s.set p { s.proc p with machine := machine })
  | finish (p : P) (co : Nat) (caller : Coroutines.Caller) (e : Thrown)
      (hcalls : (s.proc p).Calls co caller) :
      Step s .other (s.set p
        { s.proc p with
          machine := ((s.proc p).machine.finish co e).switchBack co caller
          handling := Function.update (s.proc p).handling co [] })
  -- `serve()`: no handler, a callback, a coroutine
  | drop (p : P) (co : Nat) (caller : Coroutines.Caller) (msg : Message V)
      (rest : List (Message V)) (hcalls : (s.proc p).Calls co caller)
      (hinbox : (s.proc p).machine.inbox = msg :: rest) :
      Step s (.serve (key msg) p none) (s.set p ((s.proc p).takeFront rest))
  | callback (p : P) (co : Nat) (caller : Coroutines.Caller) (msg : Message V)
      (rest : List (Message V)) (hcalls : (s.proc p).Calls co caller)
      (hinbox : (s.proc p).machine.inbox = msg :: rest) :
      Step s (.serve (key msg) p (some (s.proc p).calls.length))
        (s.set p (((s.proc p).takeFront rest).call co msg))
  | coroutine (p : P) (co : Nat) (caller : Coroutines.Caller) (msg : Message V)
      (rest : List (Message V)) (hcalls : (s.proc p).Calls co caller)
      (hinbox : (s.proc p).machine.inbox = msg :: rest) :
      Step s (.serve (key msg) p (some (s.proc p).calls.length))
        (s.set p (((s.proc p).takeFront rest).spawn msg))
  -- the callback returns or throws
  | handled (p : P) (co : Nat) (caller : Coroutines.Caller) (call : Nat) (rest : List Nat)
      (hcalls : (s.proc p).Calls co caller) (hhandling : (s.proc p).handling co = call :: rest) :
      Step s .other (s.set p
        { s.proc p with handling := Function.update (s.proc p).handling co rest })
  -- answers
  | respond (p : P) (co : Nat) (caller : Coroutines.Caller) (content : Content V) (s₁ : State P V)
      (hcalls : (s.proc p).Calls co caller)
      (hanswers : s.Answers (s.proc p).pid ((s.proc p).messageInfo co) content s₁) :
      Step s (.answer ((s.proc p).messageInfo co) p ((s.proc p).handling co).head? content)
        (s₁.set p
          ((s₁.proc p).answer ((s.proc p).handling co).head? ((s.proc p).messageInfo co)))
  | respondTo (p : P) (request : Key) (call : Option Nat) (content : Content V) (s₁ : State P V)
      (hruns : (s.proc p).Runs) (hanswers : s.Answers (s.proc p).pid request content s₁) :
      Step s (.answer request p call content) (s₁.set p ((s₁.proc p).answer call request))
  | close (p : P) (request : Key) (hlife : (s.proc p).life = .running)
      (hclosing : (s.proc p).closing = some request) :
      Step s .other (s.set p ((s.proc p).closeRequest request))
  -- `process::request` and `Process::yield`
  | request (p q : P) (co : Nat) (caller : Coroutines.Caller) (session : SessionT)
      (content : Content V) (s₁ : State P V) (hcalls : (s.proc p).Calls co caller)
      (hfound : (s.proc q).life.Intact) (hfresh : session ∉ (s.proc p).sessions)
      (hpush : s₁ = s.push q ⟨(s.proc p).pid, session, content⟩) :
      Step s (.request ((s.proc p).pid, session) co q) (s₁.set p ((s₁.proc p).openSession co session))
  | yield (p : P) (co : Nat) (caller : Coroutines.Caller) (session : SessionT)
      (hcalls : (s.proc p).Calls co caller) (hfresh : session ∉ (s.proc p).sessions) :
      Step s (.yield ((s.proc p).pid, session) co) (s.set p
        (((s.proc p).append ⟨0, sessionForResponse session, .empty⟩).openSession co session))
  | block (p : P) (co : Nat) (session : SessionT) (machine : Coroutines.State V)
      (hruns : (s.proc p).Runs) (hrequest : (s.proc p).request co = .pushed session)
      (hstep : Coroutines.Step (s.proc p).machine (.wait co (some session)) machine) :
      Step s (.block p co session) (s.set p
        { (s.proc p).setRequest co (.waiting session) with machine := machine })
  -- `block` returns or throws, and the session is released
  | resume (p : P) (co : Nat) (session : SessionT) (outcome : Option (Coroutines.Outcome V))
      (machine : Coroutines.State V) (hruns : (s.proc p).Runs)
      (hrequest : (s.proc p).request co = .waiting session)
      (hexit : ¬ (s.proc p).machine.pc.InExit)
      (hstep : Coroutines.Step (s.proc p).machine (.resume co outcome) machine) :
      Step s (.resume ((s.proc p).pid, session) co outcome) (s.set p
        { (s.proc p).releaseSession co session with machine := machine })
  | unwind (p : P) (co : Nat) (session : SessionT) (outcome : Option (Coroutines.Outcome V))
      (machine : Coroutines.State V) (hruns : (s.proc p).Runs)
      (hrequest : (s.proc p).request co = .waiting session)
      (hexit : (s.proc p).machine.pc.InExit)
      (hstep : Coroutines.Step (s.proc p).machine (.resume co outcome) machine) :
      Step s (.unwind ((s.proc p).pid, session) co) (s.set p
        { (s.proc p).releaseSession co session with machine := machine })
  -- the destructor
  | destroy (p : P) (hlife : (s.proc p).life = .down) :
      Step s (.destroy p) (s.set p { s.proc p with life := .aborting (s.proc p).requestsMap })
  | abortRecord (p : P) (source : ProcessT) (request : Key) (rest : Finset Key) (s₁ : State P V)
      (hlife : (s.proc p).life = .aborting rest) (hrecord : request ∈ rest)
      (hanswers : s.Answers source request (.exception .abortedRequest) s₁) :
      Step s (.abort request p) (s₁.set p
        { s₁.proc p with life := .aborting (rest.erase request) })
  | recordsDone (p : P) (hlife : (s.proc p).life = .aborting ∅) :
      Step s .other (s.set p { s.proc p with life := .drainingInbox })
  | drainInbox (p : P) (source : ProcessT) (msg : Message V) (rest : List (Message V))
      (s₁ : State P V) (hlife : (s.proc p).life = .drainingInbox)
      (hinbox : (s.proc p).machine.inbox = msg :: rest) (htype : typeOfMessage msg = .kRequest)
      (hanswers : s.Answers source (key msg) (.exception .abortedRequest) s₁) :
      Step s (.abort (key msg) p) (s₁.set p ((s₁.proc p).takeFront rest))
  | discardInbox (p : P) (msg : Message V) (rest : List (Message V))
      (hlife : (s.proc p).life = .drainingInbox)
      (hinbox : (s.proc p).machine.inbox = msg :: rest) (htype : typeOfMessage msg ≠ .kRequest) :
      Step s .other (s.set p ((s.proc p).takeFront rest))
  | inboxDone (p : P) (hlife : (s.proc p).life = .drainingInbox)
      (hinbox : (s.proc p).machine.inbox = []) :
      Step s .other (s.set p { s.proc p with life := .drainingMailbox })
  | drainMailbox (p : P) (source : ProcessT) (msg : Message V) (s₁ : State P V)
      (hlife : (s.proc p).life = .drainingMailbox)
      (htake : (s.proc p).mailbox.take.1 = some msg) (htype : typeOfMessage msg = .kRequest)
      (hanswers : s.Answers source (key msg) (.exception .abortedRequest) s₁) :
      Step s (.abort (key msg) p) (s₁.set p
        { s₁.proc p with mailbox := (s.proc p).mailbox.take.2 })
  | discardMailbox (p : P) (msg : Message V) (hlife : (s.proc p).life = .drainingMailbox)
      (htake : (s.proc p).mailbox.take.1 = some msg) (htype : typeOfMessage msg ≠ .kRequest) :
      Step s .other (s.set p { s.proc p with mailbox := (s.proc p).mailbox.take.2 })
  | mailboxDone (p : P) (hlife : (s.proc p).life = .drainingMailbox)
      (htake : (s.proc p).mailbox.take.1 = none) :
      Step s .other (s.set p
        { s.proc p with mailbox := (s.proc p).mailbox.take.2, life := .destroyed })

def State.fresh : State P V where
  proc _ := { Proc.create 0 with life := .unborn }

def system : Transition.System (State P V) (Label P V) where
  init s := s = State.fresh
  step := Step

end Stp.Pairing
