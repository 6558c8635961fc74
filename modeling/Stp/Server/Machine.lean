import Stp.Library.Transition
import Stp.Process.Message

/-!
# A process as a server

What becomes of the requests that are pushed to one process: they wait in its mailbox, then in its
inbox, are taken by `serve()` and handed to a handler or dropped for want of one, and are answered by
`response`, called by the process itself or by whoever its handler passed them on to. The process
keeps a record of a request from when it takes it until it answers it, and its destructor aborts the
requests on record, those in the inbox and those in the mailbox. The rest of the program may push
messages and answer requests at any time; whether a handler is found is left open.

The fields `pushed`, `handed`, `dropped`, `foreign`, `abandoned` and `answers` are not in the program:
they record the requests pushed, those that user code has yet to answer, those dropped, those of
other servers that this process answered, those in the inbox when the destructor began, and all
answers. A response to a process that is gone counts as an answer.
-/

namespace Stp.Server

open Process

variable {V : Type*}

/-- `std::tuple<process_t, session_t>`. -/
abbrev Key := ProcessT × SessionT

/-- Where an answer comes from: a response by the server or by another process, or an abort because
of the record, of a request in the inbox, or of one in the mailbox. -/
inductive Answer where
  | self
  | other
  | record
  | inbox
  | mailbox
deriving DecidableEq

/-- Where the process stands: before it is down, in `exit()`, down, in the three loops of its
destructor, and past it. -/
inductive Pc where
  | running
  | exiting
  | down
  | aborting (rest : Finset Key)
  | drainingInbox
  | drainingMailbox
  | destroyed

def Pc.UserCode : Pc → Prop
  | .running | .exiting => True
  | _ => False

/-- The destructor has not begun. -/
def Pc.Intact : Pc → Prop
  | .running | .exiting | .down => True
  | _ => False

structure State (V : Type*) where
  pc : Pc
  mailbox : Mailbox V
  inbox : List (Message V)
  requestsMap : Finset Key
  pushed : List Key
  handed : List Key
  dropped : List Key
  foreign : List Key
  abandoned : List Key
  answers : List (Key × Answer)

def key (msg : Message V) : Key := (msg.source, msg.session)

/-- The requests among some messages. -/
def requests (messages : List (Message V)) : List Key :=
  (messages.filter fun msg => typeOfMessage msg = .kRequest).map key

def State.serveRequest (s : State V) (request : Key) : State V :=
  { s with requestsMap := insert request s.requestsMap }

def State.closeRequest (s : State V) (request : Key) : State V :=
  { s with requestsMap := s.requestsMap.erase request }

def State.answer (s : State V) (requests : List Key) (answer : Answer) : State V :=
  { s with answers := s.answers ++ requests.map fun request => (request, answer) }

/-- `Process::response` of the server. -/
def State.response (s : State V) (request : Key) : State V :=
  { (s.answer [request] .self).closeRequest request with handed := s.handed.erase request }

/-- What `Process::resume` does with a message. -/
def State.receive (s : State V) (msg : Message V) : State V :=
  match typeOfMessage msg with
  | .kRequest => { s.serveRequest (key msg) with inbox := s.inbox ++ [msg] }
  | .kResponse => s
  | .kNotify =>
    match msg.content with
    | .killProcess => { s with pc := .exiting }
    | _ => { s with inbox := s.inbox ++ [msg] }

inductive Step (s : State V) : State V → Prop
  -- other threads
  | push (msg : Message V) (hpc : s.pc.Intact) :
      Step s { s with mailbox := s.mailbox.append msg, pushed := s.pushed ++ requests [msg] }
  | exchange (hpc : s.pc.Intact) : Step s { s with mailbox := s.mailbox.exchange.2 }
  | respondOther (request : Key) (hhanded : request ∈ s.handed) :
      Step s { s.answer [request] .other with handed := s.handed.erase request }
  -- `Process::resume`
  | take (msg : Message V) (hpc : s.pc = .running) (htake : s.mailbox.take.1 = some msg) :
      Step s ({ s with mailbox := s.mailbox.take.2 }.receive msg)
  | takeNothing (hpc : s.pc = .running) (htake : s.mailbox.take.1 = none) :
      Step s { s with mailbox := s.mailbox.take.2 }
  | exit (hpc : s.pc = .running) : Step s { s with pc := .exiting }
  | goDown (hpc : s.pc.UserCode) : Step s { s with pc := .down }
  -- `serve()` with and without a handler for the message, and `response`
  | serve (msg : Message V) (rest : List (Message V)) (hpc : s.pc.UserCode)
      (hinbox : s.inbox = msg :: rest) :
      Step s { s with inbox := rest, handed := s.handed ++ requests [msg] }
  | drop (msg : Message V) (rest : List (Message V)) (hpc : s.pc.UserCode)
      (hinbox : s.inbox = msg :: rest) :
      Step s { s with inbox := rest, dropped := s.dropped ++ requests [msg] }
  | respond (request : Key) (hpc : s.pc.UserCode) (hhanded : request ∈ s.handed) :
      Step s (s.response request)
  | respondForeign (request : Key) (hpc : s.pc.UserCode) :
      Step s { s.closeRequest request with foreign := s.foreign ++ [request] }
  -- the destructor
  | destroy (hpc : s.pc = .down) :
      Step s { s with pc := .aborting s.requestsMap, abandoned := requests s.inbox }
  | abortRecord (request : Key) (rest : Finset Key) (hpc : s.pc = .aborting rest)
      (hrecord : request ∈ rest) :
      Step s { s.answer [request] .record with pc := .aborting (rest.erase request) }
  | recordsDone (hpc : s.pc = .aborting ∅) : Step s { s with pc := .drainingInbox }
  | drainInbox (msg : Message V) (rest : List (Message V)) (hpc : s.pc = .drainingInbox)
      (hinbox : s.inbox = msg :: rest) :
      Step s { s.answer (requests [msg]) .inbox with inbox := rest }
  | inboxDone (hpc : s.pc = .drainingInbox) (hinbox : s.inbox = []) :
      Step s { s with pc := .drainingMailbox }
  | drainMailbox (msg : Message V) (hpc : s.pc = .drainingMailbox)
      (htake : s.mailbox.take.1 = some msg) :
      Step s { s.answer (requests [msg]) .mailbox with mailbox := s.mailbox.take.2 }
  | mailboxDone (hpc : s.pc = .drainingMailbox) (htake : s.mailbox.take.1 = none) :
      Step s { s with mailbox := s.mailbox.take.2, pc := .destroyed }

def State.fresh : State V where
  pc := .running
  mailbox := Mailbox.empty
  inbox := []
  requestsMap := ∅
  pushed := []
  handed := []
  dropped := []
  foreign := []
  abandoned := []
  answers := []

def system : Transition.System (State V) Unit where
  init s := s = State.fresh
  step s _ s' := Step s s'

end Stp.Server
