import Stp.Library.Transition
import Stp.Process.Message
import Stp.Time.Wheel

/-!
# The clock thread, the timer service and the sleepers

Three kinds of threads share the word `TIME` and the mailbox of the timer service. The clock thread
stores a later time in `TIME` and then, in a second step, sends it to the service as an
`UpdateMessage`. A coroutine that sleeps sends the service a `TimeoutRequest` and waits for the
response. The service handles its messages one by one, in the order they were pushed: a request arms
a timer at the wheel's own time, an update ticks the wheel up to its timestamp, and each tick sends
the responses of the timers that expire at it. A request that overflows the clock fails an assertion
of `_queue`, so there is no step that handles it.

A session in use by no other sleeper is what `NewId` returns, a positive number. The fields `latest`
of the state and `latest` and `time` of a nap are not in the program: they record the timestamp of
the latest update sent, and what it and `TIME` were when the request was pushed. A sleep that ends
with an exception is one that does not end here.
-/

namespace Stp.Time

open Process

/-- What the messages of the timer service hold. -/
inductive TimerContent where
  | updateMessage (timestamp : UInt64)
  | timeoutRequest (timeout : UInt64)

/-- `std::pair` of the `source` and `session` to respond to. -/
abbrev Key := ProcessT × SessionT

inductive ClockPc where
  | sleeping
  /-- Past `TIME.store(time)`. -/
  | stored (time : UInt64)

inductive ServicePc where
  | serving
  /-- In the loop of `_update`. -/
  | updating (time : UInt64)

/-- A call of `sleep`, by a coroutine that read `before` from `now()`. -/
structure Nap where
  source : ProcessT
  session : SessionT
  before : UInt64
  timeout : UInt64
  latest : UInt64
  time : UInt64

inductive Caller where
  | idle
  | awake (before : UInt64)
  | waiting (nap : Nap)
  | woken (nap : Nap)
  /-- Has read `after` from `now()` after `sleep` returned. -/
  | done (nap : Nap) (after : UInt64)

structure State (ι : Type*) where
  time : UInt64
  clock : ClockPc
  mailbox : Mailbox TimerContent
  timer : Timer
  service : ServicePc
  responses : List Key
  caller : ι → Caller
  latest : UInt64

variable {ι : Type*}

def Nap.key (nap : Nap) : Key := (nap.source, nap.session)

def TimerNode.key (node : TimerNode) : Key := (node.source, node.session)

/-- `process::send` from the clock thread, which is in no process. -/
def updateMessage (time : UInt64) : Message TimerContent := ⟨0, 0, .value (.updateMessage time)⟩

def Nap.request (nap : Nap) : Message TimerContent :=
  ⟨nap.source, nap.session, .value (.timeoutRequest nap.timeout)⟩

def State.push (s : State ι) (msg : Message TimerContent) : State ι :=
  { s with mailbox := s.mailbox.append msg }

def State.setCaller [DecidableEq ι] (s : State ι) (i : ι) (caller : Caller) : State ι :=
  { s with caller := Function.update s.caller i caller }

/-- The handlers of `_main`. -/
def State.handle (s : State ι) (msg : Message TimerContent) : Option (State ι) :=
  match msg.content with
  | .value (.timeoutRequest d) =>
    (timeout s.timer msg.source msg.session d).map fun timer => { s with timer := timer }
  | .value (.updateMessage timestamp) => some { s with service := .updating timestamp }
  | _ => some s

inductive Step [DecidableEq ι] (s : State ι) : State ι → Prop
  -- `tick(timer)`
  | store (time : UInt64) (hclock : s.clock = .sleeping) (hlater : s.time < time) :
      Step s { s with time := time, clock := .stored time }
  | send (time : UInt64) (hclock : s.clock = .stored time) :
      Step s { s.push (updateMessage time) with clock := .sleeping, latest := time }
  -- `now()`, `sleep`, `now()`
  | readBefore (i : ι) (hcaller : s.caller i = .idle) : Step s (s.setCaller i (.awake s.time))
  | request (i : ι) (nap : Nap) (hcaller : s.caller i = .awake nap.before)
      (hsession : 0 < nap.session.toInt32)
      (hfree : ∀ j other, s.caller j = .waiting other → other.key ≠ nap.key)
      (hlatest : nap.latest = s.latest) (htime : nap.time = s.time) :
      Step s ((s.push nap.request).setCaller i (.waiting nap))
  | wake (i : ι) (nap : Nap) (hcaller : s.caller i = .waiting nap)
      (hresponse : nap.key ∈ s.responses) :
      Step s { s.setCaller i (.woken nap) with responses := s.responses.erase nap.key }
  | readAfter (i : ι) (nap : Nap) (hcaller : s.caller i = .woken nap) :
      Step s (s.setCaller i (.done nap s.time))
  | again (i : ι) (nap : Nap) (after : UInt64) (hcaller : s.caller i = .done nap after) :
      Step s (s.setCaller i .idle)
  -- the service
  | take (msg : Message TimerContent) (s' : State ι) (hservice : s.service = .serving)
      (htake : s.mailbox.take.1 = some msg)
      (hhandle : { s with mailbox := s.mailbox.take.2 }.handle msg = some s') : Step s s'
  | takeNothing (hservice : s.service = .serving) (htake : s.mailbox.take.1 = none) :
      Step s { s with mailbox := s.mailbox.take.2 }
  | exchange : Step s { s with mailbox := s.mailbox.exchange.2 }
  | tick (time : UInt64) (sent : List TimerNode) (timer : Timer)
      (hservice : s.service = .updating time) (hbehind : s.timer.time < time)
      (htick : Time.tick s.timer = some (sent, timer)) :
      Step s { s with timer := timer, responses := s.responses ++ sent.map TimerNode.key }
  | updated (time : UInt64) (hservice : s.service = .updating time)
      (hreached : ¬ s.timer.time < time) : Step s { s with service := .serving }

def State.fresh : State ι where
  time := 0
  clock := .sleeping
  mailbox := Mailbox.empty
  timer := Timer.fresh
  service := .serving
  responses := []
  caller _ := .idle
  latest := 0

def system [DecidableEq ι] : Transition.System (State ι) Unit where
  init s := s = State.fresh
  step s _ s' := Step s s'

end Stp.Time
