import Stp.Process.Message
import Stp.Process.Registry
import Stp.Sched.Scheduler

/-!
# The process kernel

What keeps a process alive and what makes it run: its mailbox, its reference count, the registry and
the scheduler, under any interleaving of the atomic steps of all threads. A worker that took a
process is inside `process::resume`, and from the coroutines it runs it calls into `process.cpp`
again; so does every other thread, and so does a destructor. A thread is therefore a stack of calls
in progress, innermost first, each about one process, and a step replaces what is on top of the
stack of one thread. What coroutines do with their own data is left open here: between two calls
user code may do anything.

Process objects are named by addresses that are not used twice. The fields `created`, `registered`,
`down` and `destroyed` of an object are not in the program. They record that it has been allocated,
that the reference it was born with has not been handed to `retire`, that a call of
`Process::resume` has returned `kDown`, and how often `Process::destroy` has run on it.
-/

namespace Stp.Process

inductive ResumeResult where
  | kResume
  | kDown
  | kBreak
deriving DecidableEq

/-- Where a call of `Process::resume` stands: in `dispatch()`, or handling the message it took. -/
inductive Phase (V : Type*) where
  | dispatch
  | handle (msg : Message V)

/-- Who called `push_message`: a coroutine of the process itself, or the holder of a handle. -/
inductive Pusher (V : Type*) where
  | self (phase : Phase V)
  | handle

/-- Who called `sched::resume`: `process::resume` after `kResume`, `process::spawn`, or
`push_message`. -/
inductive Site (V : Type*) where
  | worker
  | spawn
  | push (pusher : Pusher V)

/-- A call in progress. -/
inductive Frame (P V : Type*) where
  /-- In `p->resume()`. -/
  | running (p : P) (phase : Phase V)
  /-- `p->resume()` has returned to `process::resume`. -/
  | returned (p : P) (result : ResumeResult)
  /-- In `retire(p)`, which has erased the entry and is about to `unref`. -/
  | retired (p : P)
  /-- Before the `unref(p)` that ends `process::resume`. -/
  | tail (p : P)
  /-- In the scope of a handle that `find` returned. -/
  | holding (p : P)
  /-- In `p->push_message`, after the append. -/
  | pushed (p : P) (pusher : Pusher V)
  /-- In `sched::resume(p)`, before `ref(p)`. -/
  | resuming (p : P) (site : Site V)
  /-- In `sched::resume(p)`, between `ref(p)` and the locked section. -/
  | queueing (p : P) (site : Site V)
  /-- In `process::spawn`, after `reg`. -/
  | creating (p : P)
  /-- In `Process::destroy(p)`. -/
  | destroying (p : P)

structure Proc (V : Type*) where
  pid : ProcessT
  refcnt : Int
  mailbox : Mailbox V
  created : Bool
  registered : Bool
  down : Bool
  destroyed : Nat

/-- `kept p` counts the handles on `p` in the frames of coroutines that are not running. -/
@[ext]
structure State (P V W C : Type*) where
  sched : Sched.State P W (W ⊕ C)
  registry : Registry P
  proc : P → Proc V
  stack : W ⊕ C → List (Frame P V)
  kept : P → Nat

variable {P V W C : Type*}

/-- User code runs in `dispatch()`, in the `exit()` that a kill makes the process run, and in the
destructor of what a response contains. -/
def Phase.userCode : Phase V → Bool
  | .dispatch => true
  | .handle msg => msg.kills || typeOfMessage msg = .kResponse

/-- The frame may call into `process.cpp`: user code, the scope of a handle, a destructor. -/
def Frame.callsOut : Frame P V → Bool
  | .running _ phase => phase.userCode
  | .holding _ | .destroying _ => true
  | _ => false

/-- A call may be made on top of these frames; a worker with no frames is in `Scheduler::run`. -/
def MayCall (i : W ⊕ C) : List (Frame P V) → Prop
  | [] => i.isRight
  | frame :: _ => frame.callsOut

/-- A coroutine is running, and may give up or get back the thread. -/
def InCoroutine : List (Frame P V) → Prop
  | .running _ phase :: _ => phase.userCode
  | _ => False

/-- Where a thread goes on after `push_message`. -/
def Pusher.back (p : P) : Pusher V → Frame P V
  | .self phase => .running p phase
  | .handle => .holding p

/-- Where a thread goes on after `sched::resume`. -/
def Site.back (p : P) : Site V → List (Frame P V)
  | .worker => [.tail p]
  | .spawn => []
  | .push pusher => [pusher.back p]

/-- A new process: `_refcnt` is `1` and the registry has it. -/
def Proc.fresh (pid : ProcessT) : Proc V where
  pid := pid
  refcnt := 1
  mailbox := Mailbox.empty
  created := true
  registered := true
  down := false
  destroyed := 0

/-- Memory that no process object has used. -/
def Proc.unused : Proc V where
  pid := 0
  refcnt := 0
  mailbox := Mailbox.empty
  created := false
  registered := false
  down := false
  destroyed := 0

def Proc.ref (c : Proc V) : Proc V := { c with refcnt := c.refcnt + 1 }

/-- The `fetch_sub` of `unref`. -/
def Proc.unref (c : Proc V) : Proc V := { c with refcnt := c.refcnt - 1 }

/-- The rest of `unref(p)`, before the caller goes on with `frames`. -/
def Proc.afterUnref (c : Proc V) (p : P) (frames : List (Frame P V)) : List (Frame P V) :=
  if c.refcnt = 1 then .destroying p :: frames else frames

/-- What a step does besides changing the process it is about and the top of a stack. -/
inductive Effect where
  | none
  | find (pid : ProcessT)
  | reg (pid : ProcessT)
  | unreg (pid : ProcessT) (erased : Bool)
  | resume
  | pop

/-- What a step of a thread sees of the process it is about: the object, the handles kept on it,
and the frames on top of the thread's stack. -/
structure View (P V : Type*) where
  proc : Proc V
  kept : Nat
  frames : List (Frame P V)

/-- The atomic steps of thread `i` about process `p`, on top of the frames `rest`. -/
inductive Move (i : W ⊕ C) (p : P) (rest : List (Frame P V)) :
    Effect → View P V → View P V → Prop
  -- `Scheduler::run` takes `p` from the queue and calls `process::resume(p)`
  | pop (c : Proc V) (k : Nat) :
      Move i p rest .pop ⟨c, k, []⟩ ⟨c, k, [.running p .dispatch]⟩
  -- `Process::resume`
  | dispatchDown (c : Proc V) (k : Nat) :
      Move i p rest .none ⟨c, k, [.running p .dispatch]⟩
        ⟨{ c with down := true }, k, [.returned p .kDown]⟩
  | take (c : Proc V) (k : Nat) (msg : Message V) (htake : c.mailbox.take.1 = some msg) :
      Move i p rest .none ⟨c, k, [.running p .dispatch]⟩
        ⟨{ c with mailbox := c.mailbox.take.2 }, k, [.running p (.handle msg)]⟩
  | takeNothing (c : Proc V) (k : Nat) (htake : c.mailbox.take.1 = none) :
      Move i p rest .none ⟨c, k, [.running p .dispatch]⟩
        ⟨{ c with mailbox := c.mailbox.take.2 }, k, [.returned p .kBreak]⟩
  | handled (c : Proc V) (k : Nat) (msg : Message V) (hkills : msg.kills = false) :
      Move i p rest .none ⟨c, k, [.running p (.handle msg)]⟩ ⟨c, k, [.returned p .kResume]⟩
  | killed (c : Proc V) (k : Nat) (msg : Message V) (hkills : msg.kills = true) :
      Move i p rest .none ⟨c, k, [.running p (.handle msg)]⟩
        ⟨{ c with down := true }, k, [.returned p .kDown]⟩
  -- `process::resume`
  | requeue (c : Proc V) (k : Nat) :
      Move i p rest .none ⟨c, k, [.returned p .kResume]⟩ ⟨c, k, [.resuming p .worker]⟩
  | rest (c : Proc V) (k : Nat) :
      Move i p rest .none ⟨c, k, [.returned p .kBreak]⟩ ⟨c, k, [.tail p]⟩
  | unreg (c : Proc V) (k : Nat) :
      Move i p rest (.unreg c.pid true) ⟨c, k, [.returned p .kDown]⟩
        ⟨{ c with registered := false }, k, [.retired p]⟩
  | unregAbsent (c : Proc V) (k : Nat) :
      Move i p rest (.unreg c.pid false) ⟨c, k, [.returned p .kDown]⟩ ⟨c, k, [.tail p]⟩
  | retire (c : Proc V) (k : Nat) :
      Move i p rest .none ⟨c, k, [.retired p]⟩ ⟨c.unref, k, c.afterUnref p [.tail p]⟩
  | finish (c : Proc V) (k : Nat) :
      Move i p rest .none ⟨c, k, [.tail p]⟩ ⟨c.unref, k, c.afterUnref p []⟩
  -- handles: `find`, the end of the scope, and coroutine switches inside the scope
  | find (c : Proc V) (k : Nat) (pid : ProcessT) (hcall : MayCall i rest) :
      Move i p rest (.find pid) ⟨c, k, []⟩ ⟨c.ref, k, [.holding p]⟩
  | release (c : Proc V) (k : Nat) :
      Move i p rest .none ⟨c, k, [.holding p]⟩ ⟨c.unref, k, c.afterUnref p []⟩
  | keep (c : Proc V) (k : Nat) (hcoroutine : InCoroutine rest) :
      Move i p rest .none ⟨c, k, [.holding p]⟩ ⟨c, k + 1, []⟩
  | restore (c : Proc V) (k : Nat) (hcoroutine : InCoroutine rest) :
      Move i p rest .none ⟨c, k + 1, []⟩ ⟨c, k, [.holding p]⟩
  -- `process::spawn`
  | create (c : Proc V) (k : Nat) (pid : ProcessT) (hfresh : c.created = false)
      (hcall : MayCall i rest) :
      Move i p rest (.reg pid) ⟨c, k, []⟩ ⟨.fresh pid, k, [.creating p]⟩
  | created (c : Proc V) (k : Nat) :
      Move i p rest .none ⟨c, k, [.creating p]⟩ ⟨c, k, [.resuming p .spawn]⟩
  -- `Process::push_message`
  | append (c : Proc V) (k : Nat) (msg : Message V) :
      Move i p rest .none ⟨c, k, [.holding p]⟩
        ⟨{ c with mailbox := c.mailbox.append msg }, k, [.pushed p .handle]⟩
  | appendSelf (c : Proc V) (k : Nat) (msg : Message V) (phase : Phase V)
      (hphase : phase.userCode = true) :
      Move i p rest .none ⟨c, k, [.running p phase]⟩
        ⟨{ c with mailbox := c.mailbox.append msg }, k, [.pushed p (.self phase)]⟩
  | exchange (c : Proc V) (k : Nat) (pusher : Pusher V) :
      Move i p rest .none ⟨c, k, [.pushed p pusher]⟩
        ⟨{ c with mailbox := c.mailbox.exchange.2 }, k,
          [if c.mailbox.exchange.1 then .resuming p (.push pusher) else pusher.back p]⟩
  -- `Scheduler::resume`
  | ref (c : Proc V) (k : Nat) (site : Site V) :
      Move i p rest .none ⟨c, k, [.resuming p site]⟩ ⟨c.ref, k, [.queueing p site]⟩
  | enqueue (c : Proc V) (k : Nat) (site : Site V) :
      Move i p rest .resume ⟨c, k, [.queueing p site]⟩ ⟨c, k, site.back p⟩
  -- `Process::destroy`, whose destructor empties the mailbox and calls out to abort requests
  | drain (c : Proc V) (k : Nat) :
      Move i p rest .none ⟨c, k, [.destroying p]⟩
        ⟨{ c with mailbox := c.mailbox.take.2 }, k, [.destroying p]⟩
  | destroy (c : Proc V) (k : Nat) :
      Move i p rest .none ⟨c, k, [.destroying p]⟩
        ⟨{ c with destroyed := c.destroyed + 1 }, k, []⟩

/-! ### The whole system -/

variable [DecidableEq P] [DecidableEq W] [DecidableEq C] [Fintype W]

/-- What the registry and the scheduler do in a step of thread `i` about process `p`. -/
def Effect.Acts (s : State P V W C) (i : W ⊕ C) (p : P) :
    Effect → Registry P → Sched.State P W (W ⊕ C) → Prop
  | .none, registry, sched => registry = s.registry ∧ sched = s.sched
  | .find pid, registry, sched =>
      s.registry.find pid = some p ∧ registry = s.registry ∧ sched = s.sched
  | .reg pid, registry, sched => s.registry.reg p = (pid, registry) ∧ sched = s.sched
  | .unreg pid erased, registry, sched =>
      s.registry.unreg pid = (erased, registry) ∧ sched = s.sched
  | .resume, registry, sched => registry = s.registry ∧ Sched.Step s.sched (.resume i p) sched
  | .pop, registry, sched =>
      registry = s.registry ∧ ∃ w, i = .inl w ∧ Sched.Step s.sched (.pop w p) sched

/-- The processes whose memory a step may read or write besides that of the process it is about:
queueing links the process to the one before it. -/
def Effect.links (s : State P V W C) : Effect → List P
  | .resume => s.sched.queue
  | _ => []

def State.view (s : State P V W C) (p : P) (taken : List (Frame P V)) : View P V :=
  ⟨s.proc p, s.kept p, taken⟩

/-- The state after a step of thread `i` about process `p`. -/
def State.after (s : State P V W C) (i : W ⊕ C) (p : P) (rest : List (Frame P V))
    (view : View P V) (registry : Registry P) (sched : Sched.State P W (W ⊕ C)) : State P V W C where
  sched := sched
  registry := registry
  proc := Function.update s.proc p view.proc
  stack := Function.update s.stack i (view.frames ++ rest)
  kept := Function.update s.kept p view.kept

omit [Fintype W] in
theorem State.stack_after (s : State P V W C)
    (i : W ⊕ C) (p : P) (rest : List (Frame P V)) (view : View P V) (registry : Registry P)
    (sched : Sched.State P W (W ⊕ C)) :
    (s.after i p rest view registry sched).stack
      = Function.update s.stack i (view.frames ++ rest) := rfl

/-- The steps of all threads, each with the processes whose memory it may read or write. A thread
that has yet to send a signal for `Scheduler::resume` does so before anything else. -/
inductive Step (s : State P V W C) : List P → State P V W C → Prop
  | sched (sched : Sched.State P W (W ⊕ C)) (hstep : Sched.Step s.sched .tau sched) :
      Step s s.sched.queue { s with sched := sched }
  | loop (w : W) (sched : Sched.State P W (W ⊕ C)) (hstack : s.stack (.inl w) = [])
      (hstep : Sched.Step s.sched (.finish w) sched) :
      Step s [] { s with sched := sched }
  | move (i : W ⊕ C) (p : P) (rest taken : List (Frame P V)) (effect : Effect) (view : View P V)
      (registry : Registry P) (sched : Sched.State P W (W ⊕ C))
      (hsending : s.sched.sending i = false) (hstack : s.stack i = taken ++ rest)
      (hmove : Move i p rest effect (s.view p taken) view)
      (hacts : effect.Acts s i p registry sched) :
      Step s (p :: effect.links s) (s.after i p rest view registry sched)
  -- a look-up that finds nothing
  | findNothing (i : W ⊕ C) (pid : ProcessT) (hcall : MayCall i (s.stack i))
      (hfind : s.registry.find pid = none) : Step s [] s

def State.fresh : State P V W C where
  sched := Sched.State.fresh
  registry := Registry.empty
  proc _ := Proc.unused
  stack _ := []
  kept _ := 0

def system : Transition.System (State P V W C) (List P) where
  init s := s = State.fresh
  step := Step

end Stp.Process
