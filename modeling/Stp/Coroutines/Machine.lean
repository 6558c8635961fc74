import Stp.Library.Transition
import Stp.Process.Message

/-!
# The coroutines of a process

What `Process::resume` does with the coroutines of one process, from one atomic step to the next:
`dispatch()`, `run()` and `exit()` with their loops, the response that wakes a coroutine, and the
calls by which a coroutine spawns, wakes, waits or ends. A process runs one coroutine at a time, and
between two calls what a coroutine does is left open. The containers are lists; those that the
program keeps unordered are traversed in any order.

The process also runs code of its user outside the coroutines: a coroutine that `sweep_zombies`
deletes takes with it what its function owns, and a message that `Process::resume` is done with takes
its content, and their destructors may spawn and wake coroutines. A zombie that is deleted twice
crashes the process.

A coroutine waits when it yields in `suspend` or `block`. The fields `started`, `finished` and
`destroyed` of a coroutine are not in the program, nor are `given` and `faulted`: what `set_result`
or `set_exception` stored for the wait it is in, and whether an earlier wait was given an exception.
Nor is the field `revived`: the coroutines that destructors have spawned or woken since the last
sweep. Resuming a coroutine whose function has ended, or whose memory has been freed, has no meaning,
so there is no such step.
-/

namespace Stp.Coroutines

open Process

variable {V : Type*}

/-- What a wait returns or throws. -/
abbrev Outcome (V : Type*) := Except Thrown (Content V)

structure Result (V : Type*) where
  value : Content V
  exception : Option Thrown

def Result.setValue (r : Result V) (value : Content V) : Result V := { r with value := value }

def Result.setException (r : Result V) (e : Thrown) : Result V := { r with exception := some e }

/-- `get_value`; a value is moved out. -/
def Result.getValue (r : Result V) : Outcome V × Result V :=
  match r.exception with
  | some e => (.error e, r)
  | none => (.ok r.value, { r with value := .empty })

structure Coroutine (V : Type*) where
  result : Result V
  started : Bool
  finished : Bool
  destroyed : Nat
  given : Option (Outcome V)
  faulted : Bool

def Coroutine.create : Coroutine V where
  result := ⟨.empty, none⟩
  started := false
  finished := false
  destroyed := 0
  given := none
  faulted := false

def Coroutine.setResult (c : Coroutine V) (value : Content V) : Coroutine V :=
  { c with result := c.result.setValue value, given := some (.ok value) }

def Coroutine.setException (c : Coroutine V) (e : Thrown) : Coroutine V :=
  { c with result := c.result.setException e, given := some (.error e) }

/-- The end of `Coroutine::run`: the function has thrown, or returned and left an
`ExitException` behind. -/
def Coroutine.finish (c : Coroutine V) (e : Thrown) : Coroutine V :=
  { c with result := c.result.setException e, finished := true }

/-- The loop of `Process` that resumed a coroutine. -/
inductive Caller where
  | spawning
  | waking
  | unwinding
deriving DecidableEq

/-- Where a process stands. -/
inductive Pc where
  /-- Outside `Process::resume`, or back from its message. -/
  | idle
  /-- At the test of the outer loop of `run()`. -/
  | outer
  /-- At the tests of its inner loops. -/
  | spawning
  | waking
  /-- At the top of the loop of `exit()`. -/
  | exiting
  /-- At its inner loop, with a coroutine to resume. -/
  | unwinding
  /-- Past its loop. -/
  | abandoning
  | sweeping
  /-- In `sweep_zombies`, of `run()` or of `exit()`, where destructors run. -/
  | destroying (exiting : Bool)
  /-- Past `dispatch()`. -/
  | taking
  /-- `Process::resume` has returned `kDown`. -/
  | down
  /-- A coroutine has been deleted twice. -/
  | crashed
  | running (co : Nat) (caller : Caller)
deriving DecidableEq

/-- Destructors may run that are not called by a coroutine. -/
def Pc.Destroys : Pc → Prop
  | .idle | .destroying _ => True
  | _ => False

/-- Coroutines are numbered in the order of their creation. -/
@[ext]
structure State (V : Type*) where
  pc : Pc
  co : Nat → Coroutine V
  created : Nat
  spawnCoroutines : List Nat
  wakeupCoroutines : List Nat
  zombieCoroutines : List Nat
  suspendCoroutines : List Nat
  blockSessions : List (SessionT × Nat)
  inbox : List (Message V)
  inboxCoroutine : Option Nat
  revived : List Nat

def State.setCo (s : State V) (co : Nat) (c : Coroutine V) : State V :=
  { s with co := Function.update s.co co c }

/-! ### Switching to a coroutine and back -/

/-- What was stored for the wait is an exception. -/
def Coroutine.threw (c : Coroutine V) : Bool :=
  match c.given with
  | some (.error _) => true
  | _ => false

/-- `Coroutine::resume`, up to where the coroutine runs again: at the start of its function, or after
`yield` with the outcome of its wait. -/
def Coroutine.switchTo (c : Coroutine V) : Option (Outcome V) × Coroutine V :=
  if c.started then
    (some c.result.getValue.1,
      { c with result := c.result.getValue.2, given := none, faulted := c.faulted || c.threw })
  else
    (none, { c with started := true })

def State.switchTo (s : State V) (co : Nat) (caller : Caller) : Option (Outcome V) × State V :=
  ((s.co co).switchTo.1, { s.setCo co (s.co co).switchTo.2 with pc := .running co caller })

/-- Where the caller's loop goes on. -/
def State.afterResume (s : State V) : Caller → Pc
  | .spawning => .spawning
  | .waking => .waking
  | .unwinding => if s.wakeupCoroutines = [] then .exiting else .unwinding

/-- `Process::resume(co, exiting)` after the switch back: `get_result` tells whether the coroutine
has ended. -/
def State.switchBack (s : State V) (co : Nat) (caller : Caller) : State V :=
  let c := s.co co
  match c.result.getValue with
  | (.ok _, result) => { s.setCo co { c with result := result } with pc := s.afterResume caller }
  | (.error e, _) =>
    { s with
      zombieCoroutines := s.zombieCoroutines ++ [co]
      pc := if e = .processExit ∧ caller ≠ .unwinding then .exiting else s.afterResume caller }

/-! ### The containers -/

/-- `Process::spawn`. -/
def State.spawn (s : State V) : State V :=
  { s.setCo s.created .create with
    created := s.created + 1
    spawnCoroutines := s.spawnCoroutines ++ [s.created] }

def State.wakeup (s : State V) (co : Nat) : State V :=
  if co ∈ s.suspendCoroutines then
    { s with
      suspendCoroutines := s.suspendCoroutines.erase co
      wakeupCoroutines := s.wakeupCoroutines ++ [co] }
  else s

/-- `_suspend_coroutines.insert`, in `Process::suspend`. -/
def State.suspend (s : State V) (co : Nat) : State V :=
  { s with suspendCoroutines := s.suspendCoroutines.insert co }

/-- `_block_sessions[session] = running`, in `Process::block`. -/
def State.block (s : State V) (session : SessionT) (co : Nat) : State V :=
  { s with
    blockSessions := (session, co) :: s.blockSessions.filter fun entry => entry.1 ≠ session }

def State.unblock (s : State V) (session : SessionT) : Option Nat × State V :=
  match s.blockSessions.find? fun entry => entry.1 = session with
  | some entry => (some entry.2, { s with blockSessions := s.blockSessions.erase entry })
  | none => (none, s)

/-- How often the coroutine has been destroyed once the zombies are. -/
def State.deleted (s : State V) (co : Nat) : Nat :=
  (s.co co).destroyed + s.zombieCoroutines.count co

/-- `sweep_zombies`, but for what the destructors of the zombies call. -/
def State.sweepZombies (s : State V) (exiting : Bool) : State V :=
  { s with
    co := fun co => { s.co co with destroyed := s.deleted co }
    zombieCoroutines := []
    revived := []
    pc := if ∀ co ∈ s.zombieCoroutines, s.deleted co = 1 then .destroying exiting else .crashed }

/-- `abandon(_spawn_coroutines)`. -/
def State.abandonSpawned (s : State V) : State V :=
  { s with
    zombieCoroutines := s.zombieCoroutines ++ s.spawnCoroutines
    spawnCoroutines := [] }

/-- `interrupt_block_coroutines` and `interrupt_suspend_coroutines`, which visit the blocked and
the suspended coroutines in these orders. -/
def State.interrupt (s : State V) (blocked suspended : List Nat) (e : Thrown) : State V :=
  { s with
    co := fun co => if co ∈ blocked ++ suspended then (s.co co).setException e else s.co co
    wakeupCoroutines := s.wakeupCoroutines ++ blocked ++ suspended
    suspendCoroutines := []
    blockSessions := [] }

/-- The content of a response becomes the outcome of the wait. -/
def Coroutine.answer (c : Coroutine V) : Content V → Coroutine V
  | .exception e => c.setException e
  | content => c.setResult content

/-- `Process::resume` with a response on the session. -/
def State.answer (s : State V) (session : SessionT) (content : Content V) : State V :=
  match s.unblock session with
  | (some co, s') =>
    { s'.setCo co ((s'.co co).answer content) with
      wakeupCoroutines := s'.wakeupCoroutines ++ [co] }
  | (none, s') => s'

/-- What `Process::resume` does with a message. -/
def State.receive (s : State V) (msg : Message V) : State V :=
  match typeOfMessage msg with
  | .kRequest => { s with pc := .idle, inbox := s.inbox ++ [msg] }
  | .kResponse => { s.answer (-msg.session) msg.content with pc := .idle }
  | .kNotify =>
    match msg.content with
    | .killProcess => { s with pc := .exiting }
    | _ => { s with pc := .idle, inbox := s.inbox ++ [msg] }

def State.finish (s : State V) (co : Nat) (e : Thrown) : State V :=
  s.setCo co ((s.co co).finish e)

/-! ### The steps -/

/-- A coroutine may be resumed. -/
def Coroutine.Resumable (c : Coroutine V) : Prop := c.finished = false ∧ c.destroyed = 0

inductive Label (V : Type*) where
  | tau
  /-- A destructor that no coroutine calls spawns a coroutine, or wakes this one. -/
  | destructor (woken : Option Nat)
  /-- The coroutine runs again, with the outcome of its wait unless it has just started. -/
  | resume (co : Nat) (outcome : Option (Outcome V))
  /-- The coroutine waits, for a response on the session if there is one. -/
  | wait (co : Nat) (session : Option SessionT)

/-- There is work for `run()`. -/
def State.Busy (s : State V) : Prop :=
  s.spawnCoroutines ≠ [] ∨ s.wakeupCoroutines ≠ []
    ∨ (s.inbox ≠ [] ∧ s.inboxCoroutine.isSome)

instance (s : State V) : Decidable s.Busy :=
  inferInstanceAs (Decidable (_ ∨ _ ∨ (s.inbox ≠ [] ∧ s.inboxCoroutine.isSome)))

inductive Step (s : State V) : Label V → State V → Prop
  -- `Process::resume` and `run()`
  | dispatch (hpc : s.pc = .idle) : Step s .tau { s with pc := .outer }
  | enter (hpc : s.pc = .outer) (hbusy : s.Busy) : Step s .tau { s with pc := .spawning }
  | leave (hpc : s.pc = .outer) (hidle : ¬ s.Busy) : Step s .tau (s.sweepZombies false)
  | dispatched (hpc : s.pc = .destroying false) :
      Step s .tau
        { s with pc := if s.blockSessions = [] ∧ s.suspendCoroutines = [] then .down else .taking }
  | resumeSpawned (co : Nat) (rest : List Nat) (hpc : s.pc = .spawning)
      (hspawned : s.spawnCoroutines = co :: rest) (hco : (s.co co).Resumable) :
      Step s (.resume co (s.switchTo co .spawning).1)
        { (s.switchTo co .spawning).2 with spawnCoroutines := rest }
  | spawningDone (hpc : s.pc = .spawning) (hspawned : s.spawnCoroutines = []) :
      Step s .tau { s with pc := .waking }
  | resumeWoken (co : Nat) (rest : List Nat) (hpc : s.pc = .waking)
      (hwoken : s.wakeupCoroutines = co :: rest) (hco : (s.co co).Resumable) :
      Step s (.resume co (s.switchTo co .waking).1)
        { (s.switchTo co .waking).2 with wakeupCoroutines := rest }
  | wakingDone (hpc : s.pc = .waking) (hwoken : s.wakeupCoroutines = [])
      (hserve : s.inbox = [] ∨ s.inboxCoroutine = none) : Step s .tau { s with pc := .outer }
  | wakeServer (co : Nat) (hpc : s.pc = .waking) (hwoken : s.wakeupCoroutines = [])
      (hinbox : s.inbox ≠ []) (hserver : s.inboxCoroutine = some co) :
      Step s .tau { s.wakeup co with pc := .outer, inboxCoroutine := none }
  -- `exit()`
  | interrupt (blocked suspended : List Nat) (hpc : s.pc = .exiting)
      (hblocked : blocked.Perm (s.blockSessions.map Prod.snd))
      (hsuspended : suspended.Perm s.suspendCoroutines) :
      Step s .tau
        { s.interrupt blocked suspended .coroutineExit with
          pc := if s.wakeupCoroutines ++ blocked ++ suspended = [] then .abandoning
            else .unwinding }
  | unwind (co : Nat) (rest : List Nat) (hpc : s.pc = .unwinding)
      (hwoken : s.wakeupCoroutines = co :: rest) (hco : (s.co co).Resumable) :
      Step s (.resume co (s.switchTo co .unwinding).1)
        { (s.switchTo co .unwinding).2 with wakeupCoroutines := rest }
  | abandon (hpc : s.pc = .abandoning) : Step s .tau { s.abandonSpawned with pc := .sweeping }
  | sweep (hpc : s.pc = .sweeping) : Step s .tau (s.sweepZombies true)
  | exited (hpc : s.pc = .destroying true) : Step s .tau { s with pc := .down }
  -- what destructors call
  | destructorSpawn (hpc : s.pc.Destroys) :
      Step s (.destructor none) { s.spawn with revived := s.revived ++ [s.created] }
  | destructorWakeup (other : Nat) (hpc : s.pc.Destroys) (hother : other ∈ s.suspendCoroutines) :
      Step s (.destructor (some other)) { s.wakeup other with revived := s.revived ++ [other] }
  -- the mailbox
  | takeNothing (hpc : s.pc = .taking) : Step s .tau { s with pc := .idle }
  | take (msg : Message V) (hpc : s.pc = .taking) : Step s .tau (s.receive msg)
  -- what a running coroutine calls
  | spawn (co : Nat) (caller : Caller) (hpc : s.pc = .running co caller) : Step s .tau s.spawn
  | wakeup (co other : Nat) (caller : Caller) (hpc : s.pc = .running co caller) :
      Step s .tau (s.wakeup other)
  | awaitInbox (co : Nat) (caller : Caller) (hpc : s.pc = .running co caller) (hinbox : s.inbox = []) :
      Step s .tau { s with inboxCoroutine := some co }
  | takeInbox (co : Nat) (caller : Caller) (msg : Message V) (rest : List (Message V))
      (hpc : s.pc = .running co caller) (hinbox : s.inbox = msg :: rest) :
      Step s .tau { s with inbox := rest }
  | suspend (co : Nat) (caller : Caller) (hpc : s.pc = .running co caller) :
      Step s (.wait co none) ((s.suspend co).switchBack co caller)
  | block (co : Nat) (caller : Caller) (session : SessionT) (hpc : s.pc = .running co caller) :
      Step s (.wait co (some session)) ((s.block session co).switchBack co caller)
  -- the function throws, or it returns and `Coroutine::run` stores an `ExitException`
  | finish (co : Nat) (caller : Caller) (e : Thrown) (hpc : s.pc = .running co caller) :
      Step s .tau ((s.finish co e).switchBack co caller)

/-- `Process::create`: the coroutine of the process's function is spawned. -/
def State.fresh : State V where
  pc := .idle
  co _ := .create
  created := 1
  spawnCoroutines := [0]
  wakeupCoroutines := []
  zombieCoroutines := []
  suspendCoroutines := []
  blockSessions := []
  inbox := []
  inboxCoroutine := none
  revived := []

def system : Transition.System (State V) (Label V) where
  init s := s = State.fresh
  step := Step

end Stp.Coroutines
