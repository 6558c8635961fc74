import Mathlib.Data.Fintype.Sum
import Stp.Library.Tally
import Stp.Library.Transition

/-!
# The scheduler

`class Scheduler` of `process.cpp`: a queue of runnable processes shared by a fixed set of worker
threads, each in its own run of the loop `Scheduler::run`, while any thread may call
`Scheduler::resume`. The intrusive lists `_runq` and `_resumeq` are lists here. A section under
`_resumeq_lock` is one step; `_runq_lock` is held across several, so its owner is recorded. The
signaler is a counting semaphore whose `wait` gives up the run queue's lock, parks the thread until
there is a signal to consume, and takes the lock again. Operations on atomics are sequentially
consistent.

A worker that has not been started yet is one at the top of its loop that has not moved, so the
workers of a run are those that `serve` starts.
-/

namespace Stp.Sched

structure Scheduler (P W : Type*) where
  stopFired : Bool
  stop : Bool
  exitcode : Int
  runqLock : Option W
  runq : List P
  resumeq : List P
  idleWorkers : Nat
  /-- Sent to `_signaler` and not yet consumed. -/
  signals : Nat

/-- Where a worker stands in `Scheduler::run`. -/
inductive WorkerPc (P : Type*) where
  /-- Before the test of `_stop`. -/
  | loop
  /-- Inside the loop, before taking `_runq_lock`. -/
  | check
  /-- Holding `_runq_lock`. -/
  | locked
  /-- Holding `_runq_lock`, counted as idle, about to call `_signaler.wait`. -/
  | idling
  /-- Waiting for a signal. -/
  | parked
  /-- Past its signal, about to take `_runq_lock` back and go on with the loop. -/
  | woken
  /-- In `process::resume(p)`. -/
  | running (p : P)
  | left
deriving DecidableEq

/-- How far the call of `stop` that found `_stopFired` clear has come. -/
inductive StopPc (W : Type*) where
  | idle
  | fired (w : W) (code : Int)
  | sending (w : W) (sent : Nat)
  | returned
deriving DecidableEq

/-- The worker inside that call. -/
def StopPc.caller {W : Type*} : StopPc W → Option W
  | .fired w _ | .sending w _ => some w
  | .idle | .returned => none

/-- `sending i` says that thread `i` has left the locked section of `Scheduler::resume` and is
about to send a signal. The histories `pushed` and `handed` record the calls of `resume` and the
processes that workers took, oldest first. -/
@[ext]
structure State (P W ι : Type*) where
  sched : Scheduler P W
  worker : W → WorkerPc P
  sending : ι → Bool
  stopPc : StopPc W
  pushed : List P
  handed : List (P × W)

variable {P W C : Type*}

/-- The processes waiting for a worker, the next to be taken first. -/
def State.queue {ι : Type*} (s : State P W ι) : List P := s.sched.runq ++ s.sched.resumeq

/-! ### The sections under a lock -/

/-- The section of `Scheduler::resume` under `_resumeq_lock`; the flag is `waiting`. -/
def Scheduler.resume (s : Scheduler P W) (p : P) : Bool × Scheduler P W :=
  if s.idleWorkers ≠ 0 then
    (true, { s with resumeq := s.resumeq ++ [p], idleWorkers := s.idleWorkers - 1 })
  else
    (false, { s with resumeq := s.resumeq ++ [p] })

/-- The section of `Scheduler::run` under `_resumeq_lock`, for an empty `_runq`; the flag says that
`_runq` is still empty. -/
def Scheduler.refill (s : Scheduler P W) : Bool × Scheduler P W :=
  match s.resumeq with
  | [] => (true, { s with runq := [], idleWorkers := s.idleWorkers + 1 })
  | p :: rest => (false, { s with runq := p :: rest, resumeq := [] })

def Scheduler.send (s : Scheduler P W) : Scheduler P W := { s with signals := s.signals + 1 }

theorem Scheduler.resume_queue (s : Scheduler P W) (p : P) :
    (s.resume p).2.runq = s.runq ∧ (s.resume p).2.resumeq = s.resumeq ++ [p] := by
  unfold Scheduler.resume
  split <;> exact ⟨rfl, rfl⟩

theorem Scheduler.refill_queue (s : Scheduler P W) (hrunq : s.runq = []) :
    s.refill.2.runq ++ s.refill.2.resumeq = s.runq ++ s.resumeq := by
  unfold Scheduler.refill
  split
  · next hresumeq => simp [hrunq, hresumeq]
  · next hresumeq => simp [hrunq, hresumeq]

/-- A worker counts itself idle only when nothing is queued. -/
theorem Scheduler.refill_empty {s : Scheduler P W} (hempty : s.refill.1 = true) :
    s.refill.2.runq ++ s.refill.2.resumeq = [] := by
  unfold Scheduler.refill at *
  split at hempty
  · next hresumeq => simp [hresumeq]
  · exact absurd hempty Bool.false_ne_true

/-! ### The steps of the threads -/

variable [DecidableEq W] [DecidableEq C]

def State.setWorker (s : State P W (W ⊕ C)) (w : W) (pc : WorkerPc P) : State P W (W ⊕ C) :=
  { s with worker := Function.update s.worker w pc }

/-- A thread may call into the scheduler: a worker while it runs a process and is not inside `stop`
already, any other thread always. -/
def State.Calls (s : State P W (W ⊕ C)) : W ⊕ C → Prop
  | .inl w => (∃ p, s.worker w = .running p) ∧ s.stopPc.caller ≠ some w
  | .inr _ => True

/-- The process a step queues or takes, for the systems that the scheduler is part of. -/
inductive Label (P W C : Type*) where
  | tau
  | resume (i : W ⊕ C) (p : P)
  | pop (w : W) (p : P)
  | finish (w : W)

variable [Fintype W]

/-- `std::max(std::thread::hardware_concurrency(), 2u)` workers are those of the index type `W`;
the other threads are those of `C`. -/
inductive Step (s : State P W (W ⊕ C)) : Label P W C → State P W (W ⊕ C) → Prop
  | enter (w : W) (hpc : s.worker w = .loop) (hstop : s.sched.stop = false) :
      Step s .tau (s.setWorker w .check)
  | leave (w : W) (hpc : s.worker w = .loop) (hstop : s.sched.stop = true) :
      Step s .tau (s.setWorker w .left)
  | lock (w : W) (hpc : s.worker w = .check) (hlock : s.sched.runqLock = none) :
      Step s .tau
        { s.setWorker w .locked with sched := { s.sched with runqLock := some w } }
  | pop (w : W) (p : P) (rest : List P) (hpc : s.worker w = .locked)
      (hrunq : s.sched.runq = p :: rest) :
      Step s (.pop w p)
        { s.setWorker w (.running p) with
          sched := { s.sched with runq := rest, runqLock := none }
          handed := s.handed ++ [(p, w)] }
  | refill (w : W) (hpc : s.worker w = .locked) (hrunq : s.sched.runq = []) :
      Step s .tau
        { s.setWorker w (if s.sched.refill.1 then .idling else .locked) with
          sched := s.sched.refill.2 }
  | park (w : W) (hpc : s.worker w = .idling) :
      Step s .tau
        { s.setWorker w .parked with sched := { s.sched with runqLock := none } }
  | consume (w : W) (hpc : s.worker w = .parked) (hsignal : 0 < s.sched.signals) :
      Step s .tau
        { s.setWorker w .woken with sched := { s.sched with signals := s.sched.signals - 1 } }
  | wake (w : W) (hpc : s.worker w = .woken) (hlock : s.sched.runqLock = none) :
      Step s .tau (s.setWorker w .loop)
  | finish (w : W) (hcalls : s.Calls (.inl w)) (hsending : s.sending (.inl w) = false) :
      Step s (.finish w) (s.setWorker w .loop)
  | resume (i : W ⊕ C) (p : P) (hcalls : s.Calls i) (hsending : s.sending i = false) :
      Step s (.resume i p)
        { s with
          sched := (s.sched.resume p).2
          sending := Function.update s.sending i (s.sched.resume p).1
          pushed := s.pushed ++ [p] }
  | send (i : W ⊕ C) (hsending : s.sending i = true) :
      Step s .tau { s with sched := s.sched.send, sending := Function.update s.sending i false }
  | stopFire (w : W) (code : Int) (hcalls : s.Calls (.inl w))
      (hsending : s.sending (.inl w) = false) (hfired : s.sched.stopFired = false) :
      Step s .tau { s with sched := { s.sched with stopFired := true }, stopPc := .fired w code }
  -- a call of `stop` that finds `_stopFired` set returns at once
  | stopAgain (i : W ⊕ C) (hcalls : s.Calls i) (hfired : s.sched.stopFired = true) : Step s .tau s
  | stopStore (w : W) (code : Int) (hpc : s.stopPc = .fired w code) :
      Step s .tau
        { s with sched := { s.sched with exitcode := code, stop := true }, stopPc := .sending w 0 }
  | stopSend (w : W) (sent : Nat) (hpc : s.stopPc = .sending w sent) (hsent : sent < Fintype.card W) :
      Step s .tau { s with sched := s.sched.send, stopPc := .sending w (sent + 1) }
  | stopReturn (w : W) (hpc : s.stopPc = .sending w (Fintype.card W)) :
      Step s .tau { s with stopPc := .returned }

/-- Static storage is zero-initialised. -/
def Scheduler.fresh : Scheduler P W where
  stopFired := false
  stop := false
  exitcode := 0
  runqLock := none
  runq := []
  resumeq := []
  idleWorkers := 0
  signals := 0

def State.fresh : State P W (W ⊕ C) where
  sched := Scheduler.fresh
  worker _ := .loop
  sending _ := false
  stopPc := .idle
  pushed := []
  handed := []

def system : Transition.System (State P W (W ⊕ C)) (Label P W C) where
  init s := s = State.fresh
  step := Step

/-! ### What a step does to the queue -/

/-- What a label says about the queue. -/
def Label.Queues : Label P W C → List P → List P → Prop
  | .tau, queue, queue' => queue' = queue
  | .resume _ p, queue, queue' => queue' = queue ++ [p]
  | .pop _ p, queue, queue' => queue = p :: queue'
  | .finish _, queue, queue' => queue' = queue

/-- **Steps and the queue.** Calls of `resume` append, workers take from the front, and every other
step leaves the sequence of waiting processes as it is. -/
theorem Step.queues {s s' : State P W (W ⊕ C)} {label : Label P W C} (hstep : Step s label s') :
    label.Queues s.queue s'.queue := by
  cases hstep with
  | pop w p rest hpc hrunq => simp [Label.Queues, State.queue, hrunq]
  | refill w hpc hrunq => exact Scheduler.refill_queue _ hrunq
  | resume i p hcalls hsending =>
      obtain ⟨hrunq, hresumeq⟩ := Scheduler.resume_queue s.sched p
      simp [Label.Queues, State.queue, hrunq, hresumeq]
  | _ => rfl

end Stp.Sched
