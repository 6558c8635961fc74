import Stp.Coroutines.Ownership

/-!
# Threads and stacks

A coroutine has a stack of its own, and `swapcontext` moves a thread from one stack to another. Which
process and which coroutine a thread runs it knows from two thread local variables, and a coroutine
that was resumed by one thread may be resumed by another one later.

The machine of the coroutines takes a switch to a coroutine and back for one step. Here it takes what
the code on the stacks does for it, and an assertion that fails or a context that is resumed and
holds nothing stops the thread. A context that is resumed is used up, as the stack it was saved for
goes on. Destructors that no coroutine calls run on the stack of the thread. The scheduler hands a
process to one thread at a time.
-/

namespace Stp.Threads

open Process Coroutines

inductive Stack (T P : Type*) where
  | thread (t : T)
  | coroutine (p : P) (co : Nat)
deriving DecidableEq

/-- Where the code on a stack goes on, with what is in its frames. -/
inductive Point (P : Type*) where
  /-- In `Scheduler::run`, between two processes. -/
  | scheduling
  /-- In `Process::resume`. -/
  | dispatching (p : P)
  /-- In `Coroutine::resume`, past the transfer. -/
  | resuming (p : P) (co : Nat) (caller : Caller)
  /-- In `Coroutine::main`, before the function, in it, past it and past the last transfer. -/
  | main
  | body
  | ran
  | over
  /-- In `Coroutine::yield`, past the transfer. -/
  | yielding (p : P) (co : Nat)
deriving DecidableEq

/-- What `swapcontext` saves and loads. -/
structure Frame (T P : Type*) where
  stack : Stack T P
  point : Point P

/-- There is one context for each stack. -/
structure State (T P V : Type*) where
  cpu : T → Option (Frame T P)
  saved : Stack T P → Option (Frame T P)
  tProcess : T → Option P
  tCoroutine : T → Option (P × Nat)
  process : P → Coroutines.State V

inductive Label (P : Type*) where
  | tau
  | wait (p : P) (co : Nat) (session : Option SessionT)

variable {T P V : Type*} [DecidableEq T] [DecidableEq P]

def State.goTo (s : State T P V) (t : T) (frame : Frame T P) : State T P V :=
  { s with cpu := Function.update s.cpu t (some frame) }

/-- Thread `t` goes on to `s'` if an assertion holds. -/
def State.check (s : State T P V) (t : T) (condition : Prop) [Decidable condition]
    (s' : State T P V) : State T P V :=
  if condition then s' else { s with cpu := Function.update s.cpu t none }

def State.setProcess (s : State T P V) (p : P) (process : Coroutines.State V) : State T P V :=
  { s with process := Function.update s.process p process }

/-- `process::set_running`. -/
def State.runProcess (s : State T P V) (t : T) (p : Option P) : State T P V :=
  { s with tProcess := Function.update s.tProcess t p }

/-- `coroutine::set_running`. -/
def State.runCoroutine (s : State T P V) (t : T) (co : Option (P × Nat)) : State T P V :=
  { s with tCoroutine := Function.update s.tCoroutine t co }

/-- `context::transfer`. -/
def State.transfer (s : State T P V) (t : T) (frame : Frame T P) (current target : Stack T P) :
    State T P V :=
  { s with
    cpu := Function.update s.cpu t (Function.update s.saved current (some frame) target)
    saved := Function.update (Function.update s.saved current (some frame)) target none }

/-- The contexts of the coroutines that have been destroyed go with them. -/
def State.dropContexts (s : State T P V) (p : P) : State T P V :=
  { s with
    saved := fun stack =>
      match stack with
      | .thread t => s.saved (.thread t)
      | .coroutine p' co =>
        if p' = p ∧ ((s.process p).co co).destroyed ≠ 0 then none
        else s.saved (.coroutine p' co) }

/-- `Process::spawn`, which creates the context of the coroutine. -/
def State.spawn (s : State T P V) (p : P) : State T P V :=
  { s.setProcess p (s.process p).spawn with
    saved := Function.update s.saved (.coroutine p (s.process p).created)
      (some ⟨.coroutine p (s.process p).created, .main⟩) }

/-- A destructor spawns a coroutine, or wakes one. -/
def State.destructorSpawn (s : State T P V) (p : P) : State T P V :=
  (s.spawn p).setProcess p { (s.process p).spawn with
    revived := (s.process p).revived ++ [(s.process p).created] }

def State.destructorWakeup (s : State T P V) (p : P) (other : Nat) : State T P V :=
  s.setProcess p { (s.process p).wakeup other with
    revived := (s.process p).revived ++ [other] }

/-- What `get_result` takes at the end of `yield`. -/
def getResult (c : Coroutine V) : Coroutine V :=
  { c with result := c.result.getValue.2, given := none, faulted := c.faulted || c.threw }

/-- A loop of the process takes the coroutine that it resumes next. -/
inductive Takes (s : Coroutines.State V) : Nat → Caller → Coroutines.State V → Prop
  | spawned (co : Nat) (rest : List Nat) (hpc : s.pc = .spawning)
      (hspawned : s.spawnCoroutines = co :: rest) :
      Takes s co .spawning { s with spawnCoroutines := rest, pc := .running co .spawning }
  | woken (co : Nat) (rest : List Nat) (hpc : s.pc = .waking)
      (hwoken : s.wakeupCoroutines = co :: rest) :
      Takes s co .waking { s with wakeupCoroutines := rest, pc := .running co .waking }
  | unwound (co : Nat) (rest : List Nat) (hpc : s.pc = .unwinding)
      (hwoken : s.wakeupCoroutines = co :: rest) :
      Takes s co .unwinding { s with wakeupCoroutines := rest, pc := .running co .unwinding }

inductive Step (s : State T P V) : Label P → State T P V → Prop
  -- `Process::resume`, with its `Scope`
  | enter (t : T) (p : P) (stack : Stack T P) (hcpu : s.cpu t = some ⟨stack, .scheduling⟩)
      (hidle : (s.process p).pc = .idle) (hfree : ∀ t, s.tProcess t ≠ some p) :
      Step s .tau (s.check t (s.tProcess t = none)
        (((s.setProcess p { s.process p with pc := .outer }).runProcess t (some p)).goTo t
          ⟨stack, .dispatching p⟩))
  | work (t : T) (p : P) (stack : Stack T P) (process : Coroutines.State V)
      (hcpu : s.cpu t = some ⟨stack, .dispatching p⟩) (hpc : (s.process p).pc ≠ .idle)
      (hcurrent : (s.process p).pc.current = [])
      (hstep : Coroutines.Step (s.process p) .tau process) :
      Step s .tau ((s.setProcess p process).dropContexts p)
  | leave (t : T) (p : P) (stack : Stack T P) (hcpu : s.cpu t = some ⟨stack, .dispatching p⟩)
      (hpc : (s.process p).pc = .idle ∨ (s.process p).pc = .down) :
      Step s .tau ((s.runProcess t none).goTo t ⟨stack, .scheduling⟩)
  -- what destructors call that no coroutine calls, with `process::current()`
  | destructorSpawn (t : T) (p p' : P) (stack : Stack T P)
      (hcpu : s.cpu t = some ⟨stack, .dispatching p⟩) (hpc : (s.process p).pc.Destroys)
      (hprocess : s.tProcess t = some p') : Step s .tau (s.destructorSpawn p')
  | destructorWakeup (t : T) (p p' : P) (stack : Stack T P) (other : Nat)
      (hcpu : s.cpu t = some ⟨stack, .dispatching p⟩) (hpc : (s.process p).pc.Destroys)
      (hprocess : s.tProcess t = some p') (hother : other ∈ (s.process p').suspendCoroutines) :
      Step s .tau (s.destructorWakeup p' other)
  -- `Coroutine::resume`, with its `Scope`
  | resume (t : T) (p : P) (stack : Stack T P) (co : Nat) (caller : Caller)
      (process : Coroutines.State V) (hcpu : s.cpu t = some ⟨stack, .dispatching p⟩)
      (htakes : Takes (s.process p) co caller process) :
      Step s .tau (((s.setProcess p process).runCoroutine t (some (p, co))).transfer t
        ⟨stack, .resuming p co caller⟩ (.thread t) (.coroutine p co))
  | back (t : T) (p : P) (stack : Stack T P) (co : Nat) (caller : Caller)
      (hcpu : s.cpu t = some ⟨stack, .resuming p co caller⟩) :
      Step s .tau (((s.setProcess p ((s.process p).switchBack co caller)).runCoroutine t none).goTo t
        ⟨stack, .dispatching p⟩)
  -- `Coroutine::main` and `yield`
  | start (t : T) (p : P) (co : Nat) (hcpu : s.cpu t = some ⟨.coroutine p co, .main⟩) :
      Step s .tau (s.check t (s.tCoroutine t = some (p, co))
        ((s.setProcess p ((s.process p).setCo co { (s.process p).co co with started := true })).goTo t
          ⟨.coroutine p co, .body⟩))
  | proceed (t : T) (p : P) (stack : Stack T P) (co : Nat)
      (hcpu : s.cpu t = some ⟨stack, .yielding p co⟩) :
      Step s .tau (s.check t (s.tCoroutine t = some (p, co))
        ((s.setProcess p ((s.process p).setCo co (getResult ((s.process p).co co)))).goTo t
          ⟨stack, .body⟩))
  | finish (t : T) (p : P) (co : Nat) (e : Thrown)
      (hcpu : s.cpu t = some ⟨.coroutine p co, .body⟩) :
      Step s .tau ((s.setProcess p ((s.process p).finish co e)).goTo t ⟨.coroutine p co, .ran⟩)
  | complete (t : T) (p : P) (co : Nat) (hcpu : s.cpu t = some ⟨.coroutine p co, .ran⟩) :
      Step s .tau (s.check t (s.tCoroutine t = some (p, co))
        (s.transfer t ⟨.coroutine p co, .over⟩ (.coroutine p co) (.thread t)))
  -- what a function calls, with `process::current()` and `coroutine::current()`
  | spawn (t : T) (p : P) (stack : Stack T P) (hcpu : s.cpu t = some ⟨stack, .body⟩)
      (hprocess : s.tProcess t = some p) : Step s .tau (s.spawn p)
  | wakeup (t : T) (p : P) (stack : Stack T P) (other : Nat)
      (hcpu : s.cpu t = some ⟨stack, .body⟩) (hprocess : s.tProcess t = some p) :
      Step s .tau (s.setProcess p ((s.process p).wakeup other))
  | awaitInbox (t : T) (p : P) (stack : Stack T P) (co : Nat)
      (hcpu : s.cpu t = some ⟨stack, .body⟩) (hprocess : s.tProcess t = some p)
      (hcoroutine : s.tCoroutine t = some (p, co)) (hinbox : (s.process p).inbox = []) :
      Step s .tau (s.setProcess p { s.process p with inboxCoroutine := some co })
  | takeInbox (t : T) (p : P) (stack : Stack T P) (msg : Message V) (rest : List (Message V))
      (hcpu : s.cpu t = some ⟨stack, .body⟩) (hprocess : s.tProcess t = some p)
      (hinbox : (s.process p).inbox = msg :: rest) :
      Step s .tau (s.setProcess p { s.process p with inbox := rest })
  | suspend (t : T) (p : P) (stack : Stack T P) (co : Nat) (hcpu : s.cpu t = some ⟨stack, .body⟩)
      (hprocess : s.tProcess t = some p) (hcoroutine : s.tCoroutine t = some (p, co)) :
      Step s (.wait p co none) ((s.setProcess p ((s.process p).suspend co)).transfer t
        ⟨stack, .yielding p co⟩ (.coroutine p co) (.thread t))
  | block (t : T) (p : P) (stack : Stack T P) (co : Nat) (session : SessionT)
      (hcpu : s.cpu t = some ⟨stack, .body⟩) (hprocess : s.tProcess t = some p)
      (hcoroutine : s.tCoroutine t = some (p, co)) :
      Step s (.wait p co (some session)) ((s.setProcess p ((s.process p).block session co)).transfer t
        ⟨stack, .yielding p co⟩ (.coroutine p co) (.thread t))

def State.fresh : State T P V where
  cpu t := some ⟨.thread t, .scheduling⟩
  saved stack :=
    match stack with
    | .coroutine p 0 => some ⟨.coroutine p 0, .main⟩
    | _ => none
  tProcess _ := none
  tCoroutine _ := none
  process _ := .fresh

/-- No coroutine waits with an exception in its `Result`, or on a session that is taken. -/
def Label.Orderly (s : State T P V) : Label P → Prop
  | .tau => True
  | .wait p co session => (Coroutines.Label.wait co session).Orderly (s.process p)

def orderly : Transition.System (State T P V) (Label P) where
  init s := s = State.fresh
  step s label s' := Step s label s' ∧ label.Orderly s

/-! ### Where a thread stands in its process -/

/-- The places of a thread in `Process::resume`. -/
inductive Stage where
  | dispatching
  | starting (co : Nat) (caller : Caller)
  | proceeding (co : Nat) (caller : Caller)
  | body (co : Nat) (caller : Caller)
  | ran (co : Nat) (caller : Caller)
  | resuming (co : Nat) (caller : Caller)

/-- The coroutine that the thread has switched to. -/
def Stage.current : Stage → Option Nat
  | .starting co _ | .proceeding co _ | .body co _ | .ran co _ => some co
  | .dispatching | .resuming _ _ => none

/-- The coroutine that the thread resumes. -/
def Stage.coroutine : Stage → Option Nat
  | .starting co _ | .proceeding co _ | .body co _ | .ran co _ | .resuming co _ => some co
  | .dispatching => none

def Stage.frame (t : T) (p : P) : Stage → Frame T P
  | .dispatching => ⟨.thread t, .dispatching p⟩
  | .starting co _ => ⟨.coroutine p co, .main⟩
  | .proceeding co _ => ⟨.coroutine p co, .yielding p co⟩
  | .body co _ => ⟨.coroutine p co, .body⟩
  | .ran co _ => ⟨.coroutine p co, .ran⟩
  | .resuming co caller => ⟨.thread t, .resuming p co caller⟩

/-- What the context of the thread holds. -/
def Stage.kept (t : T) (p : P) : Stage → Option (Frame T P)
  | .starting co caller | .proceeding co caller | .body co caller | .ran co caller =>
    some ⟨.thread t, .resuming p co caller⟩
  | .dispatching | .resuming _ _ => none

/-- What the coroutines make of the state of the process. -/
def Stage.view (c : Coroutines.State V) : Stage → Coroutines.State V
  | .dispatching | .body _ _ => c
  | .starting co _ | .proceeding co _ => c.setCo co (c.co co).switchTo.2
  | .ran co caller | .resuming co caller => c.switchBack co caller

/-- How far the coroutine that the thread resumes has come. -/
def Stage.Fits (c : Coroutines.State V) : Stage → Prop
  | .dispatching => c.pc.current = []
  | .starting co caller => c.pc = .running co caller ∧ (c.co co).started = false
  | .proceeding co caller => c.pc = .running co caller ∧ (c.co co).started = true
  | .body co caller => c.pc = .running co caller ∧ (c.co co).started = true
  | .ran co caller => c.pc = .running co caller ∧ (c.co co).finished = true
      ∧ co < c.created ∧ (c.co co).destroyed = 0
  | .resuming co caller => c.pc = .running co caller

/-- What the context of a coroutine holds while no thread has switched to it. -/
def context (c : Coroutines.State V) (p : P) (co : Nat) : Option (Frame T P) :=
  if co < c.created ∧ (c.co co).destroyed = 0 then
    some ⟨.coroutine p co,
      if (c.co co).finished then .over else if (c.co co).started then .yielding p co else .main⟩
  else none

structure State.Inside (s : State T P V) (t : T) (p : P) (stage : Stage) : Prop where
  process : s.tProcess t = some p
  coroutine : s.tCoroutine t = stage.coroutine.map fun co => (p, co)
  cpu : s.cpu t = some (stage.frame t p)
  kept : s.saved (.thread t) = stage.kept t p
  fits : stage.Fits (s.process p)
  reachable : Coroutines.orderly.Reachable (stage.view (s.process p))
  saved : ∀ co, s.saved (.coroutine p co)
    = if stage.current = some co then none else context (s.process p) p co

/-- The thread is in no process. -/
structure State.Outside (s : State T P V) (t : T) : Prop where
  process : s.tProcess t = none
  coroutine : s.tCoroutine t = none
  cpu : s.cpu t = some ⟨.thread t, .scheduling⟩
  kept : s.saved (.thread t) = none

/-- No thread is in the process. -/
structure State.Idle (s : State T P V) (p : P) : Prop where
  pc : (s.process p).pc = .idle ∨ (s.process p).pc = .down
  reachable : Coroutines.orderly.Reachable (s.process p)
  saved : ∀ co, s.saved (.coroutine p co) = context (s.process p) p co

structure Sound (s : State T P V) : Prop where
  outside : ∀ t, s.tProcess t = none → s.Outside t
  inside : ∀ t p, s.tProcess t = some p → ∃ stage, s.Inside t p stage
  alone : ∀ t t' p, s.tProcess t = some p → s.tProcess t' = some p → t = t'
  idle : ∀ p, (∀ t, s.tProcess t ≠ some p) → s.Idle p

variable {s s' : State T P V} {t : T} {p : P}

/-- What a thread does in a process leaves the other threads and the other processes alone. -/
structure Apart (s s' : State T P V) (t : T) (p : P) : Prop where
  tProcess : ∀ t' ≠ t, s'.tProcess t' = s.tProcess t'
  tCoroutine : ∀ t' ≠ t, s'.tCoroutine t' = s.tCoroutine t'
  cpu : ∀ t' ≠ t, s'.cpu t' = s.cpu t'
  kept : ∀ t' ≠ t, s'.saved (.thread t') = s.saved (.thread t')
  process : ∀ p' ≠ p, s'.process p' = s.process p'
  saved : ∀ p' ≠ p, ∀ co, s'.saved (.coroutine p' co) = s.saved (.coroutine p' co)

omit [DecidableEq T] [DecidableEq P] in
theorem State.Outside.apart (h : s.Outside t) {t' : T} (hapart : Apart s s' t' p) (hne : t ≠ t') :
    s'.Outside t :=
  ⟨(hapart.tProcess t hne).trans h.process, (hapart.tCoroutine t hne).trans h.coroutine,
    (hapart.cpu t hne).trans h.cpu, (hapart.kept t hne).trans h.kept⟩

omit [DecidableEq T] [DecidableEq P] in
theorem State.Inside.apart {stage : Stage} (h : s.Inside t p stage) {t' : T} {p' : P}
    (hapart : Apart s s' t' p') (hne : t ≠ t') (hother : p ≠ p') : s'.Inside t p stage := by
  have hprocess := hapart.process p hother
  refine ⟨(hapart.tProcess t hne).trans h.process, (hapart.tCoroutine t hne).trans h.coroutine,
    (hapart.cpu t hne).trans h.cpu, (hapart.kept t hne).trans h.kept, ?_, ?_, fun co => ?_⟩
  · rw [hprocess]
    exact h.fits
  · rw [hprocess]
    exact h.reachable
  · rw [hapart.saved p hother, hprocess]
    exact h.saved co

omit [DecidableEq T] [DecidableEq P] in
theorem State.Idle.apart (h : s.Idle p) {p' : P} (hapart : Apart s s' t p') (hother : p ≠ p') :
    s'.Idle p := by
  have hprocess := hapart.process p hother
  refine ⟨?_, ?_, fun co => ?_⟩
  · rw [hprocess]
    exact h.pc
  · rw [hprocess]
    exact h.reachable
  · rw [hapart.saved p hother, hprocess]
    exact h.saved co

/-- A thread that was in process `p` or in none has done something in `p`. -/
theorem Sound.apart (hs : Sound s) (hapart : Apart s s' t p)
    (hothers : ∀ t' ≠ t, s.tProcess t' ≠ some p) (hbefore : ∀ p', s.tProcess t = some p' → p' = p)
    (hafter : (∃ stage, s'.Inside t p stage) ∨ (s'.Outside t ∧ s'.Idle p)) : Sound s' := by
  have hown : ∀ p', s'.tProcess t = some p' → p' = p ∧ ∃ stage, s'.Inside t p stage := by
    intro p' hp'
    obtain ⟨stage, hinside⟩ | ⟨houtside, -⟩ := hafter
    · exact ⟨Option.some_injective _ (hp'.symm.trans hinside.process), stage, hinside⟩
    · exact absurd (hp'.symm.trans houtside.process) (Option.some_ne_none p')
  have halone : ∀ t', s'.tProcess t' = some p → t' = t := by
    intro t' hp
    by_contra hne
    exact hothers t' hne ((hapart.tProcess t' hne).symm.trans hp)
  refine ⟨fun t' hnone => ?_, fun t' p' hp' => ?_, fun t₁ t₂ p' h₁ h₂ => ?_, fun p' hfree => ?_⟩
  · by_cases ht : t' = t
    · subst ht
      obtain ⟨stage, hinside⟩ | ⟨houtside, -⟩ := hafter
      · exact absurd (hinside.process.symm.trans hnone) (Option.some_ne_none p)
      · exact houtside
    · exact (hs.outside t' ((hapart.tProcess t' ht).symm.trans hnone)).apart hapart ht
  · by_cases ht : t' = t
    · subst ht
      obtain ⟨rfl, hinside⟩ := hown p' hp'
      exact hinside
    · have hbefore' := (hapart.tProcess t' ht).symm.trans hp'
      obtain ⟨stage, hinside⟩ := hs.inside t' p' hbefore'
      refine ⟨stage, hinside.apart hapart ht ?_⟩
      rintro rfl
      exact hothers t' ht hbefore'
  · by_cases h₁t : t₁ = t
    · subst h₁t
      rw [(hown p' h₁).1] at h₂
      exact (halone t₂ h₂).symm
    · by_cases h₂t : t₂ = t
      · subst h₂t
        rw [(hown p' h₂).1] at h₁
        exact halone t₁ h₁
      · exact hs.alone t₁ t₂ p' ((hapart.tProcess t₁ h₁t).symm.trans h₁)
          ((hapart.tProcess t₂ h₂t).symm.trans h₂)
  · by_cases hp : p' = p
    · subst hp
      obtain ⟨stage, hinside⟩ | ⟨-, hidle⟩ := hafter
      · exact absurd hinside.process (hfree t)
      · exact hidle
    · refine (hs.idle p' fun t' hp' => ?_).apart hapart hp
      by_cases ht : t' = t
      · subst ht
        exact hp (hbefore p' hp')
      · exact hfree t' ((hapart.tProcess t' ht).trans hp')

omit [DecidableEq T] [DecidableEq P] in
theorem sound_fresh : Sound (State.fresh : State T P V) where
  outside _ _ := ⟨rfl, rfl, rfl, rfl⟩
  inside _ _ hp := absurd hp.symm (Option.some_ne_none _)
  alone _ _ _ hp := absurd hp.symm (Option.some_ne_none _)
  idle p _ := by
    refine ⟨Or.inl rfl, .of_init rfl, fun co => ?_⟩
    cases co with
    | zero => rfl
    | succ co => rfl

end Stp.Threads
