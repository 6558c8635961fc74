import Stp.Coroutines.Outcome
import Stp.Process.Lifetime

/-!
# Processes that make requests

The process kernel together with the coroutines of every process. A worker in `Process::resume`
moves the coroutines of the process it took, and a coroutine of that process may be in
`process::request`: it finds the target, allocates a session, pushes the request to the target and
blocks on the session, with the handle on the target in its frame all the while. All other calls
into `process.cpp`, by coroutines, by other threads and by destructors, are those of the kernel,
whatever they push.
-/

namespace Stp.Net

open Process

variable {P V W C : Type*}

/-- Where a coroutine stands in `process::request`. -/
inductive Request (P : Type*) where
  | away
  /-- It has the handle on the target. -/
  | found (target : P)
  | opened (target : P) (session : SessionT)
  /-- It has appended the request. -/
  | pushed (target : P) (session : SessionT)
  /-- It has yielded in `block`. -/
  | waiting (target : P) (session : SessionT)
  | returned (target : P) (session : SessionT)
  /-- It has released the session. -/
  | closed (target : P)

/-- `sessions p` are the ids that `_sessions` of `p` has given out. -/
@[ext]
structure State (P V W C : Type*) where
  kernel : Process.State P V W C
  machine : P → Coroutines.State V
  request : P → Nat → Request P
  sessions : P → Finset SessionT

variable [DecidableEq P] [DecidableEq W] [DecidableEq C] [Fintype W]

def State.setMachine (s : State P V W C) (p : P) (machine : Coroutines.State V) :
    State P V W C :=
  { s with machine := Function.update s.machine p machine }

def State.setRequest (s : State P V W C) (p : P) (co : Nat) (request : Request P) :
    State P V W C :=
  { s with request := Function.update s.request p (Function.update (s.request p) co request) }

/-- A step of thread `i` about process `p` that leaves the registry and the scheduler alone. -/
def State.put (s : State P V W C) (i : W ⊕ C) (p : P) (rest : List (Frame P V)) (view : View P V) :
    State P V W C :=
  { s with kernel := s.kernel.after i p rest view s.kernel.registry s.kernel.sched }

/-- No coroutine in `process::request` is running on these frames. -/
def State.Outside (s : State P V W C) : List (Frame P V) → Prop
  | .running p _ :: _ => ∀ co caller, (s.machine p).pc = .running co caller → s.request p co = .away
  | _ => True

/-- The calls that are not made by `Process::resume`, nor by `process::request`, and that leave the
messages in the mailbox alone. -/
inductive State.Aside (s : State P V W C) (p : P) (rest : List (Frame P V)) :
    List (Frame P V) → Effect → View P V → Prop
  | pop (view : View P V) : s.Aside p rest [] .pop view
  | find (pid : ProcessT) (view : View P V) (houtside : s.Outside rest) :
      s.Aside p rest [] (.find pid) view
  | handle (effect : Effect) (view : View P V) (houtside : s.Outside rest)
      (hkept : view.kept = s.kernel.kept p) (hframes : view.frames ≠ [.pushed p .handle]) :
      s.Aside p rest [.holding p] effect view
  | other (frame : Frame P V) (effect : Effect) (view : View P V)
      (hframe : ∀ phase, frame ≠ .running p phase) (hhandle : frame ≠ .holding p)
      (hdestroying : frame = .destroying p → view.frames = []) : s.Aside p rest [frame] effect view

/-- Thread `i` runs process `p`, and is not about to send a signal. -/
def State.Runs (s : State P V W C) (i : W ⊕ C) (p : P) (phase : Phase V)
    (rest : List (Frame P V)) : Prop :=
  s.kernel.sched.sending i = false ∧ s.kernel.stack i = .running p phase :: rest

/-- A coroutine of `p` runs on thread `i`, in the scope of a handle on `q`. -/
def State.Holds (s : State P V W C) (i : W ⊕ C) (q p : P) (phase : Phase V)
    (rest : List (Frame P V)) (co : Nat) : Prop :=
  s.kernel.sched.sending i = false ∧ s.kernel.stack i = .holding q :: .running p phase :: rest
    ∧ phase.userCode = true ∧ ∃ caller, (s.machine p).pc = .running co caller

/-- What a step does, as far as the systems that this one is part of look at it. -/
inductive Label (P V : Type*) where
  | other
  | create (p : P) (pid : ProcessT)
  | loop (p : P) (label : Coroutines.Label V)
  | take (p : P) (msg : Message V)
  | down (p : P)
  | call (p : P) (co : Nat) (label : Coroutines.Label V)
  | newSession (p : P) (session : SessionT)
  | releaseSession (p : P) (session : SessionT)
  /-- A message is pushed to the process by the call in the frame below its handle. -/
  | send (below : List (Frame P V)) (target : P) (msg : Message V)
  | sendSelf (p : P) (msg : Message V)
  | drain (p : P)
  | find (p : P) (co : Nat)
  | allocate (p : P) (co : Nat) (session : SessionT)
  /-- A request is pushed to the process. -/
  | push (p : P) (co : Nat) (target : P) (session : SessionT) (content : Content V)
  | block (p : P) (co : Nat) (target : P) (session : SessionT)
  | unblock (p : P) (co : Nat) (outcome : Option (Coroutines.Outcome V))
  | close (p : P) (co : Nat)

inductive Step (s : State P V W C) : Label P V → State P V W C → Prop
  -- the scheduler, and look-ups that find nothing
  | sched (touched : List P) (kernel : Process.State P V W C)
      (hstep : Process.Step s.kernel touched kernel)
      (hsame : kernel = { s.kernel with sched := kernel.sched }) :
      Step s .other { s with kernel := kernel }
  | aside (i : W ⊕ C) (p : P) (rest taken : List (Frame P V)) (effect : Effect) (view : View P V)
      (registry : Registry P) (sched : Sched.State P W (W ⊕ C))
      (hsending : s.kernel.sched.sending i = false) (hstack : s.kernel.stack i = taken ++ rest)
      (hmove : Move i p rest effect (s.kernel.view p taken) view)
      (hacts : effect.Acts s.kernel i p registry sched) (haside : s.Aside p rest taken effect view) :
      Step s .other { s with kernel := s.kernel.after i p rest view registry sched }
  | send (i : W ⊕ C) (p : P) (rest : List (Frame P V)) (msg : Message V)
      (hsending : s.kernel.sched.sending i = false) (hstack : s.kernel.stack i = .holding p :: rest)
      (houtside : s.Outside rest) :
      Step s (.send rest p msg) (s.put i p rest
        ⟨{ s.kernel.proc p with mailbox := (s.kernel.proc p).mailbox.append msg }, s.kernel.kept p,
          [.pushed p .handle]⟩)
  | sendSelf (i : W ⊕ C) (p : P) (phase : Phase V) (rest : List (Frame P V)) (msg : Message V)
      (hruns : s.Runs i p phase rest) (hcode : phase.userCode = true)
      (houtside : s.Outside (.running p phase :: rest)) :
      Step s (.sendSelf p msg) (s.put i p rest
        ⟨{ s.kernel.proc p with mailbox := (s.kernel.proc p).mailbox.append msg }, s.kernel.kept p,
          [.pushed p (.self phase)]⟩)
  | drain (i : W ⊕ C) (p : P) (rest : List (Frame P V))
      (hsending : s.kernel.sched.sending i = false)
      (hstack : s.kernel.stack i = .destroying p :: rest) :
      Step s (.drain p) (s.put i p rest
        ⟨{ s.kernel.proc p with mailbox := (s.kernel.proc p).mailbox.take.2 }, s.kernel.kept p,
          [.destroying p]⟩)
  | create (i : W ⊕ C) (p : P) (pid : ProcessT) (registry : Registry P)
      (hsending : s.kernel.sched.sending i = false) (hfresh : (s.kernel.proc p).created = false)
      (hcall : MayCall i (s.kernel.stack i)) (houtside : s.Outside (s.kernel.stack i))
      (hreg : s.kernel.registry.reg p = (pid, registry)) :
      Step s (.create p pid)
        { kernel := s.kernel.after i p (s.kernel.stack i)
            ⟨.fresh pid, s.kernel.kept p, [.creating p]⟩ registry s.kernel.sched
          machine := Function.update s.machine p .fresh
          request := Function.update s.request p fun _ => .away
          sessions := Function.update s.sessions p ∅ }
  -- `Process::resume`; only destructors run when it is done with a response
  | loop (i : W ⊕ C) (p : P) (phase : Phase V) (rest : List (Frame P V))
      (label : Coroutines.Label V) (machine : Coroutines.State V) (hruns : s.Runs i p phase rest)
      (hcode : phase.userCode = true) (hstep : Coroutines.Step (s.machine p) label machine)
      (hloop : (s.machine p).pc.current = []) (htaking : (s.machine p).pc ≠ .taking)
      (hresume : ∀ co outcome, label = .resume co outcome → s.request p co = .away)
      (hhandle : ∀ msg, phase = .handle msg → msg.kills = false → ∃ woken, label = .destructor woken) :
      Step s (.loop p label) (s.setMachine p machine)
  | take (i : W ⊕ C) (p : P) (rest : List (Frame P V)) (msg : Message V)
      (hruns : s.Runs i p .dispatch rest) (hpc : (s.machine p).pc = .taking)
      (htake : (s.kernel.proc p).mailbox.take.1 = some msg) :
      Step s (.take p msg) ((s.put i p rest
        ⟨{ s.kernel.proc p with mailbox := (s.kernel.proc p).mailbox.take.2 }, s.kernel.kept p,
          [.running p (.handle msg)]⟩).setMachine p ((s.machine p).receive msg))
  | takeNothing (i : W ⊕ C) (p : P) (rest : List (Frame P V)) (hruns : s.Runs i p .dispatch rest)
      (hpc : (s.machine p).pc = .taking) (htake : (s.kernel.proc p).mailbox.take.1 = none) :
      Step s .other ((s.put i p rest
        ⟨{ s.kernel.proc p with mailbox := (s.kernel.proc p).mailbox.take.2 }, s.kernel.kept p,
          [.returned p .kBreak]⟩).setMachine p { s.machine p with pc := .idle })
  | handled (i : W ⊕ C) (p : P) (rest : List (Frame P V)) (msg : Message V)
      (hruns : s.Runs i p (.handle msg) rest) (hkills : msg.kills = false)
      (hpc : (s.machine p).pc = .idle) :
      Step s .other (s.put i p rest
        ⟨s.kernel.proc p, s.kernel.kept p, [.returned p .kResume]⟩)
  | down (i : W ⊕ C) (p : P) (phase : Phase V) (rest : List (Frame P V))
      (hruns : s.Runs i p phase rest) (hkills : ∀ msg, phase = .handle msg → msg.kills = true)
      (hpc : (s.machine p).pc = .down) :
      Step s (.down p) (s.put i p rest
        ⟨{ s.kernel.proc p with down := true }, s.kernel.kept p, [.returned p .kDown]⟩)
  -- what a running coroutine calls outside `process::request`
  | call (i : W ⊕ C) (p : P) (phase : Phase V) (rest : List (Frame P V)) (co : Nat)
      (caller : Coroutines.Caller) (label : Coroutines.Label V) (machine : Coroutines.State V)
      (hruns : s.Runs i p phase rest) (hcode : phase.userCode = true)
      (hpc : (s.machine p).pc = .running co caller) (hrequest : s.request p co = .away)
      (hstep : Coroutines.Step (s.machine p) label machine) :
      Step s (.call p co label) (s.setMachine p machine)
  | newSession (i : W ⊕ C) (p : P) (phase : Phase V) (rest : List (Frame P V)) (co : Nat)
      (caller : Coroutines.Caller) (session : SessionT) (hruns : s.Runs i p phase rest)
      (hcode : phase.userCode = true) (hpc : (s.machine p).pc = .running co caller)
      (hrequest : s.request p co = .away) (hfresh : session ∉ s.sessions p) :
      Step s (.newSession p session)
        { s with sessions := Function.update s.sessions p (insert session (s.sessions p)) }
  | releaseSession (i : W ⊕ C) (p : P) (phase : Phase V) (rest : List (Frame P V)) (co : Nat)
      (caller : Coroutines.Caller) (session : SessionT) (hruns : s.Runs i p phase rest)
      (hcode : phase.userCode = true) (hpc : (s.machine p).pc = .running co caller)
      (hrequest : s.request p co = .away) :
      Step s (.releaseSession p session)
        { s with sessions := Function.update s.sessions p ((s.sessions p).erase session) }
  -- `process::request`
  | find (i : W ⊕ C) (p q : P) (phase : Phase V) (rest : List (Frame P V)) (co : Nat)
      (caller : Coroutines.Caller) (pid : ProcessT) (hruns : s.Runs i p phase rest)
      (hcode : phase.userCode = true) (hpc : (s.machine p).pc = .running co caller)
      (hrequest : s.request p co = .away) (hfind : s.kernel.registry.find pid = some q) :
      Step s (.find p co) ((s.put i q (.running p phase :: rest)
        ⟨(s.kernel.proc q).ref, s.kernel.kept q, [.holding q]⟩).setRequest p co (.found q))
  | allocate (i : W ⊕ C) (p q : P) (phase : Phase V) (rest : List (Frame P V)) (co : Nat)
      (session : SessionT) (hholds : s.Holds i q p phase rest co)
      (hrequest : s.request p co = .found q) (hfresh : session ∉ s.sessions p) :
      Step s (.allocate p co session)
        { s.setRequest p co (.opened q session) with
          sessions := Function.update s.sessions p (insert session (s.sessions p)) }
  | push (i : W ⊕ C) (p q : P) (phase : Phase V) (rest : List (Frame P V)) (co : Nat)
      (session : SessionT) (content : Content V) (hholds : s.Holds i q p phase rest co)
      (hrequest : s.request p co = .opened q session) :
      Step s (.push p co q session content) ((s.put i q (.running p phase :: rest)
        ⟨{ s.kernel.proc q with
            mailbox := (s.kernel.proc q).mailbox.append ⟨(s.kernel.proc p).pid, session, content⟩ },
          s.kernel.kept q, [.pushed q .handle]⟩).setRequest p co (.pushed q session))
  | block (i : W ⊕ C) (p q : P) (phase : Phase V) (rest : List (Frame P V)) (co : Nat)
      (session : SessionT) (machine : Coroutines.State V) (hholds : s.Holds i q p phase rest co)
      (hrequest : s.request p co = .pushed q session)
      (hstep : Coroutines.Step (s.machine p) (.wait co (some session)) machine) :
      Step s (.block p co q session) (((s.put i q (.running p phase :: rest)
        ⟨s.kernel.proc q, s.kernel.kept q + 1, []⟩).setMachine p machine).setRequest p co
          (.waiting q session))
  | unblock (i : W ⊕ C) (p q : P) (phase : Phase V) (rest : List (Frame P V)) (co kept : Nat)
      (session : SessionT) (outcome : Option (Coroutines.Outcome V)) (machine : Coroutines.State V)
      (hruns : s.Runs i p phase rest) (hcode : phase.userCode = true)
      (hrequest : s.request p co = .waiting q session) (hkept : s.kernel.kept q = kept + 1)
      (hstep : Coroutines.Step (s.machine p) (.resume co outcome) machine) :
      Step s (.unblock p co outcome) (((s.put i q (.running p phase :: rest)
        ⟨s.kernel.proc q, kept, [.holding q]⟩).setMachine p machine).setRequest p co
          (.returned q session))
  | close (i : W ⊕ C) (p q : P) (phase : Phase V) (rest : List (Frame P V)) (co : Nat)
      (session : SessionT) (hholds : s.Holds i q p phase rest co)
      (hrequest : s.request p co = .returned q session) :
      Step s (.close p co)
        { s.setRequest p co (.closed q) with
          sessions := Function.update s.sessions p ((s.sessions p).erase session) }
  | release (i : W ⊕ C) (p q : P) (phase : Phase V) (rest : List (Frame P V)) (co : Nat)
      (hholds : s.Holds i q p phase rest co) (hrequest : s.request p co = .closed q) :
      Step s .other ((s.put i q (.running p phase :: rest)
        ⟨(s.kernel.proc q).unref, s.kernel.kept q,
          (s.kernel.proc q).afterUnref q []⟩).setRequest p co .away)

def State.fresh : State P V W C where
  kernel := .fresh
  machine _ := .fresh
  request _ _ := .away
  sessions _ := ∅

def system : Transition.System (State P V W C) (Label P V) where
  init s := s = State.fresh
  step := Step

/-! ### One process at a time -/

section

omit [DecidableEq W] [DecidableEq C] [Fintype W]

theorem State.setMachine_self (s : State P V W C) (p : P) (machine : Coroutines.State V) :
    (s.setMachine p machine).machine p = machine :=
  Function.update_self _ _ _

theorem State.setMachine_of_ne (s : State P V W C) {p q : P} (hq : q ≠ p)
    (machine : Coroutines.State V) : (s.setMachine p machine).machine q = s.machine q :=
  Function.update_of_ne hq _ _

theorem State.setRequest_self (s : State P V W C) (p : P) (co : Nat) (request : Request P) :
    (s.setRequest p co request).request p co = request := by
  simp only [State.setRequest, Function.update_self]

theorem State.setRequest_apply (s : State P V W C) (p q : P) (co x : Nat) (request : Request P) :
    (s.setRequest p co request).request q x
      = if q = p ∧ x = co then request else s.request q x := by
  by_cases hq : q = p
  · subst hq
    simp only [State.setRequest, Function.update_self, Function.update_apply, true_and]
  · simp only [State.setRequest, Function.update_of_ne hq, hq, false_and, if_false]

theorem State.setRequest_of_ne (s : State P V W C) (p : P) {co x : Nat} (hne : x ≠ co)
    (request : Request P) : (s.setRequest p co request).request p x = s.request p x := by
  simp only [State.setRequest, Function.update_self, Function.update_of_ne hne]

end

/-! ### The kernel -/

theorem State.put_step {s : State P V W C} {i : W ⊕ C} {p : P} {rest : List (Frame P V)}
    {view : View P V} (taken : List (Frame P V)) (hsending : s.kernel.sched.sending i = false)
    (hstack : s.kernel.stack i = taken ++ rest)
    (hmove : Move i p rest .none (s.kernel.view p taken) view) :
    ∃ touched, Process.Step s.kernel touched (s.put i p rest view).kernel :=
  ⟨_, .move i p rest taken .none view _ _ hsending hstack hmove ⟨rfl, rfl⟩⟩

/-- What the processes do is what the kernel allows. -/
theorem Step.kernel {s s' : State P V W C} {label : Label P V} (hstep : Step s label s') :
    s'.kernel = s.kernel ∨ ∃ touched, Process.Step s.kernel touched s'.kernel := by
  cases hstep with
  | loop | call | newSession | releaseSession | allocate | close => exact Or.inl rfl
  | sched touched kernel hstep => exact Or.inr ⟨touched, hstep⟩
  | aside i p rest taken effect view registry sched hsending hstack hmove hacts =>
      exact Or.inr ⟨_, .move i p rest taken effect view registry sched hsending hstack hmove hacts⟩
  | send i p rest msg hsending hstack =>
      exact Or.inr (s.put_step [.holding p] hsending hstack (.append _ _ msg))
  | sendSelf i p phase rest msg hruns hcode =>
      exact Or.inr (s.put_step [.running p phase] hruns.1 hruns.2 (.appendSelf _ _ msg phase hcode))
  | drain i p rest hsending hstack =>
      exact Or.inr (s.put_step [.destroying p] hsending hstack (.drain _ _))
  | create i p pid registry hsending hfresh hcall houtside hreg =>
      exact Or.inr ⟨_, .move i p _ [] (.reg pid) _ registry _ hsending rfl
        (.create _ _ pid hfresh hcall) ⟨hreg, rfl⟩⟩
  | take i p rest msg hruns hpc htake =>
      exact Or.inr (s.put_step [.running p .dispatch] hruns.1 hruns.2 (.take _ _ msg htake))
  | takeNothing i p rest hruns hpc htake =>
      exact Or.inr (s.put_step [.running p .dispatch] hruns.1 hruns.2 (.takeNothing _ _ htake))
  | handled i p rest msg hruns hkills =>
      exact Or.inr (s.put_step [.running p (.handle msg)] hruns.1 hruns.2 (.handled _ _ msg hkills))
  | down i p phase rest hruns hkills hpc =>
      refine Or.inr (s.put_step [.running p phase] hruns.1 hruns.2 ?_)
      cases phase with
      | dispatch => exact .dispatchDown _ _
      | handle msg => exact .killed _ _ msg (hkills msg rfl)
  | find i p q phase rest co caller pid hruns hcode hpc hrequest hfind =>
      exact Or.inr ⟨_, .move i q (.running p phase :: rest) [] (.find pid) _ _ _ hruns.1 hruns.2
        (.find _ _ pid hcode) ⟨hfind, rfl, rfl⟩⟩
  | push i p q phase rest co session content hholds =>
      exact Or.inr (s.put_step [.holding q] hholds.1 hholds.2.1 (.append _ _ _))
  | block i p q phase rest co session machine hholds =>
      exact Or.inr (s.put_step [.holding q] hholds.1 hholds.2.1 (.keep _ _ hholds.2.2.1))
  | unblock i p q phase rest co kept session outcome machine hruns hcode hrequest hkept =>
      refine Or.inr (s.put_step [] hruns.1 hruns.2 ?_)
      rw [Process.State.view, hkept]
      exact .restore _ _ hcode
  | release i p q phase rest co hholds =>
      exact Or.inr (s.put_step [.holding q] hholds.1 hholds.2.1 (.release _ _))

theorem kernel_reachable {s : State P V W C} (hs : system.Reachable s) :
    Process.system.Reachable s.kernel := by
  refine Transition.System.Reachable.invariant
    (P := fun s => Process.system.Reachable s.kernel) ?_ ?_ hs
  · rintro s rfl
    exact .of_init rfl
  · intro s label s' _ hs hstep
    obtain hsame | ⟨touched, hkernel⟩ := hstep.kernel
    · rw [hsame]
      exact hs
    · exact hs.step hkernel

end Stp.Net
