import Stp.Coroutines.Outcome
import Stp.Coroutines.Queues

/-!
# The coroutine mutex

`Mutex::lock`, `try_lock` and `unlock` over the coroutines of one process. The queue of a mutex has
the coroutine that holds it in front and those that wait behind it, and `unlock` hands the mutex over
by popping the front and waking the next one, which holds it from then on although it has not run
yet. A step is a call, a return from `lock` after a wait, or any other step of the process.

A coroutine that waits in `lock` is woken only by `unlock`. The lists `called` and `acquired` are not
in the program: who has called `lock`, or `try_lock` with success, and who has returned from it.
-/

namespace Stp.Mutex

open Process

variable {V : Type*}

/-- Where a coroutine stands: outside, in `lock`, or between its return and `unlock`. -/
inductive Phase where
  | outside
  | locking
  | holding
deriving DecidableEq

structure State (V : Type*) where
  process : Coroutines.State V
  coroutines : List Nat
  phase : Nat → Phase
  called : List Nat
  acquired : List Nat

/-- `try_lock`: whether it succeeds, and the queue it leaves. -/
def tryLock (coroutines : List Nat) (running : Nat) : Bool × List Nat :=
  if coroutines = [] then (true, coroutines ++ [running]) else (false, coroutines)

/-- The rest of `unlock`, past the assertions. -/
def unlock (process : Coroutines.State V) (coroutines : List Nat) :
    Coroutines.State V × List Nat :=
  match coroutines.tail with
  | [] => (process, [])
  | pending :: rest => (process.wakeup pending, pending :: rest)

/-- The mutex is taken: the coroutine has it, and its call returns. -/
def State.take (s : State V) (co : Nat) : State V :=
  { s with
    coroutines := s.coroutines ++ [co]
    phase := Function.update s.phase co .holding
    called := s.called ++ [co]
    acquired := s.acquired ++ [co] }

/-- The coroutine is queued, and it suspends itself. -/
def State.enqueue (s : State V) (co : Nat) (process : Coroutines.State V) : State V :=
  { s with
    process := process
    coroutines := s.coroutines ++ [co]
    phase := Function.update s.phase co .locking
    called := s.called ++ [co] }

/-- `suspend` has returned in `lock`. -/
def State.acquire (s : State V) (co : Nat) (process : Coroutines.State V) : State V :=
  { s with
    process := process
    phase := Function.update s.phase co .holding
    acquired := s.acquired ++ [co] }

/-- `suspend` has thrown in `lock`. -/
def State.leave (s : State V) (co : Nat) (process : Coroutines.State V) : State V :=
  { s with
    process := process
    coroutines := s.coroutines.filter (· ≠ co)
    phase := Function.update s.phase co .outside }

def State.unlock (s : State V) (co : Nat) : State V :=
  { s with
    process := (Mutex.unlock s.process s.coroutines).1
    coroutines := (Mutex.unlock s.process s.coroutines).2
    phase := Function.update s.phase co .outside }

inductive Label where
  | other
  | lock (co : Nat)
  /-- `lock` on a mutex that is taken. -/
  | wait (co : Nat)
  | tryLock (co : Nat) (success : Bool)
  | returns (co : Nat)
  | throws (co : Nat)
  | unlock (co : Nat)

inductive Step (s : State V) : Label → State V → Prop
  | other (label : Coroutines.Label V) (process : Coroutines.State V)
      (hstep : Coroutines.Step s.process label process)
      (hresume : ∀ co outcome, label = .resume co outcome → s.phase co ≠ .locking)
      (hwoken : ∀ co, s.phase co = .locking → co ∈ s.process.suspendCoroutines →
        co ∈ process.suspendCoroutines) :
      Step s .other { s with process := process }
  | lock (co : Nat) (caller : Coroutines.Caller) (hpc : s.process.pc = .running co caller)
      (hempty : s.coroutines = []) : Step s (.lock co) (s.take co)
  | wait (co front : Nat) (rest : List Nat) (process : Coroutines.State V)
      (hqueue : s.coroutines = front :: rest) (hfront : front ≠ co)
      (hstep : Coroutines.Step s.process (.wait co none) process) :
      Step s (.wait co) (s.enqueue co process)
  | returns (co : Nat) (value : Content V) (process : Coroutines.State V)
      (hphase : s.phase co = .locking)
      (hstep : Coroutines.Step s.process (.resume co (some (.ok value))) process) :
      Step s (.returns co) (s.acquire co process)
  | throws (co : Nat) (e : Thrown) (process : Coroutines.State V)
      (hphase : s.phase co = .locking)
      (hstep : Coroutines.Step s.process (.resume co (some (.error e))) process) :
      Step s (.throws co) (s.leave co process)
  | tryLock (co : Nat) (caller : Coroutines.Caller) (hpc : s.process.pc = .running co caller) :
      Step s (.tryLock co (tryLock s.coroutines co).1)
        (if (tryLock s.coroutines co).1 then s.take co else s)
  -- the assertions in `unlock` let only the front of the queue through
  | unlock (co : Nat) (rest : List Nat) (caller : Coroutines.Caller)
      (hpc : s.process.pc = .running co caller) (hqueue : s.coroutines = co :: rest) :
      Step s (.unlock co) (s.unlock co)

def State.fresh : State V where
  process := .fresh
  coroutines := []
  phase _ := .outside
  called := []
  acquired := []

def system : Transition.System (State V) Label where
  init s := s = State.fresh
  step := Step

/-- No coroutine calls `lock` on a mutex that is taken with an exception of an earlier wait still in
its `Result`. -/
def Label.Fresh (s : State V) : Label → Prop
  | .wait co => (s.process.co co).result.exception = none
  | _ => True

/-- **Mutual exclusion.** One coroutine at most has the mutex, and it is the front of the queue;
whoever is the front has it or is due to be resumed; those that wait get it in the order of their
calls; `try_lock` succeeds when nobody has it or waits; and the coroutine whose wait in `lock` returns
is the front. -/
structure Excludes (s : State V) : Prop where
  one : ∀ co co', s.phase co = .holding → s.phase co' = .holding → co = co'
  front : ∀ co, s.phase co = .holding → s.coroutines.head? = some co
  handed : ∀ co, s.coroutines.head? = some co → s.phase co = .holding
    ∨ (co ∈ s.process.wakeupCoroutines ∧ co ∉ s.process.suspendCoroutines)
  fifo : s.called = s.acquired ++ s.coroutines.filter fun co => s.phase co = .locking
  tryLock : ∀ running, (Mutex.tryLock s.coroutines running).1 = true
    ↔ ∀ co, s.phase co = .outside
  returned : ∀ co outcome process, s.phase co = .locking →
    Coroutines.Step s.process (.resume co outcome) process → s.coroutines.head? = some co

/-! ### The invariant -/

/-- A coroutine that waits in `lock` is suspended, except for the front of the queue, which has been
woken; and it has no exception in its `Result`. -/
structure Fair (s : State V) : Prop where
  slots : Coroutines.Slots s.process
  nodup : s.coroutines.Nodup
  mem : ∀ co, co ∈ s.coroutines ↔ s.phase co ≠ .outside
  front : ∀ co rest, s.coroutines = co :: rest →
    s.phase co = .holding ∨ (s.phase co = .locking ∧ co ∈ s.process.wakeupCoroutines)
  behind : ∀ co ∈ s.coroutines.tail, s.phase co = .locking ∧ co ∈ s.process.suspendCoroutines
  locking : ∀ co, s.phase co = .locking →
    (s.process.co co).started = true ∧ (s.process.co co).result.exception = none
  fifo : s.called = s.acquired ++ s.coroutines.filter fun co => s.phase co = .locking

theorem fair_fresh : Fair (State.fresh : State V) where
  slots := Coroutines.slots_fresh
  nodup := List.nodup_nil
  mem _ := ⟨fun hco => absurd hco List.not_mem_nil, fun hphase => absurd rfl hphase⟩
  front _ _ hqueue := absurd hqueue (List.cons_ne_nil _ _).symm
  behind _ hco := absurd hco List.not_mem_nil
  locking _ hphase := by cases hphase
  fifo := rfl

/-- Whoever waits in `lock` is the front and woken, or suspended. -/
theorem Fair.waiting {s : State V} (hs : Fair s) {co : Nat} (hphase : s.phase co = .locking) :
    (s.coroutines.head? = some co ∧ co ∈ s.process.wakeupCoroutines)
      ∨ co ∈ s.process.suspendCoroutines := by
  have hmem : co ∈ s.coroutines := (hs.mem co).mpr (by rw [hphase]; nofun)
  cases hqueue : s.coroutines with
  | nil =>
      rw [hqueue] at hmem
      exact absurd hmem List.not_mem_nil
  | cons front rest =>
      rw [hqueue] at hmem
      obtain rfl | hmem := List.mem_cons.mp hmem
      · obtain hholding | ⟨-, hwoken⟩ := hs.front co rest hqueue
        · rw [hphase] at hholding
          cases hholding
        · exact Or.inl ⟨rfl, hwoken⟩
      · refine Or.inr (hs.behind co ?_).2
        rw [hqueue]
        exact hmem

theorem Fair.created {s : State V} (hs : Fair s) {co : Nat}
    (hco : 0 < s.process.queued co + s.process.unanswered co) :
    co < s.process.created ∧ s.process.queued co + s.process.unanswered co = 1 := by
  have honce := hs.slots.once co
  rw [Coroutines.born] at honce
  split at honce
  · exact ⟨‹_›, by omega⟩
  · omega

/-- A coroutine that runs or is due to be resumed is not suspended. -/
theorem Fair.not_suspended {s : State V} (hs : Fair s) {co : Nat}
    (hco : 0 < s.process.queued co + s.process.pc.current.count co) :
    co ∉ s.process.suspendCoroutines := by
  intro hmem
  have honce := hs.slots.once co
  have hpositive := List.count_pos_iff.mpr hmem
  rw [Coroutines.State.unanswered, Coroutines.born] at honce
  split at honce <;> omega

theorem Fair.not_locking {s : State V} (hs : Fair s) {co : Nat} {caller : Coroutines.Caller}
    (hpc : s.process.pc = .running co caller) : s.phase co ≠ .locking := by
  intro hphase
  have hcurrent : s.process.pc.current.count co = 1 := by
    rw [hpc, Coroutines.Pc.current, List.count_cons_self, List.count_nil]
  obtain ⟨-, hwoken⟩ | hsuspended := hs.waiting hphase
  · have honce := hs.slots.once co
    have hpositive := List.count_pos_iff.mpr hwoken
    rw [Coroutines.State.queued, Coroutines.State.unanswered, Coroutines.born] at honce
    split at honce <;> omega
  · exact hs.not_suspended (by omega) hsuspended

/-- Only the front is resumed in `lock`. -/
theorem Fair.resumed {s : State V} (hs : Fair s) {co : Nat}
    {outcome : Option (Coroutines.Outcome V)} {process : Coroutines.State V}
    (hphase : s.phase co = .locking)
    (hstep : Coroutines.Step s.process (.resume co outcome) process) :
    ∃ rest, s.coroutines = co :: rest := by
  have hqueued := hstep.resume_spec.queued
  obtain ⟨hfront, -⟩ | hsuspended := hs.waiting hphase
  · exact List.head?_eq_some_iff.mp hfront
  · exact absurd hsuspended (hs.not_suspended (by omega))

theorem filter_locking_update {coroutines : List Nat} {phase : Nat → Phase} {co : Nat}
    (hco : co ∉ coroutines) (next : Phase) :
    coroutines.filter (fun x => Function.update phase co next x = .locking)
      = coroutines.filter fun x => phase x = .locking := by
  refine List.filter_congr fun x hx => ?_
  have hne : x ≠ co := by
    rintro rfl
    exact hco hx
  rw [Function.update_of_ne hne]

/-! ### The calls -/

theorem Fair.outside {s : State V} (hs : Fair s) (hempty : s.coroutines = []) (co : Nat) :
    s.phase co = .outside := by
  by_contra hphase
  have hmem := (hs.mem co).mpr hphase
  rw [hempty] at hmem
  exact List.not_mem_nil hmem

theorem Fair.take {s : State V} (hs : Fair s) (co : Nat) (hempty : s.coroutines = []) :
    Fair (s.take co) := by
  have hqueue : (s.take co).coroutines = [co] := by
    simp only [State.take, hempty, List.nil_append]
  have hself : (s.take co).phase co = .holding := Function.update_self _ _ _
  have hother : ∀ x, x ≠ co → (s.take co).phase x = .outside := fun x hx =>
    (Function.update_of_ne hx _ _).trans (hs.outside hempty x)
  refine ⟨hs.slots, ?_, fun x => ?_, fun x rest hx => ?_, fun x hx => ?_, fun x hx => ?_, ?_⟩
  · rw [hqueue]
    exact List.pairwise_singleton _ co
  · rw [hqueue, List.mem_singleton]
    by_cases hx : x = co
    · subst hx
      rw [hself]
      exact ⟨fun _ => nofun, fun _ => rfl⟩
    · rw [hother x hx]
      exact ⟨fun h => absurd h hx, fun h => absurd rfl h⟩
  · rw [hqueue, List.cons.injEq] at hx
    rw [← hx.1]
    exact Or.inl hself
  · rw [hqueue] at hx
    exact absurd hx List.not_mem_nil
  · by_cases hne : x = co
    · rw [hne, hself] at hx
      cases hx
    · rw [hother x hne] at hx
      cases hx
  · have hcalled : s.called = s.acquired := by
      rw [hs.fifo, hempty, List.filter_nil, List.append_nil]
    have hnone : [co].filter (fun x => (s.take co).phase x = .locking) = [] := by
      rw [List.filter_singleton, hself]
      rfl
    rw [hqueue, hnone, List.append_nil]
    simp only [State.take, hcalled]

/-- What the call of `suspend` makes of the process. -/
theorem suspend_spec {process process' : Coroutines.State V} {co : Nat}
    (hstep : Coroutines.Step process (.wait co none) process') :
    (∃ caller, process.pc = .running co caller)
      ∧ process'.wakeupCoroutines = process.wakeupCoroutines
      ∧ process'.suspendCoroutines = process.suspendCoroutines.insert co := by
  cases hstep with
  | suspend co caller hpc =>
      obtain ⟨-, -, -, hwoken, hsuspended, -, -⟩ :=
        (process.suspend co).switchBack_spec co caller
      exact ⟨⟨caller, hpc⟩, hwoken, hsuspended⟩

theorem suspend_exception {process process' : Coroutines.State V} {co : Nat}
    (hstep : Coroutines.Step process (.wait co none) process')
    (hnone : (process.co co).result.exception = none) :
    (process'.co co).result.exception = none := by
  cases hstep with
  | suspend co caller hpc =>
      have hsame : ((process.suspend co).co co).result.exception = none := hnone
      rw [Coroutines.State.switchBack_wait caller hsame]
      change (Coroutines.State.co (Coroutines.State.setCo _ _ _) co).result.exception = none
      rw [Coroutines.State.setCo_same]
      exact hsame

/-- Waiting goes on for those that stay where they are. -/
theorem Fair.keeps {s : State V} (hs : Fair s) {label : Coroutines.Label V}
    {process : Coroutines.State V} (hstep : Coroutines.Step s.process label process)
    {co : Nat} (hphase : s.phase co = .locking) (hspares : label.Spares co)
    (hwoken : co ∈ s.process.suspendCoroutines → co ∈ process.suspendCoroutines) :
    (process.co co).started = true ∧ (process.co co).result.exception = none := by
  obtain ⟨hstarted, hnone⟩ := hs.locking co hphase
  have hwhere : co ∈ s.process.wakeupCoroutines
      ∨ (co ∈ s.process.suspendCoroutines ∧ co ∈ process.suspendCoroutines) := by
    obtain ⟨-, hwoken⟩ | hsuspended := hs.waiting hphase
    · exact Or.inl hwoken
    · exact Or.inr ⟨hsuspended, hwoken hsuspended⟩
  have hlive : 0 < s.process.queued co + s.process.unanswered co := by
    rw [Coroutines.State.queued, Coroutines.State.unanswered]
    obtain hmem | ⟨hmem, -⟩ := hwhere <;>
    · have := List.count_pos_iff.mpr hmem
      omega
  refine ⟨hstep.started_kept (hs.created hlive).1 hstarted, ?_⟩
  rw [hstep.exception_kept (hs.slots.once co) hspares hwhere]
  exact hnone

theorem Fair.other {s : State V} (hs : Fair s) {label : Coroutines.Label V}
    {process : Coroutines.State V} (hstep : Coroutines.Step s.process label process)
    (hresume : ∀ co outcome, label = .resume co outcome → s.phase co ≠ .locking)
    (hwoken : ∀ co, s.phase co = .locking → co ∈ s.process.suspendCoroutines →
      co ∈ process.suspendCoroutines) : Fair { s with process := process } := by
  have hspares : ∀ co, s.phase co = .locking → label.Spares co :=
    fun co hphase outcome hlabel => hresume co outcome hlabel hphase
  refine { hs with slots := hstep.slots hs.slots, front := ?_, behind := ?_, locking := ?_ }
  · intro co rest hqueue
    obtain hholding | ⟨hphase, hmem⟩ := hs.front co rest hqueue
    · exact Or.inl hholding
    · exact Or.inr ⟨hphase, hstep.woken_stays hmem (hspares co hphase)⟩
  · intro co hco
    obtain ⟨hphase, hsuspended⟩ := hs.behind co hco
    exact ⟨hphase, hwoken co hphase hsuspended⟩
  · intro co hphase
    exact hs.keeps hstep hphase (hspares co hphase) (hwoken co hphase)

theorem Fair.enqueue {s : State V} (hs : Fair s) {co front : Nat} {rest : List Nat}
    {process : Coroutines.State V} (hqueue : s.coroutines = front :: rest)
    (hstep : Coroutines.Step s.process (.wait co none) process)
    (hnone : (s.process.co co).result.exception = none) (hfront : front ≠ co) :
    Fair (s.enqueue co process) := by
  obtain ⟨⟨caller, hpc⟩, hwoken, hsuspended⟩ := suspend_spec hstep
  have hnot := hs.not_locking hpc
  have hmem : co ∉ s.coroutines := by
    intro hmem
    rw [hqueue] at hmem
    refine hnot (hs.behind co ?_).1
    rw [hqueue]
    exact (List.mem_cons.mp hmem).resolve_left fun h => hfront h.symm
  have hself : (s.enqueue co process).phase co = .locking := Function.update_self _ _ _
  have hother : ∀ x, x ≠ co → (s.enqueue co process).phase x = s.phase x := fun x hx =>
    Function.update_of_ne hx _ _
  have hcoroutines : (s.enqueue co process).coroutines = front :: (rest ++ [co]) := by
    simp only [State.enqueue, hqueue, List.cons_append]
  refine ⟨hstep.slots hs.slots, ?_, fun x => ?_, fun x rest' hx => ?_, fun x hx => ?_,
    fun x hx => ?_, ?_⟩
  · refine List.pairwise_append.mpr ⟨hs.nodup, List.pairwise_singleton _ co, ?_⟩
    rintro x hx y hy rfl
    exact hmem (List.mem_singleton.mp hy ▸ hx)
  · by_cases hx : x = co
    · subst hx
      rw [hself]
      exact ⟨fun _ => nofun, fun _ => List.mem_append_right _ (List.mem_singleton_self x)⟩
    · rw [hother x hx, ← hs.mem x]
      change x ∈ s.coroutines ++ [co] ↔ _
      rw [List.mem_append, List.mem_singleton, or_iff_left hx]
  · rw [hcoroutines, List.cons.injEq] at hx
    rw [← hx.1, hother front hfront]
    change _ ∨ (_ ∧ front ∈ process.wakeupCoroutines)
    rw [hwoken]
    exact hs.front front rest hqueue
  · rw [hcoroutines, List.tail_cons, List.mem_append, List.mem_singleton] at hx
    change _ ∧ x ∈ process.suspendCoroutines
    rw [hsuspended, List.mem_insert_iff]
    by_cases hne : x = co
    · subst hne
      exact ⟨hself, Or.inl rfl⟩
    · rw [hother x hne]
      obtain ⟨hphase, hmem⟩ := hs.behind x (by
        rw [hqueue]
        exact hx.resolve_right hne)
      exact ⟨hphase, Or.inr hmem⟩
  · by_cases hne : x = co
    · subst hne
      have hrunning : 0 < s.process.unanswered x := by
        rw [Coroutines.State.unanswered, hpc, Coroutines.Pc.current, List.count_cons_self]
        omega
      have hcreated := (hs.created (Nat.add_pos_right _ hrunning)).1
      exact ⟨hstep.started_kept hcreated (hs.slots.unanswered x hrunning).1,
        suspend_exception hstep hnone⟩
    · rw [hother x hne] at hx
      refine hs.keeps hstep hx (by rintro _ ⟨⟩) fun hmem => ?_
      rw [hsuspended, List.mem_insert_iff]
      exact Or.inr hmem
  · have hlast : [co].filter (fun x => (s.enqueue co process).phase x = .locking) = [co] := by
      rw [List.filter_singleton, hself]
      rfl
    have hbefore : s.coroutines.filter (fun x => (s.enqueue co process).phase x = .locking)
        = s.coroutines.filter fun x => s.phase x = .locking := filter_locking_update hmem _
    change s.called ++ [co] = s.acquired ++ (s.coroutines ++ [co]).filter _
    rw [List.filter_append, hlast, hbefore, ← List.append_assoc, ← hs.fifo]

theorem Fair.acquire {s : State V} (hs : Fair s) {co : Nat}
    {outcome : Option (Coroutines.Outcome V)} {process : Coroutines.State V}
    (hphase : s.phase co = .locking)
    (hstep : Coroutines.Step s.process (.resume co outcome) process) :
    Fair (s.acquire co process) := by
  obtain ⟨rest, hqueue⟩ := hs.resumed hphase hstep
  have hnodup := hs.nodup
  rw [hqueue] at hnodup
  obtain ⟨hmem, -⟩ := List.nodup_cons.mp hnodup
  have hself : (s.acquire co process).phase co = .holding := Function.update_self _ _ _
  have hother : ∀ x, x ≠ co → (s.acquire co process).phase x = s.phase x := fun x hx =>
    Function.update_of_ne hx _ _
  refine ⟨hstep.slots hs.slots, hs.nodup, fun x => ?_, fun x rest' hx => ?_, fun x hx => ?_,
    fun x hx => ?_, ?_⟩
  · refine (hs.mem x).trans ?_
    by_cases hx : x = co
    · subst hx
      rw [hself, hphase]
      exact ⟨fun _ => nofun, fun _ => nofun⟩
    · rw [hother x hx]
  · have hx : s.coroutines = x :: rest' := hx
    rw [hqueue, List.cons.injEq] at hx
    rw [← hx.1]
    exact Or.inl hself
  · obtain ⟨hx', hsuspended⟩ := hs.behind x hx
    have hne : x ≠ co := by
      rintro rfl
      change x ∈ s.coroutines.tail at hx
      rw [hqueue] at hx
      exact hmem hx
    rw [hother x hne]
    refine ⟨hx', ?_⟩
    change x ∈ process.suspendCoroutines
    rw [hstep.resume_frame.suspended]
    exact hsuspended
  · by_cases hne : x = co
    · rw [hne, hself] at hx
      cases hx
    · rw [hother x hne] at hx
      refine hs.keeps hstep hx (fun outcome hlabel => ?_) fun hsuspended => ?_
      · injection hlabel with hco
        exact hne hco.symm
      · rw [hstep.resume_frame.suspended]
        exact hsuspended
  · have hrest : rest.filter (fun x => (s.acquire co process).phase x = .locking)
        = rest.filter fun x => s.phase x = .locking := filter_locking_update hmem _
    change s.called = (s.acquired ++ [co]) ++ s.coroutines.filter _
    rw [hs.fifo, hqueue, List.filter_cons_of_pos (by simpa using hphase),
      List.filter_cons_of_neg (by simp [hself]), hrest, List.append_assoc, List.singleton_append]

/-- The queue and the process when the holder has left and the next coroutine has been woken. -/
theorem unlock_spec (process : Coroutines.State V) (co : Nat) (rest : List Nat) :
    (unlock process (co :: rest)).2 = rest
      ∧ (unlock process (co :: rest)).1 = match rest.head? with
        | none => process
        | some pending => process.wakeup pending := by
  cases rest <;> exact ⟨rfl, rfl⟩

theorem Fair.unlock {s : State V} (hs : Fair s) {co : Nat} {rest : List Nat}
    {caller : Coroutines.Caller} (hpc : s.process.pc = .running co caller)
    (hqueue : s.coroutines = co :: rest) : Fair (s.unlock co) := by
  obtain ⟨hcoroutines, hprocess⟩ := unlock_spec s.process co rest
  have hnodup := hs.nodup
  rw [hqueue] at hnodup
  obtain ⟨hmem, hnodup⟩ := List.nodup_cons.mp hnodup
  have hbehind : ∀ x ∈ rest, s.phase x = .locking ∧ x ∈ s.process.suspendCoroutines := by
    intro x hx
    refine hs.behind x ?_
    rw [hqueue]
    exact hx
  have hcoroutines : (s.unlock co).coroutines = rest := by
    rw [State.unlock, hqueue]
    exact hcoroutines
  have hprocess : (s.unlock co).process = match rest.head? with
      | none => s.process
      | some pending => s.process.wakeup pending := by
    rw [State.unlock, hqueue]
    exact hprocess
  have hco : (s.unlock co).process.co = s.process.co := by
    rw [hprocess]
    cases rest.head? with
    | none => rfl
    | some pending => exact (s.process.wakeup_eq pending).co
  have hself : (s.unlock co).phase co = .outside := Function.update_self _ _ _
  have hother : ∀ x, x ≠ co → (s.unlock co).phase x = s.phase x := fun x hx =>
    Function.update_of_ne hx _ _
  have hne : ∀ x ∈ rest, x ≠ co := by
    rintro x hx rfl
    exact hmem hx
  refine ⟨?_, ?_, fun x => ?_, fun x rest' hx => ?_, fun x hx => ?_, fun x hx => ?_, ?_⟩
  · rw [hprocess]
    cases rest.head? with
    | none => exact hs.slots
    | some pending => exact (Coroutines.Step.wakeup co pending caller hpc).slots hs.slots
  · rw [hcoroutines]
    exact hnodup
  · rw [hcoroutines]
    by_cases hx : x = co
    · subst hx
      rw [hself]
      exact ⟨fun h => absurd h hmem, fun h => absurd rfl h⟩
    · rw [hother x hx, ← hs.mem x, hqueue, List.mem_cons, or_iff_right hx]
  · rw [hcoroutines] at hx
    subst hx
    obtain ⟨hphase, hsuspended⟩ := hbehind x (List.mem_cons_self ..)
    rw [hother x (hne x (List.mem_cons_self ..)), hprocess]
    exact Or.inr ⟨hphase, Coroutines.State.mem_wakeup_self hsuspended⟩
  · rw [hcoroutines] at hx
    cases rest with
    | nil => exact absurd hx List.not_mem_nil
    | cons pending rest =>
        rw [List.tail_cons] at hx
        obtain ⟨hphase, hsuspended⟩ := hbehind x (List.mem_cons_of_mem _ hx)
        rw [hother x (hne x (List.mem_cons_of_mem _ hx)), hprocess]
        refine ⟨hphase, Coroutines.State.wakeup_spares ?_ hsuspended⟩
        rintro rfl
        exact (List.nodup_cons.mp hnodup).1 hx
  · have hx' : x ≠ co := by
      rintro rfl
      rw [hself] at hx
      cases hx
    rw [hother x hx'] at hx
    rw [hco]
    exact hs.locking x hx
  · have hrest : rest.filter (fun x => (s.unlock co).phase x = .locking)
        = rest.filter fun x => s.phase x = .locking := filter_locking_update hmem _
    have hnot := hs.not_locking hpc
    change s.called = s.acquired ++ (s.unlock co).coroutines.filter _
    rw [hcoroutines, hrest, hs.fifo, hqueue, List.filter_cons_of_neg (by simpa using hnot)]

theorem Step.fair {s s' : State V} {label : Label} (hstep : Step s label s')
    (hfresh : label.Fresh s) (hs : Fair s) : Fair s' := by
  cases hstep with
  | other label process hstep hresume hwoken => exact hs.other hstep hresume hwoken
  | lock co caller hpc hempty => exact hs.take co hempty
  | wait co front rest process hqueue hfront hstep => exact hs.enqueue hqueue hstep hfresh hfront
  | returns co value process hphase hstep => exact hs.acquire hphase hstep
  | throws co e process hphase hstep =>
      obtain ⟨hstarted, hnone⟩ := hs.locking co hphase
      have houtcome := hstep.resume_spec.outcome
      rw [Coroutines.Coroutine.switchTo, if_pos hstarted,
        Coroutines.Result.getValue_wait hnone] at houtcome
      injection houtcome with houtcome
      cases houtcome
  | tryLock co caller hpc =>
      by_cases hempty : s.coroutines = []
      · rw [Mutex.tryLock, if_pos hempty]
        exact hs.take co hempty
      · rw [Mutex.tryLock, if_neg hempty]
        exact hs
  | unlock co rest caller hpc hqueue => exact hs.unlock hpc hqueue

theorem Fair.excludes {s : State V} (hs : Fair s) : Excludes s := by
  have hfront : ∀ co, s.phase co = .holding → s.coroutines.head? = some co := by
    intro co hphase
    have hmem := (hs.mem co).mpr (by rw [hphase]; nofun)
    cases hqueue : s.coroutines with
    | nil =>
        rw [hqueue] at hmem
        exact absurd hmem List.not_mem_nil
    | cons front rest =>
        rw [hqueue] at hmem
        obtain rfl | hmem := List.mem_cons.mp hmem
        · rfl
        · have hlocking := (hs.behind co (by rw [hqueue]; exact hmem)).1
          rw [hphase] at hlocking
          cases hlocking
  refine ⟨fun co co' hco hco' => ?_, hfront, fun co hco => ?_, hs.fifo, fun running => ?_,
    fun co outcome process hphase hstep => ?_⟩
  · exact Option.some.inj ((hfront co hco).symm.trans (hfront co' hco'))
  · obtain ⟨rest, hqueue⟩ := List.head?_eq_some_iff.mp hco
    refine (hs.front co rest hqueue).imp_right fun ⟨_, hwoken⟩ => ⟨hwoken, ?_⟩
    refine hs.not_suspended ?_
    have := List.count_pos_iff.mpr hwoken
    rw [Coroutines.State.queued]
    omega
  · unfold tryLock
    by_cases hempty : s.coroutines = []
    · rw [if_pos hempty]
      exact ⟨fun _ => hs.outside hempty, fun _ => rfl⟩
    · rw [if_neg hempty]
      refine ⟨Bool.noConfusion, fun houtside => absurd ?_ hempty⟩
      refine List.eq_nil_iff_forall_not_mem.mpr fun co hco => ?_
      exact (hs.mem co).mp hco (houtside co)
  · obtain ⟨rest, hqueue⟩ := hs.resumed hphase hstep
    rw [hqueue]
    rfl

/-- **The mutex excludes, is first come first served and loses no waiter**, in every run in which no
coroutine calls `lock` on a taken mutex with an exception of an earlier wait still in its `Result`. -/
theorem mutex_excludes {s : State V}
    (hs : (system.restrict fun s label => label.Fresh s).Reachable s) : Excludes s := by
  refine Fair.excludes (Transition.System.Reachable.invariant ?_ ?_ hs)
  · rintro s rfl
    exact fair_fresh
  · intro s label s' _ hs ⟨hstep, hfresh⟩
    exact hstep.fair hfresh hs

/-- A coroutine waits in `lock`, is handed the mutex and returns. -/
theorem mutex_excludes_two :
    ∃ s : State Nat, s.acquired = [0, 1] ∧ s.phase 1 = .holding ∧ Excludes s := by
  have h0 : (system.restrict fun s label => label.Fresh s).Reachable (State.fresh : State Nat) :=
    .of_init rfl
  have h1 := h0.step ⟨.other _ _ (.dispatch rfl) nofun fun _ _ h => h, trivial⟩
  have h2 := h1.step ⟨.other _ _ (.enter rfl (Or.inl (List.cons_ne_nil _ _))) nofun
    fun _ _ h => h, trivial⟩
  have h3 := h2.step ⟨.other _ _ (.resumeSpawned 0 [] rfl rfl ⟨rfl, rfl⟩) (fun _ _ _ => nofun)
    fun _ _ h => h, trivial⟩
  have h4 := h3.step ⟨.other _ _ (.spawn 0 .spawning rfl) nofun fun _ _ h => h, trivial⟩
  have h5 := h4.step ⟨.other _ _ (.spawn 0 .spawning rfl) nofun fun _ _ h => h, trivial⟩
  have h6 := h5.step ⟨.lock 0 .spawning rfl rfl, trivial⟩
  have h7 := h6.step ⟨.other _ _ (.suspend 0 .spawning rfl) nofun
    fun _ _ h => List.mem_insert_of_mem h, trivial⟩
  have h8 := h7.step ⟨.other _ _ (.resumeSpawned 1 [2] rfl rfl ⟨rfl, rfl⟩)
    (fun _ _ hlabel => by cases hlabel; nofun) fun _ _ h => h, trivial⟩
  have h9 := h8.step ⟨.wait 1 0 [] _ rfl nofun (.suspend 1 .spawning rfl), rfl⟩
  have h10 := h9.step ⟨.other _ _ (.resumeSpawned 2 [] rfl rfl ⟨rfl, rfl⟩)
    (fun _ _ hlabel => by cases hlabel; nofun) fun _ _ h => h, trivial⟩
  have h11 := h10.step ⟨.other _ _ (.wakeup 2 0 .spawning rfl) nofun fun co hphase h =>
    Coroutines.State.wakeup_spares (by rintro rfl; cases hphase) h, trivial⟩
  have h12 := h11.step ⟨.other _ _ (.finish 2 .spawning .coroutineExit rfl) nofun
    fun _ _ h => h, trivial⟩
  have h13 := h12.step ⟨.other _ _ (.spawningDone rfl rfl) nofun fun _ _ h => h, trivial⟩
  have h14 := h13.step ⟨.other _ _ (.resumeWoken 0 [] rfl rfl ⟨rfl, rfl⟩)
    (fun _ _ hlabel => by cases hlabel; nofun) fun _ _ h => h, trivial⟩
  have h15 := h14.step ⟨.unlock 0 [1] .waking rfl rfl, trivial⟩
  have h16 := h15.step ⟨.other _ _ (.finish 0 .waking .coroutineExit rfl) nofun
    fun _ _ h => h, trivial⟩
  have h17 := h16.step ⟨.returns 1 .empty _ rfl (.resumeWoken 1 [] rfl rfl ⟨rfl, rfl⟩), trivial⟩
  exact ⟨_, rfl, rfl, mutex_excludes h17⟩

/-- Two coroutines wait in `lock`, and the first has caught an exception before. When it is handed
the mutex its wait throws that exception again, it leaves the queue, and the second one stays
suspended at its front. -/
theorem waiter_left_behind :
    ∃ s : State Nat, system.Reachable s ∧ s.coroutines = [2] ∧ s.phase 2 = .locking
      ∧ 2 ∈ s.process.suspendCoroutines ∧ 2 ∉ s.process.wakeupCoroutines ∧ ¬ Excludes s := by
  have h0 : system.Reachable (State.fresh : State Nat) := .of_init rfl
  have h1 := h0.step (.other _ _ (.dispatch rfl) nofun fun _ _ h => h)
  have h2 := h1.step (.other _ _ (.enter rfl (Or.inl (List.cons_ne_nil _ _))) nofun fun _ _ h => h)
  have h3 := h2.step (.other _ _ (.resumeSpawned 0 [] rfl rfl ⟨rfl, rfl⟩) (fun _ _ _ => nofun)
    fun _ _ h => h)
  have h4 := h3.step (.other _ _ (.spawn 0 .spawning rfl) nofun fun _ _ h => h)
  have h5 := h4.step (.other _ _ (.spawn 0 .spawning rfl) nofun fun _ _ h => h)
  have h6 := h5.step (.lock 0 .spawning rfl rfl)
  have h7 := h6.step (.other _ _ (.suspend 0 .spawning rfl) nofun
    fun _ _ h => List.mem_insert_of_mem h)
  have h8 := h7.step (.other _ _ (.resumeSpawned 1 [2] rfl rfl ⟨rfl, rfl⟩)
    (fun _ _ hlabel => by cases hlabel; nofun) fun _ _ h => h)
  have h9 := h8.step (.other _ _ (.block 1 .spawning 5 rfl) nofun fun _ _ h => h)
  have h10 := h9.step (.other _ _ (.resumeSpawned 2 [] rfl rfl ⟨rfl, rfl⟩)
    (fun _ _ hlabel => by cases hlabel; nofun) fun _ _ h => h)
  have hnone : ∀ co, Function.update (fun _ => Phase.outside) 0 Phase.holding co ≠ .locking := by
    intro co
    by_cases hco : co = 0
    · rw [hco]
      nofun
    · rw [Function.update_of_ne hco]
      nofun
  have h11 := h10.step (.other _ _ (.suspend 2 .spawning rfl) nofun
    fun co hphase => absurd hphase (hnone co))
  have h12 := h11.step (.other _ _ (.spawningDone rfl rfl) nofun fun _ _ h => h)
  have h13 := h12.step (.other _ _ (.wakingDone rfl rfl (Or.inl rfl)) nofun fun _ _ h => h)
  have h14 := h13.step (.other _ _ (.leave rfl (by decide)) nofun fun _ _ h => h)
  have h15 := h14.step (.other _ _ (.dispatched rfl) nofun fun _ _ h => h)
  have h16 := h15.step (.other _ _ (.take ⟨9, -5, .exception .abortedRequest⟩ rfl) nofun
    fun _ _ h => h)
  have h17 := h16.step (.other _ _ (.dispatch rfl) nofun fun _ _ h => h)
  have h18 := h17.step (.other _ _ (.enter rfl (Or.inr (Or.inl (List.cons_ne_nil _ _)))) nofun
    fun _ _ h => h)
  have h19 := h18.step (.other _ _ (.spawningDone rfl rfl) nofun fun _ _ h => h)
  have h20 := h19.step (.other _ _ (.resumeWoken 1 [] rfl rfl ⟨rfl, rfl⟩)
    (fun _ _ hlabel => by cases hlabel; nofun) fun _ _ h => h)
  have h21 := h20.step (.other _ _ (.wakeup 1 2 .waking rfl) nofun
    fun co hphase => absurd hphase (hnone co))
  have h22 := h21.step (.other _ _ (.wakeup 1 0 .waking rfl) nofun
    fun co hphase => absurd hphase (hnone co))
  have h23 := h22.step (.wait 1 0 [] _ rfl nofun (.suspend 1 .waking rfl))
  have h24 := h23.step (.other _ _ (.resumeWoken 2 [0] rfl rfl ⟨rfl, rfl⟩)
    (fun _ _ hlabel => by cases hlabel; nofun) fun _ _ h => h)
  have h25 := h24.step (.wait 2 0 [1] _ rfl nofun (.suspend 2 .waking rfl))
  have h26 := h25.step (.other _ _ (.resumeWoken 0 [] rfl rfl ⟨rfl, rfl⟩)
    (fun _ _ hlabel => by cases hlabel; nofun) fun _ _ h => h)
  have h27 := h26.step (.unlock 0 [1, 2] .waking rfl rfl)
  have h28 := h27.step (.other _ _ (.finish 0 .waking .coroutineExit rfl) nofun fun _ _ h => h)
  have h29 := h28.step (.throws 1 .abortedRequest _ rfl (.resumeWoken 1 [] rfl rfl ⟨rfl, rfl⟩))
  refine ⟨_, h29, rfl, rfl, by decide, by decide, fun hexcludes => ?_⟩
  obtain hholding | ⟨hwoken, -⟩ := hexcludes.handed 2 rfl
  · cases hholding
  · revert hwoken
    decide

end Stp.Mutex
