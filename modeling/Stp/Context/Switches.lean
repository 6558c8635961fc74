import Stp.Context.Threads

/-!
# What the switches do

A thread that is in a process is in one of few places, and each step takes it from one of them to the
next. In each place, what the coroutines make of the process's state is a state of their machine.
The step of the machine that resumes a coroutine is taken when the thread switches to it, and the
steps in which the coroutine waits or ends when it begins to switch back.
-/

namespace Stp.Threads

open Process Coroutines

variable {T P V : Type*} [DecidableEq T] [DecidableEq P] {s s' : State T P V} {t : T} {p : P}

/-! ### The coroutines of one process -/

section Coroutines

variable {c c' : Coroutines.State V} {co : Nat} {caller : Caller}

theorem running_spec (hc : Coroutines.orderly.Reachable c) (hpc : c.pc = .running co caller) :
    co < c.created ∧ (c.co co).destroyed = 0 ∧ (c.co co).finished = false := by
  have htidy := tidy_of_reachable hc
  obtain ⟨hcreated, hdestroyed, -⟩ := htidy.running hpc
  refine ⟨hcreated, hdestroyed, htidy.unfinished co ?_⟩
  have hcurrent : c.pc.current.count co = 1 := by
    rw [hpc]
    exact List.count_singleton_self
  simp only [State.Live, State.unanswered]
  omega

/-- What a loop takes can be resumed, and the machine resumes it. -/
theorem Takes.spec (htakes : Takes c co caller c') (hc : Coroutines.orderly.Reachable c) :
    c'.pc = .running co caller ∧ c'.co = c.co ∧ c'.created = c.created
      ∧ co < c.created ∧ (c.co co).Resumable
      ∧ Coroutines.orderly.Reachable (c'.setCo co (c'.co co).switchTo.2) := by
  have htidy := tidy_of_reachable hc
  have hresumable : ∀ co ∈ c.resumables, c.pc.current = [] →
      co < c.created ∧ (c.co co).Resumable := by
    intro co hco hcurrent
    refine ⟨htidy.lt_created ?_, (htidy.owned hcurrent).resumable co hco⟩
    exact List.mem_append_right _ (List.mem_append_left _ hco)
  cases htakes with
  | spawned rest hpc hspawned =>
      obtain ⟨hborn, hco⟩ := hresumable co (by simp [State.resumables, hspawned]) (by rw [hpc]; rfl)
      exact ⟨rfl, rfl, rfl, hborn, hco, hc.step ⟨.resumeSpawned co rest hpc hspawned hco, trivial⟩⟩
  | woken rest hpc hwoken =>
      obtain ⟨hborn, hco⟩ := hresumable co (by simp [State.resumables, hwoken]) (by rw [hpc]; rfl)
      exact ⟨rfl, rfl, rfl, hborn, hco, hc.step ⟨.resumeWoken co rest hpc hwoken hco, trivial⟩⟩
  | unwound rest hpc hwoken =>
      obtain ⟨hborn, hco⟩ := hresumable co (by simp [State.resumables, hwoken]) (by rw [hpc]; rfl)
      exact ⟨rfl, rfl, rfl, hborn, hco, hc.step ⟨.unwind co rest hpc hwoken hco, trivial⟩⟩

/-- What a process does between its coroutines. -/
theorem work_spec (hstep : Coroutines.Step c .tau c') (hcurrent : c.pc.current = []) :
    c'.pc.current = [] ∧ c'.created = c.created
      ∧ ∀ x, (c'.co x).started = (c.co x).started ∧ (c'.co x).finished = (c.co x).finished
        ∧ (c.co x).destroyed ≤ (c'.co x).destroyed := by
  cases hstep with
  | dispatch hpc | enter hpc | spawningDone hpc | wakingDone hpc | takeNothing hpc | abandon hpc
  | exited hpc => exact ⟨rfl, rfl, fun x => ⟨rfl, rfl, le_rfl⟩⟩
  | leave hpc | sweep hpc =>
      refine ⟨?_, rfl, fun x => ⟨rfl, rfl, Nat.le_add_right _ _⟩⟩
      rw [State.sweepZombies]
      split <;> rfl
  | dispatched hpc =>
      refine ⟨?_, rfl, fun x => ⟨rfl, rfl, le_rfl⟩⟩
      dsimp only
      split <;> rfl
  | wakeServer co hpc hwoken hinbox hserver =>
      have hwakes := c.wakeup_eq co
      refine ⟨rfl, hwakes.created, fun x => ?_⟩
      rw [show (c.wakeup co).co = c.co from hwakes.co]
      exact ⟨rfl, rfl, le_rfl⟩
  | interrupt blocked suspended hpc hblocked hsuspended =>
      have hagrees := c.agrees_interrupt blocked suspended .coroutineExit
      refine ⟨?_, rfl, fun x => ⟨hagrees.started x, hagrees.finished x, (hagrees.destroyed x).ge⟩⟩
      dsimp only
      split <;> rfl
  | take msg hpc =>
      have hreceives := c.receive_spec msg
      exact ⟨hreceives.loops.1, hreceives.created, fun x => ⟨hreceives.agrees.started x,
        hreceives.agrees.finished x, (hreceives.agrees.destroyed x).ge⟩⟩
  | spawn co caller hpc | wakeup co other caller hpc | awaitInbox co caller hpc
  | takeInbox co caller msg rest hpc | finish co caller e hpc =>
      rw [hpc] at hcurrent
      exact absurd hcurrent (List.cons_ne_nil _ _)

omit [DecidableEq T] [DecidableEq P] in
theorem context_congr {x : Nat} (hcreated : c'.created = c.created)
    (hstarted : (c'.co x).started = (c.co x).started)
    (hfinished : (c'.co x).finished = (c.co x).finished)
    (hdestroyed : (c'.co x).destroyed = (c.co x).destroyed) :
    (context c' p x : Option (Frame T P)) = context c p x := by
  rw [context, context, hcreated, hstarted, hfinished, hdestroyed]

end Coroutines

/-! ### What a step leaves alone -/

omit [DecidableEq T] [DecidableEq P] in
theorem Apart.trans {s₁ s₂ s₃ : State T P V} (h : Apart s₁ s₂ t p) (h' : Apart s₂ s₃ t p) :
    Apart s₁ s₃ t p where
  tProcess t' ht := (h'.tProcess t' ht).trans (h.tProcess t' ht)
  tCoroutine t' ht := (h'.tCoroutine t' ht).trans (h.tCoroutine t' ht)
  cpu t' ht := (h'.cpu t' ht).trans (h.cpu t' ht)
  kept t' ht := (h'.kept t' ht).trans (h.kept t' ht)
  process p' hp := (h'.process p' hp).trans (h.process p' hp)
  saved p' hp co := (h'.saved p' hp co).trans (h.saved p' hp co)

omit [DecidableEq P] in
theorem apart_goTo (frame : Frame T P) : Apart s (s.goTo t frame) t p :=
  ⟨fun _ _ => rfl, fun _ _ => rfl, fun _ ht => Function.update_of_ne ht _ _, fun _ _ => rfl,
    fun _ _ => rfl, fun _ _ _ => rfl⟩

omit [DecidableEq P] in
theorem apart_runCoroutine (co : Option (P × Nat)) : Apart s (s.runCoroutine t co) t p :=
  ⟨fun _ _ => rfl, fun _ ht => Function.update_of_ne ht _ _, fun _ _ => rfl, fun _ _ => rfl,
    fun _ _ => rfl, fun _ _ _ => rfl⟩

omit [DecidableEq P] in
theorem apart_runProcess (p' : Option P) : Apart s (s.runProcess t p') t p :=
  ⟨fun _ ht => Function.update_of_ne ht _ _, fun _ _ => rfl, fun _ _ => rfl, fun _ _ => rfl,
    fun _ _ => rfl, fun _ _ _ => rfl⟩

omit [DecidableEq T] in
theorem apart_setProcess (c : Coroutines.State V) : Apart s (s.setProcess p c) t p :=
  ⟨fun _ _ => rfl, fun _ _ => rfl, fun _ _ => rfl, fun _ _ => rfl,
    fun _ hp => Function.update_of_ne hp _ _, fun _ _ _ => rfl⟩

omit [DecidableEq T] in
theorem apart_dropContexts : Apart s (s.dropContexts p) t p :=
  ⟨fun _ _ => rfl, fun _ _ => rfl, fun _ _ => rfl, fun _ _ => rfl, fun _ _ => rfl,
    fun _ hp _ => if_neg fun h => hp h.1⟩

omit [DecidableEq T] [DecidableEq P] in
theorem thread_ne_coroutine {t : T} {co : Nat} :
    (.thread t : Stack T P) ≠ .coroutine p co :=
  fun h => nomatch h

theorem State.transfer_cpu {frame : Frame T P} {current target : Stack T P}
    (hne : target ≠ current) : (s.transfer t frame current target).cpu t = s.saved target :=
  (Function.update_self _ _ _).trans (Function.update_of_ne hne _ _)

theorem State.transfer_current {frame : Frame T P} {current target : Stack T P}
    (hne : current ≠ target) : (s.transfer t frame current target).saved current = some frame :=
  (Function.update_of_ne hne _ _).trans (Function.update_self _ _ _)

theorem State.transfer_target {frame : Frame T P} {current target : Stack T P} :
    (s.transfer t frame current target).saved target = none :=
  Function.update_self _ _ _

theorem State.transfer_other {frame : Frame T P} {current target stack : Stack T P}
    (hcurrent : stack ≠ current) (htarget : stack ≠ target) :
    (s.transfer t frame current target).saved stack = s.saved stack :=
  (Function.update_of_ne htarget _ _).trans (Function.update_of_ne hcurrent _ _)

omit [DecidableEq T] in
theorem State.setProcess_self (c : Coroutines.State V) : (s.setProcess p c).process p = c :=
  Function.update_self _ _ _

theorem State.spawn_saved {stack : Stack T P} (hne : stack ≠ .coroutine p (s.process p).created) :
    (s.spawn p).saved stack = s.saved stack :=
  Function.update_of_ne hne _ _

theorem apart_spawn : Apart s (s.spawn p) t p :=
  ⟨fun _ _ => rfl, fun _ _ => rfl, fun _ _ => rfl,
    fun _ _ => State.spawn_saved thread_ne_coroutine,
    fun _ hp => Function.update_of_ne hp _ _,
    fun _ hp _ => State.spawn_saved fun h => hp (Stack.coroutine.inj h).1⟩

/-- A thread switches between its own stack and that of a coroutine of `p`. -/
theorem apart_transfer (frame : Frame T P) {co : Nat} {current target : Stack T P}
    (hstacks : (current = .thread t ∧ target = .coroutine p co)
      ∨ (current = .coroutine p co ∧ target = .thread t)) :
    Apart s (s.transfer t frame current target) t p := by
  have hsaved : ∀ stack, stack ≠ .thread t → stack ≠ .coroutine p co →
      (s.transfer t frame current target).saved stack = s.saved stack := by
    intro stack hthread hcoroutine
    obtain ⟨rfl, rfl⟩ | ⟨rfl, rfl⟩ := hstacks
    · exact State.transfer_other hthread hcoroutine
    · exact State.transfer_other hcoroutine hthread
  refine ⟨fun _ _ => rfl, fun _ _ => rfl, fun _ ht => Function.update_of_ne ht _ _,
    fun t' ht => ?_, fun _ _ => rfl, fun p' hp x => ?_⟩
  · exact hsaved _ (fun h => ht (Stack.thread.inj h)) thread_ne_coroutine
  · exact hsaved _ thread_ne_coroutine.symm fun h => hp (Stack.coroutine.inj h).1

/-! ### The steps of a thread in a process -/

section Steps

variable {stage stage' : Stage} {c : Coroutines.State V} {co : Nat} {caller : Caller}

theorem Sound.goes (hs : Sound s) (hinside : s.Inside t p stage) (hapart : Apart s s' t p)
    (hafter : s'.Inside t p stage') : Sound s' := by
  refine hs.apart hapart ?_ ?_ (Or.inl ⟨stage', hafter⟩)
  · intro t' ht hp
    exact ht (hs.alone t' t p hp hinside.process)
  · intro p' hp
    exact Option.some_injective _ (hp.symm.trans hinside.process)

/-- Where the thread stands when it executes the point. -/
def State.Placed (s : State T P V) (t : T) (stack : Stack T P) : Point P → Prop
  | .scheduling => stack = .thread t ∧ s.Outside t
  | .dispatching p => stack = .thread t ∧ s.Inside t p .dispatching
  | .resuming p co caller => stack = .thread t ∧ s.Inside t p (.resuming co caller)
  | .main => ∃ p co caller, stack = .coroutine p co ∧ s.Inside t p (.starting co caller)
  | .yielding p co => stack = .coroutine p co ∧ ∃ caller, s.Inside t p (.proceeding co caller)
  | .body => ∃ p co caller, stack = .coroutine p co ∧ s.Inside t p (.body co caller)
  | .ran => ∃ p co caller, stack = .coroutine p co ∧ s.Inside t p (.ran co caller)
  | .over => False

omit [DecidableEq T] [DecidableEq P] in
theorem Sound.placed (hs : Sound s) {stack : Stack T P} {point : Point P}
    (hcpu : s.cpu t = some ⟨stack, point⟩) : s.Placed t stack point := by
  cases hp : s.tProcess t with
  | none =>
      have houtside := hs.outside t hp
      cases hcpu.symm.trans houtside.cpu
      exact ⟨rfl, houtside⟩
  | some p =>
      obtain ⟨stage, hinside⟩ := hs.inside t p hp
      have hframe := hcpu.symm.trans hinside.cpu
      cases stage with
      | dispatching | resuming =>
          cases hframe
          exact ⟨rfl, hinside⟩
      | proceeding co caller =>
          cases hframe
          exact ⟨rfl, caller, hinside⟩
      | starting co caller | body co caller | ran co caller =>
          cases hframe
          exact ⟨p, co, caller, rfl, hinside⟩

/-- Thread `t` switches to a coroutine that waits or has not started. -/
theorem State.Inside.resume (h : s.Inside t p .dispatching)
    (htakes : Takes (s.process p) co caller c) :
    ∃ stage, (((s.setProcess p c).runCoroutine t (some (p, co))).transfer t
      ⟨.thread t, .resuming p co caller⟩ (.thread t) (.coroutine p co)).Inside t p stage := by
  obtain ⟨hpc, hco, hcreated, hborn, ⟨hfinished, hdestroyed⟩, hreachable⟩ := htakes.spec h.reachable
  have hload : s.saved (.coroutine p co)
      = some ⟨.coroutine p co, if ((s.process p).co co).started then .yielding p co else .main⟩ := by
    rw [h.saved co, if_neg (by simp [Stage.current]), context, if_pos ⟨hborn, hdestroyed⟩, hfinished]
    rfl
  set s' := ((s.setProcess p c).runCoroutine t (some (p, co))).transfer t
    ⟨.thread t, .resuming p co caller⟩ (.thread t) (.coroutine p co)
  have hprocess : s'.process p = c := State.setProcess_self c
  have hcpu : s'.cpu t = s.saved (.coroutine p co) := State.transfer_cpu thread_ne_coroutine.symm
  have hkept : s'.saved (.thread t) = some ⟨.thread t, .resuming p co caller⟩ :=
    State.transfer_current thread_ne_coroutine
  have hcontexts : ∀ x, s'.saved (.coroutine p x)
      = if some co = some x then none else context (s'.process p) p x := by
    intro x
    by_cases hx : co = x
    · rw [if_pos (congrArg some hx), ← hx]
      exact State.transfer_target
    · rw [if_neg (fun h => hx (Option.some.inj h)), hprocess,
        context_congr hcreated (by rw [hco]) (by rw [hco]) (by rw [hco])]
      refine (State.transfer_other thread_ne_coroutine.symm
        fun h => hx (Stack.coroutine.inj h).2.symm).trans ((h.saved x).trans (if_neg ?_))
      simp [Stage.current]
  cases hstarted : ((s.process p).co co).started with
  | false =>
      rw [hstarted] at hload
      refine ⟨.starting co caller, h.process, Function.update_self _ _ _, hcpu.trans hload, hkept,
        ?_, ?_, hcontexts⟩
      · rw [hprocess]
        exact ⟨hpc, by rwa [hco]⟩
      · rw [hprocess]
        exact hreachable
  | true =>
      rw [hstarted] at hload
      refine ⟨.proceeding co caller, h.process, Function.update_self _ _ _, hcpu.trans hload, hkept,
        ?_, ?_, hcontexts⟩
      · rw [hprocess]
        exact ⟨hpc, by rwa [hco]⟩
      · rw [hprocess]
        exact hreachable

/-- Thread `t` switches from a coroutine back to its own stack. -/
theorem State.Inside.switchesBack (h : s.Inside t p stage) (point : Point P)
    (hcurrent : stage.current = some co) (hcoroutine : stage.coroutine = some co)
    (hkept : stage.kept t p = some ⟨.thread t, .resuming p co caller⟩)
    (hpc : c.pc = .running co caller)
    (hreachable : Coroutines.orderly.Reachable (c.switchBack co caller))
    (hframe : context c p co = some (⟨.coroutine p co, point⟩ : Frame T P))
    (hothers : ∀ x ≠ co, (context c p x : Option (Frame T P)) = context (s.process p) p x) :
    ((s.setProcess p c).transfer t ⟨.coroutine p co, point⟩ (.coroutine p co) (.thread t)).Inside
      t p (.resuming co caller) := by
  set s' := (s.setProcess p c).transfer t ⟨.coroutine p co, point⟩ (.coroutine p co) (.thread t)
  have hprocess : s'.process p = c := State.setProcess_self c
  have hcpu : s'.cpu t = s.saved (.thread t) := State.transfer_cpu thread_ne_coroutine
  refine ⟨h.process, ?_, hcpu.trans (h.kept.trans hkept), State.transfer_target, ?_, ?_, fun x => ?_⟩
  · exact h.coroutine.trans (congrArg _ hcoroutine)
  · rw [hprocess]
    exact hpc
  · rw [hprocess]
    exact hreachable
  · rw [if_neg (by simp [Stage.current]), hprocess]
    by_cases hx : x = co
    · rw [hx, hframe]
      exact State.transfer_current thread_ne_coroutine.symm
    · rw [hothers x hx]
      refine (State.transfer_other (fun h => hx (Stack.coroutine.inj h).2)
        thread_ne_coroutine.symm).trans ((h.saved x).trans (if_neg ?_))
      rw [hcurrent]
      exact fun heq => hx (Option.some.inj heq).symm

/-- A coroutine waits. -/
theorem State.Inside.wait (h : s.Inside t p (.body co caller)) {session : Option SessionT}
    (hstep : Coroutines.Step (s.process p) (.wait co session) (c.switchBack co caller))
    (horderly : (Coroutines.Label.wait co session).Orderly (s.process p))
    (hpc : c.pc = (s.process p).pc) (hco : c.co = (s.process p).co)
    (hcreated : c.created = (s.process p).created) :
    ((s.setProcess p c).transfer t ⟨.coroutine p co, .yielding p co⟩ (.coroutine p co)
      (.thread t)).Inside t p (.resuming co caller) := by
  have hreachable : Coroutines.orderly.Reachable (s.process p) := h.reachable
  obtain ⟨hrunning, hstarted⟩ := h.fits
  obtain ⟨hborn, hdestroyed, hfinished⟩ := running_spec hreachable hrunning
  refine h.switchesBack (.yielding p co) rfl rfl rfl (hpc.trans hrunning)
    (hreachable.step ⟨hstep, horderly⟩) ?_ fun x _ => ?_
  · rw [context, hco, hcreated, if_pos ⟨hborn, hdestroyed⟩, hfinished, hstarted]
    rfl
  · exact context_congr hcreated (by rw [hco]) (by rw [hco]) (by rw [hco])

/-- A coroutine's function has ended. -/
theorem State.Inside.complete (h : s.Inside t p (.ran co caller)) :
    (s.transfer t ⟨.coroutine p co, .over⟩ (.coroutine p co) (.thread t)).Inside
      t p (.resuming co caller) := by
  obtain ⟨hpc, hfinished, hborn, hdestroyed⟩ := h.fits
  have hsame : s.setProcess p (s.process p) = s := by
    rw [State.setProcess, Function.update_eq_self]
  have hback := h.switchesBack .over rfl rfl rfl hpc h.reachable (by
    rw [context, if_pos ⟨hborn, hdestroyed⟩, hfinished]
    rfl) fun _ _ => rfl
  rwa [hsame] at hback

theorem State.Inside.back (h : s.Inside t p (.resuming co caller)) :
    (((s.setProcess p ((s.process p).switchBack co caller)).runCoroutine t none).goTo t
      ⟨.thread t, .dispatching p⟩).Inside t p .dispatching := by
  have hback := (s.process p).switchBack_spec co caller
  set s' := ((s.setProcess p ((s.process p).switchBack co caller)).runCoroutine t none).goTo t
    ⟨.thread t, .dispatching p⟩
  have hprocess : s'.process p = (s.process p).switchBack co caller := State.setProcess_self _
  refine ⟨h.process, Function.update_self _ _ _, Function.update_self _ _ _, h.kept, ?_, ?_,
    fun x => ?_⟩
  · rw [hprocess]
    exact hback.loops.1
  · rw [hprocess]
    exact h.reachable
  · rw [if_neg (by simp [Stage.current]), hprocess,
      context_congr hback.created (hback.agrees.started x) (hback.agrees.finished x)
        (hback.agrees.destroyed x)]
    exact (h.saved x).trans (if_neg (by simp [Stage.current]))

omit [DecidableEq T] in
/-- The coroutine that runs does something to the process. -/
theorem State.Inside.body (h : s.Inside t p (.body co caller))
    (hstep : Coroutines.Step (s.process p) .tau c) (hpc : c.pc = (s.process p).pc)
    (hco : c.co = (s.process p).co) (hcreated : c.created = (s.process p).created) :
    (s.setProcess p c).Inside t p (.body co caller) := by
  have hprocess := State.setProcess_self (s := s) (p := p) c
  refine ⟨h.process, h.coroutine, h.cpu, h.kept, ?_, ?_, fun x => ?_⟩
  · rw [hprocess]
    exact ⟨hpc.trans h.fits.1, by
      rw [hco]
      exact h.fits.2⟩
  · rw [hprocess]
    exact h.reachable.step ⟨hstep, trivial⟩
  · rw [hprocess, context_congr hcreated (by rw [hco]) (by rw [hco]) (by rw [hco])]
    exact h.saved x

/-- The code on the coroutine's stack goes on. -/
theorem State.Inside.goesOn (h : s.Inside t p stage) (stage' : Stage) {c' : Coroutine V}
    (hcurrent : stage.current = some co) (hcurrent' : stage'.current = some co)
    (hcoroutine : stage'.coroutine = stage.coroutine) (hkept : stage'.kept t p = stage.kept t p)
    (hfits : stage'.Fits ((s.process p).setCo co c'))
    (hreachable : Coroutines.orderly.Reachable (stage'.view ((s.process p).setCo co c'))) :
    ((s.setProcess p ((s.process p).setCo co c')).goTo t (stage'.frame t p)).Inside t p stage' := by
  set s' := (s.setProcess p ((s.process p).setCo co c')).goTo t (stage'.frame t p)
  have hprocess : s'.process p = (s.process p).setCo co c' := State.setProcess_self _
  refine ⟨h.process, h.coroutine.trans (congrArg _ hcoroutine.symm), Function.update_self _ _ _,
    h.kept.trans hkept.symm, ?_, ?_, fun x => ?_⟩
  · rw [hprocess]
    exact hfits
  · rw [hprocess]
    exact hreachable
  · refine (h.saved x).trans ?_
    rw [hcurrent, hcurrent', hprocess]
    by_cases hx : co = x
    · rw [if_pos (congrArg some hx), if_pos (congrArg some hx)]
    · have hco : ((s.process p).setCo co c').co x = (s.process p).co x :=
        Function.update_of_ne (Ne.symm hx) _ _
      rw [if_neg (fun h => hx (Option.some.inj h)), if_neg (fun h => hx (Option.some.inj h))]
      exact context_congr rfl (by rw [hco]) (by rw [hco]) (by rw [hco])

theorem State.Inside.start (h : s.Inside t p (.starting co caller)) :
    ((s.setProcess p ((s.process p).setCo co { (s.process p).co co with started := true })).goTo t
      ⟨.coroutine p co, .body⟩).Inside t p (.body co caller) := by
  obtain ⟨hpc, hstarted⟩ := h.fits
  have hswitch : ((s.process p).co co).switchTo.2 = { (s.process p).co co with started := true } := by
    rw [Coroutine.switchTo, if_neg (ne_true_of_eq_false hstarted)]
  have hreachable := h.reachable
  rw [Stage.view, hswitch] at hreachable
  refine h.goesOn (.body co caller) rfl rfl rfl rfl ⟨hpc, ?_⟩ hreachable
  rw [State.setCo_same]

theorem State.Inside.proceed (h : s.Inside t p (.proceeding co caller)) :
    ((s.setProcess p ((s.process p).setCo co (getResult ((s.process p).co co)))).goTo t
      ⟨.coroutine p co, .body⟩).Inside t p (.body co caller) := by
  obtain ⟨hpc, hstarted⟩ := h.fits
  have hswitch : ((s.process p).co co).switchTo.2 = getResult ((s.process p).co co) := by
    rw [Coroutine.switchTo, if_pos hstarted]
    rfl
  have hreachable := h.reachable
  rw [Stage.view, hswitch] at hreachable
  refine h.goesOn (.body co caller) rfl rfl rfl rfl ⟨hpc, ?_⟩ hreachable
  rw [State.setCo_same]
  exact hstarted

theorem State.Inside.finish (h : s.Inside t p (.body co caller)) (e : Thrown) :
    ((s.setProcess p ((s.process p).finish co e)).goTo t ⟨.coroutine p co, .ran⟩).Inside
      t p (.ran co caller) := by
  have hreachable : Coroutines.orderly.Reachable (s.process p) := h.reachable
  obtain ⟨hpc, -⟩ := h.fits
  obtain ⟨hborn, hdestroyed, -⟩ := running_spec hreachable hpc
  refine h.goesOn (.ran co caller) rfl rfl rfl rfl ⟨hpc, ?_, hborn, ?_⟩
    (hreachable.step ⟨.finish co caller e hpc, trivial⟩)
  · rw [State.setCo_same]
    rfl
  · rw [State.setCo_same]
    exact hdestroyed

/-- A coroutine is created, with its context. -/
theorem State.Inside.creates (h : s.Inside t p stage)
    (hnew : stage.current ≠ some (s.process p).created)
    (hcreated : c.created = (s.process p).created + 1) (hco : c.co = (s.process p).spawn.co)
    (hfits : stage.Fits c) (hreachable : Coroutines.orderly.Reachable (stage.view c)) :
    ((s.spawn p).setProcess p c).Inside t p stage := by
  have hprocess : ((s.spawn p).setProcess p c).process p = c := State.setProcess_self _
  have hsaved : ∀ stack ≠ .coroutine p (s.process p).created,
      ((s.spawn p).setProcess p c).saved stack = s.saved stack := fun _ => State.spawn_saved
  refine ⟨h.process, h.coroutine, h.cpu, (hsaved _ thread_ne_coroutine).trans h.kept, ?_, ?_,
    fun x => ?_⟩
  · rwa [hprocess]
  · rwa [hprocess]
  · rw [hprocess]
    by_cases hx : x = (s.process p).created
    · subst hx
      refine (Function.update_self _ _ _).trans (Eq.trans ?_ (if_neg hnew).symm)
      have hcreate : c.co (s.process p).created = .create :=
        (congrFun hco _).trans (State.setCo_same _ _ _)
      rw [context, hcreate, hcreated]
      exact (if_pos ⟨Nat.lt_succ_self _, rfl⟩).symm
    · have hold : c.co x = (s.process p).co x :=
        (congrFun hco x).trans (Function.update_of_ne hx _ _)
      refine (hsaved _ fun h => hx (Stack.coroutine.inj h).2).trans ((h.saved x).trans ?_)
      have hlt : x < (s.process p).created + 1 ↔ x < (s.process p).created :=
        ⟨fun hlt => lt_of_le_of_ne (Nat.le_of_lt_succ hlt) hx, Nat.lt_succ_of_lt⟩
      rw [context, context, hold, hcreated]
      simp only [hlt]

theorem State.Inside.spawn (h : s.Inside t p (.body co caller)) :
    (s.spawn p).Inside t p (.body co caller) := by
  have hreachable : Coroutines.orderly.Reachable (s.process p) := h.reachable
  obtain ⟨hpc, hstarted⟩ := h.fits
  obtain ⟨hborn, -, -⟩ := running_spec hreachable hpc
  have hsame : (s.spawn p).setProcess p (s.process p).spawn = s.spawn p := by
    rw [State.setProcess, State.spawn, State.setProcess, Function.update_idem]
  have hco : (s.process p).spawn.co co = (s.process p).co co :=
    Function.update_of_ne hborn.ne _ _
  have hcreates := h.creates (c := (s.process p).spawn) (fun h => hborn.ne (Option.some.inj h)) rfl rfl
    ⟨hpc, by rwa [hco]⟩ (hreachable.step ⟨.spawn co caller hpc, trivial⟩)
  rwa [hsame] at hcreates

theorem State.Inside.destructorSpawn (h : s.Inside t p .dispatching)
    (hpc : (s.process p).pc.Destroys) : (s.destructorSpawn p).Inside t p .dispatching :=
  h.creates (Option.some_ne_none _).symm rfl rfl h.fits
    (h.reachable.step ⟨.destructorSpawn hpc, trivial⟩)

omit [DecidableEq T] in
theorem State.Inside.destructorWakeup (h : s.Inside t p .dispatching) {other : Nat}
    (hpc : (s.process p).pc.Destroys) (hother : other ∈ (s.process p).suspendCoroutines) :
    (s.destructorWakeup p other).Inside t p .dispatching := by
  have hwakes := (s.process p).wakeup_eq other
  have hreachable : Coroutines.orderly.Reachable (s.process p) := h.reachable
  set c := { (s.process p).wakeup other with revived := (s.process p).revived ++ [other] }
  have hprocess : (s.destructorWakeup p other).process p = c := State.setProcess_self _
  refine ⟨h.process, h.coroutine, h.cpu, h.kept, ?_, ?_, fun x => ?_⟩
  · rw [hprocess]
    exact (congrArg Pc.current hwakes.pc).trans h.fits
  · rw [hprocess]
    exact hreachable.step ⟨.destructorWakeup other hpc hother, trivial⟩
  · have hco : c.co x = (s.process p).co x := congrFun hwakes.co x
    have hcreated : c.created = (s.process p).created := hwakes.created
    rw [hprocess, context_congr hcreated (by rw [hco]) (by rw [hco]) (by rw [hco])]
    exact h.saved x

omit [DecidableEq T] in
theorem State.Inside.work (h : s.Inside t p .dispatching)
    (hstep : Coroutines.Step (s.process p) .tau c) (hcurrent : (s.process p).pc.current = []) :
    ((s.setProcess p c).dropContexts p).Inside t p .dispatching := by
  obtain ⟨hcurrent', hcreated, hkept⟩ := work_spec hstep hcurrent
  have hreachable : Coroutines.orderly.Reachable (s.process p) := h.reachable
  set s' := (s.setProcess p c).dropContexts p
  have hprocess : s'.process p = c := State.setProcess_self _
  refine ⟨h.process, h.coroutine, h.cpu, h.kept, ?_, ?_, fun x => ?_⟩
  · rw [hprocess]
    exact hcurrent'
  · rw [hprocess]
    exact hreachable.step ⟨hstep, trivial⟩
  · obtain ⟨hstarted, hfinished, hdestroyed⟩ := hkept x
    have hbefore := (h.saved x).trans (if_neg (Option.some_ne_none x).symm)
    refine Eq.trans ?_ (if_neg (Option.some_ne_none x).symm).symm
    rw [hprocess]
    by_cases hgone : (c.co x).destroyed = 0
    · refine (if_neg fun h => ?_).trans
        (hbefore.trans (context_congr hcreated hstarted hfinished ?_).symm)
      · exact h.2 ((congrArg (fun c => (c.co x).destroyed) hprocess).trans hgone)
      · omega
    · rw [context, if_neg fun h => hgone h.2]
      refine if_pos ⟨rfl, ?_⟩
      rwa [State.setProcess_self]

theorem State.Idle.enter (h : s.Idle p) (hidle : (s.process p).pc = .idle) (ht : s.Outside t) :
    (((s.setProcess p { s.process p with pc := .outer }).runProcess t (some p)).goTo t
      ⟨.thread t, .dispatching p⟩).Inside t p .dispatching := by
  set s' := ((s.setProcess p { s.process p with pc := .outer }).runProcess t (some p)).goTo t
    ⟨.thread t, .dispatching p⟩
  have hprocess : s'.process p = { s.process p with pc := .outer } := State.setProcess_self _
  refine ⟨Function.update_self _ _ _, ht.coroutine, Function.update_self _ _ _, ht.kept, ?_, ?_,
    fun x => ?_⟩
  · rw [hprocess]
    rfl
  · rw [hprocess]
    exact h.reachable.step ⟨.dispatch hidle, trivial⟩
  · refine (h.saved x).trans (Eq.trans ?_ (if_neg (Option.some_ne_none x).symm).symm)
    rw [hprocess]
    rfl

omit [DecidableEq P] in
theorem State.Inside.leave (h : s.Inside t p .dispatching)
    (hpc : (s.process p).pc = .idle ∨ (s.process p).pc = .down) :
    ((s.runProcess t none).goTo t ⟨.thread t, .scheduling⟩).Outside t
      ∧ ((s.runProcess t none).goTo t ⟨.thread t, .scheduling⟩).Idle p :=
  ⟨⟨Function.update_self _ _ _, h.coroutine, Function.update_self _ _ _, h.kept⟩,
    ⟨hpc, h.reachable, fun x => (h.saved x).trans (if_neg (Option.some_ne_none x).symm)⟩⟩

end Steps

omit [DecidableEq P] in
theorem State.check_of {condition : Prop} [Decidable condition] (h : condition) :
    s.check t condition s' = s' :=
  if_pos h

theorem Step.sound {label : Label P} (hstep : Step s label s') (hs : Sound s)
    (horderly : label.Orderly s) : Sound s' := by
  cases hstep with
  | enter t p stack hcpu hidle hfree =>
      obtain ⟨rfl, houtside⟩ := hs.placed hcpu
      rw [State.check_of houtside.process]
      refine hs.apart (((apart_setProcess _).trans (apart_runProcess _)).trans (apart_goTo _))
        (fun t' _ => hfree t') ?_ (Or.inl ⟨_, (hs.idle p hfree).enter hidle houtside⟩)
      intro p' hp'
      exact absurd (houtside.process.symm.trans hp').symm (Option.some_ne_none p')
  | work t p stack c hcpu hpc hcurrent hstep =>
      obtain ⟨rfl, hinside⟩ := hs.placed hcpu
      exact hs.goes hinside ((apart_setProcess c).trans apart_dropContexts)
        (hinside.work hstep hcurrent)
  | destructorSpawn t p p' stack hcpu hpc hprocess =>
      obtain ⟨rfl, hinside⟩ := hs.placed hcpu
      cases hinside.process.symm.trans hprocess
      exact hs.goes hinside (apart_spawn.trans (apart_setProcess _)) (hinside.destructorSpawn hpc)
  | destructorWakeup t p p' stack other hcpu hpc hprocess hother =>
      obtain ⟨rfl, hinside⟩ := hs.placed hcpu
      cases hinside.process.symm.trans hprocess
      exact hs.goes hinside (apart_setProcess _) (hinside.destructorWakeup hpc hother)
  | leave t p stack hcpu hpc =>
      obtain ⟨rfl, hinside⟩ := hs.placed hcpu
      refine hs.apart ((apart_runProcess none).trans (apart_goTo _)) ?_ ?_
        (Or.inr (hinside.leave hpc))
      · intro t' ht hp
        exact ht (hs.alone t' t p hp hinside.process)
      · intro p' hp'
        exact Option.some_injective _ (hp'.symm.trans hinside.process)
  | resume t p stack co caller c hcpu htakes =>
      obtain ⟨rfl, hinside⟩ := hs.placed hcpu
      obtain ⟨stage, hafter⟩ := hinside.resume htakes
      exact hs.goes hinside (((apart_setProcess c).trans (apart_runCoroutine _)).trans
        (apart_transfer _ (Or.inl ⟨rfl, rfl⟩))) hafter
  | back t p stack co caller hcpu =>
      obtain ⟨rfl, hinside⟩ := hs.placed hcpu
      exact hs.goes hinside
        (((apart_setProcess _).trans (apart_runCoroutine _)).trans (apart_goTo _)) hinside.back
  | start t p co hcpu =>
      obtain ⟨_, _, caller, hstack, hinside⟩ := hs.placed hcpu
      cases hstack
      have hcoroutine : s.tCoroutine t = some (p, co) := hinside.coroutine
      rw [State.check_of hcoroutine]
      exact hs.goes hinside ((apart_setProcess _).trans (apart_goTo _)) hinside.start
  | proceed t p stack co hcpu =>
      obtain ⟨rfl, caller, hinside⟩ := hs.placed hcpu
      have hcoroutine : s.tCoroutine t = some (p, co) := hinside.coroutine
      rw [State.check_of hcoroutine]
      exact hs.goes hinside ((apart_setProcess _).trans (apart_goTo _)) hinside.proceed
  | finish t p co e hcpu =>
      obtain ⟨_, _, caller, hstack, hinside⟩ := hs.placed hcpu
      cases hstack
      exact hs.goes hinside ((apart_setProcess _).trans (apart_goTo _)) (hinside.finish e)
  | complete t p co hcpu =>
      obtain ⟨_, _, caller, hstack, hinside⟩ := hs.placed hcpu
      cases hstack
      have hcoroutine : s.tCoroutine t = some (p, co) := hinside.coroutine
      rw [State.check_of hcoroutine]
      exact hs.goes hinside (apart_transfer _ (Or.inr ⟨rfl, rfl⟩)) hinside.complete
  | spawn t p stack hcpu hprocess =>
      obtain ⟨_, _, caller, rfl, hinside⟩ := hs.placed hcpu
      cases hinside.process.symm.trans hprocess
      exact hs.goes hinside apart_spawn hinside.spawn
  | wakeup t p stack other hcpu hprocess =>
      obtain ⟨_, co, caller, rfl, hinside⟩ := hs.placed hcpu
      cases hinside.process.symm.trans hprocess
      have hwakes := (s.process p).wakeup_eq other
      exact hs.goes hinside (apart_setProcess _)
        (hinside.body (.wakeup co other caller hinside.fits.1) hwakes.pc hwakes.co hwakes.created)
  | awaitInbox t p stack co hcpu hprocess hcoroutine hinbox =>
      obtain ⟨_, _, caller, rfl, hinside⟩ := hs.placed hcpu
      cases hinside.process.symm.trans hprocess
      cases hinside.coroutine.symm.trans hcoroutine
      exact hs.goes hinside (apart_setProcess _)
        (hinside.body (.awaitInbox co caller hinside.fits.1 hinbox) rfl rfl rfl)
  | takeInbox t p stack msg rest hcpu hprocess hinbox =>
      obtain ⟨_, co, caller, rfl, hinside⟩ := hs.placed hcpu
      cases hinside.process.symm.trans hprocess
      exact hs.goes hinside (apart_setProcess _)
        (hinside.body (.takeInbox co caller msg rest hinside.fits.1 hinbox) rfl rfl rfl)
  | suspend t p stack co hcpu hprocess hcoroutine =>
      obtain ⟨_, _, caller, rfl, hinside⟩ := hs.placed hcpu
      cases hinside.process.symm.trans hprocess
      cases hinside.coroutine.symm.trans hcoroutine
      exact hs.goes hinside ((apart_setProcess _).trans (apart_transfer _ (Or.inr ⟨rfl, rfl⟩)))
        (hinside.wait (.suspend co caller hinside.fits.1) horderly rfl rfl rfl)
  | block t p stack co session hcpu hprocess hcoroutine =>
      obtain ⟨_, _, caller, rfl, hinside⟩ := hs.placed hcpu
      cases hinside.process.symm.trans hprocess
      cases hinside.coroutine.symm.trans hcoroutine
      exact hs.goes hinside ((apart_setProcess _).trans (apart_transfer _ (Or.inr ⟨rfl, rfl⟩)))
        (hinside.wait (.block co caller session hinside.fits.1) horderly rfl rfl rfl)

theorem sound_of_reachable (hs : orderly.Reachable s) : Sound s := by
  refine Transition.System.Reachable.invariant ?_ ?_ hs
  · rintro s rfl
    exact sound_fresh
  · intro s label s' _ hs hstep
    exact hstep.1.sound hs hstep.2

/-! ### Stacks and threads -/

/-- No thread is switching to a coroutine of the process or back from it. -/
def State.Settled (s : State T P V) (p : P) : Prop :=
  ∀ t frame, s.tProcess t = some p → s.cpu t = some frame →
    frame.point = .dispatching p ∨ frame.point = .body

omit [DecidableEq T] [DecidableEq P] in
theorem Stage.frame_eq (stage : Stage) {stack : Stack T P} {point : Point P}
    (hframe : stage.frame t p = ⟨stack, point⟩) :
    (stage.current = none ∧ stack = .thread t)
      ∨ ∃ co caller, stage.current = some co ∧ stage.coroutine = some co
        ∧ stage.kept t p = some ⟨.thread t, .resuming p co caller⟩ ∧ stack = .coroutine p co := by
  cases stage with
  | dispatching | resuming =>
      cases hframe
      exact Or.inl ⟨rfl, rfl⟩
  | starting co caller | proceeding co caller | body co caller | ran co caller =>
      cases hframe
      exact Or.inr ⟨co, caller, rfl, rfl, rfl, rfl⟩

omit [DecidableEq T] [DecidableEq P] in
/-- A thread is on its own stack, or on that of the coroutine it resumed. -/
theorem Sound.stacks (hs : Sound s) {stack : Stack T P} {point : Point P}
    (hcpu : s.cpu t = some ⟨stack, point⟩) :
    stack = .thread t
      ∨ ∃ p co caller, stack = .coroutine p co ∧ s.tProcess t = some p
        ∧ s.tCoroutine t = some (p, co)
        ∧ s.saved (.thread t) = some ⟨.thread t, .resuming p co caller⟩ := by
  cases hp : s.tProcess t with
  | none =>
      cases hcpu.symm.trans (hs.outside t hp).cpu
      exact Or.inl rfl
  | some p =>
      obtain ⟨stage, hinside⟩ := hs.inside t p hp
      obtain ⟨-, rfl⟩ | ⟨co, caller, -, hcoroutine, hkept, rfl⟩ :=
        stage.frame_eq (Option.some_injective _ (hinside.cpu.symm.trans hcpu))
      · exact Or.inl rfl
      · refine Or.inr ⟨p, co, caller, rfl, rfl, ?_, hinside.kept.trans hkept⟩
        rw [hinside.coroutine, hcoroutine]
        rfl

omit [DecidableEq T] [DecidableEq P] in
/-- A coroutine's stack is with a thread, or in its context. -/
theorem Sound.contexts (hs : Sound s) {co : Nat} (hborn : co < (s.process p).created)
    (hdestroyed : ((s.process p).co co).destroyed = 0) :
    (∃ t point, s.cpu t = some ⟨.coroutine p co, point⟩)
      ∨ ∃ point, s.saved (.coroutine p co) = some ⟨.coroutine p co, point⟩ := by
  have hcontext : ∃ point,
      (context (s.process p) p co : Option (Frame T P)) = some ⟨.coroutine p co, point⟩ :=
    ⟨_, if_pos ⟨hborn, hdestroyed⟩⟩
  by_cases hfree : ∀ t, s.tProcess t ≠ some p
  · rw [← (hs.idle p hfree).saved co] at hcontext
    exact Or.inr hcontext
  · obtain ⟨t, hp⟩ := not_forall_not.mp hfree
    obtain ⟨stage, hinside⟩ := hs.inside t p hp
    by_cases hcurrent : stage.current = some co
    · refine Or.inl ⟨t, (stage.frame t p).point, ?_⟩
      obtain ⟨hnone, -⟩ | ⟨co', caller, hcurrent', -, -, hstack⟩ :=
        stage.frame_eq (t := t) (p := p) rfl
      · exact absurd (hnone.symm.trans hcurrent).symm (Option.some_ne_none co)
      · cases hcurrent.symm.trans hcurrent'
        rw [← hstack]
        exact hinside.cpu
    · rw [← (hinside.saved co).trans (if_neg hcurrent)] at hcontext
      exact Or.inr hcontext

omit [DecidableEq T] [DecidableEq P] in
theorem Sound.settled (hs : Sound s) (hsettled : s.Settled p) :
    Coroutines.orderly.Reachable (s.process p) := by
  by_cases hfree : ∀ t, s.tProcess t ≠ some p
  · exact (hs.idle p hfree).reachable
  · obtain ⟨t, hp⟩ := not_forall_not.mp hfree
    obtain ⟨stage, hinside⟩ := hs.inside t p hp
    have hpoint := hsettled t _ hp hinside.cpu
    cases stage with
    | dispatching | body => exact hinside.reachable
    | starting | proceeding | ran | resuming => simp [Stage.frame] at hpoint

/-- **Stacks and threads.** In every run in which no coroutine waits with an exception in its `Result`
or on a session that is taken: no thread fails an assertion or resumes a context that holds nothing; a
thread is on its own stack or on that of the coroutine which its thread local variables name, and
then its context leads back to the `Coroutine::resume` by which it came; no stack is with two threads,
and none is lost. While no thread switches to a coroutine of a process or back, the state of the
process is one that the machine of the coroutines reaches. -/
theorem stacks_are_switched (hs : orderly.Reachable s) :
    (∀ t, ∃ stack point, s.cpu t = some ⟨stack, point⟩
        ∧ (stack = .thread t
          ∨ ∃ p co caller, stack = .coroutine p co ∧ s.tProcess t = some p
            ∧ s.tCoroutine t = some (p, co)
            ∧ s.saved (.thread t) = some ⟨.thread t, .resuming p co caller⟩))
      ∧ (∀ t t' stack point point', s.cpu t = some ⟨stack, point⟩ → s.cpu t' = some ⟨stack, point'⟩ →
        t = t')
      ∧ (∀ p, ∀ co < (s.process p).created, ((s.process p).co co).destroyed = 0 →
        (∃ t point, s.cpu t = some ⟨.coroutine p co, point⟩)
          ∨ ∃ point, s.saved (.coroutine p co) = some ⟨.coroutine p co, point⟩)
      ∧ ∀ p, s.Settled p → Coroutines.orderly.Reachable (s.process p) := by
  have hsound := sound_of_reachable hs
  refine ⟨fun t => ?_, fun t t' stack point point' hcpu hcpu' => ?_, fun p co => hsound.contexts,
    fun p => hsound.settled⟩
  · obtain ⟨⟨stack, point⟩, hcpu⟩ : ∃ frame, s.cpu t = some frame := by
      cases hp : s.tProcess t with
      | none => exact ⟨_, (hsound.outside t hp).cpu⟩
      | some p =>
          obtain ⟨stage, hinside⟩ := hsound.inside t p hp
          exact ⟨_, hinside.cpu⟩
    exact ⟨stack, point, hcpu, hsound.stacks hcpu⟩
  · obtain rfl | ⟨p, co, -, rfl, hp, -⟩ := hsound.stacks hcpu
    · obtain hstack | ⟨p, co, -, hstack, -⟩ := hsound.stacks hcpu'
      · exact Stack.thread.inj hstack
      · exact absurd hstack thread_ne_coroutine
    · obtain hstack | ⟨p', co', -, hstack, hp', -⟩ := hsound.stacks hcpu'
      · exact absurd hstack.symm thread_ne_coroutine
      · cases hstack
        exact hsound.alone t t' p hp hp'

/-- A coroutine that one thread has resumed blocks, and goes on in another thread. -/
theorem stacks_are_switched_moved : ∃ s : State (Fin 2) Unit Nat,
    orderly.Reachable s ∧ s.cpu 1 = some ⟨.coroutine () 0, .body⟩
      ∧ (∃ stack point, s.cpu 0 = some ⟨stack, point⟩) ∧ s.tCoroutine 0 = none := by
  have h0 : orderly.Reachable (State.fresh : State (Fin 2) Unit Nat) := .of_init rfl
  have h1 := h0.step
    ⟨Step.enter 0 () (.thread 0) rfl rfl fun _ => (Option.some_ne_none ()).symm, trivial⟩
  have h2 := h1.step ⟨Step.work 0 () (.thread 0) _ rfl (by decide) rfl
    (.enter rfl (Or.inl (List.cons_ne_nil _ _))), trivial⟩
  have h3 := h2.step
    ⟨Step.resume 0 () (.thread 0) 0 .spawning _ rfl (.spawned 0 [] rfl rfl), trivial⟩
  have h4 := h3.step ⟨Step.start 0 () 0 rfl, trivial⟩
  have h5 := h4.step ⟨Step.block 0 () (.coroutine () 0) 0 5 rfl rfl rfl, rfl,
    fun _ => List.not_mem_nil⟩
  have h6 := h5.step ⟨Step.back 0 () (.thread 0) 0 .spawning rfl, trivial⟩
  have h7 := h6.step
    ⟨Step.work 0 () (.thread 0) _ rfl (by decide) rfl (.spawningDone rfl rfl), trivial⟩
  have h8 := h7.step ⟨Step.work 0 () (.thread 0) _ rfl (by decide) rfl
    (.wakingDone rfl rfl (Or.inl rfl)), trivial⟩
  have h9 := h8.step
    ⟨Step.work 0 () (.thread 0) _ rfl (by decide) rfl (.leave rfl (by decide)), trivial⟩
  have h10 := h9.step
    ⟨Step.work 0 () (.thread 0) _ rfl (by decide) rfl (.dispatched rfl), trivial⟩
  have h11 := h10.step ⟨Step.work 0 () (.thread 0) _ rfl (by decide) rfl
    (.take ⟨9, -5, .value 7⟩ rfl), trivial⟩
  have h12 := h11.step ⟨Step.leave 0 () (.thread 0) rfl (Or.inl rfl), trivial⟩
  have h13 := h12.step ⟨Step.enter 1 () (.thread 1) rfl rfl (by decide), trivial⟩
  have h14 := h13.step ⟨Step.work 1 () (.thread 1) _ rfl (by decide) rfl
    (.enter rfl (Or.inr (Or.inl (List.cons_ne_nil _ _)))), trivial⟩
  have h15 := h14.step
    ⟨Step.work 1 () (.thread 1) _ rfl (by decide) rfl (.spawningDone rfl rfl), trivial⟩
  have h16 := h15.step ⟨Step.resume 1 () (.thread 1) 0 .waking _ rfl (.woken 0 [] rfl rfl), trivial⟩
  have h17 := h16.step ⟨Step.proceed 1 () (.coroutine () 0) 0 rfl, trivial⟩
  obtain ⟨stack, point, hcpu, -⟩ := (stacks_are_switched h17).1 0
  exact ⟨_, h17, rfl, ⟨stack, point, hcpu⟩, rfl⟩

end Stp.Threads
