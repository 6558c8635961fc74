import Stp.Process.Lifetime
import Stp.Sched.Progress

/-!
# No message is left lying

A process with a message to take has its scheduling token somewhere, and wherever that is it gets to
a worker: a call that has it queues the process, the queue hands it to a worker, and a writer that
appended to a mailbox that waits picks it up. The worker takes a message before it gives the token
away again, unless the process goes down. So messages are taken, the oldest first. What is needed of
the threads is that each call about the process returns, and that the scheduler's workers are not all
kept for ever by processes that do not return.
-/

namespace Stp.Process

open Tally Transition

variable {P V W C : Type*} [DecidableEq P] [DecidableEq W] [DecidableEq C] [Fintype W]

/-! ### How a call gives away what it has -/

/-- In `dispatch()` of `p->resume()`, where a coroutine may be pushing to the process itself. -/
def Frame.dispatching : Frame P V → Nat
  | .running _ .dispatch | .pushed _ (.self .dispatch) | .resuming _ (.push (.self .dispatch))
  | .queueing _ (.push (.self .dispatch)) => 1
  | _ => 0

section Move

variable {i : W ⊕ C} {p : P} {rest : List (Frame P V)} {effect : Effect} {c c' : Proc V}
  {kept kept' : Nat} {taken put : List (Frame P V)}

omit [DecidableEq P] [DecidableEq W] [DecidableEq C] [Fintype W] in
/-- The token goes to the queue, or the process goes down, or its mailbox was found empty. -/
theorem Move.gives_token (hmove : Move i p rest effect ⟨c, kept, taken⟩ ⟨c', kept', put⟩)
    (hhas : 0 < (taken.map Frame.token).sum) (hgone : (put.map Frame.token).sum = 0) :
    c'.down = true ∨ c.mailbox.messages = [] ∨ effect = .resume := by
  cases hmove with
  | dispatchDown | killed => exact Or.inl rfl
  | takeNothing _ _ htake => exact Or.inr (Or.inl (Mailbox.take_none htake).1)
  | enqueue => exact Or.inr (Or.inr rfl)
  | exchange _ _ pusher =>
      cases pusher <;> cases hwait : c.mailbox.wait <;>
        simp [Mailbox.exchange, Pusher.back, hwait] at hhas hgone
  | _ => simp at hhas hgone

omit [DecidableEq P] [DecidableEq W] [DecidableEq C] [Fintype W] in
/-- A writer that has appended to a mailbox that waits has the token next. -/
theorem Move.gives_pushing (hmove : Move i p rest effect ⟨c, kept, taken⟩ ⟨c', kept', put⟩)
    (hhas : 0 < (taken.map Frame.pushing).sum) (hgone : (put.map Frame.pushing).sum = 0)
    (hwait : c.mailbox.wait = true) : 0 < (put.map Frame.token).sum := by
  cases hmove with
  | exchange _ _ pusher => simp [Mailbox.exchange, hwait]
  | _ => simp at hhas hgone

omit [DecidableEq P] [DecidableEq W] [DecidableEq C] [Fintype W] in
theorem Move.gives_dispatching (hmove : Move i p rest effect ⟨c, kept, taken⟩ ⟨c', kept', put⟩)
    (hhas : 0 < (taken.map Frame.dispatching).sum) (hgone : (put.map Frame.dispatching).sum = 0) :
    c'.down = true ∨ c.mailbox.messages = []
      ∨ ∃ msg, c.mailbox.messages = msg :: c'.mailbox.messages
        ∧ put = [.running p (.handle msg)] := by
  cases hmove with
  | dispatchDown => exact Or.inl rfl
  | take _ _ msg htake => exact Or.inr (Or.inr ⟨msg, Mailbox.take_some htake, rfl⟩)
  | takeNothing _ _ htake => exact Or.inr (Or.inl (Mailbox.take_none htake).1)
  | appendSelf _ _ msg phase =>
      cases phase <;> simp [Frame.dispatching] at hhas hgone
  | exchange _ _ pusher =>
      obtain (_ | msg) | _ := pusher <;> cases hwait : c.mailbox.wait <;>
        simp [Frame.dispatching, Mailbox.exchange, Pusher.back, hwait] at hhas hgone
  | ref _ _ site =>
      obtain _ | _ | (_ | msg) | _ := site <;> simp [Frame.dispatching] at hhas hgone
  | enqueue _ _ site =>
      obtain _ | _ | (_ | msg) | _ := site <;>
        simp [Frame.dispatching, Site.back, Pusher.back] at hhas hgone
  | _ => simp [Frame.dispatching] at hhas hgone

omit [DecidableEq P] [DecidableEq W] [DecidableEq C] [Fintype W] in
theorem Move.popped (hmove : Move i p rest .pop ⟨c, kept, taken⟩ ⟨c', kept', put⟩) :
    put = [.running p .dispatch] := by
  cases hmove
  rfl

omit [DecidableEq P] [DecidableEq W] [DecidableEq C] [Fintype W] in
theorem Move.messages (hmove : Move i p rest effect ⟨c, kept, taken⟩ ⟨c', kept', put⟩)
    (hborn : c.created = true) (halive : taken ≠ [.destroying p]) :
    (∃ more, c'.mailbox.messages = c.mailbox.messages ++ more)
      ∨ ∃ msg, c.mailbox.messages = msg :: c'.mailbox.messages
        ∧ put = [.running p (.handle msg)] := by
  cases hmove with
  | append _ _ msg | appendSelf _ _ msg =>
      exact Or.inl ⟨[msg], Mailbox.append_messages _ _⟩
  | take _ _ msg htake => exact Or.inr ⟨msg, Mailbox.take_some htake, rfl⟩
  | takeNothing _ _ htake =>
      obtain ⟨hbefore, hafter⟩ := Mailbox.take_none htake
      exact Or.inl ⟨[], by rw [hbefore, hafter, List.append_nil]⟩
  | create _ _ pid hfresh => exact absurd (hborn.symm.trans hfresh) nofun
  | drain | destroy => exact absurd rfl halive
  | _ => exact Or.inl ⟨[], (List.append_nil _).symm⟩

end Move

/-! ### The steps of one thread about one process -/

/-- The scheduler makes a run of its own. -/
theorem Step.scheduler {s s' : State P V W C} {touched : List P} (hstep : Step s touched s') :
    s'.sched = s.sched ∨ ∃ label, Sched.system.step s.sched label s'.sched := by
  cases hstep with
  | sched sched hstep => exact Or.inr ⟨_, hstep⟩
  | loop w sched hstack hstep => exact Or.inr ⟨_, hstep⟩
  | findNothing => exact Or.inl rfl
  | move i p rest taken effect view registry sched hsending hstack hmove hacts =>
      cases effect with
      | none => exact Or.inl hacts.2
      | find => exact Or.inl hacts.2.2
      | reg | unreg => exact Or.inl hacts.2
      | resume => exact Or.inr ⟨_, hacts.2⟩
      | pop =>
          obtain ⟨-, w, -, hstep⟩ := hacts
          exact Or.inr ⟨_, hstep⟩

theorem scheduler_run {run : Nat → State P V W C} (hrun : system.Run run) :
    Sched.system.Run fun n => (run n).sched where
  init := congrArg State.sched hrun.init
  next n := by
    obtain hpause | ⟨touched, hstep⟩ := hrun.next n
    · exact Or.inl (congrArg State.sched hpause)
    · exact hstep.scheduler

/-- A step of thread `i` about `p`. -/
def Turns (s s' : State P V W C) (i : W ⊕ C) (p : P) : Prop :=
  ∃ rest taken effect view registry sched, s.stack i = taken ++ rest
    ∧ Move i p rest effect (s.view p taken) view ∧ effect.Acts s i p registry sched
    ∧ s' = s.after i p rest view registry sched

/-- Any other step leaves the calls of `i` about `p` as they are. -/
theorem Step.turns {s s' : State P V W C} {touched : List P} (hstep : Step s touched s')
    (i : W ⊕ C) (p : P) :
    Turns s s' i p ∨ ∀ weight, weigh weight p (s'.stack i) = weigh weight p (s.stack i) := by
  cases hstep with
  | sched | loop | findNothing => exact Or.inr fun _ => rfl
  | move j q rest taken effect view registry sched hsending hstack hmove hacts =>
      by_cases hi : i = j
      · subst hi
        by_cases hp : q = p
        · subst hp
          exact Or.inl ⟨_, _, _, _, _, _, hstack, hmove, hacts, rfl⟩
        · refine Or.inr fun weight => ?_
          obtain ⟨htaken, hput⟩ := hmove.subject
          rw [State.stack_after, Function.update_self, hstack, weigh_append, weigh_append,
            weigh_other weight (Ne.symm hp) htaken, weigh_other weight (Ne.symm hp) hput]
      · refine Or.inr fun weight => ?_
        rw [State.stack_after, Function.update_of_ne hi]

section Turns

variable {s s' : State P V W C} {i : W ⊕ C} {p : P}

/-- What a turn makes of the calls of `i` about `p` when it takes all that weighs. -/
theorem Turns.gives (hturns : Turns s s' i p) (weight : Frame P V → Nat)
    (hhas : 0 < weigh weight p (s.stack i)) (hgone : weigh weight p (s'.stack i) = 0) :
    ∃ rest taken effect view, Move i p rest effect (s.view p taken) view
      ∧ 0 < (taken.map weight).sum ∧ (view.frames.map weight).sum = 0
      ∧ s'.proc p = view.proc ∧ s'.stack i = view.frames ++ rest
      ∧ (effect = .resume → p ∈ s'.sched.queue)
      ∧ ∀ weight', (view.frames.map weight').sum ≤ weigh weight' p (s'.stack i) := by
  obtain ⟨rest, taken, effect, view, registry, sched, hstack, hmove, hacts, rfl⟩ := hturns
  obtain ⟨htaken, hput⟩ := hmove.subject
  rw [hstack, weigh_append, weigh_same _ htaken] at hhas
  rw [State.stack_after, Function.update_self, weigh_append, weigh_same _ hput] at hgone
  refine ⟨rest, taken, effect, view, hmove, by omega, by omega, Function.update_self _ _ _, ?_, ?_, ?_⟩
  · rw [State.stack_after, Function.update_self]
  · rintro rfl
    exact hacts.2.queues ▸ List.mem_append_right _ (List.mem_singleton_self p)
  · intro weight'
    rw [State.stack_after, Function.update_self, weigh_append, weigh_same _ hput]
    exact Nat.le_add_right _ _

theorem Step.gives_token {touched : List P} (hstep : Step s touched s')
    (hhas : 0 < weigh Frame.token p (s.stack i)) (hgone : weigh Frame.token p (s'.stack i) = 0) :
    (s'.proc p).down = true ∨ (s.proc p).mailbox.messages = [] ∨ p ∈ s'.sched.queue := by
  obtain hturns | hsame := hstep.turns i p
  · obtain ⟨rest, taken, effect, view, hmove, htook, hput, hproc, -, hqueue, -⟩ :=
      hturns.gives _ hhas hgone
    rw [hproc]
    exact (hmove.gives_token htook hput).imp_right (Or.imp_right hqueue)
  · rw [hsame] at hgone
    omega

theorem Step.gives_pushing {touched : List P} (hstep : Step s touched s')
    (hhas : 0 < weigh Frame.pushing p (s.stack i))
    (hgone : weigh Frame.pushing p (s'.stack i) = 0) (hwait : (s.proc p).mailbox.wait = true) :
    0 < weigh Frame.token p (s'.stack i) := by
  obtain hturns | hsame := hstep.turns i p
  · obtain ⟨rest, taken, effect, view, hmove, htook, hput, -, -, -, hle⟩ :=
      hturns.gives _ hhas hgone
    exact (hmove.gives_pushing htook hput hwait).trans_le (hle _)
  · rw [hsame] at hgone
    omega

theorem Step.gives_dispatching {touched : List P} (hstep : Step s touched s')
    (hhas : 0 < weigh Frame.dispatching p (s.stack i))
    (hgone : weigh Frame.dispatching p (s'.stack i) = 0) :
    (s'.proc p).down = true ∨ (s.proc p).mailbox.messages = []
      ∨ ∃ msg rest, (s.proc p).mailbox.messages = msg :: (s'.proc p).mailbox.messages
        ∧ s'.stack i = .running p (.handle msg) :: rest := by
  obtain hturns | hsame := hstep.turns i p
  · obtain ⟨rest, taken, effect, view, hmove, htook, hput, hproc, hstack, -, -⟩ :=
      hturns.gives _ hhas hgone
    rw [hproc]
    refine (hmove.gives_dispatching htook hput).imp_right (Or.imp_right ?_)
    rintro ⟨msg, hmessages, hframes⟩
    exact ⟨msg, rest, hmessages, by rw [hstack, hframes]; rfl⟩
  · rw [hsame] at hgone
    omega

end Turns

/-- A process that leaves the queue is dispatched. -/
theorem Step.dispatches {s s' : State P V W C} {touched : List P} (hstep : Step s touched s') {p : P}
    (hqueued : p ∈ s.sched.queue) (hgone : p ∉ s'.sched.queue) :
    ∃ i, 0 < weigh Frame.dispatching p (s'.stack i) := by
  cases hstep with
  | sched sched hstep | loop w sched hstack hstep =>
      have hqueue : sched.queue = s.sched.queue := hstep.queues
      exact absurd (hqueue ▸ hqueued) hgone
  | findNothing => exact absurd hqueued hgone
  | move i q rest taken effect view registry sched hsending hstack hmove hacts =>
      have hcount := hacts.count
      by_cases hq : p = q
      · subst hq
        obtain rfl | hpops : effect = .pop ∨ effect.pops = 0 := by cases effect <;> simp
        · refine ⟨i, ?_⟩
          rw [State.stack_after, Function.update_self, weigh_append, hmove.popped,
            weigh_same (p := p)]
          · exact Nat.lt_of_lt_of_le Nat.zero_lt_one (Nat.le_add_right _ _)
          · simp [Frame.process]
        · refine absurd (List.count_pos_iff.mp ?_) hgone
          have hbefore := List.count_pos_iff.mpr hqueued
          have hafter := hcount.1
          change 0 < sched.queue.count p
          omega
      · refine absurd (List.count_pos_iff.mp ?_) hgone
        change 0 < sched.queue.count p
        rw [hcount.2 p hq]
        exact List.count_pos_iff.mpr hqueued

/-- While a process stays up, messages are appended to its mailbox, or the first one is taken. -/
theorem Step.messages [Fintype C] {s s' : State P V W C} {touched : List P}
    (hstep : Step s touched s') (hs : Sound s) {p : P} (hborn : (s.proc p).created = true)
    (hup : (s'.proc p).down = false) :
    (∃ more, (s'.proc p).mailbox.messages = (s.proc p).mailbox.messages ++ more)
      ∨ ∃ i msg rest, (s.proc p).mailbox.messages = msg :: (s'.proc p).mailbox.messages
        ∧ s'.stack i = .running p (.handle msg) :: rest := by
  cases hstep with
  | sched | loop | findNothing => exact Or.inl ⟨[], (List.append_nil _).symm⟩
  | move i q rest taken effect view registry sched hsending hstack hmove hacts =>
      by_cases hq : p = q
      · subst hq
        have halive : taken ≠ [.destroying p] := by
          rintro rfl
          have hdestroys : 0 < s.tally p Frame.destroys := by
            refine lt_of_lt_of_le ?_ (le_total (weigh Frame.destroys p) s.stack i)
            rw [hstack, weigh_append, weigh_same (p := p)]
            · exact Nat.lt_of_lt_of_le Nat.zero_lt_one (Nat.le_add_right _ _)
            · simp [Frame.process]
          obtain ⟨-, hrefcnt, -, -⟩ := (hs.balanced p).destroying hdestroys
          have hdown := ((hs.balanced p).gone hborn hrefcnt).1
          rw [((Step.move i p rest _ effect view registry sched hsending hstack hmove hacts).down
            ⟨hborn, hdown⟩).2] at hup
          cases hup
        have hproc : (s.after i p rest view registry sched).proc p = view.proc :=
          Function.update_self _ _ _
        rw [hproc]
        refine (hmove.messages hborn halive).imp_right ?_
        rintro ⟨msg, hmessages, hframes⟩
        refine ⟨i, msg, rest, hmessages, ?_⟩
        rw [State.stack_after, Function.update_self, hframes]
        rfl
      · refine Or.inl ⟨[], ?_⟩
        rw [List.append_nil]
        simp [State.after, hq]

theorem created_of_leads {s s' : State P V W C} (hleads : system.Leads s s') {p : P}
    (hborn : (s.proc p).created = true) : (s'.proc p).created = true := by
  refine hleads.keeps (P := fun s => (s.proc p).created = true) ?_ hborn
  intro s touched s' hborn hstep
  cases hstep with
  | sched | loop | findNothing => exact hborn
  | move i q rest taken effect view registry sched hsending hstack hmove hacts =>
      by_cases hq : p = q
      · subst hq
        rw [show (s.after i p rest view registry sched).proc p = view.proc from
          Function.update_self _ _ _]
        exact (hmove.keeps hborn).1
      · simpa [State.after, hq] using hborn

/-! ### Runs -/

/-- Each call about `p` returns. -/
def Returns (run : Nat → State P V W C) (p : P) : Prop :=
  ∀ i n, ∃ k ≥ n, ∀ frame ∈ (run k).stack i, frame.process ≠ p

section Run

variable {run : Nat → State P V W C} {p : P}

/-- What a call about `p` has it gives away. -/
theorem Returns.gives (hreturns : Returns run p) (hrun : system.Run run) (weight : Frame P V → Nat)
    {i : W ⊕ C} {n : Nat} (hhas : 0 < weigh weight p ((run n).stack i)) :
    ∃ k ≥ n, 0 < weigh weight p ((run k).stack i) ∧ weigh weight p ((run (k + 1)).stack i) = 0
      ∧ ∃ touched, Step (run k) touched (run (k + 1)) := by
  obtain ⟨m, hm, hnone⟩ := hreturns i n
  obtain ⟨k, hk, -, hbefore, hafter, hstep⟩ := hrun.exists_step
    (P := fun s => 0 < weigh weight p (s.stack i)) hm hhas (by
      rw [weigh, List.filter_eq_nil_iff.mpr]
      · exact lt_irrefl 0
      · intro frame hframe
        simpa using hnone frame hframe)
  exact ⟨k, hk, hbefore, Nat.eq_zero_of_not_pos hafter, hstep⟩

/-- `p` is up from `n` on, and has a message to take. -/
structure Busy (run : Nat → State P V W C) (p : P) (n : Nat) : Prop where
  born : ∀ k ≥ n, ((run k).proc p).created = true
  up : ∀ k ≥ n, ((run k).proc p).down = false
  messages : ∀ k ≥ n, ((run k).proc p).mailbox.messages ≠ []

variable [Fintype C]

omit [DecidableEq W] [DecidableEq C] in
theorem State.exists_weigh {s : State P V W C} {weight : Frame P V → Nat}
    (htally : 0 < s.tally p weight) : ∃ i, 0 < weigh weight p (s.stack i) := by
  by_contra hnone
  exact htally.ne' (total_eq_zero.mpr fun i => Nat.eq_zero_of_not_pos (not_exists.mp hnone i))

/-- Where the token is. -/
theorem Busy.token (hrun : system.Run run) {n : Nat} (hbusy : Busy run p n) :
    p ∈ (run n).sched.queue ∨ (∃ i, 0 < weigh Frame.token p ((run n).stack i))
      ∨ (((run n).proc p).mailbox.wait = true
        ∧ ∃ i, 0 < weigh Frame.pushing p ((run n).stack i)) := by
  have hbalanced := (sound_of_reachable (hrun.reachable n)).balanced p
  have haccount := hbalanced.token
  rw [hbusy.born n le_rfl, hbusy.up n le_rfl, Bool.toNat_true, Bool.toNat_false] at haccount
  by_cases hqueued : p ∈ (run n).sched.queue
  · exact Or.inl hqueued
  · by_cases htoken : 0 < (run n).tally p Frame.token
    · exact Or.inr (Or.inl (State.exists_weigh htoken))
    · have hcount := List.count_eq_zero.mpr hqueued
      have hwaiting : ((run n).proc p).waiting = 1 := by omega
      have hwait : ((run n).proc p).mailbox.wait = true := by
        rw [Proc.waiting, Bool.toNat_eq_one, Bool.and_eq_true] at hwaiting
        exact hwaiting.1
      exact Or.inr (Or.inr ⟨hwait,
        State.exists_weigh (hbalanced.pushing hwaiting (hbusy.messages n le_rfl))⟩)

omit [DecidableEq P] [DecidableEq W] [DecidableEq C] [Fintype W] [Fintype C] in
theorem Busy.mono {n m : Nat} (hbusy : Busy run p n) (hle : n ≤ m) : Busy run p m :=
  ⟨fun k hk => hbusy.born k (hle.trans hk), fun k hk => hbusy.up k (hle.trans hk),
    fun k hk => hbusy.messages k (hle.trans hk)⟩

/-- It is queued. -/
theorem Busy.queued (hrun : system.Run run) (hreturns : Returns run p) {n : Nat}
    (hbusy : Busy run p n) : ∃ k ≥ n, p ∈ (run k).sched.queue := by
  have hgiven : ∀ m ≥ n, ∀ i, 0 < weigh Frame.token p ((run m).stack i) →
      ∃ k ≥ n, p ∈ (run k).sched.queue := by
    intro m hm i hhas
    obtain ⟨k, hk, hbefore, hafter, touched, hstep⟩ := hreturns.gives hrun _ hhas
    obtain hdown | hempty | hqueued := hstep.gives_token hbefore hafter
    · rw [hbusy.up (k + 1) (by omega)] at hdown
      cases hdown
    · exact absurd hempty (hbusy.messages k (hm.trans hk))
    · exact ⟨k + 1, by omega, hqueued⟩
  obtain hqueued | ⟨i, hhas⟩ | ⟨-, i, hpushing⟩ := hbusy.token hrun
  · exact ⟨n, le_rfl, hqueued⟩
  · exact hgiven n le_rfl i hhas
  · obtain ⟨k, hk, hbefore, hafter, touched, hstep⟩ := hreturns.gives hrun _ hpushing
    -- by the time of the compare-exchange another writer may have picked the token up
    obtain hqueued | ⟨j, hhas⟩ | ⟨hwait, -⟩ := (hbusy.mono hk).token hrun
    · exact ⟨k, hk, hqueued⟩
    · exact hgiven k hk j hhas
    · exact hgiven (k + 1) (by omega) i (hstep.gives_pushing hbefore hafter hwait)

/-- While `p` stays in the queue no worker takes it. -/
theorem handed_count {s s' : State P V W C} {touched : List P} (hstep : Step s touched s')
    (hs : Sound s) (hqueued : p ∈ s'.sched.queue) :
    (s'.sched.handed.map Prod.fst).count p = (s.sched.handed.map Prod.fst).count p := by
  obtain hsame | ⟨label, hsched⟩ := hstep.scheduler
  · rw [hsame]
  · have hqueue := hsched.queues
    generalize hsched' : s'.sched = sched at *
    cases hsched with
    | pop w q rest hpc hrunq =>
        have hne : q ≠ p := by
          rintro rfl
          have haccount := (hs.balanced q).up (by
            rw [show s.sched.queue = q :: _ from hqueue, List.count_cons_self]
            omega)
          have hone := haccount.2.2.2.2
          have hmore := List.count_pos_iff.mpr hqueued
          rw [show s.sched.queue = q :: _ from hqueue, List.count_cons_self] at hone
          omega
        simp [hne]
    | _ => rfl

/-- A worker takes it. -/
theorem dispatched_of_queued [Nonempty W] (hrun : system.Run run)
    (hworkers : Sched.FairWorkers fun n => (run n).sched)
    (hsenders : Sched.FairSenders fun n => (run n).sched)
    (hidle : ∀ n, (run n).sched.stopPc = .idle)
    (hfree : ∀ n, ¬Sched.Occupied (fun n => (run n).sched) n) {n : Nat}
    (hqueued : p ∈ (run n).sched.queue) :
    ∃ k ≥ n, ∃ i, 0 < weigh Frame.dispatching p ((run k).stack i) := by
  by_contra hnone
  have hstays : ∀ k ≥ n, p ∈ (run k).sched.queue := by
    intro k hk
    by_contra hgone
    obtain ⟨j, hj, -, hbefore, hafter, touched, hstep⟩ := hrun.exists_step
      (P := fun s => p ∈ s.sched.queue) hk hqueued hgone
    exact hnone ⟨j + 1, by omega, hstep.dispatches hbefore hafter⟩
  have hcount : ∀ k ≥ n, ((run k).sched.handed.map Prod.fst).count p
      = ((run n).sched.handed.map Prod.fst).count p := by
    intro k hk
    refine hrun.keeps (P := fun s => (s.sched.handed.map Prod.fst).count p
      = ((run n).sched.handed.map Prod.fst).count p) ?_ rfl hk
    intro k hk hcount touched hstep
    rw [← hcount]
    exact handed_count hstep (sound_of_reachable (hrun.reachable k))
      (hstays (k + 1) (Nat.le_succ_of_le hk))
  have hsched := scheduler_run hrun
  obtain ⟨m, hm, hprefix⟩ := Sched.taken_of_pushed hsched hworkers hsenders hidle hfree n
  have hle := hprefix.sublist.count_le p
  rw [hcount m hm, (Sched.accounted_of_reachable (hsched.reachable n)).handed,
    List.count_append] at hle
  have hpos := List.count_pos_iff.mpr hqueued
  omega

theorem first_is_taken [Nonempty W] (hrun : system.Run run)
    (hworkers : Sched.FairWorkers fun n => (run n).sched)
    (hsenders : Sched.FairSenders fun n => (run n).sched)
    (hidle : ∀ n, (run n).sched.stopPc = .idle)
    (hfree : ∀ n, ¬Sched.Occupied (fun n => (run n).sched) n) (hreturns : Returns run p) {n : Nat}
    {msg : Message V} {after : List (Message V)} (hborn : ((run n).proc p).created = true)
    (hmessages : ((run n).proc p).mailbox.messages = msg :: after) :
    ∃ k ≥ n, ((run k).proc p).down = true
      ∨ ((run k).proc p).created = true
        ∧ (∃ more, ((run k).proc p).mailbox.messages = after ++ more)
        ∧ ∃ i rest, (run k).stack i = .running p (.handle msg) :: rest := by
  by_contra hnone
  have hup : ∀ k ≥ n, ((run k).proc p).down = false := fun k hk =>
    Bool.eq_false_iff.mpr fun hdown => hnone ⟨k, hk, Or.inl hdown⟩
  have hborn : ∀ k ≥ n, ((run k).proc p).created = true := fun k hk =>
    created_of_leads (hrun.leads hk) hborn
  have hwaits : ∀ k ≥ n, ∃ more, ((run k).proc p).mailbox.messages = msg :: after ++ more := by
    intro k hk
    induction k, hk using Nat.le_induction with
    | base => exact ⟨[], by rw [hmessages, List.append_nil]⟩
    | succ k hk ih =>
        obtain hpause | ⟨touched, hstep⟩ := hrun.next k
        · rwa [hpause]
        · obtain ⟨more, hmore⟩ := ih
          obtain ⟨more', hmore'⟩ | ⟨i, msg', rest, htook, hstack⟩ :=
            hstep.messages (sound_of_reachable (hrun.reachable k)) (hborn k hk)
              (hup (k + 1) (Nat.le_succ_of_le hk))
          · exact ⟨more ++ more', by rw [hmore', hmore, List.append_assoc]⟩
          · rw [hmore, List.cons_append, List.cons.injEq] at htook
            obtain ⟨rfl, hafter⟩ := htook
            exact absurd ⟨k + 1, Nat.le_succ_of_le hk, Or.inr ⟨hborn (k + 1) (Nat.le_succ_of_le hk),
              ⟨more, hafter.symm⟩, i, rest, hstack⟩⟩ hnone
  have hbusy : Busy run p n := ⟨hborn, hup, fun k hk hempty => by
    obtain ⟨more, hmore⟩ := hwaits k hk
    rw [hempty] at hmore
    cases hmore⟩
  obtain ⟨k₁, hk₁, hqueued⟩ := hbusy.queued hrun hreturns
  obtain ⟨k₂, hk₂, i, hdispatching⟩ :=
    dispatched_of_queued hrun hworkers hsenders hidle hfree hqueued
  obtain ⟨k, hk, hbefore, hafter, touched, hstep⟩ := hreturns.gives hrun _ hdispatching
  have hkn : n ≤ k := hk₁.trans (hk₂.trans hk)
  obtain hdown | hempty | ⟨msg', rest, htook, hstack⟩ := hstep.gives_dispatching hbefore hafter
  · rw [hup (k + 1) (Nat.le_succ_of_le hkn)] at hdown
    cases hdown
  · exact hbusy.messages k hkn hempty
  · obtain ⟨more, hmore⟩ := hwaits k hkn
    rw [hmore, List.cons_append, List.cons.injEq] at htook
    obtain ⟨rfl, hafter⟩ := htook
    exact hnone ⟨k + 1, Nat.le_succ_of_le hkn, Or.inr ⟨hborn (k + 1) (Nat.le_succ_of_le hkn),
      ⟨more, hafter.symm⟩, i, rest, hstack⟩⟩

/-- **Every message is taken.** In a fair run in which `stop` is not called, if each call about a process
returns, and the workers are not all kept for ever by processes that do not return, then each message in
the mailbox of the process is taken and handled, in its turn, or the process goes down. -/
theorem every_message_is_taken [Nonempty W] (hrun : system.Run run)
    (hworkers : Sched.FairWorkers fun n => (run n).sched)
    (hsenders : Sched.FairSenders fun n => (run n).sched)
    (hidle : ∀ n, (run n).sched.stopPc = .idle)
    (hfree : ∀ n, ¬Sched.Occupied (fun n => (run n).sched) n) (hreturns : Returns run p) {n : Nat}
    {msg : Message V} {before after : List (Message V)}
    (hborn : ((run n).proc p).created = true)
    (hmessages : ((run n).proc p).mailbox.messages = before ++ msg :: after) :
    ∃ k ≥ n, ((run k).proc p).down = true
      ∨ ∃ i rest, (run k).stack i = .running p (.handle msg) :: rest := by
  induction before generalizing n after with
  | nil =>
      obtain ⟨k, hk, htaken⟩ := first_is_taken hrun hworkers hsenders hidle hfree hreturns hborn hmessages
      exact ⟨k, hk, htaken.imp_right fun h => h.2.2⟩
  | cons first before ih =>
      rw [List.cons_append] at hmessages
      obtain ⟨k, hk, hdown | ⟨hborn, ⟨more, hmore⟩, -⟩⟩ :=
        first_is_taken hrun hworkers hsenders hidle hfree hreturns hborn hmessages
      · exact ⟨k, hk, Or.inl hdown⟩
      · rw [List.append_assoc, List.cons_append] at hmore
        obtain ⟨k', hk', htaken⟩ := ih hborn hmore
        exact ⟨k', hk.trans hk', htaken⟩

end Run

/-! ### A run of one worker and one process -/

/-- What is known of the system: the scheduler, the process, and the stacks of the two threads. -/
structure Shows (s₀ s : State Nat Nat (Fin 1) Unit)
    (sched : Sched.State Nat (Fin 1) (Fin 1 ⊕ Unit)) (c : Proc Nat)
    (client worker : List (Frame Nat Nat)) : Prop where
  reached : system.Leads s₀ s
  sched : s.sched = sched
  registry : s.registry.find 1 = some 0
  proc : s.proc 0 = c
  kept : s.kept 0 = 0
  client : s.stack (.inr ()) = client
  worker : s.stack (.inl 0) = worker

section Shows

variable {s₀ s : State Nat Nat (Fin 1) Unit} {sched sched' : Sched.State Nat (Fin 1) (Fin 1 ⊕ Unit)}
  {c c' : Proc Nat} {client worker put : List (Frame Nat Nat)}

theorem Shows.after {i : Fin 1 ⊕ Unit} {taken : List (Frame Nat Nat)} {effect : Effect}
    (h : Shows s₀ s sched c client worker) (hstack : s.stack i = taken)
    (hsending : sched.sending i = false) (hmove : Move i 0 [] effect ⟨c, 0, taken⟩ ⟨c', 0, put⟩)
    (hacts : effect.Acts s i 0 s.registry sched') :
    ∃ s', Shows s₀ s' sched' c'
      (if i = .inr () then put else client) (if i = .inl 0 then put else worker) := by
  have hview : s.view 0 taken = ⟨c, 0, taken⟩ := by rw [State.view, h.proc, h.kept]
  have hstep : system.step s _ (s.after i 0 [] ⟨c', 0, put⟩ s.registry sched') :=
    .move i 0 [] taken effect ⟨c', 0, put⟩ s.registry sched' (h.sched ▸ hsending)
      (hstack.trans (List.append_nil _).symm) (hview ▸ hmove) hacts
  refine ⟨_, h.reached.tail ⟨_, hstep⟩, rfl, h.registry,
    rfl, rfl, ?_, ?_⟩
  · rw [State.stack_after, List.append_nil]
    split
    · next hi => rw [hi, Function.update_self]
    · next hi => rw [Function.update_of_ne (Ne.symm hi), h.client]
  · rw [State.stack_after, List.append_nil]
    split
    · next hi => rw [hi, Function.update_self]
    · next hi => rw [Function.update_of_ne (Ne.symm hi), h.worker]

theorem Shows.rebase (h : Shows s₀ s sched c client worker) : Shows s s sched c client worker :=
  { h with reached := .refl }

theorem Shows.byClient (h : Shows s₀ s sched c client worker)
    (hmove : Move (.inr () : Fin 1 ⊕ Unit) 0 [] .none ⟨c, 0, client⟩ ⟨c', 0, put⟩)
    (hsending : sched.sending (.inr ()) = false) :
    ∃ s', Shows s₀ s' sched c' put worker :=
  h.after h.client hsending hmove ⟨rfl, h.sched.symm⟩

theorem Shows.byWorker (h : Shows s₀ s sched c client worker)
    (hmove : Move (.inl 0 : Fin 1 ⊕ Unit) 0 [] .none ⟨c, 0, worker⟩ ⟨c', 0, put⟩)
    (hsending : sched.sending (.inl 0) = false) :
    ∃ s', Shows s₀ s' sched c' client put :=
  h.after h.worker hsending hmove ⟨rfl, h.sched.symm⟩

theorem Shows.queuedBy {i : Fin 1 ⊕ Unit} {site : Site Nat} (h : Shows s₀ s sched c client worker)
    (hstack : s.stack i = [.queueing 0 site]) (hsending : sched.sending i = false)
    (hstep : Sched.Step sched (.resume i 0) sched') :
    ∃ s', Shows s₀ s' sched' c (if i = .inr () then site.back 0 else client)
      (if i = .inl 0 then site.back 0 else worker) :=
  h.after hstack hsending (.enqueue c 0 site) ⟨rfl, h.sched ▸ hstep⟩

theorem Shows.found (h : Shows s₀ s sched c [] worker) (hsending : sched.sending (.inr ()) = false) :
    ∃ s', Shows s₀ s' sched c.ref [.holding 0] worker :=
  h.after h.client hsending (.find c 0 1 rfl) ⟨h.registry, rfl, h.sched.symm⟩

theorem Shows.popped (h : Shows s₀ s sched c client []) (hsending : sched.sending (.inl 0) = false)
    (hstep : Sched.Step sched (.pop 0 0) sched') :
    ∃ s', Shows s₀ s' sched' c client [.running 0 .dispatch] :=
  h.after h.worker hsending (.pop c 0) ⟨rfl, 0, rfl, h.sched ▸ hstep⟩

theorem Shows.scheduled (h : Shows s₀ s sched c client worker) (hstep : Sched.Step sched .tau sched') :
    ∃ s', Shows s₀ s' sched' c client worker := by
  have hstep' : system.step s _ { s with sched := sched' } := .sched sched' (h.sched ▸ hstep)
  exact ⟨_, h.reached.tail ⟨_, hstep'⟩, rfl, h.registry, h.proc, h.kept,
    h.client, h.worker⟩

theorem Shows.looped (h : Shows s₀ s sched c client []) (hstep : Sched.Step sched (.finish 0) sched') :
    ∃ s', Shows s₀ s' sched' c client [] := by
  have hstep' : system.step s _ { s with sched := sched' } := .loop 0 sched' h.worker (h.sched ▸ hstep)
  exact ⟨_, h.reached.tail ⟨_, hstep'⟩, rfl, h.registry, h.proc, h.kept,
    h.client, h.worker⟩

end Shows

/-- A thread spawns a process and sends it a message, which the only worker takes. -/
theorem pushed_and_taken : ∃ s₁ s₂ : State Nat Nat (Fin 1) Unit,
    system.Leads State.fresh s₁ ∧ (s₁.proc 0).created = true
      ∧ (s₁.proc 0).mailbox.messages = [⟨0, 0, .value 5⟩] ∧ system.Leads s₁ s₂
      ∧ (s₂.proc 0).down = false ∧ (∀ i, s₂.stack i = []) ∧ s₂.sched.stopPc = .idle
      ∧ s₂.sched.worker 0 = .parked ∧ s₂.sched.sched.signals = 0
      ∧ ∀ i, s₂.sched.sending i = false := by
  have hfresh : system.step (State.fresh : State Nat Nat (Fin 1) Unit) _ _ :=
    .move (.inr ()) 0 [] [] (.reg 1) ⟨.fresh 1, 0, [.creating 0]⟩ _ _ rfl rfl
      (.create _ _ 1 rfl rfl) ⟨rfl, rfl⟩
  have h1 : Shows State.fresh _ Sched.State.fresh (.fresh 1) [.creating 0] [] :=
    ⟨.single ⟨_, hfresh⟩, rfl, rfl, rfl, rfl, rfl, rfl⟩
  obtain ⟨s2, h2⟩ := h1.byClient (.created _ _) rfl
  obtain ⟨s3, h3⟩ := h2.byClient (.ref _ _ _) rfl
  obtain ⟨s4, h4⟩ := h3.queuedBy h3.client rfl (.resume (.inr ()) 0 trivial rfl)
  obtain ⟨s5, h5⟩ := h4.found rfl
  obtain ⟨s6, h6⟩ := h5.byClient (.append _ _ ⟨0, 0, .value 5⟩) rfl
  obtain ⟨s7, h7⟩ := h6.byClient (.exchange _ _ _) rfl
  obtain ⟨s8, h8⟩ := h7.byClient (.release _ _) rfl
  have h8' := h8.rebase
  obtain ⟨s9, h9⟩ := h8'.scheduled (.enter 0 rfl rfl)
  obtain ⟨s10, h10⟩ := h9.scheduled (.lock 0 rfl rfl)
  obtain ⟨s11, h11⟩ := h10.scheduled (.refill 0 rfl rfl)
  obtain ⟨s12, h12⟩ := h11.popped rfl (.pop 0 0 [] rfl rfl)
  obtain ⟨s13, h13⟩ := h12.byWorker (.take _ _ ⟨0, 0, .value 5⟩ rfl) rfl
  obtain ⟨s14, h14⟩ := h13.byWorker (.handled _ _ _ rfl) rfl
  obtain ⟨s15, h15⟩ := h14.byWorker (.requeue _ _) rfl
  obtain ⟨s16, h16⟩ := h15.byWorker (.ref _ _ _) rfl
  obtain ⟨s17, h17⟩ := h16.queuedBy h16.worker rfl
    (.resume (.inl 0) 0 ⟨⟨0, rfl⟩, nofun⟩ rfl)
  obtain ⟨s18, h18⟩ := h17.byWorker (.finish _ _) rfl
  obtain ⟨s19, h19⟩ := h18.looped (.finish 0 ⟨⟨0, rfl⟩, nofun⟩ rfl)
  obtain ⟨s20, h20⟩ := h19.scheduled (.enter 0 rfl rfl)
  obtain ⟨s21, h21⟩ := h20.scheduled (.lock 0 rfl rfl)
  obtain ⟨s22, h22⟩ := h21.scheduled (.refill 0 rfl rfl)
  obtain ⟨s23, h23⟩ := h22.popped rfl (.pop 0 0 [] rfl rfl)
  obtain ⟨s24, h24⟩ := h23.byWorker (.takeNothing _ _ rfl) rfl
  obtain ⟨s25, h25⟩ := h24.byWorker (.rest _ _) rfl
  obtain ⟨s26, h26⟩ := h25.byWorker (.finish _ _) rfl
  obtain ⟨s27, h27⟩ := h26.looped (.finish 0 ⟨⟨0, rfl⟩, nofun⟩ rfl)
  obtain ⟨s28, h28⟩ := h27.scheduled (.enter 0 rfl rfl)
  obtain ⟨s29, h29⟩ := h28.scheduled (.lock 0 rfl rfl)
  obtain ⟨s30, h30⟩ := h29.scheduled (.refill 0 rfl rfl)
  obtain ⟨s31, h31⟩ := h30.scheduled (.park 0 rfl)
  refine ⟨s8, s31, h8.reached, ?_, ?_, h31.reached, ?_, ?_, ?_, ?_, ?_, ?_⟩
  · rw [h8.proc]
    rfl
  · rw [h8.proc]
    rfl
  · rw [h31.proc]
    rfl
  · rintro (w | c)
    · rw [Subsingleton.elim w 0]
      exact h31.worker
    · exact h31.client
  · rw [h31.sched]
    rfl
  · rw [h31.sched]
    rfl
  · rw [h31.sched]
    rfl
  · rw [h31.sched]
    rintro (w | c)
    · rw [Subsingleton.elim w 0]
      rfl
    · rfl

theorem every_message_is_taken_one : ∃ run : Nat → State Nat Nat (Fin 1) Unit, system.Run run
    ∧ ∃ k i rest, (run k).stack i = .running 0 (.handle ⟨0, 0, .value 5⟩) :: rest := by
  obtain ⟨s₁, s₂, hfirst, hborn, hmessages, hsecond, hup, hstack, hidle, hparked, hsignals, hsending⟩
    := pushed_and_taken
  obtain ⟨run, hrun, ⟨n₁, rfl⟩, n, hlast⟩ := hfirst.exists_run hsecond rfl
  have hsched := scheduler_run hrun
  have hparked' : ∀ w, s₂.sched.worker w = .parked := fun w => Subsingleton.elim 0 w ▸ hparked
  obtain ⟨hworkers, hsenders⟩ := Sched.fair_of_parked
    (fun k hk => congrArg State.sched (hlast k hk)) hparked' hsignals hsending
  obtain ⟨k, hk, hdown | ⟨i, rest, hhandles⟩⟩ := every_message_is_taken hrun hworkers hsenders
    (fun k => by
      by_contra hbegun
      refine Sched.begun_of_le hsched (le_max_right n k) hbegun ?_
      rw [hlast _ (le_max_left n k)]
      exact hidle)
    (fun m hoccupied => by
      obtain ⟨p, hp⟩ := hoccupied 0
      have hlater : (run (max n m)).sched.worker 0 = .running p := hp _ (le_max_right n m)
      rw [hlast _ (le_max_left n m), hparked] at hlater
      cases hlater)
    (fun i m => ⟨max n m, le_max_right n m, fun frame hframe => by
      rw [hlast _ (le_max_left n m), hstack] at hframe
      exact absurd hframe List.not_mem_nil⟩)
    hborn (hmessages.trans (List.nil_append _).symm)
  · have hlater := (down_of_leads (hrun.leads (le_max_right n k))
      ⟨created_of_leads (hrun.leads hk) hborn, hdown⟩).2
    rw [hlast _ (le_max_left n k), hup] at hlater
    cases hlater
  · exact ⟨run, hrun, k, i, rest, hhandles⟩

end Stp.Process
