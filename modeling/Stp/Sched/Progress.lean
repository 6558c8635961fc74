import Stp.Sched.Shutdown

/-!
# Every process that was resumed is run

What was passed to `resume` is handed to workers in order, so what has to be shown is that workers do
not stop taking processes while there are some. While the queue is not empty no worker parks, so each
move of a worker brings it closer to taking one (`approach`). When workers do not move any more those
that are not in a process are parked without a signal. But while workers are counted as idle, each
process in the queue has been paid for by a signal, or by a worker that is on its way to the queue
(`Supplied`). So then all workers are in a process.
-/

namespace Stp.Sched

open Tally Transition

variable {P W C : Type*} [DecidableEq W] [DecidableEq C] [Fintype W]

/-! ### Workers on their way to the queue -/

def WorkerPc.awake : WorkerPc P → Nat
  | .woken | .loop | .check | .locked => 1
  | _ => 0

variable [Fintype C]

/-- While workers are counted as idle, as many are about to come as there are processes. -/
def Supplied (s : State P W (W ⊕ C)) : Prop :=
  s.sched.stop = false → 0 < s.sched.idleWorkers →
    s.queue.length ≤ s.aboutToSend + s.sched.signals + total WorkerPc.awake s.worker

omit [DecidableEq W] [Fintype W] [DecidableEq C] [Fintype C] in
theorem Scheduler.resume_waiting (s : Scheduler P W) (p : P)
    (hidle : 0 < (s.resume p).2.idleWorkers) : (s.resume p).1 = true ∧ 0 < s.idleWorkers := by
  unfold Scheduler.resume at *
  split
  · next hne => exact ⟨rfl, Nat.pos_of_ne_zero hne⟩
  · next heq =>
      rw [if_neg heq] at hidle
      exact absurd hidle (by simpa using heq)

theorem Step.supplied {s s' : State P W (W ⊕ C)} {label : Label P W C} (hstep : Step s label s')
    (hs : Supplied s) : Supplied s' := by
  intro hstop hidle
  have hqueue := hstep.queues
  unfold Supplied State.aboutToSend at *
  cases hstep with
  | enter w hpc =>
      have hworker := total_setWorker WorkerPc.awake hpc .check
      have hbefore := hs hstop hidle
      rw [show State.queue _ = _ from hqueue]
      simp only [State.setWorker, WorkerPc.awake] at *
      omega
  | leave w hpc hstopped => exact absurd (hstop.symm.trans hstopped) Bool.false_ne_true
  | lock w hpc =>
      have hworker := total_setWorker WorkerPc.awake hpc .locked
      have hbefore := hs hstop hidle
      rw [show State.queue _ = _ from hqueue]
      simp only [State.setWorker, WorkerPc.awake] at *
      omega
  | pop w p rest hpc hrunq =>
      have hworker := total_setWorker WorkerPc.awake hpc (.running p)
      have hbefore := hs hstop hidle
      rw [show s.queue = p :: _ from hqueue, List.length_cons] at hbefore
      simp only [State.setWorker, WorkerPc.awake] at *
      omega
  | refill w hpc hrunq =>
      obtain ⟨hcount, hsignals, -, hsame⟩ := Scheduler.refill_account s.sched
      have hworker := total_setWorker WorkerPc.awake hpc
        (if s.sched.refill.1 then .idling else .locked)
      by_cases hempty : s.sched.refill.1 = true
      · rw [State.queue, Scheduler.refill_empty hempty]
        exact Nat.zero_le _
      · have hfilled : s.sched.refill.1 = false := Bool.eq_false_iff.mpr hempty
        rw [hfilled, Bool.toNat_false, Nat.add_zero] at hcount
        have hbefore := hs (hsame.symm.trans hstop) (hcount ▸ hidle)
        rw [show State.queue _ = _ from hqueue]
        simp only [State.setWorker, WorkerPc.awake, hfilled, hsignals, Bool.false_eq_true,
          ↓reduceIte] at *
        omega
  | park w hpc =>
      have hworker := total_setWorker WorkerPc.awake hpc .parked
      have hbefore := hs hstop hidle
      rw [show State.queue _ = _ from hqueue]
      simp only [State.setWorker, WorkerPc.awake] at *
      omega
  | consume w hpc hsignal =>
      have hworker := total_setWorker WorkerPc.awake hpc .woken
      have hbefore := hs hstop hidle
      rw [show State.queue _ = _ from hqueue]
      simp only [State.setWorker, WorkerPc.awake] at *
      omega
  | wake w hpc =>
      have hworker := total_setWorker WorkerPc.awake hpc .loop
      have hbefore := hs hstop hidle
      rw [show State.queue _ = _ from hqueue]
      simp only [State.setWorker, WorkerPc.awake] at *
      omega
  | finish w hcalls hsending =>
      obtain ⟨⟨p, hpc⟩, -⟩ := hcalls
      have hworker := total_setWorker WorkerPc.awake hpc .loop
      have hbefore := hs hstop hidle
      rw [show State.queue _ = _ from hqueue]
      simp only [State.setWorker, WorkerPc.awake] at *
      omega
  | resume i p hcalls hsending =>
      obtain ⟨hwaiting, hidle'⟩ := Scheduler.resume_waiting s.sched p hidle
      obtain ⟨-, -, hsignals, -, hsame⟩ := Scheduler.resume_account s.sched p
      have hsent := total_setSending hsending true
      have hbefore := hs (hsame.symm.trans hstop) hidle'
      rw [show State.queue _ = _ from hqueue, List.length_append, hwaiting]
      simp only [hsignals, Bool.toNat_true, Bool.toNat_false, List.length_singleton] at *
      omega
  | send i hsending =>
      have hsent := total_setSending hsending false
      have hbefore := hs hstop hidle
      rw [show State.queue _ = _ from hqueue]
      simp only [Scheduler.send, Bool.toNat_true, Bool.toNat_false] at *
      omega
  | stopSend w sent hpc =>
      have hbefore := hs hstop hidle
      rw [show State.queue _ = _ from hqueue]
      simp only [Scheduler.send] at *
      omega
  | stopStore w code hpc => exact absurd hstop (by simp)
  | stopFire | stopAgain | stopReturn => exact hs hstop hidle

theorem supplied_of_reachable {s : State P W (W ⊕ C)} (hs : system.Reachable s) : Supplied s := by
  refine hs.invariant ?_ ?_
  · rintro s rfl
    exact fun _ hidle => absurd hidle (lt_irrefl 0)
  · intro s label s' _ hs hstep
    exact hstep.supplied hs

/-! ### Until a process is taken -/

omit [Fintype C]

/-- Moves that a worker has yet to take before it takes a process. -/
def WorkerPc.approach : WorkerPc P → Nat
  | .left => 0
  | .locked => 1
  | .check => 2
  | .loop => 3
  | .woken | .running _ => 4
  | .parked => 5
  | .idling => 6

def approach (stands : (W → WorkerPc P) × List P) : Nat :=
  total WorkerPc.approach stands.1 + refills stands.2

omit [DecidableEq C] in
/-- Worker `v` moves, and leaves the run queue alone. -/
theorem approach_setWorker {s : State P W (W ⊕ C)} {v : W} {old new : WorkerPc P}
    (hpc : s.worker v = old) (hlt : new.approach < old.approach) :
    approach (s.setWorker v new).stands < approach s.stands := by
  have hmove := total_setWorker WorkerPc.approach hpc new
  simp only [approach, State.stands, State.setWorker]
  omega

/-- **Workers move towards the queue.** With processes queued and no stop, a step takes a process, or
moves no worker and leaves the run queue alone, or there is less to go. -/
theorem Step.approach {s s' : State P W (W ⊕ C)} {label : Label P W C} (hstep : Step s label s')
    (hstop : s.sched.stop = false) (hqueue : s.queue ≠ []) :
    s'.handed ≠ s.handed ∨ s'.stands = s.stands ∨ approach s'.stands < approach s.stands := by
  refine or_iff_not_imp_left.mpr fun hhanded => ?_
  rw [not_not] at hhanded
  cases hstep with
  | enter w hpc | lock w hpc | consume w hpc | wake w hpc | park w hpc =>
      exact Or.inr (approach_setWorker hpc (by simp [WorkerPc.approach]))
  | leave w hpc hstopped => exact absurd (hstop.symm.trans hstopped) Bool.false_ne_true
  | pop w p rest hpc hrunq => exact absurd hhanded (by simp)
  | refill w hpc hrunq =>
      have hmove := total_setWorker WorkerPc.approach hpc
        (if s.sched.refill.1 then .idling else .locked)
      have hnone : refills s.sched.runq = 1 := by rw [hrunq, refills]
      refine Or.inr ?_
      simp only [Sched.approach, State.stands, State.setWorker, hnone]
      cases hempty : s.sched.refill.1 with
      | false =>
          have hfilled : refills s.sched.refill.2.runq = 0 := by
            obtain ⟨p, rest, hcons⟩ :=
              List.exists_cons_of_ne_nil ((Scheduler.refill_runq s.sched).2.2 hempty)
            rw [hcons, refills]
          simp only [hempty, hfilled, WorkerPc.approach, Bool.false_eq_true, ↓reduceIte] at *
          omega
      | true =>
          refine absurd ?_ hqueue
          rw [State.queue, ← Scheduler.refill_queue s.sched hrunq]
          exact Scheduler.refill_empty hempty
  | finish w hcalls hsending =>
      obtain ⟨⟨p, hpc⟩, -⟩ := hcalls
      exact Or.inr (approach_setWorker hpc (by simp [WorkerPc.approach]))
  | resume i p hcalls hsending =>
      refine Or.inl ?_
      rw [State.stands, (Scheduler.resume_queue s.sched p).1]
      rfl
  | send | stopFire | stopAgain | stopStore | stopSend | stopReturn => exact Or.inl rfl

/-! ### Runs -/

/-- A thread that has a signal to send sends it. -/
def FairSenders (run : Nat → State P W (W ⊕ C)) : Prop :=
  ∀ i, WeaklyFair run (fun s => s.sending i = true) fun _ s' => s'.sending i = false

/-- Only a worker that moves takes a signal, and a thread that had a signal to send has sent it. -/
theorem Step.signals {s s' : State P W (W ⊕ C)} {label : Label P W C} (hstep : Step s label s')
    (hsame : s'.stands = s.stands) : s.sched.signals ≤ s'.sched.signals
      ∧ ∀ i, s.sending i = true → s'.sending i = true ∨ 0 < s'.sched.signals := by
  cases hstep with
  | consume w hpc hsignal =>
      have hself : Function.update s.worker w .woken w = s.worker w :=
        congrFun (congrArg Prod.fst hsame) w
      rw [Function.update_self, hpc] at hself
      cases hself
  | refill w => exact ⟨(Scheduler.refill_account s.sched).2.1.ge, fun _ => Or.inl⟩
  | resume j p hcalls hsending =>
      refine ⟨(Scheduler.resume_account s.sched p).2.2.1.ge, fun i hi => Or.inl ?_⟩
      have hne : i ≠ j := by
        rintro rfl
        rw [hsending] at hi
        cases hi
      exact (Function.update_of_ne hne _ _).trans hi
  | send j hsending => exact ⟨Nat.le_succ _, fun _ _ => Or.inr (Nat.succ_pos _)⟩
  | stopSend w sent hpc hsent => exact ⟨Nat.le_succ _, fun _ _ => Or.inr (Nat.succ_pos _)⟩
  | _ => exact ⟨le_rfl, fun _ => Or.inl⟩

section

variable {run : Nat → State P W (W ⊕ C)}

omit [DecidableEq W] [DecidableEq C] [Fintype W] in
theorem queue_ne_nil_iff {s : State P W (W ⊕ C)}
    (hhanded : s.pushed = s.handed.map Prod.fst ++ s.queue) :
    s.queue ≠ [] ↔ s.handed.length < s.pushed.length := by
  rw [hhanded, List.length_append, List.length_map, ← List.length_pos_iff]
  omega

/-- What has been queued and handed out stays on record. -/
theorem records_of_le (hrun : system.Run run) {n k : Nat} (hle : n ≤ k) :
    (run n).pushed <+: (run k).pushed ∧ (run n).handed <+: (run k).handed := by
  refine (hrun.leads hle).keeps
    (P := fun s => (run n).pushed <+: s.pushed ∧ (run n).handed <+: s.handed) ?_
    ⟨List.prefix_rfl, List.prefix_rfl⟩
  intro s label s' ⟨hpushed, hhanded⟩ hstep
  cases hstep with
  | pop => exact ⟨hpushed, hhanded.trans (List.prefix_append _ _)⟩
  | resume => exact ⟨hpushed.trans (List.prefix_append _ _), hhanded⟩
  | _ => exact ⟨hpushed, hhanded⟩

theorem not_stopped (hrun : system.Run run)
    (hfired : ∀ k, (run k).stopPc = .idle) (k : Nat) : (run k).sched.stop = false := by
  by_contra hstop
  have hstored := (stopping_of_reachable (hrun.reachable k)).stored.mp (Bool.not_eq_false _ ▸ hstop)
  rw [hfired k] at hstored
  exact hstored

/-- Every worker is in a process, and stays there. -/
def Occupied (run : Nat → State P W (W ⊕ C)) (n : Nat) : Prop :=
  ∀ w, ∃ p, ∀ k ≥ n, (run k).worker w = .running p

variable [Fintype C] [Nonempty W]

/-- Parked workers do not stay without a signal while there are processes to take. -/
theorem not_parked (hrun : system.Run run) (hsenders : FairSenders run)
    (hfired : ∀ k, (run k).stopPc = .idle) {m : Nat}
    (hsettled : ∀ k ≥ m, (run k).stands = (run m).stands) (hqueue : (run m).queue ≠ [])
    (hasleep : total WorkerPc.awake (run m).worker = 0)
    (hsignals : ∀ n ≥ m, ∃ k ≥ n, (run k).sched.signals = 0) (w : W) :
    (run m).worker w ≠ .parked := by
  have hstep : ∀ k ≥ m, (run k).sched.signals ≤ (run (k + 1)).sched.signals
      ∧ ∀ i, (run k).sending i = true →
        (run (k + 1)).sending i = true ∨ 0 < (run (k + 1)).sched.signals := by
    intro k hk
    obtain hpause | ⟨label, hstep⟩ := hrun.next k
    · rw [hpause]
      exact ⟨le_rfl, fun _ => Or.inl⟩
    · exact hstep.signals ((hsettled (k + 1) (Nat.le_succ_of_le hk)).trans (hsettled k hk).symm)
  have hnone : ∀ k ≥ m, (run k).sched.signals = 0 := by
    intro k hk
    obtain ⟨k', hk', hzero⟩ := hsignals k hk
    refine Nat.le_zero.mp (hzero ▸ ?_)
    clear hzero
    induction k', hk' using Nat.le_induction with
    | base => exact le_rfl
    | succ k' hk' ih => exact ih.trans (hstep k' (hk.trans hk')).1
  have hsent : ∀ i, (run m).sending i = false := by
    intro i
    by_contra hsending
    have hforever : ∀ k ≥ m, (run k).sending i = true := by
      intro k hk
      induction k, hk using Nat.le_induction with
      | base => exact Bool.not_eq_false _ ▸ hsending
      | succ k hk ih =>
          refine ((hstep k hk).2 i ih).resolve_right ?_
          rw [hnone (k + 1) (Nat.le_succ_of_le hk)]
          exact lt_irrefl 0
    obtain ⟨k, hk, hdone⟩ := hsenders i m hforever
    rw [hforever (k + 1) (Nat.le_succ_of_le hk)] at hdone
    cases hdone
  have haccount := accounted_of_reachable (hrun.reachable m)
  have habout : (run m).aboutToSend = 0 := total_eq_zero.mpr fun i => by rw [hsent i]; rfl
  have hidle := haccount.idle
  rw [habout, hnone m le_rfl, hfired m, StopPc.sent] at hidle
  have hsupplied := supplied_of_reachable (hrun.reachable m) (not_stopped hrun hfired m)
  rw [habout, hnone m le_rfl, hasleep] at hsupplied
  have hlength := List.length_pos_iff.mpr hqueue
  intro hparked
  have hcounted : 1 ≤ total WorkerPc.idles (run m).worker :=
    le_of_eq_of_le (by rw [hparked]; rfl) (le_total WorkerPc.idles (run m).worker w)
  have hempty := hsupplied (by omega)
  omega

theorem taken_of_queued (hrun : system.Run run) (hworkers : FairWorkers run)
    (hsenders : FairSenders run) (hfired : ∀ k, (run k).stopPc = .idle)
    (hfree : ∀ n, ¬Occupied run n) {n : Nat} (hqueue : (run n).queue ≠ []) :
    ∃ k ≥ n, (run n).handed.length < (run k).handed.length := by
  by_contra hnone
  have hhanded : ∀ k ≥ n, (run k).handed = (run n).handed := fun k hk =>
    ((records_of_le hrun hk).2.eq_of_length_le
      (Nat.le_of_not_lt fun hlt => hnone ⟨k, hk, hlt⟩)).symm
  have hstill : ∀ k ≥ n, (run k).queue ≠ [] := by
    intro k hk
    have hpushed := (records_of_le hrun hk).1.length_le
    have hn := (queue_ne_nil_iff (accounted_of_reachable (hrun.reachable n)).handed).mp hqueue
    refine (queue_ne_nil_iff (accounted_of_reachable (hrun.reachable k)).handed).mpr ?_
    rw [hhanded k hk]
    omega
  obtain ⟨m, hm, hsettled⟩ := settles (fun k => (run k).stands) approach
    (n := n) fun k hk => by
      obtain hpause | ⟨label, hstep⟩ := hrun.next k
      · exact Or.inl (congrArg _ hpause)
      · refine (hstep.approach (not_stopped hrun hfired k) (hstill k hk)).resolve_left fun hne => hne ?_
        rw [hhanded k hk, hhanded (k + 1) (Nat.le_succ_of_le hk)]
  have hstands := hworkers.settled hrun hsettled
  have hleft : ∀ w, (run m).worker w ≠ .left := fun w hw => by
    have := (stopping_of_reachable (hrun.reachable m)).left w hw
    rw [not_stopped hrun hfired m] at this
    cases this
  have hasleep : total WorkerPc.awake (run m).worker = 0 := total_eq_zero.mpr fun w => by
    obtain hw | ⟨p, hp⟩ | ⟨hparked, -⟩ := hstands w
    · exact absurd hw (hleft w)
    · rw [hp]
      rfl
    · rw [hparked]
      rfl
  refine hfree m fun w => ?_
  obtain hw | ⟨p, hp⟩ | ⟨hparked, hsignals⟩ := hstands w
  · exact absurd hw (hleft w)
  · exact ⟨p, fun k hk => (congrFun (congrArg Prod.fst (hsettled k hk)) w).trans hp⟩
  · exact absurd hparked
      (not_parked hrun hsenders hfired hsettled (hstill m hm) hasleep hsignals w)

theorem taken_of_pushed (hrun : system.Run run) (hworkers : FairWorkers run)
    (hsenders : FairSenders run) (hfired : ∀ k, (run k).stopPc = .idle)
    (hfree : ∀ n, ¬Occupied run n) (n : Nat) :
    ∃ m ≥ n, (run n).pushed <+: (run m).handed.map Prod.fst := by
  have hreaches : ∀ length ≤ (run n).pushed.length, ∃ m ≥ n, length ≤ (run m).handed.length := by
    intro length hlength
    induction length with
    | zero => exact ⟨n, le_rfl, Nat.zero_le _⟩
    | succ length ih =>
        obtain ⟨m, hm, hhanded⟩ := ih (Nat.le_of_succ_le hlength)
        by_cases hmore : length + 1 ≤ (run m).handed.length
        · exact ⟨m, hm, hmore⟩
        · have hpushed := (records_of_le hrun hm).1.length_le
          obtain ⟨k, hk, hlt⟩ := taken_of_queued hrun hworkers hsenders hfired hfree (n := m)
            ((queue_ne_nil_iff (accounted_of_reachable (hrun.reachable m)).handed).mpr (by omega))
          exact ⟨k, hm.trans hk, by omega⟩
  obtain ⟨m, hm, hlength⟩ := hreaches _ le_rfl
  refine ⟨m, hm, ?_⟩
  refine List.prefix_of_prefix_length_le (records_of_le hrun hm).1 ?_
    (by rwa [List.length_map])
  rw [(accounted_of_reachable (hrun.reachable m)).handed]
  exact List.prefix_append _ _

/-- **Every process that was resumed is run.** In a fair run in which `stop` is not called, each process
that is passed to `resume` is handed to a worker in its turn, unless from some time on every worker is
for ever in a process that does not return. -/
theorem every_resumed_process_is_taken (hrun : system.Run run) (hworkers : FairWorkers run)
    (hsenders : FairSenders run) (hfired : ∀ k, (run k).stopPc = .idle) :
    (∃ n, Occupied run n) ∨ ∀ n, ∃ m ≥ n, (run n).pushed <+: (run m).handed.map Prod.fst :=
  or_iff_not_imp_left.mpr fun hfree =>
    taken_of_pushed hrun hworkers hsenders hfired (not_exists.mp hfree)

end

/-- A run that ends with all workers parked, and no signal for them, is fair. -/
theorem fair_of_parked {run : Nat → State P W (W ⊕ C)} {s : State P W (W ⊕ C)} {n : Nat}
    (hlast : ∀ k ≥ n, run k = s) (hparked : ∀ w, s.worker w = .parked)
    (hsignals : s.sched.signals = 0) (hsending : ∀ i, s.sending i = false) :
    FairWorkers run ∧ FairSenders run := by
  refine ⟨fun w m henabled => ?_, fun i m henabled => ?_⟩
  · have hready := henabled (max n m) (le_max_right n m)
    rw [hlast _ (le_max_left n m)] at hready
    obtain ⟨-, label, s', hstep, hmoved⟩ := hready
    have hsame : s'.worker = s.worker := by
      cases hstep with
      | consume v hpc hsignal => exact absurd hsignals hsignal.ne'
      | finish v hcalls =>
          obtain ⟨⟨p, hpc⟩, -⟩ := hcalls
          rw [hparked v] at hpc
          cases hpc
      | enter v hpc | leave v hpc | lock v hpc | pop v p rest hpc | refill v hpc | park v hpc
      | wake v hpc =>
          rw [hparked v] at hpc
          cases hpc
      | _ => rfl
    obtain hmoved | ⟨hlocked, -⟩ := hmoved
    · exact absurd (congrFun hsame w) hmoved
    · rw [hparked w] at hlocked
      cases hlocked
  · have hsends := henabled (max n m) (le_max_right n m)
    rw [hlast _ (le_max_left n m), hsending i] at hsends
    cases hsends

/-- A process is resumed before the only worker has started, and run. -/
theorem every_resumed_process_is_taken_one :
    ∃ run : Nat → State Nat (Fin 1) (Fin 1 ⊕ Unit), system.Run run ∧ FairWorkers run
      ∧ FairSenders run ∧ ∃ m, 7 ∈ (run m).handed.map Prod.fst := by
  have h0 : system.Leads State.fresh (State.fresh : State Nat (Fin 1) (Fin 1 ⊕ Unit)) := .refl
  have h1 := h0.tail ⟨_, Step.resume (.inr ()) 7 trivial rfl⟩
  have h2 := h1.tail ⟨_, Step.enter 0 rfl rfl⟩
  have h3 := h2.tail ⟨_, Step.lock 0 rfl rfl⟩
  have h4 := h3.tail ⟨_, Step.refill 0 rfl rfl⟩
  have h5 := h4.tail ⟨_, Step.pop 0 7 [] rfl rfl⟩
  have h6 := h5.tail ⟨_, Step.finish 0 ⟨⟨7, rfl⟩, nofun⟩ rfl⟩
  have h7 := h6.tail ⟨_, Step.enter 0 rfl rfl⟩
  have h8 := h7.tail ⟨_, Step.lock 0 rfl rfl⟩
  have h9 := h8.tail ⟨_, Step.refill 0 rfl rfl⟩
  have h10 := h9.tail ⟨_, Step.park 0 rfl⟩
  obtain ⟨run, hrun, -, n, hlast⟩ := System.Leads.exists_run h10 .refl rfl
  have hall : ∀ {pc : WorkerPc Nat} {family : Fin 1 → WorkerPc Nat}, family 0 = pc →
      ∀ w, family w = pc := fun h w => Subsingleton.elim 0 w ▸ h
  obtain ⟨hworkers, hsenders⟩ := fair_of_parked hlast (hall rfl) rfl fun i => by
    obtain w | c := i
    · rw [Subsingleton.elim w 0]
      rfl
    · rfl
  refine ⟨run, hrun, hworkers, hsenders, ?_⟩
  obtain ⟨n', hoccupied⟩ | htaken := every_resumed_process_is_taken hrun hworkers hsenders fun k => by
    by_contra hbegun
    refine begun_of_le hrun (le_max_right n k) hbegun ?_
    rw [hlast _ (le_max_left n k)]
    rfl
  · obtain ⟨p, hp⟩ := hoccupied 0
    have hlater := hp (max n n') (le_max_right n n')
    rw [hlast _ (le_max_left n n')] at hlater
    exact nomatch hlater
  · obtain ⟨m, hm, hprefix⟩ := htaken n
    rw [hlast n le_rfl] at hprefix
    exact ⟨m, hprefix.subset (List.mem_singleton_self 7)⟩

end Stp.Sched
