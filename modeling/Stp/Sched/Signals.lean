import Stp.Sched.Scheduler

/-!
# No worker is stranded

Every worker that has counted itself idle is paid for: by the idle count, by a signal sent to it or
about to be sent, or by a signal of `stop`. `Scheduler::resume` turns a unit of the idle count into
a signal on its way, and a parked worker consumes what was sent, so the two sides of the account
move together (`Accounted.idle`). With work queued the idle count is below the number of workers:
the last step that counted a worker idle saw both queues empty, and each call of `resume` since has
taken one off the count unless it was zero.
-/

namespace Stp.Sched

open Tally

variable {P W C : Type*} [DecidableEq W] [DecidableEq C] [Fintype W] [Fintype C]

/-! ### The account -/

/-- Parked, or counted as idle and about to park. -/
def WorkerPc.idles : WorkerPc P → Nat
  | .idling | .parked => 1
  | _ => 0

def WorkerPc.parks : WorkerPc P → Nat
  | .parked => 1
  | _ => 0

/-- May still park without testing `_stop` again. -/
def WorkerPc.mayPark : WorkerPc P → Nat
  | .check | .locked | .idling | .parked => 1
  | _ => 0

/-- The signals that `stop` has sent. -/
def StopPc.sent : StopPc W → Nat
  | .idle | .fired _ _ => 0
  | .sending _ sent => sent
  | .returned => Fintype.card W

/-- Signals that calls of `Scheduler::resume` are about to send. -/
def State.aboutToSend (s : State P W (W ⊕ C)) : Nat := total Bool.toNat s.sending

structure Accounted (s : State P W (W ⊕ C)) : Prop where
  idle : s.sched.idleWorkers + s.aboutToSend + s.sched.signals
    = total WorkerPc.idles s.worker + s.stopPc.sent
  fired : s.sched.stopFired = false → s.stopPc = .idle
  stopped : s.sched.stop = false → s.stopPc = .idle ∨ ∃ w code, s.stopPc = .fired w code
  queued : s.sched.stopFired = false → s.queue ≠ [] → s.sched.idleWorkers < Fintype.card W
  stopping : s.sched.stop = true →
    total WorkerPc.mayPark s.worker + s.stopPc.sent ≤ s.sched.signals + Fintype.card W
  handed : s.pushed = s.handed.map Prod.fst ++ s.queue

/-! ### What the locked sections and the moves of a worker do to it -/

omit [DecidableEq W] [Fintype W] in
theorem Scheduler.resume_account (s : Scheduler P W) (p : P) :
    (s.resume p).2.idleWorkers + (s.resume p).1.toNat = s.idleWorkers
      ∧ (s.resume p).2.idleWorkers = s.idleWorkers - 1
      ∧ (s.resume p).2.signals = s.signals ∧ (s.resume p).2.stopFired = s.stopFired
      ∧ (s.resume p).2.stop = s.stop := by
  unfold Scheduler.resume
  split
  · next hidle => exact ⟨Nat.sub_add_cancel (Nat.pos_of_ne_zero hidle), rfl, rfl, rfl, rfl⟩
  · next hidle => exact ⟨rfl, by rw [Decidable.not_not.mp hidle], rfl, rfl, rfl⟩

omit [DecidableEq W] [Fintype W] in
theorem Scheduler.refill_account (s : Scheduler P W) :
    s.refill.2.idleWorkers = s.idleWorkers + s.refill.1.toNat
      ∧ s.refill.2.signals = s.signals ∧ s.refill.2.stopFired = s.stopFired
      ∧ s.refill.2.stop = s.stop := by
  unfold Scheduler.refill
  split <;> exact ⟨rfl, rfl, rfl, rfl⟩

omit [DecidableEq C] [Fintype C] in
theorem total_setWorker (weight : WorkerPc P → Nat) {s : State P W (W ⊕ C)} {w : W}
    {old : WorkerPc P} (hpc : s.worker w = old) (new : WorkerPc P) :
    total weight (Function.update s.worker w new) + weight old
      = total weight s.worker + weight new :=
  hpc ▸ total_update weight s.worker w new

theorem total_setSending {s : State P W (W ⊕ C)} {i : W ⊕ C} {old : Bool}
    (hsending : s.sending i = old) (new : Bool) :
    total Bool.toNat (Function.update s.sending i new) + old.toNat
      = total Bool.toNat s.sending + new.toNat :=
  hsending ▸ total_update Bool.toNat s.sending i new

/-! ### Every step keeps the account -/

theorem Step.idle {s s' : State P W (W ⊕ C)} {label : Label P W C} (hstep : Step s label s')
    (hs : Accounted s) :
    s'.sched.idleWorkers + s'.aboutToSend + s'.sched.signals
      = total WorkerPc.idles s'.worker + s'.stopPc.sent := by
  have haccount := hs.idle
  unfold State.aboutToSend at *
  cases hstep with
  | enter w hpc hstop =>
      have hworker := total_setWorker WorkerPc.idles hpc .check
      simp only [State.setWorker, WorkerPc.idles] at *
      omega
  | leave w hpc hstop =>
      have hworker := total_setWorker WorkerPc.idles hpc .left
      simp only [State.setWorker, WorkerPc.idles] at *
      omega
  | lock w hpc hlock =>
      have hworker := total_setWorker WorkerPc.idles hpc .locked
      simp only [State.setWorker, WorkerPc.idles] at *
      omega
  | pop w p rest hpc hrunq =>
      have hworker := total_setWorker WorkerPc.idles hpc (.running p)
      simp only [State.setWorker, WorkerPc.idles] at *
      omega
  | refill w hpc hrunq =>
      obtain ⟨hidle, hsignals, -, -⟩ := Scheduler.refill_account s.sched
      have hworker := total_setWorker WorkerPc.idles hpc
        (if s.sched.refill.1 then .idling else .locked)
      simp only [State.setWorker] at *
      cases hempty : s.sched.refill.1 with
      | false =>
          simp only [hempty, WorkerPc.idles, Bool.toNat_false, Bool.false_eq_true, ↓reduceIte] at *
          omega
      | true =>
          simp only [hempty, WorkerPc.idles, Bool.toNat_true, ↓reduceIte] at *
          omega
  | park w hpc =>
      have hworker := total_setWorker WorkerPc.idles hpc .parked
      simp only [State.setWorker, WorkerPc.idles] at *
      omega
  | consume w hpc hsignal =>
      have hworker := total_setWorker WorkerPc.idles hpc .woken
      simp only [State.setWorker, WorkerPc.idles] at *
      omega
  | wake w hpc hlock =>
      have hworker := total_setWorker WorkerPc.idles hpc .loop
      simp only [State.setWorker, WorkerPc.idles] at *
      omega
  | finish w hcalls hsending =>
      obtain ⟨⟨p, hpc⟩, -⟩ := hcalls
      have hworker := total_setWorker WorkerPc.idles hpc .loop
      simp only [State.setWorker, WorkerPc.idles] at *
      omega
  | resume i p hcalls hsending =>
      obtain ⟨hidle, -, hsignals, -, -⟩ := Scheduler.resume_account s.sched p
      have hsend := total_setSending hsending (s.sched.resume p).1
      simp only [Bool.toNat_false] at *
      omega
  | send i hsending =>
      have hsend := total_setSending hsending false
      simp only [Scheduler.send, Bool.toNat_false, Bool.toNat_true] at *
      omega
  | stopFire w code hcalls hsending hfired =>
      rw [hs.fired hfired] at haccount
      exact haccount
  | stopAgain i hcalls hfired => exact haccount
  | stopStore w code hpc =>
      rw [hpc] at haccount
      exact haccount
  | stopSend w sent hpc hsent =>
      rw [hpc] at haccount
      simp only [Scheduler.send, StopPc.sent] at *
      omega
  | stopReturn w hpc =>
      rw [hpc] at haccount
      exact haccount

/-- Once `_stop` is set, a worker that may still park has a signal of `stop` to come. -/
theorem Step.stopping {s s' : State P W (W ⊕ C)} {label : Label P W C} (hstep : Step s label s')
    (hs : Accounted s) (hstop : s'.sched.stop = true) :
    total WorkerPc.mayPark s'.worker + s'.stopPc.sent ≤ s'.sched.signals + Fintype.card W := by
  have haccount := hs.stopping
  cases hstep with
  | enter w hpc hrunning => exact absurd hstop (Bool.eq_false_iff.mp hrunning)
  | leave w hpc hstopped =>
      have hworker := total_setWorker WorkerPc.mayPark hpc .left
      simp only [State.setWorker, WorkerPc.mayPark] at *
      have := haccount hstop
      omega
  | lock w hpc hlock =>
      have hworker := total_setWorker WorkerPc.mayPark hpc .locked
      simp only [State.setWorker, WorkerPc.mayPark] at *
      have := haccount hstop
      omega
  | pop w p rest hpc hrunq =>
      have hworker := total_setWorker WorkerPc.mayPark hpc (.running p)
      simp only [State.setWorker, WorkerPc.mayPark] at *
      have := haccount hstop
      omega
  | refill w hpc hrunq =>
      obtain ⟨-, hsignals, -, hstop'⟩ := Scheduler.refill_account s.sched
      have hworker := total_setWorker WorkerPc.mayPark hpc
        (if s.sched.refill.1 then .idling else .locked)
      have hsame : WorkerPc.mayPark (if s.sched.refill.1 then .idling else .locked : WorkerPc P)
          = WorkerPc.mayPark (.locked : WorkerPc P) := by
        cases s.sched.refill.1 <;> rfl
      rw [hsame] at hworker
      simp only [State.setWorker] at *
      have := haccount (hstop' ▸ hstop)
      omega
  | park w hpc =>
      have hworker := total_setWorker WorkerPc.mayPark hpc .parked
      simp only [State.setWorker, WorkerPc.mayPark] at *
      have := haccount hstop
      omega
  | consume w hpc hsignal =>
      have hworker := total_setWorker WorkerPc.mayPark hpc .woken
      simp only [State.setWorker, WorkerPc.mayPark] at *
      have := haccount hstop
      omega
  | wake w hpc hlock =>
      have hworker := total_setWorker WorkerPc.mayPark hpc .loop
      simp only [State.setWorker, WorkerPc.mayPark] at *
      have := haccount hstop
      omega
  | finish w hcalls hsending =>
      obtain ⟨⟨p, hpc⟩, -⟩ := hcalls
      have hworker := total_setWorker WorkerPc.mayPark hpc .loop
      simp only [State.setWorker, WorkerPc.mayPark] at *
      have := haccount hstop
      omega
  | resume i p hcalls hsending =>
      obtain ⟨-, -, hsignals, -, hstop'⟩ := Scheduler.resume_account s.sched p
      exact hsignals ▸ haccount (hstop' ▸ hstop)
  | send i hsending =>
      have := haccount hstop
      simp only [Scheduler.send] at *
      omega
  | stopFire w code hcalls hsending hfired =>
      have := haccount hstop
      rw [hs.fired hfired] at this
      exact this
  | stopAgain i hcalls hfired => exact haccount hstop
  | stopStore w code hpc =>
      -- no signal of `stop` has been sent yet, and there are only so many workers
      have hcard : total WorkerPc.mayPark s.worker ≤ Fintype.card W :=
        total_le_card (fun pc => by cases pc <;> simp [WorkerPc.mayPark]) s.worker
      exact hcard.trans (Nat.le_add_left _ _)
  | stopSend w sent hpc hsent =>
      have := haccount hstop
      rw [hpc] at this
      simp only [Scheduler.send, StopPc.sent] at *
      omega
  | stopReturn w hpc =>
      have := haccount hstop
      rw [hpc] at this
      exact this

/-- With work queued, not every worker is counted as idle. -/
theorem Step.queued [Nonempty W] {s s' : State P W (W ⊕ C)} {label : Label P W C}
    (hstep : Step s label s') (hs : Accounted s) (hfired : s'.sched.stopFired = false)
    (hqueue : s'.queue ≠ []) : s'.sched.idleWorkers < Fintype.card W := by
  have hbefore := hs.queued
  have hqueues := hstep.queues
  cases hstep with
  | pop w p rest hpc hrunq =>
      refine hbefore hfired ?_
      rw [hqueues]
      exact List.cons_ne_nil _ _
  | refill w hpc hrunq =>
      obtain ⟨hidle, -, hfired', -⟩ := Scheduler.refill_account s.sched
      cases hempty : s.sched.refill.1 with
      | false =>
          rw [Label.Queues] at hqueues
          have := hbefore (hfired' ▸ hfired) (hqueues ▸ hqueue)
          rw [hempty, Bool.toNat_false] at hidle
          exact hidle.trans_lt this
      | true => exact absurd (Scheduler.refill_empty hempty) hqueue
  | resume i p hcalls hsending =>
      -- the call takes one off the idle count, which is at most the number of workers
      obtain ⟨-, hidle, -, hfired', -⟩ := Scheduler.resume_account s.sched p
      have haccount := hs.idle
      rw [hs.fired (hfired' ▸ hfired)] at haccount
      have hcard : total WorkerPc.idles s.worker ≤ Fintype.card W :=
        total_le_card (fun pc => by cases pc <;> simp [WorkerPc.idles]) s.worker
      have hworkers : 0 < Fintype.card W := Fintype.card_pos
      simp only [StopPc.sent] at haccount
      calc (s.sched.resume p).2.idleWorkers = s.sched.idleWorkers - 1 := hidle
        _ < Fintype.card W := by omega
  | stopFire w code hcalls hsending hfired' => exact absurd hfired (by simp)
  | _ => exact hbefore hfired hqueue

theorem Step.fired {s s' : State P W (W ⊕ C)} {label : Label P W C} (hstep : Step s label s')
    (hs : Accounted s) (hfired : s'.sched.stopFired = false) : s'.stopPc = .idle := by
  have hbefore := hs.fired
  cases hstep with
  | refill w hpc hrunq => exact hbefore ((Scheduler.refill_account s.sched).2.2.1 ▸ hfired)
  | resume i p hcalls hsending =>
      exact hbefore ((Scheduler.resume_account s.sched p).2.2.2.1 ▸ hfired)
  | stopFire w code hcalls hsending hclear => exact absurd hfired (by simp)
  | stopStore w code hpc => exact absurd (hbefore hfired) (by simp [hpc])
  | stopSend w sent hpc hsent => exact absurd (hbefore hfired) (by simp [hpc])
  | stopReturn w hpc => exact absurd (hbefore hfired) (by simp [hpc])
  | _ => exact hbefore hfired

theorem Step.stopped {s s' : State P W (W ⊕ C)} {label : Label P W C} (hstep : Step s label s')
    (hs : Accounted s) (hstop : s'.sched.stop = false) :
    s'.stopPc = .idle ∨ ∃ w code, s'.stopPc = .fired w code := by
  have hbefore := hs.stopped
  cases hstep with
  | refill w hpc hrunq => exact hbefore ((Scheduler.refill_account s.sched).2.2.2 ▸ hstop)
  | resume i p hcalls hsending =>
      exact hbefore ((Scheduler.resume_account s.sched p).2.2.2.2 ▸ hstop)
  | stopFire w code hcalls hsending hclear => exact Or.inr ⟨w, code, rfl⟩
  | stopStore w code hpc => exact absurd hstop (by simp)
  | stopSend w sent hpc hsent => exact absurd (hbefore hstop) (by simp [hpc])
  | stopReturn w hpc => exact absurd (hbefore hstop) (by simp [hpc])
  | _ => exact hbefore hstop

theorem Step.handed {s s' : State P W (W ⊕ C)} {label : Label P W C} (hstep : Step s label s')
    (hs : Accounted s) : s'.pushed = s'.handed.map Prod.fst ++ s'.queue := by
  have hbefore := hs.handed
  have hqueues := hstep.queues
  cases hstep with
  | pop w p rest hpc hrunq =>
      have hqueue : s.queue = p :: (rest ++ s.sched.resumeq) := hqueues
      calc s.pushed = s.handed.map Prod.fst ++ p :: (rest ++ s.sched.resumeq) := hqueue ▸ hbefore
        _ = (s.handed ++ [(p, w)]).map Prod.fst ++ (rest ++ s.sched.resumeq) := by simp
  | resume i p hcalls hsending =>
      calc s.pushed ++ [p] = s.handed.map Prod.fst ++ (s.queue ++ [p]) := by
            rw [hbefore, List.append_assoc]
        _ = _ := congrArg _ hqueues.symm
  | _ => exact hqueues ▸ hbefore

omit [DecidableEq W] [DecidableEq C] in
theorem accounted_fresh : Accounted (State.fresh : State P W (W ⊕ C)) where
  idle := by
    have hsending : total Bool.toNat (fun _ : W ⊕ C => false) = 0 := total_eq_zero.mpr fun _ => rfl
    have hworker : total WorkerPc.idles (fun _ : W => (.loop : WorkerPc P)) = 0 :=
      total_eq_zero.mpr fun _ => rfl
    simp [State.fresh, Scheduler.fresh, State.aboutToSend, StopPc.sent, hsending, hworker]
  fired _ := rfl
  stopped _ := Or.inl rfl
  queued _ hqueue := absurd rfl hqueue
  stopping hstop := absurd hstop Bool.false_ne_true
  handed := rfl

theorem accounted_of_reachable [Nonempty W] {s : State P W (W ⊕ C)} (hs : system.Reachable s) :
    Accounted s := by
  refine Transition.System.Reachable.invariant ?_ ?_ hs
  · rintro s rfl
    exact accounted_fresh
  · intro s label s' _ hs hstep
    exact ⟨hstep.idle hs, hstep.fired hs, hstep.stopped hs, hstep.queued hs, hstep.stopping hs,
      hstep.handed hs⟩

/-! ### After `stop` -/

/-- Consumed its signal, and on its way out of the loop. -/
def WorkerPc.Leaving (pc : WorkerPc P) : Prop := pc = .woken ∨ pc = .loop ∨ pc = .left

/-- One move on the way out. -/
def WorkerPc.MovesOut (pc pc' : WorkerPc P) : Prop :=
  (pc = .woken ∧ pc' = .loop) ∨ (pc = .loop ∧ pc' = .left)

omit [Fintype C] in
/-- Once `_stop` is set it stays set, and a worker on its way out has nowhere else to go. -/
theorem Step.leaving {s s' : State P W (W ⊕ C)} {label : Label P W C} (hstep : Step s label s')
    (hstop : s.sched.stop = true) {w : W} (hw : (s.worker w).Leaving) :
    s'.sched.stop = true
      ∧ (s'.worker w = s.worker w ∨ (s.worker w).MovesOut (s'.worker w)) := by
  -- a step of another worker, or of this one from a place it has left behind
  have hother : ∀ (v : W) (pc : WorkerPc P), ¬ (s.worker v).Leaving →
      Function.update s.worker v pc w = s.worker w := by
    intro v pc hv
    refine Function.update_of_ne ?_ _ _
    rintro rfl
    exact hv hw
  cases hstep with
  | enter v hpc hrunning => exact absurd hstop (by simp [hrunning])
  | leave v hpc hstopped =>
      refine ⟨hstop, ?_⟩
      by_cases hv : w = v
      · subst hv
        exact Or.inr (Or.inr ⟨hpc, Function.update_self _ _ _⟩)
      · exact Or.inl (Function.update_of_ne hv _ _)
  | wake v hpc hlock =>
      refine ⟨hstop, ?_⟩
      by_cases hv : w = v
      · subst hv
        exact Or.inr (Or.inl ⟨hpc, Function.update_self _ _ _⟩)
      · exact Or.inl (Function.update_of_ne hv _ _)
  | refill v hpc hrunq =>
      refine ⟨(Scheduler.refill_account s.sched).2.2.2.trans hstop, Or.inl (hother v _ ?_)⟩
      simp [WorkerPc.Leaving, hpc]
  | finish v hcalls hsending =>
      obtain ⟨⟨p, hpc⟩, -⟩ := hcalls
      exact ⟨hstop, Or.inl (hother v _ (by simp [WorkerPc.Leaving, hpc]))⟩
  | resume i p hcalls hsending =>
      exact ⟨(Scheduler.resume_account s.sched p).2.2.2.2.trans hstop, Or.inl rfl⟩
  | lock v hpc | pop v p rest hpc | park v hpc | consume v hpc =>
      exact ⟨hstop, Or.inl (hother v _ (by simp [WorkerPc.Leaving, hpc]))⟩
  | stopStore => exact ⟨rfl, Or.inl rfl⟩
  | send | stopFire | stopAgain | stopSend | stopReturn => exact ⟨hstop, Or.inl rfl⟩

omit [Fintype C] in
theorem leaving_of_leads {s s' : State P W (W ⊕ C)} (hleads : system.Leads s s') {w : W}
    (hstop : s.sched.stop = true) (hw : (s.worker w).Leaving) :
    s'.sched.stop = true ∧ (s'.worker w).Leaving := by
  refine Transition.System.Leads.keeps (P := fun s => s.sched.stop = true ∧ (s.worker w).Leaving)
    ?_ hleads ⟨hstop, hw⟩
  intro s label s' ⟨hstop, hw⟩ hstep
  obtain ⟨hstop', hsame | hmove⟩ := hstep.leaving hstop hw
  · exact ⟨hstop', hsame ▸ hw⟩
  · exact ⟨hstop', Or.inr (hmove.imp And.right And.right)⟩

/-! ### The main result -/

def State.parked (s : State P W (W ⊕ C)) : Nat := total WorkerPc.parks s.worker

omit [DecidableEq W] [DecidableEq C] [Fintype C] in
theorem State.parked_le_idles (s : State P W (W ⊕ C)) :
    s.parked ≤ total WorkerPc.idles s.worker :=
  total_le_total (fun pc => by cases pc <;> simp [WorkerPc.parks, WorkerPc.idles]) s.worker

omit [DecidableEq W] [DecidableEq C] [Fintype C] in
theorem State.parked_le_mayPark (s : State P W (W ⊕ C)) :
    s.parked ≤ total WorkerPc.mayPark s.worker :=
  total_le_total (fun pc => by cases pc <;> simp [WorkerPc.parks, WorkerPc.mayPark]) s.worker

/-- **Workers are never stranded.** Parked workers are covered by the idle count and the signals
pending or about to be sent, so with work queued and no stop some worker is up or about to be
woken. What was passed to `resume` is what workers were handed, in order, followed by what is still
queued. After `stop` every parked worker has a signal, and one that has consumed its signal goes to
the top of the loop, out of it, and nowhere else. -/
theorem workers_never_stranded [Nonempty W] {s : State P W (W ⊕ C)} (hs : system.Reachable s) :
    (s.parked ≤ s.sched.idleWorkers + (s.sched.signals + s.aboutToSend)
      ∧ (s.queue ≠ [] → s.sched.stopFired = false →
        (∃ w, s.worker w ≠ .parked) ∨ 0 < s.sched.signals + s.aboutToSend))
    ∧ s.pushed = s.handed.map Prod.fst ++ s.queue
    ∧ (s.stopPc = .returned → s.parked ≤ s.sched.signals
      ∧ ∀ w, s.worker w = .woken → ∀ s', system.Leads s s' →
        (s'.worker w).Leaving ∧ ∀ label s'', Step s' label s'' →
          s''.worker w = s'.worker w ∨ (s'.worker w).MovesOut (s''.worker w)) := by
  have haccount := accounted_of_reachable hs
  have hidle := haccount.idle
  refine ⟨⟨?_, ?_⟩, haccount.handed, ?_⟩
  · have hparked := s.parked_le_idles
    omega
  · intro hqueue hfired
    have hqueued := haccount.queued hfired hqueue
    by_cases hup : ∃ w, s.worker w ≠ .parked
    · exact Or.inl hup
    · refine Or.inr ?_
      have hall : total WorkerPc.idles s.worker = Fintype.card W := total_eq_card fun w => by
        have hw : s.worker w = .parked := by
          by_contra hw
          exact hup ⟨w, hw⟩
        rw [hw]
        rfl
      rw [haccount.fired hfired, hall] at hidle
      simp only [StopPc.sent] at hidle
      omega
  · intro hreturned
    have hstop : s.sched.stop = true := by
      by_contra hstop
      have := haccount.stopped (Bool.eq_false_iff.mpr hstop)
      simp [hreturned] at this
    refine ⟨?_, ?_⟩
    · have hstopping := haccount.stopping hstop
      have hparked := s.parked_le_mayPark
      rw [hreturned] at hstopping
      simp only [StopPc.sent] at hstopping
      omega
    · intro w hw s' hleads
      obtain ⟨hstop', hleaving⟩ := leaving_of_leads hleads hstop (Or.inl hw)
      exact ⟨hleaving, fun label s'' hstep => (hstep.leaving hstop' hleaving).2⟩

/-- Of two workers one is parked when another thread queues a process; the other one takes the process
and stops the scheduler, and the first one is woken. -/
theorem workers_never_stranded_stopped :
    (∃ s : State Nat (Fin 2) (Fin 2 ⊕ Unit), s.worker 0 = .parked ∧ s.queue = [7]
      ∧ s.parked ≤ s.sched.idleWorkers + (s.sched.signals + s.aboutToSend)
      ∧ ((∃ w, s.worker w ≠ .parked) ∨ 0 < s.sched.signals + s.aboutToSend)
      ∧ s.pushed = s.handed.map Prod.fst ++ s.queue)
    ∧ ∃ s : State Nat (Fin 2) (Fin 2 ⊕ Unit), s.stopPc = .returned ∧ s.worker 0 = .woken
      ∧ s.handed = [(7, 1)] ∧ s.pushed = s.handed.map Prod.fst ++ s.queue
      ∧ s.parked ≤ s.sched.signals
      ∧ ∀ s', system.Leads s s' → (s'.worker 0).Leaving ∧ ∀ label s'', Step s' label s'' →
        s''.worker 0 = s'.worker 0 ∨ (s'.worker 0).MovesOut (s''.worker 0) := by
  have hfresh : system.Reachable (State.fresh : State Nat (Fin 2) (Fin 2 ⊕ Unit)) := .of_init rfl
  have henter := hfresh.step (Step.enter 0 rfl rfl)
  have hlock := henter.step (Step.lock 0 rfl rfl)
  have hidle := hlock.step (Step.refill 0 rfl rfl)
  have hpark := hidle.step (Step.park 0 rfl)
  have hqueued := hpark.step (Step.resume (.inr ()) 7 trivial rfl)
  obtain ⟨⟨hparked, hup⟩, hhanded, -⟩ := workers_never_stranded hqueued
  refine ⟨⟨_, rfl, rfl, hparked, hup (List.cons_ne_nil _ _) rfl, hhanded⟩, ?_⟩
  have hsent := hqueued.step (Step.send (.inr ()) rfl)
  have henter₁ := hsent.step (Step.enter 1 rfl rfl)
  have hlock₁ := henter₁.step (Step.lock 1 rfl rfl)
  have hrefill := hlock₁.step (Step.refill 1 rfl rfl)
  have hpop := hrefill.step (Step.pop 1 7 [] rfl rfl)
  have hfire := hpop.step (Step.stopFire 1 0 ⟨⟨7, rfl⟩, nofun⟩ rfl rfl)
  have hstore := hfire.step (Step.stopStore 1 0 rfl)
  have hfirst := hstore.step (Step.stopSend 1 0 rfl (by decide))
  have hsecond := hfirst.step (Step.stopSend 1 1 rfl (by decide))
  have hreturn := hsecond.step (Step.stopReturn 1 rfl)
  have hconsume := hreturn.step (Step.consume 0 rfl (by decide))
  obtain ⟨-, hhanded, hstopped⟩ := workers_never_stranded hconsume
  obtain ⟨hsignals, hleaving⟩ := hstopped rfl
  exact ⟨_, rfl, rfl, rfl, hhanded, hsignals, hleaving 0 rfl⟩

end Stp.Sched
