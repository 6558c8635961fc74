import Stp.Library.Runs
import Stp.Sched.Signals

/-!
# The end of the scheduler

`stop` may be called from any process, at any time and more than once, while workers stand anywhere
in their loop. The first call counts: `serve` joins the workers and returns the code of that call, and
not before that call has returned. Once `_stop` is set, each move of a worker brings it closer to
leaving the loop (`distance`), and a worker that has not left it can move, unless it is in a process:
the run queue's lock is held by a worker that can move, and each worker that may still park is covered
by a signal.
-/

namespace Stp.Sched

open Tally Transition

variable {P W C : Type*} [DecidableEq W] [DecidableEq C] [Fintype W]

/-! ### The call of `stop` -/

/-- Steps that the first call of `stop` has yet to take. -/
def StopPc.rest : StopPc W → Nat
  | .idle => Fintype.card W + 3
  | .fired _ _ => Fintype.card W + 2
  | .sending _ sent => Fintype.card W + 1 - sent
  | .returned => 0

/-- `_stop` is set. -/
def StopPc.Stored : StopPc W → Prop
  | .idle | .fired _ _ => False
  | .sending _ _ | .returned => True

def WorkerPc.HoldsLock (pc : WorkerPc P) : Prop := pc = .locked ∨ pc = .idling

structure Stopping (s : State P W (W ⊕ C)) : Prop where
  fired : s.sched.stopFired = true ↔ s.stopPc ≠ .idle
  stored : s.sched.stop = true ↔ s.stopPc.Stored
  sent : ∀ w sent, s.stopPc = .sending w sent → sent ≤ Fintype.card W
  caller : ∀ w, s.stopPc.caller = some w → ∃ p, s.worker w = .running p
  lock : ∀ w, s.sched.runqLock = some w ↔ (s.worker w).HoldsLock
  left : ∀ w, s.worker w = .left → s.sched.stop = true

omit [DecidableEq W] [DecidableEq C] in
theorem stopping_fresh : Stopping (State.fresh : State P W (W ⊕ C)) where
  fired := by simp [State.fresh, Scheduler.fresh]
  stored := by simp [State.fresh, Scheduler.fresh, StopPc.Stored]
  sent _ _ := nofun
  caller _ := nofun
  lock w := by simp [State.fresh, Scheduler.fresh, WorkerPc.HoldsLock]
  left _ := nofun

/-- What the first call of `stop` has done so far. -/
theorem Step.stopCall {s s' : State P W (W ⊕ C)} {label : Label P W C} (hstep : Step s label s')
    (hs : Stopping s) : (s'.sched.stopFired = true ↔ s'.stopPc ≠ .idle)
      ∧ (s'.sched.stop = true ↔ s'.stopPc.Stored)
      ∧ ∀ w sent, s'.stopPc = .sending w sent → sent ≤ Fintype.card W := by
  obtain ⟨hfired, hstored, hsent, -, -, -⟩ := hs
  cases hstep with
  | refill w hpc hrunq =>
      obtain ⟨-, -, hsame, hsame'⟩ := Scheduler.refill_account s.sched
      refine ⟨?_, ?_, hsent⟩
      · rwa [show _ = s.sched.stopFired from hsame]
      · rwa [show _ = s.sched.stop from hsame']
  | resume i p hcalls hsending =>
      obtain ⟨-, -, -, hsame, hsame'⟩ := Scheduler.resume_account s.sched p
      refine ⟨?_, ?_, hsent⟩
      · rwa [show _ = s.sched.stopFired from hsame]
      · rwa [show _ = s.sched.stop from hsame']
  | stopFire w code hcalls hsending hclear =>
      have hidle : s.stopPc = .idle := by
        by_contra hne
        rw [hfired.mpr hne] at hclear
        cases hclear
      rw [hidle] at hstored
      exact ⟨iff_of_true rfl nofun, hstored, fun _ _ => nofun⟩
  | stopStore w code hpc =>
      refine ⟨iff_of_true (hfired.mpr ?_) nofun, iff_of_true rfl trivial, ?_⟩
      · rw [hpc]
        nofun
      · rintro _ _ ⟨⟩
        exact Nat.zero_le _
  | stopSend w sent hpc hlt =>
      rw [hpc] at hfired hstored
      refine ⟨iff_of_true (hfired.mpr nofun) nofun, iff_of_true (hstored.mpr trivial) trivial, ?_⟩
      rintro _ _ ⟨⟩
      exact hlt
  | stopReturn w hpc =>
      rw [hpc] at hfired hstored
      exact ⟨iff_of_true (hfired.mpr nofun) nofun, iff_of_true (hstored.mpr trivial) trivial,
        fun _ _ => nofun⟩
  | _ => exact ⟨hfired, hstored, hsent⟩

/-! ### Where workers stand -/

omit [DecidableEq W] [Fintype W] in
theorem Scheduler.resume_runq (s : Scheduler P W) (p : P) :
    (s.resume p).2.runqLock = s.runqLock ∧ (s.resume p).2.exitcode = s.exitcode := by
  unfold Scheduler.resume
  split <;> exact ⟨rfl, rfl⟩

omit [DecidableEq W] [Fintype W] in
theorem Scheduler.refill_runq (s : Scheduler P W) :
    s.refill.2.runqLock = s.runqLock ∧ s.refill.2.exitcode = s.exitcode
      ∧ (s.refill.1 = false → s.refill.2.runq ≠ []) := by
  unfold Scheduler.refill
  split
  · exact ⟨rfl, rfl, nofun⟩
  · exact ⟨rfl, rfl, fun _ => List.cons_ne_nil _ _⟩

omit [DecidableEq W] [DecidableEq C] in
/-- A worker that is not in a process is not in `stop`. -/
theorem Stopping.not_caller {s : State P W (W ⊕ C)} (hs : Stopping s) {w : W} {pc : WorkerPc P}
    (hpc : s.worker w = pc) (hout : ∀ p, pc ≠ .running p) : s.stopPc.caller ≠ some w := by
  intro hcaller
  obtain ⟨p, hp⟩ := hs.caller w hcaller
  exact hout p (hpc.symm.trans hp)

omit [DecidableEq C] in
/-- Worker `v`, which is not in `stop`, moves. -/
theorem Stopping.move {s : State P W (W ⊕ C)} (hs : Stopping s) {v : W} (pc : WorkerPc P)
    (hcaller : s.stopPc.caller ≠ some v) (hleft : pc = .left → s.sched.stop = true) :
    (∀ w, s.stopPc.caller = some w → ∃ p, Function.update s.worker v pc w = .running p)
      ∧ ∀ w, Function.update s.worker v pc w = .left → s.sched.stop = true := by
  refine ⟨fun w hw => ?_, fun w hw => ?_⟩
  · rw [Function.update_of_ne fun hsame : w = v => hcaller (hsame ▸ hw)]
    exact hs.caller w hw
  · by_cases hv : w = v
    · rw [hv, Function.update_self] at hw
      exact hleft hw
    · rw [Function.update_of_ne hv] at hw
      exact hs.left w hw

theorem Step.stands {s s' : State P W (W ⊕ C)} {label : Label P W C} (hstep : Step s label s')
    (hs : Stopping s) : (∀ w, s'.stopPc.caller = some w → ∃ p, s'.worker w = .running p)
      ∧ ∀ w, s'.worker w = .left → s'.sched.stop = true := by
  cases hstep with
  | enter w hpc | lock w hpc | pop w p rest hpc | park w hpc | consume w hpc | wake w hpc =>
      exact hs.move _ (hs.not_caller hpc fun _ => nofun) nofun
  | leave w hpc hstop => exact hs.move _ (hs.not_caller hpc fun _ => nofun) fun _ => hstop
  | refill w hpc hrunq =>
      obtain ⟨hcaller, hleft⟩ := hs.move (if s.sched.refill.1 then .idling else .locked)
        (hs.not_caller hpc fun _ => nofun) (by split <;> nofun)
      exact ⟨hcaller, fun w hw => ((Scheduler.refill_account s.sched).2.2.2).trans (hleft w hw)⟩
  | finish w hcalls hsending => exact hs.move _ hcalls.2 nofun
  | resume i p hcalls hsending =>
      obtain ⟨-, -, -, -, hsame⟩ := Scheduler.resume_account s.sched p
      exact ⟨hs.caller, fun w hw => hsame.trans (hs.left w hw)⟩
  | stopFire w code hcalls hsending hclear =>
      refine ⟨?_, hs.left⟩
      rintro _ ⟨⟩
      exact hcalls.1
  | stopStore w code hpc | stopSend w sent hpc =>
      refine ⟨?_, fun v hv => ?_⟩
      · rintro _ ⟨⟩
        exact hs.caller _ (by rw [hpc]; rfl)
      · first | rfl | exact hs.left v hv
  | stopReturn w hpc => exact ⟨nofun, hs.left⟩
  | send | stopAgain => exact ⟨hs.caller, hs.left⟩

omit [DecidableEq C] in
/-- Worker `v` moves without taking or giving up the run queue's lock. -/
theorem Stopping.lock_keep {s : State P W (W ⊕ C)} (hs : Stopping s) {v : W} {old : WorkerPc P}
    (hpc : s.worker v = old) (new : WorkerPc P) (hsame : new.HoldsLock ↔ old.HoldsLock) (w : W) :
    s.sched.runqLock = some w ↔ (Function.update s.worker v new w).HoldsLock := by
  rw [hs.lock]
  by_cases hw : w = v
  · rw [hw, Function.update_self, hpc, hsame]
  · rw [Function.update_of_ne hw]

omit [DecidableEq C] in
theorem Stopping.lock_take {s : State P W (W ⊕ C)} (hs : Stopping s) {v : W} {new : WorkerPc P}
    (hlock : s.sched.runqLock = none) (hnew : new.HoldsLock) (w : W) :
    some v = some w ↔ (Function.update s.worker v new w).HoldsLock := by
  by_cases hw : w = v
  · rw [hw, Function.update_self]
    exact iff_of_true rfl hnew
  · rw [Function.update_of_ne hw, ← hs.lock, hlock]
    exact iff_of_false (fun hsame => hw (Option.some.inj hsame).symm) nofun

omit [DecidableEq C] in
theorem Stopping.lock_release {s : State P W (W ⊕ C)} (hs : Stopping s) {v : W}
    {old new : WorkerPc P} (hpc : s.worker v = old) (hold : old.HoldsLock) (hnew : ¬new.HoldsLock)
    (w : W) : none = some w ↔ (Function.update s.worker v new w).HoldsLock := by
  refine iff_of_false nofun ?_
  by_cases hw : w = v
  · rwa [hw, Function.update_self]
  · rw [Function.update_of_ne hw, ← hs.lock, (hs.lock v).mpr (hpc ▸ hold)]
    exact fun hsame => hw (Option.some.inj hsame).symm

theorem Step.lock_iff {s s' : State P W (W ⊕ C)} {label : Label P W C} (hstep : Step s label s')
    (hs : Stopping s) : ∀ w, s'.sched.runqLock = some w ↔ (s'.worker w).HoldsLock := by
  cases hstep with
  | enter w hpc | leave w hpc | consume w hpc | wake w hpc =>
      exact hs.lock_keep hpc _ (by simp [WorkerPc.HoldsLock])
  | lock w hpc hlock => exact hs.lock_take hlock (Or.inl rfl)
  | pop w p rest hpc | park w hpc =>
      exact hs.lock_release hpc (by simp [WorkerPc.HoldsLock]) (by simp [WorkerPc.HoldsLock])
  | refill w hpc hrunq =>
      have hkeep := hs.lock_keep hpc (if s.sched.refill.1 then .idling else .locked)
        (by split <;> simp [WorkerPc.HoldsLock])
      rwa [← (Scheduler.refill_runq s.sched).1] at hkeep
  | finish w hcalls hsending =>
      obtain ⟨⟨p, hpc⟩, -⟩ := hcalls
      exact hs.lock_keep hpc _ (by simp [WorkerPc.HoldsLock])
  | resume i p hcalls hsending =>
      have hkeep := hs.lock
      rwa [← (Scheduler.resume_runq s.sched p).1] at hkeep
  | _ => exact hs.lock

theorem stopping_of_reachable {s : State P W (W ⊕ C)} (hs : system.Reachable s) : Stopping s := by
  refine hs.invariant ?_ ?_
  · rintro s rfl
    exact stopping_fresh
  · intro s label s' _ hs hstep
    obtain ⟨hfired, hstored, hsent⟩ := hstep.stopCall hs
    obtain ⟨hcaller, hleft⟩ := hstep.stands hs
    exact ⟨hfired, hstored, hsent, hcaller, hstep.lock_iff hs, hleft⟩

/-! ### The way out -/

/-- Moves that a worker has yet to take once `_stop` is set. -/
def WorkerPc.distance : WorkerPc P → Nat
  | .left => 0
  | .loop => 1
  | .woken | .running _ => 2
  | .parked => 3
  | .idling => 4
  | .locked => 5
  | .check => 6

/-- Where the workers stand, and the run queue. -/
def State.stands (s : State P W (W ⊕ C)) : (W → WorkerPc P) × List P := (s.worker, s.sched.runq)

/-- A worker that finds `_runq` empty may fill it and stay where it is. -/
def refills : List P → Nat
  | [] => 1
  | _ :: _ => 0

def distance (stands : (W → WorkerPc P) × List P) : Nat :=
  total WorkerPc.distance stands.1 + refills stands.2

theorem refills_le_one (runq : List P) : refills runq ≤ 1 := by
  cases runq <;> simp [refills]

omit [DecidableEq C] in
/-- Worker `v` moves, and leaves the run queue alone. -/
theorem distance_setWorker {s : State P W (W ⊕ C)} {v : W} {old new : WorkerPc P}
    (hpc : s.worker v = old) (hlt : new.distance < old.distance) :
    distance (s.setWorker v new).stands < distance s.stands := by
  have hmove := total_setWorker WorkerPc.distance hpc new
  simp only [distance, State.stands, State.setWorker]
  omega

/-- **Workers move towards the exit.** Once `_stop` is set it stays set, and a step moves no worker and
leaves the run queue alone, or there is less to go. -/
theorem Step.distance {s s' : State P W (W ⊕ C)} {label : Label P W C} (hstep : Step s label s')
    (hstop : s.sched.stop = true) : s'.sched.stop = true
      ∧ (s'.stands = s.stands ∨ distance s'.stands < distance s.stands) := by
  cases hstep with
  | enter w hpc hrunning => exact absurd hstop (by simp [hrunning])
  | leave w hpc | consume w hpc | wake w hpc | park w hpc | lock w hpc =>
      exact ⟨hstop, Or.inr (distance_setWorker hpc (by simp [WorkerPc.distance]))⟩
  | pop w p rest hpc hrunq =>
      have hmove := total_setWorker WorkerPc.distance hpc (.running p)
      have hrest := refills_le_one rest
      refine ⟨hstop, Or.inr ?_⟩
      simp only [Sched.distance, State.stands, State.setWorker, WorkerPc.distance] at *
      omega
  | refill w hpc hrunq =>
      have hmove := total_setWorker WorkerPc.distance hpc
        (if s.sched.refill.1 then .idling else .locked)
      refine ⟨(Scheduler.refill_account s.sched).2.2.2.trans hstop, Or.inr ?_⟩
      have hnone : refills s.sched.runq = 1 := by rw [hrunq, refills]
      simp only [Sched.distance, State.stands, State.setWorker, hnone]
      cases hempty : s.sched.refill.1 with
      | false =>
          have hfilled : refills s.sched.refill.2.runq = 0 := by
            obtain ⟨p, rest, hcons⟩ :=
              List.exists_cons_of_ne_nil ((Scheduler.refill_runq s.sched).2.2 hempty)
            rw [hcons, refills]
          simp only [hempty, hfilled, WorkerPc.distance, Bool.false_eq_true, ↓reduceIte] at *
          omega
      | true =>
          have hrest := refills_le_one s.sched.refill.2.runq
          simp only [hempty, WorkerPc.distance, ↓reduceIte] at *
          omega
  | finish w hcalls hsending =>
      obtain ⟨⟨p, hpc⟩, -⟩ := hcalls
      exact ⟨hstop, Or.inr (distance_setWorker hpc (by simp [WorkerPc.distance]))⟩
  | resume i p hcalls hsending =>
      refine ⟨(Scheduler.resume_account s.sched p).2.2.2.2.trans hstop, Or.inl ?_⟩
      rw [State.stands, (Scheduler.resume_queue s.sched p).1]
      rfl
  | stopStore => exact ⟨rfl, Or.inl rfl⟩
  | send | stopFire | stopAgain | stopSend | stopReturn => exact ⟨hstop, Or.inl rfl⟩

/-! ### Someone can move -/

/-- Worker `w` stands elsewhere, or has filled the run queue. -/
def Moved (w : W) (s s' : State P W (W ⊕ C)) : Prop :=
  s'.worker w ≠ s.worker w ∨ (s.worker w = .locked ∧ s'.sched.runq ≠ s.sched.runq)

/-- Worker `w` can move by itself: it is not in a process. -/
def State.Ready (s : State P W (W ⊕ C)) (w : W) : Prop :=
  (∀ p, s.worker w ≠ .running p) ∧ ∃ label s', Step s label s' ∧ Moved w s s'

omit [DecidableEq W] [DecidableEq C] in
theorem Stopping.unlocked {s : State P W (W ⊕ C)} (hs : Stopping s)
    (hfree : ∀ w, ¬(s.worker w).HoldsLock) : s.sched.runqLock = none := by
  cases hlock : s.sched.runqLock with
  | none => rfl
  | some w => exact absurd ((hs.lock w).mp hlock) (hfree w)

/-- **Nobody is stuck.** A worker that has not left and is not in a process can move, unless it waits
for a signal or for the lock that another one has. -/
theorem State.ready {s : State P W (W ⊕ C)} {w : W} (hleft : s.worker w ≠ .left)
    (hout : ∀ p, s.worker w ≠ .running p) (hsignal : s.worker w = .parked → 0 < s.sched.signals)
    (hlock : (s.worker w).HoldsLock ∨ s.sched.runqLock = none) : s.Ready w := by
  have hgoes : ∀ {pc}, s.worker w ≠ pc → Function.update s.worker w pc w ≠ s.worker w := by
    intro pc hne
    rw [Function.update_self]
    exact hne.symm
  refine ⟨hout, ?_⟩
  cases hpc : s.worker w with
  | left => exact absurd hpc hleft
  | running p => exact absurd hpc (hout p)
  | loop =>
      cases hstop : s.sched.stop with
      | false => exact ⟨_, _, .enter w hpc hstop, Or.inl (hgoes (by rw [hpc]; nofun))⟩
      | true => exact ⟨_, _, .leave w hpc hstop, Or.inl (hgoes (by rw [hpc]; nofun))⟩
  | check =>
      have hfree := hlock.resolve_left (by simp [WorkerPc.HoldsLock, hpc])
      exact ⟨_, _, .lock w hpc hfree, Or.inl (hgoes (by rw [hpc]; nofun))⟩
  | locked =>
      cases hrunq : s.sched.runq with
      | nil =>
          refine ⟨_, _, .refill w hpc hrunq, ?_⟩
          cases hempty : s.sched.refill.1 with
          | false => exact Or.inr ⟨hpc, hrunq ▸ (Scheduler.refill_runq s.sched).2.2 hempty⟩
          | true => exact Or.inl (hgoes (by rw [hpc]; nofun))
      | cons p rest => exact ⟨_, _, .pop w p rest hpc hrunq, Or.inl (hgoes (by rw [hpc]; nofun))⟩
  | idling => exact ⟨_, _, .park w hpc, Or.inl (hgoes (by rw [hpc]; nofun))⟩
  | parked => exact ⟨_, _, .consume w hpc (hsignal hpc), Or.inl (hgoes (by rw [hpc]; nofun))⟩
  | woken =>
      have hfree := hlock.resolve_left (by simp [WorkerPc.HoldsLock, hpc])
      exact ⟨_, _, .wake w hpc hfree, Or.inl (hgoes (by rw [hpc]; nofun))⟩

/-! ### Runs -/

/-- A worker that can move does. A process may run for ever. -/
def FairWorkers (run : Nat → State P W (W ⊕ C)) : Prop :=
  ∀ w, WeaklyFair run (fun s => s.Ready w) (Moved w)

/-- The first call of `stop` goes on. -/
def FairStop (run : Nat → State P W (W ⊕ C)) : Prop :=
  WeaklyFair run (fun s => s.stopPc ≠ .idle ∧ ∃ label s', Step s label s' ∧ s'.stopPc ≠ s.stopPc)
    fun s s' => s'.stopPc ≠ s.stopPc

/-- Workers that do not move any more have left, are in a process, or are parked and have no signal
for long. -/
theorem FairWorkers.settled {run : Nat → State P W (W ⊕ C)} (hfair : FairWorkers run)
    (hrun : system.Run run) {m : Nat} (hsettled : ∀ k ≥ m, (run k).stands = (run m).stands) (v : W) :
    (run m).worker v = .left ∨ (∃ p, (run m).worker v = .running p)
      ∨ ((run m).worker v = .parked ∧ ∀ n ≥ m, ∃ k ≥ n, (run k).sched.signals = 0) := by
  have hworker : ∀ k ≥ m, ∀ v, (run k).worker v = (run m).worker v := fun k hk v =>
    congrFun (congrArg Prod.fst (hsettled k hk)) v
  have hstuck : ∀ v, (run m).worker v ≠ .left → (∀ p, (run m).worker v ≠ .running p) →
      (((run m).worker v).HoldsLock ∨ ∀ u, ¬((run m).worker u).HoldsLock) → ∀ n ≥ m,
      ∃ k ≥ n, (run m).worker v = .parked ∧ (run k).sched.signals = 0 := by
    intro v hleft hout hfree n hn
    obtain ⟨k, hk, hdisabled⟩ := (hfair v).progress State.stands (n := n)
      (fun k hk => (hsettled k (hn.trans hk)).trans (hsettled n hn).symm) fun s s' hmoved hsame => by
        obtain hstands | ⟨-, hrunq⟩ := hmoved
        · exact hstands (congrFun (congrArg Prod.fst hsame) v)
        · exact hrunq (congrArg Prod.snd hsame)
    have hv := hworker k (hn.trans hk)
    refine ⟨k, hk, ?_⟩
    by_contra hsignal
    refine hdisabled (State.ready (hv v ▸ hleft) (hv v ▸ hout) (fun hpc => ?_)
      (hfree.imp (fun hheld => hv v ▸ hheld) fun hunheld => ?_))
    · exact Nat.pos_of_ne_zero fun hzero => hsignal ⟨hv v ▸ hpc, hzero⟩
    · exact (stopping_of_reachable (hrun.reachable k)).unlocked fun u => hv u ▸ hunheld u
  have hfree : ∀ u, ¬((run m).worker u).HoldsLock := by
    intro u hheld
    obtain ⟨-, -, hparked, -⟩ := hstuck u (by rintro hpc; simp [hpc, WorkerPc.HoldsLock] at hheld)
      (by rintro p hpc; simp [hpc, WorkerPc.HoldsLock] at hheld) (Or.inl hheld) m le_rfl
    simp [hparked, WorkerPc.HoldsLock] at hheld
  by_cases hleft : (run m).worker v = .left
  · exact Or.inl hleft
  · by_cases hout : ∃ p, (run m).worker v = .running p
    · exact Or.inr (Or.inl hout)
    · have hparks := hstuck v hleft (not_exists.mp hout) (Or.inr hfree)
      refine Or.inr (Or.inr ⟨(hparks m le_rfl).choose_spec.2.1, fun n hn => ?_⟩)
      obtain ⟨k, hk, -, hzero⟩ := hparks n hn
      exact ⟨k, hk, hzero⟩

/-- The call of `stop` goes on, and has less to do. -/
theorem Step.rest {s s' : State P W (W ⊕ C)} {label : Label P W C} (hstep : Step s label s')
    (hs : Stopping s) : s'.stopPc = s.stopPc ∨ s'.stopPc.rest < s.stopPc.rest := by
  cases hstep with
  | stopFire w code hcalls hsending hclear =>
      have hidle : s.stopPc = .idle := by
        by_contra hne
        rw [hs.fired.mpr hne] at hclear
        cases hclear
      refine Or.inr ?_
      rw [hidle]
      exact Nat.lt_succ_self _
  | stopStore w code hpc =>
      refine Or.inr ?_
      rw [hpc]
      exact Nat.lt_succ_self _
  | stopSend w sent hpc hlt =>
      refine Or.inr ?_
      rw [hpc]
      simp only [StopPc.rest]
      omega
  | stopReturn w hpc =>
      refine Or.inr ?_
      rw [hpc]
      simp only [StopPc.rest]
      omega
  | _ => exact Or.inl rfl

theorem stopPc_mono {run : Nat → State P W (W ⊕ C)} (hrun : system.Run run) (n : Nat) :
    (run (n + 1)).stopPc = (run n).stopPc ∨ (run (n + 1)).stopPc.rest < (run n).stopPc.rest := by
  obtain hpause | ⟨label, hstep⟩ := hrun.next n
  · exact Or.inl (congrArg _ hpause)
  · exact hstep.rest (stopping_of_reachable (hrun.reachable n))

theorem Step.fires {s s' : State P W (W ⊕ C)} {label : Label P W C} (hstep : Step s label s')
    (hidle : s.stopPc = .idle) (hbegun : s'.stopPc ≠ .idle) :
    ∃ w code, s'.stopPc = .fired w code := by
  cases hstep with
  | stopFire w code => exact ⟨w, code, rfl⟩
  | stopStore w code hpc | stopSend w sent hpc | stopReturn w hpc =>
      rw [hidle] at hpc
      cases hpc
  | _ => exact absurd hidle hbegun

/-- `stop` was called with the code first, and has stored it once `_stop` is set. -/
def State.Chosen (s : State P W (W ⊕ C)) (w : W) (code : Int) : Prop :=
  s.stopPc = .fired w code ∨ (s.stopPc.Stored ∧ s.sched.exitcode = code)

theorem Step.chosen {s s' : State P W (W ⊕ C)} {label : Label P W C} (hstep : Step s label s')
    (hs : Stopping s) {w : W} {code : Int} (hchosen : s.Chosen w code) : s'.Chosen w code := by
  cases hstep with
  | refill v hpc hrunq =>
      exact hchosen.imp_right fun ⟨hstored, hcode⟩ =>
        ⟨hstored, (Scheduler.refill_runq s.sched).2.1.trans hcode⟩
  | resume i p hcalls hsending =>
      exact hchosen.imp_right fun ⟨hstored, hcode⟩ =>
        ⟨hstored, (Scheduler.resume_runq s.sched p).2.trans hcode⟩
  | stopFire v code' hcalls hsending hclear =>
      have hfired : s.sched.stopFired = true := hs.fired.mpr fun hidle => by
        obtain hfired | ⟨hstored, -⟩ := hchosen
        · rw [hidle] at hfired
          cases hfired
        · rw [hidle] at hstored
          exact hstored
      rw [hfired] at hclear
      cases hclear
  | stopStore v code' hpc =>
      obtain hfired | ⟨hstored, -⟩ := hchosen
      · rw [hpc] at hfired
        cases hfired
        exact Or.inr ⟨trivial, rfl⟩
      · rw [hpc] at hstored
        exact hstored.elim
  | stopSend v sent hpc | stopReturn v hpc =>
      obtain hfired | ⟨-, hcode⟩ := hchosen
      · rw [hpc] at hfired
        cases hfired
      · exact Or.inr ⟨trivial, hcode⟩
  | _ => exact hchosen

theorem chosen_of_fired {run : Nat → State P W (W ⊕ C)} (hrun : system.Run run) {n k : Nat}
    {w : W} {code : Int} (hfired : (run n).stopPc = .fired w code) (hle : n ≤ k) :
    (run k).Chosen w code := by
  refine hrun.keeps (P := fun s => s.Chosen w code) ?_ (Or.inl hfired) hle
  intro k _ hchosen label hstep
  exact hstep.chosen (stopping_of_reachable (hrun.reachable k)) hchosen

/-- Only one call of `stop` finds `_stopFired` clear. -/
theorem fired_unique {run : Nat → State P W (W ⊕ C)} (hrun : system.Run run) {n k : Nat}
    {w v : W} {code code' : Int} (hfired : (run n).stopPc = .fired w code)
    (hfired' : (run k).stopPc = .fired v code') : v = w ∧ code' = code := by
  have hsame : ∀ {n k : Nat} {w v : W} {code code' : Int}, n ≤ k →
      (run n).stopPc = .fired w code → (run k).stopPc = .fired v code' → v = w ∧ code' = code := by
    intro n k w v code code' hle hfired hfired'
    obtain hchosen | ⟨hstored, -⟩ := chosen_of_fired hrun hfired hle
    · rw [hfired'] at hchosen
      cases hchosen
      exact ⟨rfl, rfl⟩
    · rw [hfired'] at hstored
      exact hstored.elim
  obtain hle | hle := le_total n k
  · exact hsame hle hfired hfired'
  · obtain ⟨rfl, rfl⟩ := hsame hle hfired' hfired
    exact ⟨rfl, rfl⟩

theorem begun_of_le {run : Nat → State P W (W ⊕ C)} (hrun : system.Run run) {n k : Nat}
    (hle : n ≤ k) (hbegun : (run n).stopPc ≠ .idle) : (run k).stopPc ≠ .idle := by
  have hfired := (stopping_of_reachable (hrun.reachable n)).fired.mpr hbegun
  refine (stopping_of_reachable (hrun.reachable k)).fired.mp ?_
  refine (hrun.leads hle).keeps (P := fun s => s.sched.stopFired = true) ?_ hfired
  intro s label s' hs hstep
  cases hstep with
  | refill w => exact (Scheduler.refill_account s.sched).2.2.1.trans hs
  | resume i p => exact (Scheduler.resume_account s.sched p).2.2.2.1.trans hs
  | stopFire => rfl
  | _ => exact hs

/-- Nothing happens to a call of `stop` that has returned, or to a worker that has left. -/
theorem over_of_le {run : Nat → State P W (W ⊕ C)} (hrun : system.Run run) {n k : Nat}
    (hle : n ≤ k) : ((run n).stopPc = .returned → (run k).stopPc = .returned)
      ∧ ∀ w, (run n).worker w = .left → (run k).worker w = .left := by
  refine ⟨fun hreturned => ?_, fun w hleft => ?_⟩
  · induction k, hle using Nat.le_induction with
    | base => exact hreturned
    | succ k hle ih =>
        obtain hsame | hlt := stopPc_mono hrun k
        · rw [hsame, ih]
        · rw [ih] at hlt
          exact absurd hlt (Nat.not_lt_zero _)
  · refine hrun.keeps (P := fun s => s.worker w = .left) ?_ hleft hle
    intro k _ hbefore label hstep
    have hstop := (stopping_of_reachable (hrun.reachable k)).left w hbefore
    obtain hsame | hmoves := (hstep.leaving hstop (Or.inr (Or.inr hbefore))).2
    · rwa [hsame]
    · rw [hbefore] at hmoves
      exact absurd hmoves (by simp [WorkerPc.MovesOut])

/-- **`serve` returns the code of the first call of `stop`.** When all workers have left, there was a
call of `stop` that found `_stopFired` clear, and only one; it has returned; and the exit code is the
one that it was called with, then and ever after. -/
theorem serve_returns_first_code [Nonempty W] {run : Nat → State P W (W ⊕ C)}
    (hrun : system.Run run) {n : Nat} (hleft : ∀ w, (run n).worker w = .left) :
    ∃ w code, (∃ k ≤ n, (run k).stopPc = .fired w code)
      ∧ (∀ k v code', (run k).stopPc = .fired v code' → v = w ∧ code' = code)
      ∧ ∀ k ≥ n, (run k).stopPc = .returned ∧ (run k).sched.exitcode = code
        ∧ ∀ v, (run k).worker v = .left := by
  have hn := stopping_of_reachable (hrun.reachable n)
  have hstored : (run n).stopPc.Stored := hn.stored.mp (hn.left (Classical.arbitrary W) (hleft _))
  obtain ⟨k, -, hlt, hidle, hbegun, label, hstep⟩ := hrun.exists_step
    (P := fun s => s.stopPc = .idle) (Nat.zero_le n) (by rw [hrun.init]; rfl) fun hidle => by
      rw [hidle] at hstored
      exact hstored
  obtain ⟨w, code, hfired⟩ := hstep.fires hidle hbegun
  have hreturned : (run n).stopPc = .returned := by
    cases hpc : (run n).stopPc with
    | returned => rfl
    | idle | fired v code' =>
        rw [hpc] at hstored
        exact hstored.elim
    | sending v sent =>
        obtain ⟨p, hp⟩ := hn.caller v (by rw [hpc]; rfl)
        rw [hleft v] at hp
        cases hp
  refine ⟨w, code, ⟨k + 1, hlt, hfired⟩, fun k' v code' => fired_unique hrun hfired, fun k' hk' => ?_⟩
  have hover := over_of_le hrun hk'
  refine ⟨hover.1 hreturned, ?_, fun v => hover.2 v (hleft v)⟩
  obtain hstill | ⟨-, hcode⟩ := chosen_of_fired hrun hfired (Nat.le_trans hlt hk')
  · rw [hover.1 hreturned] at hstill
    cases hstill
  · exact hcode

/-- The only process that is run calls `stop`. -/
theorem stopped_once :
    ∃ s₁ s₂ : State Nat (Fin 1) (Fin 1 ⊕ Unit), system.Leads State.fresh s₁
      ∧ s₁.stopPc = .fired 0 3 ∧ system.Leads s₁ s₂ ∧ s₂.stopPc = .returned
      ∧ ∀ w, s₂.worker w = .left := by
  have h0 : system.Leads State.fresh (State.fresh : State Nat (Fin 1) (Fin 1 ⊕ Unit)) := .refl
  have h1 := h0.tail ⟨_, Step.resume (.inr ()) 7 trivial rfl⟩
  have h2 := h1.tail ⟨_, Step.enter 0 rfl rfl⟩
  have h3 := h2.tail ⟨_, Step.lock 0 rfl rfl⟩
  have h4 := h3.tail ⟨_, Step.refill 0 rfl rfl⟩
  have h5 := h4.tail ⟨_, Step.pop 0 7 [] rfl rfl⟩
  have h6 := h5.tail ⟨_, Step.stopFire 0 3 ⟨⟨7, rfl⟩, nofun⟩ rfl rfl⟩
  have hhere : ∀ {s : State Nat (Fin 1) (Fin 1 ⊕ Unit)}, system.Leads State.fresh s →
      system.Leads s s := fun _ => .refl
  have h7 := (hhere h6).tail ⟨_, Step.stopStore 0 3 rfl⟩
  have h8 := h7.tail ⟨_, Step.stopSend 0 0 rfl (by decide)⟩
  have h9 := h8.tail ⟨_, Step.stopReturn 0 rfl⟩
  have h10 := h9.tail ⟨_, Step.finish 0 ⟨⟨7, rfl⟩, nofun⟩ rfl⟩
  have h11 := h10.tail ⟨_, Step.leave 0 rfl rfl⟩
  refine ⟨_, _, h6, rfl, h11, rfl, fun w => ?_⟩
  rw [Subsingleton.elim w 0]
  rfl

theorem serve_returns_first_code_once :
    ∃ run : Nat → State Nat (Fin 1) (Fin 1 ⊕ Unit), system.Run run
      ∧ ∃ n, ∀ k ≥ n, (run k).sched.exitcode = 3 := by
  obtain ⟨s₁, s₂, hfirst, hfired, hsecond, -, hleft⟩ := stopped_once
  obtain ⟨run, hrun, ⟨n₁, rfl⟩, n, hlast⟩ := hfirst.exists_run hsecond rfl
  obtain ⟨w, code, -, hunique, hover⟩ := serve_returns_first_code hrun (n := n) fun w => by
    rw [hlast n le_rfl]
    exact hleft w
  refine ⟨run, hrun, n, fun k hk => ?_⟩
  rw [(hover k hk).2.1, (hunique n₁ 0 3 hfired).2]

/-! ### The main result -/

theorem stop_returns {run : Nat → State P W (W ⊕ C)} (hrun : system.Run run)
    (hfair : FairStop run) {n : Nat} (hbegun : (run n).stopPc ≠ .idle) :
    ∃ m ≥ n, (run m).stopPc = .returned := by
  obtain ⟨m, hm, hsettled⟩ := settles (fun k => (run k).stopPc) StopPc.rest
    (n := n) fun k _ => stopPc_mono hrun k
  obtain ⟨k, hk, hdisabled⟩ := hfair.progress State.stopPc hsettled fun _ _ => id
  refine ⟨k, hm.trans hk, ?_⟩
  have hsent := (stopping_of_reachable (hrun.reachable k)).sent
  have hlater : (run k).stopPc ≠ .idle := begun_of_le hrun (hm.trans hk) hbegun
  by_contra hreturned
  refine hdisabled ⟨hlater, ?_⟩
  cases hpc : (run k).stopPc with
  | idle => exact absurd hpc hlater
  | returned => exact absurd hpc hreturned
  | fired w code => exact ⟨_, _, .stopStore w code hpc, nofun⟩
  | sending w sent =>
      obtain hlt | heq := Nat.lt_or_eq_of_le (hsent w sent hpc)
      · refine ⟨_, _, .stopSend w sent hpc hlt, ?_⟩
        rintro ⟨⟩
      · exact ⟨_, _, .stopReturn w (heq ▸ hpc), nofun⟩

/-- Each parked worker has a signal of `stop`. -/
theorem signalled [Fintype C] {s : State P W (W ⊕ C)} (hs : system.Reachable s)
    (hreturned : s.stopPc = .returned) {w : W} (hpc : s.worker w = .parked) :
    s.sched.signals ≠ 0 := by
  have := Nonempty.intro w
  have hstop : s.sched.stop = true := (stopping_of_reachable hs).stored.mpr (by
    rw [hreturned]
    trivial)
  have hcovered := (accounted_of_reachable hs).stopping hstop
  have hmayPark : 1 ≤ total WorkerPc.mayPark s.worker :=
    le_of_eq_of_le (by rw [hpc]; rfl) (le_total WorkerPc.mayPark s.worker w)
  rw [hreturned, StopPc.sent] at hcovered
  omega

/-- **`stop` ends every worker.** In a fair run in which `stop` is called, there comes a time from which
that call has returned, the exit code is the code that it was called with, and each worker has left the
loop, or stays for ever in a process that does not return. -/
theorem stop_ends_every_worker [Fintype C] {run : Nat → State P W (W ⊕ C)}
    (hrun : system.Run run) (hworkers : FairWorkers run) (hfair : FairStop run) {n : Nat} {w : W}
    {code : Int} (hfired : (run n).stopPc = .fired w code) :
    ∃ m ≥ n, ∀ k ≥ m, (run k).stopPc = .returned ∧ (run k).sched.exitcode = code
      ∧ ∀ v, (run k).worker v = .left ∨ ∃ p, (run m).worker v = .running p
        ∧ (run k).worker v = .running p := by
  obtain ⟨m₁, hm₁, hreturned⟩ := stop_returns hrun hfair (n := n) (by rw [hfired]; nofun)
  have hlater : ∀ k ≥ m₁, (run k).stopPc = .returned := fun k hk => (over_of_le hrun hk).1 hreturned
  obtain ⟨m, hm, hsettled⟩ := settles (fun k => (run k).stands) distance
    (n := m₁) fun k hk => by
      obtain hpause | ⟨label, hstep⟩ := hrun.next k
      · exact Or.inl (congrArg _ hpause)
      · refine (hstep.distance ?_).2
        exact (stopping_of_reachable (hrun.reachable k)).stored.mpr (by rw [hlater k hk]; trivial)
  refine ⟨m, hm₁.trans hm, fun k hk => ⟨hlater k (hm.trans hk), ?_, fun v => ?_⟩⟩
  · obtain hstill | ⟨-, hcode⟩ := chosen_of_fired hrun hfired (hm₁.trans (hm.trans hk))
    · rw [hlater k (hm.trans hk)] at hstill
      cases hstill
    · exact hcode
  · rw [show (run k).worker v = (run m).worker v from congrFun (congrArg Prod.fst (hsettled k hk)) v]
    obtain hleft | ⟨p, hp⟩ | ⟨hparked, hsignals⟩ := hworkers.settled hrun hsettled v
    · exact Or.inl hleft
    · exact Or.inr ⟨p, hp, hp⟩
    · obtain ⟨i, hi, hzero⟩ := hsignals m le_rfl
      have hstill : (run i).worker v = .parked :=
        (congrFun (congrArg Prod.fst (hsettled i hi)) v).trans hparked
      exact absurd hzero (signalled (hrun.reachable i) (hlater i (hm.trans hi)) hstill)

/-- When all workers have left, none can move. -/
theorem fair_of_left {run : Nat → State P W (W ⊕ C)} (hrun : system.Run run) {n : Nat}
    (hreturned : (run n).stopPc = .returned) (hleft : ∀ w, (run n).worker w = .left) :
    FairWorkers run ∧ FairStop run := by
  refine ⟨fun w m henabled => ?_, fun m henabled => ?_⟩
  · have hmax := over_of_le hrun (le_max_left n m)
    have hgone := hmax.2 w (hleft w)
    obtain ⟨-, label, s', hstep, hmoved⟩ := henabled (max n m) (le_max_right n m)
    have hstop := (stopping_of_reachable (hrun.reachable (max n m))).left w hgone
    rw [Moved, hgone] at hmoved
    obtain hsame | hmoves := (hstep.leaving hstop (Or.inr (Or.inr hgone))).2
    · exact absurd (hsame.trans hgone) (hmoved.resolve_right (fun hlocked => nomatch hlocked.1))
    · rw [hgone] at hmoves
      exact absurd hmoves (by simp [WorkerPc.MovesOut])
  · have hmax := (over_of_le hrun (le_max_left n m)).1 hreturned
    obtain ⟨-, label, s', hstep, hmoved⟩ := henabled (max n m) (le_max_right n m)
    obtain hsame | hlt := hstep.rest (stopping_of_reachable (hrun.reachable (max n m)))
    · exact absurd hsame hmoved
    · rw [hmax] at hlt
      exact absurd hlt (Nat.not_lt_zero _)

theorem stop_ends_every_worker_once :
    ∃ run : Nat → State Nat (Fin 1) (Fin 1 ⊕ Unit), system.Run run
      ∧ FairWorkers run ∧ FairStop run
      ∧ ∃ n, ∀ k ≥ n, (run k).stopPc = .returned ∧ (run k).sched.exitcode = 3 := by
  obtain ⟨s₁, s₂, hfirst, hfired, hsecond, hreturned, hleft⟩ := stopped_once
  obtain ⟨run, hrun, ⟨n₁, rfl⟩, n, hlast⟩ := hfirst.exists_run hsecond rfl
  have hlast := hlast n le_rfl
  obtain ⟨hworkers, hstop⟩ := fair_of_left hrun (n := n) (hlast ▸ hreturned) (hlast ▸ hleft)
  obtain ⟨m, -, hover⟩ := stop_ends_every_worker hrun hworkers hstop hfired
  exact ⟨run, hrun, hworkers, hstop, m, fun k hk => ⟨(hover k hk).1, (hover k hk).2.1⟩⟩

end Stp.Sched
