import Stp.Coroutines.Ownership
import Stp.Coroutines.Queues

/-!
# The end of a process

`exit()` gives every coroutine that waits an `ExitException` and resumes the woken ones until none
is left, however often coroutines that unwind wait again, wake others or throw. Each round takes all
that the last one has put back, so when a round finds nothing every coroutine that has started has
ended, and only those that never started are left to be abandoned. A coroutine that catches the
exception and waits again is deleted twice, so such an `exit()` does not return.

Two things leave something behind. `block` overwrites the entry of a coroutine that is blocked on the
same session already, and no later round finds that one. What the last sweep deletes may spawn, and
nothing abandons the coroutine then.
-/

namespace Stp.Coroutines

open Process Transition

variable {V : Type*}

/-- No coroutine blocks on a session that another one is blocked on, and no destructor that is called
outside the coroutines spawns one. -/
def Label.Drains (s : State V) : Label V → Prop
  | .wait _ (some session) => ∀ other, (session, other) ∉ s.blockSessions
  | .destructor none => False
  | _ => True

def draining : System (State V) (Label V) := system.restrict fun s label => label.Drains s

/-- What a return of `exit()` leaves, if `s₀` is the state in which it was called. -/
structure Exited (s₀ s : State V) : Prop where
  ended : ∀ co < s.created, (s.co co).started = true → (s.co co).finished = true
  started : ∀ co, (co < s.created ∧ (s.co co).started = true)
    ↔ (co < s₀.created ∧ (s₀.co co).started = true)
  spawned : s.spawnCoroutines = []
  woken : s.wakeupCoroutines = []
  suspended : s.suspendCoroutines = []
  blocked : s.blockSessions = []
  zombies : s.zombieCoroutines = []

/-- A coroutine is live from its creation to the end of its function. -/
def State.live (s : State V) (x : Nat) : Nat :=
  if x < s.created ∧ (s.co x).finished = false then 1 else 0

/-- Each live coroutine is in exactly one of the spawn, wakeup, suspend and block containers, nothing
else is, and those in the spawn container are the ones that have not started. -/
structure Settled (s : State V) : Prop where
  once : ∀ co, s.resumables.count co = s.live co
  intact : ∀ co ∈ s.resumables, (s.co co).destroyed = 0
  spawned : ∀ co ∈ s.spawnCoroutines, (s.co co).started = false
  waiting : ∀ co ∈ s.wakeupCoroutines ++ s.suspendCoroutines ++ s.blockSessions.map Prod.snd,
    (s.co co).started = true

/-- The coroutines that have started are those that had when `exit()` was called. -/
def StartedAt (s₀ s : State V) : Prop :=
  ∀ x, (x < s.created ∧ (s.co x).started = true) ↔ (x < s₀.created ∧ (s₀.co x).started = true)

theorem StartedAt.congr {s₀ s s' : State V} (hs : StartedAt s₀ s)
    (hcreated : s'.created = s.created)
    (hstarted : ∀ x, (s'.co x).started = (s.co x).started) : StartedAt s₀ s' := by
  intro x
  rw [hcreated, hstarted]
  exact hs x

structure Unwinding (s₀ s : State V) : Prop where
  pc : s.pc.Unwinds
  once : ∀ x, s.queued x + s.unanswered x = s.live x
  intact : ∀ x, s.live x = 1 → (s.co x).destroyed = 0
  spawned : ∀ x, 0 < s.spawnCoroutines.count x → (s.co x).started = false
  waiting : ∀ x, 0 < s.wakeupCoroutines.count x + s.unanswered x → (s.co x).started = true
  started : StartedAt s₀ s
  woken : s.pc = .unwinding → s.wakeupCoroutines ≠ []

structure Unwound (s₀ s : State V) : Prop where
  pc : s.pc = .abandoning ∨ s.pc = .sweeping ∨ s.pc = .destroying true ∨ s.pc = .down
    ∨ s.pc = .crashed
  ended : ∀ x < s.created, (s.co x).started = true → (s.co x).finished = true
  started : StartedAt s₀ s
  revived : s.pc = .destroying true ∨ s.pc = .down → s.revived = []

theorem State.live_le_one (s : State V) (x : Nat) : s.live x ≤ 1 := by
  unfold State.live
  split <;> omega

theorem State.live_eq_one {s : State V} {x : Nat} (hlive : 0 < s.live x) :
    x < s.created ∧ (s.co x).finished = false := by
  unfold State.live at hlive
  split at hlive
  · assumption
  · omega

theorem State.live_congr {s s' : State V} {x : Nat} (hcreated : s'.created = s.created)
    (hfinished : (s'.co x).finished = (s.co x).finished) : s'.live x = s.live x := by
  unfold State.live
  rw [hcreated, hfinished]

theorem Settled.unwinding {s : State V} (hs : Settled s) (hpc : s.pc = .exiting) :
    Unwinding s s := by
  have hcount : ∀ x, s.queued x + s.unanswered x = s.resumables.count x := by
    intro x
    simp only [State.queued, State.unanswered, State.resumables, hpc, Pc.current, List.count_append,
      List.count_nil]
    omega
  refine ⟨by rw [hpc]; trivial, fun x => (hcount x).trans (hs.once x), fun x hlive => ?_,
    fun x hx => hs.spawned x (List.count_pos_iff.mp hx), fun x hx => ?_, fun _ => Iff.rfl,
    fun h => ?_⟩
  · refine hs.intact x (List.count_pos_iff.mp ?_)
    rw [hs.once x, hlive]
    exact Nat.one_pos
  · refine hs.waiting x (List.count_pos_iff.mp ?_)
    simp only [State.unanswered, hpc, Pc.current, List.count_nil] at hx
    simp only [List.count_append]
    omega
  · rw [hpc] at h
    cases h

/-! ### One step of the loop -/

theorem Unwinding.interrupt {s₀ s : State V} (hs : Unwinding s₀ s) {blocked suspended : List Nat}
    (hpc : s.pc = .exiting) (hblocked : blocked.Perm (s.blockSessions.map Prod.snd))
    (hsuspended : suspended.Perm s.suspendCoroutines)
    (hsome : s.wakeupCoroutines ++ blocked ++ suspended ≠ []) :
    Unwinding s₀ { s.interrupt blocked suspended .coroutineExit with pc := .unwinding } := by
  have hagrees := s.agrees_interrupt blocked suspended .coroutineExit
  have hcount : ∀ x, (s.interrupt blocked suspended .coroutineExit).wakeupCoroutines.count x
      = s.wakeupCoroutines.count x + s.unanswered x := by
    intro x
    have hb := hblocked.count_eq x
    have hsu := hsuspended.count_eq x
    simp only [State.interrupt, State.unanswered, hpc, Pc.current, List.count_append, List.count_nil]
    omega
  have hlive : ∀ x, State.live { s.interrupt blocked suspended .coroutineExit with
      pc := .unwinding } x = s.live x := fun x => State.live_congr rfl (hagrees.finished x)
  have hnone : ∀ x, State.unanswered { s.interrupt blocked suspended .coroutineExit with
      pc := .unwinding } x = 0 := fun x => rfl
  refine ⟨trivial, fun x => ?_, fun x hx => ?_, fun x hx => ?_, fun x hx => ?_,
    hs.started.congr rfl hagrees.started, fun _ => hsome⟩
  · rw [hlive, ← hs.once x, hnone, State.queued, State.queued]
    change s.spawnCoroutines.count x
      + (s.interrupt blocked suspended .coroutineExit).wakeupCoroutines.count x + 0 = _
    rw [hcount]
    omega
  · exact (hagrees.destroyed x).trans (hs.intact x ((hlive x).symm.trans hx))
  · exact (hagrees.started x).trans (hs.spawned x hx)
  · rw [hnone] at hx
    refine (hagrees.started x).trans (hs.waiting x ?_)
    have := hcount x
    change 0 < (s.interrupt blocked suspended .coroutineExit).wakeupCoroutines.count x + 0 at hx
    omega

theorem Coroutine.switchTo_started {c : Coroutine V} (hstarted : c.started = true) :
    c.switchTo.2.started = true := by
  rw [Coroutine.switchTo, if_pos hstarted]
  exact hstarted

theorem Unwinding.unwind {s₀ s : State V} (hs : Unwinding s₀ s) {co : Nat} {rest : List Nat}
    (hpc : s.pc = .unwinding) (hwoken : s.wakeupCoroutines = co :: rest) :
    Unwinding s₀ { (s.switchTo co .unwinding).2 with wakeupCoroutines := rest } := by
  have hsame := s.switchTo_same co .unwinding
  have hco : (s.co co).started = true := hs.waiting co (by
    rw [hwoken, List.count_cons_self]
    omega)
  have hstarted : ∀ x, ((s.switchTo co .unwinding).2.co x).started = (s.co x).started := by
    intro x
    by_cases hx : x = co
    · subst hx
      rw [State.switchTo_co, if_pos rfl, Coroutine.switchTo_started hco, hco]
    · exact (hsame x).2.2 hx
  have hlive : ∀ x, State.live { (s.switchTo co .unwinding).2 with wakeupCoroutines := rest } x
      = s.live x := fun x => State.live_congr rfl (hsame x).2.1
  have hunanswered : ∀ x, State.unanswered
      { (s.switchTo co .unwinding).2 with wakeupCoroutines := rest } x
        = s.unanswered x + [co].count x := by
    intro x
    simp only [State.unanswered, State.switchTo, State.setCo, hpc, Pc.current, List.count_nil]
    omega
  have hrest : ∀ x, s.wakeupCoroutines.count x = rest.count x + [co].count x := by
    intro x
    rw [hwoken, List.count_cons, List.count_cons, List.count_nil]
    omega
  refine ⟨trivial, fun x => ?_, fun x hx => ?_, fun x hx => ?_, fun x hx => ?_,
    hs.started.congr rfl hstarted, Pc.noConfusion⟩
  · rw [hlive, ← hs.once x, hunanswered, State.queued, State.queued, hrest]
    change s.spawnCoroutines.count x + rest.count x + _ = _
    omega
  · exact (hsame x).1.trans (hs.intact x ((hlive x).symm.trans hx))
  · exact (hstarted x).trans (hs.spawned x hx)
  · rw [hunanswered] at hx
    refine (hstarted x).trans (hs.waiting x ?_)
    rw [hrest]
    change 0 < rest.count x + _ at hx
    omega

/-- The coroutine that runs has switched back, and waits or has ended. -/
theorem Unwinding.back {s₀ s s' : State V} (hs : Unwinding s₀ s)
    (hpc : s'.pc = if s'.wakeupCoroutines = [] then .exiting else .unwinding)
    (hcreated : s'.created = s.created) (hspawned : s'.spawnCoroutines = s.spawnCoroutines)
    (hwoken : s'.wakeupCoroutines = s.wakeupCoroutines)
    (hdestroyed : ∀ x, (s'.co x).destroyed = (s.co x).destroyed)
    (hstarted : ∀ x, (s'.co x).started = (s.co x).started)
    (hended : ∀ x, s'.live x ≤ s.live x)
    (hbalance : ∀ x, s'.unanswered x + s.live x = s.unanswered x + s'.live x) :
    Unwinding s₀ s' := by
  refine ⟨?_, fun x => ?_, fun x hx => ?_, fun x hx => ?_, fun x hx => ?_,
    hs.started.congr hcreated hstarted, fun h hnil => ?_⟩
  · rw [hpc]
    split <;> trivial
  · have honce := hs.once x
    have hbalance := hbalance x
    simp only [State.queued, hspawned, hwoken] at honce ⊢
    omega
  · have hone : s.live x = 1 := by
      have hle := hended x
      have hmax := s.live_le_one x
      omega
    exact (hdestroyed x).trans (hs.intact x hone)
  · exact (hstarted x).trans (hs.spawned x (hspawned ▸ hx))
  · refine (hstarted x).trans (hs.waiting x ?_)
    have hle := hended x
    have hbalance := hbalance x
    rw [hwoken] at hx
    omega
  · rw [hpc, if_pos hnil] at h
    cases h

theorem State.switchBack_unwinding (s : State V) (co : Nat) :
    (s.switchBack co .unwinding).pc
      = if (s.switchBack co .unwinding).wakeupCoroutines = [] then .exiting else .unwinding := by
  cases hexception : (s.co co).result.exception with
  | none =>
      rw [State.switchBack_wait .unwinding hexception]
      rfl
  | some e =>
      rw [State.switchBack_end .unwinding hexception]
      exact if_neg fun h => h.2 rfl

theorem Unwinding.suspend {s₀ s : State V} (hs : Unwinding s₀ s) {co : Nat}
    (hpc : s.pc = .running co .unwinding) :
    Unwinding s₀ ((s.suspend co).switchBack co .unwinding) := by
  obtain ⟨hloops, hcreated, hspawned, hwoken, hsuspended, hblocked, hagrees⟩ :=
    (s.suspend co).switchBack_spec co .unwinding
  have hlive : ∀ x, ((s.suspend co).switchBack co .unwinding).live x = s.live x := fun x =>
    State.live_congr hcreated (hagrees.finished x)
  have hnot : co ∉ s.suspendCoroutines := by
    intro hmem
    have honce := hs.once co
    have hpositive := List.count_pos_iff.mpr hmem
    have hmax := s.live_le_one co
    simp only [State.unanswered, hpc, Pc.current, List.count_cons_self] at honce
    omega
  refine hs.back ((s.suspend co).switchBack_unwinding co) hcreated hspawned hwoken
    hagrees.destroyed hagrees.started (fun x => (hlive x).le) fun x => ?_
  rw [hlive]
  simp only [State.unanswered, hloops.1, hsuspended, hblocked]
  simp only [State.suspend, hpc, Pc.current, List.insert_of_not_mem hnot, List.count_cons,
    List.count_nil]
  omega

theorem Unwinding.block {s₀ s : State V} (hs : Unwinding s₀ s) {co : Nat} {session : SessionT}
    (hpc : s.pc = .running co .unwinding)
    (hdistinct : ∀ other, (session, other) ∉ s.blockSessions) :
    Unwinding s₀ ((s.block session co).switchBack co .unwinding) := by
  obtain ⟨hloops, hcreated, hspawned, hwoken, hsuspended, hblocked, hagrees⟩ :=
    (s.block session co).switchBack_spec co .unwinding
  have hlive : ∀ x, ((s.block session co).switchBack co .unwinding).live x = s.live x := fun x =>
    State.live_congr hcreated (hagrees.finished x)
  have hkept : s.blockSessions.filter (fun entry => entry.1 ≠ session) = s.blockSessions :=
    List.filter_eq_self.mpr fun entry hentry => decide_eq_true fun heq =>
      hdistinct entry.2 (heq ▸ hentry)
  refine hs.back ((s.block session co).switchBack_unwinding co) hcreated hspawned hwoken
    hagrees.destroyed hagrees.started (fun x => (hlive x).le) fun x => ?_
  rw [hlive]
  simp only [State.unanswered, hloops.1, hsuspended, hblocked]
  simp only [State.block, hkept, hpc, Pc.current, List.map_cons, List.count_cons, List.count_nil]
  omega

theorem Unwinding.finish {s₀ s : State V} (hs : Unwinding s₀ s) {co : Nat} {e : Thrown}
    (hpc : s.pc = .running co .unwinding) :
    Unwinding s₀ ((s.finish co e).switchBack co .unwinding) := by
  obtain ⟨hloops, hcreated, hspawned, hwoken, hsuspended, hblocked, -⟩ :=
    s.finish_spec co .unwinding e
  have hsame := s.finish_same co .unwinding e
  have hrunning : s.live co = 1 := by
    have honce := hs.once co
    have hmax := s.live_le_one co
    simp only [State.unanswered, hpc, Pc.current, List.count_cons_self] at honce
    omega
  have hlive : ∀ x, ((s.finish co e).switchBack co .unwinding).live x + [co].count x = s.live x := by
    intro x
    by_cases hx : x = co
    · subst hx
      rw [hrunning, List.count_cons_self, List.count_nil, State.live, if_neg]
      rw [(hsame x).2.2, if_pos rfl]
      exact fun h => Bool.noConfusion h.2
    · rw [List.count_cons_of_ne (Ne.symm hx), List.count_nil]
      refine State.live_congr hcreated ?_
      rw [(hsame x).2.2, if_neg hx]
  refine hs.back ((s.finish co e).switchBack_unwinding co) hcreated hspawned hwoken
    (fun x => (hsame x).1) (fun x => (hsame x).2.1) (fun x => ?_) fun x => ?_
  · have := hlive x
    omega
  · have := hlive x
    simp only [State.unanswered, hloops.1, hsuspended, hblocked]
    simp only [hpc, Pc.current, List.count_nil]
    omega

theorem Unwinding.spawn {s₀ s : State V} (hs : Unwinding s₀ s) {co : Nat}
    (hpc : s.pc = .running co .unwinding) : Unwinding s₀ s.spawn := by
  have hself : s.spawn.co s.created = .create := State.setCo_same _ _ _
  have hother : ∀ {x}, x ≠ s.created → s.spawn.co x = s.co x := fun hx =>
    Function.update_of_ne hx _ _
  have hborn : ∀ {x}, x < s.created → s.spawn.co x = s.co x := fun hx => hother (Nat.ne_of_lt hx)
  have hunborn : s.live s.created = 0 := if_neg fun h => Nat.lt_irrefl _ h.1
  have hlive : ∀ x, s.spawn.live x = s.live x + [s.created].count x := by
    intro x
    by_cases hx : x = s.created
    · subst hx
      rw [hunborn, List.count_cons_self, List.count_nil, State.live, if_pos]
      exact ⟨Nat.lt_succ_self _, by rw [hself]; rfl⟩
    · rw [List.count_cons_of_ne (Ne.symm hx), List.count_nil]
      have hlt : x < s.created + 1 ↔ x < s.created := by omega
      unfold State.live
      rw [hother hx]
      simp only [State.spawn, hlt]
      rfl
  have hwaiting : ∀ x, 0 < s.wakeupCoroutines.count x + s.unanswered x → x < s.created := by
    intro x hx
    refine (State.live_eq_one ?_).1
    rw [← hs.once x, State.queued]
    omega
  refine ⟨?_, fun x => ?_, fun x hx => ?_, fun x hx => ?_, fun x hx => ?_, fun x => ?_,
    fun h => ?_⟩
  · change s.pc.Unwinds
    exact hs.pc
  · rw [hlive, ← hs.once x]
    simp only [State.queued, State.unanswered, State.spawn, State.setCo, List.count_append]
    omega
  · by_cases hx' : x = s.created
    · subst hx'
      rw [hself]
      rfl
    · rw [hother hx']
      rw [hlive, List.count_cons_of_ne (Ne.symm hx'), List.count_nil] at hx
      exact hs.intact x hx
  · by_cases hx' : x = s.created
    · subst hx'
      rw [hself]
      rfl
    · rw [hother hx']
      simp only [State.spawn, State.setCo, List.count_append, List.count_cons_of_ne (Ne.symm hx'),
        List.count_nil] at hx
      exact hs.spawned x hx
  · rw [hborn (hwaiting x hx)]
    exact hs.waiting x hx
  · rw [← hs.started x]
    by_cases hx' : x = s.created
    · subst hx'
      rw [hself]
      exact ⟨fun h => Bool.noConfusion h.2, fun h => absurd h.1 (Nat.lt_irrefl _)⟩
    · have hlt : x < s.spawn.created ↔ x < s.created := by
        change x < s.created + 1 ↔ _
        omega
      rw [hother hx', hlt]
  · change s.pc = .unwinding at h
    rw [hpc] at h
    cases h

theorem Unwinding.wakeup {s₀ s : State V} (hs : Unwinding s₀ s) {co other : Nat}
    (hpc : s.pc = .running co .unwinding) : Unwinding s₀ (s.wakeup other) := by
  obtain ⟨hco, hcreated, hpc', hspawned, -, hblocked⟩ := s.wakeup_eq other
  have hstarted : ∀ x, ((s.wakeup other).co x).started = (s.co x).started := fun x => by rw [hco]
  have hlive : ∀ x, (s.wakeup other).live x = s.live x := fun x =>
    State.live_congr hcreated (by rw [hco])
  have hbalance : ∀ x, (s.wakeup other).wakeupCoroutines.count x + (s.wakeup other).unanswered x
      = s.wakeupCoroutines.count x + s.unanswered x := by
    intro x
    have := (s.wakeup_count other x).1
    simp only [State.unanswered, hpc', hblocked]
    omega
  refine ⟨by rw [hpc']; exact hs.pc, fun x => ?_, fun x hx => ?_, fun x hx => ?_, fun x hx => ?_,
    hs.started.congr hcreated hstarted, fun h => ?_⟩
  · have := hbalance x
    have := hs.once x
    rw [hlive]
    simp only [State.queued, hspawned] at *
    omega
  · rw [hco]
    exact hs.intact x ((hlive x).symm.trans hx)
  · exact (hstarted x).trans (hs.spawned x (hspawned ▸ hx))
  · exact (hstarted x).trans (hs.waiting x (hbalance x ▸ hx))
  · rw [hpc', hpc] at h
    cases h

/-- A change of the inbox alone. -/
theorem Unwinding.inbox {s₀ s : State V} (hs : Unwinding s₀ s) (inbox : List (Message V))
    (inboxCoroutine : Option Nat) : Unwinding s₀ { s with inbox, inboxCoroutine } :=
  ⟨hs.pc, hs.once, hs.intact, hs.spawned, hs.waiting, hs.started, hs.woken⟩

/-- A round that finds nothing to resume: what is live has not started. -/
theorem Unwinding.leave {s₀ s : State V} (hs : Unwinding s₀ s) {blocked suspended : List Nat}
    (hpc : s.pc = .exiting) (hblocked : blocked.Perm (s.blockSessions.map Prod.snd))
    (hsuspended : suspended.Perm s.suspendCoroutines)
    (hnone : s.wakeupCoroutines ++ blocked ++ suspended = []) :
    Unwound s₀ { s.interrupt blocked suspended .coroutineExit with pc := .abandoning } := by
  have hagrees := s.agrees_interrupt blocked suspended .coroutineExit
  rw [List.append_eq_nil_iff, List.append_eq_nil_iff] at hnone
  obtain ⟨⟨hwoken, rfl⟩, rfl⟩ := hnone
  refine ⟨Or.inl rfl, fun x hx hstarted => ?_, hs.started.congr rfl hagrees.started, by simp⟩
  rw [hagrees.started] at hstarted
  rw [hagrees.finished]
  by_contra hunfinished
  have hlive : s.live x = 1 := if_pos ⟨hx, Bool.eq_false_iff.mpr hunfinished⟩
  have hspawned : 0 < s.spawnCoroutines.count x := by
    have honce := hs.once x
    have hb := hblocked.count_eq x
    have hsu := hsuspended.count_eq x
    simp only [State.queued, State.unanswered, hwoken, hpc, Pc.current, List.count_nil, hlive] at *
    omega
  rw [hs.spawned x hspawned] at hstarted
  cases hstarted

/-! ### The whole of `exit()` -/

theorem Step.unwinding {s₀ s s' : State V} {label : Label V} (hstep : Step s label s')
    (hdrains : label.Drains s) (hs : Unwinding s₀ s) : Unwinding s₀ s' ∨ Unwound s₀ s' := by
  have hloop := hs.pc
  cases hstep with
  | interrupt blocked suspended hpc hblocked hsuspended =>
      by_cases hnone : s.wakeupCoroutines ++ blocked ++ suspended = []
      · rw [if_pos hnone]
        exact Or.inr (hs.leave hpc hblocked hsuspended hnone)
      · rw [if_neg hnone]
        exact Or.inl (hs.interrupt hpc hblocked hsuspended hnone)
  | unwind co rest hpc hwoken hco => exact Or.inl (hs.unwind hpc hwoken)
  | spawn co caller hpc =>
      cases caller with
      | unwinding => exact Or.inl (hs.spawn hpc)
      | _ => rw [hpc] at hloop; exact hloop.elim
  | wakeup co other caller hpc =>
      cases caller with
      | unwinding => exact Or.inl (hs.wakeup hpc)
      | _ => rw [hpc] at hloop; exact hloop.elim
  | awaitInbox co => exact Or.inl (hs.inbox s.inbox (some co))
  | takeInbox co caller msg rest => exact Or.inl (hs.inbox rest s.inboxCoroutine)
  | suspend co caller hpc =>
      cases caller with
      | unwinding => exact Or.inl (hs.suspend hpc)
      | _ => rw [hpc] at hloop; exact hloop.elim
  | block co caller session hpc =>
      cases caller with
      | unwinding => exact Or.inl (hs.block hpc hdrains)
      | _ => rw [hpc] at hloop; exact hloop.elim
  | finish co caller e hpc =>
      cases caller with
      | unwinding => exact Or.inl (hs.finish hpc)
      | _ => rw [hpc] at hloop; exact hloop.elim
  | destructorSpawn => exact hdrains.elim
  | destructorWakeup other hpc =>
      obtain hpc | ⟨exiting, hpc⟩ := hpc.cases <;>
      · rw [hpc] at hloop
        exact hloop.elim
  | dispatch hpc | enter hpc | leave hpc | dispatched hpc | resumeSpawned _ _ hpc
  | spawningDone hpc | resumeWoken _ _ hpc | wakingDone hpc | wakeServer _ hpc | abandon hpc
  | sweep hpc | exited hpc | takeNothing hpc | take _ hpc =>
      rw [hpc] at hloop
      exact hloop.elim

theorem Step.unwound {s₀ s s' : State V} {label : Label V} (hstep : Step s label s')
    (hdrains : label.Drains s) (hdrained : s.Drained) (hs : Unwound s₀ s) : Unwound s₀ s' := by
  obtain ⟨htail, hended, hstarted, hrevived⟩ := hs
  cases hstep with
  | abandon hpc => exact ⟨Or.inr (Or.inl rfl), hended, hstarted, by simp⟩
  | sweep hpc =>
      refine ⟨?_, hended, hstarted, fun _ => rfl⟩
      obtain hpc | hpc := s.sweepZombies_pc true <;> simp [hpc]
  | exited hpc => exact ⟨by simp, hended, hstarted, fun _ => hrevived (Or.inl hpc)⟩
  | destructorSpawn => exact hdrains.elim
  | destructorWakeup other hpc hother =>
      -- nothing is suspended by now
      obtain hpc | ⟨exiting, hpc⟩ := hpc.cases <;> rw [hpc] at htail
      · simp at htail
      · obtain rfl : exiting = true := by simpa using htail
        simp only [State.Drained, hpc] at hdrained
        rw [hdrained.2.1] at hother
        exact absurd hother List.not_mem_nil
  | dispatch hpc | enter hpc | leave hpc | dispatched hpc | resumeSpawned _ _ hpc
  | spawningDone hpc | resumeWoken _ _ hpc | wakingDone hpc | wakeServer _ hpc
  | interrupt _ _ hpc | unwind _ _ hpc | takeNothing hpc | take _ hpc | spawn _ _ hpc
  | wakeup _ _ _ hpc | awaitInbox _ _ hpc | takeInbox _ _ _ _ hpc | suspend _ _ hpc
  | block _ _ _ hpc | finish _ _ _ hpc =>
      rw [hpc] at htail
      simp at htail

theorem Unwinding.progress {s₀ s : State V} (hs : Unwinding s₀ s) (hidle : s.pc.current = []) :
    ∃ label s', Step s label s' := by
  have hloop := hs.pc
  cases hpc : s.pc with
  | exiting => exact ⟨_, _, Step.interrupt _ _ hpc (List.Perm.refl _) (List.Perm.refl _)⟩
  | unwinding =>
      obtain ⟨co, rest, hwoken⟩ := List.exists_cons_of_ne_nil (hs.woken hpc)
      have hlive : 0 < s.live co := by
        rw [← hs.once co, State.queued, hwoken, List.count_cons_self]
        omega
      have hone : s.live co = 1 := le_antisymm (s.live_le_one co) hlive
      exact ⟨_, _, Step.unwind co rest hpc hwoken ⟨(State.live_eq_one hlive).2, hs.intact co hone⟩⟩
  | running co caller =>
      rw [hpc] at hidle
      cases hidle
  | idle | outer | spawning | waking | abandoning | sweeping | destroying | taking | down
  | crashed =>
      rw [hpc] at hloop
      exact hloop.elim

theorem Unwinding.inExit {s₀ s : State V} (hs : Unwinding s₀ s) : s.pc.InExit ∧ s.pc ≠ .down := by
  have hloop := hs.pc
  cases hpc : s.pc with
  | exiting | unwinding => exact ⟨trivial, nofun⟩
  | running co caller =>
      rw [hpc] at hloop
      exact ⟨hloop, nofun⟩
  | idle | outer | spawning | waking | abandoning | sweeping | destroying | taking | down
  | crashed =>
      rw [hpc] at hloop
      exact hloop.elim

theorem Unwound.progress {s₀ s : State V} (hs : Unwound s₀ s) (hreturned : s.pc ≠ .down)
    (hcrashed : s.pc ≠ .crashed) : ∃ label s', Step s label s' := by
  obtain hpc | hpc | hpc | hpc | hpc := hs.pc
  · exact ⟨_, _, Step.abandon hpc⟩
  · exact ⟨_, _, Step.sweep hpc⟩
  · exact ⟨_, _, Step.exited hpc⟩
  · exact absurd hpc hreturned
  · exact absurd hpc hcrashed

theorem Unwound.exited {s₀ s : State V} (hs : Unwound s₀ s) (hdown : s.pc = .down)
    (hdrained : s.Drained) : Exited s₀ s := by
  simp only [State.Drained, hdown, hs.revived (Or.inr hdown)] at hdrained
  obtain ⟨hsuspended, hblocked, hzombies, hrevived⟩ := hdrained
  obtain ⟨hspawned, hwoken⟩ := List.append_eq_nil_iff.mp (List.subset_nil.mp hrevived)
  exact ⟨hs.ended, hs.started, hspawned, hwoken, hsuspended, hblocked, hzombies⟩

/-- **Process exit.** Whatever else the coroutines do, `exit()` is left only by its return, and it
may go on whenever none of them runs, unless it has deleted one of them twice. When it returns, every
coroutine that has started has ended, those that have started are those that had when it was called,
and the five containers are empty. -/
theorem exit_drains {s₀ s : State V} (hs₀ : Settled s₀) (hpc : s₀.pc = .exiting)
    (hleads : draining.Leads s₀ s) :
    s.pc.InExit
      ∧ (s.pc.current = [] → s.pc ≠ .down → s.pc ≠ .crashed → ∃ label s', Step s label s')
      ∧ (s.pc = .down → Exited s₀ s) := by
  have hinvariant : (Unwinding s₀ s ∨ Unwound s₀ s) ∧ s.Drained := by
    refine System.Leads.keeps (P := fun s => (Unwinding s₀ s ∨ Unwound s₀ s) ∧ s.Drained) ?_ hleads
      ⟨Or.inl (hs₀.unwinding hpc), by simp [State.Drained, hpc]⟩
    rintro s label s' ⟨hs, hdrained⟩ ⟨hstep, hdrains⟩
    exact ⟨hs.elim (hstep.unwinding hdrains) fun h => Or.inr (hstep.unwound hdrains hdrained h),
      hstep.drained hdrained⟩
  obtain ⟨hunwinding | hunwound, hdrained⟩ := hinvariant
  · obtain ⟨hinExit, hup⟩ := hunwinding.inExit
    exact ⟨hinExit, fun hidle _ _ => hunwinding.progress hidle, fun hdown => absurd hdown hup⟩
  · refine ⟨?_, fun _ => hunwound.progress, fun hdown => hunwound.exited hdown hdrained⟩
    obtain hpc | hpc | hpc | hpc | hpc := hunwound.pc <;> rw [hpc] <;> trivial

/-- A process at its exit, with a blocked coroutine, one that is woken with a value, and one that has
not started. -/
def threeCoroutines : State Nat :=
  { State.fresh with
    pc := .exiting
    co := fun x => { Coroutine.create with started := x < 2 }
    created := 3
    spawnCoroutines := [2]
    wakeupCoroutines := [1]
    blockSessions := [(4, 0)] }

theorem settled_threeCoroutines : Settled threeCoroutines where
  once
    | 0 | 1 | 2 => rfl
    | co + 3 => (if_neg fun h => absurd h.1 (by simp [threeCoroutines])).symm
  intact _ _ := rfl
  spawned := by decide
  waiting := by decide

/-- The woken coroutine goes on with its value, spawns another one and suspends itself before it is
interrupted; the blocked one is interrupted at once and throws something else. Neither of the
coroutines that have not started does. -/
theorem exit_drains_three :
    ∃ s : State Nat, draining.Leads threeCoroutines s ∧ s.pc = .down ∧ Exited threeCoroutines s
      ∧ s.created = 4 ∧ (s.co 0).finished = true ∧ (s.co 1).finished = true
      ∧ (s.co 2).started = false ∧ (s.co 3).started = false
      ∧ ∀ co < 4, (s.co co).destroyed = 1 := by
  have h0 : draining.Leads threeCoroutines threeCoroutines := .refl
  have h1 := h0.tail ⟨_, Step.interrupt [0] [] rfl (List.Perm.refl _) (List.Perm.refl _), trivial⟩
  have h2 := h1.tail ⟨_, Step.unwind 1 [0] rfl rfl ⟨rfl, rfl⟩, trivial⟩
  have h3 := h2.tail ⟨_, Step.spawn 1 .unwinding rfl, trivial⟩
  have h4 := h3.tail ⟨_, Step.suspend 1 .unwinding rfl, trivial⟩
  have h5 := h4.tail ⟨_, Step.unwind 0 [] rfl rfl ⟨rfl, rfl⟩, trivial⟩
  have h6 := h5.tail ⟨_, Step.finish 0 .unwinding (.other 3) rfl, trivial⟩
  have h7 := h6.tail ⟨_, Step.interrupt [] [1] rfl (List.Perm.refl _) (List.Perm.refl _), trivial⟩
  have h8 := h7.tail ⟨_, Step.unwind 1 [] rfl rfl ⟨rfl, rfl⟩, trivial⟩
  have h9 := h8.tail ⟨_, Step.finish 1 .unwinding .coroutineExit rfl, trivial⟩
  have h10 := h9.tail ⟨_, Step.interrupt [] [] rfl (List.Perm.refl _) (List.Perm.refl _), trivial⟩
  have h11 := h10.tail ⟨_, Step.abandon rfl, trivial⟩
  have h12 := h11.tail ⟨_, Step.sweep rfl, trivial⟩
  have h13 := h12.tail ⟨_, Step.exited rfl, trivial⟩
  exact ⟨_, h13, rfl, (exit_drains settled_threeCoroutines rfl h13).2.2 rfl, rfl, rfl, rfl, rfl, rfl,
    by decide⟩

/-- A process at its exit, with two coroutines that are woken with values. -/
def twoWoken : State Nat :=
  { State.fresh with
    pc := .exiting
    co := fun _ => { Coroutine.create with started := true }
    created := 2
    spawnCoroutines := []
    wakeupCoroutines := [0, 1] }

theorem settled_twoWoken : Settled twoWoken where
  once
    | 0 | 1 => rfl
    | co + 2 => (if_neg fun h => absurd h.1 (by simp [twoWoken])).symm
  intact _ _ := rfl
  spawned := by decide
  waiting := by decide

/-- Both coroutines block on one session. Only the second one is interrupted and ends, and when it is
deleted something that its function owns spawns a coroutine. `exit()` returns, while the first one has
not ended and the spawned one is left in its container. -/
theorem exit_leaves_coroutines :
    ∃ s : State Nat, Settled twoWoken ∧ twoWoken.pc = .exiting ∧ system.Leads twoWoken s
      ∧ s.pc = .down ∧ (s.co 0).started = true ∧ (s.co 0).finished = false
      ∧ s.spawnCoroutines = [2] ∧ ¬ Exited twoWoken s := by
  have h0 : system.Leads twoWoken twoWoken := .refl
  have h1 := h0.tail ⟨_, Step.interrupt [] [] rfl (List.Perm.refl _) (List.Perm.refl _)⟩
  have h2 := h1.tail ⟨_, Step.unwind 0 [1] rfl rfl ⟨rfl, rfl⟩⟩
  have h3 := h2.tail ⟨_, Step.block 0 .unwinding 5 rfl⟩
  have h4 := h3.tail ⟨_, Step.unwind 1 [] rfl rfl ⟨rfl, rfl⟩⟩
  have h5 := h4.tail ⟨_, Step.block 1 .unwinding 5 rfl⟩
  have h6 := h5.tail ⟨_, Step.interrupt [1] [] rfl (List.Perm.refl _) (List.Perm.refl _)⟩
  have h7 := h6.tail ⟨_, Step.unwind 1 [] rfl rfl ⟨rfl, rfl⟩⟩
  have h8 := h7.tail ⟨_, Step.finish 1 .unwinding .coroutineExit rfl⟩
  have h9 := h8.tail ⟨_, Step.interrupt [] [] rfl (List.Perm.refl _) (List.Perm.refl _)⟩
  have h10 := h9.tail ⟨_, Step.abandon rfl⟩
  have h11 := h10.tail ⟨_, Step.sweep rfl⟩
  have h12 := h11.tail ⟨_, Step.destructorSpawn trivial⟩
  have h13 := h12.tail ⟨_, Step.exited rfl⟩
  refine ⟨_, settled_twoWoken, rfl, h13, rfl, rfl, rfl, rfl, fun hexited => ?_⟩
  exact absurd (hexited.ended 0 (by decide) rfl) (by decide)

end Stp.Coroutines
