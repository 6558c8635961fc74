import Stp.Coroutines.Machine

/-!
# What becomes of a coroutine in a step

For each function of the machine, what it leaves as it is; and from these, for each step and each
coroutine, what the step makes of the coroutine. A coroutine is queued while it is due to be resumed,
and unanswered while it runs or while it waits and has not been given an outcome. Only a resumption
makes a queued coroutine an unanswered one, and giving it an outcome ends that.
-/

namespace Stp.Coroutines

open Process

variable {V : Type*}

/-- The coroutine that runs. -/
def Pc.current : Pc → List Nat
  | .running co _ => [co]
  | _ => []

def State.queued (s : State V) (x : Nat) : Nat :=
  s.spawnCoroutines.count x + s.wakeupCoroutines.count x

def State.unanswered (s : State V) (x : Nat) : Nat :=
  s.pc.current.count x + s.suspendCoroutines.count x + (s.blockSessions.map Prod.snd).count x

/-! ### Switching back -/

theorem Result.getValue_wait {r : Result V} (hnone : r.exception = none) :
    r.getValue = (.ok r.value, { r with value := .empty }) := by
  unfold Result.getValue
  rw [hnone]

theorem Result.getValue_end {r : Result V} {e : Thrown} (hsome : r.exception = some e) :
    r.getValue = (.error e, r) := by
  unfold Result.getValue
  rw [hsome]

@[simp]
theorem State.setCo_same (s : State V) (co : Nat) (c : Coroutine V) : (s.setCo co c).co co = c :=
  Function.update_self _ _ _

theorem State.switchBack_wait {s : State V} {co : Nat} (caller : Caller)
    (hnone : (s.co co).result.exception = none) :
    s.switchBack co caller
      = { s.setCo co { s.co co with result := { (s.co co).result with value := .empty } } with
          pc := s.afterResume caller } := by
  simp only [State.switchBack, Result.getValue_wait hnone]

theorem State.switchBack_end {s : State V} {co : Nat} (caller : Caller) {e : Thrown}
    (hsome : (s.co co).result.exception = some e) :
    s.switchBack co caller
      = { s with
          zombieCoroutines := s.zombieCoroutines ++ [co]
          pc := if e = .processExit ∧ caller ≠ .unwinding then .exiting
            else s.afterResume caller } := by
  simp only [State.switchBack, Result.getValue_end hsome]

/-- Back in a loop of the process, no coroutine runs, and nothing has been abandoned yet. -/
def Pc.Loops (pc : Pc) : Prop :=
  pc.current = [] ∧ pc ≠ .abandoning ∧ pc ≠ .sweeping ∧ (∀ exiting, pc ≠ .destroying exiting)
    ∧ pc ≠ .down ∧ pc ≠ .crashed

theorem State.afterResume_loops (s : State V) (caller : Caller) : (s.afterResume caller).Loops := by
  cases caller with
  | spawning | waking => exact ⟨rfl, by simp [State.afterResume]⟩
  | unwinding =>
      simp only [State.afterResume]
      split <;> exact ⟨rfl, by simp⟩

/-! ### The containers and the mailbox -/

theorem State.wakeup_count (s : State V) (co x : Nat) :
    (s.wakeup co).wakeupCoroutines.count x + (s.wakeup co).suspendCoroutines.count x
        = s.wakeupCoroutines.count x + s.suspendCoroutines.count x
      ∧ (s.wakeup co).suspendCoroutines.count x ≤ s.suspendCoroutines.count x := by
  unfold State.wakeup
  split
  · next hmem =>
      have hperm := (List.perm_cons_erase hmem).count_eq x
      simp only [List.count_append, List.count_cons, List.count_nil] at *
      omega
  · exact ⟨rfl, Nat.le_refl _⟩

/-- Two tables of coroutines agree on what the program does not record. -/
structure Agrees (co co' : Nat → Coroutine V) : Prop where
  destroyed : ∀ x, (co' x).destroyed = (co x).destroyed
  started : ∀ x, (co' x).started = (co x).started
  finished : ∀ x, (co' x).finished = (co x).finished

theorem Agrees.refl (co : Nat → Coroutine V) : Agrees co co :=
  ⟨fun _ => rfl, fun _ => rfl, fun _ => rfl⟩

theorem State.agrees_setCo (s : State V) {co : Nat} {c : Coroutine V}
    (hdestroyed : c.destroyed = (s.co co).destroyed) (hstarted : c.started = (s.co co).started)
    (hfinished : c.finished = (s.co co).finished) : Agrees s.co (s.setCo co c).co := by
  refine ⟨fun x => ?_, fun x => ?_, fun x => ?_⟩ <;>
  · by_cases hx : x = co
    · subst hx
      simpa
    · simp [State.setCo, hx]

theorem State.agrees_interrupt (s : State V) (blocked suspended : List Nat) (e : Thrown) :
    Agrees s.co (s.interrupt blocked suspended e).co := by
  refine ⟨fun x => ?_, fun x => ?_, fun x => ?_⟩ <;>
  · simp only [State.interrupt]
    split <;> rfl

/-- What waking a coroutine leaves as it is. -/
structure Wakes (s s' : State V) : Prop where
  co : s'.co = s.co
  created : s'.created = s.created
  pc : s'.pc = s.pc
  spawned : s'.spawnCoroutines = s.spawnCoroutines
  zombies : s'.zombieCoroutines = s.zombieCoroutines
  blocked : s'.blockSessions = s.blockSessions

theorem State.wakeup_eq (s : State V) (co : Nat) : Wakes s (s.wakeup co) := by
  unfold State.wakeup
  split <;> exact ⟨rfl, rfl, rfl, rfl, rfl, rfl⟩

theorem Coroutine.answer_same (c : Coroutine V) (content : Content V) :
    (c.answer content).destroyed = c.destroyed ∧ (c.answer content).started = c.started
      ∧ (c.answer content).finished = c.finished := by
  cases content <;> exact ⟨rfl, rfl, rfl⟩

/-- A response moves a blocked coroutine to the woken ones, if it finds one. -/
theorem State.answer_spec (s : State V) (session : SessionT) (content : Content V) :
    Agrees s.co (s.answer session content).co ∧ (s.answer session content).created = s.created
      ∧ (s.answer session content).spawnCoroutines = s.spawnCoroutines
      ∧ (s.answer session content).zombieCoroutines = s.zombieCoroutines
      ∧ (s.answer session content).suspendCoroutines = s.suspendCoroutines
      ∧ ((s.answer session content).wakeupCoroutines
          ++ (s.answer session content).blockSessions.map Prod.snd).Perm
          (s.wakeupCoroutines ++ s.blockSessions.map Prod.snd) := by
  unfold State.answer State.unblock
  cases hfind : s.blockSessions.find? fun entry => entry.1 = session with
  | none => exact ⟨Agrees.refl _, rfl, rfl, rfl, rfl, List.Perm.refl _⟩
  | some entry =>
      obtain ⟨hdestroyed, hstarted, hfinished⟩ := (s.co entry.2).answer_same content
      refine ⟨s.agrees_setCo hdestroyed hstarted hfinished, rfl, rfl, rfl, rfl, ?_⟩
      have hperm := (List.perm_cons_erase (List.mem_of_find?_eq_some hfind)).map Prod.snd
      exact (List.Perm.of_eq (List.append_assoc _ _ _)).trans (hperm.symm.append_left _)

/-- A message changes the containers only by waking a coroutine that is blocked. -/
structure Receives (s s' : State V) : Prop where
  agrees : Agrees s.co s'.co
  created : s'.created = s.created
  loops : s'.pc.Loops
  spawned : s'.spawnCoroutines = s.spawnCoroutines
  zombies : s'.zombieCoroutines = s.zombieCoroutines
  suspended : s'.suspendCoroutines = s.suspendCoroutines
  perm : (s'.wakeupCoroutines ++ s'.blockSessions.map Prod.snd).Perm
    (s.wakeupCoroutines ++ s.blockSessions.map Prod.snd)

theorem State.receive_spec (s : State V) (msg : Message V) : Receives s (s.receive msg) := by
  unfold State.receive
  split
  · exact ⟨Agrees.refl _, rfl, ⟨rfl, by simp⟩, rfl, rfl, rfl, List.Perm.refl _⟩
  · obtain ⟨hagrees, hcreated, hspawned, hzombies, hsuspended, hperm⟩ :=
      s.answer_spec (-msg.session) msg.content
    exact ⟨hagrees, hcreated, ⟨rfl, by simp⟩, hspawned, hzombies, hsuspended, hperm⟩
  · split <;> exact ⟨Agrees.refl _, rfl, ⟨rfl, by simp⟩, rfl, rfl, rfl, List.Perm.refl _⟩

/-- `Coroutine::resume` takes nothing from the containers. -/
structure SwitchesTo (s s' : State V) (co : Nat) : Prop where
  current : s'.pc.current = [co]
  created : s'.created = s.created
  spawned : s'.spawnCoroutines = s.spawnCoroutines
  woken : s'.wakeupCoroutines = s.wakeupCoroutines
  suspended : s'.suspendCoroutines = s.suspendCoroutines
  blocked : s'.blockSessions = s.blockSessions
  zombies : s'.zombieCoroutines = s.zombieCoroutines

theorem State.switchTo_spec (s : State V) (co : Nat) (caller : Caller) :
    SwitchesTo s (s.switchTo co caller).2 co :=
  ⟨rfl, rfl, rfl, rfl, rfl, rfl, rfl⟩

theorem State.switchTo_co (s : State V) {co : Nat} (caller : Caller) {x : Nat} :
    (s.switchTo co caller).2.co x = if x = co then (s.co co).switchTo.2 else s.co x :=
  Function.update_apply _ _ _ _

theorem Coroutine.switchTo_same (c : Coroutine V) :
    c.switchTo.2.destroyed = c.destroyed ∧ c.switchTo.2.finished = c.finished := by
  unfold Coroutine.switchTo
  split <;> exact ⟨rfl, rfl⟩

theorem State.switchTo_same (s : State V) (co : Nat) (caller : Caller) (x : Nat) :
    ((s.switchTo co caller).2.co x).destroyed = (s.co x).destroyed
      ∧ ((s.switchTo co caller).2.co x).finished = (s.co x).finished
      ∧ (x ≠ co → ((s.switchTo co caller).2.co x).started = (s.co x).started) := by
  rw [State.switchTo_co]
  by_cases hx : x = co
  · subst hx
    rw [if_pos rfl]
    obtain ⟨hdestroyed, hfinished⟩ := (s.co x).switchTo_same
    exact ⟨hdestroyed, hfinished, fun hne => absurd rfl hne⟩
  · rw [if_neg hx]
    exact ⟨rfl, rfl, fun _ => rfl⟩

/-- Whatever the process makes of a coroutine that switched back, it only adds it to the zombies. -/
structure SwitchesBack (s s' : State V) : Prop where
  loops : s'.pc.Loops
  created : s'.created = s.created
  spawned : s'.spawnCoroutines = s.spawnCoroutines
  woken : s'.wakeupCoroutines = s.wakeupCoroutines
  suspended : s'.suspendCoroutines = s.suspendCoroutines
  blocked : s'.blockSessions = s.blockSessions
  agrees : Agrees s.co s'.co

theorem State.switchBack_spec (s : State V) (co : Nat) (caller : Caller) :
    SwitchesBack s (s.switchBack co caller) := by
  cases hexception : (s.co co).result.exception with
  | none =>
      rw [State.switchBack_wait caller hexception]
      exact ⟨s.afterResume_loops caller, rfl, rfl, rfl, rfl, rfl, s.agrees_setCo rfl rfl rfl⟩
  | some e =>
      rw [State.switchBack_end caller hexception]
      refine ⟨?_, rfl, rfl, rfl, rfl, rfl, Agrees.refl _⟩
      split
      · exact ⟨rfl, by simp⟩
      · exact State.afterResume_loops _ caller

theorem State.switchBack_zombies (s : State V) (co : Nat) (caller : Caller) :
    (s.switchBack co caller).zombieCoroutines
      = if (s.co co).result.exception = none then s.zombieCoroutines
        else s.zombieCoroutines ++ [co] := by
  cases hexception : (s.co co).result.exception with
  | none =>
      rw [State.switchBack_wait caller hexception]
      rfl
  | some e =>
      rw [State.switchBack_end caller hexception]
      rfl

/-- A coroutine that has ended is among the zombies when its caller goes on. -/
structure Finishes (s s' : State V) (co : Nat) : Prop where
  loops : s'.pc.Loops
  created : s'.created = s.created
  spawned : s'.spawnCoroutines = s.spawnCoroutines
  woken : s'.wakeupCoroutines = s.wakeupCoroutines
  suspended : s'.suspendCoroutines = s.suspendCoroutines
  blocked : s'.blockSessions = s.blockSessions
  zombies : s'.zombieCoroutines = s.zombieCoroutines ++ [co]

theorem State.finish_spec (s : State V) (co : Nat) (caller : Caller) (e : Thrown) :
    Finishes s ((s.finish co e).switchBack co caller) co := by
  obtain ⟨hloops, hcreated, hspawned, hwoken, hsuspended, hblocked, -⟩ :=
    (s.finish co e).switchBack_spec co caller
  refine ⟨hloops, hcreated, hspawned, hwoken, hsuspended, hblocked, ?_⟩
  rw [State.switchBack_zombies, if_neg]
  · rfl
  · simp [State.finish, Coroutine.finish, Result.setException]

theorem State.finish_same (s : State V) (co : Nat) (caller : Caller) (e : Thrown) (x : Nat) :
    let s' := (s.finish co e).switchBack co caller
    (s'.co x).destroyed = (s.co x).destroyed ∧ (s'.co x).started = (s.co x).started
      ∧ (s'.co x).finished = if x = co then true else (s.co x).finished := by
  obtain ⟨-, -, -, -, -, -, hagrees⟩ := (s.finish co e).switchBack_spec co caller
  intro s'
  simp only [s', hagrees.destroyed, hagrees.started, hagrees.finished]
  by_cases hx : x = co
  · subst hx
    simp [State.finish, Coroutine.finish]
  · simp [State.finish, State.setCo, hx]

theorem State.switchBack_co (s : State V) {co : Nat} (caller : Caller) {x : Nat} (hx : x ≠ co) :
    (s.switchBack co caller).co x = s.co x := by
  cases hexception : (s.co co).result.exception with
  | none =>
      rw [State.switchBack_wait caller hexception]
      exact Function.update_of_ne hx _ _
  | some e => rw [State.switchBack_end caller hexception]

/-! ### Fates -/

def Coroutine.give (c : Coroutine V) : Outcome V → Coroutine V
  | .ok value => c.setResult value
  | .error e => c.setException e

/-- A coroutine that switched back: a value left in its `Result` is gone. -/
def Coroutine.Waits (c c' : Coroutine V) : Prop :=
  c' = c ∨ (c.result.exception = none
    ∧ c' = { c with result := { c.result with value := .empty } })

/-- What a step from `s` to `s'` does to coroutine `x`. -/
inductive Fate (s : State V) (label : Label V) (s' : State V) (x : Nat) : Prop
  | stays (n : Nat) (hco : s'.co x = { s.co x with destroyed := n })
      (hlive : s'.queued x + s'.unanswered x ≤ s.queued x + s.unanswered x)
      (hunanswered : s'.unanswered x ≤ s.unanswered x)
  | spawned (hx : x = s.created) (hcreated : s'.created = s.created + 1) (hco : s'.co x = .create)
      (hqueued : s'.queued x = s.queued x + 1) (hunanswered : s'.unanswered x = s.unanswered x)
  | resumed (hlabel : label = .resume x (s.co x).switchTo.1)
      (hco : s'.co x = (s.co x).switchTo.2) (hqueued : s'.queued x + 1 = s.queued x)
      (hunanswered : s'.unanswered x = s.unanswered x + 1)
  | waits (hrunning : 0 < s.unanswered x) (hco : (s.co x).Waits (s'.co x))
      (hqueued : s'.queued x = s.queued x) (hunanswered : s'.unanswered x ≤ s.unanswered x)
  | given (outcome : Outcome V) (hco : s'.co x = (s.co x).give outcome)
      (hlive : s'.queued x + s'.unanswered x = s.queued x + s.unanswered x)
      (hunanswered : s'.unanswered x < s.unanswered x)
  | finished (e : Thrown) (hco : s'.co x = (s.co x).finish e) (hqueued : s'.queued x = s.queued x)
      (hunanswered : s'.unanswered x < s.unanswered x)

theorem Fate.same {s s' : State V} {label : Label V} {x : Nat} (hco : s'.co x = s.co x)
    (hlive : s'.queued x + s'.unanswered x ≤ s.queued x + s.unanswered x)
    (hunanswered : s'.unanswered x ≤ s.unanswered x) : Fate s label s' x :=
  .stays (s.co x).destroyed hco hlive hunanswered

theorem Coroutine.answer_eq_give (c : Coroutine V) (content : Content V) :
    ∃ outcome, c.answer content = c.give outcome := by
  cases content with
  | exception e => exact ⟨.error e, rfl⟩
  | empty => exact ⟨.ok .empty, rfl⟩
  | value v => exact ⟨.ok (.value v), rfl⟩
  | killProcess => exact ⟨.ok .killProcess, rfl⟩

theorem State.answer_fate (s : State V) (session : SessionT) (content : Content V) (label : Label V)
    (x : Nat) : Fate s label (s.answer session content) x := by
  unfold State.answer State.unblock
  cases hfind : s.blockSessions.find? fun entry => entry.1 = session with
  | none => exact .same rfl (Nat.le_refl _) (Nat.le_refl _)
  | some entry =>
      have hmem := List.mem_of_find?_eq_some hfind
      have hperm := ((List.perm_cons_erase hmem).map Prod.snd).count_eq x
      by_cases hx : x = entry.2
      · subst hx
        obtain ⟨outcome, houtcome⟩ := (s.co entry.2).answer_eq_give content
        refine .given outcome ?_ ?_ ?_
        · simpa only [State.setCo_same] using houtcome
        all_goals
          simp only [List.map_cons, List.count_cons_self] at hperm
          simp only [State.queued, State.unanswered, State.setCo, List.count_append,
            List.count_cons_self, List.count_nil]
          omega
      · refine .same ?_ ?_ ?_
        · simp [State.setCo, hx]
        all_goals
          simp only [List.map_cons, List.count_cons_of_ne (Ne.symm hx)] at hperm
          simp only [State.queued, State.unanswered, State.setCo, List.count_append,
            List.count_cons_of_ne (Ne.symm hx), List.count_nil]
          omega

theorem State.unanswered_setPc (s : State V) {pc : Pc} (hpc : pc.current = s.pc.current) (x : Nat) :
    { s with pc := pc }.unanswered x = s.unanswered x := by
  simp only [State.unanswered, hpc]

theorem Fate.setPc {s s' : State V} {label : Label V} {x : Nat} (hfate : Fate s label s' x) {pc : Pc}
    (hpc : pc.current = s'.pc.current) : Fate s label { s' with pc := pc } x := by
  have hsame := s'.unanswered_setPc hpc x
  cases hfate with
  | stays n hco hlive hunanswered => exact .stays n hco (hsame ▸ hlive) (hsame ▸ hunanswered)
  | spawned hx hcreated hco hqueued hunanswered =>
      exact .spawned hx hcreated hco hqueued (hsame.trans hunanswered)
  | resumed hlabel hco hqueued hunanswered =>
      exact .resumed hlabel hco hqueued (hsame.trans hunanswered)
  | waits hrunning hco hqueued hunanswered =>
      exact .waits hrunning hco hqueued (hsame ▸ hunanswered)
  | given outcome hco hlive hunanswered =>
      exact .given outcome hco (hsame ▸ hlive) (hsame ▸ hunanswered)
  | finished e hco hqueued hunanswered => exact .finished e hco hqueued (hsame ▸ hunanswered)

theorem Fate.setRevived {s s' : State V} {label : Label V} {x : Nat} (hfate : Fate s label s' x)
    (revived : List Nat) : Fate s label { s' with revived } x := by
  cases hfate with
  | stays n hco hlive hunanswered => exact .stays n hco hlive hunanswered
  | spawned hx hcreated hco hqueued hunanswered =>
      exact .spawned hx hcreated hco hqueued hunanswered
  | resumed hlabel hco hqueued hunanswered => exact .resumed hlabel hco hqueued hunanswered
  | waits hrunning hco hqueued hunanswered => exact .waits hrunning hco hqueued hunanswered
  | given outcome hco hlive hunanswered => exact .given outcome hco hlive hunanswered
  | finished e hco hqueued hunanswered => exact .finished e hco hqueued hunanswered

theorem State.sweepZombies_pc (s : State V) (exiting : Bool) :
    (s.sweepZombies exiting).pc = .destroying exiting ∨ (s.sweepZombies exiting).pc = .crashed := by
  simp only [State.sweepZombies]
  split
  · exact Or.inl rfl
  · exact Or.inr rfl

theorem State.sweepZombies_current (s : State V) (exiting : Bool) :
    (s.sweepZombies exiting).pc.current = [] := by
  obtain hpc | hpc := s.sweepZombies_pc exiting <;> rw [hpc] <;> rfl

theorem State.sweepZombies_fate (s : State V) (exiting : Bool) (x : Nat)
    (hcurrent : s.pc.current = []) : Fate s .tau (s.sweepZombies exiting) x := by
  have hunanswered : (s.sweepZombies exiting).unanswered x = s.unanswered x := by
    simp only [State.unanswered, s.sweepZombies_current exiting, hcurrent]
    rfl
  exact .stays _ rfl (Nat.add_le_add_left hunanswered.le _) hunanswered.le

theorem State.wakeup_fate (s : State V) (co : Nat) (label : Label V) (x : Nat) :
    Fate s label (s.wakeup co) x := by
  obtain ⟨hco, -, hpc, hspawned, -, hblocked⟩ := s.wakeup_eq co
  obtain ⟨hcount, hle⟩ := s.wakeup_count co x
  refine .same (congrFun hco x) ?_ ?_ <;>
  · simp only [State.queued, State.unanswered, hspawned, hblocked, hpc]
    omega

theorem State.spawn_fate (s : State V) (label : Label V) (x : Nat) : Fate s label s.spawn x := by
  by_cases hx : x = s.created
  · subst hx
    refine .spawned rfl rfl (State.setCo_same _ _ _) ?_ rfl
    simp only [State.queued, State.spawn, State.setCo, List.count_append, List.count_cons_self,
      List.count_nil]
    omega
  · refine .same (Function.update_of_ne hx _ _) ?_ (Nat.le_refl _)
    simp only [State.queued, State.unanswered, State.spawn, State.setCo, List.count_append,
      List.count_cons_of_ne (Ne.symm hx), List.count_nil]
    omega

theorem State.answer_pc (s : State V) (session : SessionT) (content : Content V) :
    (s.answer session content).pc = s.pc := by
  unfold State.answer State.unblock
  split <;> rename_i heq <;> split at heq <;> cases heq <;> rfl

theorem State.receive_fate (s : State V) (msg : Message V) (label : Label V) (x : Nat)
    (hpc : s.pc = .taking) : Fate s label (s.receive msg) x := by
  have hidle : (Pc.idle).current = s.pc.current := by rw [hpc]; rfl
  unfold State.receive
  split
  · exact .same rfl (Nat.le_of_eq (by simp [State.queued, State.unanswered, hpc, Pc.current]))
      (Nat.le_of_eq (by simp [State.unanswered, hpc, Pc.current]))
  · refine (s.answer_fate (-msg.session) msg.content label x).setPc ?_
    rw [s.answer_pc]
    exact hidle
  · split <;>
      exact .same rfl (Nat.le_of_eq (by simp [State.queued, State.unanswered, hpc, Pc.current]))
        (Nat.le_of_eq (by simp [State.unanswered, hpc, Pc.current]))

/-- A coroutine is resumed from the front of its queue. -/
theorem State.switchTo_fate (s : State V) {s' : State V} {co : Nat} (caller : Caller) (x : Nat)
    (hco : s'.co = (s.switchTo co caller).2.co) (hpc : s'.pc = (s.switchTo co caller).2.pc)
    (hcurrent : s.pc.current = [])
    (hsuspended : s'.suspendCoroutines = s.suspendCoroutines)
    (hblocked : s'.blockSessions = s.blockSessions)
    (hqueued : s.queued x = s'.queued x + [co].count x) :
    Fate s (.resume co (s.switchTo co caller).1) s' x := by
  have hrunning : s'.pc.current = [co] := by rw [hpc, (s.switchTo_spec co caller).current]
  have hunanswered : s'.unanswered x = s.unanswered x + [co].count x := by
    simp only [State.unanswered, hrunning, hcurrent, hsuspended, hblocked, List.count_nil]
    omega
  by_cases hx : x = co
  · subst hx
    simp only [List.count_cons_self, List.count_nil] at hqueued hunanswered
    refine .resumed rfl ?_ (by omega) (by omega)
    rw [hco, State.switchTo_co, if_pos rfl]
  · simp only [List.count_cons_of_ne (Ne.symm hx), List.count_nil] at hqueued hunanswered
    refine .same ?_ (by omega) (by omega)
    rw [hco, State.switchTo_co, if_neg hx]

/-- A coroutine that calls `suspend` or `block` is put in the container and switches back. -/
theorem State.switchBack_fate (s : State V) {s' : State V} {co : Nat} (caller : Caller)
    (label : Label V) (x : Nat) (hpc : s.pc = .running co caller)
    (hco : s'.co = s.co) (hqueued : s'.queued x = s.queued x)
    (hunanswered : s'.suspendCoroutines.count x + (s'.blockSessions.map Prod.snd).count x
      ≤ s.unanswered x) : Fate s label (s'.switchBack co caller) x := by
  obtain ⟨hloops, -, hspawned, hwoken, hsuspended, hblocked, -⟩ := s'.switchBack_spec co caller
  have hqueued' : (s'.switchBack co caller).queued x = s.queued x := by
    rw [← hqueued]
    simp only [State.queued, hspawned, hwoken]
  have hunanswered' : (s'.switchBack co caller).unanswered x ≤ s.unanswered x := by
    refine le_trans ?_ hunanswered
    simp only [State.unanswered, hloops.1, hsuspended, hblocked, List.count_nil]
    omega
  by_cases hx : x = co
  · subst hx
    refine .waits ?_ ?_ hqueued' hunanswered'
    · simp only [State.unanswered, hpc, Pc.current, List.count_cons_self]
      omega
    · rw [← hco]
      cases hexception : (s'.co x).result.exception with
      | none =>
          rw [State.switchBack_wait caller hexception]
          exact Or.inr ⟨hexception, State.setCo_same _ _ _⟩
      | some e =>
          rw [State.switchBack_end caller hexception]
          exact Or.inl rfl
  · refine .same ?_ ?_ hunanswered'
    · rw [s'.switchBack_co caller hx, hco]
    · omega

theorem Step.fate {s s' : State V} {label : Label V} (hstep : Step s label s') (x : Nat) :
    Fate s label s' x := by
  cases hstep with
  | dispatch hpc | enter hpc | spawningDone hpc | wakingDone hpc | takeNothing hpc | exited hpc =>
      refine (Fate.same rfl (Nat.le_refl _) (Nat.le_refl _)).setPc ?_
      rw [hpc]
      rfl
  | awaitInbox | takeInbox => exact .same rfl (Nat.le_refl _) (Nat.le_refl _)
  | leave hpc | sweep hpc => exact s.sweepZombies_fate _ x (by rw [hpc]; rfl)
  | dispatched hpc =>
      refine (Fate.same rfl (Nat.le_refl _) (Nat.le_refl _)).setPc ?_
      rw [hpc]
      split <;> rfl
  | resumeSpawned co rest hpc hspawned hco =>
      obtain ⟨-, -, -, hwoken, hsuspended, hblocked, -⟩ := s.switchTo_spec co .spawning
      refine s.switchTo_fate .spawning x rfl rfl (by rw [hpc]; rfl) hsuspended hblocked ?_
      simp only [State.queued, hwoken, hspawned, List.count_cons, List.count_nil]
      omega
  | resumeWoken co rest hpc hwoken hco =>
      obtain ⟨-, -, hspawned, -, hsuspended, hblocked, -⟩ := s.switchTo_spec co .waking
      refine s.switchTo_fate .waking x rfl rfl (by rw [hpc]; rfl) hsuspended hblocked ?_
      simp only [State.queued, hspawned, hwoken, List.count_cons, List.count_nil]
      omega
  | unwind co rest hpc hwoken hco =>
      obtain ⟨-, -, hspawned, -, hsuspended, hblocked, -⟩ := s.switchTo_spec co .unwinding
      refine s.switchTo_fate .unwinding x rfl rfl (by rw [hpc]; rfl) hsuspended hblocked ?_
      simp only [State.queued, hspawned, hwoken, List.count_cons, List.count_nil]
      omega
  | wakeServer co hpc hwoken hinbox hserver =>
      obtain ⟨hco, -, -, hspawned, -, hblocked⟩ := s.wakeup_eq co
      obtain ⟨hcount, hle⟩ := s.wakeup_count co x
      refine .same (congrFun hco x) ?_ ?_ <;>
      · simp only [State.queued, State.unanswered, hspawned, hblocked, hpc, Pc.current]
        omega
  | wakeup _ other => exact (s.wakeup_fate other _ x)
  | destructorWakeup other => exact (s.wakeup_fate other _ x).setRevived _
  | interrupt blocked suspended hpc hblocked hsuspended =>
      have hunanswered : s.unanswered x = (blocked ++ suspended).count x := by
        rw [List.count_append, hblocked.count_eq, hsuspended.count_eq, State.unanswered, hpc]
        simp only [Pc.current, List.count_nil]
        omega
      have hcurrent : (if s.wakeupCoroutines ++ blocked ++ suspended = [] then Pc.abandoning
          else Pc.unwinding).current = [] := by
        split <;> rfl
      by_cases hx : x ∈ blocked ++ suspended
      · have hpositive := List.count_pos_iff.mpr hx
        refine .given (.error .coroutineExit) (if_pos hx) ?_ ?_ <;>
        · simp only [hunanswered]
          simp only [State.queued, State.unanswered, hcurrent, State.interrupt, List.count_append,
            List.count_nil, List.map_nil] at *
          omega
      · refine .same (if_neg hx) ?_ ?_ <;>
        · simp only [hunanswered]
          simp only [State.queued, State.unanswered, hcurrent, State.interrupt, List.count_append,
            List.count_nil, List.map_nil]
          omega
  | abandon hpc =>
      refine .same rfl ?_ ?_ <;>
      · simp only [State.queued, State.unanswered, State.abandonSpawned, hpc, Pc.current,
          List.count_nil]
        omega
  | take msg hpc => exact s.receive_fate msg .tau x hpc
  | spawn => exact s.spawn_fate _ x
  | destructorSpawn => exact (s.spawn_fate _ x).setRevived _
  | suspend co caller hpc =>
      refine s.switchBack_fate caller _ x hpc rfl rfl ?_
      simp only [State.suspend, State.unanswered, hpc, Pc.current, List.insert]
      split <;> simp only [List.count_cons, List.count_nil] <;> omega
  | block co caller session hpc =>
      refine s.switchBack_fate caller _ x hpc rfl rfl ?_
      have hfilter := (List.filter_sublist (p := fun entry => entry.1 ≠ session)
        (l := s.blockSessions)).map Prod.snd |>.count_le x
      simp only [State.block, State.unanswered, hpc, Pc.current, List.map_cons, List.count_cons,
        List.count_nil]
      omega
  | finish co caller e hpc =>
      obtain ⟨hloops, -, hspawned, hwoken, hsuspended, hblocked, -⟩ := s.finish_spec co caller e
      have hqueued : ((s.finish co e).switchBack co caller).queued x = s.queued x := by
        simp only [State.queued, hspawned, hwoken]
      have hunanswered : ((s.finish co e).switchBack co caller).unanswered x + [co].count x
          = s.unanswered x := by
        have hcurrent : s.pc.current = [co] := by rw [hpc, Pc.current]
        simp only [State.unanswered, hloops.1, hsuspended, hblocked, hcurrent, List.count_nil]
        omega
      by_cases hx : x = co
      · subst hx
        rw [List.count_cons_self, List.count_nil] at hunanswered
        refine .finished e ?_ hqueued (by omega)
        have hco : (s.finish x e).co x = (s.co x).finish e := State.setCo_same _ _ _
        rw [State.switchBack_end caller (e := e) (by rw [hco]; rfl)]
        exact hco
      · refine .same ?_ (by omega) (by omega)
        rw [State.switchBack_co _ _ hx]
        exact Function.update_of_ne hx _ _

theorem Step.created_le {s s' : State V} {label : Label V} (hstep : Step s label s') :
    s.created ≤ s'.created := by
  cases hstep with
  | dispatch | enter | spawningDone | wakingDone | takeNothing | awaitInbox | takeInbox | leave
  | dispatched | sweep | exited | interrupt | abandon => exact Nat.le_refl _
  | resumeSpawned co => exact (s.switchTo_spec co .spawning).created.ge
  | resumeWoken co => exact (s.switchTo_spec co .waking).created.ge
  | unwind co => exact (s.switchTo_spec co .unwinding).created.ge
  | wakeServer co => exact (s.wakeup_eq co).created.ge
  | wakeup _ other | destructorWakeup other => exact (s.wakeup_eq other).created.ge
  | take msg => exact (s.receive_spec msg).created.ge
  | spawn | destructorSpawn => exact Nat.le_succ _
  | suspend co caller => exact ((s.suspend co).switchBack_spec co caller).created.ge
  | block co caller session => exact ((s.block session co).switchBack_spec co caller).created.ge
  | finish co caller e => exact (s.finish_spec co caller e).created.ge

def born (created co : Nat) : Nat := if co < created then 1 else 0

theorem born_le_one (created co : Nat) : born created co ≤ 1 := by
  unfold born
  split <;> omega

theorem lt_of_born {created co n : Nat} (hle : n ≤ born created co) (hpositive : 0 < n) :
    co < created := by
  by_contra hco
  rw [born, if_neg hco] at hle
  omega

/-- A coroutine has at most one entry in the containers from which it may be resumed, and none
before it is created. -/
theorem Step.once {s s' : State V} {label : Label V} (hstep : Step s label s') {x : Nat}
    (hs : s.queued x + s.unanswered x ≤ born s.created x) :
    s'.queued x + s'.unanswered x ≤ born s'.created x := by
  have hcreated := hstep.created_le
  have hborn : born s.created x ≤ born s'.created x := by
    unfold born
    split <;> split <;> omega
  cases hstep.fate x with
  | stays | given | waits => omega
  | resumed | finished => omega
  | spawned hx hnext hco hqueued hunanswered =>
      have hnone : born s.created x = 0 := if_neg (by omega)
      have hone : born s'.created x = 1 := if_pos (by omega)
      omega

end Stp.Coroutines
