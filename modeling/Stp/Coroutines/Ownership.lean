import Stp.Coroutines.Fate

/-!
# Who owns a coroutine

Between two resumptions a coroutine belongs to one container of its process. The process cannot see
whether the coroutine that has just switched back waits or has ended: `Process::resume` takes an
exception in its `Result` for an end. A wait clears no exception, so the inference is right only as
long as no coroutine waits with an exception still stored, and a container entry is not lost only as
long as no coroutine blocks on a session that another one is blocked on. Under these two conditions
coroutines are owned as they should be, and a wait that breaks one of them breaks the ownership.
-/

namespace Stp.Coroutines

open Process

variable {V : Type*}

/-- The coroutines that may be resumed later. -/
def State.resumables (s : State V) : List Nat :=
  s.spawnCoroutines ++ s.wakeupCoroutines ++ s.suspendCoroutines ++ s.blockSessions.map Prod.snd

/-- All entries of the five containers. -/
def State.held (s : State V) : List Nat := s.resumables ++ s.zombieCoroutines

def State.entries (s : State V) : List Nat := s.pc.current ++ s.held

/-- The coroutine runs or may be resumed. -/
def State.Live (s : State V) (x : Nat) : Prop := 0 < s.queued x + s.unanswered x

/-- **Coroutine ownership.** A coroutine that was created and not destroyed has one entry in the five
containers, those among the zombies have ended or were abandoned before they started, those in the
other containers can be resumed, and a coroutine is destroyed once, is in no container then, and has
been destroyed when the process is down, unless a destructor that the last sweep ran has spawned or
woken it. -/
structure Owned (s : State V) : Prop where
  once : ∀ co < s.created, (s.co co).destroyed = 0 → s.held.count co = 1
  zombies : ∀ co ∈ s.zombieCoroutines, (s.co co).finished = true
    ∨ ((s.co co).started = false ∧ s.pc = .sweeping)
  resumable : ∀ co ∈ s.resumables, (s.co co).Resumable
  destroyed : ∀ co, (s.co co).destroyed ≤ 1 ∧ ((s.co co).destroyed = 1 → co ∉ s.held)
  down : s.pc = .down → ∀ co < s.created, (s.co co).destroyed = 1 ∨ co ∈ s.revived
  uncrashed : s.pc ≠ .crashed

/-- What is left in the containers once `run()` or `exit()` has left its loop. -/
def State.Drained (s : State V) : Prop :=
  match s.pc with
  | .abandoning => s.wakeupCoroutines = [] ∧ s.suspendCoroutines = [] ∧ s.blockSessions = []
  | .sweeping => s.resumables = []
  | .destroying false =>
    s.zombieCoroutines = [] ∧ s.spawnCoroutines ++ s.wakeupCoroutines ⊆ s.revived
  | .destroying true =>
    s.wakeupCoroutines = [] ∧ s.suspendCoroutines = [] ∧ s.blockSessions = []
      ∧ s.zombieCoroutines = [] ∧ s.spawnCoroutines ⊆ s.revived
  | .down =>
    s.suspendCoroutines = [] ∧ s.blockSessions = [] ∧ s.zombieCoroutines = []
      ∧ s.spawnCoroutines ++ s.wakeupCoroutines ⊆ s.revived
  | _ => True

/-- In `sweep_zombies` where destructors run, or gone down from there. -/
def Pc.Sweeps : Pc → Prop
  | .destroying _ | .down => True
  | _ => False

/-- No coroutine waits with an exception in its `Result`, or on a session that is taken. -/
def Label.Orderly (s : State V) : Label V → Prop
  | .wait co none => (s.co co).result.exception = none
  | .wait co (some session) => (s.co co).result.exception = none
      ∧ ∀ other, (session, other) ∉ s.blockSessions
  | _ => True

structure Tidy (s : State V) : Prop where
  count : ∀ co, s.entries.count co + (s.co co).destroyed = born s.created co
  zombies : ∀ co ∈ s.zombieCoroutines, (s.co co).finished = true
    ∨ ((s.co co).started = false ∧ s.pc = .sweeping)
  spawned : ∀ co ∈ s.spawnCoroutines, (s.co co).started = false
  unfinished : ∀ co, s.Live co → (s.co co).finished = false
  drained : s.Drained
  uncrashed : s.pc ≠ .crashed

/-- The numbers of entries that the containers have for a coroutine. -/
theorem State.entries_count (s : State V) (x : Nat) :
    s.entries.count x = s.queued x + s.unanswered x + s.zombieCoroutines.count x := by
  simp only [State.entries, State.held, State.resumables, State.queued, State.unanswered,
    List.count_append]
  omega

theorem State.live_of_mem {s : State V} {x : Nat} (hx : x ∈ s.resumables) : s.Live x := by
  have hcount := List.count_pos_iff.mpr hx
  simp only [State.resumables, List.count_append] at hcount
  simp only [State.Live, State.queued, State.unanswered]
  omega

/-- A coroutine that runs is in no container. -/
theorem Tidy.running {s : State V} (hs : Tidy s) {co : Nat} {caller : Caller}
    (hpc : s.pc = .running co caller) :
    co < s.created ∧ (s.co co).destroyed = 0 ∧ co ∉ s.held := by
  have hcount := hs.count co
  have hcurrent : s.entries.count co = s.held.count co + 1 := by
    simp [State.entries, hpc, Pc.current]
  rw [hcurrent, born] at hcount
  split at hcount
  · next hco => exact ⟨hco, by omega, List.count_eq_zero.mp (by omega)⟩
  · omega

theorem Tidy.not_held {s : State V} (hs : Tidy s) {co : Nat} {caller : Caller}
    (hpc : s.pc = .running co caller) :
    co ∉ s.spawnCoroutines ∧ co ∉ s.wakeupCoroutines ∧ co ∉ s.suspendCoroutines
      ∧ co ∉ s.blockSessions.map Prod.snd ∧ co ∉ s.zombieCoroutines := by
  have hheld := (hs.running hpc).2.2
  simp only [State.held, State.resumables, List.mem_append] at hheld
  tauto

/-- A coroutine that switches back to wait is not taken for one that has ended. -/
theorem State.switchBack_zombies_count (s : State V) {co x : Nat} (caller : Caller)
    (hwait : co = x → (s.co x).result.exception = none) :
    (s.switchBack co caller).zombieCoroutines.count x = s.zombieCoroutines.count x := by
  rw [State.switchBack_zombies]
  split
  · rfl
  · next hsome =>
      have hne : co ≠ x := by
        rintro rfl
        exact hsome (hwait rfl)
      rw [List.count_append, List.count_cons_of_ne hne, List.count_nil, Nat.add_zero]

/-! ### Entries -/

section Entries

variable {s : State V} {co x : Nat} {caller : Caller}

/-- A coroutine that blocks goes into the table, in the place of the ones that are blocked on its
session. -/
theorem State.block_entries (session : SessionT) (hpc : s.pc = .running co caller)
    (hwait : co = x → (s.co x).result.exception = none) :
    let s' := (s.block session co).switchBack co caller
    s'.created = s.created ∧ ∃ lost,
      s'.entries.count x + (s'.co x).destroyed + lost = s.entries.count x + (s.co x).destroyed
        ∧ ((∀ other, (session, other) ∉ s.blockSessions) → lost = 0) := by
  obtain ⟨hloops, hcreated, hspawned, hwoken, hsuspended, hblocked, hagrees⟩ :=
    (s.block session co).switchBack_spec co caller
  have hzombies := (s.block session co).switchBack_zombies_count caller hwait
  have hsplit := List.countP_eq_countP_filter_add s.blockSessions
    (fun entry => entry.2 == x) (fun entry => decide (entry.1 ≠ session))
  refine ⟨hcreated, List.countP (fun entry => entry.2 == x)
    (s.blockSessions.filter fun entry => !decide (entry.1 ≠ session)), ?_, fun hnot => ?_⟩
  · have hcurrent : s.pc.current = [co] := by rw [hpc]; rfl
    simp only [State.entries_count, State.queued, State.unanswered, hloops.1, hspawned, hwoken,
      hsuspended, hblocked, hzombies, hagrees.destroyed, hcurrent, List.count_cons, List.count_nil]
    simp only [State.block, List.map_cons, List.count_cons]
    simp only [List.count, List.countP_map, Function.comp_def] at hsplit ⊢
    omega
  · have hkept : s.blockSessions.filter (fun entry => entry.1 ≠ session) = s.blockSessions :=
      List.filter_eq_self.mpr fun entry hentry => decide_eq_true fun heq =>
        hnot entry.2 (heq ▸ hentry)
    rw [hkept] at hsplit
    omega

/-- A coroutine that suspends itself goes among the suspended ones. -/
theorem State.suspend_entries (hpc : s.pc = .running co caller)
    (hwait : co = x → (s.co x).result.exception = none) (hone : s.entries.count x ≤ 1) :
    let s' := (s.suspend co).switchBack co caller
    s'.created = s.created
      ∧ s'.entries.count x + (s'.co x).destroyed = s.entries.count x + (s.co x).destroyed := by
  obtain ⟨hloops, hcreated, hspawned, hwoken, hsuspended, hblocked, hagrees⟩ :=
    (s.suspend co).switchBack_spec co caller
  have hzombies := (s.suspend co).switchBack_zombies_count caller hwait
  have hcurrent : s.pc.current = [co] := by rw [hpc]; rfl
  refine ⟨hcreated, ?_⟩
  simp only [State.entries_count, State.queued, State.unanswered, hcurrent, List.count_cons,
    List.count_nil] at hone
  simp only [State.entries_count, State.queued, State.unanswered, hloops.1, hspawned, hwoken,
    hsuspended, hblocked, hzombies, hagrees.destroyed, hcurrent, List.count_cons, List.count_nil]
  by_cases hmem : co ∈ s.suspendCoroutines
  · -- it runs, so it is not the one that is suspended already
    have hne : ¬ (co == x) = true := by
      intro heq
      have hcount := List.count_pos_iff.mpr hmem
      rw [if_pos heq] at hone
      rw [eq_of_beq heq] at hcount
      omega
    simp only [State.suspend, List.insert_of_mem hmem, if_neg hne, Nat.add_zero]
  · simp only [State.suspend, List.insert_of_not_mem hmem, List.count_cons]
    omega

/-- A coroutine that has been woken runs. -/
theorem State.resume_entries (caller : Caller) {rest : List Nat} (hpc : s.pc.current = [])
    (hwoken : s.wakeupCoroutines = co :: rest) :
    let s' := { (s.switchTo co caller).2 with wakeupCoroutines := rest }
    s'.entries.count x + (s'.co x).destroyed = s.entries.count x + (s.co x).destroyed := by
  obtain ⟨hcurrent, hcreated, hspawned, -, hsuspended, hblocked, hzombies⟩ :=
    s.switchTo_spec co caller
  simp only [State.entries_count, State.queued, State.unanswered, hpc, hwoken, hcurrent, hspawned,
    hsuspended, hblocked, hzombies, (s.switchTo_same co caller x).1, List.count_cons,
    List.count_nil]
  omega

/-- A coroutine that is spawned has one entry. -/
theorem State.spawn_entries (hnew : x = s.created → (s.co x).destroyed = 0) :
    s.spawn.entries.count x + (s.spawn.co x).destroyed + born s.created x
      = s.entries.count x + (s.co x).destroyed + born s.spawn.created x := by
  simp only [State.entries_count, State.queued, State.unanswered, State.spawn, State.setCo, born]
  by_cases hx : x = s.created
  · subst hx
    simp [Coroutine.create, hnew]
    omega
  · have hlt : x < s.created + 1 ↔ x < s.created := by omega
    simp [hx, Ne.symm hx, hlt]

theorem State.wakeup_entries (s : State V) (other x : Nat) :
    (s.wakeup other).entries.count x + ((s.wakeup other).co x).destroyed
      = s.entries.count x + (s.co x).destroyed := by
  obtain ⟨hcount, -⟩ := s.wakeup_count other x
  obtain ⟨hco, -, hpc, hspawned, hzombies, hblocked⟩ := s.wakeup_eq other
  simp only [State.entries_count, State.queued, State.unanswered, hpc, hco, hspawned, hzombies,
    hblocked]
  omega

end Entries

/-- What a step does to the entries of a coroutine that does not wait with an exception stored: it
may lose one to a coroutine that blocks on its session, and otherwise keeps as many as it had. -/
theorem Step.count_add {s s' : State V} {label : Label V} (hstep : Step s label s') {x k : Nat}
    (hbefore : s.entries.count x + (s.co x).destroyed + k = born s.created x)
    (hwait : ∀ session, label = .wait x session → (s.co x).result.exception = none) :
    ∃ k', s'.entries.count x + (s'.co x).destroyed + k' = born s'.created x
      ∧ (label.Orderly s → k' = k) := by
  have hborn := born_le_one s.created x
  cases hstep with
  | block co caller session hpc =>
      obtain ⟨hcreated, lost, hcount, hlost⟩ :=
        State.block_entries (x := x) session hpc (by rintro rfl; exact hwait _ rfl)
      refine ⟨k + lost, by rw [hcreated]; omega, fun horderly => ?_⟩
      rw [hlost horderly.2, Nat.add_zero]
  | suspend co caller hpc =>
      obtain ⟨hcreated, hcount⟩ :=
        State.suspend_entries (x := x) hpc (by rintro rfl; exact hwait _ rfl) (by omega)
      exact ⟨k, by rw [hcreated]; omega, fun _ => rfl⟩
  | resumeWoken co rest hpc hwoken =>
      have hcount := State.resume_entries (x := x) .waking (by rw [hpc]; rfl) hwoken
      exact ⟨k, by rw [hcount, hbefore]; rfl, fun _ => rfl⟩
  | unwind co rest hpc hwoken =>
      have hcount := State.resume_entries (x := x) .unwinding (by rw [hpc]; rfl) hwoken
      exact ⟨k, by rw [hcount, hbefore]; rfl, fun _ => rfl⟩
  | spawn | destructorSpawn =>
      have hcount := State.spawn_entries (s := s) (x := x) fun hx => by
        rw [hx, born, if_neg (Nat.lt_irrefl _)] at hbefore
        rw [hx]
        omega
      have hafter : s.spawn.entries.count x + (s.spawn.co x).destroyed + k
          = born s.spawn.created x := by omega
      exact ⟨k, hafter, fun _ => rfl⟩
  | wakeup _ other | destructorWakeup other =>
      have hafter : (s.wakeup other).entries.count x + ((s.wakeup other).co x).destroyed + k
          = born (s.wakeup other).created x := by
        rw [s.wakeup_entries other x, (s.wakeup_eq other).created, hbefore]
      exact ⟨k, hafter, fun _ => rfl⟩
  | dispatch hpc | enter hpc | spawningDone hpc | wakingDone hpc | takeNothing hpc | exited hpc =>
      rw [State.entries_count, State.queued, State.unanswered] at *
      exact ⟨k, by simpa only [hpc, Pc.current] using hbefore, fun _ => rfl⟩
  | awaitInbox | takeInbox => exact ⟨k, hbefore, fun _ => rfl⟩
  | dispatched hpc =>
      rw [State.entries_count, State.queued, State.unanswered] at *
      refine ⟨k, ?_, fun _ => rfl⟩
      simp only [hpc, Pc.current, List.count_nil] at hbefore
      split <;> simpa only [Pc.current, List.count_nil] using hbefore
  | leave hpc | sweep hpc =>
      rw [State.entries_count, State.queued, State.unanswered] at *
      refine ⟨k, ?_, fun _ => rfl⟩
      simp only [hpc, Pc.current, List.count_nil] at hbefore
      simp only [s.sweepZombies_current, List.count_nil]
      simp only [State.sweepZombies, State.deleted, List.count_nil]
      omega
  | resumeSpawned co rest hpc hspawned hco =>
      rw [State.entries_count, State.queued, State.unanswered] at *
      obtain ⟨hcurrent, hcreated, -, hwoken, hsuspended, hblocked, hzombies⟩ :=
        s.switchTo_spec co .spawning
      have hsame := (s.switchTo_same co .spawning x).1
      refine ⟨k, ?_, fun _ => rfl⟩
      simp only [hpc, hspawned, Pc.current, List.count_cons, List.count_nil] at hbefore
      simp only [hcurrent, hcreated, hwoken, hsuspended, hblocked, hzombies, hsame,
        List.count_cons, List.count_nil]
      omega
  | wakeServer co hpc =>
      have hcount := s.wakeup_entries co x
      simp only [State.entries_count, State.queued, State.unanswered] at *
      obtain ⟨hco, hcreated, hpc', -⟩ := s.wakeup_eq co
      refine ⟨k, ?_, fun _ => rfl⟩
      simp only [hpc, hpc', Pc.current, List.count_nil] at hbefore hcount
      simp only [Pc.current, List.count_nil, hcreated]
      omega
  | interrupt blocked suspended hpc hblocked hsuspended =>
      rw [State.entries_count, State.queued, State.unanswered] at *
      have hblocked := hblocked.count_eq x
      have hsuspended := hsuspended.count_eq x
      have hsame := (s.agrees_interrupt blocked suspended .coroutineExit).destroyed x
      refine ⟨k, ?_, fun _ => rfl⟩
      simp only [hpc, Pc.current, List.count_nil] at hbefore
      split <;> simp only [Pc.current, hsame] <;>
        simp only [State.interrupt, List.count_nil, List.count_append, List.map_nil] <;> omega
  | abandon hpc =>
      rw [State.entries_count, State.queued, State.unanswered] at *
      refine ⟨k, ?_, fun _ => rfl⟩
      simp only [hpc, Pc.current, State.abandonSpawned, List.count_nil, List.count_append] at *
      omega
  | take msg hpc =>
      rw [State.entries_count, State.queued, State.unanswered] at *
      obtain ⟨hagrees, hcreated, hloops, hspawned, hzombies, hsuspended, hperm⟩ := s.receive_spec msg
      have hcount := hperm.count_eq x
      refine ⟨k, ?_, fun _ => rfl⟩
      simp only [hpc, Pc.current, List.count_nil, List.count_append] at hbefore hcount
      simp only [hcreated, hloops.1, hspawned, hzombies, hsuspended, hagrees.destroyed,
        List.count_nil]
      omega
  | finish co caller e hpc =>
      rw [State.entries_count, State.queued, State.unanswered] at *
      obtain ⟨hloops, hcreated, hspawned, hwoken, hsuspended, hblocked, hzombies⟩ :=
        s.finish_spec co caller e
      have hsame := (s.finish_same co caller e x).1
      refine ⟨k, ?_, fun _ => rfl⟩
      simp only [hpc, Pc.current, List.count_cons, List.count_nil] at hbefore
      simp only [hloops.1, hcreated, hspawned, hwoken, hsuspended, hblocked, hzombies, hsame,
        List.count_append, List.count_cons, List.count_nil]
      omega

theorem Step.count {s s' : State V} {label : Label V} (hstep : Step s label s') (hs : Tidy s)
    (horderly : label.Orderly s) (x : Nat) :
    s'.entries.count x + (s'.co x).destroyed = born s'.created x := by
  obtain ⟨k, hafter, hk⟩ := hstep.count_add (k := 0) (hs.count x) fun session hlabel => by
    subst hlabel
    cases session with
    | none => exact horderly
    | some session => exact horderly.1
  rw [hk horderly] at hafter
  exact hafter

/-- A coroutine that does not wait with an exception stored gains no entry. -/
theorem Step.count_le {s s' : State V} {label : Label V} (hstep : Step s label s') {x : Nat}
    (hbefore : s.entries.count x + (s.co x).destroyed ≤ born s.created x)
    (hwait : ∀ session, label = .wait x session → (s.co x).result.exception = none) :
    s'.entries.count x + (s'.co x).destroyed ≤ born s'.created x := by
  obtain ⟨k, hk⟩ := Nat.exists_eq_add_of_le hbefore
  obtain ⟨k', hafter, -⟩ := hstep.count_add hk.symm hwait
  omega

theorem Tidy.count_le {s : State V} (hs : Tidy s) (x : Nat) : s.entries.count x ≤ 1 := by
  have hcount := hs.count x
  have hborn := born_le_one s.created x
  omega

theorem Tidy.lt_created {s : State V} (hs : Tidy s) {x : Nat} (hx : x ∈ s.entries) :
    x < s.created := by
  have hcount := hs.count x
  have hpositive := List.count_pos_iff.mpr hx
  exact lt_of_born hcount.le (by omega)

/-- A coroutine that has ended does not become live again. -/
theorem Step.live {s s' : State V} {label : Label V} (hstep : Step s label s') (hs : Tidy s)
    {x : Nat} (hlive : s'.Live x) :
    (s.Live x ∧ (s'.co x).finished = (s.co x).finished) ∨ (s'.co x).finished = false := by
  have hcount := hs.count_le x
  rw [State.entries_count] at hcount
  unfold State.Live at *
  cases hstep.fate x with
  | stays n hco hheld hunanswered => exact Or.inl ⟨by omega, by rw [hco]⟩
  | spawned hx hcreated hco hqueued hunanswered => exact Or.inr (by rw [hco]; rfl)
  | resumed hlabel hco hqueued hunanswered =>
      exact Or.inl ⟨by omega, by rw [hco, (s.co x).switchTo_same.2]⟩
  | waits hrunning hco hqueued hunanswered =>
      obtain hco | ⟨-, hco⟩ := hco <;> exact Or.inl ⟨by omega, by rw [hco]⟩
  | given outcome hco hheld hunanswered =>
      exact Or.inl ⟨by omega, by rw [hco]; cases outcome <;> rfl⟩
  | finished e hco hqueued hunanswered =>
      -- its only entry was the one it ran with
      omega

theorem Tidy.zombies_finished {s : State V} (hs : Tidy s) (hpc : s.pc ≠ .sweeping) {x : Nat}
    (hx : x ∈ s.zombieCoroutines) : (s.co x).finished = true :=
  (hs.zombies x hx).resolve_right fun hsweeping => hpc hsweeping.2

theorem Pc.Destroys.cases {pc : Pc} (hpc : pc.Destroys) :
    pc = .idle ∨ ∃ exiting, pc = .destroying exiting := by
  cases pc with
  | idle => exact Or.inl rfl
  | destroying exiting => exact Or.inr ⟨exiting, rfl⟩
  | _ => exact hpc.elim

theorem Pc.Destroys.ne_sweeping {pc : Pc} (hpc : pc.Destroys) : pc ≠ .sweeping := by
  rintro rfl
  exact hpc

theorem Tidy.spawn_zombies {s : State V} (hs : Tidy s) (hpc : s.pc ≠ .sweeping) {x : Nat}
    (hx : x ∈ s.zombieCoroutines) : (s.spawn.co x).finished = true := by
  have hmem : x ∈ s.entries := by
    simp only [State.entries, State.held, List.mem_append]
    exact Or.inr (Or.inr hx)
  have hne : x ≠ s.created := Nat.ne_of_lt (hs.lt_created hmem)
  simpa [State.spawn, State.setCo, hne] using hs.zombies_finished hpc hx

theorem Tidy.wakeup_zombies {s : State V} (hs : Tidy s) (hpc : s.pc ≠ .sweeping) {co x : Nat}
    (hx : x ∈ (s.wakeup co).zombieCoroutines) : ((s.wakeup co).co x).finished = true := by
  obtain ⟨hco, -, -, -, hzombies, -⟩ := s.wakeup_eq co
  exact hco ▸ hs.zombies_finished hpc (hzombies ▸ hx)

theorem Step.zombies {s s' : State V} {label : Label V} (hstep : Step s label s') (hs : Tidy s)
    (horderly : label.Orderly s) {x : Nat} (hx : x ∈ s'.zombieCoroutines) :
    (s'.co x).finished = true ∨ ((s'.co x).started = false ∧ s'.pc = .sweeping) := by
  have hbefore : s.pc ≠ .sweeping → x ∈ s.zombieCoroutines → (s.co x).finished = true :=
    fun hpc hx => hs.zombies_finished hpc hx
  cases hstep with
  | dispatch hpc | enter hpc | dispatched hpc | spawningDone hpc | wakingDone hpc | exited hpc
  | takeNothing hpc | awaitInbox _ _ hpc | takeInbox _ _ _ _ hpc =>
      exact Or.inl (hbefore (by simp [hpc]) hx)
  | leave | sweep => exact absurd hx List.not_mem_nil
  | resumeSpawned co rest hpc hspawned hco =>
      obtain ⟨-, -, -, -, -, -, hzombies⟩ := s.switchTo_spec co .spawning
      refine Or.inl ((s.switchTo_same co .spawning x).2.1.trans (hbefore (by simp [hpc]) ?_))
      exact hzombies ▸ hx
  | resumeWoken co rest hpc hwoken hco =>
      obtain ⟨-, -, -, -, -, -, hzombies⟩ := s.switchTo_spec co .waking
      refine Or.inl ((s.switchTo_same co .waking x).2.1.trans (hbefore (by simp [hpc]) ?_))
      exact hzombies ▸ hx
  | unwind co rest hpc hwoken hco =>
      obtain ⟨-, -, -, -, -, -, hzombies⟩ := s.switchTo_spec co .unwinding
      refine Or.inl ((s.switchTo_same co .unwinding x).2.1.trans (hbefore (by simp [hpc]) ?_))
      exact hzombies ▸ hx
  | wakeServer co hpc => exact Or.inl (hs.wakeup_zombies (by simp [hpc]) hx)
  | wakeup co other caller hpc => exact Or.inl (hs.wakeup_zombies (by simp [hpc]) hx)
  | destructorWakeup other hpc => exact Or.inl (hs.wakeup_zombies hpc.ne_sweeping hx)
  | interrupt blocked suspended hpc =>
      have hsame := (s.agrees_interrupt blocked suspended .coroutineExit).finished x
      exact Or.inl (hsame.trans (hbefore (by simp [hpc]) hx))
  | abandon hpc =>
      obtain hx | hx := List.mem_append.mp hx
      · exact Or.inl (hbefore (by simp [hpc]) hx)
      · exact Or.inr ⟨hs.spawned x hx, rfl⟩
  | take msg hpc =>
      obtain ⟨hagrees, -, -, -, hzombies, -⟩ := s.receive_spec msg
      exact Or.inl ((hagrees.finished x).trans (hbefore (by simp [hpc]) (hzombies ▸ hx)))
  | spawn co caller hpc => exact Or.inl (hs.spawn_zombies (by simp [hpc]) hx)
  | destructorSpawn hpc => exact Or.inl (hs.spawn_zombies hpc.ne_sweeping hx)
  | suspend co caller hpc =>
      obtain ⟨-, -, -, -, -, -, hagrees⟩ := (s.suspend co).switchBack_spec co caller
      have hzombies := ((s.suspend co).switchBack_zombies co caller).trans (if_pos horderly)
      exact Or.inl ((hagrees.finished x).trans (hbefore (by simp [hpc]) (hzombies ▸ hx)))
  | block co caller session hpc =>
      obtain ⟨-, -, -, -, -, -, hagrees⟩ := (s.block session co).switchBack_spec co caller
      have hzombies := ((s.block session co).switchBack_zombies co caller).trans (if_pos horderly.1)
      exact Or.inl ((hagrees.finished x).trans (hbefore (by simp [hpc]) (hzombies ▸ hx)))
  | finish co caller e hpc =>
      obtain ⟨-, -, -, -, -, -, hzombies⟩ := s.finish_spec co caller e
      have hfinished := (s.finish_same co caller e x).2.2
      rw [hzombies] at hx
      refine Or.inl (hfinished.trans ?_)
      by_cases hco : x = co
      · exact if_pos hco
      · obtain hx | hx := List.mem_append.mp hx
        · exact (if_neg hco).trans (hbefore (by simp [hpc]) hx)
        · exact absurd (List.mem_singleton.mp hx) hco

theorem Step.spawned {s s' : State V} {label : Label V} (hstep : Step s label s') (hs : Tidy s)
    {x : Nat} (hx : x ∈ s'.spawnCoroutines) : (s'.co x).started = false := by
  have hbefore := hs.spawned x
  have hcount := hs.count_le x
  rw [State.entries_count, State.queued] at hcount
  cases hstep with
  | dispatch | enter | spawningDone | wakingDone | takeNothing | awaitInbox | takeInbox | leave
  | dispatched | sweep | exited => exact hbefore hx
  | resumeSpawned co rest hpc hspawned hco =>
      have hrest : x ∈ rest := hx
      have hne : x ≠ co := by
        rintro rfl
        rw [hspawned, List.count_cons_self] at hcount
        have := List.count_pos_iff.mpr hrest
        omega
      refine ((s.switchTo_same co .spawning x).2.2 hne).trans (hbefore ?_)
      rw [hspawned]
      exact List.mem_cons_of_mem _ hrest
  | resumeWoken co rest hpc hwoken hco =>
      have hspawned : x ∈ s.spawnCoroutines := (s.switchTo_spec co .waking).spawned ▸ hx
      have hne : x ≠ co := by
        rintro rfl
        rw [hwoken, List.count_cons_self] at hcount
        have := List.count_pos_iff.mpr hspawned
        omega
      exact ((s.switchTo_same co .waking x).2.2 hne).trans (hbefore hspawned)
  | unwind co rest hpc hwoken hco =>
      have hspawned : x ∈ s.spawnCoroutines := (s.switchTo_spec co .unwinding).spawned ▸ hx
      have hne : x ≠ co := by
        rintro rfl
        rw [hwoken, List.count_cons_self] at hcount
        have := List.count_pos_iff.mpr hspawned
        omega
      exact ((s.switchTo_same co .unwinding x).2.2 hne).trans (hbefore hspawned)
  | wakeServer co hpc =>
      obtain ⟨hco, -, -, hspawned, -, -⟩ := s.wakeup_eq co
      exact hco ▸ hbefore (hspawned ▸ hx)
  | wakeup _ other | destructorWakeup other =>
      obtain ⟨hco, -, -, hspawned, -, -⟩ := s.wakeup_eq other
      exact (congrArg Coroutine.started (congrFun hco x)).trans (hbefore (hspawned ▸ hx))
  | interrupt blocked suspended hpc =>
      exact ((s.agrees_interrupt blocked suspended .coroutineExit).started x).trans (hbefore hx)
  | abandon hpc => exact absurd hx List.not_mem_nil
  | take msg hpc =>
      obtain ⟨hagrees, -, -, hspawned, -⟩ := s.receive_spec msg
      exact (hagrees.started x).trans (hbefore (hspawned ▸ hx))
  | spawn | destructorSpawn =>
      by_cases hnew : x = s.created
      · subst hnew
        simp [State.spawn, Coroutine.create]
      · simp [State.spawn, State.setCo, hnew] at hx ⊢
        exact hbefore hx
  | suspend co caller hpc =>
      obtain ⟨-, -, hspawned, -, -, -, hagrees⟩ := (s.suspend co).switchBack_spec co caller
      exact (hagrees.started x).trans (hbefore (hspawned ▸ hx))
  | block co caller session hpc =>
      obtain ⟨-, -, hspawned, -, -, -, hagrees⟩ := (s.block session co).switchBack_spec co caller
      exact (hagrees.started x).trans (hbefore (hspawned ▸ hx))
  | finish co caller e hpc =>
      obtain ⟨-, -, hspawned, -⟩ := s.finish_spec co caller e
      exact (s.finish_same co caller e x).2.1.trans (hbefore (hspawned ▸ hx))

/-- Nothing is said of the containers before the loops are left. -/
theorem State.drained_of_ne {s : State V} (habandoning : s.pc ≠ .abandoning)
    (hsweeping : s.pc ≠ .sweeping) (hdestroying : ∀ exiting, s.pc ≠ .destroying exiting)
    (hdown : s.pc ≠ .down) : s.Drained := by
  unfold State.Drained
  split
  · exact absurd (by assumption) habandoning
  · exact absurd (by assumption) hsweeping
  · exact absurd (by assumption) (hdestroying false)
  · exact absurd (by assumption) (hdestroying true)
  · exact absurd (by assumption) hdown
  · trivial

theorem State.drained_of_loops {s : State V} (hpc : s.pc.Loops) : s.Drained :=
  State.drained_of_ne hpc.2.1 hpc.2.2.1 hpc.2.2.2.1 hpc.2.2.2.2.1

theorem State.drained_of_current {s : State V} {co : Nat} (hpc : s.pc.current = [co]) :
    s.Drained := by
  obtain ⟨caller, hpc⟩ : ∃ caller, s.pc = .running co caller := by
    cases h : s.pc with
    | running other caller =>
        rw [h] at hpc
        obtain rfl := List.singleton_inj.mp hpc
        exact ⟨caller, rfl⟩
    | _ => simp [h, Pc.current] at hpc
  exact State.drained_of_ne (by simp [hpc]) (by simp [hpc]) (by simp [hpc]) (by simp [hpc])

/-- Each part of the end of `run()` or `exit()` starts from what the one before it has left, and what
destructors put into the queues is remembered. -/
theorem Step.drained {s s' : State V} {label : Label V} (hstep : Step s label s')
    (hs : s.Drained) : s'.Drained := by
  cases hstep with
  | dispatch | enter | spawningDone | wakingDone | takeNothing => trivial
  | wakeServer => trivial
  | leave hpc hidle =>
      simp only [State.Busy, not_or, not_not] at hidle
      obtain hpc | hpc := s.sweepZombies_pc false <;> simp only [State.Drained, hpc]
      simp [State.sweepZombies, hidle.1, hidle.2.1]
  | dispatched hpc =>
      simp only [State.Drained, hpc] at hs
      by_cases hdown : s.blockSessions = [] ∧ s.suspendCoroutines = []
      · simp only [State.Drained, if_pos hdown]
        exact ⟨hdown.2, hdown.1, hs⟩
      · simp only [State.Drained, if_neg hdown]
  | resumeSpawned co => exact State.drained_of_current (s.switchTo_spec co .spawning).current
  | resumeWoken co => exact State.drained_of_current (s.switchTo_spec co .waking).current
  | unwind co => exact State.drained_of_current (s.switchTo_spec co .unwinding).current
  | interrupt blocked suspended =>
      by_cases hnone : s.wakeupCoroutines ++ blocked ++ suspended = []
      · rw [if_pos hnone]
        exact ⟨hnone, rfl, rfl⟩
      · rw [if_neg hnone]
        trivial
  | abandon hpc =>
      simp only [State.Drained, hpc] at hs
      simp [State.Drained, State.resumables, State.abandonSpawned, hs]
  | sweep hpc =>
      simp only [State.Drained, hpc, State.resumables, List.append_eq_nil_iff,
        List.map_eq_nil_iff] at hs
      obtain hpc | hpc := s.sweepZombies_pc true <;> simp only [State.Drained, hpc]
      simp [State.sweepZombies, hs]
  | exited hpc =>
      simp only [State.Drained, hpc] at hs
      obtain ⟨hwoken, hsuspended, hblocked, hzombies, hspawned⟩ := hs
      refine ⟨hsuspended, hblocked, hzombies, ?_⟩
      rwa [hwoken, List.append_nil]
  | destructorSpawn hpc =>
      obtain hpc | ⟨exiting, hpc⟩ := hpc.cases
      · exact State.drained_of_ne (by simp [State.spawn, State.setCo, hpc])
          (by simp [State.spawn, State.setCo, hpc]) (by simp [State.spawn, State.setCo, hpc])
          (by simp [State.spawn, State.setCo, hpc])
      · cases exiting <;> simp only [State.Drained, hpc] at hs <;>
          simp only [State.Drained, State.spawn, State.setCo, hpc]
        · refine ⟨hs.1, fun x hx => ?_⟩
          simp only [List.mem_append, List.mem_singleton] at hx ⊢
          obtain (hx | hx) | hx := hx
          · exact Or.inl (hs.2 (List.mem_append_left _ hx))
          · exact Or.inr hx
          · exact Or.inl (hs.2 (List.mem_append_right _ hx))
        · refine ⟨hs.1, hs.2.1, hs.2.2.1, hs.2.2.2.1, fun x hx => ?_⟩
          exact (List.mem_append.mp hx).elim
            (fun hx => List.mem_append_left _ (hs.2.2.2.2 hx)) (List.mem_append_right _)
  | destructorWakeup other hpc hother =>
      obtain ⟨-, -, hpc', hspawned, hzombies, -⟩ := s.wakeup_eq other
      obtain hpc | ⟨exiting, hpc⟩ := hpc.cases
      · refine State.drained_of_ne ?_ ?_ ?_ ?_ <;> simp [hpc', hpc]
      · cases exiting
        · simp only [State.Drained, hpc] at hs
          simp only [State.Drained, hpc', hpc, hspawned, hzombies]
          refine ⟨hs.1, fun x hx => ?_⟩
          rw [State.wakeup, if_pos hother] at hx
          rw [List.mem_append]
          obtain hx | hx := List.mem_append.mp hx
          · exact Or.inl (hs.2 (List.mem_append_left _ hx))
          · exact (List.mem_append.mp hx).imp_left fun hx => hs.2 (List.mem_append_right _ hx)
        · simp only [State.Drained, hpc] at hs
          rw [hs.2.1] at hother
          exact absurd hother List.not_mem_nil
  | take msg => exact State.drained_of_loops (s.receive_spec msg).loops
  | spawn co caller hpc | awaitInbox co caller hpc | takeInbox co caller _ _ hpc =>
      have hcurrent : s.spawn.pc.current = [co] := by simp [State.spawn, State.setCo, hpc, Pc.current]
      exact State.drained_of_current hcurrent
  | wakeup co other caller hpc =>
      have hcurrent : (s.wakeup other).pc.current = [co] := by
        rw [(s.wakeup_eq other).pc, hpc, Pc.current]
      exact State.drained_of_current hcurrent
  | suspend co caller => exact State.drained_of_loops ((s.suspend co).switchBack_spec co caller).loops
  | block co caller session =>
      exact State.drained_of_loops ((s.block session co).switchBack_spec co caller).loops
  | finish co caller e => exact State.drained_of_loops (s.finish_spec co caller e).loops

theorem Pc.Loops.not_sweeps {pc : Pc} (hloops : pc.Loops) : ¬ pc.Sweeps := by
  intro hsweeps
  cases pc with
  | destroying exiting => exact hloops.2.2.2.1 exiting rfl
  | down => exact hloops.2.2.2.2.1 rfl
  | _ => exact hsweeps

/-- What destructors put into the queues is new, or was suspended. -/
theorem Step.revived {s s' : State V} {label : Label V} (hstep : Step s label s')
    (hsweeps : s'.pc.Sweeps) {x : Nat} (hx : x ∈ s'.revived) :
    (s.pc.Sweeps ∧ x ∈ s.revived) ∨ x = s.created ∨ x ∈ s.suspendCoroutines := by
  cases hstep with
  | leave | sweep => exact absurd hx List.not_mem_nil
  | dispatched hpc | exited hpc =>
      rw [hpc]
      exact Or.inl ⟨trivial, hx⟩
  | destructorSpawn hpc =>
      obtain hx | hx := List.mem_append.mp hx
      · exact Or.inl ⟨hsweeps, hx⟩
      · exact Or.inr (Or.inl (List.mem_singleton.mp hx))
  | destructorWakeup other hpc hother =>
      obtain hx | hx := List.mem_append.mp hx
      · change (s.wakeup other).pc.Sweeps at hsweeps
        rw [(s.wakeup_eq other).pc] at hsweeps
        exact Or.inl ⟨hsweeps, hx⟩
      · rw [List.mem_singleton.mp hx]
        exact Or.inr (Or.inr hother)
  | interrupt blocked suspended =>
      by_cases hnone : s.wakeupCoroutines ++ blocked ++ suspended = []
      · rw [if_pos hnone] at hsweeps
        exact hsweeps.elim
      · rw [if_neg hnone] at hsweeps
        exact hsweeps.elim
  | take msg => exact absurd hsweeps (s.receive_spec msg).loops.not_sweeps
  | spawn co caller hpc | awaitInbox co caller hpc | takeInbox co caller _ _ hpc =>
      change s.pc.Sweeps at hsweeps
      rw [hpc] at hsweeps
      exact hsweeps.elim
  | wakeup co other caller hpc =>
      rw [(s.wakeup_eq other).pc, hpc] at hsweeps
      exact hsweeps.elim
  | suspend co caller =>
      exact absurd hsweeps ((s.suspend co).switchBack_spec co caller).loops.not_sweeps
  | block co caller session =>
      exact absurd hsweeps ((s.block session co).switchBack_spec co caller).loops.not_sweeps
  | finish co caller e => exact absurd hsweeps (s.finish_spec co caller e).loops.not_sweeps
  | dispatch | enter | spawningDone | wakingDone | takeNothing | abandon | wakeServer
  | resumeSpawned | resumeWoken | unwind => exact hsweeps.elim

/-- A zombie that has one entry only is deleted once. -/
theorem State.sweeps {s : State V}
    (hcount : ∀ co, s.entries.count co + (s.co co).destroyed ≤ born s.created co) (exiting : Bool) :
    (s.sweepZombies exiting).pc = .destroying exiting := by
  refine if_pos fun co hco => ?_
  have hcount := hcount co
  have hpositive := List.count_pos_iff.mpr hco
  have hborn := born_le_one s.created co
  rw [State.entries_count] at hcount
  unfold State.deleted
  omega

theorem Step.uncrashed {s s' : State V} {label : Label V} (hstep : Step s label s')
    (hcount : ∀ co, s.entries.count co + (s.co co).destroyed ≤ born s.created co)
    (hs : s.pc ≠ .crashed) : s'.pc ≠ .crashed := by
  cases hstep with
  | dispatch | enter | spawningDone | wakingDone | wakeServer | takeNothing | resumeSpawned
  | resumeWoken | unwind | abandon | exited => nofun
  | leave => simp [State.sweeps hcount false]
  | sweep => simp [State.sweeps hcount true]
  | dispatched => split <;> nofun
  | interrupt => split <;> nofun
  | take msg => exact (s.receive_spec msg).loops.2.2.2.2.2
  | spawn | awaitInbox | takeInbox | destructorSpawn => exact hs
  | wakeup _ other | destructorWakeup other => exact (s.wakeup_eq other).pc ▸ hs
  | suspend co caller => exact ((s.suspend co).switchBack_spec co caller).loops.2.2.2.2.2
  | block co caller session => exact ((s.block session co).switchBack_spec co caller).loops.2.2.2.2.2
  | finish co caller e => exact (s.finish_spec co caller e).loops.2.2.2.2.2

theorem Step.tidy {s s' : State V} {label : Label V} (hstep : Step s label s') (hs : Tidy s)
    (horderly : label.Orderly s) : Tidy s' where
  count := hstep.count hs horderly
  zombies _ := hstep.zombies hs horderly
  spawned _ := hstep.spawned hs
  unfinished _ hlive := (hstep.live hs hlive).elim
    (fun hsame => hsame.2.trans (hs.unfinished _ hsame.1)) id
  drained := hstep.drained hs.drained
  uncrashed := hstep.uncrashed (fun co => (hs.count co).le) hs.uncrashed

theorem tidy_fresh : Tidy (State.fresh : State V) where
  count x := by
    simp only [State.entries, State.held, State.resumables, State.fresh, Pc.current, born,
      Coroutine.create, List.nil_append, List.append_nil, List.map_nil, List.count_cons,
      List.count_nil, Nat.add_zero, Nat.zero_add, beq_iff_eq]
    by_cases hx : x = 0
    · simp [hx]
    · simp [hx, Ne.symm hx]
  zombies _ hx := absurd hx List.not_mem_nil
  spawned _ _ := rfl
  unfinished _ _ := rfl
  drained := trivial
  uncrashed := nofun

/-- The runs in which no coroutine waits with an exception stored or on a session that is taken. -/
def orderly : Transition.System (State V) (Label V) := system.restrict fun s label => label.Orderly s

theorem tidy_of_reachable {s : State V} (hs : orderly.Reachable s) : Tidy s := by
  refine Transition.System.Reachable.invariant ?_ ?_ hs
  · rintro s rfl
    exact tidy_fresh
  · intro s label s' _ hs hstep
    exact hstep.1.tidy hs hstep.2

/-! ### Ownership -/

theorem Tidy.owned {s : State V} (hs : Tidy s) (hpc : s.pc.current = []) : Owned s := by
  have hheld : s.entries = s.held := by
    rw [State.entries, hpc]
    rfl
  have hcount : ∀ x, s.held.count x + (s.co x).destroyed = born s.created x := fun x =>
    hheld ▸ hs.count x
  refine ⟨?_, hs.zombies, ?_, ?_, ?_, hs.uncrashed⟩
  · intro co hco hdestroyed
    have := hcount co
    rw [hdestroyed, born, if_pos hco] at this
    omega
  · intro co hco
    refine ⟨hs.unfinished co (State.live_of_mem hco), ?_⟩
    have hpositive : 0 < s.held.count co := by
      refine List.count_pos_iff.mpr ?_
      exact List.mem_append_left _ hco
    have := hcount co
    unfold born at this
    split at this <;> omega
  · intro co
    have := hcount co
    unfold born at this
    refine ⟨by split at this <;> omega, fun hdestroyed => ?_⟩
    refine List.count_eq_zero.mp ?_
    split at this <;> omega
  · intro hdown co hco
    have hdrained := hs.drained
    simp only [State.Drained, hdown] at hdrained
    obtain ⟨hsuspended, hblocked, hzombies, hrevived⟩ := hdrained
    by_cases hmem : co ∈ s.spawnCoroutines ++ s.wakeupCoroutines
    · exact Or.inr (hrevived hmem)
    · have := hcount co
      rw [State.held, State.resumables, hsuspended, hblocked, hzombies, List.append_nil,
        List.map_nil, List.append_nil, List.append_nil, List.count_eq_zero.mpr hmem, born,
        if_pos hco] at this
      exact Or.inl (by omega)

/-- An entry that is overwritten was the only one of its coroutine. -/
theorem Tidy.overwritten {s : State V} (hs : Tidy s) {session : SessionT} {other : Nat}
    (hentry : (session, other) ∈ s.blockSessions) :
    ((s.blockSessions.filter fun entry => entry.1 ≠ session).map Prod.snd).count other = 0
      ∧ s.spawnCoroutines.count other = 0 ∧ s.wakeupCoroutines.count other = 0
      ∧ s.suspendCoroutines.count other = 0 ∧ s.zombieCoroutines.count other = 0
      ∧ other < s.created ∧ (s.co other).destroyed = 0 := by
  have hcount := hs.count other
  have hborn : other < s.created := hs.lt_created (by
    simp only [State.entries, State.held, State.resumables, List.mem_append]
    exact Or.inr (Or.inl (Or.inr (List.mem_map_of_mem hentry))))
  rw [State.entries_count, State.queued, State.unanswered, born, if_pos hborn] at hcount
  have hsplit := List.countP_eq_countP_filter_add s.blockSessions
    (fun entry => entry.2 == other) (fun entry => decide (entry.1 ≠ session))
  have hremoved : 0 < List.countP (fun entry => entry.2 == other)
      (s.blockSessions.filter fun entry => !decide (entry.1 ≠ session)) := by
    refine List.countP_pos_iff.mpr ⟨(session, other), ?_, by simp⟩
    exact List.mem_filter.mpr ⟨hentry, by simp⟩
  simp only [List.count, List.countP_map] at *
  simp only [Function.comp_def] at *
  omega

/-- A wait that is not orderly leaves a coroutine with two entries, or another one with none. -/
theorem Step.disowned {s s' : State V} {label : Label V} (hstep : Step s label s') (hs : Tidy s)
    (hdisorderly : ¬ label.Orderly s) : s'.pc.current = [] ∧ ¬ Owned s' := by
  cases hstep with
  | suspend co caller hpc =>
      obtain ⟨hloops, hcreated, hspawned, hwoken, hsuspended, hblocked, hagrees⟩ :=
        (s.suspend co).switchBack_spec co caller
      refine ⟨hloops.1, fun howned => ?_⟩
      obtain ⟨hborn, hdestroyed, -⟩ := hs.running hpc
      have honce := howned.once co (hcreated ▸ hborn) ((hagrees.destroyed co).trans hdestroyed)
      have hzombies := ((s.suspend co).switchBack_zombies co caller).trans (if_neg hdisorderly)
      simp only [State.held, State.resumables, List.count_append, hsuspended, hzombies] at honce
      simp only [State.suspend, List.insert_of_not_mem (hs.not_held hpc).2.2.1,
        List.count_cons_self, List.count_nil] at honce
      omega
  | block co caller session hpc =>
      obtain ⟨hloops, hcreated, hspawned, hwoken, hsuspended, hblocked, hagrees⟩ :=
        (s.block session co).switchBack_spec co caller
      refine ⟨hloops.1, fun howned => ?_⟩
      obtain ⟨hborn, hdestroyed, -⟩ := hs.running hpc
      have hzombies := (s.block session co).switchBack_zombies co caller
      by_cases hnone : (s.co co).result.exception = none
      · have hzombies := hzombies.trans (if_pos hnone)
        obtain ⟨other, hentry⟩ : ∃ other, (session, other) ∈ s.blockSessions := by
          by_contra hfree
          exact hdisorderly ⟨hnone, fun other hentry => hfree ⟨other, hentry⟩⟩
        obtain ⟨hfiltered, hspawn, hwake, hsuspend, hzombie, hother, hother'⟩ := hs.overwritten hentry
        have hne : co ≠ other := by
          rintro rfl
          exact (hs.not_held hpc).2.2.2.1 (List.mem_map_of_mem (f := Prod.snd) hentry)
        have honce := howned.once other (hcreated ▸ hother) ((hagrees.destroyed other).trans hother')
        simp only [State.held, State.resumables, List.count_append, hspawned, hwoken, hsuspended,
          hblocked, hzombies] at honce
        simp only [State.block, List.map_cons, List.count_cons_of_ne hne] at honce
        omega
      · have hzombies := hzombies.trans (if_neg hnone)
        have honce := howned.once co (hcreated ▸ hborn) ((hagrees.destroyed co).trans hdestroyed)
        simp only [State.held, State.resumables, List.count_append, hblocked, hzombies] at honce
        simp only [State.block, List.map_cons, List.count_cons_self, List.count_nil] at honce
        omega
  | _ => exact absurd trivial hdisorderly

/-- **Coroutine ownership.** In a run in which no coroutine waits while its `Result` holds an
exception, or on a session that another coroutine is blocked on, every coroutine is owned as it
should be whenever none is running. The first wait that does breaks it. -/
theorem owned_of_orderly {s : State V} (hs : orderly.Reachable s) :
    (s.pc.current = [] → Owned s)
      ∧ ∀ label s', Step s label s' → ¬ label.Orderly s → s'.pc.current = [] ∧ ¬ Owned s' := by
  have htidy := tidy_of_reachable hs
  exact ⟨htidy.owned, fun label s' hstep hdisorderly => hstep.disowned htidy hdisorderly⟩

theorem owned_of_orderly_blocked :
    ∃ s : State Nat, s.blockSessions = [(5, 0)] ∧ s.pc = .spawning ∧ Owned s := by
  have hfresh : orderly.Reachable (State.fresh : State Nat) := .of_init rfl
  have h1 := hfresh.step ⟨Step.dispatch rfl, trivial⟩
  have h2 := h1.step ⟨Step.enter rfl (Or.inl (List.cons_ne_nil _ _)), trivial⟩
  have h3 := h2.step ⟨Step.resumeSpawned 0 [] rfl rfl ⟨rfl, rfl⟩, trivial⟩
  have h4 := h3.step ⟨Step.block 0 .spawning 5 rfl, rfl, fun _ => List.not_mem_nil⟩
  exact ⟨_, rfl, rfl, (owned_of_orderly h4).1 rfl⟩

/-- A coroutine blocks, is given an exception, catches it and suspends itself. It is now waiting,
and among the zombies. -/
theorem caught_exception_disowned :
    ∃ s : State Nat, system.Reachable s ∧ s.pc.current = [] ∧ s.suspendCoroutines = [0]
      ∧ s.zombieCoroutines = [0] ∧ ¬ Owned s := by
  have hfresh : system.Reachable (State.fresh : State Nat) := .of_init rfl
  have h1 := hfresh.step (Step.dispatch rfl)
  have h2 := h1.step (Step.enter rfl (Or.inl (List.cons_ne_nil _ _)))
  have h3 := h2.step (Step.resumeSpawned 0 [] rfl rfl ⟨rfl, rfl⟩)
  have h4 := h3.step (Step.block 0 .spawning 5 rfl)
  have h5 := h4.step (Step.spawningDone rfl rfl)
  have h6 := h5.step (Step.wakingDone rfl rfl (Or.inl rfl))
  have h7 := h6.step (Step.leave rfl (by decide))
  have h8 := h7.step (Step.dispatched rfl)
  have h9 := h8.step (Step.take ⟨9, -5, .exception .abortedRequest⟩ rfl)
  have h10 := h9.step (Step.dispatch rfl)
  have h11 := h10.step (Step.enter rfl (Or.inr (Or.inl (List.cons_ne_nil _ _))))
  have h12 := h11.step (Step.spawningDone rfl rfl)
  have h13 := h12.step (Step.resumeWoken 0 [] rfl rfl ⟨rfl, rfl⟩)
  have h14 := h13.step (Step.suspend 0 .waking rfl)
  refine ⟨_, h14, rfl, rfl, rfl, fun howned => ?_⟩
  exact absurd (howned.once 0 (by decide) rfl) (by decide)

end Stp.Coroutines
