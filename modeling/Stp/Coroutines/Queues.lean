import Stp.Coroutines.Fate

/-!
# Queues and turns

A coroutine that has been woken is due until it is resumed, and so is one that has been spawned; one
that suspends itself stays suspended until it is woken. A turn of the process takes a message when
nothing is due, so the server that `_inbox_coroutine` names finds the inbox as it was when it looked,
or finds it filled in a turn in which nothing else is due.
-/

namespace Stp.Coroutines

open Process

variable {V : Type*}

/-! ### Who stays in a queue -/

/-- The coroutine is not the one that is resumed. -/
def Label.Spares (label : Label V) (x : Nat) : Prop := ∀ outcome, label ≠ .resume x outcome

theorem Step.running_spares {s s' : State V} {label : Label V} (hstep : Step s label s') {co : Nat}
    {caller : Caller} (hpc : s.pc = .running co caller) (x : Nat) : label.Spares x := by
  rintro outcome rfl
  cases hstep with
  | resumeSpawned _ _ hpc' | resumeWoken _ _ hpc' | unwind _ _ hpc' =>
      rw [hpc] at hpc'
      cases hpc'

theorem Step.running_not_destructor {s s' : State V} {label : Label V} (hstep : Step s label s')
    {co : Nat} {caller : Caller} (hpc : s.pc = .running co caller) {woken : Option Nat} :
    label ≠ .destructor woken := by
  rintro rfl
  cases hstep with
  | destructorSpawn hpc' | destructorWakeup _ hpc' =>
      rw [hpc] at hpc'
      exact hpc'

theorem Step.wait_running {s s' : State V} {co : Nat} {session : Option SessionT}
    (hstep : Step s (.wait co session) s') : ∃ caller, s.pc = .running co caller := by
  cases hstep with
  | suspend _ caller hpc => exact ⟨caller, hpc⟩
  | block _ caller _ hpc => exact ⟨caller, hpc⟩

theorem Pc.running_of_current {pc : Pc} {co : Nat} (hcurrent : pc.current = [co]) :
    ∃ caller, pc = .running co caller := by
  cases pc with
  | running other caller =>
      obtain rfl := List.singleton_inj.mp hcurrent
      exact ⟨caller, rfl⟩
  | _ => cases hcurrent

theorem Step.not_down {s s' : State V} {label : Label V} (hstep : Step s label s') :
    s.pc ≠ .down := by
  intro hdown
  cases hstep with
  | dispatch hpc | enter hpc | leave hpc | dispatched hpc | resumeSpawned _ _ hpc | spawningDone hpc
  | resumeWoken _ _ hpc | wakingDone hpc | wakeServer _ hpc | interrupt _ _ hpc | unwind _ _ hpc
  | abandon hpc | sweep hpc | exited hpc | takeNothing hpc | take _ hpc | spawn _ _ hpc
  | wakeup _ _ _ hpc | awaitInbox _ _ hpc | takeInbox _ _ _ _ hpc | suspend _ _ hpc
  | block _ _ _ hpc | finish _ _ _ hpc | destructorSpawn hpc | destructorWakeup _ hpc =>
      rw [hdown] at hpc
      cases hpc

/-- What a resumption leaves as it is. -/
structure Resumed (s s' : State V) (co : Nat) : Prop where
  idle : s.pc.current = []
  current : s'.pc.current = [co]
  suspended : s'.suspendCoroutines = s.suspendCoroutines
  woken : s'.wakeupCoroutines ⊆ s.wakeupCoroutines
  inbox : s'.inbox = s.inbox
  server : s'.inboxCoroutine = s.inboxCoroutine
  other : ∀ x, x ≠ co → s'.co x = s.co x

theorem Step.resume_frame {s s' : State V} {co : Nat} {outcome : Option (Outcome V)}
    (hstep : Step s (.resume co outcome) s') : Resumed s s' co := by
  cases hstep with
  | resumeSpawned co rest hpc =>
      exact ⟨by rw [hpc]; rfl, rfl, rfl, fun _ => id, rfl, rfl, fun x hx =>
        Function.update_of_ne hx _ _⟩
  | resumeWoken co rest hpc hwoken | unwind co rest hpc hwoken =>
      refine ⟨by rw [hpc]; rfl, rfl, rfl, ?_, rfl, rfl, fun x hx => Function.update_of_ne hx _ _⟩
      rw [hwoken]
      exact fun _ => List.mem_cons_of_mem _

theorem State.wakeup_stays {s : State V} {x : Nat} (co : Nat) (hx : x ∈ s.wakeupCoroutines) :
    x ∈ (s.wakeup co).wakeupCoroutines := by
  unfold State.wakeup
  split
  · exact List.mem_append_left _ hx
  · exact hx

theorem State.receive_stays {s : State V} {x : Nat} (msg : Message V)
    (hx : x ∈ s.wakeupCoroutines) : x ∈ (s.receive msg).wakeupCoroutines := by
  unfold State.receive
  split
  · exact hx
  · change x ∈ (s.answer (-msg.session) msg.content).wakeupCoroutines
    unfold State.answer State.unblock
    split <;> rename_i heq <;> split at heq <;> cases heq
    · exact List.mem_append_left _ hx
    · exact hx
  · split <;> exact hx

/-- A woken coroutine is due until it is resumed. -/
theorem Step.woken_stays {s s' : State V} {label : Label V} (hstep : Step s label s') {x : Nat}
    (hx : x ∈ s.wakeupCoroutines) (hlabel : label.Spares x) : x ∈ s'.wakeupCoroutines := by
  cases hstep with
  | dispatch | enter | leave | dispatched | spawningDone | wakingDone | takeNothing | sweep | exited
  | abandon | awaitInbox | takeInbox | spawn | destructorSpawn => exact hx
  | resumeSpawned co => exact hx
  | resumeWoken co rest hpc hwoken | unwind co rest hpc hwoken =>
      rw [hwoken] at hx
      obtain rfl | hx := List.mem_cons.mp hx
      · exact absurd rfl (hlabel _)
      · exact hx
  | wakeServer co => exact State.wakeup_stays co hx
  | wakeup _ other | destructorWakeup other => exact State.wakeup_stays other hx
  | interrupt blocked suspended =>
      exact List.mem_append_left _ (List.mem_append_left _ hx)
  | take msg => exact State.receive_stays msg hx
  | suspend co caller =>
      rw [((s.suspend co).switchBack_spec co caller).woken]
      exact hx
  | block co caller session =>
      rw [((s.block session co).switchBack_spec co caller).woken]
      exact hx
  | finish co caller e =>
      rw [(s.finish_spec co caller e).woken]
      exact hx

theorem Coroutine.Waits.exception {c c' : Coroutine V} (hwaits : c.Waits c') :
    c'.result.exception = c.result.exception := by
  obtain rfl | ⟨-, rfl⟩ := hwaits <;> rfl

/-- A coroutine that stays woken, or stays suspended, is not given an exception. -/
theorem Step.exception_kept {s s' : State V} {label : Label V} (hstep : Step s label s') {x : Nat}
    (honce : s.queued x + s.unanswered x ≤ born s.created x) (hlabel : label.Spares x)
    (hx : x ∈ s.wakeupCoroutines ∨ (x ∈ s.suspendCoroutines ∧ x ∈ s'.suspendCoroutines)) :
    (s'.co x).result.exception = (s.co x).result.exception := by
  have hentry : 0 < s.queued x + s.unanswered x := by
    rw [State.queued, State.unanswered]
    obtain hx | ⟨hx, -⟩ := hx <;>
    · have := List.count_pos_iff.mpr hx
      omega
  have hcreated := lt_of_born honce hentry
  have hone := Nat.le_trans honce (born_le_one _ _)
  have hanswered : ¬ s'.unanswered x < s.unanswered x := by
    intro hlt
    rw [State.queued, State.unanswered, State.unanswered] at *
    obtain hx | ⟨hx, hx'⟩ := hx
    · have := List.count_pos_iff.mpr hx
      omega
    · have := List.count_pos_iff.mpr hx
      have := List.count_pos_iff.mpr hx'
      omega
  cases hstep.fate x with
  | stays n hco => rw [hco]
  | spawned hx => omega
  | resumed hresume => exact absurd hresume (hlabel _)
  | waits hrunning hco => exact hco.exception
  | given outcome hco hlive hunanswered => exact absurd hunanswered hanswered
  | finished e hco hqueued hunanswered => exact absurd hunanswered hanswered

theorem Step.started_kept {s s' : State V} {label : Label V} (hstep : Step s label s') {x : Nat}
    (hx : x < s.created) (hstarted : (s.co x).started = true) : (s'.co x).started = true := by
  cases hstep.fate x with
  | stays n hco =>
      rw [hco]
      exact hstarted
  | spawned hcreated => omega
  | resumed hlabel hco =>
      rw [hco, Coroutine.switchTo, if_pos hstarted]
      exact hstarted
  | waits hrunning hco =>
      obtain hco | ⟨-, hco⟩ := hco <;> rw [hco] <;> exact hstarted
  | given outcome hco =>
      rw [hco]
      cases outcome <;> exact hstarted
  | finished e hco =>
      rw [hco]
      exact hstarted

/-! ### What one turn leaves to the next -/

/-- Nothing is due, and no coroutine runs. -/
def State.Calm (s : State V) : Prop :=
  s.spawnCoroutines = [] ∧ s.wakeupCoroutines = []
    ∧ (s.pc = .idle ∨ s.pc = .outer ∨ s.pc = .spawning ∨ s.pc = .waking)

/-- `run()` has left its loop, and no message has been taken since. -/
def Pc.Left (pc : Pc) : Prop := pc = .destroying false ∨ pc = .taking

/-- No destructor that runs outside the coroutines spawns or wakes one while the process remembers a
server, unless the process is at its end, or is back from a response with nothing in its inbox. -/
def Label.Quiet (s : State V) : Label V → Prop
  | .destructor _ =>
    s.inboxCoroutine = none ∨ s.pc = .destroying true ∨ (s.pc = .idle ∧ s.inbox = [])
  | _ => True

structure Turned (s : State V) : Prop where
  taking : s.inboxCoroutine ≠ none → s.pc.Left → s.spawnCoroutines = [] ∧ s.wakeupCoroutines = []
  server : s.inboxCoroutine ≠ none → s.inbox = [] ∨ s.Calm

theorem turned_fresh : Turned (State.fresh : State V) where
  taking hserver := absurd rfl hserver
  server hserver := absurd rfl hserver

theorem State.switchBack_inbox (s : State V) (co : Nat) (caller : Caller) :
    (s.switchBack co caller).inbox = s.inbox
      ∧ (s.switchBack co caller).inboxCoroutine = s.inboxCoroutine := by
  cases hexception : (s.co co).result.exception with
  | none =>
      rw [State.switchBack_wait caller hexception]
      exact ⟨rfl, rfl⟩
  | some e =>
      rw [State.switchBack_end caller hexception]
      exact ⟨rfl, rfl⟩

theorem State.wakeup_inbox (s : State V) (co : Nat) :
    (s.wakeup co).inbox = s.inbox ∧ (s.wakeup co).inboxCoroutine = s.inboxCoroutine := by
  unfold State.wakeup
  split <;> exact ⟨rfl, rfl⟩

theorem State.answer_inbox (s : State V) (session : SessionT) (content : Content V) :
    (s.answer session content).inbox = s.inbox
      ∧ (s.answer session content).inboxCoroutine = s.inboxCoroutine := by
  unfold State.answer State.unblock
  split <;> rename_i heq <;> split at heq <;> cases heq <;> exact ⟨rfl, rfl⟩

/-- The inbox of a server is as it was when it looked. -/
theorem Turned.looked {s : State V} (hs : Turned s) (hserver : s.inboxCoroutine ≠ none)
    (hbusy : ¬ s.Calm) : s.inbox = [] :=
  (hs.server hserver).resolve_right hbusy

/-- A step that leaves the inbox and its server alone, and does not end in the mailbox. -/
theorem Turned.of_looked {s s' : State V} (hs : Turned s) (hbusy : ¬ s.Calm)
    (hinbox : s'.inbox = s.inbox ∧ s'.inboxCoroutine = s.inboxCoroutine)
    (hpc : ¬ s'.pc.Left) : Turned s' where
  taking _ htaking := absurd htaking hpc
  server hserver := by
    rw [hinbox.2] at hserver
    exact Or.inl (hinbox.1.trans (hs.looked hserver hbusy))

theorem State.not_calm {s : State V} (hpc : s.pc ≠ .idle ∧ s.pc ≠ .outer ∧ s.pc ≠ .spawning
    ∧ s.pc ≠ .waking) : ¬ s.Calm := by
  rintro ⟨-, -, hcalm⟩
  obtain ⟨hidle, houter, hspawning, hwaking⟩ := hpc
  exact hcalm.elim hidle fun h => h.elim houter fun h => h.elim hspawning hwaking

theorem State.not_calm_running {s : State V} {co : Nat} {caller : Caller}
    (hpc : s.pc = .running co caller) : ¬ s.Calm := by
  refine State.not_calm ⟨?_, ?_, ?_, ?_⟩ <;>
  · rw [hpc]
    nofun

theorem State.afterResume_not_left (s : State V) (caller : Caller) :
    ¬ (s.afterResume caller).Left := by
  rintro (hpc | hpc) <;> cases caller with
  | spawning | waking => cases hpc
  | unwinding =>
      rw [State.afterResume] at hpc
      split_ifs at hpc

theorem State.switchBack_not_left (s : State V) (co : Nat) (caller : Caller) :
    ¬ (s.switchBack co caller).pc.Left := by
  cases hexception : (s.co co).result.exception with
  | none =>
      rw [State.switchBack_wait caller hexception]
      exact s.afterResume_not_left caller
  | some e =>
      rw [State.switchBack_end caller hexception]
      simp only
      split
      · rintro (hpc | hpc) <;> cases hpc
      · exact State.afterResume_not_left _ caller

/-- Back from the coroutine, the inbox is as the coroutine has left it. -/
theorem Turned.switchBack {s s' : State V} (hs : Turned s) {co : Nat} {caller : Caller}
    (hpc : s.pc = .running co caller)
    (hinbox : s'.inbox = s.inbox ∧ s'.inboxCoroutine = s.inboxCoroutine) :
    Turned (s'.switchBack co caller) := by
  obtain ⟨hback, hserver⟩ := s'.switchBack_inbox co caller
  exact hs.of_looked (State.not_calm_running hpc) ⟨hback.trans hinbox.1, hserver.trans hinbox.2⟩
    (s'.switchBack_not_left co caller)

/-- A message is taken when nothing is due. -/
theorem Turned.receive {s : State V} (hs : Turned s) (hpc : s.pc = .taking) (msg : Message V) :
    Turned (s.receive msg) := by
  have hbusy : ¬ s.Calm := State.not_calm (by simp [hpc])
  have hidle : ¬ Pc.Left .idle := fun h => h.elim nofun nofun
  have hreceived : ∀ inbox, Turned { s with pc := .idle, inbox } := fun inbox =>
    ⟨fun _ h => absurd h hidle, fun hserver => Or.inr
      ⟨(hs.taking hserver (Or.inr hpc)).1, (hs.taking hserver (Or.inr hpc)).2, Or.inl rfl⟩⟩
  unfold State.receive
  split
  · exact hreceived _
  · exact hs.of_looked hbusy (s.answer_inbox (-msg.session) msg.content) hidle
  · split
    · exact hs.of_looked hbusy ⟨rfl, rfl⟩ fun h => h.elim nofun nofun
    · exact hreceived _

/-- A quiet destructor leaves the inbox and its server alone. -/
theorem Turned.destructs {s s' : State V} (hs : Turned s) {woken : Option Nat}
    (hquiet : Label.Quiet s (.destructor woken))
    (hinbox : s'.inbox = s.inbox ∧ s'.inboxCoroutine = s.inboxCoroutine) (hpc : s'.pc = s.pc) :
    Turned s' := by
  obtain hnone | hexiting | ⟨hidle, hempty⟩ := hquiet
  · rw [← hinbox.2] at hnone
    exact ⟨fun hserver => absurd hnone hserver, fun hserver => absurd hnone hserver⟩
  · refine hs.of_looked (State.not_calm (by simp [hexiting])) hinbox ?_
    rw [hpc, hexiting]
    exact fun hleft => hleft.elim nofun nofun
  · refine ⟨fun _ hleft => ?_, fun _ => Or.inl (hinbox.1.trans hempty)⟩
    rw [hpc, hidle] at hleft
    exact hleft.elim nofun nofun

theorem Label.quiet {s : State V} {label : Label V} (hlabel : ∀ woken, label ≠ .destructor woken) :
    label.Quiet s := by
  cases label with
  | destructor woken => exact absurd rfl (hlabel woken)
  | _ => trivial

theorem Step.turned {s s' : State V} {label : Label V} (hstep : Step s label s')
    (hquiet : label.Quiet s) (hs : Turned s) : Turned s' := by
  have hno : ∀ {pc : Pc}, pc ≠ .destroying false → pc ≠ .taking → ¬ pc.Left :=
    fun hdestroying htaking h => h.elim hdestroying htaking
  cases hstep with
  | dispatch hpc =>
      exact ⟨fun _ h => absurd h (hno nofun nofun), fun hserver =>
        (hs.server hserver).imp_right fun h => ⟨h.1, h.2.1, Or.inr (Or.inl rfl)⟩⟩
  | enter hpc =>
      exact ⟨fun _ h => absurd h (hno nofun nofun), fun hserver =>
        (hs.server hserver).imp_right fun h => ⟨h.1, h.2.1, Or.inr (Or.inr (Or.inl rfl))⟩⟩
  | spawningDone hpc =>
      exact ⟨fun _ h => absurd h (hno nofun nofun), fun hserver =>
        (hs.server hserver).imp_right fun h => ⟨h.1, h.2.1, Or.inr (Or.inr (Or.inr rfl))⟩⟩
  | leave hpc hidle =>
      simp only [State.Busy, not_or, not_and, not_not] at hidle
      obtain ⟨hspawned, hwoken, hserved⟩ := hidle
      refine ⟨fun _ _ => ⟨hspawned, hwoken⟩, fun hserver => Or.inl ?_⟩
      by_contra hinbox
      exact hserved hinbox (Option.isSome_iff_ne_none.mpr hserver)
  | dispatched hpc =>
      exact ⟨fun hserver _ => hs.taking hserver (Or.inl hpc), fun hserver =>
        Or.inl (hs.looked hserver (State.not_calm (by simp [hpc])))⟩
  | resumeSpawned co rest hpc hspawned =>
      refine hs.of_looked (fun hcalm => ?_) ⟨rfl, rfl⟩ (hno nofun nofun)
      rw [hcalm.1] at hspawned
      cases hspawned
  | resumeWoken co rest hpc hwoken =>
      refine hs.of_looked (fun hcalm => ?_) ⟨rfl, rfl⟩ (hno nofun nofun)
      rw [hcalm.2.1] at hwoken
      cases hwoken
  | wakingDone hpc hwoken hserve =>
      exact ⟨fun _ h => absurd h (hno nofun nofun), fun hserver =>
        Or.inl (hserve.resolve_right hserver)⟩
  | wakeServer co =>
      exact ⟨fun hserver => absurd rfl hserver, fun hserver => absurd rfl hserver⟩
  | interrupt blocked suspended hpc hblocked hsuspended =>
      refine hs.of_looked (State.not_calm (by simp [hpc])) ⟨rfl, rfl⟩ ?_
      split <;> exact hno nofun nofun
  | unwind co rest hpc =>
      exact hs.of_looked (State.not_calm (by simp [hpc])) ⟨rfl, rfl⟩ (hno nofun nofun)
  | abandon hpc | exited hpc | takeNothing hpc =>
      exact hs.of_looked (State.not_calm (by simp [hpc])) ⟨rfl, rfl⟩ (hno nofun nofun)
  | sweep hpc =>
      refine hs.of_looked (State.not_calm (by simp [hpc])) ⟨rfl, rfl⟩ ?_
      obtain h | h := s.sweepZombies_pc true <;> rw [h] <;> exact hno nofun nofun
  | take msg hpc => exact hs.receive hpc msg
  | spawn co caller hpc =>
      refine hs.of_looked (State.not_calm_running hpc) ⟨rfl, rfl⟩ ?_
      change ¬(s.pc = _ ∨ s.pc = _)
      rw [hpc]
      exact hno nofun nofun
  | wakeup co other caller hpc =>
      refine hs.of_looked (State.not_calm_running hpc) (s.wakeup_inbox other) ?_
      rw [(s.wakeup_eq other).pc, hpc]
      exact hno nofun nofun
  | destructorSpawn => exact hs.destructs hquiet ⟨rfl, rfl⟩ rfl
  | destructorWakeup other =>
      exact hs.destructs hquiet (s.wakeup_inbox other) (s.wakeup_eq other).pc
  | awaitInbox co caller hpc hinbox =>
      refine ⟨fun _ htaking => ?_, fun _ => Or.inl hinbox⟩
      change s.pc = _ ∨ s.pc = _ at htaking
      rw [hpc] at htaking
      exact absurd htaking (hno nofun nofun)
  | takeInbox co caller msg rest hpc hinbox =>
      refine ⟨fun _ htaking => ?_, fun hserver => ?_⟩
      · change s.pc = _ ∨ s.pc = _ at htaking
        rw [hpc] at htaking
        exact absurd htaking (hno nofun nofun)
      · rw [hs.looked hserver (State.not_calm_running hpc)] at hinbox
        cases hinbox
  | suspend co caller hpc => exact hs.switchBack hpc ⟨rfl, rfl⟩
  | block co caller session hpc => exact hs.switchBack hpc ⟨rfl, rfl⟩
  | finish co caller e hpc => exact hs.switchBack hpc ⟨rfl, rfl⟩

/-! ### Who is woken -/

theorem State.mem_wakeup_self {s : State V} {co : Nat} (hco : co ∈ s.suspendCoroutines) :
    co ∈ (s.wakeup co).wakeupCoroutines := by
  rw [State.wakeup, if_pos hco]
  exact List.mem_append_right _ (List.mem_singleton_self co)

theorem State.wakeup_spares {s : State V} {co x : Nat} (hne : x ≠ co)
    (hx : x ∈ s.suspendCoroutines) : x ∈ (s.wakeup co).suspendCoroutines := by
  unfold State.wakeup
  split
  · exact (List.mem_erase_of_ne hne).mpr hx
  · exact hx

theorem State.wakeup_suspended {s : State V} {x : Nat} (co : Nat) (hx : x ∈ s.suspendCoroutines) :
    x ∈ (s.wakeup co).wakeupCoroutines ∨ x ∈ (s.wakeup co).suspendCoroutines := by
  by_cases hne : x = co
  · subst hne
    exact Or.inl (State.mem_wakeup_self hx)
  · exact Or.inr (State.wakeup_spares hne hx)

/-- A suspended coroutine stays suspended until it is woken. -/
theorem Step.suspended_stays {s s' : State V} {label : Label V} (hstep : Step s label s') {x : Nat}
    (hx : x ∈ s.suspendCoroutines) : x ∈ s'.wakeupCoroutines ∨ x ∈ s'.suspendCoroutines := by
  cases hstep with
  | dispatch | enter | leave | dispatched | spawningDone | wakingDone | takeNothing | sweep | exited
  | abandon | awaitInbox | takeInbox | spawn | destructorSpawn => exact Or.inr hx
  | resumeSpawned | resumeWoken | unwind => exact Or.inr hx
  | wakeServer co => exact State.wakeup_suspended co hx
  | wakeup _ other | destructorWakeup other => exact State.wakeup_suspended other hx
  | interrupt blocked suspended hpc hblocked hsuspended =>
      exact Or.inl (List.mem_append_right _ (hsuspended.mem_iff.mpr hx))
  | take msg =>
      rw [(s.receive_spec msg).suspended]
      exact Or.inr hx
  | suspend co caller =>
      rw [((s.suspend co).switchBack_spec co caller).suspended]
      exact Or.inr (List.mem_insert_of_mem hx)
  | block co caller session =>
      rw [((s.block session co).switchBack_spec co caller).suspended]
      exact Or.inr hx
  | finish co caller e =>
      rw [(s.finish_spec co caller e).suspended]
      exact Or.inr hx

theorem State.mem_wakeup {s : State V} {co x : Nat} (hx : x ∈ (s.wakeup co).wakeupCoroutines) :
    x ∈ s.wakeupCoroutines ∨ x = co := by
  unfold State.wakeup at hx
  split at hx
  · exact (List.mem_append.mp hx).imp_right List.mem_singleton.mp
  · exact Or.inl hx

/-- The loops of the process wake a suspended coroutine as the server, or to interrupt it. -/
theorem Step.wakes {s s' : State V} {label : Label V} (hstep : Step s label s') {x : Nat}
    (honce : s.queued x + s.unanswered x ≤ 1) (hloop : s.pc.current = [])
    (hx : x ∈ s.suspendCoroutines) (hwoken : x ∈ s'.wakeupCoroutines) :
    (s'.co x).result.exception ≠ none ∨ (label = .destructor (some x) ∧ s'.co x = s.co x)
      ∨ (s.inboxCoroutine = some x ∧ s.inbox ≠ [] ∧ s.pc = .waking ∧ s.wakeupCoroutines = []
        ∧ s' = { s.wakeup x with pc := .outer, inboxCoroutine := none }) := by
  have hsuspended := List.count_pos_iff.mpr hx
  rw [State.queued, State.unanswered, hloop, List.count_nil] at honce
  have hnot : x ∉ s.wakeupCoroutines := by
    intro hmem
    have := List.count_pos_iff.mpr hmem
    omega
  cases hstep with
  | dispatch | enter | leave | dispatched | spawningDone | wakingDone | takeNothing | sweep | exited
  | abandon => exact absurd hwoken hnot
  | resumeSpawned | destructorSpawn => exact absurd hwoken hnot
  | destructorWakeup other =>
      obtain hmem | rfl := State.mem_wakeup hwoken
      · exact absurd hmem hnot
      · exact Or.inr (Or.inl ⟨rfl, congrFun (s.wakeup_eq x).co x⟩)
  | resumeWoken co rest hpc hqueue | unwind co rest hpc hqueue =>
      refine absurd ?_ hnot
      rw [hqueue]
      exact List.mem_cons_of_mem _ hwoken
  | wakeServer co hpc hqueue hinbox hserver =>
      obtain hmem | rfl := State.mem_wakeup hwoken
      · exact absurd hmem hnot
      · exact Or.inr (Or.inr ⟨hserver, hinbox, hpc, hqueue, rfl⟩)
  | interrupt blocked suspended hpc hblocked hsuspended =>
      left
      have hmem : x ∈ blocked ++ suspended :=
        List.mem_append_right _ (hsuspended.mem_iff.mpr hx)
      simp only [State.interrupt, if_pos hmem, Coroutine.setException, Result.setException]
      exact Option.some_ne_none _
  | take msg =>
      obtain ⟨-, -, -, -, -, -, hperm⟩ := s.receive_spec msg
      have hcount := hperm.count_eq x
      have hentry := List.count_pos_iff.mpr hwoken
      simp only [List.count_append] at hcount
      omega
  | spawn _ _ hpc | wakeup _ _ _ hpc | awaitInbox _ _ hpc | takeInbox _ _ _ _ hpc | suspend _ _ hpc
  | block _ _ _ hpc | finish _ _ _ hpc =>
      rw [hpc] at hloop
      cases hloop

/-- The loops of the process forget the server only when they wake it. -/
theorem Step.server {s s' : State V} {label : Label V} (hstep : Step s label s')
    (hloop : s.pc.current = []) :
    s'.inboxCoroutine = s.inboxCoroutine ∨ ∃ co, s.inboxCoroutine = some co
      ∧ (co ∈ s.suspendCoroutines → co ∈ s'.wakeupCoroutines) := by
  cases hstep with
  | dispatch | enter | leave | dispatched | spawningDone | wakingDone | takeNothing | sweep | exited
  | abandon | destructorSpawn => left; rfl
  | destructorWakeup other => exact Or.inl (s.wakeup_inbox other).2
  | resumeSpawned | resumeWoken | unwind | interrupt => left; rfl
  | wakeServer co hpc hqueue hinbox hserver =>
      exact Or.inr ⟨co, hserver, fun hmem => State.mem_wakeup_self (s := s) hmem⟩
  | take msg =>
      left
      unfold State.receive
      split
      · rfl
      · exact (s.answer_inbox (-msg.session) msg.content).2
      · split <;> rfl
  | spawn _ _ hpc | wakeup _ _ _ hpc | awaitInbox _ _ hpc | takeInbox _ _ _ _ hpc | suspend _ _ hpc
  | block _ _ _ hpc | finish _ _ _ hpc =>
      rw [hpc] at hloop
      cases hloop

/-! ### Who is blocked -/

/-- In the loop of `exit()`. -/
def Pc.Unwinds : Pc → Prop
  | .exiting | .unwinding | .running _ .unwinding => True
  | _ => False

/-- In `exit()`, or back from it. -/
def Pc.InExit : Pc → Prop
  | .abandoning | .sweeping | .destroying true | .down | .crashed => True
  | pc => pc.Unwinds

theorem State.switchBack_inExit (s : State V) (co : Nat) :
    (s.switchBack co .unwinding).pc.InExit := by
  have hafter : ∀ s : State V, (s.afterResume .unwinding).InExit := by
    intro s
    simp only [State.afterResume]
    split <;> trivial
  cases hexception : (s.co co).result.exception with
  | none =>
      rw [State.switchBack_wait .unwinding hexception]
      exact hafter s
  | some e =>
      rw [State.switchBack_end .unwinding hexception]
      simp only [ne_eq, not_true_eq_false, and_false, if_false]
      exact hafter _

/-- A process that exits does nothing else any more. -/
theorem Step.inExit {s s' : State V} {label : Label V} (hstep : Step s label s')
    (hs : s.pc.InExit) : s'.pc.InExit := by
  cases hstep with
  | interrupt blocked suspended =>
      simp only
      split <;> trivial
  | unwind | abandon | exited => trivial
  | sweep => obtain hpc | hpc := s.sweepZombies_pc true <;> rw [hpc] <;> trivial
  | spawn co caller hpc | awaitInbox co caller hpc | takeInbox co caller _ _ hpc
  | destructorSpawn => exact hs
  | wakeup _ other | destructorWakeup other =>
      change (s.wakeup other).pc.InExit
      rw [(s.wakeup_eq other).pc]
      exact hs
  | suspend co caller hpc =>
      rw [hpc] at hs
      cases caller with
      | unwinding => exact (s.suspend co).switchBack_inExit co
      | spawning | waking => exact hs.elim
  | block co caller session hpc =>
      rw [hpc] at hs
      cases caller with
      | unwinding => exact (s.block session co).switchBack_inExit co
      | spawning | waking => exact hs.elim
  | finish co caller e hpc =>
      rw [hpc] at hs
      cases caller with
      | unwinding => exact (s.finish co e).switchBack_inExit co
      | spawning | waking => exact hs.elim
  | dispatch hpc | enter hpc | leave hpc | dispatched hpc | resumeSpawned _ _ hpc | spawningDone hpc
  | resumeWoken _ _ hpc | wakingDone hpc | wakeServer _ hpc | takeNothing hpc | take _ hpc =>
      rw [hpc] at hs
      exact hs.elim

/-- A coroutine that is due stays so until it is resumed, or abandoned at the end of `exit()`. -/
theorem Step.due_stays {s s' : State V} {label : Label V} (hstep : Step s label s') {x : Nat}
    (hx : x ∈ s.spawnCoroutines ++ s.wakeupCoroutines) (hlabel : label.Spares x)
    (hpc : s.pc ≠ .abandoning) : x ∈ s'.spawnCoroutines ++ s'.wakeupCoroutines := by
  obtain hx | hx := List.mem_append.mp hx
  · refine List.mem_append_left _ ?_
    cases hstep with
    | dispatch | enter | leave | dispatched | spawningDone | wakingDone | takeNothing | sweep
    | exited | awaitInbox | takeInbox | interrupt => exact hx
    | resumeSpawned co rest _ hspawned =>
        rw [hspawned] at hx
        obtain rfl | hx := List.mem_cons.mp hx
        · exact absurd rfl (hlabel _)
        · exact hx
    | resumeWoken | unwind => exact hx
    | wakeServer co =>
        change x ∈ (s.wakeup co).spawnCoroutines
        rw [(s.wakeup_eq co).spawned]
        exact hx
    | wakeup _ other | destructorWakeup other =>
        change x ∈ (s.wakeup other).spawnCoroutines
        rw [(s.wakeup_eq other).spawned]
        exact hx
    | abandon habandon => exact absurd habandon hpc
    | take msg =>
        rw [(s.receive_spec msg).spawned]
        exact hx
    | spawn | destructorSpawn => exact List.mem_append_left _ hx
    | suspend co caller =>
        rw [((s.suspend co).switchBack_spec co caller).spawned]
        exact hx
    | block co caller session =>
        rw [((s.block session co).switchBack_spec co caller).spawned]
        exact hx
    | finish co caller e =>
        rw [(s.finish_spec co caller e).spawned]
        exact hx
  · exact List.mem_append_right _ (hstep.woken_stays hx hlabel)

/-- When `run()` leaves its loop, nothing is due. -/
theorem Step.left {s s' : State V} {label : Label V} (hstep : Step s label s')
    (hleft : s'.pc.Left) (hpc : ¬ s.pc.Left) : s.spawnCoroutines = [] ∧ s.wakeupCoroutines = [] := by
  cases hstep with
  | leave _ hidle =>
      simp only [State.Busy, not_or, not_not] at hidle
      exact ⟨hidle.1, hidle.2.1⟩
  | dispatched hdestroying => exact absurd (Or.inl hdestroying) hpc
  | dispatch | enter | resumeSpawned | spawningDone | resumeWoken | wakingDone | wakeServer | unwind
  | abandon | exited | takeNothing => exact hleft.elim nofun nofun
  | interrupt =>
      simp only [Pc.Left] at hleft
      split at hleft <;> simp at hleft
  | sweep =>
      obtain hswept | hswept := s.sweepZombies_pc true <;> rw [hswept] at hleft <;>
        exact hleft.elim nofun nofun
  | spawn | awaitInbox | takeInbox | destructorSpawn => exact absurd hleft hpc
  | wakeup _ other | destructorWakeup other =>
      refine absurd ?_ hpc
      rw [← (s.wakeup_eq other).pc]
      exact hleft
  | take msg htaking => exact absurd (Or.inr htaking) hpc
  | suspend co caller => exact absurd hleft ((s.suspend co).switchBack_not_left co caller)
  | block co caller session =>
      exact absurd hleft ((s.block session co).switchBack_not_left co caller)
  | finish co caller e => exact absurd hleft ((s.finish co e).switchBack_not_left co caller)

/-- Outside the mailbox, a blocked coroutine stays blocked unless it is interrupted or loses its
session to another one. -/
theorem Step.blocks {s s' : State V} {label : Label V} (hstep : Step s label s')
    (htaking : s.pc ≠ .taking) :
    s'.blockSessions = s.blockSessions
      ∨ (s.pc.current = [] ∧ ∀ entry ∈ s.blockSessions, entry.2 ∈ s'.wakeupCoroutines
        ∧ (s'.co entry.2).result.exception ≠ none)
      ∨ ∃ x caller session, s.pc = .running x caller
        ∧ s' = (s.block session x).switchBack x caller := by
  cases hstep with
  | dispatch | enter | leave | dispatched | spawningDone | wakingDone | takeNothing | sweep | exited
  | abandon | awaitInbox | takeInbox | spawn | destructorSpawn => left; rfl
  | resumeSpawned | resumeWoken | unwind => left; rfl
  | wakeServer co => exact Or.inl (s.wakeup_eq co).blocked
  | wakeup _ other | destructorWakeup other => exact Or.inl (s.wakeup_eq other).blocked
  | interrupt blocked suspended hpc hblocked hsuspended =>
      refine Or.inr (Or.inl ⟨by rw [hpc]; rfl, fun entry hentry => ?_⟩)
      have hmem : entry.2 ∈ blocked := hblocked.mem_iff.mpr (List.mem_map_of_mem hentry)
      refine ⟨List.mem_append_left _ (List.mem_append_right _ hmem), ?_⟩
      simp only [State.interrupt, if_pos (List.mem_append_left suspended hmem),
        Coroutine.setException, Result.setException]
      exact Option.some_ne_none _
  | take msg hpc => exact absurd hpc htaking
  | suspend co caller =>
      exact Or.inl ((s.suspend co).switchBack_spec co caller).blocked
  | block co caller session hpc => exact Or.inr (Or.inr ⟨co, caller, session, hpc, rfl⟩)
  | finish co caller e => exact Or.inl (s.finish_spec co caller e).blocked

/-! ### Who runs -/

/-- The mailbox is the only way into the inbox from outside the coroutines. -/
theorem Step.loop_inbox {s s' : State V} {label : Label V} (hstep : Step s label s')
    (hloop : s.pc.current = []) (htaking : s.pc ≠ .taking) : s'.inbox = s.inbox := by
  cases hstep with
  | dispatch | enter | leave | dispatched | spawningDone | wakingDone | takeNothing | sweep | exited
  | abandon | destructorSpawn => rfl
  | resumeSpawned | resumeWoken | unwind | interrupt => rfl
  | wakeServer co => exact (s.wakeup_inbox co).1
  | destructorWakeup other => exact (s.wakeup_inbox other).1
  | take msg hpc => exact absurd hpc htaking
  | spawn _ _ hpc | wakeup _ _ _ hpc | awaitInbox _ _ hpc | takeInbox _ _ _ _ hpc | suspend _ _ hpc
  | block _ _ _ hpc | finish _ _ _ hpc =>
      cases (congrArg Pc.current hpc).symm.trans hloop

theorem Pc.Loops.not_running {pc : Pc} (hloops : pc.Loops) {co : Nat} {caller : Caller} :
    pc ≠ .running co caller := by
  rintro rfl
  cases hloops.1

/-- Only a coroutine that runs ends. -/
theorem Step.finishes {s s' : State V} {label : Label V} (hstep : Step s label s') {x : Nat}
    (hbefore : (s.co x).finished = false) (hafter : (s'.co x).finished = true) :
    ∃ caller, s.pc = .running x caller := by
  have hnot : (s'.co x).finished ≠ (s.co x).finished := by
    rw [hbefore, hafter]
    nofun
  cases hstep with
  | finish co caller e hpc =>
      refine ⟨caller, ?_⟩
      rw [hpc]
      by_contra hne
      refine hnot ((s.finish_same co caller e x).2.2.trans (if_neg fun hx => hne ?_))
      rw [hx]
  | dispatch | enter | leave | dispatched | spawningDone | wakingDone | takeNothing | sweep | exited
  | abandon | awaitInbox | takeInbox => exact absurd rfl hnot
  | resumeSpawned co => exact absurd (s.switchTo_same co .spawning x).2.1 hnot
  | resumeWoken co => exact absurd (s.switchTo_same co .waking x).2.1 hnot
  | unwind co => exact absurd (s.switchTo_same co .unwinding x).2.1 hnot
  | wakeServer co => exact absurd (by rw [← (s.wakeup_eq co).co]) hnot
  | wakeup _ other | destructorWakeup other =>
      exact absurd (congrArg Coroutine.finished (congrFun (s.wakeup_eq other).co x)) hnot
  | interrupt blocked suspended =>
      exact absurd ((s.agrees_interrupt blocked suspended .coroutineExit).finished x) hnot
  | take msg => exact absurd ((s.receive_spec msg).agrees.finished x) hnot
  | spawn | destructorSpawn =>
      by_cases hx : x = s.created
      · subst hx
        rw [State.spawn] at hafter
        change ((s.setCo s.created .create).co s.created).finished = true at hafter
        rw [State.setCo_same] at hafter
        cases hafter
      · exact absurd (congrArg Coroutine.finished (Function.update_of_ne hx _ _)) hnot
  | suspend co caller =>
      exact absurd (((s.suspend co).switchBack_spec co caller).agrees.finished x) hnot
  | block co caller session =>
      exact absurd (((s.block session co).switchBack_spec co caller).agrees.finished x) hnot

/-- A coroutine that runs has not ended. -/
def State.RunsUnfinished (s : State V) : Prop :=
  ∀ co caller, s.pc = .running co caller → (s.co co).finished = false

theorem Step.runsUnfinished {s s' : State V} {label : Label V} (hstep : Step s label s')
    (hs : s.RunsUnfinished) : s'.RunsUnfinished := by
  intro x caller' hpc'
  cases hstep with
  | resumeSpawned co rest _ _ hco =>
      cases hpc'
      exact (s.switchTo_same x .spawning x).2.1.trans hco.1
  | resumeWoken co rest _ _ hco =>
      cases hpc'
      exact (s.switchTo_same x .waking x).2.1.trans hco.1
  | unwind co rest _ _ hco =>
      cases hpc'
      exact (s.switchTo_same x .unwinding x).2.1.trans hco.1
  | awaitInbox | takeInbox => exact hs x caller' hpc'
  | spawn | destructorSpawn =>
      change (Function.update s.co s.created .create x).finished = false
      by_cases hx : x = s.created
      · rw [hx, Function.update_self]
        rfl
      · rw [Function.update_of_ne hx]
        exact hs x caller' hpc'
  | wakeup _ other | destructorWakeup other =>
      change ((s.wakeup other).co x).finished = false
      rw [(s.wakeup_eq other).co]
      exact hs x caller' ((s.wakeup_eq other).pc.symm.trans hpc')
  | leave =>
      obtain hpc | hpc := s.sweepZombies_pc false <;> cases hpc.symm.trans hpc'
  | sweep =>
      obtain hpc | hpc := s.sweepZombies_pc true <;> cases hpc.symm.trans hpc'
  | dispatched =>
      simp only at hpc'
      split at hpc' <;> cases hpc'
  | interrupt =>
      simp only at hpc'
      split at hpc' <;> cases hpc'
  | take msg => exact absurd hpc' (s.receive_spec msg).loops.not_running
  | suspend co caller =>
      exact absurd hpc' ((s.suspend co).switchBack_spec co caller).loops.not_running
  | block co caller session =>
      exact absurd hpc' ((s.block session co).switchBack_spec co caller).loops.not_running
  | finish co caller e => exact absurd hpc' (s.finish_spec co caller e).loops.not_running
  | dispatch | enter | spawningDone | wakingDone | wakeServer | takeNothing | exited | abandon =>
      cases hpc'

end Stp.Coroutines
