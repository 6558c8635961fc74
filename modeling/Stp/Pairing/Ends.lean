import Stp.Coroutines.Ownership
import Stp.Pairing.Places

/-!
# The end of a process

Whatever the processes of a system do to each other, the coroutines of each of them make a run as in
one process. So they are owned as they should be, as long as none waits with an exception in its
`Result` or blocks on a session that another one is blocked on; a session is allocated to one
coroutine, from its call of `request` or `yield` until that returns or throws; and when a process has
gone down, its coroutines are gone, each destroyed once, but for those that destructors have spawned
or woken at the last, and no session is left allocated. What the destructor of the process finds are
messages and records of requests.
-/

namespace Stp.Pairing

open Process

variable {P V : Type*}

/-- No coroutine waits with an exception in its `Result`, or on a session that another one is blocked
on. -/
def Label.Clean (s : State P V) : Label P V → Prop
  | .call p label => label.Orderly (s.proc p).machine
  | .block p co session =>
    (Coroutines.Label.wait co (some session) : Coroutines.Label V).Orderly (s.proc p).machine
  | _ => True

/-- The session that a coroutine has. -/
def Request.session : Request → Option SessionT
  | .away => none
  | .pushed session | .waiting session => some session

/-- A process that runs. -/
structure Proc.Kept (c : Proc V) : Prop where
  reachable : Coroutines.orderly.Reachable c.machine
  sessions : ∀ session, session ∈ c.sessions ↔ ∃ co, (c.request co).session = some session
  unique : ∀ co co' session, (c.request co).session = some session →
    (c.request co').session = some session → co = co'
  due : ∀ co session, c.request co = .waiting session →
    (session, co) ∈ c.machine.blockSessions ∨ co ∈ c.machine.wakeupCoroutines
  inside : ∀ co session, c.request co = .pushed session → ∃ caller, c.machine.pc = .running co caller
  revived : c.machine.pc.Sweeps → ∀ co ∈ c.machine.revived, c.request co = .away

/-- A process that has gone down, with what destructors have put into its queues at the last. -/
structure Proc.Ended (c : Proc V) : Prop where
  held : c.machine.held ⊆ c.machine.revived
  destroyed : ∀ co < c.machine.created, (c.machine.co co).destroyed = 1 ∨ co ∈ c.machine.revived
  sessions : c.sessions = ∅
  away : ∀ co, c.request co = .away

structure Proc.InOrder (c : Proc V) : Prop where
  kept : c.life = .running → c.Kept
  ended : c.life ≠ .unborn → c.life ≠ .running → c.Ended

/-! ### Sessions and who has them -/

/-- Each member is with one holder. -/
structure Allotted {ι S : Type*} (members : Finset S) (holding : ι → Option S) : Prop where
  mem : ∀ x, x ∈ members ↔ ∃ i, holding i = some x
  unique : ∀ i j x, holding i = some x → holding j = some x → i = j

section Allotted

variable {ι S : Type*} [DecidableEq ι] [DecidableEq S] {members : Finset S} {holding : ι → Option S}
  {i : ι} {x : S}

theorem Allotted.insert (h : Allotted members holding) (hnone : holding i = none)
    (hfresh : x ∉ members) : Allotted (insert x members) (Function.update holding i (some x)) := by
  have hother : ∀ j, holding j ≠ some x := fun j hj => hfresh ((h.mem x).mpr ⟨j, hj⟩)
  refine ⟨fun y => ?_, fun j k y hj hk => ?_⟩
  · rw [Finset.mem_insert, h.mem]
    constructor
    · rintro (rfl | ⟨j, hj⟩)
      · exact ⟨i, Function.update_self _ _ _⟩
      · have hji : j ≠ i := by
          rintro rfl
          exact Option.some_ne_none y (hj.symm.trans hnone)
        exact ⟨j, (Function.update_of_ne hji _ _).trans hj⟩
    · rintro ⟨j, hj⟩
      rw [Function.update_apply] at hj
      split_ifs at hj
      · exact Or.inl (Option.some_inj.mp hj).symm
      · exact Or.inr ⟨j, hj⟩
  · rw [Function.update_apply] at hj hk
    split_ifs at hj hk with hji hki hki
    · rw [hji, hki]
    · exact absurd (hk.trans hj.symm) (hother k)
    · exact absurd (hj.trans hk.symm) (hother j)
    · exact h.unique j k y hj hk

theorem Allotted.erase (h : Allotted members holding) (hi : holding i = some x) :
    Allotted (members.erase x) (Function.update holding i none) := by
  refine ⟨fun y => ?_, fun j k y hj hk => ?_⟩
  · rw [Finset.mem_erase, h.mem]
    constructor
    · rintro ⟨hne, j, hj⟩
      have hji : j ≠ i := by
        rintro rfl
        exact hne (Option.some_inj.mp (hj.symm.trans hi))
      exact ⟨j, (Function.update_of_ne hji _ _).trans hj⟩
    · rintro ⟨j, hj⟩
      rw [Function.update_apply] at hj
      split_ifs at hj with hji
      refine ⟨?_, j, hj⟩
      rintro rfl
      exact hji (h.unique j i y hj hi)
  · rw [Function.update_apply] at hj hk
    split_ifs at hj hk
    exact h.unique j k y hj hk

end Allotted

variable {c c' : Proc V}

theorem Proc.Kept.allotted (hc : c.Kept) : Allotted c.sessions (Request.session ∘ c.request) :=
  ⟨hc.sessions, hc.unique⟩

theorem Proc.kept_create (pid : ProcessT) : (Proc.create pid : Proc V).Kept where
  reachable := .of_init rfl
  sessions session := by
    refine iff_of_false (Finset.notMem_empty _) ?_
    rintro ⟨co, hco⟩
    cases hco
  unique _ _ _ hco := by cases hco
  due _ _ hco := by cases hco
  inside _ _ hco := by cases hco
  revived hsweeps := hsweeps.elim

/-- Only the coroutines, their requests and the sessions matter. -/
theorem Proc.InOrder.congr (hc : c.InOrder) (hmachine : c'.machine = c.machine)
    (hrequest : c'.request = c.request) (hsessions : c'.sessions = c.sessions)
    (hlife : c'.life = c.life) : c'.InOrder := by
  refine ⟨fun hrunning => ?_, fun hunborn hrunning => ?_⟩
  · obtain ⟨h₁, h₂, h₃, h₄, h₅, h₆⟩ := hc.kept (hlife ▸ hrunning)
    constructor <;> simpa only [hmachine, hrequest, hsessions]
  · obtain ⟨h₁, h₂, h₃, h₄⟩ := hc.ended (hlife ▸ hunborn) (hlife ▸ hrunning)
    constructor <;> simpa only [hmachine, hrequest, hsessions]

/-! ### What the coroutines do -/

theorem Proc.Kept.idle (hc : c.Kept) (hpc : c.machine.pc.current = []) (co : Nat)
    (session : SessionT) : c.request co ≠ .pushed session := by
  intro hco
  obtain ⟨caller, hrunning⟩ := hc.inside co session hco
  rw [hrunning] at hpc
  cases hpc

theorem Proc.Kept.calls (hc : c.Kept) {co : Nat} {caller : Coroutines.Caller}
    (hpc : c.machine.pc = .running co caller) (haway : c.request co = .away) (x : Nat)
    (session : SessionT) : c.request x ≠ .pushed session := by
  intro hx
  obtain ⟨caller', hrunning⟩ := hc.inside x session hx
  rw [hpc] at hrunning
  cases hrunning
  rw [haway] at hx
  cases hx

/-- A coroutine in `request` or `yield` is blocked or woken, and in no other container. -/
theorem Proc.Kept.waiting (hc : c.Kept) {co : Nat} {session : SessionT}
    (hco : c.request co = .waiting session) :
    co < c.machine.created ∧ co ∉ c.machine.suspendCoroutines := by
  have htidy := Coroutines.tidy_of_reachable hc.reachable
  have hqueued : 0 < c.machine.wakeupCoroutines.count co
      + (c.machine.blockSessions.map Prod.snd).count co := by
    obtain hblocked | hwoken := hc.due co session hco
    · have : 0 < (c.machine.blockSessions.map Prod.snd).count co :=
        List.count_pos_iff.mpr (List.mem_map_of_mem (f := Prod.snd) hblocked)
      omega
    · have := List.count_pos_iff.mpr hwoken
      omega
  have honce := htidy.count_le co
  have hcount := c.machine.entries_count co
  rw [Coroutines.State.queued, Coroutines.State.unanswered] at hcount
  refine ⟨htidy.lt_created (List.count_pos_iff.mp (by omega)), fun hsuspended => ?_⟩
  have := List.count_pos_iff.mpr hsuspended
  omega

/-- What destructors put into the queues at the last has no session. -/
theorem Proc.Kept.revived_step (hc : c.Kept) {label : Coroutines.Label V}
    {machine : Coroutines.State V} (hstep : Coroutines.Step c.machine label machine)
    (hpushed : ∀ co session, c.request co ≠ .pushed session) (hsweeps : machine.pc.Sweeps) :
    ∀ co ∈ machine.revived, c.request co = .away := by
  intro co hco
  obtain ⟨hbefore, hold⟩ | hnew := hstep.revived hsweeps hco
  · exact hc.revived hbefore co hold
  · cases hrequest : c.request co with
    | away => rfl
    | pushed session => exact absurd hrequest (hpushed co session)
    | waiting session =>
        obtain ⟨hborn, hsuspended⟩ := hc.waiting hrequest
        obtain rfl | hmem := hnew
        · exact absurd hborn (Nat.lt_irrefl _)
        · exact absurd hmem hsuspended

/-- A step by which no request begins to wait or ends. -/
theorem Proc.Kept.step (hc : c.Kept) {label : Coroutines.Label V} {machine : Coroutines.State V}
    (hstep : Coroutines.Step c.machine label machine) (horderly : label.Orderly c.machine)
    (hpushed : ∀ co session, c.request co ≠ .pushed session)
    (hresume : ∀ co outcome, label = .resume co outcome → c.request co = .away) :
    { c with machine := machine }.Kept where
  reachable := hc.reachable.step ⟨hstep, horderly⟩
  sessions := hc.sessions
  unique := hc.unique
  due co session hco := by
    refine hstep.due_kept (fun outcome hlabel => ?_) (fun hblocked x hlabel => ?_)
      (hc.due co session hco)
    · change c.request co = .waiting session at hco
      rw [hresume co outcome hlabel] at hco
      cases hco
    · subst hlabel
      exact horderly.2 co hblocked
  inside co session hco := absurd hco (hpushed co session)
  revived := hc.revived_step hstep hpushed

/-- `process::request` and `Process::yield`. -/
theorem Proc.Kept.openSession (hc : c.Kept) {co : Nat} {caller : Coroutines.Caller}
    (hpc : c.machine.pc = .running co caller) (haway : c.request co = .away) {session : SessionT}
    (hfresh : session ∉ c.sessions) : (c.openSession co session).Kept := by
  have hself : (c.openSession co session).request co = .pushed session := Function.update_self _ _ _
  have hne : ∀ {x}, x ≠ co → (c.openSession co session).request x = c.request x := fun hx =>
    Function.update_of_ne hx _ _
  have hnone : (c.request co).session = none := by
    rw [haway]
    rfl
  have hallotted := hc.allotted.insert (i := co) hnone hfresh
  rw [show some session = (Request.pushed session).session from rfl,
    ← Function.comp_update] at hallotted
  refine ⟨hc.reachable, hallotted.mem, hallotted.unique, fun x session' hx => ?_,
    fun x session' hx => ?_, fun hsweeps => ?_⟩
  · by_cases hxco : x = co
    · rw [hxco, hself] at hx
      cases hx
    · rw [hne hxco] at hx
      exact hc.due x session' hx
  · by_cases hxco : x = co
    · rw [hxco]
      exact ⟨caller, hpc⟩
    · rw [hne hxco] at hx
      exact hc.inside x session' hx
  · change c.machine.pc.Sweeps at hsweeps
    rw [hpc] at hsweeps
    exact hsweeps.elim

theorem Proc.Kept.block (hc : c.Kept) {co : Nat} {session : SessionT}
    {machine : Coroutines.State V} (hrequest : c.request co = .pushed session)
    (hstep : Coroutines.Step c.machine (.wait co (some session)) machine)
    (horderly : (Coroutines.Label.wait co (some session) : Coroutines.Label V).Orderly c.machine) :
    { c.setRequest co (.waiting session) with machine := machine }.Kept := by
  obtain ⟨caller, hpc⟩ := hstep.wait_running
  have hself : (c.setRequest co (.waiting session)).request co = .waiting session :=
    Function.update_self _ _ _
  have hne : ∀ {x}, x ≠ co → (c.setRequest co (.waiting session)).request x = c.request x :=
    fun hx => Function.update_of_ne hx _ _
  have hallotted : Allotted c.sessions
      (Request.session ∘ (c.setRequest co (.waiting session)).request) := by
    have hsame : (Request.waiting session).session = (Request.session ∘ c.request) co := by
      rw [Function.comp_apply, hrequest]
      rfl
    rw [Proc.setRequest, Function.comp_update, hsame, Function.update_eq_self]
    exact hc.allotted
  refine ⟨hc.reachable.step ⟨hstep, horderly⟩, hallotted.mem, hallotted.unique,
    fun x session' hx => ?_, fun x session' hx => ?_, fun hsweeps => ?_⟩
  · by_cases hxco : x = co
    · subst hxco
      rw [show (c.setRequest x (.waiting session)).request x = _ from hself] at hx
      cases hx
      cases hstep with
      | block _ caller =>
          refine Or.inl ?_
          rw [((c.machine.block session x).switchBack_spec x caller).blocked]
          exact List.mem_cons_self
    · have hold : c.request x = .waiting session' := (hne hxco).symm.trans hx
      refine hstep.due_kept (fun _ => nofun) (fun hblocked y hlabel => ?_) (hc.due x session' hold)
      cases hlabel
      exact horderly.2 x hblocked
  · by_cases hxco : x = co
    · subst hxco
      rw [show (c.setRequest x (.waiting session)).request x = _ from hself] at hx
      cases hx
    · have hold : c.request x = .pushed session' := (hne hxco).symm.trans hx
      obtain ⟨caller', hpc'⟩ := hc.inside x session' hold
      rw [hpc] at hpc'
      cases hpc'
      exact absurd rfl hxco
  · cases hstep with
    | block _ caller =>
        have hloops := ((c.machine.block session co).switchBack_spec co caller).loops
        exact absurd hsweeps hloops.not_sweeps

/-- `block` returns or throws. -/
theorem Proc.Kept.releaseSession (hc : c.Kept) {co : Nat} {session : SessionT}
    {outcome : Option (Coroutines.Outcome V)} {machine : Coroutines.State V}
    (hrequest : c.request co = .waiting session)
    (hstep : Coroutines.Step c.machine (.resume co outcome) machine) :
    { c.releaseSession co session with machine := machine }.Kept := by
  have hself : (c.releaseSession co session).request co = .away := Function.update_self _ _ _
  have hne : ∀ {x}, x ≠ co → (c.releaseSession co session).request x = c.request x :=
    fun hx => Function.update_of_ne hx _ _
  have hpushed : ∀ x session', c.request x ≠ .pushed session' := by
    refine hc.idle ?_
    cases hstep with
    | resumeSpawned _ _ hpc | resumeWoken _ _ hpc | unwind _ _ hpc =>
        rw [hpc]
        rfl
  have hhas : (c.request co).session = some session := by
    rw [hrequest]
    rfl
  have hallotted := hc.allotted.erase (i := co) hhas
  rw [show none = Request.away.session from rfl, ← Function.comp_update] at hallotted
  refine ⟨hc.reachable.step ⟨hstep, trivial⟩, hallotted.mem, hallotted.unique,
    fun x session' hx => ?_, fun x session' hx => ?_, fun hsweeps => ?_⟩
  all_goals
    dsimp only at *
  · by_cases hxco : x = co
    · rw [hxco, hself] at hx
      cases hx
    · rw [hne hxco] at hx
      refine hstep.due_kept (fun outcome' hlabel => ?_) (fun _ _ => nofun) (hc.due x session' hx)
      cases hlabel
      exact hxco rfl
  · by_cases hxco : x = co
    · rw [hxco, hself] at hx
      cases hx
    · rw [hne hxco] at hx
      exact absurd hx (hpushed x session')
  · cases hstep with
    | resumeSpawned | resumeWoken | unwind => exact hsweeps.elim

/-- When it goes down, no coroutine of it is left, but for what destructors have put into the queues
at the last. -/
theorem Proc.Kept.down (hc : c.Kept) (hpc : c.machine.pc = .down) : c.Ended := by
  have htidy := Coroutines.tidy_of_reachable hc.reachable
  have hcurrent : c.machine.pc.current = [] := by
    rw [hpc]
    rfl
  obtain ⟨hsuspended, hblocked, hzombies, hrevived⟩ : c.machine.suspendCoroutines = []
      ∧ c.machine.blockSessions = [] ∧ c.machine.zombieCoroutines = []
      ∧ c.machine.spawnCoroutines ++ c.machine.wakeupCoroutines ⊆ c.machine.revived := by
    have hdrained := htidy.drained
    rwa [Coroutines.State.Drained, hpc] at hdrained
  have hheld : c.machine.held ⊆ c.machine.revived := by
    rw [Coroutines.State.held, Coroutines.State.resumables, hsuspended, hblocked, hzombies]
    simpa using hrevived
  have hsweeps : c.machine.pc.Sweeps := by
    rw [hpc]
    trivial
  have haway : ∀ co, c.request co = .away := by
    intro co
    cases hco : c.request co with
    | away => rfl
    | pushed session => exact absurd hco (hc.idle hcurrent co session)
    | waiting session =>
        obtain hmem | hwoken := hc.due co session hco
        · rw [hblocked] at hmem
          exact absurd hmem List.not_mem_nil
        · rw [hc.revived hsweeps co (hrevived (List.mem_append_right _ hwoken))] at hco
          cases hco
  refine ⟨hheld, (htidy.owned hcurrent).down hpc, ?_, haway⟩
  refine Finset.eq_empty_of_forall_notMem fun session hmem => ?_
  obtain ⟨co, hco⟩ := (hc.sessions session).mp hmem
  rw [haway co] at hco
  cases hco

/-! ### Runs -/

variable [DecidableEq P] {s s' : State P V}

def clean : Transition.System (State P V) (Label P V) := system.restrict fun s label => label.Clean s

/-- A message was pushed, to whoever it was. -/
theorem inOrder_of_answers {request : Server.Key} {source : ProcessT} {content : Content V}
    (hs : ∀ p, (s.proc p).InOrder) (hanswers : s.Answers source request content s') (p : P) :
    (s'.proc p).InOrder := by
  obtain hsame | ⟨-, msg, hsame⟩ := answers_proc hanswers p
  · rw [hsame]
    exact hs p
  · rw [hsame]
    exact (hs p).congr rfl rfl rfl rfl

theorem life_of_answers {request : Server.Key} {source : ProcessT} {content : Content V}
    (hanswers : s.Answers source request content s') (p : P) :
    (s'.proc p).life = (s.proc p).life := by
  obtain hsame | ⟨-, msg, hsame⟩ := answers_proc hanswers p
  · rw [hsame]
  · rw [hsame]
    rfl

/-- A process that runs moves. -/
theorem Proc.Kept.inOrder (hc : c.Kept) (hlife : c.life = .running) : c.InOrder :=
  ⟨fun _ => hc, fun _ hrunning => absurd hlife hrunning⟩

/-- The destructor goes on. -/
theorem Proc.InOrder.destroys (hc : c.InOrder) {life : Life} (hlife : c.life = life)
    (hdestroying : life ≠ .unborn ∧ life ≠ .running) (hdown : c'.life ≠ .running)
    (inbox : List (Message V)) (hmachine : c'.machine = { c.machine with inbox := inbox })
    (hrequest : c'.request = c.request) (hsessions : c'.sessions = c.sessions) : c'.InOrder := by
  refine ⟨fun hrunning => absurd hrunning hdown, fun _ _ => ?_⟩
  obtain ⟨hunborn, hrunning⟩ := hdestroying
  obtain ⟨hheld, hdestroyed, hempty, haway⟩ := hc.ended (hlife ▸ hunborn) (hlife ▸ hrunning)
  constructor
  · rw [hmachine]
    exact hheld
  · rw [hmachine]
    exact hdestroyed
  · rw [hsessions]
    exact hempty
  · rw [hrequest]
    exact haway

theorem Step.inOrder {label : Label P V} (hstep : Step s label s') (hclean : label.Clean s)
    (hs : ∀ p, (s.proc p).InOrder) : ∀ p, (s'.proc p).InOrder := by
  have hset : ∀ {p c}, c.InOrder → ∀ q, ((s.set p c).proc q).InOrder := fun hself q =>
    State.forall_set (Q := fun _ c => c.InOrder) hself (fun q _ => hs q) q
  have hkept : ∀ {p}, (s.proc p).Runs → (s.proc p).Kept := fun hruns => (hs _).kept hruns.1
  have hcall : ∀ {p co caller label machine}, (s.proc p).Calls co caller →
      Coroutines.Step (s.proc p).machine label machine → label.Orderly (s.proc p).machine →
      { s.proc p with machine := machine }.Kept := by
    intro p co caller label machine hcalls hstep horderly
    obtain ⟨hruns, hpc, haway⟩ := hcalls
    refine (hkept hruns).step hstep horderly ((hkept hruns).calls hpc haway) ?_
    rintro x outcome rfl
    cases hstep with
    | resumeSpawned _ _ hpc' | resumeWoken _ _ hpc' | unwind _ _ hpc' =>
        rw [hpc] at hpc'
        cases hpc'
  have htake : ∀ {p machine}, (s.proc p).Runs → (s.proc p).machine.pc = .taking →
      Coroutines.Step (s.proc p).machine .tau machine → { s.proc p with machine := machine }.Kept := by
    intro p machine hruns hpc hstep
    refine (hkept hruns).step hstep trivial ((hkept hruns).idle ?_) nofun
    rw [hpc]
    rfl
  have hinbox : ∀ {p co caller msg rest}, (s.proc p).Calls co caller →
      (s.proc p).machine.inbox = msg :: rest → ((s.proc p).takeFront rest).Kept :=
    fun hcalls hinbox => hcall hcalls (.takeInbox _ _ _ _ hcalls.2.1 hinbox) trivial
  cases hstep with
  | create p pid => exact hset ((Proc.kept_create pid).inOrder rfl)
  | send p msg => exact hset ((hs p).congr rfl rfl rfl rfl)
  | exchange p => exact hset ((hs p).congr rfl rfl rfl rfl)
  | loop p label machine hruns hstep hloop htaking hresume =>
      refine hset (((hkept hruns).step hstep ?_ ((hkept hruns).idle hloop) hresume).inOrder hruns.1)
      cases hstep with
      | suspend co caller hpc | block co caller session hpc =>
          rw [hpc] at hloop
          cases hloop
      | _ => trivial
  | takeRequest p msg hruns hpc | takeResponse p msg hruns hpc | takeNotify p msg hruns hpc =>
      have hstep : Coroutines.Step (s.proc p).machine .tau ((s.proc p).machine.receive msg) :=
        .take msg hpc
      exact hset (((htake hruns hpc hstep).inOrder hruns.1).congr rfl rfl rfl rfl)
  | takeNothing p hruns hpc =>
      exact hset (((htake hruns hpc (.takeNothing hpc)).inOrder hruns.1).congr rfl rfl rfl rfl)
  | down p hruns hpc =>
      refine hset ⟨nofun, fun _ _ => ?_⟩
      obtain ⟨hheld, hdestroyed, hsessions, haway⟩ := (hkept hruns).down hpc
      exact ⟨hheld, hdestroyed, hsessions, haway⟩
  | call p co caller label machine hcalls hstep =>
      exact hset ((hcall hcalls hstep hclean).inOrder hcalls.1.1)
  | finish p co caller e hcalls =>
      exact hset (((hcall hcalls (.finish co caller e hcalls.2.1) trivial).inOrder
        hcalls.1.1).congr rfl rfl rfl rfl)
  | drop p co caller msg rest hcalls hmsg => exact hset ((hinbox hcalls hmsg).inOrder hcalls.1.1)
  | callback p co caller msg rest hcalls hmsg =>
      exact hset (((hinbox hcalls hmsg).inOrder hcalls.1.1).congr rfl rfl rfl rfl)
  | coroutine p co caller msg rest hcalls hmsg =>
      obtain ⟨hruns, hpc, haway⟩ := hcalls
      have htaken := hinbox ⟨hruns, hpc, haway⟩ hmsg
      have hspawned := htaken.step (.spawn co caller hpc) trivial (htaken.calls hpc haway) nofun
      exact hset ((hspawned.inOrder hruns.1).congr rfl rfl rfl rfl)
  | handled p co caller call rest hcalls =>
      exact hset ((hs p).congr rfl rfl rfl rfl)
  | respond p co caller content s₁ hcalls hanswers
  | respondTo p request call content s₁ hruns hanswers =>
      have hs₁ := inOrder_of_answers hs hanswers
      exact State.forall_set (Q := fun _ c => c.InOrder) ((hs₁ p).congr rfl rfl rfl rfl)
        fun q _ => hs₁ q
  | close p request => exact hset ((hs p).congr rfl rfl rfl rfl)
  | request p q co caller session content s₁ hcalls hfound hfresh hpush =>
      have hs₁ : ∀ r, (s₁.proc r).InOrder := by
        rw [hpush]
        exact hset ((hs q).congr rfl rfl rfl rfl)
      have hsame : s₁.proc p = s.proc p ∨ ∃ msg, s₁.proc p = (s.proc p).append msg := by
        rw [hpush]
        by_cases hp : p = q
        · subst hp
          exact Or.inr ⟨_, s.set_self _ _⟩
        · exact Or.inl (s.set_of_ne hp _)
      have hopen := (hkept hcalls.1).openSession hcalls.2.1 hcalls.2.2 hfresh
      refine State.forall_set (Q := fun _ c => c.InOrder) ?_ fun r _ => hs₁ r
      obtain hsame | ⟨msg, hsame⟩ := hsame <;> rw [hsame]
      · exact hopen.inOrder hcalls.1.1
      · exact (hopen.inOrder hcalls.1.1).congr rfl rfl rfl rfl
  | yield p co caller session hcalls hfresh =>
      have hopen := (hkept hcalls.1).openSession hcalls.2.1 hcalls.2.2 hfresh
      exact hset ((hopen.inOrder hcalls.1.1).congr rfl rfl rfl rfl)
  | block p co session machine hruns hrequest hstep =>
      exact hset (((hkept hruns).block hrequest hstep hclean).inOrder hruns.1)
  | resume p co session outcome machine hruns hrequest hexit hstep
  | unwind p co session outcome machine hruns hrequest hexit hstep =>
      exact hset (((hkept hruns).releaseSession hrequest hstep).inOrder hruns.1)
  | destroy p hlife | recordsDone p hlife | inboxDone p hlife | mailboxDone p hlife =>
      exact hset ((hs p).destroys hlife ⟨nofun, nofun⟩ nofun _ rfl rfl rfl)
  | discardMailbox p msg hlife | discardInbox p msg rest hlife =>
      refine hset ((hs p).destroys hlife ⟨nofun, nofun⟩ ?_ _ rfl rfl rfl)
      change (s.proc p).life ≠ .running
      rw [hlife]
      exact nofun
  | abortRecord p source request rest s₁ hlife hrecord hanswers =>
      have hs₁ := inOrder_of_answers hs hanswers
      have hlife₁ := (life_of_answers hanswers p).trans hlife
      exact State.forall_set (Q := fun _ c => c.InOrder)
        ((hs₁ p).destroys hlife₁ ⟨nofun, nofun⟩ nofun _ rfl rfl rfl) fun q _ => hs₁ q
  | drainInbox p source msg rest s₁ hlife hmsg htype hanswers
  | drainMailbox p source msg s₁ hlife htake htype hanswers =>
      have hs₁ := inOrder_of_answers hs hanswers
      have hlife₁ := (life_of_answers hanswers p).trans hlife
      refine State.forall_set (Q := fun _ c => c.InOrder)
        ((hs₁ p).destroys hlife₁ ⟨nofun, nofun⟩ ?_ _ rfl rfl rfl) fun q _ => hs₁ q
      change (s₁.proc p).life ≠ .running
      rw [hlife₁]
      exact nofun

theorem inOrder_of_reachable (hs : clean.Reachable s) (p : P) : (s.proc p).InOrder := by
  refine hs.invariant (P := fun s => ∀ p, (s.proc p).InOrder) ?_ ?_ p
  · rintro s rfl p
    exact ⟨nofun, fun hborn => absurd rfl hborn⟩
  · intro s label s' _ hs hstep
    exact hstep.1.inOrder hstep.2 hs

/-- **A process ends clean.** In every run of all processes in which no coroutine waits with an
exception in its `Result`, or on a session that another one is blocked on: the coroutines of a process
that runs are in a state that they can reach alone, and owned as they should be; its allocated sessions
are those of its coroutines in `request` and `yield`, one each; and a process that has gone down, and
is being destroyed or is not yet, has no coroutine in a request, no session, and each of its coroutines
destroyed once, but for those that destructors have spawned or woken in its last sweep, which are all
that its containers hold. -/
theorem process_ends_clean (hs : clean.Reachable s) (p : P) :
    ((s.proc p).life = .running →
      Coroutines.orderly.Reachable (s.proc p).machine
        ∧ ((s.proc p).machine.pc.current = [] → Coroutines.Owned (s.proc p).machine)
        ∧ ∀ session, (session ∈ (s.proc p).sessions
            ↔ ∃ co, ((s.proc p).request co).session = some session)
          ∧ ∀ co co', ((s.proc p).request co).session = some session →
            ((s.proc p).request co').session = some session → co = co')
      ∧ ((s.proc p).life ≠ .unborn → (s.proc p).life ≠ .running →
        (∀ co < (s.proc p).machine.created, ((s.proc p).machine.co co).destroyed = 1
            ∨ co ∈ (s.proc p).machine.revived)
          ∧ (s.proc p).machine.held ⊆ (s.proc p).machine.revived
          ∧ (∀ co, (s.proc p).request co = .away) ∧ (s.proc p).sessions = ∅) := by
  obtain ⟨hkept, hended⟩ := inOrder_of_reachable hs p
  refine ⟨fun hrunning => ?_, fun hborn hrunning => ?_⟩
  · have hc := hkept hrunning
    have htidy := Coroutines.tidy_of_reachable hc.reachable
    refine ⟨hc.reachable, htidy.owned, fun session => ⟨hc.sessions session, fun co co' => ?_⟩⟩
    exact hc.unique co co' session
  · obtain ⟨hheld, hdestroyed, hsessions, haway⟩ := hended hborn hrunning
    exact ⟨hdestroyed, hheld, haway, hsessions⟩

/-- The only coroutine of a process yields, goes on when its message is taken, and returns. -/
theorem process_ends_clean_yielded :
    ∃ s : State Unit Nat, clean.Reachable s ∧ (s.proc ()).life = .down
      ∧ ((s.proc ()).machine.co 0).destroyed = 1 ∧ (s.proc ()).sessions = ∅ := by
  have h0 : clean.Reachable (State.fresh : State Unit Nat) := .of_init rfl
  have h1 := h0.step ⟨Step.create () 1 rfl, trivial⟩
  have h2 := h1.step ⟨Step.loop () _ _ ⟨rfl, rfl⟩ (.dispatch rfl) rfl nofun nofun, trivial⟩
  have h3 := h2.step ⟨Step.loop () _ _ ⟨rfl, rfl⟩ (.enter rfl (Or.inl (List.cons_ne_nil _ _))) rfl
    nofun nofun, trivial⟩
  have h4 := h3.step ⟨Step.loop () _ _ ⟨rfl, rfl⟩ (.resumeSpawned 0 [] rfl rfl ⟨rfl, rfl⟩) rfl
    nofun fun _ _ _ => rfl, trivial⟩
  have h5 := h4.step ⟨Step.yield () 0 .spawning 5 ⟨⟨rfl, rfl⟩, rfl, rfl⟩ (Finset.notMem_empty _),
    trivial⟩
  have h6 := h5.step ⟨Step.block () 0 5 _ ⟨rfl, rfl⟩ rfl (.block 0 .spawning 5 rfl), rfl,
    fun _ => List.not_mem_nil⟩
  have h7 := h6.step ⟨Step.loop () _ _ ⟨rfl, rfl⟩ (.spawningDone rfl rfl) rfl nofun nofun, trivial⟩
  have h8 := h7.step ⟨Step.loop () _ _ ⟨rfl, rfl⟩ (.wakingDone rfl rfl (Or.inl rfl)) rfl nofun nofun,
    trivial⟩
  have h9 := h8.step ⟨Step.loop () _ _ ⟨rfl, rfl⟩ (.leave rfl (by decide)) rfl nofun nofun, trivial⟩
  have h10 := h9.step ⟨Step.loop () _ _ ⟨rfl, rfl⟩ (.dispatched rfl) rfl nofun nofun, trivial⟩
  have h11 := h10.step ⟨Step.takeResponse () _ ⟨rfl, rfl⟩ rfl rfl rfl, trivial⟩
  have h12 := h11.step ⟨Step.loop () _ _ ⟨rfl, rfl⟩ (.dispatch rfl) rfl nofun nofun, trivial⟩
  have h13 := h12.step ⟨Step.loop () _ _ ⟨rfl, rfl⟩ (.enter rfl (by decide)) rfl nofun nofun, trivial⟩
  have h14 := h13.step ⟨Step.loop () _ _ ⟨rfl, rfl⟩ (.spawningDone rfl rfl) rfl nofun nofun, trivial⟩
  have h15 := h14.step ⟨Step.resume () 0 5 _ _ ⟨rfl, rfl⟩ rfl id
    (.resumeWoken 0 [] rfl rfl ⟨rfl, rfl⟩), trivial⟩
  have h16 := h15.step ⟨Step.finish () 0 .waking .coroutineExit ⟨⟨rfl, rfl⟩, rfl, rfl⟩, trivial⟩
  have h17 := h16.step ⟨Step.loop () _ _ ⟨rfl, rfl⟩ (.wakingDone rfl rfl (Or.inl rfl)) rfl nofun
    nofun, trivial⟩
  have h18 := h17.step ⟨Step.loop () _ _ ⟨rfl, rfl⟩ (.leave rfl (by decide)) rfl nofun nofun, trivial⟩
  have h19 := h18.step ⟨Step.loop () _ _ ⟨rfl, rfl⟩ (.dispatched rfl) rfl nofun nofun, trivial⟩
  have h20 := h19.step ⟨Step.down () ⟨rfl, rfl⟩ rfl, trivial⟩
  obtain ⟨hdestroyed, -, -, hsessions⟩ := (process_ends_clean h20 ()).2 nofun nofun
  exact ⟨_, h20, rfl, (hdestroyed 0 (by decide)).resolve_right List.not_mem_nil, hsessions⟩

end Stp.Pairing
