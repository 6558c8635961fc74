import Stp.Coroutines.Sessions
import Stp.Pairing.Fates

/-!
# A request at the process that asks

From its push until `block` returns, the coroutine of a request is in `_block_sessions` under the
session, or on its way there, or the content of the response is stored for it. No other step of the
process has to do with it.
-/

namespace Stp.Pairing

open Process Coroutines

variable {V : Type*}

/-! ### The coroutines that wait -/

structure Waits (machine : Coroutines.State V) (request : Nat → Request) : Prop where
  slots : Slots machine
  unfinished : machine.RunsUnfinished
  keys : (machine.blockSessions.map Prod.fst).Nodup
  created : ∀ co, request co ≠ .away → co < machine.created
  nonzero : ∀ co session, request co = .pushed session ∨ request co = .waiting session →
    session ≠ 0
  inside : ∀ co session, request co = .pushed session → ∃ caller, machine.pc = .running co caller
  clean : ¬ machine.pc.InExit → ∀ co session, request co = .waiting session →
    (machine.co co).faulted = false

theorem waits_fresh : Waits (Coroutines.State.fresh : Coroutines.State V) fun _ => .away where
  slots := slots_fresh
  unfinished _ _ hpc := by cases hpc
  keys := List.nodup_nil
  created _ hco := absurd rfl hco
  nonzero _ _ hco := hco.elim nofun nofun
  inside _ _ hco := by cases hco
  clean _ _ _ hco := by cases hco

variable {machine machine' : Coroutines.State V} {request : Nat → Request}

/-- Only one coroutine is on its way to `block`, and it runs. -/
theorem Waits.not_pushed (hs : Waits machine request) {co : Nat} {caller : Caller}
    (hpc : machine.pc = .running co caller) (haway : request co = .away) (x : Nat)
    (session : SessionT) : request x ≠ .pushed session := by
  intro hx
  obtain ⟨caller', hpc'⟩ := hs.inside x session hx
  rw [hpc] at hpc'
  cases hpc'
  rw [haway] at hx
  cases hx

theorem Waits.idle (hs : Waits machine request) (hpc : machine.pc.current = []) (x : Nat)
    (session : SessionT) : request x ≠ .pushed session := by
  intro hx
  obtain ⟨caller, hpc'⟩ := hs.inside x session hx
  rw [hpc'] at hpc
  cases hpc

/-- What is stored for a coroutine that waits stays. -/
theorem Waits.stored (hs : Waits machine request) {label : Coroutines.Label V}
    (hstep : Coroutines.Step machine label machine') (htaking : machine.pc ≠ .taking)
    (hexit : ¬ machine.pc.InExit) {co : Nat} (hco : request co ≠ .away)
    (hspares : label.Spares co) : (machine'.co co).stored = (machine.co co).stored := by
  obtain hkept | ⟨hnew, -⟩ := hstep.stored_kept htaking hexit hspares
  · exact hkept
  · exact absurd (hs.created co hco) (by omega)

/-- A step that neither takes a message nor begins or ends a wait on a session. -/
theorem Waits.step (hs : Waits machine request) {label : Coroutines.Label V}
    (hstep : Coroutines.Step machine label machine') (htaking : machine.pc ≠ .taking)
    (hpushed : ∀ co session, request co ≠ .pushed session)
    (hspares : ∀ co, request co ≠ .away → label.Spares co) : Waits machine' request where
  slots := hstep.slots hs.slots
  unfinished := hstep.runsUnfinished hs.unfinished
  keys := (table_step hstep).1 hs.keys
  created co hco := Nat.lt_of_lt_of_le (hs.created co hco) hstep.created_le
  nonzero := hs.nonzero
  inside co session hco := absurd hco (hpushed co session)
  clean hexit co session hco := by
    have hexit' : ¬ machine.pc.InExit := fun h => hexit (hstep.inExit h)
    have haway : request co ≠ .away := by
      rw [hco]
      exact Request.noConfusion
    have hstored := hs.stored hstep htaking hexit' haway (hspares co haway)
    exact (congrArg Prod.snd hstored).trans (hs.clean hexit' co session hco)

/-- A coroutine that runs has a session, and has pushed its message. -/
theorem Waits.push (hs : Waits machine request) {co : Nat} {caller : Caller}
    (hpc : machine.pc = .running co caller) {session : SessionT} (hsession : session ≠ 0) :
    Waits machine (Function.update request co (.pushed session)) := by
  have hborn : co < machine.created := by
    apply hs.slots.lt_created
    rw [State.unanswered, hpc, Pc.current, List.count_cons_self]
    omega
  refine ⟨hs.slots, hs.unfinished, hs.keys, fun x hx => ?_, fun x session' hx => ?_,
    fun x session' hx => ?_, fun hexit x session' hx => ?_⟩
  all_goals
    by_cases hne : x = co
  · rw [hne]
    exact hborn
  · rw [Function.update_of_ne hne] at hx
    exact hs.created x hx
  · rw [hne, Function.update_self] at hx
    obtain hx | hx := hx <;> cases hx
    exact hsession
  · rw [Function.update_of_ne hne] at hx
    exact hs.nonzero x session' hx
  · rw [hne]
    exact ⟨caller, hpc⟩
  · rw [Function.update_of_ne hne] at hx
    exact hs.inside x session' hx
  · rw [hne, Function.update_self] at hx
    cases hx
  · rw [Function.update_of_ne hne] at hx
    exact hs.clean hexit x session' hx

theorem block_spares {co : Nat} {session : SessionT} (x : Nat) :
    (Coroutines.Label.wait co (some session) : Coroutines.Label V).Spares x :=
  fun _ => nofun

/-- It blocks, with no exception left in its `Result`. -/
theorem Waits.block (hs : Waits machine request) {co : Nat} {session : SessionT}
    (hstep : Coroutines.Step machine (.wait co (some session)) machine')
    (hrequest : request co = .pushed session)
    (hclean : (machine.co co).result.exception = none) :
    Waits machine' (Function.update request co (.waiting session)) := by
  obtain ⟨caller, hpc⟩ := hstep.wait_running
  have htaking : machine.pc ≠ .taking := by
    rw [hpc]
    exact Pc.noConfusion
  have haway : request co ≠ .away := by
    rw [hrequest]
    exact Request.noConfusion
  have hfaulted : (machine.co co).faulted = false :=
    ((hs.slots.slot co (hs.unfinished co caller hpc)).none_iff.mp hclean).1
  refine ⟨hstep.slots hs.slots, hstep.runsUnfinished hs.unfinished, (table_step hstep).1 hs.keys,
    fun x hx => ?_, fun x session' hx => ?_, fun x session' hx => ?_, fun hexit x session' hx => ?_⟩
  · refine Nat.lt_of_lt_of_le (hs.created x ?_) hstep.created_le
    by_cases hne : x = co
    · rw [hne]
      exact haway
    · rwa [Function.update_of_ne hne] at hx
  · by_cases hne : x = co
    · rw [hne, Function.update_self] at hx
      obtain hx | hx := hx <;> cases hx
      exact hs.nonzero co session (Or.inl hrequest)
    · rw [Function.update_of_ne hne] at hx
      exact hs.nonzero x session' hx
  · by_cases hne : x = co
    · rw [hne, Function.update_self] at hx
      cases hx
    · rw [Function.update_of_ne hne] at hx
      obtain ⟨caller', hpc'⟩ := hs.inside x session' hx
      rw [hpc] at hpc'
      cases hpc'
      exact absurd rfl hne
  · have hexit' : ¬ machine.pc.InExit := fun h => hexit (hstep.inExit h)
    by_cases hne : x = co
    · rw [hne]
      have hstored := hs.stored hstep htaking hexit' haway (block_spares co)
      exact (congrArg Prod.snd hstored).trans hfaulted
    · rw [Function.update_of_ne hne] at hx
      have haway' : request x ≠ .away := by
        rw [hx]
        exact Request.noConfusion
      have hstored := hs.stored hstep htaking hexit' haway' (block_spares x)
      exact (congrArg Prod.snd hstored).trans (hs.clean hexit' x session' hx)

/-- `block` returns. -/
theorem Waits.resume (hs : Waits machine request) {co : Nat}
    {outcome : Option (Coroutines.Outcome V)}
    (hstep : Coroutines.Step machine (.resume co outcome) machine') :
    Waits machine' (Function.update request co .away) := by
  have hframe := hstep.resume_frame
  have hkeep : ∀ x, Function.update request co .away x ≠ .away →
      x ≠ co ∧ Function.update request co .away x = request x := by
    intro x hx
    have hne : x ≠ co := by
      rintro rfl
      exact hx (Function.update_self _ _ _)
    exact ⟨hne, Function.update_of_ne hne _ _⟩
  refine ⟨hstep.slots hs.slots, hstep.runsUnfinished hs.unfinished, (table_step hstep).1 hs.keys,
    fun x hx => ?_, fun x session hx => ?_, fun x session hx => ?_, fun hexit x session hx => ?_⟩
  · rw [(hkeep x hx).2] at hx
    exact Nat.lt_of_lt_of_le (hs.created x hx) hstep.created_le
  · have hwaiting : Function.update request co .away x ≠ .away := by
      obtain hx | hx := hx <;>
      · rw [hx]
        exact Request.noConfusion
    rw [(hkeep x hwaiting).2] at hx
    exact hs.nonzero x session hx
  · obtain ⟨-, hsame⟩ := hkeep x (by rw [hx]; exact Request.noConfusion)
    rw [hsame] at hx
    exact absurd hx (hs.idle hframe.idle x session)
  · obtain ⟨hne, hsame⟩ := hkeep x (by rw [hx]; exact Request.noConfusion)
    rw [hsame] at hx
    rw [hframe.other x hne]
    exact hs.clean (fun h => hexit (hstep.inExit h)) x session hx

theorem answer_faulted (c : Coroutines.Coroutine V) (content : Content V) :
    (c.answer content).faulted = c.faulted := by
  cases content <;> rfl

/-- Whether a coroutine was given an exception in an earlier wait does not change when a message is
taken. -/
theorem receive_faulted (machine : Coroutines.State V) (msg : Message V) (co : Nat) :
    ((machine.receive msg).co co).faulted = (machine.co co).faulted := by
  unfold Coroutines.State.receive
  cases typeOfMessage msg with
  | kRequest => rfl
  | kNotify => cases msg.content <;> rfl
  | kResponse =>
      unfold Coroutines.State.answer Coroutines.State.unblock
      cases machine.blockSessions.find? fun entry => entry.1 = -msg.session with
      | none => rfl
      | some entry =>
          change (Function.update machine.co entry.2 _ co).faulted = _
          by_cases hco : co = entry.2
          · rw [hco, Function.update_self, answer_faulted]
          · rw [Function.update_of_ne hco]

theorem Waits.receive (hs : Waits machine request) (hpc : machine.pc = .taking) (msg : Message V) :
    Waits (machine.receive msg) request := by
  have hstep : Coroutines.Step machine .tau (machine.receive msg) := .take msg hpc
  refine ⟨hstep.slots hs.slots, hstep.runsUnfinished hs.unfinished, (table_step hstep).1 hs.keys,
    fun co hco => Nat.lt_of_lt_of_le (hs.created co hco) hstep.created_le, hs.nonzero,
    fun co session hco => ?_, fun hexit co session hco => ?_⟩
  · refine absurd hco (hs.idle ?_ co session)
    rw [hpc]
    rfl
  · rw [receive_faulted]
    exact hs.clean (fun h => hexit (hstep.inExit h)) co session hco

/-! ### A request while others move -/

variable {c : Proc V} {session : SessionT} {ask : Ask V}

theorem Asks.idle (hc : Asks c session ask) {co : Nat} (haway : c.request co = .away) :
    ask.co ≠ some co := by
  intro hco
  obtain hpushed | hwaiting := (hc.asker co).mpr hco
  · rw [haway] at hpushed
    cases hpushed
  · rw [haway] at hwaiting
    cases hwaiting

theorem Asks.step (hc : Asks c session ask) (hs : Waits c.machine c.request)
    {label : Coroutines.Label V} (hstep : Coroutines.Step c.machine label machine')
    (htaking : c.machine.pc ≠ .taking) (hexit : ¬ machine'.pc.InExit)
    (hwait : session ∈ c.sessions → ∀ co, label ≠ .wait co (some session))
    (hspares : ∀ co, c.request co ≠ .away → label.Spares co) :
    Asks { c with machine := machine' } session ask := by
  have hexit' : ¬ c.machine.pc.InExit := fun h => hexit (hstep.inExit h)
  refine hc.congr rfl rfl rfl (fun co hco hmem => ?_) fun co hco => ?_
  · have hallocated : session ∈ c.sessions := by
      apply hc.allocated
      rw [(hc.asker co).mp (Or.inr hco)]
      exact Option.some_ne_none co
    exact hstep.entry_kept htaking hexit' (hwait hallocated) hmem
  · have haway : c.request co ≠ .away := by
      rw [hco]
      exact Request.noConfusion
    exact congrArg Prod.fst (hs.stored hstep htaking hexit' haway (hspares co haway))

/-- A coroutine makes the request. -/
theorem Asks.open (hc : Asks c session .nothing) (co : Nat) :
    Asks (c.openSession co session) session (.pending co) where
  mail := hc.mail
  asker x := by
    change Function.update c.request co (.pushed session) x = .pushed session
      ∨ Function.update c.request co (.pushed session) x = .waiting session ↔ some co = some x
    by_cases hx : x = co
    · subst hx
      rw [Function.update_self]
      exact ⟨fun _ => rfl, fun _ => Or.inl rfl⟩
    · rw [Function.update_of_ne hx, Option.some_inj]
      exact (hc.asker x).trans ⟨nofun, fun h => absurd h.symm hx⟩
  allocated _ := Finset.mem_insert_self _ _
  waits hwaiting := by
    change Function.update c.request co (.pushed session) co = .waiting session at hwaiting
    rw [Function.update_self] at hwaiting
    cases hwaiting

/-- The coroutine of another request goes on. -/
theorem Asks.setRequest (hc : Asks c session ask) {co : Nat} {request' : Request}
    (hbefore : c.request co ≠ .pushed session ∧ c.request co ≠ .waiting session)
    (hafter : request' ≠ .pushed session ∧ request' ≠ .waiting session) :
    Asks (c.setRequest co request') session ask := by
  have hrequest : ∀ x stage, stage = Request.pushed session ∨ stage = Request.waiting session →
      ((c.setRequest co request').request x = stage ↔ c.request x = stage) := by
    intro x stage hstage
    change Function.update c.request co request' x = stage ↔ _
    by_cases hx : x = co
    · subst hx
      rw [Function.update_self]
      obtain rfl | rfl := hstage
      · exact iff_of_false hafter.1 hbefore.1
      · exact iff_of_false hafter.2 hbefore.2
    · rw [Function.update_of_ne hx]
  have hwaiting := fun x => hrequest x (.waiting session) (Or.inr rfl)
  refine ⟨hc.mail, fun x => ?_, hc.allocated, ?_⟩
  · rw [hrequest x (.pushed session) (Or.inl rfl), hwaiting x]
    exact hc.asker x
  · have hwaits := hc.waits
    cases ask with
    | nothing => trivial
    | pending x | answered x content => exact fun h => hwaits ((hwaiting x).mp h)
    | woken x content => exact ⟨(hwaiting x).mpr hwaits.1, hwaits.2⟩

theorem Asks.open_other (hc : Asks c session ask) {co : Nat} (haway : c.request co = .away)
    {session' : SessionT} (hne : session' ≠ session) :
    Asks (c.openSession co session') session ask := by
  have hset : Asks (c.setRequest co (.pushed session')) session ask := by
    refine hc.setRequest ?_ ⟨fun h => hne (Request.pushed.inj h), Request.noConfusion⟩
    rw [haway]
    exact ⟨Request.noConfusion, Request.noConfusion⟩
  exact ⟨hset.mail, hset.asker, fun h => Finset.mem_insert_of_mem (hset.allocated h), hset.waits⟩

/-! ### Its own steps -/

theorem block_table {co : Nat} {session : SessionT}
    (hstep : Coroutines.Step machine (.wait co (some session)) machine') :
    machine'.blockSessions
      = (session, co) :: machine.blockSessions.filter fun entry => entry.1 ≠ session := by
  cases hstep with
  | block _ caller _ hpc => exact ((machine.block session co).switchBack_spec co caller).blocked

/-- A coroutine blocks on a session of its own. -/
theorem Asks.block (hc : Asks c session ask) (hs : Waits c.machine c.request) {co : Nat}
    {session' : SessionT} (hrequest : c.request co = .pushed session')
    (hstep : Coroutines.Step c.machine (.wait co (some session')) machine')
    (hexit : ¬ machine'.pc.InExit) :
    Asks { c.setRequest co (.waiting session') with machine := machine' } session ask := by
  obtain ⟨caller, hpc⟩ := hstep.wait_running
  have htaking : c.machine.pc ≠ .taking := by
    rw [hpc]
    exact Pc.noConfusion
  have hgiven : ∀ x, c.request x = .waiting session →
      (machine'.co x).given = (c.machine.co x).given := by
    intro x hx
    have haway : c.request x ≠ .away := by
      rw [hx]
      exact Request.noConfusion
    refine congrArg Prod.fst (hs.stored hstep htaking (fun h => hexit (hstep.inExit h)) haway ?_)
    exact block_spares x
  by_cases hsession : session' = session
  · subst hsession
    have hasker : ask.co = some co := (hc.asker co).mp (Or.inl hrequest)
    refine ⟨hc.mail, fun x => ?_, hc.allocated, ?_⟩
    · change Function.update c.request co (.waiting session') x = .pushed session'
        ∨ Function.update c.request co (.waiting session') x = .waiting session' ↔ _
      by_cases hx : x = co
      · subst hx
        rw [Function.update_self, hasker]
        exact ⟨fun _ => rfl, fun _ => Or.inr rfl⟩
      · rw [Function.update_of_ne hx]
        exact hc.asker x
    · have hwaits := hc.waits
      cases ask with
      | nothing => trivial
      | pending x | answered x content =>
          obtain rfl := Option.some.inj hasker
          intro
          change (session', x) ∈ machine'.blockSessions
          rw [block_table hstep]
          exact List.mem_cons_self
      | woken x content =>
          obtain rfl := Option.some.inj hasker
          rw [Ask.Waits, hrequest] at hwaits
          cases hwaits.1
  · have hset : Asks (c.setRequest co (.waiting session')) session ask := by
      refine hc.setRequest ?_ ⟨Request.noConfusion, fun h => hsession (Request.waiting.inj h)⟩
      rw [hrequest]
      exact ⟨fun h => hsession (Request.pushed.inj h), Request.noConfusion⟩
    refine hset.congr rfl rfl rfl (fun x _ hmem => ?_) fun x hx => ?_
    · change (session, x) ∈ machine'.blockSessions
      rw [block_table hstep]
      refine List.mem_cons_of_mem _ (List.mem_filter.mpr ⟨hmem, ?_⟩)
      exact decide_eq_true fun h => hsession h.symm
    · refine hgiven x ?_
      change Function.update c.request co (.waiting session') x = .waiting session at hx
      by_cases hxco : x = co
      · rw [hxco, Function.update_self] at hx
        exact absurd (Request.waiting.inj hx) hsession
      · rwa [Function.update_of_ne hxco] at hx

/-- `block` returns what was stored, and the session is released. -/
theorem Asks.release {co : Nat} {content : Content V} (hc : Asks c session (.woken co content))
    (machine' : Coroutines.State V) :
    Asks { c.releaseSession co session with machine := machine' } session .nothing where
  mail := hc.mail
  asker x := by
    change Function.update c.request co .away x = .pushed session
      ∨ Function.update c.request co .away x = .waiting session ↔ none = some x
    by_cases hx : x = co
    · rw [hx, Function.update_self]
      exact ⟨fun h => h.elim nofun nofun, nofun⟩
    · rw [Function.update_of_ne hx]
      exact (hc.asker x).trans ⟨fun h => absurd (Option.some.inj h).symm hx, nofun⟩
  allocated h := absurd rfl h
  waits := trivial

theorem Asks.release_other (hc : Asks c session ask) {co : Nat} {session' : SessionT}
    (hrequest : c.request co = .waiting session') (hne : session' ≠ session)
    {outcome : Option (Coroutines.Outcome V)}
    (hstep : Coroutines.Step c.machine (.resume co outcome) machine')
    (hexit : ¬ c.machine.pc.InExit) :
    Asks { c.releaseSession co session' with machine := machine' } session ask := by
  have hset : Asks (c.setRequest co .away) session ask := by
    refine hc.setRequest ?_ ⟨Request.noConfusion, Request.noConfusion⟩
    rw [hrequest]
    exact ⟨Request.noConfusion, fun h => hne (Request.waiting.inj h)⟩
  have hframe := hstep.resume_frame
  have htaking : c.machine.pc ≠ .taking := by
    intro hpc
    cases hstep with
    | resumeSpawned _ _ hpc' | resumeWoken _ _ hpc' | unwind _ _ hpc' =>
        rw [hpc] at hpc'
        cases hpc'
  have hmoved : Asks { c.setRequest co .away with machine := machine' } session ask := by
    refine hset.congr rfl rfl rfl (fun x _ hmem => ?_) fun x hx => ?_
    · exact hstep.entry_kept htaking hexit (fun _ => nofun) hmem
    · have hxco : x ≠ co := by
        rintro rfl
        change Function.update c.request x .away x = .waiting session at hx
        rw [Function.update_self] at hx
        cases hx
      exact congrArg Coroutine.given (hframe.other x hxco)
  refine ⟨hmoved.mail, hmoved.asker, fun h => ?_, hmoved.waits⟩
  exact Finset.mem_erase.mpr ⟨hne.symm, hmoved.allocated h⟩

/-- The outcome of a wait is what was stored for it. -/
theorem Asks.outcome {co : Nat} {content : Content V} (hc : Asks c session (.woken co content))
    (hs : Waits c.machine c.request) {outcome : Option (Coroutines.Outcome V)}
    (hstep : Coroutines.Step c.machine (.resume co outcome) machine')
    (hexit : ¬ c.machine.pc.InExit) : outcome = some (Pairing.outcome content) := by
  obtain ⟨hrequest, hgiven⟩ := hc.waits
  obtain ⟨houtcome, -, hunfinished, -⟩ := hstep.resume_spec
  have hstarted : (c.machine.co co).started = true := by
    by_contra hnot
    rw [hs.slots.unstarted co (Bool.eq_false_iff.mpr hnot)] at hgiven
    cases hgiven
  have hvalue := (hs.slots.slot co hunfinished).outcome_iff.mpr
    (Or.inr (hs.clean hexit co session hrequest))
  rw [hgiven] at hvalue
  rw [houtcome, Coroutine.switchTo, if_pos hstarted]
  exact congrArg some hvalue

/-! ### The response -/

theorem take_responses {mailbox : Mailbox V} {msg : Message V}
    (htake : mailbox.take.1 = some msg) (session : SessionT) :
    responses session mailbox.messages
      = responses session [msg] ++ responses session mailbox.take.2.messages := by
  rw [Mailbox.take_some htake, responses_cons]

theorem receive_table_of_other {msg : Message V} (hmsg : typeOfMessage msg ≠ .kResponse) :
    (machine.receive msg).blockSessions = machine.blockSessions
      ∧ (machine.receive msg).co = machine.co := by
  unfold Coroutines.State.receive
  cases htype : typeOfMessage msg with
  | kRequest => exact ⟨rfl, rfl⟩
  | kResponse => exact absurd htype hmsg
  | kNotify => cases msg.content <;> exact ⟨rfl, rfl⟩

/-- A message that is not a response is taken. -/
theorem Asks.receive_other {msg : Message V} (hc : Asks c session ask)
    (htake : c.mailbox.take.1 = some msg) (hmsg : typeOfMessage msg ≠ .kResponse) :
    Asks (c.receive msg) session ask := by
  have hother : (c.machine.receive msg).blockSessions = c.machine.blockSessions
      ∧ (c.machine.receive msg).co = c.machine.co := receive_table_of_other hmsg
  obtain ⟨htable, hco⟩ := hother
  refine hc.congr ?_ rfl rfl (fun x _ hmem => ?_) fun x _ => ?_
  · rw [take_responses htake, responses_of_other fun h => absurd h hmsg]
    rfl
  · change (session, x) ∈ (c.machine.receive msg).blockSessions
    rw [htable]
    exact hmem
  · exact congrArg Coroutine.given (congrFun hco x)

theorem unblock_of_mem {co : Nat} (hkeys : (machine.blockSessions.map Prod.fst).Nodup)
    (hmem : (session, co) ∈ machine.blockSessions) :
    machine.unblock session
      = (some co, { machine with
          blockSessions := machine.blockSessions.erase (session, co) }) := by
  unfold Coroutines.State.unblock
  cases hfind : machine.blockSessions.find? fun entry => entry.1 = session with
  | none => exact absurd (decide_eq_true rfl) (List.find?_eq_none.mp hfind _ hmem)
  | some entry =>
      have hentry := List.mem_of_find?_eq_some hfind
      have hsession : entry.1 = session := by simpa using List.find?_some hfind
      obtain rfl := List.inj_on_of_nodup_map hkeys hmem hentry hsession.symm
      rfl

/-- The coroutine blocked on the session is woken with the content of the response. -/
theorem receive_response {msg : Message V} {co : Nat} (hmsg : typeOfMessage msg = .kResponse)
    (hkeys : (machine.blockSessions.map Prod.fst).Nodup)
    (hmem : (-msg.session, co) ∈ machine.blockSessions) :
    (machine.receive msg).co
        = Function.update machine.co co ((machine.co co).answer msg.content)
      ∧ (machine.receive msg).blockSessions
        = machine.blockSessions.erase (-msg.session, co) := by
  unfold Coroutines.State.receive
  rw [hmsg]
  unfold Coroutines.State.answer
  rw [unblock_of_mem hkeys hmem]
  exact ⟨rfl, rfl⟩

/-- When a response is taken its coroutine is blocked. -/
theorem Asks.blocked {co : Nat} {content : Content V} (hc : Asks c session (.answered co content))
    (hs : Waits c.machine c.request) (hpc : c.machine.pc = .taking) :
    c.request co = .waiting session ∧ (session, co) ∈ c.machine.blockSessions := by
  have hwaiting : c.request co = .waiting session := by
    refine ((hc.asker co).mpr rfl).resolve_left (hs.idle ?_ co session)
    rw [hpc]
    rfl
  exact ⟨hwaiting, hc.waits hwaiting⟩

/-- The response is taken. -/
theorem Asks.receive {msg : Message V} {co : Nat} {content : Content V}
    (hc : Asks c (-msg.session) (.answered co content)) (hs : Waits c.machine c.request)
    (hpc : c.machine.pc = .taking) (htake : c.mailbox.take.1 = some msg)
    (hmsg : typeOfMessage msg = .kResponse) :
    content = msg.content ∧ (c.machine.unblock (-msg.session)).1 = some co
      ∧ Asks (c.receive msg) (-msg.session) (.woken co content) := by
  obtain ⟨hwaiting, hmem⟩ := hc.blocked hs hpc
  have hmail := hc.mail
  rw [take_responses htake, responses_of_response hmsg, Ask.reply, List.singleton_append,
    List.cons.injEq] at hmail
  obtain ⟨rfl, hrest⟩ := hmail
  refine ⟨rfl, ?_, hrest, hc.asker, hc.allocated, hwaiting, ?_⟩
  · rw [unblock_of_mem hs.keys hmem]
  · change ((c.machine.receive msg).co co).given = _
    rw [(receive_response hmsg hs.keys hmem).1, Function.update_self]
    exact answer_given _ _

/-- The response to another request is taken. -/
theorem Asks.receive_response {msg : Message V} (hc : Asks c session ask)
    (hs : Waits c.machine c.request) (htake : c.mailbox.take.1 = some msg)
    (hmsg : typeOfMessage msg = .kResponse) (hne : -msg.session ≠ session) {co : Nat}
    (hwaiting : c.request co = .waiting (-msg.session))
    (hmem : (-msg.session, co) ∈ c.machine.blockSessions) :
    Asks (c.receive msg) session ask := by
  obtain ⟨htable, hblocked⟩ := Pairing.receive_response hmsg hs.keys hmem
  refine hc.congr ?_ rfl rfl (fun x _ hentry => ?_) fun x hx => ?_
  · rw [take_responses htake, responses_of_other fun _ => hne]
    rfl
  · change (session, x) ∈ (c.machine.receive msg).blockSessions
    rw [hblocked]
    exact (List.mem_erase_of_ne fun h => hne (congrArg Prod.fst h).symm).mpr hentry
  · change ((c.machine.receive msg).co x).given = _
    rw [htable, Function.update_of_ne]
    rintro rfl
    rw [hwaiting] at hx
    exact hne (Request.waiting.inj hx)

end Stp.Pairing
