import Stp.Pairing.Steps

/-!
# Every request is where its log says

Every step leaves a request where it is, or does with it what the log says, as long as each response
is made for the call of a handler, names the request of this call and is its only one, no coroutine
blocks with an exception in its `Result`, no process gets a pid of which requests are left, and no
destructor finds a request of a process that lives in the inbox, which it would abort twice.
-/

namespace Stp.Pairing

open Process
open Server (Key key requests)

variable {P V : Type*} [DecidableEq P] {s s' : State P V} {fates : Key → Fate P V}

/-! ### Steps that are about no request -/

theorem type_of_zero {msg : Message V} (hsession : msg.session = 0) :
    typeOfMessage msg = .kNotify := by
  simp [typeOfMessage, hsession]

theorem key_ne_of_zero {msg : Message V} {request : Key} (hsession : msg.session = 0)
    (hrequest : request.2 ≠ 0) : key msg ≠ request := by
  rintro rfl
  exact hrequest hsession

/-- In the inbox there are requests and notifications. -/
theorem session_of_inboxed {msg : Message V} (hsession : msg.session.toNat < 2 ^ 31)
    (htype : typeOfMessage msg ≠ .kRequest) : msg.session = 0 := by
  by_contra hzero
  have hpositive : 0 < msg.session.toNat :=
    Nat.pos_of_ne_zero fun h => hzero (UInt32.toNat_inj.mp h)
  exact htype ((typeOfMessage_eq_kRequest msg).mpr ⟨hpositive, hsession⟩)

/-- The request is in the process, or one of its handlers may still answer it. -/
def Proc.Holds (c : Proc V) (request : Key) : Prop :=
  request ∈ requests c.mailbox.messages ∨ request ∈ c.machine.inbox.map key ∨ request ∈ c.records
    ∨ ∃ call ∈ c.pending, c.calls[call]? = some request

theorem Serves.of_not_holds {c : Proc V} {request : Key} (hc : ¬ c.Holds request) :
    Serves c request .nowhere where
  mailbox := List.count_eq_zero.mpr fun h => hc (Or.inl h)
  inbox := List.count_eq_zero.mpr fun h => hc (Or.inr (Or.inl h))
  records := ⟨fun h => hc (Or.inr (Or.inr (Or.inl h))), False.elim⟩
  calls call hcall hrequest := absurd (Or.inr (Or.inr (Or.inr ⟨call, hcall, hrequest⟩))) hc

/-- No process that is running or has gone down has this pid, and nothing is left of the requests of
an earlier one that had it. -/
structure State.Forgotten (s : State P V) (pid : ProcessT) : Prop where
  free : ∀ p, (s.proc p).life.Intact → (s.proc p).pid ≠ pid
  settled : ∀ p session, session ≠ 0 → ¬ (s.proc p).Holds (pid, session)

theorem not_holds {c : Proc V} (hmailbox : requests c.mailbox.messages = [])
    (hinbox : c.machine.inbox = []) (hrecords : c.records = ∅) (hcalls : c.calls = [])
    (request : Key) : ¬ c.Holds request := by
  rintro (hmem | hmem | hmem | ⟨call, -, hcall⟩)
  · rw [hmailbox] at hmem
    exact absurd hmem List.not_mem_nil
  · rw [hinbox] at hmem
    exact absurd hmem List.not_mem_nil
  · rw [hrecords] at hmem
    exact absurd hmem (Finset.notMem_empty _)
  · rw [hcalls] at hcall
    cases hcall

theorem not_holds_create (pid : ProcessT) (request : Key) :
    ¬ (Proc.create pid : Proc V).Holds request :=
  not_holds rfl rfl rfl rfl request

omit [DecidableEq P] in
/-- Nobody has been created, and there is nothing that could be left. -/
theorem forgotten_fresh (pid : ProcessT) : (State.fresh : State P V).Forgotten pid where
  free _ hintact := hintact.elim
  settled _ _ _ := not_holds rfl rfl rfl rfl _

/-- The pid of one process is not that of the next one. -/
theorem State.Forgotten.create {pid pid' : ProcessT} (hs : s.Forgotten pid) (p : P)
    (hne : pid' ≠ pid) : (s.set p (.create pid')).Forgotten pid where
  free := State.forall_set (Q := fun _ c => c.life.Intact → c.pid ≠ pid) (fun _ => hne)
    fun q _ => hs.free q
  settled := State.forall_set
    (Q := fun _ c => ∀ session, session ≠ 0 → ¬ c.Holds (pid, session))
    (fun _ _ => not_holds_create pid' _) fun q _ => hs.settled q

theorem sound_create (gone : ProcessT → Prop) (pid : ProcessT) :
    (Proc.create pid : Proc V).Sound gone :=
  ⟨waits_fresh, fun _ hcall => absurd hcall (Finset.notMem_empty _), .of_intact trivial,
    fun h => absurd rfl h, fun _ h => absurd h List.not_mem_nil,
    fun _ h => absurd h List.not_mem_nil, fun _ h => absurd h (Finset.notMem_empty _)⟩

theorem asks_create (pid : ProcessT) (session : SessionT) :
    Asks (Proc.create pid : Proc V) session .nothing :=
  ⟨rfl, fun _ => ⟨fun h => h.elim nofun nofun, nofun⟩, fun h => absurd rfl h, trivial⟩

/-- Who lives after a process is created has lived before, or has its pid. -/
theorem State.Lives.of_create {p : P} {pid pid' : ProcessT}
    (hlives : (s.set p (.create pid)).Lives pid') : pid' = pid ∨ s.Lives pid' := by
  obtain ⟨q, hup, hpid⟩ := hlives
  by_cases hq : q = p
  · subst hq
    rw [s.set_self] at hpid
    exact Or.inl hpid.symm
  · rw [s.set_of_ne hq] at hup hpid
    exact Or.inr ⟨q, hup, hpid⟩

theorem PairedBut.create (hs : PairedBut none s fates) {p : P} {pid : ProcessT}
    (hunborn : (s.proc p).life = .unborn) (hforgotten : s.Forgotten pid) :
    PairedBut none (s.set p (.create pid)) (after fates (.create p pid)) where
  distinct q r hq hr hpid := by
    by_cases hqp : q = p
    · subst hqp
      by_contra hne
      rw [s.set_self, s.set_of_ne (Ne.symm hne)] at hpid
      rw [s.set_of_ne (Ne.symm hne)] at hr
      exact hforgotten.free r hr hpid.symm
    · rw [s.set_of_ne hqp] at hq hpid
      by_cases hrp : r = p
      · subst hrp
        rw [s.set_self] at hpid
        exact absurd hpid (hforgotten.free q hq)
      · rw [s.set_of_ne hrp] at hr hpid
        exact hs.distinct q r hq hr hpid
  sound := by
    refine State.forall_set (Q := fun _ c => c.Sound (s.set p (.create pid)).Gone)
      (sound_create _ pid) fun q _ => (hs.sound q).regard fun hintact msg hmsg htype hlives => ?_
    obtain hsource | hlives := hlives.of_create
    · refine hforgotten.settled q msg.session ?_ (Or.inr (Or.inl ?_))
      · rintro hzero
        rw [type_of_zero hzero] at htype
        cases htype
      · rw [← hsource]
        exact List.mem_map_of_mem hmsg
    · exact (hs.sound q).emptied hintact msg hmsg htype hlives
  unborn := State.forall_set
    (Q := fun _ c => c.life = .unborn → c = { Proc.create 0 with life := .unborn })
    (fun h => Life.noConfusion h) fun q _ => hs.unborn q
  placed request hzero _ hlives := by
    rw [after_of_creates rfl]
    by_cases hpid : request.1 = pid
    · subst hpid
      rw [if_pos rfl]
      refine .set nofun (fun h => absurd rfl h) (.of_not_holds (not_holds_create _ request))
        (fun q _ => .of_not_holds (hforgotten.settled q request.2 hzero))
        (fun _ _ => asks_create _ request.2) fun q _ hup hpid => ?_
      exact absurd hpid (hforgotten.free q hup.intact)
    · have hplaced := hs.placed request hzero nofun (hlives.of_create.resolve_left hpid)
      have hleaves : Leaves (s.proc p) (.create pid) request := by
        rw [hs.unborn p hunborn]
        exact .of_eq { Proc.create 0 with life := .unborn } (.create pid) rfl rfl rfl
          (Finset.Subset.refl _) rfl request
      rw [if_neg hpid]
      refine .set hplaced.sensible hplaced.session ((hplaced.serves p).leaves hleaves)
        (fun q _ => hplaced.serves q) (fun _ hsame => absurd hsame.symm hpid)
        fun q _ => hplaced.asks q

theorem PairedBut.send (hs : PairedBut none s fates) {p : P} {msg : Message V}
    (hsession : msg.session = 0) (hintact : (s.proc p).life.Intact) :
    PairedBut none (s.push p msg) fates := by
  have htype := type_of_zero hsession
  refine hs.push (Life.Intact.born hintact) (fun request _ => ?_) fun session _ _ => ?_
  · rw [mem_requests, htype]
    exact fun h => MessageType.noConfusion h.1
  · refine responses_of_other fun h => ?_
    rw [htype] at h
    cases h

theorem PairedBut.takeNotify (hs : PairedBut none s fates) {p : P} {msg : Message V}
    (hruns : (s.proc p).Runs) (hpc : (s.proc p).machine.pc = .taking)
    (htake : (s.proc p).mailbox.take.1 = some msg) (htype : typeOfMessage msg = .kNotify) :
    PairedBut none (s.set p ((s.proc p).receive msg)) fates := by
  have hresponse : typeOfMessage msg ≠ .kResponse := by
    rw [htype]
    exact MessageType.noConfusion
  have hrequest : typeOfMessage msg ≠ .kRequest := by
    rw [htype]
    exact MessageType.noConfusion
  have hsmall : msg.session.toNat < 2 ^ 31 :=
    Nat.lt_of_not_le fun hlarge => hresponse ((typeOfMessage_eq_kResponse msg).mpr hlarge)
  have hsession := session_of_inboxed hsmall hrequest
  refine hs.set p (.receive (hs.sound p) hruns hpc msg) (fun request hzero _ => ?_)
    fun _ _ ask _ _ hasks => hasks.receive_other htake hresponse
  exact .receive htake fun _ => key_ne_of_zero hsession hzero

theorem PairedBut.loop (hs : PairedBut none s fates) {p : P} {label : Coroutines.Label V}
    {machine : Coroutines.State V} (hruns : (s.proc p).Runs)
    (hstep : Coroutines.Step (s.proc p).machine label machine)
    (hloop : (s.proc p).machine.pc.current = []) (htaking : (s.proc p).machine.pc ≠ .taking)
    (hresume : ∀ co outcome, label = .resume co outcome → (s.proc p).request co = .away) :
    PairedBut none (s.set p { s.proc p with machine := machine }) fates := by
  have hsound := hs.sound p
  have hinbox := hstep.loop_inbox hloop htaking
  have hspares : ∀ co, (s.proc p).request co ≠ .away → label.Spares co :=
    fun co hco outcome hlabel => hco (hresume co outcome hlabel)
  have hwait : ∀ session, session ∈ (s.proc p).sessions →
      ∀ co, label ≠ .wait co (some session) := by
    rintro session - co rfl
    obtain ⟨caller, hpc⟩ := hstep.wait_running
    rw [hpc] at hloop
    cases hloop
  refine hs.set p (.of_runs hruns rfl rfl hstep.inExit (hsound.move ?_ ?_ _))
    (fun request _ _ => .machine _ machine hinbox request) fun hup session ask _ _ hasks => ?_
  · exact hsound.waits.step hstep htaking (hsound.waits.idle hloop) hspares
  · rw [hinbox]
    exact List.Subset.refl _
  · exact hasks.step hsound.waits hstep htaking hup.2 (hwait session) hspares

theorem PairedBut.call (hs : PairedBut none s fates) {p : P} {co : Nat}
    {caller : Coroutines.Caller} {label : Coroutines.Label V} {machine : Coroutines.State V}
    (hcalls : (s.proc p).Calls co caller)
    (hstep : Coroutines.Step (s.proc p).machine label machine)
    (hblock : ∀ session ∈ (s.proc p).sessions, ∀ x, label ≠ .wait x (some session))
    (hinbox : machine.inbox = (s.proc p).machine.inbox) (handling : Nat → List Nat) :
    PairedBut none (s.set p { s.proc p with machine := machine, handling := handling }) fates := by
  have hsound := hs.sound p
  have hmoves := Moves.call hsound hcalls hstep (by rw [hinbox]; exact List.Subset.refl _)
  have hsame := hmoves.sound
  refine hs.set p ⟨rfl, hmoves.after, hmoves.intact, hmoves.up, ?_⟩
    (fun request _ _ => ?_) fun hup session ask _ _ hasks => ?_
  · exact hsame.congr rfl rfl rfl (Finset.Subset.refl _) (Finset.Subset.refl _) hsame.emptied
      hsame.closing
  · exact .of_eq (s.proc p) { s.proc p with machine := machine, handling := handling } rfl hinbox rfl
      (Finset.Subset.refl _) rfl request
  · have hmoved := hasks.call hsound hcalls hstep (hblock session) hup
    exact hmoved.congr rfl rfl rfl (fun _ _ => id) fun _ _ => rfl

/-- The coroutines stay as they are, and so does what is known of requests. -/
structure Rests (gone : ProcessT → Prop) (c c' : Proc V) : Prop where
  pid : c'.pid = c.pid
  machine : c'.machine = c.machine
  mailbox : c'.mailbox.messages = c.mailbox.messages
  request : c'.request = c.request
  sessions : c'.sessions = c.sessions
  calls : c'.calls = c.calls
  records : c'.records = c.records
  pending : c'.pending ⊆ c.pending
  after : c'.Born
  intact : c'.life.Intact → c.life.Intact
  up : c'.life = .running → c.life = .running
  emptied : c'.Emptied gone
  closing : c'.closing ≠ none → c'.life = .running

theorem PairedBut.rest (hs : PairedBut none s fates) {p : P} {c' : Proc V}
    (hrests : Rests s.Gone (s.proc p) c') : PairedBut none (s.set p c') fates := by
  refine hs.set p ⟨hrests.pid, hrests.after, hrests.intact, fun hup => ⟨hrests.up hup.1, ?_⟩, ?_⟩
    (fun request _ _ => ?_) fun _ session ask _ _ hasks => ?_
  · rw [← hrests.machine]
    exact hup.2
  · exact (hs.sound p).congr hrests.machine hrests.request hrests.calls hrests.pending
      (by rw [hrests.records]) hrests.emptied hrests.closing
  · refine .of_eq (s.proc p) c' ?_ ?_ hrests.records hrests.pending hrests.calls request
    · rw [hrests.mailbox]
    · rw [hrests.machine]
  · refine hasks.congr ?_ hrests.request hrests.sessions (fun co _ hmem => ?_) fun co _ => ?_
    · rw [hrests.mailbox]
    · rw [hrests.machine]
      exact hmem
    · rw [hrests.machine]

section Rests

variable {gone : ProcessT → Prop} {c : Proc V}

theorem Rests.handling (hc : c.Sound gone) (hborn : c.Born) (handling : Nat → List Nat) :
    Rests gone c { c with handling := handling } :=
  ⟨rfl, rfl, rfl, rfl, rfl, rfl, rfl, Finset.Subset.refl _, hborn, id, id, hc.emptied, hc.closing⟩

theorem Rests.exchange (hc : c.Sound gone) (hborn : c.Born) :
    Rests gone c { c with mailbox := c.mailbox.exchange.2 } :=
  ⟨rfl, rfl, rfl, rfl, rfl, rfl, rfl, Finset.Subset.refl _, hborn, id, id, hc.emptied, hc.closing⟩

theorem Rests.close (hc : c.Sound gone) (hborn : c.Born) {request : Key} (hlife : c.life = .running)
    (hclosing : c.closing = some request) : Rests gone c (c.closeRequest request) := by
  refine ⟨rfl, rfl, rfl, rfl, rfl, rfl, ?_, Finset.Subset.refl _, hborn, id, id, hc.emptied,
    fun h => absurd rfl h⟩
  exact Finset.ext fun other => (Leaves.close hlife hclosing other).records

/-- The process goes from one part of its life to another one, with the same requests on record. -/
theorem Rests.live {life : Life} (hlife : life ≠ .running ∧ life ≠ .unborn)
    (hintact : life.Intact → c.life.Intact)
    (hrecords : { c with life := life }.records = c.records)
    (hemptied : { c with life := life }.Emptied gone) (hclosing : c.closing = none) :
    Rests gone c { c with life := life } := by
  refine ⟨rfl, rfl, rfl, rfl, rfl, rfl, hrecords, ?_, hlife.2, hintact, fun h => absurd h hlife.1,
    hemptied, fun h => absurd hclosing h⟩
  cases life with
  | running => exact absurd rfl hlife.1
  | unborn | down | aborting | drainingInbox | drainingMailbox | destroyed =>
      exact Finset.empty_subset _

theorem Proc.Sound.not_closing (hc : c.Sound gone) (hlife : c.life ≠ .running) : c.closing = none := by
  by_contra hclosing
  exact hlife (hc.closing hclosing)

end Rests

theorem PairedBut.takeNothing (hs : PairedBut none s fates) {p : P} (hruns : (s.proc p).Runs)
    (hpc : (s.proc p).machine.pc = .taking) (htake : (s.proc p).mailbox.take.1 = none) :
    PairedBut none (s.set p
      { s.proc p with
        mailbox := (s.proc p).mailbox.take.2
        machine := { (s.proc p).machine with pc := .idle } }) fates := by
  obtain ⟨hbefore, hafter⟩ := Mailbox.take_none htake
  have hsound := hs.sound p
  have hstep : Coroutines.Step (s.proc p).machine .tau { (s.proc p).machine with pc := .idle } :=
    .takeNothing hpc
  have hidle : (s.proc p).machine.pc.current = [] := by
    rw [hpc]
    rfl
  have hwaits : Waits { (s.proc p).machine with pc := .idle } (s.proc p).request :=
    ⟨hstep.slots hsound.waits.slots, hstep.runsUnfinished hsound.waits.unfinished,
      hsound.waits.keys, hsound.waits.created, hsound.waits.nonzero,
      fun co session h => absurd h (hsound.waits.idle hidle co session),
      fun _ => hsound.waits.clean (by rw [hpc]; exact id)⟩
  have hmoved := hsound.move hwaits (List.Subset.refl _) (s.proc p).sessions
  refine hs.set p (.of_runs hruns rfl rfl (fun hexit => ?_) ?_) (fun request _ _ => ?_)
    fun _ session ask _ _ hasks => ?_
  · rw [hpc] at hexit
    exact hexit.elim
  · exact hmoved.congr rfl rfl rfl (Finset.Subset.refl _) (Finset.Subset.refl _) hmoved.emptied
      hmoved.closing
  · refine (Leaves.nothing htake request).trans ?_
    exact .machine { s.proc p with mailbox := (s.proc p).mailbox.take.2 }
      { (s.proc p).machine with pc := .idle } rfl request
  · refine hasks.congr ?_ rfl rfl (fun _ _ => id) fun _ _ => rfl
    change responses session (s.proc p).mailbox.take.2.messages = _
    rw [hbefore, hafter]

theorem PairedBut.discardInbox (hs : PairedBut none s fates) {p : P} {msg : Message V}
    {rest : List (Message V)} (hlife : (s.proc p).life = .drainingInbox)
    (hinbox : (s.proc p).machine.inbox = msg :: rest) (htype : typeOfMessage msg ≠ .kRequest) :
    PairedBut none (s.set p ((s.proc p).takeFront rest)) fates := by
  have hsound := hs.sound p
  have hborn := Proc.born_of_life hlife Life.noConfusion
  have hsubset : rest ⊆ (s.proc p).machine.inbox := by
    rw [hinbox]
    exact List.subset_cons_self _ _
  have hsession : msg.session = 0 := by
    refine session_of_inboxed (hsound.inbox msg ?_) htype
    rw [hinbox]
    exact List.mem_cons_self
  refine hs.set p ⟨rfl, hborn, id, id, ?_⟩ (fun request hzero _ => ?_) fun hup => ?_
  · exact hsound.move (hsound.waits.setInbox rest) hsubset _
  · exact .takeFront hinbox (key_ne_of_zero hsession hzero)
  · have hrunning : (s.proc p).life = .running := hup.1
    rw [hlife] at hrunning
    cases hrunning

theorem PairedBut.discardMailbox (hs : PairedBut none s fates) {p : P} {msg : Message V}
    (hlife : (s.proc p).life = .drainingMailbox) (htake : (s.proc p).mailbox.take.1 = some msg)
    (htype : typeOfMessage msg ≠ .kRequest) :
    PairedBut none (s.set p { s.proc p with mailbox := (s.proc p).mailbox.take.2 }) fates := by
  have hsound := hs.sound p
  have hborn := Proc.born_of_life hlife Life.noConfusion
  refine hs.set p ⟨rfl, hborn, id, id, ?_⟩ (fun request _ _ => ?_) fun hup => ?_
  · exact hsound.congr rfl rfl rfl (Finset.Subset.refl _) (Finset.Subset.refl _) hsound.emptied
      hsound.closing
  · exact .drain htake fun hmem => htype (mem_requests.mp hmem).1
  · have hrunning : (s.proc p).life = .running := hup.1
    rw [hlife] at hrunning
    cases hrunning

theorem PairedBut.mailboxDone (hs : PairedBut none s fates) {p : P}
    (hlife : (s.proc p).life = .drainingMailbox) (htake : (s.proc p).mailbox.take.1 = none) :
    PairedBut none (s.set p
      { s.proc p with mailbox := (s.proc p).mailbox.take.2, life := .destroyed }) fates := by
  obtain ⟨hbefore, hafter⟩ := Mailbox.take_none htake
  have hdestroying : ¬ (s.proc p).life.Intact := by
    rw [hlife]
    exact id
  refine hs.rest ⟨rfl, rfl, hafter.trans hbefore.symm, rfl, rfl, rfl, ?_, Finset.empty_subset _,
    nofun, nofun, nofun, fun _ => (hs.sound p).emptied hdestroying, fun h => ?_⟩
  · unfold Proc.records
    rw [hlife]
    rfl
  · refine absurd ((hs.sound p).not_closing ?_) h
    rw [hlife]
    exact Life.noConfusion

/-! ### Runs -/

/-- Sessions are positive as they are signed, and are for `request`, `yield` and responses alone. A
response is made for a call of a handler, to its request, and is the only one made for this call. No
process gets a pid that another one has, or of which requests are left, no coroutine blocks for a
request or a yield with an exception in its `Result`, and no destructor begins with a request of a
process that lives in the inbox. -/
def Label.Orderly (s : State P V) : Label P V → Prop
  | .create _ pid => s.Forgotten pid
  | .send msg => msg.session = 0
  | .call p (.wait _ (some session)) => session ∉ (s.proc p).sessions
  | .request (_, session) _ _ | .yield (_, session) _ =>
    0 < session.toNat ∧ session.toNat < 2 ^ 31
  | .block p co _ => ((s.proc p).machine.co co).result.exception = none
  | .answer asked p served _ => ∃ call ∈ (s.proc p).unanswered,
    served = some call ∧ (s.proc p).calls[call]? = some asked
  | .destroy p => ∀ msg ∈ (s.proc p).machine.inbox, typeOfMessage msg = .kRequest →
    ¬ s.Lives msg.source
  | _ => True

def orderly : Transition.System (State P V) (Label P V) :=
  system.restrict fun s label => label.Orderly s

theorem Step.paired {label : Label P V} (hstep : Step s label s') (horderly : label.Orderly s)
    (hs : PairedBut none s fates) : PairedBut none s' (after fates label) := by
  have hnone : ∀ {p : P} {life : Life}, (s.proc p).life = life → life ≠ .running →
      (s.proc p).closing = none := by
    rintro p life rfl hlife
    exact (hs.sound p).not_closing hlife
  cases hstep with
  | create p pid hunborn => exact hs.create hunborn horderly
  | send p msg hintact => exact hs.send horderly hintact
  | exchange p hintact =>
      exact hs.rest (.exchange (hs.sound p) (Life.Intact.born hintact))
  | loop p label machine hruns hstep hloop htaking hresume =>
      exact hs.loop hruns hstep hloop htaking hresume
  | takeRequest p msg hruns hpc htake htype => exact hs.takeRequest hruns hpc htake htype
  | takeResponse p msg hruns hpc htake htype => exact hs.takeResponse hruns hpc htake htype _
  | takeNotify p msg hruns hpc htake htype => exact hs.takeNotify hruns hpc htake htype
  | takeNothing p hruns hpc htake => exact hs.takeNothing hruns hpc htake
  | down p hruns hpc =>
      refine hs.rest (.live ⟨nofun, nofun⟩ (fun _ => hruns.intact) ?_ (.of_intact trivial) hruns.2)
      unfold Proc.records
      rw [hruns.1]
      rfl
  | call p co caller label machine hcalls hstep hinbox =>
      refine hs.call hcalls hstep ?_ hinbox (s.proc p).handling
      rintro session hsession x rfl
      exact horderly hsession
  | finish p co caller e hcalls =>
      refine hs.call hcalls (.finish co caller e hcalls.2.1) (fun _ _ _ => nofun) ?_ _
      exact (Coroutines.State.switchBack_inbox _ co caller).1
  | drop p co caller msg rest hcalls hinbox =>
      refine hs.serve ?_ (.drop (hs.sound p) hcalls hinbox)
      rw [hinbox]
      exact List.mem_cons_self
  | callback p co caller msg rest hcalls hinbox =>
      have hmem : msg ∈ (s.proc p).machine.inbox := by
        rw [hinbox]
        exact List.mem_cons_self
      have hdrop := Hands.drop (hs.sound p) hcalls hinbox
      exact hs.serve hmem (hdrop.call ((hs.sound p).inbox msg hmem) co)
  | coroutine p co caller msg rest hcalls hinbox =>
      have hmem : msg ∈ (s.proc p).machine.inbox := by
        rw [hinbox]
        exact List.mem_cons_self
      exact hs.serve hmem (.spawn (hs.sound p) hcalls hinbox ((hs.sound p).inbox msg hmem))
  | handled p co caller call rest hcalls hhandling =>
      exact hs.rest (.handling (hs.sound p) hcalls.1.born _)
  | respond p co caller content s₁ hcalls hanswers =>
      obtain ⟨call, honce, hcall, hmessage⟩ := horderly
      rw [hcall]
      exact hs.respond hcalls.1 hmessage honce hanswers
  | respondTo p request call content s₁ hruns hanswers =>
      obtain ⟨call, honce, rfl, hmessage⟩ := horderly
      exact hs.respond hruns hmessage honce hanswers
  | close p request hlife hclosing =>
      have hborn := Proc.born_of_life hlife Life.noConfusion
      exact hs.rest (.close (hs.sound p) hborn hlife hclosing)
  | request p q co caller session content s₁ hcalls hfound hfresh hpush =>
      exact hs.request hcalls hfound hfresh horderly hpush
  | yield p co caller session hcalls hfresh => exact hs.yield hcalls hfresh horderly
  | block p co session machine hruns hrequest hstep =>
      exact hs.block hruns hrequest hstep horderly
  | resume p co session outcome machine hruns hrequest hexit hstep =>
      exact hs.resume hruns hrequest hexit hstep
  | unwind p co session outcome machine hruns hrequest hexit hstep =>
      exact hs.unwind hruns hexit hstep
  | destroy p hlife =>
      have hclosing := hnone hlife nofun
      refine hs.rest (.live ⟨nofun, nofun⟩ nofun ?_ (fun _ => horderly) hclosing)
      unfold Proc.records
      rw [hlife, hclosing]
      rfl
  | abortRecord p source request rest s₁ hlife hrecord hanswers =>
      exact hs.abortRecord hlife hrecord hanswers
  | recordsDone p hlife =>
      refine hs.rest (.live ⟨nofun, nofun⟩ nofun ?_ (fun _ => ?_) (hnone hlife nofun))
      · unfold Proc.records
        rw [hlife]
        rfl
      · exact (hs.sound p).emptied (by rw [hlife]; exact id)
  | drainInbox p source msg rest s₁ hlife hinbox htype hanswers =>
      exact hs.drainInbox hlife hinbox htype hanswers
  | discardInbox p msg rest hlife hinbox htype => exact hs.discardInbox hlife hinbox htype
  | inboxDone p hlife hinbox =>
      refine hs.rest (.live ⟨nofun, nofun⟩ nofun ?_ (fun _ => ?_) (hnone hlife nofun))
      · unfold Proc.records
        rw [hlife]
        rfl
      · exact (hs.sound p).emptied (by rw [hlife]; exact id)
  | drainMailbox p source msg s₁ hlife htake htype hanswers =>
      exact hs.drainMailbox hlife htake htype hanswers
  | discardMailbox p msg hlife htake htype => exact hs.discardMailbox hlife htake htype
  | mailboxDone p hlife htake => exact hs.mailboxDone hlife htake

theorem paired_fresh :
    PairedBut none (State.fresh : State P V) fun request => fate request [] where
  distinct _ _ hintact := hintact.elim
  sound _ := by
    refine (sound_create (fun _ => True) 0).congr rfl rfl rfl (Finset.empty_subset _)
      (Finset.empty_subset _) ?_ fun h => absurd rfl h
    exact fun _ _ hmsg => absurd hmsg List.not_mem_nil
  unborn _ _ := rfl
  placed _ _ _ hlives := by
    obtain ⟨p, hup, -⟩ := hlives
    exact hup.intact.elim

/-- The labels of a run. -/
def observe (_ : State P V) (label : Label P V) : List (Label P V) := [label]

theorem paired_of_logs {log : List (Label P V)} (hlog : orderly.Logs observe s log) :
    PairedBut none s fun request => fate request log := by
  induction hlog with
  | init hinit =>
      obtain rfl := hinit
      exact paired_fresh
  | step hlog hstep ih =>
      rw [observe, after_fate]
      exact hstep.1.paired hstep.2 ih

end Stp.Pairing
