import Stp.Pairing.Records
import Stp.Pairing.Waits

/-!
# Where the requests are

As long as a process does not exit, each of its requests is where the log of the run says that it is.
A process that moves leaves the requests as they are that its step is not about, and so does a message
that is pushed. Pids may be used again; what is known of a process is that its destructor finds no
request in the inbox but of processes that are gone.
-/

namespace Stp.Pairing

open Process
open Server (Key key requests)

variable {P V : Type*}

/-! ### What holds of every process -/

def Proc.Born (c : Proc V) : Prop := c.life ≠ .unborn

/-- It has not begun to exit. -/
def Proc.Up (c : Proc V) : Prop := c.life = .running ∧ ¬ c.machine.pc.InExit

theorem Proc.Up.intact {c : Proc V} (hc : c.Up) : c.life.Intact := by
  rw [hc.1]
  trivial

theorem Proc.born_of_life {c : Proc V} {life : Life} (hlife : c.life = life)
    (hborn : life ≠ .unborn) : c.Born := by
  unfold Proc.Born
  rw [hlife]
  exact hborn

theorem Proc.Runs.born {c : Proc V} (hc : c.Runs) : c.Born :=
  Proc.born_of_life hc.1 Life.noConfusion

theorem Life.Intact.born {c : Proc V} (hintact : c.life.Intact) : c.Born := by
  intro hunborn
  rw [hunborn] at hintact
  exact hintact

/-- The destructor finds no request in the inbox, but of processes that are gone. -/
def Proc.Emptied (gone : ProcessT → Prop) (c : Proc V) : Prop :=
  ¬ c.life.Intact → ∀ msg ∈ c.machine.inbox, typeOfMessage msg = .kRequest → gone msg.source

structure Proc.Sound (gone : ProcessT → Prop) (c : Proc V) : Prop where
  waits : Waits c.machine c.request
  numbered : c.Numbered
  emptied : c.Emptied gone
  closing : c.closing ≠ none → c.life = .running
  inbox : ∀ msg ∈ c.machine.inbox, msg.session.toNat < 2 ^ 31
  calls : ∀ request ∈ c.calls, request.2.toNat < 2 ^ 31
  records : ∀ request ∈ c.records, request.2.toNat < 2 ^ 31

variable {c c' : Proc V} {gone : ProcessT → Prop}

theorem Proc.Emptied.of_intact (hintact : c.life.Intact) : c.Emptied gone :=
  fun h => absurd hintact h

theorem Proc.Emptied.of_subset (hc : c.Emptied gone) (hlife : c'.life = c.life)
    (hinbox : c'.machine.inbox ⊆ c.machine.inbox) : c'.Emptied gone := by
  intro hintact msg hmsg
  rw [hlife] at hintact
  exact hc hintact msg (hinbox hmsg)

/-- The coroutines, their messages and the calls of handlers stay. -/
theorem Proc.Sound.congr {gone' : ProcessT → Prop} (hc : c.Sound gone) (hmachine : c'.machine = c.machine)
    (hrequest : c'.request = c.request) (hcalls : c'.calls = c.calls)
    (hpending : c'.pending ⊆ c.pending) (hrecords : c'.records ⊆ c.records)
    (hemptied : c'.Emptied gone') (hclosing : c'.closing ≠ none → c'.life = .running) :
    c'.Sound gone' where
  waits := by
    rw [hmachine, hrequest]
    exact hc.waits
  numbered call hcall := by
    rw [hcalls]
    exact hc.numbered call (hpending hcall)
  emptied := hemptied
  closing := hclosing
  inbox := by
    rw [hmachine]
    exact hc.inbox
  calls := by
    rw [hcalls]
    exact hc.calls
  records request hmem := hc.records request (hrecords hmem)

theorem Proc.Sound.regard {gone' : ProcessT → Prop} (hc : c.Sound gone)
    (hemptied : c.Emptied gone') : c.Sound gone' :=
  hc.congr rfl rfl rfl (Finset.Subset.refl _) (Finset.Subset.refl _) hemptied hc.closing

/-- More processes are gone. -/
theorem Proc.Sound.mono {gone' : ProcessT → Prop} (hc : c.Sound gone)
    (hgone : ∀ pid, gone pid → gone' pid) : c.Sound gone' :=
  hc.regard fun hintact msg hmsg htype => hgone msg.source (hc.emptied hintact msg hmsg htype)

theorem Proc.Sound.append (hc : c.Sound gone) (msg : Message V) : (c.append msg).Sound gone :=
  hc.congr rfl rfl rfl (Finset.Subset.refl _) (Finset.Subset.refl _) hc.emptied hc.closing

/-- The coroutines move, and take what they take from the inbox. -/
theorem Proc.Sound.move (hc : c.Sound gone) {machine : Coroutines.State V} {request : Nat → Request}
    (hwaits : Waits machine request) (hinbox : machine.inbox ⊆ c.machine.inbox)
    (sessions : Finset SessionT) :
    { c with machine := machine, request := request, sessions := sessions }.Sound gone where
  waits := hwaits
  numbered := hc.numbered
  emptied := hc.emptied.of_subset rfl hinbox
  closing := hc.closing
  inbox msg hmsg := hc.inbox msg (hinbox hmsg)
  calls := hc.calls
  records := hc.records

theorem Proc.Runs.intact (hruns : c.Runs) : c.life.Intact := by
  rw [hruns.1]
  trivial

theorem Proc.Sound.receive (hc : c.Sound gone) (hruns : c.Runs) (hpc : c.machine.pc = .taking)
    {msg : Message V} : (c.receive msg).Sound gone where
  waits := hc.waits.receive hpc msg
  numbered := hc.numbered
  emptied := .of_intact hruns.intact
  closing := hc.closing
  inbox other hother := by
    change other ∈ (c.machine.receive msg).inbox at hother
    obtain hsame | ⟨htype, hinbox⟩ := receive_inbox c.machine msg
    · rw [hsame] at hother
      exact hc.inbox other hother
    · rw [hinbox, List.mem_append, List.mem_singleton] at hother
      obtain hother | rfl := hother
      · exact hc.inbox other hother
      · by_contra hlarge
        exact htype ((typeOfMessage_eq_kResponse other).mpr (Nat.le_of_not_lt hlarge))
  calls := hc.calls
  records request hmem := by
    by_cases hsame : typeOfMessage msg = .kRequest ∧ key msg = request
    · obtain ⟨htype, rfl⟩ := hsame
      exact ((typeOfMessage_eq_kRequest msg).mp htype).2
    · refine hc.records request ?_
      have hmap : request ∈ (c.receive msg).requestsMap → request ∈ c.requestsMap := by
        intro hrequest
        simp only [Proc.receive] at hrequest
        split at hrequest
        · next htype =>
            refine (Finset.mem_insert.mp hrequest).resolve_left fun hkey => hsame ⟨htype, hkey.symm⟩
        · exact hrequest
      have hrecords : (c.receive msg).records = (c.receive msg).requestsMap := by
        unfold Proc.records
        change c.life.records (c.receive msg).requestsMap c.closing = _
        rw [hruns.1, hruns.2]
        rfl
      rw [hrecords] at hmem
      unfold Proc.records
      rw [hruns.1, hruns.2]
      exact hmap hmem

theorem Proc.Sound.call (hc : c.Sound gone) {msg : Message V} (hmsg : msg.session.toNat < 2 ^ 31)
    (co : Nat) : (c.call co msg).Sound gone where
  waits := hc.waits
  numbered := hc.numbered.call co msg
  emptied := hc.emptied
  closing := hc.closing
  inbox := hc.inbox
  calls request hrequest := by
    obtain hrequest | hrequest := List.mem_append.mp hrequest
    · exact hc.calls request hrequest
    · rw [List.mem_singleton.mp hrequest]
      exact hmsg
  records := hc.records

theorem Proc.Sound.answer (hc : c.Sound gone) (hruns : c.Runs) (call : Nat) (request : Key) :
    (c.answer (some call) request).Sound gone := by
  refine hc.congr rfl rfl rfl ?_ ?_ hc.emptied fun _ => hruns.1
  · intro other hother
    exact (mem_pending_answer hother).2
  · rw [records_answer hruns]
    exact Finset.erase_subset _ _

/-! ### Where the requests are -/

/-- The request is where its log says. -/
structure Placed [DecidableEq P] (s : State P V) (request : Key) (fate : Fate P V) : Prop where
  sensible : fate ≠ .lost
  session : fate ≠ .idle → 0 < request.2.toNat ∧ request.2.toNat < 2 ^ 31
  serves : ∀ p, Serves (s.proc p) request (fate.spot p)
  asks : ∀ p, (s.proc p).Up → (s.proc p).pid = request.1 → Asks (s.proc p) request.2 fate.ask

/-- A process with this pid has not begun to exit. -/
def State.Lives (s : State P V) (pid : ProcessT) : Prop :=
  ∃ p, (s.proc p).Up ∧ (s.proc p).pid = pid

def State.Gone (s : State P V) (pid : ProcessT) : Prop := ¬ s.Lives pid

/-- All requests are where their logs say, but perhaps for the one whose step is under way. -/
structure PairedBut [DecidableEq P] (except : Option Key) (s : State P V)
    (fates : Key → Fate P V) : Prop where
  distinct : ∀ p q, (s.proc p).life.Intact → (s.proc q).life.Intact →
    (s.proc p).pid = (s.proc q).pid → p = q
  sound : ∀ p, (s.proc p).Sound s.Gone
  unborn : ∀ p, (s.proc p).life = .unborn → s.proc p = { Proc.create 0 with life := .unborn }
  placed : ∀ request, request.2 ≠ 0 → except ≠ some request → s.Lives request.1 →
    Placed s request (fates request)

variable [DecidableEq P] {s s' : State P V} {except : Option Key} {fates : Key → Fate P V}

theorem State.set_self (s : State P V) (p : P) (c : Proc V) : (s.set p c).proc p = c :=
  Function.update_self _ _ _

theorem State.set_of_ne (s : State P V) {p q : P} (hq : q ≠ p) (c : Proc V) :
    (s.set p c).proc q = s.proc q :=
  Function.update_of_ne hq _ _

/-- What holds of one process after it moves, and of the others before, holds of all. -/
theorem State.forall_set {p : P} {c : Proc V} {Q : P → Proc V → Prop} (hself : Q p c)
    (hother : ∀ q, q ≠ p → Q q (s.proc q)) (q : P) : Q q ((s.set p c).proc q) := by
  by_cases hq : q = p
  · subst hq
    rw [s.set_self]
    exact hself
  · rw [s.set_of_ne hq]
    exact hother q hq

theorem PairedBut.but (hs : PairedBut none s fates) (except : Option Key) :
    PairedBut except s fates :=
  ⟨hs.distinct, hs.sound, hs.unborn, fun request hrequest _ => hs.placed request hrequest nofun⟩

/-- What a process may become without a word about other requests. -/
structure Moves (gone : ProcessT → Prop) (c c' : Proc V) : Prop where
  pid : c'.pid = c.pid
  after : c'.Born
  intact : c'.life.Intact → c.life.Intact
  up : c'.Up → c.Up
  sound : c'.Sound gone

/-- Of those that are running or have gone down, the one with the pid of a process that lives is this
process. -/
theorem PairedBut.up_of_lives (hs : PairedBut except s fates) {p : P}
    (hintact : (s.proc p).life.Intact) (hlives : s.Lives (s.proc p).pid) : (s.proc p).Up := by
  obtain ⟨q, hup, hpid⟩ := hlives
  obtain rfl := hs.distinct p q hintact hup.intact hpid.symm
  exact hup

theorem Moves.lives {p : P} (hmoves : Moves gone (s.proc p) c') {pid : ProcessT}
    (hlives : (s.set p c').Lives pid) : s.Lives pid := by
  obtain ⟨q, hup, hpid⟩ := hlives
  refine ⟨q, ?_⟩
  by_cases hq : q = p
  · subst hq
    rw [s.set_self] at hup hpid
    exact ⟨hmoves.up hup, hmoves.pid.symm.trans hpid⟩
  · rw [s.set_of_ne hq] at hup hpid
    exact ⟨hup, hpid⟩

theorem Moves.distinct {p : P} (hmoves : Moves gone (s.proc p) c')
    (hs : ∀ p q, (s.proc p).life.Intact → (s.proc q).life.Intact →
      (s.proc p).pid = (s.proc q).pid → p = q)
    (q r : P) (hq : ((s.set p c').proc q).life.Intact) (hr : ((s.set p c').proc r).life.Intact)
    (hpid : ((s.set p c').proc q).pid = ((s.set p c').proc r).pid) : q = r := by
  have hsame : ∀ x, (((s.set p c').proc x).life.Intact → (s.proc x).life.Intact)
      ∧ ((s.set p c').proc x).pid = (s.proc x).pid :=
    State.forall_set (Q := fun x c => (c.life.Intact → (s.proc x).life.Intact)
      ∧ c.pid = (s.proc x).pid) ⟨hmoves.intact, hmoves.pid⟩ fun _ _ => ⟨id, rfl⟩
  refine hs q r ((hsame q).1 hq) ((hsame r).1 hr) ?_
  rw [← (hsame q).2, ← (hsame r).2]
  exact hpid

/-- A process moves, and leaves all requests but one as they are. -/
theorem PairedBut.set (hs : PairedBut except s fates) (p : P) (hmoves : Moves s.Gone (s.proc p) c')
    (hleaves : ∀ request : Key, request.2 ≠ 0 → except ≠ some request →
      Leaves (s.proc p) c' request)
    (hasks : c'.Up → ∀ session ask, session ≠ 0 → except ≠ some ((s.proc p).pid, session) →
      Asks (s.proc p) session ask → Asks c' session ask) :
    PairedBut except (s.set p c') fates where
  distinct := hmoves.distinct hs.distinct
  sound := by
    have hgone : ∀ pid, s.Gone pid → (s.set p c').Gone pid :=
      fun _ hgone hlives => hgone (hmoves.lives hlives)
    exact State.forall_set (Q := fun _ c => c.Sound (s.set p c').Gone) (hmoves.sound.mono hgone)
      fun q _ => (hs.sound q).mono hgone
  unborn := State.forall_set
    (Q := fun _ c => c.life = .unborn → c = { Proc.create 0 with life := .unborn })
    (fun h => absurd h hmoves.after) fun q _ => hs.unborn q
  placed request hrequest hexcept hlives := by
    have hplaced := hs.placed request hrequest hexcept (hmoves.lives hlives)
    refine ⟨hplaced.sensible, hplaced.session, ?_, ?_⟩
    · exact State.forall_set (Q := fun q c => Serves c request ((fates request).spot q))
        ((hplaced.serves p).leaves (hleaves request hrequest hexcept)) fun q _ => hplaced.serves q
    · refine State.forall_set
        (Q := fun _ c => c.Up → c.pid = request.1 → Asks c request.2 (fates request).ask)
        (fun hup hpid => ?_) fun q _ => hplaced.asks q
      refine hasks hup request.2 _ hrequest ?_ ?_
      · rw [← hmoves.pid, hpid]
        exact hexcept
      · exact hplaced.asks p (hmoves.up hup) (hmoves.pid.symm.trans hpid)

/-- The one request that is left is where its log says. -/
theorem PairedBut.close {request : Key} (hs : PairedBut (some request) s fates) {fate : Fate P V}
    (hplaced : request.2 ≠ 0 → s.Lives request.1 → Placed s request fate) :
    PairedBut none s (Function.update fates request fate) where
  distinct := hs.distinct
  sound := hs.sound
  unborn := hs.unborn
  placed other hother _ hlives := by
    by_cases hsame : other = request
    · subst hsame
      rw [Function.update_self]
      exact hplaced hother hlives
    · rw [Function.update_of_ne hsame]
      exact hs.placed other hother (fun h => hsame (Option.some.inj h).symm) hlives

/-! ### Messages that are pushed -/

theorem Moves.append {c : Proc V} (hborn : c.Born) (hsound : c.Sound gone) (msg : Message V) :
    Moves gone c (c.append msg) :=
  ⟨rfl, hborn, id, id, hsound.append msg⟩

theorem PairedBut.push (hs : PairedBut except s fates) {p : P} (hborn : (s.proc p).Born)
    {msg : Message V} (hrequests : ∀ request, except ≠ some request → request ∉ requests [msg])
    (hresponses : ∀ session, session ≠ 0 → except ≠ some ((s.proc p).pid, session) →
      responses session [msg] = []) : PairedBut except (s.push p msg) fates := by
  refine hs.set p (.append hborn (hs.sound p) msg) (fun request _ hexcept => ?_)
    fun _ session ask hsession hexcept hasks => ?_
  · exact Leaves.append (hrequests request hexcept)
  · exact hasks.append (hresponses session hsession hexcept)

section Response

variable {session : SessionT} (source : ProcessT) (content : Content V)

theorem sessionForResponse_not_request (hsession : session.toNat < 2 ^ 31) :
    typeOfMessage ⟨source, sessionForResponse session, content⟩ ≠ .kRequest := by
  intro htype
  obtain ⟨hpositive, hsmall⟩ := (typeOfMessage_eq_kRequest _).mp htype
  change 0 < (sessionForResponse session).toNat at hpositive
  change (sessionForResponse session).toNat < 2 ^ 31 at hsmall
  by_cases hzero : session = 0
  · rw [hzero] at hpositive
    exact absurd hpositive (by decide)
  · rw [sessionForResponse_toNat hzero] at hsmall
    omega

theorem sessionForResponse_response
    (hsession : 0 < session.toNat ∧ session.toNat < 2 ^ 31) :
    typeOfMessage ⟨source, sessionForResponse session, content⟩ = .kResponse := by
  refine (typeOfMessage_eq_kResponse _).mpr ?_
  have hzero : session ≠ 0 := by
    rintro rfl
    exact absurd hsession.1 (by decide)
  change 2 ^ 31 ≤ (sessionForResponse session).toNat
  rw [sessionForResponse_toNat hzero]
  omega

theorem neg_sessionForResponse (session : SessionT) : -sessionForResponse session = session :=
  neg_neg session

theorem requests_of_answer (hsession : session.toNat < 2 ^ 31) :
    requests [⟨source, sessionForResponse session, content⟩] = [] :=
  Server.requests_of_other (sessionForResponse_not_request source content hsession)

theorem responses_of_answer {session' : SessionT} (hne : session ≠ session') :
    responses session' [⟨source, sessionForResponse session, content⟩] = [] := by
  refine responses_of_other fun _ => ?_
  change -sessionForResponse session ≠ session'
  rw [neg_sessionForResponse]
  exact hne

theorem responses_of_own_answer (hsession : 0 < session.toNat ∧ session.toNat < 2 ^ 31) :
    responses session [⟨source, sessionForResponse session, content⟩] = [content] := by
  have hresponse := responses_of_response (sessionForResponse_response source content hsession)
  change responses (-sessionForResponse session) _ = _ at hresponse
  rwa [neg_sessionForResponse] at hresponse

end Response

/-- Other requests do not see an answer. -/
theorem PairedBut.answers {request : Key} (hs : PairedBut (some request) s fates)
    (hsession : request.2.toNat < 2 ^ 31) {source : ProcessT} {content : Content V}
    (hanswers : s.Answers source request content s') : PairedBut (some request) s' fates := by
  cases hanswers with
  | absent => exact hs
  | found p hpid hintact =>
      refine hs.push (Life.Intact.born hintact) (fun other _ => ?_) fun session _ hexcept => ?_
      · rw [requests_of_answer source content hsession]
        exact List.not_mem_nil
      · refine responses_of_answer source content fun hsame => hexcept ?_
        rw [hpid, ← hsame]

/-- Only the mailbox of an intact process changes. -/
theorem answers_proc {request : Key} {source : ProcessT} {content : Content V}
    (hanswers : s.Answers source request content s') (p : P) :
    s'.proc p = s.proc p ∨ ((s.proc p).life.Intact ∧ ∃ msg, s'.proc p = (s.proc p).append msg) := by
  cases hanswers with
  | absent => exact Or.inl rfl
  | found q hpid hintact =>
      by_cases hp : p = q
      · subst hp
        exact Or.inr ⟨hintact, _, s.set_self _ _⟩
      · exact Or.inl (s.set_of_ne hp _)

theorem answers_born {request : Key} {source : ProcessT} {content : Content V}
    (hanswers : s.Answers source request content s') (p : P) :
    (s'.proc p).life = (s.proc p).life ∧ (s'.proc p).pid = (s.proc p).pid
      ∧ (s'.proc p).machine = (s.proc p).machine := by
  obtain hsame | ⟨-, msg, hsame⟩ := answers_proc hanswers p <;>
  · rw [hsame]
    exact ⟨rfl, rfl, rfl⟩

theorem answers_lives {request : Key} {source : ProcessT} {content : Content V}
    (hanswers : s.Answers source request content s') {pid : ProcessT} (hlives : s'.Lives pid) :
    s.Lives pid := by
  obtain ⟨p, hup, hpid⟩ := hlives
  obtain ⟨hlife, hsame, hmachine⟩ := answers_born hanswers p
  unfold Proc.Up at hup
  rw [hlife, hmachine] at hup
  exact ⟨p, hup, hsame.symm.trans hpid⟩

/-- The response is in the mailbox of the process that waits, and the request is where it was. -/
theorem Placed.answers {request : Key} {fate : Fate P V} (hplaced : Placed s request fate)
    (hdistinct : ∀ p q, (s.proc p).life.Intact → (s.proc q).life.Intact →
      (s.proc p).pid = (s.proc q).pid → p = q)
    (hlives : s.Lives request.1) {co : Nat} (hask : fate.ask = .pending co) {source : ProcessT}
    {content : Content V} (hanswers : s.Answers source request content s') :
    (∀ p, Serves (s'.proc p) request (fate.spot p))
      ∧ ∀ p, (s'.proc p).Up → (s'.proc p).pid = request.1 →
        Asks (s'.proc p) request.2 (.answered co content) := by
  have hidle : fate ≠ .idle := by
    rintro rfl
    cases hask
  obtain ⟨owner, hup, hpid⟩ := hlives
  have hsession := hplaced.session hidle
  cases hanswers with
  | absent habsent => exact absurd hup.1 (habsent owner hpid)
  | found p hfound hintact =>
      obtain rfl : p = owner := hdistinct p owner hintact hup.intact (hfound.trans hpid.symm)
      refine ⟨?_, fun q hq hpid' => ?_⟩
      · refine State.forall_set (Q := fun q c => Serves c request (fate.spot q)) ?_
          fun q _ => hplaced.serves q
        refine (hplaced.serves p).leaves (Leaves.append ?_)
        rw [requests_of_answer source content hsession.2]
        exact List.not_mem_nil
      · by_cases hne : q = p
        · subst hne
          rw [State.push, s.set_self]
          have hasks := hplaced.asks q hup hpid
          rw [hask] at hasks
          exact hasks.answer (responses_of_own_answer source content hsession)
        · rw [State.push, s.set_of_ne hne] at hq hpid'
          exact absurd (hdistinct q p hq.intact hup.intact (hpid'.trans hpid.symm)) hne

/-! ### The steps of one request -/

/-- What has become of the requests after a step. -/
def after (fates : Key → Fate P V) : Label P V → Key → Fate P V
  | .create _ pid => fun request => if request.1 = pid then .idle else fates request
  | label =>
    match label.key with
    | some request => Function.update fates request ((fates request).move label)
    | none => fates

theorem after_of_key {label : Label P V} {request : Key} (hkey : label.key = some request) :
    after fates label = Function.update fates request ((fates request).move label) := by
  cases label <;> cases hkey <;> rfl

theorem after_of_none {label : Label P V} (hkey : label.key = none)
    (hcreates : label.creates = none) : after fates label = fates := by
  cases label with
  | create => cases hcreates
  | other | send | call | block | destroy => rfl
  | request | yield | receive | serve | answer | abort | take | resume | unwind => cases hkey

theorem after_of_creates {label : Label P V} {pid : ProcessT} (hcreates : label.creates = some pid)
    (request : Key) :
    after fates label request = if request.1 = pid then .idle else fates request := by
  cases label with
  | create =>
      cases hcreates
      rfl
  | _ => cases hcreates

theorem after_fate (log : List (Label P V)) (label : Label P V) :
    (fun request => fate request (log ++ [label])) = after (fun request => fate request log) label := by
  funext request
  rw [fate_concat]
  by_cases hconcerns : label.Concerns request
  · rw [if_pos hconcerns]
    obtain hkey | hcreates := hconcerns
    · rw [after_of_key hkey]
      exact (Function.update_self (f := fun request => fate request log) _ _).symm
    · rw [after_of_creates hcreates, if_pos rfl, Fate.move_creates _ hcreates]
  · rw [if_neg hconcerns]
    cases hkey : label.key with
    | some other =>
        have hne : request ≠ other := fun hsame => hconcerns (Or.inl (by rw [hkey, hsame]))
        rw [after_of_key hkey, Function.update_of_ne hne]
    | none =>
        cases hcreates : label.creates with
        | none => rw [after_of_none hkey hcreates]
        | some pid =>
            have hne : request.1 ≠ pid := fun hsame => hconcerns (Or.inr (by rw [hcreates, hsame]))
            rw [after_of_creates hcreates, if_neg hne]

theorem Fate.of_mailbox {fate : Fate P V} {p : P} (hspot : fate.spot p = .mailbox) :
    ∃ co, fate = .pushed co p := by
  cases fate with
  | pushed co target =>
      have htarget : target = p := by
        by_contra hne
        simp [Fate.spot, hne] at hspot
      exact ⟨co, by rw [htarget]⟩
  | received | served =>
      simp only [Fate.spot] at hspot
      split at hspot <;> cases hspot
  | idle | answered | woken | lost => cases hspot

theorem Fate.of_inbox {fate : Fate P V} {p : P} (hspot : fate.spot p = .inbox) :
    ∃ co, fate = .received co p := by
  cases fate with
  | received co target =>
      have htarget : target = p := by
        by_contra hne
        simp [Fate.spot, hne] at hspot
      exact ⟨co, by rw [htarget]⟩
  | pushed | served =>
      simp only [Fate.spot] at hspot
      split at hspot <;> cases hspot
  | idle | answered | woken | lost => cases hspot

theorem Fate.of_record {fate : Fate P V} {p : P} {call : Option Nat}
    (hspot : fate.spot p = .record call) : ∃ co, fate = .served co p call := by
  cases fate with
  | served co target call' =>
      simp only [Fate.spot] at hspot
      split at hspot
      · next htarget =>
          cases hspot
          exact ⟨co, by rw [htarget]⟩
      · cases hspot
  | pushed | received =>
      simp only [Fate.spot] at hspot
      split at hspot <;> cases hspot
  | idle | answered | woken | lost => cases hspot

/-- A request that is with one process is with no other one. -/
theorem Fate.spot_of_ne {p q : P} (hq : q ≠ p) (co : Nat) (call : Option Nat) :
    (Fate.pushed co p : Fate P V).spot q = .nowhere
      ∧ (Fate.received co p : Fate P V).spot q = .nowhere
      ∧ (Fate.served co p call : Fate P V).spot q = .nowhere :=
  ⟨if_neg hq.symm, if_neg hq.symm, if_neg hq.symm⟩

theorem Fate.spot_self (p : P) (co : Nat) (call : Option Nat) :
    (Fate.pushed co p : Fate P V).spot p = .mailbox
      ∧ (Fate.received co p : Fate P V).spot p = .inbox
      ∧ (Fate.served co p call : Fate P V).spot p = .record call :=
  ⟨if_pos rfl, if_pos rfl, if_pos rfl⟩

/-- One process moves, and the request is where it should be. -/
theorem Placed.set {request : Key} {fate : Fate P V} {p : P} (hsensible : fate ≠ .lost)
    (hsession : fate ≠ .idle → 0 < request.2.toNat ∧ request.2.toNat < 2 ^ 31)
    (hself : Serves c' request (fate.spot p))
    (hother : ∀ q, q ≠ p → Serves (s.proc q) request (fate.spot q))
    (hasks : c'.Up → c'.pid = request.1 → Asks c' request.2 fate.ask)
    (hasks' : ∀ q, q ≠ p → (s.proc q).Up → (s.proc q).pid = request.1 →
      Asks (s.proc q) request.2 fate.ask) : Placed (s.set p c') request fate where
  sensible := hsensible
  session := hsession
  serves := State.forall_set (Q := fun q c => Serves c request (fate.spot q)) hself hother
  asks := State.forall_set
    (Q := fun _ c => c.Up → c.pid = request.1 → Asks c request.2 fate.ask) hasks hasks'

/-- A step of the process that is asked. -/
theorem Placed.step {request : Key} {fate fate' : Fate P V} {p : P} (hplaced : Placed s request fate)
    (hmoves : Moves gone (s.proc p) c') (hidle : fate ≠ .idle) (hsensible : fate' ≠ .lost)
    (hself : Serves c' request (fate'.spot p)) (hother : ∀ q, q ≠ p → fate'.spot q = fate.spot q)
    (hask : fate'.ask = fate.ask)
    (hkeep : c'.Up → Asks (s.proc p) request.2 fate.ask → Asks c' request.2 fate.ask) :
    Placed (s.set p c') request fate' := by
  refine .set hsensible (fun _ => hplaced.session hidle) hself (fun q hq => ?_)
    (fun hup hpid => ?_) fun q _ hup hpid => ?_
  · rw [hother q hq]
    exact hplaced.serves q
  · rw [hask]
    exact hkeep hup (hplaced.asks p (hmoves.up hup) (hmoves.pid.symm.trans hpid))
  · rw [hask]
    exact hplaced.asks q hup hpid

/-! ### Processes that move -/

section Moves

variable {c c' : Proc V}

theorem Moves.of_runs (hruns : c.Runs) (hpid : c'.pid = c.pid) (hlife : c'.life = c.life)
    (hexit : c.machine.pc.InExit → c'.machine.pc.InExit) (hsound : c'.Sound gone) :
    Moves gone c c' where
  pid := hpid
  after := by
    unfold Proc.Born
    rw [hlife]
    exact hruns.born
  intact _ := hruns.intact
  up hup := by
    refine ⟨?_, fun h => hup.2 (hexit h)⟩
    rw [← hlife]
    exact hup.1
  sound := hsound

theorem Moves.trans {c'' : Proc V} (h : Moves gone c c') (h' : Moves gone c' c'') :
    Moves gone c c'' :=
  ⟨h'.pid.trans h.pid, h'.after, fun hintact => h.intact (h'.intact hintact),
    fun hup => h.up (h'.up hup), h'.sound⟩

theorem Proc.Calls.not_taking {co : Nat} {caller : Coroutines.Caller} (hcalls : c.Calls co caller) :
    c.machine.pc ≠ .taking := by
  rw [hcalls.2.1]
  exact Coroutines.Pc.noConfusion

/-- A coroutine that waits is not the one that runs. -/
theorem Proc.Calls.spares {co : Nat} {caller : Coroutines.Caller} (hcalls : c.Calls co caller)
    {label : Coroutines.Label V} {machine : Coroutines.State V}
    (hstep : Coroutines.Step c.machine label machine) (x : Nat) : label.Spares x :=
  hstep.running_spares hcalls.2.1 x

theorem Moves.call (hc : c.Sound gone) {co : Nat} {caller : Coroutines.Caller}
    (hcalls : c.Calls co caller) {label : Coroutines.Label V} {machine : Coroutines.State V}
    (hstep : Coroutines.Step c.machine label machine) (hinbox : machine.inbox ⊆ c.machine.inbox) :
    Moves gone c { c with machine := machine } := by
  refine .of_runs hcalls.1 rfl rfl hstep.inExit ?_
  refine hc.move ?_ hinbox c.sessions
  refine hc.waits.step hstep hcalls.not_taking ?_ fun x _ => hcalls.spares hstep x
  exact hc.waits.not_pushed hcalls.2.1 hcalls.2.2

/-- What the coroutine that runs does with the others does not touch the waits on sessions. -/
theorem Asks.call {session : SessionT} {ask : Ask V} (hasks : Asks c session ask) (hc : c.Sound gone)
    {co : Nat} {caller : Coroutines.Caller} (hcalls : c.Calls co caller)
    {label : Coroutines.Label V} {machine : Coroutines.State V}
    (hstep : Coroutines.Step c.machine label machine)
    (hblock : session ∈ c.sessions → ∀ x, label ≠ .wait x (some session))
    (hup : { c with machine := machine }.Up) : Asks { c with machine := machine } session ask :=
  hasks.step hc.waits hstep hcalls.not_taking hup.2 hblock fun x _ => hcalls.spares hstep x

theorem Moves.receive (hc : c.Sound gone) (hruns : c.Runs) (hpc : c.machine.pc = .taking)
    (msg : Message V) : Moves gone c (c.receive msg) := by
  refine .of_runs hruns rfl rfl (fun hexit => ?_) (hc.receive hruns hpc)
  rw [hpc] at hexit
  exact hexit.elim

theorem Moves.answer (hc : c.Sound gone) (hruns : c.Runs) (call : Nat) (request : Key) :
    Moves gone c (c.answer (some call) request) :=
  .of_runs hruns rfl rfl id (hc.answer hruns call request)

theorem Moves.openSession (hc : c.Sound gone) {co : Nat} {caller : Coroutines.Caller}
    (hcalls : c.Calls co caller) {session : SessionT} (hsession : session ≠ 0) :
    Moves gone c (c.openSession co session) := by
  refine .of_runs hcalls.1 rfl rfl id ?_
  exact hc.move (hc.waits.push hcalls.2.1 hsession) (List.Subset.refl _) _

/-- In the three loops of the destructor, and before them. -/
theorem Moves.ends (hc : c.Sound gone) {life : Life} (hlife : life ≠ .running ∧ life ≠ .unborn)
    (hrecords : { c with life := life }.records ⊆ c.records)
    (hintact : life.Intact → c.life.Intact)
    (hemptied : { c with life := life }.Emptied gone)
    (hclosing : c.closing = none) : Moves gone c { c with life := life } where
  pid := rfl
  after := hlife.2
  intact := hintact
  up hup := absurd hup.1 hlife.1
  sound := by
    refine hc.congr rfl rfl rfl ?_ hrecords hemptied fun h => absurd hclosing h
    cases life with
    | running => exact absurd rfl hlife.1
    | unborn | down | aborting | drainingInbox | drainingMailbox | destroyed =>
        exact Finset.empty_subset _

end Moves

end Stp.Pairing
