import Stp.Coroutines.Sessions
import Stp.Net.Machine

/-!
# The requesters of a process that goes down

A process that has gone down is not looked for again, so the abort of the requests it did not answer
is left to its destructor, which does not run while a coroutine has a handle on the process in its
frame. So the destructor aborts no request whose coroutine waits, and what a coroutine waits for when
its target goes down has to be in its mailbox by then.
-/

namespace Stp.Net

open Process Tally

variable {P V W C : Type*}

def State.Live (s : State P V W C) (p : P) : Prop :=
  (s.kernel.proc p).created = true ∧ (s.kernel.proc p).down = false

/-- The coroutine has pushed a request to the process, and has not been woken. -/
def State.Awaits (s : State P V W C) (p : P) (co : Nat) (target : P) (session : SessionT) : Prop :=
  s.request p co = .pushed target session
    ∨ (s.request p co = .waiting target session ∧ (session, co) ∈ (s.machine p).blockSessions)

/-- A response on the session is in the mailbox. -/
def State.Answered (s : State P V W C) (p : P) (session : SessionT) : Prop :=
  ∃ msg ∈ (s.kernel.proc p).mailbox.messages,
    typeOfMessage msg = .kResponse ∧ -msg.session = session

/-- A process goes down only when the requests that live processes wait for have been answered, and
no request is pushed to it any more. -/
def Label.Heeded (s : State P V W C) : Label P V → Prop
  | .push _ _ target _ _ => (s.kernel.proc target).down = false
  | .down target => ∀ p co session, p ≠ target → s.Live p → s.Awaits p co target session →
      s.Answered p session
  | _ => True

/-- In the code of `request`, on one side of its wait or on the other. -/
def Request.Active : Request P → Prop
  | .away | .waiting _ _ => False
  | _ => True

structure Attended (s : State P V W C) : Prop where
  keys : ∀ p, ((s.machine p).blockSessions.map Prod.fst).Nodup
  active : ∀ p co, (s.request p co).Active → ∃ caller, (s.machine p).pc = .running co caller
  answered : ∀ target p co session, (s.kernel.proc target).down = true → s.Live p →
    s.Awaits p co target session → s.Answered p session

section Kernel

variable {i : W ⊕ C} {p : P} {rest taken put : List (Frame P V)} {effect : Effect}

/-- Calls from outside neither create a process nor take it down, nor do they change the messages. -/
theorem move_frame {c c' : Proc V} {kept kept' : Nat}
    (hmove : Move i p rest effect ⟨c, kept, taken⟩ ⟨c', kept', put⟩)
    (hreg : ∀ pid, effect ≠ .reg pid) (hself : ∀ phase, taken ≠ [.running p phase])
    (hhandle : taken = [.holding p] → put ≠ [.pushed p .handle])
    (hdestroying : taken = [.destroying p] → put = []) :
    c'.created = c.created ∧ c'.down = c.down
      ∧ c'.mailbox.messages = c.mailbox.messages := by
  cases hmove with
  | pop | requeue | rest | unreg | unregAbsent | retire | finish | find | release | keep | restore
  | created | exchange | ref | enqueue | destroy => exact ⟨rfl, rfl, rfl⟩
  | create _ _ pid => exact absurd rfl (hreg pid)
  | dispatchDown | take | takeNothing | handled | killed | appendSelf => exact absurd rfl (hself _)
  | append => exact absurd rfl (hhandle rfl)
  | drain => cases hdestroying rfl

theorem State.Aside.frame {s : State P V W C} {view : View P V}
    (haside : s.Aside p rest taken effect view)
    (hmove : Move i p rest effect (s.kernel.view p taken) view) :
    view.proc.created = (s.kernel.proc p).created ∧ view.proc.down = (s.kernel.proc p).down
      ∧ view.proc.mailbox.messages = (s.kernel.proc p).mailbox.messages := by
  refine move_frame hmove (fun pid heffect => ?_) (fun phase htaken => ?_) (fun htaken => ?_)
    fun htaken => ?_
  · subst heffect
    cases haside with
    | handle | other => cases hmove
  · cases haside with
    | other frame effect view hframe =>
        rw [List.singleton_inj] at htaken
        exact absurd htaken (hframe phase)
    | pop | find | handle => cases htaken
  · cases haside with
    | handle effect view houtside hkept hframes => exact hframes
    | other frame effect view hframe hhandle =>
        rw [List.singleton_inj] at htaken
        exact absurd htaken hhandle
    | pop | find => cases htaken
  · cases haside with
    | other frame effect view hframe hhandle hdestroying =>
        exact hdestroying (List.singleton_inj.mp htaken)
    | pop | find | handle => cases htaken

theorem tally_pos [DecidableEq P] [Fintype W] [Fintype C] {kernel : Process.State P V W C}
    {frame : Frame P V} (weight : Frame P V → Nat) (hstack : kernel.stack i = frame :: rest)
    (hprocess : frame.process = p) (hweight : 0 < weight frame) : 0 < kernel.tally p weight := by
  refine Nat.lt_of_lt_of_le ?_ (le_total (weigh weight p) kernel.stack i)
  have hfirst : weigh weight p [frame] = _ :=
    weigh_same weight fun frame' hframe => by rw [List.mem_singleton.mp hframe, hprocess]
  have hsplit := weigh_append weight p [frame] rest
  rw [hfirst, List.map_singleton, List.sum_singleton, List.singleton_append] at hsplit
  rw [hstack, hsplit]
  exact Nat.add_pos_left hweight _

/-- A live process is not being destroyed. -/
theorem State.Live.intact [DecidableEq P] [Fintype W] [Fintype C] {s : State P V W C}
    (hlive : s.Live p) (hs : Sound s.kernel) :
    s.kernel.stack i ≠ .destroying p :: rest := by
  intro hstack
  have hbalanced := hs.balanced p
  obtain ⟨hborn, hrefcnt, -⟩ :=
    hbalanced.destroying (tally_pos Frame.destroys hstack rfl Nat.one_pos)
  have hdown := (hbalanced.gone hborn hrefcnt).1
  rw [hlive.2] at hdown
  cases hdown

section After

variable [DecidableEq P] [DecidableEq W] [DecidableEq C] {kernel : Process.State P V W C}
  {view : View P V} {registry : Registry P} {sched : Sched.State P W (W ⊕ C)}

theorem after_proc_self : (kernel.after i p rest view registry sched).proc p = view.proc :=
  Function.update_self _ _ _

theorem after_proc_of_ne {q : P} (hq : q ≠ p) :
    (kernel.after i p rest view registry sched).proc q = kernel.proc q :=
  Function.update_of_ne hq _ _

end After

/-- A live process loses no message, and no process goes down. -/
structure Passes (kernel kernel' : Process.State P V W C) : Prop where
  created : ∀ q, (kernel'.proc q).created = (kernel.proc q).created
  down : ∀ q, (kernel'.proc q).down = (kernel.proc q).down
  messages : ∀ q, (kernel.proc q).created = true → (kernel.proc q).down = false →
    (kernel.proc q).mailbox.messages ⊆ (kernel'.proc q).mailbox.messages

theorem passes_after [DecidableEq P] [DecidableEq W] [DecidableEq C]
    {kernel : Process.State P V W C} {view : View P V}
    (hcreated : view.proc.created = (kernel.proc p).created)
    (hdown : view.proc.down = (kernel.proc p).down)
    (hmessages : (kernel.proc p).created = true → (kernel.proc p).down = false →
      (kernel.proc p).mailbox.messages ⊆ view.proc.mailbox.messages)
    (registry : Registry P) (sched : Sched.State P W (W ⊕ C)) :
    Passes kernel (kernel.after i p rest view registry sched) := by
  refine ⟨fun q => ?_, fun q => ?_, fun q hborn hup => ?_⟩
  all_goals
    by_cases hq : q = p
  · rw [hq, after_proc_self, hcreated]
  · rw [after_proc_of_ne hq]
  · rw [hq, after_proc_self, hdown]
  · rw [after_proc_of_ne hq]
  · subst hq
    rw [after_proc_self]
    exact hmessages hborn hup
  · rw [after_proc_of_ne hq]
    exact List.Subset.refl _

end Kernel

/-! ### The steps -/

section Steps

variable {s s' : State P V W C}

theorem Passes.refl (kernel : Process.State P V W C) : Passes kernel kernel :=
  ⟨fun _ => rfl, fun _ => rfl, fun _ _ _ => List.Subset.refl _⟩

/-- Nobody begins to wait, and no response is lost. -/
theorem Attended.keeps (hs : Attended s) (hpasses : Passes s.kernel s'.kernel)
    (hawaits : ∀ p co target session, s'.Awaits p co target session →
      s.Awaits p co target session) :
    ∀ target p co session, (s'.kernel.proc target).down = true → s'.Live p →
      s'.Awaits p co target session → s'.Answered p session := by
  intro target p co session hdown ⟨hborn, hup⟩ hawaiting
  rw [hpasses.created] at hborn
  rw [hpasses.down] at hdown hup
  obtain ⟨msg, hmsg, hresponse⟩ :=
    hs.answered target p co session hdown ⟨hborn, hup⟩ (hawaits p co target session hawaiting)
  exact ⟨msg, hpasses.messages p hborn hup hmsg, hresponse⟩

theorem Attended.pass (hs : Attended s) {kernel : Process.State P V W C}
    (hpasses : Passes s.kernel kernel) : Attended { s with kernel := kernel } :=
  ⟨hs.keys, hs.active, hs.keeps hpasses fun _ _ _ _ => id⟩

theorem Attended.idle (hs : Attended s) {p : P} (hpc : (s.machine p).pc.current = []) (co : Nat) :
    ¬ (s.request p co).Active := by
  intro hactive
  obtain ⟨caller, hrunning⟩ := hs.active p co hactive
  rw [hrunning] at hpc
  cases hpc

theorem Attended.only (hs : Attended s) {p : P} {co : Nat} {caller : Coroutines.Caller}
    (hpc : (s.machine p).pc = .running co caller) {x : Nat} (hactive : (s.request p x).Active) :
    x = co := by
  obtain ⟨caller', hrunning⟩ := hs.active p x hactive
  rw [hpc] at hrunning
  cases hrunning
  rfl

/-- One process moves, and nobody in it begins to wait. -/
theorem Attended.moves (hs : Attended s) (p : P) (hpasses : Passes s.kernel s'.kernel)
    (hmachine : ∀ q, q ≠ p → s'.machine q = s.machine q)
    (hrequest : ∀ q, q ≠ p → s'.request q = s.request q)
    (hkeys : ((s'.machine p).blockSessions.map Prod.fst).Nodup)
    (hactive : ∀ co, (s'.request p co).Active → ∃ caller, (s'.machine p).pc = .running co caller)
    (hawaits : ∀ co target session, s'.Awaits p co target session →
      s.Awaits p co target session) : Attended s' := by
  refine ⟨fun q => ?_, fun q co => ?_, hs.keeps hpasses fun q co target session => ?_⟩
  all_goals
    by_cases hq : q = p
  · rw [hq]
    exact hkeys
  · rw [hmachine q hq]
    exact hs.keys q
  · rw [hq]
    exact hactive co
  · rw [hmachine q hq, hrequest q hq]
    exact hs.active q co
  · rw [hq]
    exact hawaits co target session
  · unfold State.Awaits
    rw [hmachine q hq, hrequest q hq]
    exact id

/-- The coroutine has not pushed its request, or its wait is over. -/
def Request.Pending : Request P → Prop
  | .pushed _ _ | .waiting _ _ => True
  | _ => False

theorem State.Awaits.pending {p : P} {co : Nat} {target : P} {session : SessionT}
    (hawaits : s.Awaits p co target session) : (s.request p co).Pending := by
  obtain hrequest | ⟨hrequest, -⟩ := hawaits <;>
  · rw [hrequest]
    trivial

variable [DecidableEq P]

/-- The running coroutine goes on in `request`, on the same side of the wait. -/
theorem Attended.goes (hs : Attended s) {p : P} {co : Nat} {caller : Coroutines.Caller}
    (hpc : (s.machine p).pc = .running co caller) {request : Request P}
    (hpending : ¬ request.Pending) (hpasses : Passes s.kernel s'.kernel)
    (hmachine : s'.machine = s.machine)
    (hrequest : s'.request = (s.setRequest p co request).request) : Attended s' := by
  have hsame : ∀ x, x ≠ co → s'.request p x = s.request p x := by
    intro x hx
    rw [hrequest, s.setRequest_of_ne p hx]
  refine hs.moves p hpasses (fun q _ => by rw [hmachine]) (fun q hq => ?_) ?_ (fun x hactive => ?_)
    fun x target session hawaits => ?_
  · rw [hrequest]
    exact Function.update_of_ne hq _ _
  · rw [hmachine]
    exact hs.keys p
  · rw [hmachine]
    by_cases hx : x = co
    · rw [hx]
      exact ⟨caller, hpc⟩
    · rw [hsame x hx] at hactive
      exact hs.active p x hactive
  · by_cases hx : x = co
    · have hrequest' := hawaits.pending
      rw [hx, hrequest, s.setRequest_self] at hrequest'
      exact absurd hrequest' hpending
    · rw [State.Awaits, hsame x hx, hmachine] at hawaits
      exact hawaits

/-- A step of the process for which no coroutine of it begins to wait. -/
theorem Attended.steps (hs : Attended s) {p : P} {label : Coroutines.Label V}
    {machine : Coroutines.State V} (hstep : Coroutines.Step (s.machine p) label machine)
    (hactive : ∀ co, ¬ (s.request p co).Active)
    (hlabel : ∀ co session, label = .wait co session → ¬ (s.request p co).Pending) :
    Attended (s.setMachine p machine) := by
  obtain ⟨hkeys, htable⟩ := Coroutines.table_step hstep
  refine hs.moves p (.refl _) (fun q hq => Function.update_of_ne hq _ _) (fun _ _ => rfl) ?_
    (fun co h => absurd h (hactive co)) fun co target session hawaits => ?_
  · rw [s.setMachine_self]
    exact hkeys (hs.keys p)
  · obtain hpushed | ⟨hwaiting, hentry⟩ := hawaits
    · exact Or.inl hpushed
    · rw [s.setMachine_self] at hentry
      obtain hentry | hwait := htable _ hentry
      · exact Or.inr ⟨hwaiting, hentry⟩
      · refine absurd ?_ (hlabel _ _ hwait)
        change (s.request p co).Pending
        rw [show s.request p co = .waiting target session from hwaiting]
        trivial

theorem Attended.push (hs : Attended s) {p q : P} {co : Nat} {caller : Coroutines.Caller}
    {session : SessionT} {kernel : Process.State P V W C}
    (hpc : (s.machine p).pc = .running co caller) (hheeded : (s.kernel.proc q).down = false)
    (hpasses : Passes s.kernel kernel) :
    Attended { s.setRequest p co (.pushed q session) with kernel := kernel } := by
  refine ⟨hs.keys, fun r x hactive => ?_, fun target r x session' hdown hlive hawaits => ?_⟩
  · by_cases hself : r = p ∧ x = co
    · rw [hself.1, hself.2]
      exact ⟨caller, hpc⟩
    · simp only [s.setRequest_apply, if_neg hself] at hactive
      exact hs.active r x hactive
  · by_cases hself : r = p ∧ x = co
    · simp only [State.Awaits, s.setRequest_apply, if_pos hself] at hawaits
      obtain hpushed | ⟨hwaiting, -⟩ := hawaits
      · cases hpushed
        rw [hpasses.down, hheeded] at hdown
        cases hdown
      · cases hwaiting
    · simp only [State.Awaits, s.setRequest_apply, if_neg hself] at hawaits
      rw [hpasses.down] at hdown
      rw [State.Live, hpasses.created, hpasses.down] at hlive
      obtain ⟨msg, hmsg, hresponse⟩ := hs.answered target r x session' hdown hlive hawaits
      exact ⟨msg, hpasses.messages r hlive.1 hlive.2 hmsg, hresponse⟩

theorem Attended.block (hs : Attended s) {p q : P} {co : Nat} {caller : Coroutines.Caller}
    {session : SessionT} {machine : Coroutines.State V} {kernel : Process.State P V W C}
    (hpc : (s.machine p).pc = .running co caller) (hrequest : s.request p co = .pushed q session)
    (hstep : Coroutines.Step (s.machine p) (.wait co (some session)) machine)
    (hpasses : Passes s.kernel kernel) :
    Attended (State.setRequest { s.setMachine p machine with kernel := kernel } p co
      (.waiting q session)) := by
  obtain ⟨hkeys, htable⟩ := Coroutines.table_step hstep
  refine hs.moves p hpasses (fun r hr => Function.update_of_ne hr _ _)
    (fun r hr => Function.update_of_ne hr _ _) ?_ (fun x hactive => ?_)
    fun x target session' hawaits => ?_
  · change (((s.setMachine p machine).machine p).blockSessions.map Prod.fst).Nodup
    rw [s.setMachine_self]
    exact hkeys (hs.keys p)
  · by_cases hx : x = co
    · rw [hx, State.setRequest_self] at hactive
      exact hactive.elim
    · rw [State.setRequest_of_ne _ p hx] at hactive
      exact absurd (hs.only hpc hactive) hx
  · by_cases hx : x = co
    · subst hx
      rw [State.Awaits, State.setRequest_self] at hawaits
      obtain hpushed | ⟨hwaiting, -⟩ := hawaits
      · cases hpushed
      · cases hwaiting
        exact Or.inl hrequest
    · rw [State.Awaits, State.setRequest_of_ne _ p hx] at hawaits
      refine hawaits.imp_right fun ⟨hwaiting, hentry⟩ => ⟨hwaiting, ?_⟩
      change _ ∈ ((s.setMachine p machine).machine p).blockSessions at hentry
      rw [s.setMachine_self] at hentry
      obtain hentry | hwait := htable _ hentry
      · exact hentry
      · cases hwait
        exact absurd rfl hx

theorem Attended.unblock (hs : Attended s) {p q : P} {co : Nat} {session : SessionT}
    {outcome : Option (Coroutines.Outcome V)} {machine : Coroutines.State V}
    {kernel : Process.State P V W C}
    (hstep : Coroutines.Step (s.machine p) (.resume co outcome) machine)
    (hpasses : Passes s.kernel kernel) :
    Attended (State.setRequest { s.setMachine p machine with kernel := kernel } p co
      (.returned q session)) := by
  obtain ⟨hkeys, htable⟩ := Coroutines.table_step hstep
  obtain ⟨hidle, hcurrent, -⟩ := hstep.resume_frame
  refine hs.moves p hpasses (fun r hr => Function.update_of_ne hr _ _)
    (fun r hr => Function.update_of_ne hr _ _) ?_ (fun x hactive => ?_)
    fun x target session' hawaits => ?_
  · change (((s.setMachine p machine).machine p).blockSessions.map Prod.fst).Nodup
    rw [s.setMachine_self]
    exact hkeys (hs.keys p)
  · change ∃ caller, ((s.setMachine p machine).machine p).pc = _
    rw [s.setMachine_self]
    by_cases hx : x = co
    · rw [hx]
      exact Coroutines.Pc.running_of_current hcurrent
    · rw [State.setRequest_of_ne _ p hx] at hactive
      exact absurd hactive (hs.idle hidle x)
  · by_cases hx : x = co
    · have hpending := hawaits.pending
      rw [hx, State.setRequest_self] at hpending
      exact hpending.elim
    · rw [State.Awaits, State.setRequest_of_ne _ p hx] at hawaits
      refine hawaits.imp_right fun ⟨hwaiting, hentry⟩ => ⟨hwaiting, ?_⟩
      change _ ∈ ((s.setMachine p machine).machine p).blockSessions at hentry
      rw [s.setMachine_self] at hentry
      obtain hentry | hwait := htable _ hentry
      · exact hentry
      · cases hwait

variable [DecidableEq W] [DecidableEq C]

theorem Attended.create (hs : Attended s) (i : W ⊕ C) (p : P) (pid : ProcessT)
    (registry : Registry P) :
    Attended
      { kernel := s.kernel.after i p (s.kernel.stack i)
          ⟨.fresh pid, s.kernel.kept p, [.creating p]⟩ registry s.kernel.sched
        machine := Function.update s.machine p .fresh
        request := Function.update s.request p fun _ => .away
        sessions := Function.update s.sessions p ∅ } := by
  refine ⟨fun q => ?_, fun q co hactive => ?_, fun target q co session hdown hlive hawaits => ?_⟩
  · simp only
    by_cases hq : q = p
    · rw [hq, Function.update_self]
      exact List.nodup_nil
    · rw [Function.update_of_ne hq]
      exact hs.keys q
  · simp only at hactive ⊢
    by_cases hq : q = p
    · rw [hq, Function.update_self] at hactive
      exact hactive.elim
    · rw [Function.update_of_ne hq] at hactive ⊢
      exact hs.active q co hactive
  · simp only [State.Live, State.Awaits, State.Answered] at hdown hlive hawaits ⊢
    have htarget : target ≠ p := by
      rintro rfl
      rw [after_proc_self] at hdown
      cases hdown
    by_cases hq : q = p
    · rw [hq, Function.update_self] at hawaits
      obtain hpushed | ⟨hwaiting, -⟩ := hawaits
      · cases hpushed
      · cases hwaiting
    · rw [after_proc_of_ne htarget] at hdown
      rw [after_proc_of_ne hq] at hlive ⊢
      rw [Function.update_of_ne hq, Function.update_of_ne hq] at hawaits
      exact hs.answered target q co session hdown hlive hawaits

theorem Attended.take (hs : Attended s) (i : W ⊕ C) {p : P} (rest : List (Frame P V))
    {msg : Message V} (hpc : (s.machine p).pc = .taking)
    (htake : (s.kernel.proc p).mailbox.take.1 = some msg) :
    Attended ((s.put i p rest
      ⟨{ s.kernel.proc p with mailbox := (s.kernel.proc p).mailbox.take.2 }, s.kernel.kept p,
        [.running p (.handle msg)]⟩).setMachine p ((s.machine p).receive msg)) := by
  obtain ⟨hsublist, hgone⟩ := Coroutines.receive_table (s.machine p) msg
  have hidle := hs.idle (p := p) (by rw [hpc]; rfl)
  refine ⟨fun q => ?_, fun q co hactive => ?_, fun target q co session hdown hlive hawaits => ?_⟩
  · by_cases hq : q = p
    · subst hq
      rw [State.setMachine_self]
      exact (hsublist.map Prod.fst).nodup (hs.keys q)
    · rw [State.setMachine_of_ne _ hq]
      exact hs.keys q
  · by_cases hq : q = p
    · subst hq
      exact absurd hactive (hidle co)
    · rw [State.setMachine_of_ne _ hq]
      exact hs.active q co hactive
  · simp only [State.Live, State.Answered, State.setMachine, State.put] at hdown hlive ⊢
    replace hdown : (s.kernel.proc target).down = true := by
      by_cases htarget : target = p
      · rwa [htarget, after_proc_self, ← htarget] at hdown
      · rwa [after_proc_of_ne htarget] at hdown
    by_cases hq : q = p
    · subst hq
      rw [after_proc_self] at hlive ⊢
      obtain hpushed | ⟨hwaiting, hentry⟩ := hawaits
      · exact absurd (by rw [show s.request q co = _ from hpushed]; trivial) (hidle co)
      · rw [State.setMachine_self] at hentry
        obtain ⟨msg', hmem, htype, hsession⟩ := hs.answered target q co session hdown hlive
          (Or.inr ⟨hwaiting, hsublist.subset hentry⟩)
        rw [Mailbox.take_some htake] at hmem
        obtain rfl | hmem := List.mem_cons.mp hmem
        · rw [← hsession] at hentry
          exact absurd hentry (hgone htype (hs.keys q) co)
        · exact ⟨msg', hmem, htype, hsession⟩
    · rw [after_proc_of_ne hq] at hlive ⊢
      rw [State.Awaits, State.setMachine_of_ne _ hq] at hawaits
      exact hs.answered target q co session hdown hlive hawaits

theorem Attended.down (hs : Attended s) (i : W ⊕ C) {p : P} (rest frames : List (Frame P V))
    (hheeded : (Label.down p).Heeded s) :
    let s' := s.put i p rest ⟨{ s.kernel.proc p with down := true }, s.kernel.kept p, frames⟩
    ∀ target q co session, (s'.kernel.proc target).down = true → s'.Live q →
      s'.Awaits q co target session → s'.Answered q session := by
  intro s' target q co session hdown hlive hawaits
  simp only [s', State.Live, State.Answered, State.put] at hdown hlive ⊢
  have hq : q ≠ p := by
    rintro rfl
    rw [after_proc_self] at hlive
    cases hlive.2
  rw [after_proc_of_ne hq] at hlive ⊢
  by_cases htarget : target = p
  · subst htarget
    exact hheeded q co session hq hlive hawaits
  · rw [after_proc_of_ne htarget] at hdown
    exact hs.answered target q co session hdown hlive hawaits

theorem Step.attended [Fintype W] [Fintype C] {label : Label P V} (hstep : Step s label s')
    (hheeded : label.Heeded s) (hsound : Sound s.kernel) (hs : Attended s) : Attended s' := by
  cases hstep with
  | sched touched kernel hstep hsame =>
      rw [hsame]
      exact ⟨hs.keys, hs.active, hs.answered⟩
  | aside i p rest taken effect view registry sched hsending hstack hmove hacts haside =>
      obtain ⟨hcreated, hdown, hmessages⟩ := haside.frame hmove
      refine hs.pass (passes_after hcreated hdown (fun _ _ => ?_) _ _)
      rw [hmessages]
      exact List.Subset.refl _
  | send | sendSelf =>
      refine hs.pass (passes_after rfl rfl (fun _ _ => ?_) _ _)
      rw [Mailbox.append_messages]
      exact List.subset_append_left _ _
  | drain i p rest hsending hstack =>
      refine hs.pass (passes_after rfl rfl (fun hborn hup => ?_) _ _)
      exact absurd hstack (State.Live.intact ⟨hborn, hup⟩ hsound)
  | create i p pid registry hsending hfresh => exact hs.create i p pid registry
  | loop i p phase rest label machine hruns hcode hstep hloop htaking =>
      refine hs.steps hstep (hs.idle hloop) fun co session hlabel => ?_
      subst hlabel
      obtain ⟨caller, hpc⟩ := hstep.wait_running
      rw [hpc] at hloop
      cases hloop
  | take i p rest msg hruns hpc htake => exact hs.take i rest hpc htake
  | takeNothing i p rest hruns hpc htake =>
      obtain ⟨hbefore, -⟩ := Mailbox.take_none htake
      have hsteps := hs.steps (.takeNothing hpc) (hs.idle (by rw [hpc]; rfl))
        fun _ _ hlabel => by cases hlabel
      refine hsteps.pass (passes_after rfl rfl (fun _ _ => ?_) _ _)
      exact hbefore ▸ List.nil_subset _
  | handled i p rest msg hruns hkills =>
      exact hs.pass (passes_after rfl rfl (fun _ _ => List.Subset.refl _) _ _)
  | down i p phase rest hruns hkills hpc =>
      exact ⟨hs.keys, hs.active, hs.down i rest [.returned p .kDown] hheeded⟩
  | call i p phase rest co caller label machine hruns hcode hpc hrequest hstep =>
      refine hs.steps hstep (fun x hactive => ?_) fun x session hlabel => ?_
      · obtain rfl := hs.only hpc hactive
        rw [hrequest] at hactive
        exact hactive
      · subst hlabel
        obtain ⟨caller', hrunning⟩ := hstep.wait_running
        rw [hpc] at hrunning
        cases hrunning
        rw [hrequest]
        exact id
  | newSession | releaseSession => exact ⟨hs.keys, hs.active, hs.answered⟩
  | find i p q phase rest co caller pid hruns hcode hpc hrequest hfind =>
      exact hs.goes hpc id (passes_after rfl rfl (fun _ _ => List.Subset.refl _) _ _) rfl rfl
  | allocate i p q phase rest co session hholds hrequest hfresh =>
      obtain ⟨-, -, -, caller, hpc⟩ := hholds
      exact hs.goes hpc id (.refl _) rfl rfl
  | push i p q phase rest co session content hholds hrequest =>
      obtain ⟨-, -, -, caller, hpc⟩ := hholds
      exact hs.push hpc hheeded (passes_after rfl rfl (fun _ _ => by
        rw [Mailbox.append_messages]
        exact List.subset_append_left _ _) _ _)
  | block i p q phase rest co session machine hholds hrequest hstep =>
      obtain ⟨-, -, -, caller, hpc⟩ := hholds
      exact hs.block hpc hrequest hstep
        (passes_after rfl rfl (fun _ _ => List.Subset.refl _) _ _)
  | unblock i p q phase rest co kept session outcome machine hruns hcode hrequest hkept hstep =>
      exact hs.unblock hstep (passes_after rfl rfl (fun _ _ => List.Subset.refl _) _ _)
  | close i p q phase rest co session hholds hrequest =>
      obtain ⟨-, -, -, caller, hpc⟩ := hholds
      exact hs.goes hpc id (.refl _) rfl rfl
  | release i p q phase rest co hholds hrequest =>
      obtain ⟨-, -, -, caller, hpc⟩ := hholds
      exact hs.goes hpc id (passes_after rfl rfl (fun _ _ => List.Subset.refl _) _ _) rfl rfl

end Steps

/-- The requester sleeps, and its request is in the mailbox of the target. -/
def asked : State Nat Nat (Fin 2) Unit where
  kernel :=
    { sched :=
        { Sched.State.fresh with
          sched := { Sched.Scheduler.fresh with runq := [1] }
          pushed := [0, 1]
          handed := [(0, 0)] }
      registry := ((Registry.empty.reg 0).2.reg 1).2
      proc := fun
        | 0 => { (.fresh 1 : Proc Nat) with mailbox := { Mailbox.empty with wait := true } }
        | 1 => { (.fresh 2 : Proc Nat) with
            refcnt := 3
            mailbox := { Mailbox.empty with write := [⟨1, 1, .value 5⟩] } }
        | _ => .unused
      stack _ := []
      kept := fun
        | 1 => 1
        | _ => 0 }
  machine := fun
    | 0 => { Coroutines.State.fresh with
        co := fun
          | 0 => { Coroutines.Coroutine.create with started := true }
          | _ => .create
        spawnCoroutines := []
        blockSessions := [(1, 0)] }
    | _ => .fresh
  request := fun
    | 0 => fun
      | 0 => .waiting 1 1
      | _ => .away
    | _ => fun _ => .away
  sessions := fun
    | 0 => {1}
    | _ => ∅

/-- The target has answered, its coroutine has ended, and nothing is left of what it waits for. -/
def answered : State Nat Nat (Fin 2) Unit :=
  { asked with
    kernel :=
      { asked.kernel with
        sched :=
          { asked.kernel.sched with
            sched := { Sched.Scheduler.fresh with resumeq := [0] }
            worker := fun
              | 0 => .running 1
              | 1 => .loop
            pushed := [0, 1, 1, 0]
            handed := [(0, 0), (1, 0), (1, 0)] }
        proc := fun
          | 0 => { (.fresh 1 : Proc Nat) with
              refcnt := 2
              mailbox := { Mailbox.empty with write := [⟨2, -1, .value 6⟩] } }
          | 1 => { (.fresh 2 : Proc Nat) with refcnt := 3 }
          | _ => .unused
        stack := fun
          | .inl 0 => [.running 1 .dispatch]
          | _ => [] }
    machine := fun
      | 0 => asked.machine 0
      | 1 => { Coroutines.State.fresh with
          pc := .down
          co := fun
            | 0 => { Coroutines.Coroutine.create with
                result := ⟨.empty, some .coroutineExit⟩
                started := true
                finished := true
                destroyed := 1 }
            | _ => .create
          spawnCoroutines := [] }
      | _ => .fresh }

end Stp.Net
