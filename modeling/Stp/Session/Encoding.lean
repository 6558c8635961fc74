import Stp.Library.Transition
import Stp.Process.Message

/-!
# Sessions and kinds of messages

Who makes messages with which sessions, over all processes: `request` and `fd::wait` allocate a
session, a handler that is given a message may answer it at any later time, wherever its `sender()`
and `session()` have been passed on to, and the poll thread answers the waits it knows of. The table
of handlers does not tell requests from notifications, so either kind is given to a handler that
answers. All that is known of `IdAllocator` is that `NewId` returns a non-zero number not in use.

The fields `origin` and `wait` are not in the program: they say what made a message and which wait
an answer to it is to wake.
-/

namespace Stp.Session

open Process

structure Wait where
  pid : ProcessT
  session : SessionT
deriving DecidableEq, Repr

/-- What made a message: `request()`, `send()` with any session, `yield()`, an answer to a message
that had the given wait, or an answer by the poll thread. -/
inductive Origin where
  | request (wait : Wait)
  | send (wait : Option Wait)
  | yield
  | response (wait : Option Wait)
  | poll (wait : Wait)
deriving DecidableEq, Repr

/-- The wait that a message which is given to a handler was made for. -/
def Origin.wait : Origin → Option Wait
  | .request wait => some wait
  | .send wait => wait
  | .yield | .response _ | .poll _ => none

structure Envelope (V : Type*) where
  target : ProcessT
  msg : Message V
  origin : Origin

/-- What `set_message_info` stores for a handler. -/
structure Info where
  sender : ProcessT
  session : SessionT
  wait : Option Wait

structure State (V : Type*) where
  live : Finset ProcessT
  allocated : ProcessT → Finset SessionT
  flight : List (Envelope V)
  handling : List Info
  polled : List Wait
  emitted : List (Envelope V)

variable {V : Type*}

def State.fresh : State V where
  live := ∅
  allocated _ := ∅
  flight := []
  handling := []
  polled := []
  emitted := []

/-- `push_message`. -/
def State.push (s : State V) (e : Envelope V) : State V :=
  { s with flight := s.flight ++ [e], emitted := s.emitted ++ [e] }

/-- `NewId`. -/
def State.allocate (s : State V) (wait : Wait) : State V :=
  { s with
    allocated :=
      Function.update s.allocated wait.pid (insert wait.session (s.allocated wait.pid)) }

def State.New (s : State V) (wait : Wait) : Prop :=
  wait.session ≠ 0 ∧ wait.session ∉ s.allocated wait.pid

/-- What a receiver does with a message: a response is consumed, anything else reaches a handler. -/
def State.receive (s : State V) (e : Envelope V) : State V :=
  match typeOfMessage e.msg with
  | .kResponse => s
  | .kRequest | .kNotify =>
    { s with handling := s.handling ++ [⟨e.msg.source, e.msg.session, e.origin.wait⟩] }

inductive Step (s : State V) : State V → Prop
  | spawn (pid : ProcessT) (hpid : pid ≠ 0) : Step s { s with live := insert pid s.live }
  | retire (pid : ProcessT) : Step s { s with live := s.live.erase pid }
  | releaseSession (wait : Wait) :
      Step s
        { s with
          allocated :=
            Function.update s.allocated wait.pid ((s.allocated wait.pid).erase wait.session) }
  | request (wait : Wait) (target : ProcessT) (content : Content V) (hnew : s.New wait)
      (hfind : target ∈ s.live) :
      Step s
        ((s.allocate wait).push ⟨target, ⟨wait.pid, wait.session, content⟩, .request wait⟩)
  | send (self target : ProcessT) (session : SessionT) (content : Content V)
      (hfind : target ∈ s.live) :
      Step s
        (s.push ⟨target, ⟨self, session, content⟩,
          .send (if session = 0 then none else some ⟨self, session⟩)⟩)
  | yield (wait : Wait) (hnew : s.New wait) :
      Step s
        ((s.allocate wait).push
          ⟨wait.pid, ⟨0, sessionForResponse wait.session, .empty⟩, .yield⟩)
  | fdWait (wait : Wait) (hnew : s.New wait) :
      Step s { s.allocate wait with polled := wait :: s.polled }
  -- the poll thread, which is no process
  | poll (wait : Wait) (hpolled : wait ∈ s.polled) (hfind : wait.pid ∈ s.live) :
      Step s
        (s.push ⟨wait.pid, ⟨0, sessionForResponse wait.session, .empty⟩, .poll wait⟩)
  | receive (e : Envelope V) (before after : List (Envelope V))
      (hflight : s.flight = before ++ e :: after) :
      Step s ({ s with flight := before ++ after }.receive e)
  | response (info : Info) (self : ProcessT) (content : Content V) (hinfo : info ∈ s.handling)
      (hfind : info.sender ∈ s.live) :
      Step s
        (s.push ⟨info.sender, ⟨self, sessionForResponse info.session, content⟩,
          .response info.wait⟩)
  | abortRequest (info : Info) (self : ProcessT) (hinfo : info ∈ s.handling)
      (hrequest : info.session.toInt32 > 0) (hfind : info.sender ∈ s.live) :
      Step s
        (s.push ⟨info.sender,
          ⟨self, sessionForResponse info.session, .exception .abortedRequest⟩,
          .response info.wait⟩)

def system : Transition.System (State V) Unit where
  init s := s = .fresh
  step s _ s' := Step s s'

/-! ### What an emitted message comes to -/

/-- A message made by `request` is a request with the session of its wait, an answer is a response
that decodes to the session of the wait it is to wake. -/
def Envelope.Kept (e : Envelope V) : Prop :=
  match e.origin with
  | .request wait => typeOfMessage e.msg = .kRequest ∧ e.msg.session = wait.session
  | .response (some wait) | .poll wait =>
    typeOfMessage e.msg = .kResponse ∧ e.target = wait.pid ∧ -e.msg.session = wait.session
  | .response none => typeOfMessage e.msg = .kResponse
  | .send _ | .yield => True

/-- The session of a request is below `2 ^ 31`, the poll thread's at most `2 ^ 31`, and a message
that is answered was made for a wait, which a notification is not. -/
def Origin.Encodable : Origin → Prop
  | .request wait => wait.session.toNat < 2 ^ 31
  | .response wait => wait.isSome
  | .poll wait => wait.session.toNat ≤ 2 ^ 31
  | .send _ | .yield => True

/-- What is true of a message from when it is made. -/
def Envelope.Made (e : Envelope V) : Prop :=
  match e.origin with
  | .request wait =>
    wait.session ≠ 0 ∧ e.msg.source = wait.pid ∧ e.msg.session = wait.session
  | .send (some wait) =>
    wait.session ≠ 0 ∧ e.msg.source = wait.pid ∧ e.msg.session = wait.session
  | .send none => e.msg.session = 0
  | .yield => e.msg.source = 0
  | .response (some wait) =>
    wait.session ≠ 0 ∧ wait.session.toNat < 2 ^ 31 ∧ e.target = wait.pid
      ∧ e.msg.session = sessionForResponse wait.session
  | .response none => e.msg.session = 0
  | .poll wait =>
    wait.session ≠ 0 ∧ e.msg.source = 0 ∧ e.target = wait.pid
      ∧ e.msg.session = sessionForResponse wait.session

/-- What a handler knows of the message it is given: the wait it was made for, or that it is a
notification, or that nobody can be answered. -/
def Info.Given (info : Info) : Prop :=
  match info.wait with
  | some wait => wait.session ≠ 0 ∧ wait.session.toNat < 2 ^ 31
      ∧ info.sender = wait.pid ∧ info.session = wait.session
  | none => info.session = 0 ∨ info.sender = 0

structure Sound (s : State V) : Prop where
  live : ∀ pid ∈ s.live, pid ≠ 0
  flight : ∀ e ∈ s.flight, e.Made
  emitted : ∀ e ∈ s.emitted, e.Made
  handling : ∀ info ∈ s.handling, info.Given
  polled : ∀ wait ∈ s.polled, wait.session ≠ 0

theorem sound_fresh : Sound (State.fresh : State V) :=
  ⟨nofun, nofun, nofun, nofun, nofun⟩

theorem Sound.push {s : State V} (hs : Sound s) {e : Envelope V} (he : e.Made) :
    Sound (s.push e) := by
  refine ⟨hs.live, fun e' he' => ?_, fun e' he' => ?_, hs.handling, hs.polled⟩
  · obtain hold | rfl := List.mem_append.mp he' |>.imp_right List.mem_singleton.mp
    · exact hs.flight e' hold
    · exact he
  · obtain hold | rfl := List.mem_append.mp he' |>.imp_right List.mem_singleton.mp
    · exact hs.emitted e' hold
    · exact he

theorem Sound.allocate {s : State V} (hs : Sound s) (wait : Wait) : Sound (s.allocate wait) :=
  ⟨hs.live, hs.flight, hs.emitted, hs.handling, hs.polled⟩

/-- A message that is not a response is given to its handler as it was made. -/
theorem Envelope.Made.given {e : Envelope V} (he : e.Made)
    (htype : typeOfMessage e.msg ≠ .kResponse) :
    Info.Given ⟨e.msg.source, e.msg.session, e.origin.wait⟩ := by
  obtain ⟨target, msg, origin⟩ := e
  have hsession : msg.session.toNat < 2 ^ 31 := by
    rw [Ne, typeOfMessage_eq_kResponse] at htype
    exact Nat.not_le.mp htype
  cases origin with
  | request wait =>
      obtain ⟨hzero, hsource, heq⟩ := he
      exact ⟨hzero, heq ▸ hsession, hsource, heq⟩
  | send wait =>
      cases wait with
      | none => exact Or.inl he
      | some wait =>
          obtain ⟨hzero, hsource, heq⟩ := he
          exact ⟨hzero, heq ▸ hsession, hsource, heq⟩
  | yield => exact Or.inr he
  | response wait =>
      cases wait with
      | none => exact Or.inl he
      | some wait =>
          obtain ⟨hzero, hlt, -, heq⟩ := he
          change msg.session = _ at heq
          rw [heq, sessionForResponse_toNat hzero] at hsession
          omega
  | poll wait => exact Or.inr he.2.1

theorem Sound.receive {s : State V} (hs : Sound s) {e : Envelope V} (he : e.Made) :
    Sound (s.receive e) := by
  have hgiven := he.given
  unfold State.receive
  split
  · exact hs
  all_goals
    rename_i htype
    refine ⟨hs.live, hs.flight, hs.emitted, fun info hinfo => ?_, hs.polled⟩
    obtain hold | rfl := List.mem_append.mp hinfo |>.imp_right List.mem_singleton.mp
    · exact hs.handling info hold
    · exact hgiven (by rw [htype]; decide)

theorem Info.Given.made {info : Info} (hinfo : info.Given) (hsender : info.sender ≠ 0)
    (self : ProcessT) (content : Content V) :
    Envelope.Made ⟨info.sender, ⟨self, sessionForResponse info.session, content⟩,
      .response info.wait⟩ := by
  obtain ⟨sender, session, wait⟩ := info
  cases wait with
  | none =>
      obtain hzero | hnobody := hinfo
      · change sessionForResponse session = 0
        rw [show session = 0 from hzero]
        rfl
      · exact absurd hnobody hsender
  | some wait =>
      obtain ⟨hzero, hlt, hsource, heq⟩ := hinfo
      exact ⟨hzero, hlt, hsource, congrArg sessionForResponse heq⟩

theorem Step.sound {s s' : State V} (hstep : Step s s') (hs : Sound s) : Sound s' := by
  cases hstep with
  | spawn pid hpid =>
      refine ⟨fun other hother => ?_, hs.flight, hs.emitted, hs.handling, hs.polled⟩
      obtain rfl | hold := Finset.mem_insert.mp hother
      · exact hpid
      · exact hs.live other hold
  | retire pid =>
      exact ⟨fun other hother => hs.live other (Finset.mem_of_mem_erase hother), hs.flight,
        hs.emitted, hs.handling, hs.polled⟩
  | releaseSession wait => exact ⟨hs.live, hs.flight, hs.emitted, hs.handling, hs.polled⟩
  | request wait target content hnew hfind =>
      exact (hs.allocate wait).push ⟨hnew.1, rfl, rfl⟩
  | send self target session content hfind =>
      refine hs.push ?_
      by_cases hzero : session = 0
      · rw [if_pos hzero]
        exact hzero
      · rw [if_neg hzero]
        exact ⟨hzero, rfl, rfl⟩
  | yield wait hnew => exact (hs.allocate wait).push rfl
  | fdWait wait hnew =>
      refine ⟨hs.live, hs.flight, hs.emitted, hs.handling, fun other hother => ?_⟩
      obtain rfl | hold := List.mem_cons.mp hother
      · exact hnew.1
      · exact hs.polled other hold
  | poll wait hpolled hfind => exact hs.push ⟨hs.polled wait hpolled, rfl, rfl, rfl⟩
  | receive e before after hflight =>
      have hmade : ∀ e' ∈ before ++ e :: after, e'.Made := hflight ▸ hs.flight
      have hrest : Sound { s with flight := before ++ after } := by
        refine ⟨hs.live, fun e' he' => ?_, hs.emitted, hs.handling, hs.polled⟩
        obtain hbefore | hafter := List.mem_append.mp he'
        · exact hmade e' (List.mem_append_left _ hbefore)
        · exact hmade e' (List.mem_append_right _ (List.mem_cons_of_mem _ hafter))
      exact hrest.receive (hmade e (List.mem_append_right _ List.mem_cons_self))
  | response info self content hinfo hfind =>
      exact hs.push ((hs.handling info hinfo).made (hs.live _ hfind) self content)
  | abortRequest info self hinfo hrequest hfind =>
      exact hs.push ((hs.handling info hinfo).made (hs.live _ hfind) self _)

theorem sound_of_reachable {s : State V} (hs : system.Reachable s) : Sound s := by
  refine hs.invariant ?_ ?_
  · rintro s rfl
    exact sound_fresh
  · intro s label s' _ hs hstep
    exact Step.sound hstep hs

/-! ### Kinds and sessions -/

/-- An answer to a session is a response, and decodes to it, if the session is at most `2 ^ 31`. -/
theorem response_iff {msg : Message V} {session : SessionT} (hzero : session ≠ 0)
    (hmsg : msg.session = sessionForResponse session) :
    typeOfMessage msg = .kResponse ∧ -msg.session = session ↔ session.toNat ≤ 2 ^ 31 := by
  have hlt := session.toNat_lt
  have hneg : -msg.session = session := by
    rw [hmsg, sessionForResponse]
    exact UInt32.neg_neg
  rw [and_iff_left hneg, typeOfMessage_eq_kResponse, hmsg, sessionForResponse_toNat hzero]
  omega

theorem Envelope.Made.kept_iff_encodable {e : Envelope V} (he : e.Made) :
    e.Kept ↔ e.origin.Encodable := by
  obtain ⟨target, msg, origin⟩ := e
  cases origin with
  | request wait =>
      obtain ⟨hzero, -, heq⟩ := he
      change msg.session = wait.session at heq
      have hpos : 0 < wait.session.toNat :=
        Nat.pos_of_ne_zero fun h => hzero (UInt32.toNat_inj.mp h)
      simp only [Envelope.Kept, Origin.Encodable, typeOfMessage_eq_kRequest, heq, hpos, true_and,
        and_true]
  | send wait => exact Iff.rfl
  | yield => exact Iff.rfl
  | response wait =>
      cases wait with
      | none =>
          have hnotify : typeOfMessage msg ≠ .kResponse := by
            rw [Ne, typeOfMessage_eq_kResponse, show msg.session = 0 from he]
            decide
          exact ⟨fun h => absurd h hnotify, fun h => absurd h Bool.false_ne_true⟩
      | some wait =>
          obtain ⟨hzero, hlt, htarget, heq⟩ := he
          obtain ⟨htype, hsession⟩ := (response_iff hzero heq).mpr (Nat.le_of_lt hlt)
          exact ⟨fun _ => rfl, fun _ => ⟨htype, htarget, hsession⟩⟩
  | poll wait =>
      obtain ⟨hzero, -, htarget, heq⟩ := he
      have hiff := response_iff hzero heq
      exact ⟨fun ⟨htype, _, hsession⟩ => hiff.mp ⟨htype, hsession⟩,
        fun hle => ⟨(hiff.mpr hle).1, htarget, (hiff.mpr hle).2⟩⟩

/-- **Kinds and sessions.** Of the messages emitted in any run, those made by `request` are requests
with their session just when it is below `2 ^ 31`; an answer to a message that was made for a wait is
always a response that decodes to its session, and one by the poll thread just when the session is at
most `2 ^ 31`; an answer to a notification never is a response. -/
theorem kept_iff {s : State V} (hs : system.Reachable s) {e : Envelope V} (he : e ∈ s.emitted) :
    e.Kept ↔ e.origin.Encodable :=
  ((sound_of_reachable hs).emitted e he).kept_iff_encodable

/-- Process `1` makes a request of process `2` with session `5`, which a handler answers, and waits
for a file with session `6`, which the poll thread answers. -/
theorem kept_iff_answered :
    ∃ s : State Nat, system.Reachable s
      ∧ (∃ e ∈ s.emitted, e.origin = .request ⟨1, 5⟩ ∧ e.Kept)
      ∧ (∃ e ∈ s.emitted, e.origin = .response (some ⟨1, 5⟩) ∧ e.Kept)
      ∧ ∃ e ∈ s.emitted, e.origin = .poll ⟨1, 6⟩ ∧ e.Kept := by
  have hfresh : system.Reachable (State.fresh : State Nat) := .of_init rfl
  have h1 := hfresh.unlabelled (Step.spawn 1 (by decide))
  have h2 := h1.unlabelled (Step.spawn 2 (by decide))
  have h3 := h2.unlabelled (Step.request ⟨1, 5⟩ 2 .empty ⟨by decide, by decide⟩ (by decide))
  have h4 := h3.unlabelled (Step.receive _ [] [] rfl)
  have h5 := h4.unlabelled
    (Step.response ⟨1, 5, some ⟨1, 5⟩⟩ 2 .empty (List.mem_singleton_self _) (by decide))
  have h6 := h5.unlabelled (Step.fdWait ⟨1, 6⟩ ⟨by decide, by decide⟩)
  have h7 := h6.unlabelled (Step.poll ⟨1, 6⟩ (List.mem_singleton_self _) (by decide))
  refine ⟨_, h7, ⟨_, List.mem_cons_self, rfl, ?_⟩,
    ⟨_, List.mem_cons_of_mem _ List.mem_cons_self, rfl, ?_⟩,
    ⟨_, List.mem_cons_of_mem _ (List.mem_cons_of_mem _ List.mem_cons_self), rfl, ?_⟩⟩
  · refine (kept_iff h7 List.mem_cons_self).mpr ?_
    exact (by decide : (5 : SessionT).toNat < 2 ^ 31)
  · exact (kept_iff h7 (List.mem_cons_of_mem _ List.mem_cons_self)).mpr rfl
  · refine (kept_iff h7 (List.mem_cons_of_mem _ (List.mem_cons_of_mem _ List.mem_cons_self))).mpr ?_
    exact (by decide : (6 : SessionT).toNat ≤ 2 ^ 31)

/-- A notification of process `1` is answered by the handler of process `2`, and the answer is a
notification; a request with session `2 ^ 31` is a response. -/
theorem session_misread :
    (∃ s : State Nat, system.Reachable s ∧ ∃ e ∈ s.emitted, e.origin = .response none
        ∧ typeOfMessage e.msg = .kNotify ∧ ¬ e.Kept)
      ∧ ∃ s : State Nat, system.Reachable s ∧ ∃ e ∈ s.emitted,
        e.origin = .request ⟨1, 2147483648⟩ ∧ typeOfMessage e.msg = .kResponse ∧ ¬ e.Kept := by
  have hfresh : system.Reachable (State.fresh : State Nat) := .of_init rfl
  have h1 := hfresh.unlabelled (Step.spawn 1 (by decide))
  have h2 := h1.unlabelled (Step.spawn 2 (by decide))
  constructor
  · have h3 := h2.unlabelled (Step.send 1 2 0 (.value 7) (by decide))
    have h4 := h3.unlabelled (Step.receive _ [] [] rfl)
    have h5 := h4.unlabelled
      (Step.response ⟨1, 0, none⟩ 2 .empty (List.mem_singleton_self _) (by decide))
    exact ⟨_, h5, ⟨1, ⟨2, 0, .empty⟩, .response none⟩, List.mem_cons_of_mem _ List.mem_cons_self, rfl,
      by decide, fun h => absurd (show typeOfMessage _ = .kResponse from h) (by decide)⟩
  · have h3 := h2.unlabelled
      (Step.request ⟨1, 2147483648⟩ 2 .empty ⟨by decide, by decide⟩ (by decide))
    exact ⟨_, h3, _, List.mem_singleton_self _, rfl, by decide, fun h => absurd h.1 (by decide)⟩

end Stp.Session
