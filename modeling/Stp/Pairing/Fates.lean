import Stp.Pairing.Machine

/-!
# What becomes of a request

The log of a run tells what has become of each request or yield, named by the pid of its process and
its session: one after the other it is in the mailbox of its target, in the inbox, with a handler,
answered, and taken by the process of the coroutine that made it, which then returns. A process that
is given the pid of an earlier one begins anew. A request is found where its log says that it is,
there alone, and the coroutine waits for it.
-/

namespace Stp.Pairing

open Process
open Server (Key key requests)

variable {P V : Type*}

inductive Fate (P V : Type*) where
  | idle
  /-- In the mailbox of its target. -/
  | pushed (co : Nat) (target : P)
  /-- In the inbox. -/
  | received (co : Nat) (target : P)
  /-- With a handler, or dropped for want of one. -/
  | served (co : Nat) (target : P) (call : Option Nat)
  /-- The response is in the mailbox of the process that waits. -/
  | answered (co : Nat) (content : Content V)
  | woken (co : Nat) (content : Content V)
  /-- The log makes no sense. -/
  | lost

def Label.key : Label P V → Option Key
  | .request key _ _ | .yield key _ | .receive key _ | .serve key _ _ | .answer key _ _ _
  | .abort key _ | .take key _ _ | .resume key _ _ | .unwind key _ => some key
  | .other | .create _ _ | .send _ | .call _ _ | .block _ _ _ | .destroy _ => none

def Label.creates : Label P V → Option ProcessT
  | .create _ pid => some pid
  | _ => none

/-- It is about the request, or the process that will make it is created. -/
def Label.Concerns (request : Key) (label : Label P V) : Prop :=
  label.key = some request ∨ label.creates = some request.1

instance (request : Key) (label : Label P V) : Decidable (label.Concerns request) :=
  inferInstanceAs (Decidable (_ ∨ _))

section Fate

variable [DecidableEq P]

def Fate.move : Fate P V → Label P V → Fate P V
  | _, .create _ _ => .idle
  | .idle, .request _ co target => .pushed co target
  | .idle, .yield _ co => .answered co .empty
  | .pushed co target, .receive _ target' => if target' = target then .received co target else .lost
  | .received co target, .serve _ target' call =>
    if target' = target then .served co target call else .lost
  | .served co target call, .answer _ target' call' content =>
    if target' = target ∧ call.isSome ∧ call' = call then .answered co content else .lost
  | .pushed co target, .abort _ target' | .served co target _, .abort _ target' =>
    if target' = target then .answered co (.exception .abortedRequest) else .lost
  | .answered co content, .take _ _ _ => .woken co content
  | .woken _ _, .resume _ _ _ => .idle
  | _, _ => .lost

/-- What happened to the request in a run. -/
def history (request : Key) (log : List (Label P V)) : List (Label P V) :=
  log.filter fun label => label.Concerns request

/-- What has become of it. -/
def fate (request : Key) (log : List (Label P V)) : Fate P V :=
  (history request log).foldl Fate.move .idle

omit [DecidableEq P] in
theorem history_concat (request : Key) (log : List (Label P V)) (label : Label P V) :
    history request (log ++ [label])
      = if label.Concerns request then history request log ++ [label]
        else history request log := by
  unfold history
  rw [List.filter_append, List.filter_singleton]
  by_cases hconcerns : label.Concerns request <;> simp [hconcerns]

theorem fate_concat (request : Key) (log : List (Label P V)) (label : Label P V) :
    fate request (log ++ [label])
      = if label.Concerns request then (fate request log).move label else fate request log := by
  unfold fate
  rw [history_concat]
  split
  · exact List.foldl_append
  · rfl

theorem Fate.move_creates (fate : Fate P V) {label : Label P V} {pid : ProcessT}
    (hcreates : label.creates = some pid) : fate.move label = .idle := by
  cases label with
  | create => cases fate <;> rfl
  | _ => cases hcreates

end Fate

/-! ### At the process that is asked -/

/-- Where a request is in a process. -/
inductive Spot where
  | nowhere
  | mailbox
  | inbox
  | record (call : Option Nat)
deriving DecidableEq

def Fate.spot [DecidableEq P] (fate : Fate P V) (p : P) : Spot :=
  match fate with
  | .pushed _ target => if target = p then .mailbox else .nowhere
  | .received _ target => if target = p then .inbox else .nowhere
  | .served _ target call => if target = p then .record call else .nowhere
  | _ => .nowhere

/-- There is a record of it. -/
def Spot.Recorded : Spot → Prop
  | .inbox | .record _ => True
  | _ => False

def Life.records (life : Life) (requestsMap : Finset Key) (closing : Option Key) : Finset Key :=
  match life with
  | .running | .down => closing.elim requestsMap requestsMap.erase
  | .aborting rest => rest
  | _ => ∅

/-- The requests that the process, or its destructor, has on record and not begun to answer. -/
def Proc.records (c : Proc V) : Finset Key := c.life.records c.requestsMap c.closing

def Life.pending (life : Life) (unanswered : Finset Nat) : Finset Nat :=
  match life with
  | .running => unanswered
  | _ => ∅

/-- The calls of handlers that may still be answered. -/
def Proc.pending (c : Proc V) : Finset Nat := c.life.pending c.unanswered

structure Serves (c : Proc V) (request : Key) (spot : Spot) : Prop where
  mailbox : (requests c.mailbox.messages).count request = if spot = .mailbox then 1 else 0
  inbox : (c.machine.inbox.map key).count request = if spot = .inbox then 1 else 0
  records : request ∈ c.records ↔ spot.Recorded
  calls : ∀ call ∈ c.pending, c.calls[call]? = some request → spot = .record (some call)

/-- The process has done nothing about the request. -/
structure Leaves (c c' : Proc V) (request : Key) : Prop where
  mailbox : (requests c'.mailbox.messages).count request
    = (requests c.mailbox.messages).count request
  inbox : (c'.machine.inbox.map key).count request = (c.machine.inbox.map key).count request
  records : request ∈ c'.records ↔ request ∈ c.records
  calls : ∀ call ∈ c'.pending, c'.calls[call]? = some request →
    call ∈ c.pending ∧ c.calls[call]? = some request

variable {c c' : Proc V} {request : Key} {spot : Spot}

theorem Serves.leaves (hc : Serves c request spot) (hleaves : Leaves c c' request) :
    Serves c' request spot where
  mailbox := hleaves.mailbox.trans hc.mailbox
  inbox := hleaves.inbox.trans hc.inbox
  records := hleaves.records.trans hc.records
  calls call hcall hrequest := by
    obtain ⟨hcall, hrequest⟩ := hleaves.calls call hcall hrequest
    exact hc.calls call hcall hrequest

theorem Leaves.refl (c : Proc V) (request : Key) : Leaves c c request :=
  ⟨rfl, rfl, Iff.rfl, fun _ hcall hrequest => ⟨hcall, hrequest⟩⟩

theorem Leaves.trans {c'' : Proc V} (h : Leaves c c' request) (h' : Leaves c' c'' request) :
    Leaves c c'' request where
  mailbox := h'.mailbox.trans h.mailbox
  inbox := h'.inbox.trans h.inbox
  records := h'.records.trans h.records
  calls call hcall hrequest := by
    obtain ⟨hcall, hrequest⟩ := h'.calls call hcall hrequest
    exact h.calls call hcall hrequest

/-- Nothing changes that has to do with requests. -/
theorem Leaves.of_eq (c c' : Proc V)
    (hmailbox : requests c'.mailbox.messages = requests c.mailbox.messages)
    (hinbox : c'.machine.inbox = c.machine.inbox) (hrecords : c'.records = c.records)
    (hpending : c'.pending ⊆ c.pending) (hcalls : c'.calls = c.calls) (request : Key) :
    Leaves c c' request where
  mailbox := by rw [hmailbox]
  inbox := by rw [hinbox]
  records := by rw [hrecords]
  calls call hcall hrequest := by
    rw [hcalls] at hrequest
    exact ⟨hpending hcall, hrequest⟩

theorem requests_append_mailbox (mailbox : Mailbox V) (msg : Message V) :
    requests (mailbox.append msg).messages = requests mailbox.messages ++ requests [msg] := by
  rw [Mailbox.append_messages, Server.requests_append]

theorem count_append_mailbox (mailbox : Mailbox V) (msg : Message V) (request : Key) :
    (requests (mailbox.append msg).messages).count request
      = (requests mailbox.messages).count request + (requests [msg]).count request := by
  rw [requests_append_mailbox, List.count_append]

theorem Leaves.append {msg : Message V} (hmsg : request ∉ requests [msg]) :
    Leaves c (c.append msg) request where
  mailbox := by
    change (requests (c.mailbox.append msg).messages).count request = _
    rw [count_append_mailbox, List.count_eq_zero.mpr hmsg, Nat.add_zero]
  inbox := rfl
  records := Iff.rfl
  calls _ hcall hrequest := ⟨hcall, hrequest⟩

theorem Serves.append {msg : Message V} (hc : Serves c request .nowhere)
    (hmsg : requests [msg] = [request]) : Serves (c.append msg) request .mailbox where
  mailbox := by
    change (requests (c.mailbox.append msg).messages).count request = _
    rw [count_append_mailbox, hmsg, hc.mailbox, List.count_singleton_self]
    rfl
  inbox := hc.inbox
  records := hc.records
  calls _ hcall hrequest := by cases hc.calls _ hcall hrequest

/-! ### At the process that asks -/

/-- What the process of the coroutine knows of its request. -/
inductive Ask (V : Type*) where
  | nothing
  | pending (co : Nat)
  | answered (co : Nat) (content : Content V)
  | woken (co : Nat) (content : Content V)

def Fate.ask : Fate P V → Ask V
  | .idle | .lost => .nothing
  | .pushed co _ | .received co _ | .served co _ _ => .pending co
  | .answered co content => .answered co content
  | .woken co content => .woken co content

/-- The coroutine that made the request. -/
def Ask.co : Ask V → Option Nat
  | .nothing => none
  | .pending co | .answered co _ | .woken co _ => some co

/-- What there is to take. -/
def Ask.reply : Ask V → List (Content V)
  | .answered _ content => [content]
  | _ => []

/-- The contents of the responses to a session. -/
def responses (session : SessionT) (messages : List (Message V)) : List (Content V) :=
  (messages.filter fun msg => typeOfMessage msg = .kResponse ∧ -msg.session = session).map
    Message.content

/-- What `block` returns or throws when it is woken with the content. -/
def outcome : Content V → Coroutines.Outcome V
  | .exception e => .error e
  | content => .ok content

/-- The coroutine has been woken, or will be when the response is taken. -/
def Ask.Waits (c : Proc V) (session : SessionT) : Ask V → Prop
  | .nothing => True
  | .pending co | .answered co _ =>
    c.request co = .waiting session → (session, co) ∈ c.machine.blockSessions
  | .woken co content =>
    c.request co = .waiting session ∧ (c.machine.co co).given = some (outcome content)

structure Asks (c : Proc V) (session : SessionT) (ask : Ask V) : Prop where
  mail : responses session c.mailbox.messages = ask.reply
  asker : ∀ co, c.request co = .pushed session ∨ c.request co = .waiting session ↔ ask.co = some co
  allocated : ask.co ≠ none → session ∈ c.sessions
  waits : ask.Waits c session

variable {session : SessionT} {ask : Ask V}

theorem Asks.congr (hc : Asks c session ask)
    (hmail : responses session c'.mailbox.messages = responses session c.mailbox.messages)
    (hrequest : c'.request = c.request) (hsessions : c'.sessions = c.sessions)
    (hblocked : ∀ co, c.request co = .waiting session → (session, co) ∈ c.machine.blockSessions →
      (session, co) ∈ c'.machine.blockSessions)
    (hgiven : ∀ co, c.request co = .waiting session →
      (c'.machine.co co).given = (c.machine.co co).given) : Asks c' session ask where
  mail := hmail.trans hc.mail
  asker := by
    rw [hrequest]
    exact hc.asker
  allocated := by
    rw [hsessions]
    exact hc.allocated
  waits := by
    have hwaits := hc.waits
    cases ask with
    | nothing => trivial
    | pending co | answered co content =>
        intro hwaiting
        rw [hrequest] at hwaiting
        exact hblocked co hwaiting (hwaits hwaiting)
    | woken co content =>
        refine ⟨?_, ?_⟩
        · rw [hrequest]
          exact hwaits.1
        · rw [hgiven co hwaits.1]
          exact hwaits.2

theorem responses_append (session : SessionT) (messages messages' : List (Message V)) :
    responses session (messages ++ messages')
      = responses session messages ++ responses session messages' := by
  simp [responses]

theorem responses_cons (session : SessionT) (msg : Message V) (messages : List (Message V)) :
    responses session (msg :: messages)
      = responses session [msg] ++ responses session messages :=
  responses_append session [msg] messages

theorem responses_of_other {msg : Message V}
    (hmsg : typeOfMessage msg = .kResponse → -msg.session ≠ session) :
    responses session [msg] = [] := by
  unfold responses
  rw [List.filter_eq_nil_iff.mpr, List.map_nil]
  intro other hother
  rw [List.mem_singleton.mp hother]
  simpa using hmsg

theorem responses_of_response {msg : Message V} (htype : typeOfMessage msg = .kResponse) :
    responses (-msg.session) [msg] = [msg.content] := by
  simp [responses, htype]

theorem Asks.append {msg : Message V} (hc : Asks c session ask)
    (hmsg : responses session [msg] = []) : Asks (c.append msg) session ask := by
  refine hc.congr ?_ rfl rfl (fun _ _ => id) fun _ _ => rfl
  change responses session (c.mailbox.append msg).messages = _
  rw [Mailbox.append_messages, responses_append, hmsg, List.append_nil]

/-- The response is pushed. -/
theorem Asks.answer {msg : Message V} {co : Nat} (hc : Asks c session (.pending co))
    (hmsg : responses session [msg] = [msg.content]) :
    Asks (c.append msg) session (.answered co msg.content) where
  mail := by
    change responses session (c.mailbox.append msg).messages = _
    rw [Mailbox.append_messages, responses_append, hmsg, hc.mail]
    rfl
  asker := hc.asker
  allocated := hc.allocated
  waits := hc.waits

theorem answer_given (c : Coroutines.Coroutine V) (content : Content V) :
    (c.answer content).given = some (outcome content) := by
  cases content <;> rfl

end Stp.Pairing
