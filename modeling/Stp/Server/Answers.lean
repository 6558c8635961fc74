import Stp.Server.Machine

/-!
# How often a request is answered

A request is in one place at any time, so the requests pushed are those in the mailbox, those in the
inbox, those that left the inbox unanswered, and those answered. The destructor answers once for each
record, and once more for each request that it finds in the inbox or in the mailbox. The answers are
as many as the requests, then, if and only if the record of the server stands for the requests that
left its inbox unanswered. It does not for a request still in the inbox, which has a record as well,
nor for one that somebody else has answered, whose record is never closed.
-/

namespace Stp.Server

open Process

variable {V : Type*}

/-- How often the server has a record of a request: once, or not at all. -/
def records (map : Finset Key) (request : Key) : Nat := if request ∈ map then 1 else 0

/-- The records that the destructor has yet to abort. -/
def State.due (s : State V) : Finset Key :=
  match s.pc with
  | .running | .exiting | .down => s.requestsMap
  | .aborting rest => rest
  | _ => ∅

/-- Requests that left the inbox and that user code has not answered. -/
def State.unanswered (s : State V) (request : Key) : Nat :=
  s.handed.count request + s.dropped.count request

/-- All answers to requests with this source and session. -/
def State.answered (s : State V) (request : Key) : Nat := (s.answers.map Prod.fst).count request

theorem requests_append (messages messages' : List (Message V)) :
    requests (messages ++ messages') = requests messages ++ requests messages' := by
  simp [requests]

theorem requests_cons (msg : Message V) (messages : List (Message V)) :
    requests (msg :: messages) = requests [msg] ++ requests messages :=
  requests_append [msg] messages

theorem records_insert (map : Finset Key) (request x : Key) :
    records (insert request map) x = if x = request then 1 else records map x := by
  unfold records
  by_cases hx : x = request <;> simp [hx]

theorem records_erase (map : Finset Key) (request x : Key) :
    records (map.erase request) x = if x = request then 0 else records map x := by
  unfold records
  by_cases hx : x = request <;> simp [hx]

theorem count_answer (requests : List Key) (answer answer' : Answer) (x : Key) :
    (requests.map fun request => (request, answer)).count (x, answer')
      = if answer = answer' then requests.count x else 0 := by
  induction requests with
  | nil => simp
  | cons request requests ih =>
      rw [List.map_cons, List.count_cons, ih, List.count_cons]
      by_cases hanswer : answer = answer' <;> simp [hanswer]

theorem count_erase {requests : List Key} {request : Key} (hmem : request ∈ requests) (x : Key) :
    (requests.erase request).count x + [request].count x = requests.count x := by
  have hperm := (List.perm_cons_erase hmem).count_eq x
  simp only [List.count_cons, List.count_nil] at *
  omega

/-! ### The books -/

/-- What the loops of the destructor have emptied. -/
def State.Emptied (s : State V) : Prop :=
  match s.pc with
  | .drainingMailbox => s.inbox = []
  | .destroyed => s.inbox = [] ∧ s.mailbox.messages = []
  | _ => True

structure Books (s : State V) : Prop where
  placed : ∀ x, s.pushed.count x = (requests s.mailbox.messages).count x
    + (requests s.inbox).count x + s.unanswered x + s.answers.count (x, .self)
    + s.answers.count (x, .other) + s.answers.count (x, .inbox) + s.answers.count (x, .mailbox)
  recorded : ∀ x, s.answers.count (x, .record) + records s.due x = records s.requestsMap x
  intact : s.pc.Intact → ∀ x, s.answers.count (x, .inbox) = 0
  abandoned : ¬ s.pc.Intact → ∀ x,
    s.answers.count (x, .inbox) + (requests s.inbox).count x = s.abandoned.count x
  -- for a request whose source and session no other request has
  single : ∀ x, s.pushed.count x ≤ 1 → x ∉ s.foreign →
    records s.requestsMap x = (requests s.inbox).count x + s.unanswered x
      + s.answers.count (x, .other) + s.answers.count (x, .inbox)
  emptied : s.Emptied

theorem State.count_answered (s : State V) (x : Key) :
    s.answered x = s.answers.count (x, .self) + s.answers.count (x, .other)
      + s.answers.count (x, .record) + s.answers.count (x, .inbox)
      + s.answers.count (x, .mailbox) := by
  unfold State.answered
  induction s.answers with
  | nil => rfl
  | cons answer answers ih =>
      obtain ⟨request, kind⟩ := answer
      simp only [List.map_cons, List.count_cons, ih]
      cases kind <;> by_cases hx : request = x <;> simp [hx] <;> omega

theorem requests_of_request {msg : Message V} (hmsg : typeOfMessage msg = .kRequest) :
    requests [msg] = [key msg] := by
  simp [requests, hmsg]

theorem requests_of_other {msg : Message V} (hmsg : typeOfMessage msg ≠ .kRequest) :
    requests [msg] = [] := by
  simp [requests, hmsg]

/-- What taking a message changes. -/
structure State.Received (s : State V) (msg : Message V) (s' : State V) : Prop where
  mailbox : s'.mailbox = s.mailbox
  inbox : requests s'.inbox = requests s.inbox ++ requests [msg]
  map : ∀ x, records s'.requestsMap x = if x ∈ requests [msg] then 1 else records s.requestsMap x
  pc : s'.pc.UserCode
  pushed : s'.pushed = s.pushed
  handed : s'.handed = s.handed
  dropped : s'.dropped = s.dropped
  foreign : s'.foreign = s.foreign
  answers : s'.answers = s.answers

theorem State.received (s : State V) (msg : Message V) (hpc : s.pc.UserCode) :
    s.Received msg (s.receive msg) := by
  unfold State.receive
  split
  · next hmsg =>
      refine ⟨rfl, requests_append _ _, fun x => ?_, hpc, rfl, rfl, rfl, rfl, rfl⟩
      rw [requests_of_request hmsg]
      simp only [List.mem_singleton]
      exact records_insert _ _ _
  · next hmsg =>
      have hnone : requests [msg] = [] := requests_of_other (by rw [hmsg]; exact nofun)
      refine ⟨rfl, ?_, fun x => ?_, hpc, rfl, rfl, rfl, rfl, rfl⟩ <;> rw [hnone]
      · exact (List.append_nil _).symm
      · exact (if_neg List.not_mem_nil).symm
  · next hmsg =>
      have hnone : requests [msg] = [] := requests_of_other (by rw [hmsg]; exact nofun)
      split
      · refine ⟨rfl, ?_, fun x => ?_, trivial, rfl, rfl, rfl, rfl, rfl⟩ <;> rw [hnone]
        · exact (List.append_nil _).symm
        · exact (if_neg List.not_mem_nil).symm
      · refine ⟨rfl, requests_append _ _, fun x => ?_, hpc, rfl, rfl, rfl, rfl, rfl⟩
        rw [hnone]
        exact (if_neg List.not_mem_nil).symm

theorem State.received_taken (s : State V) (msg : Message V) (hpc : s.pc = .running) :
    State.Received { s with mailbox := s.mailbox.take.2 } msg
      ({ s with mailbox := s.mailbox.take.2 }.receive msg) := by
  refine State.received _ msg ?_
  rw [hpc]
  trivial

theorem Pc.UserCode.intact {pc : Pc} (hpc : pc.UserCode) : pc.Intact := by
  cases pc <;> trivial

theorem State.due_intact {s : State V} (hpc : s.pc.Intact) : s.due = s.requestsMap := by
  unfold State.due
  cases h : s.pc <;> rw [h] at hpc <;> first | rfl | exact hpc.elim

theorem taken_count {mailbox : Mailbox V} {msg : Message V} (htake : mailbox.take.1 = some msg)
    (x : Key) : (requests mailbox.messages).count x
      = (requests [msg]).count x + (requests mailbox.take.2.messages).count x := by
  rw [Mailbox.take_some htake, requests_cons, List.count_append]

theorem Step.placed {s s' : State V} (hstep : Step s s') (hs : Books s) (x : Key) :
    s'.pushed.count x = (requests s'.mailbox.messages).count x
      + (requests s'.inbox).count x + s'.unanswered x + s'.answers.count (x, .self)
      + s'.answers.count (x, .other) + s'.answers.count (x, .inbox)
      + s'.answers.count (x, .mailbox) := by
  have hbefore := hs.placed x
  cases hstep with
  | exchange | exit | goDown | respondForeign | destroy | recordsDone | inboxDone => exact hbefore
  | push msg =>
      simp only [Mailbox.append_messages, requests_append, List.count_append] at *
      simp only [State.unanswered] at *
      omega
  | respondOther request hhanded =>
      have hcount := count_erase hhanded x
      simp only [State.answer, State.unanswered, List.count_append, count_answer, reduceCtorEq,
        if_true, if_false] at *
      omega
  | take msg hpc htake =>
      have hreceived := s.received_taken msg hpc
      have htaken := taken_count htake x
      simp only [State.unanswered] at hbefore
      simp only [State.unanswered, hreceived.mailbox, hreceived.inbox, hreceived.pushed,
        hreceived.handed, hreceived.dropped, hreceived.answers, List.count_append]
      omega
  | takeNothing hpc htake =>
      obtain ⟨hempty, hempty'⟩ := Mailbox.take_none htake
      simp only [hempty']
      rw [hempty] at hbefore
      exact hbefore
  | serve msg rest hpc hinbox =>
      rw [hinbox, requests_cons] at hbefore
      simp only [State.unanswered, List.count_append] at *
      omega
  | drop msg rest hpc hinbox =>
      rw [hinbox, requests_cons] at hbefore
      simp only [State.unanswered, List.count_append] at *
      omega
  | respond request hpc hhanded =>
      have hcount := count_erase hhanded x
      simp only [State.response, State.closeRequest, State.answer, State.unanswered,
        List.count_append, count_answer, reduceCtorEq,
        if_true, if_false] at *
      omega
  | abortRecord request rest hpc hrecord =>
      simp only [State.answer, State.unanswered, List.count_append, count_answer, reduceCtorEq,
        if_false] at *
      omega
  | drainInbox msg rest hpc hinbox =>
      rw [hinbox, requests_cons] at hbefore
      simp only [State.answer, State.unanswered, List.count_append, count_answer, reduceCtorEq,
        if_true, if_false] at *
      omega
  | drainMailbox msg hpc htake =>
      have htaken := taken_count htake x
      simp only [State.answer, State.unanswered, List.count_append, count_answer, reduceCtorEq,
        if_true, if_false] at *
      omega
  | mailboxDone hpc htake =>
      obtain ⟨hempty, hempty'⟩ := Mailbox.take_none htake
      simp only [hempty']
      rw [hempty] at hbefore
      exact hbefore

theorem Step.recorded {s s' : State V} (hstep : Step s s') (hs : Books s) (x : Key) :
    s'.answers.count (x, .record) + records s'.due x = records s'.requestsMap x := by
  have hbefore := hs.recorded x
  cases hstep with
  | push | exchange | takeNothing | serve | drop => exact hbefore
  | respondOther request hhanded =>
      simp only [State.answer, List.count_append, count_answer, reduceCtorEq, if_false]
      exact hbefore
  | take msg hpc htake =>
      have hreceived := s.received_taken msg hpc
      rw [State.due_intact (by rw [hpc]; trivial)] at hbefore
      rw [State.due_intact hreceived.pc.intact, hreceived.answers]
      have hnone : s.answers.count (x, .record) = 0 := by omega
      simp only [hnone, Nat.zero_add]
  | exit hpc =>
      rw [State.due_intact (by rw [hpc]; trivial)] at hbefore
      exact hbefore
  | goDown hpc =>
      rw [State.due_intact hpc.intact] at hbefore
      exact hbefore
  | respond request hpc hhanded =>
      rw [State.due_intact hpc.intact] at hbefore
      rw [State.due_intact (s := s.response request) hpc.intact]
      simp only [State.response, State.closeRequest, State.answer, List.count_append, count_answer,
        reduceCtorEq, if_false]
      omega
  | respondForeign request hpc =>
      rw [State.due_intact hpc.intact] at hbefore
      rw [State.due_intact (s := { s.closeRequest request with foreign := _ }) hpc.intact]
      simp only [State.closeRequest]
      omega
  | destroy hpc =>
      rw [State.due_intact (by rw [hpc]; trivial)] at hbefore
      exact hbefore
  | abortRecord request rest hpc hrecord =>
      simp only [State.due, hpc] at hbefore
      simp only [State.due, State.answer, List.count_append, count_answer, if_true, records_erase,
        List.count_cons, List.count_nil]
      by_cases hx : x = request
      · subst hx
        have hone : records rest x = 1 := if_pos hrecord
        simp
        omega
      · simp [hx, Ne.symm hx]
        omega
  | recordsDone hpc =>
      simp only [State.due, hpc] at hbefore
      exact hbefore
  | drainInbox msg rest hpc hinbox =>
      simp only [State.answer, List.count_append, count_answer, reduceCtorEq, if_false]
      exact hbefore
  | drainMailbox msg hpc htake =>
      simp only [State.answer, List.count_append, count_answer, reduceCtorEq, if_false]
      exact hbefore
  | inboxDone hpc | mailboxDone hpc =>
      simp only [State.due, hpc] at hbefore
      exact hbefore

theorem Step.intact {s s' : State V} (hstep : Step s s') (hs : Books s) (hpc' : s'.pc.Intact)
    (x : Key) : s'.answers.count (x, .inbox) = 0 := by
  have hbefore := fun hpc => hs.intact hpc x
  cases hstep with
  | push | exchange | takeNothing | serve | drop | respondForeign => exact hbefore hpc'
  | exit hpc => exact hbefore (by rw [hpc]; trivial)
  | goDown hpc => exact hbefore hpc.intact
  | respondOther request hhanded =>
      simp only [State.answer, List.count_append, count_answer, reduceCtorEq, if_false]
      exact hbefore hpc'
  | respond request hpc hhanded =>
      simp only [State.response, State.closeRequest, State.answer, List.count_append, count_answer,
        reduceCtorEq, if_false]
      exact hbefore hpc'
  | take msg hpc htake =>
      have hreceived := s.received_taken msg hpc
      rw [hreceived.answers]
      exact hbefore (by rw [hpc]; trivial)
  | destroy | abortRecord | recordsDone | inboxDone | mailboxDone => exact hpc'.elim
  | drainInbox msg rest hpc hinbox =>
      simp only [State.answer, hpc] at hpc'
      exact hpc'.elim
  | drainMailbox msg hpc htake =>
      simp only [State.answer, hpc] at hpc'
      exact hpc'.elim

theorem Step.abandoned {s s' : State V} (hstep : Step s s') (hs : Books s) (hpc' : ¬ s'.pc.Intact)
    (x : Key) :
    s'.answers.count (x, .inbox) + (requests s'.inbox).count x = s'.abandoned.count x := by
  have hbefore := fun hpc => hs.abandoned hpc x
  cases hstep with
  | push msg hpc | exchange hpc => exact absurd hpc hpc'
  | takeNothing hpc => exact absurd (by rw [hpc]; trivial) hpc'
  | serve msg rest hpc | drop msg rest hpc | respondForeign request hpc | respond request hpc =>
      exact absurd hpc.intact hpc'
  | take msg hpc htake =>
      have hreceived := s.received_taken msg hpc
      exact absurd hreceived.pc.intact hpc'
  | exit | goDown => exact absurd trivial hpc'
  | respondOther request hhanded =>
      simp only [State.answer, List.count_append, count_answer, reduceCtorEq, if_false]
      exact hbefore hpc'
  | destroy hpc =>
      simp only [hs.intact (by rw [hpc]; trivial) x]
      exact Nat.zero_add _
  | abortRecord request rest hpc hrecord =>
      simp only [State.answer, List.count_append, count_answer, reduceCtorEq, if_false]
      exact hbefore (by rw [hpc]; exact id)
  | recordsDone hpc | inboxDone hpc | mailboxDone hpc => exact hbefore (by rw [hpc]; exact id)
  | drainInbox msg rest hpc hinbox =>
      have hbefore := hbefore (by rw [hpc]; exact id)
      rw [hinbox, requests_cons] at hbefore
      simp only [State.answer, List.count_append, count_answer, if_true] at *
      omega
  | drainMailbox msg hpc htake =>
      simp only [State.answer, List.count_append, count_answer, reduceCtorEq, if_false]
      exact hbefore (by rw [hpc]; exact id)

theorem Step.single {s s' : State V} (hstep : Step s s') (hs : Books s) {x : Key}
    (hpushed : s'.pushed.count x ≤ 1) (hforeign : x ∉ s'.foreign) :
    records s'.requestsMap x = (requests s'.inbox).count x + s'.unanswered x
      + s'.answers.count (x, .other) + s'.answers.count (x, .inbox) := by
  have hbefore := hs.single x
  have hplaced := hs.placed x
  cases hstep with
  | exchange | takeNothing | exit | goDown | destroy | recordsDone | inboxDone | mailboxDone =>
      exact hbefore hpushed hforeign
  | push msg =>
      simp only [List.count_append] at hpushed
      exact hbefore (by omega) hforeign
  | respondOther request hhanded =>
      have hbefore := hbefore hpushed hforeign
      have hcount := count_erase hhanded x
      simp only [State.answer, State.unanswered, List.count_append, count_answer, reduceCtorEq,
        if_true, if_false] at *
      omega
  | take msg hpc htake =>
      have hreceived := s.received_taken msg hpc
      have htaken := taken_count htake x
      simp only [State.unanswered, hreceived.inbox, hreceived.pushed, hreceived.handed,
        hreceived.dropped, hreceived.answers, hreceived.foreign, hreceived.map,
        List.count_append] at *
      have hbefore := hbefore hpushed hforeign
      split
      · next hmem =>
          have := List.count_pos_iff.mpr hmem
          omega
      · next hmem =>
          have := List.count_eq_zero.mpr hmem
          omega
  | serve msg rest hpc hinbox | drop msg rest hpc hinbox =>
      have hbefore := hbefore hpushed hforeign
      rw [hinbox, requests_cons] at hbefore
      simp only [State.unanswered, List.count_append] at *
      omega
  | respond request hpc hhanded =>
      have hbefore := hbefore hpushed hforeign
      have hcount := count_erase hhanded x
      simp only [State.response, State.closeRequest, State.answer, State.unanswered,
        List.count_append, count_answer, reduceCtorEq, if_false, records_erase] at *
      by_cases hx : x = request
      · subst hx
        simp only [List.count_cons_self, List.count_nil, if_true] at *
        omega
      · simp only [List.count_cons_of_ne (Ne.symm hx), List.count_nil, if_neg hx] at *
        omega
  | respondForeign request hpc =>
      have hx : x ≠ request := by
        rintro rfl
        exact hforeign (List.mem_append_right _ (List.mem_singleton_self x))
      have hbefore := hbefore hpushed fun hmem => hforeign (List.mem_append_left _ hmem)
      simp only [State.closeRequest, records_erase, if_neg hx]
      exact hbefore
  | abortRecord request rest hpc hrecord =>
      simp only [State.answer, State.unanswered, List.count_append, count_answer, reduceCtorEq,
        if_false] at *
      exact hbefore hpushed hforeign
  | drainInbox msg rest hpc hinbox =>
      have hbefore := hbefore hpushed hforeign
      rw [hinbox, requests_cons] at hbefore
      simp only [State.answer, State.unanswered, List.count_append, count_answer, reduceCtorEq,
        if_true, if_false] at *
      omega
  | drainMailbox msg hpc htake =>
      simp only [State.answer, State.unanswered, List.count_append, count_answer, reduceCtorEq,
        if_false] at *
      exact hbefore hpushed hforeign

theorem State.emptied_intact {s : State V} (hpc : s.pc.Intact) : s.Emptied := by
  unfold State.Emptied
  cases h : s.pc <;> rw [h] at hpc <;> trivial

theorem Step.emptied {s s' : State V} (hstep : Step s s') (hs : s.Emptied) : s'.Emptied := by
  cases hstep with
  | push msg hpc | exchange hpc => exact State.emptied_intact hpc
  | takeNothing hpc => exact State.emptied_intact (by rw [hpc]; trivial)
  | respondOther => exact hs
  | serve msg rest hpc | drop msg rest hpc | respond request hpc | respondForeign request hpc =>
      exact State.emptied_intact hpc.intact
  | take msg hpc htake =>
      exact State.emptied_intact (State.received _ msg (by rw [hpc]; trivial)).pc.intact
  | exit | goDown | destroy | abortRecord | recordsDone => trivial
  | drainInbox msg rest hpc hinbox =>
      simp only [State.Emptied, State.answer, hpc]
  | inboxDone hpc hinbox => exact hinbox
  | drainMailbox msg hpc htake =>
      simp only [State.Emptied, State.answer, hpc] at *
      exact hs
  | mailboxDone hpc htake =>
      simp only [State.Emptied, hpc] at *
      exact ⟨hs, (Mailbox.take_none htake).2⟩

theorem Step.books {s s' : State V} (hstep : Step s s') (hs : Books s) : Books s' where
  placed := hstep.placed hs
  recorded := hstep.recorded hs
  intact := hstep.intact hs
  abandoned := hstep.abandoned hs
  single _ := hstep.single hs
  emptied := hstep.emptied hs.emptied

theorem books_fresh : Books (State.fresh : State V) where
  placed _ := rfl
  recorded _ := rfl
  intact _ _ := rfl
  abandoned hpc := absurd trivial hpc
  single _ _ _ := rfl
  emptied := trivial

theorem books_of_reachable {s : State V} (hs : system.Reachable s) : Books s := by
  refine Transition.System.Reachable.invariant ?_ ?_ hs
  · rintro s rfl
    exact books_fresh
  · intro s _ s' _ hs hstep
    exact hstep.books hs

/-- **Answers of a server.** When its destructor is done, a request pushed to it has been answered
as often as it was pushed if and only if the server's record of it stands for one request, that left
the inbox and has not been answered. For a request whose source and session no other request has,
and for which the process answers no other server's request, this means that the request was not in
the inbox when the destructor began and was answered by nobody else. -/
theorem answered_once_iff {s : State V} (hs : system.Reachable s) (hpc : s.pc = .destroyed)
    (request : Key) :
    (s.answered request = s.pushed.count request
        ↔ s.unanswered request = if request ∈ s.requestsMap then 1 else 0)
      ∧ (s.pushed.count request = 1 → request ∉ s.foreign →
        (s.answered request = 1
          ↔ request ∉ s.abandoned ∧ (request, .other) ∉ s.answers)) := by
  have hbooks := books_of_reachable hs
  have hplaced := hbooks.placed request
  have hrecorded := hbooks.recorded request
  have habandoned := hbooks.abandoned (by rw [hpc]; exact id) request
  have hemptied := hbooks.emptied
  simp only [State.Emptied, hpc] at hemptied
  have hdue : records s.due request = 0 := by
    simp only [State.due, hpc]
    exact if_neg (Finset.notMem_empty _)
  have hnone : (requests ([] : List (Message V))).count request = 0 := rfl
  rw [hemptied.1, hnone] at habandoned
  rw [hemptied.1, hemptied.2, hnone] at hplaced
  rw [State.count_answered]
  refine ⟨?_, fun hpushed hforeign => ?_⟩
  · have hrecords : records s.requestsMap request = if request ∈ s.requestsMap then 1 else 0 := rfl
    rw [← hrecords]
    omega
  · have hsingle := hbooks.single request hpushed.le hforeign
    rw [hemptied.1, hnone] at hsingle
    rw [← List.count_eq_zero, ← List.count_eq_zero]
    omega

/-- A request is handed to a handler, which answers it, and the server is destroyed. -/
theorem answered_once_iff_served :
    ∃ s : State Nat, s.pc = .destroyed ∧ s.pushed = [(1, 5)] ∧ s.answered (1, 5) = 1 := by
  have hfresh : system.Reachable (State.fresh : State Nat) := .of_init rfl
  have h1 := hfresh.unlabelled (Step.push ⟨1, 5, .value 3⟩ trivial)
  have h2 := h1.unlabelled (Step.take ⟨1, 5, .value 3⟩ rfl rfl)
  have h3 := h2.unlabelled (Step.serve ⟨1, 5, .value 3⟩ [] trivial rfl)
  have h4 := h3.unlabelled (Step.respond (1, 5) trivial (List.mem_singleton_self _))
  have h5 := h4.unlabelled (Step.goDown trivial)
  have h6 := h5.unlabelled (Step.destroy rfl)
  have h7 := h6.unlabelled (Step.recordsDone rfl)
  have h8 := h7.unlabelled (Step.inboxDone rfl rfl)
  have h9 := h8.unlabelled (Step.mailboxDone rfl rfl)
  exact ⟨_, rfl, rfl, ((answered_once_iff h9 rfl (1, 5)).2 rfl List.not_mem_nil).mpr
    ⟨List.not_mem_nil, by decide⟩⟩

/-- The server goes down with a request in its inbox: its destructor aborts it twice. -/
theorem inbox_aborted_twice :
    ∃ s : State Nat, system.Reachable s ∧ s.pc = .destroyed ∧ s.pushed = [(1, 5)]
      ∧ s.answers = [((1, 5), .record), ((1, 5), .inbox)] := by
  have hfresh : system.Reachable (State.fresh : State Nat) := .of_init rfl
  have h1 := hfresh.unlabelled (Step.push ⟨1, 5, .value 3⟩ trivial)
  have h2 := h1.unlabelled (Step.take ⟨1, 5, .value 3⟩ rfl rfl)
  have h3 := h2.unlabelled (Step.goDown trivial)
  have h4 := h3.unlabelled (Step.destroy rfl)
  have h5 := h4.unlabelled (Step.abortRecord (1, 5) _ rfl (by decide))
  have h6 := h5.unlabelled (Step.recordsDone rfl)
  have h7 := h6.unlabelled (Step.drainInbox ⟨1, 5, .value 3⟩ [] rfl rfl)
  have h8 := h7.unlabelled (Step.inboxDone rfl rfl)
  have h9 := h8.unlabelled (Step.mailboxDone rfl rfl)
  exact ⟨_, h9, rfl, rfl, rfl⟩

end Stp.Server
