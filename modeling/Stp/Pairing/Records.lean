import Stp.Pairing.Fates

/-!
# A request at the process that is asked

A request goes from the mailbox to the inbox, where it has a record as well, and from there to a
handler, if there is one. Its record stays until it is answered, by the handler's call or by the
destructor. What happens to other requests leaves it where it is.
-/

namespace Stp.Pairing

open Process
open Server (Key key requests)

variable {V : Type*} {c : Proc V} {request : Key}

theorem mem_requests {msg : Message V} :
    request ∈ requests [msg] ↔ typeOfMessage msg = .kRequest ∧ key msg = request := by
  by_cases htype : typeOfMessage msg = .kRequest
  · rw [Server.requests_of_request htype, List.mem_singleton]
    exact ⟨fun hkey => ⟨htype, hkey.symm⟩, fun hkey => hkey.2.symm⟩
  · rw [Server.requests_of_other htype]
    exact ⟨fun hmem => absurd hmem List.not_mem_nil, fun hkey => absurd hkey.1 htype⟩

theorem take_requests {mailbox : Mailbox V} {msg : Message V}
    (htake : mailbox.take.1 = some msg) (request : Key) :
    (requests mailbox.messages).count request
      = (requests [msg]).count request + (requests mailbox.take.2.messages).count request := by
  rw [Mailbox.take_some htake, Server.requests_cons, List.count_append]

/-! ### The mailbox and the inbox -/

theorem receive_inbox (machine : Coroutines.State V) (msg : Message V) :
    (machine.receive msg).inbox = machine.inbox
      ∨ (typeOfMessage msg ≠ .kResponse ∧ (machine.receive msg).inbox = machine.inbox ++ [msg]) := by
  unfold Coroutines.State.receive
  cases htype : typeOfMessage msg with
  | kRequest => exact Or.inr ⟨nofun, rfl⟩
  | kResponse => exact Or.inl (Coroutines.State.answer_inbox machine _ _).1
  | kNotify =>
      cases msg.content with
      | killProcess => exact Or.inl rfl
      | empty | value | exception => exact Or.inr ⟨nofun, rfl⟩

theorem receive_inbox_of_request (machine : Coroutines.State V) {msg : Message V}
    (htype : typeOfMessage msg = .kRequest) :
    (machine.receive msg).inbox = machine.inbox ++ [msg] := by
  unfold Coroutines.State.receive
  rw [htype]

theorem count_inbox_append (inbox : List (Message V)) (msg : Message V) (request : Key) :
    ((inbox ++ [msg]).map key).count request
      = (inbox.map key).count request + if key msg = request then 1 else 0 := by
  rw [List.map_append, List.count_append, List.map_singleton, List.count_singleton]
  simp only [beq_iff_eq]

theorem count_inbox_cons (inbox : List (Message V)) (msg : Message V) (request : Key) :
    ((msg :: inbox).map key).count request
      = (inbox.map key).count request + if key msg = request then 1 else 0 := by
  rw [List.map_cons, List.count_cons]
  simp only [beq_iff_eq]

/-- A message that has not to do with the request is taken from the mailbox. -/
theorem Leaves.receive {msg : Message V} (htake : c.mailbox.take.1 = some msg)
    (hmsg : typeOfMessage msg ≠ .kResponse → key msg ≠ request) :
    Leaves c (c.receive msg) request where
  mailbox := by
    have hother : request ∉ requests [msg] := by
      intro hmem
      obtain ⟨htype, hkey⟩ := mem_requests.mp hmem
      refine hmsg ?_ hkey
      rw [htype]
      exact MessageType.noConfusion
    rw [take_requests htake, List.count_eq_zero.mpr hother, Nat.zero_add]
    rfl
  inbox := by
    obtain hsame | ⟨htype, hinbox⟩ := receive_inbox c.machine msg
    · rw [Proc.receive, hsame]
    · rw [Proc.receive, hinbox, count_inbox_append, if_neg (hmsg htype)]
      rfl
  records := by
    have hmap : request ∈ (c.receive msg).requestsMap ↔ request ∈ c.requestsMap := by
      simp only [Proc.receive]
      split
      · next htype =>
          rw [Finset.mem_insert, or_iff_right]
          refine fun hkey => hmsg ?_ hkey.symm
          rw [htype]
          exact MessageType.noConfusion
      · rfl
    unfold Proc.records
    change request ∈ c.life.records (c.receive msg).requestsMap c.closing ↔ _
    cases c.life with
    | running | down =>
        cases c.closing with
        | none => exact hmap
        | some closing => simp only [Life.records, Option.elim, Finset.mem_erase, hmap]
    | unborn | aborting | drainingInbox | drainingMailbox | destroyed => rfl
  calls _ hcall hrequest := ⟨hcall, hrequest⟩

/-- The request is taken from the mailbox. -/
theorem Serves.receive {msg : Message V} (hc : Serves c (key msg) .mailbox) (hruns : c.Runs)
    (htake : c.mailbox.take.1 = some msg) (htype : typeOfMessage msg = .kRequest) :
    Serves (c.receive msg) (key msg) .inbox where
  mailbox := by
    have hcount := hc.mailbox
    rw [take_requests htake, Server.requests_of_request htype, List.count_singleton_self,
      if_pos rfl] at hcount
    change (requests c.mailbox.take.2.messages).count (key msg) = 0
    omega
  inbox := by
    rw [Proc.receive, receive_inbox_of_request c.machine htype, count_inbox_append, hc.inbox,
      if_pos rfl]
    rfl
  records := by
    have hrecords : (c.receive msg).records = insert (key msg) c.requestsMap := by
      unfold Proc.records
      change c.life.records (c.receive msg).requestsMap c.closing = _
      rw [hruns.1, hruns.2]
      simp only [Life.records, Option.elim, Proc.receive, if_pos htype]
    rw [hrecords]
    exact ⟨fun _ => trivial, fun _ => Finset.mem_insert_self _ _⟩
  calls _ hcall hrequest := by cases hc.calls _ hcall hrequest

/-- A message that is not the request is taken from the inbox. -/
theorem Leaves.takeFront {msg : Message V} {rest : List (Message V)}
    (hinbox : c.machine.inbox = msg :: rest) (hmsg : key msg ≠ request) :
    Leaves c (c.takeFront rest) request where
  mailbox := rfl
  inbox := by
    rw [hinbox, count_inbox_cons, if_neg hmsg]
    rfl
  records := Iff.rfl
  calls _ hcall hrequest := ⟨hcall, hrequest⟩

theorem Serves.takeFront {msg : Message V} {rest : List (Message V)}
    (hc : Serves c (key msg) .inbox) (hinbox : c.machine.inbox = msg :: rest) :
    Serves (c.takeFront rest) (key msg) (.record none) where
  mailbox := hc.mailbox
  inbox := by
    have hcount := hc.inbox
    rw [hinbox, count_inbox_cons, if_pos rfl, if_pos rfl] at hcount
    change (rest.map key).count (key msg) = 0
    omega
  records := hc.records
  calls _ hcall hrequest := by cases hc.calls _ hcall hrequest

/-! ### The calls of handlers -/

/-- The calls are numbered. -/
def Proc.Numbered (c : Proc V) : Prop := ∀ call ∈ c.pending, call < c.calls.length

theorem pending_call (co : Nat) (msg : Message V) {call : Nat}
    (hcall : call ∈ (c.call co msg).pending) : call = c.calls.length ∨ call ∈ c.pending := by
  unfold Proc.pending at *
  change call ∈ c.life.pending (insert c.calls.length c.unanswered) at hcall
  cases hlife : c.life with
  | running =>
      rw [hlife] at hcall
      exact Finset.mem_insert.mp hcall
  | unborn | down | aborting | drainingInbox | drainingMailbox | destroyed =>
      rw [hlife] at hcall
      exact absurd hcall (Finset.notMem_empty _)

theorem Proc.Numbered.call (hc : c.Numbered) (co : Nat) (msg : Message V) :
    (c.call co msg).Numbered := by
  intro call hcall
  have hlength : (c.call co msg).calls.length = c.calls.length + 1 := List.length_append
  rw [hlength]
  obtain rfl | hcall := pending_call co msg hcall
  · exact Nat.lt_succ_self _
  · exact Nat.lt_succ_of_lt (hc call hcall)

/-- A handler is called for another message. -/
theorem Leaves.call (hc : c.Numbered) (co : Nat) {msg : Message V} (hmsg : key msg ≠ request) :
    Leaves c (c.call co msg) request where
  mailbox := rfl
  inbox := rfl
  records := Iff.rfl
  calls call hcall hrequest := by
    change (c.calls ++ [key msg])[call]? = some request at hrequest
    obtain rfl | hcall := pending_call co msg hcall
    · rw [List.getElem?_concat_length] at hrequest
      exact absurd (Option.some.inj hrequest) hmsg
    · rw [List.getElem?_append_left (hc call hcall)] at hrequest
      exact ⟨hcall, hrequest⟩

theorem Serves.call {msg : Message V} (hc : Serves c (key msg) (.record none)) (hnumbered : c.Numbered)
    (co : Nat) : Serves (c.call co msg) (key msg) (.record (some c.calls.length)) where
  mailbox := hc.mailbox
  inbox := hc.inbox
  records := hc.records
  calls call hcall hrequest := by
    change (c.calls ++ [key msg])[call]? = some (key msg) at hrequest
    obtain rfl | hcall := pending_call co msg hcall
    · rfl
    · rw [List.getElem?_append_left (hnumbered call hcall)] at hrequest
      cases hc.calls call hcall hrequest

/-! ### Answers -/

theorem records_answer (hruns : c.Runs) (call : Option Nat) (answered : Key) :
    (c.answer call answered).records = c.records.erase answered := by
  unfold Proc.records
  change c.life.records c.requestsMap (some answered) = _
  rw [hruns.1, hruns.2]
  rfl

theorem mem_pending_answer {call other : Nat} {answered : Key}
    (hother : other ∈ (c.answer (some call) answered).pending) :
    other ≠ call ∧ other ∈ c.pending := by
  unfold Proc.pending at *
  change other ∈ c.life.pending (c.unanswered.erase call) at hother
  cases hlife : c.life with
  | running =>
      rw [hlife] at hother
      exact Finset.mem_erase.mp hother
  | unborn | down | aborting | drainingInbox | drainingMailbox | destroyed =>
      rw [hlife] at hother
      exact absurd hother (Finset.notMem_empty _)

theorem Leaves.answer (hruns : c.Runs) (call : Nat) {answered : Key} (hne : answered ≠ request) :
    Leaves c (c.answer (some call) answered) request where
  mailbox := rfl
  inbox := rfl
  records := by
    rw [records_answer hruns, Finset.mem_erase]
    exact and_iff_right hne.symm
  calls _ hcall hrequest := ⟨(mem_pending_answer hcall).2, hrequest⟩

theorem Serves.answer {call : Nat} (hc : Serves c request (.record (some call))) (hruns : c.Runs) :
    Serves (c.answer (some call) request) request .nowhere where
  mailbox := hc.mailbox
  inbox := hc.inbox
  records := by
    rw [records_answer hruns]
    exact ⟨fun hmem => absurd rfl (Finset.mem_erase.mp hmem).1, False.elim⟩
  calls other hother hrequest := by
    obtain ⟨hne, hother⟩ := mem_pending_answer hother
    have hsame := hc.calls other hother hrequest
    cases hsame
    exact absurd rfl hne

/-- The record is closed only then. -/
theorem Leaves.close {closed : Key} (hlife : c.life = .running) (hclosing : c.closing = some closed)
    (request : Key) : Leaves c (c.closeRequest closed) request := by
  refine .of_eq c (c.closeRequest closed) rfl rfl ?_ (Finset.Subset.refl _) rfl request
  unfold Proc.records
  change c.life.records (c.requestsMap.erase closed) none = _
  rw [hlife, hclosing]
  rfl

/-! ### The destructor -/

/-- The process goes from one part of its life to another one, with the same requests on record. -/
theorem Leaves.live {life : Life} (hrecords : { c with life := life }.records = c.records)
    (hlife : life ≠ .running) (request : Key) : Leaves c { c with life := life } request := by
  refine .of_eq c { c with life := life } rfl rfl hrecords ?_ rfl request
  cases life with
  | running => exact absurd rfl hlife
  | unborn | down | aborting | drainingInbox | drainingMailbox | destroyed =>
      exact Finset.empty_subset _

theorem records_of_aborting {rest : Finset Key} (hlife : c.life = .aborting rest) :
    c.records = rest := by
  unfold Proc.records
  rw [hlife]
  rfl

theorem Leaves.abortRecord {rest : Finset Key} (hlife : c.life = .aborting rest) {aborted : Key}
    (hne : aborted ≠ request) : Leaves c { c with life := .aborting (rest.erase aborted) } request where
  mailbox := rfl
  inbox := rfl
  records := by
    change request ∈ rest.erase aborted ↔ _
    rw [records_of_aborting hlife, Finset.mem_erase]
    exact and_iff_right hne.symm
  calls _ hcall _ := absurd hcall (Finset.notMem_empty _)

theorem Serves.abortRecord {call : Option Nat} (hc : Serves c request (.record call))
    (rest : Finset Key) :
    Serves { c with life := .aborting (rest.erase request) } request .nowhere where
  mailbox := hc.mailbox
  inbox := hc.inbox
  records := ⟨fun hmem => absurd rfl (Finset.mem_erase.mp hmem).1, False.elim⟩
  calls _ hcall _ := absurd hcall (Finset.notMem_empty _)

theorem Leaves.drain {msg : Message V} (htake : c.mailbox.take.1 = some msg)
    (hmsg : request ∉ requests [msg]) :
    Leaves c { c with mailbox := c.mailbox.take.2 } request where
  mailbox := by
    rw [take_requests htake, List.count_eq_zero.mpr hmsg, Nat.zero_add]
  inbox := rfl
  records := Iff.rfl
  calls _ hcall hrequest := ⟨hcall, hrequest⟩

theorem Serves.drain {msg : Message V} (hc : Serves c (key msg) .mailbox)
    (htake : c.mailbox.take.1 = some msg) (htype : typeOfMessage msg = .kRequest) :
    Serves { c with mailbox := c.mailbox.take.2 } (key msg) .nowhere where
  mailbox := by
    have hcount := hc.mailbox
    rw [take_requests htake, Server.requests_of_request htype, List.count_singleton_self,
      if_pos rfl] at hcount
    change (requests c.mailbox.take.2.messages).count (key msg) = 0
    omega
  inbox := hc.inbox
  records := hc.records
  calls _ hcall hrequest := by cases hc.calls _ hcall hrequest

theorem Leaves.nothing (htake : c.mailbox.take.1 = none) (request : Key) :
    Leaves c { c with mailbox := c.mailbox.take.2 } request := by
  refine .of_eq c { c with mailbox := c.mailbox.take.2 } ?_ rfl rfl (Finset.Subset.refl _) rfl request
  obtain ⟨hbefore, hafter⟩ := Mailbox.take_none htake
  rw [hbefore, hafter]

/-- Only the coroutines move. -/
theorem Leaves.machine (c : Proc V) (machine : Coroutines.State V)
    (hinbox : machine.inbox = c.machine.inbox) (request : Key) :
    Leaves c { c with machine := machine } request :=
  .of_eq c { c with machine := machine } rfl hinbox rfl (Finset.Subset.refl _) rfl request

end Stp.Pairing
