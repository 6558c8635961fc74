import Stp.Pairing.Places

/-!
# The steps of a request

What each step does with the request or the yield that it is about, at the process that is asked and
at the one that asks, and that it leaves all others where they are.
-/

namespace Stp.Pairing

open Process
open Server (Key key requests)

variable {P V : Type*} [DecidableEq P] {s s' : State P V} {fates : Key → Fate P V}

/-! ### A response is taken -/

theorem up_of_taking {c : Proc V} (hruns : c.Runs) (hpc : c.machine.pc = .taking) : c.Up := by
  refine ⟨hruns.1, ?_⟩
  rw [hpc]
  exact id

/-- The response is for a request that was made and answered. -/
theorem PairedBut.taken (hs : PairedBut none s fates) {p : P} {msg : Message V}
    (hruns : (s.proc p).Runs) (hpc : (s.proc p).machine.pc = .taking)
    (htake : (s.proc p).mailbox.take.1 = some msg) (htype : typeOfMessage msg = .kResponse) :
    ∃ co, fates ((s.proc p).pid, -msg.session) = .answered co msg.content
      ∧ Placed s ((s.proc p).pid, -msg.session) (.answered co msg.content) := by
  have hsession : -msg.session ≠ 0 := by
    intro hzero
    have hlarge := (typeOfMessage_eq_kResponse msg).mp htype
    rw [neg_eq_zero.mp hzero] at hlarge
    exact absurd hlarge (by decide)
  have hup := up_of_taking hruns hpc
  have hplaced := hs.placed ((s.proc p).pid, -msg.session) hsession nofun ⟨p, hup, rfl⟩
  have hmail := (hplaced.asks p hup rfl).mail
  rw [take_responses htake, responses_of_response htype, List.singleton_append] at hmail
  cases hfate : fates ((s.proc p).pid, -msg.session) with
  | answered co content =>
      rw [hfate, Fate.ask, Ask.reply, List.cons.injEq] at hmail
      obtain ⟨rfl, -⟩ := hmail
      rw [hfate] at hplaced
      exact ⟨co, rfl, hplaced⟩
  | idle | pushed | received | served | woken | lost =>
      rw [hfate] at hmail
      cases hmail

theorem PairedBut.takeResponse (hs : PairedBut none s fates) {p : P} {msg : Message V}
    (hruns : (s.proc p).Runs) (hpc : (s.proc p).machine.pc = .taking)
    (htake : (s.proc p).mailbox.take.1 = some msg) (htype : typeOfMessage msg = .kResponse)
    (woken : Option Nat) :
    PairedBut none (s.set p ((s.proc p).receive msg))
      (after fates (.take ((s.proc p).pid, -msg.session) msg.content woken)) := by
  obtain ⟨co, hfate, hplaced⟩ := hs.taken hruns hpc htake htype
  have hwaits := (hs.sound p).waits
  have hup := up_of_taking hruns hpc
  have hasks := hplaced.asks p hup rfl
  have hmoves := Moves.receive (hs.sound p) hruns hpc msg
  have hleaves : ∀ request, Leaves (s.proc p) ((s.proc p).receive msg) request :=
    fun request => .receive htake fun h => absurd htype h
  rw [after_of_key rfl, hfate]
  refine PairedBut.close ?_ fun _ _ => ?_
  · refine (hs.but _).set p hmoves (fun request _ _ => hleaves request)
      fun _ session ask _ hexcept hother => ?_
    obtain ⟨hwaiting, hmem⟩ := hasks.blocked hwaits hpc
    refine hother.receive_response hwaits htake htype (fun hsame => hexcept ?_) hwaiting hmem
    rw [hsame]
  · obtain ⟨-, -, hwoken⟩ := hasks.receive hwaits hpc htake htype
    refine .set nofun (fun _ => hplaced.session nofun) ((hplaced.serves p).leaves (hleaves _))
      (fun q _ => hplaced.serves q) (fun _ _ => hwoken) fun q hq hup' hpid => ?_
    exact absurd (hs.distinct q p hup'.intact hup.intact hpid) hq

/-! ### A request at its target -/

theorem PairedBut.takeRequest (hs : PairedBut none s fates) {p : P} {msg : Message V}
    (hruns : (s.proc p).Runs) (hpc : (s.proc p).machine.pc = .taking)
    (htake : (s.proc p).mailbox.take.1 = some msg) (htype : typeOfMessage msg = .kRequest) :
    PairedBut none (s.set p ((s.proc p).receive msg)) (after fates (.receive (key msg) p)) := by
  have hother : typeOfMessage msg ≠ .kResponse := by
    rw [htype]
    exact MessageType.noConfusion
  have hmoves := Moves.receive (hs.sound p) hruns hpc msg
  rw [after_of_key rfl]
  refine PairedBut.close ?_ fun hzero hlives => ?_
  · refine (hs.but _).set p hmoves (fun request _ hexcept => ?_) fun _ session ask _ _ hasks => ?_
    · exact .receive htake fun _ hsame => hexcept (congrArg some hsame)
    · exact hasks.receive_other htake hother
  · have hplaced := hs.placed (key msg) hzero nofun (hmoves.lives hlives)
    have hserves := hplaced.serves p
    have hspot : (fates (key msg)).spot p = .mailbox := by
      have hcount := hserves.mailbox
      rw [take_requests htake, Server.requests_of_request htype, List.count_singleton_self] at hcount
      by_contra hne
      rw [if_neg hne] at hcount
      omega
    obtain ⟨co, hfate⟩ := Fate.of_mailbox hspot
    rw [hspot] at hserves
    rw [hfate] at hplaced ⊢
    have hmove : (Fate.pushed co p : Fate P V).move (.receive (key msg) p) = .received co p :=
      if_pos rfl
    rw [hmove]
    refine hplaced.step hmoves nofun nofun ?_ (fun q hq => ?_) rfl
      fun _ hasks => hasks.receive_other htake hother
    · rw [(Fate.spot_self p co none).2.1]
      exact hserves.receive hruns htake htype
    · rw [(Fate.spot_of_ne hq co none).1, (Fate.spot_of_ne hq co none).2.1]

/-- What `serve()` does with a message, up to where its handler runs. -/
structure Hands (gone : ProcessT → Prop) (c c' : Proc V) (msg : Message V) (call : Option Nat) :
    Prop where
  moves : Moves gone c c'
  leaves : ∀ request, key msg ≠ request → Leaves c c' request
  serves : Serves c (key msg) .inbox → Serves c' (key msg) (.record call)
  asks : c'.Up → ∀ session ask, Asks c session ask → Asks c' session ask

theorem PairedBut.serve (hs : PairedBut none s fates) {p : P} {msg : Message V}
    (hmem : msg ∈ (s.proc p).machine.inbox) {c' : Proc V} {call : Option Nat}
    (hhands : Hands s.Gone (s.proc p) c' msg call) :
    PairedBut none (s.set p c') (after fates (.serve (key msg) p call)) := by
  rw [after_of_key rfl]
  refine PairedBut.close ?_ fun hzero hlives => ?_
  · refine (hs.but _).set p hhands.moves (fun request _ hexcept => ?_) fun hup session ask _ _ => ?_
    · exact hhands.leaves request fun hsame => hexcept (congrArg some hsame)
    · exact hhands.asks hup session ask
  · have hplaced := hs.placed (key msg) hzero nofun (hhands.moves.lives hlives)
    have hserves := hplaced.serves p
    have hspot : (fates (key msg)).spot p = .inbox := by
      have hcount := hserves.inbox
      have hpositive : 0 < ((s.proc p).machine.inbox.map key).count (key msg) :=
        List.count_pos_iff.mpr (List.mem_map_of_mem hmem)
      by_contra hne
      rw [if_neg hne] at hcount
      omega
    obtain ⟨co, hfate⟩ := Fate.of_inbox hspot
    rw [hspot] at hserves
    rw [hfate] at hplaced ⊢
    have hmove : (Fate.received co p : Fate P V).move (.serve (key msg) p call)
        = .served co p call := if_pos rfl
    rw [hmove]
    refine hplaced.step hhands.moves nofun nofun ?_ (fun q hq => ?_) rfl
      fun hup => hhands.asks hup _ _
    · rw [(Fate.spot_self p co call).2.2]
      exact hhands.serves hserves
    · rw [(Fate.spot_of_ne hq co call).2.1, (Fate.spot_of_ne hq co call).2.2]

section Hands

variable {gone : ProcessT → Prop} {c : Proc V} {co : Nat} {caller : Coroutines.Caller}
  {msg : Message V} {rest : List (Message V)}

theorem Hands.drop (hc : c.Sound gone) (hcalls : c.Calls co caller)
    (hinbox : c.machine.inbox = msg :: rest) : Hands gone c (c.takeFront rest) msg none := by
  have hstep : Coroutines.Step c.machine .tau { c.machine with inbox := rest } :=
    .takeInbox co caller msg rest hcalls.2.1 hinbox
  have hsubset : rest ⊆ c.machine.inbox := by
    rw [hinbox]
    exact List.subset_cons_self _ _
  exact ⟨.call hc hcalls hstep hsubset, fun request hne => .takeFront hinbox hne,
    fun hserves => hserves.takeFront hinbox,
    fun hup session ask hasks => hasks.call hc hcalls hstep (fun _ _ => nofun) hup⟩

/-- The handler is called in a coroutine. -/
theorem Hands.call {c' : Proc V} (hhands : Hands gone c c' msg none)
    (hsession : msg.session.toNat < 2 ^ 31) (x : Nat) :
    Hands gone c (c'.call x msg) msg (some c'.calls.length) := by
  have hsound := hhands.moves.sound
  refine ⟨⟨hhands.moves.pid, hhands.moves.after, hhands.moves.intact, hhands.moves.up,
    hsound.call hsession x⟩, fun request hne => ?_, fun hserves => ?_,
    fun hup session ask hasks => ?_⟩
  · exact (hhands.leaves request hne).trans (.call hsound.numbered x hne)
  · exact (hhands.serves hserves).call hsound.numbered x
  · exact (hhands.asks hup session ask hasks).congr rfl rfl rfl (fun _ _ => id) fun _ _ => rfl

/-- A coroutine is spawned for it. -/
theorem Hands.spawn (hc : c.Sound gone) (hcalls : c.Calls co caller)
    (hinbox : c.machine.inbox = msg :: rest) (hsession : msg.session.toNat < 2 ^ 31) :
    Hands gone c ((c.takeFront rest).spawn msg) msg (some c.calls.length) := by
  have hdrop := Hands.drop hc hcalls hinbox
  have hfront : (c.takeFront rest).Calls co caller := hcalls
  have hstep : Coroutines.Step (c.takeFront rest).machine .tau (c.takeFront rest).machine.spawn :=
    .spawn co caller hcalls.2.1
  have hspawned : Hands gone c
      { c.takeFront rest with machine := (c.takeFront rest).machine.spawn } msg none := by
    refine ⟨?_, fun request hne => ?_, fun hserves => ?_, fun hup session ask hasks => ?_⟩
    · exact hdrop.moves.trans (.call hdrop.moves.sound hfront hstep (List.Subset.refl _))
    · exact (hdrop.leaves request hne).trans (.machine _ (c.takeFront rest).machine.spawn rfl _)
    · exact (hdrop.serves hserves).leaves (.machine _ (c.takeFront rest).machine.spawn rfl _)
    · have hup' : (c.takeFront rest).Up := hup
      exact (hdrop.asks hup' session ask hasks).call hdrop.moves.sound hfront hstep
        (fun _ _ => nofun) hup
  exact hspawned.call hsession _

end Hands

/-! ### Answers -/

/-- A request is answered, and the process that was asked moves on without it. -/
theorem PairedBut.finish (hs : PairedBut none s fates) {request : Key}
    (hsession : request.2.toNat < 2 ^ 31) {source : ProcessT} {content : Content V}
    (hanswers : s.Answers source request content s') {p : P} {c' : Proc V}
    (hmoves : Moves s'.Gone (s'.proc p) c')
    (hleaves : ∀ other, request ≠ other → Leaves (s'.proc p) c' other)
    (hasks : c'.Up → ∀ session ask, Asks (s'.proc p) session ask → Asks c' session ask)
    {label : Label P V} (hkey : label.key = some request)
    (hlog : s.Lives request.1 → Placed s request (fates request) →
      ∃ co, (fates request).ask = .pending co
        ∧ (fates request).move label = .answered co content
        ∧ (∀ q, q ≠ p → (fates request).spot q = .nowhere)
        ∧ (Serves (s'.proc p) request ((fates request).spot p) → Serves c' request .nowhere)) :
    PairedBut none (s'.set p c') (after fates label) := by
  have hpushed := (hs.but (some request)).answers hsession hanswers
  rw [after_of_key hkey]
  refine PairedBut.close ?_ fun hzero hlives => ?_
  · refine hpushed.set p hmoves (fun other _ hexcept => ?_) fun hup session ask _ _ => ?_
    · exact hleaves other fun hsame => hexcept (congrArg some hsame)
    · exact hasks hup session ask
  · have hbefore := answers_lives hanswers (hmoves.lives hlives)
    have hplaced := hs.placed request hzero nofun hbefore
    obtain ⟨co, hask, hmove, helsewhere, hgone⟩ := hlog hbefore hplaced
    obtain ⟨hserves, hanswered⟩ := hplaced.answers hs.distinct hbefore hask hanswers
    have hidle : fates request ≠ .idle := by
      intro hidle
      rw [hidle] at hask
      cases hask
    rw [hmove]
    refine .set nofun (fun _ => hplaced.session hidle) (hgone (hserves p)) (fun q hq => ?_)
      (fun hup hpid => ?_) fun q _ => hanswered q
    · have hnowhere := hserves q
      rw [helsewhere q hq] at hnowhere
      exact hnowhere
    · exact hasks hup _ _ (hanswered p (hmoves.up hup) (hmoves.pid.symm.trans hpid))

theorem PairedBut.respond (hs : PairedBut none s fates) {p : P} (hruns : (s.proc p).Runs)
    {call : Nat} {request : Key} (hmessage : (s.proc p).calls[call]? = some request)
    (honce : call ∈ (s.proc p).unanswered) {content : Content V}
    (hanswers : s.Answers (s.proc p).pid request content s') :
    PairedBut none (s'.set p ((s'.proc p).answer (some call) request))
      (after fates (.answer request p (some call) content)) := by
  have hsession : request.2.toNat < 2 ^ 31 :=
    (hs.sound p).calls request (List.mem_of_getElem? hmessage)
  have hpushed := (hs.but (some request)).answers hsession hanswers
  have hruns' : (s'.proc p).Runs := by
    obtain hsame | ⟨-, msg, hsame⟩ := answers_proc hanswers p <;>
    · rw [hsame]
      exact hruns
  refine hs.finish hsession hanswers (.answer (hpushed.sound p) hruns' call request)
    (fun other hne => .answer hruns' call hne) (fun _ session ask hasks => ?_) rfl
    fun _ hplaced => ?_
  · exact hasks.congr rfl rfl rfl (fun _ _ => id) fun _ _ => rfl
  · have hpending : call ∈ (s.proc p).pending := by
      unfold Proc.pending
      rw [hruns.1]
      exact honce
    have hspot := (hplaced.serves p).calls call hpending hmessage
    obtain ⟨co, hfate⟩ := Fate.of_record hspot
    refine ⟨co, ?_, ?_, fun q hq => ?_, fun hserves => ?_⟩
    · rw [hfate]
      rfl
    · rw [hfate]
      exact if_pos ⟨rfl, rfl, rfl⟩
    · rw [hfate]
      exact (Fate.spot_of_ne hq co _).2.2
    · rw [hspot] at hserves
      exact hserves.answer hruns'

/-- Whoever is not intact is sent nothing. -/
theorem answers_proc_of_destroying {request : Key} {source : ProcessT} {content : Content V}
    (hanswers : s.Answers source request content s') {p : P} (hlife : ¬ (s.proc p).life.Intact) :
    s'.proc p = s.proc p :=
  (answers_proc hanswers p).resolve_right fun h => hlife h.1

theorem PairedBut.abortRecord (hs : PairedBut none s fates) {p : P} {request : Key}
    {rest : Finset Key} (hlife : (s.proc p).life = .aborting rest) (hrecord : request ∈ rest)
    {source : ProcessT} (hanswers : s.Answers source request (.exception .abortedRequest) s') :
    PairedBut none (s'.set p { s'.proc p with life := .aborting (rest.erase request) })
      (after fates (.abort request p)) := by
  have hdestroying : ¬ (s.proc p).life.Intact := by
    rw [hlife]
    exact id
  have hsound := hs.sound p
  have hrecords : (s.proc p).records = rest := records_of_aborting hlife
  have hsession : request.2.toNat < 2 ^ 31 := by
    refine hsound.records request ?_
    rw [hrecords]
    exact hrecord
  have hsame := answers_proc_of_destroying hanswers hdestroying
  have hclosing : (s.proc p).closing = none := by
    by_contra hclosing
    have hrunning := hsound.closing hclosing
    rw [hlife] at hrunning
    cases hrunning
  refine hs.finish hsession hanswers ?_ (fun other hne => ?_) (fun hup => ?_) rfl
    fun hlives hplaced => ?_
  · have hsound' := ((hs.but (some request)).answers hsession hanswers).sound p
    rw [hsame] at hsound' ⊢
    refine .ends hsound' ⟨nofun, nofun⟩ ?_ nofun (fun _ => hsound'.emptied hdestroying) hclosing
    rw [hrecords]
    exact Finset.erase_subset _ _
  · rw [hsame]
    exact .abortRecord hlife hne
  · cases hup.1
  · have hserves := hplaced.serves p
    have hrecorded := hserves.records.mp (by rw [hrecords]; exact hrecord)
    have hspot : ∃ call, (fates request).spot p = .record call := by
      cases hspot : (fates request).spot p with
      | record call => exact ⟨call, rfl⟩
      | inbox =>
          obtain ⟨co, hfate⟩ := Fate.of_inbox hspot
          have hcount := hserves.inbox
          rw [hspot, if_pos rfl] at hcount
          have hmem : request ∈ (s.proc p).machine.inbox.map key :=
            List.count_pos_iff.mp (by rw [hcount]; exact Nat.one_pos)
          obtain ⟨msg, hmsg, rfl⟩ := List.mem_map.mp hmem
          refine absurd hlives (hsound.emptied hdestroying msg hmsg ?_)
          exact (typeOfMessage_eq_kRequest msg).mpr (hplaced.session (by rw [hfate]; nofun))
      | nowhere | mailbox =>
          rw [hspot] at hrecorded
          exact hrecorded.elim
    obtain ⟨call, hspot⟩ := hspot
    obtain ⟨co, hfate⟩ := Fate.of_record hspot
    refine ⟨co, ?_, ?_, fun q hq => ?_, fun hserves => ?_⟩
    · rw [hfate]
      rfl
    · rw [hfate]
      exact if_pos rfl
    · rw [hfate]
      exact (Fate.spot_of_ne hq co _).2.2
    · rw [hspot] at hserves
      exact hserves.abortRecord rest

theorem Waits.setInbox {machine : Coroutines.State V} {request : Nat → Request}
    (hs : Waits machine request) (inbox : List (Message V)) :
    Waits { machine with inbox := inbox } request :=
  ⟨⟨hs.slots.once, hs.slots.slot, hs.slots.unstarted, hs.slots.unanswered⟩, hs.unfinished, hs.keys,
    hs.created, hs.nonzero, hs.inside, hs.clean⟩

/-- A request that is still in the inbox has been aborted before, but its process is gone. -/
theorem PairedBut.drainInbox (hs : PairedBut none s fates) {p : P} {msg : Message V}
    {rest : List (Message V)} (hlife : (s.proc p).life = .drainingInbox)
    (hinbox : (s.proc p).machine.inbox = msg :: rest) (htype : typeOfMessage msg = .kRequest)
    {source : ProcessT} (hanswers : s.Answers source (key msg) (.exception .abortedRequest) s') :
    PairedBut none (s'.set p ((s'.proc p).takeFront rest)) (after fates (.abort (key msg) p)) := by
  have hdestroying : ¬ (s.proc p).life.Intact := by
    rw [hlife]
    exact id
  have hborn := Proc.born_of_life hlife Life.noConfusion
  have hmem : msg ∈ (s.proc p).machine.inbox := by
    rw [hinbox]
    exact List.mem_cons_self
  have hsubset : rest ⊆ (s.proc p).machine.inbox := by
    rw [hinbox]
    exact List.subset_cons_self _ _
  have hsame := answers_proc_of_destroying hanswers hdestroying
  have hsession := ((typeOfMessage_eq_kRequest msg).mp htype).2
  refine hs.finish hsession hanswers ?_ (fun other hne => ?_) (fun hup => ?_) rfl fun hlives _ => ?_
  · have hsound := ((hs.but (some (key msg))).answers hsession hanswers).sound p
    rw [hsame] at hsound ⊢
    exact ⟨rfl, hborn, id, id, hsound.move (hsound.waits.setInbox rest) hsubset _⟩
  · rw [hsame]
    exact .takeFront hinbox hne
  · have hrunning : (s'.proc p).life = .running := hup.1
    rw [hsame, hlife] at hrunning
    cases hrunning
  · exact absurd hlives ((hs.sound p).emptied hdestroying msg hmem htype)

theorem PairedBut.drainMailbox (hs : PairedBut none s fates) {p : P} {msg : Message V}
    (hlife : (s.proc p).life = .drainingMailbox) (htake : (s.proc p).mailbox.take.1 = some msg)
    (htype : typeOfMessage msg = .kRequest) {source : ProcessT}
    (hanswers : s.Answers source (key msg) (.exception .abortedRequest) s') :
    PairedBut none (s'.set p { s'.proc p with mailbox := (s.proc p).mailbox.take.2 })
      (after fates (.abort (key msg) p)) := by
  have hdestroying : ¬ (s.proc p).life.Intact := by
    rw [hlife]
    exact id
  have hborn := Proc.born_of_life hlife Life.noConfusion
  have hsame := answers_proc_of_destroying hanswers hdestroying
  have hsession := ((typeOfMessage_eq_kRequest msg).mp htype).2
  refine hs.finish hsession hanswers ?_ (fun other hne => ?_) (fun hup => ?_) rfl
    fun _ hplaced => ?_
  · have hsound := ((hs.but (some (key msg))).answers hsession hanswers).sound p
    rw [hsame] at hsound ⊢
    refine ⟨rfl, hborn, id, id, ?_⟩
    exact hsound.congr rfl rfl rfl (Finset.Subset.refl _) (Finset.Subset.refl _) hsound.emptied
      hsound.closing
  · rw [hsame]
    refine .drain htake fun hmem => hne ?_
    exact (mem_requests.mp hmem).2
  · have hrunning : (s'.proc p).life = .running := hup.1
    rw [hsame, hlife] at hrunning
    cases hrunning
  · have hspot : (fates (key msg)).spot p = .mailbox := by
      have hcount := (hplaced.serves p).mailbox
      rw [take_requests htake, Server.requests_of_request htype, List.count_singleton_self] at hcount
      by_contra hne
      rw [if_neg hne] at hcount
      omega
    obtain ⟨co, hfate⟩ := Fate.of_mailbox hspot
    refine ⟨co, ?_, ?_, fun q hq => ?_, fun hserves => ?_⟩
    · rw [hfate]
      rfl
    · rw [hfate]
      exact if_pos rfl
    · rw [hfate]
      exact (Fate.spot_of_ne hq co none).1
    · rw [hspot, hsame] at hserves
      rw [hsame]
      exact hserves.drain htake htype

/-! ### Requests and yields -/

theorem push_proc (s : State P V) (q : P) (msg : Message V) (p : P) :
    (s.push q msg).proc p = s.proc p ∨ (s.push q msg).proc p = (s.proc p).append msg := by
  by_cases hp : p = q
  · rw [hp]
    exact Or.inr (s.set_self _ _)
  · exact Or.inl (s.set_of_ne hp _)

/-- A session that is not allocated has no request. -/
theorem PairedBut.idle (hs : PairedBut none s fates) {p : P} {session : SessionT}
    (hsession : session ≠ 0) (hfresh : session ∉ (s.proc p).sessions) (hup : (s.proc p).Up) :
    fates ((s.proc p).pid, session) = .idle ∧ Placed s ((s.proc p).pid, session) .idle := by
  have hplaced := hs.placed ((s.proc p).pid, session) hsession nofun ⟨p, hup, rfl⟩
  have hallocated := (hplaced.asks p hup rfl).allocated
  have hidle : fates ((s.proc p).pid, session) = .idle := by
    cases hfate : fates ((s.proc p).pid, session) with
    | idle => rfl
    | lost => exact absurd hfate hplaced.sensible
    | pushed | received | served | answered | woken =>
        rw [hfate] at hallocated
        exact absurd (hallocated (Option.some_ne_none _)) hfresh
  refine ⟨hidle, ?_⟩
  rw [← hidle]
  exact hplaced

theorem Leaves.openSession (c : Proc V) (co : Nat) (session : SessionT) (request : Key) :
    Leaves c (c.openSession co session) request :=
  .of_eq c (c.openSession co session) rfl rfl rfl (Finset.Subset.refl _) rfl request

theorem ne_zero_of_pos {session : SessionT} (hsession : 0 < session.toNat) : session ≠ 0 := by
  rintro rfl
  exact absurd hsession (by decide)

theorem PairedBut.request (hs : PairedBut none s fates) {p q : P} {co : Nat}
    {caller : Coroutines.Caller} {session : SessionT} {content : Content V}
    (hcalls : (s.proc p).Calls co caller) (hfound : (s.proc q).life.Intact)
    (hfresh : session ∉ (s.proc p).sessions)
    (hsession : 0 < session.toNat ∧ session.toNat < 2 ^ 31)
    (hpush : s' = s.push q ⟨(s.proc p).pid, session, content⟩) :
    PairedBut none (s'.set p ((s'.proc p).openSession co session))
      (after fates (.request ((s.proc p).pid, session) co q)) := by
  have htype : typeOfMessage (⟨(s.proc p).pid, session, content⟩ : Message V) = .kRequest :=
    (typeOfMessage_eq_kRequest _).mpr hsession
  have hother : typeOfMessage (⟨(s.proc p).pid, session, content⟩ : Message V) ≠ .kResponse := by
    rw [htype]
    exact MessageType.noConfusion
  have hkeys : requests [(⟨(s.proc p).pid, session, content⟩ : Message V)]
      = [((s.proc p).pid, session)] := Server.requests_of_request htype
  have hresponses : ∀ session', responses session'
      [(⟨(s.proc p).pid, session, content⟩ : Message V)] = [] :=
    fun _ => responses_of_other fun h => absurd h hother
  have hzero := ne_zero_of_pos hsession.1
  have hpushed : PairedBut (some ((s.proc p).pid, session)) s' fates := by
    rw [hpush]
    refine (hs.but _).push (Life.Intact.born hfound) (fun request hexcept => ?_)
      fun session' _ _ => hresponses session'
    rw [hkeys, List.mem_singleton]
    exact fun hsame => hexcept (congrArg some hsame.symm)
  obtain ⟨hcalls', hpid, hfresh'⟩ : (s'.proc p).Calls co caller ∧ (s'.proc p).pid = (s.proc p).pid
      ∧ ∀ ask, Asks (s.proc p) session ask → Asks (s'.proc p) session ask := by
    rw [hpush]
    obtain hsame | hsame := push_proc s q ⟨(s.proc p).pid, session, content⟩ p
    · rw [hsame]
      exact ⟨hcalls, rfl, fun _ => id⟩
    · rw [hsame]
      exact ⟨hcalls, rfl, fun ask hasks => hasks.append (hresponses session)⟩
  have hmoves := Moves.openSession (hpushed.sound p) hcalls' hzero
  rw [after_of_key rfl]
  refine PairedBut.close ?_ fun _ hlives => ?_
  · refine hpushed.set p hmoves (fun request _ _ => .openSession _ co session request)
      fun _ session' ask _ hexcept hasks => ?_
    refine hasks.open_other hcalls'.2.2 fun hsame => hexcept ?_
    rw [hpid, hsame]
  · have hup' : (s'.proc p).Up := by
      refine hpushed.up_of_lives hcalls'.1.intact ?_
      rw [hpid]
      exact hmoves.lives hlives
    have hup : (s.proc p).Up := by
      rw [hpush] at hup'
      obtain hsame | hsame := push_proc s q ⟨(s.proc p).pid, session, content⟩ p <;>
      · rw [hsame] at hup'
        exact hup'
    obtain ⟨hidle, hplaced⟩ := hs.idle hzero hfresh hup
    have hserves : ∀ r, Serves (s'.proc r) ((s.proc p).pid, session)
        ((Fate.pushed co q : Fate P V).spot r) := by
      rw [hpush]
      refine State.forall_set (Q := fun r c => Serves c ((s.proc p).pid, session)
        ((Fate.pushed co q : Fate P V).spot r)) ?_ fun r hr => ?_
      · rw [(Fate.spot_self q co none).1]
        exact (hplaced.serves q).append hkeys
      · rw [(Fate.spot_of_ne hr co none).1]
        exact hplaced.serves r
    rw [hidle]
    refine .set nofun (fun _ => hsession) ((hserves p).leaves (.openSession _ co session _))
      (fun r _ => hserves r) (fun _ _ => ?_) fun r hr hup'' hpid' => ?_
    · exact (hfresh' _ (hplaced.asks p hup rfl)).open co
    · exact absurd (hpushed.distinct r p hup''.intact hup'.intact (hpid'.trans hpid.symm)) hr

theorem PairedBut.yield (hs : PairedBut none s fates) {p : P} {co : Nat}
    {caller : Coroutines.Caller} {session : SessionT} (hcalls : (s.proc p).Calls co caller)
    (hfresh : session ∉ (s.proc p).sessions)
    (hsession : 0 < session.toNat ∧ session.toNat < 2 ^ 31) :
    PairedBut none
      (s.set p (((s.proc p).append ⟨0, sessionForResponse session, .empty⟩).openSession co session))
      (after fates (.yield ((s.proc p).pid, session) co)) := by
  have hborn := hcalls.1.born
  have hzero := ne_zero_of_pos hsession.1
  have happend := Moves.append hborn (hs.sound p) ⟨0, sessionForResponse session, .empty⟩
  have hmoves := happend.trans (.openSession happend.sound hcalls hzero)
  have hleaves : ∀ request, Leaves (s.proc p)
      (((s.proc p).append ⟨0, sessionForResponse session, .empty⟩).openSession co session)
      request := by
    intro request
    refine Leaves.trans (Leaves.append ?_) (.openSession _ co session request)
    rw [requests_of_answer 0 .empty hsession.2]
    exact List.not_mem_nil
  rw [after_of_key rfl]
  refine PairedBut.close ?_ fun _ hlives => ?_
  · refine (hs.but _).set p hmoves (fun request _ _ => hleaves request)
      fun _ session' ask _ hexcept hasks => ?_
    have hne : session ≠ session' := fun hsame => hexcept (by rw [hsame])
    exact (hasks.append (responses_of_answer 0 .empty hne)).open_other hcalls.2.2 hne
  · have hup := hs.up_of_lives hcalls.1.intact (hmoves.lives hlives)
    obtain ⟨hidle, hplaced⟩ := hs.idle hzero hfresh hup
    rw [hidle]
    refine .set nofun (fun _ => hsession) ((hplaced.serves p).leaves (hleaves _))
      (fun q _ => hplaced.serves q) (fun _ _ => ?_)
      fun q hq hup' hpid => absurd (hs.distinct q p hup'.intact hup.intact hpid) hq
    have hopened := (hplaced.asks p hup rfl).open co
    exact hopened.answer (responses_of_own_answer 0 .empty hsession)

/-! ### The wait -/

theorem resume_not_blocked {machine machine' : Coroutines.State V} {co : Nat}
    {outcome : Option (Coroutines.Outcome V)} (hs : Coroutines.Slots machine)
    (hstep : Coroutines.Step machine (.resume co outcome) machine') (session : SessionT) :
    (session, co) ∉ machine.blockSessions := by
  intro hmem
  have honce := hs.once_le co
  have hqueued := hstep.resume_spec.queued
  have hcount : 0 < (machine.blockSessions.map Prod.snd).count co :=
    List.count_pos_iff.mpr (List.mem_map_of_mem (f := Prod.snd) hmem)
  rw [Coroutines.State.unanswered] at honce
  omega

/-- A coroutine that goes on has been given the content of its response. -/
theorem PairedBut.woken (hs : PairedBut none s fates) {p : P} {co : Nat} {session : SessionT}
    {outcome : Option (Coroutines.Outcome V)} {machine : Coroutines.State V}
    (hruns : (s.proc p).Runs) (hrequest : (s.proc p).request co = .waiting session)
    (hexit : ¬ (s.proc p).machine.pc.InExit)
    (hstep : Coroutines.Step (s.proc p).machine (.resume co outcome) machine) :
    ∃ content, fates ((s.proc p).pid, session) = .woken co content
      ∧ Placed s ((s.proc p).pid, session) (.woken co content)
      ∧ outcome = some (Pairing.outcome content) := by
  have hwaits := (hs.sound p).waits
  have hzero := hwaits.nonzero co session (Or.inr hrequest)
  have hup : (s.proc p).Up := ⟨hruns.1, hexit⟩
  have hplaced := hs.placed ((s.proc p).pid, session) hzero nofun ⟨p, hup, rfl⟩
  have hasks := hplaced.asks p hup rfl
  have hco := (hasks.asker co).mp (Or.inr hrequest)
  have hblocked := resume_not_blocked hwaits.slots hstep session
  cases hfate : fates ((s.proc p).pid, session) with
  | idle | lost =>
      rw [hfate] at hco
      cases hco
  | pushed | received | served | answered =>
      rw [hfate] at hco hasks
      cases hco
      exact absurd (hasks.waits hrequest) hblocked
  | woken x content =>
      rw [hfate] at hco hasks hplaced
      cases hco
      exact ⟨content, rfl, hplaced, hasks.outcome hwaits hstep hexit⟩

theorem Moves.release {gone : ProcessT → Prop} {c : Proc V} (hc : c.Sound gone) (hruns : c.Runs)
    {co : Nat} (session : SessionT) {outcome : Option (Coroutines.Outcome V)}
    {machine : Coroutines.State V} (hstep : Coroutines.Step c.machine (.resume co outcome) machine) :
    Moves gone c { c.releaseSession co session with machine := machine } := by
  refine .of_runs hruns rfl rfl hstep.inExit (hc.move (hc.waits.resume hstep) ?_ _)
  rw [hstep.resume_frame.inbox]
  exact List.Subset.refl _

theorem Leaves.release {c : Proc V} {co : Nat} (session : SessionT)
    {outcome : Option (Coroutines.Outcome V)} {machine : Coroutines.State V}
    (hstep : Coroutines.Step c.machine (.resume co outcome) machine) (request : Key) :
    Leaves c { c.releaseSession co session with machine := machine } request :=
  .of_eq c { c.releaseSession co session with machine := machine } rfl hstep.resume_frame.inbox rfl
    (Finset.Subset.refl _) rfl request

theorem PairedBut.resume (hs : PairedBut none s fates) {p : P} {co : Nat} {session : SessionT}
    {outcome : Option (Coroutines.Outcome V)} {machine : Coroutines.State V}
    (hruns : (s.proc p).Runs) (hrequest : (s.proc p).request co = .waiting session)
    (hexit : ¬ (s.proc p).machine.pc.InExit)
    (hstep : Coroutines.Step (s.proc p).machine (.resume co outcome) machine) :
    PairedBut none (s.set p { (s.proc p).releaseSession co session with machine := machine })
      (after fates (.resume ((s.proc p).pid, session) co outcome)) := by
  obtain ⟨content, hfate, hplaced, -⟩ := hs.woken hruns hrequest hexit hstep
  have hup : (s.proc p).Up := ⟨hruns.1, hexit⟩
  have hmoves := Moves.release (hs.sound p) hruns session hstep
  have hasks := hplaced.asks p hup rfl
  rw [after_of_key rfl, hfate]
  refine PairedBut.close ?_ fun _ _ => ?_
  · refine (hs.but _).set p hmoves (fun request _ _ => .release session hstep request)
      fun _ session' ask _ hexcept hother => ?_
    exact hother.release_other hrequest (fun hsame => hexcept (by rw [hsame])) hstep hexit
  · refine .set nofun (fun h => absurd rfl h) ((hplaced.serves p).leaves (.release session hstep _))
      (fun q _ => hplaced.serves q) (fun _ _ => hasks.release machine) fun q hq hup' hpid => ?_
    exact absurd (hs.distinct q p hup'.intact hup.intact hpid) hq

/-- In `exit()` a wait ends without its response. -/
theorem PairedBut.unwind (hs : PairedBut none s fates) {p : P} {co : Nat} {session : SessionT}
    {outcome : Option (Coroutines.Outcome V)} {machine : Coroutines.State V}
    (hruns : (s.proc p).Runs) (hexit : (s.proc p).machine.pc.InExit)
    (hstep : Coroutines.Step (s.proc p).machine (.resume co outcome) machine) :
    PairedBut none (s.set p { (s.proc p).releaseSession co session with machine := machine })
      (after fates (.unwind ((s.proc p).pid, session) co)) := by
  have hmoves := Moves.release (hs.sound p) hruns session hstep
  rw [after_of_key rfl]
  refine PairedBut.close ?_ fun _ hlives => ?_
  · refine (hs.but _).set p hmoves (fun request _ _ => .release session hstep request)
      fun hup => absurd (hstep.inExit hexit) hup.2
  · exact absurd hexit (hs.up_of_lives hruns.intact (hmoves.lives hlives)).2

theorem PairedBut.block (hs : PairedBut none s fates) {p : P} {co : Nat} {session : SessionT}
    {machine : Coroutines.State V} (hruns : (s.proc p).Runs)
    (hrequest : (s.proc p).request co = .pushed session)
    (hstep : Coroutines.Step (s.proc p).machine (.wait co (some session)) machine)
    (hclean : ((s.proc p).machine.co co).result.exception = none) :
    PairedBut none (s.set p { (s.proc p).setRequest co (.waiting session) with machine := machine })
      fates := by
  have hsound := hs.sound p
  have hinbox : machine.inbox = (s.proc p).machine.inbox := by
    cases hstep with
    | block _ caller _ hpc => exact (Coroutines.State.switchBack_inbox _ co caller).1
  have hmoves : Moves s.Gone (s.proc p)
      { (s.proc p).setRequest co (.waiting session) with machine := machine } := by
    refine .of_runs hruns rfl rfl hstep.inExit ?_
    refine hsound.move (hsound.waits.block hstep hrequest hclean) ?_ _
    rw [hinbox]
    exact List.Subset.refl _
  refine hs.set p hmoves (fun request _ _ => ?_) fun hup session' ask _ _ hasks => ?_
  · exact .of_eq (s.proc p) { (s.proc p).setRequest co (.waiting session) with machine := machine }
      rfl hinbox rfl (Finset.Subset.refl _) rfl request
  · exact hasks.block hsound.waits hrequest hstep hup.2

end Stp.Pairing
