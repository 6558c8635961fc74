import Stp.Pairing.Pairs

/-!
# Requests and responses are paired

A response is always for the coroutine that waits for it, and carries what the handler of its very
request has answered, in every run that keeps to `Label.Orderly`. So what happens to a session is one
exchange after the other, and a request or yield that has not returned is at one place alone. A
`serve()` in a handler overwrites what `sender()` and `session()` name, and a `response(content)` of
this handler later on is not made for its own request.
-/

namespace Stp.Pairing

open Process
open Server (Key key requests)

variable {P V : Type*} [DecidableEq P] {s s' : State P V} {fates : Key → Fate P V}

/-! ### The exchanges of a session -/

/-- A coroutine makes a request or yields, and the request is answered with the content: by the call
of the handler that it was handed to, or by the destructor of its target. -/
inductive Round (request : Key) (co : Nat) : Content V → List (Label P V) → Prop
  | answered (target : P) (call : Nat) (content : Content V) :
      Round request co content [.request request co target, .receive request target,
        .serve request target (some call), .answer request target (some call) content]
  | aborted (target : P) (call : Option Nat) :
      Round request co (.exception .abortedRequest) [.request request co target,
        .receive request target, .serve request target call, .abort request target]
  | undelivered (target : P) :
      Round request co (.exception .abortedRequest) [.request request co target,
        .abort request target]
  | yielded : Round request co .empty [.yield request co]

/-- The response is taken and wakes the coroutine, which is given its content. -/
def returned (request : Key) (co : Nat) (content : Content V) : List (Label P V) :=
  [.take request content (some co), .resume request co (some (outcome content))]

/-- One exchange after the other, since the process was created. -/
inductive Exchanges (request : Key) : List (Label P V) → Prop
  | nil : Exchanges request []
  | created (earlier : List (Label P V)) (p : P) :
      Exchanges request (earlier ++ [.create p request.1])
  | round {earlier round : List (Label P V)} {co : Nat} {content : Content V}
      (hearlier : Exchanges request earlier) (hround : Round request co content round) :
      Exchanges request (earlier ++ (round ++ returned request co content))

/-- The events, for each fate: exchanges, and the beginning of the next one. -/
def Fate.Ends (request : Key) (events : List (Label P V)) : Fate P V → Prop
  | .idle => Exchanges request events
  | .pushed co target => ∃ earlier, Exchanges request earlier
      ∧ events = earlier ++ [.request request co target]
  | .received co target => ∃ earlier, Exchanges request earlier
      ∧ events = earlier ++ [.request request co target, .receive request target]
  | .served co target call => ∃ earlier, Exchanges request earlier
      ∧ events = earlier ++ [.request request co target, .receive request target,
        .serve request target call]
  | .answered co content => ∃ earlier round, Exchanges request earlier
      ∧ Round request co content round ∧ events = earlier ++ round
  | .woken co content => ∃ earlier round, Exchanges request earlier
      ∧ Round request co content round
      ∧ events = earlier ++ (round ++ [.take request content (some co)])
  | .lost => True

/-- A response that is taken has the content of the answer and wakes the coroutine that waits, and
this is what the coroutine is given. -/
def Fate.Agrees : Fate P V → Label P V → Prop
  | .answered co content, .take _ content' co' => content' = content ∧ co' = some co
  | .woken co content, .resume _ co' outcome' => co' = co ∧ outcome' = some (outcome content)
  | _, _ => True

theorem Fate.Ends.move {request : Key} {events : List (Label P V)} {fate : Fate P V}
    (hends : fate.Ends request events) {label : Label P V} (hkey : label.key = some request)
    (hagrees : fate.Agrees label) : (fate.move label).Ends request (events ++ [label]) := by
  cases fate with
  | idle =>
      cases label with
      | request _ co target =>
          cases hkey
          exact ⟨events, hends, rfl⟩
      | yield _ co =>
          cases hkey
          exact ⟨events, _, hends, .yielded, rfl⟩
      | create => cases hkey
      | _ => trivial
  | pushed co target =>
      obtain ⟨earlier, hearlier, rfl⟩ := hends
      cases label with
      | receive _ target' =>
          cases hkey
          simp only [Fate.move]
          split
          · next hsame =>
              subst hsame
              exact ⟨earlier, hearlier, List.append_assoc _ _ _⟩
          · trivial
      | abort _ target' =>
          cases hkey
          simp only [Fate.move]
          split
          · next hsame =>
              subst hsame
              exact ⟨earlier, _, hearlier, .undelivered target', List.append_assoc _ _ _⟩
          · trivial
      | create => cases hkey
      | _ => trivial
  | received co target =>
      obtain ⟨earlier, hearlier, rfl⟩ := hends
      cases label with
      | serve _ target' call =>
          cases hkey
          simp only [Fate.move]
          split
          · next hsame =>
              subst hsame
              exact ⟨earlier, hearlier, List.append_assoc _ _ _⟩
          · trivial
      | create => cases hkey
      | _ => trivial
  | served co target call =>
      obtain ⟨earlier, hearlier, rfl⟩ := hends
      cases label with
      | answer _ target' call' content =>
          cases hkey
          simp only [Fate.move]
          split
          · next hsame =>
              obtain ⟨rfl, hcalled, rfl⟩ := hsame
              obtain ⟨call', rfl⟩ := Option.isSome_iff_exists.mp hcalled
              exact ⟨earlier, _, hearlier, .answered target' call' content,
                List.append_assoc _ _ _⟩
          · trivial
      | abort _ target' =>
          cases hkey
          simp only [Fate.move]
          split
          · next hsame =>
              subst hsame
              exact ⟨earlier, _, hearlier, .aborted target' call, List.append_assoc _ _ _⟩
          · trivial
      | create => cases hkey
      | _ => trivial
  | answered co content =>
      obtain ⟨earlier, round, hearlier, hround, rfl⟩ := hends
      cases label with
      | take _ content' woken =>
          cases hkey
          obtain ⟨rfl, rfl⟩ := hagrees
          exact ⟨earlier, round, hearlier, hround, List.append_assoc _ _ _⟩
      | create => cases hkey
      | _ => trivial
  | woken co content =>
      obtain ⟨earlier, round, hearlier, hround, rfl⟩ := hends
      cases label with
      | resume _ co' outcome' =>
          cases hkey
          obtain ⟨rfl, rfl⟩ := hagrees
          rw [List.append_assoc, List.append_assoc]
          exact .round hearlier hround
      | create => cases hkey
      | _ => trivial
  | lost =>
      cases label with
      | create => cases hkey
      | _ => trivial

/-! ### What a step does with a response -/

/-- The next message that the process takes is this response. -/
structure Proc.Takes (c : Proc V) (msg : Message V) : Prop where
  runs : c.Runs
  taking : c.machine.pc = .taking
  first : c.mailbox.take.1 = some msg
  type : typeOfMessage msg = .kResponse

/-- It has been answered with this content, and its coroutine is blocked on the session. -/
theorem PairedBut.wakes (hs : PairedBut none s fates) {p : P} {msg : Message V}
    (htakes : (s.proc p).Takes msg) : ∃ co,
    fates ((s.proc p).pid, -msg.session) = .answered co msg.content
      ∧ (-msg.session, co) ∈ (s.proc p).machine.blockSessions
      ∧ ((s.proc p).machine.unblock (-msg.session)).1 = some co := by
  obtain ⟨hruns, hpc, htake, htype⟩ := htakes
  obtain ⟨co, hfate, hplaced⟩ := hs.taken hruns hpc htake htype
  have hasks := hplaced.asks p (up_of_taking hruns hpc) rfl
  have hwaits := (hs.sound p).waits
  exact ⟨co, hfate, (hasks.blocked hwaits hpc).2, (hasks.receive hwaits hpc htake htype).2.1⟩

theorem Step.agrees {label : Label P V} (hstep : Step s label s') (hs : PairedBut none s fates)
    {request : Key} (hkey : label.key = some request) : (fates request).Agrees label := by
  cases hstep with
  | takeResponse p msg hruns hpc htake htype =>
      cases hkey
      obtain ⟨co, hfate, -, hwoken⟩ := hs.wakes ⟨hruns, hpc, htake, htype⟩
      rw [hfate]
      exact ⟨rfl, hwoken⟩
  | resume p co session outcome machine hruns hrequest hexit hstep =>
      cases hkey
      obtain ⟨content, hfate, -, houtcome⟩ := hs.woken hruns hrequest hexit hstep
      rw [hfate]
      exact ⟨rfl, houtcome⟩
  | _ => cases fates request <;> trivial

theorem fate_ends {log : List (Label P V)} (hlog : orderly.Logs observe s log) (request : Key) :
    (fate request log).Ends request (history request log) := by
  induction hlog with
  | init => exact .nil
  | @step s₁ s₂ log label hlog hstep ih =>
      rw [observe, fate_concat, history_concat]
      split
      · next hconcerns =>
          obtain hkey | hcreates := hconcerns
          · exact ih.move hkey (hstep.1.agrees (paired_of_logs hlog) hkey)
          · rw [Fate.move_creates _ hcreates]
            cases label with
            | create p pid =>
                cases hcreates
                exact .created _ p
            | _ => cases hcreates
      · exact ih

/-- When a process that does not exit takes a response, a coroutine is blocked on its session and is
the one that is woken; it has made a request or yielded, and the response is what it was answered
with. And what a coroutine gets from `block` is what its own request was answered with. -/
structure State.Paired (s : State P V) (log : List (Label P V)) : Prop where
  taken : ∀ p msg, (s.proc p).Takes msg → ∃ co earlier round,
    (-msg.session, co) ∈ (s.proc p).machine.blockSessions
      ∧ ((s.proc p).machine.unblock (-msg.session)).1 = some co
      ∧ Round ((s.proc p).pid, -msg.session) co msg.content round
      ∧ history ((s.proc p).pid, -msg.session) log = earlier ++ round
  returned : ∀ request co outcome s', Step s (.resume request co outcome) s' →
    ∃ content earlier round, Round request co content round
      ∧ history request log = earlier ++ (round ++ [.take request content (some co)])
      ∧ outcome = some (Pairing.outcome content)

/-- **Requests and responses are paired**, in every run that keeps to `Label.Orderly`. -/
theorem responses_are_paired {log : List (Label P V)} (hlog : orderly.Logs observe s log) :
    s.Paired log := by
  have hs := paired_of_logs hlog
  refine ⟨fun p msg htakes => ?_, fun request co outcome s' hstep => ?_⟩
  · obtain ⟨co, hfate, hmem, hwoken⟩ := hs.wakes htakes
    have hends := fate_ends hlog ((s.proc p).pid, -msg.session)
    rw [hfate] at hends
    obtain ⟨earlier, round, -, hround, hhistory⟩ := hends
    exact ⟨co, earlier, round, hmem, hwoken, hround, hhistory⟩
  · cases hstep with
    | resume p _ session _ machine hruns hrequest hexit hstep =>
        obtain ⟨content, hfate, -, houtcome⟩ := hs.woken hruns hrequest hexit hstep
        have hends := fate_ends hlog ((s.proc p).pid, session)
        rw [hfate] at hends
        obtain ⟨earlier, round, -, hround, hhistory⟩ := hends
        exact ⟨content, earlier, round, hround, hhistory, houtcome⟩

/-- Two processes. The coroutine of the first one makes a request of the second one, whose coroutine
serves, and is woken by the answer, which it gets. -/
theorem responses_are_paired_two :
    (∃ (s : State Bool Nat) (log : List (Label Bool Nat)), orderly.Logs observe s log
      ∧ (s.proc false).Takes ⟨2, -5, .value 9⟩ ∧ s.Paired log)
      ∧ ∃ (s s' : State Bool Nat) (log : List (Label Bool Nat)), orderly.Logs observe s log
        ∧ Step s (.resume (1, 5) 0 (some (.ok (.value 9)))) s' ∧ s.Paired log := by
  have h0 : orderly.Logs observe (State.fresh : State Bool Nat) [] := .init rfl
  have h1 := h0.step ⟨Step.create false 1 rfl, forgotten_fresh 1⟩
  have h2 := h1.step ⟨Step.create true 2 rfl, (forgotten_fresh 2).create false (by decide)⟩
  -- the second one starts to serve
  have h3 := h2.step ⟨Step.loop true _ _ ⟨rfl, rfl⟩ (.dispatch rfl) rfl nofun nofun, trivial⟩
  have h4 := h3.step ⟨Step.loop true _ _ ⟨rfl, rfl⟩
    (.enter rfl (Or.inl (List.cons_ne_nil _ _))) rfl nofun nofun, trivial⟩
  have h5 := h4.step ⟨Step.loop true _ _ ⟨rfl, rfl⟩ (.resumeSpawned 0 [] rfl rfl ⟨rfl, rfl⟩) rfl
    nofun fun _ _ _ => rfl, trivial⟩
  have h6 := h5.step ⟨Step.call true 0 .spawning _ _ ⟨⟨rfl, rfl⟩, rfl, rfl⟩
    (.awaitInbox 0 .spawning rfl rfl) rfl rfl, trivial⟩
  have h7 := h6.step ⟨Step.call true 0 .spawning _ _ ⟨⟨rfl, rfl⟩, rfl, rfl⟩
    (.suspend 0 .spawning rfl) rfl rfl, trivial⟩
  have h8 := h7.step ⟨Step.loop true _ _ ⟨rfl, rfl⟩ (.spawningDone rfl rfl) rfl nofun nofun, trivial⟩
  have h9 := h8.step ⟨Step.loop true _ _ ⟨rfl, rfl⟩ (.wakingDone rfl rfl (Or.inl rfl)) rfl nofun
    nofun, trivial⟩
  have h10 := h9.step ⟨Step.loop true _ _ ⟨rfl, rfl⟩ (.leave rfl (by decide)) rfl nofun nofun,
    trivial⟩
  have h11 := h10.step ⟨Step.loop true _ _ ⟨rfl, rfl⟩ (.dispatched rfl) rfl nofun nofun, trivial⟩
  -- the first one makes its request
  have h12 := h11.step ⟨Step.loop false _ _ ⟨rfl, rfl⟩ (.dispatch rfl) rfl nofun nofun, trivial⟩
  have h13 := h12.step ⟨Step.loop false _ _ ⟨rfl, rfl⟩
    (.enter rfl (Or.inl (List.cons_ne_nil _ _))) rfl nofun nofun, trivial⟩
  have h14 := h13.step ⟨Step.loop false _ _ ⟨rfl, rfl⟩ (.resumeSpawned 0 [] rfl rfl ⟨rfl, rfl⟩) rfl
    nofun fun _ _ _ => rfl, trivial⟩
  have h15 := h14.step ⟨Step.request false true 0 .spawning 5 (.value 7) _ ⟨⟨rfl, rfl⟩, rfl, rfl⟩
    trivial (Finset.notMem_empty _) rfl, by decide, by decide⟩
  have h16 := h15.step ⟨Step.block false 0 5 _ ⟨rfl, rfl⟩ rfl (.block 0 .spawning 5 rfl), rfl⟩
  -- the second one takes it, and hands it to a callback that answers
  have h17 := h16.step ⟨Step.takeRequest true _ ⟨rfl, rfl⟩ rfl rfl rfl, trivial⟩
  have h18 := h17.step ⟨Step.loop true _ _ ⟨rfl, rfl⟩ (.dispatch rfl) rfl nofun nofun, trivial⟩
  have h19 := h18.step ⟨Step.loop true _ _ ⟨rfl, rfl⟩ (.enter rfl (by decide)) rfl nofun nofun,
    trivial⟩
  have h20 := h19.step ⟨Step.loop true _ _ ⟨rfl, rfl⟩ (.spawningDone rfl rfl) rfl nofun nofun,
    trivial⟩
  have h21 := h20.step ⟨Step.loop true _ _ ⟨rfl, rfl⟩
    (.wakeServer 0 rfl rfl (List.cons_ne_nil _ _) rfl) rfl nofun nofun, trivial⟩
  have h22 := h21.step ⟨Step.loop true _ _ ⟨rfl, rfl⟩ (.enter rfl (by decide)) rfl nofun nofun,
    trivial⟩
  have h23 := h22.step ⟨Step.loop true _ _ ⟨rfl, rfl⟩ (.spawningDone rfl rfl) rfl nofun nofun,
    trivial⟩
  have h24 := h23.step ⟨Step.loop true _ _ ⟨rfl, rfl⟩ (.resumeWoken 0 [] rfl rfl ⟨rfl, rfl⟩) rfl
    nofun fun _ _ _ => rfl, trivial⟩
  have h25 := h24.step ⟨Step.callback true 0 .waking _ _ ⟨⟨rfl, rfl⟩, rfl, rfl⟩ rfl, trivial⟩
  have h26 := h25.step ⟨Step.respond true 0 .waking (.value 9) _ ⟨⟨rfl, rfl⟩, rfl, rfl⟩
    (.found false (by decide +kernel) trivial), 0, Finset.mem_singleton_self _, rfl, rfl⟩
  have h27 := h26.step ⟨Step.close true (1, 5) rfl rfl, trivial⟩
  -- the first one takes the response
  have h28 := h27.step ⟨Step.loop false _ _ ⟨rfl, rfl⟩ (.spawningDone rfl rfl) rfl nofun nofun,
    trivial⟩
  have h29 := h28.step ⟨Step.loop false _ _ ⟨rfl, rfl⟩ (.wakingDone rfl rfl (Or.inl rfl)) rfl nofun
    nofun, trivial⟩
  have h30 := h29.step ⟨Step.loop false _ _ ⟨rfl, rfl⟩ (.leave rfl (by decide)) rfl nofun nofun,
    trivial⟩
  have h31 := h30.step ⟨Step.loop false _ _ ⟨rfl, rfl⟩ (.dispatched rfl) rfl nofun nofun, trivial⟩
  have h32 := h31.step ⟨Step.takeResponse false _ ⟨rfl, rfl⟩ rfl rfl rfl, trivial⟩
  have h33 := h32.step ⟨Step.loop false _ _ ⟨rfl, rfl⟩ (.dispatch rfl) rfl nofun nofun, trivial⟩
  have h34 := h33.step ⟨Step.loop false _ _ ⟨rfl, rfl⟩ (.enter rfl (by decide)) rfl nofun nofun,
    trivial⟩
  have h35 := h34.step ⟨Step.loop false _ _ ⟨rfl, rfl⟩ (.spawningDone rfl rfl) rfl nofun nofun,
    trivial⟩
  refine ⟨⟨_, _, h31, ⟨⟨rfl, rfl⟩, rfl, rfl, rfl⟩, ?_⟩, _, _, _, h35, .resume false 0 5 _ _
    ⟨rfl, rfl⟩ rfl id (.resumeWoken 0 [] rfl rfl ⟨rfl, rfl⟩), ?_⟩
  · exact responses_are_paired h31
  · exact responses_are_paired h35

/-- **The exchanges of a session**: in every run that keeps to `Label.Orderly`, what happens to a
session of a process that lives is one exchange after the other and the beginning of the next one. -/
theorem sessions_are_exchanges {log : List (Label P V)} (hlog : orderly.Logs observe s log)
    {request : Key} (hzero : request.2 ≠ 0) (hlives : s.Lives request.1) :
    ∃ earlier co content round rest, Exchanges request earlier ∧ Round request co content round
      ∧ rest <+: round ++ returned request co content ∧ history request log = earlier ++ rest := by
  have hsensible := ((paired_of_logs hlog).placed request hzero nofun hlives).sensible
  have hends := fate_ends hlog request
  cases hfate : fate request log with
  | idle =>
      rw [hfate] at hends
      exact ⟨_, 0, _, _, [], hends, .yielded, List.nil_prefix, (List.append_nil _).symm⟩
  | pushed co target =>
      rw [hfate] at hends
      obtain ⟨earlier, hearlier, hhistory⟩ := hends
      exact ⟨earlier, co, _, _, [.request request co target], hearlier, .undelivered target,
        ⟨_, rfl⟩, hhistory⟩
  | received co target =>
      rw [hfate] at hends
      obtain ⟨earlier, hearlier, hhistory⟩ := hends
      exact ⟨earlier, co, _, _, [.request request co target, .receive request target], hearlier,
        .aborted target none, ⟨_, rfl⟩, hhistory⟩
  | served co target call =>
      rw [hfate] at hends
      obtain ⟨earlier, hearlier, hhistory⟩ := hends
      exact ⟨earlier, co, _, _, [.request request co target, .receive request target,
        .serve request target call], hearlier, .aborted target call, ⟨_, rfl⟩, hhistory⟩
  | answered co content =>
      rw [hfate] at hends
      obtain ⟨earlier, round, hearlier, hround, hhistory⟩ := hends
      exact ⟨earlier, co, content, round, round, hearlier, hround, List.prefix_append _ _, hhistory⟩
  | woken co content =>
      rw [hfate] at hends
      obtain ⟨earlier, round, hearlier, hround, hhistory⟩ := hends
      refine ⟨earlier, co, content, round, _, hearlier, hround, ?_, hhistory⟩
      exact (List.prefix_append_right_inj round).mpr ⟨_, rfl⟩
  | lost => exact absurd hfate hsensible

/-- A coroutine yields, and goes on. -/
theorem sessions_are_exchanges_yielded : ∃ (s : State Unit Nat) (log : List (Label Unit Nat)),
    orderly.Logs observe s log ∧ history (1, 5) log
        = [.create () 1, .yield (1, 5) 0, .take (1, 5) .empty (some 0),
          .resume (1, 5) 0 (some (.ok .empty))]
      ∧ ∃ earlier co content round rest, Exchanges (1, 5) earlier ∧ Round (1, 5) co content round
        ∧ rest <+: round ++ returned (1, 5) co content ∧ history (1, 5) log = earlier ++ rest := by
  have h0 : orderly.Logs observe (State.fresh : State Unit Nat) [] := .init rfl
  have h1 := h0.step ⟨Step.create () 1 rfl, forgotten_fresh 1⟩
  have h2 := h1.step ⟨Step.loop () _ _ ⟨rfl, rfl⟩ (.dispatch rfl) rfl nofun nofun, trivial⟩
  have h3 := h2.step ⟨Step.loop () _ _ ⟨rfl, rfl⟩
    (.enter rfl (Or.inl (List.cons_ne_nil _ _))) rfl nofun nofun, trivial⟩
  have h4 := h3.step ⟨Step.loop () _ _ ⟨rfl, rfl⟩ (.resumeSpawned 0 [] rfl rfl ⟨rfl, rfl⟩) rfl
    nofun fun _ _ _ => rfl, trivial⟩
  have h5 := h4.step ⟨Step.yield () 0 .spawning 5 ⟨⟨rfl, rfl⟩, rfl, rfl⟩
    (Finset.notMem_empty _), by decide, by decide⟩
  have h6 := h5.step ⟨Step.block () 0 5 _ ⟨rfl, rfl⟩ rfl (.block 0 .spawning 5 rfl), rfl⟩
  have h7 := h6.step ⟨Step.loop () _ _ ⟨rfl, rfl⟩ (.spawningDone rfl rfl) rfl nofun nofun, trivial⟩
  have h8 := h7.step ⟨Step.loop () _ _ ⟨rfl, rfl⟩ (.wakingDone rfl rfl (Or.inl rfl)) rfl nofun
    nofun, trivial⟩
  have h9 := h8.step ⟨Step.loop () _ _ ⟨rfl, rfl⟩ (.leave rfl (by decide)) rfl nofun nofun, trivial⟩
  have h10 := h9.step ⟨Step.loop () _ _ ⟨rfl, rfl⟩ (.dispatched rfl) rfl nofun nofun, trivial⟩
  have h11 := h10.step ⟨Step.takeResponse () _ ⟨rfl, rfl⟩ rfl rfl rfl, trivial⟩
  have h12 := h11.step ⟨Step.loop () _ _ ⟨rfl, rfl⟩ (.dispatch rfl) rfl nofun nofun, trivial⟩
  have h13 := h12.step ⟨Step.loop () _ _ ⟨rfl, rfl⟩ (.enter rfl (by decide)) rfl nofun nofun,
    trivial⟩
  have h14 := h13.step ⟨Step.loop () _ _ ⟨rfl, rfl⟩ (.spawningDone rfl rfl) rfl nofun nofun,
    trivial⟩
  have h15 := h14.step ⟨Step.resume () 0 5 _ _ ⟨rfl, rfl⟩ rfl id
    (.resumeWoken 0 [] rfl rfl ⟨rfl, rfl⟩), trivial⟩
  refine ⟨_, _, h15, rfl, ?_⟩
  exact sessions_are_exchanges h15 (by decide) ⟨(), ⟨rfl, id⟩, rfl⟩

/-- What the processes keep to: sessions are positive as they are signed, and are for `request`,
`yield` and responses alone; a response is made by a handler that has not made one yet, and is no
exception. -/
def Label.Allowed (s : State P V) : Label P V → Prop
  | .send msg => msg.session = 0
  | .call p (.wait _ (some session)) => session ∉ (s.proc p).sessions
  | .request (_, session) _ _ | .yield (_, session) _ =>
    0 < session.toNat ∧ session.toNat < 2 ^ 31
  | .answer _ p served content =>
    (∃ call ∈ (s.proc p).unanswered, served = some call) ∧ ∀ e, content ≠ .exception e
  | _ => True

/-- Two coroutines of the first process make a request each of the second one. The callback for the
first request serves in its turn, the callback for the second one throws, and then the response of
the first callback goes to the coroutine that made the second request. -/
theorem response_misdirected : ∃ (s : State Bool Nat) (log : List (Label Bool Nat)),
    (system.restrict fun s label => label.Allowed s).Logs observe s log
      ∧ history (1, 5) log = [.create false 1, .request (1, 5) 0 true, .receive (1, 5) true,
        .serve (1, 5) true (some 0)]
      ∧ history (1, 6) log = [.create false 1, .request (1, 6) 1 true, .receive (1, 6) true,
        .serve (1, 6) true (some 1), .answer (1, 6) true (some 0) (.value 9)]
      ∧ (s.proc false).Takes ⟨2, -6, .value 9⟩ ∧ ¬ s.Paired log := by
  have h0 : (system.restrict fun s label => label.Allowed s).Logs observe
    (State.fresh : State Bool Nat) [] := .init rfl
  have h1 := h0.step ⟨Step.create false 1 rfl, trivial⟩
  have h2 := h1.step ⟨Step.create true 2 rfl, trivial⟩
  -- the second process starts to serve
  have h3 := h2.step ⟨Step.loop true _ _ ⟨rfl, rfl⟩ (.dispatch rfl) rfl nofun nofun, trivial⟩
  have h4 := h3.step ⟨Step.loop true _ _ ⟨rfl, rfl⟩
    (.enter rfl (Or.inl (List.cons_ne_nil _ _))) rfl nofun nofun, trivial⟩
  have h5 := h4.step ⟨Step.loop true _ _ ⟨rfl, rfl⟩ (.resumeSpawned 0 [] rfl rfl ⟨rfl, rfl⟩) rfl
    nofun fun _ _ _ => rfl, trivial⟩
  have h6 := h5.step ⟨Step.call true 0 .spawning _ _ ⟨⟨rfl, rfl⟩, rfl, rfl⟩
    (.awaitInbox 0 .spawning rfl rfl) rfl rfl, trivial⟩
  have h7 := h6.step ⟨Step.call true 0 .spawning _ _ ⟨⟨rfl, rfl⟩, rfl, rfl⟩
    (.suspend 0 .spawning rfl) rfl rfl, trivial⟩
  have h8 := h7.step ⟨Step.loop true _ _ ⟨rfl, rfl⟩ (.spawningDone rfl rfl) rfl nofun nofun, trivial⟩
  have h9 := h8.step ⟨Step.loop true _ _ ⟨rfl, rfl⟩ (.wakingDone rfl rfl (Or.inl rfl)) rfl nofun
    nofun, trivial⟩
  have h10 := h9.step ⟨Step.loop true _ _ ⟨rfl, rfl⟩ (.leave rfl (by decide)) rfl nofun nofun,
    trivial⟩
  have h11 := h10.step ⟨Step.loop true _ _ ⟨rfl, rfl⟩ (.dispatched rfl) rfl nofun nofun, trivial⟩
  -- the first process makes its requests
  have h12 := h11.step ⟨Step.loop false _ _ ⟨rfl, rfl⟩ (.dispatch rfl) rfl nofun nofun, trivial⟩
  have h13 := h12.step ⟨Step.loop false _ _ ⟨rfl, rfl⟩
    (.enter rfl (Or.inl (List.cons_ne_nil _ _))) rfl nofun nofun, trivial⟩
  have h14 := h13.step ⟨Step.loop false _ _ ⟨rfl, rfl⟩ (.resumeSpawned 0 [] rfl rfl ⟨rfl, rfl⟩) rfl
    nofun fun _ _ _ => rfl, trivial⟩
  have h15 := h14.step ⟨Step.call false 0 .spawning _ _ ⟨⟨rfl, rfl⟩, rfl, rfl⟩
    (.spawn 0 .spawning rfl) rfl rfl, trivial⟩
  have h16 := h15.step ⟨Step.request false true 0 .spawning 5 (.value 7) _ ⟨⟨rfl, rfl⟩, rfl, rfl⟩
    trivial (Finset.notMem_empty _) rfl, by decide, by decide⟩
  have h17 := h16.step ⟨Step.block false 0 5 _ ⟨rfl, rfl⟩ rfl (.block 0 .spawning 5 rfl), trivial⟩
  have h18 := h17.step ⟨Step.loop false _ _ ⟨rfl, rfl⟩ (.resumeSpawned 1 [] rfl rfl ⟨rfl, rfl⟩) rfl
    nofun fun _ _ h => by cases h; rfl, trivial⟩
  have h19 := h18.step ⟨Step.request false true 1 .spawning 6 (.value 8) _ ⟨⟨rfl, rfl⟩, rfl, rfl⟩
    trivial (by decide) rfl, by decide, by decide⟩
  have h20 := h19.step ⟨Step.block false 1 6 _ ⟨rfl, rfl⟩ rfl (.block 1 .spawning 6 rfl), trivial⟩
  have h21 := h20.step ⟨Step.loop false _ _ ⟨rfl, rfl⟩ (.spawningDone rfl rfl) rfl nofun nofun,
    trivial⟩
  have h22 := h21.step ⟨Step.loop false _ _ ⟨rfl, rfl⟩ (.wakingDone rfl rfl (Or.inl rfl)) rfl nofun
    nofun, trivial⟩
  have h23 := h22.step ⟨Step.loop false _ _ ⟨rfl, rfl⟩ (.leave rfl (by decide)) rfl nofun nofun,
    trivial⟩
  have h24 := h23.step ⟨Step.loop false _ _ ⟨rfl, rfl⟩ (.dispatched rfl) rfl nofun nofun, trivial⟩
  -- the first request is handed to a callback, which serves
  have h25 := h24.step ⟨Step.takeRequest true _ ⟨rfl, rfl⟩ rfl rfl rfl, trivial⟩
  have h26 := h25.step ⟨Step.loop true _ _ ⟨rfl, rfl⟩ (.dispatch rfl) rfl nofun nofun, trivial⟩
  have h27 := h26.step ⟨Step.loop true _ _ ⟨rfl, rfl⟩ (.enter rfl (by decide)) rfl nofun nofun,
    trivial⟩
  have h28 := h27.step ⟨Step.loop true _ _ ⟨rfl, rfl⟩ (.spawningDone rfl rfl) rfl nofun nofun,
    trivial⟩
  have h29 := h28.step ⟨Step.loop true _ _ ⟨rfl, rfl⟩
    (.wakeServer 0 rfl rfl (List.cons_ne_nil _ _) rfl) rfl nofun nofun, trivial⟩
  have h30 := h29.step ⟨Step.loop true _ _ ⟨rfl, rfl⟩ (.enter rfl (by decide)) rfl nofun nofun,
    trivial⟩
  have h31 := h30.step ⟨Step.loop true _ _ ⟨rfl, rfl⟩ (.spawningDone rfl rfl) rfl nofun nofun,
    trivial⟩
  have h32 := h31.step ⟨Step.loop true _ _ ⟨rfl, rfl⟩ (.resumeWoken 0 [] rfl rfl ⟨rfl, rfl⟩) rfl
    nofun fun _ _ _ => rfl, trivial⟩
  have h33 := h32.step ⟨Step.callback true 0 .waking _ _ ⟨⟨rfl, rfl⟩, rfl, rfl⟩ rfl, trivial⟩
  have h34 := h33.step ⟨Step.call true 0 .waking _ _ ⟨⟨rfl, rfl⟩, rfl, rfl⟩
    (.awaitInbox 0 .waking rfl rfl) rfl rfl, trivial⟩
  have h35 := h34.step ⟨Step.call true 0 .waking _ _ ⟨⟨rfl, rfl⟩, rfl, rfl⟩
    (.suspend 0 .waking rfl) rfl rfl, trivial⟩
  have h36 := h35.step ⟨Step.loop true _ _ ⟨rfl, rfl⟩ (.wakingDone rfl rfl (Or.inl rfl)) rfl nofun
    nofun, trivial⟩
  have h37 := h36.step ⟨Step.loop true _ _ ⟨rfl, rfl⟩ (.leave rfl (by decide)) rfl nofun nofun,
    trivial⟩
  have h38 := h37.step ⟨Step.loop true _ _ ⟨rfl, rfl⟩ (.dispatched rfl) rfl nofun nofun, trivial⟩
  -- the second request is handed to a callback there, which throws
  have h39 := h38.step ⟨Step.takeRequest true _ ⟨rfl, rfl⟩ rfl rfl rfl, trivial⟩
  have h40 := h39.step ⟨Step.loop true _ _ ⟨rfl, rfl⟩ (.dispatch rfl) rfl nofun nofun, trivial⟩
  have h41 := h40.step ⟨Step.loop true _ _ ⟨rfl, rfl⟩ (.enter rfl (by decide)) rfl nofun nofun,
    trivial⟩
  have h42 := h41.step ⟨Step.loop true _ _ ⟨rfl, rfl⟩ (.spawningDone rfl rfl) rfl nofun nofun,
    trivial⟩
  have h43 := h42.step ⟨Step.loop true _ _ ⟨rfl, rfl⟩
    (.wakeServer 0 rfl rfl (List.cons_ne_nil _ _) rfl) rfl nofun nofun, trivial⟩
  have h44 := h43.step ⟨Step.loop true _ _ ⟨rfl, rfl⟩ (.enter rfl (by decide)) rfl nofun nofun,
    trivial⟩
  have h45 := h44.step ⟨Step.loop true _ _ ⟨rfl, rfl⟩ (.spawningDone rfl rfl) rfl nofun nofun,
    trivial⟩
  have h46 := h45.step ⟨Step.loop true _ _ ⟨rfl, rfl⟩ (.resumeWoken 0 [] rfl rfl ⟨rfl, rfl⟩) rfl
    nofun fun _ _ _ => rfl, trivial⟩
  have h47 := h46.step ⟨Step.callback true 0 .waking _ _ ⟨⟨rfl, rfl⟩, rfl, rfl⟩ rfl, trivial⟩
  have h48 := h47.step ⟨Step.handled true 0 .waking 1 [0] ⟨⟨rfl, rfl⟩, rfl, rfl⟩ rfl, trivial⟩
  -- the first callback answers
  have h49 := h48.step ⟨Step.respond true 0 .waking (.value 9) _ ⟨⟨rfl, rfl⟩, rfl, rfl⟩
    (.found false (by decide +kernel) trivial), ⟨0, by decide, rfl⟩, nofun⟩
  refine ⟨_, _, h49, rfl, rfl, ⟨⟨rfl, rfl⟩, rfl, rfl, rfl⟩, fun hpaired => ?_⟩
  obtain ⟨co, earlier, round, -, -, hround, hhistory⟩ :=
    hpaired.taken false _ ⟨⟨rfl, rfl⟩, rfl, rfl, rfl⟩
  cases hround with
  | answered target call =>
      have hlast : [.create false 1] ++ [.request (1, 6) 1 true, .receive (1, 6) true,
          .serve (1, 6) true (some 1), .answer (1, 6) true (some 0) (.value 9)] = earlier ++ _ :=
        hhistory
      cases (List.append_inj' hlast rfl).2

end Stp.Pairing
