import Stp.Time.Clock
import Stp.Time.Refinement

/-!
# How long a sleep is

The mailbox of the timer service is a queue, so when the service handles a request its wheel has
reached every update that was sent before the request. The timer is armed no earlier than that, and
the response is sent only in a tick towards an update beyond the timer's expiry, which `TIME` had
reached before the update was sent. So a sleep ends past the latest update sent before the request
plus the timeout. It does not end early if that update was at most one behind what the sleeper had
read; but the clock thread may have stored a time that it has yet to send.
-/

namespace Stp.Time

open Process

variable {ι : Type*}

/-- What the wheel will have reached once it has handled a message. -/
def reach (time : Nat) (msg : Message TimerContent) : Nat :=
  match msg.content with
  | .value (.updateMessage timestamp) => max time timestamp.toNat
  | _ => time

def horizon (time : Nat) (messages : List (Message TimerContent)) : Nat :=
  messages.foldl reach time

/-- What the wheel will have reached before it handles another message. -/
def State.reached (s : State ι) : Nat :=
  match s.service with
  | .serving => s.timer.time.toNat
  | .updating time => max s.timer.time.toNat time.toNat

/-- What a sleep is past when it ends. -/
def Nap.deadline (nap : Nap) : Nat := nap.latest.toNat + nap.timeout.toNat

def keyOf (msg : Message TimerContent) : Key := (msg.source, msg.session)

theorem horizon_append (time : Nat) (messages messages' : List (Message TimerContent)) :
    horizon time (messages ++ messages') = horizon (horizon time messages) messages' :=
  List.foldl_append

theorem le_reach (time : Nat) (msg : Message TimerContent) : time ≤ reach time msg := by
  unfold reach
  split
  · exact le_max_left _ _
  · exact le_rfl

theorem le_horizon (messages : List (Message TimerContent)) (time : Nat) :
    time ≤ horizon time messages := by
  induction messages generalizing time with
  | nil => exact le_rfl
  | cons msg messages ih => exact (le_reach time msg).trans (ih (reach time msg))

/-! ### The wheel -/

theorem UInt64.toNat_add_of_le {a b : UInt64} (hle : a ≤ a + b) :
    (a + b).toNat = a.toNat + b.toNat := by
  have hle := UInt64.le_iff_toNat_le.mp hle
  have ha := a.toNat_lt
  have hb := b.toNat_lt
  rw [UInt64.toNat_add] at *
  omega

/-- `_timeout` stores one more node, or the assertion of `_queue` fails. -/
theorem timeout_spec {t t' : Timer} (hplaced : t.Placed) {source : ProcessT} {session : SessionT}
    {d : UInt64} (htimeout : timeout t source session d = some t') :
    t'.Placed ∧ t'.time = t.time
      ∧ ∃ node, t'.stored = node ::ₘ t.stored ∧ node.key = (source, session)
        ∧ node.due = t.time.toNat + d.toNat := by
  have hexpire : t.time ≤ t.time + d := by
    by_contra hlt
    rw [timeout, queue] at htimeout
    simp only [UInt64.not_le.mp hlt, if_true] at htimeout
    cases htimeout
  obtain ⟨t₁, hqueue, htime, hplaced₁, hstored⟩ :=
    queue_spec hplaced (show t.time ≤ (TimerNode.mk (t.time + d) source session).expire from hexpire)
  obtain rfl : t₁ = t' := Option.some.inj (hqueue.symm.trans htimeout)
  exact ⟨hplaced₁, htime, _, hstored, rfl, UInt64.toNat_add_of_le hexpire⟩

/-- In the loop of `_update`, a tick moves the nodes that expire now from the lists to the sent
ones. -/
theorem tick_behind {t t' : Timer} {time : UInt64} {sent : List TimerNode} (hplaced : t.Placed)
    (hbehind : t.time < time) (htick : tick t = some (sent, t')) :
    t'.Placed ∧ t'.time.toNat = t.time.toNat + 1 ∧ t'.stored + sent = t.stored
      ∧ ∀ node ∈ sent, node.due = t.time.toNat := by
  have hlt := UInt64.lt_iff_toNat_lt.mp hbehind
  have hbound := time.toNat_lt
  obtain ⟨sent₁, t₁, htick₁, htime, hplaced₁, hstored, hsent⟩ := tick_spec hplaced (by omega)
  obtain ⟨rfl, rfl⟩ := Prod.mk.inj (Option.some.inj (htick₁.symm.trans htick))
  exact ⟨hplaced₁, htime, hstored, fun node hnode => congrArg UInt64.toNat (hsent node hnode)⟩

/-- The wheel gets as far as the message asks for, and a request stores a node. -/
theorem State.handle_spec {s s' : State ι} {msg : Message TimerContent}
    (hhandle : s.handle msg = some s') (hservice : s.service = .serving)
    (hplaced : s.timer.Placed) :
    s'.reached = reach s.reached msg ∧ s'.timer.Placed
      ∧ s' = { s with timer := s'.timer, service := s'.service }
      ∧ ((∃ d node, msg.content = .value (.timeoutRequest d)
          ∧ s'.timer.stored = node ::ₘ s.timer.stored ∧ node.key = keyOf msg
          ∧ node.due = s.reached + d.toNat)
        ∨ (∀ d, msg.content ≠ .value (.timeoutRequest d)) ∧ s'.timer = s.timer) := by
  have hreached : s.reached = s.timer.time.toNat := by rw [State.reached, hservice]
  unfold State.handle at hhandle
  split at hhandle
  · next d hcontent =>
      obtain ⟨timer, htimeout, rfl⟩ := Option.map_eq_some_iff.mp hhandle
      obtain ⟨hplaced', htime, node, hstored, hkey, hdue⟩ := timeout_spec hplaced htimeout
      refine ⟨?_, hplaced', rfl, Or.inl ⟨d, node, hcontent, hstored, hkey, hreached ▸ hdue⟩⟩
      simp only [State.reached, hservice, reach, hcontent, htime]
  · next timestamp hcontent =>
      obtain rfl := Option.some.inj hhandle
      refine ⟨?_, hplaced, rfl, Or.inr ⟨fun d hd => ?_, rfl⟩⟩
      · simp only [State.reached, hservice, reach, hcontent]
      · rw [hcontent] at hd
        cases hd
  · next hrequest hupdate =>
      obtain rfl := Option.some.inj hhandle
      refine ⟨?_, hplaced, rfl, Or.inr ⟨hrequest, rfl⟩⟩
      unfold reach
      split
      · next timestamp hcontent => exact absurd hcontent (hupdate timestamp)
      · rfl

/-! ### The clock and the wheel -/

structure Clocked (s : State ι) : Prop where
  placed : s.timer.Placed
  stored : ∀ time, s.clock = .stored time → time = s.time
  latest : s.latest.toNat ≤ horizon s.reached s.mailbox.messages
  horizon : horizon s.reached s.mailbox.messages ≤ s.time.toNat

variable [DecidableEq ι]

theorem Step.clocked {s s' : State ι} (hstep : Step s s') (hs : Clocked s) : Clocked s' := by
  obtain ⟨hplaced, hstored, hlatest, hhorizon⟩ := hs
  cases hstep with
  | store time hclock hlater =>
      refine ⟨hplaced, ?_, hlatest, ?_⟩
      · intro time' htime'
        cases htime'
        rfl
      · exact hhorizon.trans (UInt64.le_iff_toNat_le.mp (UInt64.le_of_lt hlater))
  | send time hclock =>
      obtain rfl := hstored time hclock
      have happend : horizon s.reached (s.mailbox.messages ++ [updateMessage s.time])
          = max (horizon s.reached s.mailbox.messages) s.time.toNat := by
        rw [horizon_append]
        rfl
      have hmessages : (s.push (updateMessage s.time)).mailbox.messages
          = s.mailbox.messages ++ [updateMessage s.time] := Mailbox.append_messages _ _
      refine ⟨hplaced, nofun, ?_, ?_⟩
      · simp only [hmessages]
        exact (le_max_right _ _).trans_eq happend.symm
      · simp only [hmessages]
        exact happend.trans_le (max_le hhorizon le_rfl)
  | readBefore | readAfter | again | wake | exchange => exact ⟨hplaced, hstored, hlatest, hhorizon⟩
  | request i nap =>
      have hmessages : (s.push nap.request).mailbox.messages
          = s.mailbox.messages ++ [nap.request] := Mailbox.append_messages _ _
      have hsame : horizon s.reached (s.mailbox.messages ++ [nap.request])
          = horizon s.reached s.mailbox.messages := by
        rw [horizon_append]
        rfl
      refine ⟨hplaced, hstored, ?_, ?_⟩ <;> simp only [State.setCaller, hmessages]
      · exact hlatest.trans_eq hsame.symm
      · exact hsame.trans_le hhorizon
  | take msg _ hservice htake hhandle =>
      obtain ⟨hreached, hplaced', hsame, -⟩ := State.handle_spec hhandle hservice hplaced
      have hhorizon' : horizon s'.reached s'.mailbox.messages
          = horizon s.reached s.mailbox.messages := by
        rw [Mailbox.take_some htake, hreached, hsame]
        rfl
      refine ⟨hplaced', ?_, ?_, ?_⟩
      · rw [hsame]
        exact hstored
      · rw [hhorizon', hsame]
        exact hlatest
      · rw [hhorizon', hsame]
        exact hhorizon
  | takeNothing hservice htake =>
      obtain ⟨hnone, hnone'⟩ := Mailbox.take_none htake
      rw [hnone] at hlatest hhorizon
      refine ⟨hplaced, hstored, ?_, ?_⟩ <;> simp only [hnone']
      · exact hlatest
      · exact hhorizon
  | tick time sent timer hservice hbehind htick =>
      obtain ⟨hplaced', htime, -⟩ := tick_behind hplaced hbehind htick
      have hlt := UInt64.lt_iff_toNat_lt.mp hbehind
      have hsame : max timer.time.toNat time.toNat = s.reached := by
        simp only [State.reached, hservice]
        omega
      refine ⟨hplaced', hstored, ?_, ?_⟩ <;> simp only [State.reached, hservice] <;> rw [hsame]
      · exact hlatest
      · exact hhorizon
  | updated time hservice hreached =>
      have hle := UInt64.le_iff_toNat_le.mp (UInt64.not_lt.mp hreached)
      have hsame : s.reached = s.timer.time.toNat := by
        simp only [State.reached, hservice]
        exact max_eq_left hle
      rw [hsame] at hlatest hhorizon
      exact ⟨hplaced, hstored, hlatest, hhorizon⟩

/-! ### Where a request is -/

/-- What is known of the wait of a nap, wherever its request is. -/
structure Nap.Tracked (nap : Nap) (s : State ι) : Prop where
  session : nap.session ≠ 0
  time : nap.time.toNat ≤ s.time.toNat
  requested : ∀ before msg after, s.mailbox.messages = before ++ msg :: after → keyOf msg = nap.key →
    msg = nap.request ∧ nap.latest.toNat ≤ horizon s.reached before
  armed : ∀ node ∈ s.timer.stored, node.key = nap.key → nap.deadline ≤ node.due
  responded : nap.key ∈ s.responses → nap.deadline < s.time.toNat

/-- The sessions in the messages, the lists of the wheel and the responses. -/
def State.sessions (s : State ι) : Multiset Key :=
  (s.mailbox.messages.map keyOf : Multiset Key) + s.timer.stored.map TimerNode.key
    + (s.responses : Multiset Key)

theorem Step.tracked {s s' : State ι} (hstep : Step s s') (hs : Clocked s) {i : ι} {nap : Nap}
    (hcaller : s.caller i = .waiting nap) (hnap : nap.Tracked s) : nap.Tracked s' := by
  obtain ⟨hsession, htime, hrequested, harmed, hresponded⟩ := hnap
  cases hstep with
  | store time hclock hlater =>
      have hlater := UInt64.lt_iff_toNat_lt.mp hlater
      exact ⟨hsession, htime.trans hlater.le, hrequested, harmed,
        fun hresponse => (hresponded hresponse).trans hlater⟩
  | readBefore | readAfter | again | exchange => exact ⟨hsession, htime, hrequested, harmed, hresponded⟩
  | wake => exact ⟨hsession, htime, hrequested, harmed,
      fun hresponse => hresponded (List.mem_of_mem_erase hresponse)⟩
  | send time hclock =>
      refine ⟨hsession, htime, ?_, harmed, hresponded⟩
      intro before msg after hsplit hkey
      have hsplit := (Mailbox.append_messages _ _).symm.trans hsplit
      obtain ⟨-, rfl, -⟩ | ⟨middle, hsplit, -⟩ := Transition.split_concat hsplit
      · exact absurd (congrArg Prod.snd hkey).symm hsession
      · exact hrequested before msg middle hsplit hkey
  | request j other hcaller' hsession' hfree =>
      refine ⟨hsession, htime, ?_, harmed, hresponded⟩
      intro before msg after hsplit hkey
      have hsplit := (Mailbox.append_messages _ _).symm.trans hsplit
      obtain ⟨-, rfl, -⟩ | ⟨middle, hsplit, -⟩ := Transition.split_concat hsplit
      · exact absurd hkey.symm (hfree i nap hcaller)
      · exact hrequested before msg middle hsplit hkey
  | take msg _ hservice htake hhandle =>
      obtain ⟨hreached, -, hsame, hhandled⟩ := State.handle_spec hhandle hservice hs.placed
      have hmessages : s.mailbox.messages = msg :: s'.mailbox.messages := by
        rw [hsame]
        exact Mailbox.take_some htake
      have hrest : ∀ before msg' after, s'.mailbox.messages = before ++ msg' :: after →
          keyOf msg' = nap.key → msg' = nap.request ∧ nap.latest.toNat ≤ horizon s'.reached before := by
        intro before msg' after hsplit hkey
        have hsplit : s.mailbox.messages = (msg :: before) ++ msg' :: after := by
          rw [hmessages, hsplit]
          rfl
        rw [hreached]
        exact hrequested (msg :: before) msg' after hsplit hkey
      refine ⟨hsession, ?_, hrest, ?_, ?_⟩
      · rw [hsame]
        exact htime
      · intro node hnode hkey
        obtain ⟨d, node', hcontent, hstored, hkey', hdue⟩ | ⟨-, htimer⟩ := hhandled
        · rw [hstored] at hnode
          obtain rfl | hnode := Multiset.mem_cons.mp hnode
          · -- the wheel has reached what was sent before the request
            obtain ⟨rfl, hlatest⟩ := hrequested [] msg _ hmessages (hkey'.symm.trans hkey)
            cases hcontent
            rw [Nap.deadline, hdue]
            exact Nat.add_le_add_right hlatest _
          · exact harmed node hnode hkey
        · rw [htimer] at hnode
          exact harmed node hnode hkey
      · rw [hsame]
        exact hresponded
  | takeNothing hservice htake =>
      refine ⟨hsession, htime, ?_, harmed, hresponded⟩
      intro before msg after hsplit
      rw [(Mailbox.take_none htake).2] at hsplit
      simp at hsplit
  | tick time sent timer hservice hbehind htick =>
      obtain ⟨-, htime', hstored, hsent⟩ := tick_behind hs.placed hbehind htick
      have hlt := UInt64.lt_iff_toNat_lt.mp hbehind
      have hreached : max timer.time.toNat time.toNat = s.reached := by
        simp only [State.reached, hservice]
        omega
      refine ⟨hsession, htime, ?_, ?_, ?_⟩
      · intro before msg after hsplit hkey
        simp only [State.reached, hservice]
        rw [hreached]
        exact hrequested before msg after hsplit hkey
      · intro node hnode
        exact harmed node (hstored ▸ Multiset.mem_add.mpr (Or.inl hnode))
      · intro hresponse
        obtain hresponse | hresponse := List.mem_append.mp hresponse
        · exact hresponded hresponse
        · -- `TIME` had reached the update that the wheel ticks towards
          obtain ⟨node, hnode, hkey⟩ := List.mem_map.mp hresponse
          have hdeadline := harmed node
            (hstored ▸ Multiset.mem_add.mpr (Or.inr (Multiset.mem_coe.mpr hnode))) hkey
          have hdue := hsent node hnode
          have htarget : s.reached ≤ s.time.toNat := (le_horizon _ _).trans hs.horizon
          have := le_max_right timer.time.toNat time.toNat
          simp only
          omega
  | updated time hservice hreached =>
      have hle := UInt64.le_iff_toNat_le.mp (UInt64.not_lt.mp hreached)
      have hsame : s.reached = s.timer.time.toNat := by
        simp only [State.reached, hservice]
        exact max_eq_left hle
      rw [hsame] at hrequested
      exact ⟨hsession, htime, hrequested, harmed, hresponded⟩

omit [DecidableEq ι] in
theorem State.sessions_push (s : State ι) (msg : Message TimerContent) :
    (s.push msg).sessions = keyOf msg ::ₘ s.sessions := by
  have hmessages : (((s.mailbox.messages ++ [msg]).map keyOf : List Key) : Multiset Key)
      = keyOf msg ::ₘ (s.mailbox.messages.map keyOf : Multiset Key) := by
    rw [List.map_append, ← Multiset.coe_add, add_comm]
    rfl
  simp only [State.sessions, State.push, Mailbox.append_messages, hmessages, Multiset.cons_add]

/-- Taking a message moves a session from the mailbox to the wheel, or drops it. -/
theorem Step.sessions {s s' : State ι} (hstep : Step s s') (hs : Clocked s) :
    s'.sessions ≤ s.sessions ∨ (∃ time, s'.sessions = keyOf (updateMessage time) ::ₘ s.sessions)
      ∨ ∃ i nap, s'.caller i = .waiting nap ∧ s'.sessions = nap.key ::ₘ s.sessions
        ∧ ∀ j other, s.caller j = .waiting other → other.key ≠ nap.key := by
  cases hstep with
  | store | readBefore | readAfter | again | updated | exchange => exact Or.inl le_rfl
  | send time hclock => exact Or.inr (Or.inl ⟨time, s.sessions_push _⟩)
  | request i nap _ _ hfree =>
      exact Or.inr (Or.inr ⟨i, nap, Function.update_self _ _ _, s.sessions_push _, hfree⟩)
  | wake i nap hcaller hresponse =>
      refine Or.inl (add_le_add_right ?_ _)
      exact Multiset.coe_le.mpr (List.erase_sublist (a := nap.key)).subperm
  | take msg _ hservice htake hhandle =>
      refine Or.inl ?_
      obtain ⟨-, -, hsame, hhandled⟩ := State.handle_spec hhandle hservice hs.placed
      have hmessages : s.mailbox.messages = msg :: s'.mailbox.messages := by
        rw [hsame]
        exact Mailbox.take_some htake
      have hresponses : s'.responses = s.responses := by rw [hsame]
      have hcons : ((s.mailbox.messages.map keyOf : List Key) : Multiset Key)
          = keyOf msg ::ₘ (s'.mailbox.messages.map keyOf : Multiset Key) := by
        rw [hmessages]
        rfl
      simp only [State.sessions, hcons, hresponses]
      obtain ⟨d, node, -, hstored, hnode, -⟩ | ⟨-, htimer⟩ := hhandled
      · simp only [hstored, Multiset.map_cons, hnode, Multiset.add_cons, Multiset.cons_add]
        exact le_rfl
      · rw [htimer]
        exact add_le_add_left (add_le_add_left (Multiset.le_cons_self _ _) _) _
  | takeNothing hservice htake =>
      obtain ⟨hnone, hnone'⟩ := Mailbox.take_none htake
      simp only [State.sessions, hnone, hnone']
      exact Or.inl le_rfl
  | tick time sent timer hservice hbehind htick =>
      refine Or.inl (le_of_eq ?_)
      obtain ⟨-, -, hstored, -⟩ := tick_behind hs.placed hbehind htick
      simp only [State.sessions, ← hstored, ← Multiset.coe_add, ← Multiset.map_coe,
        Multiset.map_add]
      abel

/-! ### The sleepers -/

structure Timely (s : State ι) : Prop where
  clocked : Clocked s
  tracked : ∀ i nap, s.caller i = .waiting nap → nap.Tracked s
  distinct : ∀ i j nap other, s.caller i = .waiting nap → s.caller j = .waiting other →
    nap.key = other.key → i = j
  once : ∀ key : Key, key.2 ≠ 0 → s.sessions.count key ≤ 1
  owned : ∀ key ∈ s.sessions, key.2 ≠ 0 → ∃ i nap, s.caller i = .waiting nap ∧ nap.key = key
  woken : ∀ i nap, s.caller i = .woken nap →
    nap.deadline < s.time.toNat ∧ nap.time.toNat ≤ s.time.toNat
  done : ∀ i nap after, s.caller i = .done nap after →
    nap.deadline < after.toNat ∧ nap.time.toNat ≤ after.toNat

theorem State.setCaller_caller (s : State ι) (i j : ι) (caller : Caller) :
    (s.setCaller i caller).caller j = if j = i then caller else s.caller j :=
  Function.update_apply _ _ _ _

/-- What a step from `s` to `s'` does to coroutine `i`. -/
inductive CallerStep (s s' : State ι) (i : ι) : Prop
  | same (hsame : s'.caller i = s.caller i)
  | rests (hbefore : ∀ nap, s.caller i ≠ .waiting nap)
      (hafter : s'.caller i = .idle ∨ ∃ before, s'.caller i = .awake before)
  | asks (nap : Nap) (hbefore : s.caller i = .awake nap.before) (hsession : 0 < nap.session.toInt32)
      (hfree : ∀ j other, s.caller j = .waiting other → other.key ≠ nap.key)
      (hlatest : nap.latest = s.latest) (htime : nap.time = s.time)
      (hafter : s' = (s.push nap.request).setCaller i (.waiting nap))
  | wakes (nap : Nap) (hbefore : s.caller i = .waiting nap) (hresponse : nap.key ∈ s.responses)
      (hafter : s'.caller i = .woken nap) (hsessions : nap.key ::ₘ s'.sessions = s.sessions)
  | reads (nap : Nap) (hbefore : s.caller i = .woken nap) (hafter : s'.caller i = .done nap s.time)

theorem Step.caller {s s' : State ι} (hstep : Step s s') (hs : Clocked s) (i : ι) :
    CallerStep s s' i := by
  cases hstep with
  | store | send | takeNothing | exchange | tick | updated => exact .same rfl
  | take msg _ hservice htake hhandle =>
      obtain ⟨-, -, hsame, -⟩ := State.handle_spec hhandle hservice hs.placed
      exact .same (by rw [hsame])
  | readBefore j hcaller =>
      by_cases hij : i = j
      · subst hij
        refine .rests (fun nap hwaiting => ?_) (Or.inr ⟨s.time, Function.update_self _ _ _⟩)
        rw [hcaller] at hwaiting
        cases hwaiting
      · exact .same (Function.update_of_ne hij _ _)
  | request j nap hcaller hsession hfree hlatest htime =>
      by_cases hij : i = j
      · subst hij
        exact .asks nap hcaller hsession hfree hlatest htime rfl
      · exact .same (Function.update_of_ne hij _ _)
  | wake j nap hcaller hresponse =>
      by_cases hij : i = j
      · subst hij
        refine .wakes nap hcaller hresponse (Function.update_self _ _ _) ?_
        have hcons : (s.responses : Multiset Key) = nap.key ::ₘ (s.responses.erase nap.key : List Key) :=
          Multiset.coe_eq_coe.mpr (List.perm_cons_erase hresponse)
        simp only [State.sessions, State.setCaller, hcons, Multiset.add_cons]
      · exact .same (Function.update_of_ne hij _ _)
  | readAfter j nap hcaller =>
      by_cases hij : i = j
      · subst hij
        exact .reads nap hcaller (Function.update_self _ _ _)
      · exact .same (Function.update_of_ne hij _ _)
  | again j nap after hcaller =>
      by_cases hij : i = j
      · subst hij
        refine .rests (fun nap hwaiting => ?_) (Or.inl (Function.update_self _ _ _))
        rw [hcaller] at hwaiting
        cases hwaiting
      · exact .same (Function.update_of_ne hij _ _)

theorem Step.time_le {s s' : State ι} (hstep : Step s s') (hs : Clocked s) :
    s.time.toNat ≤ s'.time.toNat := by
  cases hstep with
  | store time hclock hlater => exact (UInt64.lt_iff_toNat_lt.mp hlater).le
  | take msg _ hservice htake hhandle =>
      obtain ⟨-, -, hsame, -⟩ := State.handle_spec hhandle hservice hs.placed
      rw [hsame]
  | _ => exact le_rfl

/-- A session goes on to belong to its sleeper. -/
theorem Step.owned {s s' : State ι} (hstep : Step s s') (hs : Timely s) {key : Key}
    (hkey : key.2 ≠ 0) (hbefore : key ∈ s.sessions) (hafter : key ∈ s'.sessions) :
    ∃ i nap, s'.caller i = .waiting nap ∧ nap.key = key := by
  obtain ⟨i, nap, hwaiting, rfl⟩ := hs.owned key hbefore hkey
  refine ⟨i, nap, ?_, rfl⟩
  cases hstep.caller hs.clocked i with
  | same hsame => rw [hsame, hwaiting]
  | rests hrests => exact absurd hwaiting (hrests nap)
  | asks other hawake =>
      rw [hwaiting] at hawake
      cases hawake
  | wakes other hother hresponse hwoken hsessions =>
      obtain rfl : nap = other := Caller.waiting.inj (hwaiting.symm.trans hother)
      have honce := hs.once nap.key hkey
      have hpositive := Multiset.count_pos.mpr hafter
      rw [← hsessions, Multiset.count_cons_self] at honce
      omega
  | reads other hwoken =>
      rw [hwaiting] at hwoken
      cases hwoken

theorem session_ne_zero {session : SessionT} (hsession : 0 < session.toInt32) : session ≠ 0 := by
  rintro rfl
  exact absurd hsession (by decide)

/-- Nothing is left of a session that no sleeper uses. -/
theorem Nap.tracked_fresh {s : State ι} {i : ι} {nap : Nap} (hs : Clocked s)
    (hsession : 0 < nap.session.toInt32) (hlatest : nap.latest = s.latest) (htime : nap.time = s.time)
    (hunused : nap.key ∉ s.sessions) :
    nap.Tracked ((s.push nap.request).setCaller i (.waiting nap)) := by
  simp only [State.sessions, Multiset.mem_add, Multiset.mem_coe, Multiset.mem_map, List.mem_map,
    not_or, not_exists, not_and] at hunused
  obtain ⟨⟨hmessages, hnodes⟩, hresponses⟩ := hunused
  refine ⟨?_, ?_, ?_, ?_, ?_⟩
  · exact session_ne_zero hsession
  · rw [htime]
    exact le_rfl
  · intro before msg after hsplit hkey
    have hsplit := (Mailbox.append_messages _ _).symm.trans hsplit
    obtain ⟨rfl, rfl, -⟩ | ⟨middle, hsplit, -⟩ := Transition.split_concat hsplit
    · rw [hlatest]
      exact ⟨rfl, hs.latest⟩
    · refine absurd hkey (hmessages msg ?_)
      rw [hsplit]
      exact List.mem_append_right _ (List.mem_cons_self)
  · intro node hnode hkey
    exact absurd hkey (hnodes node hnode)
  · intro hresponse
    exact absurd hresponse hresponses

theorem Step.tracks {s s' : State ι} (hstep : Step s s') (hs : Timely s) {i : ι} {nap : Nap}
    (hwaiting : s'.caller i = .waiting nap) : nap.Tracked s' := by
  cases hstep.caller hs.clocked i with
  | same hsame =>
      rw [hsame] at hwaiting
      exact hstep.tracked hs.clocked hwaiting (hs.tracked i nap hwaiting)
  | asks other hawake hsession hfree hlatest htime hafter =>
      subst hafter
      rw [State.setCaller_caller, if_pos rfl] at hwaiting
      obtain rfl := Caller.waiting.inj hwaiting
      refine Nap.tracked_fresh hs.clocked hsession hlatest htime fun hused => ?_
      obtain ⟨j, nap, hnap, hkey⟩ := hs.owned _ hused (session_ne_zero hsession)
      exact hfree j nap hnap hkey
  | rests hbefore hafter =>
      rw [hwaiting] at hafter
      obtain hafter | ⟨before, hafter⟩ := hafter <;> cases hafter
  | wakes other hother hresponse hafter | reads other hother hafter =>
      rw [hwaiting] at hafter
      cases hafter

theorem Step.once {s s' : State ι} (hstep : Step s s') (hs : Timely s) {key : Key}
    (hkey : key.2 ≠ 0) : s'.sessions.count key ≤ 1 := by
  have honce := hs.once key hkey
  obtain hle | ⟨time, hupdate⟩ | ⟨i, nap, -, hrequest, hfree⟩ := hstep.sessions hs.clocked
  · exact (Multiset.count_le_of_le key hle).trans honce
  · have hne : key ≠ keyOf (updateMessage time) := fun hsame => hkey (congrArg Prod.snd hsame)
    rw [hupdate, Multiset.count_cons_of_ne hne]
    exact honce
  · rw [hrequest]
    by_cases hsame : key = nap.key
    · have hnone : s.sessions.count key = 0 := by
        refine Multiset.count_eq_zero.mpr fun hused => ?_
        obtain ⟨j, other, hother, hother'⟩ := hs.owned key hused hkey
        exact hfree j other hother (hother'.trans hsame)
      rw [← hsame, Multiset.count_cons_self, hnone]
    · rw [Multiset.count_cons_of_ne hsame]
      exact honce

theorem Step.owns {s s' : State ι} (hstep : Step s s') (hs : Timely s) {key : Key}
    (hused : key ∈ s'.sessions) (hkey : key.2 ≠ 0) :
    ∃ i nap, s'.caller i = .waiting nap ∧ nap.key = key := by
  obtain hle | ⟨time, hupdate⟩ | ⟨i, nap, hnap, hrequest, -⟩ := hstep.sessions hs.clocked
  · exact hstep.owned hs hkey (Multiset.mem_of_le hle hused) hused
  · refine hstep.owned hs hkey ?_ hused
    rw [hupdate] at hused
    refine (Multiset.mem_cons.mp hused).resolve_left ?_
    rintro rfl
    exact hkey rfl
  · by_cases hsame : key = nap.key
    · exact ⟨i, nap, hnap, hsame.symm⟩
    · refine hstep.owned hs hkey ?_ hused
      rw [hrequest] at hused
      exact (Multiset.mem_cons.mp hused).resolve_left hsame

theorem Step.woken {s s' : State ι} (hstep : Step s s') (hs : Timely s) {i : ι} {nap : Nap}
    (hwoken : s'.caller i = .woken nap) :
    nap.deadline < s'.time.toNat ∧ nap.time.toNat ≤ s'.time.toNat := by
  have htime := hstep.time_le hs.clocked
  cases hstep.caller hs.clocked i with
  | same hsame =>
      obtain ⟨hdeadline, hpushed⟩ := hs.woken i nap (hsame ▸ hwoken)
      exact ⟨hdeadline.trans_le htime, hpushed.trans htime⟩
  | wakes other hother hresponse hafter =>
      rw [hwoken] at hafter
      obtain rfl := Caller.woken.inj hafter
      have htracked := hs.tracked i nap hother
      exact ⟨(htracked.responded hresponse).trans_le htime, htracked.time.trans htime⟩
  | asks other hawake hsession hfree hlatest htime hafter =>
      subst hafter
      rw [State.setCaller_caller, if_pos rfl] at hwoken
      cases hwoken
  | rests hbefore hafter =>
      rw [hwoken] at hafter
      obtain hafter | ⟨before, hafter⟩ := hafter <;> cases hafter
  | reads other hother hafter =>
      rw [hwoken] at hafter
      cases hafter

theorem Step.done {s s' : State ι} (hstep : Step s s') (hs : Timely s) {i : ι} {nap : Nap}
    {after : UInt64} (hdone : s'.caller i = .done nap after) :
    nap.deadline < after.toNat ∧ nap.time.toNat ≤ after.toNat := by
  cases hstep.caller hs.clocked i with
  | same hsame => exact hs.done i nap after (hsame ▸ hdone)
  | reads other hother hafter =>
      rw [hdone] at hafter
      obtain ⟨rfl, rfl⟩ := Caller.done.inj hafter
      exact hs.woken i nap hother
  | asks other hawake hsession hfree hlatest htime hafter =>
      subst hafter
      rw [State.setCaller_caller, if_pos rfl] at hdone
      cases hdone
  | rests hbefore hafter =>
      rw [hdone] at hafter
      obtain hafter | ⟨before, hafter⟩ := hafter <;> cases hafter
  | wakes other hother hresponse hafter =>
      rw [hdone] at hafter
      cases hafter

/-- A sleeper that is new, or was asleep before. -/
theorem Step.waiting {s s' : State ι} (hstep : Step s s') (hs : Timely s) {i : ι} {nap : Nap}
    (hwaiting : s'.caller i = .waiting nap) :
    s.caller i = .waiting nap
      ∨ ((∀ j, j ≠ i → s'.caller j = s.caller j)
        ∧ ∀ j other, s.caller j = .waiting other → other.key ≠ nap.key) := by
  cases hstep.caller hs.clocked i with
  | same hsame => exact Or.inl (hsame ▸ hwaiting)
  | asks other hawake hsession hfree hlatest htime hafter =>
      subst hafter
      rw [State.setCaller_caller, if_pos rfl] at hwaiting
      obtain rfl := Caller.waiting.inj hwaiting
      exact Or.inr ⟨fun j hj => Function.update_of_ne hj _ _, hfree⟩
  | rests hbefore hafter =>
      rw [hwaiting] at hafter
      obtain hafter | ⟨before, hafter⟩ := hafter <;> cases hafter
  | wakes other hother hresponse hafter | reads other hother hafter =>
      rw [hwaiting] at hafter
      cases hafter

theorem Step.distinct {s s' : State ι} (hstep : Step s s') (hs : Timely s) {i j : ι}
    {nap other : Nap} (hnap : s'.caller i = .waiting nap) (hother : s'.caller j = .waiting other)
    (hkey : nap.key = other.key) : i = j := by
  by_contra hij
  obtain hnap' | ⟨hsame, hfree⟩ := hstep.waiting hs hnap
  · obtain hother' | ⟨-, hfree⟩ := hstep.waiting hs hother
    · exact hij (hs.distinct i j nap other hnap' hother' hkey)
    · exact hfree i nap hnap' hkey
  · exact hfree j other (hsame j (Ne.symm hij) ▸ hother) hkey.symm

theorem Step.timely {s s' : State ι} (hstep : Step s s') (hs : Timely s) : Timely s' where
  clocked := hstep.clocked hs.clocked
  tracked _ _ hwaiting := hstep.tracks hs hwaiting
  distinct _ _ _ _ hnap hother hkey := hstep.distinct hs hnap hother hkey
  once _ hkey := hstep.once hs hkey
  owned _ hused hkey := hstep.owns hs hused hkey
  woken _ _ hwoken := hstep.woken hs hwoken
  done _ _ _ hdone := hstep.done hs hdone

omit [DecidableEq ι] in
theorem State.sessions_fresh : (State.fresh : State ι).sessions = 0 := by
  simp [State.sessions, State.fresh, Mailbox.empty, Mailbox.messages, Timer.stored_fresh]

omit [DecidableEq ι] in
theorem timely_fresh : Timely (State.fresh : State ι) where
  clocked := ⟨Timer.placed_fresh, nofun, le_rfl, le_rfl⟩
  tracked _ _ := nofun
  distinct _ _ _ _ := nofun
  once key _ := by
    rw [State.sessions_fresh, Multiset.count_zero]
    exact Nat.zero_le 1
  owned key hused := by
    rw [State.sessions_fresh] at hused
    exact absurd hused (Multiset.notMem_zero key)
  woken _ _ := nofun
  done _ _ _ := nofun

theorem timely_of_reachable {s : State ι} (hs : system.Reachable s) : Timely s := by
  refine Transition.System.Reachable.invariant ?_ ?_ hs
  · rintro s rfl
    exact timely_fresh
  · intro s _ s' _ hs hstep
    exact hstep.timely hs

/-- **Sleep.** A sleep that was requested when the latest update sent was at most one behind what
the sleeper had read, or when the time to wake was already past, has not ended early. -/
theorem sleep_not_early {s : State ι} (hs : system.Reachable s) {i : ι} {nap : Nap} {after : UInt64}
    (hdone : s.caller i = .done nap after)
    (hpushed : nap.before.toNat ≤ nap.latest.toNat + 1
      ∨ nap.before.toNat + nap.timeout.toNat ≤ nap.time.toNat) :
    nap.before.toNat + nap.timeout.toNat ≤ after.toNat := by
  obtain ⟨hdeadline, htime⟩ := (timely_of_reachable hs).done i nap after hdone
  obtain hlatest | hpast := hpushed
  · calc nap.before.toNat + nap.timeout.toNat
        ≤ nap.latest.toNat + 1 + nap.timeout.toNat := Nat.add_le_add_right hlatest _
      _ = nap.deadline + 1 := Nat.add_right_comm _ _ _
      _ ≤ after.toNat := hdeadline
  · exact hpast.trans htime

/-- A request is pushed before the clock moves. -/
theorem sleep_not_early_prompt :
    ∃ s : State Unit, system.Reachable s ∧ s.caller () = .done ⟨7, 5, 0, 1, 0, 0⟩ 2
      ∧ (0 : UInt64).toNat + (1 : UInt64).toNat ≤ (2 : UInt64).toNat := by
  have hfresh : system.Reachable (State.fresh : State Unit) := .of_init rfl
  have h1 := hfresh.unlabelled (Step.readBefore () rfl)
  have h2 := h1.unlabelled (Step.request () ⟨7, 5, 0, 1, 0, 0⟩ rfl (by decide) nofun rfl rfl)
  have h3 := h2.unlabelled (Step.take _ _ rfl rfl rfl)
  have h4 := h3.unlabelled (Step.store 2 rfl (by decide))
  have h5 := h4.unlabelled (Step.send 2 rfl)
  have h6 := h5.unlabelled (Step.take _ _ rfl rfl rfl)
  have h7 := h6.unlabelled (Step.tick 2 _ _ rfl (by decide) rfl)
  have h8 := h7.unlabelled (Step.tick 2 _ _ rfl (by decide) rfl)
  have h9 := h8.unlabelled (Step.wake () _ rfl (by decide))
  have h10 := h9.unlabelled (Step.readAfter () _ rfl)
  exact ⟨_, h10, rfl, @sleep_not_early _ _ _ h10 () ⟨7, 5, 0, 1, 0, 0⟩ 2 rfl (Or.inl (by decide))⟩

/-- The clock thread stores `2`, which a coroutine reads before it sleeps for `1`, and sends the
update only afterwards. The sleep ends at `2`. -/
theorem sleep_early :
    ∃ s : State Unit, system.Reachable s ∧ s.caller () = .done ⟨7, 5, 2, 1, 0, 2⟩ 2
      ∧ ¬ (2 : UInt64).toNat + (1 : UInt64).toNat ≤ (2 : UInt64).toNat := by
  have hfresh : system.Reachable (State.fresh : State Unit) := .of_init rfl
  have h1 := hfresh.unlabelled (Step.store 2 rfl (by decide))
  have h2 := h1.unlabelled (Step.readBefore () rfl)
  have h3 := h2.unlabelled (Step.request () ⟨7, 5, 2, 1, 0, 2⟩ rfl (by decide) nofun rfl rfl)
  have h4 := h3.unlabelled (Step.send 2 rfl)
  have h5 := h4.unlabelled (Step.take _ _ rfl rfl rfl)
  have h6 := h5.unlabelled (Step.take _ _ rfl rfl rfl)
  have h7 := h6.unlabelled (Step.tick 2 _ _ rfl (by decide) rfl)
  have h8 := h7.unlabelled (Step.tick 2 _ _ rfl (by decide) rfl)
  have h9 := h8.unlabelled (Step.wake () _ rfl (by decide))
  have h10 := h9.unlabelled (Step.readAfter () _ rfl)
  exact ⟨_, h10, rfl, by decide⟩

end Stp.Time
