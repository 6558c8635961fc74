import Stp.Library.Runs
import Stp.Time.Sleep

/-!
# Every sleep ends

While a coroutine sleeps, its request is in the mailbox of the timer service, or in the wheel, or it
has been answered, and in one of these places only. The wheel gets to a request before it has reached
an update that was sent later, so the timer expires no later than `TIME` was when the coroutine went
to sleep, plus the timeout. A service that goes on whenever it can handles the updates in its mailbox
one after the other, so its wheel gets past that expiry as soon as such an update has been sent.
-/

namespace Stp.Time

open Process Transition

variable {ι : Type*}

/-! ### Where a sleep is, and how long -/

/-- The latest time at which the timer of the nap expires. -/
def Nap.limit (nap : Nap) : Nat := nap.time.toNat + nap.timeout.toNat

structure Nap.Kept (nap : Nap) (s : State ι) : Prop where
  somewhere : (∃ msg ∈ s.mailbox.messages, keyOf msg = nap.key)
    ∨ (∃ node ∈ s.timer.stored, node.key = nap.key) ∨ nap.key ∈ s.responses
  requested : ∀ before msg after, s.mailbox.messages = before ++ msg :: after → keyOf msg = nap.key →
    horizon s.reached before ≤ nap.time.toNat
  armed : ∀ node ∈ s.timer.stored, node.key = nap.key → node.due ≤ nap.limit

variable [DecidableEq ι]

theorem Nap.kept_fresh {s : State ι} {i : ι} {nap : Nap} (hs : Clocked s) (htime : nap.time = s.time)
    (hunused : nap.key ∉ s.sessions) :
    nap.Kept ((s.push nap.request).setCaller i (.waiting nap)) := by
  simp only [State.sessions, Multiset.mem_add, Multiset.mem_coe, Multiset.mem_map, List.mem_map,
    not_or, not_exists, not_and] at hunused
  obtain ⟨⟨hmessages, hnodes⟩, -⟩ := hunused
  have happend := Mailbox.append_messages s.mailbox nap.request
  refine ⟨Or.inl ⟨nap.request, ?_, rfl⟩, ?_, fun node hnode hkey => absurd hkey (hnodes node hnode)⟩
  · exact happend ▸ List.mem_append_right _ List.mem_cons_self
  · intro before msg after hsplit hkey
    obtain ⟨rfl, -, -⟩ | ⟨middle, hsplit, -⟩ := split_concat (happend.symm.trans hsplit)
    · rw [htime]
      exact hs.horizon
    · refine absurd hkey (hmessages msg ?_)
      rw [hsplit]
      exact List.mem_append_right _ List.mem_cons_self

theorem Step.kept {s s' : State ι} (hstep : Step s s') (hs : Timely s) {i : ι} {nap : Nap}
    (hbefore : s.caller i = .waiting nap) (hafter : s'.caller i = .waiting nap)
    (hnap : nap.Kept s) : nap.Kept s' := by
  obtain ⟨hsomewhere, hrequested, harmed⟩ := hnap
  have hsession := (hs.tracked i nap hbefore).session
  cases hstep with
  | store | readBefore | readAfter | again | exchange => exact ⟨hsomewhere, hrequested, harmed⟩
  | send time hclock =>
      have happend := Mailbox.append_messages s.mailbox (updateMessage time)
      refine ⟨hsomewhere.imp_left ?_, ?_, harmed⟩
      · rintro ⟨msg, hmsg, hkey⟩
        exact ⟨msg, happend ▸ List.mem_append_left _ hmsg, hkey⟩
      · intro before msg after hsplit hkey
        obtain ⟨-, rfl, -⟩ | ⟨middle, hsplit, -⟩ := split_concat (happend.symm.trans hsplit)
        · exact absurd (congrArg Prod.snd hkey).symm hsession
        · exact hrequested before msg middle hsplit hkey
  | request j other hcaller hsession' hfree =>
      have happend := Mailbox.append_messages s.mailbox other.request
      refine ⟨hsomewhere.imp_left ?_, ?_, harmed⟩
      · rintro ⟨msg, hmsg, hkey⟩
        exact ⟨msg, happend ▸ List.mem_append_left _ hmsg, hkey⟩
      · intro before msg after hsplit hkey
        obtain ⟨-, rfl, -⟩ | ⟨middle, hsplit, -⟩ := split_concat (happend.symm.trans hsplit)
        · exact absurd hkey.symm (hfree i nap hbefore)
        · exact hrequested before msg middle hsplit hkey
  | wake j other hcaller hresponse =>
      have hne : nap.key ≠ other.key := by
        intro hkey
        obtain rfl := hs.distinct i j nap other hbefore hcaller hkey
        rw [State.setCaller_caller, if_pos rfl] at hafter
        cases hafter
      exact ⟨hsomewhere.imp_right (Or.imp_right (List.mem_erase_of_ne hne).mpr), hrequested, harmed⟩
  | take msg _ hservice htake hhandle =>
      obtain ⟨hreached, -, hsame, hhandled⟩ := State.handle_spec hhandle hservice hs.clocked.placed
      have hmessages : s.mailbox.messages = msg :: s'.mailbox.messages := by
        rw [hsame]
        exact Mailbox.take_some htake
      have hresponses : s'.responses = s.responses := by rw [hsame]
      -- a message on the session is the request, and handling it arms the timer
      have hfirst : keyOf msg = nap.key → ∃ node, s'.timer.stored = node ::ₘ s.timer.stored
          ∧ node.key = nap.key ∧ node.due ≤ nap.limit := by
        intro hkey
        obtain ⟨hmsg, -⟩ := (hs.tracked i nap hbefore).requested [] msg _ hmessages hkey
        obtain ⟨d, node, hcontent, hstored, hnode, hdue⟩ | ⟨hother, -⟩ := hhandled
        · refine ⟨node, hstored, hnode.trans hkey, ?_⟩
          rw [hmsg] at hcontent
          cases hcontent
          rw [hdue]
          exact Nat.add_le_add_right (hrequested [] msg _ hmessages hkey) _
        · rw [hmsg] at hother
          exact absurd rfl (hother nap.timeout)
      have hstored : ∀ node ∈ s.timer.stored, node ∈ s'.timer.stored := by
        obtain ⟨d, node, -, hstored, -⟩ | ⟨-, htimer⟩ := hhandled
        · rw [hstored]
          exact fun other => Multiset.mem_cons_of_mem
        · rw [htimer]
          exact fun _ => id
      refine ⟨?_, ?_, ?_⟩
      · obtain ⟨msg', hmsg', hkey⟩ | ⟨node, hnode, hkey⟩ | hresponse := hsomewhere
        · rw [hmessages] at hmsg'
          obtain rfl | hmsg' := List.mem_cons.mp hmsg'
          · obtain ⟨node, hstored', hnode, -⟩ := hfirst hkey
            exact Or.inr (Or.inl ⟨node, hstored' ▸ Multiset.mem_cons_self _ _, hnode⟩)
          · exact Or.inl ⟨msg', hmsg', hkey⟩
        · exact Or.inr (Or.inl ⟨node, hstored node hnode, hkey⟩)
        · exact Or.inr (Or.inr (hresponses ▸ hresponse))
      · intro before msg' after hsplit hkey
        rw [hreached]
        refine hrequested (msg :: before) msg' after ?_ hkey
        rw [hmessages, hsplit]
        rfl
      · intro node hnode hkey
        obtain ⟨d, node', -, hstored', hkey', -⟩ | ⟨-, htimer⟩ := hhandled
        · rw [hstored'] at hnode
          obtain rfl | hnode := Multiset.mem_cons.mp hnode
          · obtain ⟨node', hcons, -, hdue⟩ := hfirst (hkey'.symm.trans hkey)
            obtain rfl := Multiset.cons_inj_left _ |>.mp (hstored'.symm.trans hcons)
            exact hdue
          · exact harmed node hnode hkey
        · rw [htimer] at hnode
          exact harmed node hnode hkey
  | takeNothing hservice htake =>
      obtain ⟨hnone, hnone'⟩ := Mailbox.take_none htake
      refine ⟨hsomewhere.imp_left ?_, ?_, harmed⟩
      · rintro ⟨msg, hmsg, -⟩
        rw [hnone] at hmsg
        exact absurd hmsg List.not_mem_nil
      · intro before msg after hsplit
        rw [hnone'] at hsplit
        simp at hsplit
  | tick time sent timer hservice hbehind htick =>
      obtain ⟨-, htime', hstored, -⟩ := tick_behind hs.clocked.placed hbehind htick
      have hlt := UInt64.lt_iff_toNat_lt.mp hbehind
      have hreached : max timer.time.toNat time.toNat = s.reached := by
        simp only [State.reached, hservice]
        omega
      refine ⟨?_, ?_, ?_⟩
      · obtain hmsg | ⟨node, hnode, hkey⟩ | hresponse := hsomewhere
        · exact Or.inl hmsg
        · rw [← hstored] at hnode
          obtain hnode | hnode := Multiset.mem_add.mp hnode
          · exact Or.inr (Or.inl ⟨node, hnode, hkey⟩)
          · refine Or.inr (Or.inr (List.mem_append_right _ ?_))
            exact List.mem_map.mpr ⟨node, Multiset.mem_coe.mp hnode, hkey⟩
        · exact Or.inr (Or.inr (List.mem_append_left _ hresponse))
      · intro before msg after hsplit hkey
        simp only [State.reached, hservice]
        rw [hreached]
        exact hrequested before msg after hsplit hkey
      · intro node hnode
        exact harmed node (hstored ▸ Multiset.mem_add.mpr (Or.inl hnode))
  | updated time hservice hreached =>
      have hle := UInt64.le_iff_toNat_le.mp (UInt64.not_lt.mp hreached)
      have hsame : s.reached = s.timer.time.toNat := by
        simp only [State.reached, hservice]
        exact max_eq_left hle
      rw [hsame] at hrequested
      exact ⟨hsomewhere, hrequested, harmed⟩

theorem kept_of_reachable {s : State ι} (hs : system.Reachable s) :
    ∀ i nap, s.caller i = .waiting nap → nap.Kept s := by
  refine System.Reachable.invariant
    (P := fun s => ∀ i nap, s.caller i = .waiting nap → nap.Kept s) ?_ ?_ hs
  · rintro s rfl i nap
    exact nofun
  · intro s _ s' hreach hkept hstep i nap hwaiting
    have htimely := timely_of_reachable hreach
    obtain hbefore | ⟨-, hfree⟩ := hstep.waiting htimely hwaiting
    · exact hstep.kept htimely hbefore hwaiting (hkept i nap hbefore)
    · cases hstep.caller htimely.clocked i with
      | same hsame =>
          rw [hsame] at hwaiting
          exact hstep.kept htimely hwaiting (hsame.trans hwaiting) (hkept i nap hwaiting)
      | asks other hawake hsession hfree hlatest htime hafter =>
          subst hafter
          rw [State.setCaller_caller, if_pos rfl] at hwaiting
          obtain rfl := Caller.waiting.inj hwaiting
          refine Nap.kept_fresh htimely.clocked htime fun hused => ?_
          obtain ⟨j, nap, hnap, hkey⟩ := htimely.owned _ hused (session_ne_zero hsession)
          exact hfree j nap hnap hkey
      | rests hbefore hafter =>
          rw [hwaiting] at hafter
          obtain hafter | ⟨before, hafter⟩ := hafter <;> cases hafter
      | wakes other hother hresponse hafter | reads other hother hafter =>
          rw [hwaiting] at hafter
          cases hafter

/-- **A sleep is kept, and answered in time.** While a coroutine sleeps, its session is in one place:
its request is queued for the service, or armed in the wheel, or answered. If it is armed, it expires
no earlier than the timeout past the latest update sent before the request and no later than the
timeout past what `TIME` was then, and the wheel has not gone beyond that. -/
theorem sleep_is_punctual {s : State ι} (hs : system.Reachable s) {i : ι} {nap : Nap}
    (hwaiting : s.caller i = .waiting nap) :
    s.sessions.count nap.key = 1
      ∧ (nap.request ∈ s.mailbox.messages
        ∨ (∃ node ∈ s.timer.stored, node.key = nap.key ∧ nap.deadline ≤ node.due
          ∧ node.due ≤ nap.limit ∧ s.timer.time.toNat ≤ node.due)
        ∨ nap.key ∈ s.responses) := by
  have htimely := timely_of_reachable hs
  obtain ⟨hsomewhere, -, harmed⟩ := kept_of_reachable hs i nap hwaiting
  have htracked := htimely.tracked i nap hwaiting
  have hplace : nap.request ∈ s.mailbox.messages
      ∨ (∃ node ∈ s.timer.stored, node.key = nap.key ∧ nap.deadline ≤ node.due
        ∧ node.due ≤ nap.limit ∧ s.timer.time.toNat ≤ node.due)
      ∨ nap.key ∈ s.responses := by
    obtain ⟨msg, hmsg, hkey⟩ | ⟨node, hnode, hkey⟩ | hresponse := hsomewhere
    · obtain ⟨before, after, hsplit⟩ := List.append_of_mem hmsg
      obtain ⟨rfl, -⟩ := htracked.requested before msg after hsplit hkey
      exact Or.inl hmsg
    · exact Or.inr (Or.inl ⟨node, hnode, hkey, htracked.armed node hnode hkey,
        harmed node hnode hkey, htimely.clocked.placed.le_expire hnode⟩)
    · exact Or.inr (Or.inr hresponse)
  refine ⟨le_antisymm (htimely.once nap.key htracked.session) (Multiset.one_le_count_iff_mem.mpr ?_),
    hplace⟩
  simp only [State.sessions, Multiset.mem_add, Multiset.mem_coe, Multiset.mem_map, List.mem_map]
  obtain hmsg | ⟨node, hnode, hkey, -⟩ | hresponse := hplace
  · exact Or.inl (Or.inl ⟨_, hmsg, rfl⟩)
  · exact Or.inl (Or.inr ⟨node, hnode, hkey⟩)
  · exact Or.inr hresponse

/-- A request that the service has handled. -/
theorem sleep_is_punctual_armed : ∃ s : State Unit, system.Reachable s
    ∧ s.caller () = .waiting ⟨7, 5, 0, 1, 0, 0⟩ ∧ s.mailbox.messages = []
    ∧ s.sessions.count (7, 5) = 1 := by
  have hfresh : system.Reachable (State.fresh : State Unit) := .of_init rfl
  have h1 := hfresh.unlabelled (Step.readBefore () rfl)
  have h2 := h1.unlabelled (Step.request () ⟨7, 5, 0, 1, 0, 0⟩ rfl (by decide) nofun rfl rfl)
  have h3 := h2.unlabelled (Step.take _ _ rfl rfl rfl)
  exact ⟨_, h3, rfl, rfl, (@sleep_is_punctual _ _ _ h3 () ⟨7, 5, 0, 1, 0, 0⟩ rfl).1⟩

/-! ### How far the service is -/

/-- How many messages the service has yet to take before the wheel is bound for a time beyond the
limit. -/
def ahead (limit : Nat) : (time : Nat) → List (Message TimerContent) → Nat
  | _, [] => 0
  | time, msg :: messages => if limit < time then 0 else ahead limit (reach time msg) messages + 1

theorem ahead_append {limit : Nat} {messages : List (Message TimerContent)} {time : Nat}
    (hbeyond : limit < horizon time messages) (later : List (Message TimerContent)) :
    ahead limit time (messages ++ later) = ahead limit time messages := by
  induction messages generalizing time with
  | nil =>
      cases later with
      | nil => rfl
      | cons msg later => exact if_pos hbeyond
  | cons msg messages ih =>
      rw [List.cons_append, ahead, ahead, ih hbeyond]

def State.busy (s : State ι) : Nat :=
  match s.service with
  | .serving => 0
  | .updating _ => 1

/-- How far the service is from a time beyond the limit: the messages it has to take, the ticks it
has to do and whether it is in an update. -/
def State.view (s : State ι) (limit : Nat) : Nat × Nat × Nat :=
  (ahead limit s.reached s.mailbox.messages, 2 ^ 64 - s.timer.time.toNat, s.busy)

def State.distance (view : Nat × Nat × Nat) : Nat := 3 * view.1 + 2 * view.2.1 + view.2.2

/-- The service takes a message, ticks or ends an update. -/
def State.Works (s s' : State ι) : Prop :=
  Step s s' ∧ (s'.service ≠ s.service ∨ s'.timer.time ≠ s.timer.time
    ∨ ∃ msg, s.mailbox.messages = msg :: s'.mailbox.messages)

omit [DecidableEq ι] in
theorem State.handle_time {s s' : State ι} {msg : Message TimerContent}
    (hhandle : s.handle msg = some s') (hplaced : s.timer.Placed) :
    s'.timer.time = s.timer.time := by
  unfold State.handle at hhandle
  split at hhandle
  · obtain ⟨timer, htimeout, rfl⟩ := Option.map_eq_some_iff.mp hhandle
    exact (timeout_spec hplaced htimeout).2.1
  · obtain rfl := Option.some.inj hhandle
    rfl
  · obtain rfl := Option.some.inj hhandle
    rfl

omit [DecidableEq ι] in
theorem State.busy_le (s : State ι) : s.busy ≤ 1 := by
  unfold State.busy
  split <;> omega

/-- The service comes closer, or it has not moved. -/
structure Unmoved (s s' : State ι) (limit : Nat) : Prop where
  view : s'.view limit = s.view limit
  service : s'.service = s.service
  time : s'.timer.time = s.timer.time
  messages : s.mailbox.messages <+: s'.mailbox.messages

omit [DecidableEq ι] in
theorem Unmoved.push {s s' : State ι} {limit : Nat} {msg : Message TimerContent}
    (hbeyond : limit < horizon s.reached s.mailbox.messages)
    (hmailbox : s'.mailbox = s.mailbox.append msg) (hservice : s'.service = s.service)
    (htimer : s'.timer = s.timer) : Unmoved s s' limit := by
  have hmessages : s'.mailbox.messages = s.mailbox.messages ++ [msg] :=
    hmailbox ▸ Mailbox.append_messages _ _
  have hreached : s'.reached = s.reached := by rw [State.reached, State.reached, hservice, htimer]
  refine ⟨?_, hservice, congrArg _ htimer, hmessages ▸ List.prefix_append _ _⟩
  rw [State.view, State.view, hreached, hmessages, ahead_append hbeyond, htimer, State.busy,
    State.busy, hservice]

theorem Step.distance {s s' : State ι} (hstep : Step s s') (hs : Clocked s) {limit : Nat}
    (hbeyond : limit < horizon s.reached s.mailbox.messages)
    (hbehind : s.timer.time.toNat ≤ limit) :
    Unmoved s s' limit ∨ State.distance (s'.view limit) < State.distance (s.view limit) := by
  cases hstep with
  | store | readBefore | readAfter | again | wake | exchange =>
      exact Or.inl ⟨rfl, rfl, rfl, List.prefix_rfl⟩
  | send | request => exact Or.inl (.push hbeyond rfl rfl rfl)
  | take msg _ hservice htake hhandle =>
      refine Or.inr ?_
      have htime := State.handle_time hhandle hs.placed
      obtain ⟨hreached, -, hsame, -⟩ := State.handle_spec hhandle hservice hs.placed
      have hmessages : s.mailbox.messages = msg :: s'.mailbox.messages := by
        rw [hsame]
        exact Mailbox.take_some htake
      have hnow : ¬limit < s.reached := by
        simp only [State.reached, hservice]
        omega
      have hahead : ahead limit s.reached s.mailbox.messages
          = ahead limit s'.reached s'.mailbox.messages + 1 := by
        rw [hmessages, ahead, if_neg hnow, hreached]
        rfl
      have hbusy := s'.busy_le
      simp only [State.distance, State.view, hahead, htime]
      dsimp only at *
      omega
  | takeNothing hservice htake =>
      obtain ⟨hnone, hnone'⟩ := Mailbox.take_none htake
      refine Or.inl ⟨?_, rfl, rfl, ?_⟩
      · simp only [State.view, hnone, hnone', State.reached, State.busy]
      · rw [hnone]
        exact List.nil_prefix
  | tick time sent timer hservice hlater htick =>
      refine Or.inr ?_
      obtain ⟨-, htime, -⟩ := tick_behind hs.placed hlater htick
      have hlt := UInt64.lt_iff_toNat_lt.mp hlater
      have hbound := time.toNat_lt
      have hreached : max timer.time.toNat time.toNat = max s.timer.time.toNat time.toNat := by omega
      simp only [State.distance, State.view, State.busy, State.reached, hservice, hreached]
      omega
  | updated time hservice hreached =>
      refine Or.inr ?_
      have hle := UInt64.le_iff_toNat_le.mp (UInt64.not_lt.mp hreached)
      have hmax : max s.timer.time.toNat time.toNat = s.timer.time.toNat := max_eq_left hle
      simp only [State.distance, State.view, State.busy, State.reached, hservice, hmax]
      omega

/-! ### The service can always go on -/

/-- No sleep asks for more than the clock can count. -/
def State.Fits (s : State ι) : Prop := ∀ i nap, s.caller i = .waiting nap → nap.limit < 2 ^ 64

/-- The runs in which no sleep does. -/
def fitting : System (State ι) Unit where
  init := system.init
  step s label s' := system.step s label s' ∧ s'.Fits

theorem fits_of_reachable {s : State ι} (hs : fitting.Reachable s) :
    system.Reachable s ∧ s.Fits := by
  refine System.Reachable.invariant (P := fun s => system.Reachable s ∧ s.Fits) ?_ ?_ hs
  · rintro s rfl
    exact ⟨.of_init rfl, nofun⟩
  · intro s label s' _ hs hstep
    exact ⟨hs.1.step hstep.1, hstep.2⟩

theorem posted_of_reachable {s : State ι} (hs : system.Reachable s) :
    ∀ msg ∈ s.mailbox.messages, msg.session ≠ 0 ∨ ∃ time, msg = updateMessage time := by
  refine System.Reachable.invariant
    (P := fun s => ∀ msg ∈ s.mailbox.messages, msg.session ≠ 0 ∨ ∃ time, msg = updateMessage time)
    ?_ ?_ hs
  · rintro s rfl msg hmsg
    exact absurd hmsg List.not_mem_nil
  · intro s _ s' hreach hposted hstep msg hmsg
    cases hstep with
    | store | readBefore | readAfter | again | wake | exchange | tick | updated =>
        exact hposted msg hmsg
    | send time hclock =>
        obtain hmsg | hmsg := List.mem_append.mp ((Mailbox.append_messages _ _) ▸ hmsg)
        · exact hposted msg hmsg
        · exact Or.inr ⟨time, List.mem_singleton.mp hmsg⟩
    | request i nap hcaller hsession =>
        obtain hmsg | hmsg := List.mem_append.mp ((Mailbox.append_messages _ _) ▸ hmsg)
        · exact hposted msg hmsg
        · rw [List.mem_singleton.mp hmsg]
          exact Or.inl (session_ne_zero hsession)
    | take first _ hservice htake hhandle =>
        obtain ⟨-, -, hsame, -⟩ :=
          State.handle_spec hhandle hservice (timely_of_reachable hreach).clocked.placed
        rw [hsame] at hmsg
        exact hposted msg (Mailbox.take_some htake ▸ List.mem_cons_of_mem _ hmsg)
    | takeNothing hservice htake =>
        rw [(Mailbox.take_none htake).2] at hmsg
        exact absurd hmsg List.not_mem_nil

/-- The service can handle the message at the head of its mailbox. -/
theorem handle_isSome {s : State ι} (hs : system.Reachable s) (hfits : s.Fits)
    (hservice : s.service = .serving) {msg : Message TimerContent}
    {rest : List (Message TimerContent)} (hmessages : s.mailbox.messages = msg :: rest)
    (mailbox : Mailbox TimerContent) : ∃ s', { s with mailbox := mailbox }.handle msg = some s' := by
  have htimely := timely_of_reachable hs
  have hmsg : msg ∈ s.mailbox.messages := hmessages ▸ List.mem_cons_self
  obtain hsession | ⟨time, rfl⟩ := posted_of_reachable hs msg hmsg
  · have hused : keyOf msg ∈ s.sessions := by
      simp only [State.sessions, Multiset.mem_add, Multiset.mem_coe, List.mem_map]
      exact Or.inl (Or.inl ⟨msg, hmsg, rfl⟩)
    obtain ⟨i, nap, hwaiting, hkey⟩ := htimely.owned _ hused hsession
    obtain ⟨rfl, -⟩ := (htimely.tracked i nap hwaiting).requested [] msg rest hmessages hkey.symm
    -- the wheel has not gone beyond what `TIME` was when the request was pushed
    have htime : s.timer.time.toNat ≤ nap.time.toNat := by
      have hreached := (kept_of_reachable hs i nap hwaiting).requested [] _ rest hmessages rfl
      simpa [horizon, State.reached, hservice] using hreached
    have hlimit := hfits i nap hwaiting
    have hexpire : s.timer.time ≤ s.timer.time + nap.timeout := by
      rw [UInt64.le_iff_toNat_le, UInt64.toNat_add, Nat.mod_eq_of_lt]
      · exact Nat.le_add_right _ _
      · rw [Nap.limit] at hlimit
        omega
    obtain ⟨timer, hqueue, -⟩ := queue_spec htimely.clocked.placed
      (show s.timer.time ≤ (TimerNode.mk (s.timer.time + nap.timeout) nap.source nap.session).expire
        from hexpire)
    exact ⟨_, congrArg (Option.map _) hqueue⟩
  · exact ⟨_, rfl⟩

theorem works_of_behind {s : State ι} (hs : system.Reachable s) (hfits : s.Fits) {limit : Nat}
    (hbeyond : limit < horizon s.reached s.mailbox.messages)
    (hbehind : s.timer.time.toNat ≤ limit) : ∃ s', s.Works s' := by
  have hclocked := (timely_of_reachable hs).clocked
  cases hservice : s.service with
  | serving =>
      obtain ⟨msg, htake, hmessages, -⟩ | ⟨-, hnone, -⟩ := s.mailbox.take_spec
      · obtain ⟨s', hhandle⟩ := handle_isSome hs hfits hservice hmessages s.mailbox.take.2
        refine ⟨s', .take msg s' hservice htake hhandle, Or.inr (Or.inr ⟨msg, ?_⟩)⟩
        obtain ⟨-, -, hsame, -⟩ := State.handle_spec hhandle hservice hclocked.placed
        rw [hsame]
        exact hmessages
      · have hreached : s.reached = s.timer.time.toNat := by rw [State.reached, hservice]
        rw [hnone, horizon, List.foldl_nil, hreached] at hbeyond
        omega
  | updating time =>
      by_cases hlater : s.timer.time < time
      · have hlt := UInt64.lt_iff_toNat_lt.mp hlater
        have hbound := time.toNat_lt
        obtain ⟨sent, timer, htick, htime, -⟩ := tick_spec hclocked.placed (by omega)
        refine ⟨_, .tick time sent timer hservice hlater htick, Or.inr (Or.inl fun hsame => ?_)⟩
        have hsame := congrArg UInt64.toNat hsame
        dsimp only at hsame
        omega
      · refine ⟨_, .updated time hservice hlater, Or.inl ?_⟩
        rw [hservice]
        exact ServicePc.noConfusion

/-! ### Every sleep ends -/

/-- A service that can go on does. -/
def FairService (run : Nat → State ι) : Prop :=
  WeaklyFair run (fun s => ∃ s', s.Works s') State.Works

/-- A coroutine goes on once it has been answered. -/
def FairSleeper (run : Nat → State ι) (i : ι) : Prop :=
  WeaklyFair run (fun s => ∃ nap, s.caller i = .waiting nap ∧ nap.key ∈ s.responses)
    fun s s' => ∃ nap, s.caller i = .waiting nap ∧ s'.caller i = .woken nap

section Runs

variable {run : Nat → State ι} {n : Nat} {limit : Nat}

theorem reachable_of_run (hrun : fitting.Run run) (k : Nat) :
    system.Reachable (run k) ∧ (run k).Fits :=
  fits_of_reachable (hrun.reachable k)

theorem step_of_run (hrun : fitting.Run run) (k : Nat) :
    run (k + 1) = run k ∨ Step (run k) (run (k + 1)) :=
  (hrun.next k).imp_right fun ⟨_, hstep⟩ => hstep.1

theorem latest_le (hrun : fitting.Run run) {k : Nat} (hle : n ≤ k) :
    (run n).latest.toNat ≤ (run k).latest.toNat := by
  induction k, hle using Nat.le_induction with
  | base => exact le_rfl
  | succ k _ ih =>
      refine ih.trans ?_
      obtain hsame | hstep := step_of_run hrun k
      · rw [hsame]
      · have hclocked := (timely_of_reachable (reachable_of_run hrun k).1).clocked
        generalize run (k + 1) = s' at hstep
        cases hstep with
        | send time hclock =>
            obtain rfl := hclocked.stored time hclock
            exact hclocked.latest.trans hclocked.horizon
        | take msg _ hservice htake hhandle =>
            obtain ⟨-, -, hsame, -⟩ := State.handle_spec hhandle hservice hclocked.placed
            rw [hsame]
        | _ => exact le_rfl

/-- The wheel gets beyond each time that an update has been sent for. -/
theorem gets_beyond (hrun : fitting.Run run) (hservice : FairService run)
    (hlatest : limit < (run n).latest.toNat) : ∃ k ≥ n, limit < (run k).timer.time.toNat := by
  by_contra hnever
  simp only [not_exists, not_and, Nat.not_lt] at hnever
  have hbeyond : ∀ k ≥ n, limit < horizon (run k).reached (run k).mailbox.messages := by
    intro k hk
    have hclocked := (timely_of_reachable (reachable_of_run hrun k).1).clocked
    exact hlatest.trans_le ((latest_le hrun hk).trans hclocked.latest)
  obtain ⟨m, hm, hsettled⟩ := settles (fun k => (run k).view limit) State.distance
    (n := n) fun k hk => by
      obtain hsame | hstep := step_of_run hrun k
      · exact Or.inl (by rw [hsame])
      · have hclocked := (timely_of_reachable (reachable_of_run hrun k).1).clocked
        exact (hstep.distance hclocked (hbeyond k hk) (hnever k hk)).imp_left Unmoved.view
  obtain ⟨k, hk, hstep, hmoves⟩ := hservice m fun k hk =>
    works_of_behind (reachable_of_run hrun k).1 (reachable_of_run hrun k).2
      (hbeyond k (hm.trans hk)) (hnever k (hm.trans hk))
  have hclocked := (timely_of_reachable (reachable_of_run hrun k).1).clocked
  obtain hsame | hlt := hstep.distance hclocked (hbeyond k (hm.trans hk)) (hnever k (hm.trans hk))
  · obtain hmoves | hmoves | ⟨msg, hmessages⟩ := hmoves
    · exact hmoves hsame.service
    · exact hmoves hsame.time
    · have hlength := hsame.messages.length_le
      rw [hmessages, List.length_cons] at hlength
      omega
  · have hlater := hsettled (k + 1) (Nat.le_succ_of_le hk)
    rw [hlater, hsettled k hk] at hlt
    exact absurd hlt (lt_irrefl _)

theorem Step.answered {s s' : State ι} (hstep : Step s s') (hs : Timely s) {i : ι} {nap : Nap}
    (hbefore : s.caller i = .waiting nap) (hafter : s'.caller i = .waiting nap)
    (hresponse : nap.key ∈ s.responses) : nap.key ∈ s'.responses := by
  cases hstep with
  | wake j other hcaller =>
      refine (List.mem_erase_of_ne fun hkey => ?_).mpr hresponse
      obtain rfl := hs.distinct i j nap other hbefore hcaller hkey
      rw [State.setCaller_caller, if_pos rfl] at hafter
      cases hafter
  | take msg _ hservice htake hhandle =>
      obtain ⟨-, -, hsame, -⟩ := State.handle_spec hhandle hservice hs.clocked.placed
      rw [hsame]
      exact hresponse
  | tick => exact List.mem_append_left _ hresponse
  | _ => exact hresponse

theorem waiting_of_run (hrun : fitting.Run run) {i : ι} {nap : Nap}
    (hwaiting : (run n).caller i = .waiting nap) (hnever : ∀ k ≥ n, (run k).caller i ≠ .woken nap) :
    ∀ k ≥ n, (run k).caller i = .waiting nap := by
  intro k hk
  refine hrun.keeps (P := fun s => s.caller i = .waiting nap) ?_ hwaiting hk
  rintro k hk hbefore label ⟨hstep, -⟩
  cases hstep.caller (timely_of_reachable (reachable_of_run hrun k).1).clocked i with
  | same hsame => exact hsame.trans hbefore
  | rests hother => exact absurd hbefore (hother nap)
  | asks other hother | reads other hother =>
      rw [hbefore] at hother
      cases hother
  | wakes other hother hresponse hafter =>
      cases hbefore.symm.trans hother
      exact absurd hafter (hnever (k + 1) (Nat.le_succ_of_le hk))

theorem answered_of_run (hrun : fitting.Run run) {i : ι} {nap : Nap}
    (hwaiting : ∀ k ≥ n, (run k).caller i = .waiting nap) (hresponse : nap.key ∈ (run n).responses) :
    ∀ k ≥ n, nap.key ∈ (run k).responses := by
  intro k hk
  refine hrun.keeps (P := fun s => nap.key ∈ s.responses) ?_ hresponse hk
  rintro k hk hbefore label ⟨hstep, -⟩
  exact hstep.answered (timely_of_reachable (reachable_of_run hrun k).1) (hwaiting k hk)
    (hwaiting (k + 1) (Nat.le_succ_of_le hk)) hbefore

omit [DecidableEq ι] in
theorem State.time_le_reached (s : State ι) : s.timer.time.toNat ≤ s.reached := by
  unfold State.reached
  split
  · exact le_rfl
  · exact le_max_left _ _

/-- A sleep whose time is past has been answered. -/
theorem answered_of_beyond {s : State ι} (hs : system.Reachable s) {i : ι} {nap : Nap}
    (hwaiting : s.caller i = .waiting nap) (hbeyond : nap.limit < s.timer.time.toNat) :
    nap.key ∈ s.responses := by
  obtain ⟨hsomewhere, hrequested, harmed⟩ := kept_of_reachable hs i nap hwaiting
  obtain ⟨msg, hmsg, hkey⟩ | ⟨node, hnode, hkey⟩ | hresponse := hsomewhere
  · obtain ⟨before, after, hsplit⟩ := List.append_of_mem hmsg
    have hlimit : nap.time.toNat ≤ nap.limit := Nat.le_add_right _ _
    have hnow : s.timer.time.toNat ≤ nap.time.toNat :=
      calc s.timer.time.toNat ≤ s.reached := s.time_le_reached
        _ ≤ horizon s.reached before := le_horizon _ _
        _ ≤ nap.time.toNat := hrequested before msg after hsplit hkey
    omega
  · have hdue := (timely_of_reachable hs).clocked.placed.le_expire hnode
    have hlimit := harmed node hnode hkey
    simp only [TimerNode.due] at hlimit
    omega
  · exact hresponse

/-- **Every sleep ends.** In a run in which the timer service goes on whenever it can and the sleeper
does once it has been answered, a sleep ends as soon as the clock thread sends an update beyond the
time of the request plus the timeout, as long as no sleep asks for more than the clock can count. -/
theorem every_sleep_ends (hrun : fitting.Run run) (hservice : FairService run) {i : ι}
    (hsleeper : FairSleeper run i) {nap : Nap} (hwaiting : (run n).caller i = .waiting nap)
    (hclock : ∃ k, nap.time.toNat + nap.timeout.toNat < (run k).latest.toNat) :
    ∃ k ≥ n, (run k).caller i = .woken nap := by
  by_contra hnever
  simp only [not_exists, not_and] at hnever
  have hwaits := waiting_of_run hrun hwaiting hnever
  obtain ⟨k, hk⟩ := hclock
  obtain ⟨m, hm, hbeyond⟩ := gets_beyond hrun hservice (n := max n k)
    (hk.trans_le (latest_le hrun (le_max_right n k)))
  have hn : n ≤ m := (le_max_left n k).trans hm
  have hresponse := answered_of_beyond (reachable_of_run hrun m).1 (hwaits m hn) hbeyond
  have hanswered := answered_of_run hrun (fun k hk => hwaits k (hn.trans hk)) hresponse
  obtain ⟨k', hk', other, hother, hwoken⟩ := hsleeper m fun k hk =>
    ⟨nap, hwaits k (hn.trans hk), hanswered k hk⟩
  cases (hwaits k' (hn.trans hk')).symm.trans hother
  exact hnever (k' + 1) (hn.trans (Nat.le_succ_of_le hk')) hwoken

end Runs

theorem not_works_of_idle {s s' : State ι} (hservice : s.service = .serving)
    (hmessages : s.mailbox.messages = []) : ¬s.Works s' := by
  rintro ⟨hstep, hmoves⟩
  cases hstep with
  | tick time sent timer hupdating | updated time hupdating =>
      rw [hservice] at hupdating
      cases hupdating
  | take msg _ _ htake =>
      rw [Mailbox.take_some htake] at hmessages
      cases hmessages
  | _ => simp [hmessages, State.push, State.setCaller] at hmoves

/-- One sleep, for one tick. -/
theorem every_sleep_ends_one : ∃ run : Nat → State Unit, fitting.Run run ∧ FairService run
    ∧ ∃ n, (run n).caller () = .waiting ⟨7, 5, 0, 1, 0, 0⟩
      ∧ ∃ k ≥ n, (run k).caller () = .woken ⟨7, 5, 0, 1, 0, 0⟩ := by
  have hawake : ∀ {s : State Unit}, (∀ nap, s.caller () ≠ .waiting nap) → s.Fits :=
    fun h _ nap hnap => absurd hnap (h nap)
  have hasleep : ∀ {s : State Unit}, s.caller () = .waiting ⟨7, 5, 0, 1, 0, 0⟩ → s.Fits := by
    intro s h i nap hnap
    cases h.symm.trans hnap
    decide
  have h0 : fitting.Leads (State.fresh : State Unit) State.fresh := .refl
  have h1 := h0.tail ⟨(), Step.readBefore () rfl, hawake nofun⟩
  have h2 := h1.tail
    ⟨(), Step.request () ⟨7, 5, 0, 1, 0, 0⟩ rfl (by decide) nofun rfl rfl, hasleep rfl⟩
  have hhere : ∀ {s : State Unit}, fitting.Leads State.fresh s → fitting.Leads s s := fun _ => .refl
  have g3 := (hhere h2).tail ⟨(), Step.take _ _ rfl rfl rfl, hasleep rfl⟩
  have g4 := g3.tail ⟨(), Step.store 2 rfl (by decide), hasleep rfl⟩
  have g5 := g4.tail ⟨(), Step.send 2 rfl, hasleep rfl⟩
  have g6 := g5.tail ⟨(), Step.take _ _ rfl rfl rfl, hasleep rfl⟩
  have g7 := g6.tail ⟨(), Step.tick 2 _ _ rfl (by decide) rfl, hasleep rfl⟩
  have g8 := g7.tail ⟨(), Step.tick 2 _ _ rfl (by decide) rfl, hasleep rfl⟩
  have g9 := g8.tail ⟨(), Step.updated 2 rfl (by decide), hasleep rfl⟩
  have g10 := g9.tail ⟨(), Step.wake () _ rfl (by decide), hawake nofun⟩
  obtain ⟨run, hrun, ⟨n, hn⟩, m, hlast⟩ := System.Leads.exists_run h2 g10 rfl
  have hservice : FairService run := by
    intro k henabled
    obtain ⟨s', hworks⟩ := henabled (max m k) (le_max_right m k)
    rw [hlast _ (le_max_left m k)] at hworks
    exact absurd hworks (not_works_of_idle rfl rfl)
  have hsleeper : FairSleeper run () := by
    intro k henabled
    obtain ⟨nap, hwaiting, -⟩ := henabled (max m k) (le_max_right m k)
    rw [hlast _ (le_max_left m k)] at hwaiting
    cases hwaiting
  have hwaiting : (run n).caller () = .waiting ⟨7, 5, 0, 1, 0, 0⟩ := by
    rw [hn]
    rfl
  refine ⟨run, hrun, hservice, n, hwaiting, every_sleep_ends hrun hservice hsleeper hwaiting ⟨m, ?_⟩⟩
  rw [hlast m le_rfl]
  decide

end Stp.Time
