import Stp.Coroutines.Outcome
import Stp.Coroutines.Queues

/-!
# Waits on sessions

A coroutine in `block` is in `_block_sessions` under its session until a response on the session is
taken, and from then on it is due to be resumed, with what was stored for it.
-/

namespace Stp.Coroutines

open Process

variable {V : Type*}

/-! ### The table of blocked coroutines -/

theorem unblock_table (s : State V) (session : SessionT) (content : Content V) :
    (s.answer session content).blockSessions.Sublist s.blockSessions
      ∧ ((s.blockSessions.map Prod.fst).Nodup →
        ∀ co, (session, co) ∉ (s.answer session content).blockSessions) := by
  unfold State.answer State.unblock
  cases hfind : s.blockSessions.find? fun entry => entry.1 = session with
  | none =>
      refine ⟨List.Sublist.refl _, fun _ co hmem => ?_⟩
      exact absurd (decide_eq_true rfl) (List.find?_eq_none.mp hfind _ hmem)
  | some entry =>
      have hentry := List.mem_of_find?_eq_some hfind
      have hsession : entry.1 = session := by simpa using List.find?_some hfind
      refine ⟨List.erase_sublist, fun hkeys co hmem => ?_⟩
      have hsame := List.inj_on_of_nodup_map hkeys (List.mem_of_mem_erase hmem) hentry hsession.symm
      rw [hsame] at hmem
      exact (List.Nodup.of_map _ hkeys).not_mem_erase hmem

theorem receive_table (s : State V) (msg : Message V) :
    (s.receive msg).blockSessions.Sublist s.blockSessions
      ∧ (typeOfMessage msg = .kResponse → (s.blockSessions.map Prod.fst).Nodup →
        ∀ co, (-msg.session, co) ∉ (s.receive msg).blockSessions) := by
  unfold State.receive
  cases typeOfMessage msg with
  | kRequest => exact ⟨List.Sublist.refl _, nofun⟩
  | kResponse =>
      obtain ⟨hsublist, hgone⟩ := unblock_table s (-msg.session) msg.content
      exact ⟨hsublist, fun _ => hgone⟩
  | kNotify => cases msg.content <;> exact ⟨List.Sublist.refl _, nofun⟩

/-- A session has one coroutine blocked on it at most, and a coroutine gets into the table by
blocking. -/
theorem table_step {s s' : State V} {label : Label V} (hstep : Step s label s') :
    ((s.blockSessions.map Prod.fst).Nodup → (s'.blockSessions.map Prod.fst).Nodup)
      ∧ ∀ entry ∈ s'.blockSessions, entry ∈ s.blockSessions
        ∨ label = .wait entry.2 (some entry.1) := by
  have hsublist : s'.blockSessions.Sublist s.blockSessions →
      ((s.blockSessions.map Prod.fst).Nodup → (s'.blockSessions.map Prod.fst).Nodup)
        ∧ ∀ entry ∈ s'.blockSessions, entry ∈ s.blockSessions
          ∨ label = .wait entry.2 (some entry.1) := by
    intro hsublist
    exact ⟨(hsublist.map Prod.fst).nodup, fun entry hentry => Or.inl (hsublist.subset hentry)⟩
  cases hstep with
  | dispatch | enter | leave | dispatched | resumeSpawned | spawningDone | resumeWoken | wakingDone
  | unwind | abandon | sweep | exited | takeNothing | spawn | awaitInbox | takeInbox
  | destructorSpawn => exact hsublist (List.Sublist.refl _)
  | wakeServer co => exact hsublist (by rw [← (s.wakeup_eq co).blocked])
  | wakeup _ other | destructorWakeup other =>
      exact hsublist (by rw [← (s.wakeup_eq other).blocked])
  | interrupt => exact hsublist (List.nil_sublist _)
  | take msg => exact hsublist (receive_table s msg).1
  | suspend co caller =>
      exact hsublist (by rw [((s.suspend co).switchBack_spec co caller).blocked]; rfl)
  | finish co caller e =>
      exact hsublist (by rw [(s.finish_spec co caller e).blocked])
  | block co caller session =>
      have htable : ((s.block session co).switchBack co caller).blockSessions
          = (session, co) :: s.blockSessions.filter fun entry => entry.1 ≠ session :=
        ((s.block session co).switchBack_spec co caller).blocked
      rw [htable]
      refine ⟨fun hkeys => ?_, fun entry hentry => ?_⟩
      · refine List.nodup_cons.mpr ⟨fun hmem => ?_, ?_⟩
        · obtain ⟨entry, hentry, hsession⟩ := List.mem_map.mp hmem
          exact of_decide_eq_true (List.mem_filter.mp hentry).2 hsession
        · exact (List.filter_sublist.map Prod.fst).nodup hkeys
      · obtain rfl | hentry := List.mem_cons.mp hentry
        · exact Or.inr rfl
        · exact Or.inl (List.mem_filter.mp hentry).1

/-- Outside `exit()` and the mailbox, a coroutine leaves the table only for another one that blocks on
its session. -/
theorem Step.entry_kept {s s' : State V} {label : Label V} (hstep : Step s label s')
    (htaking : s.pc ≠ .taking) (hexit : ¬ s.pc.InExit) {entry : SessionT × Nat}
    (hwait : ∀ co, label ≠ .wait co (some entry.1)) (hentry : entry ∈ s.blockSessions) :
    entry ∈ s'.blockSessions := by
  cases hstep with
  | dispatch | enter | leave | dispatched | resumeSpawned | spawningDone | resumeWoken | wakingDone
  | unwind | abandon | sweep | exited | takeNothing | spawn | awaitInbox | takeInbox
  | destructorSpawn => exact hentry
  | wakeServer co => rwa [← (s.wakeup_eq co).blocked] at hentry
  | wakeup _ other | destructorWakeup other => rwa [← (s.wakeup_eq other).blocked] at hentry
  | interrupt blocked suspended hpc =>
      rw [hpc] at hexit
      exact absurd trivial hexit
  | take msg hpc => exact absurd hpc htaking
  | suspend co caller => rwa [((s.suspend co).switchBack_spec co caller).blocked]
  | finish co caller e => rwa [(s.finish_spec co caller e).blocked]
  | block co caller session =>
      rw [((s.block session co).switchBack_spec co caller).blocked]
      refine List.mem_cons_of_mem _ (List.mem_filter.mpr ⟨hentry, decide_eq_true ?_⟩)
      rintro rfl
      exact hwait co rfl

/-- What is stored for the present wait, and whether an earlier one was given an exception. -/
def Coroutine.stored (c : Coroutine V) : Option (Outcome V) × Bool := (c.given, c.faulted)

theorem State.switchBack_stored (s : State V) (co : Nat) (caller : Caller) (x : Nat) :
    ((s.switchBack co caller).co x).stored = (s.co x).stored := by
  cases hexception : (s.co co).result.exception with
  | none =>
      rw [State.switchBack_wait caller hexception]
      by_cases hx : x = co
      · subst hx
        change (Function.update s.co x _ x).stored = _
        rw [Function.update_self]
        rfl
      · exact congrArg Coroutine.stored (Function.update_of_ne hx _ _)
  | some e => rw [State.switchBack_end caller hexception]

/-- Outside `exit()` and the mailbox nothing is stored for a wait, until it ends. -/
theorem Step.stored_kept {s s' : State V} {label : Label V} (hstep : Step s label s')
    (htaking : s.pc ≠ .taking) (hexit : ¬ s.pc.InExit) {x : Nat} (hlabel : label.Spares x) :
    (s'.co x).stored = (s.co x).stored ∨ (x = s.created ∧ (s'.co x).stored = (none, false)) := by
  have hother : ∀ co caller, label = .resume co (s.switchTo co caller).1 →
      ((s.switchTo co caller).2.co x).stored = (s.co x).stored := by
    intro co caller hresume
    rw [State.switchTo_co, if_neg]
    rintro rfl
    exact hlabel _ hresume
  cases hstep with
  | dispatch | enter | leave | dispatched | spawningDone | wakingDone | abandon | sweep | exited
  | takeNothing | awaitInbox | takeInbox => exact Or.inl rfl
  | resumeSpawned co => exact Or.inl (hother co .spawning rfl)
  | resumeWoken co => exact Or.inl (hother co .waking rfl)
  | unwind co => exact Or.inl (hother co .unwinding rfl)
  | wakeServer co => exact Or.inl (congrArg (fun table => (table x).stored) (s.wakeup_eq co).co)
  | wakeup _ other | destructorWakeup other =>
      exact Or.inl (congrArg (fun table => (table x).stored) (s.wakeup_eq other).co)
  | interrupt blocked suspended hpc =>
      rw [hpc] at hexit
      exact absurd trivial hexit
  | take msg hpc => exact absurd hpc htaking
  | spawn | destructorSpawn =>
      by_cases hx : x = s.created
      · subst hx
        refine Or.inr ⟨rfl, ?_⟩
        change (Function.update s.co s.created _ s.created).stored = _
        rw [Function.update_self]
        rfl
      · exact Or.inl (congrArg Coroutine.stored (Function.update_of_ne hx _ _))
  | suspend co caller => exact Or.inl ((s.suspend co).switchBack_stored co caller x)
  | block co caller session => exact Or.inl ((s.block session co).switchBack_stored co caller x)
  | finish co caller e =>
      refine Or.inl (((s.finish co e).switchBack_stored co caller x).trans ?_)
      by_cases hco : x = co
      · subst hco
        change (Function.update s.co x _ x).stored = _
        rw [Function.update_self]
        rfl
      · exact congrArg Coroutine.stored (Function.update_of_ne hco _ _)

/-! ### The coroutines that are due -/

theorem State.answer_due (s : State V) (session' : SessionT) (content : Content V) {x : Nat}
    {session : SessionT} (hdue : (session, x) ∈ s.blockSessions ∨ x ∈ s.wakeupCoroutines) :
    (session, x) ∈ (s.answer session' content).blockSessions
      ∨ x ∈ (s.answer session' content).wakeupCoroutines := by
  unfold State.answer State.unblock
  cases hfind : s.blockSessions.find? fun entry => entry.1 = session' with
  | none => exact hdue
  | some entry =>
      obtain hblocked | hwoken := hdue
      · by_cases hentry : (session, x) = entry
        · subst hentry
          exact Or.inr (List.mem_append_right _ List.mem_cons_self)
        · exact Or.inl ((List.mem_erase_of_ne hentry).mpr hblocked)
      · exact Or.inr (List.mem_append_left _ hwoken)

theorem State.wakeup_subset (s : State V) (co : Nat) :
    s.wakeupCoroutines ⊆ (s.wakeup co).wakeupCoroutines := by
  unfold State.wakeup
  split
  · exact List.subset_append_left _ _
  · exact List.Subset.refl _

/-- A coroutine that is blocked, or woken, stays so until it is resumed, unless another one blocks on
its session. -/
theorem Step.due_kept {s s' : State V} {label : Label V} (hstep : Step s label s') {x : Nat}
    {session : SessionT} (hresume : ∀ outcome, label ≠ .resume x outcome)
    (hwait : (session, x) ∈ s.blockSessions → ∀ co, label ≠ .wait co (some session))
    (hdue : (session, x) ∈ s.blockSessions ∨ x ∈ s.wakeupCoroutines) :
    (session, x) ∈ s'.blockSessions ∨ x ∈ s'.wakeupCoroutines := by
  have hwoken : ∀ {co : Nat} {rest : List Nat} {caller : Caller},
      s.wakeupCoroutines = co :: rest → label = .resume co (s.switchTo co caller).1 →
      (session, x) ∈ s.blockSessions ∨ x ∈ rest := by
    intro co rest caller hwakeup hlabel
    rw [hwakeup, List.mem_cons] at hdue
    refine hdue.imp_right fun hx => hx.resolve_left ?_
    rintro rfl
    exact hresume _ hlabel
  cases hstep with
  | dispatch | enter | leave | dispatched | resumeSpawned | spawningDone | wakingDone | abandon
  | sweep | exited | takeNothing | spawn | awaitInbox | takeInbox | destructorSpawn => exact hdue
  | resumeWoken co rest hpc hwakeup => exact hwoken hwakeup rfl
  | unwind co rest hpc hwakeup => exact hwoken hwakeup rfl
  | wakeServer co =>
      rw [← (s.wakeup_eq co).blocked] at hdue
      exact hdue.imp_right fun hx => s.wakeup_subset co hx
  | wakeup _ other | destructorWakeup other =>
      rw [← (s.wakeup_eq other).blocked] at hdue
      exact hdue.imp_right fun hx => s.wakeup_subset other hx
  | interrupt blocked suspended hpc hblocked =>
      refine Or.inr (List.mem_append_left _ (List.mem_append.mpr ?_))
      refine hdue.symm.imp_right fun hmem => ?_
      exact hblocked.mem_iff.mpr (List.mem_map_of_mem (f := Prod.snd) hmem)
  | take msg =>
      unfold State.receive
      cases typeOfMessage msg with
      | kRequest => exact hdue
      | kResponse => exact s.answer_due _ _ hdue
      | kNotify => cases msg.content <;> exact hdue
  | suspend co caller =>
      rw [((s.suspend co).switchBack_spec co caller).blocked,
        ((s.suspend co).switchBack_spec co caller).woken]
      exact hdue
  | block co caller session' =>
      rw [((s.block session' co).switchBack_spec co caller).blocked,
        ((s.block session' co).switchBack_spec co caller).woken]
      refine hdue.imp_left fun hmem => List.mem_cons_of_mem _ (List.mem_filter.mpr ⟨hmem, ?_⟩)
      refine decide_eq_true ?_
      rintro rfl
      exact hwait hmem co rfl
  | finish co caller e =>
      rw [(s.finish_spec co caller e).blocked, (s.finish_spec co caller e).woken]
      exact hdue

end Stp.Coroutines
