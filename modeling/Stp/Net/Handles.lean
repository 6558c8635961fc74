import Stp.Net.Machine

/-!
# The handles of the requests

A coroutine blocked in `process::request` keeps a handle on its target in its frame, so the target
is not destroyed, whether it has gone down or not.
-/

namespace Stp.Net

open Process

variable {P V W C : Type*}

/-- The coroutines blocked in a request to a process are no more than the handles kept on it. -/
def State.Kept (s : State P V W C) : Prop :=
  ∀ q, ∃ waiting : Finset (P × Nat), waiting.card ≤ s.kernel.kept q
    ∧ ∀ p co session, s.request p co = .waiting q session → (p, co) ∈ waiting

theorem kept_fresh : (State.fresh : State P V W C).Kept := by
  intro q
  refine ⟨∅, Nat.zero_le _, ?_⟩
  intro p co session hrequest
  cases hrequest

variable {s s' : State P V W C}

/-- Nobody begins to wait. -/
theorem State.Kept.mono (hs : s.Kept) (hkept : ∀ q, s'.kernel.kept q = s.kernel.kept q)
    (hrequest : ∀ p co q session, s'.request p co = .waiting q session →
      s.request p co = .waiting q session) : s'.Kept := by
  intro q
  obtain ⟨waiting, hcard, hwaiting⟩ := hs q
  refine ⟨waiting, ?_, ?_⟩
  · rw [hkept]
    exact hcard
  · intro p co session hrequest'
    apply hwaiting p co session
    exact hrequest p co q session hrequest'

/-- Only a coroutine that gives up or gets back the thread changes the number of handles kept. -/
theorem move_kept {i : W ⊕ C} {p : P} {rest taken put : List (Frame P V)} {effect : Effect}
    {c c' : Proc V} {kept kept' : Nat}
    (hmove : Move i p rest effect ⟨c, kept, taken⟩ ⟨c', kept', put⟩)
    (hkeep : taken = [.holding p] → kept' = kept) (hrestore : taken = [] → effect ≠ .none) :
    kept' = kept := by
  cases hmove with
  | keep => exact hkeep rfl
  | restore => exact absurd rfl (hrestore rfl)
  | _ => rfl

theorem State.Aside.kept {i : W ⊕ C} {p : P} {rest taken : List (Frame P V)} {effect : Effect}
    {view : View P V} (haside : s.Aside p rest taken effect view)
    (hmove : Move i p rest effect (s.kernel.view p taken) view) :
    view.kept = s.kernel.kept p := by
  refine move_kept hmove (fun hholding => ?_) fun hempty => ?_
  · cases haside with
    | handle effect view houtside hkept => exact hkept
    | other frame effect view hframe hhandle =>
        rw [List.singleton_inj] at hholding
        exact absurd hholding hhandle
    | pop | find => cases hholding
  · cases haside with
    | pop | find => exact Effect.noConfusion
    | handle | other => cases hempty

variable [DecidableEq P]

theorem kept_after [DecidableEq W] [DecidableEq C] {kernel : Process.State P V W C} {i : W ⊕ C}
    {p : P} {rest : List (Frame P V)} {view : View P V} (hkept : view.kept = kernel.kept p)
    (registry : Registry P) (sched : Sched.State P W (W ⊕ C)) (q : P) :
    (kernel.after i p rest view registry sched).kept q = kernel.kept q := by
  by_cases hq : q = p
  · rw [hq, ← hkept]
    exact Function.update_self _ _ _
  · exact Function.update_of_ne hq _ _

/-- A coroutine that goes on in `request` is not waiting. -/
theorem waiting_of_setRequest {p : P} {co : Nat} {request : Request P}
    (hrequest : ∀ q session, request ≠ .waiting q session) {r : P} {x : Nat} {q : P}
    {session : SessionT} (hwaiting : (s.setRequest p co request).request r x = .waiting q session) :
    s.request r x = .waiting q session ∧ (r, x) ≠ (p, co) := by
  rw [s.setRequest_apply] at hwaiting
  split at hwaiting
  · exact absurd hwaiting (hrequest q session)
  · next hother =>
      refine ⟨hwaiting, fun hsame => hother ?_⟩
      exact ⟨congrArg Prod.fst hsame, congrArg Prod.snd hsame⟩

/-- A coroutine begins to wait, and a handle is kept for it. -/
theorem State.Kept.block (hs : s.Kept) {p q : P} {co : Nat} {session : SessionT}
    (hself : s'.kernel.kept q = s.kernel.kept q + 1)
    (hother : ∀ r, r ≠ q → s'.kernel.kept r = s.kernel.kept r)
    (hrequest : s'.request = (s.setRequest p co (.waiting q session)).request) : s'.Kept := by
  intro r
  obtain ⟨waiting, hcard, hwaiting⟩ := hs r
  by_cases hr : r = q
  · subst hr
    refine ⟨insert (p, co) waiting, ?_, fun x y session' hrequest' => ?_⟩
    · rw [hself]
      calc (insert (p, co) waiting).card ≤ waiting.card + 1 := Finset.card_insert_le _ _
        _ ≤ s.kernel.kept r + 1 := Nat.succ_le_succ hcard
    · rw [hrequest, s.setRequest_apply] at hrequest'
      split at hrequest'
      · next hsame =>
          rw [hsame.1, hsame.2]
          exact Finset.mem_insert_self _ _
      · exact Finset.mem_insert_of_mem (hwaiting x y session' hrequest')
  · refine ⟨waiting, ?_, fun x y session' hrequest' => ?_⟩
    · rw [hother r hr]
      exact hcard
    · rw [hrequest, s.setRequest_apply] at hrequest'
      split at hrequest'
      · cases hrequest'
        exact absurd rfl hr
      · exact hwaiting x y session' hrequest'

/-- A coroutine is woken, and takes its handle back. -/
theorem State.Kept.unblock (hs : s.Kept) {p q : P} {co kept : Nat} {session : SessionT}
    (hbefore : s.request p co = .waiting q session) (hkept : s.kernel.kept q = kept + 1)
    (hself : s'.kernel.kept q = kept) (hother : ∀ r, r ≠ q → s'.kernel.kept r = s.kernel.kept r)
    (hrequest : s'.request = (s.setRequest p co (.returned q session)).request) : s'.Kept := by
  intro r
  obtain ⟨waiting, hcard, hwaiting⟩ := hs r
  by_cases hr : r = q
  · subst hr
    refine ⟨waiting.erase (p, co), ?_, fun x y session' hrequest' => ?_⟩
    · rw [hself, Finset.card_erase_of_mem (hwaiting p co session hbefore)]
      omega
    · rw [hrequest] at hrequest'
      obtain ⟨hwaiting', hne⟩ := waiting_of_setRequest nofun hrequest'
      exact Finset.mem_erase.mpr ⟨hne, hwaiting x y session' hwaiting'⟩
  · refine ⟨waiting, ?_, fun x y session' hrequest' => ?_⟩
    · rw [hother r hr]
      exact hcard
    · rw [hrequest] at hrequest'
      exact hwaiting x y session' (waiting_of_setRequest nofun hrequest').1

variable [DecidableEq W] [DecidableEq C]

theorem Step.kept [Fintype W] {label : Label P V} (hstep : Step s label s') (hs : s.Kept) :
    s'.Kept := by
  cases hstep with
  | sched touched kernel hstep hsame =>
      refine hs.mono (fun q => ?_) fun _ _ _ _ => id
      rw [hsame]
  | aside i p rest taken effect view registry sched hsending hstack hmove hacts haside =>
      exact hs.mono (kept_after (haside.kept hmove) _ _) fun _ _ _ _ => id
  | create i p pid registry hsending hfresh hcall houtside hreg =>
      refine hs.mono (kept_after rfl _ _) fun r co q session hrequest => ?_
      by_cases hr : r = p
      · subst hr
        simp only [Function.update_self] at hrequest
        cases hrequest
      · simpa only [Function.update_of_ne hr] using hrequest
  | loop | call | newSession | releaseSession => exact hs.mono (fun _ => rfl) fun _ _ _ _ => id
  | send | sendSelf | drain | take | takeNothing | handled | down =>
      exact hs.mono (kept_after rfl _ _) fun _ _ _ _ => id
  | allocate | close =>
      exact hs.mono (fun _ => rfl) fun _ _ _ _ h => (waiting_of_setRequest nofun h).1
  | find | push | release =>
      exact hs.mono (kept_after rfl _ _) fun _ _ _ _ h => (waiting_of_setRequest nofun h).1
  | block i p q phase rest co session machine hholds hrequest hstep =>
      exact hs.block (Function.update_self _ _ _) (fun r hr => Function.update_of_ne hr _ _) rfl
  | unblock i p q phase rest co kept session outcome machine hruns hcode hrequest hkept hstep =>
      exact hs.unblock hrequest hkept (Function.update_self _ _ _)
        (fun r hr => Function.update_of_ne hr _ _) rfl

theorem kept_of_reachable [Fintype W] (hs : system.Reachable s) : s.Kept := by
  refine Transition.System.Reachable.invariant ?_ ?_ hs
  · rintro s rfl
    exact kept_fresh
  · intro s label s' _ hs hstep
    exact hstep.kept hs

/-- **The target of a blocked request is not destroyed.** -/
theorem not_destroyed_of_waiting [Fintype W] [Fintype C] (hs : system.Reachable s) {p q : P}
    {co : Nat} {session : SessionT} (hwaiting : s.request p co = .waiting q session) :
    0 < (s.kernel.proc q).refcnt ∧ s.kernel.tally q Frame.destroys = 0
      ∧ (s.kernel.proc q).destroyed = 0 := by
  obtain ⟨waiting, hcard, hmem⟩ := kept_of_reachable hs q
  have hpos : 0 < waiting.card := Finset.card_pos.mpr ⟨_, hmem p co session hwaiting⟩
  have hbalanced := (sound_of_reachable (kernel_reachable hs)).balanced q
  exact (hbalanced.alive (by omega)).2

end Stp.Net
