import Stp.Process.Ledger

/-!
# Lifetime and scheduling of processes

The ledgers of all processes are balanced in every reachable state of the kernel, and the registry
leads only to processes whose registration reference has not been dropped. So references are counted
exactly, `Process::destroy` runs when the last one is dropped and nothing touches the process
afterwards; and whoever runs or queues a process does so alone.
-/

namespace Stp.Process

open Tally

variable {P V W C : Type*} [DecidableEq P]

/-! ### Counting over all stacks -/

/-- What the frames of a stack that are about `p` hold together. -/
def weigh (weight : Frame P V → Nat) (p : P) (stack : List (Frame P V)) : Nat :=
  ((stack.filter fun frame => frame.process = p).map weight).sum

theorem weigh_append (weight : Frame P V → Nat) (p : P) (stack stack' : List (Frame P V)) :
    weigh weight p (stack ++ stack') = weigh weight p stack + weigh weight p stack' := by
  simp [weigh]

theorem weigh_same (weight : Frame P V → Nat) {p : P} {frames : List (Frame P V)}
    (hframes : ∀ frame ∈ frames, frame.process = p) :
    weigh weight p frames = (frames.map weight).sum := by
  rw [weigh, List.filter_eq_self.mpr fun frame hframe => decide_eq_true (hframes frame hframe)]

theorem weigh_other (weight : Frame P V → Nat) {p q : P} (hne : q ≠ p) {frames : List (Frame P V)}
    (hframes : ∀ frame ∈ frames, frame.process = p) : weigh weight q frames = 0 := by
  rw [weigh, List.filter_eq_nil_iff.mpr]
  · rfl
  · intro frame hframe
    rw [hframes frame hframe]
    simpa using hne.symm

theorem weigh_add (weight weight' : Frame P V → Nat) (p : P) (stack : List (Frame P V)) :
    weigh (fun frame => weight frame + weight' frame) p stack
      = weigh weight p stack + weigh weight' p stack := by
  unfold weigh
  exact List.sum_map_add

variable [Fintype W] [Fintype C]

def State.tally (s : State P V W C) (p : P) (weight : Frame P V → Nat) : Nat :=
  total (weigh weight p) s.stack

theorem State.tally_add (s : State P V W C) (p : P) (weight weight' : Frame P V → Nat) :
    s.tally p (fun frame => weight frame + weight' frame) = s.tally p weight + s.tally p weight' := by
  unfold State.tally
  rw [← total_add]
  congr 1
  funext stack
  exact weigh_add weight weight' p stack

/-- What is held is held by some frame on some stack. -/
theorem State.exists_of_tally {s : State P V W C} {p : P} {weight : Frame P V → Nat}
    (htally : 0 < s.tally p weight) :
    ∃ i, ∃ frame ∈ s.stack i, frame.process = p ∧ 0 < weight frame := by
  by_contra hnone
  refine htally.ne' (total_eq_zero.mpr fun i => ?_)
  refine List.sum_eq_zero fun x hx => ?_
  obtain ⟨frame, hframe, rfl⟩ := List.mem_map.mp hx
  obtain ⟨hmem, hprocess⟩ := List.mem_filter.mp hframe
  by_contra hpositive
  exact hnone ⟨i, frame, hmem, of_decide_eq_true hprocess, Nat.pos_of_ne_zero hpositive⟩

variable [DecidableEq W] [DecidableEq C]

section After

variable {s : State P V W C} {i : W ⊕ C} {p : P} {taken rest : List (Frame P V)} {view : View P V}

/-- Replacing frames on one stack is a trade for the process they are about. -/
theorem State.traded_after (hstack : s.stack i = taken ++ rest)
    (htaken : ∀ frame ∈ taken, frame.process = p) (hput : ∀ frame ∈ view.frames, frame.process = p)
    (registry : Registry P) (sched : Sched.State P W (W ⊕ C)) :
    Traded taken view.frames (s.tally p) ((s.after i p rest view registry sched).tally p) := by
  intro weight
  have hle := le_total (weigh weight p) s.stack i
  have hupdate := total_update (weigh weight p) s.stack i (view.frames ++ rest)
  rw [hstack, weigh_append, weigh_append, weigh_same weight htaken, weigh_same weight hput]
    at hupdate
  rw [hstack, weigh_append, weigh_same weight htaken] at hle
  refine ⟨s.tally p weight - (taken.map weight).sum, ?_, ?_⟩
  · unfold State.tally
    omega
  · rw [State.tally, State.tally, State.stack_after]
    omega

theorem State.tally_after_other {q : P} (hne : q ≠ p) (hstack : s.stack i = taken ++ rest)
    (htaken : ∀ frame ∈ taken, frame.process = p) (hput : ∀ frame ∈ view.frames, frame.process = p)
    (registry : Registry P) (sched : Sched.State P W (W ⊕ C)) :
    (s.after i p rest view registry sched).tally q = s.tally q := by
  funext weight
  have hupdate := total_update (weigh weight q) s.stack i (view.frames ++ rest)
  rw [hstack, weigh_append, weigh_append, weigh_other weight hne htaken,
    weigh_other weight hne hput] at hupdate
  rw [State.tally, State.tally, State.stack_after]
  omega

end After

omit [Fintype C] in
theorem Effect.Acts.count {s : State P V W C} {i : W ⊕ C} {p : P} {effect : Effect}
    {registry : Registry P} {sched : Sched.State P W (W ⊕ C)}
    (hacts : effect.Acts s i p registry sched) :
    sched.queue.count p + effect.pops = s.sched.queue.count p + effect.pushes
      ∧ ∀ q, q ≠ p → sched.queue.count q = s.sched.queue.count q := by
  cases effect with
  | none | find pid | reg pid | unreg pid erased =>
      simp only [Effect.Acts] at hacts
      obtain rfl : sched = s.sched := by tauto
      exact ⟨rfl, fun _ _ => rfl⟩
  | resume =>
      obtain ⟨-, hstep⟩ := hacts
      have hqueue : sched.queue = s.sched.queue ++ [p] := hstep.queues
      rw [hqueue]
      refine ⟨by simp, fun q hne => ?_⟩
      rw [List.count_append, List.count_singleton, if_neg (by simpa using hne.symm), Nat.add_zero]
  | pop =>
      obtain ⟨-, w, -, hstep⟩ := hacts
      have hqueue : s.sched.queue = p :: sched.queue := hstep.queues
      rw [hqueue]
      refine ⟨by simp, fun q hne => ?_⟩
      rw [List.count_cons, if_neg (by simpa using hne.symm), Nat.add_zero]

/-! ### The invariant of the kernel -/

structure Sound (s : State P V W C) : Prop where
  balanced : ∀ p, Balanced (s.proc p) (s.kept p) (s.sched.queue.count p) (s.tally p)
  mapped : ∀ pid p, s.registry.find pid = some p →
    (s.proc p).registered = true ∧ (s.proc p).pid = pid

omit [DecidableEq W] [DecidableEq C] in
theorem sound_fresh : Sound (State.fresh : State P V W C) where
  balanced p := by
    have htally : (State.fresh : State P V W C).tally p = fun _ => 0 := by
      funext weight
      exact total_eq_zero.mpr fun _ => rfl
    rw [htally]
    constructor <;>
      simp [State.fresh, Proc.unused, Proc.waiting, Mailbox.empty, Sched.State.queue,
        Sched.State.fresh, Sched.Scheduler.fresh]
  mapped pid p hfind := absurd hfind (by simp [State.fresh, Registry.empty, Registry.find])

/-- What the effect of a step on the registry leaves to be shown about the process it is about. -/
theorem Sound.find {s : State P V W C} (hs : Sound s) {i : W ⊕ C} {p : P} {effect : Effect}
    {registry : Registry P} {sched : Sched.State P W (W ⊕ C)}
    (hacts : effect.Acts s i p registry sched) (pid : ProcessT) (heffect : effect = .find pid) :
    (s.proc p).registered = true := by
  subst heffect
  exact (hs.mapped pid p hacts.1).1

omit [DecidableEq P] [Fintype C] in
/-- An entry of the registry after a step was there before, unless the step made it, and is not the
one that the step erased. -/
theorem Effect.Acts.mapped {s : State P V W C} {i : W ⊕ C} {p q : P} {effect : Effect}
    {registry : Registry P} {sched : Sched.State P W (W ⊕ C)}
    (hacts : effect.Acts s i p registry sched) {pid : ProcessT}
    (hfind : registry.find pid = some q) :
    (effect = .reg pid ∧ q = p)
      ∨ (s.registry.find pid = some q ∧ ∀ erased, effect ≠ .unreg pid erased) := by
  cases effect with
  | none =>
      obtain ⟨rfl, -⟩ := hacts
      exact Or.inr ⟨hfind, by simp⟩
  | find id =>
      obtain ⟨-, rfl, -⟩ := hacts
      exact Or.inr ⟨hfind, by simp⟩
  | reg id =>
      obtain ⟨hreg, -⟩ := hacts
      obtain ⟨rfl, rfl⟩ : (s.registry.reg p).1 = id ∧ (s.registry.reg p).2 = registry := by
        rw [hreg]
        exact ⟨rfl, rfl⟩
      obtain ⟨rfl, rfl⟩ | hfind := Registry.find_reg hfind
      · exact Or.inl ⟨rfl, rfl⟩
      · exact Or.inr ⟨hfind, by simp⟩
  | unreg id erased =>
      obtain ⟨hunreg, -⟩ := hacts
      obtain rfl : (s.registry.unreg id).2 = registry := by rw [hunreg]
      obtain ⟨hne, hfind⟩ := Registry.find_unreg hfind
      refine Or.inr ⟨hfind, ?_⟩
      rintro erased' heq
      exact hne (Effect.unreg.inj heq).1.symm
  | resume | pop =>
      obtain ⟨rfl, -⟩ := hacts
      exact Or.inr ⟨hfind, by simp⟩

theorem Step.sound {s s' : State P V W C} {touched : List P} (hstep : Step s touched s')
    (hs : Sound s) : Sound s' := by
  cases hstep with
  | sched sched hstep =>
      have hqueue : sched.queue = s.sched.queue := hstep.queues
      exact ⟨fun p => hqueue ▸ hs.balanced p, hs.mapped⟩
  | loop w sched hstack hstep =>
      have hqueue : sched.queue = s.sched.queue := hstep.queues
      exact ⟨fun p => hqueue ▸ hs.balanced p, hs.mapped⟩
  | findNothing i pid hcall hfind => exact hs
  | move i p rest taken effect view registry sched hsending hstack hmove hacts =>
      obtain ⟨htaken, hput⟩ := hmove.subject
      obtain ⟨hcount, hcount'⟩ := hacts.count
      have hproc : (s.after i p rest view registry sched).proc p = view.proc :=
        Function.update_self _ _ _
      constructor
      · intro q
        by_cases hq : q = p
        · subst hq
          have hkept : (s.after i q rest view registry sched).kept q = view.kept :=
            Function.update_self _ _ _
          rw [hproc, hkept]
          exact hmove.balanced (hs.balanced q) hcount
            (State.traded_after hstack htaken hput registry sched) (hs.find hacts)
        · have hsame := hs.balanced q
          rw [← hcount' q hq, ← State.tally_after_other hq hstack htaken hput registry sched]
            at hsame
          simpa [State.after, hq] using hsame
      · intro pid q hfind
        by_cases hq : q = p
        · subst hq
          rw [hproc]
          obtain ⟨heffect, -⟩ | ⟨hbefore, hkept⟩ := hacts.mapped hfind
          · subst heffect
            cases hmove
            exact ⟨rfl, rfl⟩
          · obtain ⟨hregistered, hpid⟩ := hs.mapped pid q hbefore
            obtain ⟨hreg, hid⟩ | ⟨id, -, hunborn, -⟩ | ⟨erased, herased⟩ := hmove.identity
            · exact ⟨hreg.trans hregistered, hid.trans hpid⟩
            · have hborn := ((hs.balanced q).alive (by simp [hregistered])).1
              exact absurd hborn (by simpa [State.view] using hunborn)
            · exact absurd (hpid ▸ herased) (hkept erased)
        · obtain ⟨-, rfl⟩ | ⟨hbefore, -⟩ := hacts.mapped hfind
          · exact absurd rfl hq
          · simpa [State.after, hq] using hs.mapped pid q hbefore

theorem sound_of_reachable {s : State P V W C} (hs : system.Reachable s) : Sound s := by
  refine Transition.System.Reachable.invariant ?_ ?_ hs
  · rintro s rfl
    exact sound_fresh
  · intro s touched s' _ hs hstep
    exact hstep.sound hs

/-! ### Scheduling -/

/-- In `process::resume(p)`, up to where the worker has queued `p` again. -/
def Frame.Runs : Frame P V → Prop
  | .running _ _ | .returned _ .kResume | .resuming _ .worker | .queueing _ .worker => True
  | _ => False

/-- In `push_message`, between the append and the end of its call of `sched::resume`. -/
def Frame.Pushes : Frame P V → Prop
  | .pushed _ _ | .resuming _ (.push _) | .queueing _ (.push _) => True
  | _ => False

/-- In `process::spawn`, up to where it has queued the process. -/
def Frame.Spawns : Frame P V → Prop
  | .creating _ | .resuming _ .spawn | .queueing _ .spawn => True
  | _ => False

omit [DecidableEq P] in
theorem Frame.runs_or_pushes_or_spawns {frame : Frame P V}
    (hholds : 0 < frame.token ∨ 0 < frame.pushing) :
    frame.Runs ∨ frame.Pushes ∨ frame.Spawns := by
  cases frame with
  | running | creating | pushed => simp [Frame.Runs, Frame.Pushes, Frame.Spawns]
  | returned p result => cases result <;> simp_all [Frame.Runs]
  | resuming p site | queueing p site =>
      cases site <;> simp [Frame.Runs, Frame.Pushes, Frame.Spawns]
  | retired | tail | holding | destroying => simp at hholds

/-- **The scheduling token.** A process is queued at most once, not while a worker is in a part of
`p->resume()` that touches its state, and no two workers are. A process that is up and has a message
to take is queued, or it is being run, pushed to, or spawned by a thread that will queue it. -/
theorem scheduling_token {s : State P V W C} (hs : system.Reachable s) (p : P) :
    s.sched.queue.count p + s.tally p Frame.executing ≤ 1
      ∧ ((s.proc p).created = true → (s.proc p).down = false → (s.proc p).mailbox.messages ≠ [] →
        p ∈ s.sched.queue ∨ ∃ i, ∃ frame ∈ s.stack i, frame.process = p
          ∧ (frame.Runs ∨ frame.Pushes ∨ frame.Spawns)) := by
  have hbalanced := (sound_of_reachable hs).balanced p
  have htoken := hbalanced.token
  have hadd := s.tally_add p Frame.executing Frame.queues
  change s.tally p Frame.token = _ at hadd
  refine ⟨?_, fun hborn hup hmessages => ?_⟩
  · have := Bool.toNat_le (s.proc p).created
    omega
  · rw [hborn, hup, Bool.toNat_true, Bool.toNat_false] at htoken
    by_cases hqueued : p ∈ s.sched.queue
    · exact Or.inl hqueued
    · refine Or.inr ?_
      have hcount := List.count_eq_zero.mpr hqueued
      by_cases hheld : 0 < s.tally p Frame.token
      · obtain ⟨i, frame, hmem, hprocess, hholds⟩ := State.exists_of_tally hheld
        exact ⟨i, frame, hmem, hprocess, Frame.runs_or_pushes_or_spawns (Or.inl hholds)⟩
      · -- the token is with the mailbox, and then a writer has yet to see the flag
        have hpushing := hbalanced.pushing (by omega) hmessages
        obtain ⟨i, frame, hmem, hprocess, hholds⟩ := State.exists_of_tally hpushing
        exact ⟨i, frame, hmem, hprocess, Frame.runs_or_pushes_or_spawns (Or.inr hholds)⟩

/-- A thread spawns a process, finds it, and appends a message to its mailbox. -/
theorem exists_pushed : ∃ s : State Nat Nat (Fin 2) Unit, system.Reachable s
    ∧ s.sched.queue = [0] ∧ s.stack (.inr ()) = [.pushed 0 .handle] ∧ (s.proc 0).refcnt = 3
    ∧ (s.proc 0).created = true ∧ (s.proc 0).down = false ∧ (s.proc 0).mailbox.messages ≠ [] := by
  have hfresh : system.Reachable (State.fresh : State Nat Nat (Fin 2) Unit) := .of_init rfl
  have hcreate := hfresh.step (Step.move (.inr ()) 0 [] [] (.reg 1)
    ⟨.fresh 1, 0, [.creating 0]⟩ _ _ rfl rfl (.create _ _ 1 rfl rfl) ⟨rfl, rfl⟩)
  have hcreated := hcreate.step (Step.move (.inr ()) 0 [] [.creating 0] .none
    ⟨.fresh 1, 0, [.resuming 0 .spawn]⟩ _ _ rfl rfl (.created _ _) ⟨rfl, rfl⟩)
  have href := hcreated.step (Step.move (.inr ()) 0 [] [.resuming 0 .spawn] .none
    ⟨(Proc.fresh 1).ref, 0, [.queueing 0 .spawn]⟩ _ _ rfl rfl (.ref _ _ _) ⟨rfl, rfl⟩)
  have hqueued := href.step (Step.move (.inr ()) 0 [] [.queueing 0 .spawn] .resume
    ⟨(Proc.fresh 1).ref, 0, []⟩ _ _ rfl rfl (.enqueue _ _ _) ⟨rfl, .resume _ _ trivial rfl⟩)
  have hfound := hqueued.step (Step.move (.inr ()) 0 [] [] (.find 1)
    ⟨(Proc.fresh 1).ref.ref, 0, [.holding 0]⟩ _ _ rfl rfl (.find _ _ 1 rfl) ⟨rfl, rfl, rfl⟩)
  have happended := hfound.step (Step.move (.inr ()) 0 [] [.holding 0] .none
    ⟨{ (Proc.fresh 1).ref.ref with mailbox := Mailbox.empty.append ⟨0, 0, .value 5⟩ }, 0,
      [.pushed 0 .handle]⟩ _ _ rfl rfl (.append _ _ _) ⟨rfl, rfl⟩)
  exact ⟨_, happended, rfl, rfl, rfl, rfl, rfl, List.cons_ne_nil _ _⟩

theorem scheduling_token_pushed : ∃ s : State Nat Nat (Fin 2) Unit,
    s.stack (.inr ()) = [.pushed 0 .handle] ∧ s.sched.queue.count 0 + s.tally 0 Frame.executing ≤ 1
      ∧ (0 ∈ s.sched.queue ∨ ∃ i, ∃ frame ∈ s.stack i, frame.process = 0
        ∧ (frame.Runs ∨ frame.Pushes ∨ frame.Spawns)) := by
  obtain ⟨s, hs, -, hstack, -, hborn, hup, hmessages⟩ := exists_pushed
  exact ⟨s, hstack, (scheduling_token hs 0).1, (scheduling_token hs 0).2 hborn hup hmessages⟩

/-! ### Lifetime -/

omit [DecidableEq W] [DecidableEq C] in
theorem State.tally_refs (s : State P V W C) (p : P) :
    s.tally p Frame.refs = s.tally p Frame.popped + s.tally p Frame.handles
      + s.tally p Frame.entering + s.tally p Frame.retiring := by
  calc s.tally p Frame.refs
      = s.tally p (fun frame => frame.popped + frame.handles + frame.entering)
        + s.tally p Frame.retiring := s.tally_add p _ _
    _ = s.tally p (fun frame => frame.popped + frame.handles) + s.tally p Frame.entering
        + s.tally p Frame.retiring := by rw [s.tally_add p (fun frame => _) _]
    _ = _ := by rw [s.tally_add p _ _]

omit [Fintype C] in
/-- A process that has gone down stays down. -/
theorem Step.down {s s' : State P V W C} {touched : List P} (hstep : Step s touched s') {p : P}
    (hdown : (s.proc p).created = true ∧ (s.proc p).down = true) :
    (s'.proc p).created = true ∧ (s'.proc p).down = true := by
  cases hstep with
  | sched | loop | findNothing => exact hdown
  | move i q rest taken effect view registry sched hsending hstack hmove hacts =>
      by_cases hq : p = q
      · subst hq
        obtain ⟨hborn, -, hkeeps⟩ := hmove.keeps hdown.1
        have hproc : (s.after i p rest view registry sched).proc p = view.proc :=
          Function.update_self _ _ _
        rw [hproc]
        exact ⟨hborn, hkeeps hdown.2⟩
      · simpa [State.after, hq] using hdown

omit [Fintype C] in
theorem down_of_leads {s s' : State P V W C} (hleads : system.Leads s s') {p : P}
    (hdown : (s.proc p).created = true ∧ (s.proc p).down = true) :
    (s'.proc p).created = true ∧ (s'.proc p).down = true := by
  refine Transition.System.Leads.keeps
    (P := fun s => (s.proc p).created = true ∧ (s.proc p).down = true) ?_ hleads hdown
  intro s touched s' hdown hstep
  exact hstep.down hdown

theorem Step.not_destroyed {s s' : State P V W C} {touched : List P} (hstep : Step s touched s')
    (hs : Sound s) {p : P} (hp : p ∈ touched) : (s.proc p).destroyed = 0 := by
  have hqueue : ∀ q ∈ s.sched.queue, (s.proc q).destroyed = 0 := by
    intro q hq
    have := List.count_pos_iff.mpr hq
    exact ((hs.balanced q).alive (by omega)).2.2.2
  cases hstep with
  | sched => exact hqueue p hp
  | loop | findNothing => exact absurd hp List.not_mem_nil
  | move i q rest taken effect view registry sched hsending hstack hmove hacts =>
      obtain hp | hp := List.mem_cons.mp hp
      · subst hp
        obtain ⟨htaken, hput⟩ := hmove.subject
        exact hmove.not_destroyed (hs.balanced p) hacts.count.1
          (State.traded_after hstack htaken hput registry sched) (hs.find hacts)
      · cases effect with
        | resume => exact hqueue p hp
        | _ => exact absurd hp List.not_mem_nil

/-- **Lifetime by reference counting.** The references to a process are the registration's, one for
each entry in the run queue or on its way there, one for each worker that took the process and has
not dropped it, and one for each handle. `Process::destroy` runs once exactly when there are none;
by then the process is unregistered and will not be queued or run again, and no step touches a
process that has been destroyed. -/
theorem lifetime_by_reference_counting {s : State P V W C} (hs : system.Reachable s) (p : P) :
    (s.proc p).refcnt = ((s.proc p).registered.toNat + s.tally p Frame.retiring : Nat)
        + (s.sched.queue.count p + s.tally p Frame.entering : Nat) + s.tally p Frame.popped
        + (s.tally p Frame.handles + s.kept p : Nat)
    ∧ s.tally p Frame.destroys + (s.proc p).destroyed
        = (if (s.proc p).created ∧ (s.proc p).refcnt = 0 then 1 else 0)
    ∧ (0 < s.tally p Frame.destroys + (s.proc p).destroyed →
        (s.proc p).registered = false ∧ (∀ pid, s.registry.find pid ≠ some p)
          ∧ ∀ s', system.Leads s s' → p ∉ s'.sched.queue ∧ s'.tally p Frame.executing = 0)
    ∧ ∀ touched s', Step s touched s' → p ∈ touched → (s.proc p).destroyed = 0 := by
  have hsound := sound_of_reachable hs
  have hbalanced := hsound.balanced p
  have hrefs := hbalanced.refs
  have hdestroyed := hbalanced.destroyed
  refine ⟨?_, ?_, fun hgone => ?_, fun touched s' hstep hp => hstep.not_destroyed hsound hp⟩
  · rw [s.tally_refs p] at hrefs
    omega
  · rw [hdestroyed]
    by_cases hborn : (s.proc p).created = true <;> by_cases hzero : (s.proc p).refcnt = 0 <;>
      simp [hborn, hzero]
  · have hdead : ((s.proc p).created && (s.proc p).refcnt == 0) = true :=
      Bool.toNat_eq_one.mp (le_antisymm (Bool.toNat_le _) (hdestroyed ▸ hgone))
    simp only [Bool.and_eq_true, beq_iff_eq] at hdead
    obtain ⟨hdown, hunregistered, -⟩ := hbalanced.gone hdead.1 hdead.2
    refine ⟨hunregistered, fun pid hfind => ?_, fun s' hleads => ?_⟩
    · exact absurd (hsound.mapped pid p hfind).1 (by simp [hunregistered])
    · have hdown' := down_of_leads hleads ⟨hdead.1, hdown⟩
      have htoken := ((sound_of_reachable (hs.leads hleads)).balanced p).token
      have hadd := s'.tally_add p Frame.executing Frame.queues
      change s'.tally p Frame.token = _ at hadd
      rw [hdown'.1, hdown'.2, Bool.toNat_true] at htoken
      exact ⟨List.count_eq_zero.mp (by omega), by omega⟩

/-- A thread spawns a process and lets go of it, and a worker runs it to its end. -/
theorem exists_destroyed : ∃ s : State Nat Nat (Fin 2) Unit, system.Reachable s
    ∧ (s.proc 0).created = true ∧ (s.proc 0).refcnt = 0 ∧ (s.proc 0).destroyed = 1 := by
  have hfresh : system.Reachable (State.fresh : State Nat Nat (Fin 2) Unit) := .of_init rfl
  have hcreate := hfresh.step (Step.move (.inr ()) 0 [] [] (.reg 1)
    ⟨.fresh 1, 0, [.creating 0]⟩ _ _ rfl rfl (.create _ _ 1 rfl rfl) ⟨rfl, rfl⟩)
  have hcreated := hcreate.step (Step.move (.inr ()) 0 [] [.creating 0] .none
    ⟨.fresh 1, 0, [.resuming 0 .spawn]⟩ _ _ rfl rfl (.created _ _) ⟨rfl, rfl⟩)
  have href := hcreated.step (Step.move (.inr ()) 0 [] [.resuming 0 .spawn] .none
    ⟨(Proc.fresh 1).ref, 0, [.queueing 0 .spawn]⟩ _ _ rfl rfl (.ref _ _ _) ⟨rfl, rfl⟩)
  have hqueued := href.step (Step.move (.inr ()) 0 [] [.queueing 0 .spawn] .resume
    ⟨(Proc.fresh 1).ref, 0, []⟩ _ _ rfl rfl (.enqueue _ _ _) ⟨rfl, .resume _ _ trivial rfl⟩)
  have henter := hqueued.step (Step.sched _ (.enter 0 rfl rfl))
  have hlock := henter.step (Step.sched _ (.lock 0 rfl rfl))
  have hrefill := hlock.step (Step.sched _ (.refill 0 rfl rfl))
  have hpop := hrefill.step (Step.move (.inl 0) 0 [] [] .pop
    ⟨(Proc.fresh 1).ref, 0, [.running 0 .dispatch]⟩ _ _ rfl rfl (.pop _ _)
    ⟨rfl, 0, rfl, .pop 0 0 [] rfl rfl⟩)
  have hdown := hpop.step (Step.move (.inl 0) 0 [] [.running 0 .dispatch] .none
    ⟨{ (Proc.fresh 1).ref with down := true }, 0, [.returned 0 .kDown]⟩ _ _ rfl rfl
    (.dispatchDown _ _) ⟨rfl, rfl⟩)
  have hunreg := hdown.step (Step.move (.inl 0) 0 [] [.returned 0 .kDown] (.unreg 1 true)
    ⟨{ (Proc.fresh 1).ref with down := true, registered := false }, 0, [.retired 0]⟩ _ _ rfl rfl
    (.unreg { (Proc.fresh 1).ref with down := true } 0) ⟨rfl, rfl⟩)
  have hretire := hunreg.step (Step.move (.inl 0) 0 [] [.retired 0] .none
    ⟨{ (Proc.fresh 1) with down := true, registered := false }, 0, [.tail 0]⟩ _ _ rfl rfl
    (.retire _ _) ⟨rfl, rfl⟩)
  have hfinish := hretire.step (Step.move (.inl 0) 0 [] [.tail 0] .none
    ⟨{ (Proc.fresh 1) with down := true, registered := false, refcnt := 0 }, 0, [.destroying 0]⟩ _ _
    rfl rfl (.finish _ _) ⟨rfl, rfl⟩)
  have hdestroy := hfinish.step (Step.move (.inl 0) 0 [] [.destroying 0] .none
    ⟨{ (Proc.fresh 1) with down := true, registered := false, refcnt := 0, destroyed := 1 }, 0, []⟩
    _ _ rfl rfl (.destroy _ _) ⟨rfl, rfl⟩)
  exact ⟨_, hdestroy, rfl, rfl, rfl⟩

/-- In the one state a process has its registration, an entry in the queue and a handle; in the other
one it is gone. -/
theorem lifetime_by_reference_counting_destroyed :
    (∃ s : State Nat Nat (Fin 2) Unit, s.stack (.inr ()) = [.pushed 0 .handle]
      ∧ (3 : Int) = ((s.proc 0).registered.toNat + s.tally 0 Frame.retiring : Nat)
        + (s.sched.queue.count 0 + s.tally 0 Frame.entering : Nat) + s.tally 0 Frame.popped
        + (s.tally 0 Frame.handles + s.kept 0 : Nat)
      ∧ s.tally 0 Frame.destroys + (s.proc 0).destroyed = 0
      ∧ ∀ touched s', Step s touched s' → 0 ∈ touched → (s.proc 0).destroyed = 0)
    ∧ ∃ s : State Nat Nat (Fin 2) Unit, (s.proc 0).destroyed = 1
      ∧ s.tally 0 Frame.destroys + (s.proc 0).destroyed = 1 ∧ (s.proc 0).registered = false
      ∧ (∀ pid, s.registry.find pid ≠ some 0)
      ∧ (∀ s', system.Leads s s' → 0 ∉ s'.sched.queue ∧ s'.tally 0 Frame.executing = 0)
      ∧ ∀ touched s', Step s touched s' → 0 ∉ touched := by
  constructor
  · obtain ⟨s, hs, -, hstack, hrefcnt, -⟩ := exists_pushed
    obtain ⟨hrefs, hdestroyed, -, htouched⟩ := lifetime_by_reference_counting hs 0
    rw [hrefcnt] at hrefs
    rw [if_neg fun hdead => absurd (hrefcnt.symm.trans hdead.2) (by decide)] at hdestroyed
    exact ⟨s, hstack, hrefs, hdestroyed, htouched⟩
  · obtain ⟨s, hs, hborn, hrefcnt, hgone⟩ := exists_destroyed
    obtain ⟨-, hdestroyed, hunregistered, htouched⟩ := lifetime_by_reference_counting hs 0
    rw [if_pos ⟨hborn, hrefcnt⟩] at hdestroyed
    obtain ⟨hregistered, hfind, hnever⟩ := hunregistered (hdestroyed.symm ▸ Nat.one_pos)
    refine ⟨s, hgone, hdestroyed, hregistered, hfind, hnever, fun touched s' hstep hmem => ?_⟩
    exact absurd (hgone.symm.trans (htouched touched s' hstep hmem)) Nat.one_ne_zero

end Stp.Process
