import Stp.Process.Kernel

/-!
# The ledger of a process

For one process, the calls in progress on all stacks are counted by what they hold. A call may hold
references to the process, and it may hold its scheduling token: a process has one token, which
passes from `spawn` to the run queue, to the worker that takes the process, and from there back to
the queue or, with the flag `wait`, to the mailbox, where the next writer picks it up, until the
process goes down. `Balanced` says that the two accounts are balanced, and that the registration
reference is dropped once at most. It is about the numbers only, so that a step has to be examined
once, for the process it is about; all other processes see no change.
-/

namespace Stp.Process

open Tally

variable {P V W C : Type*}

/-! ### What a call holds -/

def Frame.process : Frame P V → P
  | .running p _ | .returned p _ | .retired p | .tail p | .holding p | .pushed p _
  | .resuming p _ | .queueing p _ | .creating p | .destroying p => p

@[simp]
def Pusher.ofSelf : Pusher V → Nat
  | .self _ => 1
  | .handle => 0

@[simp]
def Pusher.ofHandle : Pusher V → Nat
  | .self _ => 0
  | .handle => 1

@[simp]
def Site.ofSelf : Site V → Nat
  | .push pusher => pusher.ofSelf
  | .worker | .spawn => 0

@[simp]
def Site.ofWorker : Site V → Nat
  | .worker => 1
  | .spawn => 0
  | .push pusher => pusher.ofSelf

@[simp]
def Site.ofHandle : Site V → Nat
  | .push pusher => pusher.ofHandle
  | .worker | .spawn => 0

/-- Of a worker that took the process and has not done the `unref` at the end. -/
@[simp]
def Frame.popped : Frame P V → Nat
  | .running _ _ | .returned _ _ | .retired _ | .tail _ => 1
  | .pushed _ pusher => pusher.ofSelf
  | .resuming _ site | .queueing _ site => site.ofWorker
  | .holding _ | .creating _ | .destroying _ => 0

/-- In the scope of a handle. -/
@[simp]
def Frame.handles : Frame P V → Nat
  | .holding _ => 1
  | .pushed _ pusher => pusher.ofHandle
  | .resuming _ site | .queueing _ site => site.ofHandle
  | .running _ _ | .returned _ _ | .retired _ | .tail _ | .creating _ | .destroying _ => 0

/-- Has taken the reference for an entry of `_resumeq` that it is about to push. -/
@[simp]
def Frame.entering : Frame P V → Nat
  | .queueing _ _ => 1
  | _ => 0

/-- Is to drop the reference of the registration. -/
@[simp]
def Frame.retiring : Frame P V → Nat
  | .retired _ => 1
  | _ => 0

@[simp]
def Frame.refs (frame : Frame P V) : Nat :=
  frame.popped + frame.handles + frame.entering + frame.retiring

/-- In a part of `p->resume()` that touches the state of the process. -/
@[simp]
def Frame.executing : Frame P V → Nat
  | .running _ _ => 1
  | .pushed _ pusher => pusher.ofSelf
  | .resuming _ site | .queueing _ site => site.ofSelf
  | _ => 0

/-- Is to queue the process: in `sched::resume`, or on the way there. -/
@[simp]
def Frame.queues : Frame P V → Nat
  | .returned _ .kResume | .resuming _ _ | .queueing _ _ | .creating _ => 1
  | _ => 0

@[simp]
def Frame.token (frame : Frame P V) : Nat := frame.executing + frame.queues

/-- Between the append and the compare-exchange of `push`. -/
@[simp]
def Frame.pushing : Frame P V → Nat
  | .pushed _ _ => 1
  | _ => 0

/-- Back in `process::resume` with `kDown`, about to call `retire`. -/
@[simp]
def Frame.downed : Frame P V → Nat
  | .returned _ .kDown => 1
  | _ => 0

@[simp]
def Frame.destroys : Frame P V → Nat
  | .destroying _ => 1
  | _ => 0

/-! ### The two accounts -/

/-- The token is with the mailbox. -/
def Proc.waiting (c : Proc V) : Nat := (c.mailbox.wait && !c.down).toNat

structure Balanced (c : Proc V) (kept queued : Nat) (tally : (Frame P V → Nat) → Nat) : Prop where
  token : c.waiting + queued + tally Frame.token + c.down.toNat = c.created.toNat
  refs : c.refcnt = c.registered.toNat + queued + tally Frame.refs + kept
  retire : tally Frame.downed + c.created.toNat ≤ c.down.toNat + c.registered.toNat
  destroyed : tally Frame.destroys + c.destroyed = (c.created && c.refcnt == 0).toNat
  unborn : c.created = false → c.refcnt = 0
  /-- Only a destructor makes a process that has gone down wait. -/
  drained : c.down = true → c.mailbox.wait = true → c.refcnt = 0
  pushing : c.waiting = 1 → c.mailbox.messages ≠ [] → 0 < tally Frame.pushing

section Balanced

variable {c : Proc V} {kept queued : Nat} {tally : (Frame P V → Nat) → Nat}

/-- Whoever has the token has it alone, and the process is up. -/
theorem Balanced.up (hbalanced : Balanced c kept queued tally)
    (htoken : 0 < queued + tally Frame.token) :
    c.created = true ∧ c.down = false ∧ c.mailbox.wait = false ∧ c.registered = true
      ∧ queued + tally Frame.token = 1 := by
  have haccount := hbalanced.token
  have hretire := hbalanced.retire
  have hcreated := Bool.toNat_le c.created
  have hdown : c.down = false := Bool.toNat_eq_zero.mp (by omega)
  have hwait : c.mailbox.wait = false := by
    have : (c.mailbox.wait && !c.down).toNat = 0 := by
      unfold Proc.waiting at haccount
      omega
    simpa [hdown] using this
  have hborn : c.created = true := Bool.toNat_eq_one.mp (by omega)
  refine ⟨hborn, hdown, hwait, ?_, by omega⟩
  refine Bool.toNat_eq_one.mp ?_
  have := Bool.toNat_le c.registered
  simp only [hborn, hdown, Bool.toNat_true, Bool.toNat_false] at hretire
  omega

/-- A process in `Process::destroy` has gone down, and nothing refers to it. -/
theorem Balanced.gone (hbalanced : Balanced c kept queued tally) (hborn : c.created = true)
    (hrefcnt : c.refcnt = 0) :
    c.down = true ∧ c.registered = false ∧ queued = 0 ∧ tally Frame.refs = 0 ∧ kept = 0 := by
  have hrefs := hbalanced.refs
  have hretire := hbalanced.retire
  have hdown := Bool.toNat_le c.down
  rw [hrefcnt] at hrefs
  rw [hborn, Bool.toNat_true] at hretire
  exact ⟨Bool.toNat_eq_one.mp (by omega), Bool.toNat_eq_zero.mp (by omega), by omega, by omega,
    by omega⟩

/-- The call of `retire` that is still to come finds the reference of the registration. -/
theorem Balanced.retires (hbalanced : Balanced c kept queued tally)
    (hdowned : 0 < tally Frame.downed) :
    c.created = true ∧ c.down = true ∧ c.registered = true ∧ tally Frame.downed = 1 := by
  have hretire := hbalanced.retire
  have hdown := Bool.toNat_le c.down
  have hregistered := Bool.toNat_le c.registered
  have hborn : c.created = true := by
    by_contra hunborn
    have hunborn := Bool.eq_false_of_not_eq_true hunborn
    have htoken := hbalanced.token
    have hrefs := hbalanced.refs
    rw [hbalanced.unborn hunborn] at hrefs
    rw [hunborn, Bool.toNat_false] at htoken
    omega
  rw [hborn, Bool.toNat_true] at hretire
  exact ⟨hborn, Bool.toNat_eq_one.mp (by omega), Bool.toNat_eq_one.mp (by omega), by omega⟩

/-- What is referred to is alive. -/
theorem Balanced.alive (hbalanced : Balanced c kept queued tally)
    (hreferred : 0 < c.registered.toNat + queued + tally Frame.refs + kept) :
    c.created = true ∧ 0 < c.refcnt ∧ tally Frame.destroys = 0 ∧ c.destroyed = 0 := by
  have hrefs := hbalanced.refs
  have hpositive : 0 < c.refcnt := by omega
  have hborn : c.created = true := by
    by_contra hunborn
    have := hbalanced.unborn (Bool.eq_false_of_not_eq_true hunborn)
    omega
  have hdestroyed := hbalanced.destroyed
  rw [beq_false_of_ne hpositive.ne', Bool.and_false, Bool.toNat_false] at hdestroyed
  exact ⟨hborn, hpositive, by omega, by omega⟩

theorem Balanced.destroying (hbalanced : Balanced c kept queued tally)
    (hdestroys : 0 < tally Frame.destroys) :
    c.created = true ∧ c.refcnt = 0 ∧ tally Frame.destroys = 1 ∧ c.destroyed = 0 := by
  have haccount := hbalanced.destroyed
  have hle := Bool.toNat_le (c.created && c.refcnt == 0)
  have hgone : (c.created && c.refcnt == 0) = true := Bool.toNat_eq_one.mp (by omega)
  simp only [Bool.and_eq_true, beq_iff_eq] at hgone
  exact ⟨hgone.1, hgone.2, by omega, by omega⟩

end Balanced

@[simp]
def Effect.pops : Effect → Nat
  | .pop => 1
  | _ => 0

@[simp]
def Effect.pushes : Effect → Nat
  | .resume => 1
  | _ => 0

@[simp]
theorem Proc.sum_afterUnref (weight : Frame P V → Nat) (c : Proc V) (p : P)
    (frames : List (Frame P V)) :
    ((c.afterUnref p frames).map weight).sum
      = (if c.refcnt = 1 then weight (.destroying p) else 0) + (frames.map weight).sum := by
  unfold Proc.afterUnref
  split <;> simp

/-- One stack has put these frames where it had those; the rest is as before. -/
def Traded (taken put : List (Frame P V)) (tally tally' : (Frame P V → Nat) → Nat) : Prop :=
  ∀ weight, ∃ others, tally weight = others + (taken.map weight).sum
    ∧ tally' weight = others + (put.map weight).sum

/-! ### Every step keeps the accounts balanced -/

section Move

variable {i : W ⊕ C} {p : P} {rest : List (Frame P V)} {effect : Effect} {c c' : Proc V}
  {kept kept' : Nat} {taken put : List (Frame P V)} {queued queued' : Nat}
  {tally tally' : (Frame P V → Nat) → Nat}

theorem Move.token (hmove : Move i p rest effect ⟨c, kept, taken⟩ ⟨c', kept', put⟩)
    (hbalanced : Balanced c kept queued tally)
    (hqueued : queued' + effect.pops = queued + effect.pushes)
    (htraded : Traded taken put tally tally') :
    c'.waiting + queued' + tally' Frame.token + c'.down.toNat = c'.created.toNat := by
  obtain ⟨others, htally, htally'⟩ := htraded Frame.token
  have hbefore := hbalanced.token
  have hup := hbalanced.up
  rw [htally']
  cases hmove with
  | pop | handled | requeue | rest | unreg | unregAbsent | retire | finish | find | release | keep
  | restore | created | append | appendSelf | ref | destroy =>
      simp at htally hqueued ⊢
      simp only [Proc.waiting, Proc.ref, Proc.unref, Mailbox.append_wait] at *
      omega
  | dispatchDown | killed =>
      simp at htally hqueued ⊢
      obtain ⟨hborn, hdown, hwait, -, -⟩ := hup (by omega)
      simp [Proc.waiting, hborn, hdown, hwait] at hbefore ⊢
      omega
  | take _ _ msg htake =>
      simp at htally hqueued ⊢
      obtain ⟨-, -, -, hsame⟩ | ⟨hnone, -⟩ := c.mailbox.take_spec
      · simp only [Proc.waiting, hsame] at *
        omega
      · exact absurd (htake.symm.trans hnone) (by simp)
  | takeNothing _ _ htake =>
      simp at htally hqueued ⊢
      obtain ⟨hborn, hdown, hwait, -, -⟩ := hup (by omega)
      obtain ⟨msg, hsome, -⟩ | ⟨-, -, -, hset⟩ := c.mailbox.take_spec
      · exact absurd (htake.symm.trans hsome) (by simp)
      · simp [Proc.waiting, hset, hborn, hdown, hwait] at hbefore ⊢
        omega
  | create _ _ pid hfresh =>
      simp [hfresh] at htally hqueued hbefore
      simp [Proc.fresh, Proc.waiting, Mailbox.empty]
      omega
  | exchange _ _ pusher =>
      cases hwait : c.mailbox.wait with
      | false =>
          cases pusher <;>
            simp [Proc.waiting, Mailbox.exchange, Pusher.back, hwait] at htally hqueued hbefore ⊢ <;>
            omega
      | true =>
          -- the writer that clears the flag picks the token up
          have hdown : c.down = false := by
            by_contra hdown
            obtain ⟨others, hrefs, -⟩ := htraded Frame.refs
            have hpusher : 0 < (Frame.pushed p pusher : Frame P V).refs := by cases pusher <;> simp
            have hzero := hbalanced.drained (Bool.eq_true_of_not_eq_false hdown) hwait
            have haccount := hbalanced.refs
            simp only [List.map_cons, List.map_nil, List.sum_cons, List.sum_nil] at hrefs
            omega
          simp [Proc.waiting, Mailbox.exchange, hwait, hdown] at htally hqueued hbefore ⊢
          omega
  | enqueue _ _ site =>
      cases site with
      | worker | spawn =>
          simp [Site.back] at htally hqueued ⊢
          omega
      | push pusher =>
          cases pusher <;> simp [Site.back, Pusher.back] at htally hqueued ⊢ <;> omega
  | drain =>
      -- nobody can reach the mailbox any more, so its flag does not matter
      obtain ⟨others', hdestroys, -⟩ := htraded Frame.destroys
      simp at htally hqueued hdestroys ⊢
      obtain ⟨hborn, hrefcnt, -⟩ := hbalanced.destroying (by omega)
      have hdown := (hbalanced.gone hborn hrefcnt).1
      simp only [Proc.waiting, hdown, Bool.not_true, Bool.and_false] at *
      omega

theorem Move.refs (hmove : Move i p rest effect ⟨c, kept, taken⟩ ⟨c', kept', put⟩)
    (hbalanced : Balanced c kept queued tally)
    (hqueued : queued' + effect.pops = queued + effect.pushes)
    (htraded : Traded taken put tally tally') :
    c'.refcnt = c'.registered.toNat + queued' + tally' Frame.refs + kept' := by
  obtain ⟨others, htally, htally'⟩ := htraded Frame.refs
  have hbefore := hbalanced.refs
  rw [htally']
  cases hmove with
  | pop | dispatchDown | take | takeNothing | handled | killed | requeue | rest | unregAbsent
  | retire | finish | find | release | keep | restore | created | append | appendSelf
  | ref | drain | destroy =>
      simp [Proc.ref, Proc.unref] at htally hqueued ⊢
      omega
  | unreg =>
      obtain ⟨others', hdowned, -⟩ := htraded Frame.downed
      simp at htally hqueued hdowned ⊢
      obtain ⟨-, -, hregistered, -⟩ := hbalanced.retires (by omega)
      rw [hregistered, Bool.toNat_true] at hbefore
      omega
  | create _ _ pid hfresh =>
      have hrefcnt := hbalanced.unborn hfresh
      simp [Proc.fresh] at htally hqueued ⊢
      omega
  | exchange _ _ pusher =>
      cases hwait : c.mailbox.wait <;>
        cases pusher <;> simp [Mailbox.exchange, Pusher.back, hwait] at htally hqueued ⊢ <;> omega
  | enqueue _ _ site =>
      cases site with
      | worker | spawn =>
          simp [Site.back] at htally hqueued ⊢
          omega
      | push pusher =>
          cases pusher <;> simp [Site.back, Pusher.back] at htally hqueued ⊢ <;> omega

theorem Move.retireOnce (hmove : Move i p rest effect ⟨c, kept, taken⟩ ⟨c', kept', put⟩)
    (hbalanced : Balanced c kept queued tally) (htraded : Traded taken put tally tally') :
    tally' Frame.downed + c'.created.toNat ≤ c'.down.toNat + c'.registered.toNat := by
  obtain ⟨others, htally, htally'⟩ := htraded Frame.downed
  have hbefore := hbalanced.retire
  rw [htally']
  cases hmove with
  | pop | take | takeNothing | handled | requeue | rest | unregAbsent
  | retire | finish | find | release | keep | restore | created | append | appendSelf
  | ref | drain | destroy =>
      simp [Proc.ref, Proc.unref] at htally ⊢
      omega
  | dispatchDown | killed =>
      obtain ⟨others', htoken, -⟩ := htraded Frame.token
      simp at htally htoken ⊢
      obtain ⟨hborn, hdown, -, hregistered, -⟩ := hbalanced.up (by omega)
      simp only [hborn, hdown, hregistered, Bool.toNat_true, Bool.toNat_false] at hbefore ⊢
      omega
  | unreg =>
      simp at htally ⊢
      obtain ⟨hborn, hdown, -, hone⟩ := hbalanced.retires (by omega)
      simp only [hborn, hdown, Bool.toNat_true] at hbefore ⊢
      omega
  | create _ _ pid hfresh =>
      have hnone : tally Frame.downed = 0 := by
        by_contra hdowned
        have hborn := (hbalanced.retires (Nat.pos_of_ne_zero hdowned)).1
        exact absurd hborn (by simp [hfresh])
      simp [Proc.fresh] at htally ⊢
      omega
  | exchange _ _ pusher =>
      cases hwait : c.mailbox.wait <;>
        cases pusher <;> simp [Mailbox.exchange, Pusher.back, hwait] at htally ⊢ <;> omega
  | enqueue _ _ site =>
      cases site with
      | worker | spawn =>
          simp [Site.back] at htally ⊢
          omega
      | push pusher =>
          cases pusher <;> simp [Site.back, Pusher.back] at htally ⊢ <;> omega

theorem Move.destroyed (hmove : Move i p rest effect ⟨c, kept, taken⟩ ⟨c', kept', put⟩)
    (hbalanced : Balanced c kept queued tally) (htraded : Traded taken put tally tally')
    (hfind : ∀ pid, effect = .find pid → c.registered = true) :
    tally' Frame.destroys + c'.destroyed = (c'.created && c'.refcnt == 0).toNat := by
  obtain ⟨others, htally, htally'⟩ := htraded Frame.destroys
  have hbefore := hbalanced.destroyed
  rw [htally']
  cases hmove with
  | pop | take | takeNothing | handled | requeue | rest | unregAbsent | dispatchDown | killed
  | unreg | keep | restore | created | append | appendSelf | drain | destroy =>
      simp at htally ⊢
      omega
  | exchange _ _ pusher =>
      cases hwait : c.mailbox.wait <;>
        cases pusher <;> simp [Mailbox.exchange, Pusher.back, hwait] at htally ⊢ <;> omega
  | enqueue _ _ site =>
      cases site with
      | worker | spawn =>
          simp [Site.back] at htally ⊢
          omega
      | push pusher =>
          cases pusher <;> simp [Site.back, Pusher.back] at htally ⊢ <;> omega
  | retire | finish | release =>
      obtain ⟨others', hrefs, -⟩ := htraded Frame.refs
      simp at htally hrefs
      obtain ⟨hborn, hpositive, hnone, hzero⟩ := hbalanced.alive (by omega)
      by_cases hlast : c.refcnt = 1
      · simp [Proc.unref, hborn, hlast, hzero]
        omega
      · have hmore : (c.refcnt - 1 == 0) = false := beq_false_of_ne (by omega)
        simp [Proc.unref, hborn, hlast, hzero, hmore]
        omega
  | find _ _ pid =>
      obtain ⟨hborn, hpositive, hnone, hzero⟩ := hbalanced.alive (by simp [hfind pid rfl])
      have hmore : (c.refcnt + 1 == 0) = false := beq_false_of_ne (by omega)
      simp [Proc.ref, hborn, hzero, hmore] at htally ⊢
      omega
  | ref _ _ site =>
      obtain ⟨others', htoken, -⟩ := htraded Frame.token
      simp at htally htoken
      obtain ⟨hborn, -, -, hregistered, -⟩ := hbalanced.up (by omega)
      obtain ⟨-, hpositive, hnone, hzero⟩ := hbalanced.alive (by simp [hregistered])
      have hmore : (c.refcnt + 1 == 0) = false := beq_false_of_ne (by omega)
      simp [Proc.ref, hborn, hzero, hmore]
      omega
  | create _ _ pid hfresh =>
      simp [hfresh] at hbefore htally
      simp [Proc.fresh]
      omega

theorem Move.unborn (hmove : Move i p rest effect ⟨c, kept, taken⟩ ⟨c', kept', put⟩)
    (hbalanced : Balanced c kept queued tally) (htraded : Traded taken put tally tally')
    (hfind : ∀ pid, effect = .find pid → c.registered = true) (hunborn : c'.created = false) :
    c'.refcnt = 0 := by
  have hbefore := hbalanced.unborn
  cases hmove with
  | pop | take | takeNothing | handled | requeue | rest | unregAbsent | dispatchDown | killed
  | unreg | keep | restore | created | append | appendSelf | exchange | enqueue | drain | destroy =>
      exact hbefore hunborn
  | create => exact absurd hunborn (by simp [Proc.fresh])
  | retire | finish | release =>
      obtain ⟨others', hrefs, -⟩ := htraded Frame.refs
      simp at hrefs
      have hborn := (hbalanced.alive (by omega)).1
      exact absurd hborn (by simpa [Proc.unref] using hunborn)
  | find _ _ pid =>
      have hborn := (hbalanced.alive (by simp [hfind pid rfl])).1
      exact absurd hborn (by simpa [Proc.ref] using hunborn)
  | ref =>
      obtain ⟨others', htoken, -⟩ := htraded Frame.token
      simp at htoken
      have hborn := (hbalanced.up (by omega)).1
      exact absurd hborn (by simpa [Proc.ref] using hunborn)

theorem Move.drained (hmove : Move i p rest effect ⟨c, kept, taken⟩ ⟨c', kept', put⟩)
    (hbalanced : Balanced c kept queued tally) (htraded : Traded taken put tally tally')
    (hfind : ∀ pid, effect = .find pid → c.registered = true) (hdown : c'.down = true)
    (hwait : c'.mailbox.wait = true) : c'.refcnt = 0 := by
  have hbefore := hbalanced.drained
  cases hmove with
  | pop | handled | requeue | rest | unregAbsent | unreg | keep | restore | created
  | append | appendSelf | enqueue | destroy =>
      exact hbefore hdown hwait
  | dispatchDown | killed | take | takeNothing | ref =>
      -- the step is taken with the token, so the process was up and not waiting
      obtain ⟨others', htoken, -⟩ := htraded Frame.token
      simp at htoken
      obtain ⟨-, hup, hidle, -, -⟩ := hbalanced.up (by omega)
      simp_all [Proc.ref]
  | create => exact absurd hdown (by simp [Proc.fresh])
  | exchange => exact absurd hwait (by simp [Mailbox.exchange])
  | retire | finish | release =>
      obtain ⟨others', hrefs, -⟩ := htraded Frame.refs
      simp at hrefs
      have hpositive := (hbalanced.alive (by omega)).2.1
      exact absurd (hbefore hdown hwait) hpositive.ne'
  | find _ _ pid =>
      have hpositive := (hbalanced.alive (by simp [hfind pid rfl])).2.1
      exact absurd (hbefore hdown hwait) hpositive.ne'
  | drain =>
      obtain ⟨others', hdestroys, -⟩ := htraded Frame.destroys
      simp at hdestroys
      exact (hbalanced.destroying (by omega)).2.1

theorem Move.pushing (hmove : Move i p rest effect ⟨c, kept, taken⟩ ⟨c', kept', put⟩)
    (hbalanced : Balanced c kept queued tally) (htraded : Traded taken put tally tally')
    (hwaiting : c'.waiting = 1) (hmessages : c'.mailbox.messages ≠ []) :
    0 < tally' Frame.pushing := by
  obtain ⟨others, htally, htally'⟩ := htraded Frame.pushing
  have hbefore := hbalanced.pushing
  rw [htally']
  cases hmove with
  | pop | handled | requeue | rest | unregAbsent | unreg | keep | restore | created | destroy
  | retire | finish | release | find | ref =>
      have := hbefore hwaiting hmessages
      simp at htally ⊢
      omega
  | append | appendSelf => simp
  | dispatchDown | killed => exact absurd hwaiting (by simp [Proc.waiting])
  | take _ _ msg htake =>
      obtain ⟨others', htoken, -⟩ := htraded Frame.token
      simp at htoken
      obtain ⟨-, -, hidle, -, -⟩ := hbalanced.up (by omega)
      obtain ⟨-, -, -, hsame⟩ | ⟨hnone, -⟩ := c.mailbox.take_spec
      · exact absurd hwaiting (by simp [Proc.waiting, hsame, hidle])
      · exact absurd (htake.symm.trans hnone) (by simp)
  | takeNothing _ _ htake =>
      obtain ⟨msg, hsome, -⟩ | ⟨-, -, hnone, -⟩ := c.mailbox.take_spec
      · exact absurd (htake.symm.trans hsome) (by simp)
      · exact absurd hnone hmessages
  | create => exact absurd hwaiting (by simp [Proc.fresh, Proc.waiting, Mailbox.empty])
  | exchange => exact absurd hwaiting (by simp [Proc.waiting, Mailbox.exchange])
  | enqueue _ _ site =>
      have := hbefore hwaiting hmessages
      cases site with
      | worker | spawn =>
          simp [Site.back] at htally ⊢
          omega
      | push pusher =>
          cases pusher <;> simp [Site.back, Pusher.back] at htally ⊢ <;> omega
  | drain =>
      obtain ⟨others', hdestroys, -⟩ := htraded Frame.destroys
      simp at hdestroys
      obtain ⟨hborn, hrefcnt, -⟩ := hbalanced.destroying (by omega)
      have hdown := (hbalanced.gone hborn hrefcnt).1
      exact absurd hwaiting (by simp [Proc.waiting, hdown])

/-- **A step keeps the ledger of its process balanced.** -/
theorem Move.balanced (hmove : Move i p rest effect ⟨c, kept, taken⟩ ⟨c', kept', put⟩)
    (hbalanced : Balanced c kept queued tally)
    (hqueued : queued' + effect.pops = queued + effect.pushes)
    (htraded : Traded taken put tally tally')
    (hfind : ∀ pid, effect = .find pid → c.registered = true) :
    Balanced c' kept' queued' tally' where
  token := hmove.token hbalanced hqueued htraded
  refs := hmove.refs hbalanced hqueued htraded
  retire := hmove.retireOnce hbalanced htraded
  destroyed := hmove.destroyed hbalanced htraded hfind
  unborn := hmove.unborn hbalanced htraded hfind
  drained := hmove.drained hbalanced htraded hfind
  pushing := hmove.pushing hbalanced htraded

/-- A step is about a process that has not been destroyed. -/
theorem Move.not_destroyed (hmove : Move i p rest effect ⟨c, kept, taken⟩ ⟨c', kept', put⟩)
    (hbalanced : Balanced c kept queued tally)
    (hqueued : queued' + effect.pops = queued + effect.pushes)
    (htraded : Traded taken put tally tally')
    (hfind : ∀ pid, effect = .find pid → c.registered = true) : c.destroyed = 0 := by
  obtain ⟨others, hrefs, -⟩ := htraded Frame.refs
  obtain ⟨others', htoken, -⟩ := htraded Frame.token
  have halive := hbalanced.alive
  have hup := hbalanced.up
  cases hmove with
  | pop =>
      simp at hqueued
      exact (halive (by omega)).2.2.2
  | dispatchDown | take | takeNothing | handled | killed | requeue | rest | unreg | unregAbsent
  | retire | finish | release | keep | append | appendSelf =>
      simp at hrefs
      exact (halive (by omega)).2.2.2
  | restore => exact (halive (by omega)).2.2.2
  | exchange _ _ pusher =>
      cases pusher <;> simp at hrefs <;> exact (halive (by omega)).2.2.2
  | created | ref | enqueue =>
      simp at htoken
      obtain ⟨-, -, -, hregistered, -⟩ := hup (by omega)
      exact (halive (by simp [hregistered])).2.2.2
  | find _ _ pid => exact (halive (by simp [hfind pid rfl])).2.2.2
  | create _ _ pid hfresh =>
      have hdestroyed := hbalanced.destroyed
      simp [hfresh] at hdestroyed
      exact hdestroyed.2
  | drain | destroy =>
      obtain ⟨others'', hdestroys, -⟩ := htraded Frame.destroys
      simp at hdestroys
      exact (hbalanced.destroying (by omega)).2.2.2

theorem Move.subject (hmove : Move i p rest effect ⟨c, kept, taken⟩ ⟨c', kept', put⟩) :
    (∀ frame ∈ taken, frame.process = p) ∧ ∀ frame ∈ put, frame.process = p := by
  cases hmove with
  | exchange _ _ pusher =>
      cases pusher <;> simp only [Pusher.back] <;> split <;> simp [Frame.process]
  | enqueue _ _ site =>
      cases site with
      | worker | spawn => simp [Frame.process, Site.back]
      | push pusher => cases pusher <;> simp [Frame.process, Site.back, Pusher.back]
  | retire | finish | release =>
      simp only [Proc.afterUnref]
      split <;> simp [Frame.process]
  | _ => simp [Frame.process]

/-- A process keeps its pid once it is created, and stays created and, if so, down. -/
theorem Move.keeps (hmove : Move i p rest effect ⟨c, kept, taken⟩ ⟨c', kept', put⟩)
    (hborn : c.created = true) :
    c'.created = true ∧ c'.pid = c.pid ∧ (c.down = true → c'.down = true) := by
  cases hmove with
  | create _ _ pid hfresh => exact absurd hborn (by simp [hfresh])
  | _ => simp_all [Proc.ref, Proc.unref]

/-- Only `reg` and `unreg` change what the registry has to know of a process. -/
theorem Move.identity (hmove : Move i p rest effect ⟨c, kept, taken⟩ ⟨c', kept', put⟩) :
    (c'.registered = c.registered ∧ c'.pid = c.pid)
      ∨ (∃ pid, effect = .reg pid ∧ c.created = false ∧ c' = Proc.fresh pid)
      ∨ ∃ erased, effect = .unreg c.pid erased := by
  cases hmove with
  | create _ _ pid hfresh => exact Or.inr (Or.inl ⟨pid, rfl, hfresh, rfl⟩)
  | unreg => exact Or.inr (Or.inr ⟨true, rfl⟩)
  | unregAbsent => exact Or.inr (Or.inr ⟨false, rfl⟩)
  | _ => exact Or.inl ⟨rfl, rfl⟩

end Move

end Stp.Process
