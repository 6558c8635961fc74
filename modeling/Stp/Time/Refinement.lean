import Stp.Library.BagTimer
import Stp.Time.Tick

/-!
# The wheel refines the naive timer

Forgetting the lists leaves a bag of nodes and a clock. Under that view a tick of the wheel is a
tick of the naive timer, `_timeout` adds to the bag, and `_update` is as many ticks as the clock is
behind. So whatever sequence of calls the wheel has seen, it has sent what the naive timer has
fired, and by `BagTimer.Bag.run_eq` that is what was requested and expires before the clock.
-/

namespace Stp.Time

open BagTimer

def TimerNode.due (node : TimerNode) : Nat := node.expire.toNat

def Timer.bag (t : Timer) : Bag TimerNode where
  now := t.time.toNat
  pending := t.stored

def Sent.nodes (sent : Sent) : Multiset TimerNode := Multiset.ofList (sent.map Prod.snd)

/-- Each node was sent by the tick that starts at its expiry. -/
def Sent.OnTime (sent : Sent) : Prop := ∀ s ∈ sent, s.1 = s.2.expire

theorem Sent.nodes_append (sent later : Sent) :
    Sent.nodes (sent ++ later) = sent.nodes + later.nodes := by
  simp [Sent.nodes]

theorem Sent.OnTime.append {sent later : Sent} (hsent : sent.OnTime) (hlater : later.OnTime) :
    Sent.OnTime (sent ++ later) := fun s hs =>
  (List.mem_append.mp hs).elim (hsent s) (hlater s)

theorem Timer.Placed.timely {t : Timer} (hplaced : t.Placed) :
    t.bag.Timely TimerNode.due := fun _ hnode => hplaced.le_expire hnode

/-- **A tick of the wheel is a tick of the naive timer.** -/
theorem tick_refines {t : Timer} (hplaced : t.Placed) (hwrap : t.time.toNat + 1 < 2 ^ 64) :
    ∃ sent t', tick t = some (sent, t') ∧ t'.Placed
      ∧ ((sent : Multiset TimerNode), t'.bag) = t.bag.tick TimerNode.due
      ∧ Sent.OnTime (sent.map (t.time, ·)) := by
  obtain ⟨sent, t', htick, htime, hplaced', hstored, hsent⟩ := tick_spec hplaced hwrap
  have hdueSent : ∀ node ∈ (sent : Multiset TimerNode), node.due = t.bag.now := fun node hnode =>
    congrArg UInt64.toNat (hsent node (Multiset.mem_coe.mp hnode))
  have hdueKept : ∀ node ∈ t'.stored, node.due ≠ t.bag.now := by
    intro node hnode heq
    have hle := hplaced'.le_expire hnode
    rw [htime] at hle
    exact absurd hle (Nat.not_le.mpr (Nat.lt_succ_of_le heq.le))
  refine ⟨sent, t', htick, hplaced', ?_, ?_⟩
  · have hpending : t.bag.pending = t'.stored + (sent : Multiset TimerNode) := hstored.symm
    rw [Bag.tick, hpending, Multiset.filter_add, Multiset.filter_add,
      Multiset.filter_eq_nil.mpr hdueKept, Multiset.filter_eq_self.mpr hdueSent,
      Multiset.filter_eq_self.mpr hdueKept,
      Multiset.filter_eq_nil.mpr fun node hnode h => h (hdueSent node hnode),
      Multiset.zero_add, Multiset.add_zero, Timer.bag, htime]
    rfl
  · intro s hs
    obtain ⟨node, hnode, rfl⟩ := List.mem_map.mp hs
    exact (hsent node hnode).symm

/-- **`_update`.** The loop ends, with the clock at the target if it was behind, and it has been as
many ticks of the naive timer as there were rounds. -/
theorem update_refines (time : UInt64) :
    ∀ (rounds : Nat) {t : Timer}, t.Placed → rounds = time.toNat - t.time.toNat →
      ∃ sent t', updateLoop rounds t time = some (sent, t') ∧ t'.Placed
        ∧ t'.time.toNat = max t.time.toNat time.toNat
        ∧ (sent.nodes, t'.bag) = t.bag.ticks TimerNode.due rounds ∧ sent.OnTime := by
  intro rounds
  induction rounds with
  | zero =>
      intro t hplaced hrounds
      have hle : time ≤ t.time := UInt64.le_iff_toNat_le.mpr (by omega)
      refine ⟨[], t, ?_, hplaced, ?_, rfl, fun _ hs => absurd hs List.not_mem_nil⟩
      · rw [updateLoop, if_neg (UInt64.not_lt.mpr hle)]
      · exact (max_eq_left (UInt64.le_iff_toNat_le.mp hle)).symm
  | succ rounds ih =>
      intro t hplaced hrounds
      have hlt : t.time < time := UInt64.lt_iff_toNat_lt.mpr (by omega)
      have hbound := time.toNat_lt
      obtain ⟨sent, t₁, htick, hplaced₁, hbag₁, honTime₁⟩ := tick_refines hplaced (by omega)
      have htime₁ : t₁.time.toNat = t.time.toNat + 1 :=
        congrArg (fun result => Bag.now result.2) hbag₁
      obtain ⟨later, t₂, hloop, hplaced₂, htime₂, hbag₂, honTime₂⟩ := ih hplaced₁ (by omega)
      refine ⟨sent.map (t.time, ·) ++ later, t₂, ?_, hplaced₂, ?_, ?_,
        honTime₁.append honTime₂⟩
      · simp only [updateLoop, if_pos hlt, htick, hloop]
      · omega
      · rw [Bag.ticks, ← hbag₁, ← hbag₂, Sent.nodes_append]
        simp [Sent.nodes, Function.comp_def]

/-! ### Sequences of calls -/

def Timer.op (t : Timer) : Call → Op TimerNode
  | .timeout source session timeout => .add { expire := t.time + timeout, source, session }
  | .update time => .ticks (time.toNat - t.time.toNat)

/-- The operations a sequence of calls comes to, each at the `t->time` it is made at. -/
def Timer.ops (t : Timer) : List Call → List (Op TimerNode)
  | [] => []
  | call :: calls =>
      match t.call call with
      | some (_, t') => t.op call :: t'.ops calls
      | none => []

/-- The timers a sequence of calls requests, each with `expire` = (`t->time` at the request) plus
its timeout. -/
def Timer.requests (t : Timer) (calls : List Call) : Multiset TimerNode := added (t.ops calls)

def Timer.FitsCall (t : Timer) : Call → Prop
  | .timeout _ _ timeout => t.time.toNat + timeout.toNat < 2 ^ 64
  | .update _ => True

instance (t : Timer) : DecidablePred t.FitsCall
  | .timeout _ _ timeout => inferInstanceAs (Decidable (t.time.toNat + timeout.toNat < 2 ^ 64))
  | .update _ => isTrue trivial

def Timer.Fits (t : Timer) : List Call → Prop
  | [] => True
  | call :: calls => t.FitsCall call ∧
      match t.call call with
      | some (_, t') => t'.Fits calls
      | none => True

instance Timer.decidableFits (t : Timer) : (calls : List Call) → Decidable (t.Fits calls)
  | [] => isTrue trivial
  | call :: calls =>
      match hcall : t.call call with
      | some (_, t') =>
          have := t'.decidableFits calls
          decidable_of_iff (t.FitsCall call ∧ t'.Fits calls) (by simp only [Timer.Fits, hcall])
      | none => decidable_of_iff (t.FitsCall call) (by simp only [Timer.Fits, hcall, and_true])

def maxTarget : List Call → Nat
  | [] => 0
  | .timeout _ _ _ :: calls => maxTarget calls
  | .update time :: calls => max time.toNat (maxTarget calls)

theorem call_refines {t : Timer} (hplaced : t.Placed) (call : Call) (hfits : t.FitsCall call) :
    ∃ sent t', t.call call = some (sent, t') ∧ t'.Placed
      ∧ (sent.nodes, t'.bag) = t.bag.step TimerNode.due (t.op call) ∧ sent.OnTime
      ∧ t'.time.toNat = max t.time.toNat (maxTarget [call]) := by
  cases call with
  | timeout source session timeout =>
      have htoNat : (t.time + timeout).toNat = t.time.toNat + timeout.toNat := by
        rw [UInt64.toNat_add]
        exact Nat.mod_eq_of_lt hfits
      have hexpire : t.time ≤ t.time + timeout := by
        rw [UInt64.le_iff_toNat_le, htoNat]
        exact Nat.le_add_right _ _
      obtain ⟨t', hqueue, htime', hplaced', hstored'⟩ :=
        queue_spec hplaced (show t.time ≤ (TimerNode.mk (t.time + timeout) source session).expire
          from hexpire)
      refine ⟨[], t', ?_, hplaced', ?_, fun _ hs => absurd hs List.not_mem_nil, ?_⟩
      · simp only [Timer.call, Time.timeout, hqueue, Option.map_some]
      · simp only [Timer.op, Bag.step, Bag.add, Timer.bag, hstored', htime']
        rfl
      · simp [maxTarget, htime']
  | update time =>
      obtain ⟨sent, t', hloop, hplaced', htime', hbag', honTime⟩ :=
        update_refines time _ hplaced rfl
      exact ⟨sent, t', hloop, hplaced', hbag', honTime, by simp [maxTarget, htime']⟩

theorem timelyOps_of_fits (calls : List Call) {t : Timer} (hplaced : t.Placed)
    (hfits : t.Fits calls) : TimelyOps TimerNode.due t.time.toNat (t.ops calls) := by
  induction calls generalizing t with
  | nil => trivial
  | cons call calls ih =>
      obtain ⟨sent, t', hcall, hplaced', hbag', _, htime'⟩ := call_refines hplaced call hfits.1
      have hrest : TimelyOps TimerNode.due t'.time.toNat (t'.ops calls) := by
        refine ih hplaced' ?_
        have := hfits.2
        rwa [hcall] at this
      simp only [Timer.ops, hcall]
      cases call with
      | timeout source session timeout =>
          have hsame : t'.time.toNat = t.time.toNat := by simpa [maxTarget] using htime'
          refine ⟨?_, hsame ▸ hrest⟩
          have hoverflow : t.time.toNat + timeout.toNat < 2 ^ 64 := hfits.1
          simp only [TimerNode.due, UInt64.toNat_add, Nat.mod_eq_of_lt hoverflow]
          exact Nat.le_add_right _ _
      | update time =>
          have hsame : t'.time.toNat = t.time.toNat + (time.toNat - t.time.toNat) := by
            simp only [maxTarget] at htime'
            omega
          rw [hsame] at hrest
          exact hrest

theorem maxTarget_cons (call : Call) (calls : List Call) :
    maxTarget (call :: calls) = max (maxTarget [call]) (maxTarget calls) := by
  cases call <;> simp [maxTarget]

/-- **Runs.** A run that does not overflow returns, and it is the run of the naive timer on the same
operations. -/
theorem run_simulates (calls : List Call) {t : Timer} (hplaced : t.Placed)
    (hfits : t.Fits calls) :
    ∃ sent t', t.run calls = some (sent, t') ∧ t'.Placed
      ∧ (sent.nodes, t'.bag) = t.bag.run TimerNode.due (t.ops calls) ∧ sent.OnTime
      ∧ t'.time.toNat = max t.time.toNat (maxTarget calls) := by
  induction calls generalizing t with
  | nil =>
      exact ⟨[], t, rfl, hplaced, rfl, fun _ hs => absurd hs List.not_mem_nil, by
        simp [maxTarget]⟩
  | cons call calls ih =>
      obtain ⟨sent, t₁, hcall, hplaced₁, hbag₁, honTime₁, htime₁⟩ :=
        call_refines hplaced call hfits.1
      have hfits₁ : t₁.Fits calls := by
        have := hfits.2
        rwa [hcall] at this
      obtain ⟨later, t₂, hrun, hplaced₂, hbag₂, honTime₂, htime₂⟩ := ih hplaced₁ hfits₁
      refine ⟨sent ++ later, t₂, ?_, hplaced₂, ?_, honTime₁.append honTime₂, ?_⟩
      · simp only [Timer.run, hcall, hrun, Option.map_some]
      · simp only [Timer.ops, hcall, Bag.run]
        rw [← hbag₁, ← hbag₂, Sent.nodes_append]
      · rw [htime₂, htime₁, maxTarget_cons call calls, max_assoc]

/-- **The wheel refines the naive timer.** Whatever calls are made on a fresh timer, as long as no
request overflows the clock, the run returns with the clock at the largest target. Each node sent
was sent by the tick that starts at its expiry; the nodes sent are, each as often as it was
requested, those that expire before the largest target; and the lists of the wheel hold the other
requests, each as often as it was requested and so each request in one place of one list. -/
theorem run_refines_naive (calls : List Call) (hfits : Timer.fresh.Fits calls) :
    ∃ sent t', Timer.fresh.run calls = some (sent, t')
      ∧ t'.time.toNat = maxTarget calls
      ∧ (∀ s ∈ sent, s.1 = s.2.expire)
      ∧ Multiset.ofList (sent.map Prod.snd)
          = (Timer.fresh.requests calls).filter (fun node => node.due < maxTarget calls)
      ∧ Tally.contents t'.least + Tally.contents t'.level
          = (Timer.fresh.requests calls).filter
              (fun node => ¬ node.due < maxTarget calls) := by
  obtain ⟨sent, t', hrun, _, hbag, honTime, htime⟩ :=
    run_simulates calls Timer.placed_fresh hfits
  have htime' : t'.time.toNat = maxTarget calls := htime.trans (Nat.zero_max _)
  obtain ⟨hfired, hkept⟩ := Bag.run_eq (Timer.fresh.ops calls) Timer.placed_fresh.timely
    (timelyOps_of_fits calls Timer.placed_fresh hfits)
  have hpending : Timer.fresh.bag.pending + added (Timer.fresh.ops calls)
      = Timer.fresh.requests calls := by
    rw [Timer.bag, Timer.stored_fresh, Multiset.zero_add, Timer.requests]
  have hnow : (Timer.fresh.bag.run TimerNode.due (Timer.fresh.ops calls)).2.now
      = maxTarget calls := by
    rw [← hbag]
    exact htime'
  rw [hpending, hnow, ← hbag] at hfired hkept
  exact ⟨sent, t', hrun, htime', honTime, hfired, hkept⟩

/-- A clock that moves past one of two timers. -/
theorem run_refines_naive_two_timers :
    ∃ sent t', Timer.fresh.run [.timeout 7 1 3, .timeout 7 2 40, .update 5] = some (sent, t')
      ∧ Multiset.ofList (sent.map Prod.snd) = {⟨3, 7, 1⟩}
      ∧ Tally.contents t'.least + Tally.contents t'.level = {⟨40, 7, 2⟩} := by
  obtain ⟨sent, t', hrun, _, _, hsent, hkept⟩ :=
    run_refines_naive [.timeout 7 1 3, .timeout 7 2 40, .update 5] (by decide)
  exact ⟨sent, t', hrun, hsent.trans (by decide), hkept.trans (by decide)⟩

end Stp.Time
