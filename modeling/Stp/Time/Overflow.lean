import Stp.Time.Refinement

/-!
# Requests that overflow the clock

`_timeout` adds the timeout to `t->time` in 64 bits and queues the node with the sum. A request
whose sum wraps gets an `expire` below `t->time`, which `_queue` asserts against; a request whose
sum does not wrap is stored where it belongs and waits for its instant, whatever updates follow.
-/

namespace Stp.Time

/-- What a request for `d` made at `t` has to leave unbroken: the node does not expire in the past,
`_queue` returns, and so does every sequence of updates after it, none of which sends the node
before the clock has advanced by `d`. -/
structure Timer.Withstands (t : Timer) (source : ProcessT) (session : SessionT) (d : UInt64) :
    Prop where
  not_past : t.time ≤ t.time + d
  returns : ∃ t', timeout t source session d = some t'
    ∧ ∀ times : List UInt64, ∃ sent t'', t'.run (times.map Call.update) = some (sent, t'')
      ∧ ∀ s ∈ sent, s.2 = ⟨t.time + d, source, session⟩ → t.time.toNat + d.toNat ≤ s.1.toNat

theorem le_add_iff (time d : UInt64) : time ≤ time + d ↔ time.toNat + d.toNat < 2 ^ 64 := by
  have htime := time.toNat_lt
  have hd := d.toNat_lt
  rw [UInt64.le_iff_toNat_le, UInt64.toNat_add]
  constructor
  · intro hle
    by_contra hwrap
    have hmod : (time.toNat + d.toNat) % 2 ^ 64 = time.toNat + d.toNat - 2 ^ 64 := by
      rw [Nat.mod_eq_sub_mod (Nat.le_of_not_lt hwrap)]
      exact Nat.mod_eq_of_lt (by omega)
    omega
  · intro hlt
    rw [Nat.mod_eq_of_lt hlt]
    exact Nat.le_add_right _ _

theorem queue_not_past {t t' : Timer} {node : TimerNode} (hqueue : queue t node = some t') :
    t.time ≤ node.expire := by
  by_contra hpast
  rw [UInt64.not_le] at hpast
  simp only [queue, if_pos hpast] at hqueue
  cases hqueue

theorem fitsCall_of_call {t t' : Timer} {sent : Sent} (call : Call)
    (hcall : t.call call = some (sent, t')) : t.FitsCall call := by
  cases call with
  | timeout source session d =>
      obtain ⟨after, hqueue, -⟩ := Option.map_eq_some_iff.mp hcall
      exact (le_add_iff t.time d).mp (queue_not_past hqueue)
  | update time => trivial

/-- A run that returns has made no request that overflows. -/
theorem fits_of_run (calls : List Call) :
    ∀ {t t' : Timer} {sent : Sent}, t.run calls = some (sent, t') → t.Fits calls := by
  induction calls with
  | nil => exact fun _ => trivial
  | cons call calls ih =>
      intro t t' sent hrun
      cases hcall : t.call call with
      | none =>
          simp only [Timer.run, hcall] at hrun
          cases hrun
      | some result =>
          obtain ⟨first, t₁⟩ := result
          simp only [Timer.run, hcall, Option.map_eq_some_iff] at hrun
          obtain ⟨rest, hrest, -⟩ := hrun
          refine ⟨fitsCall_of_call call hcall, ?_⟩
          rw [hcall]
          exact ih hrest

theorem fits_updates (times : List UInt64) : ∀ t : Timer, t.Fits (times.map Call.update) := by
  induction times with
  | nil => exact fun _ => trivial
  | cons time times ih =>
      intro t
      refine ⟨trivial, ?_⟩
      cases t.call (.update time) with
      | none => trivial
      | some result => exact ih result.2

theorem Timer.Placed.withstands {t : Timer} (hplaced : t.Placed) (source : ProcessT)
    (session : SessionT) {d : UInt64} (hfits : t.time.toNat + d.toNat < 2 ^ 64) :
    t.Withstands source session d := by
  have hnotPast := (le_add_iff t.time d).mpr hfits
  obtain ⟨t', hqueue, -, hplaced', -⟩ :=
    queue_spec hplaced (show t.time ≤ (TimerNode.mk (t.time + d) source session).expire
      from hnotPast)
  refine ⟨hnotPast, t', hqueue, fun times => ?_⟩
  obtain ⟨sent, t'', hrun, -, -, honTime, -⟩ :=
    run_simulates (times.map Call.update) hplaced' (fits_updates times t')
  refine ⟨sent, t'', hrun, fun s hs hnode => ?_⟩
  have hexpire : s.1 = t.time + d := (honTime s hs).trans (congrArg TimerNode.expire hnode)
  rw [hexpire, UInt64.toNat_add, Nat.mod_eq_of_lt hfits]

/-- **Timer requests.** In a state that any calls have led to, the wheel withstands a request
exactly when the sum of its clock and the timeout does not wrap. -/
theorem withstands_iff {calls : List Call} {sent : Sent} {t : Timer}
    (hrun : Timer.fresh.run calls = some (sent, t)) (source : ProcessT) (session : SessionT)
    (d : UInt64) : t.Withstands source session d ↔ t.time.toNat + d.toNat < 2 ^ 64 := by
  obtain ⟨sent', t', hrun', hplaced, -⟩ :=
    run_simulates calls Timer.placed_fresh (fits_of_run calls hrun)
  have ht : t' = t := by
    rw [hrun'] at hrun
    cases hrun
    rfl
  subst ht
  exact ⟨fun h => (le_add_iff t'.time d).mp h.not_past, hplaced.withstands source session⟩

/-- At `t->time = 1` a sleep for `40` is withstood. -/
theorem withstands_iff_update :
    ∃ sent t, Timer.fresh.run [.update 1] = some (sent, t) ∧ t.Withstands 7 1 40 := by
  obtain ⟨sent, t, hrun, htime, -⟩ := run_refines_naive [.update 1] (by decide)
  refine ⟨sent, t, hrun, (withstands_iff hrun 7 1 40).mpr ?_⟩
  rw [htime]
  decide

/-- At `t->time = 1` a sleep for `2 ^ 64 - 1` expires at `0` and fails the assertion of `_queue`. -/
theorem endless_sleep_breaks :
    ∃ sent t, Timer.fresh.run [.update 1] = some (sent, t) ∧ timeout t 7 1 18446744073709551615 = none
      ∧ ¬ t.Withstands 7 1 18446744073709551615 := by
  obtain ⟨sent, t, hrun, htoNat, -⟩ := run_refines_naive [.update 1] (by decide)
  have htime : t.time = 1 := UInt64.toNat_inj.mp htoNat
  refine ⟨sent, t, hrun, ?_, fun h => ?_⟩
  · simp only [timeout, queue, htime]
    rw [if_pos (by decide)]
  · have hpast := h.not_past
    rw [htime] at hpast
    exact absurd hpast (by decide)

end Stp.Time
