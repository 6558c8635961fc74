import Stp.Time.Placement

/-!
# One tick of the wheel

`tick` sends exactly the stored nodes whose expiry is the clock it starts with, and the nodes it
keeps are placed for the clock it leaves. Off the boundaries nothing moves. At a boundary the
digits of the new clock below some level are zero and the one at that level is not; `LevelPlaced`
then says what each list can hold, by the position of its level.
-/

namespace Stp.Time

open Radix

/-! ### What a step of the clock leaves in a level -/

section Level

variable {time : Nat} {slot : LevelSlot} {node : TimerNode}

theorem LevelPlaced.succ (hplaced : LevelPlaced time slot node)
    (hdvd : ¬ 2 ^ levelShift slot.1 ∣ time + 1) : LevelPlaced (time + 1) slot node := by
  have hlow := block_succ_of_not_dvd hdvd
  have hhigh := block_eq_of_le (levelShift_mono (Nat.le_succ slot.1.val)) hlow
  exact ⟨hhigh.trans hplaced.shared, hlow.trans_lt hplaced.lt, hplaced.value_eq⟩

/-- When the clock enters a new block of the level, no node of the level is left behind it. -/
theorem LevelPlaced.succ_le (hplaced : LevelPlaced time slot node)
    (hdvd : 2 ^ levelShift slot.1 ∣ time + 1) : time + 1 ≤ node.expire.toNat := by
  have hlt := hplaced.lt
  have hsucc := block_succ_of_dvd hdvd
  exact le_of_block_le_of_dvd hdvd (by omega)

/-- When the clock leaves the block that the whole level shares, the level is empty. -/
theorem LevelPlaced.not_dvd (hplaced : LevelPlaced time slot node) :
    ¬ 2 ^ levelShift (slot.1 + 1) ∣ time + 1 := by
  intro hdvd
  have hlow : 2 ^ levelShift slot.1 ∣ time + 1 :=
    (Nat.pow_dvd_pow 2 (levelShift_mono (Nat.le_succ _))).trans hdvd
  have hblock := block_mono (levelShift (slot.1 + 1)) (hplaced.succ_le hlow)
  rw [block_succ_of_dvd hdvd, ← hplaced.shared] at hblock
  omega

theorem LevelPlaced.succ_of_value_ne (hplaced : LevelPlaced time slot node)
    (hdvd : 2 ^ levelShift slot.1 ∣ time + 1)
    (hvalue : slot.2 + 1 ≠ block (levelShift slot.1) (time + 1) % timeLevelValue) :
    LevelPlaced (time + 1) slot node := by
  have hshared := (block_succ_of_not_dvd hplaced.not_dvd).trans hplaced.shared
  refine ⟨hshared, lt_of_le_of_ne ?_ ?_, hplaced.value_eq⟩
  · exact (block_succ_of_dvd hdvd).le.trans hplaced.lt
  · intro heq
    exact hvalue (by rw [heq, hplaced.value_eq])

end Level

/-! ### The cascade -/

/-- **The re-queueing at a boundary.** From a level below which the new clock has only zero digits,
the loop finds the list to re-queue, and afterwards every node is placed for the new clock. -/
theorem cascade_spec (time : Nat) :
    ∀ remaining level, level + remaining = timeLevelCount →
      ∀ (t : Timer) (shifted : UInt64), t.time.toNat = time + 1 →
        2 ^ levelShift level ∣ time + 1 →
        shifted.toNat = block (levelShift level) (time + 1) →
        (∀ index, ∀ node ∈ t.least index, LeastPlaced (time + 1) index node) →
        (∀ slot, ∀ node ∈ t.level slot, LevelPlaced time slot node) →
        ∃ t', cascade t remaining level shifted = some t'
          ∧ t'.time = t.time ∧ t'.Placed ∧ t'.stored = t.stored := by
  intro remaining
  induction remaining with
  | zero =>
      intro level hlevel t _ htime hdvd _ _ _
      -- the clock would be a positive multiple of `2 ^ 64`
      rw [Nat.add_zero] at hlevel
      subst hlevel
      have hlt := t.time.toNat_lt
      have hle := Nat.le_of_dvd (Nat.succ_pos time) hdvd
      rw [htime] at hlt
      exact absurd hlt (Nat.not_lt.mpr hle)
  | succ remaining ih =>
      intro level hlevel t shifted htime hdvd hshifted hleast hplaced
      have hbound : level < timeLevelCount := by omega
      have hvalue : (shifted &&& timeLevelMask.toUInt64).toNat
          = block (levelShift level) (time + 1) % 2 ^ timeLevelShift := by
        rw [and_levelMask_toNat, hshifted]
      have hzero : shifted &&& timeLevelMask.toUInt64 = 0
          ↔ 2 ^ levelShift (level + 1) ∣ time + 1 := by
        rw [levelShift_succ, dvd_add_iff_digit_eq_zero hdvd, ← hvalue, ← UInt64.toNat_inj]
        rfl
      simp only [cascade, hzero]
      split_ifs with hnext
      · refine ih (level + 1) (by omega) t _ htime hnext ?_ hleast hplaced
        rw [UInt64.toNat_shiftRight, hshifted, levelShift_succ, block_add,
          Nat.shiftRight_eq_div_pow]
        rfl
      · have hpos : 0 < (shifted &&& timeLevelMask.toUInt64).toNat := by
          rw [hvalue]
          rw [levelShift_succ, dvd_add_iff_digit_eq_zero hdvd] at hnext
          omega
        have hdigit : (shifted &&& timeLevelMask.toUInt64).toNat < timeLevelValue := by
          rw [hvalue]
          exact Nat.mod_lt _ (Nat.two_pow_pos _)
        obtain ⟨slot, hslot, hslotLevel, hslotValue⟩ := levelSlot_eq_some hbound hpos hdigit
        simp only [hslot]
        rw [hvalue] at hslotValue
        have hcleared : (t.clearLevel slot).Placed := by
          refine ⟨fun index node hnode => ?_, fun other node hnode => ?_⟩
          · change LeastPlaced t.time.toNat index node
            rw [htime]
            exact hleast index node hnode
          · change LevelPlaced t.time.toNat other node
            rw [htime]
            obtain ⟨hother, hnode⟩ := Tally.mem_update_nil hnode
            have hold := hplaced other node hnode
            rcases Nat.lt_trichotomy other.1.val level with hbelow | hsame | habove
            · -- the lists below the digit are empty
              exact absurd ((Nat.pow_dvd_pow 2 (levelShift_mono hbelow)).trans hdvd)
                hold.not_dvd
            · refine hold.succ_of_value_ne (by rwa [hsame]) fun hvalueEq => hother ?_
              rw [hsame] at hvalueEq
              refine Prod.ext (Fin.ext (hsame.trans hslotLevel.symm)) (Fin.ext ?_)
              exact Nat.succ.inj (hvalueEq.trans hslotValue.symm)
            · exact hold.succ fun hdvd' =>
                hnext ((Nat.pow_dvd_pow 2 (levelShift_mono habove)).trans hdvd')
        have hexpire : ∀ node ∈ t.level slot, (t.clearLevel slot).time ≤ node.expire := by
          intro node hnode
          change t.time ≤ node.expire
          rw [UInt64.le_iff_toNat_le, htime]
          exact (hplaced slot node hnode).succ_le (by rwa [hslotLevel])
        obtain ⟨t', hlist, htime', hplaced', hstored'⟩ :=
          queueList_spec (t.level slot) hcleared hexpire
        exact ⟨t', hlist, htime', hplaced', hstored'.trans (t.stored_clearLevel slot)⟩

/-! ### The tick -/

theorem LeastPlaced.expire_eq_iff {time : UInt64} {index : Fin timeLeastValue} {node : TimerNode}
    (hplaced : LeastPlaced time.toNat index node) :
    node.expire = time ↔ index = leastIndex time := by
  have hshift : 2 ^ timeLeastShift = 16384 := rfl
  have hvalue : timeLeastValue = 16384 := rfl
  obtain ⟨hle, hlt, heq⟩ := hplaced
  rw [← UInt64.toNat_inj, Fin.ext_iff, leastIndex_val, ← heq, hshift, hvalue]
  rw [hvalue] at hlt
  omega

theorem LeastPlaced.succ {time : UInt64} {index : Fin timeLeastValue} {node : TimerNode}
    (hplaced : LeastPlaced time.toNat index node) (hindex : index ≠ leastIndex time) :
    LeastPlaced (time.toNat + 1) index node := by
  have hne : node.expire.toNat ≠ time.toNat := fun h =>
    hindex (hplaced.expire_eq_iff.mp (UInt64.toNat_inj.mp h))
  obtain ⟨hle, hlt, heq⟩ := hplaced
  exact ⟨by omega, by omega, heq⟩

/-- **`_tick`.** As long as the clock does not wrap, a tick sends the nodes that expire at the clock
it starts with, keeps the others, and leaves them placed. -/
theorem tick_spec {t : Timer} (hplaced : t.Placed) (hwrap : t.time.toNat + 1 < 2 ^ 64) :
    ∃ sent t', tick t = some (sent, t') ∧ t'.time.toNat = t.time.toNat + 1 ∧ t'.Placed
      ∧ t'.stored + sent = t.stored ∧ ∀ node ∈ sent, node.expire = t.time := by
  have htime : t.advance.time.toNat = t.time.toNat + 1 := by
    rw [Timer.advance, UInt64.toNat_add]
    exact Nat.mod_eq_of_lt hwrap
  have hstored : t.advance.stored + t.least (leastIndex t.time) = t.stored :=
    t.stored_clearLeast _
  have hsent : ∀ node ∈ t.least (leastIndex t.time), node.expire = t.time := fun node hnode =>
    (hplaced.least _ node hnode).expire_eq_iff.mpr rfl
  have hleast : ∀ index, ∀ node ∈ t.advance.least index,
      LeastPlaced (t.time.toNat + 1) index node := by
    intro index node hnode
    obtain ⟨hindex, hnode⟩ := Tally.mem_update_nil hnode
    exact (hplaced.least index node hnode).succ hindex
  have hboundary : t.advance.time &&& timeLeastMask.toUInt64 = 0
      ↔ 2 ^ levelShift 0 ∣ t.time.toNat + 1 := by
    rw [← UInt64.toNat_inj, Nat.dvd_iff_mod_eq_zero, ← htime]
    exact Iff.of_eq (congrArg (· = 0) (leastIndex_val t.advance.time))
  have hnonzero : t.advance.time ≠ 0 := fun h => by
    rw [h] at htime
    exact absurd htime (Nat.succ_ne_zero _).symm
  simp only [tick, hboundary, if_neg hnonzero]
  split_ifs with hdvd
  · have hshifted : (t.advance.time >>> timeLeastShift.toUInt64).toNat
        = block (levelShift 0) (t.time.toNat + 1) := by
      rw [UInt64.toNat_shiftRight, htime, Nat.shiftRight_eq_div_pow]
      rfl
    obtain ⟨t', hcascade, htime', hplaced', hstored'⟩ :=
      cascade_spec t.time.toNat timeLevelCount 0 (Nat.zero_add _) t.advance _ htime hdvd hshifted
        hleast hplaced.level
    simp only [hcascade]
    refine ⟨_, t', rfl, ?_, hplaced', ?_, hsent⟩
    · rw [htime', htime]
    · rw [hstored', hstored]
  · refine ⟨_, t.advance, rfl, htime, ⟨?_, ?_⟩, hstored, hsent⟩
    · rw [htime]
      exact hleast
    · rw [htime]
      intro slot node hnode
      refine (hplaced.level slot node hnode).succ fun hdvd' => hdvd ?_
      exact (Nat.pow_dvd_pow 2 (levelShift_mono (Nat.zero_le _))).trans hdvd'

end Stp.Time
