import Stp.Library.Radix
import Stp.Library.Tally
import Stp.Time.Wheel

/-!
# Where the wheel keeps its nodes

A node in `least` is less than `2 ^ 14` ahead of the clock, in the list its low bits name. A node
in a level is further ahead: it agrees with the clock above the level's digit, and its digit there
is the larger. `Timer.Placed` states both, and `queue`, `tick` and the re-queueing at a boundary
keep it.

At a boundary the levels below the first non-zero digit must already be empty, since a node there
would have to lie between the clock and the boundary the clock has just reached. In the list that
is re-queued every node starts the block that the boundary opens, so none of them is in the past.
-/

namespace Stp.Time

open Radix

/-! ### The arithmetic of the indices -/

theorem leastIndex_val (time : UInt64) :
    (leastIndex time).val = time.toNat % 2 ^ timeLeastShift := by
  have hmask : timeLeastMask.toUInt64.toNat = 2 ^ timeLeastShift - 1 := by decide
  change (time &&& timeLeastMask.toUInt64).toNat = _
  rw [UInt64.toNat_and, hmask, Nat.and_two_pow_sub_one_eq_mod]

theorem and_levelMask_toNat (time : UInt64) :
    (time &&& timeLevelMask.toUInt64).toNat = time.toNat % 2 ^ timeLevelShift := by
  have hmask : timeLevelMask.toUInt64.toNat = 2 ^ timeLevelShift - 1 := by decide
  rw [UInt64.toNat_and, hmask, Nat.and_two_pow_sub_one_eq_mod]

theorem levelShift_succ (level : Nat) :
    levelShift (level + 1) = levelShift level + timeLevelShift := by
  rw [levelShift, levelShift, Nat.succ_mul, Nat.add_assoc]

theorem levelShift_mono {a b : Nat} (hab : a ≤ b) : levelShift a ≤ levelShift b :=
  Nat.add_le_add_left (Nat.mul_le_mul_right _ hab) _

theorem levelShift_toUInt64 {level : Nat} (hlevel : level < timeLevelCount) :
    (levelShift level).toUInt64.toNat % 64 = levelShift level := by
  have hall : ∀ l : Fin timeLevelCount, (levelShift l).toUInt64.toNat % 64 = levelShift l := by
    decide
  exact hall ⟨level, hlevel⟩

theorem levelValue_toNat (time : UInt64) {level : Nat} (hlevel : level < timeLevelCount) :
    (levelValue time level).toNat = block (levelShift level) time.toNat % 2 ^ timeLevelShift := by
  rw [levelValue, and_levelMask_toNat, UInt64.toNat_shiftRight, levelShift_toUInt64 hlevel,
    Nat.shiftRight_eq_div_pow, block]

/-- One round of the loop of `_queue` moves `exp2` to the next level. At the last one it wraps to
zero, and the mask still has every bit below the level's end. -/
theorem exp2_step {level : Nat} (hlevel : level < timeLevelCount) :
    (2 ^ levelShift level).toUInt64 <<< timeLevelShift.toUInt64
        = (2 ^ levelShift (level + 1)).toUInt64
      ∧ ((2 ^ levelShift (level + 1)).toUInt64 - 1).toNat = 2 ^ levelShift (level + 1) - 1 := by
  have hall : ∀ l : Fin timeLevelCount,
      (2 ^ levelShift l).toUInt64 <<< timeLevelShift.toUInt64
          = (2 ^ levelShift (l + 1)).toUInt64
        ∧ ((2 ^ levelShift (l + 1)).toUInt64 - 1).toNat = 2 ^ levelShift (l + 1) - 1 := by
    decide
  exact hall ⟨level, hlevel⟩

theorem block_levelCount (time : UInt64) : block (levelShift timeLevelCount) time.toNat = 0 :=
  Nat.div_eq_of_lt time.toNat_lt

/-- **The search of `_queue`.** The loop ends at the level where the expiry and the clock first
share a block, and there the expiry's digit is the larger. -/
theorem queueLevel_spec (time expire : UInt64) :
    ∀ remaining level, level + remaining = timeLevelCount →
      block (levelShift level) time.toNat < block (levelShift level) expire.toNat →
      ∃ found, queueLevel time expire remaining level (2 ^ levelShift level).toUInt64 = some found
        ∧ found < timeLevelCount
        ∧ block (levelShift (found + 1)) expire.toNat = block (levelShift (found + 1)) time.toNat
        ∧ block (levelShift found) time.toNat < block (levelShift found) expire.toNat := by
  intro remaining
  induction remaining with
  | zero =>
      intro level hlevel hlt
      rw [Nat.add_zero] at hlevel
      rw [hlevel, block_levelCount, block_levelCount] at hlt
      omega
  | succ remaining ih =>
      intro level hlevel hlt
      have hbound : level < timeLevelCount := by omega
      obtain ⟨hstep, hmask⟩ := exp2_step hbound
      have hshared : expire ||| ((2 ^ levelShift (level + 1)).toUInt64 - 1)
            = time ||| ((2 ^ levelShift (level + 1)).toUInt64 - 1)
          ↔ block (levelShift (level + 1)) expire.toNat
            = block (levelShift (level + 1)) time.toNat := by
        rw [← or_mask_eq_iff, ← UInt64.toNat_inj, UInt64.toNat_or, UInt64.toNat_or, hmask]
      simp only [queueLevel, hstep, hshared]
      split_ifs with heq
      · exact ⟨level, rfl, hbound, heq, hlt⟩
      · refine ih (level + 1) (by omega) ?_
        have hle := block_mono (levelShift (level + 1))
          (le_of_lt (lt_of_block_lt hlt))
        omega

theorem levelSlot_eq_some {level : Nat} {value : UInt64} (hlevel : level < timeLevelCount)
    (hpos : 0 < value.toNat) (hvalue : value.toNat < timeLevelValue) :
    ∃ slot, levelSlot level value = some slot ∧ slot.1.val = level
      ∧ slot.2.val + 1 = value.toNat := by
  have hone : (1 : UInt64) ≤ value := UInt64.le_iff_toNat_le.mpr hpos
  have hsub : (value - 1).toNat = value.toNat - 1 := UInt64.toNat_sub_of_le _ _ hone
  have hindex : (value - 1).toNat < timeLevelValue - 1 := by omega
  refine ⟨(⟨level, hlevel⟩, ⟨(value - 1).toNat, hindex⟩), dif_pos ⟨hlevel, hindex⟩, rfl, ?_⟩
  change (value - 1).toNat + 1 = value.toNat
  omega

/-! ### The invariant -/

structure LeastPlaced (time : Nat) (index : Fin timeLeastValue) (node : TimerNode) : Prop where
  le : time ≤ node.expire.toNat
  lt : node.expire.toNat < time + timeLeastValue
  index_eq : node.expire.toNat % timeLeastValue = index.val

structure LevelPlaced (time : Nat) (slot : LevelSlot) (node : TimerNode) : Prop where
  shared : block (levelShift (slot.1 + 1)) time
    = block (levelShift (slot.1 + 1)) node.expire.toNat
  lt : block (levelShift slot.1) time < block (levelShift slot.1) node.expire.toNat
  value_eq : block (levelShift slot.1) node.expire.toNat % timeLevelValue = slot.2 + 1

/-- Every node is in the list its expiry and the clock name. -/
structure Timer.Placed (t : Timer) : Prop where
  least : ∀ index, ∀ node ∈ t.least index, LeastPlaced t.time.toNat index node
  level : ∀ slot, ∀ node ∈ t.level slot, LevelPlaced t.time.toNat slot node

def Timer.stored (t : Timer) : Multiset TimerNode :=
  Tally.contents t.least + Tally.contents t.level

theorem Timer.placed_fresh : Timer.fresh.Placed :=
  ⟨fun _ _ hnode => absurd hnode (List.not_mem_nil), fun _ _ hnode => absurd hnode List.not_mem_nil⟩

theorem Timer.stored_fresh : Timer.fresh.stored = 0 := by
  have hleast : Tally.contents Timer.fresh.least = 0 := Tally.contents_empty
  have hlevel : Tally.contents Timer.fresh.level = 0 := Tally.contents_empty
  rw [Timer.stored, hleast, hlevel, add_zero]

theorem LevelPlaced.le {time : Nat} {slot : LevelSlot} {node : TimerNode}
    (hplaced : LevelPlaced time slot node) : time ≤ node.expire.toNat :=
  (lt_of_block_lt hplaced.lt).le

theorem Timer.Placed.le_expire {t : Timer} (hplaced : t.Placed) {node : TimerNode}
    (hnode : node ∈ t.stored) : t.time.toNat ≤ node.expire.toNat := by
  rw [Timer.stored, Multiset.mem_add] at hnode
  rcases hnode with hleast | hlevel
  · obtain ⟨index, hmem⟩ := Tally.mem_contents.mp hleast
    exact (hplaced.least index node hmem).le
  · obtain ⟨slot, hmem⟩ := Tally.mem_contents.mp hlevel
    exact (hplaced.level slot node hmem).le

section Lists

variable (t : Timer) (node : TimerNode)

theorem Timer.stored_appendLeast (index : Fin timeLeastValue) :
    (t.appendLeast index node).stored = node ::ₘ t.stored := by
  rw [Timer.stored, Timer.appendLeast, Tally.contents_append, Multiset.cons_add]
  rfl

theorem Timer.stored_appendLevel (slot : LevelSlot) :
    (t.appendLevel slot node).stored = node ::ₘ t.stored := by
  rw [Timer.stored, Timer.appendLevel, Tally.contents_append, Multiset.add_cons]
  rfl

theorem Timer.stored_clearLeast (index : Fin timeLeastValue) :
    (t.clearLeast index).stored + t.least index = t.stored := by
  rw [Timer.stored, Timer.clearLeast, add_right_comm, Tally.contents_clear]
  rfl

theorem Timer.stored_clearLevel (slot : LevelSlot) :
    (t.clearLevel slot).stored + t.level slot = t.stored := by
  rw [Timer.stored, Timer.clearLevel, add_assoc, Tally.contents_clear]
  rfl

variable {t node}

theorem Timer.Placed.appendLeast (hplaced : t.Placed) {index : Fin timeLeastValue}
    (hnode : LeastPlaced t.time.toNat index node) : (t.appendLeast index node).Placed := by
  refine ⟨fun other n hn => ?_, hplaced.level⟩
  rcases Tally.mem_update_append hn with hold | ⟨rfl, rfl⟩
  · exact hplaced.least other n hold
  · exact hnode

theorem Timer.Placed.appendLevel (hplaced : t.Placed) {slot : LevelSlot}
    (hnode : LevelPlaced t.time.toNat slot node) : (t.appendLevel slot node).Placed := by
  refine ⟨hplaced.least, fun other n hn => ?_⟩
  rcases Tally.mem_update_append hn with hold | ⟨rfl, rfl⟩
  · exact hplaced.level other n hold
  · exact hnode

end Lists

/-! ### Queueing -/

/-- **`_queue`.** A node that has not expired is stored once more, where it belongs. -/
theorem queue_spec {t : Timer} {node : TimerNode} (hplaced : t.Placed)
    (hexpire : t.time ≤ node.expire) :
    ∃ t', queue t node = some t' ∧ t'.time = t.time ∧ t'.Placed
      ∧ t'.stored = node ::ₘ t.stored := by
  have hle : t.time.toNat ≤ node.expire.toNat := UInt64.le_iff_toNat_le.mp hexpire
  have hsub : (node.expire - t.time).toNat = node.expire.toNat - t.time.toNat :=
    UInt64.toNat_sub_of_le _ _ hexpire
  have hnear : node.expire - t.time < timeLeastValue.toUInt64
      ↔ node.expire.toNat - t.time.toNat < timeLeastValue := by
    rw [UInt64.lt_iff_toNat_lt, hsub]
    exact Iff.rfl
  simp only [queue, if_neg (UInt64.not_lt.mpr hexpire), hnear]
  split_ifs with hlt
  · refine ⟨_, rfl, rfl, hplaced.appendLeast ⟨hle, by omega, ?_⟩, t.stored_appendLeast node _⟩
    exact (leastIndex_val node.expire).symm
  · have hblock : block (levelShift 0) t.time.toNat < block (levelShift 0) node.expire.toNat := by
      have hvalue : timeLeastValue = 16384 := rfl
      change t.time.toNat / 2 ^ 14 < node.expire.toNat / 2 ^ 14
      omega
    obtain ⟨level, hfound, hbound, hshared, hbefore⟩ :=
      queueLevel_spec t.time node.expire timeLevelCount 0 (Nat.zero_add _) hblock
    have hvalue := levelValue_toNat node.expire hbound
    have hpos : 0 < (levelValue node.expire level).toNat := by
      rw [hvalue]
      rw [levelShift_succ] at hshared
      exact digit_pos_of_block_lt hshared.symm hbefore
    have hdigit : (levelValue node.expire level).toNat < timeLevelValue := by
      rw [hvalue]
      exact Nat.mod_lt _ (Nat.two_pow_pos _)
    obtain ⟨slot, hslot, hslotLevel, hslotValue⟩ := levelSlot_eq_some hbound hpos hdigit
    have hstart : (2 ^ levelShift 0).toUInt64 = 1 <<< timeLeastShift.toUInt64 := by decide
    rw [hstart] at hfound
    simp only [hfound, hslot]
    refine ⟨_, rfl, rfl, hplaced.appendLevel ⟨?_, ?_, ?_⟩, t.stored_appendLevel node slot⟩
    · rw [hslotLevel, hshared]
    · rw [hslotLevel]
      exact hbefore
    · rw [hslotLevel, hslotValue, hvalue]
      rfl

theorem queueList_spec :
    ∀ (list : List TimerNode) {t : Timer}, t.Placed → (∀ node ∈ list, t.time ≤ node.expire) →
      ∃ t', queueList t list = some t' ∧ t'.time = t.time ∧ t'.Placed
        ∧ t'.stored = t.stored + list := by
  intro list
  induction list with
  | nil =>
      intro t hplaced _
      exact ⟨t, rfl, rfl, hplaced, (add_zero _).symm⟩
  | cons node list ih =>
      intro t hplaced hexpire
      obtain ⟨t₁, hqueue, htime₁, hplaced₁, hstored₁⟩ :=
        queue_spec hplaced (hexpire node List.mem_cons_self)
      obtain ⟨t₂, hlist, htime₂, hplaced₂, hstored₂⟩ := ih hplaced₁ fun n hn => by
        rw [htime₁]
        exact hexpire n (List.mem_cons_of_mem _ hn)
      refine ⟨t₂, ?_, htime₂.trans htime₁, hplaced₂, ?_⟩
      · simp only [queueList, hqueue, hlist]
      · rw [hstored₂, hstored₁, ← Multiset.cons_coe, Multiset.cons_add, Multiset.add_cons]

end Stp.Time
