import Mathlib.Data.Multiset.AddSub
import Mathlib.Logic.Function.Basic
import Stp.Library.Transition

/-!
# Mutex handles

A `coroutine::Mutex` is a pointer to a `detail::Mutex` with a reference count. Its constructor
creates one, a copy refers to it once more, and the destructor gives a reference up, which takes
nothing off the count. A run is any sequence of constructions, copies and destructions. Of the
live handles only their pointers matter here, and of a `detail::Mutex` only its count.
-/

namespace Stp.Mutex

/-- `detail::Mutex` without its queue. -/
structure Shared where
  refcnt : Int
deriving DecidableEq, Repr

def Shared.create : Shared where
  refcnt := 1

def Shared.ref (m : Shared) : Shared where
  refcnt := m.refcnt + 1

/-- The mutex after `unref`, or `none` if it has been deleted. -/
def Shared.unref (m : Shared) : Option Shared :=
  let m : Shared := { refcnt := m.refcnt - 0 }
  if m.refcnt = 0 then none else some m

variable {M : Type*} [DecidableEq M]

structure Handles (M : Type*) where
  /-- What is allocated, by its address. -/
  shared : M → Option Shared
  /-- The `_opaque` of every live handle. -/
  live : Multiset M

def Handles.set (s : Handles M) (m : M) (shared : Option Shared) (live : Multiset M) : Handles M where
  shared := Function.update s.shared m shared
  live := live

inductive Handles.Label (M : Type*) where
  | construct (m : M)
  | copy (m : M)
  | destroy (m : M)

inductive Handles.Step (s : Handles M) : Handles.Label M → Handles M → Prop
  | construct {m : M} (hnew : s.shared m = none) :
      Handles.Step s (.construct m) (s.set m (some Shared.create) (m ::ₘ s.live))
  | copy {m : M} {shared : Shared} (hlive : m ∈ s.live) (hshared : s.shared m = some shared) :
      Handles.Step s (.copy m) (s.set m (some shared.ref) (m ::ₘ s.live))
  | destroy {m : M} {shared : Shared} (hlive : m ∈ s.live) (hshared : s.shared m = some shared)
      (hassert : 0 < shared.refcnt) :
      Handles.Step s (.destroy m) (s.set m shared.unref (s.live.erase m))

def handles : Transition.System (Handles M) (Handles.Label M) where
  init s := s = ⟨fun _ => none, 0⟩
  step := Handles.Step

/-- The mutexes that handles have been destroyed on. -/
def Handles.destroyed (_ : Handles M) : Handles.Label M → List M
  | .destroy m => [m]
  | .construct _ | .copy _ => []

/-- The mutex belongs to its handles: their number is its count, and it is there as long as one is. -/
structure Handles.Owned (s : Handles M) (m : M) : Prop where
  refcnt : ∀ shared, s.shared m = some shared → shared.refcnt = s.live.count m
  deleted : s.shared m = none ↔ m ∉ s.live

/-- What the count is: the handles that there are and those that there were. -/
structure Handles.Counted (s : Handles M) (destroyed : List M) (m : M) : Prop where
  refcnt : ∀ shared, s.shared m = some shared →
    shared.refcnt = s.live.count m + destroyed.count m ∧ 0 < shared.refcnt
  new : s.shared m = none → m ∉ s.live ∧ m ∉ destroyed

theorem Shared.unref_of_pos {m : Shared} (hpos : 0 < m.refcnt) : m.unref = some m := by
  have hne : m.refcnt - 0 ≠ 0 := by omega
  rw [Shared.unref, if_neg hne, Int.sub_zero]

section

variable {s s' : Handles M} {destroyed destroyed' : List M} {m m' : M}

@[simp] theorem Handles.set_shared_self (shared : Option Shared) (live : Multiset M) :
    (s.set m shared live).shared m = shared := by
  simp [Handles.set]

@[simp] theorem Handles.set_shared_of_ne (shared : Option Shared) (live : Multiset M)
    (hne : m ≠ m') : (s.set m' shared live).shared m = s.shared m := by
  simp [Handles.set, hne]

@[simp] theorem Handles.set_live (shared : Option Shared) (live : Multiset M) :
    (s.set m shared live).live = live := rfl

theorem Handles.Counted.set_of_ne (hs : s.Counted destroyed m) (hne : m ≠ m')
    {shared : Option Shared} {live : Multiset M} (hlive : live.count m = s.live.count m)
    (hdestroyed : destroyed'.count m = destroyed.count m) :
    (s.set m' shared live).Counted destroyed' m := by
  refine ⟨fun shared' heq => ?_, fun heq => ?_⟩
  · rw [Handles.set_shared_of_ne _ _ hne] at heq
    rw [hdestroyed, Handles.set_live, hlive]
    exact hs.refcnt shared' heq
  · rw [Handles.set_shared_of_ne _ _ hne] at heq
    obtain ⟨hnotLive, hnot⟩ := hs.new heq
    rw [Handles.set_live]
    refine ⟨Multiset.count_eq_zero.mp ?_, List.count_eq_zero.mp ?_⟩
    · exact hlive.trans (Multiset.count_eq_zero.mpr hnotLive)
    · exact hdestroyed.trans (List.count_eq_zero.mpr hnot)

theorem Handles.Counted.step {label : Handles.Label M} (hs : s.Counted destroyed m)
    (hstep : s.Step label s') : s'.Counted (destroyed ++ s.destroyed label) m := by
  cases hstep with
  | @construct m' hnew =>
      rw [Handles.destroyed, List.append_nil]
      by_cases hm : m = m'
      · subst hm
        obtain ⟨hlive, hnot⟩ := hs.new hnew
        refine ⟨fun shared heq => ?_, fun heq => absurd heq (by simp)⟩
        have hcount : (m ::ₘ s.live).count m = 1 := by
          rw [Multiset.count_cons_self, Multiset.count_eq_zero.mpr hlive]
        obtain rfl : Shared.create = shared := Option.some_inj.mp (by simpa using heq)
        rw [List.count_eq_zero.mpr hnot, Handles.set_live, hcount]
        decide
      · exact hs.set_of_ne hm (Multiset.count_cons_of_ne hm _) rfl
  | @copy m' shared hlive hshared =>
      rw [Handles.destroyed, List.append_nil]
      by_cases hm : m = m'
      · subst hm
        obtain ⟨hcount, hpos⟩ := hs.refcnt shared hshared
        refine ⟨fun shared' heq => ?_, fun heq => absurd heq (by simp)⟩
        obtain rfl : shared.ref = shared' := Option.some_inj.mp (by simpa using heq)
        rw [Handles.set_live, Multiset.count_cons_self, Shared.ref]
        push_cast
        omega
      · exact hs.set_of_ne hm (Multiset.count_cons_of_ne hm _) rfl
  | @destroy m' shared hlive hshared hassert =>
      rw [Handles.destroyed, Shared.unref_of_pos hassert]
      by_cases hm : m = m'
      · subst hm
        obtain ⟨hcount, hpos⟩ := hs.refcnt shared hshared
        refine ⟨fun shared' heq => ?_, fun heq => absurd heq (by simp)⟩
        obtain rfl : shared = shared' := Option.some_inj.mp (by simpa using heq)
        have hlt := Multiset.count_pos.mpr hlive
        rw [Handles.set_live, Multiset.count_erase_self, List.count_append, List.count_singleton_self]
        omega
      · refine hs.set_of_ne hm (Multiset.count_erase_of_ne hm _) ?_
        rw [List.count_append, List.count_singleton, if_neg (by simpa using Ne.symm hm)]
        rfl

theorem Handles.counted_of_logs (hlog : handles.Logs Handles.destroyed s destroyed) :
    s.Counted destroyed m := by
  induction hlog with
  | init hinit =>
      subst hinit
      exact ⟨fun _ heq => absurd heq (Option.some_ne_none _).symm,
        fun _ => ⟨Multiset.notMem_zero m, List.not_mem_nil⟩⟩
  | step hlog hstep ih => exact ih.step hstep

/-- A mutex belongs to its handles as long as none of them has been destroyed, and no longer: the
count never goes down, and the mutex is never deleted. -/
theorem owned_iff_not_destroyed (hlog : handles.Logs Handles.destroyed s destroyed) :
    s.Owned m ↔ m ∉ destroyed := by
  have hcounted : s.Counted destroyed m := Handles.counted_of_logs hlog
  refine ⟨fun howned hdestroyed => ?_, fun hnot => ⟨fun shared hshared => ?_, ?_⟩⟩
  · obtain hnone | ⟨shared, hshared⟩ := Option.eq_none_or_eq_some (s.shared m)
    · exact (hcounted.new hnone).2 hdestroyed
    · have hlt := List.count_pos_iff.mpr hdestroyed
      have hlive := howned.refcnt shared hshared
      have hcount := (hcounted.refcnt shared hshared).1
      omega
  · rw [(hcounted.refcnt shared hshared).1, List.count_eq_zero.mpr hnot]
    simp
  · refine ⟨fun hnone => (hcounted.new hnone).1, fun hlive => ?_⟩
    by_contra hsome
    obtain ⟨shared, hshared⟩ := Option.ne_none_iff_exists'.mp hsome
    obtain ⟨hcount, hpos⟩ := hcounted.refcnt shared hshared
    rw [hcount, List.count_eq_zero.mpr hnot, Multiset.count_eq_zero.mpr hlive] at hpos
    exact absurd hpos (by simp)

end

/-- One mutex has three handles, and the only handle of another one is destroyed. -/
theorem owned_iff_not_destroyed_copied :
    ∃ s : Handles Nat, handles.Logs Handles.destroyed s [1] ∧ s.live.count 0 = 3
      ∧ s.shared 0 = some ⟨3⟩ ∧ s.Owned 0 ∧ s.shared 1 = some ⟨1⟩ ∧ ¬ s.Owned 1 := by
  have h0 : handles.Logs Handles.destroyed (⟨fun _ => none, 0⟩ : Handles Nat) [] := .init rfl
  have h1 := h0.step (.construct (m := 0) rfl)
  have h2 := h1.step (.copy (m := 0) (by simp) rfl)
  have h3 := h2.step (.construct (m := 1) rfl)
  have h4 := h3.step (.copy (m := 0) (by simp) rfl)
  have h5 := h4.step (.destroy (m := 1) (by simp) rfl (by decide))
  refine ⟨_, h5, by decide, rfl, ?_, rfl, ?_⟩
  · exact (owned_iff_not_destroyed h5).mpr (by decide)
  · exact fun howned => (owned_iff_not_destroyed h5).mp howned (by decide)

/-- A handle is created and destroyed, and its mutex stays. -/
theorem mutex_left_allocated :
    ∃ s : Handles Nat, handles.Reachable s ∧ s.live = 0 ∧ s.shared 0 = some ⟨1⟩ ∧ ¬ s.Owned 0 := by
  have h0 : handles.Reachable (⟨fun _ => none, 0⟩ : Handles Nat) := .of_init rfl
  have h1 := h0.step (.construct (m := 0) rfl)
  have h2 := h1.step (.destroy (m := 0) (by simp) (Handles.set_shared_self _ _) (by decide))
  refine ⟨_, h2, by simp, by simp; rfl, fun howned => ?_⟩
  have := howned.deleted.mpr (by simp)
  exact absurd this (by simp [Shared.unref, Shared.create])

end Stp.Mutex
