import Stp.Library.Transition
import Stp.Process.Registry

/-!
# Runs of the registry

`Process::create` registers a process under the next number of the counter, `retire` takes the
number out again, and `find` looks a number up. The numbers identify the registered processes as
long as no spawn is handed `0` or the number of a process that is still registered; the counter
wraps, so after `2 ^ 32` spawns a process that has been there since the first is displaced.
-/

namespace Stp.Process.Pids

open Transition

/-- Where a process object stands, with its `_pid` once it has one. -/
inductive Life where
  | unborn
  | registered (pid : ProcessT)
  | retired (pid : ProcessT)
deriving DecidableEq, Repr

structure State (P : Type*) where
  registry : Registry P
  life : P → Life

inductive Label (P : Type*) where
  | spawn (p : P)
  | retire (p : P)
  | find (pid : ProcessT)

variable {P : Type*}

def State.fresh : State P where
  registry := .empty
  life _ := .unborn

variable [DecidableEq P]

/-- `p->_pid = reg(p)`. -/
def State.create (s : State P) (p : P) : State P where
  registry := (s.registry.reg p).2
  life := Function.update s.life p (.registered (s.registry.reg p).1)

/-- `unreg(p->pid())` in `retire`. -/
def State.retire (s : State P) (p : P) (pid : ProcessT) : State P where
  registry := (s.registry.unreg pid).2
  life := Function.update s.life p (.retired pid)

inductive Step (s : State P) : Label P → State P → Prop
  | spawn (p : P) (hlife : s.life p = .unborn) : Step s (.spawn p) (s.create p)
  | retire (p : P) (pid : ProcessT) (hlife : s.life p = .registered pid) :
      Step s (.retire p) (s.retire p pid)
  | find (pid : ProcessT) : Step s (.find pid) s

def system : System (State P) (Label P) where
  init s := s = .fresh
  step := Step

/-- Each registered process has a number of its own, which is not `0` and which finds it, and a
number finds nothing else. -/
structure Identifies (s : State P) : Prop where
  distinct : ∀ {p q pid}, s.life p = .registered pid → s.life q = .registered pid → p = q
  nonzero : ∀ {p pid}, s.life p = .registered pid → pid ≠ 0
  found : ∀ {p pid}, s.life p = .registered pid → s.registry.find pid = some p
  only : ∀ {p pid}, s.registry.find pid = some p → s.life p = .registered pid

/-- A spawn is not handed `0`, nor the number of a registered process. -/
def Label.Orderly (s : State P) : Label P → Prop
  | .spawn _ => s.registry.seq + 1 ≠ 0 ∧ ∀ q, s.life q ≠ .registered (s.registry.seq + 1)
  | _ => True

def orderly : System (State P) (Label P) := system.restrict fun s label => label.Orderly s

/-! ### One step -/

omit [DecidableEq P] in
theorem identifies_fresh : Identifies (State.fresh : State P) :=
  ⟨nofun, nofun, nofun, nofun⟩

theorem State.create_life (s : State P) {p q : P} {pid : ProcessT}
    (hlife : (s.create p).life q = .registered pid) :
    (q = p ∧ pid = s.registry.seq + 1) ∨ (q ≠ p ∧ s.life q = .registered pid) := by
  by_cases hq : q = p
  · subst hq
    simp only [State.create, Function.update_self, Life.registered.injEq] at hlife
    exact Or.inl ⟨rfl, hlife.symm⟩
  · simp only [State.create, Function.update_of_ne hq] at hlife
    exact Or.inr ⟨hq, hlife⟩

theorem State.retire_life (s : State P) {p q : P} {pid id : ProcessT}
    (hlife : (s.retire p pid).life q = .registered id) :
    q ≠ p ∧ s.life q = .registered id := by
  by_cases hq : q = p
  · subst hq
    simp only [State.retire, Function.update_self] at hlife
    cases hlife
  · simp only [State.retire, Function.update_of_ne hq] at hlife
    exact ⟨hq, hlife⟩

/-- A number other than the next one still finds what it found. -/
theorem State.create_find (s : State P) (p : P) {pid : ProcessT}
    (hpid : pid ≠ s.registry.seq + 1) :
    (s.create p).registry.find pid = s.registry.find pid := Function.update_of_ne hpid _ _

theorem State.retire_find (s : State P) (p : P) {pid id : ProcessT} (hid : id ≠ pid) :
    (s.retire p pid).registry.find id = s.registry.find id := Function.update_of_ne hid _ _

theorem Identifies.create {s : State P} (hs : Identifies s) {p : P} (hunborn : s.life p = .unborn)
    (horderly : (Label.spawn p).Orderly s) : Identifies (s.create p) := by
  obtain ⟨hzero, hfree⟩ := horderly
  refine ⟨?_, ?_, ?_, ?_⟩
  · intro q q' pid hq hq'
    obtain ⟨rfl, rfl⟩ | ⟨-, hold⟩ := s.create_life hq
    · obtain ⟨rfl, -⟩ | ⟨-, hold'⟩ := s.create_life hq'
      · rfl
      · exact absurd hold' (hfree q')
    · obtain ⟨rfl, rfl⟩ | ⟨-, hold'⟩ := s.create_life hq'
      · exact absurd hold (hfree q)
      · exact hs.distinct hold hold'
  · intro q pid hq
    obtain ⟨-, rfl⟩ | ⟨-, hold⟩ := s.create_life hq
    · exact hzero
    · exact hs.nonzero hold
  · intro q pid hq
    obtain ⟨rfl, rfl⟩ | ⟨-, hold⟩ := s.create_life hq
    · exact Function.update_self _ _ _
    · rw [s.create_find p fun h => hfree q (h ▸ hold)]
      exact hs.found hold
  · intro q pid hq
    obtain ⟨rfl, rfl⟩ | hold := Registry.find_reg hq
    · exact Function.update_self _ _ _
    · have hlife := hs.only hold
      have hne : q ≠ p := by
        rintro rfl
        rw [hunborn] at hlife
        cases hlife
      simpa only [State.create, Function.update_of_ne hne] using hlife

theorem Identifies.retire {s : State P} (hs : Identifies s) {p : P} {pid : ProcessT}
    (hlife : s.life p = .registered pid) : Identifies (s.retire p pid) := by
  refine ⟨?_, ?_, ?_, ?_⟩
  · intro q q' id hq hq'
    exact hs.distinct (s.retire_life hq).2 (s.retire_life hq').2
  · intro q id hq
    exact hs.nonzero (s.retire_life hq).2
  · intro q id hq
    obtain ⟨hne, hold⟩ := s.retire_life hq
    have hid : id ≠ pid := by
      rintro rfl
      exact hne (hs.distinct hold hlife)
    rw [s.retire_find p hid]
    exact hs.found hold
  · intro q id hq
    obtain ⟨hid, hold⟩ := Registry.find_unreg hq
    have hne : q ≠ p := by
      rintro rfl
      have hsame := hlife.symm.trans (hs.only hold)
      injection hsame with hpid
      exact hid hpid.symm
    simpa only [State.retire, Function.update_of_ne hne] using hs.only hold

/-- A spawn that is not orderly gives two processes one number, or one of them `0`. -/
theorem Identifies.not_create {s : State P} {p : P} (hunborn : s.life p = .unborn)
    (hcreate : Identifies (s.create p)) : (Label.spawn p).Orderly s := by
  have hp : (s.create p).life p = .registered (s.registry.seq + 1) := Function.update_self _ _ _
  refine ⟨hcreate.nonzero hp, fun q hq => ?_⟩
  have hne : q ≠ p := by
    rintro rfl
    rw [hunborn] at hq
    cases hq
  have hq' : (s.create p).life q = .registered (s.registry.seq + 1) :=
    (Function.update_of_ne hne _ _).trans hq
  exact hne (hcreate.distinct hq' hp)

theorem Step.identifies_iff {s s' : State P} {label : Label P} (hstep : Step s label s')
    (hs : Identifies s) : Identifies s' ↔ label.Orderly s := by
  cases hstep with
  | spawn p hlife => exact ⟨Identifies.not_create hlife, hs.create hlife⟩
  | retire p pid hlife => exact ⟨fun _ => trivial, fun _ => hs.retire hlife⟩
  | find pid => exact ⟨fun _ => trivial, fun _ => hs⟩

/-- What a step leaves of a process that was registered before it: `retire` of the process itself
makes its number find nothing, and after any other step its number finds it. -/
theorem Step.find_registered {s s' : State P} {label : Label P} (hstep : Step s label s')
    (hs : Identifies s) (horderly : label.Orderly s) {q : P} {pid : ProcessT}
    (hlife : s.life q = .registered pid) :
    (label = .retire q → s'.registry.find pid = none)
      ∧ (label ≠ .retire q → s'.registry.find pid = some q) := by
  cases hstep with
  | spawn p hunborn =>
      refine ⟨nofun, fun _ => ?_⟩
      rw [s.create_find p fun h => horderly.2 q (h ▸ hlife)]
      exact hs.found hlife
  | retire p id hretired =>
      constructor
      · intro heq
        injection heq with hp
        subst hp
        injection hretired.symm.trans hlife with hid
        subst hid
        exact Function.update_self _ _ _
      · intro hne
        have hid : pid ≠ id := by
          rintro rfl
          exact hne (congrArg Label.retire (hs.distinct hretired hlife))
        rw [s.retire_find p hid]
        exact hs.found hlife
  | find id => exact ⟨nofun, fun _ => hs.found hlife⟩

/-! ### Runs -/

theorem identifies_of_reachable {s : State P} (hs : orderly.Reachable s) : Identifies s := by
  refine hs.invariant ?_ ?_
  · rintro s rfl
    exact identifies_fresh
  · intro s label s' _ hs ⟨hstep, horderly⟩
    exact (hstep.identifies_iff hs).mpr horderly

/-- **The registry.** In a run in which no spawn is handed `0` or the number of a registered
process, the numbers identify the registered processes in every state, and a step makes the number
of a registered process find nothing if it retires this process and leaves it to find the process
if not. The first spawn that is handed such a number ends this. -/
theorem pids_identify {s : State P} (hs : orderly.Reachable s) :
    Identifies s ∧ ∀ label s', Step s label s' →
      (Identifies s' ↔ label.Orderly s)
      ∧ (label.Orderly s → ∀ q pid, s.life q = .registered pid →
          (label = .retire q → s'.registry.find pid = none)
            ∧ (label ≠ .retire q → s'.registry.find pid = some q)) := by
  have hidentifies := identifies_of_reachable hs
  exact ⟨hidentifies, fun label s' hstep => ⟨hstep.identifies_iff hidentifies,
    fun horderly q pid hlife => hstep.find_registered hidentifies horderly hlife⟩⟩

/-- Two processes are spawned. -/
theorem pids_identify_spawned :
    ∃ s : State Nat, s.life 0 = .registered 1 ∧ s.life 1 = .registered 2 ∧ Identifies s := by
  have hfresh : orderly.Reachable (State.fresh : State Nat) := .of_init rfl
  have h1 := hfresh.step ⟨Step.spawn 0 rfl, by decide, nofun⟩
  have h2 := h1.step ⟨Step.spawn 1 rfl, by decide, fun q hq => by
    obtain ⟨rfl, hpid⟩ | ⟨-, hold⟩ := State.create_life _ hq
    · exact absurd hpid (by decide)
    · cases hold⟩
  exact ⟨_, rfl, rfl, (pids_identify h2).1⟩

/-- One process stays and `rounds` others come and go. -/
theorem rounds_reachable (rounds : Nat) :
    ∃ s : State Nat, system.Reachable s ∧ s.registry.seq = UInt32.ofNat (rounds + 1)
      ∧ s.life 0 = .registered 1 ∧ ∀ p, rounds < p → s.life p = .unborn := by
  induction rounds with
  | zero =>
      have hfresh : system.Reachable (State.fresh : State Nat) := .of_init rfl
      refine ⟨_, hfresh.step (Step.spawn 0 rfl), rfl, rfl, fun p hp => ?_⟩
      exact Function.update_of_ne (Nat.ne_of_gt hp) _ _
  | succ rounds ih =>
      obtain ⟨s, hs, hseq, hstays, hunborn⟩ := ih
      have hspawn := hs.step (Step.spawn (rounds + 1) (hunborn _ (Nat.lt_succ_self rounds)))
      refine ⟨_, hspawn.step (Step.retire (rounds + 1) _ (Function.update_self _ _ _)), ?_, ?_, ?_⟩
      · change s.registry.seq + 1 = _
        rw [hseq, ← UInt32.ofNat_one, ← UInt32.ofNat_add]
      · have hne : (0 : Nat) ≠ rounds + 1 := (Nat.succ_ne_zero rounds).symm
        simp only [State.retire, State.create, Function.update_of_ne hne, hstays]
      · intro p hp
        have hne : p ≠ rounds + 1 := Nat.ne_of_gt hp
        simp only [State.retire, State.create, Function.update_of_ne hne]
        exact hunborn p (Nat.lt_of_succ_lt hp)

/-- The process spawned first stays, `2 ^ 32 - 1` others come and go, and the next one is handed
the number of the first. -/
theorem first_displaced :
    ∃ s : State Nat, system.Reachable s ∧ s.life 0 = .registered 1
      ∧ s.life 4294967296 = .registered 1 ∧ s.registry.find 1 = some 4294967296
      ∧ ¬ Identifies s := by
  obtain ⟨s, hs, hseq, hstays, hunborn⟩ := rounds_reachable 4294967295
  have hnext : s.registry.seq + 1 = 1 := by
    rw [hseq]
    rfl
  have hlast : (s.create 4294967296).life 4294967296 = .registered 1 := by
    simp only [State.create, Registry.reg, hnext, Function.update_self]
  have hfirst : (s.create 4294967296).life 0 = .registered 1 := by
    have hne : (0 : Nat) ≠ 4294967296 := by decide
    simp only [State.create, Function.update_of_ne hne, hstays]
  have hfind : (s.create 4294967296).registry.find 1 = some 4294967296 := by
    simp only [State.create, Registry.find, Registry.reg, hnext, Function.update_self]
  refine ⟨_, hs.step (Step.spawn 4294967296 (hunborn _ (by decide))), hfirst, hlast, hfind, ?_⟩
  intro hidentifies
  exact absurd (hidentifies.distinct hfirst hlast) (by decide)

end Stp.Process.Pids
