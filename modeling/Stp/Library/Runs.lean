import Mathlib.Order.OrderIsoNat
import Stp.Library.Transition

/-!
# Runs that never end

What a program is bound to do is said of its infinite runs. A run may pause at any point, so a run
that has come to an end goes on as one that pauses for ever. What a scheduler of threads promises is
weak fairness: an action that can be taken at any time from some point on is taken. Progress is then
shown by a measure that no step raises. It settles, and an action that would lower it cannot be
enabled for ever after.
-/

namespace Transition

variable {S L : Type*}

structure System.Run (system : System S L) (run : Nat → S) : Prop where
  init : system.init (run 0)
  next : ∀ n, run (n + 1) = run n ∨ ∃ label, system.step (run n) label (run (n + 1))

/-- An action that can be taken at any time from some point on is taken after it. -/
def WeaklyFair (run : Nat → S) (enabled : S → Prop) (taken : S → S → Prop) : Prop :=
  ∀ n, (∀ k ≥ n, enabled (run k)) → ∃ k ≥ n, taken (run k) (run (k + 1))

/-- An action that can be taken again and again is taken again and again. -/
def StronglyFair (run : Nat → S) (enabled : S → Prop) (taken : S → S → Prop) : Prop :=
  ∀ n, (∀ m ≥ n, ∃ k ≥ m, enabled (run k)) → ∃ k ≥ n, taken (run k) (run (k + 1))

variable {system : System S L} {run : Nat → S}

theorem System.Run.leads (hrun : system.Run run) {m n : Nat} (hle : m ≤ n) :
    system.Leads (run m) (run n) := by
  induction n, hle using Nat.le_induction with
  | base => exact .refl
  | succ n hle ih =>
      obtain hpause | hstep := hrun.next n
      · rwa [hpause]
      · exact ih.tail hstep

theorem System.Run.reachable (hrun : system.Run run) (n : Nat) : system.Reachable (run n) :=
  ⟨run 0, hrun.init, hrun.leads (Nat.zero_le n)⟩

/-- What is true at some time and kept by each step after it stays true. -/
theorem System.Run.keeps (hrun : system.Run run) {P : S → Prop} {n : Nat}
    (hkeep : ∀ k ≥ n, P (run k) → ∀ label, system.step (run k) label (run (k + 1)) → P (run (k + 1)))
    (hn : P (run n)) {k : Nat} (hk : n ≤ k) : P (run k) := by
  induction k, hk using Nat.le_induction with
  | base => exact hn
  | succ k hk ih =>
      obtain hpause | ⟨label, hstep⟩ := hrun.next k
      · rwa [hpause]
      · exact hkeep k hk ih label hstep

/-- What is true at one time and not at another begins or ends with a step. -/
theorem System.Run.exists_step (hrun : system.Run run) {P : S → Prop} {m n : Nat} (hle : m ≤ n)
    (hm : P (run m)) (hn : ¬P (run n)) :
    ∃ k, m ≤ k ∧ k < n ∧ P (run k) ∧ ¬P (run (k + 1))
      ∧ ∃ label, system.step (run k) label (run (k + 1)) := by
  induction n, hle using Nat.le_induction with
  | base => exact absurd hm hn
  | succ n hle ih =>
      by_cases hbefore : P (run n)
      · refine ⟨n, hle, Nat.lt_succ_self n, hbefore, hn, (hrun.next n).resolve_left fun hpause => ?_⟩
        rw [hpause] at hn
        exact hn hbefore
      · obtain ⟨k, hk, hlt, hrest⟩ := ih hbefore
        exact ⟨k, hk, Nat.lt_succ_of_lt hlt, hrest⟩

/-- What changes only as a measure of it falls settles. -/
theorem settles {A : Type*} (view : Nat → A) (measure : A → Nat) {n : Nat}
    (hfalls : ∀ k ≥ n, view (k + 1) = view k ∨ measure (view (k + 1)) < measure (view k)) :
    ∃ m ≥ n, ∀ k ≥ m, view k = view m := by
  have hanti : Antitone fun k => measure (view (n + k)) :=
    antitone_nat_of_succ_le fun k =>
      (hfalls (n + k) (Nat.le_add_right n k)).elim (fun hsame => (congrArg measure hsame).le)
        Nat.le_of_lt
  obtain ⟨m, hm⟩ := WellFoundedGT.monotone_chain_condition
    (⟨fun k => OrderDual.toDual (measure (view (n + k))), fun _ _ h => hanti h⟩ : ℕ →o ℕᵒᵈ)
  refine ⟨n + m, Nat.le_add_right n m, fun k hk => ?_⟩
  induction k, hk using Nat.le_induction with
  | base => rfl
  | succ k hk ih =>
      obtain ⟨d, rfl⟩ := Nat.exists_eq_add_of_le hk
      obtain hsame | hlt := hfalls (n + m + d) (by omega)
      · rw [hsame, ih]
      · have hnow : measure (view (n + m)) = measure (view (n + m + d)) := by
          rw [Nat.add_assoc]
          exact hm (m + d) (Nat.le_add_right m d)
        have hnext : measure (view (n + m)) = measure (view (n + m + d + 1)) := by
          rw [Nat.add_assoc, Nat.add_assoc]
          exact hm (m + (d + 1)) (Nat.le_add_right m _)
        rw [← hnext, ← hnow] at hlt
        exact absurd hlt (lt_irrefl _)

/-- **Progress.** Once a view of the state has settled, a weakly fair action that would change it is
not enabled for ever. -/
theorem WeaklyFair.progress {enabled : S → Prop} {taken : S → S → Prop}
    (hfair : WeaklyFair run enabled taken) {A : Type*} (view : S → A) {n : Nat}
    (hsettled : ∀ k ≥ n, view (run k) = view (run n))
    (hchanges : ∀ s s', taken s s' → view s' ≠ view s) : ∃ k ≥ n, ¬enabled (run k) := by
  by_contra hnever
  obtain ⟨k, hk, htaken⟩ := hfair n fun k hk => not_not.mp fun hdisabled => hnever ⟨k, hk, hdisabled⟩
  exact hchanges _ _ htaken
    ((hsettled (k + 1) (Nat.le_succ_of_le hk)).trans (hsettled k hk).symm)

/-- A run that pauses for ever may take one more step instead. -/
theorem System.Run.extend (hrun : system.Run run) {s s' : S} {label : L} {n : Nat}
    (hlast : ∀ k ≥ n, run k = s) (hstep : system.step s label s') :
    system.Run (fun k => if k ≤ n then run k else s') where
  init := by
    rw [if_pos (Nat.zero_le n)]
    exact hrun.init
  next k := by
    obtain hlt | rfl | hgt := lt_trichotomy k n
    · rw [if_pos hlt.le, if_pos (Nat.succ_le_of_lt hlt)]
      exact hrun.next k
    · rw [if_pos le_rfl, if_neg (Nat.not_succ_le_self k), hlast k le_rfl]
      exact Or.inr ⟨label, hstep⟩
    · rw [if_neg (by omega), if_neg (by omega)]
      exact Or.inl rfl

/-- A run that ends goes on as one that pauses for ever, after the same states. -/
theorem System.Leads.exists_run {s s₁ s₂ : S} (hfirst : system.Leads s s₁)
    (hsecond : system.Leads s₁ s₂) (hinit : system.init s) :
    ∃ run, system.Run run ∧ (∃ n, run n = s₁) ∧ ∃ n, ∀ k ≥ n, run k = s₂ := by
  have hstart : ∃ run, system.Run run ∧ ∃ n, ∀ k ≥ n, run k = s₁ := by
    clear hsecond
    induction hfirst with
    | refl => exact ⟨fun _ => s, ⟨hinit, fun _ => Or.inl rfl⟩, 0, fun _ _ => rfl⟩
    | tail _ hstep ih =>
        obtain ⟨run, hrun, n, hlast⟩ := ih
        obtain ⟨label, hstep⟩ := hstep
        exact ⟨_, hrun.extend hlast hstep, n + 1, fun k hk => if_neg (by omega)⟩
  induction hsecond with
  | refl =>
      obtain ⟨run, hrun, n, hlast⟩ := hstart
      exact ⟨run, hrun, ⟨n, hlast n le_rfl⟩, n, hlast⟩
  | tail _ hstep ih =>
      obtain ⟨run, hrun, ⟨n₁, hn₁⟩, n, hlast⟩ := ih
      obtain ⟨label, hstep⟩ := hstep
      refine ⟨_, hrun.extend (n := max n n₁) (fun k hk => hlast k (le_of_max_le_left hk)) hstep,
        ⟨n₁, ?_⟩, max n n₁ + 1, fun k hk => if_neg (by omega)⟩
      rw [if_pos (le_max_right n n₁), hn₁]

end Transition
