import Stp.Coroutines.Fate

/-!
# What a wait returns

A coroutine has one `Result` for all its waits. `get_value` moves a value out of it but leaves an
exception in, so a coroutine that catches the exception of a wait is thrown the same exception by
each later wait, whatever was stored for that one. The waits of a run are logged, each with what was
stored for it and with what it returned or threw; the two agree as long as no earlier wait of the
coroutine was given an exception, and otherwise only if the wait is given one itself.
-/

namespace Stp.Coroutines

open Process

variable {V : Type*}

/-- A wait that is over. -/
structure Wait (V : Type*) where
  co : Nat
  given : Option (Outcome V)
  outcome : Outcome V

/-- What the wait should return or throw. -/
def Wait.own (wait : Wait V) : Outcome V := wait.given.getD (.ok .empty)

def Wait.Faulted (wait : Wait V) : Prop := ∃ e, wait.given = some (.error e)

/-- The wait that ends in a step. -/
def waits (s : State V) : Label V → List (Wait V)
  | .resume co (some outcome) => [⟨co, (s.co co).given, outcome⟩]
  | _ => []

/-! ### What the slot holds -/

/-- An exception is stored once a wait was given one, and the value is that of the present wait. -/
structure Coroutine.Slot (c : Coroutine V) : Prop where
  none_iff : c.result.exception = none ↔ c.faulted = false ∧ ∀ e, c.given ≠ some (.error e)
  stored : ∀ e, c.given = some (.error e) → c.result.exception = some e
  value : c.result.exception = none → c.given.getD (.ok .empty) = .ok c.result.value

theorem Coroutine.slot_create : (Coroutine.create : Coroutine V).Slot where
  none_iff := ⟨fun _ => ⟨rfl, fun _ => nofun⟩, fun _ => rfl⟩
  stored _ := nofun
  value _ := rfl

theorem Coroutine.Slot.give {c : Coroutine V} (hc : c.Slot) (hgiven : c.given = none)
    (outcome : Outcome V) : (c.give outcome).Slot := by
  cases outcome with
  | ok value =>
      refine ⟨?_, nofun, fun _ => rfl⟩
      have hnone := hc.none_iff
      rw [hgiven] at hnone
      simpa [Coroutine.give, Coroutine.setResult, Result.setValue] using hnone
  | error e =>
      refine ⟨?_, ?_, ?_⟩
      · simp [Coroutine.give, Coroutine.setException, Result.setException]
      · intro e' he'
        simpa [Coroutine.give, Coroutine.setException, Result.setException] using he'
      · simp [Coroutine.give, Coroutine.setException, Result.setException]

theorem Coroutine.Slot.waits {c c' : Coroutine V} (hc : c.Slot) (hgiven : c.given = none)
    (hwaits : c.Waits c') : c'.Slot := by
  obtain rfl | ⟨hnone, rfl⟩ := hwaits
  · exact hc
  · exact ⟨hc.none_iff, hc.stored, fun _ => by rw [hgiven]; rfl⟩

/-- What the wait gets is what was stored for it, unless an earlier exception is in the way. -/
theorem Coroutine.Slot.outcome_iff {c : Coroutine V} (hc : c.Slot) :
    c.result.getValue.1 = c.given.getD (.ok .empty)
      ↔ (∃ e, c.given = some (.error e)) ∨ c.faulted = false := by
  cases hexception : c.result.exception with
  | none =>
      rw [Result.getValue_wait hexception, hc.value hexception]
      exact ⟨fun _ => Or.inr (hc.none_iff.mp hexception).1, fun _ => rfl⟩
  | some e =>
      rw [Result.getValue_end hexception]
      by_cases hgiven : ∃ e', c.given = some (.error e')
      · obtain ⟨e', he'⟩ := hgiven
        have hsame : e' = e := Option.some.inj ((hc.stored e' he').symm.trans hexception)
        rw [he', hsame]
        exact ⟨fun _ => Or.inl ⟨e, rfl⟩, fun _ => rfl⟩
      · have hfaulted : c.faulted ≠ false := fun hfaulted => by
          have hnone := hc.none_iff.mpr ⟨hfaulted, fun e' he' => hgiven ⟨e', he'⟩⟩
          rw [hnone] at hexception
          cases hexception
        refine ⟨fun hsame => absurd ⟨e, ?_⟩ hgiven, fun h => (h.elim hgiven hfaulted).elim⟩
        cases hstored : c.given with
        | none =>
            rw [hstored] at hsame
            cases hsame
        | some outcome =>
            rw [hstored] at hsame
            exact congrArg some hsame.symm

theorem Coroutine.threw_iff {c : Coroutine V} : c.threw = true ↔ ∃ e, c.given = some (.error e) := by
  unfold Coroutine.threw
  split
  · next e he => exact ⟨fun _ => ⟨e, he⟩, fun _ => rfl⟩
  · next hgiven => exact ⟨nofun, fun ⟨e, he⟩ => absurd he (hgiven e)⟩

theorem Coroutine.Slot.switchTo {c : Coroutine V} (hc : c.Slot) : c.switchTo.2.Slot := by
  unfold Coroutine.switchTo
  split
  · cases hexception : c.result.exception with
    | none =>
        obtain ⟨hfaulted, hgiven⟩ := hc.none_iff.mp hexception
        have hthrew : c.threw = false :=
          Bool.eq_false_iff.mpr fun hthrew => (Coroutine.threw_iff.mp hthrew).elim hgiven
        rw [Result.getValue_wait hexception]
        refine ⟨⟨fun _ => ⟨?_, fun _ => nofun⟩, fun _ => hexception⟩, fun _ => nofun, fun _ => rfl⟩
        rw [hfaulted, hthrew]
        rfl
    | some e =>
        have hsome : c.result.exception ≠ none := by
          rw [hexception]
          exact Option.some_ne_none e
        rw [Result.getValue_end hexception]
        refine ⟨⟨fun hnone => absurd hnone hsome, fun ⟨hclean, _⟩ => ?_⟩, fun _ => nofun,
          fun hnone => absurd hnone hsome⟩
        obtain ⟨hfaulted, hthrew⟩ := Bool.or_eq_false_iff.mp hclean
        refine hc.none_iff.mpr ⟨hfaulted, fun e' he' => ?_⟩
        exact Bool.eq_false_iff.mp hthrew (Coroutine.threw_iff.mpr ⟨e', he'⟩)
  · exact ⟨hc.none_iff, hc.stored, hc.value⟩

/-! ### Every step keeps the slots right -/

structure Slots (s : State V) : Prop where
  once : ∀ co, s.queued co + s.unanswered co ≤ born s.created co
  slot : ∀ co, (s.co co).finished = false → (s.co co).Slot
  unstarted : ∀ co, (s.co co).started = false → (s.co co).given = none
  unanswered : ∀ co, 0 < s.unanswered co → (s.co co).started = true ∧ (s.co co).given = none

theorem Slots.once_le {s : State V} (hs : Slots s) (co : Nat) :
    s.queued co + s.unanswered co ≤ 1 :=
  Nat.le_trans (hs.once co) (born_le_one _ _)

theorem Slots.lt_created {s : State V} (hs : Slots s) {co : Nat}
    (hco : 0 < s.queued co + s.unanswered co) : co < s.created :=
  lt_of_born (hs.once co) hco

theorem Coroutine.give_same (c : Coroutine V) (outcome : Outcome V) :
    (c.give outcome).started = c.started ∧ (c.give outcome).finished = c.finished
      ∧ (c.give outcome).faulted = c.faulted := by
  cases outcome <;> exact ⟨rfl, rfl, rfl⟩

theorem Coroutine.Waits.same {c c' : Coroutine V} (hwaits : c.Waits c') :
    c'.started = c.started ∧ c'.finished = c.finished ∧ c'.given = c.given
      ∧ c'.faulted = c.faulted := by
  obtain rfl | ⟨-, rfl⟩ := hwaits <;> exact ⟨rfl, rfl, rfl, rfl⟩

/-- Once resumed, a coroutine has started, and nothing is stored for its next wait. -/
theorem Coroutine.switchTo_clear {c : Coroutine V} (hc : c.started = false → c.given = none) :
    c.switchTo.2.started = true ∧ c.switchTo.2.given = none := by
  unfold Coroutine.switchTo
  split
  · next hstarted => exact ⟨hstarted, rfl⟩
  · next hstarted => exact ⟨rfl, hc (Bool.eq_false_iff.mpr hstarted)⟩

theorem Step.slots {s s' : State V} {label : Label V} (hstep : Step s label s') (hs : Slots s) :
    Slots s' where
  once co := hstep.once (hs.once co)
  slot co := by
    intro hfinished
    cases hstep.fate co with
    | stays n hco =>
        rw [hco] at hfinished ⊢
        obtain ⟨hnone, hstored, hvalue⟩ := hs.slot co hfinished
        exact ⟨hnone, hstored, hvalue⟩
    | spawned hx hcreated hco =>
        rw [hco]
        exact Coroutine.slot_create
    | resumed hlabel hco =>
        rw [hco, (s.co co).switchTo_same.2] at hfinished
        rw [hco]
        exact (hs.slot co hfinished).switchTo
    | waits hrunning hco =>
        rw [hco.same.2.1] at hfinished
        exact (hs.slot co hfinished).waits (hs.unanswered co hrunning).2 hco
    | given outcome hco hlive hunanswered =>
        rw [hco, (Coroutine.give_same _ _).2.1] at hfinished
        rw [hco]
        exact (hs.slot co hfinished).give (hs.unanswered co (by omega)).2 outcome
    | finished e hco =>
        rw [hco] at hfinished
        cases hfinished
  unstarted co := by
    intro hstarted
    cases hstep.fate co with
    | stays n hco =>
        rw [hco] at hstarted ⊢
        exact hs.unstarted co hstarted
    | spawned hx hcreated hco =>
        rw [hco]
        rfl
    | resumed hlabel hco =>
        rw [hco, (Coroutine.switchTo_clear (hs.unstarted co)).1] at hstarted
        cases hstarted
    | waits hrunning hco =>
        rw [hco.same.2.2.1]
        exact (hs.unanswered co hrunning).2
    | given outcome hco hlive hunanswered =>
        rw [hco, (Coroutine.give_same _ _).1, (hs.unanswered co (by omega)).1] at hstarted
        cases hstarted
    | finished e hco hqueued hunanswered =>
        rw [hco]
        exact (hs.unanswered co (by omega)).2
  unanswered co := by
    intro hpositive
    have honce := hs.once_le co
    cases hstep.fate co with
    | stays n hco hlive hunanswered =>
        rw [hco]
        exact hs.unanswered co (by omega)
    | spawned hx hcreated hco hqueued hunanswered =>
        obtain ⟨hstarted, -⟩ := hs.unanswered co (by omega)
        have hborn := hs.once co
        rw [born, if_neg (by omega)] at hborn
        omega
    | resumed hlabel hco =>
        rw [hco]
        exact Coroutine.switchTo_clear (hs.unstarted co)
    | waits hrunning hco hqueued hunanswered =>
        rw [hco.same.1, hco.same.2.2.1]
        exact hs.unanswered co hrunning
    | given outcome hco hlive hunanswered => omega
    | finished e hco hqueued hunanswered => omega

theorem slots_fresh : Slots (State.fresh : State V) where
  once co := by
    simp only [State.queued, State.unanswered, State.fresh, Pc.current, born, List.count_cons,
      List.count_nil, List.map_nil, beq_iff_eq]
    by_cases hco : co = 0
    · simp [hco]
    · simp [hco, Ne.symm hco]
  slot _ _ := Coroutine.slot_create
  unstarted _ _ := rfl
  unanswered _ hpositive := absurd hpositive (Nat.lt_irrefl 0)

theorem slots_of_reachable {s : State V} (hs : system.Reachable s) : Slots s := by
  refine Transition.System.Reachable.invariant ?_ ?_ hs
  · rintro s rfl
    exact slots_fresh
  · intro s label s' _ hs hstep
    exact hstep.slots hs

/-! ### The log of the waits -/

/-- The log tells which coroutines were given an exception in an earlier wait. -/
structure Recorded (s : State V) (log : List (Wait V)) : Prop where
  created : ∀ wait ∈ log, wait.co < s.created
  faulted : ∀ co, (s.co co).faulted = true ↔ ∃ wait ∈ log, wait.co = co ∧ wait.Faulted

/-- A wait ends when its coroutine, waiting in a queue, is resumed with what its slot yields. -/
structure Resumes (s s' : State V) (co : Nat) (outcome : Option (Outcome V)) : Prop where
  outcome : outcome = (s.co co).switchTo.1
  slot : s'.co co = (s.co co).switchTo.2
  unfinished : (s.co co).finished = false
  queued : 0 < s.queued co

theorem Step.resume_spec {s s' : State V} {co : Nat} {outcome : Option (Outcome V)}
    (hstep : Step s (.resume co outcome) s') : Resumes s s' co outcome := by
  cases hstep with
  | resumeSpawned co rest hpc hspawned hco =>
      refine ⟨rfl, State.setCo_same _ _ _, hco.1, ?_⟩
      rw [State.queued, hspawned, List.count_cons_self]
      omega
  | resumeWoken co rest hpc hwoken hco | unwind co rest hpc hwoken hco =>
      refine ⟨rfl, State.setCo_same _ _ _, hco.1, ?_⟩
      rw [State.queued, hwoken, List.count_cons_self]
      omega

/-- A wait that returns found no exception. -/
theorem Coroutine.switchTo_ok {c : Coroutine V} {value : Content V}
    (houtcome : c.switchTo.1 = some (.ok value)) :
    c.started = true ∧ c.result.exception = none := by
  unfold Coroutine.switchTo at houtcome
  split at houtcome
  · next hstarted =>
      refine ⟨hstarted, ?_⟩
      have houtcome := Option.some.inj houtcome
      cases hexception : c.result.exception with
      | none => rfl
      | some e =>
          rw [Result.getValue_end hexception] at houtcome
          cases houtcome
  · cases houtcome

theorem mem_waits {s : State V} {label : Label V} {wait : Wait V} (hwait : wait ∈ waits s label) :
    label = .resume wait.co (some wait.outcome) ∧ wait.given = (s.co wait.co).given := by
  cases label with
  | tau | destructor | wait => exact absurd hwait List.not_mem_nil
  | resume co outcome =>
      cases outcome with
      | none => exact absurd hwait List.not_mem_nil
      | some outcome =>
          obtain rfl := List.mem_singleton.mp hwait
          exact ⟨rfl, rfl⟩

theorem waits_eq (s : State V) (label : Label V) :
    waits s label = [] ∨ ∃ wait, waits s label = [wait] := by
  cases label with
  | tau | destructor | wait => exact Or.inl rfl
  | resume co outcome =>
      cases outcome with
      | none => exact Or.inl rfl
      | some outcome => exact Or.inr ⟨_, rfl⟩

theorem Step.recorded {s s' : State V} {label : Label V} {log : List (Wait V)}
    (hstep : Step s label s') (hs : Slots s) (hlog : Recorded s log) :
    Recorded s' (log ++ waits s label) where
  created := by
    intro wait hwait
    refine lt_of_lt_of_le ?_ hstep.created_le
    obtain hwait | hwait := List.mem_append.mp hwait
    · exact hlog.created wait hwait
    · obtain ⟨rfl, -⟩ := mem_waits hwait
      exact hs.lt_created (Nat.add_pos_left hstep.resume_spec.queued _)
  faulted := by
    intro x
    by_cases hresume : ∃ outcome, label = .resume x outcome
    · obtain ⟨outcome, rfl⟩ := hresume
      obtain ⟨rfl, hco, -⟩ := hstep.resume_spec
      rw [hco]
      have hfaulted := hlog.faulted x
      by_cases hstarted : (s.co x).started = true
      · have hthrew := (s.co x).threw_iff
        simp only [Coroutine.switchTo, hstarted, if_true, Bool.or_eq_true, waits, List.mem_append,
          List.mem_singleton, or_and_right, exists_or, exists_eq_left, true_and]
        exact or_congr hfaulted hthrew
      · simpa [Coroutine.switchTo, hstarted, waits] using hfaulted
    · have hnone : ∀ wait ∈ waits s label, wait.co ≠ x := by
        rintro wait hwait rfl
        exact hresume ⟨_, (mem_waits hwait).1⟩
      have hsame : (∃ wait ∈ log ++ waits s label, wait.co = x ∧ wait.Faulted)
          ↔ ∃ wait ∈ log, wait.co = x ∧ wait.Faulted := by
        refine ⟨fun ⟨wait, hwait, hx, hfault⟩ => ⟨wait, ?_, hx, hfault⟩,
          fun ⟨wait, hwait, h⟩ => ⟨wait, List.mem_append_left _ hwait, h⟩⟩
        exact (List.mem_append.mp hwait).resolve_right fun hwait => hnone wait hwait hx
      rw [hsame, ← hlog.faulted x]
      cases hstep.fate x with
      | stays n hco => rw [hco]
      | spawned hx hcreated hco =>
          have hfresh : ¬ (s.co x).faulted = true := by
            rw [hlog.faulted x]
            rintro ⟨wait, hwait, rfl, -⟩
            exact absurd (hlog.created wait hwait) (by omega)
          rw [hco]
          exact ⟨nofun, fun hfaulted => absurd hfaulted hfresh⟩
      | resumed hlabel => exact absurd ⟨_, hlabel⟩ hresume
      | waits hrunning hco => rw [hco.same.2.2.2]
      | given outcome hco => rw [hco, (Coroutine.give_same _ _).2.2]
      | finished e hco => rw [hco]; rfl

theorem recorded_of_logs {s : State V} {log : List (Wait V)} (hlog : system.Logs waits s log) :
    Recorded s log := by
  induction hlog with
  | init hinit =>
      obtain rfl := hinit
      exact ⟨fun _ hwait => absurd hwait List.not_mem_nil,
        fun _ => ⟨nofun, fun ⟨_, hwait, _⟩ => absurd hwait List.not_mem_nil⟩⟩
  | step hlog hstep ih => exact hstep.recorded (slots_of_reachable hlog.reachable) ih

/-- The wait that ends in a step, given the log of those that are over. -/
theorem Step.outcome_iff {s s' : State V} {label : Label V} {log : List (Wait V)}
    (hstep : Step s label s') (hs : Slots s) (hlog : Recorded s log) {wait : Wait V}
    (hwait : wait ∈ waits s label) :
    wait.outcome = wait.own
      ↔ wait.Faulted ∨ ∀ earlier ∈ log, earlier.co = wait.co → ¬ earlier.Faulted := by
  obtain ⟨rfl, hgiven⟩ := mem_waits hwait
  obtain ⟨houtcome, -, hunfinished, -⟩ := hstep.resume_spec
  have houtcome : wait.outcome = (s.co wait.co).result.getValue.1 := by
    unfold Coroutine.switchTo at houtcome
    split at houtcome
    · exact Option.some.inj houtcome
    · cases houtcome
  have hclean : (s.co wait.co).faulted = false
      ↔ ∀ earlier ∈ log, earlier.co = wait.co → ¬ earlier.Faulted := by
    rw [← Bool.not_eq_true, hlog.faulted]
    simp only [not_exists, not_and]
  rw [houtcome, Wait.own, Wait.Faulted, hgiven, (hs.slot _ hunfinished).outcome_iff, hclean]

/-- **Each wait gets its own outcome**, in any run, if and only if it is given an exception itself or
no earlier wait of its coroutine was given one. -/
theorem own_outcome_iff {s : State V} {log before after : List (Wait V)} {wait : Wait V}
    (hlog : system.Logs waits s log) (hsplit : log = before ++ wait :: after) :
    wait.outcome = wait.own
      ↔ wait.Faulted ∨ ∀ earlier ∈ before, earlier.co = wait.co → ¬ earlier.Faulted := by
  induction hlog generalizing after with
  | init => simp at hsplit
  | @step s₁ s₂ log label hlog hstep ih =>
      obtain hnone | ⟨last, hlast⟩ := waits_eq s₁ label
      · rw [hnone, List.append_nil] at hsplit
        exact ih hsplit
      · rw [hlast] at hsplit
        obtain ⟨rfl, hwait, -⟩ | ⟨middle, hsplit, -⟩ := Transition.split_concat hsplit
        · refine hstep.outcome_iff (slots_of_reachable hlog.reachable) (recorded_of_logs hlog) ?_
          rw [hlast, hwait]
          exact List.mem_singleton_self wait
        · exact ih hsplit

/-- A coroutine blocks and is given a value, and blocks again and is given an exception. -/
theorem own_outcome_iff_answered :
    ∃ (s : State Nat) (first second : Wait Nat), system.Logs waits s [first, second]
      ∧ first.own = .ok (.value 3) ∧ first.outcome = first.own
      ∧ second.own = .error .abortedRequest ∧ second.outcome = second.own := by
  have hfresh : system.Logs waits (State.fresh : State Nat) [] := .init rfl
  have h1 := hfresh.step (Step.dispatch rfl)
  have h2 := h1.step (Step.enter rfl (Or.inl (List.cons_ne_nil _ _)))
  have h3 := h2.step (Step.resumeSpawned 0 [] rfl rfl ⟨rfl, rfl⟩)
  have h4 := h3.step (Step.block 0 .spawning 5 rfl)
  have h5 := h4.step (Step.spawningDone rfl rfl)
  have h6 := h5.step (Step.wakingDone rfl rfl (Or.inl rfl))
  have h7 := h6.step (Step.leave rfl (by decide))
  have h8 := h7.step (Step.dispatched rfl)
  have h9 := h8.step (Step.take ⟨9, -5, .value 3⟩ rfl)
  have h10 := h9.step (Step.dispatch rfl)
  have h11 := h10.step (Step.enter rfl (Or.inr (Or.inl (List.cons_ne_nil _ _))))
  have h12 := h11.step (Step.spawningDone rfl rfl)
  have h13 := h12.step (Step.resumeWoken 0 [] rfl rfl ⟨rfl, rfl⟩)
  have h14 := h13.step (Step.block 0 .waking 6 rfl)
  have h15 := h14.step (Step.wakingDone rfl rfl (Or.inl rfl))
  have h16 := h15.step (Step.leave rfl (by decide))
  have h17 := h16.step (Step.dispatched rfl)
  have h18 := h17.step (Step.take ⟨9, -6, .exception .abortedRequest⟩ rfl)
  have h19 := h18.step (Step.dispatch rfl)
  have h20 := h19.step (Step.enter rfl (Or.inr (Or.inl (List.cons_ne_nil _ _))))
  have h21 := h20.step (Step.spawningDone rfl rfl)
  have h22 := h21.step (Step.resumeWoken 0 [] rfl rfl ⟨rfl, rfl⟩)
  refine ⟨_, ⟨0, some (.ok (.value 3)), .ok (.value 3)⟩,
    ⟨0, some (.error .abortedRequest), .error .abortedRequest⟩, h22, rfl, ?_, rfl, ?_⟩
  · refine (own_outcome_iff h22 (rfl : _ = [] ++ _ :: [_])).mpr (Or.inr ?_)
    exact fun earlier hearlier => absurd hearlier List.not_mem_nil
  · exact (own_outcome_iff h22 (rfl : _ = [_] ++ _ :: [])).mpr (Or.inl ⟨_, rfl⟩)

/-- A coroutine catches the exception of a wait, spawns another coroutine and suspends itself. That
one wakes it, and it is thrown the exception again although nothing was stored for the wait. -/
theorem stale_exception_delivered :
    ∃ (s : State Nat) (first second : Wait Nat), system.Logs waits s [first, second]
      ∧ second.given = none ∧ second.outcome = .error .abortedRequest
      ∧ second.outcome ≠ second.own := by
  have hfresh : system.Logs waits (State.fresh : State Nat) [] := .init rfl
  have h1 := hfresh.step (Step.dispatch rfl)
  have h2 := h1.step (Step.enter rfl (Or.inl (List.cons_ne_nil _ _)))
  have h3 := h2.step (Step.resumeSpawned 0 [] rfl rfl ⟨rfl, rfl⟩)
  have h4 := h3.step (Step.block 0 .spawning 5 rfl)
  have h5 := h4.step (Step.spawningDone rfl rfl)
  have h6 := h5.step (Step.wakingDone rfl rfl (Or.inl rfl))
  have h7 := h6.step (Step.leave rfl (by decide))
  have h8 := h7.step (Step.dispatched rfl)
  have h9 := h8.step (Step.take ⟨9, -5, .exception .abortedRequest⟩ rfl)
  have h10 := h9.step (Step.dispatch rfl)
  have h11 := h10.step (Step.enter rfl (Or.inr (Or.inl (List.cons_ne_nil _ _))))
  have h12 := h11.step (Step.spawningDone rfl rfl)
  have h13 := h12.step (Step.resumeWoken 0 [] rfl rfl ⟨rfl, rfl⟩)
  have h14 := h13.step (Step.spawn 0 .waking rfl)
  have h15 := h14.step (Step.suspend 0 .waking rfl)
  have h16 := h15.step (Step.wakingDone rfl rfl (Or.inl rfl))
  have h17 := h16.step (Step.enter rfl (Or.inl (List.cons_ne_nil _ _)))
  have h18 := h17.step (Step.resumeSpawned 1 [] rfl rfl ⟨rfl, rfl⟩)
  have h19 := h18.step (Step.wakeup 1 0 .spawning rfl)
  have h20 := h19.step (Step.finish 1 .spawning .coroutineExit rfl)
  have h21 := h20.step (Step.spawningDone rfl rfl)
  have h22 := h21.step (Step.resumeWoken 0 [] rfl rfl ⟨rfl, rfl⟩)
  exact ⟨_, ⟨0, some (.error .abortedRequest), .error .abortedRequest⟩,
    ⟨0, none, .error .abortedRequest⟩, h22, rfl, rfl, nofun⟩

end Stp.Coroutines
