import Mathlib.Logic.Relation

/-!
# Transition systems

A concurrent program is a set of states, some of them initial, and a step relation that is the
union of the atomic steps of all its threads, so a run is any interleaving. A property holds of
every reachable state once it holds initially and each step keeps it; what is already known of all
reachable states may be used on the way. A system restricted to steps that meet a condition has
fewer runs. Where a property is about what happened on the way, each step adds to a log; what an
entry of a log made stands until another one cancels it.
-/

namespace Transition

structure System (S L : Type*) where
  init : S → Prop
  step : S → L → S → Prop

variable {S L : Type*} (system : System S L)

/-- The states after some run from `s`. -/
def System.Leads : S → S → Prop := Relation.ReflTransGen fun s s' => ∃ label, system.step s label s'

def System.Reachable (s : S) : Prop := ∃ s₀, system.init s₀ ∧ system.Leads s₀ s

/-- The system whose runs take only the steps that meet the condition. -/
def System.restrict (condition : S → L → Prop) : System S L where
  init := system.init
  step s label s' := system.step s label s' ∧ condition s label

/-- The runs, each with what was observed in its steps. -/
inductive System.Logs {O : Type*} (observe : S → L → List O) : S → List O → Prop
  | init {s : S} (hinit : system.init s) : System.Logs observe s []
  | step {s s' : S} {log : List O} {label : L} (hlog : System.Logs observe s log)
      (hstep : system.step s label s') : System.Logs observe s' (log ++ observe s label)

variable {system}

theorem System.Reachable.of_init {s : S} (hinit : system.init s) : system.Reachable s :=
  ⟨s, hinit, Relation.ReflTransGen.refl⟩

theorem System.Reachable.leads {s s' : S} (hs : system.Reachable s) (hleads : system.Leads s s') :
    system.Reachable s' :=
  let ⟨s₀, hinit, hs₀⟩ := hs
  ⟨s₀, hinit, hs₀.trans hleads⟩

theorem System.Reachable.step {s s' : S} {label : L} (hs : system.Reachable s)
    (hstep : system.step s label s') : system.Reachable s' :=
  hs.leads (Relation.ReflTransGen.single ⟨label, hstep⟩)

/-- A step of a system whose steps have no labels. -/
theorem System.Reachable.unlabelled {system : System S Unit} {s s' : S} (hs : system.Reachable s)
    (hstep : system.step s () s') : system.Reachable s' :=
  hs.step hstep

theorem System.Logs.reachable {O : Type*} {observe : S → L → List O} {s : S} {log : List O}
    (hlog : system.Logs observe s log) : system.Reachable s := by
  induction hlog with
  | init hinit => exact .of_init hinit
  | step _ hstep ih => exact ih.step hstep

/-- What every step keeps, every run keeps. -/
theorem System.Leads.keeps {P : S → Prop}
    (hkeep : ∀ s label s', P s → system.step s label s' → P s')
    {s s' : S} (hleads : system.Leads s s') (hs : P s) : P s' := by
  induction hleads with
  | refl => exact hs
  | tail _ hstep ih =>
      obtain ⟨label, hstep⟩ := hstep
      exact hkeep _ label _ ih hstep

/-- **The invariant rule.** What holds initially and survives each step from a reachable state
holds of every reachable state. -/
theorem System.Reachable.invariant {P : S → Prop} (hinit : ∀ s, system.init s → P s)
    (hkeep : ∀ s label s', system.Reachable s → P s → system.step s label s' → P s') {s : S}
    (hs : system.Reachable s) : P s := by
  obtain ⟨s₀, hs₀, hleads⟩ := hs
  refine (System.Leads.keeps (P := fun s => system.Reachable s ∧ P s) ?_ hleads
    ⟨.of_init hs₀, hinit s₀ hs₀⟩).2
  intro s label s' ⟨hreach, hs⟩ hstep
  exact ⟨hreach.step hstep, hkeep s label s' hreach hs hstep⟩

/-- Where an entry of a log stands once another one has been added: at its end, or where it was. -/
theorem split_concat {O : Type*} {log before after : List O} {entry last : O}
    (hsplit : log ++ [last] = before ++ entry :: after) :
    (log = before ∧ last = entry ∧ after = [])
      ∨ ∃ middle, log = before ++ entry :: middle ∧ after = middle ++ [last] := by
  obtain rfl | ⟨middle, last', rfl⟩ := List.eq_nil_or_concat after
  · obtain ⟨rfl, hlast⟩ := List.append_inj' hsplit rfl
    exact Or.inl ⟨rfl, List.singleton_inj.mp hlast, rfl⟩
  · rw [List.concat_eq_append, ← List.cons_append, ← List.append_assoc] at hsplit
    obtain ⟨rfl, hlast⟩ := List.append_inj' hsplit rfl
    exact Or.inr ⟨middle, rfl, by rw [List.concat_eq_append, List.singleton_inj.mp hlast]⟩

/-- An entry made it, and no later entry has cancelled it. -/
def Standing {O : Type*} (makes cancels : O → Prop) (log : List O) : Prop :=
  ∃ before entry after, log = before ++ entry :: after ∧ makes entry ∧ ∀ o ∈ after, ¬cancels o

theorem standing_concat {O : Type*} {makes cancels : O → Prop} {log : List O} {last : O} :
    Standing makes cancels (log ++ [last])
      ↔ makes last ∨ (Standing makes cancels log ∧ ¬cancels last) := by
  constructor
  · rintro ⟨before, entry, after, hsplit, hmakes, hafter⟩
    obtain ⟨rfl, rfl, rfl⟩ | ⟨middle, rfl, rfl⟩ := split_concat hsplit
    · exact Or.inl hmakes
    · refine Or.inr ⟨⟨before, entry, middle, rfl, hmakes, fun o ho => ?_⟩, ?_⟩
      · exact hafter o (List.mem_append_left _ ho)
      · exact hafter last (List.mem_append_right _ List.mem_cons_self)
  · rintro (hmakes | ⟨⟨before, entry, after, rfl, hmakes, hafter⟩, hlast⟩)
    · exact ⟨log, last, [], rfl, hmakes, fun o ho => absurd ho List.not_mem_nil⟩
    · refine ⟨before, entry, after ++ [last], by simp, hmakes, fun o ho => ?_⟩
      obtain ho | ho := List.mem_append.mp ho
      · exact hafter o ho
      · rw [List.mem_singleton.mp ho]
        exact hlast

/-- Each entry of a log is allowed by those before it. -/
def Allows {O : Type*} (allowed : List O → O → Prop) (log : List O) : Prop :=
  ∀ before entry after, log = before ++ entry :: after → allowed before entry

theorem Allows.nil {O : Type*} {allowed : List O → O → Prop} : Allows allowed [] :=
  fun _ _ _ h => absurd h.symm (List.append_ne_nil_of_right_ne_nil _ (List.cons_ne_nil _ _))

theorem Allows.concat {O : Type*} {allowed : List O → O → Prop} {log : List O} {last : O}
    (h : Allows allowed log) (hlast : allowed log last) : Allows allowed (log ++ [last]) := by
  intro before entry after hsplit
  obtain ⟨rfl, rfl, -⟩ | ⟨middle, rfl, -⟩ := split_concat hsplit
  · exact hlast
  · exact h before entry middle rfl

end Transition
