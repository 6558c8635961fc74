import Stp.Pairing.Pairs

/-!
# One place for each request

A request or a yield that has not returned is at one place and there once: in the mailbox or the inbox
of its target, on record there, in the mailbox of the process that waits as a response, or with its
coroutine. Of a session that no coroutine has there is nothing anywhere, so a coroutine that is given
it next meets no request and no response of an earlier one.
-/

namespace Stp.Pairing

open Process
open Server (Key key requests)

variable {P V : Type*} [DecidableEq P] {s : State P V}

inductive Place (P : Type*) where
  | mailbox (target : P)
  | inbox (target : P)
  /-- With a handler, or dropped for want of one. -/
  | record (target : P)
  /-- Answered, and the response has not been taken. -/
  | reply
  | woken (co : Nat)
deriving DecidableEq

def Fate.place : Fate P V → Option (Place P)
  | .idle | .lost => none
  | .pushed _ target => some (.mailbox target)
  | .received _ target => some (.inbox target)
  | .served _ target _ => some (.record target)
  | .answered _ _ => some .reply
  | .woken co _ => some (.woken co)

/-- How often the request or the yield of the process that has the session is there. -/
def State.copies (s : State P V) (p : P) (session : SessionT) : Place P → Nat
  | .mailbox target => (requests (s.proc target).mailbox.messages).count ((s.proc p).pid, session)
  | .inbox target => ((s.proc target).machine.inbox.map key).count ((s.proc p).pid, session)
  | .record target =>
    if ((s.proc p).pid, session) ∈ (s.proc target).records
      ∧ ((s.proc p).pid, session) ∉ (s.proc target).machine.inbox.map key then 1 else 0
  | .reply => (responses session (s.proc p).mailbox.messages).length
  | .woken co =>
    if (s.proc p).request co = .waiting session
      ∧ (session, co) ∉ (s.proc p).machine.blockSessions then 1 else 0

omit [DecidableEq P] in
theorem Fate.place_none (fate : Fate P V) : fate.place = none ↔ fate.ask.co = none := by
  cases fate <;> simp [Fate.place, Fate.ask, Ask.co]

theorem Fate.spot_place (fate : Fate P V) (q : P) :
    (fate.spot q = .mailbox ↔ fate.place = some (.mailbox q))
      ∧ (fate.spot q = .inbox ↔ fate.place = some (.inbox q))
      ∧ ((fate.spot q).Recorded ∧ fate.spot q ≠ .inbox ↔ fate.place = some (.record q)) := by
  cases fate with
  | pushed co target | received co target | served co target call =>
      by_cases hsame : target = q <;> simp [Fate.spot, Fate.place, Spot.Recorded, hsame]
  | idle | answered | woken | lost => simp [Fate.spot, Fate.place, Spot.Recorded]

/-- A coroutine that has been woken is blocked no more. -/
theorem Waits.not_blocked {machine : Coroutines.State V} {request : Nat → Request}
    (hs : Waits machine request) {co : Nat} (hgiven : (machine.co co).given ≠ none)
    (session : SessionT) : (session, co) ∉ machine.blockSessions := by
  intro hmem
  refine hgiven (hs.slots.unanswered co ?_).2
  have hcount : 0 < (machine.blockSessions.map Prod.snd).count co :=
    List.count_pos_iff.mpr (List.mem_map_of_mem (f := Prod.snd) hmem)
  rw [Coroutines.State.unanswered]
  omega

omit [DecidableEq P] in
theorem Asks.woken {c : Proc V} {session : SessionT} {fate : Fate P V}
    (hc : Asks c session fate.ask) (hs : Waits c.machine c.request) (co : Nat) :
    c.request co = .waiting session ∧ (session, co) ∉ c.machine.blockSessions
      ↔ fate.place = some (.woken co) := by
  have hasker := hc.asker co
  have hwaits := hc.waits
  cases fate with
  | idle | lost =>
      refine ⟨fun h => ?_, nofun⟩
      exact absurd (hasker.mp (Or.inr h.1)) nofun
  | pushed x target | received x target | served x target call | answered x content =>
      refine ⟨fun h => ?_, nofun⟩
      cases hasker.mp (Or.inr h.1)
      exact absurd (hwaits h.1) h.2
  | woken x content =>
      refine ⟨fun h => ?_, fun h => ?_⟩
      · cases hasker.mp (Or.inr h.1)
        rfl
      · cases h
        refine ⟨hwaits.1, hs.not_blocked ?_ session⟩
        rw [hwaits.2]
        exact Option.some_ne_none _

/-- A request is at the place that its log says, and there once. -/
theorem Placed.copies {p : P} {session : SessionT} {fate : Fate P V}
    (hplaced : Placed s ((s.proc p).pid, session) fate) (hup : (s.proc p).Up)
    (hs : Waits (s.proc p).machine (s.proc p).request) (place : Place P) :
    s.copies p session place = if fate.place = some place then 1 else 0 := by
  have hasks := hplaced.asks p hup rfl
  cases place with
  | mailbox q =>
      change (requests (s.proc q).mailbox.messages).count _ = _
      rw [(hplaced.serves q).mailbox]
      exact if_congr (fate.spot_place q).1 rfl rfl
  | inbox q =>
      change ((s.proc q).machine.inbox.map key).count _ = _
      rw [(hplaced.serves q).inbox]
      exact if_congr (fate.spot_place q).2.1 rfl rfl
  | record q =>
      have hinbox := (hplaced.serves q).inbox
      have hmem : ((s.proc p).pid, session) ∈ (s.proc q).machine.inbox.map key
          ↔ fate.spot q = .inbox := by
        rw [← List.count_pos_iff, hinbox]
        split <;> simp_all
      refine if_congr ?_ rfl rfl
      rw [(hplaced.serves q).records, hmem]
      exact (fate.spot_place q).2.2
  | reply =>
      change (responses session (s.proc p).mailbox.messages).length = _
      rw [hasks.mail]
      cases fate <;> rfl
  | woken co => exact if_congr (hasks.woken hs co) rfl rfl

/-- **Each request has one place**, in every state of every run that keeps to `Label.Orderly`. -/
theorem requests_have_one_place {log : List (Label P V)} (hlog : orderly.Logs observe s log) {p : P}
    (hup : (s.proc p).Up) {session : SessionT} (hzero : session ≠ 0) :
    ((∃ co, (s.proc p).request co = .pushed session ∨ (s.proc p).request co = .waiting session) →
      ∃ place, s.copies p session place = 1
        ∧ ∀ other, other ≠ place → s.copies p session other = 0)
      ∧ ((∀ co, (s.proc p).request co ≠ .pushed session
          ∧ (s.proc p).request co ≠ .waiting session) →
        ∀ place, s.copies p session place = 0) := by
  have hs := paired_of_logs hlog
  have hplaced := hs.placed ((s.proc p).pid, session) hzero nofun ⟨p, hup, rfl⟩
  have hcopies := hplaced.copies hup (hs.sound p).waits
  have hasker := (hplaced.asks p hup rfl).asker
  refine ⟨fun hasked => ?_, fun hnone place => ?_⟩
  · obtain ⟨co, hco⟩ := hasked
    have hsome : (fate ((s.proc p).pid, session) log).place ≠ none := by
      rw [ne_eq, Fate.place_none, (hasker co).mp hco]
      exact Option.some_ne_none co
    obtain ⟨place, hplace⟩ := Option.ne_none_iff_exists'.mp hsome
    refine ⟨place, ?_, fun other hother => ?_⟩
    · rw [hcopies, if_pos hplace]
    · rw [hcopies, if_neg]
      rw [hplace]
      exact fun hsame => hother (Option.some.inj hsame).symm
  · rw [hcopies, if_neg]
    rw [(Fate.place_none _).mpr]
    · exact nofun
    · by_contra hsome
      obtain ⟨co, hco⟩ := Option.ne_none_iff_exists'.mp hsome
      exact ((hasker co).mpr hco).elim (hnone co).1 (hnone co).2

/-- A coroutine has pushed a request, which is in the mailbox of its target. -/
theorem requests_have_one_place_pushed : ∃ (s : State Bool Nat) (log : List (Label Bool Nat)),
    orderly.Logs observe s log ∧ s.copies false 5 (.mailbox true) = 1
      ∧ (∃ place, s.copies false 5 place = 1
        ∧ ∀ other, other ≠ place → s.copies false 5 other = 0)
      ∧ ∀ place, s.copies false 6 place = 0 := by
  have h0 : orderly.Logs observe (State.fresh : State Bool Nat) [] := .init rfl
  have h1 := h0.step ⟨Step.create false 1 rfl, forgotten_fresh 1⟩
  have h2 := h1.step ⟨Step.create true 2 rfl, (forgotten_fresh 2).create false (by decide)⟩
  have h3 := h2.step ⟨Step.loop false _ _ ⟨rfl, rfl⟩ (.dispatch rfl) rfl nofun nofun, trivial⟩
  have h4 := h3.step ⟨Step.loop false _ _ ⟨rfl, rfl⟩
    (.enter rfl (Or.inl (List.cons_ne_nil _ _))) rfl nofun nofun, trivial⟩
  have h5 := h4.step ⟨Step.loop false _ _ ⟨rfl, rfl⟩ (.resumeSpawned 0 [] rfl rfl ⟨rfl, rfl⟩) rfl
    nofun fun _ _ _ => rfl, trivial⟩
  have h6 := h5.step ⟨Step.request false true 0 .spawning 5 (.value 7) _ ⟨⟨rfl, rfl⟩, rfl, rfl⟩
    trivial (Finset.notMem_empty _) rfl, by decide, by decide⟩
  refine ⟨_, _, h6, rfl, ?_, ?_⟩
  · exact (requests_have_one_place h6 ⟨rfl, id⟩ (by decide)).1 ⟨0, Or.inl rfl⟩
  · refine (requests_have_one_place h6 ⟨rfl, id⟩ (by decide)).2 fun co => ?_
    cases co with
    | zero => exact ⟨by decide, by decide⟩
    | succ co => exact ⟨nofun, nofun⟩

end Stp.Pairing
