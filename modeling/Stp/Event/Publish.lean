import Stp.Library.Transition
import Stp.Library.Walk

/-!
# Events

A process has a table of subscribers for each event name. `publish` iterates over the table of a
name, and calls each subscriber. A subscriber may subscribe, unsubscribe and publish before it
returns, or suspend its coroutine while others do so, so between the call and the return of a
subscriber come any steps; it may also leave `publish` with an exception.

A table is a `std::unordered_map`. When an entry is inserted and there are more entries than buckets
then, the table is rehashed, which may change their order. Otherwise the new entry goes anywhere
between the others. An iterator is valid until its entry is erased or its table is rehashed.
-/

namespace Stp.Event

/-- An entry of a table, in a node of its own. -/
structure Entry (A F : Type*) where
  node : Nat
  ident : A
  f : F

structure Table (A F : Type*) where
  entries : List (Entry A F)
  bucketCount : Nat
  /-- How often the table was rehashed. -/
  rehashes : Nat

inductive Status where
  /-- The subscriber that the iterator refers to is called. -/
  | calling
  /-- `publish` has returned or was left. -/
  | over
  /-- An iterator was used that is not valid. -/
  | invalid
deriving DecidableEq, Repr

/-- A call of `publish`: its event name, and its iterator. -/
structure Publish (A : Type*) where
  name : A
  node : Nat
  rehashes : Nat
  status : Status

structure State (A F P : Type*) where
  /-- `Subscribers`. -/
  subscribers : A → Option (Table A F)
  publishes : P → Option (Publish A)
  /-- The next node. -/
  nodes : Nat

def State.initial {A F P : Type*} : State A F P where
  subscribers := fun _ => none
  publishes := fun _ => none
  nodes := 0

inductive Label (A F P : Type*) where
  | subscribe (name ident : A) (f : F)
  | unsubscribe (name ident : A)
  | publish (p : P) (name : A)
  /-- The subscriber that is called returns. -/
  | ret (p : P)
  /-- The subscriber that is called throws. -/
  | throw (p : P)

/-- What happens to the subscriptions, and the calls of subscribers. -/
inductive Observed (A F P : Type*) where
  | subscribed (name ident : A) (f : F)
  | unsubscribed (name ident : A)
  | began (p : P) (name : A)
  | called (p : P) (name ident : A) (f : F)
  | finished (p : P) (name : A)

variable {A F P : Type*} [DecidableEq A] [DecidableEq P]

/-- A table that is new, with the number of buckets that the library gives it. -/
def Table.empty (bucketCount : Nat) : Table A F where
  entries := []
  bucketCount := bucketCount
  rehashes := 0

def Table.HasIdent (t : Table A F) (ident : A) : Prop := ∃ e ∈ t.entries, e.ident = ident

/-- A new subscriber, if the entry is the one of an ident. -/
def Entry.assign (ident : A) (f : F) (e : Entry A F) : Entry A F :=
  if e.ident = ident then { e with f := f } else e

/-- `(*this)[ident] = std::move(f)`, with a node for a new entry. -/
inductive Table.Assign (t : Table A F) (ident : A) (f : F) (node : Nat) : Table A F → Prop
  | assigned (hident : t.HasIdent ident) :
      Table.Assign t ident f node
        { t with entries := t.entries.map (Entry.assign ident f) }
  | inserted {before after : List (Entry A F)} (hident : ¬t.HasIdent ident)
      (hroom : t.entries.length + 1 ≤ t.bucketCount) (hentries : t.entries = before ++ after) :
      Table.Assign t ident f node { t with entries := before ++ ⟨node, ident, f⟩ :: after }
  | rehashed {entries : List (Entry A F)} {bucketCount : Nat} (hident : ¬t.HasIdent ident)
      (hfull : t.bucketCount < t.entries.length + 1)
      (hentries : entries.Perm (⟨node, ident, f⟩ :: t.entries))
      (hbuckets : entries.length ≤ bucketCount) :
      Table.Assign t ident f node ⟨entries, bucketCount, t.rehashes + 1⟩

def Table.erase (t : Table A F) (ident : A) : Table A F :=
  { t with entries := t.entries.filter fun e => e.ident ≠ ident }

/-- `++it`. -/
def Table.next (t : Table A F) (node : Nat) : Option (Entry A F) :=
  Walk.next Entry.node t.entries node

/-- An iterator of the table is valid. -/
def Table.Valid (t : Table A F) (node rehashes : Nat) : Prop :=
  (∃ e ∈ t.entries, e.node = node) ∧ rehashes = t.rehashes

instance (t : Table A F) (node rehashes : Nat) : Decidable (t.Valid node rehashes) :=
  inferInstanceAs (Decidable (_ ∧ _))

section

variable (bucketCount : Nat)

/-- `m->Subscribers[name]`. -/
def State.table (s : State A F P) (name : A) : Table A F :=
  (s.subscribers name).getD (.empty bucketCount)

def State.setTable (s : State A F P) (name : A) (t : Table A F) : State A F P :=
  { s with subscribers := Function.update s.subscribers name (some t), nodes := s.nodes + 1 }

def State.setPublish (s : State A F P) (p : P) (publish : Publish A) : State A F P :=
  { s with publishes := Function.update s.publishes p (some publish) }

def State.unsubscribe (s : State A F P) (name ident : A) : State A F P :=
  s.setTable name ((s.table bucketCount name).erase ident)

/-- The loop of `publish` ends, or goes on with an entry. -/
def State.loop (s : State A F P) (p : P) (name : A) (rehashes : Nat) :
    Option (Entry A F) → State A F P
  | none => s.setPublish p ⟨name, 0, rehashes, .over⟩
  | some e => s.setPublish p ⟨name, e.node, rehashes, .calling⟩

def loopObserved (p : P) (name : A) : Option (Entry A F) → Observed A F P
  | none => .finished p name
  | some e => .called p name e.ident e.f

/-- The first entry that `publish` gets to, if any. -/
def State.first (s : State A F P) (name : A) : Option (Entry A F) :=
  match s.subscribers name with
  | none => none
  | some t => t.entries.head?

inductive State.Step (s : State A F P) : Label A F P → State A F P → Prop
  | subscribe {name ident : A} {f : F} {t : Table A F}
      (hassign : (s.table bucketCount name).Assign ident f s.nodes t) :
      State.Step s (.subscribe name ident f) (s.setTable name t)
  | unsubscribe {name ident : A} :
      State.Step s (.unsubscribe name ident) (s.unsubscribe bucketCount name ident)
  | publish {p : P} {name : A} (hfree : s.publishes p = none) :
      State.Step s (.publish p name)
        (s.loop p name (s.table bucketCount name).rehashes (s.first name))
  | ret {p : P} {it : Publish A} (hpublish : s.publishes p = some it) (hcalling : it.status = .calling)
      (hvalid : (s.table bucketCount it.name).Valid it.node it.rehashes) :
      State.Step s (.ret p)
        (s.loop p it.name it.rehashes ((s.table bucketCount it.name).next it.node))
  | invalid {p : P} {it : Publish A} (hpublish : s.publishes p = some it)
      (hcalling : it.status = .calling)
      (hvalid : ¬(s.table bucketCount it.name).Valid it.node it.rehashes) :
      State.Step s (.ret p) (s.setPublish p { it with status := .invalid })
  | throw {p : P} {it : Publish A} (hpublish : s.publishes p = some it)
      (hcalling : it.status = .calling) :
      State.Step s (.throw p) (s.setPublish p { it with status := .over })

def system : Transition.System (State A F P) (Label A F P) where
  init s := s = .initial
  step := State.Step bucketCount

def State.observed (s : State A F P) : Label A F P → List (Observed A F P)
  | .subscribe name ident f => [.subscribed name ident f]
  | .unsubscribe name ident => [.unsubscribed name ident]
  | .publish p name => [.began p name, loopObserved p name (s.first name)]
  | .ret p =>
      match s.publishes p with
      | none => []
      | some it =>
          let t := s.table bucketCount it.name
          if t.Valid it.node it.rehashes then [loopObserved p it.name (t.next it.node)] else []
  | .throw _ => []

/-- No subscriber is unsubscribed while it is called, and no table is rehashed while one of its
subscribers is called. -/
def State.Respects (s : State A F P) : Label A F P → Prop
  | .subscribe name ident _ =>
      (∃ p it, s.publishes p = some it ∧ it.status = .calling ∧ it.name = name) →
        (s.table bucketCount name).HasIdent ident
          ∨ (s.table bucketCount name).entries.length + 1 ≤ (s.table bucketCount name).bucketCount
  | .unsubscribe name ident =>
      ∀ p it, s.publishes p = some it → it.status = .calling → it.name = name →
        ∀ e ∈ (s.table bucketCount name).entries, e.node = it.node → e.ident ≠ ident
  | _ => True

end

/-! ### What a history says -/

/-- The subscriber that `subscribe` has set, and that was neither replaced nor unsubscribed. -/
def Registered (name ident : A) (f : F) : List (Observed A F P) → Prop :=
  Transition.Standing (· = .subscribed name ident f)
    fun o => o = .unsubscribed name ident ∨ ∃ f, o = .subscribed name ident f

/-- A call of a subscriber that was not unsubscribed since. -/
def Called (p : P) (name ident : A) : List (Observed A F P) → Prop :=
  Transition.Standing (fun o => ∃ f, o = .called p name ident f) (· = .unsubscribed name ident)

def Settled (p : P) (name ident : A) (log : List (Observed A F P)) : Prop :=
  (∃ f, .called p name ident f ∈ log) ∨ .unsubscribed name ident ∈ log

/-- What may happen after some history. -/
def Allowed (log : List (Observed A F P)) : Observed A F P → Prop
  | .called p name ident f => Registered name ident f log ∧ ¬Called p name ident log
  | .finished p name => ∀ earlier later, log = earlier ++ .began p name :: later →
      ∀ ident f, Registered name ident f earlier → Settled p name ident later
  | _ => True

/-- What a call of `publish` does. -/
def Observed.By (p : P) : Observed A F P → Prop
  | .began p' _ | .called p' _ _ _ | .finished p' _ => p' = p
  | _ => False

section

variable {p p' : P} {name name' ident ident' : A} {f f' : F} {log : List (Observed A F P)}
  {o : Observed A F P}

omit [DecidableEq P] in
theorem registered_subscribed : Registered name ident f (log ++ [.subscribed name' ident' f'])
    ↔ if name = name' ∧ ident = ident' then f = f' else Registered name ident f log := by
  rw [Registered, Transition.standing_concat]
  split_ifs with heq
  · obtain ⟨rfl, rfl⟩ := heq
    simp [eq_comm]
  · simp only [Observed.subscribed.injEq, false_or]
    simp only [eq_comm (a := name'), eq_comm (a := ident'), exists_and_left]
    tauto

omit [DecidableEq A] [DecidableEq P] in
theorem registered_unsubscribed : Registered name ident f (log ++ [.unsubscribed name' ident'])
    ↔ ¬(name = name' ∧ ident = ident') ∧ Registered name ident f log := by
  rw [Registered, Transition.standing_concat]
  simp only [Observed.unsubscribed.injEq, reduceCtorEq, false_or, exists_false, or_false]
  rw [eq_comm (a := name'), eq_comm (a := ident'), and_comm]

omit [DecidableEq A] [DecidableEq P] in
theorem registered_by (hby : o.By p) :
    Registered name ident f (log ++ [o]) ↔ Registered name ident f log := by
  rw [Registered, Transition.standing_concat]
  cases o <;> simp_all [Observed.By]

omit [DecidableEq A] [DecidableEq P] in
theorem Called.of_concat (hcalled : Called p name ident (log ++ [o]))
    (hnew : ∀ f, o ≠ .called p name ident f) :
    Called p name ident log ∧ o ≠ .unsubscribed name ident := by
  obtain ⟨f, rfl⟩ | h := Transition.standing_concat.mp hcalled
  · exact absurd rfl (hnew f)
  · exact h

omit [DecidableEq A] [DecidableEq P] in
theorem Observed.By.unique (hby : o.By p) (hne : p' ≠ p) : ¬o.By p' := by
  intro hby'
  cases o with
  | began | called | finished => exact hne (hby'.symm.trans hby)
  | subscribed | unsubscribed => exact hby

omit [DecidableEq A] [DecidableEq P] in
theorem Settled.concat (hsettled : Settled p name ident log) : Settled p name ident (log ++ [o]) :=
  hsettled.imp (fun ⟨f, hf⟩ => ⟨f, List.mem_append_left _ hf⟩) (List.mem_append_left _)

end

/-! ### Tables -/

/-- A table has a subscriber. -/
def Table.Maps (t : Table A F) (ident : A) (f : F) : Prop :=
  ∃ e ∈ t.entries, e.ident = ident ∧ e.f = f

structure Table.Sound (t : Table A F) (bound : Nat) : Prop where
  idents : (t.entries.map Entry.ident).Nodup
  nodes : (t.entries.map Entry.node).Nodup
  fresh : ∀ e ∈ t.entries, e.node < bound

section

omit [DecidableEq P]

variable {t t' : Table A F} {ident ident' : A} {f f' : F} {node nodes : Nat}

@[simp] theorem Entry.assign_ident (e : Entry A F) : (e.assign ident f).ident = e.ident := by
  rw [Entry.assign, apply_ite Entry.ident, ite_self]

@[simp] theorem Entry.assign_node (e : Entry A F) : (e.assign ident f).node = e.node := by
  rw [Entry.assign, apply_ite Entry.node, ite_self]

theorem Entry.assign_f (e : Entry A F) :
    (e.assign ident f).f = if e.ident = ident then f else e.f := by
  rw [Entry.assign, apply_ite Entry.f]

theorem Table.Assign.perm (h : t.Assign ident f node t') (hident : ¬t.HasIdent ident) :
    t'.entries.Perm (⟨node, ident, f⟩ :: t.entries) := by
  cases h with
  | assigned h => exact absurd h hident
  | inserted _ _ hentries => exact hentries ▸ List.perm_middle
  | rehashed _ _ hentries _ => exact hentries

theorem Table.Assign.maps (h : t.Assign ident f node t') :
    t'.Maps ident' f' ↔ if ident' = ident then f' = f else t.Maps ident' f' := by
  by_cases hident : t.HasIdent ident
  · cases h with
    | assigned _ =>
        have hmaps : Table.Maps { t with entries := t.entries.map (Entry.assign ident f) } ident' f'
            ↔ ∃ e ∈ t.entries, e.ident = ident' ∧ (if e.ident = ident then f else e.f) = f' := by
          simp [Table.Maps, Entry.assign_f]
        rw [hmaps]
        split_ifs with heq
        · subst heq
          constructor
          · rintro ⟨e, -, he, rfl⟩
            exact if_pos he
          · rintro rfl
            obtain ⟨e, he, hident⟩ := hident
            exact ⟨e, he, hident, if_pos hident⟩
        · refine exists_congr fun e => and_congr_right fun _ => and_congr_right fun he => ?_
          rw [if_neg fun hident => heq (he.symm.trans hident)]
    | inserted h => exact absurd hident h
    | rehashed h => exact absurd hident h
  · have hmem (e : Entry A F) := (h.perm hident).mem_iff (a := e)
    simp only [Table.Maps, hmem, List.mem_cons, exists_eq_or_imp]
    split_ifs with heq
    · subst heq
      have hnot : ¬∃ e ∈ t.entries, e.ident = ident' ∧ e.f = f' :=
        fun ⟨e, he, hid, _⟩ => hident ⟨e, he, hid⟩
      rw [or_iff_left hnot, and_iff_right rfl, eq_comm]
    · exact or_iff_right fun h => heq h.1.symm

theorem Table.erase_maps : (t.erase ident).Maps ident' f' ↔ ident' ≠ ident ∧ t.Maps ident' f' := by
  simp only [Table.Maps, Table.erase, List.mem_filter, decide_eq_true_iff]
  constructor
  · rintro ⟨e, ⟨he, hne⟩, rfl, rfl⟩
    exact ⟨hne, e, he, rfl, rfl⟩
  · rintro ⟨hne, e, he, rfl, rfl⟩
    exact ⟨e, ⟨he, hne⟩, rfl, rfl⟩

omit [DecidableEq A] in
theorem Table.Sound.mono {bound bound' : Nat} (ht : t.Sound bound) (hle : bound ≤ bound') :
    t.Sound bound' :=
  ⟨ht.idents, ht.nodes, fun e he => Nat.lt_of_lt_of_le (ht.fresh e he) hle⟩

theorem Table.Sound.assign {bound : Nat} (ht : t.Sound bound) (h : t.Assign ident f bound t') :
    t'.Sound (bound + 1) := by
  by_cases hident : t.HasIdent ident
  · cases h with
    | assigned _ =>
        refine ⟨?_, ?_, fun e' he' => ?_⟩
        · simpa [Function.comp_def] using ht.idents
        · simpa [Function.comp_def] using ht.nodes
        · obtain ⟨e, he, rfl⟩ := List.mem_map.mp he'
          rw [Entry.assign_node]
          exact Nat.lt_succ_of_lt (ht.fresh e he)
    | inserted h => exact absurd hident h
    | rehashed h => exact absurd hident h
  · have hperm := h.perm hident
    refine ⟨?_, ?_, fun e he => ?_⟩
    · rw [(hperm.map Entry.ident).nodup_iff, List.map_cons, List.nodup_cons]
      refine ⟨fun hmem => hident ?_, ht.idents⟩
      obtain ⟨e, he, heq⟩ := List.mem_map.mp hmem
      exact ⟨e, he, heq⟩
    · rw [(hperm.map Entry.node).nodup_iff, List.map_cons, List.nodup_cons]
      refine ⟨fun hmem => ?_, ht.nodes⟩
      obtain ⟨e, he, heq⟩ := List.mem_map.mp hmem
      exact Nat.ne_of_lt (ht.fresh e he) heq
    · obtain rfl | he := List.mem_cons.mp (hperm.mem_iff.mp he)
      · exact Nat.lt_succ_self bound
      · exact Nat.lt_succ_of_lt (ht.fresh e he)

theorem Table.Sound.erase {bound : Nat} (ht : t.Sound bound) : (t.erase ident).Sound bound :=
  ⟨ht.idents.sublist (List.filter_sublist.map _), ht.nodes.sublist (List.filter_sublist.map _),
    fun e he => ht.fresh e (List.mem_filter.mp he).1⟩

end

/-! ### Calls of `publish` -/

/-- An iterator stands in its table: what was there at the begin is settled or ahead of it. -/
structure Publish.Sound (it : Publish A) (t : Table A F) (p : P) (log : List (Observed A F P)) :
    Prop where
  rehashes : it.rehashes = t.rehashes
  walking : ∃ earlier later, log = earlier ++ .began p it.name :: later
    ∧ .began p it.name ∉ earlier ∧ .began p it.name ∉ later
    ∧ Walk.Walking Entry.ident Entry.node (fun ident => ∃ f, Registered it.name ident f earlier)
      (fun ident => Settled p it.name ident later) (fun ident => Called p it.name ident log)
      t.entries it.node

variable (bucketCount : Nat)

structure State.SoundAt (s : State A F P) (p : P) (log : List (Observed A F P)) : Prop where
  unborn : s.publishes p = none → ∀ o ∈ log, ¬o.By p
  valid : ∀ it, s.publishes p = some it → it.status ≠ .invalid
  calling : ∀ it, s.publishes p = some it → it.status = .calling →
    it.Sound (s.table bucketCount it.name) p log

structure State.Sound (s : State A F P) (log : List (Observed A F P)) : Prop where
  allows : Transition.Allows Allowed log
  registered : ∀ name ident f,
    Registered name ident f log ↔ (s.table bucketCount name).Maps ident f
  tables : ∀ name, (s.table bucketCount name).Sound s.nodes
  publishes : ∀ p, s.SoundAt bucketCount p log

/-- All is sound, but maybe one call of `publish`. -/
structure State.SoundBut (s : State A F P) (p : P) (log : List (Observed A F P)) : Prop where
  allows : Transition.Allows Allowed log
  registered : ∀ name ident f,
    Registered name ident f log ↔ (s.table bucketCount name).Maps ident f
  tables : ∀ name, (s.table bucketCount name).Sound s.nodes
  others : ∀ p' ≠ p, s.SoundAt bucketCount p' log

variable {bucketCount}

section

variable {s : State A F P} {log : List (Observed A F P)} {p p' : P} {it : Publish A}
  {t t' : Table A F} {name ident : A} {f : F} {o : Observed A F P}

omit [DecidableEq A] [DecidableEq P] in
/-- Others change the table, or not, and the iterator stands. -/
theorem Publish.Sound.concat (hit : it.Sound t p log) (hby : ¬o.By p)
    (hrehashes : it.rehashes = t'.rehashes)
    (hwalking : ∀ begun settled done settled' done' : A → Prop,
      Walk.Walking Entry.ident Entry.node begun settled done t.entries it.node →
      (∀ ident, settled ident → settled' ident) →
      (∀ ident, o = .unsubscribed it.name ident → settled' ident ∧ ¬done' ident) →
      (∀ ident, done' ident → done ident) →
      Walk.Walking Entry.ident Entry.node begun settled' done' t'.entries it.node) :
    it.Sound t' p (log ++ [o]) := by
  obtain ⟨earlier, later, rfl, hearlier, hlater, hwalk⟩ := hit.walking
  have hnew {name ident : A} {f : F} : o ≠ .called p name ident f := by
    rintro rfl
    exact hby rfl
  refine ⟨hrehashes, earlier, later ++ [o], by simp, hearlier, fun hmem => ?_,
    hwalking _ _ _ _ _ hwalk (fun ident hsettled => hsettled.concat) (fun ident ho => ?_)
      fun ident hcalled => (hcalled.of_concat fun f => hnew).1⟩
  · obtain hmem | hmem := List.mem_append.mp hmem
    · exact hlater hmem
    · obtain rfl := List.mem_singleton.mp hmem
      exact hby rfl
  · refine ⟨Or.inr (List.mem_append_right _ (ho ▸ List.mem_singleton_self _)), fun hcalled => ?_⟩
    exact (hcalled.of_concat fun f => hnew).2 ho

/-- A table that is not rehashed keeps the walks through it. -/
theorem Table.Assign.keeps {node : Nat} (h : t.Assign ident f node t')
    (hroom : t.HasIdent ident ∨ t.entries.length + 1 ≤ t.bucketCount) :
    t'.rehashes = t.rehashes ∧ ∀ (begun settled done : A → Prop) (i : Nat),
      Walk.Walking Entry.ident Entry.node begun settled done t.entries i →
      Walk.Walking Entry.ident Entry.node begun settled done t'.entries i := by
  cases h with
  | assigned _ =>
      exact ⟨rfl, fun _ _ _ _ h => h.map (fun e => e.assign_ident) fun e => e.assign_node⟩
  | inserted _ _ hentries => exact ⟨rfl, fun _ _ _ _ h => (hentries ▸ h).insert⟩
  | rehashed hident hfull _ _ => exact absurd (hroom.resolve_left hident) (Nat.not_le_of_lt hfull)

omit [DecidableEq P] in
theorem State.table_setTable_self : (s.setTable name t).table bucketCount name = t := by
  simp [State.setTable, State.table]

omit [DecidableEq P] in
theorem State.table_setTable_of_ne {name' : A} (hne : name' ≠ name) :
    (s.setTable name t).table bucketCount name' = s.table bucketCount name' := by
  simp [State.setTable, State.table, hne]

omit [DecidableEq A] [DecidableEq P] in
theorem State.first_eq : s.first name = (s.table bucketCount name).entries.head? := by
  rw [State.first, State.table]
  cases s.subscribers name <;> rfl

omit [DecidableEq A] [DecidableEq P] in
/-- What others do with tables that stay. -/
theorem State.SoundAt.concat {s' : State A F P} (h : s.SoundAt bucketCount p log) (hby : ¬o.By p)
    (hpublishes : s'.publishes p = s.publishes p) (hsubscribers : s'.subscribers = s.subscribers) :
    s'.SoundAt bucketCount p (log ++ [o]) := by
  refine ⟨fun hp o' ho' => ?_, fun it hit => h.valid it (hpublishes ▸ hit), fun it hit hcalling => ?_⟩
  · obtain ho' | ho' := List.mem_append.mp ho'
    · exact h.unborn (hpublishes ▸ hp) o' ho'
    · rw [List.mem_singleton.mp ho']
      exact hby
  · have hsound := h.calling it (hpublishes ▸ hit) hcalling
    rw [State.table, hsubscribers]
    exact hsound.concat hby hsound.rehashes fun _ _ _ _ _ hwalk hsettled _ hdone =>
      hwalk.mono hsettled hdone

omit [DecidableEq P] in
/-- The table of a name changes. -/
theorem State.Sound.setTable (hs : s.Sound bucketCount log) (hallowed : Allowed log o)
    (hby : ∀ p, ¬o.By p) (ht : t.Sound (s.nodes + 1))
    (hregistered : ∀ name' ident f, Registered name' ident f (log ++ [o])
      ↔ if name' = name then t.Maps ident f else Registered name' ident f log)
    (hkeeps : ∀ p it, s.publishes p = some it → it.status = .calling → it.name = name →
      it.Sound (s.table bucketCount name) p log → it.Sound t p (log ++ [o])) :
    (s.setTable name t).Sound bucketCount (log ++ [o]) := by
  refine ⟨hs.allows.concat hallowed, fun name' ident f => ?_, fun name' => ?_, fun p => ⟨?_, ?_, ?_⟩⟩
  · rw [hregistered]
    split_ifs with hname
    · rw [hname, State.table_setTable_self]
    · rw [State.table_setTable_of_ne hname]
      exact hs.registered name' ident f
  · by_cases hname : name' = name
    · rw [hname, State.table_setTable_self]
      exact ht
    · rw [State.table_setTable_of_ne hname]
      exact (hs.tables name').mono (Nat.le_succ _)
  · intro hp o' ho'
    obtain ho' | ho' := List.mem_append.mp ho'
    · exact (hs.publishes p).unborn hp o' ho'
    · rw [List.mem_singleton.mp ho']
      exact hby p
  · exact (hs.publishes p).valid
  · intro it hit hcalling
    have hsound := (hs.publishes p).calling it hit hcalling
    by_cases hname : it.name = name
    · rw [hname, State.table_setTable_self]
      exact hkeeps p it hit hcalling hname (hname ▸ hsound)
    · rw [State.table_setTable_of_ne hname]
      exact hsound.concat (hby p) hsound.rehashes fun _ _ _ _ _ hwalk hsettled _ hdone =>
        hwalk.mono hsettled hdone

omit [DecidableEq P] in
theorem State.Sound.subscribe (hs : s.Sound bucketCount log)
    (hassign : (s.table bucketCount name).Assign ident f s.nodes t)
    (hrespects : s.Respects bucketCount (.subscribe name ident f)) :
    (s.setTable name t).Sound bucketCount (log ++ [.subscribed name ident f]) := by
  refine hs.setTable trivial (fun p => id) ((hs.tables name).assign hassign)
    (fun name' ident' f' => ?_) fun p it hit hcalling hname hsound => ?_
  · rw [registered_subscribed, hassign.maps]
    split_ifs with heq hname hident hname hident
    · rfl
    · exact absurd heq.2 hident
    · exact absurd heq.1 hname
    · exact absurd ⟨hname, hident⟩ heq
    · rw [hname]
      exact hs.registered name ident' f'
    · rfl
  · obtain ⟨hrehashes, hkeeps⟩ := hassign.keeps (hrespects ⟨p, it, hit, hcalling, hname⟩)
    exact hsound.concat id (hsound.rehashes.trans hrehashes.symm)
      fun _ _ _ _ _ hwalk hsettled _ hdone => (hkeeps _ _ _ _ hwalk).mono hsettled hdone

omit [DecidableEq P] in
theorem State.Sound.unsubscribe (hs : s.Sound bucketCount log)
    (hrespects : s.Respects bucketCount (.unsubscribe name ident)) :
    (s.unsubscribe bucketCount name ident).Sound bucketCount
      (log ++ [.unsubscribed name ident]) := by
  refine hs.setTable trivial (fun p => id) ((hs.tables name).erase.mono (Nat.le_succ _))
    (fun name' ident' f' => ?_) fun p it hit hcalling hname hsound => ?_
  · rw [registered_unsubscribed, Table.erase_maps]
    split_ifs with hname
    · rw [hname, hs.registered]
      simp only [true_and, ne_eq]
    · exact and_iff_right fun h => hname h.1
  · subst hname
    refine hsound.concat id hsound.rehashes fun _ _ _ _ _ hwalk hsettled hunsubscribed hdone => ?_
    refine hwalk.filter (fun e he hnode => ?_) hsettled (fun e _ he => ?_) hdone fun e _ he => ?_
    · exact decide_eq_true (hrespects p it hit hcalling rfl e he hnode)
    · rw [not_not.mp (of_decide_eq_false he)]
      exact (hunsubscribed ident rfl).1
    · refine decide_eq_true ?_
      rintro rfl
      exact (hunsubscribed e.ident rfl).2 he

omit [DecidableEq A] [DecidableEq P] in
theorem State.SoundBut.concat (hs : s.SoundBut bucketCount p log) (hby : o.By p)
    (hallowed : Allowed log o) : s.SoundBut bucketCount p (log ++ [o]) :=
  ⟨hs.allows.concat hallowed,
    fun name ident f => (registered_by hby).trans (hs.registered name ident f), hs.tables,
    fun p' hne => (hs.others p' hne).concat (hby.unique hne) rfl rfl⟩

omit [DecidableEq A] in
theorem State.SoundBut.setPublish (hs : s.SoundBut bucketCount p log) (hvalid : it.status ≠ .invalid)
    (hcalling : it.status = .calling → it.Sound (s.table bucketCount it.name) p log) :
    (s.setPublish p it).Sound bucketCount log := by
  refine ⟨hs.allows, hs.registered, hs.tables, fun p' => ?_⟩
  by_cases hp : p' = p
  · subst hp
    have hself : (s.setPublish p' it).publishes p' = some it := Function.update_self ..
    refine ⟨fun hnone => ?_, fun it' hit' => ?_, fun it' hit' hcalling' => ?_⟩
    · exact absurd (hself.symm.trans hnone) (Option.some_ne_none it)
    · obtain rfl := Option.some_inj.mp (hself.symm.trans hit')
      exact hvalid
    · obtain rfl := Option.some_inj.mp (hself.symm.trans hit')
      exact hcalling hcalling'
  · have hne : (s.setPublish p it).publishes p' = s.publishes p' := Function.update_of_ne hp ..
    have hother := hs.others p' hp
    exact ⟨fun hnone => hother.unborn (hne ▸ hnone), fun it' hit' => hother.valid it' (hne ▸ hit'),
      fun it' hit' => hother.calling it' (hne ▸ hit')⟩

omit [DecidableEq A] in
/-- The loop of `publish` ends, or calls a subscriber. -/
theorem State.SoundBut.loop {rehashes : Nat} {next : Option (Entry A F)}
    (hs : s.SoundBut bucketCount p log)
    (hfinished : next = none → Allowed log (.finished p name))
    (hcalled : ∀ e, next = some e → e ∈ (s.table bucketCount name).entries
      ∧ ¬Called p name e.ident log
      ∧ Publish.Sound ⟨name, e.node, rehashes, .calling⟩ (s.table bucketCount name) p
        (log ++ [.called p name e.ident e.f])) :
    (s.loop p name rehashes next).Sound bucketCount (log ++ [loopObserved p name next]) := by
  cases next with
  | none =>
      refine (hs.concat (o := .finished p name) rfl (hfinished rfl)).setPublish ?_ ?_
      · exact Status.noConfusion
      · exact Status.noConfusion
  | some e =>
      obtain ⟨hmem, hnot, hsound⟩ := hcalled e rfl
      have hallowed : Allowed log (.called p name e.ident e.f) :=
        ⟨(hs.registered name e.ident e.f).mpr ⟨e, hmem, rfl, rfl⟩, hnot⟩
      refine (hs.concat (o := .called p name e.ident e.f) rfl hallowed).setPublish ?_ ?_
      · exact Status.noConfusion
      · exact fun _ => hsound

theorem State.Sound.publish (hs : s.Sound bucketCount log) (hfree : s.publishes p = none) :
    (s.loop p name (s.table bucketCount name).rehashes (s.first name)).Sound bucketCount
      (log ++ [.began p name] ++ [loopObserved p name (s.first name)]) := by
  have hunborn := (hs.publishes p).unborn hfree
  have hbut : s.SoundBut bucketCount p log :=
    ⟨hs.allows, hs.registered, hs.tables, fun p' _ => hs.publishes p'⟩
  have hbegan : .began p name ∉ log := fun hmem => hunborn _ hmem rfl
  have hnot (ident : A) : ¬Called p name ident (log ++ [.began p name]) := by
    intro hcalled
    obtain ⟨⟨before, entry, after, rfl, ⟨f, rfl⟩, -⟩, -⟩ := hcalled.of_concat fun f => nofun
    exact hunborn _ (List.mem_append_right _ List.mem_cons_self) rfl
  refine (hbut.concat (o := .began p name) rfl trivial).loop (fun hnone => ?_) fun e hsome => ?_
  · intro earlier later hsplit ident f hregistered
    obtain ⟨rfl, -, -⟩ | ⟨middle, rfl, -⟩ := Transition.split_concat hsplit
    · obtain ⟨e, he, -⟩ := (hs.registered name ident f).mp hregistered
      rw [State.first_eq, List.head?_eq_none_iff] at hnone
      exact absurd (hnone ▸ he) List.not_mem_nil
    · exact absurd (List.mem_append_right _ List.mem_cons_self) hbegan
  · rw [State.first_eq] at hsome
    obtain ⟨rest, hentries⟩ := List.head?_eq_some_iff.mp hsome
    have hmem : e ∈ (s.table bucketCount name).entries := List.mem_of_mem_head? hsome
    refine ⟨hmem, hnot e.ident, rfl, log, [.called p name e.ident e.f], by simp, hbegan, by simp, ?_⟩
    rw [hentries]
    refine Walk.Walking.start (fun ident ⟨f, hf⟩ => ?_) (Or.inl ⟨e.f, List.mem_singleton_self _⟩)
      fun ident hcalled => ?_
    · obtain ⟨e', he', rfl, rfl⟩ := (hs.registered name ident f).mp hf
      exact List.mem_map_of_mem (hentries ▸ he')
    · by_contra hne
      refine hnot ident (hcalled.of_concat fun f => ?_).1
      rintro ⟨⟩
      exact hne rfl

theorem State.Sound.ret (hs : s.Sound bucketCount log) (hpublish : s.publishes p = some it)
    (hcalling : it.status = .calling) :
    (s.loop p it.name it.rehashes ((s.table bucketCount it.name).next it.node)).Sound bucketCount
      (log ++ [loopObserved p it.name ((s.table bucketCount it.name).next it.node)]) := by
  have hbut : s.SoundBut bucketCount p log :=
    ⟨hs.allows, hs.registered, hs.tables, fun p' _ => hs.publishes p'⟩
  have hit := (hs.publishes p).calling it hpublish hcalling
  obtain ⟨earlier, later, rfl, hearlier, hlater, hwalk⟩ := hit.walking
  have htable := hs.tables it.name
  refine hbut.loop (fun hnone => ?_) fun e hsome => ?_
  · intro earlier' later' hsplit ident f hregistered
    obtain ⟨rfl, -, rfl⟩ := (List.append_cons_inj_of_notMem hearlier hlater).mp hsplit
    exact hwalk.finish htable.nodes hnone ⟨f, hregistered⟩
  · refine ⟨Walk.mem_of_next hsome, hwalk.not_done htable.nodes htable.idents hsome, hit.rehashes,
      earlier, later ++ [.called p it.name e.ident e.f], by simp, hearlier, by simpa using hlater, ?_⟩
    refine hwalk.advance htable.nodes hsome (fun ident hsettled => hsettled.concat)
      (Or.inl ⟨e.f, List.mem_append_right _ (List.mem_singleton_self _)⟩) fun ident hcalled => ?_
    by_cases hident : ident = e.ident
    · exact Or.inr hident
    · refine Or.inl (hcalled.of_concat fun f => ?_).1
      rintro ⟨⟩
      exact hident rfl

theorem sound_of_logs
    (hlog : ((system bucketCount).restrict (State.Respects bucketCount)).Logs
      (State.observed bucketCount) s log) : s.Sound bucketCount log := by
  induction hlog with
  | init hinit =>
      subst hinit
      refine ⟨.nil, fun name ident f => ?_, fun name => ?_, fun p => ?_⟩
      · simp [Registered, Transition.Standing, Table.Maps, State.table, State.initial, Table.empty]
      · exact ⟨List.nodup_nil, List.nodup_nil, fun e he => absurd he List.not_mem_nil⟩
      · exact ⟨fun _ o ho => absurd ho List.not_mem_nil, nofun, nofun⟩
  | @step s s' log label _ hstep ih =>
      obtain ⟨hstep, hrespects⟩ := hstep
      cases hstep with
      | subscribe hassign => exact ih.subscribe hassign hrespects
      | unsubscribe => exact ih.unsubscribe hrespects
      | @publish p name hfree =>
          have hsound : State.Sound _ _ (log ++ [.began p name] ++ _) := ih.publish hfree
          rwa [List.append_assoc] at hsound
      | ret hpublish hcalling hvalid =>
          simp only [State.observed, hpublish, if_pos hvalid]
          exact ih.ret hpublish hcalling
      | @invalid p it hpublish hcalling hvalid =>
          have hit := (ih.publishes p).calling it hpublish hcalling
          obtain ⟨_, _, -, -, -, hwalk⟩ := hit.walking
          exact absurd ⟨hwalk.mem, hit.rehashes⟩ hvalid
      | @throw p it hpublish hcalling =>
          have hbut : s.SoundBut bucketCount p log :=
            ⟨ih.allows, ih.registered, ih.tables, fun p' _ => ih.publishes p'⟩
          rw [State.observed, List.append_nil]
          exact hbut.setPublish Status.noConfusion nofun

theorem publish_survives
    (hlog : ((system bucketCount).restrict (State.Respects bucketCount)).Logs
      (State.observed bucketCount) s log) :
    (∀ p it, s.publishes p = some it → it.status ≠ .invalid)
      ∧ (∀ before after p name ident f,
        log = before ++ .called p name ident f :: after → Registered name ident f before)
      ∧ (∀ before between after p name ident f f',
        log = before ++ .called p name ident f :: (between ++ .called p name ident f' :: after) →
          .unsubscribed name ident ∈ between)
      ∧ ∀ before between after p name,
        log = before ++ .began p name :: (between ++ .finished p name :: after) →
          ∀ ident f, Registered name ident f before →
            (∃ f', .called p name ident f' ∈ between) ∨ .unsubscribed name ident ∈ between := by
  have hs := sound_of_logs hlog
  refine ⟨fun p => (hs.publishes p).valid, ?_, ?_, ?_⟩
  · intro before after p name ident f hsplit
    exact (hs.allows before _ after hsplit).1
  · intro before between after p name ident f f' hsplit
    have hnot := (hs.allows (before ++ .called p name ident f :: between) (.called p name ident f')
      after (by rw [hsplit, List.append_assoc, List.cons_append])).2
    by_contra hmem
    refine hnot ⟨before, _, between, rfl, ⟨f, rfl⟩, ?_⟩
    rintro o ho rfl
    exact hmem ho
  · intro before between after p name hsplit
    exact hs.allows (before ++ .began p name :: between) (.finished p name) after
      (by rw [hsplit, List.append_assoc, List.cons_append]) before between rfl

end

/-- Of two subscribers the first one unsubscribes the second one. -/
theorem publish_survives_unsubscribed :
    ∃ s : State Bool Unit Unit, ∃ log : List (Observed Bool Unit Unit),
      ((system 2).restrict (State.Respects 2)).Logs (State.observed 2) s log
        ∧ log = [.subscribed true true (), .subscribed true false (), .began () true,
          .called () true false (), .unsubscribed true true, .finished () true]
        ∧ ∀ p it, s.publishes p = some it → it.status ≠ .invalid := by
  have h0 : ((system 2).restrict (State.Respects 2)).Logs (State.observed 2)
      (.initial : State Bool Unit Unit) [] := .init rfl
  have hassign : (State.initial.table (F := Unit) (P := Unit) 2 true).Assign true () 0
      ⟨[⟨0, true, ()⟩], 2, 0⟩ :=
    @Table.Assign.inserted _ _ _ _ true () 0 [] [] (fun ⟨_, he, _⟩ => absurd he List.not_mem_nil)
      (by decide) rfl
  have h1 := h0.step ⟨.subscribe hassign, fun _ => .inr (by decide)⟩
  have hassign : Table.Assign ⟨[⟨0, true, ()⟩], 2, 0⟩ false () 1
      ⟨[⟨1, false, ()⟩, ⟨0, true, ()⟩], 2, 0⟩ :=
    @Table.Assign.inserted _ _ _ _ false () 1 [] [⟨0, true, ()⟩] (by simp [Table.HasIdent])
      (by decide) rfl
  have h2 := h1.step ⟨(.subscribe hassign : State.Step 2 _ (.subscribe true _ _) _),
    fun _ => .inr (by decide)⟩
  have h3 := h2.step ⟨(.publish rfl : State.Step 2 _ (.publish () true) _), trivial⟩
  have h4 := h3.step ⟨(.unsubscribe : State.Step 2 _ (.unsubscribe true true) _), by
    rintro p it hit - - e he hnode
    obtain rfl : ⟨true, 1, 0, .calling⟩ = it := Option.some_inj.mp hit
    obtain rfl | rfl : e = ⟨1, false, ()⟩ ∨ e = ⟨0, true, ()⟩ :=
      (List.mem_cons.mp he).imp_right List.mem_singleton.mp
    · exact Bool.noConfusion
    · exact absurd hnode Nat.zero_ne_one⟩
  have h5 := h4.step ⟨.ret (p := ()) rfl rfl (by decide), trivial⟩
  exact ⟨_, _, h5, rfl, (publish_survives h5).1⟩

/-- A subscriber that unsubscribes itself. -/
theorem publish_uses_invalid_iterator :
    ¬∀ (s : State Unit Unit Unit) (log : List (Observed Unit Unit Unit)),
      (system 1).Logs (State.observed 1) s log →
        ∀ p it, s.publishes p = some it → it.status ≠ .invalid := by
  intro h
  have h0 : (system 1).Logs (State.observed 1) (.initial : State Unit Unit Unit) [] := .init rfl
  have hassign : (State.initial.table (F := Unit) (P := Unit) 1 ()).Assign () () 0
      ⟨[⟨0, (), ()⟩], 1, 0⟩ :=
    @Table.Assign.inserted _ _ _ _ () () 0 [] [] (fun ⟨_, he, _⟩ => absurd he List.not_mem_nil)
      (by decide) rfl
  have h1 := h0.step (.subscribe hassign)
  have h2 := h1.step (.publish rfl : State.Step 1 _ (.publish () ()) _)
  have h3 := h2.step (.unsubscribe : State.Step 1 _ (.unsubscribe () ()) _)
  have h4 := h3.step (.invalid (p := ()) rfl rfl (by decide))
  exact h _ _ h4 () _ rfl rfl

end Stp.Event
