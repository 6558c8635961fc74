import Mathlib.Data.List.Nodup

/-!
# Walks through a container that changes

A walk visits the elements of a container in their order, while others insert and remove elements.
It remembers the place of the element that it stands at; elements have a key, too. A walk has begun
with some keys: each of them is settled, or still ahead. Nothing that is done is ahead.
-/

namespace Walk

variable {α K I : Type*}

/-- The element after the one at a place. -/
def next [DecidableEq I] (place : α → I) (l : List α) (i : I) : Option α :=
  (l.dropWhile fun a => place a ≠ i).tail.head?

/-- A walk stands at a place. -/
def Walking (key : α → K) (place : α → I) (begun settled done : K → Prop) (l : List α) (i : I) :
    Prop :=
  ∃ before a after, l = before ++ a :: after ∧ place a = i
    ∧ (∀ k, done k → k ∈ (before ++ [a]).map key) ∧ ∀ k, begun k → settled k ∨ k ∈ after.map key

variable {key : α → K} {place : α → I} {begun settled settled' done done' : K → Prop}
  {l before after : List α} {a : α} {i : I}

theorem next_eq [DecidableEq I] (hplace : ((before ++ a :: after).map place).Nodup) :
    next place (before ++ a :: after) (place a) = after.head? := by
  have hbefore (b : α) (hb : b ∈ before) : decide (place b ≠ place a) = true := by
    rw [List.map_append, List.map_cons] at hplace
    exact decide_eq_true fun heq => (List.disjoint_of_nodup_append hplace)
      (List.mem_map_of_mem hb) (heq ▸ List.mem_cons_self)
  rw [next, List.dropWhile_append_of_pos hbefore, List.dropWhile_cons_of_neg (by simp),
    List.tail_cons]

/-- A walk begins at the first element. -/
theorem Walking.start (hbegun : ∀ k, begun k → k ∈ (a :: after).map key)
    (hsettled : settled (key a)) (hdone : ∀ k, done k → k = key a) :
    Walking key place begun settled done (a :: after) (place a) := by
  refine ⟨[], a, after, rfl, rfl, fun k hk => ?_, fun k hk => ?_⟩
  · rw [hdone k hk]
    exact List.mem_cons_self
  · obtain rfl | hk := List.mem_cons.mp (hbegun k hk)
    · exact Or.inl hsettled
    · exact Or.inr hk

theorem Walking.mono (h : Walking key place begun settled done l i)
    (hsettled : ∀ k, settled k → settled' k) (hdone : ∀ k, done' k → done k) :
    Walking key place begun settled' done' l i := by
  obtain ⟨before, a, after, rfl, rfl, hbehind, hahead⟩ := h
  exact ⟨before, a, after, rfl, rfl, fun k hk => hbehind k (hdone k hk),
    fun k hk => (hahead k hk).imp_left (hsettled k)⟩

theorem Walking.mem (h : Walking key place begun settled done l i) : ∃ a ∈ l, place a = i := by
  obtain ⟨before, a, after, rfl, rfl, -, -⟩ := h
  exact ⟨a, List.mem_append_right before List.mem_cons_self, rfl⟩

/-- Elements are changed in their places. -/
theorem Walking.map {g : α → α} (h : Walking key place begun settled done l i)
    (hkey : ∀ a, key (g a) = key a) (hplace : ∀ a, place (g a) = place a) :
    Walking key place begun settled done (l.map g) i := by
  obtain ⟨before, a, after, rfl, rfl, hbehind, hahead⟩ := h
  have hkeys (l : List α) : (l.map g).map key = l.map key := by
    rw [List.map_map]
    exact List.map_congr_left fun a _ => hkey a
  refine ⟨before.map g, g a, after.map g, by rw [List.map_append, List.map_cons], hplace a,
    fun k hk => ?_, fun k hk => ?_⟩
  · rw [← List.map_singleton (f := g), ← List.map_append, hkeys]
    exact hbehind k hk
  · rw [hkeys]
    exact hahead k hk

/-- An element is inserted, behind the walk or ahead of it. -/
theorem Walking.insert {b : α} (h : Walking key place begun settled done (before ++ after) i) :
    Walking key place begun settled done (before ++ b :: after) i := by
  obtain ⟨before', a, after', hl, rfl, hbehind, hahead⟩ := h
  obtain ⟨middle, rfl, rfl⟩ | ⟨middle, rfl, hafter⟩ := List.append_eq_append_iff.mp hl
  · refine ⟨before ++ b :: middle, a, after', by simp, rfl, fun k hk => ?_, hahead⟩
    have hk := hbehind k hk
    simp only [List.map_append, List.map_cons, List.mem_append, List.mem_cons] at hk ⊢
    tauto
  · cases middle with
    | nil =>
        refine ⟨before' ++ [b], a, after', by simp_all, rfl, fun k hk => ?_, hahead⟩
        have hk := hbehind k hk
        simp only [List.map_append, List.map_cons, List.mem_append, List.mem_cons] at hk ⊢
        tauto
    | cons a' middle =>
        rw [List.cons_append] at hafter
        obtain ⟨rfl, rfl⟩ := List.cons_eq_cons.mp hafter
        refine ⟨before', a, middle ++ b :: after, by simp, rfl, hbehind, fun k hk => ?_⟩
        have hk := hahead k hk
        simp only [List.map_append, List.map_cons, List.mem_append, List.mem_cons] at hk ⊢
        tauto

/-- Elements are removed, but not the one that the walk stands at. -/
theorem Walking.filter {p : α → Bool} (h : Walking key place begun settled done l i)
    (hcurrent : ∀ a ∈ l, place a = i → p a = true)
    (hsettled : ∀ k, settled k → settled' k)
    (hremoved : ∀ a ∈ l, p a = false → settled' (key a))
    (hdone : ∀ k, done' k → done k) (hkept : ∀ a ∈ l, done' (key a) → p a = true) :
    Walking key place begun settled' done' (l.filter p) i := by
  obtain ⟨before, a, after, rfl, rfl, hbehind, hahead⟩ := h
  have ha : p a = true := hcurrent a (List.mem_append_right before List.mem_cons_self) rfl
  refine ⟨before.filter p, a, after.filter p, ?_, rfl, fun k hk => ?_, fun k hk => ?_⟩
  · rw [List.filter_append, List.filter_cons_of_pos ha]
  · obtain ⟨b, hb, rfl⟩ := List.mem_map.mp (hbehind k (hdone k hk))
    refine List.mem_map_of_mem ?_
    obtain hb | hb := List.mem_append.mp hb
    · exact List.mem_append_left _
        (List.mem_filter.mpr ⟨hb, hkept b (List.mem_append_left _ hb) hk⟩)
    · exact List.mem_append_right _ hb
  · obtain hk | hk := hahead k hk
    · exact Or.inl (hsettled k hk)
    · obtain ⟨b, hb, rfl⟩ := List.mem_map.mp hk
      have hmem := List.mem_append_right before (List.mem_cons_of_mem a hb)
      cases hp : p b with
      | true => exact Or.inr (List.mem_map_of_mem (List.mem_filter.mpr ⟨hb, hp⟩))
      | false => exact Or.inl (hremoved b hmem hp)

section

variable [DecidableEq I]

/-- A walk that ends has settled everything. -/
theorem Walking.finish {k : K} (h : Walking key place begun settled done l i)
    (hplace : (l.map place).Nodup) (hnext : next place l i = none) (hk : begun k) : settled k := by
  obtain ⟨before, a, after, rfl, rfl, -, hahead⟩ := h
  rw [next_eq hplace, List.head?_eq_none_iff] at hnext
  subst hnext
  exact (hahead k hk).resolve_right List.not_mem_nil

/-- A walk goes on with an element that is not done. -/
theorem Walking.not_done {b : α} (h : Walking key place begun settled done l i)
    (hplace : (l.map place).Nodup) (hkey : (l.map key).Nodup) (hnext : next place l i = some b) :
    ¬done (key b) := by
  obtain ⟨before, a, after, rfl, rfl, hbehind, -⟩ := h
  rw [next_eq hplace] at hnext
  obtain ⟨rest, rfl⟩ := List.head?_eq_some_iff.mp hnext
  intro hdone
  rw [List.append_cons, List.map_append] at hkey
  exact List.disjoint_of_nodup_append hkey (hbehind _ hdone) List.mem_cons_self

theorem Walking.advance {b : α} (h : Walking key place begun settled done l i)
    (hplace : (l.map place).Nodup) (hnext : next place l i = some b)
    (hsettled : ∀ k, settled k → settled' k) (hb : settled' (key b))
    (hdone : ∀ k, done' k → done k ∨ k = key b) :
    Walking key place begun settled' done' l (place b) := by
  obtain ⟨before, a, after, rfl, rfl, hbehind, hahead⟩ := h
  rw [next_eq hplace] at hnext
  obtain ⟨rest, rfl⟩ := List.head?_eq_some_iff.mp hnext
  refine ⟨before ++ [a], b, rest, by simp, rfl, fun k hk => ?_, fun k hk => ?_⟩
  · rw [List.map_append]
    obtain hk | rfl := hdone k hk
    · exact List.mem_append_left _ (hbehind k hk)
    · exact List.mem_append_right _ List.mem_cons_self
  · obtain hk | hk := hahead k hk
    · exact Or.inl (hsettled k hk)
    · obtain rfl | hk := List.mem_cons.mp hk
      · exact Or.inl hb
      · exact Or.inr hk

theorem mem_of_next {b : α} (hnext : next place l i = some b) : b ∈ l :=
  (List.dropWhile_sublist _).subset (List.mem_of_mem_tail (List.mem_of_mem_head? hnext))

end

end Walk
