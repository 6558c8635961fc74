import Mathlib
import Stp.Library.Links
import Stp.Library.Radix
import Stp.Library.Transition

/-!
# Stacks of contexts

A context has a stack between two guard pages. Stacks of less than 32 pages are not unmapped when
their contexts are destroyed, but pooled by their number of pages: `gStacks` has a list for each
number, threaded through the first word of the stacks in it.

The kernel says of each address which mapping it belongs to, if any, and whether it may be accessed
there. `mmap` succeeds, with a mapping that is disjoint from all others. A context with a stack may
write anything into it; a write may change each word that it overlaps. The context of a thread has
no stack of its own.
-/

namespace Stp.Stacks

/-- `gPageSize`, a power of two. -/
structure PageSize where
  size : UInt64
  shift : Nat
  size_eq : size.toNat = 2 ^ shift

variable (page : PageSize)

/-- `stacksize` in `mstack`. -/
def stackSize (addstack : UInt64) : UInt64 :=
  let addstack :=
    if addstack ≠ 0 then
      let stackmask := page.size - 1
      (addstack + stackmask) &&& ~~~stackmask
    else addstack
  8 * page.size + addstack

/-- What an address belongs to. -/
structure Mapping where
  /-- The first address of the mapping. -/
  low : Nat
  length : Nat
  /-- `PROT_READ | PROT_WRITE`, or `PROT_NONE`. -/
  access : Bool
deriving DecidableEq, Repr

structure Memory where
  mapped : Nat → Option Mapping
  /-- `gStacks`. -/
  first : Fin 32 → Option Nat
  /-- The `_link` at an address. -/
  link : Nat → Option Nat

def Memory.empty : Memory where
  mapped := fun _ => none
  first := fun _ => none
  link := fun _ => none

def Memory.mmap (m : Memory) (low : Nat) (length : UInt64) : Memory :=
  { m with mapped := fun a =>
      if low ≤ a ∧ a < low + length.toNat then some ⟨low, length.toNat, true⟩ else m.mapped a }

/-- `mprotect`, always with `PROT_NONE`. -/
def Memory.mprotect (m : Memory) (low : Nat) (length : UInt64) : Memory :=
  { m with mapped := fun a =>
      if low ≤ a ∧ a < low + length.toNat then
        (m.mapped a).map fun mapping => { mapping with access := false }
      else m.mapped a }

def Memory.munmap (m : Memory) (low : Nat) (length : UInt64) : Memory :=
  { m with mapped := fun a => if low ≤ a ∧ a < low + length.toNat then none else m.mapped a }

/-- The list of a number of pages, if there is one. -/
def poolIndex (stacksize : UInt64) : Option (Fin 32) :=
  let index := (stacksize / page.size).toNat
  if h : index < 32 then some ⟨index, h⟩ else none

/-- The first stack of a list is taken out: `sl.First = stk->_link`. -/
def Memory.pop (m : Memory) (index : Fin 32) (stk : Nat) : Memory :=
  { m with first := Function.update m.first index (m.link stk) }

/-- A stack is put in front of a list. -/
def Memory.push (m : Memory) (index : Fin 32) (stk : Nat) : Memory :=
  { m with
    link := Function.update m.link stk (m.first index)
    first := Function.update m.first index (some stk) }

/-- A new stack, where `mmap` returns `lowPage`. -/
def Memory.mapStack (m : Memory) (lowPage : Nat) (stacksize : UInt64) : Memory :=
  let stackbase := lowPage + page.size.toNat
  let highPage := stackbase + stacksize.toNat
  let m := m.mmap lowPage (stacksize + 2 * page.size)
  let m := m.mprotect lowPage page.size
  m.mprotect highPage page.size

/-- `mstack`, where `lowPage` is what `mmap` would return. -/
def mstack (m : Memory) (addstack : UInt64) (lowPage : Nat) : Memory × Nat × UInt64 :=
  let stacksize := stackSize page addstack
  let mapNew := (m.mapStack page lowPage stacksize, lowPage + page.size.toNat, stacksize)
  match poolIndex page stacksize with
  | some index =>
      match m.first index with
      | some stk => (m.pop index stk, stk, stacksize)
      | none => mapNew
  | none => mapNew

def munstack (m : Memory) (stackbase : Nat) (stacksize : UInt64) : Memory :=
  match poolIndex page stacksize with
  | some index => m.push index stackbase
  | none => m.munmap (stackbase - page.size.toNat) (stacksize + 2 * page.size)

/-- `Context`, without its `ucontext_t`. -/
structure Context where
  stackbase : Option Nat
  stacksize : UInt64
deriving DecidableEq, Repr

variable {C : Type*}

structure State (C : Type*) where
  memory : Memory
  contexts : C → Option Context

inductive Label (C : Type*) where
  | createThread (c : C)
  | create (c : C) (addstack : UInt64)
  | destroy (c : C)
  | write (c : C)

/-- The mapping of a stack of the requested size fits in `size_t`. -/
def Fits (addstack : UInt64) : Prop :=
  10 * 2 ^ page.shift + (addstack.toNat + 2 ^ page.shift - 1) / 2 ^ page.shift * 2 ^ page.shift
    < 2 ^ 64

instance (addstack : UInt64) : Decidable (Fits page addstack) := inferInstanceAs (Decidable (_ < _))

/-- What is assumed of `mmap`. -/
structure Unmapped (m : Memory) (low : Nat) (length : UInt64) : Prop where
  aligned : page.size.toNat ∣ low
  disjoint : ∀ a, low ≤ a → a < low + length.toNat → m.mapped a = none

/-- A write into a stack: words that lie outside it are as they were. -/
def Scribbles (stackbase : Nat) (stacksize : UInt64) (link link' : Nat → Option Nat) : Prop :=
  ∀ a, a + 8 ≤ stackbase ∨ stackbase + stacksize.toNat ≤ a → link' a = link a

section

variable [DecidableEq C]

def State.set (s : State C) (memory : Memory) (c : C) (context : Option Context) : State C where
  memory := memory
  contexts := Function.update s.contexts c context

inductive State.Step (s : State C) : Label C → State C → Prop
  | createThread {c : C} (hnew : s.contexts c = none) :
      State.Step s (.createThread c) (s.set s.memory c (some ⟨none, 0⟩))
  | create {c : C} {addstack : UInt64} {lowPage : Nat} {m : Memory} {stackbase : Nat}
      {stacksize : UInt64} (hnew : s.contexts c = none) (hfits : Fits page addstack)
      (hmmap : Unmapped page s.memory lowPage (stackSize page addstack + 2 * page.size))
      (hmstack : mstack page s.memory addstack lowPage = (m, stackbase, stacksize)) :
      State.Step s (.create c addstack) (s.set m c (some ⟨some stackbase, stacksize⟩))
  | destroyThread {c : C} {stacksize : UInt64} (hcontext : s.contexts c = some ⟨none, stacksize⟩) :
      State.Step s (.destroy c) (s.set s.memory c none)
  | destroy {c : C} {stackbase : Nat} {stacksize : UInt64}
      (hcontext : s.contexts c = some ⟨some stackbase, stacksize⟩) :
      State.Step s (.destroy c) (s.set (munstack page s.memory stackbase stacksize) c none)
  | write {c : C} {stackbase : Nat} {stacksize : UInt64} {link : Nat → Option Nat}
      (hcontext : s.contexts c = some ⟨some stackbase, stacksize⟩)
      (hlink : Scribbles stackbase stacksize s.memory.link link) :
      State.Step s (.write c) { s with memory := { s.memory with link := link } }

def system : Transition.System (State C) (Label C) where
  init s := s = ⟨.empty, fun _ => none⟩
  step := State.Step page

end

/-! ### Sizes -/

theorem PageSize.pos : 0 < page.size.toNat := page.size_eq ▸ Nat.two_pow_pos page.shift

theorem PageSize.shift_lt : page.shift < 64 := by
  have hlt := page.size.toNat_lt
  rw [page.size_eq] at hlt
  exact (Nat.pow_lt_pow_iff_right (by decide)).mp hlt

theorem roundup_toNat {addstack : UInt64} (hfits : Fits page addstack) :
    (if addstack ≠ 0 then (addstack + (page.size - 1)) &&& ~~~(page.size - 1) else addstack).toNat
      = (addstack.toNat + 2 ^ page.shift - 1) / 2 ^ page.shift * 2 ^ page.shift := by
  have hsize := page.size_eq
  have hpos := Nat.two_pow_pos page.shift
  rw [Fits] at hfits
  split_ifs with haddstack
  · have hone : (1 : UInt64) ≤ page.size := UInt64.le_iff_toNat_le.mpr page.pos
    have hmask : (page.size - 1).toNat = 2 ^ page.shift - 1 := by
      rw [UInt64.toNat_sub_of_le _ _ hone, hsize]
      rfl
    have hsum : (addstack + (page.size - 1)).toNat = addstack.toNat + 2 ^ page.shift - 1 := by
      have hmod := Nat.div_add_mod' (addstack.toNat + 2 ^ page.shift - 1) (2 ^ page.shift)
      have hlt := Nat.mod_lt (addstack.toNat + 2 ^ page.shift - 1) hpos
      rw [UInt64.toNat_add, hmask, Nat.mod_eq_of_lt (by omega)]
      omega
    have hlt := (addstack + (page.size - 1)).toNat_lt
    rw [UInt64.toNat_and, UInt64.toNat_not, hmask, hsum, Nat.mul_comm]
    exact Radix.and_not_mask page.shift_lt.le (hsum ▸ hlt)
  · have hzero : (2 ^ page.shift - 1) / 2 ^ page.shift = 0 :=
      Nat.div_eq_of_lt (Nat.sub_lt hpos Nat.one_pos)
    rw [not_not.mp haddstack, UInt64.toNat_zero, Nat.zero_add, hzero, Nat.zero_mul]

/-- The size of a stack is a number of pages, from eight on. -/
theorem stackSize_eq {addstack : UInt64} (hfits : Fits page addstack) :
    ∃ n, 8 ≤ n ∧ (stackSize page addstack).toNat = n * page.size.toNat
      ∧ (stackSize page addstack + 2 * page.size).toNat = (n + 2) * page.size.toNat := by
  have hround := roundup_toNat page hfits
  have height : (8 : UInt64).toNat = 8 := rfl
  have htwo : (2 : UInt64).toNat = 2 := rfl
  rw [Fits] at hfits
  generalize hn : (addstack.toNat + 2 ^ page.shift - 1) / 2 ^ page.shift = n at hround hfits
  have hsize : (stackSize page addstack).toNat = (8 + n) * page.size.toNat := by
    rw [stackSize, UInt64.toNat_add, UInt64.toNat_mul, hround, height, page.size_eq, Nat.add_mul]
    rw [Nat.mod_eq_of_lt (b := 2 ^ 64) (by omega), Nat.mod_eq_of_lt (by omega)]
  refine ⟨8 + n, Nat.le_add_right 8 n, hsize, ?_⟩
  rw [UInt64.toNat_add, UInt64.toNat_mul, hsize, htwo, page.size_eq, Nat.add_mul, Nat.add_mul,
    Nat.add_mul]
  rw [Nat.mod_eq_of_lt (b := 2 ^ 64) (by omega), Nat.mod_eq_of_lt (by omega)]

/-! ### Who has which stack -/

/-- A context, or the pool of a number of pages. -/
inductive Holder (C : Type*) where
  | context (c : C)
  | pool (index : Fin 32)
deriving DecidableEq, Repr

/-- The stack at an address has a mapping of its own, with a guard page on either side. -/
structure Stack (mapped : Nat → Option Mapping) (stackbase : Nat) (pages : Nat) : Prop where
  guard : page.size.toNat ≤ stackbase
  enough : 8 ≤ pages
  mapped : ∀ a, stackbase - page.size.toNat ≤ a
    → a < stackbase + (pages + 1) * page.size.toNat
    → mapped a = some ⟨stackbase - page.size.toNat, (pages + 2) * page.size.toNat,
      decide (stackbase ≤ a ∧ a < stackbase + pages * page.size.toNat)⟩

variable {page}

section Stack

variable {m m' : Memory} {stackbase stackbase' pages pages' : Nat} {length : UInt64}

/-- Two stacks with an address in common, of the stacks or of their guard pages, are the same. -/
theorem Stack.unique (hstack : Stack page m.mapped stackbase pages)
    (hstack' : Stack page m.mapped stackbase' pages') {a : Nat}
    (ha : stackbase - page.size.toNat ≤ a ∧ a < stackbase + (pages + 1) * page.size.toNat)
    (ha' : stackbase' - page.size.toNat ≤ a ∧ a < stackbase' + (pages' + 1) * page.size.toNat) :
    stackbase = stackbase' ∧ pages = pages' := by
  have heq := (hstack.mapped a ha.1 ha.2).symm.trans (hstack'.mapped a ha'.1 ha'.2)
  rw [Option.some_inj, Mapping.mk.injEq] at heq
  have hguard := hstack.guard
  have hguard' := hstack'.guard
  exact ⟨by omega, Nat.add_right_cancel (Nat.eq_of_mul_eq_mul_right page.pos heq.2.1)⟩

/-- The addresses of a new stack, of its guard pages, and all others. -/
theorem Memory.mapStack_mapped (m : Memory) (low : Nat) {stacksize : UInt64}
    (hsize : stacksize.toNat = pages * page.size.toNat)
    (hlength : (stacksize + 2 * page.size).toNat = (pages + 2) * page.size.toNat) (a : Nat) :
    (m.mapStack page low stacksize).mapped a
      = if low ≤ a ∧ a < low + (pages + 2) * page.size.toNat then
          some ⟨low, (pages + 2) * page.size.toNat,
            decide (low + page.size.toNat ≤ a ∧ a < low + page.size.toNat + pages * page.size.toNat)⟩
        else m.mapped a := by
  have hadd := Nat.add_mul pages 2 page.size.toNat
  rw [Memory.mapStack]
  simp only [Memory.mprotect, Memory.mmap, hsize, hlength]
  by_cases hmem : low ≤ a ∧ a < low + (pages + 2) * page.size.toNat
  · rw [if_pos hmem, if_pos hmem]
    split_ifs with hhigh hlow hlow <;>
      simp only [Option.map_some, Option.some_inj, Mapping.mk.injEq, true_and] <;>
      simp only [eq_comm (a := false), eq_comm (a := true), decide_eq_false_iff_not, decide_eq_true_iff] <;>
      omega
  · rw [if_neg hmem, if_neg hmem, if_neg (by omega), if_neg (by omega)]

theorem Stack.mapStack {low : Nat} {stacksize : UInt64}
    (hstack : Stack page m.mapped stackbase pages)
    (hsize : stacksize.toNat = pages' * page.size.toNat)
    (hlength : (stacksize + 2 * page.size).toNat = (pages' + 2) * page.size.toNat)
    (hunmapped : Unmapped page m low (stacksize + 2 * page.size)) :
    Stack page (m.mapStack page low stacksize).mapped stackbase pages := by
  refine ⟨hstack.guard, hstack.enough, fun a hle hlt => ?_⟩
  have hmapped := hstack.mapped a hle hlt
  rw [m.mapStack_mapped low hsize hlength]
  refine (if_neg fun ha => ?_).trans hmapped
  exact Option.some_ne_none _ (hmapped.symm.trans (hunmapped.disjoint a ha.1 (hlength ▸ ha.2)))

theorem Memory.stack_of_mapStack (m : Memory) (low : Nat) {stacksize : UInt64} (hpages : 8 ≤ pages)
    (hsize : stacksize.toNat = pages * page.size.toNat)
    (hlength : (stacksize + 2 * page.size).toNat = (pages + 2) * page.size.toNat) :
    Stack page (m.mapStack page low stacksize).mapped (low + page.size.toNat) pages := by
  refine ⟨Nat.le_add_left _ _, hpages, fun a hle hlt => ?_⟩
  rw [Nat.add_sub_cancel] at hle ⊢
  rw [m.mapStack_mapped low hsize hlength]
  refine if_pos ⟨hle, ?_⟩
  rw [Nat.add_mul] at hlt ⊢
  omega

theorem Stack.munmap (hstack : Stack page m.mapped stackbase pages)
    (hstack' : Stack page m.mapped stackbase' pages') (hne : stackbase ≠ stackbase')
    (hlength : length.toNat = (pages' + 2) * page.size.toNat) :
    Stack page (m.munmap (stackbase' - page.size.toNat) length).mapped stackbase pages := by
  refine ⟨hstack.guard, hstack.enough, fun a hle hlt => ?_⟩
  rw [Memory.munmap]
  refine (if_neg fun ha => hne ?_).trans (hstack.mapped a hle hlt)
  refine (hstack.unique hstack' ⟨hle, hlt⟩ ⟨ha.1, ?_⟩).1
  have hguard' := hstack'.guard
  have hlt' := ha.2
  rw [hlength, Nat.add_mul] at hlt'
  rw [Nat.add_mul]
  omega

end Stack

/-- The stacks of the contexts and pools, by their addresses. -/
abbrev Held (C : Type*) := Holder C → List Nat

variable (page) in
structure State.Sound (s : State C) (held : Held C) : Prop where
  apart : Links.Apart held
  context : ∀ c stackbase, stackbase ∈ held (.context c)
    ↔ ∃ stacksize, s.contexts c = some ⟨some stackbase, stacksize⟩
  sizes : ∀ c stackbase stacksize, s.contexts c = some ⟨some stackbase, stacksize⟩ →
    ∃ pages, stacksize.toNat = pages * page.size.toNat
      ∧ (stacksize + 2 * page.size).toNat = (pages + 2) * page.size.toNat
      ∧ Stack page s.memory.mapped stackbase pages
  pool : ∀ index, ∀ stackbase ∈ held (.pool index), Stack page s.memory.mapped stackbase index
  linked : ∀ index, Links.Linked s.memory.link (s.memory.first index) (held (.pool index))
  whole : ∀ a mapping, s.memory.mapped a = some mapping →
    mapping.low ≤ a ∧ a < mapping.low + mapping.length

/-! ### What a call changes -/

section

variable {s : State C} {held : Held C} {c : C} {stackbase pages : Nat} {stacksize : UInt64}
  {index : Fin 32}

theorem poolIndex_eq (hsize : stacksize.toNat = pages * page.size.toNat) :
    poolIndex page stacksize = if h : pages < 32 then some ⟨pages, h⟩ else none := by
  have hpages : (stacksize / page.size).toNat = pages := by
    rw [UInt64.toNat_div, hsize, Nat.mul_div_cancel _ page.pos]
  rw [poolIndex]
  simp only [hpages]

/-- `mstack` takes the first stack of a pool, or maps a new one. -/
theorem mstack_cases {m m' : Memory} {addstack : UInt64} {lowPage : Nat}
    (hfits : Fits page addstack)
    (hmstack : mstack page m addstack lowPage = (m', stackbase, stacksize)) :
    ∃ pages, 8 ≤ pages ∧ stacksize.toNat = pages * page.size.toNat
      ∧ (stacksize + 2 * page.size).toNat = (pages + 2) * page.size.toNat
      ∧ ((∃ index : Fin 32, index.val = pages ∧ m.first index = some stackbase
          ∧ m' = m.pop index stackbase)
        ∨ (stackbase = lowPage + page.size.toNat
          ∧ stacksize = stackSize page addstack
          ∧ m' = m.mapStack page lowPage stacksize)) := by
  obtain ⟨pages, hpages, hsize, hlength⟩ := stackSize_eq page hfits
  rw [mstack, poolIndex_eq hsize] at hmstack
  by_cases h : pages < 32
  · rw [dif_pos h] at hmstack
    cases hfirst : m.first ⟨pages, h⟩ with
    | some stk =>
        simp only [hfirst, Prod.mk.injEq] at hmstack
        obtain ⟨rfl, rfl, rfl⟩ := hmstack
        exact ⟨pages, hpages, hsize, hlength, Or.inl ⟨⟨pages, h⟩, rfl, hfirst, rfl⟩⟩
    | none =>
        simp only [hfirst, Prod.mk.injEq] at hmstack
        obtain ⟨rfl, rfl, rfl⟩ := hmstack
        exact ⟨pages, hpages, hsize, hlength, Or.inr ⟨rfl, rfl, rfl⟩⟩
  · simp only [dif_neg h, Prod.mk.injEq] at hmstack
    obtain ⟨rfl, rfl, rfl⟩ := hmstack
    exact ⟨pages, hpages, hsize, hlength, Or.inr ⟨rfl, rfl, rfl⟩⟩

theorem munstack_cases (m : Memory) (hsize : stacksize.toNat = pages * page.size.toNat) :
    (∃ index : Fin 32, index.val = pages
        ∧ munstack page m stackbase stacksize = m.push index stackbase)
      ∨ (32 ≤ pages ∧ munstack page m stackbase stacksize
        = m.munmap (stackbase - page.size.toNat) (stacksize + 2 * page.size)) := by
  rw [munstack, poolIndex_eq hsize]
  by_cases h : pages < 32
  · exact Or.inl ⟨⟨pages, h⟩, rfl, by rw [dif_pos h]⟩
  · exact Or.inr ⟨Nat.le_of_not_lt h, by rw [dif_neg h]⟩

/-- What is mapped is nobody's yet. -/
theorem State.Sound.mapStack {low : Nat} (hs : s.Sound page held)
    (hsize : stacksize.toNat = pages * page.size.toNat)
    (hlength : (stacksize + 2 * page.size).toNat = (pages + 2) * page.size.toNat)
    (hunmapped : Unmapped page s.memory low (stacksize + 2 * page.size)) :
    State.Sound page { s with memory := s.memory.mapStack page low stacksize } held := by
  refine ⟨hs.apart, hs.context, fun c base size hc => ?_, fun index base hbase => ?_, hs.linked,
    fun a mapping ha => ?_⟩
  · obtain ⟨pages', hsize', hlength', hstack⟩ := hs.sizes c base size hc
    exact ⟨pages', hsize', hlength', hstack.mapStack hsize hlength hunmapped⟩
  · exact (hs.pool index base hbase).mapStack hsize hlength hunmapped
  · rw [s.memory.mapStack_mapped low hsize hlength] at ha
    split_ifs at ha with hmem
    · obtain rfl := Option.some_inj.mp ha
      exact hmem
    · exact hs.whole a mapping ha

/-- Everybody who has a stack has a mapping for it. -/
theorem State.Sound.stack (hs : s.Sound page held) {p : Holder C} (hheld : stackbase ∈ held p) :
    ∃ pages, Stack page s.memory.mapped stackbase pages := by
  cases p with
  | context c =>
      obtain ⟨stacksize, hc⟩ := (hs.context c stackbase).mp hheld
      obtain ⟨pages, -, -, hstack⟩ := hs.sizes c stackbase stacksize hc
      exact ⟨pages, hstack⟩
  | pool index => exact ⟨index, hs.pool index stackbase hheld⟩

/-- A stack that nobody has is unmapped. -/
theorem State.Sound.munmap {length : UInt64} (hs : s.Sound page held)
    (hnew : ∀ p, stackbase ∉ held p) (hstack : Stack page s.memory.mapped stackbase pages)
    (hlength : length.toNat = (pages + 2) * page.size.toNat) :
    State.Sound page { s with memory := s.memory.munmap (stackbase - page.size.toNat) length } held := by
  have hkeeps {p : Holder C} {base pages' : Nat} (hbase : base ∈ held p)
      (hstack' : Stack page s.memory.mapped base pages') :
      Stack page (s.memory.munmap (stackbase - page.size.toNat) length).mapped base pages' := by
    refine hstack'.munmap hstack ?_ hlength
    rintro rfl
    exact hnew p hbase
  refine ⟨hs.apart, hs.context, fun c base size hc => ?_, fun index base hbase => ?_, hs.linked,
    fun a mapping ha => ?_⟩
  · obtain ⟨pages', hsize, hlength', hstack'⟩ := hs.sizes c base size hc
    exact ⟨pages', hsize, hlength', hkeeps ((hs.context c base).mpr ⟨size, hc⟩) hstack'⟩
  · exact hkeeps hbase (hs.pool index base hbase)
  · rw [Memory.munmap] at ha
    dsimp only at ha
    split_ifs at ha with hmem
    exact hs.whole a mapping ha

/-- What a context writes into its stack is no link of a pool. -/
theorem State.Sound.write {link : Nat → Option Nat} (hs : s.Sound page held)
    (hcontext : s.contexts c = some ⟨some stackbase, stacksize⟩)
    (hlink : Scribbles stackbase stacksize s.memory.link link) :
    State.Sound page { s with memory := { s.memory with link := link } } held := by
  refine ⟨hs.apart, hs.context, hs.sizes, hs.pool, fun index => ?_, hs.whole⟩
  refine (hs.linked index).congr fun base hbase => hlink base ?_
  obtain ⟨pages, hsize, -, hstack⟩ := hs.sizes c stackbase stacksize hcontext
  have hpool := hs.pool index base hbase
  have hheld := (hs.context c stackbase).mpr ⟨stacksize, hcontext⟩
  have hne : stackbase ≠ base := by
    rintro rfl
    exact nomatch hs.apart.disjoint _ _ _ hheld hbase
  have hwords : 9 * 1 ≤ (index + 1) * page.size.toNat :=
    Nat.mul_le_mul (Nat.succ_le_succ hpool.enough) page.pos
  have hpos := page.pos
  have hpages : (pages + 1) * page.size.toNat = stacksize.toNat + page.size.toNat := by
    rw [hsize, Nat.add_mul, Nat.one_mul]
  by_contra hword
  obtain ⟨hbelow, habove⟩ := not_or.mp hword
  by_cases hle : stackbase ≤ base
  · exact hne (hstack.unique (a := base) hpool ⟨by omega, by omega⟩ ⟨by omega, by omega⟩).1
  · exact hne (hstack.unique (a := stackbase) hpool ⟨by omega, by omega⟩ ⟨by omega, by omega⟩).1

variable [DecidableEq C]

/-- The first stack of a pool is taken out of it. -/
theorem State.Sound.pop (hs : s.Sound page held) (hfirst : s.memory.first index = some stackbase) :
    ∃ rest, held (.pool index) = stackbase :: rest
      ∧ State.Sound page { s with memory := s.memory.pop index stackbase }
        (Function.update held (.pool index) rest) := by
  obtain ⟨rest, hrest, hlinked⟩ := (hfirst ▸ hs.linked index).some_inv
  have hsub {n : Nat} (hn : n ∈ rest) : n ∈ held (.pool index) := by
    rw [hrest]
    exact List.mem_cons_of_mem _ hn
  refine ⟨rest, hrest, ?_, fun c => ?_, hs.sizes, fun index' => ?_, fun index' => ?_, hs.whole⟩
  · exact hs.apart.update (List.nodup_cons.mp (hrest ▸ hs.apart.nodup _)).2 fun _ hn => Or.inl (hsub hn)
  · rw [Function.update_of_ne (by simp)]
    exact hs.context c
  · by_cases hindex : index' = index
    · subst hindex
      rw [Function.update_self]
      exact fun n hn => hs.pool index' n (hsub hn)
    · rw [Function.update_of_ne (mt Holder.pool.inj hindex)]
      exact hs.pool index'
  · by_cases hindex : index' = index
    · subst hindex
      simpa [Memory.pop] using hlinked
    · rw [Function.update_of_ne (mt Holder.pool.inj hindex)]
      simpa [Memory.pop, hindex] using hs.linked index'

/-- A stack that nobody has is put into a pool. -/
theorem State.Sound.push (hs : s.Sound page held) (hnew : ∀ p, stackbase ∉ held p)
    (hstack : Stack page s.memory.mapped stackbase index) :
    State.Sound page { s with memory := s.memory.push index stackbase }
      (Function.update held (.pool index) (stackbase :: held (.pool index))) := by
  have hlinks (index' : Fin 32) : Links.Linked (s.memory.push index stackbase).link
      (s.memory.first index') (held (.pool index')) := by
    refine (hs.linked index').congr fun n hn => ?_
    have hne : n ≠ stackbase := by
      rintro rfl
      exact hnew _ hn
    simp [Memory.push, hne]
  refine ⟨?_, fun c => ?_, hs.sizes, fun index' => ?_, fun index' => ?_, hs.whole⟩
  · refine hs.apart.update (List.nodup_cons.mpr ⟨hnew _, hs.apart.nodup _⟩) fun n hn => ?_
    obtain rfl | hn := List.mem_cons.mp hn
    · exact Or.inr hnew
    · exact Or.inl hn
  · rw [Function.update_of_ne (by simp)]
    exact hs.context c
  · by_cases hindex : index' = index
    · subst hindex
      rw [Function.update_self]
      intro n hn
      obtain rfl | hn := List.mem_cons.mp hn
      · exact hstack
      · exact hs.pool index' n hn
    · rw [Function.update_of_ne (mt Holder.pool.inj hindex)]
      exact hs.pool index'
  · by_cases hindex : index' = index
    · subst hindex
      rw [Function.update_self]
      simpa [Memory.push] using hlinks index'
    · rw [Function.update_of_ne (mt Holder.pool.inj hindex)]
      simpa [Memory.push, hindex] using hlinks index'

/-- A context gets a stack that nobody has. -/
theorem State.Sound.take (hs : s.Sound page held) (hnew : ∀ p, stackbase ∉ held p)
    (hcontext : s.contexts c = none) (hsize : stacksize.toNat = pages * page.size.toNat)
    (hlength : (stacksize + 2 * page.size).toNat = (pages + 2) * page.size.toNat)
    (hstack : Stack page s.memory.mapped stackbase pages) :
    State.Sound page (s.set s.memory c (some ⟨some stackbase, stacksize⟩))
      (Function.update held (.context c) [stackbase]) := by
  refine ⟨?_, fun c' base => ?_, fun c' base size hc => ?_, fun index => ?_, fun index => ?_,
    hs.whole⟩
  · refine hs.apart.update (List.nodup_singleton _) fun n hn => Or.inr ?_
    rw [List.mem_singleton.mp hn]
    exact hnew
  · by_cases hc : c' = c
    · subst hc
      simp [State.set, eq_comm]
    · rw [Function.update_of_ne (mt Holder.context.inj hc)]
      simpa [State.set, hc] using hs.context c' base
  · by_cases hne : c' = c
    · subst hne
      simp only [State.set, Function.update_self, Option.some_inj, Context.mk.injEq] at hc
      obtain ⟨rfl, rfl⟩ := hc
      exact ⟨pages, hsize, hlength, hstack⟩
    · simp only [State.set, Function.update_of_ne hne] at hc
      exact hs.sizes c' base size hc
  · rw [Function.update_of_ne (by simp)]
    exact hs.pool index
  · rw [Function.update_of_ne (by simp)]
    exact hs.linked index

/-- A context without a stack comes, or one with a stack goes. -/
theorem State.Sound.drop (hs : s.Sound page held) {context : Option Context}
    (hcontext : ∀ stackbase stacksize, context ≠ some ⟨some stackbase, stacksize⟩) :
    State.Sound page (s.set s.memory c context) (Function.update held (.context c) []) := by
  refine ⟨?_, fun c' base => ?_, fun c' base size hc => ?_, fun index => ?_, fun index => ?_,
    hs.whole⟩
  · exact hs.apart.update List.nodup_nil fun n hn => absurd hn List.not_mem_nil
  · by_cases hc : c' = c
    · subst hc
      simp [State.set, hcontext]
    · rw [Function.update_of_ne (mt Holder.context.inj hc)]
      simpa [State.set, hc] using hs.context c' base
  · by_cases hne : c' = c
    · subst hne
      simp only [State.set, Function.update_self] at hc
      exact absurd hc (hcontext base size)
    · simp only [State.set, Function.update_of_ne hne] at hc
      exact hs.sizes c' base size hc
  · rw [Function.update_of_ne (by simp)]
    exact hs.pool index
  · rw [Function.update_of_ne (by simp)]
    exact hs.linked index

theorem State.Sound.step {s' : State C} {label : Label C} (hs : s.Sound page held)
    (hstep : s.Step page label s') : ∃ held, s'.Sound page held := by
  cases hstep with
  | createThread hnew => exact ⟨_, hs.drop fun _ _ => by simp⟩
  | @create c addstack lowPage m stackbase stacksize hnew hfits hmmap hmstack =>
      obtain ⟨pages, hpages, hsize, hlength, ⟨index, rfl, hfirst, rfl⟩ | ⟨rfl, rfl, rfl⟩⟩ :=
        mstack_cases hfits hmstack
      · obtain ⟨rest, hrest, hpop⟩ := hs.pop hfirst
        have hheld : stackbase ∈ held (.pool index) := hrest ▸ List.mem_cons_self
        have hnot : stackbase ∉ rest := (List.nodup_cons.mp (hrest ▸ hs.apart.nodup _)).1
        exact ⟨_, hpop.take (hs.apart.not_mem_update hheld hnot) hnew hsize hlength
          (hs.pool index stackbase hheld)⟩
      · have hstack := s.memory.stack_of_mapStack lowPage hpages hsize hlength
        refine ⟨_, (hs.mapStack hsize hlength hmmap).take (fun p hheld => ?_) hnew hsize hlength
          hstack⟩
        obtain ⟨pages', hstack'⟩ := hs.stack hheld
        have hmapped := hstack'.mapped (lowPage + page.size.toNat) (Nat.sub_le _ _)
          (Nat.lt_add_of_pos_right (Nat.mul_pos (Nat.succ_pos _) page.pos))
        refine Option.some_ne_none _ (hmapped.symm.trans (hmmap.disjoint _ (Nat.le_add_right _ _) ?_))
        rw [hlength, Nat.add_lt_add_iff_left]
        exact lt_mul_of_one_lt_left page.pos (by omega)
  | @destroyThread c stacksize hcontext => exact ⟨_, hs.drop (c := c) fun _ _ => by simp⟩
  | @destroy c stackbase stacksize hcontext =>
      obtain ⟨pages, hsize, hlength, hstack⟩ := hs.sizes c stackbase stacksize hcontext
      have hdrop : (s.set s.memory c none).Sound page _ := hs.drop fun _ _ => by simp
      have hheld := (hs.context c stackbase).mpr ⟨stacksize, hcontext⟩
      have hnew := hs.apart.not_mem_update hheld List.not_mem_nil
      obtain ⟨index, rfl, hmunstack⟩ | ⟨-, hmunstack⟩ := munstack_cases s.memory hsize
      · rw [hmunstack]
        exact ⟨_, hdrop.push hnew hstack⟩
      · rw [hmunstack]
        exact ⟨_, hdrop.munmap hnew hstack hlength⟩
  | write hcontext hlink => exact ⟨held, hs.write hcontext hlink⟩

theorem sound_of_reachable (hs : (system page).Reachable s) : ∃ held, s.Sound page held := by
  refine hs.invariant (P := fun s => ∃ held, s.Sound page held) ?_
    fun _ _ _ _ ⟨_, hs⟩ hstep => hs.step hstep
  rintro _ rfl
  refine ⟨fun _ => [], ⟨fun _ => List.nodup_nil, fun _ _ _ hn => absurd hn List.not_mem_nil⟩,
    fun c base => ?_, fun c base size hc => ?_, fun index base hbase => ?_, fun index => rfl,
    fun a mapping ha => ?_⟩
  · simp
  · exact nomatch hc
  · exact absurd hbase List.not_mem_nil
  · exact nomatch ha

/-! ### Stacks are not shared -/

end

/-- The addresses of a stack. -/
def stackRegion (stackbase stacksize : Nat) : Set Nat := Set.Ico stackbase (stackbase + stacksize)

variable (page)

/-- The addresses of the two guard pages of a stack. -/
def guardRegion (stackbase stacksize : Nat) : Set Nat :=
  Set.Ico (stackbase - page.size.toNat) stackbase
    ∪ Set.Ico (stackbase + stacksize) (stackbase + stacksize + page.size.toNat)

/-- A stack has a mapping of its own, that consists of its pages and of its guard pages. -/
structure MappedWith (m : Memory) (stackbase stacksize : Nat) : Prop where
  guard : page.size.toNat ≤ stackbase
  mapped : ∀ a access, m.mapped a
      = some ⟨stackbase - page.size.toNat, stacksize + 2 * page.size.toNat, access⟩
    ↔ (access = true ∧ a ∈ stackRegion stackbase stacksize)
      ∨ (access = false ∧ a ∈ guardRegion page stackbase stacksize)

variable {page}

section MappedWith

variable {m : Memory} {stackbase stackbase' stacksize stacksize' : Nat}

theorem MappedWith.of_stack {pages : Nat} (hstack : Stack page m.mapped stackbase pages)
    (hwhole : ∀ a mapping, m.mapped a = some mapping →
      mapping.low ≤ a ∧ a < mapping.low + mapping.length) :
    MappedWith page m stackbase (pages * page.size.toNat) := by
  have hguard := hstack.guard
  have hlength := Nat.add_mul pages 2 page.size.toNat
  have hlast := Nat.add_mul pages 1 page.size.toNat
  refine ⟨hguard, fun a access => ?_⟩
  rw [← hlength, stackRegion, guardRegion, Set.mem_union, Set.mem_Ico, Set.mem_Ico, Set.mem_Ico]
  constructor
  · intro ha
    obtain ⟨hle, hlt⟩ := hwhole a _ ha
    dsimp only at hle hlt
    have heq := (hstack.mapped a hle (by omega)).symm.trans ha
    rw [Option.some_inj, Mapping.mk.injEq] at heq
    rw [← heq.2.2, decide_eq_true_iff, decide_eq_false_iff_not]
    omega
  · intro ha
    rw [hstack.mapped a (by omega) (by omega), Option.some_inj, Mapping.mk.injEq]
    refine ⟨rfl, rfl, ?_⟩
    obtain ⟨rfl, ha⟩ | ⟨rfl, ha⟩ := ha
    · exact decide_eq_true ha
    · exact decide_eq_false (by omega)

theorem MappedWith.disjoint (h : MappedWith page m stackbase stacksize)
    (h' : MappedWith page m stackbase' stacksize') (hne : stackbase ≠ stackbase') :
    Disjoint (stackRegion stackbase stacksize) (stackRegion stackbase' stacksize') := by
  refine Set.disjoint_left.mpr fun a ha ha' => hne ?_
  have heq := ((h.mapped a true).mpr (Or.inl ⟨rfl, ha⟩)).symm.trans
    ((h'.mapped a true).mpr (Or.inl ⟨rfl, ha'⟩))
  rw [Option.some_inj, Mapping.mk.injEq] at heq
  have hguard := h.guard
  have hguard' := h'.guard
  omega

theorem MappedWith.guard_disjoint (h : MappedWith page m stackbase stacksize)
    (h' : MappedWith page m stackbase' stacksize') :
    Disjoint (stackRegion stackbase stacksize) (guardRegion page stackbase' stacksize') := by
  refine Set.disjoint_left.mpr fun a ha ha' => ?_
  have heq := ((h.mapped a true).mpr (Or.inl ⟨rfl, ha⟩)).symm.trans
    ((h'.mapped a false).mpr (Or.inr ⟨rfl, ha'⟩))
  rw [Option.some_inj, Mapping.mk.injEq] at heq
  exact nomatch heq.2.2

/-- A stack without a pool is unmapped with its guard pages, and nothing else is. -/
theorem munstack_mapped {size : UInt64} {pages : Nat}
    (hstack : Stack page m.mapped stackbase pages)
    (hsize : size.toNat = pages * page.size.toNat)
    (hlength : (size + 2 * page.size).toNat = (pages + 2) * page.size.toNat)
    (hpool : poolIndex page size = none) (a : Nat) :
    (a ∈ stackRegion stackbase size.toNat ∪ guardRegion page stackbase size.toNat →
        (munstack page m stackbase size).mapped a = none)
      ∧ (a ∉ stackRegion stackbase size.toNat ∪ guardRegion page stackbase size.toNat →
        (munstack page m stackbase size).mapped a = m.mapped a) := by
  have hguard := hstack.guard
  have hadd := Nat.add_mul pages 2 page.size.toNat
  rw [munstack, hpool]
  simp only [Memory.munmap, stackRegion, guardRegion, Set.mem_union, Set.mem_Ico]
  exact ⟨fun ha => if_pos (by omega), fun ha => if_neg (by omega)⟩

end MappedWith

theorem stacks_are_never_shared [DecidableEq C] {s : State C} (hs : (system page).Reachable s) :
    ∃ pool : Fin 32 → List Nat,
      (∀ index, Links.Linked s.memory.link (s.memory.first index) (pool index)
        ∧ (pool index).Nodup
        ∧ (∀ index' ≠ index, (pool index).Disjoint (pool index'))
        ∧ ∀ stackbase ∈ pool index,
          MappedWith page s.memory stackbase (index * page.size.toNat))
      ∧ ∀ c stackbase stacksize, s.contexts c = some ⟨some stackbase, stacksize⟩ →
        MappedWith page s.memory stackbase stacksize.toNat
        ∧ (∀ c' ≠ c, ∀ stackbase' stacksize',
          s.contexts c' = some ⟨some stackbase', stacksize'⟩ →
            Disjoint (stackRegion stackbase stacksize.toNat)
              (stackRegion stackbase' stacksize'.toNat))
        ∧ (∀ index, ∀ stackbase' ∈ pool index,
          Disjoint (stackRegion stackbase stacksize.toNat)
            (stackRegion stackbase' (index * page.size.toNat)))
        ∧ (∀ c' stackbase' stacksize', s.contexts c' = some ⟨some stackbase', stacksize'⟩ →
          Disjoint (stackRegion stackbase stacksize.toNat)
            (guardRegion page stackbase' stacksize'.toNat))
        ∧ (∀ index, ∀ stackbase' ∈ pool index,
          Disjoint (stackRegion stackbase stacksize.toNat)
            (guardRegion page stackbase' (index * page.size.toNat)))
        ∧ (poolIndex page stacksize = none → ∀ a,
          (a ∈ stackRegion stackbase stacksize.toNat ∪ guardRegion page stackbase stacksize.toNat →
            (munstack page s.memory stackbase stacksize).mapped a = none)
          ∧ (a ∉ stackRegion stackbase stacksize.toNat ∪ guardRegion page stackbase stacksize.toNat →
            (munstack page s.memory stackbase stacksize).mapped a = s.memory.mapped a)) := by
  obtain ⟨held, hs⟩ := sound_of_reachable hs
  have hpooled (index : Fin 32) (stackbase : Nat) (hbase : stackbase ∈ held (.pool index)) :
      MappedWith page s.memory stackbase (index * page.size.toNat) :=
    .of_stack (hs.pool index stackbase hbase) hs.whole
  have hlive {c : C} {stackbase : Nat} {stacksize : UInt64}
      (hc : s.contexts c = some ⟨some stackbase, stacksize⟩) :
      MappedWith page s.memory stackbase stacksize.toNat := by
    obtain ⟨pages, hsize, -, hstack⟩ := hs.sizes c stackbase stacksize hc
    exact hsize ▸ .of_stack hstack hs.whole
  refine ⟨fun index => held (.pool index), fun index => ⟨hs.linked index, hs.apart.nodup _,
    fun index' hne n hn hn' => ?_, hpooled index⟩, fun c stackbase stacksize hc => ?_⟩
  · exact hne (Holder.pool.inj (hs.apart.disjoint _ _ _ hn' hn))
  have hheld := (hs.context c stackbase).mpr ⟨stacksize, hc⟩
  refine ⟨hlive hc, fun c' hne base' size' hc' => (hlive hc).disjoint (hlive hc') ?_,
    fun index base' hbase' => (hlive hc).disjoint (hpooled index base' hbase') ?_,
    fun c' base' size' hc' => (hlive hc).guard_disjoint (hlive hc'),
    fun index base' hbase' => (hlive hc).guard_disjoint (hpooled index base' hbase'),
    fun hpool a => ?_⟩
  · rintro rfl
    have hheld' := (hs.context c' stackbase).mpr ⟨size', hc'⟩
    exact hne (Holder.context.inj (hs.apart.disjoint _ _ _ hheld' hheld))
  · rintro rfl
    exact nomatch hs.apart.disjoint _ _ _ hheld hbase'
  · obtain ⟨pages, hsize, hlength, hstack⟩ := hs.sizes c stackbase stacksize hc
    exact munstack_mapped hstack hsize hlength hpool a

/-- A page of 4096 bytes. -/
def PageSize.default : PageSize := ⟨4096, 12, rfl⟩

/-- Of two contexts the first is destroyed, and created once more. -/
theorem stacks_are_never_shared_reused :
    ∃ s : State Bool, (system .default).Reachable s
      ∧ s.contexts true = some ⟨some 8192, 32768⟩
      ∧ s.contexts false = some ⟨some 1052672, 36864⟩
      ∧ Disjoint (stackRegion 8192 32768) (stackRegion 1052672 36864) := by
  let m := Memory.empty.mapStack .default 4096 32768
  let m' := (m.mapStack .default 1048576 36864).push 8 8192
  have hsize : (32768 : UInt64).toNat = 8 * PageSize.default.size.toNat := rfl
  have hsize' : (36864 : UInt64).toNat = 9 * PageSize.default.size.toNat := rfl
  have hm (a : Nat) (ha : 45056 ≤ a) : m.mapped a = none :=
    (Memory.empty.mapStack_mapped 4096 hsize rfl a).trans (if_neg fun hmem => hmem.2.not_ge ha)
  have hm' (a : Nat) (ha : 1093632 ≤ a) : m'.mapped a = none :=
    ((m.mapStack_mapped 1048576 hsize' rfl a).trans
      (if_neg fun hmem => hmem.2.not_ge ha)).trans (hm a (le_trans (by decide) ha))
  have h0 : (system .default).Reachable (⟨.empty, fun _ => none⟩ : State Bool) := .of_init rfl
  have h1 := h0.step (.create (c := true) rfl (by decide : Fits .default 0)
    (⟨by decide, fun _ _ _ => rfl⟩ : Unmapped .default .empty 4096 _)
    (rfl : mstack .default .empty 0 4096 = (m, 8192, 32768)))
  have h2 := h1.step (.create (c := false) rfl (by decide : Fits .default 1)
    (⟨by decide, fun a ha _ => hm a (le_trans (by decide) ha)⟩ : Unmapped .default m 1048576 _)
    (rfl : mstack .default m 1 1048576 = (m.mapStack .default 1048576 36864, 1052672, 36864)))
  have h3 := h2.step (.destroy (c := true) rfl)
  have h4 := h3.step (.create (c := true) rfl (by decide : Fits .default 0)
    (⟨by decide, fun a ha _ => hm' a (le_trans (by decide) ha)⟩ : Unmapped .default m' 2097152 _)
    (rfl : mstack .default m' 0 2097152 = (m'.pop 8 8192, 8192, 32768)))
  obtain ⟨pool, -, hcontexts⟩ := stacks_are_never_shared h4
  exact ⟨_, h4, rfl, rfl, (hcontexts true 8192 32768 rfl).2.1 false Bool.noConfusion _ _ rfl⟩

end Stp.Stacks
