import Mathlib
import Stp.Types

/-!
# The poll backends

`fd::wait` registers a descriptor with the kernel and blocks on a session; the poll thread answers
an event to the process and the session the registration names.

With epoll the registration holds a pointer to a filter, one filter for each descriptor and
direction, and the filter holds the names. A filter is written before the descriptor is added, which
the kernel refuses for a descriptor that is there already. With kqueue the registration holds the
names itself, packed in one word, and adding it again replaces them. Both calls may fail for reasons
of the kernel's own, which is the flag `fails`.
-/

namespace Stp.Fd

inductive Event where
  | kRead
  | kWrite
deriving DecidableEq, Repr

def segmentSize : Nat := 16384
def segmentCount : Nat := 256

instance : NeZero (segmentSize * segmentCount) := ⟨by decide⟩

/-- The descriptors that pass the assertion of `fdset::selectFilter`. -/
abbrev Descriptor := Fin (segmentSize * segmentCount)

structure Wait where
  pid : ProcessT
  session : SessionT
  fd : Descriptor
  event : Event
deriving DecidableEq, Repr

def Wait.key (wait : Wait) : ProcessT × SessionT := (wait.pid, wait.session)

/-- An entry for each direction and descriptor. -/
abbrev Table (α : Type*) := Event → Descriptor → α

def Table.set {α : Type*} (table : Table α) (event : Event) (fd : Descriptor) (entry : α) :
    Table α :=
  Function.update table event (Function.update (table event) fd entry)

@[simp]
theorem Table.set_self {α : Type*} (table : Table α) (event : Event) (fd : Descriptor)
    (entry : α) : table.set event fd entry event fd = entry := by
  rw [Table.set, Function.update_self, Function.update_self]

theorem Table.set_of_ne {α : Type*} (table : Table α) {event event' : Event}
    {fd fd' : Descriptor} (entry : α) (hne : ¬ (event' = event ∧ fd' = fd)) :
    table.set event fd entry event' fd' = table event' fd' := by
  by_cases hevent : event' = event
  · subst hevent
    rw [Table.set, Function.update_self]
    exact Function.update_of_ne (fun h => hne ⟨rfl, h⟩) _ _
  · rw [Table.set, Function.update_of_ne hevent]

/-! ### epoll -/

structure Filter where
  source : ProcessT
  session : SessionT
deriving DecidableEq, Repr

def Filter.key (filter : Filter) : ProcessT × SessionT := (filter.source, filter.session)

/-- The place of a filter in `FDSET`: its segment, and its descriptor and direction there. -/
structure FilterPtr where
  segment : Fin segmentCount
  index : Fin segmentSize
  mode : Event
deriving DecidableEq, Repr

def selectFilter (fd : Descriptor) (event : Event) : FilterPtr where
  segment := ⟨fd / segmentSize, Nat.div_lt_of_lt_mul fd.isLt⟩
  index := ⟨fd % segmentSize, Nat.mod_lt _ (by decide)⟩
  mode := event

theorem selectFilter_inj {fd fd' : Descriptor} {event event' : Event} :
    selectFilter fd event = selectFilter fd' event' ↔ fd = fd' ∧ event = event' := by
  constructor
  · intro h
    rw [selectFilter, selectFilter, FilterPtr.mk.injEq, Fin.mk.injEq, Fin.mk.injEq] at h
    obtain ⟨hsegment, hindex, hevent⟩ := h
    refine ⟨Fin.ext ?_, hevent⟩
    calc fd.val = segmentSize * (fd / segmentSize) + fd % segmentSize := (Nat.div_add_mod _ _).symm
      _ = segmentSize * (fd' / segmentSize) + fd' % segmentSize := by rw [hsegment, hindex]
      _ = fd'.val := Nat.div_add_mod _ _
  · rintro ⟨rfl, rfl⟩
    rfl

/-- An entry of one of the two epoll instances. `EPOLLONESHOT` disarms it when it is reported. -/
structure Interest where
  ptr : FilterPtr
  armed : Bool
deriving DecidableEq, Repr

structure Epoll where
  filters : FilterPtr → Filter
  interest : Table (Option Interest)

def Epoll.setFilter (s : Epoll) (ptr : FilterPtr) (filter : Filter) : Epoll :=
  { s with filters := Function.update s.filters ptr filter }

/-- `EPOLL_CTL_ADD`. -/
def Epoll.add (s : Epoll) (event : Event) (fd : Descriptor) (ptr : FilterPtr) (fails : Bool) :
    Option Epoll :=
  if (s.interest event fd).isSome ∨ fails then none
  else some { s with interest := s.interest.set event fd (some ⟨ptr, true⟩) }

/-- `EPOLL_CTL_DEL`. -/
def Epoll.del (s : Epoll) (event : Event) (fd : Descriptor) : Epoll :=
  { s with interest := s.interest.set event fd none }

/-- `fd::wait` up to its block: whether it throws, and what it leaves. -/
def Epoll.wait (s : Epoll) (wait : Wait) (fails : Bool) : Bool × Epoll :=
  let fi := selectFilter wait.fd wait.event
  let s := s.setFilter fi ⟨wait.pid, wait.session⟩
  match s.add wait.event wait.fd fi fails with
  | some s => (false, s)
  | none => (true, s)

/-- The process and session that an event on the descriptor is answered to. -/
def Epoll.answered (s : Epoll) (event : Event) (fd : Descriptor) : Option (ProcessT × SessionT) :=
  (s.interest event fd).map fun entry => (s.filters entry.ptr).key

/-! ### kqueue -/

/-- The `udata` of a registration. -/
def udata (pid : ProcessT) (session : SessionT) : UInt64 :=
  pid.toUInt64 ||| (session.toUInt64 <<< 32)

/-- The names `kqueue_poll` reads from a `udata`. -/
def udataKey (udata : UInt64) : ProcessT × SessionT := (udata.toUInt32, (udata >>> 32).toUInt32)

theorem udata_toNat (pid : ProcessT) (session : SessionT) :
    (udata pid session).toNat = session.toNat * 2 ^ 32 + pid.toNat := by
  have hpid := pid.toNat_lt
  have hsession := session.toNat_lt
  have hshift : (session.toUInt64 <<< 32).toNat = session.toNat * 2 ^ 32 := by
    rw [UInt64.toNat_shiftLeft, UInt32.toNat_toUInt64, Nat.shiftLeft_eq]
    refine Nat.mod_eq_of_lt ?_
    change _ * 2 ^ 32 < _
    omega
  rw [udata, UInt64.toNat_or, hshift, UInt32.toNat_toUInt64, Nat.or_comm, Nat.mul_comm,
    ← Nat.two_pow_add_eq_or_of_lt hpid]

@[simp]
theorem udataKey_udata (pid : ProcessT) (session : SessionT) :
    udataKey (udata pid session) = (pid, session) := by
  have hpid := pid.toNat_lt
  have hsession := session.toNat_lt
  refine Prod.ext (UInt32.toNat_inj.mp ?_) (UInt32.toNat_inj.mp ?_)
  · change (udata pid session).toUInt32.toNat = pid.toNat
    rw [UInt64.toNat_toUInt32, udata_toNat]
    omega
  · change (udata pid session >>> 32).toUInt32.toNat = session.toNat
    rw [UInt64.toNat_toUInt32, UInt64.toNat_shiftRight, udata_toNat, Nat.shiftRight_eq_div_pow]
    change (_ / 2 ^ 32) % _ = _
    omega

structure Kqueue where
  knotes : Table (Option UInt64)

/-- `fd::wait` up to its block. `EV_ADD` replaces a registration. -/
def Kqueue.wait (s : Kqueue) (wait : Wait) (fails : Bool) : Bool × Kqueue :=
  if fails then (true, s)
  else (false, ⟨s.knotes.set wait.event wait.fd (some (udata wait.pid wait.session))⟩)

def Kqueue.answered (s : Kqueue) (event : Event) (fd : Descriptor) :
    Option (ProcessT × SessionT) := (s.knotes event fd).map udataKey

end Stp.Fd
