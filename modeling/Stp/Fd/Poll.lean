import Stp.Fd.Backends
import Stp.Library.Transition

/-!
# The epoll backend at work

The poll thread fetches a batch of events, then takes them from the back, reads the two fields of
the filter each one points to, and sends a response. Meanwhile processes call `fd::wait`, are sent
responses, exit, and close descriptors; which events are ready, and whom a response still finds, is
left open. At most one call at a time is on a descriptor and direction, from its start to its
`EPOLL_CTL_DEL`, and its session is not in use.

The fields `registrant`, `sent` and `returned` and the numbers of calls that events and responses
carry are not in the program: they say which call an event is of, and what came of it.
-/

namespace Stp.Fd.Poll

/-- Where a call of `fd::wait` stands. -/
inductive Phase where
  | called
  | sourced
  | named
  | waiting
  | leaving
  | done
deriving DecidableEq, Repr

structure Call where
  wait : Wait
  phase : Phase
deriving DecidableEq, Repr

def Call.ptr (c : Call) : FilterPtr := selectFilter c.wait.fd c.wait.event

def Call.names (c : Call) : Filter := ⟨c.wait.pid, c.wait.session⟩

structure Fetched where
  ptr : FilterPtr
  call : Nat
deriving DecidableEq, Repr

structure Response where
  pid : ProcessT
  session : SessionT
  call : Nat
deriving DecidableEq, Repr

structure State where
  epoll : Epoll
  registrant : Table Nat
  call : Nat → Call
  created : Nat
  batch : List Fetched
  reading : Option (Fetched × ProcessT)
  exiting : ProcessT → Bool
  mail : List Response
  sent : List Response
  returned : List (Nat × Nat)

def State.fresh : State where
  epoll := { filters := fun _ => ⟨0, 0⟩, interest := fun _ _ => none }
  registrant _ _ := 0
  call _ := ⟨⟨0, 0, 0, .kRead⟩, .done⟩
  created := 0
  batch := []
  reading := none
  exiting _ := false
  mail := []
  sent := []
  returned := []

def State.setPhase (s : State) (i : Nat) (phase : Phase) : State :=
  { s with call := Function.update s.call i { s.call i with phase } }

def State.setFilter (s : State) (ptr : FilterPtr) (filter : Filter) : State :=
  { s with epoll := s.epoll.setFilter ptr filter }

/-! ### The steps of a call -/

def State.start (s : State) (wait : Wait) : State :=
  { s with call := Function.update s.call s.created ⟨wait, .called⟩, created := s.created + 1 }

/-- `fi->source = ...`. -/
def State.writeSource (s : State) (i : Nat) : State :=
  let c := s.call i
  (s.setFilter c.ptr { s.epoll.filters c.ptr with source := c.wait.pid }).setPhase i .sourced

/-- `fi->session = ...`. -/
def State.writeSession (s : State) (i : Nat) : State :=
  let c := s.call i
  (s.setFilter c.ptr { s.epoll.filters c.ptr with session := c.wait.session }).setPhase i .named

/-- `EPOLL_CTL_ADD`, after which the call blocks, or throws. -/
def State.add (s : State) (i : Nat) (fails : Bool) : State :=
  let wait := (s.call i).wait
  match s.epoll.add wait.event wait.fd (s.call i).ptr fails with
  | some epoll =>
    { s.setPhase i .waiting with
      epoll
      registrant := s.registrant.set wait.event wait.fd i }
  | none => s.setPhase i .done

/-- `EPOLL_CTL_DEL`, on the way out. -/
def State.leave (s : State) (i : Nat) : State :=
  { s.setPhase i .done with epoll := s.epoll.del (s.call i).wait.event (s.call i).wait.fd }

/-- The kernel drops the registrations of a descriptor that is closed. -/
def State.close (s : State) (fd : Descriptor) : State :=
  { s with epoll := (s.epoll.del .kRead fd).del .kWrite fd }

/-! ### The steps of the poll thread -/

def State.Armed (s : State) (event : Event) (fd : Descriptor) : Prop :=
  ∃ entry, s.epoll.interest event fd = some entry ∧ entry.armed = true

/-- `epoll_wait` on one of the two instances disarms what it reports. -/
def State.fetch (s : State) (event : Event) (fds : List Descriptor) : State :=
  { s with
    batch := fds.filterMap fun fd =>
      (s.epoll.interest event fd).map fun entry => ⟨entry.ptr, s.registrant event fd⟩
    epoll := { s.epoll with
      interest := fun event' fd =>
        if event' = event ∧ fd ∈ fds then
          (s.epoll.interest event' fd).map fun entry => { entry with armed := false }
        else s.epoll.interest event' fd } }

def State.readSource (s : State) (rest : List Fetched) (f : Fetched) : State :=
  { s with batch := rest, reading := some (f, (s.epoll.filters f.ptr).source) }

/-- `process::response`, with the session as it is read now. -/
def State.respond (s : State) (f : Fetched) (source : ProcessT) : State :=
  let r : Response := ⟨source, (s.epoll.filters f.ptr).session, f.call⟩
  { s with reading := none, mail := s.mail ++ [r], sent := s.sent ++ [r] }

/-! ### The system -/

/-- The events the poll thread holds. -/
def State.held (s : State) : List Fetched := s.batch ++ (s.reading.map Prod.fst).toList

def Phase.Active : Phase → Prop
  | .done => False
  | _ => True

inductive Label where
  | tau
  /-- The call writes to its filter. -/
  | write (i : Nat)

inductive Step (s : State) : Label → State → Prop
  | start (wait : Wait) (hsession : wait.session ≠ 0)
      (hnew : ∀ i, (s.call i).phase.Active → (s.call i).wait.key ≠ wait.key)
      (hslot : ∀ i, (s.call i).phase.Active → (s.call i).ptr ≠ selectFilter wait.fd wait.event) :
      Step s .tau (s.start wait)
  | writeSource (i : Nat) (hphase : (s.call i).phase = .called) :
      Step s (.write i) (s.writeSource i)
  | writeSession (i : Nat) (hphase : (s.call i).phase = .sourced) :
      Step s (.write i) (s.writeSession i)
  | add (i : Nat) (fails : Bool) (hphase : (s.call i).phase = .named) : Step s .tau (s.add i fails)
  | leave (i : Nat) (hphase : (s.call i).phase = .leaving) : Step s .tau (s.leave i)
  | close (fd : Descriptor) : Step s .tau (s.close fd)
  -- a process takes a response, or exits and interrupts its calls
  | deliver (r : Response) (before after : List Response) (i : Nat)
      (hmail : s.mail = before ++ r :: after) (hrunning : s.exiting r.pid = false)
      (hphase : (s.call i).phase = .waiting) (hkey : (s.call i).wait.key = (r.pid, r.session)) :
      Step s .tau
        { s.setPhase i .leaving with
          mail := before ++ after
          returned := s.returned ++ [(i, r.call)] }
  | drop (r : Response) (before after : List Response) (hmail : s.mail = before ++ r :: after)
      (hnone : ∀ i, (s.call i).phase = .waiting → (s.call i).wait.key ≠ (r.pid, r.session)) :
      Step s .tau { s with mail := before ++ after }
  | exit (pid : ProcessT) : Step s .tau { s with exiting := Function.update s.exiting pid true }
  | interrupt (i : Nat) (hphase : (s.call i).phase = .waiting)
      (hexiting : s.exiting (s.call i).wait.pid = true) : Step s .tau (s.setPhase i .leaving)
  -- the poll thread
  | fetch (event : Event) (fds : List Descriptor) (hnodup : fds.Nodup)
      (harmed : ∀ fd ∈ fds, s.Armed event fd) (hbatch : s.batch = []) (hreading : s.reading = none) :
      Step s .tau (s.fetch event fds)
  | readSource (rest : List Fetched) (f : Fetched) (hbatch : s.batch = rest ++ [f])
      (hreading : s.reading = none) : Step s .tau (s.readSource rest f)
  | respond (f : Fetched) (source : ProcessT) (hreading : s.reading = some (f, source)) :
      Step s .tau (s.respond f source)

def system : Transition.System State Label where
  init s := s = .fresh
  step := Step

end Stp.Fd.Poll
