import Mathlib.Data.List.Induction
import Mathlib.Tactic.SplitIfs

/-!
# Listening and connecting

`listen` and `connect` try the addresses that `getaddrinfo` has returned, one after the other. What
the system calls on an address do is given with the address. The world is what a call of either
function has to clean up: the descriptors it has opened and not closed, the latest first, and how
often the list of addresses has been freed. A failed assertion, and a null pointer for a list, give
no result.
-/

namespace Stp.Tcp

abbrev Fd := Nat

/-- What `errno` is after a call has failed. -/
abbrev Errno := { e : Int // e ≠ 0 }

structure World where
  fds : List Fd
  freed : Nat
deriving DecidableEq, Repr

def World.empty : World where
  fds := []
  freed := 0

def World.opened (w : World) (fd : Fd) : World := { w with fds := fd :: w.fds }

def World.close (w : World) (fd : Fd) : World := { w with fds := w.fds.erase fd }

/-- `freeaddrinfo`. -/
def World.freeaddrinfo (w : World) : World := { w with freed := w.freed + 1 }

@[simp] theorem World.close_opened (w : World) (fd : Fd) : (w.opened fd).close fd = w := by
  rw [World.close, World.opened, List.erase_cons_head]

/-! ### listen -/

/-- The system calls of `listen` on an address, each with the error it fails with. -/
structure ListenCalls where
  socket : Except Errno Fd
  setsockopt : Option Errno
  bind : Option Errno
  listen : Option Errno
  close : Option Errno

inductive ListenError where
  | system (lastErrno : Int)
  | ambiguousAddress
deriving DecidableEq, Repr

/-- The first of the calls after `socket` that fails. -/
def ListenCalls.failure (ai : ListenCalls) : Option Errno :=
  ai.setsockopt <|> ai.bind <|> ai.listen

/-- The loop of `listen`: the sockets that are listening and the last error. -/
def listenLoop : List ListenCalls → (sockets : List Fd) → (lastErrno : Int) → World →
    List Fd × Int × World
  | [], sockets, lastErrno, w => (sockets, lastErrno, w)
  | ai :: ais, sockets, lastErrno, w =>
      if sockets.length < 2 then
        match ai.socket with
        | .error e => listenLoop ais sockets e w
        | .ok fd =>
            match ai.failure with
            | none => listenLoop ais (sockets ++ [fd]) lastErrno (w.opened fd)
            | some e =>
                -- `errno` is that of the call that failed, unless closing the socket fails as well
                listenLoop ais sockets (ai.close.getD e) ((w.opened fd).close fd)
      else (sockets, lastErrno, w)

/-- `_closen`, from the last one on. -/
def closen (fds : List Fd) (w : World) : World := fds.foldr (fun fd w => w.close fd) w

def listen (ais : List ListenCalls) : Option (Except ListenError Fd × World) :=
  let (sockets, lastErrno, w) := listenLoop ais [] 0 .empty
  let w := w.freeaddrinfo
  match sockets with
  | [] => if lastErrno ≠ 0 then some (.error (.system lastErrno), w) else none
  | [fd] => some (.ok fd, w)
  | fds => some (.error .ambiguousAddress, closen fds w)

/-- The socket of an address that could be opened, bound and listened on. -/
def ListenCalls.listening (ai : ListenCalls) : Option Fd :=
  match ai.socket, ai.failure with
  | .ok fd, none => some fd
  | _, _ => none

/-! ### connect -/

/-- The system calls of `connect` on an address, and whether `fd::wait` throws. -/
structure ConnectCalls where
  socket : Except Errno Fd
  connect : Option Errno
  waitThrows : Bool
  getsockopt : Except Errno Int

/-- `_getsockerr`. -/
def ConnectCalls.getsockerr (ai : ConnectCalls) : Int :=
  match ai.getsockopt with
  | .error e => e
  | .ok err => err

/-- How `connect` is left. -/
inductive Exit where
  | returned (fd : Fd)
  | failed (lastErrno : Int)
  | thrown
deriving DecidableEq, Repr

/-- The error of a connect that has not even begun: `e != 0 && errno != EINPROGRESS`. -/
def ConnectCalls.refusal (EINPROGRESS : Errno) (ai : ConnectCalls) : Option Errno :=
  ai.connect.filter fun e => e ≠ EINPROGRESS

/-- The loop of `connect`. Every way out of its body but the return of the descriptor destroys
`wildfd`, which closes it. -/
def connectLoop (EINPROGRESS : Errno) :
    List ConnectCalls → (lastErrno : Int) → World → Option (Exit × World)
  | [], lastErrno, w => if lastErrno ≠ 0 then some (.failed lastErrno, w) else none
  | ai :: ais, _, w =>
      match ai.socket with
      | .error e => connectLoop EINPROGRESS ais e w
      | .ok rawfd =>
          let w := w.opened rawfd
          match ai.refusal EINPROGRESS with
          | some e => connectLoop EINPROGRESS ais e (w.close rawfd)
          | none =>
              if ai.waitThrows then some (.thrown, w.close rawfd)
              else if ai.getsockerr ≠ 0 then
                connectLoop EINPROGRESS ais ai.getsockerr (w.close rawfd)
              else some (.returned rawfd, w)

def connect (EINPROGRESS : Errno) : List ConnectCalls → Option (Exit × World)
  | [] => none
  | ais => (connectLoop EINPROGRESS ais 0 .empty).map fun (exit, w) => (exit, w.freeaddrinfo)

/-- What becomes of an address: it is left for the next one, or how `connect` is left at it. -/
def ConnectCalls.verdict (EINPROGRESS : Errno) (ai : ConnectCalls) : Option Exit :=
  match ai.socket, ai.refusal EINPROGRESS with
  | .ok fd, none =>
      if ai.waitThrows then some .thrown
      else if ai.getsockerr = 0 then some (.returned fd)
      else none
  | _, _ => none

/-- The connect of an address is completed or in progress, and followed by a zero `SO_ERROR`. -/
structure ConnectCalls.Connects (EINPROGRESS : Errno) (ai : ConnectCalls) (fd : Fd) : Prop where
  socket : ai.socket = .ok fd
  connect : ai.connect = none ∨ ai.connect = some EINPROGRESS
  wait : ai.waitThrows = false
  getsockerr : ai.getsockerr = 0

/-- `fd::wait` throws when the connect of an address is completed or in progress. -/
structure ConnectCalls.Throws (EINPROGRESS : Errno) (ai : ConnectCalls) : Prop where
  socket : ∃ fd, ai.socket = .ok fd
  connect : ai.connect = none ∨ ai.connect = some EINPROGRESS
  wait : ai.waitThrows = true

/-- An address is left for the next one. -/
def ConnectCalls.Passed (EINPROGRESS : Errno) (ai : ConnectCalls) : Prop :=
  (∀ fd, ¬ ai.Connects EINPROGRESS fd) ∧ ¬ ai.Throws EINPROGRESS

/-- The descriptors that are open after an exit. -/
def Exit.fds : Exit → List Fd
  | .returned fd => [fd]
  | .failed _ | .thrown => []

/-! ### What is left and what is returned -/

/-- What `listen` leaves open is what it returns. It succeeds if exactly one address could be opened,
bound and listened on, and its error tells none from many. -/
structure ListenOutcome (ais : List ListenCalls) (result : Except ListenError Fd) (w : World) :
    Prop where
  freed : w.freed = 1
  fds : w.fds = match result with
    | .ok fd => [fd]
    | .error _ => []
  ok : ∀ fd, result = .ok fd ↔ ais.filterMap ListenCalls.listening = [fd]
  ambiguous : result = .error .ambiguousAddress ↔ 2 ≤ (ais.filterMap ListenCalls.listening).length
  system : (∃ e, e ≠ 0 ∧ result = .error (.system e)) ↔ ais.filterMap ListenCalls.listening = []

/-- What `connect` leaves open is what it returns. It is left at the first address that connects or
throws, and with an error if there is none. -/
structure ConnectOutcome (EINPROGRESS : Errno) (ais : List ConnectCalls) (exit : Exit) (w : World) :
    Prop where
  freed : w.freed = 1
  fds : w.fds = exit.fds
  returned : ∀ fd, exit = .returned fd ↔ ∃ before ai after, ais = before ++ ai :: after
    ∧ ai.Connects EINPROGRESS fd ∧ ∀ earlier ∈ before, earlier.Passed EINPROGRESS
  thrown : exit = .thrown ↔ ∃ before ai after, ais = before ++ ai :: after
    ∧ ai.Throws EINPROGRESS ∧ ∀ earlier ∈ before, earlier.Passed EINPROGRESS
  failed : (∃ e, e ≠ 0 ∧ exit = .failed e) ↔ ∀ ai ∈ ais, ai.Passed EINPROGRESS

section Listen

variable {ai : ListenCalls} {ais : List ListenCalls} {sockets : List Fd} {lastErrno : Int} {w : World}

theorem listenLoop_listening {fd : Fd} (hlt : sockets.length < 2) (hai : ai.listening = some fd) :
    listenLoop (ai :: ais) sockets lastErrno w
      = listenLoop ais (sockets ++ [fd]) lastErrno (w.opened fd) := by
  rw [ListenCalls.listening] at hai
  split at hai
  · next hsocket hfailure =>
      obtain rfl := Option.some_inj.mp hai
      rw [listenLoop, if_pos hlt, hsocket]
      simp only [hfailure]
  · exact absurd hai (Option.some_ne_none fd).symm

theorem listenLoop_failing (hlt : sockets.length < 2) (hai : ai.listening = none) :
    ∃ e : Errno, listenLoop (ai :: ais) sockets lastErrno w = listenLoop ais sockets e w := by
  rw [listenLoop, if_pos hlt]
  rw [ListenCalls.listening] at hai
  cases hsocket : ai.socket with
  | error e => exact ⟨e, rfl⟩
  | ok fd =>
      cases hfailure : ai.failure with
      | none => exact absurd hai (by simp [hsocket, hfailure])
      | some e => exact ⟨ai.close.getD e, by simp only [World.close_opened]⟩

/-- What is open after the loop are the first two sockets that listen, and there is an error if
there are none. -/
theorem listenLoop_eq (hw : w.fds = sockets.reverse) (hsockets : sockets.length ≤ 2)
    {taken : List Fd} (htaken : taken = (sockets ++ ais.filterMap ListenCalls.listening).take 2) :
    ∃ lastErrno', listenLoop ais sockets lastErrno w
        = (taken, lastErrno', { w with fds := taken.reverse })
      ∧ (lastErrno ≠ 0 ∨ ais ≠ [] → taken = [] → lastErrno' ≠ 0) := by
  subst htaken
  induction ais generalizing sockets lastErrno w with
  | nil =>
      rw [List.filterMap_nil, List.append_nil, List.take_of_length_le hsockets, ← hw]
      exact ⟨lastErrno, rfl, fun hlast _ => hlast.resolve_right (absurd rfl)⟩
  | cons ai ais ih =>
      by_cases hlt : sockets.length < 2
      · cases hai : ai.listening with
        | none =>
            obtain ⟨e, heq⟩ : ∃ e : Errno, _ = listenLoop ais sockets e w :=
              listenLoop_failing hlt hai
            rw [heq, List.filterMap_cons_none hai]
            obtain ⟨lastErrno', hloop, hlast⟩ := @ih sockets e w hw hsockets
            exact ⟨lastErrno', hloop, fun _ => hlast (Or.inl e.2)⟩
        | some fd =>
            have hw' : (w.opened fd).fds = (sockets ++ [fd]).reverse := by
              rw [World.opened, hw, List.reverse_concat]
            have hsockets' : (sockets ++ [fd]).length ≤ 2 := by
              rw [List.length_append, List.length_singleton]
              omega
            rw [listenLoop_listening hlt hai, List.filterMap_cons_some hai,
              List.append_cons sockets fd (ais.filterMap ListenCalls.listening)]
            obtain ⟨lastErrno', hloop, -⟩ := @ih (sockets ++ [fd]) lastErrno (w.opened fd) hw' hsockets'
            exact ⟨lastErrno', hloop, fun _ hnil => absurd hnil (by simp)⟩
      · have hlength : sockets.length = 2 := by omega
        rw [listenLoop, if_neg hlt, List.take_left' hlength, ← hw]
        refine ⟨lastErrno, rfl, fun _ hnil => ?_⟩
        rw [hnil] at hlength
        exact absurd hlength (by decide)

theorem closen_reverse (fds : List Fd) (w : World) :
    closen fds { w with fds := fds.reverse } = { w with fds := [] } := by
  induction fds using List.reverseRecOn with
  | nil => rfl
  | append_singleton fds fd ih =>
      rw [closen, List.foldr_append, List.foldr_cons, List.foldr_nil, World.close,
        List.reverse_concat, List.erase_cons_head]
      exact ih

theorem listen_outcome (hais : ais ≠ []) :
    ∃ result w, listen ais = some (result, w) ∧ ListenOutcome ais result w := by
  obtain ⟨lastErrno, hloop, hlast⟩ : ∃ lastErrno, listenLoop ais [] 0 .empty = (_, lastErrno, _)
      ∧ _ := @listenLoop_eq ais [] 0 .empty rfl (Nat.zero_le 2) _ rfl
  rw [List.nil_append] at hloop hlast
  rw [listen, hloop]
  match hfds : ais.filterMap ListenCalls.listening with
  | [] =>
      have hne := hlast (Or.inr hais) (by rw [hfds]; rfl)
      refine ⟨.error (.system lastErrno), _, if_pos hne, rfl, rfl, fun fd => ?_, ?_, ?_⟩
      · simp [hfds]
      · simp [hfds]
      · exact iff_of_true ⟨lastErrno, hne, rfl⟩ hfds
  | [fd] => exact ⟨.ok fd, _, rfl, rfl, rfl, by simp [hfds], by simp [hfds], by simp [hfds]⟩
  | fd :: fd' :: rest =>
      have hclosed := closen_reverse [fd, fd'] ⟨[], 1⟩
      exact ⟨.error .ambiguousAddress, _, rfl, congrArg World.freed hclosed,
        congrArg World.fds hclosed, by simp [hfds], by simp [hfds], by simp [hfds]⟩

end Listen

/-! ### Descriptors and outcomes of connect -/

section Connect

variable {EINPROGRESS : Errno} {ai : ConnectCalls} {ais : List ConnectCalls} {lastErrno : Int}
  {w : World}

theorem ConnectCalls.refusal_eq_none :
    ai.refusal EINPROGRESS = none ↔ ai.connect = none ∨ ai.connect = some EINPROGRESS := by
  rw [ConnectCalls.refusal]
  cases ai.connect <;> simp

theorem ConnectCalls.verdict_of_connecting {fd : Fd} (hsocket : ai.socket = .ok fd)
    (hconnect : ai.connect = none ∨ ai.connect = some EINPROGRESS) :
    ai.verdict EINPROGRESS = if ai.waitThrows then some .thrown
      else if ai.getsockerr = 0 then some (.returned fd) else none := by
  simp only [ConnectCalls.verdict, hsocket, refusal_eq_none.mpr hconnect]

theorem ConnectCalls.connecting_of_verdict {exit : Exit}
    (hverdict : ai.verdict EINPROGRESS = some exit) :
    ∃ fd, ai.socket = .ok fd ∧ (ai.connect = none ∨ ai.connect = some EINPROGRESS) := by
  rw [ConnectCalls.verdict] at hverdict
  split at hverdict
  · next fd hsocket hrefusal => exact ⟨fd, hsocket, refusal_eq_none.mp hrefusal⟩
  · exact absurd hverdict (Option.some_ne_none exit).symm

theorem ConnectCalls.connects_iff {fd : Fd} :
    ai.Connects EINPROGRESS fd ↔ ai.verdict EINPROGRESS = some (.returned fd) := by
  refine ⟨fun ⟨hsocket, hconnect, hwait, herr⟩ => ?_, fun hverdict => ?_⟩
  · rw [verdict_of_connecting hsocket hconnect, hwait, if_neg Bool.false_ne_true, if_pos herr]
  · obtain ⟨fd', hsocket, hconnect⟩ := connecting_of_verdict hverdict
    rw [verdict_of_connecting hsocket hconnect] at hverdict
    split_ifs at hverdict with hwait herr
    · exact nomatch hverdict
    · obtain rfl := Exit.returned.inj (Option.some_inj.mp hverdict)
      exact ⟨hsocket, hconnect, Bool.eq_false_iff.mpr hwait, herr⟩

theorem ConnectCalls.throws_iff :
    ai.Throws EINPROGRESS ↔ ai.verdict EINPROGRESS = some .thrown := by
  refine ⟨fun ⟨⟨fd, hsocket⟩, hconnect, hwait⟩ => ?_, fun hverdict => ?_⟩
  · rw [verdict_of_connecting hsocket hconnect, if_pos hwait]
  · obtain ⟨fd, hsocket, hconnect⟩ := connecting_of_verdict hverdict
    rw [verdict_of_connecting hsocket hconnect] at hverdict
    split_ifs at hverdict with hwait herr
    · exact ⟨⟨fd, hsocket⟩, hconnect, hwait⟩
    · exact nomatch hverdict

theorem ConnectCalls.verdict_ne_failed (e : Int) :
    ai.verdict EINPROGRESS ≠ some (.failed e) := by
  intro hverdict
  obtain ⟨fd, hsocket, hconnect⟩ := connecting_of_verdict hverdict
  rw [verdict_of_connecting hsocket hconnect] at hverdict
  split_ifs at hverdict <;> exact nomatch hverdict

theorem ConnectCalls.passed_iff : ai.Passed EINPROGRESS ↔ ai.verdict EINPROGRESS = none := by
  refine ⟨fun ⟨hconnects, hthrows⟩ => ?_, fun hverdict => ⟨fun fd => ?_, ?_⟩⟩
  · by_contra hsome
    obtain ⟨exit, hexit⟩ := Option.ne_none_iff_exists'.mp hsome
    obtain ⟨fd, hsocket, hconnect⟩ := connecting_of_verdict hexit
    by_cases hwait : ai.waitThrows = true
    · exact hthrows ⟨⟨fd, hsocket⟩, hconnect, hwait⟩
    · rw [verdict_of_connecting hsocket hconnect, if_neg hwait] at hsome
      by_cases herr : ai.getsockerr = 0
      · exact hconnects fd ⟨hsocket, hconnect, Bool.eq_false_iff.mpr hwait, herr⟩
      · exact hsome (if_neg herr)
  · rw [connects_iff, hverdict]
    exact (Option.some_ne_none _).symm
  · rw [throws_iff, hverdict]
    exact (Option.some_ne_none _).symm

theorem connectLoop_verdict {exit : Exit} (hai : ai.verdict EINPROGRESS = some exit) :
    connectLoop EINPROGRESS (ai :: ais) lastErrno w
      = some (exit, { w with fds := exit.fds ++ w.fds }) := by
  rw [ConnectCalls.verdict] at hai
  split at hai
  · next fd hsocket hrefusal =>
      simp only [connectLoop, hsocket, hrefusal, World.close_opened]
      split_ifs at hai ⊢ with hwait herr
      · obtain rfl := Option.some_inj.mp hai
        rfl
      · obtain rfl := Option.some_inj.mp hai
        rfl
  · exact absurd hai (Option.some_ne_none exit).symm

theorem connectLoop_next (hai : ai.verdict EINPROGRESS = none) :
    ∃ e : Errno, connectLoop EINPROGRESS (ai :: ais) lastErrno w = connectLoop EINPROGRESS ais e w := by
  rw [ConnectCalls.verdict] at hai
  cases hsocket : ai.socket with
  | error e => exact ⟨e, by simp only [connectLoop, hsocket]⟩
  | ok fd =>
      cases hrefusal : ai.refusal EINPROGRESS with
      | some e => exact ⟨e, by simp only [connectLoop, hsocket, hrefusal, World.close_opened]⟩
      | none =>
          simp only [hsocket, hrefusal] at hai
          split_ifs at hai with hthrows herr
          exact ⟨⟨ai.getsockerr, herr⟩, by simp only [connectLoop, hsocket, hrefusal,
            World.close_opened, if_neg hthrows, if_pos herr]⟩

theorem connectLoop_eq (hlast : lastErrno ≠ 0 ∨ ais ≠ []) :
    (∃ exit, ais.findSome? (ConnectCalls.verdict EINPROGRESS) = some exit
        ∧ connectLoop EINPROGRESS ais lastErrno w = some (exit, { w with fds := exit.fds ++ w.fds }))
      ∨ ais.findSome? (ConnectCalls.verdict EINPROGRESS) = none
        ∧ ∃ e : Errno, connectLoop EINPROGRESS ais lastErrno w = some (.failed e, w) := by
  induction ais generalizing lastErrno with
  | nil =>
      have hne := hlast.resolve_right (absurd rfl)
      exact Or.inr ⟨rfl, ⟨lastErrno, hne⟩, if_pos hne⟩
  | cons ai ais ih =>
      rw [List.findSome?_cons]
      cases hai : ai.verdict EINPROGRESS with
      | some exit => exact Or.inl ⟨exit, rfl, connectLoop_verdict hai⟩
      | none =>
          obtain ⟨e, heq⟩ : ∃ e : Errno, _ = connectLoop EINPROGRESS ais e w := connectLoop_next hai
          rw [heq]
          exact ih (Or.inl e.2)

theorem connect_outcome (hais : ais ≠ []) :
    ∃ exit w, connect EINPROGRESS ais = some (exit, w)
      ∧ ConnectOutcome EINPROGRESS ais exit w := by
  have hconnect : connect EINPROGRESS ais = (connectLoop EINPROGRESS ais 0 .empty).map
      fun (exit, w) => (exit, w.freeaddrinfo) := by
    cases ais with
    | nil => exact absurd rfl hais
    | cons ai ais => rfl
  have hpassed : ais.findSome? (ConnectCalls.verdict EINPROGRESS) = none
      ↔ ∀ ai ∈ ais, ai.Passed EINPROGRESS := by
    simp only [List.findSome?_eq_none_iff, ConnectCalls.passed_iff]
  rw [hconnect]
  obtain ⟨exit, hexit, hloop⟩ | ⟨hnone, e, hloop⟩ :=
      connectLoop_eq (Or.inr hais : (0 : Int) ≠ 0 ∨ ais ≠ [])
  · rw [hloop]
    refine ⟨exit, _, rfl, rfl, List.append_nil _, fun fd => ?_, ?_, ?_⟩
    · simp only [ConnectCalls.connects_iff, ConnectCalls.passed_iff, ← List.findSome?_eq_some_iff,
        hexit, Option.some_inj]
    · simp only [ConnectCalls.throws_iff, ConnectCalls.passed_iff, ← List.findSome?_eq_some_iff,
        hexit, Option.some_inj]
    · refine iff_of_false ?_ ?_
      · rintro ⟨e, -, rfl⟩
        obtain ⟨_, ai, _, -, hai, -⟩ := List.findSome?_eq_some_iff.mp hexit
        exact ConnectCalls.verdict_ne_failed e hai
      · rw [← hpassed, hexit]
        exact Option.some_ne_none exit
  · rw [hloop]
    refine ⟨.failed e, _, rfl, rfl, rfl, fun fd => ?_, ?_, ?_⟩
    · simp only [ConnectCalls.connects_iff, ConnectCalls.passed_iff, ← List.findSome?_eq_some_iff,
        hnone]
      simp
    · simp only [ConnectCalls.throws_iff, ConnectCalls.passed_iff, ← List.findSome?_eq_some_iff,
        hnone]
      simp
    · exact iff_of_true ⟨e, e.2, rfl⟩ (hpassed.mp hnone)

end Connect

/-- Neither function leaks a descriptor or the list of addresses, and both classify the outcome. -/
theorem sockets_are_returned_or_closed (EINPROGRESS : Errno) :
    (∀ ais, ais ≠ [] → ∃ result w, listen ais = some (result, w) ∧ ListenOutcome ais result w)
      ∧ ∀ ais, ais ≠ [] → ∃ exit w, connect EINPROGRESS ais = some (exit, w)
        ∧ ConnectOutcome EINPROGRESS ais exit w :=
  ⟨fun _ => listen_outcome, fun _ => connect_outcome⟩

/-- The second of two addresses can be listened on. The first one refuses a connection, and that of
the second one is in progress. -/
theorem sockets_are_returned_or_closed_second :
    (∃ w, listen [⟨.ok 3, none, some ⟨98, by decide⟩, none, none⟩, ⟨.ok 3, none, none, none, none⟩]
        = some (.ok 3, w) ∧ w.fds = [3] ∧ w.freed = 1)
      ∧ ∃ w, connect ⟨115, by decide⟩
          [⟨.ok 3, some ⟨111, by decide⟩, false, .ok 0⟩,
            ⟨.ok 4, some ⟨115, by decide⟩, false, .ok 0⟩]
        = some (.returned 4, w) ∧ w.fds = [4] ∧ w.freed = 1 := by
  obtain ⟨hlisten, hconnect⟩ := sockets_are_returned_or_closed ⟨115, by decide⟩
  constructor
  · obtain ⟨result, w, heq, houtcome⟩ := hlisten
      [⟨.ok 3, none, some ⟨98, by decide⟩, none, none⟩, ⟨.ok 3, none, none, none, none⟩] (by simp)
    obtain rfl := (houtcome.ok 3).mpr rfl
    exact ⟨w, heq, houtcome.fds, houtcome.freed⟩
  · obtain ⟨exit, w, heq, houtcome⟩ := hconnect [⟨.ok 3, some ⟨111, by decide⟩, false, .ok 0⟩,
      ⟨.ok 4, some ⟨115, by decide⟩, false, .ok 0⟩] (by simp)
    have hpassed : ConnectCalls.Passed ⟨115, by decide⟩
        ⟨.ok 3, some ⟨111, by decide⟩, false, .ok 0⟩ := ConnectCalls.passed_iff.mpr rfl
    obtain rfl := (houtcome.returned 4).mpr ⟨[_], _, [], rfl, ⟨rfl, Or.inr rfl, rfl, rfl⟩,
      fun earlier hmem => List.mem_singleton.mp hmem ▸ hpassed⟩
    exact ⟨w, heq, houtcome.fds, houtcome.freed⟩

end Stp.Tcp
