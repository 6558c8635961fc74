import Mathlib
import Stp.Types

/-!
# Messages and mailboxes

A message carries its kind in the sign of its session: requests have a positive session, the
response to a request has the session of the request negated, and a notification has session `0`.
`wild::SharedAny` is the type `Content`, as far as `process.cpp` looks inside it: an empty value, a
stored `std::exception_ptr`, a `KillProcess`, or anything else.

A mailbox has two lists. Writers append to `write` under the lock; the one reader takes from `read`
and, when that runs out, takes over all of `write`. The flag `wait` asks the next writer to wake the
reader; it is set under the lock by a reader that found nothing and cleared by the compare-exchange
that a writer does after its append.
-/

namespace Stp.Process

/-- What a stored `std::exception_ptr` holds, as far as a `catch` clause distinguishes it. -/
inductive Thrown where
  /-- `coroutine::ExitException` -/
  | coroutineExit
  /-- `process::ExitException` -/
  | processExit
  | abortedRequest
  | other (tag : Nat)
deriving DecidableEq, Repr

inductive Content (V : Type*) where
  | empty
  | value (v : V)
  | exception (e : Thrown)
  | killProcess
deriving DecidableEq, Repr

structure Message (V : Type*) where
  source : ProcessT
  session : SessionT
  content : Content V
deriving DecidableEq, Repr

inductive MessageType where
  | kNotify
  | kRequest
  | kResponse
deriving DecidableEq, Repr

def sessionForResponse (session : SessionT) : SessionT := -session

variable {V : Type*}

def typeOfMessage (msg : Message V) : MessageType :=
  let session := msg.session.toInt32
  if session > 0 then .kRequest
  else if session < 0 then .kResponse
  else .kNotify

theorem toInt32_pos_iff (session : SessionT) :
    session.toInt32 > 0 ↔ 0 < session.toNat ∧ session.toNat < 2 ^ 31 := by
  have hlt := session.toNat_lt
  rw [gt_iff_lt, Int32.lt_iff_toInt_lt]
  change (0 : Int) < session.toBitVec.toInt ↔ _
  rw [BitVec.toInt_eq_toNat_cond, UInt32.toNat_toBitVec]
  split <;> omega

theorem toInt32_neg_iff (session : SessionT) : session.toInt32 < 0 ↔ 2 ^ 31 ≤ session.toNat := by
  have hlt := session.toNat_lt
  rw [Int32.lt_iff_toInt_lt]
  change session.toBitVec.toInt < 0 ↔ _
  rw [BitVec.toInt_eq_toNat_cond, UInt32.toNat_toBitVec]
  split <;> omega

theorem typeOfMessage_eq_kRequest (msg : Message V) :
    typeOfMessage msg = .kRequest ↔ 0 < msg.session.toNat ∧ msg.session.toNat < 2 ^ 31 := by
  rw [← toInt32_pos_iff]
  simp only [typeOfMessage]
  split_ifs with hpos hneg
  · exact ⟨fun _ => hpos, fun _ => rfl⟩
  · exact ⟨nofun, fun h => absurd h hpos⟩
  · exact ⟨nofun, fun h => absurd h hpos⟩

theorem typeOfMessage_eq_kResponse (msg : Message V) :
    typeOfMessage msg = .kResponse ↔ 2 ^ 31 ≤ msg.session.toNat := by
  simp only [typeOfMessage, toInt32_pos_iff, toInt32_neg_iff]
  split_ifs with hpos hneg
  · exact ⟨nofun, fun h => absurd hpos.2 (Nat.not_lt.mpr h)⟩
  · exact ⟨fun _ => hneg, fun _ => rfl⟩
  · exact ⟨nofun, fun h => absurd h hneg⟩

theorem sessionForResponse_toNat {session : SessionT} (hsession : session ≠ 0) :
    (sessionForResponse session).toNat = 2 ^ 32 - session.toNat := by
  have hpos : 0 < session.toNat := Nat.pos_of_ne_zero fun h => hsession (UInt32.toNat_inj.mp h)
  rw [sessionForResponse, UInt32.toNat_neg]
  exact Nat.mod_eq_of_lt (Nat.sub_lt (by decide) hpos)

/-- The notification that makes `Process::resume` run `exit()`. -/
def Message.kills (msg : Message V) : Bool :=
  match typeOfMessage msg, msg.content with
  | .kNotify, .killProcess => true
  | _, _ => false

/-! ### The mailbox -/

structure Mailbox (V : Type*) where
  wait : Bool
  read : List (Message V)
  write : List (Message V)
deriving DecidableEq, Repr

def Mailbox.empty : Mailbox V where
  wait := false
  read := []
  write := []

/-- The section of `Mailbox::push` under the lock. -/
def Mailbox.append (mailbox : Mailbox V) (msg : Message V) : Mailbox V :=
  { mailbox with write := mailbox.write ++ [msg] }

/-- `_wait.compare_exchange_strong(true, false)`, the rest of `Mailbox::push`. -/
def Mailbox.exchange (mailbox : Mailbox V) : Bool × Mailbox V :=
  (mailbox.wait, { mailbox with wait := false })

def Mailbox.take (mailbox : Mailbox V) : Option (Message V) × Mailbox V :=
  match mailbox.read with
  | msg :: next => (some msg, { mailbox with read := next })
  | [] =>
    match mailbox.write with
    | [] => (none, { mailbox with wait := true })
    | msg :: next => (some msg, { mailbox with read := next, write := [] })

/-- The messages not yet taken, the next first. -/
def Mailbox.messages (mailbox : Mailbox V) : List (Message V) := mailbox.read ++ mailbox.write

@[simp]
theorem Mailbox.append_messages (mailbox : Mailbox V) (msg : Message V) :
    (mailbox.append msg).messages = mailbox.messages ++ [msg] :=
  (List.append_assoc _ _ _).symm

@[simp]
theorem Mailbox.append_wait (mailbox : Mailbox V) (msg : Message V) :
    (mailbox.append msg).wait = mailbox.wait := rfl

/-- A message taken is the oldest one; only a reader that finds nothing sets the flag. -/
theorem Mailbox.take_spec (mailbox : Mailbox V) :
    (∃ msg, mailbox.take.1 = some msg ∧ mailbox.messages = msg :: mailbox.take.2.messages
        ∧ mailbox.take.2.wait = mailbox.wait)
      ∨ (mailbox.take.1 = none ∧ mailbox.messages = [] ∧ mailbox.take.2.messages = []
        ∧ mailbox.take.2.wait = true) := by
  obtain ⟨wait, read, write⟩ := mailbox
  cases read with
  | cons msg next => exact Or.inl ⟨msg, rfl, rfl, rfl⟩
  | nil =>
      cases write with
      | nil => exact Or.inr ⟨rfl, rfl, rfl, rfl⟩
      | cons msg next =>
          refine Or.inl ⟨msg, rfl, ?_, rfl⟩
          simp [Mailbox.messages, Mailbox.take]

theorem Mailbox.take_some {mailbox : Mailbox V} {msg : Message V}
    (htake : mailbox.take.1 = some msg) : mailbox.messages = msg :: mailbox.take.2.messages := by
  obtain ⟨msg', hsome, hmessages, -⟩ | ⟨hnone, -⟩ := mailbox.take_spec
  · rw [Option.some.inj (htake.symm.trans hsome)]
    exact hmessages
  · rw [htake] at hnone
    cases hnone

theorem Mailbox.take_none {mailbox : Mailbox V} (htake : mailbox.take.1 = none) :
    mailbox.messages = [] ∧ mailbox.take.2.messages = [] := by
  obtain ⟨msg', hsome, -⟩ | ⟨-, hbefore, hafter, -⟩ := mailbox.take_spec
  · rw [htake] at hsome
    cases hsome
  · exact ⟨hbefore, hafter⟩

end Stp.Process
