import Mathlib.Logic.Function.Basic
import Stp.Types

/-!
# The hierarchical timer wheel

The timer service keeps its requests in linked lists: `TIME_LEAST_VALUE` lists for the expiries
less than `2 ^ 14` ahead, and `TIME_LEVEL_COUNT` levels of `TIME_LEVEL_VALUE - 1` lists for the
others, one level per further ten bits. A tick sends the list of the present instant; when the low
fourteen bits of the clock turn to zero it re-queues one list of the first level whose digit is not
zero.

Definitions carry the names of the functions they translate, without the underscore. A list is the
sequence of its nodes, from `first` to the node `last` points into, and appending and clearing are
`appendLeast` and `clearLeast` on the lists of `least`, `appendLevel` and `clearLevel` on those of
`level`. Where the code asserts, or indexes an array, and the assertion or the index fails, the
model has no result. What a tick sends is a result of it, and a run records each node sent with the
`t->time` its tick started with.
-/

namespace Stp.Time

structure TimerNode where
  expire : UInt64
  source : ProcessT
  session : SessionT
deriving DecidableEq, Repr

def timeLeastShift : Nat := 14
def timeLeastValue : Nat := 1 <<< timeLeastShift
def timeLeastMask : Nat := timeLeastValue - 1
def timeLevelShift : Nat := 10
def timeLevelValue : Nat := 1 <<< timeLevelShift
def timeLevelMask : Nat := timeLevelValue - 1
def timeBits : Nat := 64
def timeLevelCount : Nat := (timeBits - timeLeastShift) / timeLevelShift

theorem time_bits_match : timeBits = timeLevelCount * timeLevelShift + timeLeastShift := rfl

abbrev LevelSlot := Fin timeLevelCount × Fin (timeLevelValue - 1)

structure Timer where
  time : UInt64
  least : Fin timeLeastValue → List TimerNode
  level : LevelSlot → List TimerNode

def Timer.fresh : Timer where
  time := 0
  least _ := []
  level _ := []

def leastIndex (time : UInt64) : Fin timeLeastValue :=
  ⟨(time &&& timeLeastMask.toUInt64).toNat, by
    rw [UInt64.toNat_and]
    exact Nat.lt_of_le_of_lt Nat.and_le_right (by decide)⟩

def levelSlot (level : Nat) (value : UInt64) : Option LevelSlot :=
  if h : level < timeLevelCount ∧ (value - 1).toNat < timeLevelValue - 1 then
    some (⟨level, h.1⟩, ⟨(value - 1).toNat, h.2⟩)
  else none

def Timer.appendLeast (t : Timer) (index : Fin timeLeastValue) (node : TimerNode) : Timer :=
  { t with least := Function.update t.least index (t.least index ++ [node]) }

def Timer.appendLevel (t : Timer) (slot : LevelSlot) (node : TimerNode) : Timer :=
  { t with level := Function.update t.level slot (t.level slot ++ [node]) }

def Timer.clearLeast (t : Timer) (index : Fin timeLeastValue) : Timer :=
  { t with least := Function.update t.least index [] }

def Timer.clearLevel (t : Timer) (slot : LevelSlot) : Timer :=
  { t with level := Function.update t.level slot [] }

/-- The loop of `_queue`: the first level from `level` on whose mask hides every difference between
`expire` and `time`. `remaining` counts the levels the loop may still visit. -/
def queueLevel (time expire : UInt64) : (remaining level : Nat) → (exp2 : UInt64) → Option Nat
  | 0, _, _ => none
  | remaining + 1, level, exp2 =>
      let exp2 := exp2 <<< timeLevelShift.toUInt64
      let mask := exp2 - 1
      if expire ||| mask = time ||| mask then some level
      else queueLevel time expire remaining (level + 1) exp2

/-- The lowest bit of the digit that indexes a level. -/
def levelShift (level : Nat) : Nat := timeLeastShift + level * timeLevelShift

def levelValue (time : UInt64) (level : Nat) : UInt64 :=
  (time >>> (levelShift level).toUInt64) &&& timeLevelMask.toUInt64

def queue (t : Timer) (node : TimerNode) : Option Timer :=
  let time := t.time
  let expire := node.expire
  if expire < time then none
  else if expire - time < timeLeastValue.toUInt64 then
    some (t.appendLeast (leastIndex expire) node)
  else
    match queueLevel time expire timeLevelCount 0 (1 <<< timeLeastShift.toUInt64) with
    | some level =>
        match levelSlot level (levelValue expire level) with
        | some slot => some (t.appendLevel slot node)
        | none => none
    | none => none

def queueList (t : Timer) : List TimerNode → Option Timer
  | [] => some t
  | node :: list =>
      match queue t node with
      | some t => queueList t list
      | none => none

/-- The loop of `_tick` at a boundary: the digits of `time` that are zero are shifted out, and the
list the first other digit names is re-queued. -/
def cascade (t : Timer) : (remaining level : Nat) → (time : UInt64) → Option Timer
  | 0, _, _ => none
  | remaining + 1, level, time =>
      let value := time &&& timeLevelMask.toUInt64
      if value = 0 then cascade t remaining (level + 1) (time >>> timeLevelShift.toUInt64)
      else
        match levelSlot level value with
        | some slot => queueList (t.clearLevel slot) (t.level slot)
        | none => none

/-- The first half of `_tick`: the list of the present instant is cleared and the clock moves. -/
def Timer.advance (t : Timer) : Timer :=
  { t.clearLeast (leastIndex t.time) with time := t.time + 1 }

/-- `_tick`: the nodes `_send_list` sends, in order, and the timer after it. -/
def tick (t : Timer) : Option (List TimerNode × Timer) :=
  let sent := t.least (leastIndex t.time)
  let t := t.advance
  if t.time &&& timeLeastMask.toUInt64 = 0 then
    if t.time = 0 then none
    else
      match cascade t timeLevelCount 0 (t.time >>> timeLeastShift.toUInt64) with
      | some t => some (sent, t)
      | none => none
  else some (sent, t)

abbrev Sent := List (UInt64 × TimerNode)

/-- The loop of `_update`, for at most `fuel` rounds. -/
def updateLoop : (fuel : Nat) → Timer → (time : UInt64) → Option (Sent × Timer)
  | 0, t, time => if t.time < time then none else some ([], t)
  | fuel + 1, t, time =>
      if t.time < time then
        match tick t with
        | some (sent, t') =>
            match updateLoop fuel t' time with
            | some (later, t'') => some (sent.map (t.time, ·) ++ later, t'')
            | none => none
        | none => none
      else some ([], t)

def update (t : Timer) (time : UInt64) : Option (Sent × Timer) :=
  updateLoop (time.toNat - t.time.toNat) t time

def timeout (t : Timer) (source : ProcessT) (session : SessionT) (timeout : UInt64) :
    Option Timer :=
  queue t { expire := t.time + timeout, source, session }

inductive Call where
  | timeout (source : ProcessT) (session : SessionT) (timeout : UInt64)
  | update (time : UInt64)
deriving DecidableEq, Repr

def Timer.call (t : Timer) : Call → Option (Sent × Timer)
  | .timeout source session d => (timeout t source session d).map fun t => ([], t)
  | .update time => update t time

def Timer.run (t : Timer) : List Call → Option (Sent × Timer)
  | [] => some ([], t)
  | call :: calls =>
      match t.call call with
      | some (sent, t') => (t'.run calls).map fun (later, t'') => (sent ++ later, t'')
      | none => none

end Stp.Time
