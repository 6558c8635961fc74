import Mathlib

/-!
# Transfer loops

`read_full`, `read` and `write` call `wild::io::Read` or `wild::io::Write` until they have enough,
with an `fd::wait` after each `EAGAIN`. A script is what these calls do one after the other, each
for whatever length it is asked; a loop that has come to the end of its script is still waiting.
A transfer is what has happened in a call: the memory it left, the underlying calls with the region
asked and the bytes moved, and what it returned.
-/

namespace Stp.Io

/-! ### Memory -/

abbrev Memory := Nat → UInt8

def Memory.write (m : Memory) (p : Nat) (bytes : List UInt8) : Memory := fun q =>
  if p ≤ q then bytes[q - p]?.getD (m q) else m q

def Memory.read (m : Memory) (p n : Nat) : List UInt8 := (List.range n).map fun i => m (p + i)

theorem Memory.write_of_lt (m : Memory) {p q : Nat} (bytes : List UInt8) (hlt : q < p) :
    m.write p bytes q = m q :=
  if_neg (Nat.not_le.mpr hlt)

theorem Memory.write_of_le (m : Memory) {p q : Nat} (bytes : List UInt8)
    (hle : p + bytes.length ≤ q) : m.write p bytes q = m q := by
  rw [Memory.write, if_pos (by omega), List.getElem?_eq_none (by omega), Option.getD_none]

@[simp] theorem Memory.write_nil (m : Memory) (p : Nat) : m.write p [] = m := by
  funext q
  simp [Memory.write]

theorem Memory.write_append (m : Memory) (p : Nat) (bytes bytes' : List UInt8) :
    (m.write p bytes).write (p + bytes.length) bytes' = m.write p (bytes ++ bytes') := by
  funext q
  by_cases hlt : q < p + bytes.length
  · rw [Memory.write_of_lt _ _ hlt, Memory.write, Memory.write]
    split_ifs with hle
    · rw [List.getElem?_append_left (by omega)]
    · rfl
  · rw [Memory.write, Memory.write_of_le _ _ (Nat.not_lt.mp hlt), Memory.write,
      if_pos (by omega), if_pos (by omega), List.getElem?_append_right (by omega), Nat.sub_add_eq]

theorem Memory.read_write (m : Memory) (p : Nat) (bytes : List UInt8) :
    (m.write p bytes).read p bytes.length = bytes := by
  apply List.ext_getElem
  · simp [Memory.read]
  · intro i _ hi
    simp [Memory.read, Memory.write, hi]

@[simp] theorem Memory.length_read (m : Memory) (p n : Nat) : (m.read p n).length = n := by
  simp [Memory.read]

theorem Memory.read_add (m : Memory) (p n k : Nat) :
    m.read p (n + k) = m.read p n ++ m.read (p + n) k := by
  simp [Memory.read, List.range_add, Nat.add_assoc]

/-! ### The code -/

/-- `wild::io::Read`: the bytes it stores at the pointer, and its error. -/
structure ReadResult (len : Nat) where
  data : List UInt8
  err : Int32
  fits : data.length ≤ len
  full : err = 0 → data.length = len

/-- `wild::io::Write`: how many bytes from the pointer it passes on, and its error. -/
structure WriteResult (size : Nat) where
  n : Nat
  err : Int32
  fits : n ≤ size
  full : err = 0 → n = size

/-- An underlying call. -/
structure Call where
  p : Nat
  len : Nat
  moved : List UInt8
  err : Int32

structure Transfer where
  memory : Memory
  calls : List Call
  /-- `none` while it waits. -/
  ret : Option (Nat × Int32)

def Transfer.after (call : Call) (t : Transfer) : Transfer :=
  { t with calls := call :: t.calls }

def Transfer.moved (t : Transfer) : List UInt8 := t.calls.flatMap Call.moved

section

variable (EAGAIN : Int32)

/-- `read_full`, with `rd` bytes read so far. `EEOF` falls through to the other errors. -/
def readFull : List ((len : Nat) → ReadResult len) → Memory → (buf len rd : Nat) → Transfer
  | [], m, _, _, _ => ⟨m, [], none⟩
  | attempt :: script, m, buf, len, rd =>
      let r := attempt len
      let n := r.data.length
      let call : Call := ⟨buf, len, r.data, r.err⟩
      let m := m.write buf r.data
      let rd := rd + n
      let len := len - n
      if len = 0 then ⟨m, [call], some (rd, 0)⟩
      else if r.err = EAGAIN then (readFull script m (buf + n) len rd).after call
      else ⟨m, [call], some (rd, r.err)⟩

/-- `read`. It has its error in a `size_t`. -/
def read : List ((len : Nat) → ReadResult len) → Memory → (buf len rd : Nat) → Transfer
  | [], m, _, _, _ => ⟨m, [], none⟩
  | attempt :: script, m, buf, len, rd =>
      let r := attempt len
      let n := r.data.length
      let err := r.err.toInt64.toUInt64
      let call : Call := ⟨buf, len, r.data, r.err⟩
      let m := m.write buf r.data
      let rd := rd + n
      let len := len - n
      if len = 0 then ⟨m, [call], some (rd, 0)⟩
      else if err = EAGAIN.toInt64.toUInt64 then
        if rd = 0 then (read script m buf len rd).after call else ⟨m, [call], some (rd, 0)⟩
      else ⟨m, [call], some (rd, err.toUInt32.toInt32)⟩

def write : List ((size : Nat) → WriteResult size) → Memory → (data size wr : Nat) → Transfer
  | [], m, _, _, _ => ⟨m, [], none⟩
  | attempt :: script, m, data, size, wr =>
      let r := attempt size
      let call : Call := ⟨data, size, m.read data r.n, r.err⟩
      let wr := wr + r.n
      let size := size - r.n
      if size = 0 then ⟨m, [call], some (wr, 0)⟩
      else if r.err = EAGAIN then (write script m (data + r.n) size wr).after call
      else ⟨m, [call], some (wr, r.err)⟩

end

/-! ### What every transfer does -/

/-- A `size_t` holds an error, and gives it back. -/
theorem toInt32_toUInt64 (err : Int32) : err.toInt64.toUInt64.toUInt32.toInt32 = err := by
  apply Int32.toBitVec_inj.mp
  calc err.toInt64.toUInt64.toUInt32.toInt32.toBitVec
      = (err.toBitVec.signExtend 64).setWidth 32 := by simp
    _ = (err.toBitVec.signExtend 64).signExtend 32 :=
        (BitVec.signExtend_eq_setWidth_of_le _ (by decide)).symm
    _ = err.toInt64.toInt32.toBitVec := rfl
    _ = err.toBitVec := by rw [Int32.toInt32_toInt64]

theorem toUInt64_inj {err err' : Int32} :
    err.toInt64.toUInt64 = err'.toInt64.toUInt64 ↔ err = err' := by
  refine ⟨fun heq => ?_, fun heq => heq ▸ rfl⟩
  rw [← toInt32_toUInt64 err, heq, toInt32_toUInt64]

section

variable {EAGAIN err : Int32} {t : Transfer} {call : Call} {p len done : Nat}

@[simp] theorem Transfer.moved_after : (t.after call).moved = call.moved ++ t.moved := rfl

@[simp] theorem Transfer.moved_singleton (m : Memory) (ret : Option (Nat × Int32)) :
    Transfer.moved ⟨m, [call], ret⟩ = call.moved := by
  simp [Transfer.moved]

/-- What a result of a script gives at a pointer for a length: the bytes moved, and the error. -/
abbrev Attempt := (p len : Nat) → List UInt8 × Int32

def ofRead (attempt : (len : Nat) → ReadResult len) : Attempt := fun _ len =>
  ((attempt len).data, (attempt len).err)

def ofWrite (m : Memory) (attempt : (size : Nat) → WriteResult size) : Attempt := fun data size =>
  (m.read data (attempt size).n, (attempt size).err)

/-- The calls have the first results of a script, and each is for what the ones before it have left
of a region. -/
def Asked : List Call → List Attempt → (p len : Nat) → Prop
  | [], _, _, _ => True
  | _ :: _, [], _, _ => False
  | c :: calls, attempt :: script, p, len =>
      c.p = p ∧ c.len = len ∧ (c.moved, c.err) = attempt p len
        ∧ Asked calls script (p + c.moved.length) (len - c.moved.length)

variable {attempt : Attempt} {script : List Attempt}

/-- A transfer of a region, after `done` bytes, with a script of results: it goes through the script
until a result is not `EAGAIN` or it returns, stays inside the region, adds up what it moves,
returns no error but that of its last call, which is not `EAGAIN`, and waits only for a further
result. -/
structure Transfer.Sound (EAGAIN : Int32) (t : Transfer) (script : List Attempt)
    (p len done : Nat) : Prop where
  asked : Asked t.calls script p len
  inside : ∀ c ∈ t.calls, p ≤ c.p ∧ c.p + c.len ≤ p + len
  again : ∀ c ∈ t.calls.dropLast, c.err = EAGAIN ∧ c.moved.length < c.len
  returned : ∀ n err, t.ret = some (n, err) → n = done + t.moved.length ∧ err ≠ EAGAIN
    ∧ ∃ c ∈ t.calls.getLast?, err ≠ 0 → err = c.err
  waiting : t.ret = none →
    t.calls.length = script.length ∧ ∀ c ∈ t.calls, c.err = EAGAIN ∧ c.moved.length < c.len

theorem Transfer.Sound.empty (m : Memory) : Transfer.Sound EAGAIN ⟨m, [], none⟩ [] p len done where
  asked := trivial
  inside _ hc := absurd hc List.not_mem_nil
  again _ hc := absurd hc List.not_mem_nil
  returned _ _ hret := absurd hret (Option.some_ne_none _).symm
  waiting _ := ⟨rfl, fun _ hc => absurd hc List.not_mem_nil⟩

theorem Transfer.Sound.last (m : Memory) {n : Nat} (hp : call.p = p) (hlen : call.len = len)
    (hcall : (call.moved, call.err) = attempt p len) (hn : n = done + call.moved.length)
    (hne : err ≠ EAGAIN) (herr : err ≠ 0 → err = call.err) :
    Transfer.Sound EAGAIN ⟨m, [call], some (n, err)⟩ (attempt :: script) p len done where
  asked := ⟨hp, hlen, hcall, trivial⟩
  inside c hc := by
    rw [List.mem_singleton.mp hc, hp, hlen]
    exact ⟨Nat.le_refl p, Nat.le_refl _⟩
  again _ hc := absurd hc List.not_mem_nil
  returned n' err' hret := by
    obtain ⟨rfl, rfl⟩ := Prod.mk.inj (Option.some_inj.mp hret)
    exact ⟨by rw [hn, Transfer.moved_singleton], hne, call, rfl, herr⟩
  waiting hret := absurd hret (Option.some_ne_none _)

theorem Transfer.Sound.after
    (ht : t.Sound EAGAIN script (p + call.moved.length) (len - call.moved.length)
      (done + call.moved.length))
    (hp : call.p = p) (hlen : call.len = len) (hcall : (call.moved, call.err) = attempt p len)
    (herr : call.err = EAGAIN) (hlt : call.moved.length < len) :
    (t.after call).Sound EAGAIN (attempt :: script) p len done where
  asked := ⟨hp, hlen, hcall, ht.asked⟩
  inside c hc := by
    obtain rfl | hc := List.mem_cons.mp hc
    · rw [hp, hlen]
      exact ⟨Nat.le_refl p, Nat.le_refl _⟩
    · have := ht.inside c hc
      omega
  again c hc := by
    obtain hnil | hne := eq_or_ne t.calls []
    · rw [Transfer.after, hnil] at hc
      exact absurd hc List.not_mem_nil
    · rw [Transfer.after, List.dropLast_cons_of_ne_nil hne] at hc
      obtain rfl | hc := List.mem_cons.mp hc
      · exact ⟨herr, hlen ▸ hlt⟩
      · exact ht.again c hc
  returned n err' hret := by
    obtain ⟨hn, hne, c, hlast, hc⟩ := ht.returned n err' hret
    refine ⟨?_, hne, c, ?_, hc⟩
    · rw [hn, Transfer.moved_after, List.length_append, Nat.add_assoc]
    · rw [Transfer.after, List.getLast?_cons, Option.mem_def.mp hlast]
      rfl
  waiting hret := by
    obtain ⟨hlength, hcalls⟩ := ht.waiting hret
    refine ⟨congrArg (· + 1) hlength, fun c hc => ?_⟩
    obtain rfl | hc := List.mem_cons.mp hc
    · exact ⟨herr, hlen ▸ hlt⟩
    · exact hcalls c hc

/-! ### The loops -/

section

variable (hEAGAIN : EAGAIN ≠ 0)
include hEAGAIN

theorem readFull_sound (script : List ((len : Nat) → ReadResult len)) (m : Memory)
    (buf len rd : Nat) :
    (readFull EAGAIN script m buf len rd).Sound EAGAIN (script.map ofRead) buf len rd := by
  induction script generalizing m buf len rd with
  | nil => exact .empty m
  | cons attempt script ih =>
      have hfits := (attempt len).fits
      rw [readFull, List.map_cons]
      split_ifs with hlen herr
      · exact .last _ rfl rfl rfl rfl hEAGAIN.symm (absurd rfl)
      · exact (ih _ _ _ _).after rfl rfl rfl herr (by dsimp only; omega)
      · exact .last _ rfl rfl rfl rfl herr fun _ => rfl

theorem read_sound (script : List ((len : Nat) → ReadResult len)) (m : Memory)
    (buf len rd : Nat) :
    (read EAGAIN script m buf len rd).Sound EAGAIN (script.map ofRead) buf len rd := by
  induction script generalizing m buf len rd with
  | nil => exact .empty m
  | cons attempt script ih =>
      have hfits := (attempt len).fits
      rw [read, List.map_cons]
      split_ifs with hlen herr hrd
      · exact .last _ rfl rfl rfl rfl hEAGAIN.symm (absurd rfl)
      · -- nothing has been read, so the pointer may stay where it is
        have hdata : (attempt len).data.length = 0 := by omega
        have hrest := ih (m.write buf (attempt len).data) buf (len - (attempt len).data.length)
          (rd + (attempt len).data.length)
        refine Transfer.Sound.after (p := buf) ?_ rfl rfl rfl (toUInt64_inj.mp herr)
          (by dsimp only; omega)
        rw [hdata, Nat.add_zero] at hrest ⊢
        exact hrest
      · exact .last _ rfl rfl rfl rfl hEAGAIN.symm (absurd rfl)
      · rw [toInt32_toUInt64]
        exact .last _ rfl rfl rfl rfl (mt toUInt64_inj.mpr herr) fun _ => rfl

theorem write_sound (script : List ((size : Nat) → WriteResult size)) (m : Memory)
    (data size wr : Nat) :
    (write EAGAIN script m data size wr).Sound EAGAIN (script.map (ofWrite m)) data size wr := by
  induction script generalizing data size wr with
  | nil => exact .empty m
  | cons attempt script ih =>
      have hfits := (attempt size).fits
      have hlength := m.length_read data (attempt size).n
      have hn : wr + (attempt size).n = wr + (m.read data (attempt size).n).length := by rw [hlength]
      rw [write, List.map_cons]
      split_ifs with hsize herr
      · exact .last _ rfl rfl rfl hn hEAGAIN.symm (absurd rfl)
      · refine Transfer.Sound.after ?_ rfl rfl rfl herr (by dsimp only; omega)
        dsimp only
        rw [hlength]
        exact ih _ _ _
      · exact .last _ rfl rfl rfl hn herr fun _ => rfl

end

/-- What has been read stands at the start of the buffer, and nothing else has changed. -/
theorem readFull_memory (script : List ((len : Nat) → ReadResult len)) (m : Memory)
    (buf len rd : Nat) : (readFull EAGAIN script m buf len rd).memory
      = m.write buf (readFull EAGAIN script m buf len rd).moved := by
  induction script generalizing m buf len rd with
  | nil => exact (m.write_nil buf).symm
  | cons attempt script ih =>
      rw [readFull]
      split_ifs
      · rw [Transfer.moved_singleton]
      · exact (ih _ _ _ _).trans (m.write_append buf _ _)
      · rw [Transfer.moved_singleton]

theorem readFull_zero (script : List ((len : Nat) → ReadResult len)) (m : Memory)
    (buf len rd : Nat) {n : Nat} (hret : (readFull EAGAIN script m buf len rd).ret = some (n, err)) :
    err = 0 ↔ (readFull EAGAIN script m buf len rd).moved.length = len := by
  induction script generalizing m buf len rd with
  | nil => exact absurd hret (Option.some_ne_none _).symm
  | cons attempt script ih =>
      have hfits := (attempt len).fits
      rw [readFull] at hret ⊢
      split_ifs at hret ⊢ with hlen herr
      · obtain ⟨-, rfl⟩ := Prod.mk.inj (Option.some_inj.mp hret)
        rw [Transfer.moved_singleton]
        exact iff_of_true rfl (by dsimp only; omega)
      · rw [ih _ _ _ _ hret, Transfer.moved_after, List.length_append]
        dsimp only
        omega
      · obtain ⟨-, rfl⟩ := Prod.mk.inj (Option.some_inj.mp hret)
        rw [Transfer.moved_singleton]
        have hfull := (attempt len).full
        exact iff_of_false (fun h => hlen (by rw [hfull h, Nat.sub_self])) (by dsimp only; omega)

theorem read_memory (script : List ((len : Nat) → ReadResult len)) (m : Memory) (buf len : Nat) :
    (read EAGAIN script m buf len 0).memory
      = m.write buf (read EAGAIN script m buf len 0).moved := by
  induction script generalizing m len with
  | nil => exact (m.write_nil buf).symm
  | cons attempt script ih =>
      rw [read]
      split_ifs with _ _ hrd
      · rw [Transfer.moved_singleton]
      · have hdata : (attempt len).data = [] := List.eq_nil_of_length_eq_zero (by omega)
        rw [hdata] at hrd ⊢
        rw [m.write_nil]
        exact ih m _
      · rw [Transfer.moved_singleton]
      · rw [Transfer.moved_singleton]

/-- All attempts before the last one have moved nothing, and so have all while it waits. -/
structure Transfer.Prompt (t : Transfer) : Prop where
  dropLast : ∀ c ∈ t.calls.dropLast, c.moved = []
  waiting : t.ret = none → ∀ c ∈ t.calls, c.moved = []

theorem Transfer.Prompt.last (m : Memory) (n : Nat × Int32) :
    Transfer.Prompt ⟨m, [call], some n⟩ where
  dropLast _ hc := absurd hc List.not_mem_nil
  waiting hret := absurd hret (Option.some_ne_none n)

theorem Transfer.Prompt.after (ht : t.Prompt) (hcall : call.moved = []) :
    (t.after call).Prompt where
  dropLast c hc := by
    obtain hnil | hne := eq_or_ne t.calls []
    · rw [Transfer.after, hnil] at hc
      exact absurd hc List.not_mem_nil
    · rw [Transfer.after, List.dropLast_cons_of_ne_nil hne] at hc
      exact (List.mem_cons.mp hc).elim (fun heq => heq ▸ hcall) (ht.dropLast c)
  waiting hret c hc := (List.mem_cons.mp hc).elim (fun heq => heq ▸ hcall) (ht.waiting hret c)

theorem read_prompt (script : List ((len : Nat) → ReadResult len)) (m : Memory) (buf len : Nat) :
    (read EAGAIN script m buf len 0).Prompt := by
  induction script generalizing m len with
  | nil => exact ⟨fun _ hc => absurd hc List.not_mem_nil, fun _ _ hc => absurd hc List.not_mem_nil⟩
  | cons attempt script ih =>
      rw [read]
      split_ifs with _ _ hrd
      · exact .last _ _
      · rw [hrd]
        exact (ih _ _).after (List.eq_nil_of_length_eq_zero (by dsimp only; omega))
      · exact .last _ _
      · exact .last _ _

theorem read_zero (script : List ((len : Nat) → ReadResult len)) (m : Memory) (buf len : Nat)
    (hret : (read EAGAIN script m buf len 0).ret = some (0, 0)) : len = 0 := by
  induction script generalizing m len with
  | nil => exact absurd hret (Option.some_ne_none _).symm
  | cons attempt script ih =>
      have hfits := (attempt len).fits
      rw [read] at hret
      split_ifs at hret with hlen herr hrd
      · have hn := congrArg Prod.fst (Option.some_inj.mp hret)
        dsimp only at hn
        omega
      · rw [hrd] at hret
        have := ih _ _ hret
        omega
      · exact absurd (congrArg Prod.fst (Option.some_inj.mp hret)) hrd
      · have herr := congrArg Prod.snd (Option.some_inj.mp hret)
        rw [toInt32_toUInt64] at herr
        exact absurd (by rw [(attempt len).full herr, Nat.sub_self]) hlen

/-- What has been written is the start of the data, and the memory is as it was. -/
theorem write_moved (script : List ((size : Nat) → WriteResult size)) (m : Memory)
    (data size wr : Nat) :
    (write EAGAIN script m data size wr).moved
        = m.read data (write EAGAIN script m data size wr).moved.length
      ∧ (write EAGAIN script m data size wr).memory = m := by
  induction script generalizing data size wr with
  | nil => exact ⟨rfl, rfl⟩
  | cons attempt script ih =>
      rw [write]
      split_ifs
      · rw [Transfer.moved_singleton, Memory.length_read]
        exact ⟨rfl, rfl⟩
      · obtain ⟨hmoved, hmemory⟩ := ih (data + (attempt size).n) (size - (attempt size).n)
          (wr + (attempt size).n)
        refine ⟨?_, hmemory⟩
        rw [Transfer.moved_after, List.length_append, Memory.length_read, m.read_add, ← hmoved]
      · rw [Transfer.moved_singleton, Memory.length_read]
        exact ⟨rfl, rfl⟩

theorem write_zero (script : List ((size : Nat) → WriteResult size)) (m : Memory)
    (data size wr : Nat) {n : Nat} (hret : (write EAGAIN script m data size wr).ret = some (n, err)) :
    err = 0 ↔ (write EAGAIN script m data size wr).moved.length = size := by
  induction script generalizing data size wr with
  | nil => exact absurd hret (Option.some_ne_none _).symm
  | cons attempt script ih =>
      have hfits := (attempt size).fits
      have hlength := m.length_read data (attempt size).n
      rw [write] at hret ⊢
      split_ifs at hret ⊢ with hsize herr
      · obtain ⟨-, rfl⟩ := Prod.mk.inj (Option.some_inj.mp hret)
        rw [Transfer.moved_singleton]
        exact iff_of_true rfl (by dsimp only; omega)
      · rw [ih _ _ _ hret, Transfer.moved_after, List.length_append]
        dsimp only
        omega
      · obtain ⟨-, rfl⟩ := Prod.mk.inj (Option.some_inj.mp hret)
        rw [Transfer.moved_singleton]
        have hfull := (attempt size).full
        exact iff_of_false (fun h => hsize (by rw [hfull h, Nat.sub_self])) (by dsimp only; omega)

end

/-- The three loops, for all that the underlying calls do: what they ask for is in the buffer, and
what is moved is moved once, in order and in place. -/
theorem transfers_move_each_byte_once {EAGAIN : Int32} (hEAGAIN : EAGAIN ≠ 0) (m : Memory)
    (p len : Nat) :
    (∀ script : List ((len : Nat) → ReadResult len), ∀ t, t = readFull EAGAIN script m p len 0 →
      t.Sound EAGAIN (script.map ofRead) p len 0
        ∧ t.memory = m.write p t.moved ∧ t.memory.read p t.moved.length = t.moved
        ∧ ∀ rd err, t.ret = some (rd, err) → (err = 0 ↔ rd = len))
      ∧ (∀ script : List ((len : Nat) → ReadResult len), ∀ t, t = read EAGAIN script m p len 0 →
        t.Sound EAGAIN (script.map ofRead) p len 0
          ∧ t.memory = m.write p t.moved ∧ t.memory.read p t.moved.length = t.moved
          ∧ t.Prompt ∧ (t.ret = some (0, 0) → len = 0))
      ∧ ∀ script : List ((size : Nat) → WriteResult size), ∀ t, t = write EAGAIN script m p len 0 →
        t.Sound EAGAIN (script.map (ofWrite m)) p len 0
          ∧ t.moved = m.read p t.moved.length ∧ t.memory = m
          ∧ ∀ wr err, t.ret = some (wr, err) → (err = 0 ↔ wr = len) := by
  refine ⟨?_, ?_, ?_⟩
  · rintro script t rfl
    have hsound := readFull_sound hEAGAIN script m p len 0
    refine ⟨hsound, readFull_memory script m p len 0, ?_, fun rd err hret => ?_⟩
    · rw [readFull_memory, Memory.read_write]
    · rw [readFull_zero script m p len 0 hret, (hsound.returned rd err hret).1, Nat.zero_add]
  · rintro script t rfl
    refine ⟨read_sound hEAGAIN script m p len 0, read_memory script m p len, ?_,
      read_prompt script m p len, read_zero script m p len⟩
    rw [read_memory, Memory.read_write]
  · rintro script t rfl
    have hsound := write_sound hEAGAIN script m p len 0
    obtain ⟨hmoved, hmemory⟩ := write_moved script m p len 0
    refine ⟨hsound, hmoved, hmemory, fun wr err hret => ?_⟩
    rw [write_zero script m p len 0 hret, (hsound.returned wr err hret).1, Nat.zero_add]

/-- A read and a write in two parts each. -/
theorem transfers_move_each_byte_once_parts :
    (11 : Int32) ≠ 0 ∧ (∃ t, t = readFull 11
        [fun len => if h : 2 ≤ len then ⟨[1, 2], 11, h, fun herr => absurd herr (by decide)⟩
            else ⟨[], 11, Nat.zero_le len, fun herr => absurd herr (by decide)⟩,
          fun len => ⟨List.replicate len 3, 0, by simp, by simp⟩] (fun _ => 0) 100 4 0
      ∧ t.ret = some (4, 0) ∧ t.memory.read 100 4 = [1, 2, 3, 3]
      ∧ t.memory.read 100 t.moved.length = t.moved)
    ∧ ∃ t, t = write 11
        [fun size => if h : 1 ≤ size then ⟨1, 11, h, fun herr => absurd herr (by decide)⟩
            else ⟨0, 11, Nat.zero_le size, fun herr => absurd herr (by decide)⟩,
          fun size => ⟨size, 0, Nat.le_refl size, fun _ => rfl⟩] UInt8.ofNat 100 3 0
      ∧ t.ret = some (3, 0) ∧ t.moved = [100, 101, 102]
      ∧ t.calls.map (fun c => (c.p, c.len)) = [(100, 3), (101, 2)]
      ∧ (∀ c ∈ t.calls, 100 ≤ c.p ∧ c.p + c.len ≤ 103)
      ∧ ∃ c ∈ t.calls.getLast?, (0 : Int32) ≠ 0 → 0 = c.err := by
  refine ⟨by decide, ⟨_, rfl, by decide, by decide, ?_⟩, _, rfl, by decide, by decide, by decide,
    ?_, ?_⟩
  · exact ((transfers_move_each_byte_once (by decide) _ 100 4).1 _ _ rfl).2.2.1
  · exact ((transfers_move_each_byte_once (by decide) UInt8.ofNat 100 3).2.2 _ _ rfl).1.inside
  · exact (((transfers_move_each_byte_once (by decide) UInt8.ofNat 100 3).2.2 _ _ rfl).1.returned
      3 0 (by decide)).2.2

end Stp.Io
