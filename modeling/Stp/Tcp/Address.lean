import Mathlib

/-!
# Addresses

`_getaddrinfo` copies its address, and `_parse` looks for host and port in the copy: it takes off a
scheme, searches the last colon, and ends the host with a zero that it writes into the copy. Memory
is the list of the copy's characters and a pointer is a position in it. `none` is an access outside
the copy, a difference of pointers or lengths that leaves it, or an assertion that fails.
-/

namespace Stp.Tcp

abbrev Chars := List UInt8

def nul : UInt8 := 0
def colon : UInt8 := ':'.toUInt8
def openBracket : UInt8 := '['.toUInt8
def closeBracket : UInt8 := ']'.toUInt8
def star : UInt8 := '*'.toUInt8

def tcpPrefix : Chars := ['t', 'c', 'p', ':', '/', '/'].map Char.toUInt8
def tcp4Prefix : Chars := ['t', 'c', 'p', '4', ':', '/', '/'].map Char.toUInt8
def tcp6Prefix : Chars := ['t', 'c', 'p', '6', ':', '/', '/'].map Char.toUInt8

inductive Family where
  | AF_UNSPEC
  | AF_INET
  | AF_INET6
deriving DecidableEq, Repr

/-! ### The code -/

/-- Whether `strncmp` with all of a literal gives zero. It stops at the first difference, so at the
zero that ends the string. -/
def strncmpIsZero (buf : Chars) : (p : Nat) → (literal : Chars) → Option Bool
  | _, [] => some true
  | p, c :: literal => do
      let b ← buf[p]?
      if b = c then strncmpIsZero buf (p + 1) literal else return false

/-- `memrchr`, from the last of the `n` characters at `p`. -/
def memrchr (buf : Chars) (p : Nat) (c : UInt8) : (n : Nat) → Option (Option Nat)
  | 0 => some none
  | n + 1 => do
      let b ← buf[p + n]?
      if b = c then return some (p + n) else memrchr buf p c n

def store (buf : Chars) (p : Nat) (c : UInt8) : Option Chars :=
  if p < buf.length then some (buf.set p c) else none

def minus (p n : Nat) : Option Nat :=
  if n ≤ p then some (p - n) else none

/-- The string at a pointer. -/
def cstring (buf : Chars) (p : Nat) : Option Chars :=
  if nul ∈ buf.drop p then some ((buf.drop p).takeWhile (· != nul)) else none

def trim (buf : Chars) (addr : Nat) : Option (Nat × Family) := do
  if ← strncmpIsZero buf addr tcpPrefix then return (tcpPrefix.length, .AF_UNSPEC)
  if ← strncmpIsZero buf addr tcp4Prefix then return (tcp4Prefix.length, .AF_INET)
  if ← strncmpIsZero buf addr tcp6Prefix then return (tcp6Prefix.length, .AF_INET6)
  return (0, .AF_UNSPEC)

/-- The end of `_parse`: the memory with the host's end in it, and the pointer to the host. -/
def parseHost (buf : Chars) (first last : Nat) : Option (Chars × Option Nat) := do
  guard (first ≤ last)
  if first = last then return (buf, none)
  if first + 1 = last then
    if (← buf[first]?) = star then return (buf, none)
  return (← store buf last nul, some first)

/-- `_parse`: the memory it leaves, the family, and host and port unless it returns `false`. -/
def parse (buf : Chars) (addr len : Nat) :
    Option (Chars × Family × Option (Option Nat × Nat)) := do
  let (n, family) ← trim buf addr
  let addr := addr + n
  let len ← minus len n
  let some sep ← memrchr buf addr colon len | return (buf, family, none)
  if (← buf[addr]?) = openBracket then
    let last ← minus sep 1
    if (← buf[last]?) ≠ closeBracket then return (buf, family, none)
    let (buf, host) ← parseHost buf (addr + 1) last
    return (buf, family, some (host, sep + 1))
  else
    let (buf, host) ← parseHost buf addr sep
    return (buf, family, some (host, sep + 1))

/-- The host, where one is named, and the port. -/
def strings (copy : Chars) (host : Option Nat) (port : Nat) : Option (Option Chars × Chars) := do
  let port ← cstring copy port
  let some host := host | return (none, port)
  return (some (← cstring copy host), port)

/-- What `_getaddrinfo` asks for: the family, and host and port unless the format is illegal. -/
def parseCopy (addr : Chars) : Option (Family × Option (Option Chars × Chars)) := do
  let (copy, family, parts) ← parse (addr ++ [nul]) 0 addr.length
  let some (host, port) := parts | return (family, none)
  return (family, some (← strings copy host port))

example : parseCopy (tcp6Prefix ++ [openBracket, colon, colon, closeBracket, colon, 56, 48])
    = some (.AF_INET6, some (some [colon, colon], [56, 48])) := by decide

/-! ### The grammar -/

inductive Scheme where
  | none
  | tcp
  | tcp4
  | tcp6
deriving DecidableEq, Repr

def Scheme.text : Scheme → Chars
  | .none => []
  | .tcp => tcpPrefix
  | .tcp4 => tcp4Prefix
  | .tcp6 => tcp6Prefix

def Scheme.family : Scheme → Family
  | .none | .tcp => .AF_UNSPEC
  | .tcp4 => .AF_INET
  | .tcp6 => .AF_INET6

/-- An address is a scheme and a rest; the scheme is missing only where none could be read. -/
structure Splits (s : Chars) (scheme : Scheme) (rest : Chars) : Prop where
  text : s = scheme.text ++ rest
  missing : scheme = .none → ∀ other : Scheme, other.text <+: s → other = .none

/-- A rest is read at its last colon. -/
structure Rest (rest before port : Chars) : Prop where
  text : rest = before ++ colon :: port
  last : colon ∉ port

/-- The host as written, with the brackets taken off. -/
def unbracketed (before : Chars) : Chars :=
  if before.head? = some openBracket then before.tail.dropLast else before

/-- The host as passed on: none for the wildcards. -/
def named (host : Chars) : Option Chars :=
  if host = [] ∨ host = [star] then none else some host

/-! ### What is read -/

theorem strncmpIsZero_eq (lead s literal : Chars) (hliteral : nul ∉ literal) :
    strncmpIsZero (lead ++ s ++ [nul]) lead.length literal = some (decide (literal <+: s)) := by
  induction literal generalizing lead s with
  | nil => simp [strncmpIsZero]
  | cons c literal ih =>
      obtain ⟨hc, hliteral⟩ := List.ne_and_not_mem_of_not_mem_cons hliteral
      cases s with
      | nil => simp [strncmpIsZero, hc]
      | cons b s =>
          have hnext := ih (lead ++ [b]) s hliteral
          rw [List.append_assoc lead, List.singleton_append, List.length_append] at hnext
          by_cases hb : b = c
          · simpa [strncmpIsZero, hb, List.cons_prefix_cons] using hnext
          · simp [strncmpIsZero, hb, List.cons_prefix_cons, Ne.symm hb]

theorem nul_not_mem_text (scheme : Scheme) : nul ∉ scheme.text := by
  cases scheme <;> decide

/-- No scheme begins with another one. -/
theorem Scheme.eq_of_text_prefix {scheme other : Scheme} (hother : other ≠ .none)
    (htext : other.text <+: scheme.text) : other = scheme := by
  cases other <;> cases scheme <;> first | rfl | exact absurd rfl hother | (revert htext; decide)

theorem Splits.prefix_iff {s rest : Chars} {scheme other : Scheme} (hs : Splits s scheme rest)
    (hother : other ≠ .none) : other.text <+: s ↔ other = scheme := by
  refine ⟨fun htext => ?_, fun heq => ⟨rest, by rw [heq, hs.text]⟩⟩
  by_cases hscheme : scheme = .none
  · exact absurd (hs.missing hscheme other htext) hother
  · obtain hpre | hpre := List.prefix_or_prefix_of_prefix htext ⟨rest, hs.text.symm⟩
    · exact Scheme.eq_of_text_prefix hother hpre
    · exact (Scheme.eq_of_text_prefix hscheme hpre).symm

theorem trim_eq {s rest : Chars} {scheme : Scheme} (hs : Splits s scheme rest) :
    trim (s ++ [nul]) 0 = some (scheme.text.length, scheme.family) := by
  have hread (other : Scheme) (hother : other ≠ .none) :
      strncmpIsZero (s ++ [nul]) 0 other.text = some (decide (other = scheme)) := by
    rw [← decide_eq_decide.mpr (hs.prefix_iff hother)]
    exact strncmpIsZero_eq [] s other.text (nul_not_mem_text other)
  have htcp := hread .tcp Scheme.noConfusion
  have htcp4 := hread .tcp4 Scheme.noConfusion
  have htcp6 := hread .tcp6 Scheme.noConfusion
  simp only [Scheme.text] at htcp htcp4 htcp6
  simp only [trim, htcp, htcp4, htcp6]
  cases scheme <;> rfl

/-- The search passes over what is not the character. -/
theorem memrchr_append (lead kept skipped tail : Chars) {c : UInt8} (hskipped : c ∉ skipped) :
    memrchr (lead ++ kept ++ skipped ++ tail) lead.length c (kept.length + skipped.length)
      = memrchr (lead ++ kept ++ skipped ++ tail) lead.length c kept.length := by
  induction skipped using List.reverseRecOn generalizing tail with
  | nil => rfl
  | append_singleton skipped b ih =>
      obtain ⟨hskipped, hb⟩ := not_or.mp (mt List.mem_append.mpr hskipped)
      rw [← List.append_assoc, List.append_assoc _ [b], List.singleton_append,
        ← ih (b :: tail) hskipped, List.length_append, List.length_singleton, ← Nat.add_assoc,
        memrchr]
      have hread : (lead ++ kept ++ skipped ++ b :: tail)[lead.length
          + (kept.length + skipped.length)]? = some b := by
        rw [← Nat.add_assoc, ← List.length_append, ← List.length_append]
        simp
      rw [hread]
      exact if_neg fun heq => hb (List.mem_singleton.mpr heq.symm)

theorem memrchr_of_not_mem (lead s tail : Chars) {c : UInt8} (hs : c ∉ s) :
    memrchr (lead ++ s ++ tail) lead.length c s.length = some none := by
  simpa [memrchr] using memrchr_append lead [] s tail hs

theorem memrchr_last (lead before after tail : Chars) {c : UInt8} (hafter : c ∉ after) :
    memrchr (lead ++ (before ++ c :: after) ++ tail) lead.length c (before ++ c :: after).length
      = some (some (lead.length + before.length)) := by
  calc memrchr (lead ++ (before ++ c :: after) ++ tail) lead.length c (before ++ c :: after).length
      = memrchr (lead ++ (before ++ [c]) ++ after ++ tail) lead.length c
          ((before ++ [c]).length + after.length) := by simp [Nat.add_assoc, Nat.add_comm 1]
    _ = memrchr (lead ++ (before ++ [c]) ++ after ++ tail) lead.length c
          (before ++ [c]).length := memrchr_append lead (before ++ [c]) after tail hafter
    _ = some (some (lead.length + before.length)) := by simp [memrchr]

theorem cstring_eq (lead s tail : Chars) (hs : nul ∉ s) :
    cstring (lead ++ s ++ nul :: tail) lead.length = some s := by
  have hdrop : (lead ++ s ++ nul :: tail).drop lead.length = s ++ nul :: tail := by
    rw [List.append_assoc, List.drop_left]
  rw [cstring, hdrop, if_pos (by simp), List.takeWhile_append_of_pos, List.takeWhile_cons_of_neg,
    List.append_nil]
  · simp
  · exact fun c hc => bne_iff_ne.mpr fun heq => hs (heq ▸ hc)

/-! ### Hosts and ports -/

/-- A host of the wildcards is not named, and nothing is written then. Any other is ended with a
zero over the character that stands after it. -/
theorem parseHost_eq (lead host tail : Chars) (e : UInt8) :
    parseHost (lead ++ host ++ e :: tail) lead.length (lead.length + host.length)
      = some (if named host = none then (lead ++ host ++ e :: tail, none)
          else (lead ++ host ++ nul :: tail, some lead.length)) := by
  have hstore : store (lead ++ host ++ e :: tail) (lead.length + host.length) nul
      = some (lead ++ host ++ nul :: tail) := by
    rw [← List.length_append, store, if_pos (by simp), List.set_append_right _ _ (Nat.le_refl _),
      Nat.sub_self, List.set_cons_zero]
  have hread (c : UInt8) (after : Chars) (heq : host = c :: after) :
      (lead ++ host ++ e :: tail)[lead.length]? = some c := by
    rw [heq]
    simp
  generalize lead ++ host ++ e :: tail = buf at hstore hread ⊢
  generalize lead ++ host ++ nul :: tail = buf' at hstore ⊢
  match host with
  | [] => simp [parseHost, named]
  | [c] =>
      rw [List.length_singleton] at hstore
      by_cases hc : c = star <;> simp [parseHost, named, hc, hstore, hread c [] rfl]
  | c :: c' :: host =>
      rw [show (c :: c' :: host).length = host.length + 2 from rfl] at hstore ⊢
      simp [parseHost, named, hstore]

/-- What is read back is the host, named or not, and the port. -/
theorem strings_parseHost (lead host between port : Chars) (e : UInt8) (hhost : nul ∉ host)
    (hport : nul ∉ port) :
    ∃ copy ptr, parseHost (lead ++ host ++ e :: (between ++ port ++ [nul])) lead.length
          (lead.length + host.length) = some (copy, ptr)
      ∧ strings copy ptr (lead ++ host ++ e :: between).length = some (named host, port) := by
  have hreadPort (e : UInt8) :
      cstring (lead ++ host ++ e :: (between ++ port ++ [nul]))
        (lead ++ host ++ e :: between).length = some port := by
    simpa using cstring_eq (lead ++ host ++ e :: between) port [] hport
  rw [parseHost_eq]
  by_cases hnamed : named host = none
  · refine ⟨_, _, by rw [if_pos hnamed], ?_⟩
    rw [strings, hreadPort, hnamed]
    rfl
  · refine ⟨_, _, by rw [if_neg hnamed], ?_⟩
    have hname : named host = some host := by
      rw [named] at hnamed ⊢
      split_ifs at hnamed ⊢ <;> trivial
    have hlength : (lead ++ host ++ e :: between).length
        = (lead ++ host ++ nul :: between).length := by simp
    have hreadHost := cstring_eq lead host (between ++ port ++ [nul]) hhost
    rw [strings, hlength, hreadPort nul, hname]
    simp only [Option.bind_eq_bind, Option.bind_some, hreadHost]
    rfl

/-! ### The parser -/

section Parser

variable {s rest before port : Chars} {scheme : Scheme}

/-- What `parse` does after the scheme has been taken off. -/
theorem parse_eq (hs : Splits s scheme rest) :
    parse (s ++ [nul]) 0 s.length = (do
      let copy := scheme.text ++ rest ++ [nul]
      let some sep ← memrchr copy scheme.text.length colon rest.length
        | return (copy, scheme.family, none)
      if (← copy[scheme.text.length]?) = openBracket then
        let last ← minus sep 1
        if (← copy[last]?) ≠ closeBracket then return (copy, scheme.family, none)
        let (copy, host) ← parseHost copy (scheme.text.length + 1) last
        return (copy, scheme.family, some (host, sep + 1))
      else
        let (copy, host) ← parseHost copy scheme.text.length sep
        return (copy, scheme.family, some (host, sep + 1))) := by
  have hlength : minus s.length scheme.text.length = some rest.length := by
    rw [minus, hs.text, List.length_append, if_pos (Nat.le_add_right _ _), Nat.add_sub_cancel_left]
  rw [parse, trim_eq hs]
  simp only [Option.bind_eq_bind, Option.bind_some, Nat.zero_add, hlength]
  rw [hs.text]

theorem parseCopy_of_not_mem (hs : Splits s scheme rest) (hrest : colon ∉ rest) :
    parseCopy s = some (scheme.family, none) := by
  rw [parseCopy, parse_eq hs]
  simp only [memrchr_of_not_mem _ _ _ hrest]
  rfl

theorem memrchr_rest (hrest : Rest rest before port) :
    memrchr (scheme.text ++ rest ++ [nul]) scheme.text.length colon rest.length
      = some (some (scheme.text.length + before.length)) := by
  rw [hrest.text]
  exact memrchr_last scheme.text before port [nul] hrest.last

theorem head?_eq (hrest : Rest rest before port) :
    (scheme.text ++ rest ++ [nul])[scheme.text.length]? = some (before.head?.getD colon) := by
  rw [hrest.text]
  cases before <;> simp

theorem openBracket_iff {before : Chars} :
    before.head?.getD colon = openBracket ↔ before.head? = some openBracket := by
  cases before with
  | nil => decide
  | cons c before => simp

theorem parseCopy_unclosed (hs : Splits s scheme rest) (hrest : Rest rest before port)
    (hopen : before.head? = some openBracket) (hclose : before.getLast? ≠ some closeBracket) :
    parseCopy s = some (scheme.family, none) := by
  obtain rfl | ⟨front, last, rfl⟩ := List.eq_nil_or_concat before
  · exact absurd hopen (by decide)
  rw [List.concat_eq_append] at *
  have hread : (scheme.text ++ rest ++ [nul])[scheme.text.length + front.length]? = some last := by
    rw [hrest.text, ← List.length_append]
    simp
  have hlast : last ≠ closeBracket := fun heq => hclose (by rw [heq, List.getLast?_concat])
  have hminus : minus (scheme.text.length + (front ++ [last]).length) 1
      = some (scheme.text.length + front.length) := by
    rw [minus, List.length_append, List.length_singleton, if_pos (by omega), ← Nat.add_assoc,
      Nat.add_sub_cancel]
  rw [parseCopy, parse_eq hs]
  simp only [memrchr_rest hrest, head?_eq hrest, openBracket_iff.mpr hopen, hminus, hread,
    Option.bind_eq_bind, Option.bind_some, if_true, if_pos hlast]
  rfl

theorem parseCopy_bracketed {host : Chars}
    (hs : Splits s scheme (openBracket :: host ++ closeBracket :: colon :: port))
    (hnul : nul ∉ s) (hport : colon ∉ port) :
    parseCopy s = some (scheme.family, some (named host, port)) := by
  have hrest : Rest (openBracket :: host ++ closeBracket :: colon :: port)
      (openBracket :: host ++ [closeBracket]) port := ⟨by simp, hport⟩
  have hcopy : scheme.text ++ (openBracket :: host ++ closeBracket :: colon :: port) ++ [nul]
      = scheme.text ++ [openBracket] ++ host ++ closeBracket :: ([colon] ++ port ++ [nul]) := by
    simp
  obtain ⟨hhost, hportNul⟩ : nul ∉ host ∧ nul ∉ port := by
    rw [hs.text] at hnul
    simp_all
  obtain ⟨copy, ptr, hparse, hstrings⟩ := strings_parseHost (scheme.text ++ [openBracket]) host
    [colon] port closeBracket hhost hportNul
  have hread : (scheme.text ++ (openBracket :: host ++ closeBracket :: colon :: port)
      ++ [nul])[(scheme.text ++ [openBracket]).length + host.length]? = some closeBracket := by
    rw [hcopy, ← List.length_append]
    simp
  have hminus : minus (scheme.text.length + (openBracket :: host ++ [closeBracket]).length) 1
      = some ((scheme.text ++ [openBracket]).length + host.length) := by
    simp only [List.length_append, List.length_cons, List.length_nil]
    rw [minus, if_pos (by omega)]
    exact congrArg some (by omega)
  have hnext : scheme.text.length + (openBracket :: host ++ [closeBracket]).length + 1
      = (scheme.text ++ [openBracket] ++ host ++ closeBracket :: [colon]).length := by
    simp only [List.length_append, List.length_cons, List.length_nil]
    omega
  have hfirst : scheme.text.length + 1 = (scheme.text ++ [openBracket]).length := by simp
  have hopen : ((openBracket :: host ++ [closeBracket]).head?.getD colon) = openBracket := rfl
  rw [← hcopy] at hparse
  rw [← hnext] at hstrings
  rw [parseCopy, parse_eq hs]
  simp only [memrchr_rest hrest, head?_eq hrest, hopen, hminus, hread, hfirst, hparse,
    Option.bind_eq_bind, Option.bind_some, if_true, ne_eq, not_true_eq_false, if_false, pure]
  rw [hstrings]
  rfl

theorem parseCopy_plain (hs : Splits s scheme rest) (hrest : Rest rest before port)
    (hnul : nul ∉ s) (hopen : before.head? ≠ some openBracket) :
    parseCopy s = some (scheme.family, some (named before, port)) := by
  have hcopy : scheme.text ++ rest ++ [nul]
      = scheme.text ++ before ++ colon :: ([] ++ port ++ [nul]) := by
    rw [hrest.text]
    simp
  obtain ⟨hbefore, hport⟩ : nul ∉ before ∧ nul ∉ port := by
    rw [hs.text, hrest.text] at hnul
    simp_all
  obtain ⟨copy, ptr, hparse, hstrings⟩ := strings_parseHost scheme.text before [] port colon
    hbefore hport
  have hnext : scheme.text.length + before.length + 1
      = (scheme.text ++ before ++ [colon]).length := by simp [Nat.add_assoc]
  rw [← hcopy] at hparse
  rw [← hnext] at hstrings
  rw [parseCopy, parse_eq hs]
  simp only [memrchr_rest hrest, head?_eq hrest, hparse, if_neg (mt openBracket_iff.mp hopen),
    Option.bind_eq_bind, Option.bind_some, pure]
  rw [hstrings]
  rfl

theorem Rest.exists_of_mem (hrest : colon ∈ rest) : ∃ before port, Rest rest before port := by
  obtain ⟨after, front, hreverse, hafter⟩ :=
    List.eq_append_cons_of_mem (List.mem_reverse.mpr hrest)
  refine ⟨front.reverse, after.reverse, ?_, mt List.mem_reverse.mp hafter⟩
  rw [← List.reverse_reverse rest, hreverse]
  simp

theorem Rest.before_unique {before' port' : Chars} (hrest : Rest rest before port)
    (hrest' : Rest rest before' port') : before = before' := by
  have hsep := memrchr_last [] before port [] hrest.last
  have hsep' := memrchr_last [] before' port' [] hrest'.last
  rw [← hrest.text] at hsep
  rw [← hrest'.text, hsep] at hsep'
  have hlength : before.length = before'.length := by simpa using hsep'
  exact (List.append_inj (hrest.text.symm.trans hrest'.text) hlength).1

theorem Rest.head?_iff (hrest : Rest rest before port) :
    rest.head? = some openBracket ↔ before.head? = some openBracket := by
  rw [hrest.text]
  cases before with
  | nil => simp [show colon ≠ openBracket by decide]
  | cons c before => rfl

/-- What stands in brackets. -/
theorem Rest.bracketed (hrest : Rest rest before port) (hopen : before.head? = some openBracket)
    (hclose : before.getLast? = some closeBracket) :
    rest = openBracket :: unbracketed before ++ closeBracket :: colon :: port := by
  rw [unbracketed, if_pos hopen]
  obtain ⟨inner, rfl⟩ := List.head?_eq_some_iff.mp hopen
  obtain rfl | ⟨host, last, rfl⟩ := List.eq_nil_or_concat inner
  · exact absurd hclose (by decide)
  · rw [List.concat_eq_append, ← List.cons_append, List.getLast?_concat, Option.some_inj] at hclose
    rw [hrest.text, hclose]
    simp

end Parser

theorem Splits.of_text {scheme : Scheme} (hscheme : scheme ≠ .none) (rest : Chars) :
    Splits (scheme.text ++ rest) scheme rest :=
  ⟨rfl, fun hnone => absurd hnone hscheme⟩

theorem Splits.of_bracket {rest : Chars} (scheme : Scheme) :
    Splits (scheme.text ++ (openBracket :: rest)) scheme (openBracket :: rest) := by
  refine ⟨rfl, fun hscheme other hother => ?_⟩
  rw [hscheme] at hother
  cases other with
  | none => rfl
  | tcp | tcp4 | tcp6 => exact absurd (List.cons_prefix_cons.mp hother).1 (by decide)

theorem Splits.exists (s : Chars) : ∃ scheme rest, Splits s scheme rest := by
  by_cases hsome : ∃ scheme : Scheme, scheme ≠ .none ∧ scheme.text <+: s
  · obtain ⟨scheme, hscheme, rest, rfl⟩ := hsome
    exact ⟨scheme, rest, .of_text hscheme rest⟩
  · refine ⟨.none, s, rfl, fun _ other hother => ?_⟩
    by_contra hne
    exact hsome ⟨other, hne, hother⟩

/-- The parser accepts what has a colon, unless it begins with a bracket and none stands before its
last colon. What is written with a host and a port is read so, in brackets or without. All accesses
are to the copy. -/
theorem parse_accepts_grammar :
    (∀ s, nul ∉ s →
      (∃ scheme rest, Splits s scheme rest)
        ∧ ∀ scheme rest, Splits s scheme rest → ∃ parts,
          parseCopy s = some (scheme.family, parts)
            ∧ (parts = none ↔ colon ∉ rest ∨ (rest.head? = some openBracket
                ∧ ∃ before port, Rest rest before port ∧ before.getLast? ≠ some closeBracket))
            ∧ (parts ≠ none → ∃ before port, Rest rest before port
                ∧ parts = some (named (unbracketed before), port)))
      ∧ ∀ (scheme : Scheme) (host port : Chars), nul ∉ host → nul ∉ port → colon ∉ port →
        parseCopy (scheme.text ++ (openBracket :: host ++ closeBracket :: colon :: port))
            = some (scheme.family, some (named host, port))
          ∧ (host.head? ≠ some openBracket →
              (scheme = .none →
                ∀ other : Scheme, other.text <+: host ++ colon :: port → other = .none) →
            parseCopy (scheme.text ++ (host ++ colon :: port))
              = some (scheme.family, some (named host, port))) := by
  refine ⟨fun s hs => ⟨Splits.exists s, fun scheme rest hsplits => ?_⟩,
    fun scheme host port hhost hportNul hport => ⟨?_, fun hopen hscheme => ?_⟩⟩
  · by_cases hmem : colon ∈ rest
    · obtain ⟨before, port, hrest⟩ := Rest.exists_of_mem hmem
      by_cases hopen : before.head? = some openBracket
      · by_cases hclose : before.getLast? = some closeBracket
        · have hbracketed := hrest.bracketed hopen hclose
          refine ⟨_, parseCopy_bracketed (hbracketed ▸ hsplits) hs hrest.last, ?_,
            fun _ => ⟨before, port, hrest, rfl⟩⟩
          refine iff_of_false (Option.some_ne_none _) ?_
          rintro (hnot | ⟨-, before', port', hrest', hclose'⟩)
          · exact hnot hmem
          · exact hclose' (hrest.before_unique hrest' ▸ hclose)
        · refine ⟨none, parseCopy_unclosed hsplits hrest hopen hclose, ?_, absurd rfl⟩
          exact iff_of_true rfl
            (Or.inr ⟨hrest.head?_iff.mpr hopen, before, port, hrest, hclose⟩)
      · refine ⟨_, parseCopy_plain hsplits hrest hs hopen, ?_,
          fun _ => ⟨before, port, hrest, by rw [unbracketed, if_neg hopen]⟩⟩
        refine iff_of_false (Option.some_ne_none _) ?_
        rintro (hnot | ⟨hopen', -⟩)
        · exact hnot hmem
        · exact hopen (hrest.head?_iff.mp hopen')
    · exact ⟨none, parseCopy_of_not_mem hsplits hmem, iff_of_true rfl (Or.inl hmem), absurd rfl⟩
  · refine parseCopy_bracketed (.of_bracket scheme) ?_ hport
    have htext := nul_not_mem_text scheme
    simp_all [show nul ≠ openBracket by decide, show nul ≠ closeBracket by decide,
      show nul ≠ colon by decide]
  · have hsplits :
        Splits (scheme.text ++ (host ++ colon :: port)) scheme (host ++ colon :: port) := by
      refine ⟨rfl, fun hnone other hother => hscheme hnone other ?_⟩
      rwa [hnone] at hother
    refine parseCopy_plain hsplits ⟨rfl, hport⟩ ?_ hopen
    have htext := nul_not_mem_text scheme
    simp_all [show nul ≠ colon by decide]

/-- `tcp6://[::1]:80`, `*:80`, and `[:1`, whose bracket is not closed. -/
theorem parse_accepts_grammar_brackets :
    parseCopy (tcp6Prefix ++ [openBracket, colon, colon, 49, closeBracket, colon, 56, 48])
        = some (.AF_INET6, some (some [colon, colon, 49], [56, 48]))
      ∧ parseCopy [star, colon, 56, 48] = some (.AF_UNSPEC, some (none, [56, 48]))
      ∧ parseCopy [openBracket, colon, 49] = some (.AF_UNSPEC, none) := by
  obtain ⟨hread, hwritten⟩ := parse_accepts_grammar
  refine ⟨?_, ?_, ?_⟩
  · exact (hwritten .tcp6 [colon, colon, 49] [56, 48] (by decide) (by decide) (by decide)).1
  · refine (hwritten .none [star] [56, 48] (by decide) (by decide) (by decide)).2 (by decide) ?_
    intro _ other hother
    cases other with
    | none => rfl
    | tcp | tcp4 | tcp6 => exact absurd hother (by decide)
  · have hrest : Rest [openBracket, colon, 49] [openBracket] [49] := ⟨rfl, by decide⟩
    obtain ⟨parts, hparse, hiff, -⟩ := (hread [openBracket, colon, 49] (by decide)).2 .none _
      (.of_bracket .none)
    rw [hparse, hiff.mpr (Or.inr ⟨rfl, _, _, hrest, by decide⟩)]
    rfl

end Stp.Tcp
