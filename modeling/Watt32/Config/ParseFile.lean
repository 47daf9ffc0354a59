import Mathlib.Data.BitVec
import Mathlib.Data.List.DropRight
import Mathlib.Tactic

/-!
# `tcp_parse_file`

The parser of the configuration file in `pcconfig.c`, a machine that reads one character after the other.

* `State`, `Line`: what it knows of the file, and of a line; `State.turn`, `State.endLine`: one turn of the inner loop,
  and what is done with a line at its end.
* `tcpParseFile`: what goes to `tcp_inject_config_direct`.
* `Parses`: what the machine makes of the rest of a file; one rule for each kind of turn.
* **`Parses.unique`**, `injects_iff`: it is what the machine makes of it.
-/

namespace Watt32.Config

abbrev Byte := BitVec 8

/-! ## The source -/

/-- The characters that the parser knows. -/
def tab : Byte := 9
def lf : Byte := 10
def cr : Byte := 13
def ctrlZ : Byte := 26
def blank : Byte := 32
def quote : Byte := 34
def hash : Byte := 35
def semicolon : Byte := 59
def equals : Byte := 61

def maxNamelen : ℕ := 80
def maxValuelen : ℕ := 80

/-- `enum ParseMode`. -/
inductive ParseMode
  | keyword | value | comment
  deriving DecidableEq

/-- What is known of a line; `num` is the length of what is being filled. -/
structure Line where
  key : List Byte := []
  value : List Byte := []
  mode : ParseMode := .keyword
  quoteMode : Bool := false
  stripping : Bool := true

/-- What `tcp_parse_file` knows: the characters that `FREAD` has not returned, the one that was read ahead, the line,
and the pairs that went to `tcp_inject_config_direct`. -/
structure State where
  rest : List Byte
  nextch : Byte := 0
  numRead : ℕ := 0
  gotEol : Bool := false
  eof : Bool := false
  line : Line := {}
  injected : List (List Byte × List Byte) := []

/-- `READ_NEXT_CH`. -/
def State.readNextCh (s : State) : Byte × State :=
  match s.rest with
  | [] => (0, { s with gotEol := true, eof := true })
  | c :: rest =>
    if c = ctrlZ then (0, { s with rest := rest, gotEol := true, eof := true })
    else (c, { s with rest := rest, numRead := s.numRead + 1 })

/-- `READ_CH`. -/
def State.readCh (s : State) : Byte × State :=
  if s.nextch ≠ 0 then (s.nextch, { s with nextch := 0 }) else s.readNextCh

/-- The cases of the first `switch` that do not read ahead: `#` and `;`, `=`, blanks, all others. -/
def Line.switch (ln : Line) (ch : Byte) : Byte × Line :=
  if ch = hash ∨ ch = semicolon then (ch, if ln.quoteMode then ln else { ln with mode := .comment })
  else if ch = equals then
    if ln.quoteMode = false ∧ ln.mode = .keyword then (0, { ln with mode := .value, value := [], stripping := true })
    else (ch, ln)
  else if ch = blank ∨ ch = tab then (if ln.stripping then 0 else ch, ln)
  else (ch, ln)

/-- The first `switch`: what is left of the character, and the state. -/
def State.switch (s : State) (ch : Byte) : Byte × State :=
  if ch = cr then
    let next := s.readNextCh
    (0, { next.2 with nextch := if next.1 = lf then 0 else next.1, gotEol := true })
  else if ch = lf then (0, { s with gotEol := true })
  else if ch = quote then
    if s.line.mode ≠ .value then (0, s)
    else
      let next := s.readNextCh
      -- a doubled quote is kept, a single one turns the quote mode
      if next.1 = quote then (ch, { next.2 with nextch := 0 })
      else (0, { next.2 with nextch := next.1, line := { s.line with quoteMode := !s.line.quoteMode, stripping := false } })
  else ((s.line.switch ch).1, { s with line := (s.line.switch ch).2 })

def toupper (c : Byte) : Byte := if 97 ≤ c ∧ c ≤ 122 then c - 32 else c

/-- The second `switch`: a character is added if there is room. -/
def Line.store (ln : Line) (ch : Byte) : Line :=
  if ch = 0 then ln
  else
    match ln.mode with
    | .keyword =>
      { ln with key := if ln.key.length ≤ maxNamelen - 1 then ln.key ++ [toupper ch] else ln.key, stripping := false }
    | .value => { ln with value := if ln.value.length ≤ maxValuelen - 1 then ln.value ++ [ch] else ln.value, stripping := false }
    | .comment => ln

/-- A turn of the inner loop, up to the test of `got_eol`. -/
def State.turn (s : State) : State :=
  let read := s.readCh
  let kept := read.2.switch read.1
  { kept.2 with line := kept.2.line.store kept.1 }

/-- `isspace` in the C locale. -/
def isspace (ch : ℤ) : Bool := 9 ≤ ch ∧ ch ≤ 13 ∨ ch = 32

/-- What `str_rtrim` takes off: blanks, and each `char` that is not `VALID_CH`. -/
def trimmed (c : Byte) : Bool := ¬ (-1 ≤ c.toInt ∧ c.toInt ≤ 255 ∧ isspace c.toInt = false)

/-- `str_rtrim`, which keeps the first character. -/
def strRtrim : List Byte → List Byte
  | [] => []
  | c :: s => c :: s.rdropWhile trimmed

/-- What goes to `tcp_inject_config_direct` at the end of a line. -/
def Line.close (ln : Line) : List (List Byte × List Byte) :=
  if strRtrim ln.key ≠ [] ∧ strRtrim ln.value ≠ [] then [(strRtrim ln.key, strRtrim ln.value)] else []

/-- The loops of `tcp_parse_file`, in `fuel` turns of the inner one at most. -/
def parseLoop : (fuel : ℕ) → State → Option (List (List Byte × List Byte))
  | 0, _ => none
  | fuel + 1, s =>
    let s := s.turn
    if s.gotEol then
      let injected := s.injected ++ s.line.close
      if s.eof then some injected
      else parseLoop fuel { s with injected := injected, line := {}, gotEol := false }
    else parseLoop fuel s

/-- `tcp_parse_file`. -/
def tcpParseFile (fuel : ℕ) (file : List Byte) : Option (List (List Byte × List Byte)) := parseLoop fuel { rest := file }

/-- `tcp_parse_file` terminates, and these pairs went to `tcp_inject_config_direct`. -/
def Injects (file : List Byte) (pairs : List (List Byte × List Byte)) : Prop := ∃ fuel, tcpParseFile fuel file = some pairs

/-! ## What the machine makes of the rest of a file -/

/-- The characters that come next. -/
def State.pending (s : State) : List Byte := if s.nextch = 0 then s.rest else s.nextch :: s.rest

/-- The machine is within the line `ln`, and `l` is to come. -/
structure Shows (s : State) (l : List Byte) (ln : Line) (inj : List (List Byte × List Byte)) : Prop where
  pending : s.pending = l
  line : s.line = ln
  injected : s.injected = inj
  gotEol : s.gotEol = false
  eof : s.eof = false

/-- From the line `ln` with `l` to come, after the pairs `inj`, the machine ends with `out`. -/
def Parses (l : List Byte) (ln : Line) (inj out : List (List Byte × List Byte)) : Prop :=
  ∀ s, Shows s l ln inj → ∃ fuel, parseLoop fuel s = some out

/-- A character that is not the end of the file. -/
def Text (c : Byte) : Prop := c ≠ 0 ∧ c ≠ ctrlZ

instance {c : Byte} : Decidable (Text c) := inferInstanceAs (Decidable (_ ∧ _))

variable {s : State} {l : List Byte} {ln ln' : Line} {inj out out' : List (List Byte × List Byte)} {c : Byte} {fuel k : ℕ}
  {l' : List Byte}

theorem parseLoop_mono (h : parseLoop fuel s = some out) : parseLoop (fuel + k) s = some out := by
  induction fuel generalizing s with
  | zero => cases h
  | succ fuel ih =>
    rw [Nat.add_right_comm]
    simp only [parseLoop] at h ⊢
    split_ifs at h ⊢ with heol heof
    · exact h
    · exact ih h
    · exact ih h

/-- **The result is unique.** -/
theorem Parses.unique (h : Parses l ln inj out) (h' : Parses l ln inj out') : out = out' := by
  have hs : Shows { rest := l, line := ln, injected := inj } l ln inj := ⟨if_pos rfl, rfl, rfl, rfl, rfl⟩
  obtain ⟨n, hn⟩ := h _ hs
  obtain ⟨n', hn'⟩ := h' _ hs
  have hmore := parseLoop_mono (k := n') hn
  rw [Nat.add_comm, parseLoop_mono hn'] at hmore
  exact (Option.some.inj hmore).symm

/-- What a file injects is what the machine makes of it. -/
theorem injects_iff {file : List Byte} (h : Parses file {} [] out) : Injects file out' ↔ out' = out := by
  have hs : Shows { rest := file } file {} [] := ⟨if_pos rfl, rfl, rfl, rfl, rfl⟩
  obtain ⟨n, hn⟩ := h _ hs
  constructor
  · rintro ⟨n', hn'⟩
    have hmore := parseLoop_mono (k := n') hn
    rw [Nat.add_comm, parseLoop_mono hn'] at hmore
    exact Option.some.inj hmore
  · rintro rfl
    exact ⟨n, hn⟩

/-! ## Reading -/

theorem Shows.readNextCh (h : s.nextch = 0) (hs : s.pending = c :: l) (hc : Text c) :
    s.readNextCh = (c, { s with rest := l, numRead := s.numRead + 1 }) := by
  unfold State.pending at hs
  rw [if_pos h] at hs
  simp only [State.readNextCh, hs, if_neg hc.2]

/-- What `READ_CH` leaves. -/
theorem Shows.readCh (h : Shows s (c :: l) ln inj) (hc : Text c) :
    s.readCh.1 = c ∧ s.readCh.2.nextch = 0 ∧ Shows s.readCh.2 l ln inj := by
  have hpending := h.pending
  unfold State.pending at hpending
  unfold State.readCh
  by_cases hnext : s.nextch = 0
  · rw [if_neg (not_not.mpr hnext), Shows.readNextCh hnext h.pending hc]
    exact ⟨rfl, hnext, if_pos hnext, h.line, h.injected, h.gotEol, h.eof⟩
  · rw [if_neg hnext] at hpending
    obtain ⟨hhead, hrest⟩ := List.cons.inj hpending
    rw [if_pos hnext]
    exact ⟨hhead, rfl, (if_pos rfl).trans hrest, h.line, h.injected, h.gotEol, h.eof⟩

/-- The machine in a line goes on to another state of it, from which it ends. -/
theorem Parses.of_turn (h : Parses l ln' inj out)
    (hturn : ∀ s, Shows s (c :: l') ln inj → Shows s.turn l ln' inj) : Parses (c :: l') ln inj out := by
  intro s hs
  obtain ⟨fuel, hfuel⟩ := h s.turn (hturn s hs)
  refine ⟨fuel + 1, ?_⟩
  simp only [parseLoop, (hturn s hs).gotEol, Bool.false_eq_true, if_false]
  exact hfuel

/-- What a turn leaves at the end of a line. -/
structure Ended (s : State) (l : List Byte) (ln : Line) (inj : List (List Byte × List Byte)) (eof : Bool) : Prop where
  pending : eof = false → s.pending = l
  line : s.line = ln
  injected : s.injected = inj
  gotEol : s.gotEol = true
  eof : s.eof = eof

/-- The machine comes to the end of a line, and goes on with the next one. -/
theorem Parses.of_ended (h : Parses l {} (inj ++ ln'.close) out)
    (hturn : ∀ s, Shows s (c :: l') ln inj → Ended s.turn l ln' inj false) : Parses (c :: l') ln inj out := by
  intro s hs
  have hend := hturn s hs
  obtain ⟨fuel, hfuel⟩ := h
    { s.turn with injected := inj ++ ln'.close, line := {}, gotEol := false, eof := false }
    ⟨hend.pending rfl, rfl, rfl, rfl, rfl⟩
  refine ⟨fuel + 1, ?_⟩
  simp only [parseLoop, hend.gotEol, hend.eof, hend.line, hend.injected, Bool.false_eq_true, if_true, if_false]
  exact hfuel

/-- The machine comes to the end of the file. -/
theorem parses_eof (hturn : ∀ s, Shows s l' ln inj → Ended s.turn [] ln' inj true) : Parses l' ln inj (inj ++ ln'.close) := by
  intro s hs
  have hend := hturn s hs
  refine ⟨1, ?_⟩
  simp only [parseLoop, hend.gotEol, hend.eof, hend.line, hend.injected, if_true]

/-! ## One turn -/

/-- What a turn does with a character that is not an end of line or a quote. -/
def Line.plain (ln : Line) (c : Byte) : Line := (ln.switch c).2.store (ln.switch c).1

/-- A character that does not make the machine read ahead. -/
structure Plain (c : Byte) : Prop where
  text : Text c
  cr : c ≠ cr
  lf : c ≠ lf
  quote : c ≠ quote

theorem Parses.plain (hc : Plain c) (h : Parses l (ln.plain c) inj out) : Parses (c :: l) ln inj out := by
  refine h.of_turn fun s hs => ?_
  obtain ⟨hch, hnext, hread⟩ := hs.readCh hc.text
  have hturn : s.turn = { s.readCh.2 with line := ln.plain c } := by
    simp only [State.turn, State.switch, hch, if_neg hc.cr, if_neg hc.lf, if_neg hc.quote, hread.line]
    rfl
  rw [hturn]
  exact ⟨hread.pending, rfl, hread.injected, hread.gotEol, hread.eof⟩

/-- A doubled quote. -/
theorem Parses.quotes (hmode : ln.mode = .value) (h : Parses l (ln.store quote) inj out) :
    Parses (quote :: quote :: l) ln inj out := by
  refine h.of_turn fun s hs => ?_
  obtain ⟨hch, hnext, hread⟩ := hs.readCh (by decide)
  have hturn : s.turn = { s.readCh.2 with
      rest := l, nextch := 0, numRead := s.readCh.2.numRead + 1, line := ln.store quote } := by
    simp only [State.turn, State.switch, hch, if_neg (show quote ≠ cr by decide), if_neg (show quote ≠ lf by decide),
      if_true, if_neg (not_not.mpr hmode), Shows.readNextCh hnext hread.pending (show Text quote by decide),
      hread.line]
  rw [hturn]
  exact ⟨if_pos rfl, rfl, hread.injected, hread.gotEol, hread.eof⟩

/-- The line behind a single quote. -/
def Line.toggle (ln : Line) : Line := { ln with quoteMode := !ln.quoteMode, stripping := false }

/-- A single quote. -/
theorem Parses.single (hmode : ln.mode = .value) (hc : Text c) (hne : c ≠ quote) (h : Parses (c :: l) ln.toggle inj out) :
    Parses (quote :: c :: l) ln inj out := by
  refine h.of_turn fun s hs => ?_
  obtain ⟨hch, hnext, hread⟩ := hs.readCh (by decide)
  have hturn : s.turn = { s.readCh.2 with
      rest := l, nextch := c, numRead := s.readCh.2.numRead + 1, line := ln.toggle } := by
    simp only [State.turn, State.switch, hch, if_neg (show quote ≠ cr by decide), if_neg (show quote ≠ lf by decide),
      if_true, if_neg (not_not.mpr hmode), Shows.readNextCh hnext hread.pending hc, if_neg hne, hread.line]
    rfl
  rw [hturn]
  exact ⟨if_neg hc.1, rfl, hread.injected, hread.gotEol, hread.eof⟩

theorem readNextCh_nil (h : s.rest = []) : s.readNextCh = (0, { s with gotEol := true, eof := true }) := by
  simp only [State.readNextCh, h]

theorem Shows.rest (h : Shows s l ln inj) (hnext : s.nextch = 0) : s.rest = l := (if_pos hnext).symm.trans h.pending

/-- A quote at the end of the file. -/
theorem parses_lastQuote (hmode : ln.mode = .value) : Parses [quote] ln inj (inj ++ ln.toggle.close) := by
  refine parses_eof fun s hs => ?_
  obtain ⟨hch, hnext, hread⟩ := hs.readCh (by decide)
  have hturn : s.turn = { s.readCh.2 with nextch := 0, gotEol := true, eof := true, line := ln.toggle } := by
    simp only [State.turn, State.switch, hch, if_neg (show quote ≠ cr by decide), if_neg (show quote ≠ lf by decide),
      if_true, if_neg (not_not.mpr hmode), readNextCh_nil (hread.rest hnext),
      if_neg (show (0 : Byte) ≠ quote by decide), hread.line]
    rfl
  rw [hturn]
  exact ⟨Bool.noConfusion, rfl, hread.injected, rfl, rfl⟩

/-- The end of the file. -/
theorem parses_nil : Parses [] ln inj (inj ++ ln.close) := by
  refine parses_eof fun s hs => ?_
  have hpending := hs.pending
  unfold State.pending at hpending
  have hnext : s.nextch = 0 := by
    by_contra h
    rw [if_neg h] at hpending
    cases hpending
  rw [if_pos hnext] at hpending
  have hturn : s.turn = { s with gotEol := true, eof := true } := by
    simp only [State.turn, State.readCh, hnext, ne_eq, not_true_eq_false, if_false, readNextCh_nil hpending]
    rfl
  rw [hturn]
  exact ⟨Bool.noConfusion, hs.line, hs.injected, rfl, rfl⟩

/-! ## Ends of lines -/

theorem Parses.lf (h : Parses l {} (inj ++ ln.close) out) : Parses (lf :: l) ln inj out := by
  refine h.of_ended fun s hs => ?_
  obtain ⟨hch, hnext, hread⟩ := hs.readCh (by decide)
  have hturn : s.turn = { s.readCh.2 with gotEol := true } := by
    simp only [State.turn, State.switch, hch, if_neg (show Config.lf ≠ Config.cr by decide), if_true]
    rfl
  rw [hturn]
  exact ⟨fun _ => hread.pending, hread.line, hread.injected, rfl, hread.eof⟩

theorem Parses.crlf (h : Parses l {} (inj ++ ln.close) out) : Parses (cr :: Config.lf :: l) ln inj out := by
  refine h.of_ended fun s hs => ?_
  obtain ⟨hch, hnext, hread⟩ := hs.readCh (by decide)
  have hturn : s.turn = { s.readCh.2 with
      rest := l, nextch := 0, numRead := s.readCh.2.numRead + 1, gotEol := true } := by
    simp only [State.turn, State.switch, hch, if_true, Shows.readNextCh hnext hread.pending (show Text Config.lf by decide)]
    rfl
  rw [hturn]
  exact ⟨fun _ => if_pos rfl, hread.line, hread.injected, rfl, hread.eof⟩

/-- A `CR` before the first character of the next line. -/
theorem Parses.cr (hc : Text c) (hne : c ≠ Config.lf) (h : Parses (c :: l) {} (inj ++ ln.close) out) :
    Parses (cr :: c :: l) ln inj out := by
  refine h.of_ended fun s hs => ?_
  obtain ⟨hch, hnext, hread⟩ := hs.readCh (by decide)
  have hturn : s.turn = { s.readCh.2 with
      rest := l, nextch := c, numRead := s.readCh.2.numRead + 1, gotEol := true } := by
    simp only [State.turn, State.switch, hch, if_true, Shows.readNextCh hnext hread.pending hc, if_neg hne]
    rfl
  rw [hturn]
  exact ⟨fun _ => if_neg hc.1, hread.line, hread.injected, rfl, hread.eof⟩

/-- A `CR` at the end of the file. -/
theorem parses_lastCr : Parses [cr] ln inj (inj ++ ln.close) := by
  refine parses_eof fun s hs => ?_
  obtain ⟨hch, hnext, hread⟩ := hs.readCh (by decide)
  have hturn : s.turn = { s.readCh.2 with nextch := 0, gotEol := true, eof := true } := by
    simp only [State.turn, State.switch, hch, if_true, readNextCh_nil (hread.rest hnext),
      if_neg (show (0 : Byte) ≠ Config.lf by decide)]
    rfl
  rw [hturn]
  exact ⟨Bool.noConfusion, hread.line, hread.injected, rfl, rfl⟩

end Watt32.Config
