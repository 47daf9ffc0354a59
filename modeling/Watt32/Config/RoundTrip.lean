import Watt32.Config.ParseFile

/-!
# What is written to a configuration file is read back

* `Setting`, `Setting.line`: a pair, and how it is written; `Eol`, `fileOf`: a file of them.
* `Setting.parsed`: what `tcp_parse_file` makes of it; `Parses.line` takes the machine through a line.
* **`round_trip_iff`**: the pairs come back exactly if each key keeps its last character, and no value is made of
  quotes only.
-/

namespace Watt32.Config

/-! ## Files -/

/-- The characters of keys. -/
structure KeyChar (c : Byte) : Prop where
  control : ¬ (c < 32 ∨ c = 127)
  blank : c ≠ blank
  equals : c ≠ equals
  hash : c ≠ hash
  semicolon : c ≠ semicolon
  quote : c ≠ quote

/-- `isprint` in the C locale. -/
def Printable (c : Byte) : Prop := 32 ≤ c ∧ c ≤ 126

/-- A pair that is written to the file. -/
structure Setting where
  key : List Byte
  value : List Byte
  key_length : 0 < key.length ∧ key.length ≤ maxNamelen
  key_chars : ∀ c ∈ key, KeyChar c
  value_length : 0 < value.length ∧ value.length ≤ maxValuelen
  value_chars : ∀ c ∈ value, Printable c
  value_first : value.head? ≠ some blank
  value_last : value.getLast? ≠ some blank

/-- Every quote doubled. -/
def double (l : List Byte) : List Byte := l.flatMap fun c => if c = quote then [quote, quote] else [c]

/-- `key = "value"`. -/
def Setting.line (p : Setting) : List Byte := p.key ++ [blank, equals, blank, quote] ++ double p.value ++ [quote]

/-- The ends of lines. -/
inductive Eol
  | lf | crlf | cr

def Eol.bytes : Eol → List Byte
  | lf => [Config.lf]
  | crlf => [Config.cr, Config.lf]
  | cr => [Config.cr]

/-- Lines with their ends, and a last one that has none. -/
def fileOf : List (Setting × Eol) → Option Setting → List Byte
  | [], none => []
  | [], some p => p.line
  | (p, e) :: lines, last => p.line ++ (e.bytes ++ fileOf lines last)

def settings (lines : List (Setting × Eol)) (last : Option Setting) : List Setting := lines.map (·.1) ++ last.toList

/-- What should be passed on: the key in upper case, and the value. -/
def Setting.passed (p : Setting) : List Byte × List Byte := (p.key.map toupper, p.value)

/-- What is passed on. -/
def Setting.parsed (p : Setting) : List Byte × List Byte :=
  (strRtrim (p.key.map toupper),
    if (∀ c ∈ p.value, c = quote) ∧ p.value.length < maxValuelen then p.value ++ [quote] else p.value)

/-- `str_rtrim` does not take off the last character of the key. -/
def KeyKept (key : List Byte) : Prop := 1 < key.length → ∀ c ∈ key.getLast?, c < 128 ∨ c = 255

/-- The value has a character that is no quote, or there is no room for another one. -/
def ValueKept (value : List Byte) : Prop := (∃ c ∈ value, c ≠ quote) ∨ value.length = maxValuelen

variable {l v key : List Byte} {ln : Line} {inj out : List (List Byte × List Byte)} {c : Byte} {k : ℕ} {q st : Bool}
  {p : Setting} {e : Eol} {lines : List (Setting × Eol)} {last : Option Setting}

/-! ## Keys -/

theorem KeyChar.plain (h : KeyChar c) : Plain c :=
  ⟨⟨by rintro rfl; exact h.control (by decide), by rintro rfl; exact h.control (by decide)⟩,
    by rintro rfl; exact h.control (by decide), by rintro rfl; exact h.control (by decide), h.quote⟩

/-- A line with a part of the key. -/
abbrev keyLine (key : List Byte) (st : Bool) : Line := { key := key, stripping := st }

theorem plain_keyChar (h : KeyChar c) (hroom : key.length < maxNamelen) :
    (keyLine key st).plain c = keyLine (key ++ [toupper c]) false := by
  have htab : c ≠ tab := by
    rintro rfl
    exact h.control (by decide)
  have hroom' : key.length ≤ maxNamelen - 1 := by omega
  simp only [Line.plain, Line.switch, Line.store, if_neg (not_or.mpr ⟨h.hash, h.semicolon⟩), if_neg h.equals,
    if_neg (not_or.mpr ⟨h.blank, htab⟩), if_neg h.plain.text.1, if_pos hroom']

/-- The characters of the key. -/
theorem Parses.keyword {cs : List Byte} (hcs : ∀ c ∈ cs, KeyChar c) (hroom : key.length + cs.length ≤ maxNamelen)
    (hst : cs = [] → st = false) (h : Parses l (keyLine (key ++ cs.map toupper) false) inj out) :
    Parses (cs ++ l) (keyLine key st) inj out := by
  induction cs generalizing key st with
  | nil =>
    rw [hst rfl]
    simpa using h
  | cons c cs ih =>
    have hc : KeyChar c := hcs c List.mem_cons_self
    rw [List.length_cons] at hroom
    refine Parses.plain hc.plain ?_
    rw [plain_keyChar hc (by omega)]
    refine ih (fun d hd => hcs d (List.mem_cons_of_mem c hd)) ?_ (fun _ => rfl) (by simpa using h)
    rw [List.length_append, List.length_singleton]
    omega

/-- The blank behind the key, if there is room. -/
def withBlank (key : List Byte) : List Byte := if key.length ≤ maxNamelen - 1 then key ++ [blank] else key

/-- A line with a part of the value. -/
abbrev valueLine (key v : List Byte) (q st : Bool) : Line :=
  { key := key, value := v, mode := .value, quoteMode := q, stripping := st }

/-- The equals sign and the blanks around it. -/
theorem Parses.equals (h : Parses l (valueLine (withBlank key) [] false true) inj out) :
    Parses ([blank, equals, blank] ++ l) (keyLine key false) inj out :=
  .plain ⟨by decide, by decide, by decide, by decide⟩ <| .plain ⟨by decide, by decide, by decide, by decide⟩ <|
    .plain ⟨by decide, by decide, by decide, by decide⟩ h

/-! ## Values -/

theorem store_value (hc : c ≠ 0) (hroom : v.length < maxValuelen) :
    (valueLine key v q st).store c = valueLine key (v ++ [c]) q false := by
  have hroom' : v.length ≤ maxValuelen - 1 := by omega
  simp only [Line.store, if_neg hc, if_pos hroom']

theorem Printable.plain (h : Printable c) (hne : c ≠ quote) : Plain c :=
  ⟨⟨by rintro rfl; exact absurd h.1 (by decide), by rintro rfl; exact absurd h.1 (by decide)⟩,
    by rintro rfl; exact absurd h.1 (by decide), by rintro rfl; exact absurd h.1 (by decide), hne⟩

/-- Within quotes every character stands for itself. -/
theorem plain_quoted (hc : c ≠ 0) (hroom : v.length < maxValuelen) :
    (valueLine key v true false).plain c = valueLine key (v ++ [c]) true false := by
  have hswitch : (valueLine key v true false).switch c = (c, valueLine key v true false) := by simp [Line.switch]
  rw [Line.plain, hswitch]
  exact store_value hc hroom

/-- Doubled quotes at the begin of the value. -/
theorem Parses.quoteRun (hroom : v.length + k ≤ maxValuelen)
    (h : ∀ st, Parses l (valueLine key (v ++ List.replicate k quote) q st) inj out) :
    Parses (double (List.replicate k quote) ++ l) (valueLine key v q st) inj out := by
  induction k generalizing v st with
  | zero => simpa [double] using h st
  | succ k ih =>
    refine Parses.quotes rfl ?_
    rw [store_value (by decide) (by omega)]
    refine ih ?_ fun st => ?_
    · rw [List.length_append, List.length_singleton]
      omega
    · rw [List.append_assoc]
      exact h st

/-- The value within quotes. -/
theorem Parses.quoted {cs : List Byte} (hcs : ∀ c ∈ cs, Printable c) (hroom : v.length + cs.length ≤ maxValuelen)
    (h : Parses l (valueLine key (v ++ cs) true false) inj out) :
    Parses (double cs ++ l) (valueLine key v true false) inj out := by
  induction cs generalizing v with
  | nil => simpa [double] using h
  | cons c cs ih =>
    have hc : Printable c := hcs c List.mem_cons_self
    rw [List.length_cons] at hroom
    have hrest : Parses (double cs ++ l) (valueLine key (v ++ [c]) true false) inj out := by
      refine ih (fun d hd => hcs d (List.mem_cons_of_mem c hd)) ?_ (by simpa using h)
      rw [List.length_append, List.length_singleton]
      omega
    by_cases hquote : c = quote
    · subst hquote
      refine Parses.quotes rfl ?_
      rw [store_value (by decide) (by omega)]
      exact hrest
    · have hplain := hc.plain hquote
      have hdouble : double (c :: cs) = c :: double cs := by simp [double, hquote]
      rw [hdouble]
      refine Parses.plain hplain ?_
      rw [plain_quoted hplain.text.1 (by omega)]
      exact hrest

/-- What may follow a line. -/
def Follows (l : List Byte) : Prop := ∀ c ∈ l.head?, Text c ∧ c ≠ quote

/-- A quote that is not doubled. -/
theorem Parses.oneQuote (hl : Follows l) (h : Parses l (valueLine key v (!q) false) inj out) :
    Parses (quote :: l) (valueLine key v q st) inj out := by
  cases l with
  | nil =>
    rw [h.unique parses_nil]
    exact parses_lastQuote rfl
  | cons c l =>
    obtain ⟨htext, hne⟩ := hl c rfl
    exact Parses.single rfl htext hne h

/-- Up to its first other character a value is made of quotes. -/
theorem exists_split : ∀ v : List Byte, (∀ c ∈ v, c = quote) ∨ ∃ k c v', v = List.replicate k quote ++ c :: v' ∧ c ≠ quote
  | [] => .inl fun c h => absurd h List.not_mem_nil
  | d :: v => by
    by_cases hd : d = quote
    · subst hd
      rcases exists_split v with hall | ⟨k, c, v', rfl, hne⟩
      · exact .inl fun c hc => (List.mem_cons.mp hc).elim id (hall c)
      · exact .inr ⟨k + 1, c, v', rfl, hne⟩
    · exact .inr ⟨0, d, v, rfl, hd⟩

theorem double_append (l l' : List Byte) : double (l ++ l') = double l ++ double l' := List.flatMap_append

/-- `k` doubled quotes before a quote are one quote before `k` doubled ones. -/
theorem quote_cons_double : quote :: double (List.replicate k quote) = double (List.replicate k quote) ++ [quote] := by
  induction k with
  | zero => rfl
  | succ k ih =>
    have hsucc : double (List.replicate (k + 1) quote) = quote :: quote :: double (List.replicate k quote) := rfl
    rw [hsucc, List.cons_append, List.cons_append, ← ih]

/-- The characters of a value between its quotes. -/
theorem Parses.value (hlen : v.length ≤ maxValuelen) (hchars : ∀ c ∈ v, Printable c) (hl : Follows l)
    (h : ∀ q st, Parses l (valueLine key (if (∀ c ∈ v, c = quote) ∧ v.length < maxValuelen then v ++ [quote] else v) q st)
      inj out) :
    Parses (quote :: (double v ++ quote :: l)) (valueLine key [] false true) inj out := by
  rcases exists_split v with hall | ⟨k, c, v', rfl, hne⟩
  · -- all quotes are literal: one more than the value has, if there is room
    obtain ⟨k, rfl⟩ : ∃ k, v = List.replicate k quote := ⟨v.length, List.eq_replicate_iff.mpr ⟨rfl, hall⟩⟩
    rw [List.length_replicate] at hlen h
    have hrun : quote :: (double (List.replicate k quote) ++ quote :: l) =
        double (List.replicate k quote) ++ quote :: quote :: l := by
      rw [← List.cons_append, quote_cons_double, List.append_assoc]
      rfl
    rw [hrun]
    refine Parses.quoteRun (by simpa using hlen) fun st => Parses.quotes rfl ?_
    by_cases hroom : k < maxValuelen
    · rw [store_value (by decide) (by simpa using hroom)]
      rw [if_pos ⟨hall, hroom⟩] at h
      exact h false false
    · have hfull : ¬ ([] ++ List.replicate k quote).length ≤ maxValuelen - 1 := by
        rw [List.nil_append, List.length_replicate]
        have : 0 < maxValuelen := by decide
        omega
      rw [if_neg fun h => hroom h.2] at h
      simp only [Line.store, if_neg (show quote ≠ 0 by decide), if_neg hfull]
      exact h false false
  · have hnot : ¬ ∀ d ∈ List.replicate k quote ++ c :: v', d = quote := fun hall => hne (hall c (by simp))
    rw [List.length_append, List.length_replicate] at hlen
    have hvalue : double (List.replicate k quote ++ c :: v') = double (List.replicate k quote) ++ double (c :: v') :=
      double_append ..
    have hcons : double (c :: v') = c :: double v' := by simp [double, hne]
    have hrun : quote :: (double (List.replicate k quote ++ c :: v') ++ quote :: l) =
        double (List.replicate k quote) ++ quote :: (double (c :: v') ++ quote :: l) := by
      rw [hvalue, List.append_assoc, ← List.cons_append, quote_cons_double, List.append_assoc]
      rfl
    have hc : Printable c := hchars c (by simp)
    rw [hrun]
    refine Parses.quoteRun (by simp only [List.length_nil]; omega) fun st => Parses.oneQuote ?_ ?_
    · rw [hcons]
      rintro d ⟨⟩
      exact ⟨(hc.plain hne).text, hne⟩
    refine Parses.quoted (fun d hd => hchars d (List.mem_append_right _ hd)) ?_ ?_
    · rw [List.nil_append, List.length_replicate]
      exact hlen
    rw [if_neg fun h => hnot h.1] at h
    exact Parses.oneQuote hl (h false false)

/-! ## Lines -/

/-- `str_rtrim` takes off the blank. -/
theorem strRtrim_withBlank (hkey : key ≠ []) : strRtrim (withBlank key) = strRtrim key := by
  obtain ⟨c, s, rfl⟩ := List.exists_cons_of_ne_nil hkey
  unfold withBlank
  split_ifs
  · show c :: (s ++ [blank]).rdropWhile trimmed = _
    rw [List.rdropWhile_concat_pos _ _ _ (by decide)]
    rfl
  · rfl

theorem strRtrim_eq_self (h : ∀ c ∈ v.getLast?, trimmed c = false) : strRtrim v = v := by
  cases v with
  | nil => rfl
  | cons c s =>
    refine congrArg (c :: ·) (List.rdropWhile_eq_self_iff.mpr fun hs => ?_)
    rw [h (s.getLast hs) (by rw [List.getLast?_cons, List.getLast?_eq_getLast_of_ne_nil hs]; rfl)]
    exact Bool.false_ne_true

theorem Printable.kept (h : Printable c) (hne : c ≠ blank) : trimmed c = false := by
  revert c
  unfold Printable
  decide

/-- What is passed on at the end of the line. -/
theorem Setting.close_line (p : Setting) (q st : Bool) : (valueLine (withBlank (p.key.map toupper))
    (if (∀ c ∈ p.value, c = quote) ∧ p.value.length < maxValuelen then p.value ++ [quote] else p.value) q st).close =
      [p.parsed] := by
  have hkey : p.key.map toupper ≠ [] := by
    rw [Ne, List.map_eq_nil_iff]
    exact List.ne_nil_of_length_pos p.key_length.1
  have hvalue : strRtrim (if (∀ c ∈ p.value, c = quote) ∧ p.value.length < maxValuelen then p.value ++ [quote]
      else p.value) = if (∀ c ∈ p.value, c = quote) ∧ p.value.length < maxValuelen then p.value ++ [quote] else p.value := by
    refine strRtrim_eq_self fun c hc => ?_
    split_ifs at hc
    · rw [List.getLast?_concat] at hc
      cases hc
      decide
    · refine (p.value_chars c (List.mem_of_getLast? hc)).kept ?_
      rintro rfl
      exact p.value_last hc
  obtain ⟨d, s, hds⟩ := List.exists_cons_of_ne_nil hkey
  have hne : strRtrim (p.key.map toupper) ≠ [] := by
    rw [hds]
    exact List.cons_ne_nil _ _
  have hsome : (if (∀ c ∈ p.value, c = quote) ∧ p.value.length < maxValuelen then p.value ++ [quote] else p.value) ≠ [] := by
    split_ifs
    · simp
    · exact List.ne_nil_of_length_pos p.value_length.1
  unfold Line.close
  rw [strRtrim_withBlank hkey, hvalue]
  exact if_pos ⟨hne, hsome⟩

/-- **A line is read**: the machine comes to its end with the pair that it makes of it. -/
theorem Parses.line (hl : Follows l) (h : ∀ ln : Line, ln.close = [p.parsed] → Parses l ln inj out) :
    Parses (p.line ++ l) {} inj out := by
  have hline : p.line ++ l = p.key ++ ([blank, Config.equals, blank] ++ (quote :: (double p.value ++ quote :: l))) := by
    simp [Setting.line]
  rw [hline]
  refine @Parses.keyword _ [] _ _ true p.key p.key_chars (by simpa using p.key_length.2) (fun hnil => ?_) ?_
  · have := p.key_length.1
    rw [hnil] at this
    exact absurd this (lt_irrefl _)
  refine Parses.equals (Parses.value p.value_length.2 p.value_chars hl fun q st => h _ ?_)
  exact p.close_line q st

/-- The end of a line. -/
theorem Parses.eol (hl : ∀ c ∈ l.head?, KeyChar c) (h : Parses l {} (inj ++ ln.close) out) :
    Parses (e.bytes ++ l) ln inj out := by
  cases e with
  | lf => exact Parses.lf h
  | crlf => exact Parses.crlf h
  | cr =>
    cases l with
    | nil =>
      have hnil : (inj ++ ln.close) ++ (({} : Line).close) = inj ++ ln.close := List.append_nil _
      rw [h.unique parses_nil, hnil]
      exact parses_lastCr
    | cons c l =>
      have hc : KeyChar c := hl c rfl
      exact Parses.cr hc.plain.text hc.plain.lf h

theorem Eol.follows : Follows (e.bytes ++ l) := by
  cases e <;> rintro c ⟨⟩ <;> exact ⟨by decide, by decide⟩

/-- Lines begin with a character of a key. -/
theorem keyChar_fileOf : ∀ c ∈ (fileOf lines last).head?, KeyChar c := by
  have hline (p : Setting) (l : List Byte) : ∀ c ∈ (p.line ++ l).head?, KeyChar c := by
    obtain ⟨d, s, hds⟩ := List.exists_cons_of_ne_nil (List.ne_nil_of_length_pos p.key_length.1)
    intro c hc
    rw [Setting.line, hds] at hc
    cases hc
    exact p.key_chars d (by rw [hds]; exact List.mem_cons_self)
  cases lines with
  | nil =>
    cases last with
    | none => exact fun c hc => absurd hc (by simp [fileOf])
    | some p =>
      have := hline p []
      rwa [List.append_nil] at this
  | cons first lines => exact hline first.1 _

/-- **What `tcp_parse_file` makes of a file**: of each line its pair. -/
theorem parses_fileOf : Parses (fileOf lines last) {} inj (inj ++ (settings lines last).map Setting.parsed) := by
  induction lines generalizing inj with
  | nil =>
    cases last with
    | none => exact parses_nil
    | some p =>
      have hline : Parses (p.line ++ []) {} inj (inj ++ [p.parsed]) :=
        Parses.line (fun c hc => by cases hc) fun ln hln => by
          rw [← hln]
          exact parses_nil
      rwa [List.append_nil] at hline
  | cons first lines ih =>
    refine Parses.line Eol.follows fun ln hln => Parses.eol keyChar_fileOf ?_
    have hout : inj ++ (settings (first :: lines) last).map Setting.parsed =
        (inj ++ ln.close) ++ (settings lines last).map Setting.parsed := by
      rw [hln, List.append_assoc]
      rfl
    rw [hout]
    exact ih

/-! ## The round trip -/

theorem KeyChar.kept (h : KeyChar c) : trimmed (toupper c) = false ↔ c < 128 ∨ c = 255 := by
  obtain ⟨hcontrol, hblank, -, -, -, -⟩ := h
  revert c
  decide

/-- The key comes back. -/
theorem key_iff (p : Setting) : strRtrim (p.key.map toupper) = p.key.map toupper ↔ KeyKept p.key := by
  obtain ⟨d, s, hds⟩ := List.exists_cons_of_ne_nil (List.ne_nil_of_length_pos p.key_length.1)
  have hchars := p.key_chars
  rw [hds] at hchars ⊢
  unfold KeyKept
  rcases List.eq_nil_or_concat s with rfl | ⟨s, c, rfl⟩
  · exact iff_of_true rfl fun h => absurd h (lt_irrefl _)
  · have hc : KeyChar c := hchars c (by simp)
    have hlast : (d :: s.concat c).getLast? = some c := by
      rw [List.concat_eq_append, ← List.cons_append, List.getLast?_concat]
    have htrim : strRtrim ((d :: s.concat c).map toupper) = (d :: s.concat c).map toupper ↔ trimmed (toupper c) = false := by
      simp only [List.concat_eq_append, List.map_cons, List.map_append, List.map_nil]
      show _ :: List.rdropWhile _ _ = _ ↔ _
      rw [List.cons_inj_right, List.rdropWhile_eq_self_iff]
      simp
    rw [htrim, hc.kept, hlast]
    simp

/-- The value comes back. -/
theorem value_iff (p : Setting) :
    (if (∀ c ∈ p.value, c = quote) ∧ p.value.length < maxValuelen then p.value ++ [quote] else p.value) = p.value ↔
      ValueKept p.value := by
  have hle := p.value_length.2
  unfold ValueKept
  split_ifs with h
  · refine iff_of_false (fun heq => ?_) (not_or.mpr ⟨?_, h.2.ne⟩)
    · have := congrArg List.length heq
      simp at this
    · rintro ⟨c, hc, hne⟩
      exact hne (h.1 c hc)
  · refine iff_of_true rfl ?_
    by_cases hall : ∀ c ∈ p.value, c = quote
    · exact .inr (le_antisymm hle (not_lt.mp fun hlt => h ⟨hall, hlt⟩))
    · push Not at hall
      exact .inl hall

/-- **The round trip**: the pairs come back exactly if each key and each value does. -/
theorem round_trip_iff (lines : List (Setting × Eol)) (last : Option Setting) :
    Injects (fileOf lines last) ((settings lines last).map Setting.passed) ↔
      ∀ p ∈ settings lines last, KeyKept p.key ∧ ValueKept p.value := by
  rw [injects_iff parses_fileOf, List.nil_append, List.map_inj_left]
  refine forall₂_congr fun p _ => ?_
  unfold Setting.passed Setting.parsed
  rw [← key_iff, ← value_iff, Prod.mk.injEq]
  exact and_congr eq_comm eq_comm

/-- The key `A` with a value of one quote. -/
def quoteSetting : Setting :=
  ⟨[65], [quote], by decide, fun c hc => by
    rw [List.mem_singleton.mp hc]
    exact ⟨by decide, by decide, by decide, by decide, by decide, by decide⟩, by decide, fun c hc => by
    rw [List.mem_singleton.mp hc]
    exact ⟨by decide, by decide⟩, by decide, by decide⟩

/-- A value of one quote comes back as two. -/
theorem quote_doubled :
    ¬ Injects (fileOf [] (some quoteSetting)) ((settings [] (some quoteSetting)).map Setting.passed) := by
  rw [injects_iff parses_fileOf]
  decide

end Watt32.Config
