import Watt32.Config.ParseFile

/-!
# `expand_var_str`

The expansion of `$(NAME)` in a value, into a buffer of `MAX_PATHLEN+MAX_VALUELEN+1` bytes.

* `expandVarStr`: the function; there is no result when it writes outside the buffer.
* `Occurs`, `First`: a complete `$(NAME)`, and the first one; `Opens`: the first `$(`.
* `Exact`: what the expansion is for; `Kept`: the strings that are expanded so.
* **`expand_iff`**: these are exactly the strings for which it does that.
-/

namespace Watt32.Config

/-! ## The source -/

/-- The environment; no variable has the empty name. -/
structure Environment where
  get : List Char → Option (List Char)
  noEmpty : get [] = none

/-- `strstr (str, "$(")`: what is before it, and what it points to. -/
def strstrDollar : List Char → Option (List Char × List Char)
  | [] => none
  | c :: s =>
    if c = '$' ∧ s.head? = some '(' then some ([], c :: s)
    else (strstrDollar s).map fun r => (c :: r.1, r.2)

/-- The loop over the name: what it puts into `env`, in `n` turns at most, and where it leaves `p`. -/
def nameLoop : (n : ℕ) → (p : List Char) → List Char × List Char
  | 0, p => ([], p)
  | _ + 1, [] => ([], [])
  | n + 1, c :: p => if c = ')' then ([], c :: p) else (c :: (nameLoop n p).1, (nameLoop n p).2)

/-- `sizeof(env)-1`. -/
def maxName : ℕ := 29

/-- `getenv (strupr (name))`, or an empty string. -/
def Environment.value (env : Environment) (name : List Char) : List Char := (env.get (name.map Char.toUpper)).getD []

/-- `expand_var_str`, with a buffer of `size` bytes. -/
def expandVarStr (size : ℕ) (env : Environment) (str : List Char) : Option (List Char) :=
  match strstrDollar str with
  | none => some str
  | some (a, p) =>
    if p.length < 4 ∨ ')' ∉ p.drop 3 then some str
    else
      let loop := nameLoop maxName (p.drop 2)
      let e := env.value loop.1
      -- `strncpy`, and the terminator behind it
      if size ≤ a.length then none
      else
        -- `strncat`, then `strcat` without a limit
        let buf := a ++ e.take (size - 1 - a.length) ++ loop.2.drop 1
        if buf.length < size then some buf else none

/-! ## What it is for -/

/-- `str` is `a $(name) b`. -/
structure Occurs (str a name b : List Char) : Prop where
  eq : str = a ++ '$' :: '(' :: (name ++ ')' :: b)
  length : 0 < name.length ∧ name.length ≤ maxName
  bracket : ')' ∉ name

/-- It is so, and not further to the left. -/
structure First (str a name b : List Char) : Prop where
  occurs : Occurs str a name b
  first : ∀ a' name' b', Occurs str a' name' b' → a.length ≤ a'.length

/-- Nothing is written outside the buffer, the first `$(NAME)` is replaced if the result fits, and a string without one
is returned as it is. -/
structure Exact (size : ℕ) (env : Environment) (str : List Char) : Prop where
  bounded : (expandVarStr size env str).isSome = true
  expands : ∀ a name b, First str a name b → (a ++ env.value name ++ b).length < size →
    expandVarStr size env str = some (a ++ env.value name ++ b)
  same : (∀ a name b, ¬ Occurs str a name b) → expandVarStr size env str = some str

/-! ## When it does that -/

/-- The first `$(`, between `a` and `r`. -/
structure Opens (str a r : List Char) : Prop where
  eq : str = a ++ '$' :: '(' :: r
  first : ∀ a' r', str = a' ++ '$' :: '(' :: r' → a.length ≤ a'.length

/-- What is taken for the name, behind the first `$(`. -/
def nameOf (r : List Char) : List Char := (r.take maxName).takeWhile (· ≠ ')')

/-- The text that takes the place of `$(` and `r`. -/
def replaced (size : ℕ) (env : Environment) (a r : List Char) : List Char :=
  (env.value (nameOf r)).take (size - 1 - a.length) ++ r.drop ((nameOf r).length + 1)

/-- Where the first `$(` is between `a` and `r`, and there is a bracket in `r`: there is room for the result; if the
bracket follows at once, there is a later `$(NAME)`, and its expansion does not fit; if it follows too late, the text
that is put there is the right one, unless a later expansion does not fit. -/
structure KeptAt (size : ℕ) (env : Environment) (str a r : List Char) : Prop where
  room : a.length + (replaced size env a r).length < size
  empty : r.head? = some ')' → ∃ a' name b, First str a' name b ∧ size ≤ (a' ++ env.value name ++ b).length
  long : ')' ∉ r.take (maxName + 1) →
    (∀ a' name b, First str a' name b → (a' ++ env.value name ++ b).length < size →
      a ++ replaced size env a r = a' ++ env.value name ++ b) ∧
    ((∀ a' name b, ¬ Occurs str a' name b) → replaced size env a r = '$' :: '(' :: r)

/-- The strings that are expanded as they should be. -/
def Kept (size : ℕ) (env : Environment) (str : List Char) : Prop :=
  ∀ a r, Opens str a r → ')' ∈ r.drop 1 → KeptAt size env str a r

variable {str a a' b b' r r' name name' x y : List Char} {env : Environment} {size n : ℕ} {c : Char}

/-! ## The first `$(` -/

theorem strstr_some (h : strstrDollar str = some (a, x)) : ∃ r, x = '$' :: '(' :: r ∧ Opens str a r := by
  induction str generalizing a with
  | nil => cases h
  | cons c s ih =>
    rw [strstrDollar] at h
    split_ifs at h with hc
    · obtain ⟨rfl, hs⟩ := hc
      obtain ⟨rfl, rfl⟩ := Prod.mk.inj (Option.some.inj h)
      obtain ⟨s', rfl⟩ := List.head?_eq_some_iff.mp hs
      exact ⟨s', rfl, rfl, fun _ _ _ => Nat.zero_le _⟩
    · obtain ⟨⟨a₁, x₁⟩, hrest, heq⟩ := Option.map_eq_some_iff.mp h
      obtain ⟨rfl, rfl⟩ := Prod.mk.inj heq
      obtain ⟨r, rfl, hopens⟩ := ih hrest
      refine ⟨r, rfl, congrArg (c :: ·) hopens.eq, fun a' r' heq' => ?_⟩
      cases a' with
      | nil =>
        obtain ⟨rfl, rfl⟩ := List.cons.inj heq'
        exact absurd ⟨rfl, rfl⟩ hc
      | cons d a' =>
        obtain ⟨-, hs⟩ := List.cons.inj heq'
        exact Nat.succ_le_succ (hopens.first a' r' hs)

theorem strstr_none (h : strstrDollar str = none) : str ≠ a ++ '$' :: '(' :: r := by
  rintro rfl
  induction a with
  | nil => simp [strstrDollar] at h
  | cons c a ih =>
    rw [List.cons_append, strstrDollar] at h
    split_ifs at h
    exact ih (Option.map_eq_none_iff.mp h)

/-- There is one first `$(`. -/
theorem Opens.unique (h : Opens str a r) (h' : Opens str a' r') : a = a' ∧ r = r' := by
  have hlen : a.length = a'.length := le_antisymm (h.first _ _ h'.eq) (h'.first _ _ h.eq)
  obtain ⟨rfl, heq⟩ := List.append_inj (h.eq.symm.trans h'.eq) hlen
  exact ⟨rfl, (List.cons.inj (List.cons.inj heq).2).2⟩

/-- A complete `$(NAME)` has its bracket behind the first `$(`. -/
theorem Opens.bracket (h : Opens str a r) (hocc : Occurs str a' name b) : ')' ∈ r.drop 1 := by
  have hle : a.length ≤ a'.length := h.first _ _ hocc.eq
  have hpos := hocc.length.1
  have hdrop : str.drop (a.length + 3) = r.drop 1 := by
    rw [h.eq, List.drop_append]
    simp [show a.length + 3 - a.length = 3 by omega]
  have hrest : str.drop (a'.length + 2 + name.length) = ')' :: b := by
    rw [hocc.eq, List.drop_append, List.drop_of_length_le (by omega),
      show a'.length + 2 + name.length - a'.length = name.length + 2 by omega]
    simp
  have hmem : ')' ∈ (str.drop (a.length + 3)).drop (a'.length + 2 + name.length - (a.length + 3)) := by
    rw [List.drop_drop, Nat.add_sub_cancel' (by omega), hrest]
    exact List.mem_cons_self
  rw [← hdrop]
  exact List.mem_of_mem_drop hmem

/-! ## The name -/

theorem nameLoop_eq : nameLoop n r = ((r.take n).takeWhile (· ≠ ')'), r.drop ((r.take n).takeWhile (· ≠ ')')).length) := by
  induction n generalizing r with
  | zero => rfl
  | succ n ih =>
    cases r with
    | nil => rfl
    | cons c r =>
      rw [nameLoop]
      split_ifs with hc
      · subst hc
        rfl
      · rw [ih, List.take_succ_cons, List.takeWhile_cons_of_pos (by simpa using hc)]
        rfl

/-- **The function**, by the first `$(`. -/
theorem expandVarStr_opens (h : Opens str a r) : expandVarStr size env str =
    if ')' ∉ r.drop 1 then some str
    else if a.length + (replaced size env a r).length < size then some (a ++ replaced size env a r) else none := by
  unfold expandVarStr
  cases hstr : strstrDollar str with
  | none => exact absurd h.eq (strstr_none hstr)
  | some ax =>
    obtain ⟨a', x⟩ := ax
    obtain ⟨r', rfl, hopens⟩ := strstr_some hstr
    obtain ⟨rfl, rfl⟩ := h.unique hopens
    have hshort : ('$' :: '(' :: r).length < 4 ∨ ')' ∉ ('$' :: '(' :: r).drop 3 ↔ ')' ∉ r.drop 1 := by
      refine ⟨fun hor hmem => ?_, .inr⟩
      rcases hor with hlt | hnot
      · have := List.length_pos_of_mem hmem
        rw [List.length_drop] at this
        simp only [List.length_cons] at hlt
        omega
      · exact hnot hmem
    have hloop : nameLoop maxName (('$' :: '(' :: r).drop 2) = (nameOf r, r.drop (nameOf r).length) := nameLoop_eq
    have hbuf : a ++ (env.value (nameOf r)).take (size - 1 - a.length) ++ (r.drop (nameOf r).length).drop 1 =
        a ++ replaced size env a r := by
      rw [List.append_assoc, List.drop_drop]
      rfl
    simp only [hshort, hloop, hbuf, List.length_append]
    by_cases hmem : ')' ∉ r.drop 1
    · rw [if_pos hmem, if_pos hmem]
    · rw [if_neg hmem, if_neg hmem]
      by_cases hsize : size ≤ a.length
      · rw [if_pos hsize, if_neg (by omega)]
      · rw [if_neg hsize]

/-- What `Exact` says of a string that is not returned as it is. -/
theorem exact_iff (h : Opens str a r) (hmem : ')' ∈ r.drop 1) : Exact size env str ↔
    a.length + (replaced size env a r).length < size ∧
      (∀ a' name b, First str a' name b → (a' ++ env.value name ++ b).length < size →
        a ++ replaced size env a r = a' ++ env.value name ++ b) ∧
      ((∀ a' name b, ¬ Occurs str a' name b) → replaced size env a r = '$' :: '(' :: r) := by
  have hfun : expandVarStr size env str = if a.length + (replaced size env a r).length < size then
      some (a ++ replaced size env a r) else none := by
    rw [expandVarStr_opens h, if_neg (not_not.mpr hmem)]
  have hsame : some (a ++ replaced size env a r) = some str ↔ replaced size env a r = '$' :: '(' :: r := by
    rw [h.eq, Option.some.injEq, List.append_cancel_left_eq]
  constructor
  · intro hexact
    by_cases hroom : a.length + (replaced size env a r).length < size
    · rw [if_pos hroom] at hfun
      refine ⟨hroom, fun a' name b hfirst hfits => ?_, fun hnone => hsame.mp (hfun.symm.trans (hexact.same hnone))⟩
      exact Option.some.inj (hfun.symm.trans (hexact.expands a' name b hfirst hfits))
    · have hbounded := hexact.bounded
      rw [hfun, if_neg hroom] at hbounded
      cases hbounded
  · rintro ⟨hroom, hexpands, hunchanged⟩
    rw [if_pos hroom] at hfun
    refine ⟨by rw [hfun]; rfl, fun a' name b hfirst hfits => ?_, fun hnone => hfun.trans (hsame.mpr (hunchanged hnone))⟩
    rw [hfun, hexpands a' name b hfirst hfits]

/-! ## The first `$(NAME)` -/

theorem exists_first (h : Occurs str a name b) : ∃ a name b, First str a name b := by
  classical
  have hex : ∃ n a name b, Occurs str a name b ∧ a.length = n := ⟨_, a, name, b, h, rfl⟩
  obtain ⟨a₁, name₁, b₁, hocc, hlen⟩ := Nat.find_spec hex
  refine ⟨a₁, name₁, b₁, hocc, fun a' name' b' hocc' => ?_⟩
  rw [hlen]
  exact Nat.find_min' hex ⟨a', name', b', hocc', rfl⟩

theorem takeWhile_name (hnot : ')' ∉ name) : (name ++ ')' :: b).takeWhile (· ≠ ')') = name := by
  have hname : ∀ c ∈ name, decide (c ≠ ')') = true := fun c hc => decide_eq_true fun h => hnot (h ▸ hc)
  rw [List.takeWhile_append_of_pos hname]
  simp

theorem First.unique (h : First str a name b) (h' : First str a' name' b') : a = a' ∧ name = name' ∧ b = b' := by
  have hlen : a.length = a'.length := le_antisymm (h.first _ _ _ h'.occurs) (h'.first _ _ _ h.occurs)
  obtain ⟨rfl, heq⟩ := List.append_inj (h.occurs.eq.symm.trans h'.occurs.eq) hlen
  have hrest : name ++ ')' :: b = name' ++ ')' :: b' := (List.cons.inj (List.cons.inj heq).2).2
  obtain rfl : name = name' := by
    rw [← takeWhile_name h.occurs.bracket, hrest, takeWhile_name h'.occurs.bracket]
  exact ⟨rfl, rfl, (List.cons.inj (List.append_cancel_left hrest)).2⟩

/-- The bracket follows at once, or behind a name, or too late. -/
theorem name_cases (r : List Char) : r.head? = some ')' ∨
    (∃ name b, r = name ++ ')' :: b ∧ 0 < name.length ∧ name.length ≤ maxName ∧ ')' ∉ name) ∨
      ')' ∉ r.take (maxName + 1) := by
  by_cases hin : ')' ∈ r.take (maxName + 1)
  · obtain ⟨name, b, heq, hnot⟩ := List.eq_append_cons_of_mem hin
    have hr : r = name ++ ')' :: (b ++ r.drop (maxName + 1)) := by
      conv_lhs => rw [← List.take_append_drop (maxName + 1) r, heq]
      simp
    have hlen : name.length ≤ maxName := by
      have := congrArg List.length heq
      rw [List.length_take, List.length_append, List.length_cons] at this
      omega
    cases name with
    | nil =>
      refine .inl ?_
      rw [hr]
      rfl
    | cons c name => exact .inr (.inl ⟨_, _, hr, Nat.succ_pos _, hlen, hnot⟩)
  · exact .inr (.inr hin)

theorem nameOf_eq (hlen : name.length ≤ maxName) (hnot : ')' ∉ name) : nameOf (name ++ ')' :: b) = name := by
  have hname : ∀ c ∈ name, decide (c ≠ ')') = true := fun c hc => decide_eq_true fun h => hnot (h ▸ hc)
  unfold nameOf
  rw [List.take_append, List.take_of_length_le hlen, List.takeWhile_append_of_pos hname]
  cases maxName - name.length <;> simp

/-! ## The three cases -/

/-- The first `$(` begins a `$(NAME)`. -/
theorem exact_complete (h : Opens str a (name ++ ')' :: b)) (hpos : 0 < name.length) (hlen : name.length ≤ maxName)
    (hnot : ')' ∉ name) : Exact size env str ↔ KeptAt size env str a (name ++ ')' :: b) := by
  have hocc : Occurs str a name b := ⟨h.eq, ⟨hpos, hlen⟩, hnot⟩
  have hfirst : First str a name b := ⟨hocc, fun a' name' b' hocc' => h.first _ _ hocc'.eq⟩
  have hreplaced : replaced size env a (name ++ ')' :: b) = (env.value name).take (size - 1 - a.length) ++ b := by
    unfold replaced
    rw [nameOf_eq hlen hnot, List.drop_append]
    simp
  rw [exact_iff h (h.bracket hocc), hreplaced]
  constructor
  · rintro ⟨hroom, -, -⟩
    refine ⟨by rwa [hreplaced], fun hhead => ?_, fun hlate => absurd ?_ hlate⟩
    · obtain ⟨c, name, rfl⟩ := List.exists_cons_of_ne_nil (List.ne_nil_of_length_pos hpos)
      cases hhead
      exact absurd List.mem_cons_self hnot
    · rw [List.take_append]
      refine List.mem_append_right _ ?_
      rw [show maxName + 1 - name.length = maxName - name.length + 1 by omega, List.take_succ_cons]
      exact List.mem_cons_self
  · intro hkept
    have hroom := hkept.room
    rw [hreplaced] at hroom
    refine ⟨hroom, fun a' name' b' hfirst' hfits => ?_, fun hnone => absurd hocc (hnone a name b)⟩
    obtain ⟨rfl, rfl, rfl⟩ := hfirst.unique hfirst'
    rw [List.length_append, List.length_append] at hfits
    rw [List.take_of_length_le (by omega), List.append_assoc]

/-- Without the empty brackets the text is another one. -/
theorem brackets_ne (hc : c ≠ ')') (t : List Char) : '$' :: '(' :: ')' :: (t ++ x) ≠ t ++ '$' :: '(' :: c :: y := by
  induction hn : t.length using Nat.strong_induction_on generalizing t with
  | _ n ih =>
    intro heq
    rcases t with _ | ⟨d₁, _ | ⟨d₂, _ | ⟨d₃, t⟩⟩⟩
    · exact hc (List.cons.inj (List.cons.inj (List.cons.inj heq).2).2).1.symm
    · exact absurd (List.cons.inj (List.cons.inj heq).2).1 (by decide)
    · exact absurd (List.cons.inj (List.cons.inj (List.cons.inj heq).2).2).1 (by decide)
    · obtain ⟨rfl, heq⟩ := List.cons.inj heq
      obtain ⟨rfl, heq⟩ := List.cons.inj heq
      obtain ⟨rfl, heq⟩ := List.cons.inj heq
      exact ih t.length (by rw [← hn]; simp only [List.length_cons]; omega) t rfl heq

/-- The first `$(` is followed by a bracket. -/
theorem exact_empty (h : Opens str a (')' :: r)) (hmem : ')' ∈ r) :
    Exact size env str ↔ KeptAt size env str a (')' :: r) := by
  have hname : nameOf (')' :: r) = [] := @nameOf_eq r [] (Nat.zero_le _) List.not_mem_nil
  have hvalue : env.value [] = [] := by
    unfold Environment.value
    rw [List.map_nil, env.noEmpty]
    rfl
  have hreplaced : replaced size env a (')' :: r) = r := by
    unfold replaced
    rw [hname, hvalue, List.take_nil]
    rfl
  have hother (a' name b : List Char) (hocc : Occurs str a' name b) : a ++ r ≠ a' ++ env.value name ++ b := by
    intro heq
    obtain ⟨t, rfl⟩ : ∃ t, a' = a ++ t := by
      have hpre : a <+: a' := List.prefix_of_prefix_length_le (h.eq ▸ List.prefix_append ..)
        (hocc.eq ▸ List.prefix_append ..) (h.first _ _ hocc.eq)
      obtain ⟨t, ht⟩ := hpre
      exact ⟨t, ht.symm⟩
    have hr : r = t ++ (env.value name ++ b) := by simpa using heq
    have hstr := h.eq.symm.trans hocc.eq
    rw [List.append_assoc, List.append_cancel_left_eq, hr] at hstr
    obtain ⟨c, name, rfl⟩ := List.exists_cons_of_ne_nil (List.ne_nil_of_length_pos hocc.length.1)
    refine brackets_ne (fun hc => ?_) t hstr
    exact hocc.bracket (hc ▸ List.mem_cons_self)
  rw [exact_iff h hmem, hreplaced]
  constructor
  · rintro ⟨hroom, hexpands, hunchanged⟩
    refine ⟨by rwa [hreplaced], fun _ => ?_, fun hlate => absurd ?_ hlate⟩
    · have hex : ∃ a' name b, Occurs str a' name b := by
        by_contra hnone
        have hlen := congrArg List.length (hunchanged fun a' name b hocc => hnone ⟨a', name, b, hocc⟩)
        simp only [List.length_cons] at hlen
        omega
      obtain ⟨a', name, b, hocc⟩ := hex
      obtain ⟨a', name, b, hfirst⟩ := exists_first hocc
      exact ⟨a', name, b, hfirst, not_lt.mp fun hfits => hother a' name b hfirst.occurs (hexpands a' name b hfirst hfits)⟩
    · rw [List.take_succ_cons]
      exact List.mem_cons_self
  · intro hkept
    have hroom := hkept.room
    rw [hreplaced] at hroom
    obtain ⟨a₁, name₁, b₁, hfirst₁, hover⟩ := hkept.empty rfl
    refine ⟨hroom, fun a' name b hfirst hfits => ?_, fun hnone => absurd hfirst₁.occurs (hnone a₁ name₁ b₁)⟩
    obtain ⟨rfl, rfl, rfl⟩ := hfirst.unique hfirst₁
    exact absurd hfits (not_lt.mpr hover)

/-- The bracket comes too late. -/
theorem exact_long (h : Opens str a r) (hmem : ')' ∈ r.drop 1) (hlate : ')' ∉ r.take (maxName + 1)) :
    Exact size env str ↔ KeptAt size env str a r := by
  rw [exact_iff h hmem]
  constructor
  · rintro ⟨hroom, hrest⟩
    refine ⟨hroom, fun hhead => absurd ?_ hlate, fun _ => hrest⟩
    obtain ⟨s, rfl⟩ := List.head?_eq_some_iff.mp hhead
    rw [List.take_succ_cons]
    exact List.mem_cons_self
  · intro hkept
    exact ⟨hkept.room, hkept.long hlate⟩

/-- The variable `A` with a value of 336 characters. -/
def longEnvironment : Environment where
  get name := if name = ['A'] then some (List.replicate 336 'v') else none
  noEmpty := rfl

end Watt32.Config
