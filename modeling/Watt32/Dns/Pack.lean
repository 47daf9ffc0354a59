import Watt32.Dns.Names

/-!
# Names out and in

`pack_domain` of `pcdns.c` and how it goes with `unpack_domain`.

* `packDomain`: the function; a text without a dot gets the default domain.
* `wire`, `text`: a name as bytes and as a string; `DomainName`: a name that both are for.
* `Encodes`: a name in a reply, with or without pointers.
* `names_round_trip`: what is packed is unpacked, and the parser is left behind the name.
-/

namespace Watt32.Dns

/-! ## Packing -/

/-- The loop of `pack_domain` with `p` left of the string and `out` before `*dst`: each turn takes a
label, and the one that finds the end of a string without dots goes on with the default domain. -/
def packLabels (locDomain : Option (List Byte)) (p : List Byte) (dotflag defflag : Bool)
    (out : List Byte) : Option (List Byte) :=
  let label := p.takeWhile (· ≠ dot)
  let out' := out ++ BitVec.ofNat 8 label.length :: label
  if maxLabelSize < label.length then none
  else
    match _ : p.dropWhile (· ≠ dot) with
    | _ :: p' => if p' = [] then some (out' ++ [0]) else packLabels locDomain p' true defflag out'
    | [] =>
      if dotflag || defflag then some (out' ++ [0])
      else
        match locDomain with
        | none => some (out' ++ [0])
        | some d => if d = [] then some (out' ++ [0]) else packLabels locDomain d dotflag true out'
termination_by (if defflag then 0 else 1, p.length)
decreasing_by
  · have h : (p.dropWhile (· ≠ dot)).length ≤ p.length := (List.dropWhile_suffix _).length_le
    simp_all only [List.length_cons]
    exact Prod.Lex.right _ h
  · simp_all [Prod.lex_def]

/-- `pack_domain (dst, src)`: the bytes at `dst`; `none` is -1. -/
def packDomain (locDomain : Option (List Byte)) (src : List Byte) : Option (List Byte) :=
  packLabels locDomain src false false []

/-! ## Names -/

/-- A label of 1 to 63 characters. -/
structure LabelOk (l : List Byte) : Prop where
  pos : 0 < l.length
  le : l.length ≤ maxLabelSize
  chars : ∀ b ∈ l, b ≠ 0 ∧ b ≠ dot

/-- Each label behind its length. -/
def wireLabels (ls : List (List Byte)) : List Byte := ls.flatMap fun l => BitVec.ofNat 8 l.length :: l

/-- A name as it is sent. -/
def wire (ls : List (List Byte)) : List Byte := wireLabels ls ++ [0]

/-- A name as a string. -/
def text (ls : List (List Byte)) : List Byte := [dot].intercalate ls

/-- Each label before a dot, as `unpack_domain` writes them. -/
def dotted (ls : List (List Byte)) : List Byte := ls.flatMap (· ++ [dot])

/-- A well-formed name; the root has no labels. -/
structure DomainName where
  labels : List (List Byte)
  ok : ∀ l ∈ labels, LabelOk l
  short : (wire labels).length ≤ 255

/-- The name that is asked for: one without a dot is taken in the default domain. -/
def DomainName.qualified (name : DomainName) (dom : Option DomainName) : List (List Byte) :=
  if name.labels.length = 1 then name.labels ++ (dom.map DomainName.labels).getD [] else name.labels

variable {l l' : List Byte} {ls r : List (List Byte)} {out : List Byte} {loc : Option (List Byte)}
  {dotflag defflag : Bool}

@[simp] theorem wireLabels_nil : wireLabels [] = [] := rfl

@[simp] theorem wireLabels_cons : wireLabels (l :: ls) = BitVec.ofNat 8 l.length :: l ++ wireLabels ls := rfl

@[simp] theorem dotted_cons : dotted (l :: ls) = l ++ [dot] ++ dotted ls := rfl

theorem text_singleton : text [l] = l := by simp [text, List.intercalate]

theorem text_cons_cons : text (l :: l' :: r) = l ++ dot :: text (l' :: r) := by
  simp [text, List.intercalate]

theorem text_ne_nil (h : LabelOk l) : text (l :: ls) ≠ [] := by
  have := List.length_pos_iff.mp h.pos
  cases ls with
  | nil => rwa [text_singleton]
  | cons l' r => rw [text_cons_cons]; simp

/-- The string and its last dot. -/
theorem text_append_dot (h : ls ≠ []) : text ls ++ [dot] = dotted ls := by
  induction ls with
  | nil => exact absurd rfl h
  | cons l r ih =>
    cases r with
    | nil => simp [text_singleton, dotted]
    | cons l' r => rw [text_cons_cons, dotted_cons, ← ih (by simp)]; simp

theorem length_dotted (ls : List (List Byte)) : (dotted ls).length + 1 = (wire ls).length := by
  induction ls with
  | nil => rfl
  | cons l r ih =>
    simp only [dotted_cons, wire, wireLabels_cons, List.length_append, List.length_cons,
      List.length_nil] at ih ⊢
    omega

/-- A label before a dot. -/
theorem takeWhile_label (h : LabelOk l) (p : List Byte) :
    (l ++ dot :: p).takeWhile (· ≠ dot) = l ∧ (l ++ dot :: p).dropWhile (· ≠ dot) = dot :: p := by
  have hl : ∀ b ∈ l, decide (b ≠ dot) = true := fun b hb => by simpa using (h.chars b hb).2
  rw [List.takeWhile_append_of_pos hl, List.dropWhile_append_of_pos hl]
  simp

/-- A label at the end of the string. -/
theorem takeWhile_last (h : LabelOk l) :
    l.takeWhile (· ≠ dot) = l ∧ l.dropWhile (· ≠ dot) = [] := by
  have hl : ∀ b ∈ l, decide (b ≠ dot) = true := fun b hb => by simpa using (h.chars b hb).2
  have ht : (l ++ []).takeWhile (· ≠ dot) = l ++ [] := List.takeWhile_append_of_pos hl
  have hd : (l ++ []).dropWhile (· ≠ dot) = [] := List.dropWhile_append_of_pos hl
  rw [List.append_nil] at ht hd
  exact ⟨ht, hd⟩

theorem packLabels_cons_cons (h : LabelOk l) (h' : LabelOk l') :
    packLabels loc (text (l :: l' :: r)) dotflag defflag out =
      packLabels loc (text (l' :: r)) true defflag (out ++ BitVec.ofNat 8 l.length :: l) := by
  obtain ⟨ht, hd⟩ := takeWhile_label h (text (l' :: r))
  rw [text_cons_cons, packLabels.eq_def, ht, if_neg (not_lt.mpr h.le)]
  split
  · next hp =>
    obtain ⟨-, rfl⟩ := List.cons.inj (hd.symm.trans hp)
    rw [if_neg (text_ne_nil h')]
  · next hp => exact absurd (hd.symm.trans hp) (List.cons_ne_nil _ _)

theorem packLabels_last (h : LabelOk l) :
    packLabels loc (text [l]) dotflag defflag out =
      if dotflag || defflag then some (out ++ BitVec.ofNat 8 l.length :: l ++ [0])
      else match loc with
        | none => some (out ++ BitVec.ofNat 8 l.length :: l ++ [0])
        | some d =>
          if d = [] then some (out ++ BitVec.ofNat 8 l.length :: l ++ [0])
          else packLabels loc d dotflag true (out ++ BitVec.ofNat 8 l.length :: l) := by
  obtain ⟨ht, hd⟩ := takeWhile_last h
  rw [text_singleton, packLabels.eq_def, ht, if_neg (not_lt.mpr h.le)]
  split
  · next hp => exact absurd (hd.symm.trans hp).symm (List.cons_ne_nil _ _)
  · rfl

/-- A name with a dot, or after one, is packed as it is. -/
theorem packLabels_text (hok : ∀ l ∈ l' :: r, LabelOk l) (h : r ≠ [] ∨ dotflag ∨ defflag) :
    packLabels loc (text (l' :: r)) dotflag defflag out = some (out ++ wire (l' :: r)) := by
  induction r generalizing l' dotflag out with
  | nil =>
    rw [packLabels_last (hok l' (by simp)), if_pos (by simpa using h)]
    simp [wire, wireLabels]
  | cons l r ih =>
    rw [packLabels_cons_cons (hok l' (by simp)) (hok l (by simp)),
      ih (fun x hx => hok x (List.mem_cons_of_mem _ hx)) (by simp)]
    simp [wire]

/-- `pack_domain` of a name that is not the root. -/
theorem packDomain_text (name : DomainName) (dom : Option DomainName) (hn : name.labels ≠ []) :
    packDomain (dom.map fun d => text d.labels) (text name.labels) = some (wire (name.qualified dom)) := by
  obtain ⟨ls, hok, hs⟩ := name
  unfold packDomain DomainName.qualified
  match ls, hok, hs, hn with
  | [l], hok, _, _ =>
    rw [packLabels_last (hok l (by simp))]
    cases dom with
    | none => simp [wire]
    | some d =>
      obtain ⟨ds, hds, -⟩ := d
      cases ds with
      | nil => simp [wire, text, List.intercalate]
      | cons l' r =>
        simp only [Option.map_some, if_neg (text_ne_nil (hds l' (by simp)))]
        rw [packLabels_text hds (by simp)]
        simp [wire]
  | l :: l' :: r, hok, _, _ =>
    rw [packLabels_text hok (by simp)]
    simp

/-! ## Unpacking -/

/-- The bytes from `p` on spell a name: `k` of them are in place, up to the terminator or the
pointer, and the terminator is at `e`. Labels and pointers lie before `lim`, and no pointer leads
straight to a terminator. -/
inductive Encodes (mem : ℕ → Byte) (lim : ℤ) : (p k e : ℕ) → List (List Byte) → Prop
  | root {p : ℕ} : mem p = 0 → Encodes mem lim p 1 p []
  | label {p k e : ℕ} {l : List Byte} {ls : List (List Byte)} : LabelOk l → (p : ℤ) < lim →
      mem p = BitVec.ofNat 8 l.length → Mem.slice mem (p + 1) l.length = l →
      Encodes mem lim (p + 1 + l.length) k e ls → Encodes mem lim p (1 + l.length + k) e (l :: ls)
  | pointer {p k e : ℕ} {ls : List (List Byte)} : isPointer (mem p) = true → (p : ℤ) < lim →
      ls ≠ [] → Encodes mem lim (follow mem p) k e ls → Encodes mem lim p 2 e ls

variable {mem : ℕ → Byte} {lim srcSize : ℤ} {start p q k e w dstSize fuel : ℕ}

theorem labelLen_ofNat {n : ℕ} (h : n ≤ maxLabelSize) :
    labelLen (BitVec.ofNat 8 n) = n ∧ isPointer (BitVec.ofNat 8 n) = false := by
  have h : n < 64 := Nat.lt_succ_of_le h
  revert n
  decide

theorem ofNat_ne_zero (h : LabelOk l) : BitVec.ofNat 8 l.length ≠ 0 := by
  intro h0
  have h0 := (labelLen_ofNat h.le).1.symm.trans (congrArg labelLen h0)
  exact absurd h0 (Nat.pos_iff_ne_zero.mp h.pos)

theorem isPointer_ne_zero {j : Byte} (h : isPointer j = true) : j ≠ 0 := by
  rintro rfl
  exact absurd h (by decide)

/-- The pointers of an encoding end. -/
theorem Encodes.lands (h : Encodes mem lim p k e ls) : ∃ q, Lands mem p q := by
  induction h with
  | root h0 => exact ⟨_, .here (by rw [h0]; decide)⟩
  | label hl _ hm _ _ _ => exact ⟨_, .here (by rw [hm]; exact (labelLen_ofNat hl.le).2)⟩
  | pointer hp _ _ _ ih =>
    obtain ⟨q, hq⟩ := ih
    exact ⟨q, .there hp hq⟩

/-- The loop goes on at an encoding of a name that is not the root, when there is room for it. -/
theorem Encodes.opens (h : Encodes mem lim p k e ls) (hn : ls ≠ []) (hw : w < dstSize) :
    Opens mem lim dstSize p w := by
  cases h with
  | root _ => exact absurd rfl hn
  | label hl hp hm _ _ => exact ⟨by rw [hm]; exact ofNat_ne_zero hl, hp, hw⟩
  | pointer hp hlt _ _ => exact ⟨isPointer_ne_zero hp, hlt, hw⟩

/-- It stops at the root. -/
theorem Encodes.ne_nil (h : Encodes mem lim p k e ls) (ho : Opens mem lim dstSize p w) : ls ≠ [] := by
  cases h with
  | root h0 => exact absurd h0 ho.1
  | label _ _ _ _ _ => exact List.cons_ne_nil _ _
  | pointer _ _ hn _ => exact hn

/-- Behind the pointers is the first label, and behind it the rest of the name. -/
theorem Encodes.next (h : Encodes mem lim p k e ls) (hn : ls ≠ []) (hq : Lands mem p q) :
    ∃ l r k', ls = l :: r ∧ labelLen (mem q) = l.length ∧ Mem.slice mem (q + 1) l.length = l ∧
      Encodes mem lim (q + 1 + l.length) k' e r := by
  induction h with
  | root _ => exact absurd rfl hn
  | @label p k e l r hl hp hm hs h _ =>
    obtain rfl := hq.unique (.here (by rw [hm]; exact (labelLen_ofNat hl.le).2))
    exact ⟨l, r, k, rfl, by rw [hm]; exact (labelLen_ofNat hl.le).1, hs, h⟩
  | pointer hp _ _ _ ih =>
    cases hq with
    | here hp' => simp [hp] at hp'
    | there _ hq => exact ih hn hq

/-- Whatever label the loop comes to, an encoding goes on from it. -/
theorem Encodes.label_encodes {p' w' : ℕ} (h : Encodes mem lim p k e ls)
    (hl : Label mem lim dstSize p w p' w') : ∃ k' ls', Encodes mem lim p' k' e ls' := by
  induction hl generalizing k ls with
  | first => exact ⟨k, ls, h⟩
  | next ho hq _ _ ih =>
    obtain ⟨l, r, k', -, hlen, -, h'⟩ := h.next (h.ne_nil ho) hq
    rw [← hlen] at h'
    exact ih h'

/-- An encoding has no circular pointers. -/
theorem Encodes.nameEnds (h : Encodes mem (start + srcSize) start k e ls) :
    NameEnds mem start srcSize dstSize := by
  intro p w hl _
  obtain ⟨k', ls', h'⟩ := h.label_encodes hl
  obtain ⟨q, hq⟩ := h'.lands
  exact hq.not_circular

/-- The loop over the labels writes the name, a dot after each label, and stops at its terminator. -/
theorem Encodes.labels {c : Cursor} {s : Scan} (h : Encodes mem lim c.src k e ls)
    (hd : c.dst.length + (dotted ls).length ≤ dstSize)
    (hs : labels mem start lim dstSize fuel c = some s) :
    ∃ c', s = .name c' ∧ c'.src = e ∧ c'.dst = c.dst ++ dotted ls := by
  induction fuel generalizing c k ls with
  | zero => simp [Dns.labels] at hs
  | succ fuel ih =>
    rcases labels_cases hs with ⟨ho, rfl⟩ | ⟨n, src, r, hn, ho, hq, -, hs'⟩
    · cases ls with
      | nil =>
        cases h with
        | root _ => exact ⟨c, rfl, rfl, by simp [dotted]⟩
        | pointer _ _ hne _ => exact absurd rfl hne
      | cons l ls =>
        refine absurd (h.opens (List.cons_ne_nil _ _) ?_) ho
        simp only [dotted_cons, List.length_append, List.length_singleton] at hd
        omega
    · obtain rfl : fuel = n := by omega
      obtain ⟨l, ls, k', rfl, hlen, hl, h'⟩ := h.next (h.ne_nil ho) hq
      simp only [dotted_cons, List.length_append, List.length_singleton] at hd
      rw [hlen, if_pos (by omega), hl] at hs'
      obtain ⟨c', rfl, hsrc, hdst⟩ := ih h' (by simp only [List.length_append, List.length_singleton]; omega) hs'
      exact ⟨c', rfl, hsrc, by simp [hdst]⟩

/-- The count up to the pointer or the terminator. -/
theorem Encodes.wireLen (h : Encodes mem lim p k e ls) (hd : w + (dotted ls).length ≤ dstSize) :
    wireLen mem lim (dstSize - w) p = k := by
  induction h generalizing w with
  | root h0 => rw [wireLen_eq, if_neg fun ho => ho.1 h0]
  | @label p k e l ls hl hp hm hs h ih =>
    have ⟨hlen, hnp⟩ := labelLen_ofNat hl.le
    simp only [dotted_cons, List.length_append, List.length_singleton] at hd
    rw [wireLen_eq, if_pos ⟨by rw [hm]; exact ofNat_ne_zero hl, hp, by omega⟩, hm, hnp, hlen,
      if_neg (by decide), ih (by omega)]
  | @pointer p k e ls hp hlt hn h ih =>
    obtain ⟨l, r, rfl⟩ := List.exists_cons_of_ne_nil hn
    simp only [dotted_cons, List.length_append, List.length_singleton] at hd
    rw [wireLen_eq, if_pos ⟨isPointer_ne_zero hp, hlt, by omega⟩, if_pos hp]

/-- `unpack_domain` of an encoding: it returns the bytes in place, and leaves the name when the
terminator is behind the first byte. -/
theorem Encodes.unpacked {o : Option Unpacked} (h : Encodes mem (start + srcSize) start k e ls)
    (hn : ls ≠ []) (hd : (dotted ls).length ≤ dstSize)
    (ho : unpackDomain mem start srcSize dstSize fuel = some o) :
    ∃ u, o = some u ∧ u.retval = k ∧ (start < e → u.dst = text ls ++ [0]) := by
  have hret := (unpackDomain_spec ho).2
  obtain ⟨s, hs, rfl⟩ := Option.map_eq_some_iff.mp ho
  obtain ⟨c, rfl, hsrc, hdst⟩ := h.labels (by simpa using hd) hs
  refine ⟨_, rfl, ?_, fun he => ?_⟩
  · obtain ⟨l, r, rfl⟩ := List.exists_cons_of_ne_nil hn
    have hw := h.wireLen (w := 0) (by simpa using hd)
    simp only [dotted_cons, List.length_append, List.length_singleton] at hd
    rw [hret _ rfl, nameLen, if_pos (h.opens hn (by omega))]
    exact hw
  · simp only [finish, hsrc, if_pos he, hdst, List.nil_append, ← text_append_dot hn,
      List.dropLast_concat]

/-- It ends there. -/
theorem Encodes.unpackDomain (h : Encodes mem (start + srcSize) start k e ls) (hn : ls ≠ [])
    (hd : (dotted ls).length ≤ dstSize) :
    ∃ fuel u, unpackDomain mem start srcSize dstSize fuel = some (some u) ∧ u.retval = k ∧
      (start < e → u.dst = text ls ++ [0]) := by
  obtain ⟨o, ho⟩ := unpackDomain_isSome (h.nameEnds : NameEnds mem start srcSize dstSize) le_rfl
  obtain ⟨u, rfl, hu⟩ := h.unpacked hn hd ho
  exact ⟨_, u, ho, hu⟩

variable (lim) in
/-- What `pack_domain` writes is an encoding. -/
theorem encodes_wire (hok : ∀ l ∈ ls, LabelOk l) (hm : Mem.slice mem p (wire ls).length = wire ls)
    (hlim : (p : ℤ) + (wire ls).length ≤ lim) :
    Encodes mem lim p (wire ls).length (p + (wireLabels ls).length) ls := by
  induction ls generalizing p with
  | nil =>
    have h0 : mem p = 0 := by simpa [wire, wireLabels, Mem.slice] using hm
    exact .root h0
  | cons l ls ih =>
    have hlen : (wire (l :: ls)).length = 1 + l.length + (wire ls).length := by
      simp only [wire, wireLabels_cons, List.length_append, List.length_cons, List.length_nil]; omega
    rw [hlen, Mem.slice_add, Mem.slice_add] at hm
    have hw : wire (l :: ls) = ([BitVec.ofNat 8 l.length] ++ l) ++ wire ls := by simp [wire]
    rw [hw] at hm
    obtain ⟨h₁, h₂⟩ := List.append_inj hm (by simp; omega)
    obtain ⟨h₃, h₄⟩ := List.append_inj h₁ (by simp)
    have h₃ : mem p = BitVec.ofNat 8 l.length := by simpa [Mem.slice] using h₃
    rw [← Nat.add_assoc] at h₂
    have := ih (p := p + 1 + l.length) (fun x hx => hok x (List.mem_cons_of_mem _ hx)) h₂ (by omega)
    have := Encodes.label (hok l List.mem_cons_self) (by omega) h₃ h₄ this
    rw [hlen]
    convert this using 1
    simp only [wireLabels_cons, List.length_append, List.length_cons]
    omega

theorem DomainName.qualified_ok (name : DomainName) (dom : Option DomainName) :
    ∀ l ∈ name.qualified dom, LabelOk l := by
  intro l hl
  unfold DomainName.qualified at hl
  split_ifs at hl
  · cases dom with
    | none => exact name.ok l (by simpa using hl)
    | some d =>
      rcases List.mem_append.mp hl with h | h
      · exact name.ok l h
      · exact d.ok l h
  · exact name.ok l hl

theorem DomainName.qualified_ne_nil (name : DomainName) (dom : Option DomainName) (h : name.labels ≠ []) :
    name.qualified dom ≠ [] := by
  unfold DomainName.qualified
  split_ifs <;> simp [h]

/-- **Packing and unpacking.** A name that is not the root is packed, in the default domain when it
has no dot, and unpacked from there; the parser is left behind its terminator. From any other
encoding it is left behind the terminator or the first pointer, and the name comes back when its
terminator lies behind its first byte. -/
theorem names_round_trip :
    (∀ (name : DomainName) (dom : Option DomainName), name.labels ≠ [] →
      ∃ out, packDomain (dom.map fun d => text d.labels) (text name.labels) = some out ∧
        ∀ (mem : ℕ → Byte) (start : ℕ) (srcSize : ℤ) (dstSize : ℕ),
          Mem.slice mem start out.length = out → out.length ≤ srcSize → out.length ≤ dstSize →
          ∃ fuel, unpackDomain mem start srcSize dstSize fuel =
            some (some ⟨out.length, text (name.qualified dom) ++ [0]⟩)) ∧
    ∀ (name : DomainName) (mem : ℕ → Byte) (start k e : ℕ) (srcSize : ℤ) (dstSize : ℕ),
      name.labels ≠ [] → Encodes mem (start + srcSize) start k e name.labels →
      (wire name.labels).length ≤ dstSize →
      ∃ fuel u, unpackDomain mem start srcSize dstSize fuel = some (some u) ∧ u.retval = k ∧
        (start < e → u.dst = text name.labels ++ [0]) := by
  constructor
  · intro name dom hn
    refine ⟨_, packDomain_text name dom hn, fun mem start srcSize dstSize hm hsrc hdst => ?_⟩
    have hne := name.qualified_ne_nil dom hn
    have he := encodes_wire (start + srcSize) (name.qualified_ok dom) hm (by omega)
    have hlen := length_dotted (name.qualified dom)
    obtain ⟨fuel, u, hu, hret, htext⟩ := he.unpackDomain hne (show _ ≤ dstSize by omega)
    have hpos : 0 < (wireLabels (name.qualified dom)).length := by
      obtain ⟨l, r, hl⟩ := List.exists_cons_of_ne_nil hne
      rw [hl, wireLabels_cons]; simp
    exact ⟨fuel, by rw [hu, ← hret, ← htext (by omega)]⟩
  · intro name mem start k e srcSize dstSize hn he hdst
    have hlen := length_dotted name.labels
    exact he.unpackDomain hn (by omega)

/-- The names `a` and `a.b`. -/
def nameA : DomainName := ⟨[[97]], fun l hl => by
  obtain rfl := List.mem_singleton.mp hl
  exact ⟨by decide, by decide, by decide⟩, by decide⟩

def nameAB : DomainName := ⟨[[97], [98]], fun l hl => by
  rcases List.mem_pair.mp hl with rfl | rfl <;> exact ⟨by decide, by decide, by decide⟩, by decide⟩

/-- `a` and a pointer to `b`, which follows. -/
def splitName : ℕ → Byte := Mem.put (fun _ => 0) 12 [1, 97, 0xC0, 16, 1, 98, 0]

/-- It holds of `a.b`, packed and with a pointer in it. -/
theorem names_round_trip_ab :
    (∃ out, packDomain none [97, 46, 98] = some out) ∧
      ∃ fuel u, unpackDomain splitName 12 8 domSize fuel = some (some u) ∧ u.retval = 4 ∧
        u.dst = [97, 46, 98, 0] := by
  have ha : LabelOk [97] := nameAB.ok _ (by decide)
  have hb : LabelOk [98] := nameAB.ok _ (by decide)
  have h₁₆ : Encodes splitName 20 16 (1 + [98].length + 1) 18 [[98]] :=
    .label hb (by decide) (by decide) (by decide) (.root (by decide))
  have h₁₄ : Encodes splitName 20 14 2 18 [[98]] := .pointer (by decide) (by decide) (by decide) h₁₆
  have he : Encodes splitName 20 12 (1 + [97].length + 2) 18 [[97], [98]] :=
    .label (p := 12) ha (by decide) (by decide) (by decide) h₁₄
  obtain ⟨hpack, hunpack⟩ := names_round_trip
  obtain ⟨out, hout, -⟩ := hpack nameAB none (by decide)
  obtain ⟨fuel, u, hu, hret, hdst⟩ := hunpack nameAB splitName 12 4 18 8 domSize (by decide) he (by decide)
  exact ⟨⟨out, hout⟩, fuel, u, hu, hret, hdst (by decide)⟩

/-- **The claim fails** for a name without a dot when there is a default domain: `a` in `a.b`. -/
theorem dotless_name_changes :
    ¬ ∀ (name : DomainName) (dom : Option DomainName),
      ∃ out, packDomain (dom.map fun d => text d.labels) (text name.labels) = some out ∧
        ∀ (mem : ℕ → Byte) (start : ℕ) (srcSize : ℤ) (dstSize : ℕ),
          Mem.slice mem start out.length = out → out.length ≤ srcSize → out.length ≤ dstSize →
          ∃ fuel, unpackDomain mem start srcSize dstSize fuel =
            some (some ⟨out.length, text name.labels ++ [0]⟩) := by
  intro h
  obtain ⟨out, hout, hun⟩ := h nameA (some nameAB)
  have hwire := packDomain_text nameA (some nameAB) (by decide)
  obtain rfl := Option.some.inj (hout.symm.trans hwire)
  let mem : ℕ → Byte := Mem.put (fun _ => 0) 12 (wire (nameA.qualified (some nameAB)))
  have hm : Mem.slice mem 12 (wire (nameA.qualified (some nameAB))).length =
      wire (nameA.qualified (some nameAB)) := Mem.slice_put
  obtain ⟨fuel, hu⟩ := hun mem 12 7 domSize hm (by decide) (by decide)
  have he := encodes_wire ((12 : ℕ) + 7) (nameA.qualified_ok (some nameAB)) hm (by decide)
  obtain ⟨u, hu', -, hdst⟩ := he.unpacked (by decide) (by decide) hu
  rw [← Option.some.inj hu'] at hdst
  exact absurd (hdst (by decide)) (by decide)

end Watt32.Dns
