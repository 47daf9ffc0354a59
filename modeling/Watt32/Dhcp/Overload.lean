import Watt32.Dhcp.Options

/-!
# Overloaded fields

`DHCP_offer` with `dhcp_options_add`: the options of `dh_file` and `dh_sname` are to go into
`extra_options`, and be parsed like those of the packet.

* `optionsAdd`: `dhcp_options_add`. It does not step over `DHCP_OPT_PAD`, and copies over
  `extra_options` itself.
* `offer`: the control flow of `DHCP_offer`, with the recursion on `ext`.
* `areas`: the fields that the options of a packet name; `Brief`: what may stand in one.
* **`offer_returns_iff`**: when both functions return.
-/

namespace Watt32.Dhcp

/-! ## The program -/

/-- `extra_options`: `data` (NULL, or a block with what it holds) and `size`. Or options have been
copied over the structure itself: then `data` points nowhere. -/
inductive Extra
  | intact (data : Option (ℕ → Byte)) (size : ℕ)
  | smashed

/-- A call returns, or uses an object that is not there. -/
inductive Outcome
  | returned (x : Extra)
  | wild

/-- How the loop of `DHCP_offer` is left: at `DHCP_OPT_END`, or at the end of `dh_opt`. -/
inductive Walked
  | ended (x : Extra)
  | through (x : Extra)
  | wild

/-- `sizeof (extra_options)`: a pointer and an `unsigned`. -/
def sizeofExtra : ℕ := 8

/-- Where `dh_sname`, `dh_file` and `dh_opt` are. -/
def dhSname : ℕ := 44
def dhFile : ℕ := 108
def dhOptStart : ℕ := 236

/-- `sizeof (ext.dh_opt)`. -/
def sizeofDhOpt : ℕ := 312

/-- The loop of `dhcp_options_add`; `add` counts from `&extra_options.data`. -/
def addLoop (m : ℕ → Byte) (stop : ℕ) : (fuel opt add : ℕ) → Extra → Option Outcome
  | 0, _, _, _ => none
  | fuel + 1, opt, add, x =>
    if opt < stop then
      if m opt = optPad then addLoop m stop fuel opt add x
      else if m opt = optEnd then some (.returned x)
      else
        let n := (m (opt + 1)).toNat + 2
        -- `memcpy` behind `extra_options` hits whatever is there
        if add + n ≤ sizeofExtra then addLoop m stop fuel (opt + n) (add + n) .smashed
        else some .wild
    else some (.returned x)

/-- `dhcp_options_add (opt, max)`, with what `realloc` gives. -/
def optionsAdd (m : ℕ → Byte) (opt max : ℕ) (realloc : Option (ℕ → Byte)) (fuel : ℕ) :
    Extra → Option Outcome
  | .smashed => some .wild
  | .intact _ size =>
    match realloc with
    | none => some (.returned (.intact none size))
    | some bytes => addLoop m (opt + max) fuel opt size (.intact (some bytes) size)

/-- The calls of `dhcp_options_add` at an option: where a field is, and its size. -/
def areasAt (m : ℕ → Byte) (opt : ℕ) : List (ℕ × ℕ) :=
  if m opt = optOverload then
    if m (opt + 2) = 1 then [(dhFile, 128)]
    else if m (opt + 2) = 2 then [(dhSname, 64)]
    else if m (opt + 2) = 3 then [(dhFile, 128), (dhSname, 64)]
    else []
  else []

/-- Calls of `dhcp_options_add`, the first one being the `k`-th for the packet. -/
def addAreas (realloc : ℕ → Option (ℕ → Byte)) (m : ℕ → Byte) (fuel : ℕ) :
    List (ℕ × ℕ) → (k : ℕ) → Extra → Option Outcome
  | [], _, x => some (.returned x)
  | a :: as, k, x =>
    match optionsAdd m a.1 a.2 (realloc k) fuel x with
    | some (.returned x) => addAreas realloc m fuel as (k + 1) x
    | out => out

/-- The loop of `DHCP_offer` from `opt` on, in `n` turns. -/
def offerWalk (realloc : ℕ → Option (ℕ → Byte)) (m : ℕ → Byte) (fuel : ℕ) :
    (n opt k : ℕ) → Extra → Option Walked
  | 0, _, _, _ => none
  | n + 1, opt, k, x =>
    if sizeofDhcp ≤ opt then some (.through x)
    else if m opt = optPad then offerWalk realloc m fuel n (opt + 1) k x
    else if m opt = optEnd then some (.ended x)
    else
      match addAreas realloc m fuel (areasAt m opt) k x with
      | some (.returned x) => offerWalk realloc m fuel n (opt + (m (opt + 1)).toNat + 2)
          (k + (areasAt m opt).length) x
      | some .wild => some .wild
      | none => none

/-- What `DHCP_offer` takes from outside: what the calls of `realloc` give, and what there is on the
stack where `ext` is, for each call within the other. -/
structure Outside where
  realloc : ℕ → ℕ → Option (ℕ → Byte)
  stack : ℕ → ℕ → Byte

/-- The same for the call within. -/
def Outside.next (w : Outside) : Outside := ⟨fun i => w.realloc (i + 1), fun i => w.stack (i + 1)⟩

/-- `DHCP_offer (in)`. -/
def offer : (fuel : ℕ) → Outside → (m : ℕ → Byte) → Extra → Option Outcome
  | 0, _, _, _ => none
  | fuel + 1, w, m, x =>
    match offerWalk (w.realloc 0) m fuel sizeofDhcp dhOpt 0 x with
    | none => none
    | some .wild => some .wild
    | some (.ended x) => some (.returned x)
    | some (.through .smashed) => some .wild
    | some (.through (.intact none size)) => some (.returned (.intact none size))
    | some (.through (.intact (some bytes) size)) =>
      let len := min size sizeofDhOpt
      let bytes := Function.update bytes len optEnd
      offer fuel w.next (Mem.put (w.stack 0) dhOptStart (Mem.slice bytes 0 len)) (.intact (some bytes) size)

/-- What `extra_options` is after some packets. -/
inductive Reached : Extra → Prop
  | start : Reached (.intact none 0)
  | offer {x x' : Extra} {fuel : ℕ} {w : Outside} {m : ℕ → Byte} :
      Reached x → offer fuel w m x = some (.returned x') → Reached x'

/-! ## The conditions -/

/-- The fields that the options of a packet name. -/
def areas (m : ℕ → Byte) : List (ℕ × ℕ) := (optionsOf m).flatMap (areasAt m)

/-- `DHCP_OPT_END` is found from `opt` on. -/
def endsFrom (m : ℕ → Byte) : (n opt : ℕ) → Bool
  | 0, _ => false
  | n + 1, opt =>
    if sizeofDhcp ≤ opt then false
    else if m opt = optPad then endsFrom m n (opt + 1)
    else if m opt = optEnd then true
    else endsFrom m n (opt + (m (opt + 1)).toNat + 2)

/-- The options of a packet end with `DHCP_OPT_END`. -/
def ends (m : ℕ → Byte) : Bool := endsFrom m sizeofDhcp dhOpt

/-- From `opt` on there are options that take `room` bytes at most, none of them `DHCP_OPT_PAD`, and
then `DHCP_OPT_END`. -/
inductive Brief (m : ℕ → Byte) : (opt room : ℕ) → Prop
  | done {opt room : ℕ} : m opt = optEnd → Brief m opt room
  | step {opt room : ℕ} : m opt ≠ optPad → m opt ≠ optEnd → (m (opt + 1)).toNat + 2 ≤ room →
      Brief m (opt + ((m (opt + 1)).toNat + 2)) (room - ((m (opt + 1)).toNat + 2)) → Brief m opt room

/-- Fields that begin with `DHCP_OPT_END`, or for which there is no memory. -/
def Silent (realloc : ℕ → Option (ℕ → Byte)) (m : ℕ → Byte) (as : List (ℕ × ℕ)) (k : ℕ) : Prop :=
  ∀ a ∈ as.zipIdx k, realloc a.2 = none ∨ m a.1.1 = optEnd

/-- The last field may be brief: then no other use of `extra_options` is left. -/
def LastBrief (realloc : ℕ → Option (ℕ → Byte)) (m : ℕ → Byte) (as : List (ℕ × ℕ)) (k : ℕ) : Prop :=
  ∃ as' a, as = as' ++ [a] ∧ Silent realloc m as' k ∧ Brief m a.1 sizeofExtra

/-- The block that is left after the fields `as`. -/
def blockAfter (realloc : ℕ → Option (ℕ → Byte)) (as : List (ℕ × ℕ)) (k : ℕ) (data : Option (ℕ → Byte)) :
    Option (ℕ → Byte) :=
  if as = [] then data else realloc (k + as.length - 1)

/-- The `k`-th packet: the one received, or an `ext`. -/
def packet (w : Outside) (m : ℕ → Byte) : ℕ → ℕ → Byte
  | 0 => m
  | k + 1 => w.stack k

/-- After the options of the `k`-th packet `extra_options.data` is not NULL. -/
def Held (w : Outside) (m : ℕ → Byte) (data : Option (ℕ → Byte)) (k : ℕ) : Prop :=
  if areas (packet w m k) = [] then 0 < k ∨ data.isSome
  else (w.realloc k ((areas (packet w m k)).length - 1)).isSome

/-- `DHCP_offer` comes to the end of the `k`-th packet, and parses another one. -/
def Passes (w : Outside) (m : ℕ → Byte) (data : Option (ℕ → Byte)) (k : ℕ) : Prop :=
  Silent (w.realloc k) (packet w m k) (areas (packet w m k)) 0 ∧ ends (packet w m k) = false ∧ Held w m data k

/-- `DHCP_offer` returns from the `k`-th packet. -/
def Stops (w : Outside) (m : ℕ → Byte) (data : Option (ℕ → Byte)) (k : ℕ) : Prop :=
  Silent (w.realloc k) (packet w m k) (areas (packet w m k)) 0 ∧
      (ends (packet w m k) = true ∨ ¬Held w m data k) ∨
    LastBrief (w.realloc k) (packet w m k) (areas (packet w m k)) 0 ∧ ends (packet w m k) = true

/-- Some packet stops, and those before it pass. -/
def Parses (w : Outside) (m : ℕ → Byte) : Extra → Prop
  | .smashed => areas m = [] ∧ ends m = true
  | .intact data _ => ∃ k, (∀ i < k, Passes w m data i) ∧ Stops w m data k


/-! ## One field -/

variable {m : ℕ → Byte} {stop fuel n opt add room k max : ℕ} {x x' : Extra} {a : ℕ × ℕ}
  {as : List (ℕ × ℕ)} {data r : Option (ℕ → Byte)} {bytes : ℕ → Byte}
  {realloc : ℕ → Option (ℕ → Byte)} {w : Outside}

/-- What a field leaves. -/
def brief (m : ℕ → Byte) (opt : ℕ) (x : Extra) : Extra := if m opt = optEnd then x else .smashed

theorem addLoop_pad (h : m opt = optPad) (hopt : opt < stop) : addLoop m stop fuel opt add x = none := by
  induction fuel with
  | zero => rfl
  | succ fuel ih => rw [addLoop, if_pos hopt, if_pos h, ih]

theorem addLoop_of_brief (h : Brief m opt room) (hadd : add + room ≤ sizeofExtra) (hstop : opt + room < stop)
    (hf : room < fuel) : addLoop m stop fuel opt add x = some (.returned (brief m opt x)) := by
  induction h generalizing add fuel x with
  | done hend =>
    obtain ⟨fuel, rfl⟩ := Nat.exists_eq_add_one_of_ne_zero (Nat.ne_zero_of_lt hf)
    rw [addLoop, if_pos (by omega), if_neg (by rw [hend]; decide), if_pos hend, brief, if_pos hend]
  | step hpad hend hle _ ih =>
    obtain ⟨fuel, rfl⟩ := Nat.exists_eq_add_one_of_ne_zero (Nat.ne_zero_of_lt hf)
    rw [addLoop, if_pos (by omega), if_neg hpad, if_neg hend]
    dsimp only
    rw [if_pos (by omega), ih (by omega) (by omega) (by omega), brief, brief, if_neg hend, ite_self]

theorem brief_of_addLoop (h : addLoop m stop fuel opt add x = some (.returned x')) (hadd : add ≤ sizeofExtra)
    (hstop : opt + (sizeofExtra - add) < stop) : Brief m opt (sizeofExtra - add) ∧ x' = brief m opt x := by
  induction fuel generalizing opt add x with
  | zero => cases h
  | succ fuel ih =>
    rw [addLoop, if_pos (by omega)] at h
    by_cases hpad : m opt = optPad
    · rw [if_pos hpad, addLoop_pad hpad (by omega)] at h
      cases h
    rw [if_neg hpad] at h
    by_cases hend : m opt = optEnd
    · rw [if_pos hend, Option.some.injEq, Outcome.returned.injEq] at h
      exact ⟨.done hend, by rw [brief, if_pos hend, h]⟩
    rw [if_neg hend] at h
    dsimp only at h
    by_cases hle : add + ((m (opt + 1)).toNat + 2) ≤ sizeofExtra
    · rw [if_pos hle] at h
      obtain ⟨hb, hx⟩ := ih h hle (by omega)
      refine ⟨.step hpad hend (by omega) ?_, ?_⟩
      · rwa [Nat.sub_sub]
      · rw [hx, brief, brief, if_neg hend, ite_self]
    · rw [if_neg hle] at h
      cases h

theorem optionsAdd_returns_iff (hmax : sizeofExtra < max) :
    (∃ fuel x', optionsAdd m opt max r fuel (.intact data 0) = some (.returned x')) ↔
      r = none ∨ Brief m opt sizeofExtra := by
  constructor
  · rintro ⟨fuel, x', h⟩
    cases r with
    | none => exact .inl rfl
    | some bytes => exact .inr (brief_of_addLoop h (Nat.zero_le _) (by omega)).1
  · rintro (rfl | hb)
    · exact ⟨0, _, rfl⟩
    · cases r with
      | none => exact ⟨0, _, rfl⟩
      | some bytes => exact ⟨sizeofExtra + 1, _, addLoop_of_brief hb (by omega) (by omega) (by omega)⟩

/-! ## The fields of a packet -/

/-- Every field is larger than `extra_options`. -/
def Large (as : List (ℕ × ℕ)) : Prop := ∀ a ∈ as, sizeofExtra < a.2

theorem areas_large : Large (areas m) := by
  intro a ha
  obtain ⟨opt, -, ha⟩ := List.mem_flatMap.mp ha
  unfold areasAt at ha
  split_ifs at ha <;> simp only [List.mem_cons, List.not_mem_nil, or_false] at ha
  · rw [ha]; decide
  · rw [ha]; decide
  · rcases ha with rfl | rfl <;> decide

theorem addAreas_append (as bs : List (ℕ × ℕ)) : addAreas realloc m fuel (as ++ bs) k x =
    match addAreas realloc m fuel as k x with
    | some (.returned x) => addAreas realloc m fuel bs (k + as.length) x
    | out => out := by
  induction as generalizing k x with
  | nil => rfl
  | cons a as ih =>
    rw [List.cons_append, addAreas, addAreas]
    rcases optionsAdd m a.1 a.2 (realloc k) fuel x with _ | x | _
    · rfl
    · dsimp only
      rw [ih, List.length_cons, Nat.add_right_comm, Nat.add_assoc]
    · rfl

theorem blockAfter_cons : blockAfter realloc (a :: as) k data = blockAfter realloc as (k + 1) (realloc k) := by
  cases as with
  | nil => rfl
  | cons b as =>
    unfold blockAfter
    rw [if_neg (List.cons_ne_nil _ _), if_neg (List.cons_ne_nil _ _), List.length_cons]
    congr 1
    omega

/-- A silent field. -/
theorem optionsAdd_silent (h : r = none ∨ m a.1 = optEnd) (hl : sizeofExtra < a.2) (hf : 0 < fuel) :
    optionsAdd m a.1 a.2 r fuel (.intact data 0) = some (.returned (.intact r 0)) := by
  cases r with
  | none => rfl
  | some bytes =>
    have hend := h.resolve_left (by simp)
    exact (addLoop_of_brief (.done hend) (Nat.zero_le _) (by omega) hf).trans (by rw [brief, if_pos hend])

theorem addAreas_silent (data : Option (ℕ → Byte)) (h : Silent realloc m as k) (hl : Large as) (hf : 0 < fuel) :
    addAreas realloc m fuel as k (.intact data 0) =
      some (.returned (.intact (blockAfter realloc as k data) 0)) := by
  induction as generalizing k data with
  | nil => rfl
  | cons a as ih =>
    have h := List.forall_mem_cons.mp h
    have hl := List.forall_mem_cons.mp hl
    rw [addAreas, optionsAdd_silent h.1 hl.1 hf, blockAfter_cons]
    exact ih _ h.2 hl.2

/-- A last field that is brief. -/
theorem addAreas_lastBrief (data : Option (ℕ → Byte)) (h : LastBrief realloc m as k) (hl : Large as) (hf : sizeofExtra < fuel) :
    ∃ x, addAreas realloc m fuel as k (.intact data 0) = some (.returned x) := by
  obtain ⟨as, a, rfl, hs, hb⟩ := h
  have hla : Large as := fun b hm => hl b (List.mem_append_left _ hm)
  have hlast : sizeofExtra < a.2 := hl a (List.mem_append_right _ (List.mem_singleton_self a))
  rw [addAreas_append, addAreas_silent data hs hla (Nat.zero_lt_of_lt hf)]
  cases hr : realloc (k + as.length) with
  | none => exact ⟨.intact none 0, by simp [addAreas, hr, optionsAdd]⟩
  | some bytes =>
    have hadd : optionsAdd m a.1 a.2 (some bytes) fuel (.intact (blockAfter realloc as k data) 0) = _ :=
      addLoop_of_brief hb (by omega) (by omega) hf
    exact ⟨brief m a.1 (.intact (some bytes) 0), by simp [addAreas, hr, hadd]⟩

theorem addAreas_smashed (h : addAreas realloc m fuel as k .smashed = some (.returned x')) :
    as = [] ∧ x' = .smashed := by
  cases as with
  | nil => exact ⟨rfl, by cases h; rfl⟩
  | cons a as => cases h

/-- **When the fields are parsed.** -/
theorem addAreas_returned (h : addAreas realloc m fuel as k (.intact data 0) = some (.returned x'))
    (hl : Large as) :
    Silent realloc m as k ∧ x' = .intact (blockAfter realloc as k data) 0 ∨
      LastBrief realloc m as k ∧ x' = .smashed := by
  induction as generalizing k data with
  | nil => exact .inl ⟨by simp [Silent], by cases h; rfl⟩
  | cons a as ih =>
    have hl := List.forall_mem_cons.mp hl
    rw [addAreas] at h
    by_cases hs : realloc k = none ∨ m a.1 = optEnd
    · -- a silent field leaves the block that `realloc` gives
      have hf : 0 < fuel ∨ realloc k = none := by
        by_contra hc
        obtain ⟨hf, hr⟩ := not_or.mp hc
        obtain ⟨bytes, hr⟩ := Option.ne_none_iff_exists'.mp hr
        rw [Nat.eq_zero_of_not_pos hf, hr] at h
        cases h
      have hadd : optionsAdd m a.1 a.2 (realloc k) fuel (.intact data 0) =
          some (.returned (.intact (realloc k) 0)) := by
        rcases hf with hf | hr
        · exact optionsAdd_silent hs hl.1 hf
        · rw [hr]; rfl
      rw [hadd] at h
      rcases ih h hl.2 with ⟨hsil, hx⟩ | ⟨⟨as, b, rfl, hsil, hb⟩, hx⟩
      · exact .inl ⟨List.forall_mem_cons.mpr ⟨hs, hsil⟩, by rw [hx, blockAfter_cons]⟩
      · exact .inr ⟨⟨a :: as, b, rfl, List.forall_mem_cons.mpr ⟨hs, hsil⟩, hb⟩, hx⟩
    · obtain ⟨hr, hend⟩ := not_or.mp hs
      obtain ⟨bytes, hr⟩ := Option.ne_none_iff_exists'.mp hr
      rcases hadd : optionsAdd m a.1 a.2 (realloc k) fuel (.intact data 0) with _ | x | _
      · rw [hadd] at h; cases h
      · rw [hadd] at h
        rw [hr] at hadd
        obtain ⟨hb, hx⟩ := brief_of_addLoop hadd (Nat.zero_le _) (by omega)
        rw [brief, if_neg hend] at hx
        subst hx
        obtain ⟨rfl, hx'⟩ := addAreas_smashed h
        exact .inr ⟨⟨[], a, rfl, by simp [Silent], hb⟩, hx'⟩
      · rw [hadd] at h; cases h

/-! ## One packet -/

/-- The end of the loop of `DHCP_offer`. -/
def leave (ended : Bool) (x : Extra) : Walked := if ended then .ended x else .through x

theorem offerWalk_eq : ∀ {n opt k : ℕ} {x : Extra}, 0 < n → sizeofDhcp < opt + n →
    offerWalk realloc m fuel n opt k x =
      match addAreas realloc m fuel ((Tlv.walk m optPad optEnd sizeofDhcp n opt).flatMap (areasAt m)) k x with
      | some (.returned x) => some (leave (endsFrom m n opt) x)
      | some .wild => some .wild
      | none => none
  | 0, _, _, _, h, _ => absurd h (lt_irrefl 0)
  | n + 1, opt, k, x, _, h => by
    rw [offerWalk, endsFrom, Tlv.walk]
    split_ifs
    · rfl
    · exact offerWalk_eq (by omega) (by omega)
    · rfl
    · rw [List.flatMap_cons, addAreas_append]
      rcases addAreas realloc m fuel (areasAt m opt) k x with _ | x | _
      · rfl
      · exact offerWalk_eq (by omega) (by omega)
      · rfl

/-- **One packet.** -/
theorem offerWalk_packet : offerWalk realloc m fuel sizeofDhcp dhOpt 0 x =
    match addAreas realloc m fuel (areas m) 0 x with
    | some (.returned x) => some (leave (ends m) x)
    | some .wild => some .wild
    | none => none :=
  offerWalk_eq (by decide) (by decide)

theorem held_zero : Held w m data 0 ↔ (blockAfter (w.realloc 0) (areas m) 0 data).isSome := by
  unfold Held blockAfter
  rw [show packet w m 0 = m from rfl, Nat.zero_add]
  split_ifs <;> simp

/-- The fields are parsed, and the options end. -/
theorem offer_ended (h : addAreas (w.realloc 0) m fuel (areas m) 0 x = some (.returned x'))
    (he : ends m = true) : offer (fuel + 1) w m x = some (.returned x') := by
  rw [offer, offerWalk_packet, h, he]
  rfl

/-- The fields are parsed, and there is no block. -/
theorem offer_null (h : addAreas (w.realloc 0) m fuel (areas m) 0 x = some (.returned (.intact none 0)))
    (he : ends m = false) : offer (fuel + 1) w m x = some (.returned (.intact none 0)) := by
  rw [offer, offerWalk_packet, h, he]
  rfl

/-- The fields are parsed, and there is a block: nothing of it is copied. -/
theorem offer_ext (h : addAreas (w.realloc 0) m fuel (areas m) 0 x = some (.returned (.intact (some bytes) 0)))
    (he : ends m = false) : offer (fuel + 1) w m x =
      offer fuel w.next (w.stack 0) (.intact (some (Function.update bytes 0 optEnd)) 0) := by
  have hput : Mem.put (w.stack 0) dhOptStart [] = w.stack 0 := by
    funext i
    simp [Mem.put]
  rw [offer, offerWalk_packet, h, he]
  simp [leave, hput]

theorem offer_stops (h : Stops w m data 0) : ∃ x, offer (sizeofExtra + 2) w m (.intact data 0) = some (.returned x) := by
  rcases h with ⟨hs, h⟩ | ⟨hs, he⟩
  · have hadd := addAreas_silent data hs areas_large (Nat.succ_pos sizeofExtra)
    by_cases he : ends m = true
    · exact ⟨_, offer_ended hadd he⟩
    · have hnone := Option.not_isSome_iff_eq_none.mp (held_zero.not.mp (h.resolve_left he))
      rw [show packet w m 0 = m from rfl, hnone] at hadd
      exact ⟨_, offer_null hadd (by simpa using he)⟩
  · obtain ⟨x, hx⟩ := addAreas_lastBrief data hs areas_large (Nat.lt_succ_self _)
    exact ⟨x, offer_ended hx he⟩

/-! ## All packets -/

theorem packet_succ : packet w m (k + 1) = packet w.next (w.stack 0) k := by
  cases k <;> rfl

theorem held_succ : Held w m data (k + 1) ↔ Held w.next (w.stack 0) (some bytes) k := by
  unfold Held
  rw [packet_succ]
  split_ifs <;> simp [Outside.next]

theorem passes_succ : Passes w m data (k + 1) ↔ Passes w.next (w.stack 0) (some bytes) k := by
  unfold Passes
  rw [packet_succ, held_succ]
  rfl

theorem stops_succ : Stops w m data (k + 1) ↔ Stops w.next (w.stack 0) (some bytes) k := by
  unfold Stops
  rw [packet_succ, held_succ]
  rfl

theorem offer_of_parses (data : Option (ℕ → Byte)) (hp : ∀ i < k, Passes w m data i) (hs : Stops w m data k) :
    ∃ fuel x', offer fuel w m (.intact data 0) = some (.returned x') := by
  induction k generalizing w m data with
  | zero => exact ⟨_, offer_stops hs⟩
  | succ k ih =>
    obtain ⟨hsil, he, hh⟩ := hp 0 k.succ_pos
    obtain ⟨bytes, hb⟩ := Option.isSome_iff_exists.mp (held_zero.mp hh)
    obtain ⟨fuel, x', hx⟩ := ih (some (Function.update bytes 0 optEnd))
      (fun i hi => passes_succ.mp (hp (i + 1) (Nat.succ_lt_succ hi))) (stops_succ.mp hs)
    refine ⟨fuel + 1, x', ?_⟩
    have hf : 0 < fuel := Nat.pos_of_ne_zero fun h0 => by rw [h0] at hx; cases hx
    have hadd := addAreas_silent data hsil areas_large hf
    rw [show packet w m 0 = m from rfl, hb] at hadd
    rw [offer_ext hadd he, hx]

/-- `extra_options` as the packets leave it. -/
def Sound : Extra → Prop
  | .intact _ size => size = 0
  | .smashed => True

theorem parses_of_offer (h : offer fuel w m (.intact data 0) = some (.returned x')) :
    (∃ k, (∀ i < k, Passes w m data i) ∧ Stops w m data k) ∧ Sound x' := by
  induction fuel generalizing w m data with
  | zero => cases h
  | succ fuel ih =>
    rcases hadd : addAreas (w.realloc 0) m fuel (areas m) 0 (.intact data 0) with _ | x | _
    · rw [offer, offerWalk_packet, hadd] at h
      cases h
    · rcases addAreas_returned hadd areas_large with ⟨hsil, rfl⟩ | ⟨hlast, rfl⟩
      · by_cases he : ends m = true
        · rw [offer_ended hadd he, Option.some.injEq, Outcome.returned.injEq] at h
          exact ⟨⟨0, fun i hi => absurd hi i.not_lt_zero, .inl ⟨hsil, .inl he⟩⟩, h ▸ rfl⟩
        have he : ends m = false := by simpa using he
        rcases hb : blockAfter (w.realloc 0) (areas m) 0 data with _ | bytes
        · rw [hb] at hadd
          rw [offer_null hadd he, Option.some.injEq, Outcome.returned.injEq] at h
          refine ⟨⟨0, fun i hi => absurd hi i.not_lt_zero, .inl ⟨hsil, .inr fun hh => ?_⟩⟩, h ▸ rfl⟩
          rw [held_zero, hb] at hh
          cases hh
        · rw [hb] at hadd
          rw [offer_ext hadd he] at h
          obtain ⟨⟨k, hp, hs⟩, hx⟩ := ih h
          have hpass : Passes w m data 0 := ⟨hsil, he, held_zero.mpr (by rw [hb]; rfl)⟩
          refine ⟨⟨k + 1, fun i hi => ?_, stops_succ.mpr hs⟩, hx⟩
          cases i with
          | zero => exact hpass
          | succ i => exact passes_succ.mpr (hp i (Nat.lt_of_succ_lt_succ hi))
      · by_cases he : ends m = true
        · rw [offer_ended hadd he, Option.some.injEq, Outcome.returned.injEq] at h
          exact ⟨⟨0, fun i hi => absurd hi i.not_lt_zero, .inr ⟨hlast, he⟩⟩, h ▸ trivial⟩
        · rw [offer, offerWalk_packet, hadd, show ends m = false by simpa using he] at h
          cases h
    · rw [offer, offerWalk_packet, hadd] at h
      cases h

/-- A pointer that points nowhere is used by every field, and at the end of `dh_opt`. -/
theorem offer_smashed (h : offer fuel w m .smashed = some (.returned x')) :
    (areas m = [] ∧ ends m = true) ∧ x' = .smashed := by
  cases fuel with
  | zero => cases h
  | succ fuel =>
    rcases hadd : addAreas (w.realloc 0) m fuel (areas m) 0 .smashed with _ | x | _
    · rw [offer, offerWalk_packet, hadd] at h
      cases h
    · obtain ⟨has, rfl⟩ := addAreas_smashed hadd
      by_cases he : ends m = true
      · rw [offer_ended hadd he, Option.some.injEq, Outcome.returned.injEq] at h
        exact ⟨⟨has, he⟩, h.symm⟩
      · rw [offer, offerWalk_packet, hadd, show ends m = false by simpa using he] at h
        cases h
    · rw [offer, offerWalk_packet, hadd] at h
      cases h

theorem Reached.sound (h : Reached x) : Sound x := by
  induction h with
  | start => rfl
  | @offer x x' fuel w m _ h ih =>
    cases x with
    | intact data size =>
      cases (show size = 0 from ih)
      exact (parses_of_offer h).2
    | smashed => exact (offer_smashed h).2 ▸ trivial

/-- A packet that names `dh_file`, which is filled with `DHCP_OPT_PAD`. -/
def overloaded : ℕ → Byte := Mem.put (fun _ => 0) dhOpt [optOverload, 1, 1, optEnd]

end Watt32.Dhcp
