import Watt32.Arp.Gateways

/-!
# Addresses as text

`netaddr.c`: dotted quads and dotless numbers.

* `inetNtoa`, `aton`, `isaddr`, `isaddrDotless`, `inetAddr`: the functions; `none` is undefined
  behaviour.
* `Quad`, `Number`: what a string denotes.
* `Parsed`: all functions agree with that.
* **`parsed_iff`**: on which strings they do, and `aton` after `_inet_ntoa`.
-/

namespace Watt32.NetAddr

open Arp (isSpace digits behind)

abbrev Dword := BitVec 32

/-! ## The program -/

/-- `itoa (value, s, 10)`. -/
def itoa (value : Dword) : List Char := Nat.toDigits 10 value.toNat

/-- `_inet_ntoa`. -/
def inetNtoa (ip : Dword) : List Char :=
  itoa (ip >>> 24) ++ '.' :: (itoa ((ip >>> 16) &&& 0xff) ++ '.' ::
    (itoa ((ip >>> 8) &&& 0xff) ++ '.' :: itoa (ip &&& 0xff)))

/-- The number is an `int`. -/
def Fits (n : ℤ) : Prop := -2 ^ 31 ≤ n ∧ n < 2 ^ 31

instance {n : ℤ} : Decidable (Fits n) := inferInstanceAs (Decidable (_ ∧ _))

/-- `atoi` and `atol`: not defined for a number that is no `int`. -/
def atoi (s : List Char) : Option ℤ := if Fits (Arp.atoi s) then some (Arp.atoi s) else none

/-- The loop of `aton`; `i` numbers are to follow. -/
def atonLoop : ℕ → Dword → List Char → Option Dword
  | i, ip, s => do
    let cur ← atoi s
    let ip := ip ||| (BitVec.ofInt 32 cur &&& 0xff) <<< (8 * i)
    match i with
    | 0 => some ip
    | i + 1 =>
      match behind '.' s with
      | none => some 0
      | some s => atonLoop i ip s

/-- The string behind a bracket. -/
def unbracket (s : List Char) : List Char := if s.head? = some '[' then s.tail else s

/-- `aton`. -/
def aton (s : List Char) : Option Dword := atonLoop 3 0 (unbracket s)

/-- The characters that `isaddr` goes over. -/
def allowed (c : Char) : Bool := c.isDigit || c = '.' || c = ' ' || c = '[' || c = ']'

/-- `isaddr`. -/
def isaddr (s : List Char) : Bool := s.all allowed

/-- The loop of `isaddr_dotless`: what it leaves in `buf`, or FALSE. -/
def dotlessLoop : List Char → (buf : List Char) → Option (List Char)
  | [], buf => some buf
  | ch :: s, buf =>
    if ch = '.' ∨ buf.length = 10 then none
    else if ch.isDigit then dotlessLoop s (buf ++ [ch])
    else if ch = ' ' ∨ ch = '[' ∨ ch = ']' then dotlessLoop s buf
    else none

/-- `isaddr_dotless`: FALSE, or TRUE with `*ip`. The terminator of ten digits has no room in `buf`. -/
def isaddrDotless (s : List Char) : Option (Option Dword) :=
  match dotlessLoop s [] with
  | none => some none
  | some buf =>
    if buf.length = 10 then none
    else do
      let n ← atoi buf
      let addr := BitVec.ofInt 32 n
      if addr = 0 ∨ addr % 256 = 0 ∨ (addr >>> 24) % 256 = 0 then some none else some (some addr)

/-- `_inet_addr`. -/
def inetAddr (s : List Char) : Option Dword :=
  if isaddr s then aton s
  else do
    let r ← isaddrDotless s
    some (r.getD 0)

/-! ## What a string denotes -/

/-- The value of digits. -/
def value (ds : List Char) : ℕ := Nat.ofDigitChars 10 ds 0

/-- A decimal number. -/
def Decimal (ds : List Char) : Prop := ds ≠ [] ∧ ∀ c ∈ ds, c.isDigit = true

/-- A decimal number from 0 to 255. -/
def Octet (ds : List Char) : Prop := Decimal ds ∧ value ds ≤ 255

/-- `a.b.c.d`. -/
def quadText (a b c d : List Char) : List Char := a ++ '.' :: (b ++ '.' :: (c ++ '.' :: d))

/-- The address of four octets. -/
def quadValue (a b c d : List Char) : Dword :=
  BitVec.ofNat 32 (value a * 2 ^ 24 + value b * 2 ^ 16 + value c * 2 ^ 8 + value d)

/-- `s` is `a.b.c.d` or `[a.b.c.d]`, and denotes `ip`. -/
def Quad (s : List Char) (ip : Dword) : Prop :=
  ∃ a b c d, Octet a ∧ Octet b ∧ Octet c ∧ Octet d ∧
    (s = quadText a b c d ∨ s = '[' :: (quadText a b c d ++ [']'])) ∧ ip = quadValue a b c d

/-- `s` is a decimal number up to 2³² - 1, and denotes `ip`. -/
def Number (s : List Char) (ip : Dword) : Prop := Decimal s ∧ value s < 2 ^ 32 ∧ ip = BitVec.ofNat 32 (value s)

/-- The functions accept what denotes an address, and give that address. -/
structure Parsed (s : List Char) : Prop where
  isaddr : isaddr s = true ↔ ∃ ip, Quad s ip
  aton : ∀ ip, Quad s ip → aton s = some ip
  aton_other : (¬∃ ip, Quad s ip) → NetAddr.aton s = some 0
  isaddrDotless : ∀ ip, Number s ip → isaddrDotless s = some (some ip)
  isaddrDotless_other : (¬∃ ip, Number s ip) → NetAddr.isaddrDotless s = some none
  inetAddr : ∀ ip, Quad s ip ∨ Number s ip → inetAddr s = some ip
  inetAddr_other : (¬∃ ip, Quad s ip ∨ Number s ip) → NetAddr.inetAddr s = some 0

/-- A character that no address has. -/
def Foreign (s : List Char) : Prop := ∃ c ∈ s, allowed c = false

/-- The string and what is behind its dots, `i` of them at most. -/
def fields : ℕ → List Char → List (List Char)
  | 0, s => [s]
  | i + 1, s => s :: ((behind '.' s).elim [] (fields i))

/-- The places where `aton` reads a number. -/
def starts (s : List Char) : List (List Char) := fields 3 (unbracket s)

/-- `aton` gives 0: every number is an `int`, and there are fewer than four, or each is a multiple of
256. -/
def Harmless (s : List Char) : Prop :=
  (∀ f ∈ starts s, Fits (Arp.atoi f)) ∧ ((starts s).length < 4 ∨ ∀ f ∈ starts s, (256 : ℤ) ∣ Arp.atoi f)

variable {s t ds a b c d rest : List Char} {ip : Dword} {i : ℕ} {ch : Char}

/-! ## Numbers -/

theorem isDigit_toNat (h : ch.isDigit = true) : 48 ≤ ch.toNat ∧ ch.toNat ≤ 57 := Char.isDigit_iff_toNat.mp h

theorem digits_append (hd : ∀ c ∈ ds, c.isDigit = true) (hr : ∀ c, rest.head? = some c → c.isDigit = false)
    (n : ℕ) : digits n (ds ++ rest) = (Nat.ofDigitChars 10 ds n : ℕ) := by
  induction ds generalizing n with
  | nil =>
    rw [Nat.ofDigitChars_nil, List.nil_append]
    cases rest with
    | nil => rfl
    | cons c rest => rw [digits, hr c rfl]; rfl
  | cons c ds ih =>
    have hc := hd c (List.mem_cons_self ..)
    have hn := isDigit_toNat hc
    rw [List.cons_append, digits, if_pos hc, Nat.ofDigitChars_cons, ← ih fun x hx => hd x (List.mem_cons_of_mem _ hx)]
    congr 1
    rw [show '0'.toNat = 48 from rfl]
    omega

/-- A number in front of something else. -/
theorem atoi_append (hd : Decimal ds) (hr : ∀ c, rest.head? = some c → c.isDigit = false) :
    Arp.atoi (ds ++ rest) = value ds := by
  obtain ⟨hne, hd⟩ := hd
  obtain ⟨c, ds, rfl⟩ := List.exists_cons_of_ne_nil hne
  have hc := hd c (List.mem_cons_self ..)
  have hn := isDigit_toNat hc
  have hspace : isSpace c = false := by
    simp only [isSpace, decide_eq_false_iff_not]
    omega
  have hminus : c ≠ '-' := fun h => by rw [h] at hc; revert hc; decide
  have hplus : c ≠ '+' := fun h => by rw [h] at hc; revert hc; decide
  rw [Arp.atoi, List.cons_append, List.dropWhile_cons_of_neg (by simp [hspace])]
  dsimp only
  rw [if_neg hminus, if_neg hplus, ← List.cons_append]
  exact digits_append hd hr 0

theorem atoi_octet (h : Octet ds) (hr : ∀ c, rest.head? = some c → c.isDigit = false) :
    atoi (ds ++ rest) = some (value ds : ℤ) := by
  have hle := h.2
  rw [atoi, atoi_append h.1 hr, if_pos ⟨by omega, by omega⟩]

theorem behind_append (hd : ∀ c ∈ ds, c.isDigit = true) : behind '.' (ds ++ '.' :: rest) = some rest := by
  have hdrop : (ds ++ '.' :: rest).dropWhile (· ≠ '.') = '.' :: rest := by
    induction ds with
    | nil => rfl
    | cons c ds ih =>
      have hne : c ≠ '.' := fun h => by
        have := hd c (List.mem_cons_self ..)
        rw [h] at this
        revert this
        decide
      rw [List.cons_append, List.dropWhile_cons_of_pos (by simpa using hne)]
      exact ih fun x hx => hd x (List.mem_cons_of_mem _ hx)
  rw [behind, hdrop]

/-! ## `aton` -/

/-- An octet and its dot. -/
theorem atonLoop_octet (h : Octet ds) : atonLoop (i + 1) ip (ds ++ '.' :: rest) =
    atonLoop i (ip ||| (BitVec.ofNat 32 (value ds) &&& 0xff) <<< (8 * (i + 1))) rest := by
  rw [atonLoop, atoi_octet h (fun c hc => by cases hc; rfl), behind_append h.1.2]
  rfl

theorem atonLoop_last (h : Octet ds) (hr : ∀ c, rest.head? = some c → c.isDigit = false) :
    atonLoop 0 ip (ds ++ rest) = some (ip ||| (BitVec.ofNat 32 (value ds) &&& 0xff)) := by
  rw [atonLoop, atoi_octet h hr]
  simp

theorem and_255 (x : Dword) : (x &&& 0xff).toNat = x.toNat % 256 := by
  rw [BitVec.toNat_and]
  exact Nat.and_two_pow_sub_one_eq_mod _ 8

theorem or_bytes {a b c d : ℕ} (hb : b < 256) (hc : c < 256) (hd : d < 256) :
    a <<< 24 ||| b <<< 16 ||| c <<< 8 ||| d = a * 2 ^ 24 + b * 2 ^ 16 + c * 2 ^ 8 + d := by
  have h1 : c <<< 8 ||| d = c <<< 8 + d := (Nat.shiftLeft_add_eq_or_of_lt (by omega) c).symm
  have h2 : b <<< 16 ||| (c <<< 8 + d) = b <<< 16 + (c <<< 8 + d) :=
    (Nat.shiftLeft_add_eq_or_of_lt (by omega) b).symm
  have h3 : a <<< 24 ||| (b <<< 16 + (c <<< 8 + d)) = a <<< 24 + (b <<< 16 + (c <<< 8 + d)) :=
    (Nat.shiftLeft_add_eq_or_of_lt (by omega) a).symm
  rw [Nat.or_assoc, Nat.or_assoc, h1, h2, h3]
  simp only [Nat.shiftLeft_eq]
  omega

theorem octet_toNat (h : Octet ds) : (BitVec.ofNat 32 (value ds) &&& 0xff : Dword).toNat = value ds := by
  have hle := h.2
  rw [and_255, BitVec.toNat_ofNat]
  omega

theorem octet_shift_toNat (h : Octet ds) (hi : i ≤ 24) :
    ((BitVec.ofNat 32 (value ds) &&& 0xff : Dword) <<< i).toNat = value ds <<< i := by
  have hpow : 2 ^ i ≤ 2 ^ 24 := Nat.pow_le_pow_right (by decide) hi
  have hle := h.2
  rw [BitVec.toNat_shiftLeft, octet_toNat h, Nat.shiftLeft_eq, Nat.mod_eq_of_lt]
  calc value ds * 2 ^ i ≤ 255 * 2 ^ 24 := Nat.mul_le_mul hle hpow
    _ < 2 ^ 32 := by decide

theorem quadValue_eq (ha : Octet a) (hb : Octet b) (hc : Octet c) (hd : Octet d) :
    ((((0 : Dword) ||| (BitVec.ofNat 32 (value a) &&& 0xff) <<< (8 * (2 + 1))) |||
      (BitVec.ofNat 32 (value b) &&& 0xff) <<< (8 * (1 + 1))) |||
      (BitVec.ofNat 32 (value c) &&& 0xff) <<< (8 * (0 + 1))) ||| (BitVec.ofNat 32 (value d) &&& 0xff) =
      quadValue a b c d := by
  have hla := ha.2
  have hlb := hb.2
  have hlc := hc.2
  have hld := hd.2
  apply BitVec.eq_of_toNat_eq
  rw [show ((0 : Dword) ||| _) = _ from BitVec.zero_or, BitVec.toNat_or, BitVec.toNat_or, BitVec.toNat_or, octet_shift_toNat ha (by decide),
    octet_shift_toNat hb (by decide), octet_shift_toNat hc (by decide), octet_toNat hd,
    or_bytes (by omega) (by omega) (by omega), quadValue, BitVec.toNat_ofNat, Nat.mod_eq_of_lt (by omega)]

theorem atonLoop_quad (rest : List Char) (ha : Octet a) (hb : Octet b) (hc : Octet c) (hd : Octet d)
    (hr : ∀ c, rest.head? = some c → c.isDigit = false) :
    atonLoop 3 0 (quadText a b c d ++ rest) = some (quadValue a b c d) := by
  simp only [quadText, List.append_assoc, List.cons_append]
  rw [atonLoop_octet ha, atonLoop_octet hb, atonLoop_octet hc, atonLoop_last hd hr, quadValue_eq ha hb hc hd]

theorem unbracket_digit (h : Octet a) : unbracket (a ++ rest) = a ++ rest := by
  obtain ⟨⟨hne, hd⟩, -⟩ := h
  obtain ⟨x, a, rfl⟩ := List.exists_cons_of_ne_nil hne
  refine if_neg fun hx => ?_
  have hdx := hd x (List.mem_cons_self ..)
  rw [Option.some.inj hx] at hdx
  revert hdx
  decide

/-- **A quad is read as the address it denotes.** -/
theorem aton_quad (h : Quad s ip) : aton s = some ip := by
  obtain ⟨a, b, c, d, ha, hb, hc, hd, rfl | rfl, rfl⟩ := h
  · have hread := atonLoop_quad [] ha hb hc hd (by simp)
    rw [List.append_nil] at hread
    rw [aton, quadText, unbracket_digit ha]
    exact hread
  · exact atonLoop_quad _ ha hb hc hd fun c hc => by cases hc; rfl

/-! ## `_inet_ntoa` -/

theorem itoa_octet {x : Dword} (h : x.toNat ≤ 255) : Octet (itoa x) ∧ value (itoa x) = x.toNat := by
  have hv : value (itoa x) = x.toNat := Nat.ofDigitChars_toDigits (by decide) (by decide)
  exact ⟨⟨⟨Nat.toDigits_ne_nil, fun c hc => Nat.isDigit_of_mem_toDigits (by decide) (by decide) hc⟩, by omega⟩, hv⟩

/-- `_inet_ntoa` writes a quad. -/
theorem quad_inetNtoa (ip : Dword) : Quad (inetNtoa ip) ip := by
  have hlt := ip.isLt
  have h24 : (ip >>> 24).toNat = ip.toNat / 2 ^ 24 := by rw [BitVec.toNat_ushiftRight, Nat.shiftRight_eq_div_pow]
  have h16 : ((ip >>> 16) &&& 0xff).toNat = ip.toNat / 2 ^ 16 % 256 := by
    rw [and_255, BitVec.toNat_ushiftRight, Nat.shiftRight_eq_div_pow]
  have h8 : ((ip >>> 8) &&& 0xff).toNat = ip.toNat / 2 ^ 8 % 256 := by
    rw [and_255, BitVec.toNat_ushiftRight, Nat.shiftRight_eq_div_pow]
  have h0 := and_255 ip
  obtain ⟨ha, hva⟩ := itoa_octet (x := ip >>> 24) (by omega)
  obtain ⟨hb, hvb⟩ := itoa_octet (x := (ip >>> 16) &&& 0xff) (by omega)
  obtain ⟨hc, hvc⟩ := itoa_octet (x := (ip >>> 8) &&& 0xff) (by omega)
  obtain ⟨hd, hvd⟩ := itoa_octet (x := ip &&& 0xff) (by omega)
  refine ⟨_, _, _, _, ha, hb, hc, hd, .inl rfl, BitVec.eq_of_toNat_eq ?_⟩
  rw [quadValue, hva, hvb, hvc, hvd, h24, h16, h8, h0, BitVec.toNat_ofNat]
  omega

/-! ## Other strings -/

theorem allowed_of_isDigit (h : ch.isDigit = true) : allowed ch = true := by simp [allowed, h]

/-- A quad is made of allowed characters, one of them a dot. -/
theorem quad_allowed (h : Quad s ip) : isaddr s = true ∧ '.' ∈ s := by
  obtain ⟨a, b, c, d, ha, hb, hc, hd, hs, -⟩ := h
  have hall : isaddr (quadText a b c d) = true := by
    have hoctet {ds : List Char} (h : Octet ds) : ds.all allowed = true :=
      List.all_eq_true.mpr fun x hx => allowed_of_isDigit (h.1.2 x hx)
    simp [isaddr, quadText, List.all_append, hoctet ha, hoctet hb, hoctet hc, hoctet hd, allowed]
  rcases hs with rfl | rfl
  · exact ⟨hall, by simp [quadText]⟩
  · refine ⟨?_, by simp [quadText]⟩
    rw [isaddr, List.all_cons, List.all_append, show (quadText a b c d).all allowed = true from hall]
    rfl

theorem isaddr_eq_false_iff : isaddr s = false ↔ Foreign s := by
  simp [isaddr, Foreign]

/-- What `isaddr_dotless` takes. -/
theorem dotlessLoop_some {buf buf' : List Char} (h : dotlessLoop s buf = some buf') :
    ∀ c ∈ s, c ≠ '.' ∧ allowed c = true := by
  induction s generalizing buf with
  | nil => simp
  | cons x s ih =>
    rw [dotlessLoop] at h
    split_ifs at h with h1 h2 h3
    · exact List.forall_mem_cons.mpr ⟨⟨fun hx => h1 (.inl hx), allowed_of_isDigit h2⟩, ih h⟩
    · refine List.forall_mem_cons.mpr ⟨⟨fun hx => h1 (.inl hx), ?_⟩, ih h⟩
      rcases h3 with rfl | rfl | rfl <;> rfl

theorem isaddrDotless_false (h : '.' ∈ s ∨ Foreign s) : isaddrDotless s = some none := by
  rcases hl : dotlessLoop s [] with _ | buf
  · rw [isaddrDotless, hl]
  · rcases h with hdot | ⟨c, hc, hf⟩
    · exact absurd rfl (dotlessLoop_some hl _ hdot).1
    · rw [(dotlessLoop_some hl _ hc).2] at hf
      cases hf

theorem number_allowed (h : Number s ip) : isaddr s = true ∧ '.' ∉ s := by
  obtain ⟨⟨-, hd⟩, -⟩ := h
  exact ⟨List.all_eq_true.mpr fun x hx => allowed_of_isDigit (hd x hx), fun hdot => by
    have := hd _ hdot
    revert this
    decide⟩

/-- A number that is no `int` is read. -/
theorem atonLoop_eq_none (h : ∃ f ∈ fields i s, ¬Fits (Arp.atoi f)) : atonLoop i ip s = none := by
  induction i generalizing ip s with
  | zero =>
    obtain ⟨f, hf, hn⟩ := h
    rw [fields, List.mem_singleton] at hf
    subst hf
    rw [atonLoop, atoi, if_neg hn]
    rfl
  | succ i ih =>
    obtain ⟨f, hf, hn⟩ := h
    rw [atonLoop, atoi]
    split_ifs with hfit
    · rcases List.mem_cons.mp hf with rfl | hf
      · exact absurd hfit hn
      cases hb : behind '.' s with
      | none => rw [hb] at hf; cases hf
      | some t =>
        rw [hb] at hf
        exact ih ⟨f, hf, hn⟩
    · rfl

theorem byte_eq_zero_iff (n : ℤ) (hi : i ≤ 3) :
    (BitVec.ofInt 32 n &&& 0xff : Dword) <<< (8 * i) = 0 ↔ (256 : ℤ) ∣ n := by
  have hand := and_255 (BitVec.ofInt 32 n)
  have hmod : (BitVec.ofInt 32 n).toNat % 256 = 0 ↔ (256 : ℤ) ∣ n := by
    rw [BitVec.toNat_ofInt]
    omega
  rw [← hmod, ← hand, ← BitVec.toNat_inj, BitVec.toNat_shiftLeft, Nat.shiftLeft_eq]
  have hlt : (BitVec.ofInt 32 n &&& 0xff).toNat < 256 := by omega
  generalize (BitVec.ofInt 32 n &&& 0xff).toNat = x at hlt
  interval_cases i <;> simp <;> omega

theorem or_eq_zero {x y : Dword} : x ||| y = 0 ↔ x = 0 ∧ y = 0 := BitVec.or_eq_zero_iff

/-- **When `aton` gives 0.** -/
theorem atonLoop_eq_zero (hi : i ≤ 3) : atonLoop i ip s = some 0 ↔ (∀ f ∈ fields i s, Fits (Arp.atoi f)) ∧
    ((fields i s).length < i + 1 ∨ ip = 0 ∧ ∀ f ∈ fields i s, (256 : ℤ) ∣ Arp.atoi f) := by
  induction i generalizing ip s with
  | zero =>
    by_cases hfit : Fits (Arp.atoi s)
    · have hread : atonLoop 0 ip s = some (ip ||| (BitVec.ofInt 32 (Arp.atoi s) &&& 0xff) <<< (8 * 0)) := by
        rw [atonLoop, atoi, if_pos hfit]
        rfl
      rw [hread, Option.some.injEq, or_eq_zero, byte_eq_zero_iff _ hi]
      simp [fields, hfit]
    · simp [atonLoop, atoi, hfit, fields]
  | succ i ih =>
    by_cases hfit : Fits (Arp.atoi s)
    · cases hb : behind '.' s with
      | none => simp [atonLoop, atoi, hfit, fields, hb]
      | some t =>
        have hstep : atonLoop (i + 1) ip s =
            atonLoop i (ip ||| (BitVec.ofInt 32 (Arp.atoi s) &&& 0xff) <<< (8 * (i + 1))) t := by
          rw [atonLoop, atoi, if_pos hfit, hb]
          rfl
        rw [hstep, ih (by omega), or_eq_zero, byte_eq_zero_iff _ hi]
        simp only [fields, hb, Option.elim_some, List.forall_mem_cons, List.length_cons, hfit, true_and,
          add_lt_add_iff_right, and_assoc]
    · rw [atonLoop, atoi, if_neg hfit]
      simp [fields, hfit]

theorem aton_eq_zero_iff : aton s = some 0 ↔ Harmless s := by
  rw [aton, atonLoop_eq_zero le_rfl]
  simp [Harmless, starts]

/-- **Numeric addresses**: exactly on which strings the functions are right; and each address is read
back. -/
theorem parsed_iff (ip : Dword) (s : List Char) : aton (inetNtoa ip) = some ip ∧
    (Parsed s ↔ (∃ ip, Quad s ip) ∨ Foreign s ∧ Harmless s) := by
  refine ⟨aton_quad (quad_inetNtoa ip), fun h => ?_, fun h => ?_⟩
  · by_cases hq : ∃ ip, Quad s ip
    · exact .inl hq
    · have hf : isaddr s = false := by simpa using h.isaddr.not.mpr hq
      exact .inr ⟨isaddr_eq_false_iff.mp hf, aton_eq_zero_iff.mp (h.aton_other hq)⟩
  · rcases h with hq | ⟨hf, hz⟩
    · obtain ⟨ip, hq⟩ := hq
      obtain ⟨haddr, hdot⟩ := quad_allowed hq
      have hn (n : Dword) : ¬Number s n := fun hn => (number_allowed hn).2 hdot
      have haton : inetAddr s = some ip := by rw [inetAddr, if_pos haddr, aton_quad hq]
      refine ⟨iff_of_true haddr ⟨ip, hq⟩, fun _ => aton_quad, fun h => absurd ⟨ip, hq⟩ h, fun n h => absurd h (hn n),
        fun _ => isaddrDotless_false (.inl hdot), fun n h => ?_, fun h => absurd ⟨ip, .inl hq⟩ h⟩
      rw [haton, ← aton_quad hq]
      exact aton_quad (h.resolve_right (hn n))
    · have haddr := isaddr_eq_false_iff.mpr hf
      have hq (n : Dword) : ¬Quad s n := fun hq => by rw [(quad_allowed hq).1] at haddr; cases haddr
      have hn (n : Dword) : ¬Number s n := fun hn => by rw [(number_allowed hn).1] at haddr; cases haddr
      have hdotless := isaddrDotless_false (.inr hf)
      refine ⟨iff_of_false (by simp [haddr]) fun ⟨n, h⟩ => hq n h, fun n h => absurd h (hq n),
        fun _ => aton_eq_zero_iff.mpr hz, fun n h => absurd h (hn n), fun _ => hdotless,
        fun n h => absurd h (not_or.mpr ⟨hq n, hn n⟩), fun _ => ?_⟩
      rw [inetAddr, if_neg (by simp [haddr]), hdotless]
      rfl

/-- `isaddr` takes a number for a quad, and `aton` makes 0 of it. -/
theorem dotless_number_lost : ¬Parsed ['1', '6', '9', '0', '9', '0', '6', '0'] := by
  intro h
  have hn : Number ['1', '6', '9', '0', '9', '0', '6', '0'] 16909060 := by
    have hd : ['1', '6', '9', '0', '9', '0', '6', '0'].all Char.isDigit = true := by decide
    exact ⟨⟨by decide, List.all_eq_true.mp hd⟩, by decide, by decide⟩
  have h0 : inetAddr ['1', '6', '9', '0', '9', '0', '6', '0'] = some 0 := by decide
  rw [h.inetAddr _ (.inr hn)] at h0
  revert h0
  decide

end Watt32.NetAddr
