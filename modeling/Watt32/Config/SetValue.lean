import Mathlib.Data.List.TakeWhile
import Watt32.NetAddr
import Watt32.Lib.Numerals

/-!
# `set_value`

The numbers of the configuration file: `set_value` of `pcconfig.c` with its two branches, and `str_atox`.

* `setValueDosx`, `setValue16`: the branch with `sscanf`, where a `long` and an `int` have 32 bits, and the branch with
  pairs of digits, where an `int` has 16.
* `Form`: the documented values; `Form.denoted`, `clamp`: what they denote, and its limits.
* `Form.Kept`: when both branches store that.
* **`stored_iff`**: they do exactly then.
-/

namespace Watt32.Config

open Numerals
open Arp (isSpace)
open NetAddr (Decimal)

/-! ## The source -/

/-- What is stored into: one, two or four bytes. -/
inductive Target
  | byte | word | dword
  deriving DecidableEq

def Target.size : Target → ℕ
  | byte => 1
  | word => 2
  | dword => 4

/-- A number in `n` bytes, the lowest first. -/
def leBytes : (n : ℕ) → ℤ → List (BitVec 8)
  | 0, _ => []
  | n + 1, z => BitVec.ofInt 8 z :: leBytes n (z / 256)

/-- What `set_value` does: it stores bytes, or nothing, or a conversion is not defined. -/
inductive Outcome
  | stored (bytes : List (BitVec 8))
  | failed
  | undefined
  deriving DecidableEq

/-- The hex digits. -/
def hexDigits : List Char := "0123456789abcdefABCDEF".toList

/-- `isxdigit`. -/
def isHexDigit (c : Char) : Bool := c ∈ hexDigits

/-- The value of a hex digit. -/
def hexVal (c : Char) : ℕ := if c.isDigit then c.toNat - 48 else c.toUpper.toNat - 55

/-- The number that hex digits denote. -/
def hexValue (ds : List Char) : ℕ := numeral 16 hexVal ds

/-- Characters of a format that stand for themselves. -/
def literal (p s : List Char) : Option (List Char) := if p.isPrefixOf s then some (s.drop p.length) else none

/-- A sign. -/
def isSign (c : Char) : Bool := c = '-' ∨ c = '+'

/-- `%wlX` of `sscanf`. -/
def scanHex (w : ℕ) (s : List Char) : Option (BitVec 32) :=
  let f := (s.dropWhile isSpace).take w
  let u := if f.head?.any isSign then f.tail else f
  let u := if (literal ['0', 'x'] u).isSome ∨ (literal ['0', 'X'] u).isSome then u.drop 2 else u
  let ds := u.takeWhile isHexDigit
  if ds = [] then none
  else some (if f.head? = some '-' then -BitVec.ofNat 32 (hexValue ds) else BitVec.ofNat 32 (hexValue ds))

/-- `%wld` of `sscanf`, the number before it becomes a `long`. -/
def scanDec (w : ℕ) (s : List Char) : Option ℤ :=
  let f := (s.dropWhile isSpace).take w
  let u := if f.head?.any isSign then f.tail else f
  if u.head?.any Char.isDigit then some (Arp.atoi f) else none

/-- A number that is an `int` or a `long` of `bits` bits. -/
def Fits (bits : ℕ) (n : ℤ) : Prop := -2 ^ (bits - 1) ≤ n ∧ n < 2 ^ (bits - 1)

instance {bits : ℕ} {n : ℤ} : Decidable (Fits bits n) := inferInstanceAs (Decidable (_ ∧ _))

/-- The `switch` over the size, with `DOSX`. -/
def storeDosx (val : BitVec 32) : Target → Outcome
  | .byte => .stored (leBytes 1 (min val.toInt 255))
  | .word => .stored (leBytes 2 (min val.toInt 65535))
  | .dword => .stored (leBytes 4 val.toInt)

/-- The `switch` over the size, without `DOSX`. -/
def store16 (val : BitVec 32) : Target → Outcome
  | .byte => .stored (leBytes 1 (min val.toInt 255))
  | .word => .stored (leBytes 2 (min (max val.toInt (-32768)) 32767))
  | .dword => .stored (leBytes 4 val.toInt)

/-- `set_value`, with `DOSX`. -/
def setValueDosx (isHex : Bool) (s : List Char) (t : Target) : Outcome :=
  let hex := if isHex then ((literal ['0', 'x'] s).bind (scanHex 8)).or ((literal ['x'] s).bind (scanHex 8)) else none
  match hex with
  | some val => storeDosx val t
  | none =>
    match scanDec 10 s with
    | none => .failed
    | some n => if Fits 32 n then storeDosx (BitVec.ofInt 32 n) t else .undefined

/-- What `str_atox` makes of a character. -/
def nibble (c : Char) : BitVec 16 :=
  let ch := c.toUpper
  if ch.isDigit then BitVec.ofNat 16 ch.toNat - 48 else BitVec.ofNat 16 ch.toNat - 55

/-- `str_atox (s + i - 2)`. -/
def strAtox (s : List Char) (i : ℕ) : BitVec 8 :=
  ((nibble (s.getD i (Char.ofNat 0)) <<< 4) + nibble (s.getD (i + 1) (Char.ofNat 0))).setWidth 8

/-- `val = (val << 8) + str_atox (s + i - 2)`. -/
def addPair (s : List Char) (i : ℕ) (val : BitVec 32) : BitVec 32 := (val <<< 8) + (strAtox s i).setWidth 32

/-- The digits behind the prefix, in pairs. -/
def hexPairs (s : List Char) : BitVec 32 :=
  let val := (strAtox s 0).setWidth 32
  let val := if 4 ≤ s.length then addPair s 2 val else val
  let val := if 6 ≤ s.length then addPair s 4 val else val
  if 8 ≤ s.length then addPair s 6 val else val

/-- What follows `0x` or `x`, if there is enough of it. -/
def behindPrefix (s : List Char) : Option (List Char) :=
  if s.take 2 = ['0', 'x'] ∧ 4 ≤ s.length then some (s.drop 2)
  else if s.head? = some 'x' ∧ 3 ≤ s.length then some (s.drop 1)
  else none

/-- `set_value`, without `DOSX`. -/
def setValue16 (isHex : Bool) (s : List Char) (t : Target) : Outcome :=
  match if isHex then behindPrefix s else none with
  | some ds =>
    if ds.head?.any fun c => c.toUpper ∈ "0123456789ABCDEF".toList then store16 (hexPairs ds) t
    else if Fits 16 (Arp.atoi s) then store16 (BitVec.ofInt 32 (Arp.atoi s)) t else .undefined
  | none => if Fits 16 (Arp.atoi s) then store16 (BitVec.ofInt 32 (Arp.atoi s)) t else .undefined

/-! ## The law -/

/-- The documented values: decimal numbers for any type, and for the `ATOX` types 1 to 8 hex digits behind `0x`
or `x`. -/
inductive Form
  | decimal (isHex negative : Bool) (ds : List Char) (h : Decimal ds)
  | hex (zero : Bool) (ds : List Char) (h : 1 ≤ ds.length ∧ ds.length ≤ 8 ∧ ∀ c ∈ ds, c ∈ hexDigits)

def Form.isHex : Form → Bool
  | decimal isHex .. => isHex
  | hex .. => true

/-- How it is written. -/
def Form.text : Form → List Char
  | decimal _ false ds _ => ds
  | decimal _ true ds _ => '-' :: ds
  | hex true ds _ => '0' :: 'x' :: ds
  | hex false ds _ => 'x' :: ds

/-- What it denotes. -/
def Form.denoted : Form → ℤ
  | decimal _ false ds _ => NetAddr.value ds
  | decimal _ true ds _ => -NetAddr.value ds
  | hex _ ds _ => hexValue ds

/-- A number limited to the range of the unsigned type. -/
def clamp (t : Target) (z : ℤ) : ℤ := max 0 (min z (2 ^ (8 * t.size) - 1))

/-- Both branches store the number that is denoted, limited, in the bytes of the target. -/
def Stores (f : Form) (t : Target) : Prop :=
  setValueDosx f.isHex f.text t = .stored (leBytes t.size (clamp t f.denoted)) ∧
    setValue16 f.isHex f.text t = .stored (leBytes t.size (clamp t f.denoted))

/-- What the numbers must be like. -/
def Form.Kept : Form → Target → Prop
  | decimal _ false ds _, t => NetAddr.value ds ≤ 32767 ∧
      (ds.length ≤ 10 ∨ NetAddr.value ds = 0 ∨ t = .byte ∧ 255 ≤ NetAddr.value ds / 10 ^ (ds.length - 10))
  | decimal _ true ds _, .byte =>
      NetAddr.value ds ≤ 32768 ∧ 256 ∣ NetAddr.value ds ∧ 256 ∣ NetAddr.value ds / 10 ^ (ds.length - 9)
  | decimal _ true ds _, _ => NetAddr.value ds = 0
  | hex _ ds _, .byte =>
      if ds.length % 2 = 0 then hexValue ds < 2 ^ 31 ∨ hexValue ds % 256 = 255 else hexValue ds = 0 ∨ 255 ≤ hexValue ds / 16
  | hex _ ds _, .word => hexValue ds = 0 ∨ ds.length % 2 = 0 ∧ (hexValue ds ≤ 32767 ∨ hexValue ds = 2 ^ 32 - 1)
  | hex _ ds _, .dword => hexValue ds = 0 ∨ ds.length % 2 = 0

variable {ds s : List Char} {c : Char} {t : Target} {z z' : ℤ} {v k n : ℕ} {f : Form} {isHex zero : Bool} {val : BitVec 32}

/-! ## Bytes -/

/-- A remainder by 256 and the one of the quotient. -/
theorem emod_mul_eq_iff {m : ℤ} (hm : 0 < m) : z % (256 * m) = z' % (256 * m) ↔
    z % 256 = z' % 256 ∧ z / 256 % m = z' / 256 % m := by
  have split (x : ℤ) : x % (256 * m) = 256 * (x / 256 % m) + x % 256 := by
    have hx := Int.emod_add_mul_ediv x 256
    have hq := Int.emod_add_mul_ediv (x / 256) m
    have hr : 0 ≤ x / 256 % m ∧ x / 256 % m < m := ⟨Int.emod_nonneg _ hm.ne', Int.emod_lt_of_pos _ hm⟩
    have hb : 0 ≤ x % 256 ∧ x % 256 < 256 := by omega
    have hx' : x = (256 * (x / 256 % m) + x % 256) + 256 * m * (x / 256 / m) := by
      linear_combination -hx - 256 * hq
    conv_lhs => rw [hx', Int.add_mul_emod_self_left]
    exact Int.emod_eq_of_lt (by omega) (by nlinarith)
  rw [split, split]
  constructor
  · intro h
    have hb : 0 ≤ z % 256 ∧ z % 256 < 256 ∧ 0 ≤ z' % 256 ∧ z' % 256 < 256 := by omega
    omega
  · rintro ⟨hlow, hhigh⟩
    rw [hlow, hhigh]

theorem leBytes_eq_iff : ∀ {n : ℕ} {z z' : ℤ}, leBytes n z = leBytes n z' ↔ z % 256 ^ n = z' % 256 ^ n
  | 0, z, z' => by simp [leBytes]
  | n + 1, z, z' => by
    have hbyte : BitVec.ofInt 8 z = BitVec.ofInt 8 z' ↔ z % 256 = z' % 256 := by
      rw [← BitVec.toInt_inj, BitVec.toInt_ofInt, BitVec.toInt_ofInt, Int.bmod_def, Int.bmod_def]
      split_ifs <;> omega
    rw [leBytes, leBytes, List.cons.injEq, hbyte, leBytes_eq_iff, pow_succ', emod_mul_eq_iff (by positivity)]

theorem length_leBytes : ∀ {n : ℕ} {z : ℤ}, (leBytes n z).length = n
  | 0, _ => rfl
  | n + 1, z => congrArg (· + 1) (length_leBytes (n := n) (z := z / 256))

/-- What the branch with `sscanf` stores, in numbers. -/
theorem storeDosx_iff : storeDosx val t = .stored (leBytes t.size z) ↔
    match t with
    | .byte => min val.toInt 255 % 256 = z % 256
    | .word => min val.toInt 65535 % 65536 = z % 65536
    | .dword => val.toInt % 4294967296 = z % 4294967296 := by
  cases t <;> simp only [storeDosx, Outcome.stored.injEq, Target.size, leBytes_eq_iff] <;> norm_num

/-- What the branch with pairs stores, in numbers. -/
theorem store16_iff : store16 val t = .stored (leBytes t.size z) ↔
    match t with
    | .byte => min val.toInt 255 % 256 = z % 256
    | .word => min (max val.toInt (-32768)) 32767 % 65536 = z % 65536
    | .dword => val.toInt % 4294967296 = z % 4294967296 := by
  cases t <;> simp only [store16, Outcome.stored.injEq, Target.size, leBytes_eq_iff] <;> norm_num

/-! ## Decimal numbers -/

theorem value_eq_numeral : NetAddr.value ds = numeral 10 (fun c => c.toNat - 48) ds := Nat.ofDigitChars_eq_foldl

theorem decimalDigit_lt (h : c.isDigit = true) : c.toNat - 48 < 10 := by
  have := NetAddr.isDigit_toNat h
  omega

/-- The number that the first digits denote. -/
theorem value_take (h : ∀ c ∈ ds, c.isDigit = true) (k : ℕ) :
    NetAddr.value (ds.take k) = NetAddr.value ds / 10 ^ (ds.length - k) := by
  rw [value_eq_numeral, value_eq_numeral, numeral_take fun c hc => decimalDigit_lt (h c hc)]

theorem atoi_decimal (h : Decimal ds) : Arp.atoi ds = NetAddr.value ds := by
  have hvalue : Arp.atoi (ds ++ []) = NetAddr.value ds := NetAddr.atoi_append h (by simp)
  rwa [List.append_nil] at hvalue

theorem atoi_negative (h : ∀ c ∈ ds, c.isDigit = true) : Arp.atoi ('-' :: ds) = -NetAddr.value ds := by
  have hspace : isSpace '-' = false := by decide
  rw [Arp.atoi, List.dropWhile_cons_of_neg (by simp [hspace])]
  have hvalue : Arp.digits 0 (ds ++ []) = NetAddr.value ds := NetAddr.digits_append h (by simp) 0
  rw [List.append_nil] at hvalue
  exact congrArg Neg.neg hvalue

theorem not_isSpace (h : c.isDigit = true) : isSpace c = false := by
  have := NetAddr.isDigit_toNat h
  simp only [isSpace, decide_eq_false_iff_not]
  omega

theorem not_isSign (h : c.isDigit = true) : isSign c = false := by
  unfold isSign
  rw [decide_eq_false_iff_not]
  rintro (rfl | rfl) <;> revert h <;> decide

theorem decimal_take (h : Decimal ds) (k : ℕ) : Decimal (ds.take (k + 1)) := by
  obtain ⟨c, ds, rfl⟩ := List.exists_cons_of_ne_nil h.1
  exact ⟨List.cons_ne_nil _ _, fun d hd => h.2 d (List.mem_of_mem_take hd)⟩

/-- `%10ld` takes ten digits. -/
theorem scanDec_decimal (h : Decimal ds) :
    scanDec 10 ds = some ((NetAddr.value ds / 10 ^ (ds.length - 10) : ℕ) : ℤ) := by
  have htake : Decimal (ds.take 10) := decimal_take h 9
  have hvalue := value_take h.2 10
  obtain ⟨c, cs, rfl⟩ := List.exists_cons_of_ne_nil h.1
  have hc : c.isDigit = true := h.2 c List.mem_cons_self
  unfold scanDec
  rw [List.dropWhile_cons_of_neg (by simp [not_isSpace hc])]
  have hhead : ((c :: cs).take 10).head? = some c := rfl
  simp only [hhead, Option.any_some, not_isSign hc, Bool.false_eq_true, if_false, hc, if_true]
  rw [atoi_decimal htake, hvalue]

/-- Behind a sign it takes nine. -/
theorem scanDec_negative (h : Decimal ds) :
    scanDec 10 ('-' :: ds) = some (-((NetAddr.value ds / 10 ^ (ds.length - 9) : ℕ) : ℤ)) := by
  have htake : Decimal (ds.take 9) := decimal_take h 8
  have hvalue := value_take h.2 9
  have hspace : isSpace '-' = false := by decide
  obtain ⟨c, cs, rfl⟩ := List.exists_cons_of_ne_nil h.1
  have hc : c.isDigit = true := h.2 c List.mem_cons_self
  unfold scanDec
  rw [List.dropWhile_cons_of_neg (by simp [hspace])]
  have hfield : ('-' :: c :: cs).take 10 = '-' :: (c :: cs).take 9 := rfl
  have hhead : ('-' :: (c :: cs).take 9).head? = some '-' := rfl
  have htail : ('-' :: (c :: cs).take 9).tail.head? = some c := rfl
  have hsign : isSign '-' = true := by decide
  simp only [hfield, hhead, Option.any_some, hsign, if_true, htail, hc]
  rw [atoi_negative htake.2, hvalue]

/-! ## Hex digits -/

/-- A hex digit is no space, no sign, no `x`, and among the digits in upper case. -/
theorem hexDigit_facts (h : c ∈ hexDigits) : hexVal c < 16 ∧ isSpace c = false ∧ isSign c = false ∧ c ≠ 'x' ∧ c ≠ 'X' ∧
    c.toUpper ∈ "0123456789ABCDEF".toList ∧ nibble c = BitVec.ofNat 16 (hexVal c) := by
  have hall : hexDigits.all (fun c => decide (hexVal c < 16) && !isSpace c && !isSign c && decide (c ≠ 'x') &&
      decide (c ≠ 'X') && decide (c.toUpper ∈ "0123456789ABCDEF".toList) &&
      decide (nibble c = BitVec.ofNat 16 (hexVal c))) = true := by decide
  have hc := List.all_eq_true.mp hall c h
  simp only [Bool.and_eq_true, decide_eq_true_eq, Bool.not_eq_true'] at hc
  obtain ⟨⟨⟨⟨⟨⟨hval, hspace⟩, hsign⟩, hx⟩, hX⟩, hupper⟩, hnibble⟩ := hc
  exact ⟨hval, hspace, hsign, hx, hX, hupper, hnibble⟩

theorem literal_cons {p : List Char} {d : Char} : literal (d :: p) (c :: s) = if d = c then literal p s else none := by
  unfold literal
  by_cases h : d = c
  · subst h
    rw [if_pos rfl]
    by_cases hp : p.isPrefixOf s <;> simp [List.isPrefixOf, hp]
  · rw [if_neg h, if_neg (by simp [List.isPrefixOf, h])]

theorem literal_nil : literal [] s = some s := by simp [literal]

/-- `%8lX` takes all digits. -/
theorem scanHex_hex (hne : ds ≠ []) (hlen : ds.length ≤ 8) (h : ∀ c ∈ ds, c ∈ hexDigits) :
    scanHex 8 ds = some (BitVec.ofNat 32 (hexValue ds)) := by
  obtain ⟨c, cs, rfl⟩ := List.exists_cons_of_ne_nil hne
  obtain ⟨-, hspace, hsign, -, -, -, -⟩ := hexDigit_facts (h c List.mem_cons_self)
  have hnot (x : Char) (hx : x = 'x' ∨ x = 'X') : literal ['0', x] (c :: cs) = none := by
    rw [literal_cons]
    split_ifs
    · cases cs with
      | nil => simp [literal]
      | cons d cs =>
        obtain ⟨-, -, -, hdx, hdX, -, -⟩ := hexDigit_facts (h d (by simp))
        rw [literal_cons, if_neg]
        rcases hx with rfl | rfl
        · exact hdx.symm
        · exact hdX.symm
    · rfl
  have hdigits : (c :: cs).takeWhile isHexDigit = c :: cs :=
    List.takeWhile_eq_self_iff.mpr fun d hd => decide_eq_true (h d hd)
  have hminus : c ≠ '-' := by
    rintro rfl
    exact absurd hsign (by decide)
  unfold scanHex
  rw [List.dropWhile_cons_of_neg (by simp [hspace]), List.take_of_length_le hlen]
  simp only [List.head?_cons, Option.any_some, hsign, Bool.false_eq_true, if_false, hnot _ (.inl rfl), hnot _ (.inr rfl),
    Option.isSome_none, or_self, hdigits, if_neg hne, Option.some.injEq, hminus]

/-- A pair of digits. -/
theorem strAtox_toNat {a b : Char} (ha : a ∈ hexDigits) (hb : b ∈ hexDigits) {i : ℕ}
    (hi : s.getD i (Char.ofNat 0) = a) (hi' : s.getD (i + 1) (Char.ofNat 0) = b) :
    (strAtox s i).toNat = 16 * hexVal a + hexVal b := by
  obtain ⟨hva, -, -, -, -, -, hna⟩ := hexDigit_facts ha
  obtain ⟨hvb, -, -, -, -, -, hnb⟩ := hexDigit_facts hb
  unfold strAtox
  rw [hi, hi', hna, hnb]
  simp only [BitVec.toNat_setWidth, BitVec.toNat_add, BitVec.toNat_shiftLeft, BitVec.toNat_ofNat, Nat.shiftLeft_eq]
  omega

theorem hexValue_lt (h : ∀ c ∈ ds, c ∈ hexDigits) : hexValue ds < 16 ^ ds.length :=
  numeral_lt fun c hc => (hexDigit_facts (h c hc)).1

/-- Two more digits. -/
theorem hexValue_take (hk : k + 2 ≤ ds.length) : hexValue (ds.take (k + 2)) =
    256 * hexValue (ds.take k) + (16 * hexVal ds[k] + hexVal ds[k + 1]) := by
  have hlast : ds.take (k + 2) = ds.take k ++ [ds[k]] ++ [ds[k + 1]] := by
    rw [List.take_succ_eq_append_getElem (by omega), List.take_succ_eq_append_getElem (by omega)]
  rw [hexValue, hlast, numeral_concat, numeral_concat]
  unfold hexValue
  ring

theorem strAtox_pair (h : ∀ c ∈ ds, c ∈ hexDigits) (hk : k + 2 ≤ ds.length) :
    (strAtox ds k).toNat = 16 * hexVal ds[k] + hexVal ds[k + 1] := by
  have hget (i : ℕ) (hi : i < ds.length) : ds.getD i (Char.ofNat 0) = ds[i] := by
    rw [List.getD_eq_getElem?_getD, List.getElem?_eq_getElem hi, Option.getD_some]
  exact strAtox_toNat (h _ (List.getElem_mem _)) (h _ (List.getElem_mem _)) (hget k (by omega)) (hget (k + 1) (by omega))

/-- A pair is added. -/
theorem addPair_toNat (h : ∀ c ∈ ds, c ∈ hexDigits) (hk : k + 2 ≤ ds.length) (h8 : k + 2 ≤ 8)
    (hval : val.toNat = hexValue (ds.take k)) : (addPair ds k val).toNat = hexValue (ds.take (k + 2)) := by
  have hpair := strAtox_pair h hk
  have ha := (hexDigit_facts (h _ (List.getElem_mem (show k < ds.length by omega)))).1
  have hb := (hexDigit_facts (h _ (List.getElem_mem (show k + 1 < ds.length by omega)))).1
  have hlt : hexValue (ds.take k) < 16 ^ 6 := by
    refine (hexValue_lt fun c hc => h c (List.mem_of_mem_take hc)).trans_le (Nat.pow_le_pow_right (by norm_num) ?_)
    rw [List.length_take]
    omega
  rw [hexValue_take hk, ← hval, ← hpair]
  rw [← hval] at hlt
  have hlt' : (strAtox ds k).toNat < 256 := (strAtox ds k).isLt
  unfold addPair
  simp only [BitVec.toNat_add, BitVec.toNat_shiftLeft, BitVec.toNat_setWidth, Nat.shiftLeft_eq]
  omega

/-- **The pairs** are the digits without the last one of an odd number. -/
theorem hexPairs_toNat (h : ∀ c ∈ ds, c ∈ hexDigits) (h2 : 2 ≤ ds.length) (h8 : ds.length ≤ 8) :
    (hexPairs ds).toNat = hexValue ds / 16 ^ (ds.length % 2) := by
  have hfirst : ((strAtox ds 0).setWidth 32).toNat = hexValue (ds.take 2) := by
    have hzero : addPair ds 0 0 = (strAtox ds 0).setWidth 32 := by simp [addPair]
    rw [← hzero]
    exact addPair_toNat h h2 (by norm_num) rfl
  have htake : (hexPairs ds).toNat = hexValue (ds.take (2 * (ds.length / 2))) := by
    unfold hexPairs
    by_cases h4 : 4 ≤ ds.length
    · have hsecond := addPair_toNat h (k := 2) h4 (by norm_num) hfirst
      by_cases h6 : 6 ≤ ds.length
      · have hthird := addPair_toNat h (k := 4) h6 (by norm_num) hsecond
        by_cases h8' : 8 ≤ ds.length
        · simp only [if_pos h4, if_pos h6, if_pos h8', show 2 * (ds.length / 2) = 8 by omega]
          exact addPair_toNat h (k := 6) h8' (by norm_num) hthird
        · simp only [if_pos h4, if_pos h6, if_neg h8', show 2 * (ds.length / 2) = 6 by omega]
          exact hthird
      · have h8' : ¬ 8 ≤ ds.length := by omega
        simp only [if_pos h4, if_neg h6, if_neg h8', show 2 * (ds.length / 2) = 4 by omega]
        exact hsecond
    · have h6 : ¬ 6 ≤ ds.length := by omega
      have h8' : ¬ 8 ≤ ds.length := by omega
      simp only [if_neg h4, if_neg h6, if_neg h8', show 2 * (ds.length / 2) = 2 by omega]
      exact hfirst
  rw [htake, hexValue, numeral_take fun c hc => (hexDigit_facts (h c hc)).1]
  congr 2
  omega

/-! ## What the branches store -/

/-- Nothing but digits is no prefix. -/
theorem literal_decimal {p : List Char} {d : Char} (hp : d.isDigit = false) (h : ∀ c ∈ ds, c.isDigit = true) :
    literal (d :: p) ds = none := by
  cases ds with
  | nil => simp [literal]
  | cons c ds =>
    rw [literal_cons, if_neg]
    rintro rfl
    exact Bool.false_ne_true (hp.symm.trans (h d List.mem_cons_self))

theorem setValueDosx_decimal (h : Decimal ds) : setValueDosx isHex ds t =
    if NetAddr.value ds / 10 ^ (ds.length - 10) < 2 ^ 31 then
      storeDosx (BitVec.ofNat 32 (NetAddr.value ds / 10 ^ (ds.length - 10))) t else .undefined := by
  have hx : literal ['x'] ds = none := literal_decimal (by decide) h.2
  have h0 : literal ['0', 'x'] ds = none := by
    obtain ⟨c, cs, rfl⟩ := List.exists_cons_of_ne_nil h.1
    rw [literal_cons, literal_decimal (by decide) fun d hd => h.2 d (List.mem_cons_of_mem c hd), ite_self]
  unfold setValueDosx
  simp only [hx, h0, Option.bind_none, Option.none_or, ite_self, scanDec_decimal h]
  generalize NetAddr.value ds / 10 ^ (ds.length - 10) = r
  by_cases hr : r < 2 ^ 31
  · rw [if_pos hr, if_pos (by unfold Fits; omega), BitVec.ofInt_natCast]
  · rw [if_neg hr, if_neg (by unfold Fits; omega)]

theorem setValueDosx_negative (h : Decimal ds) : setValueDosx isHex ('-' :: ds) t =
    storeDosx (BitVec.ofInt 32 (-((NetAddr.value ds / 10 ^ (ds.length - 9) : ℕ) : ℤ))) t := by
  have hx : literal ['x'] ('-' :: ds) = none := by rw [literal_cons, if_neg (by decide)]
  have h0 : literal ['0', 'x'] ('-' :: ds) = none := by rw [literal_cons, if_neg (by decide)]
  have hlt : NetAddr.value ds / 10 ^ (ds.length - 9) < 10 ^ 9 := by
    rw [← value_take h.2, value_eq_numeral]
    refine (numeral_lt fun c hc => decimalDigit_lt (h.2 c (List.mem_of_mem_take hc))).trans_le ?_
    exact Nat.pow_le_pow_right (by norm_num) (by rw [List.length_take]; omega)
  unfold setValueDosx
  simp only [hx, h0, Option.bind_none, Option.none_or, ite_self, scanDec_negative h]
  generalize NetAddr.value ds / 10 ^ (ds.length - 9) = r at hlt ⊢
  exact if_pos (by unfold Fits; omega)

theorem setValueDosx_hex (hne : ds ≠ []) (hlen : ds.length ≤ 8) (h : ∀ c ∈ ds, c ∈ hexDigits) :
    setValueDosx true ((if zero then ['0', 'x'] else ['x']) ++ ds) t = storeDosx (BitVec.ofNat 32 (hexValue ds)) t := by
  have hscan := scanHex_hex hne hlen h
  unfold setValueDosx
  cases zero with
  | true => simp [literal_cons, literal_nil, hscan]
  | false => simp [literal_cons, literal_nil, hscan]

/-- A number without prefix goes to `atoi`. -/
theorem setValue16_decimal (hx : s.head? ≠ some 'x') (h0 : s.take 2 ≠ ['0', 'x']) : setValue16 isHex s t =
    if Fits 16 (Arp.atoi s) then store16 (BitVec.ofInt 32 (Arp.atoi s)) t else .undefined := by
  have hpre : behindPrefix s = none := by
    unfold behindPrefix
    rw [if_neg fun h => h0 h.1, if_neg fun h => hx h.1]
  unfold setValue16
  rw [hpre, ite_self]

/-- One hex digit is not taken for a hex number. -/
theorem setValue16_digit (h : ds.length = 1) :
    setValue16 true ((if zero then ['0', 'x'] else ['x']) ++ ds) t = store16 0 t := by
  obtain ⟨c, rfl⟩ := List.length_eq_one_iff.mp h
  cases zero <;> rfl

theorem setValue16_hex (h : ∀ c ∈ ds, c ∈ hexDigits) (h2 : 2 ≤ ds.length) :
    setValue16 true ((if zero then ['0', 'x'] else ['x']) ++ ds) t = store16 (hexPairs ds) t := by
  have hpre : behindPrefix ((if zero then ['0', 'x'] else ['x']) ++ ds) = some ds := by
    cases zero <;> simp [behindPrefix] <;> omega
  obtain ⟨c, cs, rfl⟩ := List.exists_cons_of_ne_nil (List.ne_nil_of_length_pos (by omega : 0 < ds.length))
  have hupper := (hexDigit_facts (h c List.mem_cons_self)).2.2.2.2.2.1
  unfold setValue16
  rw [if_pos rfl, hpre]
  exact if_pos (by simpa using hupper)

/-! ## Both branches -/

theorem toInt_ofInt_fits (h : Fits 32 z) : (BitVec.ofInt 32 z).toInt = z := by
  rw [BitVec.toInt_ofInt, Int.bmod_def]
  unfold Fits at h
  split_ifs <;> omega

theorem toInt_small (h : v < 2 ^ 31) : (BitVec.ofNat 32 v).toInt = v := by
  rw [← BitVec.ofInt_natCast]
  exact toInt_ofInt_fits (by unfold Fits; omega)

theorem toInt_top (h : 2 ^ 31 ≤ v) (h32 : v < 2 ^ 32) : (BitVec.ofNat 32 v).toInt = v - 2 ^ 32 := by
  rw [BitVec.toInt_eq_toNat_bmod, BitVec.toNat_ofNat, Nat.mod_eq_of_lt h32, Int.bmod_def]
  split_ifs <;> omega

theorem clamp_eq (t : Target) (z : ℤ) : clamp t z = match t with
    | .byte => max 0 (min z 255)
    | .word => max 0 (min z 65535)
    | .dword => max 0 (min z 4294967295) := by
  cases t <;> simp [clamp, Target.size]

theorem emod_small {m : ℤ} (h0 : 0 ≤ z) (hm : z < m) : z % m = z := Int.emod_eq_of_lt h0 hm

/-- A number of at most 15 bits stores itself, and another one only what the limit hides. -/
theorem limited_iff {r v : ℕ} {m : ℤ} (hm : 0 ≤ m) : min (r : ℤ) m = max 0 (min (v : ℤ) m) ↔ r = v ∨ m ≤ r ∧ m ≤ v := by
  rw [max_eq_right (le_min (by omega) hm)]
  omega

/-- Decimal numbers. -/
theorem stores_decimal (h : Decimal ds) : Stores (.decimal isHex false ds h) t ↔ (Form.decimal isHex false ds h).Kept t := by
  have hx : ds.head? ≠ some 'x' := fun hx => absurd (h.2 'x' (List.mem_of_mem_head? hx)) (by decide)
  have h0 : ds.take 2 ≠ ['0', 'x'] := fun h0 =>
    absurd (h.2 'x' (List.mem_of_mem_take (by rw [h0]; decide))) (by decide)
  have hlen : 10 < ds.length → NetAddr.value ds / 10 ^ (ds.length - 10) ≤ NetAddr.value ds / 10 := fun hlt =>
    Nat.div_le_div_left (Nat.le_self_pow (by omega) 10) (by norm_num)
  have hshort : ds.length ≤ 10 → NetAddr.value ds / 10 ^ (ds.length - 10) = NetAddr.value ds := fun hle => by
    rw [Nat.sub_eq_zero_of_le hle, pow_zero, Nat.div_one]
  show (setValueDosx isHex ds t = _ ∧ setValue16 isHex ds t = _) ↔ _
  rw [setValueDosx_decimal h, setValue16_decimal hx h0, atoi_decimal h]
  show (_ ∧ _) ↔ NetAddr.value ds ≤ 32767 ∧ _
  generalize NetAddr.value ds / 10 ^ (ds.length - 10) = r at hlen hshort ⊢
  simp only [Form.denoted]
  generalize NetAddr.value ds = v at hlen hshort ⊢
  by_cases hfits : v ≤ 32767
  · have hr : r ≤ v := by
      by_cases hle : ds.length ≤ 10
      · exact (hshort hle).le
      · have := hlen (by omega)
        omega
    have hv : (BitVec.ofInt 32 (v : ℤ)).toInt = v := toInt_ofInt_fits (by unfold Fits; omega)
    rw [if_pos (show r < 2 ^ 31 by omega), if_pos (show Fits 16 v by unfold Fits; omega), storeDosx_iff, store16_iff, hv,
      toInt_small (by omega : r < 2 ^ 31), clamp_eq]
    -- the limits leave what is stored below the modulus
    have hself (m : ℤ) (h0 : 0 ≤ m) : min (v : ℤ) m = max 0 (min (v : ℤ) m) := (limited_iff h0).mpr (.inl rfl)
    have hkept : ds.length ≤ 10 → r = v := hshort
    have hcut : 10 < ds.length → r = v → v = 0 := fun hlt heq => by
      have := hlen hlt
      omega
    cases t with
    | byte =>
      simp only [true_and]
      rw [← hself 255 (by norm_num), emod_small (by omega) (by omega), emod_small (by omega) (by omega),
        hself 255 (by norm_num), limited_iff (by norm_num)]
      omega
    | word =>
      simp only [reduceCtorEq, false_and, or_false]
      rw [← hself 65535 (by norm_num), emod_small (by omega) (by omega), emod_small (by omega) (by omega),
        emod_small (by omega) (by omega)]
      omega
    | dword =>
      simp only [reduceCtorEq, false_and, or_false]
      rw [← hself 4294967295 (by norm_num), emod_small (by omega) (by omega), emod_small (by omega) (by omega),
        emod_small (by omega) (by omega)]
      omega
  · rw [if_neg (show ¬ Fits 16 v by unfold Fits; omega)]
    exact iff_of_false (fun h => Outcome.noConfusion h.2) fun h => hfits h.1

/-- Negative numbers. -/
theorem stores_negative (h : Decimal ds) : Stores (.decimal isHex true ds h) t ↔ (Form.decimal isHex true ds h).Kept t := by
  obtain ⟨v, hv⟩ : ∃ v, NetAddr.value ds = v := ⟨_, rfl⟩
  obtain ⟨r, hr⟩ : ∃ r, v / 10 ^ (ds.length - 9) = r := ⟨_, rfl⟩
  have hle : r ≤ v := hr ▸ Nat.div_le_self ..
  show (setValueDosx isHex ('-' :: ds) t = _ ∧ setValue16 isHex ('-' :: ds) t = _) ↔ _
  rw [setValueDosx_negative h, setValue16_decimal (by simp) (by simp), atoi_negative h.2]
  simp only [Form.denoted, hv, hr]
  by_cases hfits : v ≤ 32768
  · have hlow : (BitVec.ofInt 32 (-(v : ℤ))).toInt = -v := toInt_ofInt_fits (by unfold Fits; omega)
    have hread : (BitVec.ofInt 32 (-(r : ℤ))).toInt = -r := toInt_ofInt_fits (by unfold Fits; omega)
    rw [if_pos (show Fits 16 (-(v : ℤ)) by unfold Fits; omega), storeDosx_iff, store16_iff, hlow, hread, clamp_eq]
    -- the limits leave a number that is not positive as it is, and store 0 for it
    have hmin (n : ℕ) (m : ℤ) (h0 : 0 ≤ m) : min (-(n : ℤ)) m = -n := min_eq_left (by omega)
    have hzero (m : ℤ) (h0 : 0 ≤ m) : max 0 (min (-(v : ℤ)) m) = 0 := by rw [hmin v m h0, max_eq_left (by omega)]
    have hmax : max (-(v : ℤ)) (-32768) = -v := max_eq_left (by omega)
    cases t <;> simp only [Form.Kept, hv, hr]
    · rw [hzero 255 (by norm_num), hmin r 255 (by norm_num), hmin v 255 (by norm_num)]
      omega
    · rw [hzero 65535 (by norm_num), hmin r 65535 (by norm_num), hmax, hmin v 32767 (by norm_num)]
      omega
    · rw [hzero 4294967295 (by norm_num)]
      omega
  · rw [if_neg (show ¬ Fits 16 (-(v : ℤ)) by unfold Fits; omega)]
    refine iff_of_false (fun h => Outcome.noConfusion h.2) fun h => hfits ?_
    cases t <;> simp only [Form.Kept, hv] at h <;> omega

/-- Hex numbers of one digit. -/
theorem stores_digit (h : 1 ≤ ds.length ∧ ds.length ≤ 8 ∧ ∀ c ∈ ds, c ∈ hexDigits) (h1 : ds.length = 1) :
    Stores (.hex zero ds h) t ↔ (Form.hex zero ds h).Kept t := by
  have hlt : hexValue ds < 16 := by
    have := hexValue_lt h.2.2
    rwa [h1] at this
  have htext : (Form.hex zero ds h).text = (if zero then ['0', 'x'] else ['x']) ++ ds := by cases zero <;> rfl
  show (setValueDosx true _ t = _ ∧ setValue16 true _ t = _) ↔ _
  rw [htext, setValueDosx_hex (List.ne_nil_of_length_pos h.1) h.2.1 h.2.2, setValue16_digit h1]
  rw [storeDosx_iff, store16_iff, toInt_small (by omega : hexValue ds < 2 ^ 31), clamp_eq]
  have hzero : (0 : BitVec 32).toInt = 0 := rfl
  cases t <;> simp only [Form.Kept, Form.denoted, h1, hzero, Nat.one_mod, one_ne_zero, if_false, false_and, or_false, max_def, min_def] <;> split_ifs <;> omega

/-- Hex numbers of more digits. -/
theorem stores_hex (h : 1 ≤ ds.length ∧ ds.length ≤ 8 ∧ ∀ c ∈ ds, c ∈ hexDigits) (h2 : 2 ≤ ds.length) :
    Stores (.hex zero ds h) t ↔ (Form.hex zero ds h).Kept t := by
  obtain ⟨v, hv⟩ : ∃ v, hexValue ds = v := ⟨_, rfl⟩
  have hlt : v < 16 ^ ds.length := hv ▸ hexValue_lt h.2.2
  have hpairs : hexPairs ds = BitVec.ofNat 32 (v / 16 ^ (ds.length % 2)) := by
    rw [← hv, ← hexPairs_toNat h.2.2 h2 h.2.1, BitVec.ofNat_toNat, BitVec.setWidth_eq]
  have htext : (Form.hex zero ds h).text = (if zero then ['0', 'x'] else ['x']) ++ ds := by cases zero <;> rfl
  show (setValueDosx true _ t = _ ∧ setValue16 true _ t = _) ↔ _
  rw [htext, setValueDosx_hex (List.ne_nil_of_length_pos h.1) h.2.1 h.2.2, setValue16_hex h.2.2 h2, hpairs,
    storeDosx_iff, store16_iff, clamp_eq]
  simp only [Form.denoted, hv]
  have hlimit (m : ℤ) (h0 : 0 ≤ m) : max 0 (min (v : ℤ) m) = min (v : ℤ) m := max_eq_right (le_min (by omega) h0)
  rcases Nat.mod_two_eq_zero_or_one ds.length with heven | hodd
  · rw [heven, pow_zero, Nat.div_one]
    by_cases htop : v < 2 ^ 31
    · rw [toInt_small htop]
      cases t <;> simp only [Form.Kept, hv, heven, if_true, true_and]
      · rw [hlimit 255 (by norm_num)]
        exact iff_of_true ⟨rfl, rfl⟩ (.inl htop)
      · rw [hlimit 65535 (by norm_num), max_eq_left (by omega : (-32768 : ℤ) ≤ v), emod_small (by omega) (by omega),
          emod_small (by omega) (by omega)]
        omega
      · rw [hlimit 4294967295 (by norm_num), min_eq_left (by omega)]
        exact iff_of_true ⟨rfl, rfl⟩ (.inr trivial)
    · -- a `long` is negative then
      have h32 : v < 2 ^ 32 := hlt.trans_le (Nat.pow_le_pow_right (by norm_num) h.2.1 |>.trans (by norm_num))
      rw [toInt_top (not_lt.mp htop) h32]
      have hneg (m : ℤ) (h0 : 0 ≤ m) : min ((v : ℤ) - 2 ^ 32) m = v - 2 ^ 32 := min_eq_left (by omega)
      cases t <;> simp only [Form.Kept, hv, heven, if_true, true_and]
      · rw [hlimit 255 (by norm_num), hneg 255 (by norm_num), min_eq_right (by omega : (255 : ℤ) ≤ v)]
        omega
      · rw [hlimit 65535 (by norm_num), hneg 65535 (by norm_num), min_eq_right (by omega : (65535 : ℤ) ≤ v),
          min_eq_left (by omega : max ((v : ℤ) - 2 ^ 32) (-32768) ≤ 32767)]
        omega
      · rw [hlimit 4294967295 (by norm_num), min_eq_left (by omega : (v : ℤ) ≤ 4294967295)]
        have hwrap : ((v : ℤ) - 2 ^ 32) % 4294967296 = v % 4294967296 := by omega
        exact iff_of_true ⟨hwrap, hwrap⟩ (.inr trivial)
  · have hsmall : v < 16 ^ 7 := hlt.trans_le (Nat.pow_le_pow_right (by norm_num) (by have := h.2.1; omega))
    obtain ⟨w, hw⟩ : ∃ w, v / 16 = w := ⟨_, rfl⟩
    have hlow : 16 * w ≤ v ∧ v < 16 * w + 16 := by omega
    rw [hodd, pow_one, hw, toInt_small (by omega : v < 2 ^ 31), toInt_small (by omega : w < 2 ^ 31)]
    have small (x : ℤ) (m : ℤ) (h0 : 0 ≤ x) (hm : x < m) : x % m = x := Int.emod_eq_of_lt h0 hm
    cases t <;> simp only [Form.Kept, hv, hw, hodd, one_ne_zero, if_false, false_and, or_false]
    · rw [small (min v 255) _ (by omega) (by omega), small (min w 255) _ (by omega) (by omega),
        small (max 0 (min v 255)) _ (by omega) (by omega)]
      omega
    · rw [small (min v 65535) _ (by omega) (by omega), small (min (max w (-32768)) 32767) _ (by omega) (by omega),
        small (max 0 (min v 65535)) _ (by omega) (by omega)]
      omega
    · rw [small v _ (by omega) (by omega), small w _ (by omega) (by omega),
        small (max 0 (min v 4294967295)) _ (by omega) (by omega)]
      omega

/-- **Both branches store the number**, limited to the range of the type, exactly if it is kept. -/
theorem stored_iff (f : Form) (t : Target) : Stores f t ↔ f.Kept t := by
  cases f with
  | decimal isHex negative ds h =>
    cases negative with
    | false => exact stores_decimal h
    | true => exact stores_negative h
  | hex zero ds h =>
    rcases Nat.eq_or_lt_of_le h.1 with h1 | h2
    · exact stores_digit h h1.symm
    · exact stores_hex h h2

theorem mem_hexDigits (h : ds.all (fun c => decide (c ∈ hexDigits)) = true) : ∀ c ∈ ds, c ∈ hexDigits :=
  fun c hc => of_decide_eq_true (List.all_eq_true.mp h c hc)

/-- `x123`, with three digits. -/
def oddHex : Form := .hex false ['1', '2', '3'] ⟨by decide, by decide, mem_hexDigits (by decide)⟩

/-- The branch with pairs stores 0x12 in two bytes. -/
theorem odd_hex_cut : ¬ Stores oddHex .word := by
  rintro ⟨-, h⟩
  have hcut : setValue16 oddHex.isHex oddHex.text .word = .stored [0x12, 0] := by decide
  rw [hcut] at h
  exact absurd h (by decide)

end Watt32.Config
