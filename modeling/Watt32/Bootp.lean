import Watt32.Dhcp.Configure
import Watt32.Lib.Reads
import Watt32.Tcp.Socket

/-!
# BOOTP replies

`bootp_recv` and `bootp_parse` of `pcbootp.c`, as programs that read the reply.

* `Settings`: the globals that are set; `Servers`: a table with room for what is in it.
* `bootpParseR`, `bootpRecvR`: the functions; there is no result when `hostname` is overrun.
* `Bounded`: there is a result, by the bytes of the reply alone.
* `OptionsEnd`: each option that is read is in the reply, and its host name fits.
* **`bootp_bounded_iff`**: a turn of `bootp_recv` is bounded exactly if the options of the reply are.
-/

namespace Watt32.Bootp

open Reads
open Dhcp (intel addServer sizeofHostname sizeofSyslogHostName)

/-! ## The source -/

/-- `sizeof(struct bootp)`, and the places of `bp_xid`, `bp_chaddr` and `bp_vend`. -/
def sizeofBootp : ℕ := 300
def bpXid : ℕ := 4
def bpChaddr : ℕ := 28
def bpVend : ℕ := 236

def bootpMinSize : ℕ := 44
def bootpReply : Byte := 2
def vmRfc1048 : Dword := 0x63825363

/-- The options that do something: `BOOTP_OPT_PAD` to `BOOTP_OPT_END`. -/
def optPad : Byte := 0
def optSubnetMask : Byte := 1
def optRoutersOnSnet : Byte := 3
def optDnsSrv : Byte := 6
def optLogSrv : Byte := 7
def optCookieSrv : Byte := 8
def optHostName : Byte := 12
def optEnd : Byte := 255

theorem length_addServer {servers : List Dword} (ip : Dword) (h : servers.length ≤ 10) :
    (addServer servers ip).length ≤ 10 := by
  unfold addServer
  split_ifs with hroom
  · rw [List.length_append]
    exact hroom.2.1
  · exact h

/-- A table of servers: `def_nameservers` or `Cookies`. -/
structure Servers where
  servers : List Dword
  fits : servers.length ≤ 10

/-- `_add_server`. -/
def Servers.add (s : Servers) (ip : Dword) : Servers := ⟨addServer s.servers ip, length_addServer ip s.fits⟩

/-- The globals that a reply sets. -/
structure Settings where
  sinMask : Dword
  gates : List Arp.GateEntry
  nameservers : Servers
  cookies : Servers
  syslogHostName : List Char
  hostname : ℕ → Byte

/-- `intel (*(DWORD*)p)`. -/
def intelR (p : ℕ) : Reads Byte Dword := do
  let a ← cell p
  let b ← cell (p + 1)
  let c ← cell (p + 2)
  let d ← cell (p + 3)
  return a ++ b ++ c ++ d

/-- The loop over the servers from `q` on, in steps of four bytes. -/
def addServersR : (turns q : ℕ) → Servers → Reads Byte Servers
  | 0, _, s => pure s
  | turns + 1, q, s => do
    let ip ← intelR q
    addServersR turns (q + 4) (s.add ip)

/-- The turns of `for (i = 0; i < n; i += 4)`. -/
def turns (n : Byte) : ℕ := (n.toNat + 3) / 4

section Program

variable (qsort : (Arp.GateEntry → Arp.GateEntry → ℤ) → List Arp.GateEntry → List Arp.GateEntry)

/-- The `switch` of `bootp_parse` for the option at `p`. -/
def optionR (p : ℕ) (code : Byte) (g : Settings) : Reads Byte (Option Settings) :=
  if code = optSubnetMask then do
    let ip ← intelR (p + 2)
    return some { g with sinMask := ip }
  else if code = optRoutersOnSnet then do
    let ip ← intelR (p + 2)
    return some { g with gates := (Arp.arpAddGateway qsort g.gates none ip).1 }
  else if code = optDnsSrv then do
    let n ← cell (p + 1)
    let s ← addServersR (turns n) (p + 2) g.nameservers
    return some { g with nameservers := s }
  else if code = optCookieSrv then do
    let n ← cell (p + 1)
    let s ← addServersR (turns n) (p + 2) g.cookies
    return some { g with cookies := s }
  else if code = optLogSrv then do
    let ip ← intelR (p + 2)
    let n ← cell (p + 1)
    return some (if g.syslogHostName = [] ∧ n.toNat % 4 = 0 then
      { g with syslogHostName := (NetAddr.inetNtoa ip).take (sizeofSyslogHostName - 1) } else g)
  else if code = optHostName then do
    let n ← cell (p + 1)
    let name ← cells (p + 2) (min n.toNat sizeofHostname)
    -- `hostname [len] = '\0'`
    return if min n.toNat sizeofHostname < sizeofHostname then
      some { g with hostname := Mem.put g.hostname 0 (name ++ [0]) } else none
  else pure (some g)

/-- The loop of `bootp_parse` from `p` on, in `fuel` turns at most. -/
def bootpParseR (stop : ℕ) : (fuel p : ℕ) → Settings → Reads Byte (Option Settings)
  | 0, _, _ => pure none
  | fuel + 1, p, g =>
    if p < stop then do
      let code ← cell p
      if code = optPad then bootpParseR stop fuel (p + 1) g
      else (optionR qsort p code g).andThen fun g => do
        let n ← cell (p + 1)
        if code = optEnd then pure (some g) else bootpParseR stop fuel (p + (n.toNat + 2)) g
    else pure (some g)

/-- What replies are compared with: the ID of the request, and the first `_eth_mac_len` bytes of `_eth_addr`. -/
structure Exchange where
  exchangeId : Dword
  ethAddr : List Byte
  fits : ethAddr.length ≤ 6

/-- A turn of `bootp_recv` goes on waiting, or it accepts a reply. -/
inductive Turn
  | waits
  | accepted (g : Settings)

/-- A turn of `bootp_recv` with `dataready` bytes there, which are read into `bootp_in`. -/
def bootpRecvR (x : Exchange) (fuel dataready : ℕ) (g : Settings) : Reads Byte (Option Turn) :=
  let len := min sizeofBootp dataready
  if dataready < sizeofBootp ∨ len < bootpMinSize then pure (some .waits)
  else do
    let op ← cell 0
    let xid ← intelR bpXid
    let chaddr ← cells bpChaddr x.ethAddr.length
    let vendor ← intelR bpVend
    if op ≠ bootpReply ∨ xid ≠ x.exchangeId ∨ chaddr ≠ x.ethAddr then pure (some .waits)
    else if vendor = vmRfc1048 then
      (bootpParseR qsort len fuel (bpVend + 4) g).andThen fun g => pure (some (.accepted g))
    else pure (some (.accepted g))

/-! ## The law -/

/-- The turn ends without an overrun, reads only bytes of the reply, and what lies behind them does not matter. -/
def Bounded (x : Exchange) (dataready : ℕ) (g : Settings) (m : ℕ → Byte) : Prop :=
  ∃ fuel out, Gives (· < min sizeofBootp dataready) m (bootpRecvR qsort x fuel dataready g) out ∧
    ∀ m', (∀ i < min sizeofBootp dataready, m' i = m i) → eval m' (bootpRecvR qsort x fuel dataready g) = some out

end Program

/-- The bytes behind code and length that an option makes `bootp_parse` read. -/
def valueRead (code n : Byte) : ℕ :=
  if code = optSubnetMask ∨ code = optRoutersOnSnet ∨ code = optLogSrv then 4
  else if code = optDnsSrv ∨ code = optCookieSrv then 4 * turns n
  else if code = optHostName then n.toNat
  else 0

/-- The option at `p` is in the first `len` bytes as far as it is read, and a host name fits. -/
structure OptionFits (m : ℕ → Byte) (len p : ℕ) : Prop where
  length : p + 1 < len
  value : p + 2 + valueRead (m p) (m (p + 1)) ≤ len
  name : m p = optHostName → (m (p + 1)).toNat < sizeofHostname

/-- The options from `p` on come to the end, and each of them fits. -/
inductive OptionsEnd (m : ℕ → Byte) (len : ℕ) : (p : ℕ) → Prop
  | done {p : ℕ} : len ≤ p → OptionsEnd m len p
  | pad {p : ℕ} : p < len → m p = optPad → OptionsEnd m len (p + 1) → OptionsEnd m len p
  | last {p : ℕ} : p + 1 < len → m p = optEnd → OptionsEnd m len p
  | next {p : ℕ} : m p ≠ optPad → m p ≠ optEnd → OptionFits m len p →
      OptionsEnd m len (p + ((m (p + 1)).toNat + 2)) → OptionsEnd m len p

/-- `bootp_recv` accepts the reply, and `bootp_parse` is called. -/
structure Parsed (x : Exchange) (dataready : ℕ) (m : ℕ → Byte) : Prop where
  ready : sizeofBootp ≤ dataready
  op : m 0 = bootpReply
  xid : intel m bpXid = x.exchangeId
  chaddr : Mem.slice m bpChaddr x.ethAddr.length = x.ethAddr
  vendor : intel m bpVend = vmRfc1048

variable {qsort : (Arp.GateEntry → Arp.GateEntry → ℤ) → List Arp.GateEntry → List Arp.GateEntry}
  {x : Exchange} {g g' : Settings} {m : ℕ → Byte} {len stop fuel p q n dataready : ℕ} {s : Servers} {code : Byte}
  {P : ℕ → Prop}

/-! ## What is read -/

@[simp] theorem eval_intelR : eval m (intelR p) = intel m p := rfl

theorem within_intelR : Within (· < len) m (intelR p) ↔ p + 4 ≤ len := by
  unfold intelR
  rw [within_bind, within_bind, within_bind, within_bind, within_cell, within_cell, within_cell, within_cell,
    and_iff_left within_pure]
  omega

theorem within_addServersR : Within (· < len) m (addServersR n q s) ↔ (0 < n → q + 4 * n ≤ len) := by
  induction n generalizing q s with
  | zero => exact iff_of_true within_pure fun h => absurd h (lt_irrefl _)
  | succ n ih =>
    rw [addServersR, within_bind, within_intelR, ih]
    omega

theorem gives_intelR {β : Type} {f : Dword → Reads Byte (Option β)} {c : β} :
    Gives P m (intelR p >>= f) c ↔ Within P m (intelR p) ∧ Gives P m (f (intel m p)) c := gives_bind

/-- **The `switch`** has a result exactly if the value is in the reply and a host name fits. -/
theorem gives_optionR (hlen : p + 1 < len) : (∃ g', Gives (· < len) m (optionR qsort p (m p) g) g') ↔
    p + 2 + valueRead (m p) (m (p + 1)) ≤ len ∧ (m p = optHostName → (m (p + 1)).toNat < sizeofHostname) := by
  have hservers (a : ℕ) : (0 < a → p + 2 + 4 * a ≤ len) ↔ p + 2 + 4 * a ≤ len := by omega
  unfold optionR
  generalize m p = code
  by_cases hmask : code = optSubnetMask
  · subst hmask
    simp [gives_bind, within_intelR, valueRead, show optSubnetMask ≠ optHostName by decide]
  by_cases hrouters : code = optRoutersOnSnet
  · subst hrouters
    simp [gives_bind, within_intelR, valueRead, hmask, show optRoutersOnSnet ≠ optHostName by decide]
  by_cases hdns : code = optDnsSrv
  · subst hdns
    simp [gives_bind, within_addServersR, valueRead, hmask, hrouters, hlen, hservers,
      show optDnsSrv ≠ optLogSrv by decide, show optDnsSrv ≠ optHostName by decide]
  by_cases hcookie : code = optCookieSrv
  · subst hcookie
    simp [gives_bind, within_addServersR, valueRead, hmask, hrouters, hdns, hlen, hservers,
      show optCookieSrv ≠ optLogSrv by decide, show optCookieSrv ≠ optHostName by decide]
  by_cases hlog : code = optLogSrv
  · subst hlog
    simp [gives_bind, within_intelR, valueRead, hmask, hrouters, hdns, hcookie, hlen,
      show optLogSrv ≠ optHostName by decide]
  rw [if_neg hmask, if_neg hrouters, if_neg hdns, if_neg hcookie, if_neg hlog]
  have hvalue (n : Byte) : valueRead code n = if code = optHostName then n.toNat else 0 := by
    unfold valueRead
    rw [if_neg (not_or.mpr ⟨hmask, not_or.mpr ⟨hrouters, hlog⟩⟩), if_neg (not_or.mpr ⟨hdns, hcookie⟩)]
  rw [hvalue]
  by_cases hname : code = optHostName
  · rw [if_pos hname, if_pos hname]
    simp only [gives_cell, hlen, true_and]
    simp only [gives_bind, within_cells_lt]
    by_cases hfits : (m (p + 1)).toNat < sizeofHostname
    · simp only [if_pos (min_lt_of_left_lt hfits), gives_pure, exists_and_left, exists_eq', and_true]
      rw [min_eq_left hfits.le, and_iff_left fun _ => hfits]
      omega
    · have hlong : ¬ min (m (p + 1)).toNat sizeofHostname < sizeofHostname := by
        rw [min_eq_right (not_lt.mp hfits)]
        exact lt_irrefl _
      simp only [if_neg hlong, not_gives_none, and_false, exists_false, false_iff]
      exact fun h => hfits (h.2 hname)
  · rw [if_neg hname, if_neg hname]
    exact iff_of_true ⟨g, gives_pure.mpr rfl⟩ ⟨hlen, fun h => absurd h hname⟩

/-! ## The loop -/

theorem gives_pad (hlt : p < len) (hpad : m p = optPad) : Gives (· < len) m (bootpParseR qsort len (fuel + 1) p g) g' ↔
    Gives (· < len) m (bootpParseR qsort len fuel (p + 1) g) g' := by
  rw [bootpParseR, if_pos hlt, gives_cell, if_pos hpad, and_iff_right hlt]

/-- One turn with an option. -/
theorem gives_turn (hlt : p < len) (hpad : m p ≠ optPad) :
    Gives (· < len) m (bootpParseR qsort len (fuel + 1) p g) g' ↔
      ∃ g₁, Gives (· < len) m (optionR qsort p (m p) g) g₁ ∧ p + 1 < len ∧
        if m p = optEnd then g₁ = g'
        else Gives (· < len) m (bootpParseR qsort len fuel (p + ((m (p + 1)).toNat + 2)) g₁) g' := by
  rw [bootpParseR, if_pos hlt, gives_cell, if_neg hpad, and_iff_right hlt, gives_andThen]
  refine exists_congr fun g₁ => and_congr_right fun _ => ?_
  rw [gives_cell]
  refine and_congr_right fun _ => ?_
  split_ifs
  · exact gives_pure
  · exact Iff.rfl

/-- Options that are parsed come to the end. -/
theorem optionsEnd_of_gives (h : Gives (· < len) m (bootpParseR qsort len fuel p g) g') : OptionsEnd m len p := by
  induction fuel generalizing p g with
  | zero => exact absurd h not_gives_none
  | succ fuel ih =>
    by_cases hlt : p < len
    · by_cases hpad : m p = optPad
      · exact .pad hlt hpad (ih ((gives_pad hlt hpad).mp h))
      · obtain ⟨g₁, hoption, hlen, hrest⟩ := (gives_turn hlt hpad).mp h
        by_cases hend : m p = optEnd
        · exact .last hlen hend
        · rw [if_neg hend] at hrest
          obtain ⟨hvalue, hname⟩ := (gives_optionR hlen).mp ⟨g₁, hoption⟩
          exact .next hpad hend ⟨hlen, hvalue, hname⟩ (ih hrest)
    · exact .done (not_lt.mp hlt)

/-- Options that come to the end are parsed. -/
theorem gives_of_optionsEnd (h : OptionsEnd m len p) :
    ∃ fuel, ∀ g, ∃ g', Gives (· < len) m (bootpParseR qsort len fuel p g) g' := by
  induction h with
  | done hle =>
    refine ⟨1, fun g => ⟨g, ?_⟩⟩
    rw [bootpParseR, if_neg (not_lt.mpr hle)]
    exact gives_pure.mpr rfl
  | pad hlt hpad _ ih =>
    obtain ⟨fuel, ih⟩ := ih
    refine ⟨fuel + 1, fun g => ?_⟩
    obtain ⟨g', hg⟩ := ih g
    exact ⟨g', (gives_pad hlt hpad).mpr hg⟩
  | last hlen hend =>
    refine ⟨1, fun g => ⟨g, (gives_turn (by omega) (by rw [hend]; decide)).mpr ⟨g, ?_, hlen, if_pos hend ▸ rfl⟩⟩⟩
    rw [hend]
    exact gives_pure.mpr rfl
  | next hpad hend hfits _ ih =>
    obtain ⟨fuel, ih⟩ := ih
    refine ⟨fuel + 1, fun g => ?_⟩
    obtain ⟨g₁, hoption⟩ : ∃ g₁, Gives (· < len) m (optionR qsort _ (m _) g) g₁ :=
      (gives_optionR hfits.length).mpr ⟨hfits.value, hfits.name⟩
    obtain ⟨g', hg⟩ := ih g₁
    refine ⟨g', (gives_turn (by have := hfits.length; omega) hpad).mpr ⟨g₁, hoption, hfits.length, ?_⟩⟩
    rw [if_neg hend]
    exact hg

/-! ## The reply -/

/-- **One turn of `bootp_recv`** has a result exactly if `bootp_parse` has, where it is called. -/
theorem gives_recv : (∃ fuel out, Gives (· < min sizeofBootp dataready) m (bootpRecvR qsort x fuel dataready g) out) ↔
    (Parsed x dataready m → OptionsEnd m sizeofBootp (bpVend + 4)) := by
  unfold bootpRecvR
  by_cases hready : dataready < sizeofBootp
  · refine iff_of_true ⟨0, .waits, ?_⟩ fun h => absurd h.ready (not_le.mpr hready)
    rw [if_pos (.inl hready)]
    exact gives_pure.mpr rfl
  have hlen : min sizeofBootp dataready = sizeofBootp := min_eq_left (not_lt.mp hready)
  have hchaddr : Within (· < sizeofBootp) m (cells bpChaddr x.ethAddr.length) := by
    have hfits := x.fits
    exact within_cells.mpr fun i hi => by unfold bpChaddr sizeofBootp; omega
  have hfield (p : ℕ) (hp : p + 4 ≤ sizeofBootp) : Within (· < sizeofBootp) m (intelR p) := within_intelR.mpr hp
  simp only [hlen, if_neg (show ¬ (dataready < sizeofBootp ∨ sizeofBootp < bootpMinSize) from not_or.mpr ⟨hready, by decide⟩),
    gives_cell, gives_intelR, gives_cells, hchaddr, hfield bpXid (by decide), hfield bpVend (by decide),
    show 0 < sizeofBootp by decide, true_and]
  by_cases hwaits : m 0 ≠ bootpReply ∨ intel m bpXid ≠ x.exchangeId ∨ Mem.slice m bpChaddr x.ethAddr.length ≠ x.ethAddr
  · simp only [if_pos hwaits]
    refine iff_of_true ⟨0, .waits, gives_pure.mpr rfl⟩ fun h => ?_
    rcases hwaits with hop | hxid | hmac
    · exact absurd h.op hop
    · exact absurd h.xid hxid
    · exact absurd h.chaddr hmac
  simp only [if_neg hwaits]
  by_cases hvendor : intel m bpVend = vmRfc1048
  · simp only [if_pos hvendor, gives_andThen]
    simp only [not_or, not_not] at hwaits
    rw [forall_prop_of_true ⟨not_lt.mp hready, hwaits.1, hwaits.2.1, hwaits.2.2, hvendor⟩]
    constructor
    · rintro ⟨fuel, out, g', hparse, -⟩
      exact optionsEnd_of_gives hparse
    · intro h
      obtain ⟨fuel, hfuel⟩ : ∃ fuel, ∀ g, ∃ g', Gives (· < sizeofBootp) m
        (bootpParseR qsort sizeofBootp fuel (bpVend + 4) g) g' := gives_of_optionsEnd h
      obtain ⟨g', hg⟩ := hfuel g
      exact ⟨fuel, .accepted g', g', hg, gives_pure.mpr rfl⟩
  · simp only [if_neg hvendor]
    exact iff_of_true ⟨0, .accepted g, gives_pure.mpr rfl⟩ fun h => absurd h.vendor hvendor

/-- What is read of the reply decides. -/
theorem bounded_of_gives
    (h : ∃ fuel out, Gives (· < min sizeofBootp dataready) m (bootpRecvR qsort x fuel dataready g) out) :
    Bounded qsort x dataready g m := by
  obtain ⟨fuel, out, hgives⟩ := h
  refine ⟨fuel, out, hgives, fun m' hm => ?_⟩
  rw [(agree_of_trace _ fun a ha => hm a (hgives.2 a ha)).1]
  exact hgives.1

/-- **BOOTP replies stay inside packet and variables** exactly if their options do. -/
theorem bootp_bounded_iff (qsort : (Arp.GateEntry → Arp.GateEntry → ℤ) → List Arp.GateEntry → List Arp.GateEntry)
    (x : Exchange) (dataready : ℕ) (g : Settings) (m : ℕ → Byte) :
    Bounded qsort x dataready g m ↔ (Parsed x dataready m → OptionsEnd m sizeofBootp (bpVend + 4)) := by
  constructor
  · rintro ⟨fuel, out, hgives, -⟩
    exact gives_recv.mp ⟨fuel, out, hgives⟩
  · intro h
    exact bounded_of_gives (gives_recv.mpr h)

/-- A reply that fills the vendor field: an option of 57 bytes, and the end mark in the last byte. -/
def filledReply : ℕ → Byte := fun i =>
  if i = 0 then bootpReply
  else if i < bpVend then 0
  else [0x63, 0x82, 0x53, 0x63, 43, 57].getD (i - bpVend) optEnd

/-- Behind its end mark a length is read that is not in the reply. -/
theorem filled_reply_overread : ¬ Bounded (fun _ l => l) ⟨0, [], by decide⟩ 300 ⟨0, [], ⟨[], by decide⟩, ⟨[], by decide⟩, [],
    fun _ => 0⟩ filledReply := by
  rintro ⟨fuel, out, hgives, -⟩
  have hend : OptionsEnd filledReply sizeofBootp (bpVend + 4) :=
    gives_recv.mp ⟨fuel, out, hgives⟩ ⟨le_rfl, rfl, by decide, rfl, by decide⟩
  have hlast : OptionsEnd filledReply sizeofBootp 299 := by
    cases hend with
    | done h => exact absurd h (by decide)
    | pad _ h => exact absurd h (by decide)
    | last _ h => exact absurd h (by decide)
    | next _ _ _ h => exact h
  cases hlast with
  | done h => exact absurd h (by decide)
  | pad _ h => exact absurd h (by decide)
  | last h => exact absurd h (by decide)
  | next _ h => exact absurd rfl h

end Watt32.Bootp
