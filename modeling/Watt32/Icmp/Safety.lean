import Watt32.Icmp.Handler

/-!
# What `icmp_handler` reads

Only `ICMP_UNREACH` tests that the message is long enough for the header it quotes; the source of
that header is read of every message, and the type of a bogus one indexes the table of names.

* `Safe`: all indices read lie in the packet, all names exist.
* `MessageOk`: the length a message needs for its type, code and quoted header, and the type a bogus
  message needs.
* **`icmp_safe_iff`**: the handler is safe on exactly the packets it does not accept and those that
  hold their IP header and whose message is `MessageOk`.
-/

namespace Watt32.Icmp

open Reads
open Tcp (Packet inGetHdrLen inLength readWord readDword readWordR readDwordR packetOf within_readWordR
  within_readDwordR)

/-- The handler reads inside the packet and looks up names that exist. -/
def Safe (g : Globals) (ip : Packet) (broadcast : Bool) : Prop :=
  Within (· < (inLength ip).toNat) ip (icmpHandlerR g ip broadcast) ∧
    ∀ n ∈ (eval ip (icmpHandlerR g ip broadcast)).names, n.2 < n.1.dim

/-! ## What a message needs -/

section Needs

variable (g : Globals) (ip : Packet) (icmp len : ℕ)

/-- The quoted protocol. -/
def quotedProto : Byte := ip (origIp icmp + 9)

/-- The length of the quoted header. -/
def quotedLen : ℕ := hdrLen (ip (origIp icmp))

/-- The quoted port at offset `i` behind the header. -/
def quotedPort (i : ℕ) : Word := readWord ip (origIp icmp + quotedLen ip icmp + i)

/-- Room for the quoted ports, and for the whole quoted header when a socket has these ports. -/
def PortsOk (test : Word → Word → Sock → Bool) (socks : List Sock) : Prop :=
  12 + quotedLen ip icmp ≤ len ∧
    ((∃ s ∈ socks, test (quotedPort ip icmp 0) (quotedPort ip icmp 2) s = true) → 28 ≤ len)

/-- What the search for a socket needs. -/
def CancelOk : Prop :=
  (quotedProto ip icmp = 6 → PortsOk ip icmp len tcpPorts g.tcpSocks) ∧
  (quotedProto ip icmp = 17 → PortsOk ip icmp len udpPorts g.udpSocks)

/-- What a redirect with a good code needs: the quoted destination, and the ports if the gateway is
on the subnet and redirects are followed. -/
def RedirectOk : Prop :=
  28 ≤ len ∧
    (offSubnet g (readDword ip (icmp + 4)) (readDword ip (origIp icmp + 16)) = false →
      (quotedProto ip icmp = 6 → g.doRedirect.tcp → PortsOk ip icmp len tcpPorts g.tcpSocks) ∧
      (quotedProto ip icmp = 17 → g.doRedirect.udp → PortsOk ip icmp len udpPorts g.udpSocks))

/-- What a message of a type and code needs. -/
def SwitchOk (type code : Byte) : Prop :=
  (type = 3 → code.toNat < Table.unreachStr.dim →
    8 + quotedLen ip icmp + (if quotedProto ip icmp = 6 ∨ quotedProto ip icmp = 17 then 4 else 0) ≤ len →
    CancelOk g ip icmp len) ∧
  (type = 4 → quotedProto ip icmp = 6 → PortsOk ip icmp len tcpPorts g.tcpSocks) ∧
  (type = 5 → code.toNat < Table.redirectStr.dim → RedirectOk g ip icmp len) ∧
  (type = 11 → code = 0 → CancelOk g ip icmp len) ∧
  (type = 12 → CancelOk g ip icmp len)

/-- The message is taken for bogus: it quotes no packet of ours. -/
def Bogus : Prop :=
  ip4IsLocalAddr g (readDword ip (origIp icmp + 12)) = false ∧ ip icmp ≠ 18 ∧ unquoted (ip icmp) = false

/-- The source of the quoted header is in the message, a bogus type has a name, and the message has
what its type needs. -/
def MessageOk : Prop :=
  24 ≤ len ∧ (¬ (ip icmp = 18 ∧ g.doMaskReq = false) →
    (Bogus g ip icmp → (ip icmp).toNat < Table.typeStr.dim) ∧
    (¬ Bogus g ip icmp → SwitchOk g ip icmp len (ip icmp) (ip (icmp + 1))))

end Needs

/-! ## The search for a socket -/

section Cancel

variable {g : Globals} {ip : Packet} {icmp len : ℕ} {proto type code : Byte} {arg : Dword}

theorem within_demuxR {e q : ℕ} {test : Sock → Bool} : ∀ (socks : List Sock) (i : ℕ),
    Within (· < e) ip (demuxR test q socks i) ↔ ((∃ s ∈ socks, test s = true) → q + 19 < e)
  | [], i => by simp [demuxR]
  | s :: socks, i => by
    have ih : Within (· < e) ip (demuxR test q socks (i + 1)) ↔
        ((∃ s ∈ socks, test s = true) → q + 19 < e) := within_demuxR socks (i + 1)
    unfold demuxR
    by_cases hs : test s = true
    · rw [if_pos hs, within_bind, within_readDwordR]
      have hfirst : (∃ t ∈ s :: socks, test t = true) := ⟨s, List.mem_cons_self .., hs⟩
      refine ⟨fun h _ => h.1.2.2.2, fun h => ⟨?_, ?_⟩⟩
      · have := h hfirst
        omega
      · have := h hfirst
        split_ifs
        · exact within_pure
        · exact ih.mpr fun _ => this
    · rw [if_neg hs, ih]
      simp [hs]

variable (h24 : 24 ≤ len)

include h24

/-- Both searches start with the length of the quoted header and the two ports. -/
theorem within_ports_iff {test : Word → Word → Sock → Bool} {socks : List Sock} :
    Within (· < icmp + len) ip (do
      let b ← cell (origIp icmp)
      let src ← readWordR (origIp icmp + hdrLen b)
      let dst ← readWordR (origIp icmp + hdrLen b + 2)
      demuxR (test src dst) (origIp icmp) socks 0) ↔ PortsOk ip icmp len test socks := by
  simp only [within_bind, within_cell, eval_cell, within_readWordR, Tcp.eval_readWordR, within_demuxR]
  unfold PortsOk quotedPort quotedLen origIp
  constructor
  · rintro ⟨-, -, hports, hdst⟩
    exact ⟨by omega, fun hs => by have := hdst hs; omega⟩
  · rintro ⟨hports, hdst⟩
    exact ⟨by omega, ⟨by omega, by omega⟩, ⟨by omega, by omega⟩, fun hs => by have := hdst hs; omega⟩

theorem within_tcpCancelR {socks : List Sock} :
    Within (· < icmp + len) ip (tcpCancelR socks (origIp icmp)) ↔ PortsOk ip icmp len tcpPorts socks :=
  within_ports_iff h24

theorem within_udpCancelR {socks : List Sock} :
    Within (· < icmp + len) ip (udpCancelR socks (origIp icmp)) ↔ PortsOk ip icmp len udpPorts socks := by
  rw [← within_ports_iff h24]
  unfold udpCancelR
  simp only [within_bind, within_pure, and_true]

theorem within_cancelR : Within (· < icmp + len) ip (cancelR g (origIp icmp) proto type code arg) ↔
    (proto = 6 → PortsOk ip icmp len tcpPorts g.tcpSocks) ∧
      (proto = 17 → PortsOk ip icmp len udpPorts g.udpSocks) := by
  unfold cancelR
  split_ifs with h₁ h₂
  · subst h₁
    simp [within_tcpCancelR h24]
  · subst h₂
    simp [within_udpCancelR h24]
  · exact iff_of_true within_pure ⟨fun h => absurd h h₁, fun h => absurd h h₂⟩

/-! ## The types -/

theorem within_unreachR : Within (· < icmp + len) ip (unreachR g icmp len code) ↔
    (code.toNat < Table.unreachStr.dim →
      8 + quotedLen ip icmp + (if quotedProto ip icmp = 6 ∨ quotedProto ip icmp = 17 then 4 else 0) ≤ len →
      CancelOk g ip icmp len) := by
  unfold unreachR
  by_cases hcode : code.toNat < Table.unreachStr.dim
  · have hq : origIp icmp < icmp + len ∧ origIp icmp + 9 < icmp + len := by unfold origIp; omega
    rw [if_pos hcode, within_bind, within_bind, within_cell, within_cell, eval_cell, eval_cell]
    simp only [hq, hcode, true_and, forall_const]
    change Within _ ip (if 8 + quotedLen ip icmp + (if quotedProto ip icmp = 6 ∨ quotedProto ip icmp = 17
      then 4 else 0) ≤ len then _ else _) ↔ _
    generalize 8 + quotedLen ip icmp + (if quotedProto ip icmp = 6 ∨ quotedProto ip icmp = 17 then 4 else 0) = needed
    by_cases hroom : needed ≤ len
    · rw [if_pos hroom]
      by_cases h4 : code = 4
      · rw [if_pos h4, within_bind, within_bind, within_cancelR h24, within_readWordR, and_iff_left within_pure,
          and_iff_right (by omega)]
        exact ⟨fun h _ => h, fun h => h hroom⟩
      · rw [if_neg h4, within_bind, within_bind, within_cancelR h24, and_iff_right within_pure,
          and_iff_left within_pure]
        exact ⟨fun h _ => h, fun h => h hroom⟩
    · rw [if_neg hroom]
      exact iff_of_true within_pure fun h => absurd h hroom
  · rw [if_neg hcode]
    exact iff_of_true within_pure fun h => absurd h hcode

theorem within_quenchR : Within (· < icmp + len) ip (quenchR g icmp code) ↔
    (quotedProto ip icmp = 6 → PortsOk ip icmp len tcpPorts g.tcpSocks) := by
  have hq : origIp icmp + 9 < icmp + len := by unfold origIp; omega
  unfold quenchR
  rw [within_bind, within_cell, eval_cell]
  change _ ∧ Within _ ip (if quotedProto ip icmp = 6 then _ else _) ↔ _
  by_cases hp : quotedProto ip icmp = 6
  · rw [if_pos hp, within_bind, within_cancelR h24, and_iff_left within_pure, and_iff_right hq]
    exact ⟨fun h => h.1, fun h => ⟨h, fun h17 => absurd (hp.symm.trans h17) (by decide)⟩⟩
  · rw [if_neg hp]
    exact iff_of_true ⟨hq, within_pure⟩ fun h => absurd h hp

theorem within_timxceedR : Within (· < icmp + len) ip (timxceedR g icmp code) ↔
    (code = 0 → CancelOk g ip icmp len) := by
  have hq : origIp icmp + 9 < icmp + len := by unfold origIp; omega
  unfold timxceedR
  by_cases hcode : code = 0
  · rw [if_pos hcode, within_bind, within_bind, within_cell, within_cancelR h24, and_iff_right hq,
      and_iff_left within_pure]
    exact ⟨fun h _ => h, fun h => h hcode⟩
  · rw [if_neg hcode]
    exact iff_of_true within_pure fun h => absurd h hcode

theorem within_paramprobR :
    Within (· < icmp + len) ip (paramprobR g icmp code) ↔ CancelOk g ip icmp len := by
  have hq : origIp icmp + 9 < icmp + len := by unfold origIp; omega
  unfold paramprobR
  rw [within_bind, within_bind, within_cell, within_cancelR h24, and_iff_right hq, and_iff_left within_pure]
  rfl

theorem within_redirectR {newIp oldIp : Dword} :
    Within (· < icmp + len) ip (redirectR g icmp code newIp oldIp) ↔
      (quotedProto ip icmp = 6 → g.doRedirect.tcp → PortsOk ip icmp len tcpPorts g.tcpSocks) ∧
      (quotedProto ip icmp = 17 → g.doRedirect.udp → PortsOk ip icmp len udpPorts g.udpSocks) := by
  have hq : origIp icmp + 9 < icmp + len := by unfold origIp; omega
  unfold redirectR
  rw [within_bind, within_cell, and_iff_right hq, eval_cell]
  have hproto : ip (origIp icmp + 9) = quotedProto ip icmp := rfl
  rw [hproto]
  generalize quotedProto ip icmp = proto
  by_cases h₁ : proto = 1
  · subst h₁
    simp
  by_cases h₂ : proto = 2
  · subst h₂
    simp
  rw [if_neg h₁, if_neg h₂]
  by_cases h₃ : (proto = 6 ∧ g.doRedirect.tcp = false) ∨ (proto = 17 ∧ g.doRedirect.udp = false)
  · rw [if_pos h₃]
    rcases h₃ with ⟨rfl, hoff⟩ | ⟨rfl, hoff⟩ <;> simp [hoff]
  · rw [if_neg h₃, within_bind, within_cancelR h24, and_iff_left within_pure]
    rw [not_or] at h₃
    refine and_congr (imp_congr_right fun hp => ?_) (imp_congr_right fun hp => ?_)
    · have hon : g.doRedirect.tcp = true := by
        by_contra hf
        exact h₃.1 ⟨hp, Bool.eq_false_iff.mpr hf⟩
      simp [hon]
    · have hon : g.doRedirect.udp = true := by
        by_contra hf
        exact h₃.2 ⟨hp, Bool.eq_false_iff.mpr hf⟩
      simp [hon]

theorem within_icmpRedirectR :
    Within (· < icmp + len) ip (icmpRedirectR g icmp code) ↔ RedirectOk g ip icmp len := by
  unfold icmpRedirectR RedirectOk
  rw [within_bind, within_bind, within_readDwordR, within_readDwordR, Tcp.eval_readDwordR, Tcp.eval_readDwordR]
  have hgw : icmp + 4 < icmp + len ∧ icmp + 4 + 1 < icmp + len ∧ icmp + 4 + 2 < icmp + len ∧
      icmp + 4 + 3 < icmp + len := by omega
  simp only [hgw, true_and]
  refine and_congr ?_ ?_
  · unfold origIp
    omega
  · split_ifs with hoff
    · simp [hoff]
    · simp only [Bool.not_eq_true] at hoff
      simp only [hoff, forall_const]
      exact within_redirectR h24

/-- **The switch.** -/
theorem within_switchR : Within (· < icmp + len) ip (switchR g ip icmp len type code) ↔
    SwitchOk g ip icmp len type code := by
  have hnat (n : ℕ) (hn : n < 256) : type.toNat = n ↔ type = BitVec.ofNat 8 n := by
    rw [← BitVec.toNat_inj, BitVec.toNat_ofNat, Nat.mod_eq_of_lt hn]
  have hread : icmp + 4 < icmp + len ∧ icmp + 11 < icmp + len := by omega
  unfold switchR SwitchOk
  split <;> rename_i htype
  · obtain rfl := (hnat 0 (by decide)).mp htype
    simp [echoreplyR, rawWordR, rawDwordR]
    omega
  · obtain rfl := (hnat 3 (by decide)).mp htype
    simpa using within_unreachR h24
  · obtain rfl := (hnat 4 (by decide)).mp htype
    simpa using within_quenchR h24
  · obtain rfl := (hnat 5 (by decide)).mp htype
    by_cases hcode : code.toNat < Table.redirectStr.dim
    · rw [if_pos hcode]
      simpa [hcode] using within_icmpRedirectR h24
    · rw [if_neg hcode]
      simp [hcode]
  · obtain rfl := (hnat 8 (by decide)).mp htype
    simp
  · obtain rfl := (hnat 9 (by decide)).mp htype
    simp
  · obtain rfl := (hnat 10 (by decide)).mp htype
    simp
  · obtain rfl := (hnat 13 (by decide)).mp htype
    simp
  · obtain rfl := (hnat 14 (by decide)).mp htype
    simp
  · obtain rfl := (hnat 15 (by decide)).mp htype
    simp
  · obtain rfl := (hnat 16 (by decide)).mp htype
    simp
  · obtain rfl := (hnat 11 (by decide)).mp htype
    simpa using within_timxceedR h24
  · obtain rfl := (hnat 12 (by decide)).mp htype
    simpa using within_paramprobR h24
  · obtain rfl := (hnat 18 (by decide)).mp htype
    simp [maskreplyR, rawWordR, within_readDwordR]
    omega
  · refine iff_of_true within_pure ⟨?_, ?_, ?_, ?_, ?_⟩ <;> rintro rfl <;> simp_all

end Cancel

/-! ## The names -/

section Names

variable {g : Globals} {ip : Packet} {icmp len : ℕ} {type code : Byte}

/-- All names exist. -/
def Result.Named (r : Result) : Prop := ∀ n ∈ r.names, n.2 < n.1.dim

@[simp] theorem named_nil {act : Action} : Result.Named { names := [], act := act } := by
  simp [Result.Named]

@[simp] theorem named_single {table : Table} {i : ℕ} {act : Action} :
    Result.Named { names := [(table, i)], act := act } ↔ i < table.dim := by
  simp [Result.Named]

theorem named_redirectR {newIp oldIp : Dword} (hcode : code.toNat < Table.redirectStr.dim) :
    (eval ip (redirectR g icmp code newIp oldIp)).Named := by
  unfold redirectR
  rw [eval_bind, eval_cell]
  simp only [eval_ite, eval_bind, eval_pure]
  split_ifs <;> exact named_single.mpr hcode

theorem named_unreachR : (eval ip (unreachR g icmp len code)).Named := by
  unfold unreachR
  by_cases hcode : code.toNat < Table.unreachStr.dim
  · rw [if_pos hcode, eval_bind, eval_bind, eval_cell, eval_cell]
    simp only [eval_ite, eval_bind, eval_pure]
    split_ifs <;> exact named_single.mpr hcode
  · rw [if_neg hcode]
    exact named_nil

theorem named_quenchR : (eval ip (quenchR g icmp code)).Named := by
  unfold quenchR
  rw [eval_bind, eval_cell]
  simp only [eval_ite, eval_bind, eval_pure]
  split_ifs
  · exact named_single.mpr (by decide)
  · exact named_nil

theorem named_icmpRedirectR (hcode : code.toNat < Table.redirectStr.dim) :
    (eval ip (icmpRedirectR g icmp code)).Named := by
  unfold icmpRedirectR
  simp only [eval_bind, eval_ite, eval_pure]
  split_ifs
  · exact named_single.mpr (by decide)
  · exact named_redirectR hcode

theorem named_timxceedR : (eval ip (timxceedR g icmp code)).Named := by
  unfold timxceedR
  simp only [eval_bind, eval_ite, eval_pure]
  split_ifs
  · exact named_single.mpr (by decide)
  · exact named_nil
  · exact named_nil

/-- **The switch** looks up names that exist. -/
theorem named_switchR : (eval ip (switchR g ip icmp len type code)).Named := by
  unfold switchR
  split <;> rename_i htype
  · exact named_nil
  · exact named_unreachR
  · exact named_quenchR
  · by_cases hcode : code.toNat < Table.redirectStr.dim
    · rw [if_pos hcode]
      exact named_icmpRedirectR hcode
    · rw [if_neg hcode]
      exact named_nil
  · unfold echo
    rw [eval_pure]
    split_ifs
    · exact named_nil
    · exact named_single.mpr (by decide)
  · exact named_single.mpr (by rw [htype]; decide)
  · exact named_single.mpr (by rw [htype]; decide)
  · exact named_single.mpr (by rw [htype]; decide)
  · exact named_single.mpr (by rw [htype]; decide)
  · exact named_single.mpr (by rw [htype]; decide)
  · exact named_single.mpr (by rw [htype]; decide)
  · exact named_timxceedR
  · unfold paramprobR
    simp only [eval_bind, eval_pure]
    exact named_single.mpr (by decide)
  · unfold maskreplyR
    simp only [eval_bind, eval_pure]
    exact named_single.mpr (by decide)
  · exact named_nil

end Names

/-! ## The handler -/

section Handler

variable {g : Globals} {ip : Packet} {icmp len : ℕ}

/-- **One message.** -/
theorem message_safe_iff : Within (· < icmp + len) ip (messageR g ip icmp len) ∧
    (eval ip (messageR g ip icmp len)).Named ↔ MessageOk g ip icmp len := by
  unfold messageR MessageOk
  rw [within_bind, within_bind, within_bind, eval_bind, eval_bind, eval_bind, within_cell, within_cell,
    within_readDwordR, eval_cell, eval_cell, Tcp.eval_readDwordR]
  by_cases h24 : 24 ≤ len
  · have hread : icmp < icmp + len ∧ icmp + 1 < icmp + len ∧ origIp icmp + 12 < icmp + len ∧
        origIp icmp + 12 + 1 < icmp + len ∧ origIp icmp + 12 + 2 < icmp + len ∧
        origIp icmp + 12 + 3 < icmp + len := by unfold origIp; omega
    simp only [hread, true_and, h24]
    by_cases hmask : ip icmp = 18 ∧ g.doMaskReq = false
    · simp [hmask]
    · rw [if_neg hmask]
      unfold Bogus
      by_cases hbogus : ip4IsLocalAddr g (readDword ip (origIp icmp + 12)) = false ∧ ip icmp ≠ 18 ∧
          unquoted (ip icmp) = false
      · rw [if_pos hbogus, and_iff_right within_pure, eval_pure]
        exact named_single.trans ⟨fun h _ => ⟨fun _ => h, fun hb => absurd hbogus hb⟩,
          fun h => (h hmask).1 hbogus⟩
      · rw [if_neg hbogus, and_iff_left named_switchR, within_switchR h24]
        exact ⟨fun h _ => ⟨fun hb => absurd hb hbogus, fun _ => h⟩, fun h => (h hmask).2 hbogus⟩
  · refine iff_of_false (fun h => ?_) fun h => h24 h.1
    have := h.1.2.2.1.2.2.2
    unfold origIp at this
    omega

/-- A message with a room of its own ends where the packet does. -/
theorem inGetHdrLen_add_icmpLen (hlen : inGetHdrLen ip ≤ (inLength ip).toNat) :
    inGetHdrLen ip + icmpLen ip = (inLength ip).toNat := by
  have hlt := (inLength ip).isLt
  have hwide : ((inLength ip).setWidth 32).toNat = (inLength ip).toNat := by
    rw [BitVec.toNat_setWidth, Nat.mod_eq_of_lt (by omega)]
  have hhdr : (BitVec.ofNat 32 (inGetHdrLen ip)).toNat = inGetHdrLen ip := by
    rw [BitVec.toNat_ofNat, Nat.mod_eq_of_lt (by omega)]
  rw [icmpLen, BitVec.toNat_sub_of_le (by rw [BitVec.le_def]; omega), hwide, hhdr]
  omega

/-- **ICMP input** is safe on exactly the packets that are not accepted, and those that hold their IP
header and whose message is `MessageOk`. -/
theorem icmp_safe_iff (g : Globals) (ip : Packet) (broadcast : Bool) : Safe g ip broadcast ↔
    (accepts g ip broadcast →
      inGetHdrLen ip ≤ (inLength ip).toNat ∧ MessageOk g ip (inGetHdrLen ip) (icmpLen ip)) := by
  unfold Safe icmpHandlerR
  by_cases hacc : accepts g ip broadcast = true
  · rw [if_pos hacc]
    simp only [hacc, forall_const]
    by_cases hlen : inGetHdrLen ip ≤ (inLength ip).toNat
    · rw [and_iff_right hlen, ← inGetHdrLen_add_icmpLen hlen]
      exact message_safe_iff
    · -- the type is read behind the end of the packet
      refine iff_of_false (fun h => hlen ?_) fun h => hlen h.1
      have hread := h.1
      unfold messageR at hread
      rw [within_bind, within_cell] at hread
      exact hread.1.le
  · rw [if_neg hacc]
    simp [hacc]

end Handler

/-! ## Short and bogus messages -/

/-- A host with the address 0.0.0.1 behind the mask 255.255.255.0. -/
def oneHost : Globals := { host := { myIpAddr := 1 } }

/-- A message from 0.0.0.2 to 0.0.0.1, of at most 200 bytes. -/
def messagePacket (message : List Byte) : Packet :=
  packetOf ([0x45, 0, 0, BitVec.ofNat 8 (20 + message.length), 0, 0, 0, 0, 64, 1, 0, 0, 0, 0, 0, 2, 0, 0, 0, 1] ++
    message)

/-- A message of 24 bytes and type 200 that quotes nothing of ours looks up a name that does not
exist. -/
theorem icmp_not_safe : ¬ ∀ (g : Globals) (ip : Packet) (broadcast : Bool), Safe g ip broadcast := by
  intro h
  have hsafe := h oneHost (messagePacket ([200, 0, 0x37, 0xff] ++ List.replicate 20 0)) false
  exact absurd (hsafe.2 (.typeStr, 200) (by decide +kernel)) (by decide)

end Watt32.Icmp
