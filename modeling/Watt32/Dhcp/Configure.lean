import Watt32.Dhcp.Overload
import Watt32.Arp.Gateways
import Watt32.NetAddr

/-!
# What `DHCP_offer` sets

The switch of `DHCP_offer` with all globals that it sets, over the control flow of `offer`.

* `Settings`: the globals; `kindAt`, `effect`, `Settings.apply`: what an option sets.
* `copied`: what an option copies, and the size of the destination.
* `configure`: `DHCP_offer`; `settle`: what the options of one packet set.
* **`configure_cases`**: what a call that returns has set.
-/

namespace Watt32.Dhcp

/-! ## The data -/

/-- The globals that take the first four bytes of an option. -/
inductive Field
  | sinMask | router | nameserver | dhcpServer | dhcpIplease | dhcpRenewal | dhcpRebind | tcpKeepIntvl
  deriving DecidableEq

/-- The buffers that take an option as a string: `defaultdomain`, `tftp_server_name`, and `buf` of
`tftp_set_boot_fname`, of which `tftp_boot_remote_file` is a copy. -/
inductive Text
  | defaultdomain | tftpServerName | bootFname
  deriving DecidableEq

/-- The sizes of the buffers. -/
def Text.size : Text → ℕ
  | .defaultdomain => 81
  | .tftpServerName => 80
  | .bootFname => 256

def sizeofHostname : ℕ := 81
def sizeofSyslogHostName : ℕ := 80

/-- The globals that `DHCP_offer` sets. -/
structure Settings where
  field : Field → Dword
  text : Text → List Byte
  hostname : ℕ → Byte
  syslogHostName : List Char
  defaultTtl : Byte
  gotOffer : Bool
  gates : List Arp.GateEntry
  gwAdded : Bool
  nameservers : List Dword
  dnsAdded : Bool

/-- The options that set something, besides those that `Client` follows. -/
def optSubnetMask : Byte := 1
def optRoutersOnSnet : Byte := 3
def optDnsSrv : Byte := 6
def optLogSrv : Byte := 7
def optHostName : Byte := 12
def optDomainName : Byte := 15
def optIpDefaultTtl : Byte := 23
def optTcpDefaultTtl : Byte := 37
def optTcpKeepaliveInterval : Byte := 38
def optTftpServer : Byte := 66
def optBootFilename : Byte := 67

/-! ## The program -/

/-- `opt[1]`. -/
def optLen (m : ℕ → Byte) (opt : ℕ) : ℕ := (m (opt + 1)).toNat

/-- What an option is for: `n` bytes of it are copied at most. -/
inductive Kind
  | field (f : Field)
  | text (t : Text) (n : ℕ)
  | hostname (n : ℕ)
  | syslog
  | ttl
  | msgType
  | other
  deriving DecidableEq

/-- The cases of the switch that take four bytes, whatever the length. -/
def fieldOf (code : Byte) : Option Field :=
  if code = optSubnetMask then some .sinMask
  else if code = optRoutersOnSnet then some .router
  else if code = optSrvIdentifier then some .dhcpServer
  else if code = optIpAddrLeaseTime then some .dhcpIplease
  else if code = optT1Value then some .dhcpRenewal
  else if code = optT2Value then some .dhcpRebind
  else if code = optTcpKeepaliveInterval then some .tcpKeepIntvl
  else none

/-- The case of the switch, with the tests of the length. `setdomainname` refuses what is too long. -/
def kindAt (m : ℕ → Byte) (opt : ℕ) : Kind :=
  if m opt = optDnsSrv then if optLen m opt = 0 then .other else .field .nameserver
  else if m opt = optLogSrv then if optLen m opt % 4 = 0 then .syslog else .other
  else if m opt = optHostName then .hostname (min (optLen m opt) sizeofHostname)
  else if m opt = optDomainName then
    if optLen m opt < Text.size .defaultdomain - 1 then .text .defaultdomain (optLen m opt) else .other
  else if m opt = optIpDefaultTtl ∨ m opt = optTcpDefaultTtl then .ttl
  else if m opt = optMsgType then .msgType
  else if m opt = optTftpServer then .text .tftpServerName (min (optLen m opt + 1) (Text.size .tftpServerName) - 1)
  else if m opt = optBootFilename then .text .bootFname (min (optLen m opt + 1) (Text.size .bootFname) - 1)
  else (fieldOf (m opt)).elim .other .field

/-- What `str_lcpy (dst, m + a, n + 1)` leaves as a string. -/
def strLcpy (m : ℕ → Byte) (a n : ℕ) : List Byte := (Mem.slice m a n).takeWhile (· ≠ 0)

/-- What an option sets. -/
inductive Effect
  | field (f : Field) (v : Dword)
  | text (t : Text) (s : List Byte)
  | hostname (s : List Byte)
  | syslog (ip : Dword)
  | ttl (b : Byte)
  | offer
  | nothing

/-- The value of an option. -/
def effectOf (m : ℕ → Byte) (opt : ℕ) : Kind → Effect
  | .field f => .field f (intel m (opt + 2))
  | .text t n => .text t (strLcpy m (opt + 2) n)
  | .hostname n => .hostname (Mem.slice m (opt + 2) n)
  | .syslog => .syslog (intel m (opt + 2))
  | .ttl => .ttl (m (opt + 2))
  | .msgType => if m (opt + 2) = msgOffer then .offer else .nothing
  | .other => .nothing

def effect (m : ℕ → Byte) (opt : ℕ) : Effect := effectOf m opt (kindAt m opt)

/-- `_add_server` into `def_nameservers`. -/
def addServer (servers : List Dword) (ip : Dword) : List Dword :=
  if ip ≠ 0 ∧ servers.length < 10 ∧ ip ∉ servers then servers ++ [ip] else servers

section Program

variable (qsort : (Arp.GateEntry → Arp.GateEntry → ℤ) → List Arp.GateEntry → List Arp.GateEntry)

/-- What goes with one of the globals: the table of gateways, and that of name servers. -/
def Settings.tables (g : Settings) (v : Dword) : Field → Settings
  | .router =>
    { g with
      gates := (Arp.arpAddGateway qsort (if g.gwAdded then g.gates else []) none v).1
      gwAdded := true }
  | .nameserver =>
    { g with
      nameservers := addServer (if g.dnsAdded then g.nameservers else []) v
      dnsAdded := true }
  | _ => g

/-- An option takes effect. -/
def Settings.apply (g : Settings) : Effect → Settings
  | .field f v => { g.tables qsort v f with field := Function.update g.field f v }
  | .text t s => { g with text := Function.update g.text t s }
  | .hostname s => { g with hostname := Mem.put g.hostname 0 (s ++ [0]) }
  | .syslog ip => if g.syslogHostName = [] then { g with syslogHostName := NetAddr.inetNtoa ip } else g
  | .ttl b => { g with defaultTtl := b }
  | .offer => { g with gotOffer := true }
  | .nothing => g

/-- What the loop has come to. -/
inductive Walk
  | ended (x : Extra) (g : Settings)
  | through (x : Extra) (g : Settings)
  | wild

/-- The loop of `DHCP_offer` from `opt` on, in `n` turns. -/
def configureWalk (realloc : ℕ → Option (ℕ → Byte)) (m : ℕ → Byte) (fuel : ℕ) :
    (n opt k : ℕ) → Extra → Settings → Option Walk
  | 0, _, _, _, _ => none
  | n + 1, opt, k, x, g =>
    if sizeofDhcp ≤ opt then some (.through x g)
    else if m opt = optPad then configureWalk realloc m fuel n (opt + 1) k x g
    else if m opt = optEnd then some (.ended x g)
    else
      match addAreas realloc m fuel (areasAt m opt) k x with
      | some (.returned x) => configureWalk realloc m fuel n (opt + (m (opt + 1)).toNat + 2)
          (k + (areasAt m opt).length) x (g.apply qsort (effect m opt))
      | some .wild => some .wild
      | none => none

/-- A call returns, or uses an object that is not there. -/
inductive Configured
  | set (x : Extra) (g : Settings)
  | wild

/-- `DHCP_offer (in)`, with all that it sets. -/
def configure : (fuel : ℕ) → Outside → (m : ℕ → Byte) → Extra → Settings → Option Configured
  | 0, _, _, _, _ => none
  | fuel + 1, w, m, x, g =>
    match configureWalk qsort (w.realloc 0) m fuel sizeofDhcp dhOpt 0 x g with
    | none => none
    | some .wild => some .wild
    | some (.ended x g) => some (.set x g)
    | some (.through .smashed _) => some .wild
    | some (.through (.intact none size) g) => some (.set (.intact none size) g)
    | some (.through (.intact (some bytes) size) g) =>
      let len := min size sizeofDhOpt
      let bytes := Function.update bytes len optEnd
      configure fuel w.next (Mem.put (w.stack 0) dhOptStart (Mem.slice bytes 0 len))
        (.intact (some bytes) size) g

/-- The options `ps` take effect one after the other. -/
def settles (m : ℕ → Byte) (ps : List ℕ) (g : Settings) : Settings :=
  ps.foldl (fun g opt => g.apply qsort (effect m opt)) g

/-- All options of a packet take effect. -/
def settle (m : ℕ → Byte) (g : Settings) : Settings := settles qsort m (optionsOf m) g

end Program

/-- What an option copies into a buffer, and the size of the buffer. -/
def copied (m : ℕ → Byte) (opt : ℕ) : Option (ℕ × ℕ) :=
  match effect m opt with
  | .text t s => some (s.length + 1, t.size)
  | .hostname s => some (s.length + 1, sizeofHostname)
  | .syslog ip => some ((NetAddr.inetNtoa ip).length + 1, sizeofSyslogHostName)
  | _ => none

/-- No copy goes beyond its destination. -/
def CopyFits (m : ℕ → Byte) (opt : ℕ) : Prop := ∀ c ∈ copied m opt, c.1 ≤ c.2

/-- `DHCP_offer` returns from the packet itself, without another one. -/
def StopsAt (w : Outside) (m : ℕ → Byte) : Extra → Prop
  | .smashed => areas m = [] ∧ ends m = true
  | .intact data _ => Stops w m data 0

/-- Without what is set, `DHCP_offer` is `offer`. -/
def Configured.outcome : Configured → Outcome
  | .set x _ => .returned x
  | .wild => .wild

variable {qsort : (Arp.GateEntry → Arp.GateEntry → ℤ) → List Arp.GateEntry → List Arp.GateEntry}
  {m : ℕ → Byte} {fuel n opt k : ℕ} {x x' : Extra} {g g' : Settings} {data : Option (ℕ → Byte)}
  {bytes : ℕ → Byte} {realloc : ℕ → Option (ℕ → Byte)} {w : Outside} {ps qs : List ℕ}

/-! ## One packet -/

/-- The end of the loop. -/
def leaveWith (ended : Bool) (x : Extra) (g : Settings) : Walk := if ended then .ended x g else .through x g

theorem settles_cons : settles qsort m (opt :: ps) g = settles qsort m ps (g.apply qsort (effect m opt)) := rfl

theorem settles_append : settles qsort m (ps ++ qs) g = settles qsort m qs (settles qsort m ps g) := List.foldl_append

theorem configureWalk_eq : ∀ {n opt k : ℕ} {x : Extra} {g : Settings}, 0 < n → sizeofDhcp < opt + n →
    configureWalk qsort realloc m fuel n opt k x g =
      match addAreas realloc m fuel ((Tlv.walk m optPad optEnd sizeofDhcp n opt).flatMap (areasAt m)) k x with
      | some (.returned x) =>
        some (leaveWith (endsFrom m n opt) x (settles qsort m (Tlv.walk m optPad optEnd sizeofDhcp n opt) g))
      | some .wild => some .wild
      | none => none
  | 0, _, _, _, _, h, _ => absurd h (lt_irrefl 0)
  | n + 1, opt, k, x, g, _, h => by
    rw [configureWalk, endsFrom, Tlv.walk]
    split_ifs
    · rfl
    · exact configureWalk_eq (by omega) (by omega)
    · rfl
    · rw [List.flatMap_cons, addAreas_append]
      rcases addAreas realloc m fuel (areasAt m opt) k x with _ | x | _
      · rfl
      · exact configureWalk_eq (by omega) (by omega)
      · rfl

theorem configureWalk_packet : configureWalk qsort realloc m fuel sizeofDhcp dhOpt 0 x g =
    match addAreas realloc m fuel (areas m) 0 x with
    | some (.returned x) => some (leaveWith (ends m) x (settle qsort m g))
    | some .wild => some .wild
    | none => none :=
  configureWalk_eq (by decide) (by decide)

section Calls

variable (h : addAreas (w.realloc 0) m fuel (areas m) 0 x = some (.returned x'))
include h

theorem configure_ended (he : ends m = true) :
    configure qsort (fuel + 1) w m x g = some (.set x' (settle qsort m g)) := by
  rw [configure, configureWalk_packet, h, he]
  rfl

theorem configure_null (he : ends m = false) (hx : x' = .intact none 0) :
    configure qsort (fuel + 1) w m x g = some (.set x' (settle qsort m g)) := by
  rw [configure, configureWalk_packet, h, he, hx]
  rfl

theorem configure_ext (he : ends m = false) (hx : x' = .intact (some bytes) 0) :
    configure qsort (fuel + 1) w m x g =
      configure qsort fuel w.next (w.stack 0) (.intact (some (Function.update bytes 0 optEnd)) 0)
        (settle qsort m g) := by
  have hput : Mem.put (w.stack 0) dhOptStart [] = w.stack 0 := by
    funext i
    simp [Mem.put]
  rw [configure, configureWalk_packet, h, he, hx]
  simp [leaveWith, hput]

theorem configure_lost (he : ends m = false) (hx : x' = .smashed) :
    configure qsort (fuel + 1) w m x g = some .wild := by
  rw [configure, configureWalk_packet, h, he, hx]
  rfl

end Calls

/-- **The control flow** is that of `offer`. -/
theorem configure_outcome (g : Settings) : (configure qsort fuel w m x g).map Configured.outcome = offer fuel w m x := by
  induction fuel generalizing w m x g with
  | zero => rfl
  | succ fuel ih =>
    rw [configure, configureWalk_packet, offer, offerWalk_packet]
    rcases addAreas (w.realloc 0) m fuel (areas m) 0 x with _ | x | _
    · rfl
    · cases ends m with
      | true => rfl
      | false =>
        rcases x with ⟨_ | bytes, size⟩ | _
        · rfl
        · exact ih _
        · rfl
    · rfl

/-- **What a call that returns has set**: what the options of the packet set; or it has gone on with what
is on the stack. -/
theorem configure_cases (hx : Sound x) (h : configure qsort fuel w m x g = some (.set x' g')) :
    StopsAt w m x ∧ g' = settle qsort m g ∨
      ¬StopsAt w m x ∧ ∃ fuel bytes, configure qsort fuel w.next (w.stack 0) (.intact (some bytes) 0)
        (settle qsort m g) = some (.set x' g') := by
  cases fuel with
  | zero => cases h
  | succ fuel =>
    rcases hadd : addAreas (w.realloc 0) m fuel (areas m) 0 x with _ | x₁ | _
    · rw [configure, configureWalk_packet, hadd] at h
      cases h
    · cases hends : ends m with
      | true =>
        rw [configure_ended hadd hends, Option.some.injEq, Configured.set.injEq] at h
        refine .inl ⟨?_, h.2.symm⟩
        cases x with
        | intact data size =>
          cases (show size = 0 from hx)
          rcases addAreas_returned hadd areas_large with ⟨hsil, -⟩ | ⟨hlast, -⟩
          · exact .inl ⟨hsil, .inl hends⟩
          · exact .inr ⟨hlast, hends⟩
        | smashed => exact ⟨(addAreas_smashed hadd).1, hends⟩
      | false =>
        cases x with
        | intact data size =>
          cases (show size = 0 from hx)
          rcases addAreas_returned hadd areas_large with ⟨hsil, rfl⟩ | ⟨hlast, rfl⟩
          · rcases hb : blockAfter (w.realloc 0) (areas m) 0 data with _ | bytes
            · rw [hb] at hadd
              rw [configure_null hadd hends rfl, Option.some.injEq, Configured.set.injEq] at h
              refine .inl ⟨.inl ⟨hsil, .inr fun hh => ?_⟩, h.2.symm⟩
              rw [held_zero, hb] at hh
              cases hh
            · rw [hb] at hadd
              rw [configure_ext hadd hends rfl] at h
              refine .inr ⟨?_, fuel, _, h⟩
              have hh : Held w m data 0 := held_zero.mpr (by rw [hb]; rfl)
              have hne : ¬ends (packet w m 0) = true := by
                rw [show packet w m 0 = m from rfl, hends]
                exact Bool.false_ne_true
              rintro (⟨-, he | hn⟩ | ⟨-, he⟩)
              exacts [hne he, hn hh, hne he]
          · rw [configure_lost hadd hends rfl] at h
            cases h
        | smashed =>
          rw [configure_lost hadd hends (addAreas_smashed hadd).2] at h
          cases h
    · rw [configure, configureWalk_packet, hadd] at h
      cases h

theorem configure_stops (hx : Sound x) (h : StopsAt w m x) :
    ∃ fuel x', configure qsort fuel w m x g = some (.set x' (settle qsort m g)) := by
  have hret : ∃ fuel x', offer fuel w m x = some (.returned x') := by
    cases x with
    | intact data size =>
      cases (show size = 0 from hx)
      exact ⟨_, offer_stops h⟩
    | smashed => exact ⟨1, .smashed, offer_ended (by rw [h.1]; rfl) h.2⟩
  obtain ⟨fuel, x', hret⟩ := hret
  obtain ⟨c, hc, hout⟩ := Option.map_eq_some_iff.mp ((configure_outcome g).trans hret)
  cases c with
  | set x₁ g₁ =>
    rcases configure_cases hx hc with ⟨-, rfl⟩ | ⟨hn, -⟩
    · exact ⟨fuel, x₁, hc⟩
    · exact absurd h hn
  | wild => cases hout

end Watt32.Dhcp
