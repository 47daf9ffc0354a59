import Watt32.Icmp.Handler
import Watt32.Tcp.Calls

/-!
# ICMP errors at a TCP socket

`sock_reduce_mss`, `tcp_stress_test` and `_tcp_cancel` of `pctcp.c`, and the machine of a control
block that also gets ICMP messages.

* `sockReduceMss`: `max_seg` after a report that a packet was too long.
* `tcpCancel`: an ICMP error for this control block.
* `icmpInput`: an ICMP packet, by way of `icmp_handler`.
* `NetEvent`, `stepNet`: the events of a control block and ICMP packets, under one configuration.
-/

namespace Watt32.Tcp

/-! ## The call -/

/-- The configuration, `_mtu` and the socket's `rigid`. -/
structure Net where
  cfg : Config := {}
  mtu : Dword := 1500
  rigid : Byte := 0

/-- `TCP_OVERHEAD`. -/
def tcpOverhead : Dword := 40

/-- `MSS_MIN`. -/
def mssMin : Dword := 576 - tcpOverhead

/-- `MSS_REDUCE`. -/
def mssReduce : Dword := 20

/-- `min (max(MSS_MIN, max_seg), _mss)`. -/
def clampMss (net : Net) (maxSeg : Dword) : Dword :=
  let maxSeg := if maxSeg < mssMin then mssMin else maxSeg
  if maxSeg < net.cfg.mss then maxSeg else net.cfg.mss

/-- The `max_seg` that `sock_reduce_mss` sets. -/
def reduceMss (net : Net) (mtu : Word) (maxSeg : Dword) : Dword :=
  clampMss net (
    if mtu ≠ 0 then net.mtu - tcpOverhead
    else if mssMin < maxSeg then maxSeg - mssReduce
    else maxSeg)

/-- `sock_reduce_mss`. -/
def sockReduceMss (net : Net) (mtu : Word) (s : TcpSocket) : TcpSocket :=
  if s.ipType = tcpProto then { s with maxSeg := reduceMss net mtu s.maxSeg } else s

/-- `tcp_stress_test`: whether the socket goes on. -/
def tcpStressTest (net : Net) (s : TcpSocket) : TcpSocket × Bool :=
  if net.rigid < s.stress ∧ net.rigid < 100 then
    ({ s with
      stress := s.stress + 1
      rx := { s.rx with rxDatalen := 0 }
      tx := { s.tx with txDatalen := 0 }
      unhappy := false }, false)
  else ({ s with stress := s.stress + 1 }, true)

/-- The label `quench_it` of `_tcp_cancel`. -/
def quenchIt (r : Rtt) : Rtt :=
  { r with
    cwindow := 1
    wwindow := 1
    vjSa := r.vjSa <<< 2
    vjSd := r.vjSd <<< 2
    rto := r.rto <<< 2 }

/-- An error that a socket can stand some times. -/
def cancelStress (net : Net) (e : Env) (c : Conn) : Conn :=
  if (tcpStressTest net c.s).2 then (c.upd fun s => (tcpStressTest net s).1).updRtt quenchIt
  else tcpAbort e (c.upd fun s => (tcpStressTest net s).1)

/-- `_tcp_cancel` for the control block found. A redirect only asks ARP for the new gateway. -/
def tcpCancel (net : Net) (e : Env) (c : Conn) (type code : Byte) (arg : Dword) : Conn :=
  match type.toNat with
  | 11 => cancelStress net e c
  | 3 => if code = 4 then c.upd (sockReduceMss net (arg.setWidth 16)) else cancelStress net e c
  | 4 => c.updRtt quenchIt
  | 12 => tcpAbort e c
  | _ => c

/-! ## ICMP packets -/

/-- The control block as `_tcp_cancel` looks for it, if it is in `_tcp_allsocs`. -/
def Conn.icmpSocks (c : Conn) : List Icmp.Sock :=
  if c.threaded then [⟨c.s.myport, c.s.hisport, c.s.hisaddr⟩] else []

/-- What `icmp_handler` does with a packet. -/
def icmpAction (c : Conn) (g : Icmp.Globals) (ip : Packet) (broadcast : Bool) : Icmp.Action :=
  (Reads.eval ip (Icmp.icmpHandlerR { g with tcpSocks := c.icmpSocks } ip broadcast)).act

/-- `icmp_handler` on this control block. -/
def icmpInput (net : Net) (e : Env) (c : Conn) (g : Icmp.Globals) (ip : Packet) (broadcast : Bool) : Conn :=
  match icmpAction c g ip broadcast with
  | .tcpCancel (some _) type code arg => tcpCancel net e c type code arg
  | _ => c

/-- The next-hop MTU that a packet reports for this control block. -/
def reportedMtu (c : Conn) (g : Icmp.Globals) (ip : Packet) (broadcast : Bool) : Option Word :=
  match icmpAction c g ip broadcast with
  | .tcpCancel (some _) type code arg => if type = 3 ∧ code = 4 then some (arg.setWidth 16) else none
  | _ => none

/-- **A report** goes to `sock_reduce_mss`. -/
theorem icmpInput_reported {net : Net} {e : Env} {c : Conn} {g : Icmp.Globals} {ip : Packet} {broadcast : Bool}
    {mtu : Word} (h : reportedMtu c g ip broadcast = some mtu) :
    icmpInput net e c g ip broadcast = c.upd (sockReduceMss net mtu) := by
  unfold reportedMtu at h
  unfold icmpInput
  split at h
  · split_ifs at h with hkind
    obtain ⟨rfl, rfl⟩ := hkind
    obtain rfl := Option.some_inj.mp h
    rfl
  · cases h

/-! ## The machine -/

/-- An operation on the control block, or an ICMP packet. -/
inductive NetOp
  | conn (op : Op)
  | icmp (g : Icmp.Globals) (ip : Packet) (broadcast : Bool)

/-- An operation and what it takes from outside. -/
structure NetEvent where
  e : Env
  op : NetOp

/-- What an event takes from outside, under the configuration. -/
def NetEvent.env (net : Net) (ev : NetEvent) : Env := { ev.e with cfg := net.cfg }

/-- One step. -/
def stepNet (net : Net) (c : Conn) (ev : NetEvent) : Conn :=
  match ev.op with
  | .conn op => stepConn c ⟨ev.env net, op⟩
  | .icmp g ip broadcast => icmpInput net (ev.env net) c g ip broadcast

end Watt32.Tcp
