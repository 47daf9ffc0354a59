import Watt32.Igmp.Groups

/-!
# The socket table

`socket.c`: `sk_list`, the `inuse` bits, `sk_last`, the receive mode of the driver and the hook of the
SOCK_PACKET sockets.

* `Table`: these globals.
* `sockAllocFd`, `socketCall`, `acceptCall`, `closeS`, `sockDaemon`: the calls, with `sockDelFd` under them.
* `sockPacketPeek`, `ethArrived`: a frame comes in.
* `Op`, `step`: all of these as the steps of one machine.
-/

namespace Watt32.Sk

abbrev Byte := BitVec 8
abbrev Dword := BitVec 32

/-! ## The data -/

/-- `so_type`. -/
inductive SockType
  | stream | dgram | raw | packet
  deriving DecidableEq

/-- The protocol families of `socket`. -/
inductive Family
  | unspec | inet | inet6 | packet | other
  deriving DecidableEq

/-- What `_eth_recv_peek` points to: nothing, the application's own hook, or `sock_packet_peek`. -/
inductive Hook
  | null | app | peek
  deriving DecidableEq

/-- The errors of `socket`. -/
inductive Errno
  | enetdown | eafnosupport | esocktnosupport | einval | eprotonosupport | emfile | enomem
  deriving DecidableEq

/-- `struct pkt_ringbuf` with its buffers. -/
structure Ring where
  inIndex : ℕ := 0
  outIndex : ℕ := 0
  numBuf : ℕ
  numDrop : Dword := 0
  bufs : ℕ → List Byte := fun _ => []

/-- `Socket`, as far as the table goes. -/
structure Socket where
  fd : ℕ
  soType : SockType
  soProto : ℤ
  soFamily : Family
  localAddr : Bool := false
  packetPool : Option Ring := none
  oldEthPeek : Hook := .null

/-- `MAX_SOCKETS`, `MAX_PACKET_BUFS`, whether `sk_last` starts at `MAX_SOCKETS` (djgpp), whether
`USE_IPV6` is defined, and `_pktserial`. -/
structure Config where
  maxSockets : ℕ := 5000
  maxPacketBufs : ℕ := 10
  djgpp : Bool := false
  useIpv6 : Bool := true
  pktserial : Bool := false
  fits : 3 < maxSockets := by decide

/-- The globals, and (a ghost) the frames that the application's own hook was called with. -/
structure Table where
  skList : List Socket := []
  inuse : ℕ → Bool := fun _ => false
  skLast : ℕ
  ethRecvPeek : Hook := .null
  mcastSet : Bool := false
  promisSet : Bool := false
  pktRxmode : ℕ := 3
  pktForcedRxmode : Option ℕ := none
  groups : Igmp.Groups := {}
  appGot : List (List Byte) := []

/-- `SK_FIRST`. -/
def skFirst : ℕ := 3

/-- The table after `init_sockets`. -/
def initTable (cfg : Config) (hook : Hook) : Table where
  skLast := if cfg.djgpp then cfg.maxSockets else skFirst + 1
  ethRecvPeek := hook

/-! ## Descriptors -/

/-- `_socklist_find`. -/
def Table.find (t : Table) (fd : ℕ) : Option Socket := t.skList.find? fun s => s.fd = fd

/-- Where the loop of `sock_alloc_fd` ends. -/
def vacantFd (t : Table) : ℕ :=
  ((List.range' skFirst (t.skLast - skFirst)).find? fun fd => ¬ t.inuse fd ∧ (t.find fd).isNone).getD
    (max skFirst t.skLast)

/-- `sock_alloc_fd`. -/
def sockAllocFd (cfg : Config) (t : Table) : Table × Option ℕ :=
  let fd := vacantFd t
  if fd < cfg.maxSockets then
    ({ t with
      skLast := if fd = t.skLast then t.skLast + 1 else t.skLast
      inuse := Function.update t.inuse fd true }, some fd)
  else (t, none)

/-- `sock_close_fd`. -/
def sockCloseFd (cfg : Config) (fd : ℕ) (t : Table) : Table :=
  if skFirst ≤ fd ∧ fd < cfg.maxSockets then
    { t with
      inuse := Function.update t.inuse fd false
      skLast := if fd + 1 = t.skLast then t.skLast - 1 else t.skLast }
  else t

/-- `sk_list_del`. -/
def skListDel (fd : ℕ) (t : Table) : Table := { t with skList := t.skList.eraseP fun s => s.fd = fd }

/-! ## Receive modes -/

/-- `RXMODE_BROADCAST`, `RXMODE_MULTICAST1`, `RXMODE_MULTICAST2` and `RXMODE_PROMISCOUS`. -/
def rxmodeBroadcast : ℕ := 3
def rxmodeMulticast1 : ℕ := 4
def rxmodeMulticast2 : ℕ := 5
def rxmodePromiscous : ℕ := 6

/-- `pkt_set_rcv_mode`. -/
def pktSetRcvMode (ok : Bool) (mode : ℕ) (t : Table) : Table × Bool :=
  if ok then ({ t with pktRxmode := mode }, true) else (t, false)

/-- `num_mcast_active`. -/
def numMcastActive (t : Table) : ℕ := Igmp.numTotal t.groups (Igmp.ipmultiSize - 1)

/-- The socket keeps the driver from its normal mode. -/
def Socket.special (s : Socket) : Bool := s.soFamily = .inet6 ∨ s.soType = .packet

/-- `_sock_set_normal_rx_mode`. -/
def sockSetNormalRxMode (ok : Bool) (fd : ℕ) (t : Table) : Table :=
  if 0 < numMcastActive t then t
  else if t.skList.any fun s => s.fd ≠ fd && s.special then t
  else { (pktSetRcvMode ok rxmodeBroadcast t).1 with
    pktForcedRxmode := some rxmodeBroadcast, mcastSet := false }

/-- `_ip6_pkt_init`. -/
def ip6PktInit (cfg : Config) (ok : Bool) (t : Table) : Table × Bool :=
  if cfg.pktserial then (t, false)
  else if t.pktRxmode < rxmodeMulticast2 then pktSetRcvMode ok rxmodeMulticast2 t
  else (t, true)

/-- `_sock_set_mcast_rx_mode`. -/
def sockSetMcastRxMode (cfg : Config) (ok : Bool) (t : Table) : Table × Bool :=
  let r := if t.mcastSet then (t, true) else ip6PktInit cfg ok t
  ({ r.1 with mcastSet := true }, r.2)

/-- `_sock_set_promisc_rx_mode`. -/
def sockSetPromiscRxMode (ok : Bool) (t : Table) : Table × Bool :=
  let r := if t.promisSet then (t, true) else pktSetRcvMode ok rxmodePromiscous t
  ({ r.1 with promisSet := true }, r.2)

/-! ## Deleting a socket -/

/-- `sock_packet_del`. -/
def sockPacketDel (s : Socket) (t : Table) : Table := { t with ethRecvPeek := s.oldEthPeek }

/-- The part of `_sock_del_fd` about the receive mode. -/
def delRxMode (ok : Bool) (s : Socket) (t : Table) : Table :=
  if s.special ∧ rxmodeBroadcast < t.pktRxmode ∧ t.pktForcedRxmode = none then
    sockSetNormalRxMode ok s.fd t
  else t

/-- `_sock_del_fd`. -/
def sockDelFd (cfg : Config) (ok : Bool) (fd : ℕ) (t : Table) : Table :=
  if fd < skFirst ∨ t.skLast ≤ fd ∨ t.inuse fd = false then t
  else
    match t.find fd with
    | none => sockCloseFd cfg fd t
    | some s =>
      let t := if s.soType = .packet then sockPacketDel s t else t
      sockCloseFd cfg fd (skListDel fd (delRxMode ok s t))

/-! ## `socket` -/

/-- What `socket` takes from outside: whether `calloc` gives the `Socket` and what goes with it, and
whether `pkt_set_rcv_mode` succeeds. -/
structure SockEnv where
  callocSock : Bool := true
  callocProto : Bool := true
  rxOk : Bool := true

/-- `IPPROTO_IP`, `IPPROTO_TCP`, `IPPROTO_UDP`, `IPPROTO_RAW` and `IPPROTO_MAX`. -/
def ipprotoIp : ℤ := 0
def ipprotoTcp : ℤ := 6
def ipprotoUdp : ℤ := 17
def ipprotoRaw : ℤ := 255
def ipprotoMax : ℤ := 256

/-- The protocol of `set_proto`. -/
def protoOf (type : SockType) (protocol : ℤ) : Except Errno ℤ :=
  match type with
  | .stream => if protocol = 0 ∨ protocol = ipprotoTcp then .ok ipprotoTcp else .error .eprotonosupport
  | .dgram => if protocol = 0 ∨ protocol = ipprotoUdp then .ok ipprotoUdp else .error .eprotonosupport
  | .raw => .ok (if protocol = ipprotoRaw then ipprotoIp else protocol)
  | .packet => .ok 0

/-- `set_proto`. -/
def setProto (cfg : Config) (e : SockEnv) (type : SockType) (isIp6 : Bool) (protocol : ℤ) (t : Table) :
    Table × Except Errno ℤ :=
  let r := if cfg.useIpv6 ∧ isIp6 then sockSetMcastRxMode cfg e.rxOk t else (t, true)
  if r.2 = false then (r.1, .error .enetdown)
  else if type = .packet then
    let r := sockSetPromiscRxMode e.rxOk r.1
    (r.1, if r.2 then protoOf type protocol else .error .enetdown)
  else (r.1, protoOf type protocol)

/-- The part of `socklist_add` that the protocol chooses succeeds. -/
def addOk (e : SockEnv) (type : SockType) (proto : ℤ) (family : Family) : Bool :=
  if proto = ipprotoTcp ∨ proto = ipprotoUdp ∨ type = .packet then e.callocProto
  else e.callocProto ∧ (family = .inet6 ∨ family = .inet)

/-- The `Socket` that `socklist_add` links. -/
def newSocket (cfg : Config) (fd : ℕ) (type : SockType) (proto : ℤ) (family : Family) : Socket where
  fd := fd
  soType := type
  soProto := proto
  soFamily := family
  packetPool := if type = .packet then some { numBuf := cfg.maxPacketBufs } else none

/-- `socklist_add`. For a SOCK_PACKET socket the way out of an error is `sock_packet_del`. -/
def socklistAdd (cfg : Config) (e : SockEnv) (fd : ℕ) (type : SockType) (proto : ℤ) (family : Family)
    (t : Table) : Table × Bool :=
  let s := newSocket cfg fd type proto family
  if e.callocSock = false then (t, false)
  else if addOk e type proto family then ({ t with skList := s :: t.skList }, true)
  else (if type = .packet then sockPacketDel s t else t, false)

/-- The end of `socket`: a SOCK_PACKET socket takes the hook. -/
def hookPacket (t : Table) : Table :=
  { t with
    skList := t.skList.modify 0 fun s => { s with oldEthPeek := t.ethRecvPeek }
    ethRecvPeek := .peek }

/-- `socket` from `sock_alloc_fd` on. -/
def socketAdd (cfg : Config) (e : SockEnv) (type : SockType) (proto : ℤ) (family : Family) (t : Table) :
    Table × Except Errno ℕ :=
  match sockAllocFd cfg t with
  | (t, none) => (t, .error .emfile)
  | (t, some fd) =>
    let r := socklistAdd cfg e fd type proto family t
    if r.2 = false then (sockCloseFd cfg fd r.1, .error .enomem)
    else (if type = .packet then hookPacket r.1 else r.1, .ok fd)

/-- AF_PACKET asks for a SOCK_PACKET socket. -/
def packetArgs (family : Family) (type : SockType) : SockType × Family :=
  if family = .packet then (.packet, .unspec) else (type, family)

/-- `socket`; a type that is none of the four is `none`. -/
def socketCall (cfg : Config) (e : SockEnv) (family : Family) (type : Option SockType) (protocol : ℤ)
    (t : Table) : Table × Except Errno ℕ :=
  if family = .other ∨ family = .inet6 ∧ cfg.useIpv6 = false then (t, .error .eafnosupport)
  else
    match type with
    | none => (t, .error .esocktnosupport)
    | some type =>
      let r := packetArgs family type
      if r.1 = .raw ∧ (protocol < ipprotoIp ∨ ipprotoMax ≤ protocol) then (t, .error .einval)
      else
        match setProto cfg e r.1 (r.2 = .inet6) protocol t with
        | (t, .error err) => (t, .error err)
        | (t, .ok proto) => socketAdd cfg e r.1 proto r.2 t

/-! ## The other calls -/

/-- The local address of a socket is set. -/
def setLocal (fd : ℕ) (t : Table) : Table :=
  { t with skList := t.skList.map fun s => if s.fd = fd then { s with localAddr := true } else s }

/-- `accept` on a socket with a connection in its queue: `dup_bind` and `alloc_addr`. -/
def acceptCall (cfg : Config) (e : SockEnv) (addrOk rxOk : Bool) (fd : ℕ) (t : Table) : Table :=
  match t.find fd with
  | none => t
  | some s =>
    if s.soType ≠ .stream ∨ s.localAddr = false then t
    else
      match socketCall cfg e s.soFamily (some .stream) ipprotoTcp t with
      | (t, .error _) => t
      | (t, .ok newsock) => if addrOk then setLocal newsock t else sockDelFd cfg rxOk newsock t

/-- What `close_stream` finds: it was called before, it aborts (SO_ACCEPTCONN, or SO_LINGER with no
time), or neither. -/
inductive CloseHow
  | already | abort | lingers
  deriving DecidableEq

/-- `close_s`, but for the ticks of `close_stream`. -/
def closeS (cfg : Config) (rxOk : Bool) (how : CloseHow) (fd : ℕ) (t : Table) : Table :=
  match t.find fd with
  | none => t
  | some s =>
    match s.soType with
    | .packet | .raw => sockDelFd cfg rxOk fd t
    | .dgram => if s.localAddr then t else sockDelFd cfg rxOk fd t
    | .stream =>
      if how ≠ .already ∧ (how = .abort ∨ s.localAddr = false) then sockDelFd cfg rxOk fd t else t

/-- `sock_daemon`; `gone` tells which of the bound sockets `tcp_sock_daemon` or `udp_sock_daemon` finds
to be done with. -/
def sockDaemon (cfg : Config) (rxOk : Bool) (gone : ℕ → Bool) (t : Table) : Table :=
  t.skList.foldl (fun t s =>
    if t.inuse s.fd ∧ s.localAddr ∧ (s.soType = .stream ∨ s.soType = .dgram) ∧ gone s.fd then
      sockDelFd cfg rxOk s.fd t
    else t) t

/-! ## Frames -/

/-- The index after this one. -/
def Ring.next (q : Ring) (i : ℕ) : ℕ := if q.numBuf ≤ i + 1 then 0 else i + 1

/-- There is no room. -/
def Ring.full (q : Ring) : Bool := q.next q.inIndex = q.outIndex

/-- A frame is put into the ring, or dropped. -/
def Ring.take (q : Ring) (frame : List Byte) : Ring :=
  if q.full then { q with numDrop := q.numDrop + 1 }
  else { q with bufs := Function.update q.bufs q.inIndex frame, inIndex := q.next q.inIndex }

/-- `sock_packet_receive`: the oldest frame is read. -/
def Ring.read (q : Ring) : Ring := if q.inIndex = q.outIndex then q else { q with outIndex := q.next q.outIndex }

/-- The ring of a SOCK_PACKET socket. -/
def Socket.ring (s : Socket) : Option Ring := if s.soType = .packet then s.packetPool else none

/-- The socket takes a frame. -/
def Socket.takes (s : Socket) (frame : List Byte) : Socket :=
  if s.soType = .packet then { s with packetPool := s.packetPool.map fun q => q.take frame } else s

/-- The socket has room for a frame. -/
def Socket.hasRoom (s : Socket) : Bool := s.ring.any fun q => !q.full

/-- The application's own hook is called. -/
def callApp (frame : List Byte) (t : Table) : Table := { t with appGot := t.appGot ++ [frame] }

/-- `sock_packet_peek`. The hook that it goes on to is that of the last socket with room. -/
def sockPacketPeek (frame : List Byte) (t : Table) : Table :=
  let last := (t.skList.filter fun s => s.hasRoom).getLast?
  let t := { t with skList := t.skList.map fun s => s.takes frame }
  match last with
  | none => t
  | some s =>
    if s.oldEthPeek ≠ .null ∧ s.oldEthPeek ≠ t.ethRecvPeek then
      match s.oldEthPeek with
      | .app => callApp frame t
      | _ => t
    else t

/-- The call of `_eth_recv_peek` in `_eth_arrived`. -/
def ethArrived (frame : List Byte) (t : Table) : Table :=
  match t.ethRecvPeek with
  | .null => t
  | .app => callApp frame t
  | .peek => sockPacketPeek frame t

/-- `recv` on a SOCK_PACKET socket. -/
def receive (fd : ℕ) (t : Table) : Table :=
  { t with skList := t.skList.map fun s =>
      if s.fd = fd ∧ s.soType = .packet then { s with packetPool := s.packetPool.map Ring.read } else s }

/-! ## Multicast groups -/

/-- What the driver answers to `pkt_get_multicast_list` and `pkt_set_multicast_list`: success, no
multicast support or no space, or another error. -/
inductive ListAnswer
  | ok | noMulticast | error
  deriving DecidableEq

/-- `_eth_join_mcast_group`. -/
def ethJoinMcastGroup (ok : Bool) (answer : ListAnswer) (t : Table) : Table × Bool :=
  if rxmodeMulticast2 ≤ t.pktRxmode then (t, true)
  else
    let r := if t.pktRxmode < rxmodeMulticast1 then pktSetRcvMode ok rxmodeMulticast1 t else (t, true)
    if r.2 = false then pktSetRcvMode ok rxmodePromiscous t
    else
      match answer with
      | .ok => (r.1, true)
      | .noMulticast => pktSetRcvMode ok rxmodeMulticast2 r.1
      | .error => (r.1, false)

/-- `_eth_leave_mcast_group`. -/
def ethLeaveMcastGroup (ok : Bool) (answer : ListAnswer) (t : Table) : Table × Bool :=
  if rxmodeMulticast2 ≤ t.pktRxmode then (t, true)
  else
    match answer with
    | .ok => (t, true)
    | .noMulticast => pktSetRcvMode ok rxmodeMulticast2 t
    | .error => (t, false)

/-- `join_mcast_group`. -/
def joinMcastGroup (e : Igmp.CallEnv) (ok : Bool) (answer : ListAnswer) (ip : Dword) (t : Table) : Table :=
  if Igmp.linkJoins e ip t.groups then
    let r := ethJoinMcastGroup ok answer t
    { r.1 with groups := (Igmp.joinMcastGroup { e with linkOk := r.2 } ip t.groups).1 }
  else { t with groups := (Igmp.joinMcastGroup e ip t.groups).1 }

/-- `leave_mcast_group`. -/
def leaveMcastGroup (e : Igmp.CallEnv) (ok : Bool) (answer : ListAnswer) (ip : Dword) (t : Table) : Table :=
  let groups := (Igmp.leaveMcastGroup e ip t.groups).1
  if groups.linkLeft ≠ t.groups.linkLeft then
    { (ethLeaveMcastGroup ok answer t).1 with groups := groups }
  else { t with groups := groups }

/-! ## The machine -/

/-- What happens. -/
inductive Op
  | socket (e : SockEnv) (family : Family) (type : Option SockType) (protocol : ℤ)
  | accept (e : SockEnv) (addrOk rxOk : Bool) (fd : ℕ)
  | setLocal (fd : ℕ)
  | close (rxOk : Bool) (how : CloseHow) (fd : ℕ)
  | daemon (rxOk : Bool) (gone : ℕ → Bool)
  | frame (data : List Byte)
  | receive (fd : ℕ)
  | join (e : Igmp.CallEnv) (ok : Bool) (answer : ListAnswer) (ip : Dword)
  | leave (e : Igmp.CallEnv) (ok : Bool) (answer : ListAnswer) (ip : Dword)

/-- One step. -/
def step (cfg : Config) (t : Table) : Op → Table
  | .socket e family type protocol => (socketCall cfg e family type protocol t).1
  | .accept e addrOk rxOk fd => acceptCall cfg e addrOk rxOk fd t
  | .setLocal fd => setLocal fd t
  | .close rxOk how fd => closeS cfg rxOk how fd t
  | .daemon rxOk gone => sockDaemon cfg rxOk gone t
  | .frame data => ethArrived data t
  | .receive fd => receive fd t
  | .join e ok answer ip => joinMcastGroup e ok answer ip t
  | .leave e ok answer ip => leaveMcastGroup e ok answer ip t

end Watt32.Sk
