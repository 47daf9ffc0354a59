import Mathlib.Data.BitVec
import Watt32.Lib.Mem

/-!
# The TCP control block

The data of `wattcp.h` that the TCP code reads and writes, for a 32-bit Windows build (`int`,
`long` and pointers of 32 bits, `DOSX` on, `__MSDOS__` off, `USE_TCP_MD5` on) whose socket uses
IPv4 and the native API (`_bsd_socket_hook` is null).

* `TcpState`, `TcpFlags`, `LocFlags`: states and flag bits.
* `TcpHeader`, `InSegment`, `OutSegment`: segments as received and as sent.
* `RxBuf`, `TxBuf`, `Rtt`, `TcpSocket`: the control block, grouped by concern.
* `Config`, `Env`: the configurable variables, and what one event takes from outside the library.
* `Conn`: a control block with the record of what it sent and of what its user handed over.
-/

namespace Watt32

abbrev Byte := BitVec 8
abbrev Word := BitVec 16
abbrev Dword := BitVec 32

namespace Tcp

/-- The connection states, in the order of their codes. -/
inductive TcpState
  | listen | resolve | synsent | synrec | estab | estcl | finwt1 | finwt2 | closwt | closing
  | lastack | timewt | closed
  deriving DecidableEq, Repr

/-- `tcp_StateXXX`. -/
def TcpState.code : TcpState → ℕ
  | listen => 0 | resolve => 1 | synsent => 2 | synrec => 3 | estab => 4 | estcl => 5
  | finwt1 => 6 | finwt2 => 7 | closwt => 8 | closing => 9 | lastack => 10 | timewt => 11
  | closed => 12

/-- The flag bits of a TCP header inside `tcp_FlagMASK`. -/
structure TcpFlags where
  fin : Bool := false
  syn : Bool := false
  rst : Bool := false
  push : Bool := false
  ack : Bool := false
  urg : Bool := false
  deriving DecidableEq, Repr

/-- `flag_SYN_ACK`. -/
def flagSynAck : TcpFlags := { syn := true, ack := true }

/-- `flag_FIN_ACK`. -/
def flagFinAck : TcpFlags := { fin := true, ack := true }

/-- `flags &= tcp_FlagPUSH; flags |= tcp_FlagACK`. -/
def TcpFlags.keepPushAck (f : TcpFlags) : TcpFlags := { push := f.push, ack := true }

/-- The `LF_XXX` bits of `locflags` the TCP code uses. -/
structure LocFlags where
  winupdate : Bool := false
  noopt : Bool := false
  keepalive : Bool := false
  linger : Bool := false
  rcvtimeo : Bool := false
  gotFin : Bool := false
  gotPush : Bool := false
  useTstamp : Bool := false
  rcvdScale : Bool := false
  isServer : Bool := false
  sackPermit : Bool := false
  deriving DecidableEq, Repr

/-- `tcp_Header`, without the fields nothing here reads (`checksum`, `urgent`). -/
structure TcpHeader where
  srcPort : Word
  dstPort : Word
  seqnum : Dword
  acknum : Dword
  offset : BitVec 4
  flags : TcpFlags
  window : Word
  deriving DecidableEq, Repr

/-- A received segment: the fields of its IP header, the length of header and data the IP header
states, and the memory from the first byte of the TCP header on (whatever lies behind the segment
included). `flagsHi` are the two flag bits outside `tcp_FlagMASK`. -/
structure InSegment where
  source : Dword
  destination : Dword
  tos : Byte
  hdr : TcpHeader
  flagsHi : BitVec 2
  tcpLen : Word
  mem : ℕ → Byte

/-- A segment handed to `_ip4_output`: its header and the bytes behind the first 20. -/
structure OutSegment where
  hdr : TcpHeader
  body : List Byte
  deriving DecidableEq, Repr

/-- One `memcpy` into the receive buffer: target index, source index in the segment, length. -/
structure Memcpy where
  dst : ℕ
  src : ℕ
  len : ℕ
  deriving DecidableEq, Repr

/-- The receive side. `rxDatalen` is the bit pattern of an `int`; `copies` records every `memcpy`
of the last `tcp_process_data` into the buffer. -/
structure RxBuf where
  rxData : ℕ → Byte
  rxDatalen : Dword
  maxRxData : Dword
  recvNext : Dword
  missedSeq0 : Dword
  missedSeq1 : Dword
  copies : List Memcpy

/-- Where `tx_data` points to: `tx_buf[]`, a buffer from `tcp_set_window`, or nowhere. -/
inductive TxLoc
  | txBuf | heap | null
  deriving DecidableEq, Repr

/-- The transmit buffer. -/
structure TxBuf where
  txData : ℕ → Byte
  txLoc : TxLoc
  txDatalen : Dword
  maxTxData : Dword
  txQueue : ℕ → Byte
  txQueuelen : Dword
  sendNext : Dword

/-- Round-trip timing, retransmission and time stamps. -/
structure Rtt where
  recent : Bool := false
  cwindow : Byte := 1
  wwindow : Byte := 0
  vjSa : Dword := 220
  vjSd : Dword := 0
  vjLast : Dword := 0
  rto : Dword := 0
  karnCount : Byte := 0
  rttTime : Dword := 0
  rttLasttran : Dword := 0
  tsSent : Dword := 0
  deriving DecidableEq, Repr

/-- A `ProtoHandler` of a TCP socket: the number it returns for the data it is given. -/
abbrev ProtoHandler := List Byte → Dword

/-- `_tcp_Socket`. -/
structure TcpSocket where
  ipType : ℕ
  tos : Byte
  stress : Byte
  nagle : Bool
  localMode : Bool
  protoHandler : Option ProtoHandler
  hisaddr : Dword
  hisport : Word
  myaddr : Dword
  myport : Word
  locflags : LocFlags
  rx : RxBuf
  state : TcpState
  timeout : Dword
  unhappy : Bool
  flags : TcpFlags
  window : Dword
  advWin : Dword
  rtt : Rtt
  tsRecent : Dword
  tsEcho : Dword
  maxSeg : Dword
  secret : Option (List Byte)
  inactiveTo : Dword
  datatimer : Dword
  rxWscale : Byte
  sendUna : ℤ
  tx : TxBuf

/-- The variables `wattcp.cfg` sets, and the two functions of the environment the code calls:
the MD5 signature bytes of a segment and the RTT cache. -/
structure Config where
  mss : Dword := 1460
  nagle : Bool := true
  optTs : Bool := false
  sockDelay : Dword := 30
  sockInactive : Dword := 0
  sockDataTimeout : Dword := 0
  openTo : Dword := 1000
  closeTo : Dword := 1000
  rtoAdd : Dword := 100
  rtoBase : Dword := 10
  rtoScale : Dword := 64
  maxVjsa : Dword := 60000
  maxVjsd : Dword := 20000
  startTime : Dword := 0
  md5 : List Byte → TcpHeader → List Byte → ℕ → Byte := fun _ _ _ _ => 0

/-- What one event takes from outside: the clock, `INIT_SEQ`, what the transmit buffer holds when
a send starts, a `malloc`, the ARP and RTT caches, and whether a reset may be sent now. -/
structure Env where
  cfg : Config := {}
  now : Dword := 1
  isn : Dword := 0
  pkt : ℕ → ℕ → Byte := fun _ _ => 0
  heap : Option (ℕ → Byte) := none
  arpResolved : Bool := true
  arpPending : Bool := false
  rttCached : Option Dword := none
  rstAllowed : Bool := true

/-- One call of `_tcp_send`: the control block on entry and the segments that went out. -/
structure SendCall where
  entry : TcpSocket
  segs : List OutSegment

/-- A control block with its surroundings: whether it is in `_tcp_allsocs`, the outcomes of the
next `_ip4_output` calls (`true` once the list is used up), the calls of `_tcp_send` of this
connection and the resets sent. The last three fields are ghosts: our initial sequence number, the bytes
`tcp_write` took over and the number of bytes the peer acknowledged. -/
structure Conn where
  s : TcpSocket
  threaded : Bool
  txOk : List Bool
  calls : List SendCall
  resets : List TcpHeader
  iss : Dword
  accepted : List Byte
  acked : ℕ

/-- Change the control block only. -/
def Conn.upd (c : Conn) (f : TcpSocket → TcpSocket) : Conn := { c with s := f c.s }

/-- Change the timing only. -/
def Conn.updRtt (c : Conn) (f : Rtt → Rtt) : Conn := c.upd fun s => { s with rtt := f s.rtt }

section Upd

variable (c : Conn) (f : TcpSocket → TcpSocket)

@[simp] theorem Conn.upd_s : (c.upd f).s = f c.s := rfl
@[simp] theorem Conn.upd_threaded : (c.upd f).threaded = c.threaded := rfl
@[simp] theorem Conn.upd_txOk : (c.upd f).txOk = c.txOk := rfl
@[simp] theorem Conn.upd_calls : (c.upd f).calls = c.calls := rfl
@[simp] theorem Conn.upd_resets : (c.upd f).resets = c.resets := rfl
@[simp] theorem Conn.upd_iss : (c.upd f).iss = c.iss := rfl
@[simp] theorem Conn.upd_accepted : (c.upd f).accepted = c.accepted := rfl
@[simp] theorem Conn.upd_acked : (c.upd f).acked = c.acked := rfl

end Upd

/-! ## Protocol numbers, timers and sequence comparison -/

/-- `TCP_PROTO`. -/
def tcpProto : ℕ := 6

/-- `INIT_VJSA`. -/
def initVjsa : Dword := 220

/-- `tcp_TIMEOUT`. -/
def tcpTimeout : Dword := 13000

/-- `tcp_LASTACK_TIME`. -/
def tcpLastackTime : Dword := 10000

/-- `tcp_TIMEWT_TO`. -/
def tcpTimewtTo : Dword := 2000

/-- `MAX_WINDOW`. -/
def maxWindow : Dword := 65536

/-- `tcp_MaxBufSize`. -/
def tcpMaxBufSize : Dword := 2048

/-- `set_timeout`: never 0. -/
def setTimeout (e : Env) (msec : Dword) : Dword :=
  let ret := e.now + msec
  if ret = 0 then 1 else ret

/-- `chk_timeout`. -/
def chkTimeout (e : Env) (value : Dword) : Bool :=
  if value = 0 then false else value ≤ setTimeout e 0

/-- `SEQ_LT`. -/
def seqLt (a b : Dword) : Bool := (a - b).toInt < 0

/-- `SEQ_LEQ`. -/
def seqLeq (a b : Dword) : Bool := (a - b).toInt ≤ 0

/-- `SEQ_GT`. -/
def seqGt (a b : Dword) : Bool := 0 < (a - b).toInt

/-- `SEQ_GEQ`. -/
def seqGeq (a b : Dword) : Bool := 0 ≤ (a - b).toInt

theorem seqLt_iff {a b : Dword} : seqLt a b = true ↔ 2 ^ 31 ≤ (a - b).toNat := by
  rw [seqLt, decide_eq_true_iff, BitVec.toInt_neg_iff]; omega

theorem seqGeq_iff {a b : Dword} : seqGeq a b = true ↔ (a - b).toNat < 2 ^ 31 := by
  rw [seqGeq, decide_eq_true_iff, BitVec.toInt_pos_iff]; omega

theorem seqGt_iff {a b : Dword} :
    seqGt a b = true ↔ 0 < (a - b).toNat ∧ (a - b).toNat < 2 ^ 31 := by
  rw [seqGt, decide_eq_true_iff, BitVec.toInt_eq_toNat_cond]
  split_ifs <;> omega

end Tcp

end Watt32
