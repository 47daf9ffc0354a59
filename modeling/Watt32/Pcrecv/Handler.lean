import Watt32.Lib.Mem
import Mathlib.Tactic

/-!
# The alternative receive handlers

`pcrecv.c`: `sock_recvdaemon` gets the data of a socket, `sock_recv_from` hands it to the caller, and both keep it in
the space that was given to `sock_recv_init`.

* `RecvBuf`, `Sock`: the data.
* `sockRecvdaemon`, `sockRecvUsed`, `sockRecvInit`, `sockRecvFrom`, `sockRecv`: the functions.
-/

namespace Watt32.Pcrecv

abbrev Byte := BitVec 8
abbrev Word := BitVec 16
abbrev Dword := BitVec 32

/-- `RECV_USED` and `RECV_UNUSED`. -/
def recvUsed : Dword := 0xF7E3D2B1
def recvUnused : Dword := 0xE6D2C1AF

/-- `ETH_MAX`, the size of `buf_data`. -/
def ethMax : ℕ := 1514

/-- `recv_buf`. -/
structure RecvBuf where
  bufSig : Dword := 0
  bufHisip : Dword := 0
  bufSeqnum : ℤ := 0
  bufHisip6 : List Byte := List.replicate 16 0
  bufHisport : Word := 0
  bufLen : ℤ := 0
  bufData : ℕ → Byte := fun _ => 0

/-- `ip_type`. -/
inductive IpType
  | udp | tcp | other
  deriving DecidableEq, Repr

/-- The fields of the socket and of its `recv_data`. The space of the caller is an array of `recv_buf` for UDP, and
bytes for TCP. -/
structure Sock where
  ipType : IpType
  isIp6 : Bool := false
  maxRxData : ℕ := 0
  rxDatalen : ℕ := 0
  recvSig : Dword := 0
  bufs : List RecvBuf := []
  space : ℕ → Byte := fun _ => 0

/-- Some data with what `ph` and `udp` point to: the sender's address and port. -/
structure Arrival where
  phSrc : Dword := 0
  ph6Src : List Byte := []
  srcPort : Word := 0
  data : List Byte

/-- What the daemon leaves: the socket, `seq_num`, the result and what it prints. -/
structure Upcall where
  sock : Sock
  seqNum : ℤ
  ret : ℕ := 0
  printed : Option String := none

/-- A datagram in a buffer. -/
def RecvBuf.fill (p : RecvBuf) (isIp6 : Bool) (seqNum : ℤ) (d : Arrival) : RecvBuf :=
  let len := min d.data.length ethMax
  { bufSig := recvUsed
    bufHisport := d.srcPort
    bufSeqnum := seqNum
    bufHisip6 := if isIp6 then d.ph6Src else p.bufHisip6
    bufHisip := if isIp6 then p.bufHisip else d.phSrc
    bufData := if 0 < len then Mem.put p.bufData 0 (d.data.take len) else p.bufData
    bufLen := if 0 < len then len else -1 }

/-- The loop for an unused buffer: the buffers, `seq_num` and what is printed. -/
def findUnused (isIp6 : Bool) (seqNum : ℤ) (d : Arrival) : List RecvBuf → List RecvBuf × ℤ × Option String
  | [] => ([], seqNum, none)
  | p :: rest =>
    if p.bufSig = recvUsed then
      let r := findUnused isIp6 seqNum d rest
      (p :: r.1, r.2)
    else if p.bufSig = recvUnused then (p.fill isIp6 seqNum d :: rest, seqNum + 1, none)
    else (p :: rest, seqNum, some "ERROR: sock_recv_daemon data err")

/-- `sock_recvdaemon`. -/
def sockRecvdaemon (s : Sock) (seqNum : ℤ) (d : Arrival) : Upcall :=
  match s.ipType with
  | .udp =>
    if s.recvSig ≠ recvUsed then { sock := s, seqNum := seqNum, printed := some "ERROR: udp recv data conflict" }
    else
      let r := findUnused s.isIp6 seqNum d s.bufs
      { sock := { s with bufs := r.1 }, seqNum := r.2.1, printed := r.2.2 }
  | .tcp =>
    if s.recvSig ≠ recvUsed then { sock := s, seqNum := seqNum, printed := some "ERROR: tcp recv data conflict" }
    else
      -- `i` is unsigned
      let i := (s.maxRxData + 2 ^ 32 - s.rxDatalen) % 2 ^ 32
      if 1 < i then
        let len := min d.data.length i
        { sock := { s with
            space := Mem.put s.space s.rxDatalen (d.data.take len)
            rxDatalen := s.rxDatalen + len }
          seqNum := seqNum
          ret := len }
      else { sock := s, seqNum := seqNum }
  | .other => { sock := s, seqNum := seqNum }

/-- `sock_recv_used`, for a socket that `_chk_socket` finds valid. -/
def sockRecvUsed (s : Sock) : ℤ :=
  match s.ipType with
  | .udp =>
    if s.recvSig ≠ recvUsed then -1
    else (s.bufs.map fun p => if p.bufSig = recvUsed then |p.bufLen| else 0).sum
  | .tcp => if s.recvSig ≠ recvUsed then -1 else s.rxDatalen
  | .other => 0

/-- `sock_recv_init (s, space, len)`, with `sizeof(recv_buf)`. -/
def sockRecvInit (sizeofRecvBuf : ℕ) (s : Sock) (space : ℕ → Byte) (len : ℕ) : Sock :=
  { s with
    recvSig := recvUsed
    bufs := List.replicate (len / sizeofRecvBuf % 2 ^ 16) { bufSig := if s.ipType = .udp then recvUnused else 0 }
    space := fun i => if i < len then 0 else space i }

/-- An address behind `hisip`. -/
inductive Addr
  | ip4 (ip : Dword)
  | ip6 (ip : List Byte)
  deriving DecidableEq, Repr

/-- What the pointers of the caller lead to; `hisip` and `hisport` may be NULL. -/
structure Out where
  buffer : ℕ → Byte
  hisip : Option Addr := none
  hisport : Option Word := none

/-- What `sock_recv_from` leaves: the socket, the result, what the caller has, `errno` and what is printed. -/
structure Received where
  sock : Sock
  ret : ℤ
  out : Out
  ebadf : Bool := false
  printed : Option String := none

/-- The loop for the oldest used buffer, from number `i` on; `none` when a signature is neither. -/
def findOldest : List RecvBuf → (i : ℕ) → (seqnum : ℤ) → (oldest : Option ℕ) → Option (Option ℕ)
  | [], _, _, oldest => some oldest
  | p :: rest, i, seqnum, oldest =>
    if p.bufSig = recvUnused then findOldest rest (i + 1) seqnum oldest
    else if p.bufSig = recvUsed then
      if p.bufSeqnum < seqnum then findOldest rest (i + 1) p.bufSeqnum (some i)
      else findOldest rest (i + 1) seqnum oldest
    else none

/-- The sender of a datagram in a buffer. -/
def RecvBuf.sender (p : RecvBuf) (isIp6 : Bool) : Addr := if isIp6 then .ip6 p.bufHisip6 else .ip4 p.bufHisip

/-- A datagram is handed over from buffer number `i`. -/
def handOver (s : Sock) (out : Out) (len : ℕ) (peek : Bool) (i : ℕ) : Received :=
  let p := s.bufs.getD i {}
  let n := min p.bufLen.toNat len
  { sock := if peek then s else { s with bufs := s.bufs.modify i fun p => { p with bufSig := recvUnused } }
    ret := if p.bufLen < 0 then -1 else n
    out :=
      { buffer := if p.bufLen < 0 then out.buffer else Mem.blit out.buffer 0 p.bufData 0 n
        hisip := out.hisip.map fun _ => p.sender s.isIp6
        hisport := out.hisport.map fun _ => p.bufHisport } }

/-- `sock_recv_from`, with `LONG_MAX`. -/
def sockRecvFrom (longMax : ℤ) (s : Sock) (out : Out) (len : ℕ) (peek : Bool) : Received :=
  if s.recvSig ≠ recvUsed then { sock := s, ret := -1, out := out, ebadf := true }
  else
    match s.ipType with
    | .udp =>
      match findOldest s.bufs 0 longMax none with
      | none => { sock := s, ret := 0, out := out, printed := some "ERROR: sock_recv_init data err" }
      | some none => { sock := s, ret := 0, out := out }
      | some (some i) => handOver s out len peek i
    | .tcp =>
      let len := min len s.rxDatalen
      { sock := s, ret := len, out := { out with buffer := Mem.blit out.buffer 0 s.space 0 len } }
    | .other => { sock := s, ret := 0, out := out }

/-- `sock_recv`. -/
def sockRecv (longMax : ℤ) (s : Sock) (buffer : ℕ → Byte) (len : ℕ) : Received :=
  sockRecvFrom longMax s { buffer := buffer } len false

end Watt32.Pcrecv
