import Watt32.Bsd.Stack

/-!
# The state of a stream socket

The fields of a `Socket` that the calls on a stream socket look at.

* `Errno`, `SoState`, `SockAddr`, `StreamSocket`: the data.
* `Stack.stream`: a socket of the stack, with its control blocks.
* `sockPendingConnect`, `stillConnecting`: the progress of a non-blocking `connect`.
-/

namespace Watt32.Bsd

open Tcp (Conn TcpState)

/-- The error numbers of these calls. -/
inductive Errno
  | eaddrinuse | eaddrnotavail | eafnosupport | ealready | econnrefused | econnreset | einprogress
  | einval | eio | eintr | eisconn | enetdown | enetunreach | ehostunreach | enomem | enotconn
  | eopnotsupp | epipe | etimedout | ewouldblock
  deriving DecidableEq, Repr

/-- An address of either family. -/
inductive IpAddr
  | ip4 (addr : Dword)
  | ip6 (addr : Ip6Address)
  deriving DecidableEq, Repr

/-- `sockaddr_in` and `sockaddr_in6`. -/
structure SockAddr where
  addr : IpAddr
  port : Word
  deriving DecidableEq, Repr

/-- The `SS_XXX` bits of `so_state` that these calls use. -/
structure SoState where
  unconnected : Bool := false
  isConnected : Bool := false
  isConnecting : Bool := false
  isDisconnecting : Bool := false
  cantSendMore : Bool := false
  cantRcvMore : Bool := false
  priv : Bool := false
  nbio : Bool := false
  isListening : Bool := false
  connRefused : Bool := false
  deriving DecidableEq, Repr

/-- A stream socket: its control block is in `tcp`, those of its listen-queue are in the slots. -/
structure StreamSocket where
  tcp : Conn
  localAddr : Option SockAddr
  remoteAddr : Option SockAddr
  soState : SoState
  soAcceptconn : Bool
  soError : Option Errno
  nbTimer : Dword
  recvLowat : Dword
  backlog : ℤ
  listenQueue : ℤ → Option Conn

/-- The socket `fd` of the stack, bound to `addr` and listening, with the default options. -/
def Stack.stream (st : Stack) (fd : ℕ) (addr : SockAddr) : StreamSocket where
  tcp := (st.tcbs (st.socks fd).tcpSock).conn
  localAddr := some addr
  remoteAddr := none
  soState := { unconnected := true, isListening := true }
  soAcceptconn := (st.socks fd).soAcceptconn
  soError := none
  nbTimer := 0
  recvLowat := 0
  backlog := (st.socks fd).backlog
  listenQueue := fun idx => ((st.socks fd).listenQueue idx).map fun i => (st.tcbs i).conn

/-- `_sock_pending_connect`. -/
def sockPendingConnect (e : Tcp.Env) (sk : StreamSocket) : StreamSocket × Bool :=
  if sk.tcp.s.state = .estab then
    ({ sk with soState := { sk.soState with
        isConnecting := false, unconnected := false, isConnected := true } }, false)
  else if sk.soError ≠ none then
    ({ sk with soState := { sk.soState with isConnecting := false } }, false)
  else if Tcp.chkTimeout e sk.nbTimer then
    ({ sk with soState := { sk.soState with isConnecting := false }, soError := some .etimedout },
      false)
  else if TcpState.estab.code < sk.tcp.s.state.code then
    ({ sk with soState := { sk.soState with isConnecting := false }, soError := some .econnrefused },
      false)
  else ({ sk with tcp := sk.tcp.upd fun s => { s with timeout := 0 } }, true)

/-- `still_connecting`. -/
def stillConnecting (e : Tcp.Env) (sk : StreamSocket) : StreamSocket × Bool :=
  if sk.soState.isConnecting then sockPendingConnect e sk else (sk, false)

end Watt32.Bsd
