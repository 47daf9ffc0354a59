import Mathlib.Logic.Relation
import Watt32.Tcp.Segments

/-!
# Our half of a connection

* `Half`: what matters of a control block for the stream it sends: state, FIN flag, numbers, the
  bytes waiting, and the record of what was taken over and acknowledged.
* `Half.Next`: the steps it can take. Every law about the stream we send is an invariant of these.
* `Move`: a step of the half, a call of `_tcp_send`, an abort or a restart of a server.
* **`moves_invariant`**: what every move keeps holds after all of them.
-/

namespace Watt32.Tcp

/-- Our half of a connection. `pending` is `tx_data[0..tx_datalen)`. -/
structure Half where
  state : TcpState
  fin : Bool
  sendNext : Dword
  pending : List Byte
  maxTx : ℕ
  queued : Dword
  una : ℤ
  recvNext : Dword
  iss : Dword
  accepted : List Byte
  acked : ℕ

/-- The half of a control block. -/
def Conn.half (c : Conn) : Half where
  state := c.s.state
  fin := c.s.flags.fin
  sendNext := c.s.tx.sendNext
  pending := Mem.slice c.s.tx.txData 0 c.s.tx.txDatalen.toNat
  maxTx := c.s.tx.maxTxData.toNat
  queued := c.s.tx.txQueuelen
  una := c.s.sendUna
  recvNext := c.s.rx.recvNext
  iss := c.iss
  accepted := c.accepted
  acked := c.acked

/-- Before the connection is established. -/
def TcpState.early (st : TcpState) : Prop :=
  st = .listen ∨ st = .resolve ∨ st = .synsent ∨ st = .synrec

/-- The pending bytes fit, with room for one more. -/
def Half.Fits (h : Half) : Prop := h.pending.length < h.maxTx ∧ h.maxTx < 2 ^ 16

/-- What the environment may do: close in SYNREC, with which numbers of the peer SYNREC and ESTAB
are entered, and at which `send_una` a server is reset. -/
structure Allow where
  closeSynrec : Prop
  enter : Dword → Prop
  restart : ℤ → Prop

/-- The steps of our half. -/
inductive Half.Next (A : Allow) (h : Half) : Half → Prop
  | rewind : Next A h { h with una := 0 }
  | grow (m : ℕ) (hm : h.maxTx ≤ m) (hlt : m < 2 ^ 16) : Next A h { h with maxTx := m }
  | receive (r : Dword) (hs : ¬ h.state.early) : Next A h { h with recvNext := r }
  | plain : Next A h { h with fin := false }
  | ack (k : ℕ) (p : List Byte) (q : Dword) (u : ℤ)
      (hs : h.state = .estab ∨ h.state = .estcl ∨ h.state = .closwt ∨ h.state = .finwt1)
      (hk : k ≤ h.pending.length) (hq : h.queued = 0 → q = 0)
      (hp : h.Fits → h.queued = 0 → p = h.pending.drop k)
      (hlen : h.Fits → p.length = h.pending.length - k) (hnil : h.pending = [] → p = [])
      (hu : 0 ≤ u) (hul : h.Fits → h.una ≤ h.pending.length → u ≤ p.length) :
      Next A h { h with
        sendNext := h.sendNext + BitVec.ofNat 32 k, pending := p, acked := h.acked + k, queued := q
        una := u }
  | write (data p : List Byte) (hs : h.state = .estab)
      (hp : h.Fits → p = h.pending ++ data ∧ p.length < h.maxTx) :
      Next A h { h with pending := p, accepted := h.accepted ++ data }
  | resolved (hs : h.state = .resolve) : Next A h { h with state := .synsent }
  | enterSynrec (r : Dword) (hs : h.state = .listen ∨ h.state = .synsent) (hA : A.enter r) :
      Next A h { h with state := .synrec, recvNext := r, fin := false }
  | reseed (isn : Dword) (hs : h.state = .synsent) :
      Next A h { h with sendNext := isn, iss := isn, fin := false }
  | establish (r : Dword) (hs : h.state = .synsent ∨ h.state = .synrec ∧ r = h.recvNext)
      (hA : A.enter r) :
      Next A h { h with state := .estab, sendNext := h.sendNext + 1, recvNext := r, fin := false }
  | lastack (hs : h.state = .estab ∨ h.state = .estcl ∨ h.state = .closwt) :
      Next A h { h with state := .lastack, fin := true }
  | finAgain (hs : h.state = .lastack) : Next A h { h with fin := true }
  | closeNow (hs : h.state = .estab ∨ h.state = .estcl ∨ h.state = .synrec ∧ A.closeSynrec)
      (hp : h.pending = []) : Next A h { h with state := .finwt1, fin := true }
  | closeLater (hs : h.state = .estab ∨ h.state = .estcl ∨ h.state = .synrec)
      (hp : h.pending ≠ []) : Next A h { h with state := .estcl }
  | finAcked (st : TcpState) (b : Bool)
      (hs : h.state = .finwt1 ∧ st = .finwt2 ∨
        (h.state = .finwt1 ∨ h.state = .closing) ∧ st = .timewt) :
      Next A h { h with state := st, sendNext := h.sendNext + 1, fin := b }
  | bothClosing (hs : h.state = .finwt1) : Next A h { h with state := .closing, fin := false }
  | peerDone (hs : h.state = .finwt2) : Next A h { h with state := .timewt, fin := false }
  | shut (p : List Byte) (hp : p = h.pending ∨ p = []) :
      Next A h { h with state := .closed, pending := p }

/-- What a control block does to its half and to the record of its calls. -/
inductive Move (A : Allow) (c c' : Conn) : Prop
  | quiet (h : c'.half = c.half) (hc : c'.calls = c.calls)
  | next (h : c.half.Next A c'.half) (hc : c'.calls = c.calls)
  | call (e : Env) (u : ℤ) (hu : 0 ≤ c.half.una → 0 ≤ u)
      (hul : c.half.una ≤ c.half.pending.length → u ≤ c.half.pending.length)
      (h : c'.half = { c.half with una := u })
      (hc : c'.calls = c.calls ++ [⟨c.s, (sendTurns e c).1.segs⟩])
  | abort (n : Dword) (b : Bool) (u : ℤ) (hu : 0 ≤ c.half.una → 0 ≤ u)
      (h : c'.half = { c.half with
        state := .closed, sendNext := n, fin := b, pending := [], una := u })
      (hc : ∃ e new, c'.calls = c.calls ++ new ∧
        ∀ k ∈ new, (0 ≤ c.half.una → 0 ≤ k.entry.sendUna) ∧ k.entry.flags.fin = false ∧
          k.entry.tx.txDatalen = 0 ∧ k.Emitted e)
  | restart (hA : A.restart c.half.una) (h : c'.half = { c.half with
        state := .listen, pending := [], iss := c.half.sendNext, accepted := [], acked := 0 })
      (hc : c'.calls = [])

/-- Any number of moves. -/
def Moves (A : Allow) (c c' : Conn) : Prop := Relation.ReflTransGen (Move A) c c'

section Moves

variable {A : Allow} {c c' c'' : Conn}

/-- **The invariant rule for moves.** -/
theorem moves_invariant {I : Conn → Prop} (hmove : ∀ c c', I c → Move A c c' → I c')
    (h : Moves A c c') (hinv : I c) : I c' := by
  induction h with
  | refl => exact hinv
  | tail _ hstep ih => exact hmove _ _ ih hstep

theorem Moves.refl : Moves A c c := Relation.ReflTransGen.refl

theorem Moves.trans (h : Moves A c c') (h' : Moves A c' c'') : Moves A c c'' :=
  Relation.ReflTransGen.trans h h'

theorem Moves.tail (h : Moves A c c') (h' : Move A c' c'') : Moves A c c'' :=
  Relation.ReflTransGen.tail h h'

theorem Moves.quiet (h : c'.half = c.half) (hc : c'.calls = c.calls) : Moves A c c' :=
  Relation.ReflTransGen.single (.quiet h hc)

theorem Moves.next {h' : Half} (h : c.half.Next A h') (hh : c'.half = h')
    (hc : c'.calls = c.calls) : Moves A c c' :=
  Relation.ReflTransGen.single (.next (hh ▸ h) hc)

theorem sendSize_le (s : TcpSocket) : sendSize s ≤ s.tx.txDatalen.toNat := by
  have hle : ∀ x : Dword, x.toInt ≤ x.toNat := fun x => by
    rw [BitVec.toInt_eq_toNat_cond]; split_ifs <;> omega
  unfold sendSize int
  split_ifs with h
  · exact hle _
  · have := BitVec.le_def.mp (BitVec.not_lt.mp h)
    exact (hle _).trans (by omega)

/-- Where the data of a call end. -/
theorem sendTurns_startData (e : Env) (c : Conn) :
    sendFrom c.s ≤ (sendTurns e c).1.startData ∧
      (sendTurns e c).1.startData ≤ max (sendFrom c.s) (sendSize c.s) := by
  obtain ⟨m, -, hl, -⟩ := @sendLoop_turns e true (sendStart c.s (e.pkt c.calls.length))
    c.s.rtt.cwindow.toNat c.txOk
  have hmin : ∀ m, min (sendTotal c.s) 0 ≤
      (turns e true (sendStart c.s (e.pkt c.calls.length)) m).sendTotData := by
    intro m
    induction m with
    | zero => exact min_le_left _ _
    | succ m ih =>
      rw [turns, sendSegment_sendTotData]
      rcases le_or_gt (turnData e (turns e true (sendStart c.s (e.pkt c.calls.length)) m)
        (true && m == 0)) 0 with h | h
      · omega
      · have := (turnData_le h).1
        omega
  have hat := @atTurn_turns e c.s (e.pkt c.calls.length) m
  have htot := hat.total
  have hleft := hat.left
  have hm := hmin m
  rw [sendTurns, hl]
  rcases le_or_gt (sendTotal c.s) 0 with h | h
  · omega
  · have := sendTotal_pos h
    omega

/-- The half is a part of the core, of `send_una` and of the record. -/
theorem half_of_core (hcore : c'.s.core = c.s.core) (hiss : c'.iss = c.iss)
    (haccepted : c'.accepted = c.accepted) (hacked : c'.acked = c.acked) :
    c'.half = { c.half with una := c'.s.sendUna } := by
  have h : ∀ c : Conn, c.half = { Conn.half { c with s := c.s.core } with una := c.s.sendUna } :=
    fun _ => rfl
  rw [h c', h c, hcore]
  unfold Conn.half
  dsimp only
  rw [hiss, haccepted, hacked]

theorem sendSegment_sendUna {e : Env} {l : SendLoop} {first : Bool} :
    (sendSegment e l first).s.sendUna = l.s.sendUna := by
  have h : (sendOptions e l first).s.sendUna = l.s.sendUna := by
    unfold sendOptions tcpOptions optionsUnsigned
    split_ifs <;> cases l.s.secret <;> rfl
  rw [← h]
  unfold sendSegment
  dsimp only
  split_ifs <;> rfl

theorem sendTurns_sendUna (e : Env) (c : Conn) : (sendTurns e c).1.s.sendUna = c.s.sendUna := by
  obtain ⟨m, -, hl, -⟩ := @sendLoop_turns e true (sendStart c.s (e.pkt c.calls.length))
    c.s.rtt.cwindow.toNat c.txOk
  rw [sendTurns, hl]
  clear hl
  induction m with
  | zero => rfl
  | succ m ih => rw [turns, sendSegment_sendUna, ih]

theorem afterTurns_half (e : Env) (c : Conn) : (afterTurns e c).half = c.half := by
  have h : (afterTurns e c).half = _ := half_of_core (c := c) sendTurns_core rfl rfl rfl
  rw [h]
  unfold afterTurns
  dsimp only
  rw [sendTurns_sendUna]
  rfl

/-- **Sending** is a number of calls. -/
theorem tcpSend_moves (e : Env) (h : Moves A c c') :
    Moves A c (tcpSend e c').1 ∧ Moves A c (tcpSendsoon e c').1 := by
  refine sending_rule (P := Moves A c) (fun c' hc => ?_) (fun c' _ hc => ?_) (fun c' f _ hc => ?_) h
  · refine hc.tail (.call e c'.half.una id id ?_ rfl)
    rw [afterTurns_half]
  · obtain ⟨hlow, hhigh⟩ := sendTurns_startData e c'
    have hlen : (c'.half.pending.length : ℤ) = c'.s.tx.txDatalen.toNat := by simp [Conn.half]
    have hsize := sendSize_le c'.s
    have hfrom : sendFrom c'.s = 0 ∨ sendFrom c'.s = c'.half.una := by
      unfold sendFrom sendStart
      dsimp only
      split_ifs
      · exact .inl rfl
      · exact .inr rfl
    refine hc.tail (.call e (sendTurns e c').1.startData ?_ ?_ ?_ rfl)
    · omega
    · omega
    · have := congrArg (fun h => { h with una := (sendTurns e c').1.startData : Half })
        (afterTurns_half e c')
      exact this
  · exact hc.tail (.quiet rfl rfl)

end Moves

end Watt32.Tcp
