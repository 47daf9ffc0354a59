import Watt32.Tcp.Write

/-!
# Two ways to transmit

`tcp_write` copies to `tx_data`, `sock_enqueue` points `tx_queue` to the caller's data; both count in
`tx_datalen`.

* `sockEnqueue`; `Writer`: a socket, the `sock_write` in progress, and what the calls reported as accepted.
* `TxBuf.Exact`: the bytes reported and not acknowledged are those of the buffer in use.
* `tcpWrite_tx`, `ack_source`: what a write and an acknowledgment do to that buffer.
* **`transmit_exact`**: it holds throughout a run that mixes the two only when nothing is outstanding.
-/

namespace Watt32.Tcp

open Machine

/-! ## The calls -/

/-- The socket when `sock_enqueue` calls `_tcp_send`; `mem` is what lies behind the data. -/
def enqueued (c : Conn) (mem : ℕ → Byte) (data : List Byte) : Conn :=
  c.upd fun s => { s with
    tx := { s.tx with
      txQueue := Mem.put mem 0 data
      txQueuelen := BitVec.ofNat 32 data.length
      txDatalen := BitVec.ofNat 32 data.length } }

/-- `sock_enqueue` on a TCP socket: the connection and the result. -/
def sockEnqueue (e : Env) (c : Conn) (mem : ℕ → Byte) (data : List Byte) : Conn × ℤ :=
  if data = [] then (c, 0)
  else if c.s.ipType = tcpProto then tcpSend e (enqueued c mem data)
  else (c, 0)

/-- An application at its socket: what its `sock_write` has still to write, and all bytes its calls reported as
accepted. -/
structure Writer where
  c : Conn
  call : List Byte
  reported : List Byte

/-- The calls, a turn of the loop of `sock_write`, and an ACK number for `tcp_process_ACK`. -/
inductive WriterEvent
  | fastwrite (e : Env) (data : UserData)
  | write (data : UserData)
  | turn (e : Env)
  | enqueue (e : Env) (mem : ℕ → Byte) (data : UserData)
  | ack (acknum : Dword)

/-- One step. `tcp_write` reports how many bytes it took; `sock_enqueue` takes all of them unless it fails. -/
def stepWriter (w : Writer) : WriterEvent → Writer
  | .fastwrite e data =>
    let r := sockFastwrite e w.c data.bytes
    { w with c := r.1, reported := w.reported ++ data.bytes.take r.2.toNat }
  | .write data => if w.call = [] then { w with call := data.bytes } else w
  | .turn e =>
    if w.call = [] then w
    else if w.c.s.ipType ≠ tcpProto then { w with call := [] }
    else
      let r := writeTurn e w.c w.call
      let rest := w.call.drop r.2.toNat
      if r.2 < 0 ∨ rest = [] then
        { c := clearLocal r.1, call := [], reported := w.reported ++ w.call.take r.2.toNat }
      else { c := r.1, call := rest, reported := w.reported ++ w.call.take r.2.toNat }
  | .enqueue e mem data =>
    let r := sockEnqueue e w.c mem data.bytes
    { w with
      c := r.1
      reported := w.reported ++ if w.c.s.ipType = tcpProto ∧ 0 ≤ r.2 then data.bytes else [] }
  | .ack acknum => { w with c := (tcpProcessAck w.c acknum).1 }

/-! ## The law -/

/-- The bytes reported and not acknowledged are the first `tx_datalen` bytes of the buffer in use, and inside it. -/
structure TxBuf.Exact (tx : TxBuf) (reported : List Byte) (acked : ℕ) : Prop where
  bytes : Mem.slice tx.source 0 tx.txDatalen.toNat = reported.drop acked
  acked : acked ≤ reported.length
  inside : if tx.txQueuelen = 0 then tx.txDatalen < tx.maxTxData else tx.txDatalen = tx.txQueuelen

def Writer.Exact (w : Writer) : Prop := w.c.s.tx.Exact w.reported w.c.acked

/-- `tcp_write` computes its room. -/
def Writer.Computes (w : Writer) : WriterEvent → Prop
  | .fastwrite _ _ => w.c.s.ipType = tcpProto ∧ w.c.s.state = .estab
  | .turn _ => w.call ≠ [] ∧ w.c.s.ipType = tcpProto ∧ w.c.s.state = .estab
  | _ => False

/-- The step leads to an exact state, and the room it computes is no wrapped difference. -/
def Writer.Law (w : Writer) (ev : WriterEvent) : Prop :=
  (stepWriter w ev).Exact ∧ (w.Computes ev →
    ((writeRoom w.c.s).toNat : ℤ) = w.c.s.tx.maxTxData.toNat - w.c.s.tx.txDatalen.toNat - 1)

/-- In ESTAB no queue is in use when `tcp_write` takes bytes, and none of its segments is refused; a longer queue
than `tx_data` is not in use at all. -/
def WriteOk (e : Env) (c : Conn) (data : List Byte) : Prop :=
  c.s.state = .estab → SendsAll e c data ∧ (c.s.tx.txQueuelen = 0 ∨
    c.s.tx.txQueuelen < c.s.tx.maxTxData ∧ (data = [] ∨ writeRoom c.s = 0))

/-- Nothing is outstanding when `sock_enqueue` gets bytes, and none of its segments is refused. -/
def EnqueueOk (e : Env) (c : Conn) (mem : ℕ → Byte) (data : List Byte) : Prop :=
  data ≠ [] → c.s.tx.txDatalen = 0 ∧
    false ∉ c.txOk.take (sendOutputs e (enqueued c mem data))

/-- What a step needs. -/
def Writer.Ok (w : Writer) : WriterEvent → Prop
  | .fastwrite e data => WriteOk e w.c data.bytes
  | .turn e => w.call ≠ [] → WriteOk e (pushUnlessLocal w.c) w.call
  | .enqueue e mem data => EnqueueOk e w.c mem data.bytes
  | .write _ => True
  | .ack _ => True

/-- Nothing was written yet. -/
structure Writer.Idle (w : Writer) : Prop where
  tcp : w.c.s.ipType = tcpProto
  fits : w.c.half.Fits
  datalen : w.c.s.tx.txDatalen = 0
  queuelen : w.c.s.tx.txQueuelen = 0
  call : w.call = []
  reported : w.reported = []
  acked : w.c.acked = 0

/-- There is a transmit buffer, and the lengths are those of `int`s. -/
structure TxBuf.Sized (tx : TxBuf) : Prop where
  pos : 0 < tx.maxTxData
  small : tx.maxTxData.toNat < 2 ^ 16
  queue : tx.txQueuelen.toNat < 2 ^ 31

/-- What holds along a run. -/
structure Writer.Sound (w : Writer) : Prop where
  exact : w.Exact
  tcp : w.c.s.ipType = tcpProto
  sized : w.c.s.tx.Sized
  call : w.call.length < 2 ^ 31

/-! ## The buffer in use -/

section Buffer

variable {e : Env} {c : Conn} {data reported : List Byte}

theorem TxBuf.source_data {tx : TxBuf} (h : tx.txQueuelen = 0) : tx.source = tx.txData := if_neg (not_not.mpr h)

theorem TxBuf.source_queue {tx : TxBuf} (h : tx.txQueuelen ≠ 0) : tx.source = tx.txQueue := if_pos h

/-- What is appended was reported last. -/
theorem TxBuf.Exact.append (h : c.s.tx.Exact reported c.acked) (hq : c.s.tx.txQueuelen = 0)
    (hroom : data.length ≤ (writeRoom c.s).toNat) :
    (appendTx e c.s data).tx.Exact (reported ++ data) c.acked := by
  have hinside := h.inside
  rw [if_pos hq] at hinside
  have hlt : c.half.pending.length < c.half.maxTx := by
    unfold Conn.half
    rw [Mem.length_slice]
    exact hinside
  obtain ⟨hbytes, hfits⟩ := appendTx_pending (e := e) hroom hlt
  have hq' : (appendTx e c.s data).tx.txQueuelen = 0 := hq
  refine ⟨?_, ?_, ?_⟩
  · rw [TxBuf.source_data hq', hbytes, List.drop_append_of_le_length h.acked, ← h.bytes,
      TxBuf.source_data hq]
    rfl
  · rw [List.length_append]
    exact h.acked.trans (Nat.le_add_right ..)
  · rw [if_pos hq']
    exact hfits

theorem TxBuf.Exact.datalen {tx : TxBuf} {acked : ℕ} (h : tx.Exact reported acked) (hsized : tx.Sized) :
    tx.txDatalen.toNat < 2 ^ 31 := by
  have hinside := h.inside
  split_ifs at hinside
  · have := BitVec.lt_def.mp hinside
    have := hsized.small
    omega
  · rw [hinside]
    exact hsized.queue

theorem discardAcked_maxTxData (s : TcpSocket) (acknum : Dword) :
    (discardAcked s acknum).tx.maxTxData = s.tx.maxTxData := by
  unfold discardAcked
  dsimp only
  split_ifs <;> rfl

/-- The queue moves on. -/
theorem discardAcked_txQueue {s : TcpSocket} (h : s.tx.txQueuelen ≠ 0) (acknum : Dword) :
    (discardAcked s acknum).tx.txQueuelen = s.tx.txQueuelen - (acknum - s.tx.sendNext) ∧
      (discardAcked s acknum).tx.txQueue = fun i => s.tx.txQueue (i + (acknum - s.tx.sendNext).toNat) := by
  unfold discardAcked
  dsimp only
  rw [if_pos h]
  split_ifs <;> exact ⟨rfl, rfl⟩

/-- **An acknowledgment** takes bytes off the front of the buffer in use. -/
theorem TxBuf.Exact.ack (h : c.s.tx.Exact reported c.acked) (hsized : c.s.tx.Sized) (acknum : Dword) :
    (tcpProcessAck c acknum).1.s.tx.Exact reported (tcpProcessAck c acknum).1.acked := by
  have hsmall := h.datalen hsized
  unfold tcpProcessAck
  by_cases hack : ackInWindow c.s acknum = true
  · rw [if_pos hack]
    dsimp only
    have hwindow := hack
    simp only [ackInWindow, decide_eq_true_eq] at hwindow
    obtain ⟨hlen, -, hslice⟩ := discardAcked_pending hack hsmall
    have hmaxTx := discardAcked_maxTxData c.s acknum
    have hinside := h.inside
    have hbytes := h.bytes
    have hle := BitVec.le_def.mp hwindow.2
    generalize hl : acknum - c.s.tx.sendNext = l at *
    have hcount : c.s.tx.txDatalen.toNat = reported.length - c.acked := by
      have := congrArg List.length h.bytes
      rwa [Mem.length_slice, List.length_drop] at this
    have hacked : c.acked + l.toNat ≤ reported.length := by
      have := h.acked
      omega
    by_cases hq : c.s.tx.txQueuelen = 0
    · have hq' := (discardAcked_txData hq acknum).1
      rw [if_pos hq, BitVec.lt_def] at hinside
      refine ⟨?_, hacked, ?_⟩
      · rw [TxBuf.source_data hq', hslice hq, ← TxBuf.source_data hq, hbytes, List.drop_drop]
      · rw [if_pos hq', hmaxTx, BitVec.lt_def, hlen]
        omega
    · obtain ⟨hqlen, hqueue⟩ := discardAcked_txQueue hq acknum
      rw [hl] at hqlen hqueue
      rw [if_neg hq] at hinside
      rw [TxBuf.source_queue hq] at hbytes
      have hsame : (discardAcked c.s acknum).tx.txDatalen = (discardAcked c.s acknum).tx.txQueuelen := by
        refine BitVec.eq_of_toNat_eq ?_
        rw [hlen, hqlen, ← hinside, BitVec.toNat_sub_of_le hwindow.2]
      have hdrop : Mem.slice (discardAcked c.s acknum).tx.txQueue 0 (discardAcked c.s acknum).tx.txDatalen.toNat =
          reported.drop (c.acked + l.toNat) := by
        rw [hlen, hqueue, ← List.drop_drop, ← hbytes, Mem.drop_slice]
        refine Mem.slice_congr fun i _ => ?_
        rw [Nat.zero_add, Nat.zero_add, Nat.add_comm]
      refine ⟨?_, hacked, ?_⟩
      · by_cases hempty : (discardAcked c.s acknum).tx.txQueuelen = 0
        · rw [hsame, hempty] at hdrop ⊢
          exact hdrop
        · rw [TxBuf.source_queue hempty]
          exact hdrop
      · split_ifs with hempty
        · rw [hsame, hempty, hmaxTx]
          exact hsized.pos
        · exact hsame
  · rw [if_neg hack]
    exact h

theorem TxBuf.Sized.ack (hsized : c.s.tx.Sized) (h : c.s.tx.Exact reported c.acked) (acknum : Dword) :
    (tcpProcessAck c acknum).1.s.tx.Sized := by
  unfold tcpProcessAck
  by_cases hack : ackInWindow c.s acknum = true
  · rw [if_pos hack]
    simp only [ackInWindow, decide_eq_true_eq] at hack
    have hmaxTx := discardAcked_maxTxData c.s acknum
    refine ⟨hmaxTx ▸ hsized.pos, hmaxTx ▸ hsized.small, ?_⟩
    by_cases hq : c.s.tx.txQueuelen = 0
    · rw [(discardAcked_txData hq acknum).1]
      decide
    · have hinside := h.inside
      rw [if_neg hq] at hinside
      rw [hinside] at hack
      rw [(discardAcked_txQueue hq acknum).1, BitVec.toNat_sub_of_le hack.2]
      exact (Nat.sub_le ..).trans_lt hsized.queue
  · rw [if_neg hack]
    exact hsized

end Buffer

/-! ## The calls and the buffer -/

section Calls

variable {e : Env} {c : Conn} {data reported : List Byte}

/-- How many bytes `tcp_write` takes. -/
def writeLen (c : Conn) (data : List Byte) : ℕ :=
  if c.s.state = .estab then min data.length (writeRoom c.s).toNat else 0

theorem appendTx_nil (e : Env) (s : TcpSocket) : (appendTx e s []).tx = s.tx := by
  have hput : Mem.put s.tx.txData s.tx.txDatalen.toNat [] = s.tx.txData := by
    funext i
    unfold Mem.put
    split_ifs <;> rfl
  dsimp only [appendTx]
  rw [hput]
  simp

theorem writeTake_tx (room : Dword) (push : Bool) :
    (writeTake e c data room push).1.s.tx = (appendTx e c.s data).tx ∧
      (writeTake e c data room push).1.acked = c.acked := by
  unfold writeTake
  dsimp only
  by_cases hlocal : (appendTx e c.s data).localMode = true ∧ BitVec.ofNat 32 data.length < room
  · rw [if_pos hlocal]
    exact ⟨rfl, rfl⟩
  · rw [if_neg hlocal]
    by_cases hnow : writeNow e.cfg (appendTx e c.s data) (BitVec.ofNat 32 data.length) = true
    · rw [if_pos hnow]
      exact ⟨tcpSend_tx .., tcpSend_acked ..⟩
    · rw [if_neg hnow]
      exact ⟨tcpSendsoon_tx .., tcpSendsoon_acked ..⟩

/-- `tcp_write` appends the bytes it takes, whatever the lower layer says. -/
theorem tcpWrite_tx : (tcpWrite e c data).1.s.tx = (appendTx e c.s (data.take (writeLen c data))).tx ∧
    (tcpWrite e c data).1.acked = c.acked := by
  unfold tcpWrite writeLen
  by_cases hs : c.s.state = .estab
  · rw [if_neg (not_not.mpr hs), if_pos hs]
    dsimp only
    by_cases hpart : (writeRoom c.s).toNat < data.length
    · rw [if_pos hpart, min_eq_right hpart.le]
      by_cases hroom : writeRoom c.s = 0
      · rw [if_pos hroom, hroom]
        exact ⟨(appendTx_nil ..).symm, rfl⟩
      · rw [if_neg hroom]
        exact writeTake_tx ..
    · rw [if_neg hpart, min_eq_left (not_lt.mp hpart), List.take_length]
      by_cases hnil : data = []
      · rw [if_pos hnil, hnil]
        exact ⟨(appendTx_nil ..).symm, rfl⟩
      · rw [if_neg hnil]
        exact writeTake_tx ..
  · rw [if_pos hs, if_neg hs, List.take_zero]
    exact ⟨(appendTx_nil ..).symm, rfl⟩

theorem writeLen_le : writeLen c data ≤ data.length ∧ writeLen c data ≤ (writeRoom c.s).toNat := by
  unfold writeLen
  split_ifs
  · exact ⟨min_le_left .., min_le_right ..⟩
  · exact ⟨Nat.zero_le _, Nat.zero_le _⟩

theorem tcpWrite_grown : grown c (tcpWrite e c data).1 = writeLen c data := by
  have hle : (data.take (writeLen c data)).length = writeLen c data :=
    (List.length_take ..).trans (min_eq_left writeLen_le.1)
  have hroom := (writeRoom c.s).isLt
  have hlen : writeLen c data ≤ (writeRoom c.s).toNat := writeLen_le.2
  unfold grown
  rw [tcpWrite_tx.1]
  dsimp only [appendTx]
  rw [BitVec.add_comm, BitVec.add_sub_cancel, hle, BitVec.toNat_ofNat, Nat.mod_eq_of_lt (by omega)]

theorem WriteOk.sendsAll (hok : WriteOk e c data) : SendsAll e c data := by
  by_cases hs : c.s.state = .estab
  · exact (hok hs).1
  · unfold SendsAll writeOutputs
    rw [if_pos hs, List.take_zero]
    exact List.not_mem_nil

/-- While a queue is in use, no bytes are taken. -/
theorem WriteOk.takes (hok : WriteOk e c data) (hq : c.s.tx.txQueuelen ≠ 0) : writeLen c data = 0 := by
  unfold writeLen
  split_ifs with hs
  · rcases (hok hs).2 with h | ⟨-, rfl | h⟩
    · exact absurd h hq
    · exact Nat.zero_min _
    · rw [h]
      exact Nat.min_zero _
  · rfl

/-- **A write** that its condition allows reports the bytes it appends. -/
theorem TxBuf.Exact.write (h : c.s.tx.Exact reported c.acked) (hok : WriteOk e c data)
    (hshort : data.length < 2 ^ 31) :
    (tcpWrite e c data).1.s.tx.Exact (reported ++ data.take (tcpWrite e c data).2.toNat)
      (tcpWrite e c data).1.acked := by
  obtain ⟨htx, hacked⟩ := @tcpWrite_tx e c data
  rw [htx, hacked, (tcpWrite_result hshort).2.1 hok.sendsAll, tcpWrite_grown, Int.toNat_natCast]
  by_cases hq : c.s.tx.txQueuelen = 0
  · refine h.append hq ?_
    rw [List.length_take]
    exact (min_le_left ..).trans writeLen_le.2
  · rw [hok.takes hq, List.take_zero, appendTx_nil, List.append_nil]
    exact h

/-- **Enqueueing** with nothing outstanding. -/
theorem TxBuf.Exact.enqueue (h : c.s.tx.Exact reported c.acked) (hempty : c.s.tx.txDatalen = 0) (mem : ℕ → Byte)
    (hshort : data.length < 2 ^ 31) (hsome : data ≠ []) :
    (enqueued c mem data).s.tx.Exact (reported ++ data) (enqueued c mem data).acked := by
  have hlen : (BitVec.ofNat 32 data.length).toNat = data.length := by
    rw [BitVec.toNat_ofNat, Nat.mod_eq_of_lt (by omega)]
  have hpos : 0 < data.length := List.length_pos_iff.mpr hsome
  have hqueue : (enqueued c mem data).s.tx.txQueuelen ≠ 0 := by
    intro hzero
    have := congrArg BitVec.toNat hzero
    rw [show (enqueued c mem data).s.tx.txQueuelen = BitVec.ofNat 32 data.length from rfl, hlen] at this
    exact absurd this hpos.ne'
  have hall : reported.drop c.acked = [] := by
    rw [← h.bytes, hempty]
    rfl
  refine ⟨?_, ?_, ?_⟩
  · rw [TxBuf.source_queue hqueue]
    show Mem.slice (Mem.put mem 0 data) 0 (BitVec.ofNat 32 data.length).toNat = (reported ++ data).drop c.acked
    rw [List.drop_append_of_le_length h.acked, hall, List.nil_append, hlen, Mem.slice_put]
  · rw [List.length_append]
    exact h.acked.trans (Nat.le_add_right ..)
  · rw [if_neg hqueue]
    rfl

end Calls

/-! ## Runs -/

section Runs

variable {w : Writer} {ev : WriterEvent}

theorem Writer.Idle.sound (h : w.Idle) : w.Sound := by
  obtain ⟨hlt, hsmall⟩ := h.fits
  have hpos : 0 < w.c.s.tx.maxTxData := by
    rw [BitVec.lt_def]
    exact (Nat.zero_le _).trans_lt hlt
  refine ⟨⟨?_, ?_, ?_⟩, h.tcp, ⟨hpos, hsmall, ?_⟩, ?_⟩
  · rw [h.datalen, h.reported, List.drop_nil]
    rfl
  · rw [h.acked]
    exact Nat.zero_le _
  · rw [if_pos h.queuelen, h.datalen]
    exact hpos
  · rw [h.queuelen]
    decide
  · rw [h.call]
    decide

/-- The room of a write that its condition allows. -/
theorem WriteOk.room {e : Env} {c : Conn} {data : List Byte} (hok : WriteOk e c data) (hs : c.s.state = .estab)
    {reported : List Byte} (h : c.s.tx.Exact reported c.acked) :
    ((writeRoom c.s).toNat : ℤ) = c.s.tx.maxTxData.toNat - c.s.tx.txDatalen.toNat - 1 := by
  have hinside := h.inside
  have hlt : c.s.tx.txDatalen < c.s.tx.maxTxData := by
    split_ifs at hinside with hq
    · exact hinside
    · rw [hinside]
      rcases (hok hs).2 with hzero | ⟨hshort, -⟩
      · exact absurd hzero hq
      · exact hshort
  have hlt' := BitVec.lt_def.mp hlt
  have := writeRoom_toNat hlt'
  omega

theorem pushUnlessLocal_rest (c : Conn) :
    (pushUnlessLocal c).s.state = c.s.state ∧ (pushUnlessLocal c).acked = c.acked := by
  unfold pushUnlessLocal
  split_ifs <;> exact ⟨rfl, rfl⟩

theorem Writer.Sound.room (h : w.Sound) (hok : w.Ok ev) (hc : w.Computes ev) :
    ((writeRoom w.c.s).toNat : ℤ) = w.c.s.tx.maxTxData.toNat - w.c.s.tx.txDatalen.toNat - 1 := by
  cases ev with
  | fastwrite e data => exact WriteOk.room hok hc.2 h.exact
  | turn e =>
    obtain ⟨hcall, -, hs⟩ := hc
    obtain ⟨htx, -⟩ := pushUnlessLocal_frame w.c
    obtain ⟨hstate, hacked⟩ := pushUnlessLocal_rest w.c
    have hexact : (pushUnlessLocal w.c).s.tx.Exact w.reported (pushUnlessLocal w.c).acked := by
      rw [htx, hacked]
      exact h.exact
    have hroom := WriteOk.room (hok hcall) (hstate.trans hs) hexact
    unfold writeRoom at hroom ⊢
    rwa [htx] at hroom
  | write data => exact hc.elim
  | enqueue e mem data => exact hc.elim
  | ack acknum => exact hc.elim

/-- A `tcp_write` that its condition allows. -/
theorem tcpWrite_sound {e : Env} {c : Conn} {data reported : List Byte} (hexact : c.s.tx.Exact reported c.acked)
    (hsized : c.s.tx.Sized) (hip : c.s.ipType = tcpProto) (hok : WriteOk e c data) (hshort : data.length < 2 ^ 31) :
    (tcpWrite e c data).1.s.tx.Exact (reported ++ data.take (tcpWrite e c data).2.toNat) (tcpWrite e c data).1.acked ∧
      (tcpWrite e c data).1.s.tx.Sized ∧ (tcpWrite e c data).1.s.ipType = tcpProto ∧ 0 ≤ (tcpWrite e c data).2 := by
  refine ⟨hexact.write hok hshort, ?_, (tcpWrite_result hshort).1.trans hip, ?_⟩
  · rw [tcpWrite_tx.1]
    exact ⟨hsized.pos, hsized.small, hsized.queue⟩
  · rw [(tcpWrite_result hshort).2.1 hok.sendsAll]
    exact Int.natCast_nonneg _

theorem Writer.Sound.fastwrite (h : w.Sound) {e : Env} {data : UserData} (hok : WriteOk e w.c data.bytes) :
    (stepWriter w (.fastwrite e data)).Sound := by
  obtain ⟨hexact, hsized, hip, hnonneg⟩ := tcpWrite_sound h.exact h.sized h.tcp hok data.short
  unfold stepWriter sockFastwrite
  dsimp only
  rw [if_pos h.tcp]
  dsimp only
  rw [if_neg (not_lt.mpr hnonneg)]
  exact ⟨hexact, hip, hsized, h.call⟩

theorem Writer.Sound.turn (h : w.Sound) {e : Env} (hok : w.call ≠ [] → WriteOk e (pushUnlessLocal w.c) w.call) :
    (stepWriter w (.turn e)).Sound := by
  unfold stepWriter
  by_cases hcall : w.call = []
  · dsimp only
    rw [if_pos hcall]
    exact h
  · obtain ⟨htx, htcp⟩ := pushUnlessLocal_frame w.c
    obtain ⟨-, hacked⟩ := pushUnlessLocal_rest w.c
    have hexact₀ : (pushUnlessLocal w.c).s.tx.Exact w.reported (pushUnlessLocal w.c).acked := by
      rw [htx, hacked]
      exact h.exact
    obtain ⟨hexact, hsized, hip, -⟩ := tcpWrite_sound hexact₀ (htx ▸ h.sized) (htcp.trans h.tcp) (hok hcall) h.call
    dsimp only
    rw [if_neg hcall, if_neg (not_not.mpr h.tcp)]
    split_ifs
    · exact ⟨hexact, hip, hsized, Nat.two_pow_pos 31⟩
    · refine ⟨hexact, hip, hsized, ?_⟩
      show (w.call.drop (writeTurn e w.c w.call).2.toNat).length < 2 ^ 31
      rw [List.length_drop]
      exact (Nat.sub_le ..).trans_lt h.call

theorem Writer.Sound.enqueue (h : w.Sound) {e : Env} {mem : ℕ → Byte} {data : UserData}
    (hok : EnqueueOk e w.c mem data.bytes) : (stepWriter w (.enqueue e mem data)).Sound := by
  unfold stepWriter sockEnqueue
  dsimp only
  by_cases hnil : data.bytes = []
  · rw [if_pos hnil, hnil, ite_self, List.append_nil]
    exact h
  · obtain ⟨hempty, hsent⟩ := hok hnil
    have hresult : 0 ≤ (tcpSend e (enqueued w.c mem data.bytes)).2 := by
      rw [← not_lt, tcpSend_fails]
      exact hsent
    have hlen : (BitVec.ofNat 32 data.bytes.length).toNat < 2 ^ 31 := by
      rw [BitVec.toNat_ofNat]
      exact (Nat.mod_le ..).trans_lt data.short
    rw [if_neg hnil, if_pos h.tcp, if_pos ⟨h.tcp, hresult⟩]
    refine ⟨?_, ?_, ?_, h.call⟩
    · unfold Writer.Exact
      dsimp only
      rw [tcpSend_tx, tcpSend_acked]
      exact h.exact.enqueue hempty mem data.short hnil
    · rw [tcpSend_ipType]
      exact h.tcp
    · rw [tcpSend_tx]
      exact ⟨h.sized.pos, h.sized.small, hlen⟩

/-- The step lemma: one case per call. -/
theorem Writer.Sound.step (h : w.Sound) (hok : w.Ok ev) : (stepWriter w ev).Sound := by
  cases ev with
  | fastwrite e data => exact h.fastwrite hok
  | turn e => exact h.turn hok
  | enqueue e mem data => exact h.enqueue hok
  | write data =>
    unfold stepWriter
    dsimp only
    split_ifs
    · exact ⟨h.exact, h.tcp, h.sized, data.short⟩
    · exact h
  | ack acknum =>
    have hip : (tcpProcessAck w.c acknum).1.s.ipType = w.c.s.ipType :=
      (congrArg TcpSocket.ipType (tcpProcessAck_core w.c acknum) :)
    exact ⟨h.exact.ack h.sized acknum, hip.trans h.tcp, h.sized.ack h.exact acknum, h.call⟩

/-- **Transmission is exact** throughout a run from a socket to which nothing was written, when each step finds
what it needs. -/
theorem transmit_exact (w : Writer) (evs : List WriterEvent) (hidle : w.Idle) (h : Always stepWriter Writer.Ok w evs) :
    Always stepWriter Writer.Law w evs :=
  always_of_invariant (fun _ _ hs hok => ⟨hs.step hok, (hs.step hok).exact, fun hc => hs.room hok hc⟩) evs
    hidle.sound h

end Runs

/-! ## Enqueueing behind a write -/

/-- An established connection, nothing written. -/
def idleWriter : Writer := ⟨establishedConn [], [], []⟩

theorem idleWriter_idle : idleWriter.Idle := by
  refine ⟨rfl, ⟨?_, ?_⟩, rfl, rfl, rfl, rfl, rfl⟩
  · decide +kernel
  · decide +kernel

def oneByte : UserData := ⟨[5], by decide⟩

/-- The byte enqueued takes the place of the four written. -/
theorem transmit_inexact : ¬ ∀ (w : Writer) (evs : List WriterEvent), w.Idle → Always stepWriter Writer.Law w evs := by
  intro h
  have hlaw := h idleWriter [.fastwrite {} fourBytes, .enqueue {} (fun _ => 0) oneByte] idleWriter_idle
  have hbytes := hlaw.2.1.1.bytes
  revert hbytes
  decide +kernel

/-- A write, its acknowledgment, and then an enqueued byte. -/
theorem transmit_exact_drained : Always stepWriter Writer.Law idleWriter
    [.fastwrite {} fourBytes, .ack 5, .enqueue {} (fun _ => 0) oneByte] := by
  refine transmit_exact idleWriter _ idleWriter_idle ⟨fun _ => ⟨?_, .inl ?_⟩, trivial, fun _ => ⟨?_, ?_⟩, trivial⟩
  all_goals decide +kernel

end Watt32.Tcp
