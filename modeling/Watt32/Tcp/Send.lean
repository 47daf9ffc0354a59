import Watt32.Tcp.Receive

/-!
# Sending segments

`_tcp_send` and `_tcp_sendsoon` of `pctcp.c`, with the option routines.

* `tcpOptions`: the options behind the header, and where the MD5 signature goes.
* `sendSegment`, `sendLoop`: one turn and all turns of the sending loop.
* `tcpSend`, `tcpSendsoon`: a failed `_tcp_send` calls `_tcp_sendsoon`, which may call `_tcp_send`
  again; every failure uses up an outcome of `txOk`, so `txOk.length` bounds the depth.
* `tcpSend_core`, `tcpSendsoon_core`: what sending leaves alone.
-/

namespace Watt32.Tcp

/-! ## Options -/

/-- The bytes of a 32-bit number in network order. -/
def bytes32 (x : Dword) : List Byte :=
  [(x >>> 24).setWidth 8, (x >>> 16).setWidth 8, (x >>> 8).setWidth 8, x.setWidth 8]

/-- `tcp_opt_maxsegment`. -/
def tcpOptMaxsegment (s : TcpSocket) : List Byte :=
  [2, 4, (s.maxSeg >>> 8).setWidth 8, s.maxSeg.setWidth 8]

/-- `tcp_opt_timestamp`, with the time stamp `tsNow`. -/
def tcpOptTimestamp (tsNow tsEcho : Dword) : List Byte :=
  [1, 1, 8, 10] ++ bytes32 tsNow ++ bytes32 tsEcho

/-- `tcp_opt_md5_sign`: room for the signature behind the first two bytes. -/
def tcpOptMd5Sign (buf : ℕ → Byte) (opt : ℕ) : ℕ → Byte :=
  Mem.put (Mem.put buf opt [19, 18]) (opt + 18) [1, 1]

/-- What `tcp_options` leaves: control block, packet buffer, length, and `sign_opt`. -/
structure Options where
  s : TcpSocket
  buf : ℕ → Byte
  len : ℕ
  signOpt : Option ℕ

/-- `tcp_options` without the MD5 signature. -/
def optionsUnsigned (e : Env) (s : TcpSocket) (buf : ℕ → Byte) (opt : ℕ) (isSyn : Bool) : Options :=
  let tsNow := setTimeout e 0 - e.cfg.startTime
  if isSyn then
    let buf := Mem.put buf opt (tcpOptMaxsegment s)
    if e.cfg.optTs then
      { s := { s with rtt := { s.rtt with tsSent := tsNow } }
        buf := Mem.put buf (opt + 4) (tcpOptTimestamp tsNow 0), len := 16, signOpt := none }
    else { s := s, buf := buf, len := 4, signOpt := none }
  else if e.cfg.optTs ∧ ¬ (s.flags.fin ∨ s.flags.rst) ∧ s.locflags.useTstamp then
    { s := { s with
        rtt := { s.rtt with tsSent := tsNow }
        locflags := { s.locflags with useTstamp := false } }
      buf := Mem.put buf opt (tcpOptTimestamp tsNow s.tsRecent), len := 12, signOpt := none }
  else { s := s, buf := buf, len := 0, signOpt := none }

/-- `tcp_options`. -/
def tcpOptions (e : Env) (s : TcpSocket) (buf : ℕ → Byte) (opt : ℕ) (isSyn : Bool) : Options :=
  if s.locflags.noopt then { s := s, buf := buf, len := 0, signOpt := none } else
  let o := optionsUnsigned e s buf opt isSyn
  match s.secret with
  | none => o
  | some _ => { o with
      buf := tcpOptMd5Sign o.buf (opt + o.len), len := o.len + 20, signOpt := some (opt + o.len + 2) }

/-- `finalise_md5_sign`: `make_md5_signature` covers the header and `tcpLen` bytes from
`offset * 4` on. -/
def finaliseMd5Sign (e : Env) (s : TcpSocket) (hdr : TcpHeader) (tcpLen : ℕ) (signOpt : Option ℕ)
    (buf : ℕ → Byte) : ℕ → Byte :=
  match s.secret, signOpt with
  | some secret, some p =>
    let sign := e.cfg.md5 secret hdr (Mem.slice buf (hdr.dataOfs - 20) tcpLen)
    Mem.put buf p ((List.range 16).map sign)
  | _, _ => buf

/-! ## The sending loop -/

/-- The variables of the sending loop. `buf` is the packet buffer from the end of the TCP header
on, `data` the index in it where the next data go. -/
structure SendLoop where
  s : TcpSocket
  buf : ℕ → Byte
  data : ℕ
  sendTotLen : ℤ
  startData : ℤ
  sendTotData : ℤ
  segs : List OutSegment

/-- `int` of an `unsigned`. -/
abbrev int (x : Dword) : ℤ := x.toInt

/-- `tx_queue` when it is in use, else `tx_data`. -/
def TxBuf.source (tx : TxBuf) : ℕ → Byte := if tx.txQueuelen ≠ 0 then tx.txQueue else tx.txData

/-- The bytes from `start` on, `start` an `int`. -/
def TxBuf.sourceFrom (tx : TxBuf) (start : ℤ) : ℕ → Byte := fun i =>
  tx.source (BitVec.ofInt 32 (start + i)).toNat

/-- The header of a segment whose data start at `startData`, before `offset` and PUSH are set. -/
def sendHeader (s : TcpSocket) (startData : ℤ) : TcpHeader :=
  { srcPort := s.myport
    dstPort := s.hisport
    seqnum := s.tx.sendNext + BitVec.ofInt 32 startData
    acknum := s.rx.recvNext
    offset := 0
    flags := { s.flags with push := false }
    window := (s.rx.maxRxData - s.rx.rxDatalen).setWidth 16 }

/-- The options of a segment: the long form only on the first segment of a SYN. -/
def sendOptions (e : Env) (l : SendLoop) (first : Bool) : Options :=
  tcpOptions e { l.s with advWin := l.s.rx.maxRxData - l.s.rx.rxDatalen } l.buf l.data
    (first && l.s.flags.syn)

/-- `send_data_len`. -/
def sendDataLen (l : SendLoop) (first : Bool) (optLen : ℕ) : ℤ :=
  if first && l.s.flags.syn then 0
  else min l.sendTotData (max 0 (int (l.s.maxSeg - BitVec.ofNat 32 optLen)))

/-- One turn of the sending loop up to the call of `_ip4_output`. -/
def sendSegment (e : Env) (l : SendLoop) (first : Bool) : SendLoop :=
  let o := sendOptions e l first
  let n := sendDataLen l first o.len
  let data := l.data + o.len
  let hdr := { sendHeader l.s l.startData with offset := BitVec.ofNat 4 ((20 + o.len) / 4) }
  let buf := if 0 < n then Mem.blit o.buf data (o.s.tx.sourceFrom l.startData) 0 n.toNat else o.buf
  let push := decide (0 < n) && decide (n = l.sendTotData) && o.s.flags.push
  let hdr := if push then { hdr with flags := { hdr.flags with push := true } } else hdr
  let s := if push then { o.s with flags := { o.s.flags with push := false } } else o.s
  let tcpLen := o.len + n.toNat
  let buf := finaliseMd5Sign e s hdr tcpLen o.signOpt buf
  { s := s, buf := buf, data := data
    sendTotLen := if 0 < n then l.sendTotLen + n else l.sendTotLen
    startData := if 0 < n then l.startData + n else l.startData
    sendTotData := if 0 < n then l.sendTotData - n else l.sendTotData
    segs := l.segs ++ [⟨hdr, Mem.slice buf 0 tcpLen⟩] }

/-- The sending loop: `n` turns left, the outcomes of `_ip4_output` in `ok`. The last component
says whether an `_ip4_output` failed. -/
def sendLoop (e : Env) : (n : ℕ) → (ok : List Bool) → (first : Bool) → SendLoop →
    SendLoop × List Bool × Bool
  | 0, ok, _, l => (l, ok, false)
  | n + 1, ok, first, l =>
    let l' := sendSegment e l first
    if ok.headD true = false then (l', ok.tail, true)
    else if l'.sendTotData ≤ 0 then (l', ok.tail, false)
    else sendLoop e n ok.tail false l'

/-! ## `_tcp_send` and `_tcp_sendsoon` -/

/-- `min (s->tx_datalen, s->window)`. -/
def sendSize (s : TcpSocket) : ℤ :=
  int (if s.tx.txDatalen < s.window then s.tx.txDatalen else s.window)

/-- The loop variables on entry. -/
def sendStart (s : TcpSocket) (buf : ℕ → Byte) : SendLoop :=
  { s := { s with rtt := { s.rtt with recent := false } }
    buf := buf
    data := 0
    sendTotLen := 0
    -- slow start sends everything again
    startData := if s.rtt.karnCount = 2 then 0 else s.sendUna
    sendTotData := if s.rtt.karnCount = 2 then sendSize s else max 0 (sendSize s - s.sendUna)
    segs := [] }

/-- The timers `_tcp_send` sets when all segments went out. -/
def sendTimers (e : Env) (s : TcpSocket) (sendTotLen : ℤ) : Rtt :=
  let r := { s.rtt with vjLast := 0 }
  let r := if r.karnCount = 2 then
      { r with rto := if r.rto ≠ 0 then r.rto * 3 / 2 else 2 * e.cfg.rtoAdd }
    else
      { r with
        vjLast := if s.unhappy ∨ s.tx.txDatalen ≠ 0 then setTimeout e 0 else r.vjLast
        karnCount := 0 }
  let r := { r with rttTime := setTimeout e (r.rto + e.cfg.rtoAdd) }
  if 0 < sendTotLen then { r with rttLasttran := r.rttTime } else r

/-- The sending loop of a call of `_tcp_send`. -/
def sendTurns (e : Env) (c : Conn) : SendLoop × List Bool × Bool :=
  sendLoop e c.s.rtt.cwindow.toNat c.txOk true (sendStart c.s (e.pkt c.calls.length))

/-- The connection when the sending loop ends, the call logged. -/
def afterTurns (e : Env) (c : Conn) : Conn :=
  { c with
    s := (sendTurns e c).1.s
    txOk := (sendTurns e c).2.1
    calls := c.calls ++ [⟨c.s, (sendTurns e c).1.segs⟩] }

/-- The end of `_tcp_send` when all segments went out. -/
def sendDone (e : Env) (c : Conn) : Conn :=
  (afterTurns e c).upd fun s => { s with
    sendUna := (sendTurns e c).1.startData
    rtt := sendTimers e s (sendTurns e c).1.sendTotLen }

/-- `_tcp_send` with the function `soon` for `TCP_SENDSOON`. -/
def tcpSendWith (soon : Conn → Conn) (e : Env) (c : Conn) : Conn × ℤ :=
  if (sendTurns e c).2.2 then (soon (afterTurns e c), -1)
  else (sendDone e c, (sendTurns e c).1.sendTotLen)

/-- The time `_tcp_sendsoon` compares with: relaxed from CLOSWT on. -/
def soonTimeout (e : Env) (s : TcpSocket) : Dword :=
  setTimeout e (if TcpState.closwt.code ≤ s.state.code then e.cfg.closeTo else e.cfg.rtoBase)

/-- The timer `_tcp_sendsoon` sets: relaxed in SYNSENT. -/
def soonRttTime (e : Env) (s : TcpSocket) : Dword :=
  setTimeout e (if s.state = .synsent then e.cfg.openTo else s.rtt.rto / e.cfg.rtoScale)

/-- `_tcp_sendsoon` with the function `send` for `_tcp_send`. -/
def tcpSendsoonWith (send : Conn → Conn × ℤ) (e : Env) (c : Conn) : Conn × ℤ :=
  if c.s.ipType ≠ tcpProto then (c, 0)
  else if c.s.rtt.rto ≤ e.cfg.rtoBase ∧ c.s.rtt.recent = false ∧
      c.s.rtt.rttTime ≤ soonTimeout e c.s then
    ((send (c.updRtt fun r => { r with karnCount := 0 })).1.updRtt
        fun r => { r with recent := true },
      (send (c.updRtt fun r => { r with karnCount := 0 })).2)
  else if (c.s.unhappy ∨ 0 < c.s.tx.txDatalen ∨ c.s.rtt.karnCount = 1) ∧
      c.s.rtt.rttTime ≠ 0 ∧ c.s.rtt.rttTime < soonTimeout e c.s then (c, 0)
  else (c.updRtt fun r => { r with rttTime := soonRttTime e c.s, karnCount := 1 }, 0)

/-- `_tcp_send` to a depth of `fuel` repeated sends. -/
def tcpSendFuel (e : Env) : (fuel : ℕ) → Conn → Conn × ℤ
  | 0, c => tcpSendWith id e c
  | fuel + 1, c => tcpSendWith (fun c => (tcpSendsoonWith (tcpSendFuel e fuel) e c).1) e c

/-- `_tcp_send`: the connection and the result. -/
def tcpSend (e : Env) (c : Conn) : Conn × ℤ := tcpSendFuel e c.txOk.length c

/-- `_tcp_sendsoon`. -/
def tcpSendsoon (e : Env) (c : Conn) : Conn × ℤ := tcpSendsoonWith (tcpSend e) e c

/-! ## The depth of repeated sends -/

section Fuel

variable {e : Env}

/-- A failed output uses up an outcome. -/
theorem sendLoop_failed {n : ℕ} {ok : List Bool} {first : Bool} {l : SendLoop}
    (h : (sendLoop e n ok first l).2.2 = true) :
    (sendLoop e n ok first l).2.1.length < ok.length := by
  induction n generalizing ok first l with
  | zero => simp [sendLoop] at h
  | succ n ih =>
    unfold sendLoop at h ⊢
    cases ok with
    | nil =>
      simp only [List.headD_nil, Bool.true_eq_false, if_false, List.tail_nil] at h ⊢
      split_ifs at h ⊢ with h'
      exact absurd (ih h) (by simp)
    | cons b ok =>
      cases b
      · simp
      · simp only [List.headD_cons, Bool.true_eq_false, if_false, List.tail_cons] at h ⊢
        split_ifs at h ⊢ with h'
        exact lt_trans (ih h) (by simp)

theorem tcpSendsoonWith_congr {f g : Conn → Conn × ℤ} {c : Conn}
    (h : ∀ c', c'.txOk = c.txOk → f c' = g c') :
    tcpSendsoonWith f e c = tcpSendsoonWith g e c := by
  have := h (c.updRtt fun r => { r with karnCount := 0 }) rfl
  simp only [tcpSendsoonWith, this]

/-- More fuel than outcomes changes nothing. -/
theorem tcpSendFuel_eq {n m : ℕ} {c : Conn} (hn : c.txOk.length ≤ n) (hm : c.txOk.length ≤ m) :
    tcpSendFuel e n c = tcpSendFuel e m c := by
  induction n generalizing m c with
  | zero =>
    have hf : (sendTurns e c).2.2 = false := by
      by_contra h
      have := sendLoop_failed (Bool.not_eq_false _ ▸ h : (sendTurns e c).2.2 = true)
      omega
    cases m <;> simp [tcpSendFuel, tcpSendWith, hf]
  | succ n ih =>
    by_cases hf : (sendTurns e c).2.2 = true
    · have hlt : (afterTurns e c).txOk.length < c.txOk.length := sendLoop_failed hf
      obtain ⟨m, rfl⟩ : ∃ k, m = k + 1 := ⟨m - 1, by omega⟩
      have := tcpSendsoonWith_congr (e := e) (c := afterTurns e c) fun c' hc' =>
        ih (m := m) (c := c') (by rw [hc']; omega) (by rw [hc']; omega)
      simp only [tcpSendFuel, tcpSendWith, hf, if_true, this]
    · cases m <;> simp [tcpSendFuel, tcpSendWith, hf]

/-- **`_tcp_send` and `_tcp_sendsoon` call each other**: the fuel never runs out. -/
theorem tcpSend_eq (c : Conn) : tcpSend e c = tcpSendWith (fun c => (tcpSendsoon e c).1) e c := by
  rw [tcpSend, tcpSendFuel_eq le_rfl (Nat.le_succ _)]
  simp only [tcpSendFuel, tcpSendWith]
  by_cases hf : (sendTurns e c).2.2 = true
  · have hlt : (afterTurns e c).txOk.length < c.txOk.length := sendLoop_failed hf
    rw [if_pos hf, if_pos hf, tcpSendsoon]
    rw [tcpSendsoonWith_congr fun c' hc' => tcpSendFuel_eq (by rw [hc']; omega) (le_refl _)]
    rfl
  · rw [if_neg hf, if_neg hf]

end Fuel

/-! ## The rule for sending -/

/-- **The sending rule**: what the sending loop, its end and the timers preserve, `_tcp_send` and
`_tcp_sendsoon` preserve. -/
theorem sending_rule {P : Conn → Prop} {e : Env} (hloop : ∀ c, P c → P (afterTurns e c))
    (hdone : ∀ c, (sendTurns e c).2.2 = false → P c → P (sendDone e c))
    (hrtt : ∀ c f, (∀ r : Rtt, (f r).cwindow = r.cwindow) → P c → P (c.updRtt f)) {c : Conn} (h : P c) :
    P (tcpSend e c).1 ∧ P (tcpSendsoon e c).1 := by
  have soon : ∀ send : Conn → Conn × ℤ, (∀ c, P c → P (send c).1) →
      ∀ c, P c → P (tcpSendsoonWith send e c).1 := by
    intro send hsend c hc
    simp only [tcpSendsoonWith]
    split_ifs
    · exact hc
    · dsimp only
      refine hrtt _ _ ?_ (hsend _ (hrtt _ _ ?_ hc))
      · exact fun _ => rfl
      · exact fun _ => rfl
    · exact hc
    · dsimp only
      refine hrtt c _ ?_ hc
      exact fun _ => rfl
  have withSoon : ∀ f : Conn → Conn, (∀ c, P c → P (f c)) →
      ∀ c, P c → P (tcpSendWith f e c).1 := by
    intro f hf c hc
    unfold tcpSendWith
    split_ifs with hfail
    · exact hf _ (hloop c hc)
    · exact hdone c (by simpa using hfail) hc
  have send : ∀ n c, P c → P (tcpSendFuel e n c).1 := by
    intro n
    induction n with
    | zero => exact withSoon id fun _ hc => hc
    | succ n ih => exact withSoon _ (soon _ ih)
  exact ⟨send _ c h, soon _ (send _) c h⟩

/-! ## What sending leaves alone -/

/-- The control block without the fields that sending writes. -/
def TcpSocket.core (s : TcpSocket) : TcpSocket :=
  { s with
    rtt := {}
    advWin := 0
    flags := { s.flags with push := false }
    locflags := { s.locflags with useTstamp := false }
    sendUna := 0 }

/-- The segments of the call are those of a sending loop started from its entry state. -/
def SendCall.Emitted (e : Env) (k : SendCall) : Prop :=
  ∃ buf ok, k.segs =
    (sendLoop e k.entry.rtt.cwindow.toNat ok true (sendStart k.entry buf)).1.segs

/-- What `_tcp_send` and `_tcp_sendsoon` may do to a connection. -/
structure Conn.Sent (e : Env) (c c' : Conn) : Prop where
  core : c'.s.core = c.s.core
  threaded : c'.threaded = c.threaded
  resets : c'.resets = c.resets
  iss : c'.iss = c.iss
  accepted : c'.accepted = c.accepted
  acked : c'.acked = c.acked
  calls : ∃ new, c'.calls = c.calls ++ new ∧ ∀ k ∈ new, k.entry.core = c.s.core ∧ k.Emitted e

section Frame

variable {e : Env} {s : TcpSocket} {c : Conn}

theorem optionsUnsigned_core {buf : ℕ → Byte} {opt : ℕ} {isSyn : Bool} :
    (optionsUnsigned e s buf opt isSyn).s.core = s.core := by
  unfold optionsUnsigned
  split_ifs <;> rfl

theorem tcpOptions_core {buf : ℕ → Byte} {opt : ℕ} {isSyn : Bool} :
    (tcpOptions e s buf opt isSyn).s.core = s.core := by
  unfold tcpOptions
  split_ifs
  · rfl
  · cases s.secret <;> exact optionsUnsigned_core

theorem sendSegment_core {l : SendLoop} {first : Bool} :
    (sendSegment e l first).s.core = l.s.core := by
  have h : (sendOptions e l first).s.core = l.s.core := tcpOptions_core
  rw [← h]
  unfold sendSegment
  dsimp only
  split_ifs <;> rfl

theorem sendLoop_core {n : ℕ} {ok : List Bool} {first : Bool} {l : SendLoop} :
    (sendLoop e n ok first l).1.s.core = l.s.core := by
  induction n generalizing ok first l with
  | zero => rfl
  | succ n ih =>
    unfold sendLoop
    dsimp only
    split_ifs
    · exact sendSegment_core
    · exact sendSegment_core
    · exact ih.trans sendSegment_core

theorem sendTurns_core : (sendTurns e c).1.s.core = c.s.core := sendLoop_core

theorem Conn.Sent.refl : c.Sent e c := ⟨rfl, rfl, rfl, rfl, rfl, rfl, [], by simp, by simp⟩

theorem Conn.Sent.afterTurns {c' : Conn} (h : c.Sent e c') : c.Sent e (afterTurns e c') where
  core := sendTurns_core.trans h.core
  threaded := h.threaded
  resets := h.resets
  iss := h.iss
  accepted := h.accepted
  acked := h.acked
  calls := by
    obtain ⟨new, hnew, hall⟩ := h.calls
    refine ⟨new ++ [⟨c'.s, (sendTurns e c').1.segs⟩], ?_, ?_⟩
    · rw [Tcp.afterTurns, hnew, List.append_assoc]
    · intro k hk
      rcases List.mem_append.mp hk with hk | hk
      · exact hall k hk
      · rw [List.mem_singleton.mp hk]
        exact ⟨h.core, _, _, rfl⟩

/-- **Sending leaves the rest alone**: `_tcp_send` and `_tcp_sendsoon` change the timing, the
advertised window, PUSH, the time stamp mark and `send_una`, and log their calls. -/
theorem tcpSend_sent : c.Sent e (tcpSend e c).1 ∧ c.Sent e (tcpSendsoon e c).1 := by
  apply sending_rule (P := c.Sent e)
  · exact fun c' h => h.afterTurns
  · intro c' _ h
    have := h.afterTurns
    exact ⟨this.core, this.threaded, this.resets, this.iss, this.accepted, this.acked, this.calls⟩
  · exact fun c' f _ h => ⟨h.core, h.threaded, h.resets, h.iss, h.accepted, h.acked, h.calls⟩
  · exact Conn.Sent.refl

variable (e c)

@[simp] theorem tcpSend_rx : (tcpSend e c).1.s.rx = c.s.rx :=
  (congrArg TcpSocket.rx tcpSend_sent.1.core :)

@[simp] theorem tcpSend_tx : (tcpSend e c).1.s.tx = c.s.tx :=
  (congrArg TcpSocket.tx tcpSend_sent.1.core :)

@[simp] theorem tcpSend_state : (tcpSend e c).1.s.state = c.s.state :=
  (congrArg TcpSocket.state tcpSend_sent.1.core :)

@[simp] theorem tcpSend_unhappy : (tcpSend e c).1.s.unhappy = c.s.unhappy :=
  (congrArg TcpSocket.unhappy tcpSend_sent.1.core :)

@[simp] theorem tcpSend_ipType : (tcpSend e c).1.s.ipType = c.s.ipType :=
  (congrArg TcpSocket.ipType tcpSend_sent.1.core :)

@[simp] theorem tcpSend_protoHandler : (tcpSend e c).1.s.protoHandler = c.s.protoHandler :=
  (congrArg TcpSocket.protoHandler tcpSend_sent.1.core :)

@[simp] theorem tcpSend_flags_fin : (tcpSend e c).1.s.flags.fin = c.s.flags.fin :=
  (congrArg (fun s => s.flags.fin) tcpSend_sent.1.core :)

@[simp] theorem tcpSend_locflags_linger : (tcpSend e c).1.s.locflags.linger = c.s.locflags.linger :=
  (congrArg (fun s => s.locflags.linger) tcpSend_sent.1.core :)

@[simp] theorem tcpSend_threaded : (tcpSend e c).1.threaded = c.threaded := tcpSend_sent.1.threaded

@[simp] theorem tcpSend_iss : (tcpSend e c).1.iss = c.iss := tcpSend_sent.1.iss

@[simp] theorem tcpSend_accepted : (tcpSend e c).1.accepted = c.accepted := tcpSend_sent.1.accepted

@[simp] theorem tcpSend_acked : (tcpSend e c).1.acked = c.acked := tcpSend_sent.1.acked

@[simp] theorem tcpSendsoon_rx : (tcpSendsoon e c).1.s.rx = c.s.rx :=
  (congrArg TcpSocket.rx tcpSend_sent.2.core :)

@[simp] theorem tcpSendsoon_tx : (tcpSendsoon e c).1.s.tx = c.s.tx :=
  (congrArg TcpSocket.tx tcpSend_sent.2.core :)

@[simp] theorem tcpSendsoon_state : (tcpSendsoon e c).1.s.state = c.s.state :=
  (congrArg TcpSocket.state tcpSend_sent.2.core :)

@[simp] theorem tcpSendsoon_unhappy : (tcpSendsoon e c).1.s.unhappy = c.s.unhappy :=
  (congrArg TcpSocket.unhappy tcpSend_sent.2.core :)

@[simp] theorem tcpSendsoon_ipType : (tcpSendsoon e c).1.s.ipType = c.s.ipType :=
  (congrArg TcpSocket.ipType tcpSend_sent.2.core :)

@[simp] theorem tcpSendsoon_protoHandler : (tcpSendsoon e c).1.s.protoHandler = c.s.protoHandler :=
  (congrArg TcpSocket.protoHandler tcpSend_sent.2.core :)

@[simp] theorem tcpSendsoon_flags_fin : (tcpSendsoon e c).1.s.flags.fin = c.s.flags.fin :=
  (congrArg (fun s => s.flags.fin) tcpSend_sent.2.core :)

@[simp] theorem tcpSendsoon_locflags_linger : (tcpSendsoon e c).1.s.locflags.linger = c.s.locflags.linger :=
  (congrArg (fun s => s.locflags.linger) tcpSend_sent.2.core :)

@[simp] theorem tcpSendsoon_threaded : (tcpSendsoon e c).1.threaded = c.threaded := tcpSend_sent.2.threaded

@[simp] theorem tcpSendsoon_iss : (tcpSendsoon e c).1.iss = c.iss := tcpSend_sent.2.iss

@[simp] theorem tcpSendsoon_accepted : (tcpSendsoon e c).1.accepted = c.accepted := tcpSend_sent.2.accepted

@[simp] theorem tcpSendsoon_acked : (tcpSendsoon e c).1.acked = c.acked := tcpSend_sent.2.acked

end Frame

end Watt32.Tcp
