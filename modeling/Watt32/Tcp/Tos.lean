import Watt32.Tcp.Calls

/-!
# What the state functions take from the IP header

The type of service, and nothing else but the segment's length.

* `Conn.erase`: the connection without the type of service and the resets sent.
* `Blind`: a change that does not look at them.
* `takesLen`: whether a state function computes the length of the segment.
* **`tcpFsm_congr`**: `_tcp_fsm` on two segments with the same TCP part.
-/

namespace Watt32.Tcp

/-- The control block without the type of service. -/
def TcpSocket.eraseTos (s : TcpSocket) : TcpSocket := { s with tos := 0 }

/-- The connection without the type of service, in the log too, and without the resets sent. -/
def Conn.erase (c : Conn) : Conn :=
  { c with
    s := c.s.eraseTos
    calls := c.calls.map fun call => { call with entry := call.entry.eraseTos }
    resets := [] }

/-- The loop variables without the type of service. -/
def SendLoop.eraseTos (l : SendLoop) : SendLoop := { l with s := l.s.eraseTos }

section Tos

variable {e : Env}

theorem optionsUnsigned_eraseTos (s : TcpSocket) (buf : ℕ → Byte) (opt : ℕ) (isSyn : Bool) :
    optionsUnsigned e s.eraseTos buf opt isSyn =
      { optionsUnsigned e s buf opt isSyn with
        s := (optionsUnsigned e s buf opt isSyn).s.eraseTos } := by
  unfold optionsUnsigned TcpSocket.eraseTos
  dsimp only
  split_ifs <;> rfl

theorem tcpOptions_eraseTos (s : TcpSocket) (buf : ℕ → Byte) (opt : ℕ) (isSyn : Bool) :
    tcpOptions e s.eraseTos buf opt isSyn =
      { tcpOptions e s buf opt isSyn with s := (tcpOptions e s buf opt isSyn).s.eraseTos } := by
  unfold tcpOptions
  rw [optionsUnsigned_eraseTos, show s.eraseTos.secret = s.secret from rfl,
    show s.eraseTos.locflags = s.locflags from rfl]
  split_ifs
  · rfl
  · cases s.secret <;> rfl

theorem sendSegment_eraseTos (l : SendLoop) (first : Bool) :
    sendSegment e l.eraseTos first = (sendSegment e l first).eraseTos := by
  have ho : sendOptions e l.eraseTos first =
      { sendOptions e l first with s := (sendOptions e l first).s.eraseTos } :=
    tcpOptions_eraseTos { l.s with advWin := l.s.rx.maxRxData - l.s.rx.rxDatalen } l.buf l.data
      (first && l.s.flags.syn)
  have hn : ∀ n, sendDataLen l.eraseTos first n = sendDataLen l first n := fun _ => rfl
  unfold sendSegment
  rw [ho]
  dsimp only
  rw [hn]
  unfold SendLoop.eraseTos TcpSocket.eraseTos
  dsimp only
  generalize sendOptions e l first = o
  generalize sendDataLen l first o.len = n
  generalize (decide (0 < n) && decide (n = l.sendTotData) && o.s.flags.push) = push
  cases push <;> rfl

theorem sendLoop_eraseTos (n : ℕ) (ok : List Bool) (first : Bool) (l : SendLoop) :
    sendLoop e n ok first l.eraseTos =
      ((sendLoop e n ok first l).1.eraseTos, (sendLoop e n ok first l).2) := by
  induction n generalizing ok first l with
  | zero => rfl
  | succ n ih =>
    unfold sendLoop
    dsimp only
    rw [sendSegment_eraseTos, ih, show (sendSegment e l first).eraseTos.sendTotData =
      (sendSegment e l first).sendTotData from rfl]
    split_ifs <;> rfl

theorem sendTurns_erase (c : Conn) :
    sendTurns e c.erase = ((sendTurns e c).1.eraseTos, (sendTurns e c).2) := by
  unfold sendTurns
  rw [← sendLoop_eraseTos]
  unfold Conn.erase
  rw [List.length_map]
  rfl

theorem afterTurns_erase (c : Conn) : afterTurns e c.erase = (afterTurns e c).erase := by
  unfold afterTurns
  rw [sendTurns_erase]
  unfold Conn.erase
  dsimp only
  rw [List.map_append]
  rfl

theorem sendDone_erase (c : Conn) : sendDone e c.erase = (sendDone e c).erase := by
  unfold sendDone
  rw [afterTurns_erase, sendTurns_erase]
  rfl

theorem tcpSendWith_erase {soon : Conn → Conn} (hsoon : ∀ c, soon c.erase = (soon c).erase)
    (c : Conn) : tcpSendWith soon e c.erase =
      ((tcpSendWith soon e c).1.erase, (tcpSendWith soon e c).2) := by
  unfold tcpSendWith
  rw [sendTurns_erase, afterTurns_erase, sendDone_erase, hsoon]
  dsimp only
  split_ifs <;> rfl

theorem tcpSendsoonWith_erase {send : Conn → Conn × ℤ}
    (hsend : ∀ c, send c.erase = ((send c).1.erase, (send c).2)) (c : Conn) :
    tcpSendsoonWith send e c.erase =
      ((tcpSendsoonWith send e c).1.erase, (tcpSendsoonWith send e c).2) := by
  have hrtt : ∀ f, c.erase.updRtt f = (c.updRtt f).erase := fun _ => rfl
  unfold tcpSendsoonWith
  rw [hrtt, hrtt, hsend, show c.erase.s.ipType = c.s.ipType from rfl,
    show c.erase.s.rtt = c.s.rtt from rfl, show c.erase.s.unhappy = c.s.unhappy from rfl,
    show c.erase.s.tx = c.s.tx from rfl,
    show soonTimeout e c.erase.s = soonTimeout e c.s from rfl]
  split_ifs <;> rfl

theorem tcpSendFuel_erase (n : ℕ) (c : Conn) : tcpSendFuel e n c.erase =
    ((tcpSendFuel e n c).1.erase, (tcpSendFuel e n c).2) := by
  induction n generalizing c with
  | zero => exact tcpSendWith_erase (fun c => (rfl : id c.erase = (id c).erase)) c
  | succ n ih =>
    refine tcpSendWith_erase (fun c => ?_) c
    rw [tcpSendsoonWith_erase ih]

/-- Sending does not look at the type of service. -/
theorem tcpSend_erase (c : Conn) :
    tcpSend e c.erase = ((tcpSend e c).1.erase, (tcpSend e c).2) :=
  tcpSendFuel_erase c.txOk.length c

theorem tcpSendsoon_erase (c : Conn) :
    tcpSendsoon e c.erase = ((tcpSendsoon e c).1.erase, (tcpSendsoon e c).2) :=
  tcpSendsoonWith_erase tcpSend_erase c

/-! A segment's header and data do not look at it either. -/

theorem tcpSetWindow_eraseTos (s : TcpSocket) (hdr : TcpHeader) :
    tcpSetWindow e s.eraseTos hdr = (tcpSetWindow e s hdr).eraseTos := by
  unfold tcpSetWindow TcpSocket.eraseTos
  dsimp only
  split_ifs <;> cases e.heap <;> rfl

theorem processOptions_eraseTos (seg : InSegment) (d : ℕ) (flags : TcpFlags) (num opt : ℕ)
    (s : TcpSocket) : processOptions seg d flags num opt s.eraseTos =
      (processOptions seg d flags num opt s).eraseTos := by
  induction num generalizing opt s with
  | zero => rfl
  | succ num ih =>
    unfold processOptions
    dsimp only
    by_cases h : d ≤ opt
    · rw [if_pos h, if_pos h]
    · rw [if_neg h, if_neg h]
      split
      case h_1 => rfl
      case h_2 => exact ih _ _
      case h_3 =>
        rw [← ih]
        congr 1
        split_ifs <;> first | rfl | contradiction
      case h_4 =>
        rw [← ih]
        congr 1
        split_ifs <;> first | rfl | contradiction
      case h_5 =>
        rw [← ih]
        congr 1
        split_ifs <;> rfl
      case h_6 =>
        rw [← ih]
        congr 1
        split_ifs <;> rfl
      case h_7 => exact ih _ _
      case h_8 => exact ih _ _

theorem processHeader_eraseTos (s : TcpSocket) (seg : InSegment) (flags : TcpFlags) :
    processHeader e s.eraseTos seg flags = (processHeader e s seg flags).eraseTos := by
  have hwin : tcpSetWindow e (spendStress s.eraseTos) seg.hdr =
      (tcpSetWindow e (spendStress s) seg.hdr).eraseTos := tcpSetWindow_eraseTos (spendStress s) _
  unfold processHeader
  rw [hwin]
  dsimp only
  split_ifs
  · exact processOptions_eraseTos seg _ flags 10 20
      { tcpSetWindow e (spendStress s) seg.hdr with
        locflags := { (tcpSetWindow e (spendStress s) seg.hdr).locflags with useTstamp := false } }
  · rfl

theorem processData_erase (c : Conn) (seg : InSegment) (flags : TcpFlags) :
    processData e c.erase seg flags =
      ((processData e c seg flags).1.erase, (processData e c seg flags).2) := by
  have h : tcpProcessData e c.s.eraseTos seg flags =
      ((tcpProcessData e c.s seg flags).1.eraseTos, (tcpProcessData e c.s seg flags).2) := by
    unfold tcpProcessData
    rw [processHeader_eraseTos]
    dsimp only [TcpSocket.eraseTos]
    split_ifs <;> rfl
  unfold processData
  rw [show c.erase.s = c.s.eraseTos from rfl, h]
  rfl

variable {c c' : Conn} {seg seg' : InSegment} {flags : TcpFlags}

/-- A change that does not look at the type of service. -/
def Blind (g : Conn → Conn) : Prop := ∀ c, g c.erase = (g c).erase

theorem Blind.comp {f g : Conn → Conn} (hf : Blind f) (hg : Blind g) :
    Blind fun c => f (g c) := by
  intro c
  dsimp only
  rw [hg c, hf (g c)]

theorem blind_upd {f : TcpSocket → TcpSocket} (hf : ∀ s, f s.eraseTos = (f s).eraseTos) :
    Blind fun c => c.upd f := by
  intro c
  show { c.erase with s := f c.s.eraseTos } = { c.erase with s := (f c.s).eraseTos }
  rw [hf]

theorem blind_tcpSend : Blind fun c => (tcpSend e c).1 := fun c =>
  congrArg Prod.fst (tcpSend_erase c)

theorem blind_tcpSendsoon : Blind fun c => (tcpSendsoon e c).1 := fun c =>
  congrArg Prod.fst (tcpSendsoon_erase c)

theorem blind_processData : Blind fun c => (processData e c seg flags).1 := fun c =>
  congrArg Prod.fst (processData_erase c seg flags)

/-- Such a change keeps connections alike. -/
theorem Blind.congr {g : Conn → Conn} (hg : Blind g) (h : c.erase = c'.erase) :
    (g c).erase = (g c').erase := by
  rw [← hg c, h, hg c']

/-! ## The state functions -/

/-- Two segments with the same TCP header and the same bytes from it on. -/
structure InSegment.SameTcp (seg seg' : InSegment) : Prop where
  hdr : seg.hdr = seg'.hdr
  flagsHi : seg.flagsHi = seg'.flagsHi
  mem : seg.mem = seg'.mem

/-- Whether the state function computes the length of the segment. -/
def takesLen (s : TcpSocket) (hdr : TcpHeader) : Bool :=
  match s.state with
  | .synsent => hdr.flags.syn ∧ hdr.flags.ack ∧ hdr.acknum = s.tx.sendNext + 1
  | .estab => ¬(hdr.flags.syn ∧ hdr.flags.ack) ∧ hdr.flags.ack
  | .estcl => ¬(hdr.flags.syn ∧ hdr.flags.ack) ∧ hdr.flags.ack
  | .closwt => ¬(hdr.flags.syn ∧ hdr.flags.ack) ∧ hdr.flags.ack
  | .finwt1 => true
  | .finwt2 => true
  | _ => false

theorem processOptions_congr (h : seg.SameTcp seg') (d num opt : ℕ) (s : TcpSocket) :
    processOptions seg d flags num opt s = processOptions seg' d flags num opt s := by
  induction num generalizing opt s with
  | zero => rfl
  | succ num ih =>
    unfold processOptions
    simp only [ih, h.mem, h.hdr]

theorem processHeader_congr (h : seg.SameTcp seg') (s : TcpSocket) :
    processHeader e s seg flags = processHeader e s seg' flags := by
  unfold processHeader tcpProcessOptions
  simp only [processOptions_congr h, h.hdr]

theorem processData_congr (h : seg.SameTcp seg') (hlen : seg.tcpLen = seg'.tcpLen) (c : Conn) :
    processData e c seg flags = processData e c seg' flags := by
  have hdata : seg.dataLen = seg'.dataLen := by
    unfold InSegment.dataLen
    rw [hlen, h.hdr]
  have hin : ∀ p b d len diff, dataInOrder p b seg d len diff = dataInOrder p b seg' d len diff := by
    intro p b d len diff
    unfold dataInOrder catchUp copyInOrder
    rw [h.mem]
  have hout : ∀ b d len diff, dataOutOfOrder b seg d len diff = dataOutOfOrder b seg' d len diff := by
    intro b d len diff
    unfold dataOutOfOrder appendOutOfOrder prependOutOfOrder
    rw [h.mem, h.hdr]
  unfold processData tcpProcessData
  simp only [processHeader_congr h, hdata, h.hdr, hin, hout]

theorem tcpEstabState_congr (h : seg.SameTcp seg')
    (hlen : ¬(flags.syn = true ∧ flags.ack = true) ∧ flags.ack = true → seg.tcpLen = seg'.tcpLen) :
    tcpEstabState e c seg flags = tcpEstabState e c seg' flags := by
  unfold tcpEstabState estabReply
  by_cases hsynack : flags.syn = true ∧ flags.ack = true
  · rw [if_pos hsynack, if_pos hsynack]
  · rw [if_neg hsynack, if_neg hsynack]
    by_cases hack : flags.ack = false
    · rw [if_pos hack, if_pos hack]
    · have hlen' := hlen ⟨hsynack, Bool.eq_true_of_not_eq_false hack⟩
      simp only [processData_congr h hlen', h.hdr, hlen']

theorem tcpFinwt1State_congr (h : seg.SameTcp seg') (hlen : seg.tcpLen = seg'.tcpLen) :
    tcpFinwt1State e c seg flags = tcpFinwt1State e c seg' flags := by
  unfold tcpFinwt1State
  simp only [processData_congr h hlen, h.hdr]

theorem tcpFinwt2State_congr (h : seg.SameTcp seg') (hlen : seg.tcpLen = seg'.tcpLen) :
    tcpFinwt2State e c seg flags = tcpFinwt2State e c seg' flags := by
  unfold tcpFinwt2State
  simp only [processData_congr h hlen, h.hdr]

/-! LISTEN and SYNSENT take the type of service. -/

@[simp] theorem tcpSendReset_erase : (tcpSendReset e c seg).erase = c.erase := by
  unfold tcpSendReset
  dsimp only
  by_cases hno : ¬ e.rstAllowed ∨ (seg.hdr.flags = {} ∧ seg.flagsHi = 0) ∨ seg.hdr.flags.rst
  · rw [if_pos hno]
  · rw [if_neg hno]
    rfl

theorem tcpListenState_congr (h : seg.SameTcp seg') :
    (tcpListenState e c seg flags).1.erase = (tcpListenState e c seg' flags).1.erase ∧
      (tcpListenState e c seg flags).2 = (tcpListenState e c seg' flags).2 := by
  unfold tcpListenState
  rw [h.hdr]
  by_cases hsyn : flags.syn = true
  · rw [if_pos hsyn, if_pos hsyn]
    have hupd : ∀ timeout, Blind fun c => c.upd fun s => { s with timeout := timeout } :=
      fun timeout => blind_upd (f := fun s => { s with timeout := timeout }) fun _ => rfl
    have hlike : (c.upd fun s => { s with
        tos := if s.tos < seg.tos then seg.tos else s.tos
        rx := { s.rx with recvNext := seg'.hdr.seqnum + 1 }
        flags := flagSynAck
        state := .synrec
        unhappy := true }).erase = (c.upd fun s => { s with
        tos := if s.tos < seg'.tos then seg'.tos else s.tos
        rx := { s.rx with recvNext := seg'.hdr.seqnum + 1 }
        flags := flagSynAck
        state := .synrec
        unhappy := true }).erase := rfl
    exact ⟨((hupd _).comp blind_tcpSend).congr hlike, rfl⟩
  · rw [if_neg hsyn, if_neg hsyn]
    exact ⟨tcpSendReset_erase.trans tcpSendReset_erase.symm, rfl⟩

theorem blind_synsentEstablish : Blind fun c => synsentEstablish e c seg flags := by
  have hestab : Blind fun c => c.upd fun s => { s with
      state := .estab
      tx := { s.tx with sendNext := s.tx.sendNext + 1 }
      rx := { s.rx with recvNext := seg.hdr.seqnum + 1 } } :=
    blind_upd (f := fun s => { s with
      state := .estab
      tx := { s.tx with sendNext := s.tx.sendNext + 1 }
      rx := { s.rx with recvNext := seg.hdr.seqnum + 1 } }) fun _ => rfl
  have hunhappy : Blind fun c => c.upd fun s => { s with unhappy := 0 < s.tx.txDatalen } :=
    blind_upd (f := fun s => { s with unhappy := 0 < s.tx.txDatalen }) fun _ => rfl
  exact blind_tcpSend.comp (hunhappy.comp (blind_processData.comp hestab))

theorem blind_synsentRestart : Blind (synsentRestart e) := by
  have hreset : Blind fun c => c.upd fun s => { s with flags := { rst := true }, unhappy := true } :=
    blind_upd (f := fun s => { s with flags := { rst := true }, unhappy := true }) fun _ => rfl
  have hrestart : Blind fun c => { c with
      s := { c.s with tx := { c.s.tx with sendNext := e.isn }, flags := { syn := true } }
      iss := e.isn } := fun _ => rfl
  exact blind_tcpSendsoon.comp (hrestart.comp (blind_tcpSend.comp hreset))

theorem synsentEstablish_congr (h : seg.SameTcp seg') (hlen : seg.tcpLen = seg'.tcpLen)
    (c : Conn) : synsentEstablish e c seg flags = synsentEstablish e c seg' flags := by
  unfold synsentEstablish
  rw [h.hdr]
  simp only [processData_congr h hlen]

/-- `tcp_synsent_state` on a SYN+ACK. -/
theorem synsentAck_congr (h : c.erase = c'.erase) (hseg : seg.SameTcp seg')
    (hlen : seg'.hdr.acknum = c'.s.tx.sendNext + 1 → seg.tcpLen = seg'.tcpLen) :
    (if seg.hdr.acknum = c.s.tx.sendNext + 1 then (synsentEstablish e c seg flags, true)
      else (synsentRestart e c, true)).1.erase =
    (if seg'.hdr.acknum = c'.s.tx.sendNext + 1 then (synsentEstablish e c' seg' flags, true)
      else (synsentRestart e c', true)).1.erase ∧
    (if seg.hdr.acknum = c.s.tx.sendNext + 1 then (synsentEstablish e c seg flags, true)
      else (synsentRestart e c, true)).2 =
    (if seg'.hdr.acknum = c'.s.tx.sendNext + 1 then (synsentEstablish e c' seg' flags, true)
      else (synsentRestart e c', true)).2 := by
  have hnum : c.s.tx.sendNext = c'.s.tx.sendNext :=
    (congrArg (fun c : Conn => c.s.tx.sendNext) h :)
  rw [hnum, hseg.hdr]
  by_cases hack : seg'.hdr.acknum = c'.s.tx.sendNext + 1
  · rw [if_pos hack, if_pos hack, synsentEstablish_congr hseg (hlen hack)]
    exact ⟨blind_synsentEstablish.congr h, rfl⟩
  · rw [if_neg hack, if_neg hack]
    exact ⟨blind_synsentRestart.congr h, rfl⟩

theorem tcpSynsentState_congr (h : seg.SameTcp seg')
    (hlen : flags.syn = true ∧ flags.ack = true ∧ seg'.hdr.acknum = c.s.tx.sendNext + 1 →
      seg.tcpLen = seg'.tcpLen) :
    (tcpSynsentState e c seg flags).1.erase = (tcpSynsentState e c seg' flags).1.erase ∧
      (tcpSynsentState e c seg flags).2 = (tcpSynsentState e c seg' flags).2 := by
  unfold tcpSynsentState
  by_cases hsyn : flags.syn = true
  · rw [if_pos hsyn, if_pos hsyn]
    have hlike : ∀ timeout, (c.upd fun s => { s with
        tos := if s.tos < seg.tos then seg.tos else s.tos
        flags := s.flags.keepPushAck
        timeout := timeout }).erase = (c.upd fun s => { s with
        tos := if s.tos < seg'.tos then seg'.tos else s.tos
        flags := s.flags.keepPushAck
        timeout := timeout }).erase := fun _ => rfl
    by_cases hack : flags.ack = true
    · rw [if_pos hack, if_pos hack]
      exact synsentAck_congr (hlike _) h fun hnum => hlen ⟨hsyn, hack, hnum⟩
    · rw [if_neg hack, if_neg hack]
      have hsynrec : Blind fun c => c.upd fun s => { s with
          rx := { s.rx with recvNext := s.rx.recvNext + 1 }
          state := .synrec } :=
        blind_upd (f := fun s => { s with
          rx := { s.rx with recvNext := s.rx.recvNext + 1 }
          state := .synrec }) fun _ => rfl
      exact ⟨hsynrec.congr (hlike _), rfl⟩
  · rw [if_neg hsyn, if_neg hsyn]
    exact ⟨tcpSendReset_erase.trans tcpSendReset_erase.symm, rfl⟩

/-- **The state functions take the type of service and the length from the IP header**, and the
length only where `takesLen` says so. -/
theorem tcpFsm_congr (h : seg.SameTcp seg')
    (hlen : takesLen c.s seg'.hdr = true → seg.tcpLen = seg'.tcpLen) :
    (tcpFsm e c seg).1.erase = (tcpFsm e c seg').1.erase ∧
      (tcpFsm e c seg).2 = (tcpFsm e c seg').2 := by
  have hhdr := h.hdr
  unfold takesLen at hlen
  unfold tcpFsm
  rw [hhdr]
  cases hstate : c.s.state with
  | listen => exact tcpListenState_congr h
  | resolve => exact ⟨rfl, rfl⟩
  | closed => exact ⟨rfl, rfl⟩
  | timewt => exact ⟨rfl, rfl⟩
  | synsent =>
    rw [hstate] at hlen
    exact tcpSynsentState_congr h fun hnum => hlen (decide_eq_true hnum)
  | synrec =>
    dsimp only
    unfold tcpSynrecState
    rw [hhdr]
    exact ⟨rfl, rfl⟩
  | estab =>
    rw [hstate] at hlen
    dsimp only
    rw [tcpEstabState_congr h fun hack => hlen (decide_eq_true hack)]
    exact ⟨rfl, rfl⟩
  | estcl =>
    rw [hstate] at hlen
    dsimp only [tcpEstclState]
    rw [tcpEstabState_congr h fun hack => hlen (decide_eq_true hack)]
    exact ⟨rfl, rfl⟩
  | closwt =>
    rw [hstate] at hlen
    dsimp only [tcpClosewtState]
    rw [tcpEstabState_congr h fun hack => hlen (decide_eq_true hack)]
    exact ⟨rfl, rfl⟩
  | finwt1 =>
    rw [hstate] at hlen
    dsimp only
    rw [tcpFinwt1State_congr h (hlen rfl)]
    exact ⟨rfl, rfl⟩
  | finwt2 =>
    rw [hstate] at hlen
    dsimp only
    rw [tcpFinwt2State_congr h (hlen rfl)]
    exact ⟨rfl, rfl⟩
  | closing =>
    dsimp only
    unfold tcpClosingState
    rw [hhdr]
    exact ⟨rfl, rfl⟩
  | lastack =>
    dsimp only
    unfold tcpLastackState
    rw [hhdr]
    exact ⟨rfl, rfl⟩

end Tos

end Watt32.Tcp
