import Watt32.Tcp.Cancel
import Watt32.Tcp.Moves

/-!
# What segments are cut to

How a run changes `max_seg` and what else decides the length of a segment: the congestion window, the
peer's window, SYN, and whether there are options.

* `InSegment.mss`: the MSS values of a segment; `takeMss`: what one of them does.
* `Beat R`: what may become of these fields when the MSS values taken are in `A`.
* `Paces R`: the same of a connection, and of the control block at every call of `_tcp_send`.
* **`stepNet_paces`**: all a step does.
-/

namespace Watt32.Tcp

/-! ## MSS values -/

/-- The MSS values that the loop of `tcp_process_options` meets. -/
def mssValues (seg : InSegment) (tcpData : ℕ) : (num opt : ℕ) → List Word
  | 0, _ => []
  | num + 1, opt =>
    if tcpData ≤ opt then [] else
    match (seg.mem opt).toNat with
    | 0 => []
    | 1 => mssValues seg tcpData num (opt + 1)
    | 2 => readWord seg.mem (opt + 2) :: mssValues seg tcpData num (opt + 4)
    | 8 => mssValues seg tcpData num (opt + 10)
    | 3 => mssValues seg tcpData num (opt + 3)
    | 4 => mssValues seg tcpData num (opt + 2)
    | 14 => mssValues seg tcpData num (opt + 3)
    | _ => mssValues seg tcpData num (opt + (seg.mem (opt + 1)).toNat)

/-- The MSS values of a segment. -/
def InSegment.mss (seg : InSegment) : List Word := mssValues seg seg.hdr.dataOfs 10 20

/-- `max_seg` after the MSS value `v`. -/
def takeMss (maxSeg : Dword) (v : Word) : Dword :=
  if maxSeg = 0 ∨ v.setWidth 32 < maxSeg then v.setWidth 32 else maxSeg

/-- `max_seg` after all MSS values of a segment. -/
def InSegment.takeMss (seg : InSegment) (maxSeg : Dword) : Dword := seg.mss.foldl Tcp.takeMss maxSeg

theorem processOptions_maxSeg (seg : InSegment) (tcpData : ℕ) (flags : TcpFlags) (num opt : ℕ) (s : TcpSocket) :
    (processOptions seg tcpData flags num opt s).maxSeg =
      if flags.syn then (mssValues seg tcpData num opt).foldl takeMss s.maxSeg else s.maxSeg := by
  induction num generalizing opt s with
  | zero => simp [processOptions, mssValues]
  | succ num ih =>
    unfold processOptions mssValues
    by_cases hd : tcpData ≤ opt
    · simp [hd]
    · rw [if_neg hd, if_neg hd]
      generalize (seg.mem opt).toNat = kind
      split
      · simp
      · exact ih ..
      · rw [ih]
        cases flags.syn with
        | false => simp
        | true =>
          simp only [true_and, if_true, List.foldl_cons]
          congr 1
          rw [apply_ite TcpSocket.maxSeg]
          rfl
      · rw [ih]
        split_ifs <;> rfl
      · rw [ih]
        split_ifs <;> rfl
      · rw [ih]
        split_ifs <;> rfl
      · exact ih ..
      · refine (ih ..).trans ?_
        split_ifs
        · first
          | rfl
          | split <;> first | rfl | contradiction
        · rfl

/-- An MSS value is only ever taken from a SYN. -/
theorem tcpProcessOptions_maxSeg (s : TcpSocket) (seg : InSegment) (flags : TcpFlags) :
    (tcpProcessOptions s seg seg.hdr.dataOfs flags).maxSeg =
      if flags.syn then seg.takeMss s.maxSeg else s.maxSeg :=
  processOptions_maxSeg ..

/-! ## Beats -/

/-- What decides the length of a segment, besides the flags. -/
structure Pace where
  maxSeg : Dword
  cwindow : Byte
  window : Dword
  secret : Option (List Byte)
  noopt : Bool

/-- The pace of a control block. -/
def TcpSocket.pace (s : TcpSocket) : Pace := ⟨s.maxSeg, s.rtt.cwindow, s.window, s.secret, s.locflags.noopt⟩

/-- In ESTAB there is no SYN to send. -/
def TcpSocket.Synless (s : TcpSocket) : Prop := s.state = .estab → s.flags.syn = false

/-- What may become of a control block. -/
structure Beat (R : Dword → Dword → Prop) (s s' : TcpSocket) : Prop where
  maxSeg : Relation.ReflTransGen R s.maxSeg s'.maxSeg
  cwindow : s.rtt.cwindow ≠ 0 → s'.rtt.cwindow ≠ 0
  window : s.window.toNat ≤ 65536 → s'.window.toNat ≤ 65536
  synless : s.Synless → s'.Synless
  secret : s'.secret = s.secret
  noopt : s'.locflags.noopt = s.locflags.noopt

/-- The control block at the end, and on entry of every call of `_tcp_send`. -/
structure Paces (R : Dword → Dword → Prop) (c c' : Conn) : Prop where
  beat : Beat R c.s c'.s
  calls : ∀ k ∈ c'.calls.drop c.calls.length, Beat R c.s k.entry ∧ ∃ e, k.Emitted e

variable {R : Dword → Dword → Prop} {s s' s'' : TcpSocket} {b c c' : Conn} {e : Env}

theorem Beat.refl : Beat R s s := ⟨.refl, id, id, id, rfl, rfl⟩

theorem Beat.trans (h : Beat R s s') (h' : Beat R s' s'') : Beat R s s'' where
  maxSeg := h.maxSeg.trans h'.maxSeg
  cwindow := h'.cwindow ∘ h.cwindow
  window := h'.window ∘ h.window
  synless := h'.synless ∘ h.synless
  secret := h'.secret.trans h.secret
  noopt := h'.noopt.trans h.noopt

theorem Beat.ite {p : Prop} [Decidable p] (h : Beat R s s') (h' : Beat R s s'') :
    Beat R s (if p then s' else s'') := by
  split_ifs
  · exact h
  · exact h'

theorem Beat.of_pace (h : s'.pace = s.pace) (hsyn : s.Synless → s'.Synless) : Beat R s s' where
  maxSeg := by rw [show s'.maxSeg = s.maxSeg from congrArg Pace.maxSeg h]
  cwindow := by rw [show s'.rtt.cwindow = s.rtt.cwindow from congrArg Pace.cwindow h]; exact id
  window := by rw [show s'.window = s.window from congrArg Pace.window h]; exact id
  synless := hsyn
  secret := congrArg Pace.secret h
  noopt := congrArg Pace.noopt h

theorem Paces.refl : Paces R c c := ⟨.refl, by simp⟩

theorem Paces.upd (h : Paces R b c) {f : TcpSocket → TcpSocket} (hf : Beat R c.s (f c.s)) :
    Paces R b (c.upd f) := ⟨h.beat.trans hf, h.calls⟩

theorem Paces.rtt (h : Paces R b c) {f : Rtt → Rtt} (hf : c.s.rtt.cwindow ≠ 0 → (f c.s.rtt).cwindow ≠ 0) :
    Paces R b (c.updRtt f) := h.upd ⟨.refl, hf, id, id, rfl, rfl⟩

/-- A change beside the pace, the state and SYN. -/
theorem Paces.beside (h : Paces R b c) (f : TcpSocket → TcpSocket) (hp : (f c.s).pace = c.s.pace)
    (hst : (f c.s).state = c.s.state) (hfl : (f c.s).flags.syn = c.s.flags.syn) : Paces R b (c.upd f) :=
  h.upd (.of_pace hp fun hs hs' => hfl.trans (hs (hst.symm.trans hs')))

/-- A change of the state, not to ESTAB. -/
theorem Paces.leave (h : Paces R b c) (st : TcpState) (f : TcpSocket → TcpSocket)
    (hp : (f c.s).pace = c.s.pace) (hst : (f c.s).state = st) (hne : st ≠ .estab) : Paces R b (c.upd f) :=
  h.upd (.of_pace hp fun _ hs => absurd (hst.symm.trans hs) hne)

/-- A change of the flags that clears SYN. -/
theorem Paces.plain (h : Paces R b c) (f : TcpSocket → TcpSocket) (hp : (f c.s).pace = c.s.pace)
    (hfl : (f c.s).flags.syn = false) : Paces R b (c.upd f) :=
  h.upd (.of_pace hp fun _ _ => hfl)

theorem Paces.timer (h : Paces R b c) (t : Dword) : Paces R b (c.upd fun s => { s with timeout := t }) :=
  h.beside _ rfl rfl rfl

theorem Paces.unhappy (h : Paces R b c) (u : Bool) : Paces R b (c.upd fun s => { s with unhappy := u }) :=
  h.beside _ rfl rfl rfl

theorem Paces.ite {p : Prop} [Decidable p] (h : Paces R b c) (h' : Paces R b c') :
    Paces R b (if p then c else c') := by
  split_ifs
  · exact h
  · exact h'

/-! ## Sending, closing, resetting -/

theorem sendSegment_cwindow {l : SendLoop} {first : Bool} :
    (sendSegment e l first).s.rtt.cwindow = l.s.rtt.cwindow := by
  have h : (sendOptions e l first).s.rtt.cwindow = l.s.rtt.cwindow := by
    unfold sendOptions tcpOptions optionsUnsigned
    split_ifs <;> cases l.s.secret <;> rfl
  rw [← h]
  unfold sendSegment
  dsimp only
  split_ifs <;> rfl

theorem sendLoop_cwindow (n : ℕ) (ok : List Bool) (first : Bool) (l : SendLoop) :
    (sendLoop e n ok first l).1.s.rtt.cwindow = l.s.rtt.cwindow := by
  induction n generalizing ok first l with
  | zero => rfl
  | succ n ih =>
    unfold sendLoop
    dsimp only
    split_ifs
    · exact sendSegment_cwindow
    · exact sendSegment_cwindow
    · rw [ih]
      exact sendSegment_cwindow

theorem sendTurns_beat (e : Env) (c : Conn) : Beat R c.s (sendTurns e c).1.s := by
  have hcore := @sendTurns_core e c
  refine .of_pace ?_ fun hs hst => ?_
  · have hcw : (sendTurns e c).1.s.rtt.cwindow = c.s.rtt.cwindow := sendLoop_cwindow ..
    unfold TcpSocket.pace
    rw [hcw, show (sendTurns e c).1.s.maxSeg = c.s.maxSeg from (congrArg TcpSocket.maxSeg hcore :),
      show (sendTurns e c).1.s.window = c.s.window from (congrArg TcpSocket.window hcore :),
      show (sendTurns e c).1.s.secret = c.s.secret from (congrArg TcpSocket.secret hcore :),
      show (sendTurns e c).1.s.locflags.noopt = c.s.locflags.noopt from
        (congrArg (fun s => s.locflags.noopt) hcore :)]
  · have hst' : (sendTurns e c).1.s.state = c.s.state := (congrArg TcpSocket.state hcore :)
    exact (congrArg (fun s => s.flags.syn) hcore :).trans (hs (hst'.symm.trans hst))

theorem Paces.afterTurns (h : Paces R b c) : Paces R b (afterTurns e c) := by
  refine ⟨h.beat.trans (sendTurns_beat e c), fun k hk => ?_⟩
  unfold Tcp.afterTurns at hk
  rw [List.drop_append] at hk
  rcases List.mem_append.mp hk with hk | hk
  · exact h.calls k hk
  · rw [List.mem_singleton.mp (List.mem_of_mem_drop hk)]
    exact ⟨h.beat, e, _, _, rfl⟩

/-- **Sending** keeps the pace. -/
theorem Paces.sent (h : Paces R b c) : Paces R b (tcpSend e c).1 ∧ Paces R b (tcpSendsoon e c).1 := by
  refine sending_rule (fun c hc => hc.afterTurns) (fun c _ hc => ?_) (fun c f hf hc => ?_) h
  · exact hc.afterTurns.beside _ (by unfold TcpSocket.pace sendTimers; dsimp only; split_ifs <;> rfl) rfl rfl
  · exact hc.beside _ (by unfold TcpSocket.pace; dsimp only; rw [hf]) rfl rfl

theorem Paces.send (h : Paces R b c) : Paces R b (tcpSend e c).1 := h.sent.1

theorem Paces.sendsoon (h : Paces R b c) : Paces R b (tcpSendsoon e c).1 := h.sent.2

theorem unthread_pace (freeTx : Bool) (s : TcpSocket) : (unthread freeTx s).pace = s.pace := by
  unfold unthread
  dsimp only
  split_ifs <;> rfl

theorem unthread_state (freeTx : Bool) (s : TcpSocket) : (unthread freeTx s).state = .closed := by
  unfold unthread
  dsimp only
  split_ifs <;> rfl

theorem Paces.unthread (h : Paces R b c) (freeTx : Bool) : Paces R b (tcpUnthread freeTx c) := by
  have hclosed := h.leave .closed (Tcp.unthread freeTx) (unthread_pace freeTx c.s)
    (unthread_state freeTx c.s) (by decide)
  exact ⟨hclosed.beat, hclosed.calls⟩

theorem Paces.close (h : Paces R b c) : Paces R b (tcpClose e c) := by
  have hnow : Paces R b (closeNow e c) := (h.leave .finwt1 _ rfl rfl (by decide)).send
  have hlater : Paces R b (closeLater e c) := by
    unfold closeLater
    dsimp only
    split_ifs
    · exact ((h.beside _ rfl rfl rfl).leave .estcl _ rfl rfl (by decide)).sendsoon
    · exact h.beside _ rfl rfl rfl
  have hdata : Paces R b (if c.s.tx.txDatalen ≠ 0 then closeLater e c else closeNow e c) := hlater.ite hnow
  have hwt : Paces R b (closeClosWt e c) := (h.leave .lastack _ rfl rfl (by decide)).send
  have hshut := (h.leave .closed (fun s => { s with state := .closed }) rfl rfl (by decide)).unthread false
  unfold tcpClose
  split_ifs
  · exact h
  all_goals
    cases c.s.state <;> dsimp only
    case estab | estcl | synrec => first | exact hlater.beside _ rfl rfl rfl | exact hnow.beside _ rfl rfl rfl
    case closwt => exact hwt.beside _ rfl rfl rfl
    case resolve | synsent => exact hshut
    all_goals exact h

theorem Paces.abort (h : Paces R b c) : Paces R b (tcpAbort e c) := by
  have hreset : Paces R b (abortReset e c) := by
    refine (h.plain _ ?_ rfl).send
    unfold TcpSocket.pace
    dsimp only
    split_ifs <;> rfl
  exact ((hreset.ite h).beside _ rfl rfl rfl).unthread true

theorem Paces.sockreset (h : Paces R b c) : Paces R b (tcpSockreset c) := by
  have hempty := h.beside (fun s => { s with
    rx := { s.rx with
      rxDatalen := if s.state ≠ .closed ∧ s.state ≠ .lastack then 0 else s.rx.rxDatalen
      missedSeq0 := 0
      missedSeq1 := 0 }
    tx := { s.tx with txDatalen := 0 } }) rfl rfl rfl
  unfold tcpSockreset
  dsimp only
  split
  · refine ⟨hempty.beat.trans ⟨.refl, fun _ => ?_, id, fun _ hs => ?_, rfl, rfl⟩, by simp⟩
    · exact (by decide : (1 : Byte) ≠ 0)
    · exact absurd (show TcpState.listen = .estab from hs) (by decide)
  · exact (hempty.leave .closed _ rfl rfl (by decide)).unthread true

theorem Paces.sendReset (h : Paces R b c) (seg : InSegment) : Paces R b (tcpSendReset e c seg) := by
  unfold tcpSendReset
  dsimp only
  split
  · exact h
  · exact ⟨h.beat, h.calls⟩

/-! ## Segments -/

section Segments

variable {seg : InSegment} {flags : TcpFlags}

theorem Beat.of_headCore (h : s'.headCore = s.headCore)
    (hmss : Relation.ReflTransGen R s.maxSeg s'.maxSeg)
    (hw : s.window.toNat ≤ 65536 → s'.window.toNat ≤ 65536) : Beat R s s' where
  maxSeg := hmss
  cwindow := by rw [show s'.rtt = s.rtt from (congrArg TcpSocket.rtt h :)]; exact id
  window := hw
  synless hs hst := by
    rw [show s'.flags = s.flags from (congrArg TcpSocket.flags h :)]
    exact hs ((congrArg TcpSocket.state h :).symm.trans hst)
  secret := (congrArg TcpSocket.secret h :)
  noopt := (congrArg (fun s => s.locflags.noopt) h :)

theorem tcpSetWindow_window (s : TcpSocket) (hdr : TcpHeader) : (tcpSetWindow e s hdr).window.toNat ≤ 65536 := by
  have hword : (hdr.window.setWidth 32).toNat ≤ 65536 := by
    rw [BitVec.toNat_setWidth]
    exact (Nat.mod_le _ _).trans hdr.window.isLt.le
  have hwin : (tcpSetWindow e s hdr).window =
      if maxWindow < hdr.window.setWidth 32 then maxWindow else hdr.window.setWidth 32 := by
    unfold tcpSetWindow
    dsimp only
    generalize (if maxWindow < hdr.window.setWidth 32 then maxWindow else hdr.window.setWidth 32) = w
    split_ifs <;> (try cases e.heap) <;> rfl
  rw [hwin]
  split_ifs
  · decide
  · exact hword

theorem tcpSetWindow_maxSeg (s : TcpSocket) (hdr : TcpHeader) : (tcpSetWindow e s hdr).maxSeg = s.maxSeg := by
  unfold tcpSetWindow
  dsimp only
  split_ifs <;> (try cases e.heap) <;> rfl

theorem Paces.setWindow (h : Paces R b c) (seg : InSegment) : Paces R b (c.upd fun s => tcpSetWindow e s seg.hdr) := by
  refine h.upd (.of_headCore (tcpSetWindow_core e c.s seg) ?_ fun _ => tcpSetWindow_window c.s seg.hdr)
  rw [tcpSetWindow_maxSeg]

/-- A header: the window, and the MSS values of a SYN. -/
theorem processHeader_beat (hR : flags.syn → R s.maxSeg (seg.takeMss s.maxSeg)) : Beat R s (processHeader e s seg flags) := by
  refine .of_headCore (processHeader_core e s seg flags) ?_ fun _ => ?_
  · unfold processHeader
    dsimp only
    split_ifs with hopt
    · rw [tcpProcessOptions_maxSeg, tcpSetWindow_maxSeg]
      split_ifs with hsyn
      · exact .single (hR hsyn)
      · exact .refl
    · rw [tcpSetWindow_maxSeg]
      exact .refl
  · unfold processHeader
    dsimp only
    split_ifs
    · rw [show (tcpProcessOptions _ seg _ flags).window = _ from
        (congrArg TcpSocket.window (tcpProcessOptions_core _ seg flags _) :)]
      exact tcpSetWindow_window _ _
    · exact tcpSetWindow_window _ _

theorem Paces.data (h : Paces R b c) (hR : flags.syn → R c.s.maxSeg (seg.takeMss c.s.maxSeg)) :
    Paces R b (processData e c seg flags).1 := by
  have hhead := h.upd (f := fun s => processHeader e s seg flags) (processHeader_beat hR)
  refine ⟨hhead.beat.trans (.of_pace ?_ fun hs hst => ?_), h.calls⟩
  · unfold processData tcpProcessData
    dsimp only
    split_ifs <;> rfl
  · have hflags : (processData e c seg flags).1.s.flags = (processHeader e c.s seg flags).flags ∧
        (processData e c seg flags).1.s.state = (processHeader e c.s seg flags).state := by
      unfold processData tcpProcessData
      dsimp only
      split_ifs <;> exact ⟨rfl, rfl⟩
    rw [hflags.1]
    exact hs (hflags.2.symm.trans hst)

/-- Data without a SYN. -/
theorem Paces.dataOnly (h : Paces R b c) (hsyn : flags.syn = false) : Paces R b (processData e c seg flags).1 :=
  h.data fun hs => absurd hs (by simp [hsyn])

theorem discardAcked_pace (s : TcpSocket) (acknum : Dword) : (discardAcked s acknum).pace = s.pace := by
  unfold discardAcked
  dsimp only
  split_ifs <;> rfl

theorem Paces.ack (h : Paces R b c) (acknum : Dword) : Paces R b (tcpProcessAck c acknum).1 := by
  have hcore := tcpProcessAck_core c acknum
  refine ⟨h.beat.trans (.of_pace ?_ fun hs hst => ?_), ?_⟩
  · unfold tcpProcessAck
    split_ifs
    · exact discardAcked_pace c.s acknum
    · rfl
  · rw [show (tcpProcessAck c acknum).1.s.flags = c.s.flags from (congrArg TcpSocket.flags hcore :)]
    exact hs ((congrArg TcpSocket.state hcore :).symm.trans hst)
  · unfold tcpProcessAck
    split_ifs <;> exact h.calls

/-! ## The state functions -/

theorem Paces.listenState (h : Paces R b c) : Paces R b (tcpListenState e c seg flags).1 := by
  unfold tcpListenState
  split_ifs
  · dsimp only
    refine Paces.timer (Paces.send ?_) _
    exact h.leave .synrec _ rfl rfl (by decide)
  · exact h.sendReset seg

theorem Paces.establish (h : Paces R b c) (hflags : c.s.flags.syn = false) (hR : flags.syn → R c.s.maxSeg (seg.takeMss c.s.maxSeg)) :
    Paces R b (synsentEstablish e c seg flags) :=
  (((h.plain (fun s => { s with
    state := .estab
    tx := { s.tx with sendNext := s.tx.sendNext + 1 }
    rx := { s.rx with recvNext := seg.hdr.seqnum + 1 } }) rfl hflags).data hR).beside _ rfl rfl rfl).send

theorem Paces.restart (h : Paces R b c) (hs : c.s.state = .synsent) : Paces R b (synsentRestart e c) := by
  have hsent := (h.beside (fun s => { s with unhappy := true }) rfl rfl rfl).plain
    (fun s => { s with flags := { rst := true } }) rfl rfl |>.send (e := e)
  refine Paces.sendsoon ⟨hsent.beat.trans (.of_pace rfl fun _ hst => ?_), hsent.calls⟩
  have hst' : (tcpSend e (c.upd fun s => { s with flags := { rst := true }, unhappy := true })).1.s.state = .synsent := by
    rw [tcpSend_state]
    exact hs
  exact absurd (hst'.symm.trans hst) (by decide)

/-- Whether a segment's options are processed with its SYN: on the SYN+ACK of an active open, and in
FINWT1 and FINWT2. -/
def TakesSyn (s : TcpSocket) (seg : InSegment) : Prop :=
  seg.hdr.flags.syn = true ∧ (s.state = .synsent ∧ seg.hdr.flags.ack = true ∧ seg.hdr.acknum = s.tx.sendNext + 1 ∨
    s.state = .finwt1 ∨ s.state = .finwt2)

theorem Paces.synsentState (h : Paces R b c) (hs : c.s.state = .synsent)
    (hR : TakesSyn c.s seg → R c.s.maxSeg (seg.takeMss c.s.maxSeg)) : Paces R b (tcpSynsentState e c seg seg.hdr.flags).1 := by
  unfold tcpSynsentState
  by_cases hsyn : seg.hdr.flags.syn = true
  · rw [if_pos hsyn]
    dsimp only
    have hplain := h.plain (fun s => { s with
      tos := if s.tos < seg.tos then seg.tos else s.tos
      flags := s.flags.keepPushAck
      timeout := setTimeout e tcpTimeout }) rfl rfl
    split_ifs with hack hnum
    · exact hplain.establish rfl fun _ => hR ⟨hsyn, .inl ⟨hs, hack, hnum⟩⟩
    · exact hplain.restart hs
    · dsimp only
      exact hplain.leave .synrec _ rfl rfl (by decide)
  · rw [if_neg hsyn]
    exact h.sendReset seg

theorem Paces.synrecState (h : Paces R b c) (hs : c.s.state = .synrec) :
    Paces R b (tcpSynrecState e c seg flags).1 := by
  unfold tcpSynrecState
  split_ifs with hsyn
  · dsimp only
    refine Paces.timer (Paces.send ?_) _
    exact h.leave .synrec _ rfl hs (by decide)
  · dsimp only
    exact (h.setWindow seg).plain _ rfl rfl
  · exact h

theorem Paces.estabAck (h : Paces R b c) (acknum : Dword) : Paces R b (estabAck c acknum) := by
  unfold Tcp.estabAck
  dsimp only
  exact ((h.timer 0).ack acknum).plain _ rfl rfl

theorem Paces.estabFin (h : Paces R b c) (seqnum : Dword) : Paces R b (estabFin e c seqnum flags).1 := by
  unfold Tcp.estabFin
  split_ifs
  · dsimp only
    exact (h.beside _ rfl rfl rfl).send.leave .lastack _ rfl rfl (by decide)
  · exact (h.unhappy true).send
  · exact h

theorem Paces.sendNow (h : Paces R b c) : Paces R b (estabSendNow e c) := by
  have hsent : Paces R b (tcpSend e (c.updRtt fun r => { r with karnCount := 0 })).1 :=
    Paces.send (h.beside _ rfl rfl rfl)
  unfold estabSendNow
  dsimp only
  generalize (tcpSend e (c.updRtt fun r => { r with karnCount := 0 })).1 = c' at *
  split_ifs
  · exact hsent.beside _ rfl rfl rfl
  · exact hsent

theorem Paces.reply (h : Paces R b c) (ldiff : Dword) (didTx : Bool) :
    Paces R b (estabReply e c seg flags ldiff didTx) := by
  unfold estabReply
  dsimp only
  split_ifs
  · exact h.sendNow
  · exact h.sendNow
  · exact h.sendsoon
  · exact Paces.send (h.beside _ rfl rfl rfl)
  · exact h

/-- An established connection takes no options of a SYN. -/
theorem Paces.estabState (h : Paces R b c) : Paces R b (tcpEstabState e c seg flags).1 := by
  unfold tcpEstabState
  split_ifs with hsyn hack
  · exact h.send
  · exact h
  · have hplain : flags.syn = false := by
      simp only [Bool.not_eq_false] at hack
      simpa [hack] using hsyn
    have hdata : Paces R b (processData e (Tcp.estabAck c seg.hdr.acknum) seg flags).1 :=
      (h.estabAck seg.hdr.acknum).dataOnly hplain
    dsimp only
    split_ifs
    · exact hdata.send
    · exact (hdata.estabFin seg.hdr.seqnum).reply _ _

theorem Paces.finwt1Ack (h : Paces R b c) (acknum : Dword) : Paces R b (finwt1Ack c acknum) := by
  unfold Tcp.finwt1Ack
  dsimp only
  exact Paces.ite ((h.ack acknum).beside _ rfl rfl rfl) (h.ack acknum)

theorem Paces.finwt1Fin (h : Paces R b c) (acknum : Dword) : Paces R b (finwt1Fin e c acknum) := by
  refine Paces.send (h.plain _ ?_ rfl)
  dsimp only
  split_ifs <;> rfl

theorem Paces.finwt1Acked (h : Paces R b c) : Paces R b (finwt1Acked e c).1 := by
  unfold Tcp.finwt1Acked
  split_ifs
  · exact h.unthread true
  · dsimp only
    exact h.leave .finwt2 _ rfl rfl (by decide)

theorem Paces.finwt1Reset (h : Paces R b c) : Paces R b (finwt1Reset e c) :=
  Paces.unthread (Paces.send (h.plain _ rfl rfl)) true

theorem finwt1Ack_maxSeg (c : Conn) (acknum : Dword) : (Tcp.finwt1Ack c acknum).s.maxSeg = c.s.maxSeg := by
  have hack : (tcpProcessAck c acknum).1.s.maxSeg = c.s.maxSeg :=
    (congrArg TcpSocket.maxSeg (tcpProcessAck_core c acknum) :)
  unfold Tcp.finwt1Ack
  dsimp only
  split_ifs <;> exact hack

theorem Paces.finwt1State (h : Paces R b c) (hR : flags.syn → R c.s.maxSeg (seg.takeMss c.s.maxSeg)) :
    Paces R b (tcpFinwt1State e c seg flags).1 := by
  have hdata : Paces R b (processData e (Tcp.finwt1Ack c seg.hdr.acknum) seg flags).1 :=
    (h.finwt1Ack seg.hdr.acknum).data (by rwa [finwt1Ack_maxSeg])
  unfold tcpFinwt1State
  dsimp only
  split_ifs
  · exact hdata.finwt1Fin _
  · exact hdata
  · exact hdata.finwt1Acked
  · exact hdata.finwt1Reset
  · exact hdata
  · exact hdata

theorem Paces.finwt2State (h : Paces R b c) (hR : flags.syn → R c.s.maxSeg (seg.takeMss c.s.maxSeg)) :
    Paces R b (tcpFinwt2State e c seg flags).1 := by
  have hdata := h.data (e := e) hR
  have hfin : Paces R b (if (processData e c seg flags).2.2.fin then
      (processData e c seg flags).1.upd fun s => { s with locflags := { s.locflags with gotFin := true } }
      else (processData e c seg flags).1) := (hdata.beside _ rfl rfl rfl).ite hdata
  unfold tcpFinwt2State
  dsimp only
  split
  · exact hdata
  · generalize (if (processData e c seg flags).2.2.fin then
      (processData e c seg flags).1.upd fun s => { s with locflags := { s.locflags with gotFin := true } }
      else (processData e c seg flags).1) = c' at *
    split
    · exact Paces.send (hfin.leave .timewt _ rfl rfl (by decide))
    · exact hfin

theorem Paces.closingState (h : Paces R b c) : Paces R b (tcpClosingState e c seg flags).1 := by
  unfold tcpClosingState
  split_ifs
  · dsimp only
    exact h.leave .timewt _ rfl rfl (by decide)
  · exact h

theorem Paces.lastackState (h : Paces R b c) : Paces R b (tcpLastackState e c seg flags).1 := by
  unfold tcpLastackState
  split_ifs
  · dsimp only
    exact (Paces.send (h.plain _ rfl rfl)).unhappy true
  · dsimp only
    exact h.leave .closed _ rfl rfl (by decide)
  · exact h

theorem Paces.timewtState (h : Paces R b c) : Paces R b (tcpTimewtState e c seg flags).1 := by
  unfold tcpTimewtState
  split_ifs
  · exact Paces.send (h.leave .closed _ rfl rfl (by decide))
  · exact h

/-- **The state machine** takes MSS values from the SYNs that `TakesSyn` names. -/
theorem Paces.fsm (h : Paces R b c) (hR : TakesSyn c.s seg → R c.s.maxSeg (seg.takeMss c.s.maxSeg)) :
    Paces R b (tcpFsm e c seg).1 := by
  unfold tcpFsm
  split <;> rename_i hs
  · exact h.listenState
  · exact h
  · exact h.synsentState hs hR
  · exact h.synrecState hs
  · exact h.estabState
  · exact h.estabState.close
  · exact h.finwt1State fun hsyn => hR ⟨hsyn, .inr (.inl hs)⟩
  · exact h.finwt2State fun hsyn => hR ⟨hsyn, .inr (.inr hs)⟩
  · exact h.estabState
  · exact h.closingState
  · exact h.lastackState
  · exact h.timewtState
  · exact h

end Segments

/-! ## The machine -/

section Machine

variable {seg : InSegment}

theorem restartIdle_pace (s : TcpSocket) : (restartIdle e s).pace = s.pace ∧
    (restartIdle e s).state = s.state ∧ (restartIdle e s).flags = s.flags := by
  unfold restartIdle
  split_ifs <;> exact ⟨rfl, rfl, rfl⟩

theorem demux_paces (h : demux e c seg = some c') :
    Paces R c c' ∧ c'.s.state = c.s.state ∧ c'.s.tx = c.s.tx ∧ c'.s.maxSeg = c.s.maxSeg := by
  have hidle (s : TcpSocket) := @restartIdle_pace e s
  have htx : ∀ s, (restartIdle e s).tx = s.tx := fun s => by
    unfold restartIdle
    split_ifs <;> rfl
  unfold demux at h
  split_ifs at h
  · obtain rfl := Option.some_inj.mp h
    exact ⟨Paces.refl.beside _ (hidle _).1 (hidle _).2.1 (congrArg TcpFlags.syn (hidle _).2.2),
      (hidle _).2.1, htx _, congrArg Pace.maxSeg (hidle _).1⟩
  · obtain rfl := Option.some_inj.mp h
    exact ⟨Paces.refl.beside _ (hidle _).1 (hidle _).2.1 (congrArg TcpFlags.syn (hidle _).2.2),
      (hidle _).2.1, htx _, congrArg Pace.maxSeg (hidle _).1⟩

theorem Paces.beforeFsm (h : Paces R b c) (seg : InSegment) : Paces R b (beforeFsm e c seg) := by
  have hpush := h.beside (fun s => { s with
    locflags := { s.locflags with gotPush := seg.hdr.flags.push } }) rfl rfl rfl
  unfold Tcp.beforeFsm tcpRttWin
  exact (hpush.rtt rttWin_cwindow).beside _ rfl rfl rfl

theorem Paces.afterFsm {r : Conn × Bool} (h : Paces R b r.1) : Paces R b (afterFsm e r) := h.sendsoon.ite h

/-- A segment. -/
theorem handler_paces (seg : InSegment) (hR : ∀ c₁, fsmEntry e c seg = some c₁ → TakesSyn c₁.s seg →
    R c.s.maxSeg (seg.takeMss c.s.maxSeg)) : Paces R c (tcpHandler e c seg) := by
  unfold tcpHandler
  unfold fsmEntry at hR
  cases hd : demux e c seg with
  | none => exact .refl
  | some c' =>
    obtain ⟨hpaces, -, -, hmax⟩ := demux_paces (R := R) hd
    rw [hd] at hR
    dsimp only at hR ⊢
    split_ifs at hR ⊢ with hrst
    · exact hpaces.sockreset
    · refine ((hpaces.beforeFsm seg).fsm fun htakes => ?_).afterFsm
      have hmax' : (Tcp.beforeFsm e c' seg).s.maxSeg = c.s.maxSeg := hmax
      rw [hmax']
      exact hR _ rfl htakes

/-! Calls. -/

theorem Paces.read (h : Paces R b c) (maxlen : Dword) : Paces R b (tcpRead e c maxlen).1 := by
  have hread := h.beside (fun s => { s with rx := readRx s.rx (readLen c.s maxlen) }) rfl rfl rfl
  have hupd : Paces R b (tcpUpdWin e (c.upd fun s => { s with rx := readRx s.rx (readLen c.s maxlen) })) :=
    hread.send.ite hread
  unfold tcpRead
  dsimp only
  split
  · exact hread.sendsoon.ite hupd
  · exact h.close.ite h

theorem Paces.writeTake (h : Paces R b c) (data : List Byte) (room : Dword) (push : Bool) :
    Paces R b (writeTake e c data room push).1 := by
  have happend : Paces R b { c with s := appendTx e c.s data, accepted := c.accepted ++ data } :=
    ⟨(h.beside (fun s => appendTx e s data) rfl rfl rfl).beat, h.calls⟩
  have hsent (now : Bool) : Paces R b (if now = true
      then tcpSend e { c with s := appendTx e c.s data, accepted := c.accepted ++ data }
      else tcpSendsoon e { c with s := appendTx e c.s data, accepted := c.accepted ++ data }).1 := by
    split_ifs
    · exact happend.send
    · exact happend.sendsoon
  unfold Tcp.writeTake
  dsimp only
  split
  · exact happend
  · have hdone := hsent (writeNow e.cfg (appendTx e c.s data) (BitVec.ofNat 32 data.length))
    exact hdone.beside (fun s => { s with flags := { s.flags with push := s.flags.push || push } }) rfl rfl rfl

theorem Paces.write (h : Paces R b c) (data : List Byte) : Paces R b (tcpWrite e c data).1 := by
  unfold tcpWrite
  dsimp only
  split_ifs
  · exact h
  · exact h
  · exact (h.beside _ rfl rfl rfl).writeTake _ _ _
  · exact h
  · exact h.writeTake _ _ _

theorem Paces.flush (h : Paces R b c) : Paces R b (sockFlush e c) := by
  have hlocal := h.beside (fun s => { s with localMode := false }) rfl rfl rfl
  have hpush := hlocal.beside (fun s => { s with flags := { s.flags with push := true } }) rfl rfl rfl
  unfold sockFlush
  dsimp only
  split_ifs
  · exact hpush.send
  · exact hpush
  · exact hlocal
  · exact h

theorem Paces.closeCall (h : Paces R b c) : Paces R b (sockClose e c) := by
  have hdead : Paces R b (tickDead (tcpClose e c)) := by
    unfold tickDead
    exact ((h.close.unthread true).beside _ rfl rfl rfl).ite h.close
  exact hdead.ite h

theorem Paces.resolve (h : Paces R b c) : Paces R b (retransResolve e c) := by
  unfold retransResolve
  dsimp only
  split_ifs
  · refine Paces.rtt (Paces.send ?_) id
    exact h.leave .synsent _ rfl rfl (by decide)
  · exact h.abort
  · exact h

/-- What a retransmission prepares: a window of 1 for a probe, and a smaller congestion window, never 0. -/
theorem retransPrepare_beat (s : TcpSocket) : Beat R s (retransPrepare s) := by
  unfold retransPrepare
  extract_lets r s₁ s₂ w r₂ s₃
  have h₁ : Beat R s s₁ := .of_pace rfl id
  have h₂ : Beat R s₁ s₂ := by
    refine Beat.ite ⟨.refl, id, fun _ => ?_, id, rfl, rfl⟩ .refl
    exact (by decide : (1 : Dword).toNat ≤ 65536)
  have h₃ : Beat R s₂ s₃ := by
    refine Beat.ite ⟨.refl, fun _ => ?_, id, id, rfl, rfl⟩ .refl
    dsimp only
    split_ifs with hw
    · decide
    · exact hw
  refine (h₁.trans h₂).trans (h₃.trans (Beat.ite ⟨.refl, fun hw => ?_, id, id, rfl, rfl⟩ .refl))
  have hdown : ∀ w : Byte, w ≠ 0 → (if 1 < w then w - 1 else w) ≠ 0 := by decide
  exact hdown s₃.rtt.cwindow hw

theorem Paces.retransSend (h : Paces R b c) : Paces R b (retransSend e c) := by
  unfold Tcp.retransSend
  split_ifs
  · exact Paces.send (h.beside _ rfl rfl rfl)
  · exact Paces.send (h.upd (retransPrepare_beat c.s))
  · exact h.abort.beside _ rfl rfl rfl
  · exact h
  · exact h

theorem Paces.timeouts (h : Paces R b c) : Paces R b (retransTimeouts e c) := by
  unfold retransTimeouts
  split_ifs
  · exact Paces.close (h.beside _ rfl rfl rfl)
  · exact h.leave .closed _ rfl rfl (by decide)
  · exact h.abort
  · exact h
  · exact h

theorem Paces.retransmit (h : Paces R b c) : Paces R b (tcpRetransmitter e c) := by
  unfold tcpRetransmitter
  split_ifs
  · exact h
  · exact h.resolve
  · exact h.unthread true
  · exact h
  · exact h.retransSend.timeouts

theorem Paces.stress (h : Paces R b c) (net : Net) : Paces R b (cancelStress net e c) := by
  have hstress := h.beside (fun s => (tcpStressTest net s).1)
    (by unfold tcpStressTest; split_ifs <;> rfl) (by unfold tcpStressTest; split_ifs <;> rfl)
    (by unfold tcpStressTest; split_ifs <;> rfl)
  unfold cancelStress
  split_ifs
  · exact hstress.rtt fun _ => (by decide : (1 : Byte) ≠ 0)
  · exact hstress.abort

/-- An ICMP packet. -/
theorem icmpInput_paces (net : Net) (g : Icmp.Globals) (ip : Packet) (broadcast : Bool)
    (hR : ∀ mtu ∈ reportedMtu c g ip broadcast, c.s.ipType = tcpProto → R c.s.maxSeg (reduceMss net mtu c.s.maxSeg)) :
    Paces R c (icmpInput net e c g ip broadcast) := by
  unfold icmpInput
  unfold reportedMtu at hR
  split
  · rename_i type code arg haction
    rw [haction] at hR
    unfold tcpCancel
    split <;> rename_i htype
    · exact Paces.refl.stress net
    · split_ifs with hcode
      · have h3 : type = 3 := BitVec.eq_of_toNat_eq htype
        have hmtu := hR (arg.setWidth 16) (if_pos ⟨h3, hcode⟩)
        refine Paces.refl.upd ?_
        unfold sockReduceMss
        split_ifs with hip
        · exact ⟨.single (hmtu hip), id, id, id, rfl, rfl⟩
        · exact .refl
      · exact Paces.refl.stress net
    · exact Paces.refl.rtt fun _ => (by decide : (1 : Byte) ≠ 0)
    · exact Paces.refl.abort
    · exact .refl
  · exact .refl

/-- How `max_seg` changes in a step: the MSS values of a SYN, or a report of an MTU. -/
inductive MaxSegStep (net : Net) (c : Conn) (ev : NetEvent) : Dword → Dword → Prop
  | syn (seg : InSegment) (c₁ : Conn) (hop : ev.op = .conn (.segment seg))
      (hentry : fsmEntry (ev.env net) c seg = some c₁) (htakes : TakesSyn c₁.s seg) :
      MaxSegStep net c ev c.s.maxSeg (seg.takeMss c.s.maxSeg)
  | report (g : Icmp.Globals) (ip : Packet) (broadcast : Bool) (mtu : Word) (hop : ev.op = .icmp g ip broadcast)
      (hmtu : reportedMtu c g ip broadcast = some mtu) (hip : c.s.ipType = tcpProto) :
      MaxSegStep net c ev c.s.maxSeg (reduceMss net mtu c.s.maxSeg)

/-- **All a step does** to what segments are cut to. -/
theorem stepNet_paces (net : Net) (c : Conn) (ev : NetEvent) :
    Paces (MaxSegStep net c ev) c (stepNet net c ev) := by
  have hsyn (seg : InSegment) (hop : ev.op = .conn (.segment seg)) :
      Paces (MaxSegStep net c ev) c (tcpHandler (ev.env net) c seg) :=
    handler_paces seg fun c₁ hentry htakes => .syn seg c₁ hop hentry htakes
  have hicmp (g : Icmp.Globals) (ip : Packet) (broadcast : Bool) (hop : ev.op = .icmp g ip broadcast) :
      Paces (MaxSegStep net c ev) c (icmpInput net (ev.env net) c g ip broadcast) :=
    icmpInput_paces net g ip broadcast fun mtu hmtu hip => .report g ip broadcast mtu hop hmtu hip
  unfold stepNet
  cases hop : ev.op with
  | icmp g ip broadcast => exact hicmp g ip broadcast hop
  | conn op =>
    unfold stepConn
    cases op with
    | segment seg => exact hsyn seg hop
    | read maxlen => exact Paces.refl.read maxlen
    | write data => exact Paces.refl.write data
    | flush => exact Paces.refl.flush
    | flushnext => exact Paces.ite (Paces.refl.beside _ rfl rfl rfl) .refl
    | noflush => exact Paces.ite (Paces.refl.beside _ rfl rfl rfl) .refl
    | close => exact Paces.refl.closeCall
    | abort => exact Paces.refl.abort
    | retransmit => exact Paces.refl.retransmit

end Machine

end Watt32.Tcp
