import Watt32.Tcp.Pace
import Watt32.Tcp.Transmit

/-!
# Progress of transmission

A data segment holds what `max_seg` leaves beside the options. Nothing keeps an MSS value of the peer, or
the configured one, above the length of the options.

* `Roomy`: `max_seg` holds the options and a byte of data.
* `Driven`: the invariant of runs; **`Driven.progresses`**: in ESTAB, a successful `_tcp_send` with data and
  window before it sends data.
* `ProgressOk`: the MSS values that are taken exceed the options.
* **`transmission_progresses`**: every state of a run whose steps are `ProgressOk` makes progress.
-/

namespace Watt32.Tcp

open Machine

/-! ## Progress -/

/-- The length of the options a data segment may have. -/
def optRoom (cfg : Config) (s : TcpSocket) : ℕ :=
  if s.locflags.noopt then 0 else (if cfg.optTs then 12 else 0) + if s.secret.isSome then 20 else 0

/-- `max_seg` holds the options and a byte, as an `int`. -/
def Roomy (cfg : Config) (s : TcpSocket) (maxSeg : Dword) : Prop :=
  optRoom cfg s < maxSeg.toNat ∧ maxSeg.toNat < 2 ^ 31

instance (cfg : Config) (s : TcpSocket) (maxSeg : Dword) : Decidable (Roomy cfg s maxSeg) :=
  inferInstanceAs (Decidable (_ ∧ _))

/-- In ESTAB, with data and window behind `send_una`, a successful call of `_tcp_send` sends data. -/
def Progresses (net : Net) (c : Conn) : Prop :=
  c.s.state = .estab → c.s.sendUna < c.s.tx.txDatalen.toNat → c.s.sendUna < c.s.window.toNat →
    ∀ e : Env, e.cfg = net.cfg → (tcpSend e c).2 ≠ -1 → 0 < (tcpSend e c).2

/-! ## The pending bytes -/

/-- The pending bytes fit, no queue is in use, and `send_una` is not negative. -/
structure Half.Sized (h : Half) : Prop where
  fits : h.Fits
  queued : h.queued = 0
  una : 0 ≤ h.una

section Sized

variable {A : Allow} {c c' : Conn} {e : Env}

theorem Half.Sized.next {h h' : Half} (hs : h.Sized) (hn : h.Next A h') : h'.Sized := by
  obtain ⟨hfits, hq, hu⟩ := hs
  cases hn with
  | rewind => exact ⟨hfits, hq, le_rfl⟩
  | grow m hm hlt => exact ⟨⟨hfits.1.trans_le hm, hlt⟩, hq, hu⟩
  | ack k p q u hst hk hq' hp hlen hnil hu' hul =>
    refine ⟨⟨?_, hfits.2⟩, hq' hq, hu'⟩
    show p.length < h.maxTx
    have := hlen hfits
    have := hfits.1
    omega
  | write data p hst hp => exact ⟨⟨(hp hfits).2, hfits.2⟩, hq, hu⟩
  | shut p hp =>
    refine ⟨⟨?_, hfits.2⟩, hq, hu⟩
    rcases hp with rfl | rfl
    · exact hfits.1
    · exact (Nat.zero_le _).trans_lt hfits.1
  | _ => exact ⟨hfits, hq, hu⟩

theorem Half.Sized.move (hs : c.half.Sized) (hm : Move A c c') : c'.half.Sized := by
  have hpos : 0 < c.half.maxTx := (Nat.zero_le _).trans_lt hs.fits.1
  cases hm with
  | quiet h => rwa [h]
  | next h => exact hs.next h
  | call e u hu hul h =>
    rw [h]
    exact ⟨hs.fits, hs.queued, hu hs.una⟩
  | abort n b u hu h =>
    rw [h]
    exact ⟨⟨hpos, hs.fits.2⟩, hs.queued, hu hs.una⟩
  | restart _ h =>
    rw [h]
    exact ⟨⟨hpos, hs.fits.2⟩, hs.queued, hs.una⟩

theorem Half.Sized.moves (hs : c.half.Sized) (h : Moves A c c') : c'.half.Sized :=
  moves_invariant (I := fun c => c.half.Sized) (fun _ _ hs hm => hs.move hm) h hs

/-- Moves that are all allowed. -/
def anyMove : Allow := ⟨True, fun _ => True, fun _ => True⟩

theorem Half.Sized.abort (hs : c.half.Sized) : (tcpAbort e c).half.Sized :=
  hs.moves (tcpAbort_moves (A := anyMove))

theorem cancelStress_sized (net : Net) (hs : c.half.Sized) : (cancelStress net e c).half.Sized := by
  have hstress : (c.upd fun s => (tcpStressTest net s).1).half.Sized := by
    unfold Conn.upd tcpStressTest
    dsimp only
    split_ifs
    · refine ⟨⟨?_, hs.fits.2⟩, hs.queued, hs.una⟩
      show (Mem.slice c.s.tx.txData 0 0).length < c.half.maxTx
      rw [Mem.slice_zero]
      exact (Nat.zero_le _).trans_lt hs.fits.1
    · exact hs
  unfold cancelStress
  split_ifs
  · exact hstress
  · exact hstress.abort

theorem icmpInput_sized (net : Net) (g : Icmp.Globals) (ip : Packet) (broadcast : Bool) (hs : c.half.Sized) :
    (icmpInput net e c g ip broadcast).half.Sized := by
  unfold icmpInput tcpCancel
  split
  · split
    · exact cancelStress_sized net hs
    · split_ifs
      · have hhalf (mtu : Word) : (c.upd (sockReduceMss net mtu)).half = c.half := by
          unfold Conn.upd sockReduceMss
          split_ifs <;> rfl
        rw [hhalf]
        exact hs
      · exact cancelStress_sized net hs
    · exact hs
    · exact hs.abort
    · exact hs
  · exact hs

theorem stepNet_sized (net : Net) (ev : NetEvent) (hs : c.half.Sized) : (stepNet net c ev).half.Sized := by
  unfold stepNet
  cases ev.op with
  | conn op =>
    exact hs.moves (stepConn_moves (A := anyMove) ⟨ev.env net, op⟩ (fun _ _ => trivial)
      (fun _ _ _ _ _ _ => trivial) fun _ _ _ => trivial)
  | icmp g ip broadcast => exact icmpInput_sized net g ip broadcast hs

end Sized

/-! ## One call -/

section Call

variable {e : Env} {l : SendLoop}

theorem sendSegment_sendTotLen {first : Bool} :
    (sendSegment e l first).sendTotLen = l.sendTotLen + max 0 (turnData e l first) := by
  have h : turnData e l first = sendDataLen l first (sendOptions e l first).len := by
    rw [sendOptions_len]; rfl
  rw [h]
  unfold sendSegment
  dsimp only
  split_ifs <;> omega

theorem sendLoop_sendTotLen (n : ℕ) (ok : List Bool) (first : Bool) (l : SendLoop) :
    l.sendTotLen ≤ (sendLoop e n ok first l).1.sendTotLen := by
  induction n generalizing ok first l with
  | zero => exact le_rfl
  | succ n ih =>
    have hturn : l.sendTotLen ≤ (sendSegment e l first).sendTotLen := by
      rw [sendSegment_sendTotLen]
      omega
    unfold sendLoop
    dsimp only
    split_ifs
    · exact hturn
    · exact hturn
    · exact hturn.trans (ih ..)

/-- The first turn counts. -/
theorem sendLoop_first (n : ℕ) (ok : List Bool) (first : Bool) (l : SendLoop) :
    l.sendTotLen + max 0 (turnData e l first) ≤ (sendLoop e (n + 1) ok first l).1.sendTotLen := by
  rw [← sendSegment_sendTotLen]
  unfold sendLoop
  dsimp only
  split_ifs
  · exact le_rfl
  · exact le_rfl
  · exact sendLoop_sendTotLen ..

theorem int_sub_pos {m : Dword} {n : ℕ} (h : n < m.toNat) (hm : m.toNat < 2 ^ 31) :
    0 < int (m - BitVec.ofNat 32 n) := by
  have hn : (BitVec.ofNat 32 n).toNat = n := by rw [BitVec.toNat_ofNat, Nat.mod_eq_of_lt (by omega)]
  have hsub : (m - BitVec.ofNat 32 n).toNat = m.toNat - n := by
    rw [BitVec.toNat_sub_of_le (BitVec.le_def.mpr (by omega)), hn]
  unfold int
  rw [BitVec.toInt_eq_toNat_cond, hsub]
  split_ifs <;> omega

theorem turnLen_le_optRoom {s : TcpSocket} {first : Bool} (hsyn : s.flags.syn = false) :
    turnLen e s first ≤ optRoom e.cfg s := by
  unfold turnLen stampLen baseLen optRoom
  rw [hsyn]
  cases s.locflags.noopt <;> cases e.cfg.optTs <;> cases s.secret <;> simp <;> split_ifs <;> omega

end Call

/-! ## The invariant -/

/-- What holds in every state of a run: `max_seg` is roomy, and the first turn of a sending loop has
something to send if there is anything. -/
structure Driven (net : Net) (c₀ c : Conn) : Prop where
  sized : c.half.Sized
  roomy : Roomy net.cfg c₀.s c.s.maxSeg
  cwindow : c.s.rtt.cwindow ≠ 0
  window : c.s.window.toNat ≤ 65536
  synless : c.s.Synless
  secret : c.s.secret = c₀.s.secret
  noopt : c.s.locflags.noopt = c₀.s.locflags.noopt

section Driven

variable {net : Net} {c₀ c : Conn} {ev : NetEvent}

/-- What a step needs: in a SYN whose options are processed, the MSS values exceed the options. -/
def ProgressOk (net : Net) (c : Conn) (ev : NetEvent) : Prop :=
  ∀ seg c₁, ev.op = .conn (.segment seg) → fsmEntry (ev.env net) c seg = some c₁ → TakesSyn c₁.s seg →
    ∀ v ∈ seg.mss, optRoom net.cfg c.s < v.toNat

/-- There is something to send. -/
theorem sendTotal_pos_of {s : TcpSocket} (hu : 0 ≤ s.sendUna) (hlen : s.tx.txDatalen.toNat < 2 ^ 31)
    (hwin : s.window.toNat < 2 ^ 31) (h : s.sendUna < s.tx.txDatalen.toNat) (h' : s.sendUna < s.window.toNat) :
    0 < sendTotal s := by
  have hsize : s.sendUna < sendSize s := by
    unfold sendSize int
    split_ifs
    · rw [BitVec.toInt_eq_toNat_of_lt (by omega)]
      exact h
    · rw [BitVec.toInt_eq_toNat_of_lt (by omega)]
      exact h'
  unfold sendTotal sendStart
  dsimp only
  split_ifs <;> omega

/-- **A driven connection** makes progress. -/
theorem Driven.progresses (h : Driven net c₀ c) : Progresses net c := by
  intro hst hdata hwin e he hok
  have hsyn := h.synless hst
  have hlen : c.s.tx.txDatalen.toNat < 2 ^ 16 := by
    have := h.sized.fits
    have hpending : c.half.pending.length = c.s.tx.txDatalen.toNat := Mem.length_slice ..
    unfold Half.Fits at this
    omega
  have htotal : 0 < sendTotal c.s :=
    sendTotal_pos_of h.sized.una (by omega) (by have := h.window; omega) hdata hwin
  have hroom : optRoom net.cfg c₀.s = optRoom e.cfg c.s := by
    unfold optRoom
    rw [h.secret, h.noopt, he]
  have hturn : 0 < turnData e (sendStart c.s (e.pkt c.calls.length)) true := by
    have hopt : turnLen e (sendStart c.s (e.pkt c.calls.length)).s true < c.s.maxSeg.toNat :=
      (turnLen_le_optRoom hsyn).trans_lt (hroom ▸ h.roomy.1)
    have hfree := int_sub_pos hopt h.roomy.2
    unfold turnData sendDataLen
    rw [if_neg (by simp only [Bool.true_and]; exact Bool.eq_false_iff.mp hsyn)]
    exact lt_min htotal (lt_max_of_lt_right hfree)
  obtain ⟨n, hn⟩ : ∃ n, c.s.rtt.cwindow.toNat = n + 1 :=
    Nat.exists_eq_succ_of_ne_zero fun h0 => h.cwindow (BitVec.eq_of_toNat_eq h0)
  have hfirst := sendLoop_first (e := e) n c.txOk true (sendStart c.s (e.pkt c.calls.length))
  rw [tcpSend_eq] at hok ⊢
  unfold tcpSendWith at hok ⊢
  split_ifs at hok ⊢
  · exact absurd rfl hok
  · show 0 < (sendTurns e c).1.sendTotLen
    unfold sendTurns
    rw [hn]
    have hstart : (sendStart c.s (e.pkt c.calls.length)).sendTotLen = 0 := rfl
    omega

theorem Roomy.takeMss {cfg : Config} {s : TcpSocket} (vs : List Word) {m : Dword} (h : Roomy cfg s m)
    (hvs : ∀ v ∈ vs, optRoom cfg s < v.toNat) : Roomy cfg s (vs.foldl takeMss m) := by
  induction vs generalizing m with
  | nil => exact h
  | cons v vs ih =>
    refine ih ?_ fun w hw => hvs w (List.mem_cons_of_mem v hw)
    have hv := hvs v (List.mem_cons_self ..)
    have hword : (v.setWidth 32).toNat = v.toNat := by
      rw [BitVec.toNat_setWidth, Nat.mod_eq_of_lt (by have := v.isLt; omega)]
    unfold Tcp.takeMss
    split_ifs
    · exact ⟨by rwa [hword], by rw [hword]; have := v.isLt; omega⟩
    · exact h

theorem optRoom_le (cfg : Config) (s : TcpSocket) : optRoom cfg s ≤ 32 := by
  unfold optRoom
  split_ifs <;> omega

/-- `sock_reduce_mss` sets 536 at least, or the configured MSS. -/
theorem Roomy.reduceMss {s : TcpSocket} (mtu : Word) (m : Dword) (hmss : Roomy net.cfg s net.cfg.mss) :
    Roomy net.cfg s (reduceMss net mtu m) := by
  have hclamp (x : Dword) : Roomy net.cfg s (clampMss net x) := by
    have hopt := optRoom_le net.cfg s
    have hbig (y : Dword) (hy : 536 ≤ y.toNat) (hlt : y < net.cfg.mss) : Roomy net.cfg s y := by
      have hy' := BitVec.lt_def.mp hlt
      exact ⟨by omega, hy'.trans hmss.2⟩
    unfold clampMss
    dsimp only
    split_ifs with h₁ h₂ h₂
    · exact hbig _ (by decide) h₂
    · exact hmss
    · exact hbig _ (BitVec.le_def.mp (BitVec.not_lt.mp h₁)) h₂
    · exact hmss
  exact hclamp _

/-- **One step** keeps the invariant. -/
theorem Driven.step (hmss : Roomy net.cfg c₀.s net.cfg.mss) (h : Driven net c₀ c) (hok : ProgressOk net c ev) :
    Driven net c₀ (stepNet net c ev) := by
  obtain ⟨hmax, hcw, hwin, hsyn, hsec, hno⟩ := (stepNet_paces net c ev).beat
  have hroom : optRoom net.cfg c₀.s = optRoom net.cfg c.s := by
    unfold optRoom
    rw [h.secret, h.noopt]
  refine ⟨stepNet_sized net ev h.sized, ?_, hcw h.cwindow, hwin h.window, hsyn h.synless, hsec.trans h.secret,
    hno.trans h.noopt⟩
  rcases Relation.ReflTransGen.cases_tail hmax with heq | ⟨x, -, hlast⟩
  · rw [heq]
    exact h.roomy
  · generalize (stepNet net c ev).s.maxSeg = m' at hlast
    cases hlast with
    | syn seg c₁ hop hentry htakes =>
      refine h.roomy.takeMss seg.mss fun v hv => ?_
      rw [hroom]
      exact hok seg c₁ hop hentry htakes v hv
    | report g ip broadcast mtu => exact .reduceMss mtu _ hmss

/-! ## Runs -/

/-- A control block as `tcp_open` and `tcp_listen` leave it, with any secret and options on or off. -/
structure Started (net : Net) (c : Conn) : Prop where
  opened : c.half.Opened
  maxSeg : c.s.maxSeg = net.cfg.mss
  cwindow : c.s.rtt.cwindow = 1
  window : c.s.window = 0

/-- The calls that turn MD5 signatures and options on and off. -/
def TcpSocket.withOptions (s : TcpSocket) (secret : Option (List Byte)) (noopt : Bool) : TcpSocket :=
  { s with secret := secret, locflags := { s.locflags with noopt := noopt } }

theorem started_tcpOpen (net : Net) (e : Env) (he : e.cfg = net.cfg) (myaddr : Dword) (lport : Word) (ip : Dword)
    (rport : Word) (handler : Option ProtoHandler) (rxBuf txBuf : ℕ → Byte) (secret : Option (List Byte))
    (noopt : Bool) (txOk : List Bool) :
    Started net (freshConn ((tcpOpen e myaddr lport ip rport handler rxBuf txBuf).withOptions secret noopt) txOk) := by
  have hopened := opened_tcpOpen e myaddr lport ip rport handler rxBuf txBuf txOk
  exact ⟨⟨hopened.early, hopened.unused, hopened.fits, hopened.queued⟩, congrArg Config.mss he, rfl, rfl⟩

theorem started_tcpListen (net : Net) (e : Env) (he : e.cfg = net.cfg) (lport : Word) (ip : Dword) (port : Word)
    (handler : Option ProtoHandler) (timeout : Word) (rxBuf txBuf : ℕ → Byte) (secret : Option (List Byte))
    (noopt : Bool) (txOk : List Bool) :
    Started net (freshConn ((tcpListen e lport ip port handler timeout rxBuf txBuf).withOptions secret noopt) txOk) := by
  have hopened := opened_tcpListen e lport ip port handler timeout rxBuf txBuf txOk
  exact ⟨⟨hopened.early, hopened.unused, hopened.fits, hopened.queued⟩, congrArg Config.mss he, rfl, rfl⟩

theorem Started.driven (h : Started net c) (hmss : Roomy net.cfg c.s net.cfg.mss) : Driven net c c where
  sized := ⟨h.opened.fits, h.opened.queued, h.opened.unused.una.ge⟩
  roomy := by rwa [h.maxSeg]
  cwindow := by
    rw [h.cwindow]
    decide
  window := by
    rw [h.window]
    decide
  synless hst := by
    have hearly := h.opened.early
    rw [show c.half.state = .estab from hst] at hearly
    exact absurd hearly (by simp [TcpState.early])
  secret := rfl
  noopt := rfl

end Driven

/-- **Transmission makes progress** in every state of a run in which the configured MSS and the MSS values
taken exceed the options of a data segment. -/
theorem transmission_progresses (net : Net) (c : Conn) (evs : List NetEvent) (hstart : Started net c)
    (hmss : Roomy net.cfg c.s net.cfg.mss) (h : Always (stepNet net) (ProgressOk net) c evs) :
    Progresses net (run (stepNet net) c evs) :=
  (run_invariant (I := Driven net c) (fun _ _ hd hok => hd.step hmss hok) evs (hstart.driven hmss) h).progresses

/-! ## An MSS of zero -/

/-- An active open from port 1024 to 0.0.0.2:80, our initial sequence number 0. -/
def activeConn : Conn := freshConn ((tcpOpen {} 1 1024 2 80 none (fun _ => 0) (fun _ => 0)).withOptions none false) []

/-- The peer's SYN+ACK with the MSS `b₀ b₁`. -/
def synAckMss (b₀ b₁ : Byte) : InSegment :=
  { peerSegment flagSynAck 999 1 0 with
    hdr := { (peerSegment flagSynAck 999 1 0).hdr with offset := 6 }
    tcpLen := 24
    mem := Mem.put (fun _ => 0) 20 [2, 4, b₀, b₁] }

/-- The connection is opened with this MSS, and four bytes are written. -/
def openAndWrite (b₀ b₁ : Byte) : List NetEvent :=
  [⟨{}, .conn .retransmit⟩, ⟨{}, .conn (.segment (synAckMss b₀ b₁))⟩, ⟨{}, .conn (.write [1, 2, 3, 4])⟩]

/-- With an MSS of zero, nothing is ever sent. -/
theorem transmission_stalls : ¬ ∀ (net : Net) (c : Conn) (evs : List NetEvent), Started net c →
    Roomy net.cfg c.s net.cfg.mss → Progresses net (run (stepNet net) c evs) := by
  intro h
  have hstall := h {} activeConn (openAndWrite 0 0) (started_tcpOpen {} {} rfl ..) (by decide +kernel)
    (by decide +kernel) (by decide +kernel) (by decide +kernel) {} rfl (by decide +kernel)
  revert hstall
  decide +kernel

/-- With an MSS of 512. -/
theorem transmission_progresses_open : Progresses {} (run (stepNet {}) activeConn (openAndWrite 2 0)) := by
  refine transmission_progresses {} activeConn (openAndWrite 2 0) (started_tcpOpen {} {} rfl ..) (by decide +kernel)
    ⟨fun _ _ hop => ?_, fun seg _ hop _ _ v hv => ?_, fun _ _ hop => ?_, trivial⟩
  · cases hop
  · cases hop
    have hmss : (synAckMss 2 0).mss = [512] := by decide +kernel
    rw [hmss, List.mem_singleton] at hv
    subst hv
    decide +kernel
  · cases hop

end Watt32.Tcp
