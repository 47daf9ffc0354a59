import Watt32.Tcp.Progress

/-!
# The results of `sock_write` and `sock_fastwrite`

* `sockFastwrite`, `sockWrite`: one `tcp_write`; the loop around it, with what `tcp_tick` handles.
* `loopTurns`, `sendOutputs`, `writeOutputs`: how many segments a call hands to `_ip4_output` when none of them
  is refused.
* `tcpWrite_result`: `tcp_write` takes its bytes before it sends them, and fails with them if a segment is refused.
* **`write_exact_iff`**: a call tells the truth exactly if the lower layer refuses none of its segments.
-/

namespace Watt32.Tcp

/-! ## The calls -/

/-- What an application writes: its length is an `int`. -/
structure UserData where
  bytes : List Byte
  short : bytes.length < 2 ^ 31

/-- By how much the transmit stream grew. -/
def grown (c c' : Conn) : ℕ := (c'.s.tx.txDatalen - c.s.tx.txDatalen).toNat

/-- The end of the mode of `sock_noflush`. -/
def clearLocal (c : Conn) : Conn := c.upd fun s => { s with localMode := false }

/-- `sock_fastwrite` on a TCP socket: the connection and the result. -/
def sockFastwrite (e : Env) (c : Conn) (data : List Byte) : Conn × ℤ :=
  if c.s.ipType = tcpProto then
    let r := tcpWrite e c data
    (clearLocal r.1, if r.2 < 0 then 0 else r.2)
  else (c, 0)

/-- What `sock_write` does to PUSH before each `tcp_write`. -/
def pushUnlessLocal (c : Conn) : Conn :=
  if c.s.localMode then c else c.upd fun s => { s with flags := { s.flags with push := true } }

/-- The `tcp_write` of a turn of `sock_write`. -/
def writeTurn (e : Env) (c : Conn) (data : List Byte) : Conn × ℤ := tcpWrite e (pushUnlessLocal c) data

/-- What `tcp_tick` handles. -/
inductive TickOp
  | segment (seg : InSegment)
  | icmp (g : Icmp.Globals) (ip : Packet) (broadcast : Bool)
  | retransmit

def TickOp.op : TickOp → NetOp
  | .segment seg => .conn (.segment seg)
  | .icmp g ip broadcast => .icmp g ip broadcast
  | .retransmit => .conn .retransmit

/-- A turn of the loop of `sock_write`: its clock and what its `tcp_tick` handles. -/
structure WriteTurn where
  e : Env
  tick : List (Env × TickOp)

/-- `tcp_tick` on the socket. -/
def WriteTurn.run (net : Net) (t : WriteTurn) (c : Conn) : Conn :=
  t.tick.foldl (fun c a => stepNet net c ⟨a.1, a.2.op⟩) (tickDead c)

/-- How `sock_write` ends. `queued` counts the bytes of the call that are still in the transmit buffer: its last
ones, as the call took no others since. -/
structure Written where
  c : Conn
  result : ℤ
  queued : ℕ

/-- The loop of `sock_write`, or nothing while it goes on. -/
def sockWriteLoop (net : Net) (len : ℤ) : List WriteTurn → Conn → List Byte → ℕ → Option Written
  | [], _, _, _ => none
  | t :: ts, c, data, queued =>
    if c.s.ipType ≠ tcpProto then some ⟨c, 0, queued⟩
    else
      let r := writeTurn t.e c data
      let queued := queued + grown c r.1
      if r.2 < 0 then some ⟨clearLocal r.1, 0, queued⟩
      else if data.drop r.2.toNat = [] then some ⟨clearLocal r.1, len, queued⟩
      else
        let c := t.run net r.1
        let queued := min queued c.s.tx.txDatalen.toNat
        if c.s.ipType = 0 then some ⟨c, 0, queued⟩
        else sockWriteLoop net len ts c (data.drop r.2.toNat) queued

/-- `sock_write` on a TCP socket. -/
def sockWrite (net : Net) (turns : List WriteTurn) (c : Conn) (data : List Byte) : Option Written :=
  sockWriteLoop net data.length turns c data 0

/-! ## The segments of a call -/

/-- How many segments the sending loop makes when none is refused. -/
def loopTurns (e : Env) : (n : ℕ) → (first : Bool) → SendLoop → ℕ
  | 0, _, _ => 0
  | n + 1, first, l =>
    let l' := sendSegment e l first
    (if l'.sendTotData ≤ 0 then 0 else loopTurns e n false l') + 1

/-- The segments of `_tcp_send`. -/
def sendOutputs (e : Env) (c : Conn) : ℕ :=
  loopTurns e c.s.rtt.cwindow.toNat true (sendStart c.s (e.pkt c.calls.length))

/-- The segments of `_tcp_sendsoon`, when it sends at once. -/
def soonOutputs (e : Env) (c : Conn) : ℕ :=
  if c.s.ipType = tcpProto ∧ c.s.rtt.rto ≤ e.cfg.rtoBase ∧ c.s.rtt.recent = false ∧
      c.s.rtt.rttTime ≤ soonTimeout e c.s then
    sendOutputs e (c.updRtt fun r => { r with karnCount := 0 })
  else 0

/-- The segments of `tcp_write` behind the copy. -/
def takeOutputs (e : Env) (c : Conn) (data : List Byte) (room : Dword) : ℕ :=
  let len : Dword := BitVec.ofNat 32 data.length
  let c := { c with s := appendTx e c.s data, accepted := c.accepted ++ data }
  if c.s.localMode ∧ len < room then 0
  else if writeNow e.cfg c.s len then sendOutputs e c
  else soonOutputs e c

/-- The segments of `tcp_write`. -/
def writeOutputs (e : Env) (c : Conn) (data : List Byte) : ℕ :=
  if c.s.state ≠ .estab then 0
  else
    let room := writeRoom c.s
    if room.toNat < data.length then
      if room = 0 then 0
      else takeOutputs e (c.upd fun s => { s with flags := { s.flags with push := false } })
        (data.take room.toNat) room
    else if data = [] then 0
    else takeOutputs e c data room

/-- The lower layer refuses none of the segments of this `tcp_write`. -/
def SendsAll (e : Env) (c : Conn) (data : List Byte) : Prop := false ∉ c.txOk.take (writeOutputs e c data)

instance (e : Env) (c : Conn) (data : List Byte) : Decidable (SendsAll e c data) :=
  inferInstanceAs (Decidable (¬ _))

section Outputs

variable {e : Env} {c : Conn}

theorem sendLoop_fails {n : ℕ} {ok : List Bool} {first : Bool} {l : SendLoop} :
    (sendLoop e n ok first l).2.2 = true ↔ false ∈ ok.take (loopTurns e n first l) := by
  induction n generalizing ok first l with
  | zero => simp [sendLoop, loopTurns]
  | succ n ih =>
    unfold sendLoop loopTurns
    dsimp only
    cases ok with
    | nil =>
      have hih := @ih [] false (sendSegment e l first)
      rw [List.take_nil] at hih ⊢
      rw [List.headD_nil, if_neg (by simp)]
      split_ifs
      · simp
      · exact hih
    | cons b ok =>
      rw [List.headD_cons, List.tail_cons, List.take_succ_cons]
      cases b
      · simp
      · rw [if_neg (by simp)]
        split_ifs
        · simp
        · rw [ih]
          simp

theorem sendTotLen_nonneg : 0 ≤ (sendTurns e c).1.sendTotLen :=
  sendLoop_sendTotLen c.s.rtt.cwindow.toNat c.txOk true (sendStart c.s (e.pkt c.calls.length))

/-- `_tcp_send` fails exactly if a segment is refused. -/
theorem tcpSend_fails : (tcpSend e c).2 < 0 ↔ false ∈ c.txOk.take (sendOutputs e c) := by
  have hfails : (sendTurns e c).2.2 = true ↔ false ∈ c.txOk.take (sendOutputs e c) := sendLoop_fails
  rw [← hfails, tcpSend_eq, tcpSendWith]
  split_ifs with h
  · exact iff_of_true (by decide : (-1 : ℤ) < 0) h
  · exact iff_of_false (not_lt.mpr sendTotLen_nonneg) h

theorem tcpSendsoon_fails : (tcpSendsoon e c).2 < 0 ↔ false ∈ c.txOk.take (soonOutputs e c) := by
  unfold tcpSendsoon tcpSendsoonWith soonOutputs
  by_cases hip : c.s.ipType = tcpProto
  · rw [if_neg (not_not.mpr hip)]
    by_cases hnow : c.s.rtt.rto ≤ e.cfg.rtoBase ∧ c.s.rtt.recent = false ∧ c.s.rtt.rttTime ≤ soonTimeout e c.s
    · rw [if_pos hnow, if_pos ⟨hip, hnow⟩]
      exact tcpSend_fails
    · have hlater : ¬ (c.s.ipType = tcpProto ∧ c.s.rtt.rto ≤ e.cfg.rtoBase ∧ c.s.rtt.recent = false ∧
          c.s.rtt.rttTime ≤ soonTimeout e c.s) := fun h => hnow h.2
      rw [if_neg hnow, if_neg hlater]
      split_ifs <;> simp
  · rw [if_pos hip, if_neg fun h => hip h.1]
    simp

variable {data : List Byte} {room : Dword}

/-- `tcp_write` behind the copy takes all it is given, and fails if a segment is refused. -/
theorem writeTake_result (push : Bool) (hshort : data.length < 2 ^ 31) :
    grown c (writeTake e c data room push).1 = data.length ∧
      (writeTake e c data room push).1.s.ipType = c.s.ipType ∧
      (writeTake e c data room push).2 =
        if false ∈ c.txOk.take (takeOutputs e c data room) then -1 else (data.length : ℤ) := by
  have hlen : (BitVec.ofNat 32 data.length).toNat = data.length := by
    rw [BitVec.toNat_ofNat, Nat.mod_eq_of_lt (by omega)]
  have hint : (BitVec.ofNat 32 data.length).toInt = data.length := by
    rw [BitVec.toInt_eq_toNat_of_lt (by omega), hlen]
  have hgrown : ∀ c' : Conn, c'.s.tx = (appendTx e c.s data).tx → grown c c' = data.length := by
    intro c' h
    unfold grown
    rw [h]
    dsimp only [appendTx]
    rw [BitVec.add_comm, BitVec.add_sub_cancel, hlen]
  unfold writeTake takeOutputs
  dsimp only
  by_cases hlocal : (appendTx e c.s data).localMode = true ∧ BitVec.ofNat 32 data.length < room
  · rw [if_pos hlocal, if_pos hlocal, List.take_zero]
    refine ⟨hgrown _ rfl, rfl, ?_⟩
    rw [if_neg List.not_mem_nil, hint]
  · rw [if_neg hlocal, if_neg hlocal]
    by_cases hnow : writeNow e.cfg (appendTx e c.s data) (BitVec.ofNat 32 data.length) = true
    · rw [if_pos hnow, if_pos hnow]
      refine ⟨hgrown _ (tcpSend_tx ..), tcpSend_ipType .., ?_⟩
      dsimp only
      simp only [tcpSend_fails, hint]
    · rw [if_neg hnow, if_neg hnow]
      refine ⟨hgrown _ (tcpSendsoon_tx ..), tcpSendsoon_ipType .., ?_⟩
      dsimp only
      simp only [tcpSendsoon_fails, hint]

theorem writeTake_exact (push : Bool) (hshort : data.length < 2 ^ 31) (hsome : data ≠ []) :
    (writeTake e c data room push).1.s.ipType = c.s.ipType ∧
      (false ∉ c.txOk.take (takeOutputs e c data room) →
        (writeTake e c data room push).2 = grown c (writeTake e c data room push).1) ∧
      (¬ false ∉ c.txOk.take (takeOutputs e c data room) →
        (writeTake e c data room push).2 = -1 ∧ 0 < grown c (writeTake e c data room push).1) := by
  obtain ⟨hgrown, hip, hresult⟩ := writeTake_result (c := c) (e := e) push hshort
  refine ⟨hip, fun hall => ?_, fun hfail => ⟨?_, ?_⟩⟩
  · rw [hresult, if_neg hall, hgrown]
  · rw [hresult, if_pos (not_not.mp hfail)]
  · rw [hgrown]
    exact List.length_pos_iff.mpr hsome

/-- **`tcp_write`**: when a segment is refused it fails with the bytes taken; otherwise it returns how many it
took. -/
theorem tcpWrite_result (hshort : data.length < 2 ^ 31) :
    (tcpWrite e c data).1.s.ipType = c.s.ipType ∧
      (SendsAll e c data → (tcpWrite e c data).2 = grown c (tcpWrite e c data).1) ∧
      (¬ SendsAll e c data → (tcpWrite e c data).2 = -1 ∧ 0 < grown c (tcpWrite e c data).1) := by
  have hnone : grown c c = 0 := by
    unfold grown
    rw [BitVec.sub_self]
    rfl
  unfold SendsAll tcpWrite writeOutputs
  dsimp only
  by_cases hs : c.s.state ≠ .estab
  · rw [if_pos hs, if_pos hs, hnone]
    simp
  rw [if_neg hs, if_neg hs]
  by_cases hpart : (writeRoom c.s).toNat < data.length
  · rw [if_pos hpart, if_pos hpart]
    by_cases hroom : writeRoom c.s = 0
    · rw [if_pos hroom, if_pos hroom, hnone]
      simp
    · rw [if_neg hroom, if_neg hroom]
      have hpos : 0 < (writeRoom c.s).toNat :=
        Nat.pos_of_ne_zero fun h => hroom (BitVec.eq_of_toNat_eq h)
      have hlen : (data.take (writeRoom c.s).toNat).length = (writeRoom c.s).toNat := by
        rw [List.length_take, min_eq_left hpart.le]
      exact writeTake_exact _ (by omega) (List.ne_nil_of_length_pos (by omega))
  · rw [if_neg hpart, if_neg hpart]
    by_cases hnil : data = []
    · rw [if_pos hnil, if_pos hnil, hnone]
      simp
    · rw [if_neg hnil, if_neg hnil]
      exact writeTake_exact _ hshort hnil

end Outputs

/-! ## The results are exact -/

/-- A call on a TCP socket. -/
inductive WriteCall
  | fastwrite (e : Env) (data : UserData)
  | write (turns : List WriteTurn) (data : UserData)

/-- `sock_fastwrite` returns by how much the stream grew. When `sock_write` returns 0 and the socket lives, none
of the bytes of the call are queued. -/
def WriteCall.Exact (net : Net) (c : Conn) : WriteCall → Prop
  | .fastwrite e data => (sockFastwrite e c data.bytes).2 = grown c (sockFastwrite e c data.bytes).1
  | .write turns data => ∀ w ∈ sockWrite net turns c data.bytes,
      w.result = 0 → w.c.s.ipType = tcpProto → w.queued = 0

/-- The lower layer refuses none of the segments that the turns send. -/
def TurnsSend (net : Net) : List WriteTurn → Conn → List Byte → Prop
  | [], _, _ => True
  | t :: ts, c, data => c.s.ipType = tcpProto →
      SendsAll t.e (pushUnlessLocal c) data ∧
        (data.drop (writeTurn t.e c data).2.toNat ≠ [] →
          (t.run net (writeTurn t.e c data).1).s.ipType ≠ 0 →
          TurnsSend net ts (t.run net (writeTurn t.e c data).1) (data.drop (writeTurn t.e c data).2.toNat))

/-- The lower layer refuses none of the segments of the call. -/
def WriteCall.Sends (net : Net) (c : Conn) : WriteCall → Prop
  | .fastwrite e data => c.s.ipType = tcpProto → SendsAll e c data.bytes
  | .write turns data => TurnsSend net turns c data.bytes

section Exact

variable {net : Net} {c : Conn}

theorem fastwrite_exact_iff (e : Env) (data : UserData) :
    (WriteCall.fastwrite e data).Exact net c ↔ (WriteCall.fastwrite e data).Sends net c := by
  obtain ⟨-, hsent, hfail⟩ := tcpWrite_result (e := e) (c := c) data.short
  have hlocal : ∀ c', grown c (clearLocal c') = grown c c' := fun _ => rfl
  unfold WriteCall.Exact WriteCall.Sends sockFastwrite
  by_cases hip : c.s.ipType = tcpProto
  · simp only [if_pos hip, hlocal]
    by_cases hall : SendsAll e c data.bytes
    · rw [hsent hall, if_neg (by omega)]
      exact iff_of_true rfl fun _ => hall
    · obtain ⟨hminus, hpos⟩ := hfail hall
      rw [hminus, if_pos (by decide)]
      exact iff_of_false (by omega) fun h => hall (h hip)
  · simp only [if_neg hip]
    refine iff_of_true ?_ fun h => absurd h hip
    unfold grown
    rw [BitVec.sub_self]
    rfl

theorem pushUnlessLocal_frame (c : Conn) :
    (pushUnlessLocal c).s.tx = c.s.tx ∧ (pushUnlessLocal c).s.ipType = c.s.ipType := by
  unfold pushUnlessLocal
  split_ifs <;> exact ⟨rfl, rfl⟩

/-- A turn of `sock_write`. -/
theorem writeTurn_result {e : Env} {data : List Byte} (hshort : data.length < 2 ^ 31) :
    (writeTurn e c data).1.s.ipType = c.s.ipType ∧
      (SendsAll e (pushUnlessLocal c) data → (writeTurn e c data).2 = grown c (writeTurn e c data).1) ∧
      (¬ SendsAll e (pushUnlessLocal c) data →
        (writeTurn e c data).2 = -1 ∧ 0 < grown c (writeTurn e c data).1) := by
  obtain ⟨htx, hip⟩ := pushUnlessLocal_frame c
  have hgrown : ∀ c', grown c c' = grown (pushUnlessLocal c) c' := by
    intro c'
    unfold grown
    rw [htx]
  have hresult := tcpWrite_result (e := e) (c := pushUnlessLocal c) hshort
  rw [hip] at hresult
  simpa only [hgrown, writeTurn] using hresult

/-- The loop of `sock_write` for data that are not empty: one case per way a turn can end. -/
theorem sockWriteLoop_exact_iff {len : ℤ} (hlen : len ≠ 0) (turns : List WriteTurn) :
    ∀ {c : Conn} {data : List Byte} {queued : ℕ}, data.length < 2 ^ 31 →
      ((∀ w ∈ sockWriteLoop net len turns c data queued,
        w.result = 0 → w.c.s.ipType = tcpProto → w.queued = 0) ↔ TurnsSend net turns c data) := by
  induction turns with
  | nil =>
    intro c data queued _
    exact iff_of_true (fun w hw => absurd hw (Option.not_mem_none w)) trivial
  | cons t ts ih =>
    intro c data queued hshort
    unfold sockWriteLoop TurnsSend
    by_cases hip : c.s.ipType = tcpProto
    · obtain ⟨htype, hsent, hfail⟩ := writeTurn_result (e := t.e) (c := c) hshort
      rw [if_neg (not_not.mpr hip)]
      simp only [hip, forall_const]
      by_cases hall : SendsAll t.e (pushUnlessLocal c) data
      · rw [if_neg (by rw [hsent hall]; omega)]
        simp only [hall, true_and]
        by_cases hrest : data.drop (writeTurn t.e c data).2.toNat = []
        · rw [if_pos hrest]
          refine iff_of_true ?_ fun h => absurd hrest h
          rintro w ⟨⟩ hzero
          exact absurd hzero hlen
        · rw [if_neg hrest]
          simp only [hrest, not_false_eq_true, ne_eq, forall_const]
          by_cases hdead : (t.run net (writeTurn t.e c data).1).s.ipType = 0
          · rw [if_pos hdead]
            refine iff_of_true ?_ fun h => absurd hdead h
            rintro w ⟨⟩ _ hlive
            rw [hdead] at hlive
            exact absurd hlive (by decide)
          · rw [if_neg hdead]
            simp only [hdead, not_false_eq_true, forall_const]
            refine ih ?_
            rw [List.length_drop]
            omega
      · obtain ⟨hminus, hpos⟩ := hfail hall
        rw [if_pos (by rw [hminus]; decide)]
        refine iff_of_false (fun h => ?_) fun h => hall h.1
        have hnone := h _ rfl rfl (htype.trans hip)
        dsimp only at hnone
        omega
    · rw [if_pos hip]
      refine iff_of_true ?_ fun h => absurd h hip
      rintro w ⟨⟩ _ hlive
      exact absurd hlive hip

/-- A `tcp_write` of nothing. -/
theorem tcpWrite_nil (e : Env) (c : Conn) : tcpWrite e c [] = (c, 0) ∧ writeOutputs e c [] = 0 := by
  have hroom : ¬ (writeRoom c.s).toNat < ([] : List Byte).length := Nat.not_lt_zero _
  unfold tcpWrite writeOutputs
  by_cases hs : c.s.state ≠ .estab
  · rw [if_pos hs, if_pos hs]
    exact ⟨rfl, rfl⟩
  · rw [if_neg hs, if_neg hs]
    dsimp only
    rw [if_neg hroom, if_neg hroom, if_pos rfl, if_pos rfl]
    exact ⟨rfl, rfl⟩

theorem sockWrite_nil (turns : List WriteTurn) (c : Conn) :
    (∀ w ∈ sockWrite net turns c [], w.queued = 0) ∧ TurnsSend net turns c [] := by
  unfold sockWrite
  cases turns with
  | nil => exact ⟨fun w hw => absurd hw (Option.not_mem_none w), trivial⟩
  | cons t ts =>
    obtain ⟨hwrite, hnone⟩ := tcpWrite_nil t.e (pushUnlessLocal c)
    unfold sockWriteLoop TurnsSend writeTurn
    rw [hwrite]
    constructor
    · have hgrown : grown c (pushUnlessLocal c) = 0 := by
        unfold grown
        rw [(pushUnlessLocal_frame c).1, BitVec.sub_self]
        rfl
      dsimp only
      rw [List.drop_nil, if_pos rfl, if_neg (lt_irrefl (0 : ℤ)), hgrown]
      split_ifs
      · rintro w ⟨⟩
        rfl
      · rintro w ⟨⟩
        rfl
    · intro _
      refine ⟨?_, fun h => absurd List.drop_nil h⟩
      unfold SendsAll
      rw [hnone, List.take_zero]
      exact List.not_mem_nil

/-- **Write results are exact** exactly if the lower layer refuses none of the segments of the call. -/
theorem write_exact_iff (net : Net) (c : Conn) (call : WriteCall) : call.Exact net c ↔ call.Sends net c := by
  cases call with
  | fastwrite e data => exact fastwrite_exact_iff e data
  | write turns data =>
    unfold WriteCall.Exact WriteCall.Sends
    dsimp only
    by_cases hnil : data.bytes = []
    · rw [hnil]
      exact iff_of_true (fun w hw _ _ => (sockWrite_nil turns c).1 w hw) (sockWrite_nil turns c).2
    · have hlen : (data.bytes.length : ℤ) ≠ 0 := by
        rw [Int.natCast_ne_zero]
        exact fun h => hnil (List.length_eq_zero_iff.mp h)
      exact sockWriteLoop_exact_iff hlen turns data.short

end Exact

/-! ## A refused segment -/

/-- Four bytes. -/
def fourBytes : UserData := ⟨[1, 2, 3, 4], by decide⟩

/-- The segment is refused, and `sock_fastwrite` returns 0 with the bytes in the buffer. -/
theorem write_inexact : ¬ ∀ (net : Net) (c : Conn) (call : WriteCall), call.Exact net c := by
  intro h
  have hzero := h {} (establishedConn [false]) (.fastwrite {} fourBytes)
  revert hzero
  unfold WriteCall.Exact
  decide +kernel

end Watt32.Tcp
