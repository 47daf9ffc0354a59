import Watt32.Tcp.Segments

/-!
# Signed segments

`check_md5_signature` of `tcp_md5.c` on what `_tcp_send` emits.

* `findSign`: the search for the signature option, for so many options at most.
* `checkMd5Signature`: the verifier, or nothing when its search does not end.
* `Leads`: the options lead from one place to the signature.
* `Signed`: what stands at the front of the packet buffer from the first segment of a call on.
* **`signed_rejected`**: the signer gives its option the length 18 and the verifier asks for 16, so that no
  segment is accepted.
-/

namespace Watt32.Tcp

/-! ## The verifier -/

/-- The search for `TCPOPT_SIGNATURE` from `opt` on: the option, or none before `data`; nothing when it goes on
after `fuel` options. -/
def findSign (mem : ℕ → Byte) (data : ℕ) : (fuel opt : ℕ) → Option (Option ℕ)
  | 0, _ => none
  | fuel + 1, opt =>
    if data ≤ opt then some none
    else if mem opt = 19 then some (some opt)
    else if mem opt = 0 then some none
    else if mem opt = 1 then findSign mem data fuel (opt + 1)
    else findSign mem data fuel (opt + (mem (opt + 1)).toNat)

/-- The bytes of a 16-bit number in network order. -/
def bytes16 (x : Word) : List Byte := [(x >>> 8).setWidth 8, x.setWidth 8]

/-- The flag bits of a TCP header. -/
def TcpFlags.byte (f : TcpFlags) : Byte :=
  (if f.fin then 1 else 0) ||| (if f.syn then 2 else 0) ||| (if f.rst then 4 else 0) |||
    (if f.push then 8 else 0) ||| (if f.ack then 16 else 0) ||| (if f.urg then 32 else 0)

/-- `tcp_Header` in memory. -/
def TcpHeader.bytes (h : TcpHeader) (checksum : Word) : List Byte :=
  bytes16 h.srcPort ++ bytes16 h.dstPort ++ bytes32 h.seqnum ++ bytes32 h.acknum ++
    [h.offset.setWidth 8 <<< 4, h.flags.byte] ++ bytes16 h.window ++ bytes16 checksum ++ bytes16 0

/-- What is hashed: the pseudo-header, the TCP header with a checksum of zero, the data and the secret. -/
def signedBytes (secret : List Byte) (seg : InSegment) : List Byte :=
  let len : Word := seg.tcpLen - BitVec.ofNat 16 seg.hdr.dataOfs
  bytes32 seg.source ++ bytes32 seg.destination ++ [(0 : Byte), 6] ++ bytes16 len ++
    Mem.slice (Mem.put seg.mem 16 [0, 0]) 0 20 ++ Mem.slice seg.mem seg.hdr.dataOfs len.toNat ++ secret

/-- `check_md5_signature`, the 40 bytes of options holding 40 options at most. -/
def checkMd5Signature (md5 : List Byte → ℕ → Byte) (secret : Option (List Byte)) (seg : InSegment) : Option Bool :=
  match secret with
  | none => some false
  | some secret =>
    match findSign seg.mem seg.hdr.dataOfs 41 20 with
    | none => none
    | some none => some false
    | some (some opt) =>
      if seg.mem (opt + 1) ≠ 16 then some false
      else some (decide (Mem.slice seg.mem (opt + 2) 16 = Mem.slice (md5 (signedBytes secret seg)) 0 16))

/-- A segment as it comes in; `behind` is what lies behind it. -/
def OutSegment.received (seg : OutSegment) (source destination : Dword) (tos : Byte) (checksum : Word)
    (behind : ℕ → Byte) : InSegment where
  source := source
  destination := destination
  tos := tos
  hdr := seg.hdr
  flagsHi := 0
  tcpLen := BitVec.ofNat 16 (20 + seg.body.length)
  mem := Mem.put behind 0 (seg.hdr.bytes checksum ++ seg.body)

theorem TcpHeader.length_bytes (h : TcpHeader) (checksum : Word) : (h.bytes checksum).length = 20 := rfl

/-! ## The way to the signature -/

/-- The options lead from `opt` to a signature at `p` in so many steps. -/
inductive Leads (mem : ℕ → Byte) (p : ℕ) : (opt n : ℕ) → Prop
  | here : mem p = 19 → Leads mem p p 0
  | nop {opt n : ℕ} : mem opt = 1 → Leads mem p (opt + 1) n → Leads mem p opt (n + 1)
  | skip {opt n : ℕ} : mem opt ∉ [0, 1, 19] → Leads mem p (opt + (mem (opt + 1)).toNat) n →
      Leads mem p opt (n + 1)

section Leads

variable {mem mem' : ℕ → Byte} {p opt n : ℕ}

theorem Leads.sign (h : Leads mem p opt n) : mem p = 19 := by
  induction h with
  | here h => exact h
  | nop _ _ ih => exact ih
  | skip _ _ ih => exact ih

theorem Leads.le (h : Leads mem p opt n) : opt ≤ p := by
  induction h with
  | here h => exact le_rfl
  | nop _ _ ih => exact (Nat.le_succ _).trans ih
  | skip _ _ ih => exact (Nat.le_add_right ..).trans ih

theorem Leads.lt (h : Leads mem p opt n) (hopt : mem opt ≠ 19) : opt < p :=
  h.le.lt_of_ne fun heq => hopt (heq ▸ h.sign)

/-- The search follows the options. -/
theorem Leads.findSign {data fuel : ℕ} (h : Leads mem p opt n) (hdata : p < data) (hfuel : n < fuel) :
    findSign mem data fuel opt = some (some p) := by
  induction h generalizing fuel with
  | here h =>
    obtain ⟨fuel, rfl⟩ := Nat.exists_eq_succ_of_ne_zero hfuel.ne_bot
    rw [Tcp.findSign, if_neg (by omega), if_pos h]
  | @nop opt n hop hrest ih =>
    obtain ⟨fuel, rfl⟩ := Nat.exists_eq_succ_of_ne_zero (Nat.ne_zero_of_lt hfuel)
    have hle := hrest.le
    rw [Tcp.findSign, if_neg (by omega), if_neg (by rw [hop]; decide), if_neg (by rw [hop]; decide), if_pos hop]
    exact ih (by omega)
  | @skip opt n hop hrest ih =>
    obtain ⟨fuel, rfl⟩ := Nat.exists_eq_succ_of_ne_zero (Nat.ne_zero_of_lt hfuel)
    have hle := hrest.le
    simp only [List.mem_cons, List.not_mem_nil, or_false, not_or] at hop
    rw [Tcp.findSign, if_neg (by omega), if_neg hop.2.2, if_neg hop.1, if_neg hop.2.1]
    exact ih (by omega)

/-- The way depends on the bytes up to the signature, wherever they lie. -/
theorem Leads.shift {d : ℕ} (h : Leads mem p opt n) (hsame : ∀ i ≤ p, mem' (d + i) = mem i) :
    Leads mem' (d + p) (d + opt) n := by
  induction h with
  | here h =>
    refine .here ?_
    rw [hsame _ le_rfl]
    exact h
  | @nop opt n hop hrest ih =>
    refine .nop ?_ ih
    rw [hsame _ (by have := hrest.le; omega)]
    exact hop
  | @skip opt n hop hrest ih =>
    have hlt : opt < p := (Leads.skip hop hrest).lt fun h => hop (by simp [h])
    refine .skip ?_ ?_
    · rw [hsame _ hlt.le]
      exact hop
    · rw [Nat.add_assoc d opt 1, hsame _ hlt, Nat.add_assoc]
      exact ih

end Leads

/-! ## The signer -/

/-- The options at the front of the buffer lead to a signature option of length 18. -/
def Front (buf : ℕ → Byte) : Prop := ∃ p ≤ 16, ∃ n ≤ 4, Leads buf p 0 n ∧ buf (p + 1) = 18

/-- No verifier accepts the segment. -/
def Rejected (seg : OutSegment) : Prop :=
  ∀ (md5 : List Byte → ℕ → Byte) (secret : Option (List Byte)) (source destination : Dword) (tos : Byte)
    (checksum : Word) (behind : ℕ → Byte),
    checkMd5Signature md5 secret (seg.received source destination tos checksum behind) = some false

section Turn

variable {e : Env} {l : SendLoop} {first : Bool}

/-- A segment whose options lead to a signature option of length 18. -/
theorem rejected_of_front {seg : OutSegment} {buf : ℕ → Byte} {n : ℕ} (hfront : Front buf)
    (hbody : seg.body = Mem.slice buf 0 n) (hn : 20 ≤ n) (hofs : 40 ≤ seg.hdr.dataOfs) : Rejected seg := by
  obtain ⟨p, hp, k, hk, hleads, hlen⟩ := hfront
  intro md5 secret source destination tos checksum behind
  have hmem : ∀ i < n, (seg.received source destination tos checksum behind).mem (20 + i) = buf i := by
    intro i hi
    have hlen : seg.body.length = n := by rw [hbody, Mem.length_slice]
    have hat : (seg.hdr.bytes checksum ++ seg.body)[20 + i]? = some (buf i) := by
      rw [List.getElem?_append_right (by rw [TcpHeader.length_bytes]; omega), TcpHeader.length_bytes,
        Nat.add_sub_cancel_left, hbody, Mem.getElem?_slice, if_pos hi, Nat.zero_add]
    unfold OutSegment.received Mem.put
    dsimp only
    rw [if_pos (Nat.zero_le _), Nat.sub_zero, hat]
    rfl
  have hfind : findSign (seg.received source destination tos checksum behind).mem seg.hdr.dataOfs 41 20 =
      some (some (20 + p)) :=
    (hleads.shift (d := 20) fun i hi => hmem i (by omega)).findSign (by omega) (by omega)
  have hopt : (seg.received source destination tos checksum behind).mem (20 + p + 1) = 18 := by
    rw [Nat.add_assoc, hmem _ (by omega)]
    exact hlen
  unfold checkMd5Signature
  cases secret with
  | none => rfl
  | some secret =>
    dsimp only
    rw [show (seg.received source destination tos checksum behind).hdr = seg.hdr from rfl, hfind]
    dsimp only
    rw [if_pos (by rw [hopt]; decide)]

/-- A segment without options. -/
theorem rejected_of_bare {seg : OutSegment} (hofs : seg.hdr.dataOfs ≤ 20) : Rejected seg := by
  intro md5 secret source destination tos checksum behind
  unfold checkMd5Signature
  cases secret with
  | none => rfl
  | some secret =>
    dsimp only
    rw [show (seg.received source destination tos checksum behind).hdr = seg.hdr from rfl, findSign, if_pos hofs]

theorem tcpOptions_buf_of_lt {s : TcpSocket} {buf : ℕ → Byte} {opt i : ℕ} {isSyn : Bool} (hi : i < opt) :
    (tcpOptions e s buf opt isSyn).buf i = buf i := by
  have hplain : (optionsUnsigned e s buf opt isSyn).buf i = buf i := by
    unfold optionsUnsigned
    dsimp only
    split_ifs
    · dsimp only
      rw [Mem.put_of_lt (by omega), Mem.put_of_lt hi]
    · exact Mem.put_of_lt hi
    · exact Mem.put_of_lt hi
    · rfl
  unfold tcpOptions
  split_ifs
  · rfl
  · cases s.secret with
    | none => exact hplain
    | some secret =>
      dsimp only [tcpOptMd5Sign]
      rw [Mem.put_of_lt (by omega), Mem.put_of_lt (by omega)]
      exact hplain

theorem finaliseMd5Sign_of_lt {s : TcpSocket} {hdr : TcpHeader} {n i p : ℕ} {buf : ℕ → Byte} {signOpt : Option ℕ}
    (hp : ∀ q ∈ signOpt, p ≤ q) (hi : i < p) : finaliseMd5Sign e s hdr n signOpt buf i = buf i := by
  unfold finaliseMd5Sign
  rcases s.secret with _ | secret
  · rfl
  · rcases signOpt with _ | q
    · rfl
    · exact Mem.put_of_lt (hi.trans_le (hp q rfl))

/-- A turn writes from its data pointer on. -/
theorem sendSegment_buf_of_lt {i : ℕ} (hi : i < l.data) : (sendSegment e l first).buf i = l.buf i := by
  have hsign : ∀ q ∈ (sendOptions e l first).signOpt, l.data ≤ q := fun q hq => (tcpOptions_signOpt hq).1
  have hopt : (sendOptions e l first).buf i = l.buf i := tcpOptions_buf_of_lt hi
  unfold sendSegment
  dsimp only
  rw [finaliseMd5Sign_of_lt hsign hi]
  split_ifs
  · rw [Mem.blit_of_lt (by omega)]
    exact hopt
  · exact hopt

/-- The signature itself lies behind its option's first two bytes, the data behind the options. -/
theorem sendSegment_buf_of_sign {i q : ℕ} (hq : (sendOptions e l first).signOpt = some q) (hi : i < q) :
    (sendSegment e l first).buf i = (sendOptions e l first).buf i := by
  have hlen := tcpOptions_signOpt hq
  have hsign : ∀ q' ∈ (sendOptions e l first).signOpt, q ≤ q' := by
    intro q' hq'
    rw [hq] at hq'
    exact (Option.some_inj.mp hq').le
  unfold sendSegment
  dsimp only
  rw [finaliseMd5Sign_of_lt hsign hi]
  split_ifs
  · refine Mem.blit_of_lt ?_
    unfold sendOptions at hlen ⊢
    omega
  · rfl

/-- A time stamp leads to what stands behind it. -/
theorem leads_timestamp {mem buf : ℕ → Byte} {o : ℕ} {now echo : Dword}
    (h : ∀ i < 12, mem (o + i) = Mem.put buf o (tcpOptTimestamp now echo) (o + i)) (hsign : mem (o + 12) = 19) :
    Leads mem (o + 12) o 3 := by
  have h₀ : mem o = 1 := (h 0 (by omega)).trans (Mem.put_of_mem (Nat.zero_lt_succ _))
  have h₁ : mem (o + 1) = 1 := (h 1 (by omega)).trans (Mem.put_of_mem (by simp [tcpOptTimestamp]))
  have h₂ : mem (o + 1 + 1) = 8 := (h 2 (by omega)).trans (Mem.put_of_mem (by simp [tcpOptTimestamp]))
  have h₃ : mem (o + 1 + 1 + 1) = 10 := (h 3 (by omega)).trans (Mem.put_of_mem (by simp [tcpOptTimestamp]))
  refine .nop h₀ (.nop h₁ (.skip ?_ ?_))
  · rw [h₂]
    decide
  · rw [h₃]
    exact .here hsign

/-- An MSS leads to what stands behind it. -/
theorem leads_maxsegment {s : TcpSocket} {mem buf : ℕ → Byte} {p n : ℕ}
    (h : ∀ i < 4, mem i = Mem.put buf 0 (tcpOptMaxsegment s) i) (hrest : Leads mem p 4 n) : Leads mem p 0 (n + 1) := by
  have h₀ : mem 0 = 2 := h 0 (by omega)
  have h₁ : mem (0 + 1) = 4 := h 1 (by omega)
  refine .skip ?_ ?_
  · rw [h₀]
    decide
  · rw [h₁]
    exact hrest

/-- The options of a segment lead to what stands behind them. -/
theorem leads_unsigned {s : TcpSocket} {buf mem : ℕ → Byte} {isSyn : Bool}
    (hmem : ∀ i < (optionsUnsigned e s buf 0 isSyn).len, mem i = (optionsUnsigned e s buf 0 isSyn).buf i)
    (hsign : mem (optionsUnsigned e s buf 0 isSyn).len = 19) :
    (optionsUnsigned e s buf 0 isSyn).len ≤ 16 ∧ ∃ n ≤ 4, Leads mem (optionsUnsigned e s buf 0 isSyn).len 0 n := by
  unfold optionsUnsigned at hmem hsign ⊢
  dsimp only at hmem hsign ⊢
  split_ifs at hmem hsign ⊢ with hsyn hts hts
  · have hstamp : Leads mem 16 4 3 := leads_timestamp (fun i hi => hmem (4 + i) (by dsimp only; omega)) hsign
    have hmss : ∀ i < 4, mem i = Mem.put buf 0 (tcpOptMaxsegment s) i := fun i hi =>
      (hmem i (by dsimp only; omega)).trans (Mem.put_of_lt (by omega))
    exact ⟨(by decide : 16 ≤ 16), 4, le_rfl, leads_maxsegment hmss hstamp⟩
  · exact ⟨(by decide : 4 ≤ 16), 1, by decide, leads_maxsegment hmem (.here hsign)⟩
  · have hstamp : Leads mem 12 0 3 :=
      leads_timestamp (fun i hi => (hmem (0 + i) (by dsimp only; omega))) hsign
    exact ⟨(by decide : 12 ≤ 16), 3, by decide, hstamp⟩
  · exact ⟨(by decide : 0 ≤ 16), 0, by decide, .here hsign⟩

/-- The options of a first segment lead to the signature. -/
theorem front_of_start (hdata : l.data = 0) (hopt : l.s.locflags.noopt = false) (hsecret : l.s.secret.isSome) :
    Front (sendSegment e l first).buf := by
  obtain ⟨secret, hs⟩ := Option.isSome_iff_exists.mp hsecret
  generalize hu : optionsUnsigned e { l.s with advWin := l.s.rx.maxRxData - l.s.rx.rxDatalen } l.buf 0
    (first && l.s.flags.syn) = u
  have ho : sendOptions e l first = { u with
      buf := tcpOptMd5Sign u.buf u.len, len := u.len + 20, signOpt := some (u.len + 2) } := by
    unfold sendOptions tcpOptions
    rw [if_neg (by simp [hopt]), hdata, hu]
    dsimp only
    rw [hs]
    simp only [Nat.zero_add]
  have hbuf : ∀ i < u.len + 2, (sendSegment e l first).buf i = tcpOptMd5Sign u.buf u.len i := by
    intro i hi
    rw [sendSegment_buf_of_sign (q := u.len + 2) (by rw [ho]) hi, ho]
  have hsign : (sendSegment e l first).buf u.len = 19 := by
    rw [hbuf _ (by omega)]
    unfold tcpOptMd5Sign
    rw [Mem.put_of_lt (by omega)]
    exact Mem.put_of_mem (d := u.len) (i := 0) (by simp)
  have hlen : (sendSegment e l first).buf (u.len + 1) = 18 := by
    rw [hbuf _ (by omega)]
    unfold tcpOptMd5Sign
    rw [Mem.put_of_lt (by omega)]
    exact Mem.put_of_mem (by simp)
  have hplain : ∀ i < u.len, (sendSegment e l first).buf i = u.buf i := by
    intro i hi
    rw [hbuf i (by omega)]
    unfold tcpOptMd5Sign
    rw [Mem.put_of_lt (by omega), Mem.put_of_lt hi]
  subst hu
  obtain ⟨hle, n, hn, hleads⟩ := leads_unsigned hplain hsign
  exact ⟨_, hle, n, hn, hleads, hlen⟩

end Turn

/-! ## A call -/

/-- Between the turns of a call: the options are off, or the front leads to the signature of the first segment;
what was emitted is rejected. -/
structure Turning (l : SendLoop) : Prop where
  secret : l.s.secret.isSome
  front : l.s.locflags.noopt = false → l.data = 0 ∨ 20 ≤ l.data ∧ Front l.buf
  segs : ∀ seg ∈ l.segs, Rejected seg

section Call

variable {e : Env} {l : SendLoop} {first : Bool}

theorem sendSegment_secret : (sendSegment e l first).s.secret = l.s.secret :=
  (congrArg TcpSocket.secret sendSegment_core :)

theorem sendSegment_noopt : (sendSegment e l first).s.locflags.noopt = l.s.locflags.noopt :=
  (congrArg (fun s => s.locflags.noopt) sendSegment_core :)

/-- After a turn the front leads to the signature. -/
theorem Turning.front_next (h : Turning l) (hopt : l.s.locflags.noopt = false) :
    Front (sendSegment e l first).buf := by
  rcases h.front hopt with hdata | ⟨hdata, p, hp, n, hn, hleads, hlen⟩
  · exact front_of_start hdata hopt h.secret
  · have hsame : ∀ i < 20, (sendSegment e l first).buf i = l.buf i := fun i hi =>
      sendSegment_buf_of_lt (by omega)
    refine ⟨p, hp, n, hn, ?_, ?_⟩
    · have hmoved : Leads (sendSegment e l first).buf (0 + p) (0 + 0) n := by
        apply hleads.shift
        intro i hi
        rw [Nat.zero_add]
        exact hsame i (by omega)
      rwa [Nat.zero_add, Nat.zero_add] at hmoved
    · rw [hsame _ (by omega)]
      exact hlen

/-- The segment of a turn is rejected. -/
theorem Turning.rejected (h : Turning l) {seg : OutSegment} (hseg : TurnSeg e l first seg) : Rejected seg := by
  have hofs : seg.hdr.dataOfs - 20 = turnLen e l.s first := hseg.optLen
  cases hopt : l.s.locflags.noopt with
  | true =>
    have hnone : turnLen e l.s first = 0 := by simp [turnLen, synLen, stampLen, baseLen, hopt]
    exact rejected_of_bare (by omega)
  | false =>
    have hbase : baseLen l.s = 20 := if_pos ⟨hopt, h.secret⟩
    have hlen : 20 ≤ turnLen e l.s first := by
      unfold turnLen
      omega
    have hbody : seg.body = Mem.slice (sendSegment e l first).buf 0 ((sendOptions e l first).len +
        (sendDataLen l first (sendOptions e l first).len).toNat) := by
      have hlast : l.segs ++ [seg] = l.segs ++ [⟨_, _⟩] := hseg.segs.symm
      exact congrArg OutSegment.body (List.singleton_inj.mp (List.append_cancel_left hlast))
    rw [sendOptions_len] at hbody
    exact rejected_of_front (h.front_next hopt) hbody (by omega) (by omega)

theorem Turning.next (h : Turning l) : Turning (sendSegment e l first) := by
  obtain ⟨seg, hseg⟩ := @sendSegment_seg e l first
  refine ⟨?_, ?_, ?_⟩
  · rw [sendSegment_secret]
    exact h.secret
  · intro hopt
    rw [sendSegment_noopt] at hopt
    have hbase : baseLen l.s = 20 := if_pos ⟨hopt, h.secret⟩
    refine .inr ⟨?_, h.front_next hopt⟩
    rw [sendSegment_data]
    unfold turnLen
    omega
  · rw [hseg.segs]
    intro seg' hmem
    rcases List.mem_append.mp hmem with hold | hnew
    · exact h.segs seg' hold
    · rw [List.mem_singleton.mp hnew]
      exact h.rejected hseg

theorem sendLoop_rejected {n : ℕ} {ok : List Bool} (h : Turning l) :
    ∀ seg ∈ (sendLoop e n ok first l).1.segs, Rejected seg := by
  induction n generalizing ok first l with
  | zero => exact h.segs
  | succ n ih =>
    unfold sendLoop
    dsimp only
    split_ifs
    · exact h.next.segs
    · exact h.next.segs
    · exact ih h.next

/-- **No signed segment verifies**: whatever `_tcp_send` emits for a control block with a secret, and whatever MD5
is, `check_md5_signature` turns it down. -/
theorem signed_rejected (e : Env) (c : Conn) (hsecret : c.s.secret.isSome) :
    ∃ new, (tcpSend e c).1.calls = c.calls ++ new ∧ ∀ call ∈ new, ∀ seg ∈ call.segs, Rejected seg := by
  obtain ⟨new, hnew, hcalls⟩ := (tcpSend_sent (c := c) (e := e)).1.calls
  refine ⟨new, hnew, fun call hcall => ?_⟩
  obtain ⟨hcore, buf, ok, hsegs⟩ := hcalls call hcall
  have hentry : call.entry.secret = c.s.secret := (congrArg TcpSocket.secret hcore :)
  rw [hsegs]
  refine sendLoop_rejected ⟨?_, fun _ => .inl rfl, fun seg hseg => absurd hseg List.not_mem_nil⟩
  rw [← hentry] at hsecret
  exact hsecret

end Call

/-! ## A signed segment -/

/-- A signer that hashes a pseudo-header, the TCP header, so many bytes and the secret. -/
def signingEnv (md5 : List Byte → ℕ → Byte) (pseudo : ℕ → List Byte) : Env :=
  { cfg := { md5 := fun secret hdr data => md5 (pseudo data.length ++ hdr.bytes 0 ++ data ++ secret) } }

/-- An established connection with a secret, and four bytes to send. -/
def signedConn : Conn :=
  (tcpWrite {} ((establishedConn []).upd fun s => { s with secret := some [1, 2, 3] }) [1, 2, 3, 4]).1

/-- The segment that `_tcp_send` emits does not verify. -/
theorem signed_unverified : ¬ ∀ (md5 : List Byte → ℕ → Byte) (pseudo : ℕ → List Byte) (c : Conn), c.s.secret.isSome →
    ∀ call ∈ (tcpSend (signingEnv md5 pseudo) c).1.calls, ∀ seg ∈ call.segs,
      ∀ (source destination : Dword) (tos : Byte) (checksum : Word) (behind : ℕ → Byte),
        checkMd5Signature md5 c.s.secret (seg.received source destination tos checksum behind) = some true := by
  intro h
  have hone : ∃ call ∈ (tcpSend (signingEnv (fun _ _ => 0) fun _ => []) signedConn).1.calls, ∃ seg ∈ call.segs,
      checkMd5Signature (fun _ _ => 0) signedConn.s.secret (seg.received 1 2 0 0 fun _ => 0) ≠ some true := by
    decide +kernel
  obtain ⟨call, hcall, seg, hseg, hne⟩ := hone
  exact hne (h _ _ signedConn (by decide +kernel) call hcall seg hseg 1 2 0 0 _)

/-- Four bytes are sent, signed, and rejected. -/
theorem signed_rejected_four : ∃ new, (tcpSend {} signedConn).1.calls = signedConn.calls ++ new ∧
    ∀ call ∈ new, ∀ seg ∈ call.segs, Rejected seg :=
  signed_rejected {} signedConn (by decide +kernel)

end Watt32.Tcp
