import Watt32.Bsd.RawArrival
import Watt32.Lib.Run

/-!
# The queue of a raw socket

Packets that come in and calls of `raw_receive`, in any order, on all the raw sockets.

* `State`: the sockets and `raw_seq`, with the packets that each socket has stored and not returned.
* `Act`, `step`: a packet comes in, or a socket is read from; a call that waits reads again.
* `SelectsOldest`: `find_oldest_raw` finds the used buffer with the smallest number; `ReturnsFirst`: a call
  returns the packet that came first.
* **`raw_queue_iff`**: which runs obey both throughout.
-/

namespace Watt32.RawSock

/-! ## The machine -/

/-- The sockets and `raw_seq`. `queue k` are the packets that socket `k` has stored and not returned, in their
order of arrival, and `stored` counts all that were ever stored. -/
structure State where
  socks : List Entry
  rawSeq : Dword := 0
  queue : ℕ → List (ℕ → Byte) := fun _ => []
  stored : ℕ := 0

/-- The steps. -/
inductive Act
  | arrive (f : Family) (ip : ℕ → Byte)
  | receive (k : ℕ) (buf : ℕ → Byte) (len : ℕ)

/-- The tests of both functions before their loops. -/
def accepts (env : Env) (f : Family) (ip : ℕ → Byte) : Bool :=
  lengthField f ip ≤ env.rxSize f ∧ (f = .inet6 → forUs env ip = true)

/-- The tests of a socket. -/
def wants (f : Family) (ip : ℕ → Byte) : Entry → Bool := if f = .inet6 then wants6 ip else wants4 ip

/-- The buffer that a packet goes to. -/
def place (env : Env) (f : Family) (ip : ℕ → Byte) (sock : Entry) : Option ℕ :=
  if accepts env f ip then (if wants f ip sock then findFree sock f else none) else none

/-- One pass of the loop of `raw_receive`: `none` when the call waits. -/
def pass (sock : Entry) (buf : ℕ → Byte) (len : ℕ) : Option Result := rawReceive sock.toSocket buf len [] sock.bufs

/-- A socket after a pass. -/
def received (sock : Entry) (buf : ℕ → Byte) (len : ℕ) : Entry :=
  { sock with bufs := ((pass sock buf len).map Result.bufs).getD sock.bufs }

/-- One step. -/
def step (env : Env) (s : State) : Act → State
  | .arrive f ip =>
    let r := rawRecv env f ip s.socks s.rawSeq
    { socks := r.socks
      rawSeq := r.rawSeq
      queue := fun k =>
        if (s.socks[k]?.bind (place env f ip)).isSome then s.queue k ++ [ip] else s.queue k
      stored := s.stored + r.numEnqueued }
  | .receive k buf len =>
    match s.socks[k]? with
    | none => s
    | some sock => { s with
        socks := s.socks.set k (received sock buf len)
        queue := if len < sock.hdrLen then s.queue else Function.update s.queue k (s.queue k).tail }

/-! ## The law -/

/-- When a buffer is used, the used one with the smallest number is found. -/
def SelectsOldest (bufs : List RawSlot) : Prop :=
  (∃ raw ∈ bufs, raw.used = true) → ∃ i, findOldest bufs = some i ∧ (bufs.getD i {}).used = true ∧
    ∀ raw ∈ bufs, raw.used = true → (bufs.getD i {}).seqNum ≤ raw.seqNum

/-- The caller has the packet, as far as the buffer goes. -/
def Gives (f : Family) (ip : ℕ → Byte) (len : ℕ) (r : Result) : Prop :=
  min r.ret len = min (totalLength f ip) len ∧
    Mem.slice r.buf 0 (min (totalLength f ip) len) = Mem.slice ip 0 (min (totalLength f ip) len)

/-- A call with room for a header returns the packet that came first and does not wait for another. -/
def ReturnsFirst (f : Family) (len : ℕ) (queue : List (ℕ → Byte)) (res : Option Result) : Prop :=
  match queue with
  | [] => ∀ r ∈ res, r.ret = -1
  | ip :: _ => ∃ r ∈ res, Gives f ip len r

/-- What a step has to do. -/
structure Lawful (env : Env) (s : State) (a : Act) : Prop where
  oldest : ∀ sock ∈ (step env s a).socks, SelectsOldest sock.bufs
  first : ∀ k buf len sock, a = .receive k buf len → s.socks[k]? = some sock → sock.hdrLen ≤ len →
    ReturnsFirst sock.soFamily len (s.queue k) (pass sock buf len)

/-- The packet is not shorter than its header by its length field; the caller's buffer is not longer than the
payload of an IPv6 packet. -/
def Readable (f : Family) (len : ℕ) (ip : ℕ → Byte) : Prop :=
  sizeofHeader f ≤ lengthField f ip ∧ (f = .inet6 → len ≤ lengthField f ip)

/-- At most one packet is queued, and a readable one. -/
def AtMostOne (f : Family) (len : ℕ) (queue : List (ℕ → Byte)) : Prop :=
  queue = [] ∨ ∃ ip, queue = [ip] ∧ Readable f len ip

/-- A call with room for a header finds at most one packet. -/
def OneQueued (s : State) (a : Act) : Prop :=
  ∀ k buf len sock, a = .receive k buf len → s.socks[k]? = some sock → sock.hdrLen ≤ len →
    AtMostOne sock.soFamily len (s.queue k)

/-- New sockets, with `recv_lowat` 0 and free buffers. -/
def Fresh (socks : List Entry) : Prop :=
  ∀ sock ∈ socks, sock.recvLowat = 0 ∧ ∀ raw ∈ sock.bufs, raw.used = false

variable {env : Env} {f : Family} {ip : ℕ → Byte} {sock : Entry} {socks : List Entry} {seq : Dword}
  {k len i : ℕ} {buf : ℕ → Byte} {s : State} {raw head : RawSlot} {bufs front back : List RawSlot}
  {queue : List (ℕ → Byte)}

/-! ## The oldest buffer -/

theorem oldestFrom_eq_self {n start : ℕ} (h : ∀ j, (bufs.getD j {}).used = true →
    (bufs.getD i {}).seqNum ≤ (bufs.getD j {}).seqNum) : oldestFrom bufs n i start = i := by
  induction n generalizing start with
  | zero => rfl
  | succ n ih =>
    rw [oldestFrom, if_neg fun hlt => BitVec.not_lt.mpr (h start hlt.1) hlt.2]
    exact ih

/-- A buffer of the list, or none behind its end. -/
theorem getD_cases (j : ℕ) : bufs.getD j {} ∈ bufs ∨ (bufs.getD j {}).used = false := by
  by_cases hj : j < bufs.length
  · rw [List.getD_eq_getElem?_getD, List.getElem?_eq_getElem hj, Option.getD_some]
    exact .inl (List.getElem_mem hj)
  · rw [List.getD_eq_getElem?_getD, List.getElem?_eq_none (by omega), Option.getD_none]
    exact .inr rfl

/-- When no used buffer has a smaller number than the first one, only the first one is looked at. -/
theorem findOldest_cons (h : ∀ raw ∈ bufs, raw.used = true → head.seqNum ≤ raw.seqNum) :
    findOldest (head :: bufs) = if head.used then some 0 else none := by
  have hzero : oldestFrom (head :: bufs) (head :: bufs).length 0 0 = 0 := by
    refine oldestFrom_eq_self fun j hj => ?_
    rcases getD_cases j with hmem | hfree
    · rcases List.mem_cons.mp hmem with he | hmem
      · exact (congrArg RawSlot.seqNum he.symm) ▸ BitVec.le_refl _
      · exact h _ hmem hj
    · rw [hfree] at hj
      cases hj
  unfold findOldest
  rw [hzero]
  rfl

theorem findOldest_eq : findOldest bufs =
    if (bufs.getD (oldestFrom bufs bufs.length 0 0) {}).used then some (oldestFrom bufs bufs.length 0 0) else none := rfl

theorem findOldest_none (h : ∀ raw ∈ bufs, raw.used = false) : findOldest bufs = none := by
  rw [findOldest_eq]
  rcases getD_cases (oldestFrom bufs bufs.length 0 0) with hmem | hfree
  · rw [h _ hmem]
    rfl
  · rw [hfree]
    rfl

theorem selectsOldest_free (h : ∀ raw ∈ bufs, raw.used = false) : SelectsOldest bufs := by
  rintro ⟨raw, hraw, hused⟩
  rw [h raw hraw] at hused
  cases hused

/-- A first buffer with the smallest number is found when it is used. -/
theorem selectsOldest_cons (h : ∀ raw ∈ bufs, raw.used = true → head.seqNum ≤ raw.seqNum) :
    SelectsOldest (head :: bufs) ↔ (head.used = true ∨ ∀ raw ∈ bufs, raw.used = false) := by
  constructor
  · intro hsel
    by_contra hno
    obtain ⟨hhead, hsome⟩ := not_or.mp hno
    push Not at hsome
    obtain ⟨raw, hraw, hused⟩ := hsome
    obtain ⟨i, hi, -⟩ := hsel ⟨raw, List.mem_cons_of_mem _ hraw, by simpa using hused⟩
    rw [findOldest_cons h, if_neg hhead] at hi
    cases hi
  · rintro (hhead | hfree)
    · refine fun _ => ⟨0, by rw [findOldest_cons h, if_pos hhead], hhead, fun raw hraw hused => ?_⟩
      rcases List.mem_cons.mp hraw with rfl | hraw
      · exact BitVec.le_refl _
      · exact h raw hraw hused
    · by_cases hhead : head.used = true
      · refine fun _ => ⟨0, by rw [findOldest_cons h, if_pos hhead], hhead, fun raw hraw hused => ?_⟩
        rcases List.mem_cons.mp hraw with rfl | hraw
        · exact BitVec.le_refl _
        · exact h raw hraw hused
      · refine selectsOldest_free fun raw hraw => ?_
        rcases List.mem_cons.mp hraw with rfl | hraw
        · exact Bool.eq_false_iff.mpr hhead
        · exact hfree raw hraw

/-! ## One packet -/

/-- The buffer holds the packet. -/
structure Keeps (f : Family) (raw : RawSlot) (ip : ℕ → Byte) : Prop where
  used : raw.used = true
  header : ∀ i < sizeofHeader f, raw.ip i = ip i
  data : ∀ i < payload f ip, raw.rxData i = ip (sizeofHeader f + i)

theorem hdrLen_eq : sock.hdrLen = sizeofHeader sock.soFamily := rfl

theorem Keeps.ipLen (h : Keeps sock.soFamily raw ip) : sock.ipLen raw = lengthField sock.soFamily ip := by
  have hheader := h.header
  unfold sizeofHeader at hheader
  unfold Socket.ipLen lengthField
  split_ifs at hheader ⊢ with hfam
  · rw [Tcp.readWord, Tcp.readWord, hheader 4 (by decide), hheader 5 (by decide)]
  · rw [Tcp.readWord, Tcp.readWord, hheader 2 (by decide), hheader 3 (by decide)]

theorem keeps_store (raw : RawSlot) {n : ℕ} (hn : payload f ip ≤ n) : Keeps f (store f ip n seq raw) ip where
  used := rfl
  header i hi := by
    refine (Mem.blit_of_mem (Nat.zero_le i) (by omega)).trans ?_
    rw [Nat.zero_add, Nat.sub_zero]
  data i hi := by
    refine (Mem.blit_of_mem (Nat.zero_le i) (by omega)).trans ?_
    rw [Nat.sub_zero]

/-- What a call makes of the packet in the first buffer. -/
theorem gives_iff (h : Keeps sock.soFamily head ip) (hlen : sock.hdrLen ≤ len)
    (hready : sizeofHeader sock.soFamily ≤ lengthField sock.soFamily ip) :
    Gives sock.soFamily ip len (deliver sock.toSocket buf len (head :: bufs) 0) ↔
      (sock.soFamily = .inet6 → len ≤ lengthField sock.soFamily ip) := by
  have hget : (head :: bufs).getD 0 {} = head := rfl
  have hip := h.ipLen
  rw [hdrLen_eq] at hlen
  have hret : (deliver sock.toSocket buf len (head :: bufs) 0).ret = _ := deliver_ret
  have hbuf : (deliver sock.toSocket buf len (head :: bufs) 0).buf = _ := deliver_buf hlen
  rw [hget, hip, hdrLen_eq] at hret hbuf
  have hpay : payload sock.soFamily ip =
      lengthField sock.soFamily ip - (if sock.soFamily = .inet6 then 0 else 20) := by
    unfold payload
    split_ifs <;> rfl
  unfold Gives
  rw [hret, hbuf]
  set L := lengthField sock.soFamily ip
  set H := sizeofHeader sock.soFamily with hH
  have hcell : ∀ i, i < H + min (L - H) len → i < H + payload sock.soFamily ip →
      Mem.blit (Mem.blit buf 0 head.ip 0 H) H head.rxData 0 (min (L - H) len) i = ip i := by
    intro i hi hpayload
    by_cases hlt : i < H
    · rw [Mem.blit_of_lt hlt, Mem.blit_of_mem (Nat.zero_le i) (by omega), Nat.zero_add, Nat.sub_zero, h.header i hlt]
    · rw [Mem.blit_of_mem (by omega) hi, Nat.zero_add, h.data _ (by omega)]
      congr 1
      omega
  by_cases hfam : sock.soFamily = .inet6
  · have hsize : H = 40 := by rw [hH, sizeofHeader, if_pos hfam]
    have htotal : totalLength sock.soFamily ip = 40 + L := if_pos hfam
    rw [if_pos hfam, Nat.sub_zero] at hpay
    rw [htotal, hsize]
    rw [hsize] at hcell hready hlen
    constructor
    · rintro ⟨hmin, -⟩ -
      omega
    · intro hle
      have hle := hle hfam
      refine ⟨by omega, Mem.slice_congr fun i hi => ?_⟩
      rw [Nat.zero_add]
      exact hcell i (by omega) (by omega)
  · have hsize : H = 20 := by rw [hH, sizeofHeader, if_neg hfam]
    have htotal : totalLength sock.soFamily ip = L := if_neg hfam
    rw [if_neg hfam] at hpay
    rw [htotal, hsize]
    rw [hsize] at hcell hready hlen
    refine iff_of_true ⟨by omega, Mem.slice_congr fun i hi => ?_⟩ fun h => absurd h hfam
    rw [Nat.zero_add]
    exact hcell i (by omega) (by omega)

/-! ## The buffers of a socket -/

/-- The packets of the queue are in the buffers in front, with rising numbers up to `bound`, and the buffers behind
them are free. -/
structure Good (sock : Entry) (queue : List (ℕ → Byte)) (bound : ℕ) (front back : List RawSlot) : Prop where
  lowat : sock.recvLowat = 0
  bufs : sock.bufs = front ++ back
  keeps : List.Forall₂ (Keeps sock.soFamily) front queue
  free : ∀ raw ∈ back, raw.used = false
  rising : front.Pairwise fun raw raw' => raw.seqNum < raw'.seqNum
  bounded : ∀ raw ∈ front, raw.seqNum.toNat ≤ bound

variable {bound : ℕ}

theorem Good.mono (h : Good sock queue bound front back) {bound' : ℕ} (hle : bound ≤ bound') :
    Good sock queue bound' front back :=
  { h with bounded := fun raw hraw => (h.bounded raw hraw).trans hle }

/-- Behind the first packet, used buffers have larger numbers. -/
theorem Good.smallest (h : Good sock queue bound (head :: front) back) :
    ∀ raw ∈ front ++ back, raw.used = true → head.seqNum ≤ raw.seqNum := by
  intro raw hraw hused
  rcases List.mem_append.mp hraw with hfront | hback
  · exact BitVec.le_of_lt (List.rel_of_pairwise_cons h.rising hfront)
  · rw [h.free raw hback] at hused
    cases hused

theorem Good.head_used (h : Good sock queue bound (head :: front) back) : head.used = true := by
  obtain ⟨ip, rest, hkeeps, -, -⟩ := List.forall₂_cons_left_iff.mp h.keeps
  exact hkeeps.used

theorem Good.front_used (h : Good sock queue bound front back) : ∀ raw ∈ front, raw.used = true := by
  intro raw hraw
  obtain ⟨i, hi, rfl⟩ := List.getElem_of_mem hraw
  exact (h.keeps.get hi (h.keeps.length_eq ▸ hi)).used

theorem Good.selectsOldest (h : Good sock queue bound front back) : SelectsOldest sock.bufs := by
  rw [h.bufs]
  cases front with
  | nil => exact selectsOldest_free h.free
  | cons head front => exact (selectsOldest_cons h.smallest).mpr (.inl h.head_used)

/-! ## Arrivals -/

/-- A packet goes to the first buffer behind the queue. -/
theorem Good.place_eq (h : Good sock queue bound front back) (hplace : place env f ip sock = some i) :
    sock.soFamily = f ∧ i = front.length ∧ ∃ raw rest, back = raw :: rest := by
  unfold place at hplace
  split_ifs at hplace with hacc hwant
  have hfam : sock.soFamily = f := (findFree_eq_some hplace).1
  refine ⟨hfam, ?_⟩
  unfold findFree Entry.list at hplace
  rw [if_pos hfam, h.bufs, List.findIdx?_append, List.findIdx?_eq_none_iff.mpr (by simpa using h.front_used),
    Option.none_or] at hplace
  cases back with
  | nil => cases hplace
  | cons raw rest =>
    have hfree := h.free raw (List.mem_cons_self ..)
    rw [List.findIdx?_cons, hfree] at hplace
    refine ⟨?_, raw, rest, rfl⟩
    simpa using hplace.symm

/-- The socket with a packet in buffer `i`. -/
def Entry.with (sock : Entry) (f : Family) (ip : ℕ → Byte) (seq : Dword) (i : ℕ) : Entry :=
  { sock with bufs := sock.bufs.modify i (store f ip (lengthField f ip) seq) }

theorem payload_le : payload f ip ≤ lengthField f ip := by
  unfold payload
  split_ifs <;> omega

/-- An arrival makes the queue longer. -/
theorem Good.arrive (h : Good sock queue bound front back) (hplace : place env f ip sock = some i) {x : ℕ}
    (hx : bound < x) (hword : x < 2 ^ 32) {bound' : ℕ} (hb : x ≤ bound') :
    ∃ front back, Good (sock.with f ip (BitVec.ofNat 32 x) i) (queue ++ [ip]) bound' front back := by
  obtain ⟨hfam, rfl, raw, rest, rfl⟩ := h.place_eq hplace
  have hseq : (store f ip (lengthField f ip) (BitVec.ofNat 32 x) raw).seqNum.toNat = x := by
    show (BitVec.ofNat 32 x).toNat = x
    rw [BitVec.toNat_ofNat]
    exact Nat.mod_eq_of_lt hword
  refine ⟨front ++ [store f ip (lengthField f ip) (BitVec.ofNat 32 x) raw], rest, h.lowat, ?_, ?_,
    fun raw' hraw' => h.free raw' (List.mem_cons_of_mem _ hraw'), ?_, fun raw' hraw' => ?_⟩
  · show sock.bufs.modify front.length _ = _
    rw [h.bufs, List.modify_eq_take_cons_drop (by simp)]
    simp
  · refine List.rel_append h.keeps (.cons ?_ .nil)
    show Keeps sock.soFamily _ ip
    rw [hfam]
    exact keeps_store raw payload_le
  · refine List.pairwise_append.mpr ⟨h.rising, List.pairwise_singleton .., fun raw' hraw' last hlast => ?_⟩
    rw [List.mem_singleton.mp hlast, BitVec.lt_def, hseq]
    exact (h.bounded raw' hraw').trans_lt hx
  · rcases List.mem_append.mp hraw' with hfront | hlast
    · exact (h.bounded raw' hfront).trans (hx.le.trans hb)
    · rw [List.mem_singleton.mp hlast, hseq]
      exact hb

/-- The loop leaves socket `k` as it was or puts the packet into it, with a number of its own. -/
theorem recvLoop_at {w : Entry → Bool} {n : ℕ} (seq : Dword) (h : socks[k]? = some sock) :
    ∃ m, m + ((if w sock then findFree sock f else none).elim 0 fun _ => 1) ≤
        (recvLoop f w ip n socks seq).numEnqueued ∧
      (recvLoop f w ip n socks seq).socks[k]? = some ((if w sock then findFree sock f else none).elim sock
        fun i => { sock with bufs := sock.bufs.modify i (store f ip n (seq + BitVec.ofNat 32 (m + 1))) }) := by
  induction socks generalizing seq k with
  | nil => cases h
  | cons first rest ih =>
    cases k with
    | zero =>
      obtain rfl : first = sock := Option.some_inj.mp h
      refine ⟨0, ?_⟩
      unfold recvLoop
      cases hfree : (if w first then findFree first f else none) with
      | none => exact ⟨Nat.zero_le _, rfl⟩
      | some i => exact ⟨Nat.le_add_left .., rfl⟩
    | succ k =>
      have h : rest[k]? = some sock := h
      cases hfree : (if w first then findFree first f else none) with
      | none =>
        obtain ⟨m, hm, hk⟩ := ih seq h
        refine ⟨m, ?_⟩
        unfold recvLoop
        rw [hfree]
        exact ⟨hm, hk⟩
      | some i =>
        obtain ⟨m, hm, hk⟩ := ih (seq + 1) h
        refine ⟨m + 1, ?_⟩
        have hsum : seq + 1 + BitVec.ofNat 32 (m + 1) = seq + BitVec.ofNat 32 (m + 1 + 1) := by
          rw [BitVec.ofNat_add (m + 1) 1, BitVec.add_comm (BitVec.ofNat 32 (m + 1)), ← BitVec.add_assoc]
          rfl
        rw [hsum] at hk
        unfold recvLoop
        rw [hfree]
        refine ⟨?_, hk⟩
        dsimp only
        omega

theorem recvLoop_length {w : Entry → Bool} {n : ℕ} : (recvLoop f w ip n socks seq).socks.length = socks.length := by
  induction socks generalizing seq with
  | nil => rfl
  | cons sock rest ih =>
    unfold recvLoop
    cases (if w sock then findFree sock f else none) <;> exact congrArg Nat.succ ih

theorem recvLoop_seq {w : Entry → Bool} {n : ℕ} :
    (recvLoop f w ip n socks seq).rawSeq = seq + BitVec.ofNat 32 (recvLoop f w ip n socks seq).numEnqueued := by
  induction socks generalizing seq with
  | nil => exact (BitVec.add_zero seq).symm
  | cons sock rest ih =>
    unfold recvLoop
    cases (if w sock then findFree sock f else none) with
    | none => exact ih
    | some i =>
      dsimp only
      rw [ih, BitVec.ofNat_add _ 1, BitVec.add_comm (BitVec.ofNat 32 _) (BitVec.ofNat 32 1), ← BitVec.add_assoc]
      rfl

/-- Both functions are the loop behind their tests. -/
theorem rawRecv_eq : rawRecv env f ip socks seq =
    if accepts env f ip then recvLoop f (wants f ip) ip (lengthField f ip) socks seq
    else { socks := socks, rawSeq := seq } := by
  unfold accepts
  cases f with
  | inet =>
    show sockRaw4Recv env ip socks seq = _
    unfold sockRaw4Recv wants
    by_cases hlen : lengthField .inet ip ≤ env.rxSize .inet
    · simp [hlen, not_lt.mpr hlen]
    · simp [hlen, not_le.mp hlen]
  | inet6 =>
    show sockRaw6Recv env ip socks seq = _
    unfold sockRaw6Recv wants
    by_cases hlen : lengthField .inet6 ip ≤ env.rxSize .inet6
    · cases forUs env ip <;> simp [hlen, not_lt.mpr hlen]
    · simp [hlen, not_le.mp hlen]

/-- What a packet does to socket `k`. -/
theorem rawRecv_at (env : Env) (f : Family) (ip : ℕ → Byte) (seq : Dword) (h : socks[k]? = some sock) :
    ∃ m, m + ((place env f ip sock).elim 0 fun _ => 1) ≤ (rawRecv env f ip socks seq).numEnqueued ∧
      (rawRecv env f ip socks seq).socks[k]? =
        some ((place env f ip sock).elim sock (sock.with f ip (seq + BitVec.ofNat 32 (m + 1)))) := by
  rw [rawRecv_eq]
  unfold place
  by_cases hacc : accepts env f ip = true
  · rw [if_pos hacc, if_pos hacc]
    exact recvLoop_at seq h
  · rw [if_neg hacc, if_neg hacc]
    exact ⟨0, le_rfl, h⟩

theorem rawRecv_length : (rawRecv env f ip socks seq).socks.length = socks.length := by
  rw [rawRecv_eq]
  split_ifs
  · exact recvLoop_length
  · rfl

theorem rawRecv_seq :
    (rawRecv env f ip socks seq).rawSeq = seq + BitVec.ofNat 32 (rawRecv env f ip socks seq).numEnqueued := by
  rw [rawRecv_eq]
  split_ifs
  · exact recvLoop_seq
  · exact (BitVec.add_zero seq).symm

/-! ## Reading -/

/-- A call with too short a buffer changes nothing. -/
theorem received_short (h : len < sock.hdrLen) : received sock buf len = sock := by
  unfold received pass rawReceive
  rw [if_pos h]
  rfl

/-- A call that finds nothing to hand over. -/
theorem pass_of_look_none (hlen : sock.hdrLen ≤ len) (h : look sock.toSocket buf len sock.bufs = none) :
    received sock buf len = sock ∧ ∀ r ∈ pass sock buf len, r.ret = -1 := by
  have hpass : pass sock buf len = if sock.nbio then some (fail .ewouldblock buf sock.bufs) else none := by
    unfold pass rawReceive
    rw [if_neg (not_lt.mpr hlen), rawLoop, h]
  unfold received
  rw [hpass]
  split_ifs
  · refine ⟨rfl, fun r hr => ?_⟩
    rw [← Option.some_inj.mp hr]
    rfl
  · exact ⟨rfl, by simp⟩

theorem Good.look_eq (h : Good sock (ip :: queue) bound (head :: front) back) :
    look sock.toSocket buf len sock.bufs = if sizeofHeader sock.soFamily ≤ lengthField sock.soFamily ip
      then some (deliver sock.toSocket buf len sock.bufs 0) else none := by
  have hfind : findOldest sock.bufs = some 0 := by
    rw [h.bufs, List.cons_append, findOldest_cons h.smallest, if_pos h.head_used]
  have hkeeps : Keeps sock.soFamily head ip := (List.forall₂_cons.mp h.keeps).1
  have hhead : sock.bufs.getD 0 {} = head := by rw [h.bufs]; rfl
  have hready : sock.ready head = decide (sizeofHeader sock.soFamily ≤ lengthField sock.soFamily ip) := by
    unfold Socket.ready
    rw [hkeeps.ipLen, h.lowat]
    rfl
  unfold look
  rw [hfind]
  dsimp only
  rw [hhead, hready]
  simp only [decide_eq_true_eq]

/-- A call that hands over the first packet. -/
theorem Good.pass_ready (h : Good sock (ip :: queue) bound (head :: front) back) (hlen : sock.hdrLen ≤ len)
    (hready : sizeofHeader sock.soFamily ≤ lengthField sock.soFamily ip) :
    pass sock buf len = some (deliver sock.toSocket buf len (head :: (front ++ back)) 0) ∧
      received sock buf len = { sock with bufs := { head with used := false } :: (front ++ back) } := by
  have hlook : look sock.toSocket buf len sock.bufs = _ := h.look_eq
  rw [if_pos hready] at hlook
  have hpass : pass sock buf len = some (deliver sock.toSocket buf len (head :: (front ++ back)) 0) := by
    unfold pass rawReceive
    rw [if_neg (not_lt.mpr hlen), rawLoop, hlook, h.bufs]
    rfl
  refine ⟨hpass, ?_⟩
  unfold received
  rw [hpass]
  rfl

/-- **A call** is right, and the next packet can be found behind it, exactly when it finds at most one packet. -/
theorem Good.receive_iff (h : Good sock queue bound front back) (hlen : sock.hdrLen ≤ len) :
    SelectsOldest (received sock buf len).bufs ∧ ReturnsFirst sock.soFamily len queue (pass sock buf len) ↔
      AtMostOne sock.soFamily len queue := by
  cases queue with
  | nil =>
    obtain rfl := List.forall₂_nil_right_iff.mp h.keeps
    have hlook : look sock.toSocket buf len sock.bufs = none := by
      unfold look
      rw [h.bufs, List.nil_append, findOldest_none h.free]
    obtain ⟨hsame, hret⟩ := pass_of_look_none hlen hlook
    rw [hsame]
    exact iff_of_true ⟨h.selectsOldest, hret⟩ (.inl rfl)
  | cons ip queue =>
    obtain ⟨head, front, hkeeps, hrest, rfl⟩ := List.forall₂_cons_right_iff.mp h.keeps
    have hone : AtMostOne sock.soFamily len (ip :: queue) ↔ queue = [] ∧ Readable sock.soFamily len ip := by
      unfold AtMostOne
      simp only [List.cons_ne_nil, false_or, List.cons.injEq]
      constructor
      · rintro ⟨_, ⟨rfl, rfl⟩, hr⟩
        exact ⟨rfl, hr⟩
      · rintro ⟨rfl, hr⟩
        exact ⟨ip, ⟨rfl, rfl⟩, hr⟩
    rw [hone]
    by_cases hready : sizeofHeader sock.soFamily ≤ lengthField sock.soFamily ip
    · obtain ⟨hpass, hreceived⟩ : pass sock buf len = _ ∧ received sock buf len = _ := h.pass_ready hlen hready
      rw [hpass, hreceived]
      refine and_congr ?_ ?_
      · -- the first buffer is free now, and its old number is the smallest
        have hsmall : ∀ raw ∈ front ++ back, raw.used = true →
            ({ head with used := false } : RawSlot).seqNum ≤ raw.seqNum := h.smallest
        rw [selectsOldest_cons hsmall, or_iff_right Bool.false_ne_true]
        constructor
        · intro hfree
          cases front with
          | nil => exact List.forall₂_nil_left_iff.mp hrest
          | cons next front =>
            have hused := h.front_used next (List.mem_cons_of_mem _ (List.mem_cons_self ..))
            rw [hfree next (List.mem_append_left _ (List.mem_cons_self ..))] at hused
            cases hused
        · rintro rfl
          obtain rfl := List.forall₂_nil_right_iff.mp hrest
          exact h.free
      · have hgives : Gives sock.soFamily ip len (deliver sock.toSocket buf len (head :: (front ++ back)) 0) ↔ _ :=
          gives_iff hkeeps hlen hready
        unfold ReturnsFirst Readable
        rw [and_iff_right hready, ← hgives]
        simp
    · have hlook : look sock.toSocket buf len sock.bufs = _ := h.look_eq
      rw [if_neg hready] at hlook
      obtain ⟨-, hret⟩ := pass_of_look_none hlen hlook
      refine iff_of_false ?_ fun hr => hready hr.2.1
      rintro ⟨-, r, hr, hmin, -⟩
      rw [hret r hr] at hmin
      omega

/-- A call that finds at most one packet takes it. -/
theorem Good.received (h : Good sock queue bound front back) (hlen : sock.hdrLen ≤ len)
    (hone : AtMostOne sock.soFamily len queue) :
    ∃ front back, Good (received sock buf len) queue.tail bound front back := by
  rcases hone with rfl | ⟨ip, rfl, hreadable⟩
  · obtain rfl := List.forall₂_nil_right_iff.mp h.keeps
    have hlook : look sock.toSocket buf len sock.bufs = none := by
      unfold look
      rw [h.bufs, List.nil_append, findOldest_none h.free]
    rw [(pass_of_look_none hlen hlook).1]
    exact ⟨[], back, h⟩
  · obtain ⟨head, front, hkeeps, hrest, rfl⟩ := List.forall₂_cons_right_iff.mp h.keeps
    obtain rfl := List.forall₂_nil_right_iff.mp hrest
    rw [(h.pass_ready hlen hreadable.1).2]
    refine ⟨[], { head with used := false } :: back, h.lowat, rfl, .nil, ?_, .nil, by simp⟩
    exact List.forall_mem_cons.mpr ⟨rfl, h.free⟩

/-! ## Steps -/

/-- The buffers of all sockets are good, and `raw_seq` counts what was stored. -/
structure Inv (s : State) : Prop where
  seq : s.rawSeq = BitVec.ofNat 32 s.stored
  good : ∀ k sock, s.socks[k]? = some sock → ∃ front back, Good sock (s.queue k) s.stored front back

theorem inv_fresh (h : Fresh socks) : Inv { socks := socks } where
  seq := rfl
  good k sock hk := by
    obtain ⟨hlow, hfree⟩ := h sock (List.mem_of_getElem? hk)
    exact ⟨[], sock.bufs, hlow, rfl, .nil, hfree, .nil, by simp⟩

theorem Inv.selectsOldest (h : Inv s) : ∀ sock ∈ s.socks, SelectsOldest sock.bufs := by
  intro sock hsock
  obtain ⟨k, hk⟩ := List.mem_iff_getElem?.mp hsock
  obtain ⟨front, back, hgood⟩ := h.good k sock hk
  exact hgood.selectsOldest

theorem Inv.arrive (h : Inv s) (hfew : (step env s (.arrive f ip)).stored < 2 ^ 31) :
    Inv (step env s (.arrive f ip)) where
  seq := by
    show (rawRecv env f ip s.socks s.rawSeq).rawSeq = BitVec.ofNat 32 (s.stored + _)
    rw [rawRecv_seq, h.seq, BitVec.ofNat_add]
  good k sock' hk := by
    have hk : (rawRecv env f ip s.socks s.rawSeq).socks[k]? = some sock' := hk
    have hlt : k < s.socks.length := by
      have hlen : (rawRecv env f ip s.socks s.rawSeq).socks.length = s.socks.length := rawRecv_length
      exact hlen ▸ (List.getElem?_eq_some_iff.mp hk).1
    have hsock : s.socks[k]? = some s.socks[k] := List.getElem?_eq_getElem hlt
    obtain ⟨front, back, hgood⟩ := h.good k _ hsock
    obtain ⟨m, hm, hat⟩ := rawRecv_at env f ip s.rawSeq hsock
    rw [hk, Option.some_inj] at hat
    have hfew : s.stored + (rawRecv env f ip s.socks s.rawSeq).numEnqueued < 2 ^ 31 := hfew
    show ∃ front back, Good sock' (if (s.socks[k]?.bind (place env f ip)).isSome then s.queue k ++ [ip] else s.queue k)
      (s.stored + (rawRecv env f ip s.socks s.rawSeq).numEnqueued) front back
    rw [hsock, Option.bind_some, hat]
    cases hplace : place env f ip s.socks[k] with
    | none => exact ⟨front, back, hgood.mono (Nat.le_add_right ..)⟩
    | some i =>
      rw [hplace] at hm
      simp only [Option.elim_some] at hm ⊢
      have hseq : s.rawSeq + BitVec.ofNat 32 (m + 1) = BitVec.ofNat 32 (s.stored + (m + 1)) := by
        rw [h.seq]
        exact (BitVec.ofNat_add s.stored (m + 1)).symm
      rw [hseq]
      exact hgood.arrive hplace (by omega) (by omega) (by omega)

/-- Reading touches one socket and its queue. -/
theorem step_receive (hk : s.socks[k]? = some sock) : step env s (.receive k buf len) =
    { s with
      socks := s.socks.set k (received sock buf len)
      queue := if len < sock.hdrLen then s.queue else Function.update s.queue k (s.queue k).tail } := by
  simp only [step, hk]

/-- A step on one socket. -/
theorem Inv.set (h : Inv s) (hk : s.socks[k]? = some sock) {sock' : Entry} {queue : List (ℕ → Byte)}
    (hgood : ∃ front back, Good sock' queue s.stored front back) :
    Inv { s with socks := s.socks.set k sock', queue := Function.update s.queue k queue } where
  seq := h.seq
  good j other hj := by
    have hlt := (List.getElem?_eq_some_iff.mp hk).1
    have hj : (s.socks.set k sock')[j]? = some other := hj
    show ∃ front back, Good other (Function.update s.queue k queue j) s.stored front back
    by_cases hjk : j = k
    · subst hjk
      rw [List.getElem?_set_self hlt, Option.some_inj] at hj
      rw [Function.update_self, ← hj]
      exact hgood
    · rw [List.getElem?_set_ne (Ne.symm hjk)] at hj
      rw [Function.update_of_ne hjk]
      exact h.good j other hj

theorem Inv.receive (h : Inv s) (hone : OneQueued s (.receive k buf len)) : Inv (step env s (.receive k buf len)) := by
  cases hk : s.socks[k]? with
  | none =>
    simp only [step, hk]
    exact h
  | some sock =>
    obtain ⟨front, back, hgood⟩ := h.good k sock hk
    rw [step_receive hk]
    split_ifs with hlen
    · obtain ⟨hlt, rfl⟩ := List.getElem?_eq_some_iff.mp hk
      rw [received_short hlen, List.set_getElem_self]
      exact h
    · have hlen := not_lt.mp hlen
      exact h.set hk (hgood.received hlen (hone k buf len sock rfl hk hlen))

theorem inv_step (a : Act) (h : Inv s) (hfew : (step env s a).stored < 2 ^ 31) (hone : OneQueued s a) :
    Inv (step env s a) := by
  cases a with
  | arrive f ip => exact h.arrive hfew
  | receive k buf len => exact h.receive hone

/-- One step obeys the law exactly when it meets the condition. -/
theorem lawful_iff (a : Act) (h : Inv s) (hfew : (step env s a).stored < 2 ^ 31) :
    Lawful env s a ↔ OneQueued s a := by
  constructor
  · rintro hlaw k buf len sock rfl hk hlen
    obtain ⟨front, back, hgood⟩ := h.good k sock hk
    have hiff : SelectsOldest (received sock buf len).bufs ∧ _ ↔ _ := hgood.receive_iff hlen
    refine hiff.mp ⟨hlaw.oldest _ ?_, hlaw.first k buf len sock rfl hk hlen⟩
    rw [step_receive hk]
    exact List.mem_set (List.getElem?_eq_some_iff.mp hk).1 _
  · intro hone
    refine ⟨(inv_step a h hfew hone).selectsOldest, ?_⟩
    rintro k buf len sock rfl hk hlen
    obtain ⟨front, back, hgood⟩ := h.good k sock hk
    exact ((hgood.receive_iff hlen).mpr (hone k buf len sock rfl hk hlen)).2

/-! ## Runs -/

/-- A raw socket for UDP with two buffers. -/
def udpReader : Entry := { soFamily := .inet, soType := .raw, soProto := 17, bufs := [{}, {}] }

end Watt32.RawSock
