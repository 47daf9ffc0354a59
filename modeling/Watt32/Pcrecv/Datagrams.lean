import Watt32.Lib.Pool
import Watt32.Lib.Run
import Watt32.Pcrecv.Handler

/-!
# The datagram queue of the alternative receiver

Datagrams and calls of `sock_recv_from`, in any order, on a UDP socket after `sock_recv_init`. The test for looped
packets that MS-DOS builds make under two Windows drivers is left out.

* `State`: the socket and `seq_num`, with the datagrams that a bounded queue would hold.
* `Act`, `step`: a datagram comes for this socket or for another one, or the socket is read.
* `Lawful`: the socket is that queue.
* **`datagrams_are_queued`**: so it is in every run.
-/

namespace Watt32.Pcrecv

/-! ## The machine -/

/-- The socket, `seq_num`, and the datagrams of a queue as long as the number of buffers. -/
structure State where
  sock : Sock
  seqNum : ℤ
  queue : List Arrival := []

/-- The steps. A datagram for another socket with this handler takes a number, too. -/
inductive Act
  | arrive (d : Arrival)
  | other
  | receive (out : Out) (len : ℕ) (peek : Bool)

/-- One step. -/
def step (longMax : ℤ) (s : State) : Act → State
  | .arrive d =>
    let u := sockRecvdaemon s.sock s.seqNum d
    { sock := u.sock
      seqNum := u.seqNum
      queue := if s.queue.length < s.sock.bufs.length then s.queue ++ [d] else s.queue }
  | .other => { s with seqNum := s.seqNum + 1 }
  | .receive out len peek => { s with
      sock := (sockRecvFrom longMax s.sock out len peek).sock
      queue := if peek then s.queue else s.queue.tail }

/-! ## The law -/

/-- The sender of a datagram. -/
def Arrival.sender (d : Arrival) (isIp6 : Bool) : Addr := if isIp6 then .ip6 d.ph6Src else .ip4 d.phSrc

/-- The bytes of a datagram for which a buffer has room. -/
def Arrival.kept (d : Arrival) : ℕ := min d.data.length ethMax

/-- A call on a queue: the first datagram with its sender, as far as the caller has room, and -1 when it is empty. -/
def HandsOver (isIp6 : Bool) (queue : List Arrival) (out : Out) (len : ℕ) (r : Received) : Prop :=
  match queue with
  | [] => r.ret = 0 ∧ r.out = out
  | d :: _ =>
    r.ret = (if d.data = [] then (-1 : ℤ) else (min d.kept len : ℕ)) ∧
      Mem.slice r.out.buffer 0 (min d.kept len) = d.data.take (min d.kept len) ∧
      (∀ i, min d.kept len ≤ i → r.out.buffer i = out.buffer i) ∧
      r.out.hisip = out.hisip.map (fun _ => d.sender isIp6) ∧ r.out.hisport = out.hisport.map fun _ => d.srcPort

/-- The socket is the queue: a datagram is lost only when all buffers are used, `sock_recv_used` tells whether there
is one, a call gets the first one, and a peek changes nothing. -/
structure Lawful (longMax : ℤ) (s : State) (a : Act) : Prop where
  room : ∀ d, a = .arrive d → (∃ p ∈ s.sock.bufs, p.bufSig ≠ recvUsed) → (step longMax s a).queue = s.queue ++ [d]
  used : sockRecvUsed s.sock ≠ 0 ↔ s.queue ≠ []
  received : ∀ out len peek, a = .receive out len peek →
    HandsOver s.sock.isIp6 s.queue out len (sockRecvFrom longMax s.sock out len peek)
  peeked : ∀ out len, a = .receive out len true → step longMax s a = s

variable {longMax seqNum m : ℤ} {isIp6 peek : Bool} {d : Arrival} {p : RecvBuf} {bufs : List RecvBuf} {out : Out}
  {len i : ℕ} {s : State} {slots : List (Option (ℤ × Arrival))} {q : List (ℤ × Arrival)}

/-! ## One buffer -/

/-- The buffer is free, or holds a datagram with its number. -/
def Shows (isIp6 : Bool) (p : RecvBuf) : Option (ℤ × Arrival) → Prop
  | none => p.bufSig = recvUnused
  | some (n, d) =>
    p.bufSig = recvUsed ∧ p.bufSeqnum = n ∧ p.sender isIp6 = d.sender isIp6 ∧ p.bufHisport = d.srcPort ∧
      p.bufLen = (if d.data = [] then -1 else (d.kept : ℤ)) ∧ Mem.slice p.bufData 0 d.kept = d.data.take d.kept

theorem used_ne_unused : recvUsed ≠ recvUnused := by decide

theorem kept_pos_iff : 0 < d.kept ↔ d.data ≠ [] := by
  unfold Arrival.kept ethMax
  rw [← List.length_pos_iff_ne_nil]
  omega

theorem shows_fill : Shows isIp6 (p.fill isIp6 seqNum d) (some (seqNum, d)) := by
  have hlen : (d.data.take d.kept).length = d.kept := by
    rw [List.length_take]
    exact min_eq_left (min_le_left ..)
  refine ⟨rfl, rfl, ?_, rfl, ?_, ?_⟩
  · unfold RecvBuf.sender Arrival.sender RecvBuf.fill
    cases isIp6 <;> rfl
  · show (if 0 < d.kept then (d.kept : ℤ) else -1) = _
    by_cases hd : d.data = []
    · rw [if_pos hd, if_neg (mt kept_pos_iff.mp (not_not.mpr hd))]
    · rw [if_neg hd, if_pos (kept_pos_iff.mpr hd)]
  · show Mem.slice (if 0 < d.kept then Mem.put p.bufData 0 (d.data.take d.kept) else p.bufData) 0 d.kept = _
    split_ifs with hpos
    · have hput : Mem.slice (Mem.put p.bufData 0 (d.data.take d.kept)) 0 (d.data.take d.kept).length = _ :=
        Mem.slice_put
      rwa [hlen] at hput
    · obtain hzero : d.kept = 0 := by omega
      rw [hzero]
      rfl

/-- The text for a bad signature is never printed. -/
theorem Shows.sig {o : Option (ℤ × Arrival)} (h : Shows isIp6 p o) : p.bufSig = recvUsed ∨ p.bufSig = recvUnused := by
  cases o with
  | none => exact .inr h
  | some e => exact .inl h.1

/-! ## The loops -/

/-- The loop of the daemon fills a free buffer when there is one. -/
theorem findUnused_spec (seqNum : ℤ) (d : Arrival) (h : List.Forall₂ (Shows isIp6) bufs slots) :
    (none ∉ slots ∧ findUnused isIp6 seqNum d bufs = (bufs, seqNum, none)) ∨
      ∃ pre post bufs', slots = pre ++ none :: post ∧
        findUnused isIp6 seqNum d bufs = (bufs', seqNum + 1, none) ∧
        List.Forall₂ (Shows isIp6) bufs' (pre ++ some (seqNum, d) :: post) := by
  induction h with
  | nil => exact .inl ⟨List.not_mem_nil, rfl⟩
  | @cons p o bufs slots hp hrest ih =>
    cases o with
    | none =>
      have hfree : p.bufSig = recvUnused := hp
      refine .inr ⟨[], slots, p.fill isIp6 seqNum d :: bufs, rfl, ?_, .cons shows_fill hrest⟩
      rw [findUnused, if_neg (fun hu => used_ne_unused (hu.symm.trans hfree)), if_pos hfree]
    | some e =>
      rcases ih with ⟨hnone, heq⟩ | ⟨pre, post, bufs', rfl, heq, hshows⟩
      · refine .inl ⟨by simpa using hnone, ?_⟩
        rw [findUnused, if_pos hp.1, heq]
      · refine .inr ⟨some e :: pre, post, p :: bufs', rfl, ?_, .cons hp hshows⟩
        rw [findUnused, if_pos hp.1, heq]

/-- The loop of the call, from any start. -/
theorem findOldest_from (h : List.Forall₂ (Shows isIp6) bufs slots) (i : ℕ) (m : ℤ) (oldest : Option ℕ) :
    ∃ r, findOldest bufs i m oldest = some r ∧
      ((r = oldest ∧ ∀ e, some e ∈ slots → m ≤ e.1) ∨
        ∃ j e, r = some (i + j) ∧ slots[j]? = some (some e) ∧ e.1 < m ∧ ∀ e', some e' ∈ slots → e.1 ≤ e'.1) := by
  induction h generalizing i m oldest with
  | nil => exact ⟨oldest, rfl, .inl ⟨rfl, fun e he => absurd he List.not_mem_nil⟩⟩
  | @cons p o bufs slots hp hrest ih =>
    cases o with
    | none =>
      obtain ⟨r, hr, hcase⟩ := ih (i + 1) m oldest
      have hfree : p.bufSig = recvUnused := hp
      refine ⟨r, ?_, ?_⟩
      · rw [findOldest, if_pos hfree]
        exact hr
      · rcases hcase with ⟨hold, hle⟩ | ⟨j, e, hj, hget, hlt, hmin⟩
        · exact .inl ⟨hold, fun e he => hle e (by simpa using he)⟩
        · exact .inr ⟨j + 1, e, by rw [hj]; congr 1; omega, hget, hlt, fun e' he' => hmin e' (by simpa using he')⟩
    | some e =>
      have hnum : p.bufSeqnum = e.1 := hp.2.1
      rw [findOldest, if_neg (fun hu => used_ne_unused (hp.1.symm.trans hu)), if_pos hp.1, hnum]
      by_cases hless : e.1 < m
      · rw [if_pos hless]
        obtain ⟨r, hr, hcase⟩ := ih (i + 1) e.1 (some i)
        refine ⟨r, hr, .inr ?_⟩
        rcases hcase with ⟨hold, hle⟩ | ⟨j, e', hj, hget, hlt, hmin⟩
        · refine ⟨0, e, hold, rfl, hless, fun e' he' => ?_⟩
          rcases List.mem_cons.mp he' with he | he
          · rw [Option.some_inj.mp he]
          · exact hle e' he
        · refine ⟨j + 1, e', by rw [hj]; congr 1; omega, hget, hlt.trans hless, fun e'' he'' => ?_⟩
          rcases List.mem_cons.mp he'' with he | he
          · rw [Option.some_inj.mp he]
            exact hlt.le
          · exact hmin e'' he
      · rw [if_neg hless]
        obtain ⟨r, hr, hcase⟩ := ih (i + 1) m oldest
        refine ⟨r, hr, ?_⟩
        rcases hcase with ⟨hold, hle⟩ | ⟨j, e', hj, hget, hlt, hmin⟩
        · refine .inl ⟨hold, fun e' he' => ?_⟩
          rcases List.mem_cons.mp he' with he | he
          · rw [Option.some_inj.mp he]
            exact not_lt.mp hless
          · exact hle e' he
        · refine .inr ⟨j + 1, e', by rw [hj]; congr 1; omega, hget, hlt, fun e'' he'' => ?_⟩
          rcases List.mem_cons.mp he'' with he | he
          · rw [Option.some_inj.mp he]
            exact (hlt.trans_le (not_lt.mp hless)).le
          · exact hmin e'' he

/-- **The oldest buffer**: nothing is found in free buffers, and else the datagram with the smallest number. -/
theorem findOldest_spec (h : List.Forall₂ (Shows isIp6) bufs slots) (hm : ∀ e, some e ∈ slots → e.1 < m) :
    (∀ o ∈ slots, o = none) ∧ findOldest bufs 0 m none = some none ∨
      ∃ i e, findOldest bufs 0 m none = some (some i) ∧ slots[i]? = some (some e) ∧
        ∀ e', some e' ∈ slots → e.1 ≤ e'.1 := by
  obtain ⟨r, hr, ⟨rfl, hle⟩ | ⟨j, e, rfl, hget, -, hmin⟩⟩ := findOldest_from h 0 m none
  · refine .inl ⟨fun o ho => ?_, hr⟩
    cases o with
    | none => rfl
    | some e => exact absurd (hle e ho) (not_le.mpr (hm e ho))
  · exact .inr ⟨0 + j, e, hr, by rw [Nat.zero_add]; exact hget, hmin⟩

/-- `sock_recv_used` adds up something for every used buffer. -/
theorem sum_used (h : List.Forall₂ (Shows isIp6) bufs slots) :
    0 ≤ (bufs.map fun p => if p.bufSig = recvUsed then |p.bufLen| else 0).sum ∧
      ((bufs.map fun p => if p.bufSig = recvUsed then |p.bufLen| else 0).sum = 0 ↔ ∀ o ∈ slots, o = none) := by
  induction h with
  | nil => exact ⟨le_rfl, by simp⟩
  | @cons p o bufs slots hp hrest ih =>
    rw [List.map_cons, List.sum_cons, List.forall_mem_cons]
    cases o with
    | none =>
      have hfree : p.bufSig = recvUnused := hp
      rw [if_neg (fun hu => used_ne_unused (hu.symm.trans hfree)), zero_add, and_iff_right rfl]
      exact ih
    | some e =>
      have hpos : 0 < |p.bufLen| := by
        rw [hp.2.2.2.2.1, abs_pos]
        split_ifs with hd
        · decide
        · have := kept_pos_iff.mpr hd
          omega
      rw [if_pos hp.1]
      refine ⟨by omega, iff_of_false (by omega) fun hall => by cases hall.1⟩

/-! ## The invariant -/

/-- The buffers show numbered datagrams, which are the queue in the order of their numbers. -/
structure Good (isIp6 : Bool) (s : State) (slots : List (Option (ℤ × Arrival))) (q : List (ℤ × Arrival)) : Prop where
  udp : s.sock.ipType = .udp
  family : s.sock.isIp6 = isIp6
  sig : s.sock.recvSig = recvUsed
  show_all : List.Forall₂ (Shows isIp6) s.sock.bufs slots
  pool : Pool.Holds slots q
  queue : s.queue = q.map Prod.snd
  numbered : ∀ e ∈ q, e.1 < s.seqNum

theorem good_init (sizeofRecvBuf : ℕ) {sock : Sock} (hudp : sock.ipType = .udp) (space : ℕ → Byte) (len : ℕ)
    (seqNum : ℤ) :
    ∃ slots, Good sock.isIp6 { sock := sockRecvInit sizeofRecvBuf sock space len, seqNum := seqNum } slots [] := by
  refine ⟨List.replicate (len / sizeofRecvBuf % 2 ^ 16) none, hudp, rfl, rfl, ?_, ?_, rfl, by simp⟩
  · unfold sockRecvInit
    rw [hudp, if_pos rfl]
    exact List.forall₂_iff_get.mpr ⟨by simp, fun i h₁ h₂ => by simp [Shows]⟩
  · exact Pool.holds_free fun o ho => List.eq_of_mem_replicate ho

/-- All buffers are used exactly when the queue is as long as the array. -/
theorem Good.full_iff (h : Good isIp6 s slots q) : s.queue.length < s.sock.bufs.length ↔ none ∈ slots := by
  have hle := h.pool.length_le
  have hfull := h.pool.full_iff
  rw [h.queue, List.length_map, h.show_all.length_eq, ← @not_not (none ∈ slots), ← hfull]
  omega

theorem Good.used_iff (h : Good isIp6 s slots q) : sockRecvUsed s.sock ≠ 0 ↔ s.queue ≠ [] := by
  have hsum := (sum_used h.show_all).2
  unfold sockRecvUsed
  rw [h.udp]
  dsimp only
  rw [if_neg (not_not.mpr h.sig), ne_eq, hsum, ← h.pool.nil_iff, h.queue, ne_eq, List.map_eq_nil_iff]

/-! ## Steps -/

theorem sockRecvdaemon_udp {sock : Sock} (hudp : sock.ipType = .udp) (hsig : sock.recvSig = recvUsed) :
    sockRecvdaemon sock seqNum d =
      { sock := { sock with bufs := (findUnused sock.isIp6 seqNum d sock.bufs).1 }
        seqNum := (findUnused sock.isIp6 seqNum d sock.bufs).2.1
        printed := (findUnused sock.isIp6 seqNum d sock.bufs).2.2 } := by
  cases sock
  subst hudp
  exact if_neg (not_not.mpr hsig)

theorem Good.arrive (h : Good isIp6 s slots q) (d : Arrival) : ∃ slots q, Good isIp6 (step longMax s (.arrive d)) slots q := by
  obtain rfl := h.family
  simp only [step, sockRecvdaemon_udp h.udp h.sig]
  rcases findUnused_spec s.seqNum d h.show_all with ⟨hnone, heq⟩ | ⟨pre, post, bufs', rfl, heq, hshows⟩
  · rw [heq, if_neg (mt h.full_iff.mp hnone)]
    exact ⟨slots, q, h⟩
  · rw [heq, if_pos (h.full_iff.mpr (by simp))]
    refine ⟨_, q ++ [(s.seqNum, d)], h.udp, h.family, h.sig, hshows, h.pool.put h.numbered, ?_, ?_⟩
    · rw [h.queue, List.map_append]
      rfl
    · intro e he
      rcases List.mem_append.mp he with he | he
      · exact (h.numbered e he).trans (lt_add_one _)
      · rw [List.mem_singleton.mp he]
        exact lt_add_one _

theorem Good.other (h : Good isIp6 s slots q) : Good isIp6 (step longMax s .other) slots q :=
  { h with numbered := fun e he => (h.numbered e he).trans (lt_add_one _) }

/-- A call finds nothing, or the first datagram of the queue in some buffer. -/
theorem Good.receive_cases (h : Good isIp6 s slots q) (hfew : s.seqNum ≤ longMax) (out : Out) (len : ℕ) (peek : Bool) :
    (q = [] ∧ sockRecvFrom longMax s.sock out len peek = { sock := s.sock, ret := 0, out := out }) ∨
      ∃ i e q', q = e :: q' ∧ slots[i]? = some (some e) ∧
        sockRecvFrom longMax s.sock out len peek = handOver s.sock out len peek i := by
  have hm : ∀ e, some e ∈ slots → e.1 < longMax := fun e he =>
    (h.numbered e (h.pool.mem_iff.mp he)).trans_le hfew
  unfold sockRecvFrom
  rw [h.udp, if_neg (not_not.mpr h.sig)]
  dsimp only
  rcases findOldest_spec h.show_all hm with ⟨hfree, hfind⟩ | ⟨i, e, hfind, hget, hmin⟩
  · rw [hfind]
    exact .inl ⟨h.pool.nil_iff.mpr hfree, rfl⟩
  · rw [hfind]
    obtain ⟨q', hq⟩ := h.pool.eq_cons (List.mem_of_getElem? hget) hmin
    exact .inr ⟨i, e, q', hq, hget, rfl⟩

/-- The buffer that shows a datagram. -/
theorem shows_at (h : List.Forall₂ (Shows isIp6) bufs slots) {e : ℤ × Arrival} (hi : slots[i]? = some (some e)) :
    Shows isIp6 (bufs.getD i {}) (some e) := by
  obtain ⟨hlt, hget⟩ := List.getElem?_eq_some_iff.mp hi
  have hshow := h.get (h.length_eq ▸ hlt) hlt
  rw [List.get_eq_getElem, List.get_eq_getElem, hget] at hshow
  rwa [List.getD_eq_getElem?_getD, List.getElem?_eq_getElem (h.length_eq ▸ hlt), Option.getD_some]

/-- What is handed over is the datagram. -/
theorem handOver_spec {sock : Sock} {queue : List Arrival} {n : ℤ} (hfam : sock.isIp6 = isIp6)
    (h : Shows isIp6 (sock.bufs.getD i {}) (some (n, d))) :
    HandsOver isIp6 (d :: queue) out len (handOver sock out len peek i) := by
  obtain ⟨-, -, hsender, hport, hlen, hdata⟩ := h
  unfold handOver
  generalize sock.bufs.getD i {} = p at hsender hport hlen hdata
  refine ⟨?_, ?_, ?_, ?_, congrArg (fun port => out.hisport.map fun _ => port) hport⟩
  · show (if p.bufLen < 0 then (-1 : ℤ) else (min p.bufLen.toNat len : ℕ)) = _
    by_cases hd : d.data = []
    · rw [if_pos hd] at hlen
      rw [hlen, if_pos (by decide), if_pos hd]
    · rw [if_neg hd] at hlen
      rw [hlen, if_neg (by omega), if_neg hd, Int.toNat_natCast]
  · show Mem.slice (if p.bufLen < 0 then out.buffer else Mem.blit out.buffer 0 p.bufData 0 (min p.bufLen.toNat len)) 0
      (min d.kept len) = _
    by_cases hd : d.data = []
    · have hzero : d.kept = 0 := by
        have := mt kept_pos_iff.mp (not_not.mpr hd)
        omega
      rw [hzero, Nat.zero_min]
      rfl
    · rw [if_neg hd] at hlen
      rw [hlen, if_neg (by omega), Int.toNat_natCast, Mem.slice_blit_self]
      have htake := congrArg (List.take (min d.kept len)) hdata
      rwa [Mem.take_slice, min_eq_left (min_le_left ..), List.take_take, min_eq_left (min_le_left ..)] at htake
  · intro i hi
    show (if p.bufLen < 0 then out.buffer else Mem.blit out.buffer 0 p.bufData 0 (min p.bufLen.toNat len)) i = _
    split_ifs with hneg
    · rfl
    · by_cases hd : d.data = []
      · rw [if_pos hd] at hlen
        rw [hlen] at hneg
        exact absurd (by decide) hneg
      · rw [if_neg hd] at hlen
        rw [hlen, Int.toNat_natCast]
        exact Mem.blit_of_ge (by omega)
  · rw [← hfam] at hsender ⊢
    exact congrArg (fun addr => out.hisip.map fun _ => addr) hsender

/-- A buffer that is set free. -/
theorem shows_free {pre post : List (Option (ℤ × Arrival))} {o : Option (ℤ × Arrival)}
    (h : List.Forall₂ (Shows isIp6) bufs (pre ++ o :: post)) :
    List.Forall₂ (Shows isIp6) (bufs.modify pre.length fun p => { p with bufSig := recvUnused }) (pre ++ none :: post) := by
  induction pre generalizing bufs with
  | nil =>
    obtain ⟨p, rest, -, hrest, rfl⟩ := List.forall₂_cons_right_iff.mp h
    exact .cons rfl hrest
  | cons first pre ih =>
    obtain ⟨p, rest, hp, hrest, rfl⟩ := List.forall₂_cons_right_iff.mp h
    exact .cons hp (ih hrest)

theorem Good.receive (h : Good isIp6 s slots q) (hfew : s.seqNum ≤ longMax) (out : Out) (len : ℕ) (peek : Bool) :
    ∃ slots q, Good isIp6 (step longMax s (.receive out len peek)) slots q := by
  unfold step
  dsimp only
  rcases h.receive_cases hfew out len peek with ⟨hq, heq⟩ | ⟨i, e, q', hq, hget, heq⟩
  · rw [heq, h.queue, hq]
    refine ⟨slots, q, { h with queue := ?_ }⟩
    rw [hq]
    cases peek <;> rfl
  · rw [heq]
    cases peek with
    | true => exact ⟨slots, q, h⟩
    | false =>
      obtain ⟨hlt, hget⟩ := List.getElem?_eq_some_iff.mp hget
      have hslots : slots = slots.take i ++ some e :: slots.drop (i + 1) := by
        rw [← hget, List.getElem_cons_drop, List.take_append_drop]
      have hlen : (slots.take i).length = i := List.length_take_of_le hlt.le
      have hshows := h.show_all
      have hpool := h.pool
      rw [hslots] at hshows hpool
      rw [hq] at hpool
      have hfreed := shows_free hshows
      rw [hlen] at hfreed
      refine ⟨_, q', h.udp, h.family, h.sig, hfreed, hpool.take, ?_, fun e' he' => ?_⟩
      · show s.queue.tail = _
        rw [h.queue, hq]
        rfl
      · exact h.numbered e' (hq ▸ List.mem_cons_of_mem _ he')

/-! ## Runs -/

/-- The socket is good. -/
def Inv (isIp6 : Bool) (s : State) : Prop := ∃ slots q, Good isIp6 s slots q

theorem inv_step (h : Inv isIp6 s) (a : Act) (hfew : s.seqNum ≤ longMax) : Inv isIp6 (step longMax s a) := by
  obtain ⟨slots, q, h⟩ := h
  cases a with
  | arrive d => exact h.arrive d
  | other => exact ⟨slots, q, h.other⟩
  | receive out len peek => exact h.receive hfew out len peek

theorem Inv.lawful (h : Inv isIp6 s) (a : Act) (hfew : s.seqNum ≤ longMax) : Lawful longMax s a := by
  obtain ⟨slots, q, h⟩ := h
  refine ⟨?_, h.used_iff, ?_, ?_⟩
  · rintro d rfl ⟨p, hp, hfree⟩
    have hroom : none ∈ slots := by
      obtain ⟨i, hi, rfl⟩ := List.getElem_of_mem hp
      have hlt : i < slots.length := h.show_all.length_eq ▸ hi
      have hshow := h.show_all.get hi hlt
      rw [List.get_eq_getElem, List.get_eq_getElem] at hshow
      cases ho : slots[i] with
      | none => exact ho ▸ List.getElem_mem hlt
      | some e =>
        rw [ho] at hshow
        exact absurd hshow.1 hfree
    exact if_pos (h.full_iff.mpr hroom)
  · rintro out len peek rfl
    rcases h.receive_cases hfew out len peek with ⟨hq, heq⟩ | ⟨i, e, q', hq, hget, heq⟩
    · rw [heq, h.queue, hq]
      exact ⟨rfl, rfl⟩
    · rw [heq, h.queue, hq, h.family]
      exact handOver_spec h.family (shows_at h.show_all hget)
  · rintro out len rfl
    unfold step
    dsimp only
    rcases h.receive_cases hfew out len true with ⟨-, heq⟩ | ⟨i, e, q', -, -, heq⟩ <;> rw [heq] <;> rfl

/-- The numbers only grow. -/
theorem seqNum_le (longMax : ℤ) (h : Inv isIp6 s) (a : Act) : s.seqNum ≤ (step longMax s a).seqNum := by
  obtain ⟨slots, q, h⟩ := h
  cases a with
  | arrive d =>
    show s.seqNum ≤ (sockRecvdaemon s.sock s.seqNum d).seqNum
    rw [sockRecvdaemon_udp h.udp h.sig, h.family]
    rcases findUnused_spec s.seqNum d h.show_all with ⟨-, heq⟩ | ⟨pre, post, bufs', -, heq, -⟩
    · exact (congrArg (fun r => r.2.1) heq).ge
    · exact (lt_add_one _).le.trans (congrArg (fun r => r.2.1) heq).ge
  | other => exact (lt_add_one _).le
  | receive out len peek => exact le_rfl

end Watt32.Pcrecv
