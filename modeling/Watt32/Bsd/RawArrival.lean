import Watt32.Bsd.Raw

/-!
# Raw packets come in

`sock_raw4_recv` and `sock_raw6_recv` of `socket.c`: a packet is stored for the SOCK_RAW sockets.

* `Entry`: a socket on `sk_list`; `recvLoop`: the loop over them; `sockRaw4Recv`, `sockRaw6Recv`.
* `Takes`: the socket wants the packet and has a free buffer; `Gets`: it has one copy more.
* `Delivered`: each socket that takes the packet gets it, and only the packet is read.
* **`raw_arrival_iff`**: when this is so.
-/

namespace Watt32.RawSock

open Tcp (readWord)

/-! ## The source -/

/-- `so_type`. -/
inductive SoType
  | stream | dgram | raw | packet
  deriving DecidableEq, Repr

/-- A `Socket` on `sk_list`. Its buffers hang on `raw_sock` or on `raw6_sock`, and the other pointer is NULL. -/
structure Entry extends Socket where
  soType : SoType
  soProto : ℤ
  bufs : List RawSlot

/-- `raw_sock` or `raw6_sock`. -/
def Entry.list (sock : Entry) (f : Family) : List RawSlot := if sock.soFamily = f then sock.bufs else []

/-- `find_free_raw_sock` and `find_free_raw6_sock`: the place of the buffer. -/
def findFree (sock : Entry) (f : Family) : Option ℕ := (sock.list f).findIdx? fun raw => !raw.used

/-- `ip->proto` or `ip->next_hdr`. -/
def proto (f : Family) (ip : ℕ → Byte) : ℤ := (ip (if f = .inet6 then 6 else 9)).toNat

/-- `sizeof(*ip)`. -/
def sizeofHeader (f : Family) : ℕ := if f = .inet6 then 40 else 20

/-- `ntohs (ip->length)` or `ntohs (ip->len)`. -/
def lengthField (f : Family) (ip : ℕ → Byte) : ℕ := (readWord ip (if f = .inet6 then 4 else 2)).toNat

/-- The tests that `sock_raw4_recv` makes of a socket. -/
def wants4 (ip : ℕ → Byte) (sock : Entry) : Bool :=
  if sock.soType ≠ .raw then false
  else if sock.soProto = 0 then true
  else proto .inet ip = sock.soProto

/-- The tests that `sock_raw6_recv` makes. -/
def wants6 (ip : ℕ → Byte) (sock : Entry) : Bool :=
  if proto .inet6 ip = 6 ∧ sock.soType = .stream then false
  else if proto .inet6 ip = 17 ∧ sock.soType = .dgram then false
  else if sock.soType ≠ .raw ∨ (proto .inet6 ip ≠ sock.soProto ∧ sock.soProto ≠ 0) then false
  else true

/-- The copies into a buffer, `n` bytes from behind the header, with `seq` for the number. -/
def store (f : Family) (ip : ℕ → Byte) (n : ℕ) (seq : Dword) (raw : RawSlot) : RawSlot where
  used := true
  seqNum := seq
  ip := Mem.blit raw.ip 0 ip 0 (sizeofHeader f)
  rxData := Mem.blit raw.rxData 0 ip (sizeofHeader f) n

/-- What the functions leave: the sockets, `raw_seq`, the ranges of the packet that were copied, the result. -/
structure Outcome where
  socks : List Entry
  rawSeq : Dword
  copied : List (ℕ × ℕ) := []
  numEnqueued : ℕ := 0

/-- The loop over `sk_list`. -/
def recvLoop (f : Family) (wants : Entry → Bool) (ip : ℕ → Byte) (n : ℕ) : List Entry → Dword → Outcome
  | [], rawSeq => { socks := [], rawSeq := rawSeq }
  | sock :: rest, rawSeq =>
    match (if wants sock then findFree sock f else none) with
    | none =>
      let r := recvLoop f wants ip n rest rawSeq
      { r with socks := sock :: r.socks }
    | some i =>
      let r := recvLoop f wants ip n rest (rawSeq + 1)
      { socks := { sock with bufs := sock.bufs.modify i (store f ip n (rawSeq + 1)) } :: r.socks
        rawSeq := r.rawSeq
        copied := (0, sizeofHeader f) :: (sizeofHeader f, n) :: r.copied
        numEnqueued := r.numEnqueued + 1 }

/-- `MAX_FRAG_SIZE` of the build, and `in6addr_my_ip`. -/
structure Env where
  maxFragSize : ℕ
  in6addrMyIp : List Byte

/-- `sizeof(rx_data)`. -/
def Env.rxSize (env : Env) (f : Family) : ℕ := if f = .inet6 then 1460 else env.maxFragSize

/-- `sock_raw4_recv`. -/
def sockRaw4Recv (env : Env) (ip : ℕ → Byte) (socks : List Entry) (rawSeq : Dword) : Outcome :=
  let len := lengthField .inet ip
  if env.rxSize .inet < len then { socks := socks, rawSeq := rawSeq }
  else recvLoop .inet (wants4 ip) ip (min len (env.rxSize .inet)) socks rawSeq

/-- The destination is `in6addr_my_ip` or `IN6_IS_ADDR_MULTICAST`. -/
def forUs (env : Env) (ip : ℕ → Byte) : Bool := Mem.slice ip 24 16 = env.in6addrMyIp ∨ ip 24 = 0xFF

/-- `sock_raw6_recv`. -/
def sockRaw6Recv (env : Env) (ip : ℕ → Byte) (socks : List Entry) (rawSeq : Dword) : Outcome :=
  let len := lengthField .inet6 ip
  if env.rxSize .inet6 < len then { socks := socks, rawSeq := rawSeq }
  else if !forUs env ip then { socks := socks, rawSeq := rawSeq }
  else recvLoop .inet6 (wants6 ip) ip (min len (env.rxSize .inet6)) socks rawSeq

/-- The function that the IP handler of the family calls. -/
def rawRecv (env : Env) : Family → (ℕ → Byte) → List Entry → Dword → Outcome
  | .inet => sockRaw4Recv env
  | .inet6 => sockRaw6Recv env

/-! ## The law -/

/-- The bytes behind the header: an IPv4 length counts the header. -/
def payload (f : Family) (ip : ℕ → Byte) : ℕ := if f = .inet6 then lengthField f ip else lengthField f ip - 20

/-- The bytes of the packet. -/
def totalLength (f : Family) (ip : ℕ → Byte) : ℕ := if f = .inet6 then 40 + lengthField f ip else lengthField f ip

/-- The protocol of the raw socket matches, and it has a free buffer for the family. -/
def Takes (f : Family) (ip : ℕ → Byte) (sock : Entry) : Prop :=
  sock.soType = .raw ∧ (sock.soProto = 0 ∨ proto f ip = sock.soProto) ∧ ∃ raw ∈ sock.list f, raw.used = false

/-- One buffer that was free holds the packet, and nothing else is changed. -/
def Gets (f : Family) (ip : ℕ → Byte) (sock sock' : Entry) : Prop :=
  ∃ pre raw raw' post, sock.bufs = pre ++ raw :: post ∧ raw.used = false ∧
    sock' = { sock with bufs := pre ++ raw' :: post } ∧ raw'.used = true ∧
    Mem.slice raw'.ip 0 (sizeofHeader f) = Mem.slice ip 0 (sizeofHeader f) ∧
    Mem.slice raw'.rxData 0 (payload f ip) = Mem.slice ip (sizeofHeader f) (payload f ip)

open Classical in
/-- What one socket sees of the packet. -/
def Sees (f : Family) (ip : ℕ → Byte) (sock sock' : Entry) : Prop :=
  if Takes f ip sock then Gets f ip sock sock' else sock' = sock

/-- Only the packet is read; when it fits the buffers, every socket sees it, and else none does. -/
structure Delivered (env : Env) (f : Family) (ip : ℕ → Byte) (socks : List Entry) (r : Outcome) : Prop where
  inside : ∀ c ∈ r.copied, c.1 + c.2 ≤ totalLength f ip
  fits : payload f ip ≤ env.rxSize f → List.Forall₂ (Sees f ip) socks r.socks
  long : env.rxSize f < payload f ip → r.socks = socks

/-- Nobody takes the packet, it does not fit, or it is an IPv6 packet to this host or to a group. -/
def Handled (env : Env) (f : Family) (ip : ℕ → Byte) (socks : List Entry) : Prop :=
  (∀ sock ∈ socks, ¬ Takes f ip sock) ∨ env.rxSize f < payload f ip ∨ (f = .inet6 ∧ forUs env ip = true)

variable {env : Env} {f : Family} {ip : ℕ → Byte} {sock sock' : Entry} {socks : List Entry} {seq : Dword} {n : ℕ}
  {wants : Entry → Bool}

/-! ## One socket -/

theorem wants4_iff : wants4 ip sock = true ↔ sock.soType = .raw ∧ (sock.soProto = 0 ∨ proto .inet ip = sock.soProto) := by
  unfold wants4
  split_ifs with h₁ h₂ <;> simp_all

theorem wants6_iff : wants6 ip sock = true ↔ sock.soType = .raw ∧ (sock.soProto = 0 ∨ proto .inet6 ip = sock.soProto) := by
  unfold wants6
  split_ifs with h₁ h₂ h₃
  · exact iff_of_false not_false fun h => by rw [h₁.2] at h; cases h.1
  · exact iff_of_false not_false fun h => by rw [h₂.2] at h; cases h.1
  · exact iff_of_false not_false (by tauto)
  · exact iff_of_true rfl (by tauto)

/-- The tests of the loop are those of the family. -/
def Asks (f : Family) (ip : ℕ → Byte) (wants : Entry → Bool) : Prop :=
  ∀ sock, wants sock = true ↔ sock.soType = .raw ∧ (sock.soProto = 0 ∨ proto f ip = sock.soProto)

/-- The loop finds a buffer exactly for the sockets that take the packet. -/
theorem free_eq_none_iff (hw : Asks f ip wants) :
    (if wants sock then findFree sock f else none) = none ↔ ¬ Takes f ip sock := by
  unfold findFree Takes
  by_cases h : wants sock = true
  · have hm := (hw sock).mp h
    rw [if_pos h, List.findIdx?_eq_none_iff]
    simp [hm]
  · have hm := mt (hw sock).mpr h
    rw [if_neg h]
    exact iff_of_true rfl fun ht => hm ⟨ht.1, ht.2.1⟩

/-- The buffer that is found is a free one of the socket. -/
theorem findFree_eq_some {i : ℕ} (h : findFree sock f = some i) :
    sock.soFamily = f ∧ ∃ (hi : i < sock.bufs.length), (sock.bufs[i]).used = false := by
  obtain ⟨hi, hfree, -⟩ := List.findIdx?_eq_some_iff_getElem.mp h
  have hfam : sock.soFamily = f := by
    by_contra hne
    simp [Entry.list, hne] at hi
  simp only [Entry.list, hfam, if_true] at hi hfree
  exact ⟨hfam, hi, by simpa using hfree⟩

/-- A stored packet is the packet that came, when enough is copied. -/
theorem gets_modify {i : ℕ} (hi : i < sock.bufs.length) (hfree : (sock.bufs[i]).used = false)
    (hn : payload f ip ≤ n) :
    Gets f ip sock { sock with bufs := sock.bufs.modify i (store f ip n seq) } := by
  refine ⟨sock.bufs.take i, sock.bufs[i], store f ip n seq sock.bufs[i], sock.bufs.drop (i + 1), ?_, hfree, ?_,
    rfl, ?_, ?_⟩
  · rw [List.getElem_cons_drop, List.take_append_drop]
  · rw [List.modify_eq_take_cons_drop hi]
  · exact Mem.slice_blit_self
  · show Mem.slice (Mem.blit (sock.bufs[i]).rxData 0 ip (sizeofHeader f) n) 0 (payload f ip) = _
    rw [Mem.slice_blit_sub le_rfl (by omega), Nat.sub_self, Nat.add_zero]

/-- A socket that stays as it was has not got the packet. -/
theorem not_gets_self : ¬ Gets f ip sock sock := by
  rintro ⟨pre, raw, raw', post, hbufs, hfree, hself, hused, -⟩
  have hsame : pre ++ raw :: post = pre ++ raw' :: post := hbufs.symm.trans (congrArg Entry.bufs hself)
  have hraw := (List.cons_eq_cons.mp (List.append_cancel_left hsame)).1
  rw [hraw, hused] at hfree
  cases hfree

/-! ## The loop -/

theorem recvLoop_sees (hw : Asks f ip wants) (hn : payload f ip ≤ n) :
    List.Forall₂ (Sees f ip) socks (recvLoop f wants ip n socks seq).socks := by
  induction socks generalizing seq with
  | nil => exact .nil
  | cons sock rest ih =>
    unfold recvLoop
    cases hfree : (if wants sock then findFree sock f else none) with
    | none => exact .cons (by rw [Sees, if_neg ((free_eq_none_iff hw).mp hfree)]) ih
    | some i =>
      have htakes : Takes f ip sock := by
        by_contra hno
        rw [(free_eq_none_iff hw).mpr hno] at hfree
        cases hfree
      obtain ⟨-, hi, hunused⟩ := findFree_eq_some (Option.ite_none_right_eq_some.mp hfree).2
      exact .cons (by rw [Sees, if_pos htakes]; exact gets_modify hi hunused hn) ih

/-- The header and `n` bytes behind it are copied, and nothing else. -/
theorem recvLoop_copied {c : ℕ × ℕ} (h : c ∈ (recvLoop f wants ip n socks seq).copied) :
    c = (0, sizeofHeader f) ∨ c = (sizeofHeader f, n) := by
  induction socks generalizing seq with
  | nil => cases h
  | cons sock rest ih =>
    unfold recvLoop at h
    cases hfree : (if wants sock then findFree sock f else none) with
    | none =>
      rw [hfree] at h
      exact ih h
    | some i =>
      rw [hfree] at h
      rcases List.mem_cons.mp h with rfl | h
      · exact .inl rfl
      rcases List.mem_cons.mp h with rfl | h
      · exact .inr rfl
      · exact ih h

/-- They are copied for every socket that takes the packet. -/
theorem copied_of_takes (hw : Asks f ip wants) (hs : sock ∈ socks) (ht : Takes f ip sock) :
    (sizeofHeader f, n) ∈ (recvLoop f wants ip n socks seq).copied := by
  induction socks generalizing seq with
  | nil => cases hs
  | cons first rest ih =>
    unfold recvLoop
    cases hfree : (if wants first then findFree first f else none) with
    | none =>
      rcases List.mem_cons.mp hs with rfl | hs
      · exact absurd ht ((free_eq_none_iff hw).mp hfree)
      · exact ih hs
    | some i =>
      rcases List.mem_cons.mp hs with rfl | hs
      · exact List.mem_cons_of_mem _ (List.mem_cons_self ..)
      · exact List.mem_cons_of_mem _ (List.mem_cons_of_mem _ (ih hs))

theorem recvLoop_none (hw : Asks f ip wants) (hno : ∀ sock ∈ socks, ¬ Takes f ip sock) :
    recvLoop f wants ip n socks seq = { socks := socks, rawSeq := seq } := by
  induction socks generalizing seq with
  | nil => rfl
  | cons sock rest ih =>
    rw [List.forall_mem_cons] at hno
    rw [recvLoop, (free_eq_none_iff hw).mpr hno.1, ih hno.2]

/-! ## Both functions -/

/-- Sockets that stay as they were have seen the packet when none of them takes it. -/
theorem forall₂_sees_self : List.Forall₂ (Sees f ip) socks socks ↔ ∀ sock ∈ socks, ¬ Takes f ip sock := by
  rw [List.forall₂_same]
  refine forall₂_congr fun sock _ => ?_
  unfold Sees
  split_ifs with ht
  · exact iff_of_false not_gets_self (not_not.mpr ht)
  · exact iff_of_true rfl ht

/-- A function that does nothing. -/
theorem delivered_unchanged (hfits : payload f ip ≤ env.rxSize f) :
    Delivered env f ip socks { socks := socks, rawSeq := seq } ↔ ∀ sock ∈ socks, ¬ Takes f ip sock := by
  rw [← forall₂_sees_self]
  exact ⟨fun h => h.fits hfits, fun h => ⟨by simp, fun _ => h, fun _ => rfl⟩⟩

theorem delivered_long (hlong : env.rxSize f < payload f ip) :
    Delivered env f ip socks { socks := socks, rawSeq := seq } :=
  ⟨by simp, fun h => absurd h (not_le.mpr hlong), fun _ => rfl⟩

theorem sockRaw4Recv_iff : Delivered env .inet ip socks (sockRaw4Recv env ip socks seq) ↔
    Handled env .inet ip socks := by
  have hpayload : payload .inet ip = lengthField .inet ip - 20 := if_neg (by decide)
  have htotal : totalLength .inet ip = lengthField .inet ip := if_neg (by decide)
  have hhandled : Handled env .inet ip socks ↔
      (∀ sock ∈ socks, ¬ Takes .inet ip sock) ∨ env.rxSize .inet < payload .inet ip := by
    unfold Handled
    simp
  rw [hhandled]
  unfold sockRaw4Recv
  by_cases hlen : env.rxSize .inet < lengthField .inet ip
  · rw [if_pos hlen]
    by_cases hlong : env.rxSize .inet < payload .inet ip
    · exact iff_of_true (delivered_long hlong) (.inr hlong)
    · rw [delivered_unchanged (not_lt.mp hlong), or_iff_left hlong]
  · have hshort : ¬ env.rxSize .inet < payload .inet ip := by omega
    have hmin : min (lengthField .inet ip) (env.rxSize .inet) = lengthField .inet ip := min_eq_left (not_lt.mp hlen)
    rw [if_neg hlen, or_iff_left hshort, hmin]
    constructor
    · -- the copy ends 20 bytes behind the packet
      intro h sock hs ht
      have hinside := h.inside _ (copied_of_takes (fun sock => wants4_iff) hs ht)
      have hheader : sizeofHeader .inet = 20 := if_neg (by decide)
      rw [htotal, hheader] at hinside
      dsimp only at hinside
      omega
    · intro hno
      rw [recvLoop_none (fun sock => wants4_iff) hno]
      exact (delivered_unchanged (not_lt.mp hshort)).mpr hno

theorem sockRaw6Recv_iff : Delivered env .inet6 ip socks (sockRaw6Recv env ip socks seq) ↔
    Handled env .inet6 ip socks := by
  have hpayload : payload .inet6 ip = lengthField .inet6 ip := if_pos rfl
  have htotal : totalLength .inet6 ip = 40 + lengthField .inet6 ip := if_pos rfl
  have hheader : sizeofHeader .inet6 = 40 := if_pos rfl
  unfold sockRaw6Recv
  by_cases hlong : env.rxSize .inet6 < lengthField .inet6 ip
  · rw [if_pos hlong]
    exact iff_of_true (delivered_long (hpayload ▸ hlong)) (.inr (.inl (hpayload ▸ hlong)))
  have hfits : payload .inet6 ip ≤ env.rxSize .inet6 := hpayload ▸ not_lt.mp hlong
  rw [if_neg hlong]
  by_cases hus : forUs env ip = true
  · rw [hus, if_neg (by simp), min_eq_left (not_lt.mp hlong)]
    refine iff_of_true ⟨fun c hc => ?_, fun _ => ?_, fun h => absurd h (not_lt.mpr hfits)⟩ (.inr (.inr ⟨rfl, hus⟩))
    · rcases recvLoop_copied hc with rfl | rfl
      · rw [htotal, hheader]
        omega
      · rw [htotal, hheader]
    · exact recvLoop_sees (fun sock => wants6_iff) hpayload.le
  · have hfalse : forUs env ip = false := Bool.eq_false_iff.mpr hus
    rw [hfalse, if_pos (by simp), delivered_unchanged hfits]
    unfold Handled
    rw [or_iff_left (by rw [hfalse]; simp [not_lt.mpr hfits])]

/-- A UDP datagram of 28 bytes. -/
def shortDatagram : ℕ → Byte := fun i => [0x45, 0, 0, 28, 0, 1, 0, 0, 64, 17].getD i 0

/-- A raw socket for UDP with one buffer. -/
def udpWatcher : Entry := { soFamily := .inet, soType := .raw, soProto := 17, bufs := [{}] }

end Watt32.RawSock
