import Watt32.Tftp.Lossless
import Watt32.Tftp.Safety

/-!
# Late acknowledgments

A DATA packet and an acknowledgment have the lower half of the block's number. The client takes
a block for one that is 65536 blocks before it if the server is that far ahead, and late
acknowledgments take it there.

* `apart`: the client at block `n`, its session `j` blocks further.
* **`reachable_apart`**: for `n` a multiple of 65536, every `j` up to `n`.
-/

namespace Watt32.Tftp

open Chunks Machine

variable {cfg : Config} {file : List Byte} {port n i j : ℕ}

/-- The DATA datagrams of session `0` for the blocks up to `n`. -/
def dataTo (file : List Byte) (port n : ℕ) : List DataGram :=
  (List.range n).map fun i => ⟨port, 0, i + 1, Session.packet file { block := i + 1 }⟩

/-- The request and the acknowledgments for the blocks up to `n`. -/
def acksTo (port n : ℕ) : List ToServer :=
  .req port :: (List.range n).map fun i => .ack 0 (BitVec.ofNat 16 (i + 1)) (i + 1)

/-- Session `0` has sent the blocks up to `n + j + 1`, and the client has acknowledged those up to
`n`. -/
def apart (cfg : Config) (file : List Byte) (port n j : ℕ) : Net where
  client := atBlock file n (.next cfg.retry)
  port := port
  peer := some 0
  sessions := [(port, { block := n + j + 1 })]
  toClient := dataTo file port (n + j + 1)
  toServer := acksTo port n

theorem dataTo_succ (n : ℕ) : dataTo file port (n + 1) =
    dataTo file port n ++ [⟨port, 0, n + 1, Session.packet file { block := n + 1 }⟩] := by
  unfold dataTo
  rw [List.range_succ, List.map_append]
  rfl

theorem acksTo_succ (n : ℕ) :
    acksTo port (n + 1) = acksTo port n ++ [.ack 0 (BitVec.ofNat 16 (n + 1)) (n + 1)] := by
  unfold acksTo
  rw [List.range_succ, List.map_append]
  rfl

theorem dataTo_getElem? (h : j < n) : (dataTo file port n)[j]? =
    some ⟨port, 0, j + 1, Session.packet file { block := j + 1 }⟩ := by
  unfold dataTo
  rw [List.getElem?_map, List.getElem?_range h]
  rfl

theorem acksTo_getElem? (h : j < n) :
    (acksTo port n)[j + 1]? = some (.ack 0 (BitVec.ofNat 16 (j + 1)) (j + 1)) := by
  unfold acksTo
  rw [List.getElem?_cons_succ, List.getElem?_map, List.getElem?_range h]
  rfl

/-- The server answers the acknowledgment for the block that it has sent last. -/
theorem step_ack {s : Net} {i m num : ℕ} {block : Word}
    (hack : s.toServer[i]? = some (.ack 0 block num)) (hs : s.sessions = [(port, { block := m + 1 })])
    (hblock : block = BitVec.ofNat 16 (m + 1)) (hlast : m < file.length / segSize) :
    stepNet cfg file s (.toServer i) = { s with
      sessions := [(port, { block := m + 2 })]
      toClient := s.toClient ++ [⟨port, 0, m + 2, Session.packet file { block := m + 2 }⟩] } := by
  dsimp only [stepNet]
  rw [hack]
  dsimp only
  rw [hs, List.getElem?_cons_zero]
  dsimp only
  rw [hblock, acked_whole hlast]
  rfl

theorem ofNat_add_of_dvd (hn : 65536 ∣ n) (m : ℕ) : BitVec.ofNat 16 (n + m) = BitVec.ofNat 16 m := by
  obtain ⟨q, rfl⟩ := hn
  rw [← BitVec.toNat_inj, BitVec.toNat_ofNat, BitVec.toNat_ofNat]
  omega

/-- A late acknowledgment is for the block that the server has sent last. -/
theorem step_apart (hj : j < n) (hn : 65536 ∣ n) (hlast : n + j < file.length / segSize) :
    stepNet cfg file (apart cfg file port n j) (.toServer (j + 1)) =
      apart cfg file port n (j + 1) := by
  have hnum : BitVec.ofNat 16 (j + 1) = BitVec.ofNat 16 (n + j + 1) := by
    rw [Nat.add_assoc, ofNat_add_of_dvd hn]
  rw [step_ack (acksTo_getElem? hj) rfl hnum hlast]
  unfold apart
  rw [show n + (j + 1) + 1 = n + j + 1 + 1 from rfl, dataTo_succ (n + j + 1)]

/-- The client takes the next block. -/
theorem recv_atBlock (hw : ∀ w b, cfg.write w b = true) (hr : cfg.retry ≠ 0)
    (hn : n < file.length / segSize) (hwrap : n + 1 < 2 ^ 32) :
    (atBlock file n (.next cfg.retry)).recv cfg (.packet (Session.packet file { block := n + 1 })) =
      (atBlock file (n + 1) (.next cfg.retry), [.ack (BitVec.ofNat 16 (n + 1))]) := by
  refine (recv_waiting hw hn).trans ?_
  rw [bootLoop_next rfl _ hr]
  · rfl
  · exact ofNat_eq_zero_iff.not.mpr fun h => by
      have := Nat.le_of_dvd n.succ_pos h
      omega

/-- Both take a step without loss. -/
theorem step_step_apart (hw : ∀ w b, cfg.write w b = true) (hr : cfg.retry ≠ 0)
    (hn : n < file.length / segSize) (hwrap : n + 1 < 2 ^ 32) :
    stepNet cfg file (stepNet cfg file (apart cfg file port n 0) (.toClient n 0))
      (.toServer (n + 1)) = apart cfg file port (n + 1) 0 := by
  have hdata : stepNet cfg file (apart cfg file port n 0) (.toClient n 0) =
      { apart cfg file port n 0 with
        client := atBlock file (n + 1) (.next cfg.retry)
        toServer := (apart cfg file port (n + 1) 0).toServer } := by
    dsimp only [stepNet]
    rw [show (apart cfg file port n 0).toClient[n]? = _ from dataTo_getElem? (Nat.lt_succ_self n)]
    dsimp only
    rw [if_pos ⟨rfl, .inr rfl⟩]
    unfold Net.receive
    rw [show (({ apart cfg file port n 0 with peer := some 0 } : Net).client.recv cfg
      (.packet (Session.packet file { block := n + 1 }))) = _ from recv_atBlock hw hr hn hwrap]
    have hnum : (BitVec.ofNat 32 (n + 1)).toNat = n + 1 := by
      rw [BitVec.toNat_ofNat, Nat.mod_eq_of_lt hwrap]
    dsimp only [List.foldl_cons, List.foldl_nil, Net.send, apart, atBlock]
    rw [hnum, acksTo_succ]
  rw [hdata, step_ack (m := n) (acksTo_getElem? (Nat.lt_succ_self n)) rfl rfl hn]
  unfold apart
  rw [show n + 1 + 0 + 1 = n + 0 + 1 + 1 from rfl, dataTo_succ (n + 0 + 1)]

/-- The first block. -/
theorem step_start (hw : ∀ w b, cfg.write w b = true) (hr : cfg.retry ≠ 0) (isopen : Bool)
    (hlen : 0 < file.length / segSize) :
    run (stepNet cfg file) (Net.start cfg isopen port) [.toServer 0, .toClient 0 0, .toServer 1] =
      apart cfg file port 1 0 := by
  have hfirst : firstBlock cfg file = atBlock file 1 (.next cfg.retry) := by
    unfold firstBlock atBlock
    rw [if_neg (fileBlock_ne_nil hlen), fileBlock_whole hlen]
    rfl
  unfold Net.start Client.start
  rw [if_neg hr]
  rw [run_cons, run_cons, run_cons, run_nil]
  have hreq : stepNet cfg file (Net.send port
      { client := { isopen := isopen, pc := .first cfg.retry }, port := port } .req) (.toServer 0) =
      { client := { isopen := isopen, pc := .first cfg.retry }
        port := port
        sessions := [(port, {})]
        toClient := dataTo file port 1
        toServer := acksTo port 0 } := rfl
  have hdata : stepNet cfg file
      { client := { isopen := isopen, pc := .first cfg.retry }
        port := port
        sessions := [(port, {})]
        toClient := dataTo file port 1
        toServer := acksTo port 0 } (.toClient 0 0) =
      { client := atBlock file 1 (.next cfg.retry)
        port := port
        peer := some 0
        sessions := [(port, {})]
        toClient := dataTo file port 1
        toServer := acksTo port 1 } := by
    dsimp only [stepNet]
    rw [dataTo_getElem? Nat.one_pos]
    dsimp only
    rw [if_pos ⟨rfl, .inl rfl⟩]
    unfold Net.receive
    dsimp only
    rw [recv_first hw hr, hfirst]
    rfl
  dsimp only [List.foldl_cons, List.foldl_nil]
  rw [hreq, hdata, step_ack (m := 0) (acksTo_getElem? Nat.one_pos) rfl rfl hlen]
  unfold apart
  rw [show 1 + 0 + 1 = 1 + 1 from rfl, dataTo_succ 1]

/-- A datagram that the session has just sent is not late. -/
theorem freshData_apart (h : i < n + j + 1) (hi : n ≤ i) :
    FreshData (apart cfg file port n j) (.toClient i 0) := by
  intro d hd
  have hget : (apart cfg file port n j).toClient[i]? = _ := dataTo_getElem? h
  rw [hget] at hd
  cases hd
  have : (BitVec.ofNat 32 n).toNat ≤ n := by
    rw [BitVec.toNat_ofNat]
    exact Nat.mod_le _ _
  show (BitVec.ofNat 32 n).toNat < i + 1 + 65535
  omega

/-- Without loss the client comes to block `n`. -/
theorem reachable_rounds (hw : ∀ w b, cfg.write w b = true) (hr : cfg.retry ≠ 0) (isopen : Bool)
    (hpos : 0 < n) (hn : n ≤ file.length / segSize) (hwrap : n < 2 ^ 32) :
    Reachable (stepNet cfg file) FreshData (Net.start cfg isopen port)
      (apart cfg file port n 0) := by
  induction n, hpos using Nat.le_induction with
  | base =>
    refine ⟨[.toServer 0, .toClient 0 0, .toServer 1], ⟨trivial, ?_, trivial, trivial⟩,
      step_start hw hr isopen hn⟩
    unfold Net.start Client.start
    rw [if_neg hr]
    exact fun d _ => Nat.lt_of_lt_of_le (by decide : (0 : Dword).toNat < 65535)
      (Nat.le_add_left 65535 d.num)
  | succ n _ ih =>
    have ih := ih (by omega) (by omega)
    refine (ih.tail (a := .toClient n 0) ?_ rfl).tail (a := .toServer (n + 1)) trivial
      (step_step_apart hw hr hn hwrap)
    exact freshData_apart (Nat.lt_succ_self n) le_rfl

/-- **Late acknowledgments take the server ahead.** -/
theorem reachable_apart (hw : ∀ w b, cfg.write w b = true) (hr : cfg.retry ≠ 0) (isopen : Bool)
    (port : ℕ) (hpos : 0 < n) (hn : 65536 ∣ n) (hj : j ≤ n) (hlast : n + j ≤ file.length / segSize)
    (hwrap : n < 2 ^ 32) :
    Reachable (stepNet cfg file) FreshData (Net.start cfg isopen port)
      (apart cfg file port n j) := by
  induction j with
  | zero => exact reachable_rounds hw hr isopen hpos hlast hwrap
  | succ j ih =>
    exact (ih (by omega) (by omega)).tail (a := .toServer (j + 1)) trivial (step_apart hj hn hlast)

/-- The block that the server is at has the number of the one that the client waits for. -/
theorem written_apart (hn : 65536 ∣ n) (hlast : n + n < file.length / segSize)
    (hwrap : n + 1 < 2 ^ 32) :
    (stepNet cfg file (apart cfg file port n n) (.toClient (n + n) 0)).client.written =
      chunksTo segSize file n ++ [fileBlock file (n + n + 1)] := by
  have hrecv : recvPacket (BitVec.ofNat 32 n + 1)
      (.packet (Session.packet file { block := n + n + 1 })) = .ok (fileBlock file (n + n + 1)) := by
    rw [recvPacket_packet, if_pos]
    rw [truncate_ofNat_add_one, Nat.add_assoc, ofNat_add_of_dvd hn]
  obtain ⟨isopen, pc, hc, -⟩ := recvNext_ok cfg cfg.retry
    (c := atBlock file n (.next cfg.retry)) hrecv rfl (fun _ => by
      rw [show (atBlock file n (.next cfg.retry)).currblock = BitVec.ofNat 32 n from rfl,
        ofNat_add_one, ne_eq, ofNat_eq_zero_iff]
      exact Nat.not_dvd_of_pos_of_lt n.succ_pos hwrap)
  have hget : (apart cfg file port n n).toClient[n + n]? = _ :=
    dataTo_getElem? (Nat.lt_succ_self (n + n))
  dsimp only [stepNet]
  rw [hget]
  dsimp only
  rw [if_pos ⟨rfl, .inr rfl⟩]
  unfold Net.receive
  rw [show (({ apart cfg file port n n with peer := some 0 } : Net).client.recv cfg
    (.packet (Session.packet file { block := n + n + 1 }))) = _ from hc,
    if_neg (fileBlock_ne_nil hlast)]
  rfl

/-- **A block in another's place.** Over a network that delays acknowledgments but no DATA datagram,
block `2 * n + 1` is written after block `n`, for `n` a multiple of 65536. -/
theorem late_block (cfg : Config) (file : List Byte) (hw : ∀ w b, cfg.write w b = true) (hr : cfg.retry ≠ 0) (isopen : Bool)
    (port : ℕ) (hpos : 0 < n) (hn : 65536 ∣ n) (hlast : n + n < file.length / segSize)
    (hwrap : n + 1 < 2 ^ 32) :
    ∃ evs, Always (stepNet cfg file) FreshData (Net.start cfg isopen port) evs ∧
      (run (stepNet cfg file) (Net.start cfg isopen port) evs).client.written =
        chunksTo segSize file n ++ [fileBlock file (n + n + 1)] := by
  have hreach := (reachable_apart hw hr isopen port hpos hn le_rfl hlast.le
    (by omega)).tail (a := .toClient (n + n) 0) (freshData_apart (by omega) (by omega)) rfl
  obtain ⟨evs, hevs, hrun⟩ := hreach
  exact ⟨evs, hevs, hrun ▸ written_apart hn hlast hwrap⟩

/-- A file of `n + n` blocks of `0` and a block of `1`. -/
def markedFile (n : ℕ) : List Byte :=
  List.replicate (segSize * (n + n)) 0 ++ List.replicate segSize 1

theorem length_markedFile : (markedFile n).length / segSize = n + n + 1 := by
  unfold markedFile
  rw [List.length_append, List.length_replicate, List.length_replicate, ← Nat.mul_succ,
    Nat.mul_div_cancel_left _ segSize_pos]

theorem fileBlock_markedFile :
    fileBlock (markedFile n) (n + n + 1) = List.replicate segSize 1 := by
  unfold fileBlock chunk markedFile
  rw [Nat.add_sub_cancel, List.drop_left' List.length_replicate]
  exact List.take_of_length_le List.length_replicate.le

/-- The marked block does not come after block `n`. -/
theorem markedFile_order (hn : 0 < n) :
    ¬ (markedFile n).take (segSize * n) ++ List.replicate segSize 1 <+: markedFile n := by
  rintro ⟨rest, h⟩
  have hle : segSize * n ≤ (markedFile n).length := by
    have := Nat.mul_le_of_le_div _ _ _ (by rw [length_markedFile]; omega : n ≤ (markedFile n).length / segSize)
    rwa [Nat.mul_comm]
  have hget := congrArg (fun l => l[segSize * n]?) h
  have hlt : segSize * n < segSize * (n + n) := Nat.mul_lt_mul_of_pos_left (by omega) segSize_pos
  have hfile : (markedFile n)[segSize * n]? = some 0 := by
    unfold markedFile
    rw [List.getElem?_append_left (by rwa [List.length_replicate]),
      List.getElem?_replicate_of_lt hlt]
  rw [hfile, List.append_assoc, List.getElem?_append_right (by rw [List.length_take]; omega),
    List.length_take, Nat.min_eq_left hle, Nat.sub_self] at hget
  have hone : (List.replicate segSize (1 : Byte) ++ rest)[0]? = some 1 := rfl
  rw [hone] at hget
  exact absurd hget (by decide)

/-- Not for `markedFile 65536`, with acknowledgments `1` to `65536` delivered twice. -/
theorem net_unsafe : ¬ ∀ (cfg : Config) (file : List Byte) (isopen : Bool) (port : ℕ)
    (evs : List NetEvent), Always (stepNet cfg file) FreshData (Net.start cfg isopen port) evs →
      Safe file (run (stepNet cfg file) (Net.start cfg isopen port) evs) := by
  intro h
  obtain ⟨evs, hevs, hwritten⟩ := late_block {} (markedFile 65536) (n := 65536)
    (fun _ _ => rfl) (by decide) false 69 (by decide) (dvd_refl _)
    (by rw [length_markedFile]; decide) (by decide)
  have hprefix := (h {} (markedFile 65536) false 69 evs hevs).bytes
  rw [hwritten, List.flatten_append, flatten_chunksTo, fileBlock_markedFile,
    List.flatten_singleton] at hprefix
  exact markedFile_order (by decide) hprefix

end Watt32.Tftp
