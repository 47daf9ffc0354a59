import Watt32.Tftp.Client

/-!
# A transfer without losses

The client and a server that answers each request and acknowledgment in order.

* `Lossless`, `exchange`: the two ends and what is on the way to the client.
* `waiting`, `ahead`, `Drained`: the states a transfer goes through.
* `Transferable`: the files the client can load.
* **`lossless_iff`**: the transfer succeeds with all bytes of the file exactly if it is transferable.
-/

namespace Watt32.Tftp

open Chunks

/-- The client, the server's session and the packets on the way to the client. -/
structure Lossless where
  client : Client
  session : Option Session := none
  queue : List (List Byte) := []

/-- The server's answer. -/
def serve (file : List Byte) (s : Lossless) : Sent → Lossless
  | .req => { s with session := some {}, queue := s.queue ++ [Session.packet file {}] }
  | .ack block =>
    match s.session with
    | none => s
    | some t =>
      let p := t.acked file block
      { s with
        session := some p.1
        queue := if p.2 then s.queue ++ [p.1.packet file] else s.queue }

/-- The client gets the next packet, or a timeout if none is on the way, and what it sends is
answered. -/
def exchange (cfg : Config) (file : List Byte) (s : Lossless) : Lossless :=
  match s.queue with
  | [] => (s.client.recv cfg .timeout).2.foldl (serve file)
      { s with client := (s.client.recv cfg .timeout).1 }
  | d :: queue => (s.client.recv cfg (.packet d)).2.foldl (serve file)
      { s with client := (s.client.recv cfg (.packet d)).1, queue := queue }

/-- The state after `n` exchanges. -/
def transfer (cfg : Config) (file : List Byte) (isopen : Bool) (n : ℕ) : Lossless :=
  (exchange cfg file)^[n]
    ((Client.start cfg isopen).2.foldl (serve file) { client := (Client.start cfg isopen).1 })

/-- The client is back with success and has written the file. -/
def Loaded (file : List Byte) (s : Lossless) : Prop :=
  s.client.pc = .done 1 ∧ s.client.written.flatten = file

/-- Where the client counts a block to `0`, it writes that block again and loses the next one. No
harm is done if the next one is whole and the same, and a retry is left. -/
def Repeats (retry : ℕ) (file : List Byte) (k : ℕ) : Prop :=
  1 < retry ∧ k * 2 ^ 32 + 1 ≤ file.length / segSize ∧
    fileBlock file (k * 2 ^ 32) = fileBlock file (k * 2 ^ 32 + 1)

/-- At least one whole block, and repetitions where the count of blocks comes to `0`. -/
def Transferable (retry : ℕ) (file : List Byte) : Prop :=
  0 < retry ∧ segSize ≤ file.length ∧
    ∀ k, 0 < k → k * 2 ^ 32 ≤ file.length / segSize → Repeats retry file k

/-! ## States of a transfer -/

variable {cfg : Config} {file : List Byte} {isopen : Bool} {m j : ℕ}

/-- Blocks `1` to `m` are written and block `m + 1` is on its way. -/
def waiting (file : List Byte) (m j : ℕ) : Lossless where
  client :=
    { currblock := BitVec.ofNat 32 m
      blocksize := segSize
      inbuf := fileBlock file m
      isopen := true
      written := chunksTo segSize file m
      pc := .next j }
  session := some { block := m + 1 }
  queue := [Session.packet file { block := m + 1 }]

/-- The client has counted block `m` to `0` and written it twice; block `m + 1` is on its way. -/
def ahead (cfg : Config) (file : List Byte) (m : ℕ) : Lossless where
  client :=
    { currblock := 1
      blocksize := segSize
      inbuf := fileBlock file m
      isopen := true
      written := chunksTo segSize file m ++ [fileBlock file m]
      pc := .next cfg.retry }
  session := some { block := m + 1 }
  queue := [Session.packet file { block := m + 1 }]

theorem exchange_queue {s : Lossless} {d : List Byte} {queue : List (List Byte)}
    (h : s.queue = d :: queue) :
    exchange cfg file s = (s.client.recv cfg (.packet d)).2.foldl (serve file)
      { s with client := (s.client.recv cfg (.packet d)).1, queue := queue } := by
  unfold exchange
  rw [h]

/-- The client takes the block it waits for. -/
theorem recvPacket_waiting (m : ℕ) :
    recvPacket (BitVec.ofNat 32 m + 1) (.packet (Session.packet file { block := m + 1 })) =
      .ok (fileBlock file (m + 1)) := by
  rw [recvPacket_packet, if_pos truncate_ofNat_add_one.symm]

/-- The server sends the next block on an acknowledgment of a whole one. -/
theorem acked_whole (hm : m < file.length / segSize) :
    Session.acked file { block := m + 1 } (BitVec.ofNat 16 (m + 1)) = ({ block := m + 2 }, true) := by
  unfold Session.acked lastBlock
  dsimp only
  rw [if_neg (by simp), if_neg (by omega)]

/-- The last one ends the session. -/
theorem acked_last (file : List Byte) :
    Session.acked file { block := file.length / segSize + 1 }
      (BitVec.ofNat 16 (file.length / segSize + 1)) =
        ({ block := file.length / segSize + 1, ended := true }, false) := by
  unfold Session.acked lastBlock
  dsimp only
  rw [if_neg (by simp), if_pos rfl]

theorem ofNat_eq_zero_iff : BitVec.ofNat 32 m = 0 ↔ 2 ^ 32 ∣ m := by
  rw [← BitVec.toNat_inj, BitVec.toNat_ofNat]
  exact Nat.dvd_iff_mod_eq_zero.symm

theorem fileBlock_ne_nil (hm : m < file.length / segSize) : fileBlock file (m + 1) ≠ [] := by
  intro h
  have := fileBlock_whole hm
  rw [h] at this
  exact absurd this (by decide)

/-- The client with blocks `1` to `m` written and the last of them in its buffer. -/
def atBlock (file : List Byte) (m : ℕ) (pc : Pc) : Client where
  currblock := BitVec.ofNat 32 m
  blocksize := segSize
  inbuf := fileBlock file m
  isopen := true
  written := chunksTo segSize file m
  pc := pc

/-- A whole block goes to the loop of `tftp_boot_load`. -/
theorem recv_waiting (hw : ∀ w b, cfg.write w b = true) (hm : m < file.length / segSize) :
    (waiting file m j).client.recv cfg (.packet (Session.packet file { block := m + 1 })) =
      ((atBlock file (m + 1) (.next j)).bootLoop cfg, [.ack (BitVec.ofNat 16 (m + 1))]) := by
  have hlen : ¬ (fileBlock file (m + 1)).length < segSize := by
    rw [fileBlock_whole hm]
    exact lt_irrefl _
  unfold Client.recv waiting Client.recvNext
  dsimp only
  rw [recvPacket_waiting]
  dsimp only
  rw [if_neg hlen, load_whole hw, if_pos rfl, truncate_ofNat_add_one]
  · dsimp only
    rw [if_neg (fileBlock_ne_nil hm), ofNat_add_one]
    unfold atBlock
    rw [chunksTo_succ]
    rfl
  · exact hlen

/-- The server answers the acknowledgment of a whole block. -/
theorem exchange_whole {s : Lossless} {c : Client} (hm : m < file.length / segSize)
    (hsession : s.session = some { block := m + 1 })
    (hqueue : s.queue = [Session.packet file { block := m + 1 }])
    (hrecv : s.client.recv cfg (.packet (Session.packet file { block := m + 1 })) =
      (c, [.ack (BitVec.ofNat 16 (m + 1))])) :
    exchange cfg file s =
      { client := c
        session := some { block := m + 2 }
        queue := [Session.packet file { block := m + 2 }] } := by
  rw [exchange_queue hqueue, hrecv]
  simp only [List.foldl_cons, List.foldl_nil, serve, hsession, acked_whole hm]
  rfl

/-- A whole block that is not counted to `0`. -/
theorem exchange_waiting (hw : ∀ w b, cfg.write w b = true) (hr : cfg.retry ≠ 0)
    (hm : m < file.length / segSize) (hwrap : ¬ 2 ^ 32 ∣ m + 1) :
    exchange cfg file (waiting file m j) = waiting file (m + 1) cfg.retry := by
  rw [exchange_whole hm rfl rfl (recv_waiting hw hm), bootLoop_next rfl _ hr]
  · rfl
  · exact ofNat_eq_zero_iff.not.mpr hwrap

/-- A whole block that is counted to `0` is written twice. -/
theorem exchange_waiting_zero (hw : ∀ w b, cfg.write w b = true) (hr : cfg.retry ≠ 0)
    (hm : m < file.length / segSize) (hwrap : 2 ^ 32 ∣ m + 1) :
    exchange cfg file (waiting file m j) = ahead cfg file (m + 1) := by
  rw [exchange_whole hm rfl rfl (recv_waiting hw hm), bootLoop_zero hw rfl _ (fileBlock_whole hm) hr]
  · unfold atBlock ahead
    dsimp only
    rw [if_neg (fileBlock_ne_nil hm)]
  · exact ofNat_eq_zero_iff.mpr hwrap

/-- The last block ends the transfer. -/
theorem exchange_waiting_last (hw : ∀ w b, cfg.write w b = true) :
    Loaded file (exchange cfg file (waiting file (file.length / segSize) j)) := by
  have hlen : (fileBlock file (file.length / segSize + 1)).length < segSize := fileBlock_last
  rw [exchange_queue rfl]
  unfold Client.recv waiting Client.recvNext
  dsimp only
  rw [recvPacket_waiting]
  dsimp only
  rw [load_short hw]
  · simp only [List.foldl_cons, List.foldl_nil, serve, truncate_ofNat_add_one, acked_last]
    refine ⟨rfl, ?_⟩
    have hlast : (if fileBlock file (file.length / segSize + 1) = [] then []
        else [fileBlock file (file.length / segSize + 1)]).flatten =
          chunk segSize file (file.length / segSize) := by
      split_ifs with hnil
      · exact hnil.symm
      · exact List.flatten_singleton
    have := flatten_chunks (l := file) segSize_pos
    rw [chunksTo_succ, List.flatten_append, List.flatten_singleton] at this
    simpa [hlast] using this
  · exact hlen

theorem ofNat_add_one_of_dvd {w : ℕ} (hw : w ≤ 32) (h : 2 ^ 32 ∣ m) :
    BitVec.ofNat w (m + 1) = BitVec.ofNat w 1 := by
  rw [← BitVec.toNat_inj, BitVec.toNat_ofNat, BitVec.toNat_ofNat, Nat.add_mod,
    Nat.mod_eq_zero_of_dvd ((pow_dvd_pow 2 hw).trans h), Nat.zero_add, Nat.mod_mod]

/-- Ahead of the client, the server sends a block that the client does not wait for. -/
theorem recv_ahead (hwrap : 2 ^ 32 ∣ m) :
    (ahead cfg file m).client.recv cfg (.packet (Session.packet file { block := m + 1 })) =
      (if cfg.retry ≤ 1 then { (ahead cfg file m).client with isopen := false, pc := .done 0 }
        else { (ahead cfg file m).client with pc := .next (cfg.retry - 1) },
        [.ack (BitVec.ofNat 16 (m + 1))]) := by
  have hnum : BitVec.ofNat 16 (m + 1) = BitVec.ofNat 16 1 := ofNat_add_one_of_dvd (by decide) hwrap
  have hrecv : recvPacket (1 + 1) (.packet (Session.packet file { block := m + 1 })) =
      .error .block := by
    rw [recvPacket_packet]
    dsimp only
    rw [hnum, if_neg (by decide)]
  unfold Client.recv ahead Client.recvNext
  dsimp only
  rw [hrecv, hnum]
  dsimp only
  rw [if_neg (by decide)]
  split_ifs <;> rfl

/-- The client's acknowledgment of the block before makes the server send the next one. -/
theorem exchange_ahead (hwrap : 2 ^ 32 ∣ m) (hm : m < file.length / segSize) (hr : 1 < cfg.retry)
    (heq : fileBlock file m = fileBlock file (m + 1)) :
    exchange cfg file (ahead cfg file m) = waiting file (m + 1) (cfg.retry - 1) := by
  rw [exchange_whole hm rfl rfl (recv_ahead hwrap), if_neg (by omega)]
  unfold ahead waiting
  dsimp only
  rw [ofNat_add_one_of_dvd (by decide) hwrap, heq, chunksTo_succ]
  rfl

/-! ## Transfers that fail -/

/-- The client has given up, nothing will reach it any more, or it has written something else. -/
def Doomed (file : List Byte) (s : Lossless) : Prop :=
  s.client.pc = .done 0 ∨
  (s.queue = [] ∧ (∃ t, s.session = some t ∧ t.ended = true) ∧ ∃ j, s.client.pc = .next j) ∨
  ¬ s.client.written.flatten <+: file

theorem Doomed.not_loaded {s : Lossless} (h : Doomed file s) : ¬ Loaded file s := by
  rintro ⟨hpc, hwritten⟩
  rcases h with h | ⟨-, -, j, h⟩ | h
  · rw [hpc] at h
    cases h
  · rw [hpc] at h
    cases h
  · exact h (hwritten ▸ List.prefix_rfl)

theorem foldl_serve_client (s : Lossless) (sent : List Sent) :
    (sent.foldl (serve file) s).client = s.client := by
  induction sent generalizing s with
  | nil => rfl
  | cons a sent ih =>
    rw [List.foldl_cons, ih]
    cases a with
    | req => rfl
    | ack block =>
      unfold serve
      dsimp only
      split <;> rfl

/-- What an exchange does to the client. -/
theorem exchange_client (cfg : Config) (file : List Byte) (s : Lossless) :
    ∃ r, (exchange cfg file s).client = (s.client.recv cfg r).1 := by
  unfold exchange
  split
  · exact ⟨_, foldl_serve_client _ _⟩
  · exact ⟨_, foldl_serve_client _ _⟩

/-- A client that is back stays so. -/
theorem exchange_done {s : Lossless} {rc : ℤ} (h : s.client.pc = .done rc) :
    (exchange cfg file s).client = s.client := by
  obtain ⟨r, hr⟩ := exchange_client cfg file s
  rw [hr]
  unfold Client.recv
  rw [h]

theorem exchange_doomed {s : Lossless} (h : Doomed file s) : Doomed file (exchange cfg file s) := by
  rcases h with h | ⟨hqueue, ⟨t, ht, hended⟩, j, hpc⟩ | h
  · exact .inl ((exchange_done h).symm ▸ h)
  · -- nothing comes but timeouts, and the server has no answer to the acknowledgments
    have hacked : ∀ block, t.acked file block = (t, false) := fun block => by
      unfold Session.acked
      rw [if_pos (.inl hended)]
    unfold exchange Client.recv Client.recvNext recvPacket
    rw [hqueue, hpc]
    dsimp only
    rw [if_neg (by decide)]
    split_ifs with hj
    · simp only [List.foldl_cons, List.foldl_nil, serve, ht]
      exact .inl rfl
    · simp only [List.foldl_cons, List.foldl_nil, serve, ht, hacked]
      exact .inr (.inl ⟨rfl, ⟨t, rfl, hended⟩, _, rfl⟩)
  · refine .inr (.inr fun hpre => h (List.IsPrefix.trans ?_ hpre))
    obtain ⟨r, hr⟩ := exchange_client cfg file s
    obtain ⟨more, hmore⟩ := recv_written cfg s.client r
    rw [hr, ← hmore, List.flatten_append]
    exact List.prefix_append _ _

theorem transfer_succ (n : ℕ) :
    transfer cfg file isopen (n + 1) = exchange cfg file (transfer cfg file isopen n) :=
  Function.iterate_succ_apply' _ _ _

/-- A transfer that is doomed at some time never succeeds. -/
theorem not_loaded_of_doomed {n : ℕ} (h : Doomed file (transfer cfg file isopen n)) (k : ℕ) :
    ¬ Loaded file (transfer cfg file isopen k) := by
  intro hloaded
  have hdoomed : ∀ i, Doomed file (transfer cfg file isopen (n + i)) := by
    intro i
    induction i with
    | zero => exact h
    | succ i ih => exact (transfer_succ (n + i)).symm ▸ exchange_doomed ih
  have hstays : ∀ i, Loaded file (transfer cfg file isopen (k + i)) := by
    intro i
    induction i with
    | zero => exact hloaded
    | succ i ih =>
      unfold Loaded at ih ⊢
      rwa [← Nat.add_assoc, transfer_succ, exchange_done ih.1]
  exact (hdoomed k).not_loaded (Nat.add_comm k n ▸ hstays n)

/-! ## The course of a transfer -/

/-- The client with the first block written. -/
def firstBlock (cfg : Config) (file : List Byte) : Client where
  currblock := 1
  blocksize := (fileBlock file 1).length
  inbuf := fileBlock file 1
  isopen := true
  written := if fileBlock file 1 = [] then [] else [fileBlock file 1]
  pc := .next cfg.retry

theorem recv_first (hw : ∀ w b, cfg.write w b = true) (hr : cfg.retry ≠ 0) :
    ({ isopen := isopen, pc := .first cfg.retry } : Client).recv cfg
      (.packet (Session.packet file {})) = (firstBlock cfg file, [.ack 1]) := by
  have hrecv : recvPacket 1 (.packet (Session.packet file {})) = .ok (fileBlock file 1) := by
    rw [recvPacket_packet]
    exact if_pos rfl
  unfold Client.recv Client.recvFirst
  dsimp only
  rw [hrecv]
  dsimp only
  rw [bootLoop_zero hw rfl rfl rfl hr]
  rfl

theorem transfer_one (hw : ∀ w b, cfg.write w b = true) (hr : cfg.retry ≠ 0) :
    transfer cfg file isopen 1 = serve file
      { client := firstBlock cfg file, session := some {}, queue := [] } (.ack 1) := by
  have hstart : transfer cfg file isopen 0 =
      { client := { isopen := isopen, pc := .first cfg.retry }
        session := some {}
        queue := [Session.packet file {}] } := by
    unfold transfer Client.start
    rw [if_neg hr]
    rfl
  rw [transfer_succ, hstart, exchange_queue rfl]
  dsimp only
  rw [recv_first hw hr]
  rfl

/-- The state after `m` whole blocks. -/
theorem transfer_whole (isopen : Bool) (hw : ∀ w b, cfg.write w b = true) (hr : cfg.retry ≠ 0) (hpos : 0 < m)
    (hm : m ≤ file.length / segSize)
    (hgood : ∀ k, 0 < k → k * 2 ^ 32 < m → Repeats cfg.retry file k) :
    if 2 ^ 32 ∣ m then ∃ n, transfer cfg file isopen n = ahead cfg file m
      else ∃ n j, transfer cfg file isopen n = waiting file m j := by
  induction m with
  | zero => exact absurd hpos (lt_irrefl 0)
  | succ m ih =>
    rcases Nat.eq_zero_or_pos m with rfl | hpos'
    · rw [if_neg (by decide)]
      refine ⟨1, cfg.retry, ?_⟩
      have hacked : Session.acked file {} 1 = ({ block := 2 }, true) := acked_whole hm
      rw [transfer_one hw hr]
      unfold serve firstBlock
      dsimp only
      rw [hacked, if_pos rfl, if_neg (fileBlock_ne_nil hm), fileBlock_whole hm]
      rfl
    · have ih := ih hpos' (by omega) fun k hk hkm => hgood k hk (by omega)
      by_cases hdvd : 2 ^ 32 ∣ m
      · rw [if_pos hdvd] at ih
        obtain ⟨n, hn⟩ := ih
        obtain ⟨k, hk⟩ := hdvd
        obtain ⟨hretry, -, heq⟩ := hgood k (by omega) (by omega)
        have hkm : k * 2 ^ 32 = m := by omega
        rw [hkm] at heq
        rw [if_neg (by omega)]
        exact ⟨n + 1, cfg.retry - 1, by
          rw [transfer_succ, hn, exchange_ahead ⟨k, hk⟩ hm hretry heq]⟩
      · rw [if_neg hdvd] at ih
        obtain ⟨n, j, hn⟩ := ih
        split_ifs with hwrap
        · exact ⟨n + 1, by rw [transfer_succ, hn, exchange_waiting_zero hw hr hm hwrap]⟩
        · exact ⟨n + 1, _, by rw [transfer_succ, hn, exchange_waiting hw hr hm hwrap]⟩

/-- A transferable file is loaded. -/
theorem loaded_of_transferable (hw : ∀ w b, cfg.write w b = true)
    (h : Transferable cfg.retry file) : ∃ n, Loaded file (transfer cfg file isopen n) := by
  obtain ⟨hr, hlen, hgood⟩ := h
  have hpos : 0 < file.length / segSize := Nat.div_pos hlen segSize_pos
  have hwhole := transfer_whole isopen hw hr.ne' hpos le_rfl fun k hk hkm =>
    hgood k hk hkm.le
  have hdvd : ¬ 2 ^ 32 ∣ file.length / segSize := by
    rintro ⟨k, hk⟩
    have := (hgood k (by omega) (by omega)).2.1
    omega
  rw [if_neg hdvd] at hwhole
  obtain ⟨n, j, hn⟩ := hwhole
  exact ⟨n + 1, by rw [transfer_succ, hn]; exact exchange_waiting_last hw⟩

/-- A file of less than a block: the server is done and the client waits for more. -/
theorem doomed_of_short (hw : ∀ w b, cfg.write w b = true) (hr : cfg.retry ≠ 0)
    (hlen : file.length < segSize) : Doomed file (transfer cfg file isopen 1) := by
  have hzero : file.length / segSize = 0 := Nat.div_eq_of_lt hlen
  have hacked : Session.acked file {} 1 = ({ ended := true }, false) := by
    have := acked_last file
    rwa [hzero] at this
  refine .inr (.inl ?_)
  rw [transfer_one hw hr]
  unfold serve
  dsimp only
  rw [hacked]
  exact ⟨rfl, ⟨_, rfl, rfl⟩, _, rfl⟩

/-- The block after the ones written, where what is written goes on with it. -/
theorem fileBlock_append (hpos : 0 < m) (hm : m ≤ file.length / segSize)
    (h : (chunksTo segSize file m ++ [fileBlock file m]).flatten <+: file) :
    fileBlock file m = fileBlock file (m + 1) := by
  have hlen : (fileBlock file m).length = segSize := chunk_whole segSize_pos (by omega)
  rw [List.flatten_append, flatten_chunksTo, List.flatten_singleton] at h
  obtain ⟨rest, hrest⟩ := h
  have hle : segSize * m ≤ file.length :=
    Nat.mul_comm m segSize ▸ (Nat.le_div_iff_mul_le segSize_pos).mp hm
  have hdrop : file.drop (segSize * m) = fileBlock file m ++ rest := by
    conv_lhs => rw [← hrest]
    rw [List.append_assoc, List.drop_left' (by rw [List.length_take]; omega)]
  unfold fileBlock at hdrop hlen ⊢
  rw [Nat.add_sub_cancel]
  conv_rhs => unfold chunk
  rw [hdrop, List.take_left' hlen]

/-- A block counted to `0` that is not repeated. -/
theorem exchange_ahead_doomed (hwrap : 2 ^ 32 ∣ m) (hpos : 0 < m) (hm : m ≤ file.length / segSize)
    (hno : ¬ (1 < cfg.retry ∧ m + 1 ≤ file.length / segSize ∧
      fileBlock file m = fileBlock file (m + 1))) :
    Doomed file (exchange cfg file (ahead cfg file m)) := by
  by_cases heq : fileBlock file m = fileBlock file (m + 1)
  · rw [exchange_queue rfl, show (ahead cfg file m).client.recv cfg
      (.packet (Session.packet file { block := m + 1 })) = _ from recv_ahead hwrap]
    by_cases hr : cfg.retry ≤ 1
    · -- no retry is left for the block that does not fit
      refine .inl ?_
      rw [foldl_serve_client, if_pos hr]
    · -- the server takes the acknowledgment for that of the last block
      have hlast : m = file.length / segSize := by
        have hle : ¬ m + 1 ≤ file.length / segSize := fun hle => hno ⟨not_le.mp hr, hle, heq⟩
        omega
      refine .inr (.inl ?_)
      rw [if_neg hr, hlast]
      simp only [ahead, List.foldl_cons, List.foldl_nil, serve, acked_last]
      exact ⟨rfl, ⟨_, rfl, rfl⟩, _, rfl⟩
  · exact exchange_doomed (.inr (.inr fun h => heq (fileBlock_append hpos hm h)))

theorem exists_least {p : ℕ → Prop} (h : ∃ n, p n) : ∃ n, p n ∧ ∀ i < n, ¬ p i := by
  classical
  exact ⟨Nat.find h, Nat.find_spec h, fun i hi => Nat.find_min h hi⟩

/-- Any other file dooms the transfer. -/
theorem doomed_of_not_transferable (isopen : Bool) (hw : ∀ w b, cfg.write w b = true)
    (h : ¬ Transferable cfg.retry file) : ∃ n, Doomed file (transfer cfg file isopen n) := by
  by_cases hr : cfg.retry = 0
  · refine ⟨0, .inl ?_⟩
    unfold transfer Client.start
    rw [if_pos hr]
    rfl
  by_cases hlen : segSize ≤ file.length
  · -- the first block counted to `0` that is not repeated
    have hbad : ∃ k, 0 < k ∧ k * 2 ^ 32 ≤ file.length / segSize ∧ ¬ Repeats cfg.retry file k := by
      by_contra hno
      refine h ⟨Nat.pos_of_ne_zero hr, hlen, fun k hk hkm => ?_⟩
      by_contra hrep
      exact hno ⟨k, hk, hkm, hrep⟩
    obtain ⟨k, ⟨hk, hkm, hrep⟩, hmin⟩ := exists_least hbad
    have hwhole := transfer_whole isopen hw hr (m := k * 2 ^ 32) (by omega) hkm
      fun i hi hik => by
        by_contra hrep
        exact hmin i (Nat.lt_of_mul_lt_mul_right hik) ⟨hi, hik.le.trans hkm, hrep⟩
    rw [if_pos (dvd_mul_left _ _)] at hwhole
    obtain ⟨n, hn⟩ := hwhole
    exact ⟨n + 1, by
      rw [transfer_succ, hn]
      exact exchange_ahead_doomed (dvd_mul_left _ _) (by omega) hkm hrep⟩
  · exact ⟨1, doomed_of_short hw hr (not_le.mp hlen)⟩

/-- **The transfer succeeds with all bytes of the file exactly if the file is transferable.** -/
theorem lossless_iff (cfg : Config) (hw : ∀ w b, cfg.write w b = true) (file : List Byte)
    (isopen : Bool) :
    (∃ n, Loaded file (transfer cfg file isopen n)) ↔ Transferable cfg.retry file := by
  refine ⟨fun ⟨n, hn⟩ => ?_, loaded_of_transferable hw⟩
  by_contra hno
  obtain ⟨k, hk⟩ := doomed_of_not_transferable isopen hw hno
  exact not_loaded_of_doomed hk n hn

theorem lossless_block :
    (∃ n, Loaded (List.replicate 512 0) (transfer {} (List.replicate 512 0) false n)) ↔
      Transferable 5 (List.replicate 512 0) :=
  lossless_iff {} (fun _ _ => rfl) (List.replicate 512 0) false

/-- A file of one byte. -/
theorem lossless_fails : ¬ ∃ n, Loaded [0x41] (transfer {} [0x41] false n) := fun ⟨n, hn⟩ =>
  not_loaded_of_doomed (doomed_of_short (fun _ _ => rfl) (by decide) (by decide)) n hn

end Watt32.Tftp
